import Soes.Properties.InboxRelease

/-!
# The extent of an object

Three loops walk the rows of an object, and each of them learns where the rows end from `maxsub`.
`SDO_findsubindex` and `complete_access_subindex_loop` take it for the position of the last row,
and are right about any table whose subindexes ascend if it is that.  `COE_initDefaultValues` goes
on as long as the subindex of a row is below it, and so takes it for a subindex.  The two agree on
a dense table.  On a sparse one there is a `maxsub` that is right for all three only if nothing but
the last row is out of its place (`traversals_agree_iff`).
-/

namespace Soes

open Program

variable {σ : Type} {env : CoeEnv σ} {k : ℕ} {c : Coe σ} {o : Objectlist} {subindex : Byte}
  {index : Word}

/-! ## Tables -/

/-- The table of an object: subindexes of 8 bits, from 0 on, that ascend strictly. -/
structure Objectlist.Ascends (o : Objectlist) : Prop where
  first : ∃ d, o.objdesc[0]? = some d ∧ d.subindex = 0
  ascending : o.objdesc.Pairwise fun d d' => d.subindex < d'.subindex
  byte : ∀ d ∈ o.objdesc, d.subindex < 0x100

namespace Objectlist.Ascends

variable (h : o.Ascends) {i j : ℕ} {d d' : Objd}
include h

/-- Subindexes grow at least as fast as the rows. -/
lemma subindex_add_le (hi : o.objdesc[i]? = some d) (hj : o.objdesc[j]? = some d') (hij : i ≤ j) :
    d.subindex.toNat + (j - i) ≤ d'.subindex.toNat := by
  induction j generalizing d' with
  | zero =>
      obtain rfl : i = 0 := by omega
      rw [hi, Option.some.injEq] at hj
      subst hj
      omega
  | succ j ih =>
      by_cases heq : i = j + 1
      · subst heq
        rw [hi, Option.some.injEq] at hj
        subst hj
        omega
      · have hlen := (List.getElem?_eq_some_iff.mp hj).1
        have hprev : o.objdesc[j]? = some o.objdesc[j] := List.getElem?_eq_getElem (by omega)
        have hle := ih hprev (by omega)
        have hnext : o.objdesc[j + 1] = d' := (List.getElem?_eq_some_iff.mp hj).2
        have hlt := List.pairwise_iff_getElem.mp h.ascending j (j + 1) (by omega) hlen (by omega)
        rw [hnext, BitVec.lt_def] at hlt
        omega

/-- The row of a subindex is not behind its number. -/
lemma le_subindex (hi : o.objdesc[i]? = some d) : i ≤ d.subindex.toNat := by
  obtain ⟨first, hfirst, -⟩ := h.first
  have hle := h.subindex_add_le hfirst hi (Nat.zero_le i)
  omega

lemma length_pos : 0 < o.objdesc.length := by
  obtain ⟨first, hfirst, -⟩ := h.first
  exact (List.getElem?_eq_some_iff.mp hfirst).1

/-- There are at most 256 rows. -/
lemma length_le : o.objdesc.length ≤ 256 := by
  have hpos := h.length_pos
  have hlast : o.objdesc[o.objdesc.length - 1]? = some o.objdesc[o.objdesc.length - 1] :=
    List.getElem?_eq_getElem (by omega)
  have hle := h.le_subindex hlast
  have hbyte := h.byte _ (List.mem_of_getElem? hlast)
  rw [BitVec.lt_def] at hbyte
  have hval : (0x100 : Word).toNat = 256 := rfl
  omega

/-- A subindex has one row. -/
lemma row_unique (hi : o.objdesc[i]? = some d) (hj : o.objdesc[j]? = some d')
    (hsub : d.subindex = d'.subindex) : i = j := by
  rcases Nat.lt_trichotomy i j with hlt | heq | hlt
  · have := h.subindex_add_le hi hj (by omega)
    rw [hsub] at this
    omega
  · exact heq
  · have := h.subindex_add_le hj hi (by omega)
    rw [hsub] at this
    omega

end Objectlist.Ascends

/-! ## The scan for a subindex -/

/-- The scan finds the row of a subindex that is listed and not behind it. -/
lemma sdoFindsubindexFrom_listed (h : o.Ascends) {left n i : ℕ} {d : Objd}
    (hend : n + left + 1 = o.objdesc.length) (hi : o.objdesc[i]? = some d)
    (hsub : d.subindex = subindex.setWidth 16) (hn : n ≤ i) :
    sdoFindsubindexFrom o subindex left n = .ok (some i) := by
  have hlen := (List.getElem?_eq_some_iff.mp hi).1
  induction left generalizing n with
  | zero =>
      obtain rfl : n = i := by omega
      exact except_bind_eq_ok.mpr ⟨d, row_eq_ok.mpr hi,
        except_pure_eq_ok.mpr (if_neg (not_not.mpr hsub))⟩
  | succ left ih =>
      have hrow : o.objdesc[n]? = some o.objdesc[n] := List.getElem?_eq_getElem (by omega)
      by_cases heq : n = i
      · subst heq
        have hstop : ¬ d.subindex < subindex.setWidth 16 := by
          rw [hsub]
          exact BitVec.lt_irrefl _
        refine except_bind_eq_ok.mpr ⟨d, row_eq_ok.mpr hi, ?_⟩
        rw [if_neg hstop]
        exact except_pure_eq_ok.mpr (if_neg (not_not.mpr hsub))
      · have hlt : o.objdesc[n].subindex < subindex.setWidth 16 := by
          have hle := h.subindex_add_le hrow hi hn
          rw [← hsub, BitVec.lt_def]
          omega
        rw [sdoFindsubindexFrom, row_eq_ok.mpr hrow]
        simp only [bind, Except.bind, if_pos hlt]
        exact ih (by omega) (by omega)

/-- The scan finds no row of a subindex that is not listed. -/
lemma sdoFindsubindexFrom_other {left n : ℕ} (hend : n + left + 1 = o.objdesc.length)
    (hnot : ∀ d ∈ o.objdesc, d.subindex ≠ subindex.setWidth 16) :
    sdoFindsubindexFrom o subindex left n = .ok none := by
  induction left generalizing n with
  | zero =>
      have hrow : o.objdesc[n]? = some o.objdesc[n] := List.getElem?_eq_getElem (by omega)
      have hne := hnot _ (List.mem_of_getElem? hrow)
      rw [sdoFindsubindexFrom, row_eq_ok.mpr hrow]
      simp only [bind, Except.bind, if_pos hne]
      rfl
  | succ left ih =>
      have hrow : o.objdesc[n]? = some o.objdesc[n] := List.getElem?_eq_getElem (by omega)
      have hne := hnot _ (List.mem_of_getElem? hrow)
      rw [sdoFindsubindexFrom, row_eq_ok.mpr hrow]
      by_cases hlt : o.objdesc[n].subindex < subindex.setWidth 16
      · simp only [bind, Except.bind, if_pos hlt]
        exact ih (by omega)
      · simp only [bind, Except.bind, if_neg hlt, if_pos hne]
        rfl

/-- What the scan does not find is not listed in the rows that it looks at. -/
lemma sdoFindsubindexFrom_none (h : o.Ascends) {left n i : ℕ} {d : Objd}
    (hscan : sdoFindsubindexFrom o subindex left n = .ok none) (hi : o.objdesc[i]? = some d)
    (hn : n ≤ i) (hle : i ≤ n + left) : d.subindex ≠ subindex.setWidth 16 := by
  have stopped {d' : Objd} {m : ℕ}
      (h : (if d'.subindex ≠ subindex.setWidth 16 then none else some m) = none) :
      d'.subindex ≠ subindex.setWidth 16 := by
    by_contra heq
    rw [if_neg (not_not.mpr heq)] at h
    cases h
  induction left generalizing n with
  | zero =>
      obtain ⟨d', hrow, hstop⟩ := except_bind_eq_ok.mp hscan
      obtain rfl : i = n := by omega
      rw [row_eq_ok, hi, Option.some.injEq] at hrow
      rw [hrow]
      exact stopped (except_pure_eq_ok.mp hstop)
  | succ left ih =>
      obtain ⟨d', hrow, hnext⟩ := except_bind_eq_ok.mp hscan
      have hrows := h.subindex_add_le (row_eq_ok.mp hrow) hi hn
      by_cases hlt : d'.subindex < subindex.setWidth 16
      · rw [if_pos hlt] at hnext
        by_cases heq : i = n
        · subst heq
          rw [row_eq_ok, hi, Option.some.injEq] at hrow
          rw [hrow]
          exact BitVec.ne_of_lt hlt
        · exact ih hnext (by omega) (by omega)
      · rw [if_neg hlt] at hnext
        have hne := stopped (except_pure_eq_ok.mp hnext)
        intro hsub
        rw [← hsub] at hlt hne
        rw [BitVec.lt_def] at hlt
        exact hne (BitVec.eq_of_toNat_eq (by omega))

/-- What `SDO_findsubindex` does not find is not listed in a row up to number `maxsub`. -/
lemma sdoFindsubindex_none (h : o.Ascends) (hnone : sdoFindsubindex o subindex = .ok none) {i : ℕ}
    {d : Objd} (hi : o.objdesc[i]? = some d) (hle : i ≤ o.maxsub.toNat) :
    d.subindex ≠ subindex.setWidth 16 := by
  have hscan : sdoFindsubindexFrom o subindex o.maxsub.toNat 0 = .ok none := by
    rw [sdoFindsubindex] at hnone
    split at hnone
    case isTrue =>
      obtain ⟨direct, -, hnone⟩ := except_bind_eq_ok.mp hnone
      cases direct with
      | true => cases hnone
      | false => exact hnone
    case isFalse => exact hnone
  exact sdoFindsubindexFrom_none h hscan hi (Nat.zero_le i) (by omega)

/-- A scan of rows that are there comes to an end. -/
lemma sdoFindsubindexFrom_isOk {left n : ℕ} (h : n + left < o.objdesc.length) :
    ∃ r, sdoFindsubindexFrom o subindex left n = .ok r := by
  induction left generalizing n with
  | zero =>
      have hrow : o.row n = .ok o.objdesc[n] := row_eq_ok.mpr (List.getElem?_eq_getElem h)
      exact ⟨_, except_bind_eq_ok.mpr ⟨_, hrow, rfl⟩⟩
  | succ left ih =>
      have hrow : o.row n = .ok o.objdesc[n] := row_eq_ok.mpr (List.getElem?_eq_getElem (by omega))
      obtain ⟨r, hr⟩ := @ih (n + 1) (by omega)
      by_cases hlt : o.objdesc[n].subindex < subindex.setWidth 16
      · refine ⟨r, except_bind_eq_ok.mpr ⟨_, hrow, ?_⟩⟩
        rw [if_pos hlt]
        exact hr
      · refine ⟨if o.objdesc[n].subindex ≠ subindex.setWidth 16 then none else some n,
          except_bind_eq_ok.mpr ⟨_, hrow, ?_⟩⟩
        rw [if_neg hlt]
        rfl

/-- `SDO_findsubindex` comes to an end in an object whose rows up to number `maxsub` are
there. -/
lemma sdoFindsubindex_isOk (h : o.maxsub.toNat < o.objdesc.length) :
    ∃ r, sdoFindsubindex o subindex = .ok r := by
  obtain ⟨r, hscan⟩ := @sdoFindsubindexFrom_isOk o subindex o.maxsub.toNat 0 (by omega)
  rw [sdoFindsubindex]
  by_cases hle : subindex ≤ o.maxsub
  · have hbound := BitVec.le_def.mp hle
    have hrow : o.row subindex.toNat = .ok o.objdesc[subindex.toNat] :=
      row_eq_ok.mpr (List.getElem?_eq_getElem (by omega))
    rw [if_pos hle]
    by_cases hdirect : o.objdesc[subindex.toNat].subindex = subindex.setWidth 16
    · refine ⟨_, except_bind_eq_ok.mpr ⟨true, except_map_eq_ok.mpr ⟨_, hrow, ?_⟩, rfl⟩⟩
      exact decide_eq_true hdirect
    · refine ⟨r, except_bind_eq_ok.mpr ⟨false, except_map_eq_ok.mpr ⟨_, hrow, ?_⟩, hscan⟩⟩
      exact decide_eq_false hdirect
  · rw [if_neg hle]
    exact ⟨r, hscan⟩

section lookup

variable (h : o.Ascends) (hmaxsub : o.maxsub.toNat + 1 = o.objdesc.length)
include h hmaxsub

/-- `SDO_findsubindex` finds a subindex that is listed in its row. -/
lemma sdoFindsubindex_listed {i : ℕ} {d : Objd} (hi : o.objdesc[i]? = some d)
    (hsub : d.subindex = subindex.setWidth 16) : sdoFindsubindex o subindex = .ok (some i) := by
  have hscan : sdoFindsubindexFrom o subindex o.maxsub.toNat 0 = .ok (some i) :=
    sdoFindsubindexFrom_listed h (by omega) hi hsub (Nat.zero_le i)
  rw [sdoFindsubindex]
  by_cases hle : subindex ≤ o.maxsub
  · have hbound := BitVec.le_def.mp hle
    have hrow : o.objdesc[subindex.toNat]? = some o.objdesc[subindex.toNat] :=
      List.getElem?_eq_getElem (by omega)
    rw [if_pos hle, row_eq_ok.mpr hrow]
    by_cases hdirect : o.objdesc[subindex.toNat].subindex = subindex.setWidth 16
    · have hposition := h.row_unique hrow hi (hdirect.trans hsub.symm)
      simp only [Functor.map, Except.map, bind, Except.bind, hdirect, decide_true, if_true]
      rw [hposition]
      rfl
    · simp only [Functor.map, Except.map, bind, Except.bind, hdirect, decide_false,
        Bool.false_eq_true, if_false]
      exact hscan
  · rw [if_neg hle]
    exact hscan

omit h in
/-- `SDO_findsubindex` finds no other subindex. -/
lemma sdoFindsubindex_other (hnot : ∀ d ∈ o.objdesc, d.subindex ≠ subindex.setWidth 16) :
    sdoFindsubindex o subindex = .ok none := by
  have hscan : sdoFindsubindexFrom o subindex o.maxsub.toNat 0 = .ok none :=
    sdoFindsubindexFrom_other (by omega) hnot
  rw [sdoFindsubindex]
  by_cases hle : subindex ≤ o.maxsub
  · have hbound := BitVec.le_def.mp hle
    have hrow : o.objdesc[subindex.toNat]? = some o.objdesc[subindex.toNat] :=
      List.getElem?_eq_getElem (by omega)
    have hdirect := hnot _ (List.mem_of_getElem? hrow)
    rw [if_pos hle, row_eq_ok.mpr hrow]
    simp only [Functor.map, Except.map, bind, Except.bind, hdirect, decide_false,
      Bool.false_eq_true, if_false]
    exact hscan
  · rw [if_neg hle]
    exact hscan

end lookup

/-! ## The loop of Complete Access -/

/-- Nothing that the pass does with an entry reads a row. -/
lemma caEntry_avoids (mode : CaMode) (d : Objd) (size : ℕ) :
    Avoids env (.row index) (caEntry (σ := σ) mode d size) := by
  have store (dst len : ℕ) (src : ByteStore) (start : ℕ) :
      Avoids env (.row index) (sdoStore (σ := σ) dst len src start) :=
    .ite (.fault (by simp)) (.modify _)
  have state : Avoids env (.row index) (coeState (σ := σ)) := .ask_bind (.pure _)
  have download (data : ByteStore) :
      Avoids env (.row index) (caDownloadEntry (σ := σ) data d size) :=
    state.bind fun _ => .when (store _ _ _ _)
  refine .get_bind fun c => ?_
  cases mode with
  | size => exact .pure _
  | upload =>
      exact .ask_bind (.get_bind fun _ => state.bind fun _ =>
        .ite (store _ _ _ _) (.ite (store _ _ _ _) (store _ _ _ _)))
  | fromMailbox start => exact download _
  | fromMbxdata => exact .ask_bind (download _)

/-- A pass over rows that are there reads no other. -/
lemma caRows_avoids (mode : CaMode) {left nsub : ℕ} (h : nsub + left ≤ o.objdesc.length)
    (size : ℕ) : Avoids env (.row index) (caRows (σ := σ) o mode 0 left nsub size) := by
  induction left generalizing nsub size with
  | zero => exact .pure _
  | succ left ih =>
      have hrow : o.row nsub = .ok o.objdesc[nsub] :=
        row_eq_ok.mpr (List.getElem?_eq_getElem (by omega))
      exact .lift_bind hrow (.bind (caEntry_avoids _ _ _) fun _ => .ite (.pure _)
        (ih (by omega) _))

/-- A pass in which the sizes are added up ends if its rows are there. -/
lemma caRows_size_finishes {left nsub : ℕ} (h : nsub + left ≤ o.objdesc.length) (size : ℕ) :
    Finishes env (caRows (σ := σ) o .size 0 left nsub size) := by
  induction left generalizing nsub size with
  | zero => exact .pure _
  | succ left ih =>
      have hrow : o.row nsub = .ok o.objdesc[nsub] :=
        row_eq_ok.mpr (List.getElem?_eq_getElem (by omega))
      exact .lift_bind hrow (.bind (.get_bind fun _ => .pure _) fun _ => .ite (fun _ => .pure _)
        fun _ => ih (by omega) _)

/-- A pass without a bound needs all its rows. -/
lemma caRowsInside_length {left nsub size : ℕ} (h : caRowsInside o 0 left nsub size)
    (hnsub : nsub ≤ o.objdesc.length) : nsub + left ≤ o.objdesc.length := by
  induction left generalizing nsub size with
  | zero => exact hnsub
  | succ left ih =>
      rw [caRowsInside] at h
      cases hrow : o.objdesc[nsub]? with
      | none => simp [hrow] at h
      | some d =>
          have hlt := (List.getElem?_eq_some_iff.mp hrow).1
          simp only [hrow, Nat.lt_irrefl, false_and, false_or] at h
          have := ih h (by omega)
          omega

/-- Where a row is not there such a pass reads outside. -/
lemma caRows_size_outside {left nsub : ℕ} (h : o.objdesc.length < nsub + left)
    (hnsub : nsub ≤ o.objdesc.length) (size : ℕ) :
    caRows o .size 0 left nsub size env k c = .fault (.row o.index) := by
  induction left generalizing nsub size with
  | zero => omega
  | succ left ih =>
      by_cases hlast : nsub = o.objdesc.length
      · have hnone : o.row nsub = .error (.row o.index) := by
          rw [Objectlist.row, List.getElem?_eq_none (by omega)]
        rw [caRows, hnone]
        rfl
      · have hrow : o.row nsub = .ok o.objdesc[nsub] :=
          row_eq_ok.mpr (List.getElem?_eq_getElem (by omega))
        rw [caRows, hrow]
        exact ih (by omega) (by omega) _

/-- `complete_access_subindex_loop` from row 0 visits exactly the rows: it reads no row that is
not there, and would do so if any row was missing. -/
structure CompleteAccessVisits (env : CoeEnv σ) (o : Objectlist) : Prop where
  inside : ∀ mode index, Avoids env (.row index) (caRows o mode 0 (o.maxsub.toNat + 1) 0 0)
  all : ∀ mode n k c, n < o.objdesc.length →
    wlp env k (caRows { o with objdesc := o.objdesc.take n } mode 0 (o.maxsub.toNat + 1) 0 0)
      (fun _ _ => False) c

/-- It does so if `maxsub` is the position of the last row. -/
lemma completeAccessVisits_iff (c : Coe σ) (h : 0 < o.objdesc.length) :
    CompleteAccessVisits env o ↔ o.maxsub.toNat + 1 = o.objdesc.length := by
  constructor
  · intro hvisits
    have hle : ¬ o.objdesc.length < 0 + (o.maxsub.toNat + 1) := fun hlt =>
      hvisits.inside .size _ 0 c (caRows_size_outside hlt (Nat.zero_le _) 0)
    have hge : ¬ o.maxsub.toNat + 1 ≤ o.objdesc.length - 1 := by
      intro hle
      have hlen : (o.objdesc.take (o.objdesc.length - 1)).length = o.objdesc.length - 1 := by
        rw [List.length_take]
        omega
      have hends : wp env 0
        (caRows { o with objdesc := o.objdesc.take (o.objdesc.length - 1) } .size
          0 (o.maxsub.toNat + 1) 0 0) (fun _ _ => True) c :=
        caRows_size_finishes (o := { o with objdesc := o.objdesc.take (o.objdesc.length - 1) })
          (show 0 + (o.maxsub.toNat + 1) ≤ (o.objdesc.take (o.objdesc.length - 1)).length by omega)
          0
          0 c
      obtain ⟨a, c', hrun, -⟩ := hends
      exact hvisits.all .size _ 0 c (by omega) a c' hrun
    omega
  · intro hmaxsub
    refine ⟨fun mode _ => caRows_avoids mode (by omega) 0, fun mode n k c hn => ?_⟩
    refine caRows_faults mode fun hinside => ?_
    have hlen : (o.objdesc.take n).length = n := by
      rw [List.length_take]
      omega
    have hle : 0 + (o.maxsub.toNat + 1) ≤ (o.objdesc.take n).length :=
      caRowsInside_length hinside (Nat.zero_le _)
    omega

/-! ## The loop of `COE_initDefaultValues` -/

lemma coeSetValue_isOk {d : Objd} (hdata : d.data ≠ 0) (bytes : ByteStore) (value : BitVec 64) :
    ∃ bytes', coeSetValue bytes d value = .ok bytes' := by
  rw [coeSetValue]
  cases valueBytes d.datatype with
  | none => exact ⟨_, rfl⟩
  | some n => exact ⟨_, if_neg hdata⟩

section defaults

variable {maxsub : Byte} {rows : List Objd} {bytes : ByteStore}

/-- One row: its value is set if it has storage, and the loop goes on if it is below `maxsub`. -/
lemma initDefaultRows_cons (d : Objd) (rows : List Objd) (bytes : ByteStore) : ∃ bytes',
    initDefaultRows index maxsub (d :: rows) bytes =
      if d.subindex < maxsub.setWidth 16 then initDefaultRows index maxsub rows bytes'
      else .ok bytes' := by
  rw [initDefaultRows]
  by_cases hdata : d.data ≠ 0
  · obtain ⟨bytes', hset⟩ := coeSetValue_isOk hdata bytes (d.value.setWidth 64)
    rw [if_pos hdata, hset]
    exact ⟨bytes', rfl⟩
  · rw [if_neg hdata]
    exact ⟨bytes, rfl⟩

/-- The loop ends at the first row that is not below `maxsub`. -/
lemma initDefaultRows_isOk {d : Objd} (hstop : ¬ d.subindex < maxsub.setWidth 16) :
    ∃ bytes', initDefaultRows index maxsub (rows ++ [d]) bytes = .ok bytes' := by
  induction rows generalizing bytes with
  | nil =>
      obtain ⟨bytes', hrow⟩ := @initDefaultRows_cons index maxsub d [] bytes
      exact ⟨bytes', hrow.trans (if_neg hstop)⟩
  | cons first rest ih =>
      obtain ⟨bytes', hrow⟩ := @initDefaultRows_cons index maxsub first (rest ++ [d]) bytes
      rw [List.cons_append, hrow]
      by_cases hlt : first.subindex < maxsub.setWidth 16
      · rw [if_pos hlt]
        exact ih
      · rw [if_neg hlt]
        exact ⟨bytes', rfl⟩

/-- It leaves rows that are all below `maxsub`, and no others. -/
lemma initDefaultRows_outside_iff : initDefaultRows index maxsub rows bytes = .error (.row index) ↔
    ∀ d ∈ rows, d.subindex < maxsub.setWidth 16 := by
  induction rows generalizing bytes with
  | nil => exact ⟨fun _ d hd => (List.not_mem_nil hd).elim, fun _ => rfl⟩
  | cons first rest ih =>
      obtain ⟨bytes', hrow⟩ := @initDefaultRows_cons index maxsub first rest bytes
      rw [hrow, List.forall_mem_cons]
      by_cases hlt : first.subindex < maxsub.setWidth 16
      · rw [if_pos hlt, ih]
        exact ⟨fun h => ⟨hlt, h⟩, fun h => h.2⟩
      · rw [if_neg hlt]
        exact ⟨(fun h => nomatch h), fun h => (hlt h.1).elim⟩

end defaults

/-- `COE_initDefaultValues` visits exactly the rows of an object: it reads no row that is not
there, and would do so if any row was missing. -/
structure DefaultsVisit (o : Objectlist) : Prop where
  inside : ∀ bytes, ∃ bytes', initDefaultRows o.index o.maxsub o.objdesc bytes = .ok bytes'
  all : ∀ bytes n, n < o.objdesc.length →
    initDefaultRows o.index o.maxsub (o.objdesc.take n) bytes = .error (.row o.index)

/-! ## One `maxsub` -/

/-- The traversals agree on the extent of an object, and it is that of its table. -/
structure TraversalsAgree (env : CoeEnv σ) (o : Objectlist) : Prop where
  /-- A subindex that is listed is found in its row. -/
  listed : ∀ (i : ℕ) d subindex, o.objdesc[i]? = some d → d.subindex = subindex.setWidth 16 →
    sdoFindsubindex o subindex = .ok (some i)
  other : ∀ subindex, (∀ d ∈ o.objdesc, d.subindex ≠ subindex.setWidth 16) →
    sdoFindsubindex o subindex = .ok none
  complete : CompleteAccessVisits env o
  defaults : DefaultsVisit o

/-- All rows but the last have the subindex of their position. -/
def Objectlist.DenseButLast (o : Objectlist) : Prop :=
  ∀ i d, i + 1 < o.objdesc.length → o.objdesc[i]? = some d → d.subindex.toNat = i

lemma toNat_setWidth_byte (b : Byte) : (b.setWidth 16 : Word).toNat = b.toNat := by
  rw [BitVec.toNat_setWidth]
  exact Nat.mod_eq_of_lt (by have := b.isLt; omega)

/-- **There is a `maxsub` for which all traversals agree exactly if no row but the last is out of
its place.** -/
theorem traversals_agree_iff (env : CoeEnv σ) (c : Coe σ) (o : Objectlist) (h : o.Ascends) :
    (∃ maxsub, TraversalsAgree env { o with maxsub := maxsub }) ↔ o.DenseButLast := by
  have hpos := h.length_pos
  have hlast : o.objdesc[o.objdesc.length - 1]? = some o.objdesc[o.objdesc.length - 1] :=
    List.getElem?_eq_getElem (by omega)
  constructor
  · rintro ⟨maxsub, hagree⟩ i d hi hrow
    have hlength : maxsub.toNat + 1 = o.objdesc.length :=
      (completeAccessVisits_iff c (o := { o with maxsub := maxsub }) hpos).mp hagree.complete
    -- without the last row the loop over the default values goes on behind every row
    have hbelow := initDefaultRows_outside_iff.mp
      (hagree.defaults.all (fun _ => 0) (o.objdesc.length - 1)
        (show o.objdesc.length - 1 < o.objdesc.length by omega))
    have hprev : o.objdesc[o.objdesc.length - 2]? = some o.objdesc[o.objdesc.length - 2] :=
      List.getElem?_eq_getElem (by omega)
    have hmem : o.objdesc[o.objdesc.length - 2] ∈ o.objdesc.take (o.objdesc.length - 1) := by
      refine List.mem_of_getElem? (i := o.objdesc.length - 2) ?_
      rw [List.getElem?_take_of_lt (by omega)]
      exact hprev
    have hlt := hbelow _ hmem
    dsimp only at hlt
    rw [BitVec.lt_def, toNat_setWidth_byte] at hlt
    have hle := h.subindex_add_le hrow hprev (by omega)
    have hge := h.le_subindex hrow
    omega
  · intro hdense
    have hle := h.length_le
    have hmaxsub : (BitVec.ofNat 8 (o.objdesc.length - 1)).toNat + 1 = o.objdesc.length := by
      rw [BitVec.toNat_ofNat]
      omega
    refine ⟨BitVec.ofNat 8 (o.objdesc.length - 1), ?_⟩
    have hascends :
        ({ o with maxsub := BitVec.ofNat 8 (o.objdesc.length - 1) } : Objectlist).Ascends :=
      ⟨h.first, h.ascending, h.byte⟩
    refine ⟨fun i d subindex hi hsub => ?_, fun subindex hnot => ?_, ?_, ⟨fun bytes => ?_,
      fun bytes n hn => ?_⟩⟩
    · exact sdoFindsubindex_listed hascends hmaxsub hi hsub
    · exact sdoFindsubindex_other hmaxsub hnot
    · exact (completeAccessVisits_iff c
        (o := { o with maxsub := BitVec.ofNat 8 (o.objdesc.length - 1) }) hpos).mpr hmaxsub
    · have hsplit : o.objdesc = o.objdesc.take (o.objdesc.length - 1) ++
          [o.objdesc[o.objdesc.length - 1]] := by
        rw [List.take_append_getElem]
        exact (List.take_of_length_le (by omega)).symm
      dsimp only
      rw [hsplit]
      refine initDefaultRows_isOk ?_
      have hge := h.le_subindex hlast
      rw [← hsplit, BitVec.lt_def, toNat_setWidth_byte]
      omega
    · refine initDefaultRows_outside_iff.mpr fun d hd => ?_
      obtain ⟨i, hi⟩ := List.mem_iff_getElem?.mp hd
      have hlt := (List.getElem?_eq_some_iff.mp hi).1
      dsimp only at hi hlt hn
      rw [List.length_take] at hlt
      rw [List.getElem?_take_of_lt (by omega)] at hi
      have hsub := hdense i d (by omega) hi
      have hvalue : (BitVec.ofNat 8 (o.objdesc.length - 1)).toNat = o.objdesc.length - 1 := by
        omega
      rw [BitVec.lt_def, toNat_setWidth_byte, hvalue]
      omega

/-- An object with the subindexes 0, 1, 2 and 4. -/
def sparseObject : Objectlist :=
  { index := 0x2000, objtype := 9, maxsub := 4, name := [],
    objdesc := [constEntry 0 dtypeUnsigned8 8 4, constEntry 1 dtypeUnsigned8 8 0,
      constEntry 2 dtypeUnsigned8 8 0, constEntry 4 dtypeUnsigned8 8 0] }

/-- An object with the subindexes 0, 1, 4 and 5, as those of a SyncManager leave some out. -/
def gapObject : Objectlist := { sparseObject with
  objdesc := [constEntry 0 dtypeUnsigned8 8 4, constEntry 1 dtypeUnsigned16 16 0,
    constEntry 4 dtypeUnsigned16 16 0, constEntry 5 dtypeUnsigned32 32 0] }

lemma sparseObject_ascends : sparseObject.Ascends :=
  ⟨⟨_, rfl, rfl⟩, by decide, by decide⟩

/-- With its last row out of place an object has a `maxsub`. -/
theorem traversals_agree_example :
    ∃ maxsub, TraversalsAgree ⟨exampleSystem, 2⟩ { sparseObject with maxsub := maxsub } := by
  refine (traversals_agree_iff ⟨exampleSystem, 2⟩ ⟨fun _ => 0, exampleMailbox [],
    ⟨fun _ => 0, [], false⟩⟩ sparseObject sparseObject_ascends).mpr fun i d hi hrow => ?_
  have hlen : sparseObject.objdesc.length = 4 := rfl
  obtain rfl | rfl | rfl : i = 0 ∨ i = 1 ∨ i = 2 := by omega
  · cases hrow
    rfl
  · cases hrow
    rfl
  · cases hrow
    rfl

/-- With a gap before other rows no `maxsub` is right for all traversals, though the rows
ascend. -/
theorem gap_has_no_maxsub : gapObject.Ascends ∧
    ¬ ∃ maxsub, TraversalsAgree ⟨exampleSystem, 2⟩ { gapObject with maxsub := maxsub } := by
  refine ⟨⟨⟨_, rfl, rfl⟩, by decide, by decide⟩, ?_⟩
  rintro ⟨maxsub, hagree⟩
  have hlength : maxsub.toNat + 1 = 4 :=
    (completeAccessVisits_iff ⟨fun _ => 0, exampleMailbox [], ⟨fun _ => 0, [], false⟩⟩
      (o := { gapObject with maxsub := maxsub }) (show 0 < gapObject.objdesc.length by decide)).mp
      hagree.complete
  have hvalue : maxsub = 3 := BitVec.eq_of_toNat_eq (by
    have hthree : (3 : Byte).toNat = 3 := rfl
    omega)
  subst hvalue
  have hbelow := initDefaultRows_outside_iff.mp
    (hagree.defaults.all (fun _ => 0) 3 (by decide)) (constEntry 4 dtypeUnsigned16 16 0) (by decide)
  exact absurd hbelow (by decide)

end Soes
