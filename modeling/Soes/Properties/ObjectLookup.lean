import Soes.Properties.HeldReply
import Soes.Properties.MappingVerdict
import Soes.Properties.ObjectExtent

/-!
# The lookup of an object

`SDO_findobject` scans a table for the first index that is not below the one asked for, and the
row that closes the table ends every scan because its index is the largest there is.  For an index
below it the scan gives the row with that index, or none (`findsExactly_iff`).  But `0xFFFF` is an
index that a master can send, or store as that of a PDO, and for it the closing row is what the scan
finds: a row of no object, whose pointers are null.

The handlers look up one object each, and follow the null pointers of the closing row exactly for
this index (`handlersFollow`).  `sizeOfPDO` looks up what is stored in the assignment and in the
mappings, one index after the other until one of them is refused, and follows those pointers exactly
if it comes to `0xFFFF` (`sizeOfPDO_follows_iff`).
-/

namespace Soes

open Program

variable {σ : Type} {env : CoeEnv σ} {k : ℕ} {c : Coe σ} {objects : List Objectlist}
  {index : Word} {o : Objectlist} {e : Fault}

/-! ## The scan -/

/-- The row of an object among the rows before the closing one. -/
def rowOf (index : Word) : List Objectlist → ℕ → Option ℕ
  | [], _ => none
  | o :: rest, n =>
      if o.index < index then rowOf index rest (n + 1)
      else if o.index ≠ index then none
      else some n

/-- The scan for an index below that of the closing row is one of the rows before it. -/
lemma sdoFindobjectFrom_closing (hindex : index ≠ 0xFFFF) (objects : List Objectlist) (n : ℕ) :
    sdoFindobjectFrom index (objects ++ [sentinel]) n = .ok (rowOf index objects n) := by
  induction objects generalizing n with
  | nil =>
      have hlast : ¬ sentinel.index < index := by
        change ¬ (0xFFFF : Word) < index
        bv_omega
      have hne : sentinel.index ≠ index := Ne.symm hindex
      rw [List.nil_append, sdoFindobjectFrom, if_neg hlast, if_pos hne, rowOf]
  | cons o rest ih =>
      rw [List.cons_append, sdoFindobjectFrom, rowOf, ih]
      by_cases hlt : o.index < index
      · rw [if_pos hlt, if_pos hlt]
      · rw [if_neg hlt, if_neg hlt]
        by_cases hne : o.index ≠ index
        · rw [if_pos hne, if_pos hne]
        · rw [if_neg hne, if_neg hne]

/-- A row that is found is one before the closing one. -/
lemma rowOf_lt {n r : ℕ} (h : rowOf index objects n = some r) :
    n ≤ r ∧ r - n < objects.length := by
  induction objects generalizing n with
  | nil => cases h
  | cons o rest ih =>
      rw [rowOf] at h
      rw [List.length_cons]
      by_cases hlt : o.index < index
      · rw [if_pos hlt] at h
        have := ih h
        omega
      · rw [if_neg hlt] at h
        by_cases hne : o.index ≠ index
        · rw [if_pos hne] at h
          cases h
        · rw [if_neg hne, Option.some.injEq] at h
          omega

/-- In a table whose indexes ascend strictly the scan does not pass the index asked for. -/
lemma rowOf_none (hascending : objects.Pairwise fun o o' => o.index < o'.index) {n : ℕ}
    (h : rowOf index objects n = none) : ∀ o ∈ objects, o.index ≠ index := by
  induction objects generalizing n with
  | nil => exact fun o ho => (List.not_mem_nil ho).elim
  | cons o rest ih =>
      obtain ⟨hfirst, hrest⟩ := List.pairwise_cons.mp hascending
      rw [rowOf] at h
      by_cases hlt : o.index < index
      · rw [if_pos hlt] at h
        intro o' ho'
        obtain rfl | ho' := List.mem_cons.mp ho'
        · bv_omega
        · exact ih hrest h o' ho'
      · rw [if_neg hlt] at h
        by_cases hne : o.index ≠ index
        · intro o' ho'
          obtain rfl | ho' := List.mem_cons.mp ho'
          · exact hne
          · have := hfirst o' ho'
            bv_omega
        · rw [if_neg hne] at h
          cases h

/-- `SDO_findobject` is exact for an index: it ends inside the table, at the row of the object
with that index if there is one, and otherwise with none, and never at the closing row. -/
def FindsExactly (objects : List Objectlist) (index : Word) : Prop :=
  (∃ n o, objects[n]? = some o ∧ o.index = index ∧
    sdoFindobject (objects ++ [sentinel]) index = .ok (some n)) ∨
  ((∀ o ∈ objects, o.index ≠ index) ∧ sdoFindobject (objects ++ [sentinel]) index = .ok none)

/-- The scan for the index of the closing row ends there. -/
lemma sdoFindobjectFrom_sentinel (hbelow : ∀ o ∈ objects, o.index < 0xFFFF) (n : ℕ) :
    sdoFindobjectFrom 0xFFFF (objects ++ [sentinel]) n = .ok (some (n + objects.length)) := by
  induction objects generalizing n with
  | nil => rfl
  | cons o rest ih =>
      have hlt : o.index < 0xFFFF := hbelow o (List.mem_cons_self ..)
      rw [List.cons_append, sdoFindobjectFrom, if_pos hlt,
        ih (fun o' ho' => hbelow o' (List.mem_cons_of_mem _ ho')), List.length_cons, Nat.add_assoc,
        Nat.add_comm 1]

/-- The scan is exact for every index but that of the closing row. -/
lemma findsExactly_iff (hascending : objects.Pairwise fun o o' => o.index < o'.index)
    (hbelow : ∀ o ∈ objects, o.index < 0xFFFF) (index : Word) :
    FindsExactly objects index ↔ index ≠ 0xFFFF := by
  constructor
  · rintro (⟨n, o, hrow, hindex, -⟩ | ⟨-, hnone⟩) rfl
    · have hlt := hbelow o (List.mem_of_getElem? hrow)
      bv_omega
    · rw [sdoFindobject, sdoFindobjectFrom_sentinel hbelow] at hnone
      cases hnone
  · intro hindex
    have hscan : sdoFindobject (objects ++ [sentinel]) index = .ok (rowOf index objects 0) :=
      sdoFindobjectFrom_closing hindex objects 0
    cases hrow : rowOf index objects 0 with
    | none => exact .inr ⟨rowOf_none hascending hrow, hrow ▸ hscan⟩
    | some n =>
        have hlt : n < objects.length := (rowOf_lt hrow).2
        rw [hrow] at hscan
        obtain ⟨o, ho, hoindex⟩ := sdoFindobject_found hscan
        rw [List.getElem?_append_left hlt] at ho
        exact .inl ⟨n, o, ho, hoindex, hscan⟩

/-! ## Where a lookup stops -/

lemma row_error {n : ℕ} (h : o.row n = .error e) : e = .row o.index := by
  rw [Objectlist.row] at h
  cases hrow : o.objdesc[n]? with
  | none =>
      rw [hrow] at h
      exact (Except.error.inj h).symm
  | some d =>
      rw [hrow] at h
      cases h

/-- A check after a check fails if the first does, or the second. -/
lemma except_bind_eq_error {ε α β : Type} {x : Except ε α} {f : α → Except ε β} {e : ε} :
    (x >>= f) = .error e ↔ x = .error e ∨ ∃ a, x = .ok a ∧ f a = .error e := by
  cases x <;> simp [bind, Except.bind]

lemma except_map_eq_error {ε α β : Type} {x : Except ε α} {f : α → β} {e : ε} :
    f <$> x = .error e ↔ x = .error e := by
  cases x <;> simp [Functor.map, Except.map]

lemma sdoFindsubindexFrom_error {subindex : Byte} {left n : ℕ}
    (h : sdoFindsubindexFrom o subindex left n = .error e) : e = .row o.index := by
  induction left generalizing n with
  | zero =>
      obtain h | ⟨d, -, h⟩ := except_bind_eq_error.mp h
      · exact row_error h
      · cases h
  | succ left ih =>
      obtain h | ⟨d, -, h⟩ := except_bind_eq_error.mp h
      · exact row_error h
      · split at h
        · exact ih h
        · cases h

lemma sdoFindsubindex_error {subindex : Byte} (h : sdoFindsubindex o subindex = .error e) :
    e = .row o.index := by
  have scanned (direct : Bool) (h : (if direct then pure (some subindex.toNat)
      else sdoFindsubindexFrom o subindex o.maxsub.toNat 0) = .error e) : e = .row o.index := by
    cases direct with
    | true => cases h
    | false => exact sdoFindsubindexFrom_error h
  rw [sdoFindsubindex] at h
  split at h
  · obtain h | ⟨direct, -, h⟩ := except_bind_eq_error.mp h
    · exact row_error (except_map_eq_error.mp h)
    · exact scanned direct h
  · exact scanned false h

section dictionary

variable {dict : Dictionary} {subindex : Byte}

/-- What is found in a dictionary has the index asked for. -/
lemma Finds.index_eq {table : List Objectlist} (h : Finds table index o) : o.index = index := by
  obtain ⟨n, hn, ho⟩ := h
  obtain ⟨o', hrow, hindex⟩ := sdoFindobject_found hn
  rw [objectAt_eq_ok.mp ho, Option.some.injEq] at hrow
  exact hrow ▸ hindex

lemma sdoFindobject_ne_error : sdoFindobject dict.table index ≠ .error e := by
  obtain ⟨r, hr⟩ := sdoFindobject_isOk dict index
  rw [hr]
  intro h
  cases h

lemma objectAt_ne_error {n : ℕ} (h : sdoFindobject dict.table index = .ok (some n)) :
    objectAt dict.table n ≠ .error e := by
  obtain ⟨o, ho⟩ := objectAt_isOk h
  rw [ho]
  intro h
  cases h

/-- The lookup of an entry stops only at a row of the object of its index that is not there. -/
lemma lookupEntry_error (h : lookupEntry dict.table index subindex = .error e) :
    e = .row index := by
  obtain h | ⟨found, hfound, h⟩ := except_bind_eq_error.mp h
  · exact (sdoFindobject_ne_error h).elim
  cases found with
  | none => cases h
  | some n =>
      obtain h | ⟨o, ho, h⟩ := except_bind_eq_error.mp h
      · exact (objectAt_ne_error hfound h).elim
      have hindex : o.index = index := Finds.index_eq ⟨n, hfound, ho⟩
      obtain h | ⟨sub, -, h⟩ := except_bind_eq_error.mp h
      · exact hindex ▸ sdoFindsubindex_error h
      cases sub with
      | none => cases h
      | some nsub => exact hindex ▸ row_error (except_map_eq_error.mp h)

lemma completeAccessGetVariables_error
    (h : completeAccessGetVariables dict.table index subindex = .error e) : e = .row index := by
  rw [completeAccessGetVariables] at h
  split at h
  · cases h
  obtain h | ⟨found, hfound, h⟩ := except_bind_eq_error.mp h
  · exact (sdoFindobject_ne_error h).elim
  cases found with
  | none => cases h
  | some n =>
      obtain h | ⟨o, ho, h⟩ := except_bind_eq_error.mp h
      · exact (objectAt_ne_error hfound h).elim
      have hindex : o.index = index := Finds.index_eq ⟨n, hfound, ho⟩
      obtain h | ⟨sub, -, h⟩ := except_bind_eq_error.mp h
      · exact hindex ▸ sdoFindsubindex_error h
      cases sub with
      | none => cases h
      | some nsub => cases h

lemma describeObject_error (h : describeObject o = .error e) : e = .row o.index := by
  rw [describeObject] at h
  split at h
  · obtain h | ⟨sub, -, h⟩ := except_bind_eq_error.mp h
    · exact sdoFindsubindex_error h
    cases sub with
    | none => exact (Except.error.inj h).symm
    | some nsub =>
        obtain h | ⟨d, -, h⟩ := except_bind_eq_error.mp h
        · exact row_error h
        split at h
        · cases h
        · obtain h | ⟨d', -, h⟩ := except_bind_eq_error.mp h
          · exact row_error h
          · cases h
  · obtain h | ⟨d, -, h⟩ := except_bind_eq_error.mp h
    · exact row_error h
    · cases h

/-- The scan for `0xFFFF` finds the closing row. -/
lemma finds_closing (dict : Dictionary) : Finds dict.table 0xFFFF sentinel := by
  have hscan : sdoFindobject dict.table 0xFFFF = .ok (some (0 + dict.objects.length)) :=
    sdoFindobjectFrom_sentinel dict.below_sentinel 0
  rw [Nat.zero_add] at hscan
  exact ⟨_, hscan, objectAt_eq_ok.mpr (by rw [Dictionary.table, List.getElem?_concat_length])⟩

lemma sdoFindsubindex_closing (subindex : Byte) :
    sdoFindsubindex sentinel subindex = .error (.row 0xFFFF) := by
  have hle : subindex ≤ sentinel.maxsub := by
    change subindex ≤ (0xFF : Byte)
    bv_omega
  rw [sdoFindsubindex, if_pos hle]
  rfl

lemma lookupEntry_closing (dict : Dictionary) (subindex : Byte) :
    lookupEntry dict.table 0xFFFF subindex = .error (.row 0xFFFF) := by
  obtain ⟨n, hn, ho⟩ := finds_closing dict
  rw [lookupEntry, hn]
  refine except_bind_eq_error.mpr (.inr ⟨some n, rfl, ?_⟩)
  refine except_bind_eq_error.mpr (.inr ⟨sentinel, ho, ?_⟩)
  exact except_bind_eq_error.mpr (.inl (sdoFindsubindex_closing subindex))

lemma completeAccessGetVariables_closing (dict : Dictionary) (h : ¬ 1 < subindex) :
    completeAccessGetVariables dict.table 0xFFFF subindex = .error (.row 0xFFFF) := by
  obtain ⟨n, hn, ho⟩ := finds_closing dict
  rw [completeAccessGetVariables, if_neg h, hn]
  refine except_bind_eq_error.mpr (.inr ⟨some n, rfl, ?_⟩)
  refine except_bind_eq_error.mpr (.inr ⟨sentinel, ho, ?_⟩)
  exact except_bind_eq_error.mpr (.inl (sdoFindsubindex_closing subindex))

end dictionary

/-! ## The handlers -/

/-- The code follows the null pointers of the closing row. -/
def FollowsClosing (env : CoeEnv σ) (m : OnCoe σ Unit) (c : Coe σ) : Prop :=
  ∃ k, m env k c = .fault (.row 0xFFFF)

lemma not_followsClosing {m : OnCoe σ Unit} (h : ∀ k, wfp env k m (· ≠ .row 0xFFFF) c) :
    ¬ FollowsClosing env m c := fun ⟨k, hrun⟩ => h k _ hrun rfl

/-- An index below that of the closing row. -/
lemma row_ne_closing (h : index ≠ 0xFFFF) : Fault.row index ≠ .row 0xFFFF := fun h' =>
  h (Fault.row.inj h')

/-- A pass over the rows of an object reads those of no other. -/
lemma caRows_avoids_closing (hindex : o.index ≠ 0xFFFF) (mode : CaMode) (maxBytes left nsub : ℕ)
    (size : ℕ) : Avoids env (.row 0xFFFF) (caRows (σ := σ) o mode maxBytes left nsub size) := by
  induction left generalizing nsub size with
  | zero => exact .pure _
  | succ left ih =>
      refine .bind (.of_lift fun h => row_ne_closing hindex (row_error h).symm) fun d => ?_
      exact .bind (caEntry_avoids _ _ _) fun _ => .ite (.pure _) (ih _ _)

lemma completeAccessSubindexLoop_avoids (hindex : o.index ≠ 0xFFFF) (mode : CaMode)
    (nsub maxBytes : ℕ) :
    Avoids env (.row 0xFFFF) (completeAccessSubindexLoop (σ := σ) o nsub mode maxBytes) := by
  refine .bind (.of_lift fun h => row_ne_closing hindex (row_error h).symm) fun first =>
    .ite (.pure _) ?_
  have rows : Avoids env (.row 0xFFFF)
      (caRows (σ := σ) o mode maxBytes (o.maxsub.toNat + 1 - nsub) nsub 0) :=
    caRows_avoids_closing hindex mode maxBytes _ nsub 0
  cases mode with
  | upload =>
      exact .ask_bind (.bind (.of_endsIn (sdoFill_finishes (.inl (Nat.succ_ne_zero _)) (by decide)))
        fun _ => rows)
  | size => exact rows
  | fromMailbox start => exact rows
  | fromMbxdata => exact rows

lemma sdoUpload_follows : FollowsClosing env sdoUpload c ↔ c.mb.sdoIndex = 0xFFFF := by
  constructor
  · intro hfollows
    by_contra hindex
    refine not_followsClosing (fun k => ?_) hfollows
    cases hlookup : lookupEntry env.sys.dict.table c.mb.sdoIndex c.mb.sdoSubindex with
    | ok r => exact (sdoUpload_frees ⟨r, hlookup⟩).wfp
    | error e =>
        rw [lookupEntry_error hlookup] at hlookup
        intro e' he
        have hrun : sdoUpload env k c = .fault (.row c.mb.sdoIndex) :=
          bind_eq_fault rfl (bind_eq_fault rfl (lift_bind_eq_fault hlookup))
        rw [hrun] at he
        cases he
        exact row_ne_closing hindex
  · intro hindex
    refine ⟨0, bind_eq_fault rfl (bind_eq_fault rfl (lift_bind_eq_fault ?_))⟩
    rw [hindex]
    exact lookupEntry_closing _ _

/-- What follows the lookup of a download meets no row any more. -/
lemma sdoDownload_follows : FollowsClosing env sdoDownload c ↔ c.mb.sdoIndex = 0xFFFF := by
  constructor
  · intro hfollows
    by_contra hindex
    refine not_followsClosing (fun k => ?_) hfollows
    rw [sdoDownload]
    refine wfp_bind_of_ok rfl (wfp_bind_of_ok rfl (wfp_lift_bind ?_ ?_))
    · intro e he
      exact lookupEntry_error he ▸ row_ne_closing hindex
    rintro (abort | d) hlookup
    · exact (setStateIdle_frees _ _ _ _ k c).wfp
    obtain ⟨o, ho, hd⟩ := lookupEntry_found hlookup
    obtain ⟨first, hfirst⟩ := row_zero_isOk hd
    refine wfp_bind_of_ok rfl
      (wfp_ite (fun _ => (setStateIdle_frees _ _ _ _ k c).wfp) fun hwrite => ?_)
    have hdata := env.sys.dict.data_ne ho.mem hd (not_not.mp hwrite)
    generalize c.mb.downloadData = p
    obtain ⟨size, data⟩ := p
    refine wfp_ite (fun _ => (setStateIdle_frees _ _ _ _ k c).wfp) fun _ => ?_
    have entry := sdoDownloadEntry_frees (coeMaxSub_isOk ho hfirst) c.mb.sdoSubindex hdata size data
    refine fun e he => ?_
    have fill (len : ℕ) : Avoids env (.row 0xFFFF) (sdoFill (σ := σ) (d.data + size) len) :=
      .ite (.fault (by simp)) (.of_endsIn (sdoStore_finishes (.inl (by omega)) _ _))
    rintro rfl
    exact Avoids.bind (Avoids.when (.bind (.of_endsIn (headerTail_finishes _ _)) fun _ => fill _))
      (fun _ => .of_endsIn entry) k c he
  · intro hindex
    refine ⟨0, bind_eq_fault rfl (bind_eq_fault rfl (lift_bind_eq_fault ?_))⟩
    rw [hindex]
    exact lookupEntry_closing _ _

/-- The lookup for Complete Access meets the closing row exactly for its index. -/
lemma completeAccessGetVariables_closing_iff {subindex : Byte} :
    completeAccessGetVariables env.sys.dict.table index subindex = .error (.row 0xFFFF) ↔
      index = 0xFFFF ∧ ¬ 1 < subindex := by
  constructor
  · intro h
    refine ⟨(Fault.row.inj (completeAccessGetVariables_error h)).symm, fun hsub => ?_⟩
    rw [completeAccessGetVariables, if_pos hsub] at h
    cases h
  · rintro ⟨rfl, hsub⟩
    exact completeAccessGetVariables_closing _ hsub

/-- What is found for Complete Access is an object of the dictionary. -/
lemma completeAccess_index_ne {subindex : Byte} {nsub : ℕ}
    (h : completeAccessGetVariables env.sys.dict.table index subindex = .ok (.ok (o, nsub))) :
    o.index ≠ 0xFFFF := by
  obtain ⟨hfinds, hsub⟩ := completeAccessGetVariables_found h
  rw [hfinds.index_eq]
  rintro rfl
  rw [hfinds.unique (finds_closing _), sdoFindsubindex_closing] at hsub
  cases hsub

lemma sdoUploadCompleteAccess_follows : FollowsClosing env sdoUploadCompleteAccess c ↔
    c.mb.sdoIndex = 0xFFFF ∧ ¬ 1 < c.mb.sdoSubindex := by
  refine Iff.trans (b := completeAccessGetVariables env.sys.dict.table c.mb.sdoIndex
    c.mb.sdoSubindex = .error (.row 0xFFFF)) ?_ completeAccessGetVariables_closing_iff
  constructor
  · intro hfollows
    by_contra hnot
    refine not_followsClosing (fun k => ?_) hfollows
    rw [sdoUploadCompleteAccess]
    refine wfp_bind_of_ok rfl (wfp_bind_of_ok rfl (wfp_lift_bind ?_ ?_))
    · rintro e he rfl
      exact hnot he
    rintro (abort | ⟨o, nsub⟩) hfound
    · exact (setStateIdle_frees _ _ _ _ k c).wfp
    have hindex := completeAccess_index_ne hfound
    have pass (mode : CaMode) : Avoids env (.row 0xFFFF)
        (completeAccessSubindexLoop (σ := σ) o nsub mode 0) :=
      completeAccessSubindexLoop_avoids hindex mode nsub 0
    have idle (n : ℕ) (abort : Dword) : Avoids env (.row 0xFFFF)
        (setStateIdle (σ := σ) n c.mb.sdoIndex c.mb.sdoSubindex abort) :=
      .of_endsIn (setStateIdle_frees _ _ _ _)
    rintro e he rfl
    refine Avoids.bind (.of_endsIn (onMb_finishes escClaimbuffer_finishes))
      (fun n => .ite (idle _ _) ?_) k c he
    refine .bind (.of_lift fun h => row_ne_closing hindex (row_error h).symm) fun first =>
      .bind (pass .size) fun bits => .ask_bind <| .ite (idle _ _) <| .ite (idle _ _) ?_
    refine .bind (.of_endsIn (escUploadPreObjecthandler_finishes _ _ _ _ _)) fun answer => ?_
    obtain ⟨_, _⟩ := answer
    exact .ite (idle _ _) <| .bind (pass .upload) fun _ =>
      .of_endsIn (caUploadReply_frees _ _ _ _ _ _)
  · intro hclosing
    exact ⟨0, bind_eq_fault rfl (bind_eq_fault rfl (lift_bind_eq_fault hclosing))⟩

lemma sdoDownloadCompleteAccess_follows : FollowsClosing env sdoDownloadCompleteAccess c ↔
    c.mb.sdoIndex = 0xFFFF ∧ ¬ 1 < c.mb.sdoSubindex := by
  refine Iff.trans (b := completeAccessGetVariables env.sys.dict.table c.mb.sdoIndex
    c.mb.sdoSubindex = .error (.row 0xFFFF)) ?_ completeAccessGetVariables_closing_iff
  constructor
  · intro hfollows
    by_contra hnot
    refine not_followsClosing (fun k => ?_) hfollows
    rw [sdoDownloadCompleteAccess]
    refine wfp_bind_of_ok rfl (wfp_bind_of_ok rfl (wfp_lift_bind ?_ ?_))
    · rintro e he rfl
      exact hnot he
    rintro (abort | ⟨o, nsub⟩) hfound
    · exact (setStateIdle_frees _ _ _ _ k c).wfp
    have hindex := completeAccess_index_ne hfound
    obtain ⟨hfinds, hsub⟩ := completeAccessGetVariables_found hfound
    obtain ⟨first, hfirst⟩ := sdoFindsubindex_row_zero hsub
    have pass (mode : CaMode) (maxBytes : ℕ) : Avoids env (.row 0xFFFF)
        (completeAccessSubindexLoop (σ := σ) o nsub mode maxBytes) :=
      completeAccessSubindexLoop_avoids hindex mode nsub maxBytes
    have idle (abort : Dword) : Avoids env (.row 0xFFFF)
        (setStateIdle (σ := σ) 0 c.mb.sdoIndex c.mb.sdoSubindex abort) :=
      .of_endsIn (setStateIdle_frees _ _ _ _)
    have response : Avoids env (.row 0xFFFF)
        (caDownloadResponse (σ := σ) c.mb.sdoIndex c.mb.sdoSubindex) :=
      .of_endsIn (caDownloadResponse_frees _ _)
    have modified (f : Mailbox → Mailbox) : Avoids env (.row 0xFFFF) (coeModifyMb (σ := σ) f) :=
      .of_endsIn (coeModifyMb_finishes f)
    have accepted (flags : Word) (bytes data : ℕ) : Avoids env (.row 0xFFFF)
        (caDownloadAccepted (σ := σ) c.mb.sdoIndex c.mb.sdoSubindex o nsub flags bytes data) := by
      refine .ask_bind <| .get_bind fun c' => .ite (.ite (idle _) ?_) ?_
      · exact (modified _).bind fun _ => .bind (.of_endsIn
          (sdoStore_finishes (.inl env.sys.mbxdata_ne) _ _)) fun _ => response
      · exact (modified _).bind fun _ => (pass _ _).bind fun _ =>
          .bind (.of_endsIn (escDownloadPostObjecthandler_finishes _ _ _)) fun _ =>
            .ite (idle _) response
    generalize c.mb.downloadData = p
    obtain ⟨bytes, data⟩ := p
    rintro e he rfl
    refine Avoids.bind (.of_lift fun h => row_ne_closing hindex (row_error h).symm)
      (fun first => .bind (pass .size _) fun bits => .ite (idle _) <| .ite ?_ (idle _)) k c he
    exact .bind (.of_endsIn (escDownloadPreObjecthandler_finishes (coeMaxSub_isOk hfinds hfirst)
      _ _ _ _)) fun _ => .ite (idle _) (accepted _ _ _)
  · intro hclosing
    exact ⟨0, bind_eq_fault rfl (bind_eq_fault rfl (lift_bind_eq_fault hclosing))⟩

lemma sdoInfoerror_finishes (abortcode : Dword) :
    Finishes env (sdoInfoerror (σ := σ) abortcode) :=
  .bind (onMb_finishes escClaimbuffer_finishes) fun _ => .when fun _ =>
    .bind (coeModifyMb_finishes _) fun _ => .bind (coeModifyMb_finishes _) fun _ =>
      coeModifyMb_finishes _

lemma postAndRelease_finishes (n : ℕ) : Finishes env (postAndRelease (σ := σ) n) :=
  .bind (coeModifyMb_finishes _) fun _ => coeModifyMb_finishes _

/-- The description is looked for in the rows once there is a buffer for the reply. -/
lemma sdoGetod_follows : FollowsClosing env sdoGetod c ↔
    c.mb.infoIndex = 0xFFFF ∧ c.mb.ReplyIdle env.sys.opts := by
  constructor
  · intro hfollows
    by_contra hnot
    refine not_followsClosing (fun k => ?_) hfollows
    rw [sdoGetod]
    refine wfp_bind_of_ok rfl (wfp_bind_of_ok rfl (wfp_lift_bind (fun e he =>
      (sdoFindobject_ne_error he).elim) ?_))
    rintro (- | nidx) hfound
    · exact (sdoInfoerror_finishes _ k c).wfp
    obtain ⟨o, ho⟩ := objectAt_isOk hfound
    have hindex : o.index = c.mb.infoIndex := Finds.index_eq ⟨nidx, hfound, ho⟩
    obtain ⟨n, c', hrun, hn, hc'⟩ := (escClaimbuffer_scan : wp env k (onMb escClaimbuffer) _ c)
    refine wfp_bind_of_ok hrun (wfp_ite (fun hne => ?_) fun _ => wfp_pure _)
    have hidle : c.mb.ReplyIdle env.sys.opts := by
      rw [hn] at hne
      obtain ⟨hle, hcontrol⟩ := scanBuffers_found hne
      exact ⟨_, Nat.pos_of_ne_zero hne, by omega, hcontrol⟩
    refine wfp_lift_bind (fun e he => (objectAt_ne_error hfound he).elim) fun o' ho' => ?_
    rw [ho, Except.ok.injEq] at ho'
    subst ho'
    refine wfp_lift_bind (fun e he => ?_) fun d _ => ?_
    · rw [describeObject_error he, hindex]
      exact row_ne_closing fun h => hnot ⟨h, hidle⟩
    · exact (EndsIn.bind (coeModifyMb_finishes _) (fun _ => .bind (coeModifyMb_finishes _) fun _ =>
        postAndRelease_finishes n) k c').wfp
  · rintro ⟨hindex, hidle⟩
    obtain ⟨nidx, hfound, ho⟩ := finds_closing env.sys.dict
    rw [← hindex] at hfound
    obtain ⟨n, c', hrun, hne, -⟩ := escClaimbuffer_claims (k := 0) hidle
    refine ⟨0, bind_eq_fault rfl (bind_eq_fault rfl ?_)⟩
    rw [hfound]
    refine bind_eq_fault rfl (bind_eq_fault hrun ?_)
    rw [when, if_pos hne]
    refine bind_eq_fault (?_ : _ = Outcome.ok sentinel c') (lift_bind_eq_fault rfl)
    rw [ho]
    rfl

lemma sdoGeted_follows : FollowsClosing env sdoGeted c ↔ c.mb.infoIndex = 0xFFFF := by
  constructor
  · intro hfollows
    by_contra hindex
    refine not_followsClosing (fun k => ?_) hfollows
    rw [sdoGeted]
    refine wfp_bind_of_ok rfl (wfp_bind_of_ok rfl (wfp_lift_bind ?_ ?_))
    · intro e he
      exact lookupEntry_error he ▸ row_ne_closing hindex
    rintro (abort | d) -
    · exact (sdoInfoerror_finishes _ k c).wfp
    · exact (EndsIn.bind (onMb_finishes escClaimbuffer_finishes) (fun n => .when fun _ =>
        .bind (coeModifyMb_finishes _) fun _ => .bind (coeModifyMb_finishes _) fun _ =>
          postAndRelease_finishes n) k c).wfp
  · intro hindex
    refine ⟨0, bind_eq_fault rfl (bind_eq_fault rfl (lift_bind_eq_fault ?_))⟩
    rw [hindex]
    exact lookupEntry_closing _ _

/-! ## The rows that `sizeOfPDO` reads -/

/-- A loop of `sizeOfPDO` that counts to `count` reads these rows, one after the other: it starts at
row 1, and its loop variable, a byte, comes round to 0 after 255. -/
structure Objectlist.ReadsRows (o : Objectlist) (count : Byte) (ds : List Objd) : Prop where
  counted : ds.length ≤ count.toNat ∨ count.toNat = 255
  row : ∀ i d, ds[i]? = some d → o.row ((i + 1) % 256) = .ok d

/-- The loop variable after `i` rounds. -/
def AtRound (i : ℕ) (b : Byte) : Prop := b.toNat = (i + 1) % 256

section rows

variable {count b : Byte} {ds : List Objd} {d : Objd}

lemma AtRound.next {i : ℕ} (h : AtRound i b) : AtRound (i + 1) (b + 1) := by
  rw [AtRound] at h ⊢
  rw [BitVec.toNat_add, h]
  change ((i + 1) % 256 + 1) % 256 = _
  omega

lemma Objectlist.ReadsRows.nil (o : Objectlist) (count : Byte) : o.ReadsRows count [] :=
  ⟨.inl (Nat.zero_le _), fun _ _ h => by cases h⟩

/-- One more row. -/
lemma Objectlist.ReadsRows.next (h : o.ReadsRows count ds) (hb : AtRound ds.length b)
    (hle : b ≤ count) (hrow : o.row b.toNat = .ok d) : o.ReadsRows count (ds ++ [d]) := by
  have hle' : b.toNat ≤ count.toNat := BitVec.le_def.mp hle
  have hcount := count.isLt
  rw [AtRound] at hb
  constructor
  case counted =>
    rw [List.length_append, List.length_singleton]
    rcases h.counted with hcounted | hcounted
    · omega
    · exact .inr hcounted
  case row =>
    intro i d' hi
    rcases Nat.lt_or_ge i ds.length with hlt | hge
    · rw [List.getElem?_append_left hlt] at hi
      exact h.row i d' hi
    · rw [List.getElem?_append_right hge, List.getElem?_singleton] at hi
      split at hi
      case isTrue hzero =>
        cases hi
        have hlast : i = ds.length := by omega
        rw [hlast, ← hb]
        exact hrow
      case isFalse => cases hi

/-- The row that comes next. -/
lemma Objectlist.ReadsRows.row_next {ds' : List Objd} (h : o.ReadsRows count (ds ++ d :: ds'))
    (hb : AtRound ds.length b) : b ≤ count ∧ o.row b.toNat = .ok d := by
  have hrow := h.row ds.length d (by simp)
  have hcount := count.isLt
  rw [← hb] at hrow
  refine ⟨BitVec.le_def.mpr ?_, hrow⟩
  have hb' : b.toNat = (ds.length + 1) % 256 := hb
  rcases h.counted with hcounted | hcounted
  · rw [List.length_append, List.length_cons] at hcounted
    omega
  · omega

/-- Where the loop ends, the rows of the count have been read. -/
lemma Objectlist.ReadsRows.done (h : o.ReadsRows count ds) (hb : AtRound ds.length b)
    (hlt : ¬ b ≤ count) : count.toNat ≤ 254 ∧ ds = o.rows count.toNat ∧
      ds.length = count.toNat := by
  have hlt' : ¬ b.toNat ≤ count.toNat := fun h => hlt (BitVec.le_def.mpr h)
  have hcount := count.isLt
  have hbyte := b.isLt
  rw [AtRound] at hb
  have hlength : ds.length = count.toNat := by
    rcases h.counted with hcounted | hcounted
    · omega
    · omega
  refine ⟨by omega, ?_, hlength⟩
  refine List.ext_getElem? fun i => ?_
  rcases Nat.lt_or_ge i ds.length with hi | hi
  · have hrow := h.row i ds[i] (List.getElem?_eq_getElem hi)
    rw [Nat.mod_eq_of_lt (by omega), row_eq_ok] at hrow
    rw [List.getElem?_eq_getElem hi, rows, List.getElem?_take_of_lt (by omega), List.getElem?_drop,
      Nat.add_comm 1 i, hrow]
  · rw [List.getElem?_eq_none hi, List.getElem?_eq_none]
    rw [rows, List.length_take]
    omega

end rows

/-! ## The size of the process data -/

section pdo

variable {dict : Dictionary} {v : Variables} {maxMappings n : ℕ} {ws : List Mapped}

/-- The index in a mapping word. -/
def wordIndex (v : Variables) (d : Objd) : Word := (objFetch32 v.bytes d >>> 16).setWidth 16

/-- `sizeOfPDO` gets past these words: they are taken, if mappings are collected. -/
def Passes (v : Variables) (maxMappings : ℕ) (ws : List Mapped) : Prop :=
  0 < maxMappings → Acceptable v maxMappings ws

lemma Passes.of_append {ws' : List Mapped} (h : Passes v maxMappings (ws ++ ws')) :
    Passes v maxMappings ws := fun hmax => (h hmax).of_append

/-- One more word, which is found. -/
lemma Passes.next {d : Objd} {obj : Option Objd} (h : Passes v maxMappings ws)
    (hobj : mappedEntry v.table (objFetch32 v.bytes d) = .ok (some obj))
    (hroom : ws.length < maxMappings) : Passes v maxMappings (ws ++ [mapped v d]) := by
  intro hmax
  have haccept := h hmax
  have hmapped : (mapped v d).obj = obj := by
    rw [mapped, hobj]
  refine ⟨fun m hm => ?_, ?_⟩
  · rcases List.mem_append.mp hm with hm | hm
    · exact haccept.found m hm
    · rw [List.mem_singleton.mp hm, hmapped]
      exact hobj
  · rw [List.length_append, List.length_singleton]
    exact hroom

/-- `sizeOfPDO` comes to a row of its assignment object, with these words in front of it: the
PDOs assigned by the rows before it have a count that is right, and their words are passed. -/
def ComesToPdo (v : Variables) (index : Word) (maxMappings : ℕ) (d : Objd) (ws : List Mapped) :
    Prop :=
  ∃ assign first before, Finds v.table index assign ∧ assign.row 0 = .ok first ∧
    assign.ReadsRows (objFetch8 v.bytes first) (before ++ [d]) ∧
    (∀ d' ∈ before, ∀ o, Finds v.table (objFetch16 v.bytes d') o → o.Counted v.bytes) ∧
    ws = before.flatMap (pdoWords v) ∧ Passes v maxMappings ws

/-- `sizeOfPDO` looks up the index in a row of a PDO: mappings are collected, the words in front
of it are passed, and there is room for one more. -/
def ComesToWord (v : Variables) (index : Word) (maxMappings : ℕ) (d : Objd) : Prop :=
  ∃ pdo ws o first before, ComesToPdo v index maxMappings pdo ws ∧
    Finds v.table (objFetch16 v.bytes pdo) o ∧ o.row 0 = .ok first ∧
    o.ReadsRows (objFetch8 v.bytes first) (before ++ [d]) ∧
    Passes v maxMappings (ws ++ before.map (mapped v)) ∧ ws.length + before.length < maxMappings

/-- `sizeOfPDO` comes to the index `0xFFFF`, as that of an assigned PDO or of a mapped object. -/
def ComesToLast (v : Variables) (index : Word) (maxMappings : ℕ) : Prop :=
  (index = rxPdoObjidx ∨ index = txPdoObjidx) ∧
  ((∃ d ws, ComesToPdo v index maxMappings d ws ∧ objFetch16 v.bytes d = 0xFFFF) ∨
    ∃ d, ComesToWord v index maxMappings d ∧ wordIndex v d = 0xFFFF)

/-- The lookup of a mapped entry stops only at a row of its object that is not there. -/
lemma mappedEntry_error {value : Dword} (h : mappedEntry dict.table value = .error e) :
    e = .row ((value >>> 16).setWidth 16) := by
  simp only [mappedEntry] at h
  split at h
  · cases h
  obtain h | ⟨found, hfound, h⟩ := except_bind_eq_error.mp h
  · exact (sdoFindobject_ne_error h).elim
  cases found with
  | none => cases h
  | some nidx =>
      obtain h | ⟨o, ho, h⟩ := except_bind_eq_error.mp h
      · exact (objectAt_ne_error hfound h).elim
      have hindex := Finds.index_eq ⟨nidx, hfound, ho⟩
      obtain h | ⟨sub, -, h⟩ := except_bind_eq_error.mp h
      · exact hindex ▸ sdoFindsubindex_error h
      cases sub with
      | none => cases h
      | some nsub => exact hindex ▸ row_error (except_map_eq_error.mp h)

lemma mappedEntry_closing {value : Dword} (h : ((value >>> 16).setWidth 16 : Word) = 0xFFFF) :
    mappedEntry dict.table value = .error (.row 0xFFFF) := by
  obtain ⟨nidx, hfound, ho⟩ := finds_closing dict
  simp only [mappedEntry, h]
  rw [if_neg fun hpad => absurd hpad.1 (by decide), hfound]
  refine except_bind_eq_error.mpr (.inr ⟨some nidx, rfl, ?_⟩)
  refine except_bind_eq_error.mpr (.inr ⟨sentinel, ho, ?_⟩)
  exact except_bind_eq_error.mpr (.inl (sdoFindsubindex_closing _))

/-- Where the loop over the entries of a PDO stands after the words `ws` and the rows `before`. -/
structure EntriesAt (v : Variables) (maxMappings : ℕ) (o : Objectlist) (maxsub : Byte)
    (ws : List Mapped) (before : List Objd) (s : Byte × ℕ × List SmMap) : Prop where
  reads : o.ReadsRows maxsub before
  round : AtRound before.length s.1
  passes : Passes v maxMappings (ws ++ before.map (mapped v))
  length : 0 < maxMappings → s.2.2.length = ws.length + before.length

section entries

variable {maxsub : Byte} {before : List Objd} {s : Byte × ℕ × List SmMap}

/-- After one more row, whose word is mapped if mappings are collected. -/
lemma EntriesAt.next {d : Objd} {b : Byte} {offset offset' : ℕ} {maps maps' : List SmMap}
    (h : EntriesAt v maxMappings o maxsub ws before (b, offset, maps)) (hle : b ≤ maxsub)
    (hrow : o.row b.toNat = .ok d)
    (hmapped : 0 < maxMappings → maps.length ≠ maxMappings ∧ maps'.length = maps.length + 1 ∧
      ∃ obj, mappedEntry v.table (objFetch32 v.bytes d) = .ok (some obj)) :
    EntriesAt v maxMappings o maxsub ws (before ++ [d]) (b + 1, offset', maps') := by
  have hlength := h.length
  have hpasses := h.passes
  dsimp only at hlength
  constructor
  case reads => exact h.reads.next h.round hle hrow
  case round =>
    rw [List.length_append]
    exact h.round.next
  case passes =>
    intro hmax
    obtain ⟨hne, -, obj, hobj⟩ := hmapped hmax
    have hroom := (hpasses hmax).room
    rw [List.length_append, List.length_map] at hroom
    rw [List.map_append, ← List.append_assoc]
    refine hpasses.next hobj ?_ hmax
    rw [List.length_append, List.length_map]
    have := hlength hmax
    omega
  case length =>
    intro hmax
    obtain ⟨-, hmaps, -⟩ := hmapped hmax
    dsimp only
    rw [hmaps, hlength hmax, List.length_append, List.length_singleton, Nat.add_assoc]

/-- One round of the loop over the entries, at a row that is there and a word that is found. -/
lemma EntriesAt.step {d : Objd} (h : EntriesAt v maxMappings o maxsub ws before s)
    (hle : s.1 ≤ maxsub) (hrow : o.row s.1.toNat = .ok d)
    (hmapped : 0 < maxMappings → s.2.2.length ≠ maxMappings ∧
      ∃ obj, mappedEntry v.table (objFetch32 v.bytes d) = .ok (some obj)) :
    ∃ s', sizeOfPDOEntries o maxsub maxMappings s v n () = .ok (.inl s') () ∧
      EntriesAt v maxMappings o maxsub ws (before ++ [d]) s' := by
  obtain ⟨b, offset, maps⟩ := s
  dsimp only at hle hrow hmapped
  rcases Nat.eq_zero_or_pos maxMappings with hzero | hmax
  · have hrun : sizeOfPDOEntries o maxsub maxMappings (b, offset, maps) v n () =
        .ok (.inl (b + 1, (offset + ((objFetch32 v.bytes d).setWidth 8 : Byte).toNat) % 2 ^ 32,
          maps)) () := by
      simp only [sizeOfPDOEntries, if_pos hle, hrow, if_pos hzero]
      rfl
    exact ⟨_, hrun, h.next hle hrow fun hmax => by omega⟩
  · obtain ⟨hfull, obj, hobj⟩ := hmapped hmax
    have hrun : sizeOfPDOEntries o maxsub maxMappings (b, offset, maps) v n () =
        .ok (.inl (b + 1, (offset + ((objFetch32 v.bytes d).setWidth 8 : Byte).toNat) % 2 ^ 32,
          maps ++ [⟨obj, offset⟩])) () := by
      simp only [sizeOfPDOEntries, if_pos hle, hrow, if_neg (Nat.ne_of_gt hmax), if_neg hfull]
      refine bind_eq_ok.mpr ⟨v, (), rfl, ?_⟩
      refine bind_eq_ok.mpr ⟨d, (), rfl, ?_⟩
      refine bind_eq_ok.mpr ⟨some obj, (), ?_, rfl⟩
      rw [hobj]
      rfl
    exact ⟨_, hrun, h.next hle hrow fun _ => ⟨hfull, by simp, obj, hobj⟩⟩

/-- One round at a word that is passed. -/
lemma EntriesAt.step_of_passes {d : Objd} (h : EntriesAt v maxMappings o maxsub ws before s)
    (hle : s.1 ≤ maxsub) (hrow : o.row s.1.toNat = .ok d)
    (hpasses : Passes v maxMappings (ws ++ (before ++ [d]).map (mapped v))) :
    ∃ s', sizeOfPDOEntries o maxsub maxMappings s v n () = .ok (.inl s') () ∧
      EntriesAt v maxMappings o maxsub ws (before ++ [d]) s' := by
  refine h.step hle hrow fun hmax => ⟨?_, _, (hpasses hmax).found (mapped v d) (by simp)⟩
  have hroom := (hpasses hmax).room
  have hlength := h.length hmax
  rw [List.length_append, List.length_map, List.length_append, List.length_singleton] at hroom
  omega

/-- A round goes on, or is past the count. -/
lemma EntriesAt.round_cases (h : EntriesAt v maxMappings o maxsub ws before s) :
    wlp v n (sizeOfPDOEntries o maxsub maxMappings s) (fun x _ =>
      (∀ s', x = .inl s' → ∃ d, EntriesAt v maxMappings o maxsub ws (before ++ [d]) s') ∧
      ∀ offset maps, x = .inr (.ok (offset, maps)) → ¬ s.1 ≤ maxsub ∧ maps = s.2.2) () := by
  obtain ⟨b, offset, maps⟩ := s
  simp only [sizeOfPDOEntries]
  rw [wlp_ite]
  refine ⟨fun hle => ?_, fun hle => ?_⟩
  · rw [wlp_ask_bind, wlp_bind, wlp_lift]
    intro d hrow
    rw [wlp_ite]
    refine ⟨fun hzero => ?_, fun hpos => (wlp_ite _ _ _ _).mpr ⟨fun _ => ?_, fun hfull => ?_⟩⟩
    · rw [wlp_pure]
      refine ⟨fun s' hs' => ⟨d, ?_⟩, by simp⟩
      cases hs'
      exact h.next hle hrow fun hmax => by omega
    · rw [wlp_pure]
      exact ⟨by simp, by simp⟩
    · rw [wlp_bind, wlp_lift]
      intro found hfound
      cases found with
      | none =>
          rw [wlp_pure]
          exact ⟨by simp, by simp⟩
      | some obj =>
          rw [wlp_pure]
          refine ⟨fun s' hs' => ⟨d, ?_⟩, by simp⟩
          cases hs'
          exact h.next hle hrow fun _ => ⟨hfull, by simp, obj, hfound⟩
  · rw [wlp_pure]
    refine ⟨by simp, fun _ _ h => ?_⟩
    cases h
    exact ⟨hle, rfl⟩

/-- What the loop leaves if it is left with words that are taken. -/
lemma sizeOfPDOEntries_passed (h : EntriesAt v maxMappings o maxsub ws [] s) :
    wlp v n (loop (sizeOfPDOEntries o maxsub maxMappings) s) (fun r _ => ∀ offset maps,
      r = .ok (offset, maps) → maxsub.toNat ≤ 254 ∧
        (o.rows maxsub.toNat).length = maxsub.toNat ∧
        Passes v maxMappings (ws ++ (o.rows maxsub.toNat).map (mapped v)) ∧
        (0 < maxMappings → maps.length = ws.length + maxsub.toNat)) () := by
  refine wlp_loop (fun s _ => ∃ before, EntriesAt v maxMappings o maxsub ws before s) ⟨[], h⟩ ?_
  rintro s ⟨⟩ ⟨before, hat⟩
  refine hat.round_cases.mono fun x _ hx => ?_
  cases x with
  | inl s' =>
      obtain ⟨d, hat'⟩ := hx.1 s' rfl
      exact ⟨_, hat'⟩
  | inr r =>
      rintro offset maps rfl
      obtain ⟨hpast, rfl⟩ := hx.2 offset maps rfl
      obtain ⟨hshort, hrows, hlength⟩ := hat.reads.done hat.round hpast
      have hpasses := hat.passes
      have hmaps := hat.length
      rw [hlength] at hmaps
      rw [hrows] at hpasses hlength
      exact ⟨hshort, hlength, hpasses, hmaps⟩

/-- The loop over the entries meets the closing row nowhere if no word it comes to has its
index. -/
lemma sizeOfPDOEntries_avoids (htable : v.table = dict.table) (hindex : o.index ≠ 0xFFFF)
    (hnot : ∀ before d, o.ReadsRows maxsub (before ++ [d]) →
      Passes v maxMappings (ws ++ before.map (mapped v)) →
      ws.length + before.length < maxMappings → wordIndex v d ≠ 0xFFFF)
    (h : EntriesAt v maxMappings o maxsub ws [] s) :
    wfp v n (loop (sizeOfPDOEntries o maxsub maxMappings) s) (· ≠ .row 0xFFFF) () := by
  refine wfp_loop (fun s _ => ∃ before, EntriesAt v maxMappings o maxsub ws before s) ⟨[], h⟩ ?_ ?_
  · rintro ⟨b, offset, maps⟩ ⟨⟩ ⟨before, hat⟩
    simp only [sizeOfPDOEntries]
    refine wfp_ite (fun hle => wfp_bind_of_ok rfl (wfp_lift_bind (fun e he => ?_) fun d hrow => ?_))
      fun _ => wfp_pure _
    · rw [row_error he]
      exact row_ne_closing hindex
    refine wfp_ite (fun _ => wfp_pure _) fun hpos => wfp_ite (fun _ => wfp_pure _) fun hfull => ?_
    refine wfp_lift_bind (fun e he => ?_) fun found _ => ?_
    · rw [htable] at he
      rw [mappedEntry_error he]
      have hmax := Nat.pos_of_ne_zero hpos
      have hlength := hat.length hmax
      have hroom := (hat.passes hmax).room
      rw [List.length_append, List.length_map] at hroom
      dsimp only at hlength
      exact row_ne_closing (hnot before d (hat.reads.next hat.round hle hrow) hat.passes (by omega))
    · cases found with
      | none => exact wfp_pure _
      | some obj => exact wfp_pure _
  · rintro s ⟨⟩ ⟨before, hat⟩
    refine hat.round_cases.mono fun x _ hx s' hs' => ?_
    obtain ⟨d, hat'⟩ := hx.1 s' hs'
    exact ⟨_, hat'⟩

/-- The loop over the entries gets past words that are taken. -/
lemma sizeOfPDOEntries_passes (hcounted : o.Counted v.bytes)
    (hmaxsub : maxsub.toNat = o.count v.bytes)
    (hpasses : Passes v maxMappings (ws ++ (o.rows (o.count v.bytes)).map (mapped v)))
    (h : EntriesAt v maxMappings o maxsub ws [] s) (hfuel : 255 < n) :
    wp v n (loop (sizeOfPDOEntries o maxsub maxMappings) s) (fun r _ => ∃ offset maps,
      r = .ok (offset, maps) ∧
        (0 < maxMappings → maps.length = ws.length + o.count v.bytes)) () := by
  have hshort := hcounted.short
  apply wp_loop (fun s _ => ∃ before, EntriesAt v maxMappings o maxsub ws before s ∧
      before <+: o.rows (o.count v.bytes))
    (fun s _ => 255 - s.1.toNat)
  case hinit => exact ⟨[], h, List.nil_prefix⟩
  case hfuel => omega
  case hstep =>
    rintro s ⟨⟩ ⟨before, hat, hprefix⟩
    by_cases hle : s.1 ≤ maxsub
    · have hle' : s.1.toNat ≤ maxsub.toNat := BitVec.le_def.mp hle
      have hround : s.1.toNat = (before.length + 1) % 256 := hat.round
      have hlength := hprefix.length_le
      rw [Objectlist.length_rows hcounted] at hlength
      have hnext : s.1.toNat = before.length + 1 := by omega
      obtain ⟨d, hrow⟩ := hcounted.row (i := s.1.toNat) (by omega)
      have hbefore : before = o.rows before.length := by
        rw [Objectlist.rows] at hprefix ⊢
        have htake := List.prefix_iff_eq_take.mp hprefix
        rw [List.take_take] at htake
        rw [htake]
        congr 1
        rw [← htake]
        omega
      have hprefix' : before ++ [d] <+: o.rows (o.count v.bytes) := by
        rw [hnext] at hrow
        have hrows := Objectlist.rows_succ hrow
        rw [← hbefore] at hrows
        rw [← hrows, Objectlist.rows, Objectlist.rows]
        exact List.take_prefix_take_left (by omega)
      obtain ⟨rest, hrest⟩ := hprefix'
      have hword : Passes v maxMappings (ws ++ (before ++ [d]).map (mapped v)) := by
        rw [← hrest, List.map_append, ← List.append_assoc] at hpasses
        exact hpasses.of_append
      obtain ⟨s', hrun, hat'⟩ := hat.step_of_passes (n := n) hle hrow hword
      refine ⟨_, _, hrun, ⟨_, hat', ⟨rest, hrest⟩⟩, ?_⟩
      have hround' : s'.1.toNat = ((before ++ [d]).length + 1) % 256 := hat'.round
      rw [List.length_append, List.length_singleton] at hround'
      omega
    · obtain ⟨-, -, hlength⟩ := hat.reads.done hat.round hle
      have hmaps := hat.length
      obtain ⟨b, offset, maps⟩ := s
      simp only [sizeOfPDOEntries]
      rw [if_neg hle, wp_pure]
      exact ⟨offset, maps, rfl, fun hmax => by rw [hmaps hmax, hlength, hmaxsub]⟩

/-- The loop over the entries comes to a word with the index of the closing row. -/
lemma sizeOfPDOEntries_follows {d : Objd} (htable : v.table = dict.table)
    (hreads : o.ReadsRows maxsub (before ++ [d]))
    (hpasses : Passes v maxMappings (ws ++ before.map (mapped v)))
    (hroom : ws.length + before.length < maxMappings) (hlast : wordIndex v d = 0xFFFF)
    (h : EntriesAt v maxMappings o maxsub ws [] s) (hfuel : before.length < n) :
    loop (sizeOfPDOEntries o maxsub maxMappings) s v n () = .fault (.row 0xFFFF) := by
  have hmax : 0 < maxMappings := by omega
  refine loop_eq_fault (fun j s _ => ∃ front back, before = front ++ back ∧ back.length = j ∧
    EntriesAt v maxMappings o maxsub ws front s) ⟨[], before, rfl, rfl, h⟩ hfuel ?_ ?_
  · rintro s ⟨⟩ ⟨front, back, rfl, hback, hat⟩
    rw [List.length_eq_zero_iff] at hback
    subst hback
    rw [List.append_nil] at hreads hpasses hroom
    obtain ⟨hle, hrow⟩ := hreads.row_next hat.round
    have hlength := hat.length hmax
    obtain ⟨b, offset, maps⟩ := s
    dsimp only at hle hrow hlength
    have hfull : maps.length ≠ maxMappings := by omega
    simp only [sizeOfPDOEntries, if_pos hle, hrow, if_neg (Nat.ne_of_gt hmax), if_neg hfull]
    refine bind_eq_fault rfl (bind_eq_fault rfl (lift_bind_eq_fault ?_))
    rw [htable]
    exact mappedEntry_closing hlast
  · rintro j s ⟨⟩ ⟨front, back, rfl, hback, hat⟩
    obtain ⟨d', back, rfl⟩ := List.exists_cons_of_length_eq_add_one hback
    have hreads' : o.ReadsRows maxsub (front ++ d' :: (back ++ [d])) := by
      rw [List.append_assoc] at hreads
      exact hreads
    obtain ⟨hle, hrow⟩ := hreads'.row_next hat.round
    have hword : Passes v maxMappings (ws ++ (front ++ [d']).map (mapped v)) := by
      rw [List.append_cons, List.map_append, ← List.append_assoc] at hpasses
      exact hpasses.of_append
    obtain ⟨s', hrun, hat'⟩ := hat.step_of_passes (n := n) hle hrow hword
    refine ⟨s', _, hrun, front ++ [d'], back, List.append_cons .., ?_, hat'⟩
    exact Nat.succ.inj hback

end entries

/-- Where the loop over the PDOs stands after the rows `before`. -/
structure PdosAt (v : Variables) (maxMappings : ℕ) (assign : Objectlist) (si : Byte)
    (before : List Objd) (s : Byte × ℕ × List SmMap) : Prop where
  reads : assign.ReadsRows si before
  round : AtRound before.length s.1
  counted : ∀ d ∈ before, ∀ o, Finds v.table (objFetch16 v.bytes d) o → o.Counted v.bytes
  passes : Passes v maxMappings (before.flatMap (pdoWords v))
  length : 0 < maxMappings → s.2.2.length = (before.flatMap (pdoWords v)).length

section pdos

variable {assign : Objectlist} {si : Byte} {before : List Objd} {s : Byte × ℕ × List SmMap}

lemma pdosAt_nil (v : Variables) (maxMappings : ℕ) (assign : Objectlist) (si : Byte) :
    PdosAt v maxMappings assign si [] (1, 0, []) :=
  ⟨.nil _ _, rfl, fun _ h => absurd h List.not_mem_nil,
    fun _ => ⟨fun _ h => absurd h List.not_mem_nil, Nat.zero_le _⟩, fun _ => rfl⟩

/-- The loop over the entries of the next PDO starts behind the words before it. -/
lemma PdosAt.entries {b : Byte} {offset : ℕ} {maps : List SmMap}
    (h : PdosAt v maxMappings assign si before (b, offset, maps)) (o : Objectlist) (maxsub : Byte) :
    EntriesAt v maxMappings o maxsub (before.flatMap (pdoWords v)) [] (1, offset, maps) := by
  refine ⟨.nil _ _, rfl, ?_, h.length⟩
  rw [List.map_nil, List.append_nil]
  exact h.passes

/-- After one more row. -/
lemma PdosAt.next {d : Objd} {b : Byte} {offset offset' : ℕ} {maps maps' : List SmMap}
    (h : PdosAt v maxMappings assign si before (b, offset, maps)) (hle : b ≤ si)
    (hrow : assign.row b.toNat = .ok d)
    (hcounted : ∀ o, Finds v.table (objFetch16 v.bytes d) o → o.Counted v.bytes)
    (hpasses : Passes v maxMappings (before.flatMap (pdoWords v) ++ pdoWords v d))
    (hmaps : 0 < maxMappings → maps'.length =
      (before.flatMap (pdoWords v)).length + (pdoWords v d).length) :
    PdosAt v maxMappings assign si (before ++ [d]) (b + 1, offset', maps') := by
  constructor
  case reads => exact h.reads.next h.round hle hrow
  case round =>
    rw [List.length_append]
    exact h.round.next
  case counted =>
    intro d' hd'
    rcases List.mem_append.mp hd' with hd' | hd'
    · exact h.counted d' hd'
    · rw [List.mem_singleton.mp hd']
      exact hcounted
  case passes =>
    rw [pdoWords_concat]
    exact hpasses
  case length =>
    intro hmax
    rw [pdoWords_concat, List.length_append]
    exact hmaps hmax

/-- One round of the loop over the PDOs, at a row that is there and a PDO that is passed. -/
lemma PdosAt.step {d : Objd} (htable : v.table = dict.table)
    (h : PdosAt v maxMappings assign si before s) (hle : s.1 ≤ si)
    (hrow : assign.row s.1.toNat = .ok d)
    (hcounted : ∀ o, Finds v.table (objFetch16 v.bytes d) o → o.Counted v.bytes)
    (hpasses : Passes v maxMappings (before.flatMap (pdoWords v) ++ pdoWords v d))
    (hfuel : 255 < n) :
    ∃ s', sizeOfPDOAssigned assign si maxMappings s v n () = .ok (.inl s') () ∧
      PdosAt v maxMappings assign si (before ++ [d]) s' := by
  obtain ⟨b, offset, maps⟩ := s
  dsimp only at hle hrow
  suffices hwp : wp v n (sizeOfPDOAssigned assign si maxMappings (b, offset, maps)) (fun x _ =>
      ∃ s', x = .inl s' ∧ PdosAt v maxMappings assign si (before ++ [d]) s') () by
    obtain ⟨x, ⟨⟩, hrun, s', rfl, hat⟩ := hwp
    exact ⟨s', hrun, hat⟩
  simp only [sizeOfPDOAssigned]
  rw [if_pos hle, wp_ask_bind, wp_bind, wp_lift]
  refine ⟨d, hrow, ?_⟩
  obtain ⟨found, hfound⟩ := sdoFindobject_isOk dict (objFetch16 v.bytes d)
  rw [← htable] at hfound
  rw [wp_bind, wp_lift]
  refine ⟨found, hfound, ?_⟩
  cases found with
  | none =>
      rw [wp_pure]
      rw [pdoWords_of_none hfound] at hpasses
      refine ⟨_, rfl, h.next hle hrow hcounted ?_ fun hmax => ?_⟩
      · rw [pdoWords_of_none hfound]
        exact hpasses
      · rw [pdoWords_of_none hfound]
        exact h.length hmax
  | some nidx =>
      obtain ⟨o, ho⟩ := objectAt_isOk hfound
      have hfinds : Finds v.table (objFetch16 v.bytes d) o := ⟨nidx, hfound, ho⟩
      have hpdo := hcounted o hfinds
      obtain ⟨first, hfirst⟩ := hpdo.row (Nat.zero_le _)
      have hcount : o.count v.bytes = (objFetch8 v.bytes first).toNat := Objectlist.count_eq hfirst
      have hwords : pdoWords v d = (o.rows (o.count v.bytes)).map (mapped v) := by
        rw [pdoWords_of_finds hfinds hfirst, hcount]
      rw [hwords] at hpasses
      rw [wp_bind, wp_lift]
      refine ⟨o, ho, ?_⟩
      rw [wp_bind, wp_lift]
      refine ⟨first, hfirst, ?_⟩
      rw [wp_bind]
      refine (sizeOfPDOEntries_passes hpdo hcount.symm hpasses (h.entries o _) hfuel).mono ?_
      rintro r ⟨⟩ ⟨offset', maps', rfl, hmaps⟩
      rw [wp_pure]
      refine ⟨_, rfl, h.next hle hrow hcounted ?_ fun hmax => ?_⟩
      · rw [hwords]
        exact hpasses
      · rw [hmaps hmax, hwords, List.length_map, Objectlist.length_rows hpdo]

/-- The loop over the PDOs meets the closing row nowhere if nothing it comes to has its index. -/
lemma sizeOfPDOAssigned_avoids (htable : v.table = dict.table) (hindex : assign.index ≠ 0xFFFF)
    (hpdo : ∀ before d, assign.ReadsRows si (before ++ [d]) →
      (∀ d' ∈ before, ∀ o, Finds v.table (objFetch16 v.bytes d') o → o.Counted v.bytes) →
      Passes v maxMappings (before.flatMap (pdoWords v)) → objFetch16 v.bytes d ≠ 0xFFFF ∧
        ∀ o first before' d', Finds v.table (objFetch16 v.bytes d) o → o.row 0 = .ok first →
          o.ReadsRows (objFetch8 v.bytes first) (before' ++ [d']) →
          Passes v maxMappings (before.flatMap (pdoWords v) ++ before'.map (mapped v)) →
          (before.flatMap (pdoWords v)).length + before'.length < maxMappings →
            wordIndex v d' ≠ 0xFFFF) :
    wfp v n (loop (sizeOfPDOAssigned assign si maxMappings) (1, 0, [])) (· ≠ .row 0xFFFF) () := by
  refine wfp_loop (fun s _ => ∃ before, PdosAt v maxMappings assign si before s)
    ⟨[], pdosAt_nil ..⟩ ?_ ?_
  · rintro ⟨b, offset, maps⟩ ⟨⟩ ⟨before, hat⟩
    simp only [sizeOfPDOAssigned]
    refine wfp_ite (fun hle => wfp_bind_of_ok rfl (wfp_lift_bind (fun e he => ?_) fun d hrow => ?_))
      fun _ => wfp_pure _
    · rw [row_error he]
      exact row_ne_closing hindex
    obtain ⟨hne, hwords⟩ := hpdo before d (hat.reads.next hat.round hle hrow) hat.counted hat.passes
    refine wfp_lift_bind (fun e he => ?_) fun found hfound => ?_
    · rw [htable] at he
      exact (sdoFindobject_ne_error he).elim
    cases found with
    | none => exact wfp_pure _
    | some nidx =>
        refine wfp_lift_bind (fun e he => ?_) fun o ho => ?_
        · rw [htable] at he hfound
          exact (objectAt_ne_error hfound he).elim
        have hfinds : Finds v.table (objFetch16 v.bytes d) o := ⟨nidx, hfound, ho⟩
        have hoindex : o.index ≠ 0xFFFF := hfinds.index_eq.symm ▸ hne
        refine wfp_lift_bind (fun e he => ?_) fun first hfirst => ?_
        · rw [row_error he]
          exact row_ne_closing hoindex
        refine wfp.bind (P := fun _ _ => True) ?_ (wlp_true _) fun r u _ => ?_
        · exact sizeOfPDOEntries_avoids htable hoindex
            (fun before' d' => hwords o first before' d' hfinds hfirst) (hat.entries o _)
        · cases r with
          | error maps' => exact wfp_pure _
          | ok p => exact wfp_pure _
  · rintro ⟨b, offset, maps⟩ ⟨⟩ ⟨before, hat⟩
    simp only [sizeOfPDOAssigned]
    rw [wlp_ite]
    refine ⟨fun hle => ?_, fun _ => ?_⟩
    · rw [wlp_ask_bind, wlp_bind, wlp_lift]
      intro d hrow
      rw [wlp_bind, wlp_lift]
      intro found hfound
      cases found with
      | none =>
          rw [wlp_pure]
          rintro s' ⟨⟩
          refine ⟨_, hat.next hle hrow (fun o ho => ?_) ?_ fun hmax => ?_⟩
          · obtain ⟨nidx, hfound', -⟩ := ho
            rw [hfound] at hfound'
            cases hfound'
          · rw [pdoWords_of_none hfound, List.append_nil]
            exact hat.passes
          · rw [pdoWords_of_none hfound]
            exact hat.length hmax
      | some nidx =>
          rw [wlp_bind, wlp_lift]
          intro o ho
          rw [wlp_bind, wlp_lift]
          intro first hfirst
          have hfinds : Finds v.table (objFetch16 v.bytes d) o := ⟨nidx, hfound, ho⟩
          rw [wlp_bind]
          refine (sizeOfPDOEntries_passed (hat.entries o _)).mono fun r _ hr => ?_
          cases r with
          | error maps' =>
              rw [wlp_pure]
              rintro s' ⟨⟩
          | ok p =>
              obtain ⟨offset', maps'⟩ := p
              obtain ⟨hshort, hlength, hpasses, hmaps⟩ := hr offset' maps' rfl
              rw [wlp_pure]
              rintro s' ⟨⟩
              have hwords := pdoWords_of_finds hfinds hfirst
              have hcount : o.count v.bytes = (objFetch8 v.bytes first).toNat :=
                Objectlist.count_eq hfirst
              refine ⟨_, hat.next hle hrow (fun o' ho' => ?_) ?_ fun hmax => ?_⟩
              · rw [← hfinds.unique ho']
                refine ⟨hcount ▸ hshort, ?_⟩
                rw [Objectlist.rows, List.length_take, List.length_drop] at hlength
                rw [hcount]
                have hpos := (List.getElem?_eq_some_iff.mp (row_eq_ok.mp hfirst)).1
                omega
              · rw [hwords]
                exact hpasses
              · rw [hmaps hmax, hwords, List.length_map, hlength]
    · rw [wlp_pure]
      rintro s' ⟨⟩

/-- The loop over the PDOs comes to a row where its body follows the closing row. -/
lemma sizeOfPDOAssigned_follows {d : Objd} (htable : v.table = dict.table)
    (hreads : assign.ReadsRows si (before ++ [d]))
    (hcounted : ∀ d' ∈ before, ∀ o, Finds v.table (objFetch16 v.bytes d') o → o.Counted v.bytes)
    (hpasses : Passes v maxMappings (before.flatMap (pdoWords v))) (hfuel : before.length + 255 < n)
    (hlast : ∀ s, PdosAt v maxMappings assign si before s → s.1 ≤ si →
      assign.row s.1.toNat = .ok d →
      sizeOfPDOAssigned assign si maxMappings s v n () = .fault (.row 0xFFFF)) :
    loop (sizeOfPDOAssigned assign si maxMappings) (1, 0, []) v n () = .fault (.row 0xFFFF) := by
  refine loop_eq_fault (fun j s _ => ∃ front back, before = front ++ back ∧ back.length = j ∧
    PdosAt v maxMappings assign si front s) ⟨[], before, rfl, rfl, pdosAt_nil ..⟩ (by omega) ?_ ?_
  · rintro s ⟨⟩ ⟨front, back, rfl, hback, hat⟩
    rw [List.length_eq_zero_iff] at hback
    subst hback
    rw [List.append_nil] at hreads hlast
    obtain ⟨hle, hrow⟩ := hreads.row_next hat.round
    exact hlast s hat hle hrow
  · rintro j s ⟨⟩ ⟨front, back, rfl, hback, hat⟩
    obtain ⟨d', back, rfl⟩ := List.exists_cons_of_length_eq_add_one hback
    have hreads' : assign.ReadsRows si (front ++ d' :: (back ++ [d])) := by
      rw [List.append_assoc] at hreads
      exact hreads
    obtain ⟨hle, hrow⟩ := hreads'.row_next hat.round
    have hword : Passes v maxMappings (front.flatMap (pdoWords v) ++ pdoWords v d') := by
      rw [List.append_cons, List.flatMap_append, pdoWords_concat] at hpasses
      exact hpasses.of_append
    obtain ⟨s', hrun, hat'⟩ := hat.step htable hle hrow (hcounted d' (by simp)) hword (n := n)
      (by omega)
    exact ⟨s', _, hrun, front ++ [d'], back, List.append_cons .., Nat.succ.inj hback, hat'⟩

/-- The row of a PDO with the index of the closing row. -/
lemma sizeOfPDOAssigned_at_last {d : Objd} (htable : v.table = dict.table) (hle : s.1 ≤ si)
    (hrow : assign.row s.1.toNat = .ok d) (hlast : objFetch16 v.bytes d = 0xFFFF) :
    sizeOfPDOAssigned assign si maxMappings s v n () = .fault (.row 0xFFFF) := by
  obtain ⟨nidx, hfound, ho⟩ := finds_closing dict
  rw [← htable] at hfound ho
  simp only [sizeOfPDOAssigned, if_pos hle, hrow]
  refine bind_eq_fault rfl (bind_eq_fault rfl ?_)
  rw [hlast, hfound]
  refine bind_eq_fault rfl ?_
  dsimp only
  rw [ho]
  exact bind_eq_fault rfl (lift_bind_eq_fault rfl)

/-- The row of a PDO with such a word. -/
lemma PdosAt.at_word {d d' first : Objd} {before' : List Objd} (htable : v.table = dict.table)
    (h : PdosAt v maxMappings assign si before s) (hle : s.1 ≤ si)
    (hrow : assign.row s.1.toNat = .ok d) (hfinds : Finds v.table (objFetch16 v.bytes d) o)
    (hfirst : o.row 0 = .ok first)
    (hreads : o.ReadsRows (objFetch8 v.bytes first) (before' ++ [d']))
    (hpasses : Passes v maxMappings (before.flatMap (pdoWords v) ++ before'.map (mapped v)))
    (hroom : (before.flatMap (pdoWords v)).length + before'.length < maxMappings)
    (hlast : wordIndex v d' = 0xFFFF) (hfuel : before'.length < n) :
    sizeOfPDOAssigned assign si maxMappings s v n () = .fault (.row 0xFFFF) := by
  obtain ⟨b, offset, maps⟩ := s
  dsimp only at hle hrow
  obtain ⟨nidx, hfound, ho⟩ := hfinds
  simp only [sizeOfPDOAssigned, if_pos hle, hrow]
  refine bind_eq_fault rfl (bind_eq_fault rfl ?_)
  rw [hfound]
  refine bind_eq_fault rfl ?_
  dsimp only
  rw [ho]
  refine bind_eq_fault rfl ?_
  rw [hfirst]
  exact bind_eq_fault rfl (bind_eq_fault_left
    (sizeOfPDOEntries_follows htable hreads hpasses hroom hlast (h.entries o _) hfuel))

end pdos

/-- `sizeOfPDO` follows the null pointers of the closing row exactly if it comes to the index
`0xFFFF`. -/
lemma sizeOfPDO_follows_iff (htable : v.table = dict.table) (nmappings : ℤ)
    (mappings : List SmMap) :
    (∃ n, sizeOfPDO index nmappings mappings maxMappings v n () = .fault (.row 0xFFFF)) ↔
      ComesToLast v index maxMappings := by
  constructor
  · rintro ⟨n, hrun⟩
    by_contra hnot
    suffices hall :
        wfp v n (sizeOfPDO index nmappings mappings maxMappings) (· ≠ .row 0xFFFF) () from
      hall _ hrun rfl
    rw [sizeOfPDO]
    refine wfp_ite (fun _ => wfp_pure _) fun hboth => wfp_bind_of_ok rfl ?_
    have hindex : index = rxPdoObjidx ∨ index = txPdoObjidx := by
      by_contra hneither
      rw [not_or] at hneither
      exact hboth hneither
    have hlt : index ≠ 0xFFFF := by
      rcases hindex with rfl | rfl
      · decide
      · decide
    refine wfp_lift_bind (fun e he => ?_) fun found hfound => ?_
    · rw [htable] at he
      exact (sdoFindobject_ne_error he).elim
    cases found with
    | none => exact wfp_pure _
    | some nidx =>
        refine wfp_lift_bind (fun e he => ?_) fun assign hassign => ?_
        · rw [htable] at he hfound
          exact (objectAt_ne_error hfound he).elim
        have hfinds : Finds v.table index assign := ⟨nidx, hfound, hassign⟩
        have hassignIndex : assign.index ≠ 0xFFFF := hfinds.index_eq.symm ▸ hlt
        refine wfp_lift_bind (fun e he => ?_) fun first hfirst => ?_
        · rw [row_error he]
          exact row_ne_closing hassignIndex
        refine wfp.bind (P := fun _ _ => True) ?_ (wlp_true _) fun r u _ => ?_
        · refine sizeOfPDOAssigned_avoids htable hassignIndex
            fun before d hreads hcounted hpasses =>
            ?_
          have hcomes : ComesToPdo v index maxMappings d (before.flatMap (pdoWords v)) :=
            ⟨assign, first, before, hfinds, hfirst, hreads, hcounted, rfl, hpasses⟩
          refine ⟨fun hlast => hnot ⟨hindex, .inl ⟨d, _, hcomes, hlast⟩⟩, ?_⟩
          intro o first' before' d' ho hfirst' hreads' hpasses' hroom hlast
          exact hnot ⟨hindex, .inr ⟨d', ⟨d, _, o, first', before', hcomes, ho, hfirst', hreads',
            hpasses', hroom⟩, hlast⟩⟩
        · cases r with
          | error maps => exact wfp_pure _
          | ok p => exact wfp_pure _
  · rintro ⟨hindex, hlast⟩
    have hboth : ¬ (index ≠ rxPdoObjidx ∧ index ≠ txPdoObjidx) := by
      rintro ⟨hrx, htx⟩
      rcases hindex with h | h
      · exact hrx h
      · exact htx h
    -- the loop over the PDOs is all there is to show
    have run {assign : Objectlist} {first : Objd} {n : ℕ} (hfinds : Finds v.table index assign)
        (hfirst : assign.row 0 = .ok first)
        (hloop :
          loop (sizeOfPDOAssigned assign (objFetch8 v.bytes first) maxMappings) (1, 0, []) v n
          () = .fault (.row 0xFFFF)) :
        sizeOfPDO index nmappings mappings maxMappings v n () = .fault (.row 0xFFFF) := by
      obtain ⟨nidx, hfound, hassign⟩ := hfinds
      rw [sizeOfPDO, if_neg hboth]
      refine bind_eq_fault rfl ?_
      rw [hfound]
      refine bind_eq_fault rfl ?_
      dsimp only
      rw [hassign]
      refine bind_eq_fault rfl ?_
      rw [hfirst]
      exact bind_eq_fault rfl (bind_eq_fault_left hloop)
    rcases hlast with ⟨d, ws, hcomes, hlast⟩ | ⟨d', hcomes, hlast⟩
    · obtain ⟨assign, first, before, hfinds, hfirst, hreads, hcounted, rfl, hpasses⟩ := hcomes
      refine ⟨before.length + 256, run hfinds hfirst ?_⟩
      exact sizeOfPDOAssigned_follows htable hreads hcounted hpasses (by omega)
        fun s _ hle hrow => sizeOfPDOAssigned_at_last htable hle hrow hlast
    · obtain ⟨d, ws, o, first', before', hcomes, ho, hfirst', hreads', hpasses', hroom⟩ := hcomes
      obtain ⟨assign, first, before, hfinds, hfirst, hreads, hcounted, rfl, hpasses⟩ := hcomes
      refine ⟨before.length + before'.length + 256, run hfinds hfirst ?_⟩
      exact sizeOfPDOAssigned_follows htable hreads hcounted hpasses (by omega)
        fun s hat hle hrow => hat.at_word htable hle hrow ho hfirst' hreads' hpasses' hroom hlast
          (by omega)

end pdo

/-- The handlers follow the null pointers of the closing row for its index, once they look it
up, and for no other. -/
structure HandlersFollow (env : CoeEnv σ) (c : Coe σ) : Prop where
  upload : FollowsClosing env sdoUpload c ↔ c.mb.sdoIndex = 0xFFFF
  download : FollowsClosing env sdoDownload c ↔ c.mb.sdoIndex = 0xFFFF
  uploadComplete : FollowsClosing env sdoUploadCompleteAccess c ↔
    c.mb.sdoIndex = 0xFFFF ∧ ¬ 1 < c.mb.sdoSubindex
  downloadComplete : FollowsClosing env sdoDownloadCompleteAccess c ↔
    c.mb.sdoIndex = 0xFFFF ∧ ¬ 1 < c.mb.sdoSubindex
  getod : FollowsClosing env sdoGetod c ↔
    c.mb.infoIndex = 0xFFFF ∧ c.mb.ReplyIdle env.sys.opts
  geted : FollowsClosing env sdoGeted c ↔ c.mb.infoIndex = 0xFFFF

lemma handlersFollow (env : CoeEnv σ) (c : Coe σ) : HandlersFollow env c :=
  ⟨sdoUpload_follows, sdoDownload_follows, sdoUploadCompleteAccess_follows,
    sdoDownloadCompleteAccess_follows, sdoGetod_follows, sdoGeted_follows⟩

/-- **The lookup of an object is exact for every index but `0xFFFF`**: the scan gives the row of the
index or none exactly then, and the handlers that look up the object of a request, and `sizeOfPDO`,
which looks up what is stored, follow the null pointers of the closing row exactly if `0xFFFF` is
what they look up. -/
theorem object_lookup_iff (env : CoeEnv σ) :
    (∀ objects : List Objectlist, (objects.Pairwise fun o o' => o.index < o'.index) →
      (∀ o ∈ objects, o.index < 0xFFFF) →
        ∀ index, FindsExactly objects index ↔ index ≠ 0xFFFF) ∧
    (∀ c, HandlersFollow env c) ∧
    (∀ (dict : Dictionary) (bytes : ByteStore) (index : Word) (nmappings : ℤ)
      (mappings : List SmMap) (maxMappings : ℕ),
        (∃ n, sizeOfPDO index nmappings mappings maxMappings ⟨dict.table, bytes⟩ n () =
          .fault (.row 0xFFFF)) ↔ ComesToLast ⟨dict.table, bytes⟩ index maxMappings) :=
  ⟨fun _ hascending hbelow => findsExactly_iff hascending hbelow, handlersFollow env,
    fun _ _ _ nmappings mappings _ => sizeOfPDO_follows_iff rfl nmappings mappings⟩

/-- The lookups of the output object of the example device. -/
theorem object_lookup_example :
    FindsExactly exampleObjects 0x7000 ∧
      ¬ FollowsClosing ⟨exampleSystem, escPreop.setWidth 16⟩ sdoUpload ⟨fun _ => 0,
        exampleMailbox (sdoMessage coeCommandUploadrequest 0x7000 1 []),
        ⟨fun _ => 0, [], false⟩⟩ := by
  obtain ⟨hscan, hhandlers, -⟩ := object_lookup_iff ⟨exampleSystem, escPreop.setWidth 16⟩
  refine ⟨(hscan exampleObjects (by decide) (by decide) 0x7000).mpr (by decide), fun hfollows => ?_⟩
  exact absurd ((hhandlers _).upload.mp hfollows) (by decide)

/-- A dictionary whose one assigned PDO has the index `0xFFFF`. -/
def lastIndexAssigned : List Objectlist :=
  [{ index := 0x1c12, objtype := otypeArray, maxsub := 1, name := [],
     objdesc := [constEntry 0 dtypeUnsigned8 8 1, constEntry 1 dtypeUnsigned16 16 0xFFFF] }]

/-- A request for `0xFFFF` finds the closing row, an upload follows its pointer, and so does
`sizeOfPDO` for an assignment of it. -/
theorem closing_row_found :
    sdoFindobject exampleDictionary.table 0xFFFF = .ok (some 3) ∧
    sdoUpload ⟨exampleSystem, escPreop.setWidth 16⟩ 1 ⟨fun _ => 0,
      exampleMailbox (sdoMessage coeCommandUploadrequest 0xFFFF 0 []),
      ⟨fun _ => 0, [], false⟩⟩ = .fault (.row 0xFFFF) ∧
    sizeOfPDO rxPdoObjidx 0 [] 0 ⟨lastIndexAssigned ++ [sentinel], fun _ => 0⟩ 2 () =
      .fault (.row 0xFFFF) :=
  ⟨by decide, rfl, rfl⟩

end Soes
