import Soes.Generator.ObjectTable
import Soes.Properties.GeneratedTables
import Soes.Properties.ObjectExtent

/-!
# One dictionary

The generator writes the dictionary twice: as the object list that the stack serves a master from,
and as the C++ table that the application and its tools look entries up in.  The two mirror each
other, row by row (`Twins`), and the lookups agree (`one_dictionary`): `Find` finds an entry where
`SDO_findobject` and `SDO_findsubindex` do, with the same type, length, value, storage and access
rights.  One thing is only in the C++ table.  The object list has a `maxsub` of 1 for the assignment
objects, so of the PDOs that are assigned the stack shows a master the first.

The sub-entries of an object may leave gaps, but they ascend (`Ascending`). `SDO_findsubindex` takes
`maxsub` for the number of the last row, so in a sparse object it may read behind the rows
(`ObjectExtent`): the lookups agree where it does not, and it does not in an object without gaps.
-/

namespace Soes.GenOd

variable {cfg : Cfg} {out : Output} {objs : List Object} {addr : Place → ℕ}
  {rxBytes txBytes : ℕ} {rows : List CxxEntry}

/-! ## Rows that mirror each other -/

/-- The data pointer of a row, by the storage and the text of the C++ row. -/
def CxxEntry.data (c : CxxEntry) : Option Place :=
  match c.storage, c.text with
  | some p, _ => some p
  | none, some text => some (.text text)
  | none, none => none

/-- A row of the C++ table says what a row of the object list says. -/
structure CxxEntry.Restates (c : CxxEntry) (index : ℕ) (row : Row) : Prop where
  index : c.index = index
  sub : c.sub = row.subindex
  datatype : row.datatype = c.type.dtype
  bits : row.bits = c.bits
  access : row.access = c.access.atype
  name : row.name = c.name
  value : row.value = c.constant
  data : row.data = c.data
  text : c.text ≠ none → c.storage = none

/-- The rows of an object in the two tables. -/
def Twins (cs : List CxxEntry) (r : ObjectRow) : Prop :=
  List.Forall₂ (fun c row => c.Restates r.index row) cs r.rows

/-- A constant in the two tables. -/
lemma cxxConst_restates (index sub : ℕ) (name : String) (type : Ty) (bits : ℕ) (value : ℤ) :
    (cxxConst index sub name type bits value).Restates index
      (constRow sub type.dtype bits name value) :=
  ⟨rfl, rfl, rfl, rfl, rfl, rfl, rfl, rfl, fun h => absurd rfl h⟩

lemma cxxPdo_twins (p : Pdo) : Twins (cxxPdo p) (pdoRow p) := by
  have hrows : ∀ (entries : List MapEntry) (n : ℕ),
      List.Forall₂ (fun c row => CxxEntry.Restates c p.index row) (cxxMapping p.index n entries)
        (mappingRows n entries) := by
    intro entries
    induction entries with
    | nil => exact fun n => .nil
    | cons e entries ih => exact fun n => .cons (cxxConst_restates ..) (ih (n + 1))
  exact .cons (cxxConst_restates p.index 0 p.name .u8 8 p.entries.length) (hrows p.entries 1)

lemma cxxAssign_twins (index : ℕ) (what : String) (pdos : List Pdo) :
    Twins (cxxAssign index what pdos) (assignRow index what pdos) := by
  have hrows : ∀ (pdos : List Pdo) (n : ℕ),
      List.Forall₂ (fun c row => CxxEntry.Restates c index row) (cxxAssigned index n pdos)
        (assignRows n pdos) := by
    intro pdos
    induction pdos with
    | nil => exact fun n => .nil
    | cons p pdos ih => exact fun n => .cons (cxxConst_restates ..) (ih (n + 1))
  exact .cons (cxxConst_restates index 0 what .u8 8 pdos.length) (hrows pdos 1)

lemma cxxSmType_twins : Twins cxxSmType smTypeRow :=
  .cons (cxxConst_restates ..) (.cons (cxxConst_restates ..) (.cons (cxxConst_restates ..)
    (.cons (cxxConst_restates ..) (.cons (cxxConst_restates ..) .nil))))

/-- An entry with a subindex of its own keeps its name. -/
lemma nameOf_eq {o : Object} {s : Sub} (h : o.subs.filter (fun s' => s'.sub = s.sub) = [s]) :
    o.nameOf s.sub = s.name := by
  rw [Object.nameOf, h]
  rfl

lemma cxxSub_restates {o : Object} {s : Sub} (hname : o.nameOf s.sub = s.name) :
    (o.cxxSub s).Restates o.index (o.subRow s) := by
  refine ⟨rfl, rfl, rfl, rfl, rfl, hname, rfl, ?_, ?_⟩
  · rw [CxxEntry.data]
    cases htype : s.type with
    | string =>
        cases hvar : s.var with
        | none =>
            cases hvalue : s.value with
            | int n => simp [Object.subRow, Object.cxxSub, Sub.place, htype, hvar, hvalue]
            | str text => simp [Object.subRow, Object.cxxSub, Sub.place, htype, hvar, hvalue]
        | some var => simp [Object.subRow, Object.cxxSub, Sub.place, htype, hvar]
    | _ =>
        cases hplace : s.place o.axis with
        | none => simp [Object.subRow, Object.cxxSub, htype, hplace]
        | some p => simp [Object.subRow, Object.cxxSub, htype, hplace]
  · intro htext
    cases hvar : s.var with
    | none => simp [Object.cxxSub, Sub.place, hvar]
    | some var =>
        apply absurd _ htext
        simp [Object.cxxSub, hvar]

/-- The sub-entries ascend, and a byte holds them. -/
structure Object.Ascending (o : Object) : Prop where
  subs : (o.listed.map Sub.sub).Pairwise (· < ·)
  byte : ∀ s ∈ o.listed, s.sub ≤ 255

instance decidableAscendingObject (o : Object) : Decidable o.Ascending :=
  decidable_of_iff ((o.listed.map Sub.sub).Pairwise (· < ·) ∧ ∀ s ∈ o.listed, s.sub ≤ 255)
    ⟨fun h => ⟨h.1, h.2⟩, fun h => ⟨h.subs, h.byte⟩⟩

/-- The entries with a number of their own. -/
lemma Object.Ascending.filter_eq {o : Object} (h : o.Ascending) (hrecord : o.isRecord = true)
    {s : Sub} (hs : s ∈ o.listed) : o.subs.filter (fun s' => s'.sub = s.sub) = [s] := by
  have hne : s.sub ≠ 0 := by
    rw [Object.listed_record hrecord, List.mem_filter] at hs
    exact of_decide_eq_true hs.2
  have hsame : o.subs.filter (fun s' => s'.sub = s.sub) =
      o.listed.filter (fun s' => s'.sub = s.sub) := by
    rw [Object.listed_record hrecord, List.filter_filter]
    apply List.filter_congr
    intro s' _
    by_cases heq : s'.sub = s.sub
    · simp [heq, hne]
    · simp [heq]
  rw [hsame]
  have hall : ∀ l : List Sub, (l.map Sub.sub).Pairwise (· < ·) → s ∈ l →
      l.filter (fun s' => s'.sub = s.sub) = [s] := by
    intro l hl hsl
    induction l with
    | nil => exact absurd hsl List.not_mem_nil
    | cons a l ih =>
        rw [List.map_cons, List.pairwise_cons] at hl
        rcases List.mem_cons.mp hsl with rfl | hsl
        · have hrest : l.filter (fun s' => s'.sub = s.sub) = [] := by
            apply List.filter_eq_nil_iff.mpr
            intro b hb hbs
            have hlt := hl.1 b.sub (List.mem_map_of_mem hb)
            have heq := of_decide_eq_true hbs
            omega
          rw [List.filter_cons_of_pos (by simp), hrest]
        · have hlt := hl.1 s.sub (List.mem_map_of_mem hsl)
          rw [List.filter_cons_of_neg (by simp; omega)]
          exact ih hl.2 hsl
  exact hall _ h.subs hs

lemma cxxObject_twins (h : buildObjects cfg = .ok objs) {o : Object} (ho : o ∈ objs)
    (hascending : o.isRecord = true → o.Ascending) {cs : List CxxEntry} {r : ObjectRow}
    (hcs : cxxObject o = .ok cs) (hr : objectRow o = .ok r) : Twins cs r := by
  obtain ⟨maxsub, hmaxsub, hindex, -, hrows⟩ := objectRow_eq_ok hr
  have hnames : ∀ s ∈ o.listed, o.nameOf s.sub = s.name := by
    intro s hs
    apply nameOf_eq
    by_cases hrecord : o.isRecord = true
    · exact (hascending hrecord).filter_eq hrecord hs
    · obtain ⟨only, honly, -⟩ := buildObjects_plain h ho (Bool.eq_false_iff.mpr hrecord)
      rw [Object.listed, if_neg hrecord, honly, List.mem_singleton] at hs
      rw [honly, hs]
      simp
  have hlisted : List.Forall₂ (fun c row => CxxEntry.Restates c r.index row)
      (o.listed.map o.cxxSub) (o.listed.map o.subRow) := by
    rw [hindex]
    have hall : ∀ l : List Sub, (∀ s ∈ l, o.nameOf s.sub = s.name) →
        List.Forall₂ (fun c row => CxxEntry.Restates c o.index row) (l.map o.cxxSub)
          (l.map o.subRow) := by
      intro l
      induction l with
      | nil => exact fun _ => .nil
      | cons s l ih =>
          intro hl
          exact .cons (cxxSub_restates (hl s List.mem_cons_self))
            (ih fun s' hs' => hl s' (List.mem_cons_of_mem _ hs'))
    exact hall o.listed hnames
  rw [cxxObject] at hcs
  rw [Twins, hrows]
  by_cases hrecord : o.isRecord = true
  · rw [if_pos hrecord] at hcs ⊢
    rw [hmaxsub] at hcs
    cases hcs
    rw [List.singleton_append, List.singleton_append]
    refine .cons ?_ hlisted
    rw [hindex]
    exact cxxConst_restates o.index 0 o.name .u8 8 maxsub
  · rw [if_neg hrecord] at hcs ⊢
    cases hcs
    exact hlisted

/-! ## The rows of both tables -/

/-- What the lookups take for granted, beyond what fits: the sub-entries of every object
ascend. -/
def Ascending (out : Output) : Prop := ∀ o ∈ out.objects, o.isRecord = true → o.Ascending

instance decidableAscending (out : Output) : Decidable (Ascending out) := by
  unfold Ascending
  infer_instance

/-- The rows of the C++ table before they are sorted. -/
lemma cxxEntries_eq_ok {rx tx : List Pdo} (h : cxxEntries objs rx tx = .ok rows) :
    ∃ lists, objs.mapM cxxObject = .ok lists ∧
      (∀ c, c ∈ rows ↔ c ∈ lists.flatten ++ (rx ++ tx).flatMap cxxPdo ++ cxxSmType ++
        cxxAssign 0x1C12 "RxPDO Assignment" rx ++ cxxAssign 0x1C13 "TxPDO Assignment" tx) ∧
      rows.Pairwise CxxEntry.KeyLe ∧ (rows.map fun c => (c.index, c.sub)).Nodup := by
  rw [cxxEntries] at h
  obtain ⟨lists, hlists, h⟩ := except_bind_eq_ok.mp h
  obtain ⟨⟨⟩, hdistinct, h⟩ := except_bind_eq_ok.mp h
  cases h
  have _ : Std.Total CxxEntry.KeyLe := ⟨fun a b => by
    rw [CxxEntry.KeyLe, CxxEntry.KeyLe]
    omega⟩
  have _ : IsTrans CxxEntry CxxEntry.KeyLe := ⟨fun a b c hab hbc => by
    rw [CxxEntry.KeyLe] at hab hbc ⊢
    omega⟩
  exact ⟨lists, hlists, fun c => (List.perm_insertionSort _ _).mem_iff,
    List.pairwise_insertionSort _ _, (checkDistinct_eq_ok hdistinct).1⟩

/-- Every row of the C++ table restates one of the object list. -/
lemma cxx_row (h : Generates cfg out rxBytes txBytes) (hascending : Ascending out)
    (hcxx : cxxEntries out.objects out.rx out.tx = .ok rows) {c : CxxEntry} (hc : c ∈ rows) :
    ∃ r ∈ out.objectlist, ∃ row ∈ r.rows, c.Restates r.index row := by
  obtain ⟨lists, hlists, hmem, -, -⟩ := cxxEntries_eq_ok hcxx
  have htable := emitObjectlist_tabulates h.objectlist
  have hof : ∀ cs r, r ∈ out.objectlist → Twins cs r → c ∈ cs →
      ∃ r ∈ out.objectlist, ∃ row ∈ r.rows, c.Restates r.index row := by
    intro cs r hr htwins hcs
    obtain ⟨row, hrow, hrestates⟩ := forall₂_mem_left htwins hcs
    exact ⟨r, hr, row, hrow, hrestates⟩
  rcases List.mem_append.mp ((hmem c).mp hc) with hc | hc
  · rcases List.mem_append.mp hc with hc | hc
    · rcases List.mem_append.mp hc with hc | hc
      · rcases List.mem_append.mp hc with hc | hc
        · obtain ⟨cs, hcs, hccs⟩ := List.mem_flatten.mp hc
          obtain ⟨o, ho, hocs⟩ := forall₂_mem_right (forall₂_of_mapM hlists) hcs
          obtain ⟨r, hr, hrow⟩ := htable.object o ho
          exact hof cs r hr
            (cxxObject_twins h.objects ho (hascending o ho) hocs hrow) hccs
        · obtain ⟨p, hp, hcp⟩ := List.mem_flatMap.mp hc
          exact hof _ _ (htable.pdo p hp) (cxxPdo_twins p) hcp
      · exact hof _ _ htable.smType cxxSmType_twins hc
    · exact hof _ _ htable.rxAssign (cxxAssign_twins ..) hc
  · exact hof _ _ htable.txAssign (cxxAssign_twins ..) hc

/-- Every row of the object list is restated in the C++ table. -/
lemma row_cxx (h : Generates cfg out rxBytes txBytes) (hascending : Ascending out)
    (hcxx : cxxEntries out.objects out.rx out.tx = .ok rows) {r : ObjectRow}
    (hr : r ∈ out.objectlist) {row : Row} (hrow : row ∈ r.rows) :
    ∃ c ∈ rows, c.Restates r.index row := by
  obtain ⟨lists, hlists, hmem, -, -⟩ := cxxEntries_eq_ok hcxx
  have htable := emitObjectlist_tabulates h.objectlist
  have hof : ∀ cs, Twins cs r → (∀ c ∈ cs, c ∈ rows) → ∃ c ∈ rows, c.Restates r.index row := by
    intro cs htwins hcs
    obtain ⟨c, hc, hrestates⟩ := forall₂_mem_right htwins hrow
    exact ⟨c, hcs c hc, hrestates⟩
  cases htable.isFor r hr with
  | object o ho hor =>
      obtain ⟨cs, hcs, hocs⟩ := forall₂_mem_left (forall₂_of_mapM hlists) ho
      apply hof cs (cxxObject_twins h.objects ho (hascending o ho) hocs hor)
      intro c hc
      apply (hmem c).mpr
      simp only [List.mem_append]
      exact .inl (.inl (.inl (.inl (List.mem_flatten.mpr ⟨cs, hcs, hc⟩))))
  | pdo p hp hpr =>
      subst hpr
      apply hof _ (cxxPdo_twins p)
      intro c hc
      apply (hmem c).mpr
      simp only [List.mem_append]
      exact .inl (.inl (.inl (.inr (List.mem_flatMap.mpr ⟨p, hp, hc⟩))))
  | smType hsr =>
      subst hsr
      apply hof _ cxxSmType_twins
      intro c hc
      apply (hmem c).mpr
      simp only [List.mem_append]
      exact .inl (.inl (.inr hc))
  | rxAssign har =>
      subst har
      apply hof _ (cxxAssign_twins ..)
      intro c hc
      apply (hmem c).mpr
      simp only [List.mem_append]
      exact .inl (.inr hc)
  | txAssign har =>
      subst har
      apply hof _ (cxxAssign_twins ..)
      intro c hc
      apply (hmem c).mpr
      simp only [List.mem_append]
      exact .inr hc

/-! ## Lookups in the object list -/

/-- No two rows of the object list have one index. -/
lemma objectlist_unique (hfits : Fits out) {r r' : ObjectRow} (hr : r ∈ out.objectlist)
    (hr' : r' ∈ out.objectlist) (hindex : r.index = r'.index) : r = r' :=
  List.inj_on_of_nodup_map hfits.distinct hr hr' hindex

/-- The rows of an object ascend, from subindex 0 on, and a byte holds their subindexes. -/
structure ObjectRow.Ascends (r : ObjectRow) : Prop where
  first : ∃ row, r.rows[0]? = some row ∧ row.subindex = 0
  ascending : r.rows.Pairwise fun row row' => row.subindex < row'.subindex
  byte : ∀ row ∈ r.rows, row.subindex ≤ 255

/-- A row of the object list that is in order: of its rows, those up to number `maxsub` are all
but the PDOs past the first one of an assignment object. -/
structure ObjectRow.InOrder (r : ObjectRow) : Prop extends r.Ascends where
  maxsub_le : r.maxsub ≤ 255
  served : ∀ i row, r.rows[i]? = some row →
    (i ≤ r.maxsub ↔ ¬ ((r.index = 0x1C12 ∨ r.index = 0x1C13) ∧ 1 < row.subindex))

/-- Rows that stand at their subindexes ascend. -/
lemma ObjectRow.ascends_of_numbered {r : ObjectRow}
    (hsub : ∀ (i : ℕ) (row : Row), r.rows[i]? = some row → row.subindex = i)
    (hpos : 0 < r.rows.length) (hle : r.rows.length ≤ 256) : r.Ascends := by
  constructor
  case first =>
    have hrow : r.rows[0]? = some r.rows[0] := List.getElem?_eq_getElem hpos
    exact ⟨_, hrow, hsub 0 _ hrow⟩
  case ascending =>
    rw [List.pairwise_iff_getElem]
    intro i j hi hj hij
    rw [hsub i _ (List.getElem?_eq_getElem hi), hsub j _ (List.getElem?_eq_getElem hj)]
    exact hij
  case byte =>
    intro row hrow
    obtain ⟨i, hi, rfl⟩ := List.mem_iff_getElem.mp hrow
    rw [hsub i _ (List.getElem?_eq_getElem hi)]
    omega

section ascends

variable {r : ObjectRow} {i j : ℕ} {row row' : Row}

lemma Row.objd_subindex (addr : Place → ℕ) (hbyte : row.subindex ≤ 255) :
    (row.objd addr).subindex.toNat = row.subindex := by
  change (BitVec.ofNat 16 row.subindex).toNat = _
  rw [BitVec.toNat_ofNat]
  omega

/-- Such an object has a table that ascends. -/
lemma ObjectRow.Ascends.objectlist (h : r.Ascends) (addr : Place → ℕ) :
    (r.objectlist addr).Ascends := by
  constructor
  case first =>
    obtain ⟨row, hrow, hsub⟩ := h.first
    refine ⟨row.objd addr, ?_, ?_⟩
    · change (r.rows.map (Row.objd addr))[0]? = _
      rw [List.getElem?_map, hrow]
      rfl
    · apply BitVec.eq_of_toNat_eq
      rw [Row.objd_subindex addr (by omega), hsub]
      rfl
  case ascending =>
    change (r.rows.map (Row.objd addr)).Pairwise _
    rw [List.pairwise_map]
    apply h.ascending.imp_of_mem
    intro row row' hrow hrow' hlt
    rw [BitVec.lt_def, Row.objd_subindex addr (h.byte row hrow),
      Row.objd_subindex addr (h.byte row' hrow')]
    exact hlt
  case byte =>
    intro d hd
    obtain ⟨row, hrow, rfl⟩ := List.mem_map.mp hd
    have hbyte := h.byte row hrow
    rw [BitVec.lt_def, Row.objd_subindex addr hbyte]
    change _ < 256
    omega

lemma ObjectRow.row_objectlist (addr : Place → ℕ) (hrow : r.rows[i]? = some row) :
    (r.objectlist addr).objdesc[i]? = some (row.objd addr) := by
  change (r.rows.map (Row.objd addr))[i]? = _
  rw [List.getElem?_map, hrow]
  rfl

/-- A subindex is not below the number of its row. -/
lemma ObjectRow.Ascends.le_subindex (h : r.Ascends) (hrow : r.rows[i]? = some row) :
    i ≤ row.subindex := by
  have hle := (h.objectlist fun _ => 0).le_subindex (r.row_objectlist _ hrow)
  rw [Row.objd_subindex _ (h.byte row (List.mem_of_getElem? hrow))] at hle
  exact hle

/-- A subindex has one row. -/
lemma ObjectRow.Ascends.row_unique (h : r.Ascends) (hrow : r.rows[i]? = some row)
    (hrow' : r.rows[j]? = some row') (hsub : row.subindex = row'.subindex) : i = j := by
  apply (h.objectlist fun _ => 0).row_unique (r.row_objectlist _ hrow) (r.row_objectlist _ hrow')
  exact congrArg (BitVec.ofNat 16) hsub

/-- An object is in order if `maxsub` is not below a subindex, and it is none of the assignment
objects. -/
lemma ObjectRow.Ascends.inOrder (h : r.Ascends) (hmaxsub : r.maxsub ≤ 255)
    (hlast : ∀ row ∈ r.rows, row.subindex ≤ r.maxsub)
    (hindex : ¬ (r.index = 0x1C12 ∨ r.index = 0x1C13)) : r.InOrder := by
  refine ⟨h, hmaxsub, fun i row hrow => ?_⟩
  have hle := h.le_subindex hrow
  have hle' := hlast row (List.mem_of_getElem? hrow)
  exact iff_of_true (by omega) fun hassign => hindex hassign.1

end ascends

lemma mappingRows_length (entries : List MapEntry) (n : ℕ) :
    (mappingRows n entries).length = entries.length := by
  induction entries generalizing n with
  | nil => rfl
  | cons e entries ih => rw [mappingRows, List.length_cons, List.length_cons, ih]

lemma assignRows_length (pdos : List Pdo) (n : ℕ) :
    (assignRows n pdos).length = pdos.length := by
  induction pdos generalizing n with
  | nil => rfl
  | cons p pdos ih => rw [assignRows, List.length_cons, List.length_cons, ih]

lemma mappingRows_sub {entries : List MapEntry} {n i : ℕ} {row : Row}
    (h : (mappingRows n entries)[i]? = some row) : row.subindex = n + i := by
  induction entries generalizing n i with
  | nil => simp [mappingRows] at h
  | cons e entries ih =>
      cases i with
      | zero =>
          cases h
          rfl
      | succ i =>
          rw [mappingRows, List.getElem?_cons_succ] at h
          have hrest := ih h
          omega

lemma assignRows_sub {pdos : List Pdo} {n i : ℕ} {row : Row}
    (h : (assignRows n pdos)[i]? = some row) : row.subindex = n + i := by
  induction pdos generalizing n i with
  | nil => simp [assignRows] at h
  | cons p pdos ih =>
      cases i with
      | zero =>
          cases h
          rfl
      | succ i =>
          rw [assignRows, List.getElem?_cons_succ] at h
          have hrest := ih h
          omega

lemma assignRow_inOrder {index : ℕ} (what : String) {pdos : List Pdo}
    (hindex : index = 0x1C12 ∨ index = 0x1C13) (hshort : pdos.length ≤ 254) :
    (assignRow index what pdos).InOrder := by
  have hlength : (assignRow index what pdos).rows.length = pdos.length + 1 := by
    rw [assignRow, List.length_cons, assignRows_length]
  have hsub : ∀ (i : ℕ) (row : Row), (assignRow index what pdos).rows[i]? = some row →
      row.subindex = i := by
    intro i row hrow
    cases i with
    | zero =>
        cases hrow
        rfl
    | succ i =>
        have hsub := assignRows_sub hrow
        omega
  have hmaxsub : (assignRow index what pdos).maxsub = 1 := rfl
  refine ⟨ObjectRow.ascends_of_numbered hsub (by omega) (by omega), by omega, fun i row hrow => ?_⟩
  have hrowsub := hsub i row hrow
  change i ≤ 1 ↔ ¬ ((index = 0x1C12 ∨ index = 0x1C13) ∧ _)
  rw [and_iff_right hindex]
  omega

/-- Every row of the object list is in order; `maxsub` is the last subindex of every object but
the assignment objects, which have 1. -/
lemma objectlist_inOrder (h : Generates cfg out rxBytes txBytes) (hfits : Fits out)
    (hascending : Ascending out) {r : ObjectRow} (hr : r ∈ out.objectlist) : r.InOrder := by
  have htable := emitObjectlist_tabulates h.objectlist
  by_cases hrx : r.index = 0x1C12
  · rw [objectlist_unique hfits hr htable.rxAssign hrx]
    exact assignRow_inOrder _ (.inl rfl) hfits.pdos.1
  by_cases htx : r.index = 0x1C13
  · rw [objectlist_unique hfits hr htable.txAssign htx]
    exact assignRow_inOrder _ (.inr rfl) hfits.pdos.2
  have hindex : ¬ (r.index = 0x1C12 ∨ r.index = 0x1C13) := not_or.mpr ⟨hrx, htx⟩
  cases htable.isFor r hr with
  | object o ho hor =>
      obtain ⟨maxsub, hmaxsub, -, hrmaxsub, hrows⟩ := objectRow_eq_ok hor
      by_cases hrecord : o.isRecord = true
      · have hsubs := hascending o ho hrecord
        rw [if_pos hrecord, List.singleton_append] at hrows
        have hbyte : maxsub ≤ 255 := by
          apply maxsub_le hmaxsub
          intro s hs
          by_cases hzero : s.sub = 0
          · omega
          · apply hsubs.byte
            rw [Object.listed_record hrecord, List.mem_filter]
            exact ⟨hs, decide_eq_true hzero⟩
        have hlisted (s : Sub) (hs : s ∈ o.listed) : 0 < s.sub ∧ s.sub ≤ maxsub := by
          rw [Object.listed_record hrecord, List.mem_filter] at hs
          exact ⟨Nat.pos_of_ne_zero (of_decide_eq_true hs.2), maxsub_ge hmaxsub s hs.1⟩
        have hrow (row : Row) (hrow : row ∈ r.rows) : row.subindex ≤ maxsub := by
          rw [hrows] at hrow
          rcases List.mem_cons.mp hrow with rfl | hrow
          · exact Nat.zero_le _
          · obtain ⟨s, hs, rfl⟩ := List.mem_map.mp hrow
            exact (hlisted s hs).2
        have hasc : r.Ascends := by
          constructor
          case first => exact ⟨_, by rw [hrows]; rfl, rfl⟩
          case ascending =>
            rw [hrows, List.pairwise_cons, List.pairwise_map]
            refine ⟨fun row hrow => ?_, List.pairwise_map.mp hsubs.subs⟩
            obtain ⟨s, hs, rfl⟩ := List.mem_map.mp hrow
            exact (hlisted s hs).1
          case byte => exact fun row hmem => Nat.le_trans (hrow row hmem) hbyte
        exact hasc.inOrder (by omega) (fun row hmem => by rw [hrmaxsub]; exact hrow row hmem) hindex
      · obtain ⟨only, honly, hzero⟩ :=
          buildObjects_plain h.objects ho (Bool.eq_false_iff.mpr hrecord)
        have hmax : maxsub ≤ 0 := by
          apply maxsub_le hmaxsub
          intro s hs
          rw [honly, List.mem_singleton] at hs
          rw [hs, hzero]
        rw [if_neg hrecord, List.nil_append, Object.listed, if_neg hrecord, honly] at hrows
        have hlength : r.rows.length = 1 := by rw [hrows]; rfl
        have hsub : ∀ (i : ℕ) (row : Row), r.rows[i]? = some row → row.subindex = i := by
          intro i row hrow
          rw [hrows] at hrow
          cases i with
          | zero =>
              cases hrow
              exact hzero
          | succ i => cases hrow
        refine (ObjectRow.ascends_of_numbered hsub (by omega) (by omega)).inOrder (by omega)
          (fun row hrow => ?_) hindex
        obtain ⟨i, hi, rfl⟩ := List.mem_iff_getElem.mp hrow
        rw [hsub i _ (List.getElem?_eq_getElem hi)]
        omega
  | pdo p hp hpr =>
      subst hpr
      have hshort := hfits.entries p hp
      have hlength : (pdoRow p).rows.length = p.entries.length + 1 := by
        rw [pdoRow, List.length_cons, mappingRows_length]
      have hmaxsub : (pdoRow p).maxsub = p.entries.length := rfl
      have hsub : ∀ (i : ℕ) (row : Row), (pdoRow p).rows[i]? = some row → row.subindex = i := by
        intro i row hrow
        cases i with
        | zero =>
            cases hrow
            rfl
        | succ i =>
            have hsub := mappingRows_sub hrow
            omega
      refine (ObjectRow.ascends_of_numbered hsub (by omega) (by omega)).inOrder (by omega)
        (fun row hrow => ?_) hindex
      obtain ⟨i, hi, rfl⟩ := List.mem_iff_getElem.mp hrow
      rw [hsub i _ (List.getElem?_eq_getElem hi)]
      omega
  | smType hsr =>
      subst hsr
      have hasc : smTypeRow.Ascends := ⟨⟨_, rfl, rfl⟩, by decide +kernel, by decide +kernel⟩
      exact hasc.inOrder (by decide) (by decide +kernel) hindex
  | rxAssign har => exact (hrx (congrArg ObjectRow.index har)).elim
  | txAssign har => exact (htx (congrArg ObjectRow.index har)).elim

lemma lookupEntry_of_row {table : List Objectlist} {index : Word} {sub : Byte} {o : Objectlist}
    {n : ℕ} {d : Objd} (ho : Finds table index o) (hsub : sdoFindsubindex o sub = .ok (some n))
    (hrow : o.row n = .ok d) : lookupEntry table index sub = .ok (.ok d) := by
  obtain ⟨nidx, hfind, hat⟩ := ho
  rw [lookupEntry]
  refine except_bind_eq_ok.mpr ⟨some nidx, hfind, ?_⟩
  refine except_bind_eq_ok.mpr ⟨o, hat, ?_⟩
  refine except_bind_eq_ok.mpr ⟨some n, hsub, ?_⟩
  exact except_map_eq_ok.mpr ⟨d, hrow, rfl⟩

lemma lookupEntry_of_none {table : List Objectlist} {index : Word} {sub : Byte} {o : Objectlist}
    (ho : Finds table index o) (hsub : sdoFindsubindex o sub = .ok none) :
    lookupEntry table index sub = .ok (.error abortNosubindex) := by
  obtain ⟨nidx, hfind, hat⟩ := ho
  rw [lookupEntry]
  refine except_bind_eq_ok.mpr ⟨some nidx, hfind, ?_⟩
  refine except_bind_eq_ok.mpr ⟨o, hat, ?_⟩
  exact except_bind_eq_ok.mpr ⟨none, hsub, rfl⟩

lemma lookupEntry_of_noobject {table : List Objectlist} {index : Word} (sub : Byte)
    (hfind : sdoFindobject table index = .ok none) :
    lookupEntry table index sub = .ok (.error abortNoobject) := by
  rw [lookupEntry]
  exact except_bind_eq_ok.mpr ⟨none, hfind, rfl⟩

/-- What the stack answers for an object in order: a row up to number `maxsub` that has the
subindex, or that none has it. -/
lemma lookupEntry_answer {table : List Objectlist} {index : Word} {sub : Byte} {r : ObjectRow}
    (ho : Finds table index (r.objectlist addr)) (horder : r.InOrder) {answer : Except Dword Objd}
    (h : lookupEntry table index sub = .ok answer) :
    (∃ i row, r.rows[i]? = some row ∧ i ≤ r.maxsub ∧ row.subindex = sub.toNat ∧
      answer = .ok (row.objd addr)) ∨
    answer = .error abortNosubindex ∧
      ∀ i row, r.rows[i]? = some row → i ≤ r.maxsub → row.subindex ≠ sub.toNat := by
  have hmaxsub : (r.objectlist addr).maxsub.toNat = r.maxsub := by
    have hle := horder.maxsub_le
    change (BitVec.ofNat 8 r.maxsub).toNat = _
    rw [BitVec.toNat_ofNat]
    omega
  have hsubindex {i : ℕ} {row : Row} (hrow : r.rows[i]? = some row) :
      (row.objd addr).subindex = sub.setWidth 16 ↔ row.subindex = sub.toNat := by
    have hlt := sub.isLt
    rw [← BitVec.toNat_inj, Row.objd_subindex addr (horder.byte row (List.mem_of_getElem? hrow)),
      BitVec.toNat_setWidth, Nat.mod_eq_of_lt (by omega)]
  obtain ⟨nidx, hfind, hat⟩ := ho
  obtain ⟨found, hfound, h⟩ := except_bind_eq_ok.mp h
  rw [hfind] at hfound
  cases hfound
  obtain ⟨o, hobject, h⟩ := except_bind_eq_ok.mp h
  rw [hat] at hobject
  cases hobject
  obtain ⟨result, hscan, h⟩ := except_bind_eq_ok.mp h
  cases result with
  | some n =>
      left
      obtain ⟨hle, d, hd, hsub⟩ := sdoFindsubindex_found hscan
      obtain ⟨d', hd', hanswer⟩ := except_map_eq_ok.mp h
      rw [row_eq_ok, hd, Option.some.injEq] at hd'
      have hmapped : (r.rows.map (Row.objd addr))[n]? = some d := hd
      rw [List.getElem?_map, Option.map_eq_some_iff] at hmapped
      obtain ⟨row, hrow, rfl⟩ := hmapped
      exact ⟨n, row, hrow, by omega, (hsubindex hrow).mp hsub, by rw [← hanswer, hd']⟩
  | none =>
      right
      refine ⟨(except_pure_eq_ok.mp h).symm, fun i row hrow hle heq => ?_⟩
      have hnot := sdoFindsubindex_none (horder.objectlist addr) hscan (r.row_objectlist addr hrow)
        (by omega)
      exact hnot ((hsubindex hrow).mpr heq)

/-- The stack comes to an answer for an object whose rows up to number `maxsub` are there. -/
lemma lookupEntry_isOk {table : List Objectlist} {index : Word} (sub : Byte) {o : Objectlist}
    (ho : Finds table index o) (hrows : o.maxsub.toNat < o.objdesc.length) :
    ∃ answer, lookupEntry table index sub = .ok answer := by
  obtain ⟨result, hscan⟩ := @sdoFindsubindex_isOk o sub hrows
  cases result with
  | none => exact ⟨_, lookupEntry_of_none ho hscan⟩
  | some n =>
      obtain ⟨-, d, hd, -⟩ := sdoFindsubindex_found hscan
      exact ⟨_, lookupEntry_of_row ho hscan (row_eq_ok.mpr hd)⟩

/-! ## Lookups in the C++ table -/

/-- The numbers of a row of the C++ table fit. -/
lemma cxx_fits (h : Generates cfg out rxBytes txBytes) (hfits : Fits out)
    (hascending : Ascending out)
    (hcxx : cxxEntries out.objects out.rx out.tx = .ok rows) {c : CxxEntry} (hc : c ∈ rows) :
    c.index < 0xFFFF ∧ c.sub ≤ 255 := by
  obtain ⟨r, hr, row, hrow, hrestates⟩ := cxx_row h hascending hcxx hc
  constructor
  · rw [hrestates.index]
    exact hfits.index_lt r hr
  · rw [hrestates.sub]
    exact (objectlist_inOrder h hfits hascending hr).byte row hrow

/-- How a row compares, in numbers. -/
lemma entry_order {index : Word} {sub : Byte} {c : CxxEntry} (hindex : c.index < 0xFFFF)
    (hsub : c.sub ≤ 255) :
    ((c.entry addr).order index sub = .eq ↔ c.index = index.toNat ∧ c.sub = sub.toNat) ∧
      ((c.entry addr).order index sub = .lt ↔
        c.index < index.toNat ∨ c.index = index.toNat ∧ c.sub < sub.toNat) := by
  have hindexNat : (c.entry addr).index.toNat = c.index := by
    change (BitVec.ofNat 16 c.index).toNat = _
    rw [BitVec.toNat_ofNat]
    omega
  have hsubNat : (c.entry addr).sub.toNat = c.sub := by
    change (BitVec.ofNat 8 c.sub).toNat = _
    rw [BitVec.toNat_ofNat]
    omega
  simp only [Entry.order, ← BitVec.toNat_inj, BitVec.lt_def, hindexNat, hsubNat]
  by_cases heq : c.index = index.toNat ∧ c.sub = sub.toNat
  · simp [heq]
  · simp only [heq, iff_false]
    by_cases hlt : c.index < index.toNat ∨ c.index = index.toNat ∧ c.sub < sub.toNat
    · simp [hlt]
    · simp [hlt]

/-- The C++ table is sorted. -/
lemma cxx_sorted (h : Generates cfg out rxBytes txBytes) (hfits : Fits out)
    (hascending : Ascending out) (hcxx : cxxEntries out.objects out.rx out.tx = .ok rows)
    (index : Word) (sub : Byte) :
    SortedBy (Entry.order index sub) (rows.map (CxxEntry.entry addr)) := by
  obtain ⟨lists, -, -, hle, hnodup⟩ := cxxEntries_eq_ok hcxx
  rw [SortedBy, List.pairwise_map]
  apply (hle.and (List.pairwise_map.mp hnodup)).imp_of_mem
  rintro c c' hc hc' ⟨hkey, hne⟩ hnot
  obtain ⟨hindex, hsub⟩ := cxx_fits h hfits hascending hcxx hc
  obtain ⟨hindex', hsub'⟩ := cxx_fits h hfits hascending hcxx hc'
  rw [(entry_order hindex hsub).2]
  rw [CxxEntry.KeyLe] at hkey
  have hdiffer : ¬ (c.index = c'.index ∧ c.sub = c'.sub) := by
    rintro ⟨hi, hs⟩
    exact hne (by rw [hi, hs])
  have hplace : c'.index < index.toNat ∨ c'.index = index.toNat ∧ c'.sub ≤ sub.toNat := by
    cases horder : (c'.entry addr).order index sub with
    | gt => exact absurd horder hnot
    | eq =>
        have heq := (entry_order hindex' hsub').1.mp horder
        omega
    | lt =>
        have hlt := (entry_order hindex' hsub').2.mp horder
        omega
  omega

/-- `Find` finds exactly the rows of the table. -/
lemma find_eq_some (addr : Place → ℕ) (h : Generates cfg out rxBytes txBytes) (hfits : Fits out)
    (hascending : Ascending out) (hcxx : cxxEntries out.objects out.rx out.tx = .ok rows)
    {index : Word} {sub : Byte} :
    (∀ e, find (rows.map (CxxEntry.entry addr)) index sub = some e →
      ∃ c ∈ rows, e = c.entry addr ∧ c.index = index.toNat ∧ c.sub = sub.toNat) ∧
    ∀ c ∈ rows, c.index = index.toNat → c.sub = sub.toNat →
      find (rows.map (CxxEntry.entry addr)) index sub = some (c.entry addr) := by
  constructor
  · intro e he
    obtain ⟨hmem, horder⟩ := bisect_found he
    obtain ⟨c, hc, rfl⟩ := List.mem_map.mp hmem
    obtain ⟨hindex, hsub⟩ := cxx_fits h hfits hascending hcxx hc
    exact ⟨c, hc, rfl, (entry_order hindex hsub).1.mp horder⟩
  · intro c hc hindex hsub
    obtain ⟨hindexLt, hsubLt⟩ := cxx_fits h hfits hascending hcxx hc
    obtain ⟨i, hi, rfl⟩ := List.mem_iff_getElem.mp hc
    have hlt : i < (rows.map (CxxEntry.entry addr)).length := by
      rw [List.length_map]
      exact hi
    have hrow : (rows.map (CxxEntry.entry addr))[i]? = some (rows[i].entry addr) := by
      rw [List.getElem?_map, List.getElem?_eq_getElem hi]
      rfl
    exact bisect_finds (cxx_sorted h hfits hascending hcxx index sub) (Nat.le_refl _) hrow
      ((entry_order hindexLt hsubLt).1.mpr ⟨hindex, hsub⟩) (Nat.zero_le i) hlt

/-! ## The tables agree -/

/-- The access rights of the two tables, in the states in which there are mailbox requests. -/
structure SameRights (access : Byte) (flags : Byte) : Prop where
  read : ∀ state, state = escPreop ∨ state = escSafeop ∨ state = escOp →
    (readAccess access state ↔ flags &&& kRead ≠ 0)
  write : ∀ state, state = escPreop ∨ state = escSafeop ∨ state = escOp →
    (writeAccess access state ↔
      flags &&& kWrite ≠ 0 ∧ (flags &&& kPreopOnly ≠ 0 → state = escPreop))

/-- A row of the C++ table says what a descriptor says. -/
structure Entry.Agrees (addr : Place → ℕ) (e : Entry) (d : Objd) : Prop where
  subindex : d.subindex.toNat = e.sub.toNat
  datatype : d.datatype = e.type.dtype
  bitlength : d.bitlength = e.bits
  value : d.value = e.constant.setWidth 32
  name : d.name = e.name
  rights : SameRights d.access e.access
  storage : e.text = none → d.data = e.storage
  text : e.text ≠ none → e.storage = 0 ∧
    ∃ s, e.text = some (literal s) ∧ d.data = addr (.text s)

lemma rights_agree (a : Access) (store disabledOnly : Bool) {d : Objd} (hd : d.flags = a.atype) :
    SameRights d.access (a.cxx ||| (if store then kStore else 0) |||
      (if disabledOnly then kDisabledOnly else 0)) := by
  rw [Objd.access, hd]
  constructor
  · intro state hstate
    rcases hstate with rfl | rfl | rfl <;> cases a <;> cases store <;> cases disabledOnly <;> decide
  · intro state hstate
    rcases hstate with rfl | rfl | rfl <;> cases a <;> cases store <;> cases disabledOnly <;> decide

lemma CxxEntry.Restates.agrees {c : CxxEntry} {index : ℕ} {row : Row} (h : c.Restates index row)
    (hsub : c.sub ≤ 255) : (c.entry addr).Agrees addr (row.objd addr) := by
  constructor
  case subindex =>
    change (BitVec.ofNat 16 row.subindex).toNat = (BitVec.ofNat 8 c.sub).toNat
    rw [← h.sub, BitVec.toNat_ofNat, BitVec.toNat_ofNat]
    omega
  case datatype => exact h.datatype
  case bitlength => exact congrArg (BitVec.ofNat 32) h.bits
  case value =>
    change BitVec.ofInt 32 row.value = (BitVec.ofInt 64 c.constant).setWidth 32
    rw [h.value]
    apply BitVec.eq_of_toNat_eq
    rw [BitVec.toNat_setWidth, BitVec.toNat_ofInt, BitVec.toNat_ofInt]
    omega
  case name => exact congrArg literal h.name
  case rights => exact rights_agree c.access c.store c.disabledOnly h.access
  case storage =>
    intro htext
    have hnone : c.text = none := Option.map_eq_none_iff.mp htext
    have hdata := h.data
    rw [CxxEntry.data, hnone] at hdata
    cases hstorage : c.storage with
    | none =>
        rw [hstorage] at hdata
        simp only [Row.objd, CxxEntry.entry, hdata, hstorage]
    | some p =>
        rw [hstorage] at hdata
        simp only [Row.objd, CxxEntry.entry, hdata, hstorage]
  case text =>
    intro htext
    cases hsome : c.text with
    | none => exact absurd (by simp [CxxEntry.entry, hsome]) htext
    | some s =>
        have hstorage := h.text (by rw [hsome]; exact Option.some_ne_none s)
        have hdata := h.data
        rw [CxxEntry.data, hsome, hstorage] at hdata
        refine ⟨?_, s, ?_, ?_⟩
        · simp only [CxxEntry.entry, hstorage]
        · simp only [CxxEntry.entry, hsome, Option.map_some]
        · simp only [Row.objd, hdata]

/-! ## Counting -/

/-- The rows of an index. -/
def rowsAt (kEntries : List Entry) (index : Word) : List Entry :=
  kEntries.filter fun e => e.index = index

/-- Behind the rows of an object there are no more of them. -/
lemma rowsAt_nil {kEntries : List Entry} {index : Word} (h : ∀ e ∈ kEntries, index < e.index) :
    rowsAt kEntries index = [] := by
  apply List.filter_eq_nil_iff.mpr
  intro e he heq
  have hlt := h e he
  rw [of_decide_eq_true heq] at hlt
  exact absurd hlt (BitVec.lt_irrefl _)

lemma subCountFrom_inside {kEntries : List Entry} {index : Word}
    (hsorted : kEntries.Pairwise fun e e' => e.index ≤ e'.index)
    (hfrom : ∀ e ∈ kEntries, index ≤ e.index) {count : ℤ} (hcount : 0 ≤ count) :
    subCountFrom index kEntries count = count + (rowsAt kEntries index).length := by
  induction kEntries generalizing count with
  | nil => simp [subCountFrom, rowsAt]
  | cons e rest ih =>
      obtain ⟨hfirst, hrest⟩ := List.pairwise_cons.mp hsorted
      rw [subCountFrom]
      by_cases heq : e.index = index
      · have hcons : rowsAt (e :: rest) index = e :: rowsAt rest index :=
          List.filter_cons_of_pos (decide_eq_true heq)
        rw [if_pos heq, if_neg (by omega), hcons, List.length_cons,
          ih hrest (fun e' he' => hfrom e' (List.mem_cons_of_mem _ he')) (by omega)]
        omega
      · have hlt : index < e.index := by
          have hle := hfrom e List.mem_cons_self
          bv_omega
        have hnil : rowsAt (e :: rest) index = [] := by
          apply rowsAt_nil
          intro e' he'
          rcases List.mem_cons.mp he' with rfl | he'
          · exact hlt
          · exact Nat.lt_of_lt_of_le (BitVec.lt_def.mp hlt) (BitVec.le_def.mp (hfirst e' he'))
        rw [if_neg heq, if_pos hcount, hnil]
        simp

/-- `SubCount` counts the rows of an object, and is -1 where there is none. -/
lemma subCount_eq {kEntries : List Entry} (index : Word)
    (hsorted : kEntries.Pairwise fun e e' => e.index ≤ e'.index) :
    subCount kEntries index =
      if rowsAt kEntries index = [] then -1 else ((rowsAt kEntries index).length : ℤ) := by
  rw [subCount]
  induction kEntries with
  | nil => rfl
  | cons e rest ih =>
      obtain ⟨hfirst, hrest⟩ := List.pairwise_cons.mp hsorted
      rw [subCountFrom]
      by_cases heq : e.index = index
      · have hcons : rowsAt (e :: rest) index = e :: rowsAt rest index :=
          List.filter_cons_of_pos (decide_eq_true heq)
        have hfrom : ∀ e' ∈ rest, index ≤ e'.index := by
          intro e' he'
          rw [← heq]
          exact hfirst e' he'
        rw [if_pos heq, if_pos (by decide), subCountFrom_inside hrest hfrom (by decide), hcons,
          if_neg (List.cons_ne_nil _ _), List.length_cons]
        omega
      · have hcons : rowsAt (e :: rest) index = rowsAt rest index :=
          List.filter_cons_of_neg (by simp [heq])
        rw [if_neg heq, if_neg (by decide), hcons]
        exact ih hrest

lemma cxx_ascending (addr : Place → ℕ) (h : Generates cfg out rxBytes txBytes) (hfits : Fits out)
    (hascending : Ascending out) (hcxx : cxxEntries out.objects out.rx out.tx = .ok rows) :
    (rows.map (CxxEntry.entry addr)).Pairwise fun e e' => e.index ≤ e'.index := by
  obtain ⟨lists, -, -, hle, -⟩ := cxxEntries_eq_ok hcxx
  rw [List.pairwise_map]
  apply hle.imp_of_mem
  intro c c' hc hc' hkey
  have hindex := (cxx_fits h hfits hascending hcxx hc).1
  have hindex' := (cxx_fits h hfits hascending hcxx hc').1
  rw [CxxEntry.KeyLe] at hkey
  change BitVec.ofNat 16 c.index ≤ BitVec.ofNat 16 c'.index
  rw [BitVec.le_def, BitVec.toNat_ofNat, BitVec.toNat_ofNat]
  omega

/-- The C++ table has as many rows for an object as the object list. -/
lemma rowsAt_length (addr : Place → ℕ) (h : Generates cfg out rxBytes txBytes) (hfits : Fits out)
    (hascending : Ascending out) (hcxx : cxxEntries out.objects out.rx out.tx = .ok rows)
    {r : ObjectRow} (hr : r ∈ out.objectlist) :
    (rowsAt (rows.map (CxxEntry.entry addr)) (.ofNat 16 r.index)).length = r.rows.length := by
  obtain ⟨lists, -, -, -, hnodup⟩ := cxxEntries_eq_ok hcxx
  have hfilter : rowsAt (rows.map (CxxEntry.entry addr)) (.ofNat 16 r.index) =
      (rows.filter fun c => c.index = r.index).map (CxxEntry.entry addr) := by
    rw [rowsAt, List.filter_map]
    congr 1
    apply List.filter_congr
    intro c hc
    have hindex := (cxx_fits h hfits hascending hcxx hc).1
    have hrindex := hfits.index_lt r hr
    simp only [Function.comp, CxxEntry.entry, decide_eq_decide, ← BitVec.toNat_inj,
      BitVec.toNat_ofNat]
    omega
  have horder := objectlist_inOrder h hfits hascending hr
  -- the subindexes are those of the rows, each once
  have hsubs : ((rows.filter fun c => c.index = r.index).map CxxEntry.sub).Perm
      (r.rows.map Row.subindex) := by
    apply (List.perm_ext_iff_of_nodup _ _).mpr
    · intro n
      rw [List.mem_map, List.mem_map]
      constructor
      · rintro ⟨c, hc, rfl⟩
        obtain ⟨hmem, hindex⟩ := List.mem_filter.mp hc
        obtain ⟨r', hr', row, hrow, hrestates⟩ := cxx_row h hascending hcxx hmem
        have hsame : r = r' := by
          apply objectlist_unique hfits hr hr'
          rw [← hrestates.index]
          exact (of_decide_eq_true hindex).symm
        subst hsame
        exact ⟨row, hrow, hrestates.sub.symm⟩
      · rintro ⟨row, hrow, rfl⟩
        obtain ⟨c, hc, hrestates⟩ := row_cxx h hascending hcxx hr hrow
        exact ⟨c, List.mem_filter.mpr ⟨hc, decide_eq_true hrestates.index⟩, hrestates.sub⟩
    · rw [List.nodup_iff_pairwise_ne, List.pairwise_map]
      have hpairs := List.pairwise_map.mp hnodup
      apply (hpairs.filter _).imp_of_mem
      intro c c' hc hc' hne heq
      have hindex := of_decide_eq_true (List.mem_filter.mp hc).2
      have hindex' := of_decide_eq_true (List.mem_filter.mp hc').2
      exact hne (by rw [hindex, hindex', heq])
    · rw [List.nodup_iff_pairwise_ne, List.pairwise_map]
      exact horder.ascending.imp fun hlt => Nat.ne_of_lt hlt
  have hlength := hsubs.length_eq
  rw [List.length_map, List.length_map] at hlength
  rw [hfilter, List.length_map, hlength]

/-! ## One dictionary -/

/-- What the stack and the C++ table say about an index and a subindex. -/
structure SameAnswer (addr : Place → ℕ) (table : List Objectlist) (kEntries : List Entry)
    (index : Word) (sub : Byte) : Prop where
  /-- An entry of the C++ table is the one that the stack serves, but past the first PDO of an
  assignment object the stack serves none. -/
  found : ∀ e, find kEntries index sub = some e → ∀ answer,
    lookupEntry table index sub = .ok answer →
      if (index = rxPdoObjidx ∨ index = txPdoObjidx) ∧ 1 < sub then
        answer = .error abortNosubindex
      else ∃ d, answer = .ok d ∧ e.Agrees addr d
  /-- What the C++ table does not have, the stack refuses. -/
  missing : find kEntries index sub = none → ∀ answer, lookupEntry table index sub = .ok answer →
    answer = .error abortNoobject ∨ answer = .error abortNosubindex
  /-- The stack comes to an answer, but maybe in an object without all rows up to `maxsub`. -/
  ends : (∀ o, Finds table index o → o.maxsub.toNat < o.objdesc.length) →
    ∃ answer, lookupEntry table index sub = .ok answer
  /-- The rows of an object are as many, and both or neither have the object. -/
  count : (∀ o, Finds table index o → subCount kEntries index = o.objdesc.length) ∧
    (sdoFindobject table index = .ok none → subCount kEntries index = -1)

/-- An index that the stack finds is that of a row. -/
lemma finds_row {index : Word} (hindex : index ≠ 0xFFFF) {o : Objectlist}
    (ho : Finds (out.table addr) index o) :
    ∃ r ∈ out.objectlist, o = r.objectlist addr ∧ index = .ofNat 16 r.index := by
  have hmem := ho.mem
  obtain ⟨n, hfind, hat⟩ := ho
  obtain ⟨o', ho', hoindex⟩ := sdoFindobject_found hfind
  rw [objectAt_eq_ok, ho'] at hat
  cases hat
  rw [Output.table] at hmem
  rcases List.mem_append.mp hmem with hmem | hmem
  · obtain ⟨r, hr, rfl⟩ := List.mem_map.mp hmem
    exact ⟨r, hr, rfl, hoindex.symm⟩
  · rw [List.mem_singleton.mp hmem] at hoindex
    exact absurd hoindex.symm hindex

/-- An index without a row is not found. -/
lemma lookupEntry_missing (addr : Place → ℕ) (h : Generates cfg out rxBytes txBytes)
    (hfits : Fits out) {index : Word} (hindex : index ≠ 0xFFFF) (sub : Byte)
    (hnone : ¬ ∃ r ∈ out.objectlist, index = .ofNat 16 r.index) :
    lookupEntry (out.table addr) index sub = .ok (.error abortNoobject) := by
  apply lookupEntry_of_noobject
  rcases (findsExactly_iff (rows_ascending addr h hfits) (rows_below addr hfits) index).mpr
      hindex with ⟨n, o, hn, hoindex, -⟩ | ⟨-, hscan⟩
  · obtain ⟨r, hr, rfl⟩ := List.mem_map.mp (List.mem_of_getElem? hn)
    exact (hnone ⟨r, hr, hoindex.symm⟩).elim
  · exact hscan

/-- **There is one dictionary.**  For a description whose numbers fit, whose sub-entries ascend and
whose C++ table the generator accepts, every index and every subindex gets the same answer from the
object list and from the C++ table. -/
theorem one_dictionary (h : generate cfg = .ok out) (hfits : Fits out)
    (hascending : Ascending out) (hcxx : cxxEntries out.objects out.rx out.tx = .ok rows)
    (addr : Place → ℕ) {index : Word} (hindex : index ≠ 0xFFFF) (sub : Byte) :
    SameAnswer addr (out.table addr) (rows.map (CxxEntry.entry addr)) index sub := by
  obtain ⟨rxBytes, txBytes, hgen⟩ := generate_eq_ok h
  obtain ⟨hfound, hfinds⟩ :=
    @find_eq_some _ _ _ _ _ addr hgen hfits hascending hcxx index sub
  have hnat (r : ObjectRow) (hr : r ∈ out.objectlist) :
      index.toNat = r.index ↔ index = .ofNat 16 r.index := by
    have hlt := hfits.index_lt r hr
    rw [← BitVec.toNat_inj, BitVec.toNat_ofNat, Nat.mod_eq_of_lt (by omega)]
  constructor
  case found =>
    intro e he answer hanswer
    obtain ⟨c, hc, rfl, hcindex, hcsub⟩ := hfound e he
    obtain ⟨r, hr, row, hrow, hrestates⟩ := cxx_row hgen hascending hcxx hc
    have horder := objectlist_inOrder hgen hfits hascending hr
    have hrindex : index.toNat = r.index := by rw [← hrestates.index, hcindex]
    have hrowsub : row.subindex = sub.toNat := by rw [← hrestates.sub, hcsub]
    obtain ⟨i, hi⟩ := List.mem_iff_getElem?.mp hrow
    have hserved := horder.served i row hi
    have hassign : (index = rxPdoObjidx ∨ index = txPdoObjidx) ∧ 1 < sub ↔
        (r.index = 0x1C12 ∨ r.index = 0x1C13) ∧ 1 < row.subindex := by
      rw [← hrindex, hrowsub, BitVec.lt_def, ← BitVec.toNat_inj, ← BitVec.toNat_inj]
      rfl
    have hat := row_found addr hgen hfits hr
    rw [← (hnat r hr).mp hrindex] at hat
    rcases lookupEntry_answer hat horder hanswer with
      ⟨j, row', hj, hle, hsub', rfl⟩ | ⟨rfl, hnot⟩
    · have hsame := horder.row_unique hi hj (hrowsub.trans hsub'.symm)
      subst hsame
      rw [hi, Option.some.injEq] at hj
      subst hj
      rw [if_neg (fun hboth => hserved.mp hle (hassign.mp hboth))]
      exact ⟨_, rfl, hrestates.agrees (cxx_fits hgen hfits hascending hcxx hc).2⟩
    · have hbehind : ¬ i ≤ r.maxsub := fun hle => hnot i row hi hle hrowsub
      rw [hserved, not_not] at hbehind
      rw [if_pos (hassign.mpr hbehind)]
  case missing =>
    intro hnone answer hanswer
    by_cases hobject : ∃ r ∈ out.objectlist, index = .ofNat 16 r.index
    · obtain ⟨r, hr, hrindex⟩ := hobject
      have hat := row_found addr hgen hfits hr
      rw [← hrindex] at hat
      rcases lookupEntry_answer hat (objectlist_inOrder hgen hfits hascending hr) hanswer with
        ⟨i, row, hrow, -, hsub, -⟩ | ⟨hrefused, -⟩
      · obtain ⟨c, hc, hrestates⟩ := row_cxx hgen hascending hcxx hr (List.mem_of_getElem? hrow)
        have hcindex : c.index = index.toNat := by
          rw [hrestates.index, (hnat r hr).mpr hrindex]
        have hsome := hfinds c hc hcindex (hrestates.sub.trans hsub)
        rw [hnone] at hsome
        cases hsome
      · exact .inr hrefused
    · rw [lookupEntry_missing addr hgen hfits hindex sub hobject] at hanswer
      exact .inl (Except.ok.inj hanswer).symm
  case ends =>
    intro hrows
    by_cases hobject : ∃ r ∈ out.objectlist, index = .ofNat 16 r.index
    · obtain ⟨r, hr, hrindex⟩ := hobject
      have hat := row_found addr hgen hfits hr
      rw [← hrindex] at hat
      exact lookupEntry_isOk sub hat (hrows _ hat)
    · exact ⟨_, lookupEntry_missing addr hgen hfits hindex sub hobject⟩
  case count =>
    have hsub := subCount_eq index (cxx_ascending addr hgen hfits hascending hcxx)
    constructor
    · intro o ho
      obtain ⟨r, hr, rfl, rfl⟩ := finds_row hindex ho
      have hlength := rowsAt_length addr hgen hfits hascending hcxx hr
      obtain ⟨first, hfirst, -⟩ := (objectlist_inOrder hgen hfits hascending hr).first
      have hpos := (List.getElem?_eq_some_iff.mp hfirst).1
      have hne : rowsAt (rows.map (CxxEntry.entry addr)) (.ofNat 16 r.index) ≠ [] := by
        intro hnil
        rw [hnil, List.length_nil] at hlength
        omega
      rw [hsub, if_neg hne, hlength]
      change (r.rows.length : ℤ) = ((r.rows.map (Row.objd addr)).length : ℤ)
      rw [List.length_map]
    · intro hscan
      rw [hsub, if_pos]
      apply List.filter_eq_nil_iff.mpr
      intro e he heq
      obtain ⟨c, hc, rfl⟩ := List.mem_map.mp he
      obtain ⟨r, hr, row, hrowmem, hrestates⟩ := cxx_row hgen hascending hcxx hc
      obtain ⟨n, hfind, -⟩ := row_found addr hgen hfits hr
      have hword : index = .ofNat 16 r.index := by
        rw [← of_decide_eq_true heq, ← hrestates.index]
        rfl
      rw [hword, hfind] at hscan
      cases hscan

/-! ## An example -/

lemma exampleDrive_cxx : (cxxEntries exampleOutput.objects exampleOutput.rx
    exampleOutput.tx).toOption.isSome = true := by
  decide +kernel

/-- The C++ table of the example. -/
def exampleKEntries : List Entry :=
  ((cxxEntries exampleOutput.objects exampleOutput.rx exampleOutput.tx).toOption.get
    exampleDrive_cxx).map (CxxEntry.entry exampleAddr)

lemma exampleOutput_ascending : Ascending exampleOutput := by decide +kernel

/-- The status flags of the second axis have one answer, and so has an entry of an object with
gaps. -/
theorem one_dictionary_example :
    SameAnswer exampleAddr (exampleOutput.table exampleAddr) exampleKEntries 0x2800 2 ∧
      SameAnswer exampleAddr (exampleOutput.table exampleAddr) exampleKEntries 0x1C32 5 :=
  ⟨one_dictionary exampleDrive_output exampleOutput_fits exampleOutput_ascending
      (except_eq_ok_get exampleDrive_cxx) exampleAddr (by decide) 2,
    one_dictionary exampleDrive_output exampleOutput_fits exampleOutput_ascending
      (except_eq_ok_get exampleDrive_cxx) exampleAddr (by decide) 5⟩

end Soes.GenOd
