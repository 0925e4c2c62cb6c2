import Soes.Stack.Sdo

/-!
# What the lookups find

The lookups of `esc_coe.c` over the table of a dictionary.  The scan for an object always ends,
at the sentinel if not before, and what it finds has the index asked for.  The scan for a
subindex finds a row with that subindex, not beyond the number `maxsub`; it may leave the rows,
and then it gives no answer at all.  An entry that is found is one of the dictionary, whose
storage is there if the entry can be written (`Dictionary.data_ne`).
-/

namespace Soes

variable {dict : Dictionary} {table : List Objectlist} {index : Word} {subindex : Byte}
  {o : Objectlist} {n : ℕ}

/-- A check after a check succeeds if both do. -/
lemma except_bind_eq_ok {ε α β : Type} {x : Except ε α} {f : α → Except ε β} {b : β} :
    (x >>= f) = .ok b ↔ ∃ a, x = .ok a ∧ f a = .ok b := by
  cases x <;> simp [bind, Except.bind]

lemma except_map_eq_ok {ε α β : Type} {x : Except ε α} {f : α → β} {b : β} :
    f <$> x = .ok b ↔ ∃ a, x = .ok a ∧ f a = b := by
  cases x <;> simp [Functor.map, Except.map]

lemma except_pure_eq_ok {ε α : Type} {a b : α} : (pure a : Except ε α) = .ok b ↔ a = b :=
  ⟨fun h => by cases h; rfl, fun h => by rw [h]; rfl⟩

lemma row_eq_ok {d : Objd} : o.row n = .ok d ↔ o.objdesc[n]? = some d := by
  rw [Objectlist.row]
  cases o.objdesc[n]? <;> simp

lemma objectAt_eq_ok : objectAt table n = .ok o ↔ table[n]? = some o := by
  rw [objectAt]
  cases table[n]? <;> simp

/-! ## The scan for an object -/

/-- The scan ends at the sentinel at the latest. -/
lemma sdoFindobjectFrom_isOk (objects : List Objectlist) (index : Word) (n : ℕ) :
    ∃ r, sdoFindobjectFrom index (objects ++ [sentinel]) n = .ok r := by
  induction objects generalizing n with
  | nil =>
      have hlast : ¬ sentinel.index < index := by
        simp only [sentinel]
        bv_omega
      simp only [List.nil_append, sdoFindobjectFrom, if_neg hlast]
      split <;> exact ⟨_, rfl⟩
  | cons o rest ih =>
      rw [List.cons_append, sdoFindobjectFrom]
      split
      · exact ih (n + 1)
      · split <;> exact ⟨_, rfl⟩

/-- `SDO_findobject` never leaves the table. -/
lemma sdoFindobject_isOk (dict : Dictionary) (index : Word) :
    ∃ r, sdoFindobject dict.table index = .ok r :=
  sdoFindobjectFrom_isOk dict.objects index 0

lemma sdoFindobjectFrom_found {m : ℕ} (h : sdoFindobjectFrom index table m = .ok (some n)) :
    ∃ o, m ≤ n ∧ table[n - m]? = some o ∧ o.index = index := by
  induction table generalizing m with
  | nil => cases h
  | cons o rest ih =>
      rw [sdoFindobjectFrom] at h
      split at h
      · obtain ⟨o', hle, hrow, hindex⟩ := ih h
        refine ⟨o', by omega, ?_, hindex⟩
        rw [show n - m = n - (m + 1) + 1 by omega, List.getElem?_cons_succ]
        exact hrow
      · split at h
        · cases h
        case isFalse heq =>
          cases h
          exact ⟨o, Nat.le_refl _, by simp, not_not.mp heq⟩

/-- What `SDO_findobject` finds has the index asked for. -/
lemma sdoFindobject_found (h : sdoFindobject table index = .ok (some n)) :
    ∃ o, table[n]? = some o ∧ o.index = index := by
  obtain ⟨o, -, hrow, hindex⟩ := sdoFindobjectFrom_found h
  exact ⟨o, hrow, hindex⟩

lemma objectAt_isOk (h : sdoFindobject table index = .ok (some n)) :
    ∃ o, objectAt table n = .ok o := by
  obtain ⟨o, hrow, -⟩ := sdoFindobject_found h
  exact ⟨o, objectAt_eq_ok.mpr hrow⟩

/-- The object that `SDO_findobject` finds. -/
def Finds (table : List Objectlist) (index : Word) (o : Objectlist) : Prop :=
  ∃ n, sdoFindobject table index = .ok (some n) ∧ objectAt table n = .ok o

lemma Finds.mem (h : Finds table index o) : o ∈ table := by
  obtain ⟨n, -, ho⟩ := h
  exact List.mem_of_getElem? (objectAt_eq_ok.mp ho)

/-- There is at most one. -/
lemma Finds.unique {o' : Objectlist} (h : Finds table index o) (h' : Finds table index o') :
    o = o' := by
  obtain ⟨n, hn, ho⟩ := h
  obtain ⟨n', hn', ho'⟩ := h'
  rw [hn, Except.ok.injEq, Option.some.injEq] at hn'
  subst hn'
  rw [ho, Except.ok.injEq] at ho'
  exact ho'

/-! ## The scan for a subindex -/

lemma sdoFindsubindexFrom_found {left m : ℕ}
    (h : sdoFindsubindexFrom o subindex left m = .ok (some n)) :
    n ≤ m + left ∧ ∃ d, o.objdesc[n]? = some d ∧ d.subindex = subindex.setWidth 16 := by
  induction left generalizing m with
  | zero =>
      obtain ⟨d, hrow, hd⟩ := except_bind_eq_ok.mp h
      rw [except_pure_eq_ok, ite_eq_iff] at hd
      obtain ⟨-, hd⟩ | ⟨hsub, hd⟩ := hd
      · cases hd
      · cases hd
        exact ⟨by omega, d, row_eq_ok.mp hrow, not_not.mp hsub⟩
  | succ left ih =>
      obtain ⟨d, hrow, hd⟩ := except_bind_eq_ok.mp h
      split at hd
      · obtain ⟨hle, hfound⟩ := ih hd
        exact ⟨by omega, hfound⟩
      · rw [except_pure_eq_ok, ite_eq_iff] at hd
        obtain ⟨-, hd⟩ | ⟨hsub, hd⟩ := hd
        · cases hd
        · cases hd
          exact ⟨by omega, d, row_eq_ok.mp hrow, not_not.mp hsub⟩

/-- What `SDO_findsubindex` finds is a row up to number `maxsub` with the subindex asked
for. -/
lemma sdoFindsubindex_found (h : sdoFindsubindex o subindex = .ok (some n)) :
    n ≤ o.maxsub.toNat ∧ ∃ d, o.objdesc[n]? = some d ∧ d.subindex = subindex.setWidth 16 := by
  have scan (h : sdoFindsubindexFrom o subindex o.maxsub.toNat 0 = .ok (some n)) :
      n ≤ o.maxsub.toNat ∧ ∃ d, o.objdesc[n]? = some d ∧ d.subindex = subindex.setWidth 16 := by
    obtain ⟨hle, hfound⟩ := sdoFindsubindexFrom_found h
    exact ⟨by omega, hfound⟩
  rw [sdoFindsubindex] at h
  split at h
  case isTrue hle =>
    obtain ⟨direct, hdirect, h⟩ := except_bind_eq_ok.mp h
    obtain ⟨d, hrow, hd⟩ := except_map_eq_ok.mp hdirect
    cases direct with
    | false => exact scan h
    | true =>
        cases h
        exact ⟨BitVec.le_def.mp hle, d, row_eq_ok.mp hrow, of_decide_eq_true hd⟩
  case isFalse => exact scan h

/-! ## Entries -/

/-- A row of a table is one of an object of the dictionary: the sentinel has none. -/
lemma Dictionary.mem_of_row {d : Objd} (ho : o ∈ dict.table) (hd : d ∈ o.objdesc) :
    o ∈ dict.objects := by
  obtain ho | ho := List.mem_append.mp ho
  · exact ho
  · rw [List.mem_singleton.mp ho] at hd
    cases hd

/-- An entry that can be written has storage. -/
lemma Dictionary.data_ne {d : Objd} {state : Byte} (ho : o ∈ dict.table) (hd : d ∈ o.objdesc)
    (hwrite : writeAccess d.access state) : d.data ≠ 0 :=
  dict.storage o (dict.mem_of_row ho hd) d hd (.inl ⟨state, hwrite⟩)

/-- An entry that does not fit an expedited reply has storage. -/
lemma Dictionary.data_ne_of_size {d : Objd} (ho : o ∈ dict.table) (hd : d ∈ o.objdesc)
    (hsize : ¬ d.size ≤ 4) : d.data ≠ 0 := by
  refine dict.storage o (dict.mem_of_row ho hd) d hd (.inr ?_)
  simp only [Objd.size, bits2bytes] at hsize
  omega

lemma row_zero_isOk {d : Objd} (hd : d ∈ o.objdesc) : ∃ first, o.row 0 = .ok first := by
  cases hrows : o.objdesc with
  | nil =>
      rw [hrows] at hd
      cases hd
  | cons first rest => exact ⟨first, row_eq_ok.mpr (by rw [hrows]; rfl)⟩

/-- The object of an entry that `lookupEntry` finds. -/
lemma lookupEntry_found {d : Objd} (h : lookupEntry table index subindex = .ok (.ok d)) :
    ∃ o, Finds table index o ∧ d ∈ o.objdesc := by
  obtain ⟨found, hfound, h⟩ := except_bind_eq_ok.mp h
  cases found with
  | none => cases h
  | some nidx =>
      obtain ⟨o, ho, h⟩ := except_bind_eq_ok.mp h
      obtain ⟨sub, -, h⟩ := except_bind_eq_ok.mp h
      cases sub with
      | none => cases h
      | some nsub =>
          obtain ⟨d', hrow, hd⟩ := except_map_eq_ok.mp h
          cases hd
          exact ⟨o, ⟨nidx, hfound, ho⟩, List.mem_of_getElem? (row_eq_ok.mp hrow)⟩

/-- The object that Complete Access opens. -/
lemma completeAccessGetVariables_found
    (h : completeAccessGetVariables table index subindex = .ok (.ok (o, n))) :
    Finds table index o ∧ sdoFindsubindex o subindex = .ok (some n) := by
  rw [completeAccessGetVariables] at h
  split at h
  · cases h
  obtain ⟨found, hfound, h⟩ := except_bind_eq_ok.mp h
  cases found with
  | none => cases h
  | some nidx =>
      obtain ⟨o', ho, h⟩ := except_bind_eq_ok.mp h
      obtain ⟨sub, hsub, h⟩ := except_bind_eq_ok.mp h
      cases sub with
      | none => cases h
      | some nsub =>
          cases h
          exact ⟨⟨nidx, hfound, ho⟩, hsub⟩

/-- An object in which a row is found has a first row. -/
lemma sdoFindsubindex_row_zero (h : sdoFindsubindex o subindex = .ok (some n)) :
    ∃ first, o.row 0 = .ok first := by
  obtain ⟨-, d, hrow, -⟩ := sdoFindsubindex_found h
  exact row_zero_isOk (List.mem_of_getElem? hrow)

/-- `COE_maxSub` of an object that has rows stays in the table. -/
lemma coeMaxSub_isOk (h : Finds table index o) {first : Objd} (hfirst : o.row 0 = .ok first)
    (bytes : ByteStore) : ∃ r, coeMaxSub ⟨table, bytes⟩ index = .ok r := by
  obtain ⟨n, hn, ho⟩ := h
  refine ⟨objFetch8 bytes first, except_bind_eq_ok.mpr ⟨some n, hn, ?_⟩⟩
  exact except_bind_eq_ok.mpr ⟨o, ho, except_bind_eq_ok.mpr ⟨first, hfirst, rfl⟩⟩

end Soes
