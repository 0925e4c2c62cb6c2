import Soes.Properties.MappingVerdict

/-!
# The mapping of tables that are in order

`sizeOfPDO_judges` says what `sizeOfPDO` makes of any words.  Here the tables are in order: the
count of an object is below 255 and its rows are there, every PDO that is assigned is found, and so
is every entry that is mapped.  Then `sizeOfPDO` refuses nothing, and leaves the layout of the words
(`sizeOfPDO_ends`).
-/

namespace Soes

open Program

variable {v : Variables} {n : ℕ} {maxMappings : ℕ} {index : Word} {o assign : Objectlist}
  {ws : List Mapped} {pdos : List (List Mapped)}

/-- The words of a mapping object: as many as its row 0 says, each pointing to an entry. -/
structure Objectlist.ListsWords (v : Variables) (o : Objectlist) (ws : List Mapped) : Prop where
  count : ∃ d, o.row 0 = .ok d ∧ (objFetch8 v.bytes d).toNat = ws.length
  short : ws.length ≤ 254
  row : ∀ i m, ws[i]? = some m → ∃ d, o.row (i + 1) = .ok d ∧ objFetch32 v.bytes d = m.value
  found : ∀ m ∈ ws, mappedEntry v.table m.value = .ok (some m.obj)

/-- The PDOs of an assignment object: as many as its row 0 says, each a mapping object. -/
structure Objectlist.AssignsPdos (v : Variables) (assign : Objectlist) (pdos : List (List Mapped)) :
    Prop where
  count : ∃ d, assign.row 0 = .ok d ∧ (objFetch8 v.bytes d).toNat = pdos.length
  short : pdos.length ≤ 254
  row : ∀ i ws, pdos[i]? = some ws → ∃ d o, assign.row (i + 1) = .ok d ∧
    Finds v.table (objFetch16 v.bytes d) o ∧ o.ListsWords v ws

/-! ## The rows -/

/-- Rows that say what a list holds make up the list. -/
lemma Objectlist.map_rows {α : Type} {f : Objd → α} {xs : List α}
    (h : ∀ i x, xs[i]? = some x → ∃ d, o.row (i + 1) = .ok d ∧ f d = x) :
    (o.rows xs.length).map f = xs := by
  apply List.ext_getElem?
  intro i
  rw [List.getElem?_map, rows]
  rcases Nat.lt_or_ge i xs.length with hi | hi
  · obtain ⟨d, hrow, hd⟩ := h i _ (List.getElem?_eq_getElem hi)
    rw [List.getElem?_take_of_lt hi, List.getElem?_drop, Nat.add_comm 1 i, row_eq_ok.mp hrow,
      List.getElem?_eq_getElem hi, ← hd]
    rfl
  · rw [List.getElem?_eq_none hi, List.getElem?_eq_none, Option.map_none]
    rw [List.length_take]
    omega

/-- The rows up to a count are there if the last of them is. -/
lemma Objectlist.lt_length {count : ℕ} {first : Objd} (hfirst : o.row 0 = .ok first)
    (h : ∀ i < count, ∃ d, o.row (i + 1) = .ok d) : count < o.objdesc.length := by
  cases count with
  | zero => exact (List.getElem?_eq_some_iff.mp (row_eq_ok.mp hfirst)).1
  | succ i =>
      obtain ⟨d, hrow⟩ := h i (Nat.lt_succ_self i)
      exact (List.getElem?_eq_some_iff.mp (row_eq_ok.mp hrow)).1

namespace Objectlist.ListsWords

lemma count_eq (h : o.ListsWords v ws) : o.count v.bytes = ws.length := by
  obtain ⟨first, hfirst, hcount⟩ := h.count
  rw [Objectlist.count_eq hfirst, hcount]

lemma counted (h : o.ListsWords v ws) : o.Counted v.bytes := by
  obtain ⟨first, hfirst, -⟩ := h.count
  constructor
  case short => exact Nat.le_trans (Nat.le_of_eq h.count_eq) h.short
  case rows =>
    rw [h.count_eq]
    refine Objectlist.lt_length hfirst fun i hi => ?_
    obtain ⟨d, hrow, -⟩ := h.row i _ (List.getElem?_eq_getElem hi)
    exact ⟨d, hrow⟩

/-- The words in its rows. -/
lemma words_eq (h : o.ListsWords v ws) : (o.rows (o.count v.bytes)).map (mapped v) = ws := by
  rw [h.count_eq]
  refine Objectlist.map_rows fun i m hm => ?_
  obtain ⟨d, hrow, hvalue⟩ := h.row i m hm
  have hfound := h.found m (List.mem_of_getElem? hm)
  exact ⟨d, hrow, by rw [mapped, hvalue, hfound]⟩

end Objectlist.ListsWords

namespace Objectlist.AssignsPdos

lemma count_eq (h : assign.AssignsPdos v pdos) : assign.count v.bytes = pdos.length := by
  obtain ⟨first, hfirst, hcount⟩ := h.count
  rw [Objectlist.count_eq hfirst, hcount]

lemma counted (h : assign.AssignsPdos v pdos) : assign.Counted v.bytes := by
  obtain ⟨first, hfirst, -⟩ := h.count
  constructor
  case short => exact Nat.le_trans (Nat.le_of_eq h.count_eq) h.short
  case rows =>
    rw [h.count_eq]
    refine Objectlist.lt_length hfirst fun i hi => ?_
    obtain ⟨d, o, hrow, -⟩ := h.row i _ (List.getElem?_eq_getElem hi)
    exact ⟨d, hrow⟩

/-- The words of the PDOs in its rows. -/
lemma words_eq (h : assign.AssignsPdos v pdos) :
    (assign.rows (assign.count v.bytes)).map (pdoWords v) = pdos := by
  rw [h.count_eq]
  refine Objectlist.map_rows fun i ws hws => ?_
  obtain ⟨d, o, hrow, hfinds, hwords⟩ := h.row i ws hws
  refine ⟨d, hrow, ?_⟩
  rw [pdoWords, hfinds.findObject_eq]
  exact hwords.words_eq

/-- Each of its rows assigns a mapping object. -/
lemma finds (h : assign.AssignsPdos v pdos) {d : Objd}
    (hd : d ∈ assign.rows (assign.count v.bytes)) :
    ∃ o ws, Finds v.table (objFetch16 v.bytes d) o ∧ o.ListsWords v ws := by
  obtain ⟨i, hi⟩ := List.mem_iff_getElem?.mp hd
  have hlt := (List.getElem?_eq_some_iff.mp hi).1
  rw [Objectlist.length_rows h.counted, h.count_eq] at hlt
  obtain ⟨d', o, hrow, hfinds, hwords⟩ := h.row i _ (List.getElem?_eq_getElem hlt)
  rw [Objectlist.rows, List.getElem?_take_of_lt (h.count_eq.symm ▸ hlt), List.getElem?_drop,
    Nat.add_comm 1 i, row_eq_ok.mp hrow, Option.some.injEq] at hi
  subst hi
  exact ⟨o, _, hfinds, hwords⟩

end Objectlist.AssignsPdos

/-! ## The mapping -/

/-- `sizeOfPDO` of tables in order refuses nothing and leaves the layout of their words. -/
lemma sizeOfPDO_ends (hindex : index = rxPdoObjidx ∨ index = txPdoObjidx)
    (hassign : Finds v.table index assign) (h : assign.AssignsPdos v pdos)
    (hmax : 0 < maxMappings) (hroom : pdos.flatten.length ≤ maxMappings) (hfuel : 255 ≤ n)
    (nmappings : ℤ) (mappings : List SmMap) :
    sizeOfPDO index nmappings mappings maxMappings v n () =
      .ok ⟨.ofNat 16 (bits2bytes (bitsOf pdos.flatten)), pdos.flatten.length,
        layout 0 pdos.flatten⟩ () := by
  have hwords : mappingWords v index = pdos.flatten := by
    rw [mappingWords, hassign.findObject_eq, ← h.words_eq]
    exact List.flatMap_def
  have hfound : ∀ m ∈ pdos.flatten, mappedEntry v.table m.value = .ok (some m.obj) := by
    intro m hm
    obtain ⟨ws, hws, hmem⟩ := List.mem_flatten.mp hm
    obtain ⟨i, hi⟩ := List.mem_iff_getElem?.mp hws
    obtain ⟨d, o, -, -, hlists⟩ := h.row i ws hi
    exact hlists.found m hmem
  have hsearch : ∀ d ∈ assign.rows (assign.count v.bytes),
      ∃ found, sdoFindobject v.table (objFetch16 v.bytes d) = .ok found := by
    intro d hd
    obtain ⟨o, ws, ⟨nidx, hfind, -⟩, -⟩ := h.finds hd
    exact ⟨some nidx, hfind⟩
  have hpdos : ∀ d ∈ assign.rows (assign.count v.bytes), ∀ o,
      Finds v.table (objFetch16 v.bytes d) o → o.Counted v.bytes := by
    intro d hd o ho
    obtain ⟨o', ws, hfinds, hlists⟩ := h.finds hd
    rw [ho.unique hfinds]
    exact hlists.counted
  have hlookups : LookedUp v maxMappings pdos.flatten := by
    rintro before m after hsplit - -
    exact ⟨_, hfound m (by simp [hsplit])⟩
  rw [← hwords] at hlookups
  obtain ⟨r, hrun, htaken, -⟩ :=
    sizeOfPDO_judges hindex hassign hmax h.counted hsearch hpdos hlookups hfuel nmappings mappings
  rw [hwords] at htaken
  rw [hrun, htaken ⟨hfound, hroom⟩]

end Soes
