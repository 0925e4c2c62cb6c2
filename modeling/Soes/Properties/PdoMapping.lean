import Soes.Properties.Lookup
import Soes.Properties.ProcessImage
import Soes.Stack.RegisterFile

/-!
# The mapping that `sizeOfPDO` makes

The assignment and mapping objects hold a list of words, each with an entry and a bit length
(`mappingWords`).  `sizeOfPDO` reads them in two nested loops, and when it does not refuse them its
result is a function of the list: the entries one after the other, each at the sum of the bit
lengths before it (`layout`), and the sum of them all (`sizeOfPDO_layout`).  The lengths are those
in the words; the packing goes by the lengths of the entries.
-/

namespace Soes

open Program

variable {v : Variables} {k n : ℕ} {maxMappings : ℕ} {index : Word} {o : Objectlist}

/-! ## Mapping words -/

/-- A mapping word, and the entry it points to, `none` for padding. -/
structure Mapped where
  value : Dword
  obj : Option Objd
  deriving DecidableEq, Repr

/-- The bit length in a mapping word. -/
def Mapped.bits (m : Mapped) : ℕ := (m.value.setWidth 8).toNat

/-- The bit lengths of some words together. -/
def bitsOf (ws : List Mapped) : ℕ := (ws.map Mapped.bits).sum

/-- The mappings of some words, from a bit offset on. -/
def layout : ℕ → List Mapped → List SmMap
  | _, [] => []
  | offset, m :: ws => ⟨m.obj, offset⟩ :: layout (offset + m.bits) ws

/-- The mapping word in a row. -/
def mapped (v : Variables) (d : Objd) : Mapped where
  value := objFetch32 v.bytes d
  obj :=
    match mappedEntry v.table (objFetch32 v.bytes d) with
    | .ok (some obj) => obj
    | _ => none

/-- The number in row 0 of an object. -/
def Objectlist.count (bytes : ByteStore) (o : Objectlist) : ℕ :=
  match o.objdesc[0]? with
  | some d => (objFetch8 bytes d).toNat
  | none => 0

/-- Some rows of an object, from row 1 on. -/
def Objectlist.rows (o : Objectlist) (count : ℕ) : List Objd := (o.objdesc.drop 1).take count

/-- The object of an index. -/
def findObject (table : List Objectlist) (index : Word) : Option Objectlist :=
  match sdoFindobject table index with
  | .ok (some n) => table[n]?
  | _ => none

/-- The words of the PDO assigned by a row. -/
def pdoWords (v : Variables) (d : Objd) : List Mapped :=
  match findObject v.table (objFetch16 v.bytes d) with
  | some o => (o.rows (o.count v.bytes)).map (mapped v)
  | none => []

/-- The mapping words of a SyncManager: those of all the PDOs assigned to it. -/
def mappingWords (v : Variables) (index : Word) : List Mapped :=
  match findObject v.table index with
  | some assign => (assign.rows (assign.count v.bytes)).flatMap (pdoWords v)
  | none => []

lemma bitsOf_append (ws ws' : List Mapped) : bitsOf (ws ++ ws') = bitsOf ws + bitsOf ws' := by
  simp [bitsOf]

lemma layout_append (offset : ℕ) (ws ws' : List Mapped) :
    layout offset (ws ++ ws') = layout offset ws ++ layout (offset + bitsOf ws) ws' := by
  induction ws generalizing offset with
  | nil => simp [layout, bitsOf]
  | cons m ws ih =>
      simp only [List.cons_append, layout, ih]
      simp [bitsOf, Nat.add_assoc]

lemma layout_length (offset : ℕ) (ws : List Mapped) : (layout offset ws).length = ws.length := by
  induction ws generalizing offset with
  | nil => rfl
  | cons m ws ih => simp [layout, ih]

lemma Mapped.bits_lt (m : Mapped) : m.bits < 256 := (m.value.setWidth 8).isLt

lemma bitsOf_le (ws : List Mapped) : bitsOf ws ≤ 255 * ws.length := by
  induction ws with
  | nil => simp [bitsOf]
  | cons m ws ih =>
      have hm := m.bits_lt
      have hcons : bitsOf (m :: ws) = m.bits + bitsOf ws := by simp [bitsOf]
      rw [hcons, List.length_cons]
      omega

lemma Finds.findObject_eq (h : Finds v.table index o) : findObject v.table index = some o := by
  obtain ⟨n, hn, ho⟩ := h
  rw [findObject, hn]
  exact objectAt_eq_ok.mp ho

/-- One more row. -/
lemma Objectlist.rows_succ {k : ℕ} {d : Objd} (h : o.row (k + 1) = .ok d) :
    o.rows (k + 1) = o.rows k ++ [d] := by
  have hrow := row_eq_ok.mp h
  rw [rows, rows, List.take_add_one, List.getElem?_drop, Nat.add_comm 1 k, hrow]
  rfl

/-! ## The loop over one PDO -/

/-- What has been read of a SyncManager's words, when `ws` are the words so far. -/
structure Reads (v : Variables) (maxMappings : ℕ) (ws : List Mapped) (offset : ℕ)
    (maps : List SmMap) : Prop where
  offset_eq : offset = bitsOf ws
  maps_eq : maps = layout 0 ws
  found : ∀ m ∈ ws, mappedEntry v.table m.value = .ok (some m.obj)
  room : ws.length ≤ maxMappings

/-- One more word. -/
lemma Reads.next {ws : List Mapped} {offset : ℕ} {maps : List SmMap}
    (h : Reads v maxMappings ws offset maps) {d : Objd} {obj : Option Objd}
    (hobj : mappedEntry v.table (objFetch32 v.bytes d) = .ok (some obj))
    (hroom : maps.length ≠ maxMappings) :
    Reads v maxMappings (ws ++ [mapped v d])
      (offset + ((objFetch32 v.bytes d).setWidth 8 : Byte).toNat) (maps ++ [⟨obj, offset⟩]) := by
  have hmapped : mapped v d = ⟨objFetch32 v.bytes d, obj⟩ := by simp [mapped, hobj]
  have hlength := h.room
  rw [h.maps_eq, layout_length] at hroom
  constructor
  case offset_eq =>
    rw [bitsOf_append, ← h.offset_eq, hmapped]
    simp [bitsOf, Mapped.bits]
  case maps_eq =>
    rw [layout_append, ← h.maps_eq, ← h.offset_eq, hmapped, Nat.zero_add]
    rfl
  case found =>
    intro m hm
    rcases List.mem_append.mp hm with hm | hm
    · exact h.found m hm
    · rw [List.mem_singleton.mp hm, hmapped]
      exact hobj
  case room =>
    rw [List.length_append, List.length_singleton]
    omega

/-- The words of one PDO are read in order; a count of 255 is never got through. -/
lemma sizeOfPDOEntries_reads {maxsub : Byte} (hmax : 0 < maxMappings) {ws : List Mapped}
    {offset : ℕ} {maps : List SmMap} (h : Reads v maxMappings ws offset maps)
    (hbits : offset + 254 * 255 < 2 ^ 32) :
    wlp v n (loop (sizeOfPDOEntries o maxsub maxMappings) (1, offset, maps)) (fun r _ =>
      ∀ offset' maps', r = .ok (offset', maps') → maxsub.toNat < 255 ∧
        (o.rows maxsub.toNat).length = maxsub.toNat ∧
        Reads v maxMappings (ws ++ (o.rows maxsub.toNat).map (mapped v)) offset' maps') () := by
  refine wlp_loop (fun (s : Byte × ℕ × List SmMap) _ => maxsub.toNat < 255 →
    ∃ k, s.1.toNat = k + 1 ∧ k ≤ maxsub.toNat ∧ (o.rows k).length = k ∧
      Reads v maxMappings (ws ++ (o.rows k).map (mapped v)) s.2.1 s.2.2) ?_ ?_
  · intro _
    exact ⟨0, rfl, Nat.zero_le _, by simp [Objectlist.rows], by simpa [Objectlist.rows] using h⟩
  · rintro ⟨c, off, ms⟩ ⟨⟩ hinv
    simp only [sizeOfPDOEntries]
    by_cases hc : c ≤ maxsub
    · rw [if_pos hc, wlp_ask_bind, wlp_bind, wlp_lift]
      intro d hrow
      rw [if_neg (by omega)]
      by_cases hfull : ms.length = maxMappings
      · rw [if_pos hfull, wlp_pure]
        intro _ _ hnone
        cases hnone
      rw [if_neg hfull, wlp_bind, wlp_lift]
      intro found hfound
      cases found with
      | none =>
          rw [wlp_pure]
          intro _ _ hnone
          cases hnone
      | some obj =>
          rw [wlp_pure]
          intro hlt
          obtain ⟨k, (hck : c.toNat = k + 1), hk, hlength,
            (hreads : Reads v maxMappings _ off ms)⟩ := hinv hlt
          have hle : c.toNat ≤ maxsub.toNat := BitVec.le_def.mp hc
          have hnext : (c + 1).toNat = k + 1 + 1 := by
            rw [BitVec.toNat_add]
            simp
            omega
          rw [hck] at hrow
          have hrows := o.rows_succ hrow
          refine ⟨k + 1, hnext, by omega, ?_, ?_⟩
          · rw [hrows, List.length_append, hlength, List.length_singleton]
          · have hword := ((objFetch32 v.bytes d).setWidth 8 : Byte).isLt
            have hoff := hreads.offset_eq
            have hsum := bitsOf_le ((o.rows k).map (mapped v))
            have hmod : (off + ((objFetch32 v.bytes d).setWidth 8 : Byte).toNat) % 2 ^ 32 =
                off + ((objFetch32 v.bytes d).setWidth 8 : Byte).toNat := by
              apply Nat.mod_eq_of_lt
              rw [bitsOf_append, ← h.offset_eq] at hoff
              rw [List.length_map, hlength] at hsum
              omega
            have hstep := hreads.next hfound hfull
            rw [hrows, List.map_append, ← List.append_assoc]
            change Reads v maxMappings _ ((off + _) % 2 ^ 32) _
            rw [hmod]
            exact hstep
    · rw [if_neg hc, wlp_pure]
      intro offset' maps' hsome
      cases hsome
      have hlt : maxsub.toNat < c.toNat := Nat.lt_of_not_le fun h => hc (BitVec.le_def.mpr h)
      have hc256 := c.isLt
      obtain ⟨k, (hck : c.toNat = k + 1), hk, hlength, hreads⟩ := hinv (by omega)
      have hkm : k = maxsub.toNat := by omega
      subst hkm
      exact ⟨by omega, hlength, hreads⟩

/-! ## The loop over the PDOs -/

lemma pdoWords_of_none {d : Objd} (h : sdoFindobject v.table (objFetch16 v.bytes d) = .ok none) :
    pdoWords v d = [] := by
  simp [pdoWords, findObject, h]

lemma pdoWords_of_finds {d first : Objd} (h : Finds v.table (objFetch16 v.bytes d) o)
    (hfirst : o.row 0 = .ok first) :
    pdoWords v d = (o.rows (objFetch8 v.bytes first).toNat).map (mapped v) := by
  simp [pdoWords, h.findObject_eq, Objectlist.count, row_eq_ok.mp hfirst]

/-- The words of all PDOs are read in order; a count of 255 is never got through. -/
lemma sizeOfPDOAssigned_reads {assign : Objectlist} {si : Byte} (hmax : 0 < maxMappings) :
    wlp v n (loop (sizeOfPDOAssigned assign si maxMappings) (1, 0, [])) (fun r _ =>
      ∀ offset maps, r = .ok (offset, maps) →
        Reads v maxMappings ((assign.rows si.toNat).flatMap (pdoWords v)) offset maps ∧
          offset < 2 ^ 32) () := by
  refine wlp_loop (fun (s : Byte × ℕ × List SmMap) _ => si.toNat < 255 →
    ∃ k, s.1.toNat = k + 1 ∧ k ≤ si.toNat ∧ s.2.1 ≤ k * (254 * 255) ∧
      Reads v maxMappings ((assign.rows k).flatMap (pdoWords v)) s.2.1 s.2.2) ?_ ?_
  · intro _
    have hstart : Reads v maxMappings [] 0 [] :=
      ⟨rfl, rfl, fun m hm => absurd hm List.not_mem_nil, Nat.zero_le _⟩
    exact ⟨0, rfl, Nat.zero_le _, Nat.zero_le _, by simpa [Objectlist.rows] using hstart⟩
  · rintro ⟨sic, off, ms⟩ ⟨⟩ hinv
    simp only [sizeOfPDOAssigned]
    by_cases hsic : sic ≤ si
    · have hle : sic.toNat ≤ si.toNat := BitVec.le_def.mp hsic
      rw [if_pos hsic, wlp_ask_bind, wlp_bind, wlp_lift]
      intro d hrow
      rw [wlp_bind, wlp_lift]
      intro found hfound
      by_cases hlt : si.toNat < 255
      · obtain ⟨k, (hk : sic.toNat = k + 1), hksi, (hoff : off ≤ k * (254 * 255)),
          (hreads : Reads v maxMappings _ off ms)⟩ := hinv hlt
        have hnext : (sic + 1).toNat = k + 1 + 1 := by
          rw [BitVec.toNat_add]
          simp
          omega
        have hrow' := hrow
        rw [hk] at hrow'
        have hrows := assign.rows_succ hrow'
        have hwords : (assign.rows (k + 1)).flatMap (pdoWords v) =
            (assign.rows k).flatMap (pdoWords v) ++ pdoWords v d := by
          rw [hrows, List.flatMap_append]
          simp
        cases found with
        | none =>
            rw [wlp_pure]
            intro _
            refine ⟨k + 1, hnext, by omega, ?_, ?_⟩
            · exact Nat.le_trans hoff (Nat.mul_le_mul_right _ (Nat.le_succ k))
            · rw [hwords, pdoWords_of_none hfound, List.append_nil]
              exact hreads
        | some nidx =>
            rw [wlp_bind, wlp_lift]
            intro o ho
            rw [wlp_bind, wlp_lift]
            intro first hfirst
            rw [wlp_bind]
            have hpdo := pdoWords_of_finds (v := v) (d := d) ⟨nidx, hfound, ho⟩ hfirst
            refine (sizeOfPDOEntries_reads hmax hreads (by omega)).mono fun r _ hr => ?_
            cases r with
            | error maps =>
                rw [wlp_pure]
                intro _ _ hnone
                cases hnone
            | ok p =>
                obtain ⟨offset', maps'⟩ := p
                obtain ⟨hmaxsub, hlength, hreads'⟩ := hr offset' maps' rfl
                rw [wlp_pure]
                intro _
                refine ⟨k + 1, hnext, by omega, ?_, ?_⟩
                · have hsum := bitsOf_le ((o.rows (objFetch8 v.bytes first).toNat).map (mapped v))
                  have hoff' := hreads'.offset_eq
                  rw [bitsOf_append, ← hreads.offset_eq] at hoff'
                  rw [List.length_map, hlength] at hsum
                  have hle' : offset' ≤ (k + 1) * (254 * 255) := by omega
                  exact hle'
                · rw [hwords, hpdo]
                  exact hreads'
      · -- a count of 255: no bound on the bytes ends the loop, so nothing has to be kept
        cases found with
        | none =>
            rw [wlp_pure]
            exact fun h => absurd h hlt
        | some nidx =>
            rw [wlp_bind, wlp_lift]
            intro o ho
            rw [wlp_bind, wlp_lift]
            intro first hfirst
            rw [wlp_bind]
            refine (wlp_true _).mono fun r _ _ => ?_
            cases r with
            | error maps =>
                rw [wlp_pure]
                intro _ _ hnone
                cases hnone
            | ok p =>
                rw [wlp_pure]
                exact fun h => absurd h hlt
    · rw [if_neg hsic, wlp_pure]
      intro offset maps hsome
      cases hsome
      have hlt : si.toNat < sic.toNat := Nat.lt_of_not_le fun h => hsic (BitVec.le_def.mpr h)
      have hsic256 := sic.isLt
      obtain ⟨k, (hk : sic.toNat = k + 1), hksi, (hoff : off ≤ k * (254 * 255)), hreads⟩ :=
        hinv (by omega)
      have hksi' : k = si.toNat := by omega
      subst hksi'
      exact ⟨hreads, by omega⟩

/-- What `sizeOfPDO` leaves when it does not refuse the mapping: the layout of the mapping
words, and the bytes they need, as far as 16 bits hold them. -/
lemma sizeOfPDO_layout (hindex : index = rxPdoObjidx ∨ index = txPdoObjidx)
    (hmax : 0 < maxMappings) (nmappings : ℤ) (mappings : List SmMap)
    (hfirst : nmappings ≤ 0 ∨ ∃ assign, Finds v.table index assign) :
    wlp v n (sizeOfPDO index nmappings mappings maxMappings) (fun r _ => 0 ≤ r.nmappings →
      Reads v maxMappings (mappingWords v index) (bitsOf (mappingWords v index))
        (r.mappings.take r.nmappings.toNat) ∧
      r.nmappings = (mappingWords v index).length ∧
      r.size = .ofNat 16 (bits2bytes (bitsOf (mappingWords v index))) ∧
      bitsOf (mappingWords v index) < 2 ^ 32) () := by
  have hboth : ¬ (index ≠ rxPdoObjidx ∧ index ≠ txPdoObjidx) := by
    rintro ⟨hrx, htx⟩
    rcases hindex with h | h
    · exact hrx h
    · exact htx h
  rw [sizeOfPDO, if_neg hboth, wlp_ask_bind, wlp_bind, wlp_lift]
  intro found hfound
  cases found with
  | none =>
      -- the object is not there: nothing is mapped
      rw [wlp_pure]
      intro hnonneg
      have hwords : mappingWords v index = [] := by simp [mappingWords, findObject, hfound]
      have hzero : nmappings = 0 := by
        rcases hfirst with h | ⟨assign, nidx, h, -⟩
        · exact Int.le_antisymm h hnonneg
        · rw [hfound] at h
          cases h
      rw [hwords]
      subst hzero
      exact ⟨⟨rfl, rfl, fun m hm => absurd hm List.not_mem_nil, Nat.zero_le _⟩, rfl, rfl, by decide⟩
  | some nidx =>
      rw [wlp_bind, wlp_lift]
      intro assign hassign
      rw [wlp_bind, wlp_lift]
      intro first hrow
      have hwords : mappingWords v index =
          (assign.rows (objFetch8 v.bytes first).toNat).flatMap (pdoWords v) := by
        have hobject := Finds.findObject_eq (v := v) ⟨nidx, hfound, hassign⟩
        simp [mappingWords, hobject, Objectlist.count, row_eq_ok.mp hrow]
      rw [wlp_bind, hwords]
      refine (sizeOfPDOAssigned_reads hmax).mono fun r _ hr => ?_
      cases r with
      | error maps =>
          rw [wlp_pure]
          intro hneg
          cases hneg
      | ok p =>
          obtain ⟨offset, maps⟩ := p
          obtain ⟨hreads, hlt⟩ := hr offset maps rfl
          have hlength := congrArg List.length hreads.maps_eq
          rw [layout_length] at hlength
          rw [wlp_pure]
          intro _
          have hmaps : maps.take (maps.length : ℤ).toNat = maps := by simp
          have hoffset := hreads.offset_eq
          subst hoffset
          simp only [if_neg (Nat.ne_of_gt hmax), hmaps]
          exact ⟨hreads, by rw [hlength], trivial, hlt⟩

/-! ## The process data round trip -/

/-- A mapping that `sizeOfPDO` produced, by some call for one of the SyncManagers of the process
data that listed the mappings and did not refuse them. -/
def Produced (v : Variables) (index : Word) (maps : List SmMap) : Prop :=
  ∃ n nmappings mappings maxMappings r, (index = rxPdoObjidx ∨ index = txPdoObjidx) ∧
    0 < maxMappings ∧ (nmappings ≤ 0 ∨ ∃ assign, Finds v.table index assign) ∧
    sizeOfPDO index nmappings mappings maxMappings v n () = .ok r () ∧ 0 ≤ r.nmappings ∧
    maps = r.mappings.take r.nmappings.toNat

/-- A mapping that was produced is the layout of the mapping words. -/
lemma Produced.eq_layout {maps : List SmMap} (h : Produced v index maps) :
    maps = layout 0 (mappingWords v index) := by
  obtain ⟨n, nmappings, mappings, maxMappings, r, hindex, hmax, hfirst, hrun, hnonneg, rfl⟩ := h
  have hlayout := sizeOfPDO_layout hindex hmax nmappings mappings hfirst r () hrun hnonneg
  exact hlayout.1.maps_eq

/-- Each word has the bit length of the entry it points to. -/
def WordsMatch (ws : List Mapped) : Prop :=
  ∀ m ∈ ws, ∀ d, m.obj = some d → d.bitlength.toNat = m.bits

lemma layout_covers {ws : List Mapped} (hmatch : WordsMatch ws) {offset p : ℕ} {m : SmMap}
    (hm : m ∈ layout offset ws) (hp : m.Covers p) :
    offset ≤ p ∧ p < offset + bitsOf ws := by
  induction ws generalizing offset with
  | nil => exact absurd hm List.not_mem_nil
  | cons w ws ih =>
      have hcons : bitsOf (w :: ws) = w.bits + bitsOf ws := by simp [bitsOf]
      rcases List.mem_cons.mp hm with rfl | hm
      · obtain ⟨d, hd, hrange⟩ := hp
        have hbits := hmatch w List.mem_cons_self d hd
        simp only at hrange
        omega
      · have hrest := ih (fun m hm => hmatch m (List.mem_cons_of_mem _ hm)) hm
        omega

/-- Entries laid out by their own lengths do not overlap. -/
lemma layout_disjoint {ws : List Mapped} (hmatch : WordsMatch ws) (offset : ℕ) :
    (layout offset ws).Pairwise fun m m' => ∀ p, m.Covers p → ¬ m'.Covers p := by
  induction ws generalizing offset with
  | nil => exact List.Pairwise.nil
  | cons w ws ih =>
      have hrest : WordsMatch ws := fun m hm => hmatch m (List.mem_cons_of_mem _ hm)
      refine List.pairwise_cons.mpr ⟨fun m hm p hfirst hp => ?_, ih hrest _⟩
      obtain ⟨d, hd, hrange⟩ := hfirst
      have hbits := hmatch w List.mem_cons_self d hd
      have hlater := layout_covers hrest hm hp
      simp only at hrange
      omega

/-- Process data goes round, for the entries' values `bytes`, the process image `buffer` and the
variables `mem` that are written: packing changes no bit outside the slices, unpacking what was
packed gives every entry its value modulo its length, and packing what was unpacked leaves the
process image as it was. -/
def RoundTrips (maps : List SmMap) (bytes buffer mem : ByteStore) : Prop :=
  ∃ packed, coePdoPack bytes maps buffer = .ok packed ∧
    (∀ p, (∀ m ∈ maps, ¬ m.Covers p) → packed.bit p = buffer.bit p) ∧
    (∃ mem', coePdoUnpack packed maps mem = .ok mem' ∧
      ∀ m ∈ maps, ∀ d, m.obj = some d → ∃ value, coeGetValue bytes d = .ok value ∧
        coeGetValue mem' d = .ok (BitVec.ofNat 64 (value.toNat % 2 ^ d.bitlength.toNat))) ∧
    ∃ mem', coePdoUnpack buffer maps mem = .ok mem' ∧ coePdoPack mem' maps buffer = .ok buffer

/-- **The process data round trip**, with a mapping that `sizeOfPDO` produced from words with the
bit lengths of their entries, and entries of known types with storage of their own. -/
theorem pdo_round_trip {maps : List SmMap} (hproduced : Produced v index maps)
    (hmatch : WordsMatch (mappingWords v index))
    (hobjects : ∀ m ∈ maps, ∀ d, m.obj = some d → ∃ n, d.Exchanged n)
    (hapart : maps.Pairwise fun m m' => ∀ d d' n n', m.obj = some d → m'.obj = some d' →
      d.Exchanged n → d'.Exchanged n' → Apart d n d' n') (bytes buffer mem : ByteStore) :
    RoundTrips maps bytes buffer mem := by
  have hex : Exchangeable maps := by
    refine ⟨hobjects, hapart, ?_⟩
    rw [hproduced.eq_layout]
    exact layout_disjoint hmatch 0
  obtain ⟨packed, mem', hpack, hunpack, hvalues⟩ := unpack_pack hex bytes buffer mem
  obtain ⟨packed', hpack', hout, -⟩ := coePdoPack_bits hex bytes buffer
  have hsame : packed' = packed := Except.ok.inj (hpack'.symm.trans hpack)
  subst hsame
  refine ⟨packed', hpack, hout, ⟨mem', hunpack, fun m hm d hd => ?_⟩, pack_unpack hex buffer mem⟩
  obtain ⟨n, hn⟩ := hobjects m hm d hd
  refine ⟨objValue bytes d n, coeGetValue_eq hn bytes, ?_⟩
  rw [coeGetValue_eq hn, hvalues m hm d n hd hn]
  congr 1
  apply BitVec.eq_of_getLsbD_eq
  intro i hi
  rw [BitVec.getLsbD_and, getLsbD_bitsliceMask hn.short hi, BitVec.getLsbD_ofNat,
    Nat.testBit_mod_two_pow]
  simp [hi, BitVec.getLsbD, Bool.and_comm]

/-- A mapped entry of the object `0x7000` below. -/
def outputEntry (subindex datatype : Word) (bitlength : Dword) (data : ℕ) : Objd :=
  { subindex := subindex, datatype := datatype, bitlength := bitlength, flags := 0x3f, name := [],
    value := 0, data := data }

def flagOutput : Objd := outputEntry 1 dtypeBoolean 1 0x100

def wordOutput : Objd := outputEntry 2 dtypeUnsigned16 16 0x108

def dwordOutput : Objd := outputEntry 3 dtypeUnsigned32 32 0x110

/-- The objects of a device whose RxPDO has a flag, a word right behind it, padding up to the next
boundary, and a double word. -/
def paddedObjects : List Objectlist :=
  [{ index := 0x1600, objtype := 9, maxsub := 4, name := [],
     objdesc := [constEntry 0 dtypeUnsigned8 8 4, constEntry 1 dtypeUnsigned32 32 0x70000101,
       constEntry 2 dtypeUnsigned32 32 0x70000210, constEntry 3 dtypeUnsigned32 32 0x0000000f,
       constEntry 4 dtypeUnsigned32 32 0x70000320] },
   { index := 0x1c12, objtype := otypeArray, maxsub := 1, name := [],
     objdesc := [constEntry 0 dtypeUnsigned8 8 1, constEntry 1 dtypeUnsigned16 16 0x1600] },
   { index := 0x7000, objtype := 9, maxsub := 3, name := [],
     objdesc := [constEntry 0 dtypeUnsigned8 8 3, flagOutput, wordOutput, dwordOutput] }]

/-- The dictionary of this device. -/
def paddedDictionary : Dictionary where
  objects := paddedObjects
  ascending := by decide
  below_sentinel := by decide
  storage := by decide +kernel

/-- The variables of this device. -/
def paddedVariables : Variables := ⟨paddedDictionary.table, fun _ => 0⟩

/-- What its RxPDO maps. -/
def paddedWords : List Mapped :=
  [⟨0x70000101, some flagOutput⟩, ⟨0x70000210, some wordOutput⟩, ⟨0x0000000f, none⟩,
    ⟨0x70000320, some dwordOutput⟩]

/-- Where the mappings are. -/
def paddedMaps : List SmMap :=
  [⟨some flagOutput, 0⟩, ⟨some wordOutput, 1⟩, ⟨none, 17⟩, ⟨some dwordOutput, 32⟩]

lemma paddedVariables_words : mappingWords paddedVariables rxPdoObjidx = paddedWords := by
  decide +kernel

lemma paddedWords_match : WordsMatch paddedWords := by
  intro m hm d hd
  simp only [paddedWords, List.mem_cons, List.not_mem_nil, or_false] at hm
  obtain rfl | rfl | rfl | rfl := hm <;> cases hd <;> rfl

lemma sizeOfPDO_padded : sizeOfPDO rxPdoObjidx 0 [] 14 paddedVariables 8 () =
    .ok ⟨8, 4, paddedMaps⟩ () := by
  rfl

lemma paddedMaps_exchanged {m : SmMap} (hm : m ∈ paddedMaps) {d : Objd} (hd : m.obj = some d) :
    ∃ n, d.Exchanged n := by
  simp only [paddedMaps, List.mem_cons, List.not_mem_nil, or_false] at hm
  obtain rfl | rfl | rfl | rfl := hm <;> cases hd
  · exact ⟨1, by decide, rfl, by decide, by decide⟩
  · exact ⟨2, by decide, rfl, by decide, by decide⟩
  · exact ⟨4, by decide, rfl, by decide, by decide⟩

/-- The outputs of this device go round. -/
theorem pdo_round_trip_example :
    RoundTrips paddedMaps (fun i => .ofNat 8 (0xa5 + i)) (fun _ => 0xff) fun _ => 0 := by
  refine pdo_round_trip (v := paddedVariables)
    ⟨8, 0, [], 14, ⟨8, 4, paddedMaps⟩, .inl rfl, by decide, .inl (by decide), sizeOfPDO_padded,
      by decide, rfl⟩ (paddedVariables_words ▸ paddedWords_match)
    (fun _ hm _ hd => paddedMaps_exchanged hm hd) ?_ _ _ _
  have hstorage : paddedMaps.Pairwise fun m m' => ∀ d ∈ m.obj, ∀ d' ∈ m'.obj,
      d.data + 8 ≤ d'.data := by decide
  refine hstorage.imp fun hdata d d' n n' hd hd' hex _ => .inl ?_
  have hbytes := hex.bytes_le
  have := hdata d hd d' hd'
  omega

/-! ## Mappings that are safe to exchange -/

/-- `ESC_checkSM23` can accept this size of the process data of `index`. -/
def SizeAccepted {σ : Type} (opts : Options) (hal : Hal σ) (index size : Word) : Prop :=
  ∃ k b other state b', state ≠ escPreop ||| escError ∧
    escCheckSM23 opts (if index = rxPdoObjidx then size else other)
      (if index = rxPdoObjidx then other else size) state hal k b = .ok state b'

/-- An entry the packing can work on: it has storage, and if it goes bit by bit its type is
known. -/
def Objd.Supported (d : Objd) : Prop :=
  d.data ≠ 0 ∧ (d.bitlength.toNat ≤ 64 → (valueBytes d.datatype).isSome = true)

/-- Mappings that are safe to pack and unpack, with a process image of `maxSize` bytes once the
size is accepted. -/
structure SafeMapping (accepted : Prop) (maxSize maxMappings size : ℕ) (maps : List SmMap) :
    Prop where
  disjoint : maps.Pairwise fun m m' => ∀ p, m.Covers p → ¬ m'.Covers p
  inside : ∀ m ∈ maps, ∀ p, m.Covers p → p < 8 * size
  buffer : accepted → ∀ m ∈ maps, ∀ p, m.Covers p → p < 8 * maxSize
  count : maps.length ≤ maxMappings
  supported : ∀ m ∈ maps, ∀ d, m.obj = some d → d.Supported

/-- No entry is longer than the room it has: the bits of its own word, and of the words between
it and the next entry of some length. -/
def Room : List Mapped → Prop
  | [] => True
  | m :: ws =>
      (∀ before m' after d d', ws = before ++ m' :: after → m.obj = some d → m'.obj = some d' →
        d.bitlength.toNat ≠ 0 → d'.bitlength.toNat ≠ 0 →
        d.bitlength.toNat ≤ m.bits + bitsOf before) ∧ Room ws

/-- Every entry of some length ends within this many bytes. -/
def EndsWithin (bytes : ℕ) (ws : List Mapped) : Prop :=
  ∀ before m after d, ws = before ++ m :: after → m.obj = some d → d.bitlength.toNat ≠ 0 →
    bitsOf before + d.bitlength.toNat ≤ 8 * bytes

/-- Words whose mapping is safe. -/
structure SafeWords (accepted : Prop) (maxSize : ℕ) (ws : List Mapped) : Prop where
  room : Room ws
  /-- They end within the bytes that the words add up to, as far as 16 bits hold them. -/
  inside : EndsWithin (bits2bytes (bitsOf ws) % 2 ^ 16) ws
  buffer : accepted → EndsWithin maxSize ws
  supported : ∀ m ∈ ws, ∀ d, m.obj = some d → d.Supported

lemma mem_layout {ws : List Mapped} {offset : ℕ} {m : SmMap} :
    m ∈ layout offset ws ↔
      ∃ before w after, ws = before ++ w :: after ∧ m = ⟨w.obj, offset + bitsOf before⟩ := by
  constructor
  · induction ws generalizing offset with
    | nil => exact fun hm => absurd hm List.not_mem_nil
    | cons w ws ih =>
        intro hm
        rcases List.mem_cons.mp hm with rfl | hm
        · exact ⟨[], w, ws, rfl, by simp [bitsOf]⟩
        · obtain ⟨before, w', after, rfl, rfl⟩ := ih hm
          exact ⟨w :: before, w', after, rfl, by simp [bitsOf, Nat.add_assoc]⟩
  · rintro ⟨before, w, after, rfl, rfl⟩
    rw [layout_append]
    exact List.mem_append_right _ List.mem_cons_self

/-- Two slices, one after the other, overlap unless the first ends before the second. -/
lemma covers_disjoint_iff {obj obj' : Option Objd} {offset gap : ℕ} :
    (∀ p, (⟨obj, offset⟩ : SmMap).Covers p → ¬ (⟨obj', offset + gap⟩ : SmMap).Covers p) ↔
      ∀ d d', obj = some d → obj' = some d' → d.bitlength.toNat ≠ 0 → d'.bitlength.toNat ≠ 0 →
        d.bitlength.toNat ≤ gap := by
  constructor
  · intro h d d' hd hd' hlen hlen'
    by_contra hlong
    exact h (offset + gap) ⟨d, hd, by simp only; omega⟩ ⟨d', hd', by simp only; omega⟩
  · rintro h p ⟨d, hd, hrange⟩ ⟨d', hd', hrange'⟩
    have hgap := h d d' hd hd'
    simp only at hrange hrange'
    have hlen : d.bitlength.toNat ≤ gap := hgap (by omega) (by omega)
    omega

/-- Slices do not overlap exactly when no entry is longer than its room. -/
lemma layout_disjoint_iff (ws : List Mapped) (offset : ℕ) :
    ((layout offset ws).Pairwise fun m m' => ∀ p, m.Covers p → ¬ m'.Covers p) ↔ Room ws := by
  induction ws generalizing offset with
  | nil => exact ⟨fun _ => trivial, fun _ => List.Pairwise.nil⟩
  | cons w ws ih =>
      rw [layout, List.pairwise_cons, Room, ih]
      refine and_congr ⟨fun h before m' after d d' hws hd hd' hlen hlen' => ?_, fun h m hm => ?_⟩
        Iff.rfl
      · have hm : (⟨m'.obj, offset + w.bits + bitsOf before⟩ : SmMap) ∈
            layout (offset + w.bits) ws := mem_layout.mpr ⟨before, m', after, hws, rfl⟩
        have hdisjoint := h _ hm
        rw [Nat.add_assoc] at hdisjoint
        exact covers_disjoint_iff.mp hdisjoint d d' hd hd' hlen hlen'
      · obtain ⟨before, m', after, hws, rfl⟩ := mem_layout.mp hm
        rw [Nat.add_assoc]
        exact covers_disjoint_iff.mpr fun d d' hd hd' hlen hlen' =>
          h before m' after d d' hws hd hd' hlen hlen'

/-- Entries with the bit lengths of their words have room. -/
lemma WordsMatch.room {ws : List Mapped} (h : WordsMatch ws) : Room ws := by
  induction ws with
  | nil => trivial
  | cons m ws ih =>
      refine ⟨fun before _ _ d _ _ hd _ _ _ => ?_, ih fun m hm => h m (List.mem_cons_of_mem _ hm)⟩
      rw [h m List.mem_cons_self d hd]
      omega

/-- And they end within any bytes that hold all words. -/
lemma WordsMatch.endsWithin {ws : List Mapped} (h : WordsMatch ws) {bytes : ℕ}
    (hfits : bitsOf ws ≤ 8 * bytes) : EndsWithin bytes ws := by
  rintro before m after d rfl hd -
  rw [h m (List.mem_append_right _ List.mem_cons_self) d hd]
  rw [bitsOf_append] at hfits
  simp only [bitsOf, List.map_cons, List.sum_cons] at hfits ⊢
  omega

/-- Slices lie within some bytes exactly when the entries end within them. -/
lemma layout_within_iff (ws : List Mapped) (bytes : ℕ) :
    (∀ m ∈ layout 0 ws, ∀ p, m.Covers p → p < 8 * bytes) ↔ EndsWithin bytes ws := by
  constructor
  · intro h before m after d hws hd hlen
    have hm : (⟨m.obj, bitsOf before⟩ : SmMap) ∈ layout 0 ws :=
      mem_layout.mpr ⟨before, m, after, hws, by rw [Nat.zero_add]⟩
    have hlast := h _ hm (bitsOf before + d.bitlength.toNat - 1) ⟨d, hd, by simp only; omega⟩
    omega
  · rintro h m hm p ⟨d, hd, hrange⟩
    obtain ⟨before, w, after, hws, rfl⟩ := mem_layout.mp hm
    have hend := h before w after d hws hd
    simp only [Nat.zero_add] at hrange
    have := hend (by omega)
    omega

/-- **A mapping that `sizeOfPDO` does not refuse is safe exactly when its words are**: nothing in
the acceptance relates the bit lengths in the words to the entries, the sum to the process image,
or the entries to the types the packing knows. -/
theorem mapping_safe_iff {σ : Type} (opts : Options) (hal : Hal σ) {nmappings : ℤ}
    {mappings : List SmMap} {r : PdoSize} (maxSize : ℕ)
    (hindex : index = rxPdoObjidx ∨ index = txPdoObjidx) (hmax : 0 < maxMappings)
    (hfirst : nmappings ≤ 0 ∨ ∃ assign, Finds v.table index assign)
    (hrun : sizeOfPDO index nmappings mappings maxMappings v n () = .ok r ())
    (hnonneg : 0 ≤ r.nmappings) :
    SafeMapping (SizeAccepted opts hal index r.size) maxSize maxMappings r.size.toNat
        (r.mappings.take r.nmappings.toNat) ↔
      SafeWords (SizeAccepted opts hal index
        (.ofNat 16 (bits2bytes (bitsOf (mappingWords v index))))) maxSize
        (mappingWords v index) := by
  obtain ⟨hreads, -, hsize, -⟩ :=
    sizeOfPDO_layout hindex hmax nmappings mappings hfirst r () hrun hnonneg
  rw [hreads.maps_eq, hsize, BitVec.toNat_ofNat]
  have hsupported : (∀ m ∈ layout 0 (mappingWords v index), ∀ d, m.obj = some d → d.Supported) ↔
      ∀ m ∈ mappingWords v index, ∀ d, m.obj = some d → d.Supported := by
    constructor
    · intro h m hm d hd
      obtain ⟨before, after, hws⟩ := List.append_of_mem hm
      exact h _ (mem_layout.mpr ⟨before, m, after, hws, rfl⟩) d hd
    · intro h m hm d hd
      obtain ⟨before, w, after, hws, rfl⟩ := mem_layout.mp hm
      exact h w (by rw [hws]; simp) d hd
  constructor
  · intro h
    exact ⟨(layout_disjoint_iff _ 0).mp h.disjoint, (layout_within_iff _ _).mp h.inside,
      fun hacc => (layout_within_iff _ _).mp (h.buffer hacc), hsupported.mp h.supported⟩
  · intro h
    exact ⟨(layout_disjoint_iff _ 0).mpr h.room, (layout_within_iff _ _).mpr h.inside,
      fun hacc => (layout_within_iff _ _).mpr (h.buffer hacc),
      by rw [layout_length]; exact hreads.room, hsupported.mpr h.supported⟩

/-- The mapping with the padding is safe with a process image of nine bytes. -/
theorem mapping_safe_example :
    SafeMapping (SizeAccepted exampleOptions registerFile rxPdoObjidx 8) 9 14 8 paddedMaps := by
  refine (mapping_safe_iff exampleOptions registerFile 9 (.inl rfl) (by decide)
    (.inl (Int.le_refl 0)) sizeOfPDO_padded (by decide)).mpr ?_
  rw [paddedVariables_words]
  constructor
  case room => exact paddedWords_match.room
  case inside => exact paddedWords_match.endsWithin (by decide)
  case buffer => exact fun _ => paddedWords_match.endsWithin (by decide)
  case supported =>
    have hsupported : ∀ m ∈ paddedWords, ∀ d ∈ m.obj,
        d.data ≠ 0 ∧ (d.bitlength.toNat ≤ 64 → (valueBytes d.datatype).isSome = true) := by decide
    exact hsupported

/-- The output byte of the example device. -/
def exampleOutput : Objd := outputEntry 1 dtypeUnsigned8 8 0x100

/-- The example device with a PDO of two words that the master can write. -/
def exampleMappable : Dictionary where
  objects :=
    [{ index := 0x1600, objtype := 9, maxsub := 2, name := [],
       objdesc := [
         { subindex := 0, datatype := dtypeUnsigned8, bitlength := 8, flags := 0x0f, name := [],
           value := 0, data := 0x200 },
         { subindex := 1, datatype := dtypeUnsigned32, bitlength := 32, flags := 0x0f, name := [],
           value := 0, data := 0x204 },
         { subindex := 2, datatype := dtypeUnsigned32, bitlength := 32, flags := 0x0f, name := [],
           value := 0, data := 0x208 }] },
     { index := 0x1c12, objtype := otypeArray, maxsub := 1, name := [],
       objdesc := [constEntry 0 dtypeUnsigned8 8 1, constEntry 1 dtypeUnsigned16 16 0x1600] },
     { index := 0x7000, objtype := 9, maxsub := 1, name := [],
       objdesc := [constEntry 0 dtypeUnsigned8 8 1, exampleOutput] }]
  ascending := by decide
  below_sentinel := by decide
  storage := by decide +kernel

/-- The master has mapped the output byte twice, each time with one bit. -/
def mappedTwice : ByteStore :=
  ((ByteStore.set (fun _ => 0) 0x200 2).setDword 0x204 0x70000101).setDword 0x208 0x70000101

/-- The slices then overlap, and the second leaves the one byte that is returned. -/
theorem mapping_overlaps : ¬ ∀ (dict : Dictionary) (bytes : ByteStore) (n : ℕ) (r : PdoSize),
    sizeOfPDO rxPdoObjidx 0 [] 14 ⟨dict.table, bytes⟩ n () = .ok r () → 0 ≤ r.nmappings →
    SafeMapping (SizeAccepted exampleOptions registerFile rxPdoObjidx r.size) 16 14 r.size.toNat
      (r.mappings.take r.nmappings.toNat) := by
  intro h
  have hrun : sizeOfPDO rxPdoObjidx 0 [] 14 ⟨exampleMappable.table, mappedTwice⟩ 8 () =
      .ok ⟨1, 2, [⟨some exampleOutput, 0⟩, ⟨some exampleOutput, 1⟩]⟩ () := rfl
  have hsafe := h exampleMappable mappedTwice 8 _ hrun (by decide)
  have hoverlap := (List.pairwise_cons.mp hsafe.disjoint).1 ⟨some exampleOutput, 1⟩ (by simp) 1
    ⟨exampleOutput, rfl, by decide⟩
  exact hoverlap ⟨exampleOutput, rfl, by decide⟩

end Soes
