import Soes.Properties.PdoMapping

/-!
# What `sizeOfPDO` says of a mapping

The words of the assignment and mapping objects are the master's: it may have stored any index, any
subindex and any bit length in them.  As long as the counts in front of them are right
(`Objectlist.Counted`), `sizeOfPDO` comes to an end with a verdict: the mapping is taken if every
word points to an entry, or is padding, and there are no more of them than there is room for
(`Acceptable`); otherwise it is refused.  A taken mapping is the layout of its words; a refused one
leaves the layout of the words before the first that cannot be taken, over what was there.
-/

namespace Soes

open Program

variable {v : Variables} {n : ℕ} {maxMappings : ℕ} {index : Word} {o assign : Objectlist}

/-- A mapping that is taken: every word points to an entry, or is padding, and there is room for
all of them. -/
structure Acceptable (v : Variables) (maxMappings : ℕ) (ws : List Mapped) : Prop where
  found : ∀ m ∈ ws, mappedEntry v.table m.value = .ok (some m.obj)
  room : ws.length ≤ maxMappings

/-- The count of an object is right: its loop variable gets past it, and the rows are there. -/
structure Objectlist.Counted (bytes : ByteStore) (o : Objectlist) : Prop where
  short : o.count bytes ≤ 254
  rows : o.count bytes < o.objdesc.length

lemma Acceptable.of_append {ws ws' : List Mapped} (h : Acceptable v maxMappings (ws ++ ws')) :
    Acceptable v maxMappings ws := by
  refine ⟨fun m hm => h.found m (List.mem_append_left _ hm), ?_⟩
  have hroom := h.room
  rw [List.length_append] at hroom
  omega

lemma Reads.acceptable {ws : List Mapped} {offset : ℕ} {maps : List SmMap}
    (h : Reads v maxMappings ws offset maps) : Acceptable v maxMappings ws := ⟨h.found, h.room⟩

/-- `before` are the words in front of the first one that is not taken. -/
structure TakenBefore (v : Variables) (maxMappings : ℕ) (before ws : List Mapped) : Prop where
  taken : Acceptable v maxMappings before
  stops : ∃ m after, ws = before ++ m :: after ∧ ¬ Acceptable v maxMappings (before ++ [m])

/-- The words that `sizeOfPDO` comes to can be looked up. -/
def LookedUp (v : Variables) (maxMappings : ℕ) (ws : List Mapped) : Prop :=
  ∀ before m after, ws = before ++ m :: after → Acceptable v maxMappings before →
    before.length < maxMappings → ∃ r, mappedEntry v.table m.value = .ok r

lemma TakenBefore.append {before ws : List Mapped} (h : TakenBefore v maxMappings before ws)
    (more : List Mapped) : TakenBefore v maxMappings before (ws ++ more) := by
  obtain ⟨htaken, m, after, rfl, hstops⟩ := h
  exact ⟨htaken, m, after ++ more, by simp, hstops⟩

/-- No mapping is taken that has a word that is not. -/
lemma TakenBefore.not_acceptable {before ws : List Mapped}
    (h : TakenBefore v maxMappings before ws) : ¬ Acceptable v maxMappings ws := by
  obtain ⟨-, m, after, rfl, hstops⟩ := h
  intro haccept
  rw [List.append_cons] at haccept
  exact hstops haccept.of_append

/-- What a part of `sizeOfPDO` comes to, when `ws` are the words up to its end. -/
def Judges (v : Variables) (maxMappings : ℕ) (ws : List Mapped)
    (r : Except (List SmMap) (ℕ × List SmMap)) : Prop :=
  (∃ offset maps, r = .ok (offset, maps) ∧ Reads v maxMappings ws offset maps) ∨
    ∃ before, TakenBefore v maxMappings before ws ∧ r = .error (layout 0 before)

lemma byte_le_iff {a b : Byte} : a ≤ b ↔ a.toNat ≤ b.toNat := BitVec.le_def

/-- The next value of a loop variable. -/
lemma byte_succ {c : Byte} {k : ℕ} (hc : c.toNat = k + 1) (hk : k ≤ 253) :
    (c + 1).toNat = k + 1 + 1 := by
  rw [BitVec.toNat_add, hc]
  change (k + 1 + 1) % 256 = k + 1 + 1
  omega

lemma Objectlist.Counted.row {bytes : ByteStore} (h : o.Counted bytes) {i : ℕ}
    (hi : i ≤ o.count bytes) : ∃ d, o.row i = .ok d :=
  ⟨_, row_eq_ok.mpr (List.getElem?_eq_getElem (Nat.lt_of_le_of_lt hi h.rows))⟩

lemma Objectlist.count_eq {bytes : ByteStore} {first : Objd} (h : o.row 0 = .ok first) :
    o.count bytes = (objFetch8 bytes first).toNat := by
  simp [count, row_eq_ok.mp h]

lemma Objectlist.length_rows {bytes : ByteStore} (h : o.Counted bytes) :
    (o.rows (o.count bytes)).length = o.count bytes := by
  have hrows := h.rows
  rw [rows, List.length_take, List.length_drop]
  omega

/-- Rows that are read are among the rows of the count. -/
lemma Objectlist.mem_rows {k count : ℕ} {d : Objd} (h : o.row (k + 1) = .ok d) (hk : k < count) :
    d ∈ o.rows count := by
  rw [rows]
  refine List.mem_of_getElem? (i := k) ?_
  rw [List.getElem?_take_of_lt hk, List.getElem?_drop, Nat.add_comm 1 k]
  exact row_eq_ok.mp h

/-- The words of one PDO: the loop is left with a verdict. -/
lemma sizeOfPDOEntries_judges {maxsub : Byte} (hmax : 0 < maxMappings)
    (hcounted : o.Counted v.bytes)
    (hmaxsub : maxsub.toNat = o.count v.bytes)
    {ws : List Mapped} {offset : ℕ} {maps : List SmMap} (h : Reads v maxMappings ws offset maps)
    (hlookups : LookedUp v maxMappings (ws ++ (o.rows (o.count v.bytes)).map (mapped v)))
    (hbits : offset + 254 * 255 < 2 ^ 32) (hfuel : 254 < n) :
    wp v n (loop (sizeOfPDOEntries o maxsub maxMappings) (1, offset, maps))
      (fun r _ => Judges v maxMappings (ws ++ (o.rows (o.count v.bytes)).map (mapped v)) r) () := by
  have hshort := hcounted.short
  apply wp_loop (fun (s : Byte × ℕ × List SmMap) _ => ∃ k, k ≤ o.count v.bytes ∧
      s.1.toNat = k + 1 ∧ s.2.1 ≤ offset + 255 * k ∧
      Reads v maxMappings (ws ++ (o.rows k).map (mapped v)) s.2.1 s.2.2)
    (fun s _ => 255 - s.1.toNat)
  case hinit =>
    refine ⟨0, Nat.zero_le _, rfl, Nat.le_refl _, ?_⟩
    have hnone : o.rows 0 = [] := List.take_zero
    rw [hnone, List.map_nil, List.append_nil]
    exact h
  case hfuel => exact hfuel
  case hstep =>
    rintro ⟨c, off, ms⟩ ⟨⟩ ⟨k, hk, hc, hoff, hreads⟩
    simp only at hc hoff hreads
    simp only [sizeOfPDOEntries]
    by_cases hpast : k = o.count v.bytes
    · have hle : ¬ c ≤ maxsub := by
        rw [byte_le_iff]
        omega
      rw [if_neg hle, wp_pure, ← hpast]
      exact .inl ⟨off, ms, rfl, hreads⟩
    · have hle : c ≤ maxsub := by
        rw [byte_le_iff]
        omega
      have hlt : k < o.count v.bytes := Nat.lt_of_le_of_ne hk hpast
      obtain ⟨d, hrow⟩ := hcounted.row (i := k + 1) (by omega)
      obtain ⟨rest, hrest⟩ : o.rows (k + 1) <+: o.rows (o.count v.bytes) := by
        rw [Objectlist.rows, Objectlist.rows]
        exact List.take_prefix_take_left hlt
      have hsplit : (o.rows (o.count v.bytes)).map (mapped v) =
          (o.rows k).map (mapped v) ++ mapped v d :: rest.map (mapped v) := by
        rw [← hrest, Objectlist.rows_succ hrow]
        simp
      rw [hsplit, ← List.append_assoc] at hlookups ⊢
      -- the words read so far are those in front of a word that is refused
      have refused (hnot : ¬ Acceptable v maxMappings
          ((ws ++ (o.rows k).map (mapped v)) ++ [mapped v d])) :
          Judges v maxMappings ((ws ++ (o.rows k).map (mapped v)) ++
            mapped v d :: rest.map (mapped v)) (.error ms) :=
        .inr ⟨_, ⟨hreads.acceptable, _, _, rfl, hnot⟩, by rw [hreads.maps_eq]⟩
      rw [if_pos hle, wp_ask_bind, wp_bind, wp_lift, hc]
      refine ⟨d, hrow, ?_⟩
      rw [if_neg (by omega)]
      by_cases hfull : ms.length = maxMappings
      · rw [if_pos hfull, wp_pure]
        refine refused fun haccept => ?_
        have hroom := haccept.room
        rw [hreads.maps_eq, layout_length] at hfull
        rw [List.length_append, hfull, List.length_singleton] at hroom
        omega
      · rw [if_neg hfull, wp_bind, wp_lift]
        have hroom := hreads.acceptable.room
        have hless : (ws ++ (o.rows k).map (mapped v)).length < maxMappings := by
          rw [hreads.maps_eq, layout_length] at hfull
          omega
        obtain ⟨obj, hobj⟩ := hlookups _ _ _ rfl hreads.acceptable hless
        have hvalue : (mapped v d).value = objFetch32 v.bytes d := rfl
        rw [hvalue] at hobj
        refine ⟨obj, hobj, ?_⟩
        cases obj with
        | none =>
            rw [wp_pure]
            refine refused fun haccept => ?_
            have hfound := haccept.found (mapped v d) (by simp)
            rw [hvalue, hobj] at hfound
            cases hfound
        | some obj =>
            rw [wp_pure]
            have hnext := byte_succ hc (by omega)
            have hbyte := (objFetch32 v.bytes d).setWidth 8 |>.isLt
            have hmod : (off + ((objFetch32 v.bytes d).setWidth 8 : Byte).toNat) % 2 ^ 32 =
                off + ((objFetch32 v.bytes d).setWidth 8 : Byte).toNat := by
              apply Nat.mod_eq_of_lt
              omega
            refine ⟨⟨k + 1, hlt, hnext, ?_, ?_⟩, ?_⟩
            · rw [hmod]
              change off + ((objFetch32 v.bytes d).setWidth 8 : Byte).toNat ≤ _
              omega
            · rw [hmod, Objectlist.rows_succ hrow, List.map_append, ← List.append_assoc]
              exact hreads.next hobj hfull
            · rw [hnext]
              omega

/-- The words of the PDOs that some rows assign. -/
lemma pdoWords_concat (v : Variables) (ds : List Objd) (d : Objd) :
    (ds ++ [d]).flatMap (pdoWords v) = ds.flatMap (pdoWords v) ++ pdoWords v d := by
  rw [List.flatMap_append, List.flatMap_singleton]

/-- The words of all PDOs: the loop is left with a verdict. -/
lemma sizeOfPDOAssigned_judges {si : Byte} (hmax : 0 < maxMappings)
    (hcounted : assign.Counted v.bytes) (hsi : si.toNat = assign.count v.bytes)
    (hsearch : ∀ d ∈ assign.rows (assign.count v.bytes),
      ∃ found, sdoFindobject v.table (objFetch16 v.bytes d) = .ok found)
    (hpdos : ∀ d ∈ assign.rows (assign.count v.bytes), ∀ o,
      Finds v.table (objFetch16 v.bytes d) o → o.Counted v.bytes)
    (hlookups : LookedUp v maxMappings ((assign.rows (assign.count v.bytes)).flatMap (pdoWords v)))
    (hfuel : 254 < n) :
    wp v n (loop (sizeOfPDOAssigned assign si maxMappings) (1, 0, []))
      (fun r _ => Judges v maxMappings
        ((assign.rows (assign.count v.bytes)).flatMap (pdoWords v)) r) () := by
  have hshort := hcounted.short
  apply wp_loop (fun (s : Byte × ℕ × List SmMap) _ => ∃ k, k ≤ assign.count v.bytes ∧
      s.1.toNat = k + 1 ∧ s.2.1 ≤ 255 * 254 * k ∧
      Reads v maxMappings ((assign.rows k).flatMap (pdoWords v)) s.2.1 s.2.2)
    (fun s _ => 255 - s.1.toNat)
  case hinit =>
    refine ⟨0, Nat.zero_le _, rfl, Nat.le_refl _, ?_⟩
    have hnone : assign.rows 0 = [] := List.take_zero
    rw [hnone]
    exact ⟨rfl, rfl, fun m hm => absurd hm List.not_mem_nil, Nat.zero_le _⟩
  case hfuel => exact hfuel
  case hstep =>
    rintro ⟨sic, off, ms⟩ ⟨⟩ ⟨k, hk, hsic, hoff, hreads⟩
    simp only at hsic hoff hreads
    simp only [sizeOfPDOAssigned]
    by_cases hpast : k = assign.count v.bytes
    · have hle : ¬ sic ≤ si := by
        rw [byte_le_iff]
        omega
      rw [if_neg hle, wp_pure, ← hpast]
      exact .inl ⟨off, ms, rfl, hreads⟩
    have hle : sic ≤ si := by
      rw [byte_le_iff]
      omega
    have hlt : k < assign.count v.bytes := Nat.lt_of_le_of_ne hk hpast
    obtain ⟨d, hrow⟩ := hcounted.row (i := k + 1) (by omega)
    have hmem := Objectlist.mem_rows hrow hlt
    have hprefix : assign.rows (k + 1) <+: assign.rows (assign.count v.bytes) := by
      rw [Objectlist.rows, Objectlist.rows]
      exact List.take_prefix_take_left hlt
    obtain ⟨rest, hrest⟩ := hprefix
    have hsplit : (assign.rows (assign.count v.bytes)).flatMap (pdoWords v) =
        ((assign.rows k).flatMap (pdoWords v) ++ pdoWords v d) ++ rest.flatMap (pdoWords v) := by
      rw [← hrest, Objectlist.rows_succ hrow, List.flatMap_append, pdoWords_concat]
    have hnext := byte_succ hsic (by omega)
    rw [if_pos hle, wp_ask_bind, wp_bind, wp_lift, hsic]
    refine ⟨d, hrow, ?_⟩
    rw [wp_bind, wp_lift]
    obtain ⟨found, hfound⟩ := hsearch d hmem
    refine ⟨found, hfound, ?_⟩
    cases found with
    | none =>
        rw [wp_pure]
        refine ⟨⟨k + 1, hlt, hnext, ?_, ?_⟩, ?_⟩
        · change off ≤ _
          omega
        · rw [Objectlist.rows_succ hrow, pdoWords_concat, pdoWords_of_none hfound, List.append_nil]
          exact hreads
        · rw [hnext]
          omega
    | some nidx =>
        obtain ⟨o, ho⟩ := objectAt_isOk hfound
        have hfinds : Finds v.table (objFetch16 v.bytes d) o := ⟨nidx, hfound, ho⟩
        have hpdo := hpdos d hmem o hfinds
        obtain ⟨first, hfirst⟩ := hpdo.row (Nat.zero_le _)
        have hcount : o.count v.bytes = _ := Objectlist.count_eq hfirst
        have hwords : pdoWords v d = (o.rows (o.count v.bytes)).map (mapped v) := by
          rw [pdoWords_of_finds hfinds hfirst, hcount]
        have hentries := hpdo.short
        rw [wp_bind, wp_lift]
        refine ⟨o, ho, ?_⟩
        rw [wp_bind, wp_lift]
        refine ⟨first, hfirst, ?_⟩
        rw [wp_bind]
        have hlook : LookedUp v maxMappings ((assign.rows k).flatMap (pdoWords v) ++
            (o.rows (o.count v.bytes)).map (mapped v)) := by
          intro before m after hbefore
          rw [← hwords] at hbefore
          refine hlookups before m (after ++ rest.flatMap (pdoWords v)) ?_
          rw [hsplit, hbefore]
          simp
        refine (sizeOfPDOEntries_judges hmax hpdo hcount.symm hreads hlook (by omega) hfuel).mono
          fun r _ hjudges => ?_
        rw [← hwords] at hjudges
        obtain ⟨off', ms', rfl, hreads'⟩ | ⟨before, hbefore, rfl⟩ := hjudges
        · rw [wp_pure]
          have hbits := bitsOf_le (pdoWords v d)
          have hlength : (pdoWords v d).length = o.count v.bytes := by
            rw [hwords, List.length_map, Objectlist.length_rows hpdo]
          refine ⟨⟨k + 1, hlt, hnext, ?_, ?_⟩, ?_⟩
          · change off' ≤ _
            rw [hreads'.offset_eq, bitsOf_append, ← hreads.offset_eq]
            omega
          · rw [Objectlist.rows_succ hrow, pdoWords_concat]
            exact hreads'
          · rw [hnext]
            omega
        · rw [wp_pure, hsplit]
          exact .inr ⟨before, hbefore.append _, rfl⟩

/-- The verdict of `sizeOfPDO`, if every assigned index can be searched for. -/
lemma sizeOfPDO_judges (hindex : index = rxPdoObjidx ∨ index = txPdoObjidx)
    (hassign : Finds v.table index assign) (hmax : 0 < maxMappings)
    (hcounted : assign.Counted v.bytes)
    (hsearch : ∀ d ∈ assign.rows (assign.count v.bytes),
      ∃ found, sdoFindobject v.table (objFetch16 v.bytes d) = .ok found)
    (hpdos : ∀ d ∈ assign.rows (assign.count v.bytes), ∀ o,
      Finds v.table (objFetch16 v.bytes d) o → o.Counted v.bytes)
    (hlookups : LookedUp v maxMappings (mappingWords v index))
    (hfuel : 254 < n) (nmappings : ℤ) (mappings : List SmMap) :
    ∃ r, sizeOfPDO index nmappings mappings maxMappings v n () = .ok r () ∧
      (Acceptable v maxMappings (mappingWords v index) →
        r = ⟨.ofNat 16 (bits2bytes (bitsOf (mappingWords v index))), (mappingWords v index).length,
          layout 0 (mappingWords v index)⟩) ∧
      (¬ Acceptable v maxMappings (mappingWords v index) →
        ∃ before, TakenBefore v maxMappings before (mappingWords v index) ∧
          r = ⟨0, -1, layout 0 before ++ mappings.drop before.length⟩) := by
  have hboth : ¬ (index ≠ rxPdoObjidx ∧ index ≠ txPdoObjidx) := by
    rintro ⟨hrx, htx⟩
    rcases hindex with h | h
    · exact hrx h
    · exact htx h
  have hwords : mappingWords v index =
      (assign.rows (assign.count v.bytes)).flatMap (pdoWords v) := by
    simp [mappingWords, hassign.findObject_eq]
  obtain ⟨nidx, hfind, ho⟩ := hassign
  obtain ⟨first, hfirst⟩ := hcounted.row (Nat.zero_le _)
  have hcount : assign.count v.bytes = _ := Objectlist.count_eq hfirst
  rw [hwords] at hlookups
  have hends : wp v n (sizeOfPDO index nmappings mappings maxMappings) (fun r _ =>
      (Acceptable v maxMappings (mappingWords v index) →
        r = ⟨.ofNat 16 (bits2bytes (bitsOf (mappingWords v index))), (mappingWords v index).length,
          layout 0 (mappingWords v index)⟩) ∧
      (¬ Acceptable v maxMappings (mappingWords v index) →
        ∃ before, TakenBefore v maxMappings before (mappingWords v index) ∧
          r = ⟨0, -1, layout 0 before ++ mappings.drop before.length⟩)) () := by
    rw [sizeOfPDO, if_neg hboth, wp_ask_bind, wp_bind, wp_lift]
    refine ⟨some nidx, hfind, ?_⟩
    rw [wp_bind, wp_lift]
    refine ⟨assign, ho, ?_⟩
    rw [wp_bind, wp_lift]
    refine ⟨first, hfirst, ?_⟩
    rw [wp_bind]
    refine (sizeOfPDOAssigned_judges hmax hcounted hcount.symm hsearch hpdos hlookups hfuel).mono
      fun r _ hjudges => ?_
    rw [← hwords] at hjudges
    obtain ⟨off, ms, rfl, hreads⟩ | ⟨before, hbefore, rfl⟩ := hjudges
    · rw [wp_pure]
      refine ⟨fun _ => ?_, fun hnot => (hnot hreads.acceptable).elim⟩
      rw [if_neg (by omega), hreads.offset_eq, hreads.maps_eq, layout_length]
    · rw [wp_pure]
      refine ⟨fun haccept => (hbefore.not_acceptable haccept).elim, fun _ => ⟨before, hbefore, ?_⟩⟩
      rw [layout_length]
  obtain ⟨r, ⟨⟩, hrun, hverdict⟩ := hends
  exact ⟨r, hrun, hverdict⟩

/-- **`sizeOfPDO` judges every mapping whose words can be looked up**, under counts that are right:
it comes to an end within 255 rounds of a loop and reads no row that is not there, takes the mapping
exactly if it is acceptable, as the layout of its words and with the size of them all, and otherwise
refuses it, with the words in front of the first that is not taken laid out over the mapping of
before. -/
theorem mapping_verdict {dict : Dictionary} (htable : v.table = dict.table)
    (hindex : index = rxPdoObjidx ∨ index = txPdoObjidx) (hassign : Finds v.table index assign)
    (hmax : 0 < maxMappings) (hcounted : assign.Counted v.bytes)
    (hpdos : ∀ d ∈ assign.rows (assign.count v.bytes), ∀ o,
      Finds v.table (objFetch16 v.bytes d) o → o.Counted v.bytes)
    (hlookups : LookedUp v maxMappings (mappingWords v index))
    (hfuel : 254 < n) (nmappings : ℤ) (mappings : List SmMap) :
    ∃ r, sizeOfPDO index nmappings mappings maxMappings v n () = .ok r () ∧
      (Acceptable v maxMappings (mappingWords v index) →
        r = ⟨.ofNat 16 (bits2bytes (bitsOf (mappingWords v index))), (mappingWords v index).length,
          layout 0 (mappingWords v index)⟩) ∧
      (¬ Acceptable v maxMappings (mappingWords v index) →
        ∃ before, TakenBefore v maxMappings before (mappingWords v index) ∧
          r = ⟨0, -1, layout 0 before ++ mappings.drop before.length⟩) := by
  have hsearch : ∀ d ∈ assign.rows (assign.count v.bytes),
      ∃ found, sdoFindobject v.table (objFetch16 v.bytes d) = .ok found := by
    intro d _
    rw [htable]
    exact sdoFindobject_isOk dict _
  exact sizeOfPDO_judges hindex hassign hmax hcounted hsearch hpdos hlookups hfuel nmappings
    mappings

/-- With room for no more than its four words the mapping with the padding is taken, and with room
for three it is refused, when the first three have been written. -/
theorem mapping_verdict_example :
    sizeOfPDO rxPdoObjidx 0 [] 4 paddedVariables 255 () = .ok ⟨8, 4, paddedMaps⟩ () ∧
      sizeOfPDO rxPdoObjidx 0 [] 3 paddedVariables 255 () =
        .ok ⟨0, -1, paddedMaps.take 3⟩ () := by
  have hassign : Finds paddedVariables.table rxPdoObjidx (paddedObjects.getD 1 default) :=
    ⟨1, by decide, rfl⟩
  have hpdo : Finds paddedVariables.table 0x1600 (paddedObjects.getD 0 default) :=
    ⟨0, by decide, rfl⟩
  have hrows : (paddedObjects.getD 1 default).rows
      ((paddedObjects.getD 1 default).count paddedVariables.bytes) =
        [constEntry 1 dtypeUnsigned16 16 0x1600] := by decide
  have hpdos : ∀ d ∈ (paddedObjects.getD 1 default).rows
      ((paddedObjects.getD 1 default).count paddedVariables.bytes), ∀ o,
      Finds paddedVariables.table (objFetch16 paddedVariables.bytes d) o →
        o.Counted paddedVariables.bytes := by
    intro d hd o ho
    rw [hrows] at hd
    rw [List.mem_singleton.mp hd] at ho
    rw [ho.unique hpdo]
    exact ⟨by decide, by decide⟩
  have hfound : ∀ m ∈ paddedWords,
      mappedEntry paddedVariables.table m.value = .ok (some m.obj) := by
    intro m hm
    simp only [paddedWords, List.mem_cons, List.not_mem_nil, or_false] at hm
    obtain rfl | rfl | rfl | rfl := hm <;> decide +kernel
  have hlookups (room : ℕ) :
      LookedUp paddedVariables room (mappingWords paddedVariables rxPdoObjidx) := by
    rw [paddedVariables_words]
    intro before m after hbefore _ _
    exact ⟨_, hfound m (hbefore ▸ List.mem_append_right _ List.mem_cons_self)⟩
  have verdict (room : ℕ) (hroom : 0 < room) := @mapping_verdict paddedVariables 255 room
    rxPdoObjidx _ paddedDictionary rfl (.inl rfl) hassign hroom ⟨by decide, by decide⟩ hpdos
    (hlookups room) (by decide) 0 []
  simp only [paddedVariables_words] at verdict
  constructor
  · obtain ⟨r, hrun, htaken, -⟩ := verdict 4 (by decide)
    rw [hrun, htaken ⟨hfound, Nat.le_refl _⟩]
    rfl
  · obtain ⟨r, hrun, -, hrefused⟩ := verdict 3 (by decide)
    obtain ⟨before, ⟨htaken, m, after, hwords, hstops⟩, rfl⟩ :=
      hrefused fun haccept => absurd haccept.room (by decide)
    -- every word is found, so the room ends in front of the word that is not taken
    have hlong : 3 ≤ before.length := by
      by_contra hshort
      refine hstops ⟨fun m' hm => hfound m' ?_, ?_⟩
      · rw [hwords, List.append_cons]
        exact List.mem_append_left _ hm
      · rw [List.length_append, List.length_singleton]
        omega
    have hlength := htaken.room
    have hbefore : before = paddedWords.take 3 := by
      rw [hwords, List.take_append_of_le_length hlong, List.take_of_length_le hlength]
    rw [hrun, hbefore]
    rfl

end Soes
