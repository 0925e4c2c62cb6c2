import Mathlib.Data.List.Forall2
import Soes.Properties.GeneratedTables
import Soes.Properties.MappingEnds

/-!
# The process image of a generated device

The generator states the process image twice: in the ESI, which a master configures itself by, and
in the mapping and assignment objects of the object list, which `sizeOfPDO` reads when the slave is
asked for SAFEOP.  The two agree (`generated_image`).  `sizeOfPDO` comes to an end on the compiled
table and refuses nothing, its size is the one that the options and the ESI have, and each of its
mappings is the variable of an entry of the ESI, at the bit offset at which the master has it.

The names of the types in the ESI follow the data types of the descriptors; their lengths do too.
-/

namespace Soes.GenOd

open Program

variable {cfg : Cfg} {out : Output} {objs : List Object} {addr : Place → ℕ} {bytes : ByteStore}
  {rxBytes txBytes : ℕ}

/-! ## What the ESI says -/

/-- The descriptor of an entry that the description names, `none` if there is no such entry. -/
def slotOf (objs : List Object) (addr : Place → ℕ) (index sub : ℕ) : Option Objd :=
  (entryOf objs index sub).map fun p => (p.1.subRow p.2).objd addr

/-- The entries of the PDOs of a SyncManager. -/
def entriesOfEsi (pdos : List EsiPdo) : List EsiEntry := pdos.flatMap EsiPdo.entries

/-- The bits of a list of entries. -/
def bitsOfEsi (entries : List EsiEntry) : ℕ := (entries.map EsiEntry.bitLen).sum

/-- The image that a master lays out by the ESI, from a bit offset on, with the descriptors of
the entries. -/
def esiLayout (objs : List Object) (addr : Place → ℕ) : ℕ → List EsiEntry → List SmMap
  | _, [] => []
  | offset, e :: rest =>
      ⟨slotOf objs addr e.index e.sub, offset⟩ :: esiLayout objs addr (offset + e.bitLen) rest

/-- An entry of the ESI says what its descriptor says: the length, and the type by its name.
Padding has no descriptor. -/
def EsiEntry.Describes (e : EsiEntry) (slot : Option Objd) : Prop :=
  match e.described with
  | none => slot = none
  | some (_, type) => ∃ d t, slot = some d ∧ d.bitlength.toNat = e.bitLen ∧
      d.datatype = t.dtype ∧ Ty.esi t = some type

/-! ## Mapping words -/

lemma mappingWord_eq {e : MapEntry} (hsub : e.sub ≤ 255) (hbits : e.bits ≤ 255) :
    mappingWord e = e.index * 65536 + e.sub * 256 + e.bits := by
  have hlow : e.sub <<< 8 < 2 ^ 16 := by
    rw [Nat.shiftLeft_eq]
    omega
  have hhigh : e.index <<< 16 ||| e.sub <<< 8 = (e.index * 256 + e.sub) <<< 8 := by
    rw [← Nat.shiftLeft_add_eq_or_of_lt hlow, Nat.shiftLeft_eq, Nat.shiftLeft_eq, Nat.shiftLeft_eq]
    omega
  have hbyte : e.bits < 2 ^ 8 := by omega
  rw [mappingWord, hhigh, ← Nat.shiftLeft_add_eq_or_of_lt hbyte, Nat.shiftLeft_eq]
  omega

/-- The word of an entry, and the entry it is to lead to. -/
def MapEntry.mapped (objs : List Object) (addr : Place → ℕ) (e : MapEntry) : Mapped where
  value := .ofNat 32 (mappingWord e)
  obj := slotOf objs addr e.index e.sub

/-- The parts of a mapping word. -/
lemma mapped_parts (objs : List Object) (addr : Place → ℕ) {e : MapEntry}
    (hindex : e.index < 2 ^ 16) (hsub : e.sub ≤ 255)
    (hbits : e.bits ≤ 255) :
    ((e.mapped objs addr).value >>> 16).setWidth 16 = BitVec.ofNat 16 e.index ∧
      ((e.mapped objs addr).value >>> 8).setWidth 8 = BitVec.ofNat 8 e.sub ∧
      (e.mapped objs addr).bits = e.bits := by
  have hnat : (e.mapped objs addr).value.toNat = e.index * 65536 + e.sub * 256 + e.bits := by
    change (BitVec.ofNat 32 (mappingWord e)).toNat = _
    rw [mappingWord_eq hsub hbits, BitVec.toNat_ofNat]
    omega
  refine ⟨?_, ?_, ?_⟩
  · apply BitVec.eq_of_toNat_eq
    rw [BitVec.toNat_setWidth, BitVec.toNat_ushiftRight, Nat.shiftRight_eq_div_pow, hnat,
      BitVec.toNat_ofNat]
    omega
  · apply BitVec.eq_of_toNat_eq
    rw [BitVec.toNat_setWidth, BitVec.toNat_ushiftRight, Nat.shiftRight_eq_div_pow, hnat,
      BitVec.toNat_ofNat]
    omega
  · rw [Mapped.bits, BitVec.toNat_setWidth, hnat]
    omega

/-- No entry has index 0. -/
lemma slotOf_zero (hpos : ∀ o ∈ objs, 0 < o.index) (sub : ℕ) : slotOf objs addr 0 sub = none := by
  rw [slotOf, Option.map_eq_none_iff]
  cases hentry : entryOf objs 0 sub with
  | none => rfl
  | some p =>
      obtain ⟨o, s⟩ := p
      obtain ⟨ho, hindex, -, -⟩ := entryOf_eq_some hentry
      have hlt := hpos o ho
      omega

/-- A mapping word leads to the entry it is made of. -/
lemma mappedEntry_generated (h : Generates cfg out rxBytes txBytes) (hfits : Fits out) {p : Pdo}
    (hp : p ∈ out.rx ++ out.tx) {e : MapEntry} (he : e ∈ p.entries)
    (hresolved : e.Resolved out.objects) :
    mappedEntry (out.table addr) (e.mapped out.objects addr).value =
        .ok (some (slotOf out.objects addr e.index e.sub)) ∧
      (e.mapped out.objects addr).bits = e.bits := by
  obtain ⟨hsub, hbits⟩ := hfits.entry p hp e he
  cases hresolved with
  | padding hindex hzero htype =>
      have hlt : e.index < 2 ^ 16 := by omega
      obtain ⟨hhigh, hmiddle, hlow⟩ := mapped_parts out.objects addr hlt hsub hbits
      refine ⟨?_, hlow⟩
      simp only [mappedEntry]
      rw [hhigh, hmiddle, hindex, hzero, slotOf_zero hfits.index_pos, if_pos ⟨rfl, rfl⟩]
      rfl
  | entry o s hentry hlength htype =>
      obtain ⟨ho, hindex, hs, hname⟩ := entryOf_eq_some hentry
      obtain ⟨r, hr, hrow⟩ := (emitObjectlist_tabulates h.objectlist).object o ho
      have hrindex : r.index = e.index := by
        obtain ⟨_, -, hri, -, -⟩ := objectRow_eq_ok hrow
        rw [hri, hindex]
      have hlt := hfits.index_lt r hr
      have hpos := hfits.index_pos o ho
      have hlt16 : e.index < 2 ^ 16 := by omega
      obtain ⟨hhigh, hmiddle, hlow⟩ :=
        mapped_parts out.objects addr hlt16 hsub hbits
      refine ⟨?_, hlow⟩
      have hfound := row_found addr h hfits hr
      rw [hrindex] at hfound
      obtain ⟨nidx, hfind, hat⟩ := hfound
      have hrecord : o.isRecord = true → o.Numbered ∧ s.sub ≠ 0 := by
        intro hrec
        rw [hname]
        exact hfits.mapped p hp e he o ho hindex hrec
      obtain ⟨-, hfindsub, hsubrow⟩ := sub_found addr h ho hs hrow hrecord
      rw [hname] at hfindsub hsubrow
      have hreal : ¬ (BitVec.ofNat 16 e.index = 0 ∧ BitVec.ofNat 8 e.sub = 0) := by
        rintro ⟨hzero, -⟩
        have hnat := congrArg BitVec.toNat hzero
        rw [BitVec.toNat_ofNat] at hnat
        change e.index % 2 ^ 16 = 0 at hnat
        omega
      simp only [mappedEntry]
      rw [hhigh, hmiddle, if_neg hreal, hfind]
      apply except_bind_eq_ok.mpr
      refine ⟨some nidx, rfl, ?_⟩
      apply except_bind_eq_ok.mpr
      refine ⟨r.objectlist addr, hat, ?_⟩
      apply except_bind_eq_ok.mpr
      refine ⟨some e.sub, hfindsub, ?_⟩
      apply except_map_eq_ok.mpr
      refine ⟨_, hsubrow, ?_⟩
      rw [slotOf, hentry]
      rfl

/-! ## The emitted objects -/

lemma mappingRows_get {entries : List MapEntry} {n i : ℕ} {e : MapEntry}
    (h : entries[i]? = some e) : (mappingRows n entries)[i]? =
      some (constRow (n + i) dtypeUnsigned32 32 e.name (mappingWord e)) := by
  induction entries generalizing n i with
  | nil => simp at h
  | cons e' entries ih =>
      cases i with
      | zero =>
          cases h
          rfl
      | succ i =>
          rw [List.getElem?_cons_succ] at h
          rw [mappingRows, List.getElem?_cons_succ, ih h, Nat.add_right_comm n 1 i]
          rfl

lemma assignRows_get {pdos : List Pdo} {n i : ℕ} {p : Pdo} (h : pdos[i]? = some p) :
    (assignRows n pdos)[i]? = some (constRow (n + i) dtypeUnsigned16 16
      ("Assigned PDO " ++ hex4 p.index) p.index) := by
  induction pdos generalizing n i with
  | nil => simp at h
  | cons p' pdos ih =>
      cases i with
      | zero =>
          cases h
          rfl
      | succ i =>
          rw [List.getElem?_cons_succ] at h
          rw [assignRows, List.getElem?_cons_succ, ih h, Nat.add_right_comm n 1 i]
          rfl

/-- The descriptor of a constant. -/
lemma constRow_fetch (subindex : ℕ) (datatype : Word) (bits : ℕ) (name : String) (value : ℕ) :
    objFetch32 bytes ((constRow subindex datatype bits name value).objd addr) = .ofNat 32 value ∧
      objFetch16 bytes ((constRow subindex datatype bits name value).objd addr) =
        .ofNat 16 value ∧
      objFetch8 bytes ((constRow subindex datatype bits name value).objd addr) =
        .ofNat 8 value := by
  have hvalue : ((constRow subindex datatype bits name value).objd addr).value = .ofNat 32 value :=
    BitVec.ofInt_natCast 32 value
  have hdata : ¬ ((constRow subindex datatype bits name value).objd addr).data ≠ 0 :=
    fun hne => hne rfl
  rw [objFetch32, objFetch16, objFetch8, if_neg hdata, if_neg hdata, if_neg hdata, hvalue]
  refine ⟨rfl, ?_, ?_⟩
  · apply BitVec.eq_of_toNat_eq
    rw [BitVec.toNat_setWidth, BitVec.toNat_ofNat, BitVec.toNat_ofNat]
    omega
  · apply BitVec.eq_of_toNat_eq
    rw [BitVec.toNat_setWidth, BitVec.toNat_ofNat, BitVec.toNat_ofNat]
    omega

/-- A mapping object lists the words of its PDO. -/
lemma pdoRow_lists (h : Generates cfg out rxBytes txBytes) (hfits : Fits out) {p : Pdo}
    (hp : p ∈ out.rx ++ out.tx) (hresolved : p.Resolved out.objects) :
    ((pdoRow p).objectlist addr).ListsWords ⟨out.table addr, bytes⟩
      (p.entries.map (MapEntry.mapped out.objects addr)) := by
  have hlength := hfits.entries p hp
  constructor
  case count =>
    refine ⟨(countRow p.name p.entries.length).objd addr, rfl, ?_⟩
    rw [countRow, (constRow_fetch 0 dtypeUnsigned8 8 p.name p.entries.length).2.2,
      List.length_map, BitVec.toNat_ofNat]
    omega
  case short =>
    rw [List.length_map]
    exact hlength
  case row =>
    intro i m hm
    rw [List.getElem?_map, Option.map_eq_some_iff] at hm
    obtain ⟨e, he, rfl⟩ := hm
    refine ⟨(constRow (1 + i) dtypeUnsigned32 32 e.name (mappingWord e)).objd addr, ?_, ?_⟩
    · rw [row_eq_ok]
      change ((pdoRow p).rows.map (Row.objd addr))[i + 1]? = _
      rw [pdoRow, List.map_cons, List.getElem?_cons_succ, List.getElem?_map, mappingRows_get he]
      rfl
    · exact (constRow_fetch (1 + i) dtypeUnsigned32 32 e.name (mappingWord e)).1
  case found =>
    intro m hm
    obtain ⟨e, he, rfl⟩ := List.mem_map.mp hm
    exact (mappedEntry_generated h hfits hp he (hresolved.entry e he)).1

/-- The words of the PDOs of a SyncManager. -/
def pdoMapped (objs : List Object) (addr : Place → ℕ) (pdos : List Pdo) : List (List Mapped) :=
  pdos.map fun p => p.entries.map (MapEntry.mapped objs addr)

/-- An assignment object assigns the PDOs. -/
lemma assignRow_assigns (h : Generates cfg out rxBytes txBytes) (hfits : Fits out) {index : ℕ}
    {what : String} {pdos : List Pdo} (hpdos : ∀ p ∈ pdos, p ∈ out.rx ++ out.tx)
    (hresolved : ∀ p ∈ pdos, p.Resolved out.objects) (hshort : pdos.length ≤ 254) :
    ((assignRow index what pdos).objectlist addr).AssignsPdos ⟨out.table addr, bytes⟩
      (pdoMapped out.objects addr pdos) := by
  constructor
  case count =>
    refine ⟨(countRow what pdos.length).objd addr, rfl, ?_⟩
    rw [countRow, (constRow_fetch 0 dtypeUnsigned8 8 what pdos.length).2.2, pdoMapped,
      List.length_map, BitVec.toNat_ofNat]
    omega
  case short =>
    rw [pdoMapped, List.length_map]
    exact hshort
  case row =>
    intro i ws hws
    rw [pdoMapped, List.getElem?_map, Option.map_eq_some_iff] at hws
    obtain ⟨p, hp, rfl⟩ := hws
    have hmem := hpdos p (List.mem_of_getElem? hp)
    have hfetch := (@constRow_fetch addr bytes (1 + i) dtypeUnsigned16 16
      ("Assigned PDO " ++ hex4 p.index) p.index).2.1
    have hfound := row_found addr h hfits ((emitObjectlist_tabulates h.objectlist).pdo p hmem)
    refine ⟨(constRow (1 + i) dtypeUnsigned16 16 ("Assigned PDO " ++ hex4 p.index) p.index).objd
      addr,
      (pdoRow p).objectlist addr, ?_, ?_, ?_⟩
    · rw [row_eq_ok]
      change ((assignRow index what pdos).rows.map (Row.objd addr))[i + 1]? = _
      rw [assignRow, List.map_cons, List.getElem?_cons_succ, List.getElem?_map, assignRows_get hp]
      rfl
    · rw [hfetch]
      exact hfound
    · exact pdoRow_lists h hfits hmem (hresolved p (List.mem_of_getElem? hp))

/-! ## The ESI and the mapping -/

/-- An entry of the ESI is the entry of the PDO. -/
structure EsiEntry.Restates (e : EsiEntry) (m : MapEntry) : Prop where
  index : e.index = m.index
  sub : e.sub = m.sub
  bitLen : e.bitLen = m.bits
  padding : m.index = 0 → e.described = none
  typed : m.index ≠ 0 → ∃ type, m.type.bind Ty.esi = some type ∧
    e.described = some (m.name, type)

lemma esiEntry_restates {m : MapEntry} {e : EsiEntry} (h : esiEntry m = .ok e) : e.Restates m := by
  rw [esiEntry] at h
  split at h
  case isTrue hzero =>
    cases h
    exact ⟨rfl, rfl, rfl, fun _ => rfl, fun hne => absurd hzero hne⟩
  case isFalse hne =>
    cases htype : m.type.bind Ty.esi with
    | none =>
        rw [htype] at h
        cases h
    | some type =>
        rw [htype] at h
        cases h
        exact ⟨rfl, rfl, rfl, fun hzero => absurd hzero hne, fun _ => ⟨type, htype, rfl⟩⟩

lemma forall₂_turn {α β : Type} {R : α → β → Prop} {S : β → α → Prop} {xs : List α} {ys : List β}
    (h : List.Forall₂ R xs ys) (himp : ∀ x y, R x y → S y x) : List.Forall₂ S ys xs := by
  induction h with
  | nil => exact .nil
  | cons hxy _ ih => exact .cons (himp _ _ hxy) ih

/-- The entries of the ESI restate those of the PDOs, in order. -/
lemma esiPdos_restate {pdos : List Pdo} {esi : List EsiPdo} (h : pdos.mapM esiPdo = .ok esi) :
    List.Forall₂ EsiEntry.Restates (entriesOfEsi esi) (entriesOfPdos pdos) := by
  have hpdos := forall₂_of_mapM h
  clear h
  induction hpdos with
  | nil => exact .nil
  | @cons p e pdos esi hp _ ih =>
      rw [esiPdo] at hp
      obtain ⟨entries, hentries, hp⟩ := except_bind_eq_ok.mp hp
      cases hp
      have hfirst : List.Forall₂ EsiEntry.Restates entries p.entries :=
        forall₂_turn (forall₂_of_mapM hentries) fun m e hm => esiEntry_restates hm
      rw [entriesOfEsi, List.flatMap_cons, entriesOfPdos, List.flatMap_cons]
      exact List.rel_append hfirst ih

/-- Laid out by the words or by the ESI, the mappings are the same. -/
lemma layout_eq_esiLayout {es : List EsiEntry} {ms : List MapEntry}
    (h : List.Forall₂ EsiEntry.Restates es ms)
    (hbits : ∀ m ∈ ms, (m.mapped objs addr).bits = m.bits) (offset : ℕ) :
    layout offset (ms.map (MapEntry.mapped objs addr)) = esiLayout objs addr offset es := by
  induction h generalizing offset with
  | nil => rfl
  | @cons e m es ms hfirst _ ih =>
      have hm := hbits m List.mem_cons_self
      rw [List.map_cons, layout, esiLayout, hm, hfirst.index, hfirst.sub, hfirst.bitLen,
        ih fun m' hm' => hbits m' (List.mem_cons_of_mem _ hm')]
      rfl

lemma bitsOf_mapped {ms : List MapEntry}
    (hbits : ∀ m ∈ ms, (m.mapped objs addr).bits = m.bits) :
    bitsOf (ms.map (MapEntry.mapped objs addr)) = bitsOfEntries ms := by
  rw [bitsOf, bitsOfEntries, List.map_map]
  congr 1
  exact List.map_congr_left hbits

lemma bitsOfEsi_eq {es : List EsiEntry} {ms : List MapEntry}
    (h : List.Forall₂ EsiEntry.Restates es ms) : bitsOfEsi es = bitsOfEntries ms := by
  induction h with
  | nil => rfl
  | cons hfirst _ ih =>
      rw [bitsOfEsi, bitsOfEntries, List.map_cons, List.map_cons, List.sum_cons, List.sum_cons,
        hfirst.bitLen, ← bitsOfEsi, ← bitsOfEntries, ih]

/-- The slave has the image of the ESI: `sizeOfPDO` of the compiled table refuses nothing, its
size is that of the options and of the ESI, its mappings are the ESI's, and the ESI says of every
entry what its descriptor says. -/
structure SameImage (objs : List Object) (addr : Place → ℕ) (table : List Objectlist)
    (index : Word) (maxMappings maxSize : ℕ) (pdos : List EsiPdo) : Prop where
  /-- What `sizeOfPDO` leaves, whatever the memory holds and whatever it is given. -/
  run : ∀ bytes nmappings mappings n, 255 ≤ n →
    sizeOfPDO index nmappings mappings maxMappings ⟨table, bytes⟩ n () =
      .ok ⟨.ofNat 16 maxSize, (entriesOfEsi pdos).length,
         esiLayout objs addr 0 (entriesOfEsi pdos)⟩ ()
  size : bitsOfEsi (entriesOfEsi pdos) = 8 * maxSize
  size_lt : maxSize < 2 ^ 16
  describes : ∀ e ∈ entriesOfEsi pdos, e.Describes (slotOf objs addr e.index e.sub)

/-- What a restated entry says of its descriptor. -/
lemma EsiEntry.Restates.describes {e : EsiEntry} {m : MapEntry} (h : e.Restates m)
    (hresolved : m.Resolved objs) (hpos : ∀ o ∈ objs, 0 < o.index) (hbits : m.bits ≤ 255) :
    e.Describes (slotOf objs addr e.index e.sub) := by
  cases hresolved with
  | padding hindex hsub htype =>
      rw [EsiEntry.Describes, h.padding hindex, h.index, hindex]
      exact slotOf_zero hpos e.sub
  | entry o s hentry hlength htype =>
      obtain ⟨ho, hindex, -, -⟩ := entryOf_eq_some hentry
      have hne : m.index ≠ 0 := by
        have hlt := hpos o ho
        omega
      obtain ⟨type, hesi, hdescribed⟩ := h.typed hne
      rw [htype, Option.bind_some] at hesi
      rw [EsiEntry.Describes, hdescribed, h.index, h.sub, slotOf, hentry, h.bitLen]
      refine ⟨(o.subRow s).objd addr, s.type, rfl, ?_, rfl, hesi⟩
      change (BitVec.ofNat 32 s.bits).toNat = m.bits
      rw [BitVec.toNat_ofNat, ← hlength]
      omega

/-- The SyncManagers of the process data fit one below the other. -/
lemma computeSm_eq_ok {sm : SmLayout} (h : computeSm cfg rxBytes txBytes = .ok sm) :
    sm.rxTotal = rxBytes ∧ sm.txTotal = txBytes ∧
      cfg.syncManagers.outputs + 3 * rxBytes ≤ cfg.syncManagers.inputs ∧
      cfg.syncManagers.inputs + 3 * txBytes ≤ 0x2000 := by
  rw [computeSm] at h
  simp only at h
  split at h
  · cases h
  · split at h
    · cases h
    · cases h
      refine ⟨rfl, rfl, ?_, ?_⟩ <;> omega

lemma emitEsi_eq_ok {rx tx : List Pdo} {esi : Esi} (h : emitEsi cfg rx tx = .ok esi) :
    rx.mapM esiPdo = .ok esi.rxPdos ∧ tx.mapM esiPdo = .ok esi.txPdos := by
  rw [emitEsi] at h
  obtain ⟨rxPdos, hrx, h⟩ := except_bind_eq_ok.mp h
  obtain ⟨txPdos, htx, h⟩ := except_bind_eq_ok.mp h
  cases h
  exact ⟨hrx, htx⟩

/-- One direction. -/
lemma sameImage_of (h : Generates cfg out rxBytes txBytes) (hfits : Fits out) {index : ℕ}
    {what : String} {pdos : List Pdo} {esi : List EsiPdo} {maxMappings maxSize : ℕ}
    (hindex : (.ofNat 16 index : Word) = rxPdoObjidx ∨ (.ofNat 16 index : Word) = txPdoObjidx)
    (hassign : assignRow index what pdos ∈ out.objectlist)
    (hpdos : ∀ p ∈ pdos, p ∈ out.rx ++ out.tx) (hresolved : ∀ p ∈ pdos, p.Resolved out.objects)
    (hshort : pdos.length ≤ 254) (hesi : pdos.mapM esiPdo = .ok esi)
    (hmax : maxMappings = max 8 (entriesOfPdos pdos).length)
    (hsize : maxSize = bytesOfPdos pdos) (hlt : maxSize < 2 ^ 16) :
    SameImage out.objects addr (out.table addr) (.ofNat 16 index) maxMappings maxSize esi := by
  have hrestate := esiPdos_restate hesi
  have hmapped : ∀ m ∈ entriesOfPdos pdos, m.Resolved out.objects ∧ m.bits ≤ 255 ∧
      (m.mapped out.objects addr).bits = m.bits := by
    intro m hm
    obtain ⟨p, hp, hmem⟩ := List.mem_flatMap.mp hm
    have hentry := (hresolved p hp).entry m hmem
    exact ⟨hentry, (hfits.entry p (hpdos p hp) m hmem).2,
      (mappedEntry_generated h hfits (hpdos p hp) hmem hentry).2⟩
  have hbits := bitsOf_mapped fun m hm => (hmapped m hm).2.2
  have hflat : (pdoMapped out.objects addr pdos).flatten =
      (entriesOfPdos pdos).map (MapEntry.mapped out.objects addr) := by
    rw [pdoMapped, entriesOfPdos, List.map_flatMap, List.flatMap]
  have hfill := bitsOfEntries_pdos hresolved
  constructor
  case run =>
    intro bytes nmappings mappings n hn
    have hfound := row_found addr h hfits hassign
    have hassigns : ((assignRow index what pdos).objectlist addr).AssignsPdos
        ⟨out.table addr, bytes⟩ (pdoMapped out.objects addr pdos) :=
      assignRow_assigns h hfits hpdos hresolved hshort
    have hroom : (pdoMapped out.objects addr pdos).flatten.length ≤ maxMappings := by
      rw [hflat, List.length_map, hmax]
      exact Nat.le_max_right _ _
    have hpos : 0 < maxMappings := by omega
    have hrun := sizeOfPDO_ends hindex hfound hassigns hpos hroom hn nmappings mappings
    have hbytes : bits2bytes (8 * bytesOfPdos pdos) = maxSize := by
      rw [bits2bytes, hsize]
      omega
    rw [hrun, hflat, hbits, hfill, hbytes, List.length_map, hrestate.length_eq,
      layout_eq_esiLayout hrestate fun m hm => (hmapped m hm).2.2]
  case size => rw [bitsOfEsi_eq hrestate, hfill, hsize]
  case size_lt => exact hlt
  case describes =>
    intro e he
    obtain ⟨m, hm, hem⟩ := forall₂_mem_left hrestate he
    exact hem.describes (hmapped m hm).1 hfits.index_pos (hmapped m hm).2.1

lemma generated_outputs (h : Generates cfg out rxBytes txBytes) (hfits : Fits out)
    (addr : Place → ℕ) :
    SameImage out.objects addr (out.table addr) rxPdoObjidx out.options.maxMappingsSm2
      out.options.maxRxpdoSize out.esi.rxPdos := by
  obtain ⟨hrx, hrxBytes, -⟩ := buildPdos_resolved h.rx
  obtain ⟨hrxTotal, -, hsm2, hsm3⟩ := computeSm_eq_ok h.sm
  rw [h.options]
  apply sameImage_of h hfits (.inl rfl) (emitObjectlist_tabulates h.objectlist).rxAssign
    (fun p hp => List.mem_append_left _ hp) hrx hfits.pdos.1 (emitEsi_eq_ok h.esi).1 rfl
  · exact hrxTotal.trans hrxBytes
  · change out.sm.rxTotal < 2 ^ 16
    omega

lemma generated_inputs (h : Generates cfg out rxBytes txBytes) (hfits : Fits out)
    (addr : Place → ℕ) :
    SameImage out.objects addr (out.table addr) txPdoObjidx out.options.maxMappingsSm3
      out.options.maxTxpdoSize out.esi.txPdos := by
  obtain ⟨htx, htxBytes, -⟩ := buildPdos_resolved h.tx
  obtain ⟨-, htxTotal, hsm2, hsm3⟩ := computeSm_eq_ok h.sm
  rw [h.options]
  apply sameImage_of h hfits (.inr rfl) (emitObjectlist_tabulates h.objectlist).txAssign
    (fun p hp => List.mem_append_right _ hp) htx hfits.pdos.2 (emitEsi_eq_ok h.esi).2 rfl
  · exact htxTotal.trans htxBytes
  · change out.sm.txTotal < 2 ^ 16
    omega

/-- **The slave and the master have one process image.**  For every description that the generator
accepts and whose numbers fit, the mapping that the slave makes of its object list is the one that
a master makes of the ESI, for the outputs and for the inputs. -/
theorem generated_image (h : generate cfg = .ok out) (hfits : Fits out) (addr : Place → ℕ) :
    SameImage out.objects addr (out.table addr) rxPdoObjidx out.options.maxMappingsSm2
        out.options.maxRxpdoSize out.esi.rxPdos ∧
      SameImage out.objects addr (out.table addr) txPdoObjidx out.options.maxMappingsSm3
        out.options.maxTxpdoSize out.esi.txPdos := by
  obtain ⟨rxBytes, txBytes, hgen⟩ := generate_eq_ok h
  exact ⟨generated_outputs hgen hfits addr, generated_inputs hgen hfits addr⟩

/-- The example has one image. -/
theorem generated_image_example :
    SameImage exampleOutput.objects exampleAddr (exampleOutput.table exampleAddr) rxPdoObjidx
        exampleOutput.options.maxMappingsSm2 exampleOutput.options.maxRxpdoSize
        exampleOutput.esi.rxPdos ∧
      SameImage exampleOutput.objects exampleAddr (exampleOutput.table exampleAddr) txPdoObjidx
        exampleOutput.options.maxMappingsSm3 exampleOutput.options.maxTxpdoSize
        exampleOutput.esi.txPdos :=
  generated_image exampleDrive_output exampleOutput_fits exampleAddr

end Soes.GenOd
