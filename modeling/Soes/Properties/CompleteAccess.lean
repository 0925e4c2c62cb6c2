import Soes.Framework.Bits
import Soes.Properties.SdoReplies

/-!
# The image of an object

A Complete Access transfer moves an object as one run of bits, its **image**: the entries in the
order of their rows, subindex 0 in 16 bits unless the object is a variable, an entry of whole bytes
at the next byte boundary, and a bit type directly behind the entry before it.  `Objectlist.fields`
lists the entries with the bit each starts at, and `Objectlist.imageBits` is the length.

`complete_access_subindex_loop` is one pass over these fields.  What it does with each of them is a
function of the variables (`CaField.upload`, `CaField.download`), so a pass is a fold over the
fields (`wp_caRows`), and the length that it adds up is that of the image (`foldl_visit_size`).  The
source adds lengths up in 32 bits; the image is as long as it is, and where it is shorter than 2³²
bits the two agree.
-/

namespace Soes

open Program

variable {σ : Type} {env : CoeEnv σ} {k : ℕ} {c : Coe σ}

/-! ## Layout -/

/-- An entry in the image of its object. -/
structure CaField where
  entry : Objd
  start : ℕ
  deriving DecidableEq

namespace CaField

variable (f : CaField)

/-- The length of the entry in bits. -/
def bits : ℕ := f.entry.bitlength.toNat

/-- The entry is a run of whole bytes. -/
def Whole : Prop := f.bits % 8 = 0

instance : Decidable f.Whole := by unfold Whole; infer_instance

/-- The entry has this bit of the image. -/
def Covers (i : ℕ) : Prop := f.start ≤ i ∧ i < f.start + f.bits

instance (i : ℕ) : Decidable (f.Covers i) := by unfold Covers; infer_instance

end CaField

/-- The bit an entry starts at, behind `size` bits: an entry of whole bytes is aligned. -/
def fieldStart (d : Objd) (size : ℕ) : ℕ :=
  if d.bitlength.toNat % 8 = 0 then 8 * ((size + 7) / 8) else size

/-- The bits that row `nsub` takes: subindex 0 is padded to 16 unless the object is a variable. -/
def Objectlist.fieldBits (o : Objectlist) (nsub : ℕ) (d : Objd) : ℕ :=
  if nsub = 0 ∧ o.objtype ≠ otypeVar then 16 else d.bitlength.toNat

/-- The fields that a pass visits from row `nsub` on, `left` of them at most, behind `size` bits: it
stops once `maxBytes` are reached, where 0 is no bound. -/
def caFields (o : Objectlist) (maxBytes : ℕ) : ℕ → ℕ → ℕ → List CaField
  | 0, _, _ => []
  | left + 1, nsub, size =>
      match o.objdesc[nsub]? with
      | none => []
      | some d =>
          let next := fieldStart d size + o.fieldBits nsub d
          ⟨d, fieldStart d size⟩ ::
            if 0 < maxBytes ∧ maxBytes ≤ (next + 7) / 8 then []
            else caFields o maxBytes left (nsub + 1) next

/-- The bit behind the last of `left` fields. -/
def caEnd (o : Objectlist) : ℕ → ℕ → ℕ → ℕ
  | 0, _, size => size
  | left + 1, nsub, size =>
      match o.objdesc[nsub]? with
      | none => size
      | some d => caEnd o left (nsub + 1) (fieldStart d size + o.fieldBits nsub d)

namespace Objectlist

variable (o : Objectlist)

/-- The fields of the image from row `nsub` on. -/
def fields (nsub : ℕ) : List CaField := caFields o 0 (o.maxsub.toNat + 1 - nsub) nsub 0

/-- The fields that a download of `maxBytes` bytes visits. -/
def visited (nsub maxBytes : ℕ) : List CaField :=
  caFields o maxBytes (o.maxsub.toNat + 1 - nsub) nsub 0

/-- The length of the image in bits. -/
def imageBits (nsub : ℕ) : ℕ := caEnd o (o.maxsub.toNat + 1 - nsub) nsub 0

/-- The length of the image in bytes. -/
def imageSize (nsub : ℕ) : ℕ := (o.imageBits nsub + 7) / 8

/-- The entries are runs of whole bytes and bit types, none of variable length, and subindex 0 fits
into its 16 bits. -/
structure HasEntries (nsub : ℕ) : Prop where
  plain : ∀ first, o.row 0 = .ok first → ¬ (first.datatype = dtypeVisibleString ∨
    first.datatype = dtypeOctetString ∨ first.datatype = dtypeUnicodeString)
  count : nsub = 0 → o.objtype ≠ otypeVar → ∀ first, o.row 0 = .ok first →
    first.bitlength.toNat ≤ 16

/-- The object has an image: it has such entries, and the rows up to `maxsub` are there. -/
structure HasImage (nsub : ℕ) : Prop extends o.HasEntries nsub where
  le : nsub ≤ o.maxsub.toNat
  rows : o.maxsub.toNat < o.objdesc.length

end Objectlist

section layout

variable {o : Objectlist} {left nsub size : ℕ}

lemma le_fieldStart (d : Objd) (size : ℕ) : size ≤ fieldStart d size := by
  rw [fieldStart]
  split
  · omega
  · exact Nat.le_refl _

/-- The rows behind the first one take the bits of their entries. -/
lemma le_fieldBits_succ (d : Objd) : d.bitlength.toNat ≤ o.fieldBits (nsub + 1) d := by
  have h : o.fieldBits (nsub + 1) d = d.bitlength.toNat :=
    if_neg (fun h => Nat.succ_ne_zero _ h.1)
  exact Nat.le_of_eq h.symm

lemma le_caEnd : size ≤ caEnd o left nsub size := by
  induction left generalizing nsub size with
  | zero => exact Nat.le_refl _
  | succ left ih =>
      rw [caEnd]
      cases o.objdesc[nsub]? with
      | none => exact Nat.le_refl _
      | some d => exact Nat.le_trans (le_fieldStart d size) (Nat.le_trans (Nat.le_add_right _ _) ih)

/-- A pass with a bound visits the first of the fields. -/
lemma caFields_prefixes (maxBytes : ℕ) :
    caFields o maxBytes left nsub size <+: caFields o 0 left nsub size := by
  induction left generalizing nsub size with
  | zero => exact List.prefix_rfl
  | succ left ih =>
      rw [caFields, caFields]
      cases o.objdesc[nsub]? with
      | none => exact List.prefix_rfl
      | some d =>
          dsimp only
          rw [if_neg (fun h : 0 < 0 ∧ _ => Nat.lt_irrefl _ h.1), List.prefix_cons_inj]
          split
          · exact List.nil_prefix
          · exact ih

/-- The fields follow one another without overlap, from the start to the end. -/
lemma caFields_spread (hcount : ∀ d, o.objdesc[nsub]? = some d →
    d.bitlength.toNat ≤ o.fieldBits nsub d) :
    (caFields o 0 left nsub size).Pairwise (fun f g => f.start + f.bits ≤ g.start) ∧
      ∀ f ∈ caFields o 0 left nsub size, size ≤ f.start ∧
        f.start + f.bits ≤ caEnd o left nsub size ∧ (f.Whole → f.start % 8 = 0) := by
  induction left generalizing nsub size with
  | zero => exact ⟨.nil, fun f hf => (List.not_mem_nil hf).elim⟩
  | succ left ih =>
      rw [caFields, caEnd]
      cases hrow : o.objdesc[nsub]? with
      | none => exact ⟨.nil, fun f hf => (List.not_mem_nil hf).elim⟩
      | some d =>
          dsimp only
          rw [if_neg (fun h : 0 < 0 ∧ _ => Nat.lt_irrefl _ h.1)]
          have hstart := le_fieldStart d size
          have hbits : d.bitlength.toNat ≤ o.fieldBits nsub d := hcount d hrow
          obtain ⟨hspread, hinside⟩ :=
            @ih (nsub + 1) (fieldStart d size + o.fieldBits nsub d) fun d' _ => le_fieldBits_succ d'
          refine ⟨.cons (fun g hg => ?_) hspread, fun f hf => ?_⟩
          · have hg := (hinside g hg).1
            exact Nat.le_trans (Nat.add_le_add_left hbits _) hg
          · rcases List.mem_cons.mp hf with rfl | hf
            · refine ⟨hstart, Nat.le_trans (Nat.add_le_add_left hbits _) le_caEnd, fun hwhole => ?_⟩
              have haligned : fieldStart d size = 8 * ((size + 7) / 8) := if_pos hwhole
              dsimp only
              omega
            · obtain ⟨hfrom, hto, haligned⟩ := hinside f hf
              exact ⟨by omega, hto, haligned⟩

end layout

/-! ## One pass -/

namespace CaField

variable (f : CaField)

/-- The entry is uploaded into a buffer. -/
def upload (buffer : ℕ) (state : Byte) (bytes : ByteStore) (f : CaField) : ByteStore :=
  let d := f.entry
  if f.Whole then
    bytes.copy (buffer + f.start / 8) d.size
      (if readAccess d.access state then d.source bytes else fun _ => 0) 0
  else
    let at_ := buffer + f.start / 8
    let bitmask : Dword := (1 <<< f.bits) - 1
    bytes.copy at_ 1 (fun _ =>
      if readAccess d.access state then
        (if f.start % 8 = 0 then 0 else bytes at_) |||
          (((d.source bytes 0).setWidth 32 &&& bitmask) <<< (f.start % 8)).setWidth 8
      else bytes at_ &&& (~~~(bitmask <<< (f.start % 8))).setWidth 8) 0

/-- The entry is downloaded, if it is of whole bytes and may be written. -/
def download (state : Byte) (data bytes : ByteStore) : ByteStore :=
  if f.Whole ∧ writeAccess f.entry.access state then
    bytes.copy f.entry.data f.entry.size data (f.start / 8)
  else bytes

end CaField

/-- What a pass does with one entry. -/
def CaMode.visit (mode : CaMode) (buffer : ℕ) (state : Byte) (mbx bytes : ByteStore)
    (f : CaField) : ByteStore :=
  match mode with
  | .size => bytes
  | .upload => f.upload buffer state bytes
  | .fromMailbox start => f.download state (fun i => mbx (start + i)) bytes
  | .fromMbxdata => f.download state (fun i => bytes (buffer + i)) bytes

/-- Adding up the sizes changes nothing. -/
lemma foldl_visit_size {buffer : ℕ} {state : Byte} {mbx bytes : ByteStore} {l : List CaField} :
    l.foldl (CaMode.size.visit buffer state mbx) bytes = bytes := by
  induction l with
  | nil => rfl
  | cons f l ih => exact ih

section pass

variable {o : Objectlist} {left nsub size maxBytes : ℕ} {mode : CaMode}

lemma entryStart_eq {d : Objd} (hlt : fieldStart d size < 2 ^ 32) :
    entryStart d size = fieldStart d size := by
  by_cases hwhole : d.bitlength.toNat % 8 = 0
  · rw [fieldStart, if_pos hwhole] at hlt
    rw [fieldStart, if_pos hwhole, entryStart]
    split
    · omega
    · omega
  · rw [fieldStart, if_neg hwhole, entryStart, if_neg (fun h => hwhole h.1)]

lemma bits2bytes_eq {b : ℕ} (h : b + 7 < 2 ^ 32) : bits2bytes b = (b + 7) / 8 := by
  rw [bits2bytes, Nat.mod_eq_of_lt h]

/-- One entry of a pass. -/
lemma wp_caEntry {d : Objd} (hdata : writeAccess d.access (env.alStatus.setWidth 8 &&& 0x0f) →
      d.data ≠ 0) {start : ℕ} (haligned : (⟨d, start⟩ : CaField).Whole → start % 8 = 0)
    (hlt : start + 7 < 2 ^ 32) {Q : Unit → Coe σ → Prop}
    (hQ : ∀ writes, Q () ⟨c.outside, c.mb, ⟨mode.visit env.sys.mbxdata
      (env.alStatus.setWidth 8 &&& 0x0f) c.mb.mbx c.mem.bytes ⟨d, start⟩, writes,
        c.mem.wrapped⟩⟩) : wp env k (caEntry mode d start) Q c := by
  have hbuffer (i : ℕ) : env.sys.mbxdata + i ≠ 0 := by
    have := env.sys.mbxdata_ne
    omega
  have download (data : ByteStore) (hmode : mode.visit env.sys.mbxdata
      (env.alStatus.setWidth 8 &&& 0x0f) c.mb.mbx c.mem.bytes ⟨d, start⟩ =
        (⟨d, start⟩ : CaField).download (env.alStatus.setWidth 8 &&& 0x0f) data c.mem.bytes) :
      wp env k (caDownloadEntry data d start) Q c := by
    rw [hmode] at hQ
    rw [caDownloadEntry, wp_bind, wp_coeState, wp_when]
    refine ⟨fun hwrite => ?_, fun hnot => ?_⟩
    · have hwhole : (⟨d, start⟩ : CaField).Whole ∧
          writeAccess d.access (env.alStatus.setWidth 8 &&& 0x0f) := hwrite
      rw [wp_sdoStore (hdata hwrite.2), bits2bytes_eq hlt]
      have hstart : (start + 7) / 8 = start / 8 := by
        have := haligned hwrite.1
        omega
      have h := hQ ((d.data, d.size) :: c.mem.writes)
      rw [CaField.download, if_pos hwhole] at h
      rw [hstart]
      exact h
    · have hnot' : ¬ ((⟨d, start⟩ : CaField).Whole ∧
          writeAccess d.access (env.alStatus.setWidth 8 &&& 0x0f)) := hnot
      have h := hQ c.mem.writes
      rw [CaField.download, if_neg hnot'] at h
      exact h
  rw [caEntry, wp_bind, wp_get]
  cases mode with
  | size => exact (wp_pure _ _).mpr (hQ c.mem.writes)
  | upload =>
      simp only [CaMode.visit, CaField.upload] at hQ
      rw [caUploadEntry, wp_bind, wp_ask, wp_bind, wp_get, wp_bind, wp_coeState]
      refine (wp_ite _ _ _ _).mpr ⟨fun hwhole => ?_, fun hbit => ?_⟩
      · have hstart : (start + 7) / 8 = start / 8 := by
          have := haligned hwhole
          omega
        rw [wp_sdoStore (hbuffer _), bits2bytes_eq hlt, hstart]
        rw [if_pos (show (⟨d, start⟩ : CaField).Whole from hwhole)] at hQ
        exact hQ _
      · rw [if_neg (show ¬ (⟨d, start⟩ : CaField).Whole from hbit)] at hQ
        refine (wp_ite _ _ _ _).mpr ⟨fun hread => ?_, fun hread => ?_⟩
        · simp only [if_pos hread] at hQ
          rw [wp_sdoStore (hbuffer _)]
          exact hQ _
        · simp only [if_neg hread] at hQ
          rw [wp_sdoStore (hbuffer _)]
          exact hQ _
  | fromMailbox base => exact download _ rfl
  | fromMbxdata =>
      rw [wp_bind, wp_ask]
      exact download _ rfl

/-- A pass is a fold over the fields it visits. -/
lemma wp_caRows (ho : o ∈ env.sys.dict.table) (hrows : nsub + left ≤ o.objdesc.length)
    (hlt : caEnd o left nsub size + 7 < 2 ^ 32) {Q : ℕ → Coe σ → Prop}
    (hQ : ∀ size' writes, (maxBytes = 0 → size' = caEnd o left nsub size) →
      Q size' ⟨c.outside, c.mb, ⟨(caFields o maxBytes left nsub size).foldl (mode.visit
        env.sys.mbxdata (env.alStatus.setWidth 8 &&& 0x0f) c.mb.mbx) c.mem.bytes, writes,
          c.mem.wrapped⟩⟩) :
    wp env k (caRows o mode maxBytes left nsub size) Q c := by
  induction left generalizing nsub size c with
  | zero =>
      rw [caRows, wp_pure]
      exact hQ size c.mem.writes fun _ => rfl
  | succ left ih =>
      have hrow : o.objdesc[nsub]? = some o.objdesc[nsub] := List.getElem?_eq_getElem (by omega)
      generalize o.objdesc[nsub] = d at hrow
      rw [caFields, caEnd] at hQ
      rw [caEnd] at hlt
      simp only [hrow] at hQ hlt
      have hend := @le_caEnd o left (nsub + 1) (fieldStart d size + o.fieldBits nsub d)
      have hstart : entryStart d size = fieldStart d size := entryStart_eq (by omega)
      have hnext : entryEnd o nsub d (fieldStart d size) =
          fieldStart d size + o.fieldBits nsub d :=
        Nat.mod_eq_of_lt (show fieldStart d size + o.fieldBits nsub d < 2 ^ 32 by omega)
      have haligned : (⟨d, fieldStart d size⟩ : CaField).Whole → fieldStart d size % 8 = 0 := by
        intro hwhole
        have hwhole : fieldStart d size = 8 * ((size + 7) / 8) := if_pos hwhole
        omega
      have hd : d ∈ o.objdesc := List.mem_of_getElem? hrow
      rw [caRows, wp_bind, wp_lift]
      refine ⟨d, row_eq_ok.mpr hrow, ?_⟩
      rw [wp_bind, hstart]
      refine wp_caEntry (env.sys.dict.data_ne ho hd) haligned (by omega) fun writes => ?_
      rw [hnext]
      dsimp only
      rw [bits2bytes_eq (by omega)]
      refine (wp_ite _ _ _ _).mpr ⟨fun hstop => ?_, fun hgo => ?_⟩
      · rw [wp_pure]
        simp only [if_pos hstop, List.foldl_cons, List.foldl_nil] at hQ
        exact hQ _ writes fun hzero => absurd hstop.1 (by omega)
      · simp only [if_neg hgo, List.foldl_cons] at hQ
        exact ih (by omega) hlt fun size' writes' hsize => hQ size' writes' hsize

/-- What a pass does first. -/
def CaMode.prepare (mode : CaMode) (buffer : ℕ) (bytes : ByteStore) : ByteStore :=
  match mode with
  | .upload => bytes.copy (buffer + 1) 1 (fun _ => 0) 0
  | _ => bytes

/-- `complete_access_subindex_loop` of an object that has an image. -/
lemma wp_completeAccessSubindexLoop (ho : o ∈ env.sys.dict.table) (h : o.HasImage nsub)
    (hlt : o.imageBits nsub + 7 < 2 ^ 32) {Q : ℕ → Coe σ → Prop}
    (hQ : ∀ size' writes, (maxBytes = 0 → size' = o.imageBits nsub) →
      Q size' ⟨c.outside, c.mb, ⟨(o.visited nsub maxBytes).foldl (mode.visit env.sys.mbxdata
        (env.alStatus.setWidth 8 &&& 0x0f) c.mb.mbx) (mode.prepare env.sys.mbxdata c.mem.bytes),
          writes, c.mem.wrapped⟩⟩) :
    wp env k (completeAccessSubindexLoop o nsub mode maxBytes) Q c := by
  have hle := h.le
  have hrows := h.rows
  have hrow : o.row 0 = .ok o.objdesc[0] := row_eq_ok.mpr (List.getElem?_eq_getElem (by omega))
  rw [completeAccessSubindexLoop, wp_bind, wp_lift]
  refine ⟨_, hrow, ?_⟩
  rw [if_neg (h.plain _ hrow)]
  cases mode with
  | upload =>
      rw [wp_bind, wp_ask, wp_bind, sdoFill, if_neg (by decide), wp_sdoStore (Nat.succ_ne_zero _)]
      exact wp_caRows ho (by omega) hlt hQ
  | size => exact wp_caRows ho (by omega) hlt hQ
  | fromMailbox start => exact wp_caRows ho (by omega) hlt hQ
  | fromMbxdata => exact wp_caRows ho (by omega) hlt hQ

end pass

end Soes
