import Soes.Properties.CompleteAccess
import Soes.Properties.ObjectExtent
import Soes.Properties.SdoRoundTrip

/-!
# Complete Access upload

`ESCvar.mbxdata` is not cleared before `complete_access_subindex_loop` fills it.  A run of whole
bytes writes over what is there.  A bit type that may be read clears its byte when it starts at the
byte's first bit, and is ORed into it otherwise; one that may not be read only clears its own bits;
and neither touches the bytes behind the one it starts in.  `CaField.bitStep` is what one entry
makes of one bit, and `uploadedBit_whole`, `uploadedBit_part` and `uploadedBit_none` say what all
of them do.

So a bit of the buffer may be left over from before.  `complete_access_image_iff` says exactly when
the upload is the image of the object (`imageBit`) whatever was there: the object's rows must be
there and its image must fit the buffer (`Objectlist.FitsBuffer`), and nothing left over may show
(`PacksCleanly`).  `crossing_bits_lost` is an object with a bit type across a byte boundary.
-/

namespace Soes

open Program

variable {σ : Type} {env : CoeEnv σ} {k : ℕ} {c : Coe σ} {o : Objectlist} {nsub : ℕ}

/-! ## One bit -/

namespace CaField

variable (f : CaField) (state : Byte) (i : ℕ)

/-- The entry may be read. -/
def Readable : Prop := readAccess f.entry.access state

instance : Decidable (f.Readable state) := by unfold Readable; infer_instance

/-- The bit of the entry's value at a bit of the image. -/
def value (bytes : ByteStore) : Bool := (f.entry.source bytes).bit (i - f.start)

/-- What the upload of an entry makes of bit `i`, where `v` is the bit of its value and `b` the one
that is there. -/
def bitStep (v b : Bool) : Bool :=
  if f.Whole then
    if f.Covers i then decide (f.Readable state) && v else b
  else if i / 8 = f.start / 8 then
    if f.Readable state then
      (if f.start % 8 = 0 then false else b) || (decide (f.Covers i) && v)
    else b && !decide (f.Covers i)
  else b

/-- The upload of the entry clears the byte of bit `i`. -/
def Resets : Prop := ¬ f.Whole ∧ f.Readable state ∧ f.start = 8 * (i / 8)

instance : Decidable (f.Resets state i) := by unfold Resets; infer_instance

/-- The entry is a bit type, has bit `i`, and starts in the byte of that bit. -/
def Owns : Prop := ¬ f.Whole ∧ f.start / 8 = i / 8 ∧ f.Covers i

instance : Decidable (f.Owns i) := by unfold Owns; infer_instance

end CaField

/-- The bits of a mask. -/
lemma getLsbD_bitmask (b : ℕ) {t : ℕ} (ht : t < 32) :
    (((1 <<< b : ℕ) : Dword) - 1).getLsbD t = decide (t < b) := by
  have hnat : (((1 <<< b : ℕ) : Dword) - 1).toNat = 2 ^ min b 32 - 1 := by
    rw [BitVec.toNat_sub, BitVec.natCast_eq_ofNat, BitVec.toNat_ofNat, Nat.one_shiftLeft]
    by_cases hb : b < 32
    · have hlt : 2 ^ b < 2 ^ 32 := Nat.pow_lt_pow_right (by decide) hb
      have hpos : 0 < 2 ^ b := Nat.two_pow_pos b
      have hone : (1 : Dword).toNat = 1 := rfl
      rw [Nat.min_eq_left (by omega), Nat.mod_eq_of_lt hlt, hone]
      omega
    · have hzero : 2 ^ b % 2 ^ 32 = 0 := Nat.mod_eq_zero_of_dvd (Nat.pow_dvd_pow 2 (by omega))
      rw [Nat.min_eq_right (by omega), hzero]
      decide
  rw [BitVec.getLsbD, hnat, Nat.testBit_two_pow_sub_one]
  congr 1
  rw [eq_iff_iff]
  omega

/-- A masked byte moved up by less than eight bits, cut to a byte. -/
lemma getLsbD_packed (x : Byte) (b : ℕ) {off j : ℕ} (hj : j < 8) :
    ((((x.setWidth 32 : Dword) &&& (((1 <<< b : ℕ) : Dword) - 1)) <<< off).setWidth 8 :
      Byte).getLsbD j = (decide (off ≤ j ∧ j - off < b) && x.getLsbD (j - off)) := by
  rw [BitVec.getLsbD_setWidth, BitVec.getLsbD_shiftLeft, BitVec.getLsbD_and,
    BitVec.getLsbD_setWidth, getLsbD_bitmask b (by omega)]
  by_cases hoff : off ≤ j
  · simp [hj, hoff, show j < 32 by omega, show ¬ j < off by omega, show j - off < 32 by omega,
      Bool.and_comm]
  · simp [hoff, show j < off by omega]

/-- The bits that a mask moved up by less than eight bits leaves in a byte. -/
lemma getLsbD_unmasked (b : ℕ) {off j : ℕ} (hj : j < 8) :
    ((~~~((((1 <<< b : ℕ) : Dword) - 1) <<< off)).setWidth 8 : Byte).getLsbD j =
      !decide (off ≤ j ∧ j - off < b) := by
  rw [BitVec.getLsbD_setWidth, BitVec.getLsbD_not, BitVec.getLsbD_shiftLeft,
    getLsbD_bitmask b (by omega)]
  by_cases hoff : off ≤ j
  · simp [hj, hoff, show j < 32 by omega, show ¬ j < off by omega]
  · simp [hj, hoff, show j < 32 by omega, show j < off by omega]

/-! ## One entry -/

section entry

variable {f : CaField} {state : Byte} {buffer len : ℕ} {bytes bytes' : ByteStore}

/-- The storage of the entry lies outside the buffer. -/
def CaField.Apart (buffer len : ℕ) (f : CaField) : Prop :=
  f.entry.data ≠ 0 → f.entry.data + f.entry.size ≤ buffer ∨ buffer + len ≤ f.entry.data

/-- Two stores agree outside the buffer. -/
def AgreeOutside (buffer len : ℕ) (bytes bytes' : ByteStore) : Prop :=
  ∀ a, a < buffer ∨ buffer + len ≤ a → bytes' a = bytes a

lemma CaField.size_eq (hlt : f.bits + 7 < 2 ^ 32) : f.entry.size = (f.bits + 7) / 8 :=
  bits2bytes_eq hlt

/-- The value of an entry does not depend on what is in the buffer. -/
lemma CaField.value_congr (hlt : f.bits + 7 < 2 ^ 32) (hapart : f.Apart buffer len)
    (hagree : AgreeOutside buffer len bytes bytes') {i : ℕ} (hi : f.Covers i) :
    f.value i bytes' = f.value i bytes := by
  obtain ⟨hfrom, hto⟩ := hi
  rw [value, value, Objd.source, Objd.source]
  by_cases hdata : f.entry.data = 0
  · rw [if_neg (not_not.mpr hdata), if_neg (not_not.mpr hdata)]
  · rw [if_pos hdata, if_pos hdata, ByteStore.bit, ByteStore.bit]
    have hside := hapart hdata
    rw [f.size_eq hlt] at hside
    rw [hagree _ (by omega)]

/-- The upload of one entry, bit by bit. -/
lemma CaField.bit_upload (hlt : f.bits + 7 < 2 ^ 32) (haligned : f.Whole → f.start % 8 = 0)
    (i : ℕ) : (f.upload buffer state bytes).bit (8 * buffer + i) =
      f.bitStep state i (f.value i bytes) (bytes.bit (8 * buffer + i)) := by
  have hbyte : (8 * buffer + i) / 8 = buffer + i / 8 := by omega
  have hbit : (8 * buffer + i) % 8 = i % 8 := by omega
  rw [bitStep, upload]
  by_cases hwhole : f.Whole
  · have hstart := haligned hwhole
    have hsize := f.size_eq hlt
    rw [Whole] at hwhole
    simp only [if_pos (show f.Whole from hwhole)]
    rw [ByteStore.bit, hbyte, hbit, ByteStore.copy]
    by_cases hcovers : f.Covers i
    · obtain ⟨hfrom, hto⟩ := hcovers
      rw [if_pos (by omega), if_pos (show f.Covers i from ⟨hfrom, hto⟩)]
      by_cases hread : f.Readable state
      · rw [if_pos (show readAccess f.entry.access state from hread), decide_eq_true hread,
          Bool.true_and, value, ByteStore.bit]
        have haddress : 0 + (buffer + i / 8 - (buffer + f.start / 8)) = (i - f.start) / 8 := by
          omega
        have hoff : i % 8 = (i - f.start) % 8 := by omega
        rw [haddress, hoff]
      · rw [if_neg (show ¬ readAccess f.entry.access state from hread), decide_eq_false hread,
          Bool.false_and]
        exact BitVec.getLsbD_zero
    · rw [if_neg hcovers, ByteStore.bit, hbyte, hbit]
      rw [Covers] at hcovers
      rw [if_neg (by omega)]
  · simp only [if_neg hwhole]
    rw [ByteStore.bit, hbyte, hbit, ByteStore.copy]
    by_cases hsame : i / 8 = f.start / 8
    · have hcovers : f.Covers i ↔ f.start % 8 ≤ i % 8 ∧ i % 8 - f.start % 8 < f.bits := by
        rw [Covers]
        omega
      rw [if_pos (by omega), if_pos hsame]
      by_cases hread : f.Readable state
      · rw [if_pos (show readAccess f.entry.access state from hread), if_pos hread,
          BitVec.getLsbD_or, getLsbD_packed _ _ (by omega)]
        congr 1
        · by_cases hfirst : f.start % 8 = 0
          · rw [if_pos hfirst, if_pos hfirst]
            exact BitVec.getLsbD_zero
          · rw [if_neg hfirst, if_neg hfirst, ByteStore.bit, hbyte, hbit, hsame]
        · by_cases hin : f.Covers i
          · have hin' := hcovers.mp hin
            obtain ⟨hfrom, hto⟩ := hin
            rw [decide_eq_true hin', decide_eq_true (show f.Covers i from ⟨hfrom, hto⟩), value,
              ByteStore.bit]
            have hzero : (i - f.start) / 8 = 0 := by omega
            have hoff : (i - f.start) % 8 = i % 8 - f.start % 8 := by omega
            rw [hzero, hoff]
          · rw [decide_eq_false hin, decide_eq_false (fun h => hin (hcovers.mpr h)),
              Bool.false_and, Bool.false_and]
      · rw [if_neg (show ¬ readAccess f.entry.access state from hread), if_neg hread,
          BitVec.getLsbD_and, getLsbD_unmasked _ (by omega), ByteStore.bit, hbyte, hbit, hsame]
        congr 2
        rw [decide_eq_decide]
        exact hcovers.symm
    · rw [if_neg (by omega), if_neg hsame, ByteStore.bit, hbyte, hbit]

/-- The upload of an entry stays within the buffer. -/
lemma CaField.upload_agree (hlt : f.bits + 7 < 2 ^ 32) (haligned : f.Whole → f.start % 8 = 0)
    (hinside : f.start + f.bits ≤ 8 * len) :
    AgreeOutside buffer len bytes (f.upload buffer state bytes) := by
  intro a ha
  rw [upload]
  by_cases hwhole : f.Whole
  · have hstart := haligned hwhole
    have hsize := f.size_eq hlt
    rw [Whole] at hwhole
    simp only [if_pos (show f.Whole from hwhole)]
    exact ByteStore.copy_of_outside (by omega)
  · have hpos : f.bits % 8 ≠ 0 := hwhole
    simp only [if_neg hwhole]
    exact ByteStore.copy_of_outside (by omega)

end entry

/-! ## All entries -/

/-- What the upload of all these entries makes of bit `i`, where `v` are the bits of their values
and `b` is the one that is there. -/
def uploadedBit (state : Byte) (i : ℕ) (v : CaField → Bool) (l : List CaField) (b : Bool) : Bool :=
  l.foldl (fun b f => f.bitStep state i (v f) b) b

section fold

variable {f : CaField} {state : Byte} {i : ℕ} {v : CaField → Bool} {pre post l : List CaField}
  {b : Bool}

/-- An entry that does not have the bit keeps it, or clears it with its byte. -/
lemma CaField.bitStep_of_not (state : Byte) (hwhole : f.Whole → ¬ f.Covers i) (hnot : ¬ f.Owns i)
    (v b : Bool) :
    f.bitStep state i v b = if f.Resets state i then false else b := by
  rw [bitStep]
  by_cases hw : f.Whole
  · rw [if_pos hw, if_neg (hwhole hw), if_neg (fun h => h.1 hw)]
  · rw [if_neg hw]
    by_cases hsame : i / 8 = f.start / 8
    · have hcovers : ¬ f.Covers i := fun h => hnot ⟨hw, hsame.symm, h⟩
      rw [if_pos hsame, decide_eq_false hcovers, Bool.false_and, Bool.or_false, Bool.not_false,
        Bool.and_true]
      by_cases hread : f.Readable state
      · rw [if_pos hread]
        by_cases hfirst : f.start % 8 = 0
        · rw [if_pos hfirst, if_pos ⟨hw, hread, by omega⟩]
        · rw [if_neg hfirst, if_neg (fun h => hfirst (by have := h.2.2; omega))]
      · rw [if_neg hread, if_neg (fun h => hread h.2.1)]
    · rw [if_neg hsame, if_neg (fun h => hsame (by have := h.2.2; omega))]

/-- A bit that no entry has is kept, unless an entry clears its byte. -/
lemma uploadedBit_none (hwhole : ∀ f ∈ l, f.Whole → ¬ f.Covers i) (hnot : ∀ f ∈ l, ¬ f.Owns i) :
    uploadedBit state i v l b = if ∃ f ∈ l, f.Resets state i then false else b := by
  induction l generalizing b with
  | nil => simp [uploadedBit]
  | cons f l ih =>
      have hstep := f.bitStep_of_not state (hwhole f (List.mem_cons_self ..))
        (hnot f (List.mem_cons_self ..)) (v f) b
      have htail := ih (b := f.bitStep state i (v f) b)
        (fun g hg => hwhole g (List.mem_cons_of_mem _ hg))
        fun g hg => hnot g (List.mem_cons_of_mem _ hg)
      rw [uploadedBit, List.foldl_cons]
      refine htail.trans ?_
      rw [hstep]
      by_cases hf : f.Resets state i
      · simp [hf]
      · simp [hf]

/-- The entries before and behind one that has the bit. -/
lemma spread_split (state : Byte)
    (hspread : (pre ++ f :: post).Pairwise fun f g => f.start + f.bits ≤ g.start)
    (hcovers : f.Covers i) :
    (∀ g ∈ pre, ¬ g.Covers i) ∧ (∀ g ∈ post, ¬ g.Covers i ∧ ¬ g.Resets state i) := by
  obtain ⟨hfrom, hto⟩ := hcovers
  obtain ⟨-, hpost, hcross⟩ := List.pairwise_append.mp hspread
  refine ⟨fun g hg hin => ?_, fun g hg => ?_⟩
  · have hbefore := hcross g hg f (List.mem_cons_self ..)
    have hin' := hin.2
    omega
  · have hbehind := List.rel_of_pairwise_cons hpost hg
    refine ⟨fun hin => ?_, fun hreset => ?_⟩
    · have hin' := hin.1
      omega
    · have hstart := hreset.2.2
      omega

lemma uploadedBit_append (b : Bool) : uploadedBit state i v (pre ++ f :: post) b =
    uploadedBit state i v post (f.bitStep state i (v f) (uploadedBit state i v pre b)) := by
  rw [uploadedBit, List.foldl_append, List.foldl_cons]
  rfl

/-- What follows an entry that has the bit keeps it. -/
lemma uploadedBit_post (hpost : ∀ g ∈ post, ¬ g.Covers i ∧ ¬ g.Resets state i) :
    uploadedBit state i v post b = b := by
  rw [uploadedBit_none (fun g hg _ => (hpost g hg).1) fun g hg h => (hpost g hg).1 h.2.2]
  exact if_neg fun ⟨g, hg, h⟩ => (hpost g hg).2 h

/-- A bit of a run of whole bytes is that of its value, or zero. -/
lemma uploadedBit_whole (hspread : l.Pairwise fun f g => f.start + f.bits ≤ g.start) (hf : f ∈ l)
    (hwhole : f.Whole) (hcovers : f.Covers i) :
    uploadedBit state i v l b = (decide (f.Readable state) && v f) := by
  obtain ⟨pre, post, rfl⟩ := List.append_of_mem hf
  have hpost := (spread_split state hspread hcovers).2
  rw [uploadedBit_append, uploadedBit_post hpost, CaField.bitStep, if_pos hwhole, if_pos hcovers]

/-- A bit of a bit type, in the byte where it starts, is that of its value ORed into what is
there, or zero. -/
lemma uploadedBit_part (hspread : l.Pairwise fun f g => f.start + f.bits ≤ g.start) (hf : f ∈ l)
    (howns : f.Owns i) : uploadedBit state i v l b = (decide (f.Readable state) &&
      ((if ∃ g ∈ l, g.Resets state i then false else b) || v f)) := by
  obtain ⟨pre, post, rfl⟩ := List.append_of_mem hf
  obtain ⟨hbit, hsame, hcovers⟩ := howns
  obtain ⟨hpre, hpost⟩ := spread_split state hspread hcovers
  have hbefore : uploadedBit state i v pre b =
      if ∃ g ∈ pre, g.Resets state i then false else b :=
    uploadedBit_none (fun g hg _ => hpre g hg) fun g hg h => hpre g hg h.2.2
  have hcleared : (∃ g ∈ pre ++ f :: post, g.Resets state i) ↔
      (∃ g ∈ pre, g.Resets state i) ∨ f.Resets state i := by
    constructor
    · rintro ⟨g, hg, hreset⟩
      rcases List.mem_append.mp hg with hg | hg
      · exact .inl ⟨g, hg, hreset⟩
      · rcases List.mem_cons.mp hg with rfl | hg
        · exact .inr hreset
        · exact ((hpost g hg).2 hreset).elim
    · rintro (⟨g, hg, hreset⟩ | hreset)
      · exact ⟨g, List.mem_append_left _ hg, hreset⟩
      · exact ⟨f, List.mem_append_right _ (List.mem_cons_self ..), hreset⟩
  rw [uploadedBit_append, uploadedBit_post hpost, hbefore, CaField.bitStep, if_neg hbit,
    if_pos hsame.symm, decide_eq_true hcovers, Bool.true_and, Bool.not_true, Bool.and_false]
  by_cases hread : f.Readable state
  · rw [if_pos hread, decide_eq_true hread, Bool.true_and]
    congr 1
    by_cases hfirst : f.start % 8 = 0
    · have hreset : f.Resets state i := ⟨hbit, hread, by omega⟩
      rw [if_pos hfirst, if_pos (hcleared.mpr (.inr hreset))]
    · have hkeeps : ¬ f.Resets state i := fun h => hfirst (by have := h.2.2; omega)
      rw [if_neg hfirst]
      by_cases hbefore : ∃ g ∈ pre, g.Resets state i
      · rw [if_pos hbefore, if_pos (hcleared.mpr (.inl hbefore))]
      · rw [if_neg hbefore, if_neg fun h => (hcleared.mp h).elim hbefore hkeeps]
  · rw [if_neg hread, decide_eq_false hread, Bool.false_and]

end fold

/-- The value of an entry plays no part in a bit that it does not have. -/
lemma CaField.bitStep_congr {f : CaField} {state : Byte} {i : ℕ} {v v' : Bool}
    (h : f.Covers i → v = v') (b : Bool) : f.bitStep state i v b = f.bitStep state i v' b := by
  by_cases hcovers : f.Covers i
  · rw [h hcovers]
  · simp only [bitStep, if_neg hcovers, decide_eq_false hcovers, Bool.false_and]

/-- What a pass may rely on for each of its fields: it lies within the buffer, aligned if it is a
run of whole bytes, and its storage lies elsewhere. -/
structure CaField.Fits (buffer len : ℕ) (f : CaField) : Prop where
  lt : f.bits + 7 < 2 ^ 32
  aligned : f.Whole → f.start % 8 = 0
  inside : f.start + f.bits ≤ 8 * len
  apart : f.Apart buffer len

/-- The upload of all entries, bit by bit. -/
lemma bit_foldl_upload {state : Byte} {buffer len : ℕ} {l : List CaField}
    (hfits : ∀ f ∈ l, f.Fits buffer len) {bytes₀ bytes : ByteStore}
    (hagree : AgreeOutside buffer len bytes₀ bytes) (i : ℕ) :
    (l.foldl (CaField.upload buffer state) bytes).bit (8 * buffer + i) =
      uploadedBit state i (fun f => f.value i bytes₀) l (bytes.bit (8 * buffer + i)) := by
  induction l generalizing bytes with
  | nil => rfl
  | cons f l ih =>
      have hf := hfits f (List.mem_cons_self ..)
      have hkept : AgreeOutside buffer len bytes (f.upload buffer state bytes) :=
        f.upload_agree hf.lt hf.aligned hf.inside
      have hnext : AgreeOutside buffer len bytes₀ (f.upload buffer state bytes) := fun a ha =>
        (hkept a ha).trans (hagree a ha)
      have hbit : (f.upload buffer state bytes).bit (8 * buffer + i) = _ :=
        f.bit_upload hf.lt hf.aligned i
      have hvalue : f.Covers i → f.value i bytes = f.value i bytes₀ :=
        f.value_congr hf.lt hf.apart hagree
      rw [List.foldl_cons, ih (fun g hg => hfits g (List.mem_cons_of_mem _ hg)) hnext, hbit,
        f.bitStep_congr hvalue]
      rfl

/-! ## The image -/

/-- The image of an object: bit `i` is that of the value of the entry that has it, if the entry
may be read in this state; padding is zero. -/
def imageBit (fields : List CaField) (state : Byte) (bytes : ByteStore) (i : ℕ) : Bool :=
  decide (∃ f ∈ fields, f.Covers i ∧ f.Readable state ∧ f.value i bytes = true)

/-- Nothing clears bit `i`: its byte is not byte 1, no run of whole bytes is written over it, no bit
type that may be read starts at its byte's first bit, and it is not that of a bit type that starts
in its byte and may not be read. -/
def StaleBit (fields : List CaField) (state : Byte) (i : ℕ) : Prop :=
  i / 8 ≠ 1 ∧ (∀ f ∈ fields, f.Whole → ¬ f.Covers i) ∧ (∀ f ∈ fields, ¬ f.Resets state i) ∧
    ∀ f ∈ fields, f.Owns i → f.Readable state

/-- What is left over in the first `size` bytes of the buffer does not show. -/
structure PacksCleanly (fields : List CaField) (state : Byte) (bytes : ByteStore) (size : ℕ) :
    Prop where
  /-- A bit that nothing clears is set by the bit type that starts in its byte. -/
  stale : ∀ i < 8 * size, StaleBit fields state i →
    ∃ f ∈ fields, f.Owns i ∧ f.value i bytes = true
  /-- A bit type that starts in byte 0 has no bit set in byte 1. -/
  crossing : ∀ i < 8 * size, i / 8 = 1 → ∀ f ∈ fields, ¬ f.Whole → f.start < 8 → f.Covers i →
    f.Readable state → f.value i bytes = false

section image

variable {fields : List CaField} {state : Byte} {bytes : ByteStore} {i size : ℕ}

/-- At most one entry has a bit. -/
lemma covers_unique (hspread : fields.Pairwise fun f g => f.start + f.bits ≤ g.start)
    {f g : CaField} (hf : f ∈ fields) (hg : g ∈ fields) (hfi : f.Covers i) (hgi : g.Covers i) :
    f = g := by
  obtain ⟨pre, post, rfl⟩ := List.append_of_mem hf
  obtain ⟨hpre, hpost⟩ := spread_split 0 hspread hfi
  rcases List.mem_append.mp hg with hg | hg
  · exact (hpre g hg hgi).elim
  · rcases List.mem_cons.mp hg with rfl | hg
    · rfl
    · exact ((hpost g hg).1 hgi).elim

lemma imageBit_of_covers (hspread : fields.Pairwise fun f g => f.start + f.bits ≤ g.start)
    {f : CaField} (hf : f ∈ fields) (hcovers : f.Covers i) :
    imageBit fields state bytes i = (decide (f.Readable state) && f.value i bytes) := by
  rw [imageBit, Bool.eq_iff_iff, decide_eq_true_iff, Bool.and_eq_true, decide_eq_true_iff]
  constructor
  · rintro ⟨g, hg, hgi, hread, hvalue⟩
    rw [covers_unique hspread hf hg hcovers hgi]
    exact ⟨hread, hvalue⟩
  · rintro ⟨hread, hvalue⟩
    exact ⟨f, hf, hcovers, hread, hvalue⟩

section covered

variable (hspread : fields.Pairwise fun f g => f.start + f.bits ≤ g.start) {f : CaField}
  (hf : f ∈ fields) (hcovers : f.Covers i)
include hspread hf hcovers

/-- A bit of a run of whole bytes is always that of the image. -/
lemma uploadedBit_image_whole (hwhole : f.Whole) (b : Bool) :
    uploadedBit state i (fun f => f.value i bytes) fields b = imageBit fields state bytes i := by
  rw [imageBit_of_covers hspread hf hcovers, uploadedBit_whole hspread hf hwhole hcovers]

/-- A bit of a bit type in the byte where it starts is that of the image, unless nothing clears it
and the value does not set it. -/
lemma uploadedBit_image_part (hbit : ¬ f.Whole) (hsame : f.start / 8 = i / 8) :
    (∀ b, uploadedBit state i (fun f => f.value i bytes) fields
      (if i / 8 = 1 then false else b) = imageBit fields state bytes i) ↔
    (StaleBit fields state i → f.value i bytes = true) := by
  have howns : f.Owns i := ⟨hbit, hsame, hcovers⟩
  have hunique : ∀ g ∈ fields, g.Covers i → g = f := fun g hg hgi =>
    (covers_unique hspread hf hg hcovers hgi).symm
  simp only [imageBit_of_covers hspread hf hcovers, uploadedBit_part hspread hf howns]
  by_cases hread : f.Readable state
  · rw [decide_eq_true hread]
    simp only [Bool.true_and]
    by_cases hreset : ∃ g ∈ fields, g.Resets state i
    · obtain ⟨g, hg, hgi⟩ := hreset
      refine ⟨fun _ hstale => (hstale.2.2.1 g hg hgi).elim, fun _ b => ?_⟩
      rw [if_pos ⟨g, hg, hgi⟩, Bool.false_or]
    · by_cases hone : i / 8 = 1
      · refine ⟨fun _ hstale => (hstale.1 hone).elim, fun _ b => ?_⟩
        rw [if_neg hreset, if_pos hone, Bool.false_or]
      · have hstale : StaleBit fields state i := by
          refine ⟨hone, fun g hg hwhole hgi => ?_, fun g hg hgi => hreset ⟨g, hg, hgi⟩,
            fun g hg hgi => ?_⟩
          · exact hbit (hunique g hg hgi ▸ hwhole)
          · rw [hunique g hg hgi.2.2]
            exact hread
        simp only [if_neg hreset, if_neg hone]
        refine ⟨fun hall _ => ?_, fun hvalue b => ?_⟩
        · have htrue := hall true
          rw [Bool.true_or] at htrue
          exact htrue.symm
        · rw [hvalue hstale, Bool.or_true]
  · refine ⟨fun _ hstale => (hread (hstale.2.2.2 f hf howns)).elim, fun _ b => ?_⟩
    rw [decide_eq_false hread, Bool.false_and, Bool.false_and]

/-- No bit type starts at the first bit of a byte that another one reaches into. -/
lemma not_resets_of_crossing (hcross : f.start / 8 ≠ i / 8) :
    ∀ g ∈ fields, ¬ g.Resets state i := by
  obtain ⟨hfrom, hto⟩ := hcovers
  rintro g hg ⟨hpart, -, hstart⟩
  have hpos : g.bits % 8 ≠ 0 := hpart
  have hgi : g.Covers g.start := ⟨Nat.le_refl _, by omega⟩
  have hfi : f.Covers g.start := ⟨by omega, by omega⟩
  have heq := covers_unique hspread hf hg hfi hgi
  rw [heq] at hcross
  omega

/-- A bit that a bit type has behind the byte where it starts is zero in byte 1, and left over
elsewhere. -/
lemma uploadedBit_image_crossing (hbit : ¬ f.Whole) (hcross : f.start / 8 ≠ i / 8) :
    (∀ b, uploadedBit state i (fun f => f.value i bytes) fields
      (if i / 8 = 1 then false else b) = imageBit fields state bytes i) ↔
    i / 8 = 1 ∧ (f.Readable state → f.value i bytes = false) := by
  have hunique : ∀ g ∈ fields, g.Covers i → g = f := fun g hg hgi =>
    (covers_unique hspread hf hg hcovers hgi).symm
  have hreset : ¬ ∃ g ∈ fields, g.Resets state i := fun ⟨g, hg, hgi⟩ =>
    not_resets_of_crossing hspread hf hcovers hcross g hg hgi
  have hnone (b : Bool) : uploadedBit state i (fun f => f.value i bytes) fields b = b := by
    rw [uploadedBit_none (fun g hg hwhole hgi => hbit (hunique g hg hgi ▸ hwhole))
      fun g hg hgi => hcross (hunique g hg hgi.2.2 ▸ hgi.2.1), if_neg hreset]
  simp only [hnone, imageBit_of_covers hspread hf hcovers]
  by_cases hone : i / 8 = 1
  · simp only [hone, if_true, true_and, forall_const]
    by_cases hread : f.Readable state
    · rw [decide_eq_true hread, Bool.true_and]
      exact ⟨fun h _ => h.symm, fun h => (h hread).symm⟩
    · rw [decide_eq_false hread, Bool.false_and]
      exact ⟨fun _ h => (hread h).elim, fun _ => rfl⟩
  · simp only [hone, if_false, false_and, iff_false]
    intro hall
    exact Bool.false_ne_true ((hall false).trans (hall true).symm)

end covered

/-- One bit of the buffer is that of the image whatever was there, if what is left over does not
show in it. -/
lemma uploadedBit_image_iff (hspread : fields.Pairwise fun f g => f.start + f.bits ≤ g.start) :
    (∀ b, uploadedBit state i (fun f => f.value i bytes) fields (if i / 8 = 1 then false else b) =
      imageBit fields state bytes i) ↔
    (StaleBit fields state i → ∃ f ∈ fields, f.Owns i ∧ f.value i bytes = true) ∧
      (i / 8 = 1 → ∀ f ∈ fields, ¬ f.Whole → f.start < 8 → f.Covers i → f.Readable state →
        f.value i bytes = false) := by
  by_cases hsome : ∃ f ∈ fields, f.Covers i
  · obtain ⟨f, hf, hcovers⟩ := hsome
    have hunique : ∀ g ∈ fields, g.Covers i → g = f := fun g hg hgi =>
      (covers_unique hspread hf hg hcovers hgi).symm
    by_cases hwhole : f.Whole
    · refine ⟨fun _ => ⟨fun hstale => (hstale.2.1 f hf hwhole hcovers).elim, ?_⟩,
        fun _ b => uploadedBit_image_whole hspread hf hcovers hwhole _⟩
      intro _ g hg hbit _ hgi
      exact (hbit (hunique g hg hgi ▸ hwhole)).elim
    · by_cases hsame : f.start / 8 = i / 8
      · rw [uploadedBit_image_part hspread hf hcovers hwhole hsame]
        constructor
        · intro hvalue
          refine ⟨fun hstale => ⟨f, hf, ⟨hwhole, hsame, hcovers⟩, hvalue hstale⟩, ?_⟩
          intro hone g hg _ hstart hgi
          rw [hunique g hg hgi] at hstart
          omega
        · rintro ⟨howned, -⟩ hstale
          obtain ⟨g, hg, hgi, hvalue⟩ := howned hstale
          rw [hunique g hg hgi.2.2] at hvalue
          exact hvalue
      · rw [uploadedBit_image_crossing hspread hf hcovers hwhole hsame]
        constructor
        · rintro ⟨hone, hvalue⟩
          refine ⟨fun hstale => (hstale.1 hone).elim, ?_⟩
          intro _ g hg _ _ hgi hread
          rw [hunique g hg hgi] at hread ⊢
          exact hvalue hread
        · rintro ⟨howned, hcrossing⟩
          by_cases hone : i / 8 = 1
          · have hstart : f.start < 8 := by
              have hfrom := hcovers.1
              omega
            exact ⟨hone, hcrossing hone f hf hwhole hstart hcovers⟩
          · have hstale : StaleBit fields state i := by
              refine ⟨hone, fun g hg hw hgi => hwhole (hunique g hg hgi ▸ hw),
                not_resets_of_crossing hspread hf hcovers hsame, fun g hg hgi => ?_⟩
              exact (hsame (hunique g hg hgi.2.2 ▸ hgi.2.1)).elim
            obtain ⟨g, hg, hgi, -⟩ := howned hstale
            exact (hsame (hunique g hg hgi.2.2 ▸ hgi.2.1)).elim
  · have hnone : ∀ f ∈ fields, ¬ f.Covers i := fun f hf hcovers => hsome ⟨f, hf, hcovers⟩
    have himage : imageBit fields state bytes i = false :=
      decide_eq_false fun ⟨f, hf, hcovers, _⟩ => hnone f hf hcovers
    rw [himage]
    simp only [uploadedBit_none (fun f hf _ => hnone f hf) fun f hf h => hnone f hf h.2.2]
    by_cases hreset : ∃ f ∈ fields, f.Resets state i
    · obtain ⟨f, hf, hfi⟩ := hreset
      refine ⟨fun _ => ⟨fun hstale => (hstale.2.2.1 f hf hfi).elim, ?_⟩, fun _ b => ?_⟩
      · exact fun _ g hg _ _ hgi => (hnone g hg hgi).elim
      · rw [if_pos ⟨f, hf, hfi⟩]
    · by_cases hone : i / 8 = 1
      · refine ⟨fun _ => ⟨fun hstale => (hstale.1 hone).elim, ?_⟩, fun _ b => ?_⟩
        · exact fun _ g hg _ _ hgi => (hnone g hg hgi).elim
        · rw [if_neg hreset, if_pos hone]
      · have hstale : StaleBit fields state i :=
          ⟨hone, fun f hf _ => hnone f hf, fun f hf hfi => hreset ⟨f, hf, hfi⟩,
            fun f hf h => (hnone f hf h.2.2).elim⟩
        constructor
        · intro hall
          have htrue := hall true
          rw [if_neg hreset, if_neg hone] at htrue
          cases htrue
        · rintro ⟨howned, -⟩
          obtain ⟨f, hf, howns, -⟩ := howned hstale
          exact (hnone f hf howns.2.2).elim

end image

/-! ## One pass -/

section pass

variable {buffer len : ℕ} {bytes₀ bytes : ByteStore} {state : Byte}

/-- The first row takes at least the bits of its entry. -/
lemma Objectlist.HasImage.le_fieldBits (h : o.HasImage nsub) (d : Objd)
    (hd : o.objdesc[nsub]? = some d) : d.bitlength.toNat ≤ o.fieldBits nsub d := by
  rw [fieldBits]
  split
  case isTrue hfirst =>
    refine h.count hfirst.1 hfirst.2 d (row_eq_ok.mpr ?_)
    rw [← hfirst.1]
    exact hd
  case isFalse => exact Nat.le_refl _

lemma Objectlist.HasImage.spread (h : o.HasImage nsub) :
    (o.fields nsub).Pairwise (fun f g => f.start + f.bits ≤ g.start) ∧
      ∀ f ∈ o.fields nsub, f.start + f.bits ≤ o.imageBits nsub ∧ (f.Whole → f.start % 8 = 0) := by
  obtain ⟨hspread, hinside⟩ := @caFields_spread o (o.maxsub.toNat + 1 - nsub) nsub 0 h.le_fieldBits
  exact ⟨hspread, fun f hf => (hinside f hf).2⟩

lemma Objectlist.HasImage.fits (h : o.HasImage nsub) (hlt : o.imageBits nsub + 7 < 2 ^ 32)
    (hlen : o.imageSize nsub ≤ len) (hapart : ∀ f ∈ o.fields nsub, f.Apart buffer len) :
    ∀ f ∈ o.fields nsub, f.Fits buffer len := by
  intro f hf
  obtain ⟨hto, haligned⟩ := h.spread.2 f hf
  rw [imageSize] at hlen
  exact ⟨by omega, haligned, by omega, hapart f hf⟩

lemma bit_prepare (i : ℕ) : (CaMode.upload.prepare buffer bytes).bit (8 * buffer + i) =
    if i / 8 = 1 then false else bytes.bit (8 * buffer + i) := by
  have hbyte : (8 * buffer + i) / 8 = buffer + i / 8 := by omega
  rw [CaMode.prepare, ByteStore.bit, hbyte, ByteStore.copy]
  by_cases hone : i / 8 = 1
  · rw [if_pos (by omega), if_pos hone]
    exact BitVec.getLsbD_zero
  · rw [if_neg (by omega), if_neg hone, ByteStore.bit, hbyte]

/-- The buffer after an upload of the object. -/
def Objectlist.uploaded (o : Objectlist) (nsub buffer : ℕ) (state : Byte) (bytes : ByteStore) :
    ByteStore :=
  (o.fields nsub).foldl (CaField.upload buffer state) (CaMode.upload.prepare buffer bytes)

/-- An upload, bit by bit. -/
lemma Objectlist.bit_uploaded (hfits : ∀ f ∈ o.fields nsub, f.Fits buffer len) (hlen : 2 ≤ len)
    (hagree : AgreeOutside buffer len bytes₀ bytes) (i : ℕ) :
    (o.uploaded nsub buffer state bytes).bit (8 * buffer + i) =
      uploadedBit state i (fun f => f.value i bytes₀) (o.fields nsub)
        (if i / 8 = 1 then false else bytes.bit (8 * buffer + i)) := by
  have hprepared : AgreeOutside buffer len bytes₀ (CaMode.upload.prepare buffer bytes) := by
    intro a ha
    have hkept : (bytes.copy (buffer + 1) 1 (fun _ => 0) 0) a = bytes a :=
      ByteStore.copy_of_outside (by omega)
    exact hkept.trans (hagree a ha)
  rw [uploaded, bit_foldl_upload hfits hprepared, bit_prepare]

/-- The upload is the image whatever was in the buffer, exactly if what is left over does not
show. -/
lemma Objectlist.uploaded_image_iff (h : o.HasImage nsub)
    (hfits : ∀ f ∈ o.fields nsub, f.Fits buffer len) (hlen : 2 ≤ len)
    (hsize : o.imageSize nsub ≤ len) :
    (∀ bytes, AgreeOutside buffer len bytes₀ bytes → ∀ i < 8 * o.imageSize nsub,
      (o.uploaded nsub buffer state bytes).bit (8 * buffer + i) =
        imageBit (o.fields nsub) state bytes₀ i) ↔
    PacksCleanly (o.fields nsub) state bytes₀ (o.imageSize nsub) := by
  have onebit (i : ℕ) := @uploadedBit_image_iff (o.fields nsub) state bytes₀ i h.spread.1
  constructor
  · intro hall
    have hbit (i : ℕ) (hi : i < 8 * o.imageSize nsub) := (onebit i).mp fun b => by
      -- the same bit everywhere in the buffer
      have hagree : AgreeOutside buffer len bytes₀
          (bytes₀.copy buffer len (fun _ => if b then 0xff else 0) 0) := fun a ha =>
        ByteStore.copy_of_outside ha
      have hsame := hall _ hagree i hi
      rw [bit_uploaded hfits hlen hagree] at hsame
      have hb : (bytes₀.copy buffer len (fun _ => if b then 0xff else 0) 0).bit
          (8 * buffer + i) = b := by
        have hbyte : (8 * buffer + i) / 8 = buffer + i / 8 := by omega
        rw [ByteStore.bit, hbyte, ByteStore.copy, if_pos (by omega)]
        generalize hj : (8 * buffer + i) % 8 = j
        have hj' : j < 8 := by omega
        cases b with
        | false => exact BitVec.getLsbD_zero
        | true =>
            have hones : ∀ j < 8, (0xff : Byte).getLsbD j = true := by decide
            exact hones j hj'
      rw [hb] at hsame
      exact hsame
    exact ⟨fun i hi => (hbit i hi).1, fun i hi => (hbit i hi).2⟩
  · intro hclean bytes hagree i hi
    rw [bit_uploaded hfits hlen hagree]
    exact (onebit i).mpr ⟨hclean.stale i hi, hclean.crossing i hi⟩ _

end pass

/-! ## The request and its reply -/

/-- The inbox holds a request for the upload of an object, from row `nsub` on, that is found; the
mailboxes have room for a reply, and a size of 16 bits. -/
structure AsksObject (env : CoeEnv σ) (c : Coe σ) (o : Objectlist) (nsub : ℕ) : Prop where
  accepted : CoeAccepted env.sys.opts c.mb
  service : c.mb.service = coeSdorequest
  held : c.mb.sdoHeld.active = false
  command : c.mb.sdoCommand &&& 0xe0 = coeCommandUploadrequest
  complete : c.mb.sdoCommand &&& coeCompleteaccess = coeCompleteaccess
  length : (c.mb.headerLength 0).toNat = coeHeadersize
  lookup : completeAccessGetVariables env.sys.dict.table c.mb.sdoIndex c.mb.sdoSubindex =
    .ok (.ok (o, nsub))
  room : 16 ≤ c.mb.activembxsize
  room_lt : c.mb.activembxsize < 2 ^ 16

/-- The rows up to `maxsub` are there, and the image fits the preallocated buffer with at most 65535
bytes: `SDO_upload_complete_access` refuses a larger one, and takes a size beyond that for an abort
code. -/
structure Objectlist.FitsBuffer (o : Objectlist) (opts : Options) (nsub : ℕ) : Prop where
  rows : o.maxsub.toNat < o.objdesc.length
  size : o.imageSize nsub ≤ 0xffff
  fits : o.imageSize nsub + opts.preallocFactor * coeHeadersize ≤ opts.preallocBufferSize

/-- The row that is found is one up to `maxsub`, and one of the object's. -/
lemma AsksObject.row {env : CoeEnv σ} (h : AsksObject env c o nsub) :
    nsub ≤ o.maxsub.toNat ∧ nsub < o.objdesc.length := by
  obtain ⟨-, hsub⟩ := completeAccessGetVariables_found h.lookup
  obtain ⟨hle, d, hrow, -⟩ := sdoFindsubindex_found hsub
  exact ⟨hle, (List.getElem?_eq_some_iff.mp hrow).1⟩

/-- The command of the expedited reply to an upload of this many bits with Complete Access. -/
def caExpeditedCommand (bits : ℕ) : Byte :=
  coeCommandUploadresponse ||| coeCompleteaccess ||| coeSizeIndicator |||
    (coeExpeditedIndicator |||
      (if 24 < bits then 0 else .ofNat 8 (4 * sub32 3 (sub32 bits 1 / 8))))

/-- The size that an expedited reply announces: for an image without bits it is 4. -/
lemma caExpeditedCommand_size {bits : ℕ} (h : bits ≤ 32) :
    caExpeditedCommand bits &&& coeExpeditedIndicator ≠ 0 ∧
      4 - ((caExpeditedCommand bits >>> 2) &&& 3).toNat =
        (if bits = 0 then 4 else (bits + 7) / 8) ∧
      caExpeditedCommand bits &&& 0xe0 = coeCommandUploadresponse := by
  have hall : ∀ bits : Fin 33, caExpeditedCommand bits &&& coeExpeditedIndicator ≠ 0 ∧
      4 - ((caExpeditedCommand bits >>> 2) &&& 3).toNat =
        (if bits.val = 0 then 4 else (bits.val + 7) / 8) ∧
      caExpeditedCommand bits &&& 0xe0 = coeCommandUploadresponse := by decide
  exact hall ⟨bits, by omega⟩

/-- The head of a reply to an upload with Complete Access. -/
def Mailbox.caHead (m : Mailbox) (n : ℕ) (index : Word) (subindex : Byte) : Mailbox :=
  { m.putSdo n coeDefaultlength coeSdoresponse
      (coeCommandUploadresponse ||| coeCompleteaccess ||| coeSizeIndicator) index subindex with
    segmented := 0 }

section reply

variable {m : Mailbox} {n : ℕ} {index : Word} {subindex : Byte} {src : ByteStore} {start : ℕ}

lemma Mailbox.caHead_message : (m.caHead n index subindex).message n =
    overSdo (m.message n) coeDefaultlength coeSdoresponse
      (coeCommandUploadresponse ||| coeCompleteaccess ||| coeSizeIndicator) index subindex :=
  message_putSdo n _ _ _ _ _

open ByteStore in
/-- What an expedited reply says. -/
lemma Mailbox.caExpedited_value {bits : ℕ} (hbits : bits ≤ 32) (len : ℕ) {reply : ByteStore}
    (hreply : reply = (((m.caHead n index subindex).orCommand n (coeExpeditedIndicator |||
      (if 24 < bits then 0 else .ofNat 8 (4 * sub32 3 (sub32 bits 1 / 8))))).updateMbx fun mbx =>
        mbx.copy ((m.caHead n index subindex).buffer n + sizeOffset) len src start).message n) :
    reply 8 &&& 0xe0 = coeCommandUploadresponse ∧
      (uploadValue reply).1 = (if bits = 0 then 4 else (bits + 7) / 8) ∧
      (uploadValue reply).2.length = (uploadValue reply).1 ∧
      (bits ≠ 0 → len = (bits + 7) / 8 → (uploadValue reply).2 = src.bytes start len) := by
  obtain ⟨hexpedited, hsize, hupload⟩ := caExpeditedCommand_size hbits
  have hmessage := message_load (m := (m.caHead n index subindex).orCommand n
    (coeExpeditedIndicator ||| (if 24 < bits then 0
      else .ofNat 8 (4 * sub32 3 (sub32 bits 1 / 8))))) n sizeOffset len src start
  rw [message_orCommand, caHead_message, overSdo_command] at hmessage
  have hfull : reply = ((overSdo (m.message n) coeDefaultlength coeSdoresponse
      (coeCommandUploadresponse ||| coeCompleteaccess ||| coeSizeIndicator) index subindex).set 8
        (caExpeditedCommand bits)).copy sizeOffset len src start := hreply.trans hmessage
  have hcommand : reply 8 = caExpeditedCommand bits := by
    rw [hfull, copy_of_outside (.inl (by decide)), set_self]
  rw [uploadValue, hcommand, if_pos hexpedited, hsize]
  refine ⟨hupload, rfl, length_bytes .., fun hpos hlen => ?_⟩
  dsimp only
  rw [if_neg hpos, ← hlen, hfull, bytes_copy]

open ByteStore in
/-- What a normal reply says. -/
lemma Mailbox.caNormal_value {m₂ : Mailbox} {size first : ℕ} (hlt : size ≤ 0xffff)
    (hfirst : first ≤ size) (hfits : first < 2 ^ 16 - 10)
    (hmbx : m₂.mbx = ((m.caHead n index subindex).putSize n (.ofNat 32 size)).mbx)
    (hroom : m₂.activembxsize = m.activembxsize) {reply : ByteStore}
    (hreply : reply = ((m₂.putLength n (coeHeadersize + first)).updateMbx fun mbx =>
      mbx.copy ((m.caHead n index subindex).buffer n + dataOffset) first src start).message n) :
    reply 8 &&& 0xe0 = coeCommandUploadresponse ∧
      uploadValue reply = (size, src.bytes start first) := by
  rw [normal_message (m.caHead n index subindex) m₂ n _ hmbx hroom, caHead_message] at hreply
  have hcommand : reply 8 = coeCommandUploadresponse ||| coeCompleteaccess |||
      coeSizeIndicator := by
    rw [hreply, copy_of_outside (.inl (by decide)), setWord_of_outside _ (.inr (by decide)),
      setDword_of_outside _ (.inl (by decide)), overSdo_command]
  have hsize : (reply.dword sizeOffset).toNat = size := by
    rw [hreply, dword_copy_of_disjoint (.inr (by decide)), dword_setWord_of_disjoint _
      (.inl (by decide)), dword_setDword, BitVec.toNat_ofNat]
    omega
  have hlength : (reply.word 0).toNat - coeHeadersize = first := by
    rw [hreply, word_copy_of_disjoint (.inr (by decide)), word_setWord, BitVec.toNat_ofNat]
    simp only [coeHeadersize]
    omega
  rw [uploadValue, hcommand, if_neg (by decide), hsize, hlength]
  refine ⟨by decide, ?_⟩
  dsimp only
  rw [Nat.min_eq_right hfirst, hreply, bytes_copy]

end reply

/-- The storage at an address, as an entry that segments can be taken from. -/
def storageAt (a : ℕ) : Objd :=
  { subindex := 0, datatype := 0, bitlength := 0, flags := 0, name := [], value := 0, data := a }

/-- The end of a normal reply. -/
lemma wp_caReplyEnd (hooks : SdoHooksNeutral env.sys.cfg) {n start first dst : ℕ} {index : Word}
    {subindex : Byte} {flags : Word} {m₂ : Mailbox} {outside : σ} {mem : Memory}
    (hstart : start ≠ 0) {Q : Unit → Coe σ → Prop}
    (hQ : ∀ o, Q () ⟨o, (((m₂.putLength n (coeHeadersize + first)).updateMbx fun mbx =>
      mbx.copy dst first mem.bytes start).setControl n .outreq).release, mem⟩) :
    wp env k (do
      coeModifyMb fun m => m.putLength n (coeHeadersize + first)
      sdoLoad start first dst
      finishUpload n index subindex flags) Q ⟨outside, m₂, mem⟩ := by
  rw [wp_bind, wp_coeModifyMb, wp_bind, wp_sdoLoad hstart]
  exact wp_finishUpload hooks fun o => hQ o

/-- The reply announces the size of the image and carries as much of the buffer as fits, unless
the image is empty. -/
lemma caUploadReply_replies (hooks : SdoHooksNeutral env.sys.cfg) {n bits size : ℕ}
    (hsize : size = (bits + 7) / 8) (hlt : size ≤ 0xffff) (hroom : 16 ≤ c.mb.activembxsize)
    (hroom' : c.mb.activembxsize < 2 ^ 16) (index : Word) (subindex : Byte) (flags : Word) :
    wp env k (caUploadReply n index subindex bits size flags) (fun _ c' => ∃ m' : Mailbox,
      c'.mb = (m'.setControl n .outreq).release ∧
      (m'.control = c.mb.control ∧ m'.txcue = c.mb.txcue ∧ m'.sdoHeld = c.mb.sdoHeld ∧
        m'.activembxsize = c.mb.activembxsize) ∧
      (m'.message n) 8 &&& 0xe0 = coeCommandUploadresponse ∧
      (uploadValue (m'.message n)).1 = (if bits = 0 then 4 else size) ∧
      (bits = 0 → (uploadValue (m'.message n)).2.length = (uploadValue (m'.message n)).1) ∧
      (bits ≠ 0 → (uploadValue (m'.message n)).2 =
        c.mem.bytes.bytes env.sys.mbxdata (firstUpload c.mb.activembxsize size)) ∧
      (firstUpload c.mb.activembxsize size < size → m'.Uploading (storageAt env.sys.mbxdata) size
        (firstUpload c.mb.activembxsize size)) ∧ c'.mem = c.mem) c := by
  have hbuffer := env.sys.mbxdata_ne
  have hdsize : c.mb.mbxDsize = c.mb.activembxsize - 6 := Mailbox.mbxDsize_eq (by
    rw [escMbxhsize]
    omega) (by omega)
  have hmod : (size + coeHeadersize) % 2 ^ 32 = size + 10 := by
    rw [coeHeadersize]
    omega
  have hpart : sub32 (c.mb.activembxsize - 6) coeHeadersize = c.mb.activembxsize - 16 := by
    simp only [sub32, coeHeadersize]
    omega
  rw [caUploadReply, wp_bind, wp_ask, wp_bind, wp_coeModifyMb, wp_bind, wp_coeMb]
  have hkept : (c.mb.caHead n index subindex).control = c.mb.control ∧
      (c.mb.caHead n index subindex).txcue = c.mb.txcue ∧
      (c.mb.caHead n index subindex).sdoHeld = c.mb.sdoHeld ∧
      (c.mb.caHead n index subindex).activembxsize = c.mb.activembxsize := ⟨rfl, rfl, rfl, rfl⟩
  have hhead : (c.mb.caHead n index subindex).mbxDsize = c.mb.activembxsize - 6 := hdsize
  have hexpedited (len : ℕ) (src : ByteStore) (start : ℕ) (hbits : bits ≤ 32) :=
    @Mailbox.caExpedited_value c.mb n index subindex src start bits hbits len _ rfl
  have hnormal (first : ℕ) (src : ByteStore) (start : ℕ) (hfirst : first ≤ size)
      (hfits : first < 2 ^ 16 - 10) (m₂ : Mailbox) (hmbx : m₂.mbx = _)
      (hroom : m₂.activembxsize = c.mb.activembxsize) :=
    @Mailbox.caNormal_value c.mb n index subindex src start m₂ size first hlt hfirst hfits hmbx
      hroom _ rfl
  generalize hm : c.mb.caHead n index subindex = m₁ at hkept hhead hexpedited hnormal
  have hstate : ({ c.mb.putSdo n coeDefaultlength coeSdoresponse (coeCommandUploadresponse |||
      coeCompleteaccess ||| coeSizeIndicator) index subindex with segmented := 0 } : Mailbox) =
        m₁ := hm
  rw [hstate]
  refine (wp_ite _ _ _ _).mpr ⟨fun hfour => ?_, fun hlarge => ?_⟩
  · have hfirst : firstUpload c.mb.activembxsize size = size := if_neg fun h => by omega
    obtain ⟨hcommand, hannounced, hlength, hvalue⟩ :=
      hexpedited size c.mem.bytes env.sys.mbxdata (by omega)
    rw [← hsize] at hannounced hvalue
    rw [wp_bind, wp_coeModifyMb, wp_bind, wp_sdoLoad hbuffer, hfirst]
    exact wp_finishUpload hooks fun o => ⟨_, rfl, hkept, hcommand, hannounced,
      fun _ => hlength, fun hpos => hvalue hpos rfl, fun h => (Nat.lt_irrefl _ h).elim, rfl⟩
  · have hpos : bits ≠ 0 := by omega
    simp only [if_neg hpos]
    rw [wp_bind, wp_coeModifyMb, wp_bind, wp_when]
    refine ⟨fun hmore => ?_, fun hall => ?_⟩
    · have hfirst : firstUpload c.mb.activembxsize size = c.mb.activembxsize - 16 :=
        if_pos ⟨by omega, by
          rw [hhead, hmod] at hmore
          simp only [escMbxhsize, coeHeadersize]
          omega⟩
      obtain ⟨hcommand, hvalue⟩ :=
        hnormal (c.mb.activembxsize - 16) c.mem.bytes env.sys.mbxdata (by omega)
        (by omega) { m₁.putSize n (.ofNat 32 size) with
          frags := size, fragsleft := c.mb.activembxsize - 16, segmented := mbxseu
          data := env.sys.mbxdata, flags := completeAccessFlag } rfl hkept.2.2.2
      simp only [if_pos hmore]
      simp only [hhead, hpart, hfirst]
      rw [wp_coeModifyMb]
      exact wp_caReplyEnd hooks hbuffer fun o => ⟨_, rfl, hkept, hcommand,
        congrArg Prod.fst hvalue, fun hzero => (hpos hzero).elim, fun _ => congrArg Prod.snd hvalue,
        fun _ => ⟨rfl, rfl, rfl, rfl⟩, rfl⟩
    · have hfirst : firstUpload c.mb.activembxsize size = size :=
        if_neg fun h => hall (by
          rw [hhead, hmod]
          simp only [escMbxhsize, coeHeadersize] at h
          omega)
      obtain ⟨hcommand, hvalue⟩ :=
        hnormal size c.mem.bytes env.sys.mbxdata (Nat.le_refl _) (by omega)
        (m₁.putSize n (.ofNat 32 size)) rfl hkept.2.2.2
      simp only [if_neg hall, hfirst]
      exact wp_caReplyEnd hooks hbuffer fun o => ⟨_, rfl, hkept, hcommand,
        congrArg Prod.fst hvalue, fun hzero => (hpos hzero).elim, fun _ => congrArg Prod.snd hvalue,
        fun h => (Nat.lt_irrefl _ h).elim, rfl⟩

/-- One pass uploads the object to the buffer, and replies with as much as fits. -/
lemma AsksObject.uploads (hooks : SdoHooksNeutral env.sys.cfg) (h : AsksObject env c o nsub)
    (hentries : o.HasEntries nsub) (hbuffer : o.FitsBuffer env.sys.opts nsub) :
    wp env k escCoeprocess (fun _ c' =>
      c'.mem.bytes = o.uploaded nsub env.sys.mbxdata (env.alStatus.setWidth 8 &&& 0x0f)
        c.mem.bytes ∧
      ∃ n, c.mb.Replied env.sys.opts c'.mb n ∧
        (c'.mb.message n) 8 &&& 0xe0 = coeCommandUploadresponse ∧
        (uploadValue (c'.mb.message n)).1 =
          (if o.imageBits nsub = 0 then 4 else o.imageSize nsub) ∧
        (o.imageBits nsub = 0 →
          (uploadValue (c'.mb.message n)).2.length = (uploadValue (c'.mb.message n)).1) ∧
        (o.imageBits nsub ≠ 0 → (uploadValue (c'.mb.message n)).2 = c'.mem.bytes.bytes
          env.sys.mbxdata (firstUpload c.mb.activembxsize (o.imageSize nsub))) ∧
        (firstUpload c.mb.activembxsize (o.imageSize nsub) < o.imageSize nsub →
          c'.mb.Uploading (storageAt env.sys.mbxdata) (o.imageSize nsub)
            (firstUpload c.mb.activembxsize (o.imageSize nsub)))) c := by
  have hlookup := h.lookup
  have himage : o.HasImage nsub := ⟨hentries, h.row.1, hbuffer.rows⟩
  have hsize := hbuffer.size
  have hfits := hbuffer.fits
  have hle : o.imageSize nsub = (o.imageBits nsub + 7) / 8 := rfl
  have hlt : o.imageBits nsub + 7 < 2 ^ 32 := by omega
  obtain ⟨ho, hsub⟩ := completeAccessGetVariables_found hlookup
  obtain ⟨first, hrow⟩ := sdoFindsubindex_row_zero hsub
  refine wp_escCoeprocess_request h.accepted h.service h.held ?_
  rw [sdoRequest_uploadComplete (by exact h.command) (by exact h.complete) (by exact h.length),
    sdoUploadCompleteAccess, wp_bind, wp_coeMb, wp_bind, wp_coeTable, wp_bind, wp_lift]
  refine ⟨.ok (o, nsub), hlookup, ?_⟩
  refine wp_claim_idle (by exact h.accepted.idle) fun n hn => ?_
  rw [if_neg (Nat.pos_iff_ne_zero.mp hn.1), wp_bind, wp_lift]
  refine ⟨first, hrow, ?_⟩
  rw [wp_bind]
  refine wp_completeAccessSubindexLoop ho.mem himage hlt fun bits writes hbits => ?_
  rw [hbits rfl, bits2bytes_eq hlt, wp_bind, wp_ask, ← hle, if_neg (by omega), if_neg (by omega),
    wp_bind, foldl_visit_size]
  refine wp_escUploadPreObjecthandler hooks (by omega) fun outside => ?_
  dsimp only
  rw [if_neg (not_not.mpr rfl), wp_bind]
  refine wp_completeAccessSubindexLoop ho.mem himage hlt fun _ writes' _ => ?_
  refine wp.mono (caUploadReply_replies hooks hle hsize (by exact h.room)
    (by exact h.room_lt) _ _ _)
    fun _ c' h' => ?_
  obtain ⟨m', hmb, ⟨hcontrol, hcue, hheld, hroom⟩, hcommand, hannounced, hlength, hvalue,
    huploading,
    hmem⟩ := h'
  have hprepared : c.mb.Prepared env.sys.opts m' n := ⟨hn, hcontrol, hcue, hheld, hroom⟩
  rw [hmem, hmb]
  refine ⟨rfl, n, hprepared.replied, hcommand, hannounced, hlength, hvalue, fun hmore => ?_⟩
  have hup := huploading hmore
  exact ⟨hup.segmented, hup.data, hup.frags, hup.fragsleft⟩

/-- An image that does not fit is not uploaded: the reply is an abort. -/
lemma AsksObject.refused (h : AsksObject env c o nsub) (hentries : o.HasEntries nsub)
    (hlt : o.imageBits nsub + 7 < 2 ^ 32) (hrows : o.maxsub.toNat < o.objdesc.length)
    (hlarge : ¬ o.FitsBuffer env.sys.opts nsub) :
    wp env k escCoeprocess (fun _ c' => ∃ n, c.mb.Replied env.sys.opts c'.mb n ∧
      c'.mb.message n 8 = coeCommandSdoabort) c := by
  have himage : o.HasImage nsub := ⟨hentries, h.row.1, hrows⟩
  have hle : o.imageSize nsub = (o.imageBits nsub + 7) / 8 := rfl
  obtain ⟨ho, hsub⟩ := completeAccessGetVariables_found h.lookup
  obtain ⟨first, hrow⟩ := sdoFindsubindex_row_zero hsub
  refine wp_escCoeprocess_request h.accepted h.service h.held ?_
  rw [sdoRequest_uploadComplete (by exact h.command) (by exact h.complete) (by exact h.length),
    sdoUploadCompleteAccess, wp_bind, wp_coeMb, wp_bind, wp_coeTable, wp_bind, wp_lift]
  refine ⟨.ok (o, nsub), h.lookup, ?_⟩
  refine wp_claim_idle (by exact h.accepted.idle) fun n hn => ?_
  have hne := Nat.pos_iff_ne_zero.mp hn.1
  rw [if_neg hne, wp_bind, wp_lift]
  refine ⟨first, hrow, ?_⟩
  rw [wp_bind]
  refine wp_completeAccessSubindexLoop ho.mem himage hlt fun bits writes hbits => ?_
  rw [hbits rfl, bits2bytes_eq hlt, wp_bind, wp_ask, ← hle]
  have aborts {abortcode : Dword} (habort : abortcode ≠ 0) (mem : Memory) : wp env k
      (setStateIdle n c.mb.taken.sdoIndex c.mb.taken.sdoSubindex abortcode)
      (fun _ c' => ∃ n, c.mb.Replied env.sys.opts c'.mb n ∧
        c'.mb.message n 8 = coeCommandSdoabort) ⟨c.outside, c.mb.taken.claim n, mem⟩ := by
    refine wp_setStateIdle_abort hne habort ⟨n, ?_, Mailbox.aborted_message ..⟩
    have hprepared : c.mb.Prepared env.sys.opts (((c.mb.taken.claim n).putSdo n coeDefaultlength
        coeSdorequest coeCommandSdoabort c.mb.taken.sdoIndex c.mb.taken.sdoSubindex).putSize n
          abortcode) n := ⟨hn, rfl, rfl, rfl, rfl⟩
    exact hprepared.replied
  refine (wp_ite _ _ _ _).mpr ⟨fun hcode => aborts ?_ _, fun hsize => ?_⟩
  · intro hzero
    have hcount : o.imageSize nsub % 2 ^ 32 = 0 := by
      rw [← BitVec.toNat_ofNat, hzero]
      rfl
    omega
  · refine (wp_ite _ _ _ _).mpr ⟨fun _ => aborts (by decide) _, fun hfits => ?_⟩
    exact (hlarge ⟨hrows, Nat.not_lt.mp hsize, Nat.not_lt.mp hfits⟩).elim

/-- Where a row is missing the pass that adds up the sizes runs out of the object's table. -/
lemma AsksObject.runs_out (h : AsksObject env c o nsub) (hentries : o.HasEntries nsub)
    (hrows : ¬ o.maxsub.toNat < o.objdesc.length) :
    wlp env k escCoeprocess (fun _ _ => False) c := by
  refine wlp_escCoeprocess_accepted h.accepted ?_
  rw [coeDispatch_request (by exact h.service) (by exact h.held),
    sdoRequest_uploadComplete (by exact h.command) (by exact h.complete) (by exact h.length)]
  refine sdoUploadCompleteAccess_faults (by exact h.accepted.idle) ?_
  rintro ⟨r, hr, hinside⟩
  have hfound : r = .ok (o, nsub) := Except.ok.inj (hr.symm.trans h.lookup)
  obtain ⟨hle, hlt⟩ := h.row
  obtain ⟨-, hsub⟩ := completeAccessGetVariables_found h.lookup
  obtain ⟨first, hrow⟩ := sdoFindsubindex_row_zero hsub
  rcases hinside o nsub hfound first hrow with hstring | hpass
  · exact hentries.plain first hrow hstring
  · have hlength := caRowsInside_length hpass (Nat.le_of_lt hlt)
    omega

/-- A buffer that is there has room for the padding of subindex 0. -/
lemma Options.two_le_preallocBufferSize (opts : Options) (h : 0 < opts.preallocBufferSize) :
    2 ≤ opts.preallocBufferSize := by
  have hroom := opts.mbxSize_gt.1
  rw [preallocBufferSize] at h ⊢
  have hfactor : 0 < opts.preallocFactor := Nat.pos_of_mul_pos_right h
  have hmul := Nat.le_mul_of_pos_left opts.mbxSize hfactor
  simp only [escMbxhsize] at hroom
  omega

/-- The request does not depend on the variables. -/
lemma AsksObject.of_mem (h : AsksObject env c o nsub) (mem : Memory) :
    AsksObject env { c with mem := mem } o nsub :=
  ⟨h.accepted, h.service, h.held, h.command, h.complete, h.length, h.lookup, h.room, h.room_lt⟩

/-- The upload of an object answers with its image: the buffer holds the image, and the reply is
an upload response that announces its size. -/
def AnswersImage (env : CoeEnv σ) (c : Coe σ) (o : Objectlist) (nsub : ℕ) (bytes₀ : ByteStore)
    (c' : Coe σ) : Prop :=
  (∀ i < 8 * o.imageSize nsub, c'.mem.bytes.bit (8 * env.sys.mbxdata + i) =
    imageBit (o.fields nsub) (env.alStatus.setWidth 8 &&& 0x0f) bytes₀ i) ∧
  ∃ n, c.mb.Replied env.sys.opts c'.mb n ∧
    c'.mb.message n 8 &&& 0xe0 = coeCommandUploadresponse ∧
    (uploadValue (c'.mb.message n)).1 = o.imageSize nsub

/-- **Complete Access upload returns the object image**, whatever `ESCvar.mbxdata` held before,
exactly if the object's rows are there, its image fits the buffer, nothing left over in it shows and
the image is not empty. -/
theorem complete_access_image_iff (hooks : SdoHooksNeutral env.sys.cfg)
    (h : AsksObject env c o nsub) (hentries : o.HasEntries nsub)
    (hlt : o.imageBits nsub + 7 < 2 ^ 32)
    (hapart : ∀ f ∈ o.fields nsub, f.Apart env.sys.mbxdata env.sys.opts.preallocBufferSize) :
    (∀ bytes k,
      AgreeOutside env.sys.mbxdata env.sys.opts.preallocBufferSize c.mem.bytes bytes →
        wp env k escCoeprocess (fun _ c' => AnswersImage env c o nsub c.mem.bytes c')
          { c with mem := { c.mem with bytes := bytes } }) ↔
      o.FitsBuffer env.sys.opts nsub ∧
        PacksCleanly (o.fields nsub) (env.alStatus.setWidth 8 &&& 0x0f) c.mem.bytes
          (o.imageSize nsub) ∧ 0 < o.imageBits nsub := by
  have hle : o.imageSize nsub = (o.imageBits nsub + 7) / 8 := rfl
  have hinside (hbuffer : o.FitsBuffer env.sys.opts nsub) :
      o.imageSize nsub ≤ env.sys.opts.preallocBufferSize := by
    have hfits := hbuffer.fits
    omega
  have hfits (hbuffer : o.FitsBuffer env.sys.opts nsub) :=
    Objectlist.HasImage.fits ⟨hentries, h.row.1, hbuffer.rows⟩ hlt (hinside hbuffer) hapart
  have hlen (hbuffer : o.FitsBuffer env.sys.opts nsub) (hpos : 0 < o.imageBits nsub) :
      2 ≤ env.sys.opts.preallocBufferSize := by
    have hsize := hinside hbuffer
    exact env.sys.opts.two_le_preallocBufferSize (by omega)
  constructor
  · intro hall
    obtain ⟨_, c', hrun, -, n, hreplied, hupload, hannounced⟩ := hall c.mem.bytes 0 fun _ _ => rfl
    have hrows : o.maxsub.toNat < o.objdesc.length := by
      by_contra hmissing
      exact h.runs_out hentries hmissing () c' hrun
    have hbuffer : o.FitsBuffer env.sys.opts nsub := by
      by_contra hlarge
      obtain ⟨n', hreplied', habort⟩ := (h.refused hentries hlt hrows hlarge).wlp _ c' hrun
      rw [hreplied.unique hreplied', habort] at hupload
      exact absurd hupload (by decide)
    have hpos : 0 < o.imageBits nsub := by
      by_contra hzero
      obtain ⟨-, n', hreplied', -, hannounced', -⟩ :=
        (h.uploads hooks hentries hbuffer).wlp _ c' hrun
      rw [hreplied.unique hreplied'] at hannounced
      rw [hannounced, if_pos (by omega)] at hannounced'
      omega
    refine ⟨hbuffer, (o.uploaded_image_iff ⟨hentries, h.row.1, hrows⟩ (hfits hbuffer)
      (hlen hbuffer hpos) (hinside hbuffer)).mp fun bytes hagree i hi => ?_, hpos⟩
    obtain ⟨_, c', hrun, himage, -⟩ := hall bytes 0 hagree
    have hbytes := ((h.of_mem { c.mem with bytes := bytes }).uploads hooks hentries hbuffer).wlp
      _ c' hrun
    rw [← himage i hi, hbytes.1]
  · rintro ⟨hbuffer, hclean, hpos⟩ bytes k hagree
    refine ((h.of_mem { c.mem with bytes := bytes }).uploads hooks hentries hbuffer).mono
      fun _ c' hthen => ?_
    obtain ⟨hbytes, n, hreplied, hupload, hannounced, -⟩ := hthen
    refine ⟨fun i hi => ?_, n, hreplied, hupload, ?_⟩
    · rw [hbytes]
      exact (o.uploaded_image_iff ⟨hentries, h.row.1, hbuffer.rows⟩ (hfits hbuffer)
        (hlen hbuffer hpos) (hinside hbuffer)).mpr hclean bytes hagree i hi
    · rw [hannounced, if_neg (by omega)]

/-! ## Bits across a byte boundary -/

/-- A record of two bit types of five bits each: the second one starts at bit 21 of the image, and
reaches into byte 3. -/
def crossingObject : Objectlist :=
  { index := 0x7020, objtype := 9, maxsub := 2, name := []
    objdesc :=
      [constEntry 0 dtypeUnsigned8 8 2,
       { subindex := 1, datatype := dtypeUnsigned8, bitlength := 5, flags := 0x3f, name := []
         value := 0, data := 0x200 },
       { subindex := 2, datatype := dtypeUnsigned8, bitlength := 5, flags := 0x3f, name := []
         value := 0, data := 0x201 }] }

/-- A dictionary with this object alone. -/
def crossingDictionary : Dictionary where
  objects := [crossingObject]
  ascending := by decide
  below_sentinel := by decide
  storage := by decide +kernel

/-- The example device with this dictionary, in PREOP. -/
def crossingDevice : CoeEnv ByteStore := ⟨{ exampleSystem with dict := crossingDictionary }, 2⟩

/-- A request for the upload of the object. -/
def crossingRequest : Coe ByteStore :=
  ⟨fun _ => 0, exampleMailbox (sdoMessage 0x50 0x7020 0 []), ⟨fun _ => 0, [], false⟩⟩

lemma crossingRequest_asks : AsksObject crossingDevice crossingRequest crossingObject 0 := by
  constructor
  case accepted =>
    exact ⟨rfl, rfl, rfl, by decide, by decide, ⟨1, by decide, by decide, rfl⟩, by decide⟩
  case held => rfl
  case lookup => rfl
  all_goals decide

lemma crossingObject_entries : crossingObject.HasEntries 0 := by
  refine ⟨fun first hfirst => ?_, fun _ _ first hfirst => ?_⟩
  · cases hfirst
    decide
  · cases hfirst
    decide

lemma crossingObject_apart : ∀ f ∈ crossingObject.fields 0,
    f.Apart crossingDevice.sys.mbxdata crossingDevice.sys.opts.preallocBufferSize := by
  have hall : ∀ f ∈ crossingObject.fields 0, f.entry.data + f.entry.size ≤ 0x1000 := by decide
  exact fun f hf _ => .inl (hall f hf)

lemma exampleHooks_neutral : SdoHooksNeutral crossingDevice.sys.cfg := exampleCfg_neutral

/-- Bits across a byte boundary are lost: the byte they reach into shows what the buffer held
before. -/
theorem crossing_bits_lost : ¬ ∀ (env : CoeEnv ByteStore) (c : Coe ByteStore) (o : Objectlist)
    (nsub : ℕ), SdoHooksNeutral env.sys.cfg → AsksObject env c o nsub → o.HasEntries nsub →
    o.FitsBuffer env.sys.opts nsub →
    (∀ f ∈ o.fields nsub, f.Apart env.sys.mbxdata env.sys.opts.preallocBufferSize) →
    ∀ bytes k, AgreeOutside env.sys.mbxdata env.sys.opts.preallocBufferSize c.mem.bytes bytes →
      wp env k escCoeprocess (fun _ c' => AnswersImage env c o nsub c.mem.bytes c')
        { c with mem := { c.mem with bytes := bytes } } := by
  intro h
  obtain ⟨_, c', hrun, himage, -⟩ := h crossingDevice crossingRequest crossingObject 0
    exampleHooks_neutral crossingRequest_asks crossingObject_entries
    ⟨by decide, by decide, by decide⟩ crossingObject_apart
    (ByteStore.copy (fun _ => 0) 0x1000 768 (fun _ => 0xff) 0) 0
    fun a ha => ByteStore.copy_of_outside ha
  have hseen : (escCoeprocess crossingDevice 0 { crossingRequest with
      mem := { crossingRequest.mem with
        bytes := ByteStore.copy (fun _ => 0) 0x1000 768 (fun _ => 0xff) 0 } }).seen
      (fun c' => c'.mem.bytes.bit (8 * 0x1000 + 24)) = some true := by decide +kernel
  rw [hrun] at hseen
  have hbit := himage 24 (by decide)
  have hzero : imageBit (crossingObject.fields 0) (crossingDevice.alStatus.setWidth 8 &&& 0x0f)
      crossingRequest.mem.bytes 24 = false := by decide
  exact Bool.false_ne_true (hzero.symm.trans (hbit.symm.trans (Option.some.inj hseen)))

/-! ## Bits that are packed -/

/-- A record of a bit, three bits that may not be read, two bytes and four bits: a byte of bit
types, whole bytes, and bits behind them. -/
def packedObject : Objectlist :=
  { index := 0x7021, objtype := 9, maxsub := 4, name := []
    objdesc :=
      [constEntry 0 dtypeUnsigned8 8 4,
       { subindex := 1, datatype := dtypeBoolean, bitlength := 1, flags := 0x3f, name := []
         value := 0, data := 0x200 },
       { subindex := 2, datatype := dtypeUnsigned8, bitlength := 3, flags := 0x38, name := []
         value := 0, data := 0x201 },
       { subindex := 3, datatype := dtypeUnsigned16, bitlength := 16, flags := 0x3f, name := []
         value := 0, data := 0x202 },
       { subindex := 4, datatype := dtypeUnsigned8, bitlength := 4, flags := 0x3f, name := []
         value := 0, data := 0x204 }] }

/-- A dictionary with this object alone. -/
def packedDictionary : Dictionary where
  objects := [packedObject]
  ascending := by decide
  below_sentinel := by decide
  storage := by decide +kernel

/-- The example device with this dictionary, in PREOP. -/
def packedDevice : CoeEnv ByteStore := ⟨{ exampleSystem with dict := packedDictionary }, 2⟩

/-- A request for the upload of the object, whose entries hold ones. -/
def packedRequest : Coe ByteStore :=
  ⟨fun _ => 0, exampleMailbox (sdoMessage 0x50 0x7021 0 []), ⟨fun _ => 0xff, [], false⟩⟩

lemma packedRequest_asks : AsksObject packedDevice packedRequest packedObject 0 := by
  constructor
  case accepted =>
    exact ⟨rfl, rfl, rfl, by decide, by decide, ⟨1, by decide, by decide, rfl⟩, by decide⟩
  case held => rfl
  case lookup => rfl
  all_goals decide

lemma packedObject_entries : packedObject.HasEntries 0 := by
  refine ⟨fun first hfirst => ?_, fun _ _ first hfirst => ?_⟩
  · cases hfirst
    decide
  · cases hfirst
    decide

lemma packedObject_clean :
    PacksCleanly (packedObject.fields 0) (packedDevice.alStatus.setWidth 8 &&& 0x0f)
      packedRequest.mem.bytes (packedObject.imageSize 0) := by
  constructor
  case stale =>
    unfold StaleBit
    decide
  case crossing =>
    have hbehind : ∀ f ∈ packedObject.fields 0, ¬ f.Whole → ¬ f.start < 8 := by decide
    exact fun _ _ _ f hf hbits hstart => (hbehind f hf hbits hstart).elim

/-- Its upload is its image, whatever the buffer holds. -/
theorem complete_access_image_example :
    packedObject.FitsBuffer packedDevice.sys.opts 0 ∧
      ∀ bytes k, AgreeOutside 0x1000 768 packedRequest.mem.bytes bytes →
        wp packedDevice k escCoeprocess
          (fun _ c' => AnswersImage packedDevice packedRequest packedObject 0
            packedRequest.mem.bytes c')
          { packedRequest with mem := { packedRequest.mem with bytes := bytes } } := by
  have hbuffer : packedObject.FitsBuffer packedDevice.sys.opts 0 :=
    ⟨by decide, by decide, by decide⟩
  have hall : ∀ f ∈ packedObject.fields 0, f.entry.data + f.entry.size ≤ 0x1000 := by decide
  exact ⟨hbuffer, (complete_access_image_iff exampleCfg_neutral packedRequest_asks
    packedObject_entries (by decide) fun f hf _ => .inl (hall f hf)).mpr
      ⟨hbuffer, packedObject_clean, by decide⟩⟩

end Soes
