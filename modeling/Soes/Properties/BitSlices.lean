import Soes.Properties.ProcessImage

/-!
# Slices of the process image

`COE_bitsliceGet` and `COE_bitsliceSet` treat the process image as an array of 64-bit words and a
slice as up to 64 bits anywhere in it, so a slice may lie in two words, and each of them shifts by
what the other word has.  A slice behaves as a field of its own (`bit_slices`): what is written is
what is read, writing what was read changes nothing, and slices that do not overlap do not see each
other.

C leaves a shift by 64 or more and an access outside the array undefined.  `bitsliceGetDefined`
and `bitsliceSetDefined` are the same two functions with these looked at; inside the array they are
always defined, and then they are the functions.
-/

namespace Soes

open ByteStore

variable {m : ByteStore} {words offset length : ℕ}

/-! ## Undefined behaviour -/

/-- `w << n`, where it is defined. -/
def shl64 (w : BitVec 64) (n : ℕ) : Option (BitVec 64) := if n < 64 then some (w <<< n) else none

/-- `w >> n`, where it is defined. -/
def shr64 (w : BitVec 64) (n : ℕ) : Option (BitVec 64) := if n < 64 then some (w >>> n) else none

/-- `bitmap[w]`, in an array of so many words. -/
def bitmapWord (words : ℕ) (bitmap : ByteStore) (w : ℕ) : Option (BitVec 64) :=
  if w < words then some (bitmap.qword (8 * w)) else none

/-- `bitmap[w] = q`, in an array of so many words. -/
def setBitmapWord (words : ℕ) (bitmap : ByteStore) (w : ℕ) (q : BitVec 64) : Option ByteStore :=
  if w < words then some (bitmap.setQword (8 * w) q) else none

/-- The mask of both functions. -/
def bitsliceMaskDefined (length : ℕ) : Option (BitVec 64) :=
  if length = 64 then some (BitVec.allOnes 64) else (fun w => w - 1) <$> shl64 1 length

/-- `COE_bitsliceGet`, where it is defined. -/
def bitsliceGetDefined (words : ℕ) (bitmap : ByteStore) (offset length : ℕ) :
    Option (BitVec 64) := do
  let word := offset / 64
  let bit := offset % 64
  let mask ← bitsliceMaskDefined length
  let w0 ← shr64 (← bitmapWord words bitmap word) bit
  let w1 ← if 64 < length + bit then do
      shl64 (← bitmapWord words bitmap (word + 1)) (64 - bit)
    else some 0
  some ((w1 ||| w0) &&& mask)

/-- `COE_bitsliceSet`, where it is defined. -/
def bitsliceSetDefined (words : ℕ) (bitmap : ByteStore) (offset length : ℕ) (value : BitVec 64) :
    Option ByteStore := do
  let word := offset / 64
  let bit := offset % 64
  let mask ← bitsliceMaskDefined length
  let mask0 ← shl64 mask bit
  let v0 ← shl64 value bit
  let w0 ← bitmapWord words bitmap word
  let bitmap ← setBitmapWord words bitmap word ((w0 &&& ~~~mask0) ||| (v0 &&& mask0))
  if 64 < length + bit then
    let mask1 ← shr64 mask (64 - bit)
    let v1 ← shr64 value (64 - bit)
    let w1 ← bitmapWord words bitmap (word + 1)
    setBitmapWord words bitmap (word + 1) ((w1 &&& ~~~mask1) ||| (v1 &&& mask1))
  else
    some bitmap

lemma shl64_eq (w : BitVec 64) {n : ℕ} (h : n < 64) : shl64 w n = some (w <<< n) := if_pos h

lemma shr64_eq (w : BitVec 64) {n : ℕ} (h : n < 64) : shr64 w n = some (w >>> n) := if_pos h

lemma bitsliceMaskDefined_eq (hlength : length ≤ 64) :
    bitsliceMaskDefined length = some (bitsliceMask length) := by
  rw [bitsliceMaskDefined, bitsliceMask]
  by_cases hfull : length = 64
  · rw [if_pos hfull, if_pos hfull]
  · rw [if_neg hfull, if_neg hfull, shl64_eq _ (by omega)]
    rfl

/-- Inside the array a slice is read without a shift of 64 or more. -/
lemma bitsliceGetDefined_eq (hpos : 1 ≤ length) (hlength : length ≤ 64)
    (hinside : offset + length ≤ 64 * words) :
    bitsliceGetDefined words m offset length = some (coeBitsliceGet m offset length) := by
  have hbit : offset % 64 < 64 := Nat.mod_lt _ (by omega)
  have hword : offset / 64 < words := by omega
  simp only [bitsliceGetDefined, bitsliceMaskDefined_eq hlength, bitmapWord, if_pos hword,
    Option.bind_eq_bind, Option.bind_some, shr64_eq _ hbit, coeBitsliceGet]
  by_cases hreach : 64 < length + offset % 64
  · have hnext : offset / 64 + 1 < words := by omega
    simp only [if_pos hreach, if_pos hnext, Option.bind_some, shl64_eq _ (show 64 - offset % 64 < 64
      by omega)]
  · simp only [if_neg hreach]

/-- Inside the array a slice is written without a shift of 64 or more. -/
lemma bitsliceSetDefined_eq (hpos : 1 ≤ length) (hlength : length ≤ 64)
    (hinside : offset + length ≤ 64 * words) (value : BitVec 64) :
    bitsliceSetDefined words m offset length value =
      some (coeBitsliceSet m offset length value) := by
  have hbit : offset % 64 < 64 := Nat.mod_lt _ (by omega)
  have hword : offset / 64 < words := by omega
  simp only [bitsliceSetDefined, bitsliceMaskDefined_eq hlength, bitmapWord, setBitmapWord,
    if_pos hword, Option.bind_eq_bind, Option.bind_some, shl64_eq _ hbit, coeBitsliceSet]
  by_cases hreach : 64 < length + offset % 64
  · have hnext : offset / 64 + 1 < words := by omega
    have hshift : 64 - offset % 64 < 64 := by omega
    simp only [if_pos hreach, if_pos hnext, Option.bind_some, shr64_eq _ hshift]
  · simp only [if_neg hreach]

/-! ## Fields -/

/-- What is written is read back, as far as the slice is long. -/
lemma coeBitsliceGet_set (hlength : length ≤ 64) (value : BitVec 64) :
    (coeBitsliceGet (coeBitsliceSet m offset length value) offset length).toNat =
      value.toNat % 2 ^ length := by
  apply Nat.eq_of_testBit_eq
  intro i
  rw [Nat.testBit_mod_two_pow, BitVec.testBit_toNat, BitVec.testBit_toNat]
  by_cases hi : i < 64
  · rw [getLsbD_coeBitsliceGet hlength hi, bit_coeBitsliceSet hlength]
    by_cases hin : i < length
    · rw [if_pos ⟨by omega, by omega⟩, Nat.add_sub_cancel_left]
    · simp [hin]
  · rw [BitVec.getLsbD_of_ge _ _ (by omega)]
    have hout : ¬ i < length := by omega
    simp [hout]

/-- Writing what was read changes nothing. -/
lemma coeBitsliceSet_get (hlength : length ≤ 64) :
    coeBitsliceSet m offset length (coeBitsliceGet m offset length) = m := by
  apply ext_bit
  intro p
  rw [bit_coeBitsliceSet hlength]
  by_cases hin : offset ≤ p ∧ p < offset + length
  · have hpos : offset + (p - offset) = p := by omega
    have hlt : p - offset < length := by omega
    rw [if_pos hin, getLsbD_coeBitsliceGet hlength (by omega), hpos]
    simp [hlt]
  · rw [if_neg hin]

/-- Slices that do not overlap can be written in any order. -/
lemma coeBitsliceSet_comm {offset' length' : ℕ} (hlength : length ≤ 64) (hlength' : length' ≤ 64)
    (hdisjoint : offset + length ≤ offset' ∨ offset' + length' ≤ offset)
    (value value' : BitVec 64) :
    coeBitsliceSet (coeBitsliceSet m offset length value) offset' length' value' =
      coeBitsliceSet (coeBitsliceSet m offset' length' value') offset length value := by
  apply ext_bit
  intro p
  rw [bit_coeBitsliceSet hlength', bit_coeBitsliceSet hlength, bit_coeBitsliceSet hlength,
    bit_coeBitsliceSet hlength']
  by_cases hin : offset ≤ p ∧ p < offset + length
  · have hout : ¬ (offset' ≤ p ∧ p < offset' + length') := by omega
    rw [if_neg hout, if_pos hin, if_pos hin]
  · rw [if_neg hin, if_neg hin]

/-- **Bit slices are independent fields**, wherever in the array they lie. -/
theorem bit_slices (hpos : 1 ≤ length) (hlength : length ≤ 64)
    (hinside : offset + length ≤ 64 * words) (m : ByteStore) (value : BitVec 64) :
    (coeBitsliceGet (coeBitsliceSet m offset length value) offset length).toNat =
        value.toNat % 2 ^ length ∧
      (∀ p, p < offset ∨ offset + length ≤ p →
        (coeBitsliceSet m offset length value).bit p = m.bit p) ∧
      coeBitsliceSet m offset length (coeBitsliceGet m offset length) = m ∧
      (∀ offset' length' value', 1 ≤ length' → length' ≤ 64 → offset' + length' ≤ 64 * words →
        offset + length ≤ offset' ∨ offset' + length' ≤ offset →
        coeBitsliceSet (coeBitsliceSet m offset length value) offset' length' value' =
          coeBitsliceSet (coeBitsliceSet m offset' length' value') offset length value) ∧
      bitsliceGetDefined words m offset length = some (coeBitsliceGet m offset length) ∧
      bitsliceSetDefined words m offset length value =
        some (coeBitsliceSet m offset length value) := by
  refine ⟨coeBitsliceGet_set hlength value, ?_, coeBitsliceSet_get hlength, ?_,
    bitsliceGetDefined_eq hpos hlength hinside, bitsliceSetDefined_eq hpos hlength hinside value⟩
  · intro p hout
    have hnot : ¬ (offset ≤ p ∧ p < offset + length) := by omega
    rw [bit_coeBitsliceSet hlength, if_neg hnot]
  · intro offset' length' value' _ hlength' _ hdisjoint
    exact coeBitsliceSet_comm hlength hlength' hdisjoint value value'

/-- A slice of 40 bits from bit 50 on lies in two words. -/
theorem bit_slices_example :
    (coeBitsliceGet (coeBitsliceSet (fun _ => 0) 50 40 0x123456789A) 50 40).toNat =
      (0x123456789A : BitVec 64).toNat % 2 ^ 40 ∧
    bitsliceGetDefined 2 (fun _ => 0) 50 40 = some (coeBitsliceGet (fun _ => 0) 50 40) := by
  have h := @bit_slices 2 50 40 (by decide) (by decide) (by decide) (fun _ => 0) 0x123456789A
  exact ⟨h.1, h.2.2.2.2.1⟩

end Soes
