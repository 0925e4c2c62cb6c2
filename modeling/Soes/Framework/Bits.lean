import Soes.Framework.Bytes

/-!
# Bits of a byte store

A byte store is also a total map from bit positions to bits: bit `p` is bit `p % 8` of byte
`p / 8`, so that the bits of a little-endian value are consecutive from eight times its address on.
In this view the stored words disappear: `bit_setQword` and its companions say which positions a
store changes, `getLsbD_qword` and its companions which a load reads, and two stores with the same
bits are the same store (`ext_bit`).
-/

namespace ByteStore

variable {m m' : ByteStore} {a i p : ℕ}

/-- The bit at a position. -/
def bit (m : ByteStore) (p : ℕ) : Bool := (m (p / 8)).getLsbD (p % 8)

/-- The bits of a byte. -/
lemma getLsbD_byte (h : i < 8) : (m a).getLsbD i = m.bit (8 * a + i) := by
  have hbyte : (8 * a + i) / 8 = a := by omega
  have hbit : (8 * a + i) % 8 = i := by omega
  rw [bit, hbyte, hbit]

/-- Two stores with the same bits are the same. -/
lemma ext_bit (h : ∀ p, m.bit p = m'.bit p) : m = m' := by
  funext a
  apply BitVec.eq_of_getLsbD_eq
  intro i hi
  rw [getLsbD_byte hi, getLsbD_byte hi, h]

/-! ## Loads -/

lemma getLsbD_word (h : i < 16) : (m.word a).getLsbD i = m.bit (8 * a + i) := by
  rw [word, BitVec.getLsbD_append]
  by_cases hlow : i < 8
  · rw [if_pos hlow]
    exact getLsbD_byte hlow
  · rw [if_neg hlow, getLsbD_byte (by omega)]
    congr 1
    omega

lemma getLsbD_dword (h : i < 32) : (m.dword a).getLsbD i = m.bit (8 * a + i) := by
  rw [dword, BitVec.getLsbD_append]
  by_cases hlow : i < 16
  · rw [if_pos hlow]
    exact getLsbD_word hlow
  · rw [if_neg hlow, getLsbD_word (by omega)]
    congr 1
    omega

/-- The bits of a 64-bit value are those from its address on. -/
lemma getLsbD_qword (h : i < 64) : (m.qword a).getLsbD i = m.bit (8 * a + i) := by
  rw [qword, BitVec.getLsbD_append]
  by_cases hlow : i < 32
  · rw [if_pos hlow]
    exact getLsbD_dword hlow
  · rw [if_neg hlow, getLsbD_dword (by omega)]
    congr 1
    omega

/-! ## Stores -/

/-- The bits of the store that a 64-bit value is copied from. -/
lemma getLsbD_ofQword (q : BitVec 64) (ha : a < 8) (hi : i < 8) :
    (ofQword q a).getLsbD i = q.getLsbD (8 * a + i) := by
  rw [ofQword, if_pos ha]
  simp [hi]

/-- A copy of the low bytes of a 64-bit value changes the bits of these bytes, and no others. -/
lemma bit_copy_ofQword (q : BitVec 64) {len : ℕ} (hlen : len ≤ 8) :
    (m.copy a len (ofQword q) 0).bit p =
      if 8 * a ≤ p ∧ p < 8 * (a + len) then q.getLsbD (p - 8 * a) else m.bit p := by
  by_cases h : 8 * a ≤ p ∧ p < 8 * (a + len)
  · have hin : a ≤ p / 8 ∧ p / 8 < a + len := by omega
    rw [if_pos h, bit, copy, if_pos hin, getLsbD_ofQword q (by omega) (by omega)]
    congr 1
    omega
  · have hout : ¬ (a ≤ p / 8 ∧ p / 8 < a + len) := by omega
    rw [if_neg h, bit, copy, if_neg hout]
    rfl

lemma bit_setQword (q : BitVec 64) :
    (m.setQword a q).bit p =
      if 8 * a ≤ p ∧ p < 8 * a + 64 then q.getLsbD (p - 8 * a) else m.bit p := by
  have hend : 8 * (a + 8) = 8 * a + 64 := by omega
  rw [setQword, bit_copy_ofQword q (Nat.le_refl 8), hend]

end ByteStore
