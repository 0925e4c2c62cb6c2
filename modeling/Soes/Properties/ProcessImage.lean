import Soes.Framework.Bits
import Soes.Stack.ProcessData

/-!
# The process image, bit by bit

`COE_bitsliceGet` and `COE_bitsliceSet` work on the 64-bit words of the process image; what they
come to is said here on its bits.  A slice is read as the bits from its offset on
(`getLsbD_coeBitsliceGet`), and written without a change to any other bit (`bit_coeBitsliceSet`),
wherever it lies and whether or not it straddles two words.
-/

namespace Soes

open ByteStore

variable {m : ByteStore} {offset length : ℕ}

/-! ## Slices -/

/-- The mask of a slice has the slice's bits. -/
lemma getLsbD_bitsliceMask (hlength : length ≤ 64) {i : ℕ} (hi : i < 64) :
    (bitsliceMask length).getLsbD i = decide (i < length) := by
  rw [bitsliceMask]
  by_cases hfull : length = 64
  · rw [if_pos hfull, BitVec.getLsbD_allOnes, hfull]
  · have hlt : length < 64 := by omega
    have hpow : 2 ^ length < 2 ^ 64 := Nat.pow_lt_pow_right (by omega) hlt
    have hpos : 0 < 2 ^ length := Nat.pow_pos (by omega)
    have hmask : (1#64 <<< length - 1#64) = BitVec.ofNat 64 (2 ^ length - 1) := by
      apply BitVec.eq_of_toNat_eq
      simp only [BitVec.toNat_sub, BitVec.toNat_shiftLeft, BitVec.toNat_ofNat]
      omega
    rw [if_neg hfull]
    rw [show (1 <<< length - 1 : BitVec 64) = 1#64 <<< length - 1#64 from rfl, hmask,
      BitVec.getLsbD_ofNat, Nat.testBit_two_pow_sub_one]
    simp [hi]

/-- A slice is read as the bits from its offset on. -/
lemma getLsbD_coeBitsliceGet (hlength : length ≤ 64) {i : ℕ} (hi : i < 64) :
    (coeBitsliceGet m offset length).getLsbD i = (decide (i < length) && m.bit (offset + i)) := by
  have hoffset : 64 * (offset / 64) + offset % 64 = offset := Nat.div_add_mod offset 64
  unfold coeBitsliceGet
  simp only [BitVec.getLsbD_and, BitVec.getLsbD_or, getLsbD_bitsliceMask hlength hi]
  by_cases hin : i < length
  · simp only [hin, decide_true, Bool.and_true, Bool.true_and, BitVec.getLsbD_ushiftRight]
    by_cases hlow : offset % 64 + i < 64
    · -- the bit lies in the first word, and the second has nothing there
      have hsecond : (if 64 < length + offset % 64 then
          m.qword (8 * (offset / 64 + 1)) <<< (64 - offset % 64) else 0).getLsbD i = false := by
        split
        · rw [BitVec.getLsbD_shiftLeft]
          simp only [Bool.and_eq_false_iff, Bool.not_eq_false', decide_eq_true_eq]
          exact .inl (.inr (by omega))
        · exact BitVec.getLsbD_zero
      rw [hsecond, Bool.false_or, getLsbD_qword hlow]
      congr 1
      omega
    · -- the bit lies in the second word, which is read because the slice reaches it
      have hfirst : (m.qword (8 * (offset / 64))).getLsbD (offset % 64 + i) = false :=
        BitVec.getLsbD_of_ge _ _ (by omega)
      have hreach : 64 < length + offset % 64 := by omega
      have hshift : ¬ i < 64 - offset % 64 := by omega
      rw [hfirst, Bool.or_false, if_pos hreach, BitVec.getLsbD_shiftLeft,
        getLsbD_qword (by omega)]
      simp only [hi, hshift, decide_true, decide_false, Bool.not_false, Bool.true_and]
      congr 1
      omega
  · simp [hin]

/-- A masked write of a word changes the bits of the mask. -/
lemma bit_setMasked (a : ℕ) (new mask : BitVec 64) (p : ℕ) :
    (m.setQword a ((m.qword a &&& ~~~mask) ||| (new &&& mask))).bit p =
      if 8 * a ≤ p ∧ p < 8 * a + 64 ∧ mask.getLsbD (p - 8 * a) = true then
        new.getLsbD (p - 8 * a) else m.bit p := by
  rw [bit_setQword]
  by_cases hword : 8 * a ≤ p ∧ p < 8 * a + 64
  · have hi : p - 8 * a < 64 := by omega
    have hold : m.bit p = (m.qword a).getLsbD (p - 8 * a) := by
      rw [getLsbD_qword hi]
      congr 1
      omega
    rw [if_pos hword, hold]
    cases hmask : mask.getLsbD (p - 8 * a)
    · simp only [BitVec.getLsbD_or, BitVec.getLsbD_and, BitVec.getLsbD_not, hmask, hi]
      simp
    · simp only [BitVec.getLsbD_or, BitVec.getLsbD_and, BitVec.getLsbD_not, hmask]
      simp [hword]
  · have hout : ¬ (8 * a ≤ p ∧ p < 8 * a + 64 ∧ mask.getLsbD (p - 8 * a) = true) :=
      fun h => hword ⟨h.1, h.2.1⟩
    rw [if_neg hword, if_neg hout]

/-- A slice is written without a change to any other bit. -/
lemma bit_coeBitsliceSet (hlength : length ≤ 64) (value : BitVec 64) (p : ℕ) :
    (coeBitsliceSet m offset length value).bit p =
      if offset ≤ p ∧ p < offset + length then value.getLsbD (p - offset) else m.bit p := by
  have hoffset : 64 * (offset / 64) + offset % 64 = offset := Nat.div_add_mod offset 64
  have hbit : offset % 64 < 64 := Nat.mod_lt _ (by omega)
  generalize hw : offset / 64 = w at hoffset
  generalize hb : offset % 64 = b at hoffset hbit
  -- the first word takes the part of the slice that lies in it
  have first : ∀ p, (m.setQword (8 * w) ((m.qword (8 * w) &&& ~~~(bitsliceMask length <<< b)) |||
      ((value <<< b) &&& (bitsliceMask length <<< b)))).bit p =
      if offset ≤ p ∧ p < offset + length ∧ p < 64 * w + 64 then value.getLsbD (p - offset)
      else m.bit p := by
    intro p
    rw [bit_setMasked]
    by_cases hin : offset ≤ p ∧ p < offset + length ∧ p < 64 * w + 64
    · have hmask : (bitsliceMask length <<< b).getLsbD (p - 8 * (8 * w)) = true := by
        rw [BitVec.getLsbD_shiftLeft, getLsbD_bitsliceMask hlength (by omega)]
        simp
        omega
      have hnew : (value <<< b).getLsbD (p - 8 * (8 * w)) = value.getLsbD (p - offset) := by
        have hpos : p - 8 * (8 * w) - b = p - offset := by omega
        rw [BitVec.getLsbD_shiftLeft, hpos]
        simp
        omega
      rw [if_pos ⟨by omega, by omega, hmask⟩, if_pos hin, hnew]
    · have hmask : ¬ (8 * (8 * w) ≤ p ∧ p < 8 * (8 * w) + 64 ∧
          (bitsliceMask length <<< b).getLsbD (p - 8 * (8 * w)) = true) := by
        rintro ⟨hlow, hhigh, hmask⟩
        rw [BitVec.getLsbD_shiftLeft, getLsbD_bitsliceMask hlength (by omega)] at hmask
        simp at hmask
        omega
      rw [if_neg hmask, if_neg hin]
  unfold coeBitsliceSet
  simp only [hw, hb]
  by_cases hreach : 64 < length + b
  · -- the second word takes the rest
    rw [if_pos hreach, bit_setMasked]
    have hmask : ∀ j, (bitsliceMask length >>> (64 - b)).getLsbD j =
        decide (64 - b + j < length) := by
      intro j
      rw [BitVec.getLsbD_ushiftRight]
      by_cases hj : 64 - b + j < 64
      · exact getLsbD_bitsliceMask hlength hj
      · rw [BitVec.getLsbD_of_ge _ _ (by omega)]
        simp
        omega
    rw [hmask, first]
    by_cases hin : 8 * (8 * (w + 1)) ≤ p ∧ p < offset + length
    · have hsecond : 8 * (8 * (w + 1)) ≤ p ∧ p < 8 * (8 * (w + 1)) + 64 ∧
          decide (64 - b + (p - 8 * (8 * (w + 1))) < length) = true := by
        refine ⟨hin.1, by omega, ?_⟩
        simp
        omega
      have hpos : 64 - b + (p - 8 * (8 * (w + 1))) = p - offset := by omega
      rw [if_pos hsecond, if_pos ⟨by omega, hin.2⟩, BitVec.getLsbD_ushiftRight, hpos]
    · have hsecond : ¬ (8 * (8 * (w + 1)) ≤ p ∧ p < 8 * (8 * (w + 1)) + 64 ∧
          decide (64 - b + (p - 8 * (8 * (w + 1))) < length) = true) := by
        simp
        omega
      rw [if_neg hsecond]
      congr 1
      simp only [eq_iff_iff]
      omega
  · rw [if_neg hreach, first]
    congr 1
    simp only [eq_iff_iff]
    omega

/-! ## Values of objects -/

lemma valueBytes_le {datatype : Word} {n : ℕ} (h : valueBytes datatype = some n) : n ≤ 8 := by
  unfold valueBytes at h
  split at h
  · cases h
    decide
  split at h
  · cases h
    decide
  split at h
  · cases h
    decide
  split at h
  · cases h
    decide
  · cases h

/-- An object that can be exchanged bit by bit: it has storage, of a type the stack knows, and
is not longer than its storage or than 64 bits. -/
structure Objd.Exchanged (d : Objd) (n : ℕ) : Prop where
  storage : d.data ≠ 0
  known : valueBytes d.datatype = some n
  short : d.bitlength.toNat ≤ 64
  fits : d.bitlength.toNat ≤ 8 * n

variable {d : Objd} {n : ℕ} {bytes buffer : ByteStore}

lemma Objd.Exchanged.bytes_le (h : d.Exchanged n) : n ≤ 8 := valueBytes_le h.known

/-- The value of an object. -/
def objValue (bytes : ByteStore) (d : Objd) (n : ℕ) : BitVec 64 :=
  bytes.qword d.data &&& bitsliceMask (8 * n)

lemma coeGetValue_eq (h : d.Exchanged n) (bytes : ByteStore) :
    coeGetValue bytes d = .ok (objValue bytes d n) := by
  unfold coeGetValue
  rw [h.known]
  exact if_neg h.storage

lemma coeSetValue_eq (h : d.Exchanged n) (bytes : ByteStore) (value : BitVec 64) :
    coeSetValue bytes d value = .ok (bytes.copy d.data n (.ofQword value) 0) := by
  unfold coeSetValue
  rw [h.known]
  exact if_neg h.storage

/-- The bits of a value are those of its storage. -/
lemma getLsbD_objValue (h : d.Exchanged n) {i : ℕ} (hi : i < 64) :
    (objValue bytes d n).getLsbD i = (decide (i < 8 * n) && bytes.bit (8 * d.data + i)) := by
  have hn := h.bytes_le
  rw [objValue, BitVec.getLsbD_and, getLsbD_qword hi, getLsbD_bitsliceMask (by omega) hi,
    Bool.and_comm]

/-- The storages of two objects do not overlap. -/
def Apart (d : Objd) (n : ℕ) (d' : Objd) (n' : ℕ) : Prop :=
  d.data + n ≤ d'.data ∨ d'.data + n' ≤ d.data

/-- A value is read back as it was stored, as far as it fits. -/
lemma objValue_stored (h : d.Exchanged n) {value : BitVec 64}
    (hfits : ∀ i, 8 * n ≤ i → value.getLsbD i = false) :
    objValue (bytes.copy d.data n (.ofQword value) 0) d n = value := by
  have hn := h.bytes_le
  apply BitVec.eq_of_getLsbD_eq
  intro i hi
  rw [getLsbD_objValue h hi, bit_copy_ofQword value hn]
  by_cases hin : i < 8 * n
  · have hpos : 8 * d.data + i - 8 * d.data = i := by omega
    rw [if_pos (by omega), hpos]
    simp [hin]
  · rw [hfits i (by omega)]
    simp [hin]

/-- Storing a value leaves the others alone. -/
lemma objValue_of_apart {d' : Objd} {n' : ℕ} (h : d.Exchanged n) (h' : d'.Exchanged n')
    (hapart : Apart d n d' n') (value : BitVec 64) :
    objValue (bytes.copy d.data n (.ofQword value) 0) d' n' = objValue bytes d' n' := by
  have hn := h.bytes_le
  apply BitVec.eq_of_getLsbD_eq
  intro i hi
  rw [getLsbD_objValue h' hi, getLsbD_objValue h' hi, bit_copy_ofQword value hn]
  by_cases hin : i < 8 * n'
  · have hout : ¬ (8 * d.data ≤ 8 * d'.data + i ∧ 8 * d'.data + i < 8 * (d.data + n)) := by
      rcases hapart with h | h <;> omega
    rw [if_neg hout]
  · simp [hin]

/-! ## Mappings -/

/-- A mapping covers a bit of the process image. -/
def SmMap.Covers (m : SmMap) (p : ℕ) : Prop :=
  ∃ d, m.obj = some d ∧ m.offset ≤ p ∧ p < m.offset + d.bitlength.toNat

/-- Mappings that can be exchanged bit by bit: every object can, no two of them share storage,
and no two cover the same bit. -/
structure Exchangeable (maps : List SmMap) : Prop where
  objects : ∀ m ∈ maps, ∀ d, m.obj = some d → ∃ n, d.Exchanged n
  apart : maps.Pairwise fun m m' => ∀ d d' n n', m.obj = some d → m'.obj = some d' →
    d.Exchanged n → d'.Exchanged n' → Apart d n d' n'
  disjoint : maps.Pairwise fun m m' => ∀ p, m.Covers p → ¬ m'.Covers p

lemma Exchangeable.tail {m : SmMap} {maps : List SmMap} (h : Exchangeable (m :: maps)) :
    Exchangeable maps where
  objects m' hm' := h.objects m' (List.mem_cons_of_mem m hm')
  apart := (List.pairwise_cons.mp h.apart).2
  disjoint := (List.pairwise_cons.mp h.disjoint).2

/-- Packing: the bits of the slices are those of the objects' values, and no other bit
changes. -/
lemma coePdoPack_bits {maps : List SmMap} (h : Exchangeable maps) (bytes buffer : ByteStore) :
    ∃ packed, coePdoPack bytes maps buffer = .ok packed ∧
      (∀ p, (∀ m ∈ maps, ¬ m.Covers p) → packed.bit p = buffer.bit p) ∧
      ∀ m ∈ maps, ∀ d n p, m.obj = some d → d.Exchanged n → m.Covers p →
        packed.bit p = (objValue bytes d n).getLsbD (p - m.offset) := by
  induction maps generalizing buffer with
  | nil => exact ⟨buffer, rfl, fun _ _ => rfl, fun m hm => absurd hm List.not_mem_nil⟩
  | cons m maps ih =>
      obtain ⟨obj, offset⟩ := m
      cases obj with
      | none =>
          obtain ⟨packed, hpack, hout, hin⟩ := ih h.tail buffer
          refine ⟨packed, hpack, fun p hp => ?_, fun m hm d n p hd => ?_⟩
          · exact hout p fun m hm => hp m (List.mem_cons_of_mem _ hm)
          · rcases List.mem_cons.mp hm with rfl | hm
            · cases hd
            · exact hin m hm d n p hd
      | some d =>
          obtain ⟨n, hd⟩ := h.objects _ List.mem_cons_self d rfl
          have hfirst := List.pairwise_cons.mp h.disjoint
          generalize hset : coeBitsliceSet buffer offset d.bitlength.toNat (objValue bytes d n) =
            buffer₁
          obtain ⟨packed, hpack, hout, hin⟩ := ih h.tail buffer₁
          have hbit : ∀ p, buffer₁.bit p = if offset ≤ p ∧ p < offset + d.bitlength.toNat then
              (objValue bytes d n).getLsbD (p - offset) else buffer.bit p := by
            rw [← hset]
            exact bit_coeBitsliceSet hd.short _
          refine ⟨packed, ?_, fun p hp => ?_, fun m hm e k p he hk hcovers => ?_⟩
          · rw [coePdoPack, if_neg (by have := hd.short; omega), coeGetValue_eq hd]
            change coePdoPack bytes maps (coeBitsliceSet _ _ _ _) = _
            rw [hset, hpack]
          · have hnot := hp _ List.mem_cons_self
            rw [hout p fun m hm => hp m (List.mem_cons_of_mem _ hm), hbit, if_neg]
            exact fun hrange => hnot ⟨d, rfl, hrange⟩
          · rcases List.mem_cons.mp hm with rfl | hm
            · obtain ⟨d', hd', hrange⟩ := hcovers
              cases hd'
              cases he
              have hkn : k = n := Option.some.inj (hk.known.symm.trans hd.known)
              rw [hout p fun m' hm' => hfirst.1 m' hm' p ⟨d, rfl, hrange⟩, hbit, if_pos hrange, hkn]
            · exact hin m hm e k p he hk hcovers

/-- A slice has nothing beyond its length. -/
lemma getLsbD_slice_beyond (h : d.Exchanged n) (offset : ℕ) {i : ℕ} (hi : 8 * n ≤ i) :
    (coeBitsliceGet buffer offset d.bitlength.toNat).getLsbD i = false := by
  by_cases hlt : i < 64
  · have hbeyond : ¬ i < d.bitlength.toNat := by
      have := h.fits
      omega
    rw [getLsbD_coeBitsliceGet h.short hlt]
    simp [hbeyond]
  · exact BitVec.getLsbD_of_ge _ _ (by omega)

/-- Unpacking: every object has its slice as value, and an object whose storage lies apart keeps
its own. -/
lemma coePdoUnpack_values {maps : List SmMap} (h : Exchangeable maps) (buffer mem : ByteStore) :
    ∃ mem', coePdoUnpack buffer maps mem = .ok mem' ∧
      (∀ d n, d.Exchanged n →
        (∀ m ∈ maps, ∀ e k, m.obj = some e → e.Exchanged k → Apart e k d n) →
        objValue mem' d n = objValue mem d n) ∧
      ∀ m ∈ maps, ∀ d n, m.obj = some d → d.Exchanged n →
        objValue mem' d n = coeBitsliceGet buffer m.offset d.bitlength.toNat := by
  induction maps generalizing mem with
  | nil => exact ⟨mem, rfl, fun _ _ _ _ => rfl, fun m hm => absurd hm List.not_mem_nil⟩
  | cons m maps ih =>
      obtain ⟨obj, offset⟩ := m
      cases obj with
      | none =>
          obtain ⟨mem', hunpack, hkept, hvalues⟩ := ih h.tail mem
          refine ⟨mem', hunpack, fun d n hd hapart => ?_, fun m hm d n hd => ?_⟩
          · exact hkept d n hd fun m hm => hapart m (List.mem_cons_of_mem _ hm)
          · rcases List.mem_cons.mp hm with rfl | hm
            · cases hd
            · exact hvalues m hm d n hd
      | some d =>
          obtain ⟨n, hd⟩ := h.objects _ List.mem_cons_self d rfl
          have hfirst := List.pairwise_cons.mp h.apart
          generalize hvalue : coeBitsliceGet buffer offset d.bitlength.toNat = value
          obtain ⟨mem', hunpack, hkept, hvalues⟩ :=
            ih h.tail (mem.copy d.data n (.ofQword value) 0)
          refine ⟨mem', ?_, fun e k he hapart => ?_, fun m hm e k he hk => ?_⟩
          · rw [coePdoUnpack, if_neg (by have := hd.short; omega), hvalue, coeSetValue_eq hd]
            exact hunpack
          · rw [hkept e k he fun m hm => hapart m (List.mem_cons_of_mem _ hm)]
            exact objValue_of_apart hd he (hapart _ List.mem_cons_self d n rfl hd) value
          · rcases List.mem_cons.mp hm with rfl | hm
            · cases he
              have hkn : k = n := Option.some.inj (hk.known.symm.trans hd.known)
              subst hkn
              have hbeyond : ∀ i, 8 * k ≤ i → value.getLsbD i = false := fun i hi => by
                rw [← hvalue]
                exact getLsbD_slice_beyond hd offset hi
              rw [hkept d k hd, objValue_stored hd hbeyond, hvalue]
              intro m' hm' e' k' he' hk'
              exact (hfirst.1 m' hm' d e' k k' rfl he' hd hk').symm
            · exact hvalues m hm e k he hk

/-! ## Round trips -/

/-- The value of an object modulo its length. -/
lemma slice_of_packed {packed : ByteStore} {offset : ℕ} (h : d.Exchanged n)
    (hbits : ∀ p, offset ≤ p ∧ p < offset + d.bitlength.toNat →
      packed.bit p = (objValue bytes d n).getLsbD (p - offset)) :
    coeBitsliceGet packed offset d.bitlength.toNat =
      objValue bytes d n &&& bitsliceMask d.bitlength.toNat := by
  apply BitVec.eq_of_getLsbD_eq
  intro i hi
  rw [getLsbD_coeBitsliceGet h.short hi, BitVec.getLsbD_and, getLsbD_bitsliceMask h.short hi]
  by_cases hin : i < d.bitlength.toNat
  · have hpos : offset + i - offset = i := by omega
    rw [hbits _ (by omega), hpos, Bool.and_comm]
  · simp [hin]

/-- Packing and unpacking leaves every object with its value modulo its length. -/
theorem unpack_pack {maps : List SmMap} (h : Exchangeable maps) (bytes buffer mem : ByteStore) :
    ∃ packed mem', coePdoPack bytes maps buffer = .ok packed ∧
      coePdoUnpack packed maps mem = .ok mem' ∧
      ∀ m ∈ maps, ∀ d n, m.obj = some d → d.Exchanged n →
        objValue mem' d n = objValue bytes d n &&& bitsliceMask d.bitlength.toNat := by
  obtain ⟨packed, hpack, -, hin⟩ := coePdoPack_bits h bytes buffer
  obtain ⟨mem', hunpack, -, hvalues⟩ := coePdoUnpack_values h packed mem
  refine ⟨packed, mem', hpack, hunpack, fun m hm d n hd hn => ?_⟩
  rw [hvalues m hm d n hd hn]
  exact slice_of_packed hn fun p hp => hin m hm d n p hd hn ⟨d, hd, hp⟩

/-- Unpacking and packing into the same buffer changes nothing. -/
theorem pack_unpack {maps : List SmMap} (h : Exchangeable maps) (buffer mem : ByteStore) :
    ∃ mem', coePdoUnpack buffer maps mem = .ok mem' ∧
      coePdoPack mem' maps buffer = .ok buffer := by
  obtain ⟨mem', hunpack, -, hvalues⟩ := coePdoUnpack_values h buffer mem
  obtain ⟨packed, hpack, hout, hin⟩ := coePdoPack_bits h mem' buffer
  have hsame : packed = buffer := by
    apply ext_bit
    intro p
    by_cases hcovered : ∃ m ∈ maps, m.Covers p
    · obtain ⟨m, hm, d, hd, hrange⟩ := hcovered
      obtain ⟨n, hn⟩ := h.objects m hm d hd
      have hlt : p - m.offset < d.bitlength.toNat := by omega
      have hpos : m.offset + (p - m.offset) = p := by omega
      rw [hin m hm d n p hd hn ⟨d, hd, hrange⟩, hvalues m hm d n hd hn,
        getLsbD_coeBitsliceGet hn.short (by have := hn.short; omega), hpos]
      simp [hlt]
    · exact hout p fun m hm hc => hcovered ⟨m, hm, hc⟩
  exact ⟨mem', hunpack, by rw [hpack, hsame]⟩

end Soes
