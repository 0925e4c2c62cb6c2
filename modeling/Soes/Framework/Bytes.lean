import Mathlib.Algebra.Ring.Nat

/-!
# Byte stores

A byte store is a total map from addresses to bytes.  It serves for a mailbox buffer, for the
storage of variables and for what a bus transfer delivers; which addresses are meaningful is the
business of whoever uses it.  Multi-byte values are little-endian, the order of the bus.

Every bulk operation is one conditional on the address, so that reading after writing is decided
by comparing the address with the written interval (`bytes_copy`, `copy_of_outside`).
-/

/-- A total map from addresses to bytes. -/
abbrev ByteStore : Type := ℕ → BitVec 8

namespace ByteStore

/-- The little-endian 16-bit value at an address. -/
def word (m : ByteStore) (a : ℕ) : BitVec 16 := m (a + 1) ++ m a

/-- The little-endian 32-bit value at an address. -/
def dword (m : ByteStore) (a : ℕ) : BitVec 32 := m.word (a + 2) ++ m.word a

/-- The little-endian 64-bit value at an address. -/
def qword (m : ByteStore) (a : ℕ) : BitVec 64 := m.dword (a + 4) ++ m.dword a

/-- Store one byte. -/
def set (m : ByteStore) (a : ℕ) (b : BitVec 8) : ByteStore :=
  fun x => if x = a then b else m x

/-- Copy `len` bytes from `src`, starting at `from`, to address `dst`. -/
def copy (m : ByteStore) (dst len : ℕ) (src : ByteStore) (start : ℕ) : ByteStore :=
  fun x => if dst ≤ x ∧ x < dst + len then src (start + (x - dst)) else m x

/-- Set `len` bytes from address `dst` on to `b`. -/
def fill (m : ByteStore) (dst len : ℕ) (b : BitVec 8) : ByteStore :=
  fun x => if dst ≤ x ∧ x < dst + len then b else m x

/-- The store whose first bytes are those of a 16-bit value. -/
def ofWord (w : BitVec 16) : ByteStore
  | 0 => w.setWidth 8
  | 1 => (w >>> 8).setWidth 8
  | _ => 0

/-- The store whose first bytes are those of a 32-bit value. -/
def ofDword (d : BitVec 32) : ByteStore
  | 0 => d.setWidth 8
  | 1 => (d >>> 8).setWidth 8
  | 2 => (d >>> 16).setWidth 8
  | 3 => (d >>> 24).setWidth 8
  | _ => 0

/-- The store whose first bytes are those of a 64-bit value. -/
def ofQword (q : BitVec 64) : ByteStore :=
  fun x => if x < 8 then (q >>> (8 * x)).setWidth 8 else 0

/-- Store a 16-bit value. -/
def setWord (m : ByteStore) (a : ℕ) (w : BitVec 16) : ByteStore := m.copy a 2 (ofWord w) 0

/-- Store a 32-bit value. -/
def setDword (m : ByteStore) (a : ℕ) (d : BitVec 32) : ByteStore := m.copy a 4 (ofDword d) 0

/-- Store a 64-bit value. -/
def setQword (m : ByteStore) (a : ℕ) (q : BitVec 64) : ByteStore := m.copy a 8 (ofQword q) 0

/-- The `len` bytes from `start` on. -/
def bytes (m : ByteStore) (start len : ℕ) : List (BitVec 8) :=
  (List.range len).map fun i => m (start + i)

/-- A run of 16-bit values. -/
def words (m : ByteStore) (start count : ℕ) : List (BitVec 16) :=
  (List.range count).map fun i => m.word (start + 2 * i)

/-! ## Reading after writing -/

variable {m src : ByteStore} {a x dst len start : ℕ}

@[simp] lemma set_self (b : BitVec 8) : m.set a b a = b := if_pos rfl

lemma set_of_ne (b : BitVec 8) (h : x ≠ a) : m.set a b x = m x := if_neg h

/-- A copy changes nothing outside its destination. -/
lemma copy_of_outside (h : x < dst ∨ dst + len ≤ x) : m.copy dst len src start x = m x :=
  if_neg (by omega)

/-- Two copies are the same if their sources agree on what is copied. -/
lemma copy_congr {src' : ByteStore} {start' : ℕ}
    (h : ∀ i, i < len → src (start + i) = src' (start' + i)) :
    m.copy dst len src start = m.copy dst len src' start' := by
  funext x
  by_cases hin : dst ≤ x ∧ x < dst + len
  · rw [copy, copy, if_pos hin, if_pos hin]
    exact h _ (by omega)
  · rw [copy, copy, if_neg hin, if_neg hin]

lemma setWord_of_outside (w : BitVec 16) (h : x < a ∨ a + 2 ≤ x) : m.setWord a w x = m x :=
  copy_of_outside h

lemma setDword_of_outside (d : BitVec 32) (h : x < a ∨ a + 4 ≤ x) : m.setDword a d x = m x :=
  copy_of_outside h

lemma word_append (w : BitVec 16) : (w >>> 8).setWidth 8 ++ (w.setWidth 8 : BitVec 8) = w := by
  apply BitVec.eq_of_getLsbD_eq
  intro i hi
  simp only [BitVec.getLsbD_setWidth, BitVec.getLsbD_ushiftRight, BitVec.getLsbD_append]
  by_cases hlow : i < 8
  · simp only [hlow, if_true, decide_true, Bool.true_and]
  · have hhigh : i - 8 < 8 := by omega
    have hback : 8 + (i - 8) = i := by omega
    simp only [hlow, if_false, hhigh, hback, decide_true, Bool.true_and]

lemma dword_append (d : BitVec 32) :
    (d >>> 16).setWidth 16 ++ (d.setWidth 16 : BitVec 16) = d := by
  apply BitVec.eq_of_getLsbD_eq
  intro i hi
  simp only [BitVec.getLsbD_setWidth, BitVec.getLsbD_ushiftRight, BitVec.getLsbD_append]
  by_cases hlow : i < 16
  · simp only [hlow, if_true, decide_true, Bool.true_and]
  · have hhigh : i - 16 < 16 := by omega
    have hback : 16 + (i - 16) = i := by omega
    simp only [hlow, if_false, hhigh, hback, decide_true, Bool.true_and]

/-- What was stored is read back. -/
@[simp] lemma word_setWord (w : BitVec 16) : (m.setWord a w).word a = w := by
  simp [word, setWord, copy, ofWord, word_append]

lemma setDword_inside (d : BitVec 32) {i : ℕ} (h : i < 4) :
    m.setDword a d (a + i) = ofDword d i := by
  have hback : 0 + (a + i - a) = i := by omega
  rw [setDword, copy, if_pos (by omega), hback]

@[simp] lemma dword_setDword (d : BitVec 32) : (m.setDword a d).dword a = d := by
  have low : (m.setDword a d).word a = d.setWidth 16 := by
    have hfirst := @setDword_inside m a d 0 (by decide)
    have hsecond := @setDword_inside m a d 1 (by decide)
    rw [Nat.add_zero] at hfirst
    rw [word, hfirst, hsecond, ← word_append (d.setWidth 16)]
    congr 1
    · apply BitVec.eq_of_getLsbD_eq
      intro i hi
      have hin : 8 + i < 16 := by omega
      simp only [ofDword, BitVec.getLsbD_setWidth, BitVec.getLsbD_ushiftRight, hin, decide_true,
        Bool.true_and]
    · exact (BitVec.setWidth_setWidth_of_le d (by decide)).symm
  have high : (m.setDword a d).word (a + 2) = (d >>> 16).setWidth 16 := by
    have hthird := @setDword_inside m a d 2 (by decide)
    have hfourth := @setDword_inside m a d 3 (by decide)
    rw [word, Nat.add_assoc, hthird, hfourth, ← word_append ((d >>> 16).setWidth 16)]
    congr 1
    · apply BitVec.eq_of_getLsbD_eq
      intro i hi
      have hin : 8 + i < 16 := by omega
      have hshift : 16 + (8 + i) = 24 + i := by omega
      simp only [ofDword, BitVec.getLsbD_setWidth, BitVec.getLsbD_ushiftRight, hin, hshift,
        decide_true, Bool.true_and]
    · exact (BitVec.setWidth_setWidth_of_le (d >>> 16) (by decide)).symm
  rw [dword, low, high]
  exact dword_append d

lemma word_set_of_disjoint (b : BitVec 8) (h : x < a ∨ a + 2 ≤ x) :
    (m.set x b).word a = m.word a := by
  rw [word, word, set_of_ne b (by omega), set_of_ne b (by omega)]

lemma word_setWord_of_disjoint (w : BitVec 16) (h : x + 2 ≤ a ∨ a + 2 ≤ x) :
    (m.setWord x w).word a = m.word a := by
  rw [word, word, setWord_of_outside w (by omega), setWord_of_outside w (by omega)]

lemma word_setDword_of_disjoint (d : BitVec 32) (h : x + 4 ≤ a ∨ a + 2 ≤ x) :
    (m.setDword x d).word a = m.word a := by
  rw [word, word, setDword_of_outside d (by omega), setDword_of_outside d (by omega)]

/-! ## Runs of bytes -/

@[simp] lemma length_bytes : (m.bytes start len).length = len := by simp [bytes]

@[simp] lemma bytes_zero : m.bytes start 0 = [] := rfl

/-- One more byte at the end. -/
lemma bytes_succ : m.bytes start (len + 1) = m.bytes start len ++ [m (start + len)] := by
  simp [bytes, List.range_succ]

/-- One more byte at the beginning. -/
lemma bytes_succ' : m.bytes start (len + 1) = m start :: m.bytes (start + 1) len := by
  simp only [bytes, List.range_succ_eq_map, List.map_cons, List.map_map, Nat.add_zero]
  congr 2
  funext i
  simp only [Function.comp_apply]
  congr 1
  omega

lemma getElem?_bytes {i : ℕ} (h : i < len) : (m.bytes start len)[i]? = some (m (start + i)) := by
  rw [bytes, List.getElem?_map, List.getElem?_range h]
  rfl

/-- Storing a byte elsewhere leaves a run of bytes. -/
lemma bytes_set_of_outside (b : BitVec 8) (h : a < start ∨ start + len ≤ a) :
    (m.set a b).bytes start len = m.bytes start len := by
  refine List.map_congr_left fun i hi => ?_
  have hlt : i < len := List.mem_range.mp hi
  exact set_of_ne b (by omega)

/-- Two runs of bytes are the same if the stores agree on them. -/
lemma bytes_congr {m' : ByteStore} {start' : ℕ}
    (h : ∀ i, i < len → m (start + i) = m' (start' + i)) :
    m.bytes start len = m'.bytes start' len :=
  List.map_congr_left fun i hi => h i (List.mem_range.mp hi)

@[simp] lemma words_zero : m.words start 0 = [] := rfl

/-- One more value at the beginning. -/
lemma words_succ' (count : ℕ) :
    m.words start (count + 1) = m.word start :: m.words (start + 2) count := by
  simp only [words, List.range_succ_eq_map, List.map_cons, List.map_map, Nat.mul_zero, Nat.add_zero]
  congr 2
  funext i
  simp only [Function.comp_apply]
  congr 1
  omega

/-- Two runs of 16-bit values are the same if the stores agree on their bytes. -/
lemma words_congr {m' : ByteStore} {start' count : ℕ}
    (h : ∀ i, i < 2 * count → m (start + i) = m' (start' + i)) :
    m.words start count = m'.words start' count := by
  refine List.map_congr_left fun i hi => ?_
  have hlt : i < count := List.mem_range.mp hi
  have hlow := h (2 * i) (by omega)
  have hhigh := h (2 * i + 1) (by omega)
  simp only [word, Nat.add_assoc]
  rw [hlow, hhigh]

/-- A copy is the run it was taken from. -/
@[simp] lemma bytes_copy (dst len start : ℕ) :
    (m.copy dst len src start).bytes dst len = src.bytes start len := by
  refine bytes_congr fun i hi => ?_
  rw [copy, if_pos (by omega)]
  congr 1
  omega

lemma bytes_copy_of_outside {dst' len' : ℕ} (h : a + len ≤ dst' ∨ dst' + len' ≤ a) :
    (m.copy dst' len' src start).bytes a len = m.bytes a len :=
  bytes_congr fun i hi => copy_of_outside (by omega)

lemma word_copy_of_disjoint (h : dst + len ≤ a ∨ a + 2 ≤ dst) :
    (m.copy dst len src start).word a = m.word a := by
  rw [word, word, copy_of_outside (by omega), copy_of_outside (by omega)]

lemma dword_copy_of_disjoint (h : dst + len ≤ a ∨ a + 4 ≤ dst) :
    (m.copy dst len src start).dword a = m.dword a := by
  rw [dword, dword, word_copy_of_disjoint (by omega), word_copy_of_disjoint (by omega)]

lemma dword_setWord_of_disjoint (w : BitVec 16) (h : x + 2 ≤ a ∨ a + 4 ≤ x) :
    (m.setWord x w).dword a = m.dword a :=
  dword_copy_of_disjoint (by omega)

/-- A 32-bit value from its bytes. -/
lemma dword_bytes (x : BitVec 32) : x =
    (ofDword x 3 ++ ofDword x 2) ++ (ofDword x 1 ++ ofDword x 0) := by
  have hread := dword_setDword (m := fun _ => 0) (a := 0) x
  rw [dword, word, word] at hread
  exact hread.symm

/-- The bytes of a 32-bit value. -/
lemma ofDword_append (a b c d : BitVec 8) : ofDword ((d ++ c) ++ (b ++ a)) 0 = a ∧
    ofDword ((d ++ c) ++ (b ++ a)) 1 = b ∧ ofDword ((d ++ c) ++ (b ++ a)) 2 = c ∧
      ofDword ((d ++ c) ++ (b ++ a)) 3 = d := by
  simp only [ofDword]
  refine ⟨?_, ?_, ?_, ?_⟩
  all_goals
    apply BitVec.eq_of_getLsbD_eq
    intro i hi
    simp only [BitVec.getLsbD_setWidth, BitVec.getLsbD_ushiftRight, BitVec.getLsbD_append, hi,
      decide_true, Bool.true_and]
    repeat' split
    all_goals first | omega | exact absurd trivial ‹¬ True› | (congr 1 <;> omega)

/-- A 32-bit value that has been read has the bytes that were read. -/
lemma ofDword_dword {i : ℕ} (hi : i < 4) : ofDword (m.dword a) i = m (a + i) := by
  obtain ⟨h0, h1, h2, h3⟩ := ofDword_append (m a) (m (a + 1)) (m (a + 2)) (m (a + 3))
  obtain rfl | rfl | rfl | rfl : i = 0 ∨ i = 1 ∨ i = 2 ∨ i = 3 := by omega
  · exact h0
  · exact h1
  · exact h2
  · exact h3

/-- A 16-bit value that has been read has the bytes that were read. -/
lemma bytes_ofWord_word : (ofWord (m.word a)).bytes 0 2 = m.bytes a 2 := by
  have hlow : (m.word a).setWidth 8 = m a := by
    apply BitVec.eq_of_getLsbD_eq
    intro i hi
    simp only [word, BitVec.getLsbD_setWidth, BitVec.getLsbD_append, hi, decide_true, Bool.true_and,
      if_true]
  have hhigh : ((m.word a) >>> 8).setWidth 8 = m (a + 1) := by
    apply BitVec.eq_of_getLsbD_eq
    intro i hi
    have hge : ¬ 8 + i < 8 := by omega
    have hback : 8 + i - 8 = i := by omega
    simp only [word, BitVec.getLsbD_setWidth, BitVec.getLsbD_ushiftRight, BitVec.getLsbD_append, hi,
      hge, hback, decide_true, Bool.true_and, if_false]
  rw [bytes_succ', bytes_succ', bytes_succ', bytes_succ']
  change [(m.word a).setWidth 8, ((m.word a) >>> 8).setWidth 8] = [m a, m (a + 1)]
  rw [hlow, hhigh]

/-- A copy goes on with the next bytes. -/
lemma copy_copy {done size : ℕ} :
    (m.copy dst done src start).copy (dst + done) size src (start + done) =
      m.copy dst (done + size) src start := by
  funext x
  simp only [copy]
  by_cases hin : dst + done ≤ x ∧ x < dst + done + size
  · rw [if_pos hin, if_pos (by omega)]
    congr 1
    omega
  · rw [if_neg hin]
    by_cases hfirst : dst ≤ x ∧ x < dst + done
    · rw [if_pos hfirst, if_pos (by omega)]
    · rw [if_neg hfirst, if_neg (by omega)]

lemma copy_none : m.copy dst 0 src start = m := by
  funext x
  exact if_neg (by omega)

lemma copy_of_bytes {src' : ByteStore} {start' size : ℕ}
    (h : src.bytes start size = src'.bytes start' size) :
    m.copy dst size src start = m.copy dst size src' start' := by
  refine copy_congr fun i hi => ?_
  have hget : (src.bytes start size)[i]? = some (src (start + i)) := getElem?_bytes hi
  rw [h, getElem?_bytes hi] at hget
  exact (Option.some.inj hget).symm

/-- A run of bytes in two parts. -/
lemma bytes_add (start a b : ℕ) :
    m.bytes start (a + b) = m.bytes start a ++ m.bytes (start + a) b := by
  induction b with
  | zero => simp
  | succ b ih => rw [← Nat.add_assoc, bytes_succ, bytes_succ, ih, List.append_assoc, Nat.add_assoc]

/-- The beginning of a run of bytes. -/
lemma take_bytes {n : ℕ} (h : n ≤ len) : (m.bytes start len).take n = m.bytes start n := by
  obtain ⟨rest, rfl⟩ := Nat.exists_eq_add_of_le h
  rw [bytes_add, List.take_append_of_le_length (Nat.le_of_eq length_bytes.symm),
    List.take_of_length_le (Nat.le_of_eq length_bytes)]

/-- `m'` is `m` with the bytes of a list stored from address `a` on, and nothing else. -/
structure Stored (m m' : ByteStore) (a : ℕ) (list : List (BitVec 8)) : Prop where
  stored : m'.bytes a list.length = list
  outside : ∀ x, x < a ∨ a + list.length ≤ x → m' x = m x

/-- A copy of the bytes of a list stores them. -/
lemma stored_copy {list : List (BitVec 8)} (h : src.bytes start list.length = list) (a : ℕ) :
    Stored m (m.copy a list.length src start) a list :=
  ⟨(bytes_copy a _ start).trans h, fun _ hx => copy_of_outside hx⟩

/-- What is stored behind another part goes on with it. -/
lemma Stored.append {m' m'' : ByteStore} {first second : List (BitVec 8)}
    (h : Stored m m' a first) (h' : Stored m' m'' (a + first.length) second) :
    Stored m m'' a (first ++ second) := by
  refine ⟨?_, fun x hx => ?_⟩
  · have hkept : m''.bytes a first.length = m'.bytes a first.length :=
      bytes_congr fun i hi => h'.outside _ (by omega)
    rw [List.length_append, bytes_add, hkept, h.stored, h'.stored]
  · rw [List.length_append] at hx
    rw [h'.outside x (by omega), h.outside x (by omega)]

/-! ## Seen from an address -/

/-- The store seen from address `a` on. -/
def shift (m : ByteStore) (a : ℕ) : ByteStore := fun i => m (a + i)

lemma bytes_shift (a start len : ℕ) : (m.shift a).bytes start len = m.bytes (a + start) len :=
  bytes_congr fun _ _ => congrArg m (Nat.add_assoc _ _ _).symm

@[simp] lemma shift_set (i : ℕ) (b : BitVec 8) :
    (m.set (a + i) b).shift a = (m.shift a).set i b := by
  funext x
  simp only [shift, set, Nat.add_left_cancel_iff]

@[simp] lemma shift_copy (i : ℕ) :
    (m.copy (a + i) len src start).shift a = (m.shift a).copy i len src start := by
  funext x
  simp only [shift, copy]
  by_cases hin : i ≤ x ∧ x < i + len
  · rw [if_pos hin, if_pos (by omega)]
    congr 1
    omega
  · rw [if_neg hin, if_neg (by omega)]

@[simp] lemma shift_setWord (i : ℕ) (w : BitVec 16) :
    (m.setWord (a + i) w).shift a = (m.shift a).setWord i w := shift_copy i

@[simp] lemma shift_setWord_start (w : BitVec 16) :
    (m.setWord a w).shift a = (m.shift a).setWord 0 w := shift_setWord 0 w

@[simp] lemma shift_setDword (i : ℕ) (d : BitVec 32) :
    (m.setDword (a + i) d).shift a = (m.shift a).setDword i d := shift_copy i

end ByteStore

/-- Subtraction of 32-bit unsigned numbers, which goes round below zero. -/
def sub32 (a b : ℕ) : ℕ := (a + 2 ^ 32 - b) % 2 ^ 32
