import Soes.Stack.Lan9252

/-!
# The words of a process RAM transfer

A transfer moves bytes in words of four.  The first word starts at an address that is a multiple of
four, so of its bytes those before the first one asked for are left out (`lane`), and so are those
behind the last one.  `wordsLeft` are the words still to be transferred; one word takes one of them
(`wordsLeft_advance`), a FIFO of `n` words takes `n` (`takeWords_wordsLeft`, `putWords_wordsLeft`),
and `pram_fifo_range` asks for all of them or 16 (`pramFifoRange_eq`).
-/

namespace Soes

namespace Hal

open ByteStore

namespace PramTransfer

variable {t : PramTransfer} {first : ℕ}

/-- The bytes of the next word that lie before the transfer. -/
def lane (t : PramTransfer) (first : ℕ) : ℕ := if 0 < t.byteOffset then 0 else first

/-- The words still to be transferred. -/
def wordsLeft (t : PramTransfer) (first : ℕ) : ℕ :=
  if t.len = 0 then 0 else (t.len + t.lane first + 3) / 4

lemma lane_lt (hfirst : first < 4) : t.lane first < 4 := by
  rw [lane]
  by_cases hoff : 0 < t.byteOffset
  · rw [if_pos hoff]
    decide
  · rwa [if_neg hoff]

/-- A word has the bytes behind its lane, as far as they are asked for. -/
lemma tempLen_eq : t.tempLen first = min (4 - t.lane first) t.len := by
  rw [tempLen, lane]
  by_cases hoff : 0 < t.byteOffset
  · rw [if_pos hoff, if_pos hoff]
    split <;> omega
  · rw [if_neg hoff, if_neg hoff]
    split <;> omega

lemma tempLen_pos (hfirst : first < 4) (hlen : t.len ≠ 0) : 0 < t.tempLen first := by
  have hlane := lane_lt (t := t) hfirst
  rw [tempLen_eq]
  omega

lemma takeWord_eq {value : ByteStore} :
    t.takeWord first value = t.buf.copy t.byteOffset (t.tempLen first) value (t.lane first) := by
  rw [takeWord, lane]
  by_cases hoff : 0 < t.byteOffset
  · rw [if_pos hoff, if_pos hoff]
  · have hzero : t.byteOffset = 0 := by omega
    rw [if_neg hoff, if_neg hoff, hzero]

lemma nextWord_eq : t.nextWord first =
    ByteStore.copy (fun _ => 0) (t.lane first) (t.tempLen first) t.buf t.byteOffset := by
  rw [nextWord, lane]
  by_cases hoff : 0 < t.byteOffset
  · rw [if_pos hoff, if_pos hoff]
  · have hzero : t.byteOffset = 0 := by omega
    rw [if_neg hoff, if_neg hoff, hzero]

lemma wordsLeft_eq_zero : t.wordsLeft first = 0 ↔ t.len = 0 := by
  rw [wordsLeft]
  by_cases hlen : t.len = 0
  · rw [if_pos hlen]
    exact iff_of_true rfl hlen
  · rw [if_neg hlen]
    omega

/-- `pram_fifo_range` asks for the words still to be transferred, and for 16 at most. -/
lemma pramFifoRange_eq (hlen : t.len ≠ 0) :
    pramFifoRange t.len t.byteOffset first = min 16 (t.wordsLeft first) := by
  rw [pramFifoRange, wordsLeft, if_neg hlen, lane]
  by_cases hoff : 0 < t.byteOffset
  · simp only [if_pos hoff]
    split <;> omega
  · simp only [if_neg hoff]
    split <;> omega

/-- One word is one less. -/
lemma wordsLeft_advance (hfirst : first < 4) (hlen : t.len ≠ 0) :
    (t.advance first).wordsLeft first = t.wordsLeft first - 1 := by
  have hlane := lane_lt (t := t) hfirst
  have htemp : t.tempLen first = min (4 - t.lane first) t.len := tempLen_eq
  have hlen' : (t.advance first).len = t.len - t.tempLen first := rfl
  have hlane' : (t.advance first).lane first = 0 := by
    refine if_pos ?_
    have hpos := tempLen_pos hfirst hlen
    change 0 < t.byteOffset + t.tempLen first
    omega
  rw [wordsLeft, wordsLeft, if_neg hlen, hlane', hlen', htemp]
  split <;> omega

/-- The buffer plays no part in the count. -/
lemma wordsLeft_withBuf (buf : ByteStore) :
    ({ t with buf := buf } : PramTransfer).wordsLeft first = t.wordsLeft first := rfl

end PramTransfer

open PramTransfer

section words

variable {first n i : ℕ} {data buffer : ByteStore} {t t' : PramTransfer}

/-- A FIFO of `n` words takes `n` of those left. -/
lemma takeWords_wordsLeft (hfirst : first < 4) (h : takeWords first data n i t = .ok t') :
    t'.wordsLeft first = t.wordsLeft first - n := by
  induction n generalizing i t with
  | zero =>
      cases h
      rfl
  | succ n ih =>
      rw [takeWords] at h
      by_cases hlen : t.len = 0
      · rw [if_pos hlen] at h
        cases h
        rw [wordsLeft_eq_zero.mpr hlen, Nat.zero_sub]
      · rw [if_neg hlen] at h
        by_cases hsize : escPramBufSize < i + 4
        · rw [if_pos hsize] at h
          cases h
        · rw [if_neg hsize] at h
          rw [ih h, wordsLeft_withBuf, wordsLeft_advance hfirst hlen]
          omega

/-- The words are within the buffer. -/
lemma takeWords_isOk (hsize : i + 4 * n ≤ escPramBufSize) :
    ∃ t', takeWords first data n i t = .ok t' := by
  induction n generalizing i t with
  | zero => exact ⟨t, rfl⟩
  | succ n ih =>
      rw [takeWords]
      by_cases hlen : t.len = 0
      · exact ⟨t, if_pos hlen⟩
      · rw [if_neg hlen, if_neg (by omega)]
        exact ih (by omega)

lemma putWords_wordsLeft {t' : PramTransfer × ByteStore} (hfirst : first < 4)
    (h : putWords first n i (t, buffer) = .ok t') :
    t'.1.wordsLeft first = t.wordsLeft first - n := by
  induction n generalizing i t buffer with
  | zero =>
      cases h
      rfl
  | succ n ih =>
      rw [putWords] at h
      by_cases hlen : t.len = 0
      · rw [if_pos hlen] at h
        cases h
        rw [wordsLeft_eq_zero.mpr hlen, Nat.zero_sub]
      · rw [if_neg hlen] at h
        by_cases hsize : escPramBufSize < i + 4
        · rw [if_pos hsize] at h
          cases h
        · rw [if_neg hsize] at h
          rw [ih h, wordsLeft_advance hfirst hlen]
          omega

lemma putWords_isOk (hsize : i + 4 * n ≤ escPramBufSize) :
    ∃ t', putWords first n i (t, buffer) = .ok t' := by
  induction n generalizing i t buffer with
  | zero => exact ⟨(t, buffer), rfl⟩
  | succ n ih =>
      rw [putWords]
      by_cases hlen : t.len = 0
      · exact ⟨(t, buffer), if_pos hlen⟩
      · rw [if_neg hlen, if_neg (by omega)]
        exact ih (by omega)

/-- The FIFO has at most 31 words, so the buffer is large enough. -/
lemma fifoSize_le (value : Dword) : fifoSize value ≤ 31 := by
  have hand : ((value >>> 8) &&& 0x1F).toNat ≤ 31 := by
    rw [BitVec.toNat_and]
    exact Nat.and_le_right
  rw [fifoSize, escPramCmdCnt]
  omega

lemma fifoSize_eq (value : Dword) : fifoSize value = escPramCmdCnt value := by
  have hle := fifoSize_le value
  rw [fifoSize] at hle ⊢
  simp only [escPramFifoMax] at hle ⊢
  omega

lemma fifoCommand_isOk (cmd : Byte) (fifo : ℕ) {n : ℕ} (hn : n ≤ 31) :
    fifoCommand cmd fifo (3 + 4 * n) = .ok fun i => if i = 0 then cmd
      else if i = 1 then .ofNat 8 (fifo / 256) else if i = 2 then .ofNat 8 fifo else 0 := by
  refine if_neg ?_
  simp only [escPramBufSize, escPramFifoMax]
  omega

end words

end Hal

end Soes
