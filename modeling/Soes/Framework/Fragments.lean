import Mathlib.Algebra.Ring.Nat

/-!
# Fragments

A run of `len` bytes that is sent in messages of at most `room` bytes is cut: as long as more than
`room` bytes are left, a whole number `block` of bytes goes first (`Cut`).  The fragments are
numbered from 0 on, fragment `j` starts behind `j` blocks, and `Cut.count` is the number of
fragments.  The last fragment is the first one that leaves nothing (`more_iff`), and together the
fragments are the whole run (`offset_succ`, `offset_last`).
-/

/-- A run of bytes that is cut into blocks, but for the rest. -/
structure Cut where
  len : ℕ
  /-- The length of a fragment that is not the last. -/
  block : ℕ
  room : ℕ
  block_pos : 0 < block
  block_le : block ≤ room

namespace Cut

variable (c : Cut) {j : ℕ}

/-- The number of fragments. -/
def count : ℕ := (c.len - c.room + c.block - 1) / c.block + 1

/-- The number of bytes before fragment `j`. -/
def offset (j : ℕ) : ℕ := j * c.block

/-- The length of fragment `j`. -/
def size (j : ℕ) : ℕ := if c.room < c.len - c.offset j then c.block else c.len - c.offset j

lemma count_pos : 0 < c.count := Nat.succ_pos _

lemma offset_zero : c.offset 0 = 0 := Nat.zero_mul _

/-- Fragment `j` is not the last exactly if more is left than there is room for. -/
lemma more_iff : j + 1 < c.count ↔ c.room < c.len - c.offset j := by
  have hblock := c.block_pos
  have hroom := c.block_le
  rw [count, offset, Nat.add_lt_add_iff_right, Nat.lt_div_iff_mul_lt hblock]
  omega

lemma size_of_more (h : j + 1 < c.count) : c.size j = c.block := if_pos (c.more_iff.mp h)

lemma size_of_last (h : ¬ j + 1 < c.count) : c.size j = c.len - c.offset j :=
  if_neg fun hmore => h (c.more_iff.mpr hmore)

/-- A run that fits is one fragment. -/
lemma count_of_fits (h : c.len ≤ c.room) : c.count = 1 := by
  have hpos := c.count_pos
  have hone : ¬ 0 + 1 < c.count := by
    rw [more_iff]
    omega
  omega

/-- The fragments follow one another. -/
lemma offset_succ (h : j + 1 < c.count) : c.offset (j + 1) = c.offset j + c.size j := by
  rw [c.size_of_more h, offset, offset, Nat.succ_mul]

/-- A fragment starts within the run. -/
lemma offset_le (h : j < c.count) : c.offset j ≤ c.len := by
  cases j with
  | zero => rw [offset_zero]; exact Nat.zero_le _
  | succ j =>
      have hmore := c.more_iff.mp h
      have hblock := c.block_le
      have hnext := c.offset_succ h
      rw [c.size_of_more h] at hnext
      omega

/-- A fragment ends within the run. -/
lemma offset_add_size_le (h : j < c.count) : c.offset j + c.size j ≤ c.len := by
  by_cases hmore : j + 1 < c.count
  · rw [← c.offset_succ hmore]
    exact c.offset_le hmore
  · have hle := c.offset_le h
    rw [c.size_of_last hmore]
    omega

/-- The last fragment ends the run. -/
lemma offset_last (h : j + 1 = c.count) : c.offset j + c.size j = c.len := by
  have hle := c.offset_le (j := j) (by omega)
  rw [c.size_of_last (by omega)]
  omega

end Cut
