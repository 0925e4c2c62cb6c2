import Mathlib.Algebra.Ring.Nat
import Mathlib.Data.List.Induction

/-!
# A stream through a buffer

Values that arrive one by one are collected, and whenever a given number of them has been collected
they are passed on together.  `Buffered.push` takes one value and `Buffered.ofList` a whole stream.

Nothing is lost and nothing is reordered (`contents_ofList`), every chunk passed on is full and what
is left is not (`fits_ofList`), so that the numbers of chunks and of values left are the quotient
and the remainder of the length of the stream.  A longer stream has the chunks of a shorter one, and
some more if it comes to a multiple of the capacity (`chunks_append_eq_iff`).
-/

/-- A stream cut into chunks, with what is collected for the next one. -/
structure Buffered (α : Type) where
  chunks : List (List α)
  rest : List α

namespace Buffered

variable {α : Type} {capacity : ℕ}

/-- One more value. -/
def push (capacity : ℕ) (c : Buffered α) (a : α) : Buffered α :=
  if c.rest.length + 1 < capacity then { c with rest := c.rest ++ [a] }
  else ⟨c.chunks ++ [c.rest ++ [a]], []⟩

/-- A stream, from an empty buffer on. -/
def ofList (capacity : ℕ) (xs : List α) : Buffered α := xs.foldl (push capacity) ⟨[], []⟩

/-- All values, in order. -/
def contents (c : Buffered α) : List α := c.chunks.flatten ++ c.rest

/-- The chunks are full, and the buffer is not. -/
structure Fits (capacity : ℕ) (c : Buffered α) : Prop where
  rest_lt : c.rest.length < capacity
  chunk_length : ∀ chunk ∈ c.chunks, chunk.length = capacity

@[simp] lemma ofList_nil : ofList capacity ([] : List α) = ⟨[], []⟩ := rfl

lemma ofList_append (xs ys : List α) :
    ofList capacity (xs ++ ys) = ys.foldl (push capacity) (ofList capacity xs) :=
  List.foldl_append

lemma ofList_concat (xs : List α) (a : α) :
    ofList capacity (xs ++ [a]) = (ofList capacity xs).push capacity a :=
  ofList_append xs [a]

lemma push_room {c : Buffered α} (h : c.rest.length + 1 < capacity) (a : α) :
    c.push capacity a = { c with rest := c.rest ++ [a] } := if_pos h

lemma push_full {c : Buffered α} (h : capacity ≤ c.rest.length + 1) (a : α) :
    c.push capacity a = ⟨c.chunks ++ [c.rest ++ [a]], []⟩ := if_neg (Nat.not_lt.mpr h)

lemma contents_push (c : Buffered α) (a : α) :
    (c.push capacity a).contents = c.contents ++ [a] := by
  rcases Nat.lt_or_ge (c.rest.length + 1) capacity with h | h
  · rw [push_room h, contents, contents, List.append_assoc]
  · rw [push_full h, contents, contents]
    simp

lemma Fits.push {c : Buffered α} (h : c.Fits capacity) (a : α) :
    (c.push capacity a).Fits capacity := by
  have hlt := h.rest_lt
  rcases Nat.lt_or_ge (c.rest.length + 1) capacity with hroom | hfull
  · rw [push_room hroom]
    refine ⟨?_, h.chunk_length⟩
    simpa using hroom
  · rw [push_full hfull]
    refine ⟨?_, fun chunk hmem => ?_⟩
    · change 0 < capacity
      omega
    · rcases List.mem_append.mp hmem with hmem | hmem
      · exact h.chunk_length chunk hmem
      · rw [List.mem_singleton.mp hmem, List.length_append, List.length_singleton]
        omega

/-- Nothing is lost, and nothing is reordered. -/
lemma contents_ofList (xs : List α) : (ofList capacity xs).contents = xs := by
  induction xs using List.reverseRecOn with
  | nil => rfl
  | append_singleton xs a ih => rw [ofList_concat, contents_push, ih]

lemma length_contents (xs : List α) : (ofList capacity xs).chunks.flatten.length +
    (ofList capacity xs).rest.length = xs.length := by
  rw [← List.length_append]
  exact congrArg List.length (contents_ofList xs)

/-- The chunks are full, and the buffer is not. -/
lemma fits_ofList (h : 0 < capacity) (xs : List α) : (ofList capacity xs).Fits capacity := by
  induction xs using List.reverseRecOn with
  | nil => exact ⟨h, fun chunk hmem => (List.not_mem_nil hmem).elim⟩
  | append_singleton xs a ih =>
      rw [ofList_concat]
      exact ih.push a

lemma length_flatten_of_full {chunks : List (List α)}
    (h : ∀ chunk ∈ chunks, chunk.length = capacity) :
    chunks.flatten.length = capacity * chunks.length := by
  induction chunks with
  | nil => rfl
  | cons chunk chunks ih =>
      rw [List.flatten_cons, List.length_append, List.length_cons, h chunk List.mem_cons_self,
        ih fun c hc => h c (List.mem_cons_of_mem _ hc), Nat.mul_succ, Nat.add_comm]

lemma length_eq (h : 0 < capacity) (xs : List α) :
    xs.length = capacity * (ofList capacity xs).chunks.length +
      (ofList capacity xs).rest.length := by
  rw [← length_flatten_of_full (fits_ofList h xs).chunk_length]
  exact (length_contents xs).symm

/-- The number of chunks is the quotient of the length. -/
lemma length_chunks (h : 0 < capacity) (xs : List α) :
    (ofList capacity xs).chunks.length = xs.length / capacity := by
  have hlen := length_eq h xs
  have hlt := (fits_ofList h xs).rest_lt
  rw [hlen, Nat.mul_add_div h, Nat.div_eq_of_lt hlt, Nat.add_zero]

/-- A stream that is shorter than a chunk is what is left. -/
lemma rest_of_lt (xs : List α) (h : xs.length < capacity) : (ofList capacity xs).rest = xs := by
  have hnone : (ofList capacity xs).chunks = [] := by
    rw [← List.length_eq_zero_iff, length_chunks (by omega) xs, Nat.div_eq_of_lt h]
  have hall := @contents_ofList α capacity xs
  rwa [contents, hnone] at hall

/-- A longer stream has the chunks of a shorter one. -/
lemma chunks_append (xs ys : List α) :
    ∃ more, (ofList capacity (xs ++ ys)).chunks = (ofList capacity xs).chunks ++ more := by
  induction ys using List.reverseRecOn with
  | nil => exact ⟨[], by rw [List.append_nil, List.append_nil]⟩
  | append_singleton ys a ih =>
      obtain ⟨more, hmore⟩ := ih
      rw [← List.append_assoc, ofList_concat]
      rcases Nat.lt_or_ge ((ofList capacity (xs ++ ys)).rest.length + 1) capacity with hroom | hfull
      · rw [push_room hroom]
        exact ⟨more, hmore⟩
      · rw [push_full hfull]
        exact ⟨more ++ [_], by rw [hmore, List.append_assoc]⟩

/-- More of a stream comes to no more chunks exactly if no multiple of the capacity is passed. -/
lemma chunks_append_eq_iff (h : 0 < capacity) (xs ys : List α) :
    (ofList capacity (xs ++ ys)).chunks = (ofList capacity xs).chunks ↔
      (xs.length + ys.length) / capacity = xs.length / capacity := by
  have hlen := length_chunks h (xs ++ ys)
  rw [List.length_append] at hlen
  constructor
  · intro hsame
    rw [← hlen, hsame, length_chunks h xs]
  · intro hsame
    obtain ⟨more, hmore⟩ := @chunks_append α capacity xs ys
    have hmorelen := congrArg List.length hmore
    rw [hlen, hsame, List.length_append, length_chunks h xs] at hmorelen
    have hnil : more = [] := List.length_eq_zero_iff.mp (by omega)
    rw [hmore, hnil, List.append_nil]

end Buffered
