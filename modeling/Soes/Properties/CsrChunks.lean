import Soes.Stack.Lan9252

/-!
# The chunks of a register access

A command of the LAN9252 accesses 1, 2 or 4 bytes of the ESC's registers, at an address that is a
multiple of their number.  `csr_chunk_size` cuts an access into such chunks (`csrChunks`): each is
within what is left and aligned to its size (`csrChunkSize_legal`), and together they are the access
(`csrChunks_tiles`).
-/

namespace Soes

namespace Hal

/-- An access that the chip has: 1, 2 or 4 bytes, aligned to their number. -/
structure LegalAccess (address size : ℕ) : Prop where
  sizes : size = 1 ∨ size = 2 ∨ size = 4
  aligned : address % size = 0

/-- `csr_chunk_size` is legal, and within what is left. -/
lemma csrChunkSize_legal {address len : ℕ} (hlen : len ≠ 0) :
    LegalAccess address (csrChunkSize address len) ∧ csrChunkSize address len ≤ len := by
  rw [csrChunkSize]
  by_cases hodd : address % 2 = 1
  · rw [if_pos hodd]
    exact ⟨⟨.inl rfl, Nat.mod_one _⟩, by omega⟩
  · rw [if_neg hodd]
    by_cases hhalf : address / 2 % 2 = 1
    · rw [if_pos hhalf]
      by_cases hsize : (if 4 < len then 4 else len) % 2 = 1
      · rw [if_pos hsize]
        exact ⟨⟨.inl rfl, Nat.mod_one _⟩, by omega⟩
      · rw [if_neg hsize]
        refine ⟨⟨.inr (.inl rfl), by omega⟩, ?_⟩
        split at hsize <;> omega
    · rw [if_neg hhalf]
      by_cases hsize : (if 4 < len then 4 else len) = 3
      · rw [if_pos hsize]
        exact ⟨⟨.inl rfl, Nat.mod_one _⟩, by omega⟩
      · rw [if_neg hsize]
        by_cases hmany : 4 < len
        · rw [if_pos hmany]
          exact ⟨⟨.inr (.inr rfl), by omega⟩, by omega⟩
        · rw [if_neg hmany] at hsize ⊢
          obtain rfl | rfl | rfl : len = 1 ∨ len = 2 ∨ len = 4 := by omega
          · exact ⟨⟨.inl rfl, Nat.mod_one _⟩, Nat.le_refl _⟩
          · exact ⟨⟨.inr (.inl rfl), by omega⟩, Nat.le_refl _⟩
          · exact ⟨⟨.inr (.inr rfl), by omega⟩, Nat.le_refl _⟩

lemma csrChunkSize_pos {address len : ℕ} (hlen : len ≠ 0) : 0 < csrChunkSize address len := by
  have hlegal : LegalAccess address (csrChunkSize address len) := (csrChunkSize_legal hlen).1
  have hsize := hlegal.sizes
  omega

lemma csrChunkSize_le {address len : ℕ} (hlen : len ≠ 0) : csrChunkSize address len ≤ len :=
  (csrChunkSize_legal hlen).2

/-- Accesses that are the bytes from `address` on once, in order: each starts where the one
before it ends. -/
def Tiles : ℕ → ℕ → List (ℕ × ℕ) → Prop
  | _, len, [] => len = 0
  | address, len, (a, size) :: rest => a = address ∧ size ≤ len ∧ Tiles (address + size)
      (len - size) rest

/-- The chunks of an access: address and size. -/
def csrChunks (address len : ℕ) : List (ℕ × ℕ) :=
  if hlen : len = 0 then []
  else
    have : len - csrChunkSize address len < len := by
      have hpos : 0 < csrChunkSize address len := csrChunkSize_pos hlen
      omega
    (address, csrChunkSize address len) ::
      csrChunks (address + csrChunkSize address len) (len - csrChunkSize address len)
termination_by len

lemma csrChunks_zero (address : ℕ) : csrChunks address 0 = [] := by
  rw [csrChunks, dif_pos rfl]

lemma csrChunks_of_ne_zero {address len : ℕ} (hlen : len ≠ 0) : csrChunks address len =
    (address, csrChunkSize address len) ::
      csrChunks (address + csrChunkSize address len) (len - csrChunkSize address len) := by
  rw [csrChunks, dif_neg hlen]

/-- The chunks are the access, once and in order. -/
lemma csrChunks_tiles (address len : ℕ) : Tiles address len (csrChunks address len) := by
  induction address, len using csrChunks.induct with
  | case1 address => rw [csrChunks_zero, Tiles]
  | case2 address len hlen _ ih =>
      rw [csrChunks_of_ne_zero hlen, Tiles]
      exact ⟨rfl, csrChunkSize_le hlen, ih⟩

-- seven bytes at an odd address
example : csrChunks 0x131 7 = [(0x131, 1), (0x132, 2), (0x134, 4)] := by
  simp [csrChunks_of_ne_zero, csrChunks_zero, csrChunkSize]

/-- Every chunk is an access that the chip has. -/
lemma csrChunks_legal (address len : ℕ) :
    ∀ x ∈ csrChunks address len, LegalAccess x.1 x.2 := by
  induction address, len using csrChunks.induct with
  | case1 address =>
      rw [csrChunks_zero]
      exact fun x hx => nomatch hx
  | case2 address len hlen _ ih =>
      rw [csrChunks_of_ne_zero hlen]
      intro x hx
      rcases List.mem_cons.mp hx with rfl | hx
      · exact (csrChunkSize_legal hlen).1
      · exact ih x hx

end Hal

end Soes
