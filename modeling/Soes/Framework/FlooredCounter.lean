import Mathlib.Algebra.Order.Group.Defs
import Mathlib.Algebra.BigOperators.Group.List.Basic
import Mathlib.Order.Bounds.Basic
import Mathlib.Tactic.Lemma

/-!
# Counters with a floor

A counter that goes up and down and is floored at zero has no closed form in the number of its
steps, since credit below the floor is lost.  It is the greatest of the sums of the steps over the
suffixes of its history (`isGreatest_suffixSums_concat`).
-/

section

variable {α : Type*} [AddCommGroup α] [LinearOrder α]

/-- The sums of the steps over the suffixes of a history, the empty one included. -/
def suffixSums (steps : List α) : Set α := {s | ∃ t, t <:+ steps ∧ t.sum = s}

lemma isGreatest_suffixSums_nil : IsGreatest (suffixSums ([] : List α)) 0 := by
  refine ⟨⟨[], List.suffix_refl _, List.sum_nil⟩, ?_⟩
  rintro s ⟨t, ht, rfl⟩
  rw [List.suffix_nil.mp ht, List.sum_nil]

/-- One more step of a floored counter. -/
lemma isGreatest_suffixSums_concat [IsOrderedAddMonoid α] {steps : List α} {c : α}
    (h : IsGreatest (suffixSums steps) c) (x : α) :
    IsGreatest (suffixSums (steps ++ [x])) (max 0 (c + x)) := by
  obtain ⟨⟨t, ht, hsum⟩, hgreatest⟩ := h
  constructor
  · rcases max_choice 0 (c + x) with hmax | hmax
    · rw [hmax]
      exact ⟨[], List.nil_suffix, List.sum_nil⟩
    · rw [hmax]
      refine ⟨t ++ [x], List.suffix_concat_iff.mpr (.inr ⟨t, rfl, ht⟩), ?_⟩
      rw [List.sum_append, List.sum_singleton, hsum]
  · rintro s ⟨u, hu, rfl⟩
    rcases List.suffix_concat_iff.mp hu with rfl | ⟨v, rfl, hv⟩
    · rw [List.sum_nil]
      exact le_max_left _ _
    · rw [List.sum_append, List.sum_singleton]
      have hle : v.sum ≤ c := hgreatest ⟨v, hv, rfl⟩
      exact le_trans (add_le_add_left hle x) (le_max_right _ _)

/-- The counter is never below the floor. -/
lemma IsGreatest.suffixSums_nonneg {steps : List α} {c : α} (h : IsGreatest (suffixSums steps) c) :
    0 ≤ c := h.2 ⟨[], List.nil_suffix, List.sum_nil⟩

end
