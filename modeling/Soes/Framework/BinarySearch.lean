import Mathlib.Data.List.Basic

/-!
# Binary search

A search in a sorted table by a comparison: an element lies before what is looked for, behind it, or
is it.  The window is half open, and each look halves it.  What is found is what was looked for
whatever the order of the table (`bisect_found`); that it is found needs the order
(`bisect_finds`).
-/

namespace Soes

variable {α : Type} {order : α → Ordering} {xs : List α} {lo hi : ℕ}

/-- Search the elements from `lo` to `hi`, by whether an element lies before what is looked for
(`lt`) or behind it (`gt`). -/
def bisect (order : α → Ordering) (xs : List α) (lo hi : ℕ) : Option α :=
  if lo < hi then
    let mid := lo + (hi - lo) / 2
    match xs[mid]? with
    | none => none
    | some x =>
        match order x with
        | .eq => some x
        | .lt => bisect order xs (mid + 1) hi
        | .gt => bisect order xs lo mid
  else none
termination_by hi - lo

/-- A table that is sorted by the comparison: what comes before something that is not behind lies
before. -/
def SortedBy (order : α → Ordering) (xs : List α) : Prop :=
  xs.Pairwise fun x y => order y ≠ .gt → order x = .lt

lemma SortedBy.lt_of_lt (h : SortedBy order xs) {i j : ℕ} {x y : α} (hx : xs[i]? = some x)
    (hy : xs[j]? = some y) (hij : i < j) (hle : order y ≠ .gt) : order x = .lt := by
  obtain ⟨hi, rfl⟩ := List.getElem?_eq_some_iff.mp hx
  obtain ⟨hj, rfl⟩ := List.getElem?_eq_some_iff.mp hy
  exact List.pairwise_iff_getElem.mp h i j hi hj hij hle

/-- What is found is in the table and is what was looked for. -/
lemma bisect_found {x : α} (h : bisect order xs lo hi = some x) : x ∈ xs ∧ order x = .eq := by
  fun_induction bisect order xs lo hi with
  | case1 => cases h
  | case2 lo hi _ mid y hy hother =>
      cases h
      exact ⟨List.mem_of_getElem? hy, hother⟩
  | case3 lo hi _ mid y hy hother ih => exact ih h
  | case4 lo hi _ mid y hy hother ih => exact ih h
  | case5 => cases h

/-- In a sorted table it is found, if it is in the window. -/
lemma bisect_finds (hsorted : SortedBy order xs) (hhi : hi ≤ xs.length) {i : ℕ} {x : α}
    (hx : xs[i]? = some x) (heq : order x = .eq) (hlo : lo ≤ i) (hlt : i < hi) :
    bisect order xs lo hi = some x := by
  fun_induction bisect order xs lo hi with
  | case1 lo hi hwindow mid hnone =>
      have hmid := List.getElem?_eq_none_iff.mp hnone
      omega
  | case2 lo hi hwindow mid y hy hother =>
      -- two elements that are looked for would each lie before the other
      rcases Nat.lt_trichotomy i mid with hbefore | hsame | hafter
      · have hbad := hsorted.lt_of_lt hx hy hbefore (by rw [hother]; decide)
        rw [heq] at hbad
        cases hbad
      · rw [← hsame, hx] at hy
        exact hy.symm
      · have hbad := hsorted.lt_of_lt hy hx hafter (by rw [heq]; decide)
        rw [hother] at hbad
        cases hbad
  | case3 lo hi hwindow mid y hy hother ih =>
      apply ih hhi _ hlt
      by_contra hle
      rcases Nat.lt_or_eq_of_le (Nat.le_of_not_lt hle) with hbefore | hsame
      · have hbad := hsorted.lt_of_lt hx hy hbefore (by rw [hother]; decide)
        rw [heq] at hbad
        cases hbad
      · rw [hsame, hy] at hx
        cases hx
        rw [hother] at heq
        cases heq
  | case4 lo hi hwindow mid y hy hother ih =>
      apply ih (by omega) hlo
      by_contra hge
      rcases Nat.lt_or_eq_of_le (Nat.le_of_not_lt hge) with hafter | hsame
      · have hbad := hsorted.lt_of_lt hy hx hafter (by rw [heq]; decide)
        rw [hother] at hbad
        cases hbad
      · rw [← hsame, hy] at hx
        cases hx
        rw [hother] at heq
        cases heq
  | case5 lo hi hempty => omega

end Soes
