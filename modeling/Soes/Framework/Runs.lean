import Mathlib.Data.List.Forall2

/-!
# Runs of a labelled system

A system is a relation `step s l s'` between states, labelled by what happens.  A run may be
restricted by a condition on its steps, `ok s l`, which only sees the state a step starts from
and its label: `Reachable init step ok s` says that some run from an initial state, all of whose
steps meet the condition, ends in `s`.

`Reachable.invariant` is the one induction over runs.  A property that needs another one on the
way is proved relative to it with `Reachable.invariant_of`.
-/

section

variable {S L : Type}

/-- The states that runs from `init` reach by steps that meet `ok`. -/
inductive Reachable (init : S → Prop) (step : S → L → S → Prop) (ok : S → L → Prop) :
    S → Prop where
  /-- An initial state. -/
  | start {s : S} : init s → Reachable init step ok s
  /-- One more step. -/
  | next {s s' : S} {l : L} : Reachable init step ok s → ok s l → step s l s' →
      Reachable init step ok s'

namespace Reachable

variable {init : S → Prop} {step : S → L → S → Prop} {ok ok' : S → L → Prop} {s : S}

/-- The invariant rule: what holds initially and is kept by every step that meets the
condition holds in every state reached. -/
theorem invariant {P : S → Prop} (hinit : ∀ s, init s → P s)
    (hstep : ∀ s l s', P s → ok s l → step s l s' → P s') (h : Reachable init step ok s) :
    P s := by
  induction h with
  | start hs => exact hinit _ hs
  | next _ hok hs ih => exact hstep _ _ _ ih hok hs

/-- The invariant rule relative to a property already known of every state reached. -/
theorem invariant_of {I P : S → Prop} (hI : ∀ s, Reachable init step ok s → I s)
    (hinit : ∀ s, init s → P s)
    (hstep : ∀ s l s', I s → P s → ok s l → step s l s' → P s')
    (h : Reachable init step ok s) : P s := by
  induction h with
  | start hs => exact hinit _ hs
  | next hs hok hstep' ih => exact hstep _ _ _ (hI _ hs) ih hok hstep'

/-- Fewer conditions, more runs. -/
theorem mono (hok : ∀ s l, ok s l → ok' s l) (h : Reachable init step ok s) :
    Reachable init step ok' s := by
  induction h with
  | start hs => exact .start hs
  | next _ hl hs ih => exact .next ih (hok _ _ hl) hs

/-- Forward simulation: if every step of a run is matched by a step of another system, keeping
a relation between the states, then a run of the first reaches only states related to states that
the second reaches. -/
theorem simulation {S' L' : Type} {init' : S' → Prop} {step' : S' → L' → S' → Prop}
    {allowed' : S' → L' → Prop} (R : S → S' → Prop)
    (hinit : ∀ s, init s → ∃ s', R s s' ∧ init' s')
    (hstep : ∀ s l t s', R s s' → ok s l → step s l t →
      ∃ l' t', R t t' ∧ allowed' s' l' ∧ step' s' l' t')
    (h : Reachable init step ok s) : ∃ s', R s s' ∧ Reachable init' step' allowed' s' := by
  induction h with
  | start hs =>
      obtain ⟨s', hR, hs'⟩ := hinit _ hs
      exact ⟨s', hR, .start hs'⟩
  | next _ hok hs ih =>
      obtain ⟨s', hR, hreach⟩ := ih
      obtain ⟨l', t', hR', hok', hs'⟩ := hstep _ _ _ _ hR hok hs
      exact ⟨t', hR', .next hreach hok' hs'⟩

end Reachable

/-! ## Traces -/

/-- A run from a state, step by step: the state before each step, its label, and the state
after. -/
inductive Trace (step : S → L → S → Prop) : S → List (S × L × S) → Prop where
  /-- No step. -/
  | nil {s : S} : Trace step s []
  /-- A step, and the rest of the run. -/
  | cons {s s' : S} {l : L} {tr : List (S × L × S)} : step s l s' → Trace step s' tr →
      Trace step s ((s, l, s') :: tr)

/-- The states that a deterministic system passes through. -/
def passes (next : S → L → S) (s : S) : List L → List S
  | [] => []
  | l :: ls => next s l :: passes next (next s l) ls

/-- Forward simulation of traces: if every step of a run is matched by a step of a deterministic
system, then the run is matched, step by step, by a run of that system. -/
theorem Trace.simulation {S' L' : Type} {step : S → L → S → Prop} {next : S' → L' → S'}
    {s : S} {s' : S'} {tr : List (S × L × S)} (R : S → S' → Prop) (Q : S → L → L' → Prop)
    (hstep : ∀ s l t s', R s s' → step s l t → ∃ l', R t (next s' l') ∧ Q s l l')
    (hR : R s s') (h : Trace step s tr) :
    ∃ ls, List.Forall₂ (fun x l => Q x.1 x.2.1 l) tr ls ∧
      List.Forall₂ (fun x t => R x.2.2 t) tr (passes next s' ls) := by
  induction h generalizing s' with
  | nil => exact ⟨[], .nil, .nil⟩
  | cons hs _ ih =>
      obtain ⟨l', hR', hQ⟩ := hstep _ _ _ _ hR hs
      obtain ⟨ls, hlabels, hstates⟩ := ih hR'
      exact ⟨l' :: ls, .cons hQ hlabels, .cons hR' hstates⟩

/-! ## Executable runs -/

/-- Take some steps, as long as each is possible. -/
def runSteps (exec : S → L → Option S) : List L → S → Option S
  | [], s => some s
  | l :: ls, s => (exec s l).bind (runSteps exec ls)

theorem runSteps_reachable {init : S → Prop} {step : S → L → S → Prop} {ok : S → L → Prop}
    {exec : S → L → Option S} (hexec : ∀ s l s', exec s l = some s' → ok s l ∧ step s l s')
    (ls : List L) {s s' : S} (h : Reachable init step ok s) (hrun : runSteps exec ls s = some s') :
    Reachable init step ok s' := by
  induction ls generalizing s with
  | nil =>
      cases hrun
      exact h
  | cons l ls ih =>
      obtain ⟨s₁, hs₁, hrun⟩ := Option.bind_eq_some_iff.mp hrun
      have hstep := hexec s l s₁ hs₁
      exact ih (.next h hstep.1 hstep.2) hrun

end
