import Mathlib.Algebra.Ring.Nat
import Mathlib.Order.Defs.Unbundled
import Mathlib.Tactic.TypeStar

/-!
# Sequential programs with faults and fuel

`Program R ε S α` is the meaning of a piece of sequential code: it reads fixed parameters from
`R`, is given a bound on the iterations any single loop may take, starts in a state from `S`,
and either finishes with a value and a new state, stops with a fault from `ε`, or is still
looping when the bound is used up.  Three outcomes are kept apart on purpose.  A fault is what
undefined behaviour of the source language becomes (a null pointer followed, a division by
zero), so that no theorem speaks about the state such code would leave behind; and a loop that
is still running is not a fault, because for many loops the question is exactly whether some
bound is enough.

Two predicate transformers carry all the reasoning.  `Program.wlp` is the weakest liberal
precondition: *if* the program finishes, the postcondition holds.  `Program.wp` is the total
one: the program finishes, *and* the postcondition holds.  Every construct has an equation for
each of them, so that a symbolic run of a program is a run of the simplifier.

Code that works on one component of a larger state is written against that component alone and
brought into the larger program by `Program.within`.  Everything outside the component is then
unchanged by construction, and no frame lemma has to be proved.
-/

/-- What running a program comes to. -/
inductive Outcome (ε S α : Type) where
  /-- The program finished with this value, in this state. -/
  | ok (a : α) (s : S)
  /-- The program reached a point where its source language gives it no meaning. -/
  | fault (e : ε)
  /-- A loop was still running when its iterations were used up. -/
  | diverge
  deriving DecidableEq, Repr

/-- What is seen of the state in which a program finished, `none` if it did not finish. -/
def Outcome.seen (f : S → β) : Outcome ε S α → Option β
  | .ok _ s => some (f s)
  | _ => none

/-- A sequential program over parameters `R`, faults `ε` and state `S`.  The natural number
bounds the iterations of each loop. -/
def Program (R ε S α : Type) : Type :=
  R → ℕ → S → Outcome ε S α

namespace Program

variable {R R' ε S T α β γ : Type}

/-! ## Constructs -/

instance : Monad (Program R ε S) where
  pure a := fun _ _ s => .ok a s
  bind m f := fun r n s =>
    match m r n s with
    | .ok a s' => f a r n s'
    | .fault e => .fault e
    | .diverge => .diverge

instance : LawfulMonad (Program R ε S) := by
  refine LawfulMonad.mk' _ (fun m => ?_) (fun _ _ => rfl) fun m f g => ?_
  · funext r n s
    change (match m r n s with
      | .ok a s' => .ok a s' | .fault e => .fault e | .diverge => .diverge) = m r n s
    cases m r n s <;> rfl
  · funext r n s
    simp only [bind]
    cases m r n s <;> rfl

/-- The parameters. -/
def ask : Program R ε S R := fun r _ s => .ok r s

/-- The state. -/
def get : Program R ε S S := fun _ _ s => .ok s s

/-- Replace the state by a function of it. -/
def modify (f : S → S) : Program R ε S Unit := fun _ _ s => .ok () (f s)

/-- Compute a value and a new state from the parameters and the state. -/
def transact (f : R → S → α × S) : Program R ε S α := fun r _ s => .ok (f r s).1 (f r s).2

/-- Stop with a fault. -/
def fault (e : ε) : Program R ε S α := fun _ _ _ => .fault e

/-- Run a check that is pure but may fault. -/
def lift (x : Except ε α) : Program R ε S α := fun _ _ s =>
  match x with
  | .ok a => .ok a s
  | .error e => .fault e

/-- Run the body if the condition holds. -/
def when (c : Prop) [Decidable c] (m : Program R ε S Unit) : Program R ε S Unit :=
  if c then m else pure ()

/-- At most `k` rounds of a loop; `Sum.inl` goes round again, `Sum.inr` leaves. -/
def rounds (body : β → Program R ε S (β ⊕ γ)) : ℕ → β → Program R ε S γ
  | 0, _ => fun _ _ _ => .diverge
  | k + 1, b => do
      match ← body b with
      | .inl b' => rounds body k b'
      | .inr c => pure c

/-- A loop with a loop variable, bounded by the fuel. -/
def loop (body : β → Program R ε S (β ⊕ γ)) (b : β) : Program R ε S γ :=
  fun r n s => rounds body n b r n s

/-- `do body while (again)`. -/
def doWhile (body : Program R ε S Unit) (again : S → Bool) : Program R ε S Unit :=
  loop (fun _ => do
    body
    let s ← get
    pure (if again s then .inl () else .inr ())) ()

/-! ## Components of a state -/

end Program

/-- A component of a larger state: how to read it, and how to put a new one back. -/
structure Component (S T : Type) where
  get : S → T
  put : T → S → S
  get_put : ∀ t s, get (put t s) = t
  put_get : ∀ s, put (get s) s = s

namespace Program

variable {R R' ε S T α β γ : Type}

/-- Run a program on one component of the state, with the parameters `env` computes for it
there. -/
def within (env : R → S → R') (L : Component S T) (m : Program R' ε T α) : Program R ε S α :=
  fun r n s =>
    match m (env r s) n (L.get s) with
    | .ok a t => .ok a (L.put t s)
    | .fault e => .fault e
    | .diverge => .diverge

/-! ## Weakest preconditions -/

/-- Partial correctness: if the program finishes, it does so with `Q`. -/
def wlp (r : R) (n : ℕ) (m : Program R ε S α) (Q : α → S → Prop) (s : S) : Prop :=
  ∀ a s', m r n s = .ok a s' → Q a s'

/-- Total correctness: the program finishes, with `Q`. -/
def wp (r : R) (n : ℕ) (m : Program R ε S α) (Q : α → S → Prop) (s : S) : Prop :=
  ∃ a s', m r n s = .ok a s' ∧ Q a s'

section rules

variable {r : R} {n : ℕ} {s : S}

@[simp] lemma wlp_pure (a : α) (Q : α → S → Prop) :
    wlp r n (pure a : Program R ε S α) Q s ↔ Q a s := by
  constructor
  · intro h
    exact h a s rfl
  · intro h a' s' hrun
    cases hrun
    exact h

@[simp] lemma wp_pure (a : α) (Q : α → S → Prop) :
    wp r n (pure a : Program R ε S α) Q s ↔ Q a s := by
  constructor
  · rintro ⟨a', s', hrun, h⟩
    cases hrun
    exact h
  · intro h
    exact ⟨a, s, rfl, h⟩

lemma bind_apply (m : Program R ε S α) (f : α → Program R ε S β) :
    (m >>= f) r n s = match m r n s with
      | .ok a s' => f a r n s'
      | .fault e => .fault e
      | .diverge => .diverge := rfl

/-- A sequence finishes if both its parts do. -/
lemma bind_eq_ok {m : Program R ε S α} {f : α → Program R ε S β} {b : β} {s' : S} :
    (m >>= f) r n s = .ok b s' ↔ ∃ a s₁, m r n s = .ok a s₁ ∧ f a r n s₁ = .ok b s' := by
  rw [bind_apply]
  cases m r n s <;> simp [and_assoc]

@[simp] lemma wlp_bind (m : Program R ε S α) (f : α → Program R ε S β) (Q : β → S → Prop) :
    wlp r n (m >>= f) Q s ↔ wlp r n m (fun a s' => wlp r n (f a) Q s') s := by
  simp only [wlp, bind_apply]
  cases m r n s <;> simp

@[simp] lemma wp_bind (m : Program R ε S α) (f : α → Program R ε S β) (Q : β → S → Prop) :
    wp r n (m >>= f) Q s ↔ wp r n m (fun a s' => wp r n (f a) Q s') s := by
  simp only [wp, bind_apply]
  cases m r n s <;> simp [and_assoc]

@[simp] lemma wlp_map (m : Program R ε S α) (f : α → β) (Q : β → S → Prop) :
    wlp r n (f <$> m) Q s ↔ wlp r n m (fun a s' => Q (f a) s') s := by
  rw [← bind_pure_comp, wlp_bind]
  simp only [wlp_pure]

@[simp] lemma wp_map (m : Program R ε S α) (f : α → β) (Q : β → S → Prop) :
    wp r n (f <$> m) Q s ↔ wp r n m (fun a s' => Q (f a) s') s := by
  rw [← bind_pure_comp, wp_bind]
  simp only [wp_pure]

@[simp] lemma wlp_ask (Q : R → S → Prop) :
    wlp r n (ask : Program R ε S R) Q s ↔ Q r s :=
  ⟨fun h => h r s rfl, fun h a s' hrun => by cases hrun; exact h⟩

@[simp] lemma wp_ask (Q : R → S → Prop) :
    wp r n (ask : Program R ε S R) Q s ↔ Q r s :=
  ⟨fun ⟨_, _, hrun, h⟩ => by cases hrun; exact h, fun h => ⟨r, s, rfl, h⟩⟩

@[simp] lemma wlp_get (Q : S → S → Prop) :
    wlp r n (get : Program R ε S S) Q s ↔ Q s s :=
  ⟨fun h => h s s rfl, fun h a s' hrun => by cases hrun; exact h⟩

@[simp] lemma wp_get (Q : S → S → Prop) :
    wp r n (get : Program R ε S S) Q s ↔ Q s s :=
  ⟨fun ⟨_, _, hrun, h⟩ => by cases hrun; exact h, fun h => ⟨s, s, rfl, h⟩⟩

@[simp] lemma wlp_modify (f : S → S) (Q : Unit → S → Prop) :
    wlp r n (modify f : Program R ε S Unit) Q s ↔ Q () (f s) :=
  ⟨fun h => h () (f s) rfl, fun h a s' hrun => by cases hrun; exact h⟩

@[simp] lemma wp_modify (f : S → S) (Q : Unit → S → Prop) :
    wp r n (modify f : Program R ε S Unit) Q s ↔ Q () (f s) :=
  ⟨fun ⟨_, _, hrun, h⟩ => by cases hrun; exact h, fun h => ⟨(), f s, rfl, h⟩⟩

@[simp] lemma wlp_transact (f : R → S → α × S) (Q : α → S → Prop) :
    wlp r n (transact f : Program R ε S α) Q s ↔ Q (f r s).1 (f r s).2 :=
  ⟨fun h => h _ _ rfl, fun h a s' hrun => by cases hrun; exact h⟩

@[simp] lemma wp_transact (f : R → S → α × S) (Q : α → S → Prop) :
    wp r n (transact f : Program R ε S α) Q s ↔ Q (f r s).1 (f r s).2 :=
  ⟨fun ⟨_, _, hrun, h⟩ => by cases hrun; exact h, fun h => ⟨_, _, rfl, h⟩⟩

@[simp] lemma wlp_fault (e : ε) (Q : α → S → Prop) :
    wlp r n (fault e : Program R ε S α) Q s := by
  intro a s' hrun
  cases hrun

@[simp] lemma wp_fault (e : ε) (Q : α → S → Prop) :
    ¬ wp r n (fault e : Program R ε S α) Q s := by
  rintro ⟨a, s', hrun, -⟩
  cases hrun

@[simp] lemma wlp_lift (x : Except ε α) (Q : α → S → Prop) :
    wlp r n (lift x : Program R ε S α) Q s ↔ ∀ a, x = .ok a → Q a s := by
  cases x <;> simp [wlp, lift]

@[simp] lemma wp_lift (x : Except ε α) (Q : α → S → Prop) :
    wp r n (lift x : Program R ε S α) Q s ↔ ∃ a, x = .ok a ∧ Q a s := by
  cases x <;> simp [wp, lift, and_assoc]

@[simp] lemma wlp_when (c : Prop) [Decidable c] (m : Program R ε S Unit)
    (Q : Unit → S → Prop) :
    wlp r n (when c m) Q s ↔ (c → wlp r n m Q s) ∧ (¬ c → Q () s) := by
  by_cases h : c <;> simp [when, h]

@[simp] lemma wp_when (c : Prop) [Decidable c] (m : Program R ε S Unit)
    (Q : Unit → S → Prop) :
    wp r n (when c m) Q s ↔ (c → wp r n m Q s) ∧ (¬ c → Q () s) := by
  by_cases h : c <;> simp [when, h]

@[simp] lemma wlp_ite (c : Prop) [Decidable c] (m m' : Program R ε S α) (Q : α → S → Prop) :
    wlp r n (if c then m else m') Q s ↔
      (c → wlp r n m Q s) ∧ (¬ c → wlp r n m' Q s) := by
  by_cases h : c <;> simp [h]

@[simp] lemma wp_ite (c : Prop) [Decidable c] (m m' : Program R ε S α) (Q : α → S → Prop) :
    wp r n (if c then m else m') Q s ↔ (c → wp r n m Q s) ∧ (¬ c → wp r n m' Q s) := by
  by_cases h : c <;> simp [h]

@[simp] lemma wlp_within (env : R → S → R') (L : Component S T) (m : Program R' ε T α)
    (Q : α → S → Prop) :
    wlp r n (within env L m) Q s ↔
      wlp (env r s) n m (fun a t => Q a (L.put t s)) (L.get s) := by
  simp only [wlp, within]
  cases m (env r s) n (L.get s) <;> simp

@[simp] lemma wp_within (env : R → S → R') (L : Component S T) (m : Program R' ε T α)
    (Q : α → S → Prop) :
    wp r n (within env L m) Q s ↔
      wp (env r s) n m (fun a t => Q a (L.put t s)) (L.get s) := by
  simp only [wp, within]
  cases m (env r s) n (L.get s) <;> simp [and_assoc]

@[simp] lemma wlp_true (m : Program R ε S α) : wlp r n m (fun _ _ => True) s :=
  fun _ _ _ => trivial

/-- Partial correctness passes to weaker postconditions. -/
lemma wlp.mono {m : Program R ε S α} {Q Q' : α → S → Prop} (h : wlp r n m Q s)
    (hQ : ∀ a s', Q a s' → Q' a s') : wlp r n m Q' s :=
  fun a s' hrun => hQ a s' (h a s' hrun)

/-- Total correctness passes to weaker postconditions. -/
lemma wp.mono {m : Program R ε S α} {Q Q' : α → S → Prop} (h : wp r n m Q s)
    (hQ : ∀ a s', Q a s' → Q' a s') : wp r n m Q' s := by
  obtain ⟨a, s', hrun, hq⟩ := h
  exact ⟨a, s', hrun, hQ a s' hq⟩

/-- Sequencing: what the first program establishes is what the second starts from. -/
lemma wlp.bind {m : Program R ε S α} {f : α → Program R ε S β} {P : α → S → Prop}
    {Q : β → S → Prop} (h : wlp r n m P s) (hf : ∀ a s', P a s' → wlp r n (f a) Q s') :
    wlp r n (m >>= f) Q s := by
  rw [wlp_bind]
  exact h.mono hf

/-- Sequencing for total correctness. -/
lemma wp.bind {m : Program R ε S α} {f : α → Program R ε S β} {P : α → S → Prop}
    {Q : β → S → Prop} (h : wp r n m P s) (hf : ∀ a s', P a s' → wp r n (f a) Q s') :
    wp r n (m >>= f) Q s := by
  rw [wp_bind]
  exact h.mono hf

lemma wlp_get_bind (f : S → Program R ε S β) (Q : β → S → Prop) :
    wlp r n (get >>= f) Q s ↔ wlp r n (f s) Q s := by
  rw [wlp_bind, wlp_get]

lemma wlp_ask_bind (f : R → Program R ε S β) (Q : β → S → Prop) :
    wlp r n (ask >>= f) Q s ↔ wlp r n (f r) Q s := by
  rw [wlp_bind, wlp_ask]

lemma wp_get_bind (f : S → Program R ε S β) (Q : β → S → Prop) :
    wp r n (get >>= f) Q s ↔ wp r n (f s) Q s := by
  rw [wp_bind, wp_get]

lemma wp_ask_bind (f : R → Program R ε S β) (Q : β → S → Prop) :
    wp r n (ask >>= f) Q s ↔ wp r n (f r) Q s := by
  rw [wp_bind, wp_ask]

/-- A step that is taken only under a condition. -/
lemma wlp.when {c : Prop} [Decidable c] {m : Program R ε S Unit} {Q : Unit → S → Prop}
    (h : c → wlp r n m Q s) (hskip : ¬ c → Q () s) : wlp r n (when c m) Q s :=
  (wlp_when c m Q).mpr ⟨h, hskip⟩

/-- A step that is taken only under a condition, and finishes. -/
lemma wp.when {c : Prop} [Decidable c] {m : Program R ε S Unit} {Q : Unit → S → Prop}
    (h : c → wp r n m Q s) (hskip : ¬ c → Q () s) : wp r n (when c m) Q s :=
  (wp_when c m Q).mpr ⟨h, hskip⟩

/-- Two partial facts about one program hold together. -/
lemma wlp.and {m : Program R ε S α} {Q Q' : α → S → Prop} (h : wlp r n m Q s)
    (h' : wlp r n m Q' s) : wlp r n m (fun a s' => Q a s' ∧ Q' a s') s :=
  fun a s' hrun => ⟨h a s' hrun, h' a s' hrun⟩

/-- Total correctness is partial correctness, as there is one outcome. -/
lemma wp.wlp {m : Program R ε S α} {Q : α → S → Prop} (h : wp r n m Q s) : wlp r n m Q s := by
  obtain ⟨a, s', hrun, hq⟩ := h
  intro a' s'' hrun'
  rw [hrun] at hrun'
  cases hrun'
  exact hq

/-- Total correctness is partial correctness and finishing. -/
lemma wp_of_wlp {m : Program R ε S α} {Q Q' : α → S → Prop} (h : wp r n m Q s)
    (h' : wlp r n m Q' s) : wp r n m (fun a s' => Q a s' ∧ Q' a s') s := by
  obtain ⟨a, s', hrun, hq⟩ := h
  exact ⟨a, s', hrun, hq, h' a s' hrun⟩

/-! ## Loops -/

/-- The invariant rule: a loop whose body keeps `Inv` when it goes round and gives `Q` when
it leaves, leaves with `Q`. -/
lemma wlp_loop {body : β → Program R ε S (β ⊕ γ)} {Q : γ → S → Prop}
    (Inv : β → S → Prop) {b : β} (hinit : Inv b s)
    (hstep : ∀ b s, Inv b s → wlp r n (body b) (fun x s' =>
      match x with
      | .inl b' => Inv b' s'
      | .inr c => Q c s') s) :
    wlp r n (loop body b) Q s := by
  have key : ∀ k b s, Inv b s → wlp r n (rounds body k b) Q s := by
    intro k
    induction k with
    | zero =>
        intro b s _ c s' hrun
        cases hrun
    | succ k ih =>
        intro b s hb
        simp only [rounds, wlp_bind]
        refine (hstep b s hb).mono ?_
        rintro (b' | c) s' h
        · exact ih b' s' h
        · exact (wlp_pure c Q).mpr h
  exact key n b s hinit

/-- The variant rule: a loop whose body keeps `Inv` and lowers the variant when it goes round
and gives `Q` when it leaves, leaves with `Q` if it may go round more often than the variant says.
-/
lemma wp_loop {body : β → Program R ε S (β ⊕ γ)} {Q : γ → S → Prop}
    (Inv : β → S → Prop) (variant : β → S → ℕ) {b : β} (hinit : Inv b s) (hfuel : variant b s < n)
    (hstep : ∀ b s, Inv b s → wp r n (body b) (fun x s' =>
      match x with
      | .inl b' => Inv b' s' ∧ variant b' s' < variant b s
      | .inr c => Q c s') s) :
    wp r n (loop body b) Q s := by
  have key : ∀ k b s, Inv b s → variant b s < k → wp r n (rounds body k b) Q s := by
    intro k
    induction k with
    | zero =>
        intro b s _ hlt
        exact absurd hlt (Nat.not_lt_zero _)
    | succ k ih =>
        intro b s hb hlt
        simp only [rounds, wp_bind]
        refine (hstep b s hb).mono ?_
        rintro (b' | c) s' h
        · exact ih b' s' h.1 (Nat.lt_of_lt_of_le h.2 (Nat.le_of_lt_succ hlt))
        · exact (wp_pure c Q).mpr h
  exact key n b s hinit hfuel

/-- A loop goes round to here: from the loop variable `b` in `s` it comes to `b'` in `s'`, at
the start of a round. -/
inductive GoesRound (r : R) (n : ℕ) (body : β → Program R ε S (β ⊕ γ)) (b : β) (s : S) :
    β → S → Prop where
  /-- The first round. -/
  | start : GoesRound r n body b s b s
  /-- One more round. -/
  | round {b₁ b₂ : β} {s₁ s₂ : S} (h : GoesRound r n body b s b₁ s₁)
      (hround : body b₁ r n s₁ = .ok (.inl b₂) s₂) : GoesRound r n body b s b₂ s₂

/-- The invariant of a loop holds at the start of every round. -/
lemma GoesRound.invariant {body : β → Program R ε S (β ⊕ γ)} {Inv : β → S → Prop} {b b' : β}
    {s' : S} (h : GoesRound r n body b s b' s') (hinit : Inv b s)
    (hstep : ∀ b s, Inv b s → wlp r n (body b) (fun x s' => ∀ b', x = .inl b' → Inv b' s') s) :
    Inv b' s' := by
  induction h with
  | start => exact hinit
  | round _ hround ih => exact hstep _ _ ih _ _ hround _ rfl

/-- The invariant rule for `do … while`. -/
lemma wlp_doWhile {body : Program R ε S Unit} {again : S → Bool} {Q : Unit → S → Prop}
    (Inv : S → Prop) (hinit : Inv s)
    (hstep : ∀ s, Inv s → wlp r n body (fun _ s' =>
      (again s' = true → Inv s') ∧ (again s' = false → Q () s')) s) :
    wlp r n (doWhile body again) Q s := by
  refine wlp_loop (fun _ => Inv) hinit fun _ s hs => ?_
  simp only [wlp_bind, wlp_get, wlp_pure]
  refine (hstep s hs).mono fun _ s' h => ?_
  cases hagain : again s'
  · exact h.2 hagain
  · exact h.1 hagain

/-- A loop that is left at once: the first round suffices. -/
lemma wp_doWhile_once {body : Program R ε S Unit} {again : S → Bool} {Q : Unit → S → Prop}
    (h : wp r (n + 1) body (fun _ s' => again s' = false ∧ Q () s') s) :
    wp r (n + 1) (doWhile body again) Q s := by
  obtain ⟨_, s', hrun, hagain, hQ⟩ := h
  refine ⟨(), s', ?_, hQ⟩
  have hround : (do
      body
      let s ← get
      pure (if again s then (.inl () : Unit ⊕ Unit) else .inr ()) : Program R ε S (Unit ⊕ Unit)) r
        (n + 1) s = .ok (.inr ()) s' := by
    rw [bind_apply, hrun]
    change (Outcome.ok (if again s' then Sum.inl () else Sum.inr ()) s' : Outcome ε S _) = _
    rw [hagain]
    rfl
  simp only [doWhile, loop, rounds]
  rw [bind_apply, hround]
  rfl

end rules

/-! ## Code that always finishes -/

/-- The code finishes from every state, and then the state has `Q`. -/
def EndsIn (r : R) (Q : S → Prop) (m : Program R ε S α) : Prop :=
  ∀ n s, wp r n m (fun _ s' => Q s') s

/-- The code finishes from every state. -/
abbrev Finishes (r : R) (m : Program R ε S α) : Prop := EndsIn r (fun _ => True) m

namespace EndsIn

variable {Q : S → Prop} {r : R}

/-- A sequence ends as its last part does. -/
lemma bind {m : Program R ε S α} {f : α → Program R ε S β} (hm : Finishes r m)
    (hf : ∀ a, EndsIn r Q (f a)) : EndsIn r Q (m >>= f) := fun n s =>
  (hm n s).bind fun a s₁ _ => hf a n s₁

lemma get_bind {f : S → Program R ε S β} (hf : ∀ s, EndsIn r Q (f s)) :
    EndsIn r Q (get >>= f) := fun n s => by
  rw [wp_bind, wp_get]
  exact hf s n s

lemma ask_bind {f : R → Program R ε S β} (hf : EndsIn r Q (f r)) : EndsIn r Q (ask >>= f) :=
  fun n _ => by
    rw [wp_bind, wp_ask]
    exact hf n _

lemma lift_bind {x : Except ε α} {a : α} (hx : x = .ok a) {f : α → Program R ε S β}
    (hf : EndsIn r Q (f a)) : EndsIn r Q (lift x >>= f) := fun n s => by
  rw [wp_bind, wp_lift]
  exact ⟨a, hx, hf n s⟩

lemma modify {f : S → S} (hf : ∀ s, Q (f s)) : EndsIn r Q (modify f : Program R ε S Unit) :=
  fun _ s => (wp_modify _ _).mpr (hf s)

lemma ite {c : Prop} [Decidable c] {m m' : Program R ε S α} (hm : c → EndsIn r Q m)
    (hm' : ¬ c → EndsIn r Q m') : EndsIn r Q (if c then m else m') := fun n s =>
  (wp_ite c m m' _).mpr ⟨fun h => hm h n s, fun h => hm' h n s⟩

lemma pure (a : α) : Finishes r (pure a : Program R ε S α) := fun _ _ =>
  (wp_pure _ _).mpr trivial

lemma map {m : Program R ε S α} (hm : Finishes r m) (f : α → β) : Finishes r (f <$> m) :=
  fun n s => (wp_map m f _).mpr (hm n s)

lemma transact (f : R → S → α × S) : Finishes r (transact f : Program R ε S α) := fun _ _ =>
  (wp_transact _ _).mpr trivial

lemma when {c : Prop} [Decidable c] {m : Program R ε S Unit} (hm : c → Finishes r m) :
    Finishes r (when c m) := fun n s => (wp_when c m _).mpr ⟨fun h => hm h n s, fun _ => trivial⟩

lemma within {L : Component S T} {env : R → S → R'} {m : Program R' ε T α}
    (hm : ∀ r', Finishes r' m) : Finishes r (within env L m) := fun n _ =>
  (wp_within env L m _).mpr (hm _ n _)

end EndsIn

/-! ## Relations that code keeps -/

/-- The states before and after the code are related, if it finishes.  For a relation that is
reflexive and transitive this passes from the parts of a program to the whole. -/
def KeepsAt (r : R) (P : S → S → Prop) (m : Program R ε S α) : Prop :=
  ∀ n s, wlp r n m (fun _ s' => P s s') s

namespace KeepsAt

variable {P : S → S → Prop} {r : R}

lemma bind [IsTrans S P] {m : Program R ε S α} {f : α → Program R ε S β} (hm : KeepsAt r P m)
    (hf : ∀ a, KeepsAt r P (f a)) : KeepsAt r P (m >>= f) := fun n s =>
  (hm n s).bind fun a s₁ h₁ => (hf a n s₁).mono fun _ s₂ h₂ => IsTrans.trans s s₁ s₂ h₁ h₂

lemma map {m : Program R ε S α} (hm : KeepsAt r P m) (f : α → β) : KeepsAt r P (f <$> m) :=
  fun n s => (wlp_map m f _).mpr (hm n s)

lemma pure [Std.Refl P] (a : α) : KeepsAt r P (pure a : Program R ε S α) := fun _ s =>
  (wlp_pure _ _).mpr (Std.Refl.refl s)

lemma get_bind {f : S → Program R ε S β} (hf : ∀ s, KeepsAt r P (f s)) :
    KeepsAt r P (get >>= f) := fun n s => (wlp_get_bind _ _).mpr (hf s n s)

lemma ask_bind {f : R → Program R ε S β} (hf : KeepsAt r P (f r)) : KeepsAt r P (ask >>= f) :=
  fun n s => (wlp_ask_bind _ _).mpr (hf n s)

lemma when [Std.Refl P] {c : Prop} [Decidable c] {m : Program R ε S Unit} (hm : KeepsAt r P m) :
    KeepsAt r P (when c m) := fun n s => wlp.when (fun _ => hm n s) fun _ => Std.Refl.refl s

lemma ite {c : Prop} [Decidable c] {m m' : Program R ε S α} (hm : KeepsAt r P m)
    (hm' : KeepsAt r P m') : KeepsAt r P (if c then m else m') := by
  split
  · exact hm
  · exact hm'

lemma modify {f : S → S} (hf : ∀ s, P s (f s)) : KeepsAt r P (modify f : Program R ε S Unit) :=
  fun _ s => (wlp_modify _ _).mpr (hf s)

lemma transact {f : R → S → α × S} (hf : ∀ s, P s (f r s).2) :
    KeepsAt r P (transact f : Program R ε S α) := fun _ s => (wlp_transact _ _).mpr (hf s)

/-- Code on a component keeps every relation that does not look at the component. -/
lemma within {L : Component S T} (hP : ∀ t s, P s (L.put t s)) (env : R → S → R')
    (m : Program R' ε T α) : KeepsAt r P (within env L m) := fun _ s =>
  (wlp_within env L m _).mpr fun _ t _ => hP t s

/-- A relation that the body of a loop keeps is kept by the loop. -/
lemma loop [Std.Refl P] [IsTrans S P] {body : β → Program R ε S (β ⊕ γ)}
    (hbody : ∀ b, KeepsAt r P (body b)) (b : β) : KeepsAt r P (loop body b) := fun n s =>
  wlp_loop (fun _ s' => P s s') (Std.Refl.refl s) fun b s₁ h₁ =>
    (hbody b n s₁).mono fun x s₂ h₂ => by
      cases x <;> exact IsTrans.trans s s₁ s₂ h₁ h₂

lemma doWhile [Std.Refl P] [IsTrans S P] {body : Program R ε S Unit} (hbody : KeepsAt r P body)
    (again : S → Bool) : KeepsAt r P (doWhile body again) :=
  .loop (fun _ => hbody.bind fun _ => .get_bind fun _ => .pure _) _

end KeepsAt

/-- The relation is kept whatever the parameters. -/
def Keeps (P : S → S → Prop) (m : Program R ε S α) : Prop := ∀ r, KeepsAt r P m

namespace Keeps

variable {P : S → S → Prop}

lemma bind [IsTrans S P] {m : Program R ε S α} {f : α → Program R ε S β} (hm : Keeps P m)
    (hf : ∀ a, Keeps P (f a)) : Keeps P (m >>= f) := fun r => (hm r).bind fun a => hf a r

lemma map {m : Program R ε S α} (hm : Keeps P m) (f : α → β) : Keeps P (f <$> m) := fun r =>
  (hm r).map f

lemma pure [Std.Refl P] (a : α) : Keeps P (pure a : Program R ε S α) := fun _ => .pure a

lemma get_bind {f : S → Program R ε S β} (hf : ∀ s, Keeps P (f s)) : Keeps P (get >>= f) :=
  fun r => .get_bind fun s => hf s r

lemma ask_bind {f : R → Program R ε S β} (hf : ∀ r, Keeps P (f r)) : Keeps P (ask >>= f) :=
  fun r => .ask_bind (hf r r)

lemma when [Std.Refl P] {c : Prop} [Decidable c] {m : Program R ε S Unit} (hm : Keeps P m) :
    Keeps P (when c m) := fun r => (hm r).when

lemma ite {c : Prop} [Decidable c] {m m' : Program R ε S α} (hm : Keeps P m)
    (hm' : Keeps P m') : Keeps P (if c then m else m') := fun r => (hm r).ite (hm' r)

lemma modify {f : S → S} (hf : ∀ s, P s (f s)) : Keeps P (modify f : Program R ε S Unit) :=
  fun _ => .modify hf

lemma transact {f : R → S → α × S} (hf : ∀ r s, P s (f r s).2) :
    Keeps P (transact f : Program R ε S α) := fun r => .transact (hf r)

lemma lift [Std.Refl P] (x : Except ε α) : Keeps P (lift x : Program R ε S α) := fun _ _ s =>
  (wlp_lift _ _).mpr fun _ _ => Std.Refl.refl s

lemma within {L : Component S T} (hP : ∀ t s, P s (L.put t s)) (env : R → S → R')
    (m : Program R' ε T α) : Keeps P (within env L m) := fun _ => .within hP env m

end Keeps

/-! ## The faults of a run -/

/-- Every fault the run stops with is one of `E`. -/
def wfp (r : R) (n : ℕ) (m : Program R ε S α) (E : ε → Prop) (s : S) : Prop :=
  ∀ e, m r n s = .fault e → E e

section faults

variable {r : R} {n : ℕ} {s : S} {E : ε → Prop}

lemma wfp_pure (a : α) : wfp r n (pure a : Program R ε S α) E s := fun _ h => by cases h

/-- A run that finishes meets no fault. -/
lemma wp.wfp {m : Program R ε S α} {Q : α → S → Prop} (h : wp r n m Q s) : wfp r n m E s := by
  obtain ⟨a, s', hrun, -⟩ := h
  intro e he
  rw [hrun] at he
  cases he

lemma wfp.bind {m : Program R ε S α} {f : α → Program R ε S β} {P : α → S → Prop}
    (hm : wfp r n m E s) (hw : wlp r n m P s) (hf : ∀ a s', P a s' → wfp r n (f a) E s') :
    wfp r n (m >>= f) E s := by
  intro e h
  rw [bind_apply] at h
  cases hrun : m r n s with
  | ok a s' =>
      rw [hrun] at h
      exact hf a s' (hw a s' hrun) e h
  | fault e' =>
      rw [hrun] at h
      cases h
      exact hm e hrun
  | diverge =>
      rw [hrun] at h
      cases h

/-- A step that finishes is passed. -/
lemma wfp_bind_of_ok {m : Program R ε S α} {f : α → Program R ε S β} {a : α} {s' : S}
    (h : m r n s = .ok a s') (hf : wfp r n (f a) E s') : wfp r n (m >>= f) E s := by
  intro e he
  rw [bind_apply, h] at he
  exact hf e he

lemma wfp_lift_bind {x : Except ε α} {f : α → Program R ε S β}
    (hx : ∀ e, x = .error e → E e) (hf : ∀ a, x = .ok a → wfp r n (f a) E s) :
    wfp r n (lift x >>= f) E s := by
  cases x with
  | error e =>
      intro e' he
      cases he
      exact hx e rfl
  | ok a => exact hf a rfl

lemma wfp_ite {c : Prop} [Decidable c] {m m' : Program R ε S α} (hm : c → wfp r n m E s)
    (hm' : ¬ c → wfp r n m' E s) : wfp r n (if c then m else m') E s := by
  split
  case isTrue h => exact hm h
  case isFalse h => exact hm' h

/-- The invariant rule for faults: a body that keeps `Inv` as long as it goes round and meets no
fault but those of `E` makes a loop that meets no other. -/
lemma wfp_loop {body : β → Program R ε S (β ⊕ γ)} (Inv : β → S → Prop) {b : β} (hinit : Inv b s)
    (hfault : ∀ b s, Inv b s → wfp r n (body b) E s)
    (hstep : ∀ b s, Inv b s → wlp r n (body b) (fun x s' => ∀ b', x = .inl b' → Inv b' s') s) :
    wfp r n (loop body b) E s := by
  have key : ∀ k b s, Inv b s → wfp r n (rounds body k b) E s := by
    intro k
    induction k with
    | zero =>
        intro b s _ e h
        cases h
    | succ k ih =>
        intro b s hb
        rw [rounds]
        refine (hfault b s hb).bind (hstep b s hb) fun x s' hx => ?_
        cases x with
        | inl b' => exact ih b' s' (hx b' rfl)
        | inr c => exact wfp_pure c
  exact key n b s hinit

/-- A fault after a step that finishes. -/
lemma bind_eq_fault {m : Program R ε S α} {f : α → Program R ε S β} {a : α} {s' : S} {e : ε}
    (hm : m r n s = .ok a s') (hf : f a r n s' = .fault e) : (m >>= f) r n s = .fault e := by
  rw [bind_apply, hm]
  exact hf

lemma bind_eq_fault_left {m : Program R ε S α} {f : α → Program R ε S β} {e : ε}
    (hm : m r n s = .fault e) : (m >>= f) r n s = .fault e := by
  rw [bind_apply, hm]

lemma lift_bind_eq_fault {x : Except ε α} {f : α → Program R ε S β} {e : ε}
    (hx : x = .error e) : (lift x >>= f : Program R ε S β) r n s = .fault e := by
  subst hx
  rfl

/-- A loop meets a fault if its body does so after `j` more rounds. -/
lemma loop_eq_fault {body : β → Program R ε S (β ⊕ γ)} {e : ε} (Inv : ℕ → β → S → Prop) {j : ℕ}
    {b : β} (hinit : Inv j b s) (hfuel : j < n)
    (hfault : ∀ b s, Inv 0 b s → body b r n s = .fault e)
    (hstep : ∀ j b s, Inv (j + 1) b s → ∃ b' s', body b r n s = .ok (.inl b') s' ∧ Inv j b' s') :
    loop body b r n s = .fault e := by
  have key : ∀ j k b s, j < k → Inv j b s → rounds body k b r n s = .fault e := by
    intro j
    induction j with
    | zero =>
        intro k b s hlt hb
        obtain ⟨k, rfl⟩ : ∃ k', k = k' + 1 := ⟨k - 1, by omega⟩
        rw [rounds]
        exact bind_eq_fault_left (hfault b s hb)
    | succ j ih =>
        intro k b s hlt hb
        obtain ⟨k, rfl⟩ : ∃ k', k = k' + 1 := ⟨k - 1, by omega⟩
        obtain ⟨b', s', h, hb'⟩ := hstep j b s hb
        rw [rounds]
        exact bind_eq_fault h (ih k b' s' (by omega) hb')
  exact key j n b s hfuel hinit

end faults

/-! ## Code that never stops with a fault -/

/-- The code never stops with the fault `e`. -/
def Avoids (r : R) (e : ε) (m : Program R ε S α) : Prop := ∀ n s, m r n s ≠ .fault e

namespace Avoids

variable {r : R} {e : ε}

lemma pure (a : α) : Avoids r e (pure a : Program R ε S α) := fun _ _ h => by cases h

lemma modify (f : S → S) : Avoids r e (modify f : Program R ε S Unit) := fun _ _ h => by cases h

lemma fault {e' : ε} (hne : e' ≠ e) : Avoids r e (fault e' : Program R ε S α) := fun _ _ h =>
  hne (Outcome.fault.inj h)

lemma bind {m : Program R ε S α} {f : α → Program R ε S β} (hm : Avoids r e m)
    (hf : ∀ a, Avoids r e (f a)) : Avoids r e (m >>= f) := by
  intro n s h
  rw [bind_apply] at h
  cases hrun : m r n s with
  | ok a s' =>
      rw [hrun] at h
      exact hf a n s' h
  | fault e' =>
      rw [hrun] at h
      exact hm n s (hrun.trans (congrArg Outcome.fault (Outcome.fault.inj h)))
  | diverge =>
      rw [hrun] at h
      cases h

/-- Code that finishes meets no fault. -/
lemma of_endsIn {Q : S → Prop} {m : Program R ε S α} (h : EndsIn r Q m) : Avoids r e m :=
  fun n s => wp.wfp (E := (· ≠ e)) (h n s) e |> fun h' hrun => h' hrun rfl

lemma of_lift {x : Except ε α} (hx : x ≠ .error e) : Avoids r e (lift x : Program R ε S α) := by
  intro n s h
  cases x with
  | error e' =>
      cases h
      exact hx rfl
  | ok a => cases h

lemma get_bind {f : S → Program R ε S β} (hf : ∀ s, Avoids r e (f s)) :
    Avoids r e (get >>= f) := fun n s => hf s n s

lemma ask_bind {f : R → Program R ε S β} (hf : Avoids r e (f r)) : Avoids r e (ask >>= f) :=
  fun n s => hf n s

lemma lift_bind {x : Except ε α} {a : α} (hx : x = .ok a) {f : α → Program R ε S β}
    (hf : Avoids r e (f a)) : Avoids r e (lift x >>= f) := by
  subst hx
  exact fun n s => hf n s

lemma ite {c : Prop} [Decidable c] {m m' : Program R ε S α} (hm : Avoids r e m)
    (hm' : Avoids r e m') : Avoids r e (if c then m else m') := by
  split
  · exact hm
  · exact hm'

lemma when {c : Prop} [Decidable c] {m : Program R ε S Unit} (hm : Avoids r e m) :
    Avoids r e (when c m) := .ite hm (.pure _)

end Avoids

end Program
