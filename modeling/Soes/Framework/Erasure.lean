import Soes.Framework.Program

/-!
# Code that keeps a record

To speak of what a program does on the way, and not only of the state it leaves behind, the program
is run on states that hold a record beside everything else.  The record must not matter:
`Program.Erases` says that a run of the recording program, with the record erased, is a run of the
program itself, with the same outcome.

The rules follow the constructs of a program, so that the erasure of a program is put together from
that of its parts, and only the code that adds to the record needs an argument of its own.
-/

namespace Outcome

variable {ε S S' α : Type}

/-- The outcome with another state. -/
def mapState (f : S' → S) : Outcome ε S' α → Outcome ε S α
  | .ok a s => .ok a (f s)
  | .fault e => .fault e
  | .diverge => .diverge

/-- A run that finishes is one that finishes with the record. -/
lemma mapState_eq_ok {f : S' → S} {x : Outcome ε S' α} {a : α} {s : S} :
    x.mapState f = .ok a s ↔ ∃ s', x = .ok a s' ∧ f s' = s := by
  cases x with
  | ok a' s' =>
      constructor
      · intro h
        cases h
        exact ⟨s', rfl, rfl⟩
      · rintro ⟨s₁, hrun, rfl⟩
        cases hrun
        rfl
  | fault e => simp [mapState]
  | diverge => simp [mapState]

end Outcome

namespace Program

variable {R R' P ε S S' T α β : Type} {erase : S' → S} {r : R} {r' : R'}

/-- With the record erased, `m'` does what `m` does. -/
def Erases (erase : S' → S) (r' : R') (r : R) (m' : Program R' ε S' α) (m : Program R ε S α) :
    Prop :=
  ∀ n s, (m' r' n s).mapState erase = m r n (erase s)

namespace Erases

lemma pure (a : α) :
    Erases erase r' r (pure a : Program R' ε S' α) (pure a : Program R ε S α) :=
  fun _ _ => rfl

lemma bind {m' : Program R' ε S' α} {m : Program R ε S α} {f' : α → Program R' ε S' β}
    {f : α → Program R ε S β} (hm : Erases erase r' r m' m)
    (hf : ∀ a, Erases erase r' r (f' a) (f a)) : Erases erase r' r (m' >>= f') (m >>= f) := by
  intro n s
  have hrun := hm n s
  rw [bind_apply, bind_apply, ← hrun]
  cases m' r' n s with
  | ok a s₁ => exact hf a n s₁
  | fault e => rfl
  | diverge => rfl

/-- Code that looks at the state sees it without the record. -/
lemma get_bind {f' : S' → Program R' ε S' β} {f : S → Program R ε S β}
    (hf : ∀ s, Erases erase r' r (f' s) (f (erase s))) :
    Erases erase r' r (get >>= f') (get >>= f) :=
  fun n s => hf s n s

lemma ask_bind {f' : R' → Program R' ε S' β} {f : R → Program R ε S β}
    (hf : Erases erase r' r (f' r') (f r)) : Erases erase r' r (ask >>= f') (ask >>= f) :=
  fun n s => hf n s

lemma modify {f' : S' → S'} {f : S → S} (hf : ∀ s, erase (f' s) = f (erase s)) :
    Erases erase r' r (modify f' : Program R' ε S' Unit) (modify f : Program R ε S Unit) :=
  fun _ s => congrArg (Outcome.ok ()) (hf s)

/-- The rule for code that adds to the record. -/
lemma transact {f' : R' → S' → α × S'} {f : R → S → α × S}
    (hf : ∀ s, ((f' r' s).1, erase (f' r' s).2) = f r (erase s)) :
    Erases erase r' r (transact f' : Program R' ε S' α) (transact f : Program R ε S α) := by
  intro n s
  have h := hf s
  change Outcome.ok (f' r' s).1 (erase (f' r' s).2) = Outcome.ok (f r (erase s)).1 (f r (erase s)).2
  rw [← h]

lemma fault (e : ε) :
    Erases erase r' r (fault e : Program R' ε S' α) (fault e : Program R ε S α) :=
  fun _ _ => rfl

lemma ite {c : Prop} [Decidable c] {m₁' m₂' : Program R' ε S' α} {m₁ m₂ : Program R ε S α}
    (h₁ : Erases erase r' r m₁' m₁) (h₂ : Erases erase r' r m₂' m₂) :
    Erases erase r' r (if c then m₁' else m₂') (if c then m₁ else m₂) := by
  split
  · exact h₁
  · exact h₂

lemma when {c : Prop} [Decidable c] {m' : Program R' ε S' Unit} {m : Program R ε S Unit}
    (h : Erases erase r' r m' m) : Erases erase r' r (when c m') (when c m) :=
  .ite h (.pure _)

/-- A check that both make, with what it is known to give. -/
lemma lift_bind {x : Except ε α} {f' : α → Program R' ε S' β} {f : α → Program R ε S β}
    (hf : ∀ a, x = .ok a → Erases erase r' r (f' a) (f a)) :
    Erases erase r' r (lift x >>= f') (lift x >>= f) := by
  cases x with
  | ok a => exact hf a rfl
  | error e => exact fun _ _ => rfl

/-- A loop whose rounds agree as long as its variable stays in `I`. -/
lemma loop {γ : Type} {body' : β → Program R' ε S' (β ⊕ γ)} {body : β → Program R ε S (β ⊕ γ)}
    {I : β → Prop} (hbody : ∀ b, I b → Erases erase r' r (body' b) (body b))
    (hstep : ∀ b n s, I b → wlp r n (body b) (fun x _ => ∀ b', x = .inl b' → I b') s) {b : β}
    (hb : I b) : Erases erase r' r (loop body' b) (loop body b) := by
  have hrounds (n k : ℕ) : ∀ b s, I b →
      (rounds body' k b r' n s).mapState erase = rounds body k b r n (erase s) := by
    induction k with
    | zero => exact fun _ _ _ => rfl
    | succ k ih =>
        intro b s hb
        have hrun := hbody b hb n s
        have hnext := hstep b n (erase s) hb
        rw [rounds, rounds, bind_apply, bind_apply, ← hrun]
        cases hround : body' b r' n s with
        | ok x s₁ =>
            rw [hround] at hrun
            cases x with
            | inl b' => exact ih b' s₁ (hnext _ _ hrun.symm b' rfl)
            | inr c => rfl
        | fault e => rfl
        | diverge => rfl
  exact fun n s => hrounds n n b s hb

/-- Code on a component that holds nothing of the record. -/
lemma within {env' : R' → S' → P} {env : R → S → P} {L' : Component S' T} {L : Component S T}
    (henv : ∀ s, env' r' s = env r (erase s)) (hget : ∀ s, L'.get s = L.get (erase s))
    (hput : ∀ t s, erase (L'.put t s) = L.put t (erase s)) (m : Program P ε T α) :
    Erases erase r' r (within env' L' m) (within env L m) := by
  intro n s
  simp only [Program.within, henv, hget]
  cases m (env r (erase s)) n (L.get (erase s)) with
  | ok a t => exact congrArg (Outcome.ok a) (hput t s)
  | fault e => rfl
  | diverge => rfl

end Erases

end Program
