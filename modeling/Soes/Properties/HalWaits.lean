import Soes.Stack.Lan9252

/-!
# Waiting for the chip

A wait reads a register until it has a value that is wanted.  It ends without a fault if the chip is
prompt: while the value is another one, the chip is due to have it later, and no later than the
timeout from any time on (`wp_poll`).
-/

namespace Soes

namespace Hal

open Program

variable {χ : Type} {env : HalEnv χ} {k : ℕ} {s : HalMem χ}

/-- The chip answers a transfer of some bytes: the transfer does not fail, and what is received
and the chip afterwards are related. -/
def Answered (spi : Spi χ) (c : χ) (buf : ByteStore) (len : ℕ) (Q : ByteStore → χ → Prop) : Prop :=
  ∃ f c', spi.xfer c buf len = (some f, c') ∧ Q f c'

/-- The timeout of the waits, in nanoseconds. -/
def HalEnv.timeout (env : HalEnv χ) : ℕ := env.timeoutMs * 1000000

/-- No fault is latched, and only the chip differs from `s`. -/
structure Usable (s s' : HalMem χ) : Prop where
  hwFault : s'.hwFault = false
  same : s' = { s with chip := s'.chip }

lemma Usable.refl (h : s.hwFault = false) : Usable s s := ⟨h, rfl⟩

lemma Usable.trans {s₁ s₂ : HalMem χ} (h : Usable s s₁) (h' : Usable s₁ s₂) : Usable s s₂ := by
  refine ⟨h'.hwFault, ?_⟩
  rw [h'.same, h.same]

/-- Only the chip changes. -/
lemma Usable.withChip {s' : HalMem χ} (h : Usable s s') (c : χ) : Usable s { s' with chip := c } :=
  h.trans ⟨h.hwFault, rfl⟩

/-- A transfer that the chip answers. -/
lemma wp_spiXfer {buf : ByteStore} {len : ℕ} {R : ByteStore → χ → Prop}
    {Q : Option ByteStore → HalMem χ → Prop} (h : Answered env.spi s.chip buf len R)
    (hQ : ∀ f c, R f c → Q (some f) { s with chip := c }) : wp env k (spiXfer buf len) Q s := by
  obtain ⟨f, c, hxfer, hR⟩ := h
  rw [spiXfer, wp_transact, hxfer]
  simp only [Option.isNone_some, Bool.or_false]
  exact hQ f c hR

/-- A register that the chip answers with. -/
lemma wp_lan9252Read32 {address : ℕ} {R : ByteStore → χ → Prop} {Q : Dword → HalMem χ → Prop}
    (h : Answered env.spi s.chip (frameRead address) frameLen R)
    (hQ : ∀ f c, R f c → Q (frameValue f) { s with chip := c }) :
    wp env k (lan9252Read32 address) Q s := by
  rw [lan9252Read32, wp_bind]
  refine wp_spiXfer h fun f c hR => ?_
  rw [wp_pure]
  exact hQ f c hR

/-- A register that the chip takes. -/
lemma wp_lan9252Write32 {address : ℕ} {val : Dword} {R : ByteStore → χ → Prop}
    {Q : Unit → HalMem χ → Prop}
    (h : Answered env.spi s.chip (frameWrite address val) frameLen R)
    (hQ : ∀ f c, R f c → Q () { s with chip := c }) :
    wp env k (lan9252Write32 address val) Q s := by
  rw [lan9252Write32, wp_bind]
  refine wp_spiXfer h fun f c hR => ?_
  rw [wp_pure]
  exact hQ f c hR

/-- A wait ends with a value that is wanted.  `Inv` holds of the chip while it is polled, and
`due` is when it has a wanted value at the latest; time passes with every transfer. -/
lemma wp_poll {reg : ℕ} {accept : Dword → Bool} {failed : Dword → Dword} (Inv : χ → Prop)
    (Done : Dword → χ → Prop) (due : χ → ℕ) (hs : s.hwFault = false) (hinv : Inv s.chip)
    (hdue : due s.chip ≤ env.spi.clock s.chip + env.timeout) (hk : env.timeout < k)
    (hpoll : ∀ c, Inv c → Answered env.spi c (frameRead reg) frameLen fun f c' =>
      due c' ≤ due c ∧ env.spi.clock c < env.spi.clock c' ∧
        (accept (frameValue f) = true → Done (frameValue f) c') ∧
        (accept (frameValue f) = false → Inv c' ∧ env.spi.clock c' < due c')) :
    wp env k (poll reg accept failed)
      (fun value s' => accept value = true ∧ Done value s'.chip ∧ Usable s s') s := by
  rw [poll, wp_bind, deadlineSet, wp_transact]
  change wp env k (loop (fun _ =>
    pollRound reg accept failed (env.spi.clock s.chip + env.timeout)) ()) _ s
  refine wp_loop (fun _ s' => Usable s s' ∧ Inv s'.chip ∧
      due s'.chip ≤ env.spi.clock s.chip + env.timeout ∧
        env.spi.clock s.chip ≤ env.spi.clock s'.chip)
    (fun _ s' => env.spi.clock s.chip + env.timeout - env.spi.clock s'.chip)
    ⟨.refl hs, hinv, hdue, Nat.le_refl _⟩ (by rwa [Nat.add_sub_cancel_left]) ?_
  intro _ s₁ ⟨husable, hinv₁, hdue₁, hclock₁⟩
  rw [pollRound, wp_bind]
  refine wp_lan9252Read32 (hpoll _ hinv₁) fun f c ⟨hdue₂, hclock₂, hdone, hwait⟩ => ?_
  have husable₂ : Usable s { s₁ with chip := c } := husable.withChip c
  have hnone : ¬ ({ s₁ with chip := c } : HalMem χ).hwFault = true := by
    rw [husable₂.hwFault]
    exact Bool.false_ne_true
  rw [wp_get_bind, if_neg hnone]
  by_cases haccept : accept (frameValue f) = true
  · rw [if_pos haccept, wp_pure]
    exact ⟨haccept, hdone haccept, husable₂⟩
  · obtain ⟨hinv₂, hbefore⟩ := hwait (Bool.eq_false_iff.mpr haccept)
    have hpassed : decide (env.spi.clock s.chip + env.timeout < env.spi.clock c) = false :=
      decide_eq_false (by omega)
    rw [if_neg haccept, wp_bind, deadlinePassed, wp_transact]
    change wp env k (if decide (env.spi.clock s.chip + env.timeout < env.spi.clock c) = true then _
      else _) _ _
    rw [hpassed, if_neg Bool.false_ne_true, wp_pure]
    refine ⟨⟨husable₂, hinv₂, Nat.le_trans hdue₂ hdue₁, ?_⟩, ?_⟩
    · exact Nat.le_trans hclock₁ (Nat.le_of_lt hclock₂)
    · change env.spi.clock s.chip + env.timeout - env.spi.clock c <
        env.spi.clock s.chip + env.timeout - env.spi.clock s₁.chip
      omega

end Hal

end Soes
