import Mathlib.Data.Nat.Basic
import Soes.Properties.AlRuns
import Soes.Properties.Traversal

/-!
# The safe state

`AlState.safeStates` counts the calls of `APP_safe_state`.  No code of the stack lowers the count
(the lemmas `…_safe`), `ESC_stopoutput` raises it, and every transition of `ESC_state` out of OP
goes through `ESC_stopoutput` (`escStateSwitch_stops`), unless a state change hook has hidden from
`ESC_state` that it is in OP.  `Soes.Properties.DeadBus` asks whether these exits end, and
`Soes.Properties.DcWatch` whether there is always one.
-/

namespace Soes

open Program

variable {σ : Type} {sys : System σ} {n : ℕ} {w : World σ} {α : Type}

/-! ## The count is never lowered -/

/-- `APP_safe_state` may have been called. -/
abbrev SafeLe (w w' : World σ) : Prop := w.al.safeStates ≤ w'.al.safeStates

instance : Std.Refl (SafeLe (σ := σ)) := ⟨fun _ => le_refl _⟩

instance : IsTrans (World σ) SafeLe := ⟨fun _ _ _ h h' => le_trans h h'⟩

/-- The code does not lower the count of the calls of `APP_safe_state`. -/
abbrev KeepsSafe (m : Stack σ α) : Prop := Keeps SafeLe m

lemma KeepsAl.safe {m : Stack σ α} (hm : KeepsAl m) : KeepsSafe m := fun sys n w =>
  (hm sys n w).mono fun _ _ h => by rw [SafeLe, h.al]

/-- Code that leaves the mailboxes alone is among the code that does not lower the count. -/
lemma KeepsMb.safe {m : Stack σ α} (hm : KeepsMb m) : KeepsSafe m := fun sys n w =>
  (hm sys n w).mono fun _ _ h => h.safe

/-- Starting and stopping the mailboxes has nothing to do with the count. -/
lemma safeRelation (sys : System σ) : AlRelation sys SafeLe :=
  ⟨fun _ _ h => h.safe, fun _ => le_refl _, fun _ _ _ _ _ => le_refl _, fun _ => le_refl _⟩

lemma onBus_safe (m : OnBus σ α) : KeepsSafe (onBus m) := (onBus_keepsMb m).safe

lemma modifyAl_safe {f : AlState → AlState} (hf : ∀ al, al.safeStates ≤ (f al).safeStates) :
    KeepsSafe (σ := σ) (modifyAl f) := (modifyAl_keepsMb hf).safe

lemma modifyMb_safe (f : Mailbox → Mailbox) : KeepsSafe (σ := σ) (modifyMb f) :=
  .modify fun _ => le_refl _

lemma escALerror_safe (errornumber : Word) : KeepsSafe (σ := σ) (escALerror errornumber) :=
  (escALerror_keepsRest errornumber).keepsMb.safe

lemma escALstatus_safe (status : Byte) : KeepsSafe (σ := σ) (escALstatus status) :=
  (escALstatus_keepsRest status).keepsMb.safe

lemma callStateChangeHook_safe (hook : Option (σ → Byte → Byte → σ × Byte × Byte))
    (as an : Byte) : KeepsSafe (callStateChangeHook hook as an) :=
  (callStateChangeHook_keepsRest hook as an).keepsMb.safe

lemma escStopmbx_safe : KeepsSafe (σ := σ) escStopmbx := fun sys =>
  escStopmbx_keeps (safeRelation sys).esc

lemma escStopinput_safe : KeepsSafe (σ := σ) escStopinput := escStopinput_keepsRest.keepsMb.safe

lemma escSmActEvent_safe : KeepsSafe (σ := σ) escSmActEvent := fun sys =>
  escSmActEvent_keeps (safeRelation sys).esc

lemma escStateFinish_safe (as an : Byte) : KeepsSafe (σ := σ) (escStateFinish as an) :=
  (escStateFinish_keepsRest as an).keepsMb.safe

lemma escState_safe : KeepsSafe (σ := σ) escState :=
    fun sys => escState_keeps (safeRelation sys).esc

lemma escOpPendingStep_safe (sync0 smEvent : Bool) (elapsedNs : ℕ) :
    KeepsSafe (σ := σ) (escOpPendingStep sync0 smEvent elapsedNs) :=
  (escOpPendingStep_keepsRest sync0 smEvent elapsedNs).keepsMb.safe

/-! ## Where the state change hook sends `ESC_state` -/

/-- What a state change hook makes of a request and state, and of the AL status. -/
def hookAnswer (hook : Option (σ → Byte → Byte → σ × Byte × Byte)) (o : σ) (as an : Byte) :
    Byte × Byte :=
  match hook with
  | none => (as, an)
  | some call => (call o as an).2

lemma wlp_callStateChangeHook_answer (hook : Option (σ → Byte → Byte → σ × Byte × Byte))
    (as an : Byte) (Q : Byte × Byte → World σ → Prop) :
    wlp sys n (callStateChangeHook hook as an) Q w ↔
      Q (hookAnswer hook w.outside as an) (w.hooked hook as an) := by
  cases hook with
  | none => exact wlp_pure _ _
  | some call => exact wlp_transact _ _

lemma wp_callStateChangeHook_answer (hook : Option (σ → Byte → Byte → σ × Byte × Byte))
    (as an : Byte) (Q : Byte × Byte → World σ → Prop) :
    wp sys n (callStateChangeHook hook as an) Q w ↔
      Q (hookAnswer hook w.outside as an) (w.hooked hook as an) := by
  cases hook with
  | none => exact wp_pure _ _
  | some call => exact wp_transact _ _

/-- A hook leaves the stack's own variables alone. -/
lemma World.hooked_al (w : World σ) (hook : Option (σ → Byte → Byte → σ × Byte × Byte))
    (as an : Byte) : (w.hooked hook as an).al = w.al := by
  cases hook <;> rfl

/-- The request and state `ESC_state` is about to act on, before the hook. -/
def World.requestState (w : World σ) : Byte :=
  (ackedStatus w.controlByte w.controlByte <<< 4) ||| (w.statusByte &&& 0x0f)

/-- The transition `ESC_state` is about to make, as the state change hook leaves it: the request and
state, and the AL status. -/
def World.transition (sys : System σ) (w : World σ) : Byte × Byte :=
  let w := w.readControl sys
  hookAnswer sys.cfg.preStateChangeHook w.outside w.requestState
    (ackedStatus w.controlByte w.statusByte)

/-- `ESC_state` makes a transition: it acts on a request that is not the held one over again. -/
def World.transits (sys : System σ) (w : World σ) : Prop :=
  w.acts sys ∧ ¬ (w.al.opPending = true ∧ (w.readControl sys).requestState = safeopToOp)

/-- A transition starts in OP and does not stay there. -/
def leavesOp (as : Byte) : Prop := as &&& 0x0f = escOp ∧ as ≠ opToOp

/-- The transitions out of OP: the four the switch names, and the unknown ones. -/
lemma leavesOp_cases : ∀ as : Byte, as &&& 0x0f = escOp → as ≠ opToOp →
    as = opToInit ∨ as = opToPreop ∨ as = opToSafeop ∨ as = opToBoot ∨
      as ∉ switchLabels ∧ as ≠ escSafeop := by
  decide +kernel

/-- The state in which `ESC_state` reaches its switch, once the hook has been called. -/
def World.hookCalled (sys : System σ) (w : World σ) : World σ :=
  (w.readControl sys).dropPending.hooked sys.cfg.preStateChangeHook
    (w.readControl sys).requestState (ackedStatus (w.readControl sys).controlByte w.statusByte)

/-- What `ESC_state` does about a request: the transition the hook leaves it with. -/
lemma escState_transition (h : w.transits sys) :
    escState sys n w = (do
      let an ← escStateSwitch (w.transition sys).1 (w.transition sys).2
        (ackedStatus (w.readControl sys).controlByte (w.readControl sys).controlByte)
      escStateFinish (w.transition sys).1 an) sys n (w.hookCalled sys) := by
  obtain ⟨⟨hevent, hstay⟩, hheld⟩ := h
  have hacts : escState sys n w =
      (when (¬ errorStays (w.readControl sys).controlByte w.statusByte)
        (when (¬ (w.al.opPending ∧ (w.readControl sys).requestState = safeopToOp))
          (escStateAct (w.readControl sys).requestState
            (ackedStatus (w.readControl sys).controlByte w.statusByte)
            (ackedStatus (w.readControl sys).controlByte (w.readControl sys).controlByte)))) sys n
        (w.readControl sys) := by
    change (when (w.alEvent &&& escregAleventControl ≠ 0) _ : Stack σ Unit) sys n w = _
    rw [when, if_pos hevent]
    rfl
  rw [hacts, when, if_pos hstay, when, if_pos hheld]
  unfold World.hookCalled World.transition
  change ((callStateChangeHook sys.cfg.preStateChangeHook _ _ >>= _) : Stack σ Unit) sys n
    (w.readControl sys).dropPending = _
  cases sys.cfg.preStateChangeHook <;> rfl

/-! ## The count is raised -/

/-- `ESC_stopoutput` calls `APP_safe_state`. -/
lemma escStopoutput_drops :
    wlp sys n escStopoutput (fun _ w' => w.al.safeStates < w'.al.safeStates) w := by
  refine (wlp.bind ((wlp_modifyAl _ _).mpr ?_) fun _ _ h => h)
  refine ((onBus_safe _) sys n _).bind fun _ w₁ h₁ => ?_
  refine wlp.bind ((wlp_modifyAl _ _).mpr ?_) fun _ _ h => h
  rw [wlp_ask_bind]
  exact ((callHook_al _).safe sys n _).mono fun _ w₂ h₂ => lt_of_lt_of_le
    (Nat.lt_succ_of_le h₁) h₂

/-- What follows `ESC_stopoutput` does not take it back. -/
lemma escStopoutput_then {f : Unit → Stack σ α} (hf : ∀ u, KeepsSafe (f u)) {w₁ : World σ}
    (h : w.al.safeStates ≤ w₁.al.safeStates) :
    wlp sys n (escStopoutput >>= f) (fun _ w' => w.al.safeStates < w'.al.safeStates) w₁ :=
  escStopoutput_drops.bind fun u w₂ h₂ => (hf u sys n w₂).mono fun _ _ h₃ =>
    lt_of_le_of_lt h (lt_of_lt_of_le h₂ h₃)

/-- Setting an error drops outputs that are active. -/
lemma escALstatusgotoerror_drops {status : Byte} (hbelow : status &&& escOp = 0)
    (hout : w.al.appState &&& appstateOutput ≠ 0) (errornumber : Word) :
    wlp sys n (escALstatusgotoerror status errornumber)
      (fun _ w' => w.al.safeStates < w'.al.safeStates) w := by
  rw [escALstatusgotoerror, if_neg (not_not.mpr hbelow), wlp_ask_bind, wlp_get_bind, wlp_bind,
    wlp_callStateChangeHook_answer, wlp_get_bind, World.hooked_al, when, if_pos hout]
  refine escStopoutput_then (fun _ => ?_) (by rw [World.hooked_al])
  exact .bind (modifyAl_safe fun _ => le_refl _) fun _ => (escALerror_safe _).bind fun _ =>
    (escALstatus_safe _).bind fun _ => (callStateChangeHook_safe _ _ _).bind fun _ => .pure _

/-- Every transition out of OP goes through `ESC_stopoutput`, unless `ESC_state` no longer sees
that it is in OP. -/
lemma escStateSwitch_stops {as an : Byte} (hleaves : leavesOp as)
    (hsees : ¬ (as ∉ switchLabels ∧ an ≠ escOp)) (ac : Byte) {Q : Byte → World σ → Prop}
    (stops : ∀ (f : Unit → Stack σ Byte) w₁, (∀ u, KeepsSafe (f u)) →
      w.al.safeStates ≤ w₁.al.safeStates → wlp sys n (escStopoutput >>= f) Q w₁) :
    wlp sys n (escStateSwitch as an ac) Q w := by
  have flagged : ∀ (f : Unit → Stack σ Byte) w₁, (∀ u, KeepsSafe (f u)) →
      w.al.safeStates ≤ w₁.al.safeStates → wlp sys n (stopoutputFlagged >>= f) Q w₁ := by
    intro f w₁ hf h₁
    rw [stopoutputFlagged, bind_assoc]
    exact stops _ w₁ (fun _ => Keeps.bind (.get_bind fun _ => .when (onBus_safe _)) hf) h₁
  rcases leavesOp_cases as hleaves.1 hleaves.2 with rfl | rfl | rfl | rfl | ⟨has, hsafeop⟩
  · change wlp sys n (do escStopoutput; escStopinput; escStopmbx; pure escInit) _ w
    exact stops _ w (fun _ => escStopinput_safe.bind fun _ => escStopmbx_safe.bind fun _ => .pure _)
      (le_refl _)
  · change wlp sys n (do escStopoutput; escStopinput; pure escPreop) _ w
    exact stops _ w (fun _ => escStopinput_safe.bind fun _ => .pure _) (le_refl _)
  · change wlp sys n (do escStopoutput; pure escSafeop) _ w
    exact stops _ w (fun _ => .pure _) (le_refl _)
  · change wlp sys n (do
      escALerror alerrInvalidstatechange; stopoutputFlagged; pure (escSafeop ||| escError)) _ w
    exact (escALerror_safe _ sys n w).bind fun _ w₁ h₁ => flagged _ w₁ (fun _ => .pure _) h₁
  · have hop : an = escOp := Decidable.byContradiction fun h => hsees ⟨has, h⟩
    rw [escStateSwitch_default has, when, if_pos hop]
    exact flagged _ w (fun _ => (Keeps.when escStopinput_safe).bind fun _ =>
      (escALerror_safe _).bind fun _ => .pure _) (le_refl _)

end Soes
