import Mathlib.Data.List.Infix
import Soes.Properties.SafeState
import Soes.Stack.RegisterFile

/-!
# How a pending OP request is resolved

A request for OP under DC is held (`enterOp`), and `ESC_op_pending_step` is called for every cycle
until it is resolved.  The step keeps two times and two notes; what they come to over a whole
sequence of calls is said here about the sequence itself: how long the good steps at its end add
up to (`goodTime`), how long all of them do (`totalTime`), and what has been seen.  The step lemma
carries the variables from one call to the next (`Waiting`), and the induction over the calls gives
the first one at which the request ends (`op_pending_resolves`).

The times are 64-bit in the source.  They are the sums as long as the sum of all the times stays
below that; a sequence whose sum goes round is not refused when it should be.
-/

namespace Soes

open Program

variable {σ : Type} {sys : System σ} {n : ℕ} {w : World σ} {limit sml : Word}

/-! ## Sequences of calls -/

/-- One call of `ESC_op_pending_step`, and the sync error counter it finds. -/
structure PendingStep where
  synccounter : ℤ
  sync0 : Bool
  smEvent : Bool
  elapsedNs : ℕ
  deriving DecidableEq, Repr

/-- The code of such a call. -/
def pendingStep (p : PendingStep) : Stack σ Unit := do
  modifyAl fun al => { al with synccounter := p.synccounter }
  escOpPendingStep p.sync0 p.smEvent p.elapsedNs

/-- The code of a sequence of calls. -/
def pendingSteps : List PendingStep → Stack σ Unit
  | [] => pure ()
  | p :: ps => do
      pendingStep p
      pendingSteps ps

/-- A good step: SYNC0 arrived, and the process data keeps up with it, by the sync error counter
if there is a limit, else by an SM event unless there are no outputs. -/
def PendingStep.Good (limit sml : Word) (p : PendingStep) : Prop :=
  p.sync0 = true ∧
    (if limit ≠ 0 then p.synccounter < (limit.toNat : ℤ) else p.smEvent = true ∨ sml = 0)

instance (limit sml : Word) (p : PendingStep) : Decidable (p.Good limit sml) := by
  unfold PendingStep.Good; infer_instance

/-- The time of all the calls. -/
def totalTime (ps : List PendingStep) : ℕ := (ps.map (·.elapsedNs)).sum

/-- The time of the unbroken run of good steps that the calls end with. -/
def goodTime (limit sml : Word) (ps : List PendingStep) : ℕ :=
  totalTime (ps.reverse.takeWhile fun p => p.Good limit sml)

/-- The request is accepted after these calls: good sync has lasted, and an SM event was seen
since the request if there are outputs. -/
def Accepts (limit sml : Word) (ps : List PendingStep) : Prop :=
  escOpSyncValidNs ≤ goodTime limit sml ps ∧ (ps.any (·.smEvent) = true ∨ sml = 0)

/-- The request has waited too long after these calls. -/
def Expires (ps : List PendingStep) : Prop := escOpPendingTimeoutNs ≤ totalTime ps

instance (limit sml : Word) (ps : List PendingStep) : Decidable (Accepts limit sml ps) := by
  unfold Accepts; infer_instance

instance (ps : List PendingStep) : Decidable (Expires ps) := by
  unfold Expires; infer_instance

/-- The request ends with the last of these calls at the latest. -/
def Ends (limit sml : Word) (ps : List PendingStep) : Prop := Accepts limit sml ps ∨ Expires ps

/-- The code a request is refused with after these calls. -/
def refusalCode (sml : Word) (ps : List PendingStep) : Word :=
  if ps.any (·.sync0) = false then alerrNosyncerror
  else if ps.any (·.smEvent) = false ∧ sml ≠ 0 then alerrWatchdog
  else alerrSyncerror

/-- The calls after which the request first ends, among these. -/
structure FirstEnd (limit sml : Word) (ps qs : List PendingStep) : Prop where
  first : qs <+: ps
  ends : Ends limit sml qs
  least : ∀ rs, rs <+: qs → rs ≠ qs → ¬ Ends limit sml rs

lemma totalTime_append (ps : List PendingStep) (p : PendingStep) :
    totalTime (ps ++ [p]) = totalTime ps + p.elapsedNs := by
  simp [totalTime]

lemma goodTime_append (limit sml : Word) (ps : List PendingStep) (p : PendingStep) :
    goodTime limit sml (ps ++ [p]) =
      if p.Good limit sml then goodTime limit sml ps + p.elapsedNs else 0 := by
  by_cases h : p.Good limit sml
  · simp [goodTime, totalTime, h, Nat.add_comm]
  · simp [goodTime, totalTime, h]

lemma goodTime_le (limit sml : Word) (ps : List PendingStep) :
    goodTime limit sml ps ≤ totalTime ps := by
  induction ps using List.reverseRecOn with
  | nil => exact Nat.le_refl _
  | append_singleton ps p ih =>
      rw [goodTime_append, totalTime_append]
      split <;> omega

/-! ## What a call does -/

/-- The request is held, after these calls. -/
structure Waiting (limit sml : Word) (ps : List PendingStep) (w : World σ) : Prop where
  pending : w.al.opPending = true
  status : w.al.alStatus = escSafeop.setWidth 16
  syncLimit : w.al.synccounterlimit = limit
  outputs : w.al.escSm2Sml = sml
  total : w.al.opPendingNs = totalTime ps
  valid : w.al.opValidNs = goodTime limit sml ps
  sync0 : w.al.opSeenSync0 = ps.any (·.sync0)
  smEvent : w.al.opSeenSm = ps.any (·.smEvent)

/-- The request was accepted: outputs are started, the AL status is OP, or what the application's
hook makes of it, and unless that is an error the error code is cleared. -/
structure OpEntered (sys : System σ) (w : World σ) : Prop where
  pending : w.al.opPending = false
  outputs : w.al.appState &&& appstateOutput ≠ 0
  status : ∃ o : σ,
    w.al.alStatus = (hookAnswer sys.cfg.postStateChangeHook o safeopToOp escOp).2.setWidth 16 ∧
    ((hookAnswer sys.cfg.postStateChangeHook o safeopToOp escOp).2 &&& escError = 0 →
      w.al.alError = alerrNone)

/-- The request was refused, with this code. -/
structure OpRefused (code : Word) (w : World σ) : Prop where
  pending : w.al.opPending = false
  status : w.al.alStatus = (escSafeop ||| escError).setWidth 16
  code : w.al.alError = code

/-- The chip acknowledges that a SyncManager is enabled, within the bound on the loops. -/
def EnableAcknowledged (hal : Hal σ) (n : ℕ) : Prop :=
  ∀ b, wp hal n (escSMenable 2) (fun _ _ => True) b

/-- Only the AL status and the AL status code may have changed. -/
abbrev StatusOnly (w w' : World σ) : Prop :=
  w'.al = { w.al with alStatus := w'.al.alStatus, alError := w'.al.alError }

instance : Std.Refl (StatusOnly (σ := σ)) := ⟨fun _ => rfl⟩

instance : IsTrans (World σ) StatusOnly := ⟨fun _ _ _ h h' => by rw [StatusOnly, h', h]⟩

lemma escALerror_statusOnly (errornumber : Word) :
    Keeps (StatusOnly (σ := σ)) (escALerror errornumber) :=
  .bind (.modify fun _ => rfl) fun _ => .within (fun _ _ => rfl) _ _

/-- What follows the switch of `ESC_state` sets the AL status and its code only. -/
lemma escStateFinish_statusOnly (as an : Byte) :
    Keeps (StatusOnly (σ := σ)) (escStateFinish as an) := by
  have hook : ∀ as an : Byte, Keeps (StatusOnly (σ := σ)) (do
      callStateChangeHook (← ask).cfg.postStateChangeHook as an) := fun as an =>
    .ask_bind fun sys => by
      cases sys.cfg.postStateChangeHook with
      | none => exact .pure _
      | some call => exact .transact fun _ _ => rfl
  have id : Keeps (StatusOnly (σ := σ)) deviceId := .ask_bind fun sys => by
    cases sys.cfg.getDeviceId with
    | none => exact Keeps.map (.within (fun _ _ => rfl) _ _) _
    | some getDeviceId => exact .transact fun _ _ => rfl
  have bus : ∀ {β : Type} (m : OnBus σ β), Keeps StatusOnly (onBus m) := fun m =>
    .within (fun _ _ => rfl) _ m
  refine (hook as an).bind fun _ => .get_bind fun _ => (Keeps.when (escALerror_statusOnly _)).bind
    fun _ => .get_bind fun _ => (bus _).bind fun _ => Keeps.bind (.ite ?_ (.pure _)) fun _ =>
      .bind (.modify fun _ => rfl) fun _ => bus _
  exact id.bind fun _ => .ite ((escALerror_statusOnly _).bind fun _ => .pure _) (.pure _)

/-- The wait starts when `ESC_state` holds a request: under DC, a transition from SAFEOP to OP
after which the AL status is SAFEOP leaves a request of which nothing has been counted. -/
lemma escState_holds (h : w.transits sys) (has : (w.transition sys).1 = safeopToOp)
    (hdc : w.al.dcsync ≠ 0) :
    wlp sys n escState (fun _ w' => w'.al.alStatus = escSafeop.setWidth 16 →
      Waiting w.al.synccounterlimit w.al.escSm2Sml [] w') w := by
  intro a w' hrun hstatus
  rw [escState_transition h, has] at hrun
  obtain ⟨an, w₁, hswitch, hfinish⟩ := bind_eq_ok.mp hrun
  have hal : (w.hookCalled sys).al =
      { w.al with alControl := (w.readControl sys).al.alControl, opPending := false } := by
    rw [World.hookCalled, World.hooked_al]
    rfl
  have hheld : wlp sys n (enterOp (σ := σ)
      (ackedStatus (w.readControl sys).controlByte (w.readControl sys).controlByte))
      (fun _ w₁ => w₁.al = { (w.hookCalled sys).al with
        opPending := true, opSeenSync0 := false, opSeenSm := false, opPendingNs := 0,
        opValidNs := 0 }) (w.hookCalled sys) := by
    rw [enterOp, wlp_get_bind, if_pos (by rw [hal]; exact hdc), wlp_bind]
    exact (wlp_modifyAl _ _).mpr ((wlp_pure _ _).mpr rfl)
  have h₁ := hheld an w₁ hswitch
  have h₂ : StatusOnly w₁ w' := escStateFinish_statusOnly _ an sys n w₁ a w' hfinish
  rw [StatusOnly, h₁, hal] at h₂
  constructor
  case status => exact hstatus
  all_goals rw [h₂]
  case total => rfl
  case valid => rfl
  case sync0 => rfl
  case smEvent => rfl

lemma wp_modifyAl (f : AlState → AlState) (Q : Unit → World σ → Prop) :
    wp sys n (modifyAl f) Q w ↔ Q () { w with al := f w.al } := wp_modify _ _

lemma wp_onBus_al {m : OnBus σ α} (hm : wp sys.hal n m (fun _ _ => True) (busOf.get w)) :
    wp sys n (onBus m) (fun _ w' => w'.al = w.al) w :=
  (wp_within _ _ _ _).mpr (hm.mono fun _ _ _ => rfl)

lemma wp_escALerror (errornumber : Word) :
    wp sys n (escALerror errornumber) (fun _ w' => w'.al = { w.al with alError := errornumber })
      w := by
  rw [escALerror, wp_bind, wp_modifyAl]
  exact wp_onBus_al ((wp_transact _ _).mpr trivial)

lemma wp_escALstatus (status : Byte) :
    wp sys n (escALstatus status)
      (fun _ w' => w'.al = { w.al with alStatus := status.setWidth 16 }) w := by
  rw [escALstatus, wp_bind, wp_modifyAl]
  exact wp_onBus_al ((wp_transact _ _).mpr trivial)

/-- Outputs are started, on a chip that acknowledges. -/
lemma wp_escStartoutput (hchip : EnableAcknowledged sys.hal n) (state : Byte) :
    wp sys n (escStartoutput state)
      (fun _ w' => w'.al = { w.al with appState := w.al.appState ||| appstateOutput }) w := by
  rw [escStartoutput, wp_bind, wp_get, wp_bind]
  refine wp.mono (Q := fun _ w' => w'.al = w.al) ((wp_when _ _ _).mpr ⟨fun _ => ?_, fun _ => rfl⟩)
    fun _ w₁ h₁ => ?_
  · exact wp_onBus_al (hchip _)
  · rw [wp_bind, wp_modifyAl, wp_pure]
    rw [h₁]

/-- The variables with one more call counted. -/
def AlState.counted (al : AlState) (p : PendingStep) : AlState :=
  AlState.countPending { al with synccounter := p.synccounter } p.sync0 p.smEvent p.elapsedNs

/-- The variables of the request after one more call. -/
lemma Waiting.count {ps : List PendingStep} (hw : Waiting limit sml ps w) (p : PendingStep)
    (htime : totalTime (ps ++ [p]) < 2 ^ 64) {w₁ : World σ} (h₁ : w₁.al = w.al.counted p) :
    Waiting limit sml (ps ++ [p]) w₁ := by
  have hvalid : goodTime limit sml ps + p.elapsedNs < 2 ^ 64 := by
    have := goodTime_le limit sml ps
    rw [totalTime_append] at htime
    omega
  constructor
  case pending => rw [h₁]; exact hw.pending
  case status => rw [h₁]; exact hw.status
  case syncLimit => rw [h₁]; exact hw.syncLimit
  case outputs => rw [h₁]; exact hw.outputs
  case total =>
    rw [h₁, totalTime_append]
    change (w.al.opPendingNs + p.elapsedNs) % 2 ^ 64 = _
    rw [hw.total, Nat.mod_eq_of_lt (by rwa [totalTime_append] at htime)]
  case valid =>
    rw [h₁, goodTime_append]
    simp only [AlState.counted, AlState.countPending, hw.syncLimit, hw.outputs, hw.valid,
      PendingStep.Good,
      Nat.mod_eq_of_lt hvalid]
  case sync0 => rw [h₁]; simp [AlState.counted, AlState.countPending, hw.sync0]
  case smEvent => rw [h₁]; simp [AlState.counted, AlState.countPending, hw.smEvent]

/-- The code a request is refused with, by its variables. -/
lemma Waiting.refusal {ps : List PendingStep} (hw : Waiting limit sml ps w) :
    pendingError w.al = refusalCode sml ps := by
  simp [pendingError, refusalCode, hw.sync0, hw.smEvent, hw.outputs]

/-- What the request has come to after these calls. -/
structure Resolved (sys : System σ) (limit sml : Word) (qs : List PendingStep) (w : World σ) :
    Prop where
  /-- It is accepted when that is due, also if it has waited too long. -/
  accepted : Accepts limit sml qs → OpEntered sys w
  refused : ¬ Accepts limit sml qs → OpRefused (refusalCode sml qs) w

/-- OP is entered. -/
lemma wp_accept (hchip : EnableAcknowledged sys.hal n) {rest : Stack σ Unit}
    (hrest : rest = (do
      modifyAl fun al => { al with opPending := false }
      let _ ← escStartoutput escOp
      let (_, an) ← callStateChangeHook (← ask).cfg.postStateChangeHook safeopToOp escOp
      when (an &&& escError = 0 ∧ (← get).al.alError ≠ 0) (escALerror alerrNone)
      escALstatus an)) :
    wp sys n rest (fun _ w' => OpEntered sys w') w := by
  rw [hrest, wp_bind, wp_modifyAl]
  refine (wp_escStartoutput hchip _).bind fun _ w₁ h₁ => ?_
  rw [wp_bind, wp_ask, wp_bind, wp_callStateChangeHook_answer]
  set an := (hookAnswer sys.cfg.postStateChangeHook w₁.outside safeopToOp escOp).2 with han
  set w₂ := w₁.hooked sys.cfg.postStateChangeHook safeopToOp escOp with hw₂
  have hal : w₂.al = w₁.al := World.hooked_al _ _ _ _
  have hout : (w.al.appState ||| appstateOutput) &&& appstateOutput ≠ 0 :=
    (show ∀ b : Byte, (b ||| appstateOutput) &&& appstateOutput ≠ 0 by decide) _
  rw [wp_bind, wp_get]
  refine wp.bind (P := fun _ w' => w'.al.opPending = false ∧
    w'.al.appState &&& appstateOutput ≠ 0 ∧ (an &&& escError = 0 → w'.al.alError = alerrNone))
    ((wp_when _ _ _).mpr ⟨fun _ => ?_, fun hskip => ?_⟩) fun _ w₃ h₃ => ?_
  · refine (wp_escALerror _).mono fun _ w₃ h₃ => ?_
    rw [h₃, hal, h₁]
    exact ⟨rfl, hout, fun _ => rfl⟩
  · rw [hal, h₁] at *
    exact ⟨rfl, hout, fun herr => Decidable.byContradiction fun h => hskip ⟨herr, h⟩⟩
  · refine (wp_escALstatus an).mono fun _ w₄ h₄ => ?_
    constructor
    case pending => rw [h₄]; exact h₃.1
    case outputs => rw [h₄]; exact h₃.2.1
    case status => exact ⟨w₁.outside, by rw [h₄], fun herr => by rw [h₄]; exact h₃.2.2 herr⟩

/-- One more call: the request ends, or goes on waiting. -/
lemma wp_pendingStep (hchip : EnableAcknowledged sys.hal n) {qs : List PendingStep}
    (hw : Waiting limit sml qs w) (p : PendingStep) (htime : totalTime (qs ++ [p]) < 2 ^ 64) :
    wp sys n (pendingStep p) (fun _ w' =>
      (Ends limit sml (qs ++ [p]) → Resolved sys limit sml (qs ++ [p]) w') ∧
      (¬ Ends limit sml (qs ++ [p]) → Waiting limit sml (qs ++ [p]) w')) w := by
  rw [pendingStep, wp_bind, wp_modifyAl, escOpPendingStep, wp_bind, wp_get]
  refine (wp_when _ _ _).mpr ⟨fun _ => ?_, fun h => absurd hw.pending h⟩
  refine wp.bind (P := fun _ w₁ => w₁.al = w.al.counted p) ((wp_modifyAl _ _).mpr rfl)
    fun _ w₁ hal => ?_
  have h₁ : Waiting limit sml (qs ++ [p]) w₁ := hw.count p htime hal
  rw [wp_bind, wp_get]
  have haccept : (escOpSyncValidNs ≤ w₁.al.opValidNs ∧ (w₁.al.opSeenSm ∨ w₁.al.escSm2Sml = 0)) ↔
      Accepts limit sml (qs ++ [p]) := by
    rw [h₁.valid, h₁.smEvent, h₁.outputs, Accepts]
  have hexpire : escOpPendingTimeoutNs ≤ w₁.al.opPendingNs ↔ Expires (qs ++ [p]) := by
    rw [h₁.total, Expires]
  refine (wp_ite _ _ _ _).mpr ⟨fun h => ?_, fun h =>
    (wp_when _ _ _).mpr ⟨fun h' => ?_, fun h' => ?_⟩⟩
  · have ha := haccept.mp h
    exact (wp_accept hchip rfl).mono fun _ w₂ h₂ =>
      ⟨fun _ => ⟨fun _ => h₂, fun hn => absurd ha hn⟩, fun hn => absurd (.inl ha) hn⟩
  · have hn := fun ha => h (haccept.mpr ha)
    have hx := hexpire.mp h'
    rw [wp_bind, wp_modifyAl]
    refine (wp_escALerror _).bind fun _ w₂ h₂ => (wp_escALstatus _).mono fun _ w₃ h₃ =>
      ⟨fun _ => ⟨fun ha => absurd ha hn, fun _ => ?_⟩, fun hn => absurd (.inr hx) hn⟩
    constructor
    case pending => rw [h₃, h₂]
    case status => rw [h₃]
    case code => rw [h₃, h₂, ← h₁.refusal]
  · refine ⟨fun he => ?_, fun _ => h₁⟩
    rcases he with ha | hx
    · exact absurd (haccept.mpr ha) h
    · exact absurd (hexpire.mpr hx) h'

/-! ## What a sequence of calls does -/

/-- A call that finds no request counts nothing. -/
lemma wp_pendingStep_idle (hidle : w.al.opPending = false) (p : PendingStep) :
    wp sys n (pendingStep p) (fun _ w' => w'.al = { w.al with synccounter := p.synccounter })
      w := by
  rw [pendingStep, wp_bind, wp_modifyAl, escOpPendingStep, wp_bind, wp_get]
  exact (wp_when _ _ _).mpr ⟨fun h => absurd (hidle.symm.trans h) Bool.false_ne_true, fun _ => rfl⟩

/-- A request stays as it was resolved, whatever calls follow. -/
lemma wp_pendingSteps_resolved {qs : List PendingStep} (hr : Resolved sys limit sml qs w)
    (rest : List PendingStep) :
    wp sys n (pendingSteps rest) (fun _ w' => Resolved sys limit sml qs w') w := by
  induction rest generalizing w with
  | nil => exact (wp_pure _ _).mpr hr
  | cons p rest ih =>
      have hidle : w.al.opPending = false := by
        by_cases h : Accepts limit sml qs
        · exact (hr.accepted h).pending
        · exact (hr.refused h).pending
      refine (wp_pendingStep_idle hidle p).bind fun _ w₁ h₁ => ih ⟨fun h => ?_, fun h => ?_⟩
      · have he := hr.accepted h
        exact ⟨by rw [h₁]; exact he.pending, by rw [h₁]; exact he.outputs,
          by rw [h₁]; exact he.status⟩
      · have he := hr.refused h
        exact ⟨by rw [h₁]; exact he.pending, by rw [h₁]; exact he.status,
          by rw [h₁]; exact he.code⟩

/-- The request ends only once. -/
lemma FirstEnd.unique {ps qs rs : List PendingStep} (hq : FirstEnd limit sml ps qs)
    (hr : FirstEnd limit sml ps rs) : qs = rs := by
  refine Decidable.byContradiction fun hne => ?_
  rcases List.prefix_or_prefix_of_prefix hq.first hr.first with h | h
  · exact hr.least qs h hne hq.ends
  · exact hq.least rs h (Ne.symm hne) hr.ends

/-- The state after a whole sequence of calls: resolved by the first calls it ended with, or still
waiting. -/
def Settled (sys : System σ) (limit sml : Word) (ps : List PendingStep) (w : World σ) : Prop :=
  (∀ qs, FirstEnd limit sml ps qs → Resolved sys limit sml qs w) ∧
    ((∀ qs, qs <+: ps → ¬ Ends limit sml qs) → Waiting limit sml ps w)

/-- The induction: the calls that have been made have not ended the request. -/
lemma wp_pendingSteps (hchip : EnableAcknowledged sys.hal n) (rest : List PendingStep) :
    ∀ {qs : List PendingStep} {w : World σ}, totalTime (qs ++ rest) < 2 ^ 64 →
      Waiting limit sml qs w → (∀ rs, rs <+: qs → ¬ Ends limit sml rs) →
      wp sys n (pendingSteps rest) (fun _ w' => Settled sys limit sml (qs ++ rest) w') w := by
  induction rest with
  | nil =>
      intro qs w _ hw hopen
      rw [List.append_nil]
      exact (wp_pure _ _).mpr ⟨fun rs hr => absurd hr.ends (hopen rs hr.first), fun _ => hw⟩
  | cons p rest ih =>
      intro qs w htime hw hopen
      have happ : qs ++ p :: rest = (qs ++ [p]) ++ rest := by simp
      rw [happ] at htime ⊢
      have htime' : totalTime (qs ++ [p]) < 2 ^ 64 := by
        refine Nat.lt_of_le_of_lt ?_ htime
        simp [totalTime]
      have hbefore : ∀ rs, rs <+: qs ++ [p] → rs ≠ qs ++ [p] → ¬ Ends limit sml rs :=
        fun rs hr hne => hopen rs (by
          rcases List.prefix_concat_iff.mp hr with h | h
          · exact absurd h hne
          · exact h)
      refine (wp_pendingStep hchip hw p htime').bind fun _ w₁ h₁ => ?_
      by_cases hend : Ends limit sml (qs ++ [p])
      · have hfirst : FirstEnd limit sml ((qs ++ [p]) ++ rest) (qs ++ [p]) :=
          ⟨List.prefix_append _ _, hend, hbefore⟩
        refine (wp_pendingSteps_resolved (h₁.1 hend) rest).mono fun _ w₂ h₂ => ⟨fun rs hr => ?_, ?_⟩
        · rwa [hr.unique hfirst]
        · exact fun h => absurd hend (h _ (List.prefix_append _ _))
      · refine ih htime (h₁.2 hend) fun rs hr => ?_
        by_cases hrs : rs = qs ++ [p]
        · rwa [hrs]
        · exact hbefore rs hr hrs

/-- **How a pending OP request is resolved.**  After any calls whose times do not add up to 2⁶⁴: if
the request ended, it is accepted when good sync has lasted and the frames have been seen by then,
and refused, with the code for what was missing, otherwise; if it did not, it is still held. -/
theorem op_pending_resolves (hchip : EnableAcknowledged sys.hal n) (ps : List PendingStep)
    (htime : totalTime ps < 2 ^ 64) (hheld : Waiting limit sml [] w) :
    wp sys n (pendingSteps ps) (fun _ w' => Settled sys limit sml ps w') w := by
  have hnil : ¬ Ends limit sml [] := by simp [Ends, Accepts, Expires, goodTime, totalTime]
  refine wp_pendingSteps hchip ps (by rwa [List.nil_append]) hheld fun rs hr => ?_
  rwa [List.prefix_nil.mp hr]

/-- The example device in SAFEOP, with a request for OP held. -/
def exampleHeld : World ByteStore :=
  let w := World.zeroed (exampleChip 8 0 1) 0 fun _ => 0
  { w with al := { w.al with
      alStatus := 4, dcsync := 1, synccounterlimit := 10, escSm2Sml := 1, opPending := true } }

/-- A chip that answers with what was written acknowledges at once. -/
lemma registerFile_acknowledges (n : ℕ) : EnableAcknowledged registerFile (n + 1) := by
  intro b
  have hbit : ∀ d : Byte, ¬ d &&& 254#8 &&& 1#8 = 1#8 := by decide
  rw [escSMenable, wp_bind, updateSm, wp_modify, escSMwritepdi, wp_bind, wp_bind, wp_get, escWrite,
    wp_transact, wp_bind]
  refine wp_doWhile_once ?_
  rw [escSMreadpdi, wp_bind, escRead, wp_transact, updateSm, wp_modify]
  refine ⟨?_, (wp_modify _ _).mpr trivial⟩
  simpa [registerFile, SyncManagers.update, ByteStore.copy] using hbit _

/-- A period with SYNC0 and a frame, of 0.1 s. -/
def goodPeriod : PendingStep := ⟨0, true, true, 100000000⟩

/-- Two such periods, after one without, resolve the request of the example device. -/
theorem op_pending_resolves_example :
    wp exampleSystem 8 (pendingSteps [⟨0, true, false, 100000000⟩, goodPeriod, goodPeriod])
      (fun _ w' => Settled exampleSystem 10 1
        [⟨0, true, false, 100000000⟩, goodPeriod, goodPeriod] w') exampleHeld :=
  op_pending_resolves (registerFile_acknowledges 7) _ (by decide)
    ⟨rfl, rfl, rfl, rfl, rfl, rfl, rfl, rfl⟩

/-- The example device, with a hook that answers every transition with OP in error. -/
def exampleVeto : System ByteStore :=
  { exampleSystem with
    cfg := { exampleCfg with
      postStateChangeHook := some fun o as _ => (o, as, escOp ||| escError) } }

/-- Whether the request is pending after some calls on the example device, and the AL status. -/
def pendingAfter (sys : System ByteStore) (ps : List PendingStep) : Bool × Word :=
  match pendingSteps ps sys 8 exampleHeld with
  | .ok _ w => (w.al.opPending, w.al.alStatus)
  | _ => (false, 0)

lemma pendingAfter_of_wp {sys : System ByteStore} {ps : List PendingStep} {P : Bool → Word → Prop}
    (h : wp sys 8 (pendingSteps ps) (fun _ w' => P w'.al.opPending w'.al.alStatus) exampleHeld) :
    P (pendingAfter sys ps).1 (pendingAfter sys ps).2 := by
  obtain ⟨_, w', hrun, hP⟩ := h
  rw [pendingAfter, hrun]
  exact hP

/-- Times that add up to 2⁶⁴ leave a request pending that has waited too long, and an accepted
request does not have the AL status OP if a hook says otherwise. -/
theorem op_pending_outlives_timeout :
    (¬ ∀ ps, Expires ps → wp exampleSystem 8 (pendingSteps ps)
      (fun _ w' => w'.al.opPending = false) exampleHeld) ∧
    (¬ ∀ ps, Accepts 10 1 ps → ¬ Expires ps → wp exampleVeto 8 (pendingSteps ps)
      (fun _ w' => w'.al.alStatus = escOp.setWidth 16) exampleHeld) := by
  constructor
  · intro h
    have := pendingAfter_of_wp (P := fun b _ => b = false)
      (h [⟨0, false, false, 1⟩, ⟨0, false, false, 2 ^ 64 - 1⟩] (by decide))
    exact absurd this (by decide +kernel)
  · intro h
    have := pendingAfter_of_wp (P := fun _ s => s = escOp.setWidth 16)
      (h [goodPeriod, goodPeriod] (by decide) (by decide))
    exact absurd this (by decide +kernel)

end Soes
