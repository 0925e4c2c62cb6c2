import Mathlib.Data.Int.Order.Basic
import Soes.Properties.Entry
import Soes.Properties.SafeState

/-!
# Outputs under distributed clocks

`ecat_slv_run_dc` notices that process data has stopped by two of its mechanisms only: a wait that
times out under DC, and the count of SYNC0 periods without process data.  The watchdogs of
`DIG_process` are reached on an SM2 or SM3 event, which is what stopped.  A call is *watched* if
one of the two is reached, with a limit the count can exceed (`Watched`); a call that is not
watched leaves the outputs as they are.  `outputs_bounded` bounds the number of watched calls
without process data that outputs survive.

The count is an `int16_t` and the limit a `uint16_t`: the count wraps before it exceeds a limit
above 32767, and reaches the largest possible value, 32770, only after it has wrapped twice, which
is where the bound comes from (`ticksLeft`).
-/

namespace Soes

open Program

variable {σ : Type} {sys : System σ} {n : ℕ} {w w' : World σ} {a : AlView} {α : Type}

/-! ## What the watch goes by -/

/-- The variables that decide whether outputs are dropped. -/
structure DcView where
  counter : ℤ
  seen : Bool
  dcsync : Byte
  limit : Word
  app : Byte
  safeStates : ℕ
  deriving DecidableEq, Repr

/-- The view of `AlState`. -/
def AlState.dc (al : AlState) : DcView where
  counter := al.synccounter
  seen := al.smEventSeen
  dcsync := al.dcsync
  limit := al.synccounterlimit
  app := al.appState
  safeStates := al.safeStates

/-- The view of a world. -/
def World.dc (w : World σ) : DcView := w.al.dc

/-- One SYNC0 period is counted. -/
def DcView.count (d : DcView) : DcView :=
  { d with counter := (countSync d.counter d.seen).bmod (2 ^ 16), seen := false }

/-- Counting one SYNC0 period is a sync error. -/
def DcView.trips (d : DcView) : Prop :=
  d.limit ≠ 0 ∧ (d.limit.toNat : ℤ) < countSync d.counter d.seen

/-- Outputs were dropped, or the view is what it should be. -/
def DroppedOr (w w' : World σ) (d : DcView) : Prop :=
  w.al.safeStates < w'.al.safeStates ∨ w'.dc = d

/-- The view is the same. -/
abbrev SameDc (w w' : World σ) : Prop := w'.dc = w.dc

instance : Std.Refl (SameDc (σ := σ)) := ⟨fun _ => rfl⟩

instance : IsTrans (World σ) SameDc := ⟨fun _ _ _ h h' => h'.trans h⟩

/-- The code leaves the view as it is. -/
abbrev KeepsDc (m : Stack σ α) : Prop := Keeps SameDc m

lemma KeepsAl.dc {m : Stack σ α} (hm : KeepsAl m) : KeepsDc m := fun sys n w =>
  (hm sys n w).mono fun _ _ h => congrArg AlState.dc h.al

lemma onBus_dc (m : OnBus σ α) : KeepsDc (onBus m) := .within (fun _ _ => rfl) _ m

lemma escALerror_dc (errornumber : Word) : KeepsDc (σ := σ) (escALerror errornumber) :=
  .bind (.modify fun _ => rfl) fun _ => onBus_dc _

lemma escALstatus_dc (status : Byte) : KeepsDc (σ := σ) (escALstatus status) :=
  .bind (.modify fun _ => rfl) fun _ => onBus_dc _

lemma callStateChangeHook_dc (hook : Option (σ → Byte → Byte → σ × Byte × Byte)) (as an : Byte) :
    KeepsDc (callStateChangeHook hook as an) := by
  cases hook with
  | none => exact .pure _
  | some call => exact .transact fun _ _ => rfl

lemma escStateFinish_dc (as an : Byte) : KeepsDc (σ := σ) (escStateFinish as an) := by
  have device : KeepsDc (σ := σ) deviceId := by
    refine .ask_bind fun sys => ?_
    cases sys.cfg.getDeviceId with
    | none => exact (onBus_dc _).map _
    | some getDeviceId => exact .transact fun _ _ => rfl
  exact .ask_bind fun _ => (callStateChangeHook_dc _ _ _).bind fun _ => .get_bind fun _ =>
    (Keeps.when (escALerror_dc _)).bind fun _ => .get_bind fun _ => (onBus_dc _).bind fun _ =>
      Keeps.bind (.ite (device.bind fun _ => .ite ((escALerror_dc _).bind fun _ => .pure _)
        (.pure _)) (.pure _)) fun _ => escALstatus_dc _

/-! ## The state machine in OP -/

/-- In OP the transition is one out of OP, or from OP to OP. -/
lemma requestState_op (hop : w.statusByte = escOp) :
    w.requestState &&& 0x0f = escOp := by
  have hlow : ∀ ac : Byte, ((ac <<< 4) ||| (escOp &&& 0x0f)) &&& 0x0f = escOp := by decide +kernel
  rw [World.requestState, hop]
  exact hlow _

/-- An AL status without an error is what it is, acknowledged or not. -/
lemma ackedStatus_op : ∀ ac : Byte, ackedStatus ac escOp = escOp := by decide +kernel

lemma hookAnswer_neutral {hook : Option (σ → Byte → Byte → σ × Byte × Byte)}
    (h : NeutralHook hook) (o : σ) (as an : Byte) : hookAnswer hook o as an = (as, an) := by
  cases hook with
  | none => rfl
  | some call => exact h call rfl o as an

lemma hookCalled_dc (sys : System σ) (w : World σ) : (w.hookCalled sys).dc = w.dc := by
  rw [World.hookCalled, World.dc, World.hooked_al]
  rfl

/-- Where no transition is made, the AL control word is read at most. -/
lemma escState_no_transition (h : ¬ w.transits sys) :
    wlp sys n escState (fun _ w' => w'.dc = w.dc) w := by
  rw [escState, wlp_get_bind]
  refine .when (fun hevent => ?_) fun _ => rfl
  rw [wlp_bind, wlp_escReadControl, wlp_get_bind]
  exact .when (fun hstay => .when (fun hheld => absurd ⟨⟨hevent, hstay⟩, hheld⟩ h) fun _ => rfl)
    fun _ => rfl

/-- In OP, `ESC_state` drops outputs or leaves them as they are. -/
lemma escState_droppedOr (hooks : HooksNeutral sys) (hop : w.statusByte = escOp) :
    wlp sys n escState (fun _ w' => DroppedOr w w' w.dc) w := by
  by_cases htransits : w.transits sys
  swap
  · exact (escState_no_transition htransits).mono fun _ _ h => .inr h
  have htransition : w.transition sys = ((w.readControl sys).requestState, escOp) := by
    rw [World.transition, hookAnswer_neutral hooks.pre]
    exact congrArg _ (by rw [show (w.readControl sys).statusByte = escOp from hop, ackedStatus_op])
  have hsafe : (w.hookCalled sys).al.safeStates = w.al.safeStates :=
    congrArg DcView.safeStates (hookCalled_dc sys w)
  rw [wlp, escState_transition htransits, htransition]
  by_cases hstays : (w.readControl sys).requestState = opToOp
  · -- OP to OP: nothing is stopped
    rw [hstays]
    exact (escStateFinish_dc _ _ sys n _).mono fun _ _ h => .inr (h.trans (hookCalled_dc sys w))
  · refine wlp.bind (escStateSwitch_stops
      (Q := fun _ w' => w.al.safeStates < w'.al.safeStates)
      ⟨requestState_op (w := w.readControl sys) hop, hstays⟩
      (fun h => h.2 rfl) _ fun f w₁ hf h₁ => escStopoutput_then hf (hsafe ▸ h₁)) fun an w₂ h₂ => ?_
    exact (escStateFinish_safe _ _ sys n w₂).mono fun _ _ h₃ => .inl (lt_of_lt_of_le h₂ h₃)

/-- In OP, `ESC_sm_act_event` drops outputs or leaves them as they are. -/
lemma escSmActEvent_droppedOr (hop : w.statusByte = escOp) (hout : w.al.appState ≠ 0) :
    wlp sys n escSmActEvent (fun _ w' => DroppedOr w w' w.dc) w := by
  rw [escSmActEvent, wlp_get_bind]
  refine .when (fun _ => ?_) fun _ => .inr rfl
  rw [wlp_ite]
  refine ⟨fun _ => ?_, fun _ => (onBus_dc _ sys n w).mono fun _ _ h => .inr h⟩
  have al : ∀ {α : Type} (m : OnBus σ α) w, wlp sys n (onBus m) (fun _ w' => w'.al = w.al) w :=
    fun m w => by rw [wlp_within]; exact fun _ _ _ => rfl
  refine (al _ w).bind fun ax w₁ h₁ => ?_
  rw [wlp_ask_bind]
  refine (al _ w₁).bind fun ax23 w₂ h₂ => ?_
  have hal : w₂.al = w.al := h₂.trans h₁
  have hle : w.al.safeStates ≤ w₂.al.safeStates := by rw [hal]
  have hnone : ¬ errorStays (w.al.alControl.setWidth 8 &&& escregAlStatemask)
      (w.al.alStatus.setWidth 8 &&& escregAlStatemask) := by
    change ¬ errorStays _ w.statusByte
    rw [hop, errorStays, ackedStatus_op]
    exact fun h => h.1 (by decide)
  rw [escSmStepDown, if_neg hnone, wlp_ite]
  refine ⟨fun _ => ?_, fun _ => ?_⟩
  · rw [wlp_get_bind, when, if_pos (by rw [hal]; exact hout), bind_assoc]
    refine (escStopoutput_then (fun _ => escStopinput_safe.bind fun _ => ?_) hle).mono
      fun _ _ h => .inl h
    exact escStopmbx_safe.bind fun _ => (escALerror_safe _).bind fun _ => (modifyMb_safe _).bind
      fun _ => escALstatus_safe _
  · rw [wlp_get_bind]
    refine .when (fun _ => ?_) fun _ => .inr (congrArg AlState.dc hal)
    refine (escStopoutput_then (fun _ => escStopinput_safe.bind fun _ => ?_) hle).mono
      fun _ _ h => .inl h
    exact .get_bind fun _ => (escALerror_safe _).bind fun _ => escALstatus_safe _

/-! ## One call -/

/-- A slave that applies outputs is in OP, without an error, and holds no request. -/
lemma Shows.up (h : Shows w.core a) (hquiet : a.Quiet)
    (hout : w.al.appState &&& appstateOutput ≠ 0) :
    w.statusByte = escOp ∧ w.al.opPending = false := by
  obtain ⟨hst, herr, hpend⟩ := hquiet.outputs (h.outputs_iff.mp hout)
  have hstatus : w.statusByte = a.st.statusCode a.err := h.status
  refine ⟨?_, h.pending.trans hpend⟩
  rw [hstatus, hst, herr]
  rfl

/-- With no request held, `ESC_op_pending_step` does nothing. -/
lemma escOpPendingStep_idle (hpend : w.al.opPending = false) (sync0 smEvent : Bool)
    (elapsedNs : ℕ) {Q : Unit → World σ → Prop} (hQ : Q () w) :
    wlp sys n (escOpPendingStep sync0 smEvent elapsedNs) Q w := by
  rw [escOpPendingStep, wlp_get_bind]
  exact .when (fun h => absurd h (by rw [hpend]; decide)) fun _ => hQ

/-- `DIG_process` without the watchdogs leaves the AL part alone. -/
lemma digProcess_al {flags : Byte} (hflags : flags &&& digProcessWdFlag = 0) :
    KeepsAl (σ := σ) (digProcess flags) := by
  have skip : KeepsAl (σ := σ) (when (flags &&& digProcessWdFlag ≠ 0) digProcessWd) := by
    rw [when, if_neg (not_not.mpr hflags)]
    exact .pure _
  exact skip.bind fun _ => (Keeps.when digProcessRxpdo_al).bind fun _ => .ask_bind fun _ =>
    (Keeps.when (callHook_al _)).bind fun _ => .when digProcessTxpdo_al

lemma hwWait_al (timeoutNs : ℕ) : KeepsAl (σ := σ) (hwWait timeoutNs) := by
  refine .ask_bind fun sys => ?_
  cases sys.cfg.escHwWait with
  | none => exact .pure _
  | some call => exact .transact fun _ _ => ⟨rfl, rfl⟩

lemma refreshALevent_al : KeepsAl (σ := σ) (onBus refreshALevent) :=
  onBus_keepsAl (Keeps.bind ((escRead_keepsSm2 _ _).bind fun _ => .pure _) fun _ =>
    .modify fun _ => rfl)

/-- The wake-up, with outputs up: it drops them after a wait that timed out under DC, and
otherwise changes nothing the watch goes by. -/
lemma runDcWake_up (hpend : w.al.opPending = false)
    (hout : w.al.appState &&& appstateOutput ≠ 0) (timeoutNs : ℕ) :
    wlp sys n (runDcWake timeoutNs) (fun r w' =>
      w.al.safeStates < w'.al.safeStates ∧ r.2 = none ∨
      SameAl w w' ∧ (r.2 = none → r.1 < 0)) w := by
  refine (hwWait_al timeoutNs sys n w).bind fun rc w₁ h₁ => ?_
  have timeout : wlp sys n (runDcTimeout rc) (fun timedOut w' =>
      timedOut = true ∧ w.al.safeStates < w'.al.safeStates ∨ timedOut = false ∧ w' = w₁) w₁ := by
    rw [runDcTimeout, wlp_get_bind, wlp_ite]
    refine ⟨fun _ => ?_, fun _ => (wlp_pure _ _).mpr (.inr ⟨rfl, rfl⟩)⟩
    refine wlp.bind ((wlp_modifyAl _ _).mpr ?_) fun _ _ h => h
    refine (escALstatusgotoerror_drops (by decide) ?_ _).bind fun _ w₂ h₂ =>
      (wlp_pure _ _).mpr (.inl ⟨rfl, ?_⟩)
    · change w₁.al.appState &&& appstateOutput ≠ 0
      rw [h₁.al]
      exact hout
    · rwa [show w.al.safeStates = w₁.al.safeStates by rw [h₁.al]]
  refine timeout.bind fun timedOut w₂ h₂ => ?_
  rw [wlp_ite]
  refine ⟨fun hnone => (wlp_pure _ _).mpr ?_, fun hgo => ?_⟩
  · rcases h₂ with ⟨-, h₂⟩ | ⟨htimedOut, rfl⟩
    · exact .inl ⟨h₂, rfl⟩
    · exact .inr ⟨h₁, fun _ => hnone.resolve_left (by rw [htimedOut]; decide)⟩
  · obtain ⟨hnot, -⟩ := not_or.mp hgo
    rcases h₂ with ⟨htimedOut, -⟩ | ⟨-, rfl⟩
    · exact absurd htimedOut hnot
    refine wlp.bind (P := fun _ w' => SameAl w w') (.when (fun _ => ?_) fun _ => h₁)
      fun _ w₃ h₃ => ?_
    · exact escOpPendingStep_idle (by rw [h₁.al]; exact hpend) _ _ _ h₁
    refine (refreshALevent_al sys n w₃).bind fun _ w₄ h₄ => ?_
    rw [wlp_get_bind, wlp_pure]
    exact .inr ⟨IsTrans.trans _ _ _ h₃ h₄, fun hnone => by cases hnone⟩

/-- Outputs are up in an AL state that allows it, and the watch goes by `d`. -/
structure StillUp (w : World σ) (d : DcView) : Prop where
  dc : w.dc = d
  output : d.app &&& appstateOutput ≠ 0
  shows : ∃ a, Shows w.core a ∧ a.Quiet

namespace StillUp

variable {d : DcView}

lemma of_al (h : StillUp w d) (hal : SameAl w w') : StillUp w' d where
  dc := (congrArg AlState.dc hal.al).trans h.dc
  output := h.output
  shows := by rw [hal.core]; exact h.shows

lemma app (h : StillUp w d) : w.al.appState &&& appstateOutput ≠ 0 := by
  rw [show w.al.appState = d.app from congrArg DcView.app h.dc]
  exact h.output

lemma up (h : StillUp w d) : w.statusByte = escOp ∧ w.al.opPending = false := by
  obtain ⟨a, hshows, hquiet⟩ := h.shows
  exact hshows.up hquiet h.app

end StillUp

/-- Outputs were dropped, or they are still up. -/
abbrev DroppedOrUp (w w' : World σ) (d : DcView) : Prop :=
  w.al.safeStates < w'.al.safeStates ∨ StillUp w' d

/-- One SYNC0 period, with outputs up: they are dropped, or the period is counted within the
limit. -/
lemma ecatSlvSync0Account_up {d : DcView} (h : StillUp w d) :
    wlp sys n (ecatSlvSync0Account w.al.smEventSeen) (fun _ w' =>
      w.al.safeStates < w'.al.safeStates ∨
      StillUp w' { d.count with seen := d.seen } ∧ ¬ d.trips) w := by
  have hout := h.app
  obtain rfl := h.dc
  rw [ecatSlvSync0Account, wlp_get_bind, wlp_bind, wlp_modifyAl, wlp_get_bind]
  refine .when (fun htrip => ?_) fun hok => .inr ⟨⟨rfl, h.output, h.shows⟩, hok⟩
  rw [wlp_bind, wlp_modifyAl]
  refine (escALstatusgotoerror_drops (by decide) ?_ _).mono fun _ _ h => Or.inl h
  exact hout

/-- The cycle counts one SYNC0 period: on the event, and under DC on every successful wait. -/
def CountsSync0 (d : DcView) (rc : ℤ) (events : Dword) : Prop :=
  events &&& escregAleventDcSync0 ≠ 0 ∨ d.dcsync ≠ 0 ∧ rc = 1

instance (d : DcView) (rc : ℤ) (events : Dword) : Decidable (CountsSync0 d rc events) := by
  unfold CountsSync0; infer_instance

/-- What a cycle can come to, with outputs up and the watch going by `d`. -/
inductive CycleResult (w : World σ) (d : DcView) (counts : Prop) (w' : World σ) : Prop where
  /-- Outputs were dropped. -/
  | dropped (h : w.al.safeStates < w'.al.safeStates)
  /-- A SYNC0 period was counted, within the limit. -/
  | counted (hcounts : counts) (h : StillUp w' d.count) (hlimit : ¬ d.trips)
  /-- No SYNC0 period was counted. -/
  | same (hcounts : ¬ counts) (h : StillUp w' d)

lemma runDcSync0_up {d : DcView} (h : StillUp w d) (events : Dword) (rc : ℤ) (timeoutNs : ℕ) :
    wlp sys n (runDcSync0 events rc timeoutNs)
      (fun _ w' => CycleResult w d (CountsSync0 d rc events) w') w := by
  obtain rfl := h.dc
  rw [runDcSync0, wlp_get_bind]
  refine .when (fun hcounts => ?_) fun hnot => .same hnot h
  rw [wlp_get_bind]
  refine (ecatSlvSync0Account_up h).bind fun _ w₁ h₁ => ?_
  rw [wlp_get_bind]
  have process : KeepsAl (σ := σ) (digProcess (digProcessAppHookFlag ||| digProcessTxpdoFlag)) :=
    digProcess_al (by decide)
  have latch : KeepsAl (σ := σ) (do
      let _ ← onBus (escRead escregSync0Status 1)) := (escRead_al _ _).bind fun _ => .pure _
  rcases h₁ with h₁ | ⟨hup, htrips⟩
  · have rest : KeepsSafe (σ := σ) (do
        escOpPendingStep true w₁.al.smEventSeen (timeoutNs / 2)
        modifyAl fun al => { al with smEventSeen := false }
        digProcess (digProcessAppHookFlag ||| digProcessTxpdoFlag)
        let _ ← onBus (escRead escregSync0Status 1)) :=
      (escOpPendingStep_safe _ _ _).bind fun _ => .bind (modifyAl_safe fun _ => le_refl _)
        fun _ => process.safe.bind fun _ => latch.safe
    exact (rest sys n w₁).mono fun _ _ h₂ => .dropped (lt_of_lt_of_le h₁ h₂)
  · refine wlp.bind (P := fun _ w' => w' = w₁) (escOpPendingStep_idle hup.up.2 _ _ _ rfl) ?_
    rintro _ w₂ rfl
    rw [wlp_bind, wlp_modifyAl]
    have hseen : StillUp ({ w₂ with al := { w₂.al with smEventSeen := false } } : World σ)
        w.dc.count :=
      ⟨congrArg (fun e : DcView => { e with seen := false }) hup.dc, hup.output, hup.shows⟩
    exact ((process.bind fun _ => latch) sys n _).mono fun _ _ h₃ =>
      .counted hcounts (hseen.of_al h₃) htrips

lemma runDcMailbox_al (events : Dword) : KeepsAl (σ := σ) (do
    let work ← escMbxprocess
    when work mailboxProtocols
    when (events &&& escregAleventEep ≠ 0) callEepHandler) := by
  have eep : KeepsAl (σ := σ) callEepHandler := by
    refine .ask_bind fun sys => ?_
    cases sys.cfg.escHwEepHandler with
    | none => exact .pure _
    | some call => exact .modify fun _ => ⟨rfl, rfl⟩
  exact escMbxprocess_al.bind fun _ => (Keeps.when ((onCoe_keepsAl _).bind fun _ =>
    onMailbox_keepsAl _)).bind fun _ => .when eep

/-- Outputs that are not dropped by `ESC_state` are still up. -/
lemma escState_up (hooks : HooksNeutral sys) {d : DcView} (h : StillUp w d) :
    wlp sys n escState (fun _ w' => DroppedOrUp w w' d) w := by
  obtain ⟨a, hshows, hquiet⟩ := h.shows
  refine ((escState_droppedOr hooks h.up.1).and (escState_refines hooks hshows)).mono
    fun _ w' ⟨hdrop, e, hshows', he⟩ => hdrop.imp_right fun hdc => ⟨hdc.trans h.dc, h.output, ?_⟩
  exact ⟨_, hshows', hquiet.stepped (AlView.step_stepped a e)⟩

/-- Outputs that are not dropped by `ESC_sm_act_event` are still up. -/
lemma escSmActEvent_up {d : DcView} (h : StillUp w d) :
    wlp sys n escSmActEvent (fun _ w' => DroppedOrUp w w' d) w := by
  obtain ⟨a, hshows, hquiet⟩ := h.shows
  have hout : w.al.appState ≠ 0 := fun hzero => h.app (by rw [hzero]; rfl)
  refine ((escSmActEvent_droppedOr h.up.1 hout).and (escSmActEvent_refines hshows)).mono
    fun _ w' ⟨hdrop, e, hshows', he⟩ => hdrop.imp_right fun hdc => ⟨hdc.trans h.dc, h.output, ?_⟩
  exact ⟨_, hshows', hquiet.stepped (AlView.step_stepped a e)⟩

/-- The state machine step of a cycle, with outputs up, drops them or leaves them as they
are. -/
lemma runDcState_up (hooks : HooksNeutral sys) {d : DcView} (h : StillUp w d) (events : Dword) :
    wlp sys n (runDcState events) (fun _ w' => DroppedOrUp w w' d) w := by
  have state : wlp sys n (when (events &&& stateEvents ≠ 0) (do escState; escSmActEvent))
      (fun _ w' => DroppedOrUp w w' d) w := by
    refine .when (fun _ => ?_) fun _ => .inr h
    refine (escState_up hooks h).bind fun _ w₁ h₁ => ?_
    rcases h₁ with h₁ | h₁
    · exact (escSmActEvent_safe sys n w₁).mono fun _ _ h₂ => .inl (lt_of_lt_of_le h₁ h₂)
    · refine (escSmActEvent_up h₁).mono fun _ _ h₂ => h₂.imp_left fun h₂ => ?_
      rwa [show w.al.safeStates = w₁.al.safeStates from
        congrArg DcView.safeStates (h.dc.trans h₁.dc.symm)]
  rw [runDcState, wlp_get_bind]
  refine .when (fun _ => state.bind fun _ w₁ h₁ => ?_) fun _ => .inr h
  refine (runDcMailbox_al events sys n w₁).mono fun _ w₂ h₂ => h₁.imp (fun h₁ => ?_) fun h₁ => ?_
  · rwa [h₂.al]
  · exact h₁.of_al h₂

/-- A cycle without process data, with outputs up: they are dropped, or a SYNC0 period is counted
where there is one. -/
lemma runDcCycle_up (hooks : HooksNeutral sys) {d : DcView} (h : StillUp w d) {events : Dword}
    (hquiet : events &&& (escregAleventSm2 ||| escregAleventSm3) = 0) (rc : ℤ) (timeoutNs : ℕ) :
    wlp sys n (runDcCycle rc events timeoutNs)
      (fun _ w' => CycleResult w d (CountsSync0 d rc events) w') w := by
  rw [runDcCycle, runDcProcessData, when, if_neg (not_not.mpr hquiet), wlp_bind, wlp_pure]
  refine (runDcSync0_up h events rc timeoutNs).bind fun _ w₁ h₁ => ?_
  have still : ∀ {e : DcView}, StillUp w₁ e → e.safeStates = d.safeStates →
      wlp sys n (runDcState events) (fun _ w' => DroppedOrUp w w' e) w₁ := fun hup hsafe =>
    (runDcState_up hooks hup events).mono fun _ _ h₂ => h₂.imp_left fun h₂ => by
      rwa [show w.al.safeStates = w₁.al.safeStates from (congrArg DcView.safeStates h.dc).trans
        (hsafe.symm.trans (congrArg DcView.safeStates hup.dc).symm)]
  rcases h₁ with h₁ | ⟨hcounts, hup, hlimit⟩ | ⟨hcounts, hup⟩
  · have safe : KeepsSafe (σ := σ) (runDcState events) :=
      .get_bind fun _ => .when ((Keeps.when (escState_safe.bind fun _ => escSmActEvent_safe)).bind
        fun _ => (runDcMailbox_al events).safe)
    exact (safe sys n w₁).mono fun _ _ h₂ => .dropped (lt_of_lt_of_le h₁ h₂)
  · exact (still hup rfl).mono fun _ _ h₂ => h₂.elim .dropped fun h₂ => .counted hcounts h₂ hlimit
  · exact (still hup rfl).mono fun _ _ h₂ => h₂.elim .dropped fun h₂ => .same hcounts h₂

/-! ## Watched calls -/

/-- What a call of `ecat_slv_run_dc` is given: the result of the wait, and the events of the cycle,
if there is one. -/
def World.wake (sys : System σ) (n timeoutNs : ℕ) (w : World σ) : Option (ℤ × Option Dword) :=
  match runDcWake timeoutNs sys n w with
  | .ok r _ => some r
  | _ => none

/-- The call sees no SM2 or SM3 event. -/
def QuietCall (sys : System σ) (n timeoutNs : ℕ) (w : World σ) : Prop :=
  ∀ rc events, w.wake sys n timeoutNs = some (rc, some events) →
    events &&& (escregAleventSm2 ||| escregAleventSm3) = 0

/-- The count of missed SYNC0 periods, an `int16_t`, can exceed the limit. -/
def DcView.LimitOk (d : DcView) : Prop := d.limit ≠ 0 ∧ d.limit.toNat ≤ 32769

/-- The call is watched: its wait times out under DC, or it counts a SYNC0 period against a limit
that the count can exceed. -/
def Watched (sys : System σ) (n timeoutNs : ℕ) (w : World σ) : Prop :=
  match w.wake sys n timeoutNs with
  | some (rc, none) => rc = 0
  | some (rc, some events) => CountsSync0 w.dc rc events ∧ w.dc.LimitOk
  | none => False

instance (sys : System σ) (n timeoutNs : ℕ) (w : World σ) :
    Decidable (Watched sys n timeoutNs w) := by
  unfold Watched DcView.LimitOk; split <;> infer_instance

/-- What a call can come to, with outputs up and the watch going by `d`. -/
inductive CallResult (sys : System σ) (n timeoutNs : ℕ) (w : World σ) (d : DcView)
    (w' : World σ) : Prop where
  /-- Outputs were dropped. -/
  | dropped (h : w.al.safeStates < w'.al.safeStates)
  /-- A SYNC0 period was counted, within the limit. -/
  | counted (h : StillUp w' d.count) (hlimit : ¬ d.trips)
      (hwatched : Watched sys n timeoutNs w ↔ d.LimitOk)
  /-- Nothing was counted. -/
  | same (h : StillUp w' d) (hwatched : ¬ Watched sys n timeoutNs w)

/-- A call without process data, with outputs up: a watched one drops them or counts. -/
lemma ecatSlvRunDc_up (hooks : HooksNeutral sys) {d : DcView} (h : StillUp w d) {timeoutNs : ℕ}
    (hquiet : QuietCall sys n timeoutNs w) (hrun : ecatSlvRunDc timeoutNs sys n w = .ok () w') :
    CallResult sys n timeoutNs w d w' := by
  obtain ⟨⟨rc, events⟩, w₁, hwake, hrest⟩ := bind_eq_ok.mp hrun
  have hseen : w.wake sys n timeoutNs = some (rc, events) := by rw [World.wake, hwake]
  have h₁ := runDcWake_up h.up.2 h.app timeoutNs _ _ hwake
  cases events with
  | none =>
      cases hrest
      rcases h₁ with ⟨h₁, -⟩ | ⟨hsame, hneg⟩
      · exact .dropped h₁
      · refine .same (h.of_al hsame) fun hwatched => ?_
        rw [Watched, hseen] at hwatched
        exact absurd (hneg rfl) (by rw [hwatched]; decide)
  | some events =>
      rcases h₁ with ⟨-, h₁⟩ | ⟨hsame, -⟩
      · cases h₁
      have hwatched : Watched sys n timeoutNs w ↔ CountsSync0 d rc events ∧ d.LimitOk := by
        rw [Watched, hseen, h.dc]
      have hsafe : w.al.safeStates = w₁.al.safeStates := by rw [hsame.al]
      rcases runDcCycle_up hooks (h.of_al hsame) (hquiet _ _ hseen) rc timeoutNs _ _ hrest with
        h₂ | ⟨hcounts, hup, hlimit⟩ | ⟨hcounts, hup⟩
      · exact .dropped (hsafe ▸ h₂)
      · exact .counted hup hlimit (hwatched.trans (and_iff_right hcounts))
      · exact .same hup fun hw => hcounts (hwatched.mp hw).1

/-! ## The bound -/

/-- How many SYNC0 periods without process data a count stands at most, in three laps: the count
goes up by three, and wraps from 32765 and from 32766, but not from 32767. -/
def ticksLeft (counter : ℤ) : ℕ :=
  ((32767 - counter) / 3).toNat +
    if counter % 3 = 1 then 0 else if counter % 3 = 2 then 21846 else 43692

/-- A count that an `int16_t` can hold. -/
def Int16 (counter : ℤ) : Prop := -32768 ≤ counter ∧ counter ≤ 32767

lemma bmod_int16 (counter : ℤ) : Int16 (counter.bmod (2 ^ 16)) := by
  have hlow := Int.le_bmod (x := counter) (m := 2 ^ 16) (by decide)
  have hhigh := Int.bmod_lt (x := counter) (m := 2 ^ 16) (by decide)
  constructor <;> omega

lemma ticksLeft_le {counter : ℤ} (h : Int16 counter) : ticksLeft counter ≤ 65536 := by
  obtain ⟨hlow, hhigh⟩ := h
  unfold ticksLeft
  split
  · omega
  · split <;> omega

/-- A SYNC0 period without process data, within a limit the count can exceed, leaves fewer. -/
lemma ticksLeft_count {d : DcView} (hseen : d.seen = false) (hrange : Int16 d.counter)
    (hlimit : d.LimitOk) (htrips : ¬ d.trips) :
    ticksLeft d.count.counter < ticksLeft d.counter := by
  obtain ⟨hlow, hhigh⟩ := hrange
  have hle : d.counter + 3 ≤ 32769 := by
    have h := not_and.mp htrips hlimit.1
    rw [countSync, hseen] at h
    have := hlimit.2
    simp only [Bool.false_eq_true, if_false] at h
    omega
  have hcount : d.count.counter = (d.counter + 3).bmod (2 ^ 16) := by
    rw [DcView.count, countSync, hseen]
    rfl
  rw [hcount]
  rcases lt_or_ge (d.counter + 3) 32768 with hsmall | hbig
  · rw [Int.bmod_eq_of_le (by omega) (by omega)]
    have hfewer : ((32767 - (d.counter + 3)) / 3).toNat < ((32767 - d.counter) / 3).toNat := by
      omega
    rw [ticksLeft, ticksLeft, show (d.counter + 3) % 3 = d.counter % 3 by omega]
    omega
  · -- the count wraps
    have hwraps : d.counter = 32765 ∨ d.counter = 32766 := by omega
    rcases hwraps with hc | hc <;> rw [hc] <;> decide

/-! ## Runs -/

/-- A run of consecutive calls of `ecat_slv_run_dc` that see no SM2 or SM3 event, with moves of the
surroundings between them.  The number counts calls that meet `counts`, at least so many. -/
inductive QuietRun (sys : System σ) (counts : ℕ → ℕ → World σ → Prop) :
    ℕ → World σ → World σ → Prop where
  /-- No call yet. -/
  | start (w : World σ) : QuietRun sys counts 0 w w
  /-- A move of the surroundings. -/
  | move {k n : ℕ} {w w₁ w₂ : World σ} {outside : σ} {alEvent : Dword} {bytes : ByteStore}
      (h : QuietRun sys counts k w w₁)
      (hmove : Stack.Step sys w₁ (n, .move outside alEvent bytes) w₂) : QuietRun sys counts k w w₂
  /-- A call that is not counted. -/
  | call {k n timeoutNs : ℕ} {w w₁ w₂ : World σ} (h : QuietRun sys counts k w w₁)
      (hquiet : QuietCall sys n timeoutNs w₁)
      (hrun : ecatSlvRunDc timeoutNs sys n w₁ = .ok () w₂) : QuietRun sys counts k w w₂
  /-- A call that is counted. -/
  | counted {k n timeoutNs : ℕ} {w w₁ w₂ : World σ} (h : QuietRun sys counts k w w₁)
      (hquiet : QuietCall sys n timeoutNs w₁) (hcounts : counts n timeoutNs w₁)
      (hrun : ecatSlvRunDc timeoutNs sys n w₁ = .ok () w₂) : QuietRun sys counts (k + 1) w w₂

/-- Outputs are still set: they were never dropped in between. -/
def StillSet (w w' : World σ) : Prop :=
  w.al.appState &&& appstateOutput ≠ 0 ∧ w'.al.appState &&& appstateOutput ≠ 0 ∧
    w'.al.safeStates = w.al.safeStates

instance (w w' : World σ) : Decidable (StillSet w w') := by
  unfold StillSet; infer_instance

/-- What holds after `k` watched calls, as long as outputs are up: each has used up one of the ticks
that were left after the first. -/
structure UpAfter (k : ℕ) (w : World σ) (d : DcView) : Prop where
  up : StillUp w d
  ticks : k = 0 ∨
    d.LimitOk ∧ d.seen = false ∧ Int16 d.counter ∧ ticksLeft d.counter + k ≤ 65537

/-- A SYNC0 period is counted: the ticks are used up. -/
lemma UpAfter.count {k : ℕ} {d : DcView} (h : UpAfter k w d) (hlimit : d.LimitOk)
    (htrips : ¬ d.trips) (hup : StillUp w' d.count) : UpAfter (k + 1) w' d.count := by
  refine ⟨hup, .inr ⟨hlimit, rfl, bmod_int16 _, ?_⟩⟩
  rcases h.ticks with rfl | ⟨-, hseen, hrange, hticks⟩
  · have hle : ticksLeft d.count.counter ≤ 65536 := ticksLeft_le (bmod_int16 _)
    omega
  · have hless := ticksLeft_count hseen hrange hlimit htrips
    omega

/-- Fewer calls may be counted. -/
lemma UpAfter.mono {k : ℕ} {d : DcView} (h : UpAfter (k + 1) w d) : UpAfter k w d := by
  refine ⟨h.up, ?_⟩
  rcases h.ticks with hzero | ⟨hlimit, hseen, hrange, hticks⟩
  · cases hzero
  · exact .inr ⟨hlimit, hseen, hrange, by omega⟩

/-- A count against a limit it cannot exceed, which no call is watched by. -/
lemma UpAfter.count_unlimited {k : ℕ} {d : DcView} (h : UpAfter k w d) (hlimit : ¬ d.LimitOk)
    (hup : StillUp w' d.count) : UpAfter k w' d.count :=
  ⟨hup, .inl (h.ticks.resolve_right fun ht => hlimit ht.1)⟩

/-- One more call of a run: outputs are dropped, or the ticks are used up. -/
lemma UpAfter.call (hooks : HooksNeutral sys) {k timeoutNs : ℕ} {d : DcView} (h : UpAfter k w d)
    (hquiet : QuietCall sys n timeoutNs w) (hrun : ecatSlvRunDc timeoutNs sys n w = .ok () w') :
    w.al.safeStates < w'.al.safeStates ∨
      ∃ d', UpAfter k w' d' ∧ (Watched sys n timeoutNs w → UpAfter (k + 1) w' d') := by
  rcases ecatSlvRunDc_up hooks h.up hquiet hrun with h' | ⟨hup, htrips, hwatched⟩ | ⟨hup, hnot⟩
  · exact .inl h'
  · right
    by_cases hlimit : d.LimitOk
    · have hcount := h.count hlimit htrips hup
      exact ⟨_, hcount.mono, fun _ => hcount⟩
    · exact ⟨_, h.count_unlimited hlimit hup, fun hw => absurd (hwatched.mp hw) hlimit⟩
  · exact .inr ⟨d, ⟨hup, h.ticks⟩, fun hw => absurd hw hnot⟩

lemma digProcess_safe (flags : Byte) : KeepsSafe (σ := σ) (digProcess flags) :=
  (digProcess_keepsMb flags).safe

lemma runDcWake_safe (timeoutNs : ℕ) : KeepsSafe (σ := σ) (runDcWake timeoutNs) :=
  (hwWait_al _).safe.bind fun rc => (runDcTimeout_keepsMb rc).safe.bind fun _ => .ite (.pure _)
    ((Keeps.when (escOpPendingStep_safe _ _ _)).bind fun _ => refreshALevent_al.safe.bind
      fun _ => .get_bind fun _ => .pure _)

lemma runDcState_safe (events : Dword) : KeepsSafe (σ := σ) (runDcState events) :=
  .get_bind fun _ => .when ((Keeps.when (escState_safe.bind fun _ => escSmActEvent_safe)).bind
    fun _ => (runDcMailbox_al events).safe)

lemma runDcCycle_safe (rc : ℤ) (events : Dword) (timeoutNs : ℕ) :
    KeepsSafe (σ := σ) (runDcCycle rc events timeoutNs) := by
  refine Keeps.bind ?processData fun _ => .bind ?sync0 fun _ => runDcState_safe events
  case processData =>
    exact .when (.get_bind fun _ => .ite (digProcess_safe _)
      (.bind (modifyAl_safe fun _ => le_refl _) fun _ => digProcess_safe _))
  case sync0 =>
    exact .get_bind fun _ => .when (.get_bind fun _ => (ecatSlvSync0Account_keepsMb _).safe.bind
      fun _ => .get_bind fun _ => (escOpPendingStep_safe _ _ _).bind fun _ =>
        .bind (modifyAl_safe fun _ => le_refl _) fun _ => (digProcess_safe _).bind fun _ =>
          (onBus_safe _).bind fun _ => .pure _)

lemma ecatSlvRunDc_safe (timeoutNs : ℕ) : KeepsSafe (σ := σ) (ecatSlvRunDc timeoutNs) := by
  refine (runDcWake_safe timeoutNs).bind ?_
  rintro ⟨rc, _ | events⟩
  · exact .pure _
  · exact runDcCycle_safe rc events timeoutNs

lemma QuietRun.safe {counts : ℕ → ℕ → World σ → Prop} {k : ℕ} (hrun : QuietRun sys counts k w w') :
    SafeLe w w' := by
  induction hrun with
  | start => exact le_refl _
  | move _ hmove ih =>
      cases hmove
      exact ih
  | call _ _ hcall ih => exact le_trans ih (ecatSlvRunDc_safe _ _ _ _ _ _ hcall)
  | counted _ _ _ hcall ih => exact le_trans ih (ecatSlvRunDc_safe _ _ _ _ _ _ hcall)

/-- A run of calls without process data, from a state with outputs up: they were dropped, or the
watched calls have used up their ticks. -/
lemma QuietRun.upAfter (hooks : HooksNeutral sys) {k : ℕ} (hrun : QuietRun sys (Watched sys) k w w')
    {d : DcView} (h : StillUp w d) :
    w.al.safeStates < w'.al.safeStates ∨ ∃ d', UpAfter k w' d' := by
  induction hrun with
  | start => exact .inr ⟨d, h, .inl rfl⟩
  | move _ hmove ih =>
      cases hmove
      exact (ih h).imp_right fun ⟨d', h'⟩ => ⟨d', h'.up.of_al ⟨rfl, rfl⟩, h'.ticks⟩
  | call hrun hquiet hcall ih =>
      rcases ih h with hdrop | ⟨d', h'⟩
      · exact .inl (lt_of_lt_of_le hdrop (ecatSlvRunDc_safe _ _ _ _ _ _ hcall))
      · exact (h'.call hooks hquiet hcall).imp (lt_of_le_of_lt hrun.safe) fun ⟨d'', h'', _⟩ =>
          ⟨d'', h''⟩
  | counted hrun hquiet hwatched hcall ih =>
      rcases ih h with hdrop | ⟨d', h'⟩
      · exact .inl (lt_of_lt_of_le hdrop (ecatSlvRunDc_safe _ _ _ _ _ _ hcall))
      · exact (h'.call hooks hquiet hcall).imp (lt_of_le_of_lt hrun.safe) fun ⟨d'', _, h''⟩ =>
          ⟨d'', h'' hwatched⟩

/-- **Outputs under distributed clocks**: outputs that are still set after a run of calls without
process data have survived fewer than 65538 watched calls. -/
theorem outputs_bounded (hooks : HooksNeutral sys) (h : Reached sys (fun _ _ => True) w) {k : ℕ}
    (hrun : QuietRun sys (Watched sys) k w w') (hset : StillSet w w') : k < 65538 := by
  obtain ⟨a, hshows, hquiet, -⟩ := h.view hooks (fun _ => True) (fun _ _ => False) trivial
    (fun _ _ _ _ => trivial) fun _ _ _ _ _ => id
  obtain ⟨hout, -, hsafe⟩ := hset
  have hup : StillUp w w.dc := ⟨rfl, hout, a, hshows, hquiet⟩
  rcases hrun.upAfter hooks hup with hdrop | ⟨d, -, hticks⟩
  · exact absurd hdrop (by omega)
  · omega

/-! ## The example device under distributed clocks -/

/-- The example device with a port whose wait always reports SYNC0. -/
def dcSystem : System ByteStore :=
  { exampleSystem with cfg := { exampleCfg with escHwWait := some fun o event _ => (o, event, 1) } }

lemma dcHooks : HooksNeutral dcSystem where
  pre := by rintro call ⟨⟩
  post := by rintro call ⟨⟩

/-- The way to OP under distributed clocks, and a bus that goes quiet. -/
def quietInOp : List (ℕ × Call ByteStore) :=
  masterRequest 2 1 ++ masterRequest 4 1 ++ masterRequest 8 1 ++
    [(8, .opPendingStep true true 200000000), masterMove 8 0 1]

/-- A call finishes, and outputs are still set. -/
def stillSetAfter (sys : System σ) (n timeoutNs : ℕ) (w : World σ) : Bool :=
  match ecatSlvRunDc timeoutNs sys n w with
  | .ok () w' => decide (StillSet w w')
  | _ => false

lemma exists_of_stillSetAfter {timeoutNs : ℕ} (h : stillSetAfter sys n timeoutNs w = true) :
    ∃ w', ecatSlvRunDc timeoutNs sys n w = .ok () w' ∧ StillSet w w' := by
  rw [stillSetAfter] at h
  split at h
  case h_1 w' hrun => exact ⟨w', hrun, of_decide_eq_true h⟩
  case h_2 => cases h

/-- One period is missed, and outputs are still set. -/
theorem outputs_bounded_once : ∃ w w', Reached dcSystem (fun _ _ => True) w ∧
    QuietRun dcSystem (Watched dcSystem) 1 w w' ∧ StillSet w w' ∧ 1 < 65538 := by
  have hrun : ((startUp dcSystem 8 (exampleChip 1 0 0) 0 fun _ => 0).bind
      (runCalls dcSystem (fun _ _ => True) quietInOp)).map (fun w =>
        (w.wake dcSystem 8 1000, decide (Watched dcSystem 8 1000 w),
          stillSetAfter dcSystem 8 1000 w)) = some (some (1, some 0), true, true) := by
    decide +kernel
  obtain ⟨w, hw, hseen⟩ := exists_reached hrun
  simp only [Prod.mk.injEq, decide_eq_true_eq] at hseen
  obtain ⟨hwake, hwatched, hset⟩ := hseen
  obtain ⟨w', hcall, hset⟩ := exists_of_stillSetAfter hset
  have hquiet : QuietCall dcSystem 8 1000 w := fun rc events h => by
    rw [hwake] at h
    cases h
    decide
  have hq : QuietRun dcSystem (Watched dcSystem) 1 w w' :=
    (QuietRun.start w).counted hquiet hwatched hcall
  exact ⟨w, w', hw, hq, hset, outputs_bounded dcHooks hw hq hset⟩

/-- Register 0x0440 reads that the watchdog has expired. -/
def Expired (sys : System σ) (w : World σ) : Prop :=
  ((sys.hal.read w.outside w.alEvent escregWdstatus 2).data.word 0).setWidth 8 &&&
    escregWdstatusOk = 0

instance (sys : System σ) (w : World σ) : Decidable (Expired sys w) := by
  unfold Expired; infer_instance

/-- On a port without a wait every call comes to nothing. -/
lemma runDcWake_noWait (h : sys.cfg.escHwWait = none) (timeoutNs : ℕ) :
    runDcWake timeoutNs sys n w = .ok (-1, none) w := by
  have hwait : hwWait timeoutNs sys n w = .ok (-1) w := by
    simp only [hwWait, bind_apply, ask, h]
    rfl
  rw [runDcWake, bind_apply, hwait]
  rfl

lemma quietRun_noWait (h : sys.cfg.escHwWait = none) {counts : ℕ → ℕ → World σ → Prop}
    (hcounts : counts 0 0 w) (k : ℕ) : QuietRun sys counts k w w := by
  induction k with
  | zero => exact .start w
  | succ k ih =>
      refine ih.counted (fun rc events hwake => ?_) hcounts
        (show ecatSlvRunDc 0 sys 0 w = .ok () w from ?_)
      · rw [World.wake, runDcWake_noWait h] at hwake
        cases hwake
      · rw [ecatSlvRunDc, bind_apply, runDcWake_noWait h]
        rfl

/-- Without the condition there is no bound, even by the configuration: a wait that fails is not
watched. -/
theorem outputs_unbounded : ¬ ∃ K : ℤ → Bool → Word → ℕ, ∀ (sys : System ByteStore)
    (w w' : World ByteStore) (k : ℕ), HooksNeutral sys → Reached sys (fun _ _ => True) w →
    w.al.escSm2Sml ≠ 0 → QuietRun sys (fun _ _ w => Expired sys w) k w w' → StillSet w w' →
    k < K sys.cfg.watchdogCnt sys.cfg.useHwWatchdog w.al.synccounterlimit := by
  rintro ⟨K, hK⟩
  have hrun : (exampleRun (fun _ _ => True) quietInOp).map (fun w =>
      (w.al.appState &&& appstateOutput, w.al.escSm2Sml, decide (Expired exampleSystem w))) =
      some (2, 1, true) := by
    decide +kernel
  obtain ⟨w, hw, hseen⟩ := exists_reached hrun
  simp only [Prod.mk.injEq, decide_eq_true_eq] at hseen
  obtain ⟨hout, hsml, hexpired⟩ := hseen
  have hset : StillSet w w := by
    rw [StillSet, hout]
    exact ⟨by decide, by decide, rfl⟩
  have hmapped : w.al.escSm2Sml ≠ 0 := by
    rw [hsml]
    decide
  exact absurd (hK exampleSystem w w _ exampleHooks hw hmapped
    (quietRun_noWait rfl hexpired _) hset)
    (lt_irrefl _)

end Soes
