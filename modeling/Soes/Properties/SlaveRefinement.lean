import Soes.Properties.AlRefinement
import Soes.Stack.Calls

/-!
# Calls refine the AL state machine

The rest of the stack, function by function: the watchdogs, the sync error counter and the wait
that timed out can only be an error of the AL state machine, `ESC_op_pending_step` completes or
refuses a held request, and the mailbox and process data code does not concern it.  Together with
`Soes.Properties.AlRefinement` every call of a run is one event (`Stack.Step.refines`), and every
run of the stack is a run of the AL state machine (`Reached.shows`).
-/

namespace Soes

open Program

variable {σ : Type} {sys : System σ} {n : ℕ} {w : World σ} {a : AlView}

/-! ## What does not concern the AL state machine -/

/-- The AL state, process data and DC part of `ESCvar` is the same, and so is the last enable or
disable of SM2. -/
structure SameAl (w w' : World σ) : Prop where
  al : w'.al = w.al
  sm2 : w'.sm.pdi 2 = w.sm.pdi 2

instance : Std.Refl (SameAl (σ := σ)) := ⟨fun _ => ⟨rfl, rfl⟩⟩

instance : IsTrans (World σ) SameAl :=
  ⟨fun _ _ _ h h' => ⟨h'.al.trans h.al, h'.sm2.trans h.sm2⟩⟩

/-- The code leaves the AL state, process data and DC part of `ESCvar` alone. -/
abbrev KeepsAl {α : Type} (m : Stack σ α) : Prop := Keeps SameAl m

/-- The AL part is the same. -/
abbrev SameCore (w w' : World σ) : Prop := w'.core = w.core

instance : Std.Refl (SameCore (σ := σ)) := ⟨fun _ => rfl⟩

instance : IsTrans (World σ) SameCore := ⟨fun _ _ _ h h' => h'.trans h⟩

/-- The code does not concern the AL state machine. -/
abbrev KeepsCore {α : Type} (m : Stack σ α) : Prop := Keeps SameCore m

variable {α : Type}

lemma SameAl.core {w w' : World σ} (h : SameAl w w') : w'.core = w.core := by
  simp [World.core, h.al, h.sm2]

lemma KeepsAl.core {m : Stack σ α} (hm : KeepsAl m) : KeepsCore m := fun r n s =>
  (hm r n s).mono fun _ _ h => h.core

/-- The mailbox code leaves the private variables of `ecat_slv.c` alone as well. -/
structure SameSlave (w w' : World σ) : Prop extends SameAl w w' where
  wd : w'.wd = w.wd

instance : Std.Refl (SameSlave (σ := σ)) := ⟨fun _ => ⟨⟨rfl, rfl⟩, rfl⟩⟩

instance : IsTrans (World σ) SameSlave :=
  ⟨fun _ _ _ h h' => ⟨⟨h'.al.trans h.al, h'.sm2.trans h.sm2⟩, h'.wd.trans h.wd⟩⟩

/-- The code only concerns the mailboxes, the variables and the surroundings. -/
abbrev KeepsSlave {α : Type} (m : Stack σ α) : Prop := Keeps SameSlave m

lemma KeepsSlave.keepsAl {m : Stack σ α} (hm : KeepsSlave m) : KeepsAl m := fun sys n w =>
  (hm sys n w).mono fun _ _ h => h.toSameAl

lemma onBus_keepsSlave {m : OnBus σ α} (hm : KeepsSm2 m) : KeepsSlave (onBus m) := fun sys n w => by
  rw [wlp_within]
  exact (hm sys.hal n _).mono fun _ _ hb => ⟨⟨rfl, hb⟩, rfl⟩

lemma onCoe_keepsSlave (m : OnCoe σ α) : KeepsSlave (onCoe m) :=
  .within (fun _ _ => ⟨⟨rfl, rfl⟩, rfl⟩) _ m

lemma onMailbox_keepsSlave (m : OnMailbox α) : KeepsSlave (σ := σ) (onMailbox m) :=
  .within (fun _ _ => ⟨⟨rfl, rfl⟩, rfl⟩) _ m

lemma onBus_keepsAl {m : OnBus σ α} (hm : KeepsSm2 m) : KeepsAl (onBus m) :=
  (onBus_keepsSlave hm).keepsAl

lemma onCoe_keepsAl (m : OnCoe σ α) : KeepsAl (onCoe m) := (onCoe_keepsSlave m).keepsAl

lemma onMailbox_keepsAl (m : OnMailbox α) : KeepsAl (σ := σ) (onMailbox m) :=
  (onMailbox_keepsSlave m).keepsAl

lemma callApp_al (call : AppCall σ) : KeepsAl (callApp call) := .modify fun _ => ⟨rfl, rfl⟩

lemma callHook_al (hook : Option (AppCall σ)) : KeepsAl (callHook hook) := by
  cases hook with
  | none => exact .pure _
  | some call => exact callApp_al call

/-! ## Mailboxes and process data -/

lemma escRead_slave (address len : ℕ) : KeepsSlave (σ := σ) (onBus (escRead address len)) :=
  onBus_keepsSlave (escRead_keepsSm2 address len)

lemma escWrite_slave (address len : ℕ) (data : ByteStore) :
    KeepsSlave (σ := σ) (onBus (escWrite address len data)) :=
  onBus_keepsSlave (escWrite_keepsSm2 address len data)

lemma escReadmbx_slave : KeepsSlave (σ := σ) escReadmbx :=
  .get_bind fun _ => (escRead_slave _ _).bind fun _ =>
    .bind (.modify fun _ => ⟨⟨rfl, rfl⟩, rfl⟩) fun _ =>
    (escRead_slave _ _).bind fun _ => .bind (.modify fun _ => ⟨⟨rfl, rfl⟩, rfl⟩) fun _ =>
      (Keeps.when ((escRead_slave _ _).bind fun _ => .pure _)).bind fun _ =>
        .modify fun _ => ⟨⟨rfl, rfl⟩, rfl⟩

lemma escWritembx_slave (k : ℕ) : KeepsSlave (σ := σ) (escWritembx k) :=
  .get_bind fun _ => (escWrite_slave _ _ _).bind fun _ =>
    (Keeps.when (escWrite_slave _ _ _)).bind fun _ => .modify fun _ => ⟨⟨rfl, rfl⟩, rfl⟩

lemma escAckmbxread_slave : KeepsSlave (σ := σ) escAckmbxread :=
  .get_bind fun _ => (escWrite_slave _ _ _).bind fun _ => .modify fun _ => ⟨⟨rfl, rfl⟩, rfl⟩

lemma ackRepeat_slave : KeepsSlave (σ := σ) ackRepeat :=
  .get_bind fun _ => .bind (.modify fun _ => ⟨⟨rfl, rfl⟩, rfl⟩) fun _ =>
    (onBus_keepsSlave (updateSm_keepsSm2 _ _)).bind fun _ =>
      onBus_keepsSlave (escSMwritepdi_keepsSm2 _)

lemma mbxOutboxRead_slave : KeepsSlave (σ := σ) mbxOutboxRead :=
  escAckmbxread_slave.bind fun _ => .bind (.modify fun _ => ⟨⟨rfl, rfl⟩, rfl⟩) fun _ =>
    .get_bind fun _ => (Keeps.when (escWritembx_slave _)).bind fun _ =>
      .bind (.modify fun _ => ⟨⟨rfl, rfl⟩, rfl⟩) fun _ => .get_bind fun _ => .pure _

lemma mbxRepeat_slave : KeepsSlave (σ := σ) mbxRepeat := by
  refine .get_bind fun _ => (Keeps.when (.ite ?_ ?_)).bind fun _ => .pure _
  · exact (escWritembx_slave _).bind fun _ => ackRepeat_slave
  · exact (onBus_keepsSlave (escSMdisable_keepsSm2 (by decide))).bind fun _ =>
      .bind (.modify fun _ => ⟨⟨rfl, rfl⟩, rfl⟩) fun _ =>
        (onBus_keepsSlave (escSMenable_keepsSm2 (by decide))).bind fun _ =>
          (escWritembx_slave _).bind fun _ => ackRepeat_slave

lemma mbxPost_slave : KeepsSlave (σ := σ) mbxPost :=
  .get_bind fun _ => .when (.ask_bind fun _ => .when ((escWritembx_slave _).bind fun _ =>
    (onBus_keepsSlave (escSMstatus_keepsSm2 _)).bind fun _ => .modify fun _ => ⟨⟨rfl, rfl⟩, rfl⟩))

lemma mbxReceive_slave : KeepsSlave (σ := σ) mbxReceive :=
  .get_bind fun _ => .ite (escReadmbx_slave.bind fun _ =>
    (onBus_keepsSlave (updateSm_keepsSm2 _ _)).bind fun _ => .get_bind fun _ =>
      .bind (.when (.bind (onMailbox_keepsSlave _) fun _ =>
        .modify fun _ => ⟨⟨rfl, rfl⟩, rfl⟩)) fun _ =>
        .bind (.modify fun _ => ⟨⟨rfl, rfl⟩, rfl⟩) fun _ => .pure _) (.pure _)

lemma escMbxprocess_slave : KeepsSlave (σ := σ) escMbxprocess :=
  .get_bind fun _ => .ite (.pure _) (.get_bind fun _ =>
    (Keeps.when ((onBus_keepsSlave (escSMstatus_keepsSm2 _)).bind fun _ =>
      onBus_keepsSlave (escSMstatus_keepsSm2 _))).bind fun _ => .get_bind fun _ =>
        .ite mbxOutboxRead_slave (.ite mbxRepeat_slave (mbxPost_slave.bind fun _ =>
          mbxReceive_slave)))

lemma escRead_al (address len : ℕ) : KeepsAl (σ := σ) (onBus (escRead address len)) :=
  (escRead_slave address len).keepsAl

lemma escWrite_al (address len : ℕ) (data : ByteStore) :
    KeepsAl (σ := σ) (onBus (escWrite address len data)) :=
  (escWrite_slave address len data).keepsAl

lemma escMbxprocess_al : KeepsAl (σ := σ) escMbxprocess := escMbxprocess_slave.keepsAl

lemma modifyWd_al (f : Watchdog → Watchdog) : KeepsAl (σ := σ) (modifyWd f) :=
  .modify fun _ => ⟨rfl, rfl⟩

lemma readRxpdo_al : KeepsAl (σ := σ) readRxpdo :=
  .ask_bind fun _ => .get_bind fun _ => (escRead_al _ _).bind fun _ => .modify fun _ => ⟨rfl, rfl⟩

lemma rxpdoReadSm2_al : KeepsAl (σ := σ) rxpdoReadSm2 := by
  refine .ask_bind fun sys => ?_
  cases sys.cfg.rxpdoOverride with
  | some call => exact callApp_al call
  | none =>
      exact readRxpdo_al.bind fun _ => .when (.get_bind fun _ => (Keeps.lift _).bind fun _ =>
        .modify fun _ => ⟨rfl, rfl⟩)

lemma txpdoWriteSm3_al : KeepsAl (σ := σ) txpdoWriteSm3 := by
  refine .ask_bind fun sys => ?_
  cases sys.cfg.txpdoOverride with
  | some call => exact callApp_al call
  | none =>
      exact (Keeps.when (.get_bind fun _ => (Keeps.lift _).bind fun _ =>
        modifyWd_al _)).bind fun _ => .get_bind fun _ => escWrite_al _ _ _

lemma digProcessRxpdo_al : KeepsAl (σ := σ) digProcessRxpdo :=
  .ask_bind fun _ => .get_bind fun _ => .when (.ite (rxpdoReadSm2_al.bind fun _ =>
    (modifyWd_al _).bind fun _ => callApp_al _) readRxpdo_al)

lemma digProcessTxpdo_al : KeepsAl (σ := σ) digProcessTxpdo :=
  .get_bind fun _ => .when (.ask_bind fun _ => (callApp_al _).bind fun _ =>
    txpdoWriteSm3_al)

/-! ## Errors -/

/-- `ESC_ALstatusgotoerror` is an error of the AL state machine. -/
theorem escALstatusgotoerror_refines (hooks : HooksNeutral sys) (h : Shows w.core a)
    (errornumber : Word) :
    wlp sys n (escALstatusgotoerror (escSafeop ||| escError) errornumber)
      (fun _ w' => Shows w'.core a.error) w := by
  refine (escALstatusgotoerror_core hooks (by decide) errornumber).mono fun _ w' h' => ?_
  rw [h', AlView.error]
  by_cases hout : w.core.app &&& appstateOutput ≠ 0
  · rw [if_pos hout, if_pos (h.outputs_iff.mp hout)]
    exact ((h.stopOutputs.withPending false).goto .safeop true).shows rfl
  · rw [if_neg hout, if_neg (mt h.outputs_iff.mpr hout)]
    exact ((h.toFlags.withPending false).goto .safeop true).shows rfl

/-- What a check that guards outputs can come to: nothing, or an error while outputs are on. -/
def GuardEvent (w : World σ) (e : AlEvent) : Prop :=
  e = .idle ∨ e = .error ∧ w.al.appState &&& appstateOutput ≠ 0

/-- Counting one SYNC0 period is a sync error. -/
def World.sync0Trips (w : World σ) (smEventSeen : Bool) : Prop :=
  w.al.synccounterlimit ≠ 0 ∧
    (w.al.synccounterlimit.toNat : ℤ) < countSync w.al.synccounter smEventSeen

instance (w : World σ) (smEventSeen : Bool) : Decidable (w.sync0Trips smEventSeen) := by
  unfold World.sync0Trips; infer_instance

/-- `ecat_slv_sync0_account` is nothing, or an error if the count is above the limit. -/
theorem ecatSlvSync0Account_refines (hooks : HooksNeutral sys) (h : Shows w.core a)
    (smEventSeen : Bool) :
    wlp sys n (ecatSlvSync0Account smEventSeen) (fun _ w' => ∃ e, Shows w'.core (a.step e) ∧
      (e = .idle ∨ e = .error ∧ w.sync0Trips smEventSeen)) w := by
  rw [ecatSlvSync0Account, wlp_get_bind, wlp_bind, wlp_modifyAl, wlp_get_bind]
  refine .when (fun htrip => ?_) fun _ =>
    ⟨.idle, ⟨⟨h.app, h.pending, h.sm2, h.mapped, h.dc⟩, h.status⟩, .inl rfl⟩
  rw [wlp_bind, wlp_modifyAl]
  refine (escALstatusgotoerror_refines (a := a) hooks ?_ _).mono fun _ w' h' =>
    ⟨.error, h', .inr ⟨rfl, htrip⟩⟩
  exact ⟨⟨h.app, h.pending, h.sm2, h.mapped, h.dc⟩, h.status⟩

/-- What a check of the watchdogs leaves behind. -/
def Guarded (w : World σ) (a : AlView) (w' : World σ) : Prop :=
  w'.core = w.core ∨ w.al.appState &&& appstateOutput ≠ 0 ∧ Shows w'.core a.error

lemma outputsGuarded_output (h : w.outputsGuarded = true) :
    w.al.appState &&& appstateOutput ≠ 0 := (of_decide_eq_true h).1

lemma hwWatchdogConfigure_al : KeepsAl (σ := σ) hwWatchdogConfigure :=
  .get_bind fun _ => .when ((escRead_al _ _).bind fun _ => (escRead_al _ _).bind fun _ =>
    modifyWd_al _)

lemma hwWatchdogCheck_guarded (hooks : HooksNeutral sys) (h : Shows w.core a) :
    wlp sys n hwWatchdogCheck (fun r w' =>
      Guarded w a w' ∧ (r = false → w'.core = w.core)) w := by
  have quiet : ∀ {r : Bool} (f : Watchdog → Watchdog) {w₁ : World σ} (_ : w₁.core = w.core),
      wlp sys n (do modifyWd f; pure r) (fun r w' =>
        Guarded w a w' ∧ (r = false → w'.core = w.core)) w₁ := fun {r} f {w₁} h₁ => by
    refine ((modifyWd_al f).core _ _ _).bind fun _ w₂ h₂ => ?_
    rw [wlp_pure]
    exact ⟨.inl (h₂.trans h₁), fun _ => h₂.trans h₁⟩
  rw [hwWatchdogCheck, wlp_get_bind, wlp_ite]
  refine ⟨fun _ => quiet _ rfl, fun hguard => ?_⟩
  refine (hwWatchdogConfigure_al.core _ _ _).bind fun _ w₁ h₁ => ?_
  rw [wlp_get_bind, wlp_ite]
  refine ⟨fun _ => (wlp_pure _ _).mpr ⟨.inl h₁, fun _ => h₁⟩, fun _ => ?_⟩
  rw [wlp_ite]
  refine ⟨fun _ => quiet _ h₁, fun _ => ?_⟩
  rw [wlp_ite]
  refine ⟨fun _ => quiet _ h₁, fun _ => ?_⟩
  refine ((onBus_keepsAl ((escRead_keepsSm2 _ _).bind fun _ => .pure _)).core _ _ _).bind
    fun status w₂ h₂ => ?_
  have hw₂ : w₂.core = w.core := h₂.trans h₁
  rw [wlp_get_bind]
  have trip : wlp sys n (when (status &&& escregWdstatusOk = 0 ∧ w₂.wd.hwWdState = .running)
      (escALstatusgotoerror (escSafeop ||| escError) alerrWatchdog))
      (fun _ w' => Guarded w a w') w₂ :=
    .when (fun _ => (escALstatusgotoerror_refines hooks (hw₂ ▸ h) _).mono fun _ w₃ h₃ =>
      .inr ⟨outputsGuarded_output (by simpa using hguard), h₃⟩) fun _ => .inl hw₂
  refine trip.bind fun _ w₃ h₃ => ?_
  rw [wlp_pure]
  exact ⟨h₃, fun h => by cases h⟩

lemma softwareWatchdog_guarded (hooks : HooksNeutral sys) (h : Shows w.core a) :
    wlp sys n softwareWatchdog (fun _ w' => Guarded w a w') w := by
  rw [softwareWatchdog, wlp_ask_bind]
  refine ((modifyWd_al _).core _ _ _).bind fun _ w₁ h₁ => ?_
  rw [wlp_get_bind, wlp_ite]
  refine ⟨fun htrip => ?_, fun _ => ?_⟩
  · refine (escALstatusgotoerror_refines hooks (h₁ ▸ h) _).mono fun _ w₂ h₂ => .inr ⟨?_, h₂⟩
    have happ : w₁.al.appState = w.al.appState := congrArg AlCore.app h₁
    rw [← happ]
    exact outputsGuarded_output htrip.2
  · exact .when (fun _ => ((modifyWd_al _).core _ _ _).mono fun _ w₂ h₂ => .inl (h₂.trans h₁))
      fun _ => .inl h₁

lemma digProcessWd_guarded (hooks : HooksNeutral sys) (h : Shows w.core a) :
    wlp sys n digProcessWd (fun _ w' => Guarded w a w') w := by
  have inCharge : wlp sys n (if sys.cfg.useHwWatchdog then hwWatchdogCheck else pure false)
      (fun r w' => Guarded w a w' ∧ (r = false → w'.core = w.core)) w := by
    rw [wlp_ite]
    exact ⟨fun _ => hwWatchdogCheck_guarded hooks h,
      fun _ => (wlp_pure _ _).mpr ⟨.inl rfl, fun _ => rfl⟩⟩
  rw [digProcessWd, wlp_ask_bind]
  refine inCharge.bind fun r w₁ ⟨hguard, hsame⟩ => ?_
  refine .when (fun hr => ?_) fun _ => hguard
  have h₁ := hsame hr
  refine (softwareWatchdog_guarded hooks (h₁ ▸ h)).mono fun _ w₂ h₂ => ?_
  have happ : w₁.al.appState = w.al.appState := congrArg AlCore.app h₁
  rw [Guarded, h₁, happ] at h₂
  exact h₂

/-- Code that does not concern the AL state machine may follow a check. -/
lemma Guarded.then {m : Stack σ Unit} {w₁ : World σ} (h : Guarded w a w₁) (hm : KeepsCore m) :
    wlp sys n m (fun _ w' => Guarded w a w') w₁ := by
  refine (hm sys n w₁).mono fun _ w₂ h₂ => ?_
  rw [Guarded, h₂]
  exact h

/-- `DIG_process` is nothing, or an error while outputs are on. -/
theorem digProcess_refines (hooks : HooksNeutral sys) (h : Shows w.core a) (flags : Byte) :
    wlp sys n (digProcess flags) (fun _ w' => ∃ e, Shows w'.core (a.step e) ∧ GuardEvent w e)
      w := by
  have wd : wlp sys n (when (flags &&& digProcessWdFlag ≠ 0) digProcessWd)
      (fun _ w' => Guarded w a w') w :=
    .when (fun _ => digProcessWd_guarded hooks h) fun _ => .inl rfl
  refine wlp.mono (Q := fun _ w' => Guarded w a w') ?_ fun _ w' h' => ?_
  · refine wd.bind fun _ w₁ h₁ => ?_
    refine (h₁.then (KeepsAl.core (.when digProcessRxpdo_al))).bind fun _ w₂ h₂ => ?_
    rw [wlp_ask_bind]
    refine (h₂.then (KeepsAl.core (.when (callHook_al _)))).bind fun _ w₃ h₃ => ?_
    exact h₃.then (KeepsAl.core (.when digProcessTxpdo_al))
  · rcases h' with h' | ⟨hout, h'⟩
    · exact ⟨.idle, h' ▸ h, .inl rfl⟩
    · exact ⟨.error, h', .inr ⟨rfl, hout⟩⟩

/-- A wait that timed out is nothing, or an error while outputs are on. -/
theorem runDcTimeout_refines (hooks : HooksNeutral sys) (h : Shows w.core a) (rc : ℤ) :
    wlp sys n (runDcTimeout rc) (fun _ w' => ∃ e, Shows w'.core (a.step e) ∧ GuardEvent w e)
      w := by
  rw [runDcTimeout, wlp_get_bind, wlp_ite]
  refine ⟨fun ⟨_, _, hout⟩ => ?_, fun _ => (wlp_pure _ _).mpr ⟨.idle, h, .inl rfl⟩⟩
  refine (modifyAl_core (c := w.core) rfl).bind fun _ w₁ h₁ => ?_
  refine (escALstatusgotoerror_refines hooks (h₁ ▸ h) _).bind fun _ w₂ h₂ => ?_
  exact (wlp_pure _ _).mpr ⟨.error, h₂, .inr ⟨rfl, hout⟩⟩

/-! ## A held request -/

/-- A held request is completed, by what has been counted: good sync has lasted long enough, and
process data has been seen if there is any to expect. -/
def AlState.pendingCompletes (al : AlState) : Prop :=
  escOpSyncValidNs ≤ al.opValidNs ∧ (al.opSeenSm ∨ al.escSm2Sml = 0)

/-- A held request that is not completed is refused: it has waited too long. -/
def AlState.pendingExpires (al : AlState) : Prop := escOpPendingTimeoutNs ≤ al.opPendingNs

/-- A step of a held request ends it. -/
def World.pendingEnds (w : World σ) (sync0 smEvent : Bool) (elapsedNs : ℕ) : Prop :=
  w.al.opPending = true ∧ ((w.al.countPending sync0 smEvent elapsedNs).pendingCompletes ∨
    (w.al.countPending sync0 smEvent elapsedNs).pendingExpires)

instance (w : World σ) (sync0 smEvent : Bool) (elapsedNs : ℕ) :
    Decidable (w.pendingEnds sync0 smEvent elapsedNs) := by
  unfold World.pendingEnds AlState.pendingCompletes AlState.pendingExpires; infer_instance

/-- What a step of a held request can be, to the AL state machine. -/
def PendingEvent (w : World σ) (sync0 smEvent : Bool) (elapsedNs : ℕ) (e : AlEvent) : Prop :=
  e = .idle ∨ (e = .complete ∨ e = .refuse) ∧ w.pendingEnds sync0 smEvent elapsedNs

/-- `ESC_op_pending_step` completes or refuses a held request, or leaves it held. -/
theorem escOpPendingStep_refines (hooks : HooksNeutral sys) (h : Shows w.core a)
    (sync0 smEvent : Bool) (elapsedNs : ℕ) :
    wlp sys n (escOpPendingStep sync0 smEvent elapsedNs) (fun _ w' => ∃ e,
      Shows w'.core (a.step e) ∧ PendingEvent w sync0 smEvent elapsedNs e) w := by
  rw [escOpPendingStep, wlp_get_bind]
  refine .when (fun hpend => ?_) fun _ => ⟨.idle, h, .inl rfl⟩
  rw [wlp_bind, wlp_modifyAl, wlp_get_bind, wlp_ite]
  refine ⟨fun hdone => ?_, fun _ => .when (fun hlate => ?_) fun _ => ⟨.idle, ?_, .inl rfl⟩⟩
  · refine (modifyAl_core (c := { w.core with pending := false }) rfl).bind fun _ w₁ h₁ => ?_
    refine (escStartoutput_core escOp).bind fun _ w₂ ⟨_, h₂⟩ => ?_
    rw [wlp_ask_bind]
    refine (callStateChangeHook_core hooks.post _ _).bind fun p w₃ ⟨hp, h₃⟩ => ?_
    subst hp
    rw [wlp_get_bind]
    have hw₃ := h₃.trans h₂
    refine (wlp.when (Q := fun _ w' => w'.core = w₃.core) (fun _ => escALerror_core _)
      fun _ => rfl).bind fun _ w₄ h₄ => ?_
    refine (escALstatus_core _).mono fun _ w₅ h₅ => 
      ⟨.complete, ?_, .inr ⟨.inl rfl, hpend, .inl hdone⟩⟩
    rw [h₅, h₄, hw₃, h₁, AlView.step, AlView.complete, if_pos (h.pending.symm.trans hpend)]
    exact ((h.toFlags.withPending false).startOutputs.goto .op false).shows rfl
  · refine (modifyAl_core (c := { w.core with pending := false }) rfl).bind fun _ w₁ h₁ => ?_
    refine (escALerror_core _).bind fun _ w₂ h₂ => ?_
    refine (escALstatus_core _).mono fun _ w₃ h₃ => 
      ⟨.refuse, ?_, .inr ⟨.inr rfl, hpend, .inr hlate⟩⟩
    rw [h₃, h₂, h₁, AlView.step, AlView.refuse, if_pos (h.pending.symm.trans hpend)]
    exact ((h.toFlags.withPending false).goto .safeop true).shows rfl
  · exact ⟨⟨h.app, h.pending, h.sm2, h.mapped, h.dc⟩, h.status⟩

/-! ## Runs -/

/-- What a call can be, to the AL state machine. -/
def CallEvent (sys : System σ) (w : World σ) : ℕ × Call σ → AlEvent → Prop
  | (n, .state), e => StateEvent sys n w e
  | (_, .smActEvent), e => SmEvent sys w e
  | (_, .process _), e => GuardEvent w e
  | (_, .waited _), e => GuardEvent w e
  | (_, .sync0Account smEventSeen), e => e = .idle ∨ e = .error ∧ w.sync0Trips smEventSeen
  | (_, .opPendingStep sync0 smEvent ns), e => PendingEvent w sync0 smEvent ns e
  | _, e => e = .idle

/-- Every call is an event of the AL state machine. -/
theorem Stack.Step.refines (hooks : HooksNeutral sys) {w' : World σ} {l : ℕ × Call σ}
    (h : Shows w.core a) (hstep : Stack.Step sys w l w') :
    ∃ e, Shows w'.core (a.step e) ∧ CallEvent sys w l e := by
  obtain ⟨n, call⟩ := l
  -- the calls that do not concern the AL state machine
  have idle : ∀ {m : Stack σ Unit}, KeepsCore m → m sys n w = .ok () w' →
      Shows w'.core (a.step .idle) := fun hm hrun => by
    have hcore : w'.core = w.core := hm sys n w _ _ hrun
    rw [hcore]
    exact h
  have noResult : ∀ {m : Stack σ Bool}, KeepsCore m → KeepsCore ((fun _ => ()) <$> m) :=
    fun hm sys n w => (wlp_map _ _ _).mpr (hm sys n w)
  cases call with
  | move outside alEvent bytes =>
      have hmove : KeepsCore (Call.move outside alEvent bytes).run := .modify fun _ => rfl
      exact ⟨.idle, idle hmove hstep, rfl⟩
  | state => exact escState_refines hooks h _ _ hstep
  | smActEvent => exact escSmActEvent_refines h _ _ hstep
  | mbxprocess => exact ⟨.idle, idle (noResult escMbxprocess_al.core) hstep, rfl⟩
  | coeprocess => exact ⟨.idle, idle (onCoe_keepsAl _).core hstep, rfl⟩
  | xoeprocess => exact ⟨.idle, idle (onMailbox_keepsAl _).core hstep, rfl⟩
  | process flags => exact digProcess_refines hooks h flags _ _ hstep
  | sync0Account seen => exact ecatSlvSync0Account_refines hooks h seen _ _ hstep
  | opPendingStep sync0 smEvent ns =>
      exact escOpPendingStep_refines hooks h sync0 smEvent ns _ _ hstep
  | waited rc =>
      refine (?_ : wlp sys n ((fun _ => ()) <$> runDcTimeout rc) (fun _ w' => ∃ e,
        Shows w'.core (a.step e) ∧ GuardEvent w e) w) _ _ hstep
      rw [wlp_map]
      exact runDcTimeout_refines hooks h rc
  | noteSmEvent seen =>
      have hnote : w' = { w with al := { w.al with smEventSeen := seen } } := by
        cases hstep
        rfl
      rw [hnote]
      exact ⟨.idle, ⟨⟨h.app, h.pending, h.sm2, h.mapped, h.dc⟩, h.status⟩, rfl⟩

/-- The view of a slave that was just initialised. -/
def AlView.initial : AlView := ⟨.init, false, false, false, false, false, false, false⟩

lemma coeInitDefaultValues_core : KeepsCore (σ := σ) coeInitDefaultValues :=
  .ask_bind fun _ => .when (.get_bind fun _ => (Keeps.lift _).bind fun _ =>
    .bind (.modify fun _ => rfl) fun _ => (callHook_al _).core)

lemma waitDlstatus_core (retries : ℕ) : KeepsCore (σ := σ) (waitDlstatus retries) := by
  induction retries with
  | zero => exact .get_bind fun _ => .pure _
  | succ retries ih =>
      exact .get_bind fun _ => .ite (.pure _) ((escRead_al _ _).core.bind fun _ =>
        .bind (fun _ _ _ => modifyAl_core rfl) fun _ => ih)

/-- Stopping everything leaves the slave in INIT. -/
lemma initStop_shows {outside : σ} {alEvent : Dword} {bytes : ByteStore}
    (hw : w.core = (World.zeroed outside alEvent bytes).core) :
    wlp sys n initStop (fun _ w' => Shows w'.core AlView.initial) w := by
  refine (escALstatus_core _).bind fun _ w₃ h₃ => ?_
  refine (escALerror_core _).bind fun _ w₄ h₄ => ?_
  refine escStopmbx_core.bind fun _ w₅ h₅ => ?_
  refine escStopinput_core.bind fun _ w₆ h₆ => ?_
  refine escStopoutput_core.mono fun _ w₇ h₇ => ?_
  rw [h₇, h₆, h₅, h₄, h₃, hw]
  have hzero : Flags (World.zeroed outside alEvent bytes).core AlView.initial :=
    ⟨by change appstateIdle = appCode false false; decide, rfl, rfl, rfl, rfl⟩
  have hinit : Shows { (World.zeroed outside alEvent bytes).core with
      status := escInit.setWidth 16 } AlView.initial := hzero.shows rfl
  exact ⟨hinit.stopAll.stopOutputs, hinit.status⟩

/-- `ecat_slv_init` leaves the slave in INIT. -/
theorem Initialised.shows (h : Initialised sys w) : Shows w.core AlView.initial := by
  obtain ⟨n, outside, alEvent, bytes, hrun⟩ := h
  refine (?_ : wlp sys n ecatSlvInit (fun r w' => r = true → Shows w'.core AlView.initial)
    (World.zeroed outside alEvent bytes)) _ _ hrun rfl
  rw [ecatSlvInit, wlp_ask_bind]
  refine ((modifyWd_al _).core _ _ _).bind fun _ w₁ h₁ => ?_
  rw [wlp_bind, wlp_transact, wlp_ite]
  refine ⟨fun _ => (wlp_pure _ _).mpr (fun hfail => by cases hfail), fun _ => ?_⟩
  refine (waitDlstatus_core _ _ _ _).bind fun started w₂ h₂ => ?_
  have hw₂ : w₂.core = (World.zeroed outside alEvent bytes).core := h₂.trans h₁
  rw [wlp_ite]
  refine ⟨fun _ => ?_, fun _ => (wlp_pure _ _).mpr (fun hfail => by cases hfail)⟩
  refine (initStop_shows hw₂).bind fun _ w₃ h₃ => ?_
  refine (coeInitDefaultValues_core _ _ _).bind fun _ w₄ h₄ => ?_
  exact (wlp_pure _ _).mpr fun _ => h₄ ▸ h₃

/-- A run of the stack is a run of the AL state machine, whose events meet every condition that
the calls of the run warrant. -/
theorem Reached.shows (allowed : AlView → AlEvent → Prop) (hooks : HooksNeutral sys)
    {ok : World σ → ℕ × Call σ → Prop}
    (hok : ∀ w a l e, Shows w.core a → ok w l → CallEvent sys w l e → allowed a e)
    (h : Reached sys ok w) :
    ∃ a, Shows w.core a ∧
      Reachable (· = AlView.initial) (fun a e a' => a' = a.step e) allowed a := by
  refine Reachable.simulation (fun w a => Shows w.core a)
    (fun _ hw => ⟨_, hw.shows, ?_⟩) (fun s l t a hR hokl hst => ?_) h
  · rfl
  · obtain ⟨e, hR', he⟩ := hst.refines hooks hR
    exact ⟨e, _, hR', hok _ _ _ _ hR hokl he, rfl⟩

end Soes
