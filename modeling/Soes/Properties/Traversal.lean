import Mathlib.Data.Nat.Basic
import Soes.Stack.Calls

/-!
# What the AL side does to the mailboxes

All code of `esc.c` and `ecat_slv.c` that moves between AL states or exchanges process data leaves
the mailboxes as they are, but for three places: `ESC_stopmbx`, `ESC_startmbx` with its boot
variant, and the check of SM0 and SM1 that fails.  So a relation between worlds is kept by all of
it as soon as it is kept by these three and by whatever leaves the mailboxes alone (`AlRelation`).
The lemmas `…_keepsRest` and `…_keepsMb` are about code that leaves them alone, the lemmas `…_keeps`
about the rest.  All but the process data code of `ecat_slv.c` leaves that file's private variables
alone as well (`SameRest`, `EscRelation`).

The same traversal serves the count of the calls of `APP_safe_state`, which no code lowers; that is
why `SameMb` speaks about the count as well.
-/

namespace Soes

open Program

variable {σ : Type} {α : Type}

/-! ## Code that leaves the mailboxes alone -/

/-- The mailboxes are the same, and the count of the calls of `APP_safe_state` is not lower. -/
structure SameMb (w w' : World σ) : Prop where
  mb : w'.mb = w.mb
  safe : w.al.safeStates ≤ w'.al.safeStates

instance : Std.Refl (SameMb (σ := σ)) := ⟨fun _ => ⟨rfl, le_refl _⟩⟩

instance : IsTrans (World σ) SameMb :=
  ⟨fun _ _ _ h h' => ⟨h'.mb.trans h.mb, le_trans h.safe h'.safe⟩⟩

/-- The code leaves the mailboxes alone. -/
abbrev KeepsMb (m : Stack σ α) : Prop := Keeps SameMb m

/-- The mailboxes and the private variables of `ecat_slv.c` are the same, and the count is not
lower. -/
structure SameRest (w w' : World σ) : Prop where
  mb : w'.mb = w.mb
  wd : w'.wd = w.wd
  safe : w.al.safeStates ≤ w'.al.safeStates

instance : Std.Refl (SameRest (σ := σ)) := ⟨fun _ => ⟨rfl, rfl, le_refl _⟩⟩

instance : IsTrans (World σ) SameRest :=
  ⟨fun _ _ _ h h' => ⟨h'.mb.trans h.mb, h'.wd.trans h.wd, le_trans h.safe h'.safe⟩⟩

/-- The code of `esc.c` that moves between AL states leaves the rest of the stack alone. -/
abbrev KeepsRest (m : Stack σ α) : Prop := Keeps SameRest m

lemma SameRest.sameMb {w w' : World σ} (h : SameRest w w') : SameMb w w' := ⟨h.mb, h.safe⟩

lemma KeepsRest.keepsMb {m : Stack σ α} (hm : KeepsRest m) : KeepsMb m := fun sys n w =>
  (hm sys n w).mono fun _ _ h => h.sameMb

lemma onBus_keepsRest (m : OnBus σ α) : KeepsRest (onBus m) :=
  .within (fun _ _ => ⟨rfl, rfl, le_refl _⟩) _ m

lemma onVariables_keepsRest (m : OnVariables α) : KeepsRest (σ := σ) (onVariables m) :=
  .within (fun _ _ => ⟨rfl, rfl, le_refl _⟩) _ m

lemma modifyAl_keepsRest {f : AlState → AlState} (hf : ∀ al, al.safeStates ≤ (f al).safeStates) :
    KeepsRest (σ := σ) (modifyAl f) := .modify fun w => ⟨rfl, rfl, hf w.al⟩

lemma callApp_keepsRest (call : AppCall σ) : KeepsRest (callApp call) :=
  .modify fun _ => ⟨rfl, rfl, le_refl _⟩

lemma callHook_keepsRest (hook : Option (AppCall σ)) : KeepsRest (callHook hook) := by
  cases hook with
  | none => exact .pure _
  | some call => exact callApp_keepsRest call

lemma callStateChangeHook_keepsRest (hook : Option (σ → Byte → Byte → σ × Byte × Byte))
    (as an : Byte) : KeepsRest (callStateChangeHook hook as an) := by
  cases hook with
  | none => exact .pure _
  | some call => exact .transact fun _ _ => ⟨rfl, rfl, le_refl _⟩

lemma callMaskHook_keepsRest (hook : Option (Dword → σ → Dword → σ × Dword)) (mask : Dword) :
    KeepsRest (callMaskHook hook mask) := by
  cases hook with
  | none => exact .pure _
  | some call => exact .modify fun _ => ⟨rfl, rfl, le_refl _⟩

lemma escALerror_keepsRest (errornumber : Word) : KeepsRest (σ := σ) (escALerror errornumber) :=
  .bind (modifyAl_keepsRest fun _ => le_refl _) fun _ => onBus_keepsRest _

lemma escALstatus_keepsRest (status : Byte) : KeepsRest (σ := σ) (escALstatus status) :=
  .bind (modifyAl_keepsRest fun _ => le_refl _) fun _ => onBus_keepsRest _

lemma appSafeState_keepsRest : KeepsRest (σ := σ) appSafeState :=
  .bind (modifyAl_keepsRest fun _ => Nat.le_succ _) fun _ => .ask_bind fun _ => callHook_keepsRest _

lemma escStopoutput_keepsRest : KeepsRest (σ := σ) escStopoutput :=
  .bind (modifyAl_keepsRest fun _ => le_refl _) fun _ => (onBus_keepsRest _).bind fun _ =>
    appSafeState_keepsRest

lemma escALstatusgotoerror_keepsRest (status : Byte) (errornumber : Word) :
    KeepsRest (σ := σ) (escALstatusgotoerror status errornumber) :=
  .ite (.pure _) (.ask_bind fun _ => .get_bind fun _ => (callStateChangeHook_keepsRest _ _ _).bind
    fun _ => .get_bind fun _ => (Keeps.when escStopoutput_keepsRest).bind fun _ =>
      .bind (modifyAl_keepsRest fun _ => le_refl _) fun _ => (escALerror_keepsRest _).bind fun _ =>
        (escALstatus_keepsRest _).bind fun _ => (callStateChangeHook_keepsRest _ _ _).bind fun _ =>
          .pure _)

lemma escCheckDC_keepsRest : KeepsRest (σ := σ) escCheckDC := by
  refine (onBus_keepsRest _).bind fun _ => .ite (.ask_bind fun sys => ?_)
    (.bind (modifyAl_keepsRest fun _ => le_refl _) fun _ => .pure _)
  cases sys.cfg.escCheckDcHandler with
  | none => exact .pure _
  | some check => exact .transact fun _ _ => ⟨rfl, rfl, le_refl _⟩

lemma escStartinput_keepsRest (state : Byte) : KeepsRest (σ := σ) (escStartinput state) := by
  have interrupt : ∀ state : Byte, KeepsRest (σ := σ) (escStartinputInterrupt state) := fun _ =>
    escCheckDC_keepsRest.bind fun _ => .ite
      ((escALerror_keepsRest _).bind fun _ => (onBus_keepsRest _).bind fun _ =>
        (onBus_keepsRest _).bind fun _ => .bind (modifyAl_keepsRest fun _ => le_refl _) fun _ =>
          .pure _)
      (.get_bind fun _ => .ask_bind fun _ => (callMaskHook_keepsRest _ _).bind fun _ => .pure _)
  exact .ask_bind fun _ => .get_bind fun _ => (onBus_keepsRest _).bind fun _ => .ite
    ((Keeps.when (onBus_keepsRest _)).bind fun _ => .bind (modifyAl_keepsRest fun _ => le_refl _)
      fun _ => .ite (interrupt _) (.pure _))
    ((onBus_keepsRest _).bind fun _ => (onBus_keepsRest _).bind fun _ => .get_bind fun _ =>
      (escALerror_keepsRest _).bind fun _ => .pure _)

lemma escStopinput_keepsRest : KeepsRest (σ := σ) escStopinput :=
  .bind (modifyAl_keepsRest fun _ => le_refl _) fun _ => (onBus_keepsRest _).bind fun _ =>
    (onBus_keepsRest _).bind fun _ => .ask_bind fun _ => .when (callMaskHook_keepsRest _ _)

lemma escStartoutput_keepsRest (state : Byte) : KeepsRest (σ := σ) (escStartoutput state) :=
  .get_bind fun _ => (Keeps.when (onBus_keepsRest _)).bind fun _ =>
    .bind (modifyAl_keepsRest fun _ => le_refl _) fun _ => .pure _

lemma enterSafeop_keepsRest (ac : Byte) : KeepsRest (σ := σ) (enterSafeop ac) := by
  have map2 : KeepsRest (σ := σ) mapSm2 := .ask_bind fun _ => .get_bind fun _ =>
    (onVariables_keepsRest _).bind fun _ => modifyAl_keepsRest fun _ => le_refl _
  have map3 : KeepsRest (σ := σ) mapSm3 := .ask_bind fun _ => .get_bind fun _ =>
    (onVariables_keepsRest _).bind fun _ => modifyAl_keepsRest fun _ => le_refl _
  exact map2.bind fun _ => .get_bind fun _ => .ite
    ((escALerror_keepsRest _).bind fun _ => .pure _)
    (map3.bind fun _ => .get_bind fun _ => .ite ((escALerror_keepsRest _).bind fun _ => .pure _)
      ((escStartinput_keepsRest _).bind fun _ => (Keeps.when (onBus_keepsRest _)).bind fun _ =>
        .pure _))

lemma enterOp_keepsRest (ac : Byte) : KeepsRest (σ := σ) (enterOp ac) :=
  .get_bind fun _ => .ite (.bind (modifyAl_keepsRest fun _ => le_refl _) fun _ => .pure _)
    (escStartoutput_keepsRest ac)

lemma stopoutputFlagged_keepsRest : KeepsRest (σ := σ) stopoutputFlagged :=
  escStopoutput_keepsRest.bind fun _ => .get_bind fun _ => .when (onBus_keepsRest _)

lemma deviceId_keepsRest : KeepsRest (σ := σ) deviceId := by
  refine .ask_bind fun sys => ?_
  cases sys.cfg.getDeviceId with
  | none => exact (onBus_keepsRest _).map _
  | some getDeviceId => exact .transact fun _ _ => ⟨rfl, rfl, le_refl _⟩

lemma escStateFinish_keepsRest (as an : Byte) : KeepsRest (σ := σ) (escStateFinish as an) :=
  .ask_bind fun _ => (callStateChangeHook_keepsRest _ _ _).bind fun _ => .get_bind fun _ =>
    (Keeps.when (escALerror_keepsRest _)).bind fun _ => .get_bind fun _ => (onBus_keepsRest _).bind
      fun _ => Keeps.bind (.ite (deviceId_keepsRest.bind fun _ => .ite
        ((escALerror_keepsRest _).bind fun _ => .pure _) (.pure _)) (.pure _)) fun _ =>
          escALstatus_keepsRest _

lemma escOpPendingStep_keepsRest (sync0 smEvent : Bool) (elapsedNs : ℕ) :
    KeepsRest (σ := σ) (escOpPendingStep sync0 smEvent elapsedNs) :=
  .get_bind fun _ => .when <| .bind (modifyAl_keepsRest fun _ => le_refl _) fun _ => .get_bind
    fun _ => .ite
      (.bind (modifyAl_keepsRest fun _ => le_refl _) fun _ =>
        (escStartoutput_keepsRest _).bind fun _ =>
        .ask_bind fun _ => (callStateChangeHook_keepsRest _ _ _).bind fun _ => .get_bind fun _ =>
          (Keeps.when (escALerror_keepsRest _)).bind fun _ => escALstatus_keepsRest _)
      (.when (.bind (modifyAl_keepsRest fun _ => le_refl _) fun _ => (escALerror_keepsRest _).bind
        fun _ => escALstatus_keepsRest _))

/-! ## Initialisation -/

lemma coeInitDefaultValues_keepsRest : KeepsRest (σ := σ) coeInitDefaultValues :=
  .ask_bind fun _ => .when <| .get_bind fun _ => (Keeps.lift _).bind fun _ =>
    Keeps.bind (.modify fun _ => ⟨rfl, rfl, le_refl _⟩) fun _ => callHook_keepsRest _

lemma waitDlstatus_keepsRest (retries : ℕ) : KeepsRest (σ := σ) (waitDlstatus retries) := by
  induction retries with
  | zero => exact .get_bind fun _ => .pure _
  | succ retries ih =>
      exact .get_bind fun _ => .ite (.pure _) <| (onBus_keepsRest _).bind fun _ =>
        Keeps.bind (.modify fun _ => ⟨rfl, rfl, le_refl _⟩) fun _ => ih

/-! ## Process data -/

lemma onBus_keepsMb (m : OnBus σ α) : KeepsMb (onBus m) := (onBus_keepsRest m).keepsMb

lemma modifyAl_keepsMb {f : AlState → AlState} (hf : ∀ al, al.safeStates ≤ (f al).safeStates) :
    KeepsMb (σ := σ) (modifyAl f) := (modifyAl_keepsRest hf).keepsMb

lemma callApp_keepsMb (call : AppCall σ) : KeepsMb (callApp call) :=
  (callApp_keepsRest call).keepsMb

lemma callHook_keepsMb (hook : Option (AppCall σ)) : KeepsMb (callHook hook) :=
  (callHook_keepsRest hook).keepsMb

lemma escALstatusgotoerror_keepsMb (status : Byte) (errornumber : Word) :
    KeepsMb (σ := σ) (escALstatusgotoerror status errornumber) :=
  (escALstatusgotoerror_keepsRest status errornumber).keepsMb

lemma modifyWd_keepsMb (f : Watchdog → Watchdog) : KeepsMb (σ := σ) (modifyWd f) :=
  .modify fun _ => ⟨rfl, le_refl _⟩

lemma digProcessWd_keepsMb : KeepsMb (σ := σ) digProcessWd := by
  have configure : KeepsMb (σ := σ) hwWatchdogConfigure := .get_bind fun _ =>
    .when ((onBus_keepsMb _).bind fun _ => (onBus_keepsMb _).bind fun _ => modifyWd_keepsMb _)
  have hardware : KeepsMb (σ := σ) hwWatchdogCheck :=
    .get_bind fun _ => .ite ((modifyWd_keepsMb _).bind fun _ => .pure _)
      (configure.bind fun _ => .get_bind fun _ => .ite (.pure _)
        (.ite ((modifyWd_keepsMb _).bind fun _ => .pure _)
          (.ite ((modifyWd_keepsMb _).bind fun _ => .pure _)
            ((onBus_keepsMb _).bind fun _ => .get_bind fun _ =>
              (Keeps.when (escALstatusgotoerror_keepsMb _ _)).bind fun _ => .pure _))))
  have software : KeepsMb (σ := σ) softwareWatchdog :=
    .ask_bind fun _ => (modifyWd_keepsMb _).bind fun _ => .get_bind fun _ =>
      .ite (escALstatusgotoerror_keepsMb _ _) (.when (modifyWd_keepsMb _))
  exact .ask_bind fun _ => Keeps.bind (.ite hardware (.pure _)) fun _ => .when software

lemma digProcessRxpdo_keepsMb : KeepsMb (σ := σ) digProcessRxpdo := by
  have read : KeepsMb (σ := σ) readRxpdo := .ask_bind fun _ => .get_bind fun _ =>
    (onBus_keepsMb _).bind fun _ => .modify fun _ => ⟨rfl, le_refl _⟩
  have unpack : KeepsMb (σ := σ) rxpdoReadSm2 := by
    refine .ask_bind fun sys => ?_
    cases sys.cfg.rxpdoOverride with
    | some call => exact callApp_keepsMb call
    | none =>
        exact read.bind fun _ => .when (.get_bind fun _ => (Keeps.lift _).bind fun _ =>
          .modify fun _ => ⟨rfl, le_refl _⟩)
  exact .ask_bind fun _ => .get_bind fun _ => .when (.ite (unpack.bind fun _ =>
    (modifyWd_keepsMb _).bind fun _ => callApp_keepsMb _) read)

lemma digProcessTxpdo_keepsMb : KeepsMb (σ := σ) digProcessTxpdo := by
  have pack : KeepsMb (σ := σ) txpdoWriteSm3 := by
    refine .ask_bind fun sys => ?_
    cases sys.cfg.txpdoOverride with
    | some call => exact callApp_keepsMb call
    | none =>
        exact (Keeps.when (.get_bind fun _ => (Keeps.lift _).bind fun _ =>
          modifyWd_keepsMb _)).bind fun _ => .get_bind fun _ => onBus_keepsMb _
  exact .get_bind fun _ => .when (.ask_bind fun _ => (callApp_keepsMb _).bind fun _ => pack)

lemma digProcess_keepsMb (flags : Byte) : KeepsMb (σ := σ) (digProcess flags) :=
  (Keeps.when digProcessWd_keepsMb).bind fun _ => (Keeps.when digProcessRxpdo_keepsMb).bind
    fun _ => .ask_bind fun _ => (Keeps.when (callHook_keepsMb _)).bind fun _ =>
      .when digProcessTxpdo_keepsMb

lemma ecatSlvSync0Account_keepsMb (smEventSeen : Bool) :
    KeepsMb (σ := σ) (ecatSlvSync0Account smEventSeen) :=
  .get_bind fun _ => .bind (modifyAl_keepsMb fun _ => le_refl _) fun _ => .get_bind fun _ =>
    .when (.bind (modifyAl_keepsMb fun _ => le_refl _) fun _ => escALstatusgotoerror_keepsMb _ _)

lemma runDcTimeout_keepsMb (rc : ℤ) : KeepsMb (σ := σ) (runDcTimeout rc) :=
  .get_bind fun _ => .ite (.bind (modifyAl_keepsMb fun _ => le_refl _) fun _ =>
    (escALstatusgotoerror_keepsMb _ _).bind fun _ => .pure _) (.pure _)

/-! ## Starting and stopping the mailboxes -/

/-- The mailboxes as `ESC_stopmbx` leaves them. -/
def Mailbox.stopped (m : Mailbox) (buffers : ℕ) : Mailbox :=
  ({ m with mbxRun := false } : Mailbox).reset buffers

/-- The size and the settings the mailboxes are started with, outside and in the boot state. -/
def Options.modes (o : Options) : List (ℕ × SmCfg × SmCfg) :=
  [(o.mbxSize, o.mb0, o.mb1), (o.mbxSizeBoot, o.mbboot0, o.mbboot1)]

/-- The mailboxes as `ESC_startmbx` and `ESC_startmbxboot` leave them. -/
def Mailbox.started (m : Mailbox) (mode : ℕ × SmCfg × SmCfg) (toggle run : Bool) : Mailbox :=
  { m with
    activembxsize := mode.1
    activemb0 := mode.2.1
    activemb1 := mode.2.2
    toggle := toggle
    mbxRun := run }

/-- A relation that is kept by what leaves the mailboxes alone, and by the three places where the AL
side does not. -/
structure AlRelation (sys : System σ) (R : World σ → World σ → Prop) : Prop where
  frame : ∀ w w', SameMb w w' → R w w'
  stopmbx : ∀ w, R w { w with mb := w.mb.stopped sys.opts.mbxBuffers }
  startmbx : ∀ w mode, mode ∈ sys.opts.modes → ∀ toggle run,
    R w { w with mb := w.mb.started mode toggle run }
  halt : ∀ w, R w { w with mb := { w.mb with mbxRun := false } }

/-- The same of a relation that needs more of the frame: code of `esc.c` keeps it. -/
structure EscRelation (sys : System σ) (R : World σ → World σ → Prop) : Prop where
  /-- The mailboxes and the private variables of `ecat_slv.c` are left alone. -/
  frame : ∀ w w', SameRest w w' → R w w'
  stopmbx : ∀ w, R w { w with mb := w.mb.stopped sys.opts.mbxBuffers }
  startmbx : ∀ w mode, mode ∈ sys.opts.modes → ∀ toggle run,
    R w { w with mb := w.mb.started mode toggle run }
  halt : ∀ w, R w { w with mb := { w.mb with mbxRun := false } }

lemma AlRelation.esc {sys : System σ} {R : World σ → World σ → Prop} (h : AlRelation sys R) :
    EscRelation sys R :=
  ⟨fun w w' hw => h.frame w w' hw.sameMb, h.stopmbx, h.startmbx, h.halt⟩

section keeps

variable {sys : System σ} {R : World σ → World σ → Prop}

lemma KeepsRest.keeps {m : Stack σ α} (hm : KeepsRest m) (h : EscRelation sys R) :
    KeepsAt sys R m := fun n w => (hm sys n w).mono fun _ w' hw' => h.frame w w' hw'

lemma KeepsMb.keeps {m : Stack σ α} (hm : KeepsMb m) (h : AlRelation sys R) : KeepsAt sys R m :=
  fun n w => (hm sys n w).mono fun _ w' hw' => h.frame w w' hw'

variable [IsTrans (World σ) R]

/-- Code that leaves the mailboxes as `mb`. -/
lemma wlp_leaves {n : ℕ} {w : World σ} {mb : Mailbox} {m : Stack σ α} (h : EscRelation sys R)
    (hmb : R w { w with mb := mb })
    (hm : wlp sys n m (fun _ w' => SameRest { w with mb := mb } w') w) :
    wlp sys n m (fun _ w' => R w w') w :=
  hm.mono fun _ w' hw' => IsTrans.trans w { w with mb := mb } w' hmb (h.frame _ w' hw')

lemma escStopmbx_leaves (n : ℕ) (w : World σ) :
    wlp sys n escStopmbx
      (fun _ w' => SameRest { w with mb := w.mb.stopped sys.opts.mbxBuffers } w') w := by
  rw [escStopmbx, wlp_ask_bind, wlp_bind, modifyMb, wlp_modify]
  refine (onBus_keepsRest _ sys n _).bind fun _ w₁ h₁ => ?_
  refine (onBus_keepsRest _ sys n _).bind fun _ w₂ h₂ => ?_
  have h := IsTrans.trans _ w₁ w₂ h₁ h₂
  rw [modifyMb, wlp_modify]
  exact ⟨by rw [h.mb, Mailbox.stopped], h.wd, h.safe⟩

lemma escStopmbx_keeps (h : EscRelation sys R) : KeepsAt sys R escStopmbx := fun n w =>
  wlp_leaves h (h.stopmbx w) (escStopmbx_leaves n w)

lemma initStop_keeps (h : EscRelation sys R) : KeepsAt sys R initStop :=
  ((escALstatus_keepsRest _).keeps h).bind fun _ => ((escALerror_keepsRest _).keeps h).bind fun _ =>
    (escStopmbx_keeps h).bind fun _ => (escStopinput_keepsRest.keeps h).bind fun _ =>
      escStopoutput_keepsRest.keeps h

lemma escStartmbxWith_keeps (h : EscRelation sys R) {mode : ℕ × SmCfg × SmCfg}
    (hmode : mode ∈ sys.opts.modes) (errornumber : Word) (state : Byte) :
    KeepsAt sys R (escStartmbxWith mode.1 mode.2.1 mode.2.2 errornumber state) := by
  intro n w
  rw [escStartmbxWith, wlp_bind, modifyMb, wlp_modify]
  refine (onBus_keepsRest _ sys n _).bind fun _ w₁ h₁ => ?_
  refine (onBus_keepsRest _ sys n _).bind fun _ w₂ h₂ => ?_
  refine (onBus_keepsRest _ sys n _).bind fun _ w₃ h₃ => ?_
  refine (onBus_keepsRest _ sys n _).bind fun _ w₄ h₄ => ?_
  refine (onBus_keepsRest _ sys n _).bind fun st w₅ h₅ => ?_
  have h' := IsTrans.trans _ w₄ w₅ (IsTrans.trans _ w₃ w₄ (IsTrans.trans _ w₂ w₃
    (IsTrans.trans _ w₁ w₂ h₁ h₂) h₃) h₄) h₅
  have leaves {w' : World σ} (toggle run : Bool) (hmb : w'.mb = w.mb.started mode toggle run)
      (hwd : w'.wd = w.wd) (hsafe : w.al.safeStates ≤ w'.al.safeStates) : R w w' :=
    IsTrans.trans w { w with mb := w.mb.started mode toggle run } w' (h.startmbx w mode hmode _ _)
      (h.frame _ w' ⟨hmb, hwd, hsafe⟩)
  refine (wlp_ite _ _ _ _).mpr ⟨fun _ => ?_, fun _ => ?_⟩
  · refine (escALerror_keepsRest _ sys n _).bind fun _ w₆ h₆ => ?_
    have h'' := IsTrans.trans _ w₅ w₆ h' h₆
    rw [wlp_bind, modifyMb, wlp_modify, wlp_pure]
    exact leaves w.mb.toggle false (by rw [h''.mb]; rfl) h''.wd h''.safe
  · rw [wlp_bind, ackRepeat, wlp_get_bind, wlp_bind, wlp_modify]
    refine (onBus_keepsRest _ sys n _).bind fun _ w₆ h₆ => ?_
    refine (onBus_keepsRest _ sys n _).mono fun _ w₇ h₇ => ?_
    have h'' := IsTrans.trans _ w₆ w₇ h₆ h₇
    rw [wlp_bind, modifyMb, wlp_modify, wlp_pure]
    refine leaves (w₅.sm.sm 1).ecrep true ?_ (h''.wd.trans h'.wd) (le_trans h'.safe h''.safe)
    rw [h''.mb, h'.mb]
    rfl

variable [Std.Refl R]

lemma escSmStepDown_keeps (h : EscRelation sys R) (ac as ax ax23 : Byte) :
    KeepsAt sys R (escSmStepDown ac as ax ax23) := by
  have outputs : KeepsRest (σ := σ) (do
      escStopoutput
      escStopinput) := escStopoutput_keepsRest.bind fun _ => escStopinput_keepsRest
  refine .ite (.pure _) <| .ite (.get_bind fun _ => ?_) (KeepsRest.keeps ?_ h)
  · refine (KeepsRest.keeps (.when outputs) h).bind fun _ => (escStopmbx_keeps h).bind fun _ =>
      ((escALerror_keepsRest _).keeps h).bind fun _ => .bind (.modify h.halt) fun _ =>
        (escALstatus_keepsRest _).keeps h
  · exact .get_bind fun _ => .when (escStopoutput_keepsRest.bind fun _ =>
      escStopinput_keepsRest.bind
      fun _ => .get_bind fun _ => (escALerror_keepsRest _).bind fun _ => escALstatus_keepsRest _)

lemma escSmActEvent_keeps (h : EscRelation sys R) : KeepsAt sys R escSmActEvent :=
  .get_bind fun _ => .when <| .ite
    (((onBus_keepsRest _).keeps h).bind fun _ => .ask_bind <| ((onBus_keepsRest _).keeps h).bind
      fun _ => escSmStepDown_keeps h _ _ _ _)
    ((onBus_keepsRest _).keeps h)

lemma escStateSwitch_keeps (h : EscRelation sys R) (as an ac : Byte) :
    KeepsAt sys R (escStateSwitch as an ac) := by
  have address : KeepsRest (σ := σ) escAddress :=
    (onBus_keepsRest _).bind fun _ => modifyAl_keepsRest fun _ => le_refl _
  have refuse : ∀ (errornumber : Word) (st : Byte), KeepsRest (σ := σ) (do
      escALerror errornumber
      pure st) := fun _ _ => (escALerror_keepsRest _).bind fun _ => .pure _
  have boot : KeepsAt sys R (escStartmbxboot ac) :=
    .ask_bind (escStartmbxWith_keeps h (List.mem_cons_of_mem _ List.mem_cons_self) _ _)
  have mbx : KeepsAt sys R (escStartmbx ac) :=
    .ask_bind (escStartmbxWith_keeps h List.mem_cons_self _ _)
  have stop : KeepsAt sys R (do
      escStopmbx
      pure escInit) := (escStopmbx_keeps h).bind fun _ => .pure _
  refine .ite (.pure _) <| .ite ((address.keeps h).bind fun _ => mbx) <|
    .ite ((address.keeps h).bind fun _ => boot) <| .ite ((refuse _ _).keeps h) <|
    .ite ?opToInit <| .ite ?safeopToInit <| .ite stop <| .ite ((refuse _ _).keeps h) <|
    .ite ((enterSafeop_keepsRest ac).keeps h) <| .ite ((refuse _ _).keeps h) <| .ite ?opToPreop <|
    .ite ?safeopToPreop <| .ite ((refuse _ _).keeps h) <| .ite ((enterOp_keepsRest ac).keeps h) <|
    .ite ?opToBoot <| .ite ?opToSafeop ?other
  case opToInit =>
    exact (escStopoutput_keepsRest.keeps h).bind fun _ => (escStopinput_keepsRest.keeps h).bind
      fun _ => stop
  case safeopToInit => exact (escStopinput_keepsRest.keeps h).bind fun _ => stop
  case opToPreop =>
    exact (escStopoutput_keepsRest.keeps h).bind fun _ => (escStopinput_keepsRest.keeps h).bind
      fun _ => .pure _
  case safeopToPreop => exact (escStopinput_keepsRest.keeps h).bind fun _ => .pure _
  case opToBoot =>
    exact ((escALerror_keepsRest _).keeps h).bind fun _ =>
      (stopoutputFlagged_keepsRest.keeps h).bind fun _ => .pure _
  case opToSafeop => exact (escStopoutput_keepsRest.keeps h).bind fun _ => .pure _
  case other =>
    exact (KeepsRest.keeps (.when stopoutputFlagged_keepsRest) h).bind fun _ =>
      (KeepsRest.keeps (.when escStopinput_keepsRest) h).bind fun _ =>
        ((escALerror_keepsRest _).keeps h).bind fun _ => .pure _

lemma escStateAct_keeps (h : EscRelation sys R) (as an ac : Byte) :
    KeepsAt sys R (escStateAct as an ac) :=
  .bind (.modify fun _ => h.frame _ _ ⟨rfl, rfl, le_refl _⟩) fun _ => .ask_bind <|
    ((callStateChangeHook_keepsRest _ _ _).keeps h).bind fun _ =>
      (escStateSwitch_keeps h _ _ _).bind fun _ => (escStateFinish_keepsRest _ _).keeps h

/-- `ESC_state` keeps every such relation. -/
lemma escState_keeps (h : EscRelation sys R) : KeepsAt sys R escState := by
  have read : KeepsRest (σ := σ) escReadControl :=
    (onBus_keepsRest _).bind fun _ => modifyAl_keepsRest fun _ => le_refl _
  exact .get_bind fun _ => .when <| (read.keeps h).bind fun _ => .get_bind fun _ =>
    .when (.when (escStateAct_keeps h _ _ _))

/-- A call of the AL side, or a move of the surroundings. -/
def Call.isAl : Call σ → Prop
  | .mbxprocess | .coeprocess | .xoeprocess => False
  | _ => True

/-- A call of the AL side keeps every such relation. -/
lemma Call.keeps (h : AlRelation sys R) {c : Call σ} (hc : c.isAl) : KeepsAt sys R c.run := by
  cases c with
  | mbxprocess => exact hc.elim
  | coeprocess => exact hc.elim
  | xoeprocess => exact hc.elim
  | move outside alEvent bytes => exact KeepsMb.keeps (.modify fun _ => ⟨rfl, le_refl _⟩) h
  | state => exact escState_keeps h.esc
  | smActEvent => exact escSmActEvent_keeps h.esc
  | process flags => exact (digProcess_keepsMb flags).keeps h
  | sync0Account seen => exact (ecatSlvSync0Account_keepsMb seen).keeps h
  | opPendingStep sync0 smEvent elapsedNs => exact (escOpPendingStep_keepsRest _ _ _).keeps h.esc
  | waited rc => exact KeepsMb.keeps ((runDcTimeout_keepsMb rc).map _) h
  | noteSmEvent seen => exact .modify fun _ => h.frame _ _ ⟨rfl, le_refl _⟩

end keeps

end Soes
