import Soes.Stack.Slave

/-!
# What the AL functions do to the AL state

`AlCore` is the part of the world the AL properties speak about: the AL status and control words,
the application state, the held request for OP, whether SM2 was last enabled, and the sync error
counting.  Each function of `esc.c` and `ecat_slv.c` gets one lemma, named after the function,
that says what it does to the core; everything else it touches is left open.  Code that runs on
the bus, the mailboxes or the variables leaves the core alone by construction, up to what it does
to SM2 (`onBus_core`).
-/

namespace Soes

open Program

variable {σ : Type} {sys : System σ} {hal : Hal σ} {n : ℕ} {w : World σ} {b : Bus σ}

/-! ## The core -/

/-- The AL part of the world. -/
structure AlCore where
  status : Word
  control : Word
  app : Byte
  pending : Bool
  sm2 : Bool
  sm2Sml : Word
  dcsync : Byte

/-- The AL part of a world. -/
def World.core (w : World σ) : AlCore :=
  { status := w.al.alStatus
    control := w.al.alControl
    app := w.al.appState
    pending := w.al.opPending
    sm2 := w.sm.pdi 2
    sm2Sml := w.al.escSm2Sml
    dcsync := w.al.dcsync }

/-! ## Code on the bus -/

/-- The last enable or disable of SM2 is the same. -/
abbrev SameSm2 (b b' : Bus σ) : Prop := b'.sm.pdi 2 = b.sm.pdi 2

instance : Std.Refl (SameSm2 (σ := σ)) := ⟨fun _ => rfl⟩

instance : IsTrans (Bus σ) SameSm2 := ⟨fun _ _ _ h h' => h'.trans h⟩

/-- The bus code leaves the last enable or disable of SM2 as it was. -/
abbrev KeepsSm2 {α : Type} (m : OnBus σ α) : Prop := Keeps SameSm2 m

lemma escRead_keepsSm2 (address len : ℕ) : KeepsSm2 (escRead (σ := σ) address len) :=
  .transact fun _ _ => rfl

lemma escWrite_keepsSm2 (address len : ℕ) (data : ByteStore) :
    KeepsSm2 (escWrite (σ := σ) address len data) := .transact fun _ _ => rfl

lemma updateSm_keepsSm2 (k : Fin 4) (f : EscSm → EscSm) : KeepsSm2 (updateSm (σ := σ) k f) :=
  .modify fun _ => rfl

lemma setSmTestresult_keepsSm2 (result : Byte) : KeepsSm2 (setSmTestresult (σ := σ) result) :=
  .modify fun _ => rfl

lemma escSMwritepdi_keepsSm2 (k : Fin 4) : KeepsSm2 (escSMwritepdi (σ := σ) k) :=
  .get_bind fun _ => escWrite_keepsSm2 _ _ _

lemma escSMreadpdi_keepsSm2 (k : Fin 4) : KeepsSm2 (escSMreadpdi (σ := σ) k) :=
  (escRead_keepsSm2 _ _).bind fun _ => updateSm_keepsSm2 k _

lemma escSMstatus_keepsSm2 (k : Fin 4) : KeepsSm2 (escSMstatus (σ := σ) k) :=
  (escRead_keepsSm2 _ _).bind fun _ => updateSm_keepsSm2 k _

lemma escSMack_keepsSm2 (k : ℕ) : KeepsSm2 (escSMack (σ := σ) k) :=
  (escRead_keepsSm2 _ _).bind fun _ => .pure _

lemma readSm_keepsSm2 (k : Fin 4) : KeepsSm2 (readSm (σ := σ) k) :=
  (escRead_keepsSm2 _ _).bind fun _ => (updateSm_keepsSm2 k _).bind fun _ => .pure _

/-- Waiting for a read-back leaves SM2 as it was. -/
lemma readBack_keepsSm2 (k : Fin 4) (again : Bus σ → Bool) :
    KeepsSm2 (doWhile (escSMreadpdi k) again) := by
  intro hal n b
  refine wlp_doWhile (fun b' => b'.sm.pdi 2 = b.sm.pdi 2) rfl fun b' hb' => ?_
  refine (escSMreadpdi_keepsSm2 k hal n b').mono fun _ b'' hb'' => ?_
  exact ⟨fun _ => hb''.trans hb', fun _ => hb''.trans hb'⟩

/-- `ESC_SMenable` notes that SyncManager `k` was enabled. -/
lemma escSMenable_pdi (k : Fin 4) :
    wlp hal n (escSMenable k) (fun _ b' => b'.sm.pdi 2 = if k = 2 then true else b.sm.pdi 2)
      b := by
  have h : KeepsSm2 (σ := σ) (do
      updateSm k fun sm => { sm with actPDI := sm.actPDI &&& ~~~escregSmenableBit }
      escSMwritepdi k
      doWhile (escSMreadpdi k) fun b => (b.sm.sm k).actPDI &&& escregSmenableBit = 1) :=
    (updateSm_keepsSm2 k _).bind fun _ => (escSMwritepdi_keepsSm2 k).bind fun _ =>
      readBack_keepsSm2 k _
  have h' := h hal n b
  simp only [wlp_bind] at h'
  simp only [escSMenable, wlp_bind, notePdi, wlp_modify]
  refine h'.mono fun _ b₁ h₁ => h₁.mono fun _ b₂ h₂ => h₂.mono fun _ b₃ h₃ => ?_
  simp [h₃, eq_comm]

/-- `ESC_SMdisable` notes that SyncManager `k` was disabled. -/
lemma escSMdisable_pdi (k : Fin 4) :
    wlp hal n (escSMdisable k) (fun _ b' => b'.sm.pdi 2 = if k = 2 then false else b.sm.pdi 2)
      b := by
  have h : KeepsSm2 (σ := σ) (do
      updateSm k fun sm => { sm with actPDI := sm.actPDI ||| escregSmenableBit }
      escSMwritepdi k
      doWhile (escSMreadpdi k) fun b => (b.sm.sm k).actPDI &&& escregSmenableBit = 0) :=
    (updateSm_keepsSm2 k _).bind fun _ => (escSMwritepdi_keepsSm2 k).bind fun _ =>
      readBack_keepsSm2 k _
  have h' := h hal n b
  simp only [wlp_bind] at h'
  simp only [escSMdisable, wlp_bind, notePdi, wlp_modify]
  refine h'.mono fun _ b₁ h₁ => h₁.mono fun _ b₂ h₂ => h₂.mono fun _ b₃ h₃ => ?_
  simp [h₃, eq_comm]

lemma escSMenable_keepsSm2 {k : Fin 4} (hk : k ≠ 2) : KeepsSm2 (escSMenable (σ := σ) k) := by
  intro hal n b
  simpa [hk] using @escSMenable_pdi σ hal n b k

lemma escSMdisable_keepsSm2 {k : Fin 4} (hk : k ≠ 2) : KeepsSm2 (escSMdisable (σ := σ) k) := by
  intro hal n b
  simpa [hk] using @escSMdisable_pdi σ hal n b k

lemma escCheckmbx_keepsSm2 (mb0 mb1 : SmCfg) (state : Byte) :
    KeepsSm2 (escCheckmbx (σ := σ) mb0 mb1 state) := by
  have refuse : ∀ result : Byte, KeepsSm2 (σ := σ) (do
      setSmTestresult result
      escSMdisable 0
      escSMdisable 1
      Pure.pure (escInit ||| escError)) := fun result =>
    (setSmTestresult_keepsSm2 result).bind fun _ =>
      (escSMdisable_keepsSm2 (by decide)).bind fun _ =>
        (escSMdisable_keepsSm2 (by decide)).bind fun _ => .pure _
  exact (readSm_keepsSm2 0).bind fun _ => (readSm_keepsSm2 1).bind fun _ =>
    .ite (refuse _) (.ite (refuse _) (.pure _))

lemma escCheckSM23_keepsSm2 (opts : Options) (sm2Sml sm3Sml : Word) (state : Byte) :
    KeepsSm2 (escCheckSM23 (σ := σ) opts sm2Sml sm3Sml state) :=
  (readSm_keepsSm2 2).bind fun _ =>
    .ite ((setSmTestresult_keepsSm2 _).bind fun _ => .pure _)
      ((readSm_keepsSm2 3).bind fun _ =>
        .ite ((setSmTestresult_keepsSm2 _).bind fun _ => .pure _) (.pure _))

/-- Bus code that keeps SM2 keeps the core. -/
lemma onBus_core {α : Type} {m : OnBus σ α} (h : KeepsSm2 m) :
    wlp sys n (onBus m) (fun _ w' => w'.core = w.core) w := by
  rw [wlp_within]
  refine (h sys.hal n _).mono fun _ b' hb' => ?_
  have hsm2 : b'.sm.pdi 2 = w.sm.pdi 2 := hb'
  simp [World.core, hsm2]

/-- What bus code does to the bus, it does to the bus of the world. -/
lemma onBus_wlp {α : Type} {m : OnBus σ α} {P : α → Bus σ → Prop}
    (h : wlp sys.hal n m P (busOf.get w)) :
    wlp sys n (onBus m) (fun a w' => P a (busOf.get w')) w := by
  rw [wlp_within]
  exact h

/-! ## Hooks and callbacks -/

/-- A state change hook that does not alter the states it is shown. -/
def NeutralHook (hook : Option (σ → Byte → Byte → σ × Byte × Byte)) : Prop :=
  ∀ call, hook = some call → ∀ o as an, (call o as an).2 = (as, an)

/-- The state change hooks do not alter the states they are shown. -/
structure HooksNeutral (sys : System σ) : Prop where
  pre : NeutralHook sys.cfg.preStateChangeHook
  post : NeutralHook sys.cfg.postStateChangeHook

lemma callStateChangeHook_core {hook : Option (σ → Byte → Byte → σ × Byte × Byte)}
    (h : NeutralHook hook) (as an : Byte) :
    wlp sys n (callStateChangeHook hook as an)
      (fun p w' => p = (as, an) ∧ w'.core = w.core) w := by
  cases hook with
  | none => simp [callStateChangeHook]
  | some call => simp [callStateChangeHook, h call rfl, World.core]

lemma callHook_core (hook : Option (AppCall σ)) :
    wlp sys n (callHook hook) (fun _ w' => w'.core = w.core) w := by
  cases hook with
  | none => simp [callHook]
  | some call => simp [callHook, callApp, World.core]

lemma callMaskHook_core (hook : Option (Dword → σ → Dword → σ × Dword)) (mask : Dword) :
    wlp sys n (callMaskHook hook mask) (fun _ w' => w'.core = w.core) w := by
  cases hook with
  | none => simp [callMaskHook]
  | some call => simp [callMaskHook, World.core]

/-! ## AL status, outputs and inputs -/

/-- The application is stopped, and SM2 with it. -/
def AlCore.stopAll (c : AlCore) : AlCore := { c with app := appstateIdle, sm2 := false }

/-- Outputs are stopped, and SM2 with them. -/
def AlCore.stopOutputs (c : AlCore) : AlCore :=
  { c with app := c.app &&& appstateInput, sm2 := false }

lemma wlp_modifyAl (f : AlState → AlState) (Q : Unit → World σ → Prop) :
    wlp sys n (modifyAl f) Q w ↔ Q () { w with al := f w.al } := wlp_modify _ _

lemma modifyAl_core {f : AlState → AlState} {c : AlCore}
    (h : ({ w with al := f w.al } : World σ).core = c) :
    wlp sys n (modifyAl f) (fun _ w' => w'.core = c) w := by
  simpa [modifyAl] using h

lemma modifyMb_core (f : Mailbox → Mailbox) :
    wlp sys n (modifyMb f) (fun _ w' => w'.core = w.core) w := by
  simp [modifyMb, World.core]

lemma escALerror_core (errornumber : Word) :
    wlp sys n (escALerror errornumber) (fun _ w' => w'.core = w.core) w := by
  refine (modifyAl_core (c := w.core) rfl).bind fun _ w₁ h₁ => ?_
  exact (onBus_core (escWrite_keepsSm2 _ _ _)).mono fun _ w₂ h₂ => h₂.trans h₁

lemma escALstatus_core (status : Byte) :
    wlp sys n (escALstatus status)
      (fun _ w' => w'.core = { w.core with status := status.setWidth 16 }) w := by
  refine (modifyAl_core (c := { w.core with status := status.setWidth 16 }) rfl).bind
    fun _ w₁ h₁ => ?_
  exact (onBus_core (escWrite_keepsSm2 _ _ _)).mono fun _ w₂ h₂ => h₂.trans h₁

lemma appSafeState_core :
    wlp sys n appSafeState (fun _ w' => w'.core = w.core) w := by
  refine (modifyAl_core (c := w.core) rfl).bind fun _ w₁ h₁ => ?_
  rw [wlp_ask_bind]
  exact (callHook_core _).mono fun _ w₂ h₂ => h₂.trans h₁

/-- Disabling SM2 shows in the core. -/
lemma onBus_disable2_core :
    wlp sys n (onBus (escSMdisable 2)) (fun _ w' => w'.core = { w.core with sm2 := false })
      w := by
  rw [wlp_within]
  refine (escSMdisable_pdi 2).mono fun _ b' hb' => ?_
  simpa [World.core] using hb'

/-- Enabling SM2 shows in the core. -/
lemma onBus_enable2_core :
    wlp sys n (onBus (escSMenable 2)) (fun _ w' => w'.core = { w.core with sm2 := true }) w := by
  rw [wlp_within]
  refine (escSMenable_pdi 2).mono fun _ b' hb' => ?_
  simpa [World.core] using hb'

lemma escStopoutput_core :
    wlp sys n escStopoutput (fun _ w' => w'.core = w.core.stopOutputs) w := by
  refine (modifyAl_core (c := { w.core with app := w.core.app &&& appstateInput }) rfl).bind
    fun _ w₁ h₁ => ?_
  refine onBus_disable2_core.bind fun _ w₂ h₂ => ?_
  refine appSafeState_core.mono fun _ w₃ h₃ => ?_
  rw [h₃, h₂, h₁, AlCore.stopOutputs]

lemma escStopinput_core :
    wlp sys n escStopinput (fun _ w' => w'.core = w.core.stopAll) w := by
  refine (modifyAl_core (c := { w.core with app := appstateIdle }) rfl).bind fun _ w₁ h₁ => ?_
  refine (onBus_core (escSMdisable_keepsSm2 (by decide))).bind fun _ w₂ h₂ => ?_
  refine onBus_disable2_core.bind fun _ w₃ h₃ => ?_
  have hw₃ : w₃.core = w.core.stopAll := by rw [h₃, h₂, h₁, AlCore.stopAll]
  rw [wlp_ask_bind]
  exact .when (fun _ => (callMaskHook_core _ _).mono fun _ w₄ h₄ => h₄.trans hw₃) fun _ => hw₃

lemma escStartoutput_core (state : Byte) :
    wlp sys n (escStartoutput state) (fun r w' => r = state ∧ w'.core =
      { w.core with
        app := w.core.app ||| appstateOutput
        sm2 := w.core.sm2 || decide (w.core.sm2Sml ≠ 0) }) w := by
  rw [escStartoutput, wlp_get_bind]
  have enable : wlp sys n (when (w.al.escSm2Sml ≠ 0) (onBus (escSMenable 2)))
      (fun _ w' => w'.core =
        { w.core with sm2 := w.core.sm2 || decide (w.core.sm2Sml ≠ 0) }) w := by
    refine .when (fun hsml => onBus_enable2_core.mono fun _ w₁ h₁ => ?_) fun hsml => ?_
    · have hmapped : decide (w.core.sm2Sml ≠ 0) = true := decide_eq_true hsml
      rw [h₁, hmapped, Bool.or_true]
    · have hmapped : decide (w.core.sm2Sml ≠ 0) = false := decide_eq_false hsml
      rw [hmapped, Bool.or_false]
  refine enable.bind fun _ w₁ h₁ => ?_
  refine (modifyAl_core (c := { w₁.core with app := w₁.core.app ||| appstateOutput }) rfl).bind
    fun _ w₂ h₂ => ?_
  rw [wlp_pure, h₂, h₁]
  exact ⟨rfl, rfl⟩

/-- `ESC_ALstatusgotoerror` with a state below OP. -/
lemma escALstatusgotoerror_core (hooks : HooksNeutral sys) {status : Byte}
    (hop : status &&& escOp = 0) (errornumber : Word) :
    wlp sys n (escALstatusgotoerror status errornumber) (fun _ w' => w'.core =
      { (if w.core.app &&& appstateOutput ≠ 0 then w.core.stopOutputs else w.core) with
        pending := false
        status := status.setWidth 16 }) w := by
  rw [escALstatusgotoerror, if_neg (not_not.mpr hop), wlp_ask_bind, wlp_get_bind]
  refine (callStateChangeHook_core hooks.pre _ _).bind fun p w₁ h₁ => ?_
  obtain ⟨rfl, h₁⟩ := h₁
  have happ : w₁.al.appState = w.core.app := congrArg AlCore.app h₁
  have stop : wlp sys n (when (w₁.al.appState &&& appstateOutput ≠ 0) escStopoutput)
      (fun _ w' => w'.core =
        if w.core.app &&& appstateOutput ≠ 0 then w.core.stopOutputs else w.core) w₁ := by
    rw [happ]
    refine .when (fun hout => escStopoutput_core.mono fun _ w₂ h₂ => ?_) fun hout => ?_
    · rw [h₂, h₁, if_pos hout]
    · rw [h₁, if_neg hout]
  rw [wlp_get_bind]
  refine stop.bind fun _ w₂ h₂ => ?_
  refine (modifyAl_core (c := { w₂.core with pending := false }) rfl).bind fun _ w₃ h₃ => ?_
  refine (escALerror_core _).bind fun _ w₄ h₄ => ?_
  refine (escALstatus_core _).bind fun _ w₅ h₅ => ?_
  refine (callStateChangeHook_core hooks.post _ _).bind fun _ w₆ h₆ => ?_
  rw [wlp_pure, h₆.2, h₅, h₄, h₃, h₂]

/-! ## Mailboxes -/

lemma ackRepeat_core : wlp sys n ackRepeat (fun _ w' => w'.core = w.core) w := by
  rw [ackRepeat, wlp_get_bind]
  refine wlp.bind (P := fun _ w' => w'.core = w.core) (by simp [World.core]) fun _ w₁ h₁ => ?_
  refine (onBus_core (updateSm_keepsSm2 _ _)).bind fun _ w₂ h₂ => ?_
  exact (onBus_core (escSMwritepdi_keepsSm2 _)).mono fun _ w₃ h₃ => by rw [h₃, h₂, h₁]

/-- What `ESC_checkmbx` finds out: the registers of SM0 and SM1, as the bus delivers them. -/
def mbxAccepted (hal : Hal σ) (mb0 mb1 : SmCfg) (o : σ) (event : Dword) : Bool :=
  let a0 := hal.read o event (escregSm0 + 8 * (0 : Fin 4)) 8
  let a1 := hal.read a0.outside a0.alEvent (escregSm0 + 8 * (1 : Fin 4)) 8
  !mbxSmRefused (.ofBytes a0.data) mb0 && !mbxSmRefused (.ofBytes a1.data) mb1

/-- The bus after the registers of SM0 and SM1 were read. -/
def afterMbxCheck (hal : Hal σ) (o : σ) (event : Dword) : BusAnswer σ :=
  let a0 := hal.read o event (escregSm0 + 8 * (0 : Fin 4)) 8
  hal.read a0.outside a0.alEvent (escregSm0 + 8 * (1 : Fin 4)) 8

lemma escCheckmbx_result (mb0 mb1 : SmCfg) (state : Byte) :
    wlp hal n (escCheckmbx mb0 mb1 state) (fun r b' =>
      if mbxAccepted hal mb0 mb1 b.outside b.alEvent then
        r = state ∧ b'.outside = (afterMbxCheck hal b.outside b.alEvent).outside ∧
          b'.alEvent = (afterMbxCheck hal b.outside b.alEvent).alEvent
      else r = escInit ||| escError) b := by
  simp only [escCheckmbx, readSm, escRead, updateSm, wlp_bind, wlp_transact, wlp_modify, wlp_pure,
    wlp_ite]
  refine ⟨fun h0 => ?_, fun h0 => ⟨fun h1 => ?_, fun h1 => ?_⟩⟩
  · have h : mbxAccepted hal mb0 mb1 b.outside b.alEvent = false := by
      simp only [mbxAccepted, h0]
      rfl
    simp [h]
  · have h : mbxAccepted hal mb0 mb1 b.outside b.alEvent = false := by
      simp only [mbxAccepted, h1]
      exact Bool.and_false _
    simp [h]
  · have h : mbxAccepted hal mb0 mb1 b.outside b.alEvent = true := by
      simp only [mbxAccepted, Bool.eq_false_iff.mpr h0, Bool.eq_false_iff.mpr h1]
      rfl
    rw [if_pos h]
    exact ⟨trivial, rfl, rfl⟩

/-- What `ESC_checkSM23` finds out: the registers of SM2 and SM3, as the bus delivers them. -/
def sm23Accepted (hal : Hal σ) (opts : Options) (sm2Sml sm3Sml : Word) (o : σ)
    (event : Dword) : Bool :=
  let a2 := hal.read o event (escregSm0 + 8 * (2 : Fin 4)) 8
  let a3 := hal.read a2.outside a2.alEvent (escregSm0 + 8 * (3 : Fin 4)) 8
  !(pdSmRefused (.ofBytes a2.data) opts.sm2Sma opts.sm2Smc opts.sm2Act sm2Sml ||
    sm2Overlaps opts (.ofBytes a2.data)) &&
  !pdSmRefused (.ofBytes a3.data) opts.sm3Sma opts.sm3Smc opts.sm3Act sm3Sml

lemma escCheckSM23_result (opts : Options) (sm2Sml sm3Sml : Word) (state : Byte) :
    wlp hal n (escCheckSM23 opts sm2Sml sm3Sml state) (fun r _ =>
      r = if sm23Accepted hal opts sm2Sml sm3Sml b.outside b.alEvent then state
        else escPreop ||| escError) b := by
  simp only [escCheckSM23, readSm, escRead, updateSm, setSmTestresult, wlp_bind, wlp_transact,
    wlp_modify, wlp_pure, wlp_ite]
  refine ⟨fun h2 => ?_, fun h2 => ⟨fun h3 => ?_, fun h3 => ?_⟩⟩
  · have h : sm23Accepted hal opts sm2Sml sm3Sml b.outside b.alEvent = false := by
      simp only [sm23Accepted, h2]
      rfl
    simp [h]
  · have h : sm23Accepted hal opts sm2Sml sm3Sml b.outside b.alEvent = false := by
      simp only [sm23Accepted, h3]
      exact Bool.and_false _
    simp [h]
  · have h : sm23Accepted hal opts sm2Sml sm3Sml b.outside b.alEvent = true := by
      simp only [sm23Accepted, Bool.eq_false_iff.mpr h2, Bool.eq_false_iff.mpr h3]
      rfl
    rw [if_pos h]

lemma escStartmbxWith_core (size : ℕ) (mb0 mb1 : SmCfg) (errornumber : Word) {state : Byte}
    (hstate : state &&& escError = 0) :
    wlp sys n (escStartmbxWith size mb0 mb1 errornumber state) (fun r w' =>
      (r = state ∨ r = escInit ||| escError) ∧ w'.core = w.core) w := by
  refine (modifyMb_core _).bind fun _ w₁ h₁ => ?_
  refine (onBus_core (escSMenable_keepsSm2 (by decide))).bind fun _ w₂ h₂ => ?_
  refine (onBus_core (escSMenable_keepsSm2 (by decide))).bind fun _ w₃ h₃ => ?_
  refine (onBus_core (escSMstatus_keepsSm2 _)).bind fun _ w₄ h₄ => ?_
  refine (onBus_core (escSMstatus_keepsSm2 _)).bind fun _ w₅ h₅ => ?_
  have hw₅ : w₅.core = w.core := by rw [h₅, h₄, h₃, h₂, h₁]
  have check : wlp sys n (onBus (escCheckmbx mb0 mb1 state)) (fun r w' =>
      (r = state ∨ r = escInit ||| escError) ∧ w'.core = w.core) w₅ := by
    refine ((onBus_wlp (escCheckmbx_result mb0 mb1 state)).and
      (onBus_core (escCheckmbx_keepsSm2 mb0 mb1 state))).mono fun r w₆ ⟨hr, h₆⟩ => ?_
    refine ⟨?_, h₆.trans hw₅⟩
    split at hr
    · exact .inl hr.1
    · exact .inr hr
  refine check.bind fun r w₆ ⟨hr, h₆⟩ => ?_
  rcases hr with rfl | rfl
  · rw [if_neg (not_not.mpr hstate)]
    refine ackRepeat_core.bind fun _ w₇ h₇ => (modifyMb_core _).bind fun _ w₈ h₈ => ?_
    rw [wlp_pure, h₈, h₇, h₆]
    exact ⟨.inl rfl, rfl⟩
  · rw [if_pos (by decide)]
    refine (escALerror_core _).bind fun _ w₇ h₇ => (modifyMb_core _).bind fun _ w₈ h₈ => ?_
    rw [wlp_pure, h₈, h₇, h₆]
    exact ⟨.inr rfl, rfl⟩

lemma escStopmbx_core : wlp sys n escStopmbx (fun _ w' => w'.core = w.core) w := by
  rw [escStopmbx, wlp_ask_bind]
  refine (modifyMb_core _).bind fun _ w₁ h₁ => ?_
  refine (onBus_core (escSMdisable_keepsSm2 (by decide))).bind fun _ w₂ h₂ => ?_
  refine (onBus_core (escSMdisable_keepsSm2 (by decide))).bind fun _ w₃ h₃ => ?_
  exact (modifyMb_core _).mono fun _ w₄ h₄ => by rw [h₄, h₃, h₂, h₁]

/-! ## On the way to SAFEOP -/

/-- Two cores that differ at most in what the DC check sets. -/
structure SameButDc (c c' : AlCore) : Prop where
  status : c'.status = c.status
  control : c'.control = c.control
  app : c'.app = c.app
  pending : c'.pending = true → c.pending = true
  sm2 : c'.sm2 = c.sm2
  sm2Sml : c'.sm2Sml = c.sm2Sml

lemma escCheckDC_core :
    wlp sys n escCheckDC (fun _ w' => SameButDc w.core w'.core) w := by
  refine (onBus_core ((escRead_keepsSm2 _ _).bind fun _ => .pure _)).bind fun act w₁ h₁ => ?_
  have hsame : SameButDc w.core w₁.core := by
    rw [h₁]
    exact ⟨rfl, rfl, rfl, id, rfl, rfl⟩
  rw [wlp_ite]
  refine ⟨fun _ => ?_, fun _ => ?_⟩
  · rw [wlp_ask_bind]
    cases sys.cfg.escCheckDcHandler with
    | none => exact (wlp_pure _ _).mpr hsame
    | some check =>
        exact (wlp_transact _ _).mpr
          ⟨hsame.status, hsame.control, hsame.app, hsame.pending, hsame.sm2, hsame.sm2Sml⟩
  · refine (modifyAl_core rfl).bind fun _ w₂ h₂ => ?_
    rw [wlp_pure, h₂]
    exact ⟨hsame.status, hsame.control, hsame.app, fun h => by simp [World.core] at h, hsame.sm2,
      hsame.sm2Sml⟩

/-- What starting inputs can come to. -/
inductive StartInput (sys : System σ) (w : World σ) (state r : Byte) (c' : AlCore) : Prop where
  /-- Inputs were started. -/
  | accepted (hr : r = state) (hc : SameButDc { w.core with app := appstateInput } c')
  /-- SM2 or SM3 is not as it should be; the application state is left alone. -/
  | smRefused (hr : r = escPreop ||| escError) (hc' : c' = { w.core with sm2 := false })
      (hsm : sm23Accepted sys.hal sys.opts w.al.escSm2Sml w.al.escSm3Sml w.outside w.alEvent =
        false)
  /-- The DC configuration is refused; the application is stopped. -/
  | dcRefused (hr : r = escPreop ||| escError) (hc : SameButDc w.core.stopAll c')

lemma SameButDc.refl (c : AlCore) : SameButDc c c := ⟨rfl, rfl, rfl, id, rfl, rfl⟩

lemma SameButDc.stopAll {c c' : AlCore} (h : SameButDc c c') : SameButDc c.stopAll c'.stopAll :=
  ⟨h.status, h.control, rfl, h.pending, rfl, h.sm2Sml⟩

lemma SameButDc.enable {c c' : AlCore} (h : SameButDc c c') :
    SameButDc { c with sm2 := true } { c' with sm2 := true } :=
  ⟨h.status, h.control, h.app, h.pending, rfl, h.sm2Sml⟩

lemma escStartinputInterrupt_core (state : Byte) :
    wlp sys n (escStartinputInterrupt state) (fun r w' =>
      r = state ∧ SameButDc w.core w'.core ∨
      r = escPreop ||| escError ∧ SameButDc w.core.stopAll w'.core) w := by
  refine escCheckDC_core.bind fun result w₁ h₁ => ?_
  rw [wlp_ite]
  refine ⟨fun _ => ?_, fun _ => ?_⟩
  · refine (escALerror_core _).bind fun _ w₂ h₂ => ?_
    refine onBus_disable2_core.bind fun _ w₃ h₃ => ?_
    refine (onBus_core (escSMdisable_keepsSm2 (by decide))).bind fun _ w₄ h₄ => ?_
    refine (modifyAl_core (c := { w₄.core with app := appstateIdle }) rfl).bind
      fun _ w₅ h₅ => ?_
    rw [wlp_pure, h₅, h₄, h₃, h₂]
    exact .inr ⟨rfl, h₁.stopAll⟩
  · rw [wlp_get_bind, wlp_ask_bind]
    refine (callMaskHook_core _ _).bind fun _ w₂ h₂ => ?_
    rw [wlp_pure, h₂]
    exact .inl ⟨rfl, h₁⟩

lemma escStartinput_core {state : Byte} (hstate : state ≠ escPreop ||| escError) :
    wlp sys n (escStartinput state) (fun r w' => StartInput sys w state r w'.core) w := by
  rw [escStartinput, wlp_ask_bind, wlp_get_bind]
  have check : wlp sys n
      (onBus (escCheckSM23 sys.opts w.al.escSm2Sml w.al.escSm3Sml state)) (fun r w' =>
        (r = if sm23Accepted sys.hal sys.opts w.al.escSm2Sml w.al.escSm3Sml w.outside w.alEvent
          then state else escPreop ||| escError) ∧ w'.core = w.core) w :=
    (onBus_wlp (escCheckSM23_result _ _ _ state)).and
      (onBus_core (escCheckSM23_keepsSm2 _ _ _ state))
  refine check.bind fun r w₁ ⟨hr, h₁⟩ => ?_
  cases hsm : sm23Accepted sys.hal sys.opts w.al.escSm2Sml w.al.escSm3Sml w.outside w.alEvent with
  | true =>
      rw [hsm, if_pos rfl] at hr
      subst hr
      rw [if_pos hstate]
      have enable : wlp sys n (when (w.al.escSm3Sml ≠ 0) (onBus (escSMenable 3)))
          (fun _ w' => w'.core = w.core) w₁ :=
        .when (fun _ => (onBus_core (escSMenable_keepsSm2 (by decide))).mono
          fun _ w₂ h₂ => h₂.trans h₁) fun _ => h₁
      refine enable.bind fun _ w₂ h₂ => ?_
      refine (modifyAl_core (c := { w.core with app := appstateInput }) ?_).bind fun _ w₃ h₃ => ?_
      · rw [← h₂]
        rfl
      rw [wlp_ite]
      refine ⟨fun _ => ?_, fun _ => ?_⟩
      · refine (escStartinputInterrupt_core r).mono fun r' w₄ h => ?_
        rw [h₃] at h
        rcases h with ⟨rfl, h₄⟩ | ⟨rfl, h₄⟩
        · exact .accepted rfl h₄
        · exact .dcRefused rfl h₄
      · rw [wlp_pure, h₃]
        exact .accepted rfl (.refl _)
  | false =>
      rw [hsm, if_neg (by decide)] at hr
      subst hr
      rw [if_neg (not_not.mpr rfl)]
      refine onBus_disable2_core.bind fun _ w₂ h₂ => ?_
      refine (onBus_core (escSMdisable_keepsSm2 (by decide))).bind fun _ w₃ h₃ => ?_
      rw [wlp_get_bind]
      refine (escALerror_core _).bind fun _ w₄ h₄ => ?_
      rw [wlp_pure]
      refine .smRefused rfl ?_ hsm
      rw [h₄, h₃, h₂, h₁]

/-- The mapping and the SyncManager configuration, as the dictionary and the bus deliver them to a
request for SAFEOP in this state, are as they should be. -/
def SafeopAccepted (sys : System σ) (n : ℕ) (w : World σ) : Prop :=
  ∃ pdo2 pdo3,
    sizeOfPDO rxPdoObjidx w.al.sm2mappings w.al.smMap2 sys.opts.maxMappingsSm2
      ⟨sys.dict.table, w.mem.bytes⟩ n () = .ok pdo2 () ∧ 0 ≤ pdo2.nmappings ∧
    sizeOfPDO txPdoObjidx w.al.sm3mappings w.al.smMap3 sys.opts.maxMappingsSm3
      ⟨sys.dict.table, w.mem.bytes⟩ n () = .ok pdo3 () ∧ 0 ≤ pdo3.nmappings ∧
    sm23Accepted sys.hal sys.opts pdo2.size pdo3.size w.outside w.alEvent = true

instance (sys : System σ) (n : ℕ) (w : World σ) : Decidable (SafeopAccepted sys n w) :=
  match h2 : sizeOfPDO rxPdoObjidx w.al.sm2mappings w.al.smMap2 sys.opts.maxMappingsSm2
      ⟨sys.dict.table, w.mem.bytes⟩ n (),
    h3 : sizeOfPDO txPdoObjidx w.al.sm3mappings w.al.smMap3 sys.opts.maxMappingsSm3
      ⟨sys.dict.table, w.mem.bytes⟩ n () with
  | .ok pdo2 (), .ok pdo3 () =>
      decidable_of_iff (0 ≤ pdo2.nmappings ∧ 0 ≤ pdo3.nmappings ∧
        sm23Accepted sys.hal sys.opts pdo2.size pdo3.size w.outside w.alEvent = true) <| by
      constructor
      · exact fun ⟨hpos2, hpos3, hsm⟩ => ⟨pdo2, pdo3, h2, hpos2, h3, hpos3, hsm⟩
      · rintro ⟨pdo2', pdo3', h2', hpos2, h3', hpos3, hsm⟩
        rw [h2] at h2'
        rw [h3] at h3'
        cases h2'
        cases h3'
        exact ⟨hpos2, hpos3, hsm⟩
  | .fault _, _ => .isFalse <| by
      rintro ⟨_, _, h2', -⟩
      rw [h2] at h2'
      cases h2'
  | .diverge, _ => .isFalse <| by
      rintro ⟨_, _, h2', -⟩
      rw [h2] at h2'
      cases h2'
  | .ok _ (), .fault _ => .isFalse <| by
      rintro ⟨_, _, -, -, h3', -⟩
      rw [h3] at h3'
      cases h3'
  | .ok _ (), .diverge => .isFalse <| by
      rintro ⟨_, _, -, -, h3', -⟩
      rw [h3] at h3'
      cases h3'

/-- What a request for SAFEOP from PREOP or SAFEOP can come to. -/
inductive EnterSafeop (sys : System σ) (n : ℕ) (w : World σ) (ac r : Byte) (c' : AlCore) :
    Prop where
  /-- The mapping is refused. -/
  | mapRefused (sml : Word) (hr : r = escPreop ||| escError)
      (hc' : c' = { w.core with sm2Sml := sml }) (href : ¬ SafeopAccepted sys n w)
  /-- SM2 or SM3 is refused. -/
  | smRefused (sml : Word) (hr : r = escPreop ||| escError)
      (hc' : c' = { w.core with sm2Sml := sml, sm2 := false }) (href : ¬ SafeopAccepted sys n w)
  /-- The DC configuration is refused. -/
  | dcRefused (sml : Word) (hr : r = escPreop ||| escError)
      (hc : SameButDc ({ w.core with sm2Sml := sml } : AlCore).stopAll c')
  /-- Everything is accepted, inputs are started and SM2 is enabled. -/
  | accepted (sml : Word) (hr : r = ac)
      (hc : SameButDc { w.core with sm2Sml := sml, app := appstateInput, sm2 := true } c')

lemma wlp_mapSm2 {Q : Unit → World σ → Prop}
    (h : ∀ pdo, sizeOfPDO rxPdoObjidx w.al.sm2mappings w.al.smMap2 sys.opts.maxMappingsSm2
        ⟨sys.dict.table, w.mem.bytes⟩ n () = .ok pdo () →
      Q () { w with al := { w.al with
        escSm2Sml := pdo.size, sm2mappings := pdo.nmappings, smMap2 := pdo.mappings } }) :
    wlp sys n mapSm2 Q w := by
  simp only [mapSm2, wlp_bind, wlp_ask, wlp_get, modifyAl, wlp_modify, wlp_within]
  exact fun pdo _ hrun => h pdo hrun

lemma wlp_mapSm3 {Q : Unit → World σ → Prop}
    (h : ∀ pdo, sizeOfPDO txPdoObjidx w.al.sm3mappings w.al.smMap3 sys.opts.maxMappingsSm3
        ⟨sys.dict.table, w.mem.bytes⟩ n () = .ok pdo () →
      Q () { w with al := { w.al with
        escSm3Sml := pdo.size, sm3mappings := pdo.nmappings, smMap3 := pdo.mappings } }) :
    wlp sys n mapSm3 Q w := by
  simp only [mapSm3, wlp_bind, wlp_ask, wlp_get, modifyAl, wlp_modify, wlp_within]
  exact fun pdo _ hrun => h pdo hrun

lemma enterSafeop_core {ac : Byte} (hac : ac ≠ escPreop ||| escError) :
    wlp sys n (enterSafeop ac) (fun r w' => EnterSafeop sys n w ac r w'.core) w := by
  refine wlp.bind (wlp_mapSm2 fun pdo2 hrun2 => ?_) fun _ _ h => h
  rw [wlp_get_bind, wlp_ite]
  refine ⟨fun hneg => ?_, fun hpos => ?_⟩
  · refine (escALerror_core _).bind fun _ w₂ h₂ => ?_
    rw [wlp_pure]
    refine .mapRefused pdo2.size rfl h₂ ?_
    rintro ⟨pdo2', -, hrun2', hpos, -⟩
    rw [hrun2] at hrun2'
    cases hrun2'
    exact absurd hneg (Int.not_lt.mpr hpos)
  refine wlp.bind (wlp_mapSm3 fun pdo3 hrun3 => ?_) fun _ _ h => h
  rw [wlp_get_bind, wlp_ite]
  refine ⟨fun hneg => ?_, fun hpos3 => ?_⟩
  · refine (escALerror_core _).bind fun _ w₃ h₃ => ?_
    rw [wlp_pure]
    refine .mapRefused pdo2.size rfl h₃ ?_
    rintro ⟨-, pdo3', -, -, hrun3', hpos, -⟩
    rw [hrun3] at hrun3'
    cases hrun3'
    exact absurd hneg (Int.not_lt.mpr hpos)
  refine (escStartinput_core hac).bind fun r w₃ h₃ => ?_
  rcases h₃ with ⟨rfl, hc⟩ | ⟨rfl, h₃, hsm⟩ | ⟨rfl, hc⟩
  · rw [when, if_pos rfl]
    refine onBus_enable2_core.bind fun _ w₄ h₄ => ?_
    rw [wlp_pure, h₄]
    exact .accepted pdo2.size rfl hc.enable
  · rw [when, if_neg hac.symm]
    simp only [wlp_bind, wlp_pure]
    refine .smRefused pdo2.size rfl h₃ ?_
    rintro ⟨pdo2', pdo3', hrun2', -, hrun3', -, hsm'⟩
    rw [hrun2] at hrun2'
    rw [hrun3] at hrun3'
    cases hrun2'
    cases hrun3'
    exact absurd hsm' (by rw [hsm]; decide)
  · rw [when, if_neg hac.symm]
    simp only [wlp_bind, wlp_pure]
    exact .dcRefused pdo2.size rfl hc

end Soes
