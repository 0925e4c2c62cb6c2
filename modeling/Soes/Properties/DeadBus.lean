import Soes.Properties.SafeState

/-!
# Leaving output operation on a dead bus

When a hardware wait runs out of time the port latches a fault: from then on every read delivers
zeros and every write does nothing.  `ESC_SMdisable` writes its bit and reads it back until it is
set, so on such a bus it goes round forever (`escSMdisable_faulted`), and with it every exit from
output operation that reaches it.  `drops_iff` says exactly which exits still end, with outputs
dropped.  Nothing is assumed of the state change hooks here, so one of them may talk `ESC_state`
out of the transition it was about to make.
-/

namespace Soes

open Program

variable {σ : Type} {sys : System σ} {hal : Hal σ} {n : ℕ} {w : World σ} {b : Bus σ}

/-- The port has latched a fault: reads deliver zeros, writes do nothing, and neither refreshes the
AL event word. -/
structure HalFaulted (hal : Hal σ) : Prop where
  read : ∀ o event address len, hal.read o event address len = ⟨fun _ => 0, event, o⟩
  write : ∀ o event address len data, (hal.write o event address len data).outside = o ∧
    (hal.write o event address len data).alEvent = event

/-- The code never finishes, whatever the bound on its loops. -/
abbrev NeverEnds {α : Type} (sys : System σ) (m : Stack σ α) (w : World σ) : Prop :=
  ∀ n, wlp sys n m (fun _ _ => False) w

/-- `ESC_SMdisable` never finishes on a dead bus: the bit it waits for reads as 0. -/
lemma escSMdisable_faulted (dead : HalFaulted hal) (k : Fin 4) :
    wlp hal n (escSMdisable k) (fun _ _ => False) b := by
  refine wlp.bind (wlp_true _) fun _ b₁ _ => wlp.bind (wlp_true _) fun _ b₂ _ => ?_
  refine wlp.bind (P := fun _ _ => False) ?_ fun _ _ h => h.elim
  refine wlp_doWhile (fun _ => True) trivial fun b₃ _ => ?_
  simp [escSMreadpdi, escRead, updateSm, SyncManagers.update, dead.read]

lemma escStopoutput_faulted (dead : HalFaulted sys.hal) : NeverEnds sys escStopoutput w := by
  intro n
  refine wlp.bind (wlp_true _) fun _ w₁ _ => ?_
  refine wlp.bind (P := fun _ _ => False) ?_ fun _ _ h => h.elim
  rw [wlp_within]
  exact escSMdisable_faulted dead 2

lemma escStopmbx_faulted (dead : HalFaulted sys.hal) : NeverEnds sys escStopmbx w := by
  intro n
  rw [escStopmbx, wlp_ask_bind]
  refine wlp.bind (wlp_true _) fun _ w₁ _ => ?_
  refine wlp.bind (P := fun _ _ => False) ?_ fun _ _ h => h.elim
  rw [wlp_within]
  exact escSMdisable_faulted dead 0

/-- On a dead bus the mailbox SyncManagers are never as configured, and refusing them disables
them. -/
lemma escCheckmbx_faulted (dead : HalFaulted hal) (mb0 mb1 : SmCfg) (state : Byte) :
    wlp hal n (escCheckmbx mb0 mb1 state) (fun _ _ => False) b := by
  have refused : mbxSmRefused (.ofBytes fun _ => 0) mb0 = true := by
    simp [mbxSmRefused, EscSm.ofBytes, EscSm.ecsm]
  simp only [escCheckmbx, readSm, escRead, dead.read, wlp_bind, wlp_transact, updateSm, wlp_modify,
    wlp_pure, refused, if_true, setSmTestresult]
  exact (escSMdisable_faulted dead 0).mono fun _ _ h => h.elim

/-! ## The exits -/

/-- The exits from output operation. -/
inductive Exit where
  /-- `ESC_ALstatusgotoerror`. -/
  | error (status : Byte) (errornumber : Word)
  /-- `ESC_state`. -/
  | state
  /-- `ESC_sm_act_event`. -/
  | smActEvent
  /-- The final stop of `ecat_slv_init`. -/
  | finalStop
  deriving DecidableEq, Repr

/-- The code of an exit. -/
def Exit.run : Exit → Stack σ Unit
  | .error status errornumber => escALstatusgotoerror status errornumber
  | .state => escState
  | .smActEvent => escSmActEvent
  | .finalStop => initStop

/-- The exit is taken: an error below OP is set, a transition out of OP is made, the SyncManagers
are checked, or the stack is initialised. -/
def Exit.Taken (sys : System σ) (w : World σ) : Exit → Prop
  | .error status _ => status &&& escOp = 0
  | .state => w.transits sys ∧ leavesOp (w.transition sys).1
  | .smActEvent => w.smChecked
  | .finalStop => True

/-- The exit ends, and if outputs were active, `APP_safe_state` has been called. -/
def Exit.Drops (sys : System σ) (w : World σ) (e : Exit) : Prop :=
  ∃ n w', e.run sys n w = .ok () w' ∧
    (w.al.appState &&& appstateOutput ≠ 0 → w.al.safeStates < w'.al.safeStates)

/-- `ESC_state` no longer sees that it is in OP: the request is unknown, and a hook has replaced the
AL status. -/
def World.forgetsOp (sys : System σ) (w : World σ) : Prop :=
  (w.transition sys).1 ∉ switchLabels ∧ (w.transition sys).2 ≠ escOp

/-- The exit has nothing to disable: outputs are not active, and it is that of an error, or that of
`ESC_state` when it no longer sees that it is in OP. -/
def Exit.Spares (sys : System σ) (w : World σ) (e : Exit) : Prop :=
  w.al.appState &&& appstateOutput = 0 ∧
    match e with
    | .error _ _ => True
    | .state => w.forgetsOp sys
    | .smActEvent => False
    | .finalStop => False

/-! ## Exits that never end -/

lemma escALstatusgotoerror_faulted (dead : HalFaulted sys.hal) {status : Byte}
    (hbelow : status &&& escOp = 0) (hout : w.al.appState &&& appstateOutput ≠ 0)
    (errornumber : Word) : NeverEnds sys (escALstatusgotoerror status errornumber) w := by
  intro n
  rw [escALstatusgotoerror, if_neg (not_not.mpr hbelow), wlp_ask_bind, wlp_get_bind, wlp_bind,
    wlp_callStateChangeHook_answer, wlp_get_bind, World.hooked_al, when, if_pos hout]
  exact (escStopoutput_faulted dead n).bind fun _ _ h => h.elim

lemma escState_faulted (dead : HalFaulted sys.hal) (h : w.transits sys)
    (hleaves : leavesOp (w.transition sys).1) (hsees : ¬ w.forgetsOp sys) :
    NeverEnds sys escState w := by
  intro n
  rw [wlp, escState_transition h]
  refine wlp.bind (P := fun _ _ => False) ?_ fun _ _ h => h.elim
  exact escStateSwitch_stops hleaves hsees _ fun f w₁ _ _ =>
    (escStopoutput_faulted dead n).bind fun _ _ h => h.elim

lemma escSmActEvent_faulted (dead : HalFaulted sys.hal) (h : w.smChecked) :
    NeverEnds sys escSmActEvent w := by
  intro n
  obtain ⟨hevent, hnot, hboot, hrun⟩ := h
  rw [escSmActEvent, wlp_get_bind, when, if_pos hevent]
  change wlp sys n (if w.statusByte &&& escregAlAllbutinitmask ≠ 0 ∧ w.statusByte ≠ escBoot ∧
    w.mb.mbxRun then _ else _) _ w
  rw [if_pos ⟨hnot, hboot, hrun⟩]
  refine wlp.bind (P := fun _ _ => False) ?_ fun _ _ h => h.elim
  rw [wlp_within]
  exact escCheckmbx_faulted dead _ _ _

lemma initStop_faulted (dead : HalFaulted sys.hal) : NeverEnds sys initStop w := fun n =>
  wlp.bind (wlp_true _) fun _ _ _ => wlp.bind (wlp_true _) fun _ _ _ =>
    (escStopmbx_faulted dead n).bind fun _ _ h => h.elim

/-! ## Exits that end -/

/-- The code ends, and `APP_safe_state` is not called. -/
def EndsQuietly {α : Type} (sys : System σ) (m : Stack σ α) : Prop :=
  ∀ n w, wp sys n m (fun _ w' => w'.al.safeStates = w.al.safeStates) w

lemma EndsQuietly.bind {α β : Type} {m : Stack σ α} {f : α → Stack σ β} (hm : EndsQuietly sys m)
    (hf : ∀ a, EndsQuietly sys (f a)) : EndsQuietly sys (m >>= f) := fun n w =>
  (hm n w).bind fun a w₁ h₁ => (hf a n w₁).mono fun _ _ h₂ => h₂.trans h₁

lemma EndsQuietly.get_bind {α : Type} {f : World σ → Stack σ α}
    (hf : ∀ w, EndsQuietly sys (f w)) : EndsQuietly sys (get >>= f) := fun n w => by
  rw [wp_bind, wp_get]
  exact hf w n w

lemma EndsQuietly.pure {α : Type} (a : α) : EndsQuietly sys (pure a : Stack σ α) := fun _ _ =>
  (wp_pure _ _).mpr rfl

lemma escALerror_quiet (errornumber : Word) : EndsQuietly sys (escALerror errornumber) :=
  fun _ _ => by simp [escALerror, modifyAl, escWrite]

lemma escALstatus_quiet (status : Byte) : EndsQuietly sys (escALstatus status) :=
  fun _ _ => by simp [escALstatus, modifyAl, escWrite]

lemma callStateChangeHook_al (hook : Option (σ → Byte → Byte → σ × Byte × Byte)) (as an : Byte) :
    wp sys n (callStateChangeHook hook as an) (fun _ w' => w'.al = w.al) w := by
  rw [wp_callStateChangeHook_answer, World.hooked_al]

lemma callStateChangeHook_quiet (hook : Option (σ → Byte → Byte → σ × Byte × Byte))
    (as an : Byte) : EndsQuietly sys (callStateChangeHook hook as an) := fun _ _ =>
  (callStateChangeHook_al hook as an).mono fun _ _ h => congrArg AlState.safeStates h

lemma escCheckIdRequest_quiet (alControl : Word) (an : Byte) :
    EndsQuietly sys (onBus (escCheckIdRequest alControl an)) := fun _ _ => by
  simp [escCheckIdRequest, escRead]

lemma deviceId_quiet : EndsQuietly sys deviceId := by
  intro n w
  rw [deviceId, wp_bind, wp_ask]
  cases sys.cfg.getDeviceId <;> simp [escRead]

lemma escLoadDeviceId_quiet : EndsQuietly sys escLoadDeviceId := by
  refine deviceId_quiet.bind fun id => ?_
  split
  · exact (escALerror_quiet id).bind fun _ => .pure _
  · exact .pure _

lemma escStateFinish_quiet (as an : Byte) : EndsQuietly sys (escStateFinish as an) := by
  intro n w
  rw [escStateFinish, wp_bind, wp_ask]
  refine (callStateChangeHook_quiet _ _ _).bind (fun p => .get_bind fun w₁ => ?_) n w
  refine .bind ?_ fun _ => .get_bind fun w₂ => ?_
  · rw [when]
    split
    · exact escALerror_quiet _
    · exact .pure _
  refine (escCheckIdRequest_quiet _ _).bind fun id => .bind ?_ fun _ => escALstatus_quiet _
  split
  · exact escLoadDeviceId_quiet
  · exact .pure _

/-- Setting an error finds nothing to disable if outputs are not active. -/
lemma escALstatusgotoerror_spared {status : Byte} (hbelow : status &&& escOp = 0)
    (hout : w.al.appState &&& appstateOutput = 0) (errornumber : Word) (n : ℕ) :
    wp sys n (escALstatusgotoerror status errornumber)
      (fun _ w' => w'.al.safeStates = w.al.safeStates) w := by
  rw [escALstatusgotoerror, if_neg (not_not.mpr hbelow), wp_bind, wp_ask, wp_bind, wp_get]
  refine (callStateChangeHook_al _ _ _).bind fun p w₁ h₁ => ?_
  rw [wp_bind, wp_get, h₁, when, if_neg (not_not.mpr hout), ← h₁]
  refine ((EndsQuietly.pure ()).bind fun _ => .bind ?_ fun _ => (escALerror_quiet _).bind fun _ =>
    (escALstatus_quiet _).bind fun _ => (callStateChangeHook_quiet _ _ _).bind fun _ => .pure _)
    n w₁
  exact fun _ _ => (wp_modify _ _).mpr rfl

/-- An unknown request in a state `ESC_state` does not see to be OP is refused without stopping
anything. -/
lemma escState_forgotten (h : w.transits sys) (hleaves : leavesOp (w.transition sys).1)
    (hforgets : w.forgetsOp sys) (n : ℕ) :
    wp sys n escState (fun _ w' => w'.al.safeStates = w.al.safeStates) w := by
  obtain ⟨hunknown, hnot⟩ := hforgets
  have hsafeop : (w.transition sys).1 ≠ escSafeop := by
    intro heq
    rw [leavesOp, heq] at hleaves
    exact absurd hleaves.1 (by decide)
  have hal : (w.hookCalled sys).al.safeStates = w.al.safeStates := by
    rw [World.hookCalled, World.hooked_al]
    rfl
  rw [wp, escState_transition h, escStateSwitch_default hunknown, when, if_neg hnot, when,
    if_neg hsafeop, ← hal]
  exact ((EndsQuietly.pure ()).bind fun _ => (EndsQuietly.pure ()).bind fun _ =>
    (escALerror_quiet _).bind fun _ => .pure _).bind (fun _ => escStateFinish_quiet _ _) n _

/-! ## Which exits end -/

/-- A taken exit that has something to disable never ends on a dead bus. -/
lemma Exit.run_faulted (dead : HalFaulted sys.hal) {e : Exit} (htaken : e.Taken sys w)
    (hspares : ¬ e.Spares sys w) (hdrops : e.Drops sys w) : False := by
  obtain ⟨n, w', hrun, hsafe⟩ := hdrops
  cases e with
  | error status errornumber =>
      have hout : w.al.appState &&& appstateOutput ≠ 0 := fun h => hspares ⟨h, trivial⟩
      exact escALstatusgotoerror_faulted dead htaken hout errornumber n () w' hrun
  | state =>
      by_cases hforgets : w.forgetsOp sys
      · have hout : w.al.appState &&& appstateOutput ≠ 0 := fun h => hspares ⟨h, hforgets⟩
        obtain ⟨_, w'', hrun', hquiet⟩ := escState_forgotten htaken.1 htaken.2 hforgets n
        rw [Exit.run, hrun'] at hrun
        cases hrun
        exact absurd (hsafe hout) (by omega)
      · exact escState_faulted dead htaken.1 htaken.2 hforgets n () w' hrun
  | smActEvent => exact escSmActEvent_faulted dead htaken n () w' hrun
  | finalStop => exact initStop_faulted dead n () w' hrun

/-- **Leaving output operation on a dead bus**: an exit ends with outputs dropped exactly if it has
nothing to disable. -/
theorem drops_iff (dead : HalFaulted sys.hal) (e : Exit) (htaken : e.Taken sys w) :
    e.Drops sys w ↔ e.Spares sys w := by
  constructor
  · intro hdrops
    exact not_not.mp fun hspares => Exit.run_faulted dead htaken hspares hdrops
  · rintro ⟨hout, hexit⟩
    cases e with
    | error status errornumber =>
        obtain ⟨_, w', hrun, -⟩ := escALstatusgotoerror_spared (w := w) htaken hout errornumber 0
        exact ⟨0, w', hrun, fun h => absurd hout h⟩
    | state =>
        obtain ⟨_, w', hrun, -⟩ := escState_forgotten htaken.1 htaken.2 hexit 0
        exact ⟨0, w', hrun, fun h => absurd hout h⟩
    | smActEvent => exact hexit.elim
    | finalStop => exact hexit.elim

/-! ## The example device with its port faulted -/

/-- A port that has latched a fault. -/
def faultedPort : Hal σ where
  init o event := (o, event, true)
  read o event _ _ := ⟨fun _ => 0, event, o⟩
  write o event _ _ _ := ⟨fun _ => 0, event, o⟩

lemma faultedPort_faulted : HalFaulted (faultedPort (σ := σ)) := ⟨fun _ _ _ _ => rfl,
  fun _ _ _ _ _ => ⟨rfl, rfl⟩⟩

/-- The example device on a dead bus. -/
def deadSystem : System ByteStore := { exampleSystem with hal := faultedPort }

/-- The example device in this AL state, with this application state. -/
def deadWorld (alStatus : Word) (appState : Byte) : World ByteStore :=
  let w := World.zeroed (fun _ => 0) 0 fun _ => 0
  { w with al := { w.al with alStatus := alStatus, appState := appState } }

/-- The error of a watchdog. -/
def watchdogExit : Exit := .error (escSafeop ||| escError) alerrWatchdog

lemma watchdogExit_taken : watchdogExit.Taken sys w := (by decide : (0x14 : Byte) &&& escOp = 0)

theorem drops_only_without_outputs : watchdogExit.Drops deadSystem (deadWorld 4 appstateInput) ∧
    ¬ watchdogExit.Drops deadSystem (deadWorld 8 (appstateInput ||| appstateOutput)) :=
  ⟨(drops_iff faultedPort_faulted watchdogExit watchdogExit_taken).mpr ⟨by decide, trivial⟩,
    fun h => absurd ((drops_iff faultedPort_faulted watchdogExit watchdogExit_taken).mp h).1
      (by decide)⟩

/-- A watchdog error in OP never ends on a dead bus. -/
theorem outputs_held : ¬ ∀ (sys : System ByteStore) (w : World ByteStore) (e : Exit),
    HalFaulted sys.hal → e.Taken sys w → e.Drops sys w := by
  intro h
  have hdrops := h deadSystem (deadWorld 8 (appstateInput ||| appstateOutput)) watchdogExit
    faultedPort_faulted watchdogExit_taken
  exact Exit.run_faulted faultedPort_faulted watchdogExit_taken
    (fun hspares => absurd hspares.1 (by decide)) hdrops

end Soes
