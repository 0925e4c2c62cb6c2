import Soes.Properties.SafeState
import Soes.Stack.RegisterFile

/-!
# Output sessions

The two watchdogs of `DIG_process` keep variables of their own from call to call: the latched state
and the quiet count of the hardware check, and the count of the software watchdog.  What they ought
to do is a matter of *output sessions*, the periods in which `APPSTATE_OUTPUT` is set, and of what
the watchdog calls of a session have seen.  A run of the free-running loop is recorded here together
with that history (`FreeRun`).

`ecat_slv` is `ecat_slv_poll`, the watchdog call of `DIG_process` and the rest of `DIG_process`
(`ecatSlv_steps`).  These three in turn, with moves of the surroundings anywhere between them, are
the steps of a run.
-/

namespace Soes

open Program

variable {σ : Type} {sys : System σ} {n : ℕ} {w w' : World σ} {α : Type}

/-! ## The steps of the loop -/

/-- The watchdog call of `DIG_process`. -/
def digWatchdog : Stack σ Unit := digProcess digProcessWdFlag

/-- The rest of `DIG_process`, for `ecat_slv`. -/
def digExchange : Stack σ Unit :=
  digProcess (digProcessRxpdoFlag ||| digProcessAppHookFlag ||| digProcessTxpdoFlag)

/-- A step of the loop. -/
inductive LoopStep (σ : Type) where
  /-- The master, the bus or the application changes what the stack does not own. -/
  | move (outside : σ) (alEvent : Dword) (bytes : ByteStore)
  /-- `ecat_slv_poll`. -/
  | poll
  /-- The watchdog call of `DIG_process`. -/
  | watchdog
  /-- The rest of `DIG_process`. -/
  | exchange

/-- The code of a step. -/
def LoopStep.run : LoopStep σ → Stack σ Unit
  | .move outside alEvent bytes => (Call.move outside alEvent bytes).run
  | .poll => ecatSlvPoll
  | .watchdog => digWatchdog
  | .exchange => digExchange

/-- The part of `ecat_slv` that is next. -/
inductive LoopPhase where
  /-- `ecat_slv_poll`. -/
  | poll
  /-- The watchdog call. -/
  | watchdog
  /-- The rest of `DIG_process`. -/
  | exchange

/-- What is next after a step, if the step is possible. -/
def LoopStep.next : LoopStep σ → LoopPhase → Option LoopPhase
  | .move _ _ _, phase => some phase
  | .poll, .poll => some .watchdog
  | .watchdog, .watchdog => some .exchange
  | .exchange, .exchange => some .poll
  | _, _ => none

/-! ## Sessions -/

/-- `APPSTATE_OUTPUT` is set. -/
def World.outputs (w : World σ) : Bool := w.al.appState &&& appstateOutput ≠ 0

/-- An SM2 event is pending. -/
def World.sm2Event (w : World σ) : Bool := w.alEvent &&& escregAleventSm2 ≠ 0

/-- What the master has made of the watchdog configuration: whether the process data time and the
divider are both non-zero, and whether an SM2 event is pending once they have been read. -/
def World.wdConfig (sys : System σ) (w : World σ) : Bool × Bool :=
  let divider := sys.hal.read w.outside w.alEvent escregWddivider 2
  let pdtime := sys.hal.read divider.outside divider.alEvent escregWdtimepdata 2
  (pdtime.data.word 0 ≠ 0 ∧ divider.data.word 0 ≠ 0, pdtime.alEvent &&& escregAleventSm2 ≠ 0)

/-- Register 0x0440 reads expired. -/
def World.wdExpired (sys : System σ) (w : World σ) : Bool :=
  ((sys.hal.read w.outside w.alEvent escregWdstatus 2).data.word 0).setWidth 8 &&&
    escregWdstatusOk = 0

/-- What the watchdog calls of a session have seen. -/
structure OutputSession where
  /-- At the first call: whether the hardware watchdog was armed. -/
  armed : Option Bool
  /-- At each call, the last one first: whether there was an SM2 event. -/
  sm2Events : List Bool
  deriving DecidableEq, Repr

/-- A session that no watchdog call has seen yet. -/
def OutputSession.begun : OutputSession := ⟨none, []⟩

/-- One more watchdog call. -/
def OutputSession.called (sys : System σ) (w : World σ) (c : OutputSession) : OutputSession :=
  match c.armed with
  | none => ⟨some (w.wdConfig sys).1, (w.wdConfig sys).2 :: c.sm2Events⟩
  | some armed => ⟨some armed, w.sm2Event :: c.sm2Events⟩

/-- The software counter is in charge of a watchdog call. -/
def World.softwareInCharge (sys : System σ) (w : World σ) : Bool :=
  sys.cfg.useHwWatchdog = false ∨ w.outputsGuarded ∧ (w.wd.hwWdState = .disabled ∨
    w.wd.hwWdState = .unchecked ∧ (w.wdConfig sys).1 = false)

/-- A run, and its history. -/
structure FreeRun (σ : Type) where
  world : World σ
  phase : LoopPhase
  session : Option OutputSession
  seen : Bool
  /-- Whether the software watchdog has counted since its counter was last reloaded. -/
  counted : Bool
  /-- Whether it had done so when the session began, and its counter has not been reloaded since. -/
  spent : Bool

/-- A step leaves the slave as `w'`, and the session, should it go on, as `c`.  `APP_safe_state` is
called when `APPSTATE_OUTPUT` is cleared, so that a session goes on if it was not called. -/
def FreeRun.after (s : FreeRun σ) (phase : LoopPhase) (w' : World σ) (c : Option OutputSession) :
    FreeRun σ :=
  let goesOn := s.world.outputs ∧ w'.al.safeStates = s.world.al.safeStates
  { s with
    world := w'
    phase := phase
    session := if w'.outputs then some (if goesOn then c.getD .begun else .begun) else none
    spent := if goesOn then s.spent else s.counted }

/-- What a step adds to the history, before the session is looked at. -/
def FreeRun.noted (sys : System σ) (s : FreeRun σ) : LoopStep σ → FreeRun σ
  | .watchdog => { s with
      seen := s.world.outputs
      counted := if s.world.softwareInCharge sys then s.world.outputs else s.counted }
  | .exchange =>
      if s.world.outputs ∧ s.world.sm2Event then { s with counted := false, spent := false } else s
  | _ => s

/-- The session after a step, should it go on. -/
def FreeRun.continued (sys : System σ) (s : FreeRun σ) : LoopStep σ → Option OutputSession
  | .watchdog => s.session.map (·.called sys s.world)
  | _ => s.session

/-- A step that finishes, with a bound on the iterations of its loops. -/
def FreeRun.exec (sys : System σ) (s : FreeRun σ) (l : ℕ × LoopStep σ) : Option (FreeRun σ) :=
  match l.2.next s.phase, l.2.run sys l.1 s.world with
  | some phase, .ok () w' => some ((s.noted sys l.2).after phase w' (s.continued sys l.2))
  | _, _ => none

/-- A run of the loop begins when `ecat_slv_init` is done. -/
def FreeRun.Starts (sys : System σ) (s : FreeRun σ) : Prop :=
  Initialised sys s.world ∧ s.phase = .poll ∧ s.session = none ∧ s.seen = false ∧
    s.counted = false ∧ s.spent = false

/-- The runs whose steps meet a condition. -/
def FreeRun.Reached (sys : System σ) (ok : FreeRun σ → ℕ × LoopStep σ → Prop) (s : FreeRun σ) :
    Prop :=
  Reachable (FreeRun.Starts sys) (fun s l s' => s.exec sys l = some s') ok s

/-- `ALERR_WATCHDOG` is raised by the code that leads from `w` to `w'`: outputs are stopped, and
the AL status and its code say so. -/
structure Raises (w w' : World σ) : Prop where
  stopped : w.al.safeStates < w'.al.safeStates
  status : w'.al.alStatus = (escSafeop ||| escError).setWidth 16
  code : w'.al.alError = alerrWatchdog

/-- Setting an error writes the AL status and its code, whatever the hooks do. -/
lemma escALstatusgotoerror_sets {status : Byte} (hbelow : status &&& escOp = 0)
    (errornumber : Word) : wlp sys n (escALstatusgotoerror status errornumber)
      (fun _ w' => w'.al.alStatus = status.setWidth 16 ∧ w'.al.alError = errornumber) w := by
  have onBusAl {m : OnBus σ Unit} {w : World σ} :
      wlp sys n (onBus m) (fun _ w' => w'.al = w.al) w :=
    (wlp_within _ _ _ _).mpr fun _ _ _ => rfl
  rw [escALstatusgotoerror, if_neg (not_not.mpr hbelow), wlp_ask_bind, wlp_get_bind, wlp_bind,
    wlp_callStateChangeHook_answer, wlp_get_bind]
  refine wlp.bind (P := fun _ _ => True) (fun _ _ _ => trivial) fun _ w₁ _ => ?_
  rw [wlp_bind, wlp_modifyAl, wlp_bind, escALerror, wlp_bind, wlp_modifyAl]
  refine onBusAl.mono fun _ w₂ h₂ => ?_
  rw [wlp_bind, escALstatus, wlp_bind, wlp_modifyAl]
  refine onBusAl.mono fun _ w₃ h₃ => ?_
  rw [wlp_bind, wlp_callStateChangeHook_answer, wlp_pure, World.hooked_al, h₃]
  exact ⟨rfl, congrArg AlState.alError h₂⟩

/-- A watchdog that trips raises `ALERR_WATCHDOG`. -/
lemma watchdog_raises (hout : w.outputs = true) :
    wlp sys n (escALstatusgotoerror (escSafeop ||| escError) alerrWatchdog)
      (fun _ w' => Raises w w' ∧ w'.wd = w.wd) w :=
  ((escALstatusgotoerror_drops (by decide) (of_decide_eq_true hout) _).and
    ((escALstatusgotoerror_sets (by decide) _).and
      (escALstatusgotoerror_keepsRest _ _ sys n w))).mono fun _ _ h =>
        ⟨⟨h.1, h.2.1.1, h.2.1.2⟩, h.2.2.wd⟩

/-! ## What the steps do to the variables of the watchdogs -/

/-- The variables of the hardware check. -/
def World.hw (w : World σ) : HwWdState × ℕ := (w.wd.hwWdState, w.wd.hwWdQuiet)

/-- The variables of both watchdogs are the same. -/
structure SameCounts (w w' : World σ) : Prop where
  hw : w'.hw = w.hw
  watchdog : w'.wd.watchdog = w.wd.watchdog

instance : Std.Refl (SameCounts (σ := σ)) := ⟨fun _ => ⟨rfl, rfl⟩⟩

instance : IsTrans (World σ) SameCounts :=
  ⟨fun _ _ _ h h' => ⟨h'.hw.trans h.hw, h'.watchdog.trans h.watchdog⟩⟩

/-- The code leaves the variables of the watchdogs alone. -/
abbrev KeepsCounts (m : Stack σ α) : Prop := Keeps SameCounts m

lemma SameCounts.of_wd (h : w'.wd = w.wd) : SameCounts w w' :=
  ⟨by rw [World.hw, World.hw, h], by rw [h]⟩

lemma KeepsRest.counts {m : Stack σ α} (hm : KeepsRest m) : KeepsCounts m := fun sys n w =>
  (hm sys n w).mono fun _ _ h => .of_wd h.wd

lemma KeepsSlave.counts {m : Stack σ α} (hm : KeepsSlave m) : KeepsCounts m := fun sys n w =>
  (hm sys n w).mono fun _ _ h => .of_wd h.wd

lemma countsRelation (sys : System σ) : EscRelation sys SameCounts :=
  ⟨fun _ _ h => .of_wd h.wd, fun _ => ⟨rfl, rfl⟩, fun _ _ _ _ _ => ⟨rfl, rfl⟩,
    fun _ => ⟨rfl, rfl⟩⟩

lemma ecatSlvPoll_counts : KeepsCounts (σ := σ) ecatSlvPoll := by
  have eep : KeepsCounts (σ := σ) callEepHandler := by
    refine .ask_bind fun sys => ?_
    cases sys.cfg.escHwEepHandler with
    | none => exact .pure _
    | some call => exact .modify fun _ => ⟨rfl, rfl⟩
  have state : KeepsCounts (σ := σ) escState := fun sys => escState_keeps (countsRelation sys)
  have sm : KeepsCounts (σ := σ) escSmActEvent := fun sys =>
    escSmActEvent_keeps (countsRelation sys)
  exact (onBus_keepsRest _).counts.bind fun _ => state.bind fun _ => sm.bind fun _ =>
    escMbxprocess_slave.counts.bind fun _ =>
      (Keeps.when ((onCoe_keepsSlave _).counts.bind fun _ =>
        (onMailbox_keepsSlave _).counts)).bind fun _ => eep

lemma callApp_counts (call : AppCall σ) : KeepsCounts (callApp call) := .modify fun _ => ⟨rfl, rfl⟩

lemma readRxpdo_counts : KeepsCounts (σ := σ) readRxpdo :=
  .ask_bind fun _ => .get_bind fun _ => (onBus_keepsRest _).counts.bind fun _ =>
    .modify fun _ => ⟨rfl, rfl⟩

lemma rxpdoReadSm2_counts : KeepsCounts (σ := σ) rxpdoReadSm2 := by
  refine .ask_bind fun sys => ?_
  cases sys.cfg.rxpdoOverride with
  | some call => exact callApp_counts call
  | none =>
      exact readRxpdo_counts.bind fun _ => .when (.get_bind fun _ => (Keeps.lift _).bind fun _ =>
        .modify fun _ => ⟨rfl, rfl⟩)

lemma digProcessTxpdo_counts : KeepsCounts (σ := σ) digProcessTxpdo := by
  have pack : KeepsCounts (σ := σ) txpdoWriteSm3 := by
    refine .ask_bind fun sys => ?_
    cases sys.cfg.txpdoOverride with
    | some call => exact callApp_counts call
    | none =>
        exact (Keeps.when (.get_bind fun _ => (Keeps.lift _).bind fun _ =>
          .modify fun _ => ⟨rfl, rfl⟩)).bind fun _ => .get_bind fun _ =>
            (onBus_keepsRest _).counts
  exact .get_bind fun _ => .when (.ask_bind fun _ => (callApp_counts _).bind fun _ => pack)

/-- The exchange of process data reloads the software watchdog if there are new outputs. -/
lemma digExchange_counts : wlp sys n digExchange (fun _ w' => w'.hw = w.hw ∧
    w'.wd.watchdog = if w.outputs ∧ w.sm2Event then sys.cfg.watchdogCnt else w.wd.watchdog) w := by
  have rest : KeepsCounts (σ := σ) (do
      when ((digProcessRxpdoFlag ||| digProcessAppHookFlag ||| digProcessTxpdoFlag) &&&
        digProcessAppHookFlag ≠ 0) (callHook (← ask).cfg.applicationHook)
      when ((digProcessRxpdoFlag ||| digProcessAppHookFlag ||| digProcessTxpdoFlag) &&&
        digProcessTxpdoFlag ≠ 0) digProcessTxpdo) :=
    .ask_bind fun _ => (Keeps.when (callHook_keepsRest _).counts).bind fun _ =>
      .when digProcessTxpdo_counts
  have outputs : wlp sys n digProcessRxpdo (fun _ w' => w'.hw = w.hw ∧ w'.wd.watchdog =
      if w.outputs ∧ w.sm2Event then sys.cfg.watchdogCnt else w.wd.watchdog) w := by
    rw [digProcessRxpdo, wlp_ask_bind, wlp_get_bind]
    refine .when (fun hevent => ?_) fun hnot => ?_
    · refine (wlp_ite _ _ _ _).mpr ⟨fun hout => ?_, fun hnot => ?_⟩
      · refine (rxpdoReadSm2_counts sys n w).bind fun _ w₁ h₁ => ?_
        rw [wlp_bind, modifyWd, wlp_modify]
        refine (callApp_counts _ sys n _).mono fun _ w₂ h₂ => ⟨h₂.hw.trans h₁.hw, ?_⟩
        rw [if_pos ⟨decide_eq_true hout, decide_eq_true hevent⟩, h₂.watchdog]
      · refine (readRxpdo_counts sys n w).mono fun _ w₁ h₁ => ⟨h₁.hw, ?_⟩
        rw [if_neg fun h => hnot (of_decide_eq_true h.1), h₁.watchdog]
    · exact ⟨rfl, by rw [if_neg fun h => hnot (of_decide_eq_true h.2)]⟩
  refine wlp.bind (P := fun _ w' => w' = w) (.when (fun h => absurd h (by decide)) fun _ => rfl)
    fun _ w₁ h₁ => ?_
  rw [h₁, when, if_pos (by decide)]
  refine outputs.bind fun _ w₂ h₂ => (rest sys n w₂).mono fun _ w₃ h₃ => ?_
  exact ⟨h₃.hw.trans h₂.1, h₃.watchdog.trans h₂.2⟩

/-- The watchdog call of `DIG_process` is the two watchdogs. -/
lemma digWatchdog_eq : (digWatchdog : Stack σ Unit) = digProcessWd := by
  have hrest : ∀ flag : Byte, digProcessWdFlag &&& flag = 0 → ∀ m : Stack σ Unit,
      when (digProcessWdFlag &&& flag ≠ 0) m = pure () := fun _ hflag _ =>
    if_neg (not_not.mpr hflag)
  have hhook : (do
      let sys ← (ask : Stack σ (System σ))
      when (digProcessWdFlag &&& digProcessAppHookFlag ≠ 0) (callHook sys.cfg.applicationHook)
      when (digProcessWdFlag &&& digProcessTxpdoFlag ≠ 0) digProcessTxpdo) = pure () := by
    simp only [hrest _ (by decide : digProcessWdFlag &&& digProcessAppHookFlag = 0),
      hrest _ (by decide : digProcessWdFlag &&& digProcessTxpdoFlag = 0)]
    rfl
  rw [digWatchdog, digProcess, hrest digProcessRxpdoFlag (by decide), when, if_pos (by decide)]
  simp only [pure_bind, hhook]
  exact bind_pure _

/-- `ecat_slv_init` loads the counter, and leaves outputs off. -/
lemma Initialised.watchdogs (h : Initialised sys w) : w.outputs = false ∧
    w.hw = (.unchecked, 0) ∧ w.wd.watchdog = sys.cfg.watchdogCnt := by
  have hout : w.outputs = false := by
    have happ : w.al.appState = 0 := h.shows.app
    rw [World.outputs, happ]
    decide
  refine ⟨hout, ?_⟩
  obtain ⟨n, outside, alEvent, bytes, hrun⟩ := h
  refine (?_ : wlp sys n ecatSlvInit (fun r w' => r = true → w'.hw = (.unchecked, 0) ∧
    w'.wd.watchdog = sys.cfg.watchdogCnt) (World.zeroed outside alEvent bytes)) true w hrun rfl
  rw [ecatSlvInit, wlp_ask_bind, wlp_bind, modifyWd, wlp_modify, wlp_bind, wlp_transact]
  refine (wlp_ite _ _ _ _).mpr ⟨fun _ => (wlp_pure _ _).mpr fun hfail => (by cases hfail),
    fun _ => ?_⟩
  refine ((waitDlstatus_keepsRest _).counts sys n _).bind fun up w₁ h₁ => ?_
  refine (wlp_ite _ _ _ _).mpr ⟨fun _ => ?_, fun _ => (wlp_pure _ _).mpr fun hfail =>
    (by cases hfail)⟩
  refine (initStop_keeps (countsRelation sys) n w₁).bind fun _ w₂ h₂ => ?_
  refine (coeInitDefaultValues_keepsRest.counts sys n w₂).bind fun _ w₃ h₃ => ?_
  refine (wlp_pure _ _).mpr fun _ => ⟨?_, ?_⟩
  · rw [h₃.hw, h₂.hw, h₁.hw]
    rfl
  · rw [h₃.watchdog, h₂.watchdog, h₁.watchdog]

/-- `ecat_slv` is three steps. -/
lemma ecatSlv_steps : (ecatSlv : Stack σ Unit) = (do
    LoopStep.poll.run
    LoopStep.watchdog.run
    LoopStep.exchange.run) := by
  have hdig : (digProcess (digProcessWdFlag ||| digProcessRxpdoFlag ||| digProcessAppHookFlag |||
      digProcessTxpdoFlag) : Stack σ Unit) = (do digWatchdog; digExchange) := by
    simp only [digWatchdog, digExchange, digProcess, bind_assoc]
    rfl
  rw [ecatSlv, hdig]
  rfl

/-! ## Executable runs -/

instance (w w' : World σ) : Decidable (Raises w w') :=
  decidable_of_iff (w.al.safeStates < w'.al.safeStates ∧
      w'.al.alStatus = (escSafeop ||| escError).setWidth 16 ∧ w'.al.alError = alerrWatchdog)
    ⟨fun h => ⟨h.1, h.2.1, h.2.2⟩, fun h => ⟨h.stopped, h.status, h.code⟩⟩

/-- Some code finishes, and raises `ALERR_WATCHDOG`. -/
def raisesBy (sys : System σ) (m : Stack σ α) (w : World σ) : Bool :=
  match m sys 8 w with
  | .ok _ w' => decide (Raises w w')
  | _ => false

lemma exists_of_raisesBy {m : Stack σ α} (h : raisesBy sys m w = true) :
    ∃ a w', m sys 8 w = .ok a w' ∧ Raises w w' := by
  rw [raisesBy] at h
  split at h
  case h_1 a w' hrun => exact ⟨a, w', hrun, of_decide_eq_true h⟩
  case h_2 => cases h

/-- Start the loop, and take some steps that meet a condition. -/
def freeRun (sys : System σ) (ok : FreeRun σ → ℕ × LoopStep σ → Prop)
    [∀ s l, Decidable (ok s l)] (outside : σ) (alEvent : Dword) (bytes : ByteStore)
    (ls : List (ℕ × LoopStep σ)) : Option (FreeRun σ) :=
  (startUp sys 8 outside alEvent bytes).bind fun w =>
    runSteps (fun s l => if ok s l then s.exec sys l else none) ls
      ⟨w, .poll, none, false, false, false⟩

/-- What an executable run ends in is reached. -/
lemma freeRun_reached {ok : FreeRun σ → ℕ × LoopStep σ → Prop} [∀ s l, Decidable (ok s l)]
    {outside : σ} {alEvent : Dword} {bytes : ByteStore} {ls : List (ℕ × LoopStep σ)}
    {s : FreeRun σ} (h : freeRun sys ok outside alEvent bytes ls = some s) :
    FreeRun.Reached sys ok s := by
  obtain ⟨w, hstart, hrun⟩ := Option.bind_eq_some_iff.mp h
  have hinit : Initialised sys w := by
    rw [startUp] at hstart
    split at hstart
    case h_1 w₁ hinit =>
      cases hstart
      exact ⟨8, outside, alEvent, bytes, hinit⟩
    case h_2 => cases hstart
  refine runSteps_reachable (fun s l s' hexec => ?_) ls
    (.start ⟨hinit, rfl, rfl, rfl, rfl, rfl⟩) hrun
  split at hexec
  case isTrue hok => exact ⟨hok, hexec⟩
  case isFalse => cases hexec

/-- The example chip, with the watchdog armed or not; register 0x0440 reads expired. -/
def watchdogChip (armed : Bool) (control : Word) (event : Dword) : ByteStore :=
  ((exampleChip control event 0).setWord escregWddivider (if armed then 2498 else 0)).setWord
    escregWdtimepdata (if armed then 1000 else 0)

/-- The master changes the chip, and `ecat_slv` runs once. -/
def loopCycle (armed : Bool) (control : Word) (event : Dword) : List (ℕ × LoopStep ByteStore) :=
  [(8, .move (watchdogChip armed control event) event fun _ => 0), (8, .poll), (8, .watchdog),
    (8, .exchange)]

/-- The way to OP. -/
def loopToOp (armed : Bool) : List (ℕ × LoopStep ByteStore) :=
  loopCycle armed 2 escregAleventControl ++ loopCycle armed 4 escregAleventControl ++
    loopCycle armed 8 escregAleventControl

end Soes
