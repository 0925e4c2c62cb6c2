import Soes.Properties.OutputSessions

/-!
# The hardware watchdog

The hardware check of `DIG_process` ought to trip exactly if, in the present output session, the
master had armed the watchdog, has sent outputs, has then been quiet for the number of calls the
check tolerates, and the ESC says that the watchdog has expired (`OutputSession.expires`).  The
check latches what it knows of the session in two variables of its own, and resets them when a call
sees outputs inactive.  The invariant of the runs is that the variables are a function of the
session's history (`HwTracks`), and it holds as long as such a call lies between any two sessions
(`SeenApart`).  A trip makes outputs inactive, but only after the check has looked: if the master
acknowledges the error and asks for OP at once, the variables of the old session are applied to the
new one.
-/

namespace Soes

open Program

variable {σ : Type} {sys : System σ} {n : ℕ} {w w' : World σ}

/-! ## The check -/

/-- The latched state, once the configuration has been read. -/
def World.hwLatched (sys : System σ) (w : World σ) : HwWdState :=
  if w.wd.hwWdState = .unchecked then (if (w.wdConfig sys).1 then .waiting else .disabled)
  else w.wd.hwWdState

/-- Whether the check sees an SM2 event. -/
def World.hwSawSm2 (sys : System σ) (w : World σ) : Bool :=
  if w.wd.hwWdState = .unchecked then (w.wdConfig sys).2 else w.sm2Event

/-- One call of the check. -/
inductive HwTurn (sys : System σ) (w : World σ) : Bool → World σ → Prop
  /-- There are no outputs to guard. -/
  | off {w' : World σ} : w.outputsGuarded = false → w'.hw = (.unchecked, 0) → w'.al = w.al →
      HwTurn sys w true w'
  /-- The master has disabled the watchdog. -/
  | disabled {w' : World σ} : w.outputsGuarded = true → w.hwLatched sys = .disabled →
      w'.hw = (.disabled, w.wd.hwWdQuiet) → w'.al = w.al → HwTurn sys w false w'
  /-- The watchdog was fed. -/
  | fed {w' : World σ} : w.outputsGuarded = true → w.hwLatched sys ≠ .disabled →
      w.hwSawSm2 sys = true → w'.hw = (.running, 0) → w'.al = w.al → HwTurn sys w true w'
  /-- Process data has gone quiet, and the check waits. -/
  | quiet {w' : World σ} : w.outputsGuarded = true → w.hwLatched sys ≠ .disabled →
      w.hwSawSm2 sys = false → w.wd.hwWdQuiet < hwWdQuietCycles →
      w'.hw = (w.hwLatched sys, w.wd.hwWdQuiet + 1) → w'.al = w.al → HwTurn sys w true w'
  /-- The check asks the ESC. -/
  | asked {w' : World σ} : w.outputsGuarded = true → w.hwLatched sys ≠ .disabled →
      w.hwSawSm2 sys = false → hwWdQuietCycles ≤ w.wd.hwWdQuiet →
      w'.hw = (w.hwLatched sys, w.wd.hwWdQuiet) →
      (w.wd.hwWdState ≠ .unchecked →
        (if w.wdExpired sys ∧ w.wd.hwWdState = .running then Raises w w' else w'.al = w.al)) →
      HwTurn sys w true w'

lemma wlp_onBus_escRead (address len : ℕ) (Q : ByteStore → World σ → Prop) :
    wlp sys n (onBus (escRead address len)) Q w ↔
      Q (sys.hal.read w.outside w.alEvent address len).data
        { w with
          outside := (sys.hal.read w.outside w.alEvent address len).outside
          alEvent := (sys.hal.read w.outside w.alEvent address len).alEvent } :=
  (wlp_within _ _ _ _).trans (wlp_transact _ _)

/-- Reading the watchdog status register. -/
lemma escWDstatus_reads : wlp sys n (onBus escWDstatus) (fun status w' => w'.al = w.al ∧
    w'.wd = w.wd ∧ (status &&& escregWdstatusOk = 0 ↔ w.wdExpired sys = true)) w := by
  refine (wlp_within _ _ _ _).mpr ?_
  rw [escWDstatus, wlp_bind, escRead, wlp_transact, wlp_pure]
  exact ⟨rfl, rfl, decide_eq_true_iff.symm⟩

/-- Reading the configuration latches the state. -/
lemma hwWatchdogConfigure_latches : wlp sys n hwWatchdogConfigure (fun _ w' =>
    w'.hw = (w.hwLatched sys, w.wd.hwWdQuiet) ∧ w'.sm2Event = w.hwSawSm2 sys ∧ w'.al = w.al ∧
      w'.wd.watchdog = w.wd.watchdog ∧ (w.wd.hwWdState ≠ .unchecked → w' = w)) w := by
  rw [hwWatchdogConfigure, wlp_get_bind]
  refine .when (fun hunchecked => ?_) fun hchecked => ?_
  · rw [World.hwLatched, World.hwSawSm2, if_pos hunchecked, if_pos hunchecked]
    rw [wlp_bind, wlp_onBus_escRead, wlp_bind, wlp_onBus_escRead, modifyWd, wlp_modify]
    refine ⟨?_, rfl, rfl, rfl, fun hne => absurd hunchecked hne⟩
    simp only [World.hw, World.wdConfig]
    congr 1
    split
    case isTrue hzero => rcases hzero with hzero | hzero <;> simp [hzero]
    case isFalse hzero => exact (if_pos (decide_eq_true (not_or.mp hzero))).symm
  · rw [World.hwLatched, World.hwSawSm2, if_neg hchecked, if_neg hchecked]
    exact ⟨rfl, rfl, rfl, rfl, fun _ => rfl⟩

/-- A watchdog that is not disabled is running once it is fed. -/
lemma hwLatched_fed (h : w.hwLatched sys ≠ .disabled) :
    (if w.hwLatched sys = .waiting then HwWdState.running else w.hwLatched sys) = .running := by
  by_cases hwaiting : w.hwLatched sys = .waiting
  · rw [if_pos hwaiting]
  rw [if_neg hwaiting]
  rw [World.hwLatched] at *
  split at *
  case isTrue => split at * <;> simp_all
  case isFalse hchecked =>
    cases hstate : w.wd.hwWdState <;> simp_all

/-- `hw_watchdog_check`; it leaves the count of the software watchdog alone. -/
lemma hwWatchdogCheck_turn : wlp sys n hwWatchdogCheck
    (fun r w' => HwTurn sys w r w' ∧ w'.wd.watchdog = w.wd.watchdog) w := by
  rw [hwWatchdogCheck, wlp_get_bind]
  refine (wlp_ite _ _ _ _).mpr ⟨fun hoff => ?_, fun hguard => ?_⟩
  · rw [wlp_bind, modifyWd, wlp_modify, wlp_pure]
    exact ⟨.off hoff rfl rfl, rfl⟩
  have hguard : w.outputsGuarded = true := Bool.not_eq_false _ ▸ hguard
  refine hwWatchdogConfigure_latches.bind fun _ w₁ hthen => ?_
  obtain ⟨hhw, hevent, hal, hcount, hsame⟩ := hthen
  have hstate : w₁.wd.hwWdState = w.hwLatched sys := congrArg Prod.fst hhw
  have hquiet : w₁.wd.hwWdQuiet = w.wd.hwWdQuiet := congrArg Prod.snd hhw
  rw [wlp_get_bind]
  refine (wlp_ite _ _ _ _).mpr ⟨fun hdisabled => ?_, fun hdisabled => ?_⟩
  · rw [hstate] at hdisabled
    exact (wlp_pure _ _).mpr ⟨.disabled hguard hdisabled (hdisabled ▸ hhw) hal, hcount⟩
  rw [hstate] at hdisabled
  refine (wlp_ite _ _ _ _).mpr ⟨fun hsm2 => ?_, fun hsm2 => ?_⟩
  · rw [wlp_bind, modifyWd, wlp_modify, wlp_pure]
    refine ⟨.fed hguard hdisabled (hevent ▸ decide_eq_true hsm2) ?_ hal, hcount⟩
    refine Prod.ext ?_ rfl
    change (if w₁.wd.hwWdState = .waiting then HwWdState.running else w₁.wd.hwWdState) = .running
    rw [hstate]
    exact hwLatched_fed hdisabled
  have hsaw : w.hwSawSm2 sys = false := hevent ▸ decide_eq_false hsm2
  refine (wlp_ite _ _ _ _).mpr ⟨fun hwait => ?_, fun hwait => ?_⟩
  · rw [wlp_bind, modifyWd, wlp_modify, wlp_pure]
    rw [hquiet] at hwait
    refine ⟨.quiet hguard hdisabled hsaw hwait ?_ hal, hcount⟩
    rw [World.hw]
    exact Prod.ext hstate (congrArg (· + 1) hquiet)
  rw [hquiet] at hwait
  refine escWDstatus_reads.bind fun status w₂ hthen => ?_
  obtain ⟨hal₂, hwd₂, hexpired⟩ := hthen
  rw [wlp_get_bind]
  have hhw₂ : w₂.hw = (w.hwLatched sys, w.wd.hwWdQuiet) := by
    rw [← hhw, World.hw, World.hw, hwd₂]
  have hrunning : w.wd.hwWdState ≠ .unchecked → ((status &&& escregWdstatusOk = 0 ∧
      w₂.wd.hwWdState = .running) ↔ w.wdExpired sys = true ∧ w.wd.hwWdState = .running) := by
    intro hchecked
    rw [hexpired, hwd₂, hsame hchecked]
  refine wlp.bind (P := fun _ w' => HwTurn sys w true w' ∧ w'.wd.watchdog = w.wd.watchdog)
    (.when (fun htrip => ?_) fun hnot => ?_) fun _ w₃ h₃ => (wlp_pure _ _).mpr h₃
  · have hout : w₂.outputs = true := by
      rw [World.outputs, hal₂, hal]
      exact decide_eq_true (outputsGuarded_output hguard)
    refine (watchdog_raises hout).mono fun _ w₃ hthen => ?_
    obtain ⟨hraised, hwd₃⟩ := hthen
    refine ⟨.asked hguard hdisabled hsaw (not_lt.mp hwait) ?_ fun hchecked => ?_, ?_⟩
    · rw [← hhw₂, World.hw, World.hw, hwd₃]
    · rw [if_pos ((hrunning hchecked).mp htrip)]
      exact ⟨hal ▸ hal₂ ▸ hraised.stopped, hraised.status, hraised.code⟩
    · rw [hwd₃, hwd₂, hcount]
  · refine ⟨.asked hguard hdisabled hsaw (not_lt.mp hwait) hhw₂ fun hchecked => ?_, ?_⟩
    · rw [if_neg (mt (hrunning hchecked).mpr hnot)]
      exact hal₂.trans hal
    · rw [hwd₂, hcount]

/-! ## The history of a session -/

/-- How many watchdog calls the session has seen since the last SM2 event. -/
def OutputSession.quiet (c : OutputSession) : ℕ := (c.sm2Events.takeWhile (!·)).length

/-- The latched state of a session whose watchdog is armed, or is not. -/
def OutputSession.hwState (c : OutputSession) (armed : Bool) : HwWdState :=
  if armed = false then .disabled else if true ∈ c.sm2Events then .running else .waiting

/-- When the check ought to trip, in a session with the calls `c`. -/
structure OutputSession.expires (sys : System σ) (w : World σ) (c : OutputSession) : Prop where
  /-- At the first check, the divider and the process data time were both non-zero. -/
  armed : c.armed = some true
  fed : true ∈ c.sm2Events
  quiet : c.sm2Events.take 16 = List.replicate 16 false
  now : w.sm2Event = false
  expired : w.wdExpired sys = true

lemma le_takeWhile_iff (k : ℕ) (l : List Bool) :
    k ≤ (l.takeWhile (!·)).length ↔ l.take k = List.replicate k false := by
  induction l generalizing k with
  | nil => cases k <;> simp [List.replicate_succ]
  | cons e l ih =>
      cases k with
      | zero => simp
      | succ k =>
          cases e with
          | true => simp [List.replicate_succ]
          | false => simpa [List.replicate_succ] using ih k

lemma OutputSession.hwState_ne (c : OutputSession) (armed : Bool) :
    c.hwState armed ≠ .unchecked := by
  rw [OutputSession.hwState]
  split
  · simp
  · split <;> simp

/-- The state is latched once the configuration has been read. -/
lemma hwLatched_of_ne (sys : System σ) (h : w.wd.hwWdState ≠ .unchecked) :
    w.hwLatched sys = w.wd.hwWdState ∧ w.hwSawSm2 sys = w.sm2Event :=
  ⟨if_neg h, if_neg h⟩

/-! ## The invariant -/

/-- The variables of the check are those of the session's history. -/
structure HwTracks (s : FreeRun σ) : Prop where
  outputs : s.session.isSome = s.world.outputs
  /-- A call that saw no outputs has reset the variables. -/
  off : s.seen = false → s.world.hw = (.unchecked, 0)
  begun : ∀ c, s.session = some c → c.armed = none → c = .begun
  state : ∀ c a, s.session = some c → c.armed = some a → s.world.wd.hwWdState = c.hwState a
  quiet : ∀ c, s.session = some c → c.armed = some true →
    s.world.wd.hwWdQuiet = min hwWdQuietCycles c.quiet

/-- Any two sessions are apart: a watchdog call between them has seen outputs inactive. -/
def FreeRun.SeenApart (s : FreeRun σ) : Prop := s.session = some .begun → s.seen = false

/-- A condition on the watchdog calls of a run. -/
def AtWatchdog (P : FreeRun σ → Prop) (s : FreeRun σ) : ℕ × LoopStep σ → Prop
  | (_, .watchdog) => P s
  | _ => True

/-- There are outputs to guard whenever `APPSTATE_OUTPUT` is set. -/
def FreeRun.HasOutputs (s : FreeRun σ) : Prop :=
  s.world.outputs = true → s.world.al.escSm2Sml ≠ 0

lemma FreeRun.HasOutputs.guarded {s : FreeRun σ} (h : s.HasOutputs) :
    s.world.outputsGuarded = s.world.outputs := by
  by_cases hout : s.world.outputs = true
  · rw [hout]
    exact decide_eq_true ⟨of_decide_eq_true hout, h hout⟩
  · rw [Bool.eq_false_iff.mpr hout]
    exact decide_eq_false fun hboth => hout (decide_eq_true hboth.1)

/-- The session after a step is new, or the one before the step continues. -/
lemma FreeRun.after_session {s : FreeRun σ} {phase : LoopPhase} {w' : World σ}
    {c : Option OutputSession} {c' : OutputSession}
    (h : (s.after phase w' c).session = some c') :
    c' = .begun ∨ s.world.outputs = true ∧ c = some c' := by
  rw [FreeRun.after] at h
  dsimp only at h
  split at h
  case isFalse => cases h
  case isTrue =>
    have h := Option.some.inj h
    split at h
    case isFalse => exact .inl h.symm
    case isTrue hgoes =>
      cases c with
      | none => exact .inl h.symm
      | some c => exact .inr ⟨hgoes.1, congrArg some h⟩

lemma FreeRun.after_isSome (s : FreeRun σ) (phase : LoopPhase) (w' : World σ)
    (c : Option OutputSession) : (s.after phase w' c).session.isSome = w'.outputs := by
  rw [FreeRun.after]
  dsimp only
  split
  case isTrue h => exact h.symm
  case isFalse h => exact (Bool.eq_false_iff.mpr h).symm

/-- A step that is no watchdog call leaves the variables and the history alone. -/
lemma HwTracks.frame {s : FreeRun σ} (h : HwTracks s) {s₁ : FreeRun σ} {w' : World σ}
    (hseen : s₁.seen = s.seen) (hhw : w'.hw = s.world.hw) (phase : LoopPhase) :
    HwTracks (s₁.after phase w' s.session) where
  outputs := s₁.after_isSome phase w' s.session
  off := fun hoff => hhw.trans (h.off (hseen ▸ hoff))
  begun := fun c hc harmed => by
    rcases FreeRun.after_session hc with rfl | ⟨-, hsame⟩
    · rfl
    · exact h.begun c hsame harmed
  state := fun c a hc harmed => by
    rcases FreeRun.after_session hc with rfl | ⟨-, hsame⟩
    · cases harmed
    · exact (congrArg Prod.fst hhw).trans (h.state c a hsame harmed)
  quiet := fun c hc harmed => by
    rcases FreeRun.after_session hc with rfl | ⟨-, hsame⟩
    · cases harmed
    · exact (congrArg Prod.snd hhw).trans (h.quiet c hsame harmed)

/-- What a watchdog call makes of the variables, by the history it adds to. -/
structure HwCalled (sys : System σ) (w : World σ) (c : OutputSession) (w' : World σ) : Prop where
  state : ∀ a, (c.called sys w).armed = some a → w'.wd.hwWdState = (c.called sys w).hwState a
  quiet : (c.called sys w).armed = some true →
    w'.wd.hwWdQuiet = min hwWdQuietCycles (c.called sys w).quiet

/-- The first call of a session, with the variables reset. -/
lemma HwTurn.first {r : Bool} (h : HwTurn sys w r w') (hguard : w.outputsGuarded = true)
    (hreset : w.hw = (.unchecked, 0)) : HwCalled sys w .begun w' := by
  have hstate : w.wd.hwWdState = .unchecked := congrArg Prod.fst hreset
  have hzero : w.wd.hwWdQuiet = 0 := congrArg Prod.snd hreset
  have hlatched : w.hwLatched sys = if (w.wdConfig sys).1 then .waiting else .disabled :=
    if_pos hstate
  have hsaw : w.hwSawSm2 sys = (w.wdConfig sys).2 := if_pos hstate
  have hcalled : OutputSession.begun.called sys w =
      ⟨some (w.wdConfig sys).1, [(w.wdConfig sys).2]⟩ := rfl
  have harmed (hne : w.hwLatched sys ≠ .disabled) : (w.wdConfig sys).1 = true := by
    by_contra hnot
    exact hne (hlatched.trans (if_neg hnot))
  cases h with
  | off hoff => rw [hguard] at hoff; cases hoff
  | disabled _ hdisabled hhw =>
      have hnot : (w.wdConfig sys).1 = false := by
        by_contra hyes
        rw [hlatched, if_pos (Bool.not_eq_false _ ▸ hyes)] at hdisabled
        cases hdisabled
      constructor
      · intro a ha
        rw [hcalled, hnot] at ha
        cases ha
        exact congrArg Prod.fst hhw
      · intro ha
        rw [hcalled, hnot] at ha
        cases ha
  | fed _ hne hfed hhw =>
      rw [hsaw] at hfed
      constructor
      · intro a ha
        rw [hcalled, harmed hne] at ha
        cases ha
        rw [hcalled, hfed]
        exact congrArg Prod.fst hhw
      · intro _
        rw [hcalled, hfed]
        exact congrArg Prod.snd hhw
  | quiet _ hne hnot _ hhw =>
      rw [hsaw] at hnot
      rw [hlatched, if_pos (harmed hne), hzero] at hhw
      constructor
      · intro a ha
        rw [hcalled, harmed hne] at ha
        cases ha
        rw [hcalled, hnot]
        exact congrArg Prod.fst hhw
      · intro _
        rw [hcalled, hnot]
        exact congrArg Prod.snd hhw
  | asked _ _ _ hwait =>
      rw [hzero] at hwait
      cases hwait

/-- A later call, with the variables as the history has them. -/
lemma HwTurn.later {r : Bool} (h : HwTurn sys w r w') (hguard : w.outputsGuarded = true)
    {c : OutputSession} {a : Bool} (harmed : c.armed = some a)
    (hstate : w.wd.hwWdState = c.hwState a)
    (hquiet : a = true → w.wd.hwWdQuiet = min hwWdQuietCycles c.quiet) :
    HwCalled sys w c w' := by
  have hne : w.wd.hwWdState ≠ .unchecked := hstate ▸ c.hwState_ne a
  obtain ⟨hlatched, hsaw⟩ := hwLatched_of_ne sys hne
  have hcalled : c.called sys w = ⟨some a, w.sm2Event :: c.sm2Events⟩ := by
    rw [OutputSession.called, harmed]
  have hyes (hnot : w.hwLatched sys ≠ .disabled) : a = true := by
    cases a with
    | true => rfl
    | false => exact absurd (hlatched.trans hstate) hnot
  cases h with
  | off hoff => rw [hguard] at hoff; cases hoff
  | disabled _ hdisabled hhw =>
      have hno : a = false := by
        cases a with
        | false => rfl
        | true =>
            rw [hlatched, hstate, OutputSession.hwState, if_neg (by decide)] at hdisabled
            split at hdisabled <;> cases hdisabled
      constructor
      · intro b hb
        rw [hcalled, hno] at hb
        cases hb
        exact congrArg Prod.fst hhw
      · intro hb
        rw [hcalled, hno] at hb
        cases hb
  | fed _ hnot hfed hhw =>
      rw [hsaw] at hfed
      constructor
      · intro b hb
        rw [hcalled, hyes hnot] at hb
        cases hb
        rw [hcalled, hfed, OutputSession.hwState, if_neg (by decide), if_pos List.mem_cons_self]
        exact congrArg Prod.fst hhw
      · intro _
        rw [hcalled, hfed]
        exact congrArg Prod.snd hhw
  | quiet _ hnot hsm2 hwait hhw =>
      rw [hsaw] at hsm2
      rw [hlatched, hstate, hyes hnot] at hhw
      constructor
      · intro b hb
        rw [hcalled, hyes hnot] at hb
        cases hb
        rw [hcalled, hsm2]
        refine (congrArg Prod.fst hhw).trans ?_
        simp [OutputSession.hwState]
      · intro _
        rw [hcalled, hsm2]
        have hcount : w'.wd.hwWdQuiet = w.wd.hwWdQuiet + 1 := congrArg Prod.snd hhw
        have hlast := hquiet (hyes hnot)
        have hnext : (OutputSession.mk (some a) (false :: c.sm2Events)).quiet = c.quiet + 1 := rfl
        rw [hnext, hcount]
        omega
  | asked _ hnot hsm2 hwait hhw =>
      rw [hsaw] at hsm2
      rw [hlatched, hstate, hyes hnot] at hhw
      constructor
      · intro b hb
        rw [hcalled, hyes hnot] at hb
        cases hb
        rw [hcalled, hsm2]
        refine (congrArg Prod.fst hhw).trans ?_
        simp [OutputSession.hwState]
      · intro _
        rw [hcalled, hsm2]
        have hcount : w'.wd.hwWdQuiet = w.wd.hwWdQuiet := congrArg Prod.snd hhw
        have hlast := hquiet (hyes hnot)
        have hnext : (OutputSession.mk (some a) (false :: c.sm2Events)).quiet = c.quiet + 1 := rfl
        rw [hnext, hcount]
        omega

/-- The software watchdog leaves the variables of the check alone. -/
lemma softwareWatchdog_hw : wlp sys n softwareWatchdog (fun _ w' => w'.hw = w.hw) w := by
  rw [softwareWatchdog, wlp_ask_bind, wlp_bind, modifyWd, wlp_modify, wlp_get_bind]
  refine (wlp_ite _ _ _ _).mpr ⟨fun _ => ?_, fun _ => .when (fun _ => ?_) fun _ => rfl⟩
  · exact ((escALstatusgotoerror_keepsRest _ _).counts sys n _).mono fun _ _ h => h.hw
  · exact (wlp_modify _ _).mpr rfl

/-- The watchdog call of `DIG_process` begins with the check. -/
lemma digWatchdog_turn (hhw : sys.cfg.useHwWatchdog = true) : wlp sys n digWatchdog
    (fun _ w' => ∃ r w₁, HwTurn sys w r w₁ ∧ w'.hw = w₁.hw) w := by
  rw [digWatchdog_eq, digProcessWd, wlp_ask_bind, if_pos hhw]
  refine hwWatchdogCheck_turn.bind fun r w₁ hthen => ?_
  obtain ⟨hturn, _⟩ := hthen
  exact .when (fun _ => softwareWatchdog_hw.mono fun _ w₂ h₂ => ⟨r, w₁, hturn, h₂⟩)
    fun _ => ⟨r, w₁, hturn, rfl⟩

/-- A call that sees no outputs resets the variables. -/
lemma HwTurn.reset {r : Bool} (h : HwTurn sys w r w') (hoff : w.outputsGuarded = false) :
    w'.hw = (.unchecked, 0) := by
  cases h with
  | off _ hhw => exact hhw
  | disabled hguard => rw [hoff] at hguard; cases hguard
  | fed hguard => rw [hoff] at hguard; cases hguard
  | quiet hguard => rw [hoff] at hguard; cases hguard
  | asked hguard => rw [hoff] at hguard; cases hguard

/-- In a session, the call does to the variables what its history says. -/
lemma HwTracks.called {s : FreeRun σ} (h : HwTracks s) (hapart : s.SeenApart)
    {r : Bool} (hturn : HwTurn sys s.world r w') (hguard : s.world.outputsGuarded = true)
    {c : OutputSession} (hc : s.session = some c) : HwCalled sys s.world c w' := by
  cases harmed : c.armed with
  | none =>
      obtain rfl := h.begun c hc harmed
      exact hturn.first hguard (h.off (hapart hc))
  | some a =>
      exact hturn.later hguard harmed (h.state c a hc harmed) fun ha =>
        h.quiet c hc (harmed.trans (congrArg some ha))

/-- A watchdog call keeps the invariant, if it is not the first of a session that follows
another one directly. -/
lemma HwTracks.watchdog {s : FreeRun σ} (h : HwTracks s) (hout : s.HasOutputs)
    (hapart : s.SeenApart) {r : Bool} {w₁ : World σ} (hturn : HwTurn sys s.world r w₁)
    (hhw : w'.hw = w₁.hw) (phase : LoopPhase) :
    HwTracks ((s.noted sys .watchdog).after phase w' (s.continued sys .watchdog)) where
  outputs := FreeRun.after_isSome _ phase w' _
  off := fun hoff => by
    have hguard : s.world.outputsGuarded = false := hout.guarded.trans hoff
    exact hhw.trans (hturn.reset hguard)
  begun := fun c hc harmed => by
    rcases FreeRun.after_session hc with rfl | ⟨-, hsome⟩
    · rfl
    · obtain ⟨c₀, -, rfl⟩ := Option.map_eq_some_iff.mp hsome
      rw [OutputSession.called] at harmed
      split at harmed <;> cases harmed
  state := fun c a hc harmed => by
    rcases FreeRun.after_session hc with rfl | ⟨hon, hsome⟩
    · cases harmed
    · obtain ⟨c₀, hc₀, rfl⟩ := Option.map_eq_some_iff.mp hsome
      exact (congrArg Prod.fst hhw).trans
        ((h.called hapart hturn (hout.guarded.trans hon) hc₀).state a harmed)
  quiet := fun c hc harmed => by
    rcases FreeRun.after_session hc with rfl | ⟨hon, hsome⟩
    · cases harmed
    · obtain ⟨c₀, hc₀, rfl⟩ := Option.map_eq_some_iff.mp hsome
      exact (congrArg Prod.snd hhw).trans
        ((h.called hapart hturn (hout.guarded.trans hon) hc₀).quiet harmed)

/-- The invariant holds in every run whose sessions are apart. -/
lemma FreeRun.Reached.hwTracks (hhw : sys.cfg.useHwWatchdog = true) {s : FreeRun σ}
    (h : FreeRun.Reached sys (AtWatchdog fun s => s.HasOutputs ∧ s.SeenApart) s) : HwTracks s := by
  refine Reachable.invariant (P := fun s : FreeRun σ => HwTracks s) (fun s hs => ?start)
    (fun s l s' hs hok hstep => ?step) h
  case start =>
    obtain ⟨hinit, -, hsession, -⟩ := hs
    obtain ⟨hout, hreset, -⟩ := hinit.watchdogs
    have hnone {c : OutputSession} (hc : s.session = some c) : False := by
      rw [hsession] at hc
      cases hc
    exact ⟨by rw [hsession, hout]; rfl, fun _ => hreset, fun _ hc => (hnone hc).elim,
      fun _ _ hc => (hnone hc).elim, fun _ hc => (hnone hc).elim⟩
  case step =>
    obtain ⟨n, l⟩ := l
    rw [FreeRun.exec] at hstep
    split at hstep
    case h_2 => cases hstep
    case h_1 phase w' hnext hrun =>
      cases hstep
      cases l with
      | move outside alEvent bytes =>
          cases hrun
          exact hs.frame (by rfl) (by rfl) phase
      | poll => exact hs.frame rfl (ecatSlvPoll_counts sys n s.world () w' hrun).hw phase
      | exchange =>
          have hseen : (s.noted sys .exchange).seen = s.seen := by
            rw [FreeRun.noted]
            split <;> rfl
          exact hs.frame hseen (digExchange_counts () w' hrun).1 phase
      | watchdog =>
          obtain ⟨r, w₁, hturn, hsame⟩ := digWatchdog_turn hhw () w' hrun
          exact hs.watchdog hok.1 hok.2 hturn hsame phase

/-! ## When the check trips -/

lemma not_raises_of_al (hal : w'.al = w.al) : ¬ Raises w w' := fun h =>
  absurd h.stopped (by rw [hal]; exact lt_irrefl _)

/-- **The hardware watchdog trips exactly when it should**, in every run whose sessions are
apart. -/
theorem hardware_trips_iff (hhw : sys.cfg.useHwWatchdog = true) {s : FreeRun σ}
    (h : FreeRun.Reached sys (AtWatchdog fun s => s.HasOutputs ∧ s.SeenApart) s)
    (hout : s.HasOutputs) (hapart : s.SeenApart) {n : ℕ} {r : Bool}
    (hrun : hwWatchdogCheck sys n s.world = .ok r w') :
    Raises s.world w' ↔ ∃ c, s.session = some c ∧ c.expires sys s.world := by
  have hinv : HwTracks s := h.hwTracks hhw
  have hturn : HwTurn sys s.world r w' := (hwWatchdogCheck_turn r w' hrun).1
  -- what the history says of the variables, if the watchdog is armed
  have known {c : OutputSession} (hc : s.session = some c) (harmed : c.armed = some true) :
      s.world.hwLatched sys = c.hwState true ∧ s.world.hwSawSm2 sys = s.world.sm2Event := by
    have hstate : s.world.wd.hwWdState = c.hwState true := hinv.state c true hc harmed
    obtain ⟨hlatched, hsaw⟩ := hwLatched_of_ne sys (hstate ▸ c.hwState_ne true)
    exact ⟨hlatched.trans hstate, hsaw⟩
  cases hturn with
  | off hoff _ hal =>
      refine iff_of_false (not_raises_of_al hal) fun ⟨c, hc, _⟩ => ?_
      rw [hout.guarded, ← hinv.outputs, hc] at hoff
      cases hoff
  | disabled _ hdisabled _ hal =>
      refine iff_of_false (not_raises_of_al hal) fun ⟨c, hc, hexp⟩ => ?_
      rw [(known hc hexp.armed).1, OutputSession.hwState, if_neg (by decide),
        if_pos hexp.fed] at hdisabled
      cases hdisabled
  | fed _ _ hfed _ hal =>
      refine iff_of_false (not_raises_of_al hal) fun ⟨c, hc, hexp⟩ => ?_
      rw [(known hc hexp.armed).2, hexp.now] at hfed
      cases hfed
  | quiet _ _ _ hwait _ hal =>
      refine iff_of_false (not_raises_of_al hal) fun ⟨c, hc, hexp⟩ => ?_
      have hlong : hwWdQuietCycles ≤ c.quiet := (le_takeWhile_iff _ _).mpr hexp.quiet
      rw [hinv.quiet c hc hexp.armed, min_eq_left hlong] at hwait
      exact absurd hwait (lt_irrefl _)
  | asked hguard hne hsm2 hwait _ hasked =>
      have hon : s.session.isSome := hinv.outputs.trans (hout.guarded ▸ hguard)
      obtain ⟨c, hc⟩ := Option.isSome_iff_exists.mp hon
      have honly : (∃ c, s.session = some c ∧ c.expires sys s.world) ↔ c.expires sys s.world := by
        simp [hc]
      rw [honly]
      cases harmed : c.armed with
      | none =>
          obtain rfl := hinv.begun c hc harmed
          have hzero : s.world.wd.hwWdQuiet = 0 := congrArg Prod.snd (hinv.off (hapart hc))
          rw [hzero] at hwait
          cases hwait
      | some a =>
          have hstate := hinv.state c a hc harmed
          obtain ⟨hlatched, hsaw⟩ := hwLatched_of_ne sys (hstate ▸ c.hwState_ne a)
          have hyes : a = true := by
            cases a with
            | true => rfl
            | false => exact absurd (hlatched.trans hstate) hne
          subst hyes
          have hasked := hasked (hstate ▸ c.hwState_ne true)
          have hlong : hwWdQuietCycles ≤ c.quiet := by
            have hquiet := hinv.quiet c hc harmed
            omega
          have hfed : s.world.wd.hwWdState = .running ↔ true ∈ c.sm2Events := by
            rw [hstate, OutputSession.hwState, if_neg (by decide)]
            split <;> simp_all
          split at hasked
          case isTrue hboth =>
            exact iff_of_true hasked ⟨harmed, hfed.mp hboth.2, (le_takeWhile_iff _ _).mp hlong,
              hsaw ▸ hsm2, hboth.1⟩
          case isFalse hnot =>
            exact iff_of_false (not_raises_of_al hasked) fun hexp =>
              hnot ⟨hexp.expired, hfed.mpr hexp.fed⟩

/-! ## Two runs -/

instance (s : FreeRun σ) : Decidable s.HasOutputs := by
  unfold FreeRun.HasOutputs; infer_instance

instance (s : FreeRun σ) : Decidable s.SeenApart := by
  unfold FreeRun.SeenApart; infer_instance

instance (P : FreeRun σ → Prop) [DecidablePred P] (s : FreeRun σ) (l : ℕ × LoopStep σ) :
    Decidable (AtWatchdog P s l) := by
  unfold AtWatchdog; split <;> infer_instance

/-- The example device, with the hardware watchdog. -/
def hardwareSystem : System ByteStore :=
  { exampleSystem with cfg := { exampleCfg with useHwWatchdog := true } }

/-- Outputs are sent once, and then no more; the last call is about to ask the ESC. -/
def quietLoop : List (ℕ × LoopStep ByteStore) :=
  loopToOp true ++ loopCycle true 8 escregAleventSm2 ++
    (List.replicate 16 (loopCycle true 8 0)).flatten ++ (loopCycle true 8 0).take 2

/-- The call is made, the watchdog trips, and the master acknowledges the error and asks for OP at
once. -/
def restartedLoop : List (ℕ × LoopStep ByteStore) :=
  quietLoop ++ [(8, .watchdog), (8, .exchange)] ++
    (loopCycle true 0x18 escregAleventControl).take 2

/-- The master goes quiet, and the watchdog trips. -/
theorem hardware_trips_iff_example : ∃ (s : FreeRun ByteStore) (r : Bool) (w' : World ByteStore)
    (c : OutputSession), hwWatchdogCheck hardwareSystem 8 s.world = .ok r w' ∧
      Raises s.world w' ∧ s.session = some c ∧ c.expires hardwareSystem s.world := by
  have hrun : (freeRun hardwareSystem (AtWatchdog fun s => s.HasOutputs ∧ s.SeenApart)
      (exampleChip 1 0 0) 0 (fun _ => 0) quietLoop).map (fun s =>
        (raisesBy hardwareSystem hwWatchdogCheck s.world, decide s.HasOutputs,
          decide s.SeenApart)) = some (true, true, true) := by
    decide +kernel
  obtain ⟨s, hs, hseen⟩ := Option.map_eq_some_iff.mp hrun
  simp only [Prod.mk.injEq, decide_eq_true_eq] at hseen
  obtain ⟨hraises, hout, hapart⟩ := hseen
  obtain ⟨r, w', hcheck, hraised⟩ := exists_of_raisesBy hraises
  obtain ⟨c, hc, hexp⟩ :=
    (hardware_trips_iff rfl (freeRun_reached hs) hout hapart hcheck).mp hraised
  exact ⟨s, r, w', c, hcheck, hraised, hc, hexp⟩

/-- The first call of a session trips, before any outputs were sent in it. -/
theorem hardware_trips_early : ¬ ∀ (sys : System ByteStore) (s : FreeRun ByteStore) (n : ℕ)
    (r : Bool) (w' : World ByteStore), sys.cfg.useHwWatchdog = true →
      FreeRun.Reached sys (AtWatchdog FreeRun.HasOutputs) s → s.HasOutputs →
      hwWatchdogCheck sys n s.world = .ok r w' →
      (Raises s.world w' ↔ ∃ c, s.session = some c ∧ c.expires sys s.world) := by
  intro hclaim
  have hrun : (freeRun hardwareSystem (AtWatchdog FreeRun.HasOutputs)
      (exampleChip 1 0 0) 0 (fun _ => 0) restartedLoop).map (fun s =>
        (raisesBy hardwareSystem hwWatchdogCheck s.world, decide s.HasOutputs, s.session)) =
          some (true, true, some .begun) := by
    decide +kernel
  obtain ⟨s, hs, hseen⟩ := Option.map_eq_some_iff.mp hrun
  simp only [Prod.mk.injEq, decide_eq_true_eq] at hseen
  obtain ⟨hraises, hout, hbegun⟩ := hseen
  obtain ⟨r, w', hcheck, hraised⟩ := exists_of_raisesBy hraises
  obtain ⟨c, hc, hexp⟩ :=
    (hclaim hardwareSystem s 8 r w' rfl (freeRun_reached hs) hout hcheck).mp hraised
  rw [hbegun] at hc
  cases hc
  exact absurd hexp.fed List.not_mem_nil

end Soes
