import Soes.Properties.HardwareWatchdog

/-!
# The software watchdog

The software watchdog counts down at each watchdog call it is in charge of, and ought to begin every
output session with its full count.  Its counter is reloaded at three places only: when the stack is
initialised, when new outputs arrive, and by a call it is in charge of that sees outputs inactive.
The last is missing for a call that trips, and for every call in which the hardware check is in
charge, as it is of all calls without outputs.  The history variable `FreeRun.spent` says that the
counter was not reloaded before a session began; in a session that is unspent the watchdog holds
back as long as it should (`holds_back`).
-/

namespace Soes

open Program

variable {σ : Type} {sys : System σ} {n : ℕ} {w w' : World σ}

/-! ## One call -/

/-- The counter after it has counted down. -/
def countDown (count : ℤ) : ℤ := if 0 < count then count - 1 else count

/-- What a call of the software watchdog comes to. -/
inductive SwTurn (sys : System σ) (w w' : World σ) : Prop
  /-- It trips. -/
  | trips : countDown w.wd.watchdog ≤ 0 → w.outputs = true →
      w'.wd.watchdog = countDown w.wd.watchdog → SwTurn sys w w'
  /-- It counts. -/
  | counts : w.outputs = true → w'.wd.watchdog = countDown w.wd.watchdog → w'.al = w.al →
      SwTurn sys w w'
  /-- It is reloaded. -/
  | reloads : w.outputs = false → w'.wd.watchdog = sys.cfg.watchdogCnt → w'.al = w.al →
      SwTurn sys w w'

lemma softwareWatchdog_turn : wlp sys n softwareWatchdog (fun _ w' => SwTurn sys w w') w := by
  rw [softwareWatchdog, wlp_ask_bind, wlp_bind, modifyWd, wlp_modify, wlp_get_bind]
  refine (wlp_ite _ _ _ _).mpr ⟨fun htrip => ?_, fun _ => .when (fun hoff => ?_)
    fun hon => ?_⟩
  · obtain ⟨hzero, hguard⟩ := htrip
    refine ((escALstatusgotoerror_keepsRest _ _).counts sys n _).mono fun _ w₁ h₁ => ?_
    exact .trips hzero (decide_eq_true (of_decide_eq_true hguard).1) h₁.watchdog
  · exact (wlp_modify _ _).mpr (.reloads (decide_eq_false (not_not.mpr hoff)) rfl rfl)
  · exact .counts (decide_eq_true hon) rfl rfl

/-- The counter is not below what is left of it after one more call. -/
lemma SwTurn.le (h : SwTurn sys w w') (hout : w.outputs = true) :
    w.wd.watchdog - 1 ≤ w'.wd.watchdog := by
  have hcount : w'.wd.watchdog = countDown w.wd.watchdog := by
    cases h with
    | trips _ _ hcount => exact hcount
    | counts _ hcount => exact hcount
    | reloads hoff => rw [hout] at hoff; cases hoff
  rw [hcount, countDown]
  split <;> omega

/-- It does not trip while there is more than one call left. -/
lemma SwTurn.holds (h : SwTurn sys w w') (hleft : 1 < w.wd.watchdog) : w'.al = w.al := by
  cases h with
  | trips hzero =>
      rw [countDown] at hzero
      split at hzero <;> omega
  | counts _ _ hal => exact hal
  | reloads _ _ hal => exact hal

/-- Who is in charge is decided by the latched state. -/
lemma HwTurn.inCharge {r : Bool} (h : HwTurn sys w r w') (hhw : sys.cfg.useHwWatchdog = true) :
    w.softwareInCharge sys = !r := by
  have hdisabled : w.hwLatched sys = .disabled ↔ w.wd.hwWdState = .disabled ∨
      w.wd.hwWdState = .unchecked ∧ (w.wdConfig sys).1 = false := by
    rw [World.hwLatched]
    split
    case isTrue hunchecked => simp [hunchecked]
    case isFalse hchecked => simp [hchecked]
  simp only [World.softwareInCharge, hhw, ← hdisabled]
  cases h with
  | off hoff => simp [hoff]
  | disabled hguard hlatched => simp [hguard, hlatched]
  | fed _ hne => simp [hne]
  | quiet _ hne => simp [hne]
  | asked _ hne => simp [hne]

/-- The counter, after a call that one of the two watchdogs is in charge of. -/
def CountTurn (sys : System σ) (w w' : World σ) : Prop :=
  if w.softwareInCharge sys then SwTurn sys w w' else w'.wd.watchdog = w.wd.watchdog

/-- The watchdog call of `DIG_process`. -/
lemma digWatchdog_count : wlp sys n digWatchdog (fun _ w' => CountTurn sys w w') w := by
  have software {w₁ : World σ} (hsw : w.softwareInCharge sys = true)
      (hcount : w₁.wd.watchdog = w.wd.watchdog) (hal : w₁.al = w.al) :
      wlp sys n softwareWatchdog (fun _ w' => CountTurn sys w w') w₁ := by
    refine softwareWatchdog_turn.mono fun _ w₂ h₂ => ?_
    have hout : w₁.outputs = w.outputs := by rw [World.outputs, World.outputs, hal]
    rw [CountTurn, if_pos hsw]
    cases h₂ with
    | trips hzero hon hnext => exact .trips (hcount ▸ hzero) (hout ▸ hon) (hcount ▸ hnext)
    | counts hon hnext hsame => exact .counts (hout ▸ hon) (hcount ▸ hnext) (hsame.trans hal)
    | reloads hoff hnext hsame => exact .reloads (hout ▸ hoff) hnext (hsame.trans hal)
  rw [digWatchdog_eq, digProcessWd, wlp_ask_bind]
  by_cases hhw : sys.cfg.useHwWatchdog = true
  · rw [if_pos hhw]
    refine hwWatchdogCheck_turn.bind fun r w₁ hthen => ?_
    obtain ⟨hturn, hcount⟩ := hthen
    have hcharge := hturn.inCharge hhw
    refine .when (fun hr => ?_) fun hr => ?_
    · rw [hr] at hcharge hturn
      cases hturn with
      | disabled _ _ _ hal => exact software hcharge hcount hal
    · have hr : r = true := by simpa using hr
      rw [hr] at hcharge
      rw [CountTurn, if_neg (by rw [hcharge]; decide)]
      exact hcount
  · rw [if_neg hhw, wlp_bind, wlp_pure, when, if_pos rfl]
    exact software (decide_eq_true (.inl (Bool.eq_false_iff.mpr hhw))) rfl rfl

/-! ## The invariant -/

/-- The software watchdog is not in charge of a session that began with a counter it had counted
down in an earlier one. -/
def FreeRun.Unspent (sys : System σ) (s : FreeRun σ) : Prop :=
  s.world.softwareInCharge sys = true → s.world.outputs = true → s.spent = false

/-- What is left of the count. -/
structure SwTracks (sys : System σ) (s : FreeRun σ) : Prop where
  outputs : s.session.isSome = s.world.outputs
  full : s.counted = false → s.world.wd.watchdog = sys.cfg.watchdogCnt
  /-- A session that began with the full count has spent at most one for each call. -/
  left : ∀ c, s.session = some c → s.spent = false →
    sys.cfg.watchdogCnt - c.sm2Events.length ≤ s.world.wd.watchdog

/-- The invariant after a step, by what the step did to the counter and to the session. -/
lemma SwTracks.after {s : FreeRun σ} {w' : World σ} {c : Option OutputSession}
    (hfull : s.counted = false → w'.wd.watchdog = sys.cfg.watchdogCnt)
    (hsome : s.world.outputs = true → c.isSome = true)
    (hleft : ∀ c', s.world.outputs = true → c = some c' → s.spent = false →
      sys.cfg.watchdogCnt - c'.sm2Events.length ≤ w'.wd.watchdog) (phase : LoopPhase) :
    SwTracks sys (s.after phase w' c) where
  outputs := s.after_isSome phase w' c
  full := hfull
  left := fun c' hc' hspent => by
    rw [FreeRun.after] at hc' hspent ⊢
    dsimp only at hc' hspent ⊢
    split at hc'
    case isFalse => cases hc'
    case isTrue =>
      have hc' := Option.some.inj hc'
      split at hspent
      case isTrue hgoes =>
        obtain ⟨c₀, rfl⟩ := Option.isSome_iff_exists.mp (hsome hgoes.1)
        rw [if_pos hgoes, Option.getD_some] at hc'
        exact hleft c' hgoes.1 (congrArg some hc') hspent
      case isFalse hnew =>
        rw [if_neg hnew] at hc'
        rw [← hc', hfull hspent]
        exact Int.sub_le_self _ (Int.natCast_nonneg _)

/-- A step that is no watchdog call and brings no new outputs leaves the counter alone. -/
lemma SwTracks.frame {s : FreeRun σ} (h : SwTracks sys s) {w' : World σ}
    (hcount : w'.wd.watchdog = s.world.wd.watchdog) (phase : LoopPhase) :
    SwTracks sys (s.after phase w' s.session) :=
  .after (fun hc => hcount.trans (h.full hc)) (fun hout => h.outputs.trans hout)
    (fun c _ hc hspent => hcount ▸ h.left c hc hspent) phase

/-- The exchange of process data keeps the invariant. -/
lemma SwTracks.exchange {s : FreeRun σ} (h : SwTracks sys s)
    (hcount : w'.wd.watchdog = if s.world.outputs ∧ s.world.sm2Event then sys.cfg.watchdogCnt
      else s.world.wd.watchdog) (phase : LoopPhase) :
    SwTracks sys ((s.noted sys .exchange).after phase w' (s.continued sys .exchange)) := by
  rw [FreeRun.noted]
  split
  case isTrue hnew =>
    rw [if_pos hnew] at hcount
    refine SwTracks.after (fun _ => ?_) (fun hout => ?_) (fun c _ _ _ => ?_) phase
    · exact hcount
    · exact h.outputs.trans hout
    · rw [hcount]
      exact Int.sub_le_self _ (Int.natCast_nonneg _)
  case isFalse hnot =>
    rw [if_neg hnot] at hcount
    exact h.frame hcount phase

lemma OutputSession.called_length (c : OutputSession) (sys : System σ) (w : World σ) :
    (c.called sys w).sm2Events.length = c.sm2Events.length + 1 := by
  rw [OutputSession.called]
  split <;> rfl

/-- A watchdog call keeps the invariant. -/
lemma SwTracks.watchdog {s : FreeRun σ} (h : SwTracks sys s) (hturn : CountTurn sys s.world w')
    (phase : LoopPhase) :
    SwTracks sys ((s.noted sys .watchdog).after phase w' (s.continued sys .watchdog)) := by
  refine .after (fun hcounted => ?_) (fun hout => ?_) (fun c hout hc hspent => ?_) phase
  · change (if s.world.softwareInCharge sys = true then s.world.outputs else s.counted) = false
      at hcounted
    rw [CountTurn] at hturn
    split at hturn
    case isTrue hsw =>
      rw [if_pos hsw] at hcounted
      cases hturn with
      | trips _ hout => rw [hcounted] at hout; cases hout
      | counts hout => rw [hcounted] at hout; cases hout
      | reloads _ hcount => exact hcount
    case isFalse hhw =>
      rw [if_neg hhw] at hcounted
      exact hturn.trans (h.full hcounted)
  · rw [FreeRun.continued, Option.isSome_map]
    exact h.outputs.trans hout
  · obtain ⟨c₀, hc₀, rfl⟩ := Option.map_eq_some_iff.mp hc
    have hlast := h.left c₀ hc₀ hspent
    rw [OutputSession.called_length]
    have hone : s.world.wd.watchdog - 1 ≤ w'.wd.watchdog := by
      rw [CountTurn] at hturn
      split at hturn
      case isTrue => exact hturn.le hout
      case isFalse => omega
    push_cast
    omega

/-- The invariant holds in every run. -/
lemma FreeRun.Reached.swTracks {ok : FreeRun σ → ℕ × LoopStep σ → Prop} {s : FreeRun σ}
    (h : FreeRun.Reached sys ok s) : SwTracks sys s := by
  refine Reachable.invariant (P := fun s : FreeRun σ => SwTracks sys s) (fun s hs => ?start)
    (fun s l s' hs hok hstep => ?step) h
  case start =>
    obtain ⟨hinit, -, hsession, -⟩ := hs
    obtain ⟨hout, -, hcount⟩ := hinit.watchdogs
    exact ⟨by rw [hsession, hout]; rfl, fun _ => hcount, fun c hc => by
      rw [hsession] at hc
      cases hc⟩
  case step =>
    obtain ⟨n, l⟩ := l
    rw [FreeRun.exec] at hstep
    split at hstep
    case h_2 => cases hstep
    case h_1 phase w' hnext hrun =>
      cases hstep
      cases l with
      | move outside alEvent bytes =>
          cases hrun
          exact hs.frame (by rfl) phase
      | poll => exact hs.frame (ecatSlvPoll_counts sys n s.world () w' hrun).watchdog phase
      | exchange => exact hs.exchange (digExchange_counts () w' hrun).2 phase
      | watchdog => exact hs.watchdog (digWatchdog_count () w' hrun) phase

/-! ## How long the watchdog holds back -/

/-- **The software watchdog holds back** for the first `watchdog_cnt - 1` calls of a session that is
unspent, in every run. -/
theorem holds_back {s : FreeRun σ} (h : FreeRun.Reached sys (fun _ _ => True) s)
    (hunspent : s.Unspent sys) (hsw : s.world.softwareInCharge sys = true) {c : OutputSession}
    (hc : s.session = some c)
    (hfirst : (c.sm2Events.length : ℤ) + 1 ≤ sys.cfg.watchdogCnt - 1) {n : ℕ}
    (hrun : digWatchdog sys n s.world = .ok () w') : ¬ Raises s.world w' := by
  have hinv : SwTracks sys s := h.swTracks
  have hout : s.world.outputs = true := by
    rw [← hinv.outputs, hc]
    rfl
  have hleft := hinv.left c hc (hunspent hsw hout)
  have hturn : CountTurn sys s.world w' := digWatchdog_count () w' hrun
  rw [CountTurn, if_pos hsw] at hturn
  exact not_raises_of_al (hturn.holds (by omega))

/-- The example device, with a count of two. -/
def countSystem (useHw : Bool) : System ByteStore :=
  { exampleSystem with cfg := { exampleCfg with watchdogCnt := 2, useHwWatchdog := useHw } }

/-- The first session, until the watchdog trips. -/
def countedLoop : List (ℕ × LoopStep ByteStore) := loopToOp false ++ loopCycle false 8 0

/-- Outputs are set again: with the hardware watchdog, which is disabled, after two cycles without
outputs, and without it at once. -/
def recountLoop (useHw : Bool) : List (ℕ × LoopStep ByteStore) :=
  if useHw then
    countedLoop ++ loopCycle false 0x14 escregAleventControl ++ loopCycle false 4 0 ++
      (loopCycle false 8 escregAleventControl).take 2
  else countedLoop ++ (loopCycle false 0x18 escregAleventControl).take 2

/-- The first call of the first session. -/
theorem holds_back_example : ∃ (s : FreeRun ByteStore) (c : OutputSession) (w' : World ByteStore),
    s.session = some c ∧ digWatchdog (countSystem true) 8 s.world = .ok () w' ∧
      ¬ Raises s.world w' := by
  have hrun : (freeRun (countSystem true) (fun _ _ => True) (exampleChip 1 0 0) 0 (fun _ => 0)
      ((loopToOp false).take 10)).map (fun s =>
        (s.session, s.world.softwareInCharge (countSystem true), s.spent,
          (digWatchdog (countSystem true) 8 s.world).seen fun _ => ())) =
        some (some .begun, true, false, some ()) := by
    decide +kernel
  obtain ⟨s, hs, hseen⟩ := Option.map_eq_some_iff.mp hrun
  simp only [Prod.mk.injEq] at hseen
  obtain ⟨hc, hsw, hspent, hcall⟩ := hseen
  cases hrun' : digWatchdog (countSystem true) 8 s.world with
  | ok a w' =>
      exact ⟨s, .begun, w', hc, hrun', holds_back (freeRun_reached hs) (fun _ _ => hspent) hsw hc
        (by decide) hrun'⟩
  | fault e =>
      rw [hrun'] at hcall
      cases hcall
  | diverge =>
      rw [hrun'] at hcall
      cases hcall

/-- A session begins with the counter at zero, with either value of `use_hw_watchdog`. -/
theorem session_begins_spent : ¬ ∃ useHw : Bool, ∀ (sys : System ByteStore)
    (s : FreeRun ByteStore) (c : OutputSession) (n : ℕ) (w' : World ByteStore),
      sys.cfg.useHwWatchdog = useHw → FreeRun.Reached sys (fun _ _ => True) s →
      s.world.softwareInCharge sys = true → s.session = some c →
      (c.sm2Events.length : ℤ) + 1 ≤ sys.cfg.watchdogCnt - 1 →
      digWatchdog sys n s.world = .ok () w' → ¬ Raises s.world w' := by
  have hrun : ∀ useHw : Bool, (freeRun (countSystem useHw) (fun _ _ => True) (exampleChip 1 0 0) 0
      (fun _ => 0) (recountLoop useHw)).map (fun s =>
        (s.session, s.world.softwareInCharge (countSystem useHw),
          raisesBy (countSystem useHw) digWatchdog s.world)) = some (some .begun, true, true) := by
    decide +kernel
  rintro ⟨useHw, hclaim⟩
  obtain ⟨s, hs, hseen⟩ := Option.map_eq_some_iff.mp (hrun useHw)
  simp only [Prod.mk.injEq] at hseen
  obtain ⟨hc, hsw, hraises⟩ := hseen
  obtain ⟨_, w', hcall, hraised⟩ := exists_of_raisesBy hraises
  have hfirst : ((0 : ℕ) : ℤ) + 1 ≤ 2 - 1 := by decide
  exact hclaim (countSystem useHw) s .begun 8 w' rfl (freeRun_reached hs) hsw hc hfirst hcall
    hraised

end Soes
