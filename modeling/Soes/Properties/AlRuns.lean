import Soes.Abstract.AlInvariants
import Soes.Properties.SlaveRefinement
import Soes.Stack.RegisterFile

/-!
# The AL state along a run

The invariants of the AL state machine, carried over to the stack by `Reached.shows`: that the
application follows the AL state, that the slave does not raise its own AL state, that a request
for OP is held in SAFEOP, and that a held request is fed with process data.  The stack breaks each
of them in some way, so each comes with a condition on the calls of a run, in terms of the state
before the call and of what the ESC then answers; a run that meets the condition keeps the
invariant.
-/

namespace Soes

open Program

variable {σ : Type} {sys : System σ} {n : ℕ} {w w' : World σ} {a : AlView}

/-! ## What is seen of the slave -/

/-- The AL state, without the error indication. -/
def World.alNibble (w : World σ) : Byte := w.al.alStatus.setWidth 8 &&& escregAlErrackmask

/-- What an AL control request asks for. -/
def World.requested (sys : System σ) (w : World σ) : Byte :=
  (w.readControl sys).controlByte &&& escregAlErrackmask

/-- `ESC_state` acts on an AL control request: there is one, and an error does not stay. -/
def World.acts (sys : System σ) (w : World σ) : Prop :=
  w.alEvent &&& escregAleventControl ≠ 0 ∧
    ¬ errorStays (w.readControl sys).controlByte w.statusByte

instance (sys : System σ) (w : World σ) : Decidable (w.acts sys) := by
  unfold World.acts; infer_instance

/-- The hooks of the example device do not alter the states, as there are none. -/
lemma exampleHooks : HooksNeutral exampleSystem where
  pre := by rintro call ⟨⟩
  post := by rintro call ⟨⟩

lemma AlSt.code_injective : Function.Injective AlSt.code := by
  intro st st' h
  cases st <;> cases st' <;> first | rfl | exact absurd h (by decide)

lemma Shows.nibble (h : Shows w.core a) : w.alNibble = a.st.code := by
  have hstatus : w.statusByte = a.st.statusCode a.err := h.status
  rw [← statusCode_nibble a.st a.err, ← hstatus, World.statusByte, BitVec.and_assoc]
  rfl

lemma Shows.nibble_iff (h : Shows w.core a) (st : AlSt) : w.alNibble = st.code ↔ a.st = st := by
  rw [h.nibble, AlSt.code_injective.eq_iff]

/-- A call of `ESC_state` that acts on a request, to the AL state machine. -/
lemma Shows.acts (h : Shows w.core a) (hevent : w.alEvent &&& escregAleventControl ≠ 0) :
    a.Acts (confirms (w.readControl sys).controlByte) ↔ w.acts sys := by
  have hstatus : w.statusByte = a.st.statusCode a.err := h.status
  have hmask : (w.readControl sys).controlByte &&& escregAlStatemask =
      (w.readControl sys).controlByte := by
    rw [World.controlByte, BitVec.and_assoc, BitVec.and_self]
  rw [World.acts, hstatus, errorStays_iff a.st a.err _ hmask]
  constructor
  · intro hacts
    refine ⟨hevent, ?_⟩
    rintro ⟨herr, hno⟩
    exact absurd (hacts herr) (by rw [hno]; decide)
  · rintro ⟨-, hstay⟩ herr
    exact Bool.eq_false_imp_eq_true.mp fun hno => absurd ⟨herr, hno⟩ hstay

/-- Invariants of the AL state machine hold along runs of the stack: `P` does, if only the events
of `leaves` can end it, and no call that meets the condition of the run is one of these. -/
theorem Reached.view {ok : World σ → ℕ × Call σ → Prop} (hooks : HooksNeutral sys)
    (P : AlView → Prop) (leaves : AlView → AlEvent → Prop) (hinit : P AlView.initial)
    (hstep : ∀ {a b e}, a.Quiet → P a → ¬ leaves a e → AlView.Stepped a e b → P b)
    (hok : ∀ {w a l e}, Shows w.core a → a.Quiet → P a → ok w l → CallEvent sys w l e →
      ¬ leaves a e)
    (h : Reached sys ok w) : ∃ a, Shows w.core a ∧ a.Quiet ∧ P a := by
  obtain ⟨a, hshows, ha⟩ := h.shows (fun a e => a.Quiet → P a → ¬ leaves a e) hooks
    fun _ _ _ _ hw hl he hquiet hP => hok hw hquiet hP hl he
  refine ⟨a, hshows, ha.invariant (P := fun a => a.Quiet ∧ P a) (fun a ha => ?_) ?_⟩
  · rw [ha]
    exact ⟨⟨by decide, by decide⟩, hinit⟩
  · intro a e a' ⟨hquiet, hP⟩ hno ha'
    have hs := AlView.step_stepped a e
    rw [← ha'] at hs
    exact ⟨hquiet.stepped hs, hstep hquiet hP (hno hquiet hP) hs⟩

/-! ## The application follows the AL state -/

/-- The application state is that of the AL state. -/
def AppFollows (w : World σ) : Prop :=
  (w.al.appState = appstateIdle ↔
    w.alNibble = escInit ∨ w.alNibble = escPreop ∨ w.alNibble = escBoot) ∧
  (w.al.appState = appstateInput ↔ w.alNibble = escSafeop) ∧
  (w.al.appState = appstateInput ||| appstateOutput ↔ w.alNibble = escOp)

lemma Shows.appFollows (h : Shows w.core a) (hfollows : a.Follows) : AppFollows w := by
  have happ : w.al.appState = appCode a.st.inputs a.st.outputs := by
    rw [← hfollows.inputs, ← hfollows.outputs]
    exact h.app
  rw [AppFollows, happ, h.nibble]
  cases a.st <;> decide

/-- The calls that do not leave the application behind: `ESC_state` in SAFEOP is not asked for 0,
and accepts SAFEOP if it is asked for that; a sync error is counted in SAFEOP or OP only; and a held
request ends in SAFEOP. -/
def FollowsOk (sys : System σ) (w : World σ) : ℕ × Call σ → Prop
  | (n, .state) => w.acts sys → w.alNibble = escSafeop →
      w.requested sys ≠ 0 ∧
      (w.requested sys = escSafeop → SafeopAccepted sys n (w.atSwitch sys))
  | (_, .sync0Account smEventSeen) => w.sync0Trips smEventSeen →
      w.alNibble = escSafeop ∨ w.alNibble = escOp
  | (_, .opPendingStep sync0 smEvent elapsedNs) => w.pendingEnds sync0 smEvent elapsedNs →
      w.alNibble = escSafeop
  | _ => True

/-- An error of a check that guards outputs is an error in OP. -/
lemma GuardEvent.op (h : Shows w.core a) (hquiet : a.Quiet) {e : AlEvent} (he : GuardEvent w e) :
    e = .idle ∨ e = .error ∧ a.st = .op := by
  rcases he with rfl | ⟨rfl, hout⟩
  · exact .inl rfl
  · exact .inr ⟨rfl, (hquiet.outputs (h.outputs_iff.mp hout)).1⟩

lemma not_leavesApp (h : Shows w.core a) {l : ℕ × Call σ} (hok : FollowsOk sys w l) {e : AlEvent}
    (he : CallEvent sys w l e) (hquiet : a.Quiet) : ¬ a.LeavesApp e := by
  have guard : GuardEvent w e → ¬ a.LeavesApp e := fun hg => by
    rcases hg.op h hquiet with rfl | ⟨rfl, hst⟩
    · exact id
    · exact fun hl => hl.2 hst
  obtain ⟨n, call⟩ := l
  cases call with
  | state =>
      cases he with
      | idle => exact id
      | request v hevent hv =>
          rintro ⟨hacts, hst, hreq⟩
          obtain ⟨hzero, hsafeop⟩ := hok ((h.acts hevent).mp hacts) ((h.nibble_iff .safeop).mpr hst)
          rcases hreq with hreq | ⟨hreq, href⟩
          · exact hzero (ofNibble_zero hreq)
          · exact hv href (hsafeop (ofNibble_state hreq))
  | smActEvent => cases he <;> exact id
  | process => exact guard he
  | waited => exact guard he
  | sync0Account seen =>
      rcases he with rfl | ⟨rfl, htrip⟩
      · exact id
      · rintro ⟨hsafeop, hop⟩
        rcases hok htrip with hst | hst
        · exact hsafeop ((h.nibble_iff .safeop).mp hst)
        · exact hop ((h.nibble_iff .op).mp hst)
  | opPendingStep sync0 smEvent ns =>
      rcases he with rfl | ⟨he, hends⟩
      · exact id
      · have hst := (h.nibble_iff .safeop).mp (hok hends)
        rcases he with rfl | rfl <;> exact fun hl => hl.2 hst
  | move | mbxprocess | coeprocess | xoeprocess | noteSmEvent =>
      cases he
      exact id

/-- **The application follows the AL state**, in every run whose calls meet `FollowsOk`. -/
theorem app_follows (hooks : HooksNeutral sys) (h : Reached sys (FollowsOk sys) w) :
    AppFollows w := by
  obtain ⟨a, hshows, -, hfollows⟩ := h.view hooks AlView.Follows AlView.LeavesApp ⟨rfl, rfl⟩
    (fun _ hP hno hs => hP.stepped hno hs) fun hw hquiet _ hok he =>
      not_leavesApp hw hok he hquiet
  exact hshows.appFollows hfollows

instance (sys : System σ) (w : World σ) (l : ℕ × Call σ) : Decidable (FollowsOk sys w l) :=
  match l with
  | (_, .state) | (_, .sync0Account _) | (_, .opPendingStep ..) => by
      dsimp only [FollowsOk]
      infer_instance
  | (_, .move ..) | (_, .mbxprocess) | (_, .coeprocess) | (_, .xoeprocess)
  | (_, .process _) | (_, .waited _) | (_, .noteSmEvent _)
  | (_, .smActEvent) => .isTrue trivial

/-- The example device on its way to OP. -/
theorem app_follows_to_op : ∃ w, Reached exampleSystem (FollowsOk exampleSystem) w ∧
    w.alNibble = escOp ∧ AppFollows w := by
  have hrun : (exampleRun (FollowsOk exampleSystem) (masterRequest 2 0 ++ masterRequest 4 0 ++
      masterRequest 8 0)).map World.alNibble = some escOp := by
    decide +kernel
  obtain ⟨w, hw, hop⟩ := exists_reached hrun
  exact ⟨w, hw, hop, app_follows exampleHooks hw⟩

/-- Without the condition the application is left behind: asked for 0 in SAFEOP, the slave shows
SAFEOP with an error, and no longer produces inputs. -/
theorem app_left_behind : ¬ ∀ (sys : System ByteStore) (w : World ByteStore), HooksNeutral sys →
    Reached sys (fun _ _ => True) w → AppFollows w := by
  intro h
  have hrun : (exampleRun (fun _ _ => True) (masterRequest 2 0 ++ masterRequest 4 0 ++
      masterRequest 0 0)).map (fun w => (w.al.appState, w.alNibble)) =
      some (appstateIdle, escSafeop) := by
    decide +kernel
  obtain ⟨w, hw, hseen⟩ := exists_reached hrun
  obtain ⟨happ, hnibble⟩ := Prod.mk.inj hseen
  have hinput := (h exampleSystem w exampleHooks hw).2.1.mpr hnibble
  exact absurd (happ.symm.trans hinput) (by decide)

/-! ## A request is held in SAFEOP -/

/-- The calls that keep a held request where it belongs: OP is asked for under DC in SAFEOP only
while the application produces inputs, and a check of the SyncManagers while a request is held is
passed. -/
def HeldOk (sys : System σ) (w : World σ) : ℕ × Call σ → Prop
  | (_, .state) => w.acts sys → w.alNibble = escSafeop → w.requested sys = escOp →
      w.al.dcsync ≠ 0 → w.al.appState &&& appstateInput ≠ 0
  | (_, .smActEvent) => w.al.opPending = true → w.smHandled →
      w.mbxOk sys = true ∧ w.pdOk sys = true
  | _ => True

lemma Flags.inputs_iff {c : AlCore} (h : Flags c a) :
    c.app &&& appstateInput ≠ 0 ↔ a.inputs = true := by
  rw [h.app]
  cases a.inputs <;> cases a.outputs <;> decide

lemma not_leavesHeld (h : Shows w.core a) {l : ℕ × Call σ} (hok : HeldOk sys w l) {e : AlEvent}
    (he : CallEvent sys w l e) : ¬ a.LeavesHeld e := by
  obtain ⟨n, call⟩ := l
  cases call with
  | state =>
      cases he with
      | idle => exact id
      | request v hevent hv =>
          rintro ⟨hacts, hst, hreq, hdc, hin⟩
          have hin' := hok ((h.acts hevent).mp hacts) ((h.nibble_iff .safeop).mpr hst)
            (ofNibble_state hreq) (of_decide_eq_true (h.dc.trans hdc))
          exact absurd (h.inputs_iff.mp hin') (by rw [hin]; decide)
  | smActEvent =>
      cases he with
      | idle => exact id
      | change hhandled =>
          rintro ⟨hpend, hbad⟩
          obtain ⟨hmbx, hpd⟩ := hok (h.pending.trans hpend) hhandled
          rcases hbad with hbad | hbad
          · exact absurd (hmbx.symm.trans hbad) (by decide)
          · exact absurd (hpd.symm.trans hbad) (by decide)
  | process | waited | sync0Account => rcases he with rfl | ⟨rfl, -⟩ <;> exact id
  | opPendingStep => rcases he with rfl | ⟨rfl | rfl, -⟩ <;> exact id
  | move | mbxprocess | coeprocess | xoeprocess | noteSmEvent =>
      cases he
      exact id

/-- **A request for OP is held in SAFEOP only**, without an error and with inputs but no outputs, in
every run whose calls meet `HeldOk`; and `ESC_op_pending_step` does nothing to the AL state and the
application in any other AL state. -/
theorem held_in_safeop (hooks : HooksNeutral sys) (h : Reached sys (HeldOk sys) w) :
    (w.al.opPending = true → w.statusByte = escSafeop ∧ w.al.appState = appstateInput) ∧
    ∀ sync0 smEvent elapsedNs w', Stack.Step sys w (n, .opPendingStep sync0 smEvent elapsedNs) w' →
      w.statusByte ≠ escSafeop →
      w'.al.appState = w.al.appState ∧ w'.al.alStatus = w.al.alStatus := by
  obtain ⟨a, hshows, -, hheld⟩ := h.view hooks AlView.Held AlView.LeavesHeld
    (fun hp => absurd hp (by decide)) (fun hquiet hP hno hs => hP.stepped hquiet hno hs)
    fun hw _ _ hok he => not_leavesHeld hw hok he
  have hpending : w.al.opPending = true →
      w.statusByte = escSafeop ∧ w.al.appState = appstateInput := by
    intro hp
    obtain ⟨hst, herr, hin, hout⟩ := hheld (hshows.pending.symm.trans hp)
    have hstatus : w.statusByte = a.st.statusCode a.err := hshows.status
    have happ : w.al.appState = appCode a.inputs a.outputs := hshows.app
    rw [hstatus, happ, hst, herr, hin, hout]
    exact ⟨rfl, by decide⟩
  refine ⟨hpending, fun sync0 smEvent ns w' hstep hne => ?_⟩
  have hnone : ¬ w.al.opPending = true := fun hp => hne (hpending hp).1
  have hsame : w' = w := by
    have hrun : escOpPendingStep sync0 smEvent ns sys n w = .ok () w' := hstep
    have hwlp : wlp sys n (escOpPendingStep sync0 smEvent ns) (fun _ w' => w' = w) w := by
      rw [escOpPendingStep, wlp_get_bind]
      exact .when (fun hp => absurd hp hnone) fun _ => rfl
    exact hwlp _ _ hrun
  rw [hsame]
  exact ⟨rfl, rfl⟩

instance (sys : System σ) (w : World σ) (l : ℕ × Call σ) : Decidable (HeldOk sys w l) := by
  obtain ⟨n, call⟩ := l
  cases call <;> simp only [HeldOk] <;> infer_instance

/-- The example device with a request for OP held. -/
theorem held_in_safeop_under_dc : ∃ w, Reached exampleSystem (HeldOk exampleSystem) w ∧
    w.al.opPending = true ∧ w.statusByte = escSafeop ∧ w.al.appState = appstateInput := by
  have hrun : (exampleRun (HeldOk exampleSystem) (masterRequest 2 1 ++ masterRequest 4 1 ++
      masterRequest 8 1)).map (fun w => w.al.opPending) = some true := by
    decide +kernel
  obtain ⟨w, hw, hpend⟩ := exists_reached hrun
  exact ⟨w, hw, hpend, (held_in_safeop (n := 8) exampleHooks hw).1 hpend⟩

/-- The master takes the SyncManagers away, and the stack notices. -/
def dropSyncManagers : List (ℕ × Call ByteStore) :=
  [(0, .move (ByteStore.setDword (fun _ => 0) escregAlevent escregAleventSmchange)
    escregAleventSmchange fun _ => 0), (8, .smActEvent)]

/-- Without the condition a request is held in INIT: the SyncManagers are taken away while it is
held. -/
theorem held_in_init : ¬ ∀ (sys : System ByteStore) (w : World ByteStore), HooksNeutral sys →
    Reached sys (fun _ _ => True) w → w.al.opPending = true →
    w.statusByte = escSafeop ∧ w.al.appState = appstateInput := by
  intro h
  have hrun : (exampleRun (fun _ _ => True) (masterRequest 2 1 ++ masterRequest 4 1 ++
      masterRequest 8 1 ++ dropSyncManagers)).map (fun w => (w.al.opPending, w.alNibble)) =
      some (true, escInit) := by
    decide +kernel
  obtain ⟨w, hw, hseen⟩ := exists_reached hrun
  obtain ⟨hpend, hnibble⟩ := Prod.mk.inj hseen
  have hsafeop := (h exampleSystem w exampleHooks hw hpend).1
  have hnibble' : w.alNibble = escSafeop := by
    rw [World.statusByte] at hsafeop
    rw [World.alNibble, ← show escSafeop &&& escregAlErrackmask = escSafeop by decide, ← hsafeop,
      BitVec.and_assoc]
    rfl
  exact absurd (hnibble.symm.trans hnibble') (by decide)

/-! ## A held request is fed -/

/-- The calls that do not let a held request wait in vain: OP is asked for under DC in SAFEOP only
while SM2 is enabled, if there is output process data; and while a request is held and there is
such data, a check of the SyncManagers does not stop the application. -/
def FedOk (sys : System σ) (w : World σ) : ℕ × Call σ → Prop
  | (_, .state) => w.acts sys → w.alNibble = escSafeop → w.requested sys = escOp →
      w.al.dcsync ≠ 0 → w.al.escSm2Sml ≠ 0 → w.sm.pdi 2 = true
  | (_, .smActEvent) => w.al.opPending = true → w.al.escSm2Sml ≠ 0 → w.al.appState ≠ 0 →
      w.smHandled → w.mbxOk sys = true ∧ w.pdOk sys = true
  | _ => True

lemma not_starves (h : Shows w.core a) {l : ℕ × Call σ} (hok : FedOk sys w l) {e : AlEvent}
    (he : CallEvent sys w l e) : ¬ a.Starves e := by
  obtain ⟨n, call⟩ := l
  cases call with
  | state =>
      cases he with
      | idle => exact id
      | request v hevent hv =>
          rintro ⟨hacts, hst, hreq, hdc, hmapped, hsm2⟩
          have hsm2' := hok ((h.acts hevent).mp hacts) ((h.nibble_iff .safeop).mpr hst)
            (ofNibble_state hreq) (of_decide_eq_true (h.dc.trans hdc))
            (of_decide_eq_true (h.mapped.trans hmapped))
          exact absurd ((h.sm2.symm.trans hsm2').symm.trans hsm2) (by decide)
  | smActEvent =>
      cases he with
      | idle => exact id
      | change hhandled =>
          rintro ⟨hpend, hmapped, hrun, hbad⟩
          obtain ⟨hmbx, hpd⟩ := hok (h.pending.trans hpend)
            (of_decide_eq_true (h.mapped.trans hmapped)) (h.idle_iff.mpr hrun) hhandled
          rcases hbad with hbad | hbad
          · exact absurd (hmbx.symm.trans hbad) (by decide)
          · exact absurd (hpd.symm.trans hbad) (by decide)
  | process | waited | sync0Account => rcases he with rfl | ⟨rfl, -⟩ <;> exact id
  | opPendingStep => rcases he with rfl | ⟨rfl | rfl, -⟩ <;> exact id
  | move | mbxprocess | coeprocess | xoeprocess | noteSmEvent =>
      cases he
      exact id

/-- **A held request is fed**: SM2 is enabled if there is output process data, in every run whose
calls meet `FedOk`; and a request for OP in SAFEOP that is acted on, by a call that meets it too,
leaves SM2 enabled in this sense, whether or not it is held, and under DC it is. -/
theorem held_is_fed (hooks : HooksNeutral sys) (h : Reached sys (FedOk sys) w) :
    (w.al.opPending = true → w.al.escSm2Sml ≠ 0 → w.sm.pdi 2 = true) ∧
    ∀ w', FedOk sys w (n, .state) → Stack.Step sys w (n, .state) w' → w.acts sys →
      w.alNibble = escSafeop → w.requested sys = escOp →
      (w.al.dcsync ≠ 0 → w'.al.opPending = true) ∧
        (w'.al.escSm2Sml ≠ 0 → w'.sm.pdi 2 = true) := by
  obtain ⟨a, hshows, -, hfed⟩ := h.view hooks AlView.Fed AlView.Starves
    (fun hp => absurd hp (by decide)) (fun _ hP hno hs => hP.stepped hno hs)
    fun hw _ _ hok he => not_starves hw hok he
  constructor
  · exact fun hp hsml => hshows.sm2.trans (hfed (hshows.pending.symm.trans hp)
      (hshows.mapped.symm.trans (decide_eq_true hsml)))
  · intro w' hok hstep hacts hst hreq
    obtain ⟨e, hshows', he⟩ := hstep.refines hooks hshows
    have hno := not_starves hshows hok he
    cases he with
    | idle hnone => exact absurd hnone hacts.1
    | request v hevent _ =>
        have hreq' : (w.readControl sys).controlByte &&& escregAlErrackmask = escOp := hreq
        have hop : AlReq.ofNibble escOp = .state .op := rfl
        rw [hreq', hop] at hno hshows'
        obtain ⟨hheld, hfed'⟩ := hfed.requestOp ((hshows.acts hevent).mpr hacts)
          ((hshows.nibble_iff .safeop).mp hst) hno
        refine ⟨fun hdc => ?_, fun hsml => ?_⟩
        · exact hshows'.pending.trans (hheld (hshows.dc.symm.trans (decide_eq_true hdc)))
        · exact hshows'.sm2.trans (hfed' (hshows'.mapped.symm.trans (decide_eq_true hsml)))

instance (sys : System σ) (w : World σ) (l : ℕ × Call σ) : Decidable (FedOk sys w l) := by
  obtain ⟨n, call⟩ := l
  cases call <;> simp only [FedOk] <;> infer_instance

/-- The example device with a request for OP held, on the way up. -/
theorem held_is_fed_from_preop : ∃ w, Reached exampleSystem (FedOk exampleSystem) w ∧
    w.al.opPending = true ∧ w.al.escSm2Sml ≠ 0 ∧ w.sm.pdi 2 = true := by
  have hrun : (exampleRun (FedOk exampleSystem) (masterRequest 2 1 ++ masterRequest 4 1 ++
      masterRequest 8 1)).map (fun w => (w.al.opPending, w.al.escSm2Sml)) = some (true, 1) := by
    decide +kernel
  obtain ⟨w, hw, hseen⟩ := exists_reached hrun
  obtain ⟨hpend, hsml⟩ := Prod.mk.inj hseen
  have hne : w.al.escSm2Sml ≠ 0 := by
    rw [hsml]
    decide
  exact ⟨w, hw, hpend, hne, (held_is_fed (n := 8) exampleHooks hw).1 hpend hne⟩

/-- Without the condition a held request starves: OP is left for SAFEOP, which disables SM2, and
asked for again. -/
theorem held_starves : ¬ ∀ (sys : System ByteStore) (w : World ByteStore), HooksNeutral sys →
    Reached sys (fun _ _ => True) w → w.al.opPending = true → w.al.escSm2Sml ≠ 0 →
    w.sm.pdi 2 = true := by
  intro h
  have hrun : (exampleRun (fun _ _ => True) (masterRequest 2 1 ++ masterRequest 4 1 ++
      masterRequest 8 1 ++ [(8, .opPendingStep true true 200000000)] ++ masterRequest 4 1 ++
      masterRequest 8 1)).map (fun w => (w.al.opPending, w.al.escSm2Sml, w.sm.pdi 2)) =
      some (true, 1, false) := by
    decide +kernel
  obtain ⟨w, hw, hseen⟩ := exists_reached hrun
  obtain ⟨hpend, hrest⟩ := Prod.mk.inj hseen
  obtain ⟨hsml, hsm2⟩ := Prod.mk.inj hrest
  have hne : w.al.escSm2Sml ≠ 0 := by
    rw [hsml]
    decide
  have hon := h exampleSystem w exampleHooks hw hpend hne
  exact absurd (hsm2.symm.trans hon) (by decide)

/-! ## The slave is not raised -/

/-- The rank of the AL state: INIT and BOOT, PREOP, SAFEOP, OP, from low to high. -/
def World.alRank (w : World σ) : ℕ :=
  if w.alNibble = escPreop then 1
  else if w.alNibble = escSafeop then 2
  else if w.alNibble = escOp then 3
  else 0

lemma Shows.rank (h : Shows w.core a) : w.alRank = a.st.rank := by
  rw [World.alRank, h.nibble]
  cases a.st <;> rfl

/-- The calls that do not raise the slave on their own account: a sync error is counted in SAFEOP or
OP only, a held request ends in SAFEOP, and a check of the SyncManagers in BOOT does not fail for
the process data while the application runs. -/
def OrderOk (sys : System σ) (w : World σ) : ℕ × Call σ → Prop
  | (_, .smActEvent) => w.smHandled → w.alNibble = escBoot → w.mbxOk sys = true →
      w.al.appState ≠ 0 → w.pdOk sys = true
  | (_, .sync0Account smEventSeen) => w.sync0Trips smEventSeen →
      w.alNibble = escSafeop ∨ w.alNibble = escOp
  | (_, .opPendingStep sync0 smEvent elapsedNs) => w.pendingEnds sync0 smEvent elapsedNs →
      w.alNibble = escSafeop
  | _ => True

/-- In INIT, a change of the SyncManagers is not acted on. -/
lemma smHandled_not_init (h : Shows w.core a) (hhandled : w.smHandled) : a.st ≠ .init := by
  intro hst
  have hstatus : w.statusByte = a.st.statusCode a.err := h.status
  refine hhandled.1.2.1 ?_
  rw [hstatus, hst]
  cases a.err <;> decide

lemma not_raises (h : Shows w.core a) {l : ℕ × Call σ} (hok : OrderOk sys w l) {e : AlEvent}
    (he : CallEvent sys w l e) (hquiet : a.Quiet) : ¬ a.Raises e := by
  have guard : GuardEvent w e → ¬ a.Raises e := fun hg => by
    rcases hg.op h hquiet with rfl | ⟨rfl, hst⟩
    · exact id
    · exact fun hl => hl.2 hst
  obtain ⟨n, call⟩ := l
  cases call with
  | state => cases he <;> exact id
  | smActEvent =>
      cases he with
      | idle => exact id
      | change hhandled =>
          rintro ⟨hrank, hmbx, hpd, hrun⟩
          have hboot : a.st = .boot := by
            have hinit := smHandled_not_init h hhandled
            cases hst : a.st with
            | boot => rfl
            | init => exact absurd hst hinit
            | preop | safeop | op => exact absurd hrank (by rw [hst]; decide)
          have hpd' := hok hhandled ((h.nibble_iff .boot).mpr hboot) hmbx (h.idle_iff.mpr hrun)
          exact absurd (hpd'.symm.trans hpd) (by decide)
  | process => exact guard he
  | waited => exact guard he
  | sync0Account seen =>
      rcases he with rfl | ⟨rfl, htrip⟩
      · exact id
      · rintro ⟨hsafeop, hop⟩
        rcases hok htrip with hst | hst
        · exact hsafeop ((h.nibble_iff .safeop).mp hst)
        · exact hop ((h.nibble_iff .op).mp hst)
  | opPendingStep sync0 smEvent ns =>
      rcases he with rfl | ⟨he, hends⟩
      · exact id
      · have hst := (h.nibble_iff .safeop).mp (hok hends)
        rcases he with rfl | rfl <;> exact fun hl => hl.2 hst
  | move | mbxprocess | coeprocess | xoeprocess | noteSmEvent =>
      cases he
      exact id

/-- **The slave does not raise its own AL state**, in a run whose calls meet `OrderOk`: a call that
does is one of `ESC_state` that acts on a request, or one of `ESC_op_pending_step` that completes a
request for OP still held in SAFEOP. -/
theorem never_raised (hooks : HooksNeutral sys) (h : Reached sys (OrderOk sys) w)
    {l : ℕ × Call σ} (hok : OrderOk sys w l) (hstep : Stack.Step sys w l w') :
    w'.alRank ≤ w.alRank ∨
      (∃ n, l = (n, .state)) ∧ w.acts sys ∨
      (∃ n sync0 smEvent elapsedNs, l = (n, .opPendingStep sync0 smEvent elapsedNs)) ∧
        w.al.opPending = true ∧ w.alNibble = escSafeop ∧ w'.alNibble = escOp := by
  obtain ⟨a, hshows, hquiet, -⟩ := h.view hooks (fun _ => True) AlView.Raises trivial
    (fun _ _ _ _ => trivial) fun hw hquiet _ hok he => not_raises hw hok he hquiet
  obtain ⟨e, hshows', he⟩ := hstep.refines hooks hshows
  rcases AlView.rank_stepped (not_raises hshows hok he hquiet) (AlView.step_stepped a e) with
    hrank | ⟨req, ack, v, rfl, hacts⟩ | ⟨rfl, hpend, hst⟩
  · exact .inl (by rw [hshows.rank, hshows'.rank]; exact hrank)
  · refine .inr (.inl ?_)
    obtain ⟨n, call⟩ := l
    cases call with
    | state =>
        cases he with
        | request v hevent _ => exact ⟨⟨n, rfl⟩, (hshows.acts hevent).mp hacts⟩
    | smActEvent => cases he
    | process | waited | sync0Account => rcases he with he | ⟨he, -⟩ <;> cases he
    | opPendingStep => rcases he with he | ⟨he | he, -⟩ <;> cases he
    | move | mbxprocess | coeprocess | xoeprocess | noteSmEvent => cases he
  · refine .inr (.inr ?_)
    have hop : w'.alNibble = escOp := by
      rw [hshows'.nibble, AlView.step, AlView.complete, if_pos hpend]
      rfl
    have hsafeop : w.alNibble = escSafeop := (hshows.nibble_iff .safeop).mpr hst
    obtain ⟨n, call⟩ := l
    cases call with
    | opPendingStep sync0 smEvent ns =>
        exact ⟨⟨n, sync0, smEvent, ns, rfl⟩, hshows.pending.trans hpend, hsafeop, hop⟩
    | state | smActEvent => cases he
    | process | waited | sync0Account => rcases he with he | ⟨he, -⟩ <;> cases he
    | move | mbxprocess | coeprocess | xoeprocess | noteSmEvent => cases he

instance (sys : System σ) (w : World σ) (l : ℕ × Call σ) : Decidable (OrderOk sys w l) := by
  obtain ⟨n, call⟩ := l
  cases call <;> simp only [OrderOk] <;> infer_instance

/-- The example device, when a held request is completed. -/
theorem raised_by_completion : ∃ w w', Reached exampleSystem (OrderOk exampleSystem) w ∧
    Stack.Step exampleSystem w (8, .opPendingStep true true 200000000) w' ∧
    w.alRank < w'.alRank ∧ w.al.opPending = true ∧ w.alNibble = escSafeop ∧
    w'.alNibble = escOp := by
  have hrun : (exampleRun (OrderOk exampleSystem) (masterRequest 2 1 ++ masterRequest 4 1 ++
      masterRequest 8 1)).map (fun w => (w.alRank, (runCalls exampleSystem
        (OrderOk exampleSystem) [(8, .opPendingStep true true 200000000)] w).map World.alRank)) =
      some (2, some 3) := by
    decide +kernel
  obtain ⟨w, w', hw, hrank, hok, hstep, hrank'⟩ := exists_reached_step hrun
  refine ⟨w, w', hw, hstep, by rw [hrank, hrank']; decide, ?_⟩
  rcases never_raised exampleHooks hw hok hstep with hle | ⟨⟨n, hl⟩, -⟩ | ⟨-, hpend⟩
  · exact absurd hle (by rw [hrank, hrank']; decide)
  · cases hl
  · exact hpend

/-- Without the condition a sync error raises the slave from INIT to SAFEOP: the counter goes on
counting there under DC, and the error is written whatever the AL state is. -/
theorem raised_by_sync_error : ¬ ∀ (sys : System ByteStore) (w w' : World ByteStore)
    (l : ℕ × Call ByteStore), HooksNeutral sys → Reached sys (fun _ _ => True) w →
    Stack.Step sys w l w' →
    w'.alRank ≤ w.alRank ∨
      (∃ n, l = (n, .state)) ∧ w.acts sys ∨
      (∃ n sync0 smEvent elapsedNs, l = (n, .opPendingStep sync0 smEvent elapsedNs)) ∧
        w.al.opPending = true ∧ w.alNibble = escSafeop ∧ w'.alNibble = escOp := by
  intro h
  have hrun : (exampleRun (fun _ _ => True) (masterRequest 2 1 ++ masterRequest 4 1 ++
      masterRequest 1 1 ++ List.replicate 3 (8, .sync0Account false))).map (fun w => (w.alRank,
        (runCalls exampleSystem (fun _ _ => True) [(8, .sync0Account false)] w).map
          World.alRank)) = some (0, some 2) := by
    decide +kernel
  obtain ⟨w, w', hw, hrank, -, hstep, hrank'⟩ := exists_reached_step hrun
  rcases h exampleSystem w w' _ exampleHooks hw hstep with hle | ⟨⟨n, hl⟩, -⟩ | ⟨hl, -⟩
  · exact absurd hle (by rw [hrank, hrank']; decide)
  · cases hl
  · obtain ⟨n, sync0, smEvent, ns, hl⟩ := hl
    cases hl

end Soes
