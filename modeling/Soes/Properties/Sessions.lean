import Soes.Properties.AlRuns
import Soes.Properties.MbxProcess

/-!
# Mailbox sessions

The mailboxes are started on the way from INIT to PREOP or BOOT, stopped on the way back to INIT,
and left alone by everything else on the AL side.  `Session` lists what can become of them with the
AL state, and `Stack.Step.session` says that each call of the AL side does one of these things.

While the mailboxes run they should be set up for the AL state: as bootstrap mailboxes in BOOT, as
standard mailboxes in PREOP, SAFEOP and OP.  The stack breaks this when it leaves BOOT for another
state than INIT, which it does to show an error: it then shows PREOP, and the bootstrap mailboxes
run on.
-/

namespace Soes

open Program

variable {σ : Type} {sys : System σ} {n : ℕ} {w w' : World σ} {a : AlView}

/-! ## What can become of the mailboxes -/

/-- The states with standard mailboxes. -/
def AlSt.standard : AlSt → Bool
  | .preop | .safeop | .op => true
  | _ => false

/-- The size and settings of the mailboxes that run in PREOP, SAFEOP and OP. -/
def Options.standardMode (o : Options) : ℕ × SmCfg × SmCfg := (o.mbxSize, o.mb0, o.mb1)

/-- The size and settings of the mailboxes that run in BOOT. -/
def Options.bootMode (o : Options) : ℕ × SmCfg × SmCfg := (o.mbxSizeBoot, o.mbboot0, o.mbboot1)

/-- The size and settings that are in use. -/
def Mailbox.mode (m : Mailbox) : ℕ × SmCfg × SmCfg := (m.activembxsize, m.activemb0, m.activemb1)

/-- What becomes of the mailboxes `m` of a slave in the state `st`. `stops` is what it takes to stop
them, and `refused` to fail to start them again in BOOT. -/
inductive Session (o : Options) (stops refused : Prop) (st : AlSt) (m : Mailbox) :
    AlSt → Mailbox → Prop where
  /-- Nothing; the AL state stays, or changes to one with standard mailboxes. -/
  | kept {st' : AlSt} (hst : st' = st ∨ st'.standard = true) : Session o stops refused st m st' m
  /-- They are stopped. -/
  | stopped (hstops : stops) : Session o stops refused st m .init (m.stopped o.mbxBuffers)
  /-- The standard mailboxes are started. -/
  | started (hst : st = .init) (toggle : Bool) :
      Session o stops refused st m .preop (m.started o.standardMode toggle true)
  /-- The bootstrap mailboxes are started. -/
  | startedBoot (hst : st = .init ∨ st = .boot) (toggle : Bool) :
      Session o stops refused st m .boot (m.started o.bootMode toggle true)
  /-- The check of SM0 and SM1 fails. -/
  | failed (hst : st = .init ∨ st = .boot ∧ refused) (mode : ℕ × SmCfg × SmCfg) (toggle : Bool) :
      Session o stops refused st m .init (m.started mode toggle false)

lemma Session.mono {o : Options} {stops refused stops' refused' : Prop} {st st' : AlSt}
    {m m' : Mailbox} (h : Session o stops refused st m st' m') (hstops : stops → stops')
    (hrefused : refused → refused') : Session o stops' refused' st m st' m' := by
  cases h with
  | kept hst => exact .kept hst
  | stopped h => exact .stopped (hstops h)
  | started hst toggle => exact .started hst toggle
  | startedBoot hst toggle => exact .startedBoot hst toggle
  | failed hst mode toggle => exact .failed (hst.imp_right fun h => ⟨h.1, hrefused h.2⟩) mode toggle

/-- A call leaves the slave in the state whose number `an` ends in. -/
def SessionResult (o : Options) (stops refused : Prop) (st : AlSt) (m : Mailbox) (an : Byte)
    (m' : Mailbox) : Prop :=
  ∃ st' : AlSt, an &&& escregAlErrackmask = st'.code ∧ Session o stops refused st m st' m'

/-- `ESC_startmbx` and `ESC_startmbxboot`, up to the check of SM0 and SM1. -/
def startmbxPrepare (mode : ℕ × SmCfg × SmCfg) : Stack σ Unit := do
  modifyMb fun m => { m with
    activembxsize := mode.1, activemb0 := mode.2.1, activemb1 := mode.2.2 }
  onBus (escSMenable 0)
  onBus (escSMenable 1)
  onBus (escSMstatus 0)
  onBus (escSMstatus 1)

/-- SM0 and SM1 are not set up as a start of the bootstrap mailboxes needs them. -/
def BootRefused (sys : System σ) (n : ℕ) (w : World σ) : Prop :=
  ∃ w₁, (do escAddress; startmbxPrepare sys.opts.bootMode) sys n w = .ok () w₁ ∧
    mbxAccepted sys.hal sys.opts.mbboot0 sys.opts.mbboot1 w₁.outside w₁.alEvent = false

/-! ## The switch -/

lemma request_nibbles (st : AlSt) : ∀ ac : Byte, ac &&& escregAlErrackmask = ac →
    ((ac <<< 4) ||| st.code) &&& 0x0f = st.code ∧ ((ac <<< 4) ||| st.code) >>> 4 = ac := by
  cases st <;> decide +kernel

lemma code_nibble (st : AlSt) : st.code &&& escregAlErrackmask = st.code := by
  cases st <;> decide

/-- Code that leaves the mailboxes alone, on the way to a fixed AL status. -/
lemma session_kept {m : Stack σ Unit} (hm : KeepsRest m) {stops refused : Prop} {st st' : AlSt}
    {an : Byte} (han : an &&& escregAlErrackmask = st'.code)
    (hst : st' = st ∨ st'.standard = true) : wlp sys n (do m; pure an)
      (fun an' w' => SessionResult sys.opts stops refused st w.mb an' w'.mb) w := by
  refine (hm sys n w).bind fun _ w' h' => (wlp_pure _ _).mpr ⟨st', han, ?_⟩
  rw [h'.mb]
  exact .kept hst

/-- The mailboxes are stopped, on the way to INIT. -/
lemma session_stopped {m : Stack σ Unit} (hm : KeepsRest m) {stops refused : Prop} {st : AlSt}
    (hstops : stops) : wlp sys n (do m; escStopmbx; pure escInit)
      (fun an' w' => SessionResult sys.opts stops refused st w.mb an' w'.mb) w := by
  refine (hm sys n w).bind fun _ w₁ h₁ => ?_
  refine (escStopmbx_leaves n w₁).bind fun _ w₂ h₂ => (wlp_pure _ _).mpr ⟨.init, by decide, ?_⟩
  rw [h₂.1, h₁.mb]
  exact .stopped hstops

/-- Starting the mailboxes. -/
lemma escStartmbxWith_session (mode : ℕ × SmCfg × SmCfg) (errornumber : Word) {state : Byte}
    (hstate : state &&& escError = 0) :
    wlp sys n (escStartmbxWith mode.1 mode.2.1 mode.2.2 errornumber state) (fun an w' =>
      ∃ toggle, an = state ∧ w'.mb = w.mb.started mode toggle true ∨
        (an = escInit ||| escError ∧ w'.mb = w.mb.started mode toggle false ∧
          ∃ w₁, startmbxPrepare mode sys n w = .ok () w₁ ∧
            mbxAccepted sys.hal mode.2.1 mode.2.2 w₁.outside w₁.alEvent = false)) w := by
  have prepared : escStartmbxWith mode.1 mode.2.1 mode.2.2 errornumber state = (do
      startmbxPrepare mode
      let state ← onBus (σ := σ) (escCheckmbx mode.2.1 mode.2.2 state)
      if state &&& escError ≠ 0 then
        escALerror errornumber
        modifyMb fun m => { m with mbxRun := false }
      else
        ackRepeat
        modifyMb fun m => { m with mbxRun := true }
      pure state) := by
    simp only [escStartmbxWith, startmbxPrepare, bind_assoc]
  have frame : wlp sys n (startmbxPrepare mode) (fun _ w' => w'.mb = { w.mb with
      activembxsize := mode.1, activemb0 := mode.2.1, activemb1 := mode.2.2 }) w := by
    rw [startmbxPrepare, modifyMb, wlp_bind, wlp_modify]
    refine (onBus_keepsMb _ sys n _).bind fun _ w₁ h₁ => ?_
    refine (onBus_keepsMb _ sys n _).bind fun _ w₂ h₂ => ?_
    refine (onBus_keepsMb _ sys n _).bind fun _ w₃ h₃ => ?_
    refine (onBus_keepsMb _ sys n _).mono fun _ w₄ h₄ => ?_
    rw [h₄.mb, h₃.mb, h₂.mb, h₁.mb]
  rw [prepared]
  refine wlp.bind (P := fun _ w' => startmbxPrepare mode sys n w = .ok () w' ∧ w'.mb =
    { w.mb with activembxsize := mode.1, activemb0 := mode.2.1, activemb1 := mode.2.2 })
    (fun _ w' hrun => ⟨hrun, frame _ w' hrun⟩) fun _ w₁ hthen => ?_
  obtain ⟨hrun, hmb₁⟩ := hthen
  refine ((onBus_keepsMb _ sys n _).and (onBus_wlp (escCheckmbx_result mode.2.1 mode.2.2
    state))).bind fun st w₂ hthen => ?_
  obtain ⟨h₂, hresult⟩ := hthen
  have hst : st = state ∨ st = escInit ||| escError ∧
      mbxAccepted sys.hal mode.2.1 mode.2.2 w₁.outside w₁.alEvent = false := by
    split at hresult
    case isTrue => exact .inl hresult.1
    case isFalse hno => exact .inr ⟨hresult, Bool.eq_false_iff.mpr hno⟩
  have hmb : w₂.mb = { w.mb with
      activembxsize := mode.1, activemb0 := mode.2.1, activemb1 := mode.2.2 } := by
    rw [h₂.mb, hmb₁]
  refine (wlp_ite _ _ _ _).mpr ⟨fun herr => ?_, fun hok => ?_⟩
  · obtain ⟨hbad, hrefused⟩ := hst.resolve_left fun hsame => herr (hsame ▸ hstate)
    refine (escALerror_keepsRest _ sys n _).bind fun _ w₃ h₃ => ?_
    rw [wlp_bind, modifyMb, wlp_modify, wlp_pure]
    refine ⟨w.mb.toggle, .inr ⟨hbad, ?_, w₁, hrun, hrefused⟩⟩
    rw [h₃.mb, hmb]
    rfl
  · rw [wlp_bind, ackRepeat, wlp_get_bind, wlp_bind, wlp_modify]
    refine (onBus_keepsMb _ sys n _).bind fun _ w₃ h₃ => ?_
    refine (onBus_keepsMb _ sys n _).mono fun _ w₄ h₄ => ?_
    rw [wlp_bind, modifyMb, wlp_modify, wlp_pure]
    refine ⟨(w₂.sm.sm 1).ecrep, .inl ⟨hst.resolve_right fun hbad => hok ?_, ?_⟩⟩
    · rw [hbad.1]
      decide
    · rw [h₄.mb, h₃.mb, hmb]
      rfl

/-- The state a case of the switch is for. -/
lemma switch_state {st st' : AlSt} {ac as case : Byte} (hac : ac &&& escregAlErrackmask = ac)
    (has : as = (ac <<< 4) ||| st.code) (hcase : as = case) (hst : case &&& 0x0f = st'.code) :
    st = st' := by
  have h := (request_nibbles st ac hac).1
  rw [← has, hcase, hst] at h
  exact AlSt.code_injective h.symm

/-- The request a case of the switch is for. -/
lemma switch_request {st : AlSt} {ac as case : Byte} (hac : ac &&& escregAlErrackmask = ac)
    (has : as = (ac <<< 4) ||| st.code) (hcase : as = case) : ac = case >>> 4 := by
  rw [← (request_nibbles st ac hac).2, ← has, hcase]

/-- Code that leaves the mailboxes alone and comes to SAFEOP or OP, or falls back to PREOP. -/
lemma session_running {m : Stack σ Byte} {stops refused : Prop} {st : AlSt} {ac : Byte}
    (hm : KeepsRest m) (hac : ac = escSafeop ∨ ac = escOp)
    (hresult : wlp sys n m (fun an _ => an = ac ∨ an = escSafeop ∨ an = escPreop ||| escError) w) :
    wlp sys n m (fun an w' => SessionResult sys.opts stops refused st w.mb an w'.mb) w := by
  refine ((hm sys n w).and hresult).mono fun an w' ⟨h', han⟩ => ?_
  rw [h'.mb]
  have hstate : an = escSafeop ∨ an = escOp ∨ an = escPreop ||| escError := by
    rcases han with rfl | rfl | rfl
    · rcases hac with rfl | rfl
      · exact .inl rfl
      · exact .inr (.inl rfl)
    · exact .inl rfl
    · exact .inr (.inr rfl)
  rcases hstate with rfl | rfl | rfl
  · exact ⟨.safeop, by decide, .kept (.inr rfl)⟩
  · exact ⟨.op, by decide, .kept (.inr rfl)⟩
  · exact ⟨.preop, by decide, .kept (.inr rfl)⟩

/-- The switch of `ESC_state` starts the mailboxes, stops them, or leaves them alone. -/
lemma escStateSwitch_session (st : AlSt) {as ac : Byte} (hac : ac &&& escregAlErrackmask = ac)
    (has : as = (ac <<< 4) ||| st.code) :
    wlp sys n (escStateSwitch as st.code ac) (fun an w' =>
      SessionResult sys.opts (ac = escInit) (ac = escBoot ∧ BootRefused sys n w) st w.mb an w'.mb)
      w := by
  have state {case : Byte} {st' : AlSt} := @switch_state st st' ac as case hac has
  have request {case : Byte} := @switch_request st ac as case hac has
  have kept {m : Stack σ Unit} (st' : AlSt) (an : Byte) (hm : KeepsRest m)
      (han : an &&& escregAlErrackmask = st'.code) (hst : st' = st ∨ st'.standard = true) :
      wlp sys n (do m; pure an) (fun an' w' => SessionResult sys.opts (ac = escInit)
        (ac = escBoot ∧ BootRefused sys n w) st w.mb an' w'.mb) w :=
    session_kept hm han hst
  have refuse (st' : AlSt) (an : Byte) := @kept (escALerror alerrInvalidstatechange) st' an
    (escALerror_keepsRest _)
  have address : KeepsRest (σ := σ) escAddress :=
    (onBus_keepsRest _).bind fun _ => modifyAl_keepsRest fun _ => le_refl _
  rw [escStateSwitch]
  refine (wlp_ite _ _ _ _).mpr ⟨fun _ => ?stays, fun _ => ?_⟩
  case stays => exact (wlp_pure _ _).mpr ⟨st, code_nibble st, .kept (.inl rfl)⟩
  refine (wlp_ite _ _ _ _).mpr ⟨fun hcase => ?initToPreop, fun _ => ?_⟩
  case initToPreop =>
    have hst : st = .init := state hcase (by decide)
    have hreq : ac = escPreop := request hcase
    refine (address sys n w).bind fun _ w₁ h₁ => ?_
    rw [escStartmbx, wlp_ask_bind]
    refine (escStartmbxWith_session sys.opts.standardMode _ (by rw [hreq]; decide)).mono
      fun an w₂ hthen => ?_
    obtain ⟨toggle, h⟩ := hthen
    rw [h₁.mb] at h
    rcases h with ⟨rfl, hmb⟩ | ⟨rfl, hmb, -⟩
    · exact ⟨.preop, by rw [hreq]; decide, by rw [hmb]; exact .started hst toggle⟩
    · exact ⟨.init, by decide, by rw [hmb]; exact .failed (.inl hst) _ toggle⟩
  refine (wlp_ite _ _ _ _).mpr ⟨fun hcase => ?toBoot, fun _ => ?_⟩
  case toBoot =>
    have hst : st = .init ∨ st = .boot := by
      rcases hcase with hcase | hcase
      · exact .inl (state hcase (by decide))
      · exact .inr (state hcase (by decide))
    have hreq : ac = escBoot := by
      rcases hcase with hcase | hcase
      · exact request hcase
      · exact request hcase
    refine wlp.bind (P := fun _ w₁ => escAddress sys n w = .ok () w₁ ∧ w₁.mb = w.mb)
      (fun _ w₁ hrun => ⟨hrun, (address sys n w _ w₁ hrun).mb⟩) fun _ w₁ hthen => ?_
    obtain ⟨haddress, h₁⟩ := hthen
    rw [escStartmbxboot, wlp_ask_bind]
    refine (escStartmbxWith_session sys.opts.bootMode _ (by rw [hreq]; decide)).mono
      fun an w₂ hthen => ?_
    obtain ⟨toggle, h⟩ := hthen
    rw [h₁] at h
    rcases h with ⟨rfl, hmb⟩ | ⟨rfl, hmb, w₃, hrun, hrefused⟩
    · exact ⟨.boot, by rw [hreq]; decide, by rw [hmb]; exact .startedBoot hst toggle⟩
    · refine ⟨.init, by decide, ?_⟩
      rw [hmb]
      refine .failed (hst.imp_right fun h => ⟨h, hreq, w₃, ?_, hrefused⟩) _ toggle
      exact bind_eq_ok.mpr ⟨_, w₁, haddress, hrun⟩
  refine (wlp_ite _ _ _ _).mpr ⟨fun hcase => ?_, fun _ => ?_⟩
  · have hst : st = .init := by
      rcases hcase with hcase | hcase <;> exact state hcase (by decide)
    exact refuse .init _ (by decide) (.inl hst.symm)
  refine (wlp_ite _ _ _ _).mpr ⟨fun hcase => ?_, fun _ => ?_⟩
  · have hreq : ac = escInit := request hcase
    have stop : wlp sys n (do (do escStopoutput; escStopinput); escStopmbx; pure escInit)
        (fun an w' => SessionResult sys.opts (ac = escInit) (ac = escBoot ∧ BootRefused sys n w)
          st w.mb an w'.mb) w :=
      session_stopped (escStopoutput_keepsRest.bind fun _ => escStopinput_keepsRest) hreq
    simpa only [bind_assoc] using stop
  refine (wlp_ite _ _ _ _).mpr
    ⟨fun hcase => session_stopped escStopinput_keepsRest (request hcase), fun _ => ?_⟩
  refine (wlp_ite _ _ _ _).mpr ⟨fun hcase => ?_, fun _ => ?_⟩
  · have hreq : ac = escInit := by
      rcases hcase with hcase | hcase
      · exact request hcase
      · exact request hcase
    refine (escStopmbx_leaves n w).bind fun _ w₁ h₁ => (wlp_pure _ _).mpr ⟨.init, by decide, ?_⟩
    rw [h₁.1]
    exact .stopped hreq
  refine (wlp_ite _ _ _ _).mpr
    ⟨fun _ => refuse .preop _ (by decide) (.inr rfl), fun _ => ?_⟩
  refine (wlp_ite _ _ _ _).mpr ⟨fun hcase => ?toSafeop, fun _ => ?_⟩
  case toSafeop =>
    have hreq : ac = escSafeop := by
      rcases hcase with hcase | hcase
      · exact request hcase
      · exact request hcase
    refine session_running (enterSafeop_keepsRest ac) (.inl hreq) ?_
    refine (enterSafeop_core (by rw [hreq]; decide)).mono fun an _ h => ?_
    rcases h with ⟨_, han, _⟩ | ⟨_, han, _⟩ | ⟨_, han, _⟩ | ⟨_, han, _⟩
    · exact .inr (.inr han)
    · exact .inr (.inr han)
    · exact .inr (.inr han)
    · exact .inl han
  refine (wlp_ite _ _ _ _).mpr
    ⟨fun _ => refuse .preop _ (by decide) (.inr rfl), fun _ => ?_⟩
  refine (wlp_ite _ _ _ _).mpr ⟨fun _ => ?_, fun _ => ?_⟩
  · have stop := kept .preop escPreop (escStopoutput_keepsRest.bind fun _ => escStopinput_keepsRest)
      (by decide) (.inr rfl)
    simpa only [bind_assoc] using stop
  refine (wlp_ite _ _ _ _).mpr
    ⟨fun _ => kept .preop _ escStopinput_keepsRest (by decide) (.inr rfl), fun _ => ?_⟩
  refine (wlp_ite _ _ _ _).mpr
    ⟨fun _ => refuse .safeop _ (by decide) (.inr rfl), fun _ => ?_⟩
  refine (wlp_ite _ _ _ _).mpr ⟨fun hcase => ?toOp, fun _ => ?_⟩
  case toOp =>
    have hreq : ac = escOp := request hcase
    refine session_running (enterOp_keepsRest ac) (.inr hreq) ?_
    rw [enterOp, wlp_get_bind]
    refine (wlp_ite _ _ _ _).mpr ⟨fun _ => ?_, fun _ => ?_⟩
    · rw [wlp_bind, modifyAl, wlp_modify]
      exact (wlp_pure _ _).mpr (.inr (.inl rfl))
    · exact (escStartoutput_core ac).mono fun an _ h => .inl h.1
  refine (wlp_ite _ _ _ _).mpr ⟨fun _ => ?_, fun _ => ?_⟩
  · have stop := kept .safeop (escSafeop ||| escError)
      ((escALerror_keepsRest alerrInvalidstatechange).bind fun _ => stopoutputFlagged_keepsRest)
      (by decide) (.inr rfl)
    simpa only [bind_assoc] using stop
  refine (wlp_ite _ _ _ _).mpr
    ⟨fun _ => kept .safeop _ escStopoutput_keepsRest (by decide) (.inr rfl), fun _ => ?_⟩
  -- an unknown request
  have unknown := kept (if st.code = escOp then .safeop else st)
    ((if st.code = escOp then escSafeop else st.code) ||| escError)
    ((Keeps.when (c := st.code = escOp) stopoutputFlagged_keepsRest).bind fun _ =>
      (Keeps.when (c := as = escSafeop) escStopinput_keepsRest).bind fun _ =>
        escALerror_keepsRest alerrUnknownstate)
    (by cases st <;> decide) (by cases st <;> decide)
  simpa only [bind_assoc] using unknown

/-! ## Calls -/

lemma flagged_nibble (an : Byte) {flag : Byte} (hflag : flag = 0 ∨ flag = 0x20) :
    ((an ||| flag).setWidth 16).setWidth 8 &&& escregAlErrackmask = an &&& escregAlErrackmask := by
  rcases hflag with rfl | rfl <;> revert an <;> decide +kernel

/-- What follows the switch shows the AL state that the switch has come to. -/
lemma escStateFinish_nibble (hooks : HooksNeutral sys) (as an : Byte) :
    wlp sys n (escStateFinish as an) (fun _ w' => w'.mb = w.mb ∧
      w'.alNibble = an &&& escregAlErrackmask) w := by
  refine ((escStateFinish_keepsRest as an) sys n w).and ?_ |>.mono fun _ _ h => ⟨h.1.mb, h.2⟩
  rw [escStateFinish, wlp_ask_bind]
  refine (callStateChangeHook_core hooks.post as an).bind fun p w₁ hthen => ?_
  obtain ⟨hp, _⟩ := hthen
  subst hp
  rw [wlp_get_bind]
  refine wlp.bind (wlp_true _) fun _ w₂ _ => ?_
  rw [wlp_get_bind]
  refine wlp.bind (wlp_true _) fun id w₃ _ => ?_
  have flag : wlp sys n (if id then escLoadDeviceId else pure 0)
      (fun flag _ => flag = 0 ∨ flag = 0x20) w₃ :=
    (wlp_ite _ _ _ _).mpr ⟨fun _ => escLoadDeviceId_core.mono fun _ _ h => h.1,
      fun _ => (wlp_pure _ _).mpr (.inl rfl)⟩
  refine flag.bind fun flag w₄ hflag => ?_
  refine (escALstatus_core _).mono fun _ w₅ h₅ => ?_
  have hstatus : w₅.al.alStatus = (an ||| flag).setWidth 16 := congrArg AlCore.status h₅
  rw [World.alNibble, hstatus, flagged_nibble an hflag]

/-- Acting on a request. -/
lemma escStateAct_session (hooks : HooksNeutral sys) (st : AlSt) {as ac : Byte}
    (hac : ac &&& escregAlErrackmask = ac) (has : as = (ac <<< 4) ||| st.code) :
    wlp sys n (escStateAct as st.code ac) (fun _ w' => ∃ st', w'.alNibble = st'.code ∧
      Session sys.opts (ac = escInit) (ac = escBoot ∧
        BootRefused sys n (w.dropPending.hooked sys.cfg.preStateChangeHook as st.code))
        st w.mb st' w'.mb) w := by
  rw [escStateAct, modifyAl, wlp_bind, wlp_modify, wlp_ask_bind, wlp_bind,
    wlp_callStateChangeHook hooks.pre]
  refine (escStateSwitch_session st hac has).bind fun an w₁ hthen => ?_
  obtain ⟨st', han, h₁⟩ := hthen
  have hmb (w : World σ) (hook : Option (σ → Byte → Byte → σ × Byte × Byte)) (as an : Byte) :
      (w.hooked hook as an).mb = w.mb := by
    cases hook <;> rfl
  rw [hmb] at h₁
  refine (escStateFinish_nibble hooks as an).mono fun _ w₂ hthen => ?_
  obtain ⟨hmb₂, hnibble⟩ := hthen
  refine ⟨st', ?_, ?_⟩
  · rw [hnibble, han]
  · rw [hmb₂]
    exact h₁

/-- A call stops the mailboxes. -/
def Call.stops (sys : System σ) (w : World σ) : Call σ → Prop
  | .state => w.acts sys ∧ w.requested sys = escInit
  | .smActEvent => w.smHandled ∧ w.mbxOk sys = false
  | _ => False

/-- A call fails to start the mailboxes again in BOOT. -/
def Call.refused (sys : System σ) (n : ℕ) (w : World σ) : Call σ → Prop
  | .state => w.acts sys ∧ w.requested sys = escBoot ∧ BootRefused sys n (w.atSwitch sys)
  | _ => False

/-- What a call of the AL side leaves. -/
abbrev SessionLeft (sys : System σ) (n : ℕ) (c : Call σ) (st : AlSt) (w w' : World σ) : Prop :=
  ∃ st', w'.alNibble = st'.code ∧
    Session sys.opts (c.stops sys w) (c.refused sys n w) st w.mb st' w'.mb

/-- The AL status and the mailboxes stay. -/
lemma SessionLeft.stays {c : Call σ} (h : Shows w.core a)
    (hstatus : w'.al.alStatus = w.al.alStatus) (hmb : w'.mb = w.mb) :
    SessionLeft sys n c a.st w w' := by
  refine ⟨a.st, ?_, ?_⟩
  · rw [World.alNibble, hstatus]
    exact h.nibble
  · rw [hmb]
    exact .kept (.inl rfl)

/-- `ESC_state`. -/
lemma escState_session (hooks : HooksNeutral sys) (h : Shows w.core a) :
    wlp sys n escState (fun _ w' => SessionLeft sys n .state a.st w w') w := by
  rw [escState, wlp_get_bind]
  refine .when (fun hevent => ?_) fun _ => .stays h rfl rfl
  rw [wlp_bind, wlp_escReadControl, wlp_get_bind]
  change wlp sys n (when (¬ errorStays (w.readControl sys).controlByte w.statusByte)
    (when (¬ (w.al.opPending ∧ (ackedStatus (w.readControl sys).controlByte
        (w.readControl sys).controlByte <<< 4) ||| (w.statusByte &&& 0x0f) = safeopToOp))
      (escStateAct ((ackedStatus (w.readControl sys).controlByte
        (w.readControl sys).controlByte <<< 4) ||| (w.statusByte &&& 0x0f))
        (ackedStatus (w.readControl sys).controlByte w.statusByte)
        (ackedStatus (w.readControl sys).controlByte (w.readControl sys).controlByte)))) _ _
  have hmask : (w.readControl sys).controlByte &&& escregAlStatemask =
      (w.readControl sys).controlByte := by
    rw [World.controlByte, BitVec.and_assoc, BitVec.and_self]
  have hstatus : w.statusByte = a.st.statusCode a.err := h.status
  refine .when (fun hacts => ?_) fun _ => .stays h rfl rfl
  refine .when (fun _ => ?_) fun _ => .stays h rfl rfl
  have hacts' : w.acts sys := ⟨hevent, hacts⟩
  have hreq : w.requested sys = (w.readControl sys).controlByte &&& escregAlErrackmask := rfl
  have hat : w.atSwitch sys = (w.readControl sys).dropPending.hooked
      sys.cfg.preStateChangeHook
      ((((w.readControl sys).controlByte &&& escregAlErrackmask) <<< 4) ||| a.st.code)
      a.st.code := by
    have hst : (w.readControl sys).statusByte &&& escregAlErrackmask = a.st.code := by
      rw [← statusCode_nibble a.st a.err, ← hstatus]
      rfl
    rw [World.atSwitch, hst]
  have evidence {stops refused : Prop} {w' : World σ} (hstops : stops → w.requested sys = escInit)
      (hrefused : refused → w.requested sys = escBoot ∧ BootRefused sys n (w.atSwitch sys))
      (hleft : ∃ st', w'.alNibble = st'.code ∧
        Session sys.opts stops refused a.st w.mb st' w'.mb) :
    SessionLeft sys n .state a.st w w' := by
    obtain ⟨st', hst', hsession⟩ := hleft
    exact ⟨st', hst', hsession.mono (fun hs => ⟨hacts', hstops hs⟩) fun hr => ⟨hacts', hrefused hr⟩⟩
  generalize (w.readControl sys).controlByte = ac at *
  rw [hstatus] at hacts ⊢
  rw [errorStays_iff a.st a.err ac hmask] at hacts
  rw [statusCode_nibble, ackedStatus_self ac hmask,
    ackedStatus_statusCode a.st a.err ac hmask hacts]
  refine (escStateAct_session hooks a.st ?_ rfl).mono fun _ w' hleft =>
    evidence (fun hs => hreq.trans hs) (fun hr => ?_) hleft
  · rw [BitVec.and_assoc, BitVec.and_self]
  · rw [hat]
    exact ⟨hreq.trans hr.1, hr.2⟩

/-- `ESC_sm_act_event`. -/
lemma escSmActEvent_session (h : Shows w.core a) :
    wlp sys n escSmActEvent (fun _ w' => SessionLeft sys n .smActEvent a.st w w') w := by
  have same {w' : World σ} (hcore : w'.core = w.core) (hmb : w'.mb = w.mb) :
      SessionLeft sys n .smActEvent a.st w w' :=
    .stays h (congrArg AlCore.status hcore) hmb
  rw [escSmActEvent, wlp_get_bind]
  refine .when (fun hevent => ?_) fun _ => same rfl rfl
  refine (wlp_ite _ _ _ _).mpr ⟨fun hchecks => ?_, fun _ => ?_⟩
  · obtain ⟨hnot, hboot, hrun⟩ := hchecks
    refine ((onBus_keepsMb _ sys n w).and ((onBus_core (escCheckmbx_keepsSm2 _ _ _)).and
      (onBus_wlp (escCheckmbx_result w.mb.activemb0 w.mb.activemb1 w.statusByte)))).bind
        fun ax w₁ hthen => ?_
    obtain ⟨hmb₁, hcore₁, hresult⟩ := hthen
    rw [wlp_ask_bind]
    refine ((onBus_keepsMb _ sys n w₁).and (onBus_core (escCheckSM23_keepsSm2 _ _ _ _))).bind
      fun ax23 w₂ hthen => ?_
    obtain ⟨hmb₂, hcore₂⟩ := hthen
    have hmb : w₂.mb = w.mb := hmb₂.mb.trans hmb₁.mb
    have stop : KeepsRest (σ := σ) (do
        escStopoutput
        escStopinput) := escStopoutput_keepsRest.bind fun _ => escStopinput_keepsRest
    refine (wlp_ite _ _ _ _).mpr
      ⟨fun _ => (wlp_pure _ _).mpr (same (hcore₂.trans hcore₁) hmb), fun hstay => ?_⟩
    refine (wlp_ite _ _ _ _).mpr ⟨fun hax => ?_, fun _ => ?_⟩
    · rw [wlp_get_bind]
      have hbad : w.mbxOk sys = false := by
        rw [Bool.eq_false_iff]
        intro hok
        have hok' : mbxAccepted sys.hal w.mb.activemb0 w.mb.activemb1 w.outside w.alEvent = true :=
          hok
        replace hresult : if mbxAccepted sys.hal w.mb.activemb0 w.mb.activemb1 w.outside
            w.alEvent then ax = w.statusByte ∧ _ else ax = escInit ||| escError := hresult
        rw [if_pos hok'] at hresult
        have hstatus : w.statusByte = escInit ||| escError := hresult.1.symm.trans hax
        have hmasked : w.statusByte &&& escregAlAllbutinitmask ≠ 0 := hnot
        rw [hstatus] at hmasked
        exact hmasked (by decide)
      refine (Keeps.when stop sys n w₂).bind fun _ w₃ h₃ => ?_
      refine (escStopmbx_leaves n w₃).bind fun _ w₄ h₄ => ?_
      refine (escALerror_keepsRest _ sys n w₄).bind fun _ w₅ h₅ => ?_
      rw [wlp_bind, modifyMb, wlp_modify]
      refine ((escALstatus_keepsRest _ sys n _).and (escALstatus_core _)).mono
        fun _ w₆ hthen => ?_
      obtain ⟨h₆, hcore₆⟩ := hthen
      refine ⟨.init, ?_, ?_⟩
      · have hstatus : w₆.al.alStatus = ax.setWidth 16 := congrArg AlCore.status hcore₆
        rw [World.alNibble, hstatus, hax]
        decide
      · have hfinal : w₆.mb = w.mb.stopped sys.opts.mbxBuffers := by
          rw [h₆.mb, h₅.mb, h₄.1, h₃.mb, hmb]
          rfl
        rw [hfinal]
        exact .stopped ⟨⟨⟨hevent, hnot, hboot, hrun⟩, hstay⟩, hbad⟩
    · rw [wlp_get_bind]
      refine .when (fun hthen => ?_) fun _ => same (hcore₂.trans hcore₁) hmb
      obtain ⟨_, hax23⟩ := hthen
      refine (escStopoutput_keepsRest sys n w₂).bind fun _ w₃ h₃ => ?_
      refine (escStopinput_keepsRest sys n w₃).bind fun _ w₄ h₄ => ?_
      rw [wlp_get_bind]
      refine (escALerror_keepsRest _ sys n w₄).bind fun _ w₅ h₅ => ?_
      refine ((escALstatus_keepsRest _ sys n w₅).and (escALstatus_core _)).mono
        fun _ w₆ hthen => ?_
      obtain ⟨h₆, hcore₆⟩ := hthen
      refine ⟨.preop, ?_, ?_⟩
      · have hstatus : w₆.al.alStatus = ax23.setWidth 16 := congrArg AlCore.status hcore₆
        rw [World.alNibble, hstatus, hax23]
        decide
      · rw [h₆.mb, h₅.mb, h₄.mb, h₃.mb, hmb]
        exact .kept (.inr rfl)
  · have acks : ∀ k, KeepsSm2 (σ := σ) (escSMack k) := escSMack_keepsSm2
    refine ((onBus_keepsMb _ sys n w).and (onBus_core ((acks 0).bind fun _ => (acks 1).bind
      fun _ => (acks 2).bind fun _ => (acks 3).bind fun _ => (acks 4).bind fun _ =>
        (acks 5).bind fun _ => (acks 6).bind fun _ => acks 7))).mono fun _ w₁ hthen => ?_
    obtain ⟨h₁, hcore⟩ := hthen
    exact same hcore h₁.mb

/-- Events that leave the mailboxes alone change the AL state to one with standard mailboxes. -/
lemma AlView.step_standard (a : AlView) {e : AlEvent}
    (he : e = .idle ∨ e = .error ∨ e = .complete ∨ e = .refuse) :
    (a.step e).st = a.st ∨ (a.step e).st.standard = true := by
  rcases he with rfl | rfl | rfl | rfl
  · exact .inl rfl
  · exact .inr rfl
  · rw [AlView.step, AlView.complete]
    split
    · exact .inr rfl
    · exact .inl rfl
  · rw [AlView.step, AlView.refuse]
    split
    · exact .inr rfl
    · exact .inl rfl

/-- What a call of the AL side does to the mailboxes, with what it is to the AL state machine. -/
theorem Stack.Step.session (hooks : HooksNeutral sys) {l : ℕ × Call σ} (h : Shows w.core a)
    (hl : l.2.isAl) (hstep : Stack.Step sys w l w') :
    ∃ e, Shows w'.core (a.step e) ∧ CallEvent sys w l e ∧
      Session sys.opts (l.2.stops sys w) (l.2.refused sys l.1 w) a.st w.mb (a.step e).st w'.mb := by
  obtain ⟨e, hshows, hevent⟩ := hstep.refines hooks h
  refine ⟨e, hshows, hevent, ?_⟩
  -- the state the traversal of the code has found is the one that is shown
  have found (hfound : SessionLeft sys l.1 l.2 a.st w w') :
      Session sys.opts (l.2.stops sys w) (l.2.refused sys l.1 w) a.st w.mb (a.step e).st w'.mb := by
    obtain ⟨st', hst', hsession⟩ := hfound
    rw [(hshows.nibble_iff st').mp hst']
    exact hsession
  have kept (hmb : w'.mb = w.mb)
      (he : e = .idle ∨ e = .error ∨ e = .complete ∨ e = .refuse) :
      Session sys.opts (l.2.stops sys w) (l.2.refused sys l.1 w) a.st w.mb (a.step e).st w'.mb := by
    rw [hmb]
    exact .kept (a.step_standard he)
  obtain ⟨k, call⟩ := l
  cases call with
  | mbxprocess => exact hl.elim
  | coeprocess => exact hl.elim
  | xoeprocess => exact hl.elim
  | state => exact found (escState_session hooks h () w' hstep)
  | smActEvent => exact found (escSmActEvent_session h () w' hstep)
  | move outside alEvent bytes =>
      cases hstep
      exact kept rfl (.inl hevent)
  | process flags =>
      refine kept (digProcess_keepsMb flags sys k w () w' hstep).mb ?_
      rcases hevent with rfl | ⟨rfl, _⟩
      · exact .inl rfl
      · exact .inr (.inl rfl)
  | sync0Account seen =>
      refine kept (ecatSlvSync0Account_keepsMb seen sys k w () w' hstep).mb ?_
      rcases hevent with rfl | ⟨rfl, _⟩
      · exact .inl rfl
      · exact .inr (.inl rfl)
  | opPendingStep sync0 smEvent elapsedNs =>
      refine kept (escOpPendingStep_keepsRest sync0 smEvent elapsedNs sys k w () w' hstep).mb ?_
      rcases hevent with rfl | ⟨rfl | rfl, _⟩
      · exact .inl rfl
      · exact .inr (.inr (.inl rfl))
      · exact .inr (.inr (.inr rfl))
  | waited rc =>
      refine kept ((runDcTimeout_keepsMb rc).map _ sys k w () w' hstep).mb ?_
      rcases hevent with rfl | ⟨rfl, _⟩
      · exact .inl rfl
      · exact .inr (.inl rfl)
  | noteSmEvent seen =>
      cases hstep
      exact kept rfl (.inl hevent)

/-- `ecat_slv_init` leaves the mailboxes stopped. -/
lemma Initialised.stopped (h : Initialised sys w) : w.mb.mbxRun = false := by
  obtain ⟨k, outside, alEvent, bytes, hrun⟩ := h
  refine (?_ : wlp sys k ecatSlvInit (fun r w' => r = true → w'.mb.mbxRun = false)
    (World.zeroed outside alEvent bytes)) true w hrun rfl
  rw [ecatSlvInit, wlp_ask_bind]
  refine wlp.bind (wlp_true _) fun _ w₁ _ => ?_
  refine wlp.bind (wlp_true _) fun started w₂ _ => ?_
  refine (wlp_ite _ _ _ _).mpr ⟨fun _ => (wlp_pure _ _).mpr fun hfail => (by cases hfail),
    fun _ => ?_⟩
  refine wlp.bind (wlp_true _) fun up w₃ _ => ?_
  refine (wlp_ite _ _ _ _).mpr ⟨fun _ => ?_,
    fun _ => (wlp_pure _ _).mpr fun hfail => (by cases hfail)⟩
  refine initStop_leaves.bind fun _ w₄ h₄ => ?_
  refine (coeInitDefaultValues_keepsRest sys k w₄).bind fun _ w₅ h₅ => (wlp_pure _ _).mpr
    fun _ => ?_
  rw [h₅.mb, h₄]
  rfl

/-! ## The running mailboxes match the AL state -/

/-- The mailboxes of an AL state. -/
def AlSt.mode (o : Options) : AlSt → Option (ℕ × SmCfg × SmCfg)
  | .init => none
  | .boot => some o.bootMode
  | _ => some o.standardMode

/-- If the mailboxes run, they are those of the AL state. -/
def Mailbox.Matches (o : Options) (st : AlSt) (m : Mailbox) : Prop :=
  m.mbxRun = true → st.mode o = some m.mode

lemma AlSt.mode_of_standard {st : AlSt} (h : st.standard = true) (o : Options) :
    st.mode o = some o.standardMode := by
  cases st <;> first | rfl | cases h

/-- Whatever becomes of the mailboxes, they match the AL state, unless the slave leaves BOOT for
a state with standard mailboxes. -/
lemma Session.matches {o : Options} {stops refused : Prop} {st st' : AlSt} {m m' : Mailbox}
    (h : Session o stops refused st m st' m')
    (hm : m.Matches o st) (hboot : st = .boot → st'.standard = false) : m'.Matches o st' := by
  intro hrun
  cases h with
  | kept hst =>
      have hmode := hm hrun
      rcases hst with rfl | hst
      · exact hmode
      · rw [AlSt.mode_of_standard hst]
        cases st with
        | init => cases hmode
        | boot => rw [hboot rfl] at hst; cases hst
        | preop => exact hmode
        | safeop => exact hmode
        | op => exact hmode
  | stopped => cases hrun
  | started => rfl
  | startedBoot => rfl
  | failed => cases hrun

/-- The calls that do not leave BOOT for a state with standard mailboxes: `ESC_state` does not act
on a request for PREOP, SAFEOP or OP in BOOT; a check of the SyncManagers in BOOT does not step down
to PREOP, which it does when the application was left running; and no sync error is counted there.
-/
def ModeOk (sys : System σ) (w : World σ) : ℕ × Call σ → Prop
  | (_, .state) => w.acts sys → w.alNibble = escBoot →
      w.requested sys ≠ escPreop ∧ w.requested sys ≠ escSafeop ∧ w.requested sys ≠ escOp
  | (_, .smActEvent) => w.smHandled → w.alNibble = escBoot → w.al.appState ≠ appstateIdle →
      w.mbxOk sys = true → w.pdOk sys = true
  | (_, .sync0Account smEventSeen) => w.sync0Trips smEventSeen → w.alNibble ≠ escBoot
  | _ => True

instance (sys : System σ) (w : World σ) (l : ℕ × Call σ) : Decidable (ModeOk sys w l) :=
  match l with
  | (_, .state) | (_, .smActEvent) | (_, .sync0Account _) => by
      dsimp only [ModeOk]
      infer_instance
  | (_, .move ..) | (_, .mbxprocess) | (_, .coeprocess) | (_, .xoeprocess)
  | (_, .process _) | (_, .waited _) | (_, .noteSmEvent _)
  | (_, .opPendingStep ..) => .isTrue trivial

/-- A request is not held in BOOT. -/
lemma AlView.Stepped.not_held_in_boot {b : AlView} {e : AlEvent} (hs : AlView.Stepped a e b)
    (h : a.pending = true → a.st ≠ .boot) (hb : b.pending = true) : b.st ≠ .boot := by
  cases hs with
  | same => exact h hb
  | entered req ack v hacts he =>
      obtain ⟨-, -, -, rfl⟩ := he.pending rfl hb
      exact fun hst => by cases hst
  | mbxRefused => exact fun hst => by cases hst
  | pdRefused => exact fun hst => by cases hst
  | error => exact fun hst => by cases hst
  | complete => exact fun hst => by cases hst
  | refuse => exact fun hst => by cases hst

/-- A request for one of the states with standard mailboxes is what brings the slave there from
BOOT. -/
lemma AlView.request_from_boot (hboot : a.st = .boot) {req : AlReq} {ack : Bool} {v : Verdict}
    (h : (a.request req ack v).st.standard = true) :
    a.Acts ack ∧ (req = .state .preop ∨ req = .state .safeop ∨ req = .state .op) := by
  rw [AlView.request] at h
  split at h
  case isTrue =>
    rw [hboot] at h
    cases h
  case isFalse hacts =>
    refine ⟨fun herr => Decidable.byContradiction fun hack => hacts ⟨herr, hack⟩, ?_⟩
    split at h
    case isTrue =>
      rw [hboot] at h
      cases h
    case isFalse =>
      obtain ⟨st, err, inputs, outputs, pending, sm2, mapped, dc⟩ := a
      cases hboot
      cases req with
      | zero => cases h
      | unknown => cases h
      | state req =>
          cases req with
          | init => cases h
          | boot =>
              obtain ⟨mbxOk, pd, mapped', dc'⟩ := v
              cases mbxOk <;> cases h
          | preop => exact .inl rfl
          | safeop => exact .inr (.inl rfl)
          | op => exact .inr (.inr rfl)

/-- A call that meets `ModeOk` does not leave BOOT for a state with standard mailboxes. -/
lemma not_leaves_boot (h : Shows w.core a) (hquiet : a.Quiet)
    (hheld : a.pending = true → a.st ≠ .boot) {l : ℕ × Call σ} (hok : ModeOk sys w l)
    {e : AlEvent} (he : CallEvent sys w l e) (hboot : a.st = .boot) :
    (a.step e).st.standard = false := by
  have stays : e = .idle → (a.step e).st.standard = false := fun hidle => by
    rw [hidle, AlView.step, hboot]
    rfl
  have guard (hg : GuardEvent w e) : (a.step e).st.standard = false := by
    rcases hg.op h hquiet with hidle | ⟨-, hop⟩
    · exact stays hidle
    · rw [hboot] at hop
      cases hop
  have hnibble : w.alNibble = escBoot := (h.nibble_iff .boot).mpr hboot
  obtain ⟨n, call⟩ := l
  cases call with
  | state =>
      cases he with
      | idle => exact stays rfl
      | request v hevent _ =>
          rw [← Bool.not_eq_true]
          intro hstd
          obtain ⟨hacts, hreq⟩ := AlView.request_from_boot hboot hstd
          obtain ⟨hpreop, hsafeop, hop⟩ := hok ((h.acts hevent).mp hacts) hnibble
          rcases hreq with hreq | hreq | hreq
          · exact hpreop (ofNibble_state hreq)
          · exact hsafeop (ofNibble_state hreq)
          · exact hop (ofNibble_state hreq)
  | smActEvent =>
      cases he with
      | idle => exact stays rfl
      | change hhandled =>
          rw [AlView.step, AlView.smChange]
          split
          case isTrue => split <;> rfl
          case isFalse hmbx =>
            split
            case isTrue hpd =>
              have happ : w.al.appState ≠ appstateIdle := h.idle_iff.mpr hpd.1
              exact (hpd.2 (hok hhandled hnibble happ (not_not.mp hmbx))).elim
            case isFalse =>
              rw [hboot]
              rfl
  | process flags => exact guard he
  | waited rc => exact guard he
  | sync0Account seen =>
      rcases he with hidle | ⟨_, htrip⟩
      · exact stays hidle
      · exact (hok htrip hnibble).elim
  | opPendingStep sync0 smEvent ns =>
      rcases he with hidle | ⟨_, hpend, _⟩
      · exact stays hidle
      · exact (hheld (h.pending.symm.trans hpend) hboot).elim
  | move | mbxprocess | coeprocess | xoeprocess | noteSmEvent => exact stays he

lemma mode_of_fixed {m m' : Mailbox} (h : m'.fixed = m.fixed) :
    m'.mbxRun = m.mbxRun ∧ m'.mode = m.mode := by
  obtain ⟨hrun, hsize, hmb0, hmb1, -⟩ := Fixed.mk.inj h
  refine ⟨hrun, ?_⟩
  rw [Mailbox.mode, hsize, hmb0, hmb1]
  rfl

lemma MbxTurn.mode {opts : Options} {stat event : Bool} {m m' : Mailbox}
    (h : MbxTurn opts stat event m m') : m'.mbxRun = m.mbxRun ∧ m'.mode = m.mode := by
  cases h with
  | read =>
      rw [Mailbox.outboxRead, Mailbox.dropBackup]
      split <;> exact ⟨rfl, rfl⟩
  | again hevent rep =>
      rw [Mailbox.repeated]
      split
      · split <;> exact ⟨rfl, rfl⟩
      · exact ⟨rfl, rfl⟩
  | @forward _ m₁ _ hposting hreceives =>
      have hpost : m₁.mbxRun = m.mbxRun ∧ m₁.mode = m.mode := by
        rcases hposting with hsame | ⟨k, -, -, -, -, hsame⟩
        · rw [hsame]
          exact ⟨rfl, rfl⟩
        · rw [hsame]
          exact ⟨rfl, rfl⟩
      rcases hreceives with hsame | hreceives
      · rw [hsame]
        exact hpost
      · obtain ⟨mbx, m₂, cnt, ⟨posted, hledger, -⟩, -, hfinal⟩ := hreceives.error
        have h₂ := mode_of_fixed hledger.fixed
        rw [hfinal]
        exact ⟨h₂.1.trans hpost.1, h₂.2.trans hpost.2⟩

/-- Nothing else than the AL side starts or stops the mailboxes, or changes what they are set up
as. -/
lemma Call.keeps_mode {c : Call σ} (hc : ¬ c.isAl) : wlp sys n c.run (fun _ w' =>
    w'.mb.mbxRun = w.mb.mbxRun ∧ w'.mb.mode = w.mb.mode) w := by
  cases c with
  | mbxprocess =>
      refine (wlp_map _ _ _).mpr (escMbxprocess_turn.mono fun _ w' h => ?_)
      rcases h with hmb | ⟨-, w₁, -, hturn⟩
      · rw [hmb]
        exact ⟨rfl, rfl⟩
      · exact hturn.mode
  | coeprocess =>
      refine (wlp_within _ _ _ _).mpr (escCoeprocess_pass.mono fun _ c' h => ?_)
      obtain ⟨held, posted, hpass⟩ := h
      exact mode_of_fixed hpass.ledger.fixed
  | xoeprocess =>
      refine (wlp_within _ _ _ _).mpr (escXoeprocess_pass.mono fun _ m' h => ?_)
      obtain ⟨held, posted, hledger⟩ := h.exists_ledger
      exact mode_of_fixed hledger.fixed
  | move | state | smActEvent | process | sync0Account | opPendingStep | waited | noteSmEvent =>
      exact (hc trivial).elim

/-- What holds of the AL state and the mailboxes along a run. -/
lemma Reached.modes (hooks : HooksNeutral sys) (h : Reached sys (ModeOk sys) w) :
    ∃ a, Shows w.core a ∧ a.Quiet ∧ (a.pending = true → a.st ≠ .boot) ∧
      w.mb.Matches sys.opts a.st := by
  refine Reachable.invariant (P := fun w => ∃ a, Shows w.core a ∧ a.Quiet ∧
    (a.pending = true → a.st ≠ .boot) ∧ w.mb.Matches sys.opts a.st) (fun w hw => ?_) ?_ h
  · refine ⟨AlView.initial, hw.shows, ⟨by decide, by decide⟩, by decide, fun hrun => ?_⟩
    rw [hw.stopped] at hrun
    cases hrun
  · intro w l w' ⟨a, hshows, hquiet, hheld, hmatches⟩ hok hstep
    have next {e : AlEvent} (hshows' : Shows w'.core (a.step e))
        (hmatches' : w'.mb.Matches sys.opts (a.step e).st) :
        ∃ a, Shows w'.core a ∧ a.Quiet ∧ (a.pending = true → a.st ≠ .boot) ∧
          w'.mb.Matches sys.opts a.st :=
      ⟨a.step e, hshows', hquiet.stepped (a.step_stepped e),
        (a.step_stepped e).not_held_in_boot hheld, hmatches'⟩
    by_cases hal : l.2.isAl
    · obtain ⟨e, hshows', hevent, hsession⟩ := hstep.session hooks hshows hal
      exact next hshows' (hsession.matches hmatches fun hboot =>
        not_leaves_boot hshows hquiet hheld hok hevent hboot)
    · obtain ⟨e, hshows', hevent⟩ := hstep.refines hooks hshows
      have hidle : e = .idle := by
        obtain ⟨k, call⟩ := l
        cases call with
        | mbxprocess | coeprocess | xoeprocess => exact hevent
        | move | state | smActEvent | process | sync0Account | opPendingStep | waited |
            noteSmEvent => exact (hal trivial).elim
      obtain ⟨hrun, hmode⟩ := Call.keeps_mode hal () w' hstep
      refine next hshows' fun hrun' => ?_
      rw [hidle, hmode]
      exact hmatches (hrun.symm.trans hrun')

/-- **The running mailboxes match the AL state**, in every run whose calls meet `ModeOk`. -/
theorem mailbox_matches (hooks : HooksNeutral sys) (h : Reached sys (ModeOk sys) w)
    (hrun : w.mb.mbxRun = true) :
    (w.alNibble = escBoot ∧ w.mb.mode = sys.opts.bootMode ∨
      (w.alNibble = escPreop ∨ w.alNibble = escSafeop ∨ w.alNibble = escOp) ∧
        w.mb.mode = sys.opts.standardMode) ∧
    (sys.opts.bootMode ≠ sys.opts.standardMode →
      (w.mb.mode = sys.opts.bootMode ↔ w.alNibble = escBoot) ∧
      (w.mb.mode = sys.opts.standardMode ↔
        w.alNibble = escPreop ∨ w.alNibble = escSafeop ∨ w.alNibble = escOp)) := by
  have standard (hmode : some sys.opts.standardMode = some w.mb.mode)
      (hstate : w.alNibble = escPreop ∨ w.alNibble = escSafeop ∨ w.alNibble = escOp)
      (hnot : w.alNibble ≠ escBoot) :
      (w.alNibble = escBoot ∧ w.mb.mode = sys.opts.bootMode ∨
        (w.alNibble = escPreop ∨ w.alNibble = escSafeop ∨ w.alNibble = escOp) ∧
          w.mb.mode = sys.opts.standardMode) ∧
      (sys.opts.bootMode ≠ sys.opts.standardMode →
        (w.mb.mode = sys.opts.bootMode ↔ w.alNibble = escBoot) ∧
        (w.mb.mode = sys.opts.standardMode ↔
          w.alNibble = escPreop ∨ w.alNibble = escSafeop ∨ w.alNibble = escOp)) := by
    have hstd : w.mb.mode = sys.opts.standardMode := (Option.some.inj hmode).symm
    refine ⟨.inr ⟨hstate, hstd⟩, fun hdiff => ⟨⟨fun hboot => ?_, fun hboot => ?_⟩, ?_⟩⟩
    · exact (hdiff (hboot.symm.trans hstd)).elim
    · exact (hnot hboot).elim
    · exact ⟨fun _ => hstate, fun _ => hstd⟩
  obtain ⟨a, hshows, -, -, hmatches⟩ := h.modes hooks
  have hmode := hmatches hrun
  have hnibble := hshows.nibble
  cases hst : a.st with
  | init =>
      rw [hst] at hmode
      cases hmode
  | boot =>
      rw [hst] at hmode hnibble
      have hboot : w.mb.mode = sys.opts.bootMode := (Option.some.inj hmode).symm
      refine ⟨.inl ⟨hnibble, hboot⟩, fun hdiff => ⟨⟨fun _ => hnibble, fun _ => hboot⟩, ?_⟩⟩
      refine ⟨fun hstd => (hdiff (hboot.symm.trans hstd)).elim, fun hstd => ?_⟩
      rw [hnibble] at hstd
      exact absurd hstd (by decide)
  | preop =>
      rw [hst] at hmode hnibble
      exact standard hmode (.inl hnibble) (by rw [hnibble]; decide)
  | safeop =>
      rw [hst] at hmode hnibble
      exact standard hmode (.inr (.inl hnibble)) (by rw [hnibble]; decide)
  | op =>
      rw [hst] at hmode hnibble
      exact standard hmode (.inr (.inr hnibble)) (by rw [hnibble]; decide)

/-- The example device with larger mailboxes in BOOT. -/
def bootSystem : System ByteStore :=
  { exampleSystem with opts :=
    { exampleOptions with mbxSizeBoot := 512, mbxSize_gt := by decide } }

/-- A run of that device. -/
def bootRun (ok : World ByteStore → ℕ × Call ByteStore → Prop) [∀ w l, Decidable (ok w l)]
    (ls : List (ℕ × Call ByteStore)) : Option (World ByteStore) :=
  (startUp bootSystem 8 (exampleChip 1 0 0) 0 fun _ => 0).bind (runCalls bootSystem ok ls)

lemma bootHooks : HooksNeutral bootSystem where
  pre := by rintro call ⟨⟩
  post := by rintro call ⟨⟩

/-- The device in BOOT. -/
theorem mailbox_matches_in_boot : ∃ w : World ByteStore, w.mb.mbxRun = true ∧ w.alNibble = escBoot ∧
    w.mb.mode = bootSystem.opts.bootMode := by
  have hrun : (bootRun (ModeOk bootSystem) (masterRequest 3 0)).map
      (fun w => (w.mb.mbxRun, w.alNibble)) = some (true, escBoot) := by
    decide +kernel
  obtain ⟨w, hw, hseen⟩ := exists_reached hrun
  obtain ⟨hstarted, hnibble⟩ := Prod.mk.inj hseen
  have hmatches := mailbox_matches bootHooks hw hstarted
  exact ⟨w, hstarted, hnibble, (hmatches.2 (by decide)).1.mpr hnibble⟩

/-- A call of `ESC_state` or `ESC_sm_act_event`, or a move of the surroundings. -/
def Call.isRequest : Call σ → Prop
  | .state | .smActEvent | .move _ _ _ => True
  | _ => False

instance (c : Call σ) : Decidable c.isRequest :=
  match c with
  | .state | .smActEvent | .move .. => .isTrue trivial
  | .mbxprocess | .coeprocess | .xoeprocess | .process _ | .sync0Account _
  | .opPendingStep .. | .waited _ | .noteSmEvent _ => .isFalse id

/-- Asked for PREOP in BOOT, the slave shows PREOP with an error, and the bootstrap mailboxes run
on. -/
theorem boot_mailbox_in_preop : ¬ ∀ (sys : System ByteStore) (w : World ByteStore),
    HooksNeutral sys → sys.opts.bootMode ≠ sys.opts.standardMode →
    Reached sys (fun _ l => l.2.isRequest) w → w.mb.mbxRun = true →
      (w.mb.mode = sys.opts.bootMode ↔ w.alNibble = escBoot) ∧
      (w.mb.mode = sys.opts.standardMode ↔
        w.alNibble = escPreop ∨ w.alNibble = escSafeop ∨ w.alNibble = escOp) := by
  intro h
  have hrun : (bootRun (fun _ l => l.2.isRequest) (masterRequest 3 0 ++ masterRequest 2 0)).map
      (fun w => (w.mb.mbxRun, w.alNibble, decide (w.mb.mode = bootSystem.opts.bootMode))) =
      some (true, escPreop, true) := by
    decide +kernel
  obtain ⟨w, hw, hseen⟩ := exists_reached hrun
  obtain ⟨hstarted, hseen⟩ := Prod.mk.inj hseen
  obtain ⟨hnibble, hmode⟩ := Prod.mk.inj hseen
  have hboot := (h bootSystem w bootHooks (by decide) hw hstarted).1.mp (of_decide_eq_true hmode)
  rw [hnibble] at hboot
  exact absurd hboot (by decide)

end Soes
