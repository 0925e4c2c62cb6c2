import Soes.Abstract.AlMachine
import Soes.Properties.AlEffects

/-!
# The AL functions refine the AL state machine

`Shows c a` relates the AL part of a world to the abstract view of it.  Each function of the
stack that touches the AL state is matched by one event of `AlView.step`, and the lemma also says
what the event owes to the inputs of the call: which state was requested, and that a refusal on
the way to SAFEOP, or a step down after a change of the SyncManagers, comes from what the bus and
the dictionary delivered.
-/

namespace Soes

open Program

variable {σ : Type} {sys : System σ} {n : ℕ} {w : World σ} {a : AlView}

/-! ## Codes -/

/-- The AL state as a number. -/
def AlSt.code : AlSt → Byte
  | .init => escInit
  | .preop => escPreop
  | .boot => escBoot
  | .safeop => escSafeop
  | .op => escOp

/-- The AL status: a state and the error indication. -/
def AlSt.statusCode (st : AlSt) (err : Bool) : Byte := if err then st.code ||| escError else st.code

/-- The AL status of the view. -/
def AlView.statusCode (a : AlView) : Byte := a.st.statusCode a.err

/-- `App.state` as a number. -/
def appCode (inputs outputs : Bool) : Byte :=
  (if inputs then appstateInput else 0) ||| (if outputs then appstateOutput else 0)

/-- What the low half of an AL control word asks for. -/
def AlReq.ofNibble (ac : Byte) : AlReq :=
  if ac = escInit then .state .init
  else if ac = escPreop then .state .preop
  else if ac = escBoot then .state .boot
  else if ac = escSafeop then .state .safeop
  else if ac = escOp then .state .op
  else if ac = 0 then .zero
  else .unknown

/-! ## The relation -/

/-- The core agrees with the view in everything but the AL status. -/
structure Flags (c : AlCore) (a : AlView) : Prop where
  app : c.app = appCode a.inputs a.outputs
  pending : c.pending = a.pending
  sm2 : c.sm2 = a.sm2
  mapped : decide (c.sm2Sml ≠ 0) = a.mapped
  dc : decide (c.dcsync ≠ 0) = a.dc

/-- The core agrees with the view. -/
structure Shows (c : AlCore) (a : AlView) : Prop extends Flags c a where
  status : c.status.setWidth 8 &&& escregAlStatemask = a.statusCode

namespace Flags

variable {c : AlCore}

lemma goto (h : Flags c a) (st : AlSt) (err : Bool) : Flags c (a.goto st err) :=
  ⟨h.app, h.pending, h.sm2, h.mapped, h.dc⟩

lemma stopAll (h : Flags c a) : Flags c.stopAll a.stopAll := by
  refine ⟨?_, h.pending, rfl, h.mapped, h.dc⟩
  change appstateIdle = appCode false false
  decide

lemma stopOutputs (h : Flags c a) : Flags c.stopOutputs a.stopOutputs := by
  refine ⟨?_, h.pending, rfl, h.mapped, h.dc⟩
  change c.app &&& appstateInput = appCode a.inputs false
  rw [h.app]
  cases a.inputs <;> cases a.outputs <;> decide

lemma withStatus (h : Flags c a) (status : Word) : Flags { c with status := status } a :=
  ⟨h.app, h.pending, h.sm2, h.mapped, h.dc⟩

lemma withPending (h : Flags c a) (pending : Bool) :
    Flags { c with pending := pending } { a with pending := pending } :=
  ⟨h.app, rfl, h.sm2, h.mapped, h.dc⟩

lemma startOutputs (h : Flags c a) :
    Flags { c with
        app := c.app ||| appstateOutput
        sm2 := c.sm2 || decide (c.sm2Sml ≠ 0) }
      { a with outputs := true, sm2 := a.sm2 || a.mapped } := by
  refine ⟨?_, h.pending, ?_, h.mapped, h.dc⟩
  · change c.app ||| appstateOutput = appCode a.inputs true
    rw [h.app]
    cases a.inputs <;> cases a.outputs <;> decide
  · change (c.sm2 || decide (c.sm2Sml ≠ 0)) = (a.sm2 || a.mapped)
    rw [h.sm2, h.mapped]

/-- The outputs bit of the application state. -/
lemma outputs_iff (h : Flags c a) : c.app &&& appstateOutput ≠ 0 ↔ a.outputs = true := by
  rw [h.app]
  cases a.inputs <;> cases a.outputs <;> decide

/-- The application is idle. -/
lemma idle_iff (h : Flags c a) : c.app ≠ 0 ↔ (a.inputs = true ∨ a.outputs = true) := by
  rw [h.app]
  cases a.inputs <;> cases a.outputs <;> decide

end Flags

/-! ## The switch -/

/-- What a request that is acted on comes to: the view after it, and the AL status to show. -/
def SwitchResult (sys : System σ) (n : ℕ) (w : World σ) (a : AlView) (req : AlReq) (an : Byte)
    (c' : AlCore) : Prop :=
  ∃ v, an = (a.enter v req).statusCode ∧ Flags c' (a.enter v req) ∧
    (v.pd = .mapRefused ∨ v.pd = .smRefused → ¬ SafeopAccepted sys n w)

/-- The verdict of a request that needs none. -/
def AlView.noVerdict (a : AlView) : Verdict := ⟨true, .accepted, a.mapped, a.dc⟩

/-- A request that needs no verdict. -/
lemma SwitchResult.plain {req : AlReq} {an : Byte} {c' : AlCore}
    (han : an = (a.enter a.noVerdict req).statusCode)
    (hf : Flags c' (a.enter a.noVerdict req)) : SwitchResult sys n w a req an c' :=
  ⟨a.noVerdict, han, hf, by rintro (h | h) <;> cases h⟩

/-- A request whose verdict is that of the mailbox SyncManagers. -/
lemma SwitchResult.mailbox {req : AlReq} {an : Byte} {c' : AlCore} (ok : Bool)
    (han : an = (a.enter { a.noVerdict with mbxOk := ok } req).statusCode)
    (hf : Flags c' (a.enter { a.noVerdict with mbxOk := ok } req)) :
    SwitchResult sys n w a req an c' :=
  ⟨{ a.noVerdict with mbxOk := ok }, han, hf, by rintro (h | h) <;> cases h⟩

lemma SameButDc.flags {c c' : AlCore} (hc : SameButDc c c') (h : Flags c a)
    (hpend : a.pending = false) :
    Flags c' { a with dc := decide (c'.dcsync ≠ 0) } := by
  refine ⟨hc.app.trans h.app, ?_, hc.sm2.trans h.sm2, ?_, rfl⟩
  · cases hp : c'.pending with
    | false => exact hpend.symm
    | true => exact (hc.pending hp).symm.trans h.pending
  · rw [← h.mapped, hc.sm2Sml]

lemma enterSafeop_refines (hf : Flags w.core a) (hpend : a.pending = false) :
    wlp sys n (enterSafeop escSafeop) (fun an w' => ∃ v,
      an = (a.enterSafeop v).statusCode ∧ Flags w'.core (a.enterSafeop v) ∧
      (v.pd = .mapRefused ∨ v.pd = .smRefused → ¬ SafeopAccepted sys n w)) w := by
  refine (enterSafeop_core (by decide)).mono fun an w' h => ?_
  have withSml : ∀ sml, Flags { w.core with sm2Sml := sml }
      { a with mapped := decide (sml ≠ 0) } := fun sml =>
    ⟨hf.app, hf.pending, hf.sm2, rfl, hf.dc⟩
  rcases h with ⟨sml, rfl, hc, href⟩ | ⟨sml, rfl, hc, href⟩ | ⟨sml, rfl, hc⟩ | ⟨sml, rfl, hc⟩
  · refine ⟨⟨true, .mapRefused, decide (sml ≠ 0), a.dc⟩, rfl, ?_, fun _ => href⟩
    rw [hc]
    exact (withSml sml).goto _ _
  · refine ⟨⟨true, .smRefused, decide (sml ≠ 0), a.dc⟩, rfl, ?_, fun _ => href⟩
    rw [hc]
    exact ⟨hf.app, hf.pending, rfl, rfl, hf.dc⟩
  · refine ⟨⟨true, .dcRefused, decide (sml ≠ 0), decide (w'.core.dcsync ≠ 0)⟩, rfl, ?_,
      by rintro (h | h) <;> cases h⟩
    have h := hc.flags (a := { a with mapped := decide (sml ≠ 0) }.stopAll)
      (withSml sml).stopAll hpend
    exact h.goto _ _
  · refine ⟨⟨true, .accepted, decide (sml ≠ 0), decide (w'.core.dcsync ≠ 0)⟩, rfl, ?_,
      by rintro (h | h) <;> cases h⟩
    have h := hc.flags
      (a := { a with mapped := decide (sml ≠ 0), inputs := true, outputs := false, sm2 := true })
      ⟨by change appstateInput = appCode true false; decide, hf.pending, rfl, rfl, hf.dc⟩ hpend
    exact h.goto _ _

/-- Something is done, and then a fixed AL status is shown. -/
lemma SwitchResult.afterwards {m : Stack σ Unit} {c : AlCore} {req : AlReq} {an : Byte}
    (h : wlp sys n m (fun _ w' => w'.core = c) w)
    (han : an = (a.enter a.noVerdict req).statusCode)
    (hf : Flags c (a.enter a.noVerdict req)) :
    wlp sys n (do m; pure an) (fun an w' => SwitchResult sys n w a req an w'.core) w := by
  refine h.bind fun _ w' h' => ?_
  rw [wlp_pure, h']
  exact .plain han hf

lemma stopoutputFlagged_core :
    wlp sys n stopoutputFlagged (fun _ w' => w'.core = w.core.stopOutputs) w := by
  refine escStopoutput_core.bind fun _ w₁ h₁ => ?_
  rw [wlp_get_bind]
  exact .when (fun _ => (onBus_core (escSMdisable_keepsSm2 (by decide))).mono
    fun _ w₂ h₂ => h₂.trans h₁) fun _ => h₁

lemma escAddress_core : wlp sys n escAddress (fun _ w' => w'.core = w.core) w := by
  refine (onBus_core (escRead_keepsSm2 _ _)).bind fun _ w₁ h₁ => ?_
  exact (modifyAl_core rfl).mono fun _ w₂ h₂ => h₂.trans h₁

/-- Starting the mailboxes, in PREOP or in BOOT. -/
lemma startMailboxes_refines {start : Stack σ Byte} {req : AlReq} {state : Byte}
    (hstart : ∀ w : World σ, wlp sys n start (fun r w' =>
      (r = state ∨ r = escInit ||| escError) ∧ w'.core = w.core) w)
    (hok : state = (a.enter { a.noVerdict with mbxOk := true } req).statusCode)
    (hbad : escInit ||| escError = (a.enter { a.noVerdict with mbxOk := false } req).statusCode)
    (hf : ∀ ok, Flags w.core (a.enter { a.noVerdict with mbxOk := ok } req)) :
    wlp sys n (do escAddress; start) (fun an w' => SwitchResult sys n w a req an w'.core) w := by
  refine escAddress_core.bind fun _ w₁ h₁ => ?_
  refine (hstart w₁).mono fun an w₂ ⟨hr, h₂⟩ => ?_
  rw [h₂, h₁]
  rcases hr with rfl | rfl
  · exact .mailbox true hok (hf true)
  · exact .mailbox false hbad (hf false)

lemma escStartmbx_core {state : Byte} (hstate : state &&& escError = 0) :
    wlp sys n (escStartmbx state) (fun r w' =>
      (r = state ∨ r = escInit ||| escError) ∧ w'.core = w.core) w :=
  escStartmbxWith_core _ _ _ _ hstate

lemma escStartmbxboot_core {state : Byte} (hstate : state &&& escError = 0) :
    wlp sys n (escStartmbxboot state) (fun r w' =>
      (r = state ∨ r = escInit ||| escError) ∧ w'.core = w.core) w :=
  escStartmbxWith_core _ _ _ _ hstate

lemma enterOp_refines (hf : Flags w.core a) :
    wlp sys n (enterOp escOp) (fun an w' =>
      an = a.enterOp.statusCode ∧ Flags w'.core a.enterOp) w := by
  rw [enterOp, wlp_get_bind, wlp_ite]
  refine ⟨fun hdc => ?_, fun hdc => ?_⟩
  · have hdc' : a.dc = true := hf.dc.symm.trans (decide_eq_true hdc)
    refine (modifyAl_core (c := { w.core with pending := true }) rfl).bind fun _ w₁ h₁ => ?_
    rw [wlp_pure, h₁, AlView.enterOp, if_pos hdc']
    exact ⟨rfl, (hf.withPending true).goto _ _⟩
  · have hdc' : ¬ a.dc = true := fun h => hdc (of_decide_eq_true (hf.dc.trans h))
    refine (escStartoutput_core escOp).mono fun an w₁ ⟨han, h₁⟩ => ?_
    rw [h₁, AlView.enterOp, if_neg hdc']
    exact ⟨han, hf.startOutputs.goto _ _⟩

/-- The switch, for a request for one of the states. -/
lemma escStateSwitch_state {st : AlSt} (hst : st = a.st) (hf : Flags w.core a)
    (hpend : a.pending = false) (req : AlSt) :
    wlp sys n (escStateSwitch ((req.code <<< 4) ||| st.code) st.code req.code)
      (fun an w' => SwitchResult sys n w a (.state req) an w'.core) w := by
  obtain ⟨st', err, inputs, outputs, pending, sm2, mapped, dc⟩ := a
  change st = st' at hst
  subst hst
  cases st with
  | init =>
      cases req with
      | init =>
          change wlp sys n (pure escInit) _ w
          exact (wlp_pure _ _).mpr (.plain rfl (hf.goto _ _))
      | preop =>
          change wlp sys n (do escAddress; escStartmbx escPreop) _ w
          exact startMailboxes_refines (fun _ => escStartmbx_core (by decide)) rfl rfl
            fun ok => by cases ok <;> exact hf.goto _ _
      | boot =>
          change wlp sys n (do escAddress; escStartmbxboot escBoot) _ w
          exact startMailboxes_refines (fun _ => escStartmbxboot_core (by decide)) rfl rfl
            fun ok => by cases ok <;> exact hf.goto _ _
      | safeop =>
          change wlp sys n (do escALerror _; pure (escInit ||| escError)) _ w
          exact .afterwards (escALerror_core _) rfl (hf.goto _ _)
      | op =>
          change wlp sys n (do escALerror _; pure (escInit ||| escError)) _ w
          exact .afterwards (escALerror_core _) rfl (hf.goto _ _)
  | preop =>
      cases req with
      | init =>
          change wlp sys n (do escStopmbx; pure escInit) _ w
          exact .afterwards escStopmbx_core rfl (hf.goto _ _)
      | preop =>
          change wlp sys n (pure escPreop) _ w
          exact (wlp_pure _ _).mpr (.plain rfl (hf.goto _ _))
      | boot =>
          change wlp sys n (do escALerror _; pure (escPreop ||| escError)) _ w
          exact .afterwards (escALerror_core _) rfl (hf.goto _ _)
      | safeop => exact enterSafeop_refines hf hpend
      | op =>
          change wlp sys n (do escALerror _; pure (escPreop ||| escError)) _ w
          exact .afterwards (escALerror_core _) rfl (hf.goto _ _)
  | boot =>
      cases req with
      | init =>
          change wlp sys n (do escStopmbx; pure escInit) _ w
          exact .afterwards escStopmbx_core rfl (hf.goto _ _)
      | boot =>
          change wlp sys n (do escAddress; escStartmbxboot escBoot) _ w
          exact startMailboxes_refines (fun _ => escStartmbxboot_core (by decide)) rfl rfl
            fun ok => by cases ok <;> exact hf.goto _ _
      | preop =>
          change wlp sys n (do escALerror _; pure (escPreop ||| escError)) _ w
          exact .afterwards (escALerror_core _) rfl (hf.goto _ _)
      | safeop =>
          change wlp sys n (do escALerror _; pure (escPreop ||| escError)) _ w
          exact .afterwards (escALerror_core _) rfl (hf.goto _ _)
      | op =>
          change wlp sys n (do escALerror _; pure (escPreop ||| escError)) _ w
          exact .afterwards (escALerror_core _) rfl (hf.goto _ _)
  | safeop =>
      cases req with
      | init =>
          change wlp sys n (do escStopinput; escStopmbx; pure escInit) _ w
          refine escStopinput_core.bind fun _ w₁ h₁ => ?_
          refine escStopmbx_core.bind fun _ w₂ h₂ => ?_
          rw [wlp_pure, h₂, h₁]
          exact .plain rfl (hf.stopAll.goto _ _)
      | preop =>
          change wlp sys n (do escStopinput; pure escPreop) _ w
          exact .afterwards escStopinput_core rfl (hf.stopAll.goto _ _)
      | boot =>
          change wlp sys n (do escALerror _; pure (escSafeop ||| escError)) _ w
          exact .afterwards (escALerror_core _) rfl (hf.goto _ _)
      | safeop => exact enterSafeop_refines hf hpend
      | op => exact (enterOp_refines hf).mono fun an w' ⟨han, hf'⟩ => .plain han hf'
  | op =>
      cases req with
      | init =>
          change wlp sys n (do escStopoutput; escStopinput; escStopmbx; pure escInit) _ w
          refine escStopoutput_core.bind fun _ w₁ h₁ => ?_
          refine escStopinput_core.bind fun _ w₂ h₂ => ?_
          refine escStopmbx_core.bind fun _ w₃ h₃ => ?_
          rw [wlp_pure, h₃, h₂, h₁]
          exact .plain rfl (hf.stopAll.goto _ _)
      | preop =>
          change wlp sys n (do escStopoutput; escStopinput; pure escPreop) _ w
          refine escStopoutput_core.bind fun _ w₁ h₁ => ?_
          refine escStopinput_core.bind fun _ w₂ h₂ => ?_
          rw [wlp_pure, h₂, h₁]
          exact .plain rfl (hf.stopAll.goto _ _)
      | boot =>
          change wlp sys n (do
            escALerror alerrInvalidstatechange
            stopoutputFlagged
            pure (escSafeop ||| escError)) _ w
          refine (escALerror_core _).bind fun _ w₁ h₁ => ?_
          refine stopoutputFlagged_core.bind fun _ w₂ h₂ => ?_
          rw [wlp_pure, h₂, h₁]
          exact .plain rfl (hf.stopOutputs.goto _ _)
      | safeop =>
          change wlp sys n (do escStopoutput; pure escSafeop) _ w
          exact .afterwards escStopoutput_core rfl (hf.stopOutputs.goto _ _)
      | op =>
          change wlp sys n (pure escOp) _ w
          exact (wlp_pure _ _).mpr (.plain rfl (hf.goto _ _))

/-- The labels of the switch. -/
def switchLabels : List Byte :=
  [initToInit, initToPreop, initToBoot, initToSafeop, initToOp, preopToInit, preopToPreop,
    preopToBoot, preopToSafeop, preopToOp, bootToInit, bootToPreop, bootToBoot, bootToSafeop,
    bootToOp, safeopToInit, safeopToPreop, safeopToBoot, safeopToSafeop, safeopToOp, opToInit,
    opToPreop, opToBoot, opToSafeop, opToOp]

lemma escStateSwitch_default {as an ac : Byte} (h : as ∉ switchLabels) :
    (escStateSwitch as an ac : Stack σ Byte) = (do
      when (an = escOp) stopoutputFlagged
      when (as = escSafeop) escStopinput
      escALerror alerrUnknownstate
      pure ((if an = escOp then escSafeop else an) ||| escError)) := by
  simp only [switchLabels, List.mem_cons, not_or] at h
  simp only [escStateSwitch, h, or_self, if_false]

/-- A value that is no state reaches the default of the switch. -/
lemma notMem_switchLabels (st : AlSt) : ∀ ac : Byte, ac &&& escregAlErrackmask = ac →
    (AlReq.ofNibble ac = .zero ∨ AlReq.ofNibble ac = .unknown) →
    (ac <<< 4) ||| st.code ∉ switchLabels := by
  cases st <;> decide +kernel

lemma wlp_when_core {c : Prop} [Decidable c] {m : Stack σ Unit} {f : AlCore → AlCore}
    (h : ∀ w : World σ, wlp sys n m (fun _ w' => w'.core = f w.core) w) :
    wlp sys n (when c m) (fun _ w' => w'.core = if c then f w.core else w.core) w :=
  .when (fun hc => (h w).mono fun _ w' h' => by rw [h', if_pos hc]) fun hc => by rw [if_neg hc]

lemma ofNibble_zero {ac : Byte} (h : AlReq.ofNibble ac = .zero) : ac = 0 := by
  simp only [AlReq.ofNibble] at h
  repeat' split at h
  all_goals first | assumption | cases h

lemma ofNibble_unknown {ac : Byte} (h : AlReq.ofNibble ac = .unknown) : ac ≠ 0 := by
  rintro rfl
  cases h

lemma ofNibble_state {ac : Byte} {req : AlSt} (h : AlReq.ofNibble ac = .state req) :
    ac = req.code := by
  simp only [AlReq.ofNibble] at h
  repeat' split at h
  all_goals cases h
  all_goals assumption

/-- A request other than 0 is not mistaken for the state SAFEOP. -/
lemma shifted_ne_safeop (st : AlSt) : ∀ ac : Byte, ac &&& escregAlErrackmask = ac → ac ≠ 0 →
    (ac <<< 4) ||| st.code ≠ escSafeop := by
  cases st <;> decide +kernel

/-- The switch, for a value that is no state. -/
lemma escStateSwitch_other {st : AlSt} (hst : st = a.st) (hf : Flags w.core a) {ac : Byte}
    (hac : ac &&& escregAlErrackmask = ac)
    (hreq : AlReq.ofNibble ac = .zero ∨ AlReq.ofNibble ac = .unknown) :
    wlp sys n (escStateSwitch ((ac <<< 4) ||| st.code) st.code ac)
      (fun an w' => SwitchResult sys n w a (.ofNibble ac) an w'.core) w := by
  rw [escStateSwitch_default (notMem_switchLabels st ac hac hreq)]
  refine (wlp_when_core fun _ => stopoutputFlagged_core).bind fun _ w₁ h₁ => ?_
  refine (wlp_when_core fun _ => escStopinput_core).bind fun _ w₂ h₂ => ?_
  refine (escALerror_core _).bind fun _ w₃ h₃ => ?_
  rw [wlp_pure, h₃, h₂, h₁]
  obtain ⟨st', err, inputs, outputs, pending, sm2, mapped, dc⟩ := a
  change st = st' at hst
  subst hst
  rcases hreq with hreq | hreq
  · rw [hreq, ofNibble_zero hreq]
    cases st with
    | safeop => exact .plain rfl (hf.stopAll.goto _ _)
    | op => exact .plain rfl (hf.stopOutputs.goto _ _)
    | init | preop | boot => exact .plain rfl (hf.goto _ _)
  · rw [hreq, if_neg (shifted_ne_safeop st ac hac (ofNibble_unknown hreq))]
    cases st with
    | op => exact .plain rfl (hf.stopOutputs.goto _ _)
    | init | preop | boot | safeop => exact .plain rfl (hf.goto _ _)

/-- The switch, in the state shown and for any low half of an AL control word. -/
theorem escStateSwitch_refines (hf : Flags w.core a) (hpend : a.pending = false) {ac : Byte}
    (hac : ac &&& escregAlErrackmask = ac) :
    wlp sys n (escStateSwitch ((ac <<< 4) ||| a.st.code) a.st.code ac)
      (fun an w' => SwitchResult sys n w a (.ofNibble ac) an w'.core) w := by
  cases hreq : AlReq.ofNibble ac with
  | state req =>
      rw [ofNibble_state hreq]
      exact escStateSwitch_state rfl hf hpend req
  | zero =>
      rw [← hreq]
      exact escStateSwitch_other rfl hf hac (.inl hreq)
  | unknown =>
      rw [← hreq]
      exact escStateSwitch_other rfl hf hac (.inr hreq)

/-! ## AL control requests -/

/-- The state after the AL control word was read. -/
def World.readControl (sys : System σ) (w : World σ) : World σ :=
  let a := sys.hal.read w.outside w.alEvent escregAlcontrol 2
  { w with
    outside := a.outside
    alEvent := a.alEvent
    al := { w.al with alControl := a.data.word 0 } }

/-- The AL control request, with its confirmation bit. -/
def World.controlByte (w : World σ) : Byte := w.al.alControl.setWidth 8 &&& escregAlStatemask

/-- The AL state and error indication. -/
def World.statusByte (w : World σ) : Byte := w.al.alStatus.setWidth 8 &&& escregAlStatemask

/-- An AL control request confirms the error: by its bit for it, or because it asks for INIT. -/
def confirms (ac : Byte) : Bool := ac &&& escError ≠ 0 ∨ ac = escInit

/-- The state after a state change hook that is called with `as` and `an`. -/
def World.hooked (w : World σ) (hook : Option (σ → Byte → Byte → σ × Byte × Byte))
    (as an : Byte) : World σ :=
  match hook with
  | none => w
  | some call => { w with outside := (call w.outside as an).1 }

/-- A held request is dropped. -/
def World.dropPending (w : World σ) : World σ := { w with al := { w.al with opPending := false } }

/-- The state in which `ESC_state` reaches its switch. -/
def World.atSwitch (sys : System σ) (w : World σ) : World σ :=
  let w := w.readControl sys
  let st := w.statusByte &&& escregAlErrackmask
  w.dropPending.hooked sys.cfg.preStateChangeHook
    (((w.controlByte &&& escregAlErrackmask) <<< 4) ||| st) st

/-- What a call of `ESC_state` can be, to the AL state machine. -/
inductive StateEvent (sys : System σ) (n : ℕ) (w : World σ) : AlEvent → Prop where
  /-- There is no AL control event. -/
  | idle (hevent : w.alEvent &&& escregAleventControl = 0) : StateEvent sys n w .idle
  /-- The AL control word is read; SAFEOP is refused on account of what the dictionary and the bus
  deliver only. -/
  | request (v : Verdict) (hevent : w.alEvent &&& escregAleventControl ≠ 0)
      (hv : v.pd = .mapRefused ∨ v.pd = .smRefused → ¬ SafeopAccepted sys n (w.atSwitch sys)) :
      StateEvent sys n w
        (.request (.ofNibble ((w.readControl sys).controlByte &&& escregAlErrackmask))
          (confirms (w.readControl sys).controlByte) v)

/-- The bit that shows a device identification does not show in the AL state. -/
lemma statusCode_shown (st : AlSt) (err : Bool) {flag : Byte} (h : flag = 0 ∨ flag = 0x20) :
    ((st.statusCode err ||| flag).setWidth 16).setWidth 8 &&& escregAlStatemask =
      st.statusCode err := by
  rcases h with rfl | rfl <;> cases st <;> cases err <;> decide

/-- An AL status that was written is the one that is shown. -/
lemma Flags.shows {c : AlCore} (h : Flags c a) {status : Byte} (hstatus : status = a.statusCode) :
    Shows { c with status := status.setWidth 16 } a := by
  refine ⟨h.withStatus _, ?_⟩
  have hshown := statusCode_shown a.st a.err (.inl rfl)
  rw [show a.st.statusCode a.err ||| 0 = a.st.statusCode a.err from BitVec.or_zero] at hshown
  rw [hstatus]
  exact hshown

/-- An AL status without an acknowledgement of the error. -/
lemma errorStays_iff (st : AlSt) (err : Bool) : ∀ ac : Byte, ac &&& escregAlStatemask = ac →
    (errorStays ac (st.statusCode err) ↔ err = true ∧ confirms ac = false) := by
  cases st <;> cases err <;> decide +kernel

/-- Once the error does not stay, the acknowledged status is the AL state. -/
lemma ackedStatus_statusCode (st : AlSt) (err : Bool) : ∀ ac : Byte,
    ac &&& escregAlStatemask = ac → ¬ (err = true ∧ confirms ac = false) →
      ackedStatus ac (st.statusCode err) = st.code := by
  cases st <;> cases err <;> decide +kernel

lemma ackedStatus_self : ∀ ac : Byte, ac &&& escregAlStatemask = ac →
    ackedStatus ac ac = ac &&& escregAlErrackmask := by
  decide +kernel

lemma statusCode_nibble (st : AlSt) (err : Bool) :
    st.statusCode err &&& 0x0f = st.code := by
  cases st <;> cases err <;> decide

lemma eq_safeopToOp_iff (st : AlSt) : ∀ ac : Byte, ac &&& escregAlErrackmask = ac →
    ((ac <<< 4) ||| st.code = safeopToOp ↔ st = .safeop ∧ AlReq.ofNibble ac = .state .op) := by
  cases st <;> decide +kernel

lemma escCheckIdRequest_keepsSm2 (alControl : Word) (an : Byte) :
    KeepsSm2 (escCheckIdRequest (σ := σ) alControl an) :=
  .ite ((escRead_keepsSm2 _ _).bind fun _ => .pure _) (.pure _)

lemma deviceId_core : wlp sys n deviceId (fun _ w' => w'.core = w.core) w := by
  rw [deviceId, wlp_ask_bind]
  cases sys.cfg.getDeviceId with
  | none =>
      rw [wlp_map]
      exact onBus_core (escRead_keepsSm2 _ _)
  | some getDeviceId => exact (wlp_transact _ _).mpr rfl

lemma escLoadDeviceId_core :
    wlp sys n escLoadDeviceId (fun flag w' => (flag = 0 ∨ flag = 0x20) ∧ w'.core = w.core)
      w := by
  refine deviceId_core.bind fun deviceId w₁ h₁ => ?_
  rw [wlp_ite]
  refine ⟨fun _ => ?_, fun _ => ?_⟩
  · refine (escALerror_core _).bind fun _ w₂ h₂ => ?_
    rw [wlp_pure]
    exact ⟨.inr rfl, h₂.trans h₁⟩
  · rw [wlp_pure]
    exact ⟨.inl rfl, h₁⟩

/-- What follows the switch shows the AL status it has come to. -/
lemma escStateFinish_refines (hooks : HooksNeutral sys) (hf : Flags w.core a) (as : Byte) :
    wlp sys n (escStateFinish as a.statusCode) (fun _ w' => Shows w'.core a) w := by
  rw [escStateFinish, wlp_ask_bind]
  refine (callStateChangeHook_core hooks.post _ _).bind fun p w₁ ⟨hp, h₁⟩ => ?_
  subst hp
  rw [wlp_get_bind]
  refine (wlp.when (Q := fun _ w' => w'.core = w.core)
    (fun _ => (escALerror_core _).mono fun _ w₂ h₂ => h₂.trans h₁) fun _ => h₁).bind
    fun _ w₂ h₂ => ?_
  rw [wlp_get_bind]
  refine (onBus_core (escCheckIdRequest_keepsSm2 _ _)).bind fun id w₃ h₃ => ?_
  have flag : wlp sys n (if id then escLoadDeviceId else pure 0)
      (fun flag w' => (flag = 0 ∨ flag = 0x20) ∧ w'.core = w.core) w₃ := by
    have hw₃ : w₃.core = w.core := h₃.trans h₂
    rw [wlp_ite, ← hw₃]
    exact ⟨fun _ => escLoadDeviceId_core, fun _ => (wlp_pure _ _).mpr ⟨.inl rfl, rfl⟩⟩
  refine flag.bind fun flag w₄ ⟨hflag, h₄⟩ => ?_
  refine (escALstatus_core _).mono fun _ w₅ h₅ => ?_
  rw [h₅, h₄]
  exact ⟨hf.withStatus _, statusCode_shown a.st a.err hflag⟩

lemma wlp_escReadControl (Q : Unit → World σ → Prop) :
    wlp sys n escReadControl Q w ↔ Q () (w.readControl sys) := by
  simp only [escReadControl, wlp_bind, wlp_within, escRead, wlp_transact, modifyAl, wlp_modify]
  rfl

lemma wlp_callStateChangeHook {hook : Option (σ → Byte → Byte → σ × Byte × Byte)}
    (h : NeutralHook hook) {as an : Byte} (Q : Byte × Byte → World σ → Prop) :
    wlp sys n (callStateChangeHook hook as an) Q w ↔ Q (as, an) (w.hooked hook as an) := by
  cases hook with
  | none => exact wlp_pure _ _
  | some call =>
      rw [callStateChangeHook, wlp_transact, h call rfl]
      rfl

@[simp] lemma hooked_core (hook : Option (σ → Byte → Byte → σ × Byte × Byte)) (as an : Byte) :
    (w.hooked hook as an).core = w.core := by
  cases hook <;> rfl

/-- Acting on a request. -/
lemma escStateAct_refines (hooks : HooksNeutral sys) (h : Shows w.core a) {ac : Byte}
    (hac : ac &&& escregAlErrackmask = ac) :
    wlp sys n (escStateAct ((ac <<< 4) ||| a.st.code) a.st.code ac) (fun _ w' => ∃ v,
      Shows w'.core ({ a with pending := false }.enter v (.ofNibble ac)) ∧
      (v.pd = .mapRefused ∨ v.pd = .smRefused → ¬ SafeopAccepted sys n
        (w.dropPending.hooked sys.cfg.preStateChangeHook ((ac <<< 4) ||| a.st.code) a.st.code)))
      w := by
  rw [escStateAct, modifyAl, wlp_bind, wlp_modify, wlp_ask_bind, wlp_bind,
    wlp_callStateChangeHook hooks.pre, wlp_bind]
  have hf : Flags w.dropPending.core { a with pending := false } :=
    h.toFlags.withPending false
  rw [← hooked_core sys.cfg.preStateChangeHook ((ac <<< 4) ||| a.st.code) a.st.code] at hf
  refine (escStateSwitch_refines hf rfl hac).mono fun an w' hthen => ?_
  obtain ⟨v, han, hf', hv⟩ := hthen
  rw [han]
  exact (escStateFinish_refines hooks hf' _).mono fun _ w'' h' => ⟨v, h', hv⟩

/-- `ESC_state` is an AL control request. -/
theorem escState_refines (hooks : HooksNeutral sys) (h : Shows w.core a) :
    wlp sys n escState (fun _ w' => ∃ e, Shows w'.core (a.step e) ∧ StateEvent sys n w e)
      w := by
  rw [escState, wlp_get_bind]
  refine .when (fun hevent => ?_) fun hevent => ⟨.idle, h, .idle (not_not.mp hevent)⟩
  rw [wlp_bind, wlp_escReadControl, wlp_get_bind]
  change wlp sys n (when (¬ errorStays (w.readControl sys).controlByte w.statusByte)
    (when (¬ (w.al.opPending ∧ (ackedStatus (w.readControl sys).controlByte
        (w.readControl sys).controlByte <<< 4) ||| (w.statusByte &&& 0x0f) = safeopToOp))
      (escStateAct ((ackedStatus (w.readControl sys).controlByte
        (w.readControl sys).controlByte <<< 4) ||| (w.statusByte &&& 0x0f))
        (ackedStatus (w.readControl sys).controlByte w.statusByte)
        (ackedStatus (w.readControl sys).controlByte (w.readControl sys).controlByte)))) _ _
  have hshown : Shows (w.readControl sys).core a :=
    ⟨⟨h.app, h.pending, h.sm2, h.mapped, h.dc⟩, h.status⟩
  have hstatus : w.statusByte = a.st.statusCode a.err := h.status
  have hpend : w.al.opPending = a.pending := h.pending
  have event := fun v => @StateEvent.request σ sys n w v hevent
  -- only the control request matters from here on
  have hmask : (w.readControl sys).controlByte &&& escregAlStatemask =
      (w.readControl sys).controlByte := by
    rw [World.controlByte, BitVec.and_assoc, BitVec.and_self]
  have hat : w.atSwitch sys = (w.readControl sys).dropPending.hooked
      sys.cfg.preStateChangeHook
      ((((w.readControl sys).controlByte &&& escregAlErrackmask) <<< 4) ||| a.st.code)
      a.st.code := by
    have hst : (w.readControl sys).statusByte &&& escregAlErrackmask = a.st.code := by
      rw [← statusCode_nibble a.st a.err, ← hstatus]
      rfl
    rw [World.atSwitch, hst]
  generalize (w.readControl sys).controlByte = ac at *
  rw [hstatus, statusCode_nibble, ackedStatus_self ac hmask, hpend]
  have hac : ac &&& escregAlErrackmask &&& escregAlErrackmask = ac &&& escregAlErrackmask := by
    rw [BitVec.and_assoc, BitVec.and_self]
  by_cases hstay : a.err = true ∧ confirms ac = false
  · -- the error is not confirmed
    rw [when, if_neg (not_not.mpr ((errorStays_iff a.st a.err ac hmask).mpr hstay)), wlp_pure]
    refine ⟨_, ?_, event a.noVerdict (by rintro (h | h) <;> cases h)⟩
    rw [AlView.step, AlView.request, if_pos ⟨hstay.1, by simp [hstay.2]⟩]
    exact hshown
  rw [when, if_pos (mt (errorStays_iff a.st a.err ac hmask).mp hstay),
    ackedStatus_statusCode a.st a.err ac hmask hstay]
  have hact : ¬ (a.err = true ∧ ¬ confirms ac = true) := by
    rintro ⟨herr, hconf⟩
    exact hstay ⟨herr, Bool.eq_false_iff.mpr hconf⟩
  by_cases hheld : a.pending = true ∧
      ((ac &&& escregAlErrackmask) <<< 4) ||| a.st.code = safeopToOp
  · -- OP is asked for again while it is waited for
    have hheld' := (eq_safeopToOp_iff a.st _ hac).mp hheld.2
    rw [when, if_neg (not_not.mpr hheld), wlp_pure]
    refine ⟨_, ?_, event a.noVerdict (by rintro (h | h) <;> cases h)⟩
    rw [AlView.step, AlView.request, if_neg hact, if_pos ⟨hheld.1, hheld'⟩]
    exact hshown
  · rw [when, if_pos hheld]
    refine (escStateAct_refines hooks hshown hac).mono fun _ w' hthen => ?_
    obtain ⟨v, h', hv⟩ := hthen
    refine ⟨_, ?_, event v (by rw [hat]; exact hv)⟩
    have hheld' : ¬ (a.pending = true ∧ a.st = .safeop ∧
        AlReq.ofNibble (ac &&& escregAlErrackmask) = .state .op) := by
      rintro ⟨hp, h⟩
      exact hheld ⟨hp, (eq_safeopToOp_iff a.st _ hac).mpr h⟩
    rw [AlView.step, AlView.request, if_neg hact, if_neg hheld']
    exact h'

/-! ## Changes of the SyncManagers -/

/-- `ESC_sm_act_event` checks the SyncManagers. -/
def World.smChecked (w : World σ) : Prop :=
  w.alEvent &&& escregAleventSmchange ≠ 0 ∧ w.statusByte &&& escregAlAllbutinitmask ≠ 0 ∧
    w.statusByte ≠ escBoot ∧ w.mb.mbxRun = true

/-- `ESC_sm_act_event` checks the SyncManagers, and acts on what it finds. -/
def World.smHandled (w : World σ) : Prop :=
  w.smChecked ∧ ¬ errorStays w.controlByte w.statusByte

instance (w : World σ) : Decidable w.smChecked := by
  unfold World.smChecked; infer_instance

instance (w : World σ) : Decidable w.smHandled := by
  unfold World.smHandled; infer_instance

/-- The mailbox SyncManagers are as configured. -/
def World.mbxOk (sys : System σ) (w : World σ) : Bool :=
  mbxAccepted sys.hal w.mb.activemb0 w.mb.activemb1 w.outside w.alEvent

/-- The process data SyncManagers are as configured.  `ESC_sm_act_event` recognises a failed check
by the AL status PREOP with an error, so that with this AL status every check looks like a failed
one. -/
def World.pdOk (sys : System σ) (w : World σ) : Bool :=
  let a := afterMbxCheck sys.hal w.outside w.alEvent
  w.statusByte ≠ escPreop ||| escError ∧
    sm23Accepted sys.hal sys.opts w.al.escSm2Sml w.al.escSm3Sml a.outside a.alEvent

/-- What a call of `ESC_sm_act_event` can be, to the AL state machine. -/
inductive SmEvent (sys : System σ) (w : World σ) : AlEvent → Prop where
  /-- Nothing is checked, or the slave is in an error that is not confirmed. -/
  | idle (hidle : ¬ w.smHandled) : SmEvent sys w .idle
  /-- The SyncManagers are checked. -/
  | change (hhandled : w.smHandled) : SmEvent sys w (.smChange (w.mbxOk sys) (w.pdOk sys))

/-- The application is stopped if it runs. -/
lemma stopIfRunning_core :
    wlp sys n (when (w.al.appState ≠ 0) do
      escStopoutput
      escStopinput) (fun _ w' => w'.core = if w.core.app ≠ 0 then w.core.stopAll else w.core)
      w := by
  refine .when (fun happ => ?_) fun happ => ?_
  · refine escStopoutput_core.bind fun _ w₁ h₁ => ?_
    refine escStopinput_core.mono fun _ w₂ h₂ => ?_
    have happ' : w.core.app ≠ 0 := happ
    rw [h₂, h₁, if_pos happ']
    rfl
  · have happ' : ¬ w.core.app ≠ 0 := happ
    rw [if_neg happ']

/-- Two results of the checks that push the slave down, or none. -/
lemma escSmStepDown_refines (h : Shows w.core a) {ac ax ax23 : Byte} {mbxOk pdOk : Bool}
    (hstay : ¬ errorStays ac w.statusByte)
    (hax : ax = escInit ||| escError ↔ mbxOk = false)
    (hax23 : mbxOk = true → (ax23 = escPreop ||| escError ↔ pdOk = false)) :
    wlp sys n (escSmStepDown ac w.statusByte ax ax23)
      (fun _ w' => Shows w'.core (a.smChange mbxOk pdOk)) w := by
  have hstop : Flags (if w.core.app ≠ 0 then w.core.stopAll else w.core)
      (if a.inputs ∨ a.outputs then a.stopAll else a) := by
    by_cases happ : w.core.app ≠ 0
    · rw [if_pos happ, if_pos (h.idle_iff.mp happ)]
      exact h.stopAll
    · rw [if_neg happ, if_neg (mt h.idle_iff.mpr happ)]
      exact h.toFlags
  rw [escSmStepDown, if_neg hstay]
  cases mbxOk with
  | false =>
      rw [if_pos (hax.mpr rfl), wlp_get_bind]
      refine stopIfRunning_core.bind fun _ w₁ h₁ => ?_
      refine escStopmbx_core.bind fun _ w₂ h₂ => ?_
      refine (escALerror_core _).bind fun _ w₃ h₃ => ?_
      refine (modifyMb_core _).bind fun _ w₄ h₄ => ?_
      refine (escALstatus_core _).mono fun _ w₅ h₅ => ?_
      rw [h₅, h₄, h₃, h₂, h₁, hax.mpr rfl]
      exact (hstop.goto _ _).shows rfl
  | true =>
      have hne : ¬ ax = escInit ||| escError := fun hax' => absurd (hax.mp hax') (by decide)
      rw [if_neg hne, wlp_get_bind]
      refine .when (fun ⟨happ, hbad⟩ => ?_) fun hgood => ?_
      · refine escStopoutput_core.bind fun _ w₁ h₁ => ?_
        refine escStopinput_core.bind fun _ w₂ h₂ => ?_
        rw [wlp_get_bind]
        refine (escALerror_core _).bind fun _ w₃ h₃ => ?_
        refine (escALstatus_core _).mono fun _ w₄ h₄ => ?_
        have hrun : a.inputs = true ∨ a.outputs = true := h.idle_iff.mp happ
        rw [h₄, h₃, h₂, h₁, hbad, (hax23 rfl).mp hbad, AlView.smChange, if_neg (by decide),
          if_pos ⟨hrun, by decide⟩]
        exact (h.stopAll.goto _ _).shows rfl
      · have hgood' : ¬ ((a.inputs = true ∨ a.outputs = true) ∧ ¬ pdOk = true) :=
          fun ⟨hrun, hpd⟩ => hgood ⟨h.idle_iff.mpr hrun,
            (hax23 rfl).mpr (Bool.eq_false_iff.mpr hpd)⟩
        rw [AlView.smChange, if_neg (by decide), if_neg hgood']
        exact h

/-- `ESC_sm_act_event` is a check of the SyncManagers. -/
theorem escSmActEvent_refines (h : Shows w.core a) :
    wlp sys n escSmActEvent (fun _ w' => ∃ e, Shows w'.core (a.step e) ∧ SmEvent sys w e) w := by
  rw [escSmActEvent, wlp_get_bind]
  refine .when (fun hevent => ?_) fun hevent => ⟨.idle, h, .idle fun hh => hevent hh.1.1⟩
  change wlp sys n (if w.statusByte &&& escregAlAllbutinitmask ≠ 0 ∧ w.statusByte ≠ escBoot ∧
    w.mb.mbxRun then _ else _) _ w
  rw [wlp_ite]
  refine ⟨fun ⟨hnot, hboot, hrun⟩ => ?_, fun hskip => ?_⟩
  · refine ((onBus_wlp (escCheckmbx_result w.mb.activemb0 w.mb.activemb1 w.statusByte)).and
      (onBus_core (escCheckmbx_keepsSm2 _ _ _))).bind fun ax w₁ ⟨hax, h₁⟩ => ?_
    replace hax : if w.mbxOk sys then ax = w.statusByte ∧
        w₁.outside = (afterMbxCheck sys.hal w.outside w.alEvent).outside ∧
        w₁.alEvent = (afterMbxCheck sys.hal w.outside w.alEvent).alEvent
      else ax = escInit ||| escError := hax
    rw [wlp_ask_bind]
    refine ((onBus_wlp (escCheckSM23_result sys.opts w.al.escSm2Sml w.al.escSm3Sml
      w.statusByte)).and (onBus_core (escCheckSM23_keepsSm2 _ _ _ _))).bind
      fun ax23 w₂ ⟨hax23, h₂⟩ => ?_
    have hcore : w₂.core = w.core := h₂.trans h₁
    by_cases hstay : errorStays w.controlByte w.statusByte
    · change wlp sys n (escSmStepDown w.controlByte w.statusByte ax ax23) _ _
      rw [escSmStepDown, if_pos hstay, wlp_pure, hcore]
      exact ⟨.idle, h, .idle fun hh => hh.2 hstay⟩
    have hbyte : w₂.statusByte = w.statusByte :=
      congrArg (fun c => c.status.setWidth 8 &&& escregAlStatemask) hcore
    refine (?_ : wlp sys n (escSmStepDown w.controlByte w.statusByte ax ax23)
      (fun _ w' => Shows w'.core (a.smChange (w.mbxOk sys) (w.pdOk sys))) w₂).mono
      fun _ w₃ h₃ => ⟨.smChange _ _, h₃, .change ⟨⟨hevent, hnot, hboot, hrun⟩, hstay⟩⟩
    rw [← hbyte]
    refine escSmStepDown_refines (hcore ▸ h) (hbyte ▸ hstay) ?_ ?_
    · constructor
      · intro hbad
        rw [Bool.eq_false_iff]
        intro hok
        rw [if_pos hok] at hax
        exact hnot (by rw [← hax.1, hbad]; decide)
      · intro hbad
        rw [hbad] at hax
        exact hax
    · intro hok
      rw [if_pos hok] at hax
      obtain ⟨-, houtside, hevent'⟩ := hax
      replace hax23 : ax23 = if sm23Accepted sys.hal sys.opts w.al.escSm2Sml w.al.escSm3Sml
          w₁.outside w₁.alEvent then w.statusByte else escPreop ||| escError := hax23
      rw [houtside, hevent'] at hax23
      rw [hax23, World.pdOk]
      split <;> simp_all
  · have acks : ∀ k, KeepsSm2 (σ := σ) (escSMack k) := escSMack_keepsSm2
    refine (onBus_core ((acks 0).bind fun _ => (acks 1).bind fun _ => (acks 2).bind fun _ =>
      (acks 3).bind fun _ => (acks 4).bind fun _ => (acks 5).bind fun _ =>
        (acks 6).bind fun _ => acks 7)).mono fun _ w₁ h₁ => ?_
    rw [h₁]
    exact ⟨.idle, h, .idle fun hh => hskip hh.1.2⟩

end Soes
