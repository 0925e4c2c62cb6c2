import Soes.Properties.Bookkeeping
import Soes.Properties.Sessions

/-!
# What a mailbox session starts with

Between two sessions nothing touches the mailboxes or the FoE server: every protocol looks at
`MBXrun` first.  So a session starts with what the one before it has left, and `ESC_stopmbx` leaves
the mailboxes fresh (`Mailbox.Fresh`).

It does not touch the FoE server, and a failed restart of the bootstrap mailboxes ends a session
without `ESC_stopmbx`.  Sessions start fresh in the runs in which a session ends only while the
server is ready, and in such a restart only with fresh mailboxes.
-/

namespace Soes

open Program Mailbox

variable {σ : Type} {sys : DeviceSystem σ} {n : ℕ} {d d' : Device σ} {a : AlView}

/-! ## Fresh mailboxes -/

/-- The mailboxes as a session should find them. -/
structure Mailbox.Fresh (o : Options) (m : Mailbox) : Prop where
  idle : ∀ k < o.mbxBuffers, m.control k = .idle
  mbxoutpost : m.mbxoutpost = 0
  mbxbackup : m.mbxbackup = 0
  txcue : m.txcue = 0
  xoe : m.xoe = 0
  segmented : m.segmented = 0
  sdoHeld : m.sdoHeld.active = false

/-- The file that is open for writing. -/
def Foe.openFile (v : Foe) : Option ℕ := if v.foestate = .ready then none else v.file

/-- What a session should find. -/
structure Device.Fresh (sys : DeviceSystem σ) (d : Device σ) : Prop where
  mailbox : d.world.mb.Fresh sys.sys.opts
  ready : d.foe.foestate = .ready
  closed : d.foe.openFile = none

lemma Mailbox.stopped_fresh (o : Options) (m : Mailbox) : (m.stopped o.mbxBuffers).Fresh o := by
  refine ⟨fun k hk => ?_, rfl, rfl, rfl, rfl, rfl, rfl⟩
  exact if_pos hk

lemma Mailbox.Fresh.started {o : Options} {m : Mailbox} (h : m.Fresh o)
    (mode : ℕ × SmCfg × SmCfg) (toggle run : Bool) : (m.started mode toggle run).Fresh o :=
  ⟨h.idle, h.mbxoutpost, h.mbxbackup, h.txcue, h.xoe, h.segmented, h.sdoHeld⟩

/-- The application posts buffer `k`, if it is a claimed one: `applicationOutreq` on the mailboxes.
-/
def Mailbox.outreq (m : Mailbox) (k : ℕ) (contents : ByteStore) : Mailbox :=
  if m.control k = .outclaim then
    (m.updateMbx fun mbx => mbx.copy (m.buffer k) m.activembxsize contents 0).setControl k .outreq
  else m

lemma Mailbox.outreq_mbxRun (m : Mailbox) (k : ℕ) (contents : ByteStore) :
    (m.outreq k contents).mbxRun = m.mbxRun := by
  rw [Mailbox.outreq]
  split <;> rfl

/-- No buffer is claimed in fresh mailboxes. -/
lemma Mailbox.Fresh.outreq {o : Options} {m : Mailbox} (h : m.Fresh o) (k : ℕ)
    (contents : ByteStore) : (m.outreq k contents).Fresh o := by
  rw [Mailbox.outreq]
  split
  case isFalse => exact h
  case isTrue hclaim =>
    refine ⟨fun j hj => ?_, h.mbxoutpost, h.mbxbackup, h.txcue, h.xoe, h.segmented, h.sdoHeld⟩
    have hne : j ≠ k := by
      rintro rfl
      rw [h.idle j hj] at hclaim
      cases hclaim
    refine (if_neg hne).trans ?_
    exact h.idle j hj

/-! ## Between sessions -/

/-- What holds between sessions. -/
structure Device.Rests (sys : DeviceSystem σ) (d : Device σ) : Prop where
  mailbox : d.world.mb.Fresh sys.sys.opts
  ready : d.foe.foestate = .ready

/-- A call of the protocols or the application. -/
def DeviceCall.isProtocol : DeviceCall σ → Prop
  | .call c => ¬ c.isAl
  | _ => True

/-- While the mailboxes are stopped the protocols do nothing, and the application, which is not to
claim a buffer then, has none to post. -/
lemma DeviceCall.rests {c : DeviceCall σ} (hc : c.isProtocol) (hclaim : c ≠ .claimbuffer)
    (hstop : d.world.mb.mbxRun = false) (h : d.Rests sys) :
    wlp sys n c.run (fun _ d' => d'.world.mb.mbxRun = false ∧ d'.Rests sys) d := by
  have same : d.world.mb.mbxRun = false ∧ d.Rests sys := ⟨hstop, h⟩
  have hno : ¬ d.world.mb.mbxRun = true := Bool.eq_false_iff.mp hstop
  cases c with
  | claimbuffer => exact (hclaim rfl).elim
  | foeprocess =>
      rw [DeviceCall.run, wlp_within, escFoeprocess, wlp_get_bind]
      exact .when (fun hrun => (hno hrun).elim) fun _ => same
  | eoeprocess =>
      rw [DeviceCall.run, wlp_within, escEoeprocess, wlp_get_bind]
      exact .when (fun hrun => (hno hrun).elim) fun _ => same
  | eoeprocessTx =>
      rw [DeviceCall.run, wlp_within, escEoeprocessTx, wlp_get_bind]
      exact .when (fun hrun => (hno hrun).elim) fun _ => same
  | sdoComplete abortcode =>
      rw [DeviceCall.run, wlp_within, wlp_within, escSdoComplete, wlp_bind, wlp_coeMb]
      exact .when (fun hactive => absurd (h.mailbox.sdoHeld.symm.trans hactive) (by decide))
        fun _ => same
  | outreq k contents =>
      rw [DeviceCall.run, wlp_within, wlp_within, applicationOutreq, wlp_modify]
      exact ⟨(d.world.mb.outreq_mbxRun k contents).trans hstop, h.mailbox.outreq k contents,
        h.ready⟩
  | call c =>
      rw [DeviceCall.run, wlp_within]
      cases c with
      | mbxprocess =>
          refine (wlp_map _ _ _).mpr (escMbxprocess_turn.mono fun _ w' hturn => ?_)
          rcases hturn with hsame | ⟨hrun, -⟩
          · refine ⟨?_, ?_, h.ready⟩
            · change w'.mb.mbxRun = false
              rw [hsame]
              exact hstop
            · change w'.mb.Fresh sys.sys.opts
              rw [hsame]
              exact h.mailbox
          · exact (hno hrun).elim
      | coeprocess =>
          rw [Call.run, wlp_within, escCoeprocess, wlp_bind, wlp_coeMb]
          exact .when (fun hrun => (hno hrun).elim) fun _ => same
      | xoeprocess =>
          rw [Call.run, wlp_within, escXoeprocess, wlp_get_bind]
          exact .when (fun hrun => (hno hrun.1).elim) fun _ => same
      | _ => exact (hc trivial).elim

lemma Mailbox.completed_mbxRun (o : Options) (m : Mailbox) (abortcode : Dword) :
    (m.completed o abortcode).mbxRun = m.mbxRun := by
  rw [Mailbox.completed]
  split
  · rfl
  · split <;> rfl

/-- The protocols and the application neither start nor stop the mailboxes. -/
lemma DeviceCall.keeps_mbxRun {c : DeviceCall σ} (hc : c.isProtocol) :
    wlp sys n c.run (fun _ d' => d'.world.mb.mbxRun = d.world.mb.mbxRun) d := by
  by_cases hclaims : c.claims
  · refine (DeviceCall.exists_ledger hclaims n d).mono fun _ d' h => ?_
    obtain ⟨held, posted, hledger⟩ := h
    exact (mode_of_fixed hledger.fixed).1
  cases c with
  | sdoComplete abortcode =>
      rw [DeviceCall.run, wlp_within, wlp_within]
      refine (escSdoComplete_completed abortcode).wlp.mono fun _ c' hc' => ?_
      rw [hc']
      exact Mailbox.completed_mbxRun _ _ _
  | outreq k contents =>
      rw [DeviceCall.run, wlp_within, wlp_within, applicationOutreq, wlp_modify]
      exact d.world.mb.outreq_mbxRun k contents
  | call c =>
      rw [DeviceCall.run, wlp_within]
      exact (Call.keeps_mode hc).mono fun _ w' h => h.1
  | _ => exact (hclaims trivial).elim

/-- The protocols and the application leave the AL state alone. -/
lemma DeviceCall.keeps_core {c : DeviceCall σ} (hc : c.isProtocol) :
    wlp sys n c.run (fun _ d' => d'.world.core = d.world.core) d := by
  cases c with
  | call c =>
      rw [DeviceCall.run, wlp_within]
      cases c with
      | mbxprocess => exact (wlp_map _ _ _).mpr (escMbxprocess_al.core _ _ _)
      | coeprocess => exact (onCoe_keepsAl escCoeprocess).core _ _ _
      | xoeprocess => exact (onMailbox_keepsAl escXoeprocess).core _ _ _
      | _ => exact (hc trivial).elim
  | foeprocess => exact (wlp_within _ _ _ _).mpr fun _ _ _ => rfl
  | eoeprocess => exact (wlp_within _ _ _ _).mpr fun _ _ _ => rfl
  | eoeprocessTx => exact (wlp_within _ _ _ _).mpr fun _ _ _ => rfl
  | sdoComplete abortcode =>
      exact (wlp_within _ _ _ _).mpr ((onCoe_keepsAl (escSdoComplete abortcode)).core _ _ _)
  | claimbuffer =>
      rw [DeviceCall.run, wlp_within]
      exact (onMailbox_keepsAl _).core _ _ _
  | outreq k contents =>
      rw [DeviceCall.run, wlp_within]
      exact (onMailbox_keepsAl _).core _ _ _

/-! ## Runs -/

/-- The calls that end a session as the next one needs it: the mailboxes are stopped only while the
FoE server is ready, and a restart in BOOT fails only with fresh mailboxes.  The application claims
no buffer while they are stopped. -/
def FreshOk (sys : DeviceSystem σ) (d : Device σ) : ℕ × DeviceCall σ → Prop
  | (n, .call c) => d.world.mb.mbxRun = true →
      (c.stops sys.sys d.world → d.foe.foestate = .ready) ∧
      (c.refused sys.sys n d.world → d.world.alNibble = escBoot → d.Rests sys)
  | (_, .claimbuffer) => d.world.mb.mbxRun = true
  | _ => True

/-- What holds of the sessions along a run. -/
structure SessionInvariant (sys : DeviceSystem σ) (d : Device σ) (a : AlView) : Prop where
  shows : Shows d.world.core a
  init : a.st = .init → d.world.mb.mbxRun = false
  rests : d.world.mb.mbxRun = false → d.Rests sys

/-- A session that is started finds what was there before. -/
lemma Session.fresh {o : Options} {stops refused : Prop} {st st' : AlSt} {m m' : Mailbox}
    (h : Session o stops refused st m st' m') (hfresh : m.Fresh o) : m'.Fresh o := by
  cases h with
  | kept => exact hfresh
  | stopped => exact m.stopped_fresh o
  | started hst toggle => exact hfresh.started _ _ _
  | startedBoot hst toggle => exact hfresh.started _ _ _
  | failed hst mode toggle => exact hfresh.started _ _ _

lemma Session.init {o : Options} {stops refused : Prop} {st st' : AlSt} {m m' : Mailbox}
    (h : Session o stops refused st m st' m') (hm : st = .init → m.mbxRun = false)
    (hst' : st' = .init) : m'.mbxRun = false := by
  cases h with
  | kept hst =>
      rcases hst with hst | hst
      · exact hm (hst.symm.trans hst')
      · rw [hst'] at hst
        cases hst
  | stopped => rfl
  | started => cases hst'
  | startedBoot => cases hst'
  | failed => rfl

/-- A session ends as the next one needs it. -/
lemma Session.rests {c : Call σ} {st' : AlSt} {w' : World σ} (h : SessionInvariant sys d a)
    (hs : Session sys.sys.opts (c.stops sys.sys d.world) (c.refused sys.sys n d.world) a.st
      d.world.mb st' w'.mb)
    (hok : FreshOk sys d (n, .call c)) (hstop' : w'.mb.mbxRun = false) :
    (worldOf.put w' d).Rests sys := by
  by_cases hstop : d.world.mb.mbxRun = false
  · exact ⟨hs.fresh (h.rests hstop).mailbox, (h.rests hstop).ready⟩
  have hrun : d.world.mb.mbxRun = true := Bool.not_eq_false _ ▸ hstop
  obtain ⟨hends, hrefused⟩ := hok hrun
  refine ⟨?_, ?_⟩
  · change w'.mb.Fresh sys.sys.opts
    generalize w'.mb = m' at *
    cases hs with
    | kept => exact (hstop hstop').elim
    | stopped => exact d.world.mb.stopped_fresh _
    | started => cases hstop'
    | startedBoot => cases hstop'
    | failed hst =>
        rcases hst with hinit | ⟨hboot, hrefuse⟩
        · exact (hstop (h.init hinit)).elim
        · exact (hrefused hrefuse ((h.shows.nibble_iff .boot).mpr hboot)).mailbox.started _ _ _
  · change d.foe.foestate = .ready
    generalize w'.mb = m' at *
    cases hs with
    | kept => exact (hstop hstop').elim
    | stopped hstops => exact hends hstops
    | started => cases hstop'
    | startedBoot => cases hstop'
    | failed hst =>
        rcases hst with hinit | ⟨hboot, hrefuse⟩
        · exact (hstop (h.init hinit)).elim
        · exact (hrefused hrefuse ((h.shows.nibble_iff .boot).mpr hboot)).ready

lemma Device.Step.sessionInvariant (hooks : HooksNeutral sys.sys) {l : ℕ × DeviceCall σ}
    (h : SessionInvariant sys d a) (hok : FreshOk sys d l) (hstep : Device.Step sys d l d') :
    ∃ a', SessionInvariant sys d' a' := by
  obtain ⟨n, c⟩ := l
  by_cases hprotocol : c.isProtocol
  · have hcore := DeviceCall.keeps_core hprotocol () d' hstep
    have hrun := DeviceCall.keeps_mbxRun hprotocol () d' hstep
    refine ⟨a, by rw [hcore]; exact h.shows, fun hinit => hrun.trans (h.init hinit),
      fun hstop' => ?_⟩
    have hstop : d.world.mb.mbxRun = false := hrun.symm.trans hstop'
    have hclaim : c ≠ .claimbuffer := by
      rintro rfl
      have hrun' : d.world.mb.mbxRun = true := hok
      rw [hstop] at hrun'
      cases hrun'
    exact (DeviceCall.rests hprotocol hclaim hstop (h.rests hstop) () d' hstep).2
  · cases c with
    | call c =>
        have hal : c.isAl := not_not.mp hprotocol
        refine (?_ : wlp sys n (DeviceCall.call c).run
          (fun _ d' => ∃ a', SessionInvariant sys d' a') d) () d' hstep
        rw [DeviceCall.run, wlp_within]
        intro _ w' hrun
        have hworld : Stack.Step sys.sys d.world (n, c) w' := hrun
        obtain ⟨e, hshows, -, hsession⟩ := hworld.session hooks h.shows hal
        exact ⟨a.step e, hshows, hsession.init h.init, Session.rests h hsession hok⟩
    | _ => exact (hprotocol trivial).elim

lemma wlp_onStack_core {α : Type} {m : Stack σ α} (hm : KeepsCore m) :
    wlp sys n (onStack m) (fun _ d' => d'.world.core = d.world.core ∧ d'.foe = d.foe) d :=
  (wlp_within _ _ _ _).mpr ((hm sys.sys n d.world).mono fun _ _ h => ⟨h, rfl⟩)

/-- `ecat_slv_init` prepares the first session. -/
lemma Device.Initialised.sessionInvariant (h : Device.Initialised sys d) :
    SessionInvariant sys d AlView.initial := by
  have hstopped := deviceInit_stopped h
  obtain ⟨outside₀, alEvent₀, bytes₀, hmb⟩ := hstopped
  obtain ⟨n, outside, alEvent, bytes, hrun⟩ := h
  have left : d.foe.foestate = .ready ∧ Shows d.world.core AlView.initial := by
    refine (?_ : wlp sys n deviceInit (fun r d' => r = true → d'.foe.foestate = .ready ∧
      Shows d'.world.core AlView.initial) (Device.zeroed outside alEvent bytes)) true d hrun rfl
    rw [deviceInit, wlp_ask_bind]
    refine (wlp_onStack_core (modifyWd_al _).core).bind fun _ d₁ hthen => ?_
    obtain ⟨h₁, hfoe₁⟩ := hthen
    refine (wlp_onStack_core (.transact fun _ _ => rfl)).bind fun started d₂ hthen => ?_
    obtain ⟨h₂, hfoe₂⟩ := hthen
    refine (wlp_ite _ _ _ _).mpr ⟨fun _ => (wlp_pure _ _).mpr fun hfail => (by cases hfail),
      fun _ => ?_⟩
    refine (wlp_onStack_core (waitDlstatus_core _)).bind fun up d₃ hthen => ?_
    obtain ⟨h₃, hfoe₃⟩ := hthen
    refine (wlp_ite _ _ _ _).mpr ⟨fun _ => ?_, fun _ => (wlp_pure _ _).mpr fun hfail =>
      (by cases hfail)⟩
    refine wlp.bind (P := fun _ d₄ => d₄.world.core = d₃.world.core ∧ d₄.foe.foestate = .ready)
      ((wlp_within _ _ _ _).mpr ((wlp_modify _ _).mpr ⟨rfl, rfl⟩)) fun _ d₄ hthen => ?_
    obtain ⟨h₄, hready⟩ := hthen
    refine wlp.bind (P := fun _ d₅ => d₅.world.core = d₄.world.core ∧ d₅.foe = d₄.foe)
      ((wlp_within _ _ _ _).mpr fun _ _ _ => ⟨rfl, rfl⟩) fun _ d₅ hthen => ?_
    obtain ⟨h₅, hfoe₅⟩ := hthen
    have hzero : d₅.world.core = (World.zeroed outside alEvent bytes).core := by
      rw [h₅, h₄, h₃, h₂, h₁]
      rfl
    refine wlp.bind (P := fun _ d₆ => Shows d₆.world.core AlView.initial ∧ d₆.foe = d₅.foe)
      ((wlp_within _ _ _ _).mpr ((initStop_shows hzero).mono fun _ _ h => ⟨h, rfl⟩))
      fun _ d₆ hthen => ?_
    obtain ⟨h₆, hfoe₆⟩ := hthen
    refine (wlp_onStack_core coeInitDefaultValues_core).bind fun _ d₇ hthen => ?_
    obtain ⟨h₇, hfoe₇⟩ := hthen
    refine (wlp_pure _ _).mpr fun _ => ⟨?_, ?_⟩
    · rw [hfoe₇, hfoe₆, hfoe₅]
      exact hready
    · rw [h₇]
      exact h₆
  refine ⟨left.2, fun _ => ?_, fun _ => ⟨?_, left.1⟩⟩
  · rw [hmb]
    rfl
  · rw [hmb]
    exact Mailbox.stopped_fresh _ _

/-- **Every mailbox session starts fresh**, in every run whose calls meet `FreshOk`. -/
theorem sessions_start_fresh (hooks : HooksNeutral sys.sys)
    (h : Device.Reached sys (FreshOk sys) d) {l : ℕ × DeviceCall σ} (hstep : Device.Step sys d l d')
    (hstop : d.world.mb.mbxRun = false) (hrun : d'.world.mb.mbxRun = true) : d'.Fresh sys := by
  obtain ⟨a, hinv⟩ : ∃ a, SessionInvariant sys d a :=
    Reachable.invariant (P := fun d : Device σ => ∃ a, SessionInvariant sys d a)
      (fun _ hinit => ⟨_, hinit.sessionInvariant⟩)
      (fun _ _ _ ⟨_, hinv⟩ hok hstep => hstep.sessionInvariant hooks hinv hok) h
  have hrests := hinv.rests hstop
  obtain ⟨n, c⟩ := l
  by_cases hprotocol : c.isProtocol
  · have hsame := DeviceCall.keeps_mbxRun hprotocol () d' hstep
    rw [hstop, hrun] at hsame
    cases hsame
  · cases c with
    | call c =>
        have hal : c.isAl := not_not.mp hprotocol
        have started : wlp sys n (DeviceCall.call c).run (fun _ d' =>
            d'.world.mb.Fresh sys.sys.opts ∧ d'.foe = d.foe) d := by
          rw [DeviceCall.run, wlp_within]
          intro _ w' hrun
          have hworld : Stack.Step sys.sys d.world (n, c) w' := hrun
          obtain ⟨e, -, -, hsession⟩ := hworld.session hooks hinv.shows hal
          exact ⟨hsession.fresh hrests.mailbox, rfl⟩
        obtain ⟨hfresh, hfoe⟩ := started () d' hstep
        have hready : d'.foe.foestate = .ready := by
          rw [hfoe]
          exact hrests.ready
        exact ⟨hfresh, hready, if_pos hready⟩
    | _ => exact (hprotocol trivial).elim

/-! ## On the example device -/

/-- A file that may be written in BOOT only, with a write function that takes everything. -/
def exampleFile : FoeFile ByteStore where
  name := [0x66]
  maxData := 1000
  filepass := 0
  writeOnlyInBoot := true
  writeFunction o _ _ _ := (o, 0)

/-- The example device with that file. -/
def fileDevice : DeviceSystem ByteStore :=
  { exampleDevice exampleSystem with foe := { bufferSize := 16, files := [exampleFile] } }

lemma fileHooks : HooksNeutral fileDevice.sys := exampleHooks

/-- An FoE message, by opcode, number and what follows. -/
def foeMessage (opcode : Byte) (number : Dword) (data : List Byte) : List Byte :=
  [.ofNat 8 (6 + data.length), 0, 0, 0, 0, mbxfoe, opcode, 0, number.setWidth 8,
    (number >>> 8).setWidth 8, (number >>> 16).setWidth 8, (number >>> 24).setWidth 8] ++ data

/-- The master writes an FoE message, and the stack reads and handles it. -/
def foeExchange (opcode : Byte) (number : Dword) (data : List Byte) :
    List (ℕ × DeviceCall ByteStore) :=
  [(0, .call (.move (mailChip (foeMessage opcode number data)) escregAleventSm0 fun _ => 0)),
    (8, .call .mbxprocess), (8, .foeprocess)]

/-- Take a step, if it is possible. -/
def DeviceCall.execAny (sys : DeviceSystem σ) (d : Device σ) (l : ℕ × DeviceCall σ) :
    Option (Device σ) := l.2.exec sys l.1 d

lemma DeviceCall.execAny_step {sys : DeviceSystem σ} (d : Device σ) (l : ℕ × DeviceCall σ)
    (d' : Device σ) (h : execAny sys d l = some d') : True ∧ Device.Step sys d l d' :=
  ⟨trivial, DeviceCall.exec_step h⟩

/-- The device is started, and asked for BOOT. -/
theorem sessions_start_fresh_example : ∃ d : Device ByteStore, d.world.mb.mbxRun = true ∧
    d.Fresh fileDevice := by
  have hrun : ((deviceStart fileDevice 8 (exampleChip 1 0 0) 0 fun _ => 0).bind fun d =>
      ((DeviceCall.call (masterMove 3 escregAleventControl 0).2).exec fileDevice 0 d).bind fun d₁ =>
        ((DeviceCall.call .state).exec fileDevice 8 d₁).map fun d₂ =>
          (d₁.world.mb.mbxRun, d₂.world.mb.mbxRun)) = some (false, true) := by
    decide +kernel
  obtain ⟨d₀, hstart, hrun⟩ := Option.bind_eq_some_iff.mp hrun
  obtain ⟨d₁, hmove, hrun⟩ := Option.bind_eq_some_iff.mp hrun
  obtain ⟨d₂, hstate, hseen⟩ := Option.map_eq_some_iff.mp hrun
  obtain ⟨hstop, hstarted⟩ := Prod.mk.inj hseen
  have hok : FreshOk fileDevice d₀ (0, .call (masterMove 3 escregAleventControl 0).2) :=
    fun _ => ⟨fun h => h.elim, fun h => h.elim⟩
  have hreached : Device.Reached fileDevice (FreshOk fileDevice) d₁ :=
    .next (.start (deviceStart_initialised hstart)) hok (DeviceCall.exec_step hmove)
  exact ⟨d₂, hstarted, sessions_start_fresh fileHooks hreached (DeviceCall.exec_step hstate) hstop
    hstarted⟩

/-- A file is opened in BOOT, and the master asks for INIT. -/
def abandonedTransfer : List (ℕ × DeviceCall ByteStore) :=
  stackCalls (masterRequest 3 0) ++ foeExchange foeOpWrq 0 [0x66] ++
    stackCalls (masterRequest 1 0) ++ stackCalls [masterMove 2 escregAleventControl 0]

/-- A transfer that was open when the mailboxes were stopped is open when they are started again. -/
theorem transfer_survives_stop : ¬ ∀ (sys : DeviceSystem ByteStore) (d d' : Device ByteStore)
    (l : ℕ × DeviceCall ByteStore), HooksNeutral sys.sys → Device.Reached sys (fun _ _ => True) d →
    Device.Step sys d l d' → d.world.mb.mbxRun = false → d'.world.mb.mbxRun = true →
      d'.Fresh sys := by
  intro h
  have hrun : ((deviceStart fileDevice 8 (exampleChip 1 0 0) 0 fun _ => 0).bind fun d =>
      (runSteps (DeviceCall.execAny fileDevice) abandonedTransfer d).bind fun d₁ =>
        ((DeviceCall.call .state).exec fileDevice 8 d₁).map fun d₂ =>
          (d₁.world.mb.mbxRun, d₂.world.mb.mbxRun, d₂.foe.openFile)) =
      some (false, true, some 0) := by
    decide +kernel
  obtain ⟨d₀, hstart, hrun⟩ := Option.bind_eq_some_iff.mp hrun
  obtain ⟨d₁, hruns, hrun⟩ := Option.bind_eq_some_iff.mp hrun
  obtain ⟨d₂, hstate, hseen⟩ := Option.map_eq_some_iff.mp hrun
  obtain ⟨hstop, hseen⟩ := Prod.mk.inj hseen
  obtain ⟨hstarted, hopen⟩ := Prod.mk.inj hseen
  have hreached := runSteps_reachable DeviceCall.execAny_step abandonedTransfer
    (.start (deviceStart_initialised hstart)) hruns
  have hfresh := h fileDevice d₁ d₂ _ fileHooks hreached (DeviceCall.exec_step hstate) hstop
    hstarted
  rw [hfresh.closed] at hopen
  cases hopen

end Soes
