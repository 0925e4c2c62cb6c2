import Soes.Framework.Runs
import Soes.Stack.Eoe
import Soes.Stack.Foe
import Soes.Stack.RegisterFile

/-!
# The stack with all its protocols

The stack as compiled with `USE_FOE` and `USE_EOE`: a `Device` is the world of `Soes.Stack.State`
with the variables of the FoE and EoE modules beside it, which share the mailboxes and the
application with the rest.  `DeviceCall` adds the calls of these modules to those of
`Soes.Stack.Calls`, and what an application may do with the mailboxes on its own: complete a
download it held back, claim a buffer, and post a buffer it has claimed.
-/

namespace Soes

open Program

variable {σ : Type}

/-- The stack's variables and its surroundings. -/
structure Device (σ : Type) where
  world : World σ
  /-- The variables of `esc_foe.c`. -/
  foe : Foe
  /-- The variables of `esc_eoe.c`. -/
  eoe : Eoe

/-- What stays fixed while the stack runs, with what `FOE_config` and `EOE_config` were given. -/
structure DeviceSystem (σ : Type) where
  sys : System σ
  /-- `foe_cfg`. -/
  foe : FoeCfg σ
  /-- `eoe_cfg`. -/
  eoe : EoeCfg σ

/-- The world of a device. -/
@[simps] def worldOf : Component (Device σ) (World σ) where
  get d := d.world
  put w d := { d with world := w }
  get_put _ _ := rfl
  put_get _ := rfl

/-- The FoE side of a device. -/
@[simps] def foeOf : Component (Device σ) (FoeMem σ) where
  get d := { outside := d.world.outside, mb := d.world.mb, foe := d.foe }
  put s d := { d with
    world := { d.world with outside := s.outside, mb := s.mb }
    foe := s.foe }
  get_put _ _ := rfl
  put_get _ := rfl

/-- The EoE side of a device. -/
@[simps] def eoeOf : Component (Device σ) (EoeMem σ) where
  get d := { outside := d.world.outside, mb := d.world.mb, eoe := d.eoe }
  put s d := { d with
    world := { d.world with outside := s.outside, mb := s.mb }
    eoe := s.eoe }
  get_put _ _ := rfl
  put_get _ := rfl

/-- Code of the stack with all its protocols. -/
abbrev OnDevice (σ α : Type) : Type := Program (DeviceSystem σ) Fault (Device σ) α

/-- Run code that does not know of FoE and EoE. -/
abbrev onStack {α : Type} (m : Stack σ α) : OnDevice σ α :=
  Program.within (fun env _ => env.sys) worldOf m

/-- Run FoE code. -/
abbrev onFoe {α : Type} (m : OnFoe σ α) : OnDevice σ α :=
  Program.within (fun env d => ⟨env.sys.opts, env.foe, d.world.al.alStatus⟩) foeOf m

/-- Run EoE code. -/
abbrev onEoe {α : Type} (m : OnEoe σ α) : OnDevice σ α :=
  Program.within (fun env _ => ⟨env.sys.opts, env.eoe⟩) eoeOf m

/-! ## Cycles

Where the entry points of `Soes.Stack.Slave` call the mailbox protocols, those of the whole stack
call all of them, and `ecat_slv_poll` and `ecat_slv_worker` give EoE its turn to send. -/

/-- The mailbox protocols, on what `ESC_mbxprocess` has left for them. -/
def deviceProtocols : OnDevice σ Unit := do
  onStack (onCoe escCoeprocess)
  onFoe escFoeprocess
  onEoe escEoeprocess
  onStack (onMailbox escXoeprocess)

/-- `ecat_slv_poll`. -/
def devicePoll : OnDevice σ Unit := do
  onStack (onBus refreshALevent)
  onStack escState
  onStack escSmActEvent
  let work ← onStack escMbxprocess
  when work deviceProtocols
  onEoe escEoeprocessTx
  onStack callEepHandler

/-- `ecat_slv`. -/
def deviceSlv : OnDevice σ Unit := do
  devicePoll
  onStack (digProcess (digProcessWdFlag ||| digProcessRxpdoFlag ||| digProcessAppHookFlag |||
    digProcessTxpdoFlag))

/-- `ecat_slv_worker`, one round of the mailbox loop; whether to go on. -/
def deviceWorkerMailbox : OnDevice σ (Unit ⊕ Unit) := do
  let work ← onStack escMbxprocess
  if work ∨ (← get).world.mb.txcue ≠ 0 then
    deviceProtocols
    pure (.inl ())
  else
    pure (.inr ())

/-- `ecat_slv_worker`. -/
def deviceWorker (eventMask : Dword) : OnDevice σ Unit := do
  doWhile (do
      onStack escState
      onStack escSmActEvent
      loop (fun _ => deviceWorkerMailbox) ()
      onEoe escEoeprocessTx
      onStack callEepHandler
      onStack (onBus refreshALevent))
    fun d => d.world.alEvent &&& eventMask ≠ 0
  let mask ← onStack (onBus escALeventmaskread)
  onStack (onBus (escALeventmaskwrite (mask ||| eventMask)))

/-- `ecat_slv_run_dc`, everything but process data and the SYNC0 edge. -/
def deviceRunDcState (events : Dword) : OnDevice σ Unit := do
  let stateEvent := events &&& stateEvents ≠ 0
  when (stateEvent ∨ (← get).world.mb.txcue ≠ 0) do
    when stateEvent do
      onStack escState
      onStack escSmActEvent
    let work ← onStack escMbxprocess
    when work deviceProtocols
    when (events &&& escregAleventEep ≠ 0) (onStack callEepHandler)

/-- `ecat_slv_run_dc`, the cycle. -/
def deviceRunDcCycle (rc : ℤ) (events : Dword) (timeoutNs : ℕ) : OnDevice σ Unit := do
  onStack (runDcProcessData events)
  onStack (runDcSync0 events rc timeoutNs)
  deviceRunDcState events

/-- `ecat_slv_run_dc`. -/
def deviceRunDc (timeoutNs : ℕ) : OnDevice σ Unit := do
  match ← onStack (runDcWake timeoutNs) with
  | (_, none) => pure ()
  | (rc, some events) => deviceRunDcCycle rc events timeoutNs

/-! ## Initialisation -/

/-- `ecat_slv_init`; the result is whether the stack was initialised. -/
def deviceInit : OnDevice σ Bool := do
  let sys := (← ask).sys
  onStack (modifyWd fun wd => { wd with watchdog := sys.cfg.watchdogCnt })
  let started ← onStack <| transact fun sys w =>
    let a := sys.hal.init w.outside w.alEvent
    (a.2.2, { w with outside := a.1, alEvent := a.2.1 })
  if started = false then
    pure false
  else if ← onStack (waitDlstatus sys.opts.dlstatusWaitRetries) then
    onFoe foeInit
    onEoe eoeInit
    onStack initStop
    onStack coeInitDefaultValues
    pure true
  else
    pure false

/-- The variables as the C startup code leaves them. -/
def Device.zeroed (outside : σ) (alEvent : Dword) (bytes : ByteStore) : Device σ where
  world := .zeroed outside alEvent bytes
  foe :=
    { file := none, files := fun _ => ⟨0, 0⟩, fbuffer := fun _ => 0, foestate := .ready,
      fbufposition := 0, foepacket := 0, fposition := 0, fprevposition := 0, fend := 0 }
  eoe :=
    { rxebuf := ⟨none, 0⟩, txebuf := ⟨none, 0⟩, rxfragmentno := 0, rxframesize := 0,
      rxframeoffset := 0, rxframeno := 0, txfragmentno := 0, txframesize := 0,
      txframeoffset := 0, frameno := 0,
      nicPort :=
        { macSet := false, ipSet := false, subnetSet := false, defaultGatewaySet := false,
          dnsIpSet := false, dnsNameSet := false, mac := fun _ => 0, ip := 0, subnet := 0,
          defaultGateway := 0, dnsIp := 0, dnsName := fun _ => 0 } }

/-! ## Runs -/

/-- What can happen in a run. -/
inductive DeviceCall (σ : Type) where
  /-- A call of the stack without FoE and EoE, or a move of the surroundings. -/
  | call (c : Call σ)
  /-- `ESC_foeprocess`. -/
  | foeprocess
  /-- `ESC_eoeprocess`. -/
  | eoeprocess
  /-- `ESC_eoeprocess_tx`. -/
  | eoeprocessTx
  /-- `ESC_SDO_complete`. -/
  | sdoComplete (abortcode : Dword)
  /-- `ESC_claimbuffer`, by the application. -/
  | claimbuffer
  /-- The application fills a buffer it has claimed, and asks for it to be posted. -/
  | outreq (n : ℕ) (contents : ByteStore)

/-- The application posts buffer `n`, if it is a claimed one. -/
def applicationOutreq (n : ℕ) (contents : ByteStore) : OnMailbox Unit :=
  modify fun m =>
    if m.control n = .outclaim then
      (m.updateMbx fun mbx => mbx.copy (m.buffer n) m.activembxsize contents 0).setControl n .outreq
    else m

/-- The code of a call. -/
def DeviceCall.run : DeviceCall σ → OnDevice σ Unit
  | .call c => onStack c.run
  | .foeprocess => onFoe escFoeprocess
  | .eoeprocess => onEoe escEoeprocess
  | .eoeprocessTx => onEoe escEoeprocessTx
  | .sdoComplete abortcode => onStack (onCoe (escSdoComplete abortcode))
  | .claimbuffer => onStack (onMailbox ((fun _ => ()) <$> escClaimbuffer))
  | .outreq n contents => onStack (onMailbox (applicationOutreq n contents))

/-- A call that finishes, with a bound on the iterations of its loops. -/
def Device.Step (sys : DeviceSystem σ) (d : Device σ) (l : ℕ × DeviceCall σ) (d' : Device σ) :
    Prop :=
  l.2.run sys l.1 d = .ok () d'

/-- A state that `ecat_slv_init` leaves behind. -/
def Device.Initialised (sys : DeviceSystem σ) (d : Device σ) : Prop :=
  ∃ n outside alEvent bytes, deviceInit sys n (.zeroed outside alEvent bytes) = .ok true d

/-- The states reached by runs whose steps meet a condition. -/
def Device.Reached (sys : DeviceSystem σ) (ok : Device σ → ℕ × DeviceCall σ → Prop)
    (d : Device σ) : Prop :=
  Reachable (Device.Initialised sys) (Device.Step sys) ok d

/-! ## Executable runs -/

/-- Start the stack. -/
def deviceStart (sys : DeviceSystem σ) (n : ℕ) (outside : σ) (alEvent : Dword)
    (bytes : ByteStore) : Option (Device σ) :=
  match deviceInit sys n (.zeroed outside alEvent bytes) with
  | .ok true d => some d
  | _ => none

lemma deviceStart_initialised {sys : DeviceSystem σ} {n : ℕ} {outside : σ} {alEvent : Dword}
    {bytes : ByteStore} {d : Device σ} (h : deviceStart sys n outside alEvent bytes = some d) :
    Device.Initialised sys d := by
  refine ⟨n, outside, alEvent, bytes, ?_⟩
  rw [deviceStart] at h
  split at h
  case h_1 d' hinit =>
    cases h
    exact hinit
  case h_2 => cases h

/-- Make a call, if it finishes. -/
def DeviceCall.exec (sys : DeviceSystem σ) (n : ℕ) (c : DeviceCall σ) (d : Device σ) :
    Option (Device σ) :=
  match c.run sys n d with
  | .ok () d' => some d'
  | _ => none

lemma DeviceCall.exec_step {sys : DeviceSystem σ} {n : ℕ} {c : DeviceCall σ} {d d' : Device σ}
    (h : c.exec sys n d = some d') : Device.Step sys d (n, c) d' := by
  rw [exec] at h
  split at h
  case h_1 d₁ hrun =>
    cases h
    exact hrun
  case h_2 => cases h

/-- The example device with FoE and EoE, without files and with a network port that never has a
frame. -/
def exampleDevice (sys : System ByteStore) : DeviceSystem ByteStore where
  sys := sys
  foe := { bufferSize := 16, files := [] }
  eoe :=
    { getBuffer := none, freeBuffer := none, loadEthSettings := none,
      storeEthernetSettings := none, handleRecvBuffer := fun o _ _ => o,
      fetchSendBuffer := fun o buf => (o, buf, 0), fragmentSentEvent := none }

/-- The calls of a run without FoE and EoE. -/
def stackCalls (ls : List (ℕ × Call ByteStore)) : List (ℕ × DeviceCall ByteStore) :=
  ls.map fun l => (l.1, .call l.2)

end Soes
