import Soes.Stack.SdoInfo
import Soes.Stack.StateMachine

/-!
# The slave application interface

`ecat_slv.c`: the watchdogs, the sync error counter, `DIG_process`, the three entry points an
application calls in its cycle (`ecat_slv`, `ecat_slv_poll` with `DIG_process`, and
`ecat_slv_run_dc`), the interrupt driven `ecat_slv_worker`, and `ecat_slv_init`.  The stack is
modelled as compiled with `USE_FOE` and `USE_EOE` off.
-/

namespace Soes

open Program

variable {σ : Type}

/-! ## Process data access -/

/-- Change the private variables of `ecat_slv.c`. -/
def modifyWd (f : Watchdog → Watchdog) : Stack σ Unit := modify fun w => { w with wd := f w.wd }

/-- `ESC_read` of SM2 into `rxpdo`. -/
def readRxpdo : Stack σ Unit := do
  let d ← onBus (escRead (← ask).opts.sm2Sma.toNat (← get).al.escSm2Sml.toNat)
  modify fun w =>
    { w with wd := { w.wd with rxpdo := w.wd.rxpdo.copy 0 w.al.escSm2Sml.toNat d 0 } }

/-- `rxpdo_read_sm2`. -/
def rxpdoReadSm2 : Stack σ Unit := do
  let sys ← ask
  match sys.cfg.rxpdoOverride with
  | some call => callApp call
  | none => do
      readRxpdo
      when (0 < sys.opts.maxMappingsSm2) do
        let w ← get
        let bytes ← lift (coePdoUnpack w.wd.rxpdo (w.al.smMap2.take w.al.sm2mappings.toNat)
          w.mem.bytes)
        modify fun w => { w with mem := { w.mem with bytes := bytes } }

/-- `txpdo_write_sm3`. -/
def txpdoWriteSm3 : Stack σ Unit := do
  let sys ← ask
  match sys.cfg.txpdoOverride with
  | some call => callApp call
  | none => do
      when (0 < sys.opts.maxMappingsSm3) do
        let w ← get
        let txpdo ← lift (coePdoPack w.mem.bytes (w.al.smMap3.take w.al.sm3mappings.toNat)
          w.wd.txpdo)
        modifyWd fun wd => { wd with txpdo := txpdo }
      let w ← get
      onBus (escWrite sys.opts.sm3Sma.toNat w.al.escSm3Sml.toNat w.wd.txpdo)

/-! ## Sync error counting -/

/-- The sync error counter after one SYNC0 period. -/
def countSync (counter : ℤ) (smEventSeen : Bool) : ℤ :=
  if smEventSeen then (if 0 < counter then counter - 1 else counter) else counter + 3

/-- `ecat_slv_sync0_account`. -/
def ecatSlvSync0Account (smEventSeen : Bool) : Stack σ Unit := do
  let counter := countSync (← get).al.synccounter smEventSeen
  modifyAl fun al => { al with
    smeventmissed :=
      if smEventSeen = false ∧ al.smeventmissed < 0xFFFF then al.smeventmissed + 1
      else al.smeventmissed
    -- the counter is an int16_t
    synccounter := counter.bmod (2 ^ 16) }
  let al := (← get).al
  when (al.synccounterlimit ≠ 0 ∧ (al.synccounterlimit.toNat : ℤ) < counter) do
    modifyAl fun al => { al with syncerror := true, synccounter := 0 }
    escALstatusgotoerror (escSafeop ||| escError) alerrSyncerror

/-! ## Watchdogs -/

/-- Outputs are active and there is process data to expect. -/
def World.outputsGuarded (w : World σ) : Bool :=
  w.al.appState &&& appstateOutput ≠ 0 ∧ w.al.escSm2Sml ≠ 0

/-- `hw_watchdog_check`, the configuration the master has written, read once per entry into an
output state. -/
def hwWatchdogConfigure : Stack σ Unit := do
  when ((← get).wd.hwWdState = .unchecked) do
    let divider ← onBus (escRead escregWddivider 2)
    let pdtime ← onBus (escRead escregWdtimepdata 2)
    modifyWd fun wd => { wd with
      hwWdState := if pdtime.word 0 = 0 ∨ divider.word 0 = 0 then .disabled else .waiting }

/-- `hw_watchdog_check`; the result is whether the hardware watchdog is in charge. -/
def hwWatchdogCheck : Stack σ Bool := do
  if (← get).outputsGuarded = false then
    modifyWd fun wd => { wd with hwWdState := .unchecked, hwWdQuiet := 0 }
    pure true
  else
    hwWatchdogConfigure
    let w ← get
    if w.wd.hwWdState = .disabled then
      pure false
    else if w.alEvent &&& escregAleventSm2 ≠ 0 then
      -- process data arrived, so the watchdog has just been fed
      modifyWd fun wd => { wd with
        hwWdState := if wd.hwWdState = .waiting then .running else wd.hwWdState
        hwWdQuiet := 0 }
      pure true
    else if w.wd.hwWdQuiet < hwWdQuietCycles then
      modifyWd fun wd => { wd with hwWdQuiet := wd.hwWdQuiet + 1 }
      pure true
    else
      let status ← onBus escWDstatus
      when (status &&& escregWdstatusOk = 0 ∧ (← get).wd.hwWdState = .running) <|
        escALstatusgotoerror (escSafeop ||| escError) alerrWatchdog
      pure true

/-- The software watchdog of `DIG_process`. -/
def softwareWatchdog : Stack σ Unit := do
  let cfg := (← ask).cfg
  modifyWd fun wd => { wd with
    watchdog := if 0 < wd.watchdog then wd.watchdog - 1 else wd.watchdog }
  let w ← get
  if w.wd.watchdog ≤ 0 ∧ w.outputsGuarded then
    escALstatusgotoerror (escSafeop ||| escError) alerrWatchdog
  else
    when (w.al.appState &&& appstateOutput = 0) <|
      modifyWd fun wd => { wd with watchdog := cfg.watchdogCnt }

/-! ## DIG_process -/

/-- `DIG_process`, watchdog. -/
def digProcessWd : Stack σ Unit := do
  let inCharge ← (if (← ask).cfg.useHwWatchdog then hwWatchdogCheck else pure false)
  when (inCharge = false) softwareWatchdog

/-- `DIG_process`, outputs. -/
def digProcessRxpdo : Stack σ Unit := do
  let cfg := (← ask).cfg
  let w ← get
  when (w.alEvent &&& escregAleventSm2 ≠ 0) do
    if w.al.appState &&& appstateOutput ≠ 0 then
      rxpdoReadSm2
      modifyWd fun wd => { wd with watchdog := cfg.watchdogCnt }
      callApp cfg.cbApplyRxpdo
    else
      readRxpdo

/-- `DIG_process`, inputs. -/
def digProcessTxpdo : Stack σ Unit := do
  when ((← get).al.appState ≠ 0) do
    callApp (← ask).cfg.cbUpdateTxpdo
    txpdoWriteSm3

/-- `DIG_process`. -/
def digProcess (flags : Byte) : Stack σ Unit := do
  when (flags &&& digProcessWdFlag ≠ 0) digProcessWd
  when (flags &&& digProcessRxpdoFlag ≠ 0) digProcessRxpdo
  when (flags &&& digProcessAppHookFlag ≠ 0) (callHook (← ask).cfg.applicationHook)
  when (flags &&& digProcessTxpdoFlag ≠ 0) digProcessTxpdo

/-! ## Cycles -/

/-- Refresh `ESCvar.ALevent` from the chip. -/
def refreshALevent : OnBus σ Unit := do
  let event ← escALeventread
  setALevent event

/-- The handler of an emulated EEPROM, if there is one. -/
def callEepHandler : Stack σ Unit := do
  match (← ask).cfg.escHwEepHandler with
  | none => pure ()
  | some call => modify fun w =>
      let a := call w.outside w.alEvent
      { w with outside := a.1, alEvent := a.2 }

/-- The mailbox protocols, on what `ESC_mbxprocess` has left for them. -/
def mailboxProtocols : Stack σ Unit := do
  onCoe escCoeprocess
  onMailbox escXoeprocess

/-- `ecat_slv_poll`. -/
def ecatSlvPoll : Stack σ Unit := do
  onBus refreshALevent
  escState
  escSmActEvent
  let work ← escMbxprocess
  when work mailboxProtocols
  callEepHandler

/-- `ecat_slv`. -/
def ecatSlv : Stack σ Unit := do
  ecatSlvPoll
  digProcess (digProcessWdFlag ||| digProcessRxpdoFlag ||| digProcessAppHookFlag |||
    digProcessTxpdoFlag)

/-- `ecat_slv_worker`, one round of the mailbox loop; whether to go on. -/
def workerMailbox : Stack σ (Unit ⊕ Unit) := do
  let work ← escMbxprocess
  if work ∨ (← get).mb.txcue ≠ 0 then
    mailboxProtocols
    pure (.inl ())
  else
    pure (.inr ())

/-- `ecat_slv_worker`. -/
def ecatSlvWorker (eventMask : Dword) : Stack σ Unit := do
  doWhile (do
      escState
      escSmActEvent
      loop (fun _ => workerMailbox) ()
      callEepHandler
      onBus refreshALevent)
    fun w => w.alEvent &&& eventMask ≠ 0
  let mask ← onBus escALeventmaskread
  onBus (escALeventmaskwrite (mask ||| eventMask))

/-- `esc_hw_wait`. -/
def hwWait (timeoutNs : ℕ) : Stack σ ℤ := do
  match (← ask).cfg.escHwWait with
  | none => pure (-1)
  | some call => transact fun _ w =>
      let a := call w.outside w.alEvent timeoutNs
      (a.2.2, { w with outside := a.1, alEvent := a.2.1 })

/-- The events `ecat_slv_run_dc` runs the state machine for. -/
abbrev stateEvents : Dword :=
  escregAleventControl ||| escregAleventSmchange ||| escregAleventSm0 ||| escregAleventSm1 |||
    escregAleventEep

/-- `ecat_slv_run_dc`, process data. -/
def runDcProcessData (events : Dword) : Stack σ Unit := do
  when (events &&& (escregAleventSm2 ||| escregAleventSm3) ≠ 0) do
    if (← get).al.dcsync = 0 then
      digProcess (digProcessWdFlag ||| digProcessRxpdoFlag ||| digProcessAppHookFlag |||
        digProcessTxpdoFlag)
    else
      modifyAl fun al => { al with smEventSeen := true }
      digProcess (digProcessWdFlag ||| digProcessRxpdoFlag)

/-- `ecat_slv_run_dc`, the SYNC0 edge: on the event, and under DC on every successful wait. -/
def runDcSync0 (events : Dword) (rc : ℤ) (timeoutNs : ℕ) : Stack σ Unit := do
  when (events &&& escregAleventDcSync0 ≠ 0 ∨ ((← get).al.dcsync ≠ 0 ∧ rc = 1)) do
    ecatSlvSync0Account (← get).al.smEventSeen
    escOpPendingStep true (← get).al.smEventSeen (timeoutNs / 2)
    modifyAl fun al => { al with smEventSeen := false }
    digProcess (digProcessAppHookFlag ||| digProcessTxpdoFlag)
    -- reading the SYNC0 status register acknowledges the latch
    let _ ← onBus (escRead escregSync0Status 1)

/-- `ecat_slv_run_dc`, everything else: one step of the state machine and of the mailbox. -/
def runDcState (events : Dword) : Stack σ Unit := do
  let stateEvent := events &&& stateEvents ≠ 0
  when (stateEvent ∨ (← get).mb.txcue ≠ 0) do
    when stateEvent do
      escState
      escSmActEvent
    let work ← escMbxprocess
    when work mailboxProtocols
    when (events &&& escregAleventEep ≠ 0) callEepHandler

/-- `ecat_slv_run_dc`, a wait under DC that timed out with outputs active; whether it did. -/
def runDcTimeout (rc : ℤ) : Stack σ Bool := do
  let al := (← get).al
  if rc = 0 ∧ al.dcsync ≠ 0 ∧ al.appState &&& appstateOutput ≠ 0 then
    modifyAl fun al => { al with syncerror := true }
    escALstatusgotoerror (escSafeop ||| escError) alerrFatalsyncerror
    pure true
  else
    pure false

/-- `ecat_slv_run_dc`, up to where it captures the AL event word, which nothing else but the wait
decides the cycle by: the result of the wait, and the events, `none` if there is no cycle. -/
def runDcWake (timeoutNs : ℕ) : Stack σ (ℤ × Option Dword) := do
  let rc ← hwWait timeoutNs
  let timedOut ← runDcTimeout rc
  if timedOut = true ∨ rc < 0 then
    pure (rc, none)
  else
    -- a wait with no SYNC0: a pending request for OP starts its count of good sync again
    when (rc = 0) (escOpPendingStep false false timeoutNs)
    onBus refreshALevent
    pure (rc, some (← get).alEvent)

/-- `ecat_slv_run_dc`, the cycle. -/
def runDcCycle (rc : ℤ) (events : Dword) (timeoutNs : ℕ) : Stack σ Unit := do
  runDcProcessData events
  runDcSync0 events rc timeoutNs
  runDcState events

/-- `ecat_slv_run_dc`. -/
def ecatSlvRunDc (timeoutNs : ℕ) : Stack σ Unit := do
  match ← runDcWake timeoutNs with
  | (_, none) => pure ()
  | (rc, some events) => runDcCycle rc events timeoutNs

/-! ## Initialisation -/

/-- `ecat_slv_init`, the wait for the ESC to start up; whether it did within the retries. -/
def waitDlstatus : ℕ → Stack σ Bool
  | 0 => do pure (decide ((← get).al.dlStatus &&& 0x0001 ≠ 0))
  | retries + 1 => do
      if (← get).al.dlStatus &&& 0x0001 ≠ 0 then
        pure true
      else
        let d ← onBus (escRead escregDlstatus 2)
        modifyAl fun al => { al with dlStatus := d.word 0 }
        waitDlstatus retries

/-- `ecat_slv_init`, the stop of everything, once the ESC has started up. -/
def initStop : Stack σ Unit := do
  escALstatus escInit
  escALerror alerrNone
  escStopmbx
  escStopinput
  escStopoutput

/-- `ecat_slv_init`; the result is whether the stack was initialised. -/
def ecatSlvInit : Stack σ Bool := do
  let sys ← ask
  modifyWd fun wd => { wd with watchdog := sys.cfg.watchdogCnt }
  let started ← transact fun sys w =>
    let a := sys.hal.init w.outside w.alEvent
    (a.2.2, { w with outside := a.1, alEvent := a.2.1 })
  if started = false then
    pure false
  else if ← waitDlstatus sys.opts.dlstatusWaitRetries then
    initStop
    coeInitDefaultValues
    pure true
  else
    pure false

end Soes
