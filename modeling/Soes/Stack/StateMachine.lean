import Soes.Stack.ProcessData

/-!
# The AL state machine

The functions of `esc.c` that move the slave between its AL states: the handler of AL control
requests `ESC_state`, the handler of SyncManager changes `ESC_sm_act_event`, the error exit
`ESC_ALstatusgotoerror`, and `ESC_op_pending_step`, which completes or refuses a request for OP
that is held back under distributed clocks; with them the starting and stopping of mailboxes,
inputs and outputs.

`ESC_state` is cut in parts: the read of the AL control word (`escReadControl`), the decision
whether the request is acted on (`escState` itself), and acting on it (`escStateAct`) by the
switch (`escStateSwitch`, whose result is the source's `an`) and what follows it
(`escStateFinish`).
-/

namespace Soes

open Program

variable {σ : Type}

/-! ## AL status -/

/-- Change the AL part of `ESCvar`. -/
def modifyAl (f : AlState → AlState) : Stack σ Unit := modify fun w => { w with al := f w.al }

/-- Change the mailbox part of `ESCvar`. -/
def modifyMb (f : Mailbox → Mailbox) : Stack σ Unit := modify fun w => { w with mb := f w.mb }

/-- `ESC_ALerror`. -/
def escALerror (errornumber : Word) : Stack σ Unit := do
  modifyAl fun al => { al with alError := errornumber }
  onBus (escWrite escregAlerror 2 (.ofWord errornumber))

/-- `ESC_ALstatus`. -/
def escALstatus (status : Byte) : Stack σ Unit := do
  modifyAl fun al => { al with alStatus := status.setWidth 16 }
  onBus (escWrite escregAlstatus 2 (.ofWord (status.setWidth 16)))

/-- Call a state change hook if there is one; it may change `as` and `an`. -/
def callStateChangeHook (hook : Option (σ → Byte → Byte → σ × Byte × Byte)) (as an : Byte) :
    Stack σ (Byte × Byte) :=
  match hook with
  | none => pure (as, an)
  | some call => transact fun _ w =>
      ((call w.outside as an).2, { w with outside := (call w.outside as an).1 })

/-- `APP_safe_state`. -/
def appSafeState : Stack σ Unit := do
  modifyAl fun al => { al with safeStates := al.safeStates + 1 }
  callHook (← ask).cfg.safeStateOverride

/-- `ESC_stopoutput`. -/
def escStopoutput : Stack σ Unit := do
  modifyAl fun al => { al with appState := al.appState &&& appstateInput }
  onBus (escSMdisable 2)
  appSafeState

/-- `ESC_ALstatusgotoerror`. -/
def escALstatusgotoerror (status : Byte) (errornumber : Word) : Stack σ Unit := do
  if status &&& escOp ≠ 0 then
    -- erroneous input, ignore
    pure ()
  else
    let sys ← ask
    let old := ((← get).al.alStatus.setWidth 8) &&& escregAlErrackmask
    let (as, _) ← callStateChangeHook sys.cfg.preStateChangeHook
      (((status &&& escregAlErrackmask) <<< 4) ||| (old &&& 0x0f)) old
    -- stop outputs if active
    when ((← get).al.appState &&& appstateOutput ≠ 0) escStopoutput
    -- an error ends a pending request for OP
    modifyAl fun al => { al with opPending := false }
    escALerror errornumber
    escALstatus status
    let _ ← callStateChangeHook sys.cfg.postStateChangeHook as status

/-! ## Mailboxes -/

/-- `ESC_startmbx` and `ESC_startmbxboot`, by the mailbox size, the SyncManager settings and the
AL status code of a failure. -/
def escStartmbxWith (size : ℕ) (mb0 mb1 : SmCfg) (errornumber : Word) (state : Byte) :
    Stack σ Byte := do
  modifyMb fun m => { m with activembxsize := size, activemb0 := mb0, activemb1 := mb1 }
  onBus (escSMenable 0)
  onBus (escSMenable 1)
  onBus (escSMstatus 0)
  onBus (escSMstatus 1)
  let state ← onBus (escCheckmbx mb0 mb1 state)
  if state &&& escError ≠ 0 then
    escALerror errornumber
    modifyMb fun m => { m with mbxRun := false }
  else
    -- sync repeat request toggle state
    ackRepeat
    modifyMb fun m => { m with mbxRun := true }
  pure state

/-- `ESC_startmbx`. -/
def escStartmbx (state : Byte) : Stack σ Byte := do
  let o := (← ask).opts
  escStartmbxWith o.mbxSize o.mb0 o.mb1 alerrInvalidmbxconfig state

/-- `ESC_startmbxboot`. -/
def escStartmbxboot (state : Byte) : Stack σ Byte := do
  let o := (← ask).opts
  escStartmbxWith o.mbxSizeBoot o.mbboot0 o.mbboot1 alerrInvalidbootmbxconfig state

/-- The mailbox variables `ESC_stopmbx` clears, and `ESC_SDO_cancel`. -/
def Mailbox.reset (m : Mailbox) (buffers : ℕ) : Mailbox :=
  { m with
    control := fun n => if n < buffers then .idle else m.control n
    mbxoutpost := 0
    mbxbackup := 0
    xoe := 0
    mbxfree := true
    toggle := false
    mbxincnt := 0
    segmented := 0
    frags := 0
    fragsleft := 0
    txcue := 0
    index := 0
    subindex := 0
    flags := 0
    -- the master that asked for a held-back reply is gone
    sdoHeld := { m.sdoHeld with active := false } }

/-- `ESC_stopmbx`. -/
def escStopmbx : Stack σ Unit := do
  let o := (← ask).opts
  modifyMb fun m => { m with mbxRun := false }
  onBus (escSMdisable 0)
  onBus (escSMdisable 1)
  modifyMb fun m => m.reset o.mbxBuffers

/-! ## Inputs and outputs -/

/-- `ESC_checkDC`. -/
def escCheckDC : Stack σ Word := do
  let act ← onBus escSYNCactivation
  if act &&& (escregSyncActActivated ||| escregSyncAutoActivated) ≠ 0 then
    match (← ask).cfg.escCheckDcHandler with
    | none => pure alerrDcinvalidsynccfg
    | some check => transact fun _ w =>
        let a := check w.outside w.al.dcsync w.al.synccounterlimit
        (a.code, { w with
          outside := a.outside
          al := { w.al with dcsync := a.dcsync, synccounterlimit := a.synccounterlimit } })
  else
    modifyAl fun al => { al with
      dcsync := 0
      opPending := false
      synccounter := 0
      smeventmissed := 0
      syncerror := false
      smEventSeen := false }
    pure 0

/-- Call an interrupt mask hook if there is one. -/
def callMaskHook (hook : Option (Dword → σ → Dword → σ × Dword)) (mask : Dword) :
    Stack σ Unit :=
  match hook with
  | none => pure ()
  | some call => modify fun w =>
      let a := call mask w.outside w.alEvent
      { w with outside := a.1, alEvent := a.2 }

/-- The AL status code for a failed check of SM2 and SM3. -/
def smErrorCode (result : Byte) : Word :=
  if result &&& smresultErrsm3 ≠ 0 then alerrInvalidinputsm else alerrInvalidoutputsm

/-- `ESC_startinput`, the part an interrupt driven slave runs when SM2 and SM3 are as they should
be. -/
def escStartinputInterrupt (state : Byte) : Stack σ Byte := do
  let result ← escCheckDC
  if result ≠ 0 then
    escALerror result
    onBus (escSMdisable 2)
    onBus (escSMdisable 3)
    modifyAl fun al => { al with appState := appstateIdle }
    pure (escPreop ||| escError)
  else
    let al := (← get).al
    let mask := if al.escSm2Sml = 0 then escregAleventSm3 else escregAleventSm2
    callMaskHook (← ask).cfg.escHwInterruptEnable
      (if al.dcsync ≠ 0 then mask ||| escregAleventDcSync0 else mask)
    pure state

/-- `ESC_startinput`. -/
def escStartinput (state : Byte) : Stack σ Byte := do
  let sys ← ask
  let al := (← get).al
  let state ← onBus (escCheckSM23 sys.opts al.escSm2Sml al.escSm3Sml state)
  if state ≠ escPreop ||| escError then
    when (al.escSm3Sml ≠ 0) (onBus (escSMenable 3))
    -- go to state input regardless of any inputs present
    modifyAl fun al => { al with appState := appstateInput }
    if sys.cfg.useInterrupt then escStartinputInterrupt state else pure state
  else
    onBus (escSMdisable 2)
    onBus (escSMdisable 3)
    escALerror (smErrorCode (← get).sm.smTestresult)
    pure state

/-- `ESC_stopinput`. -/
def escStopinput : Stack σ Unit := do
  modifyAl fun al => { al with appState := appstateIdle }
  onBus (escSMdisable 3)
  onBus (escSMdisable 2)
  let sys ← ask
  when sys.cfg.useInterrupt <| callMaskHook sys.cfg.escHwInterruptDisable
    (escregAleventDcSync0 ||| escregAleventSm2 ||| escregAleventSm3)

/-- `ESC_startoutput`. -/
def escStartoutput (state : Byte) : Stack σ Byte := do
  when ((← get).al.escSm2Sml ≠ 0) (onBus (escSMenable 2))
  -- go to state output regardless of any outputs present
  modifyAl fun al => { al with appState := al.appState ||| appstateOutput }
  pure state

/-! ## SyncManager changes -/

/-- The acknowledged AL status: the error bit is dropped when the master confirms it or asks for
INIT. -/
def ackedStatus (ac status : Byte) : Byte :=
  if ac &&& escError ≠ 0 ∨ ac = escInit then status &&& escregAlErrackmask else status

/-- The AL status is in error and stays so: the master has not confirmed it.  `ac` is the AL
control request, of which the confirmation is dropped once it is honoured. -/
def errorStays (ac status : Byte) : Prop :=
  ackedStatus ac status &&& escError ≠ 0 ∧ ackedStatus ac ac &&& escError = 0

instance (ac status : Byte) : Decidable (errorStays ac status) := by
  unfold errorStays; infer_instance

/-- `ESC_sm_act_event`, once the check of the mailbox SyncManagers (`ax`) and of the process data
SyncManagers (`ax23`) is done. -/
def escSmStepDown (ac as ax ax23 : Byte) : Stack σ Unit := do
  if errorStays ac as then
    -- if in error then stay there
    pure ()
  else if ax = escInit ||| escError then
    when ((← get).al.appState ≠ 0) do
      escStopoutput
      escStopinput
    escStopmbx
    escALerror alerrInvalidmbxconfig
    modifyMb fun m => { m with mbxRun := false }
    escALstatus ax
  else
    when ((← get).al.appState ≠ 0 ∧ ax23 = escPreop ||| escError) do
      escStopoutput
      escStopinput
      escALerror (smErrorCode (← get).sm.smTestresult)
      escALstatus ax23

/-- `ESC_sm_act_event`. -/
def escSmActEvent : Stack σ Unit := do
  let w ← get
  when (w.alEvent &&& escregAleventSmchange ≠ 0) do
    let ac := w.al.alControl.setWidth 8 &&& escregAlStatemask
    let as := w.al.alStatus.setWidth 8 &&& escregAlStatemask
    if as &&& escregAlAllbutinitmask ≠ 0 ∧ as ≠ escBoot ∧ w.mb.mbxRun then
      -- reading the activation registers acknowledges the event
      let ax ← onBus (escCheckmbx w.mb.activemb0 w.mb.activemb1 as)
      let ax23 ← onBus (escCheckSM23 (← ask).opts w.al.escSm2Sml w.al.escSm3Sml as)
      escSmStepDown ac as ax ax23
    else
      onBus do
        escSMack 0
        escSMack 1
        escSMack 2
        escSMack 3
        escSMack 4
        escSMack 5
        escSMack 6
        escSMack 7

/-! ## AL control requests -/

/-- `ESC_address`. -/
def escAddress : Stack σ Unit := do
  let d ← onBus (escRead escregAddress 2)
  modifyAl fun al => { al with address := d.word 0 }

/-- `ESC_check_id_request`. -/
def escCheckIdRequest (alControl : Word) (an : Byte) : OnBus σ Bool := do
  let state := alControl.setWidth 8 &&& escregAlErrackmask
  if alControl &&& escregAlIdRequest ≠ 0 ∧ state ≠ escBoot ∧
      (state < escSafeop ∨ an = escSafeop ∨ an = escOp) then
    let d ← escRead escregAlerror 2
    pure (decide (d.word 0 = alerrNone))
  else
    pure false

/-- `ESC_load_device_id`, the identification: the application's, or the station alias. -/
def deviceId : Stack σ Word := do
  match (← ask).cfg.getDeviceId with
  | some getDeviceId => transact fun _ w =>
      let a := getDeviceId w.outside
      (a.2.getD 0, { w with outside := a.1 })
  | none => (fun d : ByteStore => d.word 0) <$> onBus (escRead escregConfStationAlias 2)

/-- `ESC_load_device_id`. -/
def escLoadDeviceId : Stack σ Byte := do
  let deviceId ← deviceId
  if deviceId ≠ 0 then
    escALerror deviceId
    pure (escregAlIdRequest.setWidth 8)
  else
    pure 0

/-- Size and mappings of the process data of SM2, for `PREOP_TO_SAFEOP`. -/
def mapSm2 : Stack σ Unit := do
  let o := (← ask).opts
  let al := (← get).al
  let pdo ← onVariables (sizeOfPDO rxPdoObjidx al.sm2mappings al.smMap2 o.maxMappingsSm2)
  modifyAl fun al =>
    { al with escSm2Sml := pdo.size, sm2mappings := pdo.nmappings, smMap2 := pdo.mappings }

/-- Size and mappings of the process data of SM3, for `PREOP_TO_SAFEOP`. -/
def mapSm3 : Stack σ Unit := do
  let o := (← ask).opts
  let al := (← get).al
  let pdo ← onVariables (sizeOfPDO txPdoObjidx al.sm3mappings al.smMap3 o.maxMappingsSm3)
  modifyAl fun al =>
    { al with escSm3Sml := pdo.size, sm3mappings := pdo.nmappings, smMap3 := pdo.mappings }

/-- `ESC_state`, cases `PREOP_TO_SAFEOP` and `SAFEOP_TO_SAFEOP`. -/
def enterSafeop (ac : Byte) : Stack σ Byte := do
  mapSm2
  if (← get).al.sm2mappings < 0 then
    escALerror alerrInvalidoutputsm
    pure (escPreop ||| escError)
  else
    mapSm3
    if (← get).al.sm3mappings < 0 then
      escALerror alerrInvalidinputsm
      pure (escPreop ||| escError)
    else
      let an ← escStartinput ac
      when (an = ac) (onBus (escSMenable 2))
      pure an

/-- `ESC_state`, case `SAFEOP_TO_OP`. -/
def enterOp (ac : Byte) : Stack σ Byte := do
  if (← get).al.dcsync ≠ 0 then
    -- with DC the request is held until the slave is synchronised
    modifyAl fun al => { al with
      opPending := true
      opSeenSync0 := false
      opSeenSm := false
      opPendingNs := 0
      opValidNs := 0 }
    pure escSafeop
  else
    escStartoutput ac

/-- Outputs are stopped; without outputs the error is flagged using SM3. -/
def stopoutputFlagged : Stack σ Unit := do
  escStopoutput
  let al := (← get).al
  when (al.escSm2Sml = 0 ∧ al.escSm3Sml ≠ 0) (onBus (escSMdisable 3))

/-- The switch of `ESC_state`, by request and state (`as`), the acknowledged AL status (`an`) and
the requested state (`ac`).  The result is the new AL status. -/
def escStateSwitch (as an ac : Byte) : Stack σ Byte := do
  if as = initToInit ∨ as = preopToPreop ∨ as = opToOp then
    pure an
  else if as = initToPreop then
    escAddress
    escStartmbx ac
  else if as = initToBoot ∨ as = bootToBoot then
    escAddress
    escStartmbxboot ac
  else if as = initToSafeop ∨ as = initToOp then
    escALerror alerrInvalidstatechange
    pure (escInit ||| escError)
  else if as = opToInit then
    escStopoutput
    escStopinput
    escStopmbx
    pure escInit
  else if as = safeopToInit then
    escStopinput
    escStopmbx
    pure escInit
  else if as = preopToInit ∨ as = bootToInit then
    escStopmbx
    pure escInit
  else if as = preopToBoot ∨ as = bootToPreop ∨ as = bootToSafeop ∨ as = bootToOp then
    escALerror alerrInvalidstatechange
    pure (escPreop ||| escError)
  else if as = preopToSafeop ∨ as = safeopToSafeop then
    enterSafeop ac
  else if as = preopToOp then
    escALerror alerrInvalidstatechange
    pure (escPreop ||| escError)
  else if as = opToPreop then
    escStopoutput
    escStopinput
    pure escPreop
  else if as = safeopToPreop then
    escStopinput
    pure escPreop
  else if as = safeopToBoot then
    escALerror alerrInvalidstatechange
    pure (escSafeop ||| escError)
  else if as = safeopToOp then
    enterOp ac
  else if as = opToBoot then
    escALerror alerrInvalidstatechange
    stopoutputFlagged
    pure (escSafeop ||| escError)
  else if as = opToSafeop then
    escStopoutput
    pure escSafeop
  else
    when (an = escOp) stopoutputFlagged
    when (as = escSafeop) escStopinput
    escALerror alerrUnknownstate
    pure ((if an = escOp then escSafeop else an) ||| escError)

/-- `ESC_state` after the switch. -/
def escStateFinish (as an : Byte) : Stack σ Unit := do
  let (_, an) ← callStateChangeHook (← ask).cfg.postStateChangeHook as an
  when (an &&& escError = 0 ∧ (← get).al.alError ≠ 0) (escALerror alerrNone)
  let id ← onBus (escCheckIdRequest (← get).al.alControl an)
  let flag ← (if id then escLoadDeviceId else pure 0)
  escALstatus (an ||| flag)

/-- `ESC_state`, once a request is to be acted on. -/
def escStateAct (as an ac : Byte) : Stack σ Unit := do
  modifyAl fun al => { al with opPending := false }
  let (as, an) ← callStateChangeHook (← ask).cfg.preStateChangeHook as an
  let an ← escStateSwitch as an ac
  escStateFinish as an

/-- `ESC_state`, the read of the AL control word. -/
def escReadControl : Stack σ Unit := do
  let d ← onBus (escRead escregAlcontrol 2)
  modifyAl fun al => { al with alControl := d.word 0 }

/-- `ESC_state`. -/
def escState : Stack σ Unit := do
  when ((← get).alEvent &&& escregAleventControl ≠ 0) do
    escReadControl
    let w ← get
    let ac := w.al.alControl.setWidth 8 &&& escregAlStatemask
    let as := w.al.alStatus.setWidth 8 &&& escregAlStatemask
    -- error state not acked, leave original
    when (¬ errorStays ac as) do
      let an := ackedStatus ac as
      let ac := ackedStatus ac ac
      -- high bits request, low bits state
      let as := (ac <<< 4) ||| (as &&& 0x0f)
      -- the same request again leaves OP waiting; any other request replaces it
      when (¬ (w.al.opPending ∧ as = safeopToOp)) (escStateAct as an ac)

/-! ## A pending request for OP -/

/-- The AL status code a pending request is refused with. -/
def pendingError (al : AlState) : Word :=
  if ¬ al.opSeenSync0 then alerrNosyncerror
  else if ¬ al.opSeenSm ∧ al.escSm2Sml ≠ 0 then alerrWatchdog
  else alerrSyncerror

/-- The time and the events of one step, counted. -/
def AlState.countPending (al : AlState) (sync0 smEvent : Bool) (elapsedNs : ℕ) : AlState :=
  let good := sync0 ∧
    (if al.synccounterlimit ≠ 0 then al.synccounter < (al.synccounterlimit.toNat : ℤ)
     else smEvent ∨ al.escSm2Sml = 0)
  { al with
    opPendingNs := (al.opPendingNs + elapsedNs) % 2 ^ 64
    opSeenSync0 := al.opSeenSync0 || sync0
    opSeenSm := al.opSeenSm || smEvent
    opValidNs := if good then (al.opValidNs + elapsedNs) % 2 ^ 64 else 0 }

/-- `ESC_op_pending_step`. -/
def escOpPendingStep (sync0 smEvent : Bool) (elapsedNs : ℕ) : Stack σ Unit := do
  when (← get).al.opPending do
    modifyAl fun al => al.countPending sync0 smEvent elapsedNs
    let al := (← get).al
    if escOpSyncValidNs ≤ al.opValidNs ∧ (al.opSeenSm ∨ al.escSm2Sml = 0) then
      modifyAl fun al => { al with opPending := false }
      let _ ← escStartoutput escOp
      let (_, an) ← callStateChangeHook (← ask).cfg.postStateChangeHook safeopToOp escOp
      when (an &&& escError = 0 ∧ (← get).al.alError ≠ 0) (escALerror alerrNone)
      escALstatus an
    else
      when (escOpPendingTimeoutNs ≤ al.opPendingNs) do
        modifyAl fun al => { al with opPending := false }
        escALerror (pendingError al)
        escALstatus (escSafeop ||| escError)

end Soes
