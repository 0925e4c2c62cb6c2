import Soes.Stack.State

/-!
# Register access and the SyncManagers

The functions of `esc.c` that only access the ESC: reading and writing registers, enabling and
disabling a SyncManager from the PDI side, and the two checks of the SyncManager configuration
the master has written.  `ESC_SMenable` and `ESC_SMdisable` read their register back until the
chip shows the new value, which is the one place in this file where a loop has no bound of its
own.
-/

namespace Soes

open Program

variable {σ : Type}

/-! ## Registers -/

/-- `ESC_read`. -/
def escRead (address len : ℕ) : OnBus σ ByteStore :=
  transact fun hal b =>
    let a := hal.read b.outside b.alEvent address len
    (a.data, { b with outside := a.outside, alEvent := a.alEvent })

/-- `ESC_write`. -/
def escWrite (address len : ℕ) (data : ByteStore) : OnBus σ Unit :=
  transact fun hal b =>
    let a := hal.write b.outside b.alEvent address len data
    ((), { b with outside := a.outside, alEvent := a.alEvent })

/-- `ESC_ALeventread`. -/
def escALeventread : OnBus σ Dword := do
  let d ← escRead escregAlevent 4
  pure (d.dword 0)

/-- `ESC_ALeventmaskread`. -/
def escALeventmaskread : OnBus σ Dword := do
  let d ← escRead escregAleventmask 4
  pure (d.dword 0)

/-- `ESC_ALeventmaskwrite`. -/
def escALeventmaskwrite (mask : Dword) : OnBus σ Unit :=
  escWrite escregAleventmask 4 (.ofDword mask)

/-- `ESC_WDstatus`. -/
def escWDstatus : OnBus σ Byte := do
  let d ← escRead escregWdstatus 2
  pure ((d.word 0).setWidth 8)

/-- `ESC_SYNCactivation`. -/
def escSYNCactivation : OnBus σ Byte := do
  let d ← escRead escregSyncAct 1
  pure (d 0)

/-- Store the AL event word, `CC_ATOMIC_SET (ESCvar.ALevent, …)`. -/
def setALevent (event : Dword) : OnBus σ Unit :=
  modify fun b => { b with alEvent := event }

/-! ## One SyncManager -/

/-- Change the register copy of SyncManager `n`. -/
def SyncManagers.update (t : SyncManagers) (n : Fin 4) (f : EscSm → EscSm) : SyncManagers :=
  { t with sm := fun k => if k = n then f (t.sm k) else t.sm k }

/-- Change the register copy of SyncManager `n`. -/
def updateSm (n : Fin 4) (f : EscSm → EscSm) : OnBus σ Unit :=
  modify fun b => { b with sm := b.sm.update n f }

/-- `ESC_SMack`, for any of the eight SyncManagers of the chip. -/
def escSMack (n : ℕ) : OnBus σ Unit := do
  let _ ← escRead (escregSm0activate + 8 * n) 1

/-- `ESC_SMstatus`. -/
def escSMstatus (n : Fin 4) : OnBus σ Unit := do
  let d ← escRead (escregSm0status + 8 * n) 1
  updateSm n fun sm => { sm with status := d 0 }

/-- `ESC_SMwritepdi`. -/
def escSMwritepdi (n : Fin 4) : OnBus σ Unit := do
  let b ← get
  escWrite (escregSm0pdi + 8 * n) 1 fun _ => (b.sm.sm n).actPDI

/-- `ESC_SMreadpdi`. -/
def escSMreadpdi (n : Fin 4) : OnBus σ Unit := do
  let d ← escRead (escregSm0pdi + 8 * n) 1
  updateSm n fun sm => { sm with actPDI := d 0 }

/-- Remember the last enable or disable of SyncManager `n`. -/
def notePdi (n : Fin 4) (enabled : Bool) : OnBus σ Unit :=
  modify fun b =>
    { b with sm := { b.sm with pdi := fun k => if k = n then enabled else b.sm.pdi k } }

/-- `ESC_SMenable`. -/
def escSMenable (n : Fin 4) : OnBus σ Unit := do
  updateSm n fun sm => { sm with actPDI := sm.actPDI &&& ~~~escregSmenableBit }
  escSMwritepdi n
  -- read back until enabled
  doWhile (escSMreadpdi n) fun b => (b.sm.sm n).actPDI &&& escregSmenableBit = 1
  notePdi n true

/-- `ESC_SMdisable`. -/
def escSMdisable (n : Fin 4) : OnBus σ Unit := do
  updateSm n fun sm => { sm with actPDI := sm.actPDI ||| escregSmenableBit }
  escSMwritepdi n
  -- read back until disabled
  doWhile (escSMreadpdi n) fun b => (b.sm.sm n).actPDI &&& escregSmenableBit = 0
  notePdi n false

/-- The eight registers of a SyncManager, as `_ESCsm` lays them out. -/
def EscSm.ofBytes (d : ByteStore) : EscSm :=
  { psa := d.word 0, length := d.word 2, command := d 4, status := d 5, actESC := d 6,
    actPDI := d 7 }

/-- Read all registers of SyncManager `n` into `ESCvar.SM[n]`. -/
def readSm (n : Fin 4) : OnBus σ EscSm := do
  let d ← escRead (escregSm0 + 8 * n) 8
  updateSm n fun _ => .ofBytes d
  pure (.ofBytes d)

/-- Set `ESCvar.SMtestresult`. -/
def setSmTestresult (result : Byte) : OnBus σ Unit :=
  modify fun b => { b with sm := { b.sm with smTestresult := result } }

/-! ## Checks of the master's configuration -/

/-- A mailbox SyncManager is not set up as configured. -/
def mbxSmRefused (sm : EscSm) (cfg : SmCfg) : Bool :=
  sm.psa ≠ cfg.sma ∨ sm.length ≠ cfg.sml ∨ sm.command ≠ cfg.smc ∨ sm.ecsm = false

/-- `ESC_checkmbx`. -/
def escCheckmbx (mb0 mb1 : SmCfg) (state : Byte) : OnBus σ Byte := do
  let sm0 ← readSm 0
  let sm1 ← readSm 1
  if mbxSmRefused sm0 mb0 then
    setSmTestresult smresultErrsm0
    escSMdisable 0
    escSMdisable 1
    pure (escInit ||| escError)
  else if mbxSmRefused sm1 mb1 then
    setSmTestresult smresultErrsm1
    escSMdisable 0
    escSMdisable 1
    pure (escInit ||| escError)
  else
    pure state

/-- A process data SyncManager is not set up as configured: start address and control byte, then
length, then activation. -/
def pdSmRefused (sm : EscSm) (sma : Word) (smc act : Byte) (sml : Word) : Bool :=
  sm.psa ≠ sma ∨ sm.command ≠ smc ∨ sm.length ≠ sml ∨
  (act &&& escregSyncActActivated = 0 ∧
    (sm.actESC &&& escregSyncActActivated ≠ 0 ∨ 0 < sml)) ∨
  (act &&& escregSyncActActivated ≠ 0 ∧ sm.actESC &&& escregSyncActActivated = 0 ∧ 0 < sml)

/-- SM2 and its three buffers reach into SM3. -/
def sm2Overlaps (opts : Options) (sm : EscSm) : Bool :=
  opts.sm3Sma.toNat < opts.sm2Sma.toNat + sm.length.toNat * 3

/-- `ESC_checkSM23`, by the process data sizes. -/
def escCheckSM23 (opts : Options) (sm2Sml sm3Sml : Word) (state : Byte) : OnBus σ Byte := do
  let sm2 ← readSm 2
  if pdSmRefused sm2 opts.sm2Sma opts.sm2Smc opts.sm2Act sm2Sml || sm2Overlaps opts sm2 then
    setSmTestresult smresultErrsm2
    pure (escPreop ||| escError)
  else
    let sm3 ← readSm 3
    if pdSmRefused sm3 opts.sm3Sma opts.sm3Smc opts.sm3Act sm3Sml then
      setSmTestresult smresultErrsm3
      pure (escPreop ||| escError)
    else
      pure state

end Soes
