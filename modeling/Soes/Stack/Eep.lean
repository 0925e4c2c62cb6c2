import Soes.Stack.SyncManagers

/-!
# EEPROM emulation

`esc_eep.c`: a chip without an EEPROM asks the stack for what one would do.  The master's command
stands in the control and status register, with the bit `busy` and the address; `EEP_process`
serves commands until it finds the bit clear.  `EEP_read` and `EEP_write`, which the port brings,
are arbitrary, and so is a reload function set by the application.

The bits of `eep_stat_t` are those of its bit fields, the first one lowest.
-/

namespace Soes

open Program

variable {σ : Type}

/-! ## Registers and commands -/

abbrev escregEecontstat : ℕ := 0x0502
abbrev escregEedata : ℕ := 0x0508

abbrev eepCmdIdle : Word := 0x0
abbrev eepCmdRead : Word := 0x1
abbrev eepCmdWrite : Word := 0x2
abbrev eepCmdReload : Word := 0x4

/-- `EEP_WRITE_SIZE`. -/
abbrev eepWriteSize : ℕ := 2
/-- `EEP_CONFIG_ALIAS_WORD_OFFSET`. -/
abbrev eepConfigAliasWordOffset : Dword := 4

/-- `eep_stat_t`. -/
structure EepStat where
  reg : Word
  addr : Dword
  deriving DecidableEq, Repr

namespace EepStat

variable (stat : EepStat)

/-- `contstat.bits.busy`. -/
def busy : Bool := stat.reg.getLsbD 15

/-- `contstat.bits.cmdReg`. -/
def cmdReg : Word := (stat.reg >>> 8) &&& 0x7

/-- `csumErr`, `eeLoading`, `ackErr` and `wrErr` are cleared. -/
def clearErrors : EepStat := { stat with reg := stat.reg &&& ~~~0x7800 }

/-- `contstat.bits.ackErr` is set. -/
def ackErr : EepStat := { stat with reg := stat.reg ||| 0x2000 }

end EepStat

/-! ## What it is given, and what changes -/

/-- What `EEP_read` and `EEP_write` leave behind. -/
structure EepAnswer (σ : Type) where
  result : Byte
  data : ByteStore
  outside : σ

/-- What a reload function leaves behind. -/
structure EepReload (σ : Type) where
  stat : EepStat
  /-- `ESCvar.ALevent`, which changes when the function accesses the ESC. -/
  alEvent : Dword
  outside : σ

/-- What the emulation is given: the port, with its EEPROM functions, by address and size. -/
structure EepEnv (σ : Type) where
  hal : Hal σ
  eepRead : σ → Dword → ℕ → EepAnswer σ
  eepWrite : σ → Dword → ByteStore → ℕ → EepAnswer σ

/-- What the emulation works on. -/
structure EepMem (σ : Type) where
  bus : Bus σ
  eepBuf : ByteStore
  eepReadSize : ℕ
  eepReloadPtr : Option (σ → Dword → EepStat → EepReload σ)

/-- The ESC side of the emulation. -/
@[simps] def eepBusOf : Component (EepMem σ) (Bus σ) where
  get s := s.bus
  put b s := { s with bus := b }
  get_put _ _ := rfl
  put_get _ := rfl

/-- Code of the emulation. -/
abbrev OnEep (σ α : Type) : Type := Program (EepEnv σ) Fault (EepMem σ) α

/-- Run code that accesses the ESC as code of the emulation. -/
abbrev onEepBus {α : Type} (m : OnBus σ α) : OnEep σ α :=
  Program.within (fun env _ => env.hal) eepBusOf m

/-! ## Commands -/

/-- `EEP_read` into `eep_buf`. -/
def eepReadBuf (addr : Dword) (size : ℕ) : OnEep σ Byte :=
  transact fun env s =>
    let a := env.eepRead s.bus.outside addr size
    (a.result, { s with
      bus := { s.bus with outside := a.outside }
      eepBuf := s.eepBuf.copy 0 size a.data 0 })

/-- `EEP_write` from `eep_buf`. -/
def eepWriteBuf (addr : Dword) (size : ℕ) : OnEep σ Byte :=
  transact fun env s =>
    let a := env.eepWrite s.bus.outside addr s.eepBuf size
    (a.result, { s with bus := { s.bus with outside := a.outside } })

/-- The part of `EEP_process` that a read and the default handlers of a reload share: read, and hand
the data to the ESC, or set the error. -/
def eepDeliver (addr : Dword) (size : ℕ) (stat : EepStat) : OnEep σ EepStat := do
  let result ← eepReadBuf addr size
  if result ≠ 0 then
    pure stat.ackErr
  else do
    onEepBus (escWrite escregEedata size (← get).eepBuf)
    pure stat

/-- The reload of `EEP_process`. -/
def eepReload (stat : EepStat) : OnEep σ EepStat := do
  let s ← get
  match s.eepReloadPtr with
  | some call =>
      transact fun _ s =>
        let a := call s.bus.outside s.bus.alEvent stat
        (a.stat, { s with bus := { s.bus with outside := a.outside, alEvent := a.alEvent } })
  | none =>
      if s.eepReadSize = 8 then eepDeliver (stat.addr * 2) s.eepReadSize stat
      else eepDeliver (eepConfigAliasWordOffset * 2) 2 stat

/-- The write of `EEP_process`. -/
def eepStore (stat : EepStat) : OnEep σ EepStat := do
  let d ← onEepBus (escRead escregEedata eepWriteSize)
  modify fun s => { s with eepBuf := s.eepBuf.copy 0 eepWriteSize d 0 }
  let result ← eepWriteBuf (stat.addr * 2) eepWriteSize
  pure (if result ≠ 0 then stat.ackErr else stat)

/-- The `switch` of `EEP_process`. -/
def eepCommand (stat : EepStat) : OnEep σ EepStat := do
  let s ← get
  if stat.cmdReg = eepCmdIdle then pure stat
  else if stat.cmdReg = eepCmdRead then eepDeliver (stat.addr * 2) s.eepReadSize stat
  else if stat.cmdReg = eepCmdReload then eepReload stat
  else if stat.cmdReg = eepCmdWrite then eepStore stat
  else pure stat.ackErr

/-- A round of the loop of `EEP_process`: look at the status, serve the command and acknowledge
it. -/
def eepRound : OnEep σ (Unit ⊕ Unit) := do
  let d ← onEepBus (escRead escregEecontstat 6)
  let stat : EepStat := ⟨d.word 0, d.dword 2⟩
  if ¬ stat.busy then
    pure (.inr ())
  else do
    let stat ← eepCommand stat.clearErrors
    onEepBus (escWrite escregEecontstat 2 (.ofWord stat.reg))
    pure (.inl ())

/-- `EEP_process`. -/
def eepProcess : OnEep σ Unit := do
  when ((← get).bus.alEvent &&& escregAleventEep ≠ 0) (loop (fun _ => eepRound) ())

/-! ## Settings -/

/-- `EEP_set_read_size`. -/
def eepSetReadSize (readSize : Word) : OnEep σ Unit :=
  when (readSize = 8 ∨ readSize = 4) <| modify fun s => { s with eepReadSize := readSize.toNat }

/-- `EEP_set_reload_function_pointer`. -/
def eepSetReloadFunctionPointer (reloadPtr : Option (σ → Dword → EepStat → EepReload σ)) :
    OnEep σ Unit :=
  modify fun s => { s with eepReloadPtr := reloadPtr }

end Soes
