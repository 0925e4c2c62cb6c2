import Mathlib.Algebra.Ring.Int.Defs
import Mathlib.Tactic.Simps.Basic
import Soes.Framework.Program
import Soes.Stack.Objects

/-!
# The stack's state and its surroundings

`World σ` is everything a step of the stack reads and writes: the globals of `esc.c`,
`esc_coe.c` and `ecat_slv.c`, grouped by the part of the stack that owns them, the storage of the
dictionary's variables, and a state `σ` of what lies outside, which is the ESC, the bus and the
application.  `System σ` is what stays fixed while the stack runs: the options the stack is
compiled with, the application's configuration, the dictionary, and the port.

The port is arbitrary.  An access to the ESC may deliver any bytes, may change the outside state
in any way, and may refresh `ESCvar.ALevent`, as ports do to mimic the ET1x00.  The callbacks of
`esc_cfg_t` are arbitrary in the same way, within what each of them is handed.

Three fields are history variables, which no code reads: `SyncManagers.pdi`, the last
enable or disable applied to each SyncManager; `AlState.safeStates`, the number of calls of
`APP_safe_state`; and the two of `Memory`, the writes of the SDO server and whether one of its
length computations fell below zero.
-/

namespace Soes

/-! ## What is fixed -/

/-- `sm_cfg_t`. -/
structure SmCfg where
  sma : Word
  sml : Word
  sme : Word
  smc : Byte
  deriving DecidableEq, Repr, Inhabited

/-- The compile-time options, `options.h` and `ecat_options.h`. -/
structure Options where
  mbxSize : ℕ
  mbxSizeBoot : ℕ
  mbxBuffers : ℕ
  preallocFactor : ℕ
  /-- `MBX0_sma` and its companions. -/
  mb0 : SmCfg
  /-- `MBX1_sma` and its companions. -/
  mb1 : SmCfg
  /-- `MBX0_sma_b` and its companions. -/
  mbboot0 : SmCfg
  /-- `MBX1_sma_b` and its companions. -/
  mbboot1 : SmCfg
  sm2Sma : Word
  sm2Smc : Byte
  sm2Act : Byte
  sm3Sma : Word
  sm3Smc : Byte
  sm3Act : Byte
  maxMappingsSm2 : ℕ
  maxMappingsSm3 : ℕ
  dlstatusWaitRetries : ℕ
  /-- The static assertion on the mailbox sizes. -/
  mbxSize_gt : escMbxhsize < mbxSize ∧ escMbxhsize < mbxSizeBoot
  /-- There is an inbox, and buffer numbers fit a byte. -/
  mbxBuffers_le : 0 < mbxBuffers ∧ mbxBuffers ≤ 256

/-- `PREALLOC_BUFFER_SIZE`. -/
def Options.preallocBufferSize (o : Options) : ℕ := o.preallocFactor * o.mbxSize

/-- What an access to the ESC delivers: the bytes read, the AL event word afterwards, and the
outside state afterwards. -/
structure BusAnswer (σ : Type) where
  data : ByteStore
  alEvent : Dword
  /-- The outside state after the access. -/
  outside : σ

/-- The port: `ESC_read` and `ESC_write`, by outside state, AL event word, address and length;
and `ESC_init`. -/
structure Hal (σ : Type) where
  /-- `ESC_init`, whether it succeeds. -/
  init : σ → Dword → σ × Dword × Bool
  /-- `ESC_read`. -/
  read : σ → Dword → ℕ → ℕ → BusAnswer σ
  /-- `ESC_write` of the first bytes of a store. -/
  write : σ → Dword → ℕ → ℕ → ByteStore → BusAnswer σ

/-- What the application's DC check handler leaves behind. -/
structure DcCheck (σ : Type) where
  /-- The AL status code to refuse with, 0 for none. -/
  code : Word
  /-- `ESCvar.dcsync` as the handler leaves it. -/
  dcsync : Byte
  /-- `ESCvar.synccounterlimit` as the handler leaves it. -/
  synccounterlimit : Word
  outside : σ

/-- What application code run by the stack leaves behind. -/
structure AppAnswer (σ : Type) where
  outside : σ
  bytes : ByteStore
  /-- `ESCvar.ALevent`, which changes when the application accesses the ESC. -/
  alEvent : Dword

/-- A callback that takes no argument. -/
abbrev AppCall (σ : Type) : Type := σ → ByteStore → Dword → AppAnswer σ

/-- What an SDO hook answers. -/
structure HookAnswer (σ : Type) where
  /-- The abort code, 0 on success. -/
  code : Dword
  outside : σ
  bytes : ByteStore

/-- `esc_cfg_t`, with the two application callbacks the linker supplies. -/
structure EscCfg (σ : Type) where
  useInterrupt : Bool
  watchdogCnt : ℤ
  useHwWatchdog : Bool
  skipDefaultInitialization : Bool
  setDefaultsHook : Option (AppCall σ)
  /-- `pre_state_change_hook`, which may change both arguments. -/
  preStateChangeHook : Option (σ → Byte → Byte → σ × Byte × Byte)
  /-- `post_state_change_hook`, which may change both arguments. -/
  postStateChangeHook : Option (σ → Byte → Byte → σ × Byte × Byte)
  applicationHook : Option (AppCall σ)
  safeStateOverride : Option (AppCall σ)
  /-- `pre_object_download_hook`, by index, subindex, the bytes received, size and flags. -/
  preObjectDownloadHook :
    Option (σ → ByteStore → Word → Byte → ByteStore → ℕ → Word → HookAnswer σ)
  /-- `post_object_download_hook`, by index, subindex and flags. -/
  postObjectDownloadHook : Option (σ → ByteStore → Word → Byte → Word → HookAnswer σ)
  /-- `pre_object_upload_hook`, by index, subindex, address, size and flags; it may change the
  size. -/
  preObjectUploadHook :
    Option (σ → ByteStore → Word → Byte → ℕ → ℕ → Word → HookAnswer σ × ℕ)
  /-- `post_object_upload_hook`, by index, subindex and flags. -/
  postObjectUploadHook : Option (σ → ByteStore → Word → Byte → Word → HookAnswer σ)
  rxpdoOverride : Option (AppCall σ)
  txpdoOverride : Option (AppCall σ)
  cbApplyRxpdo : AppCall σ
  cbUpdateTxpdo : AppCall σ
  escHwInterruptEnable : Option (Dword → σ → Dword → σ × Dword)
  escHwInterruptDisable : Option (Dword → σ → Dword → σ × Dword)
  escHwEepHandler : Option (σ → Dword → σ × Dword)
  escCheckDcHandler : Option (σ → Byte → Word → DcCheck σ)
  /-- `get_device_id`; `none` is a return value other than 0. -/
  getDeviceId : Option (σ → σ × Option Word)
  /-- `esc_hw_wait`, by timeout: the outside state, the AL event word, and the return value. -/
  escHwWait : Option (σ → Dword → ℕ → σ × Dword × ℤ)

/-- What stays fixed while the stack runs. -/
structure System (σ : Type) where
  opts : Options
  cfg : EscCfg σ
  dict : Dictionary
  hal : Hal σ
  mbxdata : ℕ
  /-- It is not the null pointer. -/
  mbxdata_ne : mbxdata ≠ 0

/-! ## What changes -/

/-- `_ESCsm`, the registers of one SyncManager as last read. -/
structure EscSm where
  psa : Word
  length : Word
  command : Byte
  status : Byte
  /-- Activation byte, written by the master. -/
  actESC : Byte
  /-- Control byte of the PDI side. -/
  actPDI : Byte
  deriving DecidableEq, Repr, Inhabited

/-- `MBXstat`: the mailbox is full. -/
def EscSm.mbxstat (sm : EscSm) : Bool := sm.status.getLsbD 3
/-- `ECsm`: the SyncManager is activated. -/
def EscSm.ecsm (sm : EscSm) : Bool := sm.actESC.getLsbD 0
/-- `ECrep`: the master's repeat request bit. -/
def EscSm.ecrep (sm : EscSm) : Bool := sm.actESC.getLsbD 1

/-- There are four SyncManagers, numbered by the literals of `Fin 4`. -/
instance neZeroSm : NeZero 4 := ⟨by decide⟩

/-- The SyncManager part of `ESCvar`. -/
structure SyncManagers where
  sm : Fin 4 → EscSm
  smTestresult : Byte
  /-- History: whether the last `ESC_SMenable` or `ESC_SMdisable` of each was an enable. -/
  pdi : Fin 4 → Bool

/-- `_SMmap`. -/
structure SmMap where
  /-- The mapped entry, `none` for a padding element. -/
  obj : Option Objd
  /-- Its bit offset in the process data. -/
  offset : ℕ
  deriving DecidableEq, Repr

/-- The AL state, process data and DC part of `ESCvar`. -/
structure AlState where
  alStatus : Word
  alControl : Word
  alError : Word
  dlStatus : Word
  address : Word
  appState : Byte
  dcsync : Byte
  synccounterlimit : Word
  synccounter : ℤ
  smeventmissed : Word
  syncerror : Bool
  smEventSeen : Bool
  opPending : Bool
  opSeenSync0 : Bool
  opSeenSm : Bool
  opPendingNs : ℕ
  opValidNs : ℕ
  escSm2Sml : Word
  escSm3Sml : Word
  sm2mappings : ℤ
  sm3mappings : ℤ
  smMap2 : List SmMap
  smMap3 : List SmMap
  /-- History: how often `APP_safe_state` was called. -/
  safeStates : ℕ

/-- The states of the hardware watchdog check. -/
inductive HwWdState where
  /-- Configuration not read since outputs came up. -/
  | unchecked
  /-- Armed by the master, but not yet fed. -/
  | waiting
  /-- Fed at least once. -/
  | running
  /-- The master disabled it. -/
  | disabled
  deriving DecidableEq, Repr

/-- The private variables of `ecat_slv.c`. -/
structure Watchdog where
  watchdog : ℤ
  hwWdState : HwWdState
  hwWdQuiet : ℕ
  /-- The process data image read from SM2. -/
  rxpdo : ByteStore
  /-- The process data image written to SM3. -/
  txpdo : ByteStore

/-- `MBXcontrol[n].state`. -/
inductive MbxState where
  /-- Idle. -/
  | idle
  /-- Claimed for inbox. -/
  | inclaim
  /-- Claimed for outbox. -/
  | outclaim
  /-- Request post outbox. -/
  | outreq
  /-- Outbox posted, not sent. -/
  | outpost
  /-- Backup outbox. -/
  | backup
  /-- Mailbox needs to be transmitted again. -/
  | again
  deriving DecidableEq, Repr, Inhabited

/-- `sdo_held`. -/
structure SdoHeld where
  active : Bool
  index : Word
  subindex : Byte
  deriving DecidableEq, Repr

/-- The mailbox part of `ESCvar`, with `MBX`, `MBXcontrol` and `sdo_held`. -/
structure Mailbox where
  mbx : ByteStore
  /-- `MBXcontrol`. -/
  control : ℕ → MbxState
  mbxRun : Bool
  activembxsize : ℕ
  activemb0 : SmCfg
  activemb1 : SmCfg
  mbxcnt : Byte
  mbxincnt : Byte
  mbxoutpost : ℕ
  mbxbackup : ℕ
  xoe : Byte
  txcue : Byte
  mbxfree : Bool
  toggle : Bool
  segmented : Byte
  data : ℕ
  entries : ℕ
  frags : ℕ
  fragsleft : ℕ
  index : Word
  subindex : Byte
  flags : Word
  sdoHeld : SdoHeld

/-- The storage of the dictionary's variables and of `ESCvar.mbxdata`. -/
structure Memory where
  bytes : ByteStore
  /-- History: the writes of the SDO server, address and length, latest first. -/
  writes : List (ℕ × ℕ)
  /-- History: a length computation of the SDO server fell below zero. -/
  wrapped : Bool

/-- Everything a step of the stack reads and writes. -/
structure World (σ : Type) where
  /-- The ESC, the bus and the application. -/
  outside : σ
  alEvent : Dword
  sm : SyncManagers
  /-- AL state, process data and DC. -/
  al : AlState
  wd : Watchdog
  mb : Mailbox
  mem : Memory

/-! ## Components -/

/-- What code that only accesses the ESC works on. -/
structure Bus (σ : Type) where
  /-- The ESC, the bus and the application. -/
  outside : σ
  alEvent : Dword
  sm : SyncManagers

/-- What the CoE code works on. -/
structure Coe (σ : Type) where
  /-- The application, which the SDO hooks belong to. -/
  outside : σ
  mb : Mailbox
  mem : Memory

/-- What the CoE code is given: the system, and the AL status it checks access rights by. -/
structure CoeEnv (σ : Type) where
  sys : System σ
  alStatus : Word

variable {σ : Type}

/-- The ESC side of the world. -/
@[simps] def busOf : Component (World σ) (Bus σ) where
  get w := { outside := w.outside, alEvent := w.alEvent, sm := w.sm }
  put b w := { w with outside := b.outside, alEvent := b.alEvent, sm := b.sm }
  get_put _ _ := rfl
  put_get _ := rfl

/-- The CoE side of the world. -/
@[simps] def coeOf : Component (World σ) (Coe σ) where
  get w := { outside := w.outside, mb := w.mb, mem := w.mem }
  put c w := { w with outside := c.outside, mb := c.mb, mem := c.mem }
  get_put _ _ := rfl
  put_get _ := rfl

/-- The mailboxes of the CoE side. -/
@[simps] def mbOf : Component (Coe σ) Mailbox where
  get c := c.mb
  put m c := { c with mb := m }
  get_put _ _ := rfl
  put_get _ := rfl

/-- The mailboxes of the world. -/
@[simps] def mailboxOf : Component (World σ) Mailbox where
  get w := w.mb
  put m w := { w with mb := m }
  get_put _ _ := rfl
  put_get _ := rfl

/-- Nothing of the world: what code that only looks at it works on. -/
@[simps] def nothingOf : Component (World σ) Unit where
  get _ := ()
  put _ w := w
  get_put _ _ := rfl
  put_get _ := rfl

/-- What code that reads the variables is given: `SDOobjects`, and the storage. -/
structure Variables where
  /-- `SDOobjects`, with its sentinel. -/
  table : List Objectlist
  bytes : ByteStore

/-! ## Kinds of code -/

/-- Code of the stack. -/
abbrev Stack (σ α : Type) : Type := Program (System σ) Fault (World σ) α

/-- Code that only accesses the ESC. -/
abbrev OnBus (σ α : Type) : Type := Program (Hal σ) Fault (Bus σ) α

/-- CoE code. -/
abbrev OnCoe (σ α : Type) : Type := Program (CoeEnv σ) Fault (Coe σ) α

/-- Code that only touches the mailbox buffers. -/
abbrev OnMailbox (α : Type) : Type := Program Options Fault Mailbox α

/-- Code that only reads the variables. -/
abbrev OnVariables (α : Type) : Type := Program Variables Fault Unit α

/-- Run code that only reads the variables as code of the stack. -/
abbrev onVariables {α : Type} (m : OnVariables α) : Stack σ α :=
  Program.within (fun sys w => ⟨sys.dict.table, w.mem.bytes⟩) nothingOf m

/-- Run code that accesses the ESC as code of the stack. -/
abbrev onBus {α : Type} (m : OnBus σ α) : Stack σ α :=
  Program.within (fun sys _ => sys.hal) busOf m

/-- Run CoE code as code of the stack. -/
abbrev onCoe {α : Type} (m : OnCoe σ α) : Stack σ α :=
  Program.within (fun sys w => ⟨sys, w.al.alStatus⟩) coeOf m

/-- Run mailbox code as code of the stack. -/
abbrev onMailbox {α : Type} (m : OnMailbox α) : Stack σ α :=
  Program.within (fun sys _ => sys.opts) mailboxOf m

/-- Run mailbox code as CoE code. -/
abbrev onMb {α : Type} (m : OnMailbox α) : OnCoe σ α :=
  Program.within (fun env _ => env.sys.opts) mbOf m

end Soes
