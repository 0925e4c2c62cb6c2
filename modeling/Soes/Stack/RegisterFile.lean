import Soes.Stack.Calls

/-!
# A register file

The simplest chip: it keeps what is written, and answers with it.  Its state is a byte store, and
the AL event word is the value of its register.  `exampleSystem` is a small device on such a chip,
with the mailbox and SyncManager settings of the drives under `applications`, one output object,
and distributed clocks that the master switches on by the activation register.  Runs on fixed
inputs are made on it.
-/

namespace Soes

/-- A chip that keeps what is written and answers with it. -/
def registerFile : Hal ByteStore where
  init o event := (o, event, true)
  read o _ address _ :=
    { data := fun i => o (address + i), alEvent := o.dword escregAlevent, outside := o }
  write o _ address len data :=
    let o := o.copy address len data 0
    { data := fun _ => 0, alEvent := o.dword escregAlevent, outside := o }

/-- The options of the example device. -/
def exampleOptions : Options where
  mbxSize := 256
  mbxSizeBoot := 256
  mbxBuffers := 3
  preallocFactor := 3
  mb0 := ⟨0x1000, 256, 0x10ff, 0x26⟩
  mb1 := ⟨0x1100, 256, 0x11ff, 0x22⟩
  mbboot0 := ⟨0x1000, 256, 0x10ff, 0x26⟩
  mbboot1 := ⟨0x1100, 256, 0x11ff, 0x22⟩
  sm2Sma := 0x1200
  sm2Smc := 0x64
  sm2Act := 1
  sm3Sma := 0x1300
  sm3Smc := 0x20
  sm3Act := 1
  maxMappingsSm2 := 14
  maxMappingsSm3 := 20
  dlstatusWaitRetries := 3
  mbxSize_gt := by decide
  mbxBuffers_le := by decide

/-- A configuration without hooks: interrupts are in use, and DC is always accepted, with a limit
of 10 for the sync error counter. -/
def exampleCfg : EscCfg ByteStore where
  useInterrupt := true
  watchdogCnt := 100
  useHwWatchdog := false
  skipDefaultInitialization := true
  setDefaultsHook := none
  preStateChangeHook := none
  postStateChangeHook := none
  applicationHook := none
  safeStateOverride := none
  preObjectDownloadHook := none
  postObjectDownloadHook := none
  preObjectUploadHook := none
  postObjectUploadHook := none
  rxpdoOverride := none
  txpdoOverride := none
  cbApplyRxpdo o bytes event := ⟨o, bytes, event⟩
  cbUpdateTxpdo o bytes event := ⟨o, bytes, event⟩
  escHwInterruptEnable := none
  escHwInterruptDisable := none
  escHwEepHandler := none
  escCheckDcHandler := some fun o _ _ => ⟨0, 1, 10, o⟩
  getDeviceId := none
  escHwWait := none

/-- A constant entry. -/
def constEntry (subindex datatype : Word) (bitlength value : Dword) : Objd :=
  { subindex := subindex, datatype := datatype, bitlength := bitlength,
    flags := atypeRo.setWidth 16, name := [], value := value, data := 0 }

/-- The objects of the example device: one RxPDO with one output byte, assigned to SM2. -/
def exampleObjects : List Objectlist :=
  [{ index := 0x1600, objtype := 9, maxsub := 1, name := [],
     objdesc := [constEntry 0 dtypeUnsigned8 8 1, constEntry 1 dtypeUnsigned32 32 0x70000108] },
   { index := 0x1c12, objtype := otypeArray, maxsub := 1, name := [],
     objdesc := [constEntry 0 dtypeUnsigned8 8 1, constEntry 1 dtypeUnsigned16 16 0x1600] },
   { index := 0x7000, objtype := 9, maxsub := 1, name := [],
     objdesc := [constEntry 0 dtypeUnsigned8 8 1,
       { subindex := 1, datatype := dtypeUnsigned8, bitlength := 8, flags := 0x3f, name := [],
         value := 0, data := 0x100 }] }]

/-- The dictionary of the example device. -/
def exampleDictionary : Dictionary where
  objects := exampleObjects
  ascending := by decide
  below_sentinel := by decide
  storage := by decide +kernel

lemma exampleMbxdata_ne : (0x1000 : ℕ) ≠ 0 := by decide

/-- The example device. -/
def exampleSystem : System ByteStore where
  opts := exampleOptions
  cfg := exampleCfg
  dict := exampleDictionary
  hal := registerFile
  mbxdata := 0x1000
  mbxdata_ne := exampleMbxdata_ne

/-- The registers of one SyncManager. -/
def smRegisters (psa length : Word) (command status act : Byte) : List Byte :=
  [psa.setWidth 8, (psa >>> 8).setWidth 8, length.setWidth 8, (length >>> 8).setWidth 8, command,
    status, act, 0]

/-- The SyncManagers as a master sets them up for the example device. -/
def exampleSyncManagers : List Byte :=
  smRegisters 0x1000 256 0x26 0 1 ++ smRegisters 0x1100 256 0x22 0 1 ++
    smRegisters 0x1200 1 0x64 0 1 ++ smRegisters 0x1300 0 0x20 0 0

/-- The registers of a chip whose SyncManagers are set up, by the AL control word, the AL event word
and the SYNC activation register. -/
def exampleChip (control : Word) (event : Dword) (syncAct : Byte) : ByteStore :=
  (((ByteStore.copy (fun _ => 0) escregSm0 32 (fun i => exampleSyncManagers.getD i 0) 0).setWord
    escregAlcontrol control).setDword escregAlevent event).set escregSyncAct syncAct |>.set
      escregDlstatus 1

/-- The master changes the AL control word, the AL event word and the SYNC activation register. -/
def masterMove (control : Word) (event : Dword) (syncAct : Byte) : ℕ × Call ByteStore :=
  (0, .move (exampleChip control event syncAct) event fun _ => 0)

/-- The master makes an AL control request, and the stack handles it. -/
def masterRequest (control : Word) (syncAct : Byte) : List (ℕ × Call ByteStore) :=
  [masterMove control escregAleventControl syncAct, (8, .state)]

/-- A run of the example device. -/
def exampleRun (ok : World ByteStore → ℕ × Call ByteStore → Prop) [∀ w l, Decidable (ok w l)]
    (ls : List (ℕ × Call ByteStore)) : Option (World ByteStore) :=
  (startUp exampleSystem 8 (exampleChip 1 0 0) 0 fun _ => 0).bind
    (runCalls exampleSystem ok ls)

/-- The bytes of a message. -/
def messageBytes (message : List Byte) : ByteStore := fun i => message.getD i 0

/-- The mailboxes of the example device, running, with a message in the inbox. -/
def exampleMailbox (message : List Byte) : Mailbox :=
  { (World.zeroed (fun _ => 0 : ByteStore) 0 fun _ => 0).mb with
    mbx := messageBytes message
    control := fun n => if n = 0 then .inclaim else .idle
    mbxRun := true
    activembxsize := exampleOptions.mbxSize
    activemb0 := exampleOptions.mb0
    activemb1 := exampleOptions.mb1 }

/-- The example device in PREOP, with a message in the inbox. -/
def exampleInbox (message : List Byte) : World ByteStore :=
  let w := World.zeroed (fun _ => 0 : ByteStore) 0 fun _ => 0
  { w with al := { w.al with alStatus := escPreop.setWidth 16 }, mb := exampleMailbox message }

/-- A CoE message with an SDO request: ten bytes, by command, index and subindex. -/
def sdoMessage (command : Byte) (index : Word) (subindex : Byte) (data : List Byte) :
    List Byte :=
  [10, 0, 0, 0, 0, mbxcoe, 0, 0x20, command, index.setWidth 8, (index >>> 8).setWidth 8,
    subindex] ++ data

/-- The registers of the example chip in PREOP, with a message in SM0. -/
def mailChip (message : List Byte) : ByteStore :=
  ((exampleChip 2 escregAleventSm0 0).copy 0x1000 256 (messageBytes message) 0).set
    (escregSm0 + 5) 8

/-- The master writes a message, and the stack reads and handles it. -/
def masterMessage (message : List Byte) : List (ℕ × Call ByteStore) :=
  [(0, .move (mailChip message) escregAleventSm0 fun _ => 0), (8, .mbxprocess), (8, .coeprocess)]

/-- The stack posts a reply. -/
def slavePosts : List (ℕ × Call ByteStore) := [(8, .mbxprocess)]

/-- The master reads the reply, and the stack takes note. -/
def masterReads : List (ℕ × Call ByteStore) :=
  [(0, .move (exampleChip 2 escregAleventSm1 0) escregAleventSm1 fun _ => 0), (8, .mbxprocess)]

/-- An SDO Information request for the number of objects. -/
def odlistMessage : List Byte := [8, 0, 0, 0, 0, mbxcoe, 0, 0x80, 1, 0, 0, 0, 0, 0]

/-- The example device with a pre-download hook that holds every reply back. -/
def exampleHolding : System ByteStore :=
  { exampleSystem with cfg := { exampleCfg with
      preObjectDownloadHook := some fun o bytes _ _ _ _ _ => ⟨escSdoPending, o, bytes⟩ } }

end Soes
