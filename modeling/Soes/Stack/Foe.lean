import Soes.Stack.Mailbox
import Soes.Stack.State

/-!
# File over EtherCAT

The FoE server of `esc_foe.c`, as compiled without `FOE_READ_SUPPORTED`: the master opens one of
the configured files for writing, sends its contents in numbered data packets, and the server
collects them in a buffer that it passes to the file's write function whenever it is full.

The files and the size of the buffer are what the application gave to `FOE_config`.  A write
function is arbitrary application code, within what it is handed.

Offsets into a buffer are those of `_FOE`: opcode at 6, the password, packet number or error code
at 8, the file name or the data at 12.
-/

namespace Soes

open Program

variable {σ : Type}

/-! ## Configuration and state -/

/-- The fields of `foe_file_cfg_t` that change. -/
structure FoeFileVar where
  addressOffset : ℕ
  totalSize : ℕ
  deriving DecidableEq, Repr

/-- The fields of `foe_file_cfg_t` that the application sets. -/
structure FoeFile (σ : Type) where
  name : List Byte
  maxData : ℕ
  filepass : Dword
  writeOnlyInBoot : Bool
  /-- `write_function`, by the file, the buffer and the number of bytes in it; the result is 0 on
  success. -/
  writeFunction : σ → FoeFileVar → ByteStore → ℕ → σ × Dword

/-- `foe_cfg_t`. -/
structure FoeCfg (σ : Type) where
  bufferSize : ℕ
  files : List (FoeFile σ)

/-- `FOEvar.foestate`. -/
inductive FoeState where
  /-- `FOE_READY`. -/
  | ready
  /-- `FOE_WAIT_FOR_DATA`. -/
  | waitForData
  deriving DecidableEq, Repr

/-- `FOEvar`, with the other variables of `esc_foe.c`. -/
structure Foe where
  /-- `foe_file`, by its place in `files`. -/
  file : Option ℕ
  /-- The fields that change of each file. -/
  files : ℕ → FoeFileVar
  fbuffer : ByteStore
  foestate : FoeState
  fbufposition : ℕ
  foepacket : Dword
  fposition : ℕ
  fprevposition : ℕ
  fend : ℕ

/-- What the FoE code works on. -/
structure FoeMem (σ : Type) where
  /-- The application, which the write functions belong to. -/
  outside : σ
  mb : Mailbox
  foe : Foe

/-- What the FoE code is given. -/
structure FoeEnv (σ : Type) where
  opts : Options
  cfg : FoeCfg σ
  alStatus : Word

/-- The mailboxes of the FoE side. -/
@[simps] def foeMbOf : Component (FoeMem σ) Mailbox where
  get s := s.mb
  put m s := { s with mb := m }
  get_put _ _ := rfl
  put_get _ := rfl

/-- FoE code. -/
abbrev OnFoe (σ α : Type) : Type := Program (FoeEnv σ) Fault (FoeMem σ) α

/-- Run mailbox code as FoE code. -/
abbrev onFoeMb {α : Type} (m : OnMailbox α) : OnFoe σ α :=
  Program.within (fun env _ => env.opts) foeMbOf m

/-- Change the mailboxes. -/
def foeModifyMb (f : Mailbox → Mailbox) : OnFoe σ Unit := modify fun s => { s with mb := f s.mb }

/-- Change the server's variables. -/
def foeModify (f : Foe → Foe) : OnFoe σ Unit := modify fun s => { s with foe := f s.foe }

namespace Mailbox

variable (m : Mailbox)

/-- `foeheader.opcode` of the inbox. -/
def foeOpcode : Byte := m.mbx 6
/-- `foeheader.password` and `foeheader.packetnumber` of the inbox. -/
def foeNumber : Dword := m.mbx.dword 8
/-- Address of the file name or the data of an FoE message. -/
abbrev foeDataOffset : ℕ := 12

/-- `ESC_FOE_DATA_SIZE`. -/
def foeDataSize : ℕ := sub32 m.activembxsize (escMbxhsize + escFoehsize)

/-- Fill in an FoE reply in buffer `n`. -/
def putFoe (n : ℕ) (opcode : Byte) (number : Dword) : Mailbox :=
  (m.setHeader n escFoehsize mbxfoe).updateMbx fun mbx =>
    (mbx.set (m.buffer n + 6) opcode).setDword (m.buffer n + 8) number

end Mailbox

/-! ## Replies -/

/-- The variables after `FOE_init`. -/
def Foe.init (v : Foe) : Foe :=
  { v with foepacket := 0, foestate := .ready, fposition := 0, fprevposition := 0,
           fbufposition := 0 }

/-- `FOE_init`. -/
def foeInit : OnFoe σ Unit := foeModify .init

/-- `FOE_abort`. -/
def foeAbort (code : Dword) : OnFoe σ Unit := do
  when (code ≠ 0) do
    let n ← onFoeMb escClaimbuffer
    -- without a buffer there is nothing to be done
    when (n ≠ 0) (foeModifyMb fun m => (m.putFoe n foeOpErr code).setControl n .outreq)
  foeInit

/-- `FOE_send_ack`; the result is 0 or an error. -/
def foeSendAck : OnFoe σ Dword := do
  let n ← onFoeMb escClaimbuffer
  if n ≠ 0 then
    let packet := (← get).foe.foepacket
    foeModifyMb fun m => m.putFoe n foeOpAck packet
    foeModify fun v => { v with foepacket := v.foepacket + 1 }
    foeModifyMb fun m => m.setControl n .outreq
    pure 0
  else
    pure foeErrProgerror

/-! ## Files -/

/-- `strncmp` of as many characters as the list has with a C string: whether they are equal. -/
def strncmpEq : List Byte → List Byte → Bool
  | [], _ => true
  | c :: _, [] => c = 0
  | c :: cs, d :: ds => c = d ∧ (c = 0 ∨ strncmpEq cs ds)

/-- The characters of the inbox's file name that `FOE_fopen` looks at. -/
def foeFileName (mbx : ByteStore) (numChars : Byte) : List Byte :=
  (List.range (min numChars.toNat foeFnMax)).map fun i => mbx (Mailbox.foeDataOffset + i)

/-- `FOE_fopen` with `FOE_OP_WRQ`; the result is 0 or an error. -/
def foeFopen (numChars : Byte) (pass : Dword) : OnFoe σ Dword := do
  let env ← ask
  let name := foeFileName (← get).mb.mbx numChars
  match env.cfg.files.findIdx? fun f => strncmpEq name f.name with
  | none => pure foeErrNotfound
  | some i =>
      match env.cfg.files[i]? with
      | none => pure foeErrNotfound
      | some f =>
          if pass ≠ f.filepass then
            pure foeErrNorights
          else if f.writeOnlyInBoot ∧ env.alStatus ≠ escBoot.setWidth 16 then
            pure foeErrNotinbootstrap
          else
            foeModify fun v => { v with
              file := some i
              files := fun k => if k = i then ⟨0, 0⟩ else v.files k
              fposition := 0
              fend := f.maxData }
            pure 0

/-- Change the current file. -/
def foeModifyFile (f : FoeFileVar → FoeFileVar) : OnFoe σ Unit := do
  match (← get).foe.file with
  | none => fault .null
  | some i => foeModify fun v =>
      { v with files := fun k => if k = i then f (v.files k) else v.files k }

/-- Call the write function of the current file with what the buffer holds. -/
def foeCallWrite : OnFoe σ Dword := do
  let cfg := (← ask).cfg
  match (← get).foe.file with
  | none => fault .null
  | some i =>
      match cfg.files[i]? with
      | none => fault .null
      | some f => transact fun _ s =>
          let a := f.writeFunction s.outside (s.foe.files i) s.foe.fbuffer s.foe.fbufposition
          (a.2, { s with outside := a.1 })

/-- `FOE_fwrite`, one byte; whether the write function failed. -/
def foeFwriteByte (cfg : FoeCfg σ) (b : Byte) : OnFoe σ Bool := do
  foeModify fun v => { v with
    fbuffer := v.fbuffer.set v.fbufposition b
    fbufposition := (v.fbufposition + 1) % 2 ^ 16 }
  let failed ← (if cfg.bufferSize ≤ (← get).foe.fbufposition then do
      let failed ← foeCallWrite
      foeModify fun v => { v with fbufposition := 0 }
      foeModifyFile fun f =>
        { f with addressOffset := (f.addressOffset + cfg.bufferSize) % 2 ^ 32 }
      pure (decide (failed ≠ 0))
    else pure false)
  foeModify fun v => { v with fposition := (v.fposition + 1) % 2 ^ 32 }
  pure failed

/-- The loop of `FOE_fwrite`, with `length` bytes to go from address `data` of the inbox on; the
result is the number of bytes copied. -/
def foeFwriteLoop (cfg : FoeCfg σ) : ℕ → ℕ → ℕ → OnFoe σ ℕ
  | 0, _, ncopied => pure ncopied
  | length + 1, data, ncopied => do
      let s ← get
      if s.foe.fend = s.foe.fposition then
        pure ncopied
      else if ← foeFwriteByte cfg (s.mb.mbx data) then
        pure ncopied
      else
        foeFwriteLoop cfg length (data + 1) (ncopied + 1)

/-- `FOE_fwrite`. -/
def foeFwrite (length : ℕ) : OnFoe σ ℕ := do
  foeModify fun v => { v with fprevposition := v.fposition }
  let ncopied ← foeFwriteLoop (← ask).cfg length Mailbox.foeDataOffset 0
  foeModifyFile fun f => { f with totalSize := (f.totalSize + ncopied) % 2 ^ 32 }
  pure ncopied

/-- `FOE_fclose`; the result is that of the write function. -/
def foeFclose : OnFoe σ Dword := do
  let failed ← foeCallWrite
  let position := (← get).foe.fbufposition
  foeModifyFile fun f => { f with addressOffset := (f.addressOffset + position) % 2 ^ 32 }
  foeModify fun v => { v with fbufposition := 0 }
  pure failed

/-! ## Requests -/

/-- `FOE_write`. -/
def foeWrite : OnFoe σ Unit := do
  if (← get).foe.foestate ≠ .ready then
    foeAbort foeErrIllegal
  else
    foeInit
    let m := (← get).mb
    let res ← foeFopen (.ofNat 8 (sub32 (m.headerLength 0).toNat escFoehsize)) m.foeNumber
    if res = 0 then
      let res ← foeSendAck
      if res ≠ 0 then foeAbort res
      else foeModify fun v => { v with foestate := .waitForData }
    else
      foeAbort res

/-- `FOE_data`, the data of an accepted packet; `size` is their number. -/
def foeDataAccepted (size : ℕ) : OnFoe σ Unit := do
  let ncopied ← foeFwrite size
  if ncopied = 0 then
    foeAbort foeErrProgerror
  else if size = (← get).mb.foeDataSize then
    when (ncopied ≠ size) (foeAbort foeErrProgerror)
    let res ← foeSendAck
    when (res ≠ 0) (foeAbort res)
  else if ncopied ≠ size then
    foeAbort foeErrProgerror
  else
    let failed ← foeFclose
    if failed ≠ 0 then
      foeAbort foeErrProgerror
    else
      let _ ← foeSendAck
      foeInit

/-- `FOE_data`. -/
def foeData : OnFoe σ Unit := do
  let s ← get
  let size := sub32 (s.mb.headerLength 0).toNat escFoehsize
  if s.foe.foestate ≠ .waitForData then
    foeAbort foeErrIllegal
  else if s.mb.foeNumber ≠ s.foe.foepacket then
    foeAbort foeErrPacketno
  else if size = 0 then
    let _ ← foeFclose
    let _ ← foeSendAck
    foeInit
  else if s.foe.fend < (s.foe.fposition + size) % 2 ^ 32 then
    foeAbort foeErrDiskfull
  else
    foeDataAccepted size

/-- `ESC_foeprocess`, the message in the inbox, by opcode. -/
def foeDispatch (m : Mailbox) : OnFoe σ Unit :=
  if (m.headerLength 0).toNat < escFoehsize then foeAbort (mbxerrSizetooshort.setWidth 32)
  else if m.foeOpcode = foeOpWrq then foeWrite
  else if m.foeOpcode = foeOpData then foeData
  -- the master gives up
  else if m.foeOpcode = foeOpErr then foeAbort 0
  else foeAbort foeErrNotdefined

/-- `ESC_foeprocess`. -/
def escFoeprocess : OnFoe σ Unit := do
  when (← get).mb.mbxRun do
    let m := (← get).mb
    when (m.xoe = 0 ∧ m.control 0 = .inclaim ∧ m.mbxtype 0 = mbxfoe) <|
      foeModifyMb fun m => { m with xoe := mbxfoe }
    let m := (← get).mb
    when (m.xoe = mbxfoe) do
      foeDispatch m
      foeModifyMb fun m => { m.setControl 0 .idle with xoe := 0 }

end Soes
