import Soes.Stack.SyncManagers

/-!
# Mailbox buffers and the mailbox protocol

`MBX` holds `MBXBUFFERS` buffers of one size; buffer 0 is the inbox, the others are claimed for
replies from the highest down.  This file is the mailbox part of `esc.c`: claiming a buffer,
error replies, moving buffers to and from the ESC, and `ESC_xoeprocess`, the handler of last
resort that drops a message no protocol has taken.

Offsets into a buffer are those of `_MBXh`: length at 0, address at 2, channel and priority in
byte 4, type and counter in the two halves of byte 5.
-/

namespace Soes

open Program

variable {σ : Type}

namespace Mailbox

variable (m : Mailbox)

/-- `ESC_MBXDSIZE`. -/
def mbxDsize : ℕ := sub32 m.activembxsize escMbxhsize

/-- The address of buffer `n` in `MBX`. -/
def buffer (n : ℕ) : ℕ := n * m.activembxsize

/-- `header.length` of buffer `n`. -/
def headerLength (n : ℕ) : Word := m.mbx.word (m.buffer n)

/-- `header.mbxtype` of buffer `n`. -/
def mbxtype (n : ℕ) : Byte := m.mbx (m.buffer n + 5) &&& 0x0f

/-- `header.mbxcnt` of buffer `n`. -/
def headerCnt (n : ℕ) : Byte := m.mbx (m.buffer n + 5) >>> 4

/-- Change the buffers' contents. -/
def updateMbx (f : ByteStore → ByteStore) : Mailbox := { m with mbx := f m.mbx }

/-- Set `MBXcontrol[n].state`. -/
def setControl (n : ℕ) (c : MbxState) : Mailbox :=
  { m with control := fun k => if k = n then c else m.control k }

/-- Set `header.length` and `header.mbxtype` of buffer `n`. -/
def setHeader (n : ℕ) (length : ℕ) (type : Byte) : Mailbox :=
  m.updateMbx fun mbx =>
    (mbx.setWord (m.buffer n) (.ofNat 16 length)).set (m.buffer n + 5)
      ((mbx (m.buffer n + 5) &&& 0xf0) ||| type)

end Mailbox

/-! ## Claiming buffers -/

/-- The scan of `ESC_claimbuffer` and `ESC_outreqbuffer`: the highest buffer from `n` down to 1
whose state is `wanted`, else 0. -/
def scanBuffers (control : ℕ → MbxState) (wanted : MbxState) : ℕ → ℕ
  | 0 => 0
  | n + 1 => if control (n + 1) ≠ wanted then scanBuffers control wanted n else n + 1

/-- `ESCvar.mbxcnt` of the next message, from 1 to 7. -/
def nextMbxcnt (cnt : Byte) : Byte :=
  let c := (cnt + 1) &&& 0x07
  if c = 0 then 1 else c

/-- The mailbox after buffer `n` was claimed. -/
def Mailbox.claim (m : Mailbox) (n : ℕ) : Mailbox :=
  let cnt := nextMbxcnt m.mbxcnt
  { (m.setControl n .outclaim) with
    mbxcnt := cnt
    txcue := m.txcue + 1
    -- destination is master
    mbx := ((m.mbx.setWord (m.buffer n + 2) 0).set (m.buffer n + 4) 0).set (m.buffer n + 5)
      ((m.mbx (m.buffer n + 5) &&& 0x0f) ||| (cnt <<< 4)) }

/-- `ESC_claimbuffer`. -/
def escClaimbuffer : OnMailbox ℕ := do
  let opts ← ask
  let m ← get
  let n := scanBuffers m.control .idle (opts.mbxBuffers - 1)
  when (n ≠ 0) (modify fun m => m.claim n)
  pure n

/-- `ESC_outreqbuffer`. -/
def escOutreqbuffer (opts : Options) (m : Mailbox) : ℕ :=
  scanBuffers m.control .outreq (opts.mbxBuffers - 1)

/-- `MBX_error`. -/
def mbxError (error : Word) : OnMailbox Unit := do
  let n ← escClaimbuffer
  when (n ≠ 0) <| modify fun m =>
    ((m.setHeader n 4 mbxerr).updateMbx fun mbx =>
      (mbx.setWord (m.buffer n + 6) 1).setWord (m.buffer n + 8) error).setControl n .outreq

/-- `ESC_xoeprocess`. -/
def escXoeprocess : OnMailbox Unit := do
  let m ← get
  when (m.mbxRun ∧ m.xoe = 0 ∧ m.control 0 = .inclaim) do
    if m.mbxtype 0 = 0 ∨ m.headerLength 0 = 0 then
      mbxError mbxerrInvalidheader
    else
      mbxError mbxerrUnsupportedprotocol
    -- mailbox type not supported, drop mailbox
    modify fun m => m.setControl 0 .idle

/-! ## Transfers -/

/-- The part of a message of `length` bytes that fits a SyncManager of length `sml`. -/
def clampLength (sml : Word) (length : ℕ) : ℕ :=
  if sub32 sml.toNat escMbxhsize < length then
    sub32 sml.toNat escMbxhsize % 2 ^ 16
  else length

/-- `ESC_readmbx`. -/
def escReadmbx : Stack σ Unit := do
  let cfg := (← get).mb.activemb0
  let header ← onBus (escRead cfg.sma.toNat escMbxhsize)
  modify fun w => { w with mb := w.mb.updateMbx fun mbx => mbx.copy 0 escMbxhsize header 0 }
  let length := clampLength cfg.sml (header.word 0).toNat
  let body ← onBus (escRead ((cfg.sma.toNat + escMbxhsize) % 2 ^ 16) length)
  modify fun w => { w with mb := w.mb.updateMbx fun mbx => mbx.copy escMbxhsize length body 0 }
  when (length + escMbxhsize < cfg.sml.toNat) do
    let _ ← onBus (escRead cfg.sme.toNat 1)
  modify fun w => { w with mb := w.mb.setControl 0 .inclaim }

/-- `ESC_writembx`. -/
def escWritembx (n : ℕ) : Stack σ Unit := do
  let m := (← get).mb
  let cfg := m.activemb1
  let length := clampLength cfg.sml (m.headerLength n).toNat
  onBus (escWrite cfg.sma.toNat ((escMbxhsize + length) % 2 ^ 16) fun i => m.mbx (m.buffer n + i))
  when (length + escMbxhsize < cfg.sml.toNat) (onBus (escWrite cfg.sme.toNat 1 fun _ => 0))
  modify fun w => { w with mb := { w.mb with mbxfree := false } }

/-- `ESC_ackmbxread`. -/
def escAckmbxread : Stack σ Unit := do
  let cfg := (← get).mb.activemb1
  onBus (escWrite cfg.sma.toNat 1 fun _ => 0)
  modify fun w => { w with mb := { w.mb with mbxfree := true } }

/-- Acknowledge the master's repeat request: `toggle` follows `ECrep`, and `PDIrep` shows it. -/
def ackRepeat : Stack σ Unit := do
  let rep := ((← get).sm.sm 1).ecrep
  modify fun w => { w with mb := { w.mb with toggle := rep } }
  onBus (updateSm 1 fun sm =>
    { sm with actPDI := (sm.actPDI &&& 0xfd) ||| (if rep then 0x02 else 0) })
  onBus (escSMwritepdi 1)

/-! ## The mailbox protocol -/

/-- `ESC_mbxprocess`, the outbox was read by the master. -/
def mbxOutboxRead : Stack σ Bool := do
  escAckmbxread
  -- dispose old backup
  modify fun w => { w with mb :=
    if w.mb.mbxbackup ≠ 0 then w.mb.setControl w.mb.mbxbackup .idle else w.mb }
  let m := (← get).mb
  when (m.control m.mbxoutpost = .again) (escWritembx m.mbxoutpost)
  -- create new backup
  modify fun w => { w with mb :=
    { (w.mb.setControl w.mb.mbxoutpost .backup) with
      mbxbackup := w.mb.mbxoutpost
      mbxoutpost := 0 } }
  -- an ongoing protocol transfer has work to do
  pure (decide ((← get).mb.xoe ≠ 0))

/-- `ESC_mbxprocess`, the master asks for the last message again. -/
def mbxRepeat : Stack σ Bool := do
  let m := (← get).mb
  when (m.mbxoutpost ≠ 0 ∨ m.mbxbackup ≠ 0) do
    if m.mbxoutpost = 0 then
      escWritembx m.mbxbackup
    else
      -- reset mailbox, and resend later
      onBus (escSMdisable 1)
      modify fun w => { w with mb := w.mb.setControl w.mb.mbxoutpost .again }
      onBus (escSMenable 1)
      escWritembx m.mbxbackup
    ackRepeat
  pure false

/-- `ESC_mbxprocess`, post a waiting reply when the outbox is free. -/
def mbxPost : Stack σ Unit := do
  let w ← get
  when (w.mb.txcue ≠ 0 ∧ (w.mb.mbxfree ∨ (w.sm.sm 1).mbxstat = false)) do
    let n := escOutreqbuffer (← ask).opts w.mb
    when (n ≠ 0) do
      escWritembx n
      onBus (escSMstatus 1)
      modify fun w => { w with mb :=
        { (w.mb.setControl n .outpost) with
          mbxoutpost := n
          txcue := if w.mb.txcue ≠ 0 then w.mb.txcue - 1 else w.mb.txcue } }

/-- `ESC_mbxprocess`, read the inbox when it is full and no transfer is in progress. -/
def mbxReceive : Stack σ Bool := do
  let w ← get
  if (w.sm.sm 0).mbxstat ∧ w.mb.control 0 = .idle ∧ w.mb.mbxoutpost = 0 ∧ w.mb.xoe = 0 then
    escReadmbx
    onBus (updateSm 0 fun sm => { sm with status := sm.status &&& 0xf7 })
    let m := (← get).mb
    when (m.headerLength 0 = 0 ∨
        sub32 m.activemb0.sml.toNat escMbxhsize < (m.headerLength 0).toNat) do
      onMailbox (mbxError mbxerrInvalidheader)
      -- drop mailbox
      modify fun w => { w with mb := w.mb.setControl 0 .idle }
    modify fun w => { w with mb :=
      { (if w.mb.headerCnt 0 ≠ 0 ∧ w.mb.headerCnt 0 = w.mb.mbxincnt then
          w.mb.setControl 0 .idle else w.mb) with
        mbxincnt := w.mb.headerCnt 0 } }
    pure true
  else
    pure false

/-- `ESC_mbxprocess`; the result is whether there is something for a protocol to handle. -/
def escMbxprocess : Stack σ Bool := do
  if (← get).mb.mbxRun = false then
    pure false
  else
    when ((← get).alEvent &&& (escregAleventSm0 ||| escregAleventSm1) ≠ 0) do
      onBus (escSMstatus 0)
      onBus (escSMstatus 1)
    let w ← get
    if w.mb.mbxoutpost ≠ 0 ∧ w.alEvent &&& escregAleventSm1 ≠ 0 then
      mbxOutboxRead
    else if (w.sm.sm 1).ecrep ≠ w.mb.toggle then
      mbxRepeat
    else
      mbxPost
      mbxReceive

end Soes
