import Soes.Framework.Bytes
import Soes.Framework.Program
import Soes.Stack.Registers
import Soes.Stack.State

/-!
# The LAN9252 behind SPI

The register access of `hal/linux-lan9252-spidev/esc_hw.c`.  The stack reads and writes the ESC with
`ESC_read` and `ESC_write`; the LAN9252 lets a host do so through 32-bit registers of its own, each
access to which is one transfer of seven bytes on the SPI bus.  A register of the ESC is reached by
a command (`ESC_read_csr`, `ESC_write_csr`), the process RAM by a transfer through a FIFO
(`ESC_read_pram`, `ESC_write_pram`).

Every wait has a deadline.  A wait that misses it, and a bus transfer that fails, latch `hw_fault`,
after which `ESC_read` and `ESC_write` leave the bus alone.

The bus with the chip behind it, and the clock, are not part of the code (`Spi`).  A function that
fills a buffer of its caller is given the buffer's bytes and returns them; the bytes of the buffer
from which the FIFO is served are checked against its size.
-/

namespace Soes

namespace Hal

open Program

variable {χ : Type}

/-! ## The bus -/

/-- The SPI bus and the clock, for a chip with states in `χ`. -/
structure Spi (χ : Type) where
  /-- `SPI_IOC_MESSAGE`, a transfer of some bytes: what is received, `none` if it fails. -/
  xfer : χ → ByteStore → ℕ → Option ByteStore × χ
  /-- `CLOCK_MONOTONIC`, in nanoseconds. -/
  clock : χ → ℕ

/-- What the code is given. -/
structure HalEnv (χ : Type) where
  spi : Spi χ
  timeoutMs : ℕ
  opts : Options

/-- What the code works on. -/
structure HalMem (χ : Type) where
  chip : χ
  hwFault : Bool
  spiFd : ℤ
  alEvent : Dword

/-- What C gives no meaning to. -/
inductive HalFault where
  /-- The buffer for the FIFO is accessed past its end. -/
  | buffer
  deriving DecidableEq, Repr

/-- Code of the HAL. -/
abbrev OnHal (χ α : Type) : Type := Program (HalEnv χ) HalFault (HalMem χ) α

/-- `ESC_CMD_SERIAL_WRITE`. -/
abbrev escCmdSerialWrite : Byte := 0x02
/-- `ESC_CMD_SERIAL_READ`. -/
abbrev escCmdSerialRead : Byte := 0x03
/-- `ESC_PRAM_RD_FIFO_REG`. -/
abbrev escPramRdFifoReg : ℕ := 0x0000
/-- `ESC_PRAM_WR_FIFO_REG`. -/
abbrev escPramWrFifoReg : ℕ := 0x0020
/-- `ESC_PRAM_RD_ADDR_LEN_REG`. -/
abbrev escPramRdAddrLenReg : ℕ := 0x0308
/-- `ESC_PRAM_RD_CMD_REG`. -/
abbrev escPramRdCmdReg : ℕ := 0x030C
/-- `ESC_PRAM_WR_ADDR_LEN_REG`. -/
abbrev escPramWrAddrLenReg : ℕ := 0x0310
/-- `ESC_PRAM_WR_CMD_REG`. -/
abbrev escPramWrCmdReg : ℕ := 0x0314
/-- `ESC_PRAM_CMD_BUSY`. -/
abbrev escPramCmdBusy : Dword := 0x80000000
/-- `ESC_PRAM_CMD_ABORT`. -/
abbrev escPramCmdAbort : Dword := 0x40000000
/-- `ESC_PRAM_CMD_AVAIL`. -/
abbrev escPramCmdAvail : Dword := 0x00000001
/-- `ESC_PRAM_FIFO_MAX`. -/
abbrev escPramFifoMax : ℕ := 32
/-- `ESC_PRAM_BUF_SIZE`. -/
abbrev escPramBufSize : ℕ := 3 + 4 * escPramFifoMax
/-- `ESC_CSR_DATA_REG`. -/
abbrev escCsrDataReg : ℕ := 0x0300
/-- `ESC_CSR_CMD_REG`. -/
abbrev escCsrCmdReg : ℕ := 0x0304
/-- `ESC_CSR_CMD_BUSY`. -/
abbrev escCsrCmdBusy : Dword := 0x80000000
/-- `ESC_CSR_CMD_READ`. -/
abbrev escCsrCmdRead : Dword := 0xC0000000
/-- `ESC_CSR_CMD_WRITE`. -/
abbrev escCsrCmdWrite : Dword := 0x80000000
/-- `FRAME_LEN`. -/
abbrev frameLen : ℕ := 7

/-- `ESC_PRAM_CMD_CNT`. -/
def escPramCmdCnt (value : Dword) : ℕ := ((value >>> 8) &&& 0x1F).toNat

/-- `ESC_PRAM_SIZE` with `ESC_PRAM_ADDR`. -/
def escPramAddrLen (address len : ℕ) : Dword := (BitVec.ofNat 32 len <<< 16) ||| .ofNat 32 address

/-- A command with `ESC_CSR_CMD_SIZE` and an address. -/
def escCsrCmd (cmd : Dword) (len address : ℕ) : Dword :=
  cmd ||| (BitVec.ofNat 32 len <<< 16) ||| .ofNat 32 address

/-- `hw_timeout`. -/
def hwTimeout : OnHal χ Unit := modify fun s => { s with hwFault := true }

/-- `deadline_set`, with `timeout_ms`. -/
def deadlineSet : OnHal χ ℕ :=
  transact fun env s => (env.spi.clock s.chip + env.timeoutMs * 1000000, s)

/-- `deadline_passed`. -/
def deadlinePassed (deadline : ℕ) : OnHal χ Bool :=
  transact fun env s => (decide (deadline < env.spi.clock s.chip), s)

/-- `spi_xfer`: the bytes received, `none` for the result -1. -/
def spiXfer (buf : ByteStore) (len : ℕ) : OnHal χ (Option ByteStore) :=
  transact fun env s =>
    let a := env.spi.xfer s.chip buf len
    (a.1, { s with chip := a.2, hwFault := s.hwFault || a.1.isNone })

/-! ## Frames -/

/-- `frame_read`. -/
def frameRead (address : ℕ) : ByteStore
  | 0 => escCmdSerialRead
  | 1 => .ofNat 8 (address / 256)
  | 2 => .ofNat 8 address
  | _ => 0

/-- `frame_write`. -/
def frameWrite (address : ℕ) (val : Dword) : ByteStore
  | 0 => escCmdSerialWrite
  | 1 => .ofNat 8 (address / 256)
  | 2 => .ofNat 8 address
  | i + 3 => ByteStore.ofDword val i

/-- `frame_value`. -/
def frameValue (f : ByteStore) : Dword := f.dword 3

/-- `lan9252_write_32`. -/
def lan9252Write32 (address : ℕ) (val : Dword) : OnHal χ Unit := do
  let _ ← spiXfer (frameWrite address val) frameLen

/-- `lan9252_read_32`. -/
def lan9252Read32 (address : ℕ) : OnHal χ Dword := do
  let data ← spiXfer (frameRead address) frameLen
  pure (data.elim 0 frameValue)

/-! ## Waiting -/

/-- One round of a wait for a value of a register, with what is returned on a fault. -/
def pollRound (reg : ℕ) (accept : Dword → Bool) (failed : Dword → Dword) (deadline : ℕ) :
    OnHal χ (Unit ⊕ Dword) := do
  let value ← lan9252Read32 reg
  let s ← get
  if s.hwFault then
    pure (.inr (failed value))
  else if accept value then
    pure (.inr value)
  else
    let passed ← deadlinePassed deadline
    if passed then
      hwTimeout
      pure (.inr (failed value))
    else
      pure (.inl ())

/-- Wait for a value of a register. -/
def poll (reg : ℕ) (accept : Dword → Bool) (failed : Dword → Dword) : OnHal χ Dword := do
  let deadline ← deadlineSet
  loop (fun _ => pollRound reg accept failed deadline) ()

/-- `wait_until`. -/
def waitUntil (reg : ℕ) (mask want : Dword) : OnHal χ Dword :=
  poll reg (fun value => value &&& mask = want) id

/-- `pram_wait_fifo`. -/
def pramWaitFifo (reg fifoRange : ℕ) : OnHal χ Dword :=
  poll reg (fun value => value &&& escPramCmdAvail ≠ 0 ∧ fifoRange ≤ escPramCmdCnt value)
    fun _ => 0

/-! ## CSR access -/

/-- `ESC_read_csr`, once the command is given: the busy flag is `busy`, and `value` has been read
without waiting for it. -/
def escReadCsrValue (busy : Bool) (value : Dword) : OnHal χ ByteStore :=
  if busy then do
    let _ ← waitUntil escCsrCmdReg escCsrCmdBusy 0
    let s ← get
    if s.hwFault then
      pure fun _ => 0
    else
      let value ← lan9252Read32 escCsrDataReg
      pure (ByteStore.ofDword value)
  else
    pure (ByteStore.ofDword value)

/-- `ESC_read_csr`: the bytes for the buffer, zeros after a failure. -/
def escReadCsr (address len : ℕ) : OnHal χ ByteStore := do
  let cmd ← spiXfer (frameWrite escCsrCmdReg (escCsrCmd escCsrCmdRead len address)) frameLen
  match cmd with
  | none => pure fun _ => 0
  | some _ =>
      let flag ← spiXfer (frameRead escCsrCmdReg) frameLen
      match flag with
      | none => pure fun _ => 0
      | some f =>
          let data ← spiXfer (frameRead escCsrDataReg) frameLen
          match data with
          | none => pure fun _ => 0
          | some f' =>
              escReadCsrValue (frameValue f &&& escCsrCmdBusy ≠ 0) (frameValue f')

/-- `ESC_write_csr`, of `len` bytes of `buf` from `pos` on. -/
def escWriteCsr (address : ℕ) (buf : ByteStore) (pos len : ℕ) : OnHal χ Unit := do
  let value := (ByteStore.copy (fun _ => 0) 0 len buf pos).dword 0
  let data ← spiXfer (frameWrite escCsrDataReg value) frameLen
  when data.isSome do
    let cmd ← spiXfer (frameWrite escCsrCmdReg (escCsrCmd escCsrCmdWrite len address)) frameLen
    when cmd.isSome do
      let flag ← spiXfer (frameRead escCsrCmdReg) frameLen
      match flag with
      | none => pure ()
      | some f =>
          when (frameValue f &&& escCsrCmdBusy ≠ 0) do
            let _ ← waitUntil escCsrCmdReg escCsrCmdBusy 0

/-- `csr_chunk_size`. -/
def csrChunkSize (address len : ℕ) : ℕ :=
  let size := if 4 < len then 4 else len
  if address % 2 = 1 then 1
  else if address / 2 % 2 = 1 then (if size % 2 = 1 then 1 else 2)
  else if size = 3 then 1
  else size

/-- The variables of the loops over chunks: the address, what is left, how much of the buffer is
done, and the buffer. -/
structure CsrTransfer where
  address : ℕ
  len : ℕ
  /-- `temp_buf`, as an offset. -/
  pos : ℕ
  buf : ByteStore

/-- The variables after a chunk of `size` bytes. -/
def CsrTransfer.advance (t : CsrTransfer) (size : ℕ) : CsrTransfer :=
  { t with
    address := (t.address + size) % 65536
    len := t.len - size
    pos := t.pos + size }

/-- One round of the loop in `ESC_read`. -/
def csrReadRound (t : CsrTransfer) : OnHal χ (CsrTransfer ⊕ ByteStore) :=
  if t.len = 0 then pure (.inr t.buf)
  else do
    let size := csrChunkSize t.address t.len
    let bytes ← escReadCsr t.address size
    pure (.inl { t.advance size with buf := t.buf.copy t.pos size bytes 0 })

/-- One round of the loop in `ESC_write`. -/
def csrWriteRound (t : CsrTransfer) : OnHal χ (CsrTransfer ⊕ Unit) :=
  if t.len = 0 then pure (.inr ())
  else do
    let size := csrChunkSize t.address t.len
    escWriteCsr t.address t.buf t.pos size
    pure (.inl (t.advance size))

/-! ## Process RAM access -/

/-- `pram_fifo_range`. -/
def pramFifoRange (len byteOffset firstBytePosition : ℕ) : ℕ :=
  let total := if 0 < byteOffset then len else len + firstBytePosition
  min (if total % 4 ≠ 0 then total / 4 + 1 else total / 4) 16

/-- The variables of the loops over the FIFO: the buffer, what is left, and how much is done. -/
structure PramTransfer where
  buf : ByteStore
  len : ℕ
  byteOffset : ℕ

namespace PramTransfer

variable (t : PramTransfer) (firstBytePosition : ℕ)

/-- `temp_len`, the number of bytes of the next word. -/
def tempLen : ℕ :=
  if 0 < t.byteOffset then (if 4 < t.len then 4 else t.len)
  else if 4 - firstBytePosition < t.len then 4 - firstBytePosition else t.len

/-- The variables after a word. -/
def advance : PramTransfer :=
  { t with
    len := t.len - t.tempLen firstBytePosition
    byteOffset := t.byteOffset + t.tempLen firstBytePosition }

/-- The bytes of a word are copied to the buffer. -/
def takeWord (value : ByteStore) : ByteStore :=
  if 0 < t.byteOffset then t.buf.copy t.byteOffset (t.tempLen firstBytePosition) value 0
  else t.buf.copy 0 (t.tempLen firstBytePosition) value firstBytePosition

/-- The bytes of a word, from the buffer. -/
def nextWord : ByteStore :=
  if 0 < t.byteOffset then
    ByteStore.copy (fun _ => 0) 0 (t.tempLen firstBytePosition) t.buf t.byteOffset
  else ByteStore.copy (fun _ => 0) firstBytePosition (t.tempLen firstBytePosition) t.buf 0

end PramTransfer

/-- The inner loop of `ESC_read_pram`: `fifo_cnt` words, from byte `i` of `buffer` on. -/
def takeWords (firstBytePosition : ℕ) (buffer : ByteStore) :
    ℕ → ℕ → PramTransfer → Except HalFault PramTransfer
  | 0, _, t => .ok t
  | fifoCnt + 1, i, t =>
      if t.len = 0 then .ok t
      else if escPramBufSize < i + 4 then .error .buffer
      else takeWords firstBytePosition buffer fifoCnt (i + 4)
        { t.advance firstBytePosition with
          buf := t.takeWord firstBytePosition (buffer.shift i) }

/-- The inner loop of `ESC_write_pram`: `fifo_cnt` words, to byte `i` of `buffer` on. -/
def putWords (firstBytePosition : ℕ) :
    ℕ → ℕ → PramTransfer × ByteStore → Except HalFault (PramTransfer × ByteStore)
  | 0, _, x => .ok x
  | fifoCnt + 1, i, (t, buffer) =>
      if t.len = 0 then .ok (t, buffer)
      else if escPramBufSize < i + 4 then .error .buffer
      else putWords firstBytePosition fifoCnt (i + 4)
        (t.advance firstBytePosition, buffer.copy i 4 (t.nextWord firstBytePosition) 0)

/-- The number of words in the FIFO, and the size of the bus transfer for them. -/
def fifoSize (value : Dword) : ℕ := min (escPramCmdCnt value) escPramFifoMax

/-- `buffer` before a FIFO is served: zeros behind a command for the FIFO. -/
def fifoCommand (cmd : Byte) (fifo size : ℕ) : Except HalFault ByteStore :=
  if escPramBufSize < size then .error .buffer
  else .ok fun i => if i = 0 then cmd else if i = 1 then .ofNat 8 (fifo / 256)
    else if i = 2 then .ofNat 8 fifo else 0

/-- The start of a process RAM transfer: what is in progress is given up, and a transfer of `len`
bytes at `address` is programmed.  Whether there was no fault until it was programmed. -/
def pramStart (cmdReg addrLenReg address len : ℕ) : OnHal χ Bool := do
  lan9252Write32 cmdReg escPramCmdAbort
  let _ ← waitUntil cmdReg escPramCmdBusy 0
  let s ← get
  if s.hwFault then
    pure false
  else
    lan9252Write32 addrLenReg (escPramAddrLen address len)
    lan9252Write32 cmdReg escPramCmdBusy
    pure true

/-- One round of the outer loop of `ESC_read_pram`. -/
def pramReadRound (firstBytePosition : ℕ) (t : PramTransfer) :
    OnHal χ (PramTransfer ⊕ ByteStore) :=
  if t.len = 0 then pure (.inr t.buf)
  else do
    let value ← pramWaitFifo escPramRdCmdReg (pramFifoRange t.len t.byteOffset firstBytePosition)
    let s ← get
    if s.hwFault then
      pure (.inr t.buf)
    else
      let size := 3 + 4 * fifoSize value
      let buffer ← lift (fifoCommand escCmdSerialRead escPramRdFifoReg size)
      let data ← spiXfer buffer size
      match data with
      | none => pure (.inr t.buf)
      | some data => .inl <$> lift (takeWords firstBytePosition data (fifoSize value) 3 t)

/-- `ESC_read_pram`: the buffer afterwards. -/
def escReadPram (address : ℕ) (buf : ByteStore) (len : ℕ) : OnHal χ ByteStore := do
  let started ← pramStart escPramRdCmdReg escPramRdAddrLenReg address len
  if started then
    loop (pramReadRound (address % 4)) ⟨buf, len, 0⟩
  else
    pure buf

/-- One round of the outer loop of `ESC_write_pram`. -/
def pramWriteRound (firstBytePosition : ℕ) (t : PramTransfer) : OnHal χ (PramTransfer ⊕ Unit) :=
  if t.len = 0 then pure (.inr ())
  else do
    let value ← pramWaitFifo escPramWrCmdReg (pramFifoRange t.len t.byteOffset firstBytePosition)
    let s ← get
    if s.hwFault then
      pure (.inr ())
    else
      let size := 3 + 4 * fifoSize value
      let buffer ← lift (fifoCommand escCmdSerialWrite escPramWrFifoReg size)
      let x ← lift (putWords firstBytePosition (fifoSize value) 3 (t, buffer))
      let data ← spiXfer x.2 size
      match data with
      | none => pure (.inr ())
      | some _ => pure (.inl x.1)

/-- `ESC_write_pram`. -/
def escWritePram (address : ℕ) (buf : ByteStore) (len : ℕ) : OnHal χ Unit := do
  let started ← pramStart escPramWrCmdReg escPramWrAddrLenReg address len
  when started <| loop (pramWriteRound (address % 4)) ⟨buf, len, 0⟩

/-! ## Stack entry points -/

/-- `alevent_tail_needed`. -/
def aleventTailNeeded (opts : Options) (address : ℕ) : Bool :=
  !(address = escregAlevent ∨ address = escregWdstatus ∨ address = opts.sm2Sma.toNat ∨
    address = opts.sm3Sma.toNat)

/-- The AL event register is read behind an access that needs it. -/
def aleventTail (address : ℕ) : OnHal χ Unit := do
  let env ← ask
  when (aleventTailNeeded env.opts address) do
    let bytes ← escReadCsr escregAlevent 4
    modify fun s => { s with alEvent := bytes.dword 0 }

/-- `ESC_read`, the access itself. -/
def escReadBytes (address : ℕ) (buf : ByteStore) (len : ℕ) : OnHal χ ByteStore :=
  if 0x1000 ≤ address then escReadPram address buf len
  else loop csrReadRound ⟨address, len, 0, buf⟩

/-- `ESC_read`, what follows the access: the AL event register is in the buffer already, or it is
read behind. -/
def escReadTail (address : ℕ) (buf : ByteStore) (len : ℕ) : OnHal χ Unit :=
  if address = escregAlevent ∧ 4 ≤ len then modify fun s => { s with alEvent := buf.dword 0 }
  else aleventTail address

/-- `ESC_read`: the buffer afterwards. -/
def escRead (address : ℕ) (buf : ByteStore) (len : ℕ) : OnHal χ ByteStore := do
  let s ← get
  if s.hwFault = true ∨ s.spiFd < 0 then
    pure (buf.fill 0 len 0)
  else
    let buf ← escReadBytes address buf len
    escReadTail address buf len
    pure buf

/-- `ESC_write`, the access itself. -/
def escWriteBytes (address : ℕ) (buf : ByteStore) (len : ℕ) : OnHal χ Unit :=
  if 0x1000 ≤ address then escWritePram address buf len
  else loop csrWriteRound ⟨address, len, 0, buf⟩

/-- `ESC_write`. -/
def escWrite (address : ℕ) (buf : ByteStore) (len : ℕ) : OnHal χ Unit := do
  let s ← get
  when (¬ (s.hwFault = true ∨ s.spiFd < 0)) do
    escWriteBytes address buf len
    aleventTail address

end Hal

end Soes
