import Soes.Properties.CsrAccess
import Soes.Properties.FifoWords

/-!
# Process RAM access

A transfer of the process RAM is programmed with an address and a length, and then moves through a
FIFO in words of four bytes.  The chip decides how many words there are at a time; the code waits
for 16, or for all that are left, and takes as many as are reported.  `PramReader` and `PramWriter`
are what it relies on: a chip that gives, or takes, the words from the one with the first byte on,
and has no use for the bytes outside the transfer.

On such a chip a read returns the bytes of the process RAM and a write changes these bytes and no
others, whatever counts are reported (`pram_access`).  The loops end, the words that are waited for
are those that the chip has left, up to 16, and the buffer on the stack is large enough: an access
past its end would be a fault.
-/

namespace Soes

namespace Hal

open Program ByteStore PramTransfer

variable {χ : Type} {env : HalEnv χ} {k : ℕ} {s : HalMem χ}

/-! ## The chip -/

/-- The directions of a transfer. -/
inductive PramDir where
  /-- The host reads. -/
  | read
  /-- The host writes. -/
  | write
  deriving DecidableEq, Repr

namespace PramDir

/-- The command register. -/
def cmdReg : PramDir → ℕ
  | read => escPramRdCmdReg
  | write => escPramWrCmdReg

/-- The register for address and length. -/
def addrLenReg : PramDir → ℕ
  | read => escPramRdAddrLenReg
  | write => escPramWrAddrLenReg

/-- The FIFO. -/
def fifoReg : PramDir → ℕ
  | read => escPramRdFifoReg
  | write => escPramWrFifoReg

/-- The command of the bus for the FIFO. -/
def fifoCmd : PramDir → Byte
  | read => escCmdSerialRead
  | write => escCmdSerialWrite

end PramDir

/-- How far a transfer is. -/
inductive PramState where
  /-- It is given up. -/
  | aborting
  /-- There is none. -/
  | idle
  /-- Its address and its length are known. -/
  | programmed (address len : ℕ)
  /-- Some words have been moved, and some are ready in the FIFO. -/
  | moving (address len moved ready : ℕ)
  deriving DecidableEq, Repr

/-- The number of words that a transfer has. -/
def pramWords (address len : ℕ) : ℕ := (len + address % 4 + 3) / 4

/-- The address of a word. -/
def pramWordAt (address n : ℕ) : ℕ := address / 4 * 4 + 4 * n

/-- The process RAM behind the LAN9252, with the transfers of one direction. -/
structure PramView where
  ram : ByteStore
  state : PramState

lemma PramView.eq_mk {v : PramView} {ram : ByteStore} {state : PramState} (hram : v.ram = ram)
    (hstate : v.state = state) : v = ⟨ram, state⟩ := by
  rw [← hram, ← hstate]

/-- The words that the chip has left. -/
def PramView.wordsLeft (v : PramView) : ℕ :=
  match v.state with
  | .moving address len moved _ => pramWords address len - moved
  | _ => 0

/-- The FIFO has been reported to have this many words, or more. -/
def Reported (value : Dword) (n : ℕ) : Prop :=
  value &&& escPramCmdAvail ≠ 0 ∧ n ≤ escPramCmdCnt value

instance (value : Dword) (n : ℕ) : Decidable (Reported value n) :=
  inferInstanceAs (Decidable (_ ∧ _))

/-- The bytes of a command for a FIFO. -/
structure FifoHeader (cmd : Byte) (fifo : ℕ) (b : ByteStore) : Prop where
  cmd : b 0 = cmd
  high : b 1 = .ofNat 8 (fifo / 256)
  low : b 2 = .ofNat 8 fifo

/-- A chip with transfers of the process RAM, which is never late by more than the timeout. -/
structure PramChip (spi : Spi χ) (timeout : ℕ) (dir : PramDir) where
  view : χ → PramView
  /-- When what is waited for is there, at the latest. -/
  due : χ → ℕ
  prompt : ∀ c, due c ≤ spi.clock c + timeout
  abort : ∀ c, Answered spi c (frameWrite dir.cmdReg escPramCmdAbort) frameLen fun _ c' =>
    view c' = ⟨(view c).ram, .aborting⟩
  /-- It is given up once the command register is not busy. -/
  aborted : ∀ c, (view c).state = .aborting →
    Answered spi c (frameRead dir.cmdReg) frameLen fun f c' =>
      (view c').ram = (view c).ram ∧ due c' ≤ due c ∧ spi.clock c < spi.clock c' ∧
        (frameValue f &&& escPramCmdBusy = 0 → (view c').state = .idle) ∧
        (frameValue f &&& escPramCmdBusy ≠ 0 →
          (view c').state = .aborting ∧ spi.clock c' < due c')
  program : ∀ c address len, (view c).state = .idle → address < 65536 → len < 65536 →
    Answered spi c (frameWrite dir.addrLenReg (escPramAddrLen address len)) frameLen fun _ c' =>
      view c' = ⟨(view c).ram, .programmed address len⟩
  start : ∀ c address len, (view c).state = .programmed address len →
    Answered spi c (frameWrite dir.cmdReg escPramCmdBusy) frameLen fun _ c' =>
      view c' = ⟨(view c).ram, .moving address len 0 0⟩
  /-- The FIFO is reported, with any number of words, but with 16 or all that are left in
  time. -/
  report : ∀ c address len moved ready, (view c).state = .moving address len moved ready →
    moved < pramWords address len →
    Answered spi c (frameRead dir.cmdReg) frameLen fun f c' =>
      (view c').ram = (view c).ram ∧ due c' ≤ due c ∧ spi.clock c < spi.clock c' ∧
        (∃ ready', (view c').state = .moving address len moved ready' ∧
          ∀ n, Reported (frameValue f) n → ready' = escPramCmdCnt (frameValue f)) ∧
        (¬ Reported (frameValue f) (min 16 (pramWords address len - moved)) →
          spi.clock c' < due c')

/-- A chip that streams the words of the transfer; of the last ones, and of words behind them,
only the bytes of the transfer are known. -/
structure PramReader (spi : Spi χ) (timeout : ℕ) extends PramChip spi timeout .read where
  fifo : ∀ c address len moved ready n b, (view c).state = .moving address len moved ready →
    n ≤ ready → FifoHeader escCmdSerialRead escPramRdFifoReg b →
    Answered spi c b (3 + 4 * n) fun f c' =>
      view c' = ⟨(view c).ram, .moving address len (moved + n) (ready - n)⟩ ∧
        ∀ i < 4 * n, pramWordAt address moved + i < address + len →
          f (3 + i) = (view c).ram (pramWordAt address moved + i)

/-- The process RAM after `n` words of a transfer, from byte 3 of `b` on: the bytes of the transfer
are stored. -/
def storeWords (ram : ByteStore) (address len moved n : ℕ) (b : ByteStore) : ByteStore := fun x =>
  if (address ≤ x ∧ x < address + len) ∧ pramWordAt address moved ≤ x ∧
      x < pramWordAt address moved + 4 * n then b (3 + (x - pramWordAt address moved))
  else ram x

/-- A chip that takes the words of the transfer, and ignores words behind them. -/
structure PramWriter (spi : Spi χ) (timeout : ℕ) extends PramChip spi timeout .write where
  fifo : ∀ c address len moved ready n b, (view c).state = .moving address len moved ready →
    n ≤ ready → FifoHeader escCmdSerialWrite escPramWrFifoReg b →
    Answered spi c b (3 + 4 * n) fun _ c' =>
      view c' = ⟨storeWords (view c).ram address len moved n b,
        .moving address len (moved + n) (ready - n)⟩

/-! ## Words -/

/-- The variables of the loops when some words of a transfer have been moved. -/
structure PramTransfer.At (address len moved : ℕ) (t : PramTransfer) : Prop where
  total : t.len + t.byteOffset = len
  place : t.len ≠ 0 → 4 * moved + t.lane (address % 4) = t.byteOffset + address % 4
  last : t.len = 0 → len ≠ 0 → len + address % 4 ≤ 4 * moved

section words

variable {address len moved n i : ℕ} {t t' : PramTransfer} {ram data buffer buf : ByteStore}

lemma PramTransfer.At.start (buf : ByteStore) : At address len 0 ⟨buf, len, 0⟩ :=
  ⟨rfl, fun _ => by rw [lane, if_neg (Nat.lt_irrefl 0), Nat.mul_zero],
    fun hzero hlen => absurd hzero hlen⟩

/-- The words that the chip has left are those that the code has left. -/
lemma PramTransfer.At.wordsLeft_eq (h : t.At address len moved) (hlen : t.len ≠ 0) :
    t.wordsLeft (address % 4) = pramWords address len - moved := by
  have htotal := h.total
  have hplace := h.place hlen
  rw [wordsLeft, if_neg hlen, pramWords]
  omega

/-- One word further. -/
lemma PramTransfer.At.advance (h : t.At address len moved) (hlen : t.len ≠ 0) :
    (t.advance (address % 4)).At address len (moved + 1) := by
  have hfirst : address % 4 < 4 := Nat.mod_lt _ (by decide)
  have hlane := lane_lt (t := t) hfirst
  have htemp := @tempLen_eq t (address % 4)
  have hpos := tempLen_pos hfirst hlen
  have htotal := h.total
  have hplace := h.place hlen
  have hlen' : (t.advance (address % 4)).len = t.len - t.tempLen (address % 4) := rfl
  have hoff' : (t.advance (address % 4)).byteOffset =
      t.byteOffset + t.tempLen (address % 4) := rfl
  have hlane' : (t.advance (address % 4)).lane (address % 4) = 0 := if_pos (by omega)
  refine ⟨?_, fun _ => ?_, fun _ _ => ?_⟩
  · omega
  · omega
  · omega

/-- A byte of the next word is one of the buffer. -/
lemma PramTransfer.At.byte_at (h : t.At address len moved) (hlen : t.len ≠ 0) :
    pramWordAt address moved + t.lane (address % 4) = address + t.byteOffset := by
  have hplace := h.place hlen
  rw [pramWordAt]
  omega

/-- The words of a FIFO are the bytes of the transfer. -/
lemma takeWords_reads (h : t.At address len moved)
    (hdata : ∀ j < 4 * n, pramWordAt address moved + j < address + len →
      data (i + j) = ram (pramWordAt address moved + j))
    (hbuf : t.buf = buf.copy 0 t.byteOffset ram address)
    (htake : takeWords (address % 4) data n i t = .ok t') :
    t'.At address len (moved + n) ∧ t'.buf = buf.copy 0 t'.byteOffset ram address := by
  have hfirst : address % 4 < 4 := Nat.mod_lt _ (by decide)
  induction n generalizing i t moved with
  | zero =>
      cases htake
      exact ⟨h, hbuf⟩
  | succ n ih =>
      rw [takeWords] at htake
      by_cases hlen : t.len = 0
      · rw [if_pos hlen] at htake
        cases htake
        refine ⟨⟨h.total, fun hne => absurd hlen hne, fun hzero hne => ?_⟩, hbuf⟩
        have hlast := h.last hzero hne
        omega
      · rw [if_neg hlen] at htake
        by_cases hsize : escPramBufSize < i + 4
        · rw [if_pos hsize] at htake
          cases htake
        · rw [if_neg hsize] at htake
          have hnext := h.advance hlen
          have hword : pramWordAt address (moved + 1) = pramWordAt address moved + 4 := by
            rw [pramWordAt, pramWordAt]
            omega
          have hat : At address len (moved + 1) { t.advance (address % 4) with
              buf := t.takeWord (address % 4) (data.shift i) } :=
            ⟨hnext.total, hnext.place, hnext.last⟩
          have hrest (j : ℕ) (hj : j < 4 * n)
              (hin : pramWordAt address (moved + 1) + j < address + len) :
              data (i + 4 + j) = ram (pramWordAt address (moved + 1) + j) := by
            rw [hword] at hin ⊢
            have hbyte := hdata (4 + j) (by omega) (by omega)
            rw [← Nat.add_assoc, ← Nat.add_assoc] at hbyte
            exact hbyte
          have hcopied : t.takeWord (address % 4) (data.shift i) = buf.copy 0
              (t.byteOffset + t.tempLen (address % 4)) ram address := by
            have hlane := lane_lt (t := t) hfirst
            have htemp := @tempLen_eq t (address % 4)
            have hplace := h.byte_at hlen
            have htotal := h.total
            have hcopy := @copy_copy buf ram 0 address t.byteOffset (t.tempLen (address % 4))
            rw [Nat.zero_add] at hcopy
            rw [takeWord_eq, ← hcopy, hbuf]
            refine copy_congr fun d hd => ?_
            have hbyte := hdata (t.lane (address % 4) + d) (by omega) (by omega)
            rw [← Nat.add_assoc (pramWordAt address moved), hplace] at hbyte
            exact hbyte
          obtain ⟨hat', hbuf'⟩ := ih hat hrest hcopied htake
          refine ⟨?_, hbuf'⟩
          rw [← Nat.add_assoc, Nat.add_right_comm]
          exact hat'

/-- The words for a FIFO are the bytes of the buffer. -/
lemma putWords_writes {x : PramTransfer × ByteStore} (h : t.At address len moved)
    (hput : putWords (address % 4) n i (t, buffer) = .ok x) :
    x.1.At address len (moved + n) ∧ x.1.buf = t.buf ∧ (∀ j < i, x.2 j = buffer j) ∧
      ∀ j < 4 * n, address ≤ pramWordAt address moved + j →
        pramWordAt address moved + j < address + len →
          x.2 (i + j) = t.buf (pramWordAt address moved + j - address) := by
  have hfirst : address % 4 < 4 := Nat.mod_lt _ (by decide)
  induction n generalizing i t buffer moved with
  | zero =>
      cases hput
      exact ⟨h, rfl, fun _ _ => rfl, fun j hj => absurd hj (Nat.not_lt_zero _)⟩
  | succ n ih =>
      rw [putWords] at hput
      by_cases hlen : t.len = 0
      · rw [if_pos hlen] at hput
        cases hput
        refine ⟨⟨h.total, fun hne => absurd hlen hne, fun hzero hne => ?_⟩, rfl, fun _ _ => rfl,
          fun j _ hle hin => ?_⟩
        · have hlast := h.last hzero hne
          omega
        · have hlast := h.last hlen
          rw [pramWordAt] at hle hin
          omega
      · rw [if_neg hlen] at hput
        by_cases hsize : escPramBufSize < i + 4
        · rw [if_pos hsize] at hput
          cases hput
        · rw [if_neg hsize] at hput
          have hword : pramWordAt address (moved + 1) = pramWordAt address moved + 4 := by
            rw [pramWordAt, pramWordAt]
            omega
          obtain ⟨hat, hbuf, hkept, hbytes⟩ := ih (h.advance hlen) hput
          refine ⟨?_, hbuf, fun j hj => ?_, fun j hj hle hin => ?_⟩
          · rw [← Nat.add_assoc, Nat.add_right_comm]
            exact hat
          · rw [hkept j (by omega)]
            exact copy_of_outside (.inl hj)
          · by_cases hfirst4 : j < 4
            · have hlane := lane_lt (t := t) hfirst
              have htemp := @tempLen_eq t (address % 4)
              have hplace := h.byte_at hlen
              have htotal := h.total
              have hlater : 0 < t.byteOffset → t.lane (address % 4) = 0 := fun hoff => if_pos hoff
              rw [hkept _ (by omega)]
              have hin' : i ≤ i + j ∧ i + j < i + 4 := ⟨by omega, by omega⟩
              refine (if_pos hin').trans ?_
              have hword' : t.lane (address % 4) ≤ 0 + (i + j - i) ∧
                  0 + (i + j - i) < t.lane (address % 4) + t.tempLen (address % 4) :=
                ⟨by omega, by omega⟩
              rw [nextWord_eq]
              refine (if_pos hword').trans (congrArg t.buf ?_)
              omega
            · have hbyte := hbytes (j - 4) (by omega) (by omega) (by omega)
              rw [hword] at hbyte
              rw [show i + j = i + 4 + (j - 4) by omega, hbyte]
              refine congrArg t.buf ?_
              omega

end words

/-! ## The loops -/

section chip

variable {dir : PramDir}

/-- A transfer is started. -/
lemma PramChip.wp_pramStart (chip : PramChip env.spi env.timeout dir) {address len : ℕ}
    {ram : ByteStore} (hs : s.hwFault = false) (hram : (chip.view s.chip).ram = ram)
    (haddress : address < 65536) (hlen : len < 65536) (hk : env.timeout < k) :
    wp env k (pramStart dir.cmdReg dir.addrLenReg address len) (fun started s' => started = true ∧
      chip.view s'.chip = ⟨ram, .moving address len 0 0⟩ ∧ Usable s s') s := by
  rw [pramStart, wp_bind]
  refine wp_lan9252Write32 (chip.abort _) fun f₁ c₁ h₁ => ?_
  rw [hram] at h₁
  rw [wp_bind]
  have husable₁ : Usable s { s with chip := c₁ } := (Usable.refl hs).withChip c₁
  have hwait : wp env k (waitUntil dir.cmdReg escPramCmdBusy 0) (fun value s' =>
      decide (value &&& escPramCmdBusy = 0) = true ∧ chip.view s'.chip = ⟨ram, .idle⟩ ∧
        Usable { s with chip := c₁ } s') { s with chip := c₁ } := by
    refine wp_poll (fun c => chip.view c = ⟨ram, .aborting⟩)
      (fun _ c => chip.view c = ⟨ram, .idle⟩) chip.due hs h₁ (chip.prompt _) hk ?_
    intro c hc
    have hstate : (chip.view c).state = .aborting := by rw [hc]
    obtain ⟨f, c', hxfer, hsame, hdue, hclock, hdone, hbusy⟩ := chip.aborted c hstate
    rw [hc] at hsame
    refine ⟨f, c', hxfer, hdue, hclock, fun haccept => ?_, fun haccept => ?_⟩
    · exact PramView.eq_mk hsame (hdone (of_decide_eq_true haccept))
    · obtain ⟨hstate', hbefore⟩ := hbusy (of_decide_eq_false haccept)
      exact ⟨PramView.eq_mk hsame hstate', hbefore⟩
  refine hwait.mono fun value s₂ hthen => ?_
  obtain ⟨_, h₂, husable₂⟩ := hthen
  have hidle : (chip.view s₂.chip).state = .idle := by rw [h₂]
  rw [wp_get_bind, if_neg (by rw [husable₂.hwFault]; exact Bool.false_ne_true), wp_bind]
  refine wp_lan9252Write32 (chip.program _ _ _ hidle haddress hlen) fun f₃ c₃ h₃ => ?_
  rw [h₂] at h₃
  have hprogrammed : (chip.view c₃).state = .programmed address len := by rw [h₃]
  rw [wp_bind]
  refine wp_lan9252Write32 (chip.start _ _ _ hprogrammed) fun f₄ c₄ h₄ => ?_
  rw [h₃] at h₄
  rw [wp_pure]
  exact ⟨rfl, h₄, ((husable₁.trans husable₂).withChip c₃).withChip c₄⟩

/-- The wait for the FIFO ends with a report of as many words as are asked for. -/
lemma PramChip.wp_pramWaitFifo (chip : PramChip env.spi env.timeout dir)
    {address len moved ready range : ℕ} {ram : ByteStore} (hs : s.hwFault = false)
    (hview : chip.view s.chip = ⟨ram, .moving address len moved ready⟩)
    (hmoved : moved < pramWords address len)
    (hrange : range = min 16 (pramWords address len - moved)) (hk : env.timeout < k) :
    wp env k (pramWaitFifo dir.cmdReg range) (fun value s' => range ≤ fifoSize value ∧
      chip.view s'.chip = ⟨ram, .moving address len moved (fifoSize value)⟩ ∧ Usable s s') s := by
  have hwait : wp env k (pramWaitFifo dir.cmdReg range) (fun value s' =>
      decide (value &&& escPramCmdAvail ≠ 0 ∧ range ≤ escPramCmdCnt value) = true ∧
        chip.view s'.chip = ⟨ram, .moving address len moved (escPramCmdCnt value)⟩ ∧
          Usable s s') s := by
    refine wp_poll (fun c => ∃ ready, chip.view c = ⟨ram, .moving address len moved ready⟩)
      (fun value c => chip.view c = ⟨ram, .moving address len moved (escPramCmdCnt value)⟩)
      chip.due hs ⟨ready, hview⟩ (chip.prompt _) hk ?_
    intro c ⟨ready₁, hc⟩
    have hstate : (chip.view c).state = .moving address len moved ready₁ := by rw [hc]
    obtain ⟨f, c', hxfer, hsame, hdue, hclock, ⟨ready₂, hstate₂, hready⟩, hbusy⟩ :=
      chip.report c _ _ _ _ hstate hmoved
    rw [hc] at hsame
    refine ⟨f, c', hxfer, hdue, hclock, fun haccept => ?_, fun haccept => ?_⟩
    · rw [hready _ (of_decide_eq_true haccept)] at hstate₂
      exact PramView.eq_mk hsame hstate₂
    · rw [hrange] at haccept
      exact ⟨⟨ready₂, PramView.eq_mk hsame hstate₂⟩, hbusy (of_decide_eq_false haccept)⟩
  refine hwait.mono fun value s' ⟨haccept, hview', husable⟩ => ?_
  rw [fifoSize_eq]
  exact ⟨(of_decide_eq_true haccept).2, hview', husable⟩

end chip

section loops

variable {address len : ℕ} {buf ram : ByteStore} {t : PramTransfer} {s₁ : HalMem χ}

/-- Where `ESC_read_pram` is at the start of a round: what has been moved is in the buffer. -/
def PramReader.Reads (chip : PramReader env.spi env.timeout) (address len : ℕ)
    (buf ram : ByteStore) (s : HalMem χ) (t : PramTransfer) (s' : HalMem χ) : Prop :=
  ∃ moved ready, t.At address len moved ∧ t.buf = buf.copy 0 t.byteOffset ram address ∧
    chip.view s'.chip = ⟨ram, .moving address len moved ready⟩ ∧ Usable s s'

/-- Where `ESC_write_pram` is: what has been moved is in the process RAM. -/
def PramWriter.Writes (chip : PramWriter env.spi env.timeout) (address len : ℕ)
    (buf ram : ByteStore) (s : HalMem χ) (t : PramTransfer) (s' : HalMem χ) : Prop :=
  ∃ moved ready, t.At address len moved ∧ t.buf = buf ∧ chip.view s'.chip =
    ⟨ram.copy address t.byteOffset buf 0, .moving address len moved ready⟩ ∧ Usable s s'

/-- The words asked for are those that the chip has left, up to 16. -/
lemma PramTransfer.At.range_eq {moved ready : ℕ} (h : t.At address len moved) (hlen : t.len ≠ 0) :
    pramFifoRange t.len t.byteOffset (address % 4) =
      min 16 (PramView.wordsLeft ⟨ram, .moving address len moved ready⟩) := by
  rw [pramFifoRange_eq hlen, h.wordsLeft_eq hlen]
  rfl

/-- The chip has stored what the code has moved. -/
lemma storeWords_eq {moved n : ℕ} {t' : PramTransfer} {b : ByteStore} (h : t.At address len moved)
    (h' : t'.At address len (moved + n)) (hlen : t.len ≠ 0) (hn : 0 < n)
    (hbytes : ∀ j < 4 * n, address ≤ pramWordAt address moved + j →
      pramWordAt address moved + j < address + len →
        b (3 + j) = buf (pramWordAt address moved + j - address)) :
    storeWords (ram.copy address t.byteOffset buf 0) address len moved n b =
      ram.copy address t'.byteOffset buf 0 := by
  have hfirst : address % 4 < 4 := Nat.mod_lt _ (by decide)
  have hlane := lane_lt (t := t) hfirst
  have hplace := h.byte_at hlen
  have htotal := h.total
  have htotal' := h'.total
  have hword : pramWordAt address (moved + n) = pramWordAt address moved + 4 * n := by
    rw [pramWordAt, pramWordAt]
    omega
  -- the words end where the code goes on, or behind the transfer
  have hend : (t'.byteOffset = 0 ∨ address + t'.byteOffset ≤ pramWordAt address moved + 4 * n) ∧
      (pramWordAt address moved + 4 * n ≤ address + t'.byteOffset ∨ t'.byteOffset = len) := by
    by_cases hlen' : t'.len = 0
    · have hlast := h'.last hlen' (by omega)
      have hstart : pramWordAt address moved + 4 * n + address % 4 =
          address + 4 * (moved + n) := by
        rw [pramWordAt]
        omega
      exact ⟨.inr (by omega), .inr (by omega)⟩
    · have hplace' := h'.byte_at hlen'
      have hlater : 0 < t'.byteOffset → t'.lane (address % 4) = 0 := fun hoff => if_pos hoff
      rw [hword] at hplace'
      exact ⟨by omega, by omega⟩
  funext x
  rw [storeWords]
  by_cases hin : (address ≤ x ∧ x < address + len) ∧ pramWordAt address moved ≤ x ∧
      x < pramWordAt address moved + 4 * n
  · have hbyte := hbytes (x - pramWordAt address moved) (by omega) (by omega) (by omega)
    have hcopy : address ≤ x ∧ x < address + t'.byteOffset := by omega
    have hstored : ram.copy address t'.byteOffset buf 0 x = buf (0 + (x - address)) := if_pos hcopy
    rw [if_pos hin, hbyte, hstored]
    refine congrArg buf ?_
    omega
  · rw [if_neg hin]
    simp only [ByteStore.copy]
    by_cases hmoved : address ≤ x ∧ x < address + t.byteOffset
    · rw [if_pos hmoved, if_pos (by omega)]
    · rw [if_neg hmoved, if_neg (by omega)]

/-- One round of `ESC_read_pram`. -/
lemma PramReader.wp_round (chip : PramReader env.spi env.timeout)
    (h : chip.Reads address len buf ram s t s₁) (hk : env.timeout < k) :
    wp env k (pramReadRound (address % 4) t) (fun x s₂ =>
      match x with
      | .inl t' => chip.Reads address len buf ram s t' s₂ ∧
          t'.wordsLeft (address % 4) < t.wordsLeft (address % 4)
      | .inr buf' => buf' = buf.copy 0 len ram address ∧ (chip.view s₂.chip).ram = ram ∧
          Usable s s₂) s₁ := by
  obtain ⟨moved, ready, hat, hbuf, hview, husable⟩ := h
  have hfirst : address % 4 < 4 := Nat.mod_lt _ (by decide)
  rw [pramReadRound]
  by_cases hdone : t.len = 0
  · have htotal := hat.total
    have hall : t.byteOffset = len := by omega
    rw [if_pos hdone, wp_pure, hbuf, hall, hview]
    exact ⟨rfl, rfl, husable⟩
  · have hleft := hat.wordsLeft_eq hdone
    have hpos : t.wordsLeft (address % 4) ≠ 0 := fun hzero => hdone (wordsLeft_eq_zero.mp hzero)
    rw [if_neg hdone, wp_bind]
    have hasked : pramFifoRange t.len t.byteOffset (address % 4) =
        min 16 (pramWords address len - moved) := by
      rw [pramFifoRange_eq hdone, hleft]
    refine (chip.wp_pramWaitFifo husable.hwFault hview (by omega) hasked hk).mono
      fun value s₂ hthen => ?_
    obtain ⟨hrange, hview₂, husable₂⟩ := hthen
    rw [pramFifoRange_eq hdone] at hrange
    rw [wp_get_bind, if_neg (by rw [husable₂.hwFault]; exact Bool.false_ne_true), wp_bind, wp_lift]
    refine ⟨_, fifoCommand_isOk _ _ (fifoSize_le value), ?_⟩
    have hstate : (chip.view s₂.chip).state = .moving address len moved (fifoSize value) := by
      rw [hview₂]
    rw [wp_bind]
    refine wp_spiXfer (chip.fifo _ _ _ _ _ _ _ hstate (Nat.le_refl _) ⟨rfl, rfl, rfl⟩)
      fun data c hthen => ?_
    obtain ⟨hview₃, hdata⟩ := hthen
    rw [hview₂] at hview₃ hdata
    have hsize := fifoSize_le value
    have hroom : 3 + 4 * fifoSize value ≤ escPramBufSize := by
      simp only [escPramBufSize, escPramFifoMax]
      omega
    obtain ⟨t', ht'⟩ := @takeWords_isOk (address % 4) _ _ data t hroom
    obtain ⟨hat', hbuf'⟩ := takeWords_reads hat hdata hbuf ht'
    have hless := takeWords_wordsLeft hfirst ht'
    simp only [wp_map, wp_lift]
    exact ⟨t', ht', ⟨_, _, hat', hbuf', hview₃, (husable.trans husable₂).withChip c⟩, by omega⟩

/-- One round of `ESC_write_pram`. -/
lemma PramWriter.wp_round (chip : PramWriter env.spi env.timeout)
    (h : chip.Writes address len buf ram s t s₁) (hk : env.timeout < k) :
    wp env k (pramWriteRound (address % 4) t) (fun x s₂ =>
      match x with
      | .inl t' => chip.Writes address len buf ram s t' s₂ ∧
          t'.wordsLeft (address % 4) < t.wordsLeft (address % 4)
      | .inr _ => (chip.view s₂.chip).ram = ram.copy address len buf 0 ∧ Usable s s₂) s₁ := by
  obtain ⟨moved, ready, hat, hbuf, hview, husable⟩ := h
  have hfirst : address % 4 < 4 := Nat.mod_lt _ (by decide)
  rw [pramWriteRound]
  by_cases hdone : t.len = 0
  · have htotal := hat.total
    have hall : t.byteOffset = len := by omega
    rw [if_pos hdone, wp_pure, hview, hall]
    exact ⟨rfl, husable⟩
  · have hleft := hat.wordsLeft_eq hdone
    have hpos : t.wordsLeft (address % 4) ≠ 0 := fun hzero => hdone (wordsLeft_eq_zero.mp hzero)
    rw [if_neg hdone, wp_bind]
    have hasked : pramFifoRange t.len t.byteOffset (address % 4) =
        min 16 (pramWords address len - moved) := by
      rw [pramFifoRange_eq hdone, hleft]
    refine (chip.wp_pramWaitFifo husable.hwFault hview (by omega) hasked hk).mono
      fun value s₂ hthen => ?_
    obtain ⟨hrange, hview₂, husable₂⟩ := hthen
    rw [pramFifoRange_eq hdone] at hrange
    rw [wp_get_bind, if_neg (by rw [husable₂.hwFault]; exact Bool.false_ne_true), wp_bind, wp_lift]
    refine ⟨_, fifoCommand_isOk _ _ (fifoSize_le value), ?_⟩
    have hsize := fifoSize_le value
    have hroom : 3 + 4 * fifoSize value ≤ escPramBufSize := by
      simp only [escPramBufSize, escPramFifoMax]
      omega
    obtain ⟨⟨t', b⟩, ht'⟩ := @putWords_isOk (address % 4) _ _ (fun i =>
      if i = 0 then escCmdSerialWrite else if i = 1 then .ofNat 8 (escPramWrFifoReg / 256)
      else if i = 2 then .ofNat 8 escPramWrFifoReg else 0) t hroom
    obtain ⟨hat', hbuf', hkept, hbytes⟩ := putWords_writes hat ht'
    rw [hbuf] at hbuf' hbytes
    have hless : t'.wordsLeft (address % 4) = t.wordsLeft (address % 4) - fifoSize value :=
      putWords_wordsLeft hfirst ht'
    have hstate : (chip.view s₂.chip).state = .moving address len moved (fifoSize value) := by
      rw [hview₂]
    rw [wp_bind, wp_lift]
    refine ⟨_, ht', ?_⟩
    rw [wp_bind]
    have hheader : FifoHeader escCmdSerialWrite escPramWrFifoReg b :=
      ⟨hkept 0 (by decide), hkept 1 (by decide), hkept 2 (by decide)⟩
    refine wp_spiXfer (chip.fifo _ _ _ _ _ _ _ hstate (Nat.le_refl _) hheader)
      fun data c hview₃ => ?_
    rw [hview₂] at hview₃
    have hview' : chip.view c = ⟨ram.copy address t'.byteOffset buf 0,
        .moving address len (moved + fifoSize value) (fifoSize value - fifoSize value)⟩ := by
      rw [hview₃]
      exact PramView.eq_mk (storeWords_eq hat hat' hdone (by omega) hbytes) rfl
    simp only [wp_pure]
    exact ⟨⟨_, _, hat', hbuf', hview', (husable.trans husable₂).withChip c⟩, by omega⟩

lemma wordsLeft_le (hlen : len < k) : wordsLeft ⟨buf, len, 0⟩ (address % 4) < k := by
  have hfirst : address % 4 < 4 := Nat.mod_lt _ (by decide)
  have hlane : lane ⟨buf, len, 0⟩ (address % 4) = address % 4 := if_neg (Nat.lt_irrefl 0)
  rw [wordsLeft, hlane]
  by_cases hzero : len = 0
  · rw [if_pos (by exact hzero)]
    omega
  · rw [if_neg (by exact hzero)]
    dsimp only
    omega

/-- `ESC_read_pram` starts with nothing moved. -/
lemma PramReader.reads_start (chip : PramReader env.spi env.timeout)
    (hview : chip.view s₁.chip = ⟨ram, .moving address len 0 0⟩) (husable : Usable s s₁) :
    chip.Reads address len buf ram s ⟨buf, len, 0⟩ s₁ :=
  ⟨0, 0, .start buf, copy_none.symm, hview, husable⟩

/-- `ESC_write_pram` starts with nothing moved. -/
lemma PramWriter.writes_start (chip : PramWriter env.spi env.timeout)
    (hview : chip.view s₁.chip = ⟨ram, .moving address len 0 0⟩) (husable : Usable s s₁) :
    chip.Writes address len buf ram s ⟨buf, len, 0⟩ s₁ := by
  refine ⟨0, 0, .start buf, rfl, hview.trans ?_, husable⟩
  rw [copy_none]

/-- `ESC_read_pram` reads the process RAM. -/
lemma PramReader.wp_escReadPram (chip : PramReader env.spi env.timeout) (hs : s.hwFault = false)
    (haddress : address < 65536) (hlen : len < 65536) (hk : env.timeout + len < k) :
    wp env k (escReadPram address buf len) (fun buf' s' => s'.hwFault = false ∧
      buf' = buf.copy 0 len (chip.view s.chip).ram address ∧
      (chip.view s'.chip).ram = (chip.view s.chip).ram) s := by
  rw [escReadPram, wp_bind]
  refine (chip.wp_pramStart hs rfl haddress hlen (by omega)).mono
    fun started s₁ hthen => ?_
  obtain ⟨hstarted, hview, husable⟩ := hthen
  rw [if_pos hstarted]
  refine wp_loop (chip.Reads address len buf (chip.view s.chip).ram s)
    (fun t _ => t.wordsLeft (address % 4)) (chip.reads_start hview husable)
    (wordsLeft_le (by omega)) fun t s₂ h => ?_
  refine (chip.wp_round h (by omega)).mono ?_
  rintro (t' | buf') s₃ hround
  · exact hround
  · exact ⟨hround.2.2.hwFault, hround.1, hround.2.1⟩

/-- `ESC_write_pram` stores its buffer. -/
lemma PramWriter.wp_escWritePram (chip : PramWriter env.spi env.timeout) (hs : s.hwFault = false)
    (haddress : address < 65536) (hlen : len < 65536) (hk : env.timeout + len < k) :
    wp env k (escWritePram address buf len) (fun _ s' => s'.hwFault = false ∧
      (chip.view s'.chip).ram = (chip.view s.chip).ram.copy address len buf 0) s := by
  rw [escWritePram, wp_bind]
  refine (chip.wp_pramStart hs rfl haddress hlen (by omega)).mono
    fun started s₁ hthen => ?_
  obtain ⟨hstarted, hview, husable⟩ := hthen
  rw [when, if_pos hstarted]
  refine wp_loop (chip.Writes address len buf (chip.view s.chip).ram s)
    (fun t _ => t.wordsLeft (address % 4)) (chip.writes_start hview husable)
    (wordsLeft_le (by omega)) fun t s₂ h => ?_
  refine (chip.wp_round h (by omega)).mono ?_
  rintro (t' | _) s₃ hround
  · exact hround
  · exact ⟨hround.2.hwFault, hround.1⟩

/-- In every round of `ESC_read_pram` the words that the chip has left are asked for. -/
lemma PramReader.range_eq (chip : PramReader env.spi env.timeout) {s' : HalMem χ}
    (hs : s.hwFault = false) (hview : chip.view s.chip = ⟨ram, .moving address len 0 0⟩)
    (hk : env.timeout < k)
    (h : GoesRound env k (pramReadRound (address % 4)) ⟨buf, len, 0⟩ s t s') (hleft : t.len ≠ 0) :
    pramFifoRange t.len t.byteOffset (address % 4) =
      min 16 (chip.view s'.chip).wordsLeft := by
  have hreads : chip.Reads address len buf ram s t s' := by
    refine h.invariant (chip.reads_start hview (.refl hs)) fun t s₁ hinv => ?_
    refine (chip.wp_round hinv hk).wlp.mono fun x s₂ hround t' hx => ?_
    subst hx
    exact hround.1
  obtain ⟨moved, ready, hat, -, hview', -⟩ := hreads
  rw [hview']
  exact hat.range_eq hleft

/-- In every round of `ESC_write_pram` the words that the chip has left are asked for. -/
lemma PramWriter.range_eq (chip : PramWriter env.spi env.timeout) {s' : HalMem χ}
    (hs : s.hwFault = false) (hview : chip.view s.chip = ⟨ram, .moving address len 0 0⟩)
    (hk : env.timeout < k)
    (h : GoesRound env k (pramWriteRound (address % 4)) ⟨buf, len, 0⟩ s t s') (hleft : t.len ≠ 0) :
    pramFifoRange t.len t.byteOffset (address % 4) =
      min 16 (chip.view s'.chip).wordsLeft := by
  have hwrites : chip.Writes address len buf ram s t s' := by
    refine h.invariant (chip.writes_start hview (.refl hs)) fun t s₁ hinv => ?_
    refine (chip.wp_round hinv hk).wlp.mono fun x s₂ hround t' hx => ?_
    subst hx
    exact hround.1
  obtain ⟨moved, ready, hat, -, hview', -⟩ := hwrites
  rw [hview']
  exact hat.range_eq hleft

/-- **Process RAM access moves exactly the bytes asked for**, whatever the FIFO reports.  A read
returns the bytes of the process RAM, a write changes these bytes and no others, both end without a
fault, and in every round of either loop `pram_fifo_range` is the number of words that the chip has
left, up to 16. -/
theorem pram_access (rd : PramReader env.spi env.timeout) (wr : PramWriter env.spi env.timeout)
    (hs : s.hwFault = false) (haddress : address < 65536) (hlen : len < 65536)
    (hk : env.timeout + len < k) :
    wp env k (escReadPram address buf len) (fun buf' s' => s'.hwFault = false ∧
      buf' = buf.copy 0 len (rd.view s.chip).ram address ∧
      (rd.view s'.chip).ram = (rd.view s.chip).ram) s ∧
    wp env k (escWritePram address buf len) (fun _ s' => s'.hwFault = false ∧
      (wr.view s'.chip).ram = (wr.view s.chip).ram.copy address len buf 0) s ∧
    (∀ s₁ t s', s₁.hwFault = false → (rd.view s₁.chip).state = .moving address len 0 0 →
      GoesRound env k (pramReadRound (address % 4)) ⟨buf, len, 0⟩ s₁ t s' → t.len ≠ 0 →
        pramFifoRange t.len t.byteOffset (address % 4) = min 16 (rd.view s'.chip).wordsLeft) ∧
    ∀ s₁ t s', s₁.hwFault = false → (wr.view s₁.chip).state = .moving address len 0 0 →
      GoesRound env k (pramWriteRound (address % 4)) ⟨buf, len, 0⟩ s₁ t s' → t.len ≠ 0 →
        pramFifoRange t.len t.byteOffset (address % 4) = min 16 (wr.view s'.chip).wordsLeft := by
  have hwait : env.timeout < k := by omega
  refine ⟨rd.wp_escReadPram hs haddress hlen hk, wr.wp_escWritePram hs haddress hlen hk, ?_, ?_⟩
  · intro s₁ t s' hs₁ hstate hround hleft
    exact rd.range_eq hs₁ (PramView.eq_mk rfl hstate) hwait hround hleft
  · intro s₁ t s' hs₁ hstate hround hleft
    exact wr.range_eq hs₁ (PramView.eq_mk rfl hstate) hwait hround hleft

end loops

/-! ## A chip with twenty words at a time -/

/-- A chip whose FIFO has twenty words whenever it is looked at, with a clock that counts the
transfers. -/
structure StreamChip where
  ram : ByteStore
  state : PramDir → PramState
  time : ℕ

namespace StreamChip

/-- The FIFO is served with some words. -/
def served (n : ℕ) : PramState → PramState
  | .moving address size moved ready => .moving address size (moved + n) (ready - n)
  | state => state

/-- The transfer is started. -/
def started : PramState → PramState
  | .programmed address size => .moving address size 0 0
  | state => state

/-- The command register is looked at. -/
def polled : PramState → PramState
  | .aborting => .idle
  | .moving address size moved _ => .moving address size moved 20
  | state => state

/-- What becomes of a transfer of one direction. -/
def next (dir : PramDir) (b : ByteStore) (len : ℕ) (state : PramState) : PramState :=
  if b 0 = dir.fifoCmd ∧ registerOf b = dir.fifoReg then served ((len - 3) / 4) state
  else if b 0 = escCmdSerialWrite then
    if registerOf b = dir.addrLenReg then
      .programmed ((frameValue b).toNat % 65536) ((frameValue b).toNat / 65536)
    else if registerOf b = dir.cmdReg then
      if frameValue b = escPramCmdAbort then .aborting else started state
    else state
  else if registerOf b = dir.cmdReg then polled state
  else state

/-- What a command register reads as. -/
def count : PramState → Dword
  | .moving .. => 0x00001401
  | _ => 0

/-- The words of the process RAM that the FIFO has. -/
def words (ram : ByteStore) : PramState → ByteStore
  | .moving address _ moved _ => fun i => ram (pramWordAt address moved + (i - 3))
  | _ => fun _ => 0

/-- What is received. -/
def reply (c : StreamChip) (b : ByteStore) : ByteStore :=
  if registerOf b = escPramRdCmdReg then frameWrite 0 (count (c.state .read))
  else if registerOf b = escPramWrCmdReg then frameWrite 0 (count (c.state .write))
  else words c.ram (c.state .read)

/-- The process RAM with the words of a FIFO. -/
def stored (ram b : ByteStore) (n : ℕ) : PramState → ByteStore
  | .moving address size moved _ => storeWords ram address size moved n b
  | _ => ram

/-- What is stored. -/
def store (c : StreamChip) (b : ByteStore) (len : ℕ) : ByteStore :=
  if b 0 = escCmdSerialWrite ∧ registerOf b = escPramWrFifoReg then
    stored c.ram b ((len - 3) / 4) (c.state .write)
  else c.ram

/-- The bus to this chip. -/
def spi : Spi StreamChip where
  xfer c b len := (some (c.reply b),
    ⟨c.store b len, fun dir => next dir b len (c.state dir), c.time + 1⟩)
  clock c := c.time

/-- What the chip has for one direction. -/
def view (dir : PramDir) (c : StreamChip) : PramView := ⟨c.ram, c.state dir⟩

variable {c : StreamChip} {dir : PramDir} {b : ByteStore} {len : ℕ} {state : PramState}

/-- A transfer that is not for the FIFO stores nothing. -/
lemma answered (hstore : ¬ (b 0 = escCmdSerialWrite ∧ registerOf b = escPramWrFifoReg))
    (hstate : next dir b len (c.state dir) = state) {Q : ByteStore → StreamChip → Prop}
    (hQ : ∀ c', view dir c' = ⟨c.ram, state⟩ → spi.clock c < spi.clock c' → Q (c.reply b) c') :
    Answered spi c b len Q := by
  refine ⟨c.reply b, ⟨c.store b len, fun dir => next dir b len (c.state dir), c.time + 1⟩, rfl, ?_⟩
  exact hQ _ (PramView.eq_mk (if_neg hstore) hstate) (Nat.lt_succ_self c.time)

lemma fifo_ne (reg : ℕ) (value : Dword) (hreg : reg < 65536) (hne : reg ≠ dir.fifoReg) :
    ¬ ((frameWrite reg value) 0 = dir.fifoCmd ∧
      registerOf (frameWrite reg value) = dir.fifoReg) := by
  rw [registerOf_frameWrite value hreg]
  exact fun h => hne h.2

/-- A frame for another register is not for the FIFO. -/
lemma store_ne {reg : ℕ} {value : Dword} (hreg : reg < 65536) (hne : reg ≠ escPramWrFifoReg) :
    ¬ ((frameWrite reg value) 0 = escCmdSerialWrite ∧
      registerOf (frameWrite reg value) = escPramWrFifoReg) := by
  rw [registerOf_frameWrite value hreg]
  exact fun h => hne h.2

/-- The registers of a direction. -/
lemma registers (dir : PramDir) : (dir.cmdReg < 65536 ∧ dir.cmdReg ≠ dir.fifoReg ∧
    dir.cmdReg ≠ dir.addrLenReg ∧ dir.cmdReg ≠ escPramWrFifoReg) ∧
      dir.addrLenReg < 65536 ∧ dir.addrLenReg ≠ dir.fifoReg ∧
        dir.addrLenReg ≠ escPramWrFifoReg := by
  cases dir <;> decide

/-- A command is given. -/
lemma next_command {value : Dword} : next dir (frameWrite dir.cmdReg value) len state =
    if value = escPramCmdAbort then .aborting else started state := by
  obtain ⟨⟨hlt, hfifo, haddr, -⟩, -⟩ := registers dir
  rw [next, if_neg (fifo_ne _ _ hlt hfifo), if_pos (by exact rfl), registerOf_frameWrite _ hlt,
    if_neg haddr, if_pos rfl, frameValue_frameWrite]

lemma escPramAddrLen_toNat {address size : ℕ} (haddress : address < 65536) (hsize : size < 65536) :
    (escPramAddrLen address size).toNat = 65536 * size + address := by
  have hlow : (BitVec.ofNat 32 address).toNat = address := by
    rw [BitVec.toNat_ofNat]
    omega
  have hhigh : (BitVec.ofNat 32 size <<< 16).toNat = 2 ^ 16 * size := by
    rw [BitVec.toNat_shiftLeft, BitVec.toNat_ofNat, Nat.shiftLeft_eq]
    omega
  rw [escPramAddrLen, BitVec.toNat_or, hlow, hhigh, ← Nat.two_pow_add_eq_or_of_lt haddress]

/-- A transfer is programmed. -/
lemma next_program {address size : ℕ} (haddress : address < 65536) (hsize : size < 65536) :
    next dir (frameWrite dir.addrLenReg (escPramAddrLen address size)) len state =
      .programmed address size := by
  obtain ⟨-, hlt, hfifo, -⟩ := registers dir
  have hlow : (65536 * size + address) % 65536 = address := by omega
  have hhigh : (65536 * size + address) / 65536 = size := by omega
  rw [next, if_neg (fifo_ne _ _ hlt hfifo), if_pos (by exact rfl), registerOf_frameWrite _ hlt,
    if_pos rfl, frameValue_frameWrite, escPramAddrLen_toNat haddress hsize, hlow, hhigh]

lemma frameRead_ne (reg : ℕ) : (frameRead reg) 0 ≠ escCmdSerialWrite := by
  change escCmdSerialRead ≠ escCmdSerialWrite
  decide

/-- A command register is read. -/
lemma next_read : next dir (frameRead dir.cmdReg) len state = polled state := by
  obtain ⟨⟨hlt, hfifo, -⟩, -⟩ := registers dir
  have hne : ¬ ((frameRead dir.cmdReg) 0 = dir.fifoCmd ∧
      registerOf (frameRead dir.cmdReg) = dir.fifoReg) := by
    rw [registerOf_frameRead hlt]
    exact fun h => hfifo h.2
  rw [next, if_neg hne, if_neg (frameRead_ne _), registerOf_frameRead hlt, if_pos rfl]

lemma reply_read : frameValue (c.reply (frameRead dir.cmdReg)) = count (c.state dir) := by
  cases dir with
  | read =>
      have hreg : registerOf (frameRead PramDir.read.cmdReg) = escPramRdCmdReg :=
        registerOf_frameRead (by decide)
      rw [reply, if_pos hreg, frameValue_frameWrite]
  | write =>
      have hreg : registerOf (frameRead PramDir.write.cmdReg) = escPramWrCmdReg :=
        registerOf_frameRead (by decide)
      rw [reply, hreg, if_neg (by decide), if_pos rfl, frameValue_frameWrite]

/-- It carries out transfers. -/
def transfers (timeout : ℕ) (dir : PramDir) : PramChip spi timeout dir where
  view := view dir
  due _ := 0
  prompt _ := Nat.zero_le _
  abort c := by
    obtain ⟨⟨hlt, -, -, hfifo⟩, -⟩ := registers dir
    exact answered (store_ne hlt hfifo) (next_command.trans (if_pos rfl)) fun _ hview _ => hview
  aborted c hstate := by
    have hnext : next dir (frameRead dir.cmdReg) frameLen (c.state dir) = .idle := by
      rw [next_read, show c.state dir = .aborting from hstate, polled]
    have hidle : frameValue (c.reply (frameRead dir.cmdReg)) &&& escPramCmdBusy = 0 := by
      rw [reply_read, show c.state dir = .aborting from hstate]
      exact BitVec.zero_and
    refine answered (fun h => frameRead_ne _ h.1) hnext fun c' hview hclock => ?_
    rw [hview]
    exact ⟨rfl, Nat.le_refl 0, hclock, fun _ => rfl, fun hbusy => absurd hidle hbusy⟩
  program c address size _ haddress hsize := by
    obtain ⟨-, hlt, -, hfifo⟩ := registers dir
    exact answered (store_ne hlt hfifo) (next_program haddress hsize) fun _ hview _ => hview
  start c address size hstate := by
    obtain ⟨⟨hlt, -, -, hfifo⟩, -⟩ := registers dir
    have hnext : next dir (frameWrite dir.cmdReg escPramCmdBusy) frameLen (c.state dir) =
        .moving address size 0 0 := by
      rw [next_command, if_neg (by decide), show c.state dir = .programmed address size from hstate,
        started]
    exact answered (store_ne hlt hfifo) hnext fun _ hview _ => hview
  report c address size moved ready hstate _ := by
    have hnext : next dir (frameRead dir.cmdReg) frameLen (c.state dir) =
        .moving address size moved 20 := by
      rw [next_read, show c.state dir = .moving address size moved ready from hstate, polled]
    have hcount : frameValue (c.reply (frameRead dir.cmdReg)) = 0x00001401 := by
      rw [reply_read, show c.state dir = .moving address size moved ready from hstate, count]
    have htwenty : escPramCmdCnt 0x00001401 = 20 := by decide
    refine answered (fun h => frameRead_ne _ h.1) hnext fun c' hview hclock => ?_
    rw [hcount, hview]
    refine ⟨rfl, Nat.le_refl 0, hclock, ⟨20, rfl, fun _ _ => htwenty.symm⟩, fun hnot => ?_⟩
    refine absurd ⟨by decide, ?_⟩ hnot
    rw [htwenty]
    omega

/-- It gives words. -/
def gives (timeout : ℕ) : PramReader spi timeout where
  toPramChip := transfers timeout .read
  fifo c address size moved ready n b hstate _ hheader := by
    have hstate' : c.state .read = .moving address size moved ready := hstate
    have hreg : registerOf b = escPramRdFifoReg := by
      rw [registerOf, hheader.high, hheader.low]
      decide
    have hn : (3 + 4 * n - 3) / 4 = n := by omega
    have hnext : next .read b (3 + 4 * n) (c.state .read) =
        .moving address size (moved + n) (ready - n) := by
      rw [next, if_pos ⟨hheader.cmd, hreg⟩, hstate', served, hn]
    have hstore : ¬ (b 0 = escCmdSerialWrite ∧ registerOf b = escPramWrFifoReg) := by
      rw [hreg]
      exact fun h => absurd h.2 (by decide)
    have hreply : c.reply b = words c.ram (.moving address size moved ready) := by
      rw [reply, hreg, if_neg (by decide), if_neg (by decide), hstate']
    refine @answered c .read b _ _ hstore hnext _ fun c' hview _ => ⟨hview, fun i _ _ => ?_⟩
    rw [hreply]
    change c.ram (pramWordAt address moved + (3 + i - 3)) = _
    rw [Nat.add_sub_cancel_left]
    rfl

/-- It takes words. -/
def takes (timeout : ℕ) : PramWriter spi timeout where
  toPramChip := transfers timeout .write
  fifo c address size moved ready n b hstate _ hheader := by
    have hstate' : c.state .write = .moving address size moved ready := hstate
    have hreg : registerOf b = escPramWrFifoReg := by
      rw [registerOf, hheader.high, hheader.low]
      decide
    have hn : (3 + 4 * n - 3) / 4 = n := by omega
    have hnext : next .write b (3 + 4 * n) (c.state .write) =
        .moving address size (moved + n) (ready - n) := by
      rw [next, if_pos ⟨hheader.cmd, hreg⟩, hstate', served, hn]
    have hstored : c.store b (3 + 4 * n) = storeWords c.ram address size moved n b := by
      rw [store, if_pos ⟨hheader.cmd, hreg⟩, hstate', stored, hn]
    exact ⟨_, ⟨_, fun dir => next dir b (3 + 4 * n) (c.state dir), _⟩, rfl,
      PramView.eq_mk hstored hnext⟩

end StreamChip

/-- The HAL on this chip, whose process RAM has its addresses for contents. -/
def streamMem : HalMem StreamChip := ⟨⟨fun a => .ofNat 8 a, fun _ => .idle, 0⟩, false, 3, 0⟩

/-- A hundred bytes from an odd address on are read and written, in two FIFOs. -/
theorem pram_access_example :
    wp ⟨StreamChip.spi, 100, exampleOptions⟩ 200000000 (escReadPram 0x1001 (fun _ => 0) 100)
      (fun buf' s' => s'.hwFault = false ∧
        buf' = ByteStore.copy (fun _ => 0) 0 100 (fun a => .ofNat 8 a) 0x1001) streamMem ∧
    wp ⟨StreamChip.spi, 100, exampleOptions⟩ 200000000 (escWritePram 0x1001 (fun _ => 0) 100)
      (fun _ s' => s'.hwFault = false ∧
        s'.chip.ram = ByteStore.copy (fun a => .ofNat 8 a) 0x1001 100 (fun _ => 0) 0)
      streamMem := by
  have haccess := @pram_access _ ⟨StreamChip.spi, 100, exampleOptions⟩ 200000000 streamMem 0x1001
    100 (fun _ => 0) (StreamChip.gives _) (StreamChip.takes _) rfl (by decide) (by decide)
    (by decide)
  exact ⟨haccess.1.mono fun _ _ h => ⟨h.1, h.2.1⟩, haccess.2.1⟩

end Hal

end Soes
