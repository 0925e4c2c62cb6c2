import Soes.Framework.Bytes

/-!
# An EEPROM

What the emulation is there for: a store of words, with its size in bytes and the width of what it
delivers at a time, eight bytes or four.  A command outside the store fails and changes nothing.  A
reload delivers what a read would, if eight bytes come at a time, and the two bytes of the station
alias otherwise.

Addresses are counted in bytes and wrap, as the command's word address is doubled in 32 bits.
-/

namespace Soes

/-- A command. -/
inductive EepromOp where
  /-- Nothing. -/
  | idle
  /-- Deliver what is at an address. -/
  | read (addr : BitVec 32)
  /-- Store a word. -/
  | write (addr : BitVec 32) (w : BitVec 16)
  /-- Load the configuration again. -/
  | reload (addr : BitVec 32)
  /-- No command. -/
  | unknown
  deriving DecidableEq, Repr

/-- What a command comes to: whether it fails, and the bytes that it delivers. -/
structure EepromReply where
  failed : Bool
  data : List (BitVec 8)
  deriving DecidableEq, Repr

/-- An EEPROM. -/
structure Eeprom where
  size : ℕ
  wide : Bool
  bytes : ByteStore

namespace Eeprom

variable (e : Eeprom)

/-- The place of a word. -/
def place (addr : BitVec 32) : ℕ := (addr * 2).toNat

/-- How much is delivered at a time. -/
def width : ℕ := if e.wide then 8 else 4

/-- Deliver some bytes. -/
def deliver (a len : ℕ) : EepromReply :=
  if a + len ≤ e.size then ⟨false, e.bytes.bytes a len⟩ else ⟨true, []⟩

/-- What a command comes to. -/
def reply : EepromOp → EepromReply
  | .idle => ⟨false, []⟩
  | .read addr => e.deliver (place addr) e.width
  | .write addr _ => ⟨decide (e.size < place addr + 2), []⟩
  | .reload addr => if e.wide then e.deliver (place addr) e.width else e.deliver 8 2
  | .unknown => ⟨true, []⟩

/-- The EEPROM after a command. -/
def after : EepromOp → Eeprom
  | .write addr w =>
      if place addr + 2 ≤ e.size then { e with bytes := e.bytes.setWord (place addr) w } else e
  | _ => e

/-- The EEPROM after some commands. -/
def run (e : Eeprom) (ops : List EepromOp) : Eeprom := ops.foldl after e

/-- What some commands come to, one after the other. -/
def replies (e : Eeprom) : List EepromOp → List EepromReply
  | [] => []
  | op :: ops => e.reply op :: (e.after op).replies ops

variable {e}

@[simp] lemma after_size (op : EepromOp) : (e.after op).size = e.size := by
  cases op with
  | write addr w =>
      rw [after]
      split <;> rfl
  | idle | read | reload | unknown => rfl

@[simp] lemma after_wide (op : EepromOp) : (e.after op).wide = e.wide := by
  cases op with
  | write addr w =>
      rw [after]
      split <;> rfl
  | idle | read | reload | unknown => rfl

lemma run_concat (ops : List EepromOp) (op : EepromOp) :
    e.run (ops ++ [op]) = (e.run ops).after op := by
  rw [run, List.foldl_append]
  rfl

lemma replies_concat (ops : List EepromOp) (op : EepromOp) :
    e.replies (ops ++ [op]) = e.replies ops ++ [(e.run ops).reply op] := by
  induction ops generalizing e with
  | nil => rfl
  | cons first ops ih =>
      change e.reply first :: (e.after first).replies (ops ++ [op]) = _
      rw [ih]
      rfl

/-- The bytes of a word that was written are found by the next read of it. -/
lemma reply_read_after_write (hroom : place addr + e.width ≤ e.size) (w : BitVec 16) :
    (((e.after (.write addr w)).reply (.read addr)).data).take 2 =
      [w.setWidth 8, (w >>> 8).setWidth 8] := by
  have hwidth : 2 ≤ e.width := by
    rw [width]
    split <;> decide
  have hwrite : e.after (.write addr w) =
      { e with bytes := e.bytes.setWord (place addr) w } := by
    rw [after, if_pos (by omega)]
  have hreply : (({ e with bytes := e.bytes.setWord (place addr) w } : Eeprom).reply
      (.read addr)).data = (e.bytes.setWord (place addr) w).bytes (place addr) e.width :=
    congrArg EepromReply.data (if_pos hroom)
  rw [hwrite, hreply]
  rw [ByteStore.take_bytes hwidth, ByteStore.bytes_succ', ByteStore.bytes_succ']
  simp [ByteStore.setWord, ByteStore.copy, ByteStore.ofWord, ByteStore.bytes]

end Eeprom

end Soes
