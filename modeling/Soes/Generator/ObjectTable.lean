import Soes.Framework.BinarySearch
import Soes.Generator.Emit

/-!
# The C++ table

`ObjectTable.cpp`, which the generator writes for the application: the rows of `kEntries` as the
compiler lays them down, and the lookups over them.  `Find` is a binary search by index and
subindex, `SubCount` a scan that stops behind the object.
-/

namespace Soes.GenOd

abbrev kRead : Byte := 0x01
abbrev kWrite : Byte := 0x02
abbrev kPreopOnly : Byte := 0x04
abbrev kStore : Byte := 0x08
abbrev kDisabledOnly : Byte := 0x10

/-- `CXX_ACCESS`. -/
def Access.cxx : Access → Byte
  | .ro => kRead
  | .rw => kRead ||| kWrite
  | .rwpre => kRead ||| kWrite ||| kPreopOnly
  | .wo => kWrite

/-- `Entry`, without what only a `Domain` or a checked write needs. -/
structure Entry where
  index : Word
  sub : Byte
  type : Ty
  access : Byte
  bits : Dword
  storage : ℕ
  constant : BitVec 64
  text : Option (List Byte)
  name : List Byte

/-- The row that the compiler makes of an entry. -/
def CxxEntry.entry (addr : Place → ℕ) (e : CxxEntry) : Entry where
  index := .ofNat 16 e.index
  sub := .ofNat 8 e.sub
  type := e.type
  access := e.access.cxx ||| (if e.store then kStore else 0) |||
    (if e.disabledOnly then kDisabledOnly else 0)
  bits := .ofNat 32 e.bits
  storage := match e.storage with
    | some p => addr p
    | none => 0
  constant := .ofInt 64 e.constant
  text := e.text.map literal
  name := literal e.name

/-- How a row compares with an index and a subindex. -/
def Entry.order (index : Word) (sub : Byte) (e : Entry) : Ordering :=
  if e.index = index ∧ e.sub = sub then .eq
  else if e.index < index ∨ (e.index = index ∧ e.sub < sub) then .lt
  else .gt

/-- `Find`. -/
def find (kEntries : List Entry) (index : Word) (sub : Byte) : Option Entry :=
  bisect (Entry.order index sub) kEntries 0 kEntries.length

/-- The loop of `SubCount`. -/
def subCountFrom (index : Word) : List Entry → ℤ → ℤ
  | [], count => count
  | e :: rest, count =>
      if e.index = index then subCountFrom index rest (if count < 0 then 1 else count + 1)
      else if 0 ≤ count then count
      else subCountFrom index rest count

/-- `SubCount`. -/
def subCount (kEntries : List Entry) (index : Word) : ℤ := subCountFrom index kEntries (-1)

end Soes.GenOd
