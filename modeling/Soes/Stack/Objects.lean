import Mathlib.Data.List.Basic
import Soes.Framework.Bytes
import Soes.Stack.Registers

/-!
# The object dictionary

`SDOobjects` is an array of object descriptions closed by a sentinel row of index `0xFFFF`; each
object points to an array of entry descriptors.  Every access of the stack to these arrays is
checked here: a read outside an array is a fault, never a default, because the lookups of
`esc_coe.c` rely on the sentinel and on `maxsub` and check nothing themselves.

`Dictionary` is a table as the stack asks for one: indexes ascend strictly and stay below the
sentinel, which is what `SDO_findobject` stops at, and an entry that can be written, or does not
fit the constant field, has storage, because the transfers follow its pointer without a look.
Nothing is asked of `maxsub`.  An object whose subindexes are not consecutive has fewer rows than
`maxsub` says, the stack's own comments provide for such objects, and then a lookup may leave the
rows.
-/

namespace Soes

/-- The undefined behaviours the modelled code can run into. -/
inductive Fault where
  /-- `SDOobjects` is read outside the table. -/
  | table
  /-- A descriptor is read past the rows of the object with this index, or through the null pointer
  of the closing row, whose index is `0xFFFF`. -/
  | row (index : Word)
  /-- Storage is accessed through a null pointer. -/
  | null
  /-- A division by zero. -/
  | division
  /-- A `CC_ASSERT` fails. -/
  | assertion
  /-- More is cleared than there is memory. -/
  | overrun
  deriving DecidableEq, Repr

/-- `_objd`, the descriptor of one entry.  `data` is the address of its storage, 0 for `NULL`. -/
structure Objd where
  subindex : Word
  datatype : Word
  bitlength : Dword
  flags : Word
  /-- The name, without the closing zero. -/
  name : List Byte
  /-- The constant value, used where there is no storage. -/
  value : Dword
  data : ℕ
  deriving DecidableEq, Repr, Inhabited

/-- `_objectlist`, the description of one object.  The sentinel's null pointer is an `objdesc`
without rows. -/
structure Objectlist where
  index : Word
  objtype : Word
  maxsub : Byte
  /-- The name, without the closing zero. -/
  name : List Byte
  objdesc : List Objd
  deriving DecidableEq, Repr, Inhabited

/-- The row that closes `SDOobjects`. -/
def sentinel : Objectlist :=
  { index := 0xFFFF, objtype := 0xFF, maxsub := 0xFF, name := [], objdesc := [] }

/-! ## Lookups -/

/-- `objdesc[n]`. -/
def Objectlist.row (o : Objectlist) (n : ℕ) : Except Fault Objd :=
  match o.objdesc[n]? with
  | some d => .ok d
  | none => .error (.row o.index)

/-- `SDOobjects[nidx]`. -/
def objectAt (table : List Objectlist) (nidx : ℕ) : Except Fault Objectlist :=
  match table[nidx]? with
  | some o => .ok o
  | none => .error .table

/-- The scan of `SDO_findobject`, from row `n` of the table on. -/
def sdoFindobjectFrom (index : Word) : List Objectlist → ℕ → Except Fault (Option ℕ)
  | [], _ => .error .table
  | o :: rest, n =>
      if o.index < index then sdoFindobjectFrom index rest (n + 1)
      else if o.index ≠ index then .ok none
      else .ok (some n)

/-- `SDO_findobject`; `none` is the source's -1. -/
def sdoFindobject (table : List Objectlist) (index : Word) : Except Fault (Option ℕ) :=
  sdoFindobjectFrom index table 0

/-- The scan of `SDO_findsubindex`, from row `n` on with `left` rows up to `maxsub`. -/
def sdoFindsubindexFrom (o : Objectlist) (subindex : Byte) : ℕ → ℕ → Except Fault (Option ℕ)
  | 0, n => do
      let d ← o.row n
      pure (if d.subindex ≠ subindex.setWidth 16 then none else some n)
  | left + 1, n => do
      let d ← o.row n
      if d.subindex < subindex.setWidth 16 then
        sdoFindsubindexFrom o subindex left (n + 1)
      else
        pure (if d.subindex ≠ subindex.setWidth 16 then none else some n)

/-- `SDO_findsubindex` of one object; `none` is the source's -1. -/
def sdoFindsubindex (o : Objectlist) (subindex : Byte) : Except Fault (Option ℕ) := do
  -- most objects are not sparse, so the row of that number is tried first
  let direct ← if subindex ≤ o.maxsub then
      (fun d : Objd => decide (d.subindex = subindex.setWidth 16)) <$> o.row subindex.toNat
    else pure false
  if direct then pure (some subindex.toNat)
  else sdoFindsubindexFrom o subindex o.maxsub.toNat 0

/-! ## Access rights and sizes -/

/-- `BITS2BYTES`, on 32-bit operands. -/
def bits2bytes (b : ℕ) : ℕ := (b + 7) % 2 ^ 32 / 8

/-- `access`: the access rights among an entry's flags. -/
def Objd.access (d : Objd) : Byte := (d.flags &&& 0x3f).setWidth 8

/-- `READ_ACCESS (access, state)`. -/
def readAccess (access state : Byte) : Prop :=
  (access &&& atypeRpre ≠ 0 ∧ state = escPreop) ∨
  (access &&& atypeRsafe ≠ 0 ∧ state = escSafeop) ∨
  (access &&& atypeRop ≠ 0 ∧ state = escOp)

/-- `WRITE_ACCESS (access, state)`. -/
def writeAccess (access state : Byte) : Prop :=
  (access &&& atypeWpre ≠ 0 ∧ state = escPreop) ∨
  (access &&& atypeWsafe ≠ 0 ∧ state = escSafeop) ∨
  (access &&& atypeWop ≠ 0 ∧ state = escOp)

instance (access state : Byte) : Decidable (readAccess access state) := by
  unfold readAccess; infer_instance

instance (access state : Byte) : Decidable (writeAccess access state) := by
  unfold writeAccess; infer_instance

/-- Some AL state lets the entry be written. -/
def Objd.Writable (d : Objd) : Prop := ∃ state, writeAccess d.access state

instance (d : Objd) : Decidable d.Writable := by
  unfold Objd.Writable; infer_instance

/-- The number of bytes of an entry's storage. -/
def Objd.size (d : Objd) : ℕ := bits2bytes d.bitlength.toNat

/-! ## Dictionaries -/

/-- An object dictionary. -/
structure Dictionary where
  /-- The rows of `SDOobjects` before the sentinel. -/
  objects : List Objectlist
  ascending : objects.Pairwise fun o o' => o.index < o'.index
  below_sentinel : ∀ o ∈ objects, o.index < 0xFFFF
  /-- What can be written, or is longer than the constant field, has storage. -/
  storage : ∀ o ∈ objects, ∀ d ∈ o.objdesc,
    d.Writable ∨ 32 < d.bitlength.toNat → d.data ≠ 0

namespace Dictionary

variable (dict : Dictionary)

/-- `SDOobjects`. -/
def table : List Objectlist := dict.objects ++ [sentinel]

end Dictionary

end Soes
