import Mathlib.Data.List.Sort
import Soes.Stack.Objects

/-!
# The device description

What `tools/gen_od.py` works on: the device description as `load_config` leaves it, with the base
description merged in, and the objects that `build_objects` makes of it.  The YAML reader itself
is left out, and with it the failures of a description of the wrong shape: a field has its type
here, and a type, an access right or an object code is one of those that the generator's tables
have.  Python's numbers are unbounded, so these are `ℕ` and `ℤ`.

`Place` is where an entry has its storage.  The generator only writes C expressions such as
`&Obj.axis[1].Controlword`; which address that is, is decided when the emitted files are compiled.
-/

namespace Soes.GenOd

/-- The keys of `TYPES`. -/
inductive Ty where
  | bool | i8 | u8 | i16 | u16 | i32 | u32 | i64 | u64 | real32 | string | domain
  deriving DecidableEq, Repr

/-- The first column of `TYPES`. -/
def Ty.dtype : Ty → Word
  | .bool => dtypeBoolean
  | .i8 => dtypeInteger8
  | .u8 => dtypeUnsigned8
  | .i16 => dtypeInteger16
  | .u16 => dtypeUnsigned16
  | .i32 => dtypeInteger32
  | .u32 => dtypeUnsigned32
  | .i64 => dtypeInteger64
  | .u64 => dtypeUnsigned64
  | .real32 => dtypeReal32
  | .string => dtypeVisibleString
  | .domain => dtypeDomain

/-- The second column of `TYPES`; strings and domains bring their own length. -/
def Ty.bits : Ty → ℕ
  | .bool => 1
  | .i8 | .u8 => 8
  | .i16 | .u16 => 16
  | .i32 | .u32 | .real32 => 32
  | .i64 | .u64 => 64
  | .string | .domain => 0

/-- `ESI_TYPES`, the names an ESI has for the types. -/
def Ty.esi : Ty → Option String
  | .bool => some "BOOL"
  | .i8 => some "SINT"
  | .u8 => some "USINT"
  | .i16 => some "INT"
  | .u16 => some "UINT"
  | .i32 => some "DINT"
  | .u32 => some "UDINT"
  | .i64 => some "LINT"
  | .u64 => some "ULINT"
  | .real32 => some "REAL"
  | .string | .domain => none

/-- The keys of `ACCESS`. -/
inductive Access where
  | ro | rw | rwpre | wo
  deriving DecidableEq, Repr

/-- `ACCESS`. -/
def Access.atype : Access → Word
  | .ro => atypeRo.setWidth 16
  | .rw => (atypeRo ||| atypeWpre ||| atypeWsafe ||| atypeWop).setWidth 16
  | .rwpre => (atypeWpre ||| atypeRo).setWidth 16
  | .wo => (atypeWpre ||| atypeWsafe ||| atypeWop).setWidth 16

/-- The entry can be saved: `access in ("rw", "rwpre")`. -/
def Access.storable : Access → Bool
  | .rw | .rwpre => true
  | .ro | .wo => false

/-- The keys of `OBJECT_CODES`. -/
inductive ObjectCode where
  | var | array | record
  deriving DecidableEq, Repr

/-- `OBJECT_CODES`. -/
def ObjectCode.otype : ObjectCode → Word
  | .var => otypeVar
  | .array => otypeArray
  | .record => 0x0009

/-- A `value`. -/
inductive Value where
  | int (n : ℤ)
  | str (s : String)
  deriving DecidableEq, Repr

/-- Python's truth of a value. -/
def Value.truthy : Value → Bool
  | .int n => n ≠ 0
  | .str s => s ≠ ""

/-- `len(str(value))`. -/
def Value.strLength : Value → ℕ
  | .int n => (toString n).length
  | .str s => s.length

/-- The fields that an entry has, whether it is an object of its own or a sub-entry. -/
structure EntrySpec where
  name : String
  type : Ty := .u32
  access : Access := .ro
  value : Value := .int 0
  var : Option String := none
  size : Option ℕ := none
  lengthVar : Option String := none
  allowed : Option (List ℤ) := none
  store : Option Bool := none
  disabledOnly : Option Bool := none

/-- One element of `subs`. -/
structure SubSpec where
  sub : ℕ
  entry : EntrySpec

/-- `elements`, a table too long to list. -/
structure ElementsSpec where
  count : ℕ
  type : Ty
  var : String
  access : Access := .rw
  name : String := "Element"
  value : Value := .int 0

/-- One element of `objects`. -/
structure ObjectSpec where
  index : ℕ
  axis : Bool := false
  objectCode : Option ObjectCode := none
  /-- The object's own fields: the name, the entry of an object without sub-entries, and the
  defaults of the sub-entries. -/
  entry : EntrySpec
  subs : Option (List SubSpec) := none
  elements : Option ElementsSpec := none

/-- One element of the `entries` of a PDO. -/
inductive PdoEntrySpec where
  /-- `pad`. -/
  | pad (bits : ℕ)
  /-- `object`, `sub` and `name`. -/
  | object (object sub : ℕ) (name : Option String)

/-- A PDO. -/
structure PdoSpec where
  index : ℕ
  name : String
  entries : List PdoEntrySpec

/-- `sync_managers`. -/
structure SyncManagersSpec where
  mbxOut : ℕ
  mbxIn : ℕ
  outputs : ℕ
  inputs : ℕ
  watchdog : Bool := true

/-- `mailbox`. -/
structure MailboxSpec where
  size : ℕ
  sizeBoot : ℕ
  buffers : ℕ

/-- The description, as far as the emitted tables depend on it. -/
structure Cfg where
  device : List (String × Value)
  count : ℕ
  stride : ℕ
  objects : List ObjectSpec
  rxpdo : PdoSpec
  txpdo : PdoSpec
  rxpdoExtra : List PdoSpec := []
  txpdoExtra : List PdoSpec := []
  syncManagers : SyncManagersSpec
  mailbox : MailboxSpec

/-- Where the generator gives up: the calls of `die`, and the exceptions it runs into. -/
inductive Die where
  /-- `object_code … does not match whether the object has sub-entries`. -/
  | objectCode (index : ℕ)
  /-- `a domain needs size, var and length_var`. -/
  | domain (index : ℕ)
  /-- `only a writable entry with storage can be stored`. -/
  | store (index sub : ℕ)
  /-- A value refers to a field that `device` does not have. -/
  | device (name : String)
  /-- `max` of an object without entries. -/
  | noSubs (index : ℕ)
  /-- `duplicate index`. -/
  | duplicateIndex (index : ℕ)
  /-- `PDO maps … which is not in the dictionary`. -/
  | notInDictionary (index : ℕ)
  /-- `PDO maps … which does not exist`. -/
  | notThere (index sub : ℕ)
  /-- `PDO … is … bits, not a whole number of bytes`. -/
  | notBytes (index bits : ℕ)
  /-- `two PDOs share index`. -/
  | sharedIndex (index : ℕ)
  /-- `SM2 … past SM3`. -/
  | sm2 (bytes : ℕ)
  /-- `SM3 ends at …, past the 0x2000 top`. -/
  | sm3 (top : ℕ)
  /-- `… has no ESI equivalent`. -/
  | esiType (index sub : ℕ)
  /-- `duplicate entry … in the C++ table`. -/
  | duplicateEntry (index sub : ℕ)
  deriving DecidableEq, Repr

/-- `for k in …: if k in seen: die(…); seen.add(k)`. -/
def checkDistinct {α : Type} [DecidableEq α] (die : α → Die) : List α → List α → Except Die Unit
  | _, [] => .ok ()
  | seen, k :: rest => if k ∈ seen then .error (die k) else checkDistinct die (k :: seen) rest

/-! ## Objects -/

/-- Where an entry has its storage. -/
inductive Place where
  /-- `&Obj.var`. -/
  | obj (var : String)
  /-- `&Obj.axis[n].var`. -/
  | axis (n : ℕ) (var : String)
  /-- A string literal. -/
  | text (s : String)
  deriving DecidableEq, Repr

/-- What `Object._sub` returns. -/
structure Sub where
  sub : ℕ
  name : String
  type : Ty
  bits : ℕ
  access : Access
  value : Value
  /-- `var`; an empty one counts as none wherever it is looked at. -/
  var : Option String
  store : Bool
  lengthVar : Option String
  disabledOnly : Bool
  allowed : Option (List ℤ)

/-- An object, resolved for one axis. -/
structure Object where
  index : ℕ
  axis : Option ℕ
  name : String
  isRecord : Bool
  otype : Word
  subs : List Sub

/-- A value `@name` is the field `name` of `device`. -/
def resolveValue (cfg : Cfg) : Value → Except Die Value
  | .int n => .ok (.int n)
  | .str s =>
      if s.startsWith "@" then
        match cfg.device.lookup (s.drop 1).toString with
        | some v => .ok v
        | none => .error (.device (s.drop 1).toString)
      else .ok (.str s)

/-- The length of an entry in bits. -/
def entryBits (index : ℕ) (spec : EntrySpec) (value : Value) (var : Option String) :
    Except Die ℕ :=
  match spec.type with
  | .string => .ok (8 * if value.truthy then value.strLength else 1)
  | .domain =>
      match spec.size, spec.lengthVar, var with
      | some size, some _, some _ => .ok (8 * size)
      | _, _, _ => .error (.domain index)
  | t => .ok t.bits

/-- `Object._sub`. -/
def makeSub (cfg : Cfg) (index sub : ℕ) (spec : EntrySpec)
    (storeDefault disabledOnlyDefault : Bool) :
    Except Die Sub := do
  let value ← resolveValue cfg spec.value
  let var := spec.var.filter (· ≠ "")
  let bits ← entryBits index spec value var
  let store := spec.store.getD (storeDefault && spec.access.storable)
  if store && (!spec.access.storable || var.isNone) then .error (.store index sub)
  else
    .ok {
      sub := sub
      name := spec.name
      type := spec.type
      bits := bits
      access := spec.access
      value := value
      var := var
      store := store
      lengthVar := spec.lengthVar
      disabledOnly := spec.disabledOnly.getD disabledOnlyDefault
      allowed := spec.allowed }

/-- The sub-entries that `elements` stands for. -/
def ElementsSpec.subs (e : ElementsSpec) : List SubSpec :=
  (List.range e.count).map fun i =>
    { sub := i + 1
      entry := {
        name := e.name ++ " " ++ toString i
        type := e.type
        access := e.access
        var := some (e.var ++ "[" ++ toString i ++ "]")
        value := e.value } }

/-- The sub-entries of an object, `none` if it has none. -/
def ObjectSpec.subSpecs (spec : ObjectSpec) : Option (List SubSpec) :=
  match spec.elements with
  | some e => some e.subs
  | none => spec.subs

/-- The entries of an object. -/
def ObjectSpec.makeSubs (cfg : Cfg) (spec : ObjectSpec) (index : ℕ) : Except Die (List Sub) :=
  let store := spec.entry.store.getD false
  let disabledOnly := spec.entry.disabledOnly.getD false
  match spec.subSpecs with
  | some subs => subs.mapM fun s => makeSub cfg index s.sub s.entry store disabledOnly
  | none => (fun s => [s]) <$> makeSub cfg index 0 spec.entry store disabledOnly

/-- `Object.__init__`. -/
def makeObject (cfg : Cfg) (spec : ObjectSpec) (index : ℕ) (axis : Option ℕ) :
    Except Die Object := do
  let isRecord := spec.subSpecs.isSome
  let code := spec.objectCode.getD (if isRecord then .record else .var)
  if (code = .var) ≠ (isRecord = false) then .error (.objectCode index)
  else
    let subs ← spec.makeSubs cfg index
    .ok {
      index := index
      axis := axis
      name := spec.entry.name
      isRecord := isRecord
      otype := code.otype
      subs := subs }

/-- `Object.maxsub`. -/
def Object.maxsub (o : Object) : Except Die ℕ :=
  match o.subs with
  | [] => .error (.noSubs o.index)
  | s :: rest => .ok (rest.foldl (fun m s => max m s.sub) s.sub)

/-- The objects that one description stands for. -/
def expandObject (cfg : Cfg) (spec : ObjectSpec) : Except Die (List Object) :=
  if spec.axis then
    (List.range cfg.count).mapM fun n => makeObject cfg spec (spec.index + n * cfg.stride) (some n)
  else (fun o => [o]) <$> makeObject cfg spec spec.index none

/-- `build_objects`. -/
def buildObjects (cfg : Cfg) : Except Die (List Object) := do
  let objs ← cfg.objects.mapM (expandObject cfg)
  let objs := objs.flatten.insertionSort fun a b => a.index ≤ b.index
  checkDistinct .duplicateIndex [] (objs.map Object.index)
  .ok objs

end Soes.GenOd
