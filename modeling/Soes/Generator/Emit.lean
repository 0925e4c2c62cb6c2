import Soes.Generator.Description

/-!
# The generated tables

What `tools/gen_od.py` makes of a description: the PDOs of every axis and the checks of the
SyncManager layout, the rows of `slave_objectlist.c`, the constants of `ecat_options.h`, the part of
the ESI that a master configures the device by, and the rows of the C++ table.

The emitters write text.  Modelled is what the text says: a row of a C initialiser is a `Row`, and
`Row.objd` is the descriptor that the compiler makes of it, with every number converted to the
width of its field.  Where storage lies is the parameter `addr`.
-/

namespace Soes.GenOd

/-! ## PDOs -/

/-- An entry of a PDO; an element without a type is padding. -/
structure MapEntry where
  index : ℕ
  sub : ℕ
  bits : ℕ
  name : String
  type : Option Ty

/-- A PDO with its size. -/
structure Pdo where
  index : ℕ
  name : String
  entries : List MapEntry
  bytes : ℕ

/-- One round of `resolve_pdo`. -/
def resolveEntry (cfg : Cfg) (objs : List Object) (axis : ℕ) : PdoEntrySpec → Except Die MapEntry
  | .pad bits => .ok { index := 0, sub := 0, bits := bits, name := "padding", type := none }
  | .object object sub name =>
      let idx := object + axis * cfg.stride
      match objs.find? fun o => o.index = idx with
      | none => .error (.notInDictionary idx)
      | some obj =>
          match obj.subs.find? fun s => s.sub = sub with
          | none => .error (.notThere idx sub)
          | some s =>
              .ok {
                index := idx
                sub := sub
                bits := s.bits
                name := name.getD s.name
                type := some s.type }

/-- The bits of a list of entries. -/
def bitsOfEntries (entries : List MapEntry) : ℕ := (entries.map MapEntry.bits).sum

/-- `resolve_pdo`. -/
def resolvePdo (cfg : Cfg) (pdo : PdoSpec) (objs : List Object) (axis : ℕ) :
    Except Die (List MapEntry × ℕ) := do
  let entries ← pdo.entries.mapM (resolveEntry cfg objs axis)
  if bitsOfEntries entries % 8 ≠ 0 then .error (.notBytes pdo.index (bitsOfEntries entries))
  else .ok (entries, bitsOfEntries entries / 8)

/-- The PDO of one axis. -/
def axisPdo (cfg : Cfg) (template : PdoSpec) (objs : List Object) (n : ℕ) : Except Die Pdo := do
  let r ← resolvePdo cfg template objs n
  .ok {
    index := template.index + n
    name := if 1 < cfg.count then template.name ++ " Axis " ++ toString n else template.name
    entries := r.1
    bytes := r.2 }

/-- A PDO that is not there for each axis. -/
def extraPdo (cfg : Cfg) (objs : List Object) (extra : PdoSpec) : Except Die Pdo := do
  let r ← resolvePdo cfg extra objs 0
  .ok { index := extra.index, name := extra.name, entries := r.1, bytes := r.2 }

/-- The bytes of a list of PDOs. -/
def bytesOfPdos (pdos : List Pdo) : ℕ := (pdos.map Pdo.bytes).sum

/-- `build_pdos`, of a template and its extra blocks. -/
def buildPdos (cfg : Cfg) (objs : List Object) (template : PdoSpec) (extras : List PdoSpec) :
    Except Die (List Pdo × ℕ) := do
  let axes ← (List.range cfg.count).mapM (axisPdo cfg template objs)
  let blocks ← extras.mapM (extraPdo cfg objs)
  let pdos := axes ++ blocks
  checkDistinct .sharedIndex [] (pdos.map Pdo.index)
  .ok (pdos, bytesOfPdos pdos)

/-! ## SyncManagers -/

abbrev smcOutputs : ℕ := 0x24
abbrev smcInputs : ℕ := 0x20
abbrev smcWatchdog : ℕ := 0x40

/-- `sm_control`. -/
def smControl (cfg : Cfg) : ℕ × ℕ :=
  (if cfg.syncManagers.watchdog then smcOutputs ||| smcWatchdog else smcOutputs, smcInputs)

/-- What `compute_sm` returns. -/
structure SmLayout where
  rxTotal : ℕ
  txTotal : ℕ
  top : ℕ

/-- `compute_sm`. -/
def computeSm (cfg : Cfg) (rxBytes txBytes : ℕ) : Except Die SmLayout :=
  let sm := cfg.syncManagers
  if sm.inputs < sm.outputs + 3 * rxBytes then .error (.sm2 rxBytes)
  else
    let top := sm.inputs + 3 * txBytes
    if 0x2000 < top then .error (.sm3 top)
    else .ok { rxTotal := rxBytes, txTotal := txBytes, top := top }

/-! ## The object list -/

/-- A row of an `_objd` initialiser, as it is written. -/
structure Row where
  subindex : ℕ
  datatype : Word
  bits : ℕ
  access : Word
  name : String
  value : ℤ
  data : Option Place

/-- The bytes of a C string literal. -/
def literal (s : String) : List Byte := s.toUTF8.toList.map fun b => b.toBitVec

/-- The descriptor that the compiler makes of a row. -/
def Row.objd (addr : Place → ℕ) (r : Row) : Objd where
  subindex := .ofNat 16 r.subindex
  datatype := r.datatype
  bitlength := .ofNat 32 r.bits
  flags := r.access
  name := literal r.name
  value := .ofInt 32 r.value
  data := match r.data with
    | some p => addr p
    | none => 0

/-- A row of `SDOobjects`, with the rows of its `_objd` array. -/
structure ObjectRow where
  index : ℕ
  otype : Word
  maxsub : ℕ
  name : String
  rows : List Row

/-- The object description that the compiler makes of a row. -/
def ObjectRow.objectlist (addr : Place → ℕ) (r : ObjectRow) : Objectlist where
  index := .ofNat 16 r.index
  objtype := r.otype
  maxsub := .ofNat 8 r.maxsub
  name := literal r.name
  objdesc := r.rows.map (Row.objd addr)

/-- `mapping_word`. -/
def mappingWord (e : MapEntry) : ℕ := (e.index <<< 16) ||| (e.sub <<< 8) ||| e.bits

/-- A constant that the master can only read. -/
def constRow (subindex : ℕ) (datatype : Word) (bits : ℕ) (name : String) (value : ℤ) : Row :=
  { subindex := subindex, datatype := datatype, bits := bits, access := Access.ro.atype,
    name := name, value := value, data := none }

/-- Subindex 0 of an object with sub-entries. -/
def countRow (name : String) (count : ℕ) : Row := constRow 0 dtypeUnsigned8 8 name count

/-- The rows of a mapping object, numbered from `i` on. -/
def mappingRows : ℕ → List MapEntry → List Row
  | _, [] => []
  | i, e :: rest =>
      constRow i dtypeUnsigned32 32 e.name (mappingWord e) :: mappingRows (i + 1) rest

/-- The mapping object of a PDO. -/
def pdoRow (p : Pdo) : ObjectRow where
  index := p.index
  otype := ObjectCode.record.otype
  maxsub := p.entries.length
  name := p.name
  rows := countRow p.name p.entries.length :: mappingRows 1 p.entries

/-- The communication types of the SyncManagers: `sm_kinds`. -/
def smKinds : List (ℕ × String) :=
  [(1, "Mailbox Receive"), (2, "Mailbox Send"), (3, "Process Data Output"),
    (4, "Process Data Input")]

/-- Object 0x1C00. -/
def smTypeRow : ObjectRow where
  index := 0x1C00
  otype := otypeArray
  maxsub := 4
  name := "SM Communication Type"
  rows := countRow "SM Communication Type" 4 ::
    smKinds.map fun k => constRow k.1 dtypeUnsigned8 8 k.2 k.1

/-- A number of four hexadecimal digits: `{n:04X}`. -/
def hex4 (n : ℕ) : String :=
  let digits := (Nat.toDigits 16 n).map Char.toUpper
  String.ofList (List.replicate (4 - digits.length) '0' ++ digits)

/-- The rows of an assignment object, numbered from `i` on. -/
def assignRows : ℕ → List Pdo → List Row
  | _, [] => []
  | i, p :: rest =>
      constRow i dtypeUnsigned16 16 ("Assigned PDO " ++ hex4 p.index) p.index ::
        assignRows (i + 1) rest

/-- An assignment object.  The list has a `maxsub` of 1 for it, however many PDOs there are. -/
def assignRow (index : ℕ) (what : String) (pdos : List Pdo) : ObjectRow where
  index := index
  otype := otypeArray
  maxsub := 1
  name := what
  rows := countRow what pdos.length :: assignRows 1 pdos

/-- Where an entry has its storage. -/
def Sub.place (s : Sub) (axis : Option ℕ) : Option Place :=
  s.var.map fun var =>
    match axis with
    | some n => .axis n var
    | none => .obj var

/-- The name of the entries with this subindex: the names are in one table, and the last one
stays. -/
def Object.nameOf (o : Object) (sub : ℕ) : String :=
  match (o.subs.filter fun s => s.sub = sub).getLast? with
  | some s => s.name
  | none => ""

/-- The row of an entry. -/
def Object.subRow (o : Object) (s : Sub) : Row where
  subindex := s.sub
  datatype := s.type.dtype
  bits := s.bits
  access := s.access.atype
  name := o.nameOf s.sub
  value := match s.type, s.value with
    | .string, _ => 0
    | _, .str _ => 0
    | _, .int n => n
  data := match s.type, s.place o.axis, s.value with
    | .string, none, .str text => some (.text text)
    | .string, none, .int n => some (.text (toString n))
    | _, place, _ => place

/-- The entries that have a row of their own. -/
def Object.listed (o : Object) : List Sub :=
  if o.isRecord then o.subs.filter fun s => s.sub ≠ 0 else o.subs

/-- The row of an object. -/
def objectRow (o : Object) : Except Die ObjectRow := do
  let maxsub ← o.maxsub
  .ok {
    index := o.index
    otype := o.otype
    maxsub := maxsub
    name := o.name
    rows := (if o.isRecord then [countRow o.name maxsub] else []) ++ o.listed.map o.subRow }

/-- `emit_objectlist`: the rows of `SDOobjects` before the sentinel. -/
def emitObjectlist (objs : List Object) (rx tx : List Pdo) : Except Die (List ObjectRow) := do
  let rows ← objs.mapM objectRow
  let rows := rows ++ (rx ++ tx).map pdoRow ++
    [smTypeRow, assignRow 0x1C12 "RxPDO Assignment" rx, assignRow 0x1C13 "TxPDO Assignment" tx]
  .ok (rows.insertionSort fun a b => a.index ≤ b.index)

/-! ## Options and ESI -/

/-- A `define` for a SyncManager. -/
structure SmDefine where
  sma : ℕ
  sml : ℕ
  smc : ℕ

/-- The macros of `ecat_options.h` that the stack compiles in. -/
structure OptionsH where
  mbxsize : ℕ
  mbxsizeboot : ℕ
  mbxbuffers : ℕ
  mbx0 : SmDefine
  mbx1 : SmDefine
  mbx0Boot : SmDefine
  mbx1Boot : SmDefine
  sm2Sma : ℕ
  sm2Smc : ℕ
  sm2Act : ℕ
  sm3Sma : ℕ
  sm3Smc : ℕ
  sm3Act : ℕ
  maxMappingsSm2 : ℕ
  maxMappingsSm3 : ℕ
  maxRxpdoSize : ℕ
  maxTxpdoSize : ℕ

/-- The entries of a list of PDOs. -/
def entriesOfPdos (pdos : List Pdo) : List MapEntry := pdos.flatMap Pdo.entries

/-- `emit_options`. -/
def emitOptions (cfg : Cfg) (rx tx : List Pdo) (sm : SmLayout) : OptionsH where
  mbxsize := cfg.mailbox.size
  mbxsizeboot := cfg.mailbox.sizeBoot
  mbxbuffers := cfg.mailbox.buffers
  mbx0 := { sma := cfg.syncManagers.mbxOut, sml := cfg.mailbox.size, smc := 0x26 }
  mbx1 := { sma := cfg.syncManagers.mbxIn, sml := cfg.mailbox.size, smc := 0x22 }
  mbx0Boot := { sma := cfg.syncManagers.mbxOut, sml := cfg.mailbox.sizeBoot, smc := 0x26 }
  mbx1Boot := { sma := cfg.syncManagers.mbxIn, sml := cfg.mailbox.sizeBoot, smc := 0x22 }
  sm2Sma := cfg.syncManagers.outputs
  sm2Smc := (smControl cfg).1
  sm2Act := 1
  sm3Sma := cfg.syncManagers.inputs
  sm3Smc := (smControl cfg).2
  sm3Act := 1
  maxMappingsSm2 := max 8 (entriesOfPdos rx).length
  maxMappingsSm3 := max 8 (entriesOfPdos tx).length
  maxRxpdoSize := sm.rxTotal
  maxTxpdoSize := sm.txTotal

/-- An `Entry` of a PDO in the ESI; padding has no name and no type. -/
structure EsiEntry where
  index : ℕ
  sub : ℕ
  bitLen : ℕ
  described : Option (String × String)

/-- An `RxPdo` or `TxPdo` in the ESI. -/
structure EsiPdo where
  index : ℕ
  name : String
  entries : List EsiEntry

/-- An `Sm` in the ESI; only a mailbox has a `DefaultSize`. -/
structure EsiSm where
  controlByte : ℕ
  startAddress : ℕ
  defaultSize : Option ℕ

/-- What a master configures SyncManagers and process data by. -/
structure Esi where
  sms : List EsiSm
  rxPdos : List EsiPdo
  txPdos : List EsiPdo

/-- `esi_type` of an entry that is described. -/
def esiEntry (e : MapEntry) : Except Die EsiEntry :=
  if e.index = 0 then
    .ok { index := e.index, sub := e.sub, bitLen := e.bits, described := none }
  else
    match e.type.bind Ty.esi with
    | none => .error (.esiType e.index e.sub)
    | some t =>
        .ok { index := e.index, sub := e.sub, bitLen := e.bits, described := some (e.name, t) }

/-- `pdo_block`. -/
def esiPdo (p : Pdo) : Except Die EsiPdo := do
  let entries ← p.entries.mapM esiEntry
  .ok { index := p.index, name := p.name, entries := entries }

/-- `emit_esi`. -/
def emitEsi (cfg : Cfg) (rx tx : List Pdo) : Except Die Esi := do
  let rxPdos ← rx.mapM esiPdo
  let txPdos ← tx.mapM esiPdo
  .ok {
    sms := [
      { controlByte := 0x26, startAddress := cfg.syncManagers.mbxOut,
        defaultSize := some cfg.mailbox.size },
      { controlByte := 0x22, startAddress := cfg.syncManagers.mbxIn,
        defaultSize := some cfg.mailbox.size },
      { controlByte := (smControl cfg).1, startAddress := cfg.syncManagers.outputs,
        defaultSize := none },
      { controlByte := (smControl cfg).2, startAddress := cfg.syncManagers.inputs,
        defaultSize := none }]
    rxPdos := rxPdos
    txPdos := txPdos }

/-! ## The C++ table -/

/-- A row of the C++ table, as far as both tables have it. -/
structure CxxEntry where
  index : ℕ
  sub : ℕ
  name : String
  type : Ty
  access : Access
  bits : ℕ
  storage : Option Place
  constant : ℤ
  text : Option String
  length : Option String
  store : Bool
  disabledOnly : Bool
  allowed : Option (List ℤ)

/-- `add` of a constant. -/
def cxxConst (index sub : ℕ) (name : String) (type : Ty) (bits : ℕ) (constant : ℤ) : CxxEntry :=
  { index := index, sub := sub, name := name, type := type, access := .ro, bits := bits,
    storage := none, constant := constant, text := none, length := none, store := false,
    disabledOnly := false, allowed := none }

/-- The row of an entry. -/
def Object.cxxSub (o : Object) (s : Sub) : CxxEntry where
  index := o.index
  sub := s.sub
  name := s.name
  type := s.type
  access := s.access
  bits := s.bits
  storage := s.place o.axis
  constant := match s.type, s.value with
    | .string, _ => 0
    | _, .str _ => 0
    | _, .int n => n
  text := match s.type, s.var, s.value with
    | .string, none, .str text => some text
    | .string, none, .int n => some (toString n)
    | _, _, _ => none
  length := if s.type = .domain then s.lengthVar else none
  store := s.store
  disabledOnly := s.disabledOnly
  allowed := s.allowed

/-- The rows of an object. -/
def cxxObject (o : Object) : Except Die (List CxxEntry) := do
  let first ← if o.isRecord then
      (fun maxsub => [cxxConst o.index 0 o.name .u8 8 (maxsub : ℕ)]) <$> o.maxsub
    else .ok []
  .ok (first ++ o.listed.map o.cxxSub)

/-- The rows of the entries of a PDO, numbered from `i` on. -/
def cxxMapping (index : ℕ) : ℕ → List MapEntry → List CxxEntry
  | _, [] => []
  | i, e :: rest =>
      cxxConst index i e.name .u32 32 (mappingWord e) :: cxxMapping index (i + 1) rest

/-- The rows of a PDO. -/
def cxxPdo (p : Pdo) : List CxxEntry :=
  cxxConst p.index 0 p.name .u8 8 p.entries.length :: cxxMapping p.index 1 p.entries

/-- The rows of the PDOs of an assignment object, numbered from `i` on. -/
def cxxAssigned (index : ℕ) : ℕ → List Pdo → List CxxEntry
  | _, [] => []
  | i, p :: rest =>
      cxxConst index i ("Assigned PDO " ++ hex4 p.index) .u16 16 p.index ::
        cxxAssigned index (i + 1) rest

/-- The rows of an assignment object. -/
def cxxAssign (index : ℕ) (what : String) (pdos : List Pdo) : List CxxEntry :=
  cxxConst index 0 what .u8 8 pdos.length :: cxxAssigned index 1 pdos

/-- The rows of object 0x1C00. -/
def cxxSmType : List CxxEntry :=
  cxxConst 0x1C00 0 "SM Communication Type" .u8 8 4 ::
    smKinds.map fun k => cxxConst 0x1C00 k.1 k.2 .u8 8 k.1

/-- The order of the rows. -/
def CxxEntry.KeyLe (a b : CxxEntry) : Prop :=
  a.index < b.index ∨ (a.index = b.index ∧ a.sub ≤ b.sub)

instance decidableKeyLe : DecidableRel CxxEntry.KeyLe := fun a b =>
  inferInstanceAs (Decidable (a.index < b.index ∨ (a.index = b.index ∧ a.sub ≤ b.sub)))

/-- `cxx_entries`. -/
def cxxEntries (objs : List Object) (rx tx : List Pdo) : Except Die (List CxxEntry) := do
  let rows ← objs.mapM cxxObject
  let rows := rows.flatten ++ (rx ++ tx).flatMap cxxPdo ++ cxxSmType ++
    cxxAssign 0x1C12 "RxPDO Assignment" rx ++ cxxAssign 0x1C13 "TxPDO Assignment" tx
  let rows := rows.insertionSort CxxEntry.KeyLe
  checkDistinct (fun k : ℕ × ℕ => .duplicateEntry k.1 k.2) [] (rows.map fun r => (r.index, r.sub))
  .ok rows

/-! ## A run of the generator -/

/-- What the generator writes. -/
structure Output where
  objects : List Object
  rx : List Pdo
  tx : List Pdo
  sm : SmLayout
  objectlist : List ObjectRow
  options : OptionsH
  esi : Esi

/-- `main`, without the C++ table. -/
def generate (cfg : Cfg) : Except Die Output := do
  let objs ← buildObjects cfg
  let rx ← buildPdos cfg objs cfg.rxpdo cfg.rxpdoExtra
  let tx ← buildPdos cfg objs cfg.txpdo cfg.txpdoExtra
  let sm ← computeSm cfg rx.2 tx.2
  let objectlist ← emitObjectlist objs rx.1 tx.1
  let esi ← emitEsi cfg rx.1 tx.1
  .ok {
    objects := objs
    rx := rx.1
    tx := tx.1
    sm := sm
    objectlist := objectlist
    options := emitOptions cfg rx.1 tx.1 sm
    esi := esi }

end Soes.GenOd
