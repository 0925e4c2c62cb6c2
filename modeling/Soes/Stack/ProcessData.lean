import Soes.Stack.Mailbox

/-!
# Process data

The part of `esc_coe.c` that deals with process data: `sizeOfPDO`, which adds up the objects
assigned to a SyncManager and lists where each lies, the packing and unpacking of the process
image by that list, and the default values.

The counters of `sizeOfPDO` are bytes and are compared with a byte, so a count of 255 makes its
loops go round; the model has the same counters, and such a loop may use up any bound.
-/

namespace Soes

open Program

variable {σ : Type}

/-! ## Values of entries -/

/-- `OBJ_VALUE_FETCH` into a `uint8_t`. -/
def objFetch8 (bytes : ByteStore) (d : Objd) : Byte :=
  if d.data ≠ 0 then bytes d.data else d.value.setWidth 8

/-- `OBJ_VALUE_FETCH` into a `uint16_t`. -/
def objFetch16 (bytes : ByteStore) (d : Objd) : Word :=
  if d.data ≠ 0 then bytes.word d.data else d.value.setWidth 16

/-- `OBJ_VALUE_FETCH` into a `uint32_t`. -/
def objFetch32 (bytes : ByteStore) (d : Objd) : Dword :=
  if d.data ≠ 0 then bytes.dword d.data else d.value

/-- `COE_maxSub`. -/
def coeMaxSub (v : Variables) (index : Word) : Except Fault Byte := do
  match ← sdoFindobject v.table index with
  | none => pure 0
  | some nidx =>
      let o ← objectAt v.table nidx
      let d ← o.row 0
      pure (objFetch8 v.bytes d)

/-! ## Size and mapping of the process data -/

/-- What `sizeOfPDO` leaves: its result and its two output arguments. -/
structure PdoSize where
  size : Word
  nmappings : ℤ
  /-- The elements of the array `mappings` up to the last one that is counted or was written. -/
  mappings : List SmMap

/-- The entry a mapping value points to: `none` where it does not exist, and a padding element
for index and subindex 0. -/
def mappedEntry (table : List Objectlist) (value : Dword) :
    Except Fault (Option (Option Objd)) := do
  let index : Word := (value >>> 16).setWidth 16
  let subindex : Byte := (value >>> 8).setWidth 8
  if index = 0 ∧ subindex = 0 then
    pure (some none)
  else
    match ← sdoFindobject table index with
    | none => pure none
    | some nidx =>
        let o ← objectAt table nidx
        match ← sdoFindsubindex o subindex with
        | none => pure none
        | some nsub => (fun d => some (some d)) <$> o.row nsub

/-- The loop of `sizeOfPDO` over the entries of one PDO.  The loop variable is the subindex, the
bit offset reached and the mappings written so far; at an invalid mapping the loop is left with
those alone. -/
def sizeOfPDOEntries (o : Objectlist) (maxsub : Byte) (maxMappings : ℕ) :
    Byte × ℕ × List SmMap →
      OnVariables (Byte × ℕ × List SmMap ⊕ Except (List SmMap) (ℕ × List SmMap)) :=
  fun (c, offset, maps) => do
    if c ≤ maxsub then
      let v ← ask
      let d ← lift (o.row c.toNat)
      let value := objFetch32 v.bytes d
      let offset' := (offset + (value.setWidth 8).toNat) % 2 ^ 32
      if maxMappings = 0 then
        pure (.inl (c + 1, offset', maps))
      else if maps.length = maxMappings then
        -- too many mapped objects
        pure (.inr (.error maps))
      else
        match ← lift (mappedEntry v.table value) with
        | none => pure (.inr (.error maps))
        | some obj => pure (.inl (c + 1, offset', maps ++ [⟨obj, offset⟩]))
    else
      pure (.inr (.ok (offset, maps)))

/-- The loop of `sizeOfPDO` over the PDOs assigned to the SyncManager. -/
def sizeOfPDOAssigned (assign : Objectlist) (si : Byte) (maxMappings : ℕ) :
    Byte × ℕ × List SmMap →
      OnVariables (Byte × ℕ × List SmMap ⊕ Except (List SmMap) (ℕ × List SmMap)) :=
  fun (sic, offset, maps) => do
    if sic ≤ si then
      let v ← ask
      let hobj := objFetch16 v.bytes (← lift (assign.row sic.toNat))
      match ← lift (sdoFindobject v.table hobj) with
      | none => pure (.inl (sic + 1, offset, maps))
      | some nidx =>
          let o ← lift (objectAt v.table nidx)
          let maxsub := objFetch8 v.bytes (← lift (o.row 0))
          match ← loop (sizeOfPDOEntries o maxsub maxMappings) (1, offset, maps) with
          | .error maps' => pure (.inr (.error maps'))
          | .ok (offset', maps') => pure (.inl (sic + 1, offset', maps'))
    else
      pure (.inr (.ok (offset, maps)))

/-- `sizeOfPDO`, given the present values of its output arguments. -/
def sizeOfPDO (index : Word) (nmappings : ℤ) (mappings : List SmMap) (maxMappings : ℕ) :
    OnVariables PdoSize := do
  if index ≠ rxPdoObjidx ∧ index ≠ txPdoObjidx then
    pure ⟨0, nmappings, mappings⟩
  else
    let v ← ask
    match ← lift (sdoFindobject v.table index) with
    | none => pure ⟨0, nmappings, mappings⟩
    | some nidx =>
        let assign ← lift (objectAt v.table nidx)
        let si := objFetch8 v.bytes (← lift (assign.row 0))
        match ← loop (sizeOfPDOAssigned assign si maxMappings) (1, 0, []) with
        -- the elements written before the invalid one have replaced those of before
        | .error maps => pure ⟨0, -1, maps ++ mappings.drop maps.length⟩
        | .ok (offset, maps) =>
            pure ⟨.ofNat 16 (bits2bytes offset),
              if maxMappings = 0 then 0 else (maps.length : ℤ), maps⟩

/-! ## The process image -/

/-- A mask of `length` bits of a 64-bit word. -/
def bitsliceMask (length : ℕ) : BitVec 64 :=
  if length = 64 then BitVec.allOnes 64 else (1 <<< length) - 1

/-- `COE_bitsliceGet`. -/
def coeBitsliceGet (bitmap : ByteStore) (offset length : ℕ) : BitVec 64 :=
  let word := offset / 64
  let bit := offset % 64
  let w0 := bitmap.qword (8 * word) >>> bit
  let w1 := if 64 < length + bit then bitmap.qword (8 * (word + 1)) <<< (64 - bit) else 0
  (w1 ||| w0) &&& bitsliceMask length

/-- `COE_bitsliceSet`. -/
def coeBitsliceSet (bitmap : ByteStore) (offset length : ℕ) (value : BitVec 64) : ByteStore :=
  let word := offset / 64
  let bit := offset % 64
  let mask := bitsliceMask length
  let mask0 := mask <<< bit
  let w0 := bitmap.qword (8 * word)
  let bitmap := bitmap.setQword (8 * word) ((w0 &&& ~~~mask0) ||| ((value <<< bit) &&& mask0))
  if 64 < length + bit then
    let mask1 := mask >>> (64 - bit)
    let w1 := bitmap.qword (8 * (word + 1))
    bitmap.setQword (8 * (word + 1))
      ((w1 &&& ~~~mask1) ||| ((value >>> (64 - bit)) &&& mask1))
  else
    bitmap

/-- The bytes of a value of a basic data type, as `COE_getValue` and `COE_setValue` know them. -/
def valueBytes (datatype : Word) : Option ℕ :=
  if (dtypeBit1 ≤ datatype ∧ datatype ≤ dtypeBit8) ∨ datatype = dtypeBoolean ∨
      datatype = dtypeUnsigned8 ∨ datatype = dtypeInteger8 ∨ datatype = dtypeBitarr8 then some 1
  else if datatype = dtypeUnsigned16 ∨ datatype = dtypeInteger16 ∨
      datatype = dtypeBitarr16 then some 2
  else if datatype = dtypeReal32 ∨ datatype = dtypeUnsigned32 ∨ datatype = dtypeInteger32 ∨
      datatype = dtypeBitarr32 then some 4
  else if datatype = dtypeReal64 ∨ datatype = dtypeUnsigned64 ∨
      datatype = dtypeInteger64 then some 8
  else none

/-- `COE_getValue`. -/
def coeGetValue (bytes : ByteStore) (d : Objd) : Except Fault (BitVec 64) :=
  match valueBytes d.datatype with
  | none => .error .assertion
  | some n =>
      if d.data = 0 then .error .null
      else .ok (bytes.qword d.data &&& bitsliceMask (8 * n))

/-- `COE_setValue`. -/
def coeSetValue (bytes : ByteStore) (d : Objd) (value : BitVec 64) : Except Fault ByteStore :=
  match valueBytes d.datatype with
  | none => .ok bytes
  | some n => if d.data = 0 then .error .null else .ok (bytes.copy d.data n (.ofQword value) 0)

/-- `COE_pdoPack`, over the first `n` mappings. -/
def coePdoPack (bytes : ByteStore) : List SmMap → ByteStore → Except Fault ByteStore
  | [], buffer => .ok buffer
  | ⟨none, _⟩ :: maps, buffer => coePdoPack bytes maps buffer
  | ⟨some d, offset⟩ :: maps, buffer => do
      if 64 < d.bitlength.toNat then
        if d.data = 0 then .error .null
        else coePdoPack bytes maps (buffer.copy (offset / 8) d.size bytes d.data)
      else
        let value ← coeGetValue bytes d
        coePdoPack bytes maps (coeBitsliceSet buffer offset d.bitlength.toNat value)

/-- `COE_pdoUnpack`, over the first `n` mappings. -/
def coePdoUnpack (buffer : ByteStore) : List SmMap → ByteStore → Except Fault ByteStore
  | [], bytes => .ok bytes
  | ⟨none, _⟩ :: maps, bytes => coePdoUnpack buffer maps bytes
  | ⟨some d, offset⟩ :: maps, bytes => do
      if 64 < d.bitlength.toNat then
        if d.data = 0 then .error .null
        else coePdoUnpack buffer maps (bytes.copy d.data d.size buffer (offset / 8))
      else
        let bytes ← coeSetValue bytes d (coeBitsliceGet buffer offset d.bitlength.toNat)
        coePdoUnpack buffer maps bytes

/-! ## Default values -/

/-- The loop of `COE_initDefaultValues` over the rows of one object. -/
def initDefaultRows (index : Word) (maxsub : Byte) : List Objd → ByteStore → Except Fault ByteStore
  | [], _ => .error (.row index)
  | d :: rows, bytes => do
      let bytes ← if d.data ≠ 0 then coeSetValue bytes d (d.value.setWidth 64) else pure bytes
      if d.subindex < maxsub.setWidth 16 then
        initDefaultRows index maxsub rows bytes
      else
        pure bytes

/-- The loop of `COE_initDefaultValues` over `SDOobjects`. -/
def initDefaultObjects : List Objectlist → ByteStore → Except Fault ByteStore
  | [], _ => .error .table
  | o :: rest, bytes => do
      if o.index = 0xFFFF then pure bytes
      else initDefaultObjects rest (← initDefaultRows o.index o.maxsub o.objdesc bytes)

/-- Run a callback of the application. -/
def callApp (call : AppCall σ) : Stack σ Unit :=
  modify fun w =>
    let a := call w.outside w.mem.bytes w.alEvent
    { w with
      outside := a.outside
      alEvent := a.alEvent
      mem := { w.mem with bytes := a.bytes } }

/-- Run a callback of the application if there is one. -/
def callHook (hook : Option (AppCall σ)) : Stack σ Unit :=
  match hook with
  | none => pure ()
  | some call => callApp call

/-- `COE_initDefaultValues`. -/
def coeInitDefaultValues : Stack σ Unit := do
  let sys ← ask
  when (sys.cfg.skipDefaultInitialization = false) do
    let w ← get
    let bytes ← lift (initDefaultObjects sys.dict.table w.mem.bytes)
    modify fun w => { w with mem := { w.mem with bytes := bytes } }
    callHook sys.cfg.setDefaultsHook

end Soes
