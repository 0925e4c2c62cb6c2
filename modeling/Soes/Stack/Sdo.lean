import Soes.Stack.ProcessData

/-!
# SDO transfers

The SDO server of `esc_coe.c`: uploads and downloads of one entry, of a whole object by Complete
Access, and their segments.  The inbox is buffer 0; a reply goes to a claimed buffer.

Every write of the server to the variables goes through `sdoStore` or `sdoFill`, which keep the
history of writes, and every length computed from a message header through `headerTail`, which
notes when it falls below zero.  Lengths are 32-bit in the source and go round below zero.

Offsets into a buffer are those of `_COEsdo`: service at 6, command at 8, index at 9, subindex
at 11, size at 12, data of a normal transfer at 16; the data of a segment starts at 9.
-/

namespace Soes

open Program

variable {σ : Type}

/-! ## Reading the request -/

namespace Mailbox

variable (m : Mailbox)

/-- `coeheader.numberservice >> 12` of the inbox. -/
def service : Word := m.mbx.word 6 >>> 12
/-- `command` of the inbox. -/
def sdoCommand : Byte := m.mbx 8
/-- `index` of the inbox, as an SDO request. -/
def sdoIndex : Word := m.mbx.word 9
/-- `subindex` of the inbox, as an SDO request. -/
def sdoSubindex : Byte := m.mbx 11
/-- `size` of the inbox, as an SDO request. -/
def sdoSize : Dword := m.mbx.dword 12

/-- Address of the size field of an SDO message, and of the data of an expedited transfer. -/
abbrev sizeOffset : ℕ := 12
/-- Address of the data of a normal transfer. -/
abbrev dataOffset : ℕ := 16
/-- Address of the data of a segment. -/
abbrev segmentOffset : ℕ := 9

/-- Fill in the header and the fixed fields of an SDO reply in buffer `n`. -/
def putSdo (n length : ℕ) (service : Word) (command : Byte) (index : Word) (subindex : Byte) :
    Mailbox :=
  (m.setHeader n length mbxcoe).updateMbx fun mbx =>
    (((mbx.setWord (m.buffer n + 6) (service <<< 12)).set (m.buffer n + 8) command).setWord
      (m.buffer n + 9) index).set (m.buffer n + 11) subindex

/-- Fill in the size field of an SDO reply in buffer `n`. -/
def putSize (n : ℕ) (size : Dword) : Mailbox :=
  m.updateMbx fun mbx => mbx.setDword (m.buffer n + sizeOffset) size

/-- Add bits to the command of an SDO reply in buffer `n`. -/
def orCommand (n : ℕ) (bits : Byte) : Mailbox :=
  m.updateMbx fun mbx => mbx.set (m.buffer n + 8) (mbx (m.buffer n + 8) ||| bits)

/-- Fill in the length of buffer `n`. -/
def putLength (n length : ℕ) : Mailbox :=
  m.updateMbx fun mbx => mbx.setWord (m.buffer n) (.ofNat 16 length)

/-- The inbox is given back: `MBXcontrol[0]` is idle and `ESCvar.xoe` is 0. -/
def release : Mailbox := { m.setControl 0 .idle with xoe := 0 }

end Mailbox

/-- Change the mailboxes. -/
def coeModifyMb (f : Mailbox → Mailbox) : OnCoe σ Unit := modify fun c => { c with mb := f c.mb }

/-- The mailboxes. -/
def coeMb : OnCoe σ Mailbox := do pure (← get).mb

/-- `SDOobjects`. -/
def coeTable : OnCoe σ (List Objectlist) := do pure (← ask).sys.dict.table

/-- `ESCvar.ALstatus & 0x0f`. -/
def coeState : OnCoe σ Byte := do pure ((← ask).alStatus.setWidth 8 &&& 0x0f)

/-! ## Access to the variables -/

/-- Write `len` bytes from `src` to the variables. -/
def sdoStore (dst len : ℕ) (src : ByteStore) (start : ℕ) : OnCoe σ Unit :=
  if dst = 0 ∧ len ≠ 0 then fault .null
  else modify fun c => { c with mem :=
    { c.mem with
      bytes := c.mem.bytes.copy dst len src start
      writes := (dst, len) :: c.mem.writes } }

/-- Clear `len` bytes of the variables.  A length that has gone round below zero is more than there
is memory, and the `memset` does not come back. -/
def sdoFill (dst len : ℕ) : OnCoe σ Unit :=
  if 2 ^ 31 ≤ len then fault .overrun else sdoStore dst len (fun _ => 0) 0

/-- `copy2mbx` from the variables to address `dst` of `MBX`. -/
def sdoLoad (src len dst : ℕ) : OnCoe σ Unit :=
  if src = 0 ∧ len ≠ 0 then fault .null
  else modify fun c =>
    { c with mb := c.mb.updateMbx fun mbx => mbx.copy dst len c.mem.bytes src }

/-- A length of the header without `size` bytes. -/
def headerTail (length size : ℕ) : OnCoe σ ℕ :=
  transact fun _ c =>
    (sub32 length size,
      { c with mem := { c.mem with wrapped := c.mem.wrapped || decide (length < size) } })

/-! ## Hooks -/

/-- Run an SDO hook, which answers with a code. -/
def callSdoHook (call : σ → ByteStore → HookAnswer σ) : OnCoe σ Dword :=
  transact fun _ c =>
    let a := call c.outside c.mem.bytes
    (a.code, { c with outside := a.outside, mem := { c.mem with bytes := a.bytes } })

/-- `ESC_download_pre_objecthandler`, with the data at address `data` of `MBX`. -/
def escDownloadPreObjecthandler (index : Word) (subindex : Byte) (data size : ℕ)
    (flags : Word) : OnCoe σ Dword := do
  let env ← ask
  let c ← get
  let minSub : Byte := if flags &&& completeAccessFlag = 0 then 0 else 1
  let isPdo := (0x1600 ≤ index ∧ index < 0x1800) ∨ (0x1A00 ≤ index ∧ index < 0x1C00) ∨
    index = rxPdoObjidx ∨ index = txPdoObjidx
  let locked ← (if isPdo ∧ minSub < subindex then
      (fun maxsub : Byte => decide (maxsub ≠ 0)) <$>
        lift (coeMaxSub ⟨env.sys.dict.table, c.mem.bytes⟩ index)
    else pure false)
  if locked then
    pure abortSubindex0NotZero
  else
    match env.sys.cfg.preObjectDownloadHook with
    | some hook =>
        callSdoHook fun o bytes =>
          hook o bytes index subindex (fun i => c.mb.mbx (data + i)) size flags
    | none => pure 0

/-- `ESC_download_post_objecthandler`. -/
def escDownloadPostObjecthandler (index : Word) (subindex : Byte) (flags : Word) :
    OnCoe σ Dword := do
  match (← ask).sys.cfg.postObjectDownloadHook with
  | some hook => callSdoHook fun o bytes => hook o bytes index subindex flags
  | none => pure 0

/-- `ESC_upload_pre_objecthandler`; the second result is the size as the hook leaves it. -/
def escUploadPreObjecthandler (index : Word) (subindex : Byte) (data size : ℕ) (flags : Word) :
    OnCoe σ (Dword × ℕ) := do
  match (← ask).sys.cfg.preObjectUploadHook with
  | some hook => transact fun _ c =>
      let a := hook c.outside c.mem.bytes index subindex data size flags
      ((a.1.code, a.2 % 2 ^ 32),
        { c with outside := a.1.outside, mem := { c.mem with bytes := a.1.bytes } })
  | none => pure (0, size)

/-- `ESC_upload_post_objecthandler`. -/
def escUploadPostObjecthandler (index : Word) (subindex : Byte) (flags : Word) :
    OnCoe σ Dword := do
  match (← ask).sys.cfg.postObjectUploadHook with
  | some hook => callSdoHook fun o bytes => hook o bytes index subindex flags
  | none => pure 0

/-! ## Replies -/

/-- `SDO_abort`. -/
def sdoAbort (reusembx : ℕ) (index : Word) (subindex : Byte) (abortcode : Dword) :
    OnCoe σ Unit := do
  let n ← (if reusembx ≠ 0 then pure reusembx else onMb escClaimbuffer)
  when (n ≠ 0) <| coeModifyMb fun m =>
    (((m.putSdo n coeDefaultlength coeSdorequest coeCommandSdoabort index subindex).putSize n
      abortcode).setControl n .outreq)

/-- `set_state_idle`. -/
def setStateIdle (reusembx : ℕ) (index : Word) (subindex : Byte) (abortcode : Dword) :
    OnCoe σ Unit := do
  when (abortcode ≠ 0) (sdoAbort reusembx index subindex abortcode)
  coeModifyMb .release

/-- The reply that confirms a download, in buffer `n`. -/
def downloadResponse (n : ℕ) (command : Byte) (index : Word) (subindex : Byte) :
    OnCoe σ Unit :=
  coeModifyMb fun m =>
    ((m.putSdo n coeDefaultlength coeSdoresponse command index subindex).putSize n 0).setControl
      n .outreq

/-- `ESC_SDO_complete`. -/
def escSdoComplete (abortcode : Dword) : OnCoe σ Unit := do
  let held := (← coeMb).sdoHeld
  when held.active do
    coeModifyMb fun m => { m with sdoHeld := { m.sdoHeld with active := false } }
    if abortcode ≠ 0 then
      sdoAbort 0 held.index held.subindex abortcode
    else
      let n ← onMb escClaimbuffer
      when (n ≠ 0) (downloadResponse n coeCommandDownloadresponse held.index held.subindex)

/-! ## Lookup -/

/-- The descriptor of an entry, or the abort code of a request for it. -/
def lookupEntry (table : List Objectlist) (index : Word) (subindex : Byte) :
    Except Fault (Except Dword Objd) := do
  match ← sdoFindobject table index with
  | none => pure (.error abortNoobject)
  | some nidx =>
      let o ← objectAt table nidx
      match ← sdoFindsubindex o subindex with
      | none => pure (.error abortNosubindex)
      | some nsub => .ok <$> o.row nsub

/-- `complete_access_get_variables`: the object and the first row, or the abort code. -/
def completeAccessGetVariables (table : List Objectlist) (index : Word) (subindex : Byte) :
    Except Fault (Except Dword (Objectlist × ℕ)) := do
  if 1 < subindex then
    pure (.error abortUnsupported)
  else
    match ← sdoFindobject table index with
    | none => pure (.error abortNoobject)
    | some nidx =>
        let o ← objectAt table nidx
        match ← sdoFindsubindex o subindex with
        | none => pure (.error abortNosubindex)
        | some nsub => pure (.ok (o, nsub))

/-! ## Upload -/

/-- The expedited bits of a reply, by the length in bits. -/
def expeditedBits (bits : ℕ) : Byte :=
  if 24 < bits then 0x00 else if 16 < bits then 0x04 else if 8 < bits then 0x08 else 0x0c

/-- The end of an upload: when no segments follow the post-upload hook runs, and may turn the
reply in buffer `n` into an abort. -/
def finishUpload (n : ℕ) (index : Word) (subindex : Byte) (flags : Word) : OnCoe σ Unit := do
  let abort ← (if (← coeMb).segmented = 0 then
      escUploadPostObjecthandler index subindex flags
    else pure 0)
  if abort ≠ 0 then
    setStateIdle n index subindex abort
  else
    coeModifyMb fun m => m.setControl n .outreq
    coeModifyMb .release

/-- `SDO_upload`, the expedited reply. -/
def sdoUploadExpedited (n : ℕ) (index : Word) (subindex : Byte) (d : Objd) : OnCoe σ Unit := do
  coeModifyMb fun m => m.orCommand n (coeExpeditedIndicator ||| expeditedBits d.bitlength.toNat)
  let (abort, size) ← escUploadPreObjecthandler index subindex d.data d.size d.flags
  if abort ≠ 0 then
    setStateIdle n index subindex abort
  else
    if d.data = 0 then
      -- use constant value
      coeModifyMb fun m => m.putSize n d.value
    else
      let m ← coeMb
      sdoLoad d.data size (m.buffer n + Mailbox.sizeOffset)
    finishUpload n index subindex d.flags

/-- `SDO_upload`, the normal reply, which may start a segmented transfer. -/
def sdoUploadNormal (n : ℕ) (index : Word) (subindex : Byte) (d : Objd) : OnCoe σ Unit := do
  let (abort, size) ← escUploadPreObjecthandler index subindex d.data d.size d.flags
  if abort ≠ 0 then
    setStateIdle n index subindex abort
  else
    coeModifyMb fun m => { m.putSize n (.ofNat 32 size) with frags := size }
    let m ← coeMb
    let segments := m.mbxDsize < (size + coeHeadersize) % 2 ^ 32
    let first := if segments then sub32 m.mbxDsize coeHeadersize else size
    if segments then
      coeModifyMb fun m => { m with
        fragsleft := first
        segmented := mbxseu
        data := d.data
        flags := d.flags }
    else
      coeModifyMb fun m => { m with segmented := 0 }
    coeModifyMb fun m => m.putLength n (coeHeadersize + first)
    sdoLoad d.data first (m.buffer n + Mailbox.dataOffset)
    finishUpload n index subindex d.flags

/-- `SDO_upload`. -/
def sdoUpload : OnCoe σ Unit := do
  let m ← coeMb
  let index := m.sdoIndex
  let subindex := m.sdoSubindex
  match ← lift (lookupEntry (← coeTable) index subindex) with
  | .error abort => setStateIdle 0 index subindex abort
  | .ok d =>
      if ¬ readAccess d.access (← coeState) then
        setStateIdle 0 index subindex abortWriteonly
      else
        let n ← onMb escClaimbuffer
        if n = 0 then
          coeModifyMb .release
        else
          coeModifyMb fun m => m.putSdo n coeDefaultlength coeSdoresponse
            (coeCommandUploadresponse ||| coeSizeIndicator) index subindex
          if d.size ≤ 4 then sdoUploadExpedited n index subindex d
          else sdoUploadNormal n index subindex d

/-! ## Complete Access -/

/-- What a pass over the entries of an object does with each of them. -/
inductive CaMode where
  /-- Add up the sizes. -/
  | size
  /-- Collect the values in `ESCvar.mbxdata`. -/
  | upload
  /-- Distribute the bytes at this address of `MBX`. -/
  | fromMailbox (start : ℕ)
  /-- Distribute the bytes of `ESCvar.mbxdata`. -/
  | fromMbxdata

/-- The bytes an entry is uploaded from: its storage, or its constant. -/
def Objd.source (d : Objd) (bytes : ByteStore) : ByteStore :=
  if d.data ≠ 0 then fun i => bytes (d.data + i) else .ofDword d.value

/-- `complete_access_subindex_loop`, upload of one entry at bit `size` of `ESCvar.mbxdata`. -/
def caUploadEntry (d : Objd) (size : ℕ) : OnCoe σ Unit := do
  let mbxdata := (← ask).sys.mbxdata
  let bytes := (← get).mem.bytes
  let state ← coeState
  let bitlen := d.bitlength.toNat
  let bitoffset := size % 8
  if bitlen % 8 = 0 then
    -- a non-bit data type lies at a byte boundary; write-only entries read as zeroes
    sdoStore (mbxdata + bits2bytes size) d.size
      (if readAccess d.access state then d.source bytes else fun _ => 0) 0
  else
    let at_ := mbxdata + size / 8
    let bitmask : Dword := (1 <<< bitlen) - 1
    if readAccess d.access state then
      let old := if bitoffset = 0 then 0 else bytes at_
      let new := (((d.source bytes 0).setWidth 32 &&& bitmask) <<< bitoffset).setWidth 8
      sdoStore at_ 1 (fun _ => old ||| new) 0
    else
      sdoStore at_ 1 (fun _ => bytes at_ &&& (~~~(bitmask <<< bitoffset)).setWidth 8) 0

/-- `complete_access_subindex_loop`, download of one entry from bit `size` of the data. -/
def caDownloadEntry (data : ByteStore) (d : Objd) (size : ℕ) : OnCoe σ Unit := do
  -- download of read-only entries is ignored, and so are bit types
  when (d.bitlength.toNat % 8 = 0 ∧ writeAccess d.access (← coeState)) <|
    sdoStore d.data d.size data (bits2bytes size)

/-- `complete_access_subindex_loop`, one entry at bit `size`. -/
def caEntry (mode : CaMode) (d : Objd) (size : ℕ) : OnCoe σ Unit := do
  let c ← get
  match mode with
  | .size => pure ()
  | .upload => caUploadEntry d size
  | .fromMailbox start => caDownloadEntry (fun i => c.mb.mbx (start + i)) d size
  | .fromMbxdata => do
      let mbxdata := (← ask).sys.mbxdata
      caDownloadEntry (fun i => c.mem.bytes (mbxdata + i)) d size

/-- The bit an entry starts at: a non-bit type moves on to the next byte. -/
def entryStart (d : Objd) (size : ℕ) : ℕ :=
  if d.bitlength.toNat % 8 = 0 ∧ size % 8 ≠ 0 then (size + (8 - size % 8)) % 2 ^ 32 else size

/-- The bit after an entry: subindex 0 is padded to 16 bits unless the object is a variable. -/
def entryEnd (o : Objectlist) (nsub : ℕ) (d : Objd) (start : ℕ) : ℕ :=
  (start + if nsub = 0 ∧ o.objtype ≠ otypeVar then 16 else d.bitlength.toNat) % 2 ^ 32

/-- The loop of `complete_access_subindex_loop`, with `left` rows to go. -/
def caRows (o : Objectlist) (mode : CaMode) (maxBytes : ℕ) : ℕ → ℕ → ℕ → OnCoe σ ℕ
  | 0, _, size => pure size
  | left + 1, nsub, size => do
      let d ← lift (o.row nsub)
      let start := entryStart d size
      caEntry mode d start
      let size := entryEnd o nsub d start
      if 0 < maxBytes ∧ maxBytes ≤ bits2bytes size then pure size
      else caRows o mode maxBytes left (nsub + 1) size

/-- `complete_access_subindex_loop`, from row `nsub` on; the result is a size in bits or an abort
code. -/
def completeAccessSubindexLoop (o : Objectlist) (nsub : ℕ) (mode : CaMode) (maxBytes : ℕ) :
    OnCoe σ ℕ := do
  let first ← lift (o.row 0)
  if first.datatype = dtypeVisibleString ∨ first.datatype = dtypeOctetString ∨
      first.datatype = dtypeUnicodeString then
    -- entries of variable length cannot be accessed with Complete Access
    pure abortCaNotSupported.toNat
  else
    match mode with
    | .upload =>
        -- clear the padding of subindex 0
        sdoFill ((← ask).sys.mbxdata + 1) 1
    | _ => pure ()
    caRows o mode maxBytes (o.maxsub.toNat + 1 - nsub) nsub 0

/-- `SDO_upload_complete_access`, the reply in buffer `n` once the data is collected. -/
def caUploadReply (n : ℕ) (index : Word) (subindex : Byte) (bits size : ℕ) (flags : Word) :
    OnCoe σ Unit := do
  let mbxdata := (← ask).sys.mbxdata
  coeModifyMb fun m => { m.putSdo n coeDefaultlength coeSdoresponse
    (coeCommandUploadresponse ||| coeCompleteaccess ||| coeSizeIndicator) index subindex with
    segmented := 0 }
  let m ← coeMb
  if size ≤ 4 then
    coeModifyMb fun m => m.orCommand n (coeExpeditedIndicator |||
      (if 24 < bits then 0 else .ofNat 8 (4 * sub32 3 (sub32 bits 1 / 8))))
    sdoLoad mbxdata size (m.buffer n + Mailbox.sizeOffset)
  else
    coeModifyMb fun m => m.putSize n (.ofNat 32 size)
    let segments := m.mbxDsize < (size + coeHeadersize) % 2 ^ 32
    let first := if segments then sub32 m.mbxDsize coeHeadersize else size
    when segments <| coeModifyMb fun m => { m with
      frags := size
      fragsleft := first
      segmented := mbxseu
      data := mbxdata
      flags := completeAccessFlag }
    coeModifyMb fun m => m.putLength n (coeHeadersize + first)
    sdoLoad mbxdata first (m.buffer n + Mailbox.dataOffset)
  finishUpload n index subindex flags

/-- `SDO_upload_complete_access`. -/
def sdoUploadCompleteAccess : OnCoe σ Unit := do
  let m ← coeMb
  let index := m.sdoIndex
  let subindex := m.sdoSubindex
  match ← lift (completeAccessGetVariables (← coeTable) index subindex) with
  | .error abort => setStateIdle 0 index subindex abort
  | .ok (o, nsub) =>
      let n ← onMb escClaimbuffer
      if n = 0 then
        setStateIdle 0 index subindex 0
      else
        let first ← lift (o.row 0)
        let bits ← completeAccessSubindexLoop o nsub .size 0
        let size := bits2bytes bits
        let opts := (← ask).sys.opts
        if 0xffff < size then
          -- the size is in this case an abort code
          setStateIdle n index subindex (.ofNat 32 size)
        else if opts.preallocBufferSize < size + opts.preallocFactor * coeHeadersize then
          setStateIdle n index subindex abortCaNotSupported
        else
          let flags := first.flags ||| completeAccessFlag
          let (abort, size) ← escUploadPreObjecthandler index subindex first.data size flags
          if abort ≠ 0 then
            setStateIdle n index subindex abort
          else
            let _ ← completeAccessSubindexLoop o nsub .upload 0
            caUploadReply n index subindex bits size flags

/-! ## Upload segments -/

/-- `SDO_uploadsegment`. -/
def sdoUploadsegment : OnCoe σ Unit := do
  let req ← coeMb
  let n ← onMb escClaimbuffer
  if n = 0 then
    coeModifyMb .release
  else
    let m ← coeMb
    let offset := m.fragsleft
    let size := sub32 m.frags m.fragsleft
    let command := coeCommandUploadsegment ||| (req.sdoCommand &&& coeTogglebit)
    coeModifyMb fun m =>
      m.putSdo n coeDefaultlength coeSdoresponse command req.sdoIndex req.sdoSubindex
    let more := m.mbxDsize < (size + coeSegmentheadersize) % 2 ^ 32
    let size := if more then sub32 m.mbxDsize coeSegmentheadersize else size
    if more then
      coeModifyMb fun m =>
        { m.putLength n (coeSegmentheadersize + size) with
          fragsleft := (m.fragsleft + size) % 2 ^ 32 }
    else
      -- last segment
      coeModifyMb fun m => { m.orCommand n coeCommandLastsegmentbit with
        segmented := 0
        frags := 0
        fragsleft := 0 }
      if 7 ≤ size then
        coeModifyMb fun m => m.putLength n (coeSegmentheadersize + size)
      else
        coeModifyMb fun m => (m.orCommand n (.ofNat 8 ((7 - size) * 2))).putLength n
          coeDefaultlength
    if m.data = 0 ∧ size ≠ 0 then
      fault .null
    else
      sdoLoad (m.data + offset) size (m.buffer n + Mailbox.segmentOffset)
      finishUpload n req.sdoIndex req.sdoSubindex m.flags

/-! ## Download -/

/-- The data types whose entries may be downloaded in a length of their own. -/
def flexibleLength (datatype : Word) : Bool :=
  datatype = dtypeOctetString ∨ datatype = dtypeUnicodeString ∨ datatype = dtypeArrayOfInt ∨
  datatype = dtypeArrayOfSint ∨ datatype = dtypeArrayOfDint ∨ datatype = dtypeArrayOfUdint

/-- The announced size of a download and the address of its data in the inbox. -/
def Mailbox.downloadData (m : Mailbox) : ℕ × ℕ :=
  if m.sdoCommand &&& coeExpeditedIndicator ≠ 0 then
    (4 - (m.sdoCommand &&& 0x0c).toNat / 4, Mailbox.sizeOffset)
  else
    (m.sdoSize.toNat % 2 ^ 16, Mailbox.dataOffset)

/-- The announced data does not fit this message: `size > 4` and more than the message holds. -/
def needsSegments (length size : ℕ) : OnCoe σ Bool := do
  if 4 < size then
    let tail ← headerTail length coeHeadersize
    pure (decide (tail < size))
  else
    pure false

/-- `SDO_download`, accepted: the data of this message goes to the entry, and the rest is awaited
in segments. -/
def sdoDownloadAccepted (index : Word) (subindex : Byte) (d : Objd) (size data : ℕ) :
    OnCoe σ Unit := do
  let m ← coeMb
  let length := (m.headerLength 0).toNat
  let segments ← needsSegments length size
  let first := if segments then sub32 length coeHeadersize else size
  if segments then
    coeModifyMb fun m => { m with
      segmented := mbxsed
      data := d.data + first
      index := index
      subindex := subindex
      flags := d.flags }
  else
    coeModifyMb fun m => { m with segmented := 0 }
  sdoStore d.data first m.mbx data
  let n ← onMb escClaimbuffer
  when (n ≠ 0) (downloadResponse n coeCommandDownloadresponse index subindex)
  when (segments = false) do
    -- external object write handler
    let abort ← escDownloadPostObjecthandler index subindex d.flags
    when (abort ≠ 0) (sdoAbort n index subindex abort)

/-- `SDO_download`, once the entry may be written and the size is acceptable: the pre-download
hook accepts, refuses or holds the request. -/
def sdoDownloadEntry (index : Word) (subindex : Byte) (d : Objd) (size data : ℕ) :
    OnCoe σ Unit := do
  let abort ← escDownloadPreObjecthandler index subindex data size d.flags
  if abort = escSdoPending then
    -- the application holds the reply back; only a transfer that fits can be held
    let m ← coeMb
    if ← needsSegments (m.headerLength 0).toNat size then
      sdoAbort 0 index subindex abortGeneralerror
    else
      coeModifyMb fun m => { m with sdoHeld := ⟨true, index, subindex⟩ }
  else if abort = 0 then
    sdoDownloadAccepted index subindex d size data
  else
    sdoAbort 0 index subindex abort
  coeModifyMb .release

/-- `SDO_download`. -/
def sdoDownload : OnCoe σ Unit := do
  let m ← coeMb
  let index := m.sdoIndex
  let subindex := m.sdoSubindex
  match ← lift (lookupEntry (← coeTable) index subindex) with
  | .error abort => setStateIdle 0 index subindex abort
  | .ok d =>
      if ¬ writeAccess d.access (← coeState) then
        setStateIdle 0 index subindex
          (if d.access = atypeRo then abortReadonly else abortNotinthisstate)
      else
        let (size, data) := m.downloadData
        if size ≠ d.size ∧ d.datatype ≠ dtypeVisibleString ∧ ¬ flexibleLength d.datatype then
          setStateIdle 0 index subindex abortTypemismatch
        else
          when (size ≠ d.size ∧ d.datatype = dtypeVisibleString) do
            -- pad with zeroes up to the maximum size of the entry
            let rest ← headerTail d.size size
            sdoFill (d.data + size) rest
          sdoDownloadEntry index subindex d size data

/-- `SDO_download_complete_access`, the response. -/
def caDownloadResponse (index : Word) (subindex : Byte) : OnCoe σ Unit := do
  let n ← onMb escClaimbuffer
  when (n ≠ 0) <|
    downloadResponse n (coeCommandDownloadresponse ||| coeCompleteaccess) index subindex
  setStateIdle n index subindex 0

/-- `SDO_download_complete_access`, accepted: `bytes` bytes at address `data` of the inbox. -/
def caDownloadAccepted (index : Word) (subindex : Byte) (o : Objectlist) (nsub : ℕ)
    (flags : Word) (bytes data : ℕ) : OnCoe σ Unit := do
  let env ← ask
  let m ← coeMb
  if m.mbxDsize < bytes + coeHeadersize then
    if env.sys.opts.preallocBufferSize < bytes + env.sys.opts.preallocFactor * coeHeadersize then
      setStateIdle 0 index subindex abortCaNotSupported
    else
      let size := sub32 m.mbxDsize coeHeadersize
      coeModifyMb fun m => { m with
        frags := bytes
        fragsleft := size
        segmented := mbxsed
        data := env.sys.mbxdata + size
        index := index
        subindex := subindex
        flags := completeAccessFlag }
      sdoStore env.sys.mbxdata size m.mbx data
      caDownloadResponse index subindex
  else
    coeModifyMb fun m => { m with segmented := 0 }
    let _ ← completeAccessSubindexLoop o nsub (.fromMailbox data) bytes
    let abort ← escDownloadPostObjecthandler index subindex flags
    if abort ≠ 0 then setStateIdle 0 index subindex abort
    else caDownloadResponse index subindex

/-- `SDO_download_complete_access`. -/
def sdoDownloadCompleteAccess : OnCoe σ Unit := do
  let m ← coeMb
  let index := m.sdoIndex
  let subindex := m.sdoSubindex
  match ← lift (completeAccessGetVariables (← coeTable) index subindex) with
  | .error abort => setStateIdle 0 index subindex abort
  | .ok (o, nsub) =>
      let (bytes, data) := m.downloadData
      let first ← lift (o.row 0)
      let bits ← completeAccessSubindexLoop o nsub .size 0
      let size := bits2bytes bits
      if 0xffff < size then
        -- the size is in this case an abort code
        setStateIdle 0 index subindex (.ofNat 32 size)
      else if bytes ≤ size then
        let flags := first.flags ||| completeAccessFlag
        let abort ← escDownloadPreObjecthandler index subindex data size flags
        -- a held reply is only supported for a single entry
        let abort := if abort = escSdoPending then abortGeneralerror else abort
        if abort ≠ 0 then setStateIdle 0 index subindex abort
        else caDownloadAccepted index subindex o nsub flags bytes data
      else
        setStateIdle 0 index subindex abortTypemismatch

/-! ## Download segments -/

/-- `SDO_downloadsegment`, the last segment of a Complete Access download: whether the object was
found complete and its entries written. -/
def caDownloadLast (m : Mailbox) (size : ℕ) : OnCoe σ Bool := do
  if (m.fragsleft + size) % 2 ^ 32 < m.frags then
    setStateIdle 0 m.index m.subindex abortTypemismatch
    pure false
  else
    let table ← coeTable
    match ← lift (sdoFindobject table m.index) with
    | none => fault .table
    | some nidx =>
        let o ← lift (objectAt table nidx)
        match ← lift (sdoFindsubindex o m.subindex) with
        | none =>
            setStateIdle 0 m.index m.subindex abortNoobject
            pure false
        | some nsub =>
            let _ ← completeAccessSubindexLoop o nsub .fromMbxdata m.frags
            pure true

/-- The number of data bytes of a download segment. -/
def segmentSize (length : ℕ) (command : Byte) : ℕ :=
  if sub32 length 3 = 7 then 7 - ((command >>> 1) &&& 7).toNat else sub32 length 3

/-- `SDO_downloadsegment`. -/
def sdoDownloadsegment : OnCoe σ Unit := do
  let n ← onMb escClaimbuffer
  if n = 0 then
    setStateIdle 0 0 0 0
  else
    let m ← coeMb
    let _ ← headerTail (m.headerLength 0).toNat 3
    let size := segmentSize (m.headerLength 0).toNat m.sdoCommand
    coeModifyMb fun m => m.putSdo n coeDefaultlength coeSdoresponse
      (coeCommandDownloadsegresp ||| (m.sdoCommand &&& coeTogglebit)) 0 0
    sdoStore m.data size m.mbx Mailbox.segmentOffset
    if m.sdoCommand &&& coeCommandLastsegmentbit ≠ 0 then
      let complete ←
        (if m.flags = completeAccessFlag then caDownloadLast m size else pure true)
      when complete do
        coeModifyMb fun m => { m with segmented := 0, frags := 0, fragsleft := 0 }
        -- external object write handler
        let abort ← escDownloadPostObjecthandler m.index m.subindex m.flags
        if abort ≠ 0 then
          setStateIdle n m.index m.subindex abort
        else
          coeModifyMb fun m => m.setControl n .outreq
          setStateIdle 0 0 0 0
    else
      coeModifyMb fun m => { m with
        data := m.data + size
        fragsleft := (m.fragsleft + size) % 2 ^ 32 }
      coeModifyMb fun m => m.setControl n .outreq
      setStateIdle 0 0 0 0

end Soes
