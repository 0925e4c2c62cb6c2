import Soes.Stack.Sdo

/-!
# SDO Information and the CoE dispatcher

The SDO Information services of `esc_coe.c`, which list the dictionary and describe its objects
and entries, and `ESC_coeprocess`, which takes a CoE message from the inbox and hands it to the
function for its service and command.

Offsets into a buffer are those of `_COEobjdesc` and `_COEentdesc`: opcode at 8, fragments left
at 10, index at 12; then data type, maximum subindex, object code and name at 14, 16, 17 and 18
of an object, and subindex, value info, data type, bit length, access and name at 14, 15, 16, 18,
20 and 22 of an entry.
-/

namespace Soes

open Program

variable {σ : Type}

namespace Mailbox

variable (m : Mailbox)

/-- `infoheader.opcode` of the inbox. -/
def infoOpcode : Byte := m.mbx 8 &&& 0x7f
/-- `index` of the inbox, as an SDO Information request. -/
def infoIndex : Word := m.mbx.word 12
/-- `subindex` of the inbox, as a request for an entry description. -/
def infoSubindex : Byte := m.mbx 14

/-- Fill in the headers of an SDO Information reply in buffer `n`, without its length. -/
def putInfo (n : ℕ) (opcode : Byte) (incomplete : Bool) (fragmentsleft : ℕ) : Mailbox :=
  m.updateMbx fun mbx =>
    let a := m.buffer n
    ((((mbx.set (a + 5) ((mbx (a + 5) &&& 0xf0) ||| mbxcoe)).setWord (a + 6)
      (coeSdoinformation <<< 12)).set (a + 8) (opcode ||| if incomplete then 0x80 else 0)).set
      (a + 9) 0).setWord (a + 10) (.ofNat 16 fragmentsleft)

/-- Fill in a 16-bit field at offset `i` of buffer `n`. -/
def putWord (n i : ℕ) (w : Word) : Mailbox :=
  m.updateMbx fun mbx => mbx.setWord (m.buffer n + i) w

/-- Fill in a byte at offset `i` of buffer `n`. -/
def putByte (n i : ℕ) (b : Byte) : Mailbox :=
  m.updateMbx fun mbx => mbx.set (m.buffer n + i) b

/-- `ODLISTSIZE`, the bytes of a list of indexes that fit one message. -/
def odlistsize : ℕ := sub32 (sub32 m.activemb1.sml.toNat escMbxhsize) 8 % 2 ^ 16 / 2 * 2

end Mailbox

/-- `SDO_infoerror`. -/
def sdoInfoerror (abortcode : Dword) : OnCoe σ Unit := do
  let n ← onMb escClaimbuffer
  when (n ≠ 0) do
    coeModifyMb fun m => (((m.putInfo n coeInfoerror false 0).putLength n coeHeadersize).putWord
      n 12 (abortcode.setWidth 16)).putWord n 14 ((abortcode >>> 16).setWidth 16)
    coeModifyMb fun m => m.setControl n .outreq
    coeModifyMb .release

/-! ## List of objects -/

/-- The number of objects before the sentinel. -/
def countObjects : List Objectlist → Except Fault ℕ
  | [] => .error .table
  | o :: rest =>
      if o.index = 0xFFFF then .ok 0 else (fun n => (n + 1) % 2 ^ 16) <$> countObjects rest

/-- Write the indexes of `count` objects from row `i` on to address `dst`. -/
def putIndexes (table : List Objectlist) :
    ℕ → ℕ → ℕ → ByteStore → Except Fault ByteStore
  | 0, _, _, mbx => .ok mbx
  | count + 1, i, dst, mbx => do
      let o ← objectAt table i
      putIndexes table count (i + 1) (dst + 2) (mbx.setWord dst o.index)

/-- Write the indexes of `count` objects from row `i` on to offset `dst` of buffer `n`. -/
def coePutIndexes (n count i dst : ℕ) : OnCoe σ Unit := do
  let m ← coeMb
  let mbx ← lift (putIndexes (← coeTable) count i (m.buffer n + dst) m.mbx)
  coeModifyMb fun m => { m with mbx := mbx }

/-- `SDO_getodlist`, the number of objects. -/
def getodlistCount (n entries frags : ℕ) : OnCoe σ Unit := do
  coeModifyMb fun m => (m.putInfo n coeGetodlistresponse false 0).putWord n 12 0
  coeModifyMb .release
  coeModifyMb fun m => { m with frags := frags, fragsleft := sub32 frags 1 }
  coeModifyMb fun m => (((((m.putWord n 14 (.ofNat 16 entries)).putWord n 16 0).putWord n 18
    0).putWord n 20 0).putWord n 22 0).putLength n (8 + 2 * 5)

/-- `SDO_getodlist`, the first part of the list of all objects. -/
def getodlistAll (n entries frags : ℕ) : OnCoe σ Unit := do
  let m ← coeMb
  coeModifyMb fun m => m.putInfo n coeGetodlistresponse (decide (1 < frags)) (sub32 frags 1)
  let count ← (if 1 < frags then do
      coeModifyMb fun m => { m with xoe := mbxcoe + mbxodl }
      pure (m.odlistsize / 2)
    else do
      coeModifyMb .release
      pure entries)
  coeModifyMb fun m =>
    { m.putWord n 12 1 with frags := frags, fragsleft := sub32 frags 1 }
  coePutIndexes n count 0 14
  coeModifyMb fun m => m.putLength n (8 + 2 * count)

/-- `SDO_getodlist`. -/
def sdoGetodlist : OnCoe σ Unit := do
  let entries ← lift (countObjects (← coeTable))
  coeModifyMb fun m => { m with entries := entries }
  let m ← coeMb
  if m.odlistsize = 0 then
    fault .division
  else
    let frags := sub32 (2 * entries + m.odlistsize) 1 / m.odlistsize
    if 1 < m.infoIndex then
      sdoInfoerror abortUnsupported
    else
      let n ← onMb escClaimbuffer
      when (n ≠ 0) do
        if m.infoIndex = 0 then getodlistCount n entries frags
        else getodlistAll n entries frags
        coeModifyMb fun m => m.setControl n .outreq

/-- `SDO_getodlistcont`. -/
def sdoGetodlistcont : OnCoe σ Unit := do
  let n ← onMb escClaimbuffer
  when (n ≠ 0) do
    let m ← coeMb
    let half := m.odlistsize / 2
    let s := sub32 m.frags m.fragsleft * half % 2 ^ 16
    let last := m.fragsleft ≤ 1
    let e := if last then m.entries else (s + half) % 2 ^ 16
    coeModifyMb fun m =>
      m.putInfo n coeGetodlistresponse (decide (¬ last)) (sub32 m.fragsleft 1)
    when last (coeModifyMb .release)
    coeModifyMb fun m => { m with fragsleft := sub32 m.fragsleft 1 }
    coePutIndexes n (e - s) s 12
    coeModifyMb fun m => m.putLength n (6 + 2 * (e + 2 ^ 16 - s))
    coeModifyMb fun m => m.setControl n .outreq

/-! ## Descriptions -/

/-- Copy a name to address `dst`, at most `limit` characters by a `uint8_t` counter that has
reached `n`, and the character it stopped at; the result is the counter. -/
def putName (limit : ℕ) : List Byte → ℕ → ℕ → ByteStore → ByteStore × ℕ
  | [], n, dst, mbx => (mbx.set dst 0, n)
  | c :: rest, n, dst, mbx =>
      if n < limit then putName limit rest ((n + 1) % 256) (dst + 1) (mbx.set dst c)
      else (mbx.set dst c, n)

/-- Copy a name to offset `dst` of buffer `n`, of which `header` bytes are used, and fill in the
length. -/
def coePutName (n header dst : ℕ) (name : List Byte) : OnCoe σ Unit :=
  coeModifyMb fun m =>
    let p := putName (sub32 m.mbxDsize header) name 0 (m.buffer n + dst) m.mbx
    { m with mbx := p.1 }.putLength n (header + p.2)

/-- Post the reply in buffer `n` and give the inbox back. -/
def postAndRelease (n : ℕ) : OnCoe σ Unit := do
  coeModifyMb fun m => m.setControl n .outreq
  coeModifyMb .release

/-- Data type and maximum subindex of an object's description. -/
def describeObject (o : Objectlist) : Except Fault (Word × Byte) := do
  if o.objtype = otypeVar ∨ o.objtype = otypeArray then
    match ← sdoFindsubindex o 0 with
    | none => .error (.row o.index)
    | some nsub =>
        let d ← o.row nsub
        if o.objtype = otypeVar then pure (d.datatype, o.maxsub)
        else pure (d.datatype, (← o.row 0).value.setWidth 8)
  else
    pure (0, (← o.row 0).value.setWidth 8)

/-- `SDO_getod`. -/
def sdoGetod : OnCoe σ Unit := do
  let index := (← coeMb).infoIndex
  let table ← coeTable
  match ← lift (sdoFindobject table index) with
  | none => sdoInfoerror abortNoobject
  | some nidx =>
      let n ← onMb escClaimbuffer
      when (n ≠ 0) do
        let o ← lift (objectAt table nidx)
        let (datatype, maxsub) ← lift (describeObject o)
        coeModifyMb fun m => ((((m.putInfo n coeGetodresponse false 0).putWord n 12
          index).putWord n 14 datatype).putByte n 16 maxsub).putByte n 17 (o.objtype.setWidth 8)
        coePutName n 0x0c 18 o.name
        postAndRelease n

/-- `SDO_geted`. -/
def sdoGeted : OnCoe σ Unit := do
  let m ← coeMb
  let index := m.infoIndex
  let subindex := m.infoSubindex
  match ← lift (lookupEntry (← coeTable) index subindex) with
  | .error abort => sdoInfoerror abort
  | .ok d =>
      let n ← onMb escClaimbuffer
      when (n ≠ 0) do
        -- the description carries 16 bits of length, 0 for a variable one
        let bitlength : Word :=
          if d.datatype = dtypeDomain ∨ 0xFFFF < d.bitlength then 0 else d.bitlength.setWidth 16
        coeModifyMb fun m => ((((((m.putInfo n coeEntrydescriptionresponse false 0).putWord n 12
          index).putByte n 14 subindex).putByte n 15
          (coeValueinfoAccess + coeValueinfoObject + coeValueinfoMappable)).putWord n 16
          d.datatype).putWord n 18 bitlength).putWord n 20 d.flags
        coePutName n 0x10 22 d.name
        postAndRelease n

/-! ## The dispatcher -/

/-- `ESC_coeprocess`, an SDO request while no reply is held back.  Requests whose command is none
of these are left alone. -/
def sdoRequest (m : Mailbox) : OnCoe σ Unit := do
  let command := m.sdoCommand
  let whole := m.headerLength 0 = .ofNat 16 coeHeadersize
  let complete := command &&& coeCompleteaccess = coeCompleteaccess
  if command &&& 0xe0 = coeCommandUploadrequest ∧ whole then
    if complete then sdoUploadCompleteAccess else sdoUpload
  else if command &&& 0xef = coeCommandUploadsegreq ∧ whole ∧ m.segmented = mbxseu then
    sdoUploadsegment
  else if command &&& 0xe0 = coeCommandDownloadrequest then
    if complete then sdoDownloadCompleteAccess else sdoDownload
  else if command &&& 0xe0 = coeCommandDownloadsegreq then
    sdoDownloadsegment
  else
    pure ()

/-- `ESC_coeprocess`, a message whose service or opcode is not recognised. -/
def coeNotRecognised (m : Mailbox) : OnCoe σ Unit := do
  if m.service = 0 then onMb (mbxError mbxerrInvalidheader)
  else sdoAbort 0 m.sdoIndex m.sdoSubindex abortUnsupported
  coeModifyMb .release

/-- `ESC_coeprocess`, the message in the inbox, by service. -/
def coeDispatch (m : Mailbox) : OnCoe σ Unit := do
  if m.service = coeSdorequest ∧ m.sdoHeld.active then
    -- a reply is still held back: this request is turned away
    onMb (mbxError mbxerrServiceinwork)
    coeModifyMb .release
  else if m.service = coeSdorequest then
    sdoRequest m
  else if m.service = coeSdoinformation ∧ m.infoOpcode = 0x01 then
    sdoGetodlist
  else if m.service = coeSdoinformation ∧ m.infoOpcode = 0x03 then
    sdoGetod
  else if m.service = coeSdoinformation ∧ m.infoOpcode = 0x05 then
    sdoGeted
  else
    coeNotRecognised m

/-- `ESC_coeprocess`. -/
def escCoeprocess : OnCoe σ Unit := do
  when (← coeMb).mbxRun do
    let m ← coeMb
    when (m.xoe = 0 ∧ m.control 0 = .inclaim ∧ m.mbxtype 0 = mbxcoe) do
      if (m.headerLength 0).toNat < coeMinimumLength then
        onMb (mbxError mbxerrInvalidsize)
      else
        coeModifyMb fun m => { m with xoe := mbxcoe }
    let m ← coeMb
    when (m.xoe = mbxcoe + mbxodl ∧ m.mbxoutpost = 0) sdoGetodlistcont
    let m ← coeMb
    when (m.xoe = mbxcoe) (coeDispatch m)

end Soes
