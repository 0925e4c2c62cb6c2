import Soes.Properties.HeldReply
import Soes.Properties.InboxRelease

/-!
# Requests and replies of one SDO transfer

What a master asks for (`SdoRequest`), when such a request stands in the inbox (`Mailbox.Asks`),
and what it means that one pass of `ESC_coeprocess` answers it (`Mailbox.Answers`): the inbox is
given back, and exactly one idle buffer now holds a reply that fits the mailbox.

A reply is looked at as the master sees it, from the first byte of its buffer on
(`Mailbox.message`), so where the buffer lies in `MBX` plays no part in what the reply says.  Then
come the four services, each with the buffer it answers from, the variables afterwards, and the
fields by which the next segment goes on (`Mailbox.transfer`).
-/

namespace Soes

open Program

variable {σ : Type} {env : CoeEnv σ} {k : ℕ} {c : Coe σ} {m m' : Mailbox}

/-! ## Requests -/

/-- A request of a master that transfers one entry. -/
inductive SdoRequest where
  /-- An expedited download. -/
  | expedited (index : Word) (subindex : Byte) (value : List Byte)
  /-- A normal download, which announces the size and carries the first bytes. -/
  | normal (index : Word) (subindex : Byte) (size : ℕ) (first : List Byte)
  /-- A segment of a download. -/
  | segment (toggle last : Bool) (data : List Byte)
  /-- An upload. -/
  | upload (index : Word) (subindex : Byte)
  /-- The request for the next segment of an upload. -/
  | uploadSegment (toggle : Bool)
  deriving DecidableEq, Repr

/-- The toggle bit of a segment. -/
def toggleBit (toggle : Bool) : Byte := if toggle then coeTogglebit else 0

/-- The last segment bit. -/
def lastBit (last : Bool) : Byte := if last then coeCommandLastsegmentbit else 0

namespace SdoRequest

/-- The command of a request, with its size bits. -/
def command : SdoRequest → Byte
  | expedited _ _ value =>
      coeCommandDownloadrequest ||| coeExpeditedIndicator ||| coeSizeIndicator |||
        .ofNat 8 ((4 - value.length) * 4)
  | normal _ _ _ _ => coeCommandDownloadrequest ||| coeSizeIndicator
  | segment toggle last data =>
      coeCommandDownloadsegreq ||| toggleBit toggle ||| .ofNat 8 ((7 - data.length) * 2) |||
        lastBit last
  | upload _ _ => coeCommandUploadrequest
  | uploadSegment toggle => coeCommandUploadsegreq ||| toggleBit toggle

/-- The length of a request.  A short segment is padded to 7 bytes. -/
def length : SdoRequest → ℕ
  | normal _ _ _ first => coeHeadersize + first.length
  | segment _ _ data => max coeHeadersize (coeSegmentheadersize + data.length)
  | _ => coeHeadersize

/-- The fields of a request in the inbox. -/
def Body (m : Mailbox) : SdoRequest → Prop
  | expedited index subindex value =>
      m.sdoIndex = index ∧ m.sdoSubindex = subindex ∧
        m.mbx.bytes Mailbox.sizeOffset value.length = value
  | normal index subindex size first =>
      m.sdoIndex = index ∧ m.sdoSubindex = subindex ∧ m.sdoSize.toNat = size ∧
        m.mbx.bytes Mailbox.dataOffset first.length = first
  | segment _ _ data => m.mbx.bytes Mailbox.segmentOffset data.length = data
  | upload index subindex => m.sdoIndex = index ∧ m.sdoSubindex = subindex
  | uploadSegment _ => True

end SdoRequest

/-- The request stands in the inbox.  The other fields of the headers may be anything. -/
structure Mailbox.Asks (m : Mailbox) (r : SdoRequest) : Prop where
  coe : m.mbxtype 0 = mbxcoe
  service : m.service = coeSdorequest
  length : (m.headerLength 0).toNat = r.length
  command : m.sdoCommand = r.command
  body : r.Body m

/-! ## The transfer in progress -/

/-- The fields of `ESCvar` by which a segmented transfer goes on. -/
structure Transfer where
  segmented : Byte
  data : ℕ
  frags : ℕ
  fragsleft : ℕ
  index : Word
  subindex : Byte
  flags : Word
  deriving DecidableEq, Repr

/-- The transfer in progress. -/
def Mailbox.transfer (m : Mailbox) : Transfer :=
  ⟨m.segmented, m.data, m.frags, m.fragsleft, m.index, m.subindex, m.flags⟩

/-! ## Replies -/

/-- The message in buffer `n`. -/
def Mailbox.message (m : Mailbox) (n : ℕ) : ByteStore := m.mbx.shift (m.buffer n)

/-- A reply buffer that may be claimed. -/
def Mailbox.IdleBuffer (opts : Options) (m : Mailbox) (n : ℕ) : Prop :=
  0 < n ∧ n < opts.mbxBuffers ∧ m.control n = .idle

/-- A pass that started with the mailboxes `m` has queued a reply in buffer `n`. -/
def Mailbox.HasQueued (opts : Options) (m m' : Mailbox) (n : ℕ) : Prop :=
  m.IdleBuffer opts n ∧ m'.control n = .outreq

/-- `m'` is `m` with the inbox given back and a reply waiting in buffer `n`. -/
structure Mailbox.Replied (opts : Options) (m m' : Mailbox) (n : ℕ) : Prop where
  idle : m.IdleBuffer opts n
  control : ∀ i, m'.control i = if i = 0 then .idle else if i = n then .outreq else m.control i
  xoe : m'.xoe = 0
  txcue : m'.txcue = m.txcue + 1
  held : m'.sdoHeld = m.sdoHeld
  size : m'.activembxsize = m.activembxsize

/-- One pass answers from one buffer. -/
lemma Mailbox.Replied.unique {opts : Options} {m m' : Mailbox} {n n' : ℕ}
    (h : m.Replied opts m' n) (h' : m.Replied opts m' n') : n = n' := by
  by_contra hne
  have hpos := Nat.pos_iff_ne_zero.mp h.idle.1
  have hout := h.control n
  rw [h'.control n, if_neg hpos, if_neg hpos, if_neg hne, if_pos rfl, h.idle.2.2] at hout
  cases hout

/-- An SDO response that fits a mailbox of `size` bytes. -/
structure SdoResponse (reply : ByteStore) (size : ℕ) (command : Byte) : Prop where
  type : reply 5 &&& 0x0f = mbxcoe
  service : reply.word 6 = coeSdoresponse <<< 12
  command : reply 8 = command
  fits : escMbxhsize + (reply.word 0).toNat ≤ size

/-- One request was answered by one reply with this command. -/
def Mailbox.Answers (opts : Options) (m m' : Mailbox) (command : Byte) (reply : ByteStore) : Prop :=
  (∃ n, m.Replied opts m' n ∧ reply = m'.message n) ∧
    SdoResponse reply m.activembxsize command

namespace Mailbox

/-- An SDO header over the bytes of a message. -/
def overSdo (b : ByteStore) (length : ℕ) (service : Word) (command : Byte) (index : Word)
    (subindex : Byte) : ByteStore :=
  (((((b.setWord 0 (.ofNat 16 length)).set 5 ((b 5 &&& 0xf0) ||| mbxcoe)).setWord 6
    (service <<< 12)).set 8 command).setWord 9 index).set 11 subindex

variable (n : ℕ)

lemma message_putSdo (length : ℕ) (service : Word) (command : Byte) (index : Word)
    (subindex : Byte) :
    (m.putSdo n length service command index subindex).message n =
      overSdo (m.message n) length service command index subindex := by
  simp only [message, putSdo, setHeader, updateMbx, buffer, overSdo, ByteStore.shift_set,
    ByteStore.shift_setWord, ByteStore.shift_setWord_start]
  rfl

lemma message_putSize (size : Dword) :
    (m.putSize n size).message n = (m.message n).setDword sizeOffset size := by
  simp only [message, putSize, updateMbx, buffer, ByteStore.shift_setDword]

lemma message_orCommand (bits : Byte) :
    (m.orCommand n bits).message n = (m.message n).set 8 (m.message n 8 ||| bits) := by
  simp only [message, orCommand, updateMbx, buffer, ByteStore.shift_set]
  rfl

lemma message_putLength (length : ℕ) :
    (m.putLength n length).message n = (m.message n).setWord 0 (.ofNat 16 length) := by
  simp only [message, putLength, updateMbx, buffer, ByteStore.shift_setWord_start]

lemma message_load (offset len : ℕ) (src : ByteStore) (start : ℕ) :
    (m.updateMbx fun mbx => mbx.copy (m.buffer n + offset) len src start).message n =
      (m.message n).copy offset len src start := by
  simp only [message, updateMbx, buffer, ByteStore.shift_copy]

lemma message_release : (m.setControl n .outreq).release.message n = m.message n := rfl

/-- Buffer `n` of `m` was claimed, and nothing but its bytes and a transfer changed since. -/
structure Prepared (opts : Options) (m m' : Mailbox) (n : ℕ) : Prop where
  idle : m.IdleBuffer opts n
  control : m'.control = (m.claim n).control
  txcue : m'.txcue = m.txcue + 1
  held : m'.sdoHeld = m.sdoHeld
  size : m'.activembxsize = m.activembxsize

/-- A request leaves one reply if its code claims a buffer, changes no other buffer's state, and
ends by queuing that buffer and giving the inbox back. -/
lemma Prepared.replied {opts : Options} {m m' : Mailbox} {n : ℕ} (h : m.Prepared opts m' n) :
    m.Replied opts (m'.setControl n .outreq).release n := by
  refine ⟨h.idle, fun i => ?_, rfl, h.txcue, h.held, h.size⟩
  simp only [release, setControl, h.control, claim]
  split
  · rfl
  · split
    · rfl
    · rfl

/-- Claiming a buffer leaves the inbox alone. -/
lemma claim_inbox {n : ℕ} (hn : 0 < n) {i : ℕ} (hi : i < m.activembxsize) :
    (m.claim n).mbx i = m.mbx i := by
  have hbuffer : m.activembxsize ≤ m.buffer n := Nat.le_mul_of_pos_left _ hn
  simp only [claim, ByteStore.set, ByteStore.setWord, ByteStore.copy]
  rw [if_neg (by omega), if_neg (by omega), if_neg (by omega)]

end Mailbox

/-! ## Parts of a service -/

/-- What follows a claim starts with an idle buffer claimed. -/
lemma wp_claim_idle {α : Type} {f : ℕ → OnCoe σ α} {Q : α → Coe σ → Prop}
    (h : c.mb.ReplyIdle env.sys.opts)
    (hf : ∀ n, c.mb.IdleBuffer env.sys.opts n →
      wp env k (f n) Q { c with mb := c.mb.claim n }) :
    wp env k (onMb escClaimbuffer >>= f) Q c := by
  refine escClaimbuffer_scan.bind fun n c₁ h₁ => ?_
  obtain ⟨hn, hc₁⟩ := h₁
  have hscan := (replyIdle_iff env.sys.opts c.mb).mp h
  have hfound := scanBuffers_found hscan
  have hpos := Nat.pos_of_ne_zero hscan
  rw [← hn] at hscan hfound hpos
  rw [hc₁, if_neg hscan]
  exact hf n ⟨hpos, by omega, hfound.2⟩

/-- Neutral hooks: no SDO hook refuses or holds a request, changes a variable or a size. -/
structure SdoHooksNeutral (cfg : EscCfg σ) : Prop where
  preDownload : ∀ hook, cfg.preObjectDownloadHook = some hook →
    ∀ o bytes index subindex data size flags,
      (hook o bytes index subindex data size flags).code = 0 ∧
        (hook o bytes index subindex data size flags).bytes = bytes
  postDownload : ∀ hook, cfg.postObjectDownloadHook = some hook →
    ∀ o bytes index subindex flags, (hook o bytes index subindex flags).code = 0 ∧
      (hook o bytes index subindex flags).bytes = bytes
  preUpload : ∀ hook, cfg.preObjectUploadHook = some hook →
    ∀ o bytes index subindex data size flags,
      (hook o bytes index subindex data size flags).1.code = 0 ∧
        (hook o bytes index subindex data size flags).1.bytes = bytes ∧
        (hook o bytes index subindex data size flags).2 = size
  postUpload : ∀ hook, cfg.postObjectUploadHook = some hook →
    ∀ o bytes index subindex flags, (hook o bytes index subindex flags).code = 0 ∧
      (hook o bytes index subindex flags).bytes = bytes

/-- `ESC_download_pre_objecthandler` refuses a subindex of a PDO while its subindex 0 is not 0. -/
def PdoLocked (v : Variables) (index : Word) (subindex : Byte) (flags : Word) : Prop :=
  ((0x1600 ≤ index ∧ index < 0x1800) ∨ (0x1A00 ≤ index ∧ index < 0x1C00) ∨
    index = rxPdoObjidx ∨ index = txPdoObjidx) ∧
  (if flags &&& completeAccessFlag = 0 then (0 : Byte) else 1) < subindex ∧
  coeMaxSub v index ≠ .ok 0

/-- What the pre-download hook answers. -/
def preDownload (cfg : EscCfg σ) (o : σ) (bytes : ByteStore) (index : Word) (subindex : Byte)
    (received : ByteStore) (size : ℕ) (flags : Word) : HookAnswer σ :=
  match cfg.preObjectDownloadHook with
  | some hook => hook o bytes index subindex received size flags
  | none => ⟨0, o, bytes⟩

/-- What the post-download hook answers. -/
def postDownload (cfg : EscCfg σ) (o : σ) (bytes : ByteStore) (index : Word) (subindex : Byte)
    (flags : Word) : HookAnswer σ :=
  match cfg.postObjectDownloadHook with
  | some hook => hook o bytes index subindex flags
  | none => ⟨0, o, bytes⟩

lemma wp_escDownloadPostObjecthandler {index : Word} {subindex : Byte} {flags : Word}
    {Q : Dword → Coe σ → Prop}
    (hQ : ∀ a, a = postDownload env.sys.cfg c.outside c.mem.bytes index subindex flags →
      Q a.code { c with outside := a.outside, mem := { c.mem with bytes := a.bytes } }) :
    wp env k (escDownloadPostObjecthandler index subindex flags) Q c := by
  rw [escDownloadPostObjecthandler, wp_bind, wp_ask]
  cases hhook : env.sys.cfg.postObjectDownloadHook with
  | none => exact (wp_pure _ _).mpr (hQ ⟨0, c.outside, c.mem.bytes⟩ (by rw [postDownload, hhook]))
  | some hook =>
      simp only [callSdoHook, wp_transact]
      exact hQ _ (by rw [postDownload, hhook])

lemma wp_escDownloadPreObjecthandler {index : Word} {subindex : Byte} {data size : ℕ}
    {flags : Word} {r : Byte} (hmax : coeMaxSub ⟨env.sys.dict.table, c.mem.bytes⟩ index = .ok r)
    (hunlocked : ¬ PdoLocked ⟨env.sys.dict.table, c.mem.bytes⟩ index subindex flags)
    {Q : Dword → Coe σ → Prop}
    (hQ : ∀ a, a = preDownload env.sys.cfg c.outside c.mem.bytes index subindex
      (fun i => c.mb.mbx (data + i)) size flags →
        Q a.code { c with outside := a.outside, mem := { c.mem with bytes := a.bytes } }) :
    wp env k (escDownloadPreObjecthandler index subindex data size flags) Q c := by
  rw [escDownloadPreObjecthandler, wp_bind, wp_ask, wp_bind, wp_get, wp_bind]
  have tail : wp env k (match env.sys.cfg.preObjectDownloadHook with
      | some hook => callSdoHook fun o bytes =>
          hook o bytes index subindex (fun i => c.mb.mbx (data + i)) size flags
      | none => pure 0) Q c := by
    cases hhook : env.sys.cfg.preObjectDownloadHook with
    | none => exact (wp_pure _ _).mpr (hQ ⟨0, c.outside, c.mem.bytes⟩ (by rw [preDownload, hhook]))
    | some hook =>
        simp only [callSdoHook, wp_transact]
        exact hQ _ (by rw [preDownload, hhook])
  refine (wp_ite _ _ _ _).mpr ⟨fun hpdo => ?_, fun _ => (wp_pure _ _).mpr tail⟩
  have hzero : r = 0 := by
    by_contra hne
    refine hunlocked ⟨hpdo.1, hpdo.2, ?_⟩
    rw [hmax]
    intro h
    exact hne (Except.ok.inj h)
  rw [wp_map, wp_lift]
  refine ⟨r, hmax, ?_⟩
  simp only [hzero, ne_eq, not_true_eq_false, decide_false]
  exact tail

section hooks

variable (hooks : SdoHooksNeutral env.sys.cfg)
include hooks

lemma wp_escUploadPostObjecthandler {index : Word} {subindex : Byte} {flags : Word}
    {Q : Dword → Coe σ → Prop} (hQ : ∀ o, Q 0 { c with outside := o }) :
    wp env k (escUploadPostObjecthandler index subindex flags) Q c := by
  rw [escUploadPostObjecthandler, wp_bind, wp_ask]
  cases hhook : env.sys.cfg.postObjectUploadHook with
  | none => exact (wp_pure _ _).mpr (hQ c.outside)
  | some hook =>
      obtain ⟨hcode, hbytes⟩ :=
        hooks.postUpload hook hhook c.outside c.mem.bytes index subindex flags
      simp only [callSdoHook, wp_transact, hcode, hbytes]
      exact hQ _

/-- A neutral post-download hook accepts, and leaves the variables. -/
lemma postDownload_neutral (o : σ) (bytes : ByteStore) (index : Word) (subindex : Byte)
    (flags : Word) : (postDownload env.sys.cfg o bytes index subindex flags).code = 0 ∧
      (postDownload env.sys.cfg o bytes index subindex flags).bytes = bytes := by
  rw [postDownload]
  cases hhook : env.sys.cfg.postObjectDownloadHook with
  | none => exact ⟨rfl, rfl⟩
  | some hook => exact hooks.postDownload hook hhook _ _ _ _ _

lemma wp_escUploadPreObjecthandler {index : Word} {subindex : Byte} {data size : ℕ} {flags : Word}
    (hsize : size < 2 ^ 32) {Q : Dword × ℕ → Coe σ → Prop}
    (hQ : ∀ o, Q (0, size) { c with outside := o }) :
    wp env k (escUploadPreObjecthandler index subindex data size flags) Q c := by
  rw [escUploadPreObjecthandler, wp_bind, wp_ask]
  cases hhook : env.sys.cfg.preObjectUploadHook with
  | none => exact (wp_pure _ _).mpr (hQ c.outside)
  | some hook =>
      obtain ⟨hcode, hbytes, hkept⟩ :=
        hooks.preUpload hook hhook c.outside c.mem.bytes index subindex data size flags
      simp only [wp_transact, hcode, hbytes, hkept, Nat.mod_eq_of_lt hsize]
      exact hQ _

/-- A neutral pre-download hook accepts, and leaves the variables. -/
lemma preDownload_neutral (o : σ) (bytes : ByteStore) (index : Word) (subindex : Byte)
    (received : ByteStore) (size : ℕ) (flags : Word) :
    (preDownload env.sys.cfg o bytes index subindex received size flags).code = 0 ∧
      (preDownload env.sys.cfg o bytes index subindex received size flags).bytes = bytes := by
  rw [preDownload]
  cases hhook : env.sys.cfg.preObjectDownloadHook with
  | none => exact ⟨rfl, rfl⟩
  | some hook => exact hooks.preDownload hook hhook _ _ _ _ _ _ _

lemma wp_finishUpload {n : ℕ} {index : Word} {subindex : Byte} {flags : Word}
    {Q : Unit → Coe σ → Prop}
    (hQ : ∀ o, Q () { c with outside := o, mb := (c.mb.setControl n .outreq).release }) :
    wp env k (finishUpload n index subindex flags) Q c := by
  rw [finishUpload, wp_bind, wp_coeMb, wp_bind]
  refine (wp_ite _ _ _ _).mpr ⟨fun _ => ?_, fun _ => ?_⟩
  · refine wp_escUploadPostObjecthandler hooks fun o => ?_
    rw [if_neg (not_not.mpr rfl), wp_bind, wp_coeModifyMb, wp_coeModifyMb]
    exact hQ o
  · rw [wp_pure, if_neg (not_not.mpr rfl), wp_bind, wp_coeModifyMb, wp_coeModifyMb]
    exact hQ c.outside

end hooks

lemma wp_sdoStore {dst len start : ℕ} {src : ByteStore} (h : dst ≠ 0) (Q : Unit → Coe σ → Prop) :
    wp env k (sdoStore dst len src start) Q c ↔ Q () { c with mem := { c.mem with
      bytes := c.mem.bytes.copy dst len src start
      writes := (dst, len) :: c.mem.writes } } := by
  rw [sdoStore, if_neg (by omega), wp_modify]

lemma wp_sdoLoad {src len dst : ℕ} (h : src ≠ 0) (Q : Unit → Coe σ → Prop) :
    wp env k (sdoLoad src len dst) Q c ↔ Q () { c with
      mb := c.mb.updateMbx fun mbx => mbx.copy dst len c.mem.bytes src } := by
  rw [sdoLoad, if_neg (by omega), wp_modify]

/-- The data of a message of this length goes on in segments. -/
def Continues (length size : ℕ) : Prop := 4 < size ∧ length < coeHeadersize + size

instance (length size : ℕ) : Decidable (Continues length size) := by
  unfold Continues; infer_instance

lemma wp_needsSegments {length size : ℕ} (hlength : coeHeadersize ≤ length)
    (hlt : length < 2 ^ 32) {Q : Bool → Coe σ → Prop}
    (hQ : ∀ segments wrapped, (segments = true ↔ Continues length size) →
      Q segments { c with mem := { c.mem with wrapped := wrapped } }) :
    wp env k (needsSegments length size) Q c := by
  rw [needsSegments]
  refine (wp_ite _ _ _ _).mpr ⟨fun hsize => ?_, fun hsize => ?_⟩
  · rw [headerTail, wp_bind, wp_transact, wp_pure]
    have hsub : sub32 length coeHeadersize = length - coeHeadersize := by
      simp only [sub32, coeHeadersize] at hlength ⊢
      omega
    refine hQ _ _ ?_
    rw [decide_eq_true_iff, hsub, Continues]
    omega
  · rw [wp_pure]
    exact hQ false c.mem.wrapped ⟨fun h => (by cases h), fun h => (hsize h.1).elim⟩

/-! ## What a reply says -/

section response

variable {b b' : ByteStore} {size : ℕ} {command : Byte}

open ByteStore in
lemma Mailbox.overSdo_response (b : ByteStore) (hsize : 16 ≤ size) (index : Word)
    (subindex : Byte) :
    SdoResponse (overSdo b coeDefaultlength coeSdoresponse command index subindex) size
      command := by
  have hcoe : ∀ b : Byte, ((b &&& 0xf0) ||| mbxcoe) &&& 0x0f = mbxcoe := by decide
  constructor
  all_goals
    simp (disch := omega) only [overSdo, setWord_of_outside, set_of_ne, set_self,
      word_setWord_of_disjoint, word_set_of_disjoint, word_setWord, hcoe]
  exact hsize

/-- What stands behind the command plays no part. -/
lemma SdoResponse.of_head (h : SdoResponse b size command) (hhead : ∀ i, i < 9 → b' i = b i) :
    SdoResponse b' size command := by
  have hword (a : ℕ) (ha : a < 8) : b'.word a = b.word a := by
    rw [ByteStore.word, ByteStore.word, hhead a (by omega), hhead (a + 1) (by omega)]
  exact ⟨(congrArg (· &&& 0x0f) (hhead 5 (by omega))).trans h.type,
    (hword 6 (by omega)).trans h.service, (hhead 8 (by omega)).trans h.command,
    (hword 0 (by omega)).symm ▸ h.fits⟩

open ByteStore in
lemma SdoResponse.orCommand (h : SdoResponse b size command) (bits : Byte) :
    SdoResponse (b.set 8 (b 8 ||| bits)) size (command ||| bits) := by
  refine ⟨?_, ?_, ?_, ?_⟩
  · rw [set_of_ne _ (by omega)]
    exact h.type
  · rw [word_set_of_disjoint _ (by omega)]
    exact h.service
  · rw [set_self, h.command]
  · rw [word_set_of_disjoint _ (by omega)]
    exact h.fits

open ByteStore in
lemma SdoResponse.putLength (h : SdoResponse b size command) {length : ℕ}
    (hfits : escMbxhsize + length ≤ size) : SdoResponse (b.setWord 0 (.ofNat 16 length)) size
      command := by
  refine ⟨?_, ?_, ?_, ?_⟩
  · rw [setWord_of_outside _ (by omega)]
    exact h.type
  · rw [word_setWord_of_disjoint _ (by omega)]
    exact h.service
  · rw [setWord_of_outside _ (by omega)]
    exact h.command
  · rw [word_setWord, BitVec.toNat_ofNat]
    have hmod := Nat.mod_le length (2 ^ 16)
    omega

end response

/-! ## Download -/

/-- The number of bytes that the first message of a download carries. -/
def Mailbox.firstBytes (m : Mailbox) (size : ℕ) : ℕ :=
  if Continues (m.headerLength 0).toNat size then (m.headerLength 0).toNat - coeHeadersize
  else size

/-- The mailboxes once the first message of a download is stored. -/
def Mailbox.downloading (m : Mailbox) (index : Word) (subindex : Byte) (d : Objd) (size : ℕ) :
    Mailbox :=
  if Continues (m.headerLength 0).toNat size then
    { m with
      segmented := mbxsed
      data := d.data + m.firstBytes size
      index := index
      subindex := subindex
      flags := d.flags }
  else { m with segmented := 0 }

/-- The response to the first message of a download. -/
def Mailbox.confirmed (m : Mailbox) (n : ℕ) (index : Word) (subindex : Byte) : Mailbox :=
  ((m.putSdo n coeDefaultlength coeSdoresponse coeCommandDownloadresponse index subindex).putSize n
    0).setControl n .outreq

/-- A download that goes on in segments: the hooks are not asked. -/
lemma wp_sdoDownloadAccepted_more (hidle : c.mb.ReplyIdle env.sys.opts) {d : Objd}
    (hdata : d.data ≠ 0) (hlength : coeHeadersize ≤ (c.mb.headerLength 0).toNat) {index : Word}
    {subindex : Byte} {size data : ℕ} (hmore : Continues (c.mb.headerLength 0).toNat size)
    {Q : Unit → Coe σ → Prop}
    (hQ : ∀ n writes wrapped, c.mb.IdleBuffer env.sys.opts n →
      Q () ⟨c.outside, ((c.mb.downloading index subindex d size).claim n).confirmed n
        index subindex,
        ⟨c.mem.bytes.copy d.data (c.mb.firstBytes size) c.mb.mbx data, writes, wrapped⟩⟩) :
    wp env k (sdoDownloadAccepted index subindex d size data) Q c := by
  have hlt := (c.mb.headerLength 0).isLt
  have hsub : sub32 (c.mb.headerLength 0).toNat coeHeadersize =
      (c.mb.headerLength 0).toNat - coeHeadersize := by
    simp only [sub32, coeHeadersize] at hlength ⊢
    omega
  have hfirst : c.mb.firstBytes size = (c.mb.headerLength 0).toNat - coeHeadersize := if_pos hmore
  have hbegun : c.mb.downloading index subindex d size = _ := if_pos hmore
  rw [sdoDownloadAccepted, wp_bind, wp_coeMb, wp_bind]
  refine wp_needsSegments hlength (by omega) fun segments wrapped hsegments => ?_
  rw [hsegments.mpr hmore]
  simp only [if_true, hsub, ← hfirst]
  rw [wp_bind, wp_coeModifyMb, wp_bind, wp_sdoStore hdata]
  refine wp_claim_idle (by exact hidle) fun n hn => ?_
  rw [wp_bind, when, if_pos (Nat.pos_iff_ne_zero.mp hn.1), downloadResponse, wp_coeModifyMb,
    when, if_neg (by decide), wp_pure, ← hbegun]
  exact hQ n _ wrapped hn

/-- A download in one message. -/
lemma wp_sdoDownloadAccepted_all (hooks : SdoHooksNeutral env.sys.cfg)
    (hidle : c.mb.ReplyIdle env.sys.opts) {d : Objd} (hdata : d.data ≠ 0)
    (hlength : coeHeadersize ≤ (c.mb.headerLength 0).toNat) {index : Word} {subindex : Byte}
    {size data : ℕ} (hall : ¬ Continues (c.mb.headerLength 0).toNat size)
    {Q : Unit → Coe σ → Prop}
    (hQ : ∀ n o writes wrapped, c.mb.IdleBuffer env.sys.opts n →
      Q () ⟨o, ((c.mb.downloading index subindex d size).claim n).confirmed n index subindex,
        ⟨c.mem.bytes.copy d.data (c.mb.firstBytes size) c.mb.mbx data, writes, wrapped⟩⟩) :
    wp env k (sdoDownloadAccepted index subindex d size data) Q c := by
  have hlt := (c.mb.headerLength 0).isLt
  have hfirst : c.mb.firstBytes size = size := if_neg hall
  have hbegun : c.mb.downloading index subindex d size = _ := if_neg hall
  rw [sdoDownloadAccepted, wp_bind, wp_coeMb, wp_bind]
  refine wp_needsSegments hlength (by omega) fun segments wrapped hsegments => ?_
  cases segments with
  | true => exact (hall (hsegments.mp rfl)).elim
  | false =>
      simp only [Bool.false_eq_true, if_false]
      rw [wp_bind, wp_coeModifyMb, wp_bind, wp_sdoStore hdata]
      refine wp_claim_idle (by exact hidle) fun n hn => ?_
      rw [wp_bind, when, if_pos (Nat.pos_iff_ne_zero.mp hn.1), downloadResponse, wp_coeModifyMb,
        when, if_pos rfl, wp_bind]
      refine wp_escDownloadPostObjecthandler fun a ha => ?_
      obtain ⟨hcode, hbytes⟩ : a.code = 0 ∧
          a.bytes = c.mem.bytes.copy d.data size c.mb.mbx data := by
        rw [ha]
        exact postDownload_neutral hooks _ _ _ _ _
      rw [hcode, hbytes, when, if_neg (not_not.mpr rfl), wp_pure, ← hbegun]
      have h := hQ n a.outside ((d.data, size) :: c.mem.writes) wrapped hn
      rw [hfirst] at h
      exact h

/-- A reply names the entry it is about. -/
def Names (reply : ByteStore) (index : Word) (subindex : Byte) : Prop :=
  reply.word 9 = index ∧ reply 11 = subindex

open ByteStore in
lemma Mailbox.confirmed_message (m : Mailbox) (n : ℕ) (index : Word) (subindex : Byte) {size : ℕ}
    (hsize : 16 ≤ size) :
    SdoResponse ((m.confirmed n index subindex).release.message n) size
      coeCommandDownloadresponse ∧
    Names ((m.confirmed n index subindex).release.message n) index subindex := by
  rw [confirmed, message_release, message_putSize, message_putSdo]
  refine ⟨(overSdo_response _ hsize index subindex).of_head fun i hi =>
    setDword_of_outside _ (.inl (Nat.lt_of_lt_of_le hi (by decide))), ?_, ?_⟩
  · simp (disch := omega) only [overSdo, sizeOffset, word_setDword_of_disjoint,
      word_set_of_disjoint, word_setWord]
  · simp (disch := omega) only [overSdo, sizeOffset, setDword_of_outside, set_self]

/-- The variables once a short string is padded with zeroes. -/
def padString (bytes : ByteStore) (d : Objd) (size : ℕ) : ByteStore :=
  if size ≠ d.size ∧ d.datatype = dtypeVisibleString then
    bytes.copy (d.data + size) (sub32 d.size size) (fun _ => 0) 0
  else bytes

/-- What the pre-download hook answers to the download in the inbox. -/
def downloadAnswer (cfg : EscCfg σ) (c : Coe σ) (d : Objd) : HookAnswer σ :=
  preDownload cfg c.outside (padString c.mem.bytes d c.mb.downloadData.1) c.mb.sdoIndex
    c.mb.sdoSubindex (fun i => c.mb.mbx (c.mb.downloadData.2 + i)) c.mb.downloadData.1 d.flags

/-- `SDO_download` accepts the download in the inbox. -/
structure AcceptsDownload (env : CoeEnv σ) (c : Coe σ) (d : Objd) : Prop where
  lookup : lookupEntry env.sys.dict.table c.mb.sdoIndex c.mb.sdoSubindex = .ok (.ok d)
  write : writeAccess d.access (env.alStatus.setWidth 8 &&& 0x0f)
  /-- The announced size is that of the entry, or may differ. -/
  size : c.mb.downloadData.1 = d.size ∨ d.datatype = dtypeVisibleString ∨
    flexibleLength d.datatype = true
  /-- It is no subindex of a PDO that is in use. -/
  unlocked : ¬ PdoLocked
    ⟨env.sys.dict.table, padString c.mem.bytes d c.mb.downloadData.1⟩ c.mb.sdoIndex
      c.mb.sdoSubindex d.flags
  hook : (downloadAnswer env.sys.cfg c d).code = 0

/-- An accepted download is stored in the variables as the hook leaves them, if no string is longer
than its entry: the length of the padding would go below zero. -/
lemma wp_sdoDownload_accepted {d : Objd} (h : AcceptsDownload env c d)
    (hpads : d.datatype = dtypeVisibleString → c.mb.downloadData.1 ≤ d.size)
    {Q : Unit → Coe σ → Prop} (hQ : ∀ writes wrapped, wp env k
      (sdoDownloadAccepted c.mb.sdoIndex c.mb.sdoSubindex d c.mb.downloadData.1 c.mb.downloadData.2)
      (fun _ c' => Q () { c' with mb := c'.mb.release })
      ⟨(downloadAnswer env.sys.cfg c d).outside, c.mb,
        ⟨(downloadAnswer env.sys.cfg c d).bytes, writes, wrapped⟩⟩) :
    wp env k sdoDownload Q c := by
  obtain ⟨o, ho, hmem⟩ := lookupEntry_found h.lookup
  obtain ⟨first, hfirst⟩ := row_zero_isOk hmem
  have hdata := env.sys.dict.data_ne ho.mem hmem h.write
  have hmismatch : ¬ (c.mb.downloadData.1 ≠ d.size ∧ d.datatype ≠ dtypeVisibleString ∧
      ¬ flexibleLength d.datatype = true) := by
    intro hnot
    rcases h.size with hsize | hstring | hflexible
    · exact hnot.1 hsize
    · exact hnot.2.1 hstring
    · exact hnot.2.2 hflexible
  -- what follows the padding, whatever it recorded
  have entry (writes : List (ℕ × ℕ)) (wrapped : Bool) : wp env k
      (sdoDownloadEntry c.mb.sdoIndex c.mb.sdoSubindex d c.mb.downloadData.1 c.mb.downloadData.2) Q
      ⟨c.outside, c.mb, ⟨padString c.mem.bytes d c.mb.downloadData.1, writes, wrapped⟩⟩ := by
    obtain ⟨r, hr⟩ := coeMaxSub_isOk ho hfirst (padString c.mem.bytes d c.mb.downloadData.1)
    rw [sdoDownloadEntry, wp_bind]
    refine wp_escDownloadPreObjecthandler (by exact hr) (by exact h.unlocked) fun a ha => ?_
    have ha' : a = downloadAnswer env.sys.cfg c d := ha
    rw [ha', h.hook, if_neg (by decide), if_pos rfl, wp_bind]
    refine (hQ writes wrapped).mono fun _ c' hc' => ?_
    rw [wp_coeModifyMb]
    exact hc'
  rw [sdoDownload, wp_bind, wp_coeMb, wp_bind, wp_coeTable, wp_bind, wp_lift]
  refine ⟨.ok d, h.lookup, ?_⟩
  rw [wp_bind, wp_coeState, if_neg (not_not.mpr h.write)]
  generalize c.mb.downloadData = p at *
  obtain ⟨size, data⟩ := p
  dsimp only at hmismatch entry hpads ⊢
  rw [if_neg hmismatch, wp_bind]
  refine (wp_when _ _ _).mpr ⟨fun hpad => ?_, fun hpad => ?_⟩
  · rw [headerTail, wp_bind, wp_transact]
    have hrest := sub32_size_lt (hpads hpad.2)
    rw [sdoFill, if_neg (Nat.not_le.mpr hrest), wp_sdoStore (by omega)]
    have h := entry ((d.data + size, sub32 d.size size) :: c.mem.writes)
      (c.mem.wrapped || decide (d.size < size))
    rw [padString, if_pos hpad] at h
    exact h
  · have h := entry c.mem.writes c.mem.wrapped
    rw [padString, if_neg hpad] at h
    exact h

/-- The reply that confirms an accepted download. -/
lemma Mailbox.downloading_answers (hn : m.IdleBuffer env.sys.opts k) (hroom : 16 ≤ m.activembxsize)
    (index : Word) (subindex : Byte) (d : Objd) (size : ℕ) :
    ∃ reply, m.Answers env.sys.opts
        (((m.downloading index subindex d size).claim k).confirmed k index subindex).release
        coeCommandDownloadresponse reply ∧ Names reply index subindex ∧
      (((m.downloading index subindex d size).claim k).confirmed k index
        subindex).release.transfer =
        (m.downloading index subindex d size).transfer := by
  obtain ⟨hresponse, hnames⟩ :=
    confirmed_message ((m.downloading index subindex d size).claim k) k index subindex hroom
  refine ⟨_, ⟨⟨k, Prepared.replied ⟨hn, ?_, ?_, ?_, ?_⟩, rfl⟩, hresponse⟩, hnames, ?_⟩
  all_goals
    simp only [Mailbox.downloading]
    split
    · rfl
    · rfl

/-- `SDO_download` confirms a value whose size is that of the entry, and stores what its message
carries. -/
lemma sdoDownload_confirms (hooks : SdoHooksNeutral env.sys.cfg)
    (hidle : c.mb.ReplyIdle env.sys.opts) {d : Objd} (hdata : d.data ≠ 0)
    (hlength : coeHeadersize ≤ (c.mb.headerLength 0).toNat) (hroom : 16 ≤ c.mb.activembxsize)
    (hd : lookupEntry env.sys.dict.table c.mb.sdoIndex c.mb.sdoSubindex = .ok (.ok d))
    (hwrite : writeAccess d.access (env.alStatus.setWidth 8 &&& 0x0f))
    (hsize : c.mb.downloadData.1 = d.size)
    (hunlocked : ¬ PdoLocked ⟨env.sys.dict.table, c.mem.bytes⟩ c.mb.sdoIndex c.mb.sdoSubindex
      d.flags) :
    wp env k sdoDownload (fun _ c' => ∃ reply,
      c.mb.Answers env.sys.opts c'.mb coeCommandDownloadresponse reply ∧
      Names reply c.mb.sdoIndex c.mb.sdoSubindex ∧
      c'.mem.bytes = c.mem.bytes.copy d.data (c.mb.firstBytes d.size) c.mb.mbx
        c.mb.downloadData.2 ∧
      c'.mb.transfer = (c.mb.downloading c.mb.sdoIndex c.mb.sdoSubindex d d.size).transfer) c := by
  have hpad : padString c.mem.bytes d c.mb.downloadData.1 = c.mem.bytes :=
    if_neg fun h => h.1 hsize
  have hneutral := preDownload_neutral hooks c.outside
    (padString c.mem.bytes d c.mb.downloadData.1) c.mb.sdoIndex c.mb.sdoSubindex
    (fun i => c.mb.mbx (c.mb.downloadData.2 + i)) c.mb.downloadData.1 d.flags
  have hbytes : (downloadAnswer env.sys.cfg c d).bytes = c.mem.bytes := hneutral.2.trans hpad
  refine wp_sdoDownload_accepted
    ⟨hd, hwrite, .inl hsize, hpad.symm ▸ hunlocked, hneutral.1⟩ (fun _ => Nat.le_of_eq hsize)
    fun writes wrapped => ?_
  rw [hbytes, hsize]
  by_cases hmore : Continues (c.mb.headerLength 0).toNat d.size
  · refine wp_sdoDownloadAccepted_more (by exact hidle) hdata (by exact hlength)
      (by exact hmore) fun n writes wrapped hn => ?_
    obtain ⟨reply, hanswers, hnames, htransfer⟩ :=
      Mailbox.downloading_answers hn hroom c.mb.sdoIndex c.mb.sdoSubindex d d.size
    exact ⟨reply, hanswers, hnames, rfl, htransfer⟩
  · refine wp_sdoDownloadAccepted_all hooks (by exact hidle) hdata (by exact hlength)
      (by exact hmore) fun n o writes wrapped hn => ?_
    obtain ⟨reply, hanswers, hnames, htransfer⟩ :=
      Mailbox.downloading_answers hn hroom c.mb.sdoIndex c.mb.sdoSubindex d d.size
    exact ⟨reply, hanswers, hnames, rfl, htransfer⟩

/-! ## Segments of a download -/

/-- The number of data bytes in the segment of the inbox. -/
def Mailbox.segmentBytes (m : Mailbox) : ℕ := segmentSize (m.headerLength 0).toNat m.sdoCommand

/-- The segment of the inbox is the last one. -/
def Mailbox.LastSegment (m : Mailbox) : Prop := m.sdoCommand &&& coeCommandLastsegmentbit ≠ 0

instance (m : Mailbox) : Decidable m.LastSegment := by
  unfold Mailbox.LastSegment; infer_instance

lemma wp_setStateIdle_release {index : Word} {subindex : Byte} {Q : Unit → Coe σ → Prop}
    (hQ : Q () { c with mb := c.mb.release }) :
    wp env k (setStateIdle 0 index subindex 0) Q c := by
  rw [setStateIdle, when, if_neg (not_not.mpr rfl), wp_bind, wp_pure, wp_coeModifyMb]
  exact hQ

/-- The variables once the segment of the inbox is stored. -/
def segmentStored (c : Coe σ) : ByteStore :=
  c.mem.bytes.copy c.mb.data c.mb.segmentBytes c.mb.mbx Mailbox.segmentOffset

/-- The command that confirms the segment of the inbox. -/
def Mailbox.segmentConfirmed (m : Mailbox) : Byte :=
  coeCommandDownloadsegresp ||| (m.sdoCommand &&& coeTogglebit)

section downloadsegment

variable (hidle : c.mb.ReplyIdle env.sys.opts) (hdata : c.mb.data ≠ 0)
  (hroom : 16 ≤ c.mb.activembxsize)
  (hfits : Mailbox.segmentOffset + c.mb.segmentBytes ≤ c.mb.activembxsize)
include hidle hdata hroom hfits

/-- `SDO_downloadsegment` up to where it looks for the last segment: the segment is stored, and the
buffer that was claimed holds its confirmation. -/
lemma wp_sdoDownloadsegment {Q : Unit → Coe σ → Prop}
    (hQ : ∀ n m' writes wrapped, c.mb.Prepared env.sys.opts m' n → m'.transfer = c.mb.transfer →
      SdoResponse (m'.message n) c.mb.activembxsize c.mb.segmentConfirmed →
      wp env k (if c.mb.LastSegment then do
          let complete ← (if c.mb.flags = completeAccessFlag then
            caDownloadLast (c.mb.claim n) c.mb.segmentBytes else pure true)
          when complete do
            coeModifyMb fun m => { m with segmented := 0, frags := 0, fragsleft := 0 }
            let abort ← escDownloadPostObjecthandler c.mb.index c.mb.subindex c.mb.flags
            if abort ≠ 0 then
              setStateIdle n c.mb.index c.mb.subindex abort
            else
              coeModifyMb fun m => m.setControl n .outreq
              setStateIdle 0 0 0 0
        else do
          coeModifyMb fun m => { m with
            data := m.data + c.mb.segmentBytes
            fragsleft := (m.fragsleft + c.mb.segmentBytes) % 2 ^ 32 }
          coeModifyMb fun m => m.setControl n .outreq
          setStateIdle 0 0 0 0) Q ⟨c.outside, m', ⟨segmentStored c, writes, wrapped⟩⟩) :
    wp env k sdoDownloadsegment Q c := by
  have hmbx : escMbxhsize < c.mb.activembxsize := by
    rw [escMbxhsize]
    omega
  rw [sdoDownloadsegment]
  refine wp_claim_idle hidle fun n hn => ?_
  have hne : n ≠ 0 := Nat.pos_iff_ne_zero.mp hn.1
  rw [if_neg hne, wp_bind, wp_coeMb, headerTail, wp_bind, wp_transact]
  simp only [Mailbox.claim_headerLength hmbx hne, Mailbox.claim_sdoCommand hmbx hne]
  rw [wp_bind, wp_coeModifyMb, wp_bind, wp_sdoStore (by exact hdata)]
  have hcopy : c.mem.bytes.copy c.mb.data c.mb.segmentBytes (c.mb.claim n).mbx
      Mailbox.segmentOffset = segmentStored c :=
    ByteStore.copy_congr fun i hi => Mailbox.claim_inbox hn.1 (by omega)
  have hresponse : SdoResponse (Mailbox.overSdo ((c.mb.claim n).message n) coeDefaultlength
      coeSdoresponse (coeCommandDownloadsegresp ||| ((c.mb.claim n).sdoCommand &&& coeTogglebit))
        0 0) c.mb.activembxsize c.mb.segmentConfirmed := by
    rw [Mailbox.claim_sdoCommand hmbx hne]
    exact Mailbox.overSdo_response _ hroom 0 0
  rw [← Mailbox.message_putSdo] at hresponse
  have h := hQ n ((c.mb.claim n).putSdo n coeDefaultlength coeSdoresponse
    (coeCommandDownloadsegresp ||| ((c.mb.claim n).sdoCommand &&& coeTogglebit)) 0 0)
    ((c.mb.data, c.mb.segmentBytes) :: c.mem.writes)
    (c.mem.wrapped || decide ((c.mb.headerLength 0).toNat < 3)) ⟨hn, rfl, rfl, rfl, rfl⟩ rfl
    hresponse
  rw [← hcopy] at h
  exact h

omit hidle hdata hroom hfits in
lemma Mailbox.transfer_advanced {m m' : Mailbox} (h : m'.transfer = m.transfer) (size left n : ℕ) :
    (({ m' with data := m'.data + size, fragsleft := left } : Mailbox).setControl n
      .outreq).release.transfer =
      { m.transfer with data := m.data + size, fragsleft := left } := by
  have hdata : m'.data = m.data := congrArg Transfer.data h
  rw [← h, ← hdata]
  rfl

/-- A segment that is not the last one is confirmed, and the next is stored behind it. -/
lemma sdoDownloadsegment_more (hmore : ¬ c.mb.LastSegment) :
    wp env k sdoDownloadsegment (fun _ c' => ∃ reply,
      c.mb.Answers env.sys.opts c'.mb c.mb.segmentConfirmed reply ∧
      c'.outside = c.outside ∧ c'.mem.bytes = segmentStored c ∧
      c'.mb.transfer = { c.mb.transfer with
        data := c.mb.data + c.mb.segmentBytes
        fragsleft := (c.mb.fragsleft + c.mb.segmentBytes) % 2 ^ 32 }) c := by
  refine wp_sdoDownloadsegment hidle hdata hroom hfits
    fun n m' writes wrapped hprepared htransfer hresponse => ?_
  have hleft : m'.fragsleft = c.mb.fragsleft := congrArg Transfer.fragsleft htransfer
  rw [if_neg hmore, wp_bind, wp_coeModifyMb, wp_bind, wp_coeModifyMb]
  simp only [hleft]
  generalize (c.mb.fragsleft + c.mb.segmentBytes) % 2 ^ 32 = left
  refine wp_setStateIdle_release ⟨_, ⟨⟨n, Mailbox.Prepared.replied ⟨hprepared.idle,
    hprepared.control, hprepared.txcue, hprepared.held, hprepared.size⟩, rfl⟩, hresponse⟩, rfl, rfl,
      Mailbox.transfer_advanced htransfer c.mb.segmentBytes left n⟩

omit hidle hdata hroom hfits in
open ByteStore in
lemma Mailbox.aborted_message (m : Mailbox) (n : ℕ) (index : Word) (subindex : Byte)
    (abortcode : Dword) :
    (((m.putSdo n coeDefaultlength coeSdorequest coeCommandSdoabort index subindex).putSize n
      abortcode).setControl n .outreq).release.message n 8 = coeCommandSdoabort := by
  rw [message_release, message_putSize, message_putSdo, setDword_of_outside _ (.inl (by decide))]
  simp (disch := omega) only [overSdo, setWord_of_outside, set_of_ne, set_self]

omit hidle hdata hroom hfits in
/-- `set_state_idle` with an abort code, in a buffer that is claimed. -/
lemma wp_setStateIdle_abort {n : ℕ} (hn : n ≠ 0) {abortcode : Dword} (habort : abortcode ≠ 0)
    {index : Word} {subindex : Byte} {Q : Unit → Coe σ → Prop}
    (hQ : Q () { c with mb := (((c.mb.putSdo n coeDefaultlength coeSdorequest coeCommandSdoabort
      index subindex).putSize n abortcode).setControl n .outreq).release }) :
    wp env k (setStateIdle n index subindex abortcode) Q c := by
  rw [setStateIdle, when, if_pos habort, sdoAbort, if_pos hn, wp_bind, wp_bind, wp_pure, when,
    if_pos hn, wp_coeModifyMb, wp_coeModifyMb]
  exact hQ

/-- The last segment of a single entry: the hook decides whether it is confirmed or aborted. -/
lemma sdoDownloadsegment_last (hflags : c.mb.flags ≠ completeAccessFlag)
    (hlast : c.mb.LastSegment) {a : HookAnswer σ}
    (ha : a = postDownload env.sys.cfg c.outside (segmentStored c) c.mb.index c.mb.subindex
      c.mb.flags) :
    wp env k sdoDownloadsegment (fun _ c' => ∃ n, c.mb.Replied env.sys.opts c'.mb n ∧
      c'.outside = a.outside ∧ c'.mem.bytes = a.bytes ∧
      (a.code = 0 →
        SdoResponse (c'.mb.message n) c.mb.activembxsize c.mb.segmentConfirmed) ∧
      (a.code ≠ 0 → c'.mb.message n 8 = coeCommandSdoabort)) c := by
  refine wp_sdoDownloadsegment hidle hdata hroom hfits
    fun n m' writes wrapped hprepared htransfer hresponse => ?_
  have hn := Nat.pos_iff_ne_zero.mp hprepared.idle.1
  rw [if_pos hlast, if_neg hflags, wp_bind, wp_pure, when, if_pos rfl, wp_bind, wp_coeModifyMb,
    wp_bind]
  generalize hm₂ : ({ m' with segmented := 0, frags := 0, fragsleft := 0 } : Mailbox) = m₂
  have hprepared₂ : c.mb.Prepared env.sys.opts m₂ n := by
    rw [← hm₂]
    exact ⟨hprepared.idle, hprepared.control, hprepared.txcue, hprepared.held, hprepared.size⟩
  have hresponse₂ : SdoResponse (m₂.message n) c.mb.activembxsize c.mb.segmentConfirmed := by
    rw [← hm₂]
    exact hresponse
  refine wp_escDownloadPostObjecthandler fun a' ha' => ?_
  have haa : a' = a := ha'.trans ha.symm
  rw [haa]
  refine (wp_ite _ _ _ _).mpr ⟨fun habort => ?_, fun hok => ?_⟩
  · refine wp_setStateIdle_abort hn habort ?_
    have hprepared₃ : c.mb.Prepared env.sys.opts ((m₂.putSdo n coeDefaultlength coeSdorequest
        coeCommandSdoabort c.mb.index c.mb.subindex).putSize n a.code) n :=
      ⟨hprepared₂.idle, hprepared₂.control, hprepared₂.txcue, hprepared₂.held, hprepared₂.size⟩
    exact ⟨n, hprepared₃.replied, rfl, rfl, fun h => (habort h).elim,
      fun _ => Mailbox.aborted_message m₂ n c.mb.index c.mb.subindex a.code⟩
  · rw [wp_bind, wp_coeModifyMb]
    exact wp_setStateIdle_release
      ⟨n, hprepared₂.replied, rfl, rfl, fun _ => hresponse₂, fun h => (hok h).elim⟩

/-- `SDO_downloadsegment` confirms, and stores the segment where the transfer has come to. -/
lemma sdoDownloadsegment_confirms (hooks : SdoHooksNeutral env.sys.cfg)
    (hflags : c.mb.flags ≠ completeAccessFlag) :
    wp env k sdoDownloadsegment (fun _ c' => ∃ reply,
      c.mb.Answers env.sys.opts c'.mb c.mb.segmentConfirmed reply ∧
      c'.mem.bytes = segmentStored c ∧
      (¬ c.mb.LastSegment → c'.mb.data = c.mb.data + c.mb.segmentBytes ∧
        c'.mb.flags = c.mb.flags)) c := by
  by_cases hlast : c.mb.LastSegment
  · obtain ⟨hcode, hbytes⟩ := postDownload_neutral hooks c.outside (segmentStored c) c.mb.index
      c.mb.subindex c.mb.flags
    refine (sdoDownloadsegment_last hidle hdata hroom hfits hflags hlast rfl).mono
      fun _ c' ⟨n, hreplied, _, hstored, hconfirmed, _⟩ => ?_
    exact ⟨_, ⟨⟨n, hreplied, rfl⟩, hconfirmed hcode⟩, hstored.trans hbytes,
      fun h => (h hlast).elim⟩
  · refine (sdoDownloadsegment_more hidle hdata hroom hfits hlast).mono
      fun _ c' ⟨reply, hanswers, _, hstored, htransfer⟩ => ?_
    exact ⟨reply, hanswers, hstored, fun _ => ⟨congrArg Transfer.data htransfer,
      congrArg Transfer.flags htransfer⟩⟩

end downloadsegment

/-! ## What the master reads -/

/-- The announced size and the bytes of the reply to an upload: the size bits of an expedited
reply, or the size field and what the length leaves for data. -/
def uploadValue (reply : ByteStore) : ℕ × List Byte :=
  if reply 8 &&& coeExpeditedIndicator ≠ 0 then
    let size := 4 - ((reply 8 >>> 2) &&& 3).toNat
    (size, reply.bytes Mailbox.sizeOffset size)
  else
    let size := (reply.dword Mailbox.sizeOffset).toNat
    (size, reply.bytes Mailbox.dataOffset (min size ((reply.word 0).toNat - coeHeadersize)))

/-- Whether a segment of an upload is the last one, and its bytes: in a message of the least length
the size bits tell how many of the seven bytes are none. -/
def segmentValue (reply : ByteStore) : Bool × List Byte :=
  let length := (reply.word 0).toNat
  let count := if length = coeDefaultlength then 7 - ((reply 8 >>> 1) &&& 7).toNat
    else length - coeSegmentheadersize
  (decide (reply 8 &&& coeCommandLastsegmentbit ≠ 0), reply.bytes Mailbox.segmentOffset count)

/-! ## Upload -/

/-- The number of bytes in the reply to an upload of `size` bytes, in mailboxes of `room` bytes. -/
def firstUpload (room size : ℕ) : ℕ :=
  if 4 < size ∧ room < escMbxhsize + coeHeadersize + size then
    room - (escMbxhsize + coeHeadersize)
  else size

lemma Mailbox.mbxDsize_eq (hroom : escMbxhsize ≤ m.activembxsize) (hlt : m.activembxsize < 2 ^ 32) :
    m.mbxDsize = m.activembxsize - escMbxhsize := by
  simp only [mbxDsize, sub32, escMbxhsize] at hroom ⊢
  omega

/-- The command of an expedited reply to an upload, by the length in bits. -/
def expeditedCommand (bits : ℕ) : Byte :=
  coeCommandUploadresponse ||| coeSizeIndicator ||| (coeExpeditedIndicator ||| expeditedBits bits)

/-- The size bits of an expedited reply tell the size. -/
lemma expeditedCommand_size {bits : ℕ} (hpos : 0 < bits) (hle : bits ≤ 32)
    (height : bits % 8 = 0) : 4 - ((expeditedCommand bits >>> 2) &&& 3).toNat = bits / 8 ∧
      expeditedCommand bits &&& coeExpeditedIndicator ≠ 0 ∧
      expeditedCommand bits &&& 0xe0 = coeCommandUploadresponse := by
  have h : bits = 8 ∨ bits = 16 ∨ bits = 24 ∨ bits = 32 := by omega
  rcases h with rfl | rfl | rfl | rfl <;> decide

/-- What the reply to an upload of an entry says. -/
structure UploadReply (reply : ByteStore) (command : Byte) (index : Word) (subindex : Byte)
    (size : ℕ) (data : List Byte) : Prop where
  command : command &&& 0xe0 = coeCommandUploadresponse
  names : Names reply index subindex
  value : uploadValue reply = (size, data)

open ByteStore in
lemma Mailbox.overSdo_names (b : ByteStore) (length : ℕ) (service : Word) (command : Byte)
    (index : Word) (subindex : Byte) :
    Names (overSdo b length service command index subindex) index subindex := by
  constructor
  · simp (disch := omega) only [overSdo, word_set_of_disjoint, word_setWord]
  · simp only [overSdo, set_self]

lemma Names.of_fields {b b' : ByteStore} {index : Word} {subindex : Byte}
    (h : Names b index subindex) (hfields : ∀ i, 9 ≤ i → i < 12 → b' i = b i) :
    Names b' index subindex := by
  refine ⟨?_, (hfields 11 (by omega) (by omega)).trans h.2⟩
  rw [← h.1, ByteStore.word, ByteStore.word, hfields 9 (by omega) (by omega),
    hfields 10 (by omega) (by omega)]

open ByteStore in
lemma Mailbox.overSdo_command (b : ByteStore) (length : ℕ) (service : Word) (command : Byte)
    (index : Word) (subindex : Byte) :
    overSdo b length service command index subindex 8 = command := by
  simp (disch := omega) only [overSdo, setWord_of_outside, set_of_ne, set_self]

section expedited

variable {b src : ByteStore} {index : Word} {subindex : Byte} {size start room bits : ℕ}

open ByteStore in
/-- An expedited reply to an upload says what was copied into it. -/
lemma expedited_reply (hroom : 16 ≤ room) (hbits : bits = 8 * size) (hpos : 0 < size)
    (hle : size ≤ 4) {reply : ByteStore}
    (hreply : reply = ((Mailbox.overSdo b coeDefaultlength coeSdoresponse
      (coeCommandUploadresponse ||| coeSizeIndicator) index subindex).set 8
        (expeditedCommand bits)).copy Mailbox.sizeOffset size src start) :
    SdoResponse reply room (expeditedCommand bits) ∧
      UploadReply reply (expeditedCommand bits) index subindex size (src.bytes start size) := by
  obtain ⟨hcount, hexpedited, hresponse⟩ :=
    @expeditedCommand_size bits (by omega) (by omega) (by omega)
  have hcount' : bits / 8 = size := by omega
  rw [hcount'] at hcount
  have hhead := (@Mailbox.overSdo_response room (coeCommandUploadresponse ||| coeSizeIndicator) b
    hroom index subindex).orCommand (coeExpeditedIndicator ||| expeditedBits bits)
  rw [Mailbox.overSdo_command] at hhead
  have hcommand : reply 8 = expeditedCommand bits := by
    rw [hreply, copy_of_outside (.inl (by decide)), set_self]
  refine ⟨?_, hresponse, ?_, ?_⟩
  · rw [hreply]
    exact hhead.of_head fun i hi => copy_of_outside (.inl (Nat.lt_of_lt_of_le hi (by decide)))
  · rw [hreply]
    refine (Mailbox.overSdo_names b coeDefaultlength coeSdoresponse (coeCommandUploadresponse |||
      coeSizeIndicator) index subindex).of_fields fun i h h' => ?_
    rw [copy_of_outside (.inl h'), set_of_ne _ (by omega)]
  · rw [uploadValue, hcommand, if_pos hexpedited, hcount]
    dsimp only
    rw [hreply, bytes_copy]

/-- `SDO_upload`, the expedited reply, carries the whole value. -/
lemma sdoUploadExpedited_replies (hooks : SdoHooksNeutral env.sys.cfg) {d : Objd}
    (hdata : d.data ≠ 0) (hbits : d.bitlength.toNat = 8 * size) (hpos : 0 < size)
    (hle : size ≤ 4) (n : ℕ) (hroom : 16 ≤ room)
    (hmessage : c.mb.message n = Mailbox.overSdo b coeDefaultlength coeSdoresponse
      (coeCommandUploadresponse ||| coeSizeIndicator) index subindex) :
    wp env k (sdoUploadExpedited n index subindex d) (fun _ c' => ∃ (m' : Mailbox) (command : Byte),
      c'.mb = (m'.setControl n .outreq).release ∧
      m' = { c.mb with mbx := m'.mbx } ∧
      SdoResponse (m'.message n) room command ∧
      UploadReply (m'.message n) command index subindex size (c.mem.bytes.bytes d.data size) ∧
      c'.mem = c.mem) c := by
  have hsize : d.size = size := by
    rw [Objd.size, hbits, bits2bytes]
    omega
  have hreply : ((c.mb.orCommand n (coeExpeditedIndicator ||| expeditedBits
      d.bitlength.toNat)).updateMbx
      fun mbx => mbx.copy ((c.mb.orCommand n (coeExpeditedIndicator |||
        expeditedBits d.bitlength.toNat)).buffer n + Mailbox.sizeOffset) size c.mem.bytes
          d.data).message n = _ := Mailbox.message_load n _ _ _ _
  rw [Mailbox.message_orCommand, hmessage, Mailbox.overSdo_command] at hreply
  obtain ⟨hresponse, hupload⟩ := expedited_reply hroom hbits hpos hle hreply
  rw [sdoUploadExpedited, wp_bind, wp_coeModifyMb, wp_bind]
  refine wp_escUploadPreObjecthandler hooks (by omega) fun o => ?_
  dsimp only
  rw [if_neg (not_not.mpr rfl), if_neg hdata, wp_bind, wp_coeMb, wp_bind, wp_sdoLoad hdata, hsize]
  exact wp_finishUpload hooks fun o => ⟨_, _, rfl, rfl, hresponse, hupload, rfl⟩

end expedited

section normal

variable {b src : ByteStore} {index : Word} {subindex : Byte} {size first start room : ℕ}

open ByteStore in
/-- A normal reply to an upload says what was copied into it. -/
lemma normal_reply (hlt : size < 2 ^ 16) (hfirst : first ≤ size)
    (hfits : escMbxhsize + (coeHeadersize + first) ≤ room) (hroom : room < 2 ^ 16)
    {reply : ByteStore}
    (hreply : reply = (((Mailbox.overSdo b coeDefaultlength coeSdoresponse
      (coeCommandUploadresponse ||| coeSizeIndicator) index subindex).setDword Mailbox.sizeOffset
        (.ofNat 32 size)).setWord 0 (.ofNat 16 (coeHeadersize + first))).copy Mailbox.dataOffset
          first src start) :
    SdoResponse reply room (coeCommandUploadresponse ||| coeSizeIndicator) ∧
      UploadReply reply (coeCommandUploadresponse ||| coeSizeIndicator) index subindex size
        (src.bytes start first) := by
  have hroom16 : 16 ≤ room := by
    simp only [escMbxhsize, coeHeadersize] at hfits
    omega
  have hhead : SdoResponse (((Mailbox.overSdo b coeDefaultlength coeSdoresponse
      (coeCommandUploadresponse ||| coeSizeIndicator) index subindex).setDword Mailbox.sizeOffset
        (.ofNat 32 size)).setWord 0 (.ofNat 16 (coeHeadersize + first))) room
          (coeCommandUploadresponse ||| coeSizeIndicator) := by
    refine (SdoResponse.of_head (Mailbox.overSdo_response b hroom16 index subindex)
      fun i hi => ?_).putLength hfits
    exact setDword_of_outside _ (.inl (Nat.lt_of_lt_of_le hi (by decide)))
  have hresponse : SdoResponse reply room (coeCommandUploadresponse ||| coeSizeIndicator) := by
    rw [hreply]
    exact hhead.of_head fun i hi => copy_of_outside (.inl (Nat.lt_of_lt_of_le hi (by decide)))
  have hsize : reply.dword Mailbox.sizeOffset = .ofNat 32 size := by
    rw [hreply, dword_copy_of_disjoint (.inr (by decide)), dword_setWord_of_disjoint _
      (.inl (by decide)), dword_setDword]
  have hlength : reply.word 0 = .ofNat 16 (coeHeadersize + first) := by
    rw [hreply, word_copy_of_disjoint (.inr (by decide)), word_setWord]
  refine ⟨hresponse, by decide, ?_, ?_⟩
  · rw [hreply]
    refine (Mailbox.overSdo_names b coeDefaultlength coeSdoresponse (coeCommandUploadresponse |||
      coeSizeIndicator) index subindex).of_fields fun i h h' => ?_
    have hdata : i < Mailbox.dataOffset := Nat.lt_of_lt_of_le h' (by decide)
    rw [copy_of_outside (.inl hdata), setWord_of_outside _ (.inr (by omega)),
      setDword_of_outside _ (.inl h')]
  · have hcount : (BitVec.ofNat 16 (coeHeadersize + first)).toNat - coeHeadersize = first := by
      rw [BitVec.toNat_ofNat]
      simp only [escMbxhsize, coeHeadersize] at hfits ⊢
      omega
    have hannounced : (BitVec.ofNat 32 size).toNat = size := by
      rw [BitVec.toNat_ofNat]
      omega
    rw [uploadValue, hresponse.command, if_neg (by decide), hsize, hlength, hannounced, hcount]
    dsimp only
    rw [Nat.min_eq_right hfirst, hreply, bytes_copy]

/-- The message of a normal reply, once its data is loaded. -/
lemma Mailbox.normal_message (m m₂ : Mailbox) (n : ℕ) (size : Dword)
    (hmbx : m₂.mbx = (m.putSize n size).mbx) (hroom : m₂.activembxsize = m.activembxsize)
    (length len : ℕ) (src : ByteStore) (start : ℕ) :
    ((m₂.putLength n length).updateMbx fun mbx =>
      mbx.copy (m.buffer n + dataOffset) len src start).message n =
        (((m.message n).setDword sizeOffset size).setWord 0 (.ofNat 16 length)).copy dataOffset len
          src start := by
  have hbuffer : (m₂.putLength n length).buffer n = m.buffer n := congrArg (n * ·) hroom
  have hmessage : m₂.message n = (m.putSize n size).message n := by
    simp only [message, hmbx, buffer, hroom, putSize, updateMbx]
  rw [← hbuffer, message_load, message_putLength, hmessage, message_putSize]

/-- The upload is continued in segments, the next from byte `done` on. -/
structure Mailbox.Uploading (m : Mailbox) (d : Objd) (size done : ℕ) : Prop where
  segmented : m.segmented = mbxseu
  data : m.data = d.data
  frags : m.frags = size
  fragsleft : m.fragsleft = done

/-- `SDO_upload`, the normal reply, carries what fits, and the rest follows in segments. -/
lemma sdoUploadNormal_replies (hooks : SdoHooksNeutral env.sys.cfg) {d : Objd}
    (hdata : d.data ≠ 0) (hbits : d.bitlength.toNat = 8 * size) (hlarge : 4 < size)
    (hlt : size < 2 ^ 16) (n : ℕ) (hroom : 16 ≤ c.mb.activembxsize)
    (hroom' : c.mb.activembxsize < 2 ^ 16)
    (hmessage : c.mb.message n = Mailbox.overSdo b coeDefaultlength coeSdoresponse
      (coeCommandUploadresponse ||| coeSizeIndicator) index subindex) :
    wp env k (sdoUploadNormal n index subindex d) (fun _ c' => ∃ (m' : Mailbox) (command : Byte),
      c'.mb = (m'.setControl n .outreq).release ∧
      (m'.control = c.mb.control ∧ m'.txcue = c.mb.txcue ∧ m'.sdoHeld = c.mb.sdoHeld ∧
        m'.activembxsize = c.mb.activembxsize) ∧
      (firstUpload c.mb.activembxsize size < size →
        m'.Uploading d size (firstUpload c.mb.activembxsize size)) ∧
      SdoResponse (m'.message n) c.mb.activembxsize command ∧
      UploadReply (m'.message n) command index subindex size
        (c.mem.bytes.bytes d.data (firstUpload c.mb.activembxsize size)) ∧
      c'.mem = c.mem) c := by
  have hsize : d.size = size := by
    rw [Objd.size, hbits, bits2bytes]
    omega
  have hdsize : c.mb.mbxDsize = c.mb.activembxsize - 6 := Mailbox.mbxDsize_eq (by
    rw [escMbxhsize]
    omega) (by omega)
  have hmod : (size + coeHeadersize) % 2 ^ 32 = size + 10 := by
    rw [coeHeadersize]
    omega
  have hfirst : sub32 (c.mb.activembxsize - 6) coeHeadersize = c.mb.activembxsize - 16 := by
    simp only [sub32, coeHeadersize]
    omega
  rw [sdoUploadNormal, wp_bind]
  refine wp_escUploadPreObjecthandler hooks (by omega) fun o => ?_
  dsimp only
  rw [if_neg (not_not.mpr rfl), wp_bind, wp_coeModifyMb, wp_bind, wp_coeMb, hsize]
  simp only [show ({ c.mb.putSize n (.ofNat 32 size) with frags := size } : Mailbox).mbxDsize =
    c.mb.activembxsize - 6 from hdsize, hmod]
  by_cases hmore : c.mb.activembxsize - 6 < size + 10
  · have hfirst' : firstUpload c.mb.activembxsize size = c.mb.activembxsize - 16 :=
      if_pos ⟨hlarge, by simp only [escMbxhsize, coeHeadersize]; omega⟩
    simp only [if_pos hmore, hfirst]
    rw [wp_bind, wp_coeModifyMb, wp_bind, wp_coeModifyMb, wp_bind, wp_sdoLoad hdata]
    have hreply := Mailbox.normal_message c.mb { c.mb.putSize n (.ofNat 32 size) with
        frags := size, fragsleft := c.mb.activembxsize - 16, segmented := mbxseu, data := d.data
        flags := d.flags } n (.ofNat 32 size) rfl rfl (coeHeadersize + (c.mb.activembxsize - 16))
      (c.mb.activembxsize - 16) c.mem.bytes d.data
    rw [hmessage] at hreply
    obtain ⟨hresponse, hupload⟩ := normal_reply hlt (by omega)
      (by simp only [escMbxhsize, coeHeadersize]; omega) hroom' hreply
    rw [hfirst']
    exact wp_finishUpload hooks fun o => ⟨_, _, rfl, ⟨rfl, rfl, rfl, rfl⟩,
      fun _ => ⟨rfl, rfl, rfl, rfl⟩, hresponse, hupload, rfl⟩
  · have hfirst' : firstUpload c.mb.activembxsize size = size :=
      if_neg fun h => by simp only [escMbxhsize, coeHeadersize] at h; omega
    simp only [if_neg hmore]
    rw [wp_bind, wp_coeModifyMb, wp_bind, wp_coeModifyMb, wp_bind, wp_sdoLoad hdata]
    have hreply := Mailbox.normal_message c.mb { c.mb.putSize n (.ofNat 32 size) with
        frags := size, segmented := 0 } n (.ofNat 32 size) rfl rfl
      (coeHeadersize + size) size c.mem.bytes d.data
    rw [hmessage] at hreply
    obtain ⟨hresponse, hupload⟩ := normal_reply hlt (by omega)
      (by simp only [escMbxhsize, coeHeadersize]; omega) hroom' hreply
    rw [hfirst']
    exact wp_finishUpload hooks fun o => ⟨_, _, rfl, ⟨rfl, rfl, rfl, rfl⟩,
      fun h => (Nat.lt_irrefl _ h).elim, hresponse, hupload, rfl⟩

end normal

/-- `SDO_upload` answers with the size of the entry and as much of its value as fits. -/
lemma sdoUpload_replies (hooks : SdoHooksNeutral env.sys.cfg)
    (hidle : c.mb.ReplyIdle env.sys.opts) {d : Objd} (hdata : d.data ≠ 0) {size : ℕ}
    (hbits : d.bitlength.toNat = 8 * size) (hpos : 0 < size) (hlt : size < 2 ^ 16)
    (hroom : 16 ≤ c.mb.activembxsize) (hroom' : c.mb.activembxsize < 2 ^ 16)
    (hd : lookupEntry env.sys.dict.table c.mb.sdoIndex c.mb.sdoSubindex = .ok (.ok d))
    (hread : readAccess d.access (env.alStatus.setWidth 8 &&& 0x0f)) :
    wp env k sdoUpload (fun _ c' => ∃ reply command,
      c.mb.Answers env.sys.opts c'.mb command reply ∧
      UploadReply reply command c.mb.sdoIndex c.mb.sdoSubindex size
        (c.mem.bytes.bytes d.data (firstUpload c.mb.activembxsize size)) ∧
      c'.mem = c.mem ∧
      (firstUpload c.mb.activembxsize size < size →
        c'.mb.Uploading d size (firstUpload c.mb.activembxsize size))) c := by
  have hsize : d.size = size := by
    rw [Objd.size, hbits, bits2bytes]
    omega
  rw [sdoUpload, wp_bind, wp_coeMb, wp_bind, wp_coeTable, wp_bind, wp_lift]
  refine ⟨.ok d, hd, ?_⟩
  rw [wp_bind, wp_coeState, if_neg (not_not.mpr hread)]
  refine wp_claim_idle hidle fun n hn => ?_
  rw [if_neg (Nat.pos_iff_ne_zero.mp hn.1), wp_bind, wp_coeModifyMb, hsize]
  refine (wp_ite _ _ _ _).mpr ⟨fun hle => ?_, fun hlarge => ?_⟩
  · have hfirst : firstUpload c.mb.activembxsize size = size := if_neg fun h => by omega
    refine (sdoUploadExpedited_replies hooks hdata hbits hpos hle n hroom
      (Mailbox.message_putSdo n _ _ _ _ _)).mono fun _ c' h => ?_
    obtain ⟨m', command, hmb, hm', hresponse, hupload, hmem⟩ := h
    rw [hmb]
    refine ⟨_, command, ⟨⟨n, Mailbox.Prepared.replied ⟨hn, ?_, ?_, ?_, ?_⟩, rfl⟩, hresponse⟩, ?_,
      hmem,
      fun h => ?_⟩
    · rw [hm']
      rfl
    · rw [hm']
      rfl
    · rw [hm']
      rfl
    · rw [hm']
      rfl
    · rw [hfirst]
      exact hupload
    · rw [hfirst] at h
      exact (Nat.lt_irrefl _ h).elim
  · refine (sdoUploadNormal_replies hooks hdata hbits (by omega) hlt n (by exact hroom)
      (by exact hroom') (Mailbox.message_putSdo n _ _ _ _ _)).mono fun _ c' h => ?_
    obtain ⟨m', command, hmb, ⟨hcontrol, hcue, hheld, hroom₂⟩, huploading, hresponse, hupload,
      hmem⟩ := h
    rw [hmb]
    exact ⟨_, command, ⟨⟨n, Mailbox.Prepared.replied ⟨hn, hcontrol, hcue, hheld, hroom₂⟩, rfl⟩,
      hresponse⟩, hupload, hmem, fun h => ⟨(huploading h).segmented, (huploading h).data,
        (huploading h).frags, (huploading h).fragsleft⟩⟩

/-! ## Segments of an upload -/

/-- What the reply to a request for a segment says. -/
structure SegmentReply (reply : ByteStore) (command toggle : Byte) (last : Bool)
    (data : List Byte) : Prop where
  isSegment : command &&& 0xe0 = coeCommandUploadsegment
  toggled : command &&& coeTogglebit = toggle
  value : segmentValue reply = (last, data)

/-- The number of bytes in the next segment of an upload with `left` bytes to go. -/
def nextUpload (room left : ℕ) : ℕ :=
  if room < escMbxhsize + coeSegmentheadersize + left then
    room - (escMbxhsize + coeSegmentheadersize)
  else left

/-- The command of a segment of an upload. -/
def segmentCommand (toggle : Byte) (last : Bool) (count : ℕ) : Byte :=
  if last then
    if 7 ≤ count then coeCommandUploadsegment ||| toggle ||| coeCommandLastsegmentbit
    else coeCommandUploadsegment ||| toggle ||| coeCommandLastsegmentbit |||
      .ofNat 8 ((7 - count) * 2)
  else coeCommandUploadsegment ||| toggle

/-- The length of a segment of an upload. -/
def segmentLength (last : Bool) (count : ℕ) : ℕ :=
  if last = true ∧ count < 7 then coeDefaultlength else coeSegmentheadersize + count

lemma toggle_cases (command : Byte) :
    command &&& coeTogglebit = 0 ∨ command &&& coeTogglebit = coeTogglebit := by
  revert command
  decide

lemma segmentCommand_fields {toggle : Byte} (ht : toggle = 0 ∨ toggle = coeTogglebit) (last : Bool)
    (count : ℕ) : segmentCommand toggle last count &&& 0xe0 = coeCommandUploadsegment ∧
      segmentCommand toggle last count &&& coeTogglebit = toggle ∧
      decide (segmentCommand toggle last count &&& coeCommandLastsegmentbit ≠ 0) = last ∧
      (last = true → count < 7 →
        7 - ((segmentCommand toggle last count >>> 1) &&& 7).toNat = count) ∧
      (¬ (last = true ∧ count < 7) → (segmentCommand toggle last count >>> 1) &&& 7 = 0) := by
  cases last with
  | false => rcases ht with rfl | rfl <;> simp [segmentCommand]
  | true =>
      by_cases hcount : 7 ≤ count
      · have hlong : ¬ count < 7 := by omega
        rcases ht with rfl | rfl <;> simp [segmentCommand, hcount, hlong]
      · have hlt : count < 7 := by omega
        -- seven lengths are short, so each is made concrete
        clear hcount
        rcases ht with rfl | rfl <;> revert count <;> decide

section segment

variable {b src : ByteStore} {index : Word} {subindex toggle : Byte} {last : Bool}
  {count start room : ℕ}

open ByteStore in
/-- A segment of an upload says what was copied into it. -/
lemma segment_reply (ht : toggle = 0 ∨ toggle = coeTogglebit)
    (hfits : escMbxhsize + segmentLength last count ≤ room) (hroom : room < 2 ^ 16)
    (hroom16 : 16 ≤ room) {head reply : ByteStore}
    (hhead : SdoResponse head room (segmentCommand toggle last count))
    (hlength : head.word 0 = .ofNat 16 (segmentLength last count))
    (hreply : reply = head.copy Mailbox.segmentOffset count src start) :
    SdoResponse reply room (segmentCommand toggle last count) ∧
      SegmentReply reply (segmentCommand toggle last count) toggle last
        (src.bytes start count) := by
  obtain ⟨hcommand, htoggle, hlast, hshort, hlong⟩ := segmentCommand_fields ht last count
  have hresponse : SdoResponse reply room (segmentCommand toggle last count) := by
    rw [hreply]
    exact hhead.of_head fun i hi => copy_of_outside (.inl (Nat.lt_of_lt_of_le hi (by decide)))
  have hword : (reply.word 0).toNat = segmentLength last count := by
    rw [hreply, word_copy_of_disjoint (.inr (by decide)), hlength, BitVec.toNat_ofNat]
    exact Nat.mod_eq_of_lt (by omega)
  refine ⟨hresponse, hcommand, htoggle, ?_⟩
  have hcount : (if segmentLength last count = coeDefaultlength then
      7 - ((segmentCommand toggle last count >>> 1) &&& 7).toNat
      else segmentLength last count - coeSegmentheadersize) = count := by
    by_cases hpad : last = true ∧ count < 7
    · rw [segmentLength, if_pos hpad, if_pos rfl]
      exact hshort hpad.1 hpad.2
    · rw [segmentLength, if_neg hpad, hlong hpad, coeSegmentheadersize, coeDefaultlength]
      split
      · change 7 - 0 = count
        omega
      · omega
  rw [segmentValue, hword, hresponse.command, hcount, hlast, hreply, bytes_copy]

/-- The end of `SDO_uploadsegment`: the bytes are loaded behind the head of the reply. -/
lemma sendSegment_replies (hooks : SdoHooksNeutral env.sys.cfg) (last : Bool) {n data dst : ℕ}
    (hdata : data ≠ 0) (hprepared : m.Prepared env.sys.opts c.mb n)
    (hdst : dst = c.mb.buffer n + Mailbox.segmentOffset) (ht : toggle = 0 ∨ toggle = coeTogglebit)
    (hfits : escMbxhsize + segmentLength last count ≤ m.activembxsize)
    (hroom : m.activembxsize < 2 ^ 16) (hroom16 : 16 ≤ m.activembxsize)
    (hhead : SdoResponse (c.mb.message n) m.activembxsize (segmentCommand toggle last count) ∧
      (c.mb.message n).word 0 = .ofNat 16 (segmentLength last count))
    {flags : Word} :
    wp env k (if data = 0 ∧ count ≠ 0 then fault .null
      else do
        sdoLoad (data + start) count dst
        finishUpload n index subindex flags) (fun _ c' => ∃ reply command,
      m.Answers env.sys.opts c'.mb command reply ∧
      SegmentReply reply command toggle last (c.mem.bytes.bytes (data + start) count) ∧
      c'.mem = c.mem ∧ c'.mb.transfer = c.mb.transfer) c := by
  obtain ⟨hresponse, hsegment⟩ := segment_reply ht hfits hroom hroom16 hhead.1 hhead.2
    (Mailbox.message_load n Mailbox.segmentOffset count c.mem.bytes (data + start))
  rw [if_neg (fun h => hdata h.1), wp_bind, wp_sdoLoad (by omega), hdst]
  refine wp_finishUpload hooks fun o => ⟨_, _, ⟨⟨n, ?_, rfl⟩, hresponse⟩, hsegment, rfl, rfl⟩
  exact Mailbox.Prepared.replied ⟨hprepared.idle, hprepared.control, hprepared.txcue,
    hprepared.held, hprepared.size⟩

/-- The head of a segment that is not the last one. -/
lemma Mailbox.more_head {m₂ : Mailbox} {n : ℕ} (count : ℕ) (hmbx : m₂.mbx = (m.putLength n
    (coeSegmentheadersize + count)).mbx) (hsize : m₂.activembxsize = m.activembxsize)
    (hfits : escMbxhsize + (coeSegmentheadersize + count) ≤ room)
    (h : SdoResponse (m.message n) room (coeCommandUploadsegment ||| toggle)) :
    SdoResponse (m₂.message n) room (segmentCommand toggle false count) ∧
      (m₂.message n).word 0 = .ofNat 16 (segmentLength false count) := by
  have hmessage : m₂.message n = (m.putLength n (coeSegmentheadersize + count)).message n := by
    simp only [message, hmbx, buffer, hsize, putLength, updateMbx]
  have hlength : segmentLength false count = coeSegmentheadersize + count := by
    simp [segmentLength]
  rw [hmessage, message_putLength, hlength, ByteStore.word_setWord]
  exact ⟨h.putLength hfits, rfl⟩

/-- The head of the last segment. -/
lemma Mailbox.last_head {m₂ : Mailbox} {n : ℕ} (count : ℕ)
    (hmbx : m₂.mbx = (m.orCommand n coeCommandLastsegmentbit).mbx)
    (hsize : m₂.activembxsize = m.activembxsize)
    (hfits : escMbxhsize + segmentLength true count ≤ room)
    (h : SdoResponse (m.message n) room (coeCommandUploadsegment ||| toggle)) :
    let m₃ := if 7 ≤ count then m₂.putLength n (coeSegmentheadersize + count)
      else (m₂.orCommand n (.ofNat 8 ((7 - count) * 2))).putLength n coeDefaultlength
    SdoResponse (m₃.message n) room (segmentCommand toggle true count) ∧
      (m₃.message n).word 0 = .ofNat 16 (segmentLength true count) := by
  have hmessage : m₂.message n = (m.orCommand n coeCommandLastsegmentbit).message n := by
    simp only [message, hmbx, buffer, hsize, orCommand, updateMbx]
  have hlast : SdoResponse (m₂.message n) room (coeCommandUploadsegment ||| toggle |||
      coeCommandLastsegmentbit) := by
    rw [hmessage, message_orCommand]
    exact h.orCommand _
  by_cases hlong : 7 ≤ count
  · have hlength : segmentLength true count = coeSegmentheadersize + count := if_neg (by omega)
    rw [hlength] at hfits
    simp only [if_pos hlong, segmentCommand, if_true, hlength, message_putLength,
      ByteStore.word_setWord]
    exact ⟨hlast.putLength hfits, trivial⟩
  · have hlength : segmentLength true count = coeDefaultlength := if_pos ⟨rfl, by omega⟩
    rw [hlength] at hfits
    simp only [if_neg hlong, segmentCommand, if_true, hlength, message_putLength,
      message_orCommand, ByteStore.word_setWord]
    exact ⟨(hlast.orCommand _).putLength hfits, trivial⟩

/-- A segment that is not the last one. -/
lemma moreSegment_replies (hooks : SdoHooksNeutral env.sys.cfg) {n data dst : ℕ} (hdata : data ≠ 0)
    (hprepared : m.Prepared env.sys.opts c.mb n)
    (hdst : dst = c.mb.buffer n + Mailbox.segmentOffset) (ht : toggle = 0 ∨ toggle = coeTogglebit)
    (hfits : escMbxhsize + (coeSegmentheadersize + count) ≤ m.activembxsize)
    (hroom : m.activembxsize < 2 ^ 16) (hroom16 : 16 ≤ m.activembxsize)
    (hhead : SdoResponse (c.mb.message n) m.activembxsize (coeCommandUploadsegment ||| toggle))
    {flags : Word} :
    wp env k (do
      coeModifyMb fun m => { m.putLength n (coeSegmentheadersize + count) with
        fragsleft := (m.fragsleft + count) % 2 ^ 32 }
      if data = 0 ∧ count ≠ 0 then
        fault .null
      else
        sdoLoad (data + start) count dst
        finishUpload n index subindex flags) (fun _ c' => ∃ reply command,
      m.Answers env.sys.opts c'.mb command reply ∧
      SegmentReply reply command toggle false (c.mem.bytes.bytes (data + start) count) ∧
      c'.mem = c.mem ∧
      c'.mb.transfer = { c.mb.transfer with
        fragsleft := (c.mb.fragsleft + count) % 2 ^ 32 }) c := by
  rw [wp_bind, wp_coeModifyMb]
  exact sendSegment_replies (c := ⟨c.outside, { c.mb.putLength n (coeSegmentheadersize + count) with
    fragsleft := (c.mb.fragsleft + count) % 2 ^ 32 }, c.mem⟩) hooks false hdata
    ⟨hprepared.idle, hprepared.control, hprepared.txcue, hprepared.held, hprepared.size⟩ hdst ht
    hfits hroom hroom16 (Mailbox.more_head count rfl rfl hfits hhead)

/-- The last segment. -/
lemma lastSegment_replies (hooks : SdoHooksNeutral env.sys.cfg) {n data dst : ℕ} (hdata : data ≠ 0)
    (hprepared : m.Prepared env.sys.opts c.mb n)
    (hdst : dst = c.mb.buffer n + Mailbox.segmentOffset) (ht : toggle = 0 ∨ toggle = coeTogglebit)
    (hfits : escMbxhsize + segmentLength true count ≤ m.activembxsize)
    (hroom : m.activembxsize < 2 ^ 16) (hroom16 : 16 ≤ m.activembxsize)
    (hhead : SdoResponse (c.mb.message n) m.activembxsize (coeCommandUploadsegment ||| toggle))
    {flags : Word} :
    wp env k (do
      coeModifyMb fun m => { m.orCommand n coeCommandLastsegmentbit with
        segmented := 0, frags := 0, fragsleft := 0 }
      if 7 ≤ count then
        coeModifyMb fun m => m.putLength n (coeSegmentheadersize + count)
        if data = 0 ∧ count ≠ 0 then
          fault .null
        else
          sdoLoad (data + start) count dst
          finishUpload n index subindex flags
      else
        coeModifyMb fun m => (m.orCommand n (.ofNat 8 ((7 - count) * 2))).putLength n
          coeDefaultlength
        if data = 0 ∧ count ≠ 0 then
          fault .null
        else
          sdoLoad (data + start) count dst
          finishUpload n index subindex flags) (fun _ c' => ∃ reply command,
      m.Answers env.sys.opts c'.mb command reply ∧
      SegmentReply reply command toggle true (c.mem.bytes.bytes (data + start) count) ∧
      c'.mem = c.mem) c := by
  rw [wp_bind, wp_coeModifyMb]
  generalize hm₂ : ({ c.mb.orCommand n coeCommandLastsegmentbit with
    segmented := 0, frags := 0, fragsleft := 0 } : Mailbox) = m₂
  have hhead₂ := @Mailbox.last_head _ _ _ m₂ n count (by rw [← hm₂]) (by rw [← hm₂]; rfl) hfits
    hhead
  have hprepared₂ : m.Prepared env.sys.opts m₂ n := by
    rw [← hm₂]
    exact ⟨hprepared.idle, hprepared.control, hprepared.txcue, hprepared.held, hprepared.size⟩
  have hdst₂ : dst = m₂.buffer n + Mailbox.segmentOffset := by
    rw [hdst, Mailbox.buffer, Mailbox.buffer, hprepared.size, hprepared₂.size]
  refine (wp_ite _ _ _ _).mpr ⟨fun hlong => ?_, fun hshort => ?_⟩
  · simp only [if_pos hlong] at hhead₂
    rw [wp_bind, wp_coeModifyMb]
    refine wp.mono (sendSegment_replies (c := ⟨c.outside, m₂.putLength n _, c.mem⟩) hooks true hdata
      ⟨hprepared.idle, hprepared₂.control, hprepared₂.txcue, hprepared₂.held, hprepared₂.size⟩
      hdst₂ ht hfits hroom hroom16 hhead₂) fun _ c' h => ?_
    obtain ⟨reply, command, hanswers, hsegment, hmem, -⟩ := h
    exact ⟨reply, command, hanswers, hsegment, hmem⟩
  · simp only [if_neg hshort] at hhead₂
    rw [wp_bind, wp_coeModifyMb]
    refine wp.mono (sendSegment_replies (c := ⟨c.outside, (m₂.orCommand n _).putLength n _, c.mem⟩)
      hooks true hdata ⟨hprepared.idle, hprepared₂.control, hprepared₂.txcue, hprepared₂.held,
        hprepared₂.size⟩ hdst₂ ht hfits hroom hroom16 hhead₂) fun _ c' h => ?_
    obtain ⟨reply, command, hanswers, hsegment, hmem, -⟩ := h
    exact ⟨reply, command, hanswers, hsegment, hmem⟩

/-- `SDO_uploadsegment` answers with the next bytes, and says when they are the last ones. -/
lemma sdoUploadsegment_replies (hooks : SdoHooksNeutral env.sys.cfg)
    (hidle : c.mb.ReplyIdle env.sys.opts) {d : Objd} (hdata : d.data ≠ 0) {size done : ℕ}
    (hup : c.mb.Uploading d size done) (hdone : done < size) (hlt : size < 2 ^ 16)
    (hroom : 24 ≤ c.mb.activembxsize) (hroom' : c.mb.activembxsize < 2 ^ 16) :
    wp env k sdoUploadsegment (fun _ c' => ∃ reply command,
      c.mb.Answers env.sys.opts c'.mb command reply ∧
      SegmentReply reply command (c.mb.sdoCommand &&& coeTogglebit)
        (decide (nextUpload c.mb.activembxsize (size - done) = size - done))
        (c.mem.bytes.bytes (d.data + done) (nextUpload c.mb.activembxsize (size - done))) ∧
      c'.mem = c.mem ∧
      (nextUpload c.mb.activembxsize (size - done) < size - done →
        c'.mb.Uploading d size (done + nextUpload c.mb.activembxsize (size - done)))) c := by
  have hsub : sub32 size done = size - done := by
    rw [sub32]
    omega
  have hdsize : c.mb.mbxDsize = c.mb.activembxsize - 6 := Mailbox.mbxDsize_eq (by
    rw [escMbxhsize]
    omega) (by omega)
  have hmod : (size - done + coeSegmentheadersize) % 2 ^ 32 = size - done + 3 := by
    rw [coeSegmentheadersize]
    omega
  have hpart : sub32 (c.mb.activembxsize - 6) coeSegmentheadersize = c.mb.activembxsize - 9 := by
    simp only [sub32, coeSegmentheadersize]
    omega
  rw [sdoUploadsegment, wp_bind, wp_coeMb]
  refine wp_claim_idle hidle fun n hn => ?_
  rw [if_neg (Nat.pos_iff_ne_zero.mp hn.1), wp_bind, wp_coeMb, wp_bind, wp_coeModifyMb]
  simp only [show (c.mb.claim n).mbxDsize = c.mb.activembxsize - 6 from hdsize,
    show (c.mb.claim n).frags = size from hup.frags,
    show (c.mb.claim n).fragsleft = done from hup.fragsleft,
    show (c.mb.claim n).data = d.data from hup.data, hsub, hmod, hpart]
  have ht := toggle_cases c.mb.sdoCommand
  have hhead := @Mailbox.overSdo_response _ (coeCommandUploadsegment |||
    (c.mb.sdoCommand &&& coeTogglebit)) ((c.mb.claim n).message n)
    (show 16 ≤ c.mb.activembxsize by omega) c.mb.sdoIndex c.mb.sdoSubindex
  rw [← Mailbox.message_putSdo] at hhead
  by_cases hmore : c.mb.activembxsize - 6 < size - done + 3
  · have hnext : nextUpload c.mb.activembxsize (size - done) = c.mb.activembxsize - 9 :=
      if_pos (by simp only [escMbxhsize, coeSegmentheadersize]; omega)
    have hfits : escMbxhsize + (coeSegmentheadersize + (c.mb.activembxsize - 9)) ≤
        c.mb.activembxsize := by
      simp only [escMbxhsize, coeSegmentheadersize]
      omega
    have hleft : (done + (c.mb.activembxsize - 9)) % 2 ^ 32 = done + (c.mb.activembxsize - 9) :=
      Nat.mod_eq_of_lt (by omega)
    simp only [if_pos hmore]
    rw [hnext, decide_eq_false (by omega)]
    refine wp.mono (moreSegment_replies (m := c.mb) (c := ⟨c.outside, (c.mb.claim n).putSdo n
      coeDefaultlength coeSdoresponse _ _ _, c.mem⟩) hooks hdata
      ⟨hn, rfl, rfl, rfl, rfl⟩ rfl ht hfits
        hroom' (by omega) hhead) fun _ c' h => ?_
    obtain ⟨reply, command, hanswers, hsegment, hmem, htransfer⟩ := h
    refine ⟨reply, command, hanswers, hsegment, hmem, fun _ => ⟨?_, ?_, ?_, ?_⟩⟩
    · exact (congrArg Transfer.segmented htransfer).trans hup.segmented
    · exact (congrArg Transfer.data htransfer).trans hup.data
    · exact (congrArg Transfer.frags htransfer).trans hup.frags
    · rw [← hleft, ← hup.fragsleft]
      exact congrArg Transfer.fragsleft htransfer
  · have hnext : nextUpload c.mb.activembxsize (size - done) = size - done :=
      if_neg (by simp only [escMbxhsize, coeSegmentheadersize]; omega)
    have hfits : escMbxhsize + segmentLength true (size - done) ≤ c.mb.activembxsize := by
      simp only [segmentLength, escMbxhsize, coeSegmentheadersize, coeDefaultlength]
      split <;> omega
    simp only [if_neg hmore]
    rw [hnext, decide_eq_true rfl]
    refine wp.mono (lastSegment_replies (m := c.mb) (c := ⟨c.outside, (c.mb.claim n).putSdo n
      coeDefaultlength coeSdoresponse _ _ _, c.mem⟩) hooks hdata
      ⟨hn, rfl, rfl, rfl, rfl⟩ rfl ht hfits
        hroom' (by omega) hhead) fun _ c' h => ?_
    obtain ⟨reply, command, hanswers, hsegment, hmem⟩ := h
    exact ⟨reply, command, hanswers, hsegment, hmem, fun h => (Nat.lt_irrefl _ h).elim⟩

end segment

end Soes
