import Soes.Properties.SdoRoundTrip

/-!
# When a segmented download succeeds

`SDO_download` accepts a download of `N` bytes and stores as many as its first message carries.
From then on nobody counts: `SDO_downloadsegment` stores each segment behind the one before, and
the segment with the last-segment bit is confirmed and handed to the post-download hook, however
many bytes have come.  The sibling for Complete Access does count, and aborts a transfer that ends
too early.

So the last segment is answered as it should be exactly if the download is complete and the entry
has room for it (`download_complete_iff`): a short or an over-long one is confirmed as well
(`short_download_confirmed`), and so is one that announces more bytes of an entry of flexible length
than it has.
-/

namespace Soes

open Program

variable {σ : Type} {env : CoeEnv σ} {k : ℕ} {c c' : Coe σ} {d : Objd} {N : ℕ} {index : Word}
  {subindex : Byte} {received : List Byte}

/-! ## Calls of the hook -/

/-- A call of the post-download hook, with the variables as it finds them. -/
structure HookCall where
  index : Word
  subindex : Byte
  flags : Word
  bytes : ByteStore

/-- `calls` is a record of the calls of the post-download hook, if one is installed. -/
def Records (cfg : EscCfg σ) (calls : σ → List HookCall) : Prop :=
  ∀ hook, cfg.postObjectDownloadHook = some hook → ∀ o bytes index subindex flags,
    calls (hook o bytes index subindex flags).outside = ⟨index, subindex, flags, bytes⟩ :: calls o

/-! ## A segmented download -/

/-- The inbox holds the first message of a segmented download of `N` bytes to the entry `d`,
and `SDO_download` accepts it. -/
structure StartsDownload (env : CoeEnv σ) (d : Objd) (N : ℕ) (c : Coe σ) : Prop where
  accepted : CoeAccepted env.sys.opts c.mb
  service : c.mb.service = coeSdorequest
  held : c.mb.sdoHeld.active = false
  command : c.mb.sdoCommand &&& 0xe0 = coeCommandDownloadrequest
  single : c.mb.sdoCommand &&& coeCompleteaccess ≠ coeCompleteaccess
  size : c.mb.downloadData.1 = N
  length : coeHeadersize ≤ (c.mb.headerLength 0).toNat
  fits : escMbxhsize + (c.mb.headerLength 0).toNat ≤ c.mb.activembxsize
  more : Continues (c.mb.headerLength 0).toNat N
  accepts : AcceptsDownload env c d

/-- The inbox holds a segment of a download. -/
structure BringsSegment (env : CoeEnv σ) (c : Coe σ) : Prop where
  accepted : CoeAccepted env.sys.opts c.mb
  service : c.mb.service = coeSdorequest
  held : c.mb.sdoHeld.active = false
  command : c.mb.sdoCommand &&& 0xe0 = coeCommandDownloadsegreq
  length : coeSegmentheadersize ≤ (c.mb.headerLength 0).toNat
  fits : escMbxhsize + (c.mb.headerLength 0).toNat ≤ c.mb.activembxsize

/-- The data bytes of the first message of a download. -/
def Mailbox.startData (m : Mailbox) (N : ℕ) : List Byte :=
  m.mbx.bytes m.downloadData.2 (m.firstBytes N)

/-- The data bytes of a segment of a download. -/
def Mailbox.segmentData (m : Mailbox) : List Byte :=
  m.mbx.bytes Mailbox.segmentOffset m.segmentBytes

/-- Between two passes the transfer and the variables stay as they are. -/
structure Resumes (c c' : Coe σ) : Prop where
  transfer : c'.mb.transfer = c.mb.transfer
  size : c'.mb.activembxsize = c.mb.activembxsize
  bytes : c'.mem.bytes = c.mem.bytes

/-- A segmented download under way: its first message and any number of segments, none of them
the last, have been handled, and these bytes have come. -/
inductive DownloadRun (env : CoeEnv σ) (d : Objd) (N : ℕ) (index : Word) (subindex : Byte) :
    List Byte → Coe σ → Prop where
  /-- The first message. -/
  | start {c c' : Coe σ} (starts : StartsDownload env d N c) (hindex : c.mb.sdoIndex = index)
      (hsubindex : c.mb.sdoSubindex = subindex) (pass : PassesTo env c c') :
      DownloadRun env d N index subindex (c.mb.startData N) c'
  /-- A segment. -/
  | segment {c₀ c c' : Coe σ} {received : List Byte}
      (run : DownloadRun env d N index subindex received c₀) (resumes : Resumes c₀ c)
      (brings : BringsSegment env c) (more : ¬ c.mb.LastSegment) (pass : PassesTo env c c') :
      DownloadRun env d N index subindex (received ++ c.mb.segmentData) c'

/-- The state of a segmented download: the bytes that have come are stored from the start of the
entry on, and the next segment will be stored behind them. -/
structure Received (d : Objd) (index : Word) (subindex : Byte) (received : List Byte) (c : Coe σ) :
    Prop where
  data : c.mb.data = d.data + received.length
  flags : c.mb.flags = d.flags
  index : c.mb.index = index
  subindex : c.mb.subindex = subindex
  bytes : c.mem.bytes.bytes d.data received.length = received
  storage : d.data ≠ 0
  single : d.flags ≠ completeAccessFlag
  room : 16 ≤ c.mb.activembxsize

/-! ## The steps -/

lemma Mailbox.downloading_transfer (m : Mailbox) {size : ℕ}
    (h : Continues (m.headerLength 0).toNat size) (index : Word) (subindex : Byte) (d : Objd)
    (n : ℕ) :
    (((m.downloading index subindex d size).claim n).confirmed n index subindex).release.transfer =
      { m.transfer with
        segmented := mbxsed
        data := d.data + m.firstBytes size
        index := index
        subindex := subindex
        flags := d.flags } := by
  rw [downloading, if_pos h]
  rfl

lemma Mailbox.downloading_size (m : Mailbox) (index : Word) (subindex : Byte) (d : Objd)
    (size n : ℕ) :
    (((m.downloading index subindex d size).claim n).confirmed n
      index subindex).release.activembxsize = m.activembxsize := by
  rw [downloading]
  split
  · rfl
  · rfl

/-- The first message stores what it carries, if no string is longer than its entry. -/
lemma StartsDownload.stores (h : StartsDownload env d N c)
    (hpads : d.datatype = dtypeVisibleString → N ≤ d.size) :
    wp env k escCoeprocess (fun _ c' =>
      Received d c.mb.sdoIndex c.mb.sdoSubindex (c.mb.startData N) c') c := by
  obtain ⟨o, ho, hmem⟩ := lookupEntry_found h.accepts.lookup
  have hdata := env.sys.dict.data_ne ho.mem hmem h.accepts.write
  have hsize := h.size
  have hmore := h.more
  have hfits := h.fits
  have hlength := h.length
  refine wp_escCoeprocess_request h.accepted h.service h.held ?_
  rw [sdoRequest_download (by exact h.command) (by exact h.single)]
  have haccepts : AcceptsDownload env { c with mb := c.mb.taken } d :=
    ⟨h.accepts.lookup, h.accepts.write, h.accepts.size, h.accepts.unlocked, h.accepts.hook⟩
  have hroom : d.datatype = dtypeVisibleString → c.mb.taken.downloadData.1 ≤ d.size := by
    rw [← hsize] at hpads
    exact hpads
  refine wp_sdoDownload_accepted haccepts hroom fun writes wrapped => ?_
  refine wp_sdoDownloadAccepted_more (by exact h.accepted.idle) hdata (by exact hlength)
    (by exact hsize ▸ hmore) fun n writes' wrapped' hn => ?_
  have htransfer := c.mb.taken.downloading_transfer hmore c.mb.sdoIndex c.mb.sdoSubindex d n
  have hkept := c.mb.taken.downloading_size c.mb.sdoIndex c.mb.sdoSubindex d N n
  have hlen : (c.mb.startData N).length = c.mb.firstBytes N := ByteStore.length_bytes ..
  rw [show c.mb.taken.downloadData = c.mb.downloadData from rfl, hsize]
  dsimp only
  refine ⟨(congrArg Transfer.data htransfer).trans ?_, congrArg Transfer.flags htransfer,
    congrArg Transfer.index htransfer, congrArg Transfer.subindex htransfer, ?_, hdata,
    writeAccess_flags_ne h.accepts.write, ?_⟩
  · rw [hlen]
    rfl
  · rw [hlen]
    exact ByteStore.bytes_copy ..
  · have hroom : 16 ≤ c.mb.activembxsize := by
      simp only [escMbxhsize, coeHeadersize] at hfits hlength
      omega
    exact hkept.symm ▸ hroom

/-- A string that is longer than its entry is not got through: the zeroes behind it are cleared with
a length that went below zero. -/
lemma StartsDownload.stuck (h : StartsDownload env d N c)
    (hlong : ¬ (d.datatype = dtypeVisibleString → N ≤ d.size)) :
    wlp env k escCoeprocess (fun _ _ => False) c := by
  refine wlp_escCoeprocess_accepted h.accepted ?_
  rw [coeDispatch_request (by exact h.service) (by exact h.held),
    sdoRequest_download (by exact h.command) (by exact h.single)]
  refine sdoDownload_faults fun hinside => hlong fun hstring => ?_
  have hfill := hinside.2 d h.accepts.lookup h.accepts.write hstring
  rw [← h.size]
  exact hfill

/-- The first message of a download is handled unless it announces more bytes of a string than the
entry has. -/
lemma StartsDownload.handled_iff (h : StartsDownload env d N c) :
    (∃ c', PassesTo env c c') ↔ (d.datatype = dtypeVisibleString → N ≤ d.size) := by
  constructor
  · rintro ⟨c', k, hrun⟩
    by_contra hlong
    exact h.stuck hlong _ _ hrun
  · intro hpads
    obtain ⟨_, c', hrun, -⟩ := h.stores (k := 0) hpads
    exact ⟨c', 0, hrun⟩

lemma Received.resumes (h : Received d index subindex received c) (resumes : Resumes c c') :
    Received d index subindex received c' :=
  ⟨(congrArg Transfer.data resumes.transfer).trans h.data,
    (congrArg Transfer.flags resumes.transfer).trans h.flags,
    (congrArg Transfer.index resumes.transfer).trans h.index,
    (congrArg Transfer.subindex resumes.transfer).trans h.subindex, resumes.bytes.symm ▸ h.bytes,
    h.storage, h.single, resumes.size.symm ▸ h.room⟩

/-- The data of a segment lies within its buffer. -/
lemma BringsSegment.inside (h : BringsSegment env c) (hroom : 16 ≤ c.mb.activembxsize) :
    Mailbox.segmentOffset + c.mb.segmentBytes ≤ c.mb.activembxsize := by
  have hlength := h.length
  have hfits := h.fits
  have hlt := (c.mb.headerLength 0).isLt
  simp only [escMbxhsize, coeSegmentheadersize] at hlength hfits
  rw [Mailbox.segmentOffset, Mailbox.segmentBytes, segmentSize, sub32]
  split
  · omega
  · omega

/-- A segment that is not the last one is stored behind what has come. -/
lemma BringsSegment.stores_more (hreceived : Received d index subindex received c)
    (h : BringsSegment env c) (hmore : ¬ c.mb.LastSegment) :
    wp env k escCoeprocess (fun _ c' =>
      Received d index subindex (received ++ c.mb.segmentData) c') c := by
  have hdata := hreceived.data
  have hpos := hreceived.storage
  have hlen : c.mb.segmentData.length = c.mb.segmentBytes := ByteStore.length_bytes ..
  refine wp_escCoeprocess_request h.accepted h.service h.held ?_
  rw [sdoRequest_downloadSegment (by exact h.command)]
  have hne : c.mb.data ≠ 0 := by omega
  have hinside := h.inside hreceived.room
  have hspec : wp env k sdoDownloadsegment _ ⟨c.outside, c.mb.taken, c.mem⟩ :=
    sdoDownloadsegment_more (by exact h.accepted.idle) (by exact hne) (by exact hreceived.room)
      (by exact hinside) (by exact hmore)
  refine hspec.mono fun _ c' ⟨_, ⟨⟨n, hreplied, _⟩, _⟩, _, hbytes, htransfer⟩ => ?_
  have hstored : c'.mem.bytes = c.mem.bytes.copy c.mb.data c.mb.segmentBytes c.mb.mbx
    Mailbox.segmentOffset := hbytes
  refine ⟨(congrArg Transfer.data htransfer).trans ?_,
    (congrArg Transfer.flags htransfer).trans hreceived.flags,
    (congrArg Transfer.index htransfer).trans hreceived.index,
    (congrArg Transfer.subindex htransfer).trans hreceived.subindex, ?_, hreceived.storage,
    hreceived.single, hreplied.size.symm ▸ hreceived.room⟩
  · rw [List.length_append, hlen, ← Nat.add_assoc, ← hdata]
    rfl
  · rw [List.length_append, ByteStore.bytes_add, ← hdata, hlen, hstored, ByteStore.bytes_copy,
      ByteStore.bytes_copy_of_outside (by omega), hreceived.bytes]
    rfl

/-- The bytes that have come are stored in order from the start of the entry on, however many
segments they come in. -/
lemma DownloadRun.stored (run : DownloadRun env d N index subindex received c) :
    Received d index subindex received c := by
  induction run with
  | start starts hindex hsubindex pass =>
      have h := pass.of_wp fun _ => starts.stores (starts.handled_iff.mp ⟨_, pass⟩)
      rw [hindex, hsubindex] at h
      exact h
  | segment run resumes brings more pass ih =>
      exact pass.of_wp fun _ => BringsSegment.stores_more (ih.resumes resumes) brings more

/-! ## The last segment -/

/-- The value is handed over: the post-download hook is called with the value in place, and
unless it refuses, the segment is confirmed. -/
def HandsOver (env : CoeEnv σ) (calls : σ → List HookCall) (d : Objd) (index : Word)
    (subindex : Byte) (value : List Byte) (c c' : Coe σ) : Prop :=
  ∃ bytes a n, bytes.bytes d.data value.length = value ∧
    a = postDownload env.sys.cfg c.outside bytes index subindex d.flags ∧
    (env.sys.cfg.postObjectDownloadHook.isSome →
      calls c'.outside = ⟨index, subindex, d.flags, bytes⟩ :: calls c.outside) ∧
    c'.mem.bytes = a.bytes ∧ c.mb.Replied env.sys.opts c'.mb n ∧
    (a.code = 0 →
      SdoResponse (c'.mb.message n) c.mb.activembxsize c.mb.segmentConfirmed) ∧
    (a.code ≠ 0 → c'.mb.message n 8 = coeCommandSdoabort)

/-- The download is refused: an SDO abort is answered, and the hook is not called. -/
def Refuses (env : CoeEnv σ) (calls : σ → List HookCall) (c c' : Coe σ) : Prop :=
  (∃ n, c.mb.Replied env.sys.opts c'.mb n ∧ c'.mb.message n 8 = coeCommandSdoabort) ∧
    calls c'.outside = calls c.outside

/-- The download succeeds exactly when it is complete, and the entry has as many bytes. -/
def SucceedsWhenComplete (env : CoeEnv σ) (calls : σ → List HookCall) (d : Objd) (N : ℕ)
    (index : Word) (subindex : Byte) (value : List Byte) (c c' : Coe σ) : Prop :=
  (value.length = N → N ≤ d.size ∧ HandsOver env calls d index subindex value c c') ∧
    (value.length ≠ N → Refuses env calls c c')

/-- A value that was handed over was not refused. -/
lemma HandsOver.not_refuses {calls : σ → List HookCall} {value : List Byte}
    (h : HandsOver env calls d index subindex value c c') : ¬ Refuses env calls c c' := by
  rintro ⟨⟨n', hreplied', habort⟩, hcalls⟩
  obtain ⟨bytes, a, n, -, ha, hcalled, -, hreplied, hconfirmed, -⟩ := h
  cases hhook : env.sys.cfg.postObjectDownloadHook with
  | some hook =>
      have hcons := hcalled (by rw [hhook]; rfl)
      rw [hcalls] at hcons
      exact List.cons_ne_self _ _ hcons.symm
  | none =>
      have hcode : a.code = 0 := by rw [ha, postDownload, hhook]
      have hcommand := (hconfirmed hcode).command
      have hne : ∀ b : Byte, coeCommandDownloadsegresp ||| (b &&& coeTogglebit) ≠
          coeCommandSdoabort := by decide
      rw [hreplied.unique hreplied', habort] at hcommand
      exact hne _ hcommand.symm

/-- The last segment hands over what has come, whatever was announced. -/
lemma BringsSegment.hands_over {calls : σ → List HookCall} (records : Records env.sys.cfg calls)
    (hreceived : Received d index subindex received c) (h : BringsSegment env c)
    (hlast : c.mb.LastSegment) :
    wp env k escCoeprocess (fun _ c' =>
      HandsOver env calls d index subindex (received ++ c.mb.segmentData) c c') c := by
  have hdata := hreceived.data
  have hpos := hreceived.storage
  have hsingle := hreceived.single
  have hlen : c.mb.segmentData.length = c.mb.segmentBytes := ByteStore.length_bytes ..
  refine wp_escCoeprocess_request h.accepted h.service h.held ?_
  rw [sdoRequest_downloadSegment (by exact h.command)]
  have hne : c.mb.data ≠ 0 := by omega
  have hinside := h.inside hreceived.room
  have hflags : c.mb.flags ≠ completeAccessFlag := hreceived.flags ▸ hsingle
  have hspec : wp env k sdoDownloadsegment _ ⟨c.outside, c.mb.taken, c.mem⟩ :=
    sdoDownloadsegment_last (by exact h.accepted.idle) (by exact hne) (by exact hreceived.room)
      (by exact hinside) (by exact hflags) (by exact hlast) rfl
  refine hspec.mono fun _ c' ⟨n, hreplied, houtside, hbytes, hconfirmed, hrefused⟩ => ?_
  have hindex : c.mb.taken.index = index := hreceived.index
  have hsubindex : c.mb.taken.subindex = subindex := hreceived.subindex
  have hflags : c.mb.taken.flags = d.flags := hreceived.flags
  dsimp only at houtside hbytes hconfirmed hrefused
  rw [hindex, hsubindex, hflags] at houtside hbytes hconfirmed hrefused
  generalize hstored : segmentStored (⟨c.outside, c.mb.taken, c.mem⟩ : Coe σ) = stored at *
  refine ⟨stored, _, n, ?_, rfl, fun hhook => ?_, hbytes,
    ⟨hreplied.idle, hreplied.control, hreplied.xoe, hreplied.txcue, hreplied.held, hreplied.size⟩,
    hconfirmed, hrefused⟩
  · have hcopy : stored = c.mem.bytes.copy c.mb.data c.mb.segmentBytes c.mb.mbx
        Mailbox.segmentOffset := hstored.symm
    rw [List.length_append, ByteStore.bytes_add, ← hdata, hlen, hcopy, ByteStore.bytes_copy,
      ByteStore.bytes_copy_of_outside (by omega), hreceived.bytes]
    rfl
  · obtain ⟨hook, hsome⟩ := Option.isSome_iff_exists.mp hhook
    rw [houtside, postDownload, hsome]
    exact records hook hsome _ _ _ _ _

/-- The last segment hands over what has come, so it is answered as it should be if all has come and
the entry has the room. -/
lemma BringsSegment.succeeds_iff {calls : σ → List HookCall} (records : Records env.sys.cfg calls)
    (hreceived : Received d index subindex received c) (brings : BringsSegment env c)
    (last : c.mb.LastSegment) :
    ∃ c', PassesTo env c c' ∧
      (SucceedsWhenComplete env calls d N index subindex (received ++ c.mb.segmentData) c c' ↔
        N ≤ d.size ∧ (received ++ c.mb.segmentData).length = N) := by
  obtain ⟨_, c', hrun, handed⟩ := brings.hands_over (k := 0) records hreceived last
  refine ⟨c', ⟨0, hrun⟩, fun hsucceeds => ?_, fun hcomplete => ?_⟩
  · have hall : (received ++ c.mb.segmentData).length = N := by
      by_contra hne
      exact handed.not_refuses (hsucceeds.2 hne)
    exact ⟨(hsucceeds.1 hall).1, hall⟩
  · obtain ⟨hroom, hall⟩ := hcomplete
    exact ⟨fun _ => ⟨hroom, handed⟩, fun hne => (hne hall).elim⟩

/-- **A segmented download is answered as it should be exactly if it is complete**, that is, if as
many bytes have come as were announced, and the entry has as many; and its first message is handled
exactly if it announces no more bytes of a string than the entry has. -/
theorem download_complete_iff {calls : σ → List HookCall} (records : Records env.sys.cfg calls) :
    (∀ c, StartsDownload env d N c →
      ((∃ c', PassesTo env c c') ↔ (d.datatype = dtypeVisibleString → N ≤ d.size))) ∧
    ∀ received c₀ c, DownloadRun env d N index subindex received c₀ → Resumes c₀ c →
      BringsSegment env c → c.mb.LastSegment →
        ∃ c', PassesTo env c c' ∧
          (SucceedsWhenComplete env calls d N index subindex (received ++ c.mb.segmentData) c c' ↔
            N ≤ d.size ∧ (received ++ c.mb.segmentData).length = N) :=
  ⟨fun _ starts => starts.handled_iff, fun _ _ _ run resumes brings last =>
    brings.succeeds_iff records (run.stored.resumes resumes) last⟩

/-! ## A short download -/

/-- A configuration whose only hook records the downloads that are handed over. -/
def recordingCfg : EscCfg (List HookCall) where
  useInterrupt := true
  watchdogCnt := 100
  useHwWatchdog := false
  skipDefaultInitialization := true
  setDefaultsHook := none
  preStateChangeHook := none
  postStateChangeHook := none
  applicationHook := none
  safeStateOverride := none
  preObjectDownloadHook := none
  postObjectDownloadHook := some fun calls bytes index subindex flags =>
    ⟨0, ⟨index, subindex, flags, bytes⟩ :: calls, bytes⟩
  preObjectUploadHook := none
  postObjectUploadHook := none
  rxpdoOverride := none
  txpdoOverride := none
  cbApplyRxpdo o bytes event := ⟨o, bytes, event⟩
  cbUpdateTxpdo o bytes event := ⟨o, bytes, event⟩
  escHwInterruptEnable := none
  escHwInterruptDisable := none
  escHwEepHandler := none
  escCheckDcHandler := none
  getDeviceId := none
  escHwWait := none

lemma recordingCfg_records : Records recordingCfg id := by
  intro hook hhook o bytes index subindex flags
  rw [← Option.some.inj hhook]
  rfl

/-- An entry of eight bytes. -/
def longEntry : Objd :=
  { subindex := 0, datatype := dtypeVisibleString, bitlength := 64, flags := 0x3f, name := []
    value := 0, data := 0x200 }

/-- A dictionary with this entry alone. -/
def longDictionary : Dictionary where
  objects := [{ index := 0x7010, objtype := otypeVar, maxsub := 0, name := []
                objdesc := [longEntry] }]
  ascending := by decide
  below_sentinel := by decide
  storage := by decide +kernel

/-- A device in PREOP with the entry and the recording hook, on a bus that is not used. -/
def recordingDevice : CoeEnv (List HookCall) where
  sys :=
    { opts := exampleOptions
      cfg := recordingCfg
      dict := longDictionary
      hal :=
        { init := fun o event => (o, event, true)
          read := fun o event _ _ => ⟨fun _ => 0, event, o⟩
          write := fun o event _ _ _ => ⟨fun _ => 0, event, o⟩ }
      mbxdata := 0x1000
      mbxdata_ne := exampleMbxdata_ne }
  alStatus := 2

/-- A download of eight bytes is announced, and none is sent along. -/
def announcement : Coe (List HookCall) :=
  ⟨[], exampleMailbox (sdoMessage 0x21 0x7010 0 [8, 0, 0, 0]), ⟨fun _ => 0, [], false⟩⟩

lemma announcement_starts : StartsDownload recordingDevice longEntry 8 announcement := by
  constructor
  case accepted =>
    exact ⟨rfl, rfl, rfl, by decide, by decide, ⟨1, by decide, by decide, rfl⟩, by decide⟩
  case accepts =>
    exact ⟨rfl, by decide, by decide, fun h => absurd h.1 (by decide), by decide⟩
  all_goals decide

/-- The message of a last segment. -/
def lastSegment (data : List Byte) : List Byte :=
  [.ofNat 8 (max coeHeadersize (coeSegmentheadersize + data.length)), 0, 0, 0, 0, mbxcoe, 0, 0x20,
    0x01 ||| .ofNat 8 ((7 - data.length) * 2)] ++ data

/-- The next message arrives. -/
def Coe.receives (c : Coe (List HookCall)) (message : List Byte) : Coe (List HookCall) :=
  { c with mb := { exampleMailbox message with
      segmented := c.mb.segmented
      data := c.mb.data
      frags := c.mb.frags
      fragsleft := c.mb.fragsleft
      index := c.mb.index
      subindex := c.mb.subindex
      flags := c.mb.flags } }

/-- The announcement is confirmed, and the download is under way. -/
lemma announcement_run : ∃ c, DownloadRun recordingDevice longEntry 8 0x7010 0 [] c ∧
    c.mb.activembxsize = exampleOptions.mbxSize := by
  obtain ⟨_, c, hrun, -⟩ := announcement_starts.stores (k := 0) fun _ => by decide
  have hseen : (escCoeprocess recordingDevice 0 announcement).seen
      (fun c => c.mb.activembxsize) = some exampleOptions.mbxSize := by decide +kernel
  rw [hrun] at hseen
  exact ⟨c, .start announcement_starts rfl rfl ⟨0, hrun⟩, Option.some.inj hseen⟩

lemma Coe.receives_resumes {c : Coe (List HookCall)} (message : List Byte)
    (hsize : c.mb.activembxsize = exampleOptions.mbxSize) : Resumes c (c.receives message) :=
  ⟨rfl, hsize.symm, rfl⟩

/-- Whether a message is a segment does not depend on the transfer. -/
lemma Coe.receives_brings (c : Coe (List HookCall)) {message : List Byte}
    (h : BringsSegment recordingDevice ⟨[], exampleMailbox message, ⟨fun _ => 0, [], false⟩⟩) :
    BringsSegment recordingDevice (c.receives message) :=
  ⟨⟨rfl, rfl, rfl, h.accepted.coe, h.accepted.length, h.accepted.idle, h.accepted.room⟩,
    h.service, h.held, h.command, h.length, h.fits⟩

/-- All eight bytes in one segment: the download is complete. -/
theorem download_complete_example : ∃ c c', PassesTo recordingDevice c c' ∧
    SucceedsWhenComplete recordingDevice id longEntry 8 0x7010 0 [1, 2, 3, 4, 5, 6, 7, 8] c c' := by
  obtain ⟨c₀, run, hsize⟩ := announcement_run
  have brings : BringsSegment recordingDevice
      (c₀.receives (lastSegment [1, 2, 3, 4, 5, 6, 7, 8])) := by
    refine c₀.receives_brings ⟨⟨rfl, rfl, rfl, ?_, ?_, ⟨1, ?_, ?_, rfl⟩, ?_⟩, ?_, rfl, ?_, ?_, ?_⟩
    all_goals decide
  have last : (c₀.receives (lastSegment [1, 2, 3, 4, 5, 6, 7, 8])).mb.LastSegment :=
    show (exampleMailbox (lastSegment [1, 2, 3, 4, 5, 6, 7, 8])).LastSegment by decide
  have resumes := Coe.receives_resumes (lastSegment [1, 2, 3, 4, 5, 6, 7, 8]) hsize
  have hdata : (c₀.receives (lastSegment [1, 2, 3, 4, 5, 6, 7, 8])).mb.segmentData =
      [1, 2, 3, 4, 5, 6, 7, 8] :=
    show (exampleMailbox (lastSegment [1, 2, 3, 4, 5, 6, 7, 8])).segmentData = _ by decide
  obtain ⟨c', pass, hiff⟩ :=
    (download_complete_iff recordingCfg_records).2 [] c₀ _ run resumes brings last
  rw [hdata, List.nil_append] at hiff
  exact ⟨_, c', pass, hiff.mpr ⟨by decide, rfl⟩⟩

/-- A short download is confirmed: three bytes come where eight were announced, and the hook is
called. -/
theorem short_download_confirmed : ¬ ∀ (env : CoeEnv (List HookCall))
    (calls : List HookCall → List HookCall) (d : Objd) (N : ℕ) (index : Word) (subindex : Byte)
    (received : List Byte) (c₀ c c' : Coe (List HookCall)), Records env.sys.cfg calls →
    DownloadRun env d N index subindex received c₀ → Resumes c₀ c → BringsSegment env c →
    c.mb.LastSegment → PassesTo env c c' →
    SucceedsWhenComplete env calls d N index subindex (received ++ c.mb.segmentData) c c' := by
  intro h
  obtain ⟨c₀, run, hsize⟩ := announcement_run
  have brings : BringsSegment recordingDevice (c₀.receives (lastSegment [1, 2, 3])) := by
    refine c₀.receives_brings ⟨⟨rfl, rfl, rfl, ?_, ?_, ⟨1, ?_, ?_, rfl⟩, ?_⟩, ?_, rfl, ?_, ?_, ?_⟩
    all_goals decide
  have last : (c₀.receives (lastSegment [1, 2, 3])).mb.LastSegment :=
    show (exampleMailbox (lastSegment [1, 2, 3])).LastSegment by decide
  have resumes := Coe.receives_resumes (lastSegment [1, 2, 3]) hsize
  obtain ⟨_, c', hrun, handed⟩ :=
    brings.hands_over (k := 0) recordingCfg_records (run.stored.resumes resumes) last
  have hsucceeds := h recordingDevice id longEntry 8 0x7010 0 [] c₀ _ c' recordingCfg_records run
    resumes brings last ⟨0, hrun⟩
  have hdata : (c₀.receives (lastSegment [1, 2, 3])).mb.segmentData = [1, 2, 3] :=
    show (exampleMailbox (lastSegment [1, 2, 3])).segmentData = _ by decide
  rw [hdata, List.nil_append] at hsucceeds handed
  exact handed.not_refuses (hsucceeds.2 (by decide))

end Soes
