import Soes.Properties.SdoReplies

/-!
# A value written is the value read

A master sends a value as an expedited, normal or segmented download (`Sends`), and uploads it with
as many requests for segments as the replies ask for (`Uploads`).  The two directions split the
value at different points: a download by the lengths the master chooses, an upload by the size of
the mailboxes.  `sdo_round_trip` says that they agree at every length, that every reply confirms,
and that nothing but the value's own bytes changes, provided the entry is not a subindex of a PDO
that is locked (`PdoLocked`); `locked_download` is such a download, and it is refused.

One request and its reply are an `Exchange`.  Between two of them the mailbox protocol posts the
reply and reads the next request, and whatever it does leaves the transfer (`Mailbox.Arrives`).
-/

namespace Soes

open Program

variable {σ : Type} {env : CoeEnv σ} {k : ℕ} {c : Coe σ} {m m' : Mailbox} {r : SdoRequest}

/-! ## One request -/

/-- The next request has arrived: `m` are the mailboxes after the last request, and `m'` those
with the next one in the inbox. -/
structure Mailbox.Arrives (opts : Options) (m m' : Mailbox) (r : SdoRequest) : Prop where
  asks : m'.Asks r
  run : m'.mbxRun = true
  xoe : m'.xoe = 0
  inclaim : m'.control 0 = .inclaim
  idle : m'.ReplyIdle opts
  held : m'.sdoHeld.active = false
  size : m'.activembxsize = m.activembxsize
  transfer : m'.transfer = m.transfer

/-- One request and its reply, in whatever way the request arrives: `Q` holds of the reply, its
command, and the mailboxes and variables afterwards. -/
def Exchange (env : CoeEnv σ) (m : Mailbox) (bytes : ByteStore) (r : SdoRequest)
    (Q : ByteStore → Byte → Mailbox → ByteStore → Prop) : Prop :=
  ∀ o m' mem k, m.Arrives env.sys.opts m' r → mem.bytes = bytes →
    wp env k escCoeprocess (fun _ c' => ∃ reply command,
      m'.Answers env.sys.opts c'.mb command reply ∧ Q reply command c'.mb c'.mem.bytes) ⟨o, m', mem⟩

lemma SdoRequest.coeHeadersize_le_length (r : SdoRequest) : coeHeadersize ≤ r.length := by
  cases r with
  | normal _ _ _ first => exact Nat.le_add_right _ _
  | segment _ _ data => exact Nat.le_max_left _ _
  | expedited | upload | uploadSegment => exact Nat.le_refl _

/-- A request that arrives is accepted. -/
lemma Mailbox.Arrives.accepted {opts : Options} (h : m.Arrives opts m' r)
    (hroom : escMbxhsize + coeHeadersize ≤ m.activembxsize) : CoeAccepted opts m' := by
  refine ⟨h.run, h.xoe, h.inclaim, h.asks.coe, ?_, h.idle, h.size ▸ hroom⟩
  rw [h.asks.length]
  exact Nat.le_trans (by decide) r.coeHeadersize_le_length

/-- Taking the message changes nothing that an answer is compared with. -/
lemma Mailbox.Answers.of_taken {opts : Options} {command : Byte} {reply : ByteStore}
    (h : m.taken.Answers opts m' command reply) : m.Answers opts m' command reply := by
  obtain ⟨⟨n, hreplied, hreply⟩, hresponse⟩ := h
  exact ⟨⟨n, ⟨hreplied.idle, hreplied.control, hreplied.xoe, hreplied.txcue, hreplied.held,
    hreplied.size⟩, hreply⟩, hresponse⟩

/-- An exchange is what the dispatched function does. -/
lemma exchange_of_request {bytes : ByteStore} {Q : ByteStore → Byte → Mailbox → ByteStore → Prop}
    (hroom : escMbxhsize + coeHeadersize ≤ m.activembxsize)
    (hrequest : ∀ o m' mem k, m.Arrives env.sys.opts m' r → mem.bytes = bytes →
      wp env k (sdoRequest m'.taken) (fun _ c' => ∃ reply command,
        m'.taken.Answers env.sys.opts c'.mb command reply ∧ Q reply command c'.mb c'.mem.bytes)
        ⟨o, m'.taken, mem⟩) :
    Exchange env m bytes r Q := by
  intro o m' mem k h hmem
  refine wp_escCoeprocess_accepted (h.accepted hroom) ?_
  have hservice : m'.taken.service = coeSdorequest := h.asks.service
  have hheld : ¬ (m'.taken.service = coeSdorequest ∧ m'.taken.sdoHeld.active = true) := fun hall =>
    Bool.false_ne_true (h.held.symm.trans hall.2)
  rw [coeDispatch, if_neg hheld, if_pos hservice]
  refine (hrequest o m' mem k h hmem).mono fun _ c' hthen => ?_
  obtain ⟨reply, command, hanswers, hQ⟩ := hthen
  exact ⟨reply, command, hanswers.of_taken, hQ⟩

/-! ## Between two requests -/

/-- The transfer in progress, the list that is being sent, a held reply and the variables are left
alone. -/
structure SameTransfer (w w' : World σ) : Prop where
  transfer : w'.mb.transfer = w.mb.transfer
  size : w'.mb.activembxsize = w.mb.activembxsize
  list : (w'.mb.xoe, w'.mb.entries, w'.mb.activemb1) = (w.mb.xoe, w.mb.entries, w.mb.activemb1)
  held : w'.mb.sdoHeld = w.mb.sdoHeld
  mem : w'.mem = w.mem

instance : Std.Refl (SameTransfer (σ := σ)) := ⟨fun _ => ⟨rfl, rfl, rfl, rfl, rfl⟩⟩

instance : IsTrans (World σ) SameTransfer :=
  ⟨fun _ _ _ h h' => ⟨h'.transfer.trans h.transfer, h'.size.trans h.size, h'.list.trans h.list,
    h'.held.trans h.held, h'.mem.trans h.mem⟩⟩

/-- The code leaves the transfer in progress alone. -/
abbrev KeepsTransfer {α : Type} (m : Stack σ α) : Prop := Keeps SameTransfer m

lemma onBus_keepsTransfer {α : Type} (m : OnBus σ α) : KeepsTransfer (onBus m) :=
  .within (fun _ _ => ⟨rfl, rfl, rfl, rfl, rfl⟩) _ m

lemma modify_keepsTransfer {f : World σ → World σ} (hf : ∀ w, SameTransfer w (f w)) :
    KeepsTransfer (modify f) := .modify hf

lemma mbxError_keepsTransfer (error : Word) :
    KeepsTransfer (σ := σ) (onMailbox (mbxError error)) := by
  intro sys n w
  rw [wlp_within, mbxError, wlp_bind]
  have hclaim : wlp sys.opts n escClaimbuffer (fun _ m' => m'.transfer = w.mb.transfer ∧
      m'.activembxsize = w.mb.activembxsize ∧
      (m'.xoe, m'.entries, m'.activemb1) = (w.mb.xoe, w.mb.entries, w.mb.activemb1) ∧
      m'.sdoHeld = w.mb.sdoHeld) w.mb := by
    rw [escClaimbuffer, wlp_ask_bind, wlp_get_bind]
    refine wlp.bind (.when (fun _ => (wlp_modify _ _).mpr ?_)
      fun _ => ⟨rfl, rfl, rfl, rfl⟩) fun _ _ h => (wlp_pure _ _).mpr h
    exact ⟨rfl, rfl, rfl, rfl⟩
  refine hclaim.mono fun n m' h => .when (fun _ => (wlp_modify _ _).mpr ?_) fun _ => ?_
  · exact ⟨h.1, h.2.1, h.2.2.1, h.2.2.2, rfl⟩
  · exact ⟨h.1, h.2.1, h.2.2.1, h.2.2.2, rfl⟩

lemma escReadmbx_keepsTransfer : KeepsTransfer (σ := σ) escReadmbx :=
  .get_bind fun _ => (onBus_keepsTransfer _).bind fun _ =>
    .bind (modify_keepsTransfer fun _ => ⟨rfl, rfl, rfl, rfl, rfl⟩) fun _ =>
      (onBus_keepsTransfer _).bind fun _ =>
        .bind (modify_keepsTransfer fun _ => ⟨rfl, rfl, rfl, rfl, rfl⟩) fun _ =>
          (Keeps.when ((onBus_keepsTransfer _).bind fun _ => .pure _)).bind fun _ =>
            modify_keepsTransfer fun _ => ⟨rfl, rfl, rfl, rfl, rfl⟩

lemma escWritembx_keepsTransfer (n : ℕ) : KeepsTransfer (σ := σ) (escWritembx n) :=
  .get_bind fun _ => (onBus_keepsTransfer _).bind fun _ =>
    (Keeps.when (onBus_keepsTransfer _)).bind fun _ =>
      modify_keepsTransfer fun _ => ⟨rfl, rfl, rfl, rfl, rfl⟩

lemma mbxOutboxRead_keepsTransfer : KeepsTransfer (σ := σ) mbxOutboxRead := by
  refine .bind (.get_bind fun _ => (onBus_keepsTransfer _).bind fun _ =>
    modify_keepsTransfer fun _ => ⟨rfl, rfl, rfl, rfl, rfl⟩) fun _ =>
      .bind (modify_keepsTransfer fun w => ?_) fun _ => .get_bind fun _ =>
        (Keeps.when (escWritembx_keepsTransfer _)).bind fun _ =>
          .bind (modify_keepsTransfer fun _ => ⟨rfl, rfl, rfl, rfl, rfl⟩) fun _ =>
            .get_bind fun _ => .pure _
  split
  · exact ⟨rfl, rfl, rfl, rfl, rfl⟩
  · exact ⟨rfl, rfl, rfl, rfl, rfl⟩

lemma mbxRepeat_keepsTransfer : KeepsTransfer (σ := σ) mbxRepeat := by
  have ack : KeepsTransfer (σ := σ) ackRepeat :=
    .get_bind fun _ => .bind (modify_keepsTransfer fun _ => ⟨rfl, rfl, rfl, rfl, rfl⟩) fun _ =>
      (onBus_keepsTransfer _).bind fun _ => onBus_keepsTransfer _
  refine .get_bind fun _ => (Keeps.when (.ite ?_ ?_)).bind fun _ => .pure _
  · exact (escWritembx_keepsTransfer _).bind fun _ => ack
  · exact (onBus_keepsTransfer _).bind fun _ =>
      .bind (modify_keepsTransfer fun _ => ⟨rfl, rfl, rfl, rfl, rfl⟩) fun _ =>
        (onBus_keepsTransfer _).bind fun _ => (escWritembx_keepsTransfer _).bind fun _ => ack

lemma mbxPost_keepsTransfer : KeepsTransfer (σ := σ) mbxPost :=
  .get_bind fun _ => .when (.ask_bind fun _ => .when ((escWritembx_keepsTransfer _).bind fun _ =>
    (onBus_keepsTransfer _).bind fun _ => modify_keepsTransfer fun _ => ⟨rfl, rfl, rfl, rfl, rfl⟩))

lemma mbxReceive_keepsTransfer : KeepsTransfer (σ := σ) mbxReceive := by
  refine .get_bind fun _ => .ite (escReadmbx_keepsTransfer.bind fun _ =>
    (onBus_keepsTransfer _).bind fun _ => .get_bind fun _ =>
      .bind (.when ((mbxError_keepsTransfer _).bind fun _ =>
        modify_keepsTransfer fun _ => ⟨rfl, rfl, rfl, rfl, rfl⟩)) fun _ =>
          .bind (modify_keepsTransfer fun w => ?_) fun _ => .pure _) (.pure _)
  dsimp only
  split
  · exact ⟨rfl, rfl, rfl, rfl, rfl⟩
  · exact ⟨rfl, rfl, rfl, rfl, rfl⟩

/-- `ESC_mbxprocess` leaves the transfer, the list, a held reply and the variables: this is what
`Mailbox.Arrives` says of what happens between two requests, and `ListResumes` of what happens
between two parts of the list. -/
theorem escMbxprocess_keepsTransfer : KeepsTransfer (σ := σ) escMbxprocess :=
  .get_bind fun _ => .ite (.pure _) (.get_bind fun _ =>
    (Keeps.when ((onBus_keepsTransfer _).bind fun _ => onBus_keepsTransfer _)).bind fun _ =>
      .get_bind fun _ => .ite mbxOutboxRead_keepsTransfer (.ite mbxRepeat_keepsTransfer
        (mbxPost_keepsTransfer.bind fun _ => mbxReceive_keepsTransfer)))

/-! ## The service that is asked for -/

lemma coeDispatch_request {m : Mailbox} (hservice : m.service = coeSdorequest)
    (hheld : m.sdoHeld.active = false) : coeDispatch (σ := σ) m = sdoRequest m := by
  have hnot : ¬ (m.service = coeSdorequest ∧ m.sdoHeld.active = true) :=
    fun hall => Bool.false_ne_true (hheld.symm.trans hall.2)
  rw [coeDispatch, if_neg hnot, if_pos hservice]

/-- An SDO request that is taken is dispatched by its command. -/
lemma wp_escCoeprocess_request (h : CoeAccepted env.sys.opts c.mb)
    (hservice : c.mb.service = coeSdorequest) (hheld : c.mb.sdoHeld.active = false)
    {Q : Unit → Coe σ → Prop}
    (hQ : wp env k (sdoRequest c.mb.taken) Q { c with mb := c.mb.taken }) :
    wp env k escCoeprocess Q c := by
  refine wp_escCoeprocess_accepted h ?_
  rw [coeDispatch_request (by exact hservice) (by exact hheld)]
  exact hQ

lemma sdoRequest_upload (hcommand : m.sdoCommand = coeCommandUploadrequest)
    (hlength : (m.headerLength 0).toNat = coeHeadersize) :
    sdoRequest (σ := σ) m = sdoUpload := by
  have hwhole : m.headerLength 0 = .ofNat 16 coeHeadersize := BitVec.eq_of_toNat_eq hlength
  simp only [sdoRequest, hcommand, hwhole]
  rfl

lemma sdoRequest_uploadComplete (hcommand : m.sdoCommand &&& 0xe0 = coeCommandUploadrequest)
    (hcomplete : m.sdoCommand &&& coeCompleteaccess = coeCompleteaccess)
    (hlength : (m.headerLength 0).toNat = coeHeadersize) :
    sdoRequest (σ := σ) m = sdoUploadCompleteAccess := by
  have hwhole : m.headerLength 0 = .ofNat 16 coeHeadersize := BitVec.eq_of_toNat_eq hlength
  rw [sdoRequest, if_pos ⟨hcommand, hwhole⟩, if_pos hcomplete]

lemma sdoRequest_uploadSegment (hcommand : m.sdoCommand &&& 0xef = coeCommandUploadsegreq)
    (hlength : (m.headerLength 0).toNat = coeHeadersize) (hsegmented : m.segmented = mbxseu) :
    sdoRequest (σ := σ) m = sdoUploadsegment := by
  have hwhole : m.headerLength 0 = .ofNat 16 coeHeadersize := BitVec.eq_of_toNat_eq hlength
  have hnot : ∀ b : Byte, b &&& 0xef = coeCommandUploadsegreq →
      ¬ b &&& 0xe0 = coeCommandUploadrequest := by decide
  rw [sdoRequest, if_neg (fun h => hnot _ hcommand h.1), if_pos ⟨hcommand, hwhole, hsegmented⟩]

lemma sdoRequest_download (hcommand : m.sdoCommand &&& 0xe0 = coeCommandDownloadrequest)
    (hsingle : m.sdoCommand &&& coeCompleteaccess ≠ coeCompleteaccess) :
    sdoRequest (σ := σ) m = sdoDownload := by
  have hupload : ∀ b : Byte, b &&& 0xe0 = coeCommandDownloadrequest →
      ¬ b &&& 0xe0 = coeCommandUploadrequest := by decide
  have hsegment : ∀ b : Byte, b &&& 0xe0 = coeCommandDownloadrequest →
      ¬ b &&& 0xef = coeCommandUploadsegreq := by decide
  rw [sdoRequest, if_neg (fun h => hupload _ hcommand h.1),
    if_neg (fun h => hsegment _ hcommand h.1),
    if_pos hcommand, if_neg hsingle]

lemma sdoRequest_downloadSegment (hcommand : m.sdoCommand &&& 0xe0 = coeCommandDownloadsegreq) :
    sdoRequest (σ := σ) m = sdoDownloadsegment := by
  have hupload : ∀ b : Byte, b &&& 0xe0 = coeCommandDownloadsegreq →
      ¬ b &&& 0xe0 = coeCommandUploadrequest := by decide
  have hsegment : ∀ b : Byte, b &&& 0xe0 = coeCommandDownloadsegreq →
      ¬ b &&& 0xef = coeCommandUploadsegreq := by decide
  have hdownload : ∀ b : Byte, b &&& 0xe0 = coeCommandDownloadsegreq →
      ¬ b &&& 0xe0 = coeCommandDownloadrequest := by decide
  rw [sdoRequest, if_neg (fun h => hupload _ hcommand h.1),
    if_neg (fun h => hsegment _ hcommand h.1),
    if_neg (hdownload _ hcommand), if_pos hcommand]

/-! ## Download -/

namespace SdoRequest

/-- A request that starts a download of an entry, with the bytes it carries. -/
def Starts (index : Word) (subindex : Byte) (size : ℕ) (first : List Byte) :
    SdoRequest → Prop
  | expedited i s value =>
      i = index ∧ s = subindex ∧ value = first ∧ first.length = size ∧ 0 < size ∧ size ≤ 4
  | normal i s n value => i = index ∧ s = subindex ∧ n = size ∧ value = first
  | _ => False

/-- The reply that confirms a request of a download. -/
def Confirms (reply : ByteStore) (command : Byte) : SdoRequest → Prop
  | expedited index subindex _ | normal index subindex _ _ =>
      command = coeCommandDownloadresponse ∧ Names reply index subindex
  | segment toggle _ _ => command = coeCommandDownloadsegresp ||| toggleBit toggle
  | _ => False

end SdoRequest

/-- The command of an expedited download tells its size. -/
lemma expedited_command {count : ℕ} (hpos : 0 < count) (hle : count ≤ 4) :
    let command : Byte := coeCommandDownloadrequest ||| coeExpeditedIndicator |||
      coeSizeIndicator ||| .ofNat 8 ((4 - count) * 4)
    command &&& 0xe0 = coeCommandDownloadrequest ∧
      command &&& coeCompleteaccess ≠ coeCompleteaccess ∧
      command &&& coeExpeditedIndicator ≠ 0 ∧ 4 - (command &&& 0x0c).toNat / 4 = count := by
  match count, hpos, hle with
  | 1, _, _ | 2, _, _ | 3, _, _ | 4, _, _ => decide

/-- What `SDO_download` makes of the message that starts a download. -/
lemma Mailbox.Asks.starts {index : Word} {subindex : Byte} {size : ℕ} {first : List Byte}
    (h : m.Asks r) (hr : r.Starts index subindex size first) (hlt : size < 2 ^ 16)
    (hfirst : first.length < size → 4 < size) (hle : first.length ≤ size) :
    sdoRequest (σ := σ) m.taken = sdoDownload ∧ m.sdoIndex = index ∧ m.sdoSubindex = subindex ∧
      m.downloadData.1 = size ∧ m.firstBytes size = first.length ∧
      m.mbx.bytes m.downloadData.2 first.length = first := by
  have hcommand := h.command
  have hbody := h.body
  have hlength := h.length
  cases r with
  | expedited i s value =>
      obtain ⟨rfl, rfl, rfl, hsize, hpos, hfour⟩ := hr
      rw [← hsize] at hpos hfour
      obtain ⟨hdownload, hsingle, hexpedited, hcount⟩ := expedited_command hpos hfour
      rw [SdoRequest.command] at hcommand
      rw [← hcommand] at hdownload hsingle hexpedited hcount
      have hdata : m.downloadData = (size, Mailbox.sizeOffset) := by
        rw [Mailbox.downloadData, if_pos hexpedited, hcount, hsize]
      have hall : m.firstBytes size = size := if_neg fun h => by
        have := h.1
        omega
      rw [hdata, hall]
      exact ⟨sdoRequest_download hdownload hsingle, hbody.1, hbody.2.1, rfl, hsize.symm,
        hbody.2.2⟩
  | normal i s n value =>
      obtain ⟨rfl, rfl, rfl, rfl⟩ := hr
      obtain ⟨hindex, hsub, hsize, hvalue⟩ := hbody
      rw [SdoRequest.command] at hcommand
      have hdata : m.downloadData = (n, Mailbox.dataOffset) := by
        rw [Mailbox.downloadData, hcommand, if_neg (by decide), hsize, Nat.mod_eq_of_lt hlt]
      have hall : m.firstBytes n = value.length := by
        rw [Mailbox.firstBytes, hlength, SdoRequest.length]
        by_cases hmore : value.length < n
        · rw [if_pos ⟨hfirst hmore, by omega⟩, Nat.add_sub_cancel_left]
        · rw [if_neg (fun h => by
            have := h.2
            omega)]
          omega
      rw [hdata, hall]
      refine ⟨sdoRequest_download ?_ ?_, hindex, hsub, rfl, rfl, hvalue⟩
      · exact (congrArg (· &&& 0xe0) hcommand).trans (by decide)
      · rw [show m.taken.sdoCommand = _ from hcommand]
        decide
  | segment | upload | uploadSegment => exact hr.elim

/-- The entry takes values of `size` bytes. -/
structure Takes (env : CoeEnv σ) (index : Word) (subindex : Byte) (d : Objd) (size : ℕ) :
    Prop where
  lookup : lookupEntry env.sys.dict.table index subindex = .ok (.ok d)
  write : writeAccess d.access (env.alStatus.setWidth 8 &&& 0x0f)
  read : readAccess d.access (env.alStatus.setWidth 8 &&& 0x0f)
  bits : d.bitlength.toNat = 8 * size
  pos : 0 < size
  lt : size < 2 ^ 16

/-- An entry that may be written has an access right among its flags, so they are not the mark of
Complete Access. -/
lemma writeAccess_flags_ne {d : Objd} {state : Byte} (h : writeAccess d.access state) :
    d.flags ≠ completeAccessFlag := by
  intro hflags
  have haccess : d.access = 0 := by
    rw [Objd.access, hflags]
    decide
  rw [haccess] at h
  simp [writeAccess] at h

section entry

variable {index : Word} {subindex : Byte} {d : Objd} {size : ℕ}

lemma Takes.data_ne (h : Takes env index subindex d size) : d.data ≠ 0 := by
  obtain ⟨o, ho, hmem⟩ := lookupEntry_found h.lookup
  exact env.sys.dict.data_ne ho.mem hmem h.write

lemma Takes.size_eq (h : Takes env index subindex d size) : d.size = size := by
  have hlt := h.lt
  rw [Objd.size, h.bits, bits2bytes]
  omega

lemma Takes.flags_ne (h : Takes env index subindex d size) : d.flags ≠ completeAccessFlag :=
  writeAccess_flags_ne h.write

/-- A download goes on in segments, behind `count` bytes of the entry. -/
structure Mailbox.Downloading (m : Mailbox) (d : Objd) (count : ℕ) : Prop where
  data : m.data = d.data + count
  flags : m.flags = d.flags

/-- The first message of a download is confirmed. -/
lemma exchange_start (hooks : SdoHooksNeutral env.sys.cfg) (ht : Takes env index subindex d size)
    {first : List Byte} (hr : r.Starts index subindex size first)
    (hfirst : first.length < size → 4 < size) (hle : first.length ≤ size) {bytes : ByteStore}
    (hroom : 16 ≤ m.activembxsize)
    (hunlocked : ¬ PdoLocked ⟨env.sys.dict.table, bytes⟩ index subindex d.flags) :
    Exchange env m bytes r fun reply command m' bytes' =>
      r.Confirms reply command ∧ m'.activembxsize = m.activembxsize ∧
        ByteStore.Stored bytes bytes' d.data first ∧
        (first.length < size → m'.Downloading d first.length) := by
  refine exchange_of_request (Nat.lt_of_lt_of_le (by decide) hroom) fun o m' mem k h hmem => ?_
  obtain ⟨hrun, hindex, hsub, hdata, hcount, hvalue⟩ :=
    h.asks.starts (σ := σ) hr ht.lt hfirst hle
  have hlength : coeHeadersize ≤ (m'.headerLength 0).toNat := by
    rw [h.asks.length]
    exact r.coeHeadersize_le_length
  have hspec := sdoDownload_confirms (c := ⟨o, m'.taken, mem⟩) (k := k) hooks (by exact h.idle)
    ht.data_ne hlength (by exact h.size ▸ hroom) (by exact hindex ▸ hsub ▸ ht.lookup) ht.write
    (hdata.trans ht.size_eq.symm) (by rw [← hmem, ← hindex, ← hsub] at hunlocked; exact hunlocked)
  rw [hrun]
  refine hspec.mono fun _ c' ⟨reply, hanswers, hnames, hbytes, htransfer⟩ => ?_
  obtain ⟨n, hreplied, -⟩ := hanswers.1
  have hfirstBytes : m'.taken.firstBytes d.size = first.length := by
    rw [ht.size_eq]
    exact hcount
  have hmore (hlt : first.length < size) : Continues (m'.taken.headerLength 0).toNat d.size := by
    by_contra hnot
    have hall : m'.taken.firstBytes d.size = d.size := if_neg hnot
    rw [hall, ht.size_eq] at hfirstBytes
    omega
  refine ⟨reply, _, hanswers, ?_, hreplied.size.trans h.size, ?_, fun hlt => ⟨?_, ?_⟩⟩
  · have hnames' : Names reply index subindex := hindex ▸ hsub ▸ hnames
    cases r with
    | expedited i s value =>
        obtain ⟨rfl, rfl, -⟩ := hr
        exact ⟨rfl, hnames'⟩
    | normal i s n value =>
        obtain ⟨rfl, rfl, -⟩ := hr
        exact ⟨rfl, hnames'⟩
    | segment | upload | uploadSegment => exact hr.elim
  · rw [hbytes, hfirstBytes, hmem]
    exact ByteStore.stored_copy hvalue d.data
  · have hdata' := congrArg Transfer.data htransfer
    rw [Mailbox.downloading, if_pos (hmore hlt)] at hdata'
    exact hdata'.trans (congrArg (d.data + ·) hfirstBytes)
  · have hflags := congrArg Transfer.flags htransfer
    rw [Mailbox.downloading, if_pos (hmore hlt)] at hflags
    exact hflags

/-- The command of a segment of a download tells its size, up to 7 bytes. -/
lemma segment_command (toggle last : Bool) (count : ℕ) :
    let command : Byte := coeCommandDownloadsegreq ||| toggleBit toggle |||
      .ofNat 8 ((7 - count) * 2) ||| lastBit last
    command &&& 0xe0 = coeCommandDownloadsegreq ∧ command &&& coeTogglebit = toggleBit toggle ∧
      (command &&& coeCommandLastsegmentbit ≠ 0 ↔ last = true) ∧
      ((command >>> 1) &&& 7).toNat = 7 - count := by
  by_cases hlong : 7 ≤ count
  · rw [Nat.sub_eq_zero_of_le hlong]
    cases toggle <;> cases last <;> decide
  · have hlt : count < 7 := by omega
    match count, hlt with
    | 0, _ | 1, _ | 2, _ | 3, _ | 4, _ | 5, _ | 6, _ =>
        cases toggle <;> cases last <;> decide

/-- What a segment of a download is to `SDO_downloadsegment`. -/
lemma Mailbox.Asks.segment {toggle last : Bool} {part : List Byte}
    (h : m.Asks (.segment toggle last part)) (hpart : part.length < 2 ^ 16) :
    sdoRequest (σ := σ) m.taken = sdoDownloadsegment ∧ m.segmentBytes = part.length ∧
      (m.LastSegment ↔ last = true) ∧ m.sdoCommand &&& coeTogglebit = toggleBit toggle := by
  have hcommand := h.command
  have hlength := h.length
  rw [SdoRequest.command] at hcommand
  simp only [SdoRequest.length, coeHeadersize, coeSegmentheadersize] at hlength
  obtain ⟨hsegment, htoggle, hlast, hbits⟩ := segment_command toggle last part.length
  rw [← hcommand] at hsegment htoggle hlast hbits
  refine ⟨sdoRequest_downloadSegment hsegment, ?_, hlast, htoggle⟩
  rw [Mailbox.segmentBytes, segmentSize, hbits, hlength, sub32]
  split
  · omega
  · omega

/-- A segment of a download is confirmed, and stored behind what was stored before. -/
lemma exchange_segment (hooks : SdoHooksNeutral env.sys.cfg)
    (ht : Takes env index subindex d size) {toggle last : Bool} {count : ℕ} {part : List Byte}
    {bytes : ByteStore} (hdown : m.Downloading d count) (hpart : part.length < 2 ^ 16)
    (hroom : 16 ≤ m.activembxsize)
    (hfits : escMbxhsize + coeSegmentheadersize + part.length ≤ m.activembxsize) :
    Exchange env m bytes (.segment toggle last part) fun reply command m' bytes' =>
      (SdoRequest.segment toggle last part).Confirms reply command ∧
        m'.activembxsize = m.activembxsize ∧
        ByteStore.Stored bytes bytes' (d.data + count) part ∧
        (last = false → m'.Downloading d (count + part.length)) := by
  refine exchange_of_request (Nat.lt_of_lt_of_le (by decide) hroom) fun o m' mem k h hmem => ?_
  obtain ⟨hrun, hcount, hlast, htoggle⟩ := h.asks.segment (σ := σ) hpart
  have hdata : m'.taken.data = d.data + count :=
    (congrArg Transfer.data h.transfer).trans hdown.data
  have hflags : m'.taken.flags = d.flags :=
    (congrArg Transfer.flags h.transfer).trans hdown.flags
  have hspec := sdoDownloadsegment_confirms (c := ⟨o, m'.taken, mem⟩) (k := k)
    (by exact h.idle) (show m'.taken.data ≠ 0 by have := ht.data_ne; omega)
    (by exact h.size ▸ hroom)
    (show Mailbox.segmentOffset + m'.segmentBytes ≤ m'.activembxsize by
      rw [hcount, h.size]
      exact hfits) hooks (show m'.taken.flags ≠ completeAccessFlag from hflags ▸ ht.flags_ne)
  rw [hrun]
  refine hspec.mono fun _ c' ⟨reply, hanswers, hbytes, hnext⟩ => ?_
  obtain ⟨n, hreplied, -⟩ := hanswers.1
  have hsegment : m'.taken.segmentBytes = part.length := hcount
  refine ⟨reply, _, hanswers, ?_, hreplied.size.trans h.size, ?_, fun hgoes => ?_⟩
  · exact congrArg (coeCommandDownloadsegresp ||| ·) htoggle
  · rw [hbytes, segmentStored]
    simp only [hmem, hsegment, hdata]
    exact ByteStore.stored_copy h.asks.body (d.data + count)
  · have hnot : ¬ m'.taken.LastSegment := fun hl => by
      rw [hlast.mp hl] at hgoes
      cases hgoes
    obtain ⟨hdata', hflags'⟩ := hnext hnot
    refine ⟨?_, hflags'.trans hflags⟩
    rw [hdata', hdata, hsegment, Nat.add_assoc]

/-! ## Upload -/

/-- An upload is answered with the size and as many bytes as fit. -/
lemma exchange_upload (hooks : SdoHooksNeutral env.sys.cfg)
    (ht : Takes env index subindex d size) {bytes : ByteStore} (hroom : 16 ≤ m.activembxsize)
    (hroom' : m.activembxsize < 2 ^ 16) :
    Exchange env m bytes (.upload index subindex) fun reply command m' bytes' =>
      UploadReply reply command index subindex size
        (bytes.bytes d.data (firstUpload m.activembxsize size)) ∧
      bytes' = bytes ∧ m'.activembxsize = m.activembxsize ∧
      (firstUpload m.activembxsize size < size →
        m'.Uploading d size (firstUpload m.activembxsize size)) := by
  refine exchange_of_request (Nat.lt_of_lt_of_le (by decide) hroom) fun o m' mem k h hmem => ?_
  obtain ⟨hindex, hsub⟩ := h.asks.body
  have hspec := sdoUpload_replies (c := ⟨o, m'.taken, mem⟩) (k := k) hooks (by exact h.idle)
    ht.data_ne ht.bits ht.pos ht.lt (by exact h.size ▸ hroom) (by exact h.size ▸ hroom')
    (by exact hindex ▸ hsub ▸ ht.lookup) ht.read
  rw [sdoRequest_upload (by exact h.asks.command) (by exact h.asks.length)]
  refine hspec.mono fun _ c' ⟨reply, command, hanswers, hreply, hkept, huploading⟩ => ?_
  obtain ⟨n, hreplied, -⟩ := hanswers.1
  rw [show m'.taken.activembxsize = m.activembxsize from h.size] at hreply huploading
  rw [show m'.taken.sdoIndex = index from hindex, show m'.taken.sdoSubindex = subindex from hsub]
    at hreply
  refine ⟨reply, command, hanswers, ?_, ?_, hreplied.size.trans h.size, huploading⟩
  · rw [← hmem]
    exact hreply
  · rw [hkept]
    exact hmem

/-- A request for a segment is answered with the next bytes, the last of which are marked. -/
lemma exchange_uploadSegment (hooks : SdoHooksNeutral env.sys.cfg) (hdata : d.data ≠ 0)
    (hlt : size < 2 ^ 16) {toggle : Bool} {done : ℕ} {bytes : ByteStore}
    (hup : m.Uploading d size done) (hdone : done < size) (hroom : 24 ≤ m.activembxsize)
    (hroom' : m.activembxsize < 2 ^ 16) :
    Exchange env m bytes (.uploadSegment toggle) fun reply command m' bytes' =>
      SegmentReply reply command (toggleBit toggle)
        (decide (nextUpload m.activembxsize (size - done) = size - done))
        (bytes.bytes (d.data + done) (nextUpload m.activembxsize (size - done))) ∧
      bytes' = bytes ∧ m'.activembxsize = m.activembxsize ∧
      (nextUpload m.activembxsize (size - done) < size - done →
        m'.Uploading d size (done + nextUpload m.activembxsize (size - done))) := by
  refine exchange_of_request (Nat.lt_of_lt_of_le (by decide) hroom) fun o m' mem k h hmem => ?_
  have hcommand : m'.sdoCommand = coeCommandUploadsegreq ||| toggleBit toggle := h.asks.command
  have hup' : m'.taken.Uploading d size done :=
    ⟨(congrArg Transfer.segmented h.transfer).trans hup.segmented,
      (congrArg Transfer.data h.transfer).trans hup.data,
      (congrArg Transfer.frags h.transfer).trans hup.frags,
      (congrArg Transfer.fragsleft h.transfer).trans hup.fragsleft⟩
  have hbits : m'.sdoCommand &&& 0xef = coeCommandUploadsegreq ∧
      m'.sdoCommand &&& coeTogglebit = toggleBit toggle := by
    rw [hcommand]
    cases toggle <;> decide
  have hspec := sdoUploadsegment_replies (c := ⟨o, m'.taken, mem⟩) (k := k) hooks (by exact h.idle)
    hdata hup' hdone hlt (by exact h.size ▸ hroom) (by exact h.size ▸ hroom')
  rw [sdoRequest_uploadSegment (m := m'.taken) hbits.1 (by exact h.asks.length) hup'.segmented]
  refine hspec.mono fun _ c' ⟨reply, command, hanswers, hreply, hkept, huploading⟩ => ?_
  obtain ⟨n, hreplied, -⟩ := hanswers.1
  rw [show m'.taken.activembxsize = m.activembxsize from h.size] at hreply huploading
  rw [show m'.taken.sdoCommand &&& coeTogglebit = toggleBit toggle from hbits.2] at hreply
  refine ⟨reply, command, hanswers, ?_, ?_, hreplied.size.trans h.size, huploading⟩
  · rw [← hmem]
    exact hreply
  · rw [hkept]
    exact hmem

end entry

/-! ## The master -/

/-- Consequences of an exchange. -/
lemma Exchange.mono {bytes : ByteStore} {Q Q' : ByteStore → Byte → Mailbox → ByteStore → Prop}
    (h : Exchange env m bytes r Q)
    (hQ : ∀ reply command m' bytes', Q reply command m' bytes' → Q' reply command m' bytes') :
    Exchange env m bytes r Q' := fun o m' mem k harrives hmem =>
  (h o m' mem k harrives hmem).mono fun _ _ ⟨reply, command, hanswers, hQ₁⟩ =>
    ⟨reply, command, hanswers, hQ _ _ _ _ hQ₁⟩

/-- The segments of a download, with alternating toggle bits. -/
def segmentRequests : Bool → List (List Byte) → List Byte → List SdoRequest
  | toggle, [], last => [.segment toggle true last]
  | toggle, part :: parts, last =>
      .segment toggle false part :: segmentRequests (!toggle) parts last

/-- The requests by which a master sends a value in mailboxes of `room` bytes: expedited, in one
normal message, or in segments, wherever the master splits it.  A value of at most 4 bytes is not
sent in segments: it fits the first message in every mailbox. -/
inductive Sends (room : ℕ) (index : Word) (subindex : Byte) (value : List Byte) :
    List SdoRequest → Prop
  | expedited (hsize : value.length ≤ 4) : Sends room index subindex value
      [.expedited index subindex value]
  | normal (hfits : escMbxhsize + coeHeadersize + value.length ≤ room) :
      Sends room index subindex value [.normal index subindex value.length value]
  | segmented (first : List Byte) (parts : List (List Byte)) (last : List Byte)
      (hvalue : first ++ parts.flatten ++ last = value) (hsize : 4 < value.length)
      (hmore : first.length < value.length)
      (hfirst : escMbxhsize + coeHeadersize + first.length ≤ room)
      (hparts : ∀ part ∈ last :: parts,
        escMbxhsize + coeSegmentheadersize + part.length ≤ room) :
      Sends room index subindex value
        (.normal index subindex value.length first :: segmentRequests false parts last)

/-- The requests of a download are sent one after the other, every reply confirms, and then
`Q` holds. -/
def Downloads (env : CoeEnv σ) (Q : Mailbox → ByteStore → Prop) :
    List SdoRequest → Mailbox → ByteStore → Prop
  | [], m, bytes => Q m bytes
  | r :: rs, m, bytes => Exchange env m bytes r fun reply command m' bytes' =>
      r.Confirms reply command ∧ Downloads env Q rs m' bytes'

/-- Segments are asked for until one is marked as the last, at most `fuel` of them. -/
def Collects (env : CoeEnv σ) (Q : List Byte → ByteStore → Prop) :
    ℕ → Bool → List Byte → Mailbox → ByteStore → Prop
  | 0, _, _, _, _ => False
  | fuel + 1, toggle, got, m, bytes =>
      Exchange env m bytes (.uploadSegment toggle) fun reply command m' bytes' =>
        command &&& 0xe0 = coeCommandUploadsegment ∧ command &&& coeTogglebit = toggleBit toggle ∧
        if (segmentValue reply).1 then Q (got ++ (segmentValue reply).2) bytes'
        else Collects env Q fuel (!toggle) (got ++ (segmentValue reply).2) m' bytes'

/-- A master uploads an entry: if the reply does not carry the announced size, it collects the
rest in segments.  `Q` holds of the announced size, the bytes read, and the variables. -/
def Uploads (env : CoeEnv σ) (index : Word) (subindex : Byte) (Q : ℕ → List Byte → ByteStore → Prop)
    (m : Mailbox) (bytes : ByteStore) : Prop :=
  ∃ fuel, Exchange env m bytes (.upload index subindex) fun reply command m' bytes' =>
    command &&& 0xe0 = coeCommandUploadresponse ∧ Names reply index subindex ∧
    if (uploadValue reply).2.length = (uploadValue reply).1 then
      Q (uploadValue reply).1 (uploadValue reply).2 bytes'
    else Collects env (Q (uploadValue reply).1) fuel false (uploadValue reply).2 m' bytes'

section transfer

variable {index : Word} {subindex : Byte} {d : Objd} {size : ℕ} {bytes bytes' : ByteStore}

lemma firstUpload_le (room size : ℕ) : firstUpload room size ≤ size := by
  simp only [firstUpload, escMbxhsize, coeHeadersize]
  split
  · omega
  · exact Nat.le_refl _

lemma nextUpload_le (room left : ℕ) : nextUpload room left ≤ left := by
  simp only [nextUpload, escMbxhsize, coeSegmentheadersize]
  split
  · omega
  · exact Nat.le_refl _

lemma nextUpload_pos {room left : ℕ} (hroom : 24 ≤ room) (hleft : 0 < left) :
    0 < nextUpload room left := by
  simp only [nextUpload, escMbxhsize, coeSegmentheadersize]
  split
  · omega
  · exact hleft

/-- The segments of an upload are the rest of the value.  Every segment but the last takes at
least fifteen bytes. -/
lemma collects_rest (hooks : SdoHooksNeutral env.sys.cfg) (hdata : d.data ≠ 0)
    (hlt : size < 2 ^ 16) {fuel done : ℕ} {toggle : Bool} (hup : m.Uploading d size done)
    (hdone : done < size)
    (hfuel : size - done ≤ fuel) (hroom : 24 ≤ m.activembxsize)
    (hroom' : m.activembxsize < 2 ^ 16) {Q : List Byte → ByteStore → Prop}
    (hQ : Q (bytes.bytes d.data size) bytes) :
    Collects env Q fuel toggle (bytes.bytes d.data done) m bytes := by
  induction fuel generalizing m done toggle with
  | zero => omega
  | succ fuel ih =>
      refine (exchange_uploadSegment hooks hdata hlt hup hdone hroom hroom').mono
        fun reply command m' bytes' ⟨hreply, hkept, hsize, hnext⟩ => ?_
      refine ⟨hreply.isSegment, hreply.toggled, ?_⟩
      rw [hreply.value, ← ByteStore.bytes_add]
      by_cases hlast : nextUpload m.activembxsize (size - done) = size - done
      · rw [decide_eq_true hlast, if_pos rfl, hlast, Nat.add_sub_cancel' (Nat.le_of_lt hdone),
          hkept]
        exact hQ
      · have hle := nextUpload_le m.activembxsize (size - done)
        have hpos := @nextUpload_pos _ (size - done) hroom (by omega)
        rw [decide_eq_false hlast, if_neg (by simp), hkept]
        exact ih (hnext (by omega)) (by omega) (by omega) (hsize.symm ▸ hroom)
          (hsize.symm ▸ hroom')

/-- An upload returns what is stored. -/
lemma uploads_stored (hooks : SdoHooksNeutral env.sys.cfg) (ht : Takes env index subindex d size)
    (bytes : ByteStore) (hroom : 24 ≤ m.activembxsize) (hroom' : m.activembxsize < 2 ^ 16) :
    Uploads env index subindex (fun announced got bytes' =>
      announced = size ∧ got = bytes.bytes d.data size ∧ bytes' = bytes) m bytes := by
  refine ⟨size, (exchange_upload hooks ht (by omega) hroom').mono
    fun reply command m' bytes' ⟨hreply, hkept, hsize, hnext⟩ => ?_⟩
  refine ⟨hreply.command, hreply.names, ?_⟩
  rw [hreply.value]
  dsimp only
  rw [ByteStore.length_bytes]
  by_cases hall : firstUpload m.activembxsize size = size
  · rw [if_pos hall, hall]
    exact ⟨rfl, rfl, hkept⟩
  · have hle := firstUpload_le m.activembxsize size
    have hlt : firstUpload m.activembxsize size < size := by omega
    rw [if_neg hall, hkept]
    exact collects_rest hooks ht.data_ne ht.lt (hnext hlt) hlt (Nat.sub_le _ _) (hsize.symm ▸ hroom)
      (hsize.symm ▸ hroom') ⟨rfl, rfl, rfl⟩

/-- The segments of a download are stored behind what was stored before. -/
lemma downloads_segments (hooks : SdoHooksNeutral env.sys.cfg)
    (ht : Takes env index subindex d size) {Q : Mailbox → ByteStore → Prop}
    {got last : List Byte} {parts : List (List Byte)} {toggle : Bool}
    (hstored : ByteStore.Stored bytes bytes' d.data got) (hdown : m.Downloading d got.length)
    (hroom : 16 ≤ m.activembxsize) (hroom' : m.activembxsize < 2 ^ 16)
    (hfits : ∀ part ∈ last :: parts,
      escMbxhsize + coeSegmentheadersize + part.length ≤ m.activembxsize)
    (hQ : ∀ m' bytes'', m'.activembxsize = m.activembxsize →
      ByteStore.Stored bytes bytes'' d.data (got ++ parts.flatten ++ last) → Q m' bytes'') :
    Downloads env Q (segmentRequests toggle parts last) m bytes' := by
  induction parts generalizing m bytes' got toggle with
  | nil =>
      have hlast := hfits last (List.mem_cons_self ..)
      refine (exchange_segment hooks ht hdown (by omega) hroom hlast).mono
        fun reply command m' bytes'' ⟨hconfirms, hsize, hnew, _⟩ => ⟨hconfirms, ?_⟩
      refine hQ m' bytes'' hsize ?_
      rw [List.flatten_nil, List.append_nil]
      exact hstored.append hnew
  | cons part parts ih =>
      have hpart := hfits part (List.mem_cons_of_mem _ (List.mem_cons_self ..))
      refine (exchange_segment hooks ht hdown (by omega) hroom hpart).mono
        fun reply command m' bytes'' ⟨hconfirms, hsize, hnew, hnext⟩ => ⟨hconfirms, ?_⟩
      refine ih (hstored.append hnew) ?_ (hsize.symm ▸ hroom) (hsize.symm ▸ hroom') ?_ ?_
      · rw [List.length_append]
        exact hnext rfl
      · intro other hother
        rw [hsize]
        refine hfits other ?_
        rcases List.mem_cons.mp hother with rfl | hmem
        · exact List.mem_cons_self ..
        · exact List.mem_cons_of_mem _ (List.mem_cons_of_mem _ hmem)
      · intro m'' bytes₃ hsize' hall
        refine hQ m'' bytes₃ (hsize'.trans hsize) ?_
        rw [List.flatten_cons, ← List.append_assoc]
        exact hall

end transfer

/-! ## The round trip -/

/-- **A value written is the value read.**  However the master sends the value, every reply
confirms; then the value's bytes and nothing else have changed, and an upload announces its size and
returns it.  No bound on the value is that of the mailboxes. -/
theorem sdo_round_trip (hooks : SdoHooksNeutral env.sys.cfg) {index : Word} {subindex : Byte}
    {d : Objd} {value : List Byte} (ht : Takes env index subindex d value.length)
    (hroom : 24 ≤ m.activembxsize) (hroom' : m.activembxsize < 2 ^ 16) {bytes : ByteStore}
    (hunlocked : ¬ PdoLocked ⟨env.sys.dict.table, bytes⟩ index subindex d.flags)
    {rs : List SdoRequest} (hsends : Sends m.activembxsize index subindex value rs) :
    Downloads env (fun m' bytes' =>
      bytes'.bytes d.data value.length = value ∧
      (∀ a, a < d.data ∨ d.data + value.length ≤ a → bytes' a = bytes a) ∧
      Uploads env index subindex (fun announced got bytes'' =>
        announced = value.length ∧ got = value ∧ bytes'' = bytes') m' bytes') rs m bytes := by
  have after (m' : Mailbox) (bytes' : ByteStore) (hsize : m'.activembxsize = m.activembxsize)
      (hstored : ByteStore.Stored bytes bytes' d.data value) :
      bytes'.bytes d.data value.length = value ∧
      (∀ a, a < d.data ∨ d.data + value.length ≤ a → bytes' a = bytes a) ∧
      Uploads env index subindex (fun announced got bytes'' =>
        announced = value.length ∧ got = value ∧ bytes'' = bytes') m' bytes' := by
    refine ⟨hstored.stored, hstored.outside, ?_⟩
    have hup := uploads_stored hooks ht bytes' (hsize.symm ▸ hroom) (hsize.symm ▸ hroom')
    rw [hstored.stored] at hup
    exact hup
  cases hsends with
  | expedited hfour =>
      refine (exchange_start (r := .expedited index subindex value) hooks ht
        ⟨rfl, rfl, rfl, rfl, ht.pos, hfour⟩ (fun h => (Nat.lt_irrefl _ h).elim) (Nat.le_refl _)
        (by omega) hunlocked).mono
          fun reply command m' bytes' ⟨hconfirms, hsize, hstored, _⟩ => ⟨hconfirms, ?_⟩
      exact after m' bytes' hsize hstored
  | normal hfits =>
      refine (exchange_start (r := .normal index subindex _ value) hooks ht ⟨rfl, rfl, rfl, rfl⟩
        (fun h => (Nat.lt_irrefl _ h).elim) (Nat.le_refl _) (by omega) hunlocked).mono
          fun reply command m' bytes' ⟨hconfirms, hsize, hstored, _⟩ => ⟨hconfirms, ?_⟩
      exact after m' bytes' hsize hstored
  | segmented first parts last hvalue hfour hmore hfirst hparts =>
      refine (exchange_start (r := .normal index subindex _ first) hooks ht ⟨rfl, rfl, rfl, rfl⟩
        (fun _ => hfour) (Nat.le_of_lt hmore) (by omega) hunlocked).mono
          fun reply command m' bytes' ⟨hconfirms, hsize, hstored, hnext⟩ => ⟨hconfirms, ?_⟩
      refine downloads_segments hooks ht hstored (hnext hmore) (by omega) (by omega)
        (hsize.symm ▸ hparts) fun m'' bytes'' hsize' hall => ?_
      rw [hvalue] at hall
      exact after m'' bytes'' (hsize'.trans hsize) hall

/-- The example device has no hooks. -/
lemma exampleCfg_neutral : SdoHooksNeutral exampleCfg :=
  ⟨fun _ h => (by cases h), fun _ h => (by cases h), fun _ h => (by cases h),
    fun _ h => (by cases h)⟩

/-- A setting of 40 bytes. -/
def settingEntry : Objd :=
  { subindex := 1, datatype := dtypeOctetString, bitlength := 320, flags := 0x3f, name := []
    value := 0, data := 0x100 }

/-- The dictionary of a device with this setting. -/
def settingDictionary : Dictionary where
  objects :=
    [{ index := 0x2000, objtype := 9, maxsub := 1, name := []
       objdesc := [constEntry 0 dtypeUnsigned8 8 1, settingEntry] }]
  ascending := by decide
  below_sentinel := by decide
  storage := by decide +kernel

/-- The device with this setting. -/
def settingSystem : System ByteStore := { exampleSystem with dict := settingDictionary }

/-- The value that is sent. -/
def settingValue : List Byte := (List.range 40).map fun i => .ofNat 8 (i + 1)

/-- In mailboxes of 32 bytes the setting does not fit one message in either direction: the master
sends 16 bytes, 14 and 10, and reads it back in segments. -/
theorem sdo_round_trip_example :
    Downloads ⟨settingSystem, 2⟩ (fun m' bytes' =>
      bytes'.bytes 0x100 40 = settingValue ∧
      (∀ a, a < 0x100 ∨ 0x100 + 40 ≤ a → bytes' a = 0) ∧
      Uploads ⟨settingSystem, 2⟩ 0x2000 1 (fun announced got bytes'' =>
        announced = 40 ∧ got = settingValue ∧ bytes'' = bytes') m' bytes')
      [.normal 0x2000 1 40 (settingValue.take 16),
        .segment false false ((settingValue.drop 16).take 14),
        .segment true true (settingValue.drop 30)]
      { exampleMailbox [] with activembxsize := 32 } fun _ => 0 :=
  have ht : Takes ⟨settingSystem, 2⟩ 0x2000 1 settingEntry settingValue.length :=
    ⟨rfl, by decide, by decide, rfl, by decide, by decide⟩
  sdo_round_trip exampleCfg_neutral ht (by decide) (by decide) (fun h => absurd h.1 (by decide))
    (.segmented (settingValue.take 16) [(settingValue.drop 16).take 14] (settingValue.drop 30)
      (by decide) (by decide) (by decide) (by decide) (by decide))

/-- An RxPDO whose mapping may be written, and which maps one entry. -/
def lockedDictionary : Dictionary where
  objects :=
    [{ index := 0x1600, objtype := 9, maxsub := 1, name := []
       objdesc :=
        [{ subindex := 0, datatype := dtypeUnsigned8, bitlength := 8, flags := 0x3f, name := []
           value := 0, data := 0x200 },
         { subindex := 1, datatype := dtypeUnsigned32, bitlength := 32, flags := 0x3f, name := []
           value := 0, data := 0x204 }] }]
  ascending := by decide
  below_sentinel := by decide
  storage := by decide +kernel

/-- A new mapping in the inbox of the example device. -/
def mappingMailbox : Mailbox :=
  exampleMailbox (sdoMessage 0x23 0x1600 1 [0x08, 0x01, 0x00, 0x70])

/-- A mapping that is in use is not overwritten: `ESC_download_pre_objecthandler` asks for
subindex 0 to be cleared first, and the download is aborted. -/
theorem locked_download : ¬ ∀ (env : CoeEnv ByteStore) (m : Mailbox) (index : Word)
    (subindex : Byte) (d : Objd) (value : List Byte) (bytes : ByteStore) (rs : List SdoRequest),
    SdoHooksNeutral env.sys.cfg → Takes env index subindex d value.length →
    24 ≤ m.activembxsize → Sends m.activembxsize index subindex value rs →
    Downloads env (fun m' bytes' =>
      bytes'.bytes d.data value.length = value ∧
      (∀ a, a < d.data ∨ d.data + value.length ≤ a → bytes' a = bytes a) ∧
      Uploads env index subindex (fun announced got bytes'' =>
        announced = value.length ∧ got = value ∧ bytes'' = bytes') m' bytes') rs m bytes := by
  intro h
  have hdown := h ⟨{ exampleSystem with dict := lockedDictionary }, 2⟩ mappingMailbox 0x1600 1
    ⟨1, dtypeUnsigned32, 32, 0x3f, [], 0, 0x204⟩ [0x08, 0x01, 0x00, 0x70]
    (fun a => if a = 0x200 then 1 else 0) _ exampleCfg_neutral
    ⟨rfl, by decide, by decide, rfl, by decide, by decide⟩ (by decide) (.expedited (by decide))
  have harrives : mappingMailbox.Arrives exampleOptions mappingMailbox
      (.expedited 0x1600 1 [0x08, 0x01, 0x00, 0x70]) :=
    ⟨⟨by decide, by decide, by decide, by decide, by decide, by decide, by decide⟩, rfl, rfl, rfl,
      ⟨1, by decide, by decide, rfl⟩, rfl, rfl, rfl⟩
  obtain ⟨_, c', hrun, reply, command, ⟨⟨n, hreplied, rfl⟩, hresponse⟩, ⟨rfl, -⟩, -⟩ :=
    hdown (fun _ => 0) mappingMailbox
    ⟨fun a => if a = 0x200 then 1 else 0, [], false⟩ 0 harrives rfl
  have hseen : (escCoeprocess ⟨{ exampleSystem with dict := lockedDictionary }, 2⟩ 0
      ⟨fun _ => 0, mappingMailbox, ⟨fun a => if a = 0x200 then 1 else 0, [], false⟩⟩).seen
      (fun c' => (c'.mb.control 1, c'.mb.message 2 8)) =
        some (MbxState.idle, coeCommandSdoabort) := by
    decide +kernel
  rw [hrun] at hseen
  obtain ⟨hidle, habort⟩ := Prod.mk.inj (Option.some.inj hseen)
  obtain ⟨hpos, hlt, -⟩ := hreplied.idle
  have hn : n = 1 ∨ n = 2 := by
    change n < 3 at hlt
    omega
  rcases hn with rfl | rfl
  · exact absurd ((hreplied.control 1).symm.trans hidle) (by decide)
  · exact absurd (hresponse.command.symm.trans habort) (by decide)

end Soes
