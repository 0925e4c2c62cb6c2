import Soes.Properties.CaImage
import Soes.Properties.DownloadComplete

/-!
# Complete Access download

A Complete Access download distributes the bytes of its message over the entries of the object,
or, if they do not fit one message, collects them in `ESCvar.mbxdata` and distributes them with the
last segment (`CaDownloads`).  It is one whose messages carry the bytes that they announce
(`Mailbox.Carries`) and whose segments bring no more than the buffer holds: the code checks neither.
`complete_access_subindex_loop` copies an entry as a whole before it looks whether the announced
bytes are used up, and takes a bound of 0 for no bound; bit types it passes over.

So a download that announces `b` bytes writes only those exactly if none of the entries it writes
reaches beyond them (`short_download_iff`), and what was downloaded is what an upload returns
exactly if no entry that may be read and written is a bit type (`ca_round_trip_iff`).
-/

namespace Soes

open Program

variable {σ : Type} {env : CoeEnv σ} {k : ℕ} {c c' : Coe σ} {o : Objectlist} {nsub b : ℕ}
  {index : Word} {subindex : Byte}

/-! ## What a pass writes -/

namespace CaField

variable (f : CaField) (state : Byte) (a : ℕ)

/-- The entry may be written. -/
def Writable : Prop := writeAccess f.entry.access state

instance : Decidable (f.Writable state) := by unfold Writable; infer_instance

/-- The byte at address `a` is one of its storage. -/
def Stores : Prop := f.entry.data ≠ 0 ∧ f.entry.data ≤ a ∧ a < f.entry.data + f.entry.size

instance : Decidable (f.Stores a) := by unfold Stores; infer_instance

/-- A download writes the byte at address `a` for this entry. -/
def Writes : Prop := f.Whole ∧ f.Writable state ∧ f.Stores a

/-- The position in the image of the byte at address `a`. -/
def position : ℕ := f.start / 8 + (a - f.entry.data)

variable {f state a} {data bytes : ByteStore}

lemma download_of_writes (h : f.Writes state a) :
    f.download state data bytes a = data (f.position a) := by
  obtain ⟨hwhole, hwritable, -, hfrom, hto⟩ := h
  rw [download, if_pos ⟨hwhole, hwritable⟩, ByteStore.copy, if_pos ⟨hfrom, hto⟩]
  rfl

lemma download_of_not (hdata : f.Writable state → f.entry.data ≠ 0) (h : ¬ f.Writes state a) :
    f.download state data bytes a = bytes a := by
  rw [download]
  split
  case isTrue hboth =>
    have hnot : ¬ (f.entry.data ≤ a ∧ a < f.entry.data + f.entry.size) := fun hin =>
      h ⟨hboth.1, hboth.2, hdata hboth.2, hin⟩
    exact ByteStore.copy_of_outside (by omega)
  case isFalse => rfl

end CaField

/-- The data of a download is distributed over the fields. -/
def distribute (state : Byte) (data : ByteStore) (l : List CaField) (bytes : ByteStore) :
    ByteStore :=
  l.foldl (fun bytes f => f.download state data bytes) bytes

section distribute

variable {f : CaField} {state : Byte} {a buffer len : ℕ} {data bytes bytes' mbx : ByteStore}
  {l pre post : List CaField}

/-- A byte that no entry writes is kept. -/
lemma distribute_kept (hdata : ∀ f ∈ l, f.Writable state → f.entry.data ≠ 0)
    (h : ∀ f ∈ l, ¬ f.Writes state a) : distribute state data l bytes a = bytes a := by
  induction l generalizing bytes with
  | nil => rfl
  | cons f l ih =>
      have hf := List.mem_cons_self (a := f) (l := l)
      have hrest := @ih (f.download state data bytes)
        (fun g hg => hdata g (List.mem_cons_of_mem _ hg))
        fun g hg => h g (List.mem_cons_of_mem _ hg)
      exact hrest.trans (CaField.download_of_not (hdata f hf) (h f hf))

/-- A byte that an entry writes is that of the data at its position, if whatever writes it
afterwards writes the same. -/
lemma distribute_written (hdata : ∀ g ∈ post, g.Writable state → g.entry.data ≠ 0)
    (h : f.Writes state a)
    (hpost : ∀ g ∈ post, g.Writes state a → data (g.position a) = data (f.position a)) :
    distribute state data (pre ++ f :: post) bytes a = data (f.position a) := by
  have hstep : ∀ bytes : ByteStore, bytes a = data (f.position a) →
      distribute state data post bytes a = data (f.position a) := by
    induction post with
    | nil => exact fun bytes hbytes => hbytes
    | cons g post ih =>
        intro bytes hbytes
        have hg := List.mem_cons_self (a := g) (l := post)
        refine ih (fun g' hg' => hdata g' (List.mem_cons_of_mem _ hg'))
          (fun g' hg' => hpost g' (List.mem_cons_of_mem _ hg')) _ ?_
        by_cases hwrites : g.Writes state a
        · exact (CaField.download_of_writes hwrites).trans (hpost g hg hwrites)
        · exact (CaField.download_of_not (hdata g hg) hwrites).trans hbytes
  rw [distribute, List.foldl_append, List.foldl_cons]
  exact hstep _ (CaField.download_of_writes h)

/-- The entry that writes a byte last, if any does. -/
lemma exists_last_writer (l : List CaField) (state : Byte) (a : ℕ) :
    (∀ f ∈ l, ¬ f.Writes state a) ∨ ∃ pre f post, l = pre ++ f :: post ∧ f.Writes state a ∧
      ∀ g ∈ post, ¬ g.Writes state a := by
  induction l with
  | nil => exact .inl fun f hf => (List.not_mem_nil hf).elim
  | cons f l ih =>
      rcases ih with hnone | ⟨pre, g, post, rfl, hwrites, hpost⟩
      · by_cases hwrites : f.Writes state a
        · exact .inr ⟨[], f, l, rfl, hwrites, hnone⟩
        · refine .inl fun g hg => ?_
          rcases List.mem_cons.mp hg with rfl | hg
          · exact hwrites
          · exact hnone g hg
      · exact .inr ⟨f :: pre, g, post, rfl, hwrites, hpost⟩

/-- A byte that has changed is one that an entry writes, with the byte at its position. -/
lemma distribute_changed (hdata : ∀ f ∈ l, f.Writable state → f.entry.data ≠ 0)
    (h : distribute state data l bytes a ≠ bytes a) :
    ∃ f ∈ l, f.Writes state a ∧ distribute state data l bytes a = data (f.position a) := by
  rcases exists_last_writer l state a with hnone | ⟨pre, f, post, rfl, hwrites, hpost⟩
  · exact (h (distribute_kept hdata hnone)).elim
  · refine ⟨f, List.mem_append_right _ (List.mem_cons_self ..), hwrites, ?_⟩
    exact distribute_written (fun g hg => hdata g (List.mem_append_right _
      (List.mem_cons_of_mem _ hg))) hwrites fun g hg hg' => (hpost g hg hg').elim

/-- Where the variables agree they still do afterwards. -/
lemma distribute_congr (hdata : ∀ f ∈ l, f.Writable state → f.entry.data ≠ 0)
    (h : bytes' a = bytes a) :
    distribute state data l bytes' a = distribute state data l bytes a := by
  rcases exists_last_writer l state a with hnone | ⟨pre, f, post, rfl, hwrites, hpost⟩
  · rw [distribute_kept hdata hnone, distribute_kept hdata hnone, h]
  · have hpost' : ∀ g ∈ post, g.Writable state → g.entry.data ≠ 0 := fun g hg =>
      hdata g (List.mem_append_right _ (List.mem_cons_of_mem _ hg))
    rw [distribute_written hpost' hwrites fun g hg hg' => (hpost g hg hg').elim,
      distribute_written hpost' hwrites fun g hg hg' => (hpost g hg hg').elim]

/-- Data in the buffer is distributed like data from elsewhere: no entry is stored there. -/
lemma foldl_fromMbxdata (hapart : ∀ f ∈ l, f.Apart buffer len)
    (hread : ∀ f ∈ l, f.Whole → f.Writable state → ∀ i < f.entry.size, f.start / 8 + i < len)
    (hdata : ∀ f ∈ l, f.Writable state → f.entry.data ≠ 0)
    (hbuffer : ∀ i < len, bytes (buffer + i) = data i) :
    l.foldl (CaMode.fromMbxdata.visit buffer state mbx) bytes = distribute state data l bytes := by
  induction l generalizing bytes with
  | nil => rfl
  | cons f l ih =>
      have hf := List.mem_cons_self (a := f) (l := l)
      have hstep : f.download state (fun i => bytes (buffer + i)) bytes =
          f.download state data bytes := by
        rw [CaField.download, CaField.download]
        split
        case isTrue hboth =>
          exact ByteStore.copy_congr fun i hi =>
            hbuffer _ (hread f hf hboth.1 hboth.2 i hi)
        case isFalse => rfl
      have hkept : ∀ i < len, f.download state data bytes (buffer + i) = data i := by
        intro i hi
        refine (CaField.download_of_not (hdata f hf) fun hwrites => ?_).trans (hbuffer i hi)
        obtain ⟨-, -, hne, hfrom, hto⟩ := hwrites
        have hside := hapart f hf hne
        omega
      rw [List.foldl_cons]
      have hvisit : CaMode.fromMbxdata.visit buffer state mbx bytes f =
          f.download state data bytes := hstep
      rw [hvisit]
      exact ih (fun g hg => hapart g (List.mem_cons_of_mem _ hg))
        (fun g hg => hread g (List.mem_cons_of_mem _ hg))
        (fun g hg => hdata g (List.mem_cons_of_mem _ hg)) hkept

end distribute

/-! ## What a pass visits -/

section visited

variable {f : CaField} {left size : ℕ}

lemma caFields_entry (h : f ∈ caFields o b left nsub size) : f.entry ∈ o.objdesc := by
  induction left generalizing nsub size with
  | zero => exact (List.not_mem_nil h).elim
  | succ left ih =>
      rw [caFields] at h
      cases hrow : o.objdesc[nsub]? with
      | none =>
          simp only [hrow] at h
          exact (List.not_mem_nil h).elim
      | some d =>
          simp only [hrow] at h
          rcases List.mem_cons.mp h with rfl | h
          · exact List.mem_of_getElem? hrow
          · split at h
            · exact (List.not_mem_nil h).elim
            · exact ih h

/-- A pass with a bound does not come to an entry behind it. -/
lemma caFields_start_lt (hb : 0 < b) (hsize : (size + 7) / 8 < b)
    (h : f ∈ caFields o b left nsub size) : f.start / 8 < b := by
  induction left generalizing nsub size with
  | zero => exact (List.not_mem_nil h).elim
  | succ left ih =>
      rw [caFields] at h
      cases hrow : o.objdesc[nsub]? with
      | none =>
          simp only [hrow] at h
          exact (List.not_mem_nil h).elim
      | some d =>
          simp only [hrow] at h
          rcases List.mem_cons.mp h with rfl | h
          · simp only [fieldStart]
            split
            · omega
            · omega
          · split at h
            · exact (List.not_mem_nil h).elim
            · exact ih (by omega) h

/-- It comes to every run of whole bytes that starts before the bound. -/
lemma mem_caFields_of_start_lt (hcount : ∀ d, o.objdesc[nsub]? = some d →
      d.bitlength.toNat ≤ o.fieldBits nsub d) (hwhole : f.Whole) (hstart : f.start / 8 < b)
    (h : f ∈ caFields o 0 left nsub size) : f ∈ caFields o b left nsub size := by
  induction left generalizing nsub size with
  | zero => exact (List.not_mem_nil h).elim
  | succ left ih =>
      rw [caFields] at h ⊢
      cases hrow : o.objdesc[nsub]? with
      | none =>
          simp only [hrow] at h
          exact (List.not_mem_nil h).elim
      | some d =>
          simp only [hrow] at h ⊢
          rw [if_neg (fun h : 0 < 0 ∧ _ => Nat.lt_irrefl _ h.1)] at h
          rcases List.mem_cons.mp h with rfl | h
          · exact List.mem_cons_self ..
          · obtain ⟨hfrom, -, haligned⟩ := (caFields_spread fun d _ => le_fieldBits_succ d).2 f h
            have hfirst := haligned hwhole
            rw [if_neg (by omega)]
            exact List.mem_cons_of_mem _ (ih (fun d _ => le_fieldBits_succ d) h)

/-- An entry that reaches beyond the bound is the last one it comes to. -/
lemma caFields_last (hcount : ∀ d, o.objdesc[nsub]? = some d →
      d.bitlength.toNat ≤ o.fieldBits nsub d) (hb : 0 < b) (hbeyond : 8 * b < f.start + f.bits)
    (h : f ∈ caFields o b left nsub size) : ∃ pre, caFields o b left nsub size = pre ++ [f] := by
  induction left generalizing nsub size with
  | zero => exact (List.not_mem_nil h).elim
  | succ left ih =>
      rw [caFields] at h ⊢
      cases hrow : o.objdesc[nsub]? with
      | none =>
          simp only [hrow] at h
          exact (List.not_mem_nil h).elim
      | some d =>
          simp only [hrow] at h ⊢
          rcases List.mem_cons.mp h with rfl | h
          · have hbits : d.bitlength.toNat ≤ o.fieldBits nsub d := hcount d hrow
            simp only [CaField.bits] at hbeyond
            rw [if_pos ⟨hb, by omega⟩]
            exact ⟨[], rfl⟩
          · split at h
            case isTrue => exact (List.not_mem_nil h).elim
            case isFalse hgo =>
              obtain ⟨pre, hpre⟩ := ih (fun d _ => le_fieldBits_succ d) h
              rw [if_neg hgo, hpre]
              exact ⟨_ :: pre, rfl⟩

lemma Objectlist.visited_sub (o : Objectlist) (nsub b : ℕ) :
    (o.visited nsub b).Sublist (o.fields nsub) := (caFields_prefixes b).sublist

end visited

/-! ## Requests -/

/-- The download request in the inbox carries `n` bytes of data: its header covers them. -/
def Mailbox.Carries (m : Mailbox) (n : ℕ) : Prop :=
  m.downloadData.2 + n ≤ escMbxhsize + (m.headerLength 0).toNat

instance (m : Mailbox) (n : ℕ) : Decidable (m.Carries n) := by
  unfold Mailbox.Carries
  infer_instance

/-- The inbox holds a request for the download of an object, from row `nsub` on, that announces
`b` bytes and carries them, or as many as fit.  The object has an image of at most 65535 bytes, and
`b` is not more; the mailboxes have room for a reply, and their size is far from the 32-bit limit.
-/
structure BringsObject (env : CoeEnv σ) (c : Coe σ) (o : Objectlist) (nsub b : ℕ) : Prop where
  accepted : CoeAccepted env.sys.opts c.mb
  service : c.mb.service = coeSdorequest
  held : c.mb.sdoHeld.active = false
  command : c.mb.sdoCommand &&& 0xe0 = coeCommandDownloadrequest
  complete : c.mb.sdoCommand &&& coeCompleteaccess = coeCompleteaccess
  lookup : completeAccessGetVariables env.sys.dict.table c.mb.sdoIndex c.mb.sdoSubindex =
    .ok (.ok (o, nsub))
  image : o.HasImage nsub
  bytes : c.mb.downloadData.1 = b
  carries : c.mb.Carries (min b (c.mb.mbxDsize - coeHeadersize))
  le : b ≤ o.imageSize nsub
  size : o.imageSize nsub ≤ 0xffff
  room : 16 ≤ c.mb.activembxsize
  room_lt : c.mb.activembxsize < 2 ^ 31

/-- The flags of the object are marked for Complete Access. -/
lemma completeAccessFlag_ne (flags : Word) :
    (flags ||| completeAccessFlag) &&& completeAccessFlag ≠ 0 := by
  have hself : (flags ||| completeAccessFlag) &&& completeAccessFlag = completeAccessFlag := by
    ext i hi
    simp only [BitVec.getElem_and, BitVec.getElem_or]
    cases flags[i] <;> cases completeAccessFlag[i] <;> rfl
  rw [hself]
  decide

/-- Complete Access starts at subindex 0 or 1. -/
lemma completeAccessGetVariables_le
    (h : completeAccessGetVariables env.sys.dict.table index subindex = .ok (.ok (o, nsub))) :
    subindex ≤ 1 := by
  rw [completeAccessGetVariables] at h
  split at h
  case isTrue => cases h
  case isFalse hle => exact BitVec.not_lt.mp hle

lemma sdoRequest_downloadComplete {m : Mailbox}
    (hcommand : m.sdoCommand &&& 0xe0 = coeCommandDownloadrequest)
    (hcomplete : m.sdoCommand &&& coeCompleteaccess = coeCompleteaccess) :
    sdoRequest (σ := σ) m = sdoDownloadCompleteAccess := by
  have hupload : ∀ b : Byte, b &&& 0xe0 = coeCommandDownloadrequest →
      ¬ b &&& 0xe0 = coeCommandUploadrequest := by decide
  have hsegment : ∀ b : Byte, b &&& 0xe0 = coeCommandDownloadrequest →
      ¬ b &&& 0xef = coeCommandUploadsegreq := by decide
  rw [sdoRequest, if_neg (fun h => hupload _ hcommand h.1),
    if_neg (fun h => hsegment _ hcommand h.1),
    if_pos hcommand, if_pos hcomplete]

/-- The response to a Complete Access download. -/
lemma wp_caDownloadResponse (hidle : c.mb.ReplyIdle env.sys.opts) (index : Word) (subindex : Byte)
    {Q : Unit → Coe σ → Prop}
    (hQ : ∀ n m', c.mb.Replied env.sys.opts m' n → m'.transfer = c.mb.transfer →
      m'.message n 8 = coeCommandDownloadresponse ||| coeCompleteaccess →
        Q () { c with mb := m' }) :
    wp env k (caDownloadResponse index subindex) Q c := by
  rw [caDownloadResponse]
  refine wp_claim_idle hidle fun n hn => ?_
  have hne : n ≠ 0 := Nat.pos_iff_ne_zero.mp hn.1
  rw [wp_bind, when, if_pos hne, downloadResponse, wp_coeModifyMb, setStateIdle, when,
    if_neg (not_not.mpr rfl), wp_bind, wp_pure, wp_coeModifyMb]
  have hprepared : c.mb.Prepared env.sys.opts (((c.mb.claim n).putSdo n coeDefaultlength
      coeSdoresponse (coeCommandDownloadresponse ||| coeCompleteaccess) index subindex).putSize n
        0) n := ⟨hn, rfl, rfl, rfl, rfl⟩
  refine hQ n _ hprepared.replied rfl ?_
  rw [Mailbox.message_release, Mailbox.message_putSize, Mailbox.message_putSdo,
    ByteStore.setDword_of_outside _ (.inl (by decide)), Mailbox.overSdo_command]

/-- What `SDO_download_complete_access` does with a request that is acceptable. -/
lemma BringsObject.dispatches (hooks : SdoHooksNeutral env.sys.cfg)
    (h : BringsObject env c o nsub b)
    {Q : Unit → Coe σ → Prop}
    (hQ : ∀ outside writes flags, wp env k
      (caDownloadAccepted c.mb.sdoIndex c.mb.sdoSubindex o nsub flags b c.mb.downloadData.2) Q
      ⟨outside, c.mb.taken, ⟨c.mem.bytes, writes, c.mem.wrapped⟩⟩) :
    wp env k escCoeprocess Q c := by
  have hsize := h.size
  have hle : o.imageSize nsub = (o.imageBits nsub + 7) / 8 := rfl
  have hlt : o.imageBits nsub + 7 < 2 ^ 32 := by omega
  obtain ⟨ho, hsub⟩ := completeAccessGetVariables_found h.lookup
  obtain ⟨first, hrow⟩ := sdoFindsubindex_row_zero hsub
  obtain ⟨r, hr⟩ := coeMaxSub_isOk ho hrow c.mem.bytes
  refine wp_escCoeprocess_request h.accepted h.service h.held ?_
  rw [sdoRequest_downloadComplete (by exact h.command) (by exact h.complete),
    sdoDownloadCompleteAccess, wp_bind, wp_coeMb, wp_bind, wp_coeTable, wp_bind, wp_lift]
  refine ⟨.ok (o, nsub), h.lookup, ?_⟩
  have hdata : c.mb.taken.downloadData = (b, c.mb.downloadData.2) := Prod.ext h.bytes rfl
  simp only [hdata]
  rw [wp_bind, wp_lift]
  refine ⟨first, hrow, ?_⟩
  rw [wp_bind]
  refine wp_completeAccessSubindexLoop ho.mem h.image hlt fun bits writes hbits => ?_
  rw [hbits rfl, bits2bytes_eq hlt, ← hle, if_neg (by omega), if_pos h.le, foldl_visit_size,
    wp_bind]
  have hunlocked : ¬ PdoLocked ⟨env.sys.dict.table, c.mem.bytes⟩ c.mb.sdoIndex c.mb.sdoSubindex
      (first.flags ||| completeAccessFlag) := by
    intro hlocked
    have hsub := hlocked.2.1
    rw [if_neg (completeAccessFlag_ne _)] at hsub
    exact absurd (completeAccessGetVariables_le h.lookup) (BitVec.not_le.mpr hsub)
  refine wp_escDownloadPreObjecthandler (by exact hr) (by exact hunlocked) fun a ha => ?_
  obtain ⟨hcode, hbytes⟩ : a.code = 0 ∧ a.bytes = c.mem.bytes := by
    rw [ha]
    exact preDownload_neutral hooks _ _ _ _ _ _ _
  rw [hcode, hbytes, if_neg (by decide)]
  exact hQ a.outside writes _

/-! ## One message -/

/-- A download in one message is distributed over the fields that it visits, and confirmed. -/
lemma BringsObject.stores_all (hooks : SdoHooksNeutral env.sys.cfg)
    (h : BringsObject env c o nsub b) (hall : b + coeHeadersize ≤ c.mb.mbxDsize) :
    wp env k escCoeprocess (fun _ c' =>
      c'.mem.bytes = distribute (env.alStatus.setWidth 8 &&& 0x0f)
        (c.mb.mbx.shift c.mb.downloadData.2) (o.visited nsub b) c.mem.bytes ∧
      ∃ n, c.mb.Replied env.sys.opts c'.mb n ∧
        c'.mb.message n 8 = coeCommandDownloadresponse ||| coeCompleteaccess) c := by
  have hsize := h.size
  have hle : o.imageSize nsub = (o.imageBits nsub + 7) / 8 := rfl
  have hlt : o.imageBits nsub + 7 < 2 ^ 32 := by omega
  obtain ⟨ho, -⟩ := completeAccessGetVariables_found h.lookup
  refine h.dispatches hooks fun outside writes flags => ?_
  rw [caDownloadAccepted, wp_bind, wp_ask, wp_bind, wp_coeMb,
    if_neg (Nat.not_lt.mpr (show b + coeHeadersize ≤ c.mb.taken.mbxDsize from hall)), wp_bind,
    wp_coeModifyMb, wp_bind]
  refine wp_completeAccessSubindexLoop ho.mem h.image hlt fun _ writes' _ => ?_
  rw [wp_bind]
  refine wp_escDownloadPostObjecthandler fun a ha => ?_
  obtain ⟨hcode, hbytes⟩ : a.code = 0 ∧ a.bytes = _ := by
    rw [ha]
    exact postDownload_neutral hooks _ _ _ _ _
  rw [hcode, hbytes, if_neg (not_not.mpr rfl)]
  have hidle : ({ c.mb.taken with segmented := 0 } : Mailbox).ReplyIdle env.sys.opts :=
    h.accepted.idle
  refine wp_caDownloadResponse (by exact hidle) _ _ fun n m' hreplied _ hcommand => ?_
  exact ⟨rfl, n, ⟨hreplied.idle, hreplied.control, hreplied.xoe, hreplied.txcue, hreplied.held,
    hreplied.size⟩, hcommand⟩

/-! ## Segments -/

/-- The data bytes of the first message of a download of an object. -/
def Mailbox.caStartData (m : Mailbox) : List Byte :=
  m.mbx.bytes m.downloadData.2 (m.mbxDsize - coeHeadersize)

/-- A download of an object in segments is under way: its first message and any number of
segments, none of them the last, have been handled, these bytes have come, and the buffer holds
them. -/
inductive CaRun (sys : System σ) (o : Objectlist) (nsub b : ℕ) (bytes₀ : ByteStore) :
    List Byte → Coe σ → Prop where
  /-- The first message. -/
  | start {status : Word} {c c' : Coe σ} (brings : BringsObject ⟨sys, status⟩ c o nsub b)
      (more : c.mb.mbxDsize < b + coeHeadersize)
      (accepts : b + sys.opts.preallocFactor * coeHeadersize ≤ sys.opts.preallocBufferSize)
      (before : c.mem.bytes = bytes₀) (pass : PassesTo ⟨sys, status⟩ c c') :
      CaRun sys o nsub b bytes₀ c.mb.caStartData c'
  /-- A segment. -/
  | segment {status : Word} {c₀ c c' : Coe σ} {received : List Byte}
      (run : CaRun sys o nsub b bytes₀ received c₀) (resumes : Resumes c₀ c)
      (brings : BringsSegment ⟨sys, status⟩ c) (more : ¬ c.mb.LastSegment)
      (inside : (received ++ c.mb.segmentData).length ≤ sys.opts.preallocBufferSize)
      (pass : PassesTo ⟨sys, status⟩ c c') :
      CaRun sys o nsub b bytes₀ (received ++ c.mb.segmentData) c'

/-- The state of a download of an object in segments: the bytes that have come are in the buffer,
and nothing else has changed. -/
structure CaReceived (sys : System σ) (o : Objectlist) (nsub b : ℕ) (bytes₀ : ByteStore)
    (received : List Byte) (c : Coe σ) : Prop where
  /-- It is the object that is looked up, and the row. -/
  lookup : completeAccessGetVariables sys.dict.table c.mb.index c.mb.subindex = .ok (.ok (o, nsub))
  image : o.HasImage nsub
  /-- The size of the object is not taken for an abort code. -/
  size : o.imageSize nsub ≤ 0xffff
  /-- The announced bytes are not more than the object has. -/
  le : b ≤ o.imageSize nsub
  /-- The next segment is stored behind the bytes that have come. -/
  data : c.mb.data = sys.mbxdata + received.length
  frags : c.mb.frags = b
  fragsleft : c.mb.fragsleft = received.length % 2 ^ 32
  flags : c.mb.flags = completeAccessFlag
  inside : received.length ≤ sys.opts.preallocBufferSize
  stored : c.mem.bytes.bytes sys.mbxdata received.length = received
  outside : AgreeOutside sys.mbxdata sys.opts.preallocBufferSize bytes₀ c.mem.bytes
  room : 16 ≤ c.mb.activembxsize

variable {received : List Byte} {bytes₀ : ByteStore}

/-- The first message stores what it carries in the buffer. -/
lemma BringsObject.stores_first (hooks : SdoHooksNeutral env.sys.cfg)
    (h : BringsObject env c o nsub b) (hmore : c.mb.mbxDsize < b + coeHeadersize)
    (haccepts : b + env.sys.opts.preallocFactor * coeHeadersize ≤ env.sys.opts.preallocBufferSize) :
    wp env k escCoeprocess (fun _ c' =>
      CaReceived env.sys o nsub b c.mem.bytes c.mb.caStartData c') c := by
  have hroom := h.room
  have hroom' := h.room_lt
  have hdsize : c.mb.mbxDsize = c.mb.activembxsize - 6 := Mailbox.mbxDsize_eq (by
    rw [escMbxhsize]
    omega) (by omega)
  have hlen : c.mb.caStartData.length = c.mb.mbxDsize - coeHeadersize := ByteStore.length_bytes ..
  have hfirst : sub32 c.mb.taken.mbxDsize coeHeadersize = c.mb.mbxDsize - coeHeadersize := by
    have htaken : c.mb.taken.mbxDsize = c.mb.mbxDsize := rfl
    simp only [htaken, sub32, coeHeadersize]
    omega
  have hinside : c.mb.mbxDsize - coeHeadersize ≤ env.sys.opts.preallocBufferSize := by
    omega
  have hmod : (c.mb.mbxDsize - coeHeadersize) % 2 ^ 32 = c.mb.mbxDsize - coeHeadersize := by
    simp only [coeHeadersize]
    omega
  refine h.dispatches hooks fun outside writes flags => ?_
  rw [caDownloadAccepted, wp_bind, wp_ask, wp_bind, wp_coeMb,
    if_pos (show c.mb.taken.mbxDsize < b + coeHeadersize from hmore),
    if_neg (Nat.not_lt.mpr haccepts), wp_bind, wp_coeModifyMb, wp_bind,
    wp_sdoStore env.sys.mbxdata_ne, hfirst]
  have hidle : c.mb.taken.ReplyIdle env.sys.opts := h.accepted.idle
  refine wp_caDownloadResponse (by exact hidle) _ _ fun n m' hreplied htransfer _ => ?_
  refine ⟨?_, h.image, h.size, h.le, (congrArg Transfer.data htransfer).trans ?_,
    congrArg Transfer.frags htransfer, (congrArg Transfer.fragsleft htransfer).trans ?_,
    congrArg Transfer.flags htransfer, hlen.symm ▸ hinside, ?_, ?_, hreplied.size.symm ▸ hroom⟩
  · rw [show m'.index = c.mb.sdoIndex from congrArg Transfer.index htransfer,
      show m'.subindex = c.mb.sdoSubindex from congrArg Transfer.subindex htransfer]
    exact h.lookup
  · rw [hlen]
    rfl
  · rw [hlen, hmod]
    rfl
  · rw [hlen]
    exact ByteStore.bytes_copy ..
  · exact fun a ha => ByteStore.copy_of_outside (by omega)

lemma CaReceived.resumes {sys : System σ} (h : CaReceived sys o nsub b bytes₀ received c)
    (resumes : Resumes c c') : CaReceived sys o nsub b bytes₀ received c' := by
  refine ⟨?_, h.image, h.size, h.le, (congrArg Transfer.data resumes.transfer).trans h.data,
    (congrArg Transfer.frags resumes.transfer).trans h.frags,
    (congrArg Transfer.fragsleft resumes.transfer).trans h.fragsleft,
    (congrArg Transfer.flags resumes.transfer).trans h.flags, h.inside,
    resumes.bytes.symm ▸ h.stored, resumes.bytes.symm ▸ h.outside, resumes.size.symm ▸ h.room⟩
  rw [show c'.mb.index = c.mb.index from congrArg Transfer.index resumes.transfer,
    show c'.mb.subindex = c.mb.subindex from congrArg Transfer.subindex resumes.transfer]
  exact h.lookup

/-- The last segment has all announced bytes: the object is looked up again, and the buffer is
distributed over it. -/
lemma wp_caDownloadLast {m : Mailbox} {size : ℕ}
    (haccepts : m.frags ≤ (m.fragsleft + size) % 2 ^ 32)
    (hlookup : completeAccessGetVariables env.sys.dict.table m.index m.subindex =
      .ok (.ok (o, nsub))) (himage : o.HasImage nsub) (hlt : o.imageBits nsub + 7 < 2 ^ 32)
    {Q : Bool → Coe σ → Prop}
    (hQ : ∀ writes, Q true ⟨c.outside, c.mb, ⟨(o.visited nsub m.frags).foldl
      (CaMode.fromMbxdata.visit env.sys.mbxdata (env.alStatus.setWidth 8 &&& 0x0f) c.mb.mbx)
        c.mem.bytes, writes, c.mem.wrapped⟩⟩) : wp env k (caDownloadLast m size) Q c := by
  obtain ⟨ho, hsub⟩ := completeAccessGetVariables_found hlookup
  obtain ⟨nidx, hfound, hobject⟩ := ho
  rw [caDownloadLast, if_neg (Nat.not_lt.mpr haccepts), wp_bind, wp_coeTable, wp_bind, wp_lift]
  refine ⟨some nidx, hfound, ?_⟩
  dsimp only
  rw [wp_bind, wp_lift]
  refine ⟨o, hobject, ?_⟩
  rw [wp_bind, wp_lift]
  refine ⟨some nsub, hsub, ?_⟩
  dsimp only
  rw [wp_bind]
  refine wp_completeAccessSubindexLoop (Finds.mem ⟨nidx, hfound, hobject⟩) himage hlt
    fun _ writes _ => ?_
  rw [wp_pure]
  exact hQ writes

section segment

variable (hreceived : CaReceived env.sys o nsub b bytes₀ received c) (h : BringsSegment env c)
  (hinside : (received ++ c.mb.segmentData).length ≤ env.sys.opts.preallocBufferSize)
include hreceived hinside

/-- The bytes of the segment are stored behind those that have come. -/
lemma CaReceived.stores_segment :
    (segmentStored c).bytes env.sys.mbxdata (received ++ c.mb.segmentData).length =
        received ++ c.mb.segmentData ∧
      AgreeOutside env.sys.mbxdata env.sys.opts.preallocBufferSize bytes₀ (segmentStored c) := by
  have hdata := hreceived.data
  have hlen : c.mb.segmentData.length = c.mb.segmentBytes := ByteStore.length_bytes ..
  rw [List.length_append, hlen] at hinside ⊢
  refine ⟨?_, fun a ha => ?_⟩
  · rw [ByteStore.bytes_add, ← hdata, segmentStored, ByteStore.bytes_copy,
      ByteStore.bytes_copy_of_outside (by omega), hreceived.stored]
    rfl
  · rw [segmentStored, ByteStore.copy_of_outside (by omega)]
    exact hreceived.outside a ha

include h

/-- A segment that is not the last one is stored behind those that have come. -/
lemma BringsSegment.stores_buffer (hmore : ¬ c.mb.LastSegment) :
    wp env k escCoeprocess (fun _ c' =>
      CaReceived env.sys o nsub b bytes₀ (received ++ c.mb.segmentData) c') c := by
  have hdata := hreceived.data
  have hbuffer := env.sys.mbxdata_ne
  have hlen : c.mb.segmentData.length = c.mb.segmentBytes := ByteStore.length_bytes ..
  obtain ⟨hstored, houtside⟩ := hreceived.stores_segment hinside
  refine wp_escCoeprocess_request h.accepted h.service h.held ?_
  rw [sdoRequest_downloadSegment (by exact h.command)]
  have hne : c.mb.data ≠ 0 := by omega
  have hfits := h.inside hreceived.room
  have hspec : wp env k sdoDownloadsegment _ ⟨c.outside, c.mb.taken, c.mem⟩ :=
    sdoDownloadsegment_more (by exact h.accepted.idle) (by exact hne) (by exact hreceived.room)
      (by exact hfits) (by exact hmore)
  refine hspec.mono fun _ c' ⟨_, ⟨⟨n, hreplied, _⟩, _⟩, _, hbytes, htransfer⟩ => ?_
  have hbytes' : c'.mem.bytes = segmentStored c := hbytes
  refine ⟨?_, hreceived.image, hreceived.size, hreceived.le,
    (congrArg Transfer.data htransfer).trans ?_,
    (congrArg Transfer.frags htransfer).trans hreceived.frags,
    ?_, (congrArg Transfer.flags htransfer).trans hreceived.flags, hinside, hbytes'.symm ▸ hstored,
    hbytes'.symm ▸ houtside, hreplied.size.symm ▸ hreceived.room⟩
  · rw [show c'.mb.index = c.mb.index from congrArg Transfer.index htransfer,
      show c'.mb.subindex = c.mb.subindex from congrArg Transfer.subindex htransfer]
    exact hreceived.lookup
  · rw [List.length_append, hlen, ← Nat.add_assoc, ← hdata]
    rfl
  · have hleft : c'.mb.fragsleft = (c.mb.fragsleft + c.mb.segmentBytes) % 2 ^ 32 :=
      congrArg Transfer.fragsleft htransfer
    rw [hleft, List.length_append, hlen, hreceived.fragsleft, Nat.mod_add_mod]

omit hinside in
/-- The last segment of a download that has all announced bytes: the buffer is distributed over
the fields that it visits. -/
lemma BringsSegment.distributes (hooks : SdoHooksNeutral env.sys.cfg) (hlast : c.mb.LastSegment)
    (haccepts : c.mb.frags ≤ (c.mb.fragsleft + c.mb.segmentBytes) % 2 ^ 32)
    (hapart : ∀ f ∈ o.visited nsub b, f.Apart env.sys.mbxdata env.sys.opts.preallocBufferSize)
    (hread : ∀ f ∈ o.visited nsub b, f.Whole → f.Writable (env.alStatus.setWidth 8 &&& 0x0f) →
      ∀ i < f.entry.size, f.start / 8 + i < env.sys.opts.preallocBufferSize)
    (hstorage : ∀ f ∈ o.visited nsub b, f.Writable (env.alStatus.setWidth 8 &&& 0x0f) →
      f.entry.data ≠ 0) :
    wp env k escCoeprocess (fun _ c' => c'.mem.bytes =
      distribute (env.alStatus.setWidth 8 &&& 0x0f) ((segmentStored c).shift env.sys.mbxdata)
        (o.visited nsub b) (segmentStored c)) c := by
  have hdata := hreceived.data
  have hbuffer := env.sys.mbxdata_ne
  have hsize := hreceived.size
  have hle : o.imageSize nsub = (o.imageBits nsub + 7) / 8 := rfl
  have hlt : o.imageBits nsub + 7 < 2 ^ 32 := by omega
  refine wp_escCoeprocess_request h.accepted h.service h.held ?_
  rw [sdoRequest_downloadSegment (by exact h.command)]
  have hne : c.mb.data ≠ 0 := by omega
  have hroom := h.inside hreceived.room
  have hflags : c.mb.flags = completeAccessFlag := hreceived.flags
  refine wp_sdoDownloadsegment (by exact h.accepted.idle) (by exact hne) (by exact hreceived.room)
    (by exact hroom) fun n m' writes wrapped hprepared htransfer hresponse => ?_
  rw [if_pos (show c.mb.taken.LastSegment from hlast),
    if_pos (show c.mb.taken.flags = completeAccessFlag from hflags), wp_bind]
  refine wp_caDownloadLast (m := c.mb.taken.claim n) (by exact haccepts) (by exact hreceived.lookup)
    hreceived.image hlt fun writes' => ?_
  rw [when, if_pos rfl, wp_bind, wp_coeModifyMb, wp_bind]
  refine wp_escDownloadPostObjecthandler fun a ha => ?_
  obtain ⟨hcode, hbytes⟩ : a.code = 0 ∧ a.bytes = _ := by
    rw [ha]
    exact postDownload_neutral hooks _ _ _ _ _
  have hfrags : (c.mb.taken.claim n).frags = b := hreceived.frags
  rw [hfrags] at hbytes
  rw [hcode, hbytes, if_neg (not_not.mpr rfl), wp_bind, wp_coeModifyMb]
  refine wp_setStateIdle_release ?_
  exact foldl_fromMbxdata hapart hread hstorage fun i _ => rfl

end segment

/-! ## A download -/

/-- A download of an object that is accepted: it announces `b` bytes, comes in one message or in
segments, and `data` are its bytes. -/
inductive CaDownloads (env : CoeEnv σ) (o : Objectlist) (nsub b : ℕ) (bytes₀ : ByteStore) :
    List Byte → Coe σ → Prop where
  /-- One message. -/
  | single {c c' : Coe σ} (brings : BringsObject env c o nsub b)
      (all : b + coeHeadersize ≤ c.mb.mbxDsize) (before : c.mem.bytes = bytes₀)
      (pass : PassesTo env c c') :
      CaDownloads env o nsub b bytes₀ (c.mb.mbx.bytes c.mb.downloadData.2 b) c'
  /-- The last of several segments. -/
  | segmented {c₀ c c' : Coe σ} {received : List Byte}
      (run : CaRun env.sys o nsub b bytes₀ received c₀) (resumes : Resumes c₀ c)
      (brings : BringsSegment env c) (last : c.mb.LastSegment)
      (inside : (received ++ c.mb.segmentData).length ≤ env.sys.opts.preallocBufferSize)
      (accepts : c.mb.frags ≤ (c.mb.fragsleft + c.mb.segmentBytes) % 2 ^ 32)
      (pass : PassesTo env c c') :
      CaDownloads env o nsub b bytes₀ (received ++ c.mb.segmentData) c'

/-- The bytes that have come are in the buffer, and the variables are as they were. -/
lemma CaRun.stored {sys : System σ} (hooks : SdoHooksNeutral sys.cfg)
    (run : CaRun sys o nsub b bytes₀ received c) : CaReceived sys o nsub b bytes₀ received c := by
  induction run with
  | @start status c c' brings more accepts before pass =>
      have hfirst (k : ℕ) : wp ⟨sys, status⟩ k escCoeprocess (fun _ c' =>
          CaReceived sys o nsub b c.mem.bytes c.mb.caStartData c') c :=
        brings.stores_first hooks more accepts
      have h := pass.of_wp hfirst
      rw [before] at h
      exact h
  | @segment status c₀ c c' received run resumes brings more inside pass ih =>
      have hnext (k : ℕ) : wp ⟨sys, status⟩ k escCoeprocess (fun _ c' =>
          CaReceived sys o nsub b bytes₀ (received ++ c.mb.segmentData) c') c :=
        BringsSegment.stores_buffer (ih.resumes resumes) brings inside more
      exact pass.of_wp hnext

/-- The state in which access is checked. -/
def CoeEnv.state (env : CoeEnv σ) : Byte := env.alStatus.setWidth 8 &&& 0x0f

/-- The storage of the entries that may be written is there. -/
lemma visited_data_ne (hlookup : completeAccessGetVariables env.sys.dict.table index subindex =
    .ok (.ok (o, nsub))) (f : CaField) (hf : f ∈ o.visited nsub b) {state : Byte}
    (hwrite : f.Writable state) : f.entry.data ≠ 0 :=
  env.sys.dict.data_ne (completeAccessGetVariables_found hlookup).1.mem (caFields_entry hf) hwrite

/-- A download is distributed over the fields that it visits, if those that it writes lie within
the announced bytes. -/
lemma CaDownloads.distributes {data : List Byte} (hooks : SdoHooksNeutral env.sys.cfg)
    (h : CaDownloads env o nsub b bytes₀ data c')
    (hlookup : completeAccessGetVariables env.sys.dict.table index subindex = .ok (.ok (o, nsub)))
    (hapart : ∀ f ∈ o.fields nsub, f.Apart env.sys.mbxdata env.sys.opts.preallocBufferSize)
    (hreach : ∀ f ∈ o.visited nsub b, f.Whole → f.Writable env.state →
      ∀ i < f.entry.size, f.start / 8 + i < b) :
    ∃ src : ByteStore, (∀ p < b, data[p]? = some (src p)) ∧
      ∀ a, a < env.sys.mbxdata ∨ env.sys.mbxdata + env.sys.opts.preallocBufferSize ≤ a →
        c'.mem.bytes a = distribute env.state src (o.visited nsub b) bytes₀ a := by
  have hstorage (f : CaField) (hf : f ∈ o.visited nsub b) (hwrite : f.Writable env.state) :=
    visited_data_ne hlookup f hf hwrite
  cases h with
  | @single c _ brings all before pass =>
      have hbytes := (pass.of_wp fun _ => brings.stores_all hooks all).1
      refine ⟨c.mb.mbx.shift c.mb.downloadData.2, fun p hp => ByteStore.getElem?_bytes hp,
        fun a _ => ?_⟩
      rw [hbytes, before]
      rfl
  | @segmented c₀ c _ received run resumes brings last inside accepts pass =>
      have hreceived := (run.stored hooks).resumes resumes
      obtain ⟨hstored, houtside⟩ := hreceived.stores_segment inside
      have hlen : c.mb.segmentData.length = c.mb.segmentBytes := ByteStore.length_bytes ..
      have hcount : b ≤ (received ++ c.mb.segmentData).length := by
        rw [hreceived.frags, hreceived.fragsleft, Nat.mod_add_mod] at accepts
        rw [List.length_append, hlen]
        exact Nat.le_trans accepts (Nat.mod_le _ _)
      have hbytes := pass.of_wp
        fun _ => BringsSegment.distributes hreceived brings hooks last accepts
        (fun f hf => hapart f ((o.visited_sub nsub b).subset hf))
        (fun f hf hwhole hwrite i hi => by
          have hlt := hreach f hf hwhole hwrite i hi
          omega) hstorage
      refine ⟨(segmentStored c).shift env.sys.mbxdata, fun p hp => ?_, fun a ha => ?_⟩
      · rw [← hstored]
        exact ByteStore.getElem?_bytes (by omega)
      · rw [hbytes]
        exact distribute_congr hstorage (houtside a ha)

/-! ## Any request in one message -/

/-- An SDO request with these fields, and with this data behind them. -/
def requestMessage (length : ℕ) (command : Byte) (index : Word) (subindex : Byte) (size : ℕ)
    (data : ByteStore) : ByteStore :=
  (Mailbox.overSdo (fun i => data (i - Mailbox.dataOffset)) length coeSdorequest command index
    subindex).setDword Mailbox.sizeOffset (.ofNat 32 size)

/-- The mailboxes, of `room` bytes each, with this request in the inbox. -/
def requestMailbox (room length : ℕ) (command : Byte) (index : Word) (subindex : Byte) (size : ℕ)
    (data : ByteStore) : Mailbox :=
  { exampleMailbox [] with
    mbx := requestMessage length command index subindex size data
    activembxsize := room }

section request

variable {room length size : ℕ} {command : Byte} {data : ByteStore}

open ByteStore in
lemma requestMessage_data (p : ℕ) :
    requestMessage length command index subindex size data (Mailbox.dataOffset + p) = data p := by
  show requestMessage length command index subindex size data (16 + p) = data p
  have hp : 16 + p - 16 = p := Nat.add_sub_cancel_left ..
  simp (disch := omega) only [requestMessage, Mailbox.overSdo, Mailbox.sizeOffset,
    Mailbox.dataOffset, setDword_of_outside, setWord_of_outside, set_of_ne, hp]

lemma requestMailbox_sdoCommand :
    (requestMailbox room length command index subindex size data).sdoCommand = command := by
  show requestMessage length command index subindex size data 8 = command
  rw [requestMessage, ByteStore.setDword_of_outside _ (.inl (by decide)), Mailbox.overSdo_command]

open ByteStore in
/-- The fields are those of the request. -/
lemma requestMailbox_fields (hlength : length < 2 ^ 16) (hsize : size < 2 ^ 32) :
    (requestMailbox room length command index subindex size data).sdoIndex = index ∧
    (requestMailbox room length command index subindex size data).sdoSubindex = subindex ∧
    (requestMailbox room length command index subindex size data).sdoSize.toNat = size ∧
    ((requestMailbox room length command index subindex size data).headerLength 0).toNat = length ∧
    (requestMailbox room length command index subindex size data).mbxtype 0 = mbxcoe ∧
    (requestMailbox room length command index subindex size data).service = coeSdorequest := by
  have hbuffer : (requestMailbox room length command index subindex size data).buffer 0 = 0 :=
    Nat.zero_mul _
  refine ⟨?_, ?_, ?_, ?_, ?_, ?_⟩
  · show (requestMessage length command index subindex size data).word 9 = index
    simp (disch := omega) only [requestMessage, Mailbox.overSdo, Mailbox.sizeOffset,
      word_setDword_of_disjoint, word_set_of_disjoint, word_setWord]
  · show requestMessage length command index subindex size data 11 = subindex
    rw [requestMessage, setDword_of_outside _ (.inl (by decide)), Mailbox.overSdo, set_self]
  · show ((requestMessage length command index subindex size data).dword 12).toNat = size
    rw [requestMessage, dword_setDword, BitVec.toNat_ofNat, Nat.mod_eq_of_lt hsize]
  · rw [Mailbox.headerLength, hbuffer]
    show ((requestMessage length command index subindex size data).word 0).toNat = length
    simp (disch := omega) only [requestMessage, Mailbox.overSdo, Mailbox.sizeOffset,
      word_setDword_of_disjoint, word_set_of_disjoint, word_setWord_of_disjoint, word_setWord,
      BitVec.toNat_ofNat]
    omega
  · rw [Mailbox.mbxtype, hbuffer]
    show requestMessage length command index subindex size data 5 &&& 0x0f = mbxcoe
    have hnibble : ∀ x : Byte, (x &&& 0xf0 ||| mbxcoe) &&& 0x0f = mbxcoe := by decide
    simp (disch := omega) only [requestMessage, Mailbox.overSdo, Mailbox.sizeOffset,
      setDword_of_outside, setWord_of_outside, set_of_ne, set_self]
    exact hnibble _
  · rw [Mailbox.service]
    show (requestMessage length command index subindex size data).word 6 >>> 12 = coeSdorequest
    simp (disch := omega) only [requestMessage, Mailbox.overSdo, Mailbox.sizeOffset,
      word_setDword_of_disjoint, word_set_of_disjoint, word_setWord_of_disjoint, word_setWord]
    rfl

/-- The request is taken. -/
lemma requestMailbox_accepted {opts : Options} (hbuffers : 1 < opts.mbxBuffers)
    (hlength : coeHeadersize ≤ length) (hlt : length < 2 ^ 16) (hsize : size < 2 ^ 32)
    (hroom : escMbxhsize + coeHeadersize ≤ room) :
    CoeAccepted opts (requestMailbox room length command index subindex size data) := by
  obtain ⟨-, -, -, hheader, htype, -⟩ :=
    @requestMailbox_fields index subindex room length size command data hlt hsize
  refine ⟨rfl, rfl, rfl, htype, ?_, ⟨1, by decide, hbuffers, rfl⟩, hroom⟩
  rw [hheader]
  exact Nat.le_trans (by decide) hlength

end request

/-- The mailboxes with a download of `b` bytes of an object, as large as it needs. -/
def caMailbox (index : Word) (subindex : Byte) (b : ℕ) (data : ByteStore) : Mailbox :=
  requestMailbox (escMbxhsize + coeHeadersize + b) (coeHeadersize + b)
    (coeCommandDownloadrequest ||| coeCompleteaccess ||| coeSizeIndicator) index subindex b data

section message

variable {data : ByteStore}

lemma caMailbox_downloadData (hb : coeHeadersize + b < 2 ^ 16) :
    (caMailbox index subindex b data).downloadData = (b, Mailbox.dataOffset) := by
  obtain ⟨-, -, hsize, -⟩ := @requestMailbox_fields index subindex
    (escMbxhsize + coeHeadersize + b) (coeHeadersize + b) b
    (coeCommandDownloadrequest ||| coeCompleteaccess ||| coeSizeIndicator) data (by omega)
    (by omega)
  rw [Mailbox.downloadData, caMailbox, requestMailbox_sdoCommand, hsize, if_neg (by decide),
    Nat.mod_eq_of_lt (by omega)]

/-- The message asks for the download of the object. -/
lemma caMailbox_brings (hbuffers : 1 < env.sys.opts.mbxBuffers)
    (hlookup : completeAccessGetVariables env.sys.dict.table index subindex = .ok (.ok (o, nsub)))
    (himage : o.HasImage nsub) (hsize : o.imageSize nsub ≤ 0xffff) (hb : b ≤ o.imageSize nsub)
    (hone : coeHeadersize + b < 2 ^ 16) (outside : σ) (mem : Memory) :
    BringsObject env ⟨outside, caMailbox index subindex b data, mem⟩ o nsub b := by
  have hroom : (caMailbox index subindex b data).activembxsize = 16 + b := rfl
  obtain ⟨hindex, hsub, -, hheader, -, hservice⟩ := @requestMailbox_fields index subindex
    (escMbxhsize + coeHeadersize + b) (coeHeadersize + b) b
    (coeCommandDownloadrequest ||| coeCompleteaccess ||| coeSizeIndicator) data (by omega)
    (by omega)
  have hcommand : (caMailbox index subindex b data).sdoCommand =
      coeCommandDownloadrequest ||| coeCompleteaccess ||| coeSizeIndicator :=
    requestMailbox_sdoCommand
  have hdownload := @caMailbox_downloadData b index subindex data (by omega)
  constructor
  case accepted =>
    exact requestMailbox_accepted hbuffers (by simp only [coeHeadersize]; omega) (by omega)
      (by omega) (by simp only [coeHeadersize]; omega)
  case service => exact hservice
  case held => rfl
  case command => rw [hcommand]; decide
  case complete => rw [hcommand]; decide
  case lookup =>
    rw [show (caMailbox index subindex b data).sdoIndex = index from hindex,
      show (caMailbox index subindex b data).sdoSubindex = subindex from hsub]
    exact hlookup
  case image => exact himage
  case bytes => rw [hdownload]
  case carries =>
    have hlength : ((caMailbox index subindex b data).headerLength 0).toNat = coeHeadersize + b :=
      hheader
    show (caMailbox index subindex b data).downloadData.2 + min b _ ≤
      escMbxhsize + ((caMailbox index subindex b data).headerLength 0).toNat
    rw [hdownload, hlength]
    simp only [Mailbox.dataOffset, escMbxhsize, coeHeadersize]
    omega
  case le => exact hb
  case size => exact hsize
  case room => exact hroom.symm ▸ Nat.le_add_right 16 b
  case room_lt =>
    show (caMailbox index subindex b data).activembxsize < 2 ^ 31
    omega

lemma caMailbox_data (hb : coeHeadersize + b < 2 ^ 16) :
    (caMailbox index subindex b data).mbx.shift Mailbox.dataOffset = data ∧
      b + coeHeadersize ≤ (caMailbox index subindex b data).mbxDsize := by
  have hroom : (caMailbox index subindex b data).activembxsize = escMbxhsize + coeHeadersize + b :=
    rfl
  refine ⟨funext fun p => requestMessage_data p, ?_⟩
  rw [Mailbox.mbxDsize_eq (by omega) (by simp only [hroom, escMbxhsize, coeHeadersize]; omega),
    hroom]
  omega

end message

/-- Whatever the data, and whatever the variables, there is a download of so many bytes. -/
lemma exists_download [Nonempty σ] (hooks : SdoHooksNeutral env.sys.cfg)
    (hbuffers : 1 < env.sys.opts.mbxBuffers)
    (hlookup : completeAccessGetVariables env.sys.dict.table index subindex = .ok (.ok (o, nsub)))
    (himage : o.HasImage nsub) (hsize : o.imageSize nsub ≤ 0xffff) (hb : b ≤ o.imageSize nsub)
    (hone : coeHeadersize + b < 2 ^ 16) (data bytes₀ : ByteStore) :
    ∃ c', CaDownloads env o nsub b bytes₀ (data.bytes 0 b) c' ∧
      c'.mem.bytes = distribute env.state data (o.visited nsub b) bytes₀ := by
  obtain ⟨outside⟩ := ‹Nonempty σ›
  obtain ⟨hdata, hall⟩ := @caMailbox_data b index subindex data hone
  have haddress : (caMailbox index subindex b data).downloadData.2 = Mailbox.dataOffset :=
    congrArg Prod.snd (caMailbox_downloadData hone)
  have hbrings := @caMailbox_brings σ env o nsub b index subindex data hbuffers hlookup himage hsize
    hb hone outside ⟨bytes₀, [], false⟩
  obtain ⟨_, c', hrun, hbytes, -⟩ := (hbrings.stores_all hooks hall : wp env 0 _ _ _)
  have hdownload := CaDownloads.single hbrings hall rfl ⟨0, hrun⟩
  refine ⟨c', ?_, ?_⟩
  · rw [haddress, ← Nat.add_zero Mailbox.dataOffset, ← ByteStore.bytes_shift, hdata] at hdownload
    exact hdownload
  · rw [haddress, hdata] at hbytes
    exact hbytes

/-! ## Short downloads -/

/-- A download of `b` bytes writes only what it carries: every byte outside the buffer that
changes is one of the object's entries, at a position below `b`, and is the byte of the message
there. -/
def WritesOnlyData (env : CoeEnv σ) (o : Objectlist) (nsub b : ℕ) : Prop :=
  ∀ bytes₀ data c', CaDownloads env o nsub b bytes₀ data c' →
    ∀ a, a < env.sys.mbxdata ∨ env.sys.mbxdata + env.sys.opts.preallocBufferSize ≤ a →
      c'.mem.bytes a ≠ bytes₀ a → ∃ f ∈ o.fields nsub, f.Stores a ∧ f.position a < b ∧
        data[f.position a]? = some (c'.mem.bytes a)

/-- No run of whole bytes that may be written, and that the download comes to, reaches beyond the
`b` bytes. -/
def StaysBelow (env : CoeEnv σ) (o : Objectlist) (nsub b : ℕ) : Prop :=
  ∀ f ∈ o.fields nsub, f.Whole → f.Writable env.state → 0 < f.entry.size →
    b = 0 ∨ f.start / 8 < b → f.start / 8 + f.entry.size ≤ b

instance (env : CoeEnv σ) (o : Objectlist) (nsub b : ℕ) : Decidable (StaysBelow env o nsub b) := by
  unfold StaysBelow
  infer_instance

/-- Zeros below `b`, ones from there on. -/
def onesFrom (b : ℕ) : ByteStore := fun i => if i < b then 0 else 0xff

lemma onesFrom_of_le {i : ℕ} (h : b ≤ i) : onesFrom b i = 0xff := if_neg (Nat.not_lt.mpr h)

lemma onesFrom_of_lt {i : ℕ} (h : i < b) : onesFrom b i = 0 := if_pos h

/-- A run of whole bytes that a download comes to and that reaches beyond it is the last one that it
comes to, unless it carries nothing. -/
lemma visited_beyond (himage : o.HasImage nsub) (hlt : o.imageBits nsub + 7 < 2 ^ 32) {f : CaField}
    (hf : f ∈ o.fields nsub) (hwhole : f.Whole) (hcomes : b = 0 ∨ f.start / 8 < b)
    (hbeyond : b < f.start / 8 + f.entry.size) :
    ∃ pre post, o.visited nsub b = pre ++ f :: post ∧ ∀ g ∈ post, b = 0 := by
  by_cases hzero : b = 0
  · rw [hzero]
    obtain ⟨pre, post, hsplit⟩ := List.append_of_mem hf
    exact ⟨pre, post, hsplit, fun _ _ => rfl⟩
  · obtain ⟨hto, haligned⟩ := himage.spread.2 f hf
    have hsize := f.size_eq (by omega)
    have hstart := haligned hwhole
    have hbefore : f.start / 8 < b := by omega
    have hmem : f ∈ o.visited nsub b :=
      mem_caFields_of_start_lt himage.le_fieldBits hwhole hbefore hf
    rw [CaField.Whole] at hwhole
    obtain ⟨pre, hsplit⟩ := caFields_last himage.le_fieldBits (by omega) (by omega) hmem
    exact ⟨pre, [], hsplit, fun g hg => (List.not_mem_nil hg).elim⟩

/-- **A short download writes only what it carries** if none of the runs of whole bytes that it
comes to, and that may be written, reaches beyond what it carries.  It comes to those that start
before that, and to all of them if it carries nothing.  If one message can carry the bytes, then
there is a download that writes more otherwise. -/
theorem short_download_iff [Nonempty σ] (hooks : SdoHooksNeutral env.sys.cfg)
    (hbuffers : 1 < env.sys.opts.mbxBuffers)
    (hlookup : completeAccessGetVariables env.sys.dict.table index subindex = .ok (.ok (o, nsub)))
    (himage : o.HasImage nsub) (hsize : o.imageSize nsub ≤ 0xffff) (hb : b ≤ o.imageSize nsub)
    (hapart : ∀ f ∈ o.fields nsub, f.Apart env.sys.mbxdata env.sys.opts.preallocBufferSize) :
    (StaysBelow env o nsub b → WritesOnlyData env o nsub b) ∧
      (coeHeadersize + b < 2 ^ 16 → WritesOnlyData env o nsub b → StaysBelow env o nsub b) := by
  have hvisited (f : CaField) (hf : f ∈ o.visited nsub b) : b = 0 ∨ f.start / 8 < b := by
    by_cases hzero : b = 0
    · exact .inl hzero
    · exact .inr (caFields_start_lt (by omega) (by omega) hf)
  have hlt : o.imageBits nsub + 7 < 2 ^ 32 := by
    rw [Objectlist.imageSize] at hsize
    omega
  refine ⟨fun hinside => ?_, fun hone hwrites => ?_⟩
  rotate_left
  · intro f hf hwhole hwritable hpos hcomes
    by_contra hbeyond
    obtain ⟨c', hdownload, hbytes⟩ := exists_download hooks hbuffers hlookup himage hsize hb hone
      (onesFrom b) fun _ => 0
    obtain ⟨pre, post, hsplit, hpost⟩ :=
      visited_beyond himage hlt hf hwhole hcomes (Nat.not_le.mp hbeyond)
    have hstorage (g : CaField) (hg : g ∈ o.visited nsub b) (hwrite : g.Writable env.state) :=
      visited_data_ne hlookup g hg hwrite
    rw [hsplit] at hstorage hbytes
    have hdata := hstorage f (List.mem_append_right _ (List.mem_cons_self ..)) hwritable
    have hstores : f.Stores (f.entry.data + (b - f.start / 8)) :=
      ⟨hdata, Nat.le_add_right .., by omega⟩
    have hposition : b ≤ f.position (f.entry.data + (b - f.start / 8)) := by
      rw [CaField.position]
      omega
    generalize f.entry.data + (b - f.start / 8) = a at hstores hposition
    have hchanged : c'.mem.bytes a = 0xff := by
      have hwritten : distribute env.state (onesFrom b) (pre ++ f :: post) (fun _ => 0) a =
          onesFrom b (f.position a) := distribute_written
        (fun g hg => hstorage g (List.mem_append_right _ (List.mem_cons_of_mem _ hg)))
        ⟨hwhole, hwritable, hstores⟩ fun g hg _ => by
          have hzero := hpost g hg
          rw [onesFrom_of_le hposition, onesFrom_of_le (by omega)]
      rw [hbytes, hwritten, onesFrom_of_le hposition]
    have hsides := hapart f hf hdata
    have haddress : a < env.sys.mbxdata ∨
        env.sys.mbxdata + env.sys.opts.preallocBufferSize ≤ a := by
      obtain ⟨-, hfrom, hto⟩ := hstores
      omega
    obtain ⟨g, -, -, hcarried, hbyte⟩ := hwrites _ _ c' hdownload a haddress (by
      rw [hchanged]
      decide)
    rw [ByteStore.getElem?_bytes hcarried, hchanged, Nat.zero_add, onesFrom_of_lt hcarried] at hbyte
    exact absurd (Option.some.inj hbyte) (by decide)
  · intro bytes₀ data c' hdownload a haddress hchanged
    have hstorage (g : CaField) (hg : g ∈ o.visited nsub b) (hwrite : g.Writable env.state) :=
      visited_data_ne hlookup g hg hwrite
    have hfield (f : CaField) (hf : f ∈ o.visited nsub b) := (o.visited_sub nsub b).subset hf
    obtain ⟨src, hsrc, hbytes⟩ := hdownload.distributes hooks hlookup hapart
      fun f hf hwhole hwritable i hi => by
        have hend := hinside f (hfield f hf) hwhole hwritable (by omega) (hvisited f hf)
        omega
    rw [hbytes a haddress] at hchanged ⊢
    obtain ⟨f, hf, ⟨hwhole, hwritable, hstores⟩, hbyte⟩ := distribute_changed hstorage hchanged
    have hposition : f.position a < b := by
      obtain ⟨-, hfrom, hto⟩ := hstores
      have hend := hinside f (hfield f hf) hwhole hwritable (by omega) (hvisited f hf)
      rw [CaField.position]
      omega
    refine ⟨f, hfield f hf, hstores, hposition, ?_⟩
    rw [hsrc _ hposition, hbyte]

/-- A record with one entry of four bytes, at byte 2 of the image. -/
def shortObject : Objectlist :=
  { index := 0x7030, objtype := 9, maxsub := 1, name := []
    objdesc :=
      [constEntry 0 dtypeUnsigned8 8 1,
       { subindex := 1, datatype := dtypeUnsigned32, bitlength := 32, flags := 0x3f, name := []
         value := 0, data := 0x200 }] }

/-- A dictionary with this object alone. -/
def shortDictionary : Dictionary where
  objects := [shortObject]
  ascending := by decide
  below_sentinel := by decide
  storage := by decide +kernel

/-- The example device with this dictionary, in PREOP. -/
def shortDevice : CoeEnv ByteStore := ⟨{ exampleSystem with dict := shortDictionary }, 2⟩

/-- An expedited download of three bytes, one of which is the first of the entry. -/
def shortRequest : Coe ByteStore :=
  ⟨fun _ => 0, exampleMailbox (sdoMessage 0x37 0x7030 0 [1, 0, 0x11, 0x22]),
    ⟨fun _ => 0, [], false⟩⟩

lemma shortObject_image : shortObject.HasImage 0 := by
  refine ⟨⟨fun first hfirst => ?_, fun _ _ first hfirst => ?_⟩, by decide, by decide⟩
  · cases hfirst
    decide
  · cases hfirst
    decide

lemma shortRequest_brings : BringsObject shortDevice shortRequest shortObject 0 3 := by
  constructor
  case accepted =>
    exact ⟨rfl, rfl, rfl, by decide, by decide, ⟨1, by decide, by decide, rfl⟩, by decide⟩
  case image => exact shortObject_image
  case held => rfl
  case lookup => rfl
  all_goals decide

lemma shortObject_apart : ∀ f ∈ shortObject.fields 0,
    f.Apart shortDevice.sys.mbxdata shortDevice.sys.opts.preallocBufferSize := by
  have hall : ∀ f ∈ shortObject.fields 0, f.entry.data + f.entry.size ≤ 0x1000 := by decide
  exact fun f hf _ => .inl (hall f hf)

lemma shortDevice_neutral : SdoHooksNeutral shortDevice.sys.cfg := exampleCfg_neutral

/-- A download of two bytes, those of subindex 0, leaves the entry alone, and one of six bytes
writes the whole of it. -/
theorem short_download_example : WritesOnlyData shortDevice shortObject 0 2 ∧
    WritesOnlyData shortDevice shortObject 0 6 := by
  have below {b : ℕ} (hb : b ≤ shortObject.imageSize 0)
    (h : StaysBelow shortDevice shortObject 0 b) :
      WritesOnlyData shortDevice shortObject 0 b :=
    (@short_download_iff _ _ _ _ b 0x7030 0 _ shortDevice_neutral (by decide) rfl shortObject_image
      (by decide) hb shortObject_apart).1 h
  exact ⟨below (by decide) (by decide), below (by decide) (by decide)⟩

/-- A short download writes what it does not carry: the byte behind the three that it announces
goes to the entry as well. -/
theorem short_download_overwrites : ¬ ∀ (env : CoeEnv ByteStore) (o : Objectlist) (nsub b : ℕ)
    (index : Word) (subindex : Byte), SdoHooksNeutral env.sys.cfg → 1 < env.sys.opts.mbxBuffers →
    completeAccessGetVariables env.sys.dict.table index subindex = .ok (.ok (o, nsub)) →
    o.HasImage nsub → o.imageSize nsub ≤ 0xffff → b ≤ o.imageSize nsub →
    (∀ f ∈ o.fields nsub, f.Apart env.sys.mbxdata env.sys.opts.preallocBufferSize) →
    WritesOnlyData env o nsub b := by
  intro h
  have hwrites := h shortDevice shortObject 0 3 0x7030 0 shortDevice_neutral (by decide) rfl
    shortObject_image (by decide) (by decide) shortObject_apart
  have hseen : (escCoeprocess shortDevice 0 shortRequest).seen (fun c' => c'.mem.bytes 0x201) =
      some 0x22 := by decide +kernel
  obtain ⟨_, c', hrun, -⟩ :=
    (shortRequest_brings.stores_all shortDevice_neutral (by decide) : wp shortDevice 0 _ _ _)
  rw [hrun] at hseen
  have hbyte : c'.mem.bytes 0x201 = 0x22 := Option.some.inj hseen
  obtain ⟨f, hf, hstores, hposition, -⟩ := hwrites _ _ c'
    (.single shortRequest_brings (by decide) rfl ⟨0, hrun⟩) 0x201 (.inl (by decide)) (by
      rw [hbyte]
      decide)
  have hall : ∀ f ∈ shortObject.fields 0, f.Stores 0x201 → ¬ f.position 0x201 < 3 := by decide
  exact hall f hf hstores hposition

end Soes
