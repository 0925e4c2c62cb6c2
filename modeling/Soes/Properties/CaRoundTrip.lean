import Soes.Properties.CaDownload

/-!
# Complete Access round trip

What was downloaded to an object is uploaded again: a download of its full size gives every entry
that may be written its part of the data, and the upload that follows collects the entries at the
same positions.

The two directions of `complete_access_subindex_loop` differ in one kind of entry.  An upload packs
bit types, and a download passes over them: it is confirmed, and the bits are lost.  The round trip
also fails where two entries share their storage, since the one written last decides.
`ca_round_trip_iff` says that nothing else goes wrong: the round trip succeeds exactly if no entry
that may be read and written is a bit type, and no entry is written over that should keep its value
(`RoundTripsCleanly`).  `bits_not_downloaded` is an object with a bit type.
-/

namespace Soes

open Program

variable {σ : Type} {env : CoeEnv σ} {k : ℕ} {c c' : Coe σ} {o : Objectlist} {nsub b : ℕ}
  {index : Word} {subindex : Byte} {m m' : Mailbox} {bytes bytes₀ : ByteStore}

/-! ## Bits of a message -/

/-- Bit `i` of a list of bytes. -/
def bitAt (data : List Byte) (i : ℕ) : Bool := (data[i / 8]?.getD 0).getLsbD (i % 8)

lemma bitAt_bytes {start len i : ℕ} (h : i < 8 * len) :
    bitAt (bytes.bytes start len) i = bytes.bit (8 * start + i) := by
  have hbyte : (8 * start + i) / 8 = start + i / 8 := by omega
  have hbit : (8 * start + i) % 8 = i % 8 := by omega
  rw [bitAt, ByteStore.getElem?_bytes (by omega), ByteStore.bit, hbyte, hbit]
  rfl

/-! ## A master that uploads the object -/

/-- A master uploads the object: if the reply does not carry the announced size, it collects the
rest in segments.  `Q` holds of the bytes read and the variables. -/
def ReadsObject (env : CoeEnv σ) (o : Objectlist) (nsub : ℕ) (bytes : ByteStore)
    (Q : List Byte → ByteStore → Prop) : Prop :=
  ∀ c k, AsksObject env c o nsub → 24 ≤ c.mb.activembxsize → c.mem.bytes = bytes →
    wp env k escCoeprocess (fun _ c' => ∃ n, c.mb.Replied env.sys.opts c'.mb n ∧
      if (uploadValue (c'.mb.message n)).2.length = (uploadValue (c'.mb.message n)).1 then
        Q (uploadValue (c'.mb.message n)).2 c'.mem.bytes
      else ∃ fuel, Collects env Q fuel false (uploadValue (c'.mb.message n)).2 c'.mb
        c'.mem.bytes) c

/-- It reads what the upload has collected. -/
lemma reads_object (hooks : SdoHooksNeutral env.sys.cfg) (hentries : o.HasEntries nsub)
    (hfits : o.FitsBuffer env.sys.opts nsub) :
    ReadsObject env o nsub bytes fun got _ => o.imageBits nsub ≠ 0 →
      got = (o.uploaded nsub env.sys.mbxdata env.state bytes).bytes env.sys.mbxdata
        (o.imageSize nsub) := by
  intro c k h hroom hbytes
  have hsize := hfits.size
  have hbuffer := env.sys.mbxdata_ne
  refine (h.uploads hooks hentries hfits).mono fun _ c' hthen => ?_
  obtain ⟨hstored, n, hreplied, -, hannounced, hempty, hvalue, huploading⟩ := hthen
  refine ⟨n, hreplied, ?_⟩
  rw [hbytes] at hstored
  by_cases hzero : o.imageBits nsub = 0
  · rw [if_pos (hempty hzero)]
    exact fun hne => (hne hzero).elim
  · rw [if_neg hzero] at hannounced
    rw [hannounced, hvalue hzero, ByteStore.length_bytes]
    by_cases hall : firstUpload c.mb.activembxsize (o.imageSize nsub) = o.imageSize nsub
    · rw [if_pos hall, hall, hstored]
      exact fun _ => rfl
    · have hle := firstUpload_le c.mb.activembxsize (o.imageSize nsub)
      have hlt : firstUpload c.mb.activembxsize (o.imageSize nsub) < o.imageSize nsub := by omega
      rw [if_neg hall]
      refine ⟨o.imageSize nsub, collects_rest (d := storageAt env.sys.mbxdata) hooks hbuffer
        (by omega) (huploading hlt) hlt (Nat.sub_le _ _) (hreplied.size.symm ▸ hroom)
        (hreplied.size.symm ▸ h.room_lt) fun _ => ?_⟩
      rw [hstored]
      rfl

lemma Collects.mono {Q Q' : List Byte → ByteStore → Prop} {fuel : ℕ} {toggle : Bool}
    {got : List Byte} (h : Collects env Q fuel toggle got m bytes)
    (hQ : ∀ all bytes', Q all bytes' → Q' all bytes') :
    Collects env Q' fuel toggle got m bytes := by
  induction fuel generalizing toggle got m bytes with
  | zero => exact h
  | succ fuel ih =>
      refine Exchange.mono h fun reply command m' bytes' ⟨hcommand, htoggle, hnext⟩ =>
        ⟨hcommand, htoggle, ?_⟩
      by_cases hlast : (segmentValue reply).1 = true
      · rw [if_pos hlast] at hnext ⊢
        exact hQ _ _ hnext
      · rw [if_neg hlast] at hnext ⊢
        exact ih hnext

lemma ReadsObject.mono {Q Q' : List Byte → ByteStore → Prop}
    (h : ReadsObject env o nsub bytes Q) (hQ : ∀ all bytes', Q all bytes' → Q' all bytes') :
    ReadsObject env o nsub bytes Q' := by
  intro c k hasks hroom hbytes
  refine (h c k hasks hroom hbytes).mono fun _ c' ⟨n, hreplied, hread⟩ => ⟨n, hreplied, ?_⟩
  by_cases hall : (uploadValue (c'.mb.message n)).2.length = (uploadValue (c'.mb.message n)).1
  · rw [if_pos hall] at hread ⊢
    exact hQ _ _ hread
  · rw [if_neg hall] at hread ⊢
    obtain ⟨fuel, hcollects⟩ := hread
    exact ⟨fuel, hcollects.mono hQ⟩

/-- A request for a segment can arrive at any mailboxes. -/
lemma exists_arrives (opts : Options) (hbuffers : 1 < opts.mbxBuffers) (m : Mailbox)
    (toggle : Bool) : ∃ m', m.Arrives opts m' (.uploadSegment toggle) := by
  have hfields := @requestMailbox_fields 0 0 m.activembxsize coeHeadersize 0
    (coeCommandUploadsegreq ||| toggleBit toggle) (fun _ => 0) (by decide) (by decide)
  have hcommand := @requestMailbox_sdoCommand 0 0 m.activembxsize coeHeadersize 0
    (coeCommandUploadsegreq ||| toggleBit toggle) (fun _ => 0)
  generalize hrequest : requestMailbox m.activembxsize coeHeadersize
    (coeCommandUploadsegreq ||| toggleBit toggle) 0 0 0 (fun _ => 0) = request at hfields hcommand
  obtain ⟨-, -, -, hlength, htype, hservice⟩ := hfields
  have hready : request.mbxRun = true ∧ request.xoe = 0 ∧ request.control 0 = .inclaim ∧
      request.ReplyIdle opts ∧ request.sdoHeld.active = false ∧
      request.activembxsize = m.activembxsize := by
    rw [← hrequest]
    exact ⟨rfl, rfl, rfl, ⟨1, by decide, hbuffers, rfl⟩, rfl, rfl⟩
  obtain ⟨hrun, hxoe, hinclaim, hidle, hheld, hsize⟩ := hready
  exact ⟨{ request with
      segmented := m.segmented, data := m.data, frags := m.frags, fragsleft := m.fragsleft
      index := m.index, subindex := m.subindex, flags := m.flags },
    ⟨htype, hservice, hlength, hcommand, trivial⟩, hrun, hxoe, hinclaim, hidle, hheld, hsize, rfl⟩

/-- Two accounts of one exchange are about the same reply. -/
lemma Mailbox.Answers.unique {opts : Options} {command command' : Byte} {reply reply' : ByteStore}
    (h : m.Answers opts m' command reply) (h' : m.Answers opts m' command' reply') :
    reply = reply' ∧ command = command' := by
  obtain ⟨⟨n, hreplied, hreply⟩, hresponse⟩ := h
  obtain ⟨⟨n', hreplied', hreply'⟩, hresponse'⟩ := h'
  have hsame : reply = reply' := by rw [hreply, hreply', hreplied.unique hreplied']
  exact ⟨hsame, hresponse.command.symm.trans (hsame ▸ hresponse'.command)⟩

/-- Two accounts of the segments that are collected are about the same bytes. -/
lemma Collects.meet [Nonempty σ] (hbuffers : 1 < env.sys.opts.mbxBuffers)
    {Q Q' : List Byte → ByteStore → Prop} {fuel fuel' : ℕ} {toggle : Bool} {got : List Byte}
    (h : Collects env Q fuel toggle got m bytes) (h' : Collects env Q' fuel' toggle got m bytes) :
    ∃ all bytes', Q all bytes' ∧ Q' all bytes' := by
  obtain ⟨outside⟩ := ‹Nonempty σ›
  induction fuel generalizing fuel' toggle got m bytes with
  | zero => exact h.elim
  | succ fuel ih =>
      cases fuel' with
      | zero => exact h'.elim
      | succ fuel' =>
          obtain ⟨m', harrives⟩ := exists_arrives env.sys.opts hbuffers m toggle
          obtain ⟨_, c', hrun, reply, command, hanswers, -, -, hnext⟩ :=
            h outside m' ⟨bytes, [], false⟩ 0 harrives rfl
          obtain ⟨reply', command', hanswers', -, -, hnext'⟩ :=
            (h' outside m' ⟨bytes, [], false⟩ 0 harrives rfl).wlp _ c' hrun
          obtain ⟨rfl, rfl⟩ := hanswers.unique hanswers'
          by_cases hlast : (segmentValue reply).1 = true
          · rw [if_pos hlast] at hnext hnext'
            exact ⟨_, _, hnext, hnext'⟩
          · rw [if_neg hlast] at hnext hnext'
            exact ih hnext hnext'

section request

variable (hbuffers : 1 < env.sys.opts.mbxBuffers)
  (hlookup : completeAccessGetVariables env.sys.dict.table index subindex = .ok (.ok (o, nsub)))
include hbuffers hlookup

/-- There is a request for the upload of the object. -/
lemma exists_asksObject [Nonempty σ] (bytes : ByteStore) :
    ∃ c, AsksObject env c o nsub ∧ 24 ≤ c.mb.activembxsize ∧ c.mem.bytes = bytes := by
  obtain ⟨outside⟩ := ‹Nonempty σ›
  have hfields := @requestMailbox_fields index subindex 256 coeHeadersize 0
    (coeCommandUploadrequest ||| coeCompleteaccess) (fun _ => 0) (by decide) (by decide)
  have hcommand := @requestMailbox_sdoCommand index subindex 256 coeHeadersize 0
    (coeCommandUploadrequest ||| coeCompleteaccess) (fun _ => 0)
  have haccepted : CoeAccepted env.sys.opts (requestMailbox 256 coeHeadersize
      (coeCommandUploadrequest ||| coeCompleteaccess) index subindex 0 fun _ => 0) :=
    requestMailbox_accepted hbuffers (Nat.le_refl _) (by decide) (by decide) (by decide)
  have hroom : (requestMailbox 256 coeHeadersize (coeCommandUploadrequest ||| coeCompleteaccess)
      index subindex 0 fun _ => 0).activembxsize = 256 := rfl
  have hheld : (requestMailbox 256 coeHeadersize (coeCommandUploadrequest ||| coeCompleteaccess)
      index subindex 0 fun _ => 0).sdoHeld.active = false := rfl
  generalize requestMailbox 256 coeHeadersize (coeCommandUploadrequest ||| coeCompleteaccess) index
    subindex 0 (fun _ => 0) = request at hfields hcommand haccepted hroom hheld
  obtain ⟨hindex, hsub, -, hlength, -, hservice⟩ := hfields
  refine ⟨⟨outside, request, ⟨bytes, [], false⟩⟩, ?_, ?_, rfl⟩
  · constructor
    case accepted => exact haccepted
    case service => exact hservice
    case held => exact hheld
    case command => rw [hcommand]; decide
    case complete => rw [hcommand]; decide
    case length => exact hlength
    case lookup => rw [hindex, hsub]; exact hlookup
    case room => rw [hroom]; decide
    case room_lt => rw [hroom]; decide
  · rw [hroom]
    decide

/-- What a master is said to read is what the upload has collected. -/
lemma ReadsObject.exists_collected [Nonempty σ] (hooks : SdoHooksNeutral env.sys.cfg)
    (hentries : o.HasEntries nsub) (hfits : o.FitsBuffer env.sys.opts nsub)
    {Q : List Byte → ByteStore → Prop} (h : ReadsObject env o nsub bytes Q)
    (hpos : o.imageBits nsub ≠ 0) :
    ∃ bytes', Q ((o.uploaded nsub env.sys.mbxdata env.state bytes).bytes env.sys.mbxdata
      (o.imageSize nsub)) bytes' := by
  obtain ⟨c, hasks, hroom, hbytes⟩ := exists_asksObject hbuffers hlookup bytes
  obtain ⟨_, c', hrun, n, hreplied, hread⟩ := h c 0 hasks hroom hbytes
  obtain ⟨n', hreplied', hread'⟩ :=
    (reads_object hooks hentries hfits c 0 hasks hroom hbytes).wlp _ c' hrun
  rw [← hreplied.unique hreplied'] at hread'
  by_cases hall :
      (uploadValue (c'.mb.message n)).2.length = (uploadValue (c'.mb.message n)).1
  · rw [if_pos hall] at hread hread'
    rw [hread' hpos] at hread
    exact ⟨_, hread⟩
  · rw [if_neg hall] at hread hread'
    obtain ⟨_, hcollects⟩ := hread
    obtain ⟨_, hcollects'⟩ := hread'
    obtain ⟨got, bytes', hQ, hgot⟩ := hcollects.meet hbuffers hcollects'
    rw [hgot hpos] at hQ
    exact ⟨bytes', hQ⟩

end request

/-! ## The round trip -/

/-- A download of the full size is what an upload returns, in every entry that may be read and
written; an entry that may not be written keeps its value. -/
def ObjectRoundTrips (env : CoeEnv σ) (o : Objectlist) (nsub : ℕ) : Prop :=
  ∀ bytes₀ data c', CaDownloads env o nsub (o.imageSize nsub) bytes₀ data c' →
    (∀ f ∈ o.fields nsub, ¬ f.Writable env.state → ∀ i, f.Covers i →
      f.value i c'.mem.bytes = f.value i bytes₀) ∧
    ReadsObject env o nsub c'.mem.bytes fun got _ =>
      ∀ f ∈ o.fields nsub, f.Readable env.state → f.Writable env.state → ∀ i, f.Covers i →
        bitAt got i = bitAt data i

/-- Two entries share a byte of their storage. -/
def CaField.Shares (f g : CaField) : Prop := ∃ a, f.Stores a ∧ g.Stores a

/-- Every entry keeps its value: no bit type may be read and written, and no run of whole bytes
that may be written shares its storage with an entry that is written before or not at all. -/
structure RoundTripsCleanly (fields : List CaField) (state : Byte) : Prop where
  /-- An entry that may be read and written is a run of whole bytes. -/
  whole : ∀ f ∈ fields, f.Readable state → f.Writable state → f.Whole
  /-- It is not written over by an entry behind it. -/
  behind : ∀ f ∈ fields, f.Readable state → f.Writable state → ∀ g ∈ fields, g.Whole →
    g.Writable state → f.start < g.start → ¬ f.Shares g
  /-- An entry that may not be written is not written over. -/
  kept : ∀ f ∈ fields, ¬ f.Writable state → ∀ g ∈ fields, g.Whole → g.Writable state → ¬ f.Shares g

/-- An object that is found, and that fits the buffer, has an image. -/
lemma Objectlist.FitsBuffer.hasImage (h : o.FitsBuffer env.sys.opts nsub)
    (hlookup : completeAccessGetVariables env.sys.dict.table index subindex = .ok (.ok (o, nsub)))
    (hentries : o.HasEntries nsub) : o.HasImage nsub :=
  ⟨hentries, (sdoFindsubindex_found (completeAccessGetVariables_found hlookup).2).1, h.rows⟩

section value

variable {f : CaField} {i : ℕ}

/-- The byte of the storage that has a bit of the value. -/
lemma CaField.stores_of_covers (hlt : f.bits + 7 < 2 ^ 32) (hdata : f.entry.data ≠ 0)
    (hcovers : f.Covers i) : f.Stores (f.entry.data + (i - f.start) / 8) := by
  obtain ⟨hfrom, hto⟩ := hcovers
  have hsize := f.size_eq hlt
  exact ⟨hdata, Nat.le_add_right .., by omega⟩

lemma CaField.value_of_data (hdata : f.entry.data ≠ 0) :
    f.value i bytes =
      (bytes (f.entry.data + (i - f.start) / 8)).getLsbD ((i - f.start) % 8) := by
  rw [value, Objd.source, if_pos hdata]
  rfl

/-- An entry whose storage is kept keeps its value. -/
lemma CaField.value_kept (hlt : f.bits + 7 < 2 ^ 32) (hcovers : f.Covers i) {bytes' : ByteStore}
    (hkept : ∀ a, f.Stores a → bytes' a = bytes a) : f.value i bytes' = f.value i bytes := by
  by_cases hdata : f.entry.data = 0
  · rw [value, value, Objd.source, Objd.source, if_neg (not_not.mpr hdata),
      if_neg (not_not.mpr hdata)]
  · rw [value_of_data hdata, value_of_data hdata, hkept _ (stores_of_covers hlt hdata hcovers)]

/-- The position of the byte of a run of whole bytes that has a bit. -/
lemma CaField.position_of_covers (hwhole : f.Whole → f.start % 8 = 0) (hw : f.Whole)
    (hcovers : f.Covers i) :
    f.position (f.entry.data + (i - f.start) / 8) = i / 8 ∧ (i - f.start) % 8 = i % 8 := by
  have hstart := hwhole hw
  have hfrom := hcovers.1
  rw [position]
  omega

end value

section clean

variable (hlookup : completeAccessGetVariables env.sys.dict.table index subindex =
    .ok (.ok (o, nsub))) (himage : o.HasImage nsub) (hsize : o.imageSize nsub ≤ 0xffff)
  (hapart : ∀ f ∈ o.fields nsub, f.Apart env.sys.mbxdata env.sys.opts.preallocBufferSize)
include hlookup himage hsize hapart

/-- A download of the full size stays within the image. -/
lemma CaDownloads.distributes_all {data : List Byte} (hooks : SdoHooksNeutral env.sys.cfg)
    (h : CaDownloads env o nsub (o.imageSize nsub) bytes₀ data c') :
    ∃ src : ByteStore, (∀ p < o.imageSize nsub, data[p]? = some (src p)) ∧
      ∀ a, a < env.sys.mbxdata ∨ env.sys.mbxdata + env.sys.opts.preallocBufferSize ≤ a →
        c'.mem.bytes a =
          distribute env.state src (o.visited nsub (o.imageSize nsub)) bytes₀ a := by
  refine h.distributes hooks hlookup hapart fun f hf hwhole _ i hi => ?_
  obtain ⟨hto, haligned⟩ := himage.spread.2 f ((o.visited_sub nsub _).subset hf)
  rw [Objectlist.imageSize] at hsize ⊢
  have hbytes := f.size_eq (by omega)
  have hstart := haligned hwhole
  rw [CaField.Whole] at hwhole
  omega

/-- The value of an entry that is written is its part of the data, if no entry behind it writes
over it. -/
lemma distribute_value {f : CaField} (hf : f ∈ o.fields nsub) (hwhole : f.Whole)
    (hwritable : f.Writable env.state)
    (hbehind : ∀ g ∈ o.fields nsub, g.Whole → g.Writable env.state → f.start < g.start →
      ¬ f.Shares g) {src : ByteStore}
    (hbytes : ∀ a, a < env.sys.mbxdata ∨ env.sys.mbxdata + env.sys.opts.preallocBufferSize ≤ a →
      c'.mem.bytes a = distribute env.state src (o.visited nsub (o.imageSize nsub)) bytes₀ a)
    {i : ℕ} (hcovers : f.Covers i) : f.value i c'.mem.bytes = (src (i / 8)).getLsbD (i % 8) := by
  have hlt : o.imageBits nsub + 7 < 2 ^ 32 := by
    rw [Objectlist.imageSize] at hsize
    omega
  obtain ⟨hto, haligned⟩ := himage.spread.2 f hf
  have hend := hcovers.2
  have hstart : f.start / 8 < o.imageSize nsub := by
    have hfrom := hcovers.1
    rw [Objectlist.imageSize]
    omega
  have hmem : f ∈ o.visited nsub (o.imageSize nsub) :=
    mem_caFields_of_start_lt himage.le_fieldBits hwhole hstart hf
  have hdata := visited_data_ne hlookup f hmem hwritable
  have hstores := CaField.stores_of_covers (by omega) hdata hcovers
  obtain ⟨hposition, hoff⟩ := CaField.position_of_covers haligned hwhole hcovers
  have houtside : f.entry.data + (i - f.start) / 8 < env.sys.mbxdata ∨
      env.sys.mbxdata + env.sys.opts.preallocBufferSize ≤ f.entry.data + (i - f.start) / 8 := by
    have hsides := hapart f hf hdata
    obtain ⟨-, hfrom, hto⟩ := hstores
    omega
  have hstorage (g : CaField) (hg : g ∈ o.visited nsub (o.imageSize nsub))
      (hwrite : g.Writable env.state) := visited_data_ne hlookup g hg hwrite
  obtain ⟨pre, post, hsplit⟩ := List.append_of_mem hmem
  have hspread := himage.spread.1.sublist (o.visited_sub nsub (o.imageSize nsub))
  rw [hsplit] at hstorage hbytes hspread
  have hpost (g : CaField) (hg : g ∈ post) : f.start + f.bits ≤ g.start :=
    List.rel_of_pairwise_cons (List.pairwise_append.mp hspread).2.1 hg
  rw [CaField.value_of_data hdata, hbytes _ houtside, hoff, ← hposition, distribute_written
    (fun g hg => hstorage g (List.mem_append_right _ (List.mem_cons_of_mem _ hg)))
    ⟨hwhole, hwritable, hstores⟩ fun g hg hwrites => ?_]
  have hg' : g ∈ o.fields nsub := by
    refine (o.visited_sub nsub (o.imageSize nsub)).subset ?_
    rw [hsplit]
    exact List.mem_append_right _ (List.mem_cons_of_mem _ hg)
  have hfrom := hcovers.1
  have hshares := hbehind g hg' hwrites.1 hwrites.2.1 (by
    have hbefore := hpost g hg
    omega)
  exact (hshares ⟨_, hstores, hwrites.2.2⟩).elim

end clean

/-! ## When it fails -/

section position

variable {f g : CaField} {a a' i : ℕ}

/-- A run of whole bytes has all bits of the byte at which a byte of its storage stands. -/
lemma CaField.covers_of_position (hlt : f.bits + 7 < 2 ^ 32) (haligned : f.Whole → f.start % 8 = 0)
    (hwhole : f.Whole) (hstores : f.Stores a) (hi : i / 8 = f.position a) : f.Covers i := by
  obtain ⟨-, hfrom, hto⟩ := hstores
  have hsize := f.size_eq hlt
  have hstart := haligned hwhole
  rw [Whole] at hwhole
  rw [position] at hi
  constructor
  · omega
  · omega

/-- The first bit of a byte of the storage. -/
lemma CaField.covers_of_stores (hlt : f.bits + 7 < 2 ^ 32) (hstores : f.Stores a) :
    f.Covers (f.start + 8 * (a - f.entry.data)) ∧
      f.entry.data + (f.start + 8 * (a - f.entry.data) - f.start) / 8 = a ∧
      (f.start + 8 * (a - f.entry.data) - f.start) % 8 = 0 := by
  obtain ⟨-, hfrom, hto⟩ := hstores
  have hsize := f.size_eq hlt
  refine ⟨⟨Nat.le_add_right .., ?_⟩, ?_, ?_⟩
  · omega
  · omega
  · omega

end position

section failing

variable [Nonempty σ] (hooks : SdoHooksNeutral env.sys.cfg)
  (hbuffers : 1 < env.sys.opts.mbxBuffers)
  (hlookup : completeAccessGetVariables env.sys.dict.table index subindex = .ok (.ok (o, nsub)))
  (himage : o.HasImage nsub) (hsize : o.imageSize nsub ≤ 0xffff)
  (hone : coeHeadersize + o.imageSize nsub < 2 ^ 16)
include hooks hbuffers hlookup himage hsize hone

/-- A byte that is written for an entry, where all the data but possibly that of an entry before
it is ones. -/
lemma exists_overwritten {g : CaField} (hg : g ∈ o.fields nsub) (hwhole : g.Whole)
    (hwritable : g.Writable env.state) {a : ℕ} (hstores : g.Stores a) {data : ByteStore}
    (hdata : ∀ h ∈ o.fields nsub, g.start ≤ h.start → h.Writes env.state a →
      data (h.position a) = 0xff) :
    ∃ c', CaDownloads env o nsub (o.imageSize nsub) (fun _ => 0)
      (data.bytes 0 (o.imageSize nsub)) c' ∧ c'.mem.bytes a = 0xff := by
  obtain ⟨c', hdownload, hbytes⟩ := exists_download hooks hbuffers hlookup himage hsize
    (Nat.le_refl _) hone data fun _ => 0
  refine ⟨c', hdownload, ?_⟩
  have hlt : o.imageBits nsub + 7 < 2 ^ 32 := by
    rw [Objectlist.imageSize] at hsize
    omega
  obtain ⟨hto, haligned⟩ := himage.spread.2 g hg
  have hstart : g.start / 8 < o.imageSize nsub := by
    have hcovers := (CaField.covers_of_stores (by omega) hstores).1.2
    rw [Objectlist.imageSize]
    omega
  have hmem : g ∈ o.visited nsub (o.imageSize nsub) :=
    mem_caFields_of_start_lt himage.le_fieldBits hwhole hstart hg
  have hstorage (h : CaField) (hh : h ∈ o.visited nsub (o.imageSize nsub))
      (hwrite : h.Writable env.state) := visited_data_ne hlookup h hh hwrite
  obtain ⟨pre, post, hsplit⟩ := List.append_of_mem hmem
  have hspread := himage.spread.1.sublist (o.visited_sub nsub (o.imageSize nsub))
  have hfields (h : CaField) (hh : h ∈ post) : h ∈ o.fields nsub := by
    refine (o.visited_sub nsub (o.imageSize nsub)).subset ?_
    rw [hsplit]
    exact List.mem_append_right _ (List.mem_cons_of_mem _ hh)
  rw [hsplit] at hstorage hbytes hspread
  have hwrites : g.Writes env.state a := ⟨hwhole, hwritable, hstores⟩
  have hones := hdata g hg (Nat.le_refl _) hwrites
  rw [hbytes, distribute_written
    (fun h hh => hstorage h (List.mem_append_right _ (List.mem_cons_of_mem _ hh))) hwrites
      fun h hh hwrites' => ?_, hones]
  have hbehind : g.start + g.bits ≤ h.start :=
    List.rel_of_pairwise_cons (List.pairwise_append.mp hspread).2.1 hh
  rw [hones, hdata h (hfields h hh) (by omega) hwrites']

/-- An entry that may not be written and that is written over does not keep its value. -/
lemma ObjectRoundTrips.kept (h : ObjectRoundTrips env o nsub) {f g : CaField}
    (hf : f ∈ o.fields nsub)
    (hnot : ¬ f.Writable env.state) (hg : g ∈ o.fields nsub) (hwhole : g.Whole)
    (hwritable : g.Writable env.state) : ¬ f.Shares g := by
  rintro ⟨a, hfa, hga⟩
  have hlt : o.imageBits nsub + 7 < 2 ^ 32 := by
    rw [Objectlist.imageSize] at hsize
    omega
  have hto := (himage.spread.2 f hf).1
  obtain ⟨c', hdownload, hbyte⟩ := @exists_overwritten σ env o nsub index subindex _ hooks hbuffers
    hlookup himage hsize hone g hg hwhole hwritable a hga (fun _ => 0xff) fun _ _ _ _ => rfl
  obtain ⟨hcovers, haddress, hoff⟩ := CaField.covers_of_stores (by omega) hfa
  have hvalue := (h _ _ c' hdownload).1 f hf hnot _ hcovers
  rw [CaField.value_of_data hfa.1, CaField.value_of_data hfa.1, haddress, hoff, hbyte] at hvalue
  exact absurd hvalue (by decide)

section uploaded

variable (hapart : ∀ f ∈ o.fields nsub, f.Apart env.sys.mbxdata env.sys.opts.preallocBufferSize)
  (hfits : o.FitsBuffer env.sys.opts nsub) (h : ObjectRoundTrips env o nsub)
include hapart hfits h

omit hone in
/-- What the round trip says of one bit of the upload. -/
lemma ObjectRoundTrips.uploadedBit_eq {data : ByteStore} (hdownload : CaDownloads env o nsub
      (o.imageSize nsub) bytes₀ (data.bytes 0 (o.imageSize nsub)) c') {f : CaField}
    (hf : f ∈ o.fields nsub) (hreadable : f.Readable env.state) (hwritable : f.Writable env.state)
    {i : ℕ} (hcovers : f.Covers i) :
    uploadedBit env.state i (fun f => f.value i c'.mem.bytes) (o.fields nsub)
      (if i / 8 = 1 then false else c'.mem.bytes.bit (8 * env.sys.mbxdata + i)) = data.bit i := by
  have hend := hcovers.2
  have hto := (himage.spread.2 f hf).1
  have hle : o.imageSize nsub = (o.imageBits nsub + 7) / 8 := rfl
  have hin : i < 8 * o.imageSize nsub := by omega
  have hinside := hfits.fits
  obtain ⟨_, hgot⟩ := ReadsObject.exists_collected hbuffers hlookup hooks himage.toHasEntries
    hfits (h _ _ c' hdownload).2 (by omega)
  have hbit := hgot f hf hreadable hwritable i hcovers
  rw [bitAt_bytes hin, bitAt_bytes hin, Objectlist.bit_uploaded
    (himage.fits (by omega) (by omega) hapart)
    (env.sys.opts.two_le_preallocBufferSize (by omega)) fun _ _ => rfl, Nat.mul_zero,
    Nat.zero_add] at hbit
  exact hbit

/-- An entry that may be read and written is a run of whole bytes: a bit type is not written. -/
lemma ObjectRoundTrips.whole {f : CaField} (hf : f ∈ o.fields nsub)
    (hreadable : f.Readable env.state)
    (hwritable : f.Writable env.state) : f.Whole := by
  by_contra hbits
  have hlt : o.imageBits nsub + 7 < 2 ^ 32 := by
    rw [Objectlist.imageSize] at hsize
    omega
  have hpos : f.bits % 8 ≠ 0 := hbits
  have hcovers : f.Covers f.start := ⟨Nat.le_refl _, by omega⟩
  -- ones in the byte where the entry starts, zeros elsewhere
  obtain ⟨c', hdownload, hbytes⟩ := exists_download hooks hbuffers hlookup himage hsize
    (Nat.le_refl _) hone (fun p => if p = f.start / 8 then 0xff else 0) fun _ => 0
  have hzero (a : ℕ) : c'.mem.bytes a = 0 := by
    by_contra hchanged
    rw [hbytes] at hchanged
    obtain ⟨g, hg, ⟨hwhole, -, hstores⟩, hbyte⟩ := distribute_changed
      (fun g hg hwrite => visited_data_ne hlookup g hg hwrite) hchanged
    have hg' := (o.visited_sub nsub (o.imageSize nsub)).subset hg
    rw [hbyte] at hchanged
    by_cases hsame : g.position a = f.start / 8
    · obtain ⟨hto, haligned⟩ := himage.spread.2 g hg'
      have hgi := CaField.covers_of_position (by omega) haligned hwhole hstores hsame.symm
      rw [covers_unique himage.spread.1 hf hg' hcovers hgi] at hbits
      exact hbits hwhole
    · exact hchanged (if_neg hsame)
  have hall : c'.mem.bytes = fun _ => 0 := funext hzero
  have hbit := ObjectRoundTrips.uploadedBit_eq hooks hbuffers hlookup himage hsize hapart hfits h
    hdownload hf hreadable hwritable hcovers
  have hdata : f.entry.data ≠ 0 :=
    env.sys.dict.data_ne (completeAccessGetVariables_found hlookup).1.mem (caFields_entry hf)
      hwritable
  have hnone (j : ℕ) : (0 : Byte).getLsbD j = false := BitVec.getLsbD_zero
  have hclear (p : ℕ) : ByteStore.bit (fun _ => 0) p = false := hnone _
  rw [uploadedBit_part himage.spread.1 hf ⟨hbits, rfl, hcovers⟩, hall, hclear, ite_self, ite_self,
    Bool.false_or, CaField.value_of_data hdata, hnone, Bool.and_false, ByteStore.bit,
    if_pos rfl] at hbit
  have hones : ∀ j : Fin 8, (0xff : Byte).getLsbD j = true := by decide
  rw [hones ⟨f.start % 8, Nat.mod_lt _ (by decide)⟩] at hbit
  cases hbit

/-- An entry that is written over by one behind it does not keep its value. -/
lemma ObjectRoundTrips.behind {f g : CaField} (hf : f ∈ o.fields nsub)
    (hreadable : f.Readable env.state)
    (hwritable : f.Writable env.state) (hg : g ∈ o.fields nsub) (hwhole : g.Whole)
    (hwritable' : g.Writable env.state) (hlt : f.start < g.start) : ¬ f.Shares g := by
  rintro ⟨a, hfa, hga⟩
  have hbits : o.imageBits nsub + 7 < 2 ^ 32 := by
    rw [Objectlist.imageSize] at hsize
    omega
  have hwholef := ObjectRoundTrips.whole hooks hbuffers hlookup himage hsize hone hapart hfits h hf
    hreadable hwritable
  obtain ⟨hto, haligned⟩ := himage.spread.2 f hf
  have hcovers : f.Covers (8 * f.position a) :=
    CaField.covers_of_position (by omega) haligned hwholef hfa (by omega)
  -- zero at the byte of the entry, ones elsewhere
  obtain ⟨c', hdownload, hbyte⟩ := @exists_overwritten σ env o nsub index subindex _ hooks hbuffers
    hlookup himage hsize hone g hg hwhole hwritable' a hga
    (fun p => if p = f.position a then 0 else 0xff) fun g' hg' hbehind hwrites => by
      refine if_neg fun hsame => ?_
      obtain ⟨hto', haligned'⟩ := himage.spread.2 g' hg'
      have hcovers' : g'.Covers (8 * f.position a) :=
        CaField.covers_of_position (by omega) haligned' hwrites.1 hwrites.2.2 (by omega)
      have heq := covers_unique himage.spread.1 hf hg' hcovers hcovers'
      rw [heq] at hlt
      omega
  have hbit := ObjectRoundTrips.uploadedBit_eq hooks hbuffers hlookup himage hsize hapart hfits h
    hdownload hf hreadable hwritable hcovers
  obtain ⟨hposition, hoff⟩ := CaField.position_of_covers haligned hwholef hcovers
  have haddress : f.entry.data + (8 * f.position a - f.start) / 8 = a := by
    have hstart := haligned hwholef
    have hfrom := hfa.2.1
    rw [CaField.position]
    omega
  rw [uploadedBit_whole himage.spread.1 hf hwholef hcovers, decide_eq_true hreadable, Bool.true_and,
    CaField.value_of_data hfa.1, haddress, hbyte, hoff, ByteStore.bit,
    show 8 * f.position a / 8 = f.position a by omega, if_pos rfl,
    show 8 * f.position a % 8 = 0 by omega] at hbit
  exact absurd hbit (by decide)

end uploaded

end failing

/-- **The round trip succeeds** if no entry that may be read and written is a bit type and every
entry that should keep its value does; and only then, for an object that one message can carry. -/
theorem ca_round_trip_iff [Nonempty σ] (hooks : SdoHooksNeutral env.sys.cfg)
    (hbuffers : 1 < env.sys.opts.mbxBuffers)
    (hlookup : completeAccessGetVariables env.sys.dict.table index subindex = .ok (.ok (o, nsub)))
    (hentries : o.HasEntries nsub) (hfits : o.FitsBuffer env.sys.opts nsub)
    (hapart : ∀ f ∈ o.fields nsub, f.Apart env.sys.mbxdata env.sys.opts.preallocBufferSize) :
    (RoundTripsCleanly (o.fields nsub) env.state → ObjectRoundTrips env o nsub) ∧
      (coeHeadersize + o.imageSize nsub < 2 ^ 16 → ObjectRoundTrips env o nsub →
        RoundTripsCleanly (o.fields nsub) env.state) := by
  have hsize := hfits.size
  have himage := hfits.hasImage hlookup hentries
  constructor
  rotate_left
  · intro hone h
    constructor
    case whole =>
      exact fun f hf hreadable hwritable =>
        h.whole hooks hbuffers hlookup himage hsize hone hapart hfits hf hreadable hwritable
    case behind =>
      exact fun f hf hreadable hwritable g hg hwhole hwritable' hlt =>
        h.behind hooks hbuffers hlookup himage hsize hone hapart hfits hf hreadable hwritable hg
          hwhole hwritable' hlt
    case kept =>
      exact fun f hf hnot g hg hwhole hwritable =>
        h.kept hooks hbuffers hlookup himage hsize hone hf hnot hg hwhole hwritable
  · intro hclean bytes₀ data c' hdownload
    have hle : o.imageSize nsub = (o.imageBits nsub + 7) / 8 := rfl
    obtain ⟨src, hsrc, hbytes⟩ := hdownload.distributes_all hlookup himage hsize hapart hooks
    have hstorage (g : CaField) (hg : g ∈ o.visited nsub (o.imageSize nsub))
        (hwrite : g.Writable env.state) := visited_data_ne hlookup g hg hwrite
    constructor
    · intro f hf hnot i hcovers
      have hto := (himage.spread.2 f hf).1
      refine CaField.value_kept (by omega) hcovers fun a hfa => ?_
      have hsides := hapart f hf hfa.1
      have hfrom := hfa.2.1
      have hend := hfa.2.2
      rw [hbytes a (by omega)]
      refine distribute_kept hstorage fun g hg hwrites => ?_
      exact hclean.kept f hf hnot g ((o.visited_sub nsub _).subset hg) hwrites.1 hwrites.2.1
        ⟨a, hfa, hwrites.2.2⟩
    · refine (reads_object hooks hentries hfits).mono
        fun got _ hgot f hf hreadable hwritable i hcovers => ?_
      have hwhole := hclean.whole f hf hreadable hwritable
      have hto := (himage.spread.2 f hf).1
      have hend := hcovers.2
      have hin : i < 8 * o.imageSize nsub := by omega
      have hinside := hfits.fits
      have hvalue := distribute_value hlookup himage hsize hapart hf hwhole hwritable
        (hclean.behind f hf hreadable hwritable) hbytes hcovers
      rw [hgot (by omega), bitAt_bytes hin, Objectlist.bit_uploaded
        (himage.fits (by omega) (by omega) hapart)
        (env.sys.opts.two_le_preallocBufferSize (by omega)) fun _ _ => rfl,
        uploadedBit_whole himage.spread.1 hf hwhole hcovers, decide_eq_true hreadable,
        Bool.true_and, hvalue, bitAt, hsrc _ (by omega)]
      rfl

/-- The record with one entry of four bytes. -/
theorem ca_round_trip_example : ObjectRoundTrips shortDevice shortObject 0 := by
  have hclean : RoundTripsCleanly (shortObject.fields 0) shortDevice.state := by
    have hwhole : ∀ f ∈ shortObject.fields 0, f.Whole := by decide
    have hordered : ∀ f ∈ shortObject.fields 0, f.Writable shortDevice.state →
        ∀ g ∈ shortObject.fields 0, ¬ f.start < g.start := by decide
    have hstored : ∀ f ∈ shortObject.fields 0, ¬ f.Writable shortDevice.state →
        f.entry.data = 0 := by decide
    constructor
    case whole => exact fun f hf _ _ => hwhole f hf
    case behind =>
      exact fun f hf _ hwritable g hg _ _ hlt => (hordered f hf hwritable g hg hlt).elim
    case kept => exact fun f hf hnot g _ _ _ ⟨a, hfa, _⟩ => hfa.1 (hstored f hf hnot)
  exact (@ca_round_trip_iff _ _ _ _ 0x7030 0 _ shortDevice_neutral (by decide) rfl
    shortObject_image.toHasEntries ⟨by decide, by decide, by decide⟩ shortObject_apart).1 hclean

/-! ## A bit type -/

/-- A record with one bit. -/
def flagObject : Objectlist :=
  { index := 0x7040, objtype := 9, maxsub := 1, name := []
    objdesc :=
      [constEntry 0 dtypeUnsigned8 8 1,
       { subindex := 1, datatype := dtypeBoolean, bitlength := 1, flags := 0x3f, name := []
         value := 0, data := 0x200 }] }

/-- A dictionary with this object alone. -/
def flagDictionary : Dictionary where
  objects := [flagObject]
  ascending := by decide
  below_sentinel := by decide
  storage := by decide +kernel

/-- The example device with this dictionary, in PREOP. -/
def flagDevice : CoeEnv ByteStore := ⟨{ exampleSystem with dict := flagDictionary }, 2⟩

/-- A download of the whole object, with the bit set. -/
def flagRequest : Coe ByteStore :=
  ⟨fun _ => 0, exampleMailbox (sdoMessage 0x37 0x7040 0 [1, 0, 1]), ⟨fun _ => 0, [], false⟩⟩

lemma flagObject_image : flagObject.HasImage 0 := by
  refine ⟨⟨fun first hfirst => ?_, fun _ _ first hfirst => ?_⟩, by decide, by decide⟩
  · cases hfirst
    decide
  · cases hfirst
    decide

lemma flagObject_fits : flagObject.FitsBuffer flagDevice.sys.opts 0 :=
  ⟨by decide, by decide, by decide⟩

lemma flagRequest_brings : BringsObject flagDevice flagRequest flagObject 0 3 := by
  constructor
  case accepted =>
    exact ⟨rfl, rfl, rfl, by decide, by decide, ⟨1, by decide, by decide, rfl⟩, by decide⟩
  case image => exact flagObject_image
  case held => rfl
  case lookup => rfl
  all_goals decide

lemma flagDevice_neutral : SdoHooksNeutral flagDevice.sys.cfg := exampleCfg_neutral

/-- Bits are not downloaded: the bit that is set in a download that is confirmed is not set in
the upload that follows. -/
theorem bits_not_downloaded : ¬ ∀ (env : CoeEnv ByteStore) (o : Objectlist) (nsub : ℕ)
    (index : Word) (subindex : Byte), SdoHooksNeutral env.sys.cfg → 1 < env.sys.opts.mbxBuffers →
    completeAccessGetVariables env.sys.dict.table index subindex = .ok (.ok (o, nsub)) →
    o.HasEntries nsub → o.FitsBuffer env.sys.opts nsub →
    (∀ f ∈ o.fields nsub, f.Apart env.sys.mbxdata env.sys.opts.preallocBufferSize) →
    ObjectRoundTrips env o nsub := by
  intro h
  have hall : ∀ f ∈ flagObject.fields 0, f.entry.data + f.entry.size ≤ 0x1000 := by decide
  have hround := h flagDevice flagObject 0 0x7040 0 flagDevice_neutral (by decide) rfl
    flagObject_image.toHasEntries flagObject_fits fun f hf _ => .inl (hall f hf)
  obtain ⟨_, c', hrun, hbytes, -⟩ :=
    (flagRequest_brings.stores_all flagDevice_neutral (by decide) : wp flagDevice 0 _ _ _)
  obtain ⟨-, hreads⟩ := hround _ _ c' (.single flagRequest_brings (by decide) rfl ⟨0, hrun⟩)
  obtain ⟨_, hgot⟩ := @ReadsObject.exists_collected _ _ _ _ 0x7040 0 _ (by decide) rfl
    _ flagDevice_neutral flagObject_image.toHasEntries flagObject_fits _ hreads (by decide)
  have hflag : ∃ f ∈ flagObject.fields 0, f.Readable flagDevice.state ∧
      f.Writable flagDevice.state ∧ f.Covers 16 := by decide
  obtain ⟨f, hf, hreadable, hwritable, hcovers⟩ := hflag
  have hbit := hgot f hf hreadable hwritable 16 hcovers
  have hsent : bitAt (flagRequest.mb.mbx.bytes flagRequest.mb.downloadData.2 3) 16 = true := by
    decide +kernel
  have hread : (flagObject.uploaded 0 flagDevice.sys.mbxdata flagDevice.state
      (distribute flagDevice.state (flagRequest.mb.mbx.shift flagRequest.mb.downloadData.2)
        (flagObject.visited 0 3) flagRequest.mem.bytes)).bit (8 * flagDevice.sys.mbxdata + 16) =
          false := by decide +kernel
  rw [hbytes, bitAt_bytes (by decide)] at hbit
  exact Bool.false_ne_true (hread.symm.trans (hbit.trans hsent))

end Soes
