import Soes.Framework.Buffered
import Soes.Properties.Authorised

/-!
# What the FoE server delivers

A file arrives in data packets, whose size the mailbox sets, and is handed to the write function in
buffers, whose size the application sets.  Both cut the same stream of bytes, so the server's
variables are a function of the bytes received so far (`Delivering`): the buffer holds what
`Buffered.ofList` has left, and the calls are its chunks.

The buffer's position is a 16 bit number, though.  With a `buffer_size` of 65536 or more it starts
again at 0 without the buffer having been handed over.  And `fposition + data_len` is compared with
`max_data` as a 32 bit sum, so that a packet at the very end of the number range is not refused but
taken in part.  `foe_delivers_iff` says that these are the only ways in which a file is not
delivered.
-/

namespace Soes

open Program Mailbox

variable {σ : Type}

/-! ## Packets and transfers -/

/-- The size of the data packet in the inbox. -/
def Mailbox.foePacketSize (m : Mailbox) : ℕ := sub32 (m.headerLength 0).toNat escFoehsize

/-- The data of the packet in the inbox. -/
def Mailbox.foePacket (m : Mailbox) : List Byte := m.mbx.bytes foeDataOffset m.foePacketSize

/-- The message in the inbox is a data packet, for `ESC_foeprocess` to handle.  It lies in the
inbox: `ESC_mbxprocess` drops a message whose header promises more than the SyncManager carries
(`mbxReceive_fits`). -/
structure Mailbox.IsData (m : Mailbox) : Prop where
  handled : m.foeHandled
  length : escFoehsize ≤ (m.headerLength 0).toNat
  fits : escMbxhsize + (m.headerLength 0).toNat ≤ m.activembxsize
  opcode : m.foeOpcode = foeOpData

/-- The packet ends the transfer: it is not of full size. -/
def Mailbox.isLast (m : Mailbox) : Prop := m.foePacket = [] ∨ m.foePacketSize ≠ m.foeDataSize

/-- The packet has the number that comes after those of the packets accepted so far. -/
def Mailbox.isNext (m : Mailbox) (packets : List (List Byte)) : Prop :=
  m.foeNumber = BitVec.ofNat 32 (packets.length + 1)

/-- The packet has the right number, and the file takes its data. -/
def FoeFile.accepts (f : FoeFile σ) (packets : List (List Byte)) (m : Mailbox) : Prop :=
  m.isNext packets ∧ packets.flatten.length + m.foePacket.length ≤ f.maxData

/-- The FoE side with a message that was received, when the application has run on. -/
def FoeMem.receive (s : FoeMem (σ × List WriteCall)) (o : σ) (m : Mailbox) :
    FoeMem (σ × List WriteCall) where
  outside := (o, s.log)
  mb := m
  foe := s.foe

/-- A transfer of file `i` that is open, with the packets accepted since it was opened; the calls of
the write function since then are in the log. -/
inductive OpenTransfer (cfg : FoeCfg σ) (i : ℕ) (f : FoeFile σ) :
    List (List Byte) → FoeMem (σ × List WriteCall) → Prop where
  /-- The file is opened. -/
  | opened {env : FoeEnv σ} {n : ℕ} {s : FoeMem σ} {s' : FoeMem (σ × List WriteCall)} :
      env.cfg = cfg → cfg.files[i]? = some f → s.opens env = some i →
      escFoeprocess env.logged n s.logging = .ok () s' → s'.foe.foestate = .waitForData →
      OpenTransfer cfg i f [] s'
  /-- A packet is accepted, and the transfer goes on. -/
  | packet {env : FoeEnv σ} {n : ℕ} {packets : List (List Byte)} {o : σ} {m : Mailbox}
      {s s' : FoeMem (σ × List WriteCall)} :
      OpenTransfer cfg i f packets s → env.cfg = cfg → m.IsData → f.accepts packets m →
      escFoeprocess env.logged n (s.receive o m) = .ok () s' → s'.foe.foestate = .waitForData →
      OpenTransfer cfg i f (packets ++ [m.foePacket]) s'

/-- The address offset of each call is the number of bytes in the calls before it. -/
def Contiguous : ℕ → List WriteCall → Prop
  | _, [] => True
  | offset, c :: cs => c.addressOffset = offset ∧ Contiguous (offset + c.data.length) cs

/-- The bytes that calls have handed over. -/
def delivered (cs : List WriteCall) : List Byte := cs.flatMap fun c => c.data

/-- What is expected of a data packet, by the packets before it and the states around it. -/
structure Delivers (cfg : FoeCfg σ) (i : ℕ) (f : FoeFile σ) (packets : List (List Byte))
    (m : Mailbox) (s s' : FoeMem (σ × List WriteCall)) : Prop where
  file : ∀ c ∈ s'.log, c.file = i
  contiguous : Contiguous 0 s'.log
  bounded : ∀ k, cfg.bufferSize ≤ k → s'.foe.fbuffer k = s.foe.fbuffer k
  /-- A packet that is not accepted ends the transfer, and none of its bytes is handed over. -/
  refused : ¬ f.accepts packets m → s'.foe.foestate = .ready ∧ s'.log = s.log
  /-- When the transfer completes, the file has been handed over. -/
  completed : f.accepts packets m → m.isLast → s'.foe.foestate = .ready ∧
    delivered s'.log = packets.flatten ++ m.foePacket ∧
    (s'.foe.files i).totalSize = packets.flatten.length + m.foePacket.length

/-- The counters suffice: the buffer's position does not go round, and a packet that the file does
not take is either seen to be too long or completes no buffer. -/
def CountersSuffice (cfg : FoeCfg σ) (f : FoeFile σ) (packets : List (List Byte)) (m : Mailbox) :
    Prop :=
  let total := packets.flatten.length + m.foePacket.length
  (f.accepts packets m → m.isLast → cfg.bufferSize < 2 ^ 16 ∨ total < 2 ^ 16) ∧
    (m.isNext packets → f.maxData < total → total < 2 ^ 32 ∨ 2 ^ 16 ≤ cfg.bufferSize ∨
      f.maxData / cfg.bufferSize = packets.flatten.length / cfg.bufferSize)

/-! ## The server's variables -/

/-- The number of bytes after which the position in the buffer is 0 again. -/
def FoeCfg.capacity (cfg : FoeCfg σ) : ℕ := min cfg.bufferSize (2 ^ 16)

/-- The chunks that are handed over of the bytes received: none if the position goes round. -/
def FoeCfg.handed (cfg : FoeCfg σ) (got : List Byte) : List (List Byte) :=
  if cfg.bufferSize < 2 ^ 16 then (Buffered.ofList cfg.capacity got).chunks else []

/-- Calls that hand over chunks one after another, from an offset on. -/
def writeCalls (i : ℕ) : ℕ → List (List Byte) → List WriteCall
  | _, [] => []
  | offset, chunk :: chunks => ⟨i, offset, chunk⟩ :: writeCalls i (offset + chunk.length) chunks

/-- The server's variables are a function of the bytes received. -/
structure Delivering (cfg : FoeCfg σ) (i : ℕ) (f : FoeFile σ) (got : List Byte)
    (s : FoeMem (σ × List WriteCall)) : Prop where
  file : s.foe.file = some i
  fend : s.foe.fend = f.maxData
  fits : got.length ≤ f.maxData
  fposition : s.foe.fposition = got.length
  fbufposition : s.foe.fbufposition = (Buffered.ofList cfg.capacity got).rest.length
  fbuffer : s.foe.fbuffer.bytes 0 s.foe.fbufposition = (Buffered.ofList cfg.capacity got).rest
  log : s.log = writeCalls i 0 (cfg.handed got)
  addressOffset : (s.foe.files i).addressOffset = (cfg.handed got).flatten.length

/-! ## Calls -/

@[simp] lemma delivered_writeCalls (i offset : ℕ) (chunks : List (List Byte)) :
    delivered (writeCalls i offset chunks) = chunks.flatten := by
  induction chunks generalizing offset with
  | nil => rfl
  | cons chunk chunks ih =>
      rw [writeCalls, delivered, List.flatMap_cons, List.flatten_cons]
      exact congrArg (chunk ++ ·) (ih _)

lemma writeCalls_contiguous (i offset : ℕ) (chunks : List (List Byte)) :
    Contiguous offset (writeCalls i offset chunks) := by
  induction chunks generalizing offset with
  | nil => trivial
  | cons chunk chunks ih => exact ⟨rfl, ih _⟩

lemma file_of_mem_writeCalls {i offset : ℕ} {chunks : List (List Byte)} {c : WriteCall}
    (h : c ∈ writeCalls i offset chunks) : c.file = i := by
  induction chunks generalizing offset with
  | nil => exact (List.not_mem_nil h).elim
  | cons chunk chunks ih =>
      rcases List.mem_cons.mp h with rfl | h
      · rfl
      · exact ih h

/-- The calls say what was handed over. -/
lemma writeCalls_injective {i offset : ℕ} {chunks chunks' : List (List Byte)}
    (h : writeCalls i offset chunks = writeCalls i offset chunks') : chunks = chunks' := by
  have hdata (offset : ℕ) (chunks : List (List Byte)) :
      (writeCalls i offset chunks).map (fun c => c.data) = chunks := by
    induction chunks generalizing offset with
    | nil => rfl
    | cons chunk chunks ih => exact congrArg (chunk :: ·) (ih _)
  rw [← hdata offset chunks, h, hdata]

/-- One more call. -/
lemma writeCalls_concat (i offset : ℕ) (chunks : List (List Byte)) (chunk : List Byte) :
    writeCalls i offset (chunks ++ [chunk]) =
      writeCalls i offset chunks ++ [⟨i, offset + chunks.flatten.length, chunk⟩] := by
  induction chunks generalizing offset with
  | nil => rfl
  | cons first chunks ih =>
      rw [List.cons_append, writeCalls, writeCalls, ih, List.cons_append, List.flatten_cons,
        List.length_append, Nat.add_assoc]

/-! ## Bytes -/

section code

variable {env : FoeEnv σ} {n i : ℕ} {f : FoeFile σ} {got : List Byte}
  {s : FoeMem (σ × List WriteCall)}

lemma FoeCfg.capacity_pos {cfg : FoeCfg σ} (h : 0 < cfg.bufferSize) : 0 < cfg.capacity :=
  Nat.lt_min.mpr ⟨h, by decide⟩

lemma wp_foeModifyFile {env : FoeEnv σ} {s : FoeMem σ} (hfile : s.foe.file = some i)
    (g : FoeFileVar → FoeFileVar) (Q : Unit → FoeMem σ → Prop) :
    wp env n (foeModifyFile g) Q s ↔ Q () { s with foe := { s.foe with
      files := fun k => if k = i then g (s.foe.files k) else s.foe.files k } } := by
  rw [foeModifyFile, wp_get_bind, hfile]
  exact wp_modify _ _

/-- The write function of the file is called, and says that it has succeeded. -/
lemma foeCallWrite_logged (hf : env.cfg.files[i]? = some f)
    (hzero : ∀ o v b k, (f.writeFunction o v b k).2 = 0) (hfile : s.foe.file = some i) :
    wp env.logged n foeCallWrite (fun failed s' => failed = 0 ∧ s'.mb = s.mb ∧ s'.foe = s.foe ∧
      s'.log = s.log ++ [⟨i, (s.foe.files i).addressOffset,
        s.foe.fbuffer.bytes 0 s.foe.fbufposition⟩]) s := by
  rw [foeCallWrite, wp_ask_bind, wp_get_bind]
  dsimp only [FoeEnv.logged]
  rw [hfile]
  dsimp only
  rw [FoeCfg.logged_getElem?, hf]
  exact (wp_transact _ _).mpr ⟨hzero _ _ _ _, rfl, rfl, rfl⟩

/-- Storing bytes changes nothing else. -/
structure Stores (cfg : FoeCfg σ) (i : ℕ) (s s' : FoeMem (σ × List WriteCall)) : Prop where
  mb : s'.mb = s.mb
  foestate : s'.foe.foestate = s.foe.foestate
  foepacket : s'.foe.foepacket = s.foe.foepacket
  totalSize : (s'.foe.files i).totalSize = (s.foe.files i).totalSize
  beyond : ∀ k, cfg.bufferSize ≤ k → s'.foe.fbuffer k = s.foe.fbuffer k

lemma Stores.refl (cfg : FoeCfg σ) (i : ℕ) (s : FoeMem (σ × List WriteCall)) : Stores cfg i s s :=
  ⟨rfl, rfl, rfl, rfl, fun _ _ => rfl⟩

lemma Stores.trans {cfg : FoeCfg σ} {s₁ s₂ s₃ : FoeMem (σ × List WriteCall)}
    (h : Stores cfg i s₁ s₂) (h' : Stores cfg i s₂ s₃) : Stores cfg i s₁ s₃ :=
  ⟨h'.mb.trans h.mb, h'.foestate.trans h.foestate, h'.foepacket.trans h.foepacket,
    h'.totalSize.trans h.totalSize, fun k hk => (h'.beyond k hk).trans (h.beyond k hk)⟩

/-- The buffer holds one byte more. -/
lemma Delivering.bytes (h : Delivering env.cfg i f got s) (b : Byte) :
    (s.foe.fbuffer.set s.foe.fbufposition b).bytes 0 (s.foe.fbufposition + 1) =
      (Buffered.ofList env.cfg.capacity got).rest ++ [b] := by
  rw [ByteStore.bytes_succ, ByteStore.bytes_set_of_outside b (.inr (by omega)), h.fbuffer,
    Nat.zero_add, ByteStore.set_self]

/-- What is handed over of one byte more, when the buffer is full. -/
lemma FoeCfg.handed_full {cfg : FoeCfg σ} (hB : cfg.bufferSize < 2 ^ 16)
    (hfull : cfg.bufferSize ≤ (Buffered.ofList cfg.capacity got).rest.length + 1) (b : Byte) :
    cfg.handed (got ++ [b]) =
      cfg.handed got ++ [(Buffered.ofList cfg.capacity got).rest ++ [b]] := by
  have hcapacity : cfg.capacity ≤ (Buffered.ofList cfg.capacity got).rest.length + 1 :=
    Nat.le_trans (Nat.min_le_left _ _) hfull
  rw [FoeCfg.handed, FoeCfg.handed, if_pos hB, if_pos hB, Buffered.ofList_concat,
    Buffered.push_full hcapacity]

/-- The bytes handed over are some of those received. -/
lemma FoeCfg.handed_length (cfg : FoeCfg σ) (got : List Byte) :
    (cfg.handed got).flatten.length + (Buffered.ofList cfg.capacity got).rest.length ≤
      got.length := by
  have hlen := @Buffered.length_contents Byte cfg.capacity got
  rw [FoeCfg.handed]
  split
  · omega
  · simp only [List.flatten_nil, List.length_nil]
    omega

lemma FoeCfg.handed_large {cfg : FoeCfg σ} (hB : 2 ^ 16 ≤ cfg.bufferSize) (got : List Byte) :
    cfg.handed got = [] := if_neg (Nat.not_lt.mpr hB)

/-- A byte for which there is room in the buffer. -/
lemma Delivering.room (h : Delivering env.cfg i f got s) (b : Byte)
    (hroom : got.length < f.maxData) (hmore : s.foe.fbufposition + 1 < env.cfg.capacity) :
    Delivering env.cfg i f (got ++ [b]) { s with foe := { s.foe with
      fbuffer := s.foe.fbuffer.set s.foe.fbufposition b
      fbufposition := (s.foe.fbufposition + 1) % 2 ^ 16
      fposition := got.length + 1 } } := by
  have hcapacity : env.cfg.capacity ≤ 2 ^ 16 := Nat.min_le_right _ _
  have hmod : (s.foe.fbufposition + 1) % 2 ^ 16 = s.foe.fbufposition + 1 :=
    Nat.mod_eq_of_lt (by omega)
  have hcollect : Buffered.ofList env.cfg.capacity (got ++ [b]) =
      ⟨(Buffered.ofList env.cfg.capacity got).chunks,
        (Buffered.ofList env.cfg.capacity got).rest ++ [b]⟩ := by
    rw [Buffered.ofList_concat, Buffered.push_room (by rw [← h.fbufposition]; exact hmore)]
  have hhanded : env.cfg.handed (got ++ [b]) = env.cfg.handed got := by
    rw [FoeCfg.handed, FoeCfg.handed, hcollect]
  have hlen : (got ++ [b]).length = got.length + 1 := by simp
  rw [hmod]
  constructor
  case file => exact h.file
  case fend => exact h.fend
  case fits =>
    rw [hlen]
    exact hroom
  case fposition => exact hlen.symm
  case fbufposition =>
    rw [hcollect, List.length_append, ← h.fbufposition]
    rfl
  case fbuffer =>
    rw [hcollect]
    exact h.bytes b
  case log =>
    rw [hhanded]
    exact h.log
  case addressOffset =>
    rw [hhanded]
    exact h.addressOffset

/-- The position goes round, and what the buffer holds is forgotten. -/
lemma Delivering.round (h : Delivering env.cfg i f got s) (b : Byte)
    (hroom : got.length < f.maxData) (hB : 2 ^ 16 ≤ env.cfg.bufferSize)
    (hround : s.foe.fbufposition + 1 = 2 ^ 16) :
    Delivering env.cfg i f (got ++ [b]) { s with foe := { s.foe with
      fbuffer := s.foe.fbuffer.set s.foe.fbufposition b
      fbufposition := (s.foe.fbufposition + 1) % 2 ^ 16
      fposition := got.length + 1 } } := by
  have hcapacity : env.cfg.capacity = 2 ^ 16 := Nat.min_eq_right hB
  have hcollect : (Buffered.ofList env.cfg.capacity (got ++ [b])).rest = [] := by
    rw [Buffered.ofList_concat, Buffered.push_full]
    rw [← h.fbufposition, hcapacity, hround]
  have hlen : (got ++ [b]).length = got.length + 1 := by simp
  rw [hround, Nat.mod_self]
  constructor
  case file => exact h.file
  case fend => exact h.fend
  case fits =>
    rw [hlen]
    exact hroom
  case fposition => exact hlen.symm
  case fbufposition =>
    rw [hcollect]
    rfl
  case fbuffer =>
    rw [hcollect]
    rfl
  case log =>
    rw [FoeCfg.handed_large hB, ← FoeCfg.handed_large hB got]
    exact h.log
  case addressOffset =>
    rw [FoeCfg.handed_large hB, ← FoeCfg.handed_large hB got]
    exact h.addressOffset

/-- A full buffer is handed over. -/
lemma foeFwriteByte_full (hf : env.cfg.files[i]? = some f)
    (hzero : ∀ o v b k, (f.writeFunction o v b k).2 = 0) (hmax : f.maxData < 2 ^ 32)
    (h : Delivering env.cfg i f got s) (hroom : got.length < f.maxData) (b : Byte)
    (hlt : s.foe.fbufposition + 1 < 2 ^ 16) (hfull : env.cfg.bufferSize = s.foe.fbufposition + 1) :
    wp env.logged n (do
      let failed ← foeCallWrite
      foeModify fun v => { v with fbufposition := 0 }
      foeModifyFile fun f =>
        { f with addressOffset := (f.addressOffset + env.cfg.bufferSize) % 2 ^ 32 }
      pure (decide (failed ≠ 0))) (fun failed s₁ => failed = false ∧
        s₁.foe.fposition = got.length ∧ Delivering env.cfg i f (got ++ [b])
          { s₁ with foe := { s₁.foe with fposition := got.length + 1 } } ∧ Stores env.cfg i s s₁)
      { s with foe := { s.foe with
          fbuffer := s.foe.fbuffer.set s.foe.fbufposition b
          fbufposition := s.foe.fbufposition + 1 } } := by
  have hB : env.cfg.bufferSize < 2 ^ 16 := by omega
  have hhanded : env.cfg.handed (got ++ [b]) =
      env.cfg.handed got ++ [(Buffered.ofList env.cfg.capacity got).rest ++ [b]] :=
    FoeCfg.handed_full hB (by rw [← h.fbufposition]; omega) b
  have hcollect : Buffered.ofList env.cfg.capacity (got ++ [b]) =
      ⟨(Buffered.ofList env.cfg.capacity got).chunks ++
        [(Buffered.ofList env.cfg.capacity got).rest ++ [b]], []⟩ := by
    rw [Buffered.ofList_concat, Buffered.push_full]
    rw [← h.fbufposition, FoeCfg.capacity]
    omega
  have hlength := env.cfg.handed_length got
  rw [← h.fbufposition] at hlength
  have hbytes := h.bytes b
  have hlen : (got ++ [b]).length = got.length + 1 := by simp
  have hmod : ((env.cfg.handed got).flatten.length + env.cfg.bufferSize) % 2 ^ 32 =
      (env.cfg.handed got).flatten.length + env.cfg.bufferSize := Nat.mod_eq_of_lt (by omega)
  refine wp.bind (foeCallWrite_logged hf hzero (by exact h.file))
    fun failed s₂ ⟨hfailed, hmb, hfoe, hlog⟩ => ?_
  dsimp only at hmb hfoe hlog
  rw [wp_bind, foeModify, wp_modify, hfoe]
  dsimp only
  rw [wp_bind, wp_foeModifyFile (by exact h.file), wp_pure]
  refine ⟨by rw [hfailed]; rfl, h.fposition, ?_, ?_⟩
  · constructor
    case file => exact h.file
    case fend => exact h.fend
    case fits =>
      rw [hlen]
      exact hroom
    case fposition => exact hlen.symm
    case fbufposition =>
      rw [hcollect]
      rfl
    case fbuffer =>
      rw [hcollect]
      rfl
    case log =>
      rw [hhanded, writeCalls_concat, ← h.log, Nat.zero_add, ← h.addressOffset, ← hbytes]
      exact hlog
    case addressOffset =>
      dsimp only
      rw [if_pos rfl, h.addressOffset, hmod, hhanded, List.flatten_concat, List.length_append,
        ← hbytes, ByteStore.length_bytes, hfull]
  · refine ⟨hmb, rfl, rfl, ?_, fun k hk => ?_⟩
    · dsimp only
      rw [if_pos rfl]
    · exact ByteStore.set_of_ne b (by omega)

/-- One byte is taken. -/
lemma foeFwriteByte_delivering (hB : 0 < env.cfg.bufferSize) (hf : env.cfg.files[i]? = some f)
    (hzero : ∀ o v b k, (f.writeFunction o v b k).2 = 0) (hmax : f.maxData < 2 ^ 32)
    (h : Delivering env.cfg i f got s) (hroom : got.length < f.maxData) (b : Byte) :
    wp env.logged n (foeFwriteByte env.cfg.logged b) (fun failed s' => failed = false ∧
      Delivering env.cfg i f (got ++ [b]) s' ∧ Stores env.cfg i s s') s := by
  have hrest := (Buffered.fits_ofList (FoeCfg.capacity_pos hB) got).rest_lt
  rw [← h.fbufposition, FoeCfg.capacity] at hrest
  obtain ⟨hltB, hlt16⟩ := Nat.lt_min.mp hrest
  rw [foeFwriteByte, wp_bind, foeModify, wp_modify, wp_get_bind]
  dsimp only
  -- all that is left is the position in the file
  refine wp.bind (P := fun failed s₁ => failed = false ∧ s₁.foe.fposition = got.length ∧
      Delivering env.cfg i f (got ++ [b])
        { s₁ with foe := { s₁.foe with fposition := got.length + 1 } } ∧ Stores env.cfg i s s₁)
    ((wp_ite _ _ _ _).mpr ⟨fun hfull => ?_, fun hnot => ?_⟩)
    fun failed s₁ hthen => ?_
  · rw [FoeCfg.logged_bufferSize] at hfull
    have hnowrap : (s.foe.fbufposition + 1) % 2 ^ 16 = s.foe.fbufposition + 1 := by omega
    rw [hnowrap] at hfull ⊢
    exact foeFwriteByte_full hf hzero hmax h hroom b (by omega) (by omega)
  · rw [FoeCfg.logged_bufferSize] at hnot
    rw [wp_pure]
    refine ⟨rfl, h.fposition, ?_, ⟨rfl, rfl, rfl, rfl, fun k hk => ?_⟩⟩
    · rcases Nat.lt_or_ge (s.foe.fbufposition + 1) env.cfg.capacity with hmore | hround
      · exact h.room b hroom hmore
      · rcases Nat.le_total env.cfg.bufferSize (2 ^ 16) with hle | hle
        · rw [FoeCfg.capacity, Nat.min_eq_left hle] at hround
          exact h.round b hroom (by omega) (by omega)
        · rw [FoeCfg.capacity, Nat.min_eq_right hle] at hround
          exact h.round b hroom hle (by omega)
    · exact ByteStore.set_of_ne b (by omega)
  · obtain ⟨hfailed, hpos, h₁, hstores⟩ := hthen
    rw [wp_bind, foeModify, wp_modify, wp_pure, hpos, Nat.mod_eq_of_lt (by omega)]
    exact ⟨hfailed, h₁, hstores.trans ⟨rfl, rfl, rfl, rfl, fun _ _ => rfl⟩⟩

/-- The bytes that the file takes are taken. -/
lemma foeFwriteLoop_delivering (hB : 0 < env.cfg.bufferSize) (hf : env.cfg.files[i]? = some f)
    (hzero : ∀ o v b k, (f.writeFunction o v b k).2 = 0) (hmax : f.maxData < 2 ^ 32)
    (length data ncopied : ℕ) (h : Delivering env.cfg i f got s) :
    wp env.logged n (foeFwriteLoop env.cfg.logged length data ncopied) (fun k s' =>
      ∃ j, j = min length (f.maxData - got.length) ∧ k = ncopied + j ∧
        Delivering env.cfg i f (got ++ s.mb.mbx.bytes data j) s' ∧ Stores env.cfg i s s') s := by
  have none_ : Delivering env.cfg i f (got ++ s.mb.mbx.bytes data 0) s := by
    rw [ByteStore.bytes_zero, List.append_nil]
    exact h
  induction length generalizing data ncopied got s with
  | zero =>
      rw [foeFwriteLoop, wp_pure]
      exact ⟨0, by omega, rfl, none_, .refl _ _ _⟩
  | succ length ih =>
      rw [foeFwriteLoop, wp_get_bind]
      have hend := h.fend
      have hpos := h.fposition
      have hfits := h.fits
      refine (wp_ite _ _ _ _).mpr ⟨fun hfull => ?_, fun hroom => ?_⟩
      · rw [wp_pure]
        exact ⟨0, by omega, rfl, none_, .refl _ _ _⟩
      · refine (foeFwriteByte_delivering hB hf hzero hmax h (by omega) _).bind
          fun failed s₁ hthen => ?_
        obtain ⟨hfailed, h₁, hstores⟩ := hthen
        rw [hfailed]
        refine (wp_ite _ _ _ _).mpr ⟨fun hf => (by cases hf), fun _ => ?_⟩
        refine (ih (data + 1) (ncopied + 1) h₁ ?_).mono fun k s₂ hthen => ?_
        · rw [ByteStore.bytes_zero, List.append_nil]
          exact h₁
        · obtain ⟨j, hj, hk, h₂, hstores'⟩ := hthen
          rw [List.length_append, List.length_singleton] at hj
          refine ⟨j + 1, by omega, by omega, ?_, hstores.trans hstores'⟩
          rw [hstores.mb, List.append_assoc, List.singleton_append, ← ByteStore.bytes_succ'] at h₂
          exact h₂

/-- `FOE_fwrite`. -/
lemma foeFwrite_delivering (hB : 0 < env.cfg.bufferSize) (hf : env.cfg.files[i]? = some f)
    (hzero : ∀ o v b k, (f.writeFunction o v b k).2 = 0) (hmax : f.maxData < 2 ^ 32) (size : ℕ)
    (h : Delivering env.cfg i f got s) (htotal : (s.foe.files i).totalSize = got.length) :
    wp env.logged n (foeFwrite size) (fun k s' => k = min size (f.maxData - got.length) ∧
      Delivering env.cfg i f (got ++ s.mb.mbx.bytes foeDataOffset k) s' ∧ s'.mb = s.mb ∧
      s'.foe.foestate = s.foe.foestate ∧ s'.foe.foepacket = s.foe.foepacket ∧
      (s'.foe.files i).totalSize = got.length + k ∧
      ∀ k, env.cfg.bufferSize ≤ k → s'.foe.fbuffer k = s.foe.fbuffer k) s := by
  have hprev : Delivering env.cfg i f got
      { s with foe := { s.foe with fprevposition := s.foe.fposition } } :=
    ⟨h.file, h.fend, h.fits, h.fposition, h.fbufposition, h.fbuffer, h.log, h.addressOffset⟩
  have hfits := h.fits
  rw [foeFwrite, wp_bind, foeModify, wp_modify, wp_ask_bind]
  refine (foeFwriteLoop_delivering hB hf hzero hmax size foeDataOffset 0 hprev).bind
    fun k s₁ hthen => ?_
  obtain ⟨j, hj, hk, h₁, hstores⟩ := hthen
  have hkj : k = j := by omega
  rw [wp_bind, wp_foeModifyFile h₁.file, wp_pure]
  refine ⟨by omega, ?_, hstores.mb, hstores.foestate, hstores.foepacket, ?_, hstores.beyond⟩
  · rw [hkj]
    refine ⟨h₁.file, h₁.fend, h₁.fits, h₁.fposition, h₁.fbufposition, h₁.fbuffer, h₁.log, ?_⟩
    dsimp only
    rw [if_pos rfl]
    exact h₁.addressOffset
  · have htotal₁ : (s₁.foe.files i).totalSize = got.length := hstores.totalSize.trans htotal
    dsimp only
    rw [if_pos rfl, htotal₁]
    exact Nat.mod_eq_of_lt (by omega)

/-- `FOE_fclose` hands over what is left. -/
lemma foeFclose_delivering (hf : env.cfg.files[i]? = some f)
    (hzero : ∀ o v b k, (f.writeFunction o v b k).2 = 0) (h : Delivering env.cfg i f got s) :
    wp env.logged n foeFclose (fun failed s' => failed = 0 ∧ s'.mb = s.mb ∧
      s'.log = writeCalls i 0
        (env.cfg.handed got ++ [(Buffered.ofList env.cfg.capacity got).rest]) ∧
      (s'.foe.files i).totalSize = (s.foe.files i).totalSize ∧ s'.foe.fbuffer = s.foe.fbuffer)
      s := by
  rw [foeFclose]
  refine (foeCallWrite_logged hf hzero h.file).bind fun failed s₁ ⟨hfailed, hmb, hfoe, hlog⟩ => ?_
  have hfile : s₁.foe.file = some i := hfoe ▸ h.file
  rw [wp_get_bind, wp_bind, wp_foeModifyFile hfile, wp_bind, foeModify, wp_modify, wp_pure]
  refine ⟨hfailed, hmb, ?_, ?_, by rw [hfoe]⟩
  · rw [writeCalls_concat, ← h.log, Nat.zero_add, ← h.addressOffset, ← h.fbuffer]
    exact hlog
  · dsimp only
    rw [if_pos rfl, hfoe]

/-! ## A packet -/

/-- What holds while a transfer waits for its next packet. -/
structure AwaitingData (cfg : FoeCfg σ) (i : ℕ) (f : FoeFile σ) (packets : List (List Byte))
    (s : FoeMem (σ × List WriteCall)) : Prop where
  foestate : s.foe.foestate = .waitForData
  delivering : Delivering cfg i f packets.flatten s
  totalSize : (s.foe.files i).totalSize = packets.flatten.length
  foepacket : s.foe.foepacket = BitVec.ofNat 32 (packets.length + 1)

/-- What becomes of a data packet. -/
structure PacketDone (o : Options) (cfg : FoeCfg σ) (i : ℕ) (f : FoeFile σ)
    (packets : List (List Byte)) (m : Mailbox) (s s' : FoeMem (σ × List WriteCall)) : Prop where
  beyond : ∀ k, cfg.bufferSize ≤ k → s'.foe.fbuffer k = s.foe.fbuffer k
  wrong : ¬ m.isNext packets → s'.foe.foestate = .ready ∧ s'.log = s.log
  tooLong : m.isNext packets → f.maxData < packets.flatten.length + m.foePacket.length →
    packets.flatten.length + m.foePacket.length < 2 ^ 32 →
      s'.foe.foestate = .ready ∧ s'.log = s.log
  wraps : m.isNext packets → 2 ^ 32 ≤ packets.flatten.length + m.foePacket.length →
    s'.foe.foestate = .ready ∧ s'.log = writeCalls i 0 (cfg.handed
      (packets.flatten ++ m.mbx.bytes foeDataOffset (f.maxData - packets.flatten.length)))
  last : f.accepts packets m → m.isLast → s'.foe.foestate = .ready ∧
    s'.log = writeCalls i 0 (cfg.handed (packets.flatten ++ m.foePacket) ++
      [(Buffered.ofList cfg.capacity (packets.flatten ++ m.foePacket)).rest]) ∧
    (s'.foe.files i).totalSize = packets.flatten.length + m.foePacket.length
  more : f.accepts packets m → ¬ m.isLast →
    s'.log = writeCalls i 0 (cfg.handed (packets.flatten ++ m.foePacket)) ∧
      (s'.foe.foestate = .waitForData → AwaitingData cfg i f (packets ++ [m.foePacket]) s') ∧
      (m.HasFree o → s'.foe.foestate = .waitForData)

variable {packets : List (List Byte)}

@[simp] lemma Mailbox.length_foePacket (m : Mailbox) : m.foePacket.length = m.foePacketSize :=
  ByteStore.length_bytes

lemma Mailbox.foePacket_eq_nil (m : Mailbox) : m.foePacket = [] ↔ m.foePacketSize = 0 := by
  rw [← List.length_eq_zero_iff, m.length_foePacket]

lemma Mailbox.IsData.size_lt {m : Mailbox} (h : m.IsData) : m.foePacketSize < 2 ^ 16 := by
  have hlt := (m.headerLength 0).isLt
  have hle := h.length
  rw [Mailbox.foePacketSize, sub32]
  omega

/-- The end of a transfer: whether or not it is acknowledged, the server is ready. -/
lemma foeAcknowledge_foe {s : FoeMem (σ × List WriteCall)} : wp env.logged n (do
    let _ ← foeSendAck
    foeInit) (fun _ s' => s'.log = s.log ∧ s'.foe.foestate = .ready ∧
      s'.foe.files = s.foe.files ∧ s'.foe.fbuffer = s.foe.fbuffer) s := by
  refine foeSendAck_foe.bind fun res s₁ ⟨hout, hack, hnone, _⟩ => ?_
  rw [foeInit, foeModify, wp_modify]
  by_cases hres : res = 0
  · have hfoe := hack hres
    exact ⟨congrArg Prod.snd hout, rfl, by rw [hfoe]; rfl, by rw [hfoe]; rfl⟩
  · have hfoe := hnone hres
    exact ⟨congrArg Prod.snd hout, rfl, by rw [hfoe]; rfl, by rw [hfoe]; rfl⟩

/-- What becomes of a packet that is too long when the sum goes round. -/
lemma PacketDone.of_wraps {o : Options} {cfg : FoeCfg σ} {m : Mailbox}
    {s' : FoeMem (σ × List WriteCall)} (hnext : m.isNext packets) (hmax : f.maxData < 2 ^ 32)
    (hround : 2 ^ 32 ≤ packets.flatten.length + m.foePacket.length)
    (hbeyond : ∀ k, cfg.bufferSize ≤ k → s'.foe.fbuffer k = s.foe.fbuffer k)
    (hready : s'.foe.foestate = .ready)
    (hlog : s'.log = writeCalls i 0 (cfg.handed
      (packets.flatten ++ m.mbx.bytes foeDataOffset (f.maxData - packets.flatten.length)))) :
    PacketDone o cfg i f packets m s s' := by
  have hrefused : ¬ f.accepts packets m := by
    rintro ⟨-, hle⟩
    omega
  constructor
  case beyond => exact hbeyond
  case wrong => exact fun hwrong => (hwrong hnext).elim
  case tooLong => exact fun _ _ hlt => by omega
  case wraps => exact fun _ _ => ⟨hready, hlog⟩
  case last => exact fun hacc => (hrefused hacc).elim
  case more => exact fun hacc => (hrefused hacc).elim

/-- The data of a packet of which the file takes a part. -/
lemma foeDataAccepted_part (hB : 0 < env.cfg.bufferSize) (hf : env.cfg.files[i]? = some f)
    (hzero : ∀ o v b k, (f.writeFunction o v b k).2 = 0) (hmax : f.maxData < 2 ^ 32)
    (h : AwaitingData env.cfg i f packets s) (hnext : s.mb.isNext packets)
    (hround : 2 ^ 32 ≤ packets.flatten.length + s.mb.foePacketSize) :
    wp env.logged n (foeDataAccepted s.mb.foePacketSize)
      (fun _ s' => PacketDone env.opts env.cfg i f packets s.mb s s') s := by
  have hlen := s.mb.length_foePacket
  have hfits := h.delivering.fits
  refine (foeFwrite_delivering hB hf hzero hmax _ h.delivering h.totalSize).bind
    fun k s₁ ⟨hk, h₁, hmb, _, _, _, hbeyond⟩ => ?_
  have hpart : k = f.maxData - packets.flatten.length := by omega
  rw [hpart] at h₁
  -- every way from here ends with an abort
  have done {s' : FoeMem (σ × List WriteCall)} (hlog : s'.log = s₁.log)
      (hready : s'.foe.foestate = .ready) (hbuffer : s'.foe.fbuffer = s₁.foe.fbuffer) :
      PacketDone env.opts env.cfg i f packets s.mb s s' := by
    refine .of_wraps hnext hmax (by omega) (fun k hk => ?_) hready (hlog.trans h₁.log)
    rw [hbuffer]
    exact hbeyond k hk
  have aborted (code : Dword) : wp env.logged n (foeAbort code)
      (fun _ s' => PacketDone env.opts env.cfg i f packets s.mb s s') s₁ :=
    (foeAbort_foe code).mono fun _ s' ⟨hout, hfoe⟩ =>
      done (congrArg Prod.snd hout) (by rw [hfoe]; rfl) (by rw [hfoe]; rfl)
  refine (wp_ite _ _ _ _).mpr ⟨fun _ => aborted _, fun _ => ?_⟩
  rw [wp_get_bind]
  refine (wp_ite _ _ _ _).mpr ⟨fun _ => ?_, fun _ => ?_⟩
  · refine wp.bind (P := fun _ s₂ => s₂.log = s₁.log ∧ s₂.foe.foestate = .ready ∧
        s₂.foe.fbuffer = s₁.foe.fbuffer)
      (.when (fun _ => (foeAbort_foe _).mono fun _ s₂ ⟨hout, hfoe⟩ => ?_) fun hall => ?_)
      fun _ s₂ ⟨hlog₂, hready₂, hbuffer₂⟩ => ?_
    · exact ⟨congrArg Prod.snd hout, by rw [hfoe]; rfl, by rw [hfoe]; rfl⟩
    · exact (hall (by omega)).elim
    · refine foeSendAck_foe.bind fun res s₃ ⟨hout₃, hack, hnone, _⟩ => ?_
      have hlog₃ : s₃.log = s₁.log := (congrArg Prod.snd hout₃).trans hlog₂
      refine .when (fun hres => (foeAbort_foe _).mono fun _ s₄ ⟨hout₄, hfoe₄⟩ => ?_) fun hres => ?_
      · refine done ((congrArg Prod.snd hout₄).trans hlog₃) (by rw [hfoe₄]; rfl) ?_
        rw [hfoe₄, hnone hres]
        exact hbuffer₂
      · have hfoe₃ := hack (not_not.mp hres)
        exact done hlog₃ (by rw [hfoe₃]; exact hready₂) (by rw [hfoe₃]; exact hbuffer₂)
  · exact (wp_ite _ _ _ _).mpr ⟨fun _ => aborted _, fun hall => by omega⟩

/-- The data of a packet that the file takes. -/
lemma foeDataAccepted_whole (hB : 0 < env.cfg.bufferSize) (hf : env.cfg.files[i]? = some f)
    (hzero : ∀ o v b k, (f.writeFunction o v b k).2 = 0) (hmax : f.maxData < 2 ^ 32)
    (h : AwaitingData env.cfg i f packets s) (hnext : s.mb.isNext packets)
    (hsize : s.mb.foePacketSize ≠ 0)
    (hfit : packets.flatten.length + s.mb.foePacketSize ≤ f.maxData) :
    wp env.logged n (foeDataAccepted s.mb.foePacketSize)
      (fun _ s' => PacketDone env.opts env.cfg i f packets s.mb s s') s := by
  have hlen := s.mb.length_foePacket
  have hsome : s.mb.foePacket ≠ [] := mt s.mb.foePacket_eq_nil.mp hsize
  refine (foeFwrite_delivering hB hf hzero hmax _ h.delivering h.totalSize).bind
    fun k s₁ ⟨hk, h₁, hmb, hstate, hpacket, htotal, hbeyond⟩ => ?_
  have hall : k = s.mb.foePacketSize := by omega
  rw [hall] at h₁ htotal ⊢
  change Delivering env.cfg i f (packets.flatten ++ s.mb.foePacket) s₁ at h₁
  refine (wp_ite _ _ _ _).mpr ⟨fun hnone => (hsize hnone).elim, fun _ => ?_⟩
  rw [wp_get_bind, hmb]
  refine (wp_ite _ _ _ _).mpr ⟨fun hfull => ?_, fun hpartial => ?_⟩
  · have hmore : ¬ s.mb.isLast := by
      rintro (hnil | hne)
      · exact hsome hnil
      · exact hne hfull
    have done {s' : FoeMem (σ × List WriteCall)} (hbuffer : s'.foe.fbuffer = s₁.foe.fbuffer)
        (hlog : s'.log = s₁.log) (hwaiting : s'.foe.foestate = .waitForData →
          AwaitingData env.cfg i f (packets ++ [s.mb.foePacket]) s')
        (hfree : s.mb.HasFree env.opts → s'.foe.foestate = .waitForData) :
        PacketDone env.opts env.cfg i f packets s.mb s s' := by
      constructor
      case beyond =>
        intro k hk
        rw [hbuffer]
        exact hbeyond k hk
      case wrong => exact fun hwrong => (hwrong hnext).elim
      case tooLong => exact fun _ hlong => by omega
      case wraps => exact fun _ hround => by omega
      case last => exact fun _ hlast => (hmore hlast).elim
      case more => exact fun _ _ => ⟨hlog.trans h₁.log, hwaiting, hfree⟩
    rw [wp_bind]
    refine .when (fun hne => (hne rfl).elim) fun _ => ?_
    refine foeSendAck_foe.bind fun res s₂ ⟨hout, hack, hnone, hfree⟩ => ?_
    have hlog₂ : s₂.log = s₁.log := congrArg Prod.snd hout
    refine .when (fun hres => (foeAbort_foe _).mono fun _ s₃ ⟨hout₃, hfoe₃⟩ => ?_) fun hres => ?_
    · rw [hnone hres] at hfoe₃
      refine done (by rw [hfoe₃]; rfl) ((congrArg Prod.snd hout₃).trans hlog₂) (fun hw => ?_)
        fun hany => (hres (hfree (hmb ▸ hany))).elim
      rw [hfoe₃] at hw
      cases hw
    · have hfoe₂ := hack (not_not.mp hres)
      have hwaits : s₂.foe.foestate = .waitForData := by
        rw [hfoe₂]
        exact hstate.trans h.foestate
      refine done (by rw [hfoe₂]) hlog₂ (fun _ => ⟨hwaits, ?_, ?_, ?_⟩) fun _ => hwaits
      · have hflat : (packets ++ [s.mb.foePacket]).flatten = packets.flatten ++ s.mb.foePacket :=
          List.flatten_concat
        rw [hflat]
        refine ⟨?_, ?_, h₁.fits, ?_, ?_, ?_, hlog₂.trans h₁.log, ?_⟩ <;> rw [hfoe₂]
        · exact h₁.file
        · exact h₁.fend
        · exact h₁.fposition
        · exact h₁.fbufposition
        · exact h₁.fbuffer
        · exact h₁.addressOffset
      · rw [hfoe₂, List.flatten_concat, List.length_append, hlen]
        exact htotal
      · rw [hfoe₂]
        change s₁.foe.foepacket + 1 = _
        rw [hpacket, h.foepacket, List.length_append, List.length_singleton]
        exact (BitVec.ofNat_add _ _).symm
  · refine (wp_ite _ _ _ _).mpr ⟨fun hne => (hne rfl).elim, fun _ => ?_⟩
    refine (foeFclose_delivering hf hzero h₁).bind
      fun failed s₂ ⟨hfailed, _, hlog₂, htotal₂, hbuffer₂⟩ => ?_
    refine (wp_ite _ _ _ _).mpr ⟨fun hne => (hne hfailed).elim, fun _ => ?_⟩
    refine foeAcknowledge_foe.mono fun _ s' ⟨hlog', hready, hfiles, hbuffer'⟩ => ?_
    constructor
    case beyond =>
      intro k hk
      rw [hbuffer', hbuffer₂]
      exact hbeyond k hk
    case wrong => exact fun hwrong => (hwrong hnext).elim
    case tooLong => exact fun _ hlong => by omega
    case wraps => exact fun _ hround => by omega
    case last =>
      intro _ _
      rw [hfiles, htotal₂, htotal, hlen]
      exact ⟨hready, hlog'.trans hlog₂, rfl⟩
    case more => exact fun _ hmore => (hmore (.inr hpartial)).elim

/-- A data packet, while a transfer waits for one. -/
lemma foeData_done (hB : 0 < env.cfg.bufferSize) (hf : env.cfg.files[i]? = some f)
    (hzero : ∀ o v b k, (f.writeFunction o v b k).2 = 0) (hmax : f.maxData < 2 ^ 32)
    (h : AwaitingData env.cfg i f packets s) (hdata : s.mb.IsData) :
    wp env.logged n foeData (fun _ s' => PacketDone env.opts env.cfg i f packets s.mb s s') s := by
  have hpos := h.delivering.fposition
  have hend := h.delivering.fend
  have hfits := h.delivering.fits
  have hsize := hdata.size_lt
  have hlen := s.mb.length_foePacket
  rw [foeData, wp_get_bind]
  dsimp only
  refine (wp_ite _ _ _ _).mpr ⟨fun hno => (hno h.foestate).elim, fun _ => ?_⟩
  refine (wp_ite _ _ _ _).mpr ⟨fun hnumber => ?_, fun hnumber => ?_⟩
  · have hwrong : ¬ s.mb.isNext packets := fun hnext => hnumber (hnext.trans h.foepacket.symm)
    refine (foeAbort_foe _).mono fun _ s' hthen => ?_
    obtain ⟨hout, hfoe⟩ := hthen
    constructor
    case beyond => exact fun k _ => by rw [hfoe]; rfl
    case wrong => exact fun _ => ⟨by rw [hfoe]; rfl, congrArg Prod.snd hout⟩
    case tooLong => exact fun hnext => (hwrong hnext).elim
    case wraps => exact fun hnext => (hwrong hnext).elim
    case last => exact fun hacc => (hwrong hacc.1).elim
    case more => exact fun hacc => (hwrong hacc.1).elim
  have hnext : s.mb.isNext packets := (not_not.mp hnumber).trans h.foepacket
  change wp env.logged n (if s.mb.foePacketSize = 0 then _ else
    if s.foe.fend < (s.foe.fposition + s.mb.foePacketSize) % 2 ^ 32 then _
    else foeDataAccepted s.mb.foePacketSize) _ _
  refine (wp_ite _ _ _ _).mpr ⟨fun hempty => ?_, fun hsome => ?_⟩
  · have hnil : s.mb.foePacket = [] := s.mb.foePacket_eq_nil.mpr hempty
    refine (foeFclose_delivering hf hzero h.delivering).bind
      fun failed s₁ hthen => ?_
    obtain ⟨_, _, hlog, htotal, hbuffer⟩ := hthen
    refine foeAcknowledge_foe.mono fun _ s' hthen => ?_
    obtain ⟨hlog', hready, hfiles, hbuffer'⟩ := hthen
    constructor
    case beyond => exact fun k _ => by rw [hbuffer', hbuffer]
    case wrong => exact fun hwrong => (hwrong hnext).elim
    case tooLong => exact fun _ hlong => by omega
    case wraps => exact fun _ hlong => by omega
    case last =>
      intro _ _
      rw [hnil, List.append_nil, hfiles]
      exact ⟨hready, hlog'.trans hlog, htotal.trans h.totalSize⟩
    case more => exact fun _ hmore => (hmore (.inl hnil)).elim
  refine (wp_ite _ _ _ _).mpr ⟨fun hlong => ?_, fun hshort => ?_⟩
  · refine (foeAbort_foe _).mono fun _ s' hthen => ?_
    obtain ⟨hout, hfoe⟩ := hthen
    rw [hpos, hend] at hlong
    have hrefused : ¬ f.accepts packets s.mb := by
      rintro ⟨-, hle⟩
      omega
    constructor
    case beyond => exact fun k _ => by rw [hfoe]; rfl
    case wrong => exact fun hwrong => (hwrong hnext).elim
    case tooLong => exact fun _ _ _ => ⟨by rw [hfoe]; rfl, congrArg Prod.snd hout⟩
    case wraps => exact fun _ hround => by omega
    case last => exact fun hacc => (hrefused hacc).elim
    case more => exact fun hacc => (hrefused hacc).elim
  · rw [hpos, hend] at hshort
    rcases Nat.lt_or_ge f.maxData (packets.flatten.length + s.mb.foePacketSize) with hlong | hfit
    · exact foeDataAccepted_part hB hf hzero hmax h hnext (by omega)
    · exact foeDataAccepted_whole hB hf hzero hmax h hnext hsome hfit

/-- The log and the server's variables are all that counts. -/
lemma AwaitingData.congr {cfg : FoeCfg σ} {s' : FoeMem (σ × List WriteCall)}
    (h : AwaitingData cfg i f packets s) (hlog : s'.log = s.log) (hfoe : s'.foe = s.foe) :
    AwaitingData cfg i f packets s' := by
  obtain ⟨hstate, hd, htotal, hpacket⟩ := h
  refine ⟨by rw [hfoe]; exact hstate, ?_, by rw [hfoe]; exact htotal, by rw [hfoe]; exact hpacket⟩
  refine ⟨?_, ?_, hd.fits, ?_, ?_, ?_, hlog.trans hd.log, ?_⟩ <;> rw [hfoe]
  · exact hd.file
  · exact hd.fend
  · exact hd.fposition
  · exact hd.fbufposition
  · exact hd.fbuffer
  · exact hd.addressOffset

/-- `ESC_foeprocess` hands a data packet on. -/
lemma escFoeprocess_done (hB : 0 < env.cfg.bufferSize) (hf : env.cfg.files[i]? = some f)
    (hzero : ∀ o v b k, (f.writeFunction o v b k).2 = 0) (hmax : f.maxData < 2 ^ 32)
    (h : AwaitingData env.cfg i f packets s) (hdata : s.mb.IsData) :
    wp env.logged n escFoeprocess (fun _ s' => PacketDone env.opts env.cfg i f packets s.mb s s')
      s := by
  have dispatched (s₁ : FoeMem (σ × List WriteCall)) (hlog : s₁.log = s.log)
      (hfoe : s₁.foe = s.foe) (hmb : s₁.mb = { s.mb with xoe := s₁.mb.xoe })
      (hdata₁ : s₁.mb.IsData) :
      wp env.logged n (foeDispatch s₁.mb)
        (fun _ s' => PacketDone env.opts env.cfg i f packets s.mb s s') s₁ := by
    refine (wp_ite _ _ _ _).mpr ⟨fun hshort => absurd hdata₁.length (by omega), fun _ => ?_⟩
    refine (wp_ite _ _ _ _).mpr ⟨fun hwrq => ?_, fun _ => ?_⟩
    · rw [hdata₁.opcode] at hwrq
      exact absurd hwrq (by decide)
    refine (wp_ite _ _ _ _).mpr ⟨fun _ => ?_, fun hno => (hno hdata₁.opcode).elim⟩
    refine (foeData_done hB hf hzero hmax (h.congr hlog hfoe) hdata₁).mono fun _ s' hdone => ?_
    obtain ⟨hbeyond, hwrong, htoolong, hwraps, hlast, hmore⟩ := hdone
    rw [hfoe] at hbeyond
    rw [hlog] at hwrong htoolong
    rw [hmb] at hwrong htoolong hwraps hlast hmore
    exact ⟨hbeyond, hwrong, htoolong, hwraps, hlast, hmore⟩
  rw [escFoeprocess, wp_get_bind]
  refine .when (fun _ => ?_) fun hno => (hno hdata.handled.1).elim
  rw [wp_get_bind]
  refine wp.bind (P := fun _ s₁ => s₁.log = s.log ∧ s₁.foe = s.foe ∧
      s₁.mb = { s.mb with xoe := mbxfoe })
    (.when (fun _ => (wp_foeModifyMb _ _).mpr ⟨rfl, rfl, rfl⟩) fun hnot => ⟨rfl, rfl, ?_⟩)
    fun _ s₁ hthen => ?_
  · rcases hdata.handled.2 with hxoe | hclaim
    · rw [← hxoe]
    · exact (hnot hclaim).elim
  · obtain ⟨hlog, hfoe, hmb⟩ := hthen
    have hxoe : s₁.mb.xoe = mbxfoe := by rw [hmb]
    have hdata₁ : s₁.mb.IsData := by
      rw [hmb]
      exact ⟨⟨hdata.handled.1, .inl rfl⟩, hdata.length, hdata.fits, hdata.opcode⟩
    rw [wp_get_bind]
    refine .when (fun _ => ?_) fun hno => (hno hxoe).elim
    refine (dispatched s₁ hlog hfoe (by rw [hmb]) hdata₁).bind fun _ s₂ hdone => ?_
    rw [wp_foeModifyMb]
    obtain ⟨hbeyond, hwrong, htoolong, hwraps, hlast, hmore⟩ := hdone
    exact ⟨hbeyond, hwrong, htoolong, hwraps, hlast, fun hacc hnot =>
      ⟨(hmore hacc hnot).1, fun hw => ((hmore hacc hnot).2.1 hw).congr rfl rfl,
        (hmore hacc hnot).2.2⟩⟩

end code

/-! ## Transfers -/

variable {cfg : FoeCfg σ} {i : ℕ} {f : FoeFile σ} {packets : List (List Byte)}
  {s s' : FoeMem (σ × List WriteCall)}

/-- A transfer that was just opened waits for its first packet. -/
lemma AwaitingData.opened {v : Foe} (hlog : s.log = []) (hfoe : s.foe = v.opened i f.maxData) :
    AwaitingData cfg i f [] s := by
  have hhanded : cfg.handed [] = [] := by
    rw [FoeCfg.handed]
    split <;> rfl
  refine ⟨by rw [hfoe]; rfl, ?_, ?_, by rw [hfoe]; rfl⟩
  · constructor
    case file => rw [hfoe]; rfl
    case fend => rw [hfoe]; rfl
    case fits => exact Nat.zero_le _
    case fposition => rw [hfoe]; rfl
    case fbufposition => rw [hfoe]; rfl
    case fbuffer => rw [hfoe]; rfl
    case log =>
      rw [List.flatten_nil, hhanded]
      exact hlog
    case addressOffset =>
      rw [List.flatten_nil, hhanded, hfoe]
      exact congrArg FoeFileVar.addressOffset (if_pos rfl)
  · rw [hfoe]
    exact congrArg FoeFileVar.totalSize (if_pos rfl)

/-- An open transfer waits for a packet, with the bytes of the packets accepted. -/
lemma OpenTransfer.waiting (hB : 0 < cfg.bufferSize)
    (hzero : ∀ o v b k, (f.writeFunction o v b k).2 = 0) (hmax : f.maxData < 2 ^ 32)
    (h : OpenTransfer cfg i f packets s) :
    cfg.files[i]? = some f ∧ AwaitingData cfg i f packets s := by
  induction h with
  | opened hcfg hf hopens hrun hw =>
      refine ⟨hf, ?_⟩
      subst hcfg
      have hturn := escFoeprocess_turn _ () _ hrun
      rcases hturn.waiting hw with ⟨-, -, hnone⟩ | ⟨j, f', hj, hf', hfoe⟩
      · rw [FoeMem.erase_logging, hopens] at hnone
        cases hnone
      · rw [FoeMem.erase_logging, hopens] at hj
        cases hj
        cases hf.symm.trans hf'
        obtain ⟨cs, hlog, hcs⟩ := hturn.calls
        have hnil : cs = [] := by
          cases cs with
          | nil => rfl
          | cons c cs =>
              have hready := (FoeMem.of_opens hopens).2.1
              have hwaiting := (hcs c List.mem_cons_self).1
              rw [FoeMem.logging_foe, hready] at hwaiting
              cases hwaiting
        rw [hnil, List.append_nil] at hlog
        exact .opened hlog hfoe
  | @packet env n packets o m s s' hs hcfg hdata hacc hrun hw ih =>
      obtain ⟨hf, hwaiting⟩ := ih
      refine ⟨hf, ?_⟩
      subst hcfg
      have hreceived : AwaitingData env.cfg i f packets (s.receive o m) := hwaiting.congr rfl rfl
      have hdone := escFoeprocess_done hB hf hzero hmax hreceived hdata |>.wlp () _ hrun
      by_cases hlast : m.isLast
      · have hready := (hdone.last hacc hlast).1
        rw [hw] at hready
        cases hready
      · exact (hdone.more hacc hlast).2.1 hw

/-- Everything is handed over at the end, unless the position went round. -/
lemma FoeCfg.handed_rest (cfg : FoeCfg σ) (got : List Byte)
    (h : cfg.bufferSize < 2 ^ 16 ∨ got.length < 2 ^ 16) :
    (cfg.handed got ++ [(Buffered.ofList cfg.capacity got).rest]).flatten = got := by
  rw [List.flatten_concat]
  rcases Nat.lt_or_ge cfg.bufferSize (2 ^ 16) with hB | hB
  · rw [FoeCfg.handed, if_pos hB]
    exact Buffered.contents_ofList got
  · have hshort : got.length < cfg.capacity := by
      rw [FoeCfg.capacity, Nat.min_eq_right hB]
      exact h.resolve_left (Nat.not_lt.mpr hB)
    rw [FoeCfg.handed_large hB, Buffered.rest_of_lt got hshort]
    rfl

/-- What the position going round loses. -/
lemma FoeCfg.handed_rest_lt {cfg : FoeCfg σ} (hB : 2 ^ 16 ≤ cfg.bufferSize) (got : List Byte) :
    (cfg.handed got ++ [(Buffered.ofList cfg.capacity got).rest]).flatten.length < 2 ^ 16 := by
  have hpos : 0 < cfg.bufferSize := Nat.lt_of_lt_of_le (by decide) hB
  have hlt := (Buffered.fits_ofList (FoeCfg.capacity_pos hpos) got).rest_lt
  have hcapacity : cfg.capacity ≤ 2 ^ 16 := Nat.min_le_right _ _
  rw [FoeCfg.handed_large hB, List.nil_append, List.flatten_singleton]
  omega

/-- No more is handed over of more bytes if no buffer is completed by them. -/
lemma FoeCfg.handed_append (hB : 0 < cfg.bufferSize) (got more : List Byte)
    (h : 2 ^ 16 ≤ cfg.bufferSize ∨
      (got.length + more.length) / cfg.bufferSize = got.length / cfg.bufferSize) :
    cfg.handed (got ++ more) = cfg.handed got := by
  rcases Nat.lt_or_ge cfg.bufferSize (2 ^ 16) with hlt | hge
  · have hcapacity : cfg.capacity = cfg.bufferSize := Nat.min_eq_left (Nat.le_of_lt hlt)
    rw [FoeCfg.handed, FoeCfg.handed, if_pos hlt, if_pos hlt, hcapacity]
    exact (Buffered.chunks_append_eq_iff hB got more).mpr (h.resolve_left (Nat.not_le.mpr hlt))
  · rw [FoeCfg.handed_large hge, FoeCfg.handed_large hge]

/-- A buffer that is completed is handed over. -/
lemma FoeCfg.of_handed_append (hB : 0 < cfg.bufferSize) {got more : List Byte}
    (h : cfg.handed (got ++ more) = cfg.handed got) : 2 ^ 16 ≤ cfg.bufferSize ∨
      (got.length + more.length) / cfg.bufferSize = got.length / cfg.bufferSize := by
  rcases Nat.lt_or_ge cfg.bufferSize (2 ^ 16) with hlt | hge
  · have hcapacity : cfg.capacity = cfg.bufferSize := Nat.min_eq_left (Nat.le_of_lt hlt)
    rw [FoeCfg.handed, FoeCfg.handed, if_pos hlt, if_pos hlt, hcapacity] at h
    exact .inr ((Buffered.chunks_append_eq_iff hB got more).mp h)
  · exact .inl hge

/-- What becomes of a packet is what is expected of it exactly if the counters suffice. -/
lemma PacketDone.delivers_iff {o : Options} {m : Mailbox} (hB : 0 < cfg.bufferSize)
    (hwaiting : AwaitingData cfg i f packets s) (hdone : PacketDone o cfg i f packets m s s') :
    Delivers cfg i f packets m s s' ↔ CountersSuffice cfg f packets m := by
  have hlog : s.log = writeCalls i 0 (cfg.handed packets.flatten) := hwaiting.delivering.log
  have hfits := hwaiting.delivering.fits
  constructor
  · intro hdelivers
    refine ⟨fun hacc hlast => ?_, fun hnext hlong => ?_⟩
    · by_contra hnot
      obtain ⟨hsmall, hshort⟩ := not_or.mp hnot
      obtain ⟨-, hlast', -⟩ := hdone.last hacc hlast
      have hall := (hdelivers.completed hacc hlast).2.1
      rw [hlast', delivered_writeCalls] at hall
      have hlt := FoeCfg.handed_rest_lt (Nat.not_lt.mp hsmall) (packets.flatten ++ m.foePacket)
      rw [hall, List.length_append] at hlt
      exact hshort hlt
    · rcases Nat.lt_or_ge (packets.flatten.length + m.foePacket.length) (2 ^ 32) with hlt | hround
      · exact .inl hlt
      · have hrefused := hdelivers.refused fun hacc => Nat.not_le.mpr hlong hacc.2
        have hsame : s'.log = writeCalls i 0 (cfg.handed packets.flatten) :=
          hrefused.2.trans hlog
        rw [(hdone.wraps hnext hround).2] at hsame
        have hcompleted := FoeCfg.of_handed_append hB (writeCalls_injective hsame)
        rw [ByteStore.length_bytes, Nat.add_sub_cancel' hfits] at hcompleted
        exact .inr hcompleted
  · rintro ⟨hlastOk, hlongOk⟩
    have refused (hno : ¬ f.accepts packets m) : s'.foe.foestate = .ready ∧ s'.log = s.log := by
      by_cases hnext : m.isNext packets
      · have hlong : f.maxData < packets.flatten.length + m.foePacket.length :=
          Nat.not_le.mp fun hle => hno ⟨hnext, hle⟩
        rcases Nat.lt_or_ge (packets.flatten.length + m.foePacket.length) (2 ^ 32) with hlt | hround
        · exact hdone.tooLong hnext hlong hlt
        · obtain ⟨hready, hlog'⟩ := hdone.wraps hnext hround
          refine ⟨hready, hlog'.trans (Eq.trans ?_ hlog.symm)⟩
          have hnone := (hlongOk hnext hlong).resolve_left (Nat.not_lt.mpr hround)
          rw [FoeCfg.handed_append hB _ _
            (by rwa [ByteStore.length_bytes, Nat.add_sub_cancel' hfits])]
      · exact hdone.wrong hnext
    -- whatever becomes of the packet, the calls hand over one chunk after another
    have calls : ∃ chunks, s'.log = writeCalls i 0 chunks := by
      by_cases hacc : f.accepts packets m
      · by_cases hlast : m.isLast
        · exact ⟨_, (hdone.last hacc hlast).2.1⟩
        · exact ⟨_, (hdone.more hacc hlast).1⟩
      · exact ⟨_, (refused hacc).2.trans hlog⟩
    obtain ⟨chunks, hchunks⟩ := calls
    constructor
    case file =>
      rw [hchunks]
      exact fun c hc => file_of_mem_writeCalls hc
    case contiguous =>
      rw [hchunks]
      exact writeCalls_contiguous i 0 chunks
    case bounded => exact hdone.beyond
    case refused => exact refused
    case completed =>
      intro hacc hlast
      obtain ⟨hready, hlast', htotal⟩ := hdone.last hacc hlast
      refine ⟨hready, ?_, htotal⟩
      rw [hlast', delivered_writeCalls]
      refine FoeCfg.handed_rest _ _ ?_
      rw [List.length_append]
      exact hlastOk hacc hlast

/-- **The FoE server delivers the file exactly if its counters suffice.** -/
theorem foe_delivers_iff (hB : 0 < cfg.bufferSize)
    (hzero : ∀ o v b k, (f.writeFunction o v b k).2 = 0) (hmax : f.maxData < 2 ^ 32)
    (h : OpenTransfer cfg i f packets s) {env : FoeEnv σ} (hcfg : env.cfg = cfg) (n : ℕ) (o : σ)
    {m : Mailbox} (hdata : m.IsData) :
    ∃ s', escFoeprocess env.logged n (s.receive o m) = .ok () s' ∧
      (Delivers cfg i f packets m s s' ↔ CountersSuffice cfg f packets m) := by
  obtain ⟨hf, hwaiting⟩ := h.waiting hB hzero hmax
  subst hcfg
  have hreceived : AwaitingData env.cfg i f packets (s.receive o m) := hwaiting.congr rfl rfl
  obtain ⟨_, s', hrun, hdone⟩ := escFoeprocess_done (n := n) hB hf hzero hmax hreceived hdata
  have hdone' : PacketDone env.opts env.cfg i f packets m s s' :=
    ⟨hdone.beyond, hdone.wrong, hdone.tooLong, hdone.wraps, hdone.last, hdone.more⟩
  exact ⟨s', hrun, hdone'.delivers_iff hB hwaiting⟩

/-! ## A large file -/

/-- A file of up to 70000 bytes. -/
def largeFile : FoeFile Unit where
  name := [0x66]
  maxData := 70000
  filepass := 0
  writeOnlyInBoot := false
  writeFunction o _ _ _ := (o, 0)

/-- What the FoE code is given: that file, and a buffer of 64 KiB. -/
def largeEnv : FoeEnv Unit := ⟨exampleOptions, ⟨65536, [largeFile]⟩, 2⟩

/-- Mailboxes of 1486 bytes with an FoE message in the inbox, whose first character is that of the
file's name. -/
def largeInbox (opcode : Byte) (number : Dword) (length : Word) : Mailbox :=
  { (World.zeroed () 0 fun _ => 0).mb with
    mbx := ((((ByteStore.setWord (fun _ => 0) 0 length).set 5 mbxfoe).set 6 opcode).set 12
      0x66).setDword 8 number
    control := fun k => if k = 0 then .inclaim else .idle
    mbxRun := true
    activembxsize := 1486 }

lemma largeInbox_length (opcode : Byte) (number : Dword) (length : Word) :
    (largeInbox opcode number length).headerLength 0 = length := by
  simp only [largeInbox, Mailbox.headerLength, Mailbox.buffer, Nat.zero_mul]
  rw [ByteStore.word_setDword_of_disjoint _ (by omega), ByteStore.word_set_of_disjoint _ (by omega),
    ByteStore.word_set_of_disjoint _ (by omega), ByteStore.word_set_of_disjoint _ (by omega),
    ByteStore.word_setWord]

lemma largeInbox_size (opcode : Byte) (number : Dword) (length : Word) :
    (largeInbox opcode number length).foePacketSize = sub32 length.toNat escFoehsize := by
  rw [Mailbox.foePacketSize, largeInbox_length]

/-- A data packet, with a number. -/
lemma largeInbox_isData (number : Dword) {length : Word} (h : escFoehsize ≤ length.toNat)
    (hfits : length.toNat ≤ 1480) : (largeInbox foeOpData number length).IsData := by
  refine ⟨⟨rfl, .inr ⟨rfl, rfl, ?_⟩⟩, ?_, ?_, ?_⟩
  · simp [largeInbox, Mailbox.mbxtype, Mailbox.buffer, ByteStore.setDword, ByteStore.copy,
      ByteStore.set]
  · rwa [largeInbox_length]
  · rw [largeInbox_length]
    exact Nat.add_le_add_left hfits escMbxhsize
  · simp [largeInbox, Mailbox.foeOpcode, ByteStore.setDword, ByteStore.copy, ByteStore.set]

lemma largeInbox_isNext (opcode : Byte) (length : Word) (packets : List (List Byte)) :
    (largeInbox opcode (BitVec.ofNat 32 (packets.length + 1)) length).isNext packets :=
  ByteStore.dword_setDword _

lemma largeInbox_free (opcode : Byte) (number : Dword) (length : Word) :
    (largeInbox opcode number length).HasFree exampleOptions := by
  simp only [Mailbox.HasFree, largeInbox, exampleOptions]
  decide

lemma largeInbox_dataSize (opcode : Byte) (number : Dword) (length : Word) :
    (largeInbox opcode number length).foeDataSize = 1474 :=
  (by decide : sub32 1486 (escMbxhsize + escFoehsize) = 1474)

/-- The FoE side before a message is handled. -/
def largeMem (m : Mailbox) : FoeMem Unit where
  outside := ()
  mb := m
  foe := (Device.zeroed () 0 fun _ => 0).foe

/-- The message that opens the file. -/
def largeWrq : Mailbox := largeInbox foeOpWrq 0 7

/-- The file is opened. -/
lemma largeTransfer_opened : ∃ s, OpenTransfer largeEnv.cfg 0 largeFile [] s := by
  have hseen : (escFoeprocess largeEnv.logged 8 (largeMem largeWrq).logging).seen
      (fun s => s.foe.foestate) = some FoeState.waitForData := by
    decide +kernel
  have hopens : (largeMem largeWrq).opens largeEnv = some 0 := by decide +kernel
  cases hrun : escFoeprocess largeEnv.logged 8 (largeMem largeWrq).logging with
  | ok a s =>
      rw [hrun] at hseen
      exact ⟨s, .opened rfl rfl hopens hrun (Option.some.inj hseen)⟩
  | fault e =>
      rw [hrun] at hseen
      cases hseen
  | diverge =>
      rw [hrun] at hseen
      cases hseen

/-- A packet of the file, with the number that is due. -/
lemma largePacket {packets : List (List Byte)} {s : FoeMem (Unit × List WriteCall)}
    (hs : OpenTransfer largeEnv.cfg 0 largeFile packets s) {length : Word}
    (h : escFoehsize ≤ length.toNat) (hfits : length.toNat ≤ 1480) :
    ∃ m s', m.IsData ∧ m.isNext packets ∧
      m.foePacketSize = sub32 length.toNat escFoehsize ∧ m.foeDataSize = 1474 ∧
      escFoeprocess largeEnv.logged 8 (s.receive () m) = .ok () s' ∧
      AwaitingData largeEnv.cfg 0 largeFile packets s ∧
      PacketDone largeEnv.opts largeEnv.cfg 0 largeFile packets m s s' ∧
      m.HasFree largeEnv.opts := by
  have hB : 0 < largeEnv.cfg.bufferSize := by decide
  have hmax : largeFile.maxData < 2 ^ 32 := by decide
  obtain ⟨hf, hwaiting⟩ := hs.waiting hB (fun _ _ _ _ => rfl) hmax
  obtain ⟨m, hm⟩ : ∃ m, m = largeInbox foeOpData (BitVec.ofNat 32 (packets.length + 1)) length :=
    ⟨_, rfl⟩
  have hdata : m.IsData := hm ▸ largeInbox_isData _ h hfits
  have hreceived : AwaitingData largeEnv.cfg 0 largeFile packets (s.receive () m) :=
    hwaiting.congr rfl rfl
  have done : wp largeEnv.logged 8 escFoeprocess (fun _ s' =>
      PacketDone largeEnv.opts largeEnv.cfg 0 largeFile packets m (s.receive () m) s')
      (s.receive () m) :=
    escFoeprocess_done hB hf (fun _ _ _ _ => rfl) hmax hreceived hdata
  obtain ⟨_, s', hrun, hdone⟩ := done
  refine ⟨m, s', hdata, ?_, ?_, ?_, hrun, hwaiting, ?_, ?_⟩
  · exact hm ▸ largeInbox_isNext _ _ _
  · exact hm ▸ largeInbox_size _ _ _
  · exact hm ▸ largeInbox_dataSize _ _ _
  · exact ⟨hdone.beyond, hdone.wrong, hdone.tooLong, hdone.wraps, hdone.last, hdone.more⟩
  · exact hm ▸ largeInbox_free _ _ _

/-- `k` packets of full size are accepted. -/
lemma largeTransfer (k : ℕ) (hk : k ≤ 45) : ∃ packets s,
    OpenTransfer largeEnv.cfg 0 largeFile packets s ∧ packets.flatten.length = 1474 * k := by
  induction k with
  | zero =>
      obtain ⟨s, hs⟩ := largeTransfer_opened
      exact ⟨[], s, hs, rfl⟩
  | succ k ih =>
      obtain ⟨packets, s, hs, hlength⟩ := ih (by omega)
      obtain ⟨m, s', hdata, hnext, hsize, hfull, hrun, -, hdone, hfree⟩ :=
        largePacket hs (by decide : escFoehsize ≤ (1480 : Word).toNat) (by decide)
      have hsize' : m.foePacketSize = 1474 := hsize.trans (by decide)
      have hlen : m.foePacket.length = 1474 := m.length_foePacket.trans hsize'
      have hacc : largeFile.accepts packets m := by
        refine ⟨hnext, ?_⟩
        rw [hlength, hlen]
        change 1474 * k + 1474 ≤ 70000
        omega
      have hmore : ¬ m.isLast := by
        rintro (hnil | hne)
        · rw [hnil] at hlen
          cases hlen
        · exact hne (hsize'.trans hfull.symm)
      have hw := (hdone.more hacc hmore).2.2 hfree
      refine ⟨_, s', .packet hs rfl hdata hacc hrun hw, ?_⟩
      rw [List.flatten_concat, List.length_append, hlength, hlen]
      omega

/-- A file of three bytes is delivered. -/
theorem foe_delivers_example : ∃ (packets : List (List Byte)) (m : Mailbox)
    (s s' : FoeMem (Unit × List WriteCall)), m.foePacket.length = 3 ∧
      OpenTransfer largeEnv.cfg 0 largeFile packets s ∧
      escFoeprocess largeEnv.logged 8 (s.receive () m) = .ok () s' ∧
      Delivers largeEnv.cfg 0 largeFile packets m s s' := by
  obtain ⟨s, hs⟩ := largeTransfer_opened
  have hsize : (largeInbox foeOpData 1 9).foePacket.length = 3 := by
    rw [length_foePacket, largeInbox_size]
    decide
  have hmax : largeFile.maxData < 2 ^ 32 := by decide
  obtain ⟨s', hrun, hiff⟩ := foe_delivers_iff (by decide) (fun _ _ _ _ => rfl) hmax hs rfl 8 ()
    (largeInbox_isData 1 (by decide : escFoehsize ≤ (9 : Word).toNat) (by decide))
  refine ⟨[], _, s, s', hsize, hs, hrun, hiff.mpr ⟨fun _ _ => .inr ?_, fun _ _ => .inl ?_⟩⟩
  · rw [hsize]
    decide
  · rw [hsize]
    decide

/-- A file of 65536 bytes or more is not delivered through a buffer of 64 KiB. -/
theorem large_file_lost : ¬ ∀ (cfg : FoeCfg Unit) (i : ℕ) (f : FoeFile Unit)
    (packets : List (List Byte)) (s s' : FoeMem (Unit × List WriteCall)) (env : FoeEnv Unit) (n : ℕ)
    (m : Mailbox), 0 < cfg.bufferSize → (∀ o v b k, (f.writeFunction o v b k).2 = 0) →
    f.maxData < 2 ^ 32 → OpenTransfer cfg i f packets s → env.cfg = cfg → m.IsData →
    escFoeprocess env.logged n (s.receive () m) = .ok () s' → Delivers cfg i f packets m s s' := by
  intro h
  obtain ⟨packets, s, hs, hlength⟩ := largeTransfer 44 (by omega)
  obtain ⟨m, s', hdata, hnext, hsize, hfull, hrun, hwaiting, hdone, -⟩ :=
    largePacket hs (by decide : escFoehsize ≤ (1000 : Word).toNat) (by decide)
  have hmax : largeFile.maxData < 2 ^ 32 := by decide
  have hsize' : m.foePacketSize = 994 := hsize.trans (by decide)
  have hlen : m.foePacket.length = 994 := m.length_foePacket.trans hsize'
  have hacc : largeFile.accepts packets m := by
    refine ⟨hnext, ?_⟩
    rw [hlength, hlen]
    decide
  have hlast : m.isLast := .inr (by rw [hsize', hfull]; decide)
  have hdelivers := h largeEnv.cfg 0 largeFile packets s s' largeEnv 8 m (by decide)
    (fun _ _ _ _ => rfl) hmax hs rfl hdata hrun
  have hsuffice := (hdone.delivers_iff (by decide) hwaiting).mp hdelivers
  have hsmall := hsuffice.1 hacc hlast
  rw [hlength, hlen] at hsmall
  exact absurd hsmall (by decide)

end Soes
