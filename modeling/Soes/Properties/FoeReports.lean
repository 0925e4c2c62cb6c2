import Soes.Properties.FoeDelivery
import Soes.Properties.SdoReplies

/-!
# What the FoE server acknowledges

A data packet is answered with an ACK if it was stored, and with an error if not; a write function
of the application may fail in the middle of a packet, at its end, or when the file is closed
(`storeBytes` gives what is stored).  A byte is stored when a write function was handed it, or when
it waits in the buffer to be handed over (`FoeMem.kept`).

Two branches of `FOE_data` lose a failure: an empty packet closes the file and is acknowledged
whatever the flush said, and after a packet of full size that was stored in part the error is
followed by an ACK.  Without an idle buffer there is no error either.  And with a `buffer_size` of
65536 or more the position in the buffer starts again at 0, so that what waits in the buffer is
forgotten under an ACK.  Else the answer says what happened (`foe_reports_iff`), for every packet of
every transfer and whatever the write functions return.
-/

namespace Soes

open Program Mailbox

variable {σ : Type} {env : FoeEnv σ} {k i : ℕ} {f : FoeFile σ} {s s' : FoeMem σ}

/-! ## Replies -/

/-- `m'` is `m` with an FoE reply waiting in buffer `n`. -/
structure Mailbox.QueuesFoe (opts : Options) (m m' : Mailbox) (n : ℕ) (opcode : Byte) : Prop where
  idle : m.IdleBuffer opts n
  control : ∀ j, m'.control j = if j = n then .outreq else m.control j
  opcode : m'.message n 6 = opcode
  size : m'.activembxsize = m.activembxsize

lemma Mailbox.QueuesFoe.hasQueued_iff {opts : Options} {m m' : Mailbox} {n : ℕ} {opcode : Byte}
    (h : m.QueuesFoe opts m' n opcode) (j : ℕ) : m.HasQueued opts m' j ↔ j = n := by
  constructor
  · rintro ⟨hidle, hout⟩
    by_contra hne
    rw [h.control j, if_neg hne, hidle.2.2] at hout
    cases hout
  · rintro rfl
    exact ⟨h.idle, by rw [h.control j, if_pos rfl]⟩

/-- A claimed buffer is filled with a reply. -/
lemma queuesFoe_claim {opts : Options} {m : Mailbox} {n : ℕ} (hn : m.IdleBuffer opts n)
    (opcode : Byte) (number : Dword) :
    m.QueuesFoe opts (((m.claim n).putFoe n opcode number).setControl n .outreq) n opcode := by
  refine ⟨hn, fun j => ?_, ?_, rfl⟩
  · show (if j = n then MbxState.outreq else (m.claim n).control j) = _
    by_cases hj : j = n
    · rw [if_pos hj, if_pos hj]
    · rw [if_neg hj, if_neg hj]
      exact if_neg hj
  · simp only [message, setControl, putFoe, updateMbx, buffer, setHeader, ByteStore.shift]
    rw [ByteStore.setDword_of_outside _ (.inl (by omega)), ByteStore.set_self]

/-- What claiming a buffer for a reply gives. -/
lemma claim_cases {Q : ℕ → FoeMem σ → Prop}
    (hnone : ¬ s.mb.ReplyIdle env.opts → Q 0 s)
    (hsome : ∀ n, s.mb.IdleBuffer env.opts n → Q n { s with mb := s.mb.claim n }) :
    wp env k (onFoeMb escClaimbuffer) Q s := by
  rw [wp_within]
  refine wp_escClaimbuffer.mono fun n m' ⟨hn, hm'⟩ => ?_
  change n = scanBuffers s.mb.control .idle (env.opts.mbxBuffers - 1) at hn
  by_cases hzero : n = 0
  · rw [hm', if_pos hzero, hzero]
    refine hnone fun hidle => ?_
    exact (replyIdle_iff env.opts s.mb).mp hidle (hn.symm.trans hzero)
  · have hfound := scanBuffers_found (hn ▸ hzero)
    rw [← hn] at hfound
    rw [hm', if_neg hzero]
    exact hsome n ⟨Nat.pos_of_ne_zero hzero, by omega, hfound.2⟩

/-- An abort: an error is queued if a buffer is idle, and the server is ready. -/
lemma foeAbort_reports {code : Dword} (hcode : code ≠ 0) :
    wp env k (foeAbort code) (fun _ s' => s'.outside = s.outside ∧ s'.foe = s.foe.init ∧
      ((¬ s.mb.ReplyIdle env.opts ∧ s'.mb = s.mb) ∨
        ∃ n, s.mb.QueuesFoe env.opts s'.mb n foeOpErr)) s := by
  rw [foeAbort, wp_bind, when, if_pos hcode, wp_bind]
  refine claim_cases (fun hnone => ?_) fun n hn => ?_
  · rw [when, if_neg (not_not.mpr rfl), wp_pure, foeInit, foeModify, wp_modify]
    exact ⟨rfl, rfl, .inl ⟨hnone, rfl⟩⟩
  · rw [when, if_pos (Nat.pos_iff_ne_zero.mp hn.1), wp_foeModifyMb, foeInit, foeModify, wp_modify]
    exact ⟨rfl, rfl, .inr ⟨n, queuesFoe_claim hn _ _⟩⟩

/-- An ACK: it is queued if a buffer is idle. -/
lemma foeSendAck_reports :
    wp env k foeSendAck (fun res s' => s'.outside = s.outside ∧
      ((¬ s.mb.ReplyIdle env.opts ∧ res ≠ 0 ∧ s' = s) ∨
        (res = 0 ∧ s'.foe = { s.foe with foepacket := s.foe.foepacket + 1 } ∧
          ∃ n, s.mb.QueuesFoe env.opts s'.mb n foeOpAck))) s := by
  rw [foeSendAck, wp_bind]
  refine claim_cases (fun hnone => ?_) fun n hn => ?_
  · rw [if_neg (not_not.mpr rfl), wp_pure]
    exact ⟨rfl, .inl ⟨hnone, by decide, rfl⟩⟩
  · rw [if_pos (Nat.pos_iff_ne_zero.mp hn.1), wp_get_bind, wp_bind, wp_foeModifyMb, wp_bind,
      foeModify, wp_modify, wp_bind, wp_foeModifyMb, wp_pure]
    exact ⟨rfl, .inr ⟨rfl, rfl, n, queuesFoe_claim hn _ _⟩⟩

/-! ## Storing -/

/-- A record that the application keeps of the calls of its write functions: what they returned, the
last result first, and the bytes they were handed.  Any application can keep one beside its own
state. -/
structure WriteRecord (cfg : FoeCfg σ) where
  results : σ → List Dword
  written : σ → List Byte
  results_write : ∀ f ∈ cfg.files, ∀ o v buffer length,
    results (f.writeFunction o v buffer length).1 =
      (f.writeFunction o v buffer length).2 :: results o
  written_write : ∀ f ∈ cfg.files, ∀ o v buffer length,
    written (f.writeFunction o v buffer length).1 = written o ++ buffer.bytes 0 length

/-- What storing a byte works on. -/
structure Storing (σ : Type) where
  outside : σ
  file : FoeFileVar
  buffer : ByteStore
  bufposition : ℕ
  position : ℕ

/-- The bytes that are stored: those that were handed over, and those that wait in the buffer. -/
def Storing.kept {cfg : FoeCfg σ} (record : WriteRecord cfg) (x : Storing σ) : List Byte :=
  record.written x.outside ++ x.buffer.bytes 0 x.bufposition

/-- The position is in the buffer. -/
def Storing.Inside (cfg : FoeCfg σ) (x : Storing σ) : Prop :=
  x.bufposition < 2 ^ 16 ∧ (cfg.bufferSize ≤ x.bufposition → x.bufposition = 0)

/-- One byte is stored: a full buffer goes to the write function, which may fail. -/
def Storing.put (cfg : FoeCfg σ) (f : FoeFile σ) (x : Storing σ) (b : Byte) :
    Storing σ × Bool :=
  let buffer := x.buffer.set x.bufposition b
  let bufposition := (x.bufposition + 1) % 2 ^ 16
  let position := (x.position + 1) % 2 ^ 32
  if cfg.bufferSize ≤ bufposition then
    let a := f.writeFunction x.outside x.file buffer bufposition
    ({ outside := a.1, buffer := buffer, bufposition := 0, position := position,
       file := { x.file with
         addressOffset := (x.file.addressOffset + cfg.bufferSize) % 2 ^ 32 } },
      decide (a.2 ≠ 0))
  else
    (⟨x.outside, x.file, buffer, bufposition, position⟩, false)

/-- What storing bytes gives, and how many are stored: none behind the end of the file, nor
from the one on with which a write function fails. -/
def storeBytes (cfg : FoeCfg σ) (f : FoeFile σ) (fend : ℕ) :
    List Byte → Storing σ → Storing σ × ℕ
  | [], x => (x, 0)
  | b :: rest, x =>
      if fend = x.position then (x, 0)
      else if (x.put cfg f b).2 then ((x.put cfg f b).1, 0)
      else
        ((storeBytes cfg f fend rest (x.put cfg f b).1).1,
          (storeBytes cfg f fend rest (x.put cfg f b).1).2 + 1)

/-- The position in the buffer does not go round before `length` more bytes are stored. -/
def Storing.HoldsMore (cfg : FoeCfg σ) (length : ℕ) (x : Storing σ) : Prop :=
  cfg.bufferSize < 2 ^ 16 ∨ x.bufposition + length < 2 ^ 16

section kept

variable {cfg : FoeCfg σ} {x : Storing σ} {b : Byte}

lemma Storing.put_full (h : cfg.bufferSize ≤ (x.bufposition + 1) % 2 ^ 16) :
    (x.put cfg f b).1.outside =
        (f.writeFunction x.outside x.file (x.buffer.set x.bufposition b)
          ((x.bufposition + 1) % 2 ^ 16)).1 ∧
      (x.put cfg f b).1.bufposition = 0 ∧ (x.put cfg f b).2 =
        decide ((f.writeFunction x.outside x.file (x.buffer.set x.bufposition b)
          ((x.bufposition + 1) % 2 ^ 16)).2 ≠ 0) := by
  unfold put
  simp only [if_pos h, true_and]

lemma Storing.put_room (h : (x.bufposition + 1) % 2 ^ 16 < cfg.bufferSize) :
    x.put cfg f b = (⟨x.outside, x.file, x.buffer.set x.bufposition b,
      (x.bufposition + 1) % 2 ^ 16, (x.position + 1) % 2 ^ 32⟩, false) := by
  unfold put
  rw [if_neg (Nat.not_le.mpr h)]

lemma Storing.put_inside (cfg : FoeCfg σ) (f : FoeFile σ) (x : Storing σ) (b : Byte) :
    (x.put cfg f b).1.Inside cfg := by
  by_cases hfull : cfg.bufferSize ≤ (x.bufposition + 1) % 2 ^ 16
  · obtain ⟨-, hposition, -⟩ := put_full (f := f) (b := b) hfull
    unfold Inside
    rw [hposition]
    exact ⟨by decide, fun _ => rfl⟩
  · rw [put_room (Nat.not_le.mp hfull)]
    exact ⟨Nat.mod_lt _ (by decide), fun h => (hfull h).elim⟩

lemma Storing.HoldsMore.put {length : ℕ} (h : x.HoldsMore cfg (length + 1)) (b : Byte) :
    (x.put cfg f b).1.HoldsMore cfg length := by
  rcases h with hsize | hfits
  · exact .inl hsize
  · refine .inr ?_
    by_cases hfull : cfg.bufferSize ≤ (x.bufposition + 1) % 2 ^ 16
    · obtain ⟨-, hposition, -⟩ := put_full (f := f) (b := b) hfull
      omega
    · rw [put_room (Nat.not_le.mp hfull)]
      dsimp only
      omega

/-- A position inside the buffer does not go round in one step, unless the buffer is too large. -/
lemma Storing.Inside.succ_lt {length : ℕ} (h : x.Inside cfg)
    (hholds : x.HoldsMore cfg (length + 1)) : x.bufposition + 1 < 2 ^ 16 := by
  obtain ⟨hlt, hzero⟩ := h
  rcases hholds with hsize | hfits
  · by_cases hfull : cfg.bufferSize ≤ x.bufposition
    · rw [hzero hfull]
      decide
    · omega
  · omega

variable (record : WriteRecord cfg) (hf : f ∈ cfg.files)
include hf

/-- A byte that is put is stored, handed over or not, if the position does not go round. -/
lemma Storing.put_kept (h : x.bufposition + 1 < 2 ^ 16) (b : Byte) :
    (x.put cfg f b).1.kept record = x.kept record ++ [b] := by
  have hbytes : (x.buffer.set x.bufposition b).bytes 0 (x.bufposition + 1) =
      x.buffer.bytes 0 x.bufposition ++ [b] := by
    rw [ByteStore.bytes_succ, ByteStore.bytes_set_of_outside _ (.inr (by omega)), Nat.zero_add,
      ByteStore.set_self]
  have hsucc := Nat.mod_eq_of_lt h
  by_cases hfull : cfg.bufferSize ≤ (x.bufposition + 1) % 2 ^ 16
  · obtain ⟨houtside, hposition, -⟩ := put_full (f := f) (b := b) hfull
    rw [kept, houtside, hposition, record.written_write f hf, hsucc, hbytes, kept,
      ByteStore.bytes_zero, List.append_nil, List.append_assoc]
  · rw [put_room (Nat.not_le.mp hfull), kept, hsucc]
    dsimp only
    rw [hbytes, kept, List.append_assoc]

/-- At most one byte more is stored. -/
lemma Storing.put_kept_le (b : Byte) :
    ((x.put cfg f b).1.kept record).length ≤ (x.kept record).length + 1 := by
  have hle := Nat.mod_le (x.bufposition + 1) (2 ^ 16)
  by_cases hfull : cfg.bufferSize ≤ (x.bufposition + 1) % 2 ^ 16
  · obtain ⟨houtside, hposition, -⟩ := put_full (f := f) (b := b) hfull
    rw [kept, houtside, hposition, record.written_write f hf, kept]
    simp only [List.length_append, ByteStore.length_bytes]
    omega
  · rw [put_room (Nat.not_le.mp hfull), kept, kept]
    simp only [List.length_append, ByteStore.length_bytes]
    omega

end kept

section storeBytes

variable {cfg : FoeCfg σ} {fend n : ℕ} {bytes : List Byte} {x y : Storing σ}

lemma storeBytes_le (cfg : FoeCfg σ) (f : FoeFile σ) (fend : ℕ) (bytes : List Byte)
    (x : Storing σ) : (storeBytes cfg f fend bytes x).2 ≤ bytes.length := by
  induction bytes generalizing x with
  | nil => exact Nat.le_refl _
  | cons b rest ih =>
      unfold storeBytes
      rw [List.length_cons]
      split
      · exact Nat.zero_le _
      · split
        · exact Nat.zero_le _
        · exact Nat.succ_le_succ (ih _)

/-- The position stays in the buffer. -/
lemma storeBytes_inside (h : x.Inside cfg) : (storeBytes cfg f fend bytes x).1.Inside cfg := by
  induction bytes generalizing x with
  | nil => exact h
  | cons b rest ih =>
      unfold storeBytes
      split
      · exact h
      · split
        · exact x.put_inside cfg f b
        · exact ih (x.put_inside cfg f b)

/-- What storing all bytes does with the first. -/
lemma storeBytes_all {b : Byte} (h : storeBytes cfg f fend (b :: bytes) x = (y, bytes.length + 1)) :
    (x.put cfg f b).2 = false ∧
      storeBytes cfg f fend bytes (x.put cfg f b).1 = (y, bytes.length) := by
  unfold storeBytes at h
  split at h
  · exact absurd (congrArg Prod.snd h) (by simp)
  · split at h
    · exact absurd (congrArg Prod.snd h) (by simp)
    · rename_i hput
      obtain ⟨hy, hn⟩ := Prod.mk.inj h
      exact ⟨Bool.eq_false_iff.mpr hput, Prod.ext hy (Nat.succ.inj hn)⟩

/-- A buffer that is too large is never handed over, and its position goes round. -/
lemma storeBytes_large (hlarge : 2 ^ 16 ≤ cfg.bufferSize) (hlt : x.bufposition < 2 ^ 16)
    (h : storeBytes cfg f fend bytes x = (y, bytes.length)) :
    y.outside = x.outside ∧ y.bufposition = (x.bufposition + bytes.length) % 2 ^ 16 := by
  induction bytes generalizing x with
  | nil =>
      obtain rfl := congrArg Prod.fst h
      exact ⟨rfl, (Nat.mod_eq_of_lt hlt).symm⟩
  | cons b rest ih =>
      have hroom : (x.bufposition + 1) % 2 ^ 16 < cfg.bufferSize :=
        Nat.lt_of_lt_of_le (Nat.mod_lt _ (by decide)) hlarge
      obtain ⟨-, hrest⟩ := storeBytes_all h
      rw [Storing.put_room hroom] at hrest
      obtain ⟨houtside, hposition⟩ := ih (Nat.mod_lt _ (by decide)) hrest
      refine ⟨houtside, ?_⟩
      rw [hposition, List.length_cons]
      dsimp only
      omega

variable (record : WriteRecord cfg) (hf : f ∈ cfg.files)
include hf

/-- The result of the write function is on record, if it was called. -/
lemma Storing.put_results (x : Storing σ) (b : Byte) :
    ∃ new, record.results (x.put cfg f b).1.outside = new ++ record.results x.outside ∧
      ((x.put cfg f b).2 = false ↔ ∀ r ∈ new, r = 0) := by
  by_cases hfull : cfg.bufferSize ≤ (x.bufposition + 1) % 2 ^ 16
  · obtain ⟨houtside, -, hfailed⟩ := put_full (f := f) (b := b) hfull
    rw [houtside, hfailed, record.results_write f hf]
    refine ⟨[_], rfl, ?_⟩
    rw [List.forall_mem_singleton, decide_eq_false_iff_not, not_not]
  · rw [put_room (Nat.not_le.mp hfull)]
    exact ⟨[], rfl, fun _ => List.forall_mem_nil _, fun _ => rfl⟩

/-- While bytes are stored no write function fails. -/
lemma storeBytes_results (h : storeBytes cfg f fend bytes x = (y, bytes.length))
    (hzero : ∀ r ∈ record.results x.outside, r = 0) :
    ∀ r ∈ record.results y.outside, r = 0 := by
  induction bytes generalizing x with
  | nil =>
      obtain rfl := congrArg Prod.fst h
      exact hzero
  | cons b rest ih =>
      obtain ⟨hput, hrest⟩ := storeBytes_all h
      obtain ⟨new, hnew, hgood⟩ := x.put_results record hf b
      refine ih hrest fun r hr => ?_
      rw [hnew] at hr
      rcases List.mem_append.mp hr with hmem | hmem
      · exact hgood.mp hput r hmem
      · exact hzero r hmem

/-- No more bytes are stored than there are. -/
lemma storeBytes_kept_le (h : storeBytes cfg f fend bytes x = (y, n)) :
    (y.kept record).length ≤ (x.kept record).length + bytes.length := by
  induction bytes generalizing x n with
  | nil =>
      obtain rfl := congrArg Prod.fst h
      exact Nat.le_add_right _ _
  | cons b rest ih =>
      have hle := Storing.put_kept_le (x := x) record hf b
      rw [List.length_cons]
      unfold storeBytes at h
      split at h
      · obtain rfl := congrArg Prod.fst h
        exact Nat.le_add_right _ _
      · split at h
        · obtain rfl := congrArg Prod.fst h
          exact hle.trans (Nat.add_le_add_left (Nat.le_add_left _ _) _)
        · obtain rfl := congrArg Prod.fst h
          have hrest := ih (x := (x.put cfg f b).1) (Prod.ext rfl rfl)
          dsimp only at hrest ⊢
          omega

/-- Bytes of which a part is not stored: a write function failed, or they are missing. -/
lemma storeBytes_short (h : storeBytes cfg f fend bytes x = (y, n)) (hn : n ≠ bytes.length) :
    (∃ r ∈ record.results y.outside, r ≠ 0) ∨
      (y.kept record).length < (x.kept record).length + bytes.length := by
  induction bytes generalizing x n with
  | nil => exact absurd (congrArg Prod.snd h).symm hn
  | cons b rest ih =>
      rw [List.length_cons] at hn ⊢
      unfold storeBytes at h
      split at h
      · obtain rfl := congrArg Prod.fst h
        refine .inr ?_
        dsimp only
        omega
      · split at h
        · rename_i hfailed
          obtain rfl := congrArg Prod.fst h
          obtain ⟨new, hnew, hgood⟩ := x.put_results record hf b
          have hbad : ¬ ∀ r ∈ new, r = 0 := fun hall =>
            absurd (hfailed.symm.trans (hgood.mpr hall)) (by decide)
          obtain ⟨r, hr, hne⟩ : ∃ r ∈ new, r ≠ 0 := by
            simpa only [not_forall, exists_prop] using hbad
          exact .inl ⟨r, hnew ▸ List.mem_append_left _ hr, hne⟩
        · obtain ⟨rfl, rfl⟩ := Prod.mk.inj h
          have hle := Storing.put_kept_le (x := x) record hf b
          rcases ih (Prod.ext rfl rfl) (fun hall => hn (congrArg (· + 1) hall)) with hbad | hshort
          · exact .inl hbad
          · exact .inr (by omega)

/-- Bytes are stored exactly if the position does not go round. -/
lemma storeBytes_kept_iff (hinside : x.Inside cfg)
    (h : storeBytes cfg f fend bytes x = (y, bytes.length)) :
    y.kept record = x.kept record ++ bytes ↔ x.HoldsMore cfg bytes.length := by
  constructor
  · intro hkept
    by_contra hnot
    obtain ⟨hlarge, hround⟩ := not_or.mp hnot
    obtain ⟨houtside, hposition⟩ := storeBytes_large (Nat.not_lt.mp hlarge) hinside.1 h
    have hlength := congrArg List.length hkept
    simp only [Storing.kept, houtside, hposition, List.length_append,
      ByteStore.length_bytes] at hlength
    have hlt := Nat.mod_lt (x.bufposition + bytes.length) (show 0 < 2 ^ 16 by decide)
    omega
  · intro hholds
    induction bytes generalizing x with
    | nil =>
        obtain rfl := congrArg Prod.fst h
        rw [List.append_nil]
        rfl
    | cons b rest ih =>
        obtain ⟨-, hrest⟩ := storeBytes_all h
        have hput := Storing.put_kept (f := f) record hf (hinside.succ_lt hholds) b
        rw [ih (x.put_inside cfg f b) hrest (hholds.put b), hput, List.append_assoc]
        rfl

end storeBytes

/-- `n` more bytes are counted in `total_size`. -/
def Storing.count (x : Storing σ) (n : ℕ) : Storing σ :=
  { x with file := { x.file with totalSize := (x.file.totalSize + n) % 2 ^ 32 } }

lemma Storing.count_bufposition (x : Storing σ) (n : ℕ) :
    (x.count n).bufposition = x.bufposition := rfl

/-- What the write function makes of the rest of the buffer. -/
def Storing.close (f : FoeFile σ) (x : Storing σ) : σ × Dword :=
  f.writeFunction x.outside x.file x.buffer x.bufposition

/-- What storing a byte to file `i` works on. -/
def FoeMem.storing (s : FoeMem σ) (i : ℕ) : Storing σ :=
  ⟨s.outside, s.foe.files i, s.foe.fbuffer, s.foe.fbufposition, s.foe.fposition⟩

/-- File `i` is open. -/
structure FoeMem.HasOpen (s : FoeMem σ) (cfg : FoeCfg σ) (i : ℕ) (f : FoeFile σ) : Prop where
  file : s.foe.file = some i
  get : cfg.files[i]? = some f

/-- Storing changes only what it works on. -/
structure KeepsTransferring (s s' : FoeMem σ) : Prop where
  mb : s'.mb = s.mb
  file : s'.foe.file = s.foe.file
  foestate : s'.foe.foestate = s.foe.foestate
  fend : s'.foe.fend = s.foe.fend

lemma KeepsTransferring.trans {s₁ s₂ s₃ : FoeMem σ} (h : KeepsTransferring s₁ s₂)
    (h' : KeepsTransferring s₂ s₃) : KeepsTransferring s₁ s₃ :=
  ⟨h'.mb.trans h.mb, h'.file.trans h.file, h'.foestate.trans h.foestate, h'.fend.trans h.fend⟩

/-- The write function is called. -/
lemma foeCallWrite_returns (hopen : s.HasOpen env.cfg i f) :
    wp env k foeCallWrite (fun failed s' => (s'.outside, failed) = (s.storing i).close f ∧
      s'.mb = s.mb ∧ s'.foe = s.foe) s := by
  rw [foeCallWrite, wp_ask_bind, wp_get_bind, hopen.file]
  dsimp only
  rw [hopen.get]
  rw [wp_transact]
  exact ⟨rfl, rfl, rfl⟩

/-- One byte. -/
lemma foeFwriteByte_puts (hopen : s.HasOpen env.cfg i f) (b : Byte) :
    wp env k (foeFwriteByte env.cfg b) (fun failed s' =>
      (s'.storing i, failed) = (s.storing i).put env.cfg f b ∧ KeepsTransferring s s') s := by
  rw [foeFwriteByte, wp_bind, foeModify, wp_modify, wp_get_bind]
  dsimp only
  by_cases hfull : env.cfg.bufferSize ≤ (s.foe.fbufposition + 1) % 2 ^ 16
  · rw [wp_bind, if_pos hfull, wp_bind]
    have hcall : wp env k foeCallWrite _ ⟨s.outside, s.mb, { s.foe with
        fbuffer := s.foe.fbuffer.set s.foe.fbufposition b
        fbufposition := (s.foe.fbufposition + 1) % 2 ^ 16 }⟩ :=
      foeCallWrite_returns (i := i) (f := f) ⟨hopen.file, hopen.get⟩
    refine hcall.mono fun failed s₁ hthen => ?_
    obtain ⟨hanswer, hmb, hfoe⟩ := hthen
    have hfile : s₁.foe.file = some i := by
      rw [hfoe]
      exact hopen.file
    rw [wp_bind, foeModify, wp_modify, wp_bind, wp_foeModifyFile (by exact hfile), wp_pure, wp_bind,
      foeModify, wp_modify, wp_pure, hfoe]
    have hput : (s.storing i).put env.cfg f b =
        ({ outside := s₁.outside, buffer := s.foe.fbuffer.set s.foe.fbufposition b,
           bufposition := 0, position := (s.foe.fposition + 1) % 2 ^ 32,
           file := { s.foe.files i with addressOffset :=
            ((s.foe.files i).addressOffset + env.cfg.bufferSize) % 2 ^ 32 } },
          decide (failed ≠ 0)) := by
      have houtside := congrArg Prod.fst hanswer
      have hfailed := congrArg Prod.snd hanswer
      dsimp only at houtside hfailed
      rw [houtside, hfailed]
      exact if_pos hfull
    rw [hput]
    refine ⟨?_, hmb, rfl, rfl, rfl⟩
    simp only [FoeMem.storing, if_pos]
  · rw [wp_bind, if_neg hfull, wp_pure, wp_bind, foeModify, wp_modify, wp_pure]
    have hput : (s.storing i).put env.cfg f b =
        (⟨s.outside, s.foe.files i, s.foe.fbuffer.set s.foe.fbufposition b,
          (s.foe.fbufposition + 1) % 2 ^ 16, (s.foe.fposition + 1) % 2 ^ 32⟩, false) := by
      exact if_neg hfull
    rw [hput]
    exact ⟨rfl, rfl, rfl, rfl, rfl⟩

/-- The loop stores what `storeBytes` says. -/
lemma foeFwriteLoop_stores (length data ncopied : ℕ) (hopen : s.HasOpen env.cfg i f) :
    wp env k (foeFwriteLoop env.cfg length data ncopied) (fun copied s' =>
      (s'.storing i, copied) = ((storeBytes env.cfg f s.foe.fend (s.mb.mbx.bytes data length)
        (s.storing i)).1, ncopied + (storeBytes env.cfg f s.foe.fend
          (s.mb.mbx.bytes data length) (s.storing i)).2) ∧ KeepsTransferring s s') s := by
  induction length generalizing data ncopied s with
  | zero =>
      rw [foeFwriteLoop, wp_pure]
      exact ⟨rfl, rfl, rfl, rfl, rfl⟩
  | succ length ih =>
      have hbytes : s.mb.mbx.bytes data (length + 1) =
          s.mb.mbx data :: s.mb.mbx.bytes (data + 1) length := ByteStore.bytes_succ' ..
      rw [foeFwriteLoop, wp_get_bind, hbytes, storeBytes]
      by_cases hend : s.foe.fend = s.foe.fposition
      · rw [if_pos hend, wp_pure, if_pos (by exact hend)]
        exact ⟨rfl, rfl, rfl, rfl, rfl⟩
      · rw [if_neg hend, if_neg (by exact hend), wp_bind]
        refine (foeFwriteByte_puts hopen _).mono fun failed s₁ hthen => ?_
        obtain ⟨hput, hkept⟩ := hthen
        rw [← hput]
        cases failed with
        | true =>
            rw [if_pos rfl, if_pos rfl, wp_pure]
            exact ⟨rfl, hkept⟩
        | false =>
            rw [if_neg Bool.false_ne_true, if_neg Bool.false_ne_true]
            have hopen₁ : s₁.HasOpen env.cfg i f := ⟨hkept.file.trans hopen.file, hopen.get⟩
            refine (ih (data + 1) (ncopied + 1) hopen₁).mono fun copied s₂ hthen => ?_
            obtain ⟨hstored, hkept₂⟩ := hthen
            rw [hkept.fend, hkept.mb] at hstored
            refine ⟨?_, hkept.trans hkept₂⟩
            rw [hstored, Nat.add_right_comm, Nat.add_assoc]

/-- `FOE_fwrite` counts what it has stored. -/
lemma foeFwrite_stores {length n : ℕ} {x : Storing σ} (hopen : s.HasOpen env.cfg i f)
    (hstores : storeBytes env.cfg f s.foe.fend (s.mb.mbx.bytes foeDataOffset length)
      (s.storing i) = (x, n)) :
    wp env k (foeFwrite length) (fun copied s' =>
      copied = n ∧ s'.storing i = x.count n ∧ KeepsTransferring s s') s := by
  rw [foeFwrite, wp_bind, foeModify, wp_modify, wp_ask_bind, wp_bind]
  have hloop : wp env k (foeFwriteLoop env.cfg length foeDataOffset 0) _
      ⟨s.outside, s.mb, { s.foe with fprevposition := s.foe.fposition }⟩ :=
    foeFwriteLoop_stores (i := i) (f := f) length foeDataOffset 0 ⟨hopen.file, hopen.get⟩
  refine hloop.mono fun copied s₁ hthen => ?_
  obtain ⟨hstored, hkept⟩ := hthen
  have hbytes : storeBytes env.cfg f s.foe.fend (s.mb.mbx.bytes foeDataOffset length)
      (FoeMem.storing ⟨s.outside, s.mb, { s.foe with fprevposition := s.foe.fposition }⟩ i) =
      (x, n) := hstores
  dsimp only at hstored
  rw [hbytes, Nat.zero_add] at hstored
  obtain ⟨hafter, rfl⟩ := Prod.mk.inj hstored
  dsimp only at hafter
  rw [wp_bind, wp_foeModifyFile (hkept.file.trans hopen.file), wp_pure]
  refine ⟨rfl, ?_, hkept.mb, hkept.file, hkept.foestate, hkept.fend⟩
  rw [← hafter]
  simp only [FoeMem.storing, Storing.count, if_pos]

/-- `FOE_fclose` hands the rest of the buffer over. -/
lemma foeFclose_closes (hopen : s.HasOpen env.cfg i f) :
    wp env k foeFclose (fun failed s' => (s'.outside, failed) = (s.storing i).close f ∧
      s'.foe.fbufposition = 0 ∧ KeepsTransferring s s') s := by
  rw [foeFclose, wp_bind]
  refine (foeCallWrite_returns hopen).mono fun failed s₁ hthen => ?_
  obtain ⟨hanswer, hmb, hfoe⟩ := hthen
  have hfile : s₁.foe.file = some i := by
    rw [hfoe]
    exact hopen.file
  rw [wp_get_bind, wp_bind, wp_foeModifyFile hfile, wp_bind, foeModify, wp_modify, wp_pure]
  refine ⟨hanswer, rfl, hmb, ?_, ?_, ?_⟩ <;> dsimp only <;> rw [hfoe]

/-! ## What a packet is answered with -/

/-- The bytes of the transfer that are stored: those that were handed over, and those that wait in
the buffer. -/
def FoeMem.kept {cfg : FoeCfg σ} (record : WriteRecord cfg) (s : FoeMem σ) : List Byte :=
  record.written s.outside ++ s.foe.fbuffer.bytes 0 s.foe.fbufposition

/-- The packet in the inbox is the one that the transfer waits for. -/
def FoeMem.Expects (s : FoeMem σ) : Prop :=
  s.foe.foestate = .waitForData ∧ s.mb.foeNumber = s.foe.foepacket

/-- The file has room for the packet in the inbox. -/
def FoeMem.HasRoom (s : FoeMem σ) : Prop :=
  (s.foe.fposition + s.mb.foePacketSize) % 2 ^ 32 ≤ s.foe.fend

instance (s : FoeMem σ) : Decidable s.HasRoom := by
  unfold FoeMem.HasRoom
  infer_instance

/-- What storing the packet in the inbox gives, and how many of its bytes are stored: a packet that
the file has no room for is not begun with. -/
def FoeMem.stores (s : FoeMem σ) (cfg : FoeCfg σ) (i : ℕ) (f : FoeFile σ) : Storing σ × ℕ :=
  if s.HasRoom then
    match storeBytes cfg f s.foe.fend s.mb.foePacket (s.storing i) with
    | (x, n) => (x.count n, n)
  else (s.storing i, 0)

lemma FoeMem.stores_room {s : FoeMem σ} {cfg : FoeCfg σ} {x : Storing σ} {n : ℕ}
    (hroom : s.HasRoom)
    (h : storeBytes cfg f s.foe.fend s.mb.foePacket (s.storing i) = (x, n)) :
    s.stores cfg i f = (x.count n, n) := by
  rw [stores, if_pos hroom, h]

lemma FoeMem.stores_full {s : FoeMem σ} {cfg : FoeCfg σ} (hfull : ¬ s.HasRoom) :
    s.stores cfg i f = (s.storing i, 0) := by
  rw [stores, if_neg hfull]

/-- The packet in the inbox is written: the file takes all its bytes, no write function fails
over them, nor, with the last packet, over the rest of the buffer. -/
def FoeMem.WritesWhole (s : FoeMem σ) (cfg : FoeCfg σ) (i : ℕ) (f : FoeFile σ) : Prop :=
  s.Expects ∧ (s.stores cfg i f).2 = s.mb.foePacketSize ∧
    (s.mb.foePacketSize = 0 → ((s.storing i).close f).2 = 0) ∧
    (s.mb.foePacketSize ≠ 0 → s.mb.foePacketSize ≠ s.mb.foeDataSize →
      ((s.stores cfg i f).1.close f).2 = 0)

/-- What was written stays: the position in the buffer does not go round, and what waits in the
buffer behind a packet of full size is not thrown away for want of a buffer for the ACK. -/
def FoeMem.StaysStored (s : FoeMem σ) (env : FoeEnv σ) (i : ℕ) (f : FoeFile σ) : Prop :=
  (s.storing i).HoldsMore env.cfg s.mb.foePacketSize ∧
    (s.mb.foePacketSize ≠ 0 → s.mb.foePacketSize = s.mb.foeDataSize →
      s.mb.ReplyIdle env.opts ∨ (s.stores env.cfg i f).1.bufposition = 0)

/-- Two buffers are idle. -/
def Mailbox.TwoIdle (opts : Options) (m : Mailbox) : Prop :=
  ∃ a b, a ≠ b ∧ m.IdleBuffer opts a ∧ m.IdleBuffer opts b

/-- What a packet must be for its answer to be right: if it is written it stays stored, and else
there is a buffer for the error, and the failure is not one that `FOE_data` loses. -/
def FoeMem.Answerable (s : FoeMem σ) (env : FoeEnv σ) (i : ℕ) (f : FoeFile σ) : Prop :=
  (s.WritesWhole env.cfg i f → s.StaysStored env i f) ∧
    (¬ s.WritesWhole env.cfg i f →
      s.mb.ReplyIdle env.opts ∧ ¬ (s.Expects ∧ s.mb.foePacketSize = 0) ∧
        ¬ (s.Expects ∧ s.mb.foePacketSize = s.mb.foeDataSize ∧ 0 < (s.stores env.cfg i f).2 ∧
          (s.stores env.cfg i f).2 < s.mb.foePacketSize ∧ s.mb.TwoIdle env.opts))

/-- The pass from `s` to `s'` has stored the packet that was in the inbox, every byte of it behind
those that were stored before, and no write function has returned an error since the record
began. -/
def StoresPacket {cfg : FoeCfg σ} (record : WriteRecord cfg) (s s' : FoeMem σ) : Prop :=
  s.Expects ∧ s'.kept record = s.kept record ++ s.mb.foePacket ∧
    ∀ r ∈ record.results s'.outside, r = 0

/-- What the answer to a packet must say. -/
structure ReportsPacket {cfg : FoeCfg σ} (opts : Options) (record : WriteRecord cfg)
    (s s' : FoeMem σ) : Prop where
  /-- An ACK is queued only if the packet is stored. -/
  acked : ∀ n, s.mb.HasQueued opts s'.mb n → s'.mb.message n 6 = foeOpAck →
    StoresPacket record s s'
  /-- Else an error is queued and nothing more, and the transfer is over. -/
  refused : ¬ StoresPacket record s s' →
    ∃ n, (∀ j, s.mb.HasQueued opts s'.mb j ↔ j = n) ∧ s'.mb.message n 6 = foeOpErr ∧
      s'.foe.foestate = .ready

/-- Between two packets: the file is open, the position is in the buffer, and no write function has
failed if the transfer goes on. -/
structure FoeMem.Transferring {cfg : FoeCfg σ} (record : WriteRecord cfg) (i : ℕ) (f : FoeFile σ)
    (s : FoeMem σ) : Prop where
  isOpen : s.HasOpen cfg i f
  inside : (s.storing i).Inside cfg
  waiting : s.foe.foestate = .waitForData → ∀ r ∈ record.results s.outside, r = 0

/-- What `FOE_data` leaves behind. -/
structure PacketEnds (env : FoeEnv σ) (record : WriteRecord env.cfg) (i : ℕ) (f : FoeFile σ)
    (s s' : FoeMem σ) : Prop where
  reports : ReportsPacket env.opts record s s' ↔ s.Answerable env i f
  after : s'.Transferring record i f

section answers

variable {record : WriteRecord env.cfg}

/-- A packet that was not stored is answered rightly by an abort, if a buffer is idle. -/
lemma reportsPacket_abort {opts : Options} (hnot : ¬ StoresPacket record s s')
    (hready : s'.foe.foestate = .ready)
    (h : (¬ s.mb.ReplyIdle opts ∧ s'.mb = s.mb) ∨ ∃ n, s.mb.QueuesFoe opts s'.mb n foeOpErr) :
    ReportsPacket opts record s s' ↔ s.mb.ReplyIdle opts := by
  rcases h with ⟨hnone, hmb⟩ | ⟨n, hqueues⟩
  · refine ⟨fun hreports => ?_, fun hidle => (hnone hidle).elim⟩
    obtain ⟨n, honly, -⟩ := hreports.refused hnot
    exact ⟨n, ((honly n).mpr rfl).1⟩
  · refine ⟨fun _ => ⟨n, hqueues.idle⟩, fun _ => ⟨fun j hj hack => ?_, fun _ => ?_⟩⟩
    · obtain rfl := (hqueues.hasQueued_iff j).mp hj
      rw [hqueues.opcode] at hack
      exact absurd hack (by decide)
    · exact ⟨n, hqueues.hasQueued_iff, hqueues.opcode, hready⟩

/-- An ACK, or no answer at all, is right for a packet that was stored and for no other. -/
lemma reportsPacket_ack {opts : Options}
    (h : (¬ s.mb.ReplyIdle opts ∧ s'.mb = s.mb) ∨ ∃ n, s.mb.QueuesFoe opts s'.mb n foeOpAck) :
    ReportsPacket opts record s s' ↔ StoresPacket record s s' := by
  refine ⟨fun hreports => ?_, fun hstored => ⟨fun _ _ _ => hstored, fun hnot => ?_⟩⟩
  · by_contra hnot
    obtain ⟨n, honly, herr, -⟩ := hreports.refused hnot
    rcases h with ⟨hnone, -⟩ | ⟨m, hqueued⟩
    · exact hnone ⟨n, ((honly n).mpr rfl).1⟩
    · obtain rfl := (hqueued.hasQueued_iff n).mp ((honly n).mpr rfl)
      exact absurd (herr.symm.trans hqueued.opcode) (by decide)
  · exact (hnot hstored).elim

/-- For a packet that is written, all depends on whether it stays stored. -/
lemma answerable_iff_stays (hwhole : s.WritesWhole env.cfg i f) :
    s.Answerable env i f ↔ s.StaysStored env i f :=
  ⟨fun h => h.1 hwhole, fun h => ⟨fun _ => h, fun hnot => (hnot hwhole).elim⟩⟩

/-- Where nothing but a lack of buffers can go wrong with the answer. -/
lemma answerable_iff_idle (hnot : ¬ s.WritesWhole env.cfg i f)
    (hempty : ¬ (s.Expects ∧ s.mb.foePacketSize = 0))
    (hpart : ¬ (s.Expects ∧ s.mb.foePacketSize = s.mb.foeDataSize ∧
      0 < (s.stores env.cfg i f).2 ∧ (s.stores env.cfg i f).2 < s.mb.foePacketSize)) :
    s.Answerable env i f ↔ s.mb.ReplyIdle env.opts := by
  constructor
  · exact fun h => (h.2 hnot).1
  · intro hidle
    refine ⟨fun hwhole => (hnot hwhole).elim, fun _ => ⟨hidle, hempty, ?_⟩⟩
    rintro ⟨hexpects, hfull, hpos, hlt, -⟩
    exact hpart ⟨hexpects, hfull, hpos, hlt⟩

/-- The variables are initialised, and the transfer is over. -/
lemma FoeMem.Transferring.of_ready (hopen : s'.HasOpen env.cfg i f)
    (hposition : s'.foe.fbufposition = 0) (hready : s'.foe.foestate = .ready) :
    s'.Transferring record i f := by
  refine ⟨hopen, ⟨?_, fun _ => hposition⟩, fun hw => ?_⟩
  · show s'.foe.fbufposition < 2 ^ 16
    rw [hposition]
    decide
  · rw [hready] at hw
    cases hw

/-- A packet is refused, after what is left in `s₁`. -/
lemma foeAbort_ends {code : Dword} {s₁ : FoeMem σ} (hcode : code ≠ 0) (hmb : s₁.mb = s.mb)
    (hopen : s₁.HasOpen env.cfg i f)
    (hnot : ∀ s', s'.outside = s₁.outside → s'.foe.fbufposition = 0 → ¬ StoresPacket record s s')
    (hanswerable : s.Answerable env i f ↔ s.mb.ReplyIdle env.opts) :
    wp env k (foeAbort code) (fun _ s' => PacketEnds env record i f s s') s₁ := by
  refine (foeAbort_reports hcode).mono fun _ s' ⟨hout, hfoe, hqueues⟩ => ?_
  rw [hmb] at hqueues
  have hready : s'.foe.foestate = .ready := by
    rw [hfoe]
    rfl
  have hposition : s'.foe.fbufposition = 0 := by
    rw [hfoe]
    rfl
  refine ⟨?_, .of_ready ⟨?_, hopen.get⟩ hposition hready⟩
  · exact (reportsPacket_abort (hnot s' hout hposition) hready hqueues).trans hanswerable.symm
  · rw [hfoe]
    exact hopen.file

/-- The error that follows a packet of full size stored in part, and the ACK after it. -/
lemma foeAbort_ack_ends {s₁ : FoeMem σ} (hmb : s₁.mb = s.mb) (hopen : s₁.HasOpen env.cfg i f)
    (hnot : ∀ s', s'.outside = s₁.outside → s'.foe.fbufposition = 0 → ¬ StoresPacket record s s')
    (hanswerable : s.Answerable env i f ↔ s.mb.ReplyIdle env.opts ∧ ¬ s.mb.TwoIdle env.opts) :
    wp env k (do
      foeAbort foeErrProgerror
      let res ← foeSendAck
      when (res ≠ 0) (foeAbort res))
      (fun _ s' => PacketEnds env record i f s s') s₁ := by
  rw [wp_bind]
  refine (foeAbort_reports (by decide)).mono fun _ s₂ ⟨hout₂, hfoe₂, hqueues₂⟩ => ?_
  rw [hmb] at hqueues₂
  have hstate₂ : s₂.foe.foestate = .ready := by
    rw [hfoe₂]
    rfl
  have hposition₂ : s₂.foe.fbufposition = 0 := by
    rw [hfoe₂]
    rfl
  have hfile₂ : s₂.foe.file = some i := by
    rw [hfoe₂]
    exact hopen.file
  rw [wp_bind]
  refine foeSendAck_reports.mono fun res s₃ ⟨hout₃, hcases⟩ => ?_
  rcases hcases with ⟨hnone, hres, rfl⟩ | ⟨rfl, hfoe₃, b, hqueues₃⟩
  · -- no second buffer is idle: `FOE_abort` is called again
    rw [when, if_pos hres]
    refine (foeAbort_reports hres).mono fun _ s' ⟨hout, hfoe, hqueues⟩ => ?_
    have hmb' : s'.mb = s₃.mb := by
      rcases hqueues with ⟨-, hsame⟩ | ⟨n, hqueued⟩
      · exact hsame
      · exact (hnone ⟨n, hqueued.idle⟩).elim
    have hready : s'.foe.foestate = .ready := by
      rw [hfoe]
      rfl
    have hposition : s'.foe.fbufposition = 0 := by
      rw [hfoe]
      rfl
    have hlost : ¬ StoresPacket record s s' := hnot s' (hout.trans hout₂) hposition
    rw [← hmb'] at hqueues₂
    refine ⟨(reportsPacket_abort hlost hready hqueues₂).trans ?_,
      .of_ready ⟨?_, hopen.get⟩ hposition hready⟩
    · rw [hanswerable]
      refine ⟨fun hidle => ⟨hidle, ?_⟩, fun h => h.1⟩
      rintro ⟨a, b, hne, ha, hb⟩
      rcases hqueues₂ with ⟨hno, -⟩ | ⟨n, hqueued⟩
      · exact hno hidle
      · rw [hmb'] at hqueued
        -- one of the two is still idle
        by_cases han : a = n
        · have hbn : b ≠ n := fun hbn => hne (han.trans hbn.symm)
          refine hnone ⟨b, hb.1, hb.2.1, ?_⟩
          rw [hqueued.control b, if_neg hbn]
          exact hb.2.2
        · refine hnone ⟨a, ha.1, ha.2.1, ?_⟩
          rw [hqueued.control a, if_neg han]
          exact ha.2.2
    · rw [hfoe]
      exact hfile₂
  · -- the ACK is in a second buffer
    rw [when, if_neg (not_not.mpr rfl), wp_pure]
    have hposition₃ : s₃.foe.fbufposition = 0 := by
      rw [hfoe₃]
      exact hposition₂
    have hlost : ¬ StoresPacket record s s₃ := hnot s₃ (hout₃.trans hout₂) hposition₃
    have hqueued : ∃ n, s.mb.QueuesFoe env.opts s₂.mb n foeOpErr := by
      rcases hqueues₂ with ⟨hnone, hsame⟩ | hqueued
      · refine (hnone ?_).elim
        rw [← hsame]
        exact ⟨b, hqueues₃.idle⟩
      · exact hqueued
    obtain ⟨n, hqueued⟩ := hqueued
    have hidle₂ := hqueues₃.idle.2.2
    have hbn : b ≠ n := by
      rintro rfl
      rw [hqueued.control b, if_pos rfl] at hidle₂
      cases hidle₂
    rw [hqueued.control b, if_neg hbn] at hidle₂
    have hb : s.mb.IdleBuffer env.opts b := ⟨hqueues₃.idle.1, hqueues₃.idle.2.1, hidle₂⟩
    refine ⟨⟨fun hreports => ?_, fun h => ?_⟩, .of_ready ⟨?_, hopen.get⟩ hposition₃ ?_⟩
    · have hack : s.mb.HasQueued env.opts s₃.mb b := by
        refine ⟨hb, ?_⟩
        rw [hqueues₃.control b, if_pos rfl]
      exact (hlost (hreports.acked b hack hqueues₃.opcode)).elim
    · exact ((hanswerable.mp h).2 ⟨b, n, hbn, hb, hqueued.idle⟩).elim
    · rw [hfoe₃]
      exact hfile₂
    · rw [hfoe₃]
      exact hstate₂

/-! ## What becomes of the bytes -/

section bytes

variable {x : Storing σ} {n : ℕ}

variable (record) in
/-- What closing a file leaves on record. -/
lemma Storing.close_records (hf : f ∈ env.cfg.files) (x : Storing σ) :
    record.results (x.close f).1 = (x.close f).2 :: record.results x.outside ∧
      record.written (x.close f).1 = x.kept record :=
  ⟨record.results_write f hf .., record.written_write f hf ..⟩

/-- With an empty buffer, what is stored was handed over. -/
lemma FoeMem.kept_of_empty (h : s'.foe.fbufposition = 0) :
    s'.kept record = record.written s'.outside := by
  rw [kept, h, ByteStore.bytes_zero, List.append_nil]

/-- A packet that was not written whole is not stored, once the buffer is given up. -/
lemma not_storesPacket_of_short (hf : f ∈ env.cfg.files)
    (hstores : storeBytes env.cfg f s.foe.fend s.mb.foePacket (s.storing i) = (x, n))
    (hn : n ≠ s.mb.foePacketSize) (hout : s'.outside = x.outside)
    (hempty : s'.foe.fbufposition = 0) : ¬ StoresPacket record s s' := by
  rintro ⟨-, hkept, hzero⟩
  rw [FoeMem.kept_of_empty hempty, hout] at hkept
  rw [hout] at hzero
  rw [← s.mb.length_foePacket] at hn
  rcases storeBytes_short record hf hstores hn with ⟨r, hr, hne⟩ | hshort
  · exact hne (hzero r hr)
  · have hlength := congrArg List.length hkept
    rw [List.length_append] at hlength
    have hle : (record.written x.outside).length ≤ (x.kept record).length := by
      rw [Storing.kept, List.length_append]
      exact Nat.le_add_right _ _
    have hsame : (s.kept record).length = ((s.storing i).kept record).length := rfl
    omega

variable (hexpects : s.Expects) (hf : f ∈ env.cfg.files) (hinside : (s.storing i).Inside env.cfg)
  (hstores : storeBytes env.cfg f s.foe.fend s.mb.foePacket (s.storing i) =
    (x, s.mb.foePacketSize))
  (hzero : ∀ r ∈ record.results s'.outside, r = 0)
include hexpects hf hinside hstores hzero

/-- A packet that was written is stored if the position does not go round, with what waits in
the buffer. -/
lemma storesPacket_iff (hkept : s'.kept record = x.kept record) :
    StoresPacket record s s' ↔ (s.storing i).HoldsMore env.cfg s.mb.foePacketSize := by
  rw [← s.mb.length_foePacket] at hstores ⊢
  rw [← storeBytes_kept_iff record hf hinside hstores, ← hkept]
  exact ⟨fun h => h.2.1, fun h => ⟨hexpects, h, hzero⟩⟩

/-- If the buffer is given up, nothing may wait in it. -/
lemma storesPacket_given_up_iff (hout : s'.outside = x.outside)
    (hempty : s'.foe.fbufposition = 0) : StoresPacket record s s' ↔
      (s.storing i).HoldsMore env.cfg s.mb.foePacketSize ∧ x.bufposition = 0 := by
  by_cases hposition : x.bufposition = 0
  · have hkept : s'.kept record = x.kept record := by
      rw [FoeMem.kept_of_empty hempty, hout, Storing.kept, hposition, ByteStore.bytes_zero,
        List.append_nil]
    rw [storesPacket_iff hexpects hf hinside hstores hzero hkept]
    exact (and_iff_left hposition).symm
  · refine ⟨fun h => ?_, fun h => (hposition h.2).elim⟩
    have hlength := congrArg List.length h.2.1
    rw [FoeMem.kept_of_empty hempty, hout, List.length_append, s.mb.length_foePacket] at hlength
    have hlonger : (x.kept record).length =
        (record.written x.outside).length + x.bufposition := by
      rw [Storing.kept, List.length_append, ByteStore.length_bytes]
    -- no more bytes are kept than were put
    have hle := storeBytes_kept_le (x := s.storing i) record hf hstores
    rw [s.mb.length_foePacket] at hle
    have hsame : (s.kept record).length = ((s.storing i).kept record).length := rfl
    omega

end bytes

/-- An ACK changes no file, and nothing of what is stored. -/
lemma foeSendAck_keeps :
    wp env k foeSendAck (fun res s' => s'.outside = s.outside ∧ s'.foe.file = s.foe.file ∧
      s'.foe.fbuffer = s.foe.fbuffer ∧ s'.foe.fbufposition = s.foe.fbufposition ∧
      ((¬ s.mb.ReplyIdle env.opts ∧ res ≠ 0 ∧ s'.mb = s.mb) ∨
        res = 0 ∧ ∃ n, s.mb.QueuesFoe env.opts s'.mb n foeOpAck)) s := by
  refine foeSendAck_reports.mono fun res s₁ ⟨hout, hcases⟩ => ?_
  rcases hcases with ⟨hnone, hres, rfl⟩ | ⟨hres, hfoe, hqueued⟩
  · exact ⟨rfl, rfl, rfl, rfl, .inl ⟨hnone, hres, rfl⟩⟩
  · rw [hfoe]
    exact ⟨hout, rfl, rfl, rfl, .inr ⟨hres, hqueued⟩⟩

/-- What a packet is does not depend on who is at work on it. -/
lemma Mailbox.foePacket_atWork (m : Mailbox) (xoe : Byte) :
    ({ m with xoe := xoe } : Mailbox).foePacketSize = m.foePacketSize ∧
      ({ m with xoe := xoe } : Mailbox).foePacket = m.foePacket ∧
      ({ m with xoe := xoe } : Mailbox).foeDataSize = m.foeDataSize := by
  have hlength : ({ m with xoe := xoe } : Mailbox).headerLength 0 = m.headerLength 0 := rfl
  have hsize : ({ m with xoe := xoe } : Mailbox).foePacketSize = m.foePacketSize := by
    rw [foePacketSize, hlength, foePacketSize]
  refine ⟨hsize, ?_, ?_⟩
  · rw [foePacket, hsize, foePacket]
  · rw [foeDataSize, foeDataSize]

lemma PacketEnds.atWork
    (h : PacketEnds env record i f ⟨s.outside, { s.mb with xoe := mbxfoe }, s.foe⟩ s') :
    PacketEnds env record i f s s' := by
  obtain ⟨o, m, v⟩ := s
  obtain ⟨hsize, hpacket, hfull⟩ := m.foePacket_atWork mbxfoe
  obtain ⟨hreports, hafter⟩ := h
  have hexpects : FoeMem.Expects ⟨o, { m with xoe := mbxfoe }, v⟩ ↔
    FoeMem.Expects ⟨o, m, v⟩ := Iff.rfl
  have hroom : FoeMem.HasRoom ⟨o, { m with xoe := mbxfoe }, v⟩ ↔ FoeMem.HasRoom ⟨o, m, v⟩ := by
    rw [FoeMem.HasRoom, hsize, FoeMem.HasRoom]
  have hstores : FoeMem.stores ⟨o, { m with xoe := mbxfoe }, v⟩ env.cfg i f =
      FoeMem.stores ⟨o, m, v⟩ env.cfg i f := by
    by_cases h : FoeMem.HasRoom ⟨o, m, v⟩
    · rcases hx : storeBytes env.cfg f v.fend m.foePacket (FoeMem.storing ⟨o, m, v⟩ i) with ⟨x, n⟩
      rw [FoeMem.stores_room h hx]
      refine FoeMem.stores_room (hroom.mpr h) ?_
      dsimp only
      rw [hpacket]
      exact hx
    · rw [FoeMem.stores_full h]
      exact FoeMem.stores_full fun hr => h (hroom.mp hr)
  have hkept : FoeMem.kept record ⟨o, { m with xoe := mbxfoe }, v⟩ =
    FoeMem.kept record ⟨o, m, v⟩ := rfl
  have hstored : StoresPacket record ⟨o, { m with xoe := mbxfoe }, v⟩ s' ↔
      StoresPacket record ⟨o, m, v⟩ s' := by
    simp only [StoresPacket, hexpects, hpacket, hkept]
  refine ⟨?_, hafter⟩
  have hanswerable : FoeMem.Answerable ⟨o, { m with xoe := mbxfoe }, v⟩ env i f ↔
      FoeMem.Answerable ⟨o, m, v⟩ env i f := by
    have hidle : Mailbox.ReplyIdle env.opts { m with xoe := mbxfoe } ↔ m.ReplyIdle env.opts :=
      Iff.rfl
    have htwo : Mailbox.TwoIdle env.opts { m with xoe := mbxfoe } ↔ m.TwoIdle env.opts := Iff.rfl
    have hstoring : FoeMem.storing ⟨o, { m with xoe := mbxfoe }, v⟩ i =
      FoeMem.storing ⟨o, m, v⟩ i := rfl
    simp only [FoeMem.Answerable, FoeMem.WritesWhole, FoeMem.StaysStored, hexpects, hsize, hfull,
      hstores, hidle, htwo, hstoring]
  rw [← hanswerable, ← hreports]
  constructor
  · intro hr
    refine ⟨fun n hn hack => hstored.mpr (hr.acked n hn hack), fun hnot => ?_⟩
    exact hr.refused fun h => hnot (hstored.mpr h)
  · intro hr
    refine ⟨fun n hn hack => hstored.mp (hr.acked n hn hack), fun hnot => ?_⟩
    exact hr.refused fun h => hnot (hstored.mp h)

/-- The inbox is given back after the answer. -/
lemma PacketEnds.released (h : PacketEnds env record i f s s') :
    PacketEnds env record i f s
      { s' with mb := { s'.mb.setControl 0 .idle with xoe := 0 } } := by
  have hqueued (n : ℕ) : s.mb.HasQueued env.opts { s'.mb.setControl 0 .idle with xoe := 0 } n ↔
      s.mb.HasQueued env.opts s'.mb n := by
    refine and_congr_right fun hidle => ?_
    have hpos : n ≠ 0 := Nat.pos_iff_ne_zero.mp hidle.1
    show (if n = 0 then MbxState.idle else s'.mb.control n) = _ ↔ _
    rw [if_neg hpos]
  obtain ⟨hreports, ⟨hfile, hget⟩, hinside, hwaiting⟩ := h
  refine ⟨⟨fun hr => hreports.mp ⟨fun n hn => ?_, fun hnot => ?_⟩, fun ha => ?_⟩,
    ⟨hfile, hget⟩, hinside, hwaiting⟩
  · exact hr.acked n ((hqueued n).mpr hn)
  · obtain ⟨n, honly, herr⟩ := hr.refused hnot
    exact ⟨n, fun j => (hqueued j).symm.trans (honly j), herr⟩
  · have hr := hreports.mpr ha
    refine ⟨fun n hn => hr.acked n ((hqueued n).mp hn), fun hnot => ?_⟩
    obtain ⟨n, honly, herr⟩ := hr.refused hnot
    exact ⟨n, fun j => (hqueued j).trans (honly j), herr⟩

/-! ## A data packet -/

/-- The transfer goes on after a packet of full size that was written. -/
lemma foeData_acknowledged {x : Storing σ} {n : ℕ} {s₁ : FoeMem σ}
    (htransfer : s.Transferring record i f) (hexpects : s.Expects) (hroom : s.HasRoom)
    (hnonempty : s.mb.foePacketSize ≠ 0)
    (hfull : s.mb.foePacketSize = s.mb.foeDataSize)
    (hstores : storeBytes env.cfg f s.foe.fend s.mb.foePacket (s.storing i) =
      (x, s.mb.foePacketSize))
    (hafter : s₁.storing i = x.count n) (hkept : KeepsTransferring s s₁)
    (hzero : ∀ r ∈ record.results x.outside, r = 0) :
    wp env k (do
      let res ← foeSendAck
      when (res ≠ 0) (foeAbort res)) (fun _ s' => PacketEnds env record i f s s') s₁ := by
  have hf : f ∈ env.cfg.files := List.mem_of_getElem? htransfer.isOpen.get
  have hout₁ : s₁.outside = x.outside := congrArg Storing.outside hafter
  have hstored := FoeMem.stores_room hroom hstores
  have hwhole : s.WritesWhole env.cfg i f := by
    refine ⟨hexpects, ?_, fun h => (hnonempty h).elim, fun _ hne => (hne hfull).elim⟩
    rw [hstored]
  have hstays : s.StaysStored env i f ↔ (s.storing i).HoldsMore env.cfg s.mb.foePacketSize ∧
      (s.mb.ReplyIdle env.opts ∨ x.bufposition = 0) := by
    unfold FoeMem.StaysStored
    rw [hstored, Storing.count_bufposition]
    exact and_congr_right fun _ => ⟨fun h => h hnonempty hfull, fun h _ _ => h⟩
  rw [wp_bind]
  refine foeSendAck_keeps.mono fun res s₂ hack => ?_
  obtain ⟨hout₂, hfile₂, hbuffer₂, hposition₂, hcases⟩ := hack
  rw [hkept.mb] at hcases
  rcases hcases with ⟨hnone, hres, hmb₂⟩ | ⟨rfl, n, hqueued⟩
  · -- no ACK can be sent, and the transfer is over
    rw [when, if_pos hres]
    refine (foeAbort_reports hres).mono fun _ s' haborted => ?_
    obtain ⟨hout, hfoe, hqueues⟩ := haborted
    have hmb' : s'.mb = s.mb := by
      rcases hqueues with ⟨-, hsame⟩ | ⟨n, hqueued⟩
      · exact hsame.trans hmb₂
      · rw [hmb₂] at hqueued
        exact (hnone ⟨n, hqueued.idle⟩).elim
    have hout' : s'.outside = x.outside := hout.trans (hout₂.trans hout₁)
    have hposition : s'.foe.fbufposition = 0 := by
      rw [hfoe]
      rfl
    have hzero' : ∀ r ∈ record.results s'.outside, r = 0 := by
      rw [hout']
      exact hzero
    refine ⟨?_, .of_ready ⟨?_, htransfer.isOpen.get⟩ hposition (by rw [hfoe]; rfl)⟩
    · rw [reportsPacket_ack (.inl ⟨hnone, hmb'⟩), answerable_iff_stays hwhole, hstays,
        storesPacket_given_up_iff hexpects hf htransfer.inside hstores hzero' hout' hposition]
      exact and_congr_right fun _ => ⟨.inr, fun h => h.resolve_left hnone⟩
    · rw [hfoe]
      exact hfile₂.trans (hkept.file.trans htransfer.isOpen.file)
  · rw [when, if_neg (not_not.mpr rfl), wp_pure]
    have hout' : s₂.outside = x.outside := hout₂.trans hout₁
    have hzero' : ∀ r ∈ record.results s₂.outside, r = 0 := by
      rw [hout']
      exact hzero
    have hbuffer : s₁.foe.fbuffer = x.buffer := congrArg Storing.buffer hafter
    have hposition : s₁.foe.fbufposition = x.bufposition := congrArg Storing.bufposition hafter
    have hkept' : s₂.kept record = x.kept record := by
      rw [FoeMem.kept, hout', hbuffer₂, hposition₂, hbuffer, hposition, Storing.kept]
    refine ⟨?_, ⟨?_, htransfer.isOpen.get⟩, ?_, fun _ => hzero'⟩
    · rw [reportsPacket_ack (.inr ⟨n, hqueued⟩), answerable_iff_stays hwhole, hstays,
        storesPacket_iff hexpects hf htransfer.inside hstores hzero' hkept']
      exact (and_iff_left (.inl ⟨n, hqueued.idle⟩)).symm
    · exact hfile₂.trans (hkept.file.trans htransfer.isOpen.file)
    · have hx : x.Inside env.cfg := by
        have hinside : (storeBytes env.cfg f s.foe.fend s.mb.foePacket (s.storing i)).1.Inside
            env.cfg := storeBytes_inside htransfer.inside
        rw [hstores] at hinside
        exact hinside
      show s₂.foe.fbufposition < 2 ^ 16 ∧ (_ ≤ s₂.foe.fbufposition → s₂.foe.fbufposition = 0)
      rw [hposition₂, hposition]
      exact hx

/-- The file is closed after its last packet, or an empty one, was written: the answer is an ACK
if there is a buffer for it. -/
lemma foeData_closed {x : Storing σ} {s₁ : FoeMem σ} (htransfer : s.Transferring record i f)
    (hwhole : s.WritesWhole env.cfg i f)
    (hshort : s.mb.foePacketSize = 0 ∨ s.mb.foePacketSize ≠ s.mb.foeDataSize)
    (hstores : storeBytes env.cfg f s.foe.fend s.mb.foePacket (s.storing i) =
      (x, s.mb.foePacketSize))
    (hwritten : record.written s₁.outside = x.kept record)
    (hzero : ∀ r ∈ record.results s₁.outside, r = 0) (hkept : KeepsTransferring s s₁) :
    wp env k (do
      let _ ← foeSendAck
      foeInit) (fun _ s' => PacketEnds env record i f s s') s₁ := by
  have hf : f ∈ env.cfg.files := List.mem_of_getElem? htransfer.isOpen.get
  have hstays : s.StaysStored env i f ↔
      (s.storing i).HoldsMore env.cfg s.mb.foePacketSize := by
    refine and_iff_left fun hnonempty hfull => ?_
    rcases hshort with hzero | hne
    · exact (hnonempty hzero).elim
    · exact (hne hfull).elim
  rw [wp_bind]
  refine foeSendAck_keeps.mono fun res s₂ hthen => ?_
  obtain ⟨hout₂, hfile₂, -, -, hcases⟩ := hthen
  rw [hkept.mb] at hcases
  rw [foeInit, foeModify, wp_modify]
  have hkept' : FoeMem.kept record { s₂ with foe := s₂.foe.init } = x.kept record := by
    rw [FoeMem.kept_of_empty rfl, ← hwritten]
    dsimp only
    rw [hout₂]
  have hacked : (¬ s.mb.ReplyIdle env.opts ∧ s₂.mb = s.mb) ∨
      ∃ n, s.mb.QueuesFoe env.opts s₂.mb n foeOpAck := by
    rcases hcases with ⟨hnone, -, hsame⟩ | ⟨-, hqueued⟩
    · exact .inl ⟨hnone, hsame⟩
    · exact .inr hqueued
  refine ⟨?_, .of_ready ⟨?_, htransfer.isOpen.get⟩ rfl rfl⟩
  · refine Iff.trans (reportsPacket_ack (by exact hacked)) ?_
    rw [answerable_iff_stays hwhole, hstays]
    refine storesPacket_iff hwhole.1 hf htransfer.inside hstores ?_ hkept'
    dsimp only
    rw [hout₂]
    exact hzero
  · exact hfile₂.trans (hkept.file.trans htransfer.isOpen.file)

/-- A packet that the transfer waits for, and the file has room for. -/
lemma foeDataAccepted_ends (htransfer : s.Transferring record i f) (hexpects : s.Expects)
    (hroom : s.HasRoom) (hnonempty : s.mb.foePacketSize ≠ 0) :
    wp env k (foeDataAccepted s.mb.foePacketSize)
      (fun _ s' => PacketEnds env record i f s s') s := by
  have hf : f ∈ env.cfg.files := List.mem_of_getElem? htransfer.isOpen.get
  rcases hstores : storeBytes env.cfg f s.foe.fend s.mb.foePacket (s.storing i) with ⟨x, n⟩
  have hcount : s.stores env.cfg i f = (x.count n, n) := FoeMem.stores_room hroom hstores
  have hle : n ≤ s.mb.foePacketSize := by
    have hle := storeBytes_le env.cfg f s.foe.fend s.mb.foePacket (s.storing i)
    rw [hstores, s.mb.length_foePacket] at hle
    exact hle
  rw [foeDataAccepted, wp_bind]
  refine (foeFwrite_stores htransfer.isOpen hstores).mono fun copied s₁ hthen => ?_
  obtain ⟨hcopied, hafter, hkept⟩ := hthen
  subst hcopied
  have hout₁ : s₁.outside = x.outside := congrArg Storing.outside hafter
  have hopen₁ : s₁.HasOpen env.cfg i f :=
    ⟨hkept.file.trans htransfer.isOpen.file, htransfer.isOpen.get⟩
  have hpartly (hpart : copied ≠ s.mb.foePacketSize) (s' : FoeMem σ)
      (hout : s'.outside = s₁.outside) (hempty : s'.foe.fbufposition = 0) :
      ¬ StoresPacket record s s' :=
    not_storesPacket_of_short hf hstores hpart (hout.trans hout₁) hempty
  have hnotwhole (hpart : copied ≠ s.mb.foePacketSize) : ¬ s.WritesWhole env.cfg i f := by
    rintro ⟨-, hall, -⟩
    rw [hcount] at hall
    exact hpart hall
  have hempty : ¬ (s.Expects ∧ s.mb.foePacketSize = 0) := fun h => hnonempty h.2
  have hzero (hall : copied = s.mb.foePacketSize) : ∀ r ∈ record.results x.outside, r = 0 := by
    rw [hall, ← s.mb.length_foePacket] at hstores
    exact storeBytes_results record hf hstores (htransfer.waiting hexpects.1)
  refine (wp_ite _ _ _ _).mpr ⟨fun hnone => ?_, fun hsome => ?_⟩
  · -- nothing was stored
    have hpart : copied ≠ s.mb.foePacketSize := by omega
    refine foeAbort_ends (by decide) hkept.mb hopen₁ (hpartly hpart) ?_
    refine answerable_iff_idle (hnotwhole hpart) hempty ?_
    rintro ⟨-, -, hpos, -⟩
    rw [hcount, hnone] at hpos
    exact absurd hpos (Nat.lt_irrefl 0)
  rw [wp_get_bind, hkept.mb]
  refine (wp_ite _ _ _ _).mpr ⟨fun hfull => ?_, fun hshort => ?_⟩
  · by_cases hall : copied = s.mb.foePacketSize
    · -- a full packet was stored, and the transfer goes on
      rw [when, if_neg (not_not.mpr hall), wp_bind, wp_pure]
      have hzero' := hzero hall
      rw [hall] at hstores hafter
      exact foeData_acknowledged htransfer hexpects hroom hnonempty hfull hstores hafter hkept
        hzero'
    · -- a full packet was stored in part: the error is followed by an ACK
      rw [when, if_pos hall]
      refine foeAbort_ack_ends hkept.mb hopen₁ (hpartly hall) ?_
      constructor
      · intro h
        obtain ⟨hidle, -, hnot⟩ := h.2 (hnotwhole hall)
        refine ⟨hidle, fun htwo => hnot ⟨hexpects, hfull, ?_, ?_, htwo⟩⟩
        · rw [hcount]
          exact Nat.pos_of_ne_zero hsome
        · rw [hcount]
          exact Nat.lt_of_le_of_ne hle hall
      · rintro ⟨hidle, hnottwo⟩
        refine ⟨fun hwhole => (hnotwhole hall hwhole).elim, fun _ => ⟨hidle, hempty, ?_⟩⟩
        exact fun h => hnottwo h.2.2.2.2
  · -- the packet ends the transfer
    have hnotfull : ¬ (s.Expects ∧ s.mb.foePacketSize = s.mb.foeDataSize ∧
        0 < (s.stores env.cfg i f).2 ∧ (s.stores env.cfg i f).2 < s.mb.foePacketSize) :=
      fun h => hshort h.2.1
    refine (wp_ite _ _ _ _).mpr ⟨fun hpart => ?_, fun hall => ?_⟩
    · refine foeAbort_ends (by decide) hkept.mb hopen₁ (hpartly hpart) ?_
      exact answerable_iff_idle (hnotwhole hpart) hempty hnotfull
    rw [not_not] at hall
    rw [wp_bind]
    refine (foeFclose_closes hopen₁).mono fun failed s₂ hthen => ?_
    obtain ⟨hanswer, hposition, hkept₂⟩ := hthen
    have hclosed : (s₂.outside, failed) = (x.count copied).close f := by
      rw [hanswer, hafter]
    refine (wp_ite _ _ _ _).mpr ⟨fun hfailed => ?_, fun hgood => ?_⟩
    · -- what is left in the buffer could not be written
      refine foeAbort_ends (by decide) (hkept₂.mb.trans hkept.mb)
        ⟨hkept₂.file.trans hopen₁.file, hopen₁.get⟩ (fun s' hout _ hstored => ?_)
        (answerable_iff_idle ?_ hempty hnotfull)
      · refine hfailed (hstored.2.2 failed ?_)
        have hout₂ := congrArg Prod.fst hclosed
        dsimp only at hout₂
        rw [hout, hout₂, Storing.close, record.results_write f hf]
        exact List.mem_cons.mpr (.inl (congrArg Prod.snd hclosed))
      · rintro ⟨-, -, -, hlast⟩
        have hflush := hlast hnonempty hshort
        rw [hcount, ← hclosed] at hflush
        exact hfailed hflush
    · rw [not_not] at hgood
      subst hgood
      have hwhole : s.WritesWhole env.cfg i f := by
        refine ⟨hexpects, ?_, fun h => (hnonempty h).elim, fun _ _ => ?_⟩
        · rw [hcount]
          exact hall
        · rw [hcount, ← hclosed]
      obtain ⟨hresults, hwritten⟩ := (x.count copied).close_records record hf
      rw [← hclosed] at hresults hwritten
      have hzero' := hzero hall
      rw [hall] at hstores
      refine foeData_closed htransfer hwhole (.inr hshort) hstores hwritten ?_ (hkept.trans hkept₂)
      rw [hresults]
      exact List.forall_mem_cons.mpr ⟨rfl, hzero'⟩

/-- An empty packet is acknowledged, also if the rest of the buffer cannot be written. -/
lemma foeData_empty_ends (htransfer : s.Transferring record i f) (hexpects : s.Expects)
    (hempty : s.mb.foePacketSize = 0) :
    wp env k (do
      let _ ← foeFclose
      let _ ← foeSendAck
      foeInit) (fun _ s' => PacketEnds env record i f s s') s := by
  have hf : f ∈ env.cfg.files := List.mem_of_getElem? htransfer.isOpen.get
  have hnil : s.mb.foePacket = [] := by
    rw [← List.length_eq_zero_iff, s.mb.length_foePacket]
    exact hempty
  have hstores : storeBytes env.cfg f s.foe.fend s.mb.foePacket (s.storing i) =
      (s.storing i, s.mb.foePacketSize) := by
    rw [hnil, hempty]
    rfl
  have hnone : (s.stores env.cfg i f).2 = s.mb.foePacketSize := by
    by_cases hroom : s.HasRoom
    · rw [FoeMem.stores_room hroom hstores]
    · rw [FoeMem.stores_full hroom, hempty]
  rw [wp_bind]
  refine (foeFclose_closes htransfer.isOpen).mono fun failed s₁ ⟨hclosed, hposition, hkept⟩ => ?_
  obtain ⟨hresults, hwritten⟩ := (s.storing i).close_records record hf
  rw [← hclosed] at hresults hwritten
  by_cases hgood : failed = 0
  · subst hgood
    refine foeData_closed htransfer ⟨hexpects, hnone, fun _ => ?_, fun h => (h hempty).elim⟩
      (.inl hempty) hstores hwritten ?_ hkept
    · rw [← hclosed]
    · rw [hresults]
      exact List.forall_mem_cons.mpr ⟨rfl, htransfer.waiting hexpects.1⟩
  · -- the failure is lost
    have hnotwhole : ¬ s.WritesWhole env.cfg i f := by
      rintro ⟨-, -, hflush, -⟩
      refine hgood ?_
      rw [← hflush hempty, ← hclosed]
    rw [wp_bind]
    refine foeSendAck_keeps.mono fun res s₂ hthen => ?_
    obtain ⟨hout₂, hfile₂, -, -, hcases⟩ := hthen
    rw [hkept.mb] at hcases
    rw [foeInit, foeModify, wp_modify]
    have hlost : ¬ StoresPacket record s { s₂ with foe := s₂.foe.init } := by
      rintro ⟨-, -, hall⟩
      refine hgood (hall failed ?_)
      dsimp only
      rw [hout₂, hresults]
      exact List.mem_cons_self ..
    have hacked : (¬ s.mb.ReplyIdle env.opts ∧ s₂.mb = s.mb) ∨
        ∃ n, s.mb.QueuesFoe env.opts s₂.mb n foeOpAck := by
      rcases hcases with ⟨hidle, -, hsame⟩ | ⟨-, hqueued⟩
      · exact .inl ⟨hidle, hsame⟩
      · exact .inr hqueued
    refine ⟨?_, .of_ready ⟨?_, htransfer.isOpen.get⟩ rfl rfl⟩
    · refine Iff.trans (reportsPacket_ack (by exact hacked)) ?_
      exact ⟨fun h => (hlost h).elim, fun h => ((h.2 hnotwhole).2.1 ⟨hexpects, hempty⟩).elim⟩
    · exact hfile₂.trans (hkept.file.trans htransfer.isOpen.file)

/-- `FOE_data`. -/
lemma foeData_ends (htransfer : s.Transferring record i f) :
    wp env k foeData (fun _ s' => PacketEnds env record i f s s') s := by
  rw [foeData, wp_get_bind]
  have unexpected (hnot : ¬ s.Expects) : s.Answerable env i f ↔ s.mb.ReplyIdle env.opts :=
    answerable_iff_idle (fun h => hnot h.1) (fun h => hnot h.1) fun h => hnot h.1
  refine (wp_ite _ _ _ _).mpr ⟨fun hstate => ?_, fun hstate => ?_⟩
  · have hnot : ¬ s.Expects := fun h => hstate h.1
    exact foeAbort_ends (by decide) rfl htransfer.isOpen (fun _ _ _ h => hnot h.1)
      (unexpected hnot)
  rw [not_not] at hstate
  refine (wp_ite _ _ _ _).mpr ⟨fun hnumber => ?_, fun hnumber => ?_⟩
  · have hnot : ¬ s.Expects := fun h => hnumber h.2
    exact foeAbort_ends (by decide) rfl htransfer.isOpen (fun _ _ _ h => hnot h.1)
      (unexpected hnot)
  rw [not_not] at hnumber
  have hexpects : s.Expects := ⟨hstate, hnumber⟩
  refine (wp_ite _ _ _ _).mpr ⟨fun hempty => ?_, fun hnonempty => ?_⟩
  · exact foeData_empty_ends htransfer hexpects hempty
  refine (wp_ite _ _ _ _).mpr ⟨fun hfull => ?_, fun hroom => ?_⟩
  · have hnoroom : ¬ s.HasRoom := fun h => Nat.not_lt.mpr h hfull
    have hnone : (s.stores env.cfg i f).2 = 0 := by rw [FoeMem.stores_full hnoroom]
    refine foeAbort_ends (by decide) rfl htransfer.isOpen (fun s' hout hempty hstored => ?_)
      (answerable_iff_idle ?_ (fun h => hnonempty h.2) ?_)
    · -- the packet is not begun with
      have hlength := congrArg List.length hstored.2.1
      rw [FoeMem.kept_of_empty hempty, hout, FoeMem.kept, List.length_append, List.length_append,
        s.mb.length_foePacket] at hlength
      refine hnonempty ?_
      change s.mb.foePacketSize = 0
      omega
    · rintro ⟨-, hall, -⟩
      exact hnonempty (hall.symm.trans hnone)
    · rintro ⟨-, -, hpos, -⟩
      omega
  · exact foeDataAccepted_ends htransfer hexpects (Nat.not_lt.mp hroom) hnonempty

/-- `ESC_foeprocess` hands a data packet on. -/
lemma escFoeprocess_ends (htransfer : s.Transferring record i f) (hdata : s.mb.IsData) :
    wp env k escFoeprocess (fun _ s' => PacketEnds env record i f s s') s := by
  have dispatched (s₁ : FoeMem σ) (hout : s₁.outside = s.outside) (hfoe : s₁.foe = s.foe)
      (hmb : s₁.mb = { s.mb with xoe := mbxfoe }) :
      wp env k (foeDispatch s₁.mb) (fun _ s' => PacketEnds env record i f s s') s₁ := by
    obtain ⟨o, m, v⟩ := s₁
    dsimp only at hout hfoe hmb
    subst hout hfoe hmb
    refine (wp_ite _ _ _ _).mpr ⟨fun hshort => ?_, fun _ => ?_⟩
    · exact absurd hdata.length (Nat.not_le.mpr hshort)
    refine (wp_ite _ _ _ _).mpr ⟨fun hwrq => ?_, fun _ => ?_⟩
    · have hopcode := hdata.opcode.symm.trans hwrq
      exact absurd hopcode (by decide)
    refine (wp_ite _ _ _ _).mpr ⟨fun _ => ?_, fun hno => (hno hdata.opcode).elim⟩
    have htaken : (⟨s.outside, { s.mb with xoe := mbxfoe }, s.foe⟩ : FoeMem σ).Transferring
        record i f :=
      ⟨⟨htransfer.isOpen.file, htransfer.isOpen.get⟩, htransfer.inside, htransfer.waiting⟩
    exact (foeData_ends htaken).mono fun _ s' h => h.atWork
  rw [escFoeprocess, wp_get_bind]
  refine .when (fun _ => ?_) fun hno => (hno hdata.handled.1).elim
  rw [wp_get_bind]
  refine wp.bind (P := fun _ s₁ => s₁.outside = s.outside ∧ s₁.foe = s.foe ∧
      s₁.mb = { s.mb with xoe := mbxfoe })
    (.when (fun _ => (wp_foeModifyMb _ _).mpr ⟨rfl, rfl, rfl⟩) fun hnot => ⟨rfl, rfl, ?_⟩)
    fun _ s₁ hthen => ?_
  · rcases hdata.handled.2 with hxoe | hclaim
    · rw [← hxoe]
    · exact (hnot hclaim).elim
  · obtain ⟨hout, hfoe, hmb⟩ := hthen
    have hxoe : s₁.mb.xoe = mbxfoe := by rw [hmb]
    rw [wp_get_bind]
    refine .when (fun _ => ?_) fun hno => (hno hxoe).elim
    refine (dispatched s₁ hout hfoe hmb).bind fun _ s₂ hends => ?_
    rw [wp_foeModifyMb]
    exact hends.released

end answers

/-! ## Transfers -/

/-- A transfer of file `i`, from where a WRQ has opened it, and the data packets in it, in whatever
order; the record begins with the transfer, and only the write functions add to it. -/
inductive FileTransfer (cfg : FoeCfg σ) (record : WriteRecord cfg) (i : ℕ) (f : FoeFile σ) :
    FoeMem σ → Prop where
  /-- The file is open. -/
  | opened {v : Foe} {s : FoeMem σ} :
      cfg.files[i]? = some f → s.foe = v.opened i f.maxData → record.results s.outside = [] →
      FileTransfer cfg record i f s
  /-- A packet is handled. -/
  | packet {env : FoeEnv σ} {k : ℕ} {o : σ} {m : Mailbox} {s s' : FoeMem σ} :
      FileTransfer cfg record i f s → env.cfg = cfg → m.IsData →
      record.results o = record.results s.outside →
      escFoeprocess env k ⟨o, m, s.foe⟩ = .ok () s' → FileTransfer cfg record i f s'

/-- A packet comes in, and the application has run on. -/
lemma FoeMem.Transferring.receive {cfg : FoeCfg σ} {record : WriteRecord cfg}
    (h : s.Transferring record i f) {o : σ} (m : Mailbox)
    (hsame : record.results o = record.results s.outside) :
    FoeMem.Transferring record i f ⟨o, m, s.foe⟩ := by
  refine ⟨⟨h.isOpen.file, h.isOpen.get⟩, h.inside, fun hw => ?_⟩
  dsimp only
  rw [hsame]
  exact h.waiting hw

/-- While the transfer goes on, no write function has failed, and the position is in the
buffer. -/
lemma FileTransfer.transferring {cfg : FoeCfg σ} {record : WriteRecord cfg}
    (h : FileTransfer cfg record i f s) : s.Transferring record i f := by
  induction h with
  | @opened v s hget hfoe hnone =>
      refine ⟨⟨?_, hget⟩, ?_, fun _ r hr => ?_⟩
      · rw [hfoe]
        rfl
      · have hposition : s.foe.fbufposition = 0 := by
          rw [hfoe]
          rfl
        exact ⟨Nat.lt_of_le_of_lt (Nat.le_of_eq hposition) (by decide), fun _ => hposition⟩
      · rw [hnone] at hr
        exact absurd hr List.not_mem_nil
  | @packet env k o m s s' _ hcfg hdata hsame hrun ih =>
      subst hcfg
      obtain ⟨_, s₁, hrun₁, hends⟩ := escFoeprocess_ends (k := k) (ih.receive m hsame) hdata
      obtain ⟨-, rfl⟩ := Outcome.ok.inj (hrun.symm.trans hrun₁)
      exact hends.after

/-- **The FoE server says what became of a packet exactly if it stays stored once it is written, and
can else be refused and is not one of the two whose failure is lost.** -/
theorem foe_reports_iff {cfg : FoeCfg σ} {record : WriteRecord cfg}
    (h : FileTransfer cfg record i f s) {env : FoeEnv σ} (hcfg : env.cfg = cfg) (k : ℕ) {o : σ}
    {m : Mailbox} (hdata : m.IsData) (hsame : record.results o = record.results s.outside) :
    ∃ s', escFoeprocess env k ⟨o, m, s.foe⟩ = .ok () s' ∧
      (ReportsPacket env.opts record ⟨o, m, s.foe⟩ s' ↔
        FoeMem.Answerable ⟨o, m, s.foe⟩ env i f) := by
  subst hcfg
  obtain ⟨_, s', hrun, hends⟩ :=
    escFoeprocess_ends (k := k) (h.transferring.receive m hsame) hdata
  exact ⟨s', hrun, hends.reports⟩

/-! ## Files that can be written, and cannot -/

/-- A file of up to 70000 bytes, whose write function always gives the same result; the calls are on
record. -/
def recordedFile (result : Dword) : FoeFile (List Dword × List Byte) where
  name := [0x66]
  maxData := 70000
  filepass := 0
  writeOnlyInBoot := false
  writeFunction o _ buffer length := ((result :: o.1, o.2 ++ buffer.bytes 0 length), result)

/-- What the FoE code is given: that file, and a buffer of two bytes. -/
def recordedEnv (result : Dword) : FoeEnv (List Dword × List Byte) :=
  ⟨exampleOptions, ⟨2, [recordedFile result]⟩, 2⟩

/-- The record of that file. -/
def recordedCalls (result : Dword) : WriteRecord (recordedEnv result).cfg where
  results := Prod.fst
  written := Prod.snd
  results_write f hf o v buffer length := by
    obtain rfl := List.mem_singleton.mp hf
    rfl
  written_write f hf o v buffer length := by
    obtain rfl := List.mem_singleton.mp hf
    rfl

/-- The file is open, and the first packet comes in with a header that gives it this length. -/
def recordedMem (length : Word) : FoeMem (List Dword × List Byte) where
  outside := ([], [])
  mb := largeInbox foeOpData 1 length
  foe := (Device.zeroed () 0 fun _ => 0).foe.opened 0 70000

lemma recordedMem_transfer (result : Dword) (length : Word) :
    FileTransfer (recordedEnv result).cfg (recordedCalls result) 0 (recordedFile result)
      (recordedMem length) :=
  .opened rfl rfl rfl

lemma recordedMem_isData {length : Word} (h : escFoehsize ≤ length.toNat)
    (hfits : length.toNat ≤ 1480) : (recordedMem length).mb.IsData :=
  largeInbox_isData 1 h hfits

lemma recordedMem_expects (length : Word) : (recordedMem length).Expects :=
  ⟨rfl, ByteStore.dword_setDword _⟩

/-- Three bytes end the file: two go to the write function when the buffer is full, and the third
when it is closed. -/
lemma recordedMem_answerable : (recordedMem 9).Answerable (recordedEnv 0) 0 (recordedFile 0) := by
  have hsize : (recordedMem 9).mb.foePacketSize = 3 := by
    show (largeInbox foeOpData 1 9).foePacketSize = 3
    rw [largeInbox_size]
    decide
  have hwhole : (recordedMem 9).WritesWhole (recordedEnv 0).cfg 0 (recordedFile 0) := by
    refine ⟨recordedMem_expects 9, ?_, fun _ => rfl, fun _ _ => rfl⟩
    rw [hsize]
    decide +kernel
  refine (answerable_iff_stays hwhole).mpr ⟨.inl (by decide), fun _ hfull => ?_⟩
  rw [hsize] at hfull
  exact absurd (hfull.trans (largeInbox_dataSize foeOpData 1 9)) (by decide)

/-- So its handling reports what became of it. -/
theorem foe_reports_example : ∃ s', escFoeprocess (recordedEnv 0) 0 (recordedMem 9) = .ok () s' ∧
    ReportsPacket (recordedEnv 0).opts (recordedCalls 0) (recordedMem 9) s' := by
  have hdata : (recordedMem 9).mb.IsData := recordedMem_isData (by decide) (by decide)
  obtain ⟨s', hrun, hiff⟩ := foe_reports_iff (recordedMem_transfer 0 9) rfl 0 hdata rfl
  exact ⟨s', hrun, hiff.mpr recordedMem_answerable⟩

/-- An empty packet ends the transfer, the rest of the file cannot be written, and an ACK says
that it was. -/
theorem failed_flush_acknowledged :
    ∃ s, FileTransfer (recordedEnv 1).cfg (recordedCalls 1) 0 (recordedFile 1) s ∧
      s.mb.IsData ∧ ∃ s', escFoeprocess (recordedEnv 1) 0 s = .ok () s' ∧
        ¬ ReportsPacket (recordedEnv 1).opts (recordedCalls 1) s s' := by
  have hdata : (recordedMem 6).mb.IsData := recordedMem_isData (by decide) (by decide)
  have hempty : (recordedMem 6).mb.foePacketSize = 0 := by
    show (largeInbox foeOpData 1 6).foePacketSize = 0
    rw [largeInbox_size]
    decide
  have htransfer := recordedMem_transfer 1 6
  obtain ⟨_, s', hrun, hends⟩ := escFoeprocess_ends (k := 0) htransfer.transferring hdata
  refine ⟨recordedMem 6, htransfer, hdata, s', hrun, fun hreports => ?_⟩
  -- the write function fails over the rest of the buffer, and the packet is an empty one
  have hnotwhole : ¬ (recordedMem 6).WritesWhole (recordedEnv 1).cfg 0 (recordedFile 1) := by
    rintro ⟨-, -, hflush, -⟩
    exact absurd (hflush hempty) (by decide)
  exact ((hends.reports.mp hreports).2 hnotwhole).2.1 ⟨recordedMem_expects 6, hempty⟩

end Soes
