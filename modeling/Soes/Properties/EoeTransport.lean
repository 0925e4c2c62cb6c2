import Mathlib.Data.List.Induction
import Soes.Framework.Fragments
import Soes.Properties.SdoReplies
import Soes.Stack.Device

/-!
# Ethernet frames in fragments

`EOE_send_fragment` cuts a frame into blocks of 32 bytes, as many to a mailbox as fit, and the rest
(`eoeCut`).  The first fragment carries the size of the frame in blocks, the others their offset in
blocks; all carry their number and that of the frame, and the last one is marked (`IsFragment`).
`EOE_receive_fragment` puts them together again.

`SendRun` are the fragments of one frame, sent by any number of calls whenever a mailbox is free,
and `ReceiveRun` is the other side, to which they are handed in order.  After every call the state
of either side is known (`Sending`, `Receiving`), so the frame that is delivered is the one that was
sent.  Both sides are then ready for the next one, exactly if the application has given them its
functions for buffers (`eoe_round_trip_iff`): without `free_buffer` the sender keeps the frame, and
sends it again without end as one of no bytes (`sender_not_ready`).
-/

namespace Soes

open Program

variable {σ τ : Type} {env : EoeEnv σ} {k : ℕ} {s s' : EoeMem σ}

/-! ## The fragments of a frame -/

/-- The whole blocks of 32 bytes that fit a mailbox of `room` bytes. -/
def eoeBlock (room : ℕ) : ℕ := (room - (escEoehsize + escMbxhsize)) / 32 * 32

/-- How a frame is cut in mailboxes of `room` bytes that have room for a block. -/
def eoeCut (len room : ℕ) (h : escEoehsize + escMbxhsize + 32 ≤ room) : Cut where
  len := len
  block := eoeBlock room
  room := room - (escEoehsize + escMbxhsize)
  block_pos := by
    simp only [eoeBlock, escEoehsize, escMbxhsize] at h ⊢
    omega
  block_le := by
    rw [eoeBlock]
    omega

/-- The message that carries fragment `j` of the frame `p`, the frame being number `number`. -/
structure IsFragment (c : Cut) (p : ByteStore) (number j : ℕ) (message : ByteStore) : Prop where
  length : (message.word 0).toNat = c.size j + escEoehsize
  info1 : message.word 6 = if j + 1 < c.count then 0 else eoeHdrLastFragment
  /-- The number of the fragment, the size of the frame or the offset, and the number of the
  frame. -/
  info2 : message.word 8 = .ofNat 16 (j % 64 +
    (if 0 < j then c.offset j / 32 else (c.len + 31) / 32) % 64 * 64 + number % 16 * 4096)
  data : message.bytes Mailbox.eoeDataOffset (c.size j) = p.bytes (c.offset j) (c.size j)

/-- The fields of `frameinfo2`. -/
lemma frameinfo2_fields {j blocks number : ℕ} {w : Word} (hj : j < 64) (hblocks : blocks < 64)
    (hw : w = .ofNat 16 (j % 64 + blocks % 64 * 64 + number % 16 * 4096)) :
    (w &&& 0x3F).toNat = j ∧ ((w >>> 6) &&& 0x3F).toNat = blocks ∧
      ((w >>> 12) &&& 0xF).toNat = number % 16 := by
  have hnat : w.toNat = j + blocks * 64 + number % 16 * 4096 := by
    rw [hw, BitVec.toNat_ofNat]
    omega
  refine ⟨?_, ?_, ?_⟩
  · rw [BitVec.toNat_and, hnat, show (0x3F : Word).toNat = 2 ^ 6 - 1 from rfl,
      Nat.and_two_pow_sub_one_eq_mod]
    omega
  · rw [BitVec.toNat_and, BitVec.toNat_ushiftRight, hnat, Nat.shiftRight_eq_div_pow,
      show (0x3F : Word).toNat = 2 ^ 6 - 1 from rfl, Nat.and_two_pow_sub_one_eq_mod]
    omega
  · rw [BitVec.toNat_and, BitVec.toNat_ushiftRight, hnat, Nat.shiftRight_eq_div_pow,
      show (0xF : Word).toNat = 2 ^ 4 - 1 from rfl, Nat.and_two_pow_sub_one_eq_mod]
    omega

section layout

variable {len room : ℕ} {h : escEoehsize + escMbxhsize + 32 ≤ room} {j : ℕ}

/-- A fragment starts at a whole block. -/
lemma eoeCut_offset_mod : (eoeCut len room h).offset j % 32 = 0 := by
  show j * ((room - (escEoehsize + escMbxhsize)) / 32 * 32) % 32 = 0
  rw [← Nat.mul_assoc]
  exact Nat.mul_mod_left ..

/-- `EOE_send_fragment` cuts the frame so. -/
lemma eoeFragmentSize_eq (hlen : len ≤ 2016) (left : ℕ)
    (hleft : left = len - (eoeCut len room h).offset j) :
    eoeFragmentSize room left = (eoeCut len room h).size j := by
  have hle : left ≤ len := by omega
  have hroom : (eoeCut len room h).room = room - (escEoehsize + escMbxhsize) := rfl
  have hblock : (eoeCut len room h).block = eoeBlock room := rfl
  have hcut : (eoeCut len room h).len = len := rfl
  rw [eoeFragmentSize, Cut.size, hcut, ← hleft, hroom, hblock, eoeBlock]
  simp only [escEoehsize, escMbxhsize] at h ⊢
  by_cases hmore : room - (4 + 6) < left
  · have hsub : (room + 2 ^ 32 - (4 + 6)) % 2 ^ 32 = room - (4 + 6) := by omega
    rw [if_pos hmore, if_pos (by omega), sub32, hsub]
  · rw [if_neg hmore, if_neg (by omega)]

end layout

/-! ## Sending -/

/-- The sender is ready for a frame. -/
structure Eoe.TxReady (v : Eoe) : Prop where
  payload : v.txebuf.payload = none
  fragment : v.txfragmentno = 0
  offset : v.txframeoffset = 0

/-- The sender has a frame, of which fragment `j` is next. -/
structure Eoe.Sending (v : Eoe) (c : Cut) (p : ByteStore) (number j : ℕ) : Prop where
  payload : v.txebuf.payload = some p
  size : v.txframesize = c.len
  offset : v.txframeoffset = c.offset j
  fragment : v.txfragmentno = j
  /-- The number of the frame, which the first fragment will count up. -/
  number : (if 0 < j then v.frameno else (v.frameno + 1) % 256) = number

/-- The sender has sent the last fragment. -/
structure Eoe.Sent (v : Eoe) (cfg : EoeCfg σ) (p : ByteStore) : Prop where
  fragment : v.txfragmentno = 0
  size : v.txframesize = 0
  offset : v.txframeoffset = 0
  /-- The frame is given back, if there is a function for it. -/
  payload : v.txebuf.payload = if cfg.freeBuffer.isSome then none else some p

lemma Mailbox.message_putEoe (m : Mailbox) (n length : ℕ) (info1 info2 : Word) :
    (m.putEoe n length info1 info2).message n =
      ((((m.message n).setWord 0 (.ofNat 16 length)).set 5
        ((m.message n 5 &&& 0xf0) ||| mbxeoe)).setWord 6 info1).setWord 8 info2 := by
  simp only [message, putEoe, setHeader, updateMbx, buffer, ByteStore.shift_set,
    ByteStore.shift_setWord, ByteStore.shift_setWord_start]
  rfl

open ByteStore in
/-- The message with a fragment. -/
lemma isFragment_message {c : Cut} {p b : ByteStore} {number j : ℕ} {type : Byte}
    {info1 info2 : Word} (hsize : c.size j < 2 ^ 15)
    (hinfo1 : info1 = if j + 1 < c.count then 0 else eoeHdrLastFragment)
    (hinfo2 : info2 = .ofNat 16 (j % 64 +
      (if 0 < j then c.offset j / 32 else (c.len + 31) / 32) % 64 * 64 + number % 16 * 4096)) :
    IsFragment c p number j (((((b.setWord 0 (.ofNat 16 (c.size j + escEoehsize))).set 5
      type).setWord 6 info1).setWord 8 info2).copy Mailbox.eoeDataOffset (c.size j) p
        (c.offset j)) := by
  constructor
  · rw [word_copy_of_disjoint (.inr (by decide))]
    simp (disch := omega) only [word_setWord_of_disjoint, word_set_of_disjoint, word_setWord,
      BitVec.toNat_ofNat]
    simp only [escEoehsize]
    omega
  · rw [word_copy_of_disjoint (.inr (by decide))]
    simp (disch := omega) only [word_setWord_of_disjoint, word_setWord]
    exact hinfo1
  · rw [word_copy_of_disjoint (.inr (by decide)), word_setWord]
    exact hinfo2
  · exact bytes_copy ..

section send

variable {len room : ℕ} {h : escEoehsize + escMbxhsize + 32 ≤ room} {p : ByteStore} {number j n : ℕ}

lemma wp_eoeModifyMb (f : Mailbox → Mailbox) (Q : Unit → EoeMem σ → Prop) :
    wp env k (eoeModifyMb f) Q s ↔ Q () { s with mb := f s.mb } := wp_modify _ _

lemma wp_eoeModify (f : Eoe → Eoe) (Q : Unit → EoeMem σ → Prop) :
    wp env k (eoeModify f) Q s ↔ Q () { s with eoe := f s.eoe } := wp_modify _ _

/-- `EOE_init_tx`. -/
lemma wp_eoeInitTx {Q : Unit → EoeMem σ → Prop} (hpayload : s.eoe.txebuf.payload = some p)
    (hQ : ∀ outside v, v.Sent env.cfg p → Q () ⟨outside, s.mb, v⟩) :
    wp env k eoeInitTx Q s := by
  rw [eoeInitTx, wp_bind, wp_eoeModify, wp_ask_bind]
  cases hfree : env.cfg.freeBuffer with
  | none =>
      rw [wp_pure]
      refine hQ s.outside _ ⟨rfl, rfl, rfl, ?_⟩
      rw [hfree]
      exact hpayload
  | some call =>
      have hsome : s.eoe.txebuf.payload.isSome = true := by
        rw [hpayload]
        rfl
      dsimp only
      rw [wp_get_bind, when, if_pos (by exact hsome), wp_modify]
      refine hQ _ _ ⟨rfl, rfl, rfl, ?_⟩
      rw [hfree]
      rfl

/-- The application is told that a fragment is on its way. -/
lemma wp_fragmentSentEvent {Q : Unit → EoeMem σ → Prop} (hQ : ∀ o, Q () { s with outside := o }) :
    wp env k (match env.cfg.fragmentSentEvent with
      | none => pure ()
      | some call => modify fun s => { s with outside := call s.outside } : OnEoe σ Unit) Q s := by
  cases env.cfg.fragmentSentEvent with
  | none => exact (wp_pure _ _).mpr (hQ s.outside)
  | some call => exact (wp_modify _ _).mpr (hQ _)

/-- One fragment is put into its buffer. -/
lemma eoePutFragment_puts (hs : s.eoe.Sending (eoeCut len room h) p number j)
    (hroom : s.mb.activembxsize = room) (hlen : len ≤ 2016)
    (hj : j < (eoeCut len room h).count) (hcount : (eoeCut len room h).count ≤ 63) :
    wp env k (eoePutFragment n) (fun _ s' => s'.mb.activembxsize = room ∧
      (∀ i, s'.mb.control i = if i = n then .outreq else s.mb.control i) ∧
      IsFragment (eoeCut len room h) p number j (s'.mb.message n) ∧
      if j + 1 < (eoeCut len room h).count then
        s'.eoe.Sending (eoeCut len room h) p number (j + 1)
      else s'.eoe.Sent env.cfg p) s := by
  have hcut : (eoeCut len room h).len = len := rfl
  have hoffset := (eoeCut len room h).offset_le hj
  have hend := (eoeCut len room h).offset_add_size_le hj
  rw [hcut] at hoffset hend
  obtain ⟨hpayload, hsize, hstart, hfragment, hnumber⟩ := hs
  have hblock := (eoeCut len room h).block_le
  have hleft : sub32 s.eoe.txframesize s.eoe.txframeoffset =
      len - (eoeCut len room h).offset j := by
    rw [hsize, hstart, hcut, sub32]
    omega
  have hpart : eoeFragmentSize s.mb.activembxsize (sub32 s.eoe.txframesize s.eoe.txframeoffset) =
      (eoeCut len room h).size j := by
    rw [hroom]
    exact eoeFragmentSize_eq hlen _ hleft
  have hlast : (eoeCut len room h).size j = len - (eoeCut len room h).offset j ↔
      ¬ j + 1 < (eoeCut len room h).count := by
    constructor
    · intro hsame hmore
      have hleftover := (eoeCut len room h).more_iff.mp hmore
      rw [(eoeCut len room h).size_of_more hmore] at hsame
      rw [hcut] at hleftover
      omega
    · exact fun hend => (eoeCut len room h).size_of_last hend
  generalize eoeCut len room h = c at *
  rw [eoePutFragment, wp_ask_bind, wp_bind, wp_eoeModify]
  generalize hv : ({ s.eoe with
    frameno := if 0 < s.eoe.txfragmentno then s.eoe.frameno else (s.eoe.frameno + 1) % 256 } :
      Eoe) = v
  have hkept : v.txebuf = s.eoe.txebuf ∧ v.txframesize = s.eoe.txframesize ∧
      v.txframeoffset = s.eoe.txframeoffset ∧ v.txfragmentno = s.eoe.txfragmentno ∧
      v.frameno = number := by
    rw [← hv, ← hnumber, hfragment]
    exact ⟨rfl, rfl, rfl, rfl, rfl⟩
  obtain ⟨hbuf, hsize', hstart', hfragment', hnumber'⟩ := hkept
  have hinfo2 : v.frameinfo2 = .ofNat 16 (j % 64 +
      (if 0 < j then c.offset j / 32 else (c.len + 31) / 32) % 64 * 64 + number % 16 * 4096) := by
    rw [Eoe.frameinfo2, hsize', hstart', hfragment', hnumber', hsize, hstart, hfragment,
      Nat.mod_eq_of_lt (show c.len + 31 < 2 ^ 32 by omega)]
  rw [wp_get_bind]
  dsimp only
  rw [hsize', hstart', hpart, hleft, hbuf, hpayload, hstart,
    if_neg (fun hnone : (some p).isNone = true ∧ _ => Bool.false_ne_true hnone.1), wp_bind,
    wp_eoeModifyMb]
  have hsize15 : c.size j < 2 ^ 15 := by omega
  have hinfo1 : (if c.size j = len - c.offset j then eoeHdrLastFragment else 0 : Word) =
      if j + 1 < c.count then 0 else eoeHdrLastFragment := by
    by_cases hmore : j + 1 < c.count
    · rw [if_pos hmore, if_neg fun hsame => hlast.mp hsame hmore]
    · rw [if_neg hmore, if_pos (hlast.mpr hmore)]
  have hmessage := @isFragment_message c p (s.mb.message n) number j
    ((s.mb.message n 5 &&& 0xf0) ||| mbxeoe) _ _ hsize15 hinfo1 hinfo2
  rw [← Mailbox.message_putEoe] at hmessage
  generalize hput : s.mb.putEoe n (c.size j + escEoehsize)
    (if c.size j = len - c.offset j then eoeHdrLastFragment else 0) v.frameinfo2 = m at hmessage ⊢
  have hm : m.activembxsize = room ∧ m.control = s.mb.control := by
    rw [← hput]
    exact ⟨hroom, rfl⟩
  have hfinal : IsFragment c p number j (((m.updateMbx fun mbx => mbx.copy (m.buffer n +
      Mailbox.eoeDataOffset) (c.size j) p (c.offset j)).setControl n .outreq).message n) := by
    rw [show ((m.updateMbx fun mbx => mbx.copy (m.buffer n + Mailbox.eoeDataOffset) (c.size j) p
      (c.offset j)).setControl n .outreq).message n = _ from
        Mailbox.message_load n Mailbox.eoeDataOffset (c.size j) p (c.offset j)]
    exact hmessage
  refine (wp_ite _ _ _ _).mpr ⟨fun hsame => ?_, fun hdiffer => ?_⟩
  · rw [wp_bind]
    refine wp_eoeInitTx (by rw [hbuf]; exact hpayload) fun outside v' hsent => ?_
    refine wp_fragmentSentEvent fun o => ⟨hm.1, fun i => ?_, hfinal, ?_⟩
    · rw [← hm.2]
      rfl
    · rw [if_neg (hlast.mp hsame)]
      exact hsent
  · have hmore : j + 1 < c.count := not_not.mp fun hend => hdiffer (hlast.mpr hend)
    have hnext := c.offset_succ hmore
    rw [wp_bind, wp_eoeModify]
    refine wp_fragmentSentEvent fun o => ⟨hm.1, fun i => ?_, hfinal, ?_⟩
    · rw [← hm.2]
      rfl
    · rw [if_pos hmore]
      constructor
      · show v.txebuf.payload = some p
        rw [hbuf, hpayload]
      · show v.txframesize = c.len
        rw [hsize', hsize]
      · show (v.txframeoffset + c.size j) % 2 ^ 32 = c.offset (j + 1)
        rw [hstart', hstart, hnext]
        omega
      · show (v.txfragmentno + 1) % 256 = j + 1
        rw [hfragment', hfragment]
        omega
      · rw [if_pos (Nat.succ_pos j)]
        exact hnumber'

/-- What a call did with fragment `j`: it was sent, or no mailbox was free. -/
def SentOrWaits (env : EoeEnv σ) (c : Cut) (p : ByteStore) (number j : ℕ) (m : Mailbox)
    (s' : EoeMem σ) : Prop :=
  (¬ m.ReplyIdle env.opts ∧ s'.mb = m ∧ s'.eoe.Sending c p number j) ∨
    ∃ n, m.IdleBuffer env.opts n ∧
      (∀ i, s'.mb.control i = if i = n then .outreq else m.control i) ∧
      IsFragment c p number j (s'.mb.message n) ∧
      if j + 1 < c.count then s'.eoe.Sending c p number (j + 1) else s'.eoe.Sent env.cfg p

variable (hroom : s.mb.activembxsize = room) (hlen : len ≤ 2016)
  (hcount : (eoeCut len room h).count ≤ 63)
include hroom hlen hcount

/-- The fragment is sent if a mailbox is free. -/
lemma claim_puts (hs : s.eoe.Sending (eoeCut len room h) p number j)
    (hj : j < (eoeCut len room h).count) :
    wp env k (do
      let n ← onEoeMb escClaimbuffer
      when (n ≠ 0) (eoePutFragment n)) (fun _ s' => s'.mb.activembxsize = room ∧
        SentOrWaits env (eoeCut len room h) p number j s.mb s') s := by
  rw [wp_bind, wp_within]
  refine wp_escClaimbuffer.mono fun n m' hthen => ?_
  obtain ⟨hn, hm'⟩ := hthen
  change n = scanBuffers s.mb.control .idle (env.opts.mbxBuffers - 1) at hn
  by_cases hnone : n = 0
  · rw [when, if_neg (not_not.mpr hnone), wp_pure, hm', if_pos hnone]
    refine ⟨hroom, .inl ⟨fun hidle => ?_, rfl, hs⟩⟩
    exact (replyIdle_iff env.opts s.mb).mp hidle (hn.symm.trans hnone)
  · have hscan : scanBuffers s.mb.control .idle (env.opts.mbxBuffers - 1) ≠ 0 := hn ▸ hnone
    have hfound := scanBuffers_found hscan
    rw [← hn] at hfound
    have hidle : s.mb.IdleBuffer env.opts n := ⟨Nat.pos_of_ne_zero hnone, by omega, hfound.2⟩
    rw [when, if_pos hnone, hm', if_neg hnone]
    have hput : wp env k (eoePutFragment n) _ ⟨s.outside, s.mb.claim n, s.eoe⟩ :=
      eoePutFragment_puts hs (by exact hroom) hlen hj hcount
    refine hput.mono fun _ s' hthen => ?_
    obtain ⟨hsize, hcontrol, hmessage, hnext⟩ := hthen
    refine ⟨hsize, .inr ⟨n, hidle, fun i => ?_, hmessage, hnext⟩⟩
    rw [hcontrol i]
    by_cases hi : i = n
    · rw [if_pos hi, if_pos hi]
    · rw [if_neg hi, if_neg hi]
      exact if_neg hi

/-- The next call sends the next fragment. -/
lemma eoeSendFragment_next (hs : s.eoe.Sending (eoeCut len room h) p number j)
    (hj : j < (eoeCut len room h).count) :
    wp env k eoeSendFragment (fun _ s' => s'.mb.activembxsize = room ∧
      SentOrWaits env (eoeCut len room h) p number j s.mb s') s := by
  rw [eoeSendFragment, wp_bind, eoeFetchFrame, wp_ask_bind, wp_get_bind, hs.payload,
    if_pos (show (some p).isSome = true from rfl), wp_pure, if_pos rfl]
  exact claim_puts hroom hlen hcount hs hj

/-- The application hands out a frame. -/
def Hands (cfg : EoeCfg σ) (s : EoeMem σ) (len : ℕ) (p : ByteStore) : Prop :=
  ∃ outside buf, cfg.fetchSendBuffer s.outside s.eoe.txebuf = (outside, buf, (len : ℤ)) ∧
    buf.payload = some p

/-- The first call fetches a frame, and sends the first fragment. -/
lemma eoeSendFragment_first (hready : s.eoe.TxReady) (hhands : Hands env.cfg s len p)
    (hpos : 0 < len) :
    wp env k eoeSendFragment (fun _ s' => s'.mb.activembxsize = room ∧
      SentOrWaits env (eoeCut len room h) p ((s.eoe.frameno + 1) % 256) 0 s.mb s') s := by
  obtain ⟨outside, buf, hfetch, hpayload⟩ := hhands
  have hnone : ¬ (s.eoe.txebuf.payload.isSome : Prop) := by
    rw [hready.payload]
    exact Bool.false_ne_true
  have hsize : ((len : ℤ) % 2 ^ 32).toNat = len := by omega
  rw [eoeSendFragment, wp_bind, eoeFetchFrame, wp_ask_bind, wp_get_bind, if_neg hnone, wp_bind,
    wp_transact, hfetch]
  dsimp only
  have hsome : 0 < (len : ℤ) := by omega
  rw [wp_bind, when, if_pos hsome, wp_eoeModify, wp_pure, decide_eq_true hsome, if_pos rfl, hsize]
  refine claim_puts (s := ⟨outside, s.mb, _⟩) hroom hlen hcount ?_ (Cut.count_pos _)
  refine ⟨hpayload, rfl, ?_, hready.fragment, if_neg (Nat.lt_irrefl 0)⟩
  rw [Cut.offset_zero]
  exact hready.offset

end send

/-- A call of `EOE_send_fragment`, with the messages that it queues. -/
structure SendCall (env : EoeEnv σ) (s s' : EoeMem σ) (sent : List ByteStore) : Prop where
  pass : ∃ k, eoeSendFragment env k s = .ok () s'
  /-- The messages: that in the buffer that was idle and is queued, if there is one. -/
  sent : (∃ n, s.mb.IdleBuffer env.opts n ∧ s'.mb.control n = .outreq ∧
      sent = [s'.mb.message n]) ∨
    ((∀ n, s.mb.IdleBuffer env.opts n → s'.mb.control n ≠ .outreq) ∧ sent = [])

/-- Between two calls the sender stays as it is. -/
structure SameTx (s s' : EoeMem σ) : Prop where
  buffer : s'.eoe.txebuf = s.eoe.txebuf
  fragment : s'.eoe.txfragmentno = s.eoe.txfragmentno
  size : s'.eoe.txframesize = s.eoe.txframesize
  offset : s'.eoe.txframeoffset = s.eoe.txframeoffset
  number : s'.eoe.frameno = s.eoe.frameno
  room : s'.mb.activembxsize = s.mb.activembxsize

/-- A frame is being sent: after any number of calls, these are the messages that were queued
for it. -/
inductive SendRun (env : EoeEnv σ) (len room : ℕ) (h : escEoehsize + escMbxhsize + 32 ≤ room)
    (p : ByteStore) : List ByteStore → EoeMem σ → Prop where
  /-- The call that fetches the frame. -/
  | first {s s' : EoeMem σ} {sent : List ByteStore} (ready : s.eoe.TxReady)
      (hands : Hands env.cfg s len p) (size : s.mb.activembxsize = room)
      (call : SendCall env s s' sent) : SendRun env len room h p sent s'
  /-- A call for one of its fragments. -/
  | next {s₀ s s' : EoeMem σ} {messages sent : List ByteStore}
      (run : SendRun env len room h p messages s₀)
      (more : messages.length < (eoeCut len room h).count) (same : SameTx s₀ s)
      (call : SendCall env s s' sent) : SendRun env len room h p (messages ++ sent) s'

section run

variable {len room : ℕ} {h : escEoehsize + escMbxhsize + 32 ≤ room} {p : ByteStore} {number j : ℕ}
  {c : Cut} {messages sent : List ByteStore}

/-- A call queues the next fragment, or nothing. -/
lemma SendCall.queues (hcall : SendCall env s s' sent)
    (hsent : SentOrWaits env c p number j s.mb s') :
    (sent = [] ∧ s'.eoe.Sending c p number j) ∨
      ∃ message, sent = [message] ∧ IsFragment c p number j message ∧
        if j + 1 < c.count then s'.eoe.Sending c p number (j + 1) else s'.eoe.Sent env.cfg p := by
  rcases hsent with ⟨-, hkept, hsending⟩ | ⟨n, hidle, hcontrol, hmessage, hnext⟩
  · rcases hcall.sent with ⟨n, hidle, hout, -⟩ | ⟨-, hnone⟩
    · rw [hkept, hidle.2.2] at hout
      cases hout
    · exact .inl ⟨hnone, hsending⟩
  · refine .inr ?_
    rcases hcall.sent with ⟨n', hidle', hout, hsome⟩ | ⟨hnone, -⟩
    · have hsame : n' = n := by
        by_contra hne
        rw [hcontrol n', if_neg hne, hidle'.2.2] at hout
        cases hout
      rw [hsame] at hsome
      exact ⟨_, hsome, hmessage, hnext⟩
    · exact (hnone n hidle (by rw [hcontrol n, if_pos rfl])).elim

lemma Eoe.Sending.of_same {s₀ : EoeMem σ} (hs : s₀.eoe.Sending c p number j) (same : SameTx s₀ s) :
    s.eoe.Sending c p number j :=
  ⟨same.buffer ▸ hs.payload, same.size ▸ hs.size, same.offset ▸ hs.offset,
    same.fragment ▸ hs.fragment, same.number ▸ hs.number⟩

/-- The state of the sender once these messages have been queued. -/
structure SentSoFar (env : EoeEnv σ) (c : Cut) (room : ℕ) (p : ByteStore) (number : ℕ)
    (messages : List ByteStore) (s : EoeMem σ) : Prop where
  fragments : ∀ i message, messages[i]? = some message → IsFragment c p number i message
  le : messages.length ≤ c.count
  room : s.mb.activembxsize = room
  /-- The next fragment is awaited, or the frame is complete. -/
  state : if messages.length < c.count then s.eoe.Sending c p number messages.length
    else s.eoe.Sent env.cfg p

lemma SentSoFar.extend (hmessages : ∀ i message, messages[i]? = some message →
      IsFragment c p number i message) (hlt : messages.length < c.count)
    (hroom : s'.mb.activembxsize = room)
    (hqueued : (sent = [] ∧ s'.eoe.Sending c p number messages.length) ∨
      ∃ message, sent = [message] ∧ IsFragment c p number messages.length message ∧
        if messages.length + 1 < c.count then s'.eoe.Sending c p number (messages.length + 1)
        else s'.eoe.Sent env.cfg p) :
    SentSoFar env c room p number (messages ++ sent) s' := by
  rcases hqueued with ⟨rfl, hsending⟩ | ⟨message, rfl, hfragment, hstate⟩
  · rw [List.append_nil]
    refine ⟨hmessages, Nat.le_of_lt hlt, hroom, ?_⟩
    rw [if_pos hlt]
    exact hsending
  · have hlength : (messages ++ [message]).length = messages.length + 1 := by simp
    refine ⟨fun i other hother => ?_, by omega, hroom, ?_⟩
    · rcases Nat.lt_trichotomy i messages.length with hbefore | hhere | hbehind
      · rw [List.getElem?_append_left hbefore] at hother
        exact hmessages i other hother
      · rw [hhere, List.getElem?_concat_length] at hother
        rw [hhere, ← Option.some.inj hother]
        exact hfragment
      · rw [List.getElem?_eq_none (by omega)] at hother
        cases hother
    · rw [hlength]
      exact hstate

/-- The messages that are queued are the fragments of the frame, in order. -/
lemma SendRun.fragments (hpos : 0 < len) (hlen : len ≤ 2016)
    (hcount : (eoeCut len room h).count ≤ 63) (run : SendRun env len room h p messages s) :
    ∃ number, SentSoFar env (eoeCut len room h) room p number messages s := by
  induction run with
  | @first s s' sent ready hands size call =>
      obtain ⟨k, hrun⟩ := call.pass
      obtain ⟨hroom, hsent⟩ :=
        (eoeSendFragment_first (k := k) size hlen hcount ready hands hpos).wlp _ s' hrun
      have hextend : SentSoFar env (eoeCut len room h) room p _ ([] ++ sent) s' :=
        .extend (fun i message hnone => by cases hnone) (Cut.count_pos _) hroom (call.queues hsent)
      exact ⟨_, hextend⟩
  | @next s₀ s s' messages sent run more same call ih =>
      obtain ⟨number, hfragments, -, hroom, hstate⟩ := ih
      rw [if_pos more] at hstate
      obtain ⟨k, hrun⟩ := call.pass
      obtain ⟨hroom', hsent⟩ := (eoeSendFragment_next (k := k) (same.room.trans hroom) hlen hcount
        (hstate.of_same same) more).wlp _ s' hrun
      exact ⟨number, .extend hfragments more hroom' (call.queues hsent)⟩

/-- With an idle buffer the fragment is sent. -/
lemma SentOrWaits.sendCall (hidle : s.mb.ReplyIdle env.opts)
    (hrun : eoeSendFragment env k s = .ok () s') (hsent : SentOrWaits env c p number j s.mb s') :
    ∃ message, SendCall env s s' [message] := by
  rcases hsent with ⟨hnone, -⟩ | ⟨n, hn, hcontrol, -⟩
  · exact (hnone hidle).elim
  · refine ⟨_, ⟨k, hrun⟩, .inl ⟨n, hn, ?_, rfl⟩⟩
    rw [hcontrol n, if_pos rfl]

/-- Every call returns, and as mailboxes become free the frame is sent as far as one likes. -/
lemma exists_sendRun (hpos : 0 < len) (hlen : len ≤ 2016)
    (hcount : (eoeCut len room h).count ≤ 63) (hready : s.eoe.TxReady)
    (hhands : Hands env.cfg s len p) (hroom : s.mb.activembxsize = room)
    (hidle : s.mb.ReplyIdle env.opts) {n : ℕ} (hn : n < (eoeCut len room h).count) :
    ∃ messages s', SendRun env len room h p messages s' ∧ messages.length = n + 1 := by
  induction n with
  | zero =>
      obtain ⟨⟨⟩, s', hrun, -, hsent⟩ :=
        eoeSendFragment_first (k := 0) (h := h) hroom hlen hcount hready hhands hpos
      obtain ⟨message, hcall⟩ := hsent.sendCall hidle hrun
      exact ⟨_, s', .first hready hhands hroom hcall, rfl⟩
  | succ n ih =>
      obtain ⟨messages, s₀, run, hlength⟩ := ih (by omega)
      obtain ⟨number, -, -, hroom₀, hstate⟩ := run.fragments hpos hlen hcount
      have hmore : messages.length < (eoeCut len room h).count := by omega
      rw [if_pos hmore] at hstate
      -- the master has read the mailboxes
      have same : SameTx s₀ { s₀ with mb := { s₀.mb with control := fun _ => .idle } } :=
        ⟨rfl, rfl, rfl, rfl, rfl, rfl⟩
      obtain ⟨i, hi, hlt, -⟩ := hidle
      obtain ⟨⟨⟩, s', hrun, -, hsent⟩ := eoeSendFragment_next (k := 0) (same.room.trans hroom₀)
        hlen hcount (hstate.of_same same) hmore
      obtain ⟨message, hcall⟩ := hsent.sendCall ⟨i, hi, hlt, rfl⟩ hrun
      exact ⟨_, s', .next run hmore same hcall, by rw [List.length_append, hlength]; rfl⟩

/-- A frame that is kept is sent again as an empty one: without `free_buffer` the sender is
never ready for another frame. -/
lemma Eoe.Sent.keeps (hs : s.eoe.Sent env.cfg p) (hkeeps : env.cfg.freeBuffer = none)
    (hroom : s.mb.activembxsize = room)
    (h : escEoehsize + escMbxhsize + 32 ≤ room) (hidle : s.mb.ReplyIdle env.opts) :
    wp env k eoeSendFragment (fun _ s' => s'.eoe.Sent env.cfg p ∧ ∃ n, s.mb.IdleBuffer env.opts n ∧
      s'.mb.control n = .outreq ∧
      IsFragment (eoeCut 0 room h) p ((s.eoe.frameno + 1) % 256) 0 (s'.mb.message n)) s := by
  have hpayload := hs.payload
  rw [hkeeps, Option.isSome_none, if_neg Bool.false_ne_true] at hpayload
  have hone : (eoeCut 0 room h).count = 1 := Cut.count_of_fits _ (Nat.zero_le _)
  have hsending : s.eoe.Sending (eoeCut 0 room h) p ((s.eoe.frameno + 1) % 256) 0 := by
    refine ⟨hpayload, hs.size, ?_, hs.fragment, if_neg (Nat.lt_irrefl 0)⟩
    rw [Cut.offset_zero]
    exact hs.offset
  refine (eoeSendFragment_next hroom (Nat.zero_le _) (by omega) hsending (by omega)).mono
    fun _ s' ⟨_, hsent⟩ => ?_
  rcases hsent with ⟨hnone, -⟩ | ⟨n, hn, hcontrol, hfragment, hstate⟩
  · exact (hnone hidle).elim
  · rw [hone, if_neg (Nat.lt_irrefl 1)] at hstate
    exact ⟨hstate, n, hn, by rw [hcontrol n, if_pos rfl], hfragment⟩

end run

/-! ## Receiving -/

/-- The receiver is ready for a frame. -/
structure Eoe.RxReady (v : Eoe) : Prop where
  fragment : v.rxfragmentno = 0
  payload : v.rxebuf.payload.isSome

/-- The receiver has the fragments before fragment `j` of the frame `p`. -/
structure Eoe.Receiving (v : Eoe) (c : Cut) (p : ByteStore) (number j : ℕ) : Prop where
  payload : ∃ q, v.rxebuf.payload = some q ∧ q.bytes 0 (c.offset j) = p.bytes 0 (c.offset j)
  fragment : v.rxfragmentno = j
  size : v.rxframesize = (c.len + 31) / 32 * 32
  offset : v.rxframeoffset = c.offset j
  number : v.rxframeno = number % 16

/-- The inbox holds this message.  What is behind it may be anything. -/
def Carries (m : Mailbox) (message : ByteStore) : Prop :=
  ∀ i < escMbxhsize + (message.word 0).toNat, m.mbx i = message i

section receive

variable {len room : ℕ} {h : escEoehsize + escMbxhsize + 32 ≤ room} {p message : ByteStore}
  {number j : ℕ}

/-- What `EOE_receive_fragment` finds in the inbox. -/
structure ShowsFragment (m : Mailbox) (c : Cut) (p : ByteStore) (number j : ℕ) : Prop where
  size : m.eoeDataSize = c.size j
  /-- Whether it is the last fragment; there is no time stamp, and the port is 0. -/
  info1 : m.frameinfo1 = if j + 1 < c.count then 0 else eoeHdrLastFragment
  fragment : m.eoeFragNo = j
  offset : m.eoeFrameOffset = if 0 < j then c.offset j else (c.len + 31) / 32 * 32
  number : m.eoeFrameNo = number % 16
  data : m.mbx.bytes Mailbox.eoeDataOffset (c.size j) = p.bytes (c.offset j) (c.size j)

/-- The fields of a fragment are what they were made from. -/
lemma Carries.shows {m : Mailbox} (hcarries : Carries m message)
    (hfragment : IsFragment (eoeCut len room h) p number j message) (hlen : len ≤ 2016)
    (hcount : (eoeCut len room h).count ≤ 63) (hj : j < (eoeCut len room h).count) :
    ShowsFragment m (eoeCut len room h) p number j := by
  have hoffset := (eoeCut len room h).offset_le hj
  have hblocks : (eoeCut len room h).offset j % 32 = 0 := eoeCut_offset_mod
  have hsize := (eoeCut len room h).offset_add_size_le hj
  rw [show (eoeCut len room h).len = len from rfl] at hoffset hsize
  obtain ⟨hlength, hinfo1, hinfo2, hdata⟩ := hfragment
  rw [show (eoeCut len room h).len = len from rfl] at hinfo2
  rw [Carries, hlength] at hcarries
  have hbuffer : m.buffer 0 = 0 := Nat.zero_mul _
  have hword (a : ℕ) (ha : a + 2 ≤ escMbxhsize + escEoehsize) : m.mbx.word a = message.word a := by
    rw [ByteStore.word, ByteStore.word, hcarries a (by omega), hcarries (a + 1) (by omega)]
  have hinfo2' : m.frameinfo2 = message.word 8 := hword 8 (by decide)
  have hfit : (if 0 < j then (eoeCut len room h).offset j / 32 else (len + 31) / 32) < 64 := by
    split
    · omega
    · omega
  obtain ⟨hfragno, hframeoffset, hframeno⟩ :=
    @frameinfo2_fields j _ number m.frameinfo2 (by omega) hfit (hinfo2'.trans hinfo2)
  constructor
  · rw [Mailbox.eoeDataSize, Mailbox.headerLength, hbuffer, hword 0 (by decide), hlength, sub32]
    simp only [escEoehsize]
    omega
  · exact (hword 6 (by decide)).trans hinfo1
  · exact hfragno
  · rw [Mailbox.eoeFrameOffset, hframeoffset]
    split
    · omega
    · rfl
  · exact hframeno
  · rw [← hdata]
    refine ByteStore.bytes_congr fun i hi => hcarries _ ?_
    simp only [escMbxhsize, escEoehsize, Mailbox.eoeDataOffset]
    omega

section steps

variable {c : Cut} {m : Mailbox} (hm : ShowsFragment m c p number j)
include hm

/-- The first fragment starts the frame. -/
lemma eoeAcceptFragment_first (hj : j = 0) (hready : s.eoe.RxReady) :
    wp env k (eoeAcceptFragment m) (fun accepted s' => accepted = true ∧ s'.mb = s.mb ∧
      s'.outside = s.outside ∧ s'.eoe.Receiving c p number j) s := by
  obtain ⟨hfragment, hpayload⟩ := hready
  obtain ⟨q, hq⟩ := Option.isSome_iff_exists.mp hpayload
  have hoffset := hm.offset
  rw [hj, if_neg (Nat.lt_irrefl 0)] at hoffset
  rw [eoeAcceptFragment, wp_get_bind, if_pos hfragment, wp_bind, wp_eoeModify, if_pos hpayload,
    wp_bind, wp_eoeModify, wp_pure, hj]
  refine ⟨rfl, rfl, rfl, ⟨q, hq, ?_⟩, hfragment, hoffset, ?_, hm.number⟩
  · rw [Cut.offset_zero]
    rfl
  · exact c.offset_zero.symm

/-- A fragment behind the first one continues the frame. -/
lemma eoeAcceptFragment_more (hj : 0 < j) (hreceiving : s.eoe.Receiving c p number j) :
    wp env k (eoeAcceptFragment m) (fun accepted s' => accepted = true ∧ s' = s) s := by
  have hfragment : ¬ s.eoe.rxfragmentno = 0 := by
    rw [hreceiving.fragment]
    omega
  have hoffset := hm.offset
  rw [if_pos hj] at hoffset
  have hexpected : ¬ (s.eoe.rxframeno ≠ m.eoeFrameNo ∨ s.eoe.rxframeoffset ≠ m.eoeFrameOffset) := by
    rw [hreceiving.number, hreceiving.offset, hm.number, hoffset]
    exact fun h => h.elim (fun h => h rfl) fun h => h rfl
  rw [eoeAcceptFragment, wp_get_bind, if_neg hfragment, if_neg hexpected, wp_pure]
  exact ⟨rfl, rfl⟩

/-- The bytes of a fragment are stored behind those that have come. -/
lemma eoeStoreFragment_stores (hreceiving : s.eoe.Receiving c p number j) (hlen : c.len ≤ 2016)
    (hcount : c.count ≤ 63) (hj : j < c.count) :
    wp env k (eoeStoreFragment m) (fun stored s' => stored = true ∧ s'.mb = s.mb ∧
      s'.outside = s.outside ∧ ∃ q, s'.eoe.rxebuf.payload = some q ∧
        q.bytes 0 (c.offset j + c.size j) = p.bytes 0 (c.offset j + c.size j) ∧
        s'.eoe.rxfragmentno = j + 1 ∧ s'.eoe.rxframesize = (c.len + 31) / 32 * 32 ∧
        s'.eoe.rxframeoffset = c.offset j + c.size j ∧ s'.eoe.rxframeno = number % 16) s := by
  obtain ⟨⟨q, hq, hbytes⟩, hfragment, hsize, hoffset, hnumber⟩ := hreceiving
  have hend := c.offset_add_size_le hj
  have hsum : (s.eoe.rxframeoffset + m.eoeDataSize) % 2 ^ 32 = c.offset j + c.size j := by
    rw [hoffset, hm.size]
    omega
  have hfits : (s.eoe.rxframeoffset + m.eoeDataSize) % 2 ^ 32 ≤ s.eoe.rxframesize := by
    rw [hsum, hsize]
    omega
  rw [eoeStoreFragment, wp_get_bind]
  dsimp only
  rw [if_pos hfits, hq]
  dsimp only
  rw [wp_bind, wp_eoeModify, wp_pure]
  refine ⟨rfl, rfl, rfl, _, rfl, ?_, ?_, hsize, hsum, hnumber⟩
  · rw [ByteStore.bytes_add, ByteStore.bytes_add, hoffset, hm.size,
      ByteStore.bytes_copy_of_outside (by omega), hbytes, Nat.zero_add, ByteStore.bytes_copy,
      hm.data]
  · show (s.eoe.rxfragmentno + 1) % 256 = j + 1
    rw [hfragment]
    omega

end steps

/-- The frames that are handed over are recorded. -/
structure RecordsFrames (cfg : EoeCfg σ) (frames : σ → List (ℕ × List Byte)) : Prop where
  handle : ∀ o port q len,
    frames (cfg.handleRecvBuffer o port ⟨some q, len⟩) = (port, q.bytes 0 len) :: frames o
  get : ∀ call, cfg.getBuffer = some call → ∀ o buf, frames (call o buf).1 = frames o

/-- The application gives a buffer when it is asked. -/
def GivesBuffers (cfg : EoeCfg σ) : Prop :=
  ∀ call, cfg.getBuffer = some call → ∀ o buf, (call o buf).2.payload.isSome

/-- The frame is complete: it is handed over, and a new buffer is asked for. -/
lemma eoeDeliverFrame_delivers {frames : σ → List (ℕ × List Byte)} {m : Mailbox}
    (records : RecordsFrames env.cfg frames) (gives : GivesBuffers env.cfg)
    (hinfo1 : m.frameinfo1 = eoeHdrLastFragment) {q : ByteStore}
    (hpayload : s.eoe.rxebuf.payload = some q) (hoffset : s.eoe.rxframeoffset = len) :
    wp env k (eoeDeliverFrame m) (fun _ s' =>
      frames s'.outside = (0, q.bytes 0 len) :: frames s.outside ∧ s'.eoe.rxfragmentno = 0 ∧
        s'.eoe.rxebuf.payload.isSome = env.cfg.getBuffer.isSome) s := by
  have hport : m.eoePort = 0 := by
    rw [Mailbox.eoePort, hinfo1]
    rfl
  have htime : ¬ m.frameinfo1.getLsbD 9 = true := by
    rw [hinfo1]
    decide
  have hhandled (o : σ) : frames (env.cfg.handleRecvBuffer o 0
      ⟨s.eoe.rxebuf.payload, s.eoe.rxframeoffset⟩) = (0, q.bytes 0 len) :: frames o := by
    rw [hpayload, hoffset]
    exact records.handle o 0 q len
  rw [eoeDeliverFrame, wp_ask_bind, wp_bind, when, if_neg htime, wp_pure, wp_bind, wp_modify,
    eoeInitRx, wp_bind, wp_eoeModify, wp_ask_bind, hport]
  cases hget : env.cfg.getBuffer with
  | none =>
      rw [wp_pure]
      exact ⟨hhandled _, rfl, rfl⟩
  | some call =>
      dsimp only
      rw [wp_get_bind, when, if_pos (by exact rfl), wp_modify]
      exact ⟨(records.get call hget _ _).trans (hhandled _), rfl, gives call hget _ _⟩

/-- The receiver once the first `n` fragments have come, the frames that it had handed over before
being `before`. -/
def HasReceived (cfg : EoeCfg σ) (frames : σ → List (ℕ × List Byte)) (before : List (ℕ × List Byte))
    (c : Cut) (p : ByteStore) (number n : ℕ) (s : EoeMem σ) : Prop :=
  if n < c.count then
    frames s.outside = before ∧
      if 0 < n then s.eoe.Receiving c p number n else s.eoe.RxReady
  else
    frames s.outside = (0, p.bytes 0 c.len) :: before ∧ s.eoe.rxfragmentno = 0 ∧
      s.eoe.rxebuf.payload.isSome = cfg.getBuffer.isSome

/-- The first fragment, or the next one, is accepted. -/
lemma eoeAcceptFragment_accepts {c : Cut} (hm : ShowsFragment s.mb c p number j)
    (hstate : if 0 < j then s.eoe.Receiving c p number j else s.eoe.RxReady) :
    wp env k (eoeAcceptFragment s.mb) (fun accepted s' => accepted = true ∧ s'.mb = s.mb ∧
      s'.outside = s.outside ∧ s'.eoe.Receiving c p number j) s := by
  by_cases hj : 0 < j
  · rw [if_pos hj] at hstate
    refine (eoeAcceptFragment_more hm hj hstate).mono fun accepted s' ⟨haccepted, hsame⟩ => ?_
    rw [hsame]
    exact ⟨haccepted, rfl, rfl, hstate⟩
  · rw [if_neg hj] at hstate
    exact eoeAcceptFragment_first hm (Nat.eq_zero_of_not_pos hj) hstate

/-- The next fragment is taken: it is stored, and the last one completes the frame. -/
lemma eoeReceiveFragment_takes {frames : σ → List (ℕ × List Byte)}
    {before : List (ℕ × List Byte)} {c : Cut} (records : RecordsFrames env.cfg frames)
    (gives : GivesBuffers env.cfg) (hlen : c.len ≤ 2016) (hcount : c.count ≤ 63)
    (hm : ShowsFragment s.mb c p number j) (hj : j < c.count)
    (hstate : HasReceived env.cfg frames before c p number j s) :
    wp env k eoeReceiveFragment
      (fun _ s' => HasReceived env.cfg frames before c p number (j + 1) s') s := by
  rw [HasReceived, if_pos hj] at hstate
  obtain ⟨hframes, hstate⟩ := hstate
  have hexpected : s.eoe.rxfragmentno = s.mb.eoeFragNo := by
    rw [hm.fragment]
    by_cases hpos : 0 < j
    · rw [if_pos hpos] at hstate
      exact hstate.fragment
    · rw [if_neg hpos] at hstate
      rw [hstate.fragment]
      omega
  rw [eoeReceiveFragment, wp_get_bind, wp_get_bind, wp_bind, when,
    if_neg fun h => h.1 hexpected, wp_pure, when, if_pos (.inl hexpected), wp_bind]
  refine (eoeAcceptFragment_accepts hm hstate).mono
    fun accepted s₁ hthen => ?_
  obtain ⟨haccepted, hmb₁, houtside₁, hreceiving⟩ := hthen
  rw [if_pos haccepted, wp_bind]
  refine (eoeStoreFragment_stores hm hreceiving hlen hcount hj).mono
    fun stored s₂ hthen => ?_
  obtain ⟨hstored, hmb₂, houtside₂, q, hq, hbytes, hfragment, hsize, hoffset, hnumber⟩ := hthen
  have hframes₂ : frames s₂.outside = before := by
    rw [houtside₂, houtside₁]
    exact hframes
  rw [if_pos hstored, when, hm.info1]
  by_cases hmore : j + 1 < c.count
  · have hnext := c.offset_succ hmore
    rw [if_pos hmore, if_neg (by decide), wp_pure, HasReceived, if_pos hmore,
      if_pos (Nat.succ_pos j)]
    exact ⟨hframes₂, ⟨q, hq, hnext ▸ hbytes⟩, hfragment, hsize, hnext ▸ hoffset, hnumber⟩
  · have hlast := c.offset_last (show j + 1 = c.count by omega)
    rw [if_neg hmore, if_pos (by decide)]
    have hinfo1 : s.mb.frameinfo1 = eoeHdrLastFragment := by
      rw [hm.info1, if_neg hmore]
    refine (eoeDeliverFrame_delivers records gives hinfo1 hq
      (hoffset.trans hlast)).mono fun _ s₃ hthen => ?_
    obtain ⟨hframes₃, hfragment₃, hpayload₃⟩ := hthen
    rw [HasReceived, if_neg hmore]
    refine ⟨?_, hfragment₃, hpayload₃⟩
    rw [hframes₃, hframes₂, ← hlast, hbytes]

end receive

/-- Between two fragments the receiver stays as it is. -/
structure SameRx (frames : σ → List (ℕ × List Byte)) (s s' : EoeMem σ) : Prop where
  buffer : s'.eoe.rxebuf = s.eoe.rxebuf
  fragment : s'.eoe.rxfragmentno = s.eoe.rxfragmentno
  size : s'.eoe.rxframesize = s.eoe.rxframesize
  offset : s'.eoe.rxframeoffset = s.eoe.rxframeoffset
  number : s'.eoe.rxframeno = s.eoe.rxframeno
  frames : frames s'.outside = frames s.outside

/-- Messages are received, one in the inbox at each call. -/
inductive ReceiveRun (env : EoeEnv σ) (frames : σ → List (ℕ × List Byte)) (r : EoeMem σ) :
    List ByteStore → EoeMem σ → Prop where
  /-- None yet. -/
  | none : ReceiveRun env frames r [] r
  /-- The next one. -/
  | next {r₀ s s' : EoeMem σ} {messages : List ByteStore} {message : ByteStore}
      (run : ReceiveRun env frames r messages r₀) (same : SameRx frames r₀ s)
      (carries : Carries s.mb message) (pass : ∃ k, eoeReceiveFragment env k s = .ok () s') :
      ReceiveRun env frames r (messages ++ [message]) s'

section run

variable {len room : ℕ} {h : escEoehsize + escMbxhsize + 32 ≤ room} {p : ByteStore} {number n : ℕ}
  {c : Cut} {frames : σ → List (ℕ × List Byte)} {before : List (ℕ × List Byte)} {r : EoeMem σ}

lemma HasReceived.of_same {cfg : EoeCfg σ} (hs : HasReceived cfg frames before c p number n s)
    (same : SameRx frames s s') : HasReceived cfg frames before c p number n s' := by
  rw [HasReceived] at hs ⊢
  by_cases hmore : n < c.count
  · rw [if_pos hmore] at hs ⊢
    refine ⟨same.frames.trans hs.1, ?_⟩
    by_cases hpos : 0 < n
    · have hreceiving := hs.2
      rw [if_pos hpos] at hreceiving ⊢
      exact ⟨same.buffer ▸ hreceiving.payload, same.fragment ▸ hreceiving.fragment,
        same.size ▸ hreceiving.size, same.offset ▸ hreceiving.offset,
        same.number ▸ hreceiving.number⟩
    · have hready := hs.2
      rw [if_neg hpos] at hready ⊢
      exact ⟨same.fragment ▸ hready.fragment, same.buffer ▸ hready.payload⟩
  · rw [if_neg hmore] at hs ⊢
    exact ⟨same.frames.trans hs.1, same.fragment.trans hs.2.1, same.buffer ▸ hs.2.2⟩

/-- The fragments of a frame are put together, whatever lies between them. -/
lemma ReceiveRun.received {messages : List ByteStore} (records : RecordsFrames env.cfg frames)
    (gives : GivesBuffers env.cfg) (hlen : len ≤ 2016) (hcount : (eoeCut len room h).count ≤ 63)
    (hready : r.eoe.RxReady) (run : ReceiveRun env frames r messages s)
    (hfragments : ∀ i message, messages[i]? = some message →
      IsFragment (eoeCut len room h) p number i message)
    (hlength : messages.length ≤ (eoeCut len room h).count) :
    HasReceived env.cfg frames (frames r.outside) (eoeCut len room h) p number messages.length
      s := by
  induction run with
  | none =>
      rw [List.length_nil, HasReceived, if_pos (Cut.count_pos _), if_neg (Nat.lt_irrefl 0)]
      exact ⟨rfl, hready⟩
  | @next r₀ s s' messages message run same carries pass ih =>
      rw [List.length_append, List.length_singleton] at hlength ⊢
      have hbefore := ih (fun i message hmessage => hfragments i message (by
        rw [List.getElem?_append_left (List.getElem?_eq_some_iff.mp hmessage).1]
        exact hmessage)) (by omega)
      have hshows := carries.shows (hfragments _ message List.getElem?_concat_length) hlen hcount
        (by omega)
      obtain ⟨k, hrun⟩ := pass
      exact (eoeReceiveFragment_takes (k := k) records gives hlen hcount hshows (by omega)
        (hbefore.of_same same)).wlp _ s' hrun

/-- Every call returns: the fragments of a frame can be handed over one after the other. -/
lemma exists_receiveRun {messages : List ByteStore} (records : RecordsFrames env.cfg frames)
    (gives : GivesBuffers env.cfg) (hlen : len ≤ 2016) (hcount : (eoeCut len room h).count ≤ 63)
    (hready : r.eoe.RxReady)
    (hfragments : ∀ i message, messages[i]? = some message →
      IsFragment (eoeCut len room h) p number i message)
    (hlength : messages.length ≤ (eoeCut len room h).count) :
    ∃ s, ReceiveRun env frames r messages s := by
  induction messages using List.reverseRecOn with
  | nil => exact ⟨r, .none⟩
  | append_singleton messages message ih =>
      rw [List.length_append, List.length_singleton] at hlength
      have hbefore : ∀ i message, messages[i]? = some message →
          IsFragment (eoeCut len room h) p number i message := by
        intro i message hmessage
        refine hfragments i message ?_
        rw [List.getElem?_append_left (List.getElem?_eq_some_iff.mp hmessage).1]
        exact hmessage
      obtain ⟨s₀, run⟩ := ih hbefore (by omega)
      have hreceived := run.received records gives hlen hcount hready hbefore (by omega)
      -- the master writes the message into the inbox
      have same : SameRx frames s₀ { s₀ with mb := { s₀.mb with mbx := message } } :=
        ⟨rfl, rfl, rfl, rfl, rfl, rfl⟩
      have hcarries : Carries { s₀.mb with mbx := message } message := fun _ _ => rfl
      have hshows := hcarries.shows (hfragments _ message List.getElem?_concat_length) hlen hcount
        (by omega)
      obtain ⟨⟨⟩, s', hrun, -⟩ := eoeReceiveFragment_takes (k := 0) records gives hlen hcount
        (by exact hshows) (by omega) (hreceived.of_same same)
      exact ⟨s', .next run same hcarries ⟨0, hrun⟩⟩

end run

/-! ## The round trip -/

section roundtrip

variable {len room : ℕ} {h : escEoehsize + escMbxhsize + 32 ≤ room} {p : ByteStore}

/-- **A frame arrives as it was sent**: with any size and any mailboxes, however the calls of the
sender fall and whatever the receiver does between them, it is handed over once and whole.  Both
sides are ready for the next frame exactly if they have functions for their buffers. -/
theorem eoe_round_trip_iff {tx : EoeEnv σ} {rx : EoeEnv τ} {frames : τ → List (ℕ × List Byte)}
    (records : RecordsFrames rx.cfg frames) (gives : GivesBuffers rx.cfg) (hpos : 0 < len)
    (hlen : len ≤ 2016) (hcount : (eoeCut len room h).count ≤ 63) {messages : List ByteStore}
    {s : EoeMem σ} (sent : SendRun tx len room h p messages s)
    (hall : messages.length = (eoeCut len room h).count) {r r' : EoeMem τ} (hready : r.eoe.RxReady)
    (received : ReceiveRun rx frames r messages r') :
    (frames r'.outside = (0, p.bytes 0 len) :: frames r.outside ∧ s.eoe.TxReady ∧ r'.eoe.RxReady) ↔
      tx.cfg.freeBuffer.isSome ∧ rx.cfg.getBuffer.isSome := by
  obtain ⟨number, hfragments, -, -, hsent⟩ := sent.fragments hpos hlen hcount
  rw [hall, if_neg (Nat.lt_irrefl _)] at hsent
  have hreceived :=
    received.received records gives hlen hcount hready hfragments (Nat.le_of_eq hall)
  rw [hall, HasReceived, if_neg (Nat.lt_irrefl _)] at hreceived
  obtain ⟨hframes, hfragment, hpayload⟩ := hreceived
  constructor
  · rintro ⟨-, htx, hrx⟩
    refine ⟨?_, ?_⟩
    · by_contra hnone
      have hkept := hsent.payload
      rw [if_neg hnone, htx.payload] at hkept
      cases hkept
    · rw [← hpayload]
      exact hrx.payload
  · rintro ⟨hfree, hget⟩
    refine ⟨hframes, ⟨?_, hsent.fragment, hsent.offset⟩, hfragment, ?_⟩
    · rw [hsent.payload, if_pos hfree]
    · rw [hpayload]
      exact hget

end roundtrip

/-! ## One frame of 40 bytes -/

/-- An application that records the frames it receives, sends `frame`, and has functions for its
buffers or not. -/
def ethernetCfg (frame : ByteStore) (buffers : Bool) : EoeCfg (List (ℕ × List Byte)) where
  getBuffer := if buffers then some fun o _ => (o, ⟨some fun _ => 0, 0⟩) else none
  freeBuffer := if buffers then some fun o _ => o else none
  loadEthSettings := none
  storeEthernetSettings := none
  handleRecvBuffer o port buf := (port, (buf.payload.getD fun _ => 0).bytes 0 buf.len) :: o
  fetchSendBuffer o _ := (o, ⟨some frame, 40⟩, 40)
  fragmentSentEvent := none

/-- The application, with the options of the example device. -/
def ethernetEnv (frame : ByteStore) (buffers : Bool) : EoeEnv (List (ℕ × List Byte)) :=
  ⟨exampleOptions, ethernetCfg frame buffers⟩

/-- Before the first frame: the application has given a buffer, and the mailboxes, of 42 bytes, are
idle. -/
def ethernetMem : EoeMem (List (ℕ × List Byte)) :=
  let d := Device.zeroed ([] : List (ℕ × List Byte)) 0 fun _ => 0
  ⟨[], { d.world.mb with activembxsize := 42, control := fun _ => .idle },
    { d.eoe with rxebuf := ⟨some fun _ => 0, 0⟩ }⟩

section ethernet

variable {frame : ByteStore} {buffers : Bool}

/-- It records what it is handed. -/
lemma ethernetCfg_records : RecordsFrames (ethernetCfg frame buffers) id where
  handle _ _ _ _ := rfl
  get call hcall o buf := by
    cases buffers with
    | false => cases hcall
    | true =>
        cases hcall
        rfl

lemma ethernetCfg_gives : GivesBuffers (ethernetCfg frame buffers) := by
  intro call hcall o buf
  cases buffers with
  | false => cases hcall
  | true =>
      cases hcall
      rfl

/-- The frame can be sent and received. -/
lemma exists_ethernetRuns (buffers : Bool) : ∃ messages s r,
    SendRun (ethernetEnv frame buffers) 40 42 (Nat.le_refl _) frame messages s ∧
      messages.length = (eoeCut 40 42 (Nat.le_refl _)).count ∧
      ReceiveRun (ethernetEnv frame true) id ethernetMem messages r := by
  have hhands : Hands (ethernetCfg frame buffers) ethernetMem 40 frame := ⟨_, _, rfl, rfl⟩
  have hidle : ethernetMem.mb.ReplyIdle exampleOptions := ⟨1, by decide, by decide, rfl⟩
  have hroom : ethernetMem.mb.activembxsize = 42 := rfl
  have hready : ethernetMem.eoe.TxReady := ⟨rfl, rfl, rfl⟩
  have hsend : ∃ messages s, SendRun (ethernetEnv frame buffers) 40 42 (Nat.le_refl _) frame
      messages s ∧ messages.length = 1 + 1 := by
    apply exists_sendRun (n := 1) _ _ _ hready hhands hroom hidle
    · decide
    · decide
    · decide
    · decide
  obtain ⟨messages, s, sent, hlength⟩ := hsend
  obtain ⟨number, hfragments, hle, -⟩ := sent.fragments (by decide) (by decide) (by decide)
  have hreceive : ∃ r, ReceiveRun (ethernetEnv frame true) id ethernetMem messages r :=
    exists_receiveRun ethernetCfg_records ethernetCfg_gives (by decide) (by decide) ⟨rfl, rfl⟩
      hfragments hle
  obtain ⟨r, received⟩ := hreceive
  exact ⟨messages, s, r, sent, hlength, received⟩

/-- With functions for the buffers: it arrives, and both sides are ready. -/
theorem eoe_round_trip_example : ∃ messages s r,
    SendRun (ethernetEnv (fun i => .ofNat 8 i) true) 40 42 (Nat.le_refl _) (fun i => .ofNat 8 i)
        messages s ∧
      ReceiveRun (ethernetEnv (fun i => .ofNat 8 i) true) id ethernetMem messages r ∧
        r.outside = [(0, (List.range 40).map (.ofNat 8))] ∧ s.eoe.TxReady ∧ r.eoe.RxReady := by
  obtain ⟨messages, s, r, sent, hall, received⟩ :=
    @exists_ethernetRuns (fun i => .ofNat 8 i) true
  obtain ⟨hframes, htx, hrx⟩ := (eoe_round_trip_iff ethernetCfg_records ethernetCfg_gives
    (by decide) (by decide) (by decide) sent hall ⟨rfl, rfl⟩ received).mpr ⟨rfl, rfl⟩
  exact ⟨messages, s, r, sent, received, hframes, htx, hrx⟩

/-- Without `free_buffer` the sender is never ready for another frame, although this one has
arrived: it keeps the frame. -/
theorem sender_not_ready : ∃ messages s r,
    SendRun (ethernetEnv (fun i => .ofNat 8 i) false) 40 42 (Nat.le_refl _) (fun i => .ofNat 8 i)
        messages s ∧
      messages.length = (eoeCut 40 42 (Nat.le_refl _)).count ∧
      ReceiveRun (ethernetEnv (fun i => .ofNat 8 i) true) id ethernetMem messages r ∧
      r.outside = [(0, (List.range 40).map (.ofNat 8))] ∧ ¬ s.eoe.TxReady := by
  obtain ⟨messages, s, r, sent, hall, received⟩ :=
    @exists_ethernetRuns (fun i => .ofNat 8 i) false
  obtain ⟨number, hfragments, -, -, hsent⟩ := sent.fragments (by decide) (by decide) (by decide)
  rw [hall, if_neg (Nat.lt_irrefl _)] at hsent
  have hreceived := received.received ethernetCfg_records ethernetCfg_gives (by decide)
    (by decide) ⟨rfl, rfl⟩ hfragments (Nat.le_of_eq hall)
  rw [hall, HasReceived, if_neg (Nat.lt_irrefl _)] at hreceived
  refine ⟨messages, s, r, sent, hall, received, hreceived.1, fun hready => ?_⟩
  have hkept := hsent.payload
  rw [hready.payload] at hkept
  cases hkept

end ethernet

end Soes
