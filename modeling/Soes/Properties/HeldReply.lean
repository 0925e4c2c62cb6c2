import Soes.Properties.SdoFinishes
import Soes.Stack.RegisterFile

/-!
# The held reply

A pre-download hook may hold the reply to a download back; the application gives it later by
`ESC_SDO_complete`.  What a completion does is a function of the mailboxes alone
(`Mailbox.completed`), since the buffer for the reply is claimed only then: with an idle buffer
exactly one reply is queued, for the index and subindex that were held, and without one the hold is
dropped and nothing is queued (`held_reply_iff`).
-/

namespace Soes

open Program

variable {σ : Type} {env : CoeEnv σ} {k : ℕ} {c : Coe σ}

/-! ## Replies -/

/-- Buffer `n` holds an SDO message of this service and command, with these fields. -/
structure Mailbox.SdoReply (m : Mailbox) (n : ℕ) (service : Word) (command : Byte) (index : Word)
    (subindex : Byte) (size : Dword) : Prop where
  type : m.mbxtype n = mbxcoe
  length : m.headerLength n = .ofNat 16 coeDefaultlength
  service : m.mbx.word (m.buffer n + 6) = service <<< 12
  command : m.mbx (m.buffer n + 8) = command
  index : m.mbx.word (m.buffer n + 9) = index
  subindex : m.mbx (m.buffer n + 11) = subindex
  size : m.mbx.dword (m.buffer n + Mailbox.sizeOffset) = size

open ByteStore in
/-- A reply is what was put into its buffer. -/
lemma Mailbox.putSdo_reply (m : Mailbox) (n : ℕ) (service : Word) (command : Byte) (index : Word)
    (subindex : Byte) (size : Dword) :
    ((m.putSdo n coeDefaultlength service command index subindex).putSize n size).SdoReply n service
      command index subindex size := by
  have hcoe : ∀ b : Byte, ((b &&& 0xf0) ||| mbxcoe) &&& 0x0f = mbxcoe := by decide
  constructor
  all_goals
    simp (disch := omega) only [mbxtype, headerLength, putSdo, putSize, setHeader, updateMbx,
      buffer, sizeOffset, setDword_of_outside, setWord_of_outside, set_of_ne, set_self,
      word_setDword_of_disjoint, word_setWord_of_disjoint, word_set_of_disjoint, word_setWord,
      dword_setDword, hcoe]

/-- Exactly one reply was queued between these mailboxes: an idle buffer now waits to be posted,
with the reply in it, and no other buffer changed its state. -/
def Mailbox.Answered (opts : Options) (m m' : Mailbox) (service : Word) (command : Byte)
    (index : Word) (subindex : Byte) (size : Dword) : Prop :=
  ∃ n, 0 < n ∧ n < opts.mbxBuffers ∧ m.control n = .idle ∧
    m'.control = (m.setControl n .outreq).control ∧ m'.txcue = m.txcue + 1 ∧
    m'.SdoReply n service command index subindex size

/-- The scan finds a buffer in the state that is wanted. -/
lemma scanBuffers_found {control : ℕ → MbxState} {wanted : MbxState} {n : ℕ}
    (h : scanBuffers control wanted n ≠ 0) :
    scanBuffers control wanted n ≤ n ∧ control (scanBuffers control wanted n) = wanted := by
  induction n with
  | zero => exact (h rfl).elim
  | succ n ih =>
      rw [scanBuffers] at h ⊢
      split
      case isTrue hother =>
        rw [if_pos hother] at h
        exact ⟨Nat.le_succ_of_le (ih h).1, (ih h).2⟩
      case isFalse hfound => exact ⟨Nat.le_refl _, not_not.mp hfound⟩

/-- A buffer is claimed exactly if one is idle. -/
lemma replyIdle_iff (opts : Options) (m : Mailbox) :
    m.ReplyIdle opts ↔ scanBuffers m.control .idle (opts.mbxBuffers - 1) ≠ 0 := by
  constructor
  · rintro ⟨i, hpos, hlt, hi⟩
    exact scanBuffers_ne_zero ⟨i, hpos, by omega, hi⟩
  · intro h
    have hfound := scanBuffers_found h
    exact ⟨_, Nat.pos_of_ne_zero h, by omega, hfound.2⟩

/-! ## Completion -/

/-- The service of the reply that a completion queues: an abort is a request. -/
def completionService (abortcode : Dword) : Word :=
  if abortcode ≠ 0 then coeSdorequest else coeSdoresponse

/-- The command of the reply that a completion queues. -/
def completionCommand (abortcode : Dword) : Byte :=
  if abortcode ≠ 0 then coeCommandSdoabort else coeCommandDownloadresponse

/-- The mailboxes without a hold. -/
def Mailbox.dropHold (m : Mailbox) : Mailbox :=
  { m with sdoHeld := { m.sdoHeld with active := false } }

/-- The mailboxes after a completion. -/
def Mailbox.completed (opts : Options) (m : Mailbox) (abortcode : Dword) : Mailbox :=
  let n := scanBuffers m.control .idle (opts.mbxBuffers - 1)
  if m.sdoHeld.active = false then m
  else if n = 0 then m.dropHold
  else (((m.dropHold.claim n).putSdo n coeDefaultlength (completionService abortcode)
    (completionCommand abortcode) m.sdoHeld.index m.sdoHeld.subindex).putSize n
      abortcode).setControl n .outreq

/-- `ESC_claimbuffer` claims the idle buffer that it finds, if there is one. -/
lemma wp_escClaimbuffer {opts : Options} {m : Mailbox} :
    wp opts k escClaimbuffer (fun n m' =>
      n = scanBuffers m.control .idle (opts.mbxBuffers - 1) ∧
      m' = if n = 0 then m else m.claim n) m := by
  rw [escClaimbuffer, wp_bind, wp_ask, wp_bind, wp_get, wp_bind]
  refine (wp_when _ _ _).mpr ⟨fun h => ?_, fun h => ?_⟩
  · rw [wp_modify, wp_pure, if_neg h]
    exact ⟨rfl, rfl⟩
  · rw [wp_pure, if_pos (not_not.mp h)]
    exact ⟨rfl, rfl⟩

lemma escClaimbuffer_scan :
    wp env k (onMb escClaimbuffer) (fun n c' =>
      n = scanBuffers c.mb.control .idle (env.sys.opts.mbxBuffers - 1) ∧
      c' = if n = 0 then c else { c with mb := c.mb.claim n }) c := by
  rw [wp_within]
  refine wp_escClaimbuffer.mono fun n m' ⟨hn, hm'⟩ => ⟨hn, ?_⟩
  rw [hm']
  split
  · rfl
  · rfl

/-- What a completion does. -/
lemma escSdoComplete_completed (abortcode : Dword) :
    wp env k (escSdoComplete abortcode)
      (fun _ c' => c' = { c with mb := c.mb.completed env.sys.opts abortcode }) c := by
  rw [escSdoComplete, wp_bind, wp_coeMb]
  refine (wp_when _ _ _).mpr ⟨fun hheld => ?_, fun hidle => ?_⟩
  · rw [wp_bind, wp_coeModifyMb]
    have hclaim : wp env k (onMb escClaimbuffer) (fun n c' =>
        n = scanBuffers c.mb.control .idle (env.sys.opts.mbxBuffers - 1) ∧
        c' = if n = 0 then { c with mb := c.mb.dropHold }
          else { c with mb := c.mb.dropHold.claim n }) { c with mb := c.mb.dropHold } :=
      escClaimbuffer_scan
    have hactive : ¬ c.mb.sdoHeld.active = false := by rw [hheld]; decide
    rw [Mailbox.completed, if_neg hactive]
    refine (wp_ite _ _ _ _).mpr ⟨fun habort => ?_, fun hok => ?_⟩
    · rw [sdoAbort, if_neg (not_not.mpr rfl)]
      refine hclaim.bind fun n c₁ ⟨hn, hc₁⟩ => ?_
      rw [completionService, completionCommand, if_pos habort, if_pos habort, hc₁, ← hn]
      refine (wp_when _ _ _).mpr ⟨fun h => ?_, fun h => ?_⟩
      · rw [wp_coeModifyMb, if_neg h, if_neg h]
      · rw [if_pos (not_not.mp h), if_pos (not_not.mp h)]
    · refine hclaim.bind fun n c₁ ⟨hn, hc₁⟩ => ?_
      rw [completionService, completionCommand, if_neg hok, if_neg hok, hc₁, ← hn, not_not.mp hok]
      refine (wp_when _ _ _).mpr ⟨fun h => ?_, fun h => ?_⟩
      · rw [downloadResponse, wp_coeModifyMb, if_neg h, if_neg h]
      · rw [if_pos (not_not.mp h), if_pos (not_not.mp h)]
  · rw [Mailbox.completed, if_pos (Bool.eq_false_iff.mpr hidle)]

/-- A completion keeps the held reply: it queues exactly one reply, for what was held and with
its result, or it leaves the hold as it is. -/
def Mailbox.Settles (opts : Options) (m m' : Mailbox) (abortcode : Dword) : Prop :=
  m.Answered opts m' (completionService abortcode) (completionCommand abortcode) m.sdoHeld.index
    m.sdoHeld.subindex abortcode ∨ m'.sdoHeld = m.sdoHeld

/-- With an idle buffer a completion answers. -/
lemma Mailbox.completed_answers {opts : Options} {m : Mailbox} (hheld : m.sdoHeld.active = true)
    (hidle : m.ReplyIdle opts) (abortcode : Dword) :
    m.Answered opts (m.completed opts abortcode) (completionService abortcode)
      (completionCommand abortcode) m.sdoHeld.index m.sdoHeld.subindex abortcode := by
  have hn := (replyIdle_iff opts m).mp hidle
  have hfound := scanBuffers_found hn
  have hactive : ¬ m.sdoHeld.active = false := by rw [hheld]; decide
  rw [completed, if_neg hactive]
  generalize scanBuffers m.control .idle (opts.mbxBuffers - 1) = n at hn hfound ⊢
  rw [if_neg hn]
  refine ⟨n, Nat.pos_of_ne_zero hn, by omega, hfound.2, ?_, rfl, ?_⟩
  · funext i
    simp only [setControl, putSize, putSdo, setHeader, updateMbx, claim, dropHold]
    split <;> rfl
  · have hreply := (m.dropHold.claim n).putSdo_reply n (completionService abortcode)
      (completionCommand abortcode) m.sdoHeld.index m.sdoHeld.subindex abortcode
    exact ⟨hreply.type, hreply.length, hreply.service, hreply.command, hreply.index,
      hreply.subindex, hreply.size⟩

/-- **A held reply is kept exactly when a buffer is idle.**  The hold is dropped before the buffer
is claimed, in both branches of `ESC_SDO_complete`. -/
theorem held_reply_iff (hheld : c.mb.sdoHeld.active = true) (abortcode : Dword) :
    wp env k (escSdoComplete abortcode)
      (fun _ c' => c.mb.Settles env.sys.opts c'.mb abortcode) c ↔ c.mb.ReplyIdle env.sys.opts := by
  constructor
  · intro h
    obtain ⟨_, c', hrun, hsettles⟩ := h
    obtain ⟨_, c₁, hrun₁, hc₁⟩ := @escSdoComplete_completed _ env k c abortcode
    rw [hrun, Outcome.ok.injEq] at hrun₁
    obtain ⟨-, rfl⟩ := hrun₁
    rcases hsettles with ⟨n, hpos, hlt, hidle, -⟩ | hkept
    · exact ⟨n, hpos, hlt, hidle⟩
    · refine (replyIdle_iff _ _).mpr fun hnone => ?_
      have hactive : ¬ c.mb.sdoHeld.active = false := by rw [hheld]; decide
      rw [hc₁, Mailbox.completed, if_neg hactive] at hkept
      simp only [if_pos hnone] at hkept
      have : false = true := (congrArg SdoHeld.active hkept).trans hheld
      cases this
  · intro hidle
    refine (escSdoComplete_completed abortcode).mono fun _ c' hc' => .inl ?_
    rw [hc']
    exact Mailbox.completed_answers hheld hidle abortcode

/-- A completion of the example device's download, while buffer 1 is idle. -/
theorem held_reply_kept :
    let c : Coe ByteStore := coeOf.get { exampleInbox [] with
      mb := { exampleMailbox [] with sdoHeld := ⟨true, 0x7000, 1⟩ } }
    wp ⟨exampleHolding, 2⟩ 0 (escSdoComplete abortGeneralerror)
      (fun _ c' => c.mb.Settles exampleOptions c'.mb abortGeneralerror) c :=
  (held_reply_iff rfl abortGeneralerror).mpr ⟨1, by decide, by decide, rfl⟩

/-- A download is held while the master fetches two lists: one is posted and one is kept as a
backup, and both reply buffers are taken. -/
def heldWhileListing : List (ℕ × Call ByteStore) :=
  masterRequest 2 0 ++ masterMessage (sdoMessage 0x2f 0x7000 1 [0, 0, 0, 0]) ++
    masterMessage odlistMessage ++ slavePosts ++ masterReads ++ masterMessage odlistMessage ++
    slavePosts

/-- A completion then drops the hold without a reply. -/
theorem held_reply_dropped : ¬ ∀ (sys : System ByteStore) (w : World ByteStore),
    Reached sys (fun _ _ => True) w → w.mb.sdoHeld.active = true → ∀ (abortcode : Dword) (k : ℕ),
      wp ⟨sys, w.al.alStatus⟩ k (escSdoComplete abortcode)
        (fun _ c' => w.mb.Settles sys.opts c'.mb abortcode) (coeOf.get w) := by
  intro h
  have hrun : ((startUp exampleHolding 8 (exampleChip 1 0 0) 0 fun _ => 0).bind
      (runCalls exampleHolding (fun _ _ => True) heldWhileListing)).map
        (fun w => (w.mb.sdoHeld.active, w.mb.control 1, w.mb.control 2)) =
          some (true, .outpost, .backup) := by
    decide +kernel
  obtain ⟨w, hw, hseen⟩ := exists_reached hrun
  obtain ⟨hactive, hbuffers⟩ := Prod.mk.inj hseen
  obtain ⟨h1, h2⟩ := Prod.mk.inj hbuffers
  obtain ⟨n, hpos, hlt, hidle⟩ := (held_reply_iff hactive 0).mp (h exampleHolding w hw hactive 0 0)
  have hn : n = 1 ∨ n = 2 := by
    change n < 3 at hlt
    omega
  rcases hn with rfl | rfl
  · exact absurd (h1.symm.trans hidle) (by decide)
  · exact absurd (h2.symm.trans hidle) (by decide)

end Soes
