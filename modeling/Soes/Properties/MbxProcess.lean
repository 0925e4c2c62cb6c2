import Soes.Properties.ProtocolLedger
import Soes.Properties.Traversal

/-!
# What a pass of `ESC_mbxprocess` does to the mailboxes

`ESC_mbxprocess` takes one of three turns: the outbox was read, the master asks for a repeat, or
neither, and then a waiting reply is posted and the inbox is read.  What each does to the mailboxes
is a function of them alone (`Mailbox.outboxRead`, `Mailbox.repeated`, `Mailbox.posted`), but for
the contents of the inbox.
-/

namespace Soes

open Program Mailbox

variable {σ : Type} {sys : System σ} {k : ℕ} {w : World σ}

namespace Mailbox

variable (m : Mailbox)

/-- The old backup is idle. -/
def dropBackup : Mailbox := if m.mbxbackup ≠ 0 then m.setControl m.mbxbackup .idle else m

/-- The buffer that was posted stays as a backup, in the place of the old one. -/
def outboxRead : Mailbox :=
  { (m.dropBackup.setControl m.mbxoutpost .backup) with
    mbxfree := if m.dropBackup.control m.mbxoutpost = .again then false else true
    mbxbackup := m.mbxoutpost
    mbxoutpost := 0 }

/-- The posted buffer is to be sent again after the backup, and the request is acknowledged. -/
def repeated (rep : Bool) : Mailbox :=
  if m.mbxoutpost ≠ 0 ∨ m.mbxbackup ≠ 0 then
    { (if m.mbxoutpost = 0 then m else m.setControl m.mbxoutpost .again) with
      mbxfree := false
      toggle := rep }
  else m

/-- Buffer `n` is posted. -/
def posted (n : ℕ) : Mailbox :=
  { (m.setControl n .outpost) with
    mbxfree := false
    mbxoutpost := n
    txcue := if m.txcue ≠ 0 then m.txcue - 1 else m.txcue }

/-- The inbox was read: it holds a message for the protocols, or the message was dropped, with an
error if its header is invalid. -/
structure Receives (opts : Options) (m m' : Mailbox) : Prop where
  idle : m.control 0 = .idle
  outpost : m.mbxoutpost = 0
  xoe : m.xoe = 0 ∧ m'.xoe = 0
  /-- The message comes in, and an error is queued only for a message that is dropped. -/
  error : ∃ mbx m₁ cnt, Posts opts 1 { m.setControl 0 .inclaim with mbx := mbx } m₁ ∧
    (m₁.control 0 = .idle ∨ Posts opts 0 { m.setControl 0 .inclaim with mbx := mbx } m₁) ∧
    m' = { m₁ with mbxincnt := cnt }

/-- The highest waiting reply is posted if SM1 is known to be free, or nothing is. -/
def Posting (opts : Options) (stat : Bool) (m m' : Mailbox) : Prop :=
  m' = m ∨ ∃ n, escOutreqbuffer opts m = n ∧ n ≠ 0 ∧ m.txcue ≠ 0 ∧ (m.mbxfree ∨ stat = false) ∧
    m' = m.posted n

end Mailbox

/-- The refresh of the status of SM0 and SM1. -/
abbrev mbxRefresh : Stack σ Unit := do
  when ((← get).alEvent &&& (escregAleventSm0 ||| escregAleventSm1) ≠ 0) do
    onBus (escSMstatus 0)
    onBus (escSMstatus 1)

/-! ## The three turns -/

lemma escReadmbx_leaves : wlp sys k escReadmbx (fun _ w' => ∃ mbx,
    w'.mb = { w.mb.setControl 0 .inclaim with mbx := mbx }) w := by
  rw [escReadmbx, wlp_get_bind]
  refine (onBus_keepsMb _ sys k w).bind fun header w₁ h₁ => ?_
  rw [wlp_bind, wlp_modify]
  refine (onBus_keepsMb _ sys k _).bind fun body w₂ h₂ => ?_
  rw [wlp_bind, wlp_modify]
  refine (Keeps.when ((onBus_keepsMb _).bind fun _ => .pure _) sys k _).bind fun _ w₃ h₃ => ?_
  rw [wlp_modify]
  refine ⟨w₃.mb.mbx, ?_⟩
  rw [h₃.mb, h₂.mb, h₁.mb]
  rfl

lemma escWritembx_leaves (n : ℕ) :
    wlp sys k (escWritembx n) (fun _ w' => w'.mb = { w.mb with mbxfree := false }) w := by
  rw [escWritembx, wlp_get_bind]
  refine (onBus_keepsMb _ sys k w).bind fun _ w₁ h₁ => ?_
  refine (Keeps.when (onBus_keepsMb _) sys k w₁).bind fun _ w₂ h₂ => ?_
  rw [wlp_modify]
  change { w₂.mb with mbxfree := false } = _
  rw [h₂.mb, h₁.mb]

lemma escAckmbxread_leaves :
    wlp sys k escAckmbxread (fun _ w' => w'.mb = { w.mb with mbxfree := true }) w := by
  rw [escAckmbxread, wlp_get_bind]
  refine (onBus_keepsMb _ sys k w).bind fun _ w₁ h₁ => ?_
  rw [wlp_modify]
  change { w₁.mb with mbxfree := true } = _
  rw [h₁.mb]

lemma ackRepeat_leaves :
    wlp sys k ackRepeat (fun _ w' => w'.mb = { w.mb with toggle := (w.sm.sm 1).ecrep }) w := by
  rw [ackRepeat, wlp_get_bind, wlp_bind, wlp_modify]
  refine (onBus_keepsMb _ sys k _).bind fun _ w₁ h₁ => ?_
  refine (onBus_keepsMb _ sys k w₁).mono fun _ w₂ h₂ => ?_
  rw [h₂.mb, h₁.mb]

/-- The outbox was read. -/
lemma mbxOutboxRead_leaves :
    wlp sys k mbxOutboxRead (fun _ w' => w'.mb = w.mb.outboxRead) w := by
  refine escAckmbxread_leaves.bind fun _ w₁ h₁ => ?_
  have hdrop : (if w₁.mb.mbxbackup ≠ 0 then w₁.mb.setControl w₁.mb.mbxbackup .idle else w₁.mb) =
      { w.mb.dropBackup with mbxfree := true } := by
    rw [h₁, dropBackup]
    split <;> rfl
  have hposted : w.mb.dropBackup.mbxoutpost = w.mb.mbxoutpost := by
    rw [dropBackup]
    split <;> rfl
  have backup {w₂ : World σ} (h₂ : w₂.mb = { w.mb.dropBackup with
      mbxfree := if w.mb.dropBackup.control w.mb.mbxoutpost = .again then false else true }) :
      { (w₂.mb.setControl w₂.mb.mbxoutpost .backup) with
        mbxbackup := w₂.mb.mbxoutpost, mbxoutpost := 0 } = w.mb.outboxRead := by
    rw [h₂, outboxRead]
    simp only [setControl, hposted]
  rw [wlp_bind, wlp_modify, wlp_bind, wlp_get, hdrop, wlp_bind]
  refine wlp.when (fun hagain => ?_) fun hread => ?_
  · refine (escWritembx_leaves _).mono fun _ w₂ h₂ => ?_
    rw [wlp_bind, wlp_modify, wlp_bind, wlp_get, wlp_pure]
    refine backup (h₂.trans ?_)
    rw [hposted] at hagain
    rw [if_pos hagain]
  · rw [wlp_bind, wlp_modify, wlp_bind, wlp_get, wlp_pure]
    refine backup ?_
    rw [hposted] at hread
    rw [if_neg hread]

/-- The master asks for a repeat. -/
lemma mbxRepeat_leaves :
    wlp sys k mbxRepeat (fun _ w' => ∃ rep, w'.mb = w.mb.repeated rep) w := by
  rw [mbxRepeat, wlp_get_bind, wlp_bind]
  refine wlp.when (fun hsome => ?_) fun hnone => ?_
  · have acknowledge {w₁ : World σ} {m : Mailbox} (h₁ : w₁.mb = { m with mbxfree := false })
        (hm : m = if w.mb.mbxoutpost = 0 then w.mb else w.mb.setControl w.mb.mbxoutpost .again) :
        wlp sys k ackRepeat (fun _ w' => wlp sys k (pure false : Stack σ Bool)
          (fun _ w' => ∃ rep, w'.mb = w.mb.repeated rep) w') w₁ := by
      refine ackRepeat_leaves.mono fun _ w₂ h₂ => (wlp_pure _ _).mpr ⟨(w₁.sm.sm 1).ecrep, ?_⟩
      rw [h₂, h₁, hm, repeated, if_pos hsome]
    refine (wlp_ite _ _ _ _).mpr ⟨fun hfree => ?_, fun hposted => ?_⟩
    · exact (escWritembx_leaves _).bind fun _ w₁ h₁ => acknowledge h₁ (if_pos hfree).symm
    · refine (onBus_keepsMb _ sys k w).bind fun _ w₁ h₁ => ?_
      rw [wlp_bind, wlp_modify]
      refine (onBus_keepsMb _ sys k _).bind fun _ w₂ h₂ => ?_
      refine (escWritembx_leaves _).bind fun _ w₃ h₃ => acknowledge h₃ ?_
      rw [h₂.mb, h₁.mb, if_neg hposted]
  · rw [wlp_pure]
    exact ⟨false, (if_neg hnone).symm⟩

/-- A waiting reply is posted if the outbox seems to be free. -/
lemma mbxPost_leaves :
    wlp sys k mbxPost (fun _ w' => Posting sys.opts (w.sm.sm 1).mbxstat w.mb w'.mb) w := by
  rw [mbxPost, wlp_get_bind]
  refine wlp.when (fun hfree => ?_) fun _ => .inl rfl
  rw [wlp_ask_bind]
  refine wlp.when (fun hn => ?_) fun _ => .inl rfl
  refine (escWritembx_leaves _).bind fun _ w₁ h₁ => ?_
  refine (onBus_keepsMb _ sys k w₁).bind fun _ w₂ h₂ => ?_
  rw [wlp_modify]
  refine .inr ⟨escOutreqbuffer sys.opts w.mb, rfl, hn, hfree.1, ?_, ?_⟩
  · rcases hfree.2 with hmbxfree | hstat
    · exact .inl hmbxfree
    · exact .inr hstat
  · rw [h₂.mb, h₁]
    rfl

/-- The inbox is read if it is full and no transfer is in progress. -/
lemma mbxReceive_leaves :
    wlp sys k mbxReceive (fun _ w' => w'.mb = w.mb ∨ Receives sys.opts w.mb w'.mb) w := by
  rw [mbxReceive, wlp_get_bind]
  refine (wlp_ite _ _ _ _).mpr ⟨fun hfull => ?_, fun _ => (wlp_pure _ _).mpr (.inl rfl)⟩
  obtain ⟨-, hidle, houtpost, hxoe⟩ := hfull
  refine escReadmbx_leaves.bind fun _ w₁ ⟨mbx, h₁⟩ => ?_
  refine (onBus_keepsMb _ sys k w₁).bind fun _ w₂ h₂ => ?_
  have h₀ : w₂.mb = { w.mb.setControl 0 .inclaim with mbx := mbx } := h₂.mb.trans h₁
  rw [wlp_get_bind]
  refine wlp.bind (P := fun _ (w₃ : World σ) => w₃.mb.xoe = 0 ∧ Posts sys.opts 1 w₂.mb w₃.mb ∧
    (w₃.mb.control 0 = .idle ∨ Posts sys.opts 0 w₂.mb w₃.mb)) ?_ fun _ w₃ h₃ => ?_
  · have hxoe₂ : w₂.mb.xoe = 0 := by
      rw [h₀]
      exact hxoe
    refine wlp.when (fun _ => ?_) fun _ => ⟨hxoe₂, (Posts.refl _ _).mono (Nat.zero_le _),
      .inr (Posts.refl _ _)⟩
    rw [wlp_bind, wlp_within]
    refine ((mbxError_posts _).and (mbxError_keepsXoe _ sys.opts k w₂.mb)).mono fun _ m₁ h => ?_
    rw [wlp_modify]
    exact ⟨h.2.trans hxoe₂, h.1.idle, .inl (by simp [setControl])⟩
  · rw [wlp_bind, wlp_modify, wlp_pure]
    obtain ⟨hxoe₃, honce, hdropped⟩ := h₃
    rw [h₀] at honce hdropped
    by_cases hsame : w₃.mb.headerCnt 0 ≠ 0 ∧ w₃.mb.headerCnt 0 = w₃.mb.mbxincnt
    · rw [if_pos hsame]
      exact .inr ⟨hidle, houtpost, ⟨hxoe, hxoe₃⟩, mbx, w₃.mb.setControl 0 .idle, _,
        honce.idle, .inl (by simp [setControl]), rfl⟩
    · rw [if_neg hsame]
      exact .inr ⟨hidle, houtpost, ⟨hxoe, hxoe₃⟩, mbx, w₃.mb, _, honce, hdropped, rfl⟩

/-- A message that is left for the protocols lies in the inbox: one whose header promises more than
the SyncManager carries is dropped. -/
lemma mbxReceive_fits :
    wlp sys k mbxReceive (fun received w' => received = true → w'.mb.control 0 = .inclaim →
      w'.mb.headerLength 0 ≠ 0 ∧
      (w'.mb.headerLength 0).toNat ≤ sub32 w'.mb.activemb0.sml.toNat escMbxhsize) w := by
  unfold mbxReceive
  rw [wlp_get_bind]
  refine (wlp_ite _ _ _ _).mpr ⟨fun _ => ?_, fun _ => (wlp_pure _ _).mpr (by simp)⟩
  -- whatever the reading leaves, the check that follows is made on it
  refine wlp.bind (P := fun _ _ => True) (fun _ _ _ => trivial) fun _ w₁ _ => ?_
  refine wlp.bind (P := fun _ _ => True) (fun _ _ _ => trivial) fun _ w₂ _ => ?_
  rw [wlp_get_bind]
  refine wlp.bind (P := fun _ (w₃ : World σ) => w₃.mb.control 0 = .idle ∨
    w₃.mb.headerLength 0 ≠ 0 ∧
    (w₃.mb.headerLength 0).toNat ≤ sub32 w₃.mb.activemb0.sml.toNat escMbxhsize) ?_ fun _ w₃ h₃ => ?_
  · refine wlp.when (fun _ => ?_) fun hvalid => .inr ?_
    · refine wlp.bind (P := fun _ _ => True) (fun _ _ _ => trivial) fun _ w₃ _ => ?_
      rw [wlp_modify]
      exact .inl (by simp [setControl])
    · rw [not_or, Nat.not_lt] at hvalid
      exact hvalid
  · rw [wlp_bind, wlp_modify, wlp_pure]
    intro _ hinclaim
    by_cases hsame : w₃.mb.headerCnt 0 ≠ 0 ∧ w₃.mb.headerCnt 0 = w₃.mb.mbxincnt
    · rw [if_pos hsame] at hinclaim
      simp [setControl] at hinclaim
    · rw [if_neg hsame] at hinclaim ⊢
      rcases h₃ with hidle | hfits
      · have hkept : w₃.mb.control 0 = .inclaim := hinclaim
        rw [hidle] at hkept
        cases hkept
      · exact hfits

/-- The turns of `ESC_mbxprocess`, from the status of SM1 and whether its event is shown. -/
inductive MbxTurn (opts : Options) (stat event : Bool) (m : Mailbox) : Mailbox → Prop where
  /-- The outbox was read. -/
  | read (houtpost : m.mbxoutpost ≠ 0) (hevent : event = true) :
    MbxTurn opts stat event m m.outboxRead
  /-- The master asks for a repeat. -/
  | again (hevent : m.mbxoutpost ≠ 0 → event = false) (rep : Bool) :
      MbxTurn opts stat event m (m.repeated rep)
  /-- Neither. -/
  | forward (hevent : m.mbxoutpost ≠ 0 → event = false) {m₁ m₂ : Mailbox}
      (hposting : Posting opts stat m m₁) (hreceives : m₂ = m₁ ∨ Receives opts m₁ m₂) :
      MbxTurn opts stat event m m₂

lemma mbxRefresh_keepsMb : KeepsMb (σ := σ) mbxRefresh :=
  .get_bind fun _ => .when ((onBus_keepsMb _).bind fun _ => onBus_keepsMb _)

/-- SM1 is full, as far as the stack knows. -/
def World.outboxStat (w : World σ) : Bool := (w.sm.sm 1).mbxstat

/-- The event of SM1 is shown. -/
def World.outboxEvent (w : World σ) : Bool := decide (w.alEvent &&& escregAleventSm1 ≠ 0)

/-- A pass of `ESC_mbxprocess` takes one of the turns, by what the refresh has brought. -/
lemma escMbxprocess_turn :
    wlp sys k escMbxprocess (fun _ w' => w'.mb = w.mb ∨ w.mb.mbxRun = true ∧
      ∃ w₁, mbxRefresh sys k w = .ok () w₁ ∧
        MbxTurn sys.opts w₁.outboxStat w₁.outboxEvent w.mb w'.mb) w := by
  rw [escMbxprocess, wlp_get_bind]
  refine (wlp_ite _ _ _ _).mpr ⟨fun _ => (wlp_pure _ _).mpr (.inl rfl), fun hrun => ?_⟩
  rw [wlp_get_bind]
  refine wlp.bind (P := fun _ w₁ => mbxRefresh sys k w = .ok () w₁) (fun _ _ hrefresh => hrefresh)
    fun _ w₁ hrefresh => ?_
  have hmb : w₁.mb = w.mb := (mbxRefresh_keepsMb sys k w () w₁ hrefresh).mb
  rw [← hmb, wlp_get_bind]
  have turn {w' : World σ}
      (h : MbxTurn sys.opts w₁.outboxStat w₁.outboxEvent w₁.mb w'.mb) :
      w'.mb = w₁.mb ∨ w₁.mb.mbxRun = true ∧ ∃ w₁', mbxRefresh sys k w = .ok () w₁' ∧
        MbxTurn sys.opts w₁'.outboxStat w₁'.outboxEvent w₁.mb w'.mb := by
    rw [← hmb, Bool.not_eq_false] at hrun
    exact .inr ⟨hrun, w₁, hrefresh, h⟩
  refine (wlp_ite _ _ _ _).mpr ⟨fun hread => ?_, fun hnot => ?_⟩
  · refine mbxOutboxRead_leaves.mono fun _ w' h' => turn ?_
    rw [h']
    exact .read hread.1 (decide_eq_true hread.2)
  have hevent (houtpost : w₁.mb.mbxoutpost ≠ 0) : w₁.outboxEvent = false :=
    decide_eq_false fun hevent => hnot ⟨houtpost, hevent⟩
  refine (wlp_ite _ _ _ _).mpr ⟨fun _ => ?_, fun _ => ?_⟩
  · refine mbxRepeat_leaves.mono fun _ w' ⟨rep, h'⟩ => turn ?_
    rw [h']
    exact .again hevent rep
  · refine mbxPost_leaves.bind fun _ w₂ h₂ => mbxReceive_leaves.mono fun _ w' h' => turn ?_
    exact .forward hevent h₂ h'

/-! ## Initialisation -/

lemma initStop_leaves :
    wlp sys k initStop (fun _ w' => w'.mb = w.mb.stopped sys.opts.mbxBuffers) w := by
  refine (escALstatus_keepsRest _ sys k w).bind fun _ w₁ h₁ => ?_
  refine (escALerror_keepsRest _ sys k w₁).bind fun _ w₂ h₂ => ?_
  refine (escStopmbx_leaves k w₂).bind fun _ w₃ h₃ => ?_
  refine (escStopinput_keepsRest sys k w₃).bind fun _ w₄ h₄ => ?_
  refine (escStopoutput_keepsRest sys k w₄).mono fun _ w₅ h₅ => ?_
  rw [h₅.mb, h₄.mb, h₃.1, h₂.mb, h₁.mb]

lemma wlp_onStack {α : Type} {sys : DeviceSystem σ} {d : Device σ} {m : Stack σ α}
    (hm : KeepsMb m) : wlp sys k (onStack m) (fun _ d' => d'.world.mb = d.world.mb) d :=
  (wlp_within _ _ _ _).mpr ((hm sys.sys k d.world).mono fun _ _ h => h.mb)

/-- `ecat_slv_init` leaves the mailboxes stopped. -/
lemma deviceInit_stopped {sys : DeviceSystem σ} {d : Device σ} (h : Device.Initialised sys d) :
    ∃ outside alEvent bytes,
      d.world.mb = (World.zeroed (σ := σ) outside alEvent bytes).mb.stopped
        sys.sys.opts.mbxBuffers := by
  obtain ⟨n, outside, alEvent, bytes, hrun⟩ := h
  refine ⟨outside, alEvent, bytes, ?_⟩
  refine (?_ : wlp sys n deviceInit (fun r d' => r = true →
    d'.world.mb = (World.zeroed (σ := σ) outside alEvent bytes).mb.stopped sys.sys.opts.mbxBuffers)
    (Device.zeroed outside alEvent bytes)) true d hrun rfl
  rw [deviceInit, wlp_ask_bind]
  refine (wlp_onStack (modifyWd_keepsMb _)).bind fun _ d₁ h₁ => ?_
  refine (wlp_onStack (.transact fun _ _ => ⟨rfl, le_refl _⟩)).bind fun started d₂ h₂ => ?_
  refine (wlp_ite _ _ _ _).mpr ⟨fun _ => (wlp_pure _ _).mpr fun hfail => (by cases hfail),
    fun _ => ?_⟩
  refine (wlp_onStack (waitDlstatus_keepsRest _).keepsMb).bind fun up d₃ h₃ => ?_
  refine (wlp_ite _ _ _ _).mpr ⟨fun _ => ?_, fun _ => (wlp_pure _ _).mpr fun hfail =>
    (by cases hfail)⟩
  refine wlp.bind (P := fun _ d₄ => d₄.world.mb = d₃.world.mb)
    ((wlp_within _ _ _ _).mpr ((wlp_modify _ _).mpr rfl)) fun _ d₄ h₄ => ?_
  have frames : Keeps (SameEoeMb (σ := σ)) eoeInit :=
    eoeInitTx_keepsEoeMb.bind fun _ => eoeInitRx_keepsEoeMb
  refine wlp.bind (P := fun _ d₅ => d₅.world.mb = d₄.world.mb)
    ((wlp_within _ _ _ _).mpr (frames _ _ _)) fun _ d₅ h₅ => ?_
  refine wlp.bind (P := fun _ d₆ => d₆.world.mb = d₅.world.mb.stopped sys.sys.opts.mbxBuffers)
    ((wlp_within _ _ _ _).mpr initStop_leaves) fun _ d₆ h₆ => ?_
  refine (wlp_onStack coeInitDefaultValues_keepsRest.keepsMb).bind fun _ d₇ h₇ => ?_
  refine (wlp_pure _ _).mpr fun _ => ?_
  rw [h₇, h₆, h₅, h₄, h₃, h₂, h₁]
  rfl

end Soes
