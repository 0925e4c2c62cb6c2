import Mathlib.Data.Finset.Card
import Mathlib.Data.Finset.Range
import Soes.Properties.Completions

/-!
# The bookkeeping of the mailboxes

`mbxoutpost`, `mbxbackup` and `txcue` are updated piecemeal beside the states of the buffers.  That
they agree (`Mailbox.Kept`) is an invariant of every run.  One part of it, that no buffer but
`mbxoutpost` is posted (`Mailbox.Sole`), rests on the ESC: a reply is posted when SM1 is known to be
empty, so an ESC that shows SM1 empty without the event of a read would make the stack post over the
reply that is already there (`bookkeeping`).
-/

namespace Soes

open Program Mailbox

variable {σ : Type} {opts : Options} {m m' : Mailbox}

/-! ## The invariant -/

namespace Mailbox

/-- The buffers that hold a reply that was not posted yet. -/
def waiting (opts : Options) (m : Mailbox) : Finset ℕ :=
  (Finset.range opts.mbxBuffers).filter fun n =>
    n ≠ 0 ∧ (m.control n = .outclaim ∨ m.control n = .outreq)

/-- The variables agree with the states of the buffers. -/
structure Kept (opts : Options) (m : Mailbox) : Prop where
  inbox : m.control 0 = .idle ∨ m.control 0 = .inclaim
  reply : ∀ n, n ≠ 0 → m.control n ≠ .inclaim
  outpost : m.mbxoutpost ≠ 0 → m.mbxoutpost < opts.mbxBuffers ∧
    (m.control m.mbxoutpost = .outpost ∨ m.control m.mbxoutpost = .again)
  backup : m.mbxbackup ≠ 0 → m.mbxbackup < opts.mbxBuffers ∧ m.control m.mbxbackup = .backup
  backup_only : ∀ n, m.control n = .backup → n = m.mbxbackup
  range : ∀ n, opts.mbxBuffers ≤ n → m.control n = .idle
  txcue : m.txcue.toNat = (m.waiting opts).card

/-- No buffer but `mbxoutpost` is posted. -/
structure Sole (m : Mailbox) : Prop where
  outpost_only : ∀ n, m.control n = .outpost ∨ m.control n = .again → n = m.mbxoutpost
  /-- While it is not read SM1 does not count as free. -/
  full : m.mbxoutpost ≠ 0 → m.mbxfree = false

lemma card_waiting_lt (opts : Options) (m : Mailbox) : (m.waiting opts).card < 256 := by
  have hsub : m.waiting opts ⊆ (Finset.range opts.mbxBuffers).erase 0 := by
    intro n hn
    obtain ⟨hrange, hne, -⟩ := Finset.mem_filter.mp hn
    exact Finset.mem_erase.mpr ⟨hne, hrange⟩
  have hcard := Finset.card_le_card hsub
  have hmem : 0 ∈ Finset.range opts.mbxBuffers := Finset.mem_range.mpr opts.mbxBuffers_le.1
  rw [Finset.card_erase_of_mem hmem, Finset.card_range] at hcard
  have := opts.mbxBuffers_le
  omega

/-! ## Ledgers -/

/-- What was claimed waits, beside what waited before. -/
lemma Ledger.waiting {held posted : List ℕ} (h : Ledger opts m m' held posted) :
    m'.waiting opts = m.waiting opts ∪ (held ++ posted).toFinset := by
  ext n
  simp only [Mailbox.waiting, Finset.mem_union, Finset.mem_filter, Finset.mem_range,
    List.mem_toFinset]
  by_cases hzero : n = 0
  · subst hzero
    have hnot : (0 : ℕ) ∉ held ++ posted := fun hmem => (h.fresh 0 hmem).1 rfl
    simp [hnot]
  · rw [h.control n hzero]
    by_cases hposted : n ∈ posted
    · have hfresh := h.fresh n (List.mem_append_right _ hposted)
      simp [hposted, hzero, hfresh.2.1]
    · by_cases hheld : n ∈ held
      · have hfresh := h.fresh n (List.mem_append_left _ hheld)
        simp [hposted, hheld, hzero, hfresh.2.1]
      · simp [hposted, hheld, hzero]

/-- What was claimed did not wait before. -/
lemma Ledger.waiting_disjoint {held posted : List ℕ} (h : Ledger opts m m' held posted) :
    Disjoint (m.waiting opts) (held ++ posted).toFinset := by
  rw [Finset.disjoint_left]
  intro n hn hmem
  obtain ⟨-, -, hwaits⟩ := Finset.mem_filter.mp hn
  rw [(h.fresh n (List.mem_toFinset.mp hmem)).2.2] at hwaits
  rcases hwaits with hwaits | hwaits
  · cases hwaits
  · cases hwaits

lemma Ledger.card_waiting {held posted : List ℕ} (h : Ledger opts m m' held posted) :
    (m'.waiting opts).card = (m.waiting opts).card + (held ++ posted).length := by
  rw [h.waiting, Finset.card_union_of_disjoint h.waiting_disjoint,
    List.toFinset_card_of_nodup h.nodup]

/-- A buffer that is in use is not claimed. -/
lemma Ledger.control_of_used {held posted : List ℕ} (h : Ledger opts m m' held posted) {n : ℕ}
    (hn : n ≠ 0) (hused : m.control n ≠ .idle) : m'.control n = m.control n := by
  have hnot : n ∉ held ++ posted := fun hmem => hused (h.fresh n hmem).2.2
  rw [List.mem_append, not_or] at hnot
  rw [h.control n hn, if_neg hnot.2, if_neg hnot.1]

/-- A buffer that was not claimed is as it was. -/
lemma Ledger.control_or {held posted : List ℕ} (h : Ledger opts m m' held posted) {n : ℕ}
    (hn : n ≠ 0) : m'.control n = m.control n ∨
      n < opts.mbxBuffers ∧ (m'.control n = .outclaim ∨ m'.control n = .outreq) := by
  rw [h.control n hn]
  by_cases hposted : n ∈ posted
  · rw [if_pos hposted]
    exact .inr ⟨(h.fresh n (List.mem_append_right _ hposted)).2.1, .inr rfl⟩
  · rw [if_neg hposted]
    by_cases hheld : n ∈ held
    · rw [if_pos hheld]
      exact .inr ⟨(h.fresh n (List.mem_append_left _ hheld)).2.1, .inl rfl⟩
    · rw [if_neg hheld]
      exact .inl rfl

/-- A ledger keeps the books. -/
lemma Kept.ledger {held posted : List ℕ} (h : m.Kept opts)
    (hledger : Ledger opts m m' held posted) :
    m'.Kept opts := by
  obtain ⟨-, -, -, -, -, houtpost, hbackup, -, -⟩ := Fixed.mk.inj hledger.fixed
  constructor
  case inbox =>
    rcases hledger.inbox with hsame | hidle
    · rw [hsame]
      exact h.inbox
    · exact .inl hidle
  case reply =>
    intro n hn
    rcases hledger.control_or hn with hsame | ⟨-, hnew | hnew⟩
    · rw [hsame]
      exact h.reply n hn
    · rw [hnew]
      decide
    · rw [hnew]
      decide
  case outpost =>
    intro hne
    rw [houtpost] at hne ⊢
    obtain ⟨hlt, hposted⟩ := h.outpost hne
    have hused : m.control m.mbxoutpost ≠ .idle := by
      rcases hposted with hposted | hposted
      · rw [hposted]
        decide
      · rw [hposted]
        decide
    rw [hledger.control_of_used hne hused]
    exact ⟨hlt, hposted⟩
  case backup =>
    intro hne
    rw [hbackup] at hne ⊢
    obtain ⟨hlt, hkept⟩ := h.backup hne
    rw [hledger.control_of_used hne (by rw [hkept]; decide)]
    exact ⟨hlt, hkept⟩
  case backup_only =>
    intro n hn
    rw [hbackup]
    by_cases hzero : n = 0
    · subst hzero
      rcases hledger.inbox with hsame | hidle
      · exact h.backup_only 0 (hsame.symm.trans hn)
      · rw [hidle] at hn
        cases hn
    · rcases hledger.control_or hzero with hsame | ⟨-, hnew | hnew⟩
      · exact h.backup_only n (hsame.symm.trans hn)
      · rw [hnew] at hn
        cases hn
      · rw [hnew] at hn
        cases hn
  case range =>
    intro n hle
    have hzero : n ≠ 0 := by
      have := opts.mbxBuffers_le.1
      omega
    rcases hledger.control_or hzero with hsame | ⟨hlt, -⟩
    · rw [hsame]
      exact h.range n hle
    · omega
  case txcue =>
    have hlt := card_waiting_lt opts m'
    rw [hledger.card_waiting] at hlt ⊢
    rw [hledger.txcue, BitVec.toNat_add, h.txcue, BitVec.toNat_ofNat]
    omega

/-- A ledger posts nothing. -/
lemma Sole.ledger {held posted : List ℕ} (h : m.Sole) (hledger : Ledger opts m m' held posted) :
    m'.Sole := by
  obtain ⟨-, -, -, -, -, houtpost, -, hfree, -⟩ := Fixed.mk.inj hledger.fixed
  refine ⟨fun n hn => ?_, fun hne => ?_⟩
  · rw [houtpost]
    refine h.outpost_only n ?_
    by_cases hzero : n = 0
    · subst hzero
      rcases hledger.inbox with hsame | hidle
      · rw [← hsame]
        exact hn
      · rw [hidle] at hn
        rcases hn with hn | hn
        · cases hn
        · cases hn
    · rcases hledger.control_or hzero with hsame | ⟨-, hnew | hnew⟩
      · rw [← hsame]
        exact hn
      all_goals
        rw [hnew] at hn
        rcases hn with hn | hn
        · cases hn
        · cases hn
  · rw [houtpost] at hne
    rw [hfree]
    exact h.full hne

/-! ## `ESC_mbxprocess` -/

lemma dropBackup_control (m : Mailbox) (n : ℕ) : m.dropBackup.control n =
    if m.mbxbackup ≠ 0 ∧ n = m.mbxbackup then .idle else m.control n := by
  rw [dropBackup]
  by_cases hbackup : m.mbxbackup ≠ 0
  · rw [if_pos hbackup]
    exact if_congr (and_iff_right hbackup).symm rfl rfl
  · rw [if_neg hbackup, if_neg fun h => hbackup h.1]

lemma outboxRead_control (m : Mailbox) (n : ℕ) : m.outboxRead.control n =
    if n = m.mbxoutpost then .backup
    else if m.mbxbackup ≠ 0 ∧ n = m.mbxbackup then .idle else m.control n := by
  rw [← dropBackup_control]
  rfl

/-- The posted buffer and the backup are different. -/
lemma Kept.backup_ne (h : m.Kept opts) (houtpost : m.mbxoutpost ≠ 0) (hbackup : m.mbxbackup ≠ 0) :
    m.mbxoutpost ≠ m.mbxbackup := by
  intro hsame
  have hposted := (h.outpost houtpost).2
  rw [hsame, (h.backup hbackup).2] at hposted
  rcases hposted with hposted | hposted
  · cases hposted
  · cases hposted

/-- Posted buffers and backups do not wait. -/
lemma Kept.not_waiting (h : m.Kept opts) {n : ℕ}
    (hn : n = m.mbxoutpost ∧ m.mbxoutpost ≠ 0 ∨ m.mbxbackup ≠ 0 ∧ n = m.mbxbackup) :
    m.control n ≠ .outclaim ∧ m.control n ≠ .outreq := by
  rcases hn with ⟨rfl, houtpost⟩ | ⟨hbackup, rfl⟩
  · rcases (h.outpost houtpost).2 with hposted | hposted
    · rw [hposted]
      decide
    · rw [hposted]
      decide
  · rw [(h.backup hbackup).2]
    decide

/-- The set of the waiting replies depends on the reply buffers only. -/
lemma waiting_congr (h : ∀ n, n ≠ 0 → (m'.control n = .outclaim ∨ m'.control n = .outreq ↔
    m.control n = .outclaim ∨ m.control n = .outreq)) : m'.waiting opts = m.waiting opts := by
  ext n
  simp only [waiting, Finset.mem_filter]
  constructor
  · rintro ⟨hrange, hzero, hn⟩
    exact ⟨hrange, hzero, (h n hzero).mp hn⟩
  · rintro ⟨hrange, hzero, hn⟩
    exact ⟨hrange, hzero, (h n hzero).mpr hn⟩

/-- Reading the outbox keeps the books. -/
lemma Kept.outboxRead (h : m.Kept opts) (houtpost : m.mbxoutpost ≠ 0) : m.outboxRead.Kept opts := by
  constructor
  case inbox =>
    rw [outboxRead_control, if_neg (Ne.symm houtpost), if_neg fun hn => hn.1 hn.2.symm]
    exact h.inbox
  case reply =>
    intro n hn
    rw [outboxRead_control]
    split
    · decide
    · split
      · decide
      · exact h.reply n hn
  case outpost => exact fun hne => (hne rfl).elim
  case backup =>
    intro _
    refine ⟨(h.outpost houtpost).1, ?_⟩
    rw [outboxRead_control]
    exact if_pos rfl
  case backup_only =>
    intro n hn
    change n = m.mbxoutpost
    rw [outboxRead_control] at hn
    split at hn
    · assumption
    · split at hn
      · cases hn
      case isFalse hother =>
        have hbackup := h.backup_only n hn
        by_cases hzero : m.mbxbackup = 0
        · rw [hbackup, hzero] at hn
          rcases h.inbox with hidle | hidle
          · rw [hidle] at hn
            cases hn
          · rw [hidle] at hn
            cases hn
        · exact (hother ⟨hzero, hbackup⟩).elim
  case range =>
    intro n hle
    rw [outboxRead_control]
    have hlt := (h.outpost houtpost).1
    rw [if_neg (by omega)]
    split
    · rfl
    · exact h.range n hle
  case txcue =>
    rw [show m.outboxRead.txcue = m.txcue from ?_, h.txcue]
    · congr 1
      refine (waiting_congr fun n hn => ?_).symm
      rw [outboxRead_control]
      split
      case isTrue hposted =>
        have := h.not_waiting (.inl ⟨hposted, houtpost⟩)
        simp [this.1, this.2]
      case isFalse =>
        split
        case isTrue hbackup =>
          have := h.not_waiting (.inr hbackup)
          simp [this.1, this.2]
        case isFalse => exact Iff.rfl
    · rw [Mailbox.outboxRead, dropBackup]
      split <;> rfl

lemma Sole.outboxRead (h : m.Sole) : m.outboxRead.Sole := by
  refine ⟨fun n hn => ?_, fun hne => (hne rfl).elim⟩
  rw [outboxRead_control] at hn
  by_cases hposted : n = m.mbxoutpost
  · rw [if_pos hposted] at hn
    rcases hn with hn | hn
    · cases hn
    · cases hn
  · rw [if_neg hposted] at hn
    split at hn
    · rcases hn with hn | hn
      · cases hn
      · cases hn
    · exact (hposted (h.outpost_only n hn)).elim

lemma repeated_control (m : Mailbox) (rep : Bool) (n : ℕ) : (m.repeated rep).control n =
    if m.mbxoutpost ≠ 0 ∧ n = m.mbxoutpost then .again else m.control n := by
  by_cases houtpost : m.mbxoutpost = 0
  · have hnot : ¬ (m.mbxoutpost ≠ 0 ∧ n = m.mbxoutpost) := fun hn => hn.1 houtpost
    rw [if_neg hnot, repeated]
    split
    · rfl
    · rfl
  · rw [repeated, if_pos (.inl houtpost)]
    simp only [if_neg houtpost]
    exact if_congr (and_iff_right houtpost).symm rfl rfl

lemma repeated_mbxoutpost (m : Mailbox) (rep : Bool) :
    (m.repeated rep).mbxoutpost = m.mbxoutpost := by
  rw [repeated]
  split
  · dsimp only
    split <;> rfl
  · rfl

lemma repeated_mbxbackup (m : Mailbox) (rep : Bool) :
    (m.repeated rep).mbxbackup = m.mbxbackup := by
  rw [repeated]
  split
  · dsimp only
    split <;> rfl
  · rfl

lemma repeated_txcue (m : Mailbox) (rep : Bool) : (m.repeated rep).txcue = m.txcue := by
  rw [repeated]
  split
  · dsimp only
    split <;> rfl
  · rfl

/-- A repeat keeps the books. -/
lemma Kept.repeated (h : m.Kept opts) (rep : Bool) : (m.repeated rep).Kept opts := by
  constructor
  case inbox =>
    rw [repeated_control, if_neg fun hn => hn.1 hn.2.symm]
    exact h.inbox
  case reply =>
    intro n hn
    rw [repeated_control]
    split
    · decide
    · exact h.reply n hn
  case outpost =>
    rw [repeated_mbxoutpost]
    intro houtpost
    rw [repeated_control, if_pos ⟨houtpost, rfl⟩]
    exact ⟨(h.outpost houtpost).1, .inr rfl⟩
  case backup =>
    rw [repeated_mbxbackup]
    intro hbackup
    have hne : ¬ (m.mbxoutpost ≠ 0 ∧ m.mbxbackup = m.mbxoutpost) := fun hn =>
      h.backup_ne hn.1 hbackup hn.2.symm
    rw [repeated_control, if_neg hne]
    exact h.backup hbackup
  case backup_only =>
    intro n hn
    rw [repeated_mbxbackup]
    rw [repeated_control] at hn
    split at hn
    · cases hn
    · exact h.backup_only n hn
  case range =>
    intro n hle
    rw [repeated_control, if_neg fun hn => ?_]
    · exact h.range n hle
    · have hlt := (h.outpost hn.1).1
      omega
  case txcue =>
    rw [repeated_txcue, h.txcue]
    congr 1
    refine (waiting_congr fun n hn => ?_).symm
    rw [repeated_control]
    split
    case isTrue hposted =>
      have := h.not_waiting (.inl ⟨hposted.2, hposted.1⟩)
      simp [this.1, this.2]
    case isFalse => exact Iff.rfl

lemma Sole.repeated (h : m.Sole) (rep : Bool) : (m.repeated rep).Sole := by
  refine ⟨fun n hn => ?_, fun hne => ?_⟩
  · rw [repeated_mbxoutpost]
    rw [repeated_control] at hn
    split at hn
    case isTrue hposted => exact hposted.2
    case isFalse => exact h.outpost_only n hn
  · rw [repeated_mbxoutpost] at hne
    rw [Mailbox.repeated, if_pos (.inl hne)]

/-- Posting a reply keeps the books. -/
lemma Kept.posting {stat : Bool} (h : m.Kept opts) (hposting : Posting opts stat m m') :
    m'.Kept opts := by
  rcases hposting with rfl | ⟨n, hscan, hne, htxcue, -, rfl⟩
  · exact h
  have hfound : n < opts.mbxBuffers ∧ m.control n = .outreq := by
    rw [escOutreqbuffer] at hscan
    rw [← hscan] at hne ⊢
    have hfound := scanBuffers_found hne
    have := opts.mbxBuffers_le.1
    exact ⟨by omega, hfound.2⟩
  have hcontrol (k : ℕ) : (m.posted n).control k = if k = n then .outpost else m.control k := rfl
  constructor
  case inbox =>
    rw [hcontrol, if_neg (Ne.symm hne)]
    exact h.inbox
  case reply =>
    intro k hk
    rw [hcontrol]
    split
    · decide
    · exact h.reply k hk
  case outpost =>
    intro _
    refine ⟨hfound.1, .inl ?_⟩
    exact if_pos rfl
  case backup =>
    intro hbackup
    obtain ⟨hlt, hkept⟩ := h.backup hbackup
    have hother : m.mbxbackup ≠ n := by
      rintro rfl
      rw [hkept] at hfound
      cases hfound.2
    exact ⟨hlt, (if_neg hother).trans hkept⟩
  case backup_only =>
    intro k hk
    rw [hcontrol] at hk
    split at hk
    · cases hk
    · exact h.backup_only k hk
  case range =>
    intro k hle
    rw [hcontrol, if_neg (by omega)]
    exact h.range k hle
  case txcue =>
    have hwaiting : (m.posted n).waiting opts = (m.waiting opts).erase n := by
      ext k
      simp only [waiting, Finset.mem_filter, Finset.mem_erase]
      rw [hcontrol]
      by_cases hkn : k = n
      · simp [hkn]
      · simp [hkn]
    have hmem : n ∈ m.waiting opts :=
      Finset.mem_filter.mpr ⟨Finset.mem_range.mpr hfound.1, hne, .inr hfound.2⟩
    have hpos := Finset.card_pos.mpr ⟨n, hmem⟩
    have hlt := card_waiting_lt opts m
    rw [hwaiting, Finset.card_erase_of_mem hmem, ← h.txcue]
    rw [← h.txcue] at hpos
    change (if m.txcue ≠ 0 then m.txcue - 1 else m.txcue).toNat = _
    rw [if_pos htxcue]
    bv_omega

/-- A reply is posted only when the one before was read, if SM1 is never seen empty before that is
shown. -/
lemma Sole.posting {stat event : Bool} (h : m.Sole) (hkept : m.Kept opts)
    (hevent : m.mbxoutpost ≠ 0 → event = false)
    (hshown : m.mbxoutpost ≠ 0 → stat = false → event = true)
    (hposting : Posting opts stat m m') : m'.Sole := by
  rcases hposting with rfl | ⟨n, -, hne, -, hfree, rfl⟩
  · exact h
  have hread : m.mbxoutpost = 0 := by
    by_contra houtpost
    rcases hfree with hfree | hstat
    · rw [h.full houtpost] at hfree
      cases hfree
    · have := hevent houtpost
      rw [hshown houtpost hstat] at this
      cases this
  refine ⟨fun k hk => ?_, fun _ => rfl⟩
  by_cases hkn : k = n
  · exact hkn
  · have hcontrol : (m.posted n).control k = m.control k := if_neg hkn
    rw [hcontrol] at hk
    have hzero := h.outpost_only k hk
    rw [hread] at hzero
    subst hzero
    rcases hkept.inbox with hidle | hidle
    all_goals
      rw [hidle] at hk
      rcases hk with hk | hk
      · cases hk
      · cases hk

/-- The books do not look at the message in the inbox. -/
lemma Kept.congr (h : m.Kept opts) (hinbox : m'.control 0 = .idle ∨ m'.control 0 = .inclaim)
    (hreply : ∀ n, n ≠ 0 → m'.control n = m.control n) (houtpost : m'.mbxoutpost = m.mbxoutpost)
    (hbackup : m'.mbxbackup = m.mbxbackup) (htxcue : m'.txcue = m.txcue) : m'.Kept opts where
  inbox := hinbox
  reply n hn := by
    rw [hreply n hn]
    exact h.reply n hn
  outpost hne := by
    rw [houtpost] at hne ⊢
    rw [hreply _ hne]
    exact h.outpost hne
  backup hne := by
    rw [hbackup] at hne ⊢
    rw [hreply _ hne]
    exact h.backup hne
  backup_only n hn := by
    rw [hbackup]
    by_cases hzero : n = 0
    · subst hzero
      rcases hinbox with hidle | hidle
      all_goals
        rw [hidle] at hn
        cases hn
    · rw [hreply n hzero] at hn
      exact h.backup_only n hn
  range n hle := by
    have := opts.mbxBuffers_le.1
    rw [hreply n (by omega)]
    exact h.range n hle
  txcue := by
    rw [htxcue, h.txcue]
    congr 1
    exact (waiting_congr fun n hn => by rw [hreply n hn]).symm

lemma Sole.congr (h : m.Sole) (hinbox : m'.control 0 = .idle ∨ m'.control 0 = .inclaim)
    (hreply : ∀ n, n ≠ 0 → m'.control n = m.control n) (houtpost : m'.mbxoutpost = m.mbxoutpost)
    (hfree : m'.mbxfree = m.mbxfree) : m'.Sole where
  outpost_only n hn := by
    rw [houtpost]
    by_cases hzero : n = 0
    · subst hzero
      rcases hinbox with hidle | hidle
      all_goals
        rw [hidle] at hn
        rcases hn with hn | hn
        · cases hn
        · cases hn
    · rw [hreply n hzero] at hn
      exact h.outpost_only n hn
  full hne := by
    rw [houtpost] at hne
    rw [hfree]
    exact h.full hne

/-- Reading the inbox keeps the books. -/
lemma Kept.receives (h : m.Kept opts) (hreceives : Receives opts m m') : m'.Kept opts := by
  obtain ⟨mbx, m₁, cnt, ⟨posted, hledger, -, -⟩, -, rfl⟩ := hreceives.error
  have hfilled : Kept opts { m.setControl 0 .inclaim with mbx := mbx } :=
    h.congr (.inr rfl) (fun n hn => if_neg hn) rfl rfl rfl
  have hkept := hfilled.ledger hledger
  exact hkept.congr hkept.inbox (fun _ _ => rfl) rfl rfl rfl

lemma Sole.receives (h : m.Sole) (hkept : m.Kept opts) (hreceives : Receives opts m m') :
    m'.Sole := by
  obtain ⟨mbx, m₁, cnt, ⟨posted, hledger, -, -⟩, -, rfl⟩ := hreceives.error
  have hfilled : Kept opts { m.setControl 0 .inclaim with mbx := mbx } :=
    hkept.congr (.inr rfl) (fun n hn => if_neg hn) rfl rfl rfl
  have hsole : Sole { m.setControl 0 .inclaim with mbx := mbx } :=
    h.congr (.inr rfl) (fun n hn => if_neg hn) rfl rfl
  exact (hsole.ledger hledger).congr (hfilled.ledger hledger).inbox (fun _ _ => rfl) rfl rfl

/-- A turn of `ESC_mbxprocess` keeps the books. -/
lemma Kept.turn {stat event : Bool} (h : m.Kept opts) (hturn : MbxTurn opts stat event m m') :
    m'.Kept opts := by
  cases hturn with
  | read houtpost => exact h.outboxRead houtpost
  | again _ rep => exact h.repeated rep
  | @forward _ m₁ _ hposting hreceives =>
      have hposted := h.posting hposting
      rcases hreceives with rfl | hreceives
      · exact hposted
      · exact hposted.receives hreceives

lemma Sole.turn {stat event : Bool} (h : m.Sole) (hkept : m.Kept opts)
    (hshown : m.mbxoutpost ≠ 0 → stat = false → event = true)
    (hturn : MbxTurn opts stat event m m') : m'.Sole := by
  cases hturn with
  | read houtpost => exact h.outboxRead
  | again _ rep => exact h.repeated rep
  | @forward hevent m₁ _ hposting hreceives =>
      have hposted := h.posting hkept hevent hshown hposting
      rcases hreceives with rfl | hreceives
      · exact hposted
      · exact hposted.receives (hkept.posting hposting) hreceives

end Mailbox

/-! ## The application -/

/-- The reply that a completion queues is one more that waits. -/
lemma Mailbox.Kept.completed (h : m.Kept opts) (abortcode : Dword) :
    (m.completed opts abortcode).Kept opts := by
  have hdropped : m.dropHold.Kept opts := h.congr h.inbox (fun _ _ => rfl) rfl rfl rfl
  rw [Mailbox.completed]
  split
  case isTrue => exact h
  case isFalse =>
    split
    case isTrue => exact hdropped
    case isFalse hne =>
      exact hdropped.ledger (((Ledger.refl opts m.dropHold).claim rfl hne).fill_post rfl)

lemma Mailbox.Sole.completed (h : m.Sole) (hkept : m.Kept opts) (abortcode : Dword) :
    (m.completed opts abortcode).Sole := by
  have hdropped : m.dropHold.Sole := h.congr hkept.inbox (fun _ _ => rfl) rfl rfl
  rw [Mailbox.completed]
  split
  case isTrue => exact h
  case isFalse =>
    split
    case isTrue => exact hdropped
    case isFalse hne =>
      exact hdropped.ledger (((Ledger.refl opts m.dropHold).claim rfl hne).fill_post rfl)

/-- A claimed buffer still waits when it is queued. -/
lemma Mailbox.Kept.queued (h : m.Kept opts) {n : ℕ} (hn : m.control n = .outclaim)
    (hcontrol : ∀ k, m'.control k = if k = n then .outreq else m.control k)
    (houtpost : m'.mbxoutpost = m.mbxoutpost) (hbackup : m'.mbxbackup = m.mbxbackup)
    (htxcue : m'.txcue = m.txcue) : m'.Kept opts := by
  have hother {k : ℕ} (hk : m.control k ≠ .outclaim) : m'.control k = m.control k := by
    have hkn : k ≠ n := by
      rintro rfl
      exact hk hn
    rw [hcontrol, if_neg hkn]
  have hposted {k : ℕ} (hk : m'.control k ≠ .outreq) : m'.control k = m.control k := by
    rw [hcontrol] at hk ⊢
    split
    case isTrue hkn => exact (hk (if_pos hkn)).elim
    case isFalse => rfl
  constructor
  case inbox =>
    rw [hother (by rcases h.inbox with hidle | hidle <;> rw [hidle] <;> decide)]
    exact h.inbox
  case reply =>
    intro k hk hmessage
    rw [hposted (by rw [hmessage]; decide)] at hmessage
    exact h.reply k hk hmessage
  case outpost =>
    intro hne
    rw [houtpost] at hne ⊢
    rw [hother (h.not_waiting (.inl ⟨rfl, hne⟩)).1]
    exact h.outpost hne
  case backup =>
    intro hne
    rw [hbackup] at hne ⊢
    rw [hother (h.not_waiting (.inr ⟨hne, rfl⟩)).1]
    exact h.backup hne
  case backup_only =>
    intro k hk
    rw [hposted (by rw [hk]; decide)] at hk
    rw [hbackup]
    exact h.backup_only k hk
  case range =>
    intro k hle
    have hidle := h.range k hle
    rw [hother (by rw [hidle]; decide)]
    exact hidle
  case txcue =>
    rw [htxcue, h.txcue]
    congr 1
    refine (waiting_congr fun k _ => ?_).symm
    rw [hcontrol]
    by_cases hkn : k = n
    · subst hkn
      simp [hn]
    · simp [hkn]

lemma Mailbox.Sole.queued (h : m.Sole) {n : ℕ}
    (hcontrol : ∀ k, m'.control k = if k = n then .outreq else m.control k)
    (houtpost : m'.mbxoutpost = m.mbxoutpost) (hfree : m'.mbxfree = m.mbxfree) : m'.Sole := by
  constructor
  case outpost_only =>
    intro k hk
    rw [hcontrol] at hk
    rw [houtpost]
    by_cases hkn : k = n
    · rw [if_pos hkn] at hk
      rcases hk with hk | hk
      · cases hk
      · cases hk
    · rw [if_neg hkn] at hk
      exact h.outpost_only k hk
  case full =>
    intro hne
    rw [houtpost] at hne
    rw [hfree]
    exact h.full hne

/-! ## Runs -/

lemma Mailbox.stopped_control (h : ∀ n, opts.mbxBuffers ≤ n → m.control n = .idle) (n : ℕ) :
    (m.stopped opts.mbxBuffers).control n = .idle := by
  change (if n < opts.mbxBuffers then MbxState.idle else m.control n) = .idle
  split
  case isTrue => rfl
  case isFalse hle => exact h n (Nat.not_lt.mp hle)

/-- `ESC_stopmbx` starts the books anew. -/
lemma Mailbox.Kept.stopped (h : ∀ n, opts.mbxBuffers ≤ n → m.control n = .idle) :
    (m.stopped opts.mbxBuffers).Kept opts := by
  have hidle := stopped_control h
  constructor
  case inbox => exact .inl (hidle 0)
  case reply =>
    intro n _
    rw [hidle n]
    decide
  case outpost => exact fun hne => (hne rfl).elim
  case backup => exact fun hne => (hne rfl).elim
  case backup_only =>
    intro n hn
    rw [hidle n] at hn
    cases hn
  case range => exact fun n _ => hidle n
  case txcue =>
    have hnone : (m.stopped opts.mbxBuffers).waiting opts = ∅ := by
      refine Finset.filter_eq_empty_iff.mpr fun n _ hn => ?_
      rw [hidle n] at hn
      rcases hn.2 with hn | hn
      · cases hn
      · cases hn
    rw [hnone]
    rfl

lemma Mailbox.Sole.stopped (h : ∀ n, opts.mbxBuffers ≤ n → m.control n = .idle) :
    (m.stopped opts.mbxBuffers).Sole := by
  refine ⟨fun n hn => ?_, fun hne => (hne rfl).elim⟩
  rw [stopped_control h] at hn
  rcases hn with hn | hn
  · cases hn
  · cases hn

/-- A step of the AL side keeps the books. -/
structure BookStep (sys : System σ) (w w' : World σ) : Prop where
  kept : w.mb.Kept sys.opts → w'.mb.Kept sys.opts
  sole : w.mb.Kept sys.opts → w.mb.Sole → w'.mb.Sole

instance (sys : System σ) : Std.Refl (BookStep sys) := ⟨fun _ => ⟨id, fun _ => id⟩⟩

instance (sys : System σ) : IsTrans (World σ) (BookStep sys) where
  trans _ _ _ h h' := ⟨fun hkept => h'.kept (h.kept hkept),
    fun hkept hsole => h'.sole (h.kept hkept) (h.sole hkept hsole)⟩

/-- The AL side keeps the books. -/
lemma booksRelation (sys : System σ) : AlRelation sys (BookStep sys) where
  frame _ _ h := by
    constructor
    · rw [h.mb]
      exact id
    · rw [h.mb]
      exact fun _ => id
  stopmbx _ := ⟨fun hkept => .stopped hkept.range, fun hkept _ => .stopped hkept.range⟩
  startmbx _ _ _ _ _ := ⟨fun hkept => hkept.congr hkept.inbox (fun _ _ => rfl) rfl rfl rfl,
    fun hkept hsole => hsole.congr hkept.inbox (fun _ _ => rfl) rfl rfl⟩
  halt _ := ⟨fun hkept => hkept.congr hkept.inbox (fun _ _ => rfl) rfl rfl rfl,
    fun hkept hsole => hsole.congr hkept.inbox (fun _ _ => rfl) rfl rfl⟩

/-- `ESC_mbxprocess` would see SM1 empty while a reply is posted, and no event of SM1. -/
def DeviceCall.missesRead (sys : DeviceSystem σ) (k : ℕ) (d : Device σ) : DeviceCall σ → Bool
  | .call .mbxprocess =>
      match mbxRefresh sys.sys k d.world with
      | .ok () w => d.world.mb.mbxRun ∧ d.world.mb.mbxoutpost ≠ 0 ∧ w.outboxStat = false ∧
          w.outboxEvent = false
      | _ => false
  | _ => false

/-- The ESC shows that a posted reply was read: when SM1 reads empty, its event is in
`ALevent`. -/
def ShowsReads (sys : DeviceSystem σ) (d : Device σ) (l : ℕ × DeviceCall σ) : Prop :=
  l.2.missesRead sys l.1 d = false

instance (sys : DeviceSystem σ) (d : Device σ) (l : ℕ × DeviceCall σ) :
    Decidable (ShowsReads sys d l) := inferInstanceAs (Decidable (_ = _))

lemma ShowsReads.event {sys : DeviceSystem σ} {d : Device σ} {k : ℕ} {w : World σ}
    (h : ShowsReads sys d (k, .call .mbxprocess)) (hrun : d.world.mb.mbxRun = true)
    (hrefresh : mbxRefresh sys.sys k d.world = .ok () w) (houtpost : d.world.mb.mbxoutpost ≠ 0)
    (hempty : w.outboxStat = false) : w.outboxEvent = true := by
  rw [ShowsReads] at h
  simp only [DeviceCall.missesRead] at h
  rw [hrefresh] at h
  simp only [hrun, hempty, decide_eq_false_iff_not] at h
  by_contra hevent
  exact h ⟨trivial, houtpost, trivial, Bool.eq_false_iff.mpr hevent⟩

/-- A call keeps the books, those of the outbox if the ESC shows its reads. -/
lemma DeviceCall.bookStep {sys : DeviceSystem σ} (c : DeviceCall σ) (k : ℕ) (d : Device σ)
    (hkept : d.world.mb.Kept sys.sys.opts) : wlp sys k c.run (fun _ d' =>
      d'.world.mb.Kept sys.sys.opts ∧
        (ShowsReads sys d (k, c) → d.world.mb.Sole → d'.world.mb.Sole)) d := by
  by_cases hclaims : c.claims
  · refine (DeviceCall.exists_ledger hclaims k d).mono fun _ d' h => ?_
    obtain ⟨held, posted, hledger⟩ := h
    exact ⟨hkept.ledger hledger, fun _ hsole => hsole.ledger hledger⟩
  cases c with
  | sdoComplete abortcode =>
      rw [DeviceCall.run, wlp_within, wlp_within]
      refine (escSdoComplete_completed abortcode).wlp.mono fun _ c' hc' => ?_
      rw [hc']
      exact ⟨hkept.completed abortcode, fun _ hsole => hsole.completed hkept abortcode⟩
  | outreq n contents =>
      rw [DeviceCall.run, wlp_within, wlp_within, applicationOutreq, wlp_modify]
      by_cases hclaimed : (mailboxOf.get (worldOf.get d)).control n = .outclaim
      · rw [if_pos hclaimed]
        exact ⟨hkept.queued hclaimed (fun _ => rfl) rfl rfl rfl,
          fun _ hsole => hsole.queued (fun _ => rfl) rfl rfl⟩
      · rw [if_neg hclaimed]
        exact ⟨hkept, fun _ hsole => hsole⟩
  | call c =>
      rw [DeviceCall.run, wlp_within]
      by_cases hal : c.isAl
      · refine (Call.keeps (booksRelation sys.sys) hal k d.world).mono fun _ w' h => ?_
        exact ⟨h.kept hkept, fun _ hsole => h.sole hkept hsole⟩
      · cases c with
        | mbxprocess =>
            refine (wlp_map _ _ _).mpr (escMbxprocess_turn.mono fun _ w' h => ?_)
            rcases h with hsame | ⟨hrun, w₁, hrefresh, hturn⟩
            · have hmb : (worldOf.put w' d).world.mb = d.world.mb := hsame
              rw [hmb]
              exact ⟨hkept, fun _ hsole => hsole⟩
            · refine ⟨hkept.turn hturn, fun hshows hsole => hsole.turn hkept ?_ hturn⟩
              exact hshows.event hrun hrefresh
        | coeprocess => exact (hclaims trivial).elim
        | xoeprocess => exact (hclaims trivial).elim
        | _ => exact (hal trivial).elim
  | _ => exact (hclaims trivial).elim

lemma Device.Initialised.booked {sys : DeviceSystem σ} {d : Device σ}
    (h : Device.Initialised sys d) : d.world.mb.Kept sys.sys.opts ∧ d.world.mb.Sole := by
  obtain ⟨outside, alEvent, bytes, hmb⟩ := deviceInit_stopped h
  rw [hmb]
  exact ⟨.stopped fun _ _ => rfl, .stopped fun _ _ => rfl⟩

/-- The variables agree with the buffers in every run. -/
lemma Device.Reached.kept {sys : DeviceSystem σ} {ok : Device σ → ℕ × DeviceCall σ → Prop}
    {d : Device σ} (h : Device.Reached sys ok d) : d.world.mb.Kept sys.sys.opts := by
  refine Reachable.invariant (P := fun d : Device σ => d.world.mb.Kept sys.sys.opts)
    (fun _ hinit => hinit.booked.1) (fun s l s' hkept _ hstep => ?_) h
  obtain ⟨k, c⟩ := l
  exact (c.bookStep k s hkept () s' hstep).1

lemma Device.Reached.sole {sys : DeviceSystem σ} {d : Device σ}
    (h : Device.Reached sys (ShowsReads sys) d) : d.world.mb.Sole := by
  refine Reachable.invariant_of (I := fun d : Device σ => d.world.mb.Kept sys.sys.opts)
    (P := fun d : Device σ => d.world.mb.Sole) (fun _ hs => Device.Reached.kept hs)
    (fun _ hinit => hinit.booked.2) (fun s l s' hkept hsole hshows hstep => ?_) h
  obtain ⟨k, c⟩ := l
  exact (c.bookStep k s hkept () s' hstep).2 hshows hsole

/-- The books of the mailboxes. -/
structure Mailbox.Booked (opts : Options) (m : Mailbox) : Prop where
  outpost_only : ∀ n, m.control n = .outpost ∨ m.control n = .again → n = m.mbxoutpost
  backup_only : ∀ n, m.control n = .backup → n = m.mbxbackup
  different : m.mbxoutpost ≠ 0 → m.mbxbackup ≠ 0 → m.mbxoutpost ≠ m.mbxbackup
  inbox : m.control 0 = .idle ∨ m.control 0 = .inclaim
  txcue : m.txcue.toNat = ((Finset.range opts.mbxBuffers).filter fun n =>
    m.control n = .outclaim ∨ m.control n = .outreq).card
  counted : escOutreqbuffer opts m ≠ 0 → m.txcue ≠ 0

/-- The inbox does not wait. -/
lemma Mailbox.Kept.waiting_eq (h : m.Kept opts) :
    m.waiting opts = (Finset.range opts.mbxBuffers).filter fun n =>
      m.control n = .outclaim ∨ m.control n = .outreq := by
  refine Finset.filter_congr fun n _ => ⟨And.right, fun hn => ⟨?_, hn⟩⟩
  rintro rfl
  rcases h.inbox with hidle | hidle
  all_goals
    rw [hidle] at hn
    rcases hn with hn | hn
    · cases hn
    · cases hn

/-- **The mailboxes are kept in every run** whose ESC shows its reads. -/
theorem bookkeeping {sys : DeviceSystem σ} {d : Device σ}
    (h : Device.Reached sys (ShowsReads sys) d) : d.world.mb.Booked sys.sys.opts := by
  have hkept := h.kept
  have hsole := h.sole
  constructor
  case outpost_only => exact hsole.outpost_only
  case backup_only => exact hkept.backup_only
  case different => exact hkept.backup_ne
  case inbox => exact hkept.inbox
  case txcue =>
    rw [← hkept.waiting_eq]
    exact hkept.txcue
  case counted =>
    intro hne hzero
    have hfound := scanBuffers_found hne
    have hlt := sys.sys.opts.mbxBuffers_le.1
    have hmem : escOutreqbuffer sys.sys.opts d.world.mb ∈ d.world.mb.waiting sys.sys.opts := by
      refine Finset.mem_filter.mpr ⟨Finset.mem_range.mpr ?_, hne, .inr hfound.2⟩
      have := hfound.1
      rw [escOutreqbuffer]
      omega
    have hpos := Finset.card_pos.mpr ⟨_, hmem⟩
    rw [← hkept.txcue, hzero] at hpos
    exact Nat.lt_irrefl 0 hpos

/-- Take a step, if it is possible and the ESC shows its reads. -/
def DeviceCall.execShown (sys : DeviceSystem σ) (d : Device σ) (l : ℕ × DeviceCall σ) :
    Option (Device σ) :=
  if ShowsReads sys d l then l.2.exec sys l.1 d else none

lemma DeviceCall.execShown_step {sys : DeviceSystem σ} (d : Device σ) (l : ℕ × DeviceCall σ)
    (d' : Device σ) (h : execShown sys d l = some d') :
    ShowsReads sys d l ∧ Device.Step sys d l d' := by
  rw [execShown] at h
  by_cases hshows : ShowsReads sys d l
  · rw [if_pos hshows] at h
    exact ⟨hshows, DeviceCall.exec_step h⟩
  · rw [if_neg hshows] at h
    cases h

/-- One reply was read, and another one is posted. -/
theorem bookkeeping_example : ∃ d, Device.Reached (exampleDevice exampleHolding)
    (ShowsReads (exampleDevice exampleHolding)) d ∧ d.world.mb.control 1 = .outpost ∧
    d.world.mb.control 2 = .backup ∧ d.world.mb.Booked exampleOptions := by
  have hrun : ((deviceStart (exampleDevice exampleHolding) 8 (exampleChip 1 0 0) 0
      fun _ => 0).bind fun d => (runSteps (DeviceCall.execShown (exampleDevice exampleHolding))
        (stackCalls heldWhileListing) d).map fun d' =>
          (d'.world.mb.control 1, d'.world.mb.control 2)) = some (.outpost, .backup) := by
    decide +kernel
  obtain ⟨d₀, hstart, hrun⟩ := Option.bind_eq_some_iff.mp hrun
  obtain ⟨d, hd, hseen⟩ := Option.map_eq_some_iff.mp hrun
  obtain ⟨houtpost, hbackup⟩ := Prod.mk.inj hseen
  have hreached := runSteps_reachable DeviceCall.execShown_step (stackCalls heldWhileListing)
    (.start (deviceStart_initialised hstart)) hd
  exact ⟨d, hreached, houtpost, hbackup, bookkeeping hreached⟩

end Soes
