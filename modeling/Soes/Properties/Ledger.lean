import Soes.Properties.HeldReply
import Soes.Properties.InboxRelease

/-!
# The ledger of the reply buffers

What a protocol may do with the mailboxes while it handles a message: claim idle buffers, queue
those it has claimed, give the inbox back, and hold a download back.  `Mailbox.Ledger m m' held
posted` says that the mailboxes went from `m` to `m'` by these means alone, where the buffers `held`
were claimed and are still in hand, and the buffers `posted` were claimed and queued.  Everything
else by which the mailboxes are run is as it was.

A ledger is carried through the code by one lemma for each of these means (`Ledger.claim`,
`Ledger.post`, `Ledger.release`, `Ledger.hold`), and by `Ledger.fill` for everything that only fills
buffers or the variables of a transfer.
-/

namespace Soes

open Program

/-! ## Books -/

/-- What `ESC_mbxprocess` and the AL side change, and the protocols leave alone. -/
structure Fixed where
  mbxRun : Bool
  activembxsize : ℕ
  activemb0 : SmCfg
  activemb1 : SmCfg
  mbxincnt : Byte
  mbxoutpost : ℕ
  mbxbackup : ℕ
  mbxfree : Bool
  toggle : Bool

/-- The variables the mailboxes are run by, without the buffers and the transfer in progress. -/
structure Books where
  fixed : Fixed
  control : ℕ → MbxState
  txcue : Byte
  sdoHeld : SdoHeld

namespace Mailbox

/-- What the protocols leave alone. -/
def fixed (m : Mailbox) : Fixed :=
  { mbxRun := m.mbxRun
    activembxsize := m.activembxsize
    activemb0 := m.activemb0
    activemb1 := m.activemb1
    mbxincnt := m.mbxincnt
    mbxoutpost := m.mbxoutpost
    mbxbackup := m.mbxbackup
    mbxfree := m.mbxfree
    toggle := m.toggle }

/-- The books of the mailboxes. -/
def books (m : Mailbox) : Books :=
  { fixed := m.fixed, control := m.control, txcue := m.txcue, sdoHeld := m.sdoHeld }

/-- The mailboxes went from `m` to `m'` by claiming buffers and queueing some of them, giving the
inbox back, and holding a download back. -/
structure Ledger (opts : Options) (m m' : Mailbox) (held posted : List ℕ) : Prop where
  fixed : m'.fixed = m.fixed
  inbox : m'.control 0 = m.control 0 ∨ m'.control 0 = .idle
  control : ∀ n, n ≠ 0 → m'.control n =
    if n ∈ posted then .outreq else if n ∈ held then .outclaim else m.control n
  fresh : ∀ n ∈ held ++ posted, n ≠ 0 ∧ n < opts.mbxBuffers ∧ m.control n = .idle
  nodup : (held ++ posted).Nodup
  txcue : m'.txcue = m.txcue + .ofNat 8 (held ++ posted).length
  /-- A download is held back only if none was, and then it is that of the inbox. -/
  sdoHeld : m'.sdoHeld = m.sdoHeld ∨
    m.sdoHeld.active = false ∧ m'.sdoHeld = ⟨true, m.sdoIndex, m.sdoSubindex⟩

namespace Ledger

variable {opts : Options} {m₀ m m' : Mailbox} {held posted : List ℕ} {n : ℕ}

lemma refl (opts : Options) (m : Mailbox) : Ledger opts m m [] [] where
  fixed := rfl
  inbox := .inl rfl
  control n _ := by simp
  fresh n hn := by simp at hn
  nodup := List.nodup_nil
  txcue := by simp
  sdoHeld := .inl rfl

/-- What only fills buffers leaves the ledger as it is. -/
lemma fill (h : Ledger opts m₀ m held posted) (hbooks : m'.books = m.books) :
    Ledger opts m₀ m' held posted := by
  obtain ⟨hfixed, hcontrol, htxcue, hheld⟩ := Books.mk.inj hbooks
  constructor
  case fixed => exact hfixed.trans h.fixed
  case inbox => rw [hcontrol]; exact h.inbox
  case control => rw [hcontrol]; exact h.control
  case fresh => exact h.fresh
  case nodup => exact h.nodup
  case txcue => rw [htxcue]; exact h.txcue
  case sdoHeld => rw [hheld]; exact h.sdoHeld

/-- A buffer that is idle now has not been claimed before. -/
lemma not_mem (h : Ledger opts m₀ m held posted) (hn : n ≠ 0) (hidle : m.control n = .idle) :
    n ∉ held ++ posted ∧ m₀.control n = .idle := by
  have hcontrol := h.control n hn
  rw [hidle] at hcontrol
  by_cases hposted : n ∈ posted
  · rw [if_pos hposted] at hcontrol
    cases hcontrol
  · rw [if_neg hposted] at hcontrol
    by_cases hheld : n ∈ held
    · rw [if_pos hheld] at hcontrol
      cases hcontrol
    · rw [if_neg hheld] at hcontrol
      exact ⟨by simp [hheld, hposted], hcontrol.symm⟩

/-- A claim takes an idle buffer in hand. -/
lemma claim (h : Ledger opts m₀ m held posted)
    (hn : scanBuffers m.control .idle (opts.mbxBuffers - 1) = n) (hne : n ≠ 0) :
    Ledger opts m₀ (m.claim n) (n :: held) posted := by
  subst hn
  obtain ⟨hle, hidle⟩ := scanBuffers_found hne
  generalize scanBuffers m.control .idle (opts.mbxBuffers - 1) = n at hne hle hidle ⊢
  obtain ⟨hnot, hidle₀⟩ := h.not_mem hne hidle
  constructor
  case fixed => exact h.fixed
  case inbox =>
    have hinbox : (m.claim n).control 0 = m.control 0 := if_neg (Ne.symm hne)
    rw [hinbox]
    exact h.inbox
  case control =>
    intro k hk
    have hclaim : (m.claim n).control k = if k = n then .outclaim else m.control k := rfl
    rw [hclaim]
    by_cases hkn : k = n
    · subst hkn
      have hposted : k ∉ posted := fun hmem => hnot (List.mem_append_right _ hmem)
      rw [if_pos rfl, if_neg hposted, if_pos List.mem_cons_self]
    · rw [if_neg hkn, h.control k hk]
      simp only [List.mem_cons, hkn, false_or]
  case fresh =>
    intro k hk
    rcases List.mem_cons.mp hk with rfl | hk
    · have := opts.mbxBuffers_le.1
      exact ⟨hne, by omega, hidle₀⟩
    · exact h.fresh k hk
  case nodup => exact List.nodup_cons.mpr ⟨hnot, h.nodup⟩
  case txcue =>
    have htxcue : (m.claim n).txcue = m.txcue + 1 := rfl
    rw [htxcue, h.txcue, List.cons_append, List.length_cons, BitVec.ofNat_add, BitVec.add_assoc]
    rfl
  case sdoHeld => exact h.sdoHeld

/-- A buffer in hand is queued. -/
lemma post (h : Ledger opts m₀ m (n :: held) posted) :
    Ledger opts m₀ (m.setControl n .outreq) held (n :: posted) := by
  have hperm : (held ++ n :: posted).Perm (n :: held ++ posted) := List.perm_middle
  have hne : n ≠ 0 := (h.fresh n (by simp)).1
  constructor
  case fixed => exact h.fixed
  case inbox =>
    have hinbox : (m.setControl n .outreq).control 0 = m.control 0 := if_neg (Ne.symm hne)
    rw [hinbox]
    exact h.inbox
  case control =>
    intro k hk
    have hset : (m.setControl n .outreq).control k = if k = n then .outreq else m.control k := rfl
    rw [hset]
    by_cases hkn : k = n
    · rw [if_pos hkn, if_pos (by simp [hkn])]
    · rw [if_neg hkn, h.control k hk]
      simp only [List.mem_cons, hkn, false_or]
  case fresh => exact fun k hk => h.fresh k (hperm.mem_iff.mp hk)
  case nodup => exact hperm.nodup_iff.mpr h.nodup
  case txcue =>
    rw [hperm.length_eq]
    exact h.txcue
  case sdoHeld => exact h.sdoHeld

/-- A buffer in hand is filled and queued. -/
lemma fill_post (h : Ledger opts m₀ m (n :: held) posted) (hbooks : m'.books = m.books) :
    Ledger opts m₀ (m'.setControl n .outreq) held (n :: posted) := (h.fill hbooks).post

/-- A queued buffer is queued again. -/
lemma repost (h₀ : Ledger opts m₀ m held (n :: posted)) (hbooks : m'.books = m.books) :
    Ledger opts m₀ (m'.setControl n .outreq) held (n :: posted) := by
  have h := h₀.fill hbooks
  have hne : n ≠ 0 := (h.fresh n (by simp)).1
  constructor
  case fixed => exact h.fixed
  case inbox =>
    have hinbox : (m'.setControl n .outreq).control 0 = m'.control 0 := if_neg (Ne.symm hne)
    rw [hinbox]
    exact h.inbox
  case control =>
    intro k hk
    have hset : (m'.setControl n .outreq).control k = if k = n then .outreq else m'.control k := rfl
    rw [hset]
    by_cases hkn : k = n
    · rw [if_pos hkn, if_pos (by simp [hkn])]
    · rw [if_neg hkn, h.control k hk]
  case fresh => exact h.fresh
  case nodup => exact h.nodup
  case txcue => exact h.txcue
  case sdoHeld => exact h.sdoHeld

/-- The inbox is given back. -/
lemma idle (h : Ledger opts m₀ m held posted) :
    Ledger opts m₀ (m.setControl 0 .idle) held posted where
  fixed := h.fixed
  inbox := .inr (by simp [setControl])
  control n hn := by
    have hset : (m.setControl 0 .idle).control n = m.control n := if_neg hn
    rw [hset, h.control n hn]
  fresh := h.fresh
  nodup := h.nodup
  txcue := h.txcue
  sdoHeld := h.sdoHeld

lemma release (h : Ledger opts m₀ m held posted) : Ledger opts m₀ m.release held posted :=
  h.idle.fill rfl

/-- The download of the inbox is held back. -/
lemma hold (h : Ledger opts m₀ m held posted) (hnone : m₀.sdoHeld.active = false) :
    Ledger opts m₀ { m with sdoHeld := ⟨true, m₀.sdoIndex, m₀.sdoSubindex⟩ } held posted where
  fixed := h.fixed
  inbox := h.inbox
  control := h.control
  fresh := h.fresh
  nodup := h.nodup
  txcue := h.txcue
  sdoHeld := .inr ⟨hnone, rfl⟩

end Ledger

/-- A ledger with nothing in hand but `held`, and at most one buffer queued. -/
def Queues (opts : Options) (held : List ℕ) (m m' : Mailbox) : Prop :=
  ∃ posted, Ledger opts m m' held posted ∧ posted.length ≤ 1

/-- How the handling of a message ends: nothing but `held` is in hand, at most one reply was queued,
and if one was, the inbox is given back or a list of objects is being sent. -/
def Exits (opts : Options) (held : List ℕ) (m m' : Mailbox) : Prop :=
  ∃ posted, Ledger opts m m' held posted ∧ posted.length ≤ 1 ∧ (posted ≠ [] → m'.Released)

variable {opts : Options} {m₀ m : Mailbox} {held posted : List ℕ} {n : ℕ}

lemma Ledger.queues (h : Ledger opts m₀ m held posted) (hle : posted.length ≤ 1) :
    Queues opts held m₀ m := ⟨posted, h, hle⟩

lemma Ledger.fill_post_queues {m' : Mailbox} (h : Ledger opts m₀ m (n :: held) [])
    (hbooks : m'.books = m.books) : Queues opts held m₀ (m'.setControl n .outreq) :=
  ⟨[n], h.fill_post hbooks, Nat.le_refl _⟩

lemma Ledger.repost_queues {m' : Mailbox} (h : Ledger opts m₀ m held [n])
    (hbooks : m'.books = m.books) : Queues opts held m₀ (m'.setControl n .outreq) :=
  ⟨[n], h.repost hbooks, Nat.le_refl _⟩

lemma release_free (m : Mailbox) : m.release.Free :=
  ⟨by simp [release, setControl], rfl⟩

lemma Queues.release (h : Queues opts held m₀ m) : Exits opts held m₀ m.release := by
  obtain ⟨posted, hledger, hle⟩ := h
  exact ⟨posted, hledger.release, hle, fun _ => .inl m.release_free⟩

/-- Nothing was queued. -/
lemma Ledger.exits (h : Ledger opts m₀ m held []) : Exits opts held m₀ m :=
  ⟨[], h, Nat.zero_le _, fun hne => (hne rfl).elim⟩

end Mailbox

/-! ## Claims -/

section claims

open Mailbox

variable {R S β : Type} {opts : R → Options} {L : Component S Mailbox} {r : R} {k : ℕ} {s : S}
  {f : ℕ → Program R Fault S β} {Q : β → S → Prop} {m₀ : Mailbox} {held posted : List ℕ}

/-- A claim, by the buffer that the scan finds. -/
lemma wlp_scanned {n : ℕ} (hn : scanBuffers (L.get s).control .idle ((opts r).mbxBuffers - 1) = n)
    (hnone : n = 0 → wlp r k (f 0) Q s)
    (hsome : n ≠ 0 → wlp r k (f n) Q (L.put ((L.get s).claim n) s)) :
    wlp r k (within (fun r _ => opts r) L escClaimbuffer >>= f) Q s := by
  rw [wlp_bind, wlp_within, escClaimbuffer, wlp_bind, wlp_ask, wlp_bind, wlp_get, wlp_bind,
    wlp_when, hn]
  refine ⟨fun hne => ?_, fun hzero => ?_⟩
  · rw [wlp_modify, wlp_pure]
    exact hsome hne
  · rw [wlp_pure, L.put_get, not_not.mp hzero]
    exact hnone (not_not.mp hzero)

/-- After a claim there is one more buffer in hand, or everything is as it was. -/
lemma wlp_claimed (h : Ledger (opts r) m₀ (L.get s) held posted) (hnone : wlp r k (f 0) Q s)
    (hsome : ∀ n, n ≠ 0 → Ledger (opts r) m₀ ((L.get s).claim n) (n :: held) posted →
      wlp r k (f n) Q (L.put ((L.get s).claim n) s)) :
    wlp r k (within (fun r _ => opts r) L escClaimbuffer >>= f) Q s :=
  wlp_scanned rfl (fun _ => hnone) fun hne => hsome _ hne (h.claim rfl hne)

/-- The same for code on the mailboxes alone. -/
lemma wlp_claimed_self {o : Options} {m : Mailbox} {f : ℕ → Program Options Fault Mailbox β}
    {Q : β → Mailbox → Prop} (h : Ledger o m₀ m held posted) (hnone : wlp o k (f 0) Q m)
    (hsome : ∀ n, n ≠ 0 → Ledger o m₀ (m.claim n) (n :: held) posted →
      wlp o k (f n) Q (m.claim n)) :
    wlp o k (escClaimbuffer >>= f) Q m := by
  rw [escClaimbuffer, wlp_bind, wlp_bind, wlp_ask, wlp_bind, wlp_get, wlp_bind, wlp_when]
  refine ⟨fun hne => ?_, fun hzero => ?_⟩
  · rw [wlp_modify, wlp_pure]
    exact hsome _ hne (h.claim rfl hne)
  · rw [wlp_pure, not_not.mp hzero]
    exact hnone

end claims

end Soes
