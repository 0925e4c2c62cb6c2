import Soes.Properties.CoeLedger
import Soes.Stack.Device

/-!
# The ledger of the other protocols

FoE, EoE and the handler of last resort claim a buffer only to queue it at once, so that nothing is
left in hand (`Mailbox.Posts`).  How many replies a message gets is another matter: a packet of FoE
data that is only taken in part is answered with an abort and, if it is of full size, acknowledged
all the same (`foeDataAccepted_posts`).

`ESC_SDO_complete`, and an application that claims a buffer of its own, keep the ledger too.
-/

namespace Soes

open Program Mailbox

variable {σ : Type} {k : ℕ} {m₀ : Mailbox}

namespace Mailbox

/-- Nothing is in hand, at most `j` buffers were queued, and no download was held back. -/
def Posts (opts : Options) (j : ℕ) (m m' : Mailbox) : Prop :=
  ∃ posted, Ledger opts m m' [] posted ∧ posted.length ≤ j ∧ m'.sdoHeld = m.sdoHeld

variable {opts : Options} {m m' : Mailbox} {i j : ℕ}

lemma Posts.refl (opts : Options) (m : Mailbox) : Posts opts 0 m m :=
  ⟨[], .refl _ _, Nat.le_refl _, rfl⟩

lemma Posts.fill (h : Posts opts j m₀ m) (hbooks : m'.books = m.books) : Posts opts j m₀ m' := by
  obtain ⟨posted, hledger, hle, hheld⟩ := h
  exact ⟨posted, hledger.fill hbooks, hle, (congrArg Books.sdoHeld hbooks).trans hheld⟩

lemma Posts.mono (h : Posts opts i m₀ m) (hle : i ≤ j) : Posts opts j m₀ m := by
  obtain ⟨posted, hledger, hlen, hheld⟩ := h
  exact ⟨posted, hledger, Nat.le_trans hlen hle, hheld⟩

lemma Posts.idle (h : Posts opts j m₀ m) : Posts opts j m₀ (m.setControl 0 .idle) := by
  obtain ⟨posted, hledger, hle, hheld⟩ := h
  exact ⟨posted, hledger.idle, hle, hheld⟩

lemma Posts.release (h : Posts opts j m₀ m) : Posts opts j m₀ m.release := by
  obtain ⟨posted, hledger, hle, hheld⟩ := h
  exact ⟨posted, hledger.release, hle, hheld⟩

end Mailbox

section claims

variable {R S β : Type} {opts : R → Options} {L : Component S Mailbox} {r : R} {s : S} {j : ℕ}
  {f : ℕ → Program R Fault S β} {Q : β → S → Prop}

/-- A claim of a buffer that is queued before anything else is claimed. -/
lemma wlp_claim_posts (h : Posts (opts r) j m₀ (L.get s)) (hnone : wlp r k (f 0) Q s)
    (hsome : ∀ n, n ≠ 0 → (∀ m' : Mailbox, m'.books = ((L.get s).claim n).books →
      Posts (opts r) (j + 1) m₀ (m'.setControl n .outreq)) →
      wlp r k (f n) Q (L.put ((L.get s).claim n) s)) :
    wlp r k (within (fun r _ => opts r) L escClaimbuffer >>= f) Q s := by
  obtain ⟨posted, hledger, hle, hheld⟩ := h
  refine wlp_claimed hledger hnone fun n hn hclaim => hsome n hn fun m' hbooks => ?_
  exact ⟨n :: posted, hclaim.fill_post hbooks, Nat.succ_le_succ hle,
    (congrArg Books.sdoHeld hbooks).trans hheld⟩

end claims

/-! ## FoE -/

section foe

variable {env : FoeEnv σ} {s : FoeMem σ} {j : ℕ}

lemma wlp_foeModifyMb (f : Mailbox → Mailbox) (Q : Unit → FoeMem σ → Prop) :
    wlp env k (foeModifyMb f) Q s ↔ Q () { s with mb := f s.mb } :=
  wlp_modify _ _

lemma foeInit_posts (h : Posts env.opts j m₀ s.mb) :
    wlp env k foeInit (fun _ s' => Posts env.opts j m₀ s'.mb) s := by
  rw [foeInit, foeModify, wlp_modify]
  exact h

lemma foeAbort_posts (h : Posts env.opts j m₀ s.mb) (code : Dword) :
    wlp env k (foeAbort code) (fun _ s' => Posts env.opts (j + 1) m₀ s'.mb) s := by
  rw [foeAbort]
  refine wlp.bind (wlp.when (fun _ => ?_) fun _ => h.mono (Nat.le_succ j)) fun _ _ => foeInit_posts
  refine wlp_claim_posts h ?_ fun n hn hqueue => ?_
  · exact wlp.when (fun hne => (hne rfl).elim) fun _ => h.mono (Nat.le_succ j)
  · refine wlp.when (fun _ => ?_) fun hzero => (hzero hn).elim
    rw [wlp_foeModifyMb]
    exact hqueue _ rfl

/-- An acknowledgement is queued, or the error says that none was. -/
lemma foeSendAck_posts (h : Posts env.opts j m₀ s.mb) :
    wlp env k foeSendAck (fun res s' =>
      (res = 0 → Posts env.opts (j + 1) m₀ s'.mb) ∧ (res ≠ 0 → Posts env.opts j m₀ s'.mb)) s := by
  refine wlp_claim_posts h ?_ fun n hn hqueue => ?_
  · rw [if_neg (not_not.mpr rfl), wlp_pure]
    exact ⟨fun hzero => absurd hzero (by decide), fun _ => h⟩
  · rw [if_pos hn, wlp_bind, wlp_get, wlp_bind, wlp_foeModifyMb, wlp_bind, foeModify, wlp_modify,
      wlp_bind, wlp_foeModifyMb, wlp_pure]
    exact ⟨fun _ => hqueue _ rfl, fun hne => (hne rfl).elim⟩

/-- The mailboxes are the same. -/
abbrev SameFoeMb (s s' : FoeMem σ) : Prop := s'.mb = s.mb

instance : Std.Refl (SameFoeMb (σ := σ)) := ⟨fun _ => rfl⟩

instance : IsTrans (FoeMem σ) SameFoeMb := ⟨fun _ _ _ h h' => h'.trans h⟩

lemma foeModify_keepsFoeMb (f : Foe → Foe) : Keeps (SameFoeMb (σ := σ)) (foeModify f) :=
  .modify fun _ => rfl

lemma foeModifyFile_keepsFoeMb (f : FoeFileVar → FoeFileVar) :
    Keeps (SameFoeMb (σ := σ)) (foeModifyFile f) := by
  refine .get_bind fun s => ?_
  cases s.foe.file with
  | none => exact fun _ _ _ => wlp_fault _ _
  | some i => exact foeModify_keepsFoeMb _

lemma foeCallWrite_keepsFoeMb : Keeps (SameFoeMb (σ := σ)) foeCallWrite := by
  refine .ask_bind fun env => .get_bind fun s => ?_
  cases s.foe.file with
  | none => exact fun _ _ _ => wlp_fault _ _
  | some i =>
      dsimp only
      cases env.cfg.files[i]? with
      | none => exact fun _ _ _ => wlp_fault _ _
      | some f => exact .transact fun _ _ => rfl

lemma foeFclose_keepsFoeMb : Keeps (SameFoeMb (σ := σ)) foeFclose :=
  foeCallWrite_keepsFoeMb.bind fun _ => .get_bind fun _ =>
    (foeModifyFile_keepsFoeMb _).bind fun _ => (foeModify_keepsFoeMb _).bind fun _ => .pure _

lemma foeFopen_keepsFoeMb (numChars : Byte) (pass : Dword) :
    Keeps (SameFoeMb (σ := σ)) (foeFopen numChars pass) := by
  refine .ask_bind fun env => .get_bind fun s => ?_
  dsimp only
  cases env.cfg.files.findIdx? fun f => strncmpEq (foeFileName s.mb.mbx numChars) f.name with
  | none => exact .pure _
  | some i =>
      dsimp only
      cases env.cfg.files[i]? with
      | none => exact .pure _
      | some f =>
          exact .ite (.pure _) (.ite (.pure _) ((foeModify_keepsFoeMb _).bind fun _ => .pure _))

/-- The write function of file `i`. -/
def FoeCfg.writeFunction (cfg : FoeCfg σ) (i : ℕ) : σ → FoeFileVar → ByteStore → ℕ → σ × Dword :=
  match cfg.files[i]? with
  | some f => f.writeFunction
  | none => fun outside _ _ _ => (outside, 0)

/-- The application and the server after one byte went to file `i`, and whether the write of a full
buffer failed. -/
def foeTake (cfg : FoeCfg σ) (i : ℕ) (b : Byte) (c : σ × Foe) : (σ × Foe) × Bool :=
  let v := { c.2 with
    fbuffer := c.2.fbuffer.set c.2.fbufposition b
    fbufposition := (c.2.fbufposition + 1) % 2 ^ 16 }
  if cfg.bufferSize ≤ v.fbufposition then
    let a := cfg.writeFunction i c.1 (v.files i) v.fbuffer v.fbufposition
    ((a.1, { v with
      fbufposition := 0
      files := fun k => if k = i then
        { v.files k with addressOffset := ((v.files k).addressOffset + cfg.bufferSize) % 2 ^ 32 }
        else v.files k
      fposition := (v.fposition + 1) % 2 ^ 32 }), decide (a.2 ≠ 0))
  else ((c.1, { v with fposition := (v.fposition + 1) % 2 ^ 32 }), false)

lemma foeFwriteByte_take {i : ℕ} (hfile : s.foe.file = some i) (b : Byte) :
    wlp env k (foeFwriteByte env.cfg b) (fun failed s' =>
      failed = (foeTake env.cfg i b (s.outside, s.foe)).2 ∧ s'.mb = s.mb ∧
        (s'.outside, s'.foe) = (foeTake env.cfg i b (s.outside, s.foe)).1) s := by
  by_cases hfull : env.cfg.bufferSize ≤ (s.foe.fbufposition + 1) % 2 ^ 16
  · cases hf : env.cfg.files[i]? with
    | none =>
        simp only [foeFwriteByte, foeModify, foeCallWrite, wlp_bind, wlp_modify, wlp_get, wlp_ask,
          hfull, if_true, hfile, hf, wlp_fault]
    | some f =>
        simp only [foeFwriteByte, foeTake, FoeCfg.writeFunction, foeModify, foeCallWrite,
          foeModifyFile, wlp_bind, wlp_modify, wlp_get, wlp_ask, wlp_pure, hfull, if_true, hfile,
          hf, wlp_transact]
        exact ⟨trivial, trivial, trivial⟩
  · simp only [foeFwriteByte, foeTake, foeModify, wlp_bind, wlp_modify, wlp_get, wlp_pure, hfull,
      if_false]
    exact ⟨trivial, trivial, trivial⟩

/-- File `i` takes `length` bytes from address `data` on: it does not end before, and no write of a
full buffer fails. -/
def FoeTakes (cfg : FoeCfg σ) (i : ℕ) (mbx : ByteStore) : ℕ → ℕ → σ × Foe → Prop
  | 0, _, _ => True
  | length + 1, data, c =>
      c.2.fend ≠ c.2.fposition ∧ (foeTake cfg i (mbx data) c).2 = false ∧
        FoeTakes cfg i mbx length (data + 1) (foeTake cfg i (mbx data) c).1

lemma foeTake_file (cfg : FoeCfg σ) (i : ℕ) (b : Byte) (c : σ × Foe) :
    (foeTake cfg i b c).1.2.file = c.2.file := by
  rw [foeTake]
  split <;> rfl

/-- All bytes are copied if the file takes them, and none if it does not take the first. -/
lemma foeFwriteLoop_takes {i : ℕ} (length data ncopied : ℕ) (s : FoeMem σ)
    (hfile : s.foe.file = some i) :
    wlp env k (foeFwriteLoop env.cfg length data ncopied) (fun n s' => s'.mb = s.mb ∧
      (FoeTakes env.cfg i s.mb.mbx length data (s.outside, s.foe) → n = ncopied + length) ∧
      (¬ FoeTakes env.cfg i s.mb.mbx 1 data (s.outside, s.foe) → n = ncopied)) s := by
  induction length generalizing data ncopied s with
  | zero =>
      rw [foeFwriteLoop, wlp_pure]
      exact ⟨rfl, fun _ => rfl, fun _ => rfl⟩
  | succ length ih =>
      rw [foeFwriteLoop, wlp_bind, wlp_get, wlp_ite]
      refine ⟨fun hend => ?_, fun hend => ?_⟩
      · rw [wlp_pure]
        exact ⟨rfl, fun htakes => (htakes.1 hend).elim, fun _ => rfl⟩
      · refine (foeFwriteByte_take hfile _).bind fun failed s₁ ⟨hfailed, hmb, hnext⟩ => ?_
        refine (wlp_ite _ _ _ _).mpr ⟨fun htrue => ?_, fun hfalse => ?_⟩
        · rw [wlp_pure]
          rw [hfailed] at htrue
          refine ⟨hmb, fun htakes => ?_, fun _ => rfl⟩
          rw [htakes.2.1] at htrue
          cases htrue
        · rw [hfailed, Bool.not_eq_true] at hfalse
          have hfile₁ : s₁.foe.file = some i := by
            have := congrArg (fun c => c.2.file) hnext
            rw [foeTake_file] at this
            exact this.trans hfile
          refine (ih (data + 1) (ncopied + 1) s₁ hfile₁).mono fun n s' ⟨hmb', hall, _⟩ => ?_
          refine ⟨hmb'.trans hmb, fun htakes => ?_, fun hnone => ?_⟩
          · rw [hmb, hnext] at hall
            rw [hall htakes.2.2]
            omega
          · exact (hnone ⟨hend, hfalse, trivial⟩).elim

/-- The server as it starts to copy a packet. -/
def Foe.copying (v : Foe) : Foe := { v with fprevposition := v.fposition }

/-- The current file takes a part of a packet of `size` bytes, but not all of it. -/
def FoeMem.TakesPart (cfg : FoeCfg σ) (s : FoeMem σ) (size : ℕ) : Prop :=
  ∃ i, s.foe.file = some i ∧
    FoeTakes cfg i s.mb.mbx 1 foeDataOffset (s.outside, s.foe.copying) ∧
    ¬ FoeTakes cfg i s.mb.mbx size foeDataOffset (s.outside, s.foe.copying)

/-- Without a current file nothing is written, and then the code has no meaning. -/
lemma foeFwriteLoop_none (length data ncopied : ℕ) (s : FoeMem σ) (hfile : s.foe.file = none) :
    wlp env k (foeFwriteLoop env.cfg length data ncopied) (fun _ s' => s'.foe.file = none) s := by
  induction length generalizing data ncopied s with
  | zero =>
      rw [foeFwriteLoop, wlp_pure]
      exact hfile
  | succ length ih =>
      have byte : wlp env k (foeFwriteByte env.cfg (s.mb.mbx data))
          (fun _ s' => s'.foe.file = none) s := by
        by_cases hfull : env.cfg.bufferSize ≤ (s.foe.fbufposition + 1) % 2 ^ 16
        · simp only [foeFwriteByte, foeModify, foeCallWrite, wlp_bind, wlp_modify, wlp_get, wlp_ask,
            hfull, if_true, hfile, wlp_fault]
        · simp only [foeFwriteByte, foeModify, wlp_bind, wlp_modify, wlp_get, wlp_pure, hfull,
            if_false]
          exact hfile
      rw [foeFwriteLoop, wlp_bind, wlp_get, wlp_ite]
      refine ⟨fun _ => (wlp_pure _ _).mpr hfile, fun _ => byte.bind fun failed s₁ hfile₁ => ?_⟩
      exact (wlp_ite _ _ _ _).mpr ⟨fun _ => (wlp_pure _ _).mpr hfile₁, fun _ => ih _ _ _ hfile₁⟩

/-- What is copied of a packet. -/
lemma foeFwrite_copies (size : ℕ) :
    wlp env k (foeFwrite size) (fun n s' => s'.mb = s.mb ∧
      (¬ s.TakesPart env.cfg size → n = 0 ∨ n = size)) s := by
  rw [foeFwrite, wlp_bind, foeModify, wlp_modify, wlp_bind, wlp_ask]
  change wlp env k _ _ { s with foe := s.foe.copying }
  by_cases hfile : s.foe.file = none
  · refine (foeFwriteLoop_none size _ 0 { s with foe := s.foe.copying } hfile).bind
      fun n s₁ hfile₁ => ?_
    rw [foeModifyFile, wlp_bind, wlp_get_bind, hfile₁]
    exact wlp_fault _ _
  · obtain ⟨i, hi⟩ := Option.ne_none_iff_exists'.mp hfile
    refine (foeFwriteLoop_takes size _ 0 { s with foe := s.foe.copying } hi).bind
      fun n s₁ ⟨hmb, hall, hnone⟩ => ?_
    refine (foeModifyFile_keepsFoeMb _ env k s₁).bind fun _ s₂ hmb₂ => ?_
    rw [wlp_pure]
    refine ⟨hmb₂.trans hmb, fun hpart => ?_⟩
    by_cases hfirst : FoeTakes env.cfg i s.mb.mbx 1 foeDataOffset (s.outside, s.foe.copying)
    · by_cases htakes : FoeTakes env.cfg i s.mb.mbx size foeDataOffset (s.outside, s.foe.copying)
      · exact .inr ((hall htakes).trans (Nat.zero_add _))
      · exact (hpart ⟨i, hi, hfirst, htakes⟩).elim
    · exact .inl (hnone hfirst)

/-- A packet of full size of which the current file takes a part. -/
def FoeMem.PartOfFull (cfg : FoeCfg σ) (s : FoeMem σ) : Prop :=
  let size := sub32 (s.mb.headerLength 0).toNat escFoehsize
  size = s.mb.foeDataSize ∧ s.foe.foestate = .waitForData ∧ s.mb.foeNumber = s.foe.foepacket ∧
    size ≠ 0 ∧ (s.foe.fposition + size) % 2 ^ 32 ≤ s.foe.fend ∧ s.TakesPart cfg size

/-- An answer that is the only one. -/
lemma posts_once {m : OnFoe σ Unit} {p : Prop}
    (hm : wlp env k m (fun _ s' => Posts env.opts 1 m₀ s'.mb) s) :
    wlp env k m (fun _ s' => Posts env.opts 2 m₀ s'.mb ∧ (p → Posts env.opts 1 m₀ s'.mb)) s :=
  hm.mono fun _ _ h' => ⟨h'.mono (by omega), fun _ => h'⟩

/-- An acknowledgement, or an abort if there is no buffer for it. -/
lemma foeSendAck_or_abort_posts (h : Posts env.opts j m₀ s.mb) :
    wlp env k (do
      let res ← foeSendAck
      when (res ≠ 0) (foeAbort res)) (fun _ s' => Posts env.opts (j + 1) m₀ s'.mb) s :=
  (foeSendAck_posts h).bind fun _ _ h' =>
    wlp.when (fun hne => foeAbort_posts (h'.2 hne) _) fun hzero => h'.1 (not_not.mp hzero)

/-- A last acknowledgement. -/
lemma foeSendAck_init_posts (h : Posts env.opts j m₀ s.mb) :
    wlp env k (do
      let _ ← foeSendAck
      foeInit) (fun _ s' => Posts env.opts (j + 1) m₀ s'.mb) s := by
  refine (foeSendAck_posts h).bind fun res s' h' => foeInit_posts ?_
  by_cases hzero : res = 0
  · exact h'.1 hzero
  · exact (h'.2 hzero).mono (Nat.le_succ j)

lemma foeWrite_posts (h : Posts env.opts 0 m₀ s.mb) :
    wlp env k foeWrite (fun _ s' => Posts env.opts 1 m₀ s'.mb) s := by
  rw [foeWrite, wlp_bind, wlp_get]
  refine (wlp_ite _ _ _ _).mpr ⟨fun _ => foeAbort_posts h _, fun _ => ?_⟩
  refine (foeInit_posts h).bind fun _ s₁ h₁ => ?_
  rw [wlp_bind, wlp_get]
  refine (foeFopen_keepsFoeMb _ _ env k s₁).bind fun res s₂ hmb₂ => ?_
  have h₂ : Posts env.opts 0 m₀ s₂.mb := h₁.fill (by rw [hmb₂])
  refine (wlp_ite _ _ _ _).mpr ⟨fun _ => ?_, fun _ => foeAbort_posts h₂ _⟩
  refine (foeSendAck_posts h₂).bind fun res s₃ h₃ => ?_
  refine (wlp_ite _ _ _ _).mpr ⟨fun hne => foeAbort_posts (h₃.2 hne) _, fun hzero => ?_⟩
  rw [foeModify, wlp_modify]
  exact h₃.1 (not_not.mp hzero)

/-- A packet that is taken in part is answered twice if it is of full size, and every other
packet once. -/
lemma foeDataAccepted_posts (h : Posts env.opts 0 m₀ s.mb) (size : ℕ) :
    wlp env k (foeDataAccepted size) (fun _ s' => Posts env.opts 2 m₀ s'.mb ∧
      (¬ (size = s.mb.foeDataSize ∧ s.TakesPart env.cfg size) → Posts env.opts 1 m₀ s'.mb)) s := by
  refine (foeFwrite_copies size).bind fun n s₁ ⟨hmb₁, hcopied⟩ => ?_
  have h₁ : Posts env.opts 0 m₀ s₁.mb := h.fill (by rw [hmb₁])
  refine (wlp_ite _ _ _ _).mpr ⟨fun _ => posts_once (foeAbort_posts h₁ _), fun hsome => ?_⟩
  rw [wlp_bind, wlp_get]
  refine (wlp_ite _ _ _ _).mpr ⟨fun hfull => ?_, fun _ => ?_⟩
  · rw [hmb₁] at hfull
    rw [wlp_bind]
    refine wlp.when (fun hpart => ?_) fun hall => posts_once (foeSendAck_or_abort_posts h₁)
    refine (foeAbort_posts h₁ _).mono fun _ s₂ h₂ => (foeSendAck_or_abort_posts h₂).mono
      fun _ s₃ h₃ => ⟨h₃, ?_⟩
    intro hnot
    rcases hcopied fun htakes => hnot ⟨hfull, htakes⟩ with hzero | hsize
    · exact (hsome hzero).elim
    · exact (hpart hsize).elim
  · refine (wlp_ite _ _ _ _).mpr ⟨fun _ => posts_once (foeAbort_posts h₁ _), fun _ => ?_⟩
    refine (foeFclose_keepsFoeMb env k s₁).bind fun failed s₂ hmb₂ => ?_
    have h₂ : Posts env.opts 0 m₀ s₂.mb := h₁.fill (by rw [hmb₂])
    exact (wlp_ite _ _ _ _).mpr ⟨fun _ => posts_once (foeAbort_posts h₂ _),
      fun _ => posts_once (foeSendAck_init_posts h₂)⟩

lemma foeData_posts (h : Posts env.opts 0 m₀ s.mb) :
    wlp env k foeData (fun _ s' => Posts env.opts 2 m₀ s'.mb ∧
      (¬ s.PartOfFull env.cfg → Posts env.opts 1 m₀ s'.mb)) s := by
  rw [foeData, wlp_bind, wlp_get]
  refine (wlp_ite _ _ _ _).mpr ⟨fun _ => posts_once (foeAbort_posts h _), fun hwaits => ?_⟩
  refine (wlp_ite _ _ _ _).mpr ⟨fun _ => posts_once (foeAbort_posts h _), fun hnumber => ?_⟩
  refine (wlp_ite _ _ _ _).mpr ⟨fun _ => posts_once ?_, fun hsize => ?_⟩
  · refine (foeFclose_keepsFoeMb env k s).bind fun failed s₁ hmb₁ => ?_
    have h₁ : Posts env.opts 0 m₀ s₁.mb := h.fill (by rw [hmb₁])
    exact foeSendAck_init_posts h₁
  refine (wlp_ite _ _ _ _).mpr ⟨fun _ => posts_once (foeAbort_posts h _), fun hroom => ?_⟩
  refine (foeDataAccepted_posts h _).mono fun _ s' h' => ⟨h'.1, fun hnot => h'.2 fun hpart => ?_⟩
  exact hnot ⟨hpart.1, not_not.mp hwaits, not_not.mp hnumber, hsize, Nat.not_lt.mp hroom, hpart.2⟩

/-- The message in the inbox is a packet of FoE data that is answered twice. -/
def FoeMem.AnsweredTwice (cfg : FoeCfg σ) (s : FoeMem σ) : Prop :=
  escFoehsize ≤ (s.mb.headerLength 0).toNat ∧ s.mb.foeOpcode = foeOpData ∧ s.PartOfFull cfg

lemma foeDispatch_posts (h : Posts env.opts 0 m₀ s.mb) :
    wlp env k (foeDispatch s.mb) (fun _ s' => Posts env.opts 2 m₀ s'.mb ∧
      (¬ s.AnsweredTwice env.cfg → Posts env.opts 1 m₀ s'.mb)) s := by
  rw [foeDispatch, wlp_ite]
  refine ⟨fun _ => posts_once (foeAbort_posts h _), fun hlong => ?_⟩
  refine (wlp_ite _ _ _ _).mpr ⟨fun _ => posts_once (foeWrite_posts h), fun _ => ?_⟩
  refine (wlp_ite _ _ _ _).mpr ⟨fun hdata => ?_, fun _ => ?_⟩
  · refine (foeData_posts h).mono fun _ s' h' => ⟨h'.1, fun hnot => h'.2 fun hpart => ?_⟩
    exact hnot ⟨Nat.not_lt.mp hlong, hdata, hpart⟩
  · exact (wlp_ite _ _ _ _).mpr ⟨fun _ => posts_once (foeAbort_posts h _),
      fun _ => posts_once (foeAbort_posts h _)⟩

/-- What a protocol that takes its messages whole may do in a pass: nothing, or answer the
message and give the inbox back. -/
def Mailbox.WholePass (opts : Options) (twice : Prop) (m m' : Mailbox) : Prop :=
  m' = m ∨ m'.Free ∧ Posts opts 2 m m' ∧ (¬ twice → Posts opts 1 m m')

/-- A pass of `ESC_foeprocess` keeps the ledger. -/
lemma escFoeprocess_pass :
    wlp env k escFoeprocess (fun _ s' =>
      WholePass env.opts (s.AnsweredTwice env.cfg) s.mb s'.mb) s := by
  rw [escFoeprocess, wlp_bind, wlp_get]
  refine wlp.when (fun hrun => ?_) fun _ => .inl rfl
  rw [wlp_bind, wlp_get]
  have answer {m : Mailbox} (hm : m = s.mb ∨ m = { s.mb with xoe := mbxfoe }) :
      wlp env k (do
        foeDispatch m
        foeModifyMb fun m => { m.setControl 0 .idle with xoe := 0 })
        (fun _ s' => WholePass env.opts (s.AnsweredTwice env.cfg) s.mb s'.mb)
        { s with mb := m } := by
    have hposts : Posts env.opts 0 s.mb m := by
      rcases hm with rfl | rfl
      · exact .refl _ _
      · exact (Posts.refl _ _).fill rfl
    have htwice : FoeMem.AnsweredTwice env.cfg { s with mb := m } ↔ s.AnsweredTwice env.cfg := by
      rcases hm with rfl | rfl
      · exact Iff.rfl
      · exact Iff.rfl
    refine (foeDispatch_posts (s := { s with mb := m }) hposts).bind fun _ s' h' => ?_
    rw [wlp_foeModifyMb]
    exact .inr ⟨s'.mb.release_free, h'.1.release, fun hnot => (h'.2 (mt htwice.mp hnot)).release⟩
  rw [wlp_bind, wlp_when]
  refine ⟨fun _ => ?_, fun _ => ?_⟩
  · rw [wlp_foeModifyMb, wlp_bind, wlp_get]
    exact wlp.when (fun _ => answer (.inr rfl)) fun hother => (hother rfl).elim
  · rw [wlp_bind, wlp_get]
    exact wlp.when (fun _ => answer (.inl rfl)) fun _ => .inl rfl

end foe

/-! ## EoE -/

section eoe

variable {env : EoeEnv σ} {s : EoeMem σ} {j : ℕ}

lemma wlp_eoeModifyMb (f : Mailbox → Mailbox) (Q : Unit → EoeMem σ → Prop) :
    wlp env k (eoeModifyMb f) Q s ↔ Q () { s with mb := f s.mb } :=
  wlp_modify _ _

lemma eoeNoDataResponse_posts (h : Posts env.opts j m₀ s.mb) (frameinfo1 result : Word) :
    wlp env k (eoeNoDataResponse frameinfo1 result)
      (fun _ s' => Posts env.opts (j + 1) m₀ s'.mb) s := by
  refine wlp_claim_posts h ?_ fun n hn hqueue => ?_
  · exact wlp.when (fun hne => (hne rfl).elim) fun _ => h.mono (Nat.le_succ j)
  · refine wlp.when (fun _ => ?_) fun hzero => (hzero hn).elim
    rw [wlp_eoeModifyMb]
    exact hqueue _ rfl

/-- The mailboxes are the same. -/
abbrev SameEoeMb (s s' : EoeMem σ) : Prop := s'.mb = s.mb

instance : Std.Refl (SameEoeMb (σ := σ)) := ⟨fun _ => rfl⟩

instance : IsTrans (EoeMem σ) SameEoeMb := ⟨fun _ _ _ h h' => h'.trans h⟩

lemma eoeModify_keepsEoeMb (f : Eoe → Eoe) : Keeps (SameEoeMb (σ := σ)) (eoeModify f) :=
  .modify fun _ => rfl

lemma eoeInitRx_keepsEoeMb : Keeps (SameEoeMb (σ := σ)) eoeInitRx := by
  refine (eoeModify_keepsEoeMb _).bind fun _ => .ask_bind fun env => ?_
  cases env.cfg.getBuffer with
  | none => exact .pure _
  | some call => exact .get_bind fun _ => .when (.modify fun _ => rfl)

lemma eoeInitTx_keepsEoeMb : Keeps (SameEoeMb (σ := σ)) eoeInitTx := by
  refine (eoeModify_keepsEoeMb _).bind fun _ => .ask_bind fun env => ?_
  cases env.cfg.freeBuffer with
  | none => exact .pure _
  | some call => exact .get_bind fun _ => .when (.modify fun _ => rfl)

lemma eoeReceiveFragment_keepsEoeMb : Keeps (SameEoeMb (σ := σ)) eoeReceiveFragment := by
  have accept (m : Mailbox) : Keeps (SameEoeMb (σ := σ)) (eoeAcceptFragment m) := by
    refine .get_bind fun _ => .ite ?_ (.ite ?_ (.pure _))
    · refine (eoeModify_keepsEoeMb _).bind fun _ => .ite ?_ ?_
      · exact (eoeModify_keepsEoeMb _).bind fun _ => .pure _
      · exact eoeInitRx_keepsEoeMb.bind fun _ => .pure _
    · exact eoeInitRx_keepsEoeMb.bind fun _ => .pure _
  have store (m : Mailbox) : Keeps (SameEoeMb (σ := σ)) (eoeStoreFragment m) := by
    refine .get_bind fun s => .ite ?_ (eoeInitRx_keepsEoeMb.bind fun _ => .pure _)
    cases s.eoe.rxebuf.payload with
    | none => exact fun _ _ _ => wlp_fault _ _
    | some payload => exact (eoeModify_keepsEoeMb _).bind fun _ => .pure _
  have deliver (m : Mailbox) : Keeps (SameEoeMb (σ := σ)) (eoeDeliverFrame m) :=
    .ask_bind fun _ => Keeps.bind (.when (eoeModify_keepsEoeMb _)) fun _ =>
      Keeps.bind (.modify fun _ => rfl) fun _ => eoeInitRx_keepsEoeMb
  refine .get_bind fun _ => .get_bind fun _ => Keeps.bind (.when eoeInitRx_keepsEoeMb) fun _ =>
    .when ((accept _).bind fun accepted => .ite ((store _).bind fun stored => .ite ?_ (.pure _))
      (.pure _))
  exact .when (deliver _)

lemma eoeSetIp_posts (h : Posts env.opts j m₀ s.mb) :
    wlp env k eoeSetIp (fun _ s' => Posts env.opts (j + 1) m₀ s'.mb) s := by
  rw [eoeSetIp, wlp_ask_bind, wlp_bind, wlp_get]
  rw [wlp_ite]
  refine ⟨fun _ => eoeNoDataResponse_posts h _ _, fun _ => ?_⟩
  generalize takeAllParams s.mb.mbx eoeDataOffset s.mb.eoeDataSize (s.mb.mbx eoeDataOffset)
    s.eoe.nicPort = taken
  obtain ⟨p, off⟩ := taken
  refine (eoeModify_keepsEoeMb _ env k s).bind fun _ s₁ hmb₁ => ?_
  refine wlp.bind (P := fun _ s₂ => s₂.mb = s₁.mb) ?_ fun result s₂ hmb₂ => ?_
  · refine (wlp_ite _ _ _ _).mpr ⟨fun _ => (wlp_pure _ _).mpr rfl, fun _ => ?_⟩
    cases env.cfg.storeEthernetSettings with
    | none => exact (wlp_pure _ _).mpr rfl
    | some call => exact (wlp_transact _ _).mpr rfl
  · exact eoeNoDataResponse_posts (h.fill (by rw [hmb₂, hmb₁])) _ _

lemma eoeGetIp_posts (h : Posts env.opts j m₀ s.mb) :
    wlp env k eoeGetIp (fun _ s' => Posts env.opts (j + 1) m₀ s'.mb) s := by
  rw [eoeGetIp, wlp_ask_bind, wlp_bind, wlp_get]
  refine (wlp_ite _ _ _ _).mpr ⟨fun _ => eoeNoDataResponse_posts h _ _, fun _ => ?_⟩
  cases env.cfg.loadEthSettings
  case' some call => rw [wlp_bind, wlp_modify]
  all_goals
    refine wlp_claim_posts (j := j) h ?_ fun n hn hqueue => ?_
    · exact wlp.when (fun hne => (hne rfl).elim) fun _ => h.mono (Nat.le_succ j)
    · refine wlp.when (fun _ => ?_) fun hzero => (hzero hn).elim
      rw [wlp_bind, wlp_get, wlp_eoeModifyMb]
      exact (hqueue _ rfl).fill rfl

lemma eoeDispatch_posts (h : Posts env.opts 0 m₀ s.mb) :
    wlp env k (eoeDispatch s.mb) (fun _ s' => Posts env.opts 1 m₀ s'.mb) s := by
  rw [eoeDispatch, wlp_ite]
  refine ⟨fun _ => eoeNoDataResponse_posts h _ _, fun _ => ?_⟩
  refine (wlp_ite _ _ _ _).mpr ⟨fun _ => ?_, fun _ => ?_⟩
  · refine (eoeReceiveFragment_keepsEoeMb env k s).mono fun _ s' hmb => ?_
    exact (h.fill (by rw [hmb])).mono (Nat.zero_le _)
  · exact (wlp_ite _ _ _ _).mpr ⟨fun _ => eoeSetIp_posts h, fun _ =>
      (wlp_ite _ _ _ _).mpr ⟨fun _ => eoeGetIp_posts h, fun _ => eoeNoDataResponse_posts h _ _⟩⟩

/-- A pass of `ESC_eoeprocess` keeps the ledger. -/
lemma escEoeprocess_pass :
    wlp env k escEoeprocess (fun _ s' => WholePass env.opts False s.mb s'.mb) s := by
  rw [escEoeprocess, wlp_bind, wlp_get]
  refine wlp.when (fun hrun => ?_) fun _ => .inl rfl
  rw [wlp_bind, wlp_get]
  have answer {m : Mailbox} (hm : m = s.mb ∨ m = { s.mb with xoe := mbxeoe }) :
      wlp env k (do
        eoeDispatch m
        eoeModifyMb fun m => { m.setControl 0 .idle with xoe := 0 })
        (fun _ s' => WholePass env.opts False s.mb s'.mb) { s with mb := m } := by
    have hposts : Posts env.opts 0 s.mb m := by
      rcases hm with rfl | rfl
      · exact .refl _ _
      · exact (Posts.refl _ _).fill rfl
    refine (eoeDispatch_posts (s := { s with mb := m }) hposts).bind fun _ s' h' => ?_
    rw [wlp_eoeModifyMb]
    exact .inr ⟨s'.mb.release_free, h'.release.mono (by omega), fun _ => h'.release⟩
  rw [wlp_bind, wlp_when]
  refine ⟨fun _ => ?_, fun _ => ?_⟩
  · rw [wlp_eoeModifyMb, wlp_bind, wlp_get]
    exact wlp.when (fun _ => answer (.inr rfl)) fun hother => (hother rfl).elim
  · rw [wlp_bind, wlp_get]
    exact wlp.when (fun _ => answer (.inl rfl)) fun _ => .inl rfl

/-- The application is told of a fragment. -/
lemma fragmentSentEvent_posts {s : EoeMem σ} (h : Posts env.opts j m₀ s.mb) :
    wlp env k (match env.cfg.fragmentSentEvent with
      | none => pure ()
      | some call => modify fun s => { s with outside := call s.outside } : OnEoe σ Unit)
      (fun _ s' => Posts env.opts j m₀ s'.mb) s := by
  cases env.cfg.fragmentSentEvent with
  | none => exact (wlp_pure _ _).mpr h
  | some call => exact (wlp_modify _ _).mpr h

/-- A fragment is queued in the buffer claimed for it. -/
lemma eoePutFragment_posts {n : ℕ} (hqueue : ∀ m' : Mailbox, m'.books = s.mb.books →
    Posts env.opts j m₀ (m'.setControl n .outreq)) :
    wlp env k (eoePutFragment n) (fun _ s' => Posts env.opts j m₀ s'.mb) s := by
  rw [eoePutFragment, wlp_ask_bind, wlp_bind, eoeModify, wlp_modify, wlp_bind, wlp_get]
  refine (wlp_ite _ _ _ _).mpr ⟨fun _ => wlp_fault _ _, fun _ => ?_⟩
  rw [wlp_bind, wlp_eoeModifyMb]
  refine (wlp_ite _ _ _ _).mpr ⟨fun _ => ?_, fun _ => ?_⟩
  · refine (eoeInitTx_keepsEoeMb env k _).bind fun _ s' hmb => fragmentSentEvent_posts ?_
    rw [hmb]
    exact hqueue _ rfl
  · refine (eoeModify_keepsEoeMb _ env k _).bind fun _ s' hmb => fragmentSentEvent_posts ?_
    rw [hmb]
    exact hqueue _ rfl

/-- `ESC_eoeprocess_tx` queues one fragment of a frame of the application at most. -/
lemma escEoeprocessTx_posts (h : Posts env.opts j m₀ s.mb) :
    wlp env k escEoeprocessTx (fun _ s' => Posts env.opts (j + 1) m₀ s'.mb) s := by
  have fetch : Keeps (SameEoeMb (σ := σ)) eoeFetchFrame :=
    .ask_bind fun _ => .get_bind fun _ => .ite (.pure _) <|
      Keeps.bind (.transact fun _ _ => rfl) fun _ =>
        Keeps.bind (.when (eoeModify_keepsEoeMb _)) fun _ => .pure _
  rw [escEoeprocessTx, wlp_bind, wlp_get]
  refine wlp.when (fun _ => ?_) fun _ => h.mono (Nat.le_succ j)
  refine (fetch env k s).bind fun some s₁ hmb₁ => ?_
  have h₁ : Posts env.opts j m₀ s₁.mb := h.fill (by rw [hmb₁])
  refine (wlp_ite _ _ _ _).mpr ⟨fun _ => ?_, fun _ => (wlp_pure _ _).mpr (h₁.mono (Nat.le_succ j))⟩
  refine wlp_claim_posts h₁ ?_ fun n hn hqueue => ?_
  · exact wlp.when (fun hne => (hne rfl).elim) fun _ => h₁.mono (Nat.le_succ j)
  · refine wlp.when (fun _ => ?_) fun hzero => (hzero hn).elim
    exact eoePutFragment_posts fun m' hbooks => hqueue m' hbooks

end eoe

/-! ## The handler of last resort -/

section xoe

variable {opts : Options} {m : Mailbox}

lemma mbxError_posts (error : Word) :
    wlp opts k (mbxError error) (fun _ m' => Posts opts 1 m m') m := by
  refine wlp_claimed_self (.refl opts m) ?_ fun n hn hclaim => ?_
  · exact wlp.when (fun hne => (hne rfl).elim) fun _ => (Posts.refl _ _).mono (Nat.zero_le _)
  · refine wlp.when (fun _ => ?_) fun hzero => (hzero hn).elim
    rw [wlp_modify]
    exact ⟨[n], hclaim.fill_post rfl, Nat.le_refl _, rfl⟩

/-- A pass of `ESC_xoeprocess` keeps the ledger. -/
lemma escXoeprocess_pass :
    wlp opts k escXoeprocess (fun _ m' => WholePass opts False m m') m := by
  rw [escXoeprocess, wlp_bind, wlp_get]
  refine wlp.when (fun huntaken => ?_) fun _ => .inl rfl
  have answer (error : Word) : wlp opts k (do
      mbxError error
      modify fun m => m.setControl 0 .idle) (fun _ m' => WholePass opts False m m') m := by
    refine ((mbxError_posts error).and (mbxError_keepsXoe error opts k m)).bind
      fun _ m' hthen => ?_
    obtain ⟨hposts, hxoe⟩ := hthen
    rw [wlp_modify]
    refine .inr ⟨⟨by simp [setControl], hxoe.trans huntaken.2.1⟩, ?_, fun _ => hposts.idle⟩
    exact hposts.idle.mono (by omega)
  exact (wlp_ite _ _ _ _).mpr ⟨fun _ => answer _, fun _ => answer _⟩

/-- An application that claims a buffer has it in hand, if there is one. -/
lemma escClaimbuffer_ledger :
    wlp opts k escClaimbuffer (fun n m' => n = 0 ∧ m' = m ∨ m' = m.claim n ∧
      Ledger opts m m' [n] []) m := by
  rw [← bind_pure escClaimbuffer]
  refine wlp_claimed_self (.refl opts m) ?_ fun n hn hclaim => ?_
  · exact (wlp_pure _ _).mpr (.inl ⟨rfl, rfl⟩)
  · exact (wlp_pure _ _).mpr (.inr ⟨rfl, hclaim⟩)

end xoe

/-! ## Calls -/

lemma Mailbox.Posts.exists_ledger {opts : Options} {j : ℕ} {m m' : Mailbox}
    (h : Posts opts j m m') : ∃ held posted, Ledger opts m m' held posted := by
  obtain ⟨posted, hledger, -⟩ := h
  exact ⟨[], posted, hledger⟩

lemma Mailbox.WholePass.exists_ledger {opts : Options} {twice : Prop} {m m' : Mailbox}
    (h : WholePass opts twice m m') : ∃ held posted, Ledger opts m m' held posted := by
  rcases h with rfl | ⟨-, hposts, -⟩
  · exact ⟨[], [], .refl _ _⟩
  · exact hposts.exists_ledger

/-- The calls that do nothing to the mailboxes but claim buffers and queue them, give the inbox back
and hold a download back. -/
def DeviceCall.claims : DeviceCall σ → Prop
  | .call .coeprocess | .call .xoeprocess => True
  | .foeprocess | .eoeprocess | .eoeprocessTx | .claimbuffer => True
  | _ => False

/-- The protocols keep the ledger. -/
lemma DeviceCall.exists_ledger {sys : DeviceSystem σ} {c : DeviceCall σ} (hc : c.claims) (k : ℕ)
    (d : Device σ) : wlp sys k c.run (fun _ d' => ∃ held posted,
      Ledger sys.sys.opts d.world.mb d'.world.mb held posted) d := by
  cases c with
  | foeprocess =>
      exact (wlp_within _ _ _ _).mpr (escFoeprocess_pass.mono fun _ _ h => h.exists_ledger)
  | eoeprocess =>
      exact (wlp_within _ _ _ _).mpr (escEoeprocess_pass.mono fun _ _ h => h.exists_ledger)
  | eoeprocessTx =>
      refine (wlp_within _ _ _ _).mpr ?_
      exact (escEoeprocessTx_posts (Posts.refl _ _)).mono fun _ _ h => h.exists_ledger
  | claimbuffer =>
      rw [DeviceCall.run, wlp_within, wlp_within, wlp_map]
      refine escClaimbuffer_ledger.mono fun n m' h => ?_
      rcases h with ⟨-, rfl⟩ | ⟨rfl, hledger⟩
      · exact ⟨[], [], .refl _ _⟩
      · exact ⟨[n], [], hledger⟩
  | call c =>
      cases c with
      | coeprocess =>
          refine (wlp_within _ _ _ _).mpr ((wlp_within _ _ _ _).mpr ?_)
          refine escCoeprocess_pass.mono fun _ c' h => ?_
          obtain ⟨held, posted, hpass⟩ := h
          exact ⟨held, posted, hpass.ledger⟩
      | xoeprocess =>
          refine (wlp_within _ _ _ _).mpr ((wlp_within _ _ _ _).mpr ?_)
          exact escXoeprocess_pass.mono fun _ _ h => h.exists_ledger
      | _ => exact hc.elim
  | _ => exact hc.elim

end Soes
