import Soes.Properties.Ledger

/-!
# The ledger of the CoE protocol

Every function of `esc_coe.c` that handles a message keeps the ledger: it claims at most one buffer
and queues it before it returns.  There is one place where it does not, the last segment of a
Complete Access download that is refused (`Mailbox.RefusedLast`): the refusal claims a second buffer
and the first stays in hand (`sdoDownloadsegment_ledger`).
-/

namespace Soes

open Program Mailbox

variable {σ : Type} {env : CoeEnv σ} {k : ℕ} {c : Coe σ} {α : Type}

/-! ## Code that leaves the books alone -/

/-- The books are the same. -/
abbrev SameBooks (c c' : Coe σ) : Prop := c'.mb.books = c.mb.books

instance : Std.Refl (SameBooks (σ := σ)) := ⟨fun _ => rfl⟩

instance : IsTrans (Coe σ) SameBooks := ⟨fun _ _ _ h h' => h'.trans h⟩

/-- The code leaves the books alone. -/
abbrev KeepsBooks (m : OnCoe σ α) : Prop := Keeps SameBooks m

lemma fault_keepsBooks (e : Fault) : KeepsBooks (fault e : OnCoe σ α) := fun _ _ _ => wlp_fault _ _

lemma coeMb_keepsBooks : KeepsBooks (σ := σ) coeMb := .get_bind fun _ => .pure _

lemma coeState_keepsBooks : KeepsBooks (σ := σ) coeState := .ask_bind fun _ => .pure _

lemma coeModifyMb_keepsBooks {f : Mailbox → Mailbox} (hf : ∀ m, (f m).books = m.books) :
    KeepsBooks (σ := σ) (coeModifyMb f) := .modify fun c => hf c.mb

lemma sdoStore_keepsBooks (dst len : ℕ) (src : ByteStore) (start : ℕ) :
    KeepsBooks (σ := σ) (sdoStore dst len src start) :=
  .ite (fault_keepsBooks _) (.modify fun _ => rfl)

lemma sdoFill_keepsBooks (dst len : ℕ) : KeepsBooks (σ := σ) (sdoFill dst len) :=
  .ite (fault_keepsBooks _) (sdoStore_keepsBooks _ _ _ _)

lemma sdoLoad_keepsBooks (src len dst : ℕ) : KeepsBooks (σ := σ) (sdoLoad src len dst) :=
  .ite (fault_keepsBooks _) (.modify fun _ => rfl)

lemma headerTail_keepsBooks (length size : ℕ) : KeepsBooks (σ := σ) (headerTail length size) :=
  .transact fun _ _ => rfl

lemma needsSegments_keepsBooks (length size : ℕ) :
    KeepsBooks (σ := σ) (needsSegments length size) :=
  .ite ((headerTail_keepsBooks _ _).bind fun _ => .pure _) (.pure _)

lemma escDownloadPreObjecthandler_keepsBooks (index : Word) (subindex : Byte) (data size : ℕ)
    (flags : Word) :
    KeepsBooks (σ := σ) (escDownloadPreObjecthandler index subindex data size flags) := by
  refine .ask_bind fun env => .get_bind fun c => Keeps.bind (.ite ((Keeps.lift _).map _) (.pure _))
    fun _ => .ite (.pure _) ?_
  cases env.sys.cfg.preObjectDownloadHook with
  | none => exact .pure _
  | some hook => exact .transact fun _ _ => rfl

lemma escDownloadPostObjecthandler_keepsBooks (index : Word) (subindex : Byte) (flags : Word) :
    KeepsBooks (σ := σ) (escDownloadPostObjecthandler index subindex flags) := by
  refine .ask_bind fun env => ?_
  cases env.sys.cfg.postObjectDownloadHook with
  | none => exact .pure _
  | some hook => exact .transact fun _ _ => rfl

lemma escUploadPreObjecthandler_keepsBooks (index : Word) (subindex : Byte) (data size : ℕ)
    (flags : Word) :
    KeepsBooks (σ := σ) (escUploadPreObjecthandler index subindex data size flags) := by
  refine .ask_bind fun env => ?_
  cases env.sys.cfg.preObjectUploadHook with
  | none => exact .pure _
  | some hook => exact .transact fun _ _ => rfl

lemma escUploadPostObjecthandler_keepsBooks (index : Word) (subindex : Byte) (flags : Word) :
    KeepsBooks (σ := σ) (escUploadPostObjecthandler index subindex flags) := by
  refine .ask_bind fun env => ?_
  cases env.sys.cfg.postObjectUploadHook with
  | none => exact .pure _
  | some hook => exact .transact fun _ _ => rfl

lemma caEntry_keepsBooks (mode : CaMode) (d : Objd) (size : ℕ) :
    KeepsBooks (σ := σ) (caEntry mode d size) := by
  have download : ∀ data, KeepsBooks (σ := σ) (caDownloadEntry data d size) := fun _ =>
    coeState_keepsBooks.bind fun _ => .when (sdoStore_keepsBooks _ _ _ _)
  refine .get_bind fun c => ?_
  cases mode with
  | size => exact .pure _
  | upload =>
      exact .ask_bind fun _ => .get_bind fun _ => coeState_keepsBooks.bind fun _ =>
        .ite (sdoStore_keepsBooks _ _ _ _)
          (.ite (sdoStore_keepsBooks _ _ _ _) (sdoStore_keepsBooks _ _ _ _))
  | fromMailbox start => exact download _
  | fromMbxdata => exact .ask_bind fun _ => download _

lemma completeAccessSubindexLoop_keepsBooks (o : Objectlist) (nsub : ℕ) (mode : CaMode)
    (maxBytes : ℕ) : KeepsBooks (σ := σ) (completeAccessSubindexLoop o nsub mode maxBytes) := by
  have rows : ∀ left nsub size,
      KeepsBooks (σ := σ) (caRows o mode maxBytes left nsub size) := by
    intro left
    induction left with
    | zero => exact fun _ _ => .pure _
    | succ left ih =>
        exact fun _ _ => (Keeps.lift _).bind fun _ => (caEntry_keepsBooks _ _ _).bind fun _ =>
          .ite (.pure _) (ih _ _)
  refine (Keeps.lift _).bind fun _ => .ite (.pure _) ?_
  cases mode with
  | size => exact rows _ _ _
  | upload => exact .ask_bind fun _ => (sdoFill_keepsBooks _ _).bind fun _ => rows _ _ _
  | fromMailbox start => exact rows _ _ _
  | fromMbxdata => exact rows _ _ _

variable {m₀ : Mailbox} {held posted : List ℕ} {n : ℕ}

/-- Code that leaves the books alone is passed over. -/
lemma KeepsBooks.carry {β : Type} {m : OnCoe σ α} {f : α → OnCoe σ β} {Q : β → Coe σ → Prop}
    (hm : KeepsBooks m) (h : Ledger env.sys.opts m₀ c.mb held posted)
    (hf : ∀ a c', Ledger env.sys.opts m₀ c'.mb held posted → wlp env k (f a) Q c') :
    wlp env k (m >>= f) Q c :=
  (hm env k c).bind fun a c' hc' => hf a c' (h.fill hc')

/-- So is filling a buffer. -/
lemma fill_carry {β : Type} {f : Mailbox → Mailbox} {g : Unit → OnCoe σ β} {Q : β → Coe σ → Prop}
    (h : Ledger env.sys.opts m₀ c.mb held posted) (hf : ∀ m, (f m).books = m.books)
    (hg : ∀ c', Ledger env.sys.opts m₀ c'.mb held posted → wlp env k (g ()) Q c') :
    wlp env k (coeModifyMb f >>= g) Q c :=
  (coeModifyMb_keepsBooks hf).carry h fun _ => hg

lemma when_fill_carry {β : Type} {p : Prop} [Decidable p] {f : Mailbox → Mailbox}
    {g : Unit → OnCoe σ β} {Q : β → Coe σ → Prop} (h : Ledger env.sys.opts m₀ c.mb held posted)
    (hf : ∀ m, (f m).books = m.books)
    (hg : ∀ c', Ledger env.sys.opts m₀ c'.mb held posted → wlp env k (g ()) Q c') :
    wlp env k (when p (coeModifyMb f) >>= g) Q c :=
  KeepsBooks.carry (.when (coeModifyMb_keepsBooks hf)) h fun _ => hg

/-- A lookup is passed over. -/
lemma wlp_lift_ledger {β : Type} {x : Except Fault α} {f : α → OnCoe σ β} {Q : β → Coe σ → Prop}
    (hf : ∀ a, x = .ok a → wlp env k (f a) Q c) : wlp env k (lift x >>= f) Q c := by
  rw [wlp_bind, wlp_lift]
  exact hf

lemma wlp_coeModifyMb (f : Mailbox → Mailbox) (Q : Unit → Coe σ → Prop) :
    wlp env k (coeModifyMb f) Q c ↔ Q () { c with mb := f c.mb } :=
  wlp_modify _ _

/-! ## Replies -/

/-- A new abort claims a buffer and queues it. -/
lemma sdoAbort_ledger (h : Ledger env.sys.opts m₀ c.mb held []) (index : Word) (subindex : Byte)
    (abortcode : Dword) :
    wlp env k (sdoAbort 0 index subindex abortcode)
      (fun _ c' => Queues env.sys.opts held m₀ c'.mb) c := by
  rw [sdoAbort, if_neg (not_not.mpr rfl)]
  refine wlp_claimed h ?_ fun n hn hclaim => ?_
  · exact wlp.when (fun hne => (hne rfl).elim) fun _ => h.queues (Nat.zero_le _)
  · refine wlp.when (fun _ => ?_) fun hzero => (hzero hn).elim
    rw [wlp_coeModifyMb]
    exact hclaim.fill_post_queues rfl

/-- An abort in a buffer in hand queues it. -/
lemma sdoAbort_reuse (h : Ledger env.sys.opts m₀ c.mb (n :: held) []) (index : Word)
    (subindex : Byte) (abortcode : Dword) :
    wlp env k (sdoAbort n index subindex abortcode)
      (fun _ c' => Queues env.sys.opts held m₀ c'.mb) c := by
  have hne : n ≠ 0 := (h.fresh n (by simp)).1
  rw [sdoAbort, if_pos hne, wlp_bind, wlp_pure]
  refine wlp.when (fun _ => ?_) fun hzero => (hzero hne).elim
  rw [wlp_coeModifyMb]
  exact h.fill_post_queues rfl

/-- An abort in place of a reply that was queued queues it again. -/
lemma sdoAbort_replace (h : Ledger env.sys.opts m₀ c.mb held [n]) (index : Word)
    (subindex : Byte) (abortcode : Dword) :
    wlp env k (sdoAbort n index subindex abortcode)
      (fun _ c' => Queues env.sys.opts held m₀ c'.mb) c := by
  have hne : n ≠ 0 := (h.fresh n (by simp)).1
  rw [sdoAbort, if_pos hne, wlp_bind, wlp_pure]
  refine wlp.when (fun _ => ?_) fun hzero => (hzero hne).elim
  rw [wlp_coeModifyMb]
  exact h.repost_queues rfl

lemma release_exits (h : Queues env.sys.opts held m₀ c.mb) :
    wlp env k (coeModifyMb .release) (fun _ c' => Exits env.sys.opts held m₀ c'.mb) c := by
  rw [wlp_coeModifyMb]
  exact h.release

lemma setStateIdle_ledger (h : Ledger env.sys.opts m₀ c.mb held []) (index : Word)
    (subindex : Byte) (abortcode : Dword) :
    wlp env k (setStateIdle 0 index subindex abortcode)
      (fun _ c' => Exits env.sys.opts held m₀ c'.mb) c := by
  rw [setStateIdle]
  refine wlp.bind (wlp.when (fun _ => sdoAbort_ledger h _ _ _) fun _ => ?_) fun _ _ => release_exits
  exact h.queues (Nat.zero_le _)

lemma setStateIdle_reuse (h : Ledger env.sys.opts m₀ c.mb (n :: held) []) (index : Word)
    (subindex : Byte) {abortcode : Dword} (habort : abortcode ≠ 0) :
    wlp env k (setStateIdle n index subindex abortcode)
      (fun _ c' => Exits env.sys.opts held m₀ c'.mb) c := by
  rw [setStateIdle, when, if_pos habort]
  exact (sdoAbort_reuse h _ _ _).bind fun _ _ => release_exits

/-- Without an abort code nothing is queued any more. -/
lemma setStateIdle_none (h : Queues env.sys.opts held m₀ c.mb) (reusembx : ℕ) (index : Word)
    (subindex : Byte) :
    wlp env k (setStateIdle reusembx index subindex 0)
      (fun _ c' => Exits env.sys.opts held m₀ c'.mb) c := by
  rw [setStateIdle, when, if_neg (not_not.mpr rfl), wlp_bind, wlp_pure]
  exact release_exits h

lemma downloadResponse_ledger (h : Ledger env.sys.opts m₀ c.mb (n :: held) []) (command : Byte)
    (index : Word) (subindex : Byte) :
    wlp env k (downloadResponse n command index subindex)
      (fun _ c' => Ledger env.sys.opts m₀ c'.mb held [n]) c := by
  rw [downloadResponse, wlp_coeModifyMb]
  exact h.fill_post rfl

/-- The reply of an upload is queued, as it is or as an abort. -/
lemma finishUpload_ledger (h : Ledger env.sys.opts m₀ c.mb (n :: held) []) (index : Word)
    (subindex : Byte) (flags : Word) :
    wlp env k (finishUpload n index subindex flags)
      (fun _ c' => Exits env.sys.opts held m₀ c'.mb) c := by
  refine coeMb_keepsBooks.carry h fun m c₁ h₁ => ?_
  have hook : KeepsBooks (σ := σ) (if m.segmented = 0 then
      escUploadPostObjecthandler index subindex flags else pure 0) :=
    .ite (escUploadPostObjecthandler_keepsBooks _ _ _) (.pure _)
  refine hook.carry h₁ fun abort c₂ h₂ => ?_
  refine (wlp_ite _ _ _ _).mpr ⟨fun habort => setStateIdle_reuse h₂ _ _ habort, fun _ => ?_⟩
  rw [wlp_bind, wlp_coeModifyMb]
  exact release_exits (h₂.post.queues (Nat.le_refl _))

/-! ## Upload -/

lemma sdoUploadExpedited_ledger (h : Ledger env.sys.opts m₀ c.mb (n :: held) []) (index : Word)
    (subindex : Byte) (d : Objd) :
    wlp env k (sdoUploadExpedited n index subindex d)
      (fun _ c' => Exits env.sys.opts held m₀ c'.mb) c := by
  refine fill_carry h (fun _ => rfl) fun c₁ h₁ => ?_
  refine (escUploadPreObjecthandler_keepsBooks _ _ _ _ _).carry h₁ fun ⟨abort, size⟩ c₂ h₂ => ?_
  refine (wlp_ite _ _ _ _).mpr ⟨fun habort => setStateIdle_reuse h₂ _ _ habort, fun _ => ?_⟩
  refine (wlp_ite _ _ _ _).mpr ⟨fun _ => ?_, fun _ => ?_⟩
  · exact fill_carry h₂ (fun _ => rfl) fun c₃ h₃ =>
      finishUpload_ledger h₃ _ _ _
  · exact coeMb_keepsBooks.carry h₂ fun _ c₃ h₃ => (sdoLoad_keepsBooks _ _ _).carry h₃
      fun _ c₄ h₄ => finishUpload_ledger h₄ _ _ _

lemma sdoUploadNormal_ledger (h : Ledger env.sys.opts m₀ c.mb (n :: held) []) (index : Word)
    (subindex : Byte) (d : Objd) :
    wlp env k (sdoUploadNormal n index subindex d)
      (fun _ c' => Exits env.sys.opts held m₀ c'.mb) c := by
  refine (escUploadPreObjecthandler_keepsBooks _ _ _ _ _).carry h fun ⟨abort, size⟩ c₁ h₁ => ?_
  refine (wlp_ite _ _ _ _).mpr ⟨fun habort => setStateIdle_reuse h₁ _ _ habort, fun _ => ?_⟩
  refine fill_carry h₁ (fun _ => rfl) fun c₂ h₂ => ?_
  refine coeMb_keepsBooks.carry h₂ fun m c₃ h₃ => ?_
  refine (wlp_ite _ _ _ _).mpr ⟨fun _ => ?_, fun _ => ?_⟩
  all_goals
    exact fill_carry h₃ (fun _ => rfl) fun c₄ h₄ =>
      fill_carry h₄ (fun _ => rfl) fun c₅ h₅ =>
        (sdoLoad_keepsBooks _ _ _).carry h₅ fun _ c₆ h₆ => finishUpload_ledger h₆ _ _ _

lemma sdoUpload_ledger (h : Ledger env.sys.opts m₀ c.mb held []) :
    wlp env k sdoUpload (fun _ c' => Exits env.sys.opts held m₀ c'.mb) c := by
  refine coeMb_keepsBooks.carry h fun m c₁ h₁ => ?_
  rw [wlp_bind, wlp_coeTable]
  refine wlp_lift_ledger fun r _ => ?_
  cases r with
  | error abort => exact setStateIdle_ledger h₁ _ _ _
  | ok d =>
      refine coeState_keepsBooks.carry h₁ fun _ c₂ h₂ => ?_
      refine (wlp_ite _ _ _ _).mpr ⟨fun _ => setStateIdle_ledger h₂ _ _ _, fun _ => ?_⟩
      refine wlp_claimed h₂ ?_ fun n hn h₃ => ?_
      · rw [if_pos rfl]
        exact release_exits (h₂.queues (Nat.zero_le _))
      · rw [if_neg hn]
        refine fill_carry h₃ (fun _ => rfl) fun c₄ h₄ => ?_
        exact (wlp_ite _ _ _ _).mpr ⟨fun _ => sdoUploadExpedited_ledger h₄ _ _ _,
          fun _ => sdoUploadNormal_ledger h₄ _ _ _⟩

lemma caUploadReply_ledger (h : Ledger env.sys.opts m₀ c.mb (n :: held) []) (index : Word)
    (subindex : Byte) (bits size : ℕ) (flags : Word) :
    wlp env k (caUploadReply n index subindex bits size flags)
      (fun _ c' => Exits env.sys.opts held m₀ c'.mb) c := by
  rw [caUploadReply, wlp_ask_bind]
  refine fill_carry h (fun _ => rfl) fun c₁ h₁ => ?_
  refine coeMb_keepsBooks.carry h₁ fun m c₂ h₂ => ?_
  refine (wlp_ite _ _ _ _).mpr ⟨fun _ => ?_, fun _ => ?_⟩
  · exact fill_carry h₂ (fun _ => rfl) fun c₃ h₃ =>
      (sdoLoad_keepsBooks _ _ _).carry h₃ fun _ c₄ h₄ => finishUpload_ledger h₄ _ _ _
  · refine fill_carry h₂ (fun _ => rfl) fun c₃ h₃ => ?_
    refine when_fill_carry h₃ (fun _ => rfl) fun c₄ h₄ => ?_
    exact fill_carry h₄ (fun _ => rfl) fun c₅ h₅ =>
      (sdoLoad_keepsBooks _ _ _).carry h₅ fun _ c₆ h₆ => finishUpload_ledger h₆ _ _ _

/-- A size beyond 16 bits is an abort code. -/
lemma sizeCode_ne_zero {bits : ℕ} (h : 0xffff < bits2bytes bits) :
    BitVec.ofNat 32 (bits2bytes bits) ≠ 0 := by
  intro hzero
  have hval := congrArg BitVec.toNat hzero
  rw [BitVec.toNat_ofNat, bits2bytes] at hval
  rw [bits2bytes] at h
  have : (bits + 7) % 2 ^ 32 < 2 ^ 32 := Nat.mod_lt _ (by decide)
  change _ = 0 at hval
  omega

lemma sdoUploadCompleteAccess_ledger (h : Ledger env.sys.opts m₀ c.mb held []) :
    wlp env k sdoUploadCompleteAccess (fun _ c' => Exits env.sys.opts held m₀ c'.mb) c := by
  refine coeMb_keepsBooks.carry h fun m c₁ h₁ => ?_
  rw [wlp_bind, wlp_coeTable]
  refine wlp_lift_ledger fun r _ => ?_
  cases r with
  | error abort => exact setStateIdle_ledger h₁ _ _ _
  | ok found =>
      obtain ⟨o, nsub⟩ := found
      refine wlp_claimed h₁ ?_ fun n hn h₂ => ?_
      · rw [if_pos rfl]
        exact setStateIdle_none (h₁.queues (Nat.zero_le _)) _ _ _
      · rw [if_neg hn]
        refine wlp_lift_ledger fun first _ => ?_
        refine (completeAccessSubindexLoop_keepsBooks _ _ _ _).carry h₂ fun bits c₃ h₃ => ?_
        rw [wlp_ask_bind]
        refine (wlp_ite _ _ _ _).mpr ⟨fun hcode =>
          setStateIdle_reuse h₃ _ _ (sizeCode_ne_zero hcode), fun _ => ?_⟩
        refine (wlp_ite _ _ _ _).mpr ⟨fun _ => setStateIdle_reuse h₃ _ _ (by decide), fun _ => ?_⟩
        refine (escUploadPreObjecthandler_keepsBooks _ _ _ _ _).carry h₃
          fun ⟨abort, size⟩ c₄ h₄ => ?_
        refine (wlp_ite _ _ _ _).mpr ⟨fun habort => setStateIdle_reuse h₄ _ _ habort, fun _ => ?_⟩
        exact (completeAccessSubindexLoop_keepsBooks _ _ _ _).carry h₄ fun _ c₅ h₅ =>
          caUploadReply_ledger h₅ _ _ _ _ _

lemma sdoUploadsegment_ledger (h : Ledger env.sys.opts m₀ c.mb held []) :
    wlp env k sdoUploadsegment (fun _ c' => Exits env.sys.opts held m₀ c'.mb) c := by
  refine coeMb_keepsBooks.carry h fun req c₁ h₁ => ?_
  refine wlp_claimed h₁ ?_ fun n hn h₂ => ?_
  · rw [if_pos rfl]
    exact release_exits (h₁.queues (Nat.zero_le _))
  · rw [if_neg hn]
    refine coeMb_keepsBooks.carry h₂ fun m c₃ h₃ => fill_carry h₃ (fun _ => rfl) fun c₄ h₄ => ?_
    have tail (size : ℕ) {c : Coe σ} (h : Ledger env.sys.opts m₀ c.mb (n :: held) []) :
        wlp env k (if m.data = 0 ∧ size ≠ 0 then fault .null
          else do
            sdoLoad (m.data + m.fragsleft) size (m.buffer n + segmentOffset)
            finishUpload n req.sdoIndex req.sdoSubindex m.flags)
          (fun _ c' => Exits env.sys.opts held m₀ c'.mb) c :=
      (wlp_ite _ _ _ _).mpr ⟨fun _ => wlp_fault _ _, fun _ => (sdoLoad_keepsBooks _ _ _).carry h
        fun _ _ h' => finishUpload_ledger h' _ _ _⟩
    refine (wlp_ite _ _ _ _).mpr ⟨fun _ => ?_, fun _ => ?_⟩
    · exact fill_carry h₄ (fun _ => rfl) fun c₅ h₅ => tail _ h₅
    · refine fill_carry h₄ (fun _ => rfl) fun c₅ h₅ => ?_
      refine (wlp_ite _ _ _ _).mpr ⟨fun _ => ?_, fun _ => ?_⟩
      all_goals exact fill_carry h₅ (fun _ => rfl) fun c₆ h₆ => tail _ h₆

/-! ## Download -/

lemma sdoDownloadAccepted_ledger (h : Ledger env.sys.opts m₀ c.mb held []) (index : Word)
    (subindex : Byte) (d : Objd) (size data : ℕ) :
    wlp env k (sdoDownloadAccepted index subindex d size data)
      (fun _ c' => Queues env.sys.opts held m₀ c'.mb) c := by
  refine coeMb_keepsBooks.carry h fun m c₁ h₁ => ?_
  refine (needsSegments_keepsBooks _ _).carry h₁ fun segments c₂ h₂ => ?_
  have reply {c : Coe σ} (h : Ledger env.sys.opts m₀ c.mb held []) (first : ℕ) :
      wlp env k (do
        sdoStore d.data first m.mbx data
        let n ← onMb escClaimbuffer
        when (n ≠ 0) (downloadResponse n coeCommandDownloadresponse index subindex)
        when (segments = false) do
          let abort ← escDownloadPostObjecthandler index subindex d.flags
          when (abort ≠ 0) (sdoAbort n index subindex abort))
        (fun _ c' => Queues env.sys.opts held m₀ c'.mb) c := by
    refine (sdoStore_keepsBooks _ _ _ _).carry h fun _ c₃ h₃ => ?_
    refine wlp_claimed h₃ ?_ fun n hn h₄ => ?_
    · rw [when, if_neg (not_not.mpr rfl), wlp_bind, wlp_pure]
      refine wlp.when (fun _ => ?_) fun _ => h₃.queues (Nat.zero_le _)
      refine (escDownloadPostObjecthandler_keepsBooks _ _ _).carry h₃ fun abort c₄ h₄ => ?_
      exact wlp.when (fun _ => sdoAbort_ledger h₄ _ _ _) fun _ => h₄.queues (Nat.zero_le _)
    · rw [when, if_pos hn]
      refine (downloadResponse_ledger h₄ _ _ _).bind fun _ c₅ h₅ => ?_
      refine wlp.when (fun _ => ?_) fun _ => h₅.queues (Nat.le_refl _)
      refine (escDownloadPostObjecthandler_keepsBooks _ _ _).carry h₅ fun abort c₆ h₆ => ?_
      exact wlp.when (fun _ => sdoAbort_replace h₆ _ _ _) fun _ => h₆.queues (Nat.le_refl _)
  refine (wlp_ite _ _ _ _).mpr ⟨fun _ => ?_, fun _ => ?_⟩
  all_goals exact fill_carry h₂ (fun _ => rfl) fun c₃ h₃ => reply h₃ _

/-- The one place where a download is held back. -/
lemma sdoDownloadEntry_ledger (h : Ledger env.sys.opts m₀ c.mb held [])
    (hnone : m₀.sdoHeld.active = false) (d : Objd) (size data : ℕ) :
    wlp env k (sdoDownloadEntry m₀.sdoIndex m₀.sdoSubindex d size data)
      (fun _ c' => Exits env.sys.opts held m₀ c'.mb) c := by
  refine (escDownloadPreObjecthandler_keepsBooks _ _ _ _ _).carry h fun abort c₁ h₁ => ?_
  refine (wlp_ite _ _ _ _).mpr ⟨fun _ => ?_, fun _ => (wlp_ite _ _ _ _).mpr
    ⟨fun _ => ?_, fun _ => ?_⟩⟩
  · refine coeMb_keepsBooks.carry h₁ fun m c₂ h₂ => ?_
    refine (needsSegments_keepsBooks _ _).carry h₂ fun segments c₃ h₃ => ?_
    refine (wlp_ite _ _ _ _).mpr ⟨fun _ => ?_, fun _ => ?_⟩
    · exact (sdoAbort_ledger h₃ _ _ _).bind fun _ _ => release_exits
    · rw [wlp_bind, wlp_coeModifyMb]
      exact release_exits ((h₃.hold hnone).queues (Nat.zero_le _))
  · exact (sdoDownloadAccepted_ledger h₁ _ _ _ _ _).bind fun _ _ => release_exits
  · exact (sdoAbort_ledger h₁ _ _ _).bind fun _ _ => release_exits

lemma sdoDownload_ledger (h : Ledger env.sys.opts m₀ c.mb held [])
    (hnone : m₀.sdoHeld.active = false) (hindex : c.mb.sdoIndex = m₀.sdoIndex)
    (hsubindex : c.mb.sdoSubindex = m₀.sdoSubindex) :
    wlp env k sdoDownload (fun _ c' => Exits env.sys.opts held m₀ c'.mb) c := by
  rw [sdoDownload, wlp_bind, wlp_coeMb, wlp_bind, wlp_coeTable, hindex, hsubindex]
  refine wlp_lift_ledger fun r _ => ?_
  cases r with
  | error abort => exact setStateIdle_ledger h _ _ _
  | ok d =>
      refine coeState_keepsBooks.carry h fun _ c₁ h₁ => ?_
      refine (wlp_ite _ _ _ _).mpr ⟨fun _ => setStateIdle_ledger h₁ _ _ _, fun _ => ?_⟩
      refine (wlp_ite _ _ _ _).mpr ⟨fun _ => setStateIdle_ledger h₁ _ _ _, fun _ => ?_⟩
      have pad (dst size length : ℕ) : KeepsBooks (σ := σ) (do
          let rest ← headerTail length size
          sdoFill (dst + size) rest) :=
        (headerTail_keepsBooks _ _).bind fun _ => sdoFill_keepsBooks _ _
      exact KeepsBooks.carry (.when (pad _ _ _)) h₁ fun _ c₂ h₂ =>
        sdoDownloadEntry_ledger h₂ hnone _ _ _

lemma caDownloadResponse_ledger (h : Ledger env.sys.opts m₀ c.mb held []) (index : Word)
    (subindex : Byte) :
    wlp env k (caDownloadResponse index subindex)
      (fun _ c' => Exits env.sys.opts held m₀ c'.mb) c := by
  refine wlp_claimed h ?_ fun n hn h₁ => ?_
  · rw [when, if_neg (not_not.mpr rfl), wlp_bind, wlp_pure]
    exact setStateIdle_none (h.queues (Nat.zero_le _)) _ _ _
  · rw [when, if_pos hn]
    exact (downloadResponse_ledger h₁ _ _ _).bind fun _ _ h₂ =>
      setStateIdle_none (h₂.queues (Nat.le_refl _)) _ _ _

lemma caDownloadAccepted_ledger (h : Ledger env.sys.opts m₀ c.mb held []) (index : Word)
    (subindex : Byte) (o : Objectlist) (nsub : ℕ) (flags : Word) (bytes data : ℕ) :
    wlp env k (caDownloadAccepted index subindex o nsub flags bytes data)
      (fun _ c' => Exits env.sys.opts held m₀ c'.mb) c := by
  rw [caDownloadAccepted, wlp_ask_bind]
  refine coeMb_keepsBooks.carry h fun m c₁ h₁ => ?_
  refine (wlp_ite _ _ _ _).mpr ⟨fun _ => ?_, fun _ => ?_⟩
  · refine (wlp_ite _ _ _ _).mpr ⟨fun _ => setStateIdle_ledger h₁ _ _ _, fun _ => ?_⟩
    exact fill_carry h₁ (fun _ => rfl) fun c₂ h₂ => (sdoStore_keepsBooks _ _ _ _).carry h₂
      fun _ c₃ h₃ => caDownloadResponse_ledger h₃ _ _
  · refine fill_carry h₁ (fun _ => rfl) fun c₂ h₂ => ?_
    refine (completeAccessSubindexLoop_keepsBooks _ _ _ _).carry h₂ fun _ c₃ h₃ => ?_
    refine (escDownloadPostObjecthandler_keepsBooks _ _ _).carry h₃ fun abort c₄ h₄ => ?_
    exact (wlp_ite _ _ _ _).mpr ⟨fun _ => setStateIdle_ledger h₄ _ _ _,
      fun _ => caDownloadResponse_ledger h₄ _ _⟩

lemma sdoDownloadCompleteAccess_ledger (h : Ledger env.sys.opts m₀ c.mb held []) :
    wlp env k sdoDownloadCompleteAccess (fun _ c' => Exits env.sys.opts held m₀ c'.mb) c := by
  refine coeMb_keepsBooks.carry h fun m c₁ h₁ => ?_
  rw [wlp_bind, wlp_coeTable]
  refine wlp_lift_ledger fun r _ => ?_
  cases r with
  | error abort => exact setStateIdle_ledger h₁ _ _ _
  | ok found =>
      obtain ⟨o, nsub⟩ := found
      refine wlp_lift_ledger fun first _ => ?_
      refine (completeAccessSubindexLoop_keepsBooks _ _ _ _).carry h₁ fun bits c₂ h₂ => ?_
      refine (wlp_ite _ _ _ _).mpr ⟨fun _ => setStateIdle_ledger h₂ _ _ _, fun _ => ?_⟩
      refine (wlp_ite _ _ _ _).mpr ⟨fun _ => ?_, fun _ => setStateIdle_ledger h₂ _ _ _⟩
      refine (escDownloadPreObjecthandler_keepsBooks _ _ _ _ _).carry h₂ fun abort c₃ h₃ => ?_
      exact (wlp_ite _ _ _ _).mpr ⟨fun _ => setStateIdle_ledger h₃ _ _ _,
        fun _ => caDownloadAccepted_ledger h₃ _ _ _ _ _ _ _⟩

/-! ## Download segments -/

/-- The Complete Access download that a segment of `size` bytes ends is refused: bytes are missing,
or the subindex it was opened for is not found any more. -/
def Mailbox.EndRefused (m : Mailbox) (table : List Objectlist) (size : ℕ) : Prop :=
  (m.fragsleft + size) % 2 ^ 32 < m.frags ∨
    ∃ o, Finds table m.index o ∧ sdoFindsubindex o m.subindex = .ok none

/-- The segment in the inbox is the last one of a Complete Access download that is refused. -/
def Mailbox.RefusedLast (m : Mailbox) (table : List Objectlist) : Prop :=
  m.sdoCommand &&& coeCommandLastsegmentbit ≠ 0 ∧ m.flags = completeAccessFlag ∧
    m.EndRefused table (segmentSize (m.headerLength 0).toNat m.sdoCommand)

/-- The refusal claims a buffer of its own, so that `n` stays in hand. -/
lemma caDownloadLast_ledger (h : Ledger env.sys.opts m₀ c.mb (n :: held) []) (m : Mailbox)
    (size : ℕ) :
    wlp env k (caDownloadLast m size) (fun complete c' =>
      (complete = true → Ledger env.sys.opts m₀ c'.mb (n :: held) [] ∧
        ¬ m.EndRefused env.sys.dict.table size) ∧
      (complete = false → Exits env.sys.opts (n :: held) m₀ c'.mb ∧
        m.EndRefused env.sys.dict.table size)) c := by
  have refused (hrefused : m.EndRefused env.sys.dict.table size) (abort : Dword) :
      wlp env k (do
        setStateIdle 0 m.index m.subindex abort
        pure false) (fun complete c' =>
          (complete = true → Ledger env.sys.opts m₀ c'.mb (n :: held) [] ∧
            ¬ m.EndRefused env.sys.dict.table size) ∧
          (complete = false → Exits env.sys.opts (n :: held) m₀ c'.mb ∧
            m.EndRefused env.sys.dict.table size)) c := by
    refine (setStateIdle_ledger h _ _ _).bind fun _ c' hc' => ?_
    rw [wlp_pure]
    exact ⟨fun htrue => (by cases htrue), fun _ => ⟨hc', hrefused⟩⟩
  rw [caDownloadLast, wlp_ite]
  refine ⟨fun hmissing => refused (.inl hmissing) _, fun hfull => ?_⟩
  rw [wlp_bind, wlp_coeTable]
  refine wlp_lift_ledger fun found hfound => ?_
  cases found with
  | none => exact wlp_fault _ _
  | some nidx =>
      refine wlp_lift_ledger fun o ho => wlp_lift_ledger fun r hr => ?_
      cases r with
      | none => exact refused (.inr ⟨o, ⟨nidx, hfound, ho⟩, hr⟩) _
      | some nsub =>
          refine (completeAccessSubindexLoop_keepsBooks _ _ _ _).carry h fun _ c' hc' => ?_
          rw [wlp_pure]
          refine ⟨fun _ => ⟨hc', ?_⟩, fun hfalse => by cases hfalse⟩
          rintro (hmissing | ⟨o', ho', hr'⟩)
          · exact hfull hmissing
          · obtain rfl := ho'.unique ⟨nidx, hfound, ho⟩
            rw [hr] at hr'
            cases hr'

/-- A download segment strands the buffer it claims. -/
def Mailbox.Strands (m : Mailbox) (opts : Options) (table : List Objectlist) : Prop :=
  let n := scanBuffers m.control .idle (opts.mbxBuffers - 1)
  n ≠ 0 ∧ (m.claim n).RefusedLast table

/-- How the handling of a message ends, if it strands a buffer exactly under `leak`. -/
def Handles (opts : Options) (leak : Prop) (m m' : Mailbox) : Prop :=
  ∃ held, Exits opts held m m' ∧ (held ≠ [] ↔ leak)

lemma Mailbox.exits_handles {opts : Options} {m : Mailbox} {leak : Prop}
    (h : Exits opts [] m₀ m) (hleak : ¬ leak) : Handles opts leak m₀ m :=
  ⟨[], h, fun hne => (hne rfl).elim, fun h => (hleak h).elim⟩

/-- A download segment queues its reply, and strands a buffer when it is refused at the end of a
Complete Access download. -/
lemma sdoDownloadsegment_ledger (h : Ledger env.sys.opts m₀ c.mb [] []) :
    wlp env k sdoDownloadsegment (fun _ c' =>
      Handles env.sys.opts (c.mb.Strands env.sys.opts env.sys.dict.table) m₀ c'.mb) c := by
  refine wlp_scanned (n := scanBuffers c.mb.control .idle (env.sys.opts.mbxBuffers - 1)) rfl
    (fun hzero => ?_) fun hne => ?_
  · rw [if_pos rfl]
    exact (setStateIdle_none (h.queues (Nat.zero_le _)) _ _ _).mono fun _ _ h' =>
      exits_handles h' fun hstrands => hstrands.1 hzero
  · have hclaim : Ledger env.sys.opts m₀ (c.mb.claim _) [_] [] := h.claim rfl hne
    have hstrands : c.mb.Strands env.sys.opts env.sys.dict.table ↔
        (c.mb.claim (scanBuffers c.mb.control .idle (env.sys.opts.mbxBuffers - 1))).RefusedLast
          env.sys.dict.table := and_iff_right hne
    rw [hstrands]
    generalize scanBuffers c.mb.control .idle (env.sys.opts.mbxBuffers - 1) = n at hne hclaim ⊢
    have hput : (mbOf.put ((mbOf.get c).claim n) c).mb = c.mb.claim n := rfl
    rw [← hput] at hclaim ⊢
    generalize mbOf.put ((mbOf.get c).claim n) c = c₀ at hclaim ⊢
    rw [if_neg hne, wlp_bind, wlp_coeMb]
    refine (headerTail_keepsBooks _ _).carry hclaim fun _ c₁ h₁ => ?_
    refine fill_carry h₁ (fun _ => rfl) fun c₂ h₂ => ?_
    refine (sdoStore_keepsBooks _ _ _ _).carry h₂ fun _ c₃ h₃ => ?_
    refine (wlp_ite _ _ _ _).mpr ⟨fun hlast => ?_, fun hmore => ?_⟩
    · have ends : wlp env k (if c₀.mb.flags = completeAccessFlag then
          caDownloadLast c₀.mb (segmentSize (c₀.mb.headerLength 0).toNat c₀.mb.sdoCommand)
          else pure true) (fun complete c' =>
            (complete = true → Ledger env.sys.opts m₀ c'.mb [n] [] ∧
              ¬ c₀.mb.RefusedLast env.sys.dict.table) ∧
            (complete = false → Exits env.sys.opts [n] m₀ c'.mb ∧
              c₀.mb.RefusedLast env.sys.dict.table)) c₃ := by
        refine (wlp_ite _ _ _ _).mpr ⟨fun hflags => ?_, fun hflags => ?_⟩
        · refine (caDownloadLast_ledger h₃ _ _).mono fun complete c' hc' => ⟨fun htrue => ?_,
            fun hfalse => ?_⟩
          · exact ⟨(hc'.1 htrue).1, fun hrefused => (hc'.1 htrue).2 hrefused.2.2⟩
          · exact ⟨(hc'.2 hfalse).1, hlast, hflags, (hc'.2 hfalse).2⟩
        · rw [wlp_pure]
          exact ⟨fun _ => ⟨h₃, fun hrefused => hflags hrefused.2.1⟩, fun hfalse => by cases hfalse⟩
      refine ends.bind fun complete c₄ hends => ?_
      refine wlp.when (fun htrue => ?_) fun hfalse => ?_
      · obtain ⟨h₄, hnot⟩ := hends.1 htrue
        refine fill_carry h₄ (fun _ => rfl) fun c₅ h₅ => ?_
        refine (escDownloadPostObjecthandler_keepsBooks _ _ _).carry h₅ fun abort c₆ h₆ => ?_
        refine (wlp_ite _ _ _ _).mpr ⟨fun habort => ?_, fun _ => ?_⟩
        · exact (setStateIdle_reuse h₆ _ _ habort).mono fun _ _ h' => exits_handles h' hnot
        · rw [wlp_bind, wlp_coeModifyMb]
          exact (setStateIdle_none (h₆.post.queues (Nat.le_refl _)) _ _ _).mono fun _ _ h' =>
            exits_handles h' hnot
      · obtain ⟨h₄, hrefused⟩ := hends.2 (Bool.eq_false_iff.mpr hfalse)
        exact ⟨[n], h₄, fun _ => hrefused, fun _ => List.cons_ne_nil _ _⟩
    · refine fill_carry h₃ (fun _ => by simp only [books, Mailbox.fixed]) fun c₄ h₄ => ?_
      rw [wlp_bind, wlp_coeModifyMb]
      exact (setStateIdle_none (h₄.post.queues (Nat.le_refl _)) _ _ _).mono fun _ _ h' =>
        exits_handles h' fun hrefused => hmore hrefused.1

/-! ## SDO Information -/

/-- The reply in hand is queued and the inbox given back. -/
lemma post_release_exits (h : Ledger env.sys.opts m₀ c.mb (n :: held) []) :
    wlp env k (do
      coeModifyMb fun m => m.setControl n .outreq
      coeModifyMb .release) (fun _ c' => Exits env.sys.opts held m₀ c'.mb) c := by
  rw [wlp_bind, wlp_coeModifyMb]
  exact release_exits (h.post.queues (Nat.le_refl _))

lemma sdoInfoerror_ledger (h : Ledger env.sys.opts m₀ c.mb held []) (abortcode : Dword) :
    wlp env k (sdoInfoerror abortcode) (fun _ c' => Exits env.sys.opts held m₀ c'.mb) c := by
  refine wlp_claimed h ?_ fun n hn h₁ => ?_
  · exact wlp.when (fun hne => (hne rfl).elim) fun _ => h.exits
  · refine wlp.when (fun _ => ?_) fun hzero => (hzero hn).elim
    exact fill_carry h₁ (fun _ => rfl) fun _ h₂ => post_release_exits h₂

/-- The books and `xoe` are the same, so the inbox has been given back if it had been before. -/
abbrev SameInbox (c c' : Coe σ) : Prop := c'.mb.books = c.mb.books ∧ c'.mb.xoe = c.mb.xoe

instance : Std.Refl (SameInbox (σ := σ)) := ⟨fun _ => ⟨rfl, rfl⟩⟩

instance : IsTrans (Coe σ) SameInbox := ⟨fun _ _ _ h h' => ⟨h'.1.trans h.1, h'.2.trans h.2⟩⟩

lemma coeModifyMb_keepsInbox {f : Mailbox → Mailbox}
    (hf : ∀ m, (f m).books = m.books ∧ (f m).xoe = m.xoe) :
    Keeps (SameInbox (σ := σ)) (coeModifyMb f) := .modify fun c => hf c.mb

lemma coeMb_keepsInbox : Keeps (SameInbox (σ := σ)) coeMb := .get_bind fun _ => .pure _

lemma coePutIndexes_keepsInbox (n count i dst : ℕ) :
    Keeps (SameInbox (σ := σ)) (coePutIndexes n count i dst) :=
  coeMb_keepsInbox.bind fun _ => .bind (.ask_bind fun _ => .pure _) fun _ =>
    (Keeps.lift _).bind fun _ => coeModifyMb_keepsInbox fun _ => ⟨rfl, rfl⟩

/-- The inbox has been given back, and the reply is still in hand. -/
def Answering (opts : Options) (held : List ℕ) (n : ℕ) (m m' : Mailbox) : Prop :=
  Ledger opts m m' (n :: held) [] ∧ m'.Released

lemma Answering.carry {β : Type} {m : OnCoe σ α} {f : α → OnCoe σ β} {Q : β → Coe σ → Prop}
    (h : Answering env.sys.opts held n m₀ c.mb) (hm : Keeps SameInbox m)
    (hf : ∀ a c', Answering env.sys.opts held n m₀ c'.mb → wlp env k (f a) Q c') :
    wlp env k (m >>= f) Q c := by
  refine (hm env k c).bind fun a c' hc' => hf a c' ⟨h.1.fill hc'.1, ?_⟩
  have hcontrol : c'.mb.control = c.mb.control := congrArg Books.control hc'.1
  rw [Released, Free, hcontrol, hc'.2]
  exact h.2

lemma Answering.last {m : OnCoe σ α} (h : Answering env.sys.opts held n m₀ c.mb)
    (hm : Keeps SameInbox m) :
    wlp env k m (fun _ c' => Answering env.sys.opts held n m₀ c'.mb) c := by
  rw [← bind_pure m]
  exact h.carry hm fun a c' h' => (wlp_pure _ _).mpr h'

/-- Giving the inbox back leaves it given back. -/
lemma Answering.release {m : Mailbox} {opts : Options} (h : Ledger opts m₀ m (n :: held) []) :
    Answering opts held n m₀ m.release := ⟨h.release, .inl m.release_free⟩

/-- The reply is queued. -/
lemma Answering.exits (h : Answering env.sys.opts held n m₀ c.mb) :
    wlp env k (coeModifyMb fun m => m.setControl n .outreq)
      (fun _ c' => Exits env.sys.opts held m₀ c'.mb ∧ c'.mb.Released) c := by
  have hne : n ≠ 0 := (h.1.fresh n (by simp)).1
  have hback : (c.mb.setControl n .outreq).Released :=
    Mailbox.setControl_released hne _ h.2 rfl rfl
  rw [wlp_coeModifyMb]
  exact ⟨⟨[n], h.1.post, Nat.le_refl _, fun _ => hback⟩, hback⟩

lemma getodlistCount_ledger (h : Ledger env.sys.opts m₀ c.mb (n :: held) []) (entries frags : ℕ) :
    wlp env k (getodlistCount n entries frags)
      (fun _ c' => Answering env.sys.opts held n m₀ c'.mb) c := by
  refine fill_carry h (fun _ => rfl) fun c₁ h₁ => ?_
  rw [wlp_bind, wlp_coeModifyMb]
  have hback : Answering env.sys.opts held n m₀ c₁.mb.release := .release h₁
  refine Answering.carry hback (coeModifyMb_keepsInbox fun _ => ⟨rfl, rfl⟩) fun _ c₂ h₂ => ?_
  exact h₂.last (coeModifyMb_keepsInbox fun _ => ⟨rfl, rfl⟩)

lemma getodlistAll_ledger (h : Ledger env.sys.opts m₀ c.mb (n :: held) []) (entries frags : ℕ) :
    wlp env k (getodlistAll n entries frags)
      (fun _ c' => Answering env.sys.opts held n m₀ c'.mb) c := by
  refine coeMb_keepsBooks.carry h fun m c₁ h₁ => fill_carry h₁ (fun _ => rfl) fun c₂ h₂ => ?_
  have part (count : ℕ) {c : Coe σ} (h : Answering env.sys.opts held n m₀ c.mb) :
      wlp env k (do
        coeModifyMb fun m =>
          { m.putWord n 12 1 with frags := frags, fragsleft := sub32 frags 1 }
        coePutIndexes n count 0 14
        coeModifyMb fun m => m.putLength n (8 + 2 * count))
        (fun _ c' => Answering env.sys.opts held n m₀ c'.mb) c :=
    h.carry (coeModifyMb_keepsInbox fun _ => ⟨rfl, rfl⟩) fun _ c₃ h₃ =>
      h₃.carry (coePutIndexes_keepsInbox _ _ _ _) fun _ c₄ h₄ =>
        h₄.last (coeModifyMb_keepsInbox fun _ => ⟨rfl, rfl⟩)
  rw [wlp_bind]
  refine (wlp_ite _ _ _ _).mpr ⟨fun _ => ?_, fun _ => ?_⟩
  · rw [wlp_bind, wlp_coeModifyMb, wlp_pure]
    exact part _ ⟨h₂.fill rfl, .inr rfl⟩
  · rw [wlp_bind, wlp_coeModifyMb, wlp_pure]
    exact part _ (.release h₂)

/-- A list of objects is given back at once or goes on. -/
lemma sdoGetodlist_ledger (h : Ledger env.sys.opts m₀ c.mb held []) :
    wlp env k sdoGetodlist (fun _ c' => Exits env.sys.opts held m₀ c'.mb) c := by
  rw [sdoGetodlist, wlp_bind, wlp_coeTable]
  refine wlp_lift_ledger fun entries _ => fill_carry h (fun _ => rfl) fun c₁ h₁ => ?_
  refine coeMb_keepsBooks.carry h₁ fun m c₂ h₂ => ?_
  refine (wlp_ite _ _ _ _).mpr ⟨fun _ => wlp_fault _ _, fun _ => ?_⟩
  refine (wlp_ite _ _ _ _).mpr ⟨fun _ => sdoInfoerror_ledger h₂ _, fun _ => ?_⟩
  refine wlp_claimed h₂ ?_ fun n hn h₃ => ?_
  · exact wlp.when (fun hne => (hne rfl).elim) fun _ => h₂.exits
  · refine wlp.when (fun _ => ?_) fun hzero => (hzero hn).elim
    refine (wlp_ite _ _ _ _).mpr ⟨fun _ => ?_, fun _ => ?_⟩
    · exact (getodlistCount_ledger h₃ _ _).bind fun _ _ h₄ => h₄.exits.mono fun _ _ h₅ => h₅.1
    · exact (getodlistAll_ledger h₃ _ _).bind fun _ _ h₄ => h₄.exits.mono fun _ _ h₅ => h₅.1

/-- The list goes on, or is given back. -/
lemma sdoGetodlistcont_ledger (h : Ledger env.sys.opts m₀ c.mb held [])
    (hlist : c.mb.xoe = mbxcoe + mbxodl) :
    wlp env k sdoGetodlistcont
      (fun _ c' => Exits env.sys.opts held m₀ c'.mb ∧ c'.mb.Released) c := by
  refine wlp_claimed h ?_ fun n hn h₁ => ?_
  · exact wlp.when (fun hne => (hne rfl).elim) fun _ => ⟨h.exits, .inr hlist⟩
  · refine wlp.when (fun _ => ?_) fun hzero => (hzero hn).elim
    have hgoing : Answering env.sys.opts held n m₀ (mbOf.put ((mbOf.get c).claim n) c).mb :=
      ⟨h₁, .inr hlist⟩
    refine hgoing.carry coeMb_keepsInbox fun m c₂ h₂ => ?_
    refine h₂.carry (coeModifyMb_keepsInbox fun _ => ⟨rfl, rfl⟩) fun _ c₃ h₃ => ?_
    have back : wlp env k (when (m.fragsleft ≤ 1) (coeModifyMb .release))
        (fun _ c' => Answering env.sys.opts held n m₀ c'.mb) c₃ :=
      wlp.when (fun _ => (wlp_coeModifyMb _ _).mpr (.release h₃.1)) fun _ => h₃
    refine back.bind fun _ c₄ h₄ => ?_
    refine h₄.carry (coeModifyMb_keepsInbox fun _ => ⟨by simp only [books, Mailbox.fixed], rfl⟩)
      fun _ c₅ h₅ => ?_
    refine h₅.carry (coePutIndexes_keepsInbox _ _ _ _) fun _ c₆ h₆ => ?_
    exact h₆.carry (coeModifyMb_keepsInbox fun _ => ⟨rfl, rfl⟩) fun _ c₇ h₇ => h₇.exits

lemma sdoGetod_ledger (h : Ledger env.sys.opts m₀ c.mb held []) :
    wlp env k sdoGetod (fun _ c' => Exits env.sys.opts held m₀ c'.mb) c := by
  refine coeMb_keepsBooks.carry h fun m c₁ h₁ => ?_
  rw [wlp_bind, wlp_coeTable]
  refine wlp_lift_ledger fun found _ => ?_
  cases found with
  | none => exact sdoInfoerror_ledger h₁ _
  | some nidx =>
      refine wlp_claimed h₁ ?_ fun n hn h₂ => ?_
      · exact wlp.when (fun hne => (hne rfl).elim) fun _ => h₁.exits
      · refine wlp.when (fun _ => ?_) fun hzero => (hzero hn).elim
        refine wlp_lift_ledger fun o _ => wlp_lift_ledger fun ⟨datatype, maxsub⟩ _ => ?_
        exact fill_carry h₂ (fun _ => rfl) fun c₃ h₃ => fill_carry h₃ (fun _ => rfl)
          fun c₄ h₄ => post_release_exits h₄

lemma sdoGeted_ledger (h : Ledger env.sys.opts m₀ c.mb held []) :
    wlp env k sdoGeted (fun _ c' => Exits env.sys.opts held m₀ c'.mb) c := by
  refine coeMb_keepsBooks.carry h fun m c₁ h₁ => ?_
  rw [wlp_bind, wlp_coeTable]
  refine wlp_lift_ledger fun r _ => ?_
  cases r with
  | error abort => exact sdoInfoerror_ledger h₁ _
  | ok d =>
      refine wlp_claimed h₁ ?_ fun n hn h₂ => ?_
      · exact wlp.when (fun hne => (hne rfl).elim) fun _ => h₁.exits
      · refine wlp.when (fun _ => ?_) fun hzero => (hzero hn).elim
        exact fill_carry h₂ (fun _ => rfl) fun c₃ h₃ => fill_carry h₃ (fun _ => rfl)
          fun c₄ h₄ => post_release_exits h₄

/-! ## The dispatcher -/

/-- `MBX_error` claims a buffer and queues it. -/
lemma mbxError_ledger {R S : Type} {opts : R → Options} {L : Component S Mailbox} {r : R} {s : S}
    (h : Ledger (opts r) m₀ (L.get s) held []) (error : Word) :
    wlp r k (within (fun r _ => opts r) L (mbxError error) : Program R Fault S Unit)
      (fun _ s' => Queues (opts r) held m₀ (L.get s')) s := by
  rw [mbxError, wlp_within]
  refine wlp_claimed_self h ?_ fun n hn hclaim => ?_
  · exact wlp.when (fun hne => (hne rfl).elim) fun _ => by
      rw [L.put_get]
      exact h.queues (Nat.zero_le _)
  · refine wlp.when (fun _ => ?_) fun hzero => (hzero hn).elim
    rw [wlp_modify, L.get_put]
    exact hclaim.fill_post_queues rfl

lemma coeMbxError_ledger (h : Ledger env.sys.opts m₀ c.mb held []) (error : Word) :
    wlp env k (onMb (mbxError error)) (fun _ c' => Queues env.sys.opts held m₀ c'.mb) c :=
  mbxError_ledger (R := CoeEnv σ) (S := Coe σ) (L := mbOf) (r := env) (s := c) h error

/-- The message in the inbox is a download segment. -/
def Mailbox.DownloadSegment (m : Mailbox) : Prop :=
  m.service = coeSdorequest ∧ m.sdoHeld.active = false ∧
    m.sdoCommand &&& 0xe0 = coeCommandDownloadsegreq

/-- A download segment request is none of the other requests. -/
lemma download_segment_command {command : Byte} (h : command &&& 0xe0 = coeCommandDownloadsegreq) :
    command &&& 0xe0 ≠ coeCommandUploadrequest ∧ command &&& 0xef ≠ coeCommandUploadsegreq ∧
      command &&& 0xe0 ≠ coeCommandDownloadrequest := by
  revert h
  revert command
  decide +kernel

lemma sdoRequest_ledger (h : Ledger env.sys.opts m₀ c.mb [] [])
    (hnone : m₀.sdoHeld.active = false) (hindex : c.mb.sdoIndex = m₀.sdoIndex)
    (hsubindex : c.mb.sdoSubindex = m₀.sdoSubindex) :
    wlp env k (sdoRequest c.mb) (fun _ c' => Handles env.sys.opts
      (c.mb.sdoCommand &&& 0xe0 = coeCommandDownloadsegreq ∧
        c.mb.Strands env.sys.opts env.sys.dict.table) m₀ c'.mb) c := by
  have other {m : OnCoe σ Unit} (hother : c.mb.sdoCommand &&& 0xe0 ≠ coeCommandDownloadsegreq)
      (hm : wlp env k m (fun _ c' => Exits env.sys.opts [] m₀ c'.mb) c) :
      wlp env k m (fun _ c' => Handles env.sys.opts
        (c.mb.sdoCommand &&& 0xe0 = coeCommandDownloadsegreq ∧
          c.mb.Strands env.sys.opts env.sys.dict.table) m₀ c'.mb) c :=
    hm.mono fun _ _ h' => exits_handles h' fun hleak => hother hleak.1
  rw [sdoRequest, wlp_ite]
  refine ⟨fun hup => other (fun hseg => (download_segment_command hseg).1 hup.1) ?_, fun _ => ?_⟩
  · exact (wlp_ite _ _ _ _).mpr ⟨fun _ => sdoUploadCompleteAccess_ledger h,
      fun _ => sdoUpload_ledger h⟩
  rw [wlp_ite]
  refine ⟨fun hup => other (fun hseg => (download_segment_command hseg).2.1 hup.1) ?_, fun _ => ?_⟩
  · exact sdoUploadsegment_ledger h
  rw [wlp_ite]
  refine ⟨fun hdown => other (fun hseg => (download_segment_command hseg).2.2 hdown) ?_,
    fun _ => ?_⟩
  · exact (wlp_ite _ _ _ _).mpr ⟨fun _ => sdoDownloadCompleteAccess_ledger h,
      fun _ => sdoDownload_ledger h hnone hindex hsubindex⟩
  rw [wlp_ite]
  refine ⟨fun hseg => ?_, fun hother => other hother ?_⟩
  · rw [and_iff_right hseg]
    exact sdoDownloadsegment_ledger h
  · exact (wlp_pure _ _).mpr h.exits

lemma coeNotRecognised_ledger (h : Ledger env.sys.opts m₀ c.mb held []) (m : Mailbox) :
    wlp env k (coeNotRecognised m) (fun _ c' => Exits env.sys.opts held m₀ c'.mb) c := by
  refine (wlp_ite _ _ _ _).mpr ⟨fun _ => ?_, fun _ => ?_⟩
  · exact (coeMbxError_ledger h _).bind fun _ _ => release_exits
  · exact (sdoAbort_ledger h _ _ _).bind fun _ _ => release_exits

/-- A CoE message queues at most one reply, and strands a buffer only as a download segment. -/
lemma coeDispatch_ledger (h : Ledger env.sys.opts m₀ c.mb [] [])
    (hheld : c.mb.sdoHeld = m₀.sdoHeld) (hindex : c.mb.sdoIndex = m₀.sdoIndex)
    (hsubindex : c.mb.sdoSubindex = m₀.sdoSubindex) :
    wlp env k (coeDispatch c.mb) (fun _ c' => Handles env.sys.opts
      (c.mb.DownloadSegment ∧ c.mb.Strands env.sys.opts env.sys.dict.table) m₀ c'.mb) c := by
  have other {m : OnCoe σ Unit} (hother : ¬ c.mb.DownloadSegment)
      (hm : wlp env k m (fun _ c' => Exits env.sys.opts [] m₀ c'.mb) c) :
      wlp env k m (fun _ c' => Handles env.sys.opts
        (c.mb.DownloadSegment ∧ c.mb.Strands env.sys.opts env.sys.dict.table) m₀ c'.mb) c :=
    hm.mono fun _ _ h' => exits_handles h' fun hleak => hother hleak.1
  rw [coeDispatch, wlp_ite]
  refine ⟨fun hbusy => other (fun hseg => ?_) ?_, fun hfree => ?_⟩
  · rw [hseg.2.1] at hbusy
    exact Bool.false_ne_true hbusy.2
  · exact (coeMbxError_ledger h _).bind fun _ _ => release_exits
  rw [wlp_ite]
  refine ⟨fun hservice => ?_, fun hservice => ?_⟩
  · have hinactive : c.mb.sdoHeld.active = false :=
      Bool.eq_false_iff.mpr fun hactive => hfree ⟨hservice, hactive⟩
    have hsegment : c.mb.DownloadSegment ↔
        c.mb.sdoCommand &&& 0xe0 = coeCommandDownloadsegreq := by
      rw [DownloadSegment, and_iff_right hservice, and_iff_right hinactive]
    rw [hsegment]
    exact sdoRequest_ledger h (hheld ▸ hinactive) hindex hsubindex
  · refine other (fun hseg => hservice hseg.1) ?_
    refine (wlp_ite _ _ _ _).mpr ⟨fun _ => sdoGetodlist_ledger h, fun _ => ?_⟩
    refine (wlp_ite _ _ _ _).mpr ⟨fun _ => sdoGetod_ledger h, fun _ => ?_⟩
    refine (wlp_ite _ _ _ _).mpr ⟨fun _ => sdoGeted_ledger h, fun _ => ?_⟩
    exact coeNotRecognised_ledger h _

/-- A CoE message that is too short: it is answered with an error, and left in the inbox. -/
def Mailbox.CoeShort (m : Mailbox) : Prop :=
  m.mbxRun ∧ m.xoe = 0 ∧ m.control 0 = .inclaim ∧ m.mbxtype 0 = mbxcoe ∧
    (m.headerLength 0).toNat < coeMinimumLength

/-- A CoE message that is handed to the dispatcher. -/
def Mailbox.CoeTaken (m : Mailbox) : Prop :=
  m.mbxRun ∧ (m.xoe = mbxcoe ∨ m.xoe = 0 ∧ m.control 0 = .inclaim ∧ m.mbxtype 0 = mbxcoe ∧
    coeMinimumLength ≤ (m.headerLength 0).toNat)

/-- The message in the inbox is a download segment that strands the buffer claimed for it. -/
def Mailbox.CoeStrands (m : Mailbox) (opts : Options) (table : List Objectlist) : Prop :=
  m.CoeTaken ∧ m.DownloadSegment ∧ m.Strands opts table

/-- What a pass of `ESC_coeprocess` may do: queue one reply, and strand one buffer. -/
structure CoePass (opts : Options) (table : List Objectlist) (m m' : Mailbox)
    (held posted : List ℕ) : Prop where
  ledger : Ledger opts m m' held posted
  once : posted.length ≤ 1
  /-- A reply ends the handling of the message, unless it is the error of a short one. -/
  ends : posted ≠ [] → m'.Released ∨ m.CoeShort
  /-- A buffer is stranded by a refused download segment only. -/
  strands : held ≠ [] ↔ m.CoeStrands opts table

/-- `ESC_coeprocess`, once the inbox has been looked at. -/
abbrev coeContinue : OnCoe σ Unit := do
  let m ← coeMb
  when (m.xoe = mbxcoe + mbxodl ∧ m.mbxoutpost = 0) sdoGetodlistcont
  let m ← coeMb
  when (m.xoe = mbxcoe) (coeDispatch m)

lemma coeContinue_stays (hlist : c.mb.xoe ≠ mbxcoe + mbxodl) (hcoe : c.mb.xoe ≠ mbxcoe)
    {Q : Unit → Coe σ → Prop} (hQ : Q () c) : wlp env k coeContinue Q c := by
  rw [coeContinue, wlp_bind, wlp_coeMb, wlp_bind]
  refine wlp.when (fun h => (hlist h.1).elim) fun _ => ?_
  rw [wlp_bind, wlp_coeMb]
  exact wlp.when (fun h => (hcoe h).elim) fun _ => hQ

lemma coeContinue_taken (hcoe : c.mb.xoe = mbxcoe) {Q : Unit → Coe σ → Prop}
    (hQ : wlp env k (coeDispatch c.mb) Q c) : wlp env k coeContinue Q c := by
  have hlist : c.mb.xoe ≠ mbxcoe + mbxodl := by
    rw [hcoe]
    decide
  rw [coeContinue, wlp_bind, wlp_coeMb, wlp_bind]
  refine wlp.when (fun h => (hlist h.1).elim) fun _ => ?_
  rw [wlp_bind, wlp_coeMb]
  exact wlp.when (fun _ => hQ) fun h => (h hcoe).elim

/-- A list that goes on is not handed to the dispatcher in the same pass. -/
lemma coeContinue_list (hlist : c.mb.xoe = mbxcoe + mbxodl)
    (h : Ledger env.sys.opts m₀ c.mb held []) :
    wlp env k coeContinue (fun _ c' => Exits env.sys.opts held m₀ c'.mb) c := by
  have pass {c' : Coe σ} (hexits : Exits env.sys.opts held m₀ c'.mb) (hback : c'.mb.Released) :
      wlp env k (do
        let m ← coeMb
        when (m.xoe = mbxcoe) (coeDispatch m))
        (fun _ c' => Exits env.sys.opts held m₀ c'.mb) c' := by
    have hcoe : c'.mb.xoe ≠ mbxcoe := by
      rcases hback with hfree | hgoing
      · rw [hfree.2]
        decide
      · rw [hgoing]
        decide
    rw [wlp_bind, wlp_coeMb]
    exact wlp.when (fun h => (hcoe h).elim) fun _ => hexits
  rw [coeContinue, wlp_bind, wlp_coeMb, wlp_bind]
  refine wlp.when (fun _ => ?_) fun _ => pass h.exits (.inr hlist)
  exact (sdoGetodlistcont_ledger h hlist).mono fun _ _ h' => pass h'.1 h'.2

lemma mbxError_keepsXoe (error : Word) :
    Keeps (fun m m' : Mailbox => m'.xoe = m.xoe) (mbxError error) := by
  have : Std.Refl fun m m' : Mailbox => m'.xoe = m.xoe := ⟨fun _ => rfl⟩
  have : IsTrans Mailbox fun m m' => m'.xoe = m.xoe := ⟨fun _ _ _ h h' => h'.trans h⟩
  have claim : Keeps (fun m m' : Mailbox => m'.xoe = m.xoe) escClaimbuffer :=
    .ask_bind fun _ => .get_bind fun _ =>
      Keeps.bind (.when (.modify fun _ => rfl)) fun _ => .pure _
  exact claim.bind fun _ => .when (.modify fun _ => rfl)

/-- The dispatcher's part of a pass. -/
lemma coeDispatch_pass {m : Mailbox} (hm : m = c.mb ∨ m = c.mb.taken) (htaken : c.mb.CoeTaken) :
    wlp env k (coeDispatch m) (fun _ c' => ∃ held posted,
      CoePass env.sys.opts env.sys.dict.table c.mb c'.mb held posted) { c with mb := m } := by
  have hledger : Ledger env.sys.opts c.mb m [] [] := by
    rcases hm with rfl | rfl
    · exact .refl _ _
    · exact (Ledger.refl _ _).fill rfl
  have hstrands : m.DownloadSegment ∧ m.Strands env.sys.opts env.sys.dict.table ↔
      c.mb.CoeStrands env.sys.opts env.sys.dict.table := by
    rw [CoeStrands, and_iff_right htaken]
    rcases hm with rfl | rfl
    · exact Iff.rfl
    · exact Iff.rfl
  obtain ⟨hheld, hindex, hsubindex⟩ : m.sdoHeld = c.mb.sdoHeld ∧ m.sdoIndex = c.mb.sdoIndex ∧
      m.sdoSubindex = c.mb.sdoSubindex := by
    rcases hm with rfl | rfl
    · exact ⟨rfl, rfl, rfl⟩
    · exact ⟨rfl, rfl, rfl⟩
  refine (coeDispatch_ledger (c := { c with mb := m }) hledger hheld hindex
    hsubindex).mono fun _ c' h => ?_
  obtain ⟨held, ⟨posted, hledger', hle, hback⟩, hleft⟩ := h
  exact ⟨held, posted, hledger', hle, fun hne => .inl (hback hne), hleft.trans hstrands⟩

/-- A pass of `ESC_coeprocess` keeps the ledger. -/
lemma escCoeprocess_pass :
    wlp env k escCoeprocess (fun _ c' => ∃ held posted,
      CoePass env.sys.opts env.sys.dict.table c.mb c'.mb held posted) c := by
  have hrefl := Ledger.refl env.sys.opts c.mb
  have quiet {c' : Coe σ} (h : Exits env.sys.opts [] c.mb c'.mb) (hother : ¬ c.mb.CoeTaken) :
      ∃ held posted, CoePass env.sys.opts env.sys.dict.table c.mb c'.mb held posted := by
    obtain ⟨posted, hledger, hle, hback⟩ := h
    refine ⟨[], posted, hledger, hle, fun hne => .inl (hback hne), fun hne => (hne rfl).elim, ?_⟩
    exact fun hstrands => (hother hstrands.1).elim
  rw [escCoeprocess, wlp_bind, wlp_coeMb]
  refine wlp.when (fun hrun => ?_) fun hstopped => quiet hrefl.exits fun h => hstopped h.1
  rw [wlp_bind, wlp_coeMb, wlp_bind]
  by_cases hnew : c.mb.xoe = 0 ∧ c.mb.control 0 = .inclaim ∧ c.mb.mbxtype 0 = mbxcoe
  · rw [when, if_pos hnew]
    refine (wlp_ite _ _ _ _).mpr ⟨fun hshort => ?_, fun hlong => ?_⟩
    · -- the error is queued, and the message stays where it is
      have hkept : wlp env k (onMb (mbxError mbxerrInvalidsize))
          (fun _ c' => c'.mb.xoe = c.mb.xoe) c :=
        (wlp_within _ _ _ _).mpr (mbxError_keepsXoe _ _ _ _)
      refine ((coeMbxError_ledger hrefl _).and hkept).mono fun _ c' h => ?_
      obtain ⟨⟨posted, hledger, hle⟩, hxoe⟩ := h
      rw [hnew.1] at hxoe
      refine coeContinue_stays (by rw [hxoe]; decide) (by rw [hxoe]; decide) ?_
      refine ⟨[], posted, hledger, hle, fun _ => .inr ?_, fun hne => (hne rfl).elim, ?_⟩
      · exact ⟨hrun, hnew.1, hnew.2.1, hnew.2.2, hshort⟩
      · rintro ⟨⟨-, htaken | htaken⟩, -⟩
        · rw [hnew.1] at htaken
          exact absurd htaken (by decide)
        · exact (Nat.not_le.mpr hshort htaken.2.2.2).elim
    · rw [wlp_coeModifyMb]
      refine coeContinue_taken (c := { c with mb := c.mb.taken }) rfl
        (coeDispatch_pass (.inr rfl) ?_)
      exact ⟨hrun, .inr ⟨hnew.1, hnew.2.1, hnew.2.2, Nat.not_lt.mp hlong⟩⟩
  · rw [when, if_neg hnew, wlp_pure]
    by_cases hcoe : c.mb.xoe = mbxcoe
    · exact coeContinue_taken hcoe (coeDispatch_pass (.inl rfl) ⟨hrun, .inl hcoe⟩)
    · have hother : ¬ c.mb.CoeTaken := by
        rintro ⟨-, htaken | htaken⟩
        · exact hcoe htaken
        · exact hnew ⟨htaken.1, htaken.2.1, htaken.2.2.1⟩
      by_cases hlist : c.mb.xoe = mbxcoe + mbxodl
      · exact (coeContinue_list hlist hrefl).mono fun _ _ h => quiet h hother
      · exact coeContinue_stays hlist hcoe (quiet hrefl.exits hother)

end Soes
