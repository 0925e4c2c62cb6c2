import Soes.Properties.Lookup
import Soes.Stack.Calls

/-!
# SDO requests that finish

For each SDO service, exactly when its function comes to an end with the inbox given back.  What
can go wrong is a lookup or a Complete Access pass that leaves a table, and a segment that goes to
or comes from no storage; where none of that happens every exit of every function releases the
inbox (`…_frees`), and where it happens there is no outcome at all (`…_faults`).

`Frees` composes like the program itself does: a sequence frees the inbox if its parts finish and
its last part frees it, so each proof follows the exits of the function.
-/

namespace Soes

open Program

variable {σ : Type} {env : CoeEnv σ} {k : ℕ} {c : Coe σ} {α : Type}

/-- The inbox is given back, and no CoE transfer is in progress. -/
def Mailbox.Free (m : Mailbox) : Prop := m.control 0 = .idle ∧ m.xoe = 0

/-- The code finishes, and then the inbox is given back. -/
abbrev Frees (env : CoeEnv σ) (m : OnCoe σ α) : Prop := EndsIn env (fun c => c.mb.Free) m

/-! ## Parts that always finish -/

@[simp] lemma wp_coeMb (Q : Mailbox → Coe σ → Prop) : wp env k coeMb Q c ↔ Q c.mb c := by
  rw [coeMb, wp_bind, wp_get, wp_pure]

@[simp] lemma wp_coeTable (Q : List Objectlist → Coe σ → Prop) :
    wp env k coeTable Q c ↔ Q env.sys.dict.table c := by
  rw [coeTable, wp_bind, wp_ask, wp_pure]

@[simp] lemma wp_coeState (Q : Byte → Coe σ → Prop) :
    wp env k coeState Q c ↔ Q (env.alStatus.setWidth 8 &&& 0x0f) c := by
  rw [coeState, wp_bind, wp_ask, wp_pure]

@[simp] lemma wp_coeModifyMb (f : Mailbox → Mailbox) (Q : Unit → Coe σ → Prop) :
    wp env k (coeModifyMb f) Q c ↔ Q () { c with mb := f c.mb } :=
  wp_modify _ _

@[simp] lemma wlp_coeMb (Q : Mailbox → Coe σ → Prop) : wlp env k coeMb Q c ↔ Q c.mb c := by
  rw [coeMb, wlp_bind, wlp_get, wlp_pure]

@[simp] lemma wlp_coeTable (Q : List Objectlist → Coe σ → Prop) :
    wlp env k coeTable Q c ↔ Q env.sys.dict.table c := by
  rw [coeTable, wlp_bind, wlp_ask, wlp_pure]

/-- A check that fails has no outcome. -/
lemma wlp_lift_false {β : Type} {x : Except Fault β} {f : β → OnCoe σ α} {Q : α → Coe σ → Prop}
    (h : ¬ ∃ a, x = .ok a) : wlp env k (lift x >>= f) Q c := by
  rw [wlp_bind, wlp_lift]
  exact fun a ha => (h ⟨a, ha⟩).elim

lemma coeMb_bind {f : Mailbox → OnCoe σ α} {Q : Coe σ → Prop} (hf : ∀ m, EndsIn env Q (f m)) :
    EndsIn env Q (coeMb >>= f) := fun k c => by
  rw [wp_bind, wp_coeMb]
  exact hf c.mb k c

lemma coeState_bind {f : Byte → OnCoe σ α} {Q : Coe σ → Prop} (hf : ∀ s, EndsIn env Q (f s)) :
    EndsIn env Q (coeState >>= f) := fun k c => by
  rw [wp_bind, wp_coeState]
  exact hf _ k c

lemma coeModifyMb_finishes (f : Mailbox → Mailbox) : Finishes env (coeModifyMb (σ := σ) f) :=
  .modify fun _ => trivial

lemma release_frees : Frees env (coeModifyMb (σ := σ) .release) :=
  .modify fun _ => ⟨by simp [Mailbox.release, Mailbox.setControl], rfl⟩

lemma escClaimbuffer_finishes (opts : Options) : Finishes opts escClaimbuffer :=
  .ask_bind <| .get_bind fun _ => .bind (.when fun _ => .modify fun _ => trivial) fun _ => .pure _

lemma onMb_finishes {m : OnMailbox α} (hm : ∀ opts, Finishes opts m) :
    Finishes env (onMb (σ := σ) m) := .within hm

lemma mbxError_finishes (error : Word) (opts : Options) : Finishes opts (mbxError error) :=
  .bind (escClaimbuffer_finishes opts) fun _ => .when fun _ => .modify fun _ => trivial

lemma sdoStore_finishes {dst len : ℕ} (h : dst ≠ 0 ∨ len = 0) (src : ByteStore) (start : ℕ) :
    Finishes env (sdoStore (σ := σ) dst len src start) := by
  rw [sdoStore, if_neg (by omega)]
  exact .modify fun _ => trivial

lemma sdoFill_finishes {dst len : ℕ} (h : dst ≠ 0 ∨ len = 0) (hlen : len < 2 ^ 31) :
    Finishes env (sdoFill (σ := σ) dst len) := by
  rw [sdoFill, if_neg (Nat.not_le.mpr hlen)]
  exact sdoStore_finishes h _ _

lemma sdoLoad_finishes {src len : ℕ} (h : src ≠ 0 ∨ len = 0) (dst : ℕ) :
    Finishes env (sdoLoad (σ := σ) src len dst) := by
  rw [sdoLoad, if_neg (by omega)]
  exact .modify fun _ => trivial

/-- Some buffer other than the inbox is idle. -/
def Mailbox.ReplyIdle (opts : Options) (m : Mailbox) : Prop :=
  ∃ n, 0 < n ∧ n < opts.mbxBuffers ∧ m.control n = .idle

lemma scanBuffers_ne_zero {control : ℕ → MbxState} {wanted : MbxState} {n : ℕ}
    (h : ∃ i, 0 < i ∧ i ≤ n ∧ control i = wanted) : scanBuffers control wanted n ≠ 0 := by
  induction n with
  | zero =>
      obtain ⟨i, hpos, hle, -⟩ := h
      omega
  | succ n ih =>
      obtain ⟨i, hpos, hle, hi⟩ := h
      rw [scanBuffers]
      split
      case isTrue hother =>
        refine ih ⟨i, hpos, ?_, hi⟩
        have hne : i ≠ n + 1 := fun h => hother (h ▸ hi)
        omega
      case isFalse => exact Nat.succ_ne_zero n

/-- A claim succeeds while a buffer is idle. -/
lemma escClaimbuffer_claims (h : c.mb.ReplyIdle env.sys.opts) :
    wp env k (onMb escClaimbuffer) (fun n c' => n ≠ 0 ∧ c' = { c with mb := c.mb.claim n }) c := by
  have hscan : scanBuffers c.mb.control .idle (env.sys.opts.mbxBuffers - 1) ≠ 0 := by
    obtain ⟨i, hpos, hlt, hi⟩ := h
    exact scanBuffers_ne_zero ⟨i, hpos, by omega, hi⟩
  simp only [wp_within, escClaimbuffer, wp_bind, wp_ask, wp_get, wp_when, wp_modify, wp_pure,
    mbOf_get]
  exact ⟨fun _ => ⟨hscan, rfl⟩, fun h => (h hscan).elim⟩

/-- With a buffer idle, what follows a claim starts with the buffer claimed. -/
lemma wlp_claim {f : ℕ → OnCoe σ α} {Q : α → Coe σ → Prop} (h : c.mb.ReplyIdle env.sys.opts)
    (hf : ∀ n, n ≠ 0 → wlp env k (f n) Q { c with mb := c.mb.claim n }) :
    wlp env k (onMb escClaimbuffer >>= f) Q c := by
  obtain ⟨n, c₁, hrun, hn, rfl⟩ := escClaimbuffer_claims (k := k) h
  rw [wlp_bind]
  intro n' c' hrun'
  rw [hrun, Outcome.ok.injEq] at hrun'
  obtain ⟨rfl, rfl⟩ := hrun'
  exact hf n hn

lemma wp_claim {f : ℕ → OnCoe σ α} {Q : α → Coe σ → Prop} (h : c.mb.ReplyIdle env.sys.opts)
    (hf : ∀ n, n ≠ 0 → wp env k (f n) Q { c with mb := c.mb.claim n }) :
    wp env k (onMb escClaimbuffer >>= f) Q c := by
  refine (escClaimbuffer_claims h).bind fun n c₁ h₁ => ?_
  rw [h₁.2]
  exact hf n h₁.1

lemma headerTail_finishes (length size : ℕ) : Finishes env (headerTail (σ := σ) length size) :=
  .transact _

lemma sdoAbort_finishes (reusembx : ℕ) (index : Word) (subindex : Byte) (abortcode : Dword) :
    Finishes env (sdoAbort (σ := σ) reusembx index subindex abortcode) :=
  .bind (.ite (fun _ => .pure _) fun _ => onMb_finishes escClaimbuffer_finishes) fun _ =>
    .when fun _ => coeModifyMb_finishes _

lemma setStateIdle_frees (reusembx : ℕ) (index : Word) (subindex : Byte) (abortcode : Dword) :
    Frees env (setStateIdle (σ := σ) reusembx index subindex abortcode) :=
  .bind (.when fun _ => sdoAbort_finishes _ _ _ _) fun _ => release_frees

lemma escUploadPostObjecthandler_finishes (index : Word) (subindex : Byte) (flags : Word) :
    Finishes env (escUploadPostObjecthandler (σ := σ) index subindex flags) := by
  refine .ask_bind ?_
  cases env.sys.cfg.postObjectUploadHook with
  | none => exact .pure _
  | some hook => exact .transact _

lemma escDownloadPostObjecthandler_finishes (index : Word) (subindex : Byte) (flags : Word) :
    Finishes env (escDownloadPostObjecthandler (σ := σ) index subindex flags) := by
  refine .ask_bind ?_
  cases env.sys.cfg.postObjectDownloadHook with
  | none => exact .pure _
  | some hook => exact .transact _

lemma escUploadPreObjecthandler_finishes (index : Word) (subindex : Byte) (data size : ℕ)
    (flags : Word) :
    Finishes env (escUploadPreObjecthandler (σ := σ) index subindex data size flags) := by
  refine .ask_bind ?_
  cases env.sys.cfg.preObjectUploadHook with
  | none => exact .pure _
  | some hook => exact .transact _

lemma escDownloadPreObjecthandler_finishes {index : Word}
    (h : ∀ bytes, ∃ r, coeMaxSub ⟨env.sys.dict.table, bytes⟩ index = .ok r) (subindex : Byte)
    (data size : ℕ) (flags : Word) :
    Finishes env (escDownloadPreObjecthandler (σ := σ) index subindex data size flags) := by
  refine .ask_bind <| .get_bind fun c => .bind (.ite (fun _ => .map ?_ _) fun _ => .pure _)
    fun _ => .ite (fun _ => .pure _) fun _ => ?_
  · obtain ⟨r, hr⟩ := h c.mem.bytes
    exact fun k c => (wp_lift _ _).mpr ⟨r, hr, trivial⟩
  · cases env.sys.cfg.preObjectDownloadHook with
    | none => exact .pure _
    | some hook => exact .transact _

lemma downloadResponse_finishes (n : ℕ) (command : Byte) (index : Word) (subindex : Byte) :
    Finishes env (downloadResponse (σ := σ) n command index subindex) := coeModifyMb_finishes _

lemma finishUpload_frees (n : ℕ) (index : Word) (subindex : Byte) (flags : Word) :
    Frees env (finishUpload (σ := σ) n index subindex flags) :=
  coeMb_bind fun _ => .bind
    (.ite (fun _ => escUploadPostObjecthandler_finishes _ _ _) fun _ => .pure _) fun _ =>
      .ite (fun _ => setStateIdle_frees _ _ _ _) fun _ =>
        .bind (coeModifyMb_finishes _) fun _ => release_frees

/-! ## Upload of one entry -/

lemma sdoUploadExpedited_frees (n : ℕ) (index : Word) (subindex : Byte) (d : Objd) :
    Frees env (sdoUploadExpedited (σ := σ) n index subindex d) :=
  .bind (coeModifyMb_finishes _) fun _ =>
    .bind (escUploadPreObjecthandler_finishes _ _ _ _ _) fun ⟨_, _⟩ =>
      .ite (fun _ => setStateIdle_frees _ _ _ _) fun _ => .ite
        (fun _ => .bind (coeModifyMb_finishes _) fun _ => finishUpload_frees _ _ _ _)
        fun hdata => coeMb_bind fun _ => .bind (sdoLoad_finishes (.inl hdata) _) fun _ =>
          finishUpload_frees _ _ _ _

lemma sdoUploadNormal_frees (n : ℕ) (index : Word) (subindex : Byte) {d : Objd}
    (hdata : d.data ≠ 0) : Frees env (sdoUploadNormal (σ := σ) n index subindex d) := by
  refine .bind (escUploadPreObjecthandler_finishes _ _ _ _ _) fun ⟨_, _⟩ =>
    .ite (fun _ => setStateIdle_frees _ _ _ _) fun _ => .bind (coeModifyMb_finishes _) fun _ =>
      coeMb_bind fun m => .ite (fun _ => ?_) fun _ => ?_
  all_goals
    exact .bind (coeModifyMb_finishes _) fun _ => .bind (coeModifyMb_finishes _) fun _ =>
      .bind (sdoLoad_finishes (.inl hdata) _) fun _ => finishUpload_frees _ _ _ _

lemma sdoUpload_frees (h : ∃ r, lookupEntry env.sys.dict.table c.mb.sdoIndex c.mb.sdoSubindex =
    .ok r) : wp env k sdoUpload (fun _ c' => c'.mb.Free) c := by
  obtain ⟨r, hr⟩ := h
  rw [sdoUpload, wp_bind, wp_coeMb, wp_bind, wp_coeTable, wp_bind, wp_lift]
  refine ⟨r, hr, ?_⟩
  cases r with
  | error abort => exact setStateIdle_frees _ _ _ _ k c
  | ok d =>
      obtain ⟨o, ho, hd⟩ := lookupEntry_found hr
      refine coeState_bind (Q := fun c => c.mb.Free) (fun _ => .ite
        (fun _ => setStateIdle_frees _ _ _ _) fun _ =>
          .bind (onMb_finishes escClaimbuffer_finishes) fun _ => .ite (fun _ => release_frees)
            fun _ => .bind (coeModifyMb_finishes _) fun _ =>
              .ite (fun _ => sdoUploadExpedited_frees _ _ _ _) fun hsize => ?_) k c
      exact sdoUploadNormal_frees _ _ _ (env.sys.dict.data_ne_of_size ho.mem hd hsize)

lemma sdoUpload_faults (h : ¬ ∃ r, lookupEntry env.sys.dict.table c.mb.sdoIndex
    c.mb.sdoSubindex = .ok r) : wlp env k sdoUpload (fun _ _ => False) c := by
  rw [sdoUpload, wlp_bind, wlp_coeMb, wlp_bind, wlp_coeTable]
  exact wlp_lift_false h

/-! ## Complete Access -/

/-- The rows that a pass over an object reads lie in the object's table: `left` rows from row
`nsub` on, unless the bound on the bytes is reached before. -/
def caRowsInside (o : Objectlist) (maxBytes : ℕ) : ℕ → ℕ → ℕ → Prop
  | 0, _, _ => True
  | left + 1, nsub, size =>
      match o.objdesc[nsub]? with
      | none => False
      | some d =>
          let size := entryEnd o nsub d (entryStart d size)
          (0 < maxBytes ∧ maxBytes ≤ bits2bytes size) ∨
            caRowsInside o maxBytes left (nsub + 1) size

/-- The rows that a Complete Access pass from row `nsub` on reads lie in the object's table. -/
def Objectlist.PassInside (o : Objectlist) (nsub maxBytes : ℕ) : Prop :=
  ∀ first, o.row 0 = .ok first →
    (first.datatype = dtypeVisibleString ∨ first.datatype = dtypeOctetString ∨
      first.datatype = dtypeUnicodeString) ∨
    caRowsInside o maxBytes (o.maxsub.toNat + 1 - nsub) nsub 0

/-- A pass with a bound reads no more than one without. -/
lemma caRowsInside_of_unbounded {o : Objectlist} (maxBytes : ℕ) {left nsub size : ℕ}
    (h : caRowsInside o 0 left nsub size) : caRowsInside o maxBytes left nsub size := by
  induction left generalizing nsub size with
  | zero => trivial
  | succ left ih =>
      rw [caRowsInside] at h ⊢
      cases hrow : o.objdesc[nsub]? with
      | none => simp [hrow] at h
      | some d =>
          simp only [hrow, Nat.lt_irrefl, false_and, false_or] at h ⊢
          exact .inr (ih h)

lemma Objectlist.PassInside.bounded {o : Objectlist} {nsub : ℕ} (h : o.PassInside nsub 0)
    (maxBytes : ℕ) : o.PassInside nsub maxBytes := fun first hfirst =>
  (h first hfirst).imp id (caRowsInside_of_unbounded maxBytes)

variable {o : Objectlist} {nsub maxBytes : ℕ}

lemma caUploadEntry_finishes (d : Objd) (size : ℕ) :
    Finishes env (caUploadEntry (σ := σ) d size) := by
  have store {at_ : ℕ} (len : ℕ) (src : ByteStore) :
      Finishes env (sdoStore (σ := σ) (env.sys.mbxdata + at_) len src 0) :=
    sdoStore_finishes (.inl (by have := env.sys.mbxdata_ne; omega)) _ _
  exact .ask_bind <| .get_bind fun _ => coeState_bind fun _ => .ite (fun _ => store _ _) fun _ =>
    .ite (fun _ => store _ _) fun _ => store _ _

lemma caDownloadEntry_finishes {d : Objd}
    (hdata : ∀ state, writeAccess d.access state → d.data ≠ 0) (data : ByteStore) (size : ℕ) :
    Finishes env (caDownloadEntry (σ := σ) data d size) :=
  coeState_bind fun _ => .when fun h => sdoStore_finishes (.inl (hdata _ h.2)) _ _

lemma caEntry_finishes {d : Objd} (hdata : ∀ state, writeAccess d.access state → d.data ≠ 0)
    (mode : CaMode) (size : ℕ) : Finishes env (caEntry (σ := σ) mode d size) := by
  refine .get_bind fun c => ?_
  cases mode with
  | size => exact .pure _
  | upload => exact caUploadEntry_finishes d size
  | fromMailbox start => exact caDownloadEntry_finishes hdata _ _
  | fromMbxdata => exact .ask_bind (caDownloadEntry_finishes hdata _ _)

/-- A pass inside the table finishes. -/
lemma caRows_finishes (ho : o ∈ env.sys.dict.table) (mode : CaMode) {left size : ℕ}
    (h : caRowsInside o maxBytes left nsub size) :
    Finishes env (caRows (σ := σ) o mode maxBytes left nsub size) := by
  induction left generalizing nsub size with
  | zero => exact .pure _
  | succ left ih =>
      rw [caRowsInside] at h
      cases hrow : o.objdesc[nsub]? with
      | none => simp [hrow] at h
      | some d =>
          simp only [hrow] at h
          have hd : d ∈ o.objdesc := List.mem_of_getElem? hrow
          exact .lift_bind (row_eq_ok.mpr hrow) <|
            .bind (caEntry_finishes (fun _ => env.sys.dict.data_ne ho hd) _ _) fun _ =>
              .ite (fun _ => .pure _) fun hgo => ih (h.resolve_left hgo)

/-- A pass that leaves the table does not finish. -/
lemma caRows_faults (mode : CaMode) {left size : ℕ} (h : ¬ caRowsInside o maxBytes left nsub size) :
    wlp env k (caRows (σ := σ) o mode maxBytes left nsub size) (fun _ _ => False) c := by
  induction left generalizing nsub size c with
  | zero => exact (h trivial).elim
  | succ left ih =>
      rw [caRowsInside] at h
      rw [caRows, wlp_bind, wlp_lift]
      intro d hrow
      rw [row_eq_ok] at hrow
      simp only [hrow, not_or] at h
      refine wlp.bind (wlp_true _) fun _ c₁ _ => ?_
      rw [wlp_ite]
      exact ⟨fun hstop => (h.1 hstop).elim, fun _ => ih h.2⟩

lemma completeAccessSubindexLoop_finishes (ho : o ∈ env.sys.dict.table) (mode : CaMode)
    {first : Objd} (hfirst : o.row 0 = .ok first) (h : o.PassInside nsub maxBytes) :
    Finishes env (completeAccessSubindexLoop (σ := σ) o nsub mode maxBytes) := by
  refine .lift_bind hfirst (.ite (fun _ => .pure _) fun hplain => ?_)
  have rows := caRows_finishes ho mode ((h first hfirst).resolve_left hplain)
  cases mode with
  | upload =>
      exact .ask_bind (.bind (sdoFill_finishes (.inl (Nat.succ_ne_zero _)) (by decide))
        fun _ => rows)
  | size => exact rows
  | fromMailbox start => exact rows
  | fromMbxdata => exact rows

lemma completeAccessSubindexLoop_faults (mode : CaMode) (h : ¬ o.PassInside nsub maxBytes) :
    wlp env k (completeAccessSubindexLoop (σ := σ) o nsub mode maxBytes) (fun _ _ => False) c := by
  rw [Objectlist.PassInside, not_forall] at h
  obtain ⟨first, h⟩ := h
  rw [Classical.not_imp, not_or] at h
  rw [completeAccessSubindexLoop, wlp_bind, wlp_lift]
  intro first' hfirst'
  rw [h.1, Except.ok.injEq] at hfirst'
  subst hfirst'
  rw [wlp_ite]
  refine ⟨fun hdynamic => (h.2.1 hdynamic).elim, fun _ => ?_⟩
  have rows {c : Coe σ} : wlp env k (caRows o mode maxBytes _ nsub 0) (fun _ _ => False) c :=
    caRows_faults mode h.2.2
  cases mode with
  | upload =>
      rw [wlp_ask_bind]
      exact wlp.bind (wlp_true _) fun _ _ _ => rows
  | size => exact rows
  | fromMailbox start => exact rows
  | fromMbxdata => exact rows

/-! ## Complete Access requests -/

/-- The entry or object that an initiate request addresses can be looked up, and a pass over the
object for Complete Access stays in its table. -/
def Mailbox.InitiateInside (m : Mailbox) (table : List Objectlist) : Prop :=
  if m.sdoCommand &&& coeCompleteaccess = coeCompleteaccess then
    ∃ r, completeAccessGetVariables table m.sdoIndex m.sdoSubindex = .ok r ∧
      ∀ o nsub, r = .ok (o, nsub) → o.PassInside nsub 0
  else
    ∃ r, lookupEntry table m.sdoIndex m.sdoSubindex = .ok r

lemma caUploadReply_frees (n : ℕ) (index : Word) (subindex : Byte) (bits size : ℕ)
    (flags : Word) : Frees env (caUploadReply (σ := σ) n index subindex bits size flags) := by
  have hdata := env.sys.mbxdata_ne
  refine .ask_bind <| .bind (coeModifyMb_finishes _) fun _ => coeMb_bind fun _ =>
    .ite (fun _ => ?_) fun _ => ?_
  · exact .bind (coeModifyMb_finishes _) fun _ => .bind (sdoLoad_finishes (.inl hdata) _) fun _ =>
      finishUpload_frees _ _ _ _
  · exact .bind (coeModifyMb_finishes _) fun _ =>
      .bind (.when fun _ => coeModifyMb_finishes _) fun _ =>
        .bind (coeModifyMb_finishes _) fun _ => .bind (sdoLoad_finishes (.inl hdata) _) fun _ =>
          finishUpload_frees _ _ _ _

lemma sdoUploadCompleteAccess_frees (h : ∃ r,
    completeAccessGetVariables env.sys.dict.table c.mb.sdoIndex c.mb.sdoSubindex = .ok r ∧
      ∀ o nsub, r = .ok (o, nsub) → o.PassInside nsub 0) :
    wp env k sdoUploadCompleteAccess (fun _ c' => c'.mb.Free) c := by
  obtain ⟨r, hr, hinside⟩ := h
  rw [sdoUploadCompleteAccess, wp_bind, wp_coeMb, wp_bind, wp_coeTable, wp_bind, wp_lift]
  refine ⟨r, hr, ?_⟩
  match r with
  | .error abort => exact setStateIdle_frees _ _ _ _ k c
  | .ok (o, nsub) =>
      obtain ⟨ho, hsub⟩ := completeAccessGetVariables_found hr
      obtain ⟨first, hfirst⟩ := sdoFindsubindex_row_zero hsub
      have pass (mode : CaMode) : Finishes env (completeAccessSubindexLoop o nsub mode 0) :=
        completeAccessSubindexLoop_finishes ho.mem mode hfirst (hinside o nsub rfl)
      refine EndsIn.bind (Q := fun c => c.mb.Free) (onMb_finishes escClaimbuffer_finishes)
        (fun n => ?_) k c
      refine .ite (fun _ => setStateIdle_frees _ _ _ _) fun _ => ?_
      refine .lift_bind hfirst (.bind (pass .size) fun bits => .ask_bind ?_)
      refine .ite (fun _ => setStateIdle_frees _ _ _ _) fun _ =>
        .ite (fun _ => setStateIdle_frees _ _ _ _) fun _ => ?_
      exact .bind (escUploadPreObjecthandler_finishes _ _ _ _ _) fun ⟨_, _⟩ =>
        .ite (fun _ => setStateIdle_frees _ _ _ _) fun _ =>
          .bind (pass .upload) fun _ => caUploadReply_frees _ _ _ _ _ _

lemma sdoUploadCompleteAccess_faults (hidle : c.mb.ReplyIdle env.sys.opts) (h : ¬ ∃ r,
    completeAccessGetVariables env.sys.dict.table c.mb.sdoIndex c.mb.sdoSubindex = .ok r ∧
      ∀ o nsub, r = .ok (o, nsub) → o.PassInside nsub 0) :
    wlp env k sdoUploadCompleteAccess (fun _ _ => False) c := by
  rw [sdoUploadCompleteAccess, wlp_bind, wlp_coeMb, wlp_bind, wlp_coeTable, wlp_bind, wlp_lift]
  intro r hr
  match r with
  | .error abort => exact (h ⟨.error abort, hr, fun _ _ h => by cases h⟩).elim
  | .ok (o, nsub) =>
      refine wlp_claim hidle fun n hn => ?_
      rw [if_neg hn, wlp_bind, wlp_lift]
      refine fun first hfirst => wlp.bind (P := fun _ _ => False) ?_ fun _ _ h => h.elim
      refine completeAccessSubindexLoop_faults .size fun hinside => h ⟨_, hr, ?_⟩
      rintro _ _ ⟨⟩
      exact hinside

/-! ## Download of one entry -/

/-- A string that the download in the inbox announces is no longer than its entry: the zeroes behind
it are cleared up to the end of the entry. -/
def Mailbox.FillInside (m : Mailbox) (table : List Objectlist) (alStatus : Word) : Prop :=
  ∀ d, lookupEntry table m.sdoIndex m.sdoSubindex = .ok (.ok d) →
    writeAccess d.access (alStatus.setWidth 8 &&& 0x0f) →
      d.datatype = dtypeVisibleString → m.downloadData.1 ≤ d.size

/-- What a download addresses can be looked up, and zeroes are cleared inside the entry only. -/
def Mailbox.DownloadInside (m : Mailbox) (table : List Objectlist) (alStatus : Word) : Prop :=
  if m.sdoCommand &&& coeCompleteaccess = coeCompleteaccess then
    ∃ r, completeAccessGetVariables table m.sdoIndex m.sdoSubindex = .ok r ∧
      ∀ o nsub, r = .ok (o, nsub) → o.PassInside nsub 0
  else
    (∃ r, lookupEntry table m.sdoIndex m.sdoSubindex = .ok r) ∧ m.FillInside table alStatus

/-- What is cleared behind a short string is part of the entry. -/
lemma sub32_size_lt {d : Objd} {size : ℕ} (h : size ≤ d.size) : sub32 d.size size < 2 ^ 31 := by
  have hlt := d.bitlength.isLt
  have hsize : d.size = (d.bitlength.toNat + 7) % 2 ^ 32 / 8 := rfl
  rw [sub32]
  omega

/-- Behind a string that is too long there is nothing to clear, and the length goes round. -/
lemma le_sub32_size {d : Objd} {size : ℕ} (h : d.size < size) (hsize : size < 2 ^ 16) :
    2 ^ 31 ≤ sub32 d.size size := by
  have hlt := d.bitlength.isLt
  have hd : d.size = (d.bitlength.toNat + 7) % 2 ^ 32 / 8 := rfl
  rw [sub32]
  omega

lemma Mailbox.downloadData_lt (m : Mailbox) : m.downloadData.1 < 2 ^ 16 := by
  rw [downloadData]
  split
  · exact Nat.lt_of_le_of_lt (Nat.sub_le _ _) (by decide)
  · exact Nat.mod_lt _ (by decide)

lemma needsSegments_finishes (length size : ℕ) :
    Finishes env (needsSegments (σ := σ) length size) :=
  .ite (fun _ => .bind (headerTail_finishes _ _) fun _ => .pure _) fun _ => .pure _

lemma sdoDownloadAccepted_finishes (index : Word) (subindex : Byte) {d : Objd}
    (hdata : d.data ≠ 0) (size data : ℕ) :
    Finishes env (sdoDownloadAccepted (σ := σ) index subindex d size data) := by
  refine coeMb_bind fun m => .bind (needsSegments_finishes _ _) fun segments => ?_
  refine .ite (fun _ => ?_) fun _ => ?_
  all_goals
    exact .bind (coeModifyMb_finishes _) fun _ => .bind (sdoStore_finishes (.inl hdata) _ _)
      fun _ =>
      .bind (onMb_finishes escClaimbuffer_finishes) fun _ =>
        .bind (.when fun _ => downloadResponse_finishes _ _ _ _) fun _ => .when fun _ =>
          .bind (escDownloadPostObjecthandler_finishes _ _ _) fun _ =>
            .when fun _ => sdoAbort_finishes _ _ _ _

lemma sdoDownloadEntry_frees {index : Word}
    (hmax : ∀ bytes, ∃ r, coeMaxSub ⟨env.sys.dict.table, bytes⟩ index = .ok r) (subindex : Byte)
    {d : Objd} (hdata : d.data ≠ 0) (size data : ℕ) :
    Frees env (sdoDownloadEntry (σ := σ) index subindex d size data) := by
  refine .bind (escDownloadPreObjecthandler_finishes hmax _ _ _ _) fun abort =>
    .ite (fun _ => ?_) fun _ => .ite (fun _ => ?_) fun _ => ?_
  · exact coeMb_bind fun _ => .bind (needsSegments_finishes _ _) fun _ => .ite
      (fun _ => .bind (sdoAbort_finishes _ _ _ _) fun _ => release_frees)
      fun _ => .bind (coeModifyMb_finishes _) fun _ => release_frees
  · exact .bind (sdoDownloadAccepted_finishes _ _ hdata _ _) fun _ => release_frees
  · exact .bind (sdoAbort_finishes _ _ _ _) fun _ => release_frees

lemma sdoDownload_frees
    (h : (∃ r, lookupEntry env.sys.dict.table c.mb.sdoIndex c.mb.sdoSubindex = .ok r) ∧
      c.mb.FillInside env.sys.dict.table env.alStatus) :
    wp env k sdoDownload (fun _ c' => c'.mb.Free) c := by
  obtain ⟨⟨r, hr⟩, hfill⟩ := h
  rw [sdoDownload, wp_bind, wp_coeMb, wp_bind, wp_coeTable, wp_bind, wp_lift]
  refine ⟨r, hr, ?_⟩
  cases r with
  | error abort => exact setStateIdle_frees _ _ _ _ k c
  | ok d =>
      obtain ⟨o, ho, hd⟩ := lookupEntry_found hr
      obtain ⟨first, hfirst⟩ := row_zero_isOk hd
      rw [coeState, wp_bind, wp_ask_bind, wp_pure]
      by_cases hwrite : ¬ writeAccess d.access (env.alStatus.setWidth 8 &&& 0x0f)
      · rw [if_pos hwrite]
        exact setStateIdle_frees _ _ _ _ k c
      rw [if_neg hwrite]
      have hdata := env.sys.dict.data_ne ho.mem hd (not_not.mp hwrite)
      refine EndsIn.ite (Q := fun c : Coe σ => c.mb.Free) (fun _ => setStateIdle_frees _ _ _ _)
        (fun _ => .bind (.when fun hpad => ?_) fun _ =>
          sdoDownloadEntry_frees (coeMaxSub_isOk ho hfirst) _ hdata _ _) k c
      have hrest := sub32_size_lt (hfill d hr (not_not.mp hwrite) hpad.2)
      intro k c
      rw [headerTail, wp_bind, wp_transact]
      exact sdoFill_finishes (.inl (by omega)) hrest _ _

lemma sdoDownload_faults
    (h : ¬ ((∃ r, lookupEntry env.sys.dict.table c.mb.sdoIndex c.mb.sdoSubindex = .ok r) ∧
      c.mb.FillInside env.sys.dict.table env.alStatus)) :
    wlp env k sdoDownload (fun _ _ => False) c := by
  rw [sdoDownload, wlp_bind, wlp_coeMb, wlp_bind, wlp_coeTable, wlp_bind, wlp_lift]
  intro r hr
  have hlong : ¬ c.mb.FillInside env.sys.dict.table env.alStatus :=
    fun hfill => h ⟨⟨r, hr⟩, hfill⟩
  simp only [Mailbox.FillInside, not_forall] at hlong
  obtain ⟨d, hd, hwrite, hstring, hlong⟩ := hlong
  rw [hr, Except.ok.injEq] at hd
  subst hd
  have hlt := Nat.not_le.mp hlong
  have hsize : c.mb.downloadData.1 ≠ d.size := Nat.ne_of_gt hlt
  have hrest := le_sub32_size hlt c.mb.downloadData_lt
  rw [coeState, wlp_bind, wlp_ask_bind, wlp_pure, if_neg (not_not.mpr hwrite)]
  generalize c.mb.downloadData = p at *
  obtain ⟨size, data⟩ := p
  dsimp only at hsize hrest ⊢
  rw [if_neg fun hmismatch => hmismatch.2.1 hstring, wlp_bind, when, if_pos ⟨hsize, hstring⟩,
    headerTail, wlp_bind, wlp_transact, sdoFill, if_pos hrest]
  exact wlp_fault _ _

/-! ## Complete Access download -/

lemma caDownloadResponse_frees (index : Word) (subindex : Byte) :
    Frees env (caDownloadResponse (σ := σ) index subindex) :=
  .bind (onMb_finishes escClaimbuffer_finishes) fun _ =>
    .bind (.when fun _ => downloadResponse_finishes _ _ _ _) fun _ => setStateIdle_frees _ _ _ _

lemma caDownloadAccepted_frees (index : Word) (subindex : Byte) (flags : Word) (bytes data : ℕ)
    (pass : ∀ mode maxBytes,
      Finishes env (completeAccessSubindexLoop (σ := σ) o nsub mode maxBytes)) :
    Frees env (caDownloadAccepted (σ := σ) index subindex o nsub flags bytes data) := by
  refine .ask_bind <| coeMb_bind fun m => .ite (fun _ => .ite (fun _ => setStateIdle_frees _ _ _ _)
    fun _ => ?_) fun _ => ?_
  · exact .bind (coeModifyMb_finishes _) fun _ =>
      .bind (sdoStore_finishes (.inl env.sys.mbxdata_ne) _ _) fun _ => caDownloadResponse_frees _ _
  · exact .bind (coeModifyMb_finishes _) fun _ => .bind (pass _ _) fun _ =>
      .bind (escDownloadPostObjecthandler_finishes _ _ _) fun _ =>
        .ite (fun _ => setStateIdle_frees _ _ _ _) fun _ => caDownloadResponse_frees _ _

lemma sdoDownloadCompleteAccess_frees (h : ∃ r,
    completeAccessGetVariables env.sys.dict.table c.mb.sdoIndex c.mb.sdoSubindex = .ok r ∧
      ∀ o nsub, r = .ok (o, nsub) → o.PassInside nsub 0) :
    wp env k sdoDownloadCompleteAccess (fun _ c' => c'.mb.Free) c := by
  obtain ⟨r, hr, hinside⟩ := h
  rw [sdoDownloadCompleteAccess, wp_bind, wp_coeMb, wp_bind, wp_coeTable, wp_bind, wp_lift]
  refine ⟨r, hr, ?_⟩
  match r with
  | .error abort => exact setStateIdle_frees _ _ _ _ k c
  | .ok (o, nsub) =>
      obtain ⟨ho, hsub⟩ := completeAccessGetVariables_found hr
      obtain ⟨first, hfirst⟩ := sdoFindsubindex_row_zero hsub
      have pass (mode : CaMode) (maxBytes : ℕ) :
          Finishes env (completeAccessSubindexLoop o nsub mode maxBytes) :=
        completeAccessSubindexLoop_finishes ho.mem mode hfirst
          ((hinside o nsub rfl).bounded maxBytes)
      refine EndsIn.lift_bind (Q := fun c => c.mb.Free) hfirst ?_ k c
      refine .bind (pass .size 0) fun bits => ?_
      refine .ite (fun _ => setStateIdle_frees _ _ _ _) fun _ => .ite (fun _ => ?_)
        fun _ => setStateIdle_frees _ _ _ _
      exact .bind (escDownloadPreObjecthandler_finishes (coeMaxSub_isOk ho hfirst) _ _ _ _)
        fun _ => .ite (fun _ => setStateIdle_frees _ _ _ _) fun _ =>
          caDownloadAccepted_frees _ _ _ _ _ pass

lemma sdoDownloadCompleteAccess_faults (h : ¬ ∃ r,
    completeAccessGetVariables env.sys.dict.table c.mb.sdoIndex c.mb.sdoSubindex = .ok r ∧
      ∀ o nsub, r = .ok (o, nsub) → o.PassInside nsub 0) :
    wlp env k sdoDownloadCompleteAccess (fun _ _ => False) c := by
  rw [sdoDownloadCompleteAccess, wlp_bind, wlp_coeMb, wlp_bind, wlp_coeTable, wlp_bind, wlp_lift]
  intro r hr
  match r with
  | .error abort => exact (h ⟨.error abort, hr, fun _ _ h => by cases h⟩).elim
  | .ok (o, nsub) =>
      refine (wlp_bind _ _ _).mpr <| (wlp_lift _ _).mpr fun first hfirst =>
        wlp.bind (P := fun _ _ => False) ?_ fun _ _ h => h.elim
      refine completeAccessSubindexLoop_faults .size fun hinside => h ⟨_, hr, ?_⟩
      rintro _ _ ⟨⟩
      exact hinside

/-! ## Segments -/

/-- The bytes that the next segment of an upload takes from `ESCvar.data`. -/
def Mailbox.uploadSegmentSize (m : Mailbox) : ℕ :=
  if m.mbxDsize < (sub32 m.frags m.fragsleft + coeSegmentheadersize) % 2 ^ 32 then
    sub32 m.mbxDsize coeSegmentheadersize
  else sub32 m.frags m.fragsleft

lemma sdoUploadsegment_frees (hidle : c.mb.ReplyIdle env.sys.opts)
    (h : c.mb.data ≠ 0 ∨ c.mb.uploadSegmentSize = 0) :
    wp env k sdoUploadsegment (fun _ c' => c'.mb.Free) c := by
  rw [sdoUploadsegment, wp_bind, wp_coeMb]
  refine wp_claim hidle fun n hn => ?_
  rw [if_neg hn, wp_bind, wp_coeMb]
  have tail : Frees env (σ := σ) (do
      if c.mb.data = 0 ∧ c.mb.uploadSegmentSize ≠ 0 then
        fault .null
      else
        sdoLoad (c.mb.data + c.mb.fragsleft) c.mb.uploadSegmentSize
          (c.mb.buffer n + Mailbox.segmentOffset)
        finishUpload n c.mb.sdoIndex c.mb.sdoSubindex c.mb.flags) :=
    .ite (fun hnull => (h.elim (fun h => h hnull.1) hnull.2).elim) fun _ =>
      .bind (sdoLoad_finishes (by omega) _) fun _ => finishUpload_frees _ _ _ _
  refine EndsIn.bind (Q := fun c => c.mb.Free) (coeModifyMb_finishes _) (fun _ => ?_) k _
  refine .ite (fun _ => .bind (coeModifyMb_finishes _) fun _ => tail) fun _ => ?_
  refine .bind (coeModifyMb_finishes _) fun _ => ?_
  exact .ite (fun _ => .bind (coeModifyMb_finishes _) fun _ => tail) fun _ =>
    .bind (coeModifyMb_finishes _) fun _ => tail

lemma sdoUploadsegment_faults (hidle : c.mb.ReplyIdle env.sys.opts)
    (h : ¬ (c.mb.data ≠ 0 ∨ c.mb.uploadSegmentSize = 0)) :
    wlp env k sdoUploadsegment (fun _ _ => False) c := by
  rw [sdoUploadsegment, wlp_bind, wlp_coeMb]
  refine wlp_claim hidle fun n hn => ?_
  rw [if_neg hn, wlp_bind, wlp_coeMb]
  refine wlp.bind (wlp_true _) fun _ c₁ _ => ?_
  have hnull : c.mb.data = 0 ∧ c.mb.uploadSegmentSize ≠ 0 := by
    rw [not_or, not_not] at h
    exact h
  have tail (m : OnCoe σ Unit) (c₂ : Coe σ) : wlp env k
      (if c.mb.data = 0 ∧ c.mb.uploadSegmentSize ≠ 0 then fault .null else m)
      (fun _ _ => False) c₂ := by
    rw [if_pos hnull]
    exact wlp_fault _ _
  refine (wlp_ite _ _ _ _).mpr ⟨fun _ => ?_, fun _ => ?_⟩
  · exact wlp.bind (wlp_true _) fun _ _ _ => tail _ _
  · refine wlp.bind (wlp_true _) fun _ c₂ _ => (wlp_ite _ _ _ _).mpr ⟨fun _ => ?_, fun _ => ?_⟩
    all_goals exact wlp.bind (wlp_true _) fun _ _ _ => tail _ _

/-- The segment of a download can be stored, and if it completes a Complete Access download, the
object is looked up and passed over inside the tables. -/
def Mailbox.SegmentInside (m : Mailbox) (table : List Objectlist) : Prop :=
  let size := segmentSize (m.headerLength 0).toNat m.sdoCommand
  (m.data ≠ 0 ∨ size = 0) ∧
    (m.sdoCommand &&& coeCommandLastsegmentbit ≠ 0 → m.flags = completeAccessFlag →
      m.frags ≤ (m.fragsleft + size) % 2 ^ 32 →
        ∃ o r, Finds table m.index o ∧ sdoFindsubindex o m.subindex = .ok r ∧
          ∀ nsub, r = some nsub → o.PassInside nsub m.frags)

/-- Claiming a reply buffer leaves the first bytes of the inbox alone. -/
lemma Mailbox.claim_mbx {m : Mailbox} (hroom : escMbxhsize < m.activembxsize) {n i : ℕ}
    (hn : n ≠ 0) (hi : i ≤ 8) : (m.claim n).mbx i = m.mbx i := by
  have hbuffer : m.activembxsize ≤ m.buffer n := Nat.le_mul_of_pos_left _ (Nat.pos_of_ne_zero hn)
  simp only [escMbxhsize] at hroom
  simp only [Mailbox.claim, ByteStore.set, ByteStore.setWord, ByteStore.copy]
  rw [if_neg (by omega), if_neg (by omega), if_neg (by omega)]

lemma Mailbox.claim_headerLength {m : Mailbox} (hroom : escMbxhsize < m.activembxsize) {n : ℕ}
    (hn : n ≠ 0) : (m.claim n).headerLength 0 = m.headerLength 0 := by
  simp only [Mailbox.headerLength, Mailbox.buffer, Nat.zero_mul, ByteStore.word]
  rw [m.claim_mbx hroom hn (by omega), m.claim_mbx hroom hn (by omega)]

lemma Mailbox.claim_sdoCommand {m : Mailbox} (hroom : escMbxhsize < m.activembxsize) {n : ℕ}
    (hn : n ≠ 0) : (m.claim n).sdoCommand = m.sdoCommand :=
  m.claim_mbx hroom hn (by omega)

lemma caDownloadLast_frees {m : Mailbox} {size : ℕ}
    (h : m.frags ≤ (m.fragsleft + size) % 2 ^ 32 →
      ∃ o r, Finds env.sys.dict.table m.index o ∧ sdoFindsubindex o m.subindex = .ok r ∧
        ∀ nsub, r = some nsub → o.PassInside nsub m.frags) :
    wp env k (caDownloadLast m size) (fun complete c' => complete = false → c'.mb.Free) c := by
  have refused (abort : Dword) : wp env k (do
      setStateIdle 0 m.index m.subindex abort
      pure false) (fun complete c' => complete = false → c'.mb.Free) c := by
    rw [wp_bind]
    exact (setStateIdle_frees _ _ _ _ k c).mono fun _ _ hfree => (wp_pure _ _).mpr fun _ => hfree
  rw [caDownloadLast, wp_ite]
  refine ⟨fun _ => refused _, fun hfull => ?_⟩
  obtain ⟨o, r, ho, hr, hinside⟩ := h (Nat.le_of_not_lt hfull)
  obtain ⟨nidx, hfind, hat⟩ := ho
  rw [wp_bind, wp_coeTable, wp_bind, wp_lift]
  refine ⟨some nidx, hfind, ?_⟩
  rw [wp_bind, wp_lift]
  refine ⟨o, hat, ?_⟩
  rw [wp_bind, wp_lift]
  refine ⟨r, hr, ?_⟩
  cases r with
  | none => exact refused _
  | some nsub =>
      obtain ⟨first, hfirst⟩ := sdoFindsubindex_row_zero hr
      have pass : Finishes env (completeAccessSubindexLoop (σ := σ) o nsub .fromMbxdata m.frags) :=
        completeAccessSubindexLoop_finishes (Finds.mem ⟨nidx, hfind, hat⟩) _ hfirst
          (hinside nsub rfl)
      rw [wp_bind]
      exact (pass k c).mono fun _ _ _ => (wp_pure _ _).mpr fun h => by cases h

lemma caDownloadLast_faults {m : Mailbox} {size : ℕ}
    (hfull : m.frags ≤ (m.fragsleft + size) % 2 ^ 32)
    (h : ¬ ∃ o r, Finds env.sys.dict.table m.index o ∧ sdoFindsubindex o m.subindex = .ok r ∧
        ∀ nsub, r = some nsub → o.PassInside nsub m.frags) :
    wlp env k (caDownloadLast m size) (fun _ _ => False) c := by
  rw [caDownloadLast, if_neg (Nat.not_lt.mpr hfull), wlp_bind, wlp_coeTable, wlp_bind, wlp_lift]
  intro found hfound
  cases found with
  | none => exact wlp_fault _ _
  | some nidx =>
      rw [wlp_bind, wlp_lift]
      intro o ho
      rw [wlp_bind, wlp_lift]
      intro r hr
      cases r with
      | none => exact (h ⟨o, none, ⟨nidx, hfound, ho⟩, hr, fun _ h => by cases h⟩).elim
      | some nsub =>
          refine wlp.bind (P := fun _ _ => False) ?_ fun _ _ h => h.elim
          refine completeAccessSubindexLoop_faults _ fun hinside =>
            h ⟨o, some nsub, ⟨nidx, hfound, ho⟩, hr, ?_⟩
          rintro _ ⟨⟩
          exact hinside

lemma sdoDownloadsegment_frees (hidle : c.mb.ReplyIdle env.sys.opts)
    (hroom : escMbxhsize < c.mb.activembxsize) (h : c.mb.SegmentInside env.sys.dict.table) :
    wp env k sdoDownloadsegment (fun _ c' => c'.mb.Free) c := by
  obtain ⟨hdata, hlast⟩ := h
  rw [sdoDownloadsegment]
  refine wp_claim hidle fun n hn => ?_
  rw [if_neg hn, wp_bind, wp_coeMb]
  simp only [Mailbox.claim_headerLength hroom hn, Mailbox.claim_sdoCommand hroom hn]
  refine (headerTail_finishes _ _ k _).bind fun _ c₁ _ => (coeModifyMb_finishes _ k _).bind
    fun _ c₂ _ => (sdoStore_finishes hdata _ _ k _).bind fun _ c₃ _ => ?_
  rw [wp_ite]
  refine ⟨fun hbit => ?_, fun _ => ?_⟩
  · have last : wp env k (if (c.mb.claim n).flags = completeAccessFlag then
        caDownloadLast (c.mb.claim n) (segmentSize (c.mb.headerLength 0).toNat c.mb.sdoCommand)
        else pure true) (fun complete c' => complete = false → c'.mb.Free) c₃ := by
      rw [wp_ite]
      exact ⟨fun hflags => caDownloadLast_frees (hlast hbit hflags),
        fun _ => (wp_pure _ _).mpr fun h => by cases h⟩
    refine last.bind fun complete c₄ hfree => ?_
    rw [wp_when]
    refine ⟨fun _ => ?_, fun h => hfree (eq_false_of_ne_true h)⟩
    refine EndsIn.bind (Q := fun c => c.mb.Free) (coeModifyMb_finishes _) (fun _ => ?_) k c₄
    refine .bind (escDownloadPostObjecthandler_finishes _ _ _) fun _ =>
      .ite (fun _ => setStateIdle_frees _ _ _ _) fun _ => ?_
    exact .bind (coeModifyMb_finishes _) fun _ => setStateIdle_frees _ _ _ _
  · refine EndsIn.bind (Q := fun c => c.mb.Free) (coeModifyMb_finishes _) (fun _ => ?_) k c₃
    exact .bind (coeModifyMb_finishes _) fun _ => setStateIdle_frees _ _ _ _

lemma sdoDownloadsegment_faults (hidle : c.mb.ReplyIdle env.sys.opts)
    (hroom : escMbxhsize < c.mb.activembxsize) (h : ¬ c.mb.SegmentInside env.sys.dict.table) :
    wlp env k sdoDownloadsegment (fun _ _ => False) c := by
  rw [sdoDownloadsegment]
  refine wlp_claim hidle fun n hn => ?_
  rw [if_neg hn, wlp_bind, wlp_coeMb]
  simp only [Mailbox.claim_headerLength hroom hn, Mailbox.claim_sdoCommand hroom hn]
  refine wlp.bind (wlp_true _) fun _ c₁ _ => wlp.bind (wlp_true _) fun _ c₂ _ => ?_
  by_cases hdata : c.mb.data ≠ 0 ∨
      segmentSize (c.mb.headerLength 0).toNat c.mb.sdoCommand = 0
  · refine wlp.bind (wlp_true _) fun _ c₃ _ => ?_
    simp only [Mailbox.SegmentInside, not_and, hdata, true_implies, Classical.not_imp] at h
    obtain ⟨hbit, hflags, hfull, h⟩ := h
    rw [if_pos hbit]
    refine wlp.bind (P := fun _ _ => False) ?_ fun _ _ h => h.elim
    rw [if_pos (show (c.mb.claim n).flags = completeAccessFlag from hflags)]
    exact caDownloadLast_faults hfull h
  · refine wlp.bind (P := fun _ _ => False) ?_ fun _ _ h => h.elim
    rw [sdoStore, if_pos (by rw [not_or, not_not] at hdata; exact hdata)]
    exact wlp_fault _ _

end Soes
