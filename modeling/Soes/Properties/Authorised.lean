import Soes.Properties.FoeWrites
import Soes.Properties.FreshSessions

/-!
# What the FoE server is allowed to write

A WRQ is checked once, when it opens a file: the name, the password, and BOOT for a file that may
be written in BOOT only (`wrqFile`).  From then on data packets act on what is in `FOEvar`.

A run is followed together with the file for which the present mailbox session holds such a WRQ
(`nextGrant`), which ends with the transfer and with the session.  Nothing in the code ties the two
together: neither the end of a session nor a change of the AL state touches the FoE server.  In
the runs in which a session ends, and BOOT is left, only between transfers (`WriteOk`), every call
of a write function is one the session has a WRQ for, and made in BOOT where that is asked for.
-/

namespace Soes

open Program Mailbox

variable {σ : Type}

/-! ## Requests for writing -/

/-- `ESC_foeprocess` looks at the message in the inbox. -/
def Mailbox.foeHandled (m : Mailbox) : Prop :=
  m.mbxRun = true ∧ (m.xoe = mbxfoe ∨ m.xoe = 0 ∧ m.control 0 = .inclaim ∧ m.mbxtype 0 = mbxfoe)

instance (m : Mailbox) : Decidable m.foeHandled := by
  unfold Mailbox.foeHandled
  infer_instance

/-- The length of the file name in the inbox. -/
def Mailbox.foeNameLength (m : Mailbox) : Byte :=
  .ofNat 8 (sub32 (m.headerLength 0).toNat escFoehsize)

/-- `FOE_fopen` opens file `f` for a WRQ with this password. -/
def FoeFile.grants (f : FoeFile σ) (pass : Dword) (alStatus : Word) : Prop :=
  pass = f.filepass ∧ (f.writeOnlyInBoot = true → alStatus = escBoot.setWidth 16)

instance (f : FoeFile σ) (pass : Dword) (alStatus : Word) : Decidable (f.grants pass alStatus) := by
  unfold FoeFile.grants
  infer_instance

/-- The file that `FOE_fopen` opens for the WRQ in the inbox: the first one of that name, if the
password is its own and the slave is in BOOT where it needs to be. -/
def wrqFile (env : FoeEnv σ) (m : Mailbox) : Option ℕ :=
  (env.cfg.files.findIdx? fun f => strncmpEq (foeFileName m.mbx m.foeNameLength) f.name).filter
    fun i => ∃ f ∈ env.cfg.files[i]?, f.grants m.foeNumber env.alStatus

/-- The file that a WRQ in the inbox opens, if `ESC_foeprocess` is called now. -/
def FoeMem.opens (env : FoeEnv σ) (s : FoeMem σ) : Option ℕ :=
  if s.mb.foeHandled ∧ escFoehsize ≤ (s.mb.headerLength 0).toNat ∧ s.mb.foeOpcode = foeOpWrq ∧
      s.foe.foestate = .ready then
    wrqFile env s.mb
  else none

/-- The variables when file `i` was opened for writing, and the WRQ acknowledged. -/
def Foe.opened (v : Foe) (i maxData : ℕ) : Foe :=
  { v.init with
    file := some i
    files := fun k => if k = i then ⟨0, 0⟩ else v.files k
    fend := maxData
    foepacket := 1
    foestate := .waitForData }

/-! ## The FoE code writes for the open file only -/

/-- Calls are noted for the file that was open, which stays the same one; no transfer is opened. -/
structure Writes (s s' : FoeMem (σ × List WriteCall)) : Prop where
  file : s'.foe.file = s.foe.file
  waiting : s'.foe.foestate = .waitForData → s.foe.foestate = .waitForData
  calls : ∃ cs, s'.log = s.log ++ cs ∧ ∀ c ∈ cs, s.foe.file = some c.file

namespace Writes

variable {s s' : FoeMem (σ × List WriteCall)}

/-- Nothing is written. -/
lemma of_log (hlog : s'.log = s.log) (hfile : s'.foe.file = s.foe.file)
    (hwaiting : s'.foe.foestate = .waitForData → s.foe.foestate = .waitForData) : Writes s s' :=
  ⟨hfile, hwaiting, [], by rw [hlog, List.append_nil], fun _ h => (List.not_mem_nil h).elim⟩

lemma refl (s : FoeMem (σ × List WriteCall)) : Writes s s := .of_log rfl rfl id

lemma trans {s₁ s₂ s₃ : FoeMem (σ × List WriteCall)} (h : Writes s₁ s₂) (h' : Writes s₂ s₃) :
    Writes s₁ s₃ := by
  obtain ⟨cs, hlog, hcs⟩ := h.calls
  obtain ⟨cs', hlog', hcs'⟩ := h'.calls
  refine ⟨h'.file.trans h.file, fun hw => h.waiting (h'.waiting hw), cs ++ cs', ?_, fun c hc => ?_⟩
  · rw [hlog', hlog, List.append_assoc]
  · rcases List.mem_append.mp hc with hc | hc
    · exact hcs c hc
    · rw [← h.file]
      exact hcs' c hc

end Writes

instance : Std.Refl (Writes (σ := σ)) := ⟨Writes.refl⟩

instance : IsTrans (FoeMem (σ × List WriteCall)) Writes := ⟨fun _ _ _ => Writes.trans⟩

section code

variable {env : FoeEnv σ} {n : ℕ}

/-- FoE code, run with the log, that writes for the open file only. -/
abbrev KeepsWrites {α : Type} (env : FoeEnv σ) (m : OnFoe (σ × List WriteCall) α) : Prop :=
  KeepsAt env.logged Writes m

lemma onFoeMb_writes {α : Type} (m : OnMailbox α) : KeepsWrites env (onFoeMb m) :=
  .within (fun _ _ => .of_log rfl rfl id) _ m

lemma foeModifyMb_writes (f : Mailbox → Mailbox) : KeepsWrites env (foeModifyMb f) :=
  .modify fun _ => .of_log rfl rfl id

lemma foeModify_writes {f : Foe → Foe} (hfile : ∀ v, (f v).file = v.file)
    (hstate : ∀ v, (f v).foestate = .waitForData → v.foestate = .waitForData) :
    KeepsWrites env (foeModify f) :=
  .modify fun s => .of_log rfl (hfile s.foe) (hstate s.foe)

lemma foeInit_writes : KeepsWrites env foeInit :=
  foeModify_writes (fun _ => rfl) fun _ h => by cases h

lemma foeAbort_writes (code : Dword) : KeepsWrites env (foeAbort code) := by
  refine .bind (.when ?_) fun _ => foeInit_writes
  exact (onFoeMb_writes _).bind fun _ => .when (foeModifyMb_writes _)

lemma foeSendAck_writes : KeepsWrites env foeSendAck := by
  refine (onFoeMb_writes _).bind fun _ => .ite ?_ (.pure _)
  refine .get_bind fun _ => (foeModifyMb_writes _).bind fun _ => ?_
  refine (foeModify_writes ?_ ?_).bind fun _ => (foeModifyMb_writes _).bind fun _ => .pure _
  · exact fun _ => rfl
  · exact fun _ => id

lemma foeModifyFile_writes (f : FoeFileVar → FoeFileVar) :
    KeepsWrites env (foeModifyFile f) := by
  refine .get_bind fun s => ?_
  cases s.foe.file with
  | none => exact fun _ _ => wlp_fault _ _
  | some i => exact foeModify_writes (by intro _; rfl) (by intro _; exact id)

/-- A call is noted for the open file. -/
lemma foeCallWrite_writes : KeepsWrites env foeCallWrite := by
  refine .ask_bind fun n s => ?_
  rw [wlp_get_bind]
  dsimp only [FoeEnv.logged]
  cases hfile : s.foe.file with
  | none => exact wlp_fault _ _
  | some i =>
      dsimp only
      rw [FoeCfg.logged_getElem?]
      cases env.cfg.files[i]? with
      | none => exact wlp_fault _ _
      | some f =>
          refine (wlp_transact _ _).mpr ⟨rfl, id, [_], rfl, fun c hc => ?_⟩
          rw [List.mem_singleton.mp hc]
          exact hfile

lemma foeFwriteByte_writes (b : Byte) :
    KeepsWrites env (foeFwriteByte env.logged.cfg b) := by
  refine (foeModify_writes (by intro _; rfl) (by intro _; exact id)).bind fun _ => .get_bind
    fun s => ?_
  refine .bind (.ite ?_ (.pure _)) fun _ =>
    (foeModify_writes (by intro _; rfl) (by intro _; exact id)).bind fun _ => .pure _
  refine foeCallWrite_writes.bind fun _ => ?_
  refine (foeModify_writes (by intro _; rfl) (by intro _; exact id)).bind fun _ => ?_
  exact (foeModifyFile_writes _).bind fun _ => .pure _

lemma foeFwriteLoop_writes (length data ncopied : ℕ) :
    KeepsWrites env (foeFwriteLoop env.logged.cfg length data ncopied) := by
  induction length generalizing data ncopied with
  | zero => exact .pure _
  | succ length ih =>
      refine .get_bind fun s => .ite (.pure _) ?_
      exact (foeFwriteByte_writes _).bind fun _ => .ite (.pure _) (ih _ _)

lemma foeFwrite_writes (length : ℕ) : KeepsWrites env (foeFwrite length) := by
  refine (foeModify_writes (by intro _; rfl) (by intro _; exact id)).bind fun _ => .ask_bind ?_
  refine (foeFwriteLoop_writes _ _ _).bind fun _ => ?_
  exact (foeModifyFile_writes _).bind fun _ => .pure _

lemma foeFclose_writes : KeepsWrites env foeFclose := by
  refine foeCallWrite_writes.bind fun _ => .get_bind fun s => ?_
  refine (foeModifyFile_writes _).bind fun _ => ?_
  exact (foeModify_writes (by intro _; rfl) (by intro _; exact id)).bind fun _ => .pure _

lemma foeDataAccepted_writes (size : ℕ) : KeepsWrites env (foeDataAccepted size) := by
  refine (foeFwrite_writes size).bind fun _ => .ite (foeAbort_writes _) ?_
  refine .get_bind fun _ => .ite ?_ (.ite (foeAbort_writes _) ?_)
  · exact .bind (.when (foeAbort_writes _)) fun _ => foeSendAck_writes.bind fun _ =>
      .when (foeAbort_writes _)
  · refine foeFclose_writes.bind fun _ => .ite (foeAbort_writes _) ?_
    exact foeSendAck_writes.bind fun _ => foeInit_writes

/-- The application is the same: nothing was written. -/
abbrev SameOutside (s s' : FoeMem σ) : Prop := s'.outside = s.outside

instance : Std.Refl (SameOutside (σ := σ)) := ⟨fun _ => rfl⟩

instance : IsTrans (FoeMem σ) SameOutside := ⟨fun _ _ _ h h' => h'.trans h⟩

lemma foeAbort_keepsOutside (code : Dword) : Keeps (SameOutside (σ := σ)) (foeAbort code) := by
  refine .bind (.when ?_) fun _ => .modify fun _ => rfl
  exact .bind (.within (fun _ _ => rfl) _ _) fun _ => .when (.modify fun _ => rfl)

/-- A buffer is free for a reply. -/
def Mailbox.HasFree (o : Options) (m : Mailbox) : Prop :=
  scanBuffers m.control .idle (o.mbxBuffers - 1) ≠ 0

lemma escClaimbuffer_value {o : Options} {m : Mailbox} :
    wp o n escClaimbuffer (fun k _ => k ≠ 0 ↔ m.HasFree o) m := by
  rw [escClaimbuffer, wp_ask_bind, wp_get_bind, wp_bind]
  refine wp.when (fun _ => ?_) fun _ => (wp_pure _ _).mpr Iff.rfl
  exact (wp_modify _ _).mpr ((wp_pure _ _).mpr Iff.rfl)

lemma wp_foeModifyMb {env : FoeEnv σ} {s : FoeMem σ} (f : Mailbox → Mailbox)
    (Q : Unit → FoeMem σ → Prop) :
    wp env n (foeModifyMb f) Q s ↔ Q () { s with mb := f s.mb } :=
  wp_modify _ _

/-- An abort leaves the server ready. -/
lemma foeAbort_foe {env : FoeEnv σ} {s : FoeMem σ} (code : Dword) :
    wp env n (foeAbort code) (fun _ s' => s'.outside = s.outside ∧ s'.foe = s.foe.init) s := by
  refine wp.bind (P := fun _ s₁ => s₁.outside = s.outside ∧ s₁.foe = s.foe)
    (.when (fun _ => ?_) fun _ => ⟨rfl, rfl⟩) fun _ s₁ ⟨hout, hfoe⟩ => ?_
  · refine wp.bind (P := fun _ s₁ => s₁.outside = s.outside ∧ s₁.foe = s.foe)
      ((wp_within _ _ _ _).mpr (escClaimbuffer_value.mono fun _ _ _ => ⟨rfl, rfl⟩))
      fun k s₁ h₁ => ?_
    exact .when (fun _ => (wp_foeModifyMb _ _).mpr h₁) fun _ => h₁
  · rw [foeInit, foeModify, wp_modify, hfoe]
    exact ⟨hout, rfl⟩

/-- An acknowledgement counts the packet, if there is a buffer for it. -/
lemma foeSendAck_foe {env : FoeEnv σ} {s : FoeMem σ} :
    wp env n foeSendAck (fun res s' => s'.outside = s.outside ∧
      (res = 0 → s'.foe = { s.foe with foepacket := s.foe.foepacket + 1 }) ∧
      (res ≠ 0 → s'.foe = s.foe) ∧ (s.mb.HasFree env.opts → res = 0)) s := by
  refine wp.bind (P := fun k s₁ => s₁.outside = s.outside ∧ s₁.foe = s.foe ∧
      (k ≠ 0 ↔ s.mb.HasFree env.opts))
    ((wp_within _ _ _ _).mpr (escClaimbuffer_value.mono fun _ _ hk => ⟨rfl, rfl, hk⟩))
    fun k s₁ ⟨hout, hfoe, hfree⟩ => ?_
  refine (wp_ite _ _ _ _).mpr ⟨fun _ => ?_, fun hnone => ?_⟩
  · rw [wp_get_bind, wp_bind, wp_foeModifyMb, wp_bind, foeModify, wp_modify, wp_bind,
      wp_foeModifyMb, wp_pure]
    refine ⟨hout, fun _ => ?_, fun hne => (hne rfl).elim, fun _ => rfl⟩
    dsimp only
    rw [hfoe]
  · rw [wp_pure]
    exact ⟨hout, fun hzero => absurd hzero (by decide), fun _ => hfoe,
      fun h => (hnone (hfree.mpr h)).elim⟩

/-- Data is written for a transfer that is open. -/
lemma foeData_writes (s : FoeMem (σ × List WriteCall)) :
    wlp env.logged n foeData (fun _ s' => Writes s s' ∧
      (s.foe.foestate ≠ .waitForData → s'.outside = s.outside)) s := by
  rw [foeData, wlp_get_bind]
  dsimp only
  refine (wlp_ite _ _ _ _).mpr ⟨fun _ => ?_, fun hwaiting => ?_⟩
  · exact (foeAbort_writes _ n s).and ((foeAbort_keepsOutside _ _ n s).mono fun _ _ h _ => h)
  · have rest : KeepsWrites env (if s.mb.foeNumber ≠ s.foe.foepacket then foeAbort foeErrPacketno
        else if sub32 (s.mb.headerLength 0).toNat escFoehsize = 0 then do
          let _ ← foeFclose
          let _ ← foeSendAck
          foeInit
        else if s.foe.fend <
            (s.foe.fposition + sub32 (s.mb.headerLength 0).toNat escFoehsize) % 2 ^ 32 then
          foeAbort foeErrDiskfull
        else foeDataAccepted (sub32 (s.mb.headerLength 0).toNat escFoehsize)) := by
      refine .ite (foeAbort_writes _)
        (.ite ?_ (.ite (foeAbort_writes _) (foeDataAccepted_writes _)))
      exact foeFclose_writes.bind fun _ => foeSendAck_writes.bind fun _ => foeInit_writes
    exact (rest n s).mono fun _ s' h => ⟨h, fun hne => (hwaiting hne).elim⟩

/-- `FOE_fopen` opens the file that the request is for. -/
lemma foeFopen_opens (s : FoeMem (σ × List WriteCall)) :
    wlp env.logged n (foeFopen s.mb.foeNameLength s.mb.foeNumber) (fun res s' =>
      s'.outside = s.outside ∧ (res = 0 → ∃ i f, wrqFile env s.mb = some i ∧
        env.cfg.files[i]? = some f ∧ s'.foe = { s.foe with
          file := some i
          files := fun k => if k = i then ⟨0, 0⟩ else s.foe.files k
          fposition := 0
          fend := f.maxData })) s := by
  have refused {error : Dword} (hne : error ≠ 0) :
      wlp env.logged n (pure error : OnFoe (σ × List WriteCall) Dword) (fun res s' =>
        s'.outside = s.outside ∧ (res = 0 → ∃ i f, wrqFile env s.mb = some i ∧
          env.cfg.files[i]? = some f ∧ s'.foe = { s.foe with
            file := some i
            files := fun k => if k = i then ⟨0, 0⟩ else s.foe.files k
            fposition := 0
            fend := f.maxData })) s :=
    (wlp_pure _ _).mpr ⟨rfl, fun h => (hne h).elim⟩
  rw [foeFopen, wlp_ask_bind, wlp_get_bind]
  dsimp only [FoeEnv.logged]
  rw [FoeCfg.logged_findIdx? env.cfg (strncmpEq (foeFileName s.mb.mbx s.mb.foeNameLength))]
  cases hname : env.cfg.files.findIdx? fun f =>
      strncmpEq (foeFileName s.mb.mbx s.mb.foeNameLength) f.name with
  | none => exact refused (by decide)
  | some i =>
      dsimp only
      rw [FoeCfg.logged_getElem?]
      cases hfile : env.cfg.files[i]? with
      | none => exact refused (by decide)
      | some f =>
          refine (wlp_ite _ _ _ _).mpr ⟨fun _ => refused (by decide), fun hpass => ?_⟩
          refine (wlp_ite _ _ _ _).mpr ⟨fun _ => refused (by decide), fun hboot => ?_⟩
          rw [wlp_bind, foeModify, wlp_modify, wlp_pure]
          refine ⟨rfl, fun _ => ⟨i, f, ?_, hfile, rfl⟩⟩
          rw [wrqFile, hname]
          refine Option.filter_eq_some_iff.mpr ⟨rfl, ?_⟩
          refine decide_eq_true ⟨f, hfile, not_not.mp hpass, fun honly => ?_⟩
          exact not_not.mp fun hne => hboot ⟨honly, hne⟩

/-- `FOE_write` writes nothing, and leaves a transfer open only for the file that the request is
for. -/
lemma foeWrite_opens (s : FoeMem (σ × List WriteCall)) :
    wlp env.logged n foeWrite (fun _ s' => s'.outside = s.outside ∧
      (s'.foe.foestate = .waitForData → s.foe.foestate = .ready ∧
        ∃ i f, wrqFile env s.mb = some i ∧ env.cfg.files[i]? = some f ∧
          s'.foe = s.foe.opened i f.maxData)) s := by
  have aborted (code : Dword) (s₁ : FoeMem (σ × List WriteCall)) (h₁ : s₁.outside = s.outside) :
      wlp env.logged n (foeAbort code) (fun _ s' => s'.outside = s.outside ∧
        (s'.foe.foestate = .waitForData → s.foe.foestate = .ready ∧
          ∃ i f, wrqFile env s.mb = some i ∧ env.cfg.files[i]? = some f ∧
            s'.foe = s.foe.opened i f.maxData)) s₁ := by
    rw [foeAbort]
    refine wlp.bind (P := fun _ s₂ => s₂.outside = s.outside) ?_ fun _ s₂ h₂ => ?_
    · refine (Keeps.when ?_ _ n s₁).mono fun _ s₂ (h₂ : SameOutside s₁ s₂) => h₂.trans h₁
      exact .bind (.within (fun _ _ => rfl) _ _) fun _ => .when (.modify fun _ => rfl)
    · rw [foeInit, foeModify, wlp_modify]
      exact ⟨h₂, fun h => by cases h⟩
  rw [foeWrite, wlp_get_bind]
  refine (wlp_ite _ _ _ _).mpr ⟨fun _ => aborted _ s rfl, fun hready => ?_⟩
  rw [wlp_bind, foeInit, foeModify, wlp_modify, wlp_get_bind]
  refine (foeFopen_opens _).bind fun res s₁ hthen => ?_
  obtain ⟨h₁, hopen⟩ := hthen
  refine (wlp_ite _ _ _ _).mpr ⟨fun hres => ?_, fun _ => aborted _ s₁ h₁⟩
  obtain ⟨i, f, hi, hf, hfoe₁⟩ := hopen hres
  refine foeSendAck_foe.wlp.bind fun res s₂ hthen => ?_
  obtain ⟨h₂, hack, _⟩ := hthen
  have hout : s₂.outside = s.outside := h₂.trans h₁
  refine (wlp_ite _ _ _ _).mpr ⟨fun _ => aborted _ s₂ hout, fun hres₂ => ?_⟩
  rw [foeModify, wlp_modify]
  refine ⟨hout, fun _ => ⟨not_not.mp hready, i, f, hi, hf, ?_⟩⟩
  dsimp only
  rw [hack (not_not.mp hres₂), hfoe₁]
  rfl

/-- What `ESC_foeprocess` does: it writes for a transfer that is open, for its file, and opens one
only for an accepted WRQ. -/
structure FoeTurn (env : FoeEnv σ) (s s' : FoeMem (σ × List WriteCall)) : Prop where
  calls : ∃ cs, s'.log = s.log ++ cs ∧
    ∀ c ∈ cs, s.foe.foestate = .waitForData ∧ s.foe.file = some c.file
  waiting : s'.foe.foestate = .waitForData →
    (s.foe.foestate = .waitForData ∧ s'.foe.file = s.foe.file ∧ s.erase.opens env = none) ∨
      ∃ i f, s.erase.opens env = some i ∧ env.cfg.files[i]? = some f ∧
        s'.foe = s.foe.opened i f.maxData

namespace FoeTurn

variable {s s₁ s' : FoeMem (σ × List WriteCall)}

lemma of_writes (h : Writes s s')
    (hready : s.foe.foestate ≠ .waitForData → s'.outside = s.outside) :
    FoeTurn env s s' := by
  refine ⟨?_, fun hw => .inl ⟨h.waiting hw, h.file, ?_⟩⟩
  · by_cases hw : s.foe.foestate = .waitForData
    · obtain ⟨cs, hlog, hcs⟩ := h.calls
      exact ⟨cs, hlog, fun c hc => ⟨hw, hcs c hc⟩⟩
    · refine ⟨[], ?_, fun c hc => (List.not_mem_nil hc).elim⟩
      rw [FoeMem.log, hready hw, List.append_nil]
  · refine if_neg fun hopens => ?_
    have hready : s.foe.foestate = .ready := hopens.2.2.2
    rw [h.waiting hw] at hready
    cases hready

/-- What does not concern the FoE server may come before and after. -/
lemma within (h : FoeTurn env s₁ s') (hout : s₁.outside = s.outside) (hfoe : s₁.foe = s.foe)
    (hopens : s₁.erase.opens env = s.erase.opens env) : FoeTurn env s s' := by
  obtain ⟨⟨cs, hlog, hcs⟩, hwaiting⟩ := h
  rw [hfoe] at hcs
  rw [hfoe, hopens] at hwaiting
  exact ⟨⟨cs, by rw [hlog, FoeMem.log, hout], hcs⟩, hwaiting⟩

end FoeTurn

lemma foeDispatch_turn (s : FoeMem (σ × List WriteCall)) (hhandled : s.mb.foeHandled) :
    wlp env.logged n (foeDispatch s.mb) (fun _ s' => FoeTurn env s s') s := by
  have aborted (code : Dword) :
      wlp env.logged n (foeAbort code) (fun _ s' => FoeTurn env s s') s :=
    ((foeAbort_writes code n s).and (foeAbort_keepsOutside code _ n s)).mono fun _ _ h =>
      .of_writes h.1 fun _ => h.2
  refine (wlp_ite _ _ _ _).mpr ⟨fun _ => aborted _, fun hlength => ?_⟩
  refine (wlp_ite _ _ _ _).mpr ⟨fun hwrq => ?_, fun _ => ?_⟩
  · refine (foeWrite_opens s).mono fun _ s' ⟨hout, hwaiting⟩ => ⟨⟨[], ?_, ?_⟩, fun hw => .inr ?_⟩
    · rw [FoeMem.log, hout, List.append_nil]
    · exact fun c hc => (List.not_mem_nil hc).elim
    · obtain ⟨hready, i, f, hi, hf, hfoe⟩ := hwaiting hw
      refine ⟨i, f, ?_, hf, hfoe⟩
      rw [FoeMem.opens, if_pos ⟨hhandled, not_lt.mp hlength, hwrq, hready⟩]
      exact hi
  · refine (wlp_ite _ _ _ _).mpr ⟨fun _ => ?_, fun _ => ?_⟩
    · exact (foeData_writes s).mono fun _ _ h => .of_writes h.1 h.2
    · exact (wlp_ite _ _ _ _).mpr ⟨fun _ => aborted _, fun _ => aborted _⟩

lemma escFoeprocess_turn (s : FoeMem (σ × List WriteCall)) :
    wlp env.logged n escFoeprocess (fun _ s' => FoeTurn env s s') s := by
  have same : FoeTurn env s s := .of_writes (.refl s) fun _ => rfl
  rw [escFoeprocess, wlp_get_bind]
  refine .when (fun hrun => ?_) fun _ => same
  rw [wlp_get_bind]
  -- the message is marked as one of FoE, which is what handling it comes to
  refine wlp.bind (P := fun _ s₁ => s₁.outside = s.outside ∧ s₁.foe = s.foe ∧
      s₁.erase.opens env = s.erase.opens env ∧ (s₁.mb.xoe = mbxfoe → s₁.mb.foeHandled))
    (.when (fun hnew => ?_) fun _ => ?_) fun _ s₁ hthen => ?_
  · obtain ⟨hnone, hclaim, htype⟩ := hnew
    rw [wlp_foeModifyMb]
    have hmarked : s.mb.foeHandled := ⟨hrun, .inr ⟨hnone, hclaim, htype⟩⟩
    have hmarked₁ : Mailbox.foeHandled { s.mb with xoe := mbxfoe } := ⟨hrun, .inl rfl⟩
    refine ⟨rfl, rfl, if_congr ?_ rfl rfl, fun _ => hmarked₁⟩
    exact ⟨fun h => ⟨hmarked, h.2⟩, fun h => ⟨hmarked₁, h.2⟩⟩
  · exact ⟨rfl, rfl, rfl, fun hxoe => ⟨hrun, .inl hxoe⟩⟩
  · obtain ⟨hout, hfoe, hopens, hmarked⟩ := hthen
    rw [wlp_get_bind]
    refine .when (fun hxoe => ?_) fun _ => ?_
    rotate_left
    · refine .of_writes (.of_log (congrArg Prod.snd hout) ?_ ?_) fun _ => hout
      · rw [hfoe]
      · rw [hfoe]
        exact id
    refine (foeDispatch_turn s₁ (hmarked hxoe)).bind fun _ s₂ h₂ => ?_
    rw [wlp_foeModifyMb]
    have h₂' := h₂.within hout hfoe hopens
    exact ⟨h₂'.calls, h₂'.waiting⟩

end code

/-! ## Sessions and their requests -/

/-- What the FoE code of a device is given. -/
def Device.foeEnv (sys : DeviceSystem σ) (d : Device σ) : FoeEnv σ :=
  ⟨sys.sys.opts, sys.foe, d.world.al.alStatus⟩

/-- The file that a call opens, for the WRQ in the inbox. -/
def DeviceCall.opens (sys : DeviceSystem σ) (d : Device σ) : DeviceCall σ → Option ℕ
  | .foeprocess => (foeOf.get d).opens (d.foeEnv sys)
  | _ => none

/-- The write functions that a call calls. -/
def DeviceCall.writes (sys : DeviceSystem σ) (n : ℕ) (d : Device σ) : DeviceCall σ → List WriteCall
  | .foeprocess =>
      match escFoeprocess (d.foeEnv sys).logged n (foeOf.get d).logging with
      | .ok _ s => s.log
      | _ => []
  | _ => []

/-- The file of the WRQ that the present mailbox session holds: a WRQ that was accepted while the
mailboxes were running, which they have done since, and whose transfer is still open. -/
def nextGrant (sys : DeviceSystem σ) (d : Device σ) (c : DeviceCall σ) (d' : Device σ)
    (grant : Option ℕ) : Option ℕ :=
  if d.world.mb.mbxRun = true ∧ d'.world.mb.mbxRun = true ∧ d'.foe.foestate = .waitForData then
    (c.opens sys d).or grant
  else none

/-- A device, with the file of the WRQ that the session holds. -/
structure Granted (σ : Type) where
  device : Device σ
  grant : Option ℕ

/-- A call. -/
def Granted.Step (sys : DeviceSystem σ) (s : Granted σ) (l : ℕ × DeviceCall σ) (s' : Granted σ) :
    Prop :=
  Device.Step sys s.device l s'.device ∧ s'.grant = nextGrant sys s.device l.2 s'.device s.grant

/-- There is no WRQ at first. -/
def Granted.Initialised (sys : DeviceSystem σ) (s : Granted σ) : Prop :=
  Device.Initialised sys s.device ∧ s.grant = none

/-- The states reached by runs whose steps meet a condition. -/
def Granted.Reached (sys : DeviceSystem σ) (ok : Device σ → ℕ × DeviceCall σ → Prop)
    (s : Granted σ) : Prop :=
  Reachable (Granted.Initialised sys) (Granted.Step sys) (fun s => ok s.device) s

/-- The file that is open may be written in BOOT only. -/
def Device.bootOnly (sys : DeviceSystem σ) (d : Device σ) : Prop :=
  ∃ i f, d.foe.file = some i ∧ sys.foe.files[i]? = some f ∧ f.writeOnlyInBoot = true

/-- The calls that leave an open transfer what it was granted: they do not stop the mailboxes, a
restart of them in BOOT does not fail, and BOOT is not left for another state if the file may be
written in BOOT only. -/
def WriteOk (sys : DeviceSystem σ) (d : Device σ) : ℕ × DeviceCall σ → Prop
  | (n, .call c) => d.foe.foestate = .waitForData →
      ¬ c.stops sys.sys d.world ∧ (c.refused sys.sys n d.world → d.world.alNibble ≠ escBoot) ∧
        (d.bootOnly sys → ModeOk sys.sys d.world (n, c))
  | _ => True

/-! ## Runs -/

variable {sys : DeviceSystem σ} {n : ℕ} {d d' : Device σ} {s s' : Granted σ} {a : AlView}

/-- What holds along a run. -/
structure WriteInvariant (sys : DeviceSystem σ) (s : Granted σ) (a : AlView) : Prop where
  shows : Shows s.device.world.core a
  quiet : a.Quiet
  held : a.pending = true → a.st ≠ .boot
  init : a.st = .init → s.device.world.mb.mbxRun = false
  /-- A transfer that is open was granted by the session. -/
  transfer : s.device.foe.foestate = .waitForData → s.device.world.mb.mbxRun = true ∧
    ∃ i f, s.grant = some i ∧ s.device.foe.file = some i ∧ sys.foe.files[i]? = some f ∧
      (f.writeOnlyInBoot = true → a.st = .boot)

/-- A session goes on if nothing ends it. -/
lemma Session.runs {o : Options} {stops refused : Prop} {st st' : AlSt} {m m' : Mailbox}
    (h : Session o stops refused st m st' m') (hrun : m.mbxRun = true) (hinit : st ≠ .init)
    (hstops : ¬ stops) (hrefused : refused → st ≠ .boot) : m'.mbxRun = true := by
  cases h with
  | kept => exact hrun
  | stopped hs => exact (hstops hs).elim
  | started => rfl
  | startedBoot => rfl
  | failed hst =>
      rcases hst with hst | ⟨hst, hr⟩
      · exact (hinit hst).elim
      · exact (hrefused hr hst).elim

/-- Only `ESC_foeprocess` touches the FoE server. -/
lemma DeviceCall.keeps_foe {c : DeviceCall σ} (hc : c ≠ .foeprocess) :
    wlp sys n c.run (fun _ d' => d'.foe = d.foe) d := by
  cases c with
  | foeprocess => exact (hc rfl).elim
  | call | eoeprocess | eoeprocessTx | sdoComplete | claimbuffer | outreq =>
      rw [DeviceCall.run, wlp_within]
      exact fun _ _ _ => rfl

/-- The run of `ESC_foeprocess` with the log belongs to the one without it. -/
lemma Device.Step.foeTurn (hstep : Device.Step sys d (n, .foeprocess) d') :
    ∃ t, FoeTurn (d.foeEnv sys) (foeOf.get d).logging t ∧ t.foe = d'.foe := by
  have hrun : wlp sys n (DeviceCall.foeprocess (σ := σ)).run (fun _ d' =>
      ∃ t, FoeTurn (d.foeEnv sys) (foeOf.get d).logging t ∧ t.foe = d'.foe) d := by
    rw [DeviceCall.run, wlp_within]
    intro _ t hrun
    have herased : (escFoeprocess (d.foeEnv sys).logged n (foeOf.get d).logging).mapState
        FoeMem.erase = .ok () t := (escFoeprocess_erases n (foeOf.get d).logging).trans hrun
    obtain ⟨t', hlogged, rfl⟩ := Outcome.mapState_eq_ok.mp herased
    exact ⟨t', escFoeprocess_turn _ () t' hlogged, rfl⟩
  exact hrun () d' hstep

/-- What a WRQ opens is one of the files, and may be opened. -/
lemma wrqFile_grants {env : FoeEnv σ} {m : Mailbox} {i : ℕ} (h : wrqFile env m = some i) :
    ∃ f, env.cfg.files[i]? = some f ∧ f.grants m.foeNumber env.alStatus := by
  obtain ⟨f, hf, hgrants⟩ := of_decide_eq_true (Option.filter_eq_some_iff.mp h).2
  exact ⟨f, hf, hgrants⟩

/-- A request opens something only while the mailboxes run, and the server is ready. -/
lemma FoeMem.of_opens {env : FoeEnv σ} {s : FoeMem σ} {i : ℕ} (h : s.opens env = some i) :
    s.mb.mbxRun = true ∧ s.foe.foestate = .ready ∧ wrqFile env s.mb = some i := by
  rw [FoeMem.opens] at h
  split at h
  case isTrue hopens => exact ⟨hopens.1.1, hopens.2.2.2, h⟩
  case isFalse => cases h

/-- What a session holds goes on while the mailboxes run and the transfer is open. -/
lemma nextGrant_open {c : DeviceCall σ} {g : Option ℕ} (hrun : d.world.mb.mbxRun = true)
    (hrun' : d'.world.mb.mbxRun = true) (hw : d'.foe.foestate = .waitForData) :
    nextGrant sys d c d' g = (c.opens sys d).or g :=
  if_pos ⟨hrun, hrun', hw⟩

lemma DeviceCall.opens_of_ne {c : DeviceCall σ} (hc : c ≠ .foeprocess) : c.opens sys d = none := by
  cases c with
  | foeprocess => exact (hc rfl).elim
  | call | eoeprocess | eoeprocessTx | sdoComplete | claimbuffer | outreq => rfl

/-- A call keeps what holds along a run. -/
lemma Granted.Step.invariant (hooks : HooksNeutral sys.sys) {l : ℕ × DeviceCall σ}
    (h : WriteInvariant sys s a) (hok : WriteOk sys s.device l) (hstep : Granted.Step sys s l s') :
    ∃ a', WriteInvariant sys s' a' := by
  obtain ⟨d, g⟩ := s
  obtain ⟨d', g'⟩ := s'
  obtain ⟨n, c⟩ := l
  obtain ⟨hstep, hgrant⟩ := hstep
  dsimp only at hstep hgrant
  -- a transfer that was open before, and is so still
  have goes {st : AlSt} (hw : d.foe.foestate = .waitForData) (hw' : d'.foe.foestate = .waitForData)
      (hfile : d'.foe.file = d.foe.file) (hopens : c.opens sys d = none)
      (hrun' : d'.world.mb.mbxRun = true) (hst : d.bootOnly sys → st = .boot) :
      d'.world.mb.mbxRun = true ∧ ∃ i f, g' = some i ∧ d'.foe.file = some i ∧
        sys.foe.files[i]? = some f ∧ (f.writeOnlyInBoot = true → st = .boot) := by
    obtain ⟨hrun, i, f, hg, hi, hf, -⟩ := h.transfer hw
    refine ⟨hrun', i, f, ?_, hfile.trans hi, hf, fun honly => hst ⟨i, f, hi, hf, honly⟩⟩
    rw [hgrant, nextGrant_open hrun hrun' hw', hopens]
    exact hg
  have boot (hw : d.foe.foestate = .waitForData) (honly : d.bootOnly sys) : a.st = .boot := by
    obtain ⟨-, i, f, -, hi, hf, hboot⟩ := h.transfer hw
    obtain ⟨j, f', hj, hf', honly⟩ := honly
    have hsame : j = i := Option.some.inj (hj.symm.trans hi)
    rw [hsame] at hf'
    have hfsame : f' = f := Option.some.inj (hf'.symm.trans hf)
    exact hboot (hfsame ▸ honly)
  by_cases hprotocol : c.isProtocol
  · have hcore := DeviceCall.keeps_core hprotocol () d' hstep
    have hrun := DeviceCall.keeps_mbxRun hprotocol () d' hstep
    refine ⟨a, by rw [hcore]; exact h.shows, h.quiet, h.held,
      fun hinit => hrun.trans (h.init hinit),
      fun hw' => ?_⟩
    by_cases hfoe : c = .foeprocess
    case neg =>
      have hsame := DeviceCall.keeps_foe hfoe () d' hstep
      have hw : d.foe.foestate = .waitForData := hsame ▸ hw'
      exact goes hw hw' (by rw [hsame]) (DeviceCall.opens_of_ne hfoe)
        (hrun.trans (h.transfer hw).1) (boot hw)
    case pos =>
      subst hfoe
      obtain ⟨t, hturn, ht⟩ := Device.Step.foeTurn hstep
      have hwaiting := hturn.waiting (by rw [ht]; exact hw')
      rw [ht] at hwaiting
      rcases hwaiting with ⟨hw, hfile, hopens⟩ | ⟨i, f, hopens, -, hopened⟩
      · exact goes hw hw' hfile hopens (hrun.trans (h.transfer hw).1) (boot hw)
      · obtain ⟨hrun₀, -, hwrq⟩ := FoeMem.of_opens hopens
        have hrun' : d'.world.mb.mbxRun = true := hrun.trans hrun₀
        obtain ⟨f, hf, -, hboot⟩ := wrqFile_grants hwrq
        refine ⟨hrun', i, f, ?_, by rw [hopened]; rfl, hf, fun honly => ?_⟩
        · have hopens' : DeviceCall.foeprocess.opens sys d = some i := hopens
          change g' = some i
          rw [hgrant, nextGrant_open hrun₀ hrun' hw', hopens']
          rfl
        · have hstatus : d.world.al.alStatus = escBoot.setWidth 16 := hboot honly
          refine (h.shows.nibble_iff .boot).mp ?_
          change d.world.alNibble = escBoot
          rw [World.alNibble, hstatus]
          decide
  · cases c with
    | call c =>
        have hal : c.isAl := not_not.mp hprotocol
        have hfoe : d'.foe = d.foe :=
          DeviceCall.keeps_foe (fun hc => by cases hc) () d' hstep
        have hrun : wlp sys n (DeviceCall.call c).run (fun _ d' => Stack.Step sys.sys d.world (n, c)
            d'.world) d := by
          rw [DeviceCall.run, wlp_within]
          exact fun _ _ hrun => hrun
        obtain ⟨e, hshows, hevent, hsession⟩ := (hrun () d' hstep).session hooks h.shows hal
        have hinit' := hsession.init h.init
        refine ⟨a.step e, hshows, h.quiet.stepped (a.step_stepped e),
          (a.step_stepped e).not_held_in_boot h.held, hinit', fun hw' => ?_⟩
        have hw : d.foe.foestate = .waitForData := hfoe ▸ hw'
        obtain ⟨hstops, hrefused, hmode⟩ := hok hw
        have hrun₀ := (h.transfer hw).1
        have hnotinit : a.st ≠ .init := fun hst => by
          have hstop : d.world.mb.mbxRun = false := h.init hst
          rw [hstop] at hrun₀
          cases hrun₀
        have hrun' : d'.world.mb.mbxRun = true :=
          hsession.runs hrun₀ hnotinit hstops fun hr hst =>
            hrefused hr ((h.shows.nibble_iff .boot).mpr hst)
        refine goes hw hw' (by rw [hfoe]) rfl hrun' fun honly => ?_
        have hstays := not_leaves_boot h.shows h.quiet h.held (hmode honly) hevent (boot hw honly)
        cases hst : (a.step e).st with
        | boot => rfl
        | init =>
            have hstop' : d'.world.mb.mbxRun = false := hinit' hst
            rw [hstop'] at hrun'
            cases hrun'
        | preop | safeop | op =>
            rw [hst] at hstays
            cases hstays
    | _ => exact (hprotocol trivial).elim

/-- **The FoE server writes only what was authorised**, in every run whose calls meet `WriteOk`:
each call of a write function is one for the file of the WRQ that the present session holds, in BOOT
if the file may be written in BOOT only. -/
theorem writes_authorised (hooks : HooksNeutral sys.sys)
    (h : Granted.Reached sys (WriteOk sys) s) (c : DeviceCall σ) (n : ℕ) :
    ∀ w ∈ c.writes sys n s.device, s.grant = some w.file ∧ ∃ f, sys.foe.files[w.file]? = some f ∧
      (f.writeOnlyInBoot = true → s.device.world.alNibble = escBoot) := by
  obtain ⟨a, hinv⟩ : ∃ a, WriteInvariant sys s a := by
    refine Reachable.invariant (P := fun s : Granted σ => ∃ a, WriteInvariant sys s a)
      (fun s hinit => ?_) (fun _ _ _ ⟨_, hinv⟩ hok hstep => hstep.invariant hooks hinv hok) h
    have hsession := hinit.1.sessionInvariant
    refine ⟨AlView.initial, hsession.shows, ⟨by decide, by decide⟩, by decide, hsession.init,
      fun hw => ?_⟩
    have hready := (hsession.rests (hsession.init rfl)).ready
    rw [hw] at hready
    cases hready
  intro w hw
  cases c with
  | foeprocess =>
      rw [DeviceCall.writes] at hw
      split at hw
      case h_1 t hrun =>
        obtain ⟨cs, hlog, hcs⟩ := (escFoeprocess_turn _ () t hrun).calls
        rw [hlog] at hw
        obtain ⟨hwaiting, hfile⟩ := hcs w hw
        obtain ⟨-, i, f, hg, hi, hf, hboot⟩ := hinv.transfer hwaiting
        have hsame : i = w.file := Option.some.inj (hi.symm.trans hfile)
        rw [hsame] at hg hf
        exact ⟨hg, f, hf, fun honly => (hinv.shows.nibble_iff .boot).mpr (hboot honly)⟩
      case h_2 => exact (List.not_mem_nil hw).elim
  | call | eoeprocess | eoeprocessTx | sdoComplete | claimbuffer | outreq =>
      exact (List.not_mem_nil hw).elim

/-! ## On the example device -/

/-- A call that changes the AL state. -/
def DeviceCall.changesState : DeviceCall σ → Bool
  | .call .state | .call .smActEvent | .call (.sync0Account _) => true
  | _ => false

/-- Take a step, if it is possible and the condition holds. -/
def Granted.exec (sys : DeviceSystem σ) (ok : Device σ → DeviceCall σ → Bool) (s : Granted σ)
    (l : ℕ × DeviceCall σ) : Option (Granted σ) :=
  if ok s.device l.2 then
    (l.2.exec sys l.1 s.device).map fun d' => ⟨d', nextGrant sys s.device l.2 d' s.grant⟩
  else none

lemma Granted.exec_step {ok : Device σ → DeviceCall σ → Bool} {l : ℕ × DeviceCall σ}
    (h : Granted.exec sys ok s l = some s') : ok s.device l.2 = true ∧ Granted.Step sys s l s' := by
  rw [Granted.exec] at h
  split at h
  case isTrue hok =>
    obtain ⟨d', hexec, rfl⟩ := Option.map_eq_some_iff.mp h
    exact ⟨hok, DeviceCall.exec_step hexec, rfl⟩
  case isFalse => cases h

/-- The AL state changes only between transfers. -/
def Device.settled (d : Device σ) (c : DeviceCall σ) : Bool :=
  decide (d.foe.foestate = .ready) || !c.changesState

lemma Device.settled_ok {l : ℕ × DeviceCall σ} (h : d.settled l.2 = true) : WriteOk sys d l := by
  obtain ⟨n, c⟩ := l
  cases c with
  | call c =>
      intro hw
      have hstays : (DeviceCall.call c).changesState = false := by
        simpa [Device.settled, hw] using h
      cases c with
      | state => cases hstays
      | smActEvent => cases hstays
      | sync0Account seen => cases hstays
      | _ => exact ⟨id, fun hr => hr.elim, fun _ => trivial⟩
  | _ => trivial

/-- A run of the example device with the file. -/
def grantRun (ok : Device ByteStore → DeviceCall ByteStore → Bool)
    (ls : List (ℕ × DeviceCall ByteStore)) : Option (Granted ByteStore) :=
  (deviceStart fileDevice 8 (exampleChip 1 0 0) 0 fun _ => 0).bind fun d =>
    runSteps (Granted.exec fileDevice ok) ls ⟨d, none⟩

/-- The master sends the file's contents, and the stack has read the message. -/
def dataMessage : List (ℕ × DeviceCall ByteStore) :=
  (foeExchange foeOpData 1 [0x61, 0x62, 0x63]).take 2

lemma grantRun_reached {ok : Device ByteStore → DeviceCall ByteStore → Bool}
    {ok' : Device ByteStore → ℕ × DeviceCall ByteStore → Prop}
    (hok : ∀ d l, ok d l.2 = true → ok' d l) {ls : List (ℕ × DeviceCall ByteStore)}
    {s : Granted ByteStore} (h : grantRun ok ls = some s) : Granted.Reached fileDevice ok' s := by
  obtain ⟨d₀, hstart, hruns⟩ := Option.bind_eq_some_iff.mp h
  have hinit : Granted.Initialised fileDevice ⟨d₀, none⟩ := ⟨deviceStart_initialised hstart, rfl⟩
  refine runSteps_reachable (fun s l s' hexec => ?_) ls (.start hinit) hruns
  obtain ⟨hl, hstep⟩ := Granted.exec_step hexec
  exact ⟨hok _ l hl, hstep⟩

/-- A file that may be written in BOOT only is written in BOOT. -/
theorem writes_authorised_example : ∃ (s : Granted ByteStore) (w : WriteCall),
    w ∈ DeviceCall.foeprocess.writes fileDevice 8 s.device ∧ s.grant = some w.file ∧
      s.device.world.alNibble = escBoot := by
  have hrun : (grantRun Device.settled (stackCalls (masterRequest 3 0) ++
      foeExchange foeOpWrq 0 [0x66] ++ stackCalls (slavePosts ++ masterReads) ++ dataMessage)).map
      (fun s => DeviceCall.foeprocess.writes fileDevice 8 s.device) =
      some [⟨0, 0, [0x61, 0x62, 0x63]⟩] := by
    decide +kernel
  obtain ⟨s, hs, hwrites⟩ := Option.map_eq_some_iff.mp hrun
  have hmem : (⟨0, 0, [0x61, 0x62, 0x63]⟩ : WriteCall) ∈
      DeviceCall.foeprocess.writes fileDevice 8 s.device := by
    rw [hwrites]
    exact List.mem_singleton.mpr rfl
  have hreached : Granted.Reached fileDevice (WriteOk fileDevice) s :=
    grantRun_reached (fun _ _ => Device.settled_ok) hs
  obtain ⟨hgrant, f, hfile, hboot⟩ := writes_authorised fileHooks hreached .foeprocess 8 _ hmem
  refine ⟨s, _, hmem, hgrant, hboot ?_⟩
  rw [← Option.some.inj (hfile : some exampleFile = some f)]
  rfl

/-- A transfer that was granted in BOOT is written in PREOP, in a session that holds no WRQ. -/
theorem old_transfer_writes : ¬ ∀ (sys : DeviceSystem ByteStore) (s : Granted ByteStore)
    (c : DeviceCall ByteStore) (n : ℕ), HooksNeutral sys.sys →
    Granted.Reached sys (fun _ _ => True) s → ∀ w ∈ c.writes sys n s.device,
      s.grant = some w.file ∧ ∃ f, sys.foe.files[w.file]? = some f ∧
        (f.writeOnlyInBoot = true → s.device.world.alNibble = escBoot) := by
  intro h
  have hrun : (grantRun (fun _ _ => true)
      (abandonedTransfer ++ [(8, .call .state)] ++ dataMessage)).map
      (fun s => (s.grant, DeviceCall.foeprocess.writes fileDevice 8 s.device)) =
      some (none, [⟨0, 0, [0x61, 0x62, 0x63]⟩]) := by
    decide +kernel
  obtain ⟨s, hs, hseen⟩ := Option.map_eq_some_iff.mp hrun
  obtain ⟨hnone, hwrites⟩ := Prod.mk.inj hseen
  have hmem : (⟨0, 0, [0x61, 0x62, 0x63]⟩ : WriteCall) ∈
      DeviceCall.foeprocess.writes fileDevice 8 s.device := by
    rw [hwrites]
    exact List.mem_singleton.mpr rfl
  have hgrant := (h fileDevice s .foeprocess 8 fileHooks
    (grantRun_reached (fun _ _ _ => trivial) hs) _ hmem).1
  rw [hnone] at hgrant
  cases hgrant

end Soes
