import Soes.Framework.Erasure
import Soes.Stack.Foe

/-!
# What the FoE server writes

The write functions belong to the application, so a call of one leaves no trace in the stack's own
variables.  The FoE code is therefore run with a configuration whose write functions note each call
as well (`FoeCfg.logged`): the file, the address offset, and the bytes handed over.

The note does not matter: with the log erased, the code does what it does without it
(`escFoeprocess_erases`), so that what is proved of the log is about the calls the code makes.
-/

namespace Soes

open Program

variable {σ : Type}

/-! ## Logging -/

/-- A call of a write function. -/
structure WriteCall where
  file : ℕ
  addressOffset : ℕ
  /-- What the buffer holds, as far as it is handed over. -/
  data : List Byte
  deriving DecidableEq, Repr

/-- File `i`, with a write function that notes each call. -/
@[simps] def FoeFile.logged (f : FoeFile σ) (i : ℕ) : FoeFile (σ × List WriteCall) where
  name := f.name
  maxData := f.maxData
  filepass := f.filepass
  writeOnlyInBoot := f.writeOnlyInBoot
  writeFunction o v buffer length :=
    let a := f.writeFunction o.1 v buffer length
    ((a.1, o.2 ++ [⟨i, v.addressOffset, buffer.bytes 0 length⟩]), a.2)

/-- The configuration with write functions that note each call. -/
@[simps] def FoeCfg.logged (cfg : FoeCfg σ) : FoeCfg (σ × List WriteCall) where
  bufferSize := cfg.bufferSize
  files := cfg.files.mapIdx fun i f => f.logged i

/-- The FoE code is given that configuration. -/
@[simps] def FoeEnv.logged (env : FoeEnv σ) : FoeEnv (σ × List WriteCall) where
  opts := env.opts
  cfg := env.cfg.logged
  alStatus := env.alStatus

/-- The calls noted. -/
abbrev FoeMem.log (s : FoeMem (σ × List WriteCall)) : List WriteCall := s.outside.2

/-- The log is forgotten. -/
@[simps] def FoeMem.erase (s : FoeMem (σ × List WriteCall)) : FoeMem σ where
  outside := s.outside.1
  mb := s.mb
  foe := s.foe

/-- A log is kept from here on. -/
@[simps] def FoeMem.logging (s : FoeMem σ) : FoeMem (σ × List WriteCall) where
  outside := (s.outside, [])
  mb := s.mb
  foe := s.foe

@[simp] lemma FoeMem.erase_logging (s : FoeMem σ) : s.logging.erase = s := rfl

lemma FoeCfg.logged_getElem? (cfg : FoeCfg σ) (i : ℕ) :
    cfg.logged.files[i]? = cfg.files[i]?.map fun f => f.logged i := by
  simp [List.getElem?_mapIdx]

/-- The files have the same names. -/
lemma FoeCfg.logged_findIdx? (cfg : FoeCfg σ) (p : List Byte → Bool) :
    cfg.logged.files.findIdx? (fun f => p f.name) = cfg.files.findIdx? fun f => p f.name := by
  have names : cfg.logged.files.map (fun f => f.name) = cfg.files.map fun f => f.name := by
    refine List.ext_getElem? fun i => ?_
    rw [List.getElem?_map, List.getElem?_map, FoeCfg.logged_getElem?, Option.map_map]
    rfl
  have h := congrArg (List.findIdx? p) names
  rwa [List.findIdx?_map, List.findIdx?_map] at h

/-! ## The log does not matter -/

section erases

variable {env : FoeEnv σ}

/-- Code that does with the log what the other does without it. -/
abbrev Unlogged {α : Type} (env : FoeEnv σ) (m' : OnFoe (σ × List WriteCall) α) (m : OnFoe σ α) :
    Prop :=
  Erases FoeMem.erase env.logged env m' m

lemma onFoeMb_erases {α : Type} (m : OnMailbox α) : Unlogged env (onFoeMb m) (onFoeMb m) :=
  Erases.within (by intro _; rfl) (by intro _; rfl) (by intro _ _; rfl) m

lemma foeModifyMb_erases (f : Mailbox → Mailbox) :
    Unlogged env (foeModifyMb f) (foeModifyMb f) := .modify fun _ => rfl

lemma foeModify_erases (f : Foe → Foe) : Unlogged env (foeModify f) (foeModify f) :=
  .modify fun _ => rfl

lemma foeAbort_erases (code : Dword) : Unlogged env (foeAbort code) (foeAbort code) := by
  refine .bind (.when ?_) fun _ => foeModify_erases _
  exact (onFoeMb_erases _).bind fun _ => .when (foeModifyMb_erases _)

lemma foeSendAck_erases : Unlogged env foeSendAck foeSendAck := by
  refine (onFoeMb_erases _).bind fun _ => .ite ?_ (.pure _)
  refine .get_bind fun _ => (foeModifyMb_erases _).bind fun _ => ?_
  exact (foeModify_erases _).bind fun _ => (foeModifyMb_erases _).bind fun _ => .pure _

lemma foeFopen_erases (numChars : Byte) (pass : Dword) :
    Unlogged env (foeFopen numChars pass) (foeFopen numChars pass) := by
  refine .ask_bind (.get_bind fun s => ?_)
  dsimp only [FoeEnv.logged, FoeMem.erase]
  rw [FoeCfg.logged_findIdx? env.cfg (strncmpEq (foeFileName s.mb.mbx numChars))]
  cases env.cfg.files.findIdx? fun f => strncmpEq (foeFileName s.mb.mbx numChars) f.name with
  | none => exact .pure _
  | some i =>
      dsimp only
      rw [FoeCfg.logged_getElem?]
      cases env.cfg.files[i]? with
      | none => exact .pure _
      | some f =>
          refine .ite (.pure _) (.ite (.pure _) ?_)
          exact (foeModify_erases _).bind fun _ => .pure _

lemma foeModifyFile_erases (f : FoeFileVar → FoeFileVar) :
    Unlogged env (foeModifyFile f) (foeModifyFile f) := by
  refine .get_bind fun s => ?_
  dsimp only [FoeMem.erase]
  cases s.foe.file with
  | none => exact .fault _
  | some i => exact foeModify_erases _

/-- The only code that adds to the log. -/
lemma foeCallWrite_erases : Unlogged env foeCallWrite foeCallWrite := by
  refine .ask_bind (.get_bind fun s => ?_)
  dsimp only [FoeEnv.logged, FoeMem.erase]
  cases s.foe.file with
  | none => exact .fault _
  | some i =>
      dsimp only
      rw [FoeCfg.logged_getElem?]
      cases env.cfg.files[i]? with
      | none => exact .fault _
      | some f => exact .transact fun _ => rfl

lemma foeFwriteByte_erases (b : Byte) :
    Unlogged env (foeFwriteByte env.cfg.logged b) (foeFwriteByte env.cfg b) := by
  refine (foeModify_erases _).bind fun _ => .get_bind fun s => ?_
  refine .bind (.ite ?_ (.pure _)) fun _ => (foeModify_erases _).bind fun _ => .pure _
  refine foeCallWrite_erases.bind fun _ => (foeModify_erases _).bind fun _ => ?_
  exact (foeModifyFile_erases _).bind fun _ => .pure _

lemma foeFwriteLoop_erases (length data ncopied : ℕ) :
    Unlogged env (foeFwriteLoop env.cfg.logged length data ncopied)
      (foeFwriteLoop env.cfg length data ncopied) := by
  induction length generalizing data ncopied with
  | zero => exact .pure _
  | succ length ih =>
      refine .get_bind fun s => .ite (.pure _) ?_
      exact (foeFwriteByte_erases _).bind fun _ => .ite (.pure _) (ih _ _)

lemma foeFwrite_erases (length : ℕ) : Unlogged env (foeFwrite length) (foeFwrite length) := by
  refine (foeModify_erases _).bind fun _ => .ask_bind ?_
  refine (foeFwriteLoop_erases _ _ _).bind fun _ => ?_
  exact (foeModifyFile_erases _).bind fun _ => .pure _

lemma foeFclose_erases : Unlogged env foeFclose foeFclose := by
  refine foeCallWrite_erases.bind fun _ => .get_bind fun s => ?_
  refine (foeModifyFile_erases _).bind fun _ => ?_
  exact (foeModify_erases _).bind fun _ => .pure _

lemma foeWrite_erases : Unlogged env foeWrite foeWrite := by
  refine .get_bind fun s => .ite (foeAbort_erases _) ?_
  refine (foeModify_erases _).bind fun _ => .get_bind fun _ => (foeFopen_erases _ _).bind
    fun _ => ?_
  refine .ite ?_ (foeAbort_erases _)
  exact foeSendAck_erases.bind fun _ => .ite (foeAbort_erases _) (foeModify_erases _)

lemma foeDataAccepted_erases (size : ℕ) :
    Unlogged env (foeDataAccepted size) (foeDataAccepted size) := by
  refine (foeFwrite_erases size).bind fun _ => .ite (foeAbort_erases _) ?_
  refine .get_bind fun _ => .ite ?_ (.ite (foeAbort_erases _) ?_)
  · exact .bind (.when (foeAbort_erases _)) fun _ => foeSendAck_erases.bind fun _ =>
      .when (foeAbort_erases _)
  · refine foeFclose_erases.bind fun _ => .ite (foeAbort_erases _) ?_
    exact foeSendAck_erases.bind fun _ => foeModify_erases _

lemma foeData_erases : Unlogged env foeData foeData := by
  refine .get_bind fun s => .ite (foeAbort_erases _) (.ite (foeAbort_erases _) (.ite ?_ ?_))
  · exact foeFclose_erases.bind fun _ => foeSendAck_erases.bind fun _ => foeModify_erases _
  · exact .ite (foeAbort_erases _) (foeDataAccepted_erases _)

/-- With the log erased, `ESC_foeprocess` does what it does without it. -/
theorem escFoeprocess_erases : Unlogged env escFoeprocess escFoeprocess := by
  have dispatch (m : Mailbox) : Unlogged env (foeDispatch m) (foeDispatch m) :=
    .ite (foeAbort_erases _) <| .ite foeWrite_erases <| .ite foeData_erases <|
      .ite (foeAbort_erases _) (foeAbort_erases _)
  refine .get_bind fun s => .when ?_
  refine .get_bind fun s => .bind (.when (foeModifyMb_erases _)) fun _ => .get_bind fun s => ?_
  exact .when ((dispatch _).bind fun _ => foeModifyMb_erases _)

end erases

end Soes
