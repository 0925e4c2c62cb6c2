import Soes.Properties.MbxProcess
import Soes.Properties.SlaveRefinement

/-!
# What the stack does to the AL status, its code and the surroundings

`ESC_ALerror` writes the AL status code to its register, `ESC_ALstatus` writes the AL status, and no
other code of the stack writes either, to the register or to `ESCvar`.  The lemmas `…_keepsShown`
say so function by function, for every relation between the states of the surroundings that accesses
to other registers and the application keep (`System.Leaves`).
-/

namespace Soes

open Program

variable {σ : Type} {α : Type}

/-! ## Accesses that a relation allows -/

/-- A callback keeps a relation between the states of the surroundings. -/
def AppCall.Keeps (R : σ → σ → Prop) (call : AppCall σ) : Prop :=
  ∀ o bytes alEvent, R o (call o bytes alEvent).outside

/-- The application keeps a relation between the states of the surroundings. -/
structure EscCfg.Leaves (cfg : EscCfg σ) (R : σ → σ → Prop) : Prop where
  setDefaultsHook : ∀ call, cfg.setDefaultsHook = some call → AppCall.Keeps R call
  preStateChangeHook : ∀ call, cfg.preStateChangeHook = some call → ∀ o as an,
    R o (call o as an).1
  postStateChangeHook : ∀ call, cfg.postStateChangeHook = some call → ∀ o as an,
    R o (call o as an).1
  applicationHook : ∀ call, cfg.applicationHook = some call → AppCall.Keeps R call
  safeStateOverride : ∀ call, cfg.safeStateOverride = some call → AppCall.Keeps R call
  preObjectDownloadHook : ∀ call, cfg.preObjectDownloadHook = some call →
    ∀ o bytes index subindex data size flags,
      R o (call o bytes index subindex data size flags).outside
  postObjectDownloadHook : ∀ call, cfg.postObjectDownloadHook = some call →
    ∀ o bytes index subindex flags, R o (call o bytes index subindex flags).outside
  preObjectUploadHook : ∀ call, cfg.preObjectUploadHook = some call →
    ∀ o bytes index subindex data size flags,
      R o (call o bytes index subindex data size flags).1.outside
  postObjectUploadHook : ∀ call, cfg.postObjectUploadHook = some call →
    ∀ o bytes index subindex flags, R o (call o bytes index subindex flags).outside
  rxpdoOverride : ∀ call, cfg.rxpdoOverride = some call → AppCall.Keeps R call
  txpdoOverride : ∀ call, cfg.txpdoOverride = some call → AppCall.Keeps R call
  cbApplyRxpdo : AppCall.Keeps R cfg.cbApplyRxpdo
  cbUpdateTxpdo : AppCall.Keeps R cfg.cbUpdateTxpdo
  escHwInterruptEnable : ∀ call, cfg.escHwInterruptEnable = some call → ∀ mask o alEvent,
    R o (call mask o alEvent).1
  escHwInterruptDisable : ∀ call, cfg.escHwInterruptDisable = some call → ∀ mask o alEvent,
    R o (call mask o alEvent).1
  escCheckDcHandler : ∀ call, cfg.escCheckDcHandler = some call → ∀ o dcsync limit,
    R o (call o dcsync limit).outside
  getDeviceId : ∀ call, cfg.getDeviceId = some call → ∀ o, R o (call o).1

/-- Accesses to the ESC keep a relation between the states of the surroundings, but for writes of
the AL status code register. -/
structure Hal.Leaves (hal : Hal σ) (R : σ → σ → Prop) : Prop where
  read : ∀ o alEvent address len, R o (hal.read o alEvent address len).outside
  write : ∀ o alEvent address len data, address ≠ escregAlerror →
    R o (hal.write o alEvent address len data).outside

/-- Everything but writes of the AL status code register keeps a relation between the states of the
surroundings. -/
structure System.Leaves (sys : System σ) (R : σ → σ → Prop) : Prop where
  hal : sys.hal.Leaves R
  cfg : sys.cfg.Leaves R
  /-- No SyncManager of the configuration starts at the AL status code register. -/
  sma : ∀ mode ∈ sys.opts.modes, mode.2.2.sma.toNat ≠ escregAlerror ∧
    mode.2.2.sme.toNat ≠ escregAlerror
  sm3Sma : sys.opts.sm3Sma.toNat ≠ escregAlerror

/-! ## Code on the bus -/

/-- The surroundings before and after are related. -/
def BusMove (R : σ → σ → Prop) (b b' : Bus σ) : Prop := R b.outside b'.outside

instance (R : σ → σ → Prop) [h : Std.Refl R] : Std.Refl (BusMove R) := ⟨fun b => h.refl b.outside⟩

instance (R : σ → σ → Prop) [h : IsTrans σ R] : IsTrans (Bus σ) (BusMove R) :=
  ⟨fun a b c => h.trans a.outside b.outside c.outside⟩

section bus

variable {hal : Hal σ} {R : σ → σ → Prop} (h : hal.Leaves R)

include h

lemma escRead_moves (address len : ℕ) : KeepsAt hal (BusMove R) (escRead address len) :=
  .transact fun _ => h.read _ _ _ _

lemma escWrite_moves {address : ℕ} (ha : address ≠ escregAlerror) (len : ℕ) (data : ByteStore) :
    KeepsAt hal (BusMove R) (escWrite address len data) :=
  .transact fun _ => h.write _ _ _ _ _ ha

lemma escSMwritepdi_moves (k : Fin 4) : KeepsAt hal (BusMove R) (escSMwritepdi k) := by
  refine .get_bind fun _ => escWrite_moves h ?_ _ _
  simp only [escregSm0pdi, escregSm0, escregAlerror]
  omega

variable [Std.Refl R]

omit h in
lemma updateSm_moves (k : Fin 4) (f : EscSm → EscSm) : KeepsAt hal (BusMove R) (updateSm k f) :=
  .modify fun _ => Std.Refl.refl (r := R) _

omit h in
lemma setSmTestresult_moves (result : Byte) : KeepsAt hal (BusMove R) (setSmTestresult result) :=
  .modify fun _ => Std.Refl.refl (r := R) _

variable [IsTrans σ R]

lemma escSMreadpdi_moves (k : Fin 4) : KeepsAt hal (BusMove R) (escSMreadpdi k) :=
  (escRead_moves h _ _).bind fun _ => updateSm_moves k _

lemma escSMstatus_moves (k : Fin 4) : KeepsAt hal (BusMove R) (escSMstatus k) :=
  (escRead_moves h _ _).bind fun _ => updateSm_moves k _

lemma escSMack_moves (k : ℕ) : KeepsAt hal (BusMove R) (escSMack k) :=
  (escRead_moves h _ _).bind fun _ => .pure _

lemma readSm_moves (k : Fin 4) : KeepsAt hal (BusMove R) (readSm k) :=
  (escRead_moves h _ _).bind fun _ => (updateSm_moves k _).bind fun _ => .pure _

lemma escSMenable_moves (k : Fin 4) : KeepsAt hal (BusMove R) (escSMenable k) :=
  (updateSm_moves k _).bind fun _ => (escSMwritepdi_moves h k).bind fun _ =>
    (KeepsAt.doWhile (escSMreadpdi_moves h k) _).bind fun _ =>
      .modify fun _ => Std.Refl.refl (r := R) _

lemma escSMdisable_moves (k : Fin 4) : KeepsAt hal (BusMove R) (escSMdisable k) :=
  (updateSm_moves k _).bind fun _ => (escSMwritepdi_moves h k).bind fun _ =>
    (KeepsAt.doWhile (escSMreadpdi_moves h k) _).bind fun _ =>
      .modify fun _ => Std.Refl.refl (r := R) _

lemma escCheckmbx_moves (mb0 mb1 : SmCfg) (state : Byte) :
    KeepsAt hal (BusMove R) (escCheckmbx mb0 mb1 state) := by
  have refuse : ∀ result : Byte, KeepsAt hal (BusMove R) (do
      setSmTestresult result
      escSMdisable 0
      escSMdisable 1
      pure (escInit ||| escError)) := fun result =>
    (setSmTestresult_moves result).bind fun _ => (escSMdisable_moves h 0).bind fun _ =>
      (escSMdisable_moves h 1).bind fun _ => .pure _
  exact (readSm_moves h 0).bind fun _ => (readSm_moves h 1).bind fun _ =>
    .ite (refuse _) (.ite (refuse _) (.pure _))

lemma escCheckSM23_moves (opts : Options) (sm2Sml sm3Sml : Word) (state : Byte) :
    KeepsAt hal (BusMove R) (escCheckSM23 opts sm2Sml sm3Sml state) :=
  (readSm_moves h 2).bind fun _ => .ite ((setSmTestresult_moves _).bind fun _ => .pure _)
    ((readSm_moves h 3).bind fun _ =>
      .ite ((setSmTestresult_moves _).bind fun _ => .pure _) (.pure _))

end bus

/-! ## CoE code -/

/-- The surroundings before and after are related. -/
def CoeMove (R : σ → σ → Prop) (c c' : Coe σ) : Prop := R c.outside c'.outside

instance (R : σ → σ → Prop) [h : Std.Refl R] : Std.Refl (CoeMove R) := ⟨fun c => h.refl c.outside⟩

instance (R : σ → σ → Prop) [h : IsTrans σ R] : IsTrans (Coe σ) (CoeMove R) :=
  ⟨fun a b c => h.trans a.outside b.outside c.outside⟩

section coe

variable {env : CoeEnv σ} {R : σ → σ → Prop} [Std.Refl R]

lemma coeModifyMb_moves (f : Mailbox → Mailbox) : KeepsAt env (CoeMove R) (coeModifyMb f) :=
  .modify fun _ => Std.Refl.refl (r := R) _

lemma coeMb_moves : KeepsAt env (CoeMove R) coeMb := .get_bind fun _ => .pure _

lemma coeTable_moves : KeepsAt env (CoeMove R) coeTable := .ask_bind (.pure _)

lemma coeState_moves : KeepsAt env (CoeMove R) coeState := .ask_bind (.pure _)

lemma onMb_moves (m : OnMailbox α) : KeepsAt env (CoeMove R) (onMb m) :=
  .within (fun _ _ => Std.Refl.refl (r := R) _) _ m

lemma coeLift_moves (x : Except Fault α) : KeepsAt env (CoeMove R) (lift x : OnCoe σ α) :=
  Keeps.lift (P := CoeMove R) x env

omit [Std.Refl R] in
lemma coeFault_moves (e : Fault) : KeepsAt env (CoeMove R) (fault e : OnCoe σ α) := fun _ _ =>
  wlp_fault _ _

lemma sdoStore_moves (dst len : ℕ) (src : ByteStore) (start : ℕ) :
    KeepsAt env (CoeMove R) (sdoStore dst len src start) :=
  .ite (coeFault_moves _) (.modify fun _ => Std.Refl.refl (r := R) _)

lemma sdoFill_moves (dst len : ℕ) : KeepsAt env (CoeMove R) (sdoFill dst len) :=
  .ite (coeFault_moves _) (sdoStore_moves _ _ _ _)

lemma sdoLoad_moves (src len dst : ℕ) : KeepsAt env (CoeMove R) (sdoLoad src len dst) :=
  .ite (coeFault_moves _) (.modify fun _ => Std.Refl.refl (r := R) _)

lemma headerTail_moves (length size : ℕ) : KeepsAt env (CoeMove R) (headerTail length size) :=
  .transact fun _ => Std.Refl.refl (r := R) _

variable [IsTrans σ R] (h : env.sys.cfg.Leaves R)

lemma sdoAbort_moves (reusembx : ℕ) (index : Word) (subindex : Byte) (abortcode : Dword) :
    KeepsAt env (CoeMove R) (sdoAbort reusembx index subindex abortcode) :=
  .bind (.ite (.pure _) (onMb_moves _)) fun _ => .when (coeModifyMb_moves _)

lemma setStateIdle_moves (reusembx : ℕ) (index : Word) (subindex : Byte) (abortcode : Dword) :
    KeepsAt env (CoeMove R) (setStateIdle reusembx index subindex abortcode) :=
  (KeepsAt.when (sdoAbort_moves _ _ _ _)).bind fun _ => coeModifyMb_moves _

lemma completeAccessSubindexLoop_moves (o : Objectlist) (nsub : ℕ) (mode : CaMode)
    (maxBytes : ℕ) : KeepsAt env (CoeMove R) (completeAccessSubindexLoop o nsub mode maxBytes) := by
  have upload (d : Objd) (size : ℕ) : KeepsAt env (CoeMove R) (caUploadEntry d size) :=
    .ask_bind <| .get_bind fun _ => coeState_moves.bind fun _ => .ite (sdoStore_moves _ _ _ _)
      (.ite (sdoStore_moves _ _ _ _) (sdoStore_moves _ _ _ _))
  have download (data : ByteStore) (d : Objd) (size : ℕ) :
      KeepsAt env (CoeMove R) (caDownloadEntry data d size) :=
    coeState_moves.bind fun _ => .when (sdoStore_moves _ _ _ _)
  have entry (d : Objd) (size : ℕ) : KeepsAt env (CoeMove R) (caEntry mode d size) := by
    refine .get_bind fun _ => ?_
    cases mode with
    | size => exact .pure _
    | upload => exact upload _ _
    | fromMailbox start => exact download _ _ _
    | fromMbxdata => exact .ask_bind (download _ _ _)
  have rows (left nsub size : ℕ) :
      KeepsAt env (CoeMove R) (caRows o mode maxBytes left nsub size) := by
    induction left generalizing nsub size with
    | zero => exact .pure _
    | succ left ih =>
        exact (coeLift_moves _).bind fun _ => (entry _ _).bind fun _ => .ite (.pure _) (ih _ _)
  refine (coeLift_moves _).bind fun _ => .ite (.pure _) ?_
  cases mode with
  | upload => exact .ask_bind ((sdoFill_moves _ _).bind fun _ => rows _ _ _)
  | size => exact rows _ _ _
  | fromMailbox start => exact rows _ _ _
  | fromMbxdata => exact rows _ _ _

lemma caDownloadLast_moves (m : Mailbox) (size : ℕ) :
    KeepsAt env (CoeMove R) (caDownloadLast m size) := by
  refine .ite ((setStateIdle_moves _ _ _ _).bind fun _ => .pure _) ?_
  refine coeTable_moves.bind fun _ => (coeLift_moves _).bind fun found => ?_
  cases found with
  | none => exact coeFault_moves _
  | some nidx =>
      refine (coeLift_moves _).bind fun _ => (coeLift_moves _).bind fun found => ?_
      cases found with
      | none => exact (setStateIdle_moves _ _ _ _).bind fun _ => .pure _
      | some nsub => exact (completeAccessSubindexLoop_moves _ _ _ _).bind fun _ => .pure _

include h

lemma escDownloadPreObjecthandler_moves (index : Word) (subindex : Byte) (data size : ℕ)
    (flags : Word) :
    KeepsAt env (CoeMove R) (escDownloadPreObjecthandler index subindex data size flags) := by
  refine .ask_bind <| .get_bind fun _ => .bind (.ite ((coeLift_moves _).map _) (.pure _)) fun _ =>
    .ite (.pure _) ?_
  cases hhook : env.sys.cfg.preObjectDownloadHook with
  | none => exact .pure _
  | some hook => exact .transact fun _ => h.preObjectDownloadHook hook hhook _ _ _ _ _ _ _

omit [IsTrans σ R] in
lemma escDownloadPostObjecthandler_moves (index : Word) (subindex : Byte) (flags : Word) :
    KeepsAt env (CoeMove R) (escDownloadPostObjecthandler index subindex flags) := by
  refine .ask_bind ?_
  cases hhook : env.sys.cfg.postObjectDownloadHook with
  | none => exact .pure _
  | some hook => exact .transact fun _ => h.postObjectDownloadHook hook hhook _ _ _ _ _

omit [IsTrans σ R] in
lemma escUploadPreObjecthandler_moves (index : Word) (subindex : Byte) (data size : ℕ)
    (flags : Word) :
    KeepsAt env (CoeMove R) (escUploadPreObjecthandler index subindex data size flags) := by
  refine .ask_bind ?_
  cases hhook : env.sys.cfg.preObjectUploadHook with
  | none => exact .pure _
  | some hook => exact .transact fun _ => h.preObjectUploadHook hook hhook _ _ _ _ _ _ _

omit [IsTrans σ R] in
lemma escUploadPostObjecthandler_moves (index : Word) (subindex : Byte) (flags : Word) :
    KeepsAt env (CoeMove R) (escUploadPostObjecthandler index subindex flags) := by
  refine .ask_bind ?_
  cases hhook : env.sys.cfg.postObjectUploadHook with
  | none => exact .pure _
  | some hook => exact .transact fun _ => h.postObjectUploadHook hook hhook _ _ _ _ _

lemma finishUpload_moves (n : ℕ) (index : Word) (subindex : Byte) (flags : Word) :
    KeepsAt env (CoeMove R) (finishUpload n index subindex flags) :=
  coeMb_moves.bind fun _ => .bind (.ite (escUploadPostObjecthandler_moves h _ _ _) (.pure _))
    fun _ => .ite (setStateIdle_moves _ _ _ _) ((coeModifyMb_moves _).bind fun _ =>
      coeModifyMb_moves _)

lemma sdoUpload_moves : KeepsAt env (CoeMove R) sdoUpload := by
  have expedited (n : ℕ) (index : Word) (subindex : Byte) (d : Objd) :
      KeepsAt env (CoeMove R) (sdoUploadExpedited n index subindex d) :=
    (coeModifyMb_moves _).bind fun _ => (escUploadPreObjecthandler_moves h _ _ _ _ _).bind fun _ =>
      .ite (setStateIdle_moves _ _ _ _) <| .ite
        ((coeModifyMb_moves _).bind fun _ => finishUpload_moves h _ _ _ _)
        (coeMb_moves.bind fun _ => (sdoLoad_moves _ _ _).bind fun _ => finishUpload_moves h _ _ _ _)
  have normal (n : ℕ) (index : Word) (subindex : Byte) (d : Objd) :
      KeepsAt env (CoeMove R) (sdoUploadNormal n index subindex d) := by
    refine (escUploadPreObjecthandler_moves h _ _ _ _ _).bind fun _ =>
      .ite (setStateIdle_moves _ _ _ _) <| (coeModifyMb_moves _).bind fun _ =>
        coeMb_moves.bind fun _ => ?_
    exact .ite ((coeModifyMb_moves _).bind fun _ => (coeModifyMb_moves _).bind fun _ =>
        (sdoLoad_moves _ _ _).bind fun _ => finishUpload_moves h _ _ _ _)
      ((coeModifyMb_moves _).bind fun _ => (coeModifyMb_moves _).bind fun _ =>
        (sdoLoad_moves _ _ _).bind fun _ => finishUpload_moves h _ _ _ _)
  refine coeMb_moves.bind fun _ => coeTable_moves.bind fun _ => (coeLift_moves _).bind
    fun found => ?_
  cases found with
  | error abort => exact setStateIdle_moves _ _ _ _
  | ok d =>
      exact coeState_moves.bind fun _ => .ite (setStateIdle_moves _ _ _ _) <|
        (onMb_moves _).bind fun _ => .ite (coeModifyMb_moves _) <| (coeModifyMb_moves _).bind
          fun _ => .ite (expedited _ _ _ _) (normal _ _ _ _)

lemma sdoUploadCompleteAccess_moves : KeepsAt env (CoeMove R) sdoUploadCompleteAccess := by
  have reply (n : ℕ) (index : Word) (subindex : Byte) (bits size : ℕ) (flags : Word) :
      KeepsAt env (CoeMove R) (caUploadReply n index subindex bits size flags) :=
    .ask_bind <| (coeModifyMb_moves _).bind fun _ => coeMb_moves.bind fun _ => .ite
      ((coeModifyMb_moves _).bind fun _ => (sdoLoad_moves _ _ _).bind fun _ =>
        finishUpload_moves h _ _ _ _)
      ((coeModifyMb_moves _).bind fun _ => (KeepsAt.when (coeModifyMb_moves _)).bind fun _ =>
        (coeModifyMb_moves _).bind fun _ => (sdoLoad_moves _ _ _).bind fun _ =>
          finishUpload_moves h _ _ _ _)
  refine coeMb_moves.bind fun _ => coeTable_moves.bind fun _ => (coeLift_moves _).bind
    fun found => ?_
  cases found with
  | error abort => exact setStateIdle_moves _ _ _ _
  | ok found =>
      exact (onMb_moves _).bind fun _ => .ite (setStateIdle_moves _ _ _ _) <|
        (coeLift_moves _).bind fun _ => (completeAccessSubindexLoop_moves _ _ _ _).bind fun _ =>
          .ask_bind <| .ite (setStateIdle_moves _ _ _ _) <| .ite (setStateIdle_moves _ _ _ _) <|
            (escUploadPreObjecthandler_moves h _ _ _ _ _).bind fun _ =>
              .ite (setStateIdle_moves _ _ _ _) <| (completeAccessSubindexLoop_moves _ _ _ _).bind
                fun _ => reply _ _ _ _ _ _

lemma sdoUploadsegment_moves : KeepsAt env (CoeMove R) sdoUploadsegment := by
  refine coeMb_moves.bind fun _ => (onMb_moves _).bind fun _ => .ite (coeModifyMb_moves _) <|
    coeMb_moves.bind fun _ => (coeModifyMb_moves _).bind fun _ => .ite ?_ ?_
  · exact (coeModifyMb_moves _).bind fun _ => .ite (coeFault_moves _)
      ((sdoLoad_moves _ _ _).bind fun _ => finishUpload_moves h _ _ _ _)
  · refine (coeModifyMb_moves _).bind fun _ => .ite ?_ ?_
    all_goals
      exact (coeModifyMb_moves _).bind fun _ => .ite (coeFault_moves _)
        ((sdoLoad_moves _ _ _).bind fun _ => finishUpload_moves h _ _ _ _)

lemma sdoDownload_moves : KeepsAt env (CoeMove R) sdoDownload := by
  have segments (length size : ℕ) : KeepsAt env (CoeMove R) (needsSegments length size) :=
    .ite ((headerTail_moves _ _).bind fun _ => .pure _) (.pure _)
  have accepted (index : Word) (subindex : Byte) (d : Objd) (size data : ℕ) :
      KeepsAt env (CoeMove R) (sdoDownloadAccepted index subindex d size data) := by
    refine coeMb_moves.bind fun _ => (segments _ _).bind fun _ => .ite ?_ ?_
    all_goals
      exact (coeModifyMb_moves _).bind fun _ => (sdoStore_moves _ _ _ _).bind fun _ =>
        (onMb_moves _).bind fun _ => (KeepsAt.when (coeModifyMb_moves _)).bind fun _ =>
          .when ((escDownloadPostObjecthandler_moves h _ _ _).bind fun _ =>
            .when (sdoAbort_moves _ _ _ _))
  have entry (index : Word) (subindex : Byte) (d : Objd) (size data : ℕ) :
      KeepsAt env (CoeMove R) (sdoDownloadEntry index subindex d size data) := by
    refine (escDownloadPreObjecthandler_moves h _ _ _ _ _).bind fun _ => .ite ?_ (.ite ?_ ?_)
    · exact coeMb_moves.bind fun _ => (segments _ _).bind fun _ => .ite
        ((sdoAbort_moves _ _ _ _).bind fun _ => coeModifyMb_moves _)
        ((coeModifyMb_moves _).bind fun _ => coeModifyMb_moves _)
    · exact (accepted _ _ _ _ _).bind fun _ => coeModifyMb_moves _
    · exact (sdoAbort_moves _ _ _ _).bind fun _ => coeModifyMb_moves _
  refine coeMb_moves.bind fun _ => coeTable_moves.bind fun _ => (coeLift_moves _).bind
    fun found => ?_
  cases found with
  | error abort => exact setStateIdle_moves _ _ _ _
  | ok d =>
      exact coeState_moves.bind fun _ => .ite (setStateIdle_moves _ _ _ _) <| .ite
        (setStateIdle_moves _ _ _ _) <| (KeepsAt.when ((headerTail_moves _ _).bind fun _ =>
          sdoFill_moves _ _)).bind fun _ => entry _ _ _ _ _

lemma sdoDownloadCompleteAccess_moves : KeepsAt env (CoeMove R) sdoDownloadCompleteAccess := by
  have response (index : Word) (subindex : Byte) :
      KeepsAt env (CoeMove R) (caDownloadResponse index subindex) :=
    (onMb_moves _).bind fun _ => (KeepsAt.when (coeModifyMb_moves _)).bind fun _ =>
      setStateIdle_moves _ _ _ _
  have accepted (index : Word) (subindex : Byte) (o : Objectlist) (nsub : ℕ) (flags : Word)
      (bytes data : ℕ) :
      KeepsAt env (CoeMove R) (caDownloadAccepted index subindex o nsub flags bytes data) :=
    .ask_bind <| coeMb_moves.bind fun _ => .ite
      (.ite (setStateIdle_moves _ _ _ _) <| (coeModifyMb_moves _).bind fun _ =>
        (sdoStore_moves _ _ _ _).bind fun _ => response _ _)
      ((coeModifyMb_moves _).bind fun _ => (completeAccessSubindexLoop_moves _ _ _ _).bind fun _ =>
        (escDownloadPostObjecthandler_moves h _ _ _).bind fun _ =>
          .ite (setStateIdle_moves _ _ _ _) (response _ _))
  refine coeMb_moves.bind fun _ => coeTable_moves.bind fun _ => (coeLift_moves _).bind
    fun found => ?_
  cases found with
  | error abort => exact setStateIdle_moves _ _ _ _
  | ok found =>
      refine (coeLift_moves _).bind fun _ => (completeAccessSubindexLoop_moves _ _ _ _).bind
        fun _ =>
        .ite (setStateIdle_moves _ _ _ _) <| .ite ?_ (setStateIdle_moves _ _ _ _)
      exact (escDownloadPreObjecthandler_moves h _ _ _ _ _).bind fun _ =>
        .ite (setStateIdle_moves _ _ _ _) (accepted _ _ _ _ _ _ _)

lemma sdoDownloadsegment_moves : KeepsAt env (CoeMove R) sdoDownloadsegment := by
  have complete (complete : Bool) (n : ℕ) (index : Word) (subindex : Byte) (flags : Word) :
      KeepsAt env (CoeMove R) (when complete do
        coeModifyMb fun m => { m with segmented := 0, frags := 0, fragsleft := 0 }
        let abort ← escDownloadPostObjecthandler index subindex flags
        if abort ≠ 0 then
          setStateIdle n index subindex abort
        else
          coeModifyMb fun m => m.setControl n .outreq
          setStateIdle 0 0 0 0) :=
    .when <| (coeModifyMb_moves _).bind fun _ => (escDownloadPostObjecthandler_moves h _ _ _).bind
      fun _ => .ite (setStateIdle_moves _ _ _ _) ((coeModifyMb_moves _).bind fun _ =>
        setStateIdle_moves _ _ _ _)
  refine (onMb_moves _).bind fun _ => .ite (setStateIdle_moves _ _ _ _) <| coeMb_moves.bind fun _ =>
    (headerTail_moves _ _).bind fun _ => (coeModifyMb_moves _).bind fun _ =>
      (sdoStore_moves _ _ _ _).bind fun _ => .ite (.bind (.ite (caDownloadLast_moves _ _) (.pure _))
        fun _ => complete _ _ _ _ _) ?_
  exact (coeModifyMb_moves _).bind fun _ => (coeModifyMb_moves _).bind fun _ =>
    setStateIdle_moves _ _ _ _

omit h in
lemma sdoInfoerror_moves (abortcode : Dword) : KeepsAt env (CoeMove R) (sdoInfoerror abortcode) :=
  (onMb_moves _).bind fun _ => .when <| (coeModifyMb_moves _).bind fun _ =>
    (coeModifyMb_moves _).bind fun _ => coeModifyMb_moves _

omit h in
lemma coePutIndexes_moves (n count i dst : ℕ) :
    KeepsAt env (CoeMove R) (coePutIndexes n count i dst) :=
  coeMb_moves.bind fun _ => coeTable_moves.bind fun _ => (coeLift_moves _).bind fun _ =>
    coeModifyMb_moves _

omit h in
lemma sdoGetodlist_moves : KeepsAt env (CoeMove R) sdoGetodlist := by
  have count (n entries frags : ℕ) : KeepsAt env (CoeMove R) (getodlistCount n entries frags) :=
    (coeModifyMb_moves _).bind fun _ => (coeModifyMb_moves _).bind fun _ =>
      (coeModifyMb_moves _).bind fun _ => coeModifyMb_moves _
  have all (n entries frags : ℕ) : KeepsAt env (CoeMove R) (getodlistAll n entries frags) := by
    refine coeMb_moves.bind fun _ => (coeModifyMb_moves _).bind fun _ => .bind (.ite ?_ ?_) fun _ =>
      (coeModifyMb_moves _).bind fun _ => (coePutIndexes_moves _ _ _ _).bind fun _ =>
        coeModifyMb_moves _
    · exact (coeModifyMb_moves _).bind fun _ => .pure _
    · exact (coeModifyMb_moves _).bind fun _ => .pure _
  exact coeTable_moves.bind fun _ => (coeLift_moves _).bind fun _ => (coeModifyMb_moves _).bind
    fun _ => coeMb_moves.bind fun _ => .ite (coeFault_moves _) <| .ite (sdoInfoerror_moves _) <|
      (onMb_moves _).bind fun _ => .when <| .ite ((count _ _ _).bind fun _ => coeModifyMb_moves _)
        ((all _ _ _).bind fun _ => coeModifyMb_moves _)

omit h in
lemma sdoGetodlistcont_moves : KeepsAt env (CoeMove R) sdoGetodlistcont :=
  (onMb_moves _).bind fun _ => .when <| coeMb_moves.bind fun _ => (coeModifyMb_moves _).bind
  fun _ =>
    (KeepsAt.when (coeModifyMb_moves _)).bind fun _ => (coeModifyMb_moves _).bind fun _ =>
      (coePutIndexes_moves _ _ _ _).bind fun _ => (coeModifyMb_moves _).bind fun _ =>
        coeModifyMb_moves _

omit h in
lemma sdoGetod_moves : KeepsAt env (CoeMove R) sdoGetod := by
  refine coeMb_moves.bind fun _ => coeTable_moves.bind fun _ => (coeLift_moves _).bind
    fun found => ?_
  cases found with
  | none => exact sdoInfoerror_moves _
  | some nidx =>
      exact (onMb_moves _).bind fun _ => .when <| (coeLift_moves _).bind fun _ =>
        (coeLift_moves _).bind fun _ => (coeModifyMb_moves _).bind fun _ =>
          (coeModifyMb_moves _).bind fun _ => (coeModifyMb_moves _).bind fun _ =>
            coeModifyMb_moves _

omit h in
lemma sdoGeted_moves : KeepsAt env (CoeMove R) sdoGeted := by
  refine coeMb_moves.bind fun _ => coeTable_moves.bind fun _ => (coeLift_moves _).bind
    fun found => ?_
  cases found with
  | error abort => exact sdoInfoerror_moves _
  | ok d =>
      exact (onMb_moves _).bind fun _ => .when <| (coeModifyMb_moves _).bind fun _ =>
        (coeModifyMb_moves _).bind fun _ => (coeModifyMb_moves _).bind fun _ => coeModifyMb_moves _

/-- CoE code touches the surroundings by its hooks only. -/
lemma escCoeprocess_moves : KeepsAt env (CoeMove R) escCoeprocess := by
  have request (m : Mailbox) : KeepsAt env (CoeMove R) (sdoRequest m) :=
    .ite (.ite (sdoUploadCompleteAccess_moves h) (sdoUpload_moves h)) <|
      .ite (sdoUploadsegment_moves h) <|
        .ite (.ite (sdoDownloadCompleteAccess_moves h) (sdoDownload_moves h)) <|
          .ite (sdoDownloadsegment_moves h) (.pure _)
  have dispatch (m : Mailbox) : KeepsAt env (CoeMove R) (coeDispatch m) :=
    .ite ((onMb_moves _).bind fun _ => coeModifyMb_moves _) <| .ite (request m) <|
      .ite sdoGetodlist_moves <| .ite sdoGetod_moves <| .ite sdoGeted_moves <|
        .ite ((onMb_moves _).bind fun _ => coeModifyMb_moves _)
          ((sdoAbort_moves _ _ _ _).bind fun _ => coeModifyMb_moves _)
  exact coeMb_moves.bind fun _ => .when <| coeMb_moves.bind fun _ =>
    (KeepsAt.when (.ite (onMb_moves _) (coeModifyMb_moves _))).bind fun _ => coeMb_moves.bind
    fun _ =>
      (KeepsAt.when sdoGetodlistcont_moves).bind fun _ => coeMb_moves.bind fun _ =>
        .when (dispatch _)

end coe

/-! ## The AL status and its code -/

/-- Replies are not written to the AL status code register. -/
def Mailbox.OutboxClear (m : Mailbox) : Prop :=
  m.activemb1.sma.toNat ≠ escregAlerror ∧ m.activemb1.sme.toNat ≠ escregAlerror

/-- The AL status and its code are the same, and the surroundings are related. -/
structure SameShown (R : σ → σ → Prop) (w w' : World σ) : Prop where
  status : w'.al.alStatus = w.al.alStatus
  error : w'.al.alError = w.al.alError
  outside : w.mb.OutboxClear → R w.outside w'.outside
  clear : w.mb.OutboxClear → w'.mb.OutboxClear

instance (R : σ → σ → Prop) [h : Std.Refl R] : Std.Refl (SameShown R) :=
  ⟨fun w => ⟨rfl, rfl, fun _ => h.refl w.outside, id⟩⟩

instance (R : σ → σ → Prop) [ht : IsTrans σ R] : IsTrans (World σ) (SameShown R) where
  trans _ _ _ h h' := ⟨h'.status.trans h.status, h'.error.trans h.error,
    fun hclear => ht.trans _ _ _ (h.outside hclear) (h'.outside (h.clear hclear)),
    fun hclear => h'.clear (h.clear hclear)⟩

section shown

variable {sys : System σ} {R : σ → σ → Prop}

lemma onBus_keepsShown {m : OnBus σ α} (hm : KeepsAt sys.hal (BusMove R) m) :
    KeepsAt sys (SameShown R) (onBus m) := fun n _ =>
  (wlp_within _ _ _ _).mpr ((hm n _).mono fun _ _ hb => ⟨rfl, rfl, fun _ => hb, id⟩)

lemma callAppCall_keepsShown {call : AppCall σ} (hcall : AppCall.Keeps R call) :
    KeepsAt sys (SameShown R) (callApp call) :=
  .modify fun _ => ⟨rfl, rfl, fun _ => hcall _ _ _, id⟩

lemma deviceId_keepsShown (h : sys.Leaves R) : KeepsAt sys (SameShown R) deviceId := by
  refine .ask_bind ?_
  cases hid : sys.cfg.getDeviceId with
  | none => exact (onBus_keepsShown (escRead_moves h.hal _ _)).map _
  | some getDeviceId =>
      exact .transact fun _ => ⟨rfl, rfl, fun _ => h.cfg.getDeviceId getDeviceId hid _, id⟩

/-- Code that writes where the outbox is. -/
lemma keepsShown_of_clear {m : Stack σ α} (hal : KeepsAl m)
    (hm : ∀ n (w : World σ), w.mb.OutboxClear → wlp sys n m (fun _ w' => SameShown R w w') w) :
    KeepsAt sys (SameShown R) m := by
  intro n w
  by_cases hclear : w.mb.OutboxClear
  · exact hm n w hclear
  · refine (hal sys n w).mono fun _ w' h' => ⟨?_, ?_, fun h => (hclear h).elim,
      fun h => (hclear h).elim⟩
    · rw [h'.al]
    · rw [h'.al]

variable [Std.Refl R]

/-- Code that leaves the surroundings, the AL status and the mailboxes alone. -/
lemma modify_keepsShown {f : World σ → World σ} (hstatus : ∀ w, (f w).al.alStatus = w.al.alStatus)
    (herror : ∀ w, (f w).al.alError = w.al.alError) (houtside : ∀ w, (f w).outside = w.outside)
    (hmb : ∀ w, (f w).mb.activemb1 = w.mb.activemb1) :
    KeepsAt sys (SameShown R) (modify f : Stack σ Unit) := by
  refine .modify fun w => ⟨hstatus w, herror w, fun _ => ?_, fun hclear => ?_⟩
  · rw [houtside]
    exact Std.Refl.refl _
  · rw [Mailbox.OutboxClear, hmb]
    exact hclear

lemma modifyAl_keepsShown {f : AlState → AlState} (hstatus : ∀ al, (f al).alStatus = al.alStatus)
    (herror : ∀ al, (f al).alError = al.alError) : KeepsAt sys (SameShown R) (modifyAl f) :=
  modify_keepsShown (fun _ => hstatus _) (fun _ => herror _) (fun _ => rfl) fun _ => rfl

lemma modifyWd_keepsShown (f : Watchdog → Watchdog) : KeepsAt sys (SameShown R) (modifyWd f) :=
  modify_keepsShown (fun _ => rfl) (fun _ => rfl) (fun _ => rfl) fun _ => rfl

lemma modifyMb_keepsShown {f : Mailbox → Mailbox} (hf : ∀ m, (f m).activemb1 = m.activemb1) :
    KeepsAt sys (SameShown R) (modifyMb f) :=
  modify_keepsShown (fun _ => rfl) (fun _ => rfl) (fun _ => rfl) fun _ => hf _

lemma onVariables_keepsShown (m : OnVariables α) : KeepsAt sys (SameShown R) (onVariables m) :=
  .within (fun _ _ => ⟨rfl, rfl, fun _ => Std.Refl.refl _, id⟩) _ m

lemma lift_keepsShown (x : Except Fault α) : KeepsAt sys (SameShown R) (lift x : Stack σ α) :=
  Keeps.lift (P := SameShown R) x sys

lemma callStateChangeHook_keepsShown {hook : Option (σ → Byte → Byte → σ × Byte × Byte)}
    (hhook : ∀ call, hook = some call → ∀ o as an, R o (call o as an).1) (as an : Byte) :
    KeepsAt sys (SameShown R) (callStateChangeHook hook as an) := by
  cases hook with
  | none => exact .pure _
  | some call => exact .transact fun _ => ⟨rfl, rfl, fun _ => hhook call rfl _ _ _, id⟩

lemma callMaskHook_keepsShown {hook : Option (Dword → σ → Dword → σ × Dword)}
    (hhook : ∀ call, hook = some call → ∀ mask o alEvent, R o (call mask o alEvent).1)
    (mask : Dword) : KeepsAt sys (SameShown R) (callMaskHook hook mask) := by
  cases hook with
  | none => exact .pure _
  | some call => exact .modify fun _ => ⟨rfl, rfl, fun _ => hhook call rfl _ _ _, id⟩

lemma callHook_keepsShown {hook : Option (AppCall σ)}
    (hhook : ∀ call, hook = some call → AppCall.Keeps R call) :
    KeepsAt sys (SameShown R) (callHook hook) := by
  cases hook with
  | none => exact .pure _
  | some call => exact callAppCall_keepsShown (hhook call rfl)

variable [IsTrans σ R] (h : sys.Leaves R)

include h

/-! ## Inputs and outputs -/

lemma appSafeState_keepsShown : KeepsAt sys (SameShown R) appSafeState :=
  .bind (modifyAl_keepsShown (fun _ => rfl) fun _ => rfl) fun _ =>
    .ask_bind (callHook_keepsShown h.cfg.safeStateOverride)

lemma escStopoutput_keepsShown : KeepsAt sys (SameShown R) escStopoutput :=
  .bind (modifyAl_keepsShown (fun _ => rfl) fun _ => rfl) fun _ =>
    (onBus_keepsShown (escSMdisable_moves h.hal _)).bind fun _ => appSafeState_keepsShown h

lemma escStopinput_keepsShown : KeepsAt sys (SameShown R) escStopinput :=
  .bind (modifyAl_keepsShown (fun _ => rfl) fun _ => rfl) fun _ =>
    (onBus_keepsShown (escSMdisable_moves h.hal _)).bind fun _ =>
      (onBus_keepsShown (escSMdisable_moves h.hal _)).bind fun _ =>
        .ask_bind (.when (callMaskHook_keepsShown h.cfg.escHwInterruptDisable _))

lemma escStartoutput_keepsShown (state : Byte) :
    KeepsAt sys (SameShown R) (escStartoutput state) :=
  .get_bind fun _ => (KeepsAt.when (onBus_keepsShown (escSMenable_moves h.hal _))).bind fun _ =>
    .bind (modifyAl_keepsShown (fun _ => rfl) fun _ => rfl) fun _ => .pure _

lemma escCheckDC_keepsShown : KeepsAt sys (SameShown R) escCheckDC := by
  refine (onBus_keepsShown ((escRead_moves h.hal _ _).bind fun _ => .pure _)).bind fun _ =>
    .ite (.ask_bind ?_) (.bind (modifyAl_keepsShown (fun _ => rfl) fun _ => rfl) fun _ => .pure _)
  cases hcheck : sys.cfg.escCheckDcHandler with
  | none => exact .pure _
  | some check =>
      exact .transact fun _ => ⟨rfl, rfl, fun _ => h.cfg.escCheckDcHandler check hcheck _ _ _, id⟩

lemma stopoutputFlagged_keepsShown : KeepsAt sys (SameShown R) stopoutputFlagged :=
  (escStopoutput_keepsShown h).bind fun _ => .get_bind fun _ =>
    .when (onBus_keepsShown (escSMdisable_moves h.hal _))

lemma escStopmbx_keepsShown : KeepsAt sys (SameShown R) escStopmbx :=
  .ask_bind <| .bind (modifyMb_keepsShown fun _ => rfl) fun _ =>
    (onBus_keepsShown (escSMdisable_moves h.hal _)).bind fun _ =>
      (onBus_keepsShown (escSMdisable_moves h.hal _)).bind fun _ => modifyMb_keepsShown fun _ => rfl

lemma escAddress_keepsShown : KeepsAt sys (SameShown R) escAddress :=
  (onBus_keepsShown (escRead_moves h.hal _ _)).bind fun _ =>
    modifyAl_keepsShown (fun _ => rfl) fun _ => rfl

lemma escReadControl_keepsShown : KeepsAt sys (SameShown R) escReadControl :=
  (onBus_keepsShown (escRead_moves h.hal _ _)).bind fun _ =>
    modifyAl_keepsShown (fun _ => rfl) fun _ => rfl

omit h in
lemma mapSm2_keepsShown : KeepsAt sys (SameShown R) mapSm2 :=
  .ask_bind <| .get_bind fun _ => (onVariables_keepsShown _).bind fun _ =>
    modifyAl_keepsShown (fun _ => rfl) fun _ => rfl

omit h in
lemma mapSm3_keepsShown : KeepsAt sys (SameShown R) mapSm3 :=
  .ask_bind <| .get_bind fun _ => (onVariables_keepsShown _).bind fun _ =>
    modifyAl_keepsShown (fun _ => rfl) fun _ => rfl

lemma ackRepeat_keepsShown : KeepsAt sys (SameShown R) ackRepeat :=
  .get_bind fun _ => KeepsAt.bind (modify_keepsShown (fun _ => rfl) (fun _ => rfl) (fun _ => rfl)
    fun _ => rfl) fun _ => (onBus_keepsShown (updateSm_moves 1 _)).bind fun _ =>
      onBus_keepsShown (escSMwritepdi_moves h.hal 1)

/-! ## Mailboxes -/

lemma escReadmbx_keepsShown : KeepsAt sys (SameShown R) escReadmbx :=
  .get_bind fun _ => (onBus_keepsShown (escRead_moves h.hal _ _)).bind fun _ =>
    .bind (modify_keepsShown (fun _ => rfl) (fun _ => rfl) (fun _ => rfl) fun _ => rfl) fun _ =>
      (onBus_keepsShown (escRead_moves h.hal _ _)).bind fun _ =>
        .bind (modify_keepsShown (fun _ => rfl) (fun _ => rfl) (fun _ => rfl) fun _ => rfl) fun _ =>
          (KeepsAt.when ((onBus_keepsShown (escRead_moves h.hal _ _)).bind fun _ => .pure _)).bind
            fun _ => modify_keepsShown (fun _ => rfl) (fun _ => rfl) (fun _ => rfl) fun _ => rfl

lemma escWritembx_keepsShown (k : ℕ) : KeepsAt sys (SameShown R) (escWritembx k) := by
  refine keepsShown_of_clear (escWritembx_slave k).keepsAl fun n w hclear => ?_
  rw [escWritembx, wlp_get_bind]
  have filled (w : World σ) : KeepsAt sys (SameShown R)
      (modify fun w => { w with mb := { w.mb with mbxfree := false } } : Stack σ Unit) :=
    modify_keepsShown (fun _ => rfl) (fun _ => rfl) (fun _ => rfl) fun _ => rfl
  refine KeepsAt.bind (P := SameShown R) (onBus_keepsShown (escWrite_moves h.hal hclear.1 _ _))
    (fun _ => ?_) n w
  exact (KeepsAt.when (onBus_keepsShown (escWrite_moves h.hal hclear.2 _ _))).bind fun _ =>
    filled w

lemma escAckmbxread_keepsShown : KeepsAt sys (SameShown R) escAckmbxread := by
  refine keepsShown_of_clear escAckmbxread_slave.keepsAl fun n w hclear => ?_
  rw [escAckmbxread, wlp_get_bind]
  refine KeepsAt.bind (P := SameShown R) (onBus_keepsShown (escWrite_moves h.hal hclear.1 _ _))
    (fun _ => ?_) n w
  exact modify_keepsShown (fun _ => rfl) (fun _ => rfl) (fun _ => rfl) fun _ => rfl

lemma mbxOutboxRead_keepsShown : KeepsAt sys (SameShown R) mbxOutboxRead := by
  refine (escAckmbxread_keepsShown h).bind fun _ => .bind (modify_keepsShown (fun _ => rfl)
    (fun _ => rfl) (fun _ => rfl) fun w => ?_) fun _ => .get_bind fun _ =>
      (KeepsAt.when (escWritembx_keepsShown h _)).bind fun _ => .bind (modify_keepsShown
        (fun _ => rfl) (fun _ => rfl) (fun _ => rfl) fun _ => rfl) fun _ => .get_bind
        fun _ => .pure _
  dsimp only
  split <;> rfl

lemma mbxRepeat_keepsShown : KeepsAt sys (SameShown R) mbxRepeat := by
  refine .get_bind fun _ => (KeepsAt.when (.ite ?_ ?_)).bind fun _ => .pure _
  · exact (escWritembx_keepsShown h _).bind fun _ => ackRepeat_keepsShown h
  · exact (onBus_keepsShown (escSMdisable_moves h.hal _)).bind fun _ => .bind (modify_keepsShown
      (fun _ => rfl) (fun _ => rfl) (fun _ => rfl) fun _ => rfl) fun _ =>
        (onBus_keepsShown (escSMenable_moves h.hal _)).bind fun _ =>
          (escWritembx_keepsShown h _).bind fun _ => ackRepeat_keepsShown h

lemma mbxPost_keepsShown : KeepsAt sys (SameShown R) mbxPost :=
  .get_bind fun _ => .when <| .ask_bind <| .when <| (escWritembx_keepsShown h _).bind fun _ =>
    (onBus_keepsShown (escSMstatus_moves h.hal _)).bind fun _ =>
      modify_keepsShown (fun _ => rfl) (fun _ => rfl) (fun _ => rfl) fun _ => rfl

omit [IsTrans σ R] h in
/-- Code on the mailboxes that leaves the outbox where it is. -/
lemma onMailbox_keepsShown {m : OnMailbox α}
    (hm : ∀ n mb, wlp sys.opts n m (fun _ mb' => mb'.activemb1 = mb.activemb1) mb) :
    KeepsAt sys (SameShown R) (onMailbox m) := fun n w => by
  rw [wlp_within]
  refine (hm n _).mono fun _ mb' h' => ⟨rfl, rfl, fun _ => Std.Refl.refl _, fun hclear => ?_⟩
  have hsame : (mailboxOf.put mb' w).mb.activemb1 = w.mb.activemb1 := h'
  rw [Mailbox.OutboxClear, hsame]
  exact hclear

omit [IsTrans σ R] h in
lemma mbxError_keepsShown (error : Word) : KeepsAt sys (SameShown R) (onMailbox (mbxError error)) :=
  onMailbox_keepsShown fun _ _ => (mbxError_posts error).mono fun _ _ hposts => by
    obtain ⟨posted, hledger, -⟩ := hposts
    exact (Fixed.mk.inj hledger.fixed).2.2.2.1

omit [IsTrans σ R] h in
lemma escXoeprocess_keepsShown : KeepsAt sys (SameShown R) (onMailbox escXoeprocess) :=
  onMailbox_keepsShown fun _ _ => escXoeprocess_pass.mono fun _ _ hpass => by
    obtain ⟨held, posted, hledger⟩ := hpass.exists_ledger
    exact (Fixed.mk.inj hledger.fixed).2.2.2.1

lemma escCoeprocess_keepsShown : KeepsAt sys (SameShown R) (onCoe escCoeprocess) := fun n w => by
  rw [wlp_within]
  have moves : KeepsAt ⟨sys, w.al.alStatus⟩ (CoeMove R) escCoeprocess := escCoeprocess_moves h.cfg
  refine ((moves n _).and escCoeprocess_pass).mono fun _ c' ⟨hmove, held, posted, hpass⟩ => ?_
  refine ⟨rfl, rfl, fun _ => hmove, fun hclear => ?_⟩
  have hsame : (coeOf.put c' w).mb.activemb1 = w.mb.activemb1 :=
    (Fixed.mk.inj hpass.ledger.fixed).2.2.2.1
  rw [Mailbox.OutboxClear, hsame]
  exact hclear

lemma mbxReceive_keepsShown : KeepsAt sys (SameShown R) mbxReceive := by
  have drop : KeepsAt sys (SameShown R) (do
      onMailbox (mbxError mbxerrInvalidheader)
      modify fun w => { w with mb := w.mb.setControl 0 .idle } : Stack σ Unit) :=
    (mbxError_keepsShown _).bind fun _ => modify_keepsShown (fun _ => rfl) (fun _ => rfl)
      (fun _ => rfl) fun _ => rfl
  have count : KeepsAt sys (SameShown R) (do
      modify fun w => { w with mb :=
        { (if w.mb.headerCnt 0 ≠ 0 ∧ w.mb.headerCnt 0 = w.mb.mbxincnt then
            w.mb.setControl 0 .idle else w.mb) with
          mbxincnt := w.mb.headerCnt 0 } }
      pure true : Stack σ Bool) := by
    refine KeepsAt.bind (modify_keepsShown (fun _ => rfl) (fun _ => rfl) (fun _ => rfl)
      fun w => ?_) fun _ => .pure _
    dsimp only
    split <;> rfl
  refine .get_bind fun _ => .ite ?_ (.pure _)
  exact (escReadmbx_keepsShown h).bind fun _ => (onBus_keepsShown (updateSm_moves 0 _)).bind
    fun _ => .get_bind fun _ => (KeepsAt.when drop).bind fun _ => count

lemma escMbxprocess_keepsShown : KeepsAt sys (SameShown R) escMbxprocess :=
  .get_bind fun _ => .ite (.pure _) <| .get_bind fun _ =>
    (KeepsAt.when ((onBus_keepsShown (escSMstatus_moves h.hal 0)).bind fun _ =>
      onBus_keepsShown (escSMstatus_moves h.hal 1))).bind fun _ => .get_bind fun _ =>
        .ite (mbxOutboxRead_keepsShown h) <| .ite (mbxRepeat_keepsShown h) <|
          (mbxPost_keepsShown h).bind fun _ => mbxReceive_keepsShown h

/-! ## Process data -/

lemma hwWatchdogConfigure_keepsShown : KeepsAt sys (SameShown R) hwWatchdogConfigure :=
  .get_bind fun _ => .when <| (onBus_keepsShown (escRead_moves h.hal _ _)).bind fun _ =>
    (onBus_keepsShown (escRead_moves h.hal _ _)).bind fun _ => modifyWd_keepsShown _

lemma readRxpdo_keepsShown : KeepsAt sys (SameShown R) readRxpdo :=
  .ask_bind <| .get_bind fun _ => (onBus_keepsShown (escRead_moves h.hal _ _)).bind fun _ =>
    modify_keepsShown (fun _ => rfl) (fun _ => rfl) (fun _ => rfl) fun _ => rfl

lemma digProcessRxpdo_keepsShown : KeepsAt sys (SameShown R) digProcessRxpdo := by
  have unpack : KeepsAt sys (SameShown R) rxpdoReadSm2 := by
    refine .ask_bind ?_
    cases hhook : sys.cfg.rxpdoOverride with
    | some call => exact callAppCall_keepsShown (h.cfg.rxpdoOverride call hhook)
    | none =>
        exact (readRxpdo_keepsShown h).bind fun _ => .when <| .get_bind fun _ =>
          (lift_keepsShown _).bind fun _ => modify_keepsShown (fun _ => rfl) (fun _ => rfl)
            (fun _ => rfl) fun _ => rfl
  exact .ask_bind <| .get_bind fun _ => .when <| .ite (unpack.bind fun _ =>
    (modifyWd_keepsShown _).bind fun _ => callAppCall_keepsShown h.cfg.cbApplyRxpdo)
      (readRxpdo_keepsShown h)

lemma digProcessTxpdo_keepsShown : KeepsAt sys (SameShown R) digProcessTxpdo := by
  have pack : KeepsAt sys (SameShown R) txpdoWriteSm3 := by
    refine .ask_bind ?_
    cases hhook : sys.cfg.txpdoOverride with
    | some call => exact callAppCall_keepsShown (h.cfg.txpdoOverride call hhook)
    | none =>
        exact (KeepsAt.when (.get_bind fun _ => (lift_keepsShown _).bind fun _ =>
          modifyWd_keepsShown _)).bind fun _ => .get_bind fun _ =>
            onBus_keepsShown (escWrite_moves h.hal h.sm3Sma _ _)
  exact .get_bind fun _ => .when <| .ask_bind <|
    (callAppCall_keepsShown h.cfg.cbUpdateTxpdo).bind fun _ => pack

end shown

end Soes
