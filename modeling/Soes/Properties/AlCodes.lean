import Soes.Properties.Surroundings
import Soes.Stack.RegisterFile

/-!
# The AL status and its code agree

The AL status code register holds an error code or the device identification, and which of the two
is told by the AL status: by its error bit, or by its ID bit.  The register and `ALerror` are
written by `ESC_ALerror` alone, so the two never differ; what has to be shown is that each AL status
is written with the code it needs.

The switch of `ESC_state` leaves a code other than 0 whenever it comes to an AL status with the
error bit (`escStateSwitch_codes`).  What follows it clears the code when there is no error, and
only then asks whether the device identification is wanted, which is refused by a code that is
still there (`escStateFinish_codes`).
-/

namespace Soes

open Program

variable {σ : Type} {sys : System σ} {code : σ → Word} {n : ℕ} {w : World σ}

/-! ## The AL status code register -/

/-- The AL status code register is a register: `code` is what was last written to it, it answers
with that, and no other access of the stack or the application changes it. -/
structure CodeRegister (sys : System σ) (code : σ → Word) : Prop where
  leaves : sys.Leaves fun o o' => code o' = code o
  write : ∀ o alEvent data,
    code (sys.hal.write o alEvent escregAlerror 2 data).outside = data.word 0
  read : ∀ o alEvent, (sys.hal.read o alEvent escregAlerror 2).data.word 0 = code o

instance : Std.Refl fun o o' : σ => code o' = code o := ⟨fun _ => rfl⟩

instance : IsTrans σ fun o o' : σ => code o' = code o := ⟨fun _ _ _ h h' => h'.trans h⟩

/-- A state change hook keeps the new AL state; it may change what it is told of the old one. -/
def KeepsNewState (hook : Option (σ → Byte → Byte → σ × Byte × Byte)) : Prop :=
  ∀ call, hook = some call → ∀ o as an, (call o as an).2.2 = an

/-- The register has the value of `ALerror`. -/
structure Steady (code : σ → Word) (w : World σ) : Prop where
  clear : w.mb.OutboxClear
  written : code w.outside = w.al.alError

/-- `ALstatus` has the error bit. -/
def World.hasError (w : World σ) : Prop := w.al.alStatus.setWidth 8 &&& escError ≠ 0

/-- `ALstatus` has the ID bit. -/
def World.hasId (w : World σ) : Prop := w.al.alStatus &&& escregAlIdRequest ≠ 0

/-- What `ESC_load_device_id` may find to be the identification of the device. -/
def System.Identification (sys : System σ) (id : Word) : Prop :=
  ∃ n w w', deviceId sys n w = .ok id w'

/-- The AL status and its code agree. -/
structure CodesAgree (sys : System σ) (code : σ → Word) (w : World σ) : Prop where
  register : code w.outside = w.al.alError
  error : w.hasError → w.al.alError ≠ 0
  /-- The ID bit comes with the identification, and without an error. -/
  id : w.hasId → ¬ w.hasError ∧ w.al.alError ≠ 0 ∧ sys.Identification w.al.alError
  none : ¬ w.hasError → ¬ w.hasId → w.al.alError = 0

/-! ## Writes -/

lemma Steady.shown {w' : World σ} (h : Steady code w)
    (hw : SameShown (fun o o' => code o' = code o) w w') : Steady code w' := by
  have hcode : code w'.outside = code w.outside := hw.outside h.clear
  exact ⟨hw.clear h.clear, by rw [hcode, h.written, hw.error]⟩

/-- Code that shows the same AL status and code leaves the register with the value of
`ALerror`. -/
lemma keeps_steady {α : Type} {m : Stack σ α}
    (hm : KeepsAt sys (SameShown fun o o' => code o' = code o) m) (h : Steady code w) :
    wlp sys n m (fun _ w' => Steady code w' ∧ w'.al.alStatus = w.al.alStatus ∧
      w'.al.alError = w.al.alError) w :=
  (hm n w).mono fun _ _ hw => ⟨h.shown hw, hw.status, hw.error⟩

lemma escALerror_status (hcode : CodeRegister sys code) (h : w.mb.OutboxClear)
    (errornumber : Word) :
    wlp sys n (escALerror errornumber) (fun _ w' => Steady code w' ∧
      w'.al.alStatus = w.al.alStatus ∧ w'.al.alError = errornumber) w := by
  simp only [escALerror, modifyAl, escWrite, wlp_bind, wlp_modify, wlp_within, wlp_transact]
  refine ⟨⟨h, ?_⟩, rfl, rfl⟩
  refine (hcode.write _ _ _).trans ?_
  exact ByteStore.word_append errornumber

lemma escALerror_codes (hcode : CodeRegister sys code) (h : w.mb.OutboxClear)
    (errornumber : Word) :
    wlp sys n (escALerror errornumber) (fun _ w' => Steady code w' ∧
      w'.al.alError = errornumber) w :=
  (escALerror_status hcode h errornumber).mono fun _ _ ⟨hw, _, he⟩ => ⟨hw, he⟩

lemma escALstatus_codes (hcode : CodeRegister sys code) (h : Steady code w) (status : Byte) :
    wlp sys n (escALstatus status) (fun _ w' => Steady code w' ∧
      w'.al.alStatus = status.setWidth 16 ∧ w'.al.alError = w.al.alError) w := by
  simp only [escALstatus, modifyAl, escWrite, wlp_bind, wlp_modify, wlp_within, wlp_transact]
  refine ⟨⟨h.clear, ?_⟩, rfl, rfl⟩
  exact (hcode.leaves.hal.write _ _ _ _ _ (by decide)).trans h.written

/-! ## Transitions -/

/-- An AL state without error and ID bits. -/
def IsNibble (status : Byte) : Prop := status &&& escregAlErrackmask = status

instance (status : Byte) : Decidable (IsNibble status) := by
  unfold IsNibble; infer_instance

lemma IsNibble.no_error {status : Byte} (h : IsNibble status) : status &&& escError = 0 := by
  revert status
  decide +kernel

lemma IsNibble.no_id {status : Byte} (h : IsNibble status) : status &&& 0x20 = 0 := by
  revert status
  decide +kernel

/-- The code that a new AL status needs is there. -/
structure Coded (code : σ → Word) (an : Byte) (w : World σ) : Prop where
  steady : Steady code w
  plain : an &&& 0x20 = 0
  error : an &&& escError ≠ 0 → w.al.alError ≠ 0

/-- An AL state without an error needs no code. -/
lemma IsNibble.coded {an : Byte} (h : IsNibble an) (hw : Steady code w) : Coded code an w :=
  ⟨hw, h.no_id, fun herr => (herr h.no_error).elim⟩

lemma smErrorCode_ne (result : Byte) : smErrorCode result ≠ 0 := by
  rw [smErrorCode]
  split <;> decide

/-- A refusal. -/
lemma refuse_codes (hcode : CodeRegister sys code) (hw : w.mb.OutboxClear) {errornumber : Word}
    (herr : errornumber ≠ 0) {an : Byte} (han : an &&& 0x20 = 0) :
    wlp sys n (do
      escALerror errornumber
      pure an) (Coded code) w := by
  refine (escALerror_codes hcode hw _).bind fun _ w' ⟨hw', he⟩ => (wlp_pure _ _).mpr ?_
  exact ⟨hw', han, fun _ => by rwa [he]⟩

/-- Code that leaves the AL status and its code alone, on the way to a state. -/
lemma keeps_coded {α : Type} {m : Stack σ α}
    (hm : KeepsAt sys (SameShown fun o o' => code o' = code o) m) {f : α → Stack σ Byte}
    (hw : Steady code w) (hf : ∀ a w', Steady code w' → wlp sys n (f a) (Coded code) w') :
    wlp sys n (m >>= f) (Coded code) w :=
  (keeps_steady hm hw).bind fun a w' ⟨hw', _, _⟩ => hf a w' hw'

lemma escStartmbxWith_codes (hcode : CodeRegister sys code) {mode : ℕ × SmCfg × SmCfg}
    (hmode : mode ∈ sys.opts.modes) {errornumber : Word} (herr : errornumber ≠ 0) {state : Byte}
    (hstate : IsNibble state) (hw : Steady code w) :
    wlp sys n (escStartmbxWith mode.1 mode.2.1 mode.2.2 errornumber state) (Coded code) w := by
  have hbus := hcode.leaves.hal
  rw [escStartmbxWith, modifyMb, wlp_bind, wlp_modify]
  have hw₁ : Steady code { w with mb := { w.mb with
      activembxsize := mode.1, activemb0 := mode.2.1, activemb1 := mode.2.2 } } :=
    ⟨hcode.leaves.sma mode hmode, hw.written⟩
  refine keeps_coded (onBus_keepsShown (escSMenable_moves hbus 0)) hw₁ fun _ w₂ hw₂ => ?_
  refine keeps_coded (onBus_keepsShown (escSMenable_moves hbus 1)) hw₂ fun _ w₃ hw₃ => ?_
  refine keeps_coded (onBus_keepsShown (escSMstatus_moves hbus 0)) hw₃ fun _ w₄ hw₄ => ?_
  refine keeps_coded (onBus_keepsShown (escSMstatus_moves hbus 1)) hw₄ fun _ w₅ hw₅ => ?_
  refine ((keeps_steady (onBus_keepsShown (escCheckmbx_moves hbus mode.2.1 mode.2.2 state)) hw₅).and
    (onBus_wlp (escCheckmbx_result mode.2.1 mode.2.2 state))).bind
      fun r w₆ hthen => ?_
  obtain ⟨⟨hw₆, _, _⟩, hr⟩ := hthen
  have hplain : r &&& 0x20 = 0 := by
    split at hr
    · rw [hr.1]
      exact hstate.no_id
    · rw [hr]
      decide
  refine (wlp_ite _ _ _ _).mpr ⟨fun _ => ?_, fun hok => ?_⟩
  · -- the mailboxes are not as they should be
    refine (escALerror_codes hcode hw₆.clear _).bind fun _ w₇ hthen => ?_
    obtain ⟨hw₇, he⟩ := hthen
    refine (keeps_steady (modifyMb_keepsShown (by intro _; rfl)) hw₇).bind fun _ w₈ hthen => ?_
    obtain ⟨hw₈, _, he'⟩ := hthen
    exact (wlp_pure _ _).mpr ⟨hw₈, hplain, fun _ => by rwa [he', he]⟩
  · refine keeps_coded (ackRepeat_keepsShown hcode.leaves) hw₆ fun _ w₇ hw₇ => ?_
    refine keeps_coded (modifyMb_keepsShown (by intro _; rfl)) hw₇ fun _ w₈ hw₈ => ?_
    exact (wlp_pure _ _).mpr ⟨hw₈, hplain, fun herr => (hok herr).elim⟩

lemma escStartinputInterrupt_codes (hcode : CodeRegister sys code) {state : Byte}
    (hstate : IsNibble state) (hw : Steady code w) :
    wlp sys n (escStartinputInterrupt state) (Coded code) w := by
  have hbus := hcode.leaves.hal
  rw [escStartinputInterrupt]
  refine keeps_coded (escCheckDC_keepsShown hcode.leaves) hw fun result w₁ hw₁ => ?_
  refine (wlp_ite _ _ _ _).mpr ⟨fun hresult => ?_, fun _ => ?_⟩
  · -- what was found stands in the code register
    refine (escALerror_codes hcode hw₁.clear _).bind fun _ w₂ ⟨hw₂, he₂⟩ => ?_
    refine (keeps_steady (onBus_keepsShown (escSMdisable_moves hbus 2)) hw₂).bind
      fun _ w₃ ⟨hw₃, _, he₃⟩ => ?_
    refine (keeps_steady (onBus_keepsShown (escSMdisable_moves hbus 3)) hw₃).bind
      fun _ w₄ ⟨hw₄, _, he₄⟩ => ?_
    refine (keeps_steady (modifyAl_keepsShown (by intro _; rfl) (by intro _; rfl)) hw₄).bind
      fun _ w₅ ⟨hw₅, _, he₅⟩ => ?_
    refine (wlp_pure _ _).mpr ⟨hw₅, by decide, fun _ => ?_⟩
    rwa [he₅, he₄, he₃, he₂]
  · rw [wlp_get_bind, wlp_ask_bind]
    refine keeps_coded (callMaskHook_keepsShown hcode.leaves.cfg.escHwInterruptEnable _) hw₁
      fun _ w₂ hw₂ => ?_
    exact (wlp_pure _ _).mpr (hstate.coded hw₂)

lemma escStartinput_codes (hcode : CodeRegister sys code) {state : Byte}
    (hstate : IsNibble state) (hw : Steady code w) :
    wlp sys n (escStartinput state) (Coded code) w := by
  have hbus := hcode.leaves.hal
  rw [escStartinput, wlp_ask_bind, wlp_get_bind]
  refine ((keeps_steady (onBus_keepsShown (escCheckSM23_moves hbus sys.opts _ _ state)) hw).and
    (onBus_wlp (escCheckSM23_result sys.opts _ _ state))).bind fun r w₁ hthen => ?_
  obtain ⟨⟨hw₁, _, _⟩, hr⟩ := hthen
  by_cases hres : r ≠ escPreop ||| escError
  · have hstate' : r = state := by
      rw [hr]
      split
      · rfl
      · rename_i hno
        rw [hr, if_neg hno] at hres
        exact (hres rfl).elim
    rw [if_pos hres, hstate']
    refine keeps_coded (.when (onBus_keepsShown (escSMenable_moves hbus 3))) hw₁
      fun _ w₂ hw₂ => ?_
    refine keeps_coded (modifyAl_keepsShown (by intro _; rfl) (by intro _; rfl)) hw₂
      fun _ w₃ hw₃ => ?_
    refine (wlp_ite _ _ _ _).mpr ⟨fun _ => escStartinputInterrupt_codes hcode hstate hw₃,
      fun _ => (wlp_pure _ _).mpr (hstate.coded hw₃)⟩
  · rw [if_neg hres]
    refine keeps_coded (onBus_keepsShown (escSMdisable_moves hbus 2)) hw₁ fun _ w₂ hw₂ => ?_
    refine keeps_coded (onBus_keepsShown (escSMdisable_moves hbus 3)) hw₂ fun _ w₃ hw₃ => ?_
    rw [wlp_get_bind]
    refine refuse_codes hcode hw₃.clear (smErrorCode_ne _) ?_
    rw [not_not.mp hres]
    decide

lemma enterSafeop_codes (hcode : CodeRegister sys code) {ac : Byte} (hac : IsNibble ac)
    (hw : Steady code w) : wlp sys n (enterSafeop ac) (Coded code) w := by
  rw [enterSafeop]
  refine keeps_coded mapSm2_keepsShown hw fun _ w₁ hw₁ => ?_
  rw [wlp_get_bind]
  refine (wlp_ite _ _ _ _).mpr ⟨fun _ => refuse_codes hcode hw₁.clear (by decide) (by decide),
    fun _ => ?_⟩
  refine keeps_coded mapSm3_keepsShown hw₁ fun _ w₂ hw₂ => ?_
  rw [wlp_get_bind]
  refine (wlp_ite _ _ _ _).mpr ⟨fun _ => refuse_codes hcode hw₂.clear (by decide) (by decide),
    fun _ => ?_⟩
  refine (escStartinput_codes hcode hac hw₂).bind fun an w₃ han => ?_
  have enable := KeepsAt.when (c := an = ac)
    (onBus_keepsShown (escSMenable_moves hcode.leaves.hal 2))
  refine (keeps_steady enable han.steady).bind fun _ w₄ ⟨hw₄, _, he⟩ => ?_
  exact (wlp_pure _ _).mpr ⟨hw₄, han.plain, fun herr => by
    rw [he]
    exact han.error herr⟩

lemma enterOp_codes (hcode : CodeRegister sys code) {ac : Byte} (hac : IsNibble ac)
    (hw : Steady code w) : wlp sys n (enterOp ac) (Coded code) w := by
  rw [enterOp, wlp_get_bind]
  refine (wlp_ite _ _ _ _).mpr ⟨fun _ => ?_, fun _ => ?_⟩
  · refine keeps_coded (modifyAl_keepsShown (by intro _; rfl) (by intro _; rfl)) hw
      fun _ w₁ hw₁ => ?_
    exact (wlp_pure _ _).mpr (IsNibble.coded (by decide) hw₁)
  · rw [escStartoutput, wlp_get_bind]
    refine keeps_coded (.when (onBus_keepsShown (escSMenable_moves hcode.leaves.hal 2))) hw
      fun _ w₁ hw₁ => ?_
    refine keeps_coded (modifyAl_keepsShown (by intro _; rfl) (by intro _; rfl)) hw₁
      fun _ w₂ hw₂ => ?_
    exact (wlp_pure _ _).mpr (hac.coded hw₂)

/-- The switch of `ESC_state` leaves the code that the new AL status needs. -/
lemma escStateSwitch_codes (hcode : CodeRegister sys code) (as : Byte) {an ac : Byte}
    (han : IsNibble an) (hac : IsNibble ac) (hw : Steady code w) :
    wlp sys n (escStateSwitch as an ac) (Coded code) w := by
  have h := hcode.leaves
  have done : ∀ w' : World σ, Steady code w' → ∀ state, IsNibble state →
      wlp sys n (pure state : Stack σ Byte) (Coded code) w' := fun w' hw' _ hstate =>
    (wlp_pure _ _).mpr (hstate.coded hw')
  have illegal : ∀ an : Byte, an &&& 0x20 = 0 → wlp sys n (do
      escALerror alerrInvalidstatechange
      pure an) (Coded code) w := fun an =>
    refuse_codes hcode hw.clear (by decide)
  rw [escStateSwitch]
  refine (wlp_ite _ _ _ _).mpr ⟨fun _ => done w hw _ han, fun _ => ?_⟩
  refine (wlp_ite _ _ _ _).mpr ⟨fun _ => ?preop, fun _ => ?_⟩
  case preop =>
    refine keeps_coded (escAddress_keepsShown h) hw fun _ w₁ hw₁ => ?_
    rw [escStartmbx, wlp_ask_bind]
    exact escStartmbxWith_codes hcode (List.mem_cons_self ..) (by decide) hac hw₁
  refine (wlp_ite _ _ _ _).mpr ⟨fun _ => ?boot, fun _ => ?_⟩
  case boot =>
    refine keeps_coded (escAddress_keepsShown h) hw fun _ w₁ hw₁ => ?_
    rw [escStartmbxboot, wlp_ask_bind]
    exact escStartmbxWith_codes hcode (List.mem_cons_of_mem _ (List.mem_cons_self ..)) (by decide)
      hac hw₁
  refine (wlp_ite _ _ _ _).mpr ⟨fun _ => illegal _ (by decide), fun _ => ?_⟩
  refine (wlp_ite _ _ _ _).mpr ⟨fun _ => ?opInit, fun _ => ?_⟩
  case opInit =>
    exact keeps_coded (escStopoutput_keepsShown h) hw fun _ w₁ hw₁ =>
      keeps_coded (escStopinput_keepsShown h) hw₁ fun _ w₂ hw₂ =>
        keeps_coded (escStopmbx_keepsShown h) hw₂ fun _ w₃ hw₃ => done w₃ hw₃ _ (by decide)
  refine (wlp_ite _ _ _ _).mpr ⟨fun _ => ?safeopInit, fun _ => ?_⟩
  case safeopInit =>
    exact keeps_coded (escStopinput_keepsShown h) hw fun _ w₁ hw₁ =>
      keeps_coded (escStopmbx_keepsShown h) hw₁ fun _ w₂ hw₂ => done w₂ hw₂ _ (by decide)
  refine (wlp_ite _ _ _ _).mpr ⟨fun _ => ?mbxInit, fun _ => ?_⟩
  case mbxInit =>
    exact keeps_coded (escStopmbx_keepsShown h) hw fun _ w₁ hw₁ => done w₁ hw₁ _ (by decide)
  refine (wlp_ite _ _ _ _).mpr ⟨fun _ => illegal _ (by decide), fun _ => ?_⟩
  refine (wlp_ite _ _ _ _).mpr ⟨fun _ => enterSafeop_codes hcode hac hw, fun _ => ?_⟩
  refine (wlp_ite _ _ _ _).mpr ⟨fun _ => illegal _ (by decide), fun _ => ?_⟩
  refine (wlp_ite _ _ _ _).mpr ⟨fun _ => ?opPreop, fun _ => ?_⟩
  case opPreop =>
    exact keeps_coded (escStopoutput_keepsShown h) hw fun _ w₁ hw₁ =>
      keeps_coded (escStopinput_keepsShown h) hw₁ fun _ w₂ hw₂ => done w₂ hw₂ _ (by decide)
  refine (wlp_ite _ _ _ _).mpr ⟨fun _ => ?safeopPreop, fun _ => ?_⟩
  case safeopPreop =>
    exact keeps_coded (escStopinput_keepsShown h) hw fun _ w₁ hw₁ => done w₁ hw₁ _ (by decide)
  refine (wlp_ite _ _ _ _).mpr ⟨fun _ => illegal _ (by decide), fun _ => ?_⟩
  refine (wlp_ite _ _ _ _).mpr ⟨fun _ => enterOp_codes hcode hac hw, fun _ => ?_⟩
  refine (wlp_ite _ _ _ _).mpr ⟨fun _ => ?opBoot, fun _ => ?_⟩
  case opBoot =>
    refine (escALerror_codes hcode hw.clear _).bind fun _ w₁ hthen => ?_
    obtain ⟨hw₁, he₁⟩ := hthen
    refine (keeps_steady (stopoutputFlagged_keepsShown h) hw₁).bind fun _ w₂ hthen => ?_
    obtain ⟨hw₂, _, he₂⟩ := hthen
    refine (wlp_pure _ _).mpr ⟨hw₂, by decide, fun _ => ?_⟩
    rw [he₂, he₁]
    decide
  refine (wlp_ite _ _ _ _).mpr ⟨fun _ => ?opSafeop, fun _ => ?_⟩
  case opSafeop =>
    exact keeps_coded (escStopoutput_keepsShown h) hw fun _ w₁ hw₁ => done w₁ hw₁ _ (by decide)
  -- an unknown request
  refine keeps_coded (.when (stopoutputFlagged_keepsShown h)) hw fun _ w₁ hw₁ => ?_
  refine keeps_coded (.when (escStopinput_keepsShown h)) hw₁ fun _ w₂ hw₂ => ?_
  refine refuse_codes hcode hw₂.clear (by decide) ?_
  split
  · decide
  · have hid := han.no_id
    revert hid
    clear han illegal
    revert an
    decide +kernel

/-! ## The new AL status -/

/-- What holds between calls. -/
structure CodeInvariant (sys : System σ) (code : σ → Word) (w : World σ) : Prop where
  clear : w.mb.OutboxClear
  agree : CodesAgree sys code w

lemma CodeInvariant.steady (h : CodeInvariant sys code w) : Steady code w :=
  ⟨h.clear, h.agree.register⟩

lemma CodeInvariant.shown {w' : World σ} (h : CodeInvariant sys code w)
    (hw : SameShown (fun o o' => code o' = code o) w w') : CodeInvariant sys code w' := by
  have hsteady := h.steady.shown hw
  have herr : w'.hasError ↔ w.hasError := by rw [World.hasError, hw.status, World.hasError]
  have hid : w'.hasId ↔ w.hasId := by rw [World.hasId, hw.status, World.hasId]
  refine ⟨hsteady.clear, hsteady.written, ?_, ?_, ?_⟩
  · rw [herr, hw.error]
    exact h.agree.error
  · rw [hid, herr, hw.error]
    exact h.agree.id
  · rw [herr, hid, hw.error]
    exact h.agree.none

lemma error_bit (an : Byte) {flag : Byte} (hflag : flag = 0 ∨ flag = 0x20) :
    ((an ||| flag).setWidth 16).setWidth 8 &&& escError = an &&& escError := by
  rcases hflag with rfl | rfl <;> revert an <;> decide +kernel

lemma id_bit {an flag : Byte} (han : an &&& 0x20 = 0) (hflag : flag = 0 ∨ flag = 0x20) :
    ((an ||| flag).setWidth 16) &&& escregAlIdRequest ≠ 0 ↔ flag = 0x20 := by
  rcases hflag with rfl | rfl <;> revert an <;> decide +kernel

/-- An AL status that is written with its code agrees with it.  The flag is the ID bit or
nothing. -/
lemma escALstatus_agrees (hcode : CodeRegister sys code) (hw : Steady code w) {an flag : Byte}
    (hplain : an &&& 0x20 = 0) (hflag : flag = 0 ∨ flag = 0x20)
    (herr : an &&& escError ≠ 0 → flag = 0 ∧ w.al.alError ≠ 0)
    (hid : flag = 0x20 → w.al.alError ≠ 0 ∧ sys.Identification w.al.alError)
    (hnone : an &&& escError = 0 → flag = 0 → w.al.alError = 0) :
    wlp sys n (escALstatus (an ||| flag)) (fun _ w' => CodeInvariant sys code w') w := by
  refine (escALstatus_codes hcode hw _).mono fun _ w' ⟨hw', hstatus, he⟩ => ?_
  have herror : w'.hasError ↔ an &&& escError ≠ 0 := by
    rw [World.hasError, hstatus, error_bit an hflag]
  have hwithId : w'.hasId ↔ flag = 0x20 := by rw [World.hasId, hstatus, id_bit hplain hflag]
  refine ⟨hw'.clear, hw'.written, fun h => ?_, fun h => ?_, fun hno hno' => ?_⟩
  · rw [he]
    exact (herr (herror.mp h)).2
  · have hflag' := hwithId.mp h
    rw [he]
    refine ⟨fun h' => ?_, hid hflag'⟩
    have hzero := (herr (herror.mp h')).1
    rw [hflag'] at hzero
    exact absurd hzero (by decide)
  · rw [he]
    refine hnone (not_not.mp (mt herror.mpr hno)) (hflag.resolve_right (mt hwithId.mpr hno'))

lemma callStateChangeHook_codes {hook : Option (σ → Byte → Byte → σ × Byte × Byte)}
    (hkeeps : KeepsNewState hook)
    (hhook : ∀ call, hook = some call → ∀ o as an, code (call o as an).1 = code o)
    (hw : Steady code w) (as an : Byte) :
    wlp sys n (callStateChangeHook hook as an) (fun p w' => p.2 = an ∧ Steady code w' ∧
      w'.al.alError = w.al.alError) w := by
  have keeps : KeepsAt sys (SameShown fun o o' => code o' = code o)
      (callStateChangeHook hook as an) := callStateChangeHook_keepsShown hhook as an
  have shown := keeps_steady (n := n) keeps hw
  have same : wlp sys n (callStateChangeHook hook as an) (fun p _ => p.2 = an) w := by
    cases hook with
    | none => exact (wlp_pure _ _).mpr rfl
    | some call => exact (wlp_transact _ _).mpr (hkeeps call rfl _ _ _)
  exact (same.and shown).mono fun p w' ⟨hp, hw', _, he⟩ => ⟨hp, hw', he⟩

/-- A code that is left from before is cleared when there is no error. -/
lemma clear_codes (hcode : CodeRegister sys code) {an : Byte} (hw : Coded code an w) :
    wlp sys n (do when (an &&& escError = 0 ∧ (← get).al.alError ≠ 0) (escALerror alerrNone))
      (fun _ w' => Coded code an w' ∧ (an &&& escError = 0 → w'.al.alError = 0)) w := by
  rw [wlp_get_bind]
  refine .when (fun ⟨hno, _⟩ => ?_) fun hkeep => ⟨hw, fun hno => ?_⟩
  · refine (escALerror_codes hcode hw.steady.clear _).mono fun _ w' ⟨hw', he⟩ => ?_
    exact ⟨⟨hw', hw.plain, fun herr => (herr hno).elim⟩, fun _ => he⟩
  · by_contra hne
    exact hkeep ⟨hno, hne⟩

/-- The request for the identification is refused while there is a code. -/
lemma escCheckIdRequest_codes (hcode : CodeRegister sys code) (hw : Steady code w)
    (alControl : Word) (an : Byte) :
    wlp sys n (onBus (escCheckIdRequest alControl an)) (fun id w' => Steady code w' ∧
      w'.al.alError = w.al.alError ∧ (id = true → w.al.alError = 0)) w := by
  have read : KeepsAt sys.hal (BusMove fun o o' => code o' = code o)
      (escCheckIdRequest alControl an) :=
    .ite ((escRead_moves hcode.leaves.hal _ _).bind fun _ => .pure _) (.pure _)
  have free : wlp sys n (onBus (escCheckIdRequest alControl an))
      (fun id _ => id = true → w.al.alError = 0) w := by
    rw [wlp_within, escCheckIdRequest, wlp_ite]
    refine ⟨fun _ => ?_, fun _ => (wlp_pure _ _).mpr fun h => by cases h⟩
    rw [escRead, wlp_bind, wlp_transact, wlp_pure]
    intro h
    have hword := of_decide_eq_true h
    rw [← hw.written, ← hcode.read w.outside w.alEvent]
    exact hword
  refine ((keeps_steady (onBus_keepsShown read) hw).and free).mono fun _ w' hthen => ?_
  obtain ⟨⟨hw', -, he⟩, hid⟩ := hthen
  exact ⟨hw', he, hid⟩

lemma escLoadDeviceId_codes (hcode : CodeRegister sys code) (hw : Steady code w)
    (hnone : w.al.alError = 0) :
    wlp sys n escLoadDeviceId (fun flag w' => Steady code w' ∧
      (flag = 0x20 ∧ w'.al.alError ≠ 0 ∧ sys.Identification w'.al.alError ∨
        flag = 0 ∧ w'.al.alError = 0)) w := by
  have found : wlp sys n deviceId (fun id w' => Steady code w' ∧
      w'.al.alError = 0 ∧ sys.Identification id) w := fun id w' hrun => by
    obtain ⟨hw', -, he⟩ := keeps_steady (deviceId_keepsShown hcode.leaves) hw id w' hrun
    exact ⟨hw', he.trans hnone, n, w, w', hrun⟩
  refine found.bind fun id w₁ ⟨hw₁, he₁, hid⟩ => ?_
  refine (wlp_ite _ _ _ _).mpr ⟨fun hne => ?_, fun _ => (wlp_pure _ _).mpr ⟨hw₁, .inr ⟨rfl, he₁⟩⟩⟩
  refine (escALerror_codes hcode hw₁.clear _).bind fun _ w₂ ⟨hw₂, he₂⟩ => ?_
  refine (wlp_pure _ _).mpr ⟨hw₂, .inl ⟨by decide, ?_, ?_⟩⟩
  · rwa [he₂]
  · rwa [he₂]

/-- What follows the switch of `ESC_state` leaves an AL status that agrees with its code. -/
lemma escStateFinish_codes (hcode : CodeRegister sys code)
    (hooks : KeepsNewState sys.cfg.postStateChangeHook) (as : Byte) {an : Byte}
    (hw : Coded code an w) :
    wlp sys n (escStateFinish as an) (fun _ w' => CodeInvariant sys code w') w := by
  rw [escStateFinish, wlp_ask_bind]
  refine (callStateChangeHook_codes hooks hcode.leaves.cfg.postStateChangeHook hw.steady as
    an).bind fun p w₁ hthen => ?_
  obtain ⟨hp, hw₁, he₁⟩ := hthen
  dsimp only
  rw [hp]
  have hcoded : Coded code an w₁ := ⟨hw₁, hw.plain, fun herr => by
    rw [he₁]
    exact hw.error herr⟩
  have clear := clear_codes (n := n) hcode hcoded
  rw [wlp_get_bind] at clear ⊢
  refine clear.bind fun _ w₂ hthen => ?_
  obtain ⟨hw₂, hcleared⟩ := hthen
  rw [wlp_get_bind]
  refine (escCheckIdRequest_codes hcode hw₂.steady _ _).bind fun id w₃ hthen => ?_
  obtain ⟨hw₃, he₃, hid⟩ := hthen
  have flagged : wlp sys n (if id then escLoadDeviceId else pure 0) (fun flag w' =>
      Steady code w' ∧ (flag = 0x20 ∧ an &&& escError = 0 ∧ w'.al.alError ≠ 0 ∧
        sys.Identification w'.al.alError ∨ flag = 0 ∧ (an &&& escError = 0 → w'.al.alError = 0) ∧
          (an &&& escError ≠ 0 → w'.al.alError ≠ 0))) w₃ := by
    refine (wlp_ite _ _ _ _).mpr
      ⟨fun hloads => ?_, fun _ => (wlp_pure _ _).mpr ⟨hw₃, .inr ⟨rfl, ?_, ?_⟩⟩⟩
    · have hnone := hid hloads
      have hno : an &&& escError = 0 := by
        by_contra herr
        exact hw₂.error herr hnone
      refine (escLoadDeviceId_codes hcode hw₃ (he₃.trans hnone)).mono fun flag w₄ hthen => ?_
      obtain ⟨hw₄, h⟩ := hthen
      rcases h with ⟨hflag, hne, hident⟩ | ⟨hflag, he₄⟩
      · exact ⟨hw₄, .inl ⟨hflag, hno, hne, hident⟩⟩
      · exact ⟨hw₄, .inr ⟨hflag, fun _ => he₄, fun herr => (herr hno).elim⟩⟩
    · rw [he₃]
      exact hcleared
    · rw [he₃]
      exact hw₂.error
  refine flagged.bind fun flag w₄ hthen => ?_
  obtain ⟨hw₄, h⟩ := hthen
  rcases h with ⟨rfl, hno, hne, hident⟩ | ⟨rfl, hnone, herr⟩
  · exact escALstatus_agrees hcode hw₄ hw.plain (.inr rfl) (fun h => (h hno).elim)
      (fun _ => ⟨hne, hident⟩) fun _ h => absurd h (by decide)
  · exact escALstatus_agrees hcode hw₄ hw.plain (.inl rfl) (fun h => ⟨rfl, herr h⟩)
      (fun h => absurd h (by decide)) fun h _ => hnone h

/-! ## Calls -/

lemma keeps_codes {α : Type} {m : Stack σ α}
    (hm : KeepsAt sys (SameShown fun o o' => code o' = code o) m) (h : CodeInvariant sys code w) :
    wlp sys n m (fun _ w' => CodeInvariant sys code w') w :=
  (hm n w).mono fun _ _ => h.shown

section calls

variable (hcode : CodeRegister sys code)

include hcode

/-- An AL status with the error bit is written when there is a code. -/
lemma errorStatus_codes (hw : Steady code w) (herr : w.al.alError ≠ 0) {status : Byte}
    (hstatus : status &&& 0x20 = 0) (hbit : status &&& escError ≠ 0) :
    wlp sys n (escALstatus status) (fun _ w' => CodeInvariant sys code w') w := by
  have agrees : wlp sys n (escALstatus (status ||| 0)) (fun _ w' => CodeInvariant sys code w') w :=
    escALstatus_agrees hcode hw hstatus (.inl rfl) (fun _ => ⟨rfl, herr⟩)
      (fun h => absurd h (by decide)) fun h => (hbit h).elim
  have hsame : status ||| 0 = status := BitVec.or_zero
  rwa [hsame] at agrees

/-- A state that is entered on an error, with its code. -/
lemma enterError_codes (hw : w.mb.OutboxClear) {errornumber : Word} (herr : errornumber ≠ 0)
    {status : Byte} (hstatus : status &&& 0x20 = 0) (hbit : status &&& escError ≠ 0) :
    wlp sys n (do
      escALerror errornumber
      escALstatus status) (fun _ w' => CodeInvariant sys code w') w :=
  (escALerror_codes hcode hw _).bind fun _ _ ⟨hw₁, he⟩ =>
    errorStatus_codes hcode hw₁ (by rwa [he]) hstatus hbit

lemma escALstatusgotoerror_codes (h : CodeInvariant sys code w) {status : Byte}
    (hstatus : status &&& 0x20 = 0) (hbit : status &&& escError ≠ 0) {errornumber : Word}
    (herr : errornumber ≠ 0) :
    wlp sys n (escALstatusgotoerror status errornumber)
      (fun _ w' => CodeInvariant sys code w') w := by
  have hleaves := hcode.leaves
  refine (wlp_ite _ _ _ _).mpr ⟨fun _ => (wlp_pure _ _).mpr h, fun _ => ?_⟩
  rw [wlp_ask_bind, wlp_get_bind]
  refine (keeps_codes (callStateChangeHook_keepsShown hleaves.cfg.preStateChangeHook _ _)
    h).bind fun p w₁ h₁ => ?_
  dsimp only
  rw [wlp_get_bind]
  refine (keeps_codes (.when (escStopoutput_keepsShown hleaves)) h₁).bind fun _ w₂ h₂ => ?_
  refine (keeps_codes (modifyAl_keepsShown (by intro _; rfl) (by intro _; rfl)) h₂).bind
    fun _ w₃ h₃ => ?_
  have enter := enterError_codes (n := n) hcode h₃.clear herr hstatus hbit
  rw [wlp_bind] at enter ⊢
  refine enter.mono fun _ w₄ h₄ => h₄.bind fun _ w₅ h₅ => ?_
  exact (keeps_codes (callStateChangeHook_keepsShown hleaves.cfg.postStateChangeHook _ _)
    h₅).bind fun _ w₆ h₆ => (wlp_pure _ _).mpr h₆

/-- `ESC_sm_act_event`. -/
lemma escSmActEvent_codes (h : CodeInvariant sys code w) :
    wlp sys n escSmActEvent (fun _ w' => CodeInvariant sys code w') w := by
  have hleaves := hcode.leaves
  rw [escSmActEvent, wlp_get_bind]
  refine .when (fun _ => ?_) fun _ => h
  refine (wlp_ite _ _ _ _).mpr ⟨fun _ => ?_, fun _ => ?_⟩
  · refine (keeps_codes (onBus_keepsShown (escCheckmbx_moves hleaves.hal _ _ _)) h).bind
      fun ax w₁ h₁ => ?_
    rw [wlp_ask_bind]
    refine (keeps_codes (onBus_keepsShown (escCheckSM23_moves hleaves.hal _ _ _ _)) h₁).bind
      fun ax23 w₂ h₂ => ?_
    have stop : wlp sys n (do
        escStopoutput
        escStopinput : Stack σ Unit) (fun _ w' => CodeInvariant sys code w') w₂ :=
      keeps_codes ((escStopoutput_keepsShown hleaves).bind fun _ =>
        escStopinput_keepsShown hleaves) h₂
    refine (wlp_ite _ _ _ _).mpr ⟨fun _ => (wlp_pure _ _).mpr h₂, fun _ => ?_⟩
    refine (wlp_ite _ _ _ _).mpr ⟨fun hax => ?_, fun _ => ?_⟩
    · -- the mailbox SyncManagers are gone
      rw [wlp_get_bind]
      refine (wlp.when (fun _ => stop) fun _ => h₂).bind fun _ w₃ h₃ => ?_
      refine (keeps_codes (escStopmbx_keepsShown hleaves) h₃).bind fun _ w₄ h₄ => ?_
      have mbxOff : KeepsAt sys (SameShown fun o o' => code o' = code o)
          (modifyMb fun m => { m with mbxRun := false }) := modifyMb_keepsShown fun _ => rfl
      refine (escALerror_codes hcode h₄.clear _).bind fun _ w₅ hthen => ?_
      obtain ⟨hw₅, he₅⟩ := hthen
      refine (keeps_steady mbxOff hw₅).bind fun _ w₆ hthen => ?_
      obtain ⟨hw₆, _, he₆⟩ := hthen
      rw [hax]
      refine errorStatus_codes hcode hw₆ ?_ (by decide) (by decide)
      rw [he₆, he₅]
      decide
    · rw [wlp_get_bind]
      refine .when (fun hthen => ?_) fun _ => h₂
      obtain ⟨_, hax23⟩ := hthen
      rw [wlp_bind] at stop ⊢
      refine stop.mono fun _ w₃ h₃ => h₃.bind fun _ w₄ h₄ => ?_
      rw [wlp_get_bind, hax23]
      exact enterError_codes hcode h₄.clear (smErrorCode_ne _) (by decide) (by decide)
  · refine keeps_codes (onBus_keepsShown ?_) h
    have hbus := hleaves.hal
    exact (escSMack_moves hbus 0).bind fun _ => (escSMack_moves hbus 1).bind fun _ =>
      (escSMack_moves hbus 2).bind fun _ => (escSMack_moves hbus 3).bind fun _ =>
        (escSMack_moves hbus 4).bind fun _ => (escSMack_moves hbus 5).bind fun _ =>
          (escSMack_moves hbus 6).bind fun _ => escSMack_moves hbus 7

/-- `ESC_op_pending_step`. -/
lemma escOpPendingStep_codes (hooks : KeepsNewState sys.cfg.postStateChangeHook)
    (h : CodeInvariant sys code w) (sync0 smEvent : Bool) (elapsedNs : ℕ) :
    wlp sys n (escOpPendingStep sync0 smEvent elapsedNs)
      (fun _ w' => CodeInvariant sys code w') w := by
  have hleaves := hcode.leaves
  rw [escOpPendingStep, wlp_get_bind]
  refine .when (fun _ => ?_) fun _ => h
  refine (keeps_codes (modifyAl_keepsShown (by intro _; rfl) (by intro _; rfl)) h).bind
    fun _ w₁ h₁ => ?_
  rw [wlp_get_bind]
  refine (wlp_ite _ _ _ _).mpr ⟨fun _ => ?_, fun _ => ?_⟩
  · refine (keeps_codes (modifyAl_keepsShown (by intro _; rfl) (by intro _; rfl)) h₁).bind
      fun _ w₂ h₂ => ?_
    refine (keeps_codes (escStartoutput_keepsShown hleaves _) h₂).bind fun _ w₃ h₃ => ?_
    rw [wlp_ask_bind]
    refine (callStateChangeHook_codes hooks hleaves.cfg.postStateChangeHook h₃.steady safeopToOp
      escOp).bind fun p w₄ hthen => ?_
    obtain ⟨hp, hw₄, _⟩ := hthen
    dsimp only
    rw [hp]
    have hcoded : Coded code escOp w₄ := IsNibble.coded (by decide) hw₄
    have clear := clear_codes (n := n) hcode hcoded
    rw [wlp_get_bind] at clear ⊢
    refine clear.bind fun _ w₅ hthen => ?_
    obtain ⟨hw₅, hnone⟩ := hthen
    have agrees : wlp sys n (escALstatus (escOp ||| 0))
        (fun _ w' => CodeInvariant sys code w') w₅ :=
      escALstatus_agrees hcode hw₅.steady (by decide) (.inl rfl) (fun h => absurd h (by decide))
        (fun h => absurd h (by decide)) fun h _ => hnone h
    exact agrees
  · refine .when (fun _ => ?_) fun _ => h₁
    refine (keeps_codes (modifyAl_keepsShown (by intro _; rfl) (by intro _; rfl)) h₁).bind
      fun _ w₂ h₂ => ?_
    refine enterError_codes hcode h₂.clear ?_ (by decide) (by decide)
    rw [pendingError]
    split
    · decide
    · split <;> decide

lemma ecatSlvSync0Account_codes (h : CodeInvariant sys code w) (smEventSeen : Bool) :
    wlp sys n (ecatSlvSync0Account smEventSeen) (fun _ w' => CodeInvariant sys code w') w := by
  rw [ecatSlvSync0Account, wlp_get_bind]
  refine (keeps_codes (modifyAl_keepsShown (by intro _; rfl) (by intro _; rfl)) h).bind
    fun _ w₁ h₁ => ?_
  rw [wlp_get_bind]
  refine .when (fun _ => ?_) fun _ => h₁
  refine (keeps_codes (modifyAl_keepsShown (by intro _; rfl) (by intro _; rfl)) h₁).bind
    fun _ w₂ h₂ => ?_
  exact escALstatusgotoerror_codes hcode h₂ (by decide) (by decide) (by decide)

lemma runDcTimeout_codes (h : CodeInvariant sys code w) (rc : ℤ) :
    wlp sys n (runDcTimeout rc) (fun _ w' => CodeInvariant sys code w') w := by
  rw [runDcTimeout, wlp_get_bind]
  refine (wlp_ite _ _ _ _).mpr ⟨fun _ => ?_, fun _ => (wlp_pure _ _).mpr h⟩
  refine (keeps_codes (modifyAl_keepsShown (by intro _; rfl) (by intro _; rfl)) h).bind
    fun _ w₁ h₁ => ?_
  refine (escALstatusgotoerror_codes hcode h₁ (by decide) (by decide) (by decide)).bind
    fun _ w₂ h₂ => (wlp_pure _ _).mpr h₂

lemma digProcessWd_codes (h : CodeInvariant sys code w) :
    wlp sys n digProcessWd (fun _ w' => CodeInvariant sys code w') w := by
  have hleaves := hcode.leaves
  have trip {w : World σ} (h : CodeInvariant sys code w) :
      wlp sys n (escALstatusgotoerror (escSafeop ||| escError) alerrWatchdog)
        (fun _ w' => CodeInvariant sys code w') w :=
    escALstatusgotoerror_codes hcode h (by decide) (by decide) (by decide)
  have wd (f : Watchdog → Watchdog) {w : World σ} (h : CodeInvariant sys code w) :
      wlp sys n (modifyWd f) (fun _ w' => CodeInvariant sys code w') w :=
    keeps_codes (modifyWd_keepsShown f) h
  have hardware : wlp sys n (if sys.cfg.useHwWatchdog then hwWatchdogCheck else pure false)
      (fun _ w' => CodeInvariant sys code w') w := by
    refine (wlp_ite _ _ _ _).mpr ⟨fun _ => ?_, fun _ => (wlp_pure _ _).mpr h⟩
    rw [hwWatchdogCheck, wlp_get_bind]
    refine (wlp_ite _ _ _ _).mpr ⟨fun _ => (wd _ h).bind fun _ _ h₁ => (wlp_pure _ _).mpr h₁,
      fun _ => ?_⟩
    refine (keeps_codes (hwWatchdogConfigure_keepsShown hleaves) h).bind fun _ w₁ h₁ => ?_
    rw [wlp_get_bind]
    refine (wlp_ite _ _ _ _).mpr ⟨fun _ => (wlp_pure _ _).mpr h₁, fun _ => ?_⟩
    refine (wlp_ite _ _ _ _).mpr ⟨fun _ => (wd _ h₁).bind fun _ _ h₂ => (wlp_pure _ _).mpr h₂,
      fun _ => ?_⟩
    refine (wlp_ite _ _ _ _).mpr ⟨fun _ => (wd _ h₁).bind fun _ _ h₂ => (wlp_pure _ _).mpr h₂,
      fun _ => ?_⟩
    have status : KeepsAt sys.hal (BusMove fun o o' => code o' = code o) escWDstatus :=
      (escRead_moves hleaves.hal _ _).bind fun _ => .pure _
    refine (keeps_codes (onBus_keepsShown status) h₁).bind fun _ w₂ h₂ => ?_
    rw [wlp_get_bind]
    exact (wlp.when (fun _ => trip h₂) fun _ => h₂).bind fun _ _ h₃ => (wlp_pure _ _).mpr h₃
  rw [digProcessWd, wlp_ask_bind]
  refine hardware.bind fun inCharge w₁ h₁ => .when (fun _ => ?_) fun _ => h₁
  rw [softwareWatchdog, wlp_ask_bind]
  refine (wd _ h₁).bind fun _ w₂ h₂ => ?_
  rw [wlp_get_bind]
  exact (wlp_ite _ _ _ _).mpr ⟨fun _ => trip h₂, fun _ => .when (fun _ => wd _ h₂) fun _ => h₂⟩

/-- `DIG_process`. -/
lemma digProcess_codes (h : CodeInvariant sys code w) (flags : Byte) :
    wlp sys n (digProcess flags) (fun _ w' => CodeInvariant sys code w') w := by
  have hleaves := hcode.leaves
  rw [digProcess]
  refine (wlp.when (fun _ => digProcessWd_codes hcode h) fun _ => h).bind fun _ w₁ h₁ => ?_
  refine keeps_codes ?_ h₁
  refine (KeepsAt.when (digProcessRxpdo_keepsShown hleaves)).bind fun _ => .ask_bind ?_
  exact (KeepsAt.when (callHook_keepsShown hleaves.cfg.applicationHook)).bind fun _ =>
    .when (digProcessTxpdo_keepsShown hleaves)

omit hcode in
/-- Once a request is acted on, the acknowledged AL status is an AL state without an error. -/
lemma ackedStatus_nibble {ac as : Byte} (hac : ac &&& escregAlStatemask = ac)
    (has : as &&& escregAlStatemask = as) (hacts : ¬ errorStays ac as) :
    IsNibble (ackedStatus ac as) := by
  have hself : ackedStatus ac ac &&& escError = 0 := by
    rw [ackedStatus_self ac hac]
    exact IsNibble.no_error (by rw [IsNibble, BitVec.and_assoc, BitVec.and_self])
  have hno : ackedStatus ac as &&& escError = 0 := by
    by_contra herr
    exact hacts ⟨herr, hself⟩
  by_cases hack : ac &&& escError ≠ 0 ∨ ac = escInit
  · rw [ackedStatus, if_pos hack, IsNibble, BitVec.and_assoc, BitVec.and_self]
  · rw [ackedStatus, if_neg hack] at hno ⊢
    clear hacts
    revert as
    decide +kernel

/-- `ESC_state`. -/
lemma escState_codes (hpre : KeepsNewState sys.cfg.preStateChangeHook)
    (hpost : KeepsNewState sys.cfg.postStateChangeHook) (h : CodeInvariant sys code w) :
    wlp sys n escState (fun _ w' => CodeInvariant sys code w') w := by
  have hleaves := hcode.leaves
  rw [escState, wlp_get_bind]
  refine .when (fun _ => ?_) fun _ => h
  refine (keeps_codes (escReadControl_keepsShown hleaves) h).bind fun _ w₁ h₁ => ?_
  rw [wlp_get_bind]
  dsimp only
  have hac : (w₁.al.alControl.setWidth 8 &&& escregAlStatemask) &&& escregAlStatemask =
      w₁.al.alControl.setWidth 8 &&& escregAlStatemask := by
    rw [BitVec.and_assoc, BitVec.and_self]
  have has : (w₁.al.alStatus.setWidth 8 &&& escregAlStatemask) &&& escregAlStatemask =
      w₁.al.alStatus.setWidth 8 &&& escregAlStatemask := by
    rw [BitVec.and_assoc, BitVec.and_self]
  generalize w₁.al.alControl.setWidth 8 &&& escregAlStatemask = ac at *
  generalize w₁.al.alStatus.setWidth 8 &&& escregAlStatemask = as at *
  refine .when (fun hacts => ?_) fun _ => h₁
  refine .when (fun _ => ?_) fun _ => h₁
  have hnibble : IsNibble (ackedStatus ac ac) := by
    rw [ackedStatus_self ac hac, IsNibble, BitVec.and_assoc, BitVec.and_self]
  have hstate : IsNibble (ackedStatus ac as) := ackedStatus_nibble hac has hacts
  rw [escStateAct]
  refine (keeps_codes (modifyAl_keepsShown (by intro _; rfl) (by intro _; rfl)) h₁).bind
    fun _ w₂ h₂ => ?_
  rw [wlp_ask_bind]
  refine (callStateChangeHook_codes hpre hleaves.cfg.preStateChangeHook h₂.steady _ _).bind
    fun p w₃ hthen => ?_
  obtain ⟨hp, hw₃, _⟩ := hthen
  dsimp only
  rw [hp]
  exact (escStateSwitch_codes hcode _ hstate hnibble hw₃).bind fun an w₄ han =>
    escStateFinish_codes hcode hpost _ han

end calls

/-! ## Runs -/

/-- The surroundings leave the AL status code register alone. -/
def Call.LeavesCode (code : σ → Word) (w : World σ) : Call σ → Prop
  | .move outside _ _ => code outside = code w.outside
  | _ => True

instance (code : σ → Word) (w : World σ) (c : Call σ) : Decidable (c.LeavesCode code w) :=
  match c with
  | .move outside _ _ => inferInstanceAs (Decidable (code outside = code w.outside))
  | .state | .smActEvent | .mbxprocess | .coeprocess | .xoeprocess | .process _
  | .sync0Account _ | .opPendingStep .. | .waited _ | .noteSmEvent _ => .isTrue trivial

lemma Call.codes (hcode : CodeRegister sys code)
    (hpre : KeepsNewState sys.cfg.preStateChangeHook)
    (hpost : KeepsNewState sys.cfg.postStateChangeHook) {c : Call σ}
    (hc : c.LeavesCode code w) (h : CodeInvariant sys code w) :
    wlp sys n c.run (fun _ w' => CodeInvariant sys code w') w := by
  have hleaves := hcode.leaves
  cases c with
  | move outside alEvent bytes =>
      refine (wlp_modify _ _).mpr (h.shown ⟨rfl, rfl, fun _ => hc, id⟩)
  | state => exact escState_codes hcode hpre hpost h
  | smActEvent => exact escSmActEvent_codes hcode h
  | mbxprocess => exact keeps_codes ((escMbxprocess_keepsShown hleaves).map _) h
  | coeprocess => exact keeps_codes (escCoeprocess_keepsShown hleaves) h
  | xoeprocess => exact keeps_codes escXoeprocess_keepsShown h
  | process flags => exact digProcess_codes hcode h flags
  | sync0Account smEventSeen => exact ecatSlvSync0Account_codes hcode h smEventSeen
  | opPendingStep sync0 smEvent elapsedNs =>
      exact escOpPendingStep_codes hcode hpost h sync0 smEvent elapsedNs
  | waited rc =>
      rw [Call.run, wlp_map]
      exact runDcTimeout_codes hcode h rc
  | noteSmEvent seen =>
      rw [Call.run]
      exact keeps_codes (modifyAl_keepsShown (by intro _; rfl) (by intro _; rfl)) h

lemma coeInitDefaultValues_keepsShown {R : σ → σ → Prop} [Std.Refl R] [IsTrans σ R]
    (h : sys.Leaves R) : KeepsAt sys (SameShown R) coeInitDefaultValues :=
  .ask_bind <| .when <| .get_bind fun _ => (lift_keepsShown _).bind fun _ =>
    KeepsAt.bind (modify_keepsShown (by intro _; rfl) (by intro _; rfl) (by intro _; rfl)
      (by intro _; rfl)) fun _ => callHook_keepsShown h.cfg.setDefaultsHook

/-- `ecat_slv_init` leaves an AL status without error and ID bits, and no code. -/
lemma Initialised.codes (hcode : CodeRegister sys code) (h : Initialised sys w) :
    CodeInvariant sys code w := by
  have hleaves := hcode.leaves
  obtain ⟨n, outside, alEvent, bytes, hrun⟩ := h
  refine (?_ : wlp sys n ecatSlvInit (fun r w' => r = true → CodeInvariant sys code w')
    (World.zeroed outside alEvent bytes)) _ _ hrun rfl
  have hzero : (World.zeroed outside alEvent bytes).mb.OutboxClear := by
    have hsma : (0 : Word).toNat ≠ escregAlerror := by decide
    exact ⟨hsma, hsma⟩
  rw [ecatSlvInit, wlp_ask_bind, modifyWd, wlp_bind, wlp_modify, wlp_bind, wlp_transact]
  refine (wlp_ite _ _ _ _).mpr ⟨fun _ => (wlp_pure _ _).mpr fun hfail => (by cases hfail),
    fun _ => ?_⟩
  refine (waitDlstatus_keepsRest _ sys n _).bind fun started w₁ h₁ => ?_
  refine (wlp_ite _ _ _ _).mpr ⟨fun _ => ?_,
    fun _ => (wlp_pure _ _).mpr fun hfail => (by cases hfail)⟩
  have stop : wlp sys n initStop (fun _ w' => CodeInvariant sys code w') w₁ := by
    have hclear : w₁.mb.OutboxClear := by
      rw [h₁.mb]
      exact hzero
    rw [initStop, escALstatus, modifyAl, wlp_bind, wlp_bind, wlp_modify, wlp_within, escWrite,
      wlp_transact]
    refine (escALerror_status hcode ?_ alerrNone).bind fun _ w₂ hthen => ?_
    · exact hclear
    obtain ⟨hw₂, hstatus, he⟩ := hthen
    have hinit : w₂.al.alStatus = escInit.setWidth 16 := hstatus
    have herr : ¬ w₂.hasError := by
      rw [World.hasError, hinit]
      decide
    have hid : ¬ w₂.hasId := by
      rw [World.hasId, hinit]
      decide
    have hw₂ : CodeInvariant sys code w₂ :=
      ⟨hw₂.clear, hw₂.written, fun h => (herr h).elim, fun h => (hid h).elim, fun _ _ => he⟩
    refine (keeps_codes (escStopmbx_keepsShown hleaves) hw₂).bind fun _ w₃ h₃ => ?_
    refine (keeps_codes (escStopinput_keepsShown hleaves) h₃).bind fun _ w₄ h₄ => ?_
    exact keeps_codes (escStopoutput_keepsShown hleaves) h₄
  refine stop.bind fun _ w₂ h₂ => ?_
  refine (keeps_codes (coeInitDefaultValues_keepsShown hleaves) h₂).bind fun _ w₃ h₃ => ?_
  exact (wlp_pure _ _).mpr fun _ => h₃

/-- The chip that keeps what is written, with an AL status code register that no other write
reaches. -/
def codedFile : Hal ByteStore :=
  { registerFile with write := fun o event address len data =>
      let a := registerFile.write o event address len data
      if address = escregAlerror then a
      else { a with outside := a.outside.setWord escregAlerror (o.word escregAlerror) } }

/-- The example device on that chip. -/
def codedSystem : System ByteStore := { exampleSystem with hal := codedFile }

lemma codedSystem_register : CodeRegister codedSystem fun o => o.word escregAlerror := by
  refine ⟨⟨⟨fun _ _ _ _ => rfl, fun o event address len data ha => ?_⟩, ?_, by decide, by decide⟩,
    fun o event data => ?_, fun _ _ => rfl⟩
  · simp only [codedSystem, codedFile, if_neg ha]
    exact ByteStore.word_setWord _
  · constructor <;> (try intro call hcall) <;> (try cases hcall) <;> intros <;> rfl
  · simp [codedSystem, codedFile, registerFile, ByteStore.word, ByteStore.copy]

end Soes
