import Soes.Abstract.AlMachine
import Mathlib.Tactic.Lemma

/-!
# Invariants of the AL state machine

`AlView.Entered` says once what a request that is acted on can do, and `AlView.Stepped` what any
event can do; every invariant is then a short case analysis.  There are four.

* `AlView.Quiet`: outputs are applied in OP only, without an error and with no request held.
* `AlView.Follows`: the application produces inputs in SAFEOP and OP, and applies outputs in OP.
* `AlView.Held`: a request for OP is held in SAFEOP only, without an error, with inputs produced.
* `AlView.Fed`: while a request is held, SM2 is enabled if there is output process data.

The first holds of every run.  The others only hold as long as certain events do not happen, and
the lemma about each says which.
-/

namespace Soes

/-- The states in which the application produces inputs. -/
def AlSt.inputs : AlSt → Bool
  | .safeop | .op => true
  | _ => false

/-- The states in which the application applies outputs. -/
def AlSt.outputs : AlSt → Bool
  | .op => true
  | _ => false

namespace AlView

variable {a : AlView} {v : Verdict} {req : AlReq}

/-! ## What can happen -/

/-- What a request that is acted on can come to. -/
inductive Entered (a : AlView) (v : Verdict) (req : AlReq) : AlView → Prop where
  /-- The application is left alone, in a state that asks the same of it. -/
  | stay (st : AlSt) (err : Bool) (hin : st.inputs = a.st.inputs)
      (hout : st.outputs = a.st.outputs) (herr : st = .op → err = false) :
      Entered a v req (a.goto st err)
  /-- The application is stopped, in a state without inputs. -/
  | stopAll (st : AlSt) (err : Bool) (hin : st.inputs = false) (hout : st.outputs = false) :
      Entered a v req (a.stopAll.goto st err)
  /-- The value 0 in SAFEOP stops the application, and the slave stays in SAFEOP. -/
  | zero (hst : a.st = .safeop) (hreq : req = .zero) :
      Entered a v req (a.stopAll.goto .safeop true)
  /-- OP is left for SAFEOP. -/
  | stopOutputs (err : Bool) (hst : a.st = .op) :
      Entered a v req (a.stopOutputs.goto .safeop err)
  /-- SAFEOP is requested, and the mapping is refused. -/
  | mapRefused (hst : a.st = .preop ∨ a.st = .safeop) (hreq : req = .state .safeop)
      (hv : v.pd = .mapRefused) :
      Entered a v req ({ a with mapped := v.mapped }.goto .preop true)
  /-- SAFEOP is requested, and SM2 or SM3 is refused. -/
  | smRefused (hst : a.st = .preop ∨ a.st = .safeop) (hreq : req = .state .safeop)
      (hv : v.pd = .smRefused) :
      Entered a v req ({ a with mapped := v.mapped, sm2 := false }.goto .preop true)
  /-- SAFEOP is requested, and the DC configuration is refused. -/
  | dcRefused : Entered a v req
      ({ a with mapped := v.mapped, dc := v.dc }.stopAll.goto .preop true)
  /-- SAFEOP is requested, and entered. -/
  | accepted : Entered a v req
      ({ a with mapped := v.mapped, dc := v.dc, inputs := true, outputs := false,
                sm2 := true }.goto .safeop false)
  /-- OP is requested in SAFEOP, and the request is held. -/
  | held (hst : a.st = .safeop) (hreq : req = .state .op) (hdc : a.dc = true) :
      Entered a v req ({ a with pending := true }.goto .safeop false)
  /-- OP is requested in SAFEOP, and entered. -/
  | started (hst : a.st = .safeop) (hreq : req = .state .op) (hdc : a.dc = false) :
      Entered a v req ({ a with outputs := true, sm2 := a.sm2 || a.mapped }.goto .op false)

lemma enterSafeop_entered (hst : a.st = .preop ∨ a.st = .safeop) :
    Entered a v (.state .safeop) (a.enterSafeop v) := by
  rw [enterSafeop]
  cases hv : v.pd with
  | mapRefused => exact .mapRefused hst rfl hv
  | smRefused => exact .smRefused hst rfl hv
  | dcRefused => exact .dcRefused
  | accepted => exact .accepted

lemma enterOp_entered (hst : a.st = .safeop) : Entered a v (.state .op) a.enterOp := by
  rw [enterOp]
  by_cases hdc : a.dc = true
  · rw [if_pos hdc]
    exact .held hst rfl hdc
  · rw [if_neg hdc]
    exact .started hst rfl (Bool.eq_false_iff.mpr hdc)

/-- A request that is acted on in some state. -/
lemma enter_entered (a : AlView) (v : Verdict) (req : AlReq) : Entered a v req (a.enter v req) := by
  obtain ⟨st, err, inputs, outputs, pending, sm2, mapped, dc⟩ := a
  cases req with
  | zero =>
      cases st with
      | safeop => exact .zero rfl rfl
      | op => exact .stopOutputs true rfl
      | init | preop | boot => exact .stay _ true rfl rfl (by simp)
  | unknown =>
      cases st with
      | op => exact .stopOutputs true rfl
      | init | preop | boot | safeop => exact .stay _ true rfl rfl (by simp)
  | state req =>
      cases st with
      | init =>
          cases req with
          | preop | boot =>
              simp only [enter]
              split <;> exact .stay _ _ rfl rfl (by simp)
          | init | safeop | op => exact .stay _ _ rfl rfl (by simp)
      | boot =>
          cases req with
          | boot =>
              simp only [enter]
              split <;> exact .stay _ _ rfl rfl (by simp)
          | init | preop | safeop | op => exact .stay _ _ rfl rfl (by simp)
      | preop =>
          cases req with
          | safeop => exact enterSafeop_entered (.inl rfl)
          | init | preop | boot | op => exact .stay _ _ rfl rfl (by simp)
      | safeop =>
          cases req with
          | safeop => exact enterSafeop_entered (.inr rfl)
          | op => exact enterOp_entered rfl
          | boot => exact .stay _ _ rfl rfl (by simp)
          | init | preop => exact .stopAll _ _ rfl rfl
      | op =>
          cases req with
          | op => exact .stay _ _ rfl rfl (by simp)
          | boot | safeop => exact .stopOutputs _ rfl
          | init | preop => exact .stopAll _ _ rfl rfl

/-- A held request is dropped. -/
@[simps] def drop (a : AlView) : AlView := { a with pending := false }

/-- A request is acted on: there is no error, or the request confirms it. -/
def Acts (a : AlView) (ack : Bool) : Prop := a.err = true → ack = true

/-- What any event can come to. -/
inductive Stepped (a : AlView) : AlEvent → AlView → Prop where
  /-- Nothing happens. -/
  | same (e : AlEvent) : Stepped a e a
  /-- A request is acted on, and one that was held is dropped. -/
  | entered (req : AlReq) (ack : Bool) (v : Verdict) {b : AlView} (hacts : a.Acts ack)
      (h : Entered a.drop v req b) : Stepped a (.request req ack v) b
  /-- The mailbox SyncManagers are refused. -/
  | mbxRefused (pdOk : Bool) : Stepped a (.smChange false pdOk)
      ((if a.inputs ∨ a.outputs then a.stopAll else a).goto .init true)
  /-- The process data SyncManagers are refused. -/
  | pdRefused (hrun : a.inputs = true ∨ a.outputs = true) :
      Stepped a (.smChange true false) (a.stopAll.goto .preop true)
  /-- An error. -/
  | error : Stepped a .error
      ({ (if a.outputs then a.stopOutputs else a) with pending := false }.goto .safeop true)
  /-- A held request is completed. -/
  | complete (hpend : a.pending = true) : Stepped a .complete
      ({ a with pending := false, outputs := true, sm2 := a.sm2 || a.mapped }.goto .op false)
  /-- A held request is refused. -/
  | refuse (hpend : a.pending = true) :
    Stepped a .refuse ({ a with pending := false }.goto .safeop true)

/-- Every event is one of the above. -/
lemma step_stepped (a : AlView) (e : AlEvent) : Stepped a e (a.step e) := by
  cases e with
  | idle => exact .same _
  | error => exact .error
  | complete =>
      rw [step, complete]
      split
      case isTrue hpend => exact .complete hpend
      case isFalse => exact .same _
  | refuse =>
      rw [step, refuse]
      split
      case isTrue hpend => exact .refuse hpend
      case isFalse => exact .same _
  | smChange mbxOk pdOk =>
      rw [step, smChange]
      cases mbxOk with
      | false => exact .mbxRefused pdOk
      | true =>
          rw [if_neg (by decide)]
          split
          case isTrue h =>
            obtain ⟨hrun, hpd⟩ := h
            rw [Bool.eq_false_iff.mpr hpd]
            exact .pdRefused hrun
          case isFalse => exact .same _
  | request req ack v =>
      rw [step, request]
      split
      case isTrue => exact .same _
      case isFalse hstay =>
        split
        case isTrue => exact .same _
        case isFalse =>
          refine .entered req ack v (fun herr => ?_) (enter_entered _ _ _)
          exact Decidable.byContradiction fun hack => hstay ⟨herr, hack⟩

/-! ## Outputs are applied in OP -/

/-- Outputs are applied in OP only, without an error and with no request held. -/
structure Quiet (a : AlView) : Prop where
  outputs : a.outputs = true → a.st = .op ∧ a.err = false ∧ a.pending = false
  pending : a.pending = true → a.st ≠ .op

lemma Quiet.entered {b : AlView} (h : a.Quiet) (hpend : a.pending = false)
    (he : Entered a v req b) : b.Quiet := by
  have hout := h.outputs
  cases he with
  | stay st err hin hout' herr =>
      refine ⟨fun ho => ?_, by simp [hpend]⟩
      have hop : st = .op := by
        rw [(hout ho).1] at hout'
        cases st <;> first | rfl | cases hout'
      exact ⟨hop, herr hop, hpend⟩
  | held hst => exact ⟨fun ho => by simp [hst] at hout; exact absurd ho (by simp [hout]), by simp⟩
  | started => exact ⟨fun _ => ⟨rfl, rfl, hpend⟩, by simp [hpend]⟩
  | mapRefused hst | smRefused hst =>
      refine ⟨fun ho => ?_, by simp⟩
      have hop := (hout ho).1
      rcases hst with hst | hst <;> exact absurd (hst.symm.trans hop) (by decide)
  | stopAll | zero | stopOutputs | dcRefused | accepted => exact ⟨by simp, by simp [hpend]⟩

lemma Quiet.drop (h : a.Quiet) : a.drop.Quiet :=
  ⟨fun ho => ⟨(h.outputs ho).1, (h.outputs ho).2.1, rfl⟩, by simp⟩

/-- Every event keeps `Quiet`. -/
theorem Quiet.stepped {b : AlView} {e : AlEvent} (h : a.Quiet) (hs : Stepped a e b) : b.Quiet := by
  cases hs with
  | same => exact h
  | entered req ack v _ he => exact h.drop.entered rfl he
  | mbxRefused pdOk =>
      split
      · exact ⟨by simp, by simp⟩
      · rename_i hrun
        exact ⟨fun ho => absurd (.inr ho) hrun, by simp⟩
  | pdRefused => exact ⟨by simp, by simp⟩
  | error =>
      split
      · exact ⟨by simp, by simp⟩
      · rename_i hout
        exact ⟨fun ho => absurd ho hout, by simp⟩
  | complete => exact ⟨by simp, by simp⟩
  | refuse hpend =>
      refine ⟨fun ho => ?_, by simp⟩
      exact absurd (hpend.symm.trans (h.outputs ho).2.2) (by decide)

/-! ## The application follows the AL state -/

/-- The application produces inputs in SAFEOP and OP, and applies outputs in OP. -/
structure Follows (a : AlView) : Prop where
  inputs : a.inputs = a.st.inputs
  outputs : a.outputs = a.st.outputs

/-- The events that leave the application behind: in SAFEOP, a request for 0 and a request for
SAFEOP that is refused; an error in a state below SAFEOP; and the end of a held request in a state
other than SAFEOP. -/
def LeavesApp (a : AlView) : AlEvent → Prop
  | .request req ack v => a.Acts ack ∧ a.st = .safeop ∧
      (req = .zero ∨ req = .state .safeop ∧ (v.pd = .mapRefused ∨ v.pd = .smRefused))
  | .error => a.st ≠ .safeop ∧ a.st ≠ .op
  | .complete | .refuse => a.pending = true ∧ a.st ≠ .safeop
  | _ => False

lemma Follows.entered {b : AlView} (h : a.Follows)
    (hzero : a.st = .safeop → req ≠ .zero)
    (hsafeop : a.st = .safeop → req = .state .safeop → v.pd ≠ .mapRefused ∧ v.pd ≠ .smRefused)
    (he : Entered a v req b) : b.Follows := by
  obtain ⟨hin, hout⟩ := h
  cases he with
  | stay st err hin' hout' => exact ⟨hin.trans hin'.symm, hout.trans hout'.symm⟩
  | stopAll st err hin' hout' => exact ⟨hin'.symm, hout'.symm⟩
  | zero hst hreq => exact absurd hreq (hzero hst)
  | stopOutputs err hst => exact ⟨by rw [hst] at hin; exact hin, rfl⟩
  | mapRefused hst hreq hv =>
      rcases hst with hst | hst
      · rw [hst] at hin hout
        exact ⟨hin, hout⟩
      · exact absurd hv (hsafeop hst hreq).1
  | smRefused hst hreq hv =>
      rcases hst with hst | hst
      · rw [hst] at hin hout
        exact ⟨hin, hout⟩
      · exact absurd hv (hsafeop hst hreq).2
  | dcRefused | accepted => exact ⟨rfl, rfl⟩
  | held hst | started hst =>
      rw [hst] at hin hout
      exact ⟨hin, by first | exact hout | rfl⟩

/-- An event that does not leave the application behind keeps `Follows`. -/
theorem Follows.stepped {b : AlView} {e : AlEvent} (h : a.Follows) (hno : ¬ a.LeavesApp e)
    (hs : Stepped a e b) : b.Follows := by
  cases hs with
  | same => exact h
  | entered req ack v hacts he =>
      refine Follows.entered (a := a.drop) ⟨h.inputs, h.outputs⟩ (fun hst hreq => ?_)
        (fun hst hreq => ⟨fun hv => ?_, fun hv => ?_⟩) he
      · exact hno ⟨hacts, hst, .inl hreq⟩
      · exact hno ⟨hacts, hst, .inr ⟨hreq, .inl hv⟩⟩
      · exact hno ⟨hacts, hst, .inr ⟨hreq, .inr hv⟩⟩
  | mbxRefused pdOk =>
      split
      · exact ⟨rfl, rfl⟩
      · rename_i hrun
        rw [not_or, Bool.not_eq_true, Bool.not_eq_true] at hrun
        exact ⟨hrun.1, hrun.2⟩
  | pdRefused => exact ⟨rfl, rfl⟩
  | error =>
      have hin : a.inputs = true := by
        rw [h.inputs]
        cases hst : a.st with
        | safeop | op => rfl
        | init | preop | boot => exact absurd ⟨by simp [hst], by simp [hst]⟩ hno
      split
      · exact ⟨hin, rfl⟩
      · rename_i hout
        exact ⟨hin, Bool.not_eq_true _ ▸ hout⟩
  | complete hpend | refuse hpend =>
      have hst : a.st = .safeop := Decidable.byContradiction fun hst => hno ⟨hpend, hst⟩
      obtain ⟨hin, hout⟩ := h
      rw [hst] at hin hout
      exact ⟨hin, by first | rfl | exact hout⟩

/-! ## A request is held in SAFEOP -/

/-- A request for OP is held in SAFEOP only, without an error, while the application produces inputs
and applies no outputs. -/
def Held (a : AlView) : Prop :=
  a.pending = true → a.st = .safeop ∧ a.err = false ∧ a.inputs = true ∧ a.outputs = false

/-- The events after which a request is held elsewhere: a request for OP under DC in SAFEOP without
inputs, and a step down while a request is held. -/
def LeavesHeld (a : AlView) : AlEvent → Prop
  | .request req ack _ => a.Acts ack ∧ a.st = .safeop ∧ req = .state .op ∧ a.dc = true ∧
      a.inputs = false
  | .smChange mbxOk pdOk => a.pending = true ∧ (mbxOk = false ∨ pdOk = false)
  | _ => False

/-- Only a request for OP under DC in SAFEOP is held. -/
lemma Entered.pending {b : AlView} (hpend : a.pending = false) (he : Entered a v req b)
    (hb : b.pending = true) :
    a.st = .safeop ∧ req = .state .op ∧ a.dc = true ∧
      b = { a with pending := true }.goto .safeop false := by
  cases he with
  | held hst hreq hdc => exact ⟨hst, hreq, hdc, rfl⟩
  | stay | stopAll | zero | stopOutputs | mapRefused | smRefused | dcRefused | accepted | started =>
      exact absurd (hpend.symm.trans hb) (by decide)

/-- An event that does not move a held request keeps `Held`. -/
theorem Held.stepped {b : AlView} {e : AlEvent} (h : a.Held) (hquiet : a.Quiet)
    (hno : ¬ a.LeavesHeld e) (hs : Stepped a e b) : b.Held := by
  intro hb
  cases hs with
  | same => exact h hb
  | entered req ack v hacts he =>
      obtain ⟨hst, hreq, hdc, rfl⟩ := he.pending rfl hb
      have hin : a.inputs = true := Decidable.byContradiction fun hin =>
        hno ⟨hacts, hst, hreq, hdc, Bool.eq_false_iff.mpr hin⟩
      have hout : a.outputs = false := Bool.eq_false_iff.mpr fun hout => by
        have hop := (hquiet.outputs hout).1
        exact absurd (hst.symm.trans hop) (by decide)
      exact ⟨rfl, rfl, hin, hout⟩
  | mbxRefused pdOk =>
      have hpend : a.pending = true := by
        split at hb <;> exact hb
      exact absurd ⟨hpend, .inl rfl⟩ hno
  | pdRefused => exact absurd ⟨hb, .inr rfl⟩ hno
  | error | complete | refuse => cases hb

/-! ## A held request is fed -/

/-- While a request is held, SM2 is enabled if there is output process data. -/
def Fed (a : AlView) : Prop := a.pending = true → a.mapped = true → a.sm2 = true

/-- The events after which a held request waits for process data that cannot arrive: a request for
OP under DC in SAFEOP with SM2 disabled, and a step down that stops the application while a request
is held. -/
def Starves (a : AlView) : AlEvent → Prop
  | .request req ack _ => a.Acts ack ∧ a.st = .safeop ∧ req = .state .op ∧ a.dc = true ∧
      a.mapped = true ∧ a.sm2 = false
  | .smChange mbxOk pdOk => a.pending = true ∧ a.mapped = true ∧
      (a.inputs = true ∨ a.outputs = true) ∧ (mbxOk = false ∨ pdOk = false)
  | _ => False

/-- An event that does not starve a held request keeps `Fed`. -/
theorem Fed.stepped {b : AlView} {e : AlEvent} (h : a.Fed) (hno : ¬ a.Starves e)
    (hs : Stepped a e b) : b.Fed := by
  intro hb hmapped
  cases hs with
  | same => exact h hb hmapped
  | entered req ack v hacts he =>
      obtain ⟨hst, hreq, hdc, rfl⟩ := he.pending rfl hb
      exact Decidable.byContradiction fun hsm2 =>
        hno ⟨hacts, hst, hreq, hdc, hmapped, Bool.eq_false_iff.mpr hsm2⟩
  | mbxRefused pdOk =>
      split at hb
      case isTrue hrun =>
        rw [if_pos hrun] at hmapped
        exact absurd ⟨hb, hmapped, hrun, .inl rfl⟩ hno
      case isFalse hrun =>
        rw [if_neg hrun] at hmapped ⊢
        exact h hb hmapped
  | pdRefused hrun => exact absurd ⟨hb, hmapped, hrun, .inr rfl⟩ hno
  | error | complete | refuse => cases hb

/-- A request for OP in SAFEOP that is acted on leaves SM2 enabled if there is output process data,
and under DC it is held. -/
lemma Fed.requestOp (h : a.Fed) {ack : Bool} (hacts : a.Acts ack) (hst : a.st = .safeop)
    (hno : ¬ a.Starves (.request (.state .op) ack v)) :
    (a.dc = true → (a.request (.state .op) ack v).pending = true) ∧
      ((a.request (.state .op) ack v).mapped = true →
        (a.request (.state .op) ack v).sm2 = true) := by
  rw [request, if_neg fun hstay => hstay.2 (hacts hstay.1)]
  by_cases hpend : a.pending = true
  · rw [if_pos ⟨hpend, hst, rfl⟩]
    exact ⟨fun _ => hpend, h hpend⟩
  · rw [if_neg fun hheld => hpend hheld.1]
    have henter : { a with pending := false }.enter v (.state .op) = a.drop.enterOp := by
      simp only [enter, hst]
      rfl
    rw [henter, enterOp, drop_dc]
    by_cases hdc : a.dc = true
    · rw [if_pos hdc]
      refine ⟨fun _ => rfl, fun hmapped => Decidable.byContradiction fun hsm2 => ?_⟩
      exact hno ⟨hacts, hst, rfl, hdc, hmapped, Bool.eq_false_iff.mpr hsm2⟩
    · rw [if_neg hdc]
      refine ⟨fun h => absurd h hdc, fun hmapped => ?_⟩
      have hmapped' : a.mapped = true := hmapped
      change (a.sm2 || a.mapped) = true
      rw [hmapped', Bool.or_true]

/-! ## The slave is not raised -/

/-- The events other than a request that may raise the slave: an error in a state below SAFEOP, the
end of a held request in a state other than SAFEOP, and a step down to PREOP from INIT or BOOT. -/
def Raises (a : AlView) : AlEvent → Prop
  | .error => a.st ≠ .safeop ∧ a.st ≠ .op
  | .complete | .refuse => a.pending = true ∧ a.st ≠ .safeop
  | .smChange mbxOk pdOk => a.st.rank = 0 ∧ mbxOk = true ∧ pdOk = false ∧
      (a.inputs = true ∨ a.outputs = true)
  | _ => False

/-- Only a request that is acted on, and a held request that is completed in SAFEOP, raise the
slave, as long as none of the other events that may raise it happens. -/
theorem rank_stepped {b : AlView} {e : AlEvent} (hno : ¬ a.Raises e) (hs : Stepped a e b) :
    b.st.rank ≤ a.st.rank ∨ (∃ req ack v, e = .request req ack v ∧ a.Acts ack) ∨
      e = .complete ∧ a.pending = true ∧ a.st = .safeop := by
  cases hs with
  | same => exact .inl (Nat.le_refl _)
  | entered req ack v hacts _ => exact .inr (.inl ⟨req, ack, v, rfl, hacts⟩)
  | mbxRefused => exact .inl (Nat.zero_le _)
  | pdRefused hrun =>
      refine .inl (Nat.one_le_iff_ne_zero.mpr fun hrank => hno ⟨hrank, rfl, rfl, hrun⟩)
  | error =>
      refine .inl ?_
      change AlSt.safeop.rank ≤ a.st.rank
      cases hst : a.st with
      | safeop | op => decide
      | init | preop | boot => exact absurd ⟨by simp [hst], by simp [hst]⟩ hno
  | complete hpend =>
      exact .inr (.inr ⟨rfl, hpend, Decidable.byContradiction fun hst => hno ⟨hpend, hst⟩⟩)
  | refuse hpend =>
      have hst : a.st = .safeop := Decidable.byContradiction fun hst => hno ⟨hpend, hst⟩
      exact .inl (by rw [hst]; exact Nat.le_refl _)

end AlView

end Soes
