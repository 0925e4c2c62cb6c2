import Mathlib.Logic.Relation
import Soes.Stack.Device

/-!
# The entry points are made of calls

The functions an application calls in its cycle, `ecat_slv_poll`, `ecat_slv`, `ecat_slv_run_dc` and
`ecat_slv_worker`, do nothing but the calls of `Soes.Stack.Calls` and accesses that the
surroundings could have made as well: `Entry.run_calls`.  So whatever holds in every state that
calls reach holds in every state an application reaches by them (`Reached.entry`).

The entry points of the stack with FoE and EoE are made of the calls of `Soes.Stack.Device` in the
same way (`Entry.runDevice_calls`, `Device.Reached.entry`).
-/

namespace Soes

open Program

variable {σ : Type} {sys : System σ} {n : ℕ} {w w' : World σ} {α : Type}

/-! ## Code made of calls -/

/-- Some calls lead from the one state to the other. -/
abbrev Calls (sys : System σ) : World σ → World σ → Prop :=
  Relation.ReflTransGen fun w w' => ∃ l, Stack.Step sys w l w'

/-- The code is made of calls. -/
abbrev MadeOfCalls (sys : System σ) (m : Stack σ α) : Prop := KeepsAt sys (Calls sys) m

/-- A single call. -/
lemma MadeOfCalls.call {m : Stack σ Unit} (c : Call σ) (hm : c.run = m) : MadeOfCalls sys m :=
  fun n _ _ _ hrun => .single ⟨(n, c), by rwa [Stack.Step, hm]⟩

/-- A single call whose result is used. -/
lemma MadeOfCalls.callResult {m : Stack σ α} (c : Call σ) (hm : c.run = (fun _ => ()) <$> m) :
    MadeOfCalls sys m := fun n w a w' hrun => .single ⟨(n, c), by
  have hmap : ((fun _ => ()) <$> m) sys n w = .ok () w' := by
    rw [← bind_pure_comp, bind_eq_ok]
    exact ⟨a, w', hrun, rfl⟩
  rw [Stack.Step, hm]
  exact hmap⟩

/-- An access that changes nothing but the outside and the AL event word. -/
lemma MadeOfCalls.access {m : Stack σ α} (hm : ∀ n w a w', m sys n w = .ok a w' →
    ∃ outside alEvent, w' = { w with outside := outside, alEvent := alEvent }) :
    MadeOfCalls sys m := fun n w a w' hrun => by
  obtain ⟨outside, alEvent, rfl⟩ := hm n w a w' hrun
  exact .single ⟨(n, .move outside alEvent w.mem.bytes), rfl⟩

lemma escRead_calls (address len : ℕ) : MadeOfCalls sys (onBus (escRead address len)) :=
  .access fun _ _ _ _ hrun => by
    cases hrun
    exact ⟨_, _, rfl⟩

lemma escWrite_calls (address len : ℕ) (data : ByteStore) :
    MadeOfCalls sys (onBus (escWrite address len data)) :=
  .access fun _ _ _ _ hrun => by
    cases hrun
    exact ⟨_, _, rfl⟩

lemma refreshALevent_calls : MadeOfCalls sys (onBus refreshALevent) :=
  .access fun _ _ _ _ hrun => by
    cases hrun
    exact ⟨_, _, rfl⟩

lemma hwWait_calls (timeoutNs : ℕ) : MadeOfCalls sys (hwWait timeoutNs) := by
  refine .ask_bind ?_
  cases sys.cfg.escHwWait with
  | none => exact .pure _
  | some call =>
      refine MadeOfCalls.access fun _ _ _ _ hrun => ?_
      cases hrun
      exact ⟨_, _, rfl⟩

lemma callEepHandler_calls : MadeOfCalls sys callEepHandler := by
  refine .ask_bind ?_
  cases sys.cfg.escHwEepHandler with
  | none => exact .pure _
  | some call =>
      refine MadeOfCalls.access fun _ _ _ _ hrun => ?_
      cases hrun
      exact ⟨_, _, rfl⟩

lemma escMbxprocess_calls : MadeOfCalls sys escMbxprocess := .callResult .mbxprocess rfl

lemma mailboxProtocols_calls : MadeOfCalls sys mailboxProtocols :=
  (MadeOfCalls.call .coeprocess rfl).bind fun _ => MadeOfCalls.call .xoeprocess rfl

/-! ## The entry points -/

lemma ecatSlvPoll_calls : MadeOfCalls sys ecatSlvPoll :=
  refreshALevent_calls.bind fun _ => (MadeOfCalls.call .state rfl).bind fun _ =>
    (MadeOfCalls.call .smActEvent rfl).bind fun _ => escMbxprocess_calls.bind fun _ =>
      (KeepsAt.when mailboxProtocols_calls).bind fun _ => callEepHandler_calls

lemma ecatSlv_calls : MadeOfCalls sys ecatSlv :=
  ecatSlvPoll_calls.bind fun _ => MadeOfCalls.call (.process _) rfl

lemma runDcWake_calls (timeoutNs : ℕ) : MadeOfCalls sys (runDcWake timeoutNs) :=
  (hwWait_calls timeoutNs).bind fun rc =>
    (MadeOfCalls.callResult (.waited rc) rfl).bind fun _ => .ite (.pure _)
      ((KeepsAt.when (MadeOfCalls.call (.opPendingStep _ _ _) rfl)).bind fun _ =>
        refreshALevent_calls.bind fun _ => .get_bind fun _ => .pure _)

lemma runDcProcessData_calls (events : Dword) : MadeOfCalls sys (runDcProcessData events) :=
  .when (.get_bind fun _ => .ite (MadeOfCalls.call (.process _) rfl)
    ((MadeOfCalls.call (.noteSmEvent true) rfl).bind fun _ => MadeOfCalls.call (.process _) rfl))

lemma runDcSync0_calls (events : Dword) (rc : ℤ) (timeoutNs : ℕ) :
    MadeOfCalls sys (runDcSync0 events rc timeoutNs) :=
  .get_bind fun _ => .when (.get_bind fun _ =>
    (MadeOfCalls.call (.sync0Account _) rfl).bind fun _ => .get_bind fun _ =>
      (MadeOfCalls.call (.opPendingStep _ _ _) rfl).bind fun _ =>
        (MadeOfCalls.call (.noteSmEvent false) rfl).bind fun _ =>
          (MadeOfCalls.call (.process _) rfl).bind fun _ =>
            (escRead_calls _ _).bind fun _ => .pure _)

lemma runDcState_calls (events : Dword) : MadeOfCalls sys (runDcState events) :=
  .get_bind fun _ => .when
    ((KeepsAt.when ((MadeOfCalls.call .state rfl).bind fun _ =>
        MadeOfCalls.call .smActEvent rfl)).bind fun _ =>
      escMbxprocess_calls.bind fun _ => (KeepsAt.when mailboxProtocols_calls).bind fun _ =>
        .when callEepHandler_calls)

lemma runDcCycle_calls (rc : ℤ) (events : Dword) (timeoutNs : ℕ) :
    MadeOfCalls sys (runDcCycle rc events timeoutNs) :=
  (runDcProcessData_calls events).bind fun _ => (runDcSync0_calls events rc timeoutNs).bind
    fun _ => runDcState_calls events

lemma ecatSlvRunDc_calls (timeoutNs : ℕ) : MadeOfCalls sys (ecatSlvRunDc timeoutNs) := by
  refine (runDcWake_calls timeoutNs).bind ?_
  rintro ⟨rc, _ | events⟩
  · exact .pure _
  · exact runDcCycle_calls rc events timeoutNs

lemma escALeventmaskread_calls : MadeOfCalls sys (onBus escALeventmaskread) :=
  .access fun _ _ _ _ hrun => by
    cases hrun
    exact ⟨_, _, rfl⟩

lemma ecatSlvWorker_calls (eventMask : Dword) : MadeOfCalls sys (ecatSlvWorker eventMask) := by
  refine KeepsAt.bind (.doWhile ?round _) fun _ => ?_
  case round =>
    have mailbox : MadeOfCalls sys (workerMailbox : Stack σ _) :=
      escMbxprocess_calls.bind fun _ => .get_bind fun _ =>
        .ite (mailboxProtocols_calls.bind fun _ => .pure _) (.pure _)
    exact (MadeOfCalls.call .state rfl).bind fun _ => (MadeOfCalls.call .smActEvent rfl).bind
      fun _ => (KeepsAt.loop (fun _ => mailbox) ()).bind fun _ => callEepHandler_calls.bind
        fun _ => refreshALevent_calls
  exact escALeventmaskread_calls.bind fun _ => escWrite_calls _ _ _

/-- The entry points of the stack. -/
inductive Entry where
  /-- `ecat_slv_poll`. -/
  | poll
  /-- `ecat_slv`. -/
  | slv
  /-- `ecat_slv_run_dc`. -/
  | runDc (timeoutNs : ℕ)
  /-- `ecat_slv_worker`. -/
  | worker (eventMask : Dword)
  deriving DecidableEq, Repr

/-- The code of an entry point. -/
def Entry.run : Entry → Stack σ Unit
  | .poll => ecatSlvPoll
  | .slv => ecatSlv
  | .runDc timeoutNs => ecatSlvRunDc timeoutNs
  | .worker eventMask => ecatSlvWorker eventMask

/-- The entry points are made of calls. -/
theorem Entry.run_calls (e : Entry) : MadeOfCalls sys (e.run : Stack σ Unit) := by
  cases e with
  | poll => exact ecatSlvPoll_calls
  | slv => exact ecatSlv_calls
  | runDc timeoutNs => exact ecatSlvRunDc_calls timeoutNs
  | worker eventMask => exact ecatSlvWorker_calls eventMask

/-- What an entry point leaves is reached, if what it started in was. -/
theorem Reached.entry (h : Reached sys (fun _ _ => True) w) (e : Entry)
    (hrun : e.run sys n w = .ok () w') : Reached sys (fun _ _ => True) w' := by
  have hcalls : Calls sys w w' := e.run_calls n w () w' hrun
  clear hrun
  induction hcalls with
  | refl => exact h
  | tail _ hstep ih =>
      obtain ⟨l, hl⟩ := hstep
      exact .next ih trivial hl

/-! ## The stack with all its protocols -/

section device

variable {env : DeviceSystem σ} {d d' : Device σ}

/-- Some calls of the whole stack lead from the one state to the other. -/
abbrev DeviceCalls (env : DeviceSystem σ) : Device σ → Device σ → Prop :=
  Relation.ReflTransGen fun d d' => ∃ l, Device.Step env d l d'

/-- The code is made of calls of the whole stack. -/
abbrev MadeOfDeviceCalls (env : DeviceSystem σ) (m : OnDevice σ α) : Prop :=
  KeepsAt env (DeviceCalls env) m

lemma MadeOfDeviceCalls.call {m : OnDevice σ Unit} (c : DeviceCall σ) (hm : c.run = m) :
    MadeOfDeviceCalls env m :=
  fun n _ _ _ hrun => .single ⟨(n, c), by rwa [Device.Step, hm]⟩

lemma Stack.Step.device {l : ℕ × Call σ} (h : Stack.Step env.sys w l w') :
    Device.Step env { d with world := w } (l.1, .call l.2) { d with world := w' } := by
  rw [Stack.Step] at h
  simp only [Device.Step, DeviceCall.run, within, worldOf_get, h]
  rfl

/-- Code made of calls without FoE and EoE is made of calls of the whole stack. -/
lemma MadeOfCalls.device {m : Stack σ α} (hm : MadeOfCalls env.sys m) :
    MadeOfDeviceCalls env (onStack m) := by
  intro n d
  rw [wlp_within]
  intro a w' hrun
  refine (hm n d.world a w' hrun).lift (fun w => { d with world := w }) fun w₁ w₂ hstep => ?_
  obtain ⟨l, hl⟩ := hstep
  exact ⟨_, hl.device⟩

lemma onStack_calls (c : Call σ) {m : Stack σ Unit} (hm : c.run = m) :
    MadeOfDeviceCalls env (onStack m) := (MadeOfCalls.call c hm).device

lemma deviceProtocols_calls : MadeOfDeviceCalls env deviceProtocols :=
  (onStack_calls .coeprocess rfl).bind fun _ => (MadeOfDeviceCalls.call .foeprocess rfl).bind
    fun _ => (MadeOfDeviceCalls.call .eoeprocess rfl).bind fun _ => onStack_calls .xoeprocess rfl

lemma escEoeprocessTx_calls : MadeOfDeviceCalls env (onEoe (σ := σ) escEoeprocessTx) :=
  .call .eoeprocessTx rfl

lemma devicePoll_calls : MadeOfDeviceCalls env devicePoll :=
  refreshALevent_calls.device.bind fun _ => (onStack_calls .state rfl).bind fun _ =>
    (onStack_calls .smActEvent rfl).bind fun _ => escMbxprocess_calls.device.bind fun _ =>
      (KeepsAt.when deviceProtocols_calls).bind fun _ => escEoeprocessTx_calls.bind fun _ =>
        callEepHandler_calls.device

lemma deviceSlv_calls : MadeOfDeviceCalls env deviceSlv :=
  devicePoll_calls.bind fun _ => onStack_calls (.process _) rfl

lemma deviceWorker_calls (eventMask : Dword) :
    MadeOfDeviceCalls env (deviceWorker eventMask) := by
  have mailbox : MadeOfDeviceCalls env deviceWorkerMailbox :=
    escMbxprocess_calls.device.bind fun _ => .get_bind fun _ =>
      .ite (deviceProtocols_calls.bind fun _ => .pure _) (.pure _)
  have state : MadeOfDeviceCalls env (onStack (σ := σ) escState) := onStack_calls .state rfl
  have round := state.bind fun _ => (onStack_calls .smActEvent rfl).bind fun _ =>
    (KeepsAt.loop (fun _ => mailbox) ()).bind fun _ => escEoeprocessTx_calls.bind fun _ =>
      callEepHandler_calls.device.bind fun _ => refreshALevent_calls.device
  exact (KeepsAt.doWhile round _).bind fun _ => escALeventmaskread_calls.device.bind
    fun _ => (escWrite_calls _ _ _).device

lemma deviceRunDcState_calls (events : Dword) :
    MadeOfDeviceCalls env (deviceRunDcState events) :=
  .get_bind fun _ => .when
    ((KeepsAt.when ((onStack_calls .state rfl).bind fun _ => onStack_calls .smActEvent rfl)).bind
      fun _ => escMbxprocess_calls.device.bind fun _ =>
        (KeepsAt.when deviceProtocols_calls).bind fun _ => .when callEepHandler_calls.device)

lemma deviceRunDc_calls (timeoutNs : ℕ) : MadeOfDeviceCalls env (deviceRunDc timeoutNs) := by
  refine (runDcWake_calls timeoutNs).device.bind ?_
  rintro ⟨rc, _ | events⟩
  · exact .pure _
  · exact (runDcProcessData_calls events).device.bind fun _ =>
      (runDcSync0_calls events rc timeoutNs).device.bind fun _ => deviceRunDcState_calls events

/-- The code of an entry point of the whole stack. -/
def Entry.runDevice : Entry → OnDevice σ Unit
  | .poll => devicePoll
  | .slv => deviceSlv
  | .runDc timeoutNs => deviceRunDc timeoutNs
  | .worker eventMask => deviceWorker eventMask

/-- The entry points of the whole stack are made of its calls. -/
theorem Entry.runDevice_calls (e : Entry) :
    MadeOfDeviceCalls env (e.runDevice : OnDevice σ Unit) := by
  cases e with
  | poll => exact devicePoll_calls
  | slv => exact deviceSlv_calls
  | runDc timeoutNs => exact deviceRunDc_calls timeoutNs
  | worker eventMask => exact deviceWorker_calls eventMask

/-- What an entry point of the whole stack leaves is reached, if what it started in was. -/
theorem Device.Reached.entry (h : Device.Reached env (fun _ _ => True) d) (e : Entry)
    (hrun : e.runDevice env n d = .ok () d') : Device.Reached env (fun _ _ => True) d' := by
  have hcalls : DeviceCalls env d d' := e.runDevice_calls n d () d' hrun
  clear hrun
  induction hcalls with
  | refl => exact h
  | tail _ hstep ih =>
      obtain ⟨l, hl⟩ := hstep
      exact .next ih trivial hl

end device

end Soes
