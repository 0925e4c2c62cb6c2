import Soes.Properties.AlRuns

/-!
# Traces of the AL state machine

What a master sees of a slave over time is a sequence: the AL status after each call of the stack.
Every such sequence is one of the AL state machine of `Soes.Abstract.AlMachine`, event by event
(`al_trace_refines`), whatever the master, the bus and the application do in between, and whatever
order the calls are made in.  So what holds of all runs of the abstract machine holds of the stack:
here, that outputs are applied in OP alone, and that an error is shown until it is confirmed
(`error_stays`).
-/

namespace Soes

open Program

variable {σ : Type} {sys : System σ} {w w₀ : World σ} {a : AlView}

/-! ## What is shown -/

/-- What is seen of the slave after a call. -/
structure AlShown where
  status : Byte
  app : Byte
  pending : Bool
  sm2 : Bool
  deriving DecidableEq, Repr

/-- What the stack shows. -/
def World.alShown (w : World σ) : AlShown :=
  ⟨w.statusByte, w.al.appState, w.al.opPending, w.sm.pdi 2⟩

/-- What the AL state machine shows. -/
def AlView.alShown (a : AlView) : AlShown :=
  ⟨a.statusCode, appCode a.inputs a.outputs, a.pending, a.sm2⟩

lemma Shows.alShown (h : Shows w.core a) : w.alShown = a.alShown := by
  have hstatus : w.statusByte = a.statusCode := h.status
  have happ : w.al.appState = appCode a.inputs a.outputs := h.app
  have hpending : w.al.opPending = a.pending := h.pending
  have hsm2 : w.sm.pdi 2 = a.sm2 := h.sm2
  rw [World.alShown, AlView.alShown, hstatus, happ, hpending, hsm2]

/-- Outputs are applied. -/
def AlShown.applies (o : AlShown) : Prop := o.app &&& appstateOutput ≠ 0

lemma AlView.Quiet.applies (h : a.Quiet) (happlies : a.alShown.applies) :
    a.alShown.status = escOp ∧ a.alShown.pending = false := by
  have hout : a.outputs = true := by
    have hbit : appCode a.inputs a.outputs &&& appstateOutput ≠ 0 := happlies
    cases hout : a.outputs with
    | true => rfl
    | false =>
        rw [hout] at hbit
        exact absurd (by cases a.inputs <;> decide) hbit
  obtain ⟨hst, herr, hpending⟩ := h.outputs hout
  refine ⟨?_, hpending⟩
  change a.statusCode = escOp
  rw [AlView.statusCode, hst, herr]
  rfl

lemma AlView.Quiet.passes (events : List AlEvent) (h : a.Quiet) :
    ∀ b ∈ passes AlView.step a events, b.Quiet := by
  induction events generalizing a with
  | nil =>
      intro b hb
      cases hb
  | cons e events ih =>
      intro b hb
      have hnext := h.stepped (AlView.step_stepped a e)
      rcases List.mem_cons.mp hb with rfl | hb
      · exact hnext
      · exact ih hnext b hb

/-! ## The refinement -/

/-- **Every run of the stack is a run of the AL state machine.**  From its start on, whatever calls
are made in whatever order and whatever the surroundings do in between, there is an event for each
call, one that the call can be, such that the machine shows after each event what the stack shows
after the call; and whenever outputs are applied, the AL status is OP without an error, and no
request is held. -/
theorem al_trace_refines (hooks : HooksNeutral sys) (hinit : Initialised sys w₀)
    {tr : List (World σ × (ℕ × Call σ) × World σ)} (h : Trace (Stack.Step sys) w₀ tr) :
    ∃ events, List.Forall₂ (fun x e => CallEvent sys x.1 x.2.1 e) tr events ∧
      tr.map (fun x => x.2.2.alShown) =
        (passes AlView.step AlView.initial events).map AlView.alShown ∧
      ∀ x ∈ tr, x.2.2.alShown.applies →
        x.2.2.alShown.status = escOp ∧ x.2.2.alShown.pending = false := by
  obtain ⟨events, hevents, hstates⟩ := h.simulation (fun w a => Shows w.core a) (CallEvent sys)
    (fun w l w' a hshows hstep => hstep.refines hooks hshows) hinit.shows
  have hquiet : AlView.initial.Quiet := ⟨by decide, by decide⟩
  have hshown : tr.map (fun x => x.2.2.alShown) =
      (passes AlView.step AlView.initial events).map AlView.alShown := by
    rw [← List.forall₂_eq_eq_eq, List.forall₂_map_left_iff, List.forall₂_map_right_iff]
    exact hstates.imp fun _ _ hshows => hshows.alShown
  refine ⟨events, hevents, hshown, fun x hx => ?_⟩
  have hmem : x.2.2.alShown ∈ (passes AlView.step AlView.initial events).map AlView.alShown := by
    rw [← hshown]
    exact List.mem_map_of_mem hx
  obtain ⟨a, ha, heq⟩ := List.mem_map.mp hmem
  rw [← heq]
  exact (hquiet.passes events a ha).applies

/-- The calls of an executable run, as a trace. -/
lemma exists_trace (ls : List (ℕ × Call σ)) {w w' : World σ}
    (hrun : runCalls sys (fun _ _ => True) ls w = some w') :
    ∃ tr, Trace (Stack.Step sys) w tr ∧ tr.map (fun x => x.2.1) = ls := by
  induction ls generalizing w with
  | nil => exact ⟨[], .nil, rfl⟩
  | cons l ls ih =>
      rw [runCalls, if_pos trivial] at hrun
      generalize hstep : l.2.run sys l.1 w = outcome at hrun
      cases outcome with
      | ok u w₁ =>
          obtain ⟨tr, htrace, hlabels⟩ := ih hrun
          exact ⟨(w, l, w₁) :: tr, .cons hstep htrace, by rw [List.map_cons, hlabels]⟩
      | fault e => cases hrun
      | diverge => cases hrun

lemma initialised_of_startUp {n : ℕ} {outside : σ} {alEvent : Dword} {bytes : ByteStore}
    (hstart : startUp sys n outside alEvent bytes = some w) : Initialised sys w := by
  refine ⟨n, outside, alEvent, bytes, ?_⟩
  rw [startUp] at hstart
  generalize ecatSlvInit sys n (World.zeroed outside alEvent bytes) = outcome at hstart
  cases outcome with
  | ok started w₁ =>
      cases started with
      | true =>
          cases hstart
          rfl
      | false => cases hstart
  | fault e => cases hstart
  | diverge => cases hstart

/-- The example device on its way to OP. -/
theorem al_trace_to_op : ∃ w₀ tr events, Trace (Stack.Step exampleSystem) w₀ tr ∧
    tr.map (fun x => x.2.1) = masterRequest 2 0 ++ masterRequest 4 0 ++ masterRequest 8 0 ∧
    List.Forall₂ (fun x e => CallEvent exampleSystem x.1 x.2.1 e) tr events ∧
    tr.map (fun x => x.2.2.alShown) =
      (passes AlView.step AlView.initial events).map AlView.alShown := by
  have hrun : (exampleRun (fun _ _ => True) (masterRequest 2 0 ++ masterRequest 4 0 ++
      masterRequest 8 0)).isSome := by
    decide +kernel
  obtain ⟨w, hrun⟩ := Option.isSome_iff_exists.mp hrun
  obtain ⟨w₀, hstart, hrun⟩ := Option.bind_eq_some_iff.mp hrun
  obtain ⟨tr, htrace, hlabels⟩ := exists_trace _ hrun
  obtain ⟨events, hevents, hshown, -⟩ :=
    al_trace_refines exampleHooks (initialised_of_startUp hstart) htrace
  exact ⟨w₀, tr, events, htrace, hlabels, hevents, hshown⟩

/-! ## Errors are shown until they are confirmed -/

/-- An error is shown. -/
def World.showsError (w : World σ) : Prop := w.statusByte &&& escError ≠ 0

instance (w : World σ) : Decidable w.showsError := by unfold World.showsError; infer_instance

lemma Shows.showsError_iff (h : Shows w.core a) : w.showsError ↔ a.err = true := by
  have hstatus : w.statusByte = a.st.statusCode a.err := h.status
  rw [World.showsError, hstatus]
  cases a.st <;> cases a.err <;> decide

/-- The event neither confirms an error nor completes a held request. -/
def AlEvent.Unconfirming : AlEvent → Prop
  | .request _ ack _ => ack = false
  | .complete => False
  | _ => True

/-- An error stays, unless it is confirmed. -/
lemma AlView.err_step {e : AlEvent} (h : a.err = true) (he : e.Unconfirming) :
    (a.step e).err = true := by
  cases e with
  | idle => exact h
  | request req ack v =>
      have hack : ack = false := he
      rw [AlView.step, AlView.request, if_pos ⟨h, by rw [hack]; exact Bool.false_ne_true⟩]
      exact h
  | smChange mbxOk pdOk =>
      rw [AlView.step, AlView.smChange]
      by_cases hmbx : mbxOk = true
      · rw [if_neg (not_not.mpr hmbx)]
        by_cases hpd : (a.inputs = true ∨ a.outputs = true) ∧ ¬ pdOk = true
        · rw [if_pos hpd]
          rfl
        · rw [if_neg hpd]
          exact h
      · rw [if_pos hmbx]
        rfl
  | error => rfl
  | complete => exact he.elim
  | refuse =>
      rw [AlView.step, AlView.refuse]
      by_cases hpending : a.pending = true
      · rw [if_pos hpending]
        rfl
      · rw [if_neg hpending]
        exact h

/-- The calls that do not confirm an error: `ESC_state` reads no control word that does, by its bit
or by asking for INIT, and no held request ends. -/
def Unconfirmed (sys : System σ) (w : World σ) : ℕ × Call σ → Prop
  | (_, .state) => w.alEvent &&& escregAleventControl ≠ 0 →
      confirms (w.readControl sys).controlByte = false
  | (_, .opPendingStep sync0 smEvent elapsedNs) => ¬ w.pendingEnds sync0 smEvent elapsedNs
  | _ => True

lemma CallEvent.unconfirming {l : ℕ × Call σ} {e : AlEvent} (he : CallEvent sys w l e)
    (hok : Unconfirmed sys w l) : e.Unconfirming := by
  obtain ⟨n, call⟩ := l
  cases call with
  | state =>
      cases he with
      | idle => trivial
      | request v hevent => exact hok hevent
  | smActEvent => cases he <;> trivial
  | process | waited | sync0Account =>
      rcases he with rfl | ⟨rfl, -⟩ <;> trivial
  | opPendingStep sync0 smEvent ns =>
      rcases he with rfl | ⟨-, hends⟩
      · trivial
      · exact (hok hends).elim
  | move | mbxprocess | coeprocess | xoeprocess | noteSmEvent =>
      cases he
      trivial

/-- **An error is shown until it is confirmed**, in every run: once the AL status has the error
indication, it has it after every later call, and no outputs are applied, whatever is asked of the
slave, until `ESC_state` reads a control word that confirms the error or a held request ends. -/
theorem error_stays (hooks : HooksNeutral sys)
    (h : Reachable (fun w => Reached sys (fun _ _ => True) w ∧ w.showsError) (Stack.Step sys)
      (Unconfirmed sys) w) :
    w.showsError ∧ w.al.appState &&& appstateOutput = 0 := by
  have hview : ∃ a, Shows w.core a ∧ a.Quiet ∧ a.err = true := by
    refine h.invariant (P := fun w => ∃ a, Shows w.core a ∧ a.Quiet ∧ a.err = true) ?_ ?_
    · intro w hw
      obtain ⟨a, hshows, hquiet, -⟩ := hw.1.view hooks (fun _ => True) (fun _ _ => False) trivial
        (fun _ _ _ _ => trivial) fun _ _ _ _ _ => id
      exact ⟨a, hshows, hquiet, hshows.showsError_iff.mp hw.2⟩
    · intro w l w' hw hok hstep
      obtain ⟨a, hshows, hquiet, herr⟩ := hw
      obtain ⟨e, hshows', he⟩ := hstep.refines hooks hshows
      exact ⟨_, hshows', hquiet.stepped (AlView.step_stepped a e),
        AlView.err_step herr (he.unconfirming hok)⟩
  obtain ⟨a, hshows, hquiet, herr⟩ := hview
  refine ⟨hshows.showsError_iff.mpr herr, ?_⟩
  by_contra hout
  have happlied := hquiet.outputs (hshows.outputs_iff.mp hout)
  exact absurd (herr.symm.trans happlied.2.1) (by decide)

instance decidableUnconfirmed (sys : System σ) (w : World σ) (l : ℕ × Call σ) :
    Decidable (Unconfirmed sys w l) :=
  match l with
  | (_, .state) | (_, .opPendingStep ..) => by
      dsimp only [Unconfirmed]
      infer_instance
  | (_, .move ..) | (_, .mbxprocess) | (_, .coeprocess) | (_, .xoeprocess)
  | (_, .process _) | (_, .waited _) | (_, .noteSmEvent _) | (_, .sync0Account _)
  | (_, .smActEvent) => .isTrue trivial

/-- The example device is asked for OP in PREOP, and then for SAFEOP without a confirmation. -/
theorem error_stays_unconfirmed : ∃ w w', Reached exampleSystem (fun _ _ => True) w ∧
    Stack.Step exampleSystem w (8, .state) w' ∧ w'.showsError := by
  have hrun : (exampleRun (Unconfirmed exampleSystem) (masterRequest 2 0 ++ masterRequest 8 0 ++
      [masterMove 4 escregAleventControl 0])).map (fun w => (decide w.showsError,
        (runCalls exampleSystem (Unconfirmed exampleSystem) [(8, .state)] w).map
          fun w => decide w.showsError)) = some (true, some true) := by
    decide +kernel
  obtain ⟨w, w', hw, herr, hok, hstep, -⟩ := exists_reached_step hrun
  have hreached : Reached exampleSystem (fun _ _ => True) w :=
    Reachable.mono (fun _ _ _ => trivial) hw
  have hstays := error_stays exampleHooks
    (.next (.start ⟨hreached, of_decide_eq_true herr⟩) hok hstep)
  exact ⟨w, w', hreached, hstep, hstays.1⟩

end Soes
