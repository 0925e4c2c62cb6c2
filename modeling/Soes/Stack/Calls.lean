import Soes.Framework.Runs
import Soes.Stack.Slave

/-!
# Runs of the stack

What can happen to the slave, as a labelled system: a call of one of the functions the entry
points of `ecat_slv.c` are made of, in any order and with any arguments, or a move of the
surroundings, which changes the ESC, the bus and the application's variables at will.  Runs start
in any state `ecat_slv_init` leaves behind when it started from zeroed variables.

`Soes.Properties.Entry` shows that the entry points themselves are made of these calls.
-/

namespace Soes

open Program

variable {σ : Type}

/-- What can happen in a run. -/
inductive Call (σ : Type) where
  /-- The master, the bus or the application changes what the stack does not own. -/
  | move (outside : σ) (alEvent : Dword) (bytes : ByteStore)
  /-- `ESC_state`. -/
  | state
  /-- `ESC_sm_act_event`. -/
  | smActEvent
  /-- `ESC_mbxprocess`. -/
  | mbxprocess
  /-- `ESC_coeprocess`. -/
  | coeprocess
  /-- `ESC_xoeprocess`. -/
  | xoeprocess
  /-- `DIG_process`. -/
  | process (flags : Byte)
  /-- `ecat_slv_sync0_account`. -/
  | sync0Account (smEventSeen : Bool)
  /-- `ESC_op_pending_step`. -/
  | opPendingStep (sync0 smEvent : Bool) (elapsedNs : ℕ)
  /-- `ecat_slv_run_dc`, after a wait. -/
  | waited (rc : ℤ)
  /-- `ecat_slv_run_dc`, the note whether an SM event was seen since the last SYNC0. -/
  | noteSmEvent (seen : Bool)

/-- The code of a call. -/
def Call.run : Call σ → Stack σ Unit
  | .move outside alEvent bytes => modify fun w =>
      { w with outside := outside, alEvent := alEvent, mem := { w.mem with bytes := bytes } }
  | .state => escState
  | .smActEvent => escSmActEvent
  | .mbxprocess => (fun _ => ()) <$> escMbxprocess
  | .coeprocess => onCoe escCoeprocess
  | .xoeprocess => onMailbox escXoeprocess
  | .process flags => digProcess flags
  | .sync0Account smEventSeen => ecatSlvSync0Account smEventSeen
  | .opPendingStep sync0 smEvent elapsedNs => escOpPendingStep sync0 smEvent elapsedNs
  | .waited rc => (fun _ => ()) <$> runDcTimeout rc
  | .noteSmEvent seen => modifyAl fun al => { al with smEventSeen := seen }

/-- A call that finishes, with a bound on the iterations of its loops. -/
def Stack.Step (sys : System σ) (w : World σ) (l : ℕ × Call σ) (w' : World σ) : Prop :=
  l.2.run sys l.1 w = .ok () w'

/-- The variables of the stack as the C startup code leaves them. -/
def World.zeroed (outside : σ) (alEvent : Dword) (bytes : ByteStore) : World σ where
  outside := outside
  alEvent := alEvent
  sm := { sm := fun _ => default, smTestresult := 0, pdi := fun _ => false }
  al :=
    { alStatus := 0, alControl := 0, alError := 0, dlStatus := 0, address := 0, appState := 0,
      dcsync := 0, synccounterlimit := 0, synccounter := 0, smeventmissed := 0,
      syncerror := false, smEventSeen := false, opPending := false, opSeenSync0 := false,
      opSeenSm := false, opPendingNs := 0, opValidNs := 0, escSm2Sml := 0, escSm3Sml := 0,
      sm2mappings := 0, sm3mappings := 0, smMap2 := [], smMap3 := [], safeStates := 0 }
  wd :=
    { watchdog := 0, hwWdState := .unchecked, hwWdQuiet := 0, rxpdo := fun _ => 0,
      txpdo := fun _ => 0 }
  mb :=
    { mbx := fun _ => 0, control := fun _ => .idle, mbxRun := false, activembxsize := 0,
      activemb0 := default, activemb1 := default, mbxcnt := 0, mbxincnt := 0, mbxoutpost := 0,
      mbxbackup := 0, xoe := 0, txcue := 0, mbxfree := false, toggle := false, segmented := 0,
      data := 0, entries := 0, frags := 0, fragsleft := 0, index := 0, subindex := 0, flags := 0,
      sdoHeld := ⟨false, 0, 0⟩ }
  mem := { bytes := bytes, writes := [], wrapped := false }

/-- A state that `ecat_slv_init` leaves behind. -/
def Initialised (sys : System σ) (w : World σ) : Prop :=
  ∃ n outside alEvent bytes,
    ecatSlvInit sys n (World.zeroed outside alEvent bytes) = .ok true w

/-- The states reached by runs whose steps meet a condition. -/
def Reached (sys : System σ) (ok : World σ → ℕ × Call σ → Prop) (w : World σ) : Prop :=
  Reachable (Initialised sys) (Stack.Step sys) ok w

/-! ## Executable runs -/

/-- Start the stack. -/
def startUp (sys : System σ) (n : ℕ) (outside : σ) (alEvent : Dword) (bytes : ByteStore) :
    Option (World σ) :=
  match ecatSlvInit sys n (World.zeroed outside alEvent bytes) with
  | .ok true w => some w
  | _ => none

/-- Make some calls, as long as each meets the condition and finishes. -/
def runCalls (sys : System σ) (ok : World σ → ℕ × Call σ → Prop)
    [∀ w l, Decidable (ok w l)] : List (ℕ × Call σ) → World σ → Option (World σ)
  | [], w => some w
  | l :: ls, w =>
      if ok w l then
        match l.2.run sys l.1 w with
        | .ok () w' => runCalls sys ok ls w'
        | _ => none
      else none

lemma runCalls_reached {sys : System σ} {ok : World σ → ℕ × Call σ → Prop}
    [∀ w l, Decidable (ok w l)] (ls : List (ℕ × Call σ)) {w w' : World σ}
    (h : Reached sys ok w) (hrun : runCalls sys ok ls w = some w') : Reached sys ok w' := by
  induction ls generalizing w with
  | nil =>
      cases hrun
      exact h
  | cons l ls ih =>
      rw [runCalls] at hrun
      split at hrun
      case isFalse => cases hrun
      case isTrue hok =>
        split at hrun
        case h_1 w₁ hstep => exact ih (.next h hok hstep) hrun
        case h_2 => cases hrun

lemma step_of_runCalls {sys : System σ} {ok : World σ → ℕ × Call σ → Prop}
    [∀ w l, Decidable (ok w l)] {l : ℕ × Call σ} {w w' : World σ}
    (hrun : runCalls sys ok [l] w = some w') : ok w l ∧ Stack.Step sys w l w' := by
  rw [runCalls] at hrun
  split at hrun
  case isFalse => cases hrun
  case isTrue hok =>
    split at hrun
    case h_1 w₁ hstep =>
      cases hrun
      exact ⟨hok, hstep⟩
    case h_2 => cases hrun

/-- What an executable run ends in is reached. -/
lemma startUp_reached {sys : System σ} {ok : World σ → ℕ × Call σ → Prop}
    [∀ w l, Decidable (ok w l)] {n : ℕ} {outside : σ} {alEvent : Dword} {bytes : ByteStore}
    {ls : List (ℕ × Call σ)} {w : World σ}
    (hrun : (startUp sys n outside alEvent bytes).bind (runCalls sys ok ls) = some w) :
    Reached sys ok w := by
  obtain ⟨w₀, hstart, hrun⟩ := Option.bind_eq_some_iff.mp hrun
  refine runCalls_reached ls (.start ⟨n, outside, alEvent, bytes, ?_⟩) hrun
  rw [startUp] at hstart
  split at hstart
  case h_1 w₁ hinit =>
    cases hstart
    exact hinit
  case h_2 => cases hstart

/-- Something that is seen at the end of an executable run, and something after one more call. -/
lemma exists_reached_step {α : Type} {sys : System σ} {ok : World σ → ℕ × Call σ → Prop}
    [∀ w l, Decidable (ok w l)] {n : ℕ} {outside : σ} {alEvent : Dword} {bytes : ByteStore}
    {ls : List (ℕ × Call σ)} {l : ℕ × Call σ} {f : World σ → α} {seen seen' : α}
    (h : ((startUp sys n outside alEvent bytes).bind (runCalls sys ok ls)).map
      (fun w => (f w, (runCalls sys ok [l] w).map f)) = some (seen, some seen')) :
    ∃ w w', Reached sys ok w ∧ f w = seen ∧ ok w l ∧ Stack.Step sys w l w' ∧ f w' = seen' := by
  obtain ⟨w, hrun, hseen⟩ := Option.map_eq_some_iff.mp h
  obtain ⟨hw, hlast⟩ := Prod.mk.inj hseen
  obtain ⟨w', hrun', hw'⟩ := Option.map_eq_some_iff.mp hlast
  obtain ⟨hok, hstep⟩ := step_of_runCalls hrun'
  exact ⟨w, w', startUp_reached hrun, hw, hok, hstep, hw'⟩

/-- Something that is seen at the end of an executable run is seen in a state that is reached. -/
lemma exists_reached {α : Type} {sys : System σ} {ok : World σ → ℕ × Call σ → Prop}
    [∀ w l, Decidable (ok w l)] {n : ℕ} {outside : σ} {alEvent : Dword} {bytes : ByteStore}
    {ls : List (ℕ × Call σ)} {f : World σ → α} {seen : α}
    (h : ((startUp sys n outside alEvent bytes).bind (runCalls sys ok ls)).map f = some seen) :
    ∃ w, Reached sys ok w ∧ f w = seen := by
  obtain ⟨w, hrun, hseen⟩ := Option.map_eq_some_iff.mp h
  exact ⟨w, startUp_reached hrun, hseen⟩

end Soes
