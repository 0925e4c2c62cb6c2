import Mathlib.Data.Nat.Notation
import Mathlib.Tactic.Simps.Basic

/-!
# The AL state machine, abstractly

What the AL state machine is for, without registers: five states and an error indication, the
application producing inputs or outputs, a request for OP that may be held back, and SM2 enabled
or disabled from the PDI side.  An `AlEvent` carries what the surroundings decide, so that
`AlView.step` is a function: which state is requested and whether the error is confirmed, and
what the checks of the SyncManagers, of the mapping and of the DC configuration come to.

The order of the states is that of `AlState.rank`: a slave may be pushed down at any time, and
only a request of the master brings it up.
-/

namespace Soes

/-- The AL states. -/
inductive AlSt where
  /-- INIT. -/
  | init
  /-- PREOP. -/
  | preop
  /-- BOOT. -/
  | boot
  /-- SAFEOP. -/
  | safeop
  /-- OP. -/
  | op
  deriving DecidableEq, Repr

/-- INIT and BOOT, PREOP, SAFEOP, OP, from low to high. -/
def AlSt.rank : AlSt → ℕ
  | .init => 0
  | .boot => 0
  | .preop => 1
  | .safeop => 2
  | .op => 3

/-- What an AL control word asks for. -/
inductive AlReq where
  /-- One of the states. -/
  | state (st : AlSt)
  /-- The value 0. -/
  | zero
  /-- Another value that is no state. -/
  | unknown
  deriving DecidableEq, Repr

/-- What is seen of the slave. -/
structure AlView where
  st : AlSt
  err : Bool
  inputs : Bool
  outputs : Bool
  pending : Bool
  /-- SM2 was last enabled, not disabled, from the PDI side. -/
  sm2 : Bool
  mapped : Bool
  dc : Bool
  deriving DecidableEq, Repr

/-- What the checks on the way to SAFEOP come to. -/
inductive PdVerdict where
  /-- The mapping of the process data is refused. -/
  | mapRefused
  /-- The configuration of SM2 or SM3 is refused. -/
  | smRefused
  /-- The DC configuration is refused. -/
  | dcRefused
  /-- Everything is accepted. -/
  | accepted
  deriving DecidableEq, Repr

/-- What the surroundings decide about a request. -/
structure Verdict where
  mbxOk : Bool
  pd : PdVerdict
  mapped : Bool
  dc : Bool
  deriving DecidableEq, Repr

/-- What can happen to the AL state machine. -/
inductive AlEvent where
  /-- Nothing that concerns it. -/
  | idle
  /-- An AL control request, with or without a confirmation of the error. -/
  | request (req : AlReq) (ack : Bool) (v : Verdict)
  /-- The SyncManagers are checked again. -/
  | smChange (mbxOk pdOk : Bool)
  /-- A sync error, a watchdog or a wait that timed out. -/
  | error
  /-- A held request for OP is completed. -/
  | complete
  /-- A held request for OP is refused. -/
  | refuse
  deriving DecidableEq, Repr

namespace AlView

variable (a : AlView)

/-- The application is stopped, and SM2 and SM3 with it. -/
@[simps] def stopAll : AlView := { a with inputs := false, outputs := false, sm2 := false }

/-- Outputs are stopped, and SM2 with them. -/
@[simps] def stopOutputs : AlView := { a with outputs := false, sm2 := false }

/-- The AL state is set, with or without an error. -/
@[simps] def goto (st : AlSt) (err : Bool) : AlView := { a with st := st, err := err }

/-- SAFEOP is requested from PREOP or SAFEOP. -/
def enterSafeop (v : Verdict) : AlView :=
  match v.pd with
  | .mapRefused => { a with mapped := v.mapped }.goto .preop true
  | .smRefused => { a with mapped := v.mapped, sm2 := false }.goto .preop true
  | .dcRefused => ({ a with mapped := v.mapped, dc := v.dc }.stopAll).goto .preop true
  | .accepted =>
      { a with mapped := v.mapped, dc := v.dc, inputs := true, outputs := false,
               sm2 := true }.goto .safeop false

/-- OP is requested from SAFEOP: under DC the request is held. -/
def enterOp : AlView :=
  if a.dc then { a with pending := true }.goto .safeop false
  else { a with outputs := true, sm2 := a.sm2 || a.mapped }.goto .op false

/-- A request for a state that is acted on. -/
def enter (v : Verdict) : AlReq → AlView
  | .state req =>
      match a.st, req with
      | .init, .init => a.goto .init false
      | .init, .preop => if v.mbxOk then a.goto .preop false else a.goto .init true
      | .init, .boot => if v.mbxOk then a.goto .boot false else a.goto .init true
      | .init, .safeop => a.goto .init true
      | .init, .op => a.goto .init true
      | .preop, .init => a.goto .init false
      | .preop, .preop => a.goto .preop false
      | .preop, .boot => a.goto .preop true
      | .preop, .safeop => a.enterSafeop v
      | .preop, .op => a.goto .preop true
      | .boot, .init => a.goto .init false
      | .boot, .boot => if v.mbxOk then a.goto .boot false else a.goto .init true
      | .boot, .preop => a.goto .preop true
      | .boot, .safeop => a.goto .preop true
      | .boot, .op => a.goto .preop true
      | .safeop, .init => a.stopAll.goto .init false
      | .safeop, .preop => a.stopAll.goto .preop false
      | .safeop, .boot => a.goto .safeop true
      | .safeop, .safeop => a.enterSafeop v
      | .safeop, .op => a.enterOp
      | .op, .init => a.stopAll.goto .init false
      | .op, .preop => a.stopAll.goto .preop false
      | .op, .boot => a.stopOutputs.goto .safeop true
      | .op, .safeop => a.stopOutputs.goto .safeop false
      | .op, .op => a.goto .op false
  | .zero =>
      match a.st with
      | .safeop => a.stopAll.goto .safeop true
      | .op => a.stopOutputs.goto .safeop true
      | st => a.goto st true
  | .unknown =>
      match a.st with
      | .op => a.stopOutputs.goto .safeop true
      | st => a.goto st true

/-- An AL control request: an error that is not confirmed keeps the state, and a request that is
already held stays held. -/
def request (req : AlReq) (ack : Bool) (v : Verdict) : AlView :=
  if a.err ∧ ¬ ack then a
  else if a.pending ∧ a.st = .safeop ∧ req = .state .op then a
  else { a with pending := false }.enter v req

/-- A check of the SyncManagers outside a request pushes the slave down to INIT or PREOP. -/
def smChange (mbxOk pdOk : Bool) : AlView :=
  if ¬ mbxOk then (if a.inputs ∨ a.outputs then a.stopAll else a).goto .init true
  else if (a.inputs ∨ a.outputs) ∧ ¬ pdOk then a.stopAll.goto .preop true
  else a

/-- An error drops the slave to SAFEOP and ends a held request. -/
def error : AlView :=
  { (if a.outputs then a.stopOutputs else a) with pending := false }.goto .safeop true

/-- A held request is completed, if there is one. -/
def complete : AlView :=
  if a.pending then
    { a with pending := false, outputs := true, sm2 := a.sm2 || a.mapped }.goto .op false
  else a

/-- A held request is refused, if there is one. -/
def refuse : AlView :=
  if a.pending then { a with pending := false }.goto .safeop true else a

/-- The AL state machine. -/
def step : AlEvent → AlView
  | .idle => a
  | .request req ack v => a.request req ack v
  | .smChange mbxOk pdOk => a.smChange mbxOk pdOk
  | .error => a.error
  | .complete => a.complete
  | .refuse => a.refuse

end AlView

end Soes
