import Mira.Core.Ids

/-!
The frozen state machines and record types of the core contracts. Counters that
only ever grow by one per command are natural numbers; a wall or monotonic time
is its nanosecond count.
-/

namespace Mira

structure Timestamp where
  wall : Int := 0
  monotonic : Int := 0
  deriving DecidableEq, Inhabited

structure SchemaVersion where
  major : Nat := 1
  minor : Nat := 0
  deriving DecidableEq, Inhabited

inductive ErrorCode
  | cancelled | deadlineExceeded | resourceExhausted | unavailable | permissionDenied
  | invalidArgument | invalidState | notFound | alreadyExists | unsupportedCapability
  | unsupportedVersion | invalidObservation | staleObservation | invalidModelOutput
  | contextOverflow | safetyRejected | confirmationRequired | executionUncertain
  | dataLoss | platformError | internal
  deriving DecidableEq

structure Error where
  code : ErrorCode := .internal
  domain : String := "mira"
  retryable : Bool := false
  safeMessage : String := ""
  deriving DecidableEq

abbrev Result (α : Type) := Except Error α

inductive RuntimeState
  | constructed | initializing | running | stopping | quiesced | stopped | failed
  deriving DecidableEq

inductive SessionState
  | opening | autonomous | takeoverPending | humanControlled | resuming | closing | closed
  | failed
  deriving DecidableEq

inductive TaskState
  | idle | observing | reasoning | planning | acting | verifying | recovering | pausing
  | paused | takeoverSettling | suspendedForTakeover | cancelling | completed | failed
  | cancelled
  deriving DecidableEq

def TaskState.isTerminal (state : TaskState) : Bool :=
  state = .completed || state = .failed || state = .cancelled

def SessionState.isTerminal (state : SessionState) : Bool :=
  state = .closed || state = .failed

def validRuntimeTransition (source target : RuntimeState) : Bool :=
  (source = target && (source = .constructed || source = .stopping || source = .quiesced ||
    source = .stopped || source = .failed)) ||
  match source with
  | .constructed => target = .initializing || target = .stopping
  | .initializing => target = .running || target = .failed || target = .stopping
  | .running => target = .stopping || target = .failed
  | .stopping => target = .quiesced || target = .failed
  | .quiesced => target = .stopped
  | .failed => target = .stopping
  | .stopped => false

def validSessionTransition (source target : SessionState) : Bool :=
  (source = target && (source = .autonomous || source = .humanControlled ||
    source = .closing || source = .closed || source = .failed)) ||
  match source with
  | .opening => target = .autonomous || target = .failed || target = .closing
  | .autonomous => target = .takeoverPending || target = .closing || target = .failed
  | .takeoverPending => target = .humanControlled || target = .closing || target = .failed
  | .humanControlled => target = .resuming || target = .closing || target = .failed
  | .resuming => target = .autonomous || target = .failed || target = .closing
  | .closing => target = .closed || target = .failed
  | .closed => false
  | .failed => false

def validTaskTransition (source target : TaskState) : Bool :=
  (source = target && source.isTerminal) ||
  match source with
  | .idle =>
      target = .observing || target = .pausing || target = .cancelling ||
        target = .takeoverSettling
  | .observing =>
      target = .reasoning || target = .recovering || target = .pausing ||
        target = .cancelling || target = .takeoverSettling
  | .reasoning =>
      target = .planning || target = .recovering || target = .pausing ||
        target = .cancelling || target = .takeoverSettling
  | .planning =>
      target = .acting || target = .observing || target = .recovering || target = .pausing ||
        target = .cancelling || target = .takeoverSettling
  | .acting =>
      target = .verifying || target = .recovering || target = .pausing ||
        target = .cancelling || target = .takeoverSettling
  | .verifying =>
      target = .observing || target = .completed || target = .recovering ||
        target = .pausing || target = .cancelling || target = .takeoverSettling
  | .recovering =>
      target = .observing || target = .failed || target = .pausing ||
        target = .cancelling || target = .takeoverSettling
  | .pausing => target = .paused || target = .cancelling
  | .paused => target = .observing || target = .takeoverSettling || target = .cancelling
  | .takeoverSettling => target = .suspendedForTakeover || target = .cancelling
  | .suspendedForTakeover => target = .observing || target = .cancelling
  | .cancelling => target = .cancelled
  | .completed => false
  | .failed => false
  | .cancelled => false

def taskStateName : TaskState → String
  | .idle => "Idle"
  | .observing => "Observing"
  | .reasoning => "Reasoning"
  | .planning => "Planning"
  | .acting => "Acting"
  | .verifying => "Verifying"
  | .recovering => "Recovering"
  | .pausing => "Pausing"
  | .paused => "Paused"
  | .takeoverSettling => "TakeoverSettling"
  | .suspendedForTakeover => "SuspendedForTakeover"
  | .cancelling => "Cancelling"
  | .completed => "Completed"
  | .failed => "Failed"
  | .cancelled => "Cancelled"

def taskStates : List TaskState :=
  [.idle, .observing, .reasoning, .planning, .acting, .verifying, .recovering, .pausing,
    .paused, .takeoverSettling, .suspendedForTakeover, .cancelling, .completed, .failed,
    .cancelled]

/-- The lookup in the name table; an unknown name never aliases a state. -/
def taskStateFromName (name : Bytes) : Option TaskState :=
  taskStates.find? fun state => Bytes.ascii (taskStateName state) = name

def validateSchemaVersion (incoming current : SchemaVersion) : Result Unit :=
  if incoming.major > current.major ∨
      (current.major > incoming.major ∧ current.major - incoming.major > 1) then
    .error { code := .unsupportedVersion, domain := "mira.schema",
             safeMessage := "schema major is not supported" }
  else .ok ()

/-- A wrapping cast of a 64-bit counter to a signed 64-bit integer. -/
def toInt64 (n : Nat) : Int :=
  if n % 2 ^ 64 < 2 ^ 63 then (n % 2 ^ 64 : Nat) else (n % 2 ^ 64 : Nat) - 2 ^ 64

theorem toInt64_small {n : Nat} (small : n < 2 ^ 63) : toInt64 n = n := by
  rw [toInt64, Nat.mod_eq_of_lt (small.trans (by decide)), if_pos small]

/-!
The context of an operation and the answers of its collaborators. Whether the operation
was cancelled or its deadline passed is read anew at every check, and a collaborator
answers with a value or an error or raises an exception.
-/

structure OperationContext where
  session : SessionId
  task : TaskId
  operation : OperationId
  taskEpoch : UInt64 := 0

/-- One reading of the cancellation probe and of the clock against the deadline. -/
structure ContextReading where
  cancelled : Bool := false
  expired : Bool := false

def ContextReading.check (reading : ContextReading) (cancelled expired : Error) : Result Unit :=
  if reading.cancelled then .error cancelled
  else if reading.expired then .error expired
  else .ok ()

/-- What a call comes back with; `none` stands for an exception. -/
abbrev Answer (α : Type) := Option (Result α)

end Mira
