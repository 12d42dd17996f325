import Mira.Actions.Journal

/-!
The journaled dispatch of one action. The dispatcher prepares the action, takes a lease,
records the start, executes and records how it ended; it may stop before each of these.
Whatever the store, the lease, the context and the environment answer, what it did is one
of few sequences of effects.
-/

namespace Mira.Actions
open Mira Bytes Events Checkpoint.Journal

structure InputEvent where
  kind : Bytes
  payload : Bytes
  durationMs : UInt32 := 0

/-- No display selects the primary one. -/
structure InputSequence where
  display : Option Id128 := none
  events : List InputEvent := []

inductive ExecutionStatus
  | dispatched | completed | rejected | unknown
  deriving DecidableEq

structure ExecutionReceipt where
  status : ExecutionStatus := .dispatched
  sideEffectMayHaveOccurred : Bool := false
  environmentEpoch : Nat := 0
  safeMessage : Bytes := []

def displayName (input : InputSequence) : Bytes :=
  (input.display.map Id128.toString).getD (ascii "primary")

def inputDigest (input : InputSequence) : Sha256Digest :=
  digestString (toJsonString (.object
    [(ascii "display", .string (displayName input)),
      (ascii "events", .array (input.events.map fun event => .object
        [(ascii "kind", .string event.kind), (ascii "payload", .string event.payload),
          (ascii "duration_ms", .integer event.durationMs.toNat)]))]))

def dispatchError (code : ErrorCode) (message : String) : Error :=
  { code := code, domain := "mira.action_dispatcher", safeMessage := message }

structure ActionDispatchLease where
  validate : ActionIntent → OperationContext → Answer Unit

/-- What the dispatcher calls. The context is read at four points; no two records of a
dispatch are equal, so the store answers each of them on its own. -/
structure DispatchWorld where
  append : AppendRequest → Answer AppendReceipt
  acquire : ActionIntent → OperationContext → Answer (Option ActionDispatchLease)
  atStart : ContextReading := {}
  beforeRecord : ContextReading := {}
  afterRecord : ContextReading := {}
  beforeExecute : ContextReading := {}
  execute : InputSequence → OperationContext → Answer ExecutionReceipt
  interrupt : OperationContext → Answer Unit
  actionEntropy : Id128
  eventEntropy : ActionJournalPhase → Id128

namespace DispatchWorld

def journalAppend (world : DispatchWorld) (request : AppendRequest) : Result AppendReceipt :=
  acknowledge request (world.append request)

def eventId (world : DispatchWorld) (phase : ActionJournalPhase) : EventId :=
  .generate (world.eventEntropy phase)

end DispatchWorld

/-- The calls that reach the store and the environment, with their answers. -/
inductive DispatchEffect
  | append (request : AppendRequest) (answer : Answer AppendReceipt)
  | execute (answer : Answer ExecutionReceipt)
  | interrupt (answer : Answer Unit)

/-- What a dispatch did and what it returned. -/
structure Dispatch where
  effects : List DispatchEffect := []
  result : Result ExecutionReceipt

def Dispatch.after (earlier : List DispatchEffect) (dispatch : Dispatch) : Dispatch :=
  { dispatch with effects := earlier ++ dispatch.effects }

def recorded (world : DispatchWorld) (call : ActionJournal.Call) : List DispatchEffect :=
  call.sent.toList.map fun request => .append request (world.append request)

structure JournaledActionDispatcher where
  runtime : RuntimeId
  session : SessionId
  /-- Whether there are a store and a lease acquirer. -/
  connected : Bool := true

def stopped (reading : ContextReading) : Result Unit :=
  reading.check (dispatchError .cancelled "action dispatch was cancelled")
    (dispatchError .deadlineExceeded "action dispatch deadline expired")

def quiesce (world : DispatchWorld) (context : OperationContext) : Result Unit :=
  (world.interrupt context).getD
    (.error (dispatchError .internal "input release raised an exception"))

section Endings
variable (world : DispatchWorld) (journal : ActionJournal) (intent : ActionIntent)

/-- The uncertainty is recorded and the input released; a failure of either wins over
what else would be returned. -/
def uncertainEnd (context : OperationContext) (reason : Bytes)
    (otherwise : Result ExecutionReceipt) : Dispatch :=
  let uncertain := journal.executionUncertain world.journalAppend intent
    (world.eventId .executionUncertain) reason
  { effects := recorded world uncertain ++ [.interrupt (world.interrupt context)]
    result :=
      match uncertain.result with
      | .error reason => .error reason
      | .ok _ =>
          match quiesce world context with
          | .error reason => .error reason
          | .ok () => otherwise }

/-- A receipt that cannot be committed is followed by a record of uncertainty. -/
def certainEnd (execution : ExecutionReceipt) : Dispatch :=
  let summary := if execution.status = .rejected then ascii "rejected" else ascii "completed"
  let committed := journal.receipt world.journalAppend intent (world.eventId .receipt) summary
  match committed.result with
  | .ok _ => ⟨recorded world committed, .ok execution⟩
  | .error reason =>
      let uncertain := committed.journal.executionUncertain world.journalAppend intent
        (world.eventId .executionUncertain) (ascii "execution result could not be committed")
      ⟨recorded world committed ++ recorded world uncertain, .error reason⟩

/-- Whether the platform may have acted without confirming it. -/
def ExecutionReceipt.inDoubt (execution : ExecutionReceipt) : Bool :=
  execution.sideEffectMayHaveOccurred ||
    (execution.status ≠ .completed && execution.status ≠ .rejected)

def endWith (context : OperationContext) : Answer ExecutionReceipt → Dispatch
  | none =>
      uncertainEnd world journal intent context (ascii "dispatch raised an exception")
        (.error (dispatchError .internal
          "action dispatch raised an exception; verify before retry"))
  | some (.error reason) =>
      uncertainEnd world journal intent context (ascii "dispatch returned an error")
        (.error reason)
  | some (.ok execution) =>
      if execution.inDoubt then
        uncertainEnd world journal intent context (ascii "execution requires verification")
          (.ok execution)
      else certainEnd world journal intent execution

/-- Everything after the durable start. An exception of the lease is handled as one of
the environment. -/
def perform (lease : ActionDispatchLease) (input : InputSequence) (context : OperationContext) :
    Dispatch :=
  match stopped world.afterRecord with
  | .error reason => { result := .error reason }
  | .ok () =>
      match lease.validate intent context with
      | none => endWith world journal intent context none
      | some (.error reason) => { result := .error reason }
      | some (.ok ()) =>
          match stopped world.beforeExecute with
          | .error reason => { result := .error reason }
          | .ok () =>
              let answer := world.execute input context
              (endWith world journal intent context answer).after [.execute answer]

end Endings

namespace JournaledActionDispatcher

def intent (dispatcher : JournaledActionDispatcher) (world : DispatchWorld)
    (input : InputSequence) (context : OperationContext) (observedEpoch : UInt64) : ActionIntent :=
  { actionId := .generate world.actionEntropy
    runtimeId := dispatcher.runtime
    sessionId := dispatcher.session
    taskId := context.task
    taskEpoch := context.taskEpoch
    environmentEpoch := observedEpoch
    actionDigest := inputDigest input
    target := ⟨ascii "input", displayName input, ascii "session"⟩ }

def start (world : DispatchWorld) (journal : ActionJournal) (intent : ActionIntent)
    (input : InputSequence) (context : OperationContext) : Dispatch :=
  match world.acquire intent context with
  | none =>
      { result := .error (dispatchError .internal
          "action lease acquisition raised an exception") }
  | some (.error reason) => { result := .error reason }
  | some (.ok none) =>
      { result := .error (dispatchError .invalidState
          "action lease acquirer returned no lease") }
  | some (.ok (some lease)) =>
      match stopped world.beforeRecord with
      | .error reason => { result := .error reason }
      | .ok () =>
          let started := journal.dispatchStarted world.journalAppend intent
            (world.eventId .dispatchStarted)
          match started.result with
          | .error reason => ⟨recorded world started, .error reason⟩
          | .ok _ =>
              (perform world started.journal intent lease input context).after
                (recorded world started)

def dispatch (dispatcher : JournaledActionDispatcher) (world : DispatchWorld)
    (input : InputSequence) (context : OperationContext) (observedEpoch : UInt64) : Dispatch :=
  if dispatcher.connected = false then
    { result := .error (dispatchError .invalidState
        "action dispatcher requires store and lease acquirer") }
  else if dispatcher.runtime.isNil ∨ dispatcher.session.isNil ∨
      context.session ≠ dispatcher.session ∨ context.task.isNil ∨ context.operation.isNil ∨
      input.events.isEmpty then
    { result := .error (dispatchError .invalidArgument "action dispatch frame is invalid") }
  else
    match stopped world.atStart with
    | .error reason => { result := .error reason }
    | .ok () =>
        let intent := dispatcher.intent world input context observedEpoch
        let prepared := ActionJournal.prepare ⟨dispatcher.runtime, fun _ => none⟩
          world.journalAppend intent (world.eventId .prepared)
        match prepared.result with
        | .error reason => ⟨recorded world prepared, .error reason⟩
        | .ok _ =>
            (start world prepared.journal intent input context).after (recorded world prepared)

end JournaledActionDispatcher

end Mira.Actions
