import Mira.Core.Contracts
import Mira.Digest.Sha256
import Mira.Library.Execution

/-!
Events, the requests that append them and the receipts they are answered with.
An enumeration read from outside may hold a value that no enumerator names; such
a value is kept apart from the named ones. Sequence numbers are natural numbers;
words that callers choose freely keep their width.
-/

namespace Mira.Events
open Mira Bytes

inductive Durability
  | buffered | processCrash | powerLoss
  | unnamed (value : UInt8) (beyond : 3 ≤ value)
  deriving DecidableEq

inductive EventClass
  | critical | state | diagnostic
  | unnamed (value : UInt8) (beyond : 3 ≤ value)
  deriving DecidableEq

/-- The underlying byte of the enumeration. -/
def EventClass.value : EventClass → UInt8
  | .critical => 0
  | .state => 1
  | .diagnostic => 2
  | .unnamed value _ => value

def storeError (code : ErrorCode) (message : String) (retryable : Bool := false) : Error :=
  { code := code, domain := "mira.event_store", safeMessage := message, retryable := retryable }

def parseEventClass (value : Int) : Result EventClass :=
  if value = 0 then .ok .critical
  else if value = 1 then .ok .state
  else if value = 2 then .ok .diagnostic
  else .error (storeError .unsupportedVersion "unknown event classification")

structure EventPayload where
  type : Bytes
  data : Bytes
  classification : EventClass := .state
  deriving DecidableEq

inductive EventTimestampOrigin
  | appendProcess | persistedWall | unavailableLegacy

structure EventEnvelope where
  eventId : EventId
  runtimeId : RuntimeId
  sessionId : SessionId
  taskId : Option TaskId := none
  sessionSequence : Nat := 0
  taskSequence : Option Nat := none
  causeControlSequence : UInt64 := 0
  timestamp : Timestamp := {}
  schemaVersion : SchemaVersion := {}
  payload : EventPayload
  integrity : Sha256Digest := .zero
  timestampOrigin : EventTimestampOrigin := .appendProcess

structure AppendRequest where
  eventId : EventId
  runtimeId : RuntimeId
  sessionId : SessionId
  taskId : Option TaskId := none
  payload : EventPayload
  cause : UInt64 := 0
  required : Durability := .processCrash
  deriving DecidableEq

structure AppendReceipt where
  eventId : EventId
  sessionSequence : Nat := 0
  taskSequence : Option Nat := none
  durableWatermark : Nat := 0
  achieved : Durability := .buffered
  deriving DecidableEq

def validDurability : Durability → Bool
  | .unnamed .. => false
  | _ => true

def fileDurability (required : Durability) : Result Unit :=
  if validDurability required = false then
    .error (storeError .invalidArgument "event durability is invalid")
  else if required = .powerLoss then
    .error (storeError .unsupportedCapability "file store does not support power-loss durability")
  else .ok ()

/-- The text an event is digested over. -/
def canonicalEvent (event : EventEnvelope) : Bytes :=
  event.eventId.toString ++ ascii "|" ++ event.runtimeId.toString ++ ascii "|" ++
    event.sessionId.toString ++ ascii "|" ++
    (event.taskId.map StrongId.toString).getD [] ++ ascii "|" ++
    decimal event.sessionSequence ++ ascii "|" ++
    (event.taskSequence.map decimal).getD [] ++ ascii "|" ++
    decimal event.causeControlSequence.toNat ++ ascii "|" ++ event.payload.type ++ ascii "|" ++
    event.payload.data ++ ascii "|" ++ decimal event.payload.classification.value.toNat

def AppendRequest.envelope (request : AppendRequest) : EventEnvelope :=
  { eventId := request.eventId
    runtimeId := request.runtimeId
    sessionId := request.sessionId
    taskId := request.taskId
    causeControlSequence := request.cause
    payload := request.payload }

def canonicalRequest (request : AppendRequest) : Bytes := canonicalEvent request.envelope

def sameRequest (event : EventEnvelope) (request : AppendRequest) : Bool :=
  event.eventId = request.eventId && event.runtimeId = request.runtimeId &&
    event.sessionId = request.sessionId && event.taskId = request.taskId &&
    event.causeControlSequence = request.cause && event.payload = request.payload

def EventEnvelope.request (event : EventEnvelope) : AppendRequest :=
  { eventId := event.eventId
    runtimeId := event.runtimeId
    sessionId := event.sessionId
    taskId := event.taskId
    payload := event.payload
    cause := event.causeControlSequence }

theorem canonicalRequest_of_same (event : EventEnvelope) (request : AppendRequest)
    (same : sameRequest event request = true) :
    canonicalRequest request = canonicalRequest event.request := by
  simp only [sameRequest, Bool.and_eq_true, decide_eq_true_eq] at same
  obtain ⟨⟨⟨⟨⟨event_, runtime⟩, session⟩, task⟩, cause⟩, payload⟩ := same
  simp only [canonicalRequest, AppendRequest.envelope, EventEnvelope.request, event_, runtime,
    session, task, cause, payload]

end Mira.Events

/-!
The in-memory event store: one list of events, an index by identifier and two
families of counters. The counters and the index are redundant, and the theorems
say that they never disagree with the list, whatever is appended in whatever
order.
-/

namespace Mira.Events
open Mira

structure MemoryEventStore where
  maxEvents : UInt64 := 100000
  events : List EventEnvelope := []
  byId : EventId → Option Nat := fun _ => none
  nextSession : SessionId → Nat := fun _ => 0
  nextTask : TaskId → Nat := fun _ => 0
  durableWatermark : Nat := 0

namespace MemoryEventStore

/-- `find`: the indexed event. -/
def find (store : MemoryEventStore) (id : EventId) : Option EventEnvelope :=
  (store.byId id).bind fun index => store.events[index]?

def stamped (store : MemoryEventStore) (request : AppendRequest) (timestamp : Timestamp)
    (origin : EventTimestampOrigin) : EventEnvelope :=
  { request.envelope with
    sessionSequence := store.nextSession request.sessionId + 1
    taskSequence := request.taskId.map fun task => store.nextTask task + 1
    timestamp := timestamp
    timestampOrigin := origin
    integrity := digestString (canonicalRequest request) }

/-- The store after an admitted request. -/
def push (store : MemoryEventStore) (event : EventEnvelope) : MemoryEventStore :=
  { store with
    events := store.events ++ [event]
    byId := Function.update store.byId event.eventId (some store.events.length)
    nextSession := Function.update store.nextSession event.sessionId event.sessionSequence
    nextTask := match event.taskId with
      | none => store.nextTask
      | some task => Function.update store.nextTask task (store.nextTask task + 1)
    durableWatermark := store.durableWatermark + 1 }

def appendStamped (store : MemoryEventStore) (request : AppendRequest) (timestamp : Timestamp)
    (origin : EventTimestampOrigin) : MemoryEventStore × Result AppendReceipt :=
  if validDurability request.required = false then
    (store, .error (storeError .invalidArgument "event durability is invalid"))
  else if request.eventId.isNil ∨ request.runtimeId.isNil ∨ request.sessionId.isNil then
    (store, .error (storeError .invalidArgument
      "event, runtime, and session IDs must be non-nil"))
  else
    match store.find request.eventId with
    | some event =>
        if sameRequest event request = true ∧
            event.integrity = digestString (canonicalRequest request) then
          (store, .ok ⟨event.eventId, event.sessionSequence, event.taskSequence,
            store.durableWatermark, .buffered⟩)
        else
          (store, .error (storeError .dataLoss "duplicate event ID has a different payload"))
    | none =>
        if store.maxEvents.toNat ≤ store.events.length then
          (store, .error (storeError .resourceExhausted "event store capacity exhausted" true))
        else
          let event := store.stamped request timestamp origin
          (store.push event, .ok ⟨event.eventId, event.sessionSequence, event.taskSequence,
            store.durableWatermark + 1, .buffered⟩)

def append (store : MemoryEventStore) (request : AppendRequest) (now : Timestamp) :
    MemoryEventStore × Result AppendReceipt :=
  store.appendStamped request now .appendProcess

/-- `append_batch` stops at the first refusal and keeps what it had appended. Each
request comes with the clock reading its append takes. -/
def appendBatch (store : MemoryEventStore) :
    List (AppendRequest × Timestamp) → MemoryEventStore × Result (List AppendReceipt)
  | [] => (store, .ok [])
  | (request, now) :: rest =>
      match store.append request now with
      | (refused, .error reason) => (refused, .error reason)
      | (appended, .ok receipt) =>
          match appended.appendBatch rest with
          | (final, .error reason) => (final, .error reason)
          | (final, .ok receipts) => (final, .ok (receipt :: receipts))

structure EventQuery where
  sessionId : SessionId
  afterSequence : Option Nat := none
  limit : Nat := 1024

structure EventPage where
  events : List EventEnvelope := []
  hasMore : Bool := false

def read (store : MemoryEventStore) (query : EventQuery) : EventPage :=
  let found := store.events.filter fun event =>
    event.sessionId = query.sessionId && query.afterSequence.getD 0 < event.sessionSequence
  { events := found.take query.limit, hasMore := query.limit < found.length }

end MemoryEventStore

def sessionEvents (session : SessionId) (log : List EventEnvelope) : List EventEnvelope :=
  log.filter fun event => event.sessionId = session

def stampedIn (log : List EventEnvelope) (request : AppendRequest) : EventEnvelope :=
  { request.envelope with
    sessionSequence := (sessionEvents request.sessionId log).length + 1
    taskSequence := request.taskId.map fun task =>
      (log.filter fun event => event.taskId = some task).length + 1 }

/-- What becomes of an append: it takes effect and is acknowledged, it takes effect and
the acknowledgement is rejected, or it has no effect. -/
inductive AppendFate
  | acknowledged (receipt : AppendReceipt)
  | rejected (reason : Error)
  | lost (reason : Error)

def AppendFate.result : AppendFate → Result AppendReceipt
  | .acknowledged receipt => .ok receipt
  | .rejected reason | .lost reason => .error reason

def AppendFate.effective : AppendFate → Bool
  | .lost _ => false
  | _ => true

def appended (log : List EventEnvelope) (fate : AppendFate) (sent : Option AppendRequest) :
    List EventEnvelope :=
  log ++ (sent.filter fun _ => fate.effective).toList.map (stampedIn log)

def readLog (log : List EventEnvelope) (query : MemoryEventStore.EventQuery) :
    Answer MemoryEventStore.EventPage :=
  some (.ok (MemoryEventStore.read { events := log } query))

variable (log : List EventEnvelope)

@[simp] theorem appended_none (fate : AppendFate) : appended log fate none = log :=
  List.append_nil log

@[simp] theorem appended_lost (reason : Error) (sent : Option AppendRequest) :
    appended log (.lost reason) sent = log := by
  cases sent with
  | none => exact List.append_nil log
  | some request => exact List.append_nil log

variable (session : SessionId)

theorem sessionEvents_append (log : List EventEnvelope) (event : EventEnvelope) :
    sessionEvents session (log ++ [event]) =
      sessionEvents session log ++ if event.sessionId = session then [event] else [] := by
  rw [sessionEvents, List.filter_append, ← sessionEvents]
  by_cases own : event.sessionId = session
  · simp [own]
  · simp [own]

/-- The sessions of a log are numbered from one. -/
structure InOrder (log : List EventEnvelope) : Prop where
  ascending : ∀ session, (sessionEvents session log).Pairwise fun earlier later =>
    earlier.sessionSequence < later.sessionSequence
  within : ∀ session, ∀ event ∈ sessionEvents session log,
    0 < event.sessionSequence ∧ event.sessionSequence ≤ (sessionEvents session log).length

theorem InOrder.nil : InOrder [] :=
  ⟨fun _ => List.Pairwise.nil, fun _ _ absent => absurd absent List.not_mem_nil⟩

theorem InOrder.append {log : List EventEnvelope} (order : InOrder log) (request : AppendRequest) :
    InOrder (log ++ [stampedIn log request]) := by
  have sequence : (stampedIn log request).sessionSequence =
      (sessionEvents (stampedIn log request).sessionId log).length + 1 := rfl
  refine ⟨?_, ?_⟩
  · intro session
    rw [sessionEvents_append, List.pairwise_append]
    refine ⟨order.ascending session, ?_, ?_⟩
    · split
      · exact List.pairwise_singleton _ _
      · exact List.Pairwise.nil
    · intro earlier present later last
      split at last
      · next own =>
          rw [List.mem_singleton.mp last, sequence, own]
          have below := (order.within session earlier present).2
          omega
      · cases last
  · intro session event present
    rw [sessionEvents_append] at present ⊢
    rw [List.length_append]
    cases List.mem_append.mp present with
    | inl old =>
        have bounds := order.within session event old
        omega
    | inr new =>
        split at new
        · next own =>
            rw [List.mem_singleton.mp new, sequence, own, if_pos rfl, List.length_singleton]
            omega
        · cases new

theorem InOrder.appended {log : List EventEnvelope} (order : InOrder log) (fate : AppendFate)
    (sent : Option AppendRequest) : InOrder (appended log fate sent) := by
  rw [Events.appended]
  cases sent.filter fun _ => fate.effective with
  | none => exact (List.append_nil log).symm ▸ order
  | some request => exact order.append request

def unread (log : List EventEnvelope) (session : SessionId) (cursor : Option Nat) :
    List EventEnvelope :=
  log.filter fun event => event.sessionId = session && cursor.getD 0 < event.sessionSequence

variable (cursor : Option Nat)

theorem read_unread (limit : Nat) :
    MemoryEventStore.read { events := log } ⟨session, cursor, limit⟩ =
      ⟨(unread log session cursor).take limit,
        decide (limit < (unread log session cursor).length)⟩ :=
  rfl

theorem unread_eq_filter :
    unread log session cursor = (sessionEvents session log).filter fun event =>
      cursor.getD 0 < event.sessionSequence := by
  rw [unread, sessionEvents, List.filter_filter]
  apply List.filter_congr
  intro event _
  rw [Bool.and_comm]

theorem InOrder.unread_none {log : List EventEnvelope} (order : InOrder log)
    (session : SessionId) : unread log session none = sessionEvents session log := by
  rw [unread_eq_filter, List.filter_eq_self]
  intro event present
  exact decide_eq_true (order.within session event present).1

theorem InOrder.unread_passed {log : List EventEnvelope} (order : InOrder log)
    {session : SessionId} {cursor : Option Nat} {event : EventEnvelope}
    {rest : List EventEnvelope} (left : unread log session cursor = event :: rest) :
    unread log session (some event.sessionSequence) = rest := by
  have beyond : cursor.getD 0 < event.sessionSequence := by
    have present : event ∈ unread log session cursor := by
      rw [left]
      exact List.mem_cons_self
    rw [unread_eq_filter] at present
    exact of_decide_eq_true (List.mem_filter.mp present).2
  have sorted : (event :: rest).Pairwise fun earlier later =>
      earlier.sessionSequence < later.sessionSequence := by
    rw [← left, unread_eq_filter]
    exact (order.ascending session).sublist List.filter_sublist
  have narrowed : unread log session (some event.sessionSequence) =
      (unread log session cursor).filter fun other =>
        event.sessionSequence < other.sessionSequence := by
    rw [unread, unread, List.filter_filter]
    apply List.filter_congr
    intro other _
    simp only [Option.getD_some]
    by_cases later : event.sessionSequence < other.sessionSequence
    · simp [later, beyond.trans later]
    · simp [later]
  rw [narrowed, left, List.filter_cons_of_neg (by simp), List.filter_eq_self.mpr]
  intro other present
  exact decide_eq_true ((List.pairwise_cons.mp sorted).1 other present)

end Mira.Events
