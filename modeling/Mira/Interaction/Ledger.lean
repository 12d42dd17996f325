import Mira.Events.MemoryStore
import Mira.Json.Parser
import Mira.Library.KeyedTable
import Mira.Library.Paging

/-!
The records of the interaction surface: the stages of an input, the entry the ledger keeps
of it, the transitions it goes through and the events they are written as.
-/

namespace Mira.Interaction
open Mira Bytes

/-- An error as the ledger stores it and reads it back, so its message is a text of bytes. -/
structure InteractionError where
  code : ErrorCode := .internal
  domain : Bytes := ascii "mira"
  domainCode : Int32 := 0
  retryable : Bool := false
  safeMessage : Bytes := []
  diagnosticArtifact : Option ArtifactId := none
  operationId : Option OperationId := none
  deriving DecidableEq

abbrev LedgerResult (α : Type) := Except InteractionError α

inductive InteractionDomainCode
  | unknown | inputInvalid | inputExpired | ledgerUnavailable | ledgerFull | permissionDenied
  | noSessionAvailable | runtimeCommandFailed | runtimeCommandTimeout | routeRejected
  | sinkUnavailable | executorRejected | notInitialized

def InteractionDomainCode.value : InteractionDomainCode → Int32
  | .unknown => 0
  | .inputInvalid => 1
  | .inputExpired => 2
  | .ledgerUnavailable => 3
  | .ledgerFull => 4
  | .permissionDenied => 5
  | .noSessionAvailable => 6
  | .runtimeCommandFailed => 7
  | .runtimeCommandTimeout => 8
  | .routeRejected => 9
  | .sinkUnavailable => 10
  | .executorRejected => 11
  | .notInitialized => 12

def interactionErrorDomain : Bytes := ascii "mira.interaction"

def interactionError (code : ErrorCode) (domainCode : InteractionDomainCode) (message : String) :
    InteractionError :=
  { code := code
    domain := interactionErrorDomain
    domainCode := domainCode.value
    safeMessage := ascii message }

inductive InputStage
  | accepted | routed | answered | taskSettled | rejected
  deriving DecidableEq

/-- `stage_rank`. -/
def InputStage.rank : InputStage → Nat
  | .accepted => 0
  | .routed => 1
  | .answered => 2
  | .taskSettled => 3
  | .rejected => 4

inductive RouteIntent
  | continueCurrent | supplementTask | newTask | resumeTask | pauseTask | cancelTask | clarify
  | reject
  deriving DecidableEq

/-- `route_intent_name`. -/
def RouteIntent.name : RouteIntent → Bytes
  | .continueCurrent => ascii "ContinueCurrent"
  | .supplementTask => ascii "SupplementTask"
  | .newTask => ascii "NewTask"
  | .resumeTask => ascii "ResumeTask"
  | .pauseTask => ascii "PauseTask"
  | .cancelTask => ascii "CancelTask"
  | .clarify => ascii "Clarify"
  | .reject => ascii "Reject"

inductive InteractionEventType
  | inputAccepted | inputRouted | inputClarified | inputRejected | inputAnswered
  | inputTaskSettled
  deriving DecidableEq

def InteractionEventType.name : InteractionEventType → Bytes
  | .inputAccepted => ascii "InputAccepted"
  | .inputRouted => ascii "InputRouted"
  | .inputClarified => ascii "InputClarified"
  | .inputRejected => ascii "InputRejected"
  | .inputAnswered => ascii "InputAnswered"
  | .inputTaskSettled => ascii "InputTaskSettled"

/-- `interaction_event_schema`. -/
def InteractionEventType.schema : InteractionEventType → Bytes
  | .inputAccepted => ascii "mira.interaction.input-accepted.v1"
  | .inputRouted => ascii "mira.interaction.input-routed.v1"
  | .inputClarified => ascii "mira.interaction.input-clarified.v1"
  | .inputRejected => ascii "mira.interaction.input-rejected.v1"
  | .inputAnswered => ascii "mira.interaction.input-answered.v1"
  | .inputTaskSettled => ascii "mira.interaction.input-task-settled.v1"

def parseInteractionEventSchema (schema : Bytes) : Option InteractionEventType :=
  [.inputAccepted, .inputRouted, .inputClarified, .inputRejected, .inputAnswered,
    .inputTaskSettled].find? fun type => type.schema = schema

theorem parseInteractionEventSchema_schema (type : InteractionEventType) :
    parseInteractionEventSchema type.schema = some type := by
  cases type <;> decide

/-- The default instant means that the grant does not expire. -/
structure CapabilityGrant where
  capability : Bytes
  expiresAt : Int64 := 0
  deriving DecidableEq

/-- Who submits an input. -/
structure PrincipalContext where
  tenantId : TenantId
  userId : UserId
  grants : List CapabilityGrant := []
  identityVersion : UInt64 := 0
  deriving DecidableEq

structure InputEnvelope where
  principal : PrincipalContext
  inputId : Bytes
  content : Bytes := []
  attachmentRefs : List Bytes := []
  replyTo : Option Bytes := none
  deriving DecidableEq

/-- A wall instant is its nanosecond count in 64 bits. -/
structure LedgerEntry where
  inputId : Bytes
  ingressId : ControlIngressId
  admittedAt : Timestamp := {}
  stage : InputStage := .accepted
  sessionId : Option SessionId := none
  taskId : Option TaskId := none
  windowExpiresAt : Int64 := 0
  duplicate : Bool := false
  note : Bytes := []
  clarification : Option Bytes := none
  error : Option InteractionError := none
  deriving DecidableEq

structure LedgerTransition where
  stage : InputStage := .accepted
  sessionId : Option SessionId := none
  taskId : Option TaskId := none
  intent : Option RouteIntent := none
  note : Bytes := []
  clarification : Option Bytes := none
  error : Option InteractionError := none

structure InputLedgerOptions where
  idempotencyWindow : Int64 := 24 * 60 * 60
  maxEntries : UInt64 := 4096
  partition : Option SessionId := none

/-!
The routing decision: which work item of a principal an input is for. The decision is a
function of the envelope, the state of the principal and what the host suggested.
-/

def maxConstraintsPerTask : Nat := 8
def maxConstraintBytes : Nat := 1024
def maxGoalBytes : Nat := 4096
def maxClarificationBytes : Nat := 1024

structure PrincipalTaskEntry where
  taskId : TaskId
  sessionId : SessionId
  state : TaskState := .idle
  goal : Bytes := []
  inputIds : List Bytes := []
  constraints : List Bytes := []
  contextBlock : Bytes := []
  resumedFrom : Option TaskId := none

structure PrincipalState where
  sessions : List SessionId := []
  tasks : List PrincipalTaskEntry := []

structure RouteSuggestion where
  intent : RouteIntent := .newTask
  taskId : Option TaskId := none
  sessionId : Option SessionId := none
  rationale : Bytes := []
  clarification : Option Bytes := none

structure RoutingDecision where
  intent : RouteIntent := .reject
  sessionId : Option SessionId := none
  taskId : Option TaskId := none
  rationale : Bytes := []
  clarification : Option Bytes := none

structure CoordinatorConfig where
  requiredCapability : Bytes := ascii "mira.interaction.input"
  requiredIdentityVersion : Option UInt64 := none
  idempotencyWindow : Int64 := 24 * 60 * 60
  maxLedgerEntries : UInt64 := 4096
  maxTasksPerPrincipal : Nat := 64
  maxSessionsPerPrincipal : Nat := 32
  maxSinks : Nat := 256
  maxPendingDeliveries : Nat := 256

def boundText (text : Bytes) (limit : Nat) : Bytes := text.take limit

/-- The capability check fails closed. -/
def permitted (principal : PrincipalContext) (config : CoordinatorConfig) (now : Int64) : Bool :=
  if principal.tenantId.isNil || principal.userId.isNil then false
  else if config.requiredIdentityVersion.isSome &&
      config.requiredIdentityVersion ≠ some principal.identityVersion then false
  else
    principal.grants.any fun grant =>
      grant.capability = config.requiredCapability && (grant.expiresAt = 0 || now < grant.expiresAt)

def findTask (state : PrincipalState) (taskId : TaskId) : Option PrincipalTaskEntry :=
  state.tasks.find? fun task => task.taskId = taskId

def taskOfInput (state : PrincipalState) (inputId : Bytes) : Option PrincipalTaskEntry :=
  state.tasks.find? fun task => task.inputIds.contains inputId

def liveTasks (state : PrincipalState) : List PrincipalTaskEntry :=
  state.tasks.filter fun task => !task.state.isTerminal

def decideFor (intent : RouteIntent) (target : PrincipalTaskEntry) (rationale : Bytes) :
    RoutingDecision :=
  { intent := intent
    sessionId := some target.sessionId
    taskId := some target.taskId
    rationale := rationale }

/-- The rationale of the host, or the default where it gave none. -/
def rationaleOr (rationale : Bytes) (default : String) : Bytes :=
  if rationale.isEmpty then ascii default else rationale

/-- A suggestion for a task that has to be live. Work on a terminal task becomes a new task
that resumes it. -/
def adoptForTask (proposal : RouteSuggestion) (target : PrincipalTaskEntry) :
    Option RoutingDecision :=
  if target.state.isTerminal then
    if proposal.intent = .continueCurrent ∨ proposal.intent = .supplementTask then
      some (decideFor .resumeTask target
        (ascii "the suggested task is terminal; the input resumes it through a new task"))
    else none
  else
    some (decideFor proposal.intent target (rationaleOr proposal.rationale
      "the suggested target is live and owned by the principal"))

/-- The suggestion of the host, if it survives validation against the state. -/
def adoptSuggestion (state : PrincipalState) (proposal : RouteSuggestion) :
    Option RoutingDecision :=
  match proposal.intent with
  | .continueCurrent | .supplementTask | .pauseTask | .cancelTask =>
      (proposal.taskId.bind (findTask state)).bind (adoptForTask proposal)
  | .resumeTask =>
      (proposal.taskId.bind (findTask state)).bind fun target =>
        if target.state.isTerminal then
          some (decideFor .resumeTask target (rationaleOr proposal.rationale
            "the suggested task is settled; the input resumes it through a new task"))
        else none
  | .newTask =>
      some { intent := .newTask
             rationale := rationaleOr proposal.rationale "the input starts a new task" }
  | .clarify =>
      some { intent := .clarify
             rationale := rationaleOr proposal.rationale "the input reference is ambiguous"
             clarification := some (proposal.clarification.getD
               (ascii "Which item should this apply to?")) }
  | .reject =>
      some { intent := .reject
             rationale := rationaleOr proposal.rationale "the input was rejected by the host" }

/-- The first structural rule: a reply names the work item. -/
def decideReply (state : PrincipalState) (replyTo : Bytes) : Option RoutingDecision :=
  (taskOfInput state replyTo).map fun target =>
    if target.state.isTerminal then
      decideFor .resumeTask target
        (ascii "the input replies to a settled task; it resumes it through a new task")
    else decideFor .continueCurrent target (ascii "the input replies to a known live task")

def clarifyingQuestion (live : List PrincipalTaskEntry) : Bytes :=
  live.foldl (fun question task => question ++ ascii "\n- " ++ boundText task.goal 120)
    (ascii "Which item should this apply to?")

def decideLive : List PrincipalTaskEntry → RoutingDecision
  | [] =>
      { intent := .newTask
        rationale := ascii "the principal has no live task; the input starts a new one" }
  | [only] =>
      decideFor .continueCurrent only
        (ascii "the principal has exactly one live task; the input continues it")
  | several =>
      { intent := .clarify
        rationale := ascii "the principal has several live tasks; the reference is ambiguous"
        clarification := some (boundText (clarifyingQuestion several) maxClarificationBytes) }

def decideRoute (envelope : InputEnvelope) (state : PrincipalState)
    (suggestion : Option RouteSuggestion) : RoutingDecision :=
  ((suggestion.bind (adoptSuggestion state)).or
    (envelope.replyTo.bind (decideReply state))).getD (decideLive (liveTasks state))

end Mira.Interaction

/-!
The input ledger over an event store. The index answers every call; the records in the
stream of the ledger are what a restarted process rebuilds the index from.
-/

namespace Mira.Interaction
open Mira Bytes Events

abbrev Members := List (Bytes × JsonValue)

/-- The members every payload starts with. -/
def headMembers (type : InteractionEventType) (entry : LedgerEntry) : Members :=
  [(ascii "schema", .string type.schema), (ascii "input_id", .string entry.inputId),
    (ascii "ingress_id", .string entry.ingressId.toString)]

def principalRef (principal : PrincipalContext) : Bytes :=
  principal.tenantId.toString ++ 58 :: principal.userId.toString

def idText {tag : IdTag} (id : Option (StrongId tag)) : Bytes := (id.map StrongId.toString).getD []

def acceptedPayload (entry : LedgerEntry) (principal : PrincipalContext) : Members :=
  headMembers .inputAccepted entry ++
    [(ascii "principal_ref", .string (principalRef principal)),
      (ascii "admitted_at", .integer entry.admittedAt.wall),
      (ascii "window_expires_at", .integer entry.windowExpiresAt.toInt)]

def routedPayload (entry : LedgerEntry) (transition : LedgerTransition) : Members :=
  headMembers .inputRouted entry ++
    [(ascii "intent", .string ((transition.intent.map RouteIntent.name).getD [])),
      (ascii "session_id", .string (idText transition.sessionId)),
      (ascii "task_id", .string (idText transition.taskId)),
      (ascii "rationale", .string transition.note)]

def clarifiedPayload (entry : LedgerEntry) (transition : LedgerTransition) : Members :=
  headMembers .inputClarified entry ++
    [(ascii "clarification", .string (transition.clarification.getD []))]

def rejectedPayload (entry : LedgerEntry) (transition : LedgerTransition) : Members :=
  headMembers .inputRejected entry ++
    [(ascii "reason_code", .integer ((transition.error.map InteractionError.domainCode).getD
        InteractionDomainCode.unknown.value).toInt),
      (ascii "reason", .string ((transition.error.map InteractionError.safeMessage).getD
        transition.note))]

def answeredPayload (entry : LedgerEntry) (transition : LedgerTransition) : Members :=
  headMembers .inputAnswered entry ++
    [(ascii "session_id", .string (idText transition.sessionId)),
      (ascii "task_id", .string (idText transition.taskId)),
      (ascii "summary", .string transition.note)]

def settledPayload (entry : LedgerEntry) (transition : LedgerTransition) : Members :=
  headMembers .inputTaskSettled entry ++
    [(ascii "task_id", .string (idText transition.taskId)),
      (ascii "terminal", .string transition.note)]

abbrev LedgerIndex := KeyedTable Bytes LedgerEntry

structure EventStoreInputLedger where
  /-- Whether there is an event store. -/
  connected : Bool := true
  runtime : RuntimeId
  options : InputLedgerOptions := {}
  index : LedgerIndex := .empty

/-- What a call did: the ledger after it, the record it sent and what it returned. -/
structure LedgerCall where
  ledger : EventStoreInputLedger
  sent : Option AppendRequest := none
  result : LedgerResult LedgerEntry

structure AdmissionReadings where
  now : Int64
  wall : Int64
  monotonic : Int64 := 0
  ingressId : ControlIngressId
  eventId : EventId

def interactionLedgerPartition : SessionId :=
  ⟨⟨[0x6d, 0x69, 0x72, 0x61, 0x2e, 0x69, 0x6e, 0x74, 0x65, 0x72, 0x61, 0x63, 0x74, 0x2e, 0x6c,
    0x31], rfl⟩⟩

def expired (now : Int64) (entry : LedgerEntry) : Bool := entry.windowExpiresAt < now

def noEventStore : InteractionError :=
  interactionError .unavailable .ledgerUnavailable "the interaction ledger has no event store"

def unknownInput : InteractionError :=
  interactionError .notFound .inputInvalid
    "the input id is not recorded in the interaction ledger"

namespace LedgerEntry

/-- A late report of an earlier stage is ignored, and so is a second rejection. -/
def ignores (entry : LedgerEntry) (transition : LedgerTransition) : Bool :=
  (transition.clarification.isNone && transition.stage ≠ .rejected &&
    transition.stage.rank < entry.stage.rank) ||
  (entry.stage = .rejected && transition.stage = .rejected)

/-- The edits of a transition, made before anything is appended. -/
def edited (entry : LedgerEntry) (transition : LedgerTransition) : LedgerEntry :=
  { entry with
    stage := if transition.stage ≠ .accepted ∨ transition.clarification.isSome then
      transition.stage else entry.stage
    sessionId := transition.sessionId.or entry.sessionId
    taskId := transition.taskId.or entry.taskId
    note := if transition.note.isEmpty then entry.note else transition.note
    clarification := transition.clarification.or entry.clarification
    error := transition.error.or entry.error }

def record (entry : LedgerEntry) (transition : LedgerTransition) :
    Option (InteractionEventType × Members) :=
  match transition.stage with
  | .rejected => some (.inputRejected, rejectedPayload entry transition)
  | .routed => some (.inputRouted, routedPayload entry transition)
  | .answered => some (.inputAnswered, answeredPayload entry transition)
  | .taskSettled => some (.inputTaskSettled, settledPayload entry transition)
  | .accepted =>
      if transition.clarification.isSome then
        some (.inputClarified, clarifiedPayload entry transition)
      else none

end LedgerEntry

namespace EventStoreInputLedger

def partition (ledger : EventStoreInputLedger) : SessionId :=
  ledger.options.partition.getD interactionLedgerPartition

def request (ledger : EventStoreInputLedger) (type : InteractionEventType) (object : Members)
    (eventId : EventId) : AppendRequest :=
  { eventId := eventId
    runtimeId := ledger.runtime
    sessionId := ledger.partition
    payload := ⟨type.name, toJsonString (.object object), .state⟩ }

def append (ledger : EventStoreInputLedger) (store : AppendRequest → Result AppendReceipt)
    (type : InteractionEventType) (object : Members) (eventId : EventId) :
    Option AppendRequest × LedgerResult Unit :=
  if ledger.connected = false then (none, .error noEventStore)
  else
    let request := ledger.request type object eventId
    match store request with
    | .error _ =>
        (some request, .error (interactionError .unavailable .ledgerUnavailable
          "the interaction ledger could not append its record"))
    | .ok _ => (some request, .ok ())

def freshEntry (ledger : EventStoreInputLedger) (envelope : InputEnvelope)
    (readings : AdmissionReadings) : LedgerEntry :=
  { inputId := envelope.inputId
    ingressId := readings.ingressId
    admittedAt := ⟨readings.wall.toInt, readings.monotonic.toInt⟩
    windowExpiresAt := readings.now + ledger.options.idempotencyWindow * 1000000000 }

/-- A full index drops what has expired. -/
def withRoom (ledger : EventStoreInputLedger) (now : Int64) : EventStoreInputLedger :=
  if ledger.options.maxEntries.toNat ≤ ledger.index.size then
    { ledger with index := ledger.index.retain fun entry => !expired now entry }
  else ledger

def admitInput (ledger : EventStoreInputLedger) (store : AppendRequest → Result AppendReceipt)
    (envelope : InputEnvelope) (readings : AdmissionReadings) : LedgerCall :=
  if envelope.inputId.isEmpty then
    ⟨ledger, none, .error (interactionError .invalidArgument .inputInvalid
      "the input id must not be empty")⟩
  else
    match ledger.index.find? envelope.inputId with
    | some entry =>
        if expired readings.now entry then
          ⟨ledger, none, .error (interactionError .invalidState .inputExpired
            "the input id was already used and its idempotency window expired")⟩
        else ⟨ledger, none, .ok { entry with duplicate := true }⟩
    | none =>
        let ledger := ledger.withRoom readings.now
        if ledger.options.maxEntries.toNat ≤ ledger.index.size then
          ⟨ledger, none, .error (interactionError .resourceExhausted .ledgerFull
            "the interaction ledger index is full")⟩
        else
          let entry := ledger.freshEntry envelope readings
          match ledger.append store .inputAccepted (acceptedPayload entry envelope.principal)
              readings.eventId with
          | (sent, .error reason) => ⟨ledger, sent, .error reason⟩
          | (sent, .ok ()) =>
              ⟨{ ledger with index := ledger.index.emplace entry.inputId entry }, sent,
                .ok entry⟩

def lookup (ledger : EventStoreInputLedger) (inputId : Bytes) : LedgerResult LedgerEntry :=
  match ledger.index.find? inputId with
  | none => .error unknownInput
  | some entry => .ok entry

/-- The entry is edited in place, whatever becomes of the append. -/
def advance (ledger : EventStoreInputLedger) (store : AppendRequest → Result AppendReceipt)
    (inputId : Bytes) (transition : LedgerTransition) (eventId : EventId) : LedgerCall :=
  match ledger.index.find? inputId with
  | none => ⟨ledger, none, .error unknownInput⟩
  | some entry =>
      if entry.ignores transition then ⟨ledger, none, .ok entry⟩
      else
        let edited := entry.edited transition
        let ledger := { ledger with index := ledger.index.update inputId fun _ => edited }
        match edited.record transition with
        | none => ⟨ledger, none, .ok edited⟩
        | some (type, object) =>
            match ledger.append store type object eventId with
            | (sent, .error reason) => ⟨ledger, sent, .error reason⟩
            | (sent, .ok ()) => ⟨ledger, sent, .ok edited⟩

def reclaimExpired (ledger : EventStoreInputLedger) (now : Int64) :
    EventStoreInputLedger × Nat :=
  let kept := ledger.index.retain fun entry => !expired now entry
  ({ ledger with index := kept }, ledger.index.size - kept.size)

end EventStoreInputLedger

def acceptedEntry (inputId : Bytes) (ingressId : ControlIngressId) (document : JsonValue) :
    LedgerEntry :=
  { inputId := inputId
    ingressId := ingressId
    admittedAt := ((integerMember document "admitted_at").map fun wall => ⟨wall, 0⟩).getD {}
    windowExpiresAt := ((integerMember document "window_expires_at").map Int64.ofInt).getD 0 }

/-- The identifier in a member, if there is one. -/
def idMember {tag : IdTag} (document : JsonValue) (key : String) : Option (StrongId tag) :=
  (stringMember document key).bind StrongId.parse

/-- What a record of a transition does to the entry. -/
def LedgerEntry.replayed (entry : LedgerEntry) (type : Option InteractionEventType)
    (document : JsonValue) : LedgerEntry :=
  match type with
  | some .inputRouted =>
      { entry with
        stage := .routed
        sessionId := (idMember document "session_id").or entry.sessionId
        taskId := (idMember document "task_id").or entry.taskId
        note := (stringMember document "rationale").getD entry.note }
  | some .inputClarified =>
      { entry with clarification := (stringMember document "clarification").or entry.clarification }
  | some .inputRejected =>
      { entry with
        stage := .rejected
        error := some
          { code := .invalidState
            domain := interactionErrorDomain
            domainCode := ((integerMember document "reason_code").map Int32.ofInt).getD
              InteractionDomainCode.unknown.value
            safeMessage := (stringMember document "reason").getD
              (ascii "the input was rejected") } }
  | some .inputAnswered =>
      { entry with
        stage := .answered
        note := (stringMember document "summary").getD entry.note }
  | some .inputTaskSettled =>
      { entry with
        stage := .taskSettled
        taskId := (idMember document "task_id").or entry.taskId }
  | _ => entry

/-- What a record does to the index. Records that cannot be read are passed over, and so
are transitions of an input without an acceptance. -/
def replayRecord (index : LedgerIndex) (data : Bytes) : LedgerIndex :=
  match parseJson data {} with
  | .error _ => index
  | .ok document =>
      match stringMember document "schema", stringMember document "input_id",
          idMember document "ingress_id" with
      | some schema, some inputId, some ingressId =>
          if parseInteractionEventSchema schema = some .inputAccepted then
            index.assign inputId (acceptedEntry inputId ingressId document)
          else
            index.update inputId fun entry =>
              entry.replayed (parseInteractionEventSchema schema) document
      | _, _, _ => index

/-- The variables of the loop over the pages. -/
structure LedgerScan where
  index : LedgerIndex := .empty
  cursor : Option Nat := none

namespace EventStoreInputLedger

def rebuildLimit : Nat := 1024

def fetch (read : MemoryEventStore.EventQuery → Answer MemoryEventStore.EventPage)
    (session : SessionId) (scan : LedgerScan) : LedgerResult (List EventEnvelope × Bool) :=
  match read ⟨session, scan.cursor, rebuildLimit⟩ with
  | some (.ok page) => .ok (page.events, page.hasMore && !page.events.isEmpty)
  | _ => .error (interactionError .unavailable .ledgerUnavailable
      "the interaction ledger stream could not be read")

def visit (scan : LedgerScan) (event : EventEnvelope) : LedgerResult LedgerScan :=
  .ok ⟨replayRecord scan.index event.payload.data, some event.sessionSequence⟩

/-- The loop over the pages has no bound of its own; `none` stands for rounds that ran
out. -/
def rebuild (ledger : EventStoreInputLedger)
    (read : MemoryEventStore.EventQuery → Answer MemoryEventStore.EventPage) (rounds : Nat) :
    Option (EventStoreInputLedger × LedgerResult Unit) :=
  if ledger.connected = false then some (ledger, .error noEventStore)
  else
    (Paging.scan (fetch read ledger.partition) visit (fun _ => .ok ()) rounds {}).map
      fun scanned =>
        match scanned with
        | .error reason => (ledger, .error reason)
        | .ok scan => ({ ledger with index := scan.index }, .ok ())

end EventStoreInputLedger

end Mira.Interaction
