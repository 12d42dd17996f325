import Mira.Actions.Journal
import Mira.Library.Paging

/-!
The payload of a journal record determines its intent: no field of a valid intent holds a
separator, so the reader finds the fields that the writer joined, and only what follows
the last of them may hold separators of its own.
-/

namespace Mira.Actions
open Mira Bytes Events Checkpoint.Journal

theorem takeFields_field (count : Nat) {field : Bytes} (plain : 124 ∉ field) (rest : Bytes) :
    takeFields (count + 1) (field ++ 124 :: rest) =
      (takeFields count rest).map fun taken => (field :: taken.1, taken.2) := by
  rw [takeFields, splitAtByte_append 124 field rest plain]

theorem safeText_field {text : Bytes} {limit : Nat} (safe : safeText text limit true = true) :
    124 ∉ text ∧ text.length ≤ limit := by
  simp only [safeText, Bool.and_eq_true, decide_eq_true_eq, List.all_eq_true] at safe
  refine ⟨?_, safe.1.1⟩
  intro present
  have bar := (safe.2 124 present).2
  cases bar

theorem safeText_length {text : Bytes} {limit : Nat} {field : Bool}
    (safe : safeText text limit field = true) : text.length ≤ limit := by
  simp only [safeText, Bool.and_eq_true, decide_eq_true_eq] at safe
  exact safe.1.1

theorem toHex_field (bytes : Bytes) : 124 ∉ toHex bytes :=
  not_mem_toHex (by decide) bytes

theorem decimal_field (n : Nat) : 124 ∉ decimal n := by
  intro present
  have digit := List.all_eq_true.mp (all_isDigit_decimal n) 124 present
  cases digit

/-- What the validation of an intent establishes. -/
structure ValidIntent (intent : ActionIntent) (runtime : RuntimeId) : Prop where
  runtime : intent.runtimeId = runtime
  action : intent.actionId.isNil = false
  task : intent.taskId.isNil = false
  type : safeText intent.target.type 1024 true = true
  id : safeText intent.target.id 1024 true = true
  scope : safeText intent.target.scope 1024 true = true

theorem validIntent_valid {intent : ActionIntent} {runtime : RuntimeId}
    (valid : validIntent intent runtime = true) : ValidIntent intent runtime := by
  simp only [validIntent, Bool.and_eq_true, Bool.not_eq_true', decide_eq_true_eq] at valid
  obtain ⟨⟨⟨⟨⟨⟨⟨_, own⟩, action⟩, _⟩, task⟩, type⟩, id⟩, scope⟩ := valid
  exact ⟨own, action, task, type, id, scope⟩

def payloadOf (intent : ActionIntent) (suffix : Bytes) : Payload :=
  ⟨intent.actionId, intent.taskId, intent.taskEpoch.toNat, intent.environmentEpoch.toNat,
    intent.actionDigest, intent.target, suffix⟩

section Encoding
variable {intent : ActionIntent} {runtime : RuntimeId}
  (valid : validIntent intent runtime = true) {suffix : Bytes}
  (plain : safeText suffix 4096 false = true)
include valid plain

theorem encode_short : (encode intent suffix).length ≤ 16384 := by
  have established := validIntent_valid valid
  have type := safeText_length established.type
  have id := safeText_length established.id
  have scope := safeText_length established.scope
  have tail := safeText_length plain
  have epoch (n : UInt64) : (decimal n.toNat).length ≤ 20 :=
    length_decimal_le (by decide) (n.toNat_lt.trans (by decide))
  have taskEpoch := epoch intent.taskEpoch
  have environmentEpoch := epoch intent.environmentEpoch
  have end_ : (if suffix.isEmpty then [] else 124 :: suffix : Bytes).length ≤ 4097 := by
    split
    · exact Nat.zero_le _
    · rw [List.length_cons]
      omega
  simp only [encode, List.length_append, List.length_cons, StrongId.length_toString,
    Sha256Digest.length_toString]
  omega

theorem parse_encode : parse (encode intent suffix) = some (payloadOf intent suffix) := by
  have established := validIntent_valid valid
  have end_ : splitAtByte 124 (intent.target.scope ++
      if suffix.isEmpty then [] else 124 :: suffix) =
        (intent.target.scope, if suffix.isEmpty then none else some suffix) := by
    cases suffix with
    | nil =>
        rw [List.isEmpty_nil, if_pos rfl, if_pos rfl, List.append_nil]
        exact splitAtByte_none 124 _ (safeText_field established.scope).1
    | cons first rest => exact splitAtByte_append 124 _ _ (safeText_field established.scope).1
  have tail : ((if suffix.isEmpty then none else some suffix : Option Bytes).getD []) = suffix := by
    cases suffix with
    | nil => rfl
    | cons first rest => rfl
  have action : 124 ∉ intent.actionId.toString := toHex_field _
  have task : 124 ∉ intent.taskId.toString := toHex_field _
  have digest : 124 ∉ intent.actionDigest.toString := toHex_field _
  rw [parse, if_neg (Nat.not_lt.mpr (encode_short valid plain)), encode,
    takeFields_field 6 action, takeFields_field 5 task, takeFields_field 4 (decimal_field _),
    takeFields_field 3 (decimal_field _), takeFields_field 2 digest,
    takeFields_field 1 (safeText_field established.type).1,
    takeFields_field 0 (safeText_field established.id).1, takeFields]
  simp only [Option.map_some, end_, tail, assemble, StrongId.parse_toString,
    digestFromHex_toString, established.action, established.task, established.type,
    established.id, established.scope, plain, Bool.false_eq_true, Bool.true_eq_false, or_self,
    if_false, ofDecimal_decimal _ _ intent.taskEpoch.toNat_lt,
    ofDecimal_decimal _ _ intent.environmentEpoch.toNat_lt]
  rfl

end Encoding

theorem matchesIntent_payloadOf (intent : ActionIntent) (suffix : Bytes) :
    matchesIntent (payloadOf intent suffix) intent = true := by
  simp [matchesIntent, payloadOf]

theorem binding_injective {left right : ActionIntent} {runtime : RuntimeId}
    (valid : validIntent left runtime = true) (valid' : validIntent right runtime = true)
    (same : binding left = binding right) : left = right := by
  have plain : safeText [] 4096 false = true := rfl
  simp only [binding] at same
  obtain ⟨_, rest⟩ := List.append_inj same (by
    rw [StrongId.length_toString, StrongId.length_toString])
  obtain ⟨session, rest⟩ := List.append_inj (List.cons.inj rest).2 (by
    rw [StrongId.length_toString, StrongId.length_toString])
  have encoded := (List.cons.inj rest).2
  have payload : payloadOf left [] = payloadOf right [] := by
    apply Option.some.inj
    rw [← parse_encode valid plain, ← parse_encode valid' plain, encoded]
  have session_ : left.sessionId = right.sessionId := by
    apply Option.some.inj
    rw [← StrongId.parse_toString left.sessionId, ← StrongId.parse_toString right.sessionId,
      session]
  have runtime_ : left.runtimeId = right.runtimeId :=
    (validIntent_valid valid).runtime.trans (validIntent_valid valid').runtime.symm
  simp only [payloadOf, Payload.mk.injEq, UInt64.toNat_inj] at payload
  obtain ⟨action, task, taskEpoch, environmentEpoch, digest, target, _⟩ := payload
  cases left
  cases right
  simp only [ActionIntent.mk.injEq]
  exact ⟨action, runtime_, session_, task, taskEpoch, environmentEpoch, digest, target⟩

structure JournalRecoveryPolicy where
  pageSize : Nat := 1024
  maxEventsScanned : Nat := 1000000

structure ActionJournalState where
  actionId : ActionId
  phase : ActionJournalPhase := .prepared
  lastReceipt : Option AppendReceipt := none
  deriving DecidableEq

def phaseOf (type : Bytes) : Option ActionJournalPhase :=
  [.prepared, .dispatchStarted, .receipt, .executionUncertain].find? fun phase =>
    phase.recordType = type

def advance (phase : ActionJournalPhase) : ActionJournalPhase → Result ActionJournalPhase
  | .prepared =>
      if phase ≠ .prepared then .error (journalError .dataLoss "journal prepare follows dispatch")
      else .ok phase
  | .dispatchStarted => .ok (if phase = .prepared then .dispatchStarted else phase)
  | ended =>
      if phase = .prepared then
        .error (journalError .dataLoss "journal result has no dispatch start")
      else .ok ended

structure JournalScan where
  state : ActionJournalState
  cursor : Option Nat := none
  scanned : Nat := 0

namespace JournalScan

def fetch (read : MemoryEventStore.EventQuery → Answer MemoryEventStore.EventPage)
    (policy : JournalRecoveryPolicy) (session : SessionId) (scan : JournalScan) :
    Result (List EventEnvelope × Bool) :=
  let limit := min policy.pageSize (policy.maxEventsScanned - scan.scanned)
  match read ⟨session, scan.cursor, limit⟩ with
  | none => .error (journalError .internal "journal recovery read raised an exception")
  | some (.error reason) => .error reason
  | some (.ok page) =>
      if limit < page.events.length ∨ (page.events.isEmpty ∧ page.hasMore) then
        .error (journalError .dataLoss "journal recovery page made no valid progress")
      else .ok (page.events, page.hasMore)

def pass (scan : JournalScan) (event : EventEnvelope) : JournalScan :=
  { scan with cursor := some event.sessionSequence, scanned := scan.scanned + 1 }

def replayed (runtime : RuntimeId) (intent : ActionIntent) (state : ActionJournalState)
    (event : EventEnvelope) : Result ActionJournalState :=
  match phaseOf event.payload.type with
  | none => .ok state
  | some kind =>
      match (parse event.payload.data).filter fun payload =>
          event.taskId = some payload.taskId with
      | none => .error (journalError .dataLoss "journal recovery payload is invalid")
      | some payload =>
          if payload.actionId ≠ intent.actionId then .ok state
          else if event.runtimeId ≠ runtime ∨ matchesIntent payload intent = false then
            .error (journalError .dataLoss "journal action identity conflicts with intent")
          else
            match advance state.phase kind with
            | .error reason => .error reason
            | .ok phase =>
                .ok { state with
                      phase := phase
                      lastReceipt := some ⟨event.eventId, event.sessionSequence,
                        event.taskSequence, 0, .processCrash⟩ }

def visit (runtime : RuntimeId) (intent : ActionIntent) (scan : JournalScan)
    (event : EventEnvelope) : Result JournalScan :=
  if event.sessionId ≠ intent.sessionId ∨ event.sessionSequence ≤ scan.cursor.getD 0 then
    .error (journalError .dataLoss "journal recovery page identity or order is invalid")
  else
    match replayed runtime intent scan.state event with
    | .error reason => .error reason
    | .ok state => .ok { scan.pass event with state := state }

def again (policy : JournalRecoveryPolicy) (scan : JournalScan) : Result Unit :=
  if scan.scanned = policy.maxEventsScanned then
    .error (journalError .resourceExhausted "journal recovery scan exceeded its bound")
  else .ok ()

/-- Every page with more behind it holds an event, so the bound on the events bounds the
rounds. -/
def run (read : MemoryEventStore.EventQuery → Answer MemoryEventStore.EventPage)
    (policy : JournalRecoveryPolicy) (runtime : RuntimeId) (intent : ActionIntent) :
    Option (Result JournalScan) :=
  Paging.scan (fetch read policy intent.sessionId) (visit runtime intent) (again policy)
    (policy.maxEventsScanned + 1) { state := { actionId := intent.actionId } }

theorem visit_passes {runtime : RuntimeId} {intent : ActionIntent} {scan next : JournalScan}
    {event : EventEnvelope} (visited : visit runtime intent scan event = .ok next) :
    next.cursor = some event.sessionSequence ∧ next.scanned = scan.scanned + 1 ∧
      scan.cursor.getD 0 < event.sessionSequence := by
  simp only [visit] at visited
  split at visited
  · cases visited
  · next valid =>
      split at visited
      · cases visited
      · cases visited
        exact ⟨rfl, rfl, not_le.mp (not_or.mp valid).2⟩

theorem ends_on_any_answers (read : MemoryEventStore.EventQuery → Answer MemoryEventStore.EventPage)
    (policy : JournalRecoveryPolicy) (runtime : RuntimeId) (intent : ActionIntent) :
    run read policy runtime intent ≠ none := by
  apply Paging.scan_ends JournalScan.scanned policy.maxEventsScanned
  · intro scan event next visited
    exact (visit_passes visited).2.1
  · intro scan events more fetched
    simp only [fetch] at fetched
    split at fetched
    · cases fetched
    · cases fetched
    · split at fetched
      · cases fetched
      · next valid =>
          cases fetched
          obtain ⟨limited, some_⟩ := not_or.mp valid
          exact ⟨by omega, fun more empty => some_ ⟨by rw [empty]; rfl, more⟩⟩
  · exact Nat.lt_succ_self _

end JournalScan

def ActionJournal.recover (journal : ActionJournal)
    (read : MemoryEventStore.EventQuery → Answer MemoryEventStore.EventPage)
    (policy : JournalRecoveryPolicy) (intent : ActionIntent) : Result ActionJournalState :=
  match journal.validate intent with
  | .error reason => .error reason
  | .ok () =>
      match journal.states intent.actionId with
      | some entry => .ok ⟨intent.actionId, entry.phase, some entry.lastReceipt⟩
      | none =>
          if policy.pageSize = 0 ∨ policy.maxEventsScanned = 0 then
            .error (journalError .invalidArgument "journal recovery bounds must be positive")
          else
            match JournalScan.run read policy journal.runtimeId intent with
            | some (.ok scan) => .ok scan.state
            | some (.error reason) => .error reason
            | none => .error (journalError .internal "unreachable")

/-- The replay of all records of a session in one pass. -/
def replay (runtime : RuntimeId) (intent : ActionIntent) (log : List EventEnvelope) :
    Result JournalScan :=
  Paging.visitAll (JournalScan.visit runtime intent) { state := { actionId := intent.actionId } }
    (sessionEvents intent.sessionId log)

section Pages
variable {log : List EventEnvelope} {policy : JournalRecoveryPolicy} {runtime : RuntimeId}
  {intent : ActionIntent}

theorem JournalScan.run_log (order : InOrder log) (paged : 0 < policy.pageSize)
    (bounded : (sessionEvents intent.sessionId log).length ≤ policy.maxEventsScanned) :
    run (readLog log) policy runtime intent = some (replay runtime intent log) := by
  -- What was visited and what is left make up the session.
  let inv (scan : JournalScan) : Prop :=
    scan.scanned + (unread log intent.sessionId scan.cursor).length =
      (sessionEvents intent.sessionId log).length
  have room : ∀ scan, inv scan → unread log intent.sessionId scan.cursor ≠ [] →
      0 < min policy.pageSize (policy.maxEventsScanned - scan.scanned) := by
    intro scan total some_
    have positive := List.length_pos_of_ne_nil some_
    simp only [inv] at total
    omega
  have whole := order.unread_none intent.sessionId
  rw [run, replay, ← whole]
  refine Paging.scan_eq inv (fun scan => unread log intent.sessionId scan.cursor)
    (fun scan => min policy.pageSize (policy.maxEventsScanned - scan.scanned)) ?_ room ?_ ?_ _ _
    ?_ ?_
  · intro scan total
    simp only [fetch, readLog, read_unread]
    rw [if_neg]
    intro stuck
    cases stuck with
    | inl long =>
        rw [List.length_take] at long
        omega
    | inr idle =>
        have more := of_decide_eq_true idle.2
        have some_ : unread log intent.sessionId scan.cursor ≠ [] := by
          intro empty
          rw [empty, List.length_nil] at more
          omega
        have limit := room scan total some_
        have empty := List.isEmpty_iff_length_eq_zero.mp idle.1
        rw [List.length_take] at empty
        omega
  · intro scan event rest next total left visited
    obtain ⟨cursor, counted, _⟩ := visit_passes visited
    have behind : unread log intent.sessionId next.cursor = rest := by
      rw [cursor]
      exact order.unread_passed left
    refine ⟨?_, behind⟩
    simp only [inv] at total ⊢
    rw [left, List.length_cons] at total
    rw [behind, counted]
    omega
  · intro scan total some_
    have positive := List.length_pos_of_ne_nil some_
    simp only [inv] at total
    rw [again, if_neg (by omega)]
  · simp only [inv, whole, Nat.zero_add]
  · simp only [whole]
    omega

theorem recover_log (valid : validIntent intent runtime = true) (order : InOrder log)
    (some_ : sessionEvents intent.sessionId log ≠ []) (paged : 0 < policy.pageSize)
    (bounded : (sessionEvents intent.sessionId log).length ≤ policy.maxEventsScanned) :
    ActionJournal.recover { runtimeId := runtime } (readLog log) policy intent =
      (replay runtime intent log).map JournalScan.state := by
  have validated : ActionJournal.validate { runtimeId := runtime } intent = .ok () := by
    simp [ActionJournal.validate, valid]
  have length := List.length_pos_of_ne_nil some_
  have limits : ¬ (policy.pageSize = 0 ∨ policy.maxEventsScanned = 0) := by omega
  simp only [ActionJournal.recover, validated, if_neg limits,
    JournalScan.run_log order paged bounded]
  cases replay runtime intent log with
  | error reason => rfl
  | ok scan => rfl

end Pages

structure JournalSystem where
  journal : ActionJournal
  log : List EventEnvelope := []

inductive JournalCall
  | prepare (intent : ActionIntent)
  | dispatchStarted (intent : ActionIntent)
  | receipt (intent : ActionIntent) (safeMessage : Bytes)
  | executionUncertain (intent : ActionIntent) (reason : Bytes)

def JournalCall.intent : JournalCall → ActionIntent
  | .prepare intent | .dispatchStarted intent | .receipt intent _
  | .executionUncertain intent _ => intent

def JournalCall.phase : JournalCall → ActionJournalPhase
  | .prepare _ => .prepared
  | .dispatchStarted _ => .dispatchStarted
  | .receipt _ _ => .receipt
  | .executionUncertain _ _ => .executionUncertain

def ActionJournal.call (journal : ActionJournal) (append : AppendRequest → Result AppendReceipt)
    (eventId : EventId) : JournalCall → Call
  | .prepare intent => journal.prepare append intent eventId
  | .dispatchStarted intent => journal.dispatchStarted append intent eventId
  | .receipt intent safeMessage => journal.receipt append intent eventId safeMessage
  | .executionUncertain intent reason => journal.executionUncertain append intent eventId reason

/-- A call with the event identifier it draws and the fate of its append, or an event that
another component appends to the store. -/
inductive JournalInput
  | call (call : JournalCall) (eventId : EventId) (fate : AppendFate)
  | foreign (request : AppendRequest)

def JournalSystem.step (system : JournalSystem) : JournalInput →
    JournalSystem × Option AppendRequest
  | .call call eventId fate =>
      let called := system.journal.call (fun _ => fate.result) eventId call
      (⟨called.journal, appended system.log fate called.sent⟩, called.sent)
  | .foreign request => (⟨system.journal, system.log ++ [stampedIn system.log request]⟩, none)

theorem ActionJournal.call_outcome (journal : ActionJournal)
    (append : AppendRequest → Result AppendReceipt) (eventId : EventId) (call : JournalCall) :
    journal.Outcome append call.intent call.phase eventId (journal.call append eventId call) := by
  cases call with
  | prepare intent => exact journal.prepare_outcome append intent eventId
  | dispatchStarted intent => exact journal.dispatchStarted_outcome append intent eventId
  | receipt intent safeMessage => exact journal.receipt_outcome append intent eventId safeMessage
  | executionUncertain intent reason =>
      exact journal.executionUncertain_outcome append intent eventId reason

/-- An event that records a phase of an action. -/
def Records (event : EventEnvelope) (action : ActionId) (phase : ActionJournalPhase) : Prop :=
  phaseOf event.payload.type = some phase ∧
    ∃ payload, parse event.payload.data = some payload ∧ payload.actionId = action

instance (event : EventEnvelope) (action : ActionId) (phase : ActionJournalPhase) :
    Decidable (Records event action phase) :=
  decidable_of_iff (phaseOf event.payload.type = some phase ∧
    (parse event.payload.data).any (fun payload => payload.actionId = action) = true) (by
      simp only [Records, Option.any_eq_true, decide_eq_true_eq])

/-- The records of the action in the session of the intent are records of that intent. -/
def Compatible (log : List EventEnvelope) (intent : ActionIntent) : Prop :=
  ∀ event ∈ log, event.sessionId = intent.sessionId → ∀ payload,
    (phaseOf event.payload.type).isSome → parse event.payload.data = some payload →
    payload.actionId = intent.actionId → matchesIntent payload intent = true

/-- An acknowledged preparation of an action without an entry finds no record of another
intent, and other components do not write records of the journal. -/
def JournalSystem.Sound (system : JournalSystem) : JournalInput → Prop
  | .call (.prepare intent) _ (.acknowledged _) =>
      system.journal.states intent.actionId = none → Compatible system.log intent
  | .call _ _ _ => True
  | .foreign request => phaseOf request.payload.type = none

/-- Whatever the step appended was acknowledged. -/
def JournalSystem.Acknowledged (system : JournalSystem) (input : JournalInput) : Prop :=
  match input with
  | .call _ _ (.acknowledged _) => True
  | .call _ _ _ => (system.step input).2 = none
  | .foreign _ => True

def replayState (runtime : RuntimeId) (intent : ActionIntent) (log : List EventEnvelope) :
    Result ActionJournalState :=
  Paging.visitAll (JournalScan.replayed runtime intent) { actionId := intent.actionId }
    (sessionEvents intent.sessionId log)

theorem replayState_append {runtime : RuntimeId} {intent : ActionIntent}
    {log : List EventEnvelope} {state : ActionJournalState}
    (before : replayState runtime intent log = .ok state) (event : EventEnvelope) :
    replayState runtime intent (log ++ [event]) =
      if event.sessionId = intent.sessionId then
        JournalScan.replayed runtime intent state event
      else .ok state := by
  rw [replayState] at before
  rw [replayState, sessionEvents_append, Paging.visitAll_append, before]
  by_cases own : event.sessionId = intent.sessionId
  · rw [if_pos own, if_pos own]
    simp only [Paging.visitAll]
    cases JournalScan.replayed runtime intent state event with
    | error reason => rfl
    | ok next => rfl
  · rw [if_neg own, if_neg own]
    rfl

theorem visitAll_replayed {runtime : RuntimeId} {intent : ActionIntent} (scan : JournalScan)
    {events : List EventEnvelope}
    (ascending : events.Pairwise fun earlier later =>
      earlier.sessionSequence < later.sessionSequence)
    (beyond : ∀ event ∈ events, scan.cursor.getD 0 < event.sessionSequence)
    (own : ∀ event ∈ events, event.sessionId = intent.sessionId) :
    (Paging.visitAll (JournalScan.visit runtime intent) scan events).map JournalScan.state =
      Paging.visitAll (JournalScan.replayed runtime intent) scan.state events := by
  induction events generalizing scan with
  | nil => rfl
  | cons event rest ih =>
      obtain ⟨first, others⟩ := List.pairwise_cons.mp ascending
      obtain ⟨own_first, own_rest⟩ := List.forall_mem_cons.mp own
      have fits : ¬ (event.sessionId ≠ intent.sessionId ∨
          event.sessionSequence ≤ scan.cursor.getD 0) := by
        have ahead := beyond event List.mem_cons_self
        rw [not_or, not_not]
        exact ⟨own_first, Nat.not_le.mpr ahead⟩
      simp only [Paging.visitAll, JournalScan.visit, if_neg fits]
      cases JournalScan.replayed runtime intent scan.state event with
      | error reason => rfl
      | ok state => exact ih { scan.pass event with state := state } others first own_rest

theorem recover_replayState {log : List EventEnvelope} (order : InOrder log)
    {policy : JournalRecoveryPolicy} {runtime : RuntimeId} {intent : ActionIntent}
    (valid : validIntent intent runtime = true) (some_ : sessionEvents intent.sessionId log ≠ [])
    (paged : 0 < policy.pageSize)
    (bounded : (sessionEvents intent.sessionId log).length ≤ policy.maxEventsScanned) :
    ActionJournal.recover { runtimeId := runtime } (readLog log) policy intent =
      replayState runtime intent log := by
  rw [recover_log valid order some_ paged bounded, replay]
  apply visitAll_replayed _ (order.ascending _)
  · intro event present
    exact (order.within intent.sessionId event present).1
  · intro event present
    exact of_decide_eq_true (List.mem_filter.mp present).2

end Mira.Actions
