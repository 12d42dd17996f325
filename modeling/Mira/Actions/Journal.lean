import Mira.Checkpoint.Contracts
import Mira.Events.MemoryStore

/-!
The action journal. Every action passes through its phases in order, and a phase is
entered only when its record was acknowledged by the store. The payload of a record
determines the intent it was written for.
-/

namespace Mira.Actions
open Mira Bytes Events Checkpoint.Journal

structure ActionIntent where
  actionId : ActionId
  runtimeId : RuntimeId
  sessionId : SessionId
  taskId : TaskId
  taskEpoch : UInt64 := 0
  environmentEpoch : UInt64 := 0
  actionDigest : Sha256Digest
  target : ResourceDescriptor

inductive ActionJournalPhase
  | prepared | dispatchStarted | receipt | executionUncertain
  deriving DecidableEq

def ActionJournalPhase.recordType : ActionJournalPhase → Bytes
  | .prepared => ascii "ActionPrepared"
  | .dispatchStarted => ascii "ActionDispatchStarted"
  | .receipt => ascii "ActionReceipt"
  | .executionUncertain => ascii "ActionExecutionUncertain"

def ActionJournalPhase.classification : ActionJournalPhase → EventClass
  | .prepared | .receipt => .state
  | .dispatchStarted | .executionUncertain => .critical

/-- `valid_intent`. -/
def validIntent (intent : ActionIntent) (runtime : RuntimeId) : Bool :=
  !runtime.isNil && intent.runtimeId = runtime && !intent.actionId.isNil &&
    !intent.sessionId.isNil && !intent.taskId.isNil && safeText intent.target.type 1024 true &&
    safeText intent.target.id 1024 true && safeText intent.target.scope 1024 true

def encode (intent : ActionIntent) (suffix : Bytes) : Bytes :=
  intent.actionId.toString ++ 124 :: (intent.taskId.toString ++ 124 ::
    (decimal intent.taskEpoch.toNat ++ 124 :: (decimal intent.environmentEpoch.toNat ++ 124 ::
      (intent.actionDigest.toString ++ 124 :: (intent.target.type ++ 124 ::
        (intent.target.id ++ 124 :: (intent.target.scope ++
          if suffix.isEmpty then [] else 124 :: suffix)))))))

def binding (intent : ActionIntent) : Bytes :=
  intent.runtimeId.toString ++ 124 :: (intent.sessionId.toString ++ 124 :: encode intent [])

def matchesIntent (payload : Payload) (intent : ActionIntent) : Bool :=
  payload.actionId = intent.actionId && payload.taskId = intent.taskId &&
    payload.taskEpoch = intent.taskEpoch.toNat &&
    payload.environmentEpoch = intent.environmentEpoch.toNat &&
    payload.digest = intent.actionDigest && payload.target = intent.target

def journalError (code : ErrorCode) (message : String) : Error :=
  { code := code, domain := "mira.action_journal", safeMessage := message }

structure JournalEntry where
  binding : Bytes
  phase : ActionJournalPhase
  lastReceipt : AppendReceipt
  deriving DecidableEq

structure ActionJournal where
  runtimeId : RuntimeId
  states : ActionId → Option JournalEntry := fun _ => none

def recordRequest (runtime : RuntimeId) (intent : ActionIntent) (phase : ActionJournalPhase)
    (suffix : Bytes) (eventId : EventId) : AppendRequest :=
  { eventId := eventId
    runtimeId := runtime
    sessionId := intent.sessionId
    taskId := some intent.taskId
    payload := ⟨phase.recordType, encode intent suffix, phase.classification⟩ }

/-- The checks on the answer of the store. Weaker than process-crash durability is no
acknowledgement. -/
def acknowledge (request : AppendRequest) (answer : Answer AppendReceipt) : Result AppendReceipt :=
  match answer with
  | none => .error (journalError .internal "action journal store append raised an exception")
  | some (.error reason) => .error reason
  | some (.ok receipt) =>
      if receipt.eventId ≠ request.eventId ∨ receipt.sessionSequence = 0 ∨
          receipt.taskSequence.all fun sequence => sequence = 0 then
        .error (journalError .dataLoss "action journal append receipt identity is invalid")
      else if receipt.achieved ≠ .processCrash ∧ receipt.achieved ≠ .powerLoss then
        .error (journalError .dataLoss
          "action journal append did not achieve required durability")
      else .ok receipt

namespace ActionJournal

def validate (journal : ActionJournal) (intent : ActionIntent) : Result Unit :=
  if validIntent intent journal.runtimeId = false then
    .error (journalError .invalidArgument "action intent identity or target is invalid")
  else if (journal.states intent.actionId).any fun entry => entry.binding ≠ binding intent then
    .error (journalError .invalidArgument "action ID is bound to a different intent")
  else .ok ()

/-- What a call of the journal did: the journal after it, the record it sent and what it
returned. -/
structure Call where
  journal : ActionJournal
  sent : Option AppendRequest := none
  result : Result AppendReceipt

/-- Appends a record and enters the phase if it was acknowledged. The append stands for
the answer of the store with the checks on it. -/
def record (journal : ActionJournal) (append : AppendRequest → Result AppendReceipt)
    (intent : ActionIntent) (phase : ActionJournalPhase) (suffix : Bytes) (eventId : EventId) :
    Call :=
  let request := recordRequest journal.runtimeId intent phase suffix eventId
  match append request with
  | .error reason => ⟨journal, some request, .error reason⟩
  | .ok receipt =>
      ⟨{ journal with
          states := Function.update journal.states intent.actionId
            (some ⟨binding intent, phase, receipt⟩) }, some request, .ok receipt⟩

section Operations
variable (journal : ActionJournal) (append : AppendRequest → Result AppendReceipt)
  (intent : ActionIntent) (eventId : EventId)

def prepare : Call :=
  match journal.validate intent with
  | .error reason => ⟨journal, none, .error reason⟩
  | .ok () =>
      match journal.states intent.actionId with
      | some entry => ⟨journal, none, .ok entry.lastReceipt⟩
      | none => journal.record append intent .prepared [] eventId

def dispatchStarted : Call :=
  match journal.validate intent with
  | .error reason => ⟨journal, none, .error reason⟩
  | .ok () =>
      match journal.states intent.actionId with
      | none => ⟨journal, none, .error (journalError .invalidState
          "action must be prepared first")⟩
      | some entry =>
          if entry.phase ≠ .prepared then ⟨journal, none, .ok entry.lastReceipt⟩
          else journal.record append intent .dispatchStarted [] eventId

/-- The two operations that record how an action ended. -/
def conclude (phase : ActionJournalPhase) (unsafeText : String) (summary : Bytes) : Call :=
  match journal.validate intent with
  | .error reason => ⟨journal, none, .error reason⟩
  | .ok () =>
      match (journal.states intent.actionId).filter fun entry => entry.phase ≠ .prepared with
      | none => ⟨journal, none, .error (journalError .invalidState
          "dispatch must be durably started first")⟩
      | some entry =>
          if entry.phase = phase then ⟨journal, none, .ok entry.lastReceipt⟩
          else if safeText summary 4096 false = false then
            ⟨journal, none, .error (journalError .invalidArgument unsafeText)⟩
          else journal.record append intent phase summary eventId

def receipt (safeMessage : Bytes) : Call :=
  journal.conclude append intent eventId .receipt "action receipt summary is invalid" safeMessage

def executionUncertain (reason : Bytes) : Call :=
  journal.conclude append intent eventId .executionUncertain
    "action uncertainty summary is invalid" reason

end Operations

/-- Whether an operation appends a record of the phase: the action is in the phase before. -/
def Ready (journal : ActionJournal) (intent : ActionIntent) : ActionJournalPhase → Prop
  | .prepared => journal.states intent.actionId = none
  | .dispatchStarted =>
      ∃ entry, journal.states intent.actionId = some entry ∧ entry.phase = .prepared
  | phase =>
      ∃ entry, journal.states intent.actionId = some entry ∧ entry.phase ≠ .prepared ∧
        entry.phase ≠ phase

/-- The ways a call for a phase ends: refused before the append, answered from the entry,
or with a record that was acknowledged or not. -/
inductive Outcome (journal : ActionJournal) (append : AppendRequest → Result AppendReceipt)
    (intent : ActionIntent) (phase : ActionJournalPhase) (eventId : EventId) : Call → Prop
  | refused (reason : Error) : Outcome journal append intent phase eventId
      ⟨journal, none, .error reason⟩
  | repeated (entry : JournalEntry) (held : journal.states intent.actionId = some entry)
      (notReady : ¬ journal.Ready intent phase) :
      Outcome journal append intent phase eventId ⟨journal, none, .ok entry.lastReceipt⟩
  | unacknowledged (suffix : Bytes) (reason : Error) (valid : journal.validate intent = .ok ())
      (ready : journal.Ready intent phase) (plain : safeText suffix 4096 false = true)
      (answer : append (recordRequest journal.runtimeId intent phase suffix eventId) =
        .error reason) :
      Outcome journal append intent phase eventId
        ⟨journal, some (recordRequest journal.runtimeId intent phase suffix eventId),
          .error reason⟩
  | entered (suffix : Bytes) (receipt : AppendReceipt) (valid : journal.validate intent = .ok ())
      (ready : journal.Ready intent phase) (plain : safeText suffix 4096 false = true)
      (answer : append (recordRequest journal.runtimeId intent phase suffix eventId) =
        .ok receipt) :
      Outcome journal append intent phase eventId
        ⟨{ journal with
            states := Function.update journal.states intent.actionId
              (some ⟨binding intent, phase, receipt⟩) },
          some (recordRequest journal.runtimeId intent phase suffix eventId), .ok receipt⟩

section Outcomes
variable (journal : ActionJournal) (append : AppendRequest → Result AppendReceipt)
  (intent : ActionIntent) (eventId : EventId)

variable {phase : ActionJournalPhase}

theorem record_outcome {suffix : Bytes} (valid : journal.validate intent = .ok ())
    (ready : journal.Ready intent phase) (plain : safeText suffix 4096 false = true) :
    Outcome journal append intent phase eventId
      (journal.record append intent phase suffix eventId) := by
  simp only [record]
  split
  · next reason answer => exact .unacknowledged suffix reason valid ready plain answer
  · next receipt answer => exact .entered suffix receipt valid ready plain answer

theorem prepare_outcome : Outcome journal append intent .prepared eventId
    (journal.prepare append intent eventId) := by
  simp only [prepare]
  split
  · exact .refused _
  · next valid =>
      split
      · next entry held =>
          apply Outcome.repeated entry held
          intro ready
          rw [Ready, held] at ready
          cases ready
      · next absent => exact journal.record_outcome append intent eventId valid absent rfl

theorem dispatchStarted_outcome : Outcome journal append intent .dispatchStarted eventId
    (journal.dispatchStarted append intent eventId) := by
  simp only [dispatchStarted]
  split
  · exact .refused _
  · next valid =>
      split
      · exact .refused _
      · next entry held =>
          split
          · next later =>
              apply Outcome.repeated entry held
              intro ready
              obtain ⟨other, found, phase⟩ := ready
              rw [held] at found
              cases found
              exact later phase
          · next first =>
              exact journal.record_outcome append intent eventId valid
                ⟨entry, held, not_not.mp first⟩ rfl

theorem conclude_outcome (unsafeText : String) (summary : Bytes)
    (last : phase = .receipt ∨ phase = .executionUncertain) :
    Outcome journal append intent phase eventId
      (journal.conclude append intent eventId phase unsafeText summary) := by
  have ready_iff : journal.Ready intent phase ↔ ∃ entry,
      journal.states intent.actionId = some entry ∧ entry.phase ≠ .prepared ∧
        entry.phase ≠ phase := by
    cases last with
    | inl own =>
        subst own
        exact Iff.rfl
    | inr own =>
        subst own
        exact Iff.rfl
  simp only [conclude]
  split
  · exact .refused _
  · next valid =>
      split
      · exact .refused _
      · next entry found =>
          obtain ⟨held, started⟩ := Option.filter_eq_some_iff.mp found
          split
          · next same =>
              apply Outcome.repeated entry held
              intro ready
              obtain ⟨other, own, _, differs⟩ := ready_iff.mp ready
              rw [held] at own
              cases own
              exact differs same
          · next differs =>
              split
              · exact .refused _
              · next plain =>
                  refine journal.record_outcome append intent eventId valid
                    (ready_iff.mpr ⟨entry, held, of_decide_eq_true started, differs⟩) ?_
                  rwa [Bool.not_eq_false] at plain

theorem receipt_outcome (safeMessage : Bytes) : Outcome journal append intent .receipt eventId
    (journal.receipt append intent eventId safeMessage) :=
  journal.conclude_outcome append intent eventId _ _ (.inl rfl)

theorem executionUncertain_outcome (reason : Bytes) :
    Outcome journal append intent .executionUncertain eventId
      (journal.executionUncertain append intent eventId reason) :=
  journal.conclude_outcome append intent eventId _ _ (.inr rfl)

end Outcomes

end ActionJournal

/-- A receipt for this record with a sequence in its session and its task, and with the
durability that the journal requires. -/
def Acknowledges (request : AppendRequest) (answer : Answer AppendReceipt) : Prop :=
  ∃ receipt, answer = some (.ok receipt) ∧ receipt.eventId = request.eventId ∧
    0 < receipt.sessionSequence ∧ (∃ sequence, receipt.taskSequence = some sequence ∧
      0 < sequence) ∧ (receipt.achieved = .processCrash ∨ receipt.achieved = .powerLoss)

theorem acknowledges_of_ok {request : AppendRequest} {answer : Answer AppendReceipt}
    {receipt : AppendReceipt} (accepted : acknowledge request answer = .ok receipt) :
    Acknowledges request answer := by
  simp only [acknowledge] at accepted
  split at accepted
  · cases accepted
  · cases accepted
  · next given =>
      split at accepted
      · cases accepted
      · next identity =>
          split at accepted
          · cases accepted
          · next durable =>
              cases accepted
              obtain ⟨event, rest⟩ := not_or.mp identity
              obtain ⟨session, task⟩ := not_or.mp rest
              refine ⟨receipt, rfl, not_not.mp event, Nat.pos_of_ne_zero session, ?_, ?_⟩
              · cases held : receipt.taskSequence with
                | none =>
                    rw [held] at task
                    exact absurd rfl task
                | some sequence =>
                    rw [held] at task
                    refine ⟨sequence, rfl, Nat.pos_of_ne_zero ?_⟩
                    intro zero
                    apply task
                    simp [zero]
              · by_cases crash : receipt.achieved = .processCrash
                · exact .inl crash
                · refine .inr (by_contra fun power => durable ⟨crash, power⟩)

end Mira.Actions
