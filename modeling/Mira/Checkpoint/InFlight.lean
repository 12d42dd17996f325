import Mira.Checkpoint.Effects

/-!
Actions in flight. The log is read on its own: which of its events count, the epochs that they
announce, and whether they settle the task. The uncertain side effects are those of the uncertain
executions since the last verification, and a verification is pending exactly if something was
dispatched since then, whatever else the fold has seen in between.
-/

namespace Mira.Checkpoint
open Mira Bytes Events

theorem taskEventFrom_journal {type : Bytes} {kind : JournalEvent}
    (journal : journalEventFrom type = some kind) : taskEventFrom type = none := by
  unfold journalEventFrom at journal
  obtain ⟨entry, found, _⟩ := Option.map_eq_some_iff.mp journal
  have present := List.mem_of_find?_eq_some found
  have own : ascii entry.1 = type := by simpa using List.find?_some found
  rw [← own]
  clear found own
  simp only [journalEvents, List.mem_cons, List.not_mem_nil, or_false] at present
  rcases present with rfl | rfl | rfl | rfl <;> decide

def Projection.uncertainActions (projection : Projection) : List ActionId :=
  projection.uncertainSideEffects.map (·.actionId)

/-- What the events before one have said: the sequence that they reach, the epochs that they
announce, and whether they settle the task. -/
structure Reached where
  task : TaskId
  through : Nat := 0
  taskEpoch : Nat := 0
  environmentEpoch : Nat := 0
  settled : Bool := false

def settlement (kind : TaskEvent) (payload : JsonValue) : Option TaskState :=
  match kind with
  | .stateChanged => ((stringMember payload "to").bind taskStateFromName).filter (·.isTerminal)
  | .loopSettled => (stringMember payload "outcome").bind settledState
  | _ => none

/-- The part of a payload that the event is about. -/
def details (kind : TaskEvent) (body : JsonValue) : JsonValue :=
  (if kind.wrapped then body.find (ascii "detail") else none).getD body

namespace Reached

/-- The epoch that a payload stands at: the one that was reached, or that of an envelope which
names the task and is not over. -/
def standsAt (reached : Reached) (kind : TaskEvent) (event : EventEnvelope) (body : JsonValue) :
    Option Nat :=
  match if kind.wrapped then body.find (ascii "detail") else none with
  | none => some reached.taskEpoch
  | some detail =>
      if detail.isObject = false ∨ event.taskId = none ∨
          stringMember body "task_id" ≠ event.taskId.map StrongId.toString then none
      else (naturalMember body "task_epoch").filter fun epoch => reached.taskEpoch ≤ epoch

/-- An event that stands: its kind, what it is about and its epoch. -/
def standing (reached : Reached) (event : EventEnvelope) : Option (TaskEvent × JsonValue × Nat) :=
  match taskEventFrom event.payload.type, parseJson event.payload.data with
  | some kind, .ok body =>
      (reached.standsAt kind event body).map fun epoch => (kind, details kind body, epoch)
  | _, _ => none

/-- A published fact announces its epochs, unless one of them is over or the task is settled. -/
def publish (reached : Reached) (event : EventEnvelope) : Reached :=
  match parsePublishedTaskFact event with
  | .error _ => reached
  | .ok published =>
      if reached.settled = false ∧ reached.taskEpoch ≤ published.claim.taskEpoch ∧
          reached.environmentEpoch ≤ published.claim.environmentEpoch then
        { reached with
          taskEpoch := published.claim.taskEpoch
          environmentEpoch := published.claim.environmentEpoch }
      else reached

def announce (reached : Reached) (event : EventEnvelope) (kind : TaskEvent)
    (payload : JsonValue) : Reached :=
  match kind with
  | .epochAdvanced =>
      { reached with
        taskEpoch := max reached.taskEpoch ((naturalMember payload "epoch").getD 0) }
  | .environmentEpochChanged =>
      { reached with
        environmentEpoch := max reached.environmentEpoch ((naturalMember payload "epoch").getD 0) }
  | .factVerified =>
      if (payload.find (ascii "schema")).isSome then reached.publish event else reached
  | _ => { reached with settled := reached.settled || (settlement kind payload).isSome }

/-- The event counts: it is of the task, or of none, and later than those before it. -/
def Counts (reached : Reached) (event : EventEnvelope) : Prop :=
  (∀ task, event.taskId = some task → task = reached.task) ∧
    reached.through < event.sessionSequence

instance (reached : Reached) (event : EventEnvelope) : Decidable (reached.Counts event) :=
  inferInstanceAs (Decidable (_ ∧ _))

def reads (reached : Reached) (event : EventEnvelope) : Reached :=
  if journalEventFrom event.payload.type = none then
    match reached.standing event with
    | none => reached
    | some (kind, payload, epoch) => { reached with taskEpoch := epoch }.announce event kind payload
  else
    match journalPayload event with
    | none => reached
    | some parsed =>
        { reached with
          taskEpoch := max reached.taskEpoch parsed.taskEpoch
          environmentEpoch := max reached.environmentEpoch parsed.environmentEpoch }

def after (reached : Reached) (event : EventEnvelope) : Reached :=
  if reached.Counts event then { reached with through := event.sessionSequence }.reads event
  else reached

end Reached

/-- An event with what those before it have said. -/
abbrev Entry := Reached × EventEnvelope

/-- The entries of a log. The task is that of the first event that has one. -/
def entriesOf (events : List EventEnvelope) : List Entry :=
  Execution.along (fun reached event => (reached.after event, ())) Prod.mk
    { task := (events.findSome? EventEnvelope.taskId).getD default } events

/-- A well-formed report that the execution of an action is uncertain. -/
def Uncertain (action : ActionId) (entry : Entry) : Prop :=
  entry.1.Counts entry.2 ∧ journalEventFrom entry.2.payload.type = some .executionUncertain ∧
    ∃ parsed, journalPayload entry.2 = some parsed ∧ parsed.actionId = action

/-- A dispatch: well-formed in the journal, or a task event that stands and names the action. -/
def Dispatched (entry : Entry) : Prop :=
  entry.1.Counts entry.2 ∧
    ((journalEventFrom entry.2.payload.type = some .dispatchStarted ∧
        journalPayload entry.2 ≠ none) ∨
      ∃ payload epoch, entry.1.standing entry.2 = some (.actionDispatched, payload, epoch) ∧
        stringMember payload "action" ≠ none)

/-- A verification result that stands. -/
def Verified (entry : Entry) : Prop :=
  entry.1.Counts entry.2 ∧
    ∃ payload epoch, entry.1.standing entry.2 = some (.verificationResult, payload, epoch)

/-- A report of a terminal state that stands. -/
def Settles (entry : Entry) : Prop :=
  entry.1.Counts entry.2 ∧ ∃ kind payload epoch,
    entry.1.standing entry.2 = some (kind, payload, epoch) ∧ settlement kind payload ≠ none

def Projection.reached (projection : Projection) : Reached :=
  { task := projection.taskId
    through := projection.throughEventSequence
    taskEpoch := projection.taskEpoch
    environmentEpoch := projection.environmentEpoch
    settled := projection.terminalState.isSome }

section Event
variable (config : CheckpointReducerConfig) (projection : Projection) (kind : TaskEvent)
  (payload body : JsonValue) (event : EventEnvelope)

theorem unwrap_standsAt :
    (unwrap projection kind body event).toOption =
      (projection.reached.standsAt kind event body).map fun epoch =>
        (details kind body, { projection with taskEpoch := epoch }) := by
  rw [unwrap, Reached.standsAt, details]
  cases (if kind.wrapped then body.find (ascii "detail") else none) with
  | none => rfl
  | some detail =>
      dsimp only
      cases naturalMember body "task_epoch" with
      | none =>
          rw [Option.filter_none, ite_self]
          rfl
      | some epoch =>
          split_ifs with foreign
          · rfl
          · by_cases over_ : epoch < projection.taskEpoch
            · have late : decide (projection.reached.taskEpoch ≤ epoch) = false :=
                decide_eq_false (not_le.mpr over_)
              simp only [if_pos over_, Option.filter, late]
              rfl
            · have current : decide (projection.reached.taskEpoch ≤ epoch) = true :=
                decide_eq_true (not_lt.mp over_)
              simp only [if_neg over_, Option.filter, current]
              rfl

/-- An event that is not of the journal changes nothing unless it stands. -/
theorem applyEvent_standing (foreign : journalEventFrom event.payload.type = none) :
    (projection.reached.standing event = none ∧
        (applyEvent config projection event).1 = projection) ∨
      ∃ kind payload epoch, projection.reached.standing event = some (kind, payload, epoch) ∧
        applyEvent config projection event =
          applyJsonEvent config { projection with taskEpoch := epoch } kind payload event := by
  rw [applyEvent, foreign, Reached.standing]
  dsimp only
  cases parseJson event.payload.data with
  | error reason =>
      left
      refine ⟨?_, rfl⟩
      split
      · next same => cases same
      · rfl
  | ok body =>
      cases taskEventFrom event.payload.type with
      | none => exact .inl ⟨rfl, rfl⟩
      | some kind =>
          dsimp only
          have stands := unwrap_standsAt projection kind body event
          cases found : projection.reached.standsAt kind event body with
          | none =>
              rw [found] at stands
              cases unwrapped : unwrap projection kind body event with
              | error outcome => exact .inl ⟨rfl, rfl⟩
              | ok next =>
                  rw [unwrapped] at stands
                  cases stands
          | some epoch =>
              rw [found] at stands
              cases unwrapped : unwrap projection kind body event with
              | error outcome =>
                  rw [unwrapped] at stands
                  cases stands
              | ok next =>
                  rw [unwrapped] at stands
                  cases stands
                  exact .inr ⟨kind, details kind body, epoch, rfl, rfl⟩

theorem applyJsonEvent_reached :
    (applyJsonEvent config projection kind payload event).1.reached =
      projection.reached.announce event kind payload := by
  cases kind with
  | factVerified =>
      rw [applyJsonEvent, Reached.announce, factOf]
      split_ifs with published
      · rw [Reached.publish]
        cases parsePublishedTaskFact event with
        | error reason => rfl
        | ok fact =>
            have current : (projection.reached.settled = false ∧
                projection.reached.taskEpoch ≤ fact.claim.taskEpoch ∧
                projection.reached.environmentEpoch ≤ fact.claim.environmentEpoch) ↔
                ¬ (projection.terminalState.isSome = true ∨
                  fact.claim.taskEpoch < projection.taskEpoch ∨
                  fact.claim.environmentEpoch < projection.environmentEpoch) := by
              simp [Projection.reached]
            simp only [current]
            split_ifs <;> rfl
      · cases stringMember payload "key" <;> cases stringMember payload "value" <;> rfl
  | epochAdvanced =>
      rw [applyJsonEvent, Reached.announce]
      cases naturalMember payload "epoch" with
      | none => simp [Projection.reached]
      | some epoch => rfl
  | environmentEpochChanged =>
      rw [applyJsonEvent, Reached.announce]
      cases naturalMember payload "epoch" with
      | none => simp [Projection.reached]
      | some epoch => rfl
  | stateChanged =>
      simp only [applyJsonEvent, Reached.announce, settlement]
      cases (stringMember payload "to").bind taskStateFromName with
      | none => simp [Projection.reached]
      | some target =>
          cases ended : target.isTerminal <;> cases known : projection.terminalState <;>
            simp [Projection.reached, Option.filter, ended, known]
  | loopSettled =>
      simp only [applyJsonEvent, Reached.announce, settlement]
      cases stringMember payload "outcome" with
      | none => simp [Projection.reached]
      | some outcome => cases known : projection.terminalState <;> simp [Projection.reached, known]
  | _ =>
      simp only [applyJsonEvent]
      repeat' split
      all_goals simp [Projection.reached, Reached.announce, settlement, applyRecentAction]

theorem applyJsonEvent_uncertain :
    (applyJsonEvent config projection kind payload event).1.uncertainSideEffects =
      if kind = .verificationResult then [] else projection.uncertainSideEffects := by
  cases kind with
  | factVerified =>
      simp only [applyJsonEvent]
      split
      · rfl
      · next fact next found =>
          obtain ⟨_, _, _, _, _, rfl⟩ := factOf_spec found
          rfl
  | _ =>
      simp only [applyJsonEvent]
      repeat' split
      all_goals first | rfl | contradiction

variable {kind} in
theorem applyJsonEvent_pending (quiet : kind ≠ .actionDispatched)
    (unverified : kind ≠ .verificationResult) :
    (applyJsonEvent config projection kind payload event).1.verificationPending =
      projection.verificationPending := by
  cases kind with
  | actionDispatched => exact absurd rfl quiet
  | verificationResult => exact absurd rfl unverified
  | factVerified =>
      simp only [applyJsonEvent]
      split
      · rfl
      · next fact next found =>
          obtain ⟨_, _, _, _, _, rfl⟩ := factOf_spec found
          rfl
  | _ =>
      simp only [applyJsonEvent]
      repeat' split
      all_goals rfl

theorem applyJsonEvent_dispatched :
    (applyJsonEvent config projection .actionDispatched payload event).1.verificationPending =
        true ↔
      stringMember payload "action" ≠ none ∨ projection.verificationPending = true := by
  simp only [applyJsonEvent]
  split <;> simp_all

end Event

section Journal
variable (config : CheckpointReducerConfig)

theorem applyJournalEvent_uncertain {projection : Projection}
    (unique : projection.uncertainActions.Nodup) (kind : JournalEvent) (parsed : Journal.Payload)
    (event : EventEnvelope) :
    (applyJournalEvent config projection kind parsed event).uncertainActions.Nodup ∧
      ∀ action,
        action ∈ (applyJournalEvent config projection kind parsed event).uncertainActions ↔
          (kind = .executionUncertain ∧ parsed.actionId = action) ∨
            action ∈ projection.uncertainActions := by
  cases kind with
  | executionUncertain =>
      simp only [applyJournalEvent]
      split
      · next known =>
          refine ⟨unique, fun action => ?_⟩
          have known : parsed.actionId ∈ projection.uncertainActions :=
            (Roster.holds_iff _ _ _).mp known
          constructor
          · exact .inr
          · rintro (⟨_, rfl⟩ | held)
            · exact known
            · exact held
      · next unknown =>
          have unknown : parsed.actionId ∉ projection.uncertainActions :=
            fun held => unknown ((Roster.holds_iff _ _ _).mpr held)
          simp only [Projection.uncertainActions, List.map_append, List.map_cons, List.map_nil]
          refine ⟨List.nodup_append.mpr ⟨unique, List.nodup_singleton _, ?_⟩, fun action => ?_⟩
          · rintro action held other own rfl
            rw [List.mem_singleton.mp own] at held
            exact unknown held
          · simp only [List.mem_append, List.mem_singleton, true_and]
            rw [or_comm, eq_comm]
  | _ =>
      refine ⟨unique, fun action => ?_⟩
      simp [applyJournalEvent, Projection.uncertainActions, applyRecentAction]

theorem applyJournalEvent_pending (projection : Projection) (kind : JournalEvent)
    (parsed : Journal.Payload) (event : EventEnvelope) :
    (applyJournalEvent config projection kind parsed event).verificationPending = true ↔
      kind = .dispatchStarted ∨ projection.verificationPending = true := by
  cases kind with
  | executionUncertain =>
      simp only [applyJournalEvent]
      split <;> simp
  | _ => simp [applyJournalEvent, applyRecentAction]

theorem applyJournalEvent_reached (projection : Projection) (kind : JournalEvent)
    (parsed : Journal.Payload) (event : EventEnvelope) :
    (applyJournalEvent config projection kind parsed event).reached =
      { projection.reached with
        taskEpoch := max projection.taskEpoch parsed.taskEpoch
        environmentEpoch := max projection.environmentEpoch parsed.environmentEpoch } := by
  cases kind with
  | executionUncertain =>
      simp only [applyJournalEvent]
      split <;> rfl
  | _ => rfl

end Journal

theorem standing_journal {reached : Reached} {event : EventEnvelope} {kind : JournalEvent}
    (journal : journalEventFrom event.payload.type = some kind) :
    reached.standing event = none := by
  rw [Reached.standing, taskEventFrom_journal journal]

/-- What one round of the fold can do, told by what the log says. -/
inductive Reads (config : CheckpointReducerConfig) (projection : Projection)
    (event : EventEnvelope) : Projection → Prop
  | skipped (skips : ¬ projection.reached.Counts event) : Reads config projection event projection
  | rejected (counts : projection.reached.Counts event)
      (malformed : journalEventFrom event.payload.type ≠ none → journalPayload event = none)
      (falls : projection.reached.standing event = none) :
      Reads config projection event
        { projection with throughEventSequence := event.sessionSequence }
  | journal (counts : projection.reached.Counts event) (kind : JournalEvent)
      (parsed : Journal.Payload) (type : journalEventFrom event.payload.type = some kind)
      (payload : journalPayload event = some parsed) :
      Reads config projection event
        (applyJournalEvent config { projection with throughEventSequence := event.sessionSequence }
          kind parsed event)
  | json (counts : projection.reached.Counts event) (kind : TaskEvent) (payload : JsonValue)
      (epoch : Nat) (foreign : journalEventFrom event.payload.type = none)
      (stands : projection.reached.standing event = some (kind, payload, epoch)) :
      Reads config projection event
        (applyJsonEvent config
          { projection with throughEventSequence := event.sessionSequence, taskEpoch := epoch }
          kind payload event).1

section Fold
variable (config : CheckpointReducerConfig) (projection : Projection) (event : EventEnvelope)

theorem foldStep_reads :
    Reads config projection event (foldStep config projection event).1 := by
  rcases foldStep_cases config projection event with ⟨folds, result⟩ | ⟨skips, result⟩
  · rw [result]
    have counts : projection.reached.Counts event := folds
    let read := { projection with throughEventSequence := event.sessionSequence }
    change Reads config projection event (applyEvent config read event).1
    cases type : journalEventFrom event.payload.type with
    | some kind =>
        rw [applyEvent, type]
        dsimp only
        cases payload : journalPayload event with
        | none => exact .rejected counts (fun _ => payload) (standing_journal type)
        | some parsed => exact .journal counts kind parsed type payload
    | none =>
        rcases applyEvent_standing config read event type with
          ⟨falls, same⟩ | ⟨kind, payload, epoch, stands, applied⟩
        · rw [same]
          exact .rejected counts (fun named => absurd type named) falls
        · rw [applied]
          exact .json counts kind payload epoch type stands
  · rw [result]
    exact .skipped skips

theorem foldStep_reached :
    (foldStep config projection event).1.reached = projection.reached.after event := by
  have reads := foldStep_reads config projection event
  generalize (foldStep config projection event).1 = next at reads
  rw [Reached.after]
  cases reads with
  | skipped skips => rw [if_neg skips]
  | rejected counts malformed falls =>
      rw [if_pos counts, Reached.reads]
      split
      · next foreign =>
          have none_ : { projection.reached with through := event.sessionSequence }.standing
              event = none := falls
          rw [none_]
          rfl
      · next named =>
          rw [malformed named]
          rfl
  | journal counts kind parsed type payload =>
      rw [if_pos counts, Reached.reads, if_neg (by rw [type]; nofun), payload,
        applyJournalEvent_reached]
      rfl
  | json counts kind payload epoch foreign stands =>
      have some_ : { projection.reached with through := event.sessionSequence }.standing
          event = some (kind, payload, epoch) := stands
      rw [if_pos counts, Reached.reads, if_pos foreign, some_, applyJsonEvent_reached]
      rfl

theorem foldStep_uncertain (unique : projection.uncertainActions.Nodup) :
    (foldStep config projection event).1.uncertainActions.Nodup ∧
      ∀ action, action ∈ (foldStep config projection event).1.uncertainActions ↔
        Uncertain action (projection.reached, event) ∨
          (action ∈ projection.uncertainActions ∧ ¬ Verified (projection.reached, event)) := by
  have reads := foldStep_reads config projection event
  generalize (foldStep config projection event).1 = next at reads
  cases reads with
  | skipped skips =>
      refine ⟨unique, fun action => ?_⟩
      simp only [Uncertain, Verified, skips, false_and, false_or, not_false_eq_true, and_true]
  | rejected counts malformed falls =>
      refine ⟨unique, fun action => ?_⟩
      have certain : ¬ Uncertain action (projection.reached, event) := by
        rintro ⟨_, journal, parsed, payload, _⟩
        rw [malformed (by rw [journal]; nofun)] at payload
        cases payload
      simp only [Verified, falls, certain, reduceCtorEq, exists_false, and_false, false_or,
        not_false_eq_true, and_true]
      rfl
  | journal counts kind parsed type payload =>
      have still : ({ projection with
          throughEventSequence := event.sessionSequence } : Projection).uncertainActions.Nodup :=
        unique
      obtain ⟨unique', members⟩ := applyJournalEvent_uncertain config still kind parsed event
      refine ⟨unique', fun action => (members action).trans ?_⟩
      simp only [Uncertain, Verified, counts, type, payload, standing_journal type, true_and,
        Option.some.injEq, exists_eq_left', reduceCtorEq, exists_false, not_false_eq_true, and_true]
      rfl
  | json counts kind payload epoch foreign stands =>
      have effect := applyJsonEvent_uncertain config
        { projection with throughEventSequence := event.sessionSequence, taskEpoch := epoch } kind
        payload event
      simp only [Projection.uncertainActions, effect, Uncertain, Verified, counts, foreign, stands,
        reduceCtorEq, false_and, and_false, false_or, true_and]
      split_ifs with verification
      · subst verification
        simp
      · refine ⟨unique, fun action => ?_⟩
        simp [verification]

theorem foldStep_pending :
    (foldStep config projection event).1.verificationPending = true ↔
      Dispatched (projection.reached, event) ∨
        (projection.verificationPending = true ∧ ¬ Verified (projection.reached, event)) := by
  have reads := foldStep_reads config projection event
  generalize (foldStep config projection event).1 = next at reads
  cases reads with
  | skipped skips =>
      simp only [Dispatched, Verified, skips, false_and, false_or, not_false_eq_true, and_true]
  | rejected counts malformed falls =>
      have idle : ¬ Dispatched (projection.reached, event) := by
        rintro ⟨_, ⟨journal, payload⟩ | ⟨_, _, stands, _⟩⟩
        · exact payload (malformed (by rw [journal]; nofun))
        · cases falls.symm.trans stands
      simp only [Verified, falls, idle, reduceCtorEq, exists_false, and_false, false_or,
        not_false_eq_true, and_true]
  | journal counts kind parsed type payload =>
      rw [applyJournalEvent_pending]
      simp [Dispatched, Verified, counts, type, payload, standing_journal type]
  | json counts kind payload epoch foreign stands =>
      simp only [Dispatched, Verified, counts, foreign, stands, true_and, reduceCtorEq, false_and,
        false_or, Option.some.injEq, Prod.mk.injEq]
      by_cases dispatch : kind = .actionDispatched
      · subst dispatch
        rw [applyJsonEvent_dispatched]
        simp
      · by_cases verification : kind = .verificationResult
        · subst verification
          simp [applyJsonEvent]
        · rw [applyJsonEvent_pending config _ payload event dispatch verification]
          simp [dispatch, verification]

theorem announce_settled (reached : Reached) (kind : TaskEvent) (payload : JsonValue) :
    (reached.announce event kind payload).settled =
      (reached.settled || (settlement kind payload).isSome) := by
  cases kind with
  | factVerified =>
      simp only [Reached.announce, settlement, Option.isSome_none, Bool.or_false]
      split_ifs
      · rw [Reached.publish]
        split
        · rfl
        · split <;> rfl
      · rfl
  | epochAdvanced | environmentEpochChanged => exact (Bool.or_false _).symm
  | _ => rfl

theorem foldStep_settles :
    (foldStep config projection event).1.terminalState ≠ none ↔
      Settles (projection.reached, event) ∨ projection.terminalState ≠ none := by
  have settled (projection : Projection) :
      projection.terminalState ≠ none ↔ projection.reached.settled = true :=
    Option.isSome_iff_ne_none.symm
  rw [settled, settled]
  have reads := foldStep_reads config projection event
  generalize (foldStep config projection event).1 = next at reads
  cases reads with
  | skipped skips => simp only [Settles, skips, false_and, false_or]
  | rejected counts malformed falls =>
      simp only [Settles, falls, reduceCtorEq, false_and, exists_false, and_false, false_or]
      rfl
  | journal counts kind parsed type payload =>
      rw [applyJournalEvent_reached]
      simp only [Settles, standing_journal type, reduceCtorEq, false_and, exists_false, and_false,
        false_or]
      rfl
  | json counts kind payload epoch foreign stands =>
      rw [applyJsonEvent_reached, announce_settled, Bool.or_eq_true, or_comm,
        Option.isSome_iff_ne_none]
      simp only [Settles, counts, stands, Option.some.injEq, Prod.mk.injEq, true_and]
      refine or_congr_left ?_
      constructor
      · exact fun reports => ⟨kind, payload, epoch, ⟨rfl, rfl, rfl⟩, reports⟩
      · rintro ⟨_, _, _, ⟨rfl, rfl, rfl⟩, reports⟩
        exact reports

theorem foldStep_forward : Forward projection (foldStep config projection event).1 := by
  rcases foldStep_cases config projection event with ⟨_, result⟩ | ⟨_, result⟩
  · rw [result]
    obtain ⟨task, environment, terminal⟩ := applyEvent_forward config
      { projection with throughEventSequence := event.sessionSequence } event
    exact ⟨task, environment, terminal⟩
  · rw [result]
    exact .refl _

end Fold

section Run
variable (config : CheckpointReducerConfig)

theorem run_forward (projection : Projection) (events : List EventEnvelope) :
    Forward projection (Execution.run (foldStep config) projection events) :=
  Execution.run_relation (foldStep config) (fun _ => True) Forward .refl .trans
    (fun _ _ _ => trivial) (fun reached event _ => foldStep_forward config reached event)
    projection events trivial

variable (events : List EventEnvelope)

theorem adopt_idle :
    (adopt events).uncertainActions = [] ∧ (adopt events).verificationPending = false ∧
      (adopt events).reached = { task := (events.findSome? EventEnvelope.taskId).getD default } := by
  have first : events.findSome? EventEnvelope.taskId =
      (events.find? fun event => event.taskId.isSome).bind EventEnvelope.taskId := by
    induction events with
    | nil => rfl
    | cons event rest ih =>
        rw [List.findSome?_cons, List.find?_cons]
        cases task : event.taskId with
        | none => exact ih
        | some own => exact task.symm
  rw [first, adopt]
  split
  · next event found =>
      rw [found]
      exact ⟨rfl, rfl, rfl⟩
  · next found =>
      rw [found]
      exact ⟨rfl, rfl, rfl⟩

/-- What the fold meets is what the log says. -/
theorem along_entries :
    Execution.along (foldStep config) (fun projection event => (projection.reached, event))
      (adopt events) events = entriesOf events := by
  rw [entriesOf, ← (adopt_idle events).2.2]
  exact Execution.along_simulated (foldStep config) (adopt events) events
    (fun projection event => foldStep_reached config projection event) Prod.mk

theorem mem_entriesOf {entry : Entry} {events : List EventEnvelope}
    (present : entry ∈ entriesOf events) : entry.2 ∈ events := by
  have told := List.mem_map_of_mem (f := Prod.snd) present
  rwa [entriesOf, Execution.along_map, Execution.along_inputs] at told

theorem run_uncertain_nodup : (foldAll config events).uncertainActions.Nodup := by
  refine Execution.run_invariant_always (foldStep config) (·.uncertainActions.Nodup)
    (fun reached event held => (foldStep_uncertain config reached event held).1) _ events ?_
  rw [(adopt_idle events).1]
  exact List.nodup_nil

theorem run_uncertain (action : ActionId) :
    action ∈ (foldAll config events).uncertainActions ↔
      Execution.Since (Uncertain action) Verified (entriesOf events) := by
  have certain := (adopt_idle events).1
  have flag := Execution.run_flag (foldStep config)
    (fun projection event => (projection.reached, event)) (·.uncertainActions.Nodup)
    (fun projection => action ∈ projection.uncertainActions) (Uncertain action) Verified
    (fun projection event held => (foldStep_uncertain config projection event held).1)
    (fun projection event held => (foldStep_uncertain config projection event held).2 action)
    (adopt events) events (certain ▸ List.nodup_nil)
  rw [certain, along_entries] at flag
  exact flag.trans (or_iff_left fun started => nomatch started.1)

theorem run_pending :
    (foldAll config events).verificationPending = true ↔
      Execution.Since Dispatched Verified (entriesOf events) := by
  have flag := Execution.run_flag (foldStep config)
    (fun projection event => (projection.reached, event)) (fun _ => True)
    (fun projection => projection.verificationPending = true) Dispatched Verified
    (fun _ _ _ => trivial) (fun projection event _ => foldStep_pending config projection event)
    (adopt events) events trivial
  rw [(adopt_idle events).2.1, along_entries] at flag
  exact flag.trans (or_iff_left fun started => nomatch started.1)

theorem run_settles :
    (foldAll config events).terminalState ≠ none ↔ ∃ entry ∈ entriesOf events, Settles entry := by
  have flag := Execution.run_flag (foldStep config)
    (fun projection event => (projection.reached, event)) (fun _ => True)
    (fun projection => projection.terminalState ≠ none) Settles (fun _ => False)
    (fun _ _ _ => trivial)
    (fun projection event _ => by simpa using foldStep_settles config projection event)
    (adopt events) events trivial
  have fresh : (adopt events).terminalState = none := by
    simp only [adopt]
    split <;> rfl
  rw [along_entries] at flag
  refine flag.trans ?_
  simp only [fresh, ne_eq, not_true_eq_false, false_and, or_false]
  constructor
  · intro since
    exact since.exists_mem
  · intro settled
    obtain ⟨entry, present, settles⟩ := settled
    obtain ⟨before, after, whole⟩ := List.append_of_mem present
    exact ⟨before, entry, after, whole, settles, fun _ _ => not_false⟩

/-- A full rebuild never forgets an action in flight: it holds each action once whose
execution was reported uncertain since the last verification, a verification is pending
exactly if there was a dispatch since then, and between any two moments of the fold the
epochs do not decrease and a terminal state stays. -/
theorem in_flight_kept (events : List EventEnvelope) (now : Timestamp) (entropy : Id128) :
    let checkpoint := (build config none events now entropy).checkpoint
    checkpoint.uncertainActions.Nodup ∧
    (∀ action, action ∈ checkpoint.uncertainActions ↔
      Execution.Since (Uncertain action) Verified (entriesOf events)) ∧
    (checkpoint.verificationPending = true ↔
      Execution.Since Dispatched Verified (entriesOf events)) ∧
    (∀ count more, Forward
      (Execution.run (foldStep config) (adopt events) (events.take count))
      (Execution.run (foldStep config) (adopt events) (events.take (count + more)))) ∧
    Forward (Execution.run (foldStep config) (adopt events) events) checkpoint.toProjection := by
  intro checkpoint
  refine ⟨run_uncertain_nodup config events, run_uncertain config events, run_pending config events,
    fun count more => ?_, ?_⟩
  · rw [List.take_add, Execution.run_append]
    exact run_forward config _ _
  · exact ⟨le_rfl, le_rfl, .inr rfl⟩

/-- A report of the task that is well-formed, whether or not the fold takes it. -/
def Reported (task : TaskId) (action : ActionId) (event : EventEnvelope) : Prop :=
  event.taskId = some task ∧ journalEventFrom event.payload.type = some .executionUncertain ∧
    ∃ parsed, journalPayload event = some parsed ∧ parsed.actionId = action

/-- A result that the fold applied. -/
def VerificationApplied (entry : EventEnvelope × Option Outcome) : Prop :=
  entry.2 = some .applied ∧ taskEventFrom entry.1.payload.type = some .verificationResult

/-- A report with an earlier sequence number than the event before it. -/
def lateReport : List EventEnvelope :=
  let event (sequence : Nat) (type : String) (data : Bytes) : EventEnvelope :=
    { eventId := .filled 4
      runtimeId := .filled 1
      sessionId := .filled 2
      taskId := some (.filled 3)
      sessionSequence := sequence
      payload := { type := ascii type, data := data } }
  [event 2 "TaskNoted" [],
    event 1 "ActionExecutionUncertain"
      ((StrongId.filled 5 : ActionId).toString ++ 124 ::
        ((StrongId.filled 3 : TaskId).toString ++ ascii "|0|0|" ++
          Sha256Digest.zero.toString ++ ascii "|tool|open|host"))]

/-- The report is passed over. -/
theorem late_report_forgotten :
    ¬ ∀ config events now entropy action,
      action ∈ (build config none events now entropy).checkpoint.uncertainActions ↔
        Execution.Since (fun entry => Reported (adopt events).taskId action entry.1)
          VerificationApplied (Execution.trace (foldStep config) (adopt events) events) := by
  intro every
  have reported : (journalPayload (lateReport.getD 1 (lateReport.head (by decide)))).map
      Journal.Payload.actionId = some (.filled 5) := by decide +kernel
  obtain ⟨parsed, payload, action⟩ := Option.map_eq_some_iff.mp reported
  have held := (every {} lateReport {} .nil (.filled 5)).mpr
    ⟨[_], _, [], rfl, ⟨rfl, by decide, parsed, payload, action⟩, nofun⟩
  exact absurd held (by decide +kernel)

end Run

end Mira.Checkpoint
