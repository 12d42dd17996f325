import Mira.Checkpoint.Reducer

/-!
What one event can do to the projection, field by field: who it belongs to and how
far it reads, the epochs and the terminal state, and the bounds of its lists.
-/

namespace Mira.Checkpoint
open Mira Bytes Events

/-- The part of the projection that no event writes. -/
structure SameIdentity (before after : Projection) : Prop where
  task : after.taskId = before.taskId
  session : after.sessionId = before.sessionId
  through : after.throughEventSequence = before.throughEventSequence

/-- What only ever moves forward. -/
structure Forward (before after : Projection) : Prop where
  taskEpoch : before.taskEpoch ≤ after.taskEpoch
  environmentEpoch : before.environmentEpoch ≤ after.environmentEpoch
  terminal : before.terminalState = none ∨ after.terminalState = before.terminalState

theorem Forward.refl (projection : Projection) : Forward projection projection :=
  ⟨le_rfl, le_rfl, .inr rfl⟩

theorem Forward.trans {a b c : Projection} (first : Forward a b) (second : Forward b c) :
    Forward a c := by
  refine ⟨first.taskEpoch.trans second.taskEpoch,
    first.environmentEpoch.trans second.environmentEpoch, ?_⟩
  rcases first.terminal with none_ | same
  · exact .inl none_
  · rcases second.terminal with none_ | same'
    · exact .inl (same ▸ none_)
    · exact .inr (same'.trans same)

variable {next : Projection}

theorem factOf_spec {payload : JsonValue} {fact : VerifiedFact}
    (found : factOf projection payload event = .ok (fact, next)) :
    factValidityValid fact checkpointSchemaCurrent = true ∧
      ∃ taskEpoch environmentEpoch, projection.taskEpoch ≤ taskEpoch ∧
        projection.environmentEpoch ≤ environmentEpoch ∧
        next = { projection with taskEpoch := taskEpoch, environmentEpoch := environmentEpoch } := by
  unfold factOf at found
  split at found
  · split at found
    · cases found
    · next published parsed =>
        dsimp only at found
        split at found
        · cases found
        · next current =>
            rw [not_or, not_or] at current
            cases found
            refine ⟨?_, _, _, by omega, by omega, rfl⟩
            obtain ⟨positive, ordered⟩ := parsePublishedTaskFact_validity parsed
            simp [factValidityValid, checkpointSchemaCurrent, positive, ordered]
  · split at found
    · cases found
      exact ⟨rfl, _, _, le_rfl, le_rfl, rfl⟩
    · cases found

theorem applyJsonEvent_identity (config : CheckpointReducerConfig) (projection : Projection)
    (kind : TaskEvent) (payload : JsonValue) (event : EventEnvelope) :
    SameIdentity projection (applyJsonEvent config projection kind payload event).1 := by
  cases kind with
  | factVerified =>
      simp only [applyJsonEvent]
      split
      · exact ⟨rfl, rfl, rfl⟩
      · next fact next found =>
          obtain ⟨_, _, _, _, _, rfl⟩ := factOf_spec found
          exact ⟨rfl, rfl, rfl⟩
  | _ =>
      simp only [applyJsonEvent]
      repeat' split
      all_goals exact ⟨rfl, rfl, rfl⟩

theorem applyJsonEvent_forward (config : CheckpointReducerConfig) (projection : Projection)
    (kind : TaskEvent) (payload : JsonValue) (event : EventEnvelope) :
    Forward projection (applyJsonEvent config projection kind payload event).1 := by
  cases kind with
  | factVerified =>
      simp only [applyJsonEvent]
      split
      · exact .refl _
      · next fact next found =>
          obtain ⟨_, _, _, task, environment, rfl⟩ := factOf_spec found
          exact ⟨task, environment, .inr rfl⟩
  | stateChanged =>
      simp only [applyJsonEvent]
      split
      · exact .refl _
      · split
        · exact .refl _
        · next open_ =>
            have open_ : projection.terminalState = none := by simpa using open_
            split
            · exact ⟨le_rfl, le_rfl, .inl open_⟩
            · exact .refl _
  | loopSettled =>
      simp only [applyJsonEvent]
      split
      · exact .refl _
      · split
        · exact .refl _
        · next open_ =>
            have open_ : projection.terminalState = none := by simpa using open_
            exact ⟨le_rfl, le_rfl, .inl open_⟩
  | epochAdvanced =>
      simp only [applyJsonEvent]
      split
      · exact .refl _
      · exact ⟨le_max_left _ _, le_rfl, .inr rfl⟩
  | environmentEpochChanged =>
      simp only [applyJsonEvent]
      split
      · exact .refl _
      · exact ⟨le_rfl, le_max_left _ _, .inr rfl⟩
  | _ =>
      simp only [applyJsonEvent]
      repeat' split
      all_goals exact ⟨le_rfl, le_rfl, .inr rfl⟩

/-- The four lists with a bound in the configuration, and the recent actions. -/
structure Bounded (config : CheckpointReducerConfig) (projection : Projection) : Prop where
  facts : projection.verifiedFacts.length ≤ config.maxVerifiedFacts
  steps : projection.completedSteps.length ≤ config.maxCompletedSteps
  objectives : projection.pendingObjectives.length ≤ config.maxPendingObjectives
  issues : projection.unresolvedIssues.length ≤ config.maxUnresolvedIssues
  actions : projection.recentActions.length ≤ config.maxRecentActions
  validity : ∀ fact ∈ projection.verifiedFacts,
    factValidityValid fact checkpointSchemaCurrent = true
  terminal : ∀ state, projection.terminalState = some state → state.isTerminal = true

theorem length_setOutcome (action : ActionId) (outcome : Bytes)
    (summaries : List CheckpointActionSummary) :
    (setOutcome action outcome summaries).length = summaries.length := by
  induction summaries with
  | nil => rfl
  | cons summary rest ih =>
      rw [setOutcome]
      split_ifs
      · rfl
      · rw [List.length_cons, List.length_cons, ih]

theorem length_applyRecentAction
    (bounded : projection.recentActions.length ≤ config.maxRecentActions) (action : ActionId)
    (kind outcome : Bytes) (sequence : Nat) :
    (applyRecentAction config action kind outcome sequence projection).recentActions.length ≤
      config.maxRecentActions := by
  unfold applyRecentAction
  dsimp only
  split_ifs
  · rwa [length_setOutcome]
  · exact Roster.length_push bounded

theorem settledState_terminal {outcome : Bytes} {state : TaskState}
    (settled : settledState outcome = some state) : state.isTerminal = true := by
  unfold settledState at settled
  split_ifs at settled <;> cases settled <;> rfl

theorem applyJsonEvent_bounded (bounded : Bounded config projection) (kind : TaskEvent)
    (payload : JsonValue) (event : EventEnvelope) :
    Bounded config (applyJsonEvent config projection kind payload event).1 := by
  cases kind with
  | factVerified =>
      simp only [applyJsonEvent]
      split
      · exact { bounded with }
      · next fact next found =>
          obtain ⟨valid, _, _, _, _, rfl⟩ := factOf_spec found
          refine { bounded with facts := Roster.length_putWithin _ bounded.facts, validity := ?_ }
          intro other present
          rcases Roster.mem_putWithin _ present with old | rfl
          · exact bounded.validity other old
          · exact valid
  | stepCompleted =>
      simp only [applyJsonEvent]
      split
      · exact { bounded with steps := Roster.length_push bounded.steps }
      · exact { bounded with }
  | objectiveAdded =>
      simp only [applyJsonEvent]
      split
      · exact { bounded with }
      · refine { bounded with objectives := ?_ }
        dsimp only
        split
        · exact bounded.objectives
        · exact Roster.length_push bounded.objectives
  | objectiveCompleted =>
      simp only [applyJsonEvent]
      split
      · exact { bounded with }
      · exact { bounded with objectives := (List.length_filter_le _ _).trans bounded.objectives }
  | issueRaised =>
      simp only [applyJsonEvent]
      split
      · exact { bounded with }
      · refine { bounded with issues := ?_ }
        dsimp only
        split
        · exact bounded.issues
        · exact Roster.length_push bounded.issues
  | issueResolved =>
      simp only [applyJsonEvent]
      split
      · exact { bounded with }
      · exact { bounded with issues := (List.length_filter_le _ _).trans bounded.issues }
  | stateChanged =>
      simp only [applyJsonEvent]
      split
      · exact { bounded with }
      · split
        · exact { bounded with }
        · split
          · next target =>
              refine { bounded with terminal := ?_ }
              rintro state reached
              cases reached
              exact target
          · exact { bounded with }
  | loopSettled =>
      simp only [applyJsonEvent]
      split
      · exact { bounded with }
      · split
        · exact { bounded with }
        · exact { bounded with terminal := fun _ settled => settledState_terminal settled }
  | actionDispatched =>
      simp only [applyJsonEvent]
      split
      · exact { bounded with }
      · next action _ =>
          refine { bounded with actions := ?_ }
          exact length_applyRecentAction bounded.actions default action (ascii "dispatched")
            event.sessionSequence
  | _ =>
      simp only [applyJsonEvent]
      repeat' split
      all_goals exact { bounded with }

theorem applyJournalEvent_identity (config : CheckpointReducerConfig) (projection : Projection)
    (kind : JournalEvent) (parsed : Journal.Payload) (event : EventEnvelope) :
    SameIdentity projection (applyJournalEvent config projection kind parsed event) := by
  cases kind with
  | executionUncertain =>
      simp only [applyJournalEvent]
      split <;> exact ⟨rfl, rfl, rfl⟩
  | _ => exact ⟨rfl, rfl, rfl⟩

theorem applyJournalEvent_forward (config : CheckpointReducerConfig) (projection : Projection)
    (kind : JournalEvent) (parsed : Journal.Payload) (event : EventEnvelope) :
    Forward projection (applyJournalEvent config projection kind parsed event) := by
  cases kind with
  | executionUncertain =>
      simp only [applyJournalEvent]
      split <;> exact ⟨le_max_left _ _, le_max_left _ _, .inr rfl⟩
  | _ => exact ⟨le_max_left _ _, le_max_left _ _, .inr rfl⟩

theorem applyJournalEvent_bounded (bounded : Bounded config projection) (kind : JournalEvent)
    (parsed : Journal.Payload) (event : EventEnvelope) :
    Bounded config (applyJournalEvent config projection kind parsed event) := by
  cases kind with
  | prepared => exact { bounded with }
  | dispatchStarted =>
      refine { bounded with actions := ?_ }
      exact length_applyRecentAction bounded.actions parsed.actionId parsed.target.type
        (ascii "dispatched") event.sessionSequence
  | receipt =>
      refine { bounded with actions := ?_ }
      exact length_applyRecentAction bounded.actions parsed.actionId parsed.target.type
        (ascii "receipt") event.sessionSequence
  | executionUncertain =>
      simp only [applyJournalEvent]
      split <;> exact { bounded with }

variable {kind : TaskEvent} {body detail : JsonValue}

theorem unwrap_spec (unwrapped : unwrap projection kind body event = .ok (detail, next)) :
    ∃ epoch, projection.taskEpoch ≤ epoch ∧ next = { projection with taskEpoch := epoch } := by
  unfold unwrap at unwrapped
  split at unwrapped
  · cases unwrapped
    exact ⟨_, le_rfl, rfl⟩
  · split at unwrapped
    · cases unwrapped
    · split_ifs at unwrapped with _ current
      cases unwrapped
      exact ⟨_, not_lt.mp current, rfl⟩

theorem unwrap_rejects {outcome : Outcome}
    (rejected : unwrap projection kind body event = .error outcome) : outcome ≠ .applied := by
  unfold unwrap at rejected
  split at rejected
  · cases rejected
  · split at rejected
    · cases rejected
      nofun
    · split_ifs at rejected <;> cases rejected <;> nofun

/-- The ways an event is applied or rejected. -/
inductive Applies (config : CheckpointReducerConfig) (projection : Projection)
    (event : EventEnvelope) : Projection × Outcome → Prop
  | rejected (outcome : Outcome) (unapplied : outcome ≠ .applied) :
      Applies config projection event (projection, outcome)
  | journal (kind : JournalEvent) (parsed : Journal.Payload)
      (type : journalEventFrom event.payload.type = some kind)
      (payload : journalPayload event = some parsed) :
      Applies config projection event
        (applyJournalEvent config projection kind parsed event, .applied)
  | json (kind : TaskEvent) (body detail : JsonValue) (epoch : Nat)
      (foreign : journalEventFrom event.payload.type = none)
      (type : taskEventFrom event.payload.type = some kind)
      (parsed : parseJson event.payload.data = .ok body)
      (unwrapped : unwrap projection kind body event =
        .ok (detail, { projection with taskEpoch := epoch }))
      (later : projection.taskEpoch ≤ epoch) :
      Applies config projection event
        (applyJsonEvent config { projection with taskEpoch := epoch } kind detail event)

theorem applyEvent_applies (config : CheckpointReducerConfig) (projection : Projection)
    (event : EventEnvelope) :
    Applies config projection event (applyEvent config projection event) := by
  unfold applyEvent
  split
  · next kind type =>
      split
      · exact .rejected _ nofun
      · next parsed payload => exact .journal kind parsed type payload
  · next foreign =>
      split
      · exact .rejected _ nofun
      · next body parsed =>
          split
          · exact .rejected _ nofun
          · next kind type =>
              split
              · next outcome rejected => exact .rejected _ (unwrap_rejects rejected)
              · next detail next unwrapped =>
                  obtain ⟨epoch, later, rfl⟩ := unwrap_spec unwrapped
                  exact .json kind body detail epoch foreign type parsed unwrapped later

section Event
variable (config : CheckpointReducerConfig) (projection : Projection)

theorem applyEvent_identity (event : EventEnvelope) :
    SameIdentity projection (applyEvent config projection event).1 := by
  have applies := applyEvent_applies config projection event
  generalize applyEvent config projection event = result at applies
  cases applies with
  | rejected => exact ⟨rfl, rfl, rfl⟩
  | journal => exact applyJournalEvent_identity _ _ _ _ _
  | json =>
      obtain ⟨task, session, through⟩ := applyJsonEvent_identity _ _ _ _ _
      exact ⟨task, session, through⟩

theorem applyEvent_forward (event : EventEnvelope) :
    Forward projection (applyEvent config projection event).1 := by
  have applies := applyEvent_applies config projection event
  generalize applyEvent config projection event = result at applies
  cases applies with
  | rejected => exact .refl _
  | journal => exact applyJournalEvent_forward _ _ _ _ _
  | json kind body detail epoch _ _ _ _ later =>
      have moved : Forward projection { projection with taskEpoch := epoch } :=
        ⟨later, le_rfl, .inr rfl⟩
      exact moved.trans (applyJsonEvent_forward _ _ _ _ _)

variable {config projection} in
theorem applyEvent_bounded (bounded : Bounded config projection) (event : EventEnvelope) :
    Bounded config (applyEvent config projection event).1 := by
  have applies := applyEvent_applies config projection event
  generalize applyEvent config projection event = result at applies
  cases applies with
  | rejected => exact bounded
  | journal => exact applyJournalEvent_bounded bounded _ _ _
  | json kind body detail epoch =>
      refine applyJsonEvent_bounded ?_ _ _ _
      exact { bounded with }

end Event

/-- The events a projection folds. -/
def Folds (projection : Projection) (event : EventEnvelope) : Prop :=
  (∀ task, event.taskId = some task → task = projection.taskId) ∧
    projection.throughEventSequence < event.sessionSequence

theorem foldStep_cases (config : CheckpointReducerConfig) (projection : Projection)
    (event : EventEnvelope) :
    (Folds projection event ∧ foldStep config projection event =
      ((applyEvent config { projection with throughEventSequence := event.sessionSequence } event).1,
        some (applyEvent config
          { projection with throughEventSequence := event.sessionSequence } event).2)) ∨
    (¬ Folds projection event ∧ foldStep config projection event = (projection, none)) := by
  unfold foldStep
  split
  · next other =>
      refine .inr ⟨fun folds => ?_, rfl⟩
      cases scope : event.taskId with
      | none => rw [scope] at other; cases other
      | some task =>
          rw [scope] at other
          exact of_decide_eq_true other (folds.1 task scope)
  · next own =>
      split
      · next seen => exact .inr ⟨fun folds => absurd folds.2 (not_lt.mpr seen), rfl⟩
      · next unseen =>
          refine .inl ⟨⟨fun task present => ?_, not_le.mp unseen⟩, rfl⟩
          rw [present] at own
          simpa using own

section Fold
variable (config : CheckpointReducerConfig)

theorem foldStep_identity (projection : Projection) (event : EventEnvelope) :
    (foldStep config projection event).1.taskId = projection.taskId ∧
      (foldStep config projection event).1.sessionId = projection.sessionId := by
  rcases foldStep_cases config projection event with ⟨_, result⟩ | ⟨_, result⟩
  · rw [result]
    have same := applyEvent_identity config
      { projection with throughEventSequence := event.sessionSequence } event
    exact ⟨same.task, same.session⟩
  · rw [result]
    exact ⟨rfl, rfl⟩

theorem run_identity (projection : Projection) (events : List EventEnvelope) :
    (Execution.run (foldStep config) projection events).taskId = projection.taskId ∧
      (Execution.run (foldStep config) projection events).sessionId = projection.sessionId := by
  refine Execution.run_invariant_always (foldStep config)
    (fun reached => reached.taskId = projection.taskId ∧ reached.sessionId = projection.sessionId)
    ?_ projection events ⟨rfl, rfl⟩
  intro reached event same
  have kept := foldStep_identity config reached event
  exact ⟨kept.1.trans same.1, kept.2.trans same.2⟩

end Fold

theorem adopt_task {events : List EventEnvelope} {task : TaskId} (some_ : events ≠ [])
    (own : ∀ event ∈ events, event.taskId = some task) : (adopt events).taskId = task := by
  cases events with
  | nil => exact absurd rfl some_
  | cons first rest =>
      have scope := own first List.mem_cons_self
      simp [adopt, scope]

/-- What folding the events from nothing leaves, before facts are dropped. -/
def foldAll (config : CheckpointReducerConfig) (events : List EventEnvelope) : Projection :=
  Execution.run (foldStep config) (adopt events) events

/-- The events that were counted as rejected or ignored. -/
def ReducerStats.passedBy (stats : ReducerStats) : Nat :=
  stats.malformed + stats.staleSkipped + stats.ignored

/-- An event with its statistics. What is applied is counted last, where nothing else was. -/
def applyCounted (config : CheckpointReducerConfig) (projection : Projection)
    (stats : ReducerStats) (event : EventEnvelope) : Projection × ReducerStats :=
  match journalEventFrom event.payload.type with
  | some kind =>
      match journalPayload event with
      | none => (projection, stats.count (some .malformed))
      | some parsed =>
          (applyJournalEvent config projection kind parsed event, stats.count (some .applied))
  | none =>
      match parseJson event.payload.data with
      | .error _ => (projection, stats.count (some .malformed))
      | .ok body =>
          match taskEventFrom event.payload.type with
          | none => (projection, stats.count (some .ignored))
          | some kind =>
              match unwrap projection kind body event with
              | .error outcome => (projection, stats.count (some outcome))
              | .ok (body, projection) =>
                  let next := applyJsonEvent config projection kind body event
                  let noted := if next.2 = .applied then stats else stats.count (some next.2)
                  (next.1,
                    if stats.passedBy = noted.passedBy then noted.count (some .applied) else noted)

variable {config : CheckpointReducerConfig} {projection : Projection} {stats : ReducerStats}
  {event : EventEnvelope}

theorem count_injective {outcome other : Outcome}
    (same : stats.count (some outcome) = stats.count (some other)) : outcome = other := by
  cases outcome <;> cases other <;> first
    | rfl
    | exact absurd same (by simp [ReducerStats.count])

theorem passedBy_count {outcome : Outcome} (unapplied : outcome ≠ .applied) :
    stats.passedBy ≠ (stats.count (some outcome)).passedBy := by
  cases outcome with
  | applied => exact absurd rfl unapplied
  | _ =>
      simp only [ReducerStats.passedBy, ReducerStats.count]
      omega

theorem applyCounted_eq (config : CheckpointReducerConfig) (projection : Projection)
    (stats : ReducerStats) (event : EventEnvelope) :
    applyCounted config projection stats event =
      ((applyEvent config projection event).1,
        stats.count (some (applyEvent config projection event).2)) := by
  rw [applyCounted, applyEvent]
  cases journalEventFrom event.payload.type with
  | some kind => cases journalPayload event <;> rfl
  | none =>
      cases parseJson event.payload.data with
      | error reason => rfl
      | ok body =>
          cases taskEventFrom event.payload.type with
          | none => rfl
          | some kind =>
              cases unwrapped : unwrap projection kind body event with
              | error outcome => simp only [unwrapped]
              | ok next =>
                  simp only [unwrapped]
                  split
                  · next applied => rw [if_pos rfl, applied]
                  · next unapplied => rw [if_neg (passedBy_count unapplied)]

/-- A wrapped event moves the projection to a later epoch, and its details lack what it needs. -/
structure MovesThenFails (projection : Projection) (event : EventEnvelope) (kind : TaskEvent)
    (body detail : JsonValue) (epoch : Nat) : Prop where
  type : taskEventFrom event.payload.type = some kind
  parsed : parseJson event.payload.data = .ok body
  wrapped : body.find (ascii "detail") = some detail
  object : detail.isObject = true
  task : event.taskId.isSome = true ∧
    stringMember body "task_id" = event.taskId.map StrongId.toString
  stated : naturalMember body "task_epoch" = some epoch
  later : projection.taskEpoch < epoch
  lacks : kind = .actionDispatched ∧ stringMember detail "action" = none ∨
    kind = .loopSettled ∧ stringMember detail "outcome" = none

/-- One counter is incremented, and an event that is not applied changes nothing. -/
structure Accounts (config : CheckpointReducerConfig) (projection : Projection)
    (stats : ReducerStats) (event : EventEnvelope) : Prop where
  one : ∃! outcome, (applyCounted config projection stats event).2 = stats.count (some outcome)
  kept : (applyCounted config projection stats event).2 ≠ stats.count (some .applied) →
    (applyCounted config projection stats event).1 = projection

theorem applyJsonEvent_rejected {payload : JsonValue}
    (unapplied : (applyJsonEvent config projection kind payload event).2 ≠ .applied) :
    (applyJsonEvent config projection kind payload event).1 = projection := by
  revert unapplied
  cases kind with
  | verificationResult => exact fun unapplied => absurd rfl unapplied
  | _ =>
      simp only [applyJsonEvent]
      repeat' split
      all_goals first
        | exact fun _ => rfl
        | exact fun unapplied => absurd rfl unapplied

theorem applyJsonEvent_wrapped (config : CheckpointReducerConfig) (projection : Projection)
    (event : EventEnvelope) (wrapped : kind.wrapped = true) (detail : JsonValue) :
    (applyJsonEvent config projection kind detail event).2 ≠ .applied ↔
      kind = .actionDispatched ∧ stringMember detail "action" = none ∨
        kind = .loopSettled ∧ stringMember detail "outcome" = none := by
  cases kind with
  | verificationResult => simp [applyJsonEvent]
  | actionDispatched =>
      simp only [applyJsonEvent]
      split <;> simp_all
  | loopSettled =>
      simp only [applyJsonEvent]
      split
      · simp_all
      · split <;> simp_all
  | _ => exact absurd wrapped (by decide)

theorem journalEventFrom_task {type : Bytes} (named : taskEventFrom type = some kind) :
    journalEventFrom type = none := by
  obtain ⟨entry, found, _⟩ := Option.map_eq_some_iff.mp named
  have listed := List.mem_of_find?_eq_some found
  have same : ascii entry.1 = type := by simpa using List.find?_some found
  have apart : ∀ entry ∈ taskEvents, journalEventFrom (ascii entry.1) = none := by decide
  exact same ▸ apart entry listed

theorem MovesThenFails.unwrapped {epoch : Nat}
    (moves : MovesThenFails projection event kind body detail epoch) :
    kind.wrapped = true ∧
      unwrap projection kind body event =
        .ok (detail, { projection with taskEpoch := epoch }) := by
  have wrapped : kind.wrapped = true := by
    cases moves.lacks with
    | inl action => exact action.1 ▸ rfl
    | inr outcome => exact outcome.1 ▸ rfl
  have task : event.taskId ≠ none := Option.isSome_iff_ne_none.mp moves.task.1
  refine ⟨wrapped, ?_⟩
  have admitted : ¬(detail.isObject = false ∨ event.taskId = none ∨
      stringMember body "task_id" ≠ event.taskId.map StrongId.toString) := by
    rw [moves.object, moves.task.2]
    simp [task]
  simp only [unwrap, wrapped, if_true, moves.wrapped, moves.stated]
  rw [if_neg admitted, if_neg (Nat.not_lt.mpr moves.later.le)]

theorem unwrap_later {epoch : Nat} (unwrapped : unwrap projection kind body event =
      .ok (detail, { projection with taskEpoch := epoch })) (later : projection.taskEpoch < epoch) :
    kind.wrapped = true ∧ body.find (ascii "detail") = some detail ∧ detail.isObject = true ∧
      (event.taskId.isSome = true ∧
        stringMember body "task_id" = event.taskId.map StrongId.toString) ∧
      naturalMember body "task_epoch" = some epoch := by
  simp only [unwrap] at unwrapped
  split at unwrapped
  · have same := congrArg Projection.taskEpoch (Prod.mk.inj (Except.ok.inj unwrapped)).2
    exact absurd same (Nat.ne_of_lt later)
  · next inner wrapped =>
      split_ifs at wrapped with known
      split at unwrapped
      · cases unwrapped
      · next stated found =>
          split_ifs at unwrapped with refused old
          obtain ⟨details, moved⟩ := Prod.mk.inj (Except.ok.inj unwrapped)
          have same : stated = epoch := congrArg Projection.taskEpoch moved
          subst details
          subst same
          push Not at refused
          exact ⟨known, wrapped, by simpa using refused.1,
            ⟨Option.isSome_iff_ne_none.mpr refused.2.1, refused.2.2⟩, found⟩

theorem applyEvent_kept_iff (config : CheckpointReducerConfig) :
    ((applyEvent config projection event).2 ≠ .applied →
        (applyEvent config projection event).1 = projection) ↔
      ¬∃ kind body detail epoch, MovesThenFails projection event kind body detail epoch := by
  constructor
  · intro kept ⟨kind, body, detail, epoch, moves⟩
    obtain ⟨wrapped, unwrapped⟩ := moves.unwrapped
    have applies : applyEvent config projection event =
        applyJsonEvent config { projection with taskEpoch := epoch } kind detail event := by
      rw [applyEvent, journalEventFrom_task moves.type]
      simp only [moves.parsed, moves.type, unwrapped]
    rw [applies] at kept
    have unapplied := (applyJsonEvent_wrapped config { projection with taskEpoch := epoch } event
      wrapped detail).mpr moves.lacks
    have same := kept unapplied
    rw [applyJsonEvent_rejected unapplied] at same
    exact absurd (congrArg Projection.taskEpoch same) (Nat.ne_of_gt moves.later)
  · intro steady
    have applies := applyEvent_applies config projection event
    generalize applyEvent config projection event = result at applies
    cases applies with
    | rejected => exact fun _ => rfl
    | journal => exact fun unapplied => absurd rfl unapplied
    | json kind body detail epoch foreign type parsed unwrapped later =>
        intro unapplied
        rw [applyJsonEvent_rejected unapplied]
        cases later.eq_or_lt with
        | inl same => rw [← same]
        | inr later =>
            obtain ⟨wrapped, inner, object, task, stated⟩ := unwrap_later unwrapped later
            refine absurd ⟨kind, body, detail, epoch, ?_⟩ steady
            exact ⟨type, parsed, inner, object, task, stated, later,
              (applyJsonEvent_wrapped _ _ _ wrapped detail).mp unapplied⟩

/-- An event is counted once, and changes nothing where it is not applied, unless it moves the
projection to a later epoch before its details turn out to lack what they need. -/
theorem rejected_event_kept (config : CheckpointReducerConfig) (projection : Projection)
    (stats : ReducerStats) (event : EventEnvelope) :
    Accounts config projection stats event ↔
      ¬∃ kind body detail epoch, MovesThenFails projection event kind body detail epoch := by
  rw [← applyEvent_kept_iff config]
  have counted := applyCounted_eq config projection stats event
  constructor
  · intro accounts unapplied
    have kept := accounts.kept
    rw [counted] at kept
    exact kept fun same => unapplied (count_injective same)
  · intro kept
    constructor
    · refine ⟨(applyEvent config projection event).2, congrArg Prod.snd counted, ?_⟩
      intro other same
      rw [counted] at same
      exact (count_injective same).symm
    · intro unapplied
      rw [counted] at unapplied ⊢
      exact kept fun applied => unapplied (congrArg (fun outcome => stats.count (some outcome)) applied)

/-- A settled loop of a later epoch that does not say how it settled. -/
def settledNowhere : EventEnvelope :=
  { eventId := .filled 4
    runtimeId := .filled 1
    sessionId := .filled 2
    taskId := some (.filled 3)
    sessionSequence := 1
    payload :=
      { type := ascii "LoopSettled"
        data := canonicalJsonString (.object
          [(ascii "detail", .object []),
            (ascii "task_epoch", .integer 7),
            (ascii "task_id", .string (StrongId.filled 3 : TaskId).toString)]) } }

theorem epoch_of_rejected_event :
    (applyCounted {} {} {} settledNowhere).2 = { malformed := 1 } ∧
      (applyCounted {} {} {} settledNowhere).1.taskEpoch = 7 ∧
      ¬∀ config projection stats event, Accounts config projection stats event := by
  have counted : (applyCounted {} {} {} settledNowhere).2 = { malformed := 1 } := by decide +kernel
  have moved : (applyCounted {} {} {} settledNowhere).1.taskEpoch = 7 := by decide +kernel
  refine ⟨counted, moved, ?_⟩
  intro every
  have kept := (every {} {} {} settledNowhere).kept
  rw [counted] at kept
  have same := congrArg Projection.taskEpoch (kept (by decide))
  rw [moved] at same
  exact absurd same (by decide)

end Mira.Checkpoint
