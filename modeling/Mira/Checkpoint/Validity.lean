import Mira.Checkpoint.InFlight

/-!
Validity of what is built. Everything an event can write passes the checks on a
checkpoint, with one exception: a constraint event may carry an empty key or an empty
requirement, which the check refuses. Such a constraint stays until a later event
names its key again.
-/

namespace Mira.Checkpoint
open Mira Bytes Events

/-- The key a constraint event names, and the requirement unless it removes it. -/
def constraintEdit (event : EventEnvelope) : Option (Bytes × Option Bytes) :=
  match parseJson event.payload.data with
  | .error _ => none
  | .ok body =>
      match taskEventFrom event.payload.type with
      | some .constraintAdded =>
          match stringMember body "key", stringMember body "requirement" with
          | some key, some requirement => some (key, some requirement)
          | _, _ => none
      | some .constraintRemoved => (stringMember body "key").map fun key => (key, none)
      | _ => none

/-- The event sets the requirement of the key. -/
def Sets (key requirement : Bytes) (event : EventEnvelope) : Prop :=
  constraintEdit event = some (key, some requirement)

/-- The event sets or removes the key. -/
def Edits (key : Bytes) (event : EventEnvelope) : Prop :=
  ∃ requirement, constraintEdit event = some (key, requirement)

def Projection.constraintKeys (projection : Projection) : List Bytes :=
  projection.constraints.map (·.key)

/-- The projection holds the requirement under the key. -/
def Requires (projection : Projection) (key requirement : Bytes) : Prop :=
  ∃ held ∈ projection.constraints, held.key = key ∧ held.requirement = requirement

variable (config : CheckpointReducerConfig) (projection : Projection)

theorem applyJsonEvent_constraints {kind : TaskEvent} (other : kind ≠ .constraintAdded)
    (other' : kind ≠ .constraintRemoved) (payload : JsonValue) (event : EventEnvelope) :
    (applyJsonEvent config projection kind payload event).1.constraints =
      projection.constraints := by
  cases kind with
  | constraintAdded => exact absurd rfl other
  | constraintRemoved => exact absurd rfl other'
  | factVerified =>
      simp only [applyJsonEvent]
      split
      · rfl
      · next fact next found =>
          obtain ⟨_, _, _, _, _, rfl⟩ := factOf_spec found
          rfl
  | _ =>
      simp only [applyJsonEvent]
      repeat' split
      all_goals rfl

theorem applyJournalEvent_constraints (kind : JournalEvent) (parsed : Journal.Payload)
    (event : EventEnvelope) :
    (applyJournalEvent config projection kind parsed event).constraints =
      projection.constraints := by
  cases kind with
  | executionUncertain =>
      simp only [applyJournalEvent]
      split <;> rfl
  | _ => rfl

theorem constraintEdit_other {event : EventEnvelope} {kind : Option TaskEvent}
    (type : taskEventFrom event.payload.type = kind) (other : kind ≠ some .constraintAdded)
    (other' : kind ≠ some .constraintRemoved) : constraintEdit event = none := by
  unfold constraintEdit
  rw [type]
  split
  · rfl
  · split
    · exact absurd rfl other
    · exact absurd rfl other'
    · rfl

/-- An event that edits no constraint leaves them all; one that does puts an entry or
removes those of its key. -/
theorem applyEvent_constraints (event : EventEnvelope) :
    (constraintEdit event = none ∧
      (applyEvent config projection event).1.constraints = projection.constraints) ∨
    (∃ key, constraintEdit event = some (key, none) ∧
      (applyEvent config projection event).1.constraints =
        projection.constraints.filter fun held => held.key ≠ key) ∨
    (∃ added : CheckpointConstraint,
      constraintEdit event = some (added.key, some added.requirement) ∧
      (applyEvent config projection event).1.constraints =
        Roster.put (·.key) added projection.constraints) := by
  unfold applyEvent
  split
  · next kind journal =>
      refine .inl ⟨constraintEdit_other (taskEventFrom_journal journal) (by simp) (by simp), ?_⟩
      split
      · rfl
      · exact applyJournalEvent_constraints config projection kind _ event
  · split
    · next unparsed => exact .inl ⟨by simp [constraintEdit, unparsed], rfl⟩
    · next body parsed =>
        split
        · next type => exact .inl ⟨constraintEdit_other type (by simp) (by simp), rfl⟩
        · next kind type =>
            by_cases added : kind = .constraintAdded
            · subst added
              have flat : unwrap projection .constraintAdded body event = .ok (body, projection) :=
                rfl
              rw [flat]
              simp only [applyJsonEvent, constraintEdit, parsed, type]
              cases stringMember body "key" with
              | none => exact .inl ⟨rfl, rfl⟩
              | some key =>
                  cases stringMember body "requirement" with
                  | none => exact .inl ⟨rfl, rfl⟩
                  | some requirement => exact .inr (.inr ⟨⟨key, requirement, _, _⟩, rfl, rfl⟩)
            · by_cases removed : kind = .constraintRemoved
              · subst removed
                have flat : unwrap projection .constraintRemoved body event =
                    .ok (body, projection) := rfl
                rw [flat]
                simp only [applyJsonEvent, constraintEdit, parsed, type]
                cases stringMember body "key" with
                | none => exact .inl ⟨rfl, rfl⟩
                | some key => exact .inr (.inl ⟨key, rfl, rfl⟩)
              · refine .inl ⟨constraintEdit_other type (by simpa using added)
                  (by simpa using removed), ?_⟩
                split
                · rfl
                · next detail next unwrapped =>
                    obtain ⟨epoch, _, rfl⟩ := unwrap_spec unwrapped
                    exact applyJsonEvent_constraints config _ added removed detail event

theorem applyEvent_requires (unique : projection.constraintKeys.Nodup) (event : EventEnvelope) :
    (applyEvent config projection event).1.constraintKeys.Nodup ∧
      ∀ key requirement, Requires (applyEvent config projection event).1 key requirement ↔
        Sets key requirement event ∨ (Requires projection key requirement ∧ ¬ Edits key event) := by
  simp only [Projection.constraintKeys, Requires, Sets, Edits] at unique ⊢
  rcases applyEvent_constraints config projection event with
    ⟨edit, same⟩ | ⟨removed, edit, filtered⟩ | ⟨added, edit, put⟩
  · rw [same, edit]
    exact ⟨unique, by simp⟩
  · rw [filtered, edit]
    refine ⟨(List.filter_sublist.map _).nodup unique, fun key requirement => ?_⟩
    simp only [List.mem_filter, decide_eq_true_eq, Option.some.injEq, Prod.mk.injEq, reduceCtorEq,
      and_false, false_or]
    constructor
    · rintro ⟨held, ⟨present, kept⟩, rfl, rfl⟩
      refine ⟨⟨held, present, rfl, rfl⟩, fun edited => ?_⟩
      obtain ⟨_, own, _⟩ := edited
      exact kept own.symm
    · rintro ⟨⟨held, present, rfl, rfl⟩, kept⟩
      exact ⟨held, ⟨present, fun own => kept ⟨none, own.symm, rfl⟩⟩, rfl, rfl⟩
  · rw [put, edit]
    refine ⟨Roster.nodup_put _ unique, fun key requirement => ?_⟩
    simp only [Roster.mem_put_iff CheckpointConstraint.key unique, Option.some.injEq, Prod.mk.injEq]
    constructor
    · rintro ⟨held, rfl | ⟨present, other⟩, rfl, rfl⟩
      · exact .inl ⟨rfl, rfl⟩
      · refine .inr ⟨⟨held, present, rfl, rfl⟩, fun edited => ?_⟩
        obtain ⟨_, own, _⟩ := edited
        exact other own.symm
    · rintro (⟨rfl, rfl⟩ | ⟨⟨held, present, rfl, rfl⟩, kept⟩)
      · exact ⟨added, .inl rfl, rfl, rfl⟩
      · exact ⟨held, .inr ⟨present, fun own => kept ⟨_, own.symm, rfl⟩⟩, rfl, rfl⟩

/-- The events with a sequence above all that stand before them. -/
def unseen (through : Nat) : List EventEnvelope → List EventEnvelope
  | [] => []
  | event :: rest =>
      if event.sessionSequence ≤ through then unseen through rest
      else event :: unseen event.sessionSequence rest

theorem mem_of_mem_unseen {through : Nat} {events : List EventEnvelope} {event : EventEnvelope}
    (present : event ∈ unseen through events) : event ∈ events := by
  induction events generalizing through with
  | nil => cases present
  | cons first rest ih =>
      rw [unseen] at present
      split_ifs at present
      · exact List.mem_cons_of_mem _ (ih present)
      · rcases List.mem_cons.mp present with rfl | later
        · exact List.mem_cons_self
        · exact List.mem_cons_of_mem _ (ih later)

def applyStep (config : CheckpointReducerConfig) (projection : Projection)
    (event : EventEnvelope) : Projection × Outcome :=
  applyEvent config { projection with throughEventSequence := event.sessionSequence } event

theorem applyStep_requires (unique : projection.constraintKeys.Nodup) (event : EventEnvelope) :
    (applyStep config projection event).1.constraintKeys.Nodup ∧
      ∀ key requirement, Requires (applyStep config projection event).1 key requirement ↔
        Sets key requirement event ∨ (Requires projection key requirement ∧ ¬ Edits key event) :=
  applyEvent_requires config
    { projection with throughEventSequence := event.sessionSequence } unique event

section Run
variable (config : CheckpointReducerConfig)

variable {projection : Projection}

theorem run_unseen {task : TaskId} (task_eq : projection.taskId = task)
    (events : List EventEnvelope) (own : ∀ event ∈ events, event.taskId = some task) :
    Execution.run (foldStep config) projection events =
      Execution.run (applyStep config) projection
        (unseen projection.throughEventSequence events) := by
  induction events generalizing projection with
  | nil => rfl
  | cons event rest ih =>
      have own' : ∀ later ∈ rest, later.taskId = some task :=
        fun later present => own later (List.mem_cons_of_mem _ present)
      have scope : ∀ other, event.taskId = some other → other = projection.taskId := by
        intro other named
        rw [task_eq]
        exact Option.some.inj (named.symm.trans (own event List.mem_cons_self))
      rw [Execution.run, unseen]
      rcases foldStep_cases config projection event with ⟨folds, result⟩ | ⟨skips, result⟩
      · rw [if_neg (not_le.mpr folds.2), Execution.run, result]
        have same := applyEvent_identity config
          { projection with throughEventSequence := event.sessionSequence } event
        have folded := ih (same.task.trans task_eq) own'
        rw [same.through] at folded
        exact folded
      · have seen : event.sessionSequence ≤ projection.throughEventSequence :=
          not_lt.mp fun fresh => skips ⟨scope, fresh⟩
        rw [if_pos seen, result]
        exact ih task_eq own'

variable (events : List EventEnvelope)

theorem adopt_unconstrained :
    (adopt events).constraints = [] ∧ (adopt events).throughEventSequence = 0 := by
  unfold adopt
  split <;> exact ⟨rfl, rfl⟩

section Full
variable {events : List EventEnvelope} {task : TaskId} (some_ : events ≠ [])
  (own : ∀ event ∈ events, event.taskId = some task)
include some_ own

theorem foldAll_unseen :
    foldAll config events = Execution.run (applyStep config) (adopt events) (unseen 0 events) := by
  rw [← (adopt_unconstrained events).2]
  exact run_unseen config (adopt_task some_ own) events own

theorem foldAll_constraintKeys_nodup : (foldAll config events).constraintKeys.Nodup := by
  rw [foldAll_unseen config some_ own]
  refine Execution.run_invariant_always (applyStep config) (·.constraintKeys.Nodup)
    (fun reached event unique => (applyStep_requires config reached unique event).1) _ _ ?_
  rw [Projection.constraintKeys, (adopt_unconstrained events).1]
  exact List.nodup_nil

theorem foldAll_requires (key requirement : Bytes) :
    Requires (foldAll config events) key requirement ↔
      Execution.Since (Sets key requirement) (Edits key) (unseen 0 events) := by
  have start : (adopt events).constraintKeys.Nodup := by
    rw [Projection.constraintKeys, (adopt_unconstrained events).1]
    exact List.nodup_nil
  have flag := Execution.run_flag (applyStep config) (fun _ event => event)
    (·.constraintKeys.Nodup) (fun reached => Requires reached key requirement)
    (Sets key requirement) (Edits key)
    (fun reached event unique => (applyStep_requires config reached unique event).1)
    (fun reached event unique =>
      (applyStep_requires config reached unique event).2 key requirement)
    (adopt events) (unseen 0 events) start
  rw [← foldAll_unseen config some_ own, Execution.along_inputs] at flag
  refine flag.trans (or_iff_left ?_)
  rintro ⟨⟨held, present, _⟩, _⟩
  rw [(adopt_unconstrained events).1] at present
  cases present

end Full

theorem foldStep_bounded (bounded : Bounded config projection) (event : EventEnvelope) :
    Bounded config (foldStep config projection event).1 := by
  rcases foldStep_cases config projection event with ⟨_, result⟩ | ⟨_, result⟩
  · rw [result]
    refine applyEvent_bounded ?_ event
    exact { bounded with }
  · rw [result]
    exact bounded

theorem adopt_bounded : Bounded config (adopt events) := by
  unfold adopt
  split <;>
    exact ⟨Nat.zero_le _, Nat.zero_le _, Nat.zero_le _, Nat.zero_le _, Nat.zero_le _, nofun, nofun⟩

theorem build_bounded (now : Timestamp) (entropy : Id128) :
    Bounded config (build config none events now entropy).checkpoint.toProjection := by
  have folded : Bounded config (foldAll config events) :=
    Execution.run_invariant_always (foldStep config) (Bounded config)
      (fun _ event bounded => foldStep_bounded config bounded event) _ events
      (adopt_bounded config events)
  exact { folded with
    facts := (List.length_filter_le _ _).trans folded.facts
    validity := fun fact kept => folded.validity fact (List.mem_filter.mp kept).1 }

end Run

def addedKey (event : EventEnvelope) : Option Bytes :=
  match constraintEdit event with
  | some (key, some _) => some key
  | _ => none

def uncertainAction (event : EventEnvelope) : Option ActionId :=
  if journalEventFrom event.payload.type = some .executionUncertain then
    (journalPayload event).map (·.actionId)
  else none

section Sizes
variable (config : CheckpointReducerConfig) {events : List EventEnvelope}

theorem length_constraints_le {task : TaskId} (some_ : events ≠ [])
    (own : ∀ event ∈ events, event.taskId = some task) :
    (foldAll config events).constraints.length ≤ (events.filterMap addedKey).toFinset.card := by
  have unique := foldAll_constraintKeys_nodup config some_ own
  rw [← List.length_map (f := fun held : CheckpointConstraint => held.key)]
  refine Roster.length_le_distinct unique fun key present => ?_
  obtain ⟨held, holds, rfl⟩ := List.mem_map.mp present
  have since := (foldAll_requires config some_ own held.key held.requirement).mp
    ⟨held, holds, rfl, rfl⟩
  obtain ⟨event, folded, sets⟩ := since.exists_mem
  have added : addedKey event = some held.key := by rw [addedKey, sets]
  exact List.mem_filterMap.mpr ⟨event, mem_of_mem_unseen folded, added⟩

theorem length_uncertain_le (events : List EventEnvelope) :
    (foldAll config events).uncertainSideEffects.length ≤
      (events.filterMap uncertainAction).toFinset.card := by
  have unique := run_uncertain_nodup config events
  rw [← List.length_map (f := fun effect : UncertainSideEffect => effect.actionId)]
  refine Roster.length_le_distinct unique fun action present => ?_
  obtain ⟨entry, told, _, journal, parsed, payload, rfl⟩ :=
    ((run_uncertain config events action).mp present).exists_mem
  refine List.mem_filterMap.mpr ⟨entry.2, mem_entriesOf told, ?_⟩
  rw [uncertainAction, if_pos journal, payload]
  rfl

end Sizes

theorem validate_iff {checkpoint : TaskCheckpoint}
    (schema : checkpoint.schemaVersion = checkpointSchemaCurrent)
    (ids : checkpoint.id.isNil = false ∧ checkpoint.taskId.isNil = false ∧
      checkpoint.sessionId.isNil = false)
    (bounded : Bounded {} checkpoint.toProjection)
    (constraints : checkpoint.constraints.length ≤ 1024)
    (effects : checkpoint.uncertainSideEffects.length ≤ 4096) :
    checkpoint.validate = .ok () ↔
      ∀ held ∈ checkpoint.constraints, held.key ≠ [] ∧ held.requirement ≠ [] := by
  have version : validateSchemaVersion checkpoint.schemaVersion checkpointSchemaCurrent =
      .ok () := by
    rw [schema]
    rfl
  have named : ¬ (checkpoint.id.isNil = true ∨ checkpoint.taskId.isNil = true ∨
      checkpoint.sessionId.isNil = true) := by
    simp [ids.1, ids.2.1, ids.2.2]
  obtain ⟨facts, steps, objectives, issues, actions, validity, terminal⟩ := bounded
  dsimp only at facts steps objectives issues actions
  have sized : ¬ (1024 < checkpoint.constraints.length ∨ 4096 < checkpoint.verifiedFacts.length ∨
      8192 < checkpoint.completedSteps.length ∨ 2048 < checkpoint.pendingObjectives.length ∨
      2048 < checkpoint.unresolvedIssues.length ∨
      4096 < checkpoint.uncertainSideEffects.length ∨ 128 < checkpoint.recentActions.length) := by
    omega
  have ended : ¬ (checkpoint.terminalState.any fun state => !state.isTerminal) = true := by
    rw [Option.any_eq_true_iff_get]
    rintro ⟨present, open_⟩
    rw [terminal _ (Option.some_get present).symm] at open_
    cases open_
  have stated : ¬ (checkpoint.verifiedFacts.any fun fact =>
      !factValidityValid fact checkpoint.schemaVersion) = true := by
    rw [List.any_eq_true, schema]
    rintro ⟨fact, present, invalid⟩
    rw [validity fact present] at invalid
    cases invalid
  unfold TaskCheckpoint.validate
  rw [version]
  dsimp only
  rw [if_neg named, if_neg sized, if_neg ended, if_neg stated]
  split_ifs with empty
  · refine iff_of_false nofun fun keyed => ?_
    obtain ⟨held, present, bare⟩ := List.any_eq_true.mp empty
    simp [keyed held present] at bare
  · refine iff_of_true rfl fun held present => ?_
    rw [List.any_eq_true, not_exists] at empty
    simpa [present] using empty held

/-- A rebuild of the events of a task, with at most as many constraint keys and
uncertain actions as a checkpoint may hold, is valid exactly if every constraint event
with an empty key or requirement is followed by another that names its key. -/
theorem build_valid_iff {events : List EventEnvelope} {task : TaskId} (some_ : events ≠ [])
    (named : task.isNil = false)
    (own : ∀ event ∈ events, event.taskId = some task ∧ event.sessionId.isNil = false)
    (keys : (events.filterMap addedKey).toFinset.card ≤ 1024)
    (actions : (events.filterMap uncertainAction).toFinset.card ≤ 4096)
    (now : Timestamp) (entropy : Id128) :
    (build {} none events now entropy).checkpoint.validate = .ok () ↔
      ∀ key requirement, key = [] ∨ requirement = [] →
        ¬ Execution.Since (Sets key requirement) (Edits key) (unseen 0 events) := by
  have scope : ∀ event ∈ events, event.taskId = some task := fun event present =>
    (own event present).1
  obtain ⟨task_eq, session_eq⟩ := run_identity {} (adopt events) events
  have task_named : (foldAll {} events).taskId.isNil = false := by
    rw [foldAll, task_eq, adopt_task some_ scope]
    exact named
  have session_named : (foldAll {} events).sessionId.isNil = false := by
    rw [foldAll, session_eq]
    cases events with
    | nil => exact absurd rfl some_
    | cons first rest =>
        have known := (own first List.mem_cons_self).2
        simpa [adopt, scope first List.mem_cons_self] using known
  have valid := validate_iff rfl ⟨StrongId.generate_not_nil entropy, task_named, session_named⟩
    (build_bounded {} events now entropy) ((length_constraints_le {} some_ scope).trans keys)
    ((length_uncertain_le {} events).trans actions)
  refine valid.trans ?_
  simp only [← foldAll_requires {} some_ scope]
  constructor
  · rintro keyed _ _ bare ⟨held, present, rfl, rfl⟩
    have full := keyed held present
    rcases bare with empty | empty
    · exact full.1 empty
    · exact full.2 empty
  · intro keyed held present
    have required : Requires (foldAll {} events) held.key held.requirement :=
      ⟨held, present, rfl, rfl⟩
    exact ⟨fun empty => keyed _ _ (.inl empty) required,
      fun empty => keyed _ _ (.inr empty) required⟩

def constraintEvent (key requirement : Bytes) : EventEnvelope :=
  { eventId := .filled 4
    runtimeId := .filled 1
    sessionId := .filled 2
    taskId := some (.filled 3)
    sessionSequence := 1
    payload :=
      { type := ascii "TaskConstraintAdded"
        data := canonicalJsonString (.object
          [(ascii "key", .string key), (ascii "requirement", .string requirement)]) } }

theorem keyed_constraint_valid :
    (build {} none [constraintEvent (ascii "door") (ascii "shut")] {} .nil).checkpoint.validate =
      .ok () := by
  have edit : constraintEdit (constraintEvent (ascii "door") (ascii "shut")) =
      some (ascii "door", some (ascii "shut")) := by
    decide +kernel
  have named : (StrongId.filled 3 : TaskId).isNil = false := by decide
  refine (build_valid_iff (List.cons_ne_nil _ _) named ?_ ?_ ?_ {} .nil).mpr ?_
  · exact fun event present => List.mem_singleton.mp present ▸ ⟨rfl, rfl⟩
  · decide +kernel
  · decide +kernel
  · rintro key requirement bare since
    obtain ⟨event, present, sets⟩ := since.exists_mem
    rw [List.mem_singleton.mp (mem_of_mem_unseen present), Sets, edit] at sets
    simp only [Option.some.injEq, Prod.mk.injEq] at sets
    obtain ⟨rfl, rfl⟩ := sets
    revert bare
    decide

/-- One event with an empty key, and no checkpoint of its task is valid. -/
theorem empty_key_invalid :
    (build {} none [constraintEvent [] (ascii "shut")] {} .nil).checkpoint.validate ≠ .ok () := by
  decide +kernel

end Mira.Checkpoint
