import Mira.Checkpoint.Wire
import Mira.Library.Roster

/-!
Reading a stored checkpoint back. It comes back unchanged exactly if the parser's limits
leave room for its texts, provenances and document, and none of its counters or times is
the one integer that the writer writes and the parser does not read.
-/

namespace Mira.Checkpoint
open Mira Bytes

def TaskCheckpoint.texts (checkpoint : TaskCheckpoint) : List Bytes :=
  checkpoint.goalStatement :: checkpoint.successCriterion.toList ++
    checkpoint.narrativeSummary.toList ++
    checkpoint.constraints.flatMap (fun held => [held.key, held.requirement]) ++
    checkpoint.verifiedFacts.flatMap (fun fact => [fact.key, fact.value]) ++
    checkpoint.completedSteps.map (·.summary) ++
    checkpoint.pendingObjectives.map (·.objective) ++
    checkpoint.unresolvedIssues.map (·.issue) ++
    checkpoint.uncertainSideEffects.flatMap (fun effect => [effect.actionKind, effect.reason]) ++
    checkpoint.recentActions.flatMap (fun summary => [summary.kind, summary.outcome])

def TaskCheckpoint.provenances (checkpoint : TaskCheckpoint) : List (List EventId) :=
  checkpoint.constraints.map (·.provenance) ++ checkpoint.verifiedFacts.map (·.provenance) ++
    checkpoint.completedSteps.map (·.provenance) ++
    checkpoint.pendingObjectives.map (·.provenance) ++
    checkpoint.unresolvedIssues.map (·.provenance) ++
    checkpoint.uncertainSideEffects.map (·.provenance)

def TaskCheckpoint.counters (checkpoint : TaskCheckpoint) : List Nat :=
  checkpoint.taskEpoch :: checkpoint.environmentEpoch :: checkpoint.throughEventSequence ::
    checkpoint.currentObservation.toList.map (·.sequence) ++
    checkpoint.recentActions.map (·.sequence)

def TaskCheckpoint.times (checkpoint : TaskCheckpoint) : List Int :=
  [checkpoint.createdAt.wall, checkpoint.createdAt.monotonic]

section Kinds
variable {checkpoint : TaskCheckpoint}

theorem forall_texts {p : Bytes → Prop} :
    (∀ text ∈ checkpoint.texts, p text) ↔
      p checkpoint.goalStatement ∧ (∀ text ∈ checkpoint.successCriterion, p text) ∧
      (∀ text ∈ checkpoint.narrativeSummary, p text) ∧
      (∀ held ∈ checkpoint.constraints, p held.key ∧ p held.requirement) ∧
      (∀ fact ∈ checkpoint.verifiedFacts, p fact.key ∧ p fact.value) ∧
      (∀ step ∈ checkpoint.completedSteps, p step.summary) ∧
      (∀ held ∈ checkpoint.pendingObjectives, p held.objective) ∧
      (∀ held ∈ checkpoint.unresolvedIssues, p held.issue) ∧
      (∀ effect ∈ checkpoint.uncertainSideEffects, p effect.actionKind ∧ p effect.reason) ∧
      (∀ summary ∈ checkpoint.recentActions, p summary.kind ∧ p summary.outcome) := by
  simp only [TaskCheckpoint.texts, List.forall_mem_append, List.forall_mem_cons,
    List.forall_mem_map, List.forall_mem_flatMap, Option.mem_toList, Option.mem_def,
    List.not_mem_nil, IsEmpty.forall_iff, implies_true, and_true, and_assoc]

theorem forall_provenances {p : List EventId → Prop} :
    (∀ ids ∈ checkpoint.provenances, p ids) ↔
      (∀ held ∈ checkpoint.constraints, p held.provenance) ∧
      (∀ fact ∈ checkpoint.verifiedFacts, p fact.provenance) ∧
      (∀ step ∈ checkpoint.completedSteps, p step.provenance) ∧
      (∀ held ∈ checkpoint.pendingObjectives, p held.provenance) ∧
      (∀ held ∈ checkpoint.unresolvedIssues, p held.provenance) ∧
      (∀ effect ∈ checkpoint.uncertainSideEffects, p effect.provenance) := by
  simp only [TaskCheckpoint.provenances, List.forall_mem_append, List.forall_mem_map, and_assoc]

theorem forall_counters {p : Nat → Prop} :
    (∀ counter ∈ checkpoint.counters, p counter) ↔
      p checkpoint.taskEpoch ∧ p checkpoint.environmentEpoch ∧
      p checkpoint.throughEventSequence ∧
      (∀ reference ∈ checkpoint.currentObservation, p reference.sequence) ∧
      (∀ summary ∈ checkpoint.recentActions, p summary.sequence) := by
  simp only [TaskCheckpoint.counters, List.forall_mem_append, List.forall_mem_cons,
    List.forall_mem_map, Option.mem_toList, Option.mem_def, List.cons_append]

end Kinds

/-- The values that the machine words of a checkpoint can hold. -/
structure WordSized (checkpoint : TaskCheckpoint) : Prop where
  counters : ∀ counter ∈ checkpoint.counters, counter < 2 ^ 64
  times : ∀ time ∈ checkpoint.times, -2 ^ 63 ≤ time ∧ time < 2 ^ 63
  bounds : ∀ fact ∈ checkpoint.verifiedFacts, ∀ bound ∈ fact.validFrom.toList ++
    fact.validUntil.toList, -2 ^ 63 ≤ bound ∧ bound < 2 ^ 63
  schema : checkpoint.schemaVersion.major < 2 ^ 16 ∧ checkpoint.schemaVersion.minor < 2 ^ 16

def storeOpenError (code : ErrorCode) (message : String) : Error :=
  { code := code, domain := "mira.state_store.checkpoint", safeMessage := message }

/-- `decode_row`. -/
def decodeRow (document : Bytes) : Result TaskCheckpoint :=
  match parseJson document with
  | .error _ => .error (storeOpenError .dataLoss "checkpoint document is not valid JSON")
  | .ok parsed =>
      match checkpointFromJson parsed with
      | .error _ =>
          .error (storeOpenError .unsupportedVersion
            "checkpoint document schema is not supported by this reader")
      | .ok checkpoint => .ok checkpoint

def TaskCheckpoint.document (checkpoint : TaskCheckpoint) : Bytes :=
  toJsonString (checkpointToJson checkpoint)

/-- What fits the limits of the parser. -/
structure Storable (checkpoint : TaskCheckpoint) : Prop where
  texts : ∀ text ∈ checkpoint.texts, text.length < 1024 * 1024
  provenances : ∀ ids ∈ checkpoint.provenances, ids.length ≤ 100000
  counters : ∀ counter ∈ checkpoint.counters, counter ≠ 2 ^ 63
  times : ∀ time ∈ checkpoint.times, time ≠ -2 ^ 63
  document : checkpoint.document.length ≤ 4 * 1024 * 1024

section Decoder
variable {checkpoint : TaskCheckpoint}

variable {key : String} (index : Nat)

theorem stringMember_at {value : Option Bytes}
    (listed : (checkpointEntries checkpoint)[index]? = some (ascii key, value.map .string)) :
    stringMember (checkpointToJson checkpoint) key = value := by
  rw [stringMember, find_checkpoint index listed]
  cases value <;> rfl

theorem identifierMember_at {tag : IdTag} {id : StrongId tag}
    (listed : (checkpointEntries checkpoint)[index]? =
      some (ascii key, (some id.toString).map .string)) :
    identifierMember (checkpointToJson checkpoint) key = id := by
  rw [identifierMember, stringMember_at index listed, Option.bind_some, StrongId.parse_toString]
  rfl

theorem integerMember_at {value : Int}
    (listed : (checkpointEntries checkpoint)[index]? = some (ascii key, some (.integer value))) :
    integerMember (checkpointToJson checkpoint) key = some value := by
  rw [integerMember, find_checkpoint index listed]

theorem counterMember_at {counter : Nat} (listed : (checkpointEntries checkpoint)[index]? =
      some (ascii key, some (.integer (toInt64 counter)))) (small : counter < 2 ^ 64) :
    counterMember (checkpointToJson checkpoint) key = counter := by
  rw [counterMember, integerMember_at index listed, Option.map_some, toUnsigned_toInt64 small]
  rfl

theorem objectsMember_at {α : Type} {decode : JsonValue → α} {encode : α → JsonValue}
    {items : List α} (listed : (checkpointEntries checkpoint)[index]? =
      some (ascii key, some (.array (items.map encode))))
    (objects : ∀ item, (encode item).isObject = true)
    (inverse : ∀ item ∈ items, decode (encode item) = item) :
    objectsMember decode (checkpointToJson checkpoint) key = items :=
  objectsMember_map (find_checkpoint index listed) objects inverse

theorem schemaFrom_toJson
    (small : checkpoint.schemaVersion.major < 2 ^ 16 ∧ checkpoint.schemaVersion.minor < 2 ^ 16) :
    schemaFrom (checkpointToJson checkpoint) = checkpoint.schemaVersion := by
  rw [schemaFrom, find_checkpoint 0 rfl]
  have read : (⟨toUnsigned 16 checkpoint.schemaVersion.major,
      toUnsigned 16 checkpoint.schemaVersion.minor⟩ : SchemaVersion) = checkpoint.schemaVersion := by
    rw [toUnsigned_small small.1, toUnsigned_small small.2]
  exact read

theorem timestampFrom_toJson : timestampFrom (checkpointToJson checkpoint) = checkpoint.createdAt := by
  rw [timestampFrom, integerMember_at 7 rfl, integerMember_at 8 rfl]
  rfl

theorem observation_toJson (sized : WordSized checkpoint) :
    (((checkpointToJson checkpoint).find (ascii "current_observation")).filter
      JsonValue.isObject).map observationRefFrom = checkpoint.currentObservation := by
  rw [find_checkpoint 17 rfl]
  cases held : checkpoint.currentObservation with
  | none => rfl
  | some reference =>
      have small : reference.sequence < 2 ^ 64 :=
        sized.counters _ (by simp [TaskCheckpoint.counters, held])
      exact congrArg some (observationRefFrom_toJson small)

theorem terminal_toJson (terminal : ∀ state, checkpoint.terminalState = some state →
    state.isTerminal = true) :
    (stringMember (checkpointToJson checkpoint) "terminal_state").bind taskStateFromName =
      checkpoint.terminalState := by
  rw [stringMember, find_checkpoint 20 rfl]
  cases held : checkpoint.terminalState with
  | none => rfl
  | some state =>
      have named : taskStateFromName (ascii (taskStateName state)) = some state := by
        cases state <;> decide
      simp only [Option.map_some, terminal state held, if_true]
      exact named

theorem checkpointFrom_toJson (sized : WordSized checkpoint)
    (terminal : ∀ state, checkpoint.terminalState = some state → state.isTerminal = true) :
    checkpointFrom (checkpointToJson checkpoint) checkpoint.id = checkpoint := by
  have epochs := List.forall_mem_cons.mp sized.counters
  have environments := List.forall_mem_cons.mp epochs.2
  have sequences := List.forall_mem_cons.mp environments.2
  have actions : ∀ summary ∈ checkpoint.recentActions, summary.sequence < 2 ^ 64 := by
    intro summary present
    exact sized.counters _ (List.mem_append_right _ (List.mem_map_of_mem present))
  have goal : stringMember (checkpointToJson checkpoint) "goal_statement" =
      some checkpoint.goalStatement := stringMember_at 9 rfl
  have criterion : stringMember (checkpointToJson checkpoint) "success_criterion" =
      checkpoint.successCriterion := stringMember_at 10 rfl
  have narrative : stringMember (checkpointToJson checkpoint) "narrative_summary" =
      checkpoint.narrativeSummary := stringMember_at 21 rfl
  rw [checkpointFrom, schemaFrom_toJson sized.schema, timestampFrom_toJson,
    observation_toJson sized, terminal_toJson terminal,
    identifierMember_at 2 rfl, identifierMember_at 3 rfl,
    counterMember_at 4 rfl epochs.1, counterMember_at 5 rfl environments.1,
    counterMember_at 6 rfl sequences.1, textMember, goal, criterion, narrative,
    objectsMember_at 11 rfl (fun _ => rfl) (fun item _ => constraintFrom_toJson item),
    objectsMember_at 12 rfl (fun _ => rfl) (fun item _ => checkpointFactFrom_toJson item),
    objectsMember_at 13 rfl (fun _ => rfl) (fun item _ => stepFrom_toJson item),
    objectsMember_at 14 rfl (fun _ => rfl) (fun item _ => objectiveFrom_toJson item),
    objectsMember_at 15 rfl (fun _ => rfl) (fun item _ => issueFrom_toJson item),
    objectsMember_at 16 rfl (fun _ => rfl) (fun item _ => sideEffectFrom_toJson item),
    objectsMember_at 18 rfl (fun _ => rfl)
      (fun item present => actionSummaryFrom_toJson (actions item present)),
    find_checkpoint 19 rfl]
  rfl

end Decoder

/-!
The table of the SQLite checkpoint store. A row is inserted or updated by its keys, the
rows beyond the bound are pruned, and every query orders the rows again.
-/

/-- The columns that a query reads. The texts of identifiers determine them. -/
structure CheckpointRow where
  taskId : TaskId
  checkpointId : CheckpointId
  sequence : Int
  createdAt : Int
  document : Bytes

def rowOf (checkpoint : TaskCheckpoint) : CheckpointRow :=
  { taskId := checkpoint.taskId
    checkpointId := checkpoint.id
    sequence := toInt64 checkpoint.throughEventSequence
    createdAt := checkpoint.createdAt.wall
    document := checkpoint.document }

/-- `ORDER BY sequence DESC, created_at DESC`. -/
def CheckpointRow.before (left right : CheckpointRow) : Prop :=
  right.sequence < left.sequence ∨
    (right.sequence = left.sequence ∧ right.createdAt ≤ left.createdAt)

instance (left right : CheckpointRow) : Decidable (left.before right) :=
  inferInstanceAs (Decidable (_ ∨ _))

instance : Std.Total CheckpointRow.before :=
  ⟨fun left right => by simp only [CheckpointRow.before]; omega⟩

instance : IsTrans CheckpointRow CheckpointRow.before :=
  ⟨fun a b c => by simp only [CheckpointRow.before]; omega⟩

def orderedRows (rows : List CheckpointRow) : List CheckpointRow :=
  rows.insertionSort CheckpointRow.before

/-- `LIMIT`: a negative one is none. -/
def limited (limit : Int) (rows : List CheckpointRow) : List CheckpointRow :=
  if limit < 0 then rows else rows.take limit.toNat

structure SqliteCheckpointStore where
  maxCheckpointsPerTask : Nat := 64
  rows : List CheckpointRow := []

namespace SqliteCheckpointStore

def rowsOf (store : SqliteCheckpointStore) (task : TaskId) : List CheckpointRow :=
  store.rows.filter fun row => row.taskId = task

/-- `INSERT ... ON CONFLICT(task_id, checkpoint_id) DO UPDATE`. -/
def upsert (row : CheckpointRow) (rows : List CheckpointRow) : List CheckpointRow :=
  Roster.put (fun row => (row.taskId, row.checkpointId)) row rows

/-- Deletes the rows of the task that are not among the first ones in order. -/
def prune (limit : Int) (task : TaskId) (rows : List CheckpointRow) : List CheckpointRow :=
  let kept := limited limit (orderedRows (rows.filter fun row => row.taskId = task))
  rows.filter fun row => row.taskId ≠ task || row.checkpointId ∈ kept.map (·.checkpointId)

def put (store : SqliteCheckpointStore) (checkpoint : TaskCheckpoint) :
    SqliteCheckpointStore × Result Unit :=
  match checkpoint.validate with
  | .error reason => (store, .error reason)
  | .ok () =>
      ({ store with
          rows := prune (toInt64 store.maxCheckpointsPerTask) checkpoint.taskId
            (upsert (rowOf checkpoint) store.rows) }, .ok ())

def firstDecoded (rows : List CheckpointRow) : Result (Option TaskCheckpoint) :=
  match (orderedRows rows).head? with
  | none => .ok none
  | some row => (decodeRow row.document).map some

/-- The largest unsigned value means that there is no bound. -/
def selectLatest (store : SqliteCheckpointStore) (task : TaskId) (cap : Option Nat) :
    Result (Option TaskCheckpoint) :=
  match cap.filter fun bound => bound < 2 ^ 64 - 1 with
  | none => firstDecoded (store.rowsOf task)
  | some bound =>
      firstDecoded ((store.rowsOf task).filter fun row => row.sequence ≤ toInt64 bound)

def latest (store : SqliteCheckpointStore) (task : TaskId) : Result (Option TaskCheckpoint) :=
  store.selectLatest task none

def latestAtOrBefore (store : SqliteCheckpointStore) (task : TaskId) (maxSequence : Nat) :
    Result (Option TaskCheckpoint) :=
  store.selectLatest task (some maxSequence)

def count (store : SqliteCheckpointStore) (task : TaskId) : Nat := (store.rowsOf task).length

def eraseTask (store : SqliteCheckpointStore) (task : TaskId) : SqliteCheckpointStore × Nat :=
  ({ store with rows := store.rows.filter fun row => row.taskId ≠ task }, store.count task)

variable (row : CheckpointRow) (rows : List CheckpointRow) (task : TaskId)

theorem filter_replace :
    ((Roster.replace (fun row => (row.taskId, row.checkpointId)) row rows).filter
        fun row => row.taskId = task) =
      if row.taskId = task then
        Roster.replace (·.checkpointId) row (rows.filter fun row => row.taskId = task)
      else rows.filter fun row => row.taskId = task := by
  induction rows with
  | nil => simp [Roster.replace]
  | cons first rest ih =>
      rw [Roster.replace]
      by_cases same : (first.taskId, first.checkpointId) = (row.taskId, row.checkpointId)
      · obtain ⟨task_eq, id_eq⟩ := Prod.mk.inj same
        rw [if_pos same, List.filter_cons, List.filter_cons, task_eq]
        by_cases own : row.taskId = task
        · simp only [own, decide_true, if_true, Roster.replace, id_eq]
        · simp only [own, decide_false, if_false, Bool.false_eq_true]
      · rw [if_neg same, List.filter_cons, List.filter_cons, ih]
        by_cases own : row.taskId = task
        · simp only [own, if_true]
          by_cases listed : first.taskId = task
          · have other : first.checkpointId ≠ row.checkpointId := by
              intro id_eq
              rw [listed, own, id_eq] at same
              exact same rfl
            simp only [listed, decide_true, if_true, Roster.replace, other, if_false]
          · simp only [listed, decide_false, Bool.false_eq_true, if_false]
        · simp only [own, if_false]

theorem holds_rows :
    Roster.holds (fun row => (row.taskId, row.checkpointId)) (row.taskId, row.checkpointId) rows =
      Roster.holds (·.checkpointId) row.checkpointId
        (rows.filter fun held => held.taskId = row.taskId) := by
  rw [Bool.eq_iff_iff, Roster.holds_iff, Roster.holds_iff]
  simp only [List.mem_map, List.mem_filter, decide_eq_true_eq, Prod.mk.injEq]
  constructor
  · intro found
    obtain ⟨held, present, task, id⟩ := found
    exact ⟨held, ⟨present, task⟩, id⟩
  · intro found
    obtain ⟨held, ⟨present, task⟩, id⟩ := found
    exact ⟨held, present, task, id⟩

theorem filter_upsert :
    ((upsert row rows).filter fun row => row.taskId = task) =
      if row.taskId = task then
        Roster.put (·.checkpointId) row (rows.filter fun row => row.taskId = task)
      else rows.filter fun row => row.taskId = task := by
  simp only [upsert, Roster.put, holds_rows]
  by_cases own : row.taskId = task
  · subst own
    rw [if_pos rfl, apply_ite (List.filter _), filter_replace, if_pos rfl, List.filter_append]
    simp
  · rw [if_neg own, apply_ite (List.filter _), filter_replace, if_neg own, List.filter_append]
    simp [own]

theorem filter_prune (limit : Int) (task other : TaskId) (rows : List CheckpointRow) :
    ((prune limit task rows).filter fun row => row.taskId = other) =
      if other = task then
        (rows.filter fun row => row.taskId = other).filter fun row =>
          row.checkpointId ∈ (limited limit
            (orderedRows (rows.filter fun row => row.taskId = other))).map (·.checkpointId)
      else rows.filter fun row => row.taskId = other := by
  simp only [prune, List.filter_filter]
  by_cases own : other = task
  · subst own
    rw [if_pos rfl]
    apply List.filter_congr
    intro row _
    by_cases listed : row.taskId = other <;> simp [listed]
  · rw [if_neg own]
    apply List.filter_congr
    intro row _
    by_cases listed : row.taskId = other
    · have elsewhere : row.taskId ≠ task := fun same => own (listed.symm.trans same)
      simp [listed, own]
    · simp [listed]

theorem put_rowsOf {store : SqliteCheckpointStore} {checkpoint : TaskCheckpoint}
    (valid : checkpoint.validate = .ok ()) (task : TaskId) :
    (store.put checkpoint).1.rowsOf task =
      if task = checkpoint.taskId then
        let rows := Roster.put (·.checkpointId) (rowOf checkpoint) (store.rowsOf task)
        rows.filter fun row => row.checkpointId ∈
          (limited (toInt64 store.maxCheckpointsPerTask) (orderedRows rows)).map (·.checkpointId)
      else store.rowsOf task := by
  simp only [put, valid, rowsOf]
  rw [filter_prune, filter_upsert]
  by_cases own : task = checkpoint.taskId
  · subst own
    have same : (rowOf checkpoint).taskId = checkpoint.taskId := rfl
    simp only [same, if_true]
    rfl
  · have other : (rowOf checkpoint).taskId ≠ task := fun same => own same.symm
    rw [if_neg own, if_neg other, if_neg own]

theorem eraseTask_rowsOf (store : SqliteCheckpointStore) (erased task : TaskId) :
    (store.eraseTask erased).1.rowsOf task = if task = erased then [] else store.rowsOf task := by
  simp only [eraseTask, rowsOf, List.filter_filter]
  by_cases own : task = erased
  · subst own
    rw [if_pos rfl, List.filter_eq_nil_iff]
    intro row _
    simp
  · rw [if_neg own]
    apply List.filter_congr
    intro row _
    by_cases listed : row.taskId = task
    · simp [listed, own]
    · simp [listed]

end SqliteCheckpointStore

end Mira.Checkpoint
