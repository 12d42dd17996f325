import Mira.Checkpoint.Effects

/-!
Incremental and full rebuilds. What a build folds depends only on the events the
projection has not seen, so a build on a base agrees with a full rebuild as long as
the base is what folding the earlier events leaves. It is not when the first build
dropped a fact that was not valid at its time, nor when there were no events to
take the identity from.
-/

namespace Mira.Checkpoint
open Mira Bytes Events

section Seen
variable (config : CheckpointReducerConfig)

variable (projection : Projection)

theorem foldStep_through (event : EventEnvelope) :
    projection.throughEventSequence ≤ (foldStep config projection event).1.throughEventSequence ∧
      (Folds projection event → event.sessionSequence ≤
        (foldStep config projection event).1.throughEventSequence) := by
  rcases foldStep_cases config projection event with ⟨folds, result⟩ | ⟨skips, result⟩
  · have through := (applyEvent_identity config
      { projection with throughEventSequence := event.sessionSequence } event).through
    rw [result]
    dsimp only
    rw [through]
    exact ⟨folds.2.le, fun _ => le_rfl⟩
  · rw [result]
    exact ⟨le_rfl, fun folds => absurd folds skips⟩

variable (events : List EventEnvelope)

theorem run_through_le :
    projection.throughEventSequence ≤
      (Execution.run (foldStep config) projection events).throughEventSequence := by
  refine Execution.run_relation (foldStep config) (fun _ => True)
    (fun before after => before.throughEventSequence ≤ after.throughEventSequence)
    (fun _ => le_rfl) le_trans (fun _ _ _ => trivial) ?_ projection events trivial
  intro reached event _
  exact (foldStep_through config reached event).1

theorem seen_after_run {task : TaskId} {projection : Projection} (own : projection.taskId = task)
    (events : List EventEnvelope) :
    ∀ event ∈ events, event.taskId = some task → event.sessionSequence ≤
      (Execution.run (foldStep config) projection events).throughEventSequence := by
  induction events generalizing projection with
  | nil => nofun
  | cons first rest ih =>
      have own' := (foldStep_identity config projection first).1.trans own
      intro event present named
      rcases List.mem_cons.mp present with rfl | later
      · have through := foldStep_through config projection event
        have folded : event.sessionSequence ≤
            (foldStep config projection event).1.throughEventSequence := by
          by_cases seen : event.sessionSequence ≤ projection.throughEventSequence
          · exact seen.trans through.1
          · refine through.2 ⟨?_, not_le.mp seen⟩
            intro other scope
            rw [own]
            exact Option.some.inj (scope.symm.trans named)
        exact folded.trans (run_through_le config _ rest)
      · exact ih own' event later named

theorem run_seen (seen : ∀ event ∈ events, event.sessionSequence ≤ projection.throughEventSequence) :
    Execution.run (foldStep config) projection events = projection := by
  induction events with
  | nil => rfl
  | cons event rest ih =>
      have skipped : (foldStep config projection event).1 = projection := by
        rcases foldStep_cases config projection event with ⟨folds, _⟩ | ⟨_, result⟩
        · exact absurd folds.2 (not_lt.mpr (seen event List.mem_cons_self))
        · rw [result]
      rw [Execution.run, skipped]
      exact ih fun later present => seen later (List.mem_cons_of_mem _ present)

end Seen

def Projection.withFacts (facts : List VerifiedFact) (projection : Projection) : Projection :=
  { projection with verifiedFacts := facts }

/-- The events that state no fact. -/
def Factless (event : EventEnvelope) : Prop :=
  taskEventFrom event.payload.type ≠ some .factVerified

section Facts
variable (config : CheckpointReducerConfig) (facts : List VerifiedFact)

theorem applyJsonEvent_withFacts {kind : TaskEvent} (factless : kind ≠ .factVerified)
    (projection : Projection) (payload : JsonValue) (event : EventEnvelope) :
    applyJsonEvent config (projection.withFacts facts) kind payload event =
      (applyJsonEvent config projection kind payload event).map (.withFacts facts) id := by
  cases kind with
  | factVerified => exact absurd rfl factless
  | stateChanged =>
      simp only [applyJsonEvent]
      split
      · rfl
      · rw [apply_ite (Prod.map (Projection.withFacts facts) id),
          apply_ite (Prod.map (Projection.withFacts facts) id)]
        rfl
  | loopSettled =>
      simp only [applyJsonEvent]
      split
      · rfl
      · rw [apply_ite (Prod.map (Projection.withFacts facts) id)]
        rfl
  | _ =>
      simp only [applyJsonEvent]
      repeat' first | rfl | split

variable (projection : Projection)

theorem applyJournalEvent_withFacts (kind : JournalEvent) (parsed : Journal.Payload)
    (event : EventEnvelope) :
    applyJournalEvent config (projection.withFacts facts) kind parsed event =
      (applyJournalEvent config projection kind parsed event).withFacts facts := by
  cases kind with
  | executionUncertain =>
      simp only [applyJournalEvent]
      rw [apply_ite (Projection.withFacts facts)]
      rfl
  | _ => rfl

theorem unwrap_withFacts (kind : TaskEvent) (body : JsonValue) (event : EventEnvelope) :
    unwrap (projection.withFacts facts) kind body event =
      (unwrap projection kind body event).map fun (detail, next) =>
        (detail, next.withFacts facts) := by
  unfold unwrap
  split
  · rfl
  · split
    · rfl
    · split
      · rfl
      · rw [apply_ite (Except.map _)]
        rfl

theorem applyEvent_withFacts {event : EventEnvelope} (factless : Factless event) :
    applyEvent config (projection.withFacts facts) event =
      (applyEvent config projection event).map (.withFacts facts) id := by
  unfold applyEvent
  split
  · split
    · rfl
    · rw [applyJournalEvent_withFacts]
      rfl
  · split
    · rfl
    · split
      · rfl
      · next kind type =>
          rw [unwrap_withFacts]
          cases unwrap projection kind _ event with
          | error => rfl
          | ok unwrapped =>
              refine applyJsonEvent_withFacts config facts ?_ unwrapped.2 unwrapped.1 event
              rintro rfl
              exact factless type

theorem foldStep_withFacts {event : EventEnvelope} (factless : Factless event) :
    foldStep config (projection.withFacts facts) event =
      (foldStep config projection event).map (.withFacts facts) id := by
  have applied : applyEvent config { projection.withFacts facts with
      throughEventSequence := event.sessionSequence } event = _ :=
    applyEvent_withFacts config facts
      { projection with throughEventSequence := event.sessionSequence } factless
  rcases foldStep_cases config projection event with ⟨folds, result⟩ | ⟨skips, result⟩ <;>
    rcases foldStep_cases config (projection.withFacts facts) event with
      ⟨folds', result'⟩ | ⟨skips', result'⟩
  · rw [result, result', applied]
    rfl
  · exact absurd folds skips'
  · exact absurd folds' skips
  · rw [result, result']
    rfl

variable {events : List EventEnvelope}

theorem run_withFacts (factless : ∀ event ∈ events, Factless event) :
    Execution.run (foldStep config) (projection.withFacts facts) events =
      (Execution.run (foldStep config) projection events).withFacts facts := by
  induction events generalizing projection with
  | nil => rfl
  | cons event rest ih =>
      have step := foldStep_withFacts config facts projection (factless event List.mem_cons_self)
      rw [Execution.run, Execution.run, step]
      exact ih _ fun later present => factless later (List.mem_cons_of_mem _ present)

theorem run_facts (factless : ∀ event ∈ events, Factless event) :
    (Execution.run (foldStep config) projection events).verifiedFacts =
      projection.verifiedFacts := by
  have same : Execution.run (foldStep config) projection events = _ :=
    run_withFacts config projection.verifiedFacts projection factless
  rw [same]
  rfl

end Facts

variable {seen : List EventEnvelope} {task : TaskId}

theorem adopt_append (some_ : seen ≠ []) (own : ∀ event ∈ seen, event.taskId = some task)
    (later : List EventEnvelope) : adopt (seen ++ later) = adopt seen := by
  cases seen with
  | nil => exact absurd rfl some_
  | cons first rest =>
      have scope := own first List.mem_cons_self
      simp [adopt, scope]

section Rebuild
variable (config : CheckpointReducerConfig) {task : TaskId} {seen : List EventEnvelope}

theorem foldAll_append (some_ : seen ≠ []) (own : ∀ event ∈ seen, event.taskId = some task)
    (later : List EventEnvelope) :
    foldAll config (seen ++ later) =
      Execution.run (foldStep config) (foldAll config seen) later := by
  rw [foldAll, adopt_append some_ own, Execution.run_append]
  rfl

theorem run_again (some_ : seen ≠ []) (own : ∀ event ∈ seen, event.taskId = some task)
    (later : List EventEnvelope) (facts : List VerifiedFact) :
    Execution.run (foldStep config) ((foldAll config seen).withFacts facts) (seen ++ later) =
      Execution.run (foldStep config) ((foldAll config seen).withFacts facts) later := by
  have again : Execution.run (foldStep config) ((foldAll config seen).withFacts facts) seen =
      (foldAll config seen).withFacts facts := by
    refine run_seen config _ seen fun event present => ?_
    exact seen_after_run config (adopt_task some_ own) seen event present (own event present)
  rw [Execution.run_append, again]

/-- The facts a build at that time keeps. -/
def keptFacts (now : Timestamp) (projection : Projection) : List VerifiedFact :=
  projection.verifiedFacts.filter fun fact => fact.validAt now.wall

theorem build_full (events : List EventEnvelope) (now : Timestamp) (entropy : Id128) :
    (build config none events now entropy).checkpoint.toProjection =
      (foldAll config events).withFacts (keptFacts now (foldAll config events)) := rfl

theorem build_incremental (some_ : seen ≠ []) (own : ∀ event ∈ seen, event.taskId = some task)
    (later : List EventEnvelope) (first second : Timestamp) (entropy entropy' : Id128) :
    (build config (some (build config none seen first entropy).checkpoint) (seen ++ later) second
        entropy').checkpoint.toProjection =
      let folded := Execution.run (foldStep config)
        ((foldAll config seen).withFacts (keptFacts first (foldAll config seen))) later
      folded.withFacts (keptFacts second folded) := by
  rw [← run_again config some_ own]
  rfl

/-- All fields that the digest covers are the same, and so is the digest. -/
structure SameProjection (left right : TaskCheckpoint) : Prop where
  fields : left.toProjection = right.toProjection
  digest : left.projectionDigest = right.projectionDigest

theorem sameProjection_iff {left right : TaskCheckpoint}
    (schema : left.schemaVersion = right.schemaVersion) :
    SameProjection left right ↔ left.toProjection = right.toProjection := by
  refine ⟨SameProjection.fields, fun same => ⟨same, ?_⟩⟩
  obtain ⟨fields, _, _, _, version⟩ := left
  obtain ⟨fields', _, _, _, version'⟩ := right
  dsimp only at same schema
  subst same schema
  rfl

theorem keptFacts_all {now : Timestamp} {projection : Projection}
    (valid : ∀ fact ∈ projection.verifiedFacts, fact.validAt now.wall = true) :
    projection.withFacts (keptFacts now projection) = projection := by
  rw [keptFacts, List.filter_eq_self.mpr valid]
  rfl

theorem filter_filter_eq_iff {facts : List VerifiedFact} {first second : VerifiedFact → Bool} :
    (facts.filter first).filter second = facts.filter second ↔
      ∀ fact ∈ facts, second fact = true → first fact = true := by
  constructor
  · intro same fact present later
    have kept : fact ∈ (facts.filter first).filter second :=
      same ▸ List.mem_filter.mpr ⟨present, later⟩
    exact (List.mem_filter.mp (List.mem_filter.mp kept).1).2
  · intro earlier
    rw [List.filter_filter]
    refine List.filter_congr fun fact present => ?_
    exact Bool.and_eq_left_iff_imp.mpr (earlier fact present)

/-- When an incremental rebuild agrees with a full one. Without earlier events it does
only if there are none at all. With some it does if the first build dropped no fact;
and if the later events state none, then exactly if no fact it dropped is valid at the
time of the second build. -/
theorem incremental_rebuild (named : task.isNil = false) (later : List EventEnvelope)
    (own : ∀ event ∈ seen ++ later, event.taskId = some task) (first second : Timestamp)
    (entropy entropy' entropy'' : Id128) :
    let base := (build config none seen first entropy).checkpoint
    let incremental := (build config (some base) (seen ++ later) second entropy').checkpoint
    let full := (build config none (seen ++ later) second entropy'').checkpoint
    let held := (foldAll config seen).verifiedFacts
    (seen = [] → (SameProjection incremental full ↔ later = [])) ∧
    (seen ≠ [] → (∀ fact ∈ held, fact.validAt first.wall = true) →
      SameProjection incremental full) ∧
    (seen ≠ [] → (∀ event ∈ later, Factless event) → (SameProjection incremental full ↔
      ∀ fact ∈ held, fact.validAt second.wall = true → fact.validAt first.wall = true)) := by
  intro base incremental full held
  have own' : ∀ event ∈ seen, event.taskId = some task :=
    fun event present => own event (List.mem_append_left _ present)
  have schema : incremental.schemaVersion = full.schemaVersion := rfl
  rw [sameProjection_iff schema]
  refine ⟨?_, ?_, ?_⟩
  · rintro rfl
    constructor
    · intro same
      by_contra some_
      have adopted : full.taskId = task :=
        (run_identity config _ later).1.trans (adopt_task some_ own)
      have nil : incremental.taskId = default := (run_identity config _ later).1
      have task_nil : task = default := by rw [← adopted, ← same, nil]
      rw [task_nil] at named
      cases named
    · rintro rfl
      rfl
  · intro some_ valid
    have incremental_eq := build_incremental config some_ own' later first second entropy entropy'
    have full_eq := build_full config (seen ++ later) second entropy''
    rw [keptFacts_all valid] at incremental_eq
    rw [foldAll_append config some_ own'] at full_eq
    exact incremental_eq.trans full_eq.symm
  · intro some_ factless
    have incremental_eq := build_incremental config some_ own' later first second entropy entropy'
    have full_eq := build_full config (seen ++ later) second entropy''
    rw [run_withFacts config _ _ factless] at incremental_eq
    rw [foldAll_append config some_ own'] at full_eq
    have kept := run_facts config (foldAll config seen) factless
    rw [incremental_eq, full_eq, ← filter_filter_eq_iff]
    constructor
    · intro same
      simpa [keptFacts, Projection.withFacts, kept] using congrArg Projection.verifiedFacts same
    · intro same
      simp only [keptFacts, Projection.withFacts, kept]
      rw [same]

end Rebuild

def intervalFact : PublishedTaskFact :=
  { runtime := .filled 1
    session := .filled 2
    scope := { subjectId := ascii "desk" }
    claim :=
      { publicationId := .filled 4, task := .filled 3, key := ascii "door", value := ascii "open"
        evidenceEvent := .filled 5, evidenceDigest := .zero, verifier := ascii "camera"
        validFrom := 100, validUntil := 200 } }

def intervalFactEvent : EventEnvelope :=
  { eventId := .filled 4
    runtimeId := .filled 1
    sessionId := .filled 2
    taskId := some (.filled 3)
    sessionSequence := 1
    payload := payloadFor intervalFact }

/-- Built inside the interval, both agree. -/
theorem current_fact_kept :
    SameProjection
      (build {} (some (build {} none [intervalFactEvent] { wall := 100 } .nil).checkpoint)
        ([intervalFactEvent] ++ []) { wall := 150 } .nil).checkpoint
      (build {} none ([intervalFactEvent] ++ []) { wall := 150 } .nil).checkpoint := by
  have own : ∀ event ∈ [intervalFactEvent] ++ [], event.taskId = some (.filled 3) := by
    simp [intervalFactEvent]
  have rebuild := incremental_rebuild {} (by decide) [] own { wall := 100 } { wall := 150 }
    .nil .nil .nil
  exact rebuild.2.1 (by simp) (by decide +kernel)

/-- Built before its start, the fact is gone from all later incremental rebuilds. -/
theorem future_fact_lost :
    let base := (build {} none [intervalFactEvent] { wall := 50 } .nil).checkpoint
    let incremental := (build {} (some base) ([intervalFactEvent] ++ []) { wall := 150 } .nil).checkpoint
    let full := (build {} none ([intervalFactEvent] ++ []) { wall := 150 } .nil).checkpoint
    incremental.verifiedFacts = [] ∧ full.verifiedFacts.length = 1 ∧
      incremental.projectionDigest ≠ full.projectionDigest := by
  decide +kernel

/-!
Checkpoints that were built from the events of a task, in one pass or onto earlier
ones. The facts they hold depend on when they were built. Everything else is what
folding the events leaves, because no event reads the facts.
-/

def Projection.core (projection : Projection) : Projection := projection.withFacts []

theorem core_eq_iff {left right : Projection} :
    left.core = right.core ↔ left = right.withFacts left.verifiedFacts := by
  constructor
  · intro same
    have given : left = left.core.withFacts left.verifiedFacts := rfl
    rw [given, same]
    rfl
  · intro same
    rw [same]
    rfl

section Core
variable (config : CheckpointReducerConfig) (facts : List VerifiedFact)

variable (projection : Projection) (event : EventEnvelope)

theorem factOf_withFacts (payload : JsonValue) :
    factOf (projection.withFacts facts) payload event =
      (factOf projection payload event).map fun (fact, next) => (fact, next.withFacts facts) := by
  simp only [factOf]
  split
  · cases parsePublishedTaskFact event with
    | error reason => rfl
    | ok published =>
        rw [apply_ite (Except.map _)]
        rfl
  · split <;> rfl

theorem applyJsonEvent_core (kind : TaskEvent) (payload : JsonValue) (event : EventEnvelope) :
    (applyJsonEvent config (projection.withFacts facts) kind payload event).map Projection.core id =
      (applyJsonEvent config projection kind payload event).map Projection.core id := by
  by_cases fact : kind = .factVerified
  · subst fact
    simp only [applyJsonEvent, factOf_withFacts]
    cases factOf projection payload event with
    | error outcome => rfl
    | ok found => rfl
  · rw [applyJsonEvent_withFacts config facts fact]
    rfl

theorem applyEvent_core :
    (applyEvent config (projection.withFacts facts) event).map Projection.core id =
      (applyEvent config projection event).map Projection.core id := by
  simp only [applyEvent]
  split
  · split
    · rfl
    · rw [applyJournalEvent_withFacts]
      rfl
  · split
    · rfl
    · split
      · rfl
      · next kind type =>
          rw [unwrap_withFacts]
          cases unwrap projection kind _ event with
          | error outcome => rfl
          | ok unwrapped => exact applyJsonEvent_core config facts unwrapped.2 kind unwrapped.1 event

theorem foldStep_core :
    (foldStep config (projection.withFacts facts) event).map Projection.core id =
      (foldStep config projection event).map Projection.core id := by
  have applied : (applyEvent config { projection.withFacts facts with
      throughEventSequence := event.sessionSequence } event).map Projection.core id = _ :=
    applyEvent_core config facts
      { projection with throughEventSequence := event.sessionSequence } event
  cases foldStep_cases config projection event with
  | inl folds =>
      cases foldStep_cases config (projection.withFacts facts) event with
      | inl folds' =>
          rw [folds.2, folds'.2]
          exact congrArg (Prod.map id some) applied
      | inr skips' => exact absurd folds.1 skips'.1
  | inr skips =>
      cases foldStep_cases config (projection.withFacts facts) event with
      | inl folds' => exact absurd folds'.1 skips.1
      | inr skips' =>
          rw [skips.2, skips'.2]
          rfl

theorem run_core {left right : Projection} (same : left.core = right.core)
    (events : List EventEnvelope) :
    (Execution.run (foldStep config) left events).core =
      (Execution.run (foldStep config) right events).core := by
  induction events generalizing left right with
  | nil => exact same
  | cons event rest ih =>
      apply ih
      have step := foldStep_core config left.verifiedFacts right event
      rw [← core_eq_iff.mp same] at step
      exact congrArg Prod.fst step

end Core

variable {checkpoint : TaskCheckpoint}

theorem validate_named (valid : checkpoint.validate = .ok ()) :
    checkpoint.taskId.isNil = false := by
  simp only [TaskCheckpoint.validate] at valid
  split at valid
  · cases valid
  · split at valid
    · cases valid
    · next named => exact Bool.eq_false_iff.mpr (not_or.mp (not_or.mp named).2).1

inductive Built (config : CheckpointReducerConfig) : List EventEnvelope → TaskCheckpoint → Prop
  | full (seen : List EventEnvelope) (now : Timestamp) (entropy : Id128) :
      Built config seen (build config none seen now entropy).checkpoint
  | onto (seen later : List EventEnvelope) (base : TaskCheckpoint) (now : Timestamp)
      (entropy : Id128) (earlier : Built config seen base) :
      Built config (seen ++ later) (build config (some base) (seen ++ later) now entropy).checkpoint

theorem build_onto (config : CheckpointReducerConfig) (base : TaskCheckpoint)
    (events : List EventEnvelope) (now : Timestamp) (entropy : Id128) :
    (build config (some base) events now entropy).checkpoint.toProjection.core =
      (Execution.run (foldStep config) base.toProjection events).core := rfl

variable {config : CheckpointReducerConfig}

theorem Built.core (built : Built config seen checkpoint)
    (own : ∀ event ∈ seen, event.taskId = some task) (named : checkpoint.taskId.isNil = false) :
    seen ≠ [] ∧ checkpoint.toProjection.core = (foldAll config seen).core := by
  induction built with
  | full seen now entropy =>
      refine ⟨?_, rfl⟩
      intro empty
      subst empty
      cases named
  | onto seen later base now entropy earlier ih =>
      have own' : ∀ event ∈ seen, event.taskId = some task :=
        fun event present => own event (List.mem_append_left _ present)
      have identity := run_identity config base.toProjection (seen ++ later)
      have named' : base.taskId.isNil = false := by
        rw [← identity.1]
        exact named
      obtain ⟨some_, same⟩ := ih own' named'
      refine ⟨fun empty => some_ (List.append_eq_nil_iff.mp empty).1, ?_⟩
      have again := run_again config some_ own' later base.verifiedFacts
      rw [← core_eq_iff.mp same] at again
      rw [build_onto, again, foldAll_append config some_ own']
      exact run_core config same later

theorem Built.extended {events : List EventEnvelope} {base : TaskCheckpoint}
    (built : Built config seen base) (start : seen <+: events) (now : Timestamp) (entropy : Id128) :
    Built config events (build config (some base) events now entropy).checkpoint := by
  obtain ⟨later, rfl⟩ := start
  exact .onto seen later base now entropy built

end Mira.Checkpoint
