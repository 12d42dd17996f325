import Mira.Temporal.Runtime

/-!
Histories. The runtime and the rebuild keep the same two tables, entity by entity: a counter and
the last entries. What both hold after a run is the last sightings of each entity in the accepted
samples, numbered from one on.
-/

namespace Mira.Temporal
open Mira Bytes

inductive PolicyCall
  | activate (state : Bytes)
  | deactivate (state : Bytes)
  | step (sample : PolicyEpisodeSample)
  | induce (episodes : List PolicyEpisodeSample)
  | adopt (rules : List ReactiveRule)
  | test (episodes : List PolicyEpisodeSample)
  | promote (ruleId : Bytes)
  | demote (ruleId reason : Bytes)
  | retire (ruleId : Bytes)

def PolicyCall.apply (runtime : ReactivePolicyRuntime) : PolicyCall → ReactivePolicyRuntime
  | .activate state => (Temporal.activate runtime state).1
  | .deactivate state => (Temporal.deactivate runtime state).1
  | .step sample => (Temporal.step runtime sample.world sample.tick).1
  | .induce _ => runtime
  | .adopt rules => (adoptCandidateRules runtime rules).1
  | .test episodes => (testCandidateRules runtime episodes).1
  | .promote ruleId => (promoteRule runtime ruleId).1
  | .demote ruleId reason => (demoteRule runtime ruleId reason).1
  | .retire ruleId => (retireRule runtime ruleId).1

def run (calls : List PolicyCall) (runtime : ReactivePolicyRuntime) : ReactivePolicyRuntime :=
  calls.foldl PolicyCall.apply runtime

def PolicyCall.accepted (runtime : ReactivePolicyRuntime) : PolicyCall → List PolicyEpisodeSample
  | .step sample =>
      if (Temporal.step runtime sample.world sample.tick).2.isOk then [sample] else []
  | _ => []

def acceptedSamples : List PolicyCall → ReactivePolicyRuntime → List PolicyEpisodeSample
  | [], _ => []
  | call :: rest, runtime => call.accepted runtime ++ acceptedSamples rest (call.apply runtime)

abbrev Sighting := TrackedEntity × Timestamp

def PolicyEpisodeSample.sightings (sample : PolicyEpisodeSample) : List Sighting :=
  sample.world.entities.map fun entity => (entity, sample.tick.tickTime)

def sightings (samples : List PolicyEpisodeSample) : List Sighting :=
  samples.flatMap PolicyEpisodeSample.sightings

def numbered (key : Bytes) (seen : List Sighting) : List TemporalHistoryEntry :=
  ((seen.filter fun sighting => sighting.1.entityKey = key).zipIdx 1).map fun entry =>
    historyEntry entry.1.1 entry.1.2 entry.2

def lastOf {α : Type} (capacity : Nat) (items : List α) : List α :=
  items.drop (items.length - capacity)

def historyOf (capacity : Nat) (key : Bytes) (seen : List Sighting) : Option TemporalHistory :=
  if numbered key seen = [] then none
  else some { capacity := capacity, entries := lastOf capacity (numbered key seen) }

structure Accumulated (capacity : Nat) (seen : List Sighting)
    (histories : KeyedTable Bytes TemporalHistory) (sequences : KeyedTable Bytes Nat) : Prop where
  counts : ∀ key, (sequences.find? key).getD 0 = (numbered key seen).length
  held : ∀ key, histories.find? key = historyOf capacity key seen

theorem numbered_append (key : Bytes) (seen : List Sighting) (entity : TrackedEntity)
    (sampledAt : Timestamp) :
    numbered key (seen ++ [(entity, sampledAt)]) =
      if entity.entityKey = key then
        numbered key seen ++ [historyEntry entity sampledAt ((numbered key seen).length + 1)]
      else numbered key seen := by
  rw [numbered, List.filter_append, List.filter_singleton]
  by_cases same : entity.entityKey = key
  · rw [if_pos same, decide_eq_true same, List.zipIdx_append, List.map_append]
    simp [numbered, Nat.add_comm]
  · rw [if_neg same, decide_eq_false same]
    simp [numbered]

variable {seen : List Sighting}

theorem numbered_sequence {key : Bytes} {last : TemporalHistoryEntry}
    (found : (numbered key seen).getLast? = some last) :
    last.sequence = (numbered key seen).length := by
  have length : (numbered key seen).length =
      (seen.filter fun sighting => sighting.1.entityKey = key).length := by
    rw [numbered, List.length_map, List.length_zipIdx]
  rw [List.getLast?_eq_getElem?, length, numbered, List.getElem?_map, List.getElem?_zipIdx,
    Option.map_map, Option.map_eq_some_iff] at found
  obtain ⟨sighting, there, made⟩ := found
  obtain ⟨bound, _⟩ := List.getElem?_eq_some_iff.mp there
  rw [← made, length]
  change 1 + _ = _
  omega

variable {capacity : Nat}

theorem lastOf_append {α : Type} (some_ : 0 < capacity) (items : List α) (item : α) :
    (if (lastOf capacity items).length = capacity then (lastOf capacity items).drop 1
      else lastOf capacity items) ++ [item] = lastOf capacity (items ++ [item]) := by
  have length : (lastOf capacity items).length = min capacity items.length := by
    rw [lastOf, List.length_drop]
    omega
  rw [length, lastOf, lastOf, List.length_append, List.length_singleton]
  by_cases full : capacity ≤ items.length
  · rw [if_pos (by omega), List.drop_drop, List.drop_append_of_le_length (by omega)]
    congr 2
    omega
  · rw [if_neg (by omega), List.drop_append_of_le_length (by omega)]
    congr 2
    omega

theorem append_ok {history : TemporalHistory} {entry : TemporalHistoryEntry}
    (positive : history.capacity ≠ 0)
    (advances : (history.entries.getLast?.all fun last => last.sequence < entry.sequence) = true) :
    history.append entry = .ok { history with
      entries := (if history.entries.length = history.capacity then history.entries.drop 1
        else history.entries) ++ [entry] } := by
  rw [TemporalHistory.append, require_ok.mpr (decide_eq_true positive), require_ok.mpr advances]
  rfl

theorem append_next (some_ : 0 < capacity) {key : Bytes} (entity : TrackedEntity)
    (sampledAt : Timestamp) :
    TemporalHistory.append
        { capacity := capacity, entries := lastOf capacity (numbered key seen) }
        (historyEntry entity sampledAt ((numbered key seen).length + 1)) =
      .ok { capacity := capacity
            entries := lastOf capacity (numbered key seen ++
              [historyEntry entity sampledAt ((numbered key seen).length + 1)]) } := by
  have advances : ((lastOf capacity (numbered key seen)).getLast?.all fun last =>
      last.sequence < (numbered key seen).length + 1) = true := by
    cases found : (lastOf capacity (numbered key seen)).getLast? with
    | none => rfl
    | some last =>
        have whole : (numbered key seen).getLast? = some last := by
          rw [lastOf, List.getLast?_drop] at found
          split at found
          · cases found
          · exact found
        rw [Option.all_some, numbered_sequence whole]
        exact decide_eq_true (Nat.lt_succ_self _)
  refine (append_ok (Nat.pos_iff_ne_zero.mp some_) advances).trans ?_
  dsimp only
  rw [lastOf_append some_]

theorem Accumulated.next (some_ : 0 < capacity) {histories : KeyedTable Bytes TemporalHistory}
    {sequences : KeyedTable Bytes Nat} (before : Accumulated capacity seen histories sequences)
    (entity : TrackedEntity) (sampledAt : Timestamp) :
    ∃ history longer,
      (histories.emplace entity.entityKey { capacity := capacity }).find? entity.entityKey =
        some history ∧
      history.append (historyEntry entity sampledAt
        ((sequences.find? entity.entityKey).getD 0 + 1)) = .ok longer ∧
      Accumulated capacity (seen ++ [(entity, sampledAt)])
        ((histories.emplace entity.entityKey { capacity := capacity }).assign entity.entityKey
          longer)
        (sequences.assign entity.entityKey ((sequences.find? entity.entityKey).getD 0 + 1)) := by
  have found : (histories.emplace entity.entityKey { capacity := capacity }).find?
      entity.entityKey = some { capacity := capacity
                                entries := lastOf capacity (numbered entity.entityKey seen) } := by
    rw [KeyedTable.find?_emplace, if_pos rfl, before.held, historyOf]
    split
    · next none_ =>
        rw [none_, lastOf, List.drop_nil]
        rfl
    · rfl
  rw [before.counts]
  refine ⟨_, _, found, append_next some_ entity sampledAt, ?_⟩
  · refine ⟨?_, ?_⟩
    · intro key
      rw [KeyedTable.find?_assign, numbered_append]
      by_cases same : entity.entityKey = key
      · rw [if_pos same.symm, if_pos same, List.length_append, same]
        rfl
      · rw [if_neg fun back => same back.symm, if_neg same]
        exact before.counts key
    · intro key
      rw [KeyedTable.find?_assign, historyOf, numbered_append]
      by_cases same : entity.entityKey = key
      · rw [if_pos same.symm, if_pos same, if_neg (List.append_ne_nil_of_right_ne_nil _
          (List.cons_ne_nil _ _)), same]
      · rw [if_neg fun back => same back.symm, if_neg same, KeyedTable.find?_emplace,
          if_neg fun back => same back.symm, before.held, historyOf]

/-- The runtime's tables account for what it has seen. -/
structure Keeps (options : PolicyRuntimeOptions) (seen : List Sighting)
    (runtime : ReactivePolicyRuntime) : Prop where
  own : runtime.options = options
  tables : Accumulated options.historyOptions.capacity seen runtime.histories runtime.nextSequence

section
variable {options : PolicyRuntimeOptions} {seen : List Sighting} {runtime : ReactivePolicyRuntime}

theorem appendHistory_keeps (some_ : 0 < options.historyOptions.capacity)
    (keeps : Keeps options seen runtime) (entity : TrackedEntity) (sampledAt : Timestamp) :
    ∃ after, appendHistory runtime entity sampledAt = (after, .ok ()) ∧
      Keeps options (seen ++ [(entity, sampledAt)]) after := by
  obtain ⟨history, longer, found, appended, tables⟩ := keeps.tables.next some_ entity sampledAt
  rw [appendHistory, keeps.own]
  dsimp only
  rw [found]
  dsimp only
  rw [appended]
  exact ⟨_, rfl, rfl, tables⟩

theorem appendHistories_keeps (some_ : 0 < options.historyOptions.capacity)
    (keeps : Keeps options seen runtime) (sampledAt : Timestamp) (entities : List TrackedEntity) :
    ∃ after, appendHistories runtime sampledAt entities = (after, .ok ()) ∧
      Keeps options (seen ++ entities.map fun entity => (entity, sampledAt)) after := by
  induction entities generalizing runtime seen with
  | nil =>
      rw [List.map_nil, List.append_nil]
      exact ⟨runtime, rfl, keeps⟩
  | cons entity rest ih =>
      obtain ⟨next, one, keeps⟩ := appendHistory_keeps some_ keeps entity sampledAt
      obtain ⟨after, others, keeps⟩ := ih keeps
      refine ⟨after, ?_, ?_⟩
      · rw [appendHistories, one]
        exact others
      · rw [List.map_cons, List.append_cons]
        exact keeps

theorem step_keeps (some_ : 0 < options.historyOptions.capacity)
    (keeps : Keeps options seen runtime) (sample : PolicyEpisodeSample) :
    ((step runtime sample.world sample.tick).2.isOk = true ∧ sample.world.validate = .ok () ∧
      Keeps options (seen ++ sample.sightings) (step runtime sample.world sample.tick).1) ∨
    ((step runtime sample.world sample.tick).2.isOk = false ∧
      (step runtime sample.world sample.tick).1 = runtime) := by
  rw [step]
  cases valid : sample.world.validate with
  | error reason => exact .inr ⟨rfl, rfl⟩
  | ok _ =>
      dsimp only
      split
      · exact .inr ⟨rfl, rfl⟩
      · obtain ⟨after, all, keeps⟩ := appendHistories_keeps some_ keeps sample.tick.tickTime
          sample.world.entities
        rw [all]
        dsimp only
        refine .inl ?_
        split
        · exact ⟨rfl, rfl, keeps.own, keeps.tables⟩
        · exact ⟨rfl, rfl, keeps.own, keeps.tables⟩
        · exact ⟨rfl, rfl, keeps.own, keeps.tables⟩

theorem Keeps.of_same (keeps : Keeps options seen runtime) {after : ReactivePolicyRuntime}
    (same : after.options = runtime.options ∧ after.histories = runtime.histories ∧
      after.nextSequence = runtime.nextSequence) : Keeps options seen after := by
  refine ⟨same.1.trans keeps.own, ?_⟩
  rw [same.2.1, same.2.2]
  exact keeps.tables

theorem apply_keeps (some_ : 0 < options.historyOptions.capacity)
    (keeps : Keeps options seen runtime) (call : PolicyCall) :
    Keeps options (seen ++ sightings (call.accepted runtime)) (call.apply runtime) ∧
      ∀ sample ∈ call.accepted runtime, sample.world.validate = .ok () := by
  have nothing {after : ReactivePolicyRuntime}
      (same : after.options = runtime.options ∧ after.histories = runtime.histories ∧
        after.nextSequence = runtime.nextSequence) :
      Keeps options (seen ++ sightings []) after ∧
        ∀ sample ∈ ([] : List PolicyEpisodeSample), sample.world.validate = .ok () := by
    rw [sightings, List.flatMap_nil, List.append_nil]
    exact ⟨keeps.of_same same, fun _ none_ => absurd none_ List.not_mem_nil⟩
  cases call with
  | step sample =>
      rw [PolicyCall.accepted, PolicyCall.apply]
      rcases step_keeps some_ keeps sample with ⟨ok, valid, after⟩ | ⟨refused, same⟩
      · rw [if_pos ok, sightings, List.flatMap_singleton]
        refine ⟨after, ?_⟩
        intro other held
        rw [List.mem_singleton.mp held]
        exact valid
      · rw [if_neg (Bool.eq_false_iff.mp refused), same]
        exact nothing ⟨rfl, rfl, rfl⟩
  | induce episodes => exact nothing ⟨rfl, rfl, rfl⟩
  | activate state =>
      refine nothing ?_
      rw [PolicyCall.apply, Temporal.activate]
      split
      · exact ⟨rfl, rfl, rfl⟩
      · split
        · exact ⟨rfl, rfl, rfl⟩
        · exact ⟨rfl, rfl, rfl⟩
  | deactivate state =>
      refine nothing ?_
      rw [PolicyCall.apply, Temporal.deactivate]
      split
      · exact ⟨rfl, rfl, rfl⟩
      · exact ⟨rfl, rfl, rfl⟩
  | adopt rules =>
      refine nothing ?_
      rw [PolicyCall.apply, adoptCandidateRules]
      dsimp only
      split
      · exact ⟨rfl, rfl, rfl⟩
      · exact ⟨rfl, rfl, rfl⟩
  | test episodes =>
      refine nothing ?_
      rw [PolicyCall.apply, testCandidateRules]
      dsimp only
      split
      · exact ⟨rfl, rfl, rfl⟩
      · exact ⟨rfl, rfl, rfl⟩
  | promote ruleId =>
      refine nothing ?_
      rw [PolicyCall.apply, promoteRule]
      split
      · exact ⟨rfl, rfl, rfl⟩
      · split
        · exact ⟨rfl, rfl, rfl⟩
        · split
          · exact ⟨rfl, rfl, rfl⟩
          · exact ⟨rfl, rfl, rfl⟩
  | demote ruleId reason =>
      refine nothing ?_
      rw [PolicyCall.apply, demoteRule]
      split
      · exact ⟨rfl, rfl, rfl⟩
      · split
        · exact ⟨rfl, rfl, rfl⟩
        · split
          · exact ⟨rfl, rfl, rfl⟩
          · exact ⟨rfl, rfl, rfl⟩
  | retire ruleId =>
      refine nothing ?_
      rw [PolicyCall.apply, retireRule]
      split
      · exact ⟨rfl, rfl, rfl⟩
      · exact ⟨rfl, rfl, rfl⟩

theorem run_keeps (some_ : 0 < options.historyOptions.capacity)
    (keeps : Keeps options seen runtime) (calls : List PolicyCall) :
    Keeps options (seen ++ sightings (acceptedSamples calls runtime)) (run calls runtime) ∧
      ∀ sample ∈ acceptedSamples calls runtime, sample.world.validate = .ok () := by
  induction calls generalizing runtime seen with
  | nil =>
      rw [acceptedSamples, sightings, List.flatMap_nil, List.append_nil]
      exact ⟨keeps, fun _ none_ => absurd none_ List.not_mem_nil⟩
  | cons call rest ih =>
      obtain ⟨next, valid⟩ := apply_keeps some_ keeps call
      obtain ⟨after, others⟩ := ih next
      rw [acceptedSamples, sightings, List.flatMap_append, ← List.append_assoc]
      refine ⟨after, ?_⟩
      intro sample held
      rcases List.mem_append.mp held with here | later
      · exact valid sample here
      · exact others sample later

end

section
variable {options : TemporalHistoryOptions} {seen : List Sighting} {tables : Rebuilding}

theorem rebuildEntity_keeps (some_ : 0 < options.capacity)
    (before : Accumulated options.capacity seen tables.rebuilt tables.sequences)
    (entity : TrackedEntity) (sampledAt : Timestamp) :
    ∃ after, rebuildEntity options sampledAt tables entity = .ok after ∧
      Accumulated options.capacity (seen ++ [(entity, sampledAt)]) after.rebuilt
        after.sequences := by
  obtain ⟨history, longer, found, appended, after⟩ := before.next some_ entity sampledAt
  rw [rebuildEntity, found, Option.getD_some, appended]
  exact ⟨_, rfl, after⟩

theorem rebuildEntities_keeps (some_ : 0 < options.capacity)
    (before : Accumulated options.capacity seen tables.rebuilt tables.sequences)
    (sampledAt : Timestamp) (entities : List TrackedEntity) :
    ∃ after, entities.foldlM (rebuildEntity options sampledAt) tables = .ok after ∧
      Accumulated options.capacity (seen ++ entities.map fun entity => (entity, sampledAt))
        after.rebuilt after.sequences := by
  induction entities generalizing tables seen with
  | nil =>
      rw [List.map_nil, List.append_nil]
      exact ⟨tables, rfl, before⟩
  | cons entity rest ih =>
      obtain ⟨next, one, before⟩ := rebuildEntity_keeps some_ before entity sampledAt
      obtain ⟨after, others, keeps⟩ := ih before
      refine ⟨after, ?_, ?_⟩
      · rw [List.foldlM_cons, one]
        exact others
      · rw [List.map_cons, List.append_cons]
        exact keeps

theorem rebuildSamples_keeps (some_ : 0 < options.capacity)
    (before : Accumulated options.capacity seen tables.rebuilt tables.sequences)
    {samples : List PolicyEpisodeSample}
    (valid : ∀ sample ∈ samples, sample.world.validate = .ok ()) :
    ∃ after, samples.foldlM (rebuildSample options) tables = .ok after ∧
      Accumulated options.capacity (seen ++ sightings samples) after.rebuilt after.sequences := by
  induction samples generalizing tables seen with
  | nil =>
      rw [sightings, List.flatMap_nil, List.append_nil]
      exact ⟨tables, rfl, before⟩
  | cons sample rest ih =>
      obtain ⟨next, one, before⟩ := rebuildEntities_keeps some_ before sample.tick.tickTime
        sample.world.entities
      obtain ⟨after, others, keeps⟩ := ih before fun sample held =>
        valid sample (List.mem_cons_of_mem _ held)
      refine ⟨after, ?_, ?_⟩
      · rw [List.foldlM_cons, rebuildSample, valid sample List.mem_cons_self]
        exact (congrArg (· >>= fun tables => rest.foldlM (rebuildSample options) tables) one).trans
          others
      · rw [sightings, List.flatMap_cons, ← List.append_assoc]
        exact keeps

end

theorem accumulated_start (capacity : Nat) : Accumulated capacity [] .empty .empty :=
  ⟨fun _ => rfl, fun _ => rfl⟩

/-- The rebuild over the accepted samples gives the histories of the runtime: the last sightings of
each entity, numbered from one on. Without a sample it refuses, and the runtime has no history. -/
theorem rebuild_eq_live (options : PolicyRuntimeOptions)
    (some_ : 0 < options.historyOptions.capacity) (calls : List PolicyCall) :
    let samples := acceptedSamples calls { options := options }
    let live := run calls { options := options }
    (∀ key, live.histories.find? key =
      historyOf options.historyOptions.capacity key (sightings samples)) ∧
    (samples ≠ [] → ∃ table, rebuildTemporalHistories samples options.historyOptions = .ok table ∧
      ∀ key, table.find? key = live.histories.find? key) ∧
    (samples = [] →
      rebuildTemporalHistories samples options.historyOptions = .error (makeTemporalPolicyError
        .episodeSamplesInvalid "rebuild episode batch is empty")) := by
  intro samples live
  have start : Keeps options [] { options := options } := ⟨rfl, accumulated_start _⟩
  obtain ⟨keeps, valid⟩ := run_keeps some_ start calls
  rw [List.nil_append] at keeps
  have positive : options.historyOptions.validate = .ok () :=
    require_ok.mpr (decide_eq_true (Nat.pos_iff_ne_zero.mp some_))
  refine ⟨keeps.tables.held, ?_, ?_⟩
  · intro present
    have empty : Accumulated options.historyOptions.capacity [] ({} : Rebuilding).rebuilt
        ({} : Rebuilding).sequences := accumulated_start _
    obtain ⟨after, rebuilt, tables⟩ := rebuildSamples_keeps some_ empty valid
    rw [List.nil_append] at tables
    refine ⟨after.rebuilt, ?_, fun key => (tables.held key).trans (keeps.tables.held key).symm⟩
    rw [rebuildTemporalHistories, positive, require_ok.mpr (decide_eq_true present)]
    exact congrArg (· >>= fun tables : Rebuilding => pure tables.rebuilt) rebuilt
  · intro none_
    rw [rebuildTemporalHistories, positive, none_]
    rfl

def sampleEntity (key : UInt8) : TrackedEntity := { entityKey := [key], motion := [114] }

def sampleEpisode (tick : Nat) (keys : List UInt8) : PolicyEpisodeSample :=
  { tick := { tick := tick }, world := { entities := keys.map sampleEntity } }

def oneSighting : PolicyRuntimeOptions := { historyOptions := { capacity := 1 } }

/-- The second of the samples is refused: its tick is not later. -/
def twiceSighted : List PolicyCall :=
  [.step (sampleEpisode 1 [7, 7]), .step (sampleEpisode 1 [8])]

theorem rebuild_eq_live_twice :
    let live := run twiceSighted { options := oneSighting }
    let samples := acceptedSamples twiceSighted { options := oneSighting }
    (∀ key, live.histories.find? key = historyOf 1 key (sightings samples)) ∧
    ∃ table, rebuildTemporalHistories samples oneSighting.historyOptions = .ok table ∧
      ∀ key, table.find? key = live.histories.find? key := by
  have equal := rebuild_eq_live oneSighting (by decide) twiceSighted
  exact ⟨equal.1, equal.2.1 (by decide)⟩

/-- With no accepted sample there is nothing to rebuild from. -/
theorem rebuild_refuses_nothing :
    acceptedSamples [.activate [97]] { options := {} } = [] ∧
    (run [.activate [97]] { options := {} }).histories.entries = [] ∧
    rebuildTemporalHistories (acceptedSamples [.activate [97]] { options := {} }) {} =
      .error (makeTemporalPolicyError .episodeSamplesInvalid "rebuild episode batch is empty") :=
  ⟨rfl, rfl, rfl⟩

end Mira.Temporal
