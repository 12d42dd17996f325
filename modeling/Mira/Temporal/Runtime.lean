import Mira.Temporal.Contracts

/-!
The reactive policy runtime: which rules match a world, the step that accumulates the histories
and triggers or demotes rules, and the life of a rule. The events are an output that nothing here
reads, so they are left out.
-/

namespace Mira.Temporal
open Mira Bytes

def compareHolds (compare : ConditionCompare) (left right : Binary64) : Bool :=
  match compare with
  | .eq => left.eq right
  | .lt => left.lt right
  | .le => left.le right
  | .gt => right.lt left
  | .ge => right.le left

def findFact (world : PolicyWorldView) (key : Bytes) : Option PolicyFact :=
  world.facts.find? fun fact => fact.key = key

def findAnchor (world : PolicyWorldView) : Option TrackedEntity :=
  world.entities.find? fun entity => entity.motion ≠ []

def entityConditionHolds (condition : RuleCondition) (entity : TrackedEntity) : Bool :=
  match condition.field with
  | .motion => condition.compare = .eq && entity.motion = condition.textValue
  | .motionPhase => compareHolds condition.compare entity.motionPhase condition.numberValue
  | .motionConfidence =>
      compareHolds condition.compare entity.motionConfidence condition.numberValue
  | .fact => false

def factConditionHolds (condition : RuleCondition) (world : PolicyWorldView) : Bool :=
  match findFact world condition.factKey with
  | none => false
  | some fact => compareHolds condition.compare fact.value condition.numberValue

/-- Whether the transition matches, and with which anchor; one without conditions on an entity
needs none. -/
def transitionMatches (transition : RuleTransition) (world : PolicyWorldView) :
    Option (Option TrackedEntity) :=
  let facts := transition.conditions.filter fun condition => condition.field = .fact
  let scoped_ := transition.conditions.filter fun condition => condition.field ≠ .fact
  if facts.all fun condition => factConditionHolds condition world then
    if scoped_ = [] then some none
    else
      (world.entities.find? fun entity => scoped_.all fun condition =>
        entityConditionHolds condition entity).map some
  else none

structure ReactivePolicyRuntime where
  options : PolicyRuntimeOptions
  rules : KeyedTable Bytes ReactiveRule := .empty
  evidence : KeyedTable Bytes RuleResult := .empty
  histories : KeyedTable Bytes TemporalHistory := .empty
  nextSequence : KeyedTable Bytes Nat := .empty
  activeStates : List Bytes := []
  maxTick : Nat := 0
  hasStepped : Bool := false

structure Match where
  rule : ReactiveRule
  transition : RuleTransition
  anchor : Option TrackedEntity

/-- The first transition of a rule that matches. -/
def firstMatch (rule : ReactiveRule) (world : PolicyWorldView) : Option Match :=
  rule.transitions.findSome? fun transition =>
    (transitionMatches transition world).map fun anchor => ⟨rule, transition, anchor⟩

def rulePrecedes (left right : ReactiveRule) : Bool :=
  if left.priority ≠ right.priority then left.priority < right.priority
  else keyLess left.ruleId right.ruleId

def collectMatches (runtime : ReactivePolicyRuntime) (world : PolicyWorldView) : List Match :=
  let ordered := ((inKeyOrder runtime.rules).map Prod.snd).filter fun rule =>
    rule.status = .runtime && runtime.activeStates.contains rule.state
  (ordered.insertionSort fun left right => rulePrecedes right left = false).filterMap
    fun rule => firstMatch rule world

def historyEntry (entity : TrackedEntity) (sampledAt : Timestamp) (sequence : Nat) :
    TemporalHistoryEntry :=
  { sequence := sequence
    sampledAt := sampledAt
    positionX := entity.positionX
    positionY := entity.positionY
    motion := entity.motion
    motionPhase := entity.motionPhase
    sourceRef := entity.sourceRef }

/-- The counter of the entity advances and its history, empty at first, takes the entry. -/
def appendHistory (runtime : ReactivePolicyRuntime) (entity : TrackedEntity)
    (sampledAt : Timestamp) : ReactivePolicyRuntime × PolicyResult Unit :=
  let sequence := (runtime.nextSequence.find? entity.entityKey).getD 0 + 1
  let histories := runtime.histories.emplace entity.entityKey
    { capacity := runtime.options.historyOptions.capacity }
  let counted := { runtime with
    nextSequence := runtime.nextSequence.assign entity.entityKey sequence
    histories := histories }
  match histories.find? entity.entityKey with
  | none => (counted, .ok ())
  | some history =>
      match history.append (historyEntry entity sampledAt sequence) with
      | .error reason => (counted, .error reason)
      | .ok longer =>
          ({ counted with histories := histories.assign entity.entityKey longer }, .ok ())

def appendHistories (runtime : ReactivePolicyRuntime) (sampledAt : Timestamp) :
    List TrackedEntity → ReactivePolicyRuntime × PolicyResult Unit
  | [] => (runtime, .ok ())
  | entity :: rest =>
      match appendHistory runtime entity sampledAt with
      | (after, .ok _) => appendHistories after sampledAt rest
      | (after, .error reason) => (after, .error reason)

/-- Each matched rule goes back to being a candidate. -/
def demoteMatched (rules : KeyedTable Bytes ReactiveRule) (matched : List Match) :
    KeyedTable Bytes ReactiveRule :=
  matched.foldl (fun rules found =>
    rules.update found.rule.ruleId fun rule => { rule with status := .candidate }) rules

def step (runtime : ReactivePolicyRuntime) (world : PolicyWorldView) (tick : PolicyTickContext) :
    ReactivePolicyRuntime × PolicyResult (List PolicyAction) :=
  match world.validate with
  | .error reason => (runtime, .error reason)
  | .ok _ =>
      if runtime.hasStepped && tick.tick ≤ runtime.maxTick then
        (runtime, .error (makeTemporalPolicyError .tickNotMonotonic
          "policy tick must strictly advance"))
      else
        match appendHistories runtime tick.tickTime world.entities with
        | (after, .error reason) => (after, .error reason)
        | (after, .ok _) =>
            let stepped := { after with maxTick := tick.tick, hasStepped := true }
            match collectMatches stepped world with
            | [] => (stepped, .ok [])
            | [found] => (stepped, .ok found.transition.doActions)
            | matched =>
                ({ stepped with rules := demoteMatched stepped.rules matched }, .ok [])

def activate (runtime : ReactivePolicyRuntime) (state : Bytes) :
    ReactivePolicyRuntime × PolicyResult Unit :=
  if state = [] then
    (runtime, .error (makeTemporalPolicyError .ruleSchemaInvalid
      "activation state name must be non-empty"))
  else if runtime.activeStates.contains state then (runtime, .ok ())
  else ({ runtime with activeStates := state :: runtime.activeStates }, .ok ())

def deactivate (runtime : ReactivePolicyRuntime) (state : Bytes) :
    ReactivePolicyRuntime × PolicyResult Unit :=
  if state = [] then
    (runtime, .error (makeTemporalPolicyError .ruleSchemaInvalid
      "deactivation state name must be non-empty"))
  else ({ runtime with activeStates := runtime.activeStates.erase state }, .ok ())

/-- A rule that the runtime knows, or the batch already holds, is skipped. -/
def freshRule (runtime : ReactivePolicyRuntime) (fresh : List ReactiveRule) (rule : ReactiveRule) :
    PolicyResult (List ReactiveRule) := do
  rule.validate
  if runtime.rules.contains rule.ruleId || fresh.any (fun other => other.ruleId = rule.ruleId) then
    return fresh
  else return fresh ++ [rule]

/-- The rules of a batch that the runtime does not know, each once. -/
def freshRules (runtime : ReactivePolicyRuntime) (rules : List ReactiveRule) :
    PolicyResult (List ReactiveRule) :=
  rules.foldlM (freshRule runtime) []

def stateCount (rules : List ReactiveRule) (state : Bytes) : Nat :=
  rules.countP fun rule => rule.state = state

def adoptCandidateRules (runtime : ReactivePolicyRuntime) (rules : List ReactiveRule) :
    ReactivePolicyRuntime × PolicyResult Nat :=
  let checked : PolicyResult (List ReactiveRule) := do
    let fresh ← freshRules runtime rules
    require (runtime.rules.size + fresh.length ≤ runtime.options.maxRules) .boundsExceeded
      "rule set bound exceeded"
    let all := runtime.rules.entries.map Prod.snd ++ fresh
    require (all.all fun rule => stateCount all rule.state ≤ runtime.options.maxRulesPerState)
      .boundsExceeded "per-state rule bound exceeded"
    return fresh
  match checked with
  | .error reason => (runtime, .error reason)
  | .ok fresh =>
      ({ runtime with
          rules := fresh.foldl (fun table rule =>
            table.emplace rule.ruleId { rule with status := .candidate }) runtime.rules },
        .ok fresh.length)

/-- How a candidate does on one sample: it does not match, or its action is the recorded one, or
not. -/
def testSample (rule : ReactiveRule) (sample : PolicyEpisodeSample) : Option Bool :=
  (firstMatch rule sample.world).map fun found =>
    sample.agentHandled &&
      sample.agentAction.any fun action => found.transition.doActions = [action]

def testRule (rule : ReactiveRule) (episodes : List PolicyEpisodeSample) : RuleResult :=
  let triggered := episodes.filterMap (testSample rule)
  { ruleId := rule.ruleId
    passedCount := triggered.count true
    falseTriggerCount := triggered.count false
    sampleCount := triggered.length }

def testCandidateRules (runtime : ReactivePolicyRuntime) (episodes : List PolicyEpisodeSample) :
    ReactivePolicyRuntime × PolicyResult (List RuleResult) :=
  let checked : PolicyResult Unit := do
    require (episodes ≠ []) .episodeSamplesInvalid "testing episode batch is empty"
    episodes.forM fun sample => sample.world.validate
  match checked with
  | .error reason => (runtime, .error reason)
  | .ok _ =>
      let results := (((inKeyOrder runtime.rules).map Prod.snd).filter fun rule =>
        rule.status = .candidate).map fun rule => testRule rule episodes
      ({ runtime with
          evidence := results.foldl (fun table row => table.assign row.ruleId row)
            runtime.evidence },
        .ok results)

def setStatus (runtime : ReactivePolicyRuntime) (ruleId : Bytes) (status : ReactiveRuleStatus) :
    ReactivePolicyRuntime :=
  { runtime with rules := runtime.rules.update ruleId fun rule => { rule with status := status } }

def promotionGate (runtime : ReactivePolicyRuntime) (ruleId : Bytes) : Bool :=
  (runtime.evidence.find? ruleId).any fun row =>
    row.falseTriggerCount = 0 && runtime.options.minTestSupport ≤ row.passedCount

def promoteRule (runtime : ReactivePolicyRuntime) (ruleId : Bytes) :
    ReactivePolicyRuntime × PolicyResult Unit :=
  match runtime.rules.find? ruleId with
  | none =>
      (runtime, .error (makeTemporalPolicyError .ruleUnknown "promotion target rule unknown"))
  | some rule =>
      if rule.status ≠ .candidate then
        (runtime, .error (makeTemporalPolicyError .ruleStateInvalid
          "promotion requires a Candidate rule"))
      else if promotionGate runtime rule.ruleId then (setStatus runtime ruleId .runtime, .ok ())
      else
        (runtime, .error (makeTemporalPolicyError .promotionEvidenceMissing
          "promotion evidence gate not satisfied"))

def demoteRule (runtime : ReactivePolicyRuntime) (ruleId reason : Bytes) :
    ReactivePolicyRuntime × PolicyResult Unit :=
  match runtime.rules.find? ruleId with
  | none =>
      (runtime, .error (makeTemporalPolicyError .ruleUnknown "demotion target rule unknown"))
  | some rule =>
      if reason ≠ ascii "conflict" ∧ reason ≠ ascii "host-explicit" then
        (runtime, .error (makeTemporalPolicyError .ruleSchemaInvalid
          "demotion reason outside the frozen closed set"))
      else if rule.status ≠ .runtime then
        (runtime, .error (makeTemporalPolicyError .ruleStateInvalid
          "demotion requires a Runtime rule"))
      else (setStatus runtime ruleId .candidate, .ok ())

def retireRule (runtime : ReactivePolicyRuntime) (ruleId : Bytes) :
    ReactivePolicyRuntime × PolicyResult Unit :=
  match runtime.rules.find? ruleId with
  | none => (runtime, .error (makeTemporalPolicyError .ruleUnknown "retire target rule unknown"))
  | some _ => (setStatus runtime ruleId .retired, .ok ())

structure Rebuilding where
  rebuilt : KeyedTable Bytes TemporalHistory := .empty
  sequences : KeyedTable Bytes Nat := .empty

def rebuildEntity (options : TemporalHistoryOptions) (sampledAt : Timestamp)
    (tables : Rebuilding) (entity : TrackedEntity) : PolicyResult Rebuilding := do
  let sequence := (tables.sequences.find? entity.entityKey).getD 0 + 1
  let rebuilt := tables.rebuilt.emplace entity.entityKey { capacity := options.capacity }
  let history := (rebuilt.find? entity.entityKey).getD { capacity := options.capacity }
  let longer ← history.append (historyEntry entity sampledAt sequence)
  return { rebuilt := rebuilt.assign entity.entityKey longer
           sequences := tables.sequences.assign entity.entityKey sequence }

def rebuildSample (options : TemporalHistoryOptions) (tables : Rebuilding)
    (sample : PolicyEpisodeSample) : PolicyResult Rebuilding := do
  sample.world.validate
  sample.world.entities.foldlM (rebuildEntity options sample.tick.tickTime) tables

def rebuildTemporalHistories (episodes : List PolicyEpisodeSample)
    (options : TemporalHistoryOptions) : PolicyResult (KeyedTable Bytes TemporalHistory) := do
  options.validate
  require (episodes ≠ []) .episodeSamplesInvalid "rebuild episode batch is empty"
  let tables ← episodes.foldlM (rebuildSample options) {}
  return tables.rebuilt

end Mira.Temporal
