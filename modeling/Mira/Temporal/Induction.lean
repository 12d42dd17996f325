import Mathlib.Data.List.Dedup
import Mira.Temporal.Runtime

/-!
The induction of rules. Handled samples with an entity in motion are grouped by a signature, one
text that strings together what a rule is about; a group that is large enough gives a rule that
covers its numbers.
-/

namespace Mira.Temporal
open Mira Bytes

/-- A sample that takes part: it was handled, by an action, with an entity in motion. -/
structure Evidence where
  sample : PolicyEpisodeSample
  anchor : TrackedEntity
  action : PolicyAction
  handled : sample.agentHandled = true
  acted : sample.agentAction = some action
  found : findAnchor sample.world = some anchor

def PolicyEpisodeSample.evidence (sample : PolicyEpisodeSample) : Option Evidence :=
  if handled : sample.agentHandled = true then
    match acted : sample.agentAction, found : findAnchor sample.world with
    | some action, some anchor => some ⟨sample, anchor, action, handled, acted, found⟩
    | _, _ => none
  else none

variable {evidence : Evidence}

theorem evidence_sample {sample : PolicyEpisodeSample} (given : sample.evidence = some evidence) :
    evidence.sample = sample := by
  rw [PolicyEpisodeSample.evidence] at given
  split at given
  · split at given
    · cases given
      rfl
    · cases given
  · cases given

theorem Evidence.given (evidence : Evidence) : evidence.sample.evidence = some evidence := by
  obtain ⟨sample, anchor, action, handled, acted, found⟩ := evidence
  rw [PolicyEpisodeSample.evidence, dif_pos handled]
  split
  · next action' anchor' acted' found' =>
      have actions : action' = action := Option.some.inj (acted'.symm.trans acted)
      have anchors : anchor' = anchor := Option.some.inj (found'.symm.trans found)
      cases actions
      cases anchors
      rfl
  · next none_ => exact absurd found (none_ action anchor acted)

def PolicyWorldView.sortedFacts (world : PolicyWorldView) : List PolicyFact :=
  world.facts.insertionSort fun first second => keyLess second.key first.key = false

def factText (fact : PolicyFact) : Bytes :=
  31 :: (ascii "fact=" ++ fact.key ++ 61 :: fact.value.raw)

/-- The signature of `induction_signature`. -/
def Evidence.signature (evidence : Evidence) : Bytes :=
  ascii "state=" ++ evidence.sample.activeState ++ 31 :: (ascii "motion=" ++
    evidence.anchor.motion ++ 31 :: (evidence.anchor.motionPhase.raw ++
    evidence.anchor.motionConfidence.raw ++ (evidence.sample.world.sortedFacts.flatMap factText ++
    31 :: (ascii "action=" ++ evidence.action.kind ++ 47 :: evidence.action.parameter))))

def groupSample (groups : KeyedTable Bytes (List Evidence)) (sample : PolicyEpisodeSample) :
    KeyedTable Bytes (List Evidence) :=
  match sample.evidence with
  | none => groups
  | some evidence =>
      groups.assign evidence.signature
        ((groups.find? evidence.signature).getD [] ++ [evidence])

def groupSamples (episodes : List PolicyEpisodeSample) : KeyedTable Bytes (List Evidence) :=
  episodes.foldl groupSample .empty

def leastPhase (first : Evidence) (group : List Evidence) : Binary64 :=
  group.foldl (fun least evidence => least.min evidence.anchor.motionPhase) first.anchor.motionPhase

def leastConfidence (first : Evidence) (group : List Evidence) : Binary64 :=
  group.foldl (fun least evidence => least.min evidence.anchor.motionConfidence)
    first.anchor.motionConfidence

def raiseFact (table : KeyedTable Bytes Binary64) (fact : PolicyFact) :
    KeyedTable Bytes Binary64 :=
  match table.find? fact.key with
  | none => table.assign fact.key fact.value
  | some greatest => table.assign fact.key (greatest.max fact.value)

def factMax (group : List Evidence) : KeyedTable Bytes Binary64 :=
  (group.flatMap fun evidence => evidence.sample.world.facts).foldl raiseFact .empty

def factCondition (entry : Bytes × Binary64) : RuleCondition :=
  { field := .fact, compare := .le, factKey := entry.1, numberValue := entry.2 }

def inducedTransition (first : Evidence) (group : List Evidence) : RuleTransition :=
  { conditions :=
      [{ field := .motion, compare := .eq, textValue := first.anchor.motion },
        { field := .motionPhase, compare := .ge, numberValue := leastPhase first group },
        { field := .motionConfidence, compare := .ge,
          numberValue := leastConfidence first group }] ++
      (inKeyOrder (factMax group)).map factCondition
    doActions := [first.action] }

def sourceRefs (group : List Evidence) : List Bytes :=
  ((group.map fun evidence => evidence.anchor.sourceRef).insertionSort fun first second =>
    keyLess second first = false).dedup

def shortDigest (content : Bytes) : Bytes := (digestString content).toString.take 16

/-- The rule of a group, with its first sample for what all of them should share. -/
def inducedRule (first : Evidence) (group : List Evidence) : ReactiveRule :=
  let rule : ReactiveRule :=
    { state := first.sample.activeState
      transitions := [inducedTransition first group]
      sourceRefs := sourceRefs group
      supportCount := group.length % 2 ^ 32 }
  { rule with ruleId := ascii "rr-" ++ shortDigest rule.content }

def candidateOf (minSupport : Nat) (group : List Evidence) : Option ReactiveRule :=
  match group with
  | [] => none
  | first :: _ => if group.length < minSupport then none else some (inducedRule first group)

def candidates (minSupport : Nat) (episodes : List PolicyEpisodeSample) : List ReactiveRule :=
  (inKeyOrder (groupSamples episodes)).filterMap fun entry => candidateOf minSupport entry.2

def induceCandidateRules (options : PolicyRuntimeOptions) (episodes : List PolicyEpisodeSample) :
    PolicyResult (List ReactiveRule) := do
  require (episodes ≠ []) .episodeSamplesInvalid "induction episode batch is empty"
  episodes.forM fun sample => sample.world.validate
  return (candidates options.minSupport episodes).insertionSort fun left right =>
    keyLess right.ruleId left.ruleId = false

def evidenceOf (episodes : List PolicyEpisodeSample) : List Evidence :=
  episodes.filterMap PolicyEpisodeSample.evidence

def supporters (episodes : List PolicyEpisodeSample) (signature : Bytes) : List Evidence :=
  (evidenceOf episodes).filter fun evidence => evidence.signature = signature

theorem supporters_append (episodes : List PolicyEpisodeSample) (sample : PolicyEpisodeSample)
    (signature : Bytes) :
    supporters (episodes ++ [sample]) signature = supporters episodes signature ++
      (sample.evidence.toList.filter fun evidence => evidence.signature = signature) := by
  rw [supporters, evidenceOf, List.filterMap_append, List.filter_append, supporters, evidenceOf]
  cases given : sample.evidence with
  | none => simp [given]
  | some evidence => simp [given]

theorem groupSamples_find (episodes : List PolicyEpisodeSample) (signature : Bytes) :
    (groupSamples episodes).find? signature =
      if supporters episodes signature = [] then none
      else some (supporters episodes signature) := by
  induction episodes using List.reverseRecOn with
  | nil => rfl
  | append_singleton episodes sample ih =>
      rw [supporters_append, groupSamples, List.foldl_append, List.foldl_cons, List.foldl_nil,
        ← groupSamples, groupSample]
      cases sample.evidence with
      | none =>
          rw [Option.toList_none, List.filter_nil, List.append_nil]
          exact ih
      | some evidence =>
          dsimp only
          rw [Option.toList_some, List.filter_singleton, KeyedTable.find?_assign]
          by_cases same : evidence.signature = signature
          · rw [same, if_pos rfl, ih, decide_eq_true rfl]
            split
            · next none_ => simp [none_]
            · simp
          · rw [if_neg fun back => same back.symm, decide_eq_false same, ih]
            simp

/-- The groups that are large enough, each with its signature. -/
def Supported (minSupport : Nat) (episodes : List PolicyEpisodeSample) (signature : Bytes)
    (first : Evidence) (rest : List Evidence) : Prop :=
  supporters episodes signature = first :: rest ∧ minSupport ≤ (first :: rest).length

theorem mem_inKeyOrder {ν : Type} {table : KeyedTable Bytes ν} {entry : Bytes × ν} :
    entry ∈ inKeyOrder table ↔ table.find? entry.1 = some entry.2 := by
  rw [inKeyOrder, List.mem_insertionSort, ← KeyedTable.find?_eq_some_iff]

variable {minSupport : Nat} {episodes : List PolicyEpisodeSample} {rule : ReactiveRule}

theorem entry_candidate {entry : Bytes × List Evidence} :
    (entry ∈ inKeyOrder (groupSamples episodes) ∧ candidateOf minSupport entry.2 = some rule) ↔
      ∃ first rest, Supported minSupport episodes entry.1 first rest ∧ entry.2 = first :: rest ∧
        rule = inducedRule first (first :: rest) := by
  rw [mem_inKeyOrder, groupSamples_find]
  constructor
  · intro ⟨held, made⟩
    split at held
    · cases held
    · next some_ =>
        have group := Option.some.inj held
        cases shape : entry.2 with
        | nil => exact absurd (group.trans shape) some_
        | cons first rest =>
            rw [shape, candidateOf] at made
            split at made
            · cases made
            · next many =>
                exact ⟨first, rest, ⟨group.trans shape, Nat.not_lt.mp many⟩, rfl,
                  (Option.some.inj made).symm⟩
  · intro ⟨first, rest, supported, shape, made⟩
    rw [supported.1, if_neg (List.cons_ne_nil _ _), shape, candidateOf,
      if_neg (Nat.not_lt.mpr supported.2), made]
    exact ⟨rfl, rfl⟩

theorem mem_candidates : rule ∈ candidates minSupport episodes ↔
      ∃ signature first rest, Supported minSupport episodes signature first rest ∧
        rule = inducedRule first (first :: rest) := by
  rw [candidates, List.mem_filterMap]
  constructor
  · intro ⟨entry, given⟩
    obtain ⟨first, rest, supported, _, made⟩ := entry_candidate.mp given
    exact ⟨entry.1, first, rest, supported, made⟩
  · intro ⟨signature, first, rest, supported, made⟩
    exact ⟨(signature, first :: rest), entry_candidate.mpr ⟨first, rest, supported, rfl, made⟩⟩

theorem induceCandidateRules_ok {options : PolicyRuntimeOptions} {rules : List ReactiveRule}
    (induced : induceCandidateRules options episodes = .ok rules) :
    rules.Perm (candidates options.minSupport episodes) ∧
      ∀ sample ∈ episodes, sample.world.validate = .ok () := by
  rw [induceCandidateRules] at induced
  obtain ⟨_, _, induced⟩ := Checked.ok_of_bind induced
  obtain ⟨_, valid, induced⟩ := Checked.ok_of_bind induced
  cases induced
  exact ⟨List.perm_insertionSort _ _, Checked.ok_of_forM valid⟩

theorem mem_evidenceOf : evidence ∈ evidenceOf episodes ↔ evidence.sample ∈ episodes := by
  rw [evidenceOf, List.mem_filterMap]
  constructor
  · intro ⟨sample, held, given⟩
    rw [evidence_sample given]
    exact held
  · intro held
    exact ⟨evidence.sample, held, evidence.given⟩

theorem Supported.mem {signature : Bytes} {first : Evidence} {rest : List Evidence}
    (supported : Supported minSupport episodes signature first rest) {member : Evidence}
    (held : member ∈ first :: rest) : member.sample ∈ episodes ∧ member.signature = signature := by
  rw [← supported.1, supporters, List.mem_filter, mem_evidenceOf, decide_eq_true_eq] at held
  exact held

end Mira.Temporal
