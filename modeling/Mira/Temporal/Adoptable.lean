import Mira.Temporal.Induction

/-!
Adoption of what was induced. A rule has three conditions on an entity and one on each fact its
group has seen, while the schema allows eight in all; and its name is the beginning of the digest
of what it says.
-/

namespace Mira.Temporal
open Mira Bytes

theorem raised_keys (facts : List PolicyFact) (key : Bytes) :
    ((facts.foldl raiseFact .empty).find? key).isSome = true ↔
      key ∈ facts.map PolicyFact.key := by
  induction facts using List.reverseRecOn with
  | nil => exact ⟨fun none_ => absurd none_ Bool.false_ne_true,
      fun none_ => absurd none_ List.not_mem_nil⟩
  | append_singleton facts fact ih =>
      rw [List.foldl_append, List.foldl_cons, List.foldl_nil, List.map_append, List.mem_append,
        ← ih, List.map_singleton, List.mem_singleton, raiseFact]
      cases (facts.foldl raiseFact .empty).find? fact.key with
      | none =>
          rw [KeyedTable.find?_assign]
          split
          · next same => simp [same]
          · next apart => simp [apart]
      | some greatest =>
          rw [KeyedTable.find?_assign]
          split
          · next same => simp [same]
          · next apart => simp [apart]

def factKeys (group : List Evidence) : List Bytes :=
  ((group.flatMap fun evidence => evidence.sample.world.facts).map PolicyFact.key).dedup

theorem factMax_length (group : List Evidence) :
    (inKeyOrder (factMax group)).length = (factKeys group).length := by
  have keys : ((factMax group).entries.map Prod.fst).Perm (factKeys group) := by
    refine (List.perm_ext_iff_of_nodup (factMax group).unique (List.nodup_dedup _)).mpr ?_
    intro key
    rw [List.mem_dedup, ← raised_keys, Option.isSome_iff_exists, List.mem_map]
    constructor
    · intro ⟨entry, held, own⟩
      exact ⟨entry.2, (KeyedTable.find?_eq_some_iff _ _ _).mpr (own ▸ held)⟩
    · intro ⟨greatest, found⟩
      exact ⟨(key, greatest), (KeyedTable.find?_eq_some_iff _ _ _).mp found, rfl⟩
  rw [inKeyOrder, List.length_insertionSort, ← keys.length_eq, List.length_map]

theorem inducedRule_valid (first : Evidence) (rest : List Evidence) :
    (inducedRule first (first :: rest)).validate = .ok () ↔
      (factKeys (first :: rest)).length ≤ 5 := by
  have refs : (inducedRule first (first :: rest)).sourceRefs ≠ [] := by
    intro none_
    have held : first.anchor.sourceRef ∈ sourceRefs (first :: rest) := by
      rw [sourceRefs, List.mem_dedup, List.mem_insertionSort]
      exact List.mem_cons_self
    rw [show sourceRefs (first :: rest) = [] from none_] at held
    exact List.not_mem_nil held
  have length : (inducedTransition first (first :: rest)).conditions.length =
      3 + (factKeys (first :: rest)).length := by
    rw [inducedTransition, List.length_append, List.length_map, factMax_length]
    rfl
  have transition : (inducedTransition first (first :: rest)).validate = .ok () ↔
      (factKeys (first :: rest)).length ≤ 5 := by
    have conditions : (inducedTransition first (first :: rest)).conditions ≠ [] := by
      rw [inducedTransition]
      exact List.cons_ne_nil _ _
    have actions : (inducedTransition first (first :: rest)).doActions ≠ [] :=
      List.cons_ne_nil _ _
    rw [RuleTransition.validate, require_ok, length, decide_eq_true conditions,
      decide_eq_true actions, Bool.true_and, Bool.true_and, decide_eq_true_eq,
      maxConditionsPerTransition]
    omega
  have single : (decide ((inducedRule first (first :: rest)).transitions ≠ []) &&
      decide ((inducedRule first (first :: rest)).transitions.length ≤ maxTransitionsPerRule)) =
        true := rfl
  rw [ReactiveRule.validate, require_ok.mpr single, require_ok.mpr (decide_eq_true refs),
    ← transition]
  constructor
  · intro valid
    exact Checked.ok_of_forM valid _ List.mem_cons_self
  · intro valid
    exact Checked.forM_ok_iff.mpr fun other held => List.mem_singleton.mp held ▸ valid

/-- The bounds of the runtime leave room for the rules. -/
structure Room (runtime : ReactivePolicyRuntime) (rules : List ReactiveRule) : Prop where
  total : runtime.rules.size + rules.length ≤ runtime.options.maxRules
  perState : ∀ state, stateCount (runtime.rules.entries.map Prod.snd ++ rules) state ≤
    runtime.options.maxRulesPerState

theorem freshRules_ok (runtime : ReactivePolicyRuntime) {rules : List ReactiveRule}
    (valid : ∀ rule ∈ rules, rule.validate = .ok ()) :
    ∃ fresh, freshRules runtime rules = .ok fresh ∧ fresh.Sublist rules := by
  have loop (rules known : List ReactiveRule) (valid : ∀ rule ∈ rules, rule.validate = .ok ()) :
      ∃ fresh, rules.foldlM (freshRule runtime) known = .ok (known ++ fresh) ∧
        fresh.Sublist rules := by
    induction rules generalizing known with
    | nil => exact ⟨[], by rw [List.append_nil]; rfl, .slnil⟩
    | cons rule rest ih =>
        have others (other : ReactiveRule) (held : other ∈ rest) :=
          valid other (List.mem_cons_of_mem _ held)
        rw [List.foldlM_cons, freshRule, valid rule List.mem_cons_self]
        by_cases known_ : (runtime.rules.contains rule.ruleId ||
            known.any fun other => other.ruleId = rule.ruleId) = true
        · obtain ⟨fresh, run, inside⟩ := ih known others
          rw [if_pos known_]
          exact ⟨fresh, run, inside.cons _⟩
        · obtain ⟨fresh, run, inside⟩ := ih (known ++ [rule]) others
          rw [if_neg known_]
          have longer : known ++ rule :: fresh = known ++ [rule] ++ fresh := List.append_cons _ _ _
          refine ⟨rule :: fresh, ?_, inside.cons_cons _⟩
          rw [longer]
          exact run
  obtain ⟨fresh, run, inside⟩ := loop rules [] valid
  exact ⟨fresh, run, inside⟩

theorem adopt_ok {runtime : ReactivePolicyRuntime} {rules : List ReactiveRule}
    (valid : ∀ rule ∈ rules, rule.validate = .ok ()) (room : Room runtime rules) :
    (adoptCandidateRules runtime rules).2.isOk = true := by
  obtain ⟨fresh, run, inside⟩ := freshRules_ok runtime valid
  have total : runtime.rules.size + fresh.length ≤ runtime.options.maxRules :=
    (Nat.add_le_add_left inside.length_le _).trans room.total
  have perState : ((runtime.rules.entries.map Prod.snd ++ fresh).all fun rule =>
      stateCount (runtime.rules.entries.map Prod.snd ++ fresh) rule.state ≤
        runtime.options.maxRulesPerState) = true := by
    rw [List.all_eq_true]
    intro rule _
    exact decide_eq_true (((inside.append_left _).countP_le).trans (room.perState rule.state))
  rw [adoptCandidateRules, run]
  simp only [bind, Except.bind]
  rw [require_ok.mpr (decide_eq_true total)]
  dsimp only
  rw [require_ok.mpr perState]
  rfl

def groupContent (first : Evidence) (group : List Evidence) : Bytes :=
  objectText [(ascii "state", writeString first.sample.activeState),
    (ascii "transitions", arrayText [transitionToJson (inducedTransition first group)])]

theorem inducedRule_id (first : Evidence) (group : List Evidence) :
    (inducedRule first group).ruleId = ascii "rr-" ++ shortDigest (groupContent first group) := rfl

/-- No two supported groups say the same. -/
def ContentsApart (minSupport : Nat) (episodes : List PolicyEpisodeSample) : Prop :=
  ∀ signature first rest signature' first' rest',
    Supported minSupport episodes signature first rest →
    Supported minSupport episodes signature' first' rest' → signature ≠ signature' →
    groupContent first (first :: rest) ≠ groupContent first' (first' :: rest')

/-- The short digests tell apart what supported groups say. -/
def DigestsApart (minSupport : Nat) (episodes : List PolicyEpisodeSample) : Prop :=
  ∀ signature first rest signature' first' rest',
    Supported minSupport episodes signature first rest →
    Supported minSupport episodes signature' first' rest' →
    groupContent first (first :: rest) ≠ groupContent first' (first' :: rest') →
    shortDigest (groupContent first (first :: rest)) ≠
      shortDigest (groupContent first' (first' :: rest'))

/-- The rules of two groups have different names. -/
def NamedApart (minSupport : Nat) (entry entry' : Bytes × List Evidence) : Prop :=
  ∀ rule, candidateOf minSupport entry.2 = some rule →
  ∀ rule', candidateOf minSupport entry'.2 = some rule' → rule.ruleId ≠ rule'.ruleId

instance namedApartSymm (minSupport : Nat) : Std.Symm (NamedApart minSupport) where
  symm _ _ apart rule made rule' made' same := apart rule' made' rule made same.symm

theorem ids_nodup_iff (minSupport : Nat) (episodes : List PolicyEpisodeSample) :
    ((candidates minSupport episodes).map ReactiveRule.ruleId).Nodup ↔
      ContentsApart minSupport episodes ∧ DigestsApart minSupport episodes := by
  have value {entry entry' : Bytes × List Evidence}
      (held : entry ∈ inKeyOrder (groupSamples episodes))
      (held' : entry' ∈ inKeyOrder (groupSamples episodes)) (same : entry.1 = entry'.1) :
      entry = entry' := by
    rw [mem_inKeyOrder] at held held'
    rw [same, held'] at held
    exact Prod.ext same (Option.some.inj held).symm
  have entries : (inKeyOrder (groupSamples episodes)).Nodup := by
    rw [inKeyOrder, (List.perm_insertionSort _ _).nodup_iff]
    exact List.Nodup.of_map _ (groupSamples episodes).unique
  have pairs : ((candidates minSupport episodes).map ReactiveRule.ruleId).Nodup ↔
      (inKeyOrder (groupSamples episodes)).Pairwise (NamedApart minSupport) := by
    rw [List.Nodup, List.pairwise_map, candidates, List.pairwise_filterMap]
    rfl
  rw [pairs]
  constructor
  · intro apart
    have ids {signature signature' : Bytes} {first first' : Evidence} {rest rest' : List Evidence}
        (supported : Supported minSupport episodes signature first rest)
        (supported' : Supported minSupport episodes signature' first' rest')
        (differ : signature ≠ signature') :
        shortDigest (groupContent first (first :: rest)) ≠
          shortDigest (groupContent first' (first' :: rest')) := by
      obtain ⟨held, made⟩ := (@entry_candidate minSupport episodes _ (signature, first :: rest)).mpr
        ⟨first, rest, supported, rfl, rfl⟩
      obtain ⟨held', made'⟩ :=
        (@entry_candidate minSupport episodes _ (signature', first' :: rest')).mpr
          ⟨first', rest', supported', rfl, rfl⟩
      intro same
      refine apart.forall held held' (fun equal => differ (congrArg Prod.fst equal)) _ made _
        made' ?_
      rw [inducedRule_id, inducedRule_id, same]
    constructor
    · intro signature first rest signature' first' rest' supported supported' differ same
      exact ids supported supported' differ (by rw [same])
    · intro signature first rest signature' first' rest' supported supported' differ
      refine ids supported supported' ?_
      intro same
      have groups : first :: rest = first' :: rest' := by
        rw [← supported.1, ← supported'.1, same]
      obtain ⟨firsts, rests⟩ := List.cons.inj groups
      rw [firsts, rests] at differ
      exact differ rfl
  · rintro ⟨contents, digests⟩
    refine entries.pairwise_of_forall_ne ?_
    intro entry held entry' held' differ rule made rule' made' same
    obtain ⟨first, rest, supported, _, own⟩ := entry_candidate.mp ⟨held, made⟩
    obtain ⟨first', rest', supported', _, own'⟩ := entry_candidate.mp ⟨held', made'⟩
    rw [own, own', inducedRule_id, inducedRule_id, List.append_cancel_left_eq] at same
    have signatures : entry.1 ≠ entry'.1 := fun equal => differ (value held held' equal)
    exact digests _ _ _ _ _ _ supported supported'
      (contents _ _ _ _ _ _ supported supported' signatures) same

/-- Induced rules are adoptable exactly where no supported group has seen more than five facts and
their names differ. -/
theorem induced_adoptable_iff (options : PolicyRuntimeOptions)
    (episodes : List PolicyEpisodeSample) (rules : List ReactiveRule)
    (induced : induceCandidateRules options episodes = .ok rules) :
    ((∀ rule ∈ rules, rule.validate = .ok ()) ∧ (rules.map ReactiveRule.ruleId).Nodup ∧
        ∀ runtime, Room runtime rules → (adoptCandidateRules runtime rules).2.isOk = true) ↔
      (∀ signature first rest, Supported options.minSupport episodes signature first rest →
        (factKeys (first :: rest)).length ≤ 5) ∧
      ContentsApart options.minSupport episodes ∧ DigestsApart options.minSupport episodes := by
  obtain ⟨same, _⟩ := induceCandidateRules_ok induced
  have valid : (∀ rule ∈ rules, rule.validate = .ok ()) ↔
      ∀ signature first rest, Supported options.minSupport episodes signature first rest →
        (factKeys (first :: rest)).length ≤ 5 := by
    constructor
    · intro all signature first rest supported
      exact (inducedRule_valid first rest).mp (all _ (same.mem_iff.mpr
        (mem_candidates.mpr ⟨signature, first, rest, supported, rfl⟩)))
    · intro all rule held
      obtain ⟨signature, first, rest, supported, made⟩ := mem_candidates.mp (same.mem_iff.mp held)
      rw [made]
      exact (inducedRule_valid first rest).mpr (all signature first rest supported)
  rw [← ids_nodup_iff, (same.map ReactiveRule.ruleId).nodup_iff, valid]
  constructor
  · intro ⟨few, names, _⟩
    exact ⟨few, names⟩
  · intro ⟨few, names⟩
    exact ⟨few, names, fun runtime room => adopt_ok (valid.mpr few) room⟩

def crowdedEpisode (keys : List UInt8) : PolicyEpisodeSample :=
  { world :=
      { entities := [{ entityKey := [114], motion := [114] }]
        facts := keys.map fun key => { key := [key] } }
    agentAction := some ⟨[97], []⟩ }

theorem five_facts_adoptable :
    ((∀ rule ∈ (candidates 1 [crowdedEpisode [1, 2, 3, 4, 5]]).insertionSort (fun left right =>
        keyLess right.ruleId left.ruleId = false), rule.validate = .ok ()) ∧
      (((candidates 1 [crowdedEpisode [1, 2, 3, 4, 5]]).insertionSort (fun left right =>
        keyLess right.ruleId left.ruleId = false)).map ReactiveRule.ruleId).Nodup ∧
      ∀ runtime, Room runtime ((candidates 1 [crowdedEpisode [1, 2, 3, 4, 5]]).insertionSort
          fun left right => keyLess right.ruleId left.ruleId = false) →
        (adoptCandidateRules runtime ((candidates 1 [crowdedEpisode [1, 2, 3, 4, 5]]).insertionSort
          fun left right => keyLess right.ruleId left.ruleId = false)).2.isOk = true) ↔
    (∀ signature first rest, Supported 1 [crowdedEpisode [1, 2, 3, 4, 5]] signature first rest →
      (factKeys (first :: rest)).length ≤ 5) ∧
    ContentsApart 1 [crowdedEpisode [1, 2, 3, 4, 5]] ∧
    DigestsApart 1 [crowdedEpisode [1, 2, 3, 4, 5]] :=
  induced_adoptable_iff { minSupport := 1 } [crowdedEpisode [1, 2, 3, 4, 5]] _ rfl

def phaseEpisode (bits : UInt64) : PolicyEpisodeSample :=
  { world := { entities := [{ entityKey := [114], motion := [114], motionPhase := ⟨bits⟩ }] }
    agentAction := some ⟨[97], []⟩ }

/-- Six facts make a rule of nine conditions, which no runtime adopts; the two zeros make two rules
of one name. -/
theorem six_facts_refused :
    (induceCandidateRules { minSupport := 1 } [crowdedEpisode [1, 2, 3, 4, 5, 6]]).toOption.map
      (fun rules => (rules.map fun rule => rule.validate.toOption,
        (adoptCandidateRules { options := {} } rules).2.toOption)) = some ([none], none) ∧
    (induceCandidateRules { minSupport := 1 } [phaseEpisode 0, phaseEpisode 0x8000000000000000]
      ).toOption.map (fun rules => decide (rules.map ReactiveRule.ruleId).Nodup) = some false := by
  decide +kernel

end Mira.Temporal
