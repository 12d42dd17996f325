import Mira.Temporal.Induction

/-!
What backs an induced rule. A rule stands for its group; where one signature comes from samples
that differ in what they are about, the rule takes this from the first of them, and counts all.
-/

namespace Mira.Temporal
open Mira Bytes

/-- No fact of a sample is without a number. -/
def Numbers (episodes : List PolicyEpisodeSample) : Prop :=
  ∀ sample ∈ episodes, ∀ fact ∈ sample.world.facts, fact.value.isNaN = false

theorem inUnitRange_number {number : Binary64} (range : inUnitRange number = true) :
    number.isNaN = false := by
  rw [inUnitRange, Bool.and_eq_true] at range
  exact (Binary64.le_iff.mp range.1).2.1

variable {world : PolicyWorldView}

theorem entity_numbers (valid : world.validate = .ok ()) {entity : TrackedEntity}
    (held : entity ∈ world.entities) :
    entity.motionPhase.isNaN = false ∧ entity.motionConfidence.isNaN = false := by
  obtain ⟨_, entities, _⟩ := Checked.ok_of_bind valid
  have own := require_ok.mp (Checked.ok_of_forM entities entity held)
  rw [Bool.and_eq_true, Bool.and_eq_true] at own
  exact ⟨inUnitRange_number own.1.2, inUnitRange_number own.2⟩

theorem facts_nodup (valid : world.validate = .ok ()) : (world.facts.map PolicyFact.key).Nodup := by
  obtain ⟨_, _, keys⟩ := Checked.ok_of_bind valid
  revert keys
  generalize world.facts = facts
  intro keys
  induction facts with
  | nil => exact List.nodup_nil
  | cons fact rest ih =>
      obtain ⟨_, apart, others⟩ := Checked.ok_of_bind keys
      refine List.nodup_cons.mpr ⟨?_, ih others⟩
      intro held
      obtain ⟨other, there, same⟩ := List.mem_map.mp held
      have all := List.all_eq_true.mp (require_ok.mp apart) other there
      exact of_decide_eq_true all same

variable {fact : PolicyFact}

theorem findFact_eq (valid : world.validate = .ok ()) (held : fact ∈ world.facts) :
    findFact world fact.key = some fact := by
  rw [findFact]
  cases found : world.facts.find? fun other => other.key = fact.key with
  | none => exact absurd (decide_eq_true rfl) (List.find?_eq_none.mp found fact held)
  | some other =>
      have same : other.key = fact.key := by simpa using List.find?_some found
      rw [List.inj_on_of_nodup_map (facts_nodup valid) (List.mem_of_find?_eq_some found) held same]

theorem Evidence.anchor_mem (evidence : Evidence) :
    evidence.anchor ∈ evidence.sample.world.entities :=
  List.mem_of_find?_eq_some evidence.found

/-- What the table of the greatest values holds under a key, for the facts it was raised by. -/
def RaisedBy (facts : List PolicyFact) (key : Bytes) : Option Binary64 → Prop
  | none => ∀ fact ∈ facts, fact.key ≠ key
  | some greatest => greatest.isNaN = false ∧ (∃ fact ∈ facts, fact.key = key) ∧
      ∀ bound : Binary64, bound.le greatest = true ↔
        ∃ fact ∈ facts, fact.key = key ∧ bound.le fact.value = true

theorem RaisedBy.other {facts : List PolicyFact} {key : Bytes} {held : Option Binary64}
    (raised : RaisedBy facts key held) (apart : fact.key ≠ key) :
    RaisedBy (facts ++ [fact]) key held := by
  have mem {holds : PolicyFact → Prop} :
      (∃ other ∈ facts ++ [fact], other.key = key ∧ holds other) ↔
      ∃ other ∈ facts, other.key = key ∧ holds other := by
    constructor
    · intro ⟨other, there, own, rest⟩
      rcases List.mem_append.mp there with before | last
      · exact ⟨other, before, own, rest⟩
      · rw [List.mem_singleton.mp last] at own
        exact absurd own apart
    · intro ⟨other, there, own, rest⟩
      exact ⟨other, List.mem_append_left _ there, own, rest⟩
  cases held with
  | none =>
      intro other there
      rcases List.mem_append.mp there with before | last
      · exact raised other before
      · rw [List.mem_singleton.mp last]
        exact apart
  | some greatest =>
      obtain ⟨number, ⟨source, there, own⟩, bounds⟩ := raised
      refine ⟨number, ⟨source, List.mem_append_left _ there, own⟩, ?_⟩
      intro bound
      rw [bounds, mem]

theorem raiseFact_other (table : KeyedTable Bytes Binary64) {key : Bytes} (apart : key ≠ fact.key) :
    (raiseFact table fact).find? key = table.find? key := by
  rw [raiseFact]
  cases table.find? fact.key with
  | none => rw [KeyedTable.find?_assign, if_neg apart]
  | some greatest => rw [KeyedTable.find?_assign, if_neg apart]

theorem raised_by (facts : List PolicyFact) (numbers : ∀ fact ∈ facts, fact.value.isNaN = false)
    (key : Bytes) :
    RaisedBy facts key ((facts.foldl raiseFact .empty).find? key) := by
  induction facts using List.reverseRecOn with
  | nil => exact fun _ none_ => absurd none_ List.not_mem_nil
  | append_singleton facts fact ih =>
      have here := numbers fact (List.mem_append_right _ (List.mem_singleton.mpr rfl))
      have before := ih fun other held => numbers other (List.mem_append_left _ held)
      have last : fact ∈ facts ++ [fact] := List.mem_append_right _ (List.mem_singleton.mpr rfl)
      rw [List.foldl_append, List.foldl_cons, List.foldl_nil]
      by_cases same : key = fact.key
      · rw [same] at before ⊢
        rw [raiseFact]
        cases found : (facts.foldl raiseFact .empty).find? fact.key with
        | none =>
            rw [found] at before
            rw [KeyedTable.find?_assign, if_pos rfl]
            refine ⟨here, ⟨fact, last, rfl⟩, ?_⟩
            intro bound
            constructor
            · exact fun below => ⟨fact, last, rfl, below⟩
            · intro ⟨other, there, own, below⟩
              rcases List.mem_append.mp there with early | late
              · exact absurd own (before other early)
              · rw [List.mem_singleton.mp late] at below
                exact below
        | some greatest =>
            rw [found] at before
            obtain ⟨number, _, bounds⟩ := before
            rw [KeyedTable.find?_assign, if_pos rfl]
            refine ⟨Binary64.max_isNaN number here, ⟨fact, last, rfl⟩, ?_⟩
            intro bound
            rw [Binary64.le_max_iff number here, bounds]
            constructor
            · rintro (⟨other, there, own, below⟩ | below)
              · exact ⟨other, List.mem_append_left _ there, own, below⟩
              · exact ⟨fact, last, rfl, below⟩
            · intro ⟨other, there, own, below⟩
              rcases List.mem_append.mp there with early | late
              · exact .inl ⟨other, early, own, below⟩
              · rw [List.mem_singleton.mp late] at below
                exact .inr below
      · rw [raiseFact_other _ same]
        exact before.other fun back => same back.symm

theorem mem_factMax {group : List Evidence}
    (numbers : ∀ member ∈ group, ∀ fact ∈ member.sample.world.facts, fact.value.isNaN = false)
    (key : Bytes) :
    RaisedBy (group.flatMap fun member => member.sample.world.facts) key
      ((factMax group).find? key) := by
  refine raised_by _ ?_ key
  intro fact held
  obtain ⟨member, among, there⟩ := List.mem_flatMap.mp held
  exact numbers member among fact there

variable (first : Evidence) (group : List Evidence)

theorem induced_filters :
    (inducedTransition first group).conditions.filter (fun condition => condition.field = .fact) =
      (inKeyOrder (factMax group)).map factCondition ∧
    (inducedTransition first group).conditions.filter (fun condition => condition.field ≠ .fact) =
      [{ field := .motion, compare := .eq, textValue := first.anchor.motion },
        { field := .motionPhase, compare := .ge, numberValue := leastPhase first group },
        { field := .motionConfidence, compare := .ge
          numberValue := leastConfidence first group }] ∧
    (inducedTransition first group).conditions.filter (fun condition => condition.field = .motion) =
      [{ field := .motion, compare := .eq, textValue := first.anchor.motion }] := by
  have facts : ∀ condition ∈ (inKeyOrder (factMax group)).map factCondition,
      condition.field = .fact := by
    intro condition held
    obtain ⟨entry, _, made⟩ := List.mem_map.mp held
    rw [← made]
    rfl
  have all : ((inKeyOrder (factMax group)).map factCondition).filter
      (fun condition => condition.field = .fact) = (inKeyOrder (factMax group)).map factCondition :=
    List.filter_eq_self.mpr fun condition held => decide_eq_true (facts condition held)
  have none_ : ((inKeyOrder (factMax group)).map factCondition).filter
      (fun condition => condition.field ≠ .fact) = [] :=
    List.filter_eq_nil_iff.mpr fun condition held => by simp [facts condition held]
  have motionless : ((inKeyOrder (factMax group)).map factCondition).filter
      (fun condition => condition.field = .motion) = [] :=
    List.filter_eq_nil_iff.mpr fun condition held => by simp [facts condition held]
  rw [inducedTransition]
  dsimp only
  rw [List.filter_append, List.filter_append, List.filter_append, all, none_, motionless]
  exact ⟨rfl, rfl, rfl⟩

theorem transitionMatches_induced (world : PolicyWorldView) :
    (transitionMatches (inducedTransition first group) world).isSome = true ↔
      (∀ entry ∈ inKeyOrder (factMax group),
        factConditionHolds (factCondition entry) world = true) ∧
      ∃ entity ∈ world.entities, entity.motion = first.anchor.motion ∧
        (leastPhase first group).le entity.motionPhase = true ∧
        (leastConfidence first group).le entity.motionConfidence = true := by
  obtain ⟨facts, scope, _⟩ := induced_filters first group
  rw [transitionMatches]
  rw [facts, scope]
  have meets (entity : TrackedEntity) :
      ([{ field := .motion, compare := .eq, textValue := first.anchor.motion },
        { field := .motionPhase, compare := .ge, numberValue := leastPhase first group },
        { field := .motionConfidence, compare := .ge
          numberValue := leastConfidence first group }] : List RuleCondition).all
          (fun condition => entityConditionHolds condition entity) = true ↔
      entity.motion = first.anchor.motion ∧
        (leastPhase first group).le entity.motionPhase = true ∧
        (leastConfidence first group).le entity.motionConfidence = true := by
    simp [entityConditionHolds, compareHolds]
  split
  · next held =>
      rw [if_neg (List.cons_ne_nil _ _), Option.isSome_map, List.find?_isSome]
      rw [List.all_map, List.all_eq_true] at held
      simp only [meets]
      exact ⟨fun found => ⟨held, found⟩, fun both => both.2⟩
  · next failed =>
      rw [List.all_map, List.all_eq_true] at failed
      exact ⟨fun none_ => absurd none_ Bool.false_ne_true, fun both => absurd both.1 failed⟩

structure Backs (rule : ReactiveRule) (sample : PolicyEpisodeSample) : Prop where
  handled : sample.agentHandled = true
  state : sample.activeState = rule.state
  transition : ∃ transition action anchor, rule.transitions = [transition] ∧
    transition.doActions = [action] ∧ sample.agentAction = some action ∧
    findAnchor sample.world = some anchor ∧
    ((transition.conditions.filter fun condition => condition.field = .motion).map
      RuleCondition.textValue) = [anchor.motion] ∧
    (∀ key, key ∈ (transition.conditions.filter fun condition => condition.field = .fact).map
      RuleCondition.factKey ↔ key ∈ sample.world.facts.map PolicyFact.key) ∧
    (transitionMatches transition sample.world).isSome = true

/-- A sample has what the first of a group is about, the facts of the whole group, and numbers no
worse than those of some members. -/
structure Fits (first : Evidence) (group : List Evidence) (other : Evidence) : Prop where
  state : other.sample.activeState = first.sample.activeState
  motion : other.anchor.motion = first.anchor.motion
  action : other.action = first.action
  keys : ∀ key, (∃ member ∈ group, ∃ fact ∈ member.sample.world.facts, fact.key = key) ↔
    key ∈ other.sample.world.facts.map PolicyFact.key
  moves : ∃ entity ∈ other.sample.world.entities, entity.motion = first.anchor.motion ∧
    (∃ member ∈ group, member.anchor.motionPhase.le entity.motionPhase = true) ∧
    (∃ member ∈ group, member.anchor.motionConfidence.le entity.motionConfidence = true)
  facts : ∀ fact ∈ other.sample.world.facts, ∃ member ∈ group,
    ∃ bound ∈ member.sample.world.facts, bound.key = fact.key ∧ fact.value.le bound.value = true

section
variable {first other : Evidence} {group : List Evidence}

theorem leastPhase_le (among : first ∈ group)
    (valid : ∀ member ∈ group, member.sample.world.validate = .ok ()) (bound : Binary64) :
    (leastPhase first group).le bound = true ↔
      ∃ member ∈ group, member.anchor.motionPhase.le bound = true := by
  have number : ∀ member ∈ group, member.anchor.motionPhase.isNaN = false :=
    fun member held => (entity_numbers (valid member held) member.anchor_mem).1
  rw [leastPhase, Binary64.foldl_min_le_iff _ _ (number first among) number]
  exact ⟨fun either => either.elim (fun own => ⟨first, among, own⟩) id, .inr⟩

theorem leastConfidence_le (among : first ∈ group)
    (valid : ∀ member ∈ group, member.sample.world.validate = .ok ()) (bound : Binary64) :
    (leastConfidence first group).le bound = true ↔
      ∃ member ∈ group, member.anchor.motionConfidence.le bound = true := by
  have number : ∀ member ∈ group, member.anchor.motionConfidence.isNaN = false :=
    fun member held => (entity_numbers (valid member held) member.anchor_mem).2
  rw [leastConfidence, Binary64.foldl_min_le_iff _ _ (number first among) number]
  exact ⟨fun either => either.elim (fun own => ⟨first, among, own⟩) id, .inr⟩

variable (numbers : ∀ member ∈ group, ∀ fact ∈ member.sample.world.facts,
  fact.value.isNaN = false)
include numbers

theorem mem_ruleKeys (key : Bytes) :
    key ∈ ((inKeyOrder (factMax group)).map factCondition).map RuleCondition.factKey ↔
      ∃ member ∈ group, ∃ fact ∈ member.sample.world.facts, fact.key = key := by
  have raised := mem_factMax numbers key
  rw [List.map_map, List.mem_map]
  constructor
  · intro ⟨entry, held, own⟩
    rw [mem_inKeyOrder, show entry.1 = key from own] at held
    rw [held] at raised
    obtain ⟨_, ⟨fact, there, same⟩, _⟩ := raised
    obtain ⟨member, among, inside⟩ := List.mem_flatMap.mp there
    exact ⟨member, among, fact, inside, same⟩
  · intro ⟨member, among, fact, inside, same⟩
    cases held : (factMax group).find? key with
    | none =>
        rw [held] at raised
        exact absurd same (raised fact (List.mem_flatMap.mpr ⟨member, among, inside⟩))
    | some greatest => exact ⟨(key, greatest), mem_inKeyOrder.mpr held, rfl⟩

theorem factConditions_hold {world : PolicyWorldView} (valid : world.validate = .ok ())
    (keys : ∀ key, (∃ member ∈ group, ∃ fact ∈ member.sample.world.facts, fact.key = key) ↔
      key ∈ world.facts.map PolicyFact.key) :
    (∀ entry ∈ inKeyOrder (factMax group), factConditionHolds (factCondition entry) world = true) ↔
      ∀ fact ∈ world.facts, ∃ member ∈ group, ∃ bound ∈ member.sample.world.facts,
        bound.key = fact.key ∧ fact.value.le bound.value = true := by
  have holds {fact : PolicyFact} (held : fact ∈ world.facts) (greatest : Binary64) :
      factConditionHolds (factCondition (fact.key, greatest)) world = fact.value.le greatest := by
    rw [factConditionHolds, factCondition]
    dsimp only
    rw [findFact_eq valid held]
    rfl
  have bounds {key : Bytes} {greatest : Binary64} (held : (factMax group).find? key = some greatest)
      (bound : Binary64) : bound.le greatest = true ↔ ∃ member ∈ group,
        ∃ fact ∈ member.sample.world.facts, fact.key = key ∧ bound.le fact.value = true := by
    have raised := mem_factMax numbers key
    rw [held] at raised
    rw [raised.2.2]
    constructor
    · intro ⟨fact, there, own⟩
      obtain ⟨member, among, inside⟩ := List.mem_flatMap.mp there
      exact ⟨member, among, fact, inside, own⟩
    · intro ⟨member, among, fact, inside, own⟩
      exact ⟨fact, List.mem_flatMap.mpr ⟨member, among, inside⟩, own⟩
  constructor
  · intro all fact held
    have own := (keys fact.key).mpr (List.mem_map_of_mem held)
    cases found : (factMax group).find? fact.key with
    | none =>
        have raised := mem_factMax numbers fact.key
        rw [found] at raised
        obtain ⟨member, among, source, inside, same⟩ := own
        exact absurd same (raised source (List.mem_flatMap.mpr ⟨member, among, inside⟩))
    | some greatest =>
        have met := all (fact.key, greatest) (mem_inKeyOrder.mpr found)
        rw [holds held] at met
        exact (bounds found fact.value).mp met
  · intro all entry held
    have found := mem_inKeyOrder.mp held
    have own := (mem_ruleKeys numbers entry.1).mp
      (List.mem_map.mpr ⟨factCondition entry, List.mem_map_of_mem held, rfl⟩)
    obtain ⟨fact, there, same⟩ := List.mem_map.mp ((keys entry.1).mp own)
    have met := holds there entry.2
    rw [same] at met
    rw [show entry = (entry.1, entry.2) from rfl, met, bounds found, ← same]
    exact all fact there

theorem backs_iff_fits (among : first ∈ group)
    (valid : ∀ member ∈ group, member.sample.world.validate = .ok ())
    (validOther : other.sample.world.validate = .ok ()) :
    Backs (inducedRule first group) other.sample ↔ Fits first group other := by
  obtain ⟨facts, _, motions⟩ := induced_filters first group
  have ruleKeys := mem_ruleKeys numbers
  constructor
  · intro backs
    obtain ⟨transition, action, anchor, same, does, acted, found, operand, keys, matched⟩ :=
      backs.transition
    have own : transition = inducedTransition first group := (List.cons.inj same).1.symm
    rw [own] at does operand keys matched
    rw [motions] at operand
    rw [facts] at keys
    rw [transitionMatches_induced] at matched
    have anchors : anchor = other.anchor := Option.some.inj (found.symm.trans other.found)
    have actions : action = other.action := Option.some.inj (acted.symm.trans other.acted)
    have keys' (key : Bytes) := (ruleKeys key).symm.trans (keys key)
    obtain ⟨conditions, entity, there, motion, phase, confidence⟩ := matched
    refine ⟨backs.state, ?_, ?_, keys', ?_, (factConditions_hold numbers validOther keys').mp
      conditions⟩
    · rw [← anchors]
      exact (List.cons.inj operand).1.symm
    · rw [← actions]
      exact (List.cons.inj does).1.symm
    · exact ⟨entity, there, motion, (leastPhase_le among valid _).mp phase,
        (leastConfidence_le among valid _).mp confidence⟩
  · intro fits
    obtain ⟨entity, there, motion, phase, confidence⟩ := fits.moves
    refine ⟨other.handled, fits.state, inducedTransition first group, first.action, other.anchor,
      rfl, rfl, ?_, other.found, ?_, ?_, ?_⟩
    · rw [← fits.action]
      exact other.acted
    · rw [motions, fits.motion]
      rfl
    · intro key
      rw [facts, ruleKeys]
      exact fits.keys key
    · rw [transitionMatches_induced]
      exact ⟨(factConditions_hold numbers validOther fits.keys).mpr fits.facts, entity, there,
        motion, (leastPhase_le among valid _).mpr phase,
        (leastConfidence_le among valid _).mpr confidence⟩

end

end Mira.Temporal
