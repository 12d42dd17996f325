import Mira.Temporal.Backed

/-!
Signatures. Two samples that agree have one signature unless a number of theirs is written in two
words, and rules are backed where a signature says what it is made of.
-/

namespace Mira.Temporal
open Mira Bytes

/-- Two samples are about the same, with equal numbers. -/
structure Agrees (one two : Evidence) : Prop where
  state : one.sample.activeState = two.sample.activeState
  motion : one.anchor.motion = two.anchor.motion
  action : one.action = two.action
  phase : one.anchor.motionPhase.eq two.anchor.motionPhase = true
  confidence : one.anchor.motionConfidence.eq two.anchor.motionConfidence = true
  facts : List.Forall₂ (fun fact fact' => fact.key = fact'.key ∧ fact.value.eq fact'.value = true)
    one.sample.world.sortedFacts two.sample.world.sortedFacts

/-- Their numbers are the same words, so that no zero has two signs. -/
structure SameWords (one two : Evidence) : Prop where
  phase : one.anchor.motionPhase = two.anchor.motionPhase
  confidence : one.anchor.motionConfidence = two.anchor.motionConfidence
  facts : one.sample.world.sortedFacts.map PolicyFact.value =
    two.sample.world.sortedFacts.map PolicyFact.value

variable {facts facts' : List PolicyFact}

theorem factTexts_injective (keys : facts.map PolicyFact.key = facts'.map PolicyFact.key)
    (same : facts.flatMap factText = facts'.flatMap factText) :
    facts.map PolicyFact.value = facts'.map PolicyFact.value := by
  induction facts generalizing facts' with
  | nil =>
      rw [List.map_nil, eq_comm, List.map_eq_nil_iff] at keys
      rw [keys]
  | cons fact rest ih =>
      cases facts' with
      | nil => cases keys
      | cons fact' rest' =>
          obtain ⟨key, keys⟩ := List.cons.inj keys
          rw [List.flatMap_cons, List.flatMap_cons] at same
          have lengths : (factText fact).length = (factText fact').length := by
            simp [factText, key, Binary64.raw_length]
          obtain ⟨texts, others⟩ := List.append_inj same lengths
          rw [factText, factText, key, List.cons.injEq, List.append_cancel_left_eq,
            List.cons.injEq] at texts
          rw [List.map_cons, List.map_cons, Binary64.raw_injective texts.2.2, ih keys others]

variable {one two : Evidence}

theorem Agrees.keys (agrees : Agrees one two) :
    one.sample.world.sortedFacts.map PolicyFact.key =
      two.sample.world.sortedFacts.map PolicyFact.key := by
  have both := agrees.facts
  revert both
  generalize one.sample.world.sortedFacts = facts
  generalize two.sample.world.sortedFacts = facts'
  intro both
  induction both with
  | nil => rfl
  | cons here _ ih => rw [List.map_cons, List.map_cons, here.1, ih]

theorem facts_ext (keys : facts.map PolicyFact.key = facts'.map PolicyFact.key)
    (values : facts.map PolicyFact.value = facts'.map PolicyFact.value) : facts = facts' := by
  induction facts generalizing facts' with
  | nil =>
      rw [List.map_nil, eq_comm, List.map_eq_nil_iff] at keys
      exact keys.symm
  | cons fact rest ih =>
      cases facts' with
      | nil => cases keys
      | cons fact' rest' =>
          obtain ⟨key, keys⟩ := List.cons.inj keys
          obtain ⟨value, values⟩ := List.cons.inj values
          rw [ih keys values]
          cases fact
          cases fact'
          cases key
          cases value
          rfl

theorem Agrees.signature_iff (agrees : Agrees one two) :
    one.signature = two.signature ↔ SameWords one two := by
  rw [Evidence.signature, Evidence.signature, agrees.state, agrees.motion, agrees.action]
  constructor
  · intro same
    simp only [List.append_assoc, List.append_cancel_left_eq, List.cons.injEq, true_and] at same
    obtain ⟨phase, same⟩ := List.append_inj same
      (by rw [Binary64.raw_length, Binary64.raw_length])
    obtain ⟨confidence, same⟩ := List.append_inj same
      (by rw [Binary64.raw_length, Binary64.raw_length])
    exact ⟨Binary64.raw_injective phase, Binary64.raw_injective confidence,
      factTexts_injective agrees.keys (List.append_cancel_right same)⟩
  · intro words
    rw [words.phase, words.confidence, facts_ext agrees.keys words.facts]

/-- Only the zeros have two words. -/
theorem Agrees.words_of_nonzero (agrees : Agrees one two) (phase : one.anchor.motionPhase.rank ≠ 0)
    (confidence : one.anchor.motionConfidence.rank ≠ 0)
    (values : ∀ fact ∈ one.sample.world.sortedFacts, fact.value.rank ≠ 0) :
    SameWords one two := by
  refine ⟨Binary64.eq_of_eq agrees.phase phase, Binary64.eq_of_eq agrees.confidence confidence, ?_⟩
  have both := agrees.facts
  revert both values
  generalize one.sample.world.sortedFacts = facts
  generalize two.sample.world.sortedFacts = facts'
  intro values both
  induction both with
  | nil => rfl
  | cons here _ ih =>
      obtain ⟨first, others⟩ := List.forall_mem_cons.mp values
      rw [List.map_cons, List.map_cons, Binary64.eq_of_eq here.2 first, ih others]

/-- The rule has as many samples behind it as it says. -/
def Backed (minSupport : Nat) (episodes : List PolicyEpisodeSample) (rule : ReactiveRule) : Prop :=
  minSupport ≤ rule.supportCount ∧ ∃ backing : List PolicyEpisodeSample,
    backing.Sublist episodes ∧ backing.length = rule.supportCount ∧
    ∀ sample ∈ backing, Backs rule sample

/-- The sample is counted by a rule. -/
def Counted (minSupport : Nat) (episodes : List PolicyEpisodeSample) (evidence : Evidence) : Prop :=
  evidence.sample ∈ episodes ∧ minSupport ≤ (supporters episodes evidence.signature).length

/-- Samples that agree are counted by one rule. -/
def Unsplit (minSupport : Nat) (episodes : List PolicyEpisodeSample) : Prop :=
  ∀ one two, Counted minSupport episodes one → Counted minSupport episodes two →
    Agrees one two → one.signature = two.signature

/-- Counted samples that agree have the same words. -/
def SignsAgree (minSupport : Nat) (episodes : List PolicyEpisodeSample) : Prop :=
  ∀ one two, Counted minSupport episodes one → Counted minSupport episodes two →
    Agrees one two → SameWords one two

/-- The group's count, a word of 32 bits, is large enough, and so many samples fit the group. -/
def Enough (minSupport : Nat) (episodes : List PolicyEpisodeSample) (first : Evidence)
    (group : List Evidence) : Prop :=
  minSupport ≤ group.length % 2 ^ 32 ∧ ∃ fitting : List Evidence,
    fitting.Sublist (evidenceOf episodes) ∧ fitting.length = group.length % 2 ^ 32 ∧
    ∀ other ∈ fitting, Fits first group other

/-- A group has enough samples where its members are about one thing and are not too many. -/
theorem Enough.of_agreeing {minSupport : Nat} {episodes : List PolicyEpisodeSample}
    {signature : Bytes} {first : Evidence} {rest : List Evidence} (numbers : Numbers episodes)
    (valid : ∀ sample ∈ episodes, sample.world.validate = .ok ())
    (supported : Supported minSupport episodes signature first rest)
    (few : (first :: rest).length < 2 ^ 32)
    (agree : ∀ member ∈ first :: rest, member.sample.activeState = first.sample.activeState ∧
      member.anchor.motion = first.anchor.motion ∧ member.action = first.action ∧
      ∀ key, key ∈ member.sample.world.facts.map PolicyFact.key ↔
        key ∈ first.sample.world.facts.map PolicyFact.key) :
    Enough minSupport episodes first (first :: rest) := by
  rw [Enough, Nat.mod_eq_of_lt few]
  refine ⟨supported.2, first :: rest, ?_, rfl, ?_⟩
  · rw [← supported.1]
    exact List.filter_sublist
  · intro other held
    have known := (supported.mem held).1
    obtain ⟨state, motion, action, keys⟩ := agree other held
    obtain ⟨phase, confidence⟩ := entity_numbers (valid _ known) other.anchor_mem
    refine ⟨state, motion, action, fun key => ?_, ⟨other.anchor, other.anchor_mem, motion,
      ⟨other, held, Binary64.le_iff.mpr ⟨phase, phase, le_rfl⟩⟩,
      ⟨other, held, Binary64.le_iff.mpr ⟨confidence, confidence, le_rfl⟩⟩⟩, fun fact there => ?_⟩
    · constructor
      · rintro ⟨member, among, fact, there, rfl⟩
        exact (keys _).mpr (((agree member among).2.2.2 _).mp (List.mem_map_of_mem there))
      · intro there
        obtain ⟨fact, inside, same⟩ := List.mem_map.mp there
        exact ⟨other, held, fact, inside, same⟩
    · have number := numbers _ known fact there
      exact ⟨other, held, fact, there, rfl, Binary64.le_iff.mpr ⟨number, number, le_rfl⟩⟩

theorem Backs.evidence {rule : ReactiveRule} {sample : PolicyEpisodeSample}
    (backs : Backs rule sample) : ∃ evidence : Evidence, evidence.sample = sample := by
  obtain ⟨_, action, anchor, _, _, acted, found, _⟩ := backs.transition
  exact ⟨⟨sample, anchor, action, backs.handled, acted, found⟩, rfl⟩

theorem evidenceOf_samples (episodes : List PolicyEpisodeSample) :
    ((evidenceOf episodes).map Evidence.sample).Sublist episodes := by
  induction episodes with
  | nil => exact .slnil
  | cons sample rest ih =>
      rw [evidenceOf, List.filterMap_cons]
      cases given : sample.evidence with
      | none => exact ih.cons _
      | some evidence =>
          dsimp only
          rw [List.map_cons, evidence_sample given]
          exact ih.cons_cons _

variable {episodes : List PolicyEpisodeSample}

theorem evidenceOf_length
    (all : ∀ sample ∈ episodes, ∃ evidence : Evidence, evidence.sample = sample) :
    (evidenceOf episodes).length = episodes.length := by
  induction episodes with
  | nil => rfl
  | cons sample rest ih =>
      obtain ⟨evidence, same⟩ := all sample List.mem_cons_self
      have given : sample.evidence = some evidence := same ▸ evidence.given
      rw [evidenceOf, List.filterMap_cons, given]
      dsimp only
      rw [List.length_cons, List.length_cons]
      exact congrArg (· + 1) (ih fun other held => all other (List.mem_cons_of_mem _ held))

theorem backed_iff {options : PolicyRuntimeOptions} (numbers : Numbers episodes)
    (valid : ∀ sample ∈ episodes, sample.world.validate = .ok ()) {signature : Bytes}
    {first : Evidence} {rest : List Evidence}
    (supported : Supported options.minSupport episodes signature first rest) :
    Backed options.minSupport episodes (inducedRule first (first :: rest)) ↔
      Enough options.minSupport episodes first (first :: rest) := by
  have among {other : Evidence} (held : other.sample ∈ episodes) :
      Backs (inducedRule first (first :: rest)) other.sample ↔ Fits first (first :: rest) other :=
    backs_iff_fits (fun member held => numbers _ (supported.mem held).1) List.mem_cons_self
      (fun member held => valid _ (supported.mem held).1) (valid _ held)
  refine and_congr_right fun _ => ?_
  constructor
  · intro ⟨backing, inside, count, backs⟩
    refine ⟨evidenceOf backing, inside.filterMap _, ?_, ?_⟩
    · rw [evidenceOf_length fun sample held => (backs sample held).evidence]
      exact count
    · intro other held
      have there := mem_evidenceOf.mp held
      exact (among (inside.subset there)).mp (backs _ there)
  · intro ⟨fitting, inside, count, fits⟩
    refine ⟨fitting.map Evidence.sample, ?_, ?_, ?_⟩
    · exact (inside.map _).trans (evidenceOf_samples episodes)
    · rw [List.length_map]
      exact count
    · intro sample held
      obtain ⟨other, there, same⟩ := List.mem_map.mp held
      rw [← same]
      exact (among (mem_evidenceOf.mp (inside.subset there))).mpr (fits other there)

/-- Rules are backed by identical evidence, and samples that agree are never split, exactly where
every supported group has enough samples that fit it and no two samples that agree differ in the
sign of a zero. -/
theorem induced_backed_iff (options : PolicyRuntimeOptions) (episodes : List PolicyEpisodeSample)
    (rules : List ReactiveRule) (numbers : Numbers episodes)
    (induced : induceCandidateRules options episodes = .ok rules) :
    ((∀ rule ∈ rules, Backed options.minSupport episodes rule) ∧
        Unsplit options.minSupport episodes) ↔
      (∀ signature first rest, Supported options.minSupport episodes signature first rest →
        Enough options.minSupport episodes first (first :: rest)) ∧
      SignsAgree options.minSupport episodes := by
  obtain ⟨same, valid⟩ := induceCandidateRules_ok induced
  refine and_congr ?_ ?_
  · constructor
    · intro all signature first rest supported
      have held := same.mem_iff.mpr (mem_candidates.mpr ⟨signature, first, rest, supported, rfl⟩)
      exact (backed_iff numbers valid supported).mp (all _ held)
    · intro all rule held
      obtain ⟨signature, first, rest, supported, made⟩ := mem_candidates.mp (same.mem_iff.mp held)
      rw [made]
      exact (backed_iff numbers valid supported).mpr (all signature first rest supported)
  · constructor
    · intro all one two counted counted' agrees
      exact agrees.signature_iff.mp (all one two counted counted' agrees)
    · intro all one two counted counted' agrees
      exact agrees.signature_iff.mpr (all one two counted counted' agrees)

def runner : TrackedEntity := { entityKey := [114], motion := [114], sourceRef := [115] }

def sampleAction (kind parameter : String) : PolicyEpisodeSample :=
  { world := { entities := [runner] }
    agentAction := some ⟨ascii kind, ascii parameter⟩ }

def mixedEpisodes : List PolicyEpisodeSample := [sampleAction "a/b" "c", sampleAction "a" "b/c"]

def inducedActions (options : PolicyRuntimeOptions) (episodes : List PolicyEpisodeSample) :
    Option (List (Nat × List (List PolicyAction))) :=
  (induceCandidateRules options episodes).toOption.map fun rules =>
    rules.map fun rule => (rule.supportCount, rule.transitions.map RuleTransition.doActions)

/-- Two samples of one group, with their facts in different orders. -/
def twoEpisodes : List PolicyEpisodeSample :=
  let height : PolicyFact := { key := [104], value := .one }
  let speed : PolicyFact := { key := [118] }
  [[height, speed], [speed, height]].map fun facts =>
    { world := { entities := [runner], facts := facts }
      agentAction := some ⟨ascii "a", ascii "b"⟩ }

theorem two_episodes_backed :
    ((∀ rule ∈ (candidates 2 twoEpisodes).insertionSort (fun left right =>
        keyLess right.ruleId left.ruleId = false), Backed 2 twoEpisodes rule) ∧
      Unsplit 2 twoEpisodes) ↔
    (∀ signature first rest, Supported 2 twoEpisodes signature first rest →
      Enough 2 twoEpisodes first (first :: rest)) ∧ SignsAgree 2 twoEpisodes := by
  refine induced_backed_iff { minSupport := 2 } twoEpisodes _ ?_ rfl
  simp only [Numbers, twoEpisodes, List.map_cons, List.map_nil, List.forall_mem_cons]
  decide

/-- One rule with the support of both, for an action that only one of them took. -/
theorem mixed_episodes_share_rule :
    inducedActions { minSupport := 2 } mixedEpisodes =
      some [(2, [[⟨ascii "a/b", ascii "c"⟩]])] ∧
    (mixedEpisodes.countP fun sample =>
      sample.agentAction = some ⟨ascii "a/b", ascii "c"⟩) = 1 := by
  decide +kernel

end Mira.Temporal
