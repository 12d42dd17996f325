import Mathlib.Data.List.Dedup
import Mira.WorldState.Evicted

/-!
Observations. The entity loop places one element after the other and makes room for each; over
the whole loop it comes to one eviction among the entities that the observation does not name,
provided that they all go before an entity that has just been seen.
-/

namespace Mira.World
open Mira Bytes Eviction

/-- What every run of the operators keeps. -/
structure Sound (options : WorldStateOptions) (state : WorldState) : Prop where
  valid : state.validate = .ok ()
  distinct : Distinct state.entities
  bounded : state.entities.length ≤ options.maxEntities

def place (input : WorldObservationInput) (options : WorldStateOptions)
    (table : List WorldEntity) (element : ElementRef) : List WorldEntity :=
  if element ∈ table.map WorldEntity.element then
    table.map fun entity => if entity.element = element then input.fresh element else entity
  else if table.length < options.maxEntities then table ++ [input.fresh element]
  else ((evictLeast evictsBefore table).map Prod.snd).getD [] ++ [input.fresh element]

section
variable {input : WorldObservationInput} {options : WorldStateOptions}

theorem refreshed_elements (table : List WorldEntity) (element : ElementRef) :
    (table.map fun entity =>
      if entity.element = element then input.fresh element else entity).map WorldEntity.element =
        table.map WorldEntity.element := by
  rw [List.map_map]
  apply List.map_congr_left
  intro entity _
  by_cases here : entity.element = element
  · rw [Function.comp_apply, if_pos here, here]
    rfl
  · rw [Function.comp_apply, if_neg here]

variable {table left : List WorldEntity} {element : ElementRef}

theorem added_distinct {victims : List WorldEntity} (distinct : Distinct table)
    (parts : (victims ++ left).Perm table) (new : element ∉ table.map WorldEntity.element) :
    Distinct (left ++ [input.fresh element]) := by
  have whole : Distinct (victims ++ left) := ((parts.map _).nodup_iff).mpr distinct
  rw [Distinct, List.map_append] at whole ⊢
  refine List.nodup_append.mpr ⟨(List.nodup_append.mp whole).2.1, List.nodup_singleton _, ?_⟩
  intro first held last added same
  rw [List.map_singleton, List.mem_singleton] at added
  obtain ⟨entity, kept, own⟩ := List.mem_map.mp held
  exact new (List.mem_map.mpr ⟨entity, parts.mem_iff.mp (List.mem_append_right _ kept),
    own.trans (same.trans added)⟩)

theorem place_keeps (distinct : Distinct table) (bounded : table.length ≤ options.maxEntities)
    (some_ : 0 < options.maxEntities) (element : ElementRef) :
    Distinct (place input options table element) ∧
      (place input options table element).length ≤ options.maxEntities ∧
      ∀ entity ∈ place input options table element,
        entity ∈ table ∨ entity = input.fresh element := by
  rw [place]
  split
  · refine ⟨?_, by rw [List.length_map]; exact bounded, ?_⟩
    · rw [Distinct, refreshed_elements]
      exact distinct
    · intro entity held
      obtain ⟨before, present, same⟩ := List.mem_map.mp held
      split at same
      · exact .inr same.symm
      · exact .inl (same ▸ present)
  · next new =>
      have added {left : List WorldEntity} (inside : ∀ entity ∈ left, entity ∈ table) :
          ∀ entity ∈ left ++ [input.fresh element],
            entity ∈ table ∨ entity = input.fresh element := by
        intro entity held
        rcases List.mem_append.mp held with kept | last
        · exact .inl (inside entity kept)
        · exact .inr (List.mem_singleton.mp last)
      split
      · next room =>
          refine ⟨added_distinct distinct (List.Perm.refl ([] ++ table)) new, ?_,
            added fun _ held => held⟩
          rw [List.length_append, List.length_singleton]
          exact room
      · next full =>
          cases taken : evictLeast evictsBefore table with
          | none =>
              refine ⟨List.nodup_singleton _, some_, added fun _ none_ => ?_⟩
              exact absurd none_ List.not_mem_nil
          | some found =>
              have parts : ([found.1] ++ found.2).Perm table := evictLeast_perm evictsBefore taken
              have lengths := parts.length_eq
              rw [List.length_append, List.length_singleton] at lengths
              refine ⟨added_distinct distinct parts new, ?_, added fun _ held =>
                parts.mem_iff.mp (List.mem_append_right _ held)⟩
              rw [List.length_append, List.length_singleton, Option.map_some, Option.getD_some]
              omega

variable {state next : WorldState} {digest : Sha256Digest} {changedAt : Timestamp}

theorem appendChange_ok {kind : WorldChangeKind} {summary : Bytes}
    (noted : appendChange state kind summary digest changedAt options = .ok next) :
    summary.length ≤ options.maxChangeSummaryBytes ∧
      next = appendChangeUnchecked state kind summary digest changedAt options := by
  rw [appendChange] at noted
  obtain ⟨_, short, rest⟩ := Checked.ok_of_bind noted
  cases rest
  exact ⟨by simpa using require_ok.mp short, rfl⟩

theorem modify_first (distinct : Distinct table) (element : ElementRef) :
    table.modify (table.findIdx fun entity => sameElement entity.element element)
        (fun entity => input.fresh entity.element) =
      table.map fun entity => if entity.element = element then input.fresh element else entity := by
  induction table with
  | nil => rfl
  | cons entity rest ih =>
      obtain ⟨absent, apart⟩ := List.nodup_cons.mp distinct
      rw [List.findIdx_cons]
      by_cases here : entity.element = element
      · have found : sameElement entity.element element = true := sameElement_iff.mpr here
        have others : rest.map (fun entity =>
            if entity.element = element then input.fresh element else entity) = rest.map id := by
          apply List.map_congr_left
          intro other held
          rw [if_neg, id]
          rintro same
          exact absent (here.trans same.symm ▸ List.mem_map_of_mem held)
        rw [found, cond_true, List.modify_zero_cons, List.map_cons, if_pos here, others,
          List.map_id, here]
      · have missed : sameElement entity.element element = false := by
          rw [Bool.eq_false_iff]
          exact fun same => here (sameElement_iff.mp same)
        rw [missed, cond_false, List.modify_succ_cons, List.map_cons, if_neg here, ih apart]

theorem findIdx_element (table : List WorldEntity) (element : ElementRef) :
    (table.findIdx fun entity => sameElement entity.element element) < table.length ↔
      element ∈ table.map WorldEntity.element := by
  rw [List.findIdx_lt_length, List.mem_map]
  constructor
  · intro ⟨entity, held, same⟩
    exact ⟨entity, held, sameElement_iff.mp same⟩
  · intro ⟨entity, held, same⟩
    exact ⟨entity, held, sameElement_iff.mpr same⟩

theorem evictOne_entities (evicted : evictOne digest changedAt options state = .ok next) :
    next.entities = ((evictLeast evictsBefore state.entities).map Prod.snd).getD [] := by
  rw [evictOne] at evicted
  cases taken : evictLeast evictsBefore state.entities with
  | none =>
      rw [taken] at evicted
      cases evicted
      cases held : state.entities with
      | nil => rfl
      | cons => rw [held] at taken; cases taken
  | some found =>
      rw [taken] at evicted
      obtain ⟨noted, _, last⟩ := Checked.ok_of_bind evicted
      cases last
      rfl

theorem makeRoom_entities {rounds : Nat} (bounded : state.entities.length ≤ options.maxEntities)
    (some_ : 0 < options.maxEntities) (enough : state.entities.length ≤ rounds)
    (made : makeRoom digest changedAt options rounds state = .ok next) :
    next.entities = if state.entities.length < options.maxEntities then state.entities
      else ((evictLeast evictsBefore state.entities).map Prod.snd).getD [] := by
  have stops {rounds : Nat} {state next : WorldState}
      (room : state.entities.length < options.maxEntities)
      (made : makeRoom digest changedAt options rounds state = .ok next) : next = state := by
    cases rounds with
    | zero => cases made; rfl
    | succ rounds =>
        rw [makeRoom, if_neg (Nat.not_le.mpr room)] at made
        cases made
        rfl
  by_cases room : state.entities.length < options.maxEntities
  · rw [if_pos room, stops room made]
  · rw [if_neg room]
    cases rounds with
    | zero => omega
    | succ rounds =>
        rw [makeRoom, if_pos (Nat.not_lt.mp room)] at made
        obtain ⟨evicted, one, rest⟩ := Checked.ok_of_bind made
        have table := evictOne_entities one
        have shorter : evicted.entities.length < options.maxEntities := by
          rw [table]
          cases taken : evictLeast evictsBefore state.entities with
          | none => exact some_
          | some found =>
              have lengths := (evictLeast_perm evictsBefore taken).length_eq
              rw [List.length_cons] at lengths
              simp only [Option.map_some, Option.getD_some]
              omega
        rw [stops shorter rest, table]

variable {loop after : ObservationLoop}

theorem observeElement_entities (distinct : Distinct loop.state.entities)
    (bounded : loop.state.entities.length ≤ options.maxEntities) (some_ : 0 < options.maxEntities)
    (observed : observeElement input options loop element = .ok after) :
    after.state.entities = place input options loop.state.entities element := by
  rw [observeElement] at observed
  rw [place]
  dsimp only at observed
  split at observed
  · next present =>
      rw [if_pos ((findIdx_element _ _).mp present)]
      cases observed
      exact modify_first distinct element
  · next absent =>
      rw [if_neg fun held => absent ((findIdx_element _ _).mpr held)]
      obtain ⟨room, made, last⟩ := Checked.ok_of_bind observed
      have table := makeRoom_entities bounded some_ le_rfl made
      cases last
      dsimp only
      rw [table]
      split
      · rfl
      · rfl

/-- Every entity goes before a different element that has just been seen. -/
def Outlived (input : WorldObservationInput) (table : List WorldEntity) : Prop :=
  ∀ entity ∈ table, ∀ element ∈ input.elements, entity.element ≠ element →
    evictsBefore entity (input.fresh element) = true

theorem outlived_of_later (later : ∀ entity ∈ table, entity.lastSeenAt.wall < input.observedAt.wall) :
    Outlived input table := by
  intro entity held element _ _
  have earlier : entity.lastSeenAt.wall < (input.fresh element).lastSeenAt.wall :=
    later entity held
  have live : (input.fresh element).stale = false := rfl
  rw [evictsBefore, live]
  cases stale : entity.stale with
  | true => rfl
  | false =>
      rw [if_neg (not_not.mpr rfl), if_pos earlier.ne]
      exact decide_eq_true earlier

/-- What the loop keeps: with the elements of `done` behind it, the table holds each of them as it
was just seen, and of the other old entities all but some that go before those it still holds. -/
structure Placed (input : WorldObservationInput) (options : WorldStateOptions)
    (old : List WorldEntity) (done : List ElementRef) (table : List WorldEntity) : Prop where
  distinct : Distinct table
  bounded : table.length ≤ options.maxEntities
  origin : ∀ entity ∈ table, (entity ∈ old ∧ entity.element ∉ done) ∨
    (entity.element ∈ done ∧ entity = input.fresh entity.element)
  seen : ∀ element ∈ done, input.fresh element ∈ table
  gone : ∀ entity ∈ old, entity.element ∉ input.elements → entity ∉ table →
    table.length = options.maxEntities ∧
      ∀ kept ∈ table, kept.element ∉ input.elements → evictionKey entity ≤ evictionKey kept

variable {old : List WorldEntity}

theorem placed_start (distinct : Distinct old) (bounded : old.length ≤ options.maxEntities) :
    Placed input options old [] old where
  distinct := distinct
  bounded := bounded
  origin _ held := .inl ⟨held, List.not_mem_nil⟩
  seen _ none_ := absurd none_ List.not_mem_nil
  gone _ held _ missing := absurd held missing

variable {done : List ElementRef}

theorem Placed.refresh (placed : Placed input options old done table)
    (named : element ∈ input.elements) (held : element ∈ table.map WorldEntity.element) :
    Placed input options old (done ++ [element]) (table.map fun entity =>
      if entity.element = element then input.fresh element else entity) := by
  have other {entity : WorldEntity} (unnamed : entity.element ∉ input.elements) :
      entity.element ≠ element := fun same => unnamed (same ▸ named)
  have back {entity : WorldEntity} (unnamed : entity.element ∉ input.elements)
      (kept : entity ∈ table.map fun entity =>
        if entity.element = element then input.fresh element else entity) : entity ∈ table := by
    obtain ⟨before, present, same⟩ := List.mem_map.mp kept
    by_cases here : before.element = element
    · rw [if_pos here] at same
      rw [← same] at unnamed
      exact absurd named unnamed
    · rw [if_neg here] at same
      exact same ▸ present
  refine ⟨?_, ?_, ?_, ?_, ?_⟩
  · rw [Distinct, refreshed_elements]
    exact placed.distinct
  · rw [List.length_map]
    exact placed.bounded
  · intro entity kept
    obtain ⟨before, present, same⟩ := List.mem_map.mp kept
    by_cases here : before.element = element
    · rw [if_pos here] at same
      rw [← same]
      exact .inr ⟨List.mem_append_right _ (List.mem_singleton.mpr rfl), rfl⟩
    · rw [if_neg here] at same
      rw [← same]
      rcases placed.origin before present with ⟨first, waiting⟩ | ⟨first, fresh⟩
      · refine .inl ⟨first, ?_⟩
        rw [List.mem_append, List.mem_singleton, not_or]
        exact ⟨waiting, here⟩
      · exact .inr ⟨List.mem_append_left _ first, fresh⟩
  · intro other held'
    by_cases here : other = element
    · obtain ⟨entity, present, same⟩ := List.mem_map.mp held
      exact List.mem_map.mpr ⟨entity, present, by rw [if_pos same, here]⟩
    · have before : other ∈ done := by
        rcases List.mem_append.mp held' with before | last
        · exact before
        · exact absurd (List.mem_singleton.mp last) here
      exact List.mem_map.mpr ⟨_, placed.seen other before, if_neg here⟩
  · intro entity first unnamed missing
    have absent : entity ∉ table := by
      intro present
      exact missing (List.mem_map.mpr ⟨entity, present, if_neg (other unnamed)⟩)
    obtain ⟨full, below⟩ := placed.gone entity first unnamed absent
    refine ⟨by rw [List.length_map]; exact full, ?_⟩
    intro kept present unnamed'
    exact below kept (back unnamed' present) unnamed'

theorem Placed.add (placed : Placed input options old done table) (victims left : List WorldEntity)
    (named : element ∈ input.elements) (new : element ∉ table.map WorldEntity.element)
    (parts : (victims ++ left).Perm table) (room : left.length < options.maxEntities)
    (needed : victims ≠ [] → left.length + 1 = options.maxEntities)
    (waiting : ∀ victim ∈ victims, victim.element ∉ done)
    (below : ∀ victim ∈ victims, ∀ kept ∈ left, evictionKey victim ≤ evictionKey kept) :
    Placed input options old (done ++ [element]) (left ++ [input.fresh element]) := by
  have inside {entity : WorldEntity} (kept : entity ∈ left) : entity ∈ table :=
    parts.mem_iff.mp (List.mem_append_right _ kept)
  have missed : element ∉ left.map WorldEntity.element := by
    intro held
    obtain ⟨entity, kept, same⟩ := List.mem_map.mp held
    exact new (List.mem_map.mpr ⟨entity, inside kept, same⟩)
  refine ⟨?_, ?_, ?_, ?_, ?_⟩
  · exact added_distinct placed.distinct parts new
  · rw [List.length_append, List.length_singleton]
    exact room
  · intro entity held
    rcases List.mem_append.mp held with kept | added
    · rcases placed.origin entity (inside kept) with ⟨first, waiting⟩ | ⟨first, fresh⟩
      · refine .inl ⟨first, ?_⟩
        rw [List.mem_append, List.mem_singleton, not_or]
        exact ⟨waiting, fun same => missed (same ▸ List.mem_map_of_mem kept)⟩
      · exact .inr ⟨List.mem_append_left _ first, fresh⟩
    · rw [List.mem_singleton.mp added]
      exact .inr ⟨List.mem_append_right _ (List.mem_singleton.mpr rfl), rfl⟩
  · intro other held
    rcases List.mem_append.mp held with before | last
    · have present := parts.mem_iff.mpr (placed.seen other before)
      rcases List.mem_append.mp present with victim | kept
      · exact absurd before (waiting _ victim)
      · exact List.mem_append_left _ kept
    · rw [List.mem_singleton.mp last]
      exact List.mem_append_right _ (List.mem_singleton.mpr rfl)
  · intro entity first unnamed missing
    rw [List.mem_append, not_or] at missing
    have kept_of {kept : WorldEntity} (held : kept ∈ left ++ [input.fresh element])
        (unnamed : kept.element ∉ input.elements) : kept ∈ left := by
      rcases List.mem_append.mp held with kept | added
      · exact kept
      · rw [List.mem_singleton.mp added] at unnamed
        exact absurd named unnamed
    have length : (left ++ [input.fresh element]).length = left.length + 1 := by
      rw [List.length_append, List.length_singleton]
    rw [length]
    by_cases present : entity ∈ table
    · have victim : entity ∈ victims := by
        rcases List.mem_append.mp (parts.mem_iff.mpr present) with victim | kept
        · exact victim
        · exact absurd kept missing.1
      refine ⟨needed (List.ne_nil_of_mem victim), ?_⟩
      intro kept held unnamed'
      exact below entity victim kept (kept_of held unnamed')
    · obtain ⟨full, low⟩ := placed.gone entity first unnamed present
      refine ⟨needed ?_, ?_⟩
      · intro none_
        have lengths := parts.length_eq
        rw [none_, List.nil_append] at lengths
        omega
      · intro kept held unnamed'
        exact low kept (inside (kept_of held unnamed')) unnamed'

/-- A full table that lacks an element of the observation gives up an entity that the loop has not
placed: there is one, since the observation fits, and it goes before those just seen. -/
theorem Placed.victim_waits {victim : WorldEntity} (placed : Placed input options old done table)
    (outlived : Outlived input old) (fits : input.elements.length ≤ options.maxEntities)
    (known : done ⊆ input.elements) (named : element ∈ input.elements)
    (new : element ∉ table.map WorldEntity.element) (full : options.maxEntities ≤ table.length)
    (taken : evictLeast evictsBefore table = some (victim, left)) : victim.element ∉ done := by
  intro placedBefore
  have held : victim ∈ table := (evictLeast_perm evictsBefore taken).mem_iff.mp (by simp)
  have some_ : ∃ entity ∈ table, entity.element ∉ done := by
    by_contra none_
    have inside : element :: table.map WorldEntity.element ⊆ input.elements := by
      refine List.cons_subset.mpr ⟨named, ?_⟩
      intro other held
      obtain ⟨entity, present, same⟩ := List.mem_map.mp held
      by_contra out
      exact none_ ⟨entity, present, fun before => out (same ▸ known before)⟩
    have many := (List.subperm_of_subset (List.nodup_cons.mpr ⟨new, placed.distinct⟩)
      inside).length_le
    rw [List.length_cons, List.length_map] at many
    omega
  obtain ⟨entity, present, waiting⟩ := some_
  have first : entity ∈ old := by
    rcases placed.origin entity present with ⟨first, _⟩ | ⟨before, _⟩
    · exact first
    · exact absurd before waiting
  have fresh : victim = input.fresh victim.element := by
    rcases placed.origin victim held with ⟨_, waits⟩ | ⟨_, fresh⟩
    · exact absurd placedBefore waits
    · exact fresh
  have before := outlived entity first victim.element (known placedBefore)
    (fun same => waiting (same ▸ placedBefore))
  rw [← fresh] at before
  exact absurd ((evictsBefore_ranks _ _).mp before)
    (not_lt.mpr (evictLeast_least evictsBefore_ranks taken entity present))

theorem Placed.place (placed : Placed input options old done table) (outlived : Outlived input old)
    (fits : input.elements.length ≤ options.maxEntities) (some_ : 0 < options.maxEntities)
    (known : done ⊆ input.elements) (named : element ∈ input.elements) :
    Placed input options old (done ++ [element]) (place input options table element) := by
  rw [World.place]
  split
  · next held => exact placed.refresh named held
  · next new =>
      split
      · next room =>
          exact placed.add [] table named new (.refl _) room (fun some_ => absurd rfl some_)
            (fun _ none_ => absurd none_ List.not_mem_nil)
            (fun _ none_ => absurd none_ List.not_mem_nil)
      · next full =>
          have bounded := placed.bounded
          cases taken : evictLeast evictsBefore table with
          | none =>
              cases table with
              | nil => exact absurd some_ full
              | cons => cases taken
          | some found =>
              have parts : ([found.1] ++ found.2).Perm table := evictLeast_perm evictsBefore taken
              have lengths := parts.length_eq
              rw [List.length_append, List.length_singleton] at lengths
              refine placed.add [found.1] found.2 named new parts (by omega)
                (fun _ => by omega) ?_ ?_
              · intro victim held
                rw [List.mem_singleton.mp held]
                exact placed.victim_waits outlived fits known named new (Nat.not_lt.mp full) taken
              · intro victim held kept left
                rw [List.mem_singleton.mp held]
                exact evictLeast_least evictsBefore_ranks taken kept
                  (parts.mem_iff.mp (List.mem_append_right _ left))

variable {elements : List ElementRef}

theorem placed_loop (placed : Placed input options old done loop.state.entities)
    (outlived : Outlived input old) (fits : input.elements.length ≤ options.maxEntities)
    (some_ : 0 < options.maxEntities) (known : done ++ elements ⊆ input.elements)
    (run : elements.foldlM (observeElement input options) loop = .ok after) :
    Placed input options old (done ++ elements) after.state.entities := by
  induction elements generalizing done loop with
  | nil =>
      cases run
      rw [List.append_nil]
      exact placed
  | cons element rest ih =>
      obtain ⟨next, one, others⟩ := Checked.ok_of_bind run
      have table := observeElement_entities placed.distinct placed.bounded some_ one
      have step := placed.place outlived fits some_
        (fun _ before => known (List.mem_append_left _ before))
        (known (List.mem_append_right _ List.mem_cons_self))
      rw [← table] at step
      rw [List.append_cons] at known ⊢
      exact ih step known others

theorem observeForeground_entities (observed : observeForeground state input options = .ok next) :
    next.entities = state.entities := by
  rw [observeForeground] at observed
  split at observed
  · cases observed
    rfl
  · rw [(appendChange_ok observed).2]
    rfl

theorem observation_keeps (distinct : Distinct loop.state.entities)
    (bounded : loop.state.entities.length ≤ options.maxEntities) (some_ : 0 < options.maxEntities)
    (run : elements.foldlM (observeElement input options) loop = .ok after) :
    Distinct after.state.entities ∧ after.state.entities.length ≤ options.maxEntities ∧
      ∀ entity ∈ after.state.entities, entity ∈ loop.state.entities ∨
        ∃ element ∈ elements, entity = input.fresh element := by
  induction elements generalizing loop with
  | nil =>
      cases run
      exact ⟨distinct, bounded, fun _ held => .inl held⟩
  | cons element rest ih =>
      obtain ⟨next, one, others⟩ := Checked.ok_of_bind run
      have table := observeElement_entities distinct bounded some_ one
      obtain ⟨distinct', bounded', origin⟩ := place_keeps distinct bounded some_ element
      rw [← table] at distinct' bounded' origin
      obtain ⟨distinctAfter, boundedAfter, all⟩ := ih distinct' bounded' others
      refine ⟨distinctAfter, boundedAfter, ?_⟩
      intro entity held
      rcases all entity held with before | ⟨other, named, fresh⟩
      · rcases origin entity before with old | fresh
        · exact .inl old
        · exact .inr ⟨element, List.mem_cons_self, fresh⟩
      · exact .inr ⟨other, List.mem_cons_of_mem _ named, fresh⟩

theorem applyWorldObservation_loop (applied : applyWorldObservation state input options = .ok next) :
    0 < options.maxEntities ∧ input.elements.length ≤ options.maxEntities ∧
      ∃ loop after, loop.state.entities = state.entities ∧
        input.elements.foldlM (observeElement input options) loop = .ok after ∧
        next.entities = after.state.entities := by
  rw [applyWorldObservation] at applied
  obtain ⟨_, valid, applied⟩ := Checked.ok_of_bind applied
  obtain ⟨_, checked, applied⟩ := Checked.ok_of_bind applied
  obtain ⟨_, foreground, applied⟩ := Checked.ok_of_bind applied
  obtain ⟨after, run, applied⟩ := Checked.ok_of_bind applied
  have positive := require_ok.mp valid
  simp only [Bool.and_eq_true, decide_eq_true_eq] at positive
  obtain ⟨_, _, checked⟩ := Checked.ok_of_bind checked
  obtain ⟨_, _, fits⟩ := Checked.ok_of_bind checked
  refine ⟨Nat.pos_of_ne_zero positive.1.1, by simpa using require_ok.mp fits, _, after,
    observeForeground_entities foreground, run, ?_⟩
  split at applied
  · rw [(appendChange_ok applied).2]
    rfl
  · cases applied
    rfl

end

def unnamed (input : WorldObservationInput) (table : List WorldEntity) : List WorldEntity :=
  table.filter fun entity => entity.element ∉ input.elements

/-- How many of them there is no room for. -/
def overflow (input : WorldObservationInput) (options : WorldStateOptions)
    (table : List WorldEntity) : Nat :=
  (unnamed input table).length + input.elements.dedup.length - options.maxEntities

variable {input : WorldObservationInput} {options : WorldStateOptions}
  {old table : List WorldEntity} {done : List ElementRef}

theorem Placed.split (placed : Placed input options old done table) (distinct : Distinct old)
    (all : ∀ element, element ∈ done ↔ element ∈ input.elements) :
    table.Perm (input.elements.dedup.map input.fresh ++ unnamed input table) ∧
      (old.filter (fun entity => entity.element ∉ table.map WorldEntity.element) ++
        unnamed input table).Perm (unnamed input old) := by
  have whole : table.Nodup := List.Nodup.of_map _ placed.distinct
  have first : old.Nodup := List.Nodup.of_map _ distinct
  have held {entity : WorldEntity} (present : entity ∈ table)
      (out : entity.element ∉ input.elements) : entity ∈ old := by
    rcases placed.origin entity present with ⟨before, _⟩ | ⟨named, _⟩
    · exact before
    · exact absurd ((all _).mp named) out
  have fresh {entity : WorldEntity} (present : entity ∈ table)
      (named : entity.element ∈ input.elements) : entity = input.fresh entity.element := by
    rcases placed.origin entity present with ⟨_, waiting⟩ | ⟨_, fresh⟩
    · exact absurd ((all _).mpr named) waiting
    · exact fresh
  constructor
  · refine (List.perm_ext_iff_of_nodup whole ?_).mpr ?_
    · refine List.nodup_append.mpr ⟨?_, whole.filter _, ?_⟩
      · exact (List.nodup_dedup _).map fun _ _ same => congrArg WorldEntity.element same
      · intro entity placed other left same
        obtain ⟨element, named, made⟩ := List.mem_map.mp placed
        have out := of_decide_eq_true (List.mem_filter.mp left).2
        rw [← same, ← made] at out
        exact out (List.mem_dedup.mp named)
    · intro entity
      rw [List.mem_append, List.mem_map, unnamed, List.mem_filter, decide_eq_true_eq]
      constructor
      · intro present
        by_cases named : entity.element ∈ input.elements
        · exact .inl ⟨entity.element, List.mem_dedup.mpr named, (fresh present named).symm⟩
        · exact .inr ⟨present, named⟩
      · rintro (⟨element, named, made⟩ | ⟨present, _⟩)
        · rw [← made]
          exact placed.seen element ((all _).mpr (List.mem_dedup.mp named))
        · exact present
  · refine (List.perm_ext_iff_of_nodup ?_ (first.filter _)).mpr ?_
    · refine List.nodup_append.mpr ⟨first.filter _, whole.filter _, ?_⟩
      intro entity gone other left same
      have out := of_decide_eq_true (List.mem_filter.mp gone).2
      exact out (List.mem_map.mpr ⟨other, (List.mem_filter.mp left).1, by rw [same]⟩)
    · intro entity
      simp only [List.mem_append, unnamed, List.mem_filter, decide_eq_true_eq]
      constructor
      · rintro (⟨before, out⟩ | ⟨present, out⟩)
        · refine ⟨before, fun named => out (List.mem_map.mpr ⟨_, placed.seen _ ((all _).mpr named),
            rfl⟩)⟩
        · exact ⟨held present out, out⟩
      · intro ⟨before, out⟩
        by_cases present : entity ∈ table
        · exact .inr ⟨present, out⟩
        · refine .inl ⟨before, ?_⟩
          intro other
          obtain ⟨kept, there, same⟩ := List.mem_map.mp other
          have equal : kept = entity :=
            List.inj_on_of_nodup_map distinct (held there (same ▸ out)) before same
          exact present (equal ▸ there)

theorem Placed.gone_first (placed : Placed input options old done table) (distinct : Distinct old)
    (all : ∀ element, element ∈ done ↔ element ∈ input.elements) :
    (old.filter fun entity => entity.element ∉ table.map WorldEntity.element).Perm
        ((evictionOrder evictsBefore (unnamed input old)).take (overflow input options old)) ∧
      (unnamed input table).Perm
        ((evictionOrder evictsBefore (unnamed input old)).drop (overflow input options old)) := by
  obtain ⟨whole, parts⟩ := placed.split distinct all
  have bounded := placed.bounded
  have out {victim : WorldEntity} (held : victim ∈ old.filter fun entity =>
      entity.element ∉ table.map WorldEntity.element) :
      victim ∈ old ∧ victim.element ∉ input.elements ∧ victim ∉ table := by
    obtain ⟨before, missing⟩ := List.mem_filter.mp held
    have left := parts.mem_iff.mp (List.mem_append_left _ held)
    exact ⟨before, of_decide_eq_true (List.mem_filter.mp left).2,
      fun present => of_decide_eq_true missing (List.mem_map_of_mem present)⟩
  have count : overflow input options old = (old.filter fun entity =>
      entity.element ∉ table.map WorldEntity.element).length := by
    have lengths := parts.length_eq
    have total := whole.length_eq
    rw [List.length_append] at lengths total
    rw [List.length_map] at total
    rw [overflow]
    cases gone : old.filter fun entity => entity.element ∉ table.map WorldEntity.element with
    | nil =>
        rw [gone, List.length_nil] at lengths
        rw [List.length_nil]
        omega
    | cons victim others =>
        obtain ⟨before, named, missing⟩ := out (gone ▸ List.mem_cons_self)
        have full := (placed.gone victim before named missing).1
        rw [gone] at lengths
        omega
  have separated : Separated evictionKey (unnamed input old) := by
    refine Distinct.separated ?_
    exact distinct.sublist ((List.filter_sublist (l := old)).map _)
  have below := evictionOrder_split evictsBefore_ranks parts separated (by
    intro victim gone kept left
    obtain ⟨before, named, missing⟩ := out gone
    obtain ⟨present, other⟩ := List.mem_filter.mp left
    exact (placed.gone victim before named missing).2 kept present (of_decide_eq_true other))
  rw [count]
  exact below

/-- An observation is fully reflected: each element it names stands in the table once, as just
seen, and of the entities it does not name the first in the eviction order make room. -/
theorem observation_reflected (state next : WorldState) (input : WorldObservationInput)
    (options : WorldStateOptions) (sound : Sound options state)
    (outlived : Outlived input state.entities)
    (applied : applyWorldObservation state input options = .ok next) :
    (∀ element ∈ input.elements,
      next.entities.filter (fun entity => entity.element = element) = [input.fresh element]) ∧
    (state.entities.filter fun entity =>
      entity.element ∉ next.entities.map WorldEntity.element).Perm
      ((evictionOrder evictsBefore (unnamed input state.entities)).take
        (overflow input options state.entities)) ∧
    next.entities.Perm (input.elements.dedup.map input.fresh ++
      (evictionOrder evictsBefore (unnamed input state.entities)).drop
        (overflow input options state.entities)) := by
  obtain ⟨some_, fits, loop, after, start, run, result⟩ := applyWorldObservation_loop applied
  have first : Placed input options state.entities [] loop.state.entities := by
    rw [start]
    exact placed_start sound.distinct sound.bounded
  have placed := placed_loop first outlived fits some_ (List.Subset.refl _) run
  rw [List.nil_append, ← result] at placed
  obtain ⟨gone, left⟩ := placed.gone_first sound.distinct fun _ => Iff.rfl
  obtain ⟨whole, _⟩ := placed.split sound.distinct fun _ => Iff.rfl
  refine ⟨?_, gone, whole.trans (left.append_left _)⟩
  intro element named
  have present := placed.seen element named
  have once : (next.entities.filter fun entity => entity.element = element).Perm
      [input.fresh element] := by
    have whole : next.entities.Nodup := List.Nodup.of_map _ placed.distinct
    refine (List.perm_ext_iff_of_nodup (whole.filter _) (List.nodup_singleton _)).mpr ?_
    intro entity
    rw [List.mem_filter, decide_eq_true_eq, List.mem_singleton]
    constructor
    · intro ⟨held, same⟩
      exact List.inj_on_of_nodup_map placed.distinct held present same
    · intro same
      rw [same]
      exact ⟨present, rfl⟩
  exact List.perm_singleton.mp once

def sampleObservation (names : List UInt8) (wall : Int) : WorldObservationInput :=
  { observationId := .filled 9
    elements := names.map sampleElement
    observedAt := { wall := wall } }

def sampleState : WorldState := { entities := [sampleEntity 1 0, sampleEntity 2 1] }

def elementsAfter (options : WorldStateOptions) (state : WorldState)
    (input : WorldObservationInput) : Option (List ElementRef) :=
  (applyWorldObservation state input options).toOption.map fun next =>
    next.entities.map WorldEntity.element

theorem sampleState_sound : Sound { maxEntities := 2 } sampleState where
  valid := rfl
  distinct := by decide
  bounded := by decide

theorem later_observation_reflected :
    ((applyWorldObservation sampleState (sampleObservation [1, 3] 2)
      { maxEntities := 2 }).toOption.map fun next =>
        next.entities.filter fun entity => entity.element = sampleElement 1) =
      some [(sampleObservation [1, 3] 2).fresh (sampleElement 1)] := by
  cases applied : applyWorldObservation sampleState (sampleObservation [1, 3] 2)
      { maxEntities := 2 } with
  | error e =>
      have done : (applyWorldObservation sampleState (sampleObservation [1, 3] 2)
          { maxEntities := 2 }).isOk = true := by decide +kernel
      rw [applied] at done
      cases done
  | ok next =>
      exact congrArg some ((observation_reflected sampleState next _ _ sampleState_sound
        (outlived_of_later (by decide)) applied).1 (sampleElement 1) (by decide))

/-- The first entity in the eviction order stays when the observation names it, and one that was
seen at the same instant may outlast an element of the observation. -/
theorem observation_spares_first :
    Sound { maxEntities := 2 } sampleState ∧
    evictionOrder evictsBefore sampleState.entities = [sampleEntity 1 0, sampleEntity 2 1] ∧
    elementsAfter { maxEntities := 2 } sampleState (sampleObservation [1, 3] 2) =
      some [sampleElement 1, sampleElement 3] ∧
    elementsAfter { maxEntities := 2 } { entities := [sampleEntity 2 5, sampleEntity 3 5] }
      (sampleObservation [1, 4] 5) = some [sampleElement 3, sampleElement 4] :=
  ⟨sampleState_sound, by decide +kernel, by decide +kernel, by decide +kernel⟩

end Mira.World
