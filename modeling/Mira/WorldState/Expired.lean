import Mira.WorldState.Observed

/-!
Expiry as a whole: every entity and the page are looked at once, each by itself, and the operator
fails where one of the entries it would write is too long. Two expiries in a row come to the later
one.
-/

namespace Mira.World
open Mira Bytes

def WorldEntity.after (entity : WorldEntity) (now : Timestamp) (options : WorldStateOptions) :
    WorldEntity :=
  if entity.expires now options then entity.staled else entity

def WorldPageAssumption.after (page : WorldPageAssumption) (now : Timestamp)
    (options : WorldStateOptions) : WorldPageAssumption :=
  if page.expires now options then page.staled else page

def entityStaledSummary (entity : WorldEntity) : Bytes :=
  ascii "entity staled observation_id=" ++ entity.element.observationId.toString

def pageStaledSummary (page : WorldPageAssumption) : Bytes :=
  ascii "page staled " ++ page.appId ++ ascii "/" ++ page.stateId

variable {now : Timestamp}

theorem WorldEntity.expires_iff {entity : WorldEntity} {options : WorldStateOptions} :
    entity.expires now options = true ↔
      entity.stale = false ∧ stalenessBound options < now.wall - entity.lastSeenAt.wall := by
  simp [WorldEntity.expires]

theorem WorldPageAssumption.expires_iff {page : WorldPageAssumption} {options : WorldStateOptions} :
    page.expires now options = true ↔
      page.status = .believed ∧ stalenessBound options < now.wall - page.recognizedAt.wall := by
  simp [WorldPageAssumption.expires]

section
variable {options : WorldStateOptions} {first second : Timestamp}

variable {entity : WorldEntity}

theorem WorldEntity.expires_later (order : first.wall ≤ second.wall)
    (due : entity.expires first options = true) : entity.expires second options = true := by
  rw [expires_iff] at due ⊢
  exact ⟨due.1, by omega⟩

variable {page : WorldPageAssumption}

theorem WorldPageAssumption.expires_later (order : first.wall ≤ second.wall)
    (due : page.expires first options = true) : page.expires second options = true := by
  rw [expires_iff] at due ⊢
  exact ⟨due.1, by omega⟩

theorem WorldEntity.after_expires :
    (entity.after first options).expires second options = true ↔
      entity.expires second options = true ∧ ¬ entity.expires first options = true := by
  rw [after]
  split
  · next due => simp [due, expires_iff, staled]
  · next fresh => simp [fresh]

theorem WorldPageAssumption.after_expires :
    (page.after first options).expires second options = true ↔
      page.expires second options = true ∧ ¬ page.expires first options = true := by
  rw [after]
  split
  · next due => simp [due, expires_iff, staled]
  · next fresh => simp [fresh]

theorem WorldEntity.after_after (order : first.wall ≤ second.wall) :
    (entity.after first options).after second options = entity.after second options := by
  by_cases due : entity.expires first options = true
  · have staled : (entity.after first options).expires second options ≠ true := by
      rw [Ne, after_expires]
      exact fun both => both.2 due
    rw [after, if_neg staled, after, if_pos due, after, if_pos (expires_later order due)]
  · have same : entity.after first options = entity := by rw [after, if_neg due]
    rw [same]

theorem WorldPageAssumption.after_after (order : first.wall ≤ second.wall) :
    (page.after first options).after second options = page.after second options := by
  by_cases due : page.expires first options = true
  · have staled : (page.after first options).expires second options ≠ true := by
      rw [Ne, after_expires]
      exact fun both => both.2 due
    rw [after, if_neg staled, after, if_pos due, after, if_pos (expires_later order due)]
  · have same : page.after first options = page := by rw [after, if_neg due]
    rw [same]

end

def summaryTooLong : WorldStateError :=
  makeWorldStateError .payloadTooLarge "change summary exceeds max_change_summary_bytes"

variable (state : WorldState)

theorem appendChange_eq (kind : WorldChangeKind) (summary : Bytes) (digest : Sha256Digest)
    (changedAt : Timestamp) (options : WorldStateOptions) :
    appendChange state kind summary digest changedAt options =
      if summary.length ≤ options.maxChangeSummaryBytes then
        .ok (appendChangeUnchecked state kind summary digest changedAt options)
      else .error summaryTooLong := by
  rw [appendChange]
  by_cases short : summary.length ≤ options.maxChangeSummaryBytes
  · rw [if_pos short, require, if_pos (decide_eq_true short)]
    rfl
  · rw [if_neg short, require, if_neg (by rw [decide_eq_true_eq]; exact short)]
    rfl

/-- Every entry that an expiry writes about the table is short enough. -/
def EntriesFit (options : WorldStateOptions) (now : Timestamp) (table : List WorldEntity) : Prop :=
  ∀ entity ∈ table, entity.expires now options = true →
    (entityStaledSummary entity).length ≤ options.maxChangeSummaryBytes

instance (options : WorldStateOptions) (now : Timestamp) (table : List WorldEntity) :
    Decidable (EntriesFit options now table) :=
  inferInstanceAs (Decidable (∀ entity ∈ table, _))

def PageFits (options : WorldStateOptions) (now : Timestamp) (page : WorldPageAssumption) : Prop :=
  page.expires now options = true →
    (pageStaledSummary page).length ≤ options.maxChangeSummaryBytes

instance (options : WorldStateOptions) (now : Timestamp) (page : WorldPageAssumption) :
    Decidable (PageFits options now page) :=
  inferInstanceAs (Decidable (_ → _))

def noteStaled (input : WorldExpiryInput) (options : WorldStateOptions)
    (table : List WorldEntity) (state : WorldState) : WorldState :=
  (table.filter fun entity => entity.expires input.now options).foldl (fun state entity =>
    appendChangeUnchecked state .entityStaled (entityStaledSummary entity) input.digest input.now
      options) state

variable (input : WorldExpiryInput)

theorem noteStaled_cons (options : WorldStateOptions) (entity : WorldEntity)
    (rest : List WorldEntity) (state : WorldState) :
    noteStaled input options (entity :: rest) state =
      noteStaled input options rest (if entity.expires input.now options then
        appendChangeUnchecked state .entityStaled (entityStaledSummary entity) input.digest
          input.now options
      else state) := by
  rw [noteStaled, List.filter_cons]
  split
  · rfl
  · rfl

theorem expireEntities_eq (options : WorldStateOptions) (table : List WorldEntity)
    (state : WorldState) :
    expireEntities input options table state =
      if EntriesFit options input.now table then
        .ok (table.map fun entity => entity.after input.now options,
          noteStaled input options table state)
      else .error summaryTooLong := by
  induction table generalizing state with
  | nil =>
      have all : EntriesFit options input.now [] := fun _ none_ => absurd none_ List.not_mem_nil
      rw [if_pos all]
      rfl
  | cons entity rest ih =>
      rw [expireEntities]
      have fits : EntriesFit options input.now (entity :: rest) ↔
          (entity.expires input.now options = true →
            (entityStaledSummary entity).length ≤ options.maxChangeSummaryBytes) ∧
          EntriesFit options input.now rest := List.forall_mem_cons
      split
      · next due =>
          have unfolded : entityStaledSummary entity =
            ascii "entity staled observation_id=" ++ entity.element.observationId.toString := rfl
          rw [← unfolded, appendChange_eq, List.map_cons, noteStaled_cons, if_pos due,
            WorldEntity.after, if_pos due]
          by_cases short : (entityStaledSummary entity).length ≤ options.maxChangeSummaryBytes
          · rw [if_pos short]
            by_cases others : EntriesFit options input.now rest
            · rw [if_pos (fits.mpr ⟨fun _ => short, others⟩)]
              simp only [bind, Except.bind, ih, if_pos others]
              rfl
            · rw [if_neg fun both => others (fits.mp both).2]
              simp only [bind, Except.bind, ih, if_neg others]
          · rw [if_neg short, if_neg fun both => short ((fits.mp both).1 due)]
            rfl
      · next fresh =>
          rw [List.map_cons, noteStaled_cons, if_neg fresh, WorldEntity.after, if_neg fresh, ih]
          by_cases others : EntriesFit options input.now rest
          · rw [if_pos others, if_pos (fits.mpr ⟨fun due => absurd due fresh, others⟩)]
            rfl
          · rw [if_neg others, if_neg fun both => others (fits.mp both).2]
            rfl

theorem noteStaled_frame (options : WorldStateOptions) (table : List WorldEntity)
    (state : WorldState) :
    noteStaled input options table state =
      { state with recentChanges := (noteStaled input options table state).recentChanges } := by
  induction table generalizing state with
  | nil => rfl
  | cons entity rest ih =>
      rw [noteStaled_cons, ih]
      split
      · rfl
      · rfl

/-- The state after an expiry whose entries all fit. -/
def expired (input : WorldExpiryInput) (options : WorldStateOptions) (state : WorldState) :
    WorldState :=
  let noted := { noteStaled input options state.entities state with
    entities := state.entities.map fun entity => entity.after input.now options }
  if state.currentPage.expires input.now options then
    appendChangeUnchecked { noted with currentPage := state.currentPage.staled } .entityStaled
      (pageStaledSummary state.currentPage) input.digest input.now options
  else noted

theorem applyExpiry_eq (options : WorldStateOptions) :
    applyExpiry state input options = (do
      options.validate
      if EntriesFit options input.now state.entities ∧
          PageFits options input.now state.currentPage then
        .ok (expired input options state)
      else .error summaryTooLong) := by
  rw [applyExpiry]
  cases options.validate with
  | error e => rfl
  | ok _ =>
      have page : (noteStaled input options state.entities state).currentPage =
          state.currentPage := by rw [noteStaled_frame]
      simp only [bind, Except.bind, expireEntities_eq]
      by_cases entries : EntriesFit options input.now state.entities
      · have same : { noteStaled input options state.entities state with
              currentPage := state.currentPage } =
            noteStaled input options state.entities state := by
          rw [← page]
        rw [if_pos entries]
        dsimp only
        rw [page, expired]
        by_cases due : state.currentPage.expires input.now options = true
        · have unfolded : pageStaledSummary state.currentPage =
            ascii "page staled " ++ state.currentPage.appId ++ ascii "/" ++
              state.currentPage.stateId := rfl
          rw [if_pos due, if_pos due]
          dsimp only [WorldPageAssumption.staled]
          rw [← unfolded, appendChange_eq]
          by_cases short : (pageStaledSummary state.currentPage).length ≤
              options.maxChangeSummaryBytes
          · rw [if_pos short, if_pos ⟨entries, fun _ => short⟩]
          · rw [if_neg short, if_neg fun both => short (both.2 due)]
        · rw [if_neg due, if_neg due, if_pos ⟨entries, fun here => absurd here due⟩, ← same]
          rfl
      · rw [if_neg entries, if_neg fun both => entries both.1]

def WorldState.view (state : WorldState) : List WorldEntity × WorldPageAssumption :=
  (state.entities, state.currentPage)

theorem expired_entities (options : WorldStateOptions) (state : WorldState) :
    (expired input options state).entities =
      state.entities.map fun entity => entity.after input.now options := by
  rw [expired]
  split
  · rfl
  · rfl

theorem expired_page (options : WorldStateOptions) (state : WorldState) :
    (expired input options state).currentPage = state.currentPage.after input.now options := by
  rw [expired, WorldPageAssumption.after]
  split
  · rfl
  · dsimp only
    rw [noteStaled_frame]

section
variable {options : WorldStateOptions} {first second : Timestamp}

theorem entriesFit_after {table : List WorldEntity} (order : first.wall ≤ second.wall) :
    (EntriesFit options first table ∧
      EntriesFit options second (table.map fun entity => entity.after first options)) ↔
      EntriesFit options second table := by
  have summary (entity : WorldEntity) :
      entityStaledSummary (entity.after first options) = entityStaledSummary entity := by
    rw [WorldEntity.after]
    split
    · rfl
    · rfl
  constructor
  · intro ⟨early, late⟩ entity held due
    by_cases before : entity.expires first options = true
    · exact early entity held before
    · have short := late _ (List.mem_map_of_mem held)
        (WorldEntity.after_expires.mpr ⟨due, before⟩)
      rwa [summary] at short
  · intro all
    refine ⟨fun entity held due => all entity held (entity.expires_later order due), ?_⟩
    intro entity held due
    obtain ⟨before, present, same⟩ := List.mem_map.mp held
    rw [← same] at due ⊢
    rw [summary]
    exact all before present (WorldEntity.after_expires.mp due).1

theorem pageFits_after {page : WorldPageAssumption} (order : first.wall ≤ second.wall) :
    (PageFits options first page ∧ PageFits options second (page.after first options)) ↔
      PageFits options second page := by
  have summary : pageStaledSummary (page.after first options) = pageStaledSummary page := by
    rw [WorldPageAssumption.after]
    split
    · rfl
    · rfl
  rw [PageFits, PageFits, PageFits, summary]
  constructor
  · intro ⟨early, late⟩ due
    by_cases before : page.expires first options = true
    · exact early before
    · exact late (WorldPageAssumption.after_expires.mpr ⟨due, before⟩)
  · intro all
    exact ⟨fun due => all (page.expires_later order due),
      fun due => all (WorldPageAssumption.after_expires.mp due).1⟩

theorem applyExpiry_later (state : WorldState) (order : first.wall ≤ second.wall) :
    (applyExpiry state { now := first } options >>= fun next =>
        applyExpiry next { now := second } options).map WorldState.view =
      (applyExpiry state { now := second } options).map WorldState.view := by
  have entities : ((expired { now := first } options state).entities.map fun entity =>
      entity.after second options) = state.entities.map fun entity =>
        entity.after second options := by
    rw [expired_entities, List.map_map]
    apply List.map_congr_left
    intro entity _
    exact WorldEntity.after_after order
  have page : (expired { now := first } options state).currentPage.after second options =
      state.currentPage.after second options := by
    rw [expired_page]
    exact WorldPageAssumption.after_after order
  have views (input : WorldExpiryInput) (state : WorldState) :
      (expired input options state).view =
        (state.entities.map fun entity => entity.after input.now options,
          state.currentPage.after input.now options) :=
    Prod.ext (expired_entities input options state) (expired_page input options state)
  have fits := @entriesFit_after options _ _ state.entities order
  have pageFits := @pageFits_after options _ _ state.currentPage order
  cases valid : options.validate with
  | error e =>
      rw [applyExpiry_eq, applyExpiry_eq, valid]
      rfl
  | ok _ =>
      simp only [applyExpiry_eq, valid, bind, Except.bind]
      by_cases early : EntriesFit options first state.entities ∧
          PageFits options first state.currentPage
      · rw [if_pos early]
        dsimp only
        rw [expired_entities, expired_page]
        by_cases late : EntriesFit options second state.entities ∧
            PageFits options second state.currentPage
        · rw [if_pos ⟨(fits.mpr late.1).2, (pageFits.mpr late.2).2⟩, if_pos late, Except.map,
            Except.map, views, views, entities, page]
        · have still : ¬ (EntriesFit options second (state.entities.map fun entity =>
              entity.after first options) ∧
                PageFits options second (state.currentPage.after first options)) := by
            intro both
            exact late ⟨fits.mp ⟨early.1, both.1⟩, pageFits.mp ⟨early.2, both.2⟩⟩
          rw [if_neg still, if_neg late]
      · have still : ¬ (EntriesFit options second state.entities ∧
            PageFits options second state.currentPage) := by
          intro both
          exact early ⟨(fits.mpr both.1).1, (pageFits.mpr both.2).1⟩
        rw [if_neg early, if_neg still]

theorem applyExpiry_again {state next : WorldState} {input : WorldExpiryInput}
    (applied : applyExpiry state input options = .ok next) :
    applyExpiry next input options = .ok next := by
  have done : next = expired input options state ∧ options.validate = .ok () := by
    rw [applyExpiry_eq] at applied
    obtain ⟨_, valid, rest⟩ := Checked.ok_of_bind applied
    split at rest
    · cases rest
      exact ⟨rfl, valid⟩
    · cases rest
  have calm : ∀ entity ∈ next.entities, ¬ entity.expires input.now options = true := by
    rw [done.1, expired_entities]
    intro entity held due
    obtain ⟨before, _, same⟩ := List.mem_map.mp held
    rw [← same] at due
    have both := WorldEntity.after_expires.mp due
    exact both.2 both.1
  have calmPage : ¬ next.currentPage.expires input.now options = true := by
    rw [done.1, expired_page]
    intro due
    have both := WorldPageAssumption.after_expires.mp due
    exact both.2 both.1
  have table : (next.entities.map fun entity => entity.after input.now options) =
      next.entities := by
    calc next.entities.map (fun entity => entity.after input.now options)
        = next.entities.map id := by
          apply List.map_congr_left
          intro entity held
          rw [WorldEntity.after, if_neg (calm entity held), id]
      _ = next.entities := List.map_id _
  have silent : noteStaled input options next.entities next = next := by
    rw [noteStaled, List.filter_eq_nil_iff.mpr calm]
    rfl
  have same : expired input options next = next := by
    rw [expired, if_neg calmPage, silent, table]
  rw [applyExpiry_eq, done.2]
  simp only [bind, Except.bind]
  rw [if_pos ⟨fun entity held due => absurd due (calm entity held),
    fun due => absurd due calmPage⟩, same]

end

end Mira.World
