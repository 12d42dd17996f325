import Mathlib.Data.List.Chain
import Mira.WorldState.Expired

/-!
Runs of the operators. A call that fails leaves the state as it was; one that succeeds keeps the
invariants, and each entity and the page it leaves are accounted for. So between two refreshes an
entity and the page lose confidence once at most.
-/

namespace Mira.World
open Mira Bytes Eviction

inductive WorldCall
  | input (given : WorldStateInput)
  | prune

def WorldCall.apply (options : WorldStateOptions) (state : WorldState) :
    WorldCall → WorldResult WorldState
  | .input given => applyInput options state given
  | .prune => .ok (pruneEntities state options)

def step (options : WorldStateOptions) (state : WorldState) (call : WorldCall) : WorldState :=
  match call.apply options state with
  | .ok next => next
  | .error _ => state

def run (options : WorldStateOptions) (calls : List WorldCall) (state : WorldState) : WorldState :=
  calls.foldl (step options) state

inductive EntityOrigin (options : WorldStateOptions) (state : WorldState) :
    WorldCall → WorldEntity → Prop
  | kept {call : WorldCall} {entity : WorldEntity} (held : entity ∈ state.entities) :
      EntityOrigin options state call entity
  | staled {input : WorldExpiryInput} {before : WorldEntity} (held : before ∈ state.entities)
      (due : before.expires input.now options = true) :
      EntityOrigin options state (.input (.expiry input)) before.staled
  | seen {input : WorldObservationInput} {element : ElementRef} (named : element ∈ input.elements) :
      EntityOrigin options state (.input (.observation input)) (input.fresh element)

def WorldCall.refreshesPage : WorldCall → Bool
  | .input (.screenState _) => true
  | .input (.navigation given) => given.success
  | .input (.verification given) =>
      given.outcome = ascii "confirmed" || given.outcome = ascii "refuted"
  | _ => false

inductive PageOrigin (options : WorldStateOptions) (state : WorldState) (call : WorldCall) :
    WorldPageAssumption → Prop
  | kept : PageOrigin options state call state.currentPage
  | doubted (known : state.currentPage.status ≠ .unknown) :
      PageOrigin options state call { state.currentPage with status := .stale }
  | staled {now : Timestamp} (due : state.currentPage.expires now options = true) :
      PageOrigin options state call state.currentPage.staled
  | recognized {page : WorldPageAssumption} (refreshed : call.refreshesPage = true)
      (valid : page.validate = .ok ()) : PageOrigin options state call page

/-- What a call leaves of the table and of the page. -/
structure Accounted (options : WorldStateOptions) (state : WorldState) (call : WorldCall)
    (next : WorldState) : Prop where
  distinct : Distinct next.entities
  bounded : next.entities.length ≤ options.maxEntities
  entities : ∀ entity ∈ next.entities, EntityOrigin options state call entity
  page : PageOrigin options state call next.currentPage

theorem checkSequences_ok (changes : List WorldChange) : checkSequences changes = .ok () ↔
    changes.IsChain fun first second => first.changeSequence < second.changeSequence := by
  induction changes with
  | nil => exact ⟨fun _ => .nil, fun _ => rfl⟩
  | cons first rest ih =>
      cases rest with
      | nil => exact ⟨fun _ => .singleton _, fun _ => rfl⟩
      | cons second rest =>
          rw [List.isChain_cons_cons, ← ih, checkSequences]
          constructor
          · intro passed
            obtain ⟨_, less, others⟩ := Checked.ok_of_bind passed
            exact ⟨of_decide_eq_true (require_ok.mp less), others⟩
          · intro ⟨less, others⟩
            rw [require, if_pos (decide_eq_true less)]
            exact others

variable {state : WorldState}

theorem appendChangeUnchecked_ring (ascends : checkSequences state.recentChanges = .ok ())
    (kind : WorldChangeKind) (summary : Bytes) (digest : Sha256Digest) (changedAt : Timestamp)
    (options : WorldStateOptions) :
    checkSequences (appendChangeUnchecked state kind summary digest changedAt
      options).recentChanges = .ok () := by
  rw [checkSequences_ok] at ascends ⊢
  have longer (change : WorldChange)
      (next : change.changeSequence =
        (state.recentChanges.getLast?.map WorldChange.changeSequence).getD 0 + 1) :
      (state.recentChanges ++ [change]).IsChain fun first second =>
        first.changeSequence < second.changeSequence := by
    refine ascends.append (.singleton _) ?_
    intro last held first same
    cases same
    rw [next, held]
    exact Nat.lt_succ_self _
  rw [appendChangeUnchecked]
  dsimp only
  split
  · exact (longer _ rfl).drop 1
  · exact longer _ rfl

section
variable {options : WorldStateOptions} {state next : WorldState}

theorem pruneEntities_bounded (bounded : state.entities.length ≤ options.maxEntities) :
    pruneEntities state options = state := by
  rw [pruneEntities, pruneTrace]
  cases state.entities.length with
  | zero => rfl
  | succ rounds => rw [pruneRounds, if_neg (Nat.not_lt.mpr bounded)]

/-- Entries and entities leave the rest of the state alone. -/
structure Framed (before after : WorldState) : Prop where
  page : after.currentPage = before.currentPage
  foreground : after.foregroundApp = before.foregroundApp
  ring : checkSequences before.recentChanges = .ok () → checkSequences after.recentChanges = .ok ()

theorem Framed.rfl : Framed state state := ⟨Eq.refl _, Eq.refl _, id⟩

theorem Framed.trans {first second third : WorldState} (one : Framed first second)
    (two : Framed second third) : Framed first third :=
  ⟨two.page.trans one.page, two.foreground.trans one.foreground,
    fun held => two.ring (one.ring held)⟩

theorem Framed.entities {before after : WorldState} (framed : Framed before after)
    (table : List WorldEntity) : Framed before { after with entities := table } :=
  ⟨framed.page, framed.foreground, framed.ring⟩

theorem appendChangeUnchecked_framed (state : WorldState) (kind : WorldChangeKind)
    (summary : Bytes) (digest : Sha256Digest) (changedAt : Timestamp)
    (options : WorldStateOptions) :
    Framed state (appendChangeUnchecked state kind summary digest changedAt options) :=
  ⟨Eq.refl _, Eq.refl _, fun ascends => appendChangeUnchecked_ring ascends _ _ _ _ _⟩

variable {digest : Sha256Digest} {changedAt : Timestamp}

theorem appendChange_framed {kind : WorldChangeKind} {summary : Bytes}
    (noted : appendChange state kind summary digest changedAt options = .ok next) :
    Framed state next := by
  rw [(appendChange_ok noted).2]
  exact appendChangeUnchecked_framed _ _ _ _ _ _

theorem evictOne_framed (evicted : evictOne digest changedAt options state = .ok next) :
    Framed state next := by
  rw [evictOne] at evicted
  split at evicted
  · cases evicted
    exact .rfl
  · obtain ⟨_, noted, last⟩ := Checked.ok_of_bind evicted
    cases last
    exact (appendChange_framed noted).entities _

theorem makeRoom_framed {rounds : Nat}
    (made : makeRoom digest changedAt options rounds state = .ok next) : Framed state next := by
  induction rounds generalizing state with
  | zero =>
      cases made
      exact .rfl
  | succ rounds ih =>
      rw [makeRoom] at made
      split at made
      · obtain ⟨_, one, rest⟩ := Checked.ok_of_bind made
        exact (evictOne_framed one).trans (ih rest)
      · cases made
        exact .rfl

variable {input : WorldObservationInput} {loop after : ObservationLoop}

theorem observeElement_framed {element : ElementRef}
    (observed : observeElement input options loop element = .ok after) :
    Framed loop.state after.state := by
  rw [observeElement] at observed
  dsimp only at observed
  split at observed
  · cases observed
    exact Framed.rfl.entities _
  · obtain ⟨_, made, last⟩ := Checked.ok_of_bind observed
    cases last
    exact (makeRoom_framed made).entities _

theorem observeElements_framed {elements : List ElementRef}
    (observed : elements.foldlM (observeElement input options) loop = .ok after) :
    Framed loop.state after.state := by
  induction elements generalizing loop with
  | nil =>
      cases observed
      exact .rfl
  | cons element rest ih =>
      obtain ⟨_, one, others⟩ := Checked.ok_of_bind observed
      exact (observeElement_framed one).trans (ih others)

theorem observeForeground_framed (observed : observeForeground state input options = .ok next) :
    Framed { state with foregroundApp := input.foreground } next := by
  rw [observeForeground] at observed
  split at observed
  · cases observed
    exact .rfl
  · exact appendChange_framed observed

theorem applyWorldObservation_framed
    (applied : applyWorldObservation state input options = .ok next) :
    Framed { state with foregroundApp := input.foreground } next ∧
      input.check options = .ok () := by
  rw [applyWorldObservation] at applied
  obtain ⟨_, _, applied⟩ := Checked.ok_of_bind applied
  obtain ⟨_, checked, applied⟩ := Checked.ok_of_bind applied
  obtain ⟨_, foreground, applied⟩ := Checked.ok_of_bind applied
  obtain ⟨_, run, applied⟩ := Checked.ok_of_bind applied
  have before := (observeForeground_framed foreground).trans (observeElements_framed run)
  refine ⟨?_, checked⟩
  split at applied
  · exact before.trans (appendChange_framed applied)
  · cases applied
    exact before

theorem foreground_valid (input : WorldObservationInput) :
    input.foreground.validate = .ok () := by
  rw [WorldObservationInput.foreground, WorldForegroundApp.validate, require_ok]
  split
  · rfl
  · next named => simp [named]

theorem applyScreenState_ok {input : WorldScreenStateInput}
    (applied : applyScreenState state input options = .ok next) :
    ∃ page, Framed { state with currentPage := page } next ∧ next.entities = state.entities ∧
      PageOrigin options state (.input (.screenState input)) page := by
  rw [applyScreenState] at applied
  obtain ⟨_, _, applied⟩ := Checked.ok_of_bind applied
  obtain ⟨_, app, applied⟩ := Checked.ok_of_bind applied
  obtain ⟨_, screen, applied⟩ := Checked.ok_of_bind applied
  obtain ⟨_, range, applied⟩ := Checked.ok_of_bind applied
  have named := of_decide_eq_true (require_ok.mp app)
  have placed := of_decide_eq_true (require_ok.mp screen)
  refine ⟨_, appendChange_framed applied, by rw [(appendChange_ok applied).2]; rfl,
    .recognized (Eq.refl _) ?_⟩
  simp [WorldPageAssumption.validate, require, named, placed, require_ok.mp range, bind,
    Except.bind]

theorem applyNavigation_ok {input : WorldNavigationInput}
    (applied : applyNavigation state input options = .ok next) :
    ∃ page, Framed { state with currentPage := page } next ∧ next.entities = state.entities ∧
      PageOrigin options state (.input (.navigation input)) page := by
  rw [applyNavigation] at applied
  obtain ⟨_, _, applied⟩ := Checked.ok_of_bind applied
  obtain ⟨_, checked, applied⟩ := Checked.ok_of_bind applied
  obtain ⟨marked, conflict, applied⟩ := Checked.ok_of_bind applied
  rw [WorldNavigationInput.check] at checked
  obtain ⟨_, app, checked⟩ := Checked.ok_of_bind checked
  obtain ⟨_, _, checked⟩ := Checked.ok_of_bind checked
  obtain ⟨_, target, range⟩ := Checked.ok_of_bind checked
  have named := of_decide_eq_true (require_ok.mp app)
  have placed := of_decide_eq_true (require_ok.mp target)
  have before : Framed state marked ∧ marked.entities = state.entities := by
    rw [markConflict] at conflict
    split at conflict
    · exact ⟨appendChange_framed conflict, by rw [(appendChange_ok conflict).2]; rfl⟩
    · cases conflict
      exact ⟨.rfl, rfl⟩
  have after := appendChange_framed applied
  refine ⟨input.arrived marked.currentPage, ⟨after.page, after.foreground.trans before.1.foreground,
    fun ring => after.ring (before.1.ring ring)⟩, ?_, ?_⟩
  · rw [(appendChange_ok applied).2]
    exact before.2
  · rw [before.1.page, WorldNavigationInput.arrived]
    split
    · next success =>
        refine .recognized success ?_
        simp [WorldPageAssumption.validate, require, named, placed, require_ok.mp range, bind,
          Except.bind]
    · split
      · exact .kept
      · next known => exact .doubted known

theorem applyToolSettled_ok {input : WorldToolSettledInput}
    (applied : applyToolSettled state input options = .ok next) :
    Framed state next ∧ next.entities = state.entities := by
  rw [applyToolSettled] at applied
  obtain ⟨_, _, applied⟩ := Checked.ok_of_bind applied
  obtain ⟨_, _, applied⟩ := Checked.ok_of_bind applied
  obtain ⟨_, _, applied⟩ := Checked.ok_of_bind applied
  obtain ⟨_, _, applied⟩ := Checked.ok_of_bind applied
  exact ⟨appendChange_framed applied, by rw [(appendChange_ok applied).2]; rfl⟩

variable {page : WorldPageAssumption}

theorem page_known (valid : page.validate = .ok ()) (known : page.status ≠ .unknown) :
    page.appId ≠ [] ∧ page.stateId ≠ [] ∧ confidenceInRange page.confidence = true := by
  rw [WorldPageAssumption.validate, if_neg known] at valid
  obtain ⟨_, pair, range⟩ := Checked.ok_of_bind valid
  have both := require_ok.mp pair
  simp only [Bool.and_eq_true, decide_eq_true_eq] at both
  exact ⟨both.1, both.2, require_ok.mp range⟩

theorem page_valid (app : page.appId ≠ []) (screen : page.stateId ≠ [])
    (range : confidenceInRange page.confidence = true) (known : page.status ≠ .unknown) :
    page.validate = .ok () := by
  simp [WorldPageAssumption.validate, require, app, screen, range, known, bind, Except.bind]

theorem applyVerification_ok {input : WorldVerificationInput}
    (valid : state.currentPage.validate = .ok ())
    (applied : applyVerification state input options = .ok next) :
    ∃ page, Framed { state with currentPage := page } next ∧ next.entities = state.entities ∧
      PageOrigin options state (.input (.verification input)) page := by
  rw [applyVerification] at applied
  obtain ⟨_, _, applied⟩ := Checked.ok_of_bind applied
  obtain ⟨_, _, applied⟩ := Checked.ok_of_bind applied
  obtain ⟨_, range, applied⟩ := Checked.ok_of_bind applied
  obtain ⟨_, target, applied⟩ := Checked.ok_of_bind applied
  have known := of_decide_eq_true (require_ok.mp target)
  obtain ⟨app, screen, _⟩ := page_known valid known
  refine ⟨_, appendChange_framed applied, by rw [(appendChange_ok applied).2]; rfl, ?_⟩
  rw [WorldVerificationInput.settled]
  split
  · next settled =>
      refine .recognized (by simpa [WorldCall.refreshesPage] using settled) ?_
      refine page_valid app screen (require_ok.mp range) ?_
      dsimp only
      split
      · exact WorldBeliefStatus.noConfusion
      · exact WorldBeliefStatus.noConfusion
  · exact .kept

theorem noteStaled_ring {input : WorldExpiryInput} {table : List WorldEntity}
    (ascends : checkSequences state.recentChanges = .ok ()) :
    checkSequences (noteStaled input options table state).recentChanges = .ok () := by
  induction table generalizing state with
  | nil => exact ascends
  | cons entity rest ih =>
      rw [noteStaled_cons]
      split
      · exact ih (appendChangeUnchecked_ring ascends _ _ _ _ _)
      · exact ih ascends

theorem applyExpiry_ok {input : WorldExpiryInput}
    (applied : applyExpiry state input options = .ok next) :
    next = expired input options state := by
  rw [applyExpiry_eq] at applied
  obtain ⟨_, _, rest⟩ := Checked.ok_of_bind applied
  split at rest
  · cases rest
    rfl
  · cases rest

theorem expired_framed (input : WorldExpiryInput) (options : WorldStateOptions)
    (state : WorldState) :
    Framed { state with currentPage := state.currentPage.after input.now options }
      (expired input options state) := by
  have foreground : (noteStaled input options state.entities state).foregroundApp =
      state.foregroundApp := by rw [noteStaled_frame]
  refine ⟨expired_page input options state, ?_, ?_⟩
  · rw [expired]
    split
    · exact foreground
    · exact foreground
  · intro ascends
    rw [expired]
    split
    · refine appendChangeUnchecked_ring ?_ _ _ _ _ _
      exact noteStaled_ring ascends
    · exact noteStaled_ring ascends

theorem halve_range {confidence : Rat} (range : confidenceInRange confidence = true) :
    confidenceInRange (halve confidence) = true := by
  rw [confidenceInRange, Bool.and_eq_true, decide_eq_true_eq, decide_eq_true_eq] at range
  have scale : (0 : Rat) < 2 ^ 1074 := by positivity
  have low : ((0 : Int) : Rat) ≤ confidence / 2 * 2 ^ 1074 := by
    rw [Int.cast_zero]
    exact mul_nonneg (by linarith) scale.le
  have high : confidence / 2 * 2 ^ 1074 ≤ ((2 ^ 1074 : Int) : Rat) := by
    rw [Int.cast_pow, Int.cast_ofNat]
    calc confidence / 2 * 2 ^ 1074 ≤ 1 * 2 ^ 1074 := by
          exact mul_le_mul_of_nonneg_right (by linarith) scale.le
      _ = 2 ^ 1074 := one_mul _
  obtain ⟨above, below⟩ := roundHalfEven_mono_int low high
  have above' : (0 : Rat) ≤ roundHalfEven (confidence / 2 * 2 ^ 1074) := by exact_mod_cast above
  have below' : (roundHalfEven (confidence / 2 * 2 ^ 1074) : Rat) ≤ 2 ^ 1074 := by
    have cast : (roundHalfEven (confidence / 2 * 2 ^ 1074) : Rat) ≤ ((2 ^ 1074 : Int) : Rat) :=
      Int.cast_le.mpr below
    rwa [Int.cast_pow, Int.cast_ofNat] at cast
  have upper : halve confidence ≤ 1 := by
    rw [halve, div_le_one scale]
    exact below'
  have lower : 0 ≤ halve confidence := div_nonneg above' scale.le
  rw [confidenceInRange, Bool.and_eq_true, decide_eq_true_eq, decide_eq_true_eq]
  exact ⟨lower, upper⟩

end

theorem WorldState.validate_iff : state.validate = .ok () ↔
    state.foregroundApp.validate = .ok () ∧ state.currentPage.validate = .ok () ∧
      (∀ entity ∈ state.entities, entity.validate = .ok ()) ∧
      checkSequences state.recentChanges = .ok () := by
  rw [WorldState.validate]
  constructor
  · intro valid
    obtain ⟨_, foreground, valid⟩ := Checked.ok_of_bind valid
    obtain ⟨_, page, valid⟩ := Checked.ok_of_bind valid
    obtain ⟨_, entities, ring⟩ := Checked.ok_of_bind valid
    exact ⟨foreground, page, Checked.forM_ok_iff.mp entities, ring⟩
  · intro ⟨foreground, page, entities, ring⟩
    rw [foreground, page, Checked.forM_ok_iff.mpr entities]
    exact ring

theorem WorldEntity.validate_iff {entity : WorldEntity} : entity.validate = .ok () ↔
    entity.element.observationId.isNil = false ∧ entity.element.space.isNil = false ∧
      confidenceInRange entity.confidence = true := by
  rw [WorldEntity.validate]
  cases entity.element.observationId.isNil <;> cases entity.element.space.isNil <;>
    simp [require, bind, Except.bind]

section
variable {options : WorldStateOptions} {state next : WorldState} {call : WorldCall}

variable {page : WorldPageAssumption}

theorem PageOrigin.valid (origin : PageOrigin options state call page)
    (valid : state.currentPage.validate = .ok ()) : page.validate = .ok () := by
  cases origin with
  | kept => exact valid
  | doubted known =>
      obtain ⟨app, screen, range⟩ := page_known valid known
      exact page_valid app screen range WorldBeliefStatus.noConfusion
  | staled due =>
      have known : state.currentPage.status ≠ .unknown := by
        rw [(WorldPageAssumption.expires_iff.mp due).1]
        exact WorldBeliefStatus.noConfusion
      obtain ⟨app, screen, range⟩ := page_known valid known
      exact page_valid app screen (halve_range range) WorldBeliefStatus.noConfusion
  | recognized _ valid => exact valid

theorem EntityOrigin.valid {entity : WorldEntity}
    (origin : EntityOrigin options state call entity)
    (applied : call.apply options state = .ok next)
    (valid : ∀ entity ∈ state.entities, entity.validate = .ok ()) :
    entity.validate = .ok () := by
  cases origin with
  | kept held => exact valid entity held
  | staled held _ =>
      obtain ⟨id, space, range⟩ := WorldEntity.validate_iff.mp (valid _ held)
      exact WorldEntity.validate_iff.mpr ⟨id, space, (halve_range range)⟩
  | seen named =>
      have checked := (applyWorldObservation_framed applied).2
      rw [WorldObservationInput.check] at checked
      obtain ⟨_, _, checked⟩ := Checked.ok_of_bind checked
      obtain ⟨_, elements, _⟩ := Checked.ok_of_bind checked
      obtain ⟨_, id, space⟩ := Checked.ok_of_bind (Checked.ok_of_forM elements _ named)
      exact WorldEntity.validate_iff.mpr ⟨(Bool.not_eq_true' _).mp (require_ok.mp id),
        (Bool.not_eq_true' _).mp (require_ok.mp space), rfl⟩

theorem accounted_page (sound : Sound options state)
    (framed : Framed { state with currentPage := page } next)
    (table : next.entities = state.entities) (origin : PageOrigin options state call page) :
    Accounted options state call next ∧ Sound options next := by
  obtain ⟨foreground, before, entities, ring⟩ := WorldState.validate_iff.mp sound.valid
  have accounted : Accounted options state call next := by
    refine ⟨table ▸ sound.distinct, table ▸ sound.bounded, ?_, framed.page ▸ origin⟩
    intro entity held
    exact .kept (table ▸ held)
  refine ⟨accounted, WorldState.validate_iff.mpr ⟨?_, ?_, table ▸ entities, framed.ring ring⟩,
    accounted.distinct, accounted.bounded⟩
  · rw [framed.foreground]
    exact foreground
  · rw [framed.page]
    exact origin.valid before

theorem observation_accounted {input : WorldObservationInput} (sound : Sound options state)
    (applied : applyWorldObservation state input options = .ok next) :
    Accounted options state (.input (.observation input)) next ∧ Sound options next := by
  obtain ⟨_, before, entities, ring⟩ := WorldState.validate_iff.mp sound.valid
  obtain ⟨framed, _⟩ := applyWorldObservation_framed applied
  obtain ⟨some_, _, loop, after, start, run, result⟩ := applyWorldObservation_loop applied
  obtain ⟨distinct, bounded, origin⟩ := observation_keeps (start ▸ sound.distinct)
    (start ▸ sound.bounded) some_ run
  rw [← result, start] at origin
  have accounted : Accounted options state (.input (.observation input)) next := by
    refine ⟨result ▸ distinct, result ▸ bounded, ?_, framed.page ▸ .kept⟩
    intro entity held
    rcases origin entity held with old | ⟨element, named, fresh⟩
    · exact .kept old
    · rw [fresh]
      exact .seen named
  refine ⟨accounted, WorldState.validate_iff.mpr ⟨?_, ?_, ?_, framed.ring ring⟩,
    accounted.distinct, accounted.bounded⟩
  · rw [framed.foreground]
    exact foreground_valid input
  · rw [framed.page]
    exact before
  · intro entity held
    exact (accounted.entities entity held).valid applied entities

theorem expiry_accounted {input : WorldExpiryInput} (sound : Sound options state)
    (applied : applyExpiry state input options = .ok next) :
    Accounted options state (.input (.expiry input)) next ∧ Sound options next := by
  obtain ⟨foreground, before, entities, ring⟩ := WorldState.validate_iff.mp sound.valid
  have framed := expired_framed input options state
  rw [← applyExpiry_ok applied] at framed
  have table : next.entities = state.entities.map fun entity =>
      entity.after input.now options := by
    rw [applyExpiry_ok applied, expired_entities]
  have elements : next.entities.map WorldEntity.element =
      state.entities.map WorldEntity.element := by
    rw [table, List.map_map]
    apply List.map_congr_left
    intro entity _
    rw [Function.comp_apply, WorldEntity.after]
    split
    · rfl
    · rfl
  have accounted : Accounted options state (.input (.expiry input)) next := by
    refine ⟨?_, ?_, ?_, ?_⟩
    · rw [Distinct, elements]
      exact sound.distinct
    · rw [table, List.length_map]
      exact sound.bounded
    · intro entity held
      rw [table] at held
      obtain ⟨old, present, same⟩ := List.mem_map.mp held
      rw [← same, WorldEntity.after]
      split
      · next due => exact .staled present due
      · exact .kept present
    · rw [framed.page, WorldPageAssumption.after]
      split
      · next due => exact .staled due
      · exact .kept
  refine ⟨accounted, WorldState.validate_iff.mpr ⟨?_, ?_, ?_, framed.ring ring⟩,
    accounted.distinct, accounted.bounded⟩
  · rw [framed.foreground]
    exact foreground
  · exact accounted.page.valid before
  · intro entity held
    exact (accounted.entities entity held).valid applied entities

theorem apply_accounted (sound : Sound options state)
    (applied : call.apply options state = .ok next) :
    Accounted options state call next ∧ Sound options next := by
  have before := (WorldState.validate_iff.mp sound.valid).2.1
  cases call with
  | prune =>
      have same : next = state := by
        rw [WorldCall.apply, pruneEntities_bounded sound.bounded] at applied
        cases applied
        rfl
      rw [same]
      exact accounted_page sound .rfl rfl .kept
  | input given =>
      cases given with
      | observation input => exact observation_accounted sound applied
      | screenState input =>
          obtain ⟨page, framed, table, origin⟩ := applyScreenState_ok applied
          exact accounted_page sound framed table origin
      | navigation input =>
          obtain ⟨page, framed, table, origin⟩ := applyNavigation_ok applied
          exact accounted_page sound framed table origin
      | toolSettled input =>
          obtain ⟨framed, table⟩ := applyToolSettled_ok applied
          exact accounted_page sound framed table .kept
      | verification input =>
          obtain ⟨page, framed, table, origin⟩ := applyVerification_ok before applied
          exact accounted_page sound framed table origin
      | expiry input => exact expiry_accounted sound applied

theorem step_accounted (sound : Sound options state) (call : WorldCall) :
    Accounted options state call (step options state call) ∧
      Sound options (step options state call) := by
  rw [step]
  cases applied : call.apply options state with
  | ok next => exact apply_accounted sound applied
  | error _ => exact accounted_page sound .rfl rfl .kept

theorem run_sound (sound : Sound options state) (calls : List WorldCall) :
    Sound options (run options calls state) := by
  induction calls generalizing state with
  | nil => exact sound
  | cons call rest ih => exact ih (step_accounted sound call).2

theorem start_sound (options : WorldStateOptions) : Sound options {} where
  valid := rfl
  distinct := List.nodup_nil
  bounded := Nat.zero_le _

end

def stepsWhere (options : WorldStateOptions) (happens : WorldState → WorldCall → Bool) :
    List WorldCall → WorldState → Nat
  | [], _ => 0
  | call :: rest, state =>
      (if happens state call then 1 else 0) +
        stepsWhere options happens rest (step options state call)

def entityRefreshed (options : WorldStateOptions) (element : ElementRef) (state : WorldState)
    (call : WorldCall) : Bool :=
  (call.apply options state).isOk &&
    match call with
    | .input (.observation input) => input.elements.contains element
    | _ => false

def entityFalls (options : WorldStateOptions) (element : ElementRef) (state : WorldState)
    (call : WorldCall) : Bool :=
  state.entities.any fun before => before.element = element &&
    (step options state call).entities.any fun after =>
      after.element = element && after.confidence < before.confidence

def pageRefreshed (options : WorldStateOptions) (state : WorldState) (call : WorldCall) : Bool :=
  (call.apply options state).isOk && call.refreshesPage

def pageFalls (options : WorldStateOptions) (state : WorldState) (call : WorldCall) : Bool :=
  (step options state call).currentPage.confidence < state.currentPage.confidence

theorem stepsWhere_le_one {options : WorldStateOptions}
    {refreshed falls : WorldState → WorldCall → Bool} (live : WorldState → Prop)
    (ends : ∀ state call, Sound options state → refreshed state call = false →
      (falls state call = true → live state ∧ ¬ live (step options state call)) ∧
      (live (step options state call) → live state)) (sound : Sound options state)
    {calls : List WorldCall} (quiet : stepsWhere options refreshed calls state = 0) :
    stepsWhere options falls calls state ≤ 1 ∧
      (¬ live state → stepsWhere options falls calls state = 0) := by
  induction calls generalizing state with
  | nil => exact ⟨Nat.zero_le _, fun _ => rfl⟩
  | cons call rest ih =>
      rw [stepsWhere, Nat.add_eq_zero_iff] at quiet
      obtain ⟨here, later⟩ := quiet
      have calm : refreshed state call = false := by
        by_contra fresh
        rw [if_pos (Bool.eq_true_of_not_eq_false fresh)] at here
        cases here
      obtain ⟨loses, stays⟩ := ends state call sound calm
      obtain ⟨once, none_⟩ := ih (step_accounted sound call).2 later
      rw [stepsWhere]
      cases fall : falls state call with
      | false =>
          rw [if_neg Bool.false_ne_true, Nat.zero_add]
          exact ⟨once, fun dead => none_ fun alive => dead (stays alive)⟩
      | true =>
          obtain ⟨alive, dead⟩ := loses fall
          rw [if_pos rfl, none_ dead]
          exact ⟨le_refl _, fun gone => absurd alive gone⟩

section
variable {options : WorldStateOptions} {state : WorldState}

variable {call : WorldCall}

theorem step_of_ok {next : WorldState} (applied : call.apply options state = .ok next) :
    step options state call = next := by
  rw [step, applied]

theorem step_of_error {reason : WorldStateError} (failed : call.apply options state = .error reason) :
    step options state call = state := by
  rw [step, failed]

variable {element : ElementRef}

theorem entityFalls_iff :
    entityFalls options element state call = true ↔
      ∃ before ∈ state.entities, ∃ after ∈ (step options state call).entities,
        before.element = element ∧ after.element = element ∧
          after.confidence < before.confidence := by
  simp only [entityFalls, List.any_eq_true, Bool.and_eq_true, decide_eq_true_eq]
  constructor
  · intro ⟨before, held, same, after, held', same', less⟩
    exact ⟨before, held, after, held', same, same', less⟩
  · intro ⟨before, held, after, held', same, same', less⟩
    exact ⟨before, held, same, after, held', same', less⟩

variable {calls : List WorldCall}

theorem entity_loses_once (sound : Sound options state)
    (quiet : stepsWhere options (entityRefreshed options element) calls state = 0) :
    stepsWhere options (entityFalls options element) calls state ≤ 1 := by
  refine (stepsWhere_le_one (fun state =>
    ∃ entity ∈ state.entities, entity.element = element ∧ entity.stale = false) ?_ sound quiet).1
  intro state call sound calm
  have only {state : WorldState} (sound : Sound options state) {first second : WorldEntity}
      (held : first ∈ state.entities) (held' : second ∈ state.entities)
      (same : first.element = element) (same' : second.element = element) : first = second :=
    List.inj_on_of_nodup_map sound.distinct held held' (same.trans same'.symm)
  rw [entityFalls_iff]
  cases applied : call.apply options state with
  | error reason =>
      rw [step_of_error applied]
      refine ⟨?_, id⟩
      intro ⟨before, held, after, held', same, same', less⟩
      rw [only sound held held' same same'] at less
      exact absurd less (lt_irrefl _)
  | ok next =>
      rw [step_of_ok applied]
      obtain ⟨accounted, sound'⟩ := apply_accounted sound applied
      have origin {entity : WorldEntity} (held : entity ∈ next.entities)
          (same : entity.element = element) :
          entity ∈ state.entities ∨
            ∃ before ∈ state.entities, before.stale = false ∧ entity = before.staled := by
        have source := accounted.entities entity held
        cases source with
        | kept old => exact .inl old
        | staled old due => exact .inr ⟨_, old, (WorldEntity.expires_iff.mp due).1, rfl⟩
        | @seen input found named =>
            have own : found = element := same
            have fresh := List.contains_iff_mem.mpr (own ▸ named)
            rw [entityRefreshed, applied, Except.isOk] at calm
            exact absurd (calm.symm.trans fresh) Bool.false_ne_true
      constructor
      · intro ⟨before, held, after, held', same, same', less⟩
        rcases origin held' same' with old | ⟨source, old, alive, made⟩
        · rw [only sound held old same same'] at less
          exact absurd less (lt_irrefl _)
        · have equal : source = before := only sound old held
            ((congrArg WorldEntity.element made).symm.trans same') same
          refine ⟨⟨before, held, same, equal ▸ alive⟩, ?_⟩
          intro ⟨entity, there, own, live⟩
          rw [only sound' there held' own same', made] at live
          cases live
      · intro ⟨entity, there, own, live⟩
        rcases origin there own with old | ⟨source, _, _, made⟩
        · exact ⟨entity, old, own, live⟩
        · rw [made] at live
          cases live

theorem page_loses_once (sound : Sound options state)
    (quiet : stepsWhere options (pageRefreshed options) calls state = 0) :
    stepsWhere options (pageFalls options) calls state ≤ 1 := by
  refine (stepsWhere_le_one (fun state => state.currentPage.status = .believed) ?_ sound quiet).1
  intro state call sound calm
  rw [pageFalls, decide_eq_true_eq]
  cases applied : call.apply options state with
  | error reason =>
      rw [step_of_error applied]
      exact ⟨fun less => absurd less (lt_irrefl _), id⟩
  | ok next =>
      rw [step_of_ok applied]
      have origin := (apply_accounted sound applied).1.page
      revert origin
      generalize next.currentPage = page
      intro origin
      cases origin with
      | kept => exact ⟨fun less => absurd less (lt_irrefl _), id⟩
      | doubted known => exact ⟨fun less => absurd less (lt_irrefl _), fun live => by cases live⟩
      | staled due =>
          have believed := (WorldPageAssumption.expires_iff.mp due).1
          exact ⟨fun _ => ⟨believed, WorldBeliefStatus.noConfusion⟩, fun _ => believed⟩
      | recognized refreshed _ =>
          rw [pageRefreshed, applied, Except.isOk, refreshed] at calm
          cases calm

end

/-- Expiry composes: the later of two expiries decides, the same one twice changes nothing more, and
in a run from the empty state no entity and no page loses confidence twice without a refresh. -/
theorem expiry_composes (options : WorldStateOptions) (state : WorldState)
    (first second : Timestamp) (order : first.wall ≤ second.wall)
    (earlier calls : List WorldCall) :
    (applyExpiry state { now := first } options >>= fun next =>
        applyExpiry next { now := second } options).map WorldState.view =
      (applyExpiry state { now := second } options).map WorldState.view ∧
    (∀ next, applyExpiry state { now := first } options = .ok next →
      applyExpiry next { now := first } options = .ok next) ∧
    (∀ element, stepsWhere options (entityRefreshed options element) calls
        (run options earlier {}) = 0 →
      stepsWhere options (entityFalls options element) calls (run options earlier {}) ≤ 1) ∧
    (stepsWhere options (pageRefreshed options) calls (run options earlier {}) = 0 →
      stepsWhere options (pageFalls options) calls (run options earlier {}) ≤ 1) := by
  have sound := run_sound (start_sound options) earlier
  exact ⟨applyExpiry_later state order, fun _ applied => applyExpiry_again applied,
    fun _ quiet => entity_loses_once sound quiet, page_loses_once sound⟩

theorem expiry_composes_sample :
    (applyExpiry sampleState { now := ⟨1, 0⟩ } { staleAfter := 0 } >>= fun next =>
        applyExpiry next { now := ⟨2, 0⟩ } { staleAfter := 0 }).map WorldState.view =
      (applyExpiry sampleState { now := ⟨2, 0⟩ } { staleAfter := 0 }).map WorldState.view :=
  (expiry_composes { staleAfter := 0 } sampleState ⟨1, 0⟩ ⟨2, 0⟩ (by decide) [] []).1

end Mira.World
