import Mira.Library.Eviction
import Mira.WorldState.Contracts

/-!
The operators on the world state. Each takes a state, an input and the options and returns the
next state or an error; the state is a value, so a failed operator changes nothing.
-/

namespace Mira.World
open Mira Bytes Eviction

/-- The entry goes to the end of the ring, and the oldest one leaves a full ring. -/
def appendChangeUnchecked (state : WorldState) (kind : WorldChangeKind) (summary : Bytes)
    (sourceEventDigest : Sha256Digest) (changedAt : Timestamp) (options : WorldStateOptions) :
    WorldState :=
  let change : WorldChange :=
    { kind := kind
      summary := summary
      sourceEventDigest := sourceEventDigest
      changedAt := changedAt
      changeSequence := (state.recentChanges.getLast?.map WorldChange.changeSequence).getD 0 + 1 }
  let changes := state.recentChanges ++ [change]
  { state with
    recentChanges := if options.maxRecentChanges < changes.length then changes.drop 1 else changes }

/-- A summary is never cut, so one that is too long is refused. -/
def appendChange (state : WorldState) (kind : WorldChangeKind) (summary : Bytes)
    (sourceEventDigest : Sha256Digest) (changedAt : Timestamp) (options : WorldStateOptions) :
    WorldResult WorldState := do
  require (summary.length ≤ options.maxChangeSummaryBytes) .payloadTooLarge
    "change summary exceeds max_change_summary_bytes"
  return appendChangeUnchecked state kind summary sourceEventDigest changedAt options

def sameElement (left right : ElementRef) : Bool :=
  left.observationId = right.observationId && left.environmentEpoch = right.environmentEpoch &&
    left.source = right.source && left.stableHint = right.stableHint &&
    left.bounds = right.bounds && left.space = right.space &&
    left.evidenceDigest = right.evidenceDigest

/-- Stale entities go first, then those seen longest ago, then those least believed in; the text
of the element decides the rest. -/
def evictsBefore (left right : WorldEntity) : Bool :=
  if left.stale ≠ right.stale then left.stale
  else if left.lastSeenAt.wall ≠ right.lastSeenAt.wall then
    left.lastSeenAt.wall < right.lastSeenAt.wall
  else if left.confidence ≠ right.confidence then left.confidence < right.confidence
  else
    keyLess (canonicalJsonString (elementToJson left.element))
      (canonicalJsonString (elementToJson right.element))

def evictionSummary (victim : WorldEntity) : Bytes :=
  ascii "entity evicted observation_id=" ++ victim.element.observationId.toString

/-- Takes the first entity in the eviction order out of the table. -/
def evictOne (causeDigest : Sha256Digest) (changedAt : Timestamp) (options : WorldStateOptions)
    (state : WorldState) : WorldResult WorldState :=
  match evictLeast evictsBefore state.entities with
  | none => .ok state
  | some (victim, left) => do
      let noted ← appendChange state .entityEvicted (evictionSummary victim) causeDigest changedAt
        options
      return { noted with entities := left }

/-- Evicts until there is room for one more. -/
def makeRoom (causeDigest : Sha256Digest) (changedAt : Timestamp) (options : WorldStateOptions) :
    Nat → WorldState → WorldResult WorldState
  | 0, state => .ok state
  | rounds + 1, state =>
      if options.maxEntities ≤ state.entities.length then do
        makeRoom causeDigest changedAt options rounds
          (← evictOne causeDigest changedAt options state)
      else .ok state

/-- The loop of `prune_entities`, with the entities it evicts in their order. -/
def pruneRounds (options : WorldStateOptions) :
    Nat → WorldState → WorldState × List WorldEntity
  | 0, state => (state, [])
  | rounds + 1, state =>
      if options.maxEntities < state.entities.length then
        match evictLeast evictsBefore state.entities with
        | none => (state, [])
        | some (victim, left) =>
            let noted := appendChangeUnchecked state .entityEvicted (evictionSummary victim) .zero
              {} options
            let rest := pruneRounds options rounds { noted with entities := left }
            (rest.1, victim :: rest.2)
      else (state, [])

def pruneTrace (state : WorldState) (options : WorldStateOptions) :
    WorldState × List WorldEntity :=
  pruneRounds options state.entities.length state

def pruneEntities (state : WorldState) (options : WorldStateOptions) : WorldState :=
  (pruneTrace state options).1

def WorldObservationInput.check (input : WorldObservationInput) (options : WorldStateOptions) :
    WorldResult Unit := do
  require (!input.observationId.isNil) .vocabularyViolation
    "observation input observation_id is nil"
  input.elements.forM fun element => do
    require (!element.observationId.isNil) .vocabularyViolation
      "observation element observation_id is nil"
    require (!element.space.isNil) .vocabularyViolation "observation element space is invalid"
  require (input.elements.length ≤ options.maxEntities) .recordInvalid
    "observation elements exceed options.max_entities"

def sameForegroundContent (left right : WorldForegroundApp) : Bool :=
  left.status = right.status && left.packageName = right.packageName &&
    left.activityName = right.activityName && left.sensitive = right.sensitive

def WorldObservationInput.foreground (input : WorldObservationInput) : WorldForegroundApp :=
  if input.app.packageName = [] then {}
  else
    { status := .believed
      packageName := input.app.packageName
      activityName := input.app.activityName
      sensitive := input.app.sensitive
      observedAt := input.observedAt }

def foregroundSummary (app : WorldForegroundApp) : Bytes :=
  if app.status = .unknown then ascii "foreground unknown"
  else
    ascii "foreground " ++ app.packageName ++ ascii "/" ++ app.activityName ++
      (if app.sensitive then ascii " sensitive" else [])

def observeForeground (state : WorldState) (input : WorldObservationInput)
    (options : WorldStateOptions) : WorldResult WorldState :=
  let next := { state with foregroundApp := input.foreground }
  if sameForegroundContent state.foregroundApp input.foreground then .ok next
  else
    appendChange next .pageAssumed (foregroundSummary input.foreground) input.digest
      input.observedAt options

def WorldObservationInput.fresh (input : WorldObservationInput) (element : ElementRef) :
    WorldEntity :=
  { element := element
    confidence := 1
    stale := false
    lastSeenAt := input.observedAt
    sourceEventDigest := input.digest }

/-- The entity loop: the state and how many entities were added and refreshed so far. -/
structure ObservationLoop where
  state : WorldState
  added : Nat := 0
  refreshed : Nat := 0

def observeElement (input : WorldObservationInput) (options : WorldStateOptions)
    (loop : ObservationLoop) (element : ElementRef) : WorldResult ObservationLoop :=
  let existing := loop.state.entities.findIdx fun entity => sameElement entity.element element
  if existing < loop.state.entities.length then
    .ok { loop with
      state := { loop.state with
        entities := loop.state.entities.modify existing fun entity => input.fresh entity.element }
      refreshed := loop.refreshed + 1 }
  else do
    let room ← makeRoom input.digest input.observedAt options loop.state.entities.length loop.state
    return { loop with
      state := { room with entities := room.entities ++ [input.fresh element] }
      added := loop.added + 1 }

def observationSummary (loop : ObservationLoop) : Bytes :=
  ascii "entities added=" ++ decimal loop.added ++ ascii " refreshed=" ++ decimal loop.refreshed

def applyWorldObservation (state : WorldState) (input : WorldObservationInput)
    (options : WorldStateOptions) : WorldResult WorldState := do
  options.validate
  input.check options
  let next ← observeForeground state input options
  let loop ← input.elements.foldlM (observeElement input options) { state := next }
  if 0 < loop.added + loop.refreshed then
    appendChange loop.state .entityObserved (observationSummary loop) input.digest
      input.observedAt options
  else return loop.state

def applyScreenState (state : WorldState) (input : WorldScreenStateInput)
    (options : WorldStateOptions) : WorldResult WorldState := do
  options.validate
  require (input.appId ≠ []) .vocabularyViolation "screen state input app_id is empty"
  require (input.stateId ≠ []) .vocabularyViolation "screen state input state_id is empty"
  require (confidenceInRange input.confidence) .recordInvalid
    "screen state input confidence outside [0,1]"
  appendChange
    { state with
      currentPage :=
        { status := .believed
          appId := input.appId
          stateId := input.stateId
          confidence := input.confidence
          recognizedAt := input.recognizedAt } }
    .pageAssumed (ascii "page " ++ input.appId ++ ascii "/" ++ input.stateId) input.digest
    input.recognizedAt options

def WorldNavigationInput.check (input : WorldNavigationInput) : WorldResult Unit := do
  require (input.appId ≠ []) .vocabularyViolation "navigation input app_id is empty"
  require (input.fromState ≠ []) .vocabularyViolation "navigation input from_state is empty"
  require (input.toState ≠ []) .vocabularyViolation "navigation input to_state is empty"
  require (confidenceInRange input.confidence) .recordInvalid
    "navigation input confidence outside [0,1]"

/-- A navigation that does not start on the page that was assumed. -/
def markConflict (state : WorldState) (input : WorldNavigationInput)
    (options : WorldStateOptions) : WorldResult WorldState :=
  if state.currentPage.status ≠ .unknown &&
      (state.currentPage.appId ≠ input.appId || state.currentPage.stateId ≠ input.fromState) then
    appendChange state .conflictMarked
      (ascii "conflict projected=" ++ state.currentPage.appId ++ ascii "/" ++
        state.currentPage.stateId ++ ascii " claimed=" ++ input.appId ++ ascii "/" ++
        input.fromState)
      input.digest input.observedAt options
  else .ok state

/-- A failed navigation leaves the page stale as it was recognized. -/
def WorldNavigationInput.arrived (input : WorldNavigationInput) (page : WorldPageAssumption) :
    WorldPageAssumption :=
  if input.success then
    { status := .believed
      appId := input.appId
      stateId := input.toState
      confidence := input.confidence
      recognizedAt := input.observedAt }
  else if page.status = .unknown then page
  else { page with status := .stale }

def applyNavigation (state : WorldState) (input : WorldNavigationInput)
    (options : WorldStateOptions) : WorldResult WorldState := do
  options.validate
  input.check
  let next ← markConflict state input options
  appendChange { next with currentPage := input.arrived next.currentPage } .navigationObserved
    (ascii "navigation " ++ input.appId ++ ascii " " ++ input.fromState ++ ascii "->" ++
      input.toState ++ (if input.success then ascii " success" else ascii " failed"))
    input.digest input.observedAt options

def dispositions : List Bytes :=
  [ascii "completed", ascii "skipped", ascii "failed", ascii "stale"]

def toolRefMaxBytes : Nat := 256

def applyToolSettled (state : WorldState) (input : WorldToolSettledInput)
    (options : WorldStateOptions) : WorldResult WorldState := do
  options.validate
  require (input.toolRef ≠ []) .vocabularyViolation "tool settle input tool_ref is empty"
  require (input.toolRef.length ≤ toolRefMaxBytes) .vocabularyViolation
    "tool settle input tool_ref exceeds 256 bytes"
  require (dispositions.contains input.disposition) .recordInvalid
    "tool settle disposition is outside the closed set"
  appendChange state .toolSettled
    (ascii "tool settled " ++ input.disposition ++ ascii " " ++ input.toolRef) input.digest
    input.settledAt options

def outcomes : List Bytes := [ascii "confirmed", ascii "refuted", ascii "inconclusive"]

/-- An inconclusive verification leaves the page as it is. -/
def WorldVerificationInput.settled (input : WorldVerificationInput) (page : WorldPageAssumption) :
    WorldPageAssumption :=
  if input.outcome = ascii "confirmed" ∨ input.outcome = ascii "refuted" then
    { page with
      status := if input.outcome = ascii "confirmed" then .believed else .stale
      confidence := input.confidence
      recognizedAt := input.verifiedAt }
  else page

def applyVerification (state : WorldState) (input : WorldVerificationInput)
    (options : WorldStateOptions) : WorldResult WorldState := do
  options.validate
  require (outcomes.contains input.outcome) .recordInvalid
    "verification outcome is outside the closed set"
  require (confidenceInRange input.confidence) .recordInvalid
    "verification confidence outside [0,1]"
  require (state.currentPage.status ≠ .unknown) .staleTargetMissing
    "verification target page is Unknown"
  appendChange { state with currentPage := input.settled state.currentPage } .verificationSettled
    (ascii "verification " ++ input.outcome) input.digest input.verifiedAt options

/-- Half of a binary64 value: exact, but for the last bit of a subnormal result. -/
def halve (confidence : Rat) : Rat := roundHalfEven (confidence / 2 * 2 ^ 1074) / 2 ^ 1074

/-- The bound on the age, in nanoseconds. -/
def stalenessBound (options : WorldStateOptions) : Int := options.staleAfter * 1000000

def WorldEntity.expires (entity : WorldEntity) (now : Timestamp) (options : WorldStateOptions) :
    Bool :=
  !entity.stale && stalenessBound options < now.wall - entity.lastSeenAt.wall

def WorldPageAssumption.expires (page : WorldPageAssumption) (now : Timestamp)
    (options : WorldStateOptions) : Bool :=
  page.status = .believed && stalenessBound options < now.wall - page.recognizedAt.wall

def WorldEntity.staled (entity : WorldEntity) : WorldEntity :=
  { entity with stale := true, confidence := halve entity.confidence }

def WorldPageAssumption.staled (page : WorldPageAssumption) : WorldPageAssumption :=
  { page with status := .stale, confidence := halve page.confidence }

/-- The loop over the table; the ring is that of the state, the table is returned beside it. -/
def expireEntities (input : WorldExpiryInput) (options : WorldStateOptions) :
    List WorldEntity → WorldState → WorldResult (List WorldEntity × WorldState)
  | [], state => .ok ([], state)
  | entity :: rest, state =>
      if entity.expires input.now options then do
        let noted ← appendChange state .entityStaled
          (ascii "entity staled observation_id=" ++ entity.element.observationId.toString)
          input.digest input.now options
        let (others, noted) ← expireEntities input options rest noted
        return (entity.staled :: others, noted)
      else do
        let (others, noted) ← expireEntities input options rest state
        return (entity :: others, noted)

def applyExpiry (state : WorldState) (input : WorldExpiryInput) (options : WorldStateOptions) :
    WorldResult WorldState := do
  options.validate
  let (entities, noted) ← expireEntities input options state.entities state
  let next := { noted with entities := entities }
  if next.currentPage.expires input.now options then
    appendChange { next with currentPage := next.currentPage.staled } .entityStaled
      (ascii "page staled " ++ next.currentPage.appId ++ ascii "/" ++ next.currentPage.stateId)
      input.digest input.now options
  else return next

def applyInput (options : WorldStateOptions) (state : WorldState) :
    WorldStateInput → WorldResult WorldState
  | .observation input => applyWorldObservation state input options
  | .screenState input => applyScreenState state input options
  | .navigation input => applyNavigation state input options
  | .toolSettled input => applyToolSettled state input options
  | .verification input => applyVerification state input options
  | .expiry input => applyExpiry state input options

end Mira.World
