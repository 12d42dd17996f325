import Mira.Digest.Sha256
import Mira.Json.Distinct
import Mira.Library.Checked

/-!
The records of the world state: what the session believes of the foreground, the page and the
elements it has seen, the ring of recent changes, and the inputs that update them. Numbers are
the finite values of binary64; an enumeration holds its enumerators and nothing else.
-/

namespace Mira.World
open Mira Bytes

inductive WorldStateDomainCode
  | optionsInvalid | stateInvalid | recordInvalid | vocabularyViolation | payloadTooLarge
  | schemaUnsupported | payloadMalformed | staleTargetMissing

def WorldStateDomainCode.value : WorldStateDomainCode → Int32
  | optionsInvalid => 1
  | stateInvalid => 2
  | recordInvalid => 3
  | vocabularyViolation => 4
  | payloadTooLarge => 5
  | schemaUnsupported => 6
  | payloadMalformed => 7
  | staleTargetMissing => 8

structure WorldStateError where
  code : ErrorCode
  domain : String := "mira.world_state"
  domainCode : Int32
  retryable : Bool := false
  safeMessage : String

abbrev WorldResult (α : Type) := Except WorldStateError α

def makeWorldStateError (code : WorldStateDomainCode) (detail : String) : WorldStateError :=
  { code :=
      match code with
      | .optionsInvalid | .stateInvalid | .recordInvalid | .vocabularyViolation
      | .payloadMalformed => .invalidArgument
      | .payloadTooLarge => .resourceExhausted
      | .schemaUnsupported => .unsupportedVersion
      | .staleTargetMissing => .invalidState
    domainCode := code.value
    safeMessage := detail }

def require (condition : Bool) (code : WorldStateDomainCode) (detail : String) : WorldResult Unit :=
  if condition then .ok () else .error (makeWorldStateError code detail)

theorem require_ok {condition : Bool} {code : WorldStateDomainCode} {detail : String} :
    require condition code detail = .ok () ↔ condition = true := by
  rw [require]
  split
  · next held => simp [held]
  · next failed => simp [failed]

/-- Times are in nanoseconds but for the staleness bound, which is in milliseconds. -/
structure WorldStateOptions where
  maxEntities : Nat := 128
  maxRecentChanges : Nat := 64
  maxChangeSummaryBytes : Nat := 2048
  staleAfter : Int := 30000

inductive WorldBeliefStatus
  | believed | stale | unknown
  deriving DecidableEq

structure WorldForegroundApp where
  status : WorldBeliefStatus := .unknown
  packageName : Bytes := []
  activityName : Bytes := []
  sensitive : Bool := false
  observedAt : Timestamp := {}

structure WorldPageAssumption where
  status : WorldBeliefStatus := .unknown
  appId : Bytes := []
  stateId : Bytes := []
  confidence : Rat := 0
  recognizedAt : Timestamp := {}

/-- A coordinate. The two zeros of binary64 compare equal and are one value here. -/
structure Coordinate where
  value : Rat
  binary : IsBinary64 value

instance : DecidableEq Coordinate := fun first second =>
  decidable_of_iff (first.value = second.value) (by cases first; cases second; simp)

structure RectF where
  left : Coordinate
  top : Coordinate
  right : Coordinate
  bottom : Coordinate
  deriving DecidableEq

inductive ElementSource
  | uiTree | ocr | detector | fused | unknown
  deriving DecidableEq

def ElementSource.name : ElementSource → Bytes
  | uiTree => ascii "UiTree"
  | ocr => ascii "Ocr"
  | detector => ascii "Detector"
  | fused => ascii "Fused"
  | unknown => ascii "Unknown"

structure CoordinateSpaceId where
  value : Id128
  deriving DecidableEq

structure ElementRef where
  observationId : ObservationId
  environmentEpoch : UInt64 := 0
  source : ElementSource := .uiTree
  stableHint : Bytes := []
  bounds : RectF
  space : CoordinateSpaceId
  evidenceDigest : Sha256Digest
  deriving DecidableEq

structure WorldEntity where
  element : ElementRef
  confidence : Rat := 0
  stale : Bool := false
  lastSeenAt : Timestamp := {}
  sourceEventDigest : Sha256Digest := .zero
  deriving DecidableEq

inductive WorldChangeKind
  | pageAssumed | entityObserved | entityStaled | navigationObserved | toolSettled
  | verificationSettled | conflictMarked | entityEvicted

structure WorldChange where
  kind : WorldChangeKind := .pageAssumed
  summary : Bytes := []
  sourceEventDigest : Sha256Digest := .zero
  changedAt : Timestamp := {}
  changeSequence : Nat := 0

structure WorldState where
  schemaVersion : SchemaVersion := {}
  foregroundApp : WorldForegroundApp := {}
  currentPage : WorldPageAssumption := {}
  entities : List WorldEntity := []
  recentChanges : List WorldChange := []

structure AppContext where
  packageName : Bytes := []
  activityName : Bytes := []
  sensitive : Bool := false

structure WorldObservationInput where
  observationId : ObservationId
  environmentEpoch : UInt64 := 0
  app : AppContext := {}
  elements : List ElementRef := []
  observedAt : Timestamp := {}

structure WorldScreenStateInput where
  appId : Bytes
  stateId : Bytes
  confidence : Rat := 0
  recognizedAt : Timestamp := {}

structure WorldNavigationInput where
  appId : Bytes
  fromState : Bytes
  toState : Bytes
  transitionId : Bytes := []
  success : Bool := false
  confidence : Rat := 0
  observedAt : Timestamp := {}

structure WorldToolSettledInput where
  toolRef : Bytes
  disposition : Bytes
  sourceEventDigest : Sha256Digest := .zero
  settledAt : Timestamp := {}

structure WorldVerificationInput where
  outcome : Bytes
  confidence : Rat := 0
  verifiedAt : Timestamp := {}

structure WorldExpiryInput where
  now : Timestamp := {}

inductive WorldStateInput
  | observation (input : WorldObservationInput)
  | screenState (input : WorldScreenStateInput)
  | navigation (input : WorldNavigationInput)
  | toolSettled (input : WorldToolSettledInput)
  | verification (input : WorldVerificationInput)
  | expiry (input : WorldExpiryInput)

def confidenceInRange (confidence : Rat) : Bool := 0 ≤ confidence && confidence ≤ 1

def WorldStateOptions.validate (options : WorldStateOptions) : WorldResult Unit :=
  require (options.maxEntities ≠ 0 && options.maxRecentChanges ≠ 0 &&
    options.maxChangeSummaryBytes ≠ 0) .optionsInvalid
    "world state option capacities must be positive"

def WorldForegroundApp.validate (app : WorldForegroundApp) : WorldResult Unit :=
  require ((app.status = .unknown) = (app.packageName = [])) .stateInvalid
    "foreground Unknown <=> empty package_name violated"

def WorldPageAssumption.validate (page : WorldPageAssumption) : WorldResult Unit :=
  if page.status = .unknown then
    require (page.appId = [] && page.stateId = [] && page.confidence = 0) .stateInvalid
      "page Unknown requires empty pair and zero confidence"
  else do
    require (page.appId ≠ [] && page.stateId ≠ []) .stateInvalid
      "non-Unknown page requires a non-empty pair"
    require (confidenceInRange page.confidence) .stateInvalid "page confidence outside [0,1]"

def CoordinateSpaceId.isNil (space : CoordinateSpaceId) : Bool := space.value.isNil

def WorldEntity.validate (entity : WorldEntity) : WorldResult Unit := do
  require (!entity.element.observationId.isNil) .stateInvalid
    "entity element observation_id is nil"
  require (!entity.element.space.isNil) .stateInvalid "entity element space is invalid"
  require (confidenceInRange entity.confidence) .stateInvalid "entity confidence outside [0,1]"

/-- The sequence numbers of the ring ascend. -/
def checkSequences : List WorldChange → WorldResult Unit
  | first :: second :: rest => do
      require (first.changeSequence < second.changeSequence) .stateInvalid
        "change_sequence regression"
      checkSequences (second :: rest)
  | _ => .ok ()

def WorldState.validate (state : WorldState) : WorldResult Unit := do
  state.foregroundApp.validate
  state.currentPage.validate
  state.entities.forM WorldEntity.validate
  checkSequences state.recentChanges

def CoordinateSpaceId.toString (space : CoordinateSpaceId) : Bytes := space.value.toString

def boundsToJson (bounds : RectF) : JsonValue :=
  .object
    [(ascii "bottom", .number bounds.bottom.value), (ascii "left", .number bounds.left.value),
      (ascii "right", .number bounds.right.value), (ascii "top", .number bounds.top.value)]

def elementToJson (element : ElementRef) : JsonValue :=
  .object
    [(ascii "bounds", boundsToJson element.bounds),
      (ascii "environment_epoch", .integer (toInt64 element.environmentEpoch.toNat)),
      (ascii "evidence_digest", .string element.evidenceDigest.toString),
      (ascii "observation_id", .string element.observationId.toString),
      (ascii "source", .string element.source.name),
      (ascii "space", .string element.space.toString),
      (ascii "stable_hint", .string element.stableHint)]

def canonicalJsonDigest (document : JsonValue) : Sha256Digest :=
  digestString (canonicalJsonString document)

def WorldObservationInput.digest (input : WorldObservationInput) : Sha256Digest :=
  canonicalJsonDigest (.object
    [(ascii "app", .object
        [(ascii "activity_name", .string input.app.activityName),
          (ascii "package_name", .string input.app.packageName),
          (ascii "sensitive", .boolean input.app.sensitive)]),
      (ascii "elements", .array (input.elements.map elementToJson)),
      (ascii "environment_epoch", .integer (toInt64 input.environmentEpoch.toNat)),
      (ascii "observation_id", .string input.observationId.toString),
      (ascii "observed_at", .integer input.observedAt.wall)])

def WorldScreenStateInput.digest (input : WorldScreenStateInput) : Sha256Digest :=
  canonicalJsonDigest (.object
    [(ascii "app_id", .string input.appId), (ascii "confidence", .number input.confidence),
      (ascii "recognized_at", .integer input.recognizedAt.wall),
      (ascii "state_id", .string input.stateId)])

def WorldNavigationInput.digest (input : WorldNavigationInput) : Sha256Digest :=
  canonicalJsonDigest (.object
    [(ascii "app_id", .string input.appId), (ascii "confidence", .number input.confidence),
      (ascii "from_state", .string input.fromState),
      (ascii "observed_at", .integer input.observedAt.wall),
      (ascii "success", .boolean input.success), (ascii "to_state", .string input.toState),
      (ascii "transition_id", .string input.transitionId)])

def WorldToolSettledInput.digest (input : WorldToolSettledInput) : Sha256Digest :=
  canonicalJsonDigest (.object
    [(ascii "disposition", .string input.disposition),
      (ascii "settled_at", .integer input.settledAt.wall),
      (ascii "source_event_digest", .string input.sourceEventDigest.toString),
      (ascii "tool_ref", .string input.toolRef)])

def WorldVerificationInput.digest (input : WorldVerificationInput) : Sha256Digest :=
  canonicalJsonDigest (.object
    [(ascii "confidence", .number input.confidence), (ascii "outcome", .string input.outcome),
      (ascii "verified_at", .integer input.verifiedAt.wall)])

def WorldExpiryInput.digest (input : WorldExpiryInput) : Sha256Digest :=
  canonicalJsonDigest (.object [(ascii "now", .integer input.now.wall)])

end Mira.World
