import Mira.Checkpoint.VerifiedFact
import Mira.Storage.Artifacts

/-!
The contracts of the long-term memory: kinds and their policies, records, mutations, and
what a valid one is. A time is its count of nanoseconds, and a confidence the rational that its
binary32 denotes.
-/

namespace Mira.Memory
open Mira Bytes Storage
open Mira.Checkpoint (MemoryScope MemoryScopeKind memoryScopeKindName)

inductive MemoryDomainCode
  | invalidRecord | invalidMutation | scopeDenied | versionConflict | schemaUnsupported
  | indexDegraded | erasurePending | storeUnavailable
  deriving DecidableEq

/-- An error of the store itself has no code of the memory domain. -/
structure MemoryError where
  error : Error
  domainCode : Option MemoryDomainCode
  deriving DecidableEq

abbrev MemoryResult (α : Type) := Except MemoryError α

def memoryErrorCode : MemoryDomainCode → ErrorCode
  | .invalidRecord | .invalidMutation | .schemaUnsupported => .invalidArgument
  | .scopeDenied => .permissionDenied
  | .versionConflict | .erasurePending => .invalidState
  | .indexDegraded => .internal
  | .storeUnavailable => .unavailable

def isRetryable (code : MemoryDomainCode) : Bool :=
  code = .indexDegraded || code = .erasurePending || code = .storeUnavailable

def memoryError (code : MemoryDomainCode) (message : String) : MemoryError :=
  { error :=
      { code := memoryErrorCode code
        domain := "mira.memory"
        retryable := isRetryable code
        safeMessage := message }
    domainCode := some code }

def memoryStoreError (code : ErrorCode) (message : String) : MemoryError :=
  { error := { code := code, domain := "mira.state_store.memory", safeMessage := message }
    domainCode := none }

/-- A check of the contracts. -/
def denyIf (wrong : Prop) [Decidable wrong] (code : MemoryDomainCode) (message : String) :
    MemoryResult Unit :=
  if wrong then .error (memoryError code message) else .ok ()

structure MemoryId where
  value : Id128
  deriving DecidableEq

structure MutationId where
  value : Id128
  deriving DecidableEq

inductive MemoryKind
  | preference | environmentFact | applicationFact | episode | procedure | recoveryLesson
  | skillHint
  deriving DecidableEq

inductive MemoryVerification
  | unverified | observed | verified | humanConfirmed
  deriving DecidableEq

def memoryVerificationRank : MemoryVerification → Nat
  | .unverified => 0
  | .observed => 1
  | .verified => 2
  | .humanConfirmed => 3

inductive MemoryStatus
  | active | superseded | tombstoned
  deriving DecidableEq

structure ValidityInterval where
  validFrom : Int := 0
  validUntil : Option Int := none
  deriving DecidableEq

def memorySchemaCurrent : SchemaVersion := { major := 1, minor := 0 }

structure MemoryRecord where
  id : MemoryId
  scope : MemoryScope := {}
  kind : MemoryKind := .environmentFact
  statement : Bytes
  evidence : Option ArtifactRef := none
  validity : ValidityInterval := {}
  recordedAt : Int := 0
  provenance : List EventId := []
  verification : MemoryVerification := .unverified
  confidence : Rat := 0
  sensitivity : Sensitivity := .internal
  status : MemoryStatus := .active
  supersedes : Option MemoryId := none
  expiresAt : Option Int := none
  sourceNamespace : Option Bytes := none
  schemaVersion : SchemaVersion := memorySchemaCurrent
  version : Nat := 1
  deriving DecidableEq

/-- The binary32 that is nearest to three tenths. -/
def untraceableConfidence : Rat := 5033165 / 16777216

def MemoryRecord.validate (record : MemoryRecord) : MemoryResult Unit := do
  match validateSchemaVersion record.schemaVersion memorySchemaCurrent with
  | .error error => .error { error := error, domainCode := none }
  | .ok () => pure ()
  denyIf (record.id.value.isNil = true) .invalidRecord "memory record id must be non-nil"
  denyIf (record.statement = []) .invalidRecord "memory record requires a statement"
  denyIf (¬(0 ≤ record.confidence ∧ record.confidence ≤ 1)) .invalidRecord
    "confidence must be within [0,1]"
  denyIf (record.sensitivity = .secret) .invalidRecord "secret content must not enter memory"
  denyIf (record.sourceNamespace.isSome = true ∧ record.verification = .humanConfirmed)
    .invalidRecord "imported memory cannot claim human confirmation"
  denyIf (record.sourceNamespace.isSome = false ∧ record.verification = .humanConfirmed ∧
      record.provenance = []) .invalidRecord "human-confirmed memory requires event provenance"
  denyIf (record.provenance = [] ∧ record.confidence > untraceableConfidence) .invalidRecord
    "untraceable memory must keep low confidence"
  denyIf (record.validity.validUntil.any (· < record.validity.validFrom) = true) .invalidRecord
    "validity interval is inverted"
  denyIf (record.expiresAt.any (· < record.recordedAt) = true) .invalidRecord
    "expiry precedes recording time"
  denyIf (record.status = .superseded ∧ record.supersedes = none) .invalidRecord
    "superseded records must reference their replacement"
  denyIf (record.version = 0) .invalidRecord "record version starts at one"

structure MemoryKindPolicy where
  /-- In seconds. -/
  defaultTtl : Int
  minVerification : MemoryVerification
  allowedScopeKinds : List MemoryScopeKind

def secondsPerDay : Int := 86400

def memoryKindPolicy : MemoryKind → MemoryKindPolicy
  | .preference =>
    { defaultTtl := 180 * secondsPerDay
      minVerification := .unverified
      allowedScopeKinds := [.user, .session, .environment, .application] }
  | .environmentFact =>
    { defaultTtl := 7 * secondsPerDay
      minVerification := .observed
      allowedScopeKinds := [.environment, .task, .session, .agent, .taskSkill] }
  | .applicationFact =>
    { defaultTtl := 30 * secondsPerDay
      minVerification := .observed
      allowedScopeKinds := [.application, .task, .session, .agent] }
  | .episode =>
    { defaultTtl := 30 * secondsPerDay
      minVerification := .observed
      allowedScopeKinds := [.task, .session, .environment, .agent] }
  | .procedure =>
    { defaultTtl := 180 * secondsPerDay
      minVerification := .unverified
      allowedScopeKinds := [.agent, .taskSkill, .application] }
  | .recoveryLesson =>
    { defaultTtl := 90 * secondsPerDay
      minVerification := .verified
      allowedScopeKinds := [.agent, .task, .session] }
  | .skillHint =>
    { defaultTtl := 30 * secondsPerDay
      minVerification := .observed
      allowedScopeKinds := [.taskSkill, .task, .session] }

def checkMemoryKindPolicy (record : MemoryRecord) : MemoryResult Unit :=
  if record.sourceNamespace.isSome then .ok ()
  else do
    denyIf (memoryVerificationRank record.verification <
        memoryVerificationRank (memoryKindPolicy record.kind).minVerification) .invalidRecord
      "memory kind requires a higher verification level"
    denyIf (record.scope.kind ∉ (memoryKindPolicy record.kind).allowedScopeKinds) .scopeDenied
      "memory kind is not allowed in this scope"

def nanosPerSecond : Int := 1000000000

def memoryDefaultExpiry (kind : MemoryKind) (recordedAt : Int) : Option Int :=
  if (memoryKindPolicy kind).defaultTtl ≤ 0 then none
  else some (recordedAt + (memoryKindPolicy kind).defaultTtl * nanosPerSecond)

inductive MemoryMutationType
  | add | update | supersede | tombstone | noop
  deriving DecidableEq

inductive MutationReasonCode
  | verifiedEvent | humanCorrection | consolidation | retentionExpiry
  deriving DecidableEq

structure MemoryMutation where
  id : MutationId
  type : MemoryMutationType := .add
  scope : MemoryScope := {}
  target : Option MemoryId := none
  expectedVersion : Option Nat := none
  proposed : MemoryRecord
  evidence : List EventId := []
  reason : MutationReasonCode := .verifiedEvent

def MemoryMutation.validateType (mutation : MemoryMutation) : MemoryResult Unit :=
  match mutation.type with
  | .add =>
    denyIf (mutation.target.isSome = true) .invalidMutation "add must not target a record"
  | .update | .supersede | .tombstone => do
    denyIf (mutation.target.all (fun target => target.value.isNil) = true) .invalidMutation
      "mutation type requires a target record"
    denyIf (mutation.expectedVersion = none) .invalidMutation
      "mutation type requires an expected version"
  | .noop => .ok ()

def MemoryMutation.validateChange (mutation : MemoryMutation) : MemoryResult Unit := do
  denyIf (mutation.type = .supersede ∧ mutation.proposed.supersedes = none) .invalidMutation
    "supersede proposals must name the replaced record"
  if mutation.type ≠ .tombstone then checkMemoryKindPolicy mutation.proposed
  denyIf (mutation.evidence = [] ∧ mutation.reason ≠ .retentionExpiry) .invalidMutation
    "mutations require event evidence"

def MemoryMutation.validate (mutation : MemoryMutation) : MemoryResult Unit := do
  mutation.proposed.validate
  denyIf (mutation.id.value.isNil = true) .invalidMutation "mutation id must be non-nil"
  denyIf (mutation.proposed.scope ≠ mutation.scope) .invalidMutation
    "mutation scope must match the proposed record scope"
  mutation.validateType
  if mutation.type ≠ .noop then mutation.validateChange

structure MemoryMutationResult where
  applied : MemoryMutationType := .noop
  record : MemoryId
  newVersion : Nat := 1
  idempotentReplay : Bool := false
  deriving DecidableEq

/-!
The tables of the memory store and how a mutation changes them. SQLite is a set of keyed tables
whose transactions are atomic and whose steps succeed; a text is bound up to its first zero byte.
The document of a row is the record that was written into it.
-/

def boundText (text : Bytes) : Bytes := text.takeWhile (· ≠ 0)

def scopeKeyOf (scope : MemoryScope) : Bytes :=
  ascii (memoryScopeKindName scope.kind) ++ ascii "|" ++ scope.subjectId ++ ascii "|" ++
    scope.tenantId.getD []

/-- What reading a document gives: an error, or a record under the identifier of the one that was
written. Of its other parts the codec may leave out what it does not read back. -/
structure DocumentReader where
  read : MemoryRecord → MemoryResult MemoryRecord
  own : ∀ {written record}, read written = .ok record → record.id = written.id

def DocumentReader.plain : DocumentReader where
  read written := .ok { written with schemaVersion := memorySchemaCurrent }
  own := by
    intro written record read
    cases read
    rfl

/-- A row of the records. Its scope key and its kind stay as they were first written. -/
structure RecordRow where
  scopeKey : Bytes
  kind : MemoryKind
  evidence : Option ArtifactId
  recordedAt : Int
  status : MemoryStatus
  expiresAt : Option Int
  version : Nat
  updatedAt : Int
  document : MemoryRecord
  deriving DecidableEq

structure VersionRow where
  recordedAt : Int
  document : MemoryRecord

structure LedgerRow where
  scopeKey : Bytes
  appliedType : MemoryMutationType
  record : MemoryId
  resultVersion : Nat

structure EmbeddingRow where
  vector : List Rat
  embeddedAt : Int

structure Tables where
  records : KeyedTable MemoryId RecordRow := .empty
  versions : KeyedTable (MemoryId × Nat) VersionRow := .empty
  provenance : List (MemoryId × EventId) := []
  mutations : KeyedTable MutationId LedgerRow := .empty
  embeddings : KeyedTable MemoryId EmbeddingRow := .empty
  fts : List (MemoryId × Bytes) := []
  holds : KeyedTable Bytes Bytes := .empty

structure MemoryStoreOptions where
  readOnly : Bool := false

structure MemoryStore where
  reader : DocumentReader
  options : MemoryStoreOptions := {}

def MemoryStore.checkWritable (store : MemoryStore) : MemoryResult Unit :=
  if store.options.readOnly then
    .error (memoryStoreError .invalidState "memory store is open in read-only diagnostic mode")
  else .ok ()

namespace Tables

def checkNoHold (tables : Tables) (scopeKey : Bytes) : MemoryResult Unit :=
  if tables.holds.contains (boundText scopeKey) then
    .error (memoryError .erasurePending
      "scope is held out of context by a pending erasure; retry the erasure")
  else .ok ()

/-- The provenance and the text of a record are replaced, and so is a row of its version. -/
def syncDerivedRows (tables : Tables) (record : MemoryRecord) (version : Nat) : Tables :=
  { tables with
    provenance := tables.provenance.filter (·.1 ≠ record.id) ++
      record.provenance.dedup.map fun event => (record.id, event)
    fts := tables.fts.filter (·.1 ≠ record.id) ++
      if record.status = .active then [(record.id, boundText record.statement)] else []
    versions := tables.versions.assign (record.id, version)
      { recordedAt := record.recordedAt, document := record } }

def upsertRecord (tables : Tables) (record : MemoryRecord) (scopeKey : Bytes) (version : Nat)
    (now : Int) : Tables :=
  { tables with
    records := tables.records.assign record.id
      { scopeKey :=
          ((tables.records.find? record.id).map RecordRow.scopeKey).getD (boundText scopeKey)
        kind := ((tables.records.find? record.id).map RecordRow.kind).getD record.kind
        evidence := record.evidence.map ArtifactRef.id
        recordedAt := record.recordedAt
        status := record.status
        expiresAt := record.expiresAt
        version := version
        updatedAt := now
        document := record } }

/-- The document carries the version of the store. -/
def writeRecord (tables : Tables) (record : MemoryRecord) (scopeKey : Bytes) (version : Nat)
    (now : Int) : Tables :=
  (tables.upsertRecord { record with version := version } scopeKey version now).syncDerivedRows
    { record with version := version } version

def dropEmbedding (tables : Tables) (id : MemoryId) : Tables :=
  { tables with embeddings := tables.embeddings.erase id }

end Tables

/-- The proposal in its scope, with the expiry of its kind where it states none. -/
def proposalOf (mutation : MemoryMutation) (now : Int) : MemoryRecord :=
  let proposed := { mutation.proposed with scope := mutation.scope }
  let base := if proposed.recordedAt ≤ 0 then now else proposed.recordedAt
  if proposed.expiresAt = none ∧ mutation.type ≠ .tombstone then
    { proposed with expiresAt := memoryDefaultExpiry proposed.kind base }
  else proposed

/-- What is written last: the record and its version, over the tables of the writes before it. -/
structure Planned where
  tables : Tables
  proposed : MemoryRecord
  newVersion : Nat

def planAdd (tables : Tables) (proposed : MemoryRecord) : MemoryResult Planned := do
  denyIf (tables.records.contains proposed.id = true) .versionConflict "add target already exists"
  return { tables := tables, proposed := { proposed with status := .active }, newVersion := 1 }

/-- The target of a change, read in the scope of the mutation at the version it expects. -/
def readTarget (store : MemoryStore) (tables : Tables) (scopeKey : Bytes) (target : MemoryId)
    (expected : Option Nat) : MemoryResult (RecordRow × MemoryRecord) :=
  match tables.records.find? target with
  | none => .error (memoryError .versionConflict "mutation target does not exist")
  | some row => do
    let existing ← store.reader.read row.document
    denyIf (scopeKeyOf existing.scope ≠ scopeKey) .scopeDenied
      "mutations cannot move a record across scopes"
    denyIf (some row.version ≠ expected) .versionConflict
      "memory version moved on; re-read and re-plan"
    return (row, existing)

def planTombstone (tables : Tables) (target : MemoryId) (row : RecordRow)
    (existing : MemoryRecord) : Planned :=
  { tables := tables.dropEmbedding target
    proposed := { existing with status := .tombstoned, expiresAt := none }
    newVersion := row.version + 1 }

/-- A predecessor as it is closed: its validity ends where its successor begins. -/
def closedBy (existing proposed : MemoryRecord) : MemoryRecord :=
  { existing with
    status := .superseded
    validity := { existing.validity with validUntil := some proposed.validity.validFrom }
    expiresAt := none }

def planSupersede (tables : Tables) (scopeKey : Bytes) (target : MemoryId) (row : RecordRow)
    (existing proposed : MemoryRecord) (now : Int) : Planned :=
  { tables :=
      (tables.dropEmbedding target).writeRecord (closedBy existing proposed) scopeKey
        (row.version + 1) now
    proposed := { proposed with status := .active, supersedes := some target }
    newVersion := 1 }

def planUpdate (tables : Tables) (target : MemoryId) (row : RecordRow)
    (existing proposed : MemoryRecord) : Planned :=
  { tables :=
      if proposed.statement ≠ existing.statement then tables.dropEmbedding target else tables
    proposed :=
      { proposed with
        status := if proposed.status = .superseded then .active else proposed.status
        id := target }
    newVersion := row.version + 1 }

def plan (store : MemoryStore) (tables : Tables) (mutation : MemoryMutation) (now : Int) :
    MemoryResult Planned :=
  let proposed := proposalOf mutation now
  let scopeKey := scopeKeyOf mutation.scope
  match mutation.type, mutation.target with
  | .add, _ => planAdd tables proposed
  | .tombstone, some target => do
    let found ← readTarget store tables scopeKey target mutation.expectedVersion
    return planTombstone tables target found.1 found.2
  | .supersede, some target => do
    let found ← readTarget store tables scopeKey target mutation.expectedVersion
    denyIf (proposed.id = target) .invalidMutation "supersede must introduce a fresh record id"
    return planSupersede tables scopeKey target found.1 found.2 proposed now
  | .update, some target => do
    let found ← readTarget store tables scopeKey target mutation.expectedVersion
    return planUpdate tables target found.1 found.2 proposed
  -- A valid change names its target, and a mutation without effect comes no further.
  | _, _ => return { tables := tables, proposed := proposed, newVersion := 1 }

def replay (row : LedgerRow) (scopeKey : Bytes) : MemoryResult MemoryMutationResult :=
  if row.scopeKey ≠ scopeKey then
    .error (memoryError .scopeDenied "mutation id belongs to another scope")
  else
    .ok { applied := row.appliedType
          record := row.record
          newVersion := row.resultVersion
          idempotentReplay := true }

/-- The record of a plan is written and noted in the ledger. -/
def Planned.commit (planned : Planned) (mutation : MemoryMutation) (now : Int) :
    Tables × MemoryMutationResult :=
  let scopeKey := scopeKeyOf mutation.scope
  let written := planned.tables.writeRecord planned.proposed scopeKey planned.newVersion now
  ({ written with
      mutations := written.mutations.assign mutation.id
        { scopeKey := boundText scopeKey
          appliedType := mutation.type
          record := planned.proposed.id
          resultVersion := planned.newVersion } },
    { applied := mutation.type
      record := planned.proposed.id
      newVersion := planned.newVersion })

def change (store : MemoryStore) (tables : Tables) (mutation : MemoryMutation) (now : Int) :
    MemoryResult (Tables × MemoryMutationResult) := do
  tables.checkNoHold (scopeKeyOf mutation.scope)
  match tables.mutations.find? mutation.id with
  | some row =>
    let result ← replay row (scopeKeyOf mutation.scope)
    return (tables, result)
  | none =>
    let planned ← plan store tables mutation now
    return planned.commit mutation now

/-- A mutation that fails rolls its transaction back. -/
def apply (store : MemoryStore) (tables : Tables) (mutation : MemoryMutation) (now : Int) :
    MemoryResult (Tables × MemoryMutationResult) := do
  store.checkWritable
  mutation.validate
  if mutation.type = .noop then
    return (tables, { applied := .noop, record := mutation.proposed.id })
  else change store tables mutation now

/-- A call of `apply` with the time it is made at. -/
structure Call where
  mutation : MemoryMutation
  now : Int

def step (store : MemoryStore) (tables : Tables) (call : Call) :
    Tables × MemoryResult MemoryMutationResult :=
  match apply store tables call.mutation call.now with
  | .ok done => (done.1, .ok done.2)
  | .error error => (tables, .error error)

end Mira.Memory
