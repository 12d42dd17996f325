import Mira.Model.Contracts
import Mira.Workflow.Contracts

/-!
Working context snapshots: the eight sections of items, what a valid snapshot is, and the digest
of its state. The confidence of an item is the rational that its binary64 denotes.
-/

namespace Mira.Context
open Mira Bytes Workflow

def workingContextError (code : ErrorCode) (message : String) : Error :=
  { code := code, domain := "mira.context.working_context", safeMessage := message }

/-- A check of a validation. -/
def rejectIf (wrong : Prop) [Decidable wrong] (message : String) : Result Unit :=
  if wrong then .error (workingContextError .invalidArgument message) else .ok ()

structure WorkingContextItem where
  content : Bytes
  sourceEvents : List EventId
  sourceSequence : Nat := 0
  confidence : Rat := 0
  deriving DecidableEq

structure WorkingContextSnapshotId where
  value : Id128
  deriving DecidableEq

structure ConversationCheckpointId where
  value : Id128

/-- The sections in the order of their declaration. -/
inductive WorkingSection
  | constraints | decisions | openIssues | activeTasks | verifiedFacts | failedAttempts
  | importantRefs | nextActions
  deriving DecidableEq

def workingSections : List WorkingSection :=
  [.constraints, .decisions, .openIssues, .activeTasks, .verifiedFacts, .failedAttempts,
    .importantRefs, .nextActions]

def WorkingSection.name : WorkingSection → Bytes
  | .constraints => ascii "constraints"
  | .decisions => ascii "decisions"
  | .openIssues => ascii "open_issues"
  | .activeTasks => ascii "active_tasks"
  | .verifiedFacts => ascii "verified_facts"
  | .failedAttempts => ascii "failed_attempts"
  | .importantRefs => ascii "important_refs"
  | .nextActions => ascii "next_actions"

def sectionByName (name : Bytes) : Option WorkingSection :=
  workingSections.find? fun own => own.name = name

theorem mem_workingSections (own : WorkingSection) : own ∈ workingSections := by
  cases own <;> decide

def workingContextSchemaCurrent : SchemaVersion := ⟨1, 2⟩

structure WorkingContextMergeOptions where
  maxItemsPerSection : Nat := 64
  maxItemChars : Nat := 512
  maxSourceEvents : Nat := 256

def WorkingContextMergeOptions.validate (options : WorkingContextMergeOptions) : Result Unit :=
  if options.maxItemsPerSection = 0 ∨ 1024 < options.maxItemsPerSection then
    .error (workingContextError .invalidArgument "item bound per section is out of range")
  else if options.maxItemChars < 16 ∨ 8 * 1024 < options.maxItemChars then
    .error (workingContextError .invalidArgument "item byte bound is out of range")
  else if options.maxSourceEvents = 0 ∨ 4096 < options.maxSourceEvents then
    .error (workingContextError .invalidArgument "source event bound is out of range")
  else .ok ()

structure WorkingContextIdentity where
  task : TaskId
  taskEpoch : Nat := 0
  environmentEpoch : Nat := 0

structure WorkingContextForkProvenance where
  baseSnapshotId : WorkingContextSnapshotId
  parentSessionId : SessionId
  parentThroughEventSequence : Nat := 0

structure WorkingContextSnapshot where
  schemaVersion : SchemaVersion := workingContextSchemaCurrent
  id : WorkingContextSnapshotId
  sessionId : SessionId
  taskId : TaskId
  taskEpoch : Nat := 0
  environmentEpoch : Nat := 0
  throughEventSequence : Nat := 0
  sourceCheckpoints : List ConversationCheckpointId := []
  createdAt : Timestamp := {}
  generatedBy : Model.ModelProfileId := ⟨Id128.nil⟩
  constraints : List WorkingContextItem := []
  decisions : List WorkingContextItem := []
  openIssues : List WorkingContextItem := []
  activeTasks : List WorkingContextItem := []
  verifiedFacts : List WorkingContextItem := []
  failedAttempts : List WorkingContextItem := []
  importantRefs : List WorkingContextItem := []
  nextActions : List WorkingContextItem := []
  fork : Option WorkingContextForkProvenance := none

namespace WorkingContextSnapshot

def items (snapshot : WorkingContextSnapshot) : WorkingSection → List WorkingContextItem
  | .constraints => snapshot.constraints
  | .decisions => snapshot.decisions
  | .openIssues => snapshot.openIssues
  | .activeTasks => snapshot.activeTasks
  | .verifiedFacts => snapshot.verifiedFacts
  | .failedAttempts => snapshot.failedAttempts
  | .importantRefs => snapshot.importantRefs
  | .nextActions => snapshot.nextActions

def withItems (snapshot : WorkingContextSnapshot)
    (items : WorkingSection → List WorkingContextItem) : WorkingContextSnapshot :=
  { snapshot with
    constraints := items .constraints
    decisions := items .decisions
    openIssues := items .openIssues
    activeTasks := items .activeTasks
    verifiedFacts := items .verifiedFacts
    failedAttempts := items .failedAttempts
    importantRefs := items .importantRefs
    nextActions := items .nextActions }

end WorkingContextSnapshot

theorem not_of_rejectIf {wrong : Prop} [Decidable wrong] {message : String}
    (passed : rejectIf wrong message = .ok ()) : ¬wrong := by
  intro held
  rw [rejectIf, if_pos held] at passed
  cases passed

def validateItem (item : WorkingContextItem) : Result Unit :=
  if item.content = [] ∨ 8 * 1024 < item.content.length then
    .error (workingContextError .invalidArgument
      "working context item content is empty or beyond the absolute byte bound")
  else if item.sourceEvents = [] then
    .error (workingContextError .invalidArgument "working context items require provenance")
  else if ¬(0 ≤ item.confidence ∧ item.confidence ≤ 1) then
    .error (workingContextError .invalidArgument
      "working context item confidence must be within [0,1]")
  else .ok ()

/-- The name of a section, as a message shows it. -/
def WorkingSection.text : WorkingSection → String
  | .constraints => "constraints"
  | .decisions => "decisions"
  | .openIssues => "open_issues"
  | .activeTasks => "active_tasks"
  | .verifiedFacts => "verified_facts"
  | .failedAttempts => "failed_attempts"
  | .importantRefs => "important_refs"
  | .nextActions => "next_actions"

def validateItems (items : List WorkingContextItem) (own : WorkingSection) : Result Unit :=
  if 1024 < items.length then
    .error (workingContextError .invalidArgument
      ("working context section " ++ own.text ++ " exceeds the absolute item bound"))
  else items.forM validateItem

def WorkingContextForkProvenance.validate (fork : WorkingContextForkProvenance) : Result Unit :=
  if fork.baseSnapshotId.value.isNil ∨ fork.parentSessionId.isNil then
    .error (workingContextError .invalidArgument
      "working context fork provenance requires the base snapshot and parent session")
  else if fork.parentThroughEventSequence = 0 then
    .error (workingContextError .invalidArgument
      "working context fork provenance requires a positive parent watermark")
  else .ok ()

namespace WorkingContextSnapshot

def validate (snapshot : WorkingContextSnapshot) : Result Unit := do
  validateSchemaVersion snapshot.schemaVersion workingContextSchemaCurrent
  rejectIf snapshot.id.value.isNil
    "working context snapshot requires an id"
  rejectIf snapshot.sessionId.isNil
    "working context snapshot requires a session"
  rejectIf snapshot.taskId.isNil
    "working context snapshot requires a task"
  rejectIf (snapshot.throughEventSequence = 0)
    "working context snapshot requires a positive watermark"
  rejectIf (snapshot.sourceCheckpoints = [] ∨ 64 < snapshot.sourceCheckpoints.length)
    "working context snapshot requires 1..64 source checkpoints"
  rejectIf (snapshot.sourceCheckpoints.any (·.value.isNil))
    "working context snapshot source checkpoint is nil"
  workingSections.forM fun own => validateItems (snapshot.items own) own
  match snapshot.fork with
  | none => pure ()
  | some fork => fork.validate

def itemDocument (item : WorkingContextItem) : JsonValue :=
  .object
    [(ascii "content", .string item.content),
      (ascii "source_events", .array (item.sourceEvents.map fun event => .string event.toString)),
      (ascii "source_sequence", .integer (toInt64 item.sourceSequence)),
      (ascii "confidence", .number item.confidence)]

def schemaDocument (version : SchemaVersion) : JsonValue :=
  .object [(ascii "major", .integer version.major), (ascii "minor", .integer version.minor)]

def forkMember (fork : Option WorkingContextForkProvenance) : List (Bytes × JsonValue) :=
  match fork with
  | none => []
  | some fork =>
      [(ascii "fork", .object
        [(ascii "base_snapshot_id", .string fork.baseSnapshotId.value.toString),
          (ascii "parent_session_id", .string fork.parentSessionId.toString),
          (ascii "parent_through_event_sequence",
            .integer (toInt64 fork.parentThroughEventSequence))])]

/-- The identity of a snapshot, but not its id. -/
def headMembers (snapshot : WorkingContextSnapshot) : List (Bytes × JsonValue) :=
  [(ascii "schema_version", schemaDocument snapshot.schemaVersion),
    (ascii "session_id", .string snapshot.sessionId.toString),
    (ascii "task_id", .string snapshot.taskId.toString),
    (ascii "task_epoch", .integer (toInt64 snapshot.taskEpoch)),
    (ascii "environment_epoch", .integer (toInt64 snapshot.environmentEpoch)),
    (ascii "through_event_sequence", .integer (toInt64 snapshot.throughEventSequence)),
    (ascii "source_checkpoints",
      .array (snapshot.sourceCheckpoints.map fun checkpoint => .string checkpoint.value.toString)),
    (ascii "generated_by", .string snapshot.generatedBy.value.toString)]

def stateDigest (snapshot : WorkingContextSnapshot) : Sha256Digest :=
  canonicalJsonDigest (.object (snapshot.headMembers ++
    workingSections.map (fun own => (own.name, .array ((snapshot.items own).map itemDocument))) ++
    forkMember snapshot.fork))

end WorkingContextSnapshot

def contextAssetIdFromSeed (seed : Bytes) : Id128 :=
  let digest := digestString seed
  ⟨digest.bytes.take 16, by rw [List.length_take, digest.size]; rfl⟩

def workingContextSnapshotIdFromSeed (seed : Bytes) : WorkingContextSnapshotId :=
  ⟨contextAssetIdFromSeed (ascii "mira.working_context.snapshot|" ++ seed)⟩

/-!
Forked working contexts: the delta of a child against the base it was forked from, and its merge
into the parent. The slots at which supersedes were resolved are kept as history; nothing reads
them.
-/

inductive WorkingContextDeltaEntryKind
  | supersede | addition
  deriving DecidableEq

structure WorkingContextDeltaEntry where
  kind : WorkingContextDeltaEntryKind := .addition
  supersededBaseIndex : Nat := 0
  sectionName : Bytes
  content : Bytes
  sourceEvents : List EventId
  sourceSequence : Nat := 0
  confidence : Rat := 0

structure WorkingContextDelta where
  schemaVersion : SchemaVersion := ⟨1, 0⟩
  forkBaseSnapshotId : WorkingContextSnapshotId
  childSessionId : SessionId
  entries : List WorkingContextDeltaEntry := []
  inheritedSkipped : Nat := 0
  generatedBy : Model.ModelProfileId := ⟨Id128.nil⟩

def deltaItem (entry : WorkingContextDeltaEntry) : WorkingContextItem :=
  ⟨entry.content, entry.sourceEvents, entry.sourceSequence, entry.confidence⟩

def validateDeltaEntry (before : List Bytes) (entry : WorkingContextDeltaEntry) :
    Result (List Bytes) :=
  let bounds : WorkingContextMergeOptions := {}
  match sectionByName entry.sectionName with
  | none =>
      .error (workingContextError .invalidArgument
        "working context delta section is outside the frozen vocabulary")
  | some own =>
      if bounds.maxItemsPerSection < before.count entry.sectionName + 1 then
        .error (workingContextError .invalidArgument
          ("working context delta exceeds the per-section entry bound in " ++ own.text))
      else if entry.content = [] ∨ bounds.maxItemChars < entry.content.length then
        .error (workingContextError .invalidArgument
          "working context delta entry content is empty or beyond the byte bound")
      else if entry.sourceEvents = [] ∨ bounds.maxSourceEvents < entry.sourceEvents.length then
        .error (workingContextError .invalidArgument
          "working context delta entry requires 1..N source events")
      else if ¬(0 ≤ entry.confidence ∧ entry.confidence ≤ 1) then
        .error (workingContextError .invalidArgument
          "working context delta entry confidence must be within [0,1]")
      else .ok (entry.sectionName :: before)

def WorkingContextDelta.validate (delta : WorkingContextDelta) : Result Unit := do
  let bounds : WorkingContextMergeOptions := {}
  validateSchemaVersion delta.schemaVersion ⟨1, 0⟩
  rejectIf delta.forkBaseSnapshotId.value.isNil
    "working context delta requires the fork base snapshot id"
  rejectIf delta.childSessionId.isNil
    "working context delta requires the child session"
  rejectIf (bounds.maxItemsPerSection * workingSections.length < delta.entries.length)
    "working context delta exceeds the total entry bound"
  let _ ← delta.entries.foldlM validateDeltaEntry []
  return ()

def checkItemBounds (item : WorkingContextItem) (options : WorkingContextMergeOptions)
    (own : WorkingSection) : Result Unit :=
  if item.content = [] ∨ options.maxItemChars < item.content.length then
    .error (workingContextError .invalidArgument
      ("working context fork item content is empty or beyond the byte bound in " ++ own.text))
  else if item.sourceEvents = [] ∨ options.maxSourceEvents < item.sourceEvents.length then
    .error (workingContextError .invalidArgument
      ("working context fork item provenance is empty or beyond the event bound in " ++ own.text))
  else .ok ()

def sharesAnyEvent (left right : List EventId) : Bool :=
  left.any fun event => right.contains event

/-- Where the entries of a section of the base start in its numbering. -/
def baseOffset (forkBase : WorkingContextSnapshot) (own : WorkingSection) : Nat :=
  ((workingSections.takeWhile (· ≠ own)).map fun before => (forkBase.items before).length).sum

/-- What the projection has gathered: the entries, those of the section at hand, and the copies
that were skipped. -/
structure Projection where
  entries : List WorkingContextDeltaEntry := []
  emitted : Nat := 0
  inheritedSkipped : Nat := 0

/-- The entry for an item that is not in the base: it supersedes the first item of the base that
it shares an event with. -/
def projectEntry (forkBase : WorkingContextSnapshot) (own : WorkingSection)
    (item : WorkingContextItem) : WorkingContextDeltaEntry :=
  let entry : WorkingContextDeltaEntry :=
    { sectionName := own.name
      content := item.content
      sourceEvents := item.sourceEvents
      sourceSequence := item.sourceSequence
      confidence := item.confidence }
  match (forkBase.items own).findIdx? fun base =>
      sharesAnyEvent item.sourceEvents base.sourceEvents with
  | some index =>
      { entry with
        kind := .supersede
        supersededBaseIndex := baseOffset forkBase own + index }
  | none => entry

def projectItem (forkBase : WorkingContextSnapshot) (options : WorkingContextMergeOptions)
    (own : WorkingSection) (projection : Projection) (item : WorkingContextItem) :
    Result Projection := do
  checkItemBounds item options own
  if (forkBase.items own).any fun candidate => candidate.content = item.content then
    return { projection with inheritedSkipped := projection.inheritedSkipped + 1 }
  else
    rejectIf (options.maxItemsPerSection < projection.emitted + 1)
      ("working context delta projection exceeds the per-section entry bound in " ++ own.text)
    return { projection with
      entries := projection.entries ++ [projectEntry forkBase own item]
      emitted := projection.emitted + 1 }

def projectSection (forkBase child : WorkingContextSnapshot)
    (options : WorkingContextMergeOptions) (projection : Projection) (own : WorkingSection) :
    Result Projection :=
  (child.items own).foldlM (projectItem forkBase options own) { projection with emitted := 0 }

def workingContextDeltaFromFork (forkBase child : WorkingContextSnapshot)
    (options : WorkingContextMergeOptions) : Result WorkingContextDelta := do
  options.validate
  forkBase.validate
  child.validate
  let projection ← workingSections.foldlM (projectSection forkBase child options) {}
  rejectIf (options.maxItemsPerSection * workingSections.length < projection.entries.length)
    "working context delta projection exceeds the total entry bound"
  let delta : WorkingContextDelta :=
    { forkBaseSnapshotId := forkBase.id
      childSessionId := child.sessionId
      entries := projection.entries
      inheritedSkipped := projection.inheritedSkipped
      generatedBy := child.generatedBy }
  delta.validate
  return delta

def canonicalBaseEntries (forkBase : WorkingContextSnapshot) : List Bytes :=
  workingSections.flatMap fun own => (forkBase.items own).map WorkingContextItem.content

/-- A supersede that was resolved, and the content it was resolved through. -/
structure Replacement where
  own : WorkingSection
  index : Nat
  content : Bytes

structure MergeScan where
  working : WorkingSection → List WorkingContextItem
  additions : List (WorkingSection × WorkingContextItem) := []
  supersedesResolved : Nat := 0
  supersedesDroppedStale : Nat := 0
  replacements : List Replacement := []

namespace MergeScan

def slotOf (scan : MergeScan) (own : WorkingSection) (content : Bytes) : Option Nat :=
  (scan.working own).findIdx? fun item => item.content = content

def append (scan : MergeScan) (own : WorkingSection) (item : WorkingContextItem) : MergeScan :=
  { scan with additions := scan.additions ++ [(own, item)] }

def replace (scan : MergeScan) (own : WorkingSection) (index : Nat) (content : Bytes)
    (item : WorkingContextItem) : MergeScan :=
  { scan with
    working := Function.update scan.working own ((scan.working own).set index item)
    supersedesResolved := scan.supersedesResolved + 1
    replacements := ⟨own, index, content⟩ :: scan.replacements }

def dropStale (scan : MergeScan) (own : WorkingSection) (item : WorkingContextItem) : MergeScan :=
  { scan.append own item with supersedesDroppedStale := scan.supersedesDroppedStale + 1 }

def appended (scan : MergeScan) (own : WorkingSection) : List WorkingContextItem :=
  (scan.additions.filter fun addition => addition.1 = own).map Prod.snd

end MergeScan

def sectionOf (entry : WorkingContextDeltaEntry) : Result WorkingSection :=
  match sectionByName entry.sectionName with
  | some own => .ok own
  | none =>
      .error (workingContextError .invalidArgument
        "working context merge supersede section is outside the frozen vocabulary")

def baseContent (canonical : List Bytes) (entry : WorkingContextDeltaEntry) : Result Bytes :=
  match canonical[entry.supersededBaseIndex]? with
  | some content => .ok content
  | none =>
      .error (workingContextError .invalidArgument
        "working context merge supersede base index is out of range")

def scanEntry (canonical : List Bytes) (scan : MergeScan) (entry : WorkingContextDeltaEntry) :
    Result MergeScan :=
  match entry.kind with
  | .addition => do
      let own ← sectionOf entry
      return scan.append own (deltaItem entry)
  | .supersede => do
      let content ← baseContent canonical entry
      let own ← sectionOf entry
      match scan.slotOf own content with
      | some index => return scan.replace own index content (deltaItem entry)
      | none => return scan.dropStale own (deltaItem entry)

def mergeScan (forkBase parent : WorkingContextSnapshot) (delta : WorkingContextDelta) :
    Result MergeScan :=
  delta.entries.foldlM (scanEntry (canonicalBaseEntries forkBase)) { working := parent.items }

def total (count : WorkingSection → Nat) : Nat := (workingSections.map count).sum

structure WorkingContextMergeReport where
  merged : WorkingContextSnapshot
  additionsAppended : Nat := 0
  supersedesResolved : Nat := 0
  supersedesDroppedStale : Nat := 0
  truncatedEntries : Nat := 0

/-- A section with its additions, cut to the bound; what was appended, and what was cut. -/
def truncateSection (options : WorkingContextMergeOptions) (parentSize : Nat)
    (working appended : List WorkingContextItem) : List WorkingContextItem × Nat × Nat :=
  let total := working.length + appended.length
  if total ≤ options.maxItemsPerSection then (working ++ appended, appended.length, 0)
  else
    ((working ++ appended).take options.maxItemsPerSection,
      if parentSize < options.maxItemsPerSection then options.maxItemsPerSection - parentSize
      else 0,
      total - options.maxItemsPerSection)

def MergeScan.truncated (scan : MergeScan) (parent : WorkingContextSnapshot)
    (options : WorkingContextMergeOptions) (own : WorkingSection) :
    List WorkingContextItem × Nat × Nat :=
  truncateSection options (parent.items own).length (scan.working own) (scan.appended own)

def mergeCandidate (forkBase parent : WorkingContextSnapshot) (identity : WorkingContextIdentity)
    (watermark : Nat) (items : WorkingSection → List WorkingContextItem) :
    WorkingContextSnapshot :=
  let candidate : WorkingContextSnapshot :=
    { id := ⟨Id128.nil⟩
      sessionId := parent.sessionId
      taskId := identity.task
      taskEpoch := identity.taskEpoch
      environmentEpoch := identity.environmentEpoch
      throughEventSequence := watermark
      sourceCheckpoints := parent.sourceCheckpoints
      createdAt := parent.createdAt
      generatedBy := parent.generatedBy }
  let merged := candidate.withItems items
  { merged with
    id := workingContextSnapshotIdFromSeed
      (ascii "mira.working_context.merge|" ++ parent.id.value.toString ++ ascii "|" ++
        forkBase.id.value.toString ++ ascii "|" ++ decimal watermark ++ ascii "|" ++
        merged.stateDigest.toString) }

def mergeReport (forkBase parent : WorkingContextSnapshot) (identity : WorkingContextIdentity)
    (watermark : Nat) (options : WorkingContextMergeOptions) (scan : MergeScan) :
    WorkingContextMergeReport :=
  { merged := mergeCandidate forkBase parent identity watermark
      fun own => (scan.truncated parent options own).1
    additionsAppended := total fun own => (scan.truncated parent options own).2.1
    supersedesResolved := scan.supersedesResolved
    supersedesDroppedStale := scan.supersedesDroppedStale
    truncatedEntries := total fun own => (scan.truncated parent options own).2.2 }

def mergeWorkingContextDelta (forkBase parent : WorkingContextSnapshot)
    (delta : WorkingContextDelta) (identity : WorkingContextIdentity) (watermark : Nat)
    (options : WorkingContextMergeOptions) : Result WorkingContextMergeReport := do
  options.validate
  forkBase.validate
  parent.validate
  delta.validate
  rejectIf (forkBase.id ≠ delta.forkBaseSnapshotId)
    "working context merge rejected: fork-base-mismatch"
  rejectIf (forkBase.sessionId = parent.sessionId)
    "working context merge rejected: same-session-fork"
  rejectIf (identity.task ≠ parent.taskId ∨ identity.taskEpoch ≠ parent.taskEpoch ∨
      identity.environmentEpoch ≠ parent.environmentEpoch)
    "working context merge identity does not match the parent snapshot"
  let scan ← mergeScan forkBase parent delta
  let report := mergeReport forkBase parent identity watermark options scan
  report.merged.validate
  return report

end Mira.Context
