import Mira.Events.LogWire
import Mira.Library.Lines
import Mira.Events.Sequencing

/-!
The file event store: an append-only log with an index that is rebuilt from it.
The log file belongs to the state, since every operation of interest is about
what it holds; whether the operating system completes a write is an input.
Recovery reads the log line by line and stops at the first line it cannot
account for.
-/

namespace Mira.Events
open Mira Bytes

inductive RecoveryStatus
  | clean | tailTruncated | readOnlyDiagnostic | dataLoss
  deriving DecidableEq

structure StoreRecoveryReport where
  status : RecoveryStatus := .clean
  eventsRecovered : Nat := 0
  bytesDiscarded : Nat := 0
  diagnostic : String := ""

structure RecoveryOptions where
  repairUncommittedTail : Bool := true

/-- What is rebuilt from the log. -/
structure StoreIndex where
  memory : MemoryEventStore
  v2 : Bool := false
  nextSession : SessionId → Nat := fun _ => 0
  nextTask : TaskId → Nat := fun _ => 0
  integrityById : EventId → Option Sha256Digest := fun _ => none

structure FileEventStore where
  log : Option Bytes := none
  index : StoreIndex
  loaded : Bool := false
  needsSeparator : Bool := false
  readOnly : Bool := false
  recoveryStatus : RecoveryStatus := .clean
  recoveryDiagnostic : String := ""

def FileEventStore.create (maxEvents : UInt64) (log : Option Bytes) : FileEventStore :=
  { log := log, index := { memory := { maxEvents := maxEvents } } }

namespace StoreIndex

def note (index : StoreIndex) (memory : MemoryEventStore) (record : LogWire.Record)
    (taskSequence : Option Nat) : StoreIndex :=
  { index with
    memory := memory
    nextSession := Function.update index.nextSession record.request.sessionId record.sequence
    nextTask := match record.request.taskId, taskSequence with
      | some task, some sequence => Function.update index.nextTask task sequence
      | _, _ => index.nextTask
    integrityById := fun id =>
      if id = record.request.eventId then
        some ((index.integrityById id).getD record.requestDigest)
      else index.integrityById id }

/-- The part of the recovery loop after a line was decoded. -/
def indexRecord (index : StoreIndex) (record : LogWire.Record) : Except String StoreIndex :=
  let expectedSequence := index.nextSession record.request.sessionId + 1
  let expectedTaskSequence := record.request.taskId.map fun task => index.nextTask task + 1
  if record.sequence ≠ expectedSequence ∨
      (record.v2 = true ∧ record.taskSequence ≠ expectedTaskSequence) then
    .error "event log contains a sequence gap"
  else if record.requestDigest ≠ digestString (canonicalRequest record.request) then
    .error "event request integrity digest mismatch"
  else
    match index.memory.appendStamped record.request record.timestamp
        (if record.v2 then .persistedWall else .unavailableLegacy) with
    | (memory, .ok receipt) =>
        if receipt.sessionSequence = record.sequence ∧
            receipt.taskSequence = expectedTaskSequence then
          .ok (index.note memory record expectedTaskSequence)
        else .error "event recovery index could not be reconstructed"
    | (_, .error _) => .error "event recovery index could not be reconstructed"

end StoreIndex

/-- What the recovery loop makes of one line. `incomplete` is a line that may be a
torn tail; when it is strict, a terminator already rules that out. -/
inductive LineVerdict
  | blank
  | header
  | record (index : StoreIndex)
  | incomplete (strict : Bool)
  | refused (status : RecoveryStatus) (message : String)

def readLine (index : StoreIndex) (text : Bytes) : LineVerdict :=
  if text = [] then .blank
  else if (ascii "MIRA_EVENT_").isPrefixOf text then
    if index.v2 = false ∧ text ≠ LogWire.header ∧ text.isPrefixOf LogWire.header then
      .incomplete false
    else if text ≠ LogWire.header then
      .refused .readOnlyDiagnostic "event log version is unsupported"
    else if index.v2 then .refused .dataLoss "event log repeats a format transition"
    else .header
  else if index.v2 = false ∧ text.head? = some 69 then
    .refused .readOnlyDiagnostic "event log record has no version marker"
  else
    match if index.v2 then LogWire.decodeV2 text else LogWire.decodeLegacy text with
    | .error reason =>
        if reason.code = .invalidArgument then .incomplete index.v2
        else
          .refused (if reason.code = .unsupportedVersion then .readOnlyDiagnostic else .dataLoss)
            reason.safeMessage
    | .ok record =>
        match index.indexRecord record with
        | .error message => .refused .dataLoss message
        | .ok index' => .record index'

abbrev LogLine := Lines.Line UInt8

def getLines (log : Bytes) : List LogLine := Lines.split 10 log

/-- A line without its carriage return. -/
def lineText (line : LogLine) : Bytes :=
  if line.text.getLast? = some 13 then line.text.dropLast else line.text

/-- The progress of the recovery loop. -/
structure Scanning where
  index : StoreIndex
  needsSeparator : Bool := false
  recovered : Nat := 0
  offset : Nat := 0
  lastGoodOffset : Nat := 0

def Scanning.advance (scan : Scanning) (line : LogLine) : Scanning :=
  { scan with offset := scan.offset + line.size }

/-- A line that was accounted for, with the index and the number of events it
leaves. -/
def Scanning.accept (scan : Scanning) (line : LogLine) (index : StoreIndex) (events : Nat) :
    Scanning :=
  { index := index
    needsSeparator := !line.terminated
    recovered := scan.recovered + events
    offset := scan.offset + line.size
    lastGoodOffset := scan.offset + line.size }

namespace FileEventStore

def stop (store : FileEventStore) (scan : Scanning) (status : RecoveryStatus) (message : String)
    (bytes : Nat := 0) : FileEventStore × StoreRecoveryReport :=
  ({ store with
      index := scan.index
      needsSeparator := scan.needsSeparator
      loaded := true
      readOnly := status = .dataLoss || status = .readOnlyDiagnostic
      recoveryStatus := status
      recoveryDiagnostic := message },
    { status := status, eventsRecovered := scan.recovered, bytesDiscarded := bytes
      diagnostic := message })

/-- A torn tail is cut off at the last good offset, if it is the tail and the
caller wants it repaired. -/
def malformed (store : FileEventStore) (options : RecoveryOptions) (scan : Scanning)
    (hasMore : Bool) : FileEventStore × StoreRecoveryReport :=
  if hasMore ∨ options.repairUncommittedTail = false then
    store.stop scan .readOnlyDiagnostic "event log contains an incomplete record"
  else
    let log := store.log.getD []
    { store with log := some (log.take scan.lastGoodOffset) }.stop
      { scan with needsSeparator := false } .tailTruncated "incomplete event log tail truncated"
      (log.length - scan.lastGoodOffset)

/-- The loop of `recover`. The header line takes the line after it along. -/
def recoverLines (store : FileEventStore) (options : RecoveryOptions) :
    Scanning → List LogLine → FileEventStore × StoreRecoveryReport
  | scan, [] => store.stop scan .clean "event log recovered"
  | scan, line :: rest =>
      match readLine scan.index (lineText line) with
      | .blank => recoverLines store options (scan.accept line scan.index 0) rest
      | .record index => recoverLines store options (scan.accept line index 1) rest
      | .incomplete strict =>
          store.malformed options (scan.advance line)
            ((strict && line.terminated) || !rest.isEmpty)
      | .refused status message => store.stop (scan.advance line) status message
      | .header =>
          match rest with
          | [] => store.malformed options (scan.advance line) false
          | marker :: rest' =>
              if lineText marker ≠ LogWire.records then
                if (lineText marker).isPrefixOf LogWire.records then
                  store.malformed options ((scan.advance line).advance marker)
                    (marker.terminated || !rest'.isEmpty)
                else
                  store.stop ((scan.advance line).advance marker) .readOnlyDiagnostic
                    "event log format marker is invalid"
              else
                recoverLines store options
                  ((scan.advance line).accept marker { scan.index with v2 := true } 0) rest'

def recover (store : FileEventStore) (options : RecoveryOptions := {}) :
    FileEventStore × StoreRecoveryReport :=
  if store.loaded then
    (store, { status := store.recoveryStatus
              eventsRecovered := store.index.memory.events.length
              diagnostic := store.recoveryDiagnostic })
  else
    match store.log with
    | none =>
        ({ store with loaded := true, recoveryDiagnostic := "new event store" },
          { diagnostic := "new event store" })
    | some log =>
        store.recoverLines options { index := store.index, needsSeparator := store.needsSeparator }
          (getLines log)

/-- The store the first use of an object works on. -/
def opened (store : FileEventStore) : FileEventStore :=
  if store.loaded then store else store.recover.1

def readOnlyError : Error := storeError .dataLoss "event store is read-only after recovery"

/-- The record an append writes for a new event. -/
def newRecord (store : FileEventStore) (request : AppendRequest) (now : Timestamp) :
    LogWire.Record :=
  { request := request
    sequence := store.index.nextSession request.sessionId + 1
    taskSequence := request.taskId.map fun task => store.index.nextTask task + 1
    requestDigest := digestString (canonicalRequest request)
    timestamp := now
    v2 := true }

/-- The bytes an append writes: the separator and the format transition where they
are missing, and the record. -/
def appendedBytes (store : FileEventStore) (record : LogWire.Record) : Bytes :=
  (if store.needsSeparator then [10] else []) ++
    (if store.index.v2 then [] else LogWire.header ++ [10] ++ LogWire.records ++ [10]) ++
    LogWire.encode record ++ [10]

/-- What became of a write: the file could not be opened, only some of the bytes
reached it, or all of them did. -/
inductive WriteOutcome
  | unopened
  | torn (written : Nat)
  | complete

/-- The index update after the durable write. -/
def indexAppended (store : FileEventStore) (request : AppendRequest) (now : Timestamp) :
    FileEventStore × Result AppendReceipt :=
  let record := store.newRecord request now
  let written : FileEventStore :=
    { store with
      log := some (store.log.getD [] ++ store.appendedBytes record)
      needsSeparator := false
      index := { store.index with v2 := true } }
  match store.index.memory.appendStamped request now .appendProcess with
  | (memory, .ok receipt) =>
      if receipt.sessionSequence = record.sequence ∧
          receipt.taskSequence = record.taskSequence then
        ({ written with index := written.index.note memory record record.taskSequence },
          .ok { receipt with achieved := .processCrash })
      else
        ({ written with
            index := { written.index with memory := memory }
            readOnly := true
            recoveryStatus := .dataLoss
            recoveryDiagnostic := "event index update failed after durable append" },
          .error (storeError .dataLoss "event index update failed after durable append"))
  | (memory, .error _) =>
      ({ written with
          index := { written.index with memory := memory }
          readOnly := true
          recoveryStatus := .dataLoss
          recoveryDiagnostic := "event index update failed after durable append" },
        .error (storeError .dataLoss "event index update failed after durable append"))

def writeAppended (store : FileEventStore) (request : AppendRequest) (now : Timestamp) :
    WriteOutcome → FileEventStore × Result AppendReceipt
  | .unopened => (store, .error (storeError .unavailable "event log cannot be opened" true))
  | .torn written =>
      ({ store with
          log := some (store.log.getD [] ++
            (store.appendedBytes (store.newRecord request now)).take written)
          readOnly := true
          recoveryStatus := .readOnlyDiagnostic
          recoveryDiagnostic := "event write failed; reopen for recovery" },
        .error (storeError .unavailable "event log write failed" true))
  | .complete => store.indexAppended request now

/-- The answer to a request whose identifier is already indexed. -/
def duplicate (store : FileEventStore) (request : AppendRequest) (existing : Sha256Digest) :
    Result AppendReceipt :=
  if existing ≠ digestString (canonicalRequest request) then
    .error (storeError .dataLoss "duplicate event ID has a different payload")
  else
    match store.index.memory.find request.eventId with
    | none => .error (storeError .dataLoss "event index is inconsistent")
    | some event =>
        if sameRequest event request = false then
          .error (storeError .dataLoss "duplicate event ID has different request fields")
        else
          .ok ⟨event.eventId, event.sessionSequence, event.taskSequence, 0, .processCrash⟩

/-- The checks on a request that come before anything is looked up. -/
def requestError (request : AppendRequest) : Option Error :=
  if request.eventId.isNil ∨ request.runtimeId.isNil ∨ request.sessionId.isNil then
    some (storeError .invalidArgument "event, runtime, and session IDs must be non-nil")
  else if (request.taskId.any StrongId.isNil) ∨
      (parseEventClass request.payload.classification.value.toNat).toOption = none then
    some (storeError .invalidArgument "event task or classification is invalid")
  else none

def append (store : FileEventStore) (request : AppendRequest) (now : Timestamp)
    (outcome : WriteOutcome := .complete) : FileEventStore × Result AppendReceipt :=
  match fileDurability request.required with
  | .error reason => (store, .error reason)
  | .ok () =>
      let store := store.opened
      if store.readOnly then (store, .error readOnlyError)
      else
        match requestError request with
        | some reason => (store, .error reason)
        | none =>
            match store.index.integrityById request.eventId with
            | some existing => (store, store.duplicate request existing)
            | none => store.writeAppended request now outcome

def read (store : FileEventStore) (query : MemoryEventStore.EventQuery) :
    FileEventStore × Result MemoryEventStore.EventPage :=
  let store := store.opened
  if store.readOnly then (store, .error readOnlyError)
  else (store, .ok (store.index.memory.read query))

/-- Flushing opens the log for appending, which creates it. -/
def flush (store : FileEventStore) (required : Durability) : FileEventStore × Result Unit :=
  match fileDurability required with
  | .error reason => (store, .error reason)
  | .ok () =>
      let store := store.opened
      if store.readOnly then (store, .error readOnlyError)
      else ({ store with log := some (store.log.getD []) }, .ok ())

/-- A new object on the same directory. -/
def reopen (store : FileEventStore) : FileEventStore :=
  .create store.index.memory.maxEvents store.log

end FileEventStore

/-!
What recovery accepts. A log is accounted for when each of its lines, the format
transition with its marker, and nothing else, moves the index along; recovery
then ends clean with that index. In general recovery accounts for some first
lines and then either finds nothing more, cuts off a torn tail behind them, or
leaves the store read-only.
-/

/-- The lines that move one index to another. -/
inductive Accounts : StoreIndex → List Bytes → StoreIndex → Prop
  | done (index : StoreIndex) : Accounts index [] index
  | blank {index index' : StoreIndex} {text : Bytes} {texts : List Bytes}
      (verdict : readLine index text = .blank) (rest : Accounts index texts index') :
      Accounts index (text :: texts) index'
  | record {index middle index' : StoreIndex} {text : Bytes} {texts : List Bytes}
      (verdict : readLine index text = .record middle) (rest : Accounts middle texts index') :
      Accounts index (text :: texts) index'
  | transition {index index' : StoreIndex} {text : Bytes} {texts : List Bytes}
      (verdict : readLine index text = .header)
      (rest : Accounts { index with v2 := true } texts index') :
      Accounts index (text :: LogWire.records :: texts) index'

theorem Accounts.append {a b c : StoreIndex} {xs ys : List Bytes} (first : Accounts a xs b)
    (second : Accounts b ys c) : Accounts a (xs ++ ys) c := by
  induction first with
  | done => exact second
  | blank verdict _ ih => exact .blank verdict (ih second)
  | record verdict _ ih => exact .record verdict (ih second)
  | transition verdict _ ih => exact .transition verdict (ih second)

inductive Verdict (index : StoreIndex) (text : Bytes) : LineVerdict → Prop
  | blank (empty : text = []) : Verdict index text .blank
  | header (v2 : index.v2 = false) (own : text = LogWire.header) : Verdict index text .header
  | record (record : LogWire.Record) (index' : StoreIndex)
      (decoded : (if index.v2 then LogWire.decodeV2 text else LogWire.decodeLegacy text) =
        .ok record)
      (indexed : index.indexRecord record = .ok index') : Verdict index text (.record index')
  | incomplete (strict : Bool) : Verdict index text (.incomplete strict)
  | refused (status : RecoveryStatus) (message : String)
      (final : status = .readOnlyDiagnostic ∨ status = .dataLoss) :
      Verdict index text (.refused status message)

theorem readLine_verdict (index : StoreIndex) (text : Bytes) :
    Verdict index text (readLine index text) := by
  unfold readLine
  split
  · next empty => exact .blank empty
  · split
    · split
      · exact .incomplete false
      · split
        · exact .refused _ _ (.inl rfl)
        · next own =>
            split
            · exact .refused _ _ (.inr rfl)
            · next v2 => exact .header (by simpa using v2) (not_not.mp own)
    · split
      · exact .refused _ _ (.inl rfl)
      · split
        · split
          · exact .incomplete _
          · refine .refused _ _ ?_
            split
            · exact .inl rfl
            · exact .inr rfl
        · next record decoded =>
            split
            · exact .refused _ _ (.inr rfl)
            · next index' indexed => exact .record record index' decoded indexed

variable {index : StoreIndex} {text : Bytes}

theorem readLine_refused {status : RecoveryStatus} {message : String}
    (verdict : readLine index text = .refused status message) :
    status = .readOnlyDiagnostic ∨ status = .dataLoss := by
  have reading := readLine_verdict index text
  rw [verdict] at reading
  cases reading with
  | refused _ _ final => exact final

variable {index' : StoreIndex}

theorem readLine_record (verdict : readLine index text = .record index') :
    ∃ record, (if index.v2 then LogWire.decodeV2 text else LogWire.decodeLegacy text) =
      .ok record ∧ index.indexRecord record = .ok index' := by
  have reading := readLine_verdict index text
  rw [verdict] at reading
  cases reading with
  | record record _ decoded indexed => exact ⟨record, decoded, indexed⟩

theorem readLine_blank (verdict : readLine index text = .blank) : text = [] := by
  have reading := readLine_verdict index text
  rw [verdict] at reading
  cases reading with
  | blank empty => exact empty

theorem readLine_header (verdict : readLine index text = .header) : index.v2 = false := by
  have reading := readLine_verdict index text
  rw [verdict] at reading
  cases reading with
  | header v2 => exact v2

inductive Ends (store : FileEventStore) (index : StoreIndex) (needsSeparator : Bool)
    (goodBytes : Nat) (complete : Bool) : FileEventStore × StoreRecoveryReport → Prop
  | clean (result : FileEventStore × StoreRecoveryReport) (whole : complete = true)
      (status : result.2.status = .clean) (log : result.1.log = store.log)
      (rebuilt : result.1.index = index) (separator : result.1.needsSeparator = needsSeparator)
      (loaded : result.1.loaded = true) (writable : result.1.readOnly = false) :
      Ends store index needsSeparator goodBytes complete result
  | truncated (result : FileEventStore × StoreRecoveryReport) (torn : complete = false)
      (status : result.2.status = .tailTruncated)
      (log : result.1.log = some ((store.log.getD []).take goodBytes))
      (rebuilt : result.1.index = index) (separator : result.1.needsSeparator = false)
      (loaded : result.1.loaded = true) (writable : result.1.readOnly = false) :
      Ends store index needsSeparator goodBytes complete result
  | stopped (result : FileEventStore × StoreRecoveryReport)
      (status : result.2.status = .readOnlyDiagnostic ∨ result.2.status = .dataLoss)
      (log : result.1.log = store.log) (rebuilt : result.1.index = index)
      (loaded : result.1.loaded = true) (readOnly : result.1.readOnly = true) :
      Ends store index needsSeparator goodBytes complete result

variable (store : FileEventStore) (options : RecoveryOptions) (scan : Scanning) (hasMore : Bool)

theorem malformed_ends (needsSeparator : Bool) :
    Ends store scan.index needsSeparator scan.lastGoodOffset false
      (store.malformed options scan hasMore) := by
  unfold FileEventStore.malformed
  split
  · exact .stopped _ (.inl rfl) rfl rfl rfl rfl
  · exact .truncated _ rfl rfl rfl rfl rfl rfl rfl

theorem stop_ends (status : RecoveryStatus) (message : String)
    (refused : status = .readOnlyDiagnostic ∨ status = .dataLoss) (needsSeparator complete : Bool)
    (goodBytes : Nat) :
    Ends store scan.index needsSeparator goodBytes complete (store.stop scan status message) := by
  refine .stopped _ refused rfl rfl rfl ?_
  rcases refused with rfl | rfl <;> rfl

theorem recoverLines_ends (lines : List LogLine) (good : scan.lastGoodOffset = scan.offset) :
    ∃ first last index, lines = first ++ last ∧
      Accounts scan.index (first.map lineText) index ∧
      Ends store index (Lines.leavesOpen scan.needsSeparator first)
        (scan.offset + (first.map Lines.Line.size).sum) last.isEmpty
        (store.recoverLines options scan lines) := by
  fun_induction FileEventStore.recoverLines store options scan lines with
  | case1 scan =>
      exact ⟨[], [], scan.index, rfl, .done _, .clean _ rfl rfl rfl rfl rfl rfl rfl⟩
  | case2 scan line rest verdict ih =>
      obtain ⟨first, last, index, rfl, accounts, ends⟩ := ih rfl
      refine ⟨line :: first, last, index, rfl, .blank verdict accounts, ?_⟩
      rw [Lines.leavesOpen_cons, List.map_cons, List.sum_cons, ← Nat.add_assoc]
      exact ends
  | case3 scan line rest index verdict ih =>
      obtain ⟨first, last, index, rfl, accounts, ends⟩ := ih rfl
      refine ⟨line :: first, last, index, rfl, .record verdict accounts, ?_⟩
      rw [Lines.leavesOpen_cons, List.map_cons, List.sum_cons, ← Nat.add_assoc]
      exact ends
  | case4 scan line rest strict verdict =>
      refine ⟨[], line :: rest, scan.index, rfl, .done _, ?_⟩
      have ends := malformed_ends store options (scan.advance line)
        ((strict && line.terminated) || !rest.isEmpty) scan.needsSeparator
      rw [show (scan.advance line).lastGoodOffset = scan.offset + 0 from good] at ends
      exact ends
  | case5 scan line rest status message verdict =>
      exact ⟨[], line :: rest, scan.index, rfl, .done _,
        stop_ends _ (scan.advance line) _ _ (readLine_refused verdict) _ _ _⟩
  | case6 scan line verdict =>
      refine ⟨[], [line], scan.index, rfl, .done _, ?_⟩
      have ends := malformed_ends store options (scan.advance line) false scan.needsSeparator
      rw [show (scan.advance line).lastGoodOffset = scan.offset + 0 from good] at ends
      exact ends
  | case7 scan line verdict marker rest other torn =>
      refine ⟨[], line :: marker :: rest, scan.index, rfl, .done _, ?_⟩
      have ends := malformed_ends store options ((scan.advance line).advance marker)
        (marker.terminated || !rest.isEmpty) scan.needsSeparator
      rw [show ((scan.advance line).advance marker).lastGoodOffset = scan.offset + 0 from good]
        at ends
      exact ends
  | case8 scan line verdict marker rest other foreign =>
      exact ⟨[], line :: marker :: rest, scan.index, rfl, .done _,
        stop_ends _ ((scan.advance line).advance marker) _ _ (.inl rfl) _ _ _⟩
  | case9 scan line verdict marker rest marked ih =>
      obtain ⟨first, last, index, rfl, accounts, ends⟩ := ih rfl
      refine ⟨line :: marker :: first, last, index, rfl, ?_, ?_⟩
      · rw [List.map_cons, List.map_cons, not_not.mp marked]
        exact .transition verdict accounts
      · rw [Lines.leavesOpen_cons, Lines.leavesOpen_cons, List.map_cons, List.map_cons, List.sum_cons,
          List.sum_cons, ← Nat.add_assoc, ← Nat.add_assoc]
        exact ends

theorem malformed_index : (store.malformed options scan hasMore).1.index = scan.index := by
  unfold FileEventStore.malformed
  split <;> rfl

theorem recoverLines_index (options' : RecoveryOptions) (scan : Scanning) (lines : List LogLine) :
    (store.recoverLines options scan lines).1.index =
      (store.recoverLines options' scan lines).1.index := by
  fun_induction FileEventStore.recoverLines store options scan lines with
  | case1 scan => rfl
  | case2 scan line rest verdict ih =>
      rw [ih, FileEventStore.recoverLines.eq_def store options' scan]
      simp only [verdict]
  | case3 scan line rest index verdict ih =>
      rw [ih, FileEventStore.recoverLines.eq_def store options' scan]
      simp only [verdict]
  | case4 scan line rest strict verdict =>
      rw [FileEventStore.recoverLines.eq_def store options' scan]
      simp only [verdict, malformed_index]
  | case5 scan line rest status message verdict =>
      rw [FileEventStore.recoverLines.eq_def store options' scan]
      simp only [verdict]
  | case6 scan line verdict =>
      rw [FileEventStore.recoverLines.eq_def store options' scan]
      simp only [verdict, malformed_index]
  | case7 scan line verdict marker rest other torn =>
      rw [FileEventStore.recoverLines.eq_def store options' scan]
      simp only [verdict, malformed_index]
      rw [if_pos other, if_pos torn, malformed_index]
  | case8 scan line verdict marker rest other foreign =>
      rw [FileEventStore.recoverLines.eq_def store options' scan]
      simp only [verdict]
      rw [if_pos other, if_neg foreign]
  | case9 scan line verdict marker rest marked ih =>
      rw [ih, FileEventStore.recoverLines.eq_def store options' scan]
      simp only [verdict]
      rw [if_neg marked]

theorem Accounts.recoverLines {texts : List Bytes} (accounts : Accounts index texts index')
    (scan : Scanning) (lines rest : List LogLine) (start : scan.index = index)
    (read : lines.map lineText = texts) (good : scan.lastGoodOffset = scan.offset) :
    ∃ scan', scan'.index = index' ∧
      scan'.needsSeparator = Lines.leavesOpen scan.needsSeparator lines ∧
      scan'.offset = scan.offset + (lines.map Lines.Line.size).sum ∧
      scan'.lastGoodOffset = scan'.offset ∧
      ∀ (store : FileEventStore) options,
        store.recoverLines options scan (lines ++ rest) = store.recoverLines options scan' rest := by
  induction accounts generalizing scan lines with
  | done index =>
      rw [List.map_eq_nil_iff.mp read]
      exact ⟨scan, start, rfl, rfl, good, fun _ _ => rfl⟩
  | @blank index index' text texts verdict _ ih =>
      obtain ⟨line, lines, rfl, rfl, rfl⟩ := List.map_eq_cons_iff.mp read
      subst start
      obtain ⟨scan', hindex, hseparator, hoffset, hgood, hrest⟩ :=
        ih (scan.accept line scan.index 0) lines rfl rfl rfl
      refine ⟨scan', hindex, ?_, ?_, hgood, fun store options => ?_⟩
      · rw [hseparator, Lines.leavesOpen_cons]; rfl
      · rw [hoffset, List.map_cons, List.sum_cons, ← Nat.add_assoc]; rfl
      · rw [← hrest, List.cons_append, FileEventStore.recoverLines.eq_def]
        simp only [verdict]
  | @record index middle index' text texts verdict _ ih =>
      obtain ⟨line, lines, rfl, rfl, rfl⟩ := List.map_eq_cons_iff.mp read
      subst start
      obtain ⟨scan', hindex, hseparator, hoffset, hgood, hrest⟩ :=
        ih (scan.accept line middle 1) lines rfl rfl rfl
      refine ⟨scan', hindex, ?_, ?_, hgood, fun store options => ?_⟩
      · rw [hseparator, Lines.leavesOpen_cons]; rfl
      · rw [hoffset, List.map_cons, List.sum_cons, ← Nat.add_assoc]; rfl
      · rw [← hrest, List.cons_append, FileEventStore.recoverLines.eq_def]
        simp only [verdict]
  | @transition index index' text texts verdict _ ih =>
      obtain ⟨line, lines, rfl, rfl, tail⟩ := List.map_eq_cons_iff.mp read
      obtain ⟨marker, lines, rfl, marked, rfl⟩ := List.map_eq_cons_iff.mp tail
      subst start
      obtain ⟨scan', hindex, hseparator, hoffset, hgood, hrest⟩ :=
        ih ((scan.advance line).accept marker { scan.index with v2 := true } 0) lines rfl rfl rfl
      refine ⟨scan', hindex, ?_, ?_, hgood, fun store options => ?_⟩
      · rw [hseparator, Lines.leavesOpen_cons, Lines.leavesOpen_cons]; rfl
      · rw [hoffset, List.map_cons, List.map_cons, List.sum_cons, List.sum_cons, ← Nat.add_assoc,
          ← Nat.add_assoc]
        rfl
      · rw [← hrest, List.cons_append, List.cons_append, FileEventStore.recoverLines, verdict]
        dsimp only
        rw [if_neg (not_not.mpr marked)]

/-- The index a new object starts from. -/
def freshIndex (maxEvents : UInt64) : StoreIndex := { memory := { maxEvents := maxEvents } }

def logTexts (log : Bytes) : List Bytes := (getLines log).map lineText

variable (maxEvents : UInt64)

theorem recover_ends (log : Bytes) (options : RecoveryOptions) :
    ∃ first last index, getLines log = first ++ last ∧
      Accounts (freshIndex maxEvents) (first.map lineText) index ∧
      Ends (FileEventStore.create maxEvents (some log)) index (Lines.leavesOpen false first)
        (first.map Lines.Line.size).sum last.isEmpty
        ((FileEventStore.create maxEvents (some log)).recover options) := by
  have ends := recoverLines_ends (FileEventStore.create maxEvents (some log)) options
    { index := freshIndex maxEvents } (getLines log) rfl
  simp only [Nat.zero_add] at ends
  exact ends

theorem recover_clean (log : Bytes) (options : RecoveryOptions) (index : StoreIndex)
    (accounts : Accounts (freshIndex maxEvents) (logTexts log) index) :
    ∃ scan, (FileEventStore.create maxEvents (some log)).recover options =
        (FileEventStore.create maxEvents (some log)).stop scan .clean "event log recovered" ∧
      scan.index = index ∧ scan.needsSeparator = Lines.leavesOpen false (getLines log) := by
  obtain ⟨scan, hindex, hseparator, _, _, hrest⟩ :=
    accounts.recoverLines { index := freshIndex maxEvents } (getLines log) [] rfl rfl rfl
  refine ⟨scan, ?_, hindex, hseparator⟩
  have whole := hrest (FileEventStore.create maxEvents (some log)) options
  rw [List.append_nil] at whole
  exact whole

end Mira.Events
