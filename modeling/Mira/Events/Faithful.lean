import Mira.Events.Indexing

/-!
A store is faithful when it can be written to and its log accounts for its index,
up to what the log keeps. Recovery yields a faithful store or a read-only one, a
faithful store is reopened clean with the same index, and an accepted append of
text at a time the log can hold keeps the store faithful.
-/

namespace Mira.Events
open Mira Bytes

variable {index : StoreIndex}

theorem StoreIndex.Synced.marked (synced : index.Synced) :
    ({ index with v2 := true } : StoreIndex).Synced :=
  ⟨synced.consistent, synced.sessions, synced.tasks, synced.digests⟩

theorem freshIndex_synced (maxEvents : UInt64) : (freshIndex maxEvents).Synced :=
  ⟨MemoryEventStore.consistent_empty maxEvents, rfl, rfl, fun _ => rfl⟩

variable {texts : List Bytes}

theorem Accounts.invariant (inv : StoreIndex → Prop)
    (marked : ∀ index, inv index → inv { index with v2 := true })
    (extended : ∀ index text record, inv index → index.Synced →
      (if index.v2 then LogWire.decodeV2 text else LogWire.decodeLegacy text) = .ok record →
      index.Indexable record → inv (index.extend record (StoreIndex.recordOrigin record)))
    {index' : StoreIndex} (accounts : Accounts index texts index') (synced : index.Synced)
    (start : inv index) : index'.Synced ∧ inv index' := by
  induction accounts with
  | done => exact ⟨synced, start⟩
  | blank _ _ ih => exact ih synced start
  | @record index middle index' text texts verdict _ ih =>
      obtain ⟨record, decoded, indexed⟩ := readLine_record verdict
      obtain ⟨fits, rfl⟩ := StoreIndex.indexRecord_indexable synced indexed
      exact ih (synced.extend fits.toFits _) (extended _ text record start synced decoded fits)
  | transition _ _ ih => exact ih synced.marked (marked _ start)

theorem Accounts.synced {maxEvents : UInt64}
    (accounts : Accounts (freshIndex maxEvents) texts index) :
    index.Synced ∧ index.memory.maxEvents = maxEvents :=
  accounts.invariant (fun index => index.memory.maxEvents = maxEvents)
    (fun _ same => same) (fun _ _ _ same _ _ _ => same) (freshIndex_synced maxEvents) rfl

namespace FileEventStore

/-- The log of a store that can be written to accounts for its index. -/
structure Faithful (store : FileEventStore) : Prop where
  loaded : store.loaded = true
  writable : store.readOnly = false
  synced : store.index.Synced
  accounted : ∃ index,
    Accounts (freshIndex store.index.memory.maxEvents) (logTexts (store.log.getD [])) index ∧
      index.durable = store.index.durable
  separator : store.needsSeparator = Lines.leavesOpen false (getLines (store.log.getD []))

theorem recover_faithful (maxEvents : UInt64) (log : Option Bytes) (options : RecoveryOptions)
    (writable : ((create maxEvents log).recover options).1.readOnly = false) :
    ((create maxEvents log).recover options).1.Faithful ∧
      ((create maxEvents log).recover options).1.index.memory.maxEvents = maxEvents := by
  cases log with
  | none => exact ⟨⟨rfl, rfl, freshIndex_synced maxEvents, ⟨_, .done _, rfl⟩, rfl⟩, rfl⟩
  | some log =>
      obtain ⟨first, last, index, whole, accounts, ends⟩ := recover_ends maxEvents log options
      obtain ⟨synced, bound⟩ := accounts.synced
      generalize (create maxEvents (some log)).recover options = result at ends writable
      cases ends with
      | clean complete status kept rebuilt separator loaded _ =>
          rw [List.isEmpty_iff] at complete
          rw [complete, List.append_nil] at whole
          rw [← whole] at accounts separator
          refine ⟨⟨loaded, writable, rebuilt ▸ synced, ⟨index, ?_, by rw [rebuilt]⟩, ?_⟩,
            by rw [rebuilt, bound]⟩
          · rw [kept, rebuilt, bound]
            exact accounts
          · rw [kept]
            exact separator
      | truncated torn status cut rebuilt separator loaded _ =>
          have more : last ≠ [] := by
            rintro rfl
            cases torn
          obtain ⟨lines, closed⟩ := Lines.split_take 10 log first last whole more
          have left : getLines (result.1.log.getD []) = first := by
            rw [cut]
            exact lines
          refine ⟨⟨loaded, writable, rebuilt ▸ synced, ⟨index, ?_, by rw [rebuilt]⟩, ?_⟩,
            by rw [rebuilt, bound]⟩
          · rw [logTexts, left, rebuilt, bound]
            exact accounts
          · rw [left, closed, separator]
      | stopped status _ _ loaded readOnly => rw [writable] at readOnly; cases readOnly

variable {store : FileEventStore}

theorem Faithful.reopened (faithful : store.Faithful) (options : RecoveryOptions) :
    (store.reopen.recover options).2.status = .clean ∧
      (store.reopen.recover options).1.index.durable = store.index.durable ∧
      (store.reopen.recover options).1.log = store.log ∧
      (store.reopen.recover options).1.Faithful := by
  obtain ⟨index, accounts, same⟩ := faithful.accounted
  cases hlog : store.log with
  | none =>
      rw [hlog] at accounts
      have fresh : index = freshIndex store.index.memory.maxEvents := by
        generalize hempty : logTexts _ = texts at accounts
        cases accounts with
        | done => rfl
        | _ => cases hempty
      rw [fresh] at same
      have result : store.reopen.recover options =
          ({ store.reopen with loaded := true, recoveryDiagnostic := "new event store" },
            { diagnostic := "new event store" }) := by
        simp only [reopen, create, recover, hlog]
        rfl
      have again := (recover_faithful store.index.memory.maxEvents store.log options
        (by change (store.reopen.recover options).1.readOnly = _; rw [result]; rfl)).1
      refine ⟨by rw [result], ?_, ?_, again⟩
      · rw [result, ← same]; rfl
      · rw [result, reopen, hlog]; rfl
  | some log =>
      rw [hlog] at accounts
      obtain ⟨scan, result, rebuilt, _⟩ := recover_clean _ log options index accounts
      rw [← hlog] at result
      change store.reopen.recover options = _ at result
      have again := (recover_faithful store.index.memory.maxEvents store.log options
        (by change (store.reopen.recover options).1.readOnly = _; rw [result]; rfl)).1
      refine ⟨by rw [result]; rfl, ?_, ?_, again⟩
      · rw [result, ← same, ← rebuilt]; rfl
      · rw [result, ← hlog]; rfl

/-- The requests the log can hold: their payload is text, and the clock reads a time
that a JSON integer can express. -/
structure Storable (request : AppendRequest) (now : Timestamp) : Prop where
  type : ValidUtf8 request.payload.type
  data : ValidUtf8 request.payload.data
  wall : -2 ^ 63 < now.wall ∧ now.wall < 2 ^ 63

/-- The checks of an append that do not depend on the store. -/
structure Admissible (request : AppendRequest) : Prop where
  durability : fileDurability request.required = .ok ()
  checked : requestError request = none

variable {request : AppendRequest}

theorem Admissible.valid (admissible : Admissible request) :
    validDurability request.required = true := by
  have durability := admissible.durability
  unfold fileDurability at durability
  split at durability
  · cases durability
  · next valid => simpa using valid

theorem parseEventClass_beyond (value : Int) (beyond : 3 ≤ value) :
    (parseEventClass value).toOption = none := by
  unfold parseEventClass
  rw [if_neg (by omega), if_neg (by omega), if_neg (by omega)]
  rfl

theorem requestError_none (h : requestError request = none) :
    ¬ (request.eventId.isNil ∨ request.runtimeId.isNil ∨ request.sessionId.isNil) ∧
      (∀ task, request.taskId = some task → task.isNil = false) ∧
      request.payload.classification.value < 3 := by
  unfold requestError at h
  split_ifs at h with ids scope
  rw [not_or] at scope
  refine ⟨ids, ?_, ?_⟩
  · intro task present
    have named := scope.1
    rw [present] at named
    simpa using named
  · cases named : request.payload.classification with
    | unnamed value beyond =>
        have known := scope.2
        rw [named] at known
        have low : 3 ≤ value.toNat := beyond
        exact absurd (parseEventClass_beyond value.toNat (by omega)) known
    | _ => decide

variable {index : StoreIndex}

theorem fresh_of_absent (synced : index.Synced) {id : EventId}
    (absent : index.integrityById id = none) : index.memory.find id = none := by
  have digest := synced.digests id
  rw [absent, eq_comm, Option.map_eq_none_iff] at digest
  exact digest

section Append
variable {store : FileEventStore} {request : AppendRequest}
  (admissible : Admissible request) (synced : store.index.Synced)
  (absent : store.index.integrityById request.eventId = none)
  (room : store.index.memory.events.length < store.index.memory.maxEvents.toNat)
include synced absent room

variable (now : Timestamp)

theorem newRecord_fits : store.index.Fits (store.newRecord request now) :=
  ⟨fresh_of_absent synced absent, room, rfl, rfl⟩

omit absent in
theorem newRecord_writable (admissible : Admissible request) (storable : Storable request now) :
    LogWire.Writable (store.newRecord request now) := by
  obtain ⟨ids, scope, class_⟩ := requestError_none admissible.checked
  rw [not_or, not_or, Bool.not_eq_true, Bool.not_eq_true, Bool.not_eq_true] at ids
  have capacity := store.index.memory.maxEvents.toNat_lt
  refine ⟨ids.1, ids.2.1, ids.2.2, scope, ?_, ⟨Nat.succ_pos _, ?_⟩, ?_, storable.type,
    storable.data, class_, storable.wall⟩
  · exact (Option.isSome_map).symm
  · have bound := synced.consistent.nextSession_le request.sessionId
    rw [← synced.sessions] at bound
    change store.index.nextSession request.sessionId + 1 < _
    omega
  · intro number present
    obtain ⟨task, _, rfl⟩ := Option.map_eq_some_iff.mp present
    have bound := synced.consistent.nextTask_le task
    rw [← synced.tasks] at bound
    exact ⟨Nat.succ_pos _, by omega⟩

include admissible

theorem indexAppended_ok :
    store.indexAppended request now =
      ({ store with
          log := some (store.log.getD [] ++ store.appendedBytes (store.newRecord request now))
          needsSeparator := false
          index := { store.index.extend (store.newRecord request now) .appendProcess with
            v2 := true } },
        .ok ⟨request.eventId, store.index.nextSession request.sessionId + 1,
          request.taskId.map fun task => store.index.nextTask task + 1,
          store.index.memory.durableWatermark + 1, .processCrash⟩) := by
  unfold indexAppended
  dsimp only
  rw [StoreIndex.appendStamped_pushed _ _ _ _ admissible.valid
    (requestError_none admissible.checked).1 (fresh_of_absent synced absent) room,
    ← synced.sessions, ← synced.tasks]
  exact if_pos ⟨rfl, rfl⟩

end Append

variable {record : LogWire.Record}

theorem readLine_encode (synced : index.Synced) (v2 : index.v2 = true)
    (writable : LogWire.Writable record) (fits : index.Indexable record.stored) :
    readLine index (LogWire.encode record) =
      .record (index.extend record.stored .persistedWall) := by
  have shape : ∃ rest, LogWire.encode record = 69 :: rest := ⟨_, LogWire.encode_eq record⟩
  have decoded := LogWire.decodeV2_encode record writable
  obtain ⟨rest, shape⟩ := shape
  rw [shape] at decoded ⊢
  unfold readLine
  rw [if_neg (by simp), if_neg (by rw [Bool.not_eq_true]; rfl), if_neg (by simp [v2]), if_pos v2,
    decoded]
  dsimp only
  rw [StoreIndex.indexRecord_ok synced fits]
  rfl

theorem readLine_header_line (index : StoreIndex) (v2 : index.v2 = false) :
    readLine index LogWire.header = .header := by
  unfold readLine
  rw [if_neg (by decide), if_pos (by decide), if_neg (by simp), if_neg (by simp),
    if_neg (by simp [v2])]

def appendedTexts (v2 : Bool) (record : LogWire.Record) : List Bytes :=
  (if v2 then [] else [LogWire.header, LogWire.records]) ++ [LogWire.encode record]

theorem accounts_appended (synced : index.Synced) (writable : LogWire.Writable record)
    (fits : index.Indexable record.stored) :
    Accounts index (appendedTexts index.v2 record)
      { index.extend record.stored .persistedWall with v2 := true } := by
  cases v2 : index.v2 with
  | true =>
      have own : { index.extend record.stored .persistedWall with v2 := true } =
          index.extend record.stored .persistedWall := by
        rw [← v2]; rfl
      rw [own]
      exact .record (readLine_encode synced v2 writable fits) (.done _)
  | false =>
      refine .transition (readLine_header_line index v2) (.record ?_ (.done _))
      exact readLine_encode synced.marked rfl writable
        ⟨⟨fits.fresh, fits.room, fits.sequence, fits.digest⟩, fits.task, fits.durability, fits.ids⟩

def textOf (text : Bytes) : Bytes := lineText ⟨text, true⟩

theorem logTexts_eq (log : Bytes) :
    logTexts log = ((getLines log).map Lines.Line.text).map textOf := by
  rw [logTexts, List.map_map]
  rfl

variable {text : Bytes}

theorem textOf_printable (printable : Printable text) : textOf text = text := by
  refine if_neg ?_
  intro last
  have high := printable 13 (List.mem_of_getLast? last)
  revert high
  decide

theorem newline_not_mem (printable : Printable text) : (10 : UInt8) ∉ text := by
  intro present
  have high := printable 10 present
  revert high
  decide

theorem appendedBytes_eq (store : FileEventStore) (record : LogWire.Record) :
    store.appendedBytes record =
      (if store.needsSeparator then [10] else []) ++
        Lines.unsplit 10 ((appendedTexts store.index.v2 record).map fun text => ⟨text, true⟩) := by
  unfold appendedBytes appendedTexts
  cases store.index.v2 <;> simp [Lines.unsplit, Lines.Line.bytes]

theorem appendedTexts_printable (v2 : Bool) (writable : LogWire.Writable record) :
    ∀ text ∈ appendedTexts v2 record, Printable text := by
  have own := LogWire.encode_printable record writable
  have fixed : Printable LogWire.header ∧ Printable LogWire.records :=
    ⟨printable_ascii _ (by decide), printable_ascii _ (by decide)⟩
  intro text present
  unfold appendedTexts at present
  rcases List.mem_append.mp present with transition | last
  · split at transition
    · cases transition
    · rcases List.mem_pair.mp transition with rfl | rfl
      · exact fixed.1
      · exact fixed.2
  · rw [List.mem_singleton.mp last]
    exact own

theorem logTexts_appended (store : FileEventStore) (log : Bytes)
    (writable : LogWire.Writable record)
    (separator : store.needsSeparator = Lines.leavesOpen false (getLines log)) :
    logTexts (log ++ store.appendedBytes record) =
        logTexts log ++ appendedTexts store.index.v2 record ∧
      Lines.leavesOpen false (getLines (log ++ store.appendedBytes record)) = false := by
  have printable := appendedTexts_printable store.index.v2 writable
  generalize htexts : appendedTexts store.index.v2 record = texts at printable
  have written : Lines.split 10 (Lines.unsplit 10 (texts.map fun text => ⟨text, true⟩)) =
      texts.map fun text => ⟨text, true⟩ := by
    refine Lines.split_unsplit 10 _ ?_
    intro line present
    obtain ⟨text, member, rfl⟩ := List.mem_map.mp present
    exact ⟨newline_not_mem (printable text member), rfl⟩
  have bytes : log ++ store.appendedBytes record =
      log ++ Lines.separator 10 log ++ Lines.unsplit 10 (texts.map fun text => ⟨text, true⟩) := by
    rw [appendedBytes_eq, separator, htexts, ← List.append_assoc]
    rfl
  obtain ⟨lines, whole, same⟩ := Lines.split_separated 10 log
    (Lines.unsplit 10 (texts.map fun text => ⟨text, true⟩))
  rw [← bytes, written] at whole
  change getLines _ = _ at whole
  constructor
  · have added : ((texts.map fun text => (⟨text, true⟩ : LogLine)).map Lines.Line.text).map
        textOf = texts := by
      rw [List.map_map, List.map_map]
      refine (List.map_congr_left fun text present => ?_).trans (List.map_id texts)
      exact textOf_printable (printable text present)
    rw [logTexts_eq, logTexts_eq, whole, List.map_append, List.map_append, same, added]
    rfl
  · have last : texts.map (fun text => (⟨text, true⟩ : LogLine)) =
        (texts.dropLast.map fun text => ⟨text, true⟩) ++ [⟨LogWire.encode record, true⟩] := by
      rw [← htexts, appendedTexts, List.dropLast_concat, List.map_append]
      rfl
    rw [whole, last, ← List.append_assoc, Lines.leavesOpen_append_cons]
    rfl

theorem Faithful.appended (faithful : store.Faithful) {now : Timestamp}
    (admissible : Admissible request) (storable : Storable request now)
    (absent : store.index.integrityById request.eventId = none)
    (room : store.index.memory.events.length < store.index.memory.maxEvents.toNat) :
    (store.indexAppended request now).1.Faithful := by
  have synced := faithful.synced
  have fits := newRecord_fits synced absent room now
  have writable := newRecord_writable synced room now admissible storable
  obtain ⟨index, accounts, same⟩ := faithful.accounted
  obtain ⟨synced', bound⟩ := accounts.synced
  rw [indexAppended_ok admissible synced absent room now]
  have v2 : index.v2 = store.index.v2 := congrArg (·.v2) same
  have length : index.memory.events.length = store.index.memory.events.length := by
    simpa [StoreIndex.durable, MemoryEventStore.durable] using
      congrArg (·.memory.events.length) same
  have fits' : index.Indexable (store.newRecord request now).stored := by
    have digests : index.integrityById = store.index.integrityById :=
      congrArg (·.integrityById) same
    rw [← digests] at absent
    refine ⟨⟨fresh_of_absent synced' absent, by rw [bound, length]; exact room, ?_, rfl⟩, ?_, rfl,
      (requestError_none admissible.checked).1⟩
    · exact congrArg (·.nextSession request.sessionId + 1) same.symm
    · intro _
      have tasks : store.index.nextTask = index.nextTask := congrArg (·.nextTask) same.symm
      change (request.taskId.map fun task => store.index.nextTask task + 1) = _
      rw [tasks]
      rfl
  obtain ⟨texts, closed⟩ := logTexts_appended store (store.log.getD []) writable faithful.separator
  refine ⟨faithful.loaded, faithful.writable, (synced.extend fits _).marked, ?_, closed.symm⟩
  refine ⟨{ index.extend (store.newRecord request now).stored .persistedWall with v2 := true },
    ?_, ?_⟩
  · change Accounts (freshIndex store.index.memory.maxEvents)
      (logTexts (store.log.getD [] ++ store.appendedBytes (store.newRecord request now))) _
    rw [texts, ← v2]
    exact accounts.append (accounts_appended synced' writable fits')
  · have extended := StoreIndex.extend_durable same (store.newRecord request now) .appendProcess
    exact congrArg (fun index : StoreIndex => { index with v2 := true }) extended

end FileEventStore

/-!
The log that appends to an empty directory produce. The store's log is the text
of its events: the format transition and one line for each event. The events are
those that the results of the appends report, and these are the first admissible
requests under each identifier.
-/

def EventEnvelope.record (event : EventEnvelope) : LogWire.Record :=
  { request := event.request
    sequence := event.sessionSequence
    taskSequence := event.taskSequence
    requestDigest := event.integrity
    timestamp := event.timestamp
    v2 := true }

def EventEnvelope.line (event : EventEnvelope) : Bytes := LogWire.encode event.record

def logLines (events : List EventEnvelope) : List Bytes :=
  match events with
  | [] => []
  | events => LogWire.header :: LogWire.records :: events.map EventEnvelope.line

def logBytes (events : List EventEnvelope) : Bytes := Lines.terminate 10 (logLines events)

theorem logLines_concat (events : List EventEnvelope) (event : EventEnvelope) :
    logLines (events ++ [event]) = logLines events ++
      FileEventStore.appendedTexts (!events.isEmpty) event.record := by
  cases events with
  | nil => rfl
  | cons first rest => simp [logLines, FileEventStore.appendedTexts, EventEnvelope.line]

namespace FileEventStore

/-- How an append to a store that can be written to ends. -/
inductive AppendOutcome (store : FileEventStore) (request : AppendRequest) (now : Timestamp) :
    FileEventStore × Result AppendReceipt → Prop
  | refused (reason : Error)
      (cause : Admissible request → store.index.integrityById request.eventId ≠ none) :
      AppendOutcome store request now (store, .error reason)
  | repeated (event : EventEnvelope) (admissible : Admissible request)
      (found : store.index.memory.find request.eventId = some event)
      (same : sameRequest event request = true) :
      AppendOutcome store request now (store, .ok ⟨event.eventId, event.sessionSequence,
        event.taskSequence, 0, .processCrash⟩)
  | written (admissible : Admissible request)
      (absent : store.index.integrityById request.eventId = none) :
      AppendOutcome store request now (store.indexAppended request now)

variable (store : FileEventStore)

theorem append_outcome (request : AppendRequest) (now : Timestamp) (loaded : store.loaded = true)
    (writable : store.readOnly = false) :
    AppendOutcome store request now (store.append request now) := by
  have opened : store.opened = store := if_pos loaded
  unfold append
  split
  · next reason durability =>
      refine .refused reason fun admissible => ?_
      rw [admissible.durability] at durability
      cases durability
  · next durability =>
      dsimp only
      rw [opened, if_neg (by simp [writable])]
      split
      · next reason checked =>
          refine .refused reason fun admissible => ?_
          rw [admissible.checked] at checked
          cases checked
      · next checked =>
          have admissible : Admissible request := ⟨durability, checked⟩
          split
          · next digest present =>
              have cause : Admissible request →
                  store.index.integrityById request.eventId ≠ none := by
                rw [present]
                exact fun _ => Option.some_ne_none digest
              unfold duplicate
              split
              · exact .refused _ cause
              · split
                · exact .refused _ cause
                · next event found =>
                    split
                    · exact .refused _ cause
                    · next same => exact .repeated event admissible found (by simpa using same)
          · next absent => exact .written admissible absent

theorem opened_loaded : store.opened.loaded = true := by
  unfold opened
  split
  · assumption
  · next unloaded =>
      unfold recover
      rw [if_neg unloaded]
      split
      · rfl
      · next log _ =>
          obtain ⟨_, _, _, _, _, ends⟩ := recoverLines_ends store {}
            { index := store.index, needsSeparator := store.needsSeparator } (getLines log) rfl
          cases ends <;> assumption

theorem opened_opened : store.opened.opened = store.opened :=
  if_pos (opened_loaded store)

/-- A store whose log is the text of its events. -/
structure Written (maxEvents : UInt64) (store : FileEventStore) : Prop where
  loaded : store.loaded = true
  writable : store.readOnly = false
  synced : store.index.Synced
  capacity : store.index.memory.maxEvents = maxEvents
  log : store.log.getD [] = logBytes store.index.memory.events
  v2 : store.index.v2 = !store.index.memory.events.isEmpty
  separator : store.needsSeparator = false

theorem opened_written (maxEvents : UInt64) :
    ((create maxEvents none).opened).Written maxEvents :=
  ⟨rfl, rfl, freshIndex_synced maxEvents, rfl, rfl, rfl, rfl⟩

def newEvent (store : FileEventStore) (request : AppendRequest) (now : Timestamp) :
    EventEnvelope :=
  store.index.memory.stamped request now .appendProcess

variable {request : AppendRequest}

theorem newEvent_writable {store : FileEventStore} (synced : store.index.Synced)
    (room : store.index.memory.events.length < store.index.memory.maxEvents.toNat) (now : Timestamp)
    (admissible : Admissible request) (storable : Storable request now) :
    LogWire.Writable (store.newEvent request now).record := by
  obtain ⟨event, runtime, session, task, scope, sequence, taskSequence, type, data, class_, wall⟩ :=
    newRecord_writable synced room now admissible storable
  simp only [newRecord, synced.sessions, synced.tasks] at scope sequence taskSequence
  exact ⟨event, runtime, session, task, scope, sequence, taskSequence, type, data, class_, wall⟩

theorem Written.appended {maxEvents : UInt64} {store : FileEventStore}
    (written : store.Written maxEvents) (now : Timestamp) (admissible : Admissible request)
    (absent : store.index.integrityById request.eventId = none)
    (room : store.index.memory.events.length < maxEvents.toNat) :
    (store.indexAppended request now).1.Written maxEvents ∧
      (store.indexAppended request now).1.index.memory.events =
        store.index.memory.events ++ [store.newEvent request now] := by
  have synced := written.synced
  rw [← written.capacity] at room
  rw [indexAppended_ok admissible synced absent room now]
  refine ⟨⟨written.loaded, written.writable,
    (synced.extend (newRecord_fits synced absent room now) _).marked, written.capacity, ?_, ?_,
    rfl⟩, rfl⟩
  · change store.log.getD [] ++ store.appendedBytes (store.newRecord request now) =
      logBytes (store.index.memory.events ++ [store.newEvent request now])
    have line : LogWire.encode (store.newRecord request now) =
        (store.newEvent request now).line := by
      unfold EventEnvelope.line LogWire.encode LogWire.recordDigest
      have fields : LogWire.fields (store.newRecord request now) =
          LogWire.fields (store.newEvent request now).record := by
        simp only [LogWire.fields, newRecord, synced.sessions, synced.tasks]
        rfl
      rw [fields]
    rw [appendedBytes_eq, written.separator, written.log, logBytes, logBytes, logLines_concat,
      Lines.terminate, Lines.terminate, List.flatMap_append, written.v2]
    simp [appendedTexts, Lines.unsplit, Lines.Line.bytes, line, EventEnvelope.line,
      List.flatMap_map]
  · change true = !(store.index.memory.events ++ [_]).isEmpty
    simp

/-- Whatever bytes a store recovers from, it leaves a log that any later recovery finds clean and
reads the same from. -/
theorem recovery_settles (maxEvents : UInt64) (log : Option Bytes) (first second : RecoveryOptions)
    (writable : ((create maxEvents log).recover first).1.readOnly = false) :
    let store := ((create maxEvents log).recover first).1
    let again := store.reopen.recover second
    again.2.status = .clean ∧ again.1.readOnly = false ∧ again.1.log = store.log ∧
      again.1.index.durable = store.index.durable := by
  obtain ⟨clean, index, kept, faithful⟩ :=
    (recover_faithful maxEvents log first writable).1.reopened second
  exact ⟨clean, faithful.writable, kept, index⟩

theorem torn_line_settles :
    let store := ((create 4 (some (ascii "torn"))).recover {}).1
    store.log ≠ some (ascii "torn") ∧ (store.reopen.recover {}).2.status = .clean := by
  exact ⟨by decide, (recovery_settles 4 (some (ascii "torn")) {} {} (by decide)).1⟩

end FileEventStore

end Mira.Events
