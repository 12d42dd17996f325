import Mira.Events.Faithful

/-!
Durable append and reopen. Over every run of appends on an empty directory that
stays within capacity, a new object on the log recovers clean with the events the
appends reported, exactly if each admitted request can be stored.
-/

namespace Mira.Events
open Mira Bytes

/-- An append with its clock reading, and the answer it got. -/
abbrev Attempt := (AppendRequest × Timestamp) × Result AppendReceipt

def reported (request : AppendRequest) (now : Timestamp) (receipt : AppendReceipt) :
    EventEnvelope :=
  { request.envelope with
    sessionSequence := receipt.sessionSequence
    taskSequence := receipt.taskSequence
    timestamp := { wall := now.wall }
    timestampOrigin := .persistedWall
    integrity := digestString (canonicalRequest request) }

def accept (events : List EventEnvelope) (attempt : Attempt) : List EventEnvelope :=
  match attempt.2 with
  | .error _ => events
  | .ok receipt =>
      if events.any fun event => event.eventId = attempt.1.1.eventId then events
      else events ++ [reported attempt.1.1 attempt.1.2 receipt]

/-- The events that the answers report, in order. A repeated identifier reports the
event it repeats. -/
def accepted (attempts : List Attempt) : List EventEnvelope := attempts.foldl accept []

namespace FileEventStore

instance (request : AppendRequest) : Decidable (Admissible request) :=
  match h : fileDurability request.required, h' : requestError request with
  | .ok (), none => isTrue ⟨h, h'⟩
  | .error _, _ => isFalse fun admissible => by
      rw [admissible.durability] at h
      cases h
  | _, some _ => isFalse fun admissible => by
      rw [admissible.checked] at h'
      cases h'

def keepAdmissible (kept : List (AppendRequest × Timestamp)) (input : AppendRequest × Timestamp) :
    List (AppendRequest × Timestamp) :=
  if Admissible input.1 ∧ ∀ earlier ∈ kept, earlier.1.eventId ≠ input.1.eventId then
    kept ++ [input]
  else kept

def admitted (inputs : List (AppendRequest × Timestamp)) : List (AppendRequest × Timestamp) :=
  inputs.foldl keepAdmissible []

/-- What an event and the input it came from have in common. -/
def EventInput (event : EventEnvelope) (input : AppendRequest × Timestamp) : Prop :=
  event.eventId = input.1.eventId ∧ event.payload = input.1.payload ∧ event.timestamp = input.2

theorem exists_mem_of_forall₂ {α β : Type*} (rel : α → β → Prop) {xs : List α} {ys : List β}
    (related : List.Forall₂ rel xs ys) {y : β} (present : y ∈ ys) : ∃ x ∈ xs, rel x y := by
  induction related with
  | nil => cases present
  | cons head _ ih =>
      rcases List.mem_cons.mp present with rfl | later
      · exact ⟨_, List.mem_cons_self, head⟩
      · obtain ⟨x, member, holds⟩ := ih later
        exact ⟨x, List.mem_cons_of_mem _ member, holds⟩

/-- The state of a run of appends on an empty directory. -/
structure Progress (maxEvents : UInt64) (attempts : List Attempt) (store : FileEventStore) :
    Prop where
  written : store.Written maxEvents
  reports : store.index.memory.events.map EventEnvelope.durable = accepted attempts
  inputs : List.Forall₂ EventInput store.index.memory.events
    (admitted (attempts.map Prod.fst))
  count : store.index.memory.events.length ≤ attempts.length
  faithful : (∀ input ∈ admitted (attempts.map Prod.fst), Storable input.1 input.2) →
    store.Faithful ∧ ∀ event ∈ store.index.memory.events, LogWire.Writable event.record

variable (maxEvents : UInt64)

theorem opened_progress :
    Progress maxEvents [] (create maxEvents none).opened where
  written := opened_written maxEvents
  reports := rfl
  inputs := .nil
  count := le_rfl
  faithful := fun _ => ⟨(recover_faithful maxEvents none {} rfl).1, fun _ present => by cases present⟩

theorem newEvent_durable {store : FileEventStore} (synced : store.index.Synced)
    (request : AppendRequest) (now : Timestamp) (watermark : Nat) (achieved : Durability) :
    (store.newEvent request now).durable = reported request now
      ⟨request.eventId, store.index.nextSession request.sessionId + 1,
        request.taskId.map fun task => store.index.nextTask task + 1, watermark, achieved⟩ := by
  simp only [newEvent, MemoryEventStore.stamped, synced.sessions, synced.tasks]
  rfl

section Step
variable {maxEvents : UInt64} {attempts : List Attempt} {store : FileEventStore}
  (progress : Progress maxEvents attempts store)
include progress

variable (id : EventId)

theorem Progress.taken_iff :
    store.index.integrityById id ≠ none ↔ ∃ event ∈ store.index.memory.events,
      event.eventId = id := by
  have synced := progress.written.synced
  rw [synced.digests, ne_eq, Option.map_eq_none_iff, ← ne_eq, Option.ne_none_iff_exists']
  simp only [synced.consistent.found]

theorem Progress.taken_admitted (taken : store.index.integrityById id ≠ none) :
    ∃ earlier ∈ admitted (attempts.map Prod.fst), earlier.1.eventId = id := by
  obtain ⟨event, present, same⟩ := (progress.taken_iff id).mp taken
  obtain ⟨input, member, pair⟩ :=
    exists_mem_of_forall₂ (flip EventInput) progress.inputs.flip present
  exact ⟨input, member, pair.1.symm.trans same⟩

theorem Progress.free_admitted (free : store.index.integrityById id = none) :
    ∀ earlier ∈ admitted (attempts.map Prod.fst), earlier.1.eventId ≠ id := by
  intro earlier present same
  obtain ⟨event, member, pair⟩ := exists_mem_of_forall₂ EventInput progress.inputs present
  exact (progress.taken_iff id).mpr ⟨event, member, pair.1.trans same⟩ free

theorem Progress.unchanged (input : AppendRequest × Timestamp) (result : Result AppendReceipt)
    (known : Admissible input.1 → store.index.integrityById input.1.eventId ≠ none)
    (answered : ∀ receipt, result = .ok receipt → Admissible input.1) :
    Progress maxEvents (attempts ++ [(input, result)]) store := by
  have kept : admitted ((attempts ++ [(input, result)]).map Prod.fst) =
      admitted (attempts.map Prod.fst) := by
    rw [List.map_append, admitted, List.foldl_append]
    refine if_neg ?_
    rintro ⟨admissible, distinct⟩
    obtain ⟨earlier, present, same⟩ := progress.taken_admitted _ (known admissible)
    exact distinct earlier present same
  refine ⟨progress.written, ?_, kept ▸ progress.inputs, ?_, kept ▸ progress.faithful⟩
  · rw [progress.reports, accepted, accepted, List.foldl_append]
    cases result with
    | error reason => rfl
    | ok receipt =>
        obtain ⟨event, present, same⟩ :=
          (progress.taken_iff _).mp (known (answered receipt rfl))
        refine (if_pos ?_).symm
        rw [List.any_eq_true]
        refine ⟨event.durable, ?_, decide_eq_true same⟩
        change _ ∈ accepted attempts
        rw [← progress.reports]
        exact List.mem_map_of_mem present
  · rw [List.length_append]
    exact le_trans progress.count (Nat.le_add_right _ _)

variable (request : AppendRequest) (now : Timestamp)

theorem Progress.extended (admissible : Admissible request)
    (absent : store.index.integrityById request.eventId = none)
    (room : store.index.memory.events.length < maxEvents.toNat) :
    Progress maxEvents (attempts ++ [((request, now), (store.indexAppended request now).2)])
      (store.indexAppended request now).1 := by
  have synced := progress.written.synced
  obtain ⟨written, events⟩ := progress.written.appended now admissible absent room
  have grown : admitted ((attempts ++ [((request, now),
      (store.indexAppended request now).2)]).map Prod.fst) =
        admitted (attempts.map Prod.fst) ++ [(request, now)] := by
    rw [List.map_append, admitted, List.foldl_append]
    exact if_pos ⟨admissible, progress.free_admitted _ absent⟩
  refine ⟨written, ?_, ?_, ?_, ?_⟩
  · rw [events, List.map_append, progress.reports, accepted, accepted, List.foldl_append,
      indexAppended_ok admissible synced absent (progress.written.capacity ▸ room) now]
    refine Eq.trans ?_ (if_neg ?_).symm
    · exact congrArg (accepted attempts ++ [·]) (newEvent_durable synced request now _ _)
    · intro known
      change ((accepted attempts).any _) = true at known
      rw [← progress.reports, List.any_map, List.any_eq_true] at known
      obtain ⟨event, present, same⟩ := known
      exact (progress.taken_iff _).mpr ⟨event, present, of_decide_eq_true same⟩ absent
  · rw [events, grown]
    exact List.rel_append progress.inputs (.cons ⟨rfl, rfl, rfl⟩ .nil)
  · rw [events, List.length_append, List.length_append]
    exact Nat.add_le_add_right progress.count 1
  · intro storable
    rw [grown] at storable
    obtain ⟨faithful, each⟩ :=
      progress.faithful fun input present => storable input (by simp [present])
    have own : Storable request now := storable (request, now) (by simp)
    rw [← progress.written.capacity] at room
    refine ⟨faithful.appended admissible own absent room, fun event present => ?_⟩
    rw [events] at present
    rcases List.mem_append.mp present with old | new
    · exact each event old
    · rw [List.mem_singleton.mp new]
      exact newEvent_writable synced room now admissible own

theorem Progress.append
    (room : Admissible request → store.index.integrityById request.eventId = none →
      store.index.memory.events.length < maxEvents.toNat) :
    Progress maxEvents (attempts ++ [((request, now), (store.append request now).2)])
      (store.append request now).1 := by
  have outcome := store.append_outcome request now progress.written.loaded
    progress.written.writable
  generalize store.append request now = result at outcome
  cases outcome with
  | refused reason cause =>
      exact progress.unchanged (request, now) _ cause fun _ impossible => by cases impossible
  | repeated event admissible found =>
      refine progress.unchanged (request, now) _ (fun _ => ?_) fun _ _ => admissible
      rw [progress.written.synced.digests, found]
      exact Option.some_ne_none _
  | written admissible absent =>
      exact progress.extended request now admissible absent (room admissible absent)

end Step

def appendStep (store : FileEventStore) (input : AppendRequest × Timestamp) :
    FileEventStore × Result AppendReceipt :=
  store.append input.1 input.2

def attemptsOf (store : FileEventStore) (inputs : List (AppendRequest × Timestamp)) :
    List Attempt :=
  Execution.trace appendStep store inputs

variable (store : FileEventStore) (inputs : List (AppendRequest × Timestamp))

theorem attemptsOf_fst : (attemptsOf store inputs).map Prod.fst = inputs :=
  Execution.trace_map_fst appendStep store inputs

theorem Progress.run {maxEvents : UInt64} {attempts : List Attempt} {store : FileEventStore}
    (progress : Progress maxEvents attempts store) (inputs : List (AppendRequest × Timestamp))
    (ample : attempts.length + inputs.length ≤ maxEvents.toNat) :
    Progress maxEvents (attempts ++ attemptsOf store inputs)
      (Execution.run appendStep store inputs) := by
  induction inputs generalizing attempts store with
  | nil =>
      rw [attemptsOf, Execution.trace, List.append_nil]
      exact progress
  | cons input rest ih =>
      rw [List.length_cons] at ample
      have count := progress.count
      have next := progress.append input.1 input.2 fun _ _ => by omega
      have later := ih next (by rw [List.length_append, List.length_singleton]; omega)
      rw [List.append_assoc] at later
      exact later

/-- An append that is refused for its durability does not even open the store; every
other append begins by opening it. -/
theorem append_of_opened (request : AppendRequest) (now : Timestamp) :
    store.append request now = store.opened.append request now ∨
      ((store.append request now).1 = store ∧
        (store.opened.append request now).1 = store.opened ∧
        (store.append request now).2 = (store.opened.append request now).2 ∧
        ∃ reason, (store.append request now).2 = .error reason) := by
  unfold append
  split
  · exact .inr ⟨rfl, rfl, rfl, _, rfl⟩
  · rw [opened_opened]
    exact .inl rfl

theorem run_opened (quiet : store.opened.reopen = store.reopen) :
    (Execution.run appendStep store inputs).reopen =
        (Execution.run appendStep store.opened inputs).reopen ∧
      attemptsOf store inputs = attemptsOf store.opened inputs := by
  induction inputs with
  | nil => exact ⟨quiet.symm, rfl⟩
  | cons input rest ih =>
      simp only [Execution.run, attemptsOf, Execution.trace]
      rcases store.append_of_opened input.1 input.2 with same | ⟨kept, kept', answer, _⟩
      · rw [show appendStep store input = appendStep store.opened input from same]
        exact ⟨rfl, rfl⟩
      · rw [show (appendStep store input).1 = store from kept,
          show (appendStep store.opened input).1 = store.opened from kept',
          show (appendStep store input).2 = (appendStep store.opened input).2 from answer]
        exact ⟨ih.1, congrArg (_ :: ·) ih.2⟩

theorem Accounts.storable {maxEvents : UInt64} {texts : List Bytes} {index : StoreIndex}
    (accounts : Accounts (freshIndex maxEvents) (LogWire.header :: texts) index) :
    ∀ event ∈ index.memory.events, Storable event.request event.timestamp := by
  have first := readLine_header_line (freshIndex maxEvents) rfl
  cases accounts with
  | blank verdict => rw [first] at verdict; cases verdict
  | record verdict => rw [first] at verdict; cases verdict
  | transition _ rest =>
      refine (rest.invariant (fun index => index.v2 = true ∧
        ∀ event ∈ index.memory.events, Storable event.request event.timestamp)
        (fun index holds => ⟨rfl, holds.2⟩) ?_ (freshIndex_synced maxEvents).marked
        ⟨rfl, by simp [freshIndex]⟩).2.2
      rintro index text record ⟨v2, each⟩ _ decoded _
      rw [if_pos v2] at decoded
      obtain ⟨type, data, wall⟩ := LogWire.decodeV2_sound text record decoded
      refine ⟨v2, fun event present => ?_⟩
      rw [StoreIndex.extend_events] at present
      rcases List.mem_append.mp present with old | new
      · exact each event old
      · rw [List.mem_singleton.mp new]
        exact ⟨type, data, wall⟩

variable (events : List EventEnvelope)

theorem logTexts_logBytes (some_ : events ≠ []) :
    ∃ texts, logTexts (logBytes events) = LogWire.header :: texts := by
  obtain ⟨first, rest, rfl⟩ := List.exists_cons_of_ne_nil some_
  refine ⟨logTexts (Lines.terminate 10
    (LogWire.records :: (first :: rest).map EventEnvelope.line)), ?_⟩
  rw [logBytes, logLines, Lines.terminate, List.flatMap_cons, List.append_assoc, List.singleton_append, logTexts,
    getLines, Lines.split_line 10 _ _ (by decide), List.map_cons]
  · rfl
  · exact some_

theorem storable_of_clean (some_ : events ≠ []) (options : RecoveryOptions)
    (clean : ((create maxEvents (some (logBytes events))).recover options).2.status = .clean) :
    ∀ event ∈ ((create maxEvents (some (logBytes events))).recover options).1.index.memory.events,
      Storable event.request event.timestamp := by
  obtain ⟨first, last, index, whole, accounts, ends⟩ :=
    recover_ends maxEvents (logBytes events) options
  generalize (create maxEvents (some (logBytes events))).recover options = result at ends clean
  cases ends with
  | clean complete _ _ rebuilt =>
      rw [List.isEmpty_iff] at complete
      rw [complete, List.append_nil] at whole
      obtain ⟨texts, shape⟩ := logTexts_logBytes events some_
      rw [← whole, show (getLines (logBytes events)).map lineText = _ from shape] at accounts
      rw [rebuilt]
      exact Accounts.storable accounts
  | truncated _ status => rw [clean] at status; cases status
  | stopped status => rw [clean] at status; rcases status with h | h <;> cases h

section Durable
variable (maxEvents : UInt64) (inputs : List (AppendRequest × Timestamp))

/-- A new object on the log of the run recovers clean and holds exactly the events
that the answers of the run report. -/
def Survives (store : FileEventStore) (attempts : List Attempt) : Prop :=
  (store.reopen.recover).2.status = .clean ∧
    (store.reopen.recover).1.index.memory.events.map EventEnvelope.durable = accepted attempts

variable {maxEvents} {attempts : List Attempt} {store : FileEventStore}

theorem Progress.survives (progress : Progress maxEvents attempts store)
    (storable : ∀ input ∈ admitted (attempts.map Prod.fst), Storable input.1 input.2) :
    Survives store attempts := by
  obtain ⟨clean, same, _⟩ := (progress.faithful storable).1.reopened {}
  refine ⟨clean, ?_⟩
  rw [← progress.reports]
  exact congrArg (·.memory.events) same

theorem Progress.storable (progress : Progress maxEvents attempts store)
    (survives : Survives store attempts) :
    ∀ input ∈ admitted (attempts.map Prod.fst), Storable input.1 input.2 := by
  obtain ⟨clean, same⟩ := survives
  intro input present
  obtain ⟨event, listed, _, payload, time⟩ := exists_mem_of_forall₂ EventInput progress.inputs present
  have some_ : store.index.memory.events ≠ [] := List.ne_nil_of_mem listed
  -- The log is there, since it holds an event.
  have log : store.log = some (logBytes store.index.memory.events) := by
    have text := progress.written.log
    cases h : store.log with
    | some log => rw [h] at text; exact congrArg some text
    | none =>
        rw [h] at text
        obtain ⟨texts, shape⟩ := logTexts_logBytes _ some_
        rw [← text] at shape
        cases shape
  have whole : store.reopen = create store.index.memory.maxEvents
      (some (logBytes store.index.memory.events)) := by rw [reopen, log]
  rw [whole] at clean same
  have recovered := storable_of_clean _ _ some_ {} clean
  rw [← progress.reports] at same
  have kept : event.durable ∈ store.index.memory.events.map EventEnvelope.durable :=
    List.mem_map_of_mem listed
  rw [← same] at kept
  obtain ⟨other, found, agree⟩ := List.mem_map.mp kept
  have stored := recovered other found
  have payload' : other.payload = event.payload := congrArg (·.payload) agree
  have wall : other.timestamp.wall = event.timestamp.wall := congrArg (·.timestamp.wall) agree
  refine ⟨?_, ?_, ?_⟩
  · have type := stored.type
    change ValidUtf8 other.payload.type at type
    rw [payload'] at type
    exact payload ▸ type
  · have data := stored.data
    change ValidUtf8 other.payload.data at data
    rw [payload'] at data
    exact payload ▸ data
  · have wall_ := stored.wall
    rw [wall] at wall_
    exact time ▸ wall_

end Durable

theorem progress_of_run (ample : inputs.length ≤ maxEvents.toNat) :
    Progress maxEvents (attemptsOf (create maxEvents none) inputs)
        (Execution.run appendStep (create maxEvents none).opened inputs) ∧
      (Execution.run appendStep (create maxEvents none) inputs).reopen =
        (Execution.run appendStep (create maxEvents none).opened inputs).reopen := by
  obtain ⟨reopened, attempts⟩ := run_opened (create maxEvents none) inputs rfl
  refine ⟨?_, reopened⟩
  rw [attempts]
  exact (opened_progress maxEvents).run inputs (by simpa using ample)

/-- Over every run of appends on an empty directory within the capacity, the events
survive a reopen exactly if every admitted request can be stored. -/
theorem durable_append_survives_reopen (maxEvents : UInt64)
    (inputs : List (AppendRequest × Timestamp)) (ample : inputs.length ≤ maxEvents.toNat) :
    Survives (Execution.run appendStep (create maxEvents none) inputs)
        (attemptsOf (create maxEvents none) inputs) ↔
      ∀ input ∈ admitted inputs, Storable input.1 input.2 := by
  obtain ⟨progress, reopened⟩ := progress_of_run maxEvents inputs ample
  unfold Survives
  rw [reopened]
  constructor
  · intro survives
    have storable := progress.storable survives
    rwa [attemptsOf_fst] at storable
  · intro storable
    refine progress.survives ?_
    rwa [attemptsOf_fst]

def sampleRequest (event : UInt8) (data : Bytes) : AppendRequest :=
  { eventId := .filled event, runtimeId := .filled 1, sessionId := .filled 1
    payload := { type := ascii "note", data := data } }

theorem sampleRequest_storable (event : UInt8) (data : Bytes) (text : ValidUtf8 data) :
    Storable (sampleRequest event data) {} :=
  ⟨validUtf8_printable_ascii (ascii "note") (by decide), text, by decide⟩

theorem text_append_survives :
    Survives (Execution.run appendStep (create 1 none) [(sampleRequest 1 (ascii "x"), {})])
        (attemptsOf (create 1 none) [(sampleRequest 1 (ascii "x"), {})]) := by
  refine (durable_append_survives_reopen 1 _ (by decide)).mpr fun input present => ?_
  have own : input = (sampleRequest 1 (ascii "x"), {}) := by
    have kept : admitted [(sampleRequest 1 (ascii "x"), {})] =
        [(sampleRequest 1 (ascii "x"), {})] := by decide +kernel
    rw [kept] at present
    exact List.mem_singleton.mp present
  rw [own]
  exact sampleRequest_storable 1 _ (validUtf8_printable_ascii _ (by decide +kernel))

/-- A payload byte that no UTF-8 text holds makes the record unreadable, although the
append was answered with success. -/
theorem raw_append_lost :
    ¬ Survives (Execution.run appendStep (create 1 none) [(sampleRequest 1 [0xff], {})])
        (attemptsOf (create 1 none) [(sampleRequest 1 [0xff], {})]) := by
  obtain ⟨progress, reopened⟩ := progress_of_run 1 [(sampleRequest 1 [0xff], {})] (by decide)
  unfold Survives
  rw [reopened]
  intro survives
  have storable := progress.storable survives
  rw [attemptsOf_fst] at storable
  have kept : (sampleRequest 1 [0xff], {}) ∈ admitted [(sampleRequest 1 [0xff], {})] := by
    decide +kernel
  exact not_validUtf8_single 0xff (by decide) (storable _ kept).data

end FileEventStore

end Mira.Events
