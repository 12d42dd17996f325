import Mira.Events.Reopen

/-!
The in-memory store and the file store side by side, from empty ones. A request that is valid for
one and not for the other tells them apart where the stores have room, and a full file store is
lost with the request that finds it full.
-/

namespace Mira.Events
open Mira Bytes FileEventStore

def memoryAppend (store : MemoryEventStore) (input : AppendRequest × Timestamp) :
    MemoryEventStore × Result AppendReceipt :=
  store.append input.1 input.2

/-- What of an answer the two stores are compared by. -/
def answered (answer : Result AppendReceipt) : Option (Nat × Option Nat) :=
  answer.toOption.map fun receipt => (receipt.sessionSequence, receipt.taskSequence)

/-- From two stores on, the requests are answered alike and then all pages are the same. -/
structure Alike (memory : MemoryEventStore) (file : FileEventStore)
    (inputs : List (AppendRequest × Timestamp)) : Prop where
  answers : (Execution.outputs memoryAppend memory inputs).map answered =
    (Execution.outputs appendStep file inputs).map answered
  pages : ∀ query, ((Execution.run appendStep file inputs).read query).2 =
    .ok ((Execution.run memoryAppend memory inputs).read query)

/-- A request that only the file store refuses for what it is. -/
def FileRefuses (request : AppendRequest) : Prop :=
  request.taskId.any StrongId.isNil = true ∨
    (parseEventClass request.payload.classification.value.toNat).toOption = none

instance decidableFileRefuses (request : AppendRequest) : Decidable (FileRefuses request) :=
  inferInstanceAs (Decidable (_ ∨ _))

/-- A new request is valid for the file store where there is room, and only there. -/
def LicensedAppend (memory : MemoryEventStore) (input : AppendRequest × Timestamp) : Prop :=
  ¬(input.1.eventId.isNil = true ∨ input.1.runtimeId.isNil = true ∨
      input.1.sessionId.isNil = true) →
    memory.find input.1.eventId = none →
      (FileRefuses input.1 ↔ memory.maxEvents.toNat ≤ memory.events.length)

instance decidableLicensedAppend (memory : MemoryEventStore) (input : AppendRequest × Timestamp) :
    Decidable (LicensedAppend memory input) :=
  inferInstanceAs (Decidable (_ → _ → _))

/-- The file store mirrors the in-memory store, and both hold only what the file store admits. -/
structure Coupled (memory : MemoryEventStore) (file : FileEventStore) : Prop where
  loaded : file.loaded = true
  writable : file.readOnly = false
  synced : file.index.Synced
  mirrors : file.index.memory = memory
  admitted : ∀ event ∈ memory.events, ¬FileRefuses event.request

variable {memory : MemoryEventStore} {file : FileEventStore} {request : AppendRequest}
  {now : Timestamp} {inputs : List (AppendRequest × Timestamp)}

theorem requestError_eq (ids : ¬(request.eventId.isNil = true ∨ request.runtimeId.isNil = true ∨
    request.sessionId.isNil = true)) :
    requestError request = if FileRefuses request then
      some (storeError .invalidArgument "event task or classification is invalid") else none := by
  rw [requestError, if_neg ids]
  rfl

theorem fileRefuses_same {event : EventEnvelope} (same : sameRequest event request = true) :
    FileRefuses request ↔ FileRefuses event.request := by
  simp only [sameRequest, Bool.and_eq_true, decide_eq_true_eq] at same
  rw [FileRefuses, FileRefuses, EventEnvelope.request, same.1.1.2, same.2]

namespace Coupled
variable (coupled : Coupled memory file)
include coupled

theorem opened : file.opened = file := if_pos coupled.loaded

theorem consistent : memory.Consistent := coupled.mirrors ▸ coupled.synced.consistent

theorem append_eq (buffered : request.required = .buffered) :
    file.append request now =
      match requestError request with
      | some reason => (file, .error reason)
      | none =>
          match file.index.integrityById request.eventId with
          | some existing => (file, file.duplicate request existing)
          | none => file.indexAppended request now := by
  rw [append, buffered]
  simp only [fileDurability, validDurability, coupled.opened, coupled.writable]
  rfl

theorem nil_ids (now : Timestamp) (buffered : request.required = .buffered)
    (ids : request.eventId.isNil = true ∨ request.runtimeId.isNil = true ∨
      request.sessionId.isNil = true) :
    (∃ reason, memory.append request now = (memory, .error reason)) ∧
      ∃ reason, file.append request now = (file, .error reason) := by
  have checked : requestError request =
      some (storeError .invalidArgument "event, runtime, and session IDs must be non-nil") :=
    if_pos ids
  constructor
  · rw [MemoryEventStore.append, MemoryEventStore.appendStamped, buffered, if_neg (by decide),
      if_pos ids]
    exact ⟨_, rfl⟩
  · rw [coupled.append_eq buffered, checked]
    exact ⟨_, rfl⟩

theorem known (now : Timestamp) (buffered : request.required = .buffered)
    (ids : ¬(request.eventId.isNil = true ∨ request.runtimeId.isNil = true ∨
      request.sessionId.isNil = true))
    {event : EventEnvelope} (found : memory.find request.eventId = some event) :
    (memory.append request now).1 = memory ∧ (file.append request now).1 = file ∧
      answered (memory.append request now).2 = answered (file.append request now).2 := by
  obtain ⟨present, own⟩ := (coupled.consistent.found _ _).mp found
  have digest : file.index.integrityById request.eventId = some event.integrity := by
    rw [coupled.synced.digests, coupled.mirrors, found]
    rfl
  have integrity := coupled.consistent.digests event present
  rw [coupled.append_eq buffered, requestError_eq ids, digest, MemoryEventStore.append,
    MemoryEventStore.appendStamped, buffered, if_neg (by decide), if_neg ids, found]
  simp only [duplicate, coupled.mirrors, found]
  by_cases same : sameRequest event request = true
  · have admitted : ¬FileRefuses request := fun refuses =>
      coupled.admitted event present ((fileRefuses_same same).mp refuses)
    have digests : event.integrity = digestString (canonicalRequest request) := by
      rw [integrity, canonicalRequest_of_same event request same]
    rw [if_neg admitted, if_pos ⟨same, digests⟩]
    simp [same, digests, answered]
    rfl
  · rw [if_neg fun both => same both.1]
    simp only [same, if_true]
    split
    · exact ⟨trivial, rfl, rfl⟩
    · split
      · exact ⟨trivial, rfl, rfl⟩
      · exact ⟨trivial, rfl, rfl⟩

section New
variable (buffered : request.required = .buffered)
  (ids : ¬(request.eventId.isNil = true ∨ request.runtimeId.isNil = true ∨
    request.sessionId.isNil = true))
  (fresh : memory.find request.eventId = none)
include buffered ids fresh

theorem file_new : file.append request now =
    if FileRefuses request then
      (file, .error (storeError .invalidArgument "event task or classification is invalid"))
    else file.indexAppended request now := by
  have absent : file.index.integrityById request.eventId = none := by
    rw [coupled.synced.digests, coupled.mirrors, fresh]
    rfl
  rw [coupled.append_eq buffered, requestError_eq ids, absent]
  split
  · next checked =>
      split at checked
      · next refuses =>
          cases checked
          rw [if_pos refuses]
      · cases checked
  · next checked =>
      split at checked
      · cases checked
      · next admits => rw [if_neg admits]

omit coupled in
theorem memory_full (full : memory.maxEvents.toNat ≤ memory.events.length) :
    memory.append request now =
      (memory, .error (storeError .resourceExhausted "event store capacity exhausted" true)) := by
  rw [MemoryEventStore.append, MemoryEventStore.appendStamped, buffered, if_neg (by decide),
    if_neg ids, fresh]
  exact if_pos full

theorem both_append (admits : ¬FileRefuses request)
    (room : memory.events.length < memory.maxEvents.toNat) :
    Coupled (memory.append request now).1 (file.append request now).1 ∧
      answered (memory.append request now).2 = answered (file.append request now).2 := by
  have admissible : Admissible request :=
    ⟨by rw [buffered]; rfl, by rw [requestError_eq ids, if_neg admits]⟩
  have absent : file.index.integrityById request.eventId = none := by
    rw [coupled.synced.digests, coupled.mirrors, fresh]
    rfl
  have room' : file.index.memory.events.length < file.index.memory.maxEvents.toNat :=
    coupled.mirrors ▸ room
  have fits := newRecord_fits coupled.synced absent room' now
  have pushed := StoreIndex.appendStamped_pushed memory request now .appendProcess admissible.valid
    ids fresh room
  rw [coupled.file_new buffered ids fresh, if_neg admits,
    indexAppended_ok admissible coupled.synced absent room' now, MemoryEventStore.append, pushed]
  constructor
  · refine ⟨coupled.loaded, coupled.writable, (coupled.synced.extend fits _).marked, ?_, ?_⟩
    · rw [← coupled.mirrors]
      rfl
    · intro event present
      cases List.mem_append.mp present with
      | inl old => exact coupled.admitted event old
      | inr last =>
          rw [List.mem_singleton.mp last]
          exact admits
  · rw [← coupled.mirrors, ← coupled.synced.sessions, ← coupled.synced.tasks]
    rfl

theorem full_lost (admits : ¬FileRefuses request)
    (full : memory.maxEvents.toNat ≤ memory.events.length) :
    (file.append request now).1.loaded = true ∧ (file.append request now).1.readOnly = true := by
  have refused : file.index.memory.appendStamped request now .appendProcess =
      (memory, .error (storeError .resourceExhausted "event store capacity exhausted" true)) := by
    rw [coupled.mirrors]
    exact memory_full buffered ids fresh full
  rw [coupled.file_new buffered ids fresh, if_neg admits, indexAppended]
  simp only [refused]
  exact ⟨coupled.loaded, trivial⟩

end New

theorem append_licensed (buffered : request.required = .buffered)
    (licensed : LicensedAppend memory (request, now)) :
    Coupled (memory.append request now).1 (file.append request now).1 ∧
      answered (memory.append request now).2 = answered (file.append request now).2 := by
  by_cases ids : request.eventId.isNil = true ∨ request.runtimeId.isNil = true ∨
      request.sessionId.isNil = true
  · obtain ⟨⟨reason, memory_⟩, ⟨reason', file_⟩⟩ := coupled.nil_ids now buffered ids
    rw [memory_, file_]
    exact ⟨coupled, rfl⟩
  · cases found : memory.find request.eventId with
    | some event =>
        obtain ⟨memory_, file_, same⟩ := coupled.known now buffered ids found
        rw [memory_, file_]
        exact ⟨coupled, same⟩
    | none =>
        have licensed := licensed ids found
        by_cases refuses : FileRefuses request
        · rw [memory_full buffered ids found (licensed.mp refuses),
            coupled.file_new buffered ids found, if_pos refuses]
          exact ⟨coupled, rfl⟩
        · exact coupled.both_append buffered ids found refuses
            (Nat.not_le.mp (mt licensed.mpr refuses))

theorem append_unlicensed (buffered : request.required = .buffered)
    (unlicensed : ¬LicensedAppend memory (request, now)) :
    answered (memory.append request now).2 ≠ answered (file.append request now).2 ∨
      ((file.append request now).1.loaded = true ∧ (file.append request now).1.readOnly = true) := by
  simp only [LicensedAppend] at unlicensed
  push Not at unlicensed
  obtain ⟨ids, found, differs⟩ := unlicensed
  have ids : ¬(request.eventId.isNil = true ∨ request.runtimeId.isNil = true ∨
      request.sessionId.isNil = true) := by
    simpa only [not_or] using ids
  by_cases refuses : FileRefuses request
  · have room : memory.events.length < memory.maxEvents.toNat := by
      by_contra full
      exact differs.elim (fun case => absurd case.2 full) fun case => case.1 refuses
    left
    rw [coupled.file_new buffered ids found, if_pos refuses, MemoryEventStore.append,
      StoreIndex.appendStamped_pushed memory request now .appendProcess
        (by rw [buffered]; rfl) ids found room]
    exact Option.some_ne_none _
  · have full : memory.maxEvents.toNat ≤ memory.events.length := by
      by_contra room
      exact differs.elim (fun case => refuses case.1) fun case => room case.2
    exact .inr (coupled.full_lost buffered ids found refuses full)

end Coupled

theorem append_lost (loaded : file.loaded = true) (lost : file.readOnly = true) (request : AppendRequest)
    (now : Timestamp) : (file.append request now).1 = file := by
  have opened : file.opened = file := if_pos loaded
  rw [append]
  split
  · rfl
  · rw [opened]
    exact congrArg Prod.fst (if_pos lost)

theorem run_lost (loaded : file.loaded = true) (lost : file.readOnly = true)
    (inputs : List (AppendRequest × Timestamp)) : Execution.run appendStep file inputs = file := by
  induction inputs with
  | nil => rfl
  | cons input rest ih =>
      rw [Execution.run, appendStep, append_lost loaded lost]
      exact ih

theorem alike_iff (coupled : Coupled memory file)
    (buffered : ∀ input ∈ inputs, input.1.required = .buffered) :
    Alike memory file inputs ↔ Execution.Guarded memoryAppend LicensedAppend memory inputs := by
  induction inputs generalizing memory file with
  | nil =>
      refine ⟨fun _ => trivial, fun _ => ⟨rfl, ?_⟩⟩
      intro query
      rw [Execution.run, Execution.run, FileEventStore.read, coupled.opened, coupled.writable,
        coupled.mirrors]
      rfl
  | cons input rest ih =>
      have own := buffered input List.mem_cons_self
      have others := fun later among => buffered later (List.mem_cons_of_mem _ among)
      have split : Alike memory file (input :: rest) ↔
          answered (memory.append input.1 input.2).2 = answered (file.append input.1 input.2).2 ∧
            Alike (memory.append input.1 input.2).1 (file.append input.1 input.2).1 rest := by
        constructor
        · intro alike
          obtain ⟨first, later⟩ := List.cons.inj alike.answers
          exact ⟨first, later, alike.pages⟩
        · rintro ⟨first, later⟩
          exact ⟨congrArg₂ List.cons first later.answers, later.pages⟩
      rw [split]
      by_cases licensed : LicensedAppend memory input
      · obtain ⟨next, same⟩ := coupled.append_licensed own licensed
        rw [ih next others]
        exact ⟨fun both => ⟨licensed, both.2⟩, fun guarded => ⟨same, guarded.2⟩⟩
      · refine iff_of_false ?_ fun guarded => licensed guarded.1
        rintro ⟨same, later⟩
        cases coupled.append_unlicensed own licensed with
        | inl differs => exact differs same
        | inr lost =>
            have pages := later.pages ⟨⟨.nil⟩, none, 0⟩
            have opened : (file.append input.1 input.2).1.opened = (file.append input.1 input.2).1 :=
              if_pos lost.1
            rw [run_lost lost.1 lost.2, FileEventStore.read, opened, if_pos lost.2] at pages
            cases pages

theorem alike_opened (buffered : ∀ input ∈ inputs, input.1.required = .buffered) :
    Alike memory file inputs ↔ Alike memory file.opened inputs := by
  cases inputs with
  | nil =>
      have same (query : MemoryEventStore.EventQuery) :
          (file.read query).2 = (file.opened.read query).2 := by
        rw [FileEventStore.read, FileEventStore.read, opened_opened]
      constructor
      · exact fun alike => ⟨rfl, fun query => (same query).symm.trans (alike.pages query)⟩
      · exact fun alike => ⟨rfl, fun query => (same query).trans (alike.pages query)⟩
  | cons input rest =>
      have first : appendStep file input = appendStep file.opened input := by
        rw [appendStep, appendStep, append, append, buffered input List.mem_cons_self, opened_opened]
        rfl
      have outputs : Execution.outputs appendStep file (input :: rest) =
          Execution.outputs appendStep file.opened (input :: rest) := by
        simp only [Execution.outputs, first]
      have ends : Execution.run appendStep file (input :: rest) =
          Execution.run appendStep file.opened (input :: rest) := by
        simp only [Execution.run, first]
      constructor
      · exact fun alike => ⟨outputs ▸ alike.answers, ends ▸ alike.pages⟩
      · exact fun alike => ⟨outputs ▸ alike.answers, ends ▸ alike.pages⟩

theorem coupled_empty (maxEvents : UInt64) :
    Coupled { maxEvents := maxEvents } (create maxEvents none).opened where
  loaded := opened_loaded _
  writable := rfl
  synced := freshIndex_synced maxEvents
  mirrors := rfl
  admitted := fun _ absent => absurd absent List.not_mem_nil

/-- Over every sequence of requests, the two stores answer alike and then give the same pages
exactly if each new request is valid for the file store where there is room and nowhere else. -/
theorem stores_alike (maxEvents : UInt64) (inputs : List (AppendRequest × Timestamp))
    (buffered : ∀ input ∈ inputs, input.1.required = .buffered) :
    Alike { maxEvents := maxEvents } (create maxEvents none) inputs ↔
      Execution.Guarded memoryAppend LicensedAppend { maxEvents := maxEvents } inputs :=
  (alike_opened buffered).trans (alike_iff (coupled_empty maxEvents) buffered)

def bufferedRequest (event : UInt8) (task : Option TaskId) : AppendRequest :=
  { sampleRequest event (ascii "x") with taskId := task, required := .buffered }

theorem stores_alike_repeated :
    Alike { maxEvents := 2 } (create 2 none)
        [(bufferedRequest 1 none, {}), (bufferedRequest 1 none, {}),
          (bufferedRequest 2 (some (.filled 3)), {}), (bufferedRequest 1 (some (.filled 3)), {})] ↔
      Execution.Guarded memoryAppend LicensedAppend { maxEvents := 2 }
        [(bufferedRequest 1 none, {}), (bufferedRequest 1 none, {}),
          (bufferedRequest 2 (some (.filled 3)), {}), (bufferedRequest 1 (some (.filled 3)), {})] :=
  stores_alike 2 _ (by decide)

/-- A request of a nil task is for the in-memory store alone, and a request too many ends the file
store. -/
theorem stores_differ :
    ((∀ input ∈ [(bufferedRequest 1 (some (.filled 0)), ({} : Timestamp))],
        input.1.required = .buffered) ∧
      ¬Alike { maxEvents := 1 } (create 1 none) [(bufferedRequest 1 (some (.filled 0)), {})]) ∧
    ((∀ input ∈ [(bufferedRequest 1 none, ({} : Timestamp)), (bufferedRequest 2 none, {})],
        input.1.required = .buffered) ∧
      ¬Alike { maxEvents := 1 } (create 1 none)
        [(bufferedRequest 1 none, {}), (bufferedRequest 2 none, {})]) := by
  refine ⟨⟨by decide, ?_⟩, by decide, ?_⟩
  · rw [alike_opened (by decide), alike_iff (coupled_empty 1) (by decide)]
    decide +kernel
  · rw [alike_opened (by decide), alike_iff (coupled_empty 1) (by decide)]
    decide +kernel

end Mira.Events
