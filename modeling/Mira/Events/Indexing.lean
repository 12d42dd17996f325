import Mira.Events.FileStore

/-!
The index of the file store and what the log keeps of it. The index repeats the
counters of the in-memory store and adds a digest for each identifier; the log
keeps all of it but the monotonic clock and the origin of a time, so two indexes
are compared up to these. Recovery and append extend the index by one record in
the same way.
-/

namespace Mira.Events
open Mira

def EventEnvelope.durable (event : EventEnvelope) : EventEnvelope :=
  { event with
    timestamp := { wall := event.timestamp.wall }
    timestampOrigin := .persistedWall }

def MemoryEventStore.durable (store : MemoryEventStore) : MemoryEventStore :=
  { store with events := store.events.map EventEnvelope.durable }

theorem MemoryEventStore.durable_push (store : MemoryEventStore) (event : EventEnvelope) :
    (store.push event).durable = store.durable.push event.durable := by
  simp [push, durable, EventEnvelope.durable]

variable {store : MemoryEventStore}

theorem MemoryEventStore.Consistent.nextSession_le (consistent : store.Consistent)
    (session : SessionId) : store.nextSession session ≤ store.events.length := by
  have count := congrArg List.length (consistent.sessions session)
  rw [List.length_map, List.length_range'] at count
  rw [← count]
  exact List.length_filter_le _ _

theorem MemoryEventStore.Consistent.nextTask_le (consistent : store.Consistent) (task : TaskId) :
    store.nextTask task ≤ store.events.length := by
  have count := congrArg List.length (consistent.tasks task)
  rw [List.length_map, List.length_map, List.length_range'] at count
  rw [← count]
  exact List.length_filter_le _ _

theorem MemoryEventStore.Consistent.sessionSequence_le (consistent : store.Consistent)
    (event : EventEnvelope) (present : event ∈ store.events) :
    event.sessionSequence ≤ store.nextSession event.sessionId := by
  have listed : event.sessionSequence ∈
      (store.events.filter fun other => other.sessionId = event.sessionId).map
        EventEnvelope.sessionSequence :=
    List.mem_map_of_mem (List.mem_filter.mpr ⟨present, by simp⟩)
  rw [consistent.sessions, List.mem_range'_1] at listed
  omega

namespace StoreIndex

def durable (index : StoreIndex) : StoreIndex := { index with memory := index.memory.durable }

/-- The parts of the index agree with each other. -/
structure Synced (index : StoreIndex) : Prop where
  consistent : index.memory.Consistent
  sessions : index.nextSession = index.memory.nextSession
  tasks : index.nextTask = index.memory.nextTask
  digests : ∀ id, index.integrityById id = (index.memory.find id).map EventEnvelope.integrity

def extend (index : StoreIndex) (record : LogWire.Record) (origin : EventTimestampOrigin) :
    StoreIndex :=
  index.note (index.memory.push (index.memory.stamped record.request record.timestamp origin))
    record (record.request.taskId.map fun task => index.nextTask task + 1)

/-- A record that carries the next numbers of its session and its task under an
identifier that is not indexed yet. -/
structure Fits (index : StoreIndex) (record : LogWire.Record) : Prop where
  fresh : index.memory.find record.request.eventId = none
  room : index.memory.events.length < index.memory.maxEvents.toNat
  sequence : record.sequence = index.nextSession record.request.sessionId + 1
  digest : record.requestDigest = digestString (canonicalRequest record.request)

variable {index : StoreIndex} {record : LogWire.Record}

theorem Synced.extend (synced : index.Synced) (fits : index.Fits record)
    (origin : EventTimestampOrigin) :
    (index.extend record origin).Synced where
  consistent := synced.consistent.push (index.memory.stamped_next _ _ _ fits.fresh)
  sessions := by
    change Function.update index.nextSession _ record.sequence =
      Function.update index.memory.nextSession _ (index.memory.nextSession _ + 1)
    rw [fits.sequence, synced.sessions]
    rfl
  tasks := by
    unfold StoreIndex.extend note MemoryEventStore.push
    dsimp only
    rw [synced.tasks]
    cases scope : record.request.taskId with
    | none => simp [MemoryEventStore.stamped, AppendRequest.envelope, scope]
    | some task => simp [MemoryEventStore.stamped, AppendRequest.envelope, scope]
  digests := by
    intro id
    change (if id = record.request.eventId then
      some ((index.integrityById id).getD record.requestDigest) else index.integrityById id) =
        ((index.memory.push _).find id).map EventEnvelope.integrity
    rw [MemoryEventStore.find_push _ _ synced.consistent.indexed]
    by_cases own : id = record.request.eventId
    · have absent : index.integrityById id = none := by
        rw [synced.digests, own, fits.fresh]
        rfl
      rw [if_pos own, absent, if_pos (by exact own)]
      exact congrArg some fits.digest
    · rw [if_neg own, if_neg (by exact own), synced.digests]

theorem extend_events (index : StoreIndex) (record : LogWire.Record)
    (origin : EventTimestampOrigin) :
    (index.extend record origin).memory.events =
      index.memory.events ++ [index.memory.stamped record.request record.timestamp origin] := rfl

theorem extend_durable {other : StoreIndex} (same : index.durable = other.durable)
    (record : LogWire.Record) (origin : EventTimestampOrigin) :
    (index.extend record.stored .persistedWall).durable =
      (other.extend record origin).durable := by
  obtain ⟨memory, v2, nextSession, nextTask, integrity⟩ := index
  obtain ⟨memory', v2', nextSession', nextTask', integrity'⟩ := other
  simp only [durable, StoreIndex.mk.injEq] at same
  obtain ⟨memories, rfl, rfl, rfl, rfl⟩ := same
  have sessions : memory.nextSession = memory'.nextSession :=
    congrArg (·.nextSession) memories
  have tasks : memory.nextTask = memory'.nextTask := congrArg (·.nextTask) memories
  simp only [durable, extend, note, MemoryEventStore.durable_push, memories, StoreIndex.mk.injEq]
  refine ⟨?_, trivial, rfl, rfl, rfl⟩
  congr 1
  simp only [EventEnvelope.durable, MemoryEventStore.stamped, sessions, tasks]
  rfl

/-- What it takes for the recovery loop to index a decoded record. -/
structure Indexable (index : StoreIndex) (record : LogWire.Record) : Prop extends
    index.Fits record where
  task : record.v2 = true →
    record.taskSequence = record.request.taskId.map fun task => index.nextTask task + 1
  durability : validDurability record.request.required = true
  ids : ¬ (record.request.eventId.isNil ∨ record.request.runtimeId.isNil ∨
    record.request.sessionId.isNil)

def recordOrigin (record : LogWire.Record) : EventTimestampOrigin :=
  if record.v2 then .persistedWall else .unavailableLegacy

theorem appendStamped_pushed (store : MemoryEventStore) (request : AppendRequest)
    (timestamp : Timestamp) (origin : EventTimestampOrigin)
    (durability : validDurability request.required = true)
    (ids : ¬ (request.eventId.isNil ∨ request.runtimeId.isNil ∨ request.sessionId.isNil))
    (fresh : store.find request.eventId = none)
    (room : store.events.length < store.maxEvents.toNat) :
    store.appendStamped request timestamp origin =
      (store.push (store.stamped request timestamp origin),
        .ok ⟨request.eventId, store.nextSession request.sessionId + 1,
          request.taskId.map fun task => store.nextTask task + 1,
          store.durableWatermark + 1, .buffered⟩) := by
  unfold MemoryEventStore.appendStamped
  rw [if_neg (by simp [durability]), if_neg ids, fresh]
  dsimp only
  rw [if_neg (by omega)]
  rfl

theorem indexRecord_ok (synced : index.Synced) (fits : index.Indexable record) :
    index.indexRecord record = .ok (index.extend record (recordOrigin record)) := by
  unfold indexRecord
  dsimp only
  rw [if_neg, if_neg (not_not.mpr fits.digest),
    appendStamped_pushed _ _ _ _ fits.durability fits.ids fits.fresh fits.room]
  · dsimp only
    rw [if_pos]
    · rfl
    · exact ⟨by rw [fits.sequence, synced.sessions], by rw [synced.tasks]⟩
  · rintro (other | ⟨v2, other⟩)
    · exact other fits.sequence
    · exact other (fits.task v2)

/-- The recovery loop never indexes an identifier twice: the second record would
have to repeat the number of the first. -/
theorem indexRecord_indexable {index' : StoreIndex} (synced : index.Synced)
    (h : index.indexRecord record = .ok index') :
    index.Indexable record ∧ index' = index.extend record (recordOrigin record) := by
  have outcome := index.memory.appendStamped_cases record.request record.timestamp
    (recordOrigin record)
  have checked := index.memory.appendStamped_checked record.request record.timestamp
    (recordOrigin record)
  unfold indexRecord at h
  dsimp only at h
  split at h
  · cases h
  · next numbered =>
      rw [not_or, not_not, not_and, not_not] at numbered
      split at h
      · cases h
      · next digest =>
          have origin : (if record.v2 = true then EventTimestampOrigin.persistedWall
              else .unavailableLegacy) = recordOrigin record := rfl
          rw [origin] at h
          generalize index.memory.appendStamped record.request record.timestamp
            (recordOrigin record) = result at h outcome checked
          cases outcome with
          | refused => cases h
          | repeated event receipt found same session task =>
              dsimp only at h
              split at h
              · next matched =>
                  have present := (synced.consistent.found _ _).mp found
                  have bound := synced.consistent.sessionSequence_le event present.1
                  have scope : event.sessionId = record.request.sessionId := by
                    simp only [sameRequest, Bool.and_eq_true, decide_eq_true_eq] at same
                    exact same.1.1.1.2
                  rw [scope, ← synced.sessions, ← session, matched.1] at bound
                  omega
              · cases h
          | pushed receipt fresh room session task =>
              obtain ⟨durability, ids⟩ := checked receipt rfl
              dsimp only at h
              split at h
              · cases h
                exact ⟨⟨⟨fresh, room, numbered.1, not_not.mp digest⟩, numbered.2, durability,
                  ids⟩, rfl⟩
              · cases h

end StoreIndex

end Mira.Events
