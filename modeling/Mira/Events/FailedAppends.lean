import Mira.Events.TornTail

/-!
Failed appends over whole runs. A run may open any log, recover it with or without
repair, read, flush, append and open it anew. As long as no append that passes the
checks before the write finds the index full or carries what the log cannot hold,
every refused append leaves the opened store as it was, and the store can be
reopened clean with all it ever accepted.
-/

namespace Mira.Events
open Mira Bytes
namespace FileEventStore

inductive StoreInput
  | append (request : AppendRequest) (now : Timestamp)
  | recover (options : RecoveryOptions)
  | read (query : MemoryEventStore.EventQuery)
  | flush (required : Durability)
  | reopen

/-- An append that reaches the write has room in the index, and the log can hold what
it writes. -/
def WithinLimits (store : FileEventStore) (input : StoreInput) : Prop :=
  ∀ request now, input = .append request now → Admissible request →
    store.opened.index.integrityById request.eventId = none →
    Storable request now ∧
      store.opened.index.memory.events.length < store.opened.index.memory.maxEvents.toNat

/-- What holds of every store of such a run. -/
structure Sound (maxEvents : UInt64) (store : FileEventStore) : Prop where
  untouched : store.loaded = false → store = create maxEvents store.log
  capacity : store.index.memory.maxEvents = maxEvents
  faithful : store.loaded = true → store.readOnly = false → store.Faithful
  recoverable : store.loaded = true →
    (create maxEvents store.log).opened.index.durable = store.index.durable

theorem create_sound (maxEvents : UInt64) (log : Option Bytes) :
    (create maxEvents log).Sound maxEvents :=
  ⟨fun _ => rfl, rfl, nofun, nofun⟩

theorem create_opened (maxEvents : UInt64) (log : Option Bytes) :
    (create maxEvents log).opened = ((create maxEvents log).recover).1 := rfl

variable {maxEvents : UInt64} {store : FileEventStore}

theorem Faithful.sound (faithful : store.Faithful)
    (capacity : store.index.memory.maxEvents = maxEvents) : store.Sound maxEvents where
  untouched := fun unloaded => by
    rw [faithful.loaded] at unloaded
    cases unloaded
  capacity := capacity
  faithful := fun _ _ => faithful
  recoverable := fun _ => by
    rw [create_opened, ← capacity]
    exact (faithful.reopened {}).2.1

section Recovery
variable (maxEvents : UInt64) (log : Option Bytes) (options : RecoveryOptions)

theorem recover_stopped
    (readOnly : ((create maxEvents log).recover options).1.readOnly = true) :
    ((create maxEvents log).recover options).1.log = log := by
  cases log with
  | none => rfl
  | some log =>
      obtain ⟨_, _, _, _, _, ends⟩ := recover_ends maxEvents log options
      generalize (create maxEvents (some log)).recover options = result at ends readOnly
      cases ends with
      | clean _ _ _ _ _ _ writable => rw [readOnly] at writable; cases writable
      | truncated _ _ _ _ _ _ writable => rw [readOnly] at writable; cases writable
      | stopped _ log => exact log

theorem recover_index :
    ((create maxEvents log).recover options).1.index = (create maxEvents log).opened.index := by
  rw [create_opened]
  cases log with
  | none => rfl
  | some log => exact recoverLines_index _ options {} _ _

theorem recover_loaded :
    ((create maxEvents log).recover options).1.loaded = true ∧
      ((create maxEvents log).recover options).1.index.memory.maxEvents = maxEvents := by
  cases log with
  | none => exact ⟨rfl, rfl⟩
  | some log =>
      obtain ⟨_, _, index, _, accounts, ends⟩ := recover_ends maxEvents log options
      have bound := accounts.synced.2
      cases ends with
      | clean _ _ _ rebuilt _ loaded => exact ⟨loaded, by rw [rebuilt, bound]⟩
      | truncated _ _ _ rebuilt _ loaded => exact ⟨loaded, by rw [rebuilt, bound]⟩
      | stopped _ _ rebuilt loaded => exact ⟨loaded, by rw [rebuilt, bound]⟩

theorem recover_sound : ((create maxEvents log).recover options).1.Sound maxEvents := by
  obtain ⟨loaded, capacity⟩ := recover_loaded maxEvents log options
  cases readOnly : ((create maxEvents log).recover options).1.readOnly with
  | false => exact (recover_faithful maxEvents log options readOnly).1.sound capacity
  | true =>
      refine ⟨fun unloaded => ?_, capacity, fun _ writable => ?_, fun _ => ?_⟩
      · rw [loaded] at unloaded; cases unloaded
      · rw [readOnly] at writable; cases writable
      · rw [recover_stopped maxEvents log options readOnly, recover_index]

end Recovery

/-- The events that opening the store makes available, as far as the log keeps them. -/
def held (store : FileEventStore) : List EventEnvelope :=
  store.opened.index.memory.events.map EventEnvelope.durable

/-- What one call may do to a store of such a run. -/
structure Grows (maxEvents : UInt64) (store next : FileEventStore) : Prop where
  sound : next.Sound maxEvents
  held : store.held <+: next.held

section Step
variable {maxEvents : UInt64} {store : FileEventStore} (sound : store.Sound maxEvents)
include sound

theorem Sound.cases : store = create maxEvents store.log ∨ store.loaded = true := by
  cases loaded : store.loaded with
  | false => exact .inl (sound.untouched loaded)
  | true => exact .inr rfl

theorem Sound.recover (options : RecoveryOptions) :
    Grows maxEvents store (store.recover options).1 := by
  rcases sound.cases with fresh | loaded
  · rw [fresh]
    refine ⟨recover_sound maxEvents store.log options, ?_⟩
    have open_ : ((create maxEvents store.log).recover options).1.opened =
        ((create maxEvents store.log).recover options).1 :=
      if_pos (recover_loaded maxEvents store.log options).1
    rw [FileEventStore.held, FileEventStore.held, open_, recover_index]
  · have same : (store.recover options).1 = store := by rw [FileEventStore.recover, if_pos loaded]
    rw [same]
    exact ⟨sound, List.prefix_refl _⟩

theorem Sound.opened : Grows maxEvents store store.opened := by
  refine ⟨?_, by rw [FileEventStore.held, FileEventStore.held, opened_opened]⟩
  unfold FileEventStore.opened
  split
  · exact sound
  · exact (sound.recover {}).sound

theorem Sound.opened_faithful (writable : store.opened.readOnly = false) :
    store.opened.Faithful :=
  sound.opened.sound.faithful store.opened_loaded writable

theorem Sound.reopen : Grows maxEvents store store.reopen := by
  have capacity := sound.capacity
  refine ⟨?_, ?_⟩
  · rw [FileEventStore.reopen, capacity]
    exact create_sound maxEvents store.log
  · rw [FileEventStore.reopen, capacity]
    rcases sound.cases with fresh | loaded
    · rw [← fresh]
    · have same := congrArg (·.memory.events) (sound.recoverable loaded)
      rw [FileEventStore.held, FileEventStore.held, show store.opened = store from if_pos loaded]
      change _ <+: ((create maxEvents store.log).opened.index.durable).memory.events
      rw [sound.recoverable loaded]
      exact List.prefix_refl _

theorem Sound.read (query : MemoryEventStore.EventQuery) :
    Grows maxEvents store (store.read query).1 := by
  have same : (store.read query).1 = store.opened := by
    unfold FileEventStore.read
    dsimp only
    split <;> rfl
  rw [same]
  exact sound.opened

theorem Sound.flush (required : Durability) : Grows maxEvents store (store.flush required).1 := by
  unfold FileEventStore.flush
  split
  · exact ⟨sound, List.prefix_refl _⟩
  · dsimp only
    split
    · exact sound.opened
    · next writable =>
        have faithful := sound.opened_faithful (by simpa using writable)
        have loaded := store.opened_loaded
        refine ⟨Faithful.sound ⟨loaded, faithful.writable, faithful.synced, faithful.accounted,
          faithful.separator⟩ sound.opened.sound.capacity, ?_⟩
        have open_ : ({ store.opened with log := some (store.opened.log.getD []) } :
            FileEventStore).opened = { store.opened with log := some (store.opened.log.getD []) } :=
          if_pos loaded
        rw [FileEventStore.held, FileEventStore.held, open_]

/-- The append of a run within the limits: it is refused and changes nothing, or it is
accepted and its event is held from then on. -/
theorem Sound.append (request : AppendRequest) (now : Timestamp)
    (within : WithinLimits store (.append request now)) :
    Grows maxEvents store (store.append request now).1 ∧
      (store.opened.readOnly = false → ∀ reason, (store.append request now).2 = .error reason →
        (store.append request now).1.opened = store.opened) ∧
      ∀ receipt, (store.append request now).2 = .ok receipt →
        ∃ event ∈ (store.append request now).1.held, sameRequest event request = true := by
  have start := sound.opened
  have loaded := store.opened_loaded
  rcases store.append_of_opened request now with whole | ⟨kept, _, _, reason, refused⟩
  · rw [whole]
    cases readOnly : store.opened.readOnly with
    | true =>
        have refused : (store.opened.append request now).1 = store.opened ∧
            ∃ reason, (store.opened.append request now).2 = .error reason := by
          unfold FileEventStore.append
          split
          · exact ⟨rfl, _, rfl⟩
          · dsimp only
            rw [opened_opened, if_pos readOnly]
            exact ⟨rfl, _, rfl⟩
        obtain ⟨same, reason, answer⟩ := refused
        rw [same, answer]
        exact ⟨start, nofun, nofun⟩
    | false =>
        have faithful := sound.opened_faithful readOnly
        have outcome := store.opened.append_outcome request now loaded readOnly
        generalize store.opened.append request now = result at outcome
        cases outcome with
        | refused => exact ⟨start, fun _ _ _ => opened_opened store, nofun⟩
        | repeated event _ found same =>
            refine ⟨start, nofun, fun _ _ => ⟨event.durable, ?_, same⟩⟩
            rw [FileEventStore.held, opened_opened]
            exact List.mem_map_of_mem ((faithful.synced.consistent.found _ _).mp found).1
        | written admissible absent =>
            obtain ⟨storable, room⟩ := within request now rfl admissible absent
            have next := faithful.appended admissible storable absent room
            have ok := indexAppended_ok admissible faithful.synced absent room now
            have events : (store.opened.indexAppended request now).1.held =
                store.held ++ [(store.opened.newEvent request now).durable] := by
              rw [FileEventStore.held, show FileEventStore.opened _ = _ from if_pos next.loaded, ok]
              exact List.map_append
            refine ⟨⟨next.sound ?_, ?_⟩, ?_, fun _ _ => ?_⟩
            · rw [ok]
              exact start.sound.capacity
            · rw [events]
              exact List.prefix_append _ _
            · rw [ok]
              exact nofun
            · rw [events]
              refine ⟨_, List.mem_append_right _ (List.mem_singleton_self _), ?_⟩
              simp [sameRequest, EventEnvelope.durable, newEvent, MemoryEventStore.stamped,
                AppendRequest.envelope]
  · -- The durability was refused before anything was opened.
    rw [kept, refused]
    exact ⟨⟨sound, List.prefix_refl _⟩, fun _ _ _ => rfl, nofun⟩

end Step

end FileEventStore

end Mira.Events
