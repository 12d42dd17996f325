import Mira.Events.MemoryStore
import Mira.Library.Paging

/-!
Sequencing and idempotence of the in-memory store. The index and the counters
are determined by the list of events: every session and every task numbers its
own events from one without gaps, whatever is interleaved with them, and a
repeated request finds the event it became.
-/

namespace Mira.Events
open Mira

namespace MemoryEventStore

/-- What the redundant parts of a store say about its list of events. -/
structure Consistent (store : MemoryEventStore) : Prop where
  unique : (store.events.map EventEnvelope.eventId).Nodup
  indexed : ∀ id index, store.byId id = some index → index < store.events.length
  found : ∀ id event, store.find id = some event ↔ event ∈ store.events ∧ event.eventId = id
  sessions : ∀ session,
    (store.events.filter fun event => event.sessionId = session).map
        EventEnvelope.sessionSequence = List.range' 1 (store.nextSession session)
  tasks : ∀ task,
    (store.events.filter fun event => event.taskId = some task).map EventEnvelope.taskSequence =
      (List.range' 1 (store.nextTask task)).map some
  digests : ∀ event ∈ store.events,
    event.integrity = digestString (canonicalRequest event.request)

theorem consistent_empty (maxEvents : UInt64) :
    ({ maxEvents := maxEvents } : MemoryEventStore).Consistent where
  unique := List.nodup_nil
  indexed := by
    intro id index present
    cases present
  found := by
    intro id event
    simp [find]
  sessions := fun _ => rfl
  tasks := fun _ => rfl
  digests := by simp

/-- The three ways an append ends. -/
inductive Appended (store : MemoryEventStore) (request : AppendRequest) (timestamp : Timestamp)
    (origin : EventTimestampOrigin) : MemoryEventStore × Result AppendReceipt → Prop
  | refused (reason : Error) : Appended store request timestamp origin (store, .error reason)
  | repeated (event : EventEnvelope) (receipt : AppendReceipt)
      (found : store.find request.eventId = some event)
      (same : sameRequest event request = true)
      (session : receipt.sessionSequence = event.sessionSequence)
      (task : receipt.taskSequence = event.taskSequence) :
      Appended store request timestamp origin (store, .ok receipt)
  | pushed (receipt : AppendReceipt) (fresh : store.find request.eventId = none)
      (room : store.events.length < store.maxEvents.toNat)
      (session : receipt.sessionSequence =
        (store.stamped request timestamp origin).sessionSequence)
      (task : receipt.taskSequence = (store.stamped request timestamp origin).taskSequence) :
      Appended store request timestamp origin
        (store.push (store.stamped request timestamp origin), .ok receipt)

variable (store : MemoryEventStore) (request : AppendRequest) (timestamp : Timestamp)
  (origin : EventTimestampOrigin)

theorem appendStamped_cases :
    Appended store request timestamp origin (store.appendStamped request timestamp origin) := by
  unfold appendStamped
  split
  · exact .refused _
  · split
    · exact .refused _
    · split
      · next event found =>
          split
          · next same => exact .repeated event _ found same.1 rfl rfl
          · exact .refused _
      · next fresh =>
          split
          · exact .refused _
          · next room => exact .pushed _ fresh (not_le.mp room) rfl rfl

theorem find_push (event : EventEnvelope)
    (indexed : ∀ id index, store.byId id = some index → index < store.events.length) (id : EventId) :
    (store.push event).find id = if id = event.eventId then some event else store.find id := by
  unfold find push
  dsimp only
  by_cases own : id = event.eventId
  · rw [if_pos own, own, Function.update_self]
    simp
  · rw [if_neg own, Function.update_of_ne own]
    cases present : store.byId id with
    | none => rfl
    | some index =>
        have bound := indexed id index present
        simp only [Option.bind_some]
        rw [List.getElem?_append_left bound]

/-- An event that carries the next number of its session and of its task. -/
structure Next (store : MemoryEventStore) (event : EventEnvelope) : Prop where
  fresh : store.find event.eventId = none
  session : event.sessionSequence = store.nextSession event.sessionId + 1
  task : event.taskSequence = event.taskId.map fun task => store.nextTask task + 1
  digest : event.integrity = digestString (canonicalRequest event.request)

theorem stamped_next (fresh : store.find request.eventId = none) :
    store.Next (store.stamped request timestamp origin) :=
  ⟨fresh, rfl, rfl, rfl⟩

theorem range'_succ_append (n : Nat) :
    List.range' 1 n ++ [n + 1] = List.range' 1 (n + 1) := by
  rw [List.range'_concat, Nat.one_mul, Nat.add_comm]

theorem Consistent.push {store : MemoryEventStore} (consistent : store.Consistent)
    {event : EventEnvelope} (next : store.Next event) : (store.push event).Consistent where
  unique := by
    change ((store.events ++ [event]).map EventEnvelope.eventId).Nodup
    rw [List.map_append, List.map_singleton, List.nodup_append]
    refine ⟨consistent.unique, by simp, ?_⟩
    intro id present other isOwn
    rw [List.mem_singleton.mp isOwn]
    rintro rfl
    obtain ⟨old, member, same⟩ := List.mem_map.mp present
    have found := (consistent.found event.eventId old).mpr ⟨member, same⟩
    rw [next.fresh] at found
    cases found
  indexed := by
    intro id index present
    simp only [MemoryEventStore.push] at present ⊢
    rw [List.length_append, List.length_singleton]
    by_cases own : id = event.eventId
    · rw [own, Function.update_self] at present
      cases present
      exact Nat.lt_succ_self _
    · rw [Function.update_of_ne own] at present
      exact Nat.lt_succ_of_lt (consistent.indexed id index present)
  found := by
    intro id other
    rw [find_push store event consistent.indexed]
    change _ ↔ other ∈ store.events ++ [event] ∧ _
    rw [List.mem_append, List.mem_singleton]
    by_cases own : id = event.eventId
    · rw [if_pos own]
      constructor
      · intro same
        cases same
        exact ⟨.inr rfl, own.symm⟩
      · rintro ⟨old | rfl, same⟩
        · have found := (consistent.found id other).mpr ⟨old, same⟩
          rw [own, next.fresh] at found
          cases found
        · rfl
    · rw [if_neg own, consistent.found]
      constructor
      · rintro ⟨old, same⟩
        exact ⟨.inl old, same⟩
      · rintro ⟨old | rfl, same⟩
        · exact ⟨old, same⟩
        · exact absurd same.symm own
  sessions := by
    intro session
    change ((store.events ++ [event]).filter _).map _ =
      List.range' 1 (Function.update store.nextSession _ _ session)
    rw [List.filter_append, List.map_append, consistent.sessions session]
    by_cases own : event.sessionId = session
    · subst own
      simp [Function.update_self, next.session, range'_succ_append]
    · have own' : session ≠ event.sessionId := fun same => own same.symm
      simp [own, Function.update_of_ne own']
  tasks := by
    intro task
    change ((store.events ++ [event]).filter _).map _ = _
    rw [List.filter_append, List.map_append, consistent.tasks task]
    cases scope : event.taskId with
    | none => simp [MemoryEventStore.push, scope]
    | some own =>
        by_cases same : own = task
        · subst same
          have number := next.task
          rw [scope] at number
          simp [MemoryEventStore.push, scope, number, ← range'_succ_append]
        · have same' : task ≠ own := fun h => same h.symm
          simp [MemoryEventStore.push, scope, same, Function.update_of_ne same']
  digests := by
    intro other present
    rcases List.mem_append.mp present with old | own
    · exact consistent.digests other old
    · rw [List.mem_singleton.mp own]
      exact next.digest

/-- A later store holds the earlier events and is consistent too. -/
structure Later (store later : MemoryEventStore) : Prop where
  consistent : store.Consistent → later.Consistent
  grows : store.events <+: later.events

theorem Later.refl : store.Later store :=
  ⟨fun h => h, List.prefix_refl _⟩

theorem Later.trans {a b c : MemoryEventStore} (first : a.Later b) (second : b.Later c) :
    a.Later c :=
  ⟨fun h => second.consistent (first.consistent h), first.grows.trans second.grows⟩

theorem appendStamped_later : store.Later (store.appendStamped request timestamp origin).1 := by
  have cases_ := appendStamped_cases store request timestamp origin
  generalize store.appendStamped request timestamp origin = result at cases_
  cases cases_ with
  | refused => exact .refl store
  | repeated => exact .refl store
  | pushed receipt fresh =>
      exact ⟨fun consistent => consistent.push (stamped_next store request timestamp origin fresh),
        List.prefix_append _ _⟩

theorem appendBatch_later (requests : List (AppendRequest × Timestamp)) :
    store.Later (store.appendBatch requests).1 := by
  induction requests generalizing store with
  | nil => exact .refl store
  | cons entry rest ih =>
      obtain ⟨request, now⟩ := entry
      have first : store.Later (store.append request now).1 :=
        appendStamped_later store request now .appendProcess
      unfold appendBatch
      split
      · next refused reason h => rw [h] at first; exact first
      · next appended receipt h =>
          rw [h] at first
          have later := ih appended
          split
          · next final reason h' => rw [h'] at later; exact first.trans later
          · next final receipts h' => rw [h'] at later; exact first.trans later

theorem appendStamped_accepted (consistent : store.Consistent) (request : AppendRequest)
    (timestamp : Timestamp) (origin : EventTimestampOrigin) (receipt : AppendReceipt)
    (accepted : (store.appendStamped request timestamp origin).2 = .ok receipt) :
    ∃ event ∈ (store.appendStamped request timestamp origin).1.events,
      sameRequest event request = true ∧ event.sessionSequence = receipt.sessionSequence ∧
      event.taskSequence = receipt.taskSequence := by
  have cases_ := appendStamped_cases store request timestamp origin
  generalize store.appendStamped request timestamp origin = result at cases_ accepted
  cases cases_ with
  | refused => cases accepted
  | repeated event _ found same session task =>
      cases accepted
      exact ⟨event, ((consistent.found _ _).mp found).1, same, session.symm, task.symm⟩
  | pushed _ _ _ session task =>
      cases accepted
      refine ⟨_, List.mem_append_right _ (List.mem_singleton_self _), ?_, session.symm, task.symm⟩
      simp [sameRequest, stamped, AppendRequest.envelope]

theorem appendStamped_repeated (consistent : store.Consistent) (request : AppendRequest)
    (timestamp : Timestamp) (origin : EventTimestampOrigin) (event : EventEnvelope)
    (present : event ∈ store.events) (same : sameRequest event request = true)
    (durability : validDurability request.required = true)
    (ids : ¬ (request.eventId.isNil ∨ request.runtimeId.isNil ∨ request.sessionId.isNil)) :
    store.appendStamped request timestamp origin =
      (store, .ok ⟨event.eventId, event.sessionSequence, event.taskSequence,
        store.durableWatermark, .buffered⟩) := by
  have id : event.eventId = request.eventId := by
    simp only [sameRequest, Bool.and_eq_true, decide_eq_true_eq] at same
    exact same.1.1.1.1.1
  have found := (consistent.found request.eventId event).mpr ⟨present, id⟩
  have digest : event.integrity = digestString (canonicalRequest request) := by
    rw [consistent.digests event present, canonicalRequest_of_same event request same]
  unfold appendStamped
  rw [if_neg (by simp [durability]), if_neg ids, found]
  simp only [same, digest, and_self, if_true]

theorem appendStamped_checked (receipt : AppendReceipt)
    (accepted : (store.appendStamped request timestamp origin).2 = .ok receipt) :
    validDurability request.required = true ∧
      ¬ (request.eventId.isNil ∨ request.runtimeId.isNil ∨ request.sessionId.isNil) := by
  unfold appendStamped at accepted
  split at accepted
  · cases accepted
  · next durability =>
      split at accepted
      · cases accepted
      · next ids => exact ⟨by simpa using durability, ids⟩

end MemoryEventStore

inductive MemoryInput
  | append (request : AppendRequest) (now : Timestamp)
  | appendBatch (requests : List (AppendRequest × Timestamp))

def memoryStep (store : MemoryEventStore) :
    MemoryInput → MemoryEventStore × Result (List AppendReceipt)
  | .append request now =>
      ((store.append request now).1, (store.append request now).2.map fun receipt => [receipt])
  | .appendBatch requests => store.appendBatch requests

variable (store : MemoryEventStore)

theorem memoryStep_later (input : MemoryInput) : store.Later (memoryStep store input).1 := by
  cases input with
  | append request now => exact store.appendStamped_later request now .appendProcess
  | appendBatch requests => exact store.appendBatch_later requests

theorem memoryRun_later (inputs : List MemoryInput) :
    store.Later (Execution.run memoryStep store inputs) :=
  Execution.run_relation memoryStep (fun _ => True) MemoryEventStore.Later
    MemoryEventStore.Later.refl (fun first second => first.trans second) (fun _ _ _ => trivial)
    (fun store input _ => memoryStep_later store input) store inputs trivial

/-- Sequencing and idempotence over every run of the in-memory store: identifiers
are unique, sessions and tasks number their events from one without a gap, a
repeated request is answered with the numbers of the first and changes nothing,
and a refused one changes nothing either. -/
theorem memory_store_sequencing (maxEvents : UInt64) (inputs later : List MemoryInput)
    (request : AppendRequest) (now again : Timestamp) :
    let store := Execution.run memoryStep { maxEvents := maxEvents } inputs
    let appended := (store.append request now).1
    let reached := Execution.run memoryStep appended later
    (store.events.map EventEnvelope.eventId).Nodup ∧
    (∀ session, ∃ count,
      (store.events.filter fun event => event.sessionId = session).map
        EventEnvelope.sessionSequence = List.range' 1 count) ∧
    (∀ task, ∃ count,
      (store.events.filter fun event => event.taskId = some task).map
        EventEnvelope.taskSequence = (List.range' 1 count).map some) ∧
    (∀ receipt, (store.append request now).2 = .ok receipt →
      (reached.append request again).1 = reached ∧
      ∃ receipt', (reached.append request again).2 = .ok receipt' ∧
        receipt'.sessionSequence = receipt.sessionSequence ∧
        receipt'.taskSequence = receipt.taskSequence) ∧
    (∀ reason, (store.append request now).2 = .error reason → appended = store) := by
  intro store appended reached
  have consistent : store.Consistent := (memoryRun_later _ inputs).consistent
    (MemoryEventStore.consistent_empty maxEvents)
  have step : store.Later appended := store.appendStamped_later request now .appendProcess
  have rest : appended.Later reached := memoryRun_later appended later
  refine ⟨consistent.unique, fun session => ⟨_, consistent.sessions session⟩,
    fun task => ⟨_, consistent.tasks task⟩, ?_, ?_⟩
  · intro receipt accepted
    obtain ⟨event, present, same, session, task⟩ :=
      store.appendStamped_accepted consistent request now .appendProcess receipt accepted
    obtain ⟨durability, ids⟩ :=
      store.appendStamped_checked request now .appendProcess receipt accepted
    have repeated := reached.appendStamped_repeated ((step.trans rest).consistent consistent)
      request again .appendProcess event (rest.grows.subset present) same durability ids
    have whole : reached.append request again = _ := repeated
    rw [whole]
    exact ⟨rfl, _, rfl, session, task⟩
  · intro reason refused
    have cases_ := store.appendStamped_cases request now .appendProcess
    change (store.appendStamped request now .appendProcess).2 = _ at refused
    change (store.appendStamped request now .appendProcess).1 = _
    generalize store.appendStamped request now .appendProcess = result at cases_ refused
    cases cases_ with
    | refused => rfl
    | repeated => rfl
    | pushed => cases refused

/-- A well-formed request with a new identifier is stored as long as there is room. -/
theorem memory_append_stored (maxEvents : UInt64) (inputs : List MemoryInput)
    (request : AppendRequest) (now : Timestamp)
    (durability : validDurability request.required = true)
    (ids : ¬ (request.eventId.isNil ∨ request.runtimeId.isNil ∨ request.sessionId.isNil)) :
    let store := Execution.run memoryStep { maxEvents := maxEvents } inputs
    request.eventId ∉ store.events.map EventEnvelope.eventId →
      store.events.length < store.maxEvents.toNat →
        (store.append request now).1.events =
            store.events ++ [store.stamped request now .appendProcess] ∧
          ∃ receipt, (store.append request now).2 = .ok receipt := by
  intro store fresh room
  have consistent : store.Consistent := (memoryRun_later _ inputs).consistent
    (MemoryEventStore.consistent_empty maxEvents)
  have absent : store.find request.eventId = none := by
    refine Option.eq_none_iff_forall_not_mem.mpr fun event found => fresh ?_
    obtain ⟨present, same⟩ := (consistent.found _ _).mp found
    exact same ▸ List.mem_map_of_mem present
  rw [MemoryEventStore.append, MemoryEventStore.appendStamped, if_neg (by simp [durability]),
    if_neg ids, absent]
  dsimp only
  rw [if_neg (not_le.mpr room)]
  exact ⟨rfl, _, rfl⟩

/-- What was read of a session, and where the next page begins. -/
structure SessionRead where
  collected : List EventEnvelope := []
  after : Option Nat := none

namespace SessionRead
variable (store : MemoryEventStore) (session : SessionId) (limit : Nat)

def fetch (reading : SessionRead) : Result (List EventEnvelope × Bool) :=
  let page := store.read ⟨session, reading.after, limit⟩
  .ok (page.events, page.hasMore)

/-- The last event of a page is where the next one begins. -/
def visit (reading : SessionRead) (event : EventEnvelope) : Result SessionRead :=
  .ok { collected := reading.collected ++ [event], after := some event.sessionSequence }

/-- The pages of a session, until one says that nothing follows; `none` stands for rounds that ran
out. -/
def readPages (rounds : Nat) : Option (Result SessionRead) :=
  Paging.scan (fetch store session limit) visit (fun _ => .ok ()) rounds {}

theorem visitAll_visit (reading : SessionRead) (events : List EventEnvelope) :
    ∃ next, Paging.visitAll visit reading events = .ok next ∧
      next.collected = reading.collected ++ events := by
  induction events generalizing reading with
  | nil => exact ⟨reading, rfl, (List.append_nil _).symm⟩
  | cons event rest ih =>
      obtain ⟨next, visited, collected⟩ :=
        ih { collected := reading.collected ++ [event], after := some event.sessionSequence }
      refine ⟨next, visited, ?_⟩
      rw [collected, List.append_assoc, List.singleton_append]

end SessionRead

theorem inOrder_of_consistent {store : MemoryEventStore} (consistent : store.Consistent) :
    InOrder store.events := by
  have numbered := consistent.sessions
  constructor
  · intro session
    have sorted : (List.range' 1 (store.nextSession session)).Pairwise (· < ·) :=
      List.pairwise_lt_range'
    rw [← numbered session] at sorted
    exact List.pairwise_map.mp sorted
  · intro session event present
    have among : event.sessionSequence ∈
        (sessionEvents session store.events).map EventEnvelope.sessionSequence :=
      List.mem_map_of_mem present
    have size := congrArg List.length (numbered session)
    rw [List.length_map, List.length_range'] at size
    rw [sessionEvents, numbered session, List.mem_range'_1] at among
    rw [sessionEvents, size]
    omega

theorem inOrder_reached (maxEvents : UInt64) (inputs : List MemoryInput) :
    InOrder (Execution.run memoryStep { maxEvents := maxEvents } inputs).events :=
  inOrder_of_consistent ((memoryRun_later _ inputs).consistent
    (MemoryEventStore.consistent_empty maxEvents))

theorem InOrder.hasMore_iff {log : List EventEnvelope} (order : InOrder log) (session : SessionId)
    (cursor : Option Nat) (limit : Nat) :
    limit < (unread log session cursor).length ↔
      ∃ event ∈ sessionEvents session log, cursor.getD 0 < event.sessionSequence ∧
        event ∉ (unread log session cursor).take limit := by
  have sorted : (unread log session cursor).Pairwise fun earlier later =>
      earlier.sessionSequence < later.sessionSequence := by
    rw [unread_eq_filter]
    exact (order.ascending session).sublist List.filter_sublist
  have among (event : EventEnvelope) : event ∈ unread log session cursor ↔
      event ∈ sessionEvents session log ∧ cursor.getD 0 < event.sessionSequence := by
    rw [unread_eq_filter, List.mem_filter, decide_eq_true_eq]
  constructor
  · intro more
    have behind : (unread log session cursor)[limit] ∈ unread log session cursor :=
      List.getElem_mem more
    obtain ⟨own, later⟩ := (among _).mp behind
    refine ⟨_, own, later, ?_⟩
    intro held
    obtain ⟨index, inside, same⟩ := List.mem_iff_getElem.mp held
    rw [List.getElem_take] at same
    rw [List.length_take] at inside
    have below := List.pairwise_iff_getElem.mp sorted index limit (by omega) more (by omega)
    rw [same] at below
    exact absurd below (Nat.lt_irrefl _)
  · intro ⟨event, own, later, left⟩
    by_contra all
    rw [List.take_of_length_le (Nat.not_lt.mp all)] at left
    exact left ((among event).mpr ⟨own, later⟩)

/-- Over every run of the store, the pages of a session are all its events in their order, whatever
their size, and a page says that more follows where an event behind it is left. -/
theorem pages_complete (maxEvents : UInt64) (inputs : List MemoryInput) (session : SessionId)
    (limit : Nat) (positive : 1 ≤ limit) :
    let store := Execution.run memoryStep { maxEvents := maxEvents } inputs
    (∀ rounds, (sessionEvents session store.events).length < rounds →
      ∃ reading, SessionRead.readPages store session limit rounds = some (.ok reading) ∧
        reading.collected = sessionEvents session store.events) ∧
    ∀ cursor, (store.read ⟨session, cursor, limit⟩).hasMore = true ↔
      ∃ event ∈ sessionEvents session store.events, cursor.getD 0 < event.sessionSequence ∧
        event ∉ (store.read ⟨session, cursor, limit⟩).events := by
  intro store
  have order : InOrder store.events := inOrder_reached maxEvents inputs
  constructor
  · intro rounds enough
    obtain ⟨reading, visited, collected⟩ :=
      SessionRead.visitAll_visit {} (sessionEvents session store.events)
    refine ⟨reading, ?_, collected⟩
    have scanned : SessionRead.readPages store session limit rounds =
        some (Paging.visitAll SessionRead.visit {} (unread store.events session none)) := by
      rw [SessionRead.readPages]
      apply Paging.scan_eq (fun _ : SessionRead => True)
        (fun reading : SessionRead => unread store.events session reading.after)
        (fun _ : SessionRead => limit)
      case served => exact fun _ _ => rfl
      case room => exact fun _ _ _ => positive
      case visited =>
        intro reading event rest next _ left went
        cases went
        exact ⟨trivial, order.unread_passed left⟩
      case onward => exact fun _ _ _ => rfl
      case start => exact trivial
      case enough =>
        rw [order.unread_none session]
        exact enough
    rw [scanned, order.unread_none session, visited]
  · intro cursor
    exact decide_eq_true_iff.trans (order.hasMore_iff session cursor limit)

def plainAppend (event session : UInt8) : AppendRequest :=
  { eventId := .filled event, runtimeId := .filled 1, sessionId := .filled session
    payload := { type := [], data := [] } }

/-- Events of two sessions, one after another. -/
def mixedAppends : List MemoryInput :=
  [(1, 2), (2, 3), (3, 2), (4, 2)].map fun ids => .append (plainAppend ids.1 ids.2) {}

/-- A repeated append among those of two sessions. -/
theorem mixed_append_repeated :
    let store := Execution.run memoryStep { maxEvents := 100 } mixedAppends
    ∃ receipt, (store.append (plainAppend 5 2) {}).2 = .ok receipt ∧
      ∃ receipt', ((store.append (plainAppend 5 2) {}).1.append (plainAppend 5 2) {}).2 =
          .ok receipt' ∧ receipt'.sessionSequence = receipt.sessionSequence ∧
        receipt'.taskSequence = receipt.taskSequence := by
  intro store
  obtain ⟨_, receipt, accepted⟩ := memory_append_stored 100 mixedAppends (plainAppend 5 2) {} rfl
    (by decide) (by decide +kernel) (by decide +kernel)
  have whole := memory_store_sequencing 100 mixedAppends [] (plainAppend 5 2) {} {}
  exact ⟨receipt, accepted, (whole.2.2.2.1 receipt accepted).2⟩

theorem pages_complete_mixed :
    let store := Execution.run memoryStep { maxEvents := 100 } mixedAppends
    (∀ rounds, (sessionEvents (.filled 2) store.events).length < rounds →
      ∃ reading, SessionRead.readPages store (.filled 2) 1 rounds = some (.ok reading) ∧
        reading.collected = sessionEvents (.filled 2) store.events) ∧
    ∀ cursor, (store.read ⟨.filled 2, cursor, 1⟩).hasMore = true ↔
      ∃ event ∈ sessionEvents (.filled 2) store.events, cursor.getD 0 < event.sessionSequence ∧
        event ∉ (store.read ⟨.filled 2, cursor, 1⟩).events :=
  pages_complete 100 mixedAppends (.filled 2) 1 (by decide)

end Mira.Events
