import Mira.Interaction.Stream

/-!
What the calls of the ledger can do, and the system of a ledger and its append-only store.
-/

namespace Mira.Interaction
open Mira Bytes Events

def inputExpired : InteractionError :=
  interactionError .invalidState .inputExpired
    "the input id was already used and its idempotency window expired"

def repeatAnswer (now : Int64) (entry : LedgerEntry) : LedgerResult LedgerEntry :=
  if expired now entry then .error inputExpired else .ok { entry with duplicate := true }

def LedgerTransition.recorded (transition : LedgerTransition) : Prop :=
  transition.stage ≠ .accepted ∨ transition.clarification.isSome

theorem record_isSome_iff {entry : LedgerEntry} {transition : LedgerTransition} :
    (entry.record transition).isSome ↔ transition.recorded := by
  rw [LedgerTransition.recorded]
  simp only [LedgerEntry.record]
  split
  · next stage => simp [stage]
  · next stage => simp [stage]
  · next stage => simp [stage]
  · next stage => simp [stage]
  · next stage =>
      split
      · next clarifying => simp [clarifying]
      · next plain => simp [stage, plain]

namespace EventStoreInputLedger
variable (ledger : EventStoreInputLedger) (store : AppendRequest → Result AppendReceipt)

inductive Admission (envelope : InputEnvelope) (readings : AdmissionReadings) : LedgerCall → Prop
  | empty (reason : InteractionError) : Admission envelope readings ⟨ledger, none, .error reason⟩
  | repeated (entry : LedgerEntry) (held : ledger.index.find? envelope.inputId = some entry) :
      Admission envelope readings ⟨ledger, none, repeatAnswer readings.now entry⟩
  | full (reason : InteractionError) (absent : ledger.index.find? envelope.inputId = none) :
      Admission envelope readings ⟨ledger.withRoom readings.now, none, .error reason⟩
  | failed (sent : Option AppendRequest) (reason : InteractionError)
      (absent : ledger.index.find? envelope.inputId = none)
      (answer : (ledger.withRoom readings.now).append store .inputAccepted (acceptedPayload
        (ledger.freshEntry envelope readings) envelope.principal) readings.eventId =
          (sent, .error reason)) :
      Admission envelope readings ⟨ledger.withRoom readings.now, sent, .error reason⟩
  | fresh (receipt : AppendReceipt) (absent : ledger.index.find? envelope.inputId = none)
      (answer : store (ledger.request .inputAccepted (acceptedPayload
        (ledger.freshEntry envelope readings) envelope.principal) readings.eventId) =
          .ok receipt) :
      Admission envelope readings
        ⟨{ ledger.withRoom readings.now with
            index := (ledger.withRoom readings.now).index.emplace envelope.inputId
              (ledger.freshEntry envelope readings) },
          some (ledger.request .inputAccepted (acceptedPayload
            (ledger.freshEntry envelope readings) envelope.principal) readings.eventId),
          .ok (ledger.freshEntry envelope readings)⟩

/-- The ledger with the entry of an input edited. -/
def withEntry (inputId : Bytes) (entry : LedgerEntry) : EventStoreInputLedger :=
  { ledger with index := ledger.index.update inputId fun _ => entry }

inductive Advance (inputId : Bytes) (transition : LedgerTransition) (eventId : EventId) :
    LedgerCall → Prop
  | unknown (absent : ledger.index.find? inputId = none) :
      Advance inputId transition eventId ⟨ledger, none, .error unknownInput⟩
  | ignored (entry : LedgerEntry) (held : ledger.index.find? inputId = some entry)
      (late : entry.ignores transition = true) :
      Advance inputId transition eventId ⟨ledger, none, .ok entry⟩
  | silent (entry : LedgerEntry) (held : ledger.index.find? inputId = some entry)
      (due : entry.ignores transition = false)
      (unrecorded : (entry.edited transition).record transition = none) :
      Advance inputId transition eventId
        ⟨ledger.withEntry inputId (entry.edited transition), none, .ok (entry.edited transition)⟩
  | failed (entry : LedgerEntry) (held : ledger.index.find? inputId = some entry)
      (due : entry.ignores transition = false) (type : InteractionEventType) (object : Members)
      (recorded : (entry.edited transition).record transition = some (type, object))
      (sent : Option AppendRequest) (reason : InteractionError)
      (answer : ledger.append store type object eventId = (sent, .error reason)) :
      Advance inputId transition eventId
        ⟨ledger.withEntry inputId (entry.edited transition), sent, .error reason⟩
  | recorded (entry : LedgerEntry) (held : ledger.index.find? inputId = some entry)
      (due : entry.ignores transition = false) (type : InteractionEventType) (object : Members)
      (recorded : (entry.edited transition).record transition = some (type, object))
      (answer : ledger.append store type object eventId =
        (some (ledger.request type object eventId), .ok ())) :
      Advance inputId transition eventId
        ⟨ledger.withEntry inputId (entry.edited transition),
          some (ledger.request type object eventId), .ok (entry.edited transition)⟩

variable {ledger store}

theorem append_ok {type : InteractionEventType} {object : Members} {eventId : EventId}
    {sent : Option AppendRequest}
    (appended : ledger.append store type object eventId = (sent, .ok ())) :
    sent = some (ledger.request type object eventId) ∧
      ∃ receipt, store (ledger.request type object eventId) = .ok receipt := by
  simp only [append] at appended
  split at appended
  · cases appended
  · split at appended
    · cases appended
    · next receipt answer =>
        cases appended
        exact ⟨rfl, receipt, answer⟩

theorem append_acknowledged (connected : ledger.connected = true) (receipt : AppendReceipt)
    (type : InteractionEventType) (object : Members) (eventId : EventId) :
    ledger.append (fun _ => .ok receipt) type object eventId =
      (some (ledger.request type object eventId), .ok ()) := by
  simp only [append, connected, Bool.true_eq_false, if_false]

variable (now : Int64)

theorem withRoom_options : (ledger.withRoom now).options = ledger.options := by
  simp only [withRoom]
  split <;> rfl

theorem withRoom_runtime : (ledger.withRoom now).runtime = ledger.runtime := by
  simp only [withRoom]
  split <;> rfl

theorem withRoom_connected : (ledger.withRoom now).connected = ledger.connected := by
  simp only [withRoom]
  split <;> rfl

theorem withRoom_request (type : InteractionEventType) (object : Members) (eventId : EventId) :
    (ledger.withRoom now).request type object eventId = ledger.request type object eventId := by
  simp only [request, partition, withRoom_options, withRoom_runtime]

variable (envelope : InputEnvelope) (readings : AdmissionReadings)

theorem withRoom_freshEntry :
    (ledger.withRoom now).freshEntry envelope readings = ledger.freshEntry envelope readings := by
  simp only [freshEntry, withRoom_options]

variable (ledger store)

theorem admitInput_admission :
    Admission ledger store envelope readings (ledger.admitInput store envelope readings) := by
  simp only [admitInput]
  split
  · exact .empty _
  · split
    · next entry held =>
        have answer : Admission ledger store envelope readings
            ⟨ledger, none, repeatAnswer readings.now entry⟩ := .repeated entry held
        simp only [repeatAnswer] at answer
        split
        · next late => rwa [if_pos late] at answer
        · next within => rwa [if_neg within] at answer
    · next absent =>
        split
        · exact .full _ absent
        · split
          · next sent reason refused =>
              rw [withRoom_freshEntry] at refused
              exact .failed sent reason absent refused
          · next sent appended =>
              rw [withRoom_freshEntry] at appended ⊢
              obtain ⟨rfl, receipt, answer⟩ := append_ok appended
              rw [withRoom_request] at answer ⊢
              exact .fresh receipt absent answer

theorem advance_advance (inputId : Bytes) (transition : LedgerTransition) (eventId : EventId) :
    Advance ledger store inputId transition eventId
      (ledger.advance store inputId transition eventId) := by
  simp only [advance]
  split
  · next absent => exact .unknown absent
  · next entry held =>
      split
      · next late => exact .ignored entry held late
      · next due =>
          have due : entry.ignores transition = false := Bool.not_eq_true _ ▸ due
          split
          · next unrecorded => exact .silent entry held due unrecorded
          · next type object recorded =>
              split
              · next sent reason answer =>
                  exact .failed entry held due type object recorded sent reason answer
              · next sent appended =>
                  obtain ⟨rfl, _⟩ := append_ok appended
                  exact .recorded entry held due type object recorded appended

end EventStoreInputLedger

theorem find?_withEntry {ledger : EventStoreInputLedger} {inputId : Bytes} {old : LedgerEntry}
    (held : ledger.index.find? inputId = some old) (entry : LedgerEntry) (other : Bytes) :
    (ledger.withEntry inputId entry).index.find? other =
      if other = inputId then some entry else ledger.index.find? other := by
  simp only [EventStoreInputLedger.withEntry, KeyedTable.find?_update, held, Option.map_some]

structure LedgerSystem where
  ledger : EventStoreInputLedger
  log : List EventEnvelope := []

/-- The calls of the ledger, with what they read from the clock and the fate of their
append. -/
inductive LedgerInput
  | admitInput (envelope : InputEnvelope) (readings : AdmissionReadings) (fate : AppendFate)
  | advance (inputId : Bytes) (transition : LedgerTransition) (eventId : EventId)
      (fate : AppendFate)
  | reclaimExpired (now : Int64)
  | rebuild

inductive LedgerAnswer
  | entry (result : LedgerResult LedgerEntry)
  | reclaimed (count : Nat)
  | rebuilt (result : Option (LedgerResult Unit))
  deriving DecidableEq

namespace LedgerSystem

def start (runtime : RuntimeId) (options : InputLedgerOptions) : LedgerSystem :=
  ⟨{ runtime := runtime, options := options }, []⟩

def called (system : LedgerSystem) (fate : AppendFate) (call : LedgerCall) :
    LedgerSystem × LedgerAnswer :=
  (⟨call.ledger, appended system.log fate call.sent⟩, .entry call.result)

/-- The rounds suffice for every log in order. -/
def step (system : LedgerSystem) : LedgerInput → LedgerSystem × LedgerAnswer
  | .admitInput envelope readings fate =>
      system.called fate (system.ledger.admitInput (fun _ => fate.result) envelope readings)
  | .advance inputId transition eventId fate =>
      system.called fate
        (system.ledger.advance (fun _ => fate.result) inputId transition eventId)
  | .reclaimExpired now =>
      (⟨(system.ledger.reclaimExpired now).1, system.log⟩,
        .reclaimed (system.ledger.reclaimExpired now).2)
  | .rebuild =>
      match system.ledger.rebuild (readLog system.log) (system.log.length + 1) with
      | none => (system, .rebuilt none)
      | some (ledger, result) => (⟨ledger, system.log⟩, .rebuilt (some result))

end LedgerSystem

theorem LedgerSystem.step_frame (system : LedgerSystem) (input : LedgerInput) :
    (system.step input).1.ledger.connected = system.ledger.connected ∧
      (system.step input).1.ledger.options = system.ledger.options := by
  cases input with
  | admitInput envelope readings fate =>
      have outcome := system.ledger.admitInput_admission (fun _ => fate.result) envelope readings
      have room : (system.ledger.withRoom readings.now).connected = system.ledger.connected ∧
          (system.ledger.withRoom readings.now).options = system.ledger.options :=
        ⟨EventStoreInputLedger.withRoom_connected _, EventStoreInputLedger.withRoom_options _⟩
      simp only [LedgerSystem.step, LedgerSystem.called]
      generalize system.ledger.admitInput (fun _ => fate.result) envelope readings = call
        at outcome ⊢
      cases outcome with
      | empty reason => exact ⟨rfl, rfl⟩
      | repeated entry held => exact ⟨rfl, rfl⟩
      | full reason absent => exact room
      | failed sent reason absent refused => exact room
      | fresh receipt absent answer => exact room
  | advance inputId transition eventId fate =>
      have outcome := system.ledger.advance_advance (fun _ => fate.result) inputId transition
        eventId
      simp only [LedgerSystem.step, LedgerSystem.called]
      generalize system.ledger.advance (fun _ => fate.result) inputId transition eventId = call
        at outcome ⊢
      cases outcome <;> exact ⟨rfl, rfl⟩
  | reclaimExpired now => exact ⟨rfl, rfl⟩
  | rebuild =>
      simp only [LedgerSystem.step, EventStoreInputLedger.rebuild]
      by_cases connected : system.ledger.connected = false
      · rw [if_pos connected]
        exact ⟨rfl, rfl⟩
      · rw [if_neg connected]
        cases Paging.scan (EventStoreInputLedger.fetch (readLog system.log)
            system.ledger.partition) EventStoreInputLedger.visit (fun _ => .ok ())
            (system.log.length + 1) {} with
        | none => exact ⟨rfl, rfl⟩
        | some scanned =>
            cases scanned with
            | error reason => exact ⟨rfl, rfl⟩
            | ok scan => exact ⟨rfl, rfl⟩

def doorEnvelope : InputEnvelope where
  principal := { tenantId := .filled 1, userId := .filled 2 }
  inputId := ascii "open-the-door"

def readingsAt (seconds : Int64) (drawn : UInt8) : AdmissionReadings where
  now := seconds * 1000000000
  wall := seconds * 1000000000
  ingressId := .filled drawn
  eventId := .filled drawn

def acknowledgedBy (drawn : UInt8) : AppendFate := .acknowledged { eventId := .filled drawn }

def shortWindow : InputLedgerOptions := { idempotencyWindow := 10 }

def doorEntry (seconds : Int64) (drawn : UInt8) : LedgerEntry where
  inputId := ascii "open-the-door"
  ingressId := .filled drawn
  admittedAt := ⟨(seconds * 1000000000).toInt, 0⟩
  windowExpiresAt := seconds * 1000000000 + 10000000000

end Mira.Interaction
