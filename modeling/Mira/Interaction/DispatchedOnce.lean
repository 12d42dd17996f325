import Mira.Interaction.LedgerCalls

/-!
An input that was admitted once is never admitted again, as long as no sweep finds an
expired entry and every acceptance can be read back. A sweep that drops an entry forgets
that its input was ever seen.
-/

namespace Mira.Interaction
open Mira Bytes Events

namespace LedgerSystem

/-- No entry is past its window. -/
def NoneExpired (ledger : EventStoreInputLedger) (now : Int64) : Prop :=
  ∀ inputId entry, ledger.index.find? inputId = some entry → expired now entry = false

/-- The step forgets no input: no sweep finds an expired entry, and the acceptance of a new
input can be read back. -/
def Keeps (system : LedgerSystem) : LedgerInput → Prop
  | .admitInput envelope readings _ =>
      system.ledger.index.find? envelope.inputId = none →
        (system.ledger.options.maxEntries.toNat ≤ system.ledger.index.size →
          NoneExpired system.ledger readings.now) ∧
        Legible (acceptedPayload (system.ledger.freshEntry envelope readings) envelope.principal)
  | .advance _ _ _ _ => True
  | .reclaimExpired now => NoneExpired system.ledger now
  | .rebuild => True

end LedgerSystem

theorem retain_noneExpired {ledger : EventStoreInputLedger} {now : Int64}
    (none_ : LedgerSystem.NoneExpired ledger now) (inputId : Bytes) :
    (ledger.index.retain fun entry => !expired now entry).find? inputId =
      ledger.index.find? inputId := by
  rw [KeyedTable.find?_retain]
  cases held : ledger.index.find? inputId with
  | none => rfl
  | some entry =>
      rw [Option.filter_some, none_ inputId entry held]
      rfl

theorem withRoom_noneExpired {ledger : EventStoreInputLedger} {now : Int64}
    (none_ : ledger.options.maxEntries.toNat ≤ ledger.index.size →
      LedgerSystem.NoneExpired ledger now) (inputId : Bytes) :
    (ledger.withRoom now).index.find? inputId = ledger.index.find? inputId := by
  simp only [EventStoreInputLedger.withRoom]
  split
  · next full => exact retain_noneExpired (none_ full) inputId
  · rfl

theorem replayLog_keeps {session : SessionId} {log : List EventEnvelope} {inputId : Bytes}
    (held : (replayLog session log).find? inputId ≠ none) (fate : AppendFate)
    (sent : Option AppendRequest) :
    (replayLog session (appended log fate sent)).find? inputId ≠ none := by
  rw [appended]
  cases sent.filter fun _ => fate.effective with
  | none => exact (List.append_nil log).symm ▸ held
  | some request =>
      by_cases own : (stampedIn log request).sessionId = session
      · have grown := replayLog_append log own
        rw [Option.toList_some, List.map_singleton, grown]
        exact replayRecord_keeps _ held
      · rw [Option.toList_some, List.map_singleton, replayLog, sessionEvents_append, if_neg own,
          List.append_nil]
        exact held

/-- The stream holds a readable acceptance of every input of the index. -/
structure Remembered (system : LedgerSystem) : Prop where
  order : InOrder system.log
  connected : system.ledger.connected = true
  stored : ∀ inputId, system.ledger.index.find? inputId ≠ none →
    (replayLog system.ledger.partition system.log).find? inputId ≠ none

theorem remembered_start (runtime : RuntimeId) (options : InputLedgerOptions) :
    Remembered (.start runtime options) where
  order := .nil
  connected := rfl
  stored := fun _ held => absurd rfl held

section Step
variable {system : LedgerSystem}

theorem Remembered.same_inputs (remembered : Remembered system) (fate : AppendFate)
    (sent : Option AppendRequest) {ledger : EventStoreInputLedger}
    (options : ledger.options = system.ledger.options)
    (connected : ledger.connected = system.ledger.connected)
    (same : ∀ inputId, ledger.index.find? inputId ≠ none →
      system.ledger.index.find? inputId ≠ none) :
    Remembered ⟨ledger, appended system.log fate sent⟩ where
  order := remembered.order.appended fate sent
  connected := connected.trans remembered.connected
  stored := by
    intro inputId held
    have session : ledger.partition = system.ledger.partition := by
      rw [EventStoreInputLedger.partition, EventStoreInputLedger.partition, options]
    simp only [session]
    exact replayLog_keeps (remembered.stored inputId (same inputId held)) fate sent

def LedgerSystem.admitted (system : LedgerSystem) (envelope : InputEnvelope)
    (readings : AdmissionReadings) : LedgerSystem :=
  ⟨{ system.ledger.withRoom readings.now with
      index := (system.ledger.withRoom readings.now).index.emplace envelope.inputId
        (system.ledger.freshEntry envelope readings) },
    system.log ++ [stampedIn system.log (system.ledger.request .inputAccepted (acceptedPayload
      (system.ledger.freshEntry envelope readings) envelope.principal) readings.eventId)]⟩

theorem admitted_partition (envelope : InputEnvelope) (readings : AdmissionReadings) :
    (system.admitted envelope readings).ledger.partition = system.ledger.partition := by
  simp only [LedgerSystem.admitted, EventStoreInputLedger.partition,
    EventStoreInputLedger.withRoom_options]

theorem find?_admitted {envelope : InputEnvelope} {readings : AdmissionReadings}
    (absent : system.ledger.index.find? envelope.inputId = none)
    (none_ : system.ledger.options.maxEntries.toNat ≤ system.ledger.index.size →
      LedgerSystem.NoneExpired system.ledger readings.now) (inputId : Bytes) :
    (system.admitted envelope readings).ledger.index.find? inputId =
      if inputId = envelope.inputId then some (system.ledger.freshEntry envelope readings)
      else system.ledger.index.find? inputId := by
  simp only [LedgerSystem.admitted, KeyedTable.find?_emplace, withRoom_noneExpired none_, absent,
    Option.getD_none]

theorem replayLog_admitted {envelope : InputEnvelope} {readings : AdmissionReadings}
    (legible : Legible (acceptedPayload (system.ledger.freshEntry envelope readings)
      envelope.principal)) (inputId : Bytes) :
    (replayLog system.ledger.partition (system.admitted envelope readings).log).find? inputId =
      if inputId = envelope.inputId then
        some { system.ledger.freshEntry envelope readings with
          admittedAt := ⟨readings.wall.toInt, 0⟩ }
      else (replayLog system.ledger.partition system.log).find? inputId := by
  have own : (stampedIn system.log (system.ledger.request .inputAccepted (acceptedPayload
      (system.ledger.freshEntry envelope readings) envelope.principal)
        readings.eventId)).sessionId = system.ledger.partition := rfl
  rw [LedgerSystem.admitted, replayLog_append system.log own]
  have replayed := replayRecord_accepted (replayLog system.ledger.partition system.log)
    system.ledger envelope readings envelope.principal legible
  rw [← KeyedTable.find?_assign, ← replayed]
  rfl

theorem Remembered.admitted (remembered : Remembered system) {envelope : InputEnvelope}
    {readings : AdmissionReadings}
    (absent : system.ledger.index.find? envelope.inputId = none)
    (none_ : system.ledger.options.maxEntries.toNat ≤ system.ledger.index.size →
      LedgerSystem.NoneExpired system.ledger readings.now)
    (legible : Legible (acceptedPayload (system.ledger.freshEntry envelope readings)
      envelope.principal)) :
    Remembered (system.admitted envelope readings) where
  order := remembered.order.append _
  connected := (EventStoreInputLedger.withRoom_connected _).trans remembered.connected
  stored := by
    intro inputId held
    rw [find?_admitted absent none_] at held
    rw [admitted_partition, replayLog_admitted legible]
    split
    · exact Option.some_ne_none _
    · next other =>
        rw [if_neg other] at held
        exact remembered.stored inputId held

theorem LedgerSystem.step_rebuild (order : InOrder system.log)
    (connected : system.ledger.connected = true) :
    system.step .rebuild =
      (⟨{ system.ledger with index := replayLog system.ledger.partition system.log }, system.log⟩,
        .rebuilt (some (.ok ()))) := by
  have rebuilt := EventStoreInputLedger.rebuild_log order connected
    (Nat.lt_succ_self system.log.length)
  simp only [LedgerSystem.step, rebuilt]

theorem Remembered.step (remembered : Remembered system) {input : LedgerInput}
    (keeps : system.Keeps input) :
    Remembered (system.step input).1 ∧ ∀ inputId, system.ledger.index.find? inputId ≠ none →
      (system.step input).1.ledger.index.find? inputId ≠ none := by
  cases input with
  | admitInput envelope readings fate =>
      have outcome := system.ledger.admitInput_admission (fun _ => fate.result) envelope readings
      have room (sent : Option AppendRequest)
          (absent : system.ledger.index.find? envelope.inputId = none) :
          Remembered ⟨system.ledger.withRoom readings.now, appended system.log fate sent⟩ ∧
            ∀ inputId, system.ledger.index.find? inputId ≠ none →
              (system.ledger.withRoom readings.now).index.find? inputId ≠ none := by
        have same := withRoom_noneExpired (keeps absent).1
        refine ⟨remembered.same_inputs fate sent (EventStoreInputLedger.withRoom_options _)
          (EventStoreInputLedger.withRoom_connected _) ?_, ?_⟩
        · intro inputId held
          rwa [same] at held
        · intro inputId held
          rwa [same]
      simp only [LedgerSystem.step, LedgerSystem.called]
      generalize system.ledger.admitInput (fun _ => fate.result) envelope readings = call
        at outcome ⊢
      cases outcome with
      | empty reason =>
          exact ⟨remembered.same_inputs fate none rfl rfl fun _ held => held, fun _ held => held⟩
      | repeated entry held =>
          exact ⟨remembered.same_inputs fate none rfl rfl fun _ held => held, fun _ held => held⟩
      | full reason absent => exact room none absent
      | failed sent reason absent refused => exact room sent absent
      | fresh receipt absent answer =>
          cases fate with
          | acknowledged receipt =>
              obtain ⟨none_, legible⟩ := keeps absent
              refine ⟨remembered.admitted absent none_ legible, ?_⟩
              intro inputId held
              have found := find?_admitted absent none_ inputId
              simp only [LedgerSystem.admitted] at found
              rw [found]
              split
              · exact Option.some_ne_none _
              · exact held
          | rejected reason => cases answer
          | lost reason => cases answer
  | advance inputId transition eventId fate =>
      have outcome := system.ledger.advance_advance (fun _ => fate.result) inputId transition
        eventId
      simp only [LedgerSystem.step, LedgerSystem.called]
      generalize system.ledger.advance (fun _ => fate.result) inputId transition eventId = call
        at outcome ⊢
      have edited {old : LedgerEntry} (held : system.ledger.index.find? inputId = some old)
          (entry : LedgerEntry) (other : Bytes) :
          (system.ledger.withEntry inputId entry).index.find? other ≠ none ↔
            system.ledger.index.find? other ≠ none := by
        rw [find?_withEntry held]
        split
        · next own => simp [own, held]
        · exact Iff.rfl
      cases outcome with
      | unknown absent =>
          exact ⟨remembered.same_inputs fate none rfl rfl fun _ held => held, fun _ held => held⟩
      | ignored entry held late =>
          exact ⟨remembered.same_inputs fate none rfl rfl fun _ held => held, fun _ held => held⟩
      | silent entry held due unrecorded =>
          exact ⟨remembered.same_inputs fate none rfl rfl fun other => (edited held _ other).mp,
            fun other => (edited held _ other).mpr⟩
      | failed entry held due type object recorded sent reason answer =>
          exact ⟨remembered.same_inputs fate sent rfl rfl fun other => (edited held _ other).mp,
            fun other => (edited held _ other).mpr⟩
      | recorded entry held due type object recorded answer =>
          exact ⟨remembered.same_inputs fate _ rfl rfl fun other => (edited held _ other).mp,
            fun other => (edited held _ other).mpr⟩
  | reclaimExpired now =>
      have same := retain_noneExpired keeps
      refine ⟨⟨remembered.order, remembered.connected, ?_⟩, ?_⟩
      · intro inputId held
        exact remembered.stored inputId (same inputId ▸ held)
      · intro inputId held
        exact same inputId ▸ held
  | rebuild =>
      rw [LedgerSystem.step_rebuild remembered.order remembered.connected]
      exact ⟨⟨remembered.order, remembered.connected, fun _ held => held⟩, remembered.stored⟩

end Step

open Execution in
theorem remembered_run {runtime : RuntimeId} {options : InputLedgerOptions}
    {inputs : List LedgerInput}
    (keeps : Guarded LedgerSystem.step LedgerSystem.Keeps (.start runtime options) inputs) :
    Remembered (run LedgerSystem.step (.start runtime options) inputs) :=
  run_invariant LedgerSystem.step LedgerSystem.Keeps Remembered
    (fun _ _ guard remembered => (remembered.step guard).1) _ inputs
    (remembered_start runtime options) keeps

open Execution in
theorem held_run {system : LedgerSystem} (remembered : Remembered system) {inputId : Bytes}
    (held : system.ledger.index.find? inputId ≠ none) {inputs : List LedgerInput}
    (keeps : Guarded LedgerSystem.step LedgerSystem.Keeps system inputs) :
    (run LedgerSystem.step system inputs).ledger.index.find? inputId ≠ none := by
  refine (run_invariant LedgerSystem.step LedgerSystem.Keeps
    (fun system => Remembered system ∧ system.ledger.index.find? inputId ≠ none) ?_ system inputs
    ⟨remembered, held⟩ keeps).2
  intro system input guard both
  obtain ⟨next, kept⟩ := both.1.step guard
  exact ⟨next, kept inputId both.2⟩

theorem admitInput_repeated {ledger : EventStoreInputLedger} {envelope : InputEnvelope}
    {entry : LedgerEntry} (named : envelope.inputId ≠ [])
    (held : ledger.index.find? envelope.inputId = some entry)
    (store : AppendRequest → Result AppendReceipt) (readings : AdmissionReadings) :
    (ledger.admitInput store envelope readings).result = repeatAnswer readings.now entry := by
  have some_ : ¬ envelope.inputId.isEmpty = true := by
    rw [List.isEmpty_iff]
    exact named
  simp only [EventStoreInputLedger.admitInput, if_neg some_, held, repeatAnswer]
  split <;> rfl

theorem admitted_held {system : LedgerSystem} {envelope : InputEnvelope}
    {readings : AdmissionReadings} {fate : AppendFate} {entry : LedgerEntry}
    (answer : (system.step (.admitInput envelope readings fate)).2 = .entry (.ok entry))
    (fresh : entry.duplicate = false) :
    envelope.inputId ≠ [] ∧
      (system.step (.admitInput envelope readings fate)).1.ledger.index.find? envelope.inputId ≠
        none := by
  have named : envelope.inputId ≠ [] := by
    intro empty
    simp only [LedgerSystem.step, LedgerSystem.called, EventStoreInputLedger.admitInput, empty,
      List.isEmpty_nil, if_true] at answer
    cases answer
  refine ⟨named, ?_⟩
  have outcome := system.ledger.admitInput_admission (fun _ => fate.result) envelope readings
  simp only [LedgerSystem.step, LedgerSystem.called] at answer ⊢
  generalize system.ledger.admitInput (fun _ => fate.result) envelope readings = call
    at outcome answer ⊢
  cases outcome with
  | empty reason => cases answer
  | repeated held found =>
      simp only [repeatAnswer] at answer
      split at answer
      · cases answer
      · cases answer
        cases fresh
  | full reason absent => cases answer
  | failed sent reason absent refused => cases answer
  | fresh receipt absent given =>
      rw [KeyedTable.find?_emplace, if_pos rfl]
      exact Option.some_ne_none _

open Execution in
/-- In a run that forgets no input, an input that was admitted is never admitted again: a
repeat is a duplicate of the entry inside its window and expired outside. -/
theorem dispatched_once (runtime : RuntimeId) (options : InputLedgerOptions)
    (before between : List LedgerInput) (first : InputEnvelope) (readings : AdmissionReadings)
    (fate : AppendFate)
    (keeps : Guarded LedgerSystem.step LedgerSystem.Keeps (.start runtime options)
      (before ++ .admitInput first readings fate :: between))
    (admitted : LedgerEntry) (fresh : admitted.duplicate = false)
    (answer : ((run LedgerSystem.step (.start runtime options) before).step
      (.admitInput first readings fate)).2 = .entry (.ok admitted))
    (again : InputEnvelope) (same : again.inputId = first.inputId)
    (readings' : AdmissionReadings) (fate' : AppendFate) :
    ∃ entry, (run LedgerSystem.step (.start runtime options)
        (before ++ .admitInput first readings fate :: between)).ledger.lookup first.inputId =
          .ok entry ∧
      ((run LedgerSystem.step (.start runtime options)
        (before ++ .admitInput first readings fate :: between)).step
          (.admitInput again readings' fate')).2 =
        .entry (if readings'.now ≤ entry.windowExpiresAt then .ok { entry with duplicate := true }
          else .error inputExpired) := by
  obtain ⟨keeps_before, keeps_first, keeps_between⟩ :=
    (guarded_append LedgerSystem.step LedgerSystem.Keeps _ before _).mp keeps
  have remembered := remembered_run keeps_before
  obtain ⟨named, held⟩ := admitted_held answer fresh
  have kept := held_run (remembered.step keeps_first).1 held keeps_between
  rw [run_append]
  simp only [run]
  generalize run LedgerSystem.step ((run LedgerSystem.step (.start runtime options) before).step
    (.admitInput first readings fate)).1 between = final at kept
  obtain ⟨entry, found⟩ := Option.ne_none_iff_exists'.mp kept
  have repeated := admitInput_repeated (same.symm ▸ named) (same.symm ▸ found)
    (fun _ => fate'.result) readings'
  refine ⟨entry, ?_, ?_⟩
  · simp only [EventStoreInputLedger.lookup, found]
  · simp only [LedgerSystem.step, LedgerSystem.called, repeated, repeatAnswer, expired,
      decide_eq_true_eq]
    by_cases within : readings'.now ≤ entry.windowExpiresAt
    · rw [if_pos within, if_neg (Int64.not_lt.mpr within)]
    · rw [if_neg within, if_pos (Int64.not_le.mp within)]

/-- A repeat after a restart is answered from the entry. -/
theorem restarted_repeat_answered :
    ∃ entry : LedgerEntry, ((Execution.run LedgerSystem.step (.start (.filled 3) shortWindow)
        [.admitInput doorEnvelope (readingsAt 100 7) (acknowledgedBy 7), .rebuild]).step
          (.admitInput doorEnvelope (readingsAt 105 8) (acknowledgedBy 8))).2 =
      .entry (if (readingsAt 105 8).now ≤ entry.windowExpiresAt then
        .ok { entry with duplicate := true } else .error inputExpired) := by
  have keeps : Execution.Guarded LedgerSystem.step LedgerSystem.Keeps
      (.start (.filled 3) shortWindow)
      ([] ++ .admitInput doorEnvelope (readingsAt 100 7) (acknowledgedBy 7) :: [.rebuild]) := by
    refine ⟨fun _ => ⟨?_, legible_of_plain (by decide +kernel) (by decide +kernel)⟩, trivial,
      trivial⟩
    intro _ inputId entry held
    cases held
  obtain ⟨entry, _, answer⟩ := dispatched_once (.filled 3) shortWindow [] [.rebuild] doorEnvelope
    (readingsAt 100 7) (acknowledgedBy 7) keeps (doorEntry 100 7) rfl (by decide +kernel)
    doorEnvelope rfl (readingsAt 105 8) (acknowledgedBy 8)
  exact ⟨entry, answer⟩

/-- A sweep forgets the input, and its repeat is admitted a second time. -/
theorem reclaimed_input_admitted_again :
    Execution.outputs LedgerSystem.step (.start (.filled 3) shortWindow)
      [.admitInput doorEnvelope (readingsAt 100 7) (acknowledgedBy 7),
        .reclaimExpired 111000000000,
        .admitInput doorEnvelope (readingsAt 112 8) (acknowledgedBy 8)] =
      [.entry (.ok (doorEntry 100 7)), .reclaimed 1, .entry (.ok (doorEntry 112 8))] ∧
    (doorEntry 100 7).duplicate = false ∧ (doorEntry 112 8).duplicate = false := by
  decide +kernel

theorem LedgerSystem.step_order {system : LedgerSystem} (order : InOrder system.log)
    (input : LedgerInput) : InOrder (system.step input).1.log := by
  cases input with
  | admitInput envelope readings fate => exact order.appended _ _
  | advance inputId transition eventId fate => exact order.appended _ _
  | reclaimExpired now => exact order
  | rebuild =>
      rw [step]
      split <;> exact order

open Execution in
/-- Whatever a ledger remembers, a rebuild ends and leaves what one pass over the stream gives. -/
theorem rebuild_forgets (runtime : RuntimeId) (options : InputLedgerOptions)
    (inputs : List LedgerInput) (held : LedgerIndex) :
    let system := run LedgerSystem.step (.start runtime options) inputs
    EventStoreInputLedger.rebuild { system.ledger with index := held } (readLog system.log)
        (system.log.length + 1) =
      some ({ system.ledger with index := replayLog system.ledger.partition system.log },
        .ok ()) := by
  intro system
  have kept : InOrder system.log ∧ system.ledger.connected = true :=
    run_invariant_always LedgerSystem.step
      (fun system => InOrder system.log ∧ system.ledger.connected = true)
      (fun system input kept =>
        ⟨system.step_order kept.1 input, (system.step_frame input).1.trans kept.2⟩)
      _ inputs ⟨.nil, rfl⟩
  exact @EventStoreInputLedger.rebuild_log _ kept.1 { system.ledger with index := held } kept.2 _
    (Nat.lt_succ_self _)

end Mira.Interaction
