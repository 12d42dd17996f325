import Mira.Interaction.DispatchedOnce

/-!
A restart from the stream. What a transition edits and what its record restores are two
case analyses; where they agree on every step, the rebuilt ledger reports the dispositions
of the live one.
-/

namespace Mira.Interaction
open Mira Bytes Events

def InteractionError.report (error : InteractionError) : ErrorCode × Int32 × Bytes :=
  (error.code, error.domainCode, error.safeMessage)

structure SameDisposition (live rebuilt : LedgerEntry) : Prop where
  ingress : live.ingressId = rebuilt.ingressId
  stage : live.stage = rebuilt.stage
  session : live.sessionId = rebuilt.sessionId
  task : live.taskId = rebuilt.taskId
  clarification : live.clarification = rebuilt.clarification
  window : live.windowExpiresAt = rebuilt.windowExpiresAt
  error : live.error.map InteractionError.report = rebuilt.error.map InteractionError.report

def SameAnswer : LedgerResult LedgerEntry → LedgerResult LedgerEntry → Prop
  | .ok live, .ok rebuilt => live.duplicate = rebuilt.duplicate ∧ SameDisposition live rebuilt
  | .error reason, .error reason' => reason = reason'
  | _, _ => False

/-- What the record of a transition does not restore is in the entry already. -/
structure Restorable (entry : LedgerEntry) (transition : LedgerTransition) : Prop where
  stage : transition.stage = .accepted → transition.clarification.isSome →
    entry.stage = .accepted
  session : transition.stage ≠ .routed → ∀ session ∈ transition.sessionId,
    entry.sessionId = some session
  task : transition.stage ≠ .routed → transition.stage ≠ .taskSettled →
    ∀ task ∈ transition.taskId, entry.taskId = some task
  clarification : transition.stage ≠ .accepted → ∀ text ∈ transition.clarification,
    entry.clarification = some text
  error : transition.stage ≠ .rejected → ∀ reason ∈ transition.error,
    entry.error.map InteractionError.report = some reason.report
  /-- A rejection is restored as an invalid state, with the note in place of an error. -/
  rejection : transition.stage = .rejected →
    (transition.error.or entry.error).map InteractionError.report =
      some (.invalidState,
        (transition.error.map InteractionError.domainCode).getD
          InteractionDomainCode.unknown.value,
        (transition.error.map InteractionError.safeMessage).getD transition.note)

/-- The steps that a restart can follow: the appends succeed, nothing is swept, records can
be read back and restore what was edited. -/
def LedgerSystem.Restores (system : LedgerSystem) : LedgerInput → Prop
  | .admitInput envelope readings fate =>
      (∃ receipt, fate = .acknowledged receipt) ∧
        system.Keeps (.admitInput envelope readings fate)
  | .advance inputId transition _ fate =>
      (∃ receipt, fate = .acknowledged receipt) ∧
        ∀ entry, system.ledger.index.find? inputId = some entry →
          entry.ignores transition = false → Restorable entry transition ∧
            ∀ type members, (entry.edited transition).record transition = some (type, members) →
              Legible members
  | .reclaimExpired now => NoneExpired system.ledger now
  | .rebuild => True

theorem or_of_known {α : Type} {new old : Option α} (known : ∀ value ∈ new, old = some value) :
    new.or old = old := by
  cases new with
  | none => rfl
  | some value => exact (known value rfl).symm

section Entries
variable {entry rebuilt : LedgerEntry} {transition : LedgerTransition}

theorem Restorable.error_edited (restorable : Restorable entry transition)
    (other : transition.stage ≠ .rejected) :
    (entry.edited transition).error.map InteractionError.report =
      entry.error.map InteractionError.report := by
  have own : (entry.edited transition).error = transition.error.or entry.error := rfl
  rw [own]
  cases carried : transition.error with
  | none => rfl
  | some reason => exact (restorable.error other reason carried).symm

theorem SameDisposition.silent (same : SameDisposition entry rebuilt)
    (restorable : Restorable entry transition) (plain : ¬ transition.recorded) :
    SameDisposition (entry.edited transition) rebuilt := by
  obtain ⟨accepted, unclarified⟩ := not_or.mp plain
  have stage : transition.stage = .accepted := not_not.mp accepted
  have other {kind : InputStage} (differs : kind ≠ .accepted) : transition.stage ≠ kind :=
    fun own => differs (own.symm.trans stage)
  refine ⟨same.ingress, (if_neg plain).trans same.stage, ?_, ?_, ?_, same.window, ?_⟩
  · exact (or_of_known (restorable.session (other (by decide)))).trans same.session
  · exact (or_of_known (restorable.task (other (by decide)) (other (by decide)))).trans same.task
  · have none_ : transition.clarification = none := by
      rwa [Bool.not_eq_true, Option.isSome_eq_false_iff, Option.isNone_iff_eq_none] at unclarified
    have own : (entry.edited transition).clarification = entry.clarification := by
      simp only [LedgerEntry.edited, none_, Option.none_or]
    exact own.trans same.clarification
  · exact (restorable.error_edited (other (by decide))).trans same.error

theorem SameDisposition.recorded (same : SameDisposition entry rebuilt)
    (restorable : Restorable entry transition) (visible : transition.recorded) :
    SameDisposition (entry.edited transition) (rebuilt.restored transition) := by
  have stage_edited : (entry.edited transition).stage = transition.stage := if_pos visible
  have session_kept (other : transition.stage ≠ .routed) :
      (entry.edited transition).sessionId = rebuilt.sessionId :=
    (or_of_known (restorable.session other)).trans same.session
  have task_kept (other : transition.stage ≠ .routed) (other' : transition.stage ≠ .taskSettled) :
      (entry.edited transition).taskId = rebuilt.taskId :=
    (or_of_known (restorable.task other other')).trans same.task
  have task_restored : (entry.edited transition).taskId = transition.taskId.or rebuilt.taskId := by
    rw [← same.task]
    rfl
  have clarification_kept (other : transition.stage ≠ .accepted) :
      (entry.edited transition).clarification = rebuilt.clarification :=
    (or_of_known (restorable.clarification other)).trans same.clarification
  have error_kept (other : transition.stage ≠ .rejected) :
      (entry.edited transition).error.map InteractionError.report =
        rebuilt.error.map InteractionError.report :=
    (restorable.error_edited other).trans same.error
  cases stage : transition.stage with
  | routed =>
      have shape : rebuilt.restored transition =
          { rebuilt with
            stage := .routed
            sessionId := transition.sessionId.or rebuilt.sessionId
            taskId := transition.taskId.or rebuilt.taskId
            note := transition.note } := by
        simp only [LedgerEntry.restored, stage]
      rw [shape]
      refine ⟨same.ingress, stage_edited.trans stage, ?_, task_restored,
        clarification_kept (by rw [stage]; decide), same.window, error_kept (by rw [stage]; decide)⟩
      rw [← same.session]
      rfl
  | answered =>
      have shape : rebuilt.restored transition =
          { rebuilt with stage := .answered, note := transition.note } := by
        simp only [LedgerEntry.restored, stage]
      rw [shape]
      exact ⟨same.ingress, stage_edited.trans stage, session_kept (by rw [stage]; decide),
        task_kept (by rw [stage]; decide) (by rw [stage]; decide),
        clarification_kept (by rw [stage]; decide), same.window, error_kept (by rw [stage]; decide)⟩
  | taskSettled =>
      have shape : rebuilt.restored transition =
          { rebuilt with
            stage := .taskSettled
            taskId := transition.taskId.or rebuilt.taskId } := by
        simp only [LedgerEntry.restored, stage]
      rw [shape]
      exact ⟨same.ingress, stage_edited.trans stage, session_kept (by rw [stage]; decide),
        task_restored, clarification_kept (by rw [stage]; decide), same.window,
        error_kept (by rw [stage]; decide)⟩
  | rejected =>
      have shape : rebuilt.restored transition =
          { rebuilt with
            stage := .rejected
            error := some
              { code := .invalidState
                domain := interactionErrorDomain
                domainCode := (transition.error.map InteractionError.domainCode).getD
                  InteractionDomainCode.unknown.value
                safeMessage := (transition.error.map InteractionError.safeMessage).getD
                  transition.note } } := by
        simp only [LedgerEntry.restored, stage]
      rw [shape]
      exact ⟨same.ingress, stage_edited.trans stage, session_kept (by rw [stage]; decide),
        task_kept (by rw [stage]; decide) (by rw [stage]; decide),
        clarification_kept (by rw [stage]; decide), same.window, restorable.rejection stage⟩
  | accepted =>
      have shape : rebuilt.restored transition =
          { rebuilt with
            clarification := transition.clarification.or rebuilt.clarification } := by
        simp only [LedgerEntry.restored, stage]
      have clarifying := visible.resolve_left (not_not.mpr stage)
      rw [shape]
      refine ⟨same.ingress, ?_, session_kept (by rw [stage]; decide),
        task_kept (by rw [stage]; decide) (by rw [stage]; decide), ?_, same.window,
        error_kept (by rw [stage]; decide)⟩
      · rw [stage_edited, stage, ← restorable.stage stage clarifying]
        exact same.stage
      · rw [← same.clarification]
        rfl

end Entries

variable (entry : LedgerEntry)

theorem SameDisposition.refl : SameDisposition entry entry :=
  ⟨rfl, rfl, rfl, rfl, rfl, rfl, rfl⟩

def Keyed (index : LedgerIndex) : Prop :=
  ∀ inputId entry, index.find? inputId = some entry → entry.inputId = inputId

variable {index : LedgerIndex}

theorem Keyed.update (keyed : Keyed index) (inputId : Bytes) {f : LedgerEntry → LedgerEntry}
    (kept : ∀ entry, (f entry).inputId = entry.inputId) : Keyed (index.update inputId f) := by
  intro other entry held
  rw [KeyedTable.find?_update] at held
  split at held
  · next own =>
      obtain ⟨old, found, rfl⟩ := Option.map_eq_some_iff.mp held
      rw [kept, own]
      exact keyed inputId old found
  · exact keyed other entry held

theorem Keyed.assign (keyed : Keyed index) {entry : LedgerEntry} {inputId : Bytes}
    (own : entry.inputId = inputId) : Keyed (index.assign inputId entry) := by
  intro other held found
  rw [KeyedTable.find?_assign] at found
  split at found
  · next same =>
      cases found
      rw [own, same]
  · exact keyed other held found

theorem replayed_inputId (type : Option InteractionEventType) (document : JsonValue) :
    (entry.replayed type document).inputId = entry.inputId := by
  simp only [LedgerEntry.replayed]
  split <;> rfl

theorem Keyed.replayRecord (keyed : Keyed index) (data : Bytes) :
    Keyed (replayRecord index data) := by
  simp only [Interaction.replayRecord]
  split
  · exact keyed
  · split
    · split
      · exact keyed.assign rfl
      · exact keyed.update _ fun entry => replayed_inputId entry _ _
    · exact keyed

theorem replayLog_keyed (session : SessionId) (log : List EventEnvelope) :
    Keyed (replayLog session log) := by
  rw [replayLog]
  have start : Keyed (.empty : LedgerIndex) := fun _ _ absent => by cases absent
  generalize (.empty : LedgerIndex) = index at start
  induction sessionEvents session log generalizing index with
  | nil => exact start
  | cons event rest ih => exact ih _ (start.replayRecord event.payload.data)

/-- The stream replays to the dispositions of the index. -/
structure Restored (system : LedgerSystem) : Prop where
  order : InOrder system.log
  connected : system.ledger.connected = true
  keyed : Keyed system.ledger.index
  agreed : ∀ inputId, Option.Rel SameDisposition (system.ledger.index.find? inputId)
    ((replayLog system.ledger.partition system.log).find? inputId)

theorem restored_start (runtime : RuntimeId) (options : InputLedgerOptions) :
    Restored (.start runtime options) where
  order := .nil
  connected := rfl
  keyed := fun _ _ absent => by cases absent
  agreed := fun _ => .none

section Step
variable {system : LedgerSystem}

theorem Restored.same_entries (restored : Restored system) {ledger : EventStoreInputLedger}
    (options : ledger.options = system.ledger.options)
    (connected : ledger.connected = system.ledger.connected)
    (same : ∀ inputId, ledger.index.find? inputId = system.ledger.index.find? inputId) :
    Restored ⟨ledger, system.log⟩ where
  order := restored.order
  connected := connected.trans restored.connected
  keyed := by
    intro inputId entry held
    exact restored.keyed inputId entry ((same inputId).symm.trans held)
  agreed := by
    intro inputId
    have session : ledger.partition = system.ledger.partition := by
      rw [EventStoreInputLedger.partition, EventStoreInputLedger.partition, options]
    simp only [session, same]
    exact restored.agreed inputId

theorem Restored.admitted (restored : Restored system) {envelope : InputEnvelope}
    {readings : AdmissionReadings}
    (absent : system.ledger.index.find? envelope.inputId = none)
    (none_ : system.ledger.options.maxEntries.toNat ≤ system.ledger.index.size →
      LedgerSystem.NoneExpired system.ledger readings.now)
    (legible : Legible (acceptedPayload (system.ledger.freshEntry envelope readings)
      envelope.principal)) :
    Restored (system.admitted envelope readings) where
  order := restored.order.append _
  connected := (EventStoreInputLedger.withRoom_connected _).trans restored.connected
  keyed := by
    intro inputId entry held
    rw [find?_admitted absent none_] at held
    split at held
    · next own =>
        cases held
        exact own.symm
    · exact restored.keyed inputId entry held
  agreed := by
    intro inputId
    rw [admitted_partition, find?_admitted absent none_, replayLog_admitted legible]
    split
    · exact .some ⟨rfl, rfl, rfl, rfl, rfl, rfl, rfl⟩
    · exact restored.agreed inputId

theorem Restored.edited (restored : Restored system) {inputId : Bytes} {entry : LedgerEntry}
    (held : system.ledger.index.find? inputId = some entry) (edited : LedgerEntry)
    (f : LedgerEntry → LedgerEntry) (own : edited.inputId = entry.inputId)
    {log : List EventEnvelope} (order : InOrder log)
    (replayed : ∀ other, (replayLog system.ledger.partition log).find? other =
      if other = inputId then
        ((replayLog system.ledger.partition system.log).find? inputId).map f
      else (replayLog system.ledger.partition system.log).find? other)
    (same : ∀ rebuilt, SameDisposition entry rebuilt → SameDisposition edited (f rebuilt)) :
    Restored ⟨system.ledger.withEntry inputId edited, log⟩ where
  order := order
  connected := restored.connected
  keyed := by
    intro other found hit
    rw [find?_withEntry held] at hit
    split at hit
    · next mine =>
        cases hit
        rw [own, mine]
        exact restored.keyed inputId entry held
    · exact restored.keyed other found hit
  agreed := by
    intro other
    have session : (system.ledger.withEntry inputId edited).partition =
        system.ledger.partition := rfl
    rw [session, find?_withEntry held, replayed other]
    split
    · have agreed := restored.agreed inputId
      rw [held] at agreed
      cases rebuilt : (replayLog system.ledger.partition system.log).find? inputId with
      | none =>
          rw [rebuilt] at agreed
          cases agreed
      | some other =>
          rw [rebuilt] at agreed
          cases agreed with
          | some disposition => exact .some (same other disposition)
    · exact restored.agreed other

theorem Restored.step (restored : Restored system) {input : LedgerInput}
    (restores : system.Restores input) : Restored (system.step input).1 := by
  cases input with
  | admitInput envelope readings fate =>
      obtain ⟨⟨receipt, rfl⟩, keeps⟩ := restores
      have outcome := system.ledger.admitInput_admission
        (fun _ => (AppendFate.acknowledged receipt).result) envelope readings
      simp only [LedgerSystem.step, LedgerSystem.called]
      generalize system.ledger.admitInput (fun _ => (AppendFate.acknowledged receipt).result)
        envelope readings = call at outcome ⊢
      cases outcome with
      | empty reason =>
          simp only [appended_none]
          exact restored
      | repeated entry held =>
          simp only [appended_none]
          exact restored
      | full reason absent =>
          simp only [appended_none]
          exact restored.same_entries (EventStoreInputLedger.withRoom_options _)
            (EventStoreInputLedger.withRoom_connected _) (withRoom_noneExpired (keeps absent).1)
      | failed sent reason absent refused =>
          have connected := (EventStoreInputLedger.withRoom_connected readings.now).trans
            restored.connected
          have accepted := EventStoreInputLedger.append_acknowledged connected receipt
            .inputAccepted (acceptedPayload (system.ledger.freshEntry envelope readings)
              envelope.principal) readings.eventId
          cases accepted.symm.trans refused
      | fresh receipt absent answer =>
          exact restored.admitted absent (keeps absent).1 (keeps absent).2
  | advance inputId transition eventId fate =>
      obtain ⟨⟨receipt, rfl⟩, restores⟩ := restores
      have outcome := system.ledger.advance_advance
        (fun _ => (AppendFate.acknowledged receipt).result) inputId transition eventId
      simp only [LedgerSystem.step, LedgerSystem.called]
      generalize system.ledger.advance (fun _ => (AppendFate.acknowledged receipt).result) inputId
        transition eventId = call at outcome ⊢
      cases outcome with
      | unknown absent =>
          simp only [appended_none]
          exact restored
      | ignored entry held late =>
          simp only [appended_none]
          exact restored
      | silent entry held due unrecorded =>
          obtain ⟨restorable, _⟩ := restores entry held due
          have plain : ¬ transition.recorded := by
            rw [← record_isSome_iff, unrecorded]
            exact Bool.false_ne_true
          simp only [appended_none]
          refine restored.edited held (entry.edited transition) id rfl restored.order ?_ ?_
          · intro other
            rw [Option.map_id]
            split
            · next mine => rw [mine]; rfl
            · rfl
          · intro rebuilt same
            exact same.silent restorable plain
      | failed entry held due type object recorded sent reason refused =>
          have accepted := EventStoreInputLedger.append_acknowledged restored.connected
            receipt type object eventId
          cases accepted.symm.trans refused
      | recorded entry held due type object recorded answer =>
          obtain ⟨restorable, legible⟩ := restores entry held due
          have visible : transition.recorded := by
            rw [← record_isSome_iff, recorded]
            rfl
          have named : (entry.edited transition).inputId = inputId :=
            restored.keyed inputId entry held
          refine restored.edited held (entry.edited transition)
            (fun held => held.restored transition) rfl (restored.order.append _) ?_
            fun rebuilt same => same.recorded restorable visible
          intro other
          have own : (stampedIn system.log (system.ledger.request type object
              eventId)).sessionId = system.ledger.partition := rfl
          have replayed := replayRecord_transition
            (replayLog system.ledger.partition system.log) recorded
            (legible type object recorded)
          have grown := replayLog_append system.log own
          rw [← KeyedTable.find?_update, ← named, ← replayed]
          exact congrArg (fun index : LedgerIndex => index.find? other) grown
  | reclaimExpired now => exact restored.same_entries rfl rfl (retain_noneExpired restores)
  | rebuild =>
      rw [LedgerSystem.step_rebuild restored.order restored.connected]
      refine ⟨restored.order, restored.connected, replayLog_keyed _ _, ?_⟩
      intro inputId
      have session : ({ system.ledger with
          index := replayLog system.ledger.partition system.log } :
            EventStoreInputLedger).partition = system.ledger.partition := rfl
      simp only [session]
      cases (replayLog system.ledger.partition system.log).find? inputId with
      | none => exact .none
      | some entry => exact .some (.refl entry)

end Step

open Execution in
theorem restored_run {runtime : RuntimeId} {options : InputLedgerOptions}
    {inputs : List LedgerInput}
    (restores : Guarded LedgerSystem.step LedgerSystem.Restores (.start runtime options) inputs) :
    Restored (run LedgerSystem.step (.start runtime options) inputs) :=
  run_invariant LedgerSystem.step LedgerSystem.Restores Restored
    (fun _ _ guard restored => restored.step guard) _ inputs (restored_start runtime options)
    restores

theorem SameDisposition.repeatAnswer {live rebuilt : LedgerEntry}
    (same : SameDisposition live rebuilt) (now : Int64) :
    SameAnswer (repeatAnswer now live) (repeatAnswer now rebuilt) := by
  have window : expired now live = expired now rebuilt := by
    rw [expired, expired, same.window]
  rw [Interaction.repeatAnswer, Interaction.repeatAnswer, window]
  by_cases late : expired now rebuilt = true
  · rw [if_pos late, if_pos late]
    exact rfl
  · rw [if_neg late, if_neg late]
    exact ⟨rfl, same.ingress, same.stage, same.session, same.task, same.clarification,
      same.window, same.error⟩

open Execution in
/-- A ledger that is rebuilt from the stream reports what the live one reports, and answers
a repeat as the live one does. -/
theorem restart_same_dispositions (runtime : RuntimeId) (options : InputLedgerOptions)
    (inputs : List LedgerInput)
    (restores : Guarded LedgerSystem.step LedgerSystem.Restores (.start runtime options) inputs) :
    ∃ rebuilt : EventStoreInputLedger,
      EventStoreInputLedger.rebuild { runtime := runtime, options := options }
        (readLog (run LedgerSystem.step (.start runtime options) inputs).log)
        ((run LedgerSystem.step (.start runtime options) inputs).log.length + 1) =
          some (rebuilt, .ok ()) ∧
      (∀ inputId, Option.Rel SameDisposition
        ((run LedgerSystem.step (.start runtime options) inputs).ledger.index.find? inputId)
        (rebuilt.index.find? inputId)) ∧
      ∀ (envelope : InputEnvelope) readings store store',
        (run LedgerSystem.step (.start runtime options) inputs).ledger.index.find?
          envelope.inputId ≠ none → envelope.inputId ≠ [] →
        SameAnswer
          ((run LedgerSystem.step (.start runtime options) inputs).ledger.admitInput store envelope
            readings).result
          (rebuilt.admitInput store' envelope readings).result := by
  have restored := restored_run restores
  have unchanged : (run LedgerSystem.step (.start runtime options) inputs).ledger.options =
      options := by
    apply run_invariant_always _ (fun system : LedgerSystem => system.ledger.options = options)
    · intro system input same
      rw [(system.step_frame input).2, same]
    · rfl
  generalize run LedgerSystem.step (.start runtime options) inputs = system at restored unchanged ⊢
  have agreed := restored.agreed
  have session : system.ledger.partition =
      EventStoreInputLedger.partition { runtime := runtime, options := options } := by
    rw [EventStoreInputLedger.partition, EventStoreInputLedger.partition, unchanged]
  rw [session] at agreed
  refine ⟨_, EventStoreInputLedger.rebuild_log restored.order rfl (Nat.lt_succ_self _), agreed, ?_⟩
  intro envelope readings store store' held named
  obtain ⟨entry, found⟩ := Option.ne_none_iff_exists'.mp held
  have both := agreed envelope.inputId
  rw [found] at both
  cases again : (replayLog (EventStoreInputLedger.partition
      { runtime := runtime, options := options }) system.log).find? envelope.inputId with
  | none =>
      rw [again] at both
      cases both
  | some rebuilt =>
      rw [again] at both
      cases both with
      | some same =>
          rw [admitInput_repeated named found, admitInput_repeated named again]
          exact same.repeatAnswer readings.now

def routedDoor : LedgerTransition where
  stage := .routed
  sessionId := some (.filled 4)
  taskId := some (.filled 5)
  intent := some .newTask
  note := ascii "a new task"

def routedRun : List LedgerInput :=
  [.admitInput doorEnvelope (readingsAt 100 7) (acknowledgedBy 7),
    .advance (ascii "open-the-door") routedDoor (.filled 9) (acknowledgedBy 9)]

theorem routedRun_restored :
    ∃ rebuilt : EventStoreInputLedger,
      EventStoreInputLedger.rebuild { runtime := .filled 3, options := shortWindow }
        (readLog (Execution.run LedgerSystem.step (.start (.filled 3) shortWindow) routedRun).log)
        ((Execution.run LedgerSystem.step (.start (.filled 3) shortWindow)
          routedRun).log.length + 1) = some (rebuilt, .ok ()) ∧
      Option.Rel SameDisposition
        ((Execution.run LedgerSystem.step (.start (.filled 3) shortWindow)
          routedRun).ledger.index.find? (ascii "open-the-door"))
        (rebuilt.index.find? (ascii "open-the-door")) := by
  have restores : Execution.Guarded LedgerSystem.step LedgerSystem.Restores
      (.start (.filled 3) shortWindow) routedRun := by
    refine ⟨⟨⟨_, rfl⟩, fun _ => ⟨?_, ?_⟩⟩, ⟨⟨_, rfl⟩, ?_⟩, trivial⟩
    · intro _ inputId entry held
      cases held
    · exact legible_of_plain (by decide +kernel) (by decide +kernel)
    · intro entry held _
      have admitted : (Execution.run LedgerSystem.step (.start (.filled 3) shortWindow)
          [.admitInput doorEnvelope (readingsAt 100 7) (acknowledgedBy 7)]).ledger.index.find?
            (ascii "open-the-door") = some (doorEntry 100 7) := by decide +kernel
      cases admitted.symm.trans held
      refine ⟨⟨?_, ?_, ?_, ?_, ?_, ?_⟩, ?_⟩
      · intro impossible
        cases impossible
      · intro other
        exact absurd rfl other
      · intro other
        exact absurd rfl other
      · intro _ text carried
        cases carried
      · intro _ reason carried
        cases carried
      · intro impossible
        cases impossible
      · intro type members recorded
        cases recorded
        exact legible_of_plain (by decide +kernel) (by decide +kernel)
  obtain ⟨rebuilt, done, same, _⟩ :=
    restart_same_dispositions (.filled 3) shortWindow routedRun restores
  exact ⟨rebuilt, done, same (ascii "open-the-door")⟩

/-- The rebuild takes neither the session nor the task from the record of an answer. -/
theorem answered_session_lost :
    (Execution.run LedgerSystem.step (.start (.filled 3) shortWindow)
        [.admitInput doorEnvelope (readingsAt 100 7) (acknowledgedBy 7),
          .advance (ascii "open-the-door") { routedDoor with stage := .answered } (.filled 9)
            (acknowledgedBy 9)]).ledger.lookup (ascii "open-the-door") =
      .ok { doorEntry 100 7 with
        stage := .answered
        sessionId := some (.filled 4)
        taskId := some (.filled 5)
        note := ascii "a new task" } ∧
    ((Execution.run LedgerSystem.step (.start (.filled 3) shortWindow)
        [.admitInput doorEnvelope (readingsAt 100 7) (acknowledgedBy 7),
          .advance (ascii "open-the-door") { routedDoor with stage := .answered } (.filled 9)
            (acknowledgedBy 9)]).step .rebuild).1.ledger.lookup (ascii "open-the-door") =
      .ok { doorEntry 100 7 with stage := .answered, note := ascii "a new task" } := by
  decide +kernel

end Mira.Interaction
