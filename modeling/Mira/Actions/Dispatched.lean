import Mira.Actions.Dispatcher

/-!
The order of effects of a dispatch. The environment executes only behind the acknowledged
records of preparation and start, a receipt is recorded only of an execution that is
certain, and a dispatch that returns a receipt has an acknowledged record of its end.
-/

namespace Mira.Actions
open Mira Bytes Events Checkpoint.Journal

/-- A record of the action, acknowledged or not. -/
def RecordOf (intent : ActionIntent) (phase : ActionJournalPhase) (effect : DispatchEffect) :
    Prop :=
  ∃ suffix eventId answer, effect =
    .append (recordRequest intent.runtimeId intent phase suffix eventId) answer

/-- A record of the action that the store acknowledged. -/
def Durable (intent : ActionIntent) (phase : ActionJournalPhase) (effect : DispatchEffect) :
    Prop :=
  ∃ suffix eventId answer, effect =
      .append (recordRequest intent.runtimeId intent phase suffix eventId) answer ∧
    Acknowledges (recordRequest intent.runtimeId intent phase suffix eventId) answer

/-- The environment reports an end and excludes a side effect beyond it. -/
def Certain (answer : Answer ExecutionReceipt) : Prop :=
  ∃ execution, answer = some (.ok execution) ∧
    (execution.status = .completed ∨ execution.status = .rejected) ∧
    execution.sideEffectMayHaveOccurred = false

/-- What may follow an execution with this answer. -/
def Closing (intent : ActionIntent) (answer : Answer ExecutionReceipt)
    (effect : DispatchEffect) : Prop :=
  (∃ released, effect = .interrupt released) ∨ RecordOf intent .executionUncertain effect ∨
    (RecordOf intent .receipt effect ∧ Certain answer)

/-- The sequences of effects that a dispatch can have. -/
inductive DispatchTrace (intent : ActionIntent) : Dispatch → Prop
  | unprepared (effects : List DispatchEffect) (reason : Error)
      (records : ∀ effect ∈ effects, RecordOf intent .prepared effect) :
      DispatchTrace intent ⟨effects, .error reason⟩
  | unstarted (prepared : DispatchEffect) (effects : List DispatchEffect) (reason : Error)
      (first : Durable intent .prepared prepared)
      (records : ∀ effect ∈ effects, RecordOf intent .dispatchStarted effect) :
      DispatchTrace intent ⟨prepared :: effects, .error reason⟩
  | unexecuted (prepared started : DispatchEffect) (effects : List DispatchEffect)
      (reason : Error) (first : Durable intent .prepared prepared)
      (second : Durable intent .dispatchStarted started)
      (closing : ∀ effect ∈ effects, Closing intent none effect) :
      DispatchTrace intent ⟨prepared :: started :: effects, .error reason⟩
  | executed (prepared started : DispatchEffect) (answer : Answer ExecutionReceipt)
      (effects : List DispatchEffect) (result : Result ExecutionReceipt)
      (first : Durable intent .prepared prepared)
      (second : Durable intent .dispatchStarted started)
      (closing : ∀ effect ∈ effects, Closing intent answer effect)
      (ended : ∀ receipt, result = .ok receipt → ∃ effect ∈ effects,
        Durable intent .receipt effect ∨ Durable intent .executionUncertain effect) :
      DispatchTrace intent ⟨prepared :: started :: .execute answer :: effects, result⟩

section Endings
variable {world : DispatchWorld} {journal : ActionJournal} {intent : ActionIntent}

variable {phase : ActionJournalPhase} {eventId : EventId} {call : ActionJournal.Call}

theorem recorded_effects (own : journal.runtimeId = intent.runtimeId)
    (outcome : journal.Outcome world.journalAppend intent phase eventId call) :
    (∀ effect ∈ recorded world call, RecordOf intent phase effect) ∧
      call.journal.runtimeId = intent.runtimeId := by
  have record (suffix : Bytes) :
      ∀ effect ∈ [DispatchEffect.append
          (recordRequest journal.runtimeId intent phase suffix eventId)
          (world.append (recordRequest journal.runtimeId intent phase suffix eventId))],
        RecordOf intent phase effect := by
    intro effect present
    rw [List.mem_singleton.mp present, own]
    exact ⟨suffix, eventId, _, rfl⟩
  cases outcome with
  | refused reason => exact ⟨fun _ present => absurd present List.not_mem_nil, own⟩
  | repeated entry held notReady => exact ⟨fun _ present => absurd present List.not_mem_nil, own⟩
  | unacknowledged suffix reason valid ready plain answer => exact ⟨record suffix, own⟩
  | entered suffix receipt valid ready plain answer => exact ⟨record suffix, own⟩

/-- A call that was ready to append and succeeds has entered the phase behind an
acknowledged record. -/
theorem recorded_durable (own : journal.runtimeId = intent.runtimeId)
    (ready : journal.Ready intent phase)
    (outcome : journal.Outcome world.journalAppend intent phase eventId call)
    {receipt : AppendReceipt} (succeeded : call.result = .ok receipt) :
    (∃ effect, recorded world call = [effect] ∧ Durable intent phase effect) ∧
      ∃ entry, call.journal.states intent.actionId = some entry ∧ entry.phase = phase := by
  cases outcome with
  | refused reason => cases succeeded
  | repeated entry held notReady => exact absurd ready notReady
  | unacknowledged suffix reason valid _ plain answer => cases succeeded
  | entered suffix receipt valid _ plain answer =>
      refine ⟨⟨_, rfl, suffix, eventId, _, by rw [own], ?_⟩, _, Function.update_self _ _ _, rfl⟩
      rw [← own]
      exact acknowledges_of_ok answer

variable (world) (own : journal.runtimeId = intent.runtimeId)
  (started : ∃ entry, journal.states intent.actionId = some entry ∧
    entry.phase = .dispatchStarted)
include own started

variable (context : OperationContext)

theorem uncertainEnd_effects (reason : Bytes) (otherwise : Result ExecutionReceipt)
    (answer : Answer ExecutionReceipt) :
    let ending := uncertainEnd world journal intent context reason otherwise
    (∀ effect ∈ ending.effects, Closing intent answer effect) ∧
    ∀ receipt, ending.result = .ok receipt → otherwise = .ok receipt ∧
      ∃ effect ∈ ending.effects,
        Durable intent .receipt effect ∨ Durable intent .executionUncertain effect := by
  obtain ⟨entry, held, phase⟩ := started
  have ready : journal.Ready intent .executionUncertain := by
    refine ⟨entry, held, ?_, ?_⟩
    · rw [phase]
      decide
    · rw [phase]
      decide
  have outcome := journal.executionUncertain_outcome world.journalAppend intent
    (world.eventId .executionUncertain) reason
  simp only [uncertainEnd]
  refine ⟨?_, ?_⟩
  · intro effect present
    cases List.mem_append.mp present with
    | inl record => exact .inr (.inl ((recorded_effects own outcome).1 effect record))
    | inr release => exact .inl ⟨_, List.mem_singleton.mp release⟩
  · intro receipt succeeded
    split at succeeded
    · cases succeeded
    · next _ accepted =>
        obtain ⟨⟨effect, only, durable⟩, _⟩ := recorded_durable own ready outcome accepted
        split at succeeded
        · cases succeeded
        · refine ⟨succeeded, effect, ?_, .inr durable⟩
          rw [only]
          exact List.mem_cons_self

theorem certainEnd_effects (execution : ExecutionReceipt)
    (certain : Certain (some (.ok execution))) :
    let ending := certainEnd world journal intent execution
    (∀ effect ∈ ending.effects, Closing intent (some (.ok execution)) effect) ∧
    ∀ receipt, ending.result = .ok receipt → ∃ effect ∈ ending.effects,
      Durable intent .receipt effect ∨ Durable intent .executionUncertain effect := by
  obtain ⟨entry, held, phase⟩ := started
  have ready : journal.Ready intent .receipt := by
    refine ⟨entry, held, ?_, ?_⟩
    · rw [phase]
      decide
    · rw [phase]
      decide
  have outcome := journal.receipt_outcome world.journalAppend intent (world.eventId .receipt)
    (if execution.status = .rejected then ascii "rejected" else ascii "completed")
  have committed := recorded_effects own outcome
  simp only [certainEnd]
  split
  · next _ accepted =>
      obtain ⟨⟨effect, only, durable⟩, _⟩ := recorded_durable own ready outcome accepted
      refine ⟨fun effect present => .inr (.inr ⟨committed.1 effect present, certain⟩), ?_⟩
      intro receipt _
      refine ⟨effect, ?_, .inl durable⟩
      rw [only]
      exact List.mem_cons_self
  · have uncertain := recorded_effects committed.2
      (ActionJournal.executionUncertain_outcome _ world.journalAppend intent
        (world.eventId .executionUncertain) (ascii "execution result could not be committed"))
    refine ⟨?_, ?_⟩
    · intro effect present
      cases List.mem_append.mp present with
      | inl record => exact .inr (.inr ⟨committed.1 effect record, certain⟩)
      | inr record => exact .inr (.inl (uncertain.1 effect record))
    · intro receipt succeeded
      cases succeeded

theorem endWith_effects (answer : Answer ExecutionReceipt) :
    let ending := endWith world journal intent context answer
    (∀ effect ∈ ending.effects, Closing intent answer effect) ∧
    ∀ receipt, ending.result = .ok receipt → ∃ effect ∈ ending.effects,
      Durable intent .receipt effect ∨ Durable intent .executionUncertain effect := by
  have doubtful (reason : Bytes) (otherwise : Result ExecutionReceipt) :=
    uncertainEnd_effects world own started context reason otherwise answer
  simp only [endWith]
  split
  · exact ⟨(doubtful _ _).1, fun receipt ok => ((doubtful _ _).2 receipt ok).2⟩
  · exact ⟨(doubtful _ _).1, fun receipt ok => ((doubtful _ _).2 receipt ok).2⟩
  · next execution =>
      split
      · exact ⟨(doubtful _ _).1, fun receipt ok => ((doubtful _ _).2 receipt ok).2⟩
      · next clear =>
          apply certainEnd_effects world own started execution
          rw [Bool.not_eq_true, ExecutionReceipt.inDoubt, Bool.or_eq_false_iff] at clear
          refine ⟨execution, rfl, ?_, clear.1⟩
          have status := clear.2
          cases held : execution.status with
          | completed => exact .inl rfl
          | rejected => exact .inr rfl
          | dispatched =>
              rw [held] at status
              cases status
          | unknown =>
              rw [held] at status
              cases status

theorem endWith_none :
    ∃ reason, (endWith world journal intent context none).result = .error reason := by
  cases ending : (endWith world journal intent context none).result with
  | error reason => exact ⟨reason, rfl⟩
  | ok receipt =>
      have impossible := ((uncertainEnd_effects world own started context
        (ascii "dispatch raised an exception") (.error (dispatchError .internal
          "action dispatch raised an exception; verify before retry")) none).2 receipt ending).1
      cases impossible

theorem perform_trace {prepared start : DispatchEffect} (first : Durable intent .prepared prepared)
    (second : Durable intent .dispatchStarted start) (lease : ActionDispatchLease)
    (input : InputSequence) (context : OperationContext) :
    DispatchTrace intent
      ((perform world journal intent lease input context).after [prepared, start]) := by
  have quiet : ∀ effect ∈ ([] : List DispatchEffect), Closing intent none effect :=
    fun _ present => absurd present List.not_mem_nil
  simp only [perform]
  split
  · next reason _ => exact .unexecuted prepared start [] reason first second quiet
  · split
    · obtain ⟨reason, failed⟩ := endWith_none world own started context
      have closing := (endWith_effects world own started context none).1
      have whole := DispatchTrace.unexecuted prepared start _ reason first second closing
      rw [← failed] at whole
      exact whole
    · next reason _ => exact .unexecuted prepared start [] reason first second quiet
    · split
      · next reason _ => exact .unexecuted prepared start [] reason first second quiet
      · have ending := endWith_effects world own started context (world.execute input context)
        exact .executed prepared start _ _ _ first second ending.1 ending.2

end Endings

theorem start_trace {world : DispatchWorld} {journal : ActionJournal} {intent : ActionIntent}
    (own : journal.runtimeId = intent.runtimeId) (ready : journal.Ready intent .dispatchStarted)
    {prepared : DispatchEffect} (first : Durable intent .prepared prepared)
    (input : InputSequence) (context : OperationContext) :
    DispatchTrace intent
      ((JournaledActionDispatcher.start world journal intent input context).after [prepared]) := by
  have none_ : ∀ effect ∈ ([] : List DispatchEffect), RecordOf intent .dispatchStarted effect :=
    fun _ present => absurd present List.not_mem_nil
  simp only [JournaledActionDispatcher.start]
  split
  · exact .unstarted prepared [] _ first none_
  · exact .unstarted prepared [] _ first none_
  · exact .unstarted prepared [] _ first none_
  · split
    · exact .unstarted prepared [] _ first none_
    · have outcome := journal.dispatchStarted_outcome world.journalAppend intent
        (world.eventId .dispatchStarted)
      have starting := recorded_effects own outcome
      split
      · exact .unstarted prepared _ _ first starting.1
      · next _ accepted =>
          obtain ⟨⟨started, only, second⟩, entered⟩ := recorded_durable own ready outcome accepted
          rw [only]
          exact perform_trace world starting.2 entered first second _ input context

theorem dispatch_trace (dispatcher : JournaledActionDispatcher) (world : DispatchWorld)
    (input : InputSequence) (context : OperationContext) (observedEpoch : UInt64) :
    DispatchTrace (dispatcher.intent world input context observedEpoch)
      (dispatcher.dispatch world input context observedEpoch) := by
  have none_ : ∀ effect ∈ ([] : List DispatchEffect),
      RecordOf (dispatcher.intent world input context observedEpoch) .prepared effect :=
    fun _ present => absurd present List.not_mem_nil
  simp only [JournaledActionDispatcher.dispatch]
  split
  · exact .unprepared [] _ none_
  · split
    · exact .unprepared [] _ none_
    · split
      · exact .unprepared [] _ none_
      · have outcome := ActionJournal.prepare_outcome ⟨dispatcher.runtime, fun _ => none⟩
          world.journalAppend (dispatcher.intent world input context observedEpoch)
          (world.eventId .prepared)
        have ready : ActionJournal.Ready ⟨dispatcher.runtime, fun _ => none⟩
            (dispatcher.intent world input context observedEpoch) .prepared := rfl
        have preparing := recorded_effects rfl outcome
        split
        · exact .unprepared _ _ preparing.1
        · next _ accepted =>
            obtain ⟨⟨prepared, only, first⟩, entered⟩ :=
              recorded_durable rfl ready outcome accepted
            rw [only]
            exact start_trace preparing.2 entered first input context

def DispatchEffect.isExecute : DispatchEffect → Bool
  | .execute _ => true
  | _ => false

def DispatchEffect.appends (type : Bytes) : DispatchEffect → Bool
  | .append request _ => request.payload.type = type
  | _ => false

section Traces
variable {intent : ActionIntent}

variable {phase : ActionJournalPhase} {effect : DispatchEffect}

theorem RecordOf.appends (record : RecordOf intent phase effect) (type : Bytes) :
    effect.isExecute = false ∧ effect.appends type = decide (phase.recordType = type) := by
  obtain ⟨suffix, eventId, answer, own⟩ := record
  rw [own]
  exact ⟨rfl, rfl⟩

theorem Durable.record (durable : Durable intent phase effect) : RecordOf intent phase effect := by
  obtain ⟨suffix, eventId, answer, own, _⟩ := durable
  exact ⟨suffix, eventId, answer, own⟩

/-- Neither an execution nor the record of a receipt. -/
def Quiet (effect : DispatchEffect) : Prop :=
  effect.isExecute = false ∧ effect.appends ActionJournalPhase.receipt.recordType = false

theorem RecordOf.isQuiet (record : RecordOf intent phase effect) (other : phase ≠ .receipt) :
    Quiet effect := by
  have types : ∀ phase : ActionJournalPhase, phase ≠ .receipt →
      phase.recordType ≠ ActionJournalPhase.receipt.recordType := by
    intro phase other
    cases phase with
    | receipt => exact absurd rfl other
    | _ => decide
  obtain ⟨calm, type⟩ := record.appends ActionJournalPhase.receipt.recordType
  exact ⟨calm, type.trans (decide_eq_false (types phase other))⟩

theorem Closing.isQuiet {answer : Answer ExecutionReceipt} (closing : Closing intent answer effect) :
    effect.isExecute = false ∧ (Quiet effect ∨ Certain answer) := by
  cases closing with
  | inl release =>
      obtain ⟨released, own⟩ := release
      rw [own]
      exact ⟨rfl, .inl ⟨rfl, rfl⟩⟩
  | inr record =>
      cases record with
      | inl uncertain =>
          have quiet := uncertain.isQuiet (by decide)
          exact ⟨quiet.1, .inl quiet⟩
      | inr committed => exact ⟨(committed.1.appends []).1, .inr committed.2⟩

/-- Either nothing is executed and an error is returned, or there is one execution behind
preparation and start. -/
theorem DispatchTrace.executions {dispatch : Dispatch} (trace : DispatchTrace intent dispatch) :
    ((∀ effect ∈ dispatch.effects, Quiet effect) ∧ ∃ reason, dispatch.result = .error reason) ∨
    ∃ prepared started answer after, Durable intent .prepared prepared ∧
      Durable intent .dispatchStarted started ∧
      dispatch.effects = prepared :: started :: .execute answer :: after ∧
      (∀ effect ∈ after, Closing intent answer effect) ∧
      ∀ receipt, dispatch.result = .ok receipt → ∃ effect ∈ after,
        Durable intent .receipt effect ∨ Durable intent .executionUncertain effect := by
  cases trace with
  | unprepared effects reason records =>
      exact .inl ⟨fun effect present => (records effect present).isQuiet (by decide), reason, rfl⟩
  | unstarted prepared effects reason first records =>
      refine .inl ⟨List.forall_mem_cons.mpr ⟨first.record.isQuiet (by decide), ?_⟩, reason, rfl⟩
      exact fun effect present => (records effect present).isQuiet (by decide)
  | unexecuted prepared started effects reason first second closing =>
      refine .inl ⟨List.forall_mem_cons.mpr ⟨first.record.isQuiet (by decide),
        List.forall_mem_cons.mpr ⟨second.record.isQuiet (by decide), ?_⟩⟩, reason, rfl⟩
      intro effect present
      cases (closing effect present).isQuiet.2 with
      | inl quiet => exact quiet
      | inr certain =>
          obtain ⟨execution, impossible, _⟩ := certain
          cases impossible
  | executed prepared started answer effects result first second closing ended =>
      exact .inr ⟨prepared, started, answer, effects, first, second, rfl, closing, ended⟩

end Traces

theorem behind_two {first second item : DispatchEffect} {rest before after : List DispatchEffect}
    (split : first :: second :: rest = before ++ item :: after) (not_first : first ≠ item)
    (not_second : second ≠ item) :
    ∃ last, before = first :: second :: last ∧ rest = last ++ item :: after := by
  cases before with
  | nil => exact absurd (List.cons.inj split).1 not_first
  | cons head before =>
      obtain ⟨own, split⟩ := List.cons.inj split
      cases before with
      | nil => exact absurd (List.cons.inj split).1 not_second
      | cons next before =>
          obtain ⟨own', tail⟩ := List.cons.inj split
          exact ⟨before, by rw [own, own'], tail⟩

/-- No unjournaled execution, whatever the collaborators answer. The environment executes
at most once, and only behind acknowledged records of preparation and start; a returned
receipt has an acknowledged record of the end behind the start; a receipt is recorded
only of an execution that ended without a possible side effect. -/
theorem no_unjournaled_execution (dispatcher : JournaledActionDispatcher) (world : DispatchWorld)
    (input : InputSequence) (context : OperationContext) (observedEpoch : UInt64) :
    let intent := dispatcher.intent world input context observedEpoch
    let run := dispatcher.dispatch world input context observedEpoch
    run.effects.countP DispatchEffect.isExecute ≤ 1 ∧
    (∀ before answer after, run.effects = before ++ .execute answer :: after →
      ∃ first prepared middle started last,
        before = first ++ prepared :: (middle ++ started :: last) ∧
        Durable intent .prepared prepared ∧ Durable intent .dispatchStarted started) ∧
    (∀ receipt, run.result = .ok receipt → ∃ first started middle ended last,
      run.effects = first ++ started :: (middle ++ ended :: last) ∧
      Durable intent .dispatchStarted started ∧
      (Durable intent .receipt ended ∨ Durable intent .executionUncertain ended)) ∧
    ∀ before request answer after, run.effects = before ++ .append request answer :: after →
      request.payload.type = ascii "ActionReceipt" → ∃ execution,
        .execute (some (.ok execution)) ∈ before ∧
        (execution.status = .completed ∨ execution.status = .rejected) ∧
        execution.sideEffectMayHaveOccurred = false := by
  intro intent run
  have trace : DispatchTrace intent run := dispatch_trace dispatcher world input context observedEpoch
  cases trace.executions with
  | inl quiet =>
      obtain ⟨calm, reason, failed⟩ := quiet
      refine ⟨?_, ?_, ?_, ?_⟩
      · have none_ : run.effects.countP DispatchEffect.isExecute = 0 := by
          rw [List.countP_eq_zero]
          intro effect present
          rw [(calm effect present).1]
          exact Bool.false_ne_true
        omega
      · intro before answer after split
        have present : DispatchEffect.execute answer ∈ run.effects := by
          rw [split]
          simp
        cases (calm _ present).1
      · intro receipt succeeded
        rw [failed] at succeeded
        cases succeeded
      · intro before request answer after split type
        have present : DispatchEffect.append request answer ∈ run.effects := by
          rw [split]
          simp
        have other := (calm _ present).2
        rw [DispatchEffect.appends, decide_eq_false_iff_not] at other
        exact absurd type other
  | inr executed =>
      obtain ⟨prepared, started, executed, rest, first, second, whole, closing, ended⟩ := executed
      have first_quiet := first.record.isQuiet (by decide)
      have second_quiet := second.record.isQuiet (by decide)
      have behind {before after : List DispatchEffect} {effect : DispatchEffect}
          (loud : ¬ Quiet effect) (split : run.effects = before ++ effect :: after) :
          ∃ last, before = prepared :: started :: last ∧
            .execute executed :: rest = last ++ effect :: after := by
        refine behind_two (whole.symm.trans split) ?_ ?_
        · intro same
          exact loud (same ▸ first_quiet)
        · intro same
          exact loud (same ▸ second_quiet)
      refine ⟨?_, ?_, ?_, ?_⟩
      · have after_ : rest.countP DispatchEffect.isExecute = 0 := by
          rw [List.countP_eq_zero]
          intro effect present
          rw [(closing effect present).isQuiet.1]
          exact Bool.false_ne_true
        rw [whole, List.countP_cons, List.countP_cons, List.countP_cons, after_, first_quiet.1,
          second_quiet.1]
        exact Nat.le_refl 1
      · intro before answer after split
        have loud : ¬ Quiet (.execute answer) := fun quiet => Bool.noConfusion quiet.1
        obtain ⟨last, own, _⟩ := behind loud split
        exact ⟨[], prepared, [], started, last, own, first, second⟩
      · intro receipt succeeded
        obtain ⟨effect, present, durable⟩ := ended receipt succeeded
        obtain ⟨middle, last, own⟩ := List.append_of_mem present
        refine ⟨[prepared], started, .execute executed :: middle, effect, last, ?_, second, durable⟩
        rw [whole, own]
        rfl
      · intro before request answer after split type
        have loud : ¬ Quiet (.append request answer) := by
          intro quiet
          have other := quiet.2
          rw [DispatchEffect.appends, decide_eq_false_iff_not] at other
          exact other type
        obtain ⟨last, own, tail⟩ := behind loud split
        cases last with
        | nil => cases (List.cons.inj tail).1
        | cons effect last =>
            obtain ⟨same, later⟩ := List.cons.inj tail
            have present : DispatchEffect.append request answer ∈ rest := by
              rw [later]
              simp
            obtain ⟨execution, certain⟩ :=
              (closing _ present).isQuiet.2.resolve_left loud
            refine ⟨execution, ?_, certain.2⟩
            rw [own, ← same, certain.1]
            simp

end Mira.Actions
