import Mira.Actions.Recovered

/-!
Recovery against the live journal. The records of every action that the journal holds
replay to a phase that is at least as far as the live one, and to exactly that one if
every append was acknowledged. This fails when an action was prepared twice with different
intents, which the journal cannot see if the first append took effect unacknowledged.
-/

namespace Mira.Actions
open Mira Bytes Events Checkpoint.Journal

/-- An entry of the journal together with the intent it is bound to. -/
def Recorded (journal : ActionJournal) (intent : ActionIntent) (entry : JournalEntry) : Prop :=
  journal.validate intent = .ok () ∧ journal.states intent.actionId = some entry

variable {journal : ActionJournal} {intent : ActionIntent} {entry : JournalEntry}

theorem recorded_iff :
    Recorded journal intent entry ↔ validIntent intent journal.runtimeId = true ∧
      journal.states intent.actionId = some entry ∧ entry.binding = binding intent := by
  simp only [Recorded, ActionJournal.validate]
  constructor
  · intro recorded
    obtain ⟨valid, held⟩ := recorded
    rw [held, Option.any_some] at valid
    split at valid
    · cases valid
    · next sound =>
        split at valid
        · cases valid
        · next same =>
            rw [decide_eq_true_eq, not_not] at same
            exact ⟨Bool.not_eq_false _ ▸ sound, held, same⟩
  · intro recorded
    obtain ⟨valid, held, same⟩ := recorded
    rw [held, Option.any_some, valid]
    simp [same]

theorem validIntent_of_validate (validated : journal.validate intent = .ok ()) :
    validIntent intent journal.runtimeId = true := by
  simp only [ActionJournal.validate] at validated
  split at validated
  · cases validated
  · next sound => rwa [Bool.not_eq_false] at sound

theorem recorded_unique {left right : ActionIntent} {entry' : JournalEntry}
    (first : Recorded journal left entry) (second : Recorded journal right entry')
    (same : left.actionId = right.actionId) : left = right := by
  obtain ⟨valid, held, bound⟩ := recorded_iff.mp first
  obtain ⟨valid', held', bound'⟩ := recorded_iff.mp second
  rw [same, held'] at held
  cases held
  exact binding_injective valid valid' (bound.symm.trans bound')

/-- How far the replay of the records is from the live phase of an entry. -/
structure Replays (exact_ : Prop) (system : JournalSystem) (intent : ActionIntent)
    (entry : JournalEntry) (state : ActionJournalState) : Prop where
  replayed : replayState system.journal.runtimeId intent system.log = .ok state
  listed : sessionEvents intent.sessionId system.log ≠ []
  same : exact_ → state.phase = entry.phase
  started : entry.phase ≠ .prepared → state.phase ≠ .prepared
  unstarted : state.phase = .prepared → ∀ event ∈ system.log,
    ¬ Records event intent.actionId .dispatchStarted

/-- What holds in every state: the log is in order and holds the records of valid intents,
records beyond preparation belong to entries, and every entry replays. -/
structure Tracked (exact_ : Prop) (system : JournalSystem) : Prop where
  order : InOrder system.log
  records : ∀ event ∈ system.log, (phaseOf event.payload.type).isSome →
    ∃ intent suffix, validIntent intent system.journal.runtimeId = true ∧
      safeText suffix 4096 false = true ∧ event.runtimeId = system.journal.runtimeId ∧
      event.taskId = some intent.taskId ∧ event.payload.data = encode intent suffix
  entries : ∀ event ∈ system.log, ∀ action phase, Records event action phase →
    phase ≠ .prepared → system.journal.states action ≠ none
  replays : ∀ intent entry, Recorded system.journal intent entry →
    ∃ state, Replays exact_ system intent entry state

theorem phaseOf_recordType (phase : ActionJournalPhase) : phaseOf phase.recordType = some phase := by
  cases phase <;> decide

section Events
variable {runtime : RuntimeId} {intent other : ActionIntent} {suffix : Bytes}

theorem replayed_record (valid : validIntent intent runtime = true)
    (plain : safeText suffix 4096 false = true) (phase : ActionJournalPhase) (eventId : EventId)
    (log : List EventEnvelope) (state : ActionJournalState) :
    JournalScan.replayed runtime other state
        (stampedIn log (recordRequest runtime intent phase suffix eventId)) =
      if intent.actionId ≠ other.actionId then .ok state
      else if matchesIntent (payloadOf intent suffix) other = false then
        .error (journalError .dataLoss "journal action identity conflicts with intent")
      else
        match advance state.phase phase with
        | .error reason => .error reason
        | .ok next =>
            .ok { state with
                  phase := next
                  lastReceipt := some ⟨eventId,
                    (stampedIn log (recordRequest runtime intent phase suffix
                      eventId)).sessionSequence,
                    (stampedIn log (recordRequest runtime intent phase suffix
                      eventId)).taskSequence, 0, .processCrash⟩ } := by
  have type : phaseOf (stampedIn log (recordRequest runtime intent phase suffix
      eventId)).payload.type = some phase := phaseOf_recordType phase
  have payload : (parse (stampedIn log (recordRequest runtime intent phase suffix
      eventId)).payload.data).filter (fun payload => (stampedIn log (recordRequest runtime intent
        phase suffix eventId)).taskId = some payload.taskId) =
      some (payloadOf intent suffix) := by
    have read : parse (stampedIn log (recordRequest runtime intent phase suffix
        eventId)).payload.data = some (payloadOf intent suffix) := parse_encode valid plain
    have task : (stampedIn log (recordRequest runtime intent phase suffix eventId)).taskId =
        some (payloadOf intent suffix).taskId := rfl
    rw [read, Option.filter_some, if_pos (decide_eq_true task)]
  have own : (stampedIn log (recordRequest runtime intent phase suffix eventId)).runtimeId =
      runtime := rfl
  simp only [JournalScan.replayed, type, payload, own, ne_eq, not_true_eq_false, false_or]
  rfl

theorem replayState_record (valid : validIntent intent runtime = true)
    (plain : safeText suffix 4096 false = true) {phase next : ActionJournalPhase}
    (eventId : EventId) {log : List EventEnvelope} {state : ActionJournalState}
    (before : replayState runtime intent log = .ok state)
    (advanced : advance state.phase phase = .ok next) :
    ∃ state', replayState runtime intent
        (log ++ [stampedIn log (recordRequest runtime intent phase suffix eventId)]) =
      .ok state' ∧ state'.phase = next := by
  have matched : ¬ matchesIntent (payloadOf intent suffix) intent = false := by
    rw [matchesIntent_payloadOf]
    exact Bool.true_eq_false.mp
  have own : (stampedIn log (recordRequest runtime intent phase suffix eventId)).sessionId =
      intent.sessionId := rfl
  rw [replayState_append before, if_pos own, replayed_record valid plain,
    if_neg (not_not.mpr rfl), if_neg matched, advanced]
  exact ⟨_, rfl, rfl⟩

theorem records_stamped (valid : validIntent intent runtime = true)
    (plain : safeText suffix 4096 false = true) (phase : ActionJournalPhase) (eventId : EventId)
    (log : List EventEnvelope) (action : ActionId) (kind : ActionJournalPhase) :
    Records (stampedIn log (recordRequest runtime intent phase suffix eventId)) action kind ↔
      kind = phase ∧ action = intent.actionId := by
  have type : phaseOf (stampedIn log (recordRequest runtime intent phase suffix
      eventId)).payload.type = some phase := phaseOf_recordType phase
  have read : parse (stampedIn log (recordRequest runtime intent phase suffix
      eventId)).payload.data = some (payloadOf intent suffix) := parse_encode valid plain
  rw [Records, type, read]
  constructor
  · intro recorded
    obtain ⟨same, payload, held, own⟩ := recorded
    cases same
    cases held
    exact ⟨rfl, own.symm⟩
  · intro both
    rw [both.1, both.2]
    exact ⟨rfl, _, rfl, rfl⟩

end Events

theorem Replays.ignored {exact_ : Prop} {system : JournalSystem} {state : ActionJournalState}
    (replays : Replays exact_ system intent entry state) (journal : ActionJournal)
    (same : journal.runtimeId = system.journal.runtimeId) (event : EventEnvelope)
    (ignored : JournalScan.replayed system.journal.runtimeId intent state event = .ok state)
    (other : ¬ Records event intent.actionId .dispatchStarted) :
    Replays exact_ ⟨journal, system.log ++ [event]⟩ intent entry state where
  replayed := by
    rw [same, replayState_append replays.replayed, ignored, ite_self]
  listed := by
    rw [sessionEvents_append]
    exact List.append_ne_nil_of_left_ne_nil replays.listed _
  same := replays.same
  started := replays.started
  unstarted := by
    intro first held present
    cases List.mem_append.mp present with
    | inl old => exact replays.unstarted first held old
    | inr new =>
        rw [List.mem_singleton.mp new]
        exact other

variable {phase : ActionJournalPhase}

theorem advance_later {kind : ActionJournalPhase} (later : kind ≠ .prepared)
    (ready : kind = .dispatchStarted ∨ phase ≠ .prepared) :
    ∃ next, advance phase kind = .ok next ∧ next ≠ .prepared ∧
      ((kind = .dispatchStarted → phase = .prepared) → next = kind) := by
  cases kind with
  | prepared => exact absurd rfl later
  | dispatchStarted =>
      by_cases first : phase = .prepared
      · refine ⟨.dispatchStarted, ?_, by decide, fun _ => rfl⟩
        rw [advance, if_pos first]
      · refine ⟨phase, ?_, first, fun prepared => absurd (prepared rfl) first⟩
        rw [advance, if_neg first]
  | receipt =>
      have started := ready.resolve_left (by decide)
      refine ⟨.receipt, ?_, by decide, fun _ => rfl⟩
      simp only [advance, if_neg started]
  | executionUncertain =>
      have started := ready.resolve_left (by decide)
      refine ⟨.executionUncertain, ?_, by decide, fun _ => rfl⟩
      simp only [advance, if_neg started]

theorem ActionJournal.Ready.held (ready : journal.Ready intent phase) (later : phase ≠ .prepared) :
    journal.states intent.actionId ≠ none := by
  cases phase with
  | prepared => exact absurd rfl later
  | _ =>
      obtain ⟨entry, held, _⟩ := ready
      rw [held]
      exact Option.some_ne_none entry

theorem ActionJournal.Ready.before (ready : journal.Ready intent phase)
    (held : journal.states intent.actionId = some entry) (later : phase ≠ .prepared) :
    (phase = .dispatchStarted ∨ entry.phase ≠ .prepared) ∧
      (phase = .dispatchStarted → entry.phase = .prepared) := by
  cases phase with
  | prepared => exact absurd rfl later
  | dispatchStarted =>
      obtain ⟨other, found, first⟩ := ready
      cases held.symm.trans found
      exact ⟨.inl rfl, fun _ => first⟩
  | receipt =>
      obtain ⟨other, found, started, _⟩ := ready
      cases held.symm.trans found
      exact ⟨.inr started, fun impossible => by cases impossible⟩
  | executionUncertain =>
      obtain ⟨other, found, started, _⟩ := ready
      cases held.symm.trans found
      exact ⟨.inr started, fun impossible => by cases impossible⟩

section Step
variable {exact_ : Prop} {system : JournalSystem} {intent : ActionIntent} {suffix : Bytes}
  {eventId : EventId}

variable {entry : JournalEntry} {phase : ActionJournalPhase} {journal : ActionJournal}

/-- One more record of an action beyond preparation. The entry follows it, or the
append was not acknowledged. -/
theorem Replays.advanced {entry' : JournalEntry} {state : ActionJournalState}
    (replays : Replays exact_ system intent entry state)
    (valid : validIntent intent system.journal.runtimeId = true)
    (plain : safeText suffix 4096 false = true) (later : phase ≠ .prepared)
    (ready : phase = .dispatchStarted ∨ entry.phase ≠ .prepared)
    (first : phase = .dispatchStarted → entry.phase = .prepared)
    (same : journal.runtimeId = system.journal.runtimeId)
    (entered : entry'.phase = phase ∨ ¬ exact_) :
    ∃ state', Replays exact_ ⟨journal, system.log ++ [stampedIn system.log
      (recordRequest system.journal.runtimeId intent phase suffix eventId)]⟩ intent entry'
        state' := by
  obtain ⟨next, advanced, beyond, reached⟩ :=
    advance_later later (ready.imp_right replays.started)
  obtain ⟨state', replayed, phase_⟩ :=
    replayState_record valid plain eventId replays.replayed advanced
  refine ⟨state', same.symm ▸ replayed, ?_, ?_, ?_, ?_⟩
  · rw [sessionEvents_append]
    exact List.append_ne_nil_of_left_ne_nil replays.listed _
  · intro holds
    have follows := entered.resolve_right (not_not.mpr holds)
    rw [follows, phase_]
    exact reached fun start => (replays.same holds).trans (first start)
  · intro _
    rw [phase_]
    exact beyond
  · intro impossible
    exact absurd (phase_.symm.trans impossible) beyond

theorem Tracked.replayState_prepared (tracked : Tracked exact_ system)
    (absent : system.journal.states intent.actionId = none)
    (compatible : Compatible system.log intent) :
    ∃ state, replayState system.journal.runtimeId intent system.log = .ok state ∧
      state.phase = .prepared := by
  refine Paging.visitAll_succeeds (fun state : ActionJournalState => state.phase = .prepared) _ ?_
    _ rfl
  intro event listed state prepared
  obtain ⟨present, own⟩ := List.mem_filter.mp listed
  simp only [JournalScan.replayed]
  cases type : phaseOf event.payload.type with
  | none => exact ⟨state, rfl, prepared⟩
  | some kind =>
      have some_ : (phaseOf event.payload.type).isSome = true := by rw [type]; rfl
      obtain ⟨written, tail, valid, plain, runtime, task, data⟩ :=
        tracked.records event present some_
      have read : parse event.payload.data = some (payloadOf written tail) := by
        rw [data]
        exact parse_encode valid plain
      have kept : (parse event.payload.data).filter (fun payload =>
          event.taskId = some payload.taskId) = some (payloadOf written tail) := by
        have own_task : event.taskId = some (payloadOf written tail).taskId := task
        rw [read, Option.filter_some, if_pos (decide_eq_true own_task)]
      simp only [kept]
      by_cases same : (payloadOf written tail).actionId = intent.actionId
      · have matched := compatible event present (of_decide_eq_true own) _ some_ read same
        have first : kind = .prepared := by
          by_contra later
          exact tracked.entries event present intent.actionId kind ⟨type, _, read, same⟩ later
            absent
        rw [if_neg (not_not.mpr same), if_neg (by simp [runtime, matched]), first, prepared]
        exact ⟨_, rfl, rfl⟩
      · rw [if_pos same]
        exact ⟨state, rfl, prepared⟩

theorem Tracked.replays_prepared (tracked : Tracked exact_ system)
    (valid : validIntent intent system.journal.runtimeId = true)
    (plain : safeText suffix 4096 false = true)
    (absent : system.journal.states intent.actionId = none)
    (compatible : Compatible system.log intent)
    (same : journal.runtimeId = system.journal.runtimeId) (first : entry.phase = .prepared) :
    ∃ state', Replays exact_ ⟨journal, system.log ++ [stampedIn system.log
      (recordRequest system.journal.runtimeId intent .prepared suffix eventId)]⟩ intent entry
        state' := by
  obtain ⟨state, before, prepared⟩ := tracked.replayState_prepared absent compatible
  have advanced : advance state.phase .prepared = .ok .prepared := by
    rw [prepared]
    rfl
  obtain ⟨state', replayed, phase⟩ := replayState_record valid plain eventId before advanced
  refine ⟨state', same.symm ▸ replayed, ?_, ?_, ?_, ?_⟩
  · have own : (stampedIn system.log (recordRequest system.journal.runtimeId intent .prepared
        suffix eventId)).sessionId = intent.sessionId := rfl
    rw [sessionEvents_append, if_pos own]
    exact List.append_ne_nil_of_right_ne_nil _ (List.cons_ne_nil _ _)
  · intro _
    rw [phase, first]
  · intro later
    exact absurd first later
  · intro _ event present record
    cases List.mem_append.mp present with
    | inl old => exact tracked.entries event old _ _ record (by decide) absent
    | inr new =>
        rw [List.mem_singleton.mp new, records_stamped valid plain] at record
        cases record.1

theorem Tracked.record (tracked : Tracked exact_ system)
    (valid : system.journal.validate intent = .ok ()) (plain : safeText suffix 4096 false = true)
    (ready : system.journal.Ready intent phase)
    (same : journal.runtimeId = system.journal.runtimeId)
    (others : ∀ action, action ≠ intent.actionId →
      journal.states action = system.journal.states action)
    (kept : system.journal.states intent.actionId ≠ none →
      journal.states intent.actionId ≠ none)
    (own : ∀ entry, Recorded journal intent entry → ∃ state, Replays exact_
      ⟨journal, system.log ++ [stampedIn system.log
      (recordRequest system.journal.runtimeId intent phase suffix eventId)]⟩ intent entry state)
    (bound : ∀ other entry, Recorded journal other entry → other.actionId = intent.actionId →
      other = intent) :
    Tracked exact_ ⟨journal, system.log ++ [stampedIn system.log
      (recordRequest system.journal.runtimeId intent phase suffix eventId)]⟩ := by
  have sound := validIntent_of_validate valid
  refine ⟨tracked.order.append _, ?_, ?_, ?_⟩
  · intro event present some_
    rw [same]
    cases List.mem_append.mp present with
    | inl old => exact tracked.records event old some_
    | inr new =>
        rw [List.mem_singleton.mp new]
        exact ⟨intent, suffix, sound, plain, rfl, rfl, rfl⟩
  · intro event present action kind record later
    have held : system.journal.states action ≠ none := by
      cases List.mem_append.mp present with
      | inl old => exact tracked.entries event old action kind record later
      | inr new =>
          rw [List.mem_singleton.mp new, records_stamped sound plain] at record
          rw [record.2]
          rw [record.1] at later
          exact ready.held later
    by_cases mine : action = intent.actionId
    · rw [mine] at held ⊢
      exact kept held
    · rw [others action mine]
      exact held
  · intro other entry recorded
    have recorded : Recorded journal other entry := recorded
    by_cases mine : other.actionId = intent.actionId
    · have bound_ := bound other entry recorded mine
      subst bound_
      exact own entry recorded
    · obtain ⟨fits, held, binding_⟩ := recorded_iff.mp recorded
      rw [same] at fits
      rw [others _ mine] at held
      obtain ⟨state, replays⟩ :=
        tracked.replays other entry (recorded_iff.mpr ⟨fits, held, binding_⟩)
      refine ⟨state, replays.ignored journal same _ ?_ ?_⟩
      · rw [replayed_record sound plain, if_pos (Ne.symm mine)]
      · rw [records_stamped sound plain]
        exact fun record => mine record.2

theorem Tracked.unacknowledged (tracked : Tracked exact_ system)
    (valid : system.journal.validate intent = .ok ()) (plain : safeText suffix 4096 false = true)
    (ready : system.journal.Ready intent phase) (inexact : ¬ exact_) :
    Tracked exact_ ⟨system.journal, system.log ++ [stampedIn system.log
      (recordRequest system.journal.runtimeId intent phase suffix eventId)]⟩ := by
  apply tracked.record valid plain ready rfl (fun _ _ => rfl) (fun held => held)
  · intro entry recorded
    have recorded : Recorded system.journal intent entry := recorded
    have later : phase ≠ .prepared := by
      intro first
      rw [first, ActionJournal.Ready, recorded.2] at ready
      cases ready
    obtain ⟨state, replays⟩ := tracked.replays intent entry recorded
    obtain ⟨before, first⟩ := ready.before recorded.2 later
    exact replays.advanced (validIntent_of_validate valid) plain later before first rfl
      (.inr inexact)
  · intro other entry recorded same
    have recorded : Recorded system.journal other entry := recorded
    exact recorded_unique recorded ⟨valid, same ▸ recorded.2⟩ same

theorem Tracked.entered (tracked : Tracked exact_ system)
    (valid : system.journal.validate intent = .ok ()) (plain : safeText suffix 4096 false = true)
    (ready : system.journal.Ready intent phase)
    (compatible : phase = .prepared → Compatible system.log intent) (receipt : AppendReceipt) :
    Tracked exact_ ⟨{ system.journal with
        states := Function.update system.journal.states intent.actionId
          (some ⟨binding intent, phase, receipt⟩) },
      system.log ++ [stampedIn system.log
        (recordRequest system.journal.runtimeId intent phase suffix eventId)]⟩ := by
  have sound := validIntent_of_validate valid
  have newest : Function.update system.journal.states intent.actionId
      (some ⟨binding intent, phase, receipt⟩) intent.actionId =
        some ⟨binding intent, phase, receipt⟩ := Function.update_self _ _ _
  refine tracked.record valid plain ready ?_ ?_ ?_ ?_ ?_
  · rfl
  · intro action other
    exact Function.update_of_ne other _ _
  · intro _
    exact ne_of_eq_of_ne newest (Option.some_ne_none _)
  · intro entry recorded
    obtain ⟨_, held, _⟩ := recorded_iff.mp recorded
    cases newest.symm.trans held
    by_cases first : phase = .prepared
    · subst first
      refine tracked.replays_prepared sound plain ready (compatible rfl) ?_ ?_
      · rfl
      · rfl
    · obtain ⟨before, was⟩ := Option.ne_none_iff_exists'.mp (ready.held first)
      obtain ⟨state, replays⟩ := tracked.replays intent before ⟨valid, was⟩
      obtain ⟨beyond, start⟩ := ready.before was first
      exact replays.advanced sound plain first beyond start rfl (.inl rfl)
  · intro other entry recorded same
    obtain ⟨fits, held, bound⟩ := recorded_iff.mp recorded
    rw [same] at held
    cases newest.symm.trans held
    exact (binding_injective sound fits bound).symm

theorem Tracked.foreign (tracked : Tracked exact_ system) {request : AppendRequest}
    (other : phaseOf request.payload.type = none) :
    Tracked exact_ ⟨system.journal, system.log ++ [stampedIn system.log request]⟩ := by
  have type : phaseOf (stampedIn system.log request).payload.type = none := other
  refine ⟨tracked.order.append _, ?_, ?_, ?_⟩
  · intro event present some_
    cases List.mem_append.mp present with
    | inl old => exact tracked.records event old some_
    | inr new =>
        rw [List.mem_singleton.mp new, type] at some_
        cases some_
  · intro event present action kind record later
    cases List.mem_append.mp present with
    | inl old => exact tracked.entries event old action kind record later
    | inr new =>
        rw [List.mem_singleton.mp new, Records, type] at record
        cases record.1
  · intro intent entry recorded
    obtain ⟨state, replays⟩ := tracked.replays intent entry recorded
    refine ⟨state, replays.ignored system.journal rfl _ ?_ ?_⟩
    · simp only [JournalScan.replayed, type]
    · intro record
      rw [Records, type] at record
      cases record.1

theorem Tracked.step (tracked : Tracked exact_ system) {input : JournalInput}
    (sound : system.Sound input) (acknowledged : exact_ → system.Acknowledged input) :
    Tracked exact_ (system.step input).1 := by
  cases input with
  | foreign request => exact tracked.foreign sound
  | call call eventId fate =>
      have outcome := system.journal.call_outcome (fun _ => fate.result) eventId call
      have refused : ∀ reason, fate = .rejected reason →
          (system.journal.call (fun _ => fate.result) eventId call).sent ≠ none → ¬ exact_ := by
        intro reason own sent holds
        subst own
        exact sent (acknowledged holds)
      simp only [JournalSystem.step]
      generalize system.journal.call (fun _ => fate.result) eventId call = called
        at outcome refused ⊢
      cases outcome with
      | refused reason =>
          simp only [appended_none]
          exact tracked
      | repeated entry held notReady =>
          simp only [appended_none]
          exact tracked
      | unacknowledged suffix reason valid ready plain answer =>
          cases fate with
          | acknowledged receipt => cases answer
          | rejected reason =>
              exact tracked.unacknowledged valid plain ready
                (refused reason rfl (Option.some_ne_none _))
          | lost reason =>
              simp only [appended_lost]
              exact tracked
      | entered suffix receipt valid ready plain answer =>
          cases fate with
          | acknowledged receipt =>
              cases answer
              apply tracked.entered valid plain ready
              intro first
              cases call with
              | prepare intent => exact sound ready
              | dispatchStarted intent => cases first
              | receipt intent summary => cases first
              | executionUncertain intent summary => cases first
          | rejected reason => cases answer
          | lost reason => cases answer

end Step

theorem JournalSystem.step_runtimeId (system : JournalSystem) (input : JournalInput) :
    (system.step input).1.journal.runtimeId = system.journal.runtimeId := by
  cases input with
  | foreign request => rfl
  | call call eventId fate =>
      have outcome := system.journal.call_outcome (fun _ => fate.result) eventId call
      simp only [JournalSystem.step]
      generalize system.journal.call (fun _ => fate.result) eventId call = called at outcome ⊢
      cases outcome <;> rfl

/-- A journal without entries over an empty store. -/
def JournalSystem.start (runtime : RuntimeId) : JournalSystem := ⟨{ runtimeId := runtime }, []⟩

theorem tracked_start (exact_ : Prop) (runtime : RuntimeId) :
    Tracked exact_ (.start runtime) where
  order := .nil
  records := fun _ absent => absurd absent List.not_mem_nil
  entries := fun _ absent => absurd absent List.not_mem_nil
  replays := by
    intro intent entry recorded
    cases recorded.2

open Execution in
theorem tracked_run {runtime : RuntimeId} {inputs : List JournalInput}
    (sound : Guarded JournalSystem.step JournalSystem.Sound (.start runtime) inputs) :
    Tracked (Guarded JournalSystem.step JournalSystem.Acknowledged (.start runtime) inputs)
      (run JournalSystem.step (.start runtime) inputs) := by
  by_cases exact_ : Guarded JournalSystem.step JournalSystem.Acknowledged (.start runtime) inputs
  · apply run_invariant _ _ _ _ _ inputs (tracked_start _ runtime) (guarded_and _ sound exact_)
    intro system input guard tracked
    exact tracked.step guard.1 fun _ => guard.2
  · apply run_invariant _ _ _ _ _ inputs (tracked_start _ runtime) sound
    intro system input guard tracked
    exact tracked.step guard fun holds => absurd holds exact_

open Execution in
/-- Recovery agrees with the live journal in every run in which an acknowledged preparation
finds no record of another intent for its action. -/
theorem recovery_agrees (runtime : RuntimeId) (inputs : List JournalInput)
    (sound : Guarded JournalSystem.step JournalSystem.Sound (.start runtime) inputs)
    (intent : ActionIntent) (entry : JournalEntry)
    (recorded : Recorded (run JournalSystem.step (.start runtime) inputs).journal intent entry) :
    ∃ state,
      (∀ policy : JournalRecoveryPolicy, 1 ≤ policy.pageSize →
        (sessionEvents intent.sessionId
          (run JournalSystem.step (.start runtime) inputs).log).length ≤
            policy.maxEventsScanned →
        ActionJournal.recover { runtimeId := runtime }
          (readLog (run JournalSystem.step (.start runtime) inputs).log) policy intent =
            .ok state) ∧
      (Guarded JournalSystem.step JournalSystem.Acknowledged (.start runtime) inputs →
        state.phase = entry.phase) ∧
      ((∃ event ∈ (run JournalSystem.step (.start runtime) inputs).log,
        Records event intent.actionId .dispatchStarted) → state.phase ≠ .prepared) := by
  have tracked := tracked_run sound
  have runtime_ : (run JournalSystem.step (.start runtime) inputs).journal.runtimeId =
      runtime := by
    apply run_invariant_always _ (fun system : JournalSystem => system.journal.runtimeId = runtime)
    · intro system input same
      rw [system.step_runtimeId input, same]
    · rfl
  obtain ⟨state, replays⟩ := tracked.replays intent entry recorded
  have valid := validIntent_of_validate recorded.1
  have replayed := replays.replayed
  rw [runtime_] at valid replayed
  refine ⟨state, ?_, replays.same, ?_⟩
  · intro policy paged bounded
    rw [recover_replayState tracked.order valid replays.listed paged bounded, replayed]
  · intro record first
    obtain ⟨event, present, started⟩ := record
    exact replays.unstarted first event present started

def doorIntent (target : Bytes) : ActionIntent where
  actionId := .filled 1
  runtimeId := .filled 2
  sessionId := .filled 3
  taskId := .filled 4
  actionDigest := ⟨List.replicate 32 5, rfl⟩
  target := ⟨ascii "door", target, ascii "house"⟩

def doorReceipt (eventId : EventId) (sequence : Nat) : AppendReceipt :=
  ⟨eventId, sequence, some sequence, sequence, .processCrash⟩

def slowStore : Error := journalError .dataLoss
  "action journal append did not achieve required durability"

def dispatchedRun : List JournalInput :=
  [.call (.prepare (doorIntent (ascii "front"))) (.filled 10)
      (.acknowledged (doorReceipt (.filled 10) 1)),
    .call (.dispatchStarted (doorIntent (ascii "front"))) (.filled 11) (.rejected slowStore)]

/-- The start of the dispatch is recovered although its acknowledgement was rejected. -/
theorem dispatchedRun_recovered :
    ∃ state, state.phase ≠ .prepared ∧ ActionJournal.recover { runtimeId := .filled 2 }
      (readLog (Execution.run JournalSystem.step (.start (.filled 2)) dispatchedRun).log) {}
        (doorIntent (ascii "front")) = .ok state := by
  have sound : Execution.Guarded JournalSystem.step JournalSystem.Sound (.start (.filled 2))
      dispatchedRun :=
    ⟨fun _ _ absent => absurd absent List.not_mem_nil, trivial, trivial⟩
  have recorded : Recorded (Execution.run JournalSystem.step (.start (.filled 2))
      dispatchedRun).journal (doorIntent (ascii "front"))
        ⟨binding (doorIntent (ascii "front")), .prepared, doorReceipt (.filled 10) 1⟩ :=
    recorded_iff.mpr ⟨by decide +kernel, by decide +kernel, rfl⟩
  obtain ⟨state, recovered, _, started⟩ :=
    recovery_agrees (.filled 2) dispatchedRun sound _ _ recorded
  have present : ∃ event ∈ (Execution.run JournalSystem.step (.start (.filled 2))
      dispatchedRun).log, Records event (.filled 1) .dispatchStarted := by decide +kernel
  exact ⟨state, started present, recovered {} (by decide) (by decide +kernel)⟩

def reboundRun : List JournalInput :=
  [.call (.prepare (doorIntent (ascii "front"))) (.filled 10) (.rejected slowStore),
    .call (.prepare (doorIntent (ascii "back"))) (.filled 11)
      (.acknowledged (doorReceipt (.filled 11) 2))]

/-- The journal holds the second intent, and the record of the first one is in its way. -/
theorem reboundRun_unrecoverable :
    Recorded (Execution.run JournalSystem.step (.start (.filled 2)) reboundRun).journal
        (doorIntent (ascii "back"))
        ⟨binding (doorIntent (ascii "back")), .prepared, doorReceipt (.filled 11) 2⟩ ∧
      ActionJournal.recover { runtimeId := .filled 2 }
        (readLog (Execution.run JournalSystem.step (.start (.filled 2)) reboundRun).log) {}
          (doorIntent (ascii "back")) =
        .error (journalError .dataLoss "journal action identity conflicts with intent") := by
  refine ⟨recorded_iff.mpr ⟨by decide +kernel, by decide +kernel, rfl⟩, ?_⟩
  decide +kernel

end Mira.Actions
