import Mira.Interaction.LedgerCalls

/-!
The stages of an input. An advance never lowers the stage and a failed one changes nothing,
except that a clarification may come with an earlier stage, and that the entry keeps the
edits of a transition whose append was refused.
-/

namespace Mira.Interaction
open Mira Bytes Events

/-- What is expected of an advance: the stage does not fall, a rejection stays, and an
error leaves the answer of a lookup as it was. -/
structure Orderly (ledger ledger' : EventStoreInputLedger) (inputId : Bytes)
    (answer : LedgerAnswer) : Prop where
  forward : ∀ entry entry', ledger.index.find? inputId = some entry →
    ledger'.index.find? inputId = some entry' → entry.stage.rank ≤ entry'.stage.rank
  terminal : ∀ entry entry', ledger.index.find? inputId = some entry →
    ledger'.index.find? inputId = some entry' → entry.stage = .rejected →
      entry'.stage = .rejected
  unchanged : ∀ reason, answer = .entry (.error reason) →
    ledger'.lookup inputId = ledger.lookup inputId

/-- Everything that the transition carries is in the entry already. -/
structure Known (entry : LedgerEntry) (transition : LedgerTransition) : Prop where
  stage : transition.stage = entry.stage
  session : ∀ session ∈ transition.sessionId, entry.sessionId = some session
  task : ∀ task ∈ transition.taskId, entry.taskId = some task
  note : transition.note = [] ∨ transition.note = entry.note
  clarification : ∀ text ∈ transition.clarification, entry.clarification = some text
  error : ∀ reason ∈ transition.error, entry.error = some reason

/-- A clarification does not come with an earlier stage, and a transition whose append is
refused carries nothing new. -/
def Proper (entry : LedgerEntry) (transition : LedgerTransition) (fate : AppendFate) : Prop :=
  (transition.clarification.isSome → entry.stage.rank ≤ transition.stage.rank) ∧
    ((∀ receipt, fate ≠ .acknowledged receipt) → entry.ignores transition = false →
      transition.recorded → Known entry transition)

theorem or_eq_iff {α : Type} {new old : Option α} :
    new.or old = old ↔ ∀ value ∈ new, old = some value := by
  cases new with
  | none => simp
  | some value =>
      rw [Option.some_or, eq_comm]
      simp

variable {entry : LedgerEntry} {transition : LedgerTransition}

theorem edited_eq_iff (recorded : transition.recorded) :
    entry.edited transition = entry ↔ Known entry transition := by
  have stage : (entry.edited transition).stage = transition.stage := if_pos recorded
  constructor
  · intro same
    refine ⟨?_, ?_, ?_, ?_, ?_, ?_⟩
    · rw [← stage, same]
    · exact or_eq_iff.mp (congrArg LedgerEntry.sessionId same)
    · exact or_eq_iff.mp (congrArg LedgerEntry.taskId same)
    · have note := congrArg LedgerEntry.note same
      simp only [LedgerEntry.edited, List.isEmpty_iff] at note
      split at note
      · next empty => exact .inl empty
      · exact .inr note
    · exact or_eq_iff.mp (congrArg LedgerEntry.clarification same)
    · exact or_eq_iff.mp (congrArg LedgerEntry.error same)
  · intro known
    have note : (entry.edited transition).note = entry.note := by
      simp only [LedgerEntry.edited, List.isEmpty_iff]
      split
      · rfl
      · next some_ => exact known.note.resolve_left some_
    have session : (entry.edited transition).sessionId = entry.sessionId :=
      or_eq_iff.mpr known.session
    have task : (entry.edited transition).taskId = entry.taskId := or_eq_iff.mpr known.task
    have clarification : (entry.edited transition).clarification = entry.clarification :=
      or_eq_iff.mpr known.clarification
    have error : (entry.edited transition).error = entry.error := or_eq_iff.mpr known.error
    have frame : entry.edited transition =
        { entry with
          stage := (entry.edited transition).stage
          sessionId := (entry.edited transition).sessionId
          taskId := (entry.edited transition).taskId
          note := (entry.edited transition).note
          clarification := (entry.edited transition).clarification
          error := (entry.edited transition).error } := rfl
    rw [frame, stage, known.stage, session, task, note, clarification, error]

theorem InputStage.rank_le_rejected (stage : InputStage) :
    stage.rank ≤ InputStage.rejected.rank := by
  cases stage <;> decide

theorem InputStage.rejected_of_rank {stage : InputStage}
    (last : InputStage.rejected.rank ≤ stage.rank) : stage = .rejected := by
  cases stage with
  | rejected => rfl
  | _ => exact absurd last (by decide)

/-- Where the stage of an edited entry stands: without a clarification the guards before
the edit keep it from falling. -/
theorem edited_rank (due : entry.ignores transition = false) :
    entry.stage.rank ≤ (entry.edited transition).stage.rank ↔
      (transition.clarification.isSome → entry.stage.rank ≤ transition.stage.rank) := by
  cases clarifying : transition.clarification with
  | some text =>
      have stage : (entry.edited transition).stage = transition.stage := by
        apply if_pos
        rw [clarifying]
        exact .inr rfl
      rw [stage]
      exact ⟨fun forward _ => forward, fun forward => forward rfl⟩
  | none =>
      refine iff_of_true ?_ (fun absent => by cases absent)
      simp only [LedgerEntry.ignores, clarifying, Option.isNone_none, Bool.true_and,
        Bool.or_eq_false_iff, Bool.and_eq_false_iff, decide_eq_false_iff_not, not_not,
        Nat.not_lt] at due
      simp only [LedgerEntry.edited, clarifying, Option.isSome_none, Bool.false_eq_true, or_false]
      split
      · cases due.1 with
        | inl rejected =>
            rw [rejected]
            exact entry.stage.rank_le_rejected
        | inr forward => exact forward
      · exact le_rfl

section Advance
variable {system : LedgerSystem} {inputId : Bytes}

theorem orderly_unchanged (ledger : EventStoreInputLedger) (inputId : Bytes)
    (answer : LedgerAnswer) : Orderly ledger ledger inputId answer where
  forward := by
    intro entry entry' held held'
    cases held.symm.trans held'
    exact le_rfl
  terminal := by
    intro entry entry' held held' rejected
    cases held.symm.trans held'
    exact rejected
  unchanged := fun _ _ => rfl

variable {entry : LedgerEntry}

theorem orderly_edited_iff {ledger : EventStoreInputLedger}
    (held : ledger.index.find? inputId = some entry) (edited : LedgerEntry)
    (result : LedgerResult LedgerEntry) :
    Orderly ledger (ledger.withEntry inputId edited) inputId (.entry result) ↔
      entry.stage.rank ≤ edited.stage.rank ∧
        ((∃ reason, result = .error reason) → edited = entry) := by
  have found : (ledger.withEntry inputId edited).index.find? inputId = some edited := by
    rw [find?_withEntry held, if_pos rfl]
  constructor
  · intro orderly
    refine ⟨orderly.forward entry edited held found, ?_⟩
    intro failed
    obtain ⟨reason, own⟩ := failed
    have same := orderly.unchanged reason (congrArg LedgerAnswer.entry own)
    simp only [EventStoreInputLedger.lookup, found, held] at same
    exact Except.ok.inj same
  · intro both
    refine ⟨?_, ?_, ?_⟩
    · intro old new held' found'
      cases held.symm.trans held'
      cases found.symm.trans found'
      exact both.1
    · intro old new held' found' rejected
      cases held.symm.trans held'
      cases found.symm.trans found'
      apply InputStage.rejected_of_rank
      rw [← rejected]
      exact both.1
    · intro reason own
      simp only [EventStoreInputLedger.lookup, found, held]
      rw [both.2 ⟨reason, LedgerAnswer.entry.inj own⟩]

theorem advance_orderly_iff (connected : system.ledger.connected = true)
    (transition : LedgerTransition) (eventId : EventId) (fate : AppendFate) :
    Orderly system.ledger (system.step (.advance inputId transition eventId fate)).1.ledger
        inputId (system.step (.advance inputId transition eventId fate)).2 ↔
      ∀ entry, system.ledger.index.find? inputId = some entry → Proper entry transition fate := by
  have outcome := system.ledger.advance_advance (fun _ => fate.result) inputId transition eventId
  simp only [LedgerSystem.step, LedgerSystem.called]
  generalize system.ledger.advance (fun _ => fate.result) inputId transition eventId = call
    at outcome ⊢
  have single {entry : LedgerEntry} (held : system.ledger.index.find? inputId = some entry) :
      (∀ other, system.ledger.index.find? inputId = some other → Proper other transition fate) ↔
        Proper entry transition fate := by
    rw [held]
    simp
  cases outcome with
  | unknown absent =>
      refine iff_of_true (orderly_unchanged _ _ _) ?_
      rw [absent]
      simp
  | ignored entry held late =>
      rw [single held]
      refine iff_of_true (orderly_unchanged _ _ _) ⟨?_, ?_⟩
      · intro clarifying
        simp only [LedgerEntry.ignores, Bool.or_eq_true, Bool.and_eq_true, decide_eq_true_eq]
          at late
        cases late with
        | inl plain =>
            rw [Option.isNone_iff_eq_none.mp plain.1.1] at clarifying
            cases clarifying
        | inr both => rw [both.1, both.2]
      · intro _ due
        rw [late] at due
        cases due
  | silent entry held due unrecorded =>
      have plain : ¬ transition.recorded := by
        rw [← record_isSome_iff, unrecorded]
        exact Bool.false_ne_true
      rw [single held, orderly_edited_iff held, edited_rank due, Proper]
      refine and_congr_right fun _ => iff_of_true ?_ fun _ _ recorded => absurd recorded plain
      intro failed
      obtain ⟨reason, impossible⟩ := failed
      cases impossible
  | failed entry held due type object recorded sent reason answer =>
      have visible : transition.recorded := by
        rw [← record_isSome_iff, recorded]
        rfl
      have refused : ∀ receipt, fate ≠ .acknowledged receipt := by
        intro receipt own
        subst own
        simp only [EventStoreInputLedger.append, connected, AppendFate.result] at answer
        cases answer
      rw [single held, orderly_edited_iff held, edited_rank due, edited_eq_iff visible, Proper]
      refine and_congr_right fun _ => ⟨fun known _ _ _ => known ⟨reason, rfl⟩, ?_⟩
      intro known _
      exact known refused due visible
  | recorded entry held due type object recorded answer =>
      have acknowledged : ¬ ∀ receipt, fate ≠ .acknowledged receipt := by
        intro refused
        obtain ⟨_, receipt, given⟩ := EventStoreInputLedger.append_ok answer
        cases fate with
        | acknowledged receipt => exact refused receipt rfl
        | rejected reason => cases given
        | lost reason => cases given
      rw [single held, orderly_edited_iff held, edited_rank due, Proper]
      refine and_congr_right fun _ => iff_of_true ?_ fun refused => absurd refused acknowledged
      intro failed
      obtain ⟨reason, impossible⟩ := failed
      cases impossible

/-- Advances with proper transitions, and nothing else. -/
def LedgerSystem.ProperAdvance (system : LedgerSystem) : LedgerInput → Prop
  | .advance inputId transition _ fate =>
      ∀ entry, system.ledger.index.find? inputId = some entry → Proper entry transition fate
  | _ => False

theorem advance_forward (connected : system.ledger.connected = true) {input : LedgerInput}
    (proper : system.ProperAdvance input) {other : Bytes}
    (held : system.ledger.index.find? other = some entry) :
    ∃ entry', (system.step input).1.ledger.index.find? other = some entry' ∧
      entry.stage.rank ≤ entry'.stage.rank := by
  cases input with
  | admitInput envelope readings fate => exact proper.elim
  | reclaimExpired now => exact proper.elim
  | rebuild => exact proper.elim
  | advance inputId transition eventId fate =>
      have orderly := (advance_orderly_iff connected transition eventId fate).mpr proper
      have outcome := system.ledger.advance_advance (fun _ => fate.result) inputId transition
        eventId
      simp only [LedgerSystem.step, LedgerSystem.called] at orderly ⊢
      generalize system.ledger.advance (fun _ => fate.result) inputId transition eventId = call
        at orderly outcome ⊢
      have edited {old : LedgerEntry} (own : system.ledger.index.find? inputId = some old)
          (new : LedgerEntry) (rank : old.stage.rank ≤ new.stage.rank) :
          ∃ entry', (system.ledger.withEntry inputId new).index.find? other = some entry' ∧
            entry.stage.rank ≤ entry'.stage.rank := by
        rw [find?_withEntry own]
        by_cases same : other = inputId
        · rw [same] at held
          cases own.symm.trans held
          exact ⟨new, if_pos same, rank⟩
        · exact ⟨entry, (if_neg same).trans held, le_rfl⟩
      cases outcome with
      | unknown absent => exact ⟨entry, held, le_rfl⟩
      | ignored old own late => exact ⟨entry, held, le_rfl⟩
      | silent old own due unrecorded =>
          exact edited own _ ((orderly_edited_iff own _ _).mp orderly).1
      | failed old own due type object recorded sent reason answer =>
          exact edited own _ ((orderly_edited_iff own _ _).mp orderly).1
      | recorded old own due type object recorded answer =>
          exact edited own _ ((orderly_edited_iff own _ _).mp orderly).1

end Advance

open Execution in
/-- In every reachable state an advance is orderly exactly if its transition is proper, and
along every run of proper advances no stage falls and no rejection is left. -/
theorem stages_never_regress (runtime : RuntimeId) (options : InputLedgerOptions)
    (inputs : List LedgerInput) :
    (∀ inputId transition eventId fate,
      Orderly (run LedgerSystem.step (.start runtime options) inputs).ledger
          ((run LedgerSystem.step (.start runtime options) inputs).step
            (.advance inputId transition eventId fate)).1.ledger inputId
          ((run LedgerSystem.step (.start runtime options) inputs).step
            (.advance inputId transition eventId fate)).2 ↔
        ∀ entry, (run LedgerSystem.step (.start runtime options) inputs).ledger.index.find?
          inputId = some entry → Proper entry transition fate) ∧
    ∀ advances, Guarded LedgerSystem.step LedgerSystem.ProperAdvance
        (run LedgerSystem.step (.start runtime options) inputs) advances →
      ∀ inputId entry, (run LedgerSystem.step (.start runtime options) inputs).ledger.index.find?
          inputId = some entry →
        ∃ entry', (run LedgerSystem.step (run LedgerSystem.step (.start runtime options) inputs)
            advances).ledger.index.find? inputId = some entry' ∧
          entry.stage.rank ≤ entry'.stage.rank ∧
          (entry.stage = .rejected → entry'.stage = .rejected) := by
  have connected : (run LedgerSystem.step (.start runtime options) inputs).ledger.connected =
      true := by
    apply run_invariant_always _ (fun system : LedgerSystem => system.ledger.connected = true)
    · intro system input same
      rw [(system.step_frame input).1, same]
    · rfl
  refine ⟨fun inputId transition eventId fate => advance_orderly_iff connected transition eventId
    fate, ?_⟩
  generalize run LedgerSystem.step (.start runtime options) inputs = system at connected
  intro advances proper inputId entry held
  have forward : ∃ entry', (run LedgerSystem.step system advances).ledger.index.find? inputId =
      some entry' ∧ entry.stage.rank ≤ entry'.stage.rank := by
    refine (run_invariant LedgerSystem.step LedgerSystem.ProperAdvance
      (fun system => system.ledger.connected = true ∧ ∃ entry',
        system.ledger.index.find? inputId = some entry' ∧
          entry.stage.rank ≤ entry'.stage.rank) ?_ system advances
      ⟨connected, entry, held, le_rfl⟩ proper).2
    intro system input guard reached
    obtain ⟨connected, middle, found, rank⟩ := reached
    obtain ⟨next, found', rank'⟩ := advance_forward connected guard found
    exact ⟨(system.step_frame input).1.trans connected, next, found', rank.trans rank'⟩
  obtain ⟨entry', found, rank⟩ := forward
  refine ⟨entry', found, rank, ?_⟩
  intro rejected
  apply InputStage.rejected_of_rank
  rw [← rejected]
  exact rank

def admittedDoor : LedgerInput := .admitInput doorEnvelope (readingsAt 100 7) (acknowledgedBy 7)

def advanceDoor (transition : LedgerTransition) (fate : AppendFate) : LedgerInput :=
  .advance (ascii "open-the-door") transition (.filled 9) fate

/-- The answer does not take a routed input back. -/
theorem answered_door_forward :
    ∃ entry', (Execution.run LedgerSystem.step (Execution.run LedgerSystem.step
        (.start (.filled 3) shortWindow)
        [admittedDoor, advanceDoor { stage := .routed } (acknowledgedBy 9)])
        [advanceDoor { stage := .answered } (acknowledgedBy 9)]).ledger.index.find?
          (ascii "open-the-door") = some entry' ∧
      InputStage.routed.rank ≤ entry'.stage.rank := by
  have routed : (Execution.run LedgerSystem.step (.start (.filled 3) shortWindow)
      [admittedDoor, advanceDoor { stage := .routed } (acknowledgedBy 9)]).ledger.index.find?
        (ascii "open-the-door") = some { doorEntry 100 7 with stage := .routed } := by
    decide +kernel
  have proper : Execution.Guarded LedgerSystem.step LedgerSystem.ProperAdvance
      (Execution.run LedgerSystem.step (.start (.filled 3) shortWindow)
        [admittedDoor, advanceDoor { stage := .routed } (acknowledgedBy 9)])
      [advanceDoor { stage := .answered } (acknowledgedBy 9)] := by
    refine ⟨?_, trivial⟩
    intro entry _
    constructor
    · intro clarifying
      cases clarifying
    · intro refused
      exact absurd rfl (refused { eventId := .filled 9 })
  obtain ⟨entry', found, rank, _⟩ := (stages_never_regress (.filled 3) shortWindow
    [admittedDoor, advanceDoor { stage := .routed } (acknowledgedBy 9)]).2 _ proper
      (ascii "open-the-door") _ routed
  exact ⟨entry', found, rank⟩

/-- A clarification takes a rejected input back to its admission, and a refused append
leaves a new stage behind. -/
theorem clarification_undoes_rejection :
    (Execution.run LedgerSystem.step (.start (.filled 3) shortWindow)
        [admittedDoor, advanceDoor { stage := .rejected } (acknowledgedBy 9)]).ledger.lookup
          (ascii "open-the-door") =
      .ok { doorEntry 100 7 with stage := .rejected } ∧
    (Execution.run LedgerSystem.step (.start (.filled 3) shortWindow)
        [admittedDoor, advanceDoor { stage := .rejected } (acknowledgedBy 9),
          advanceDoor { clarification := some (ascii "which door?") }
            (acknowledgedBy 9)]).ledger.lookup (ascii "open-the-door") =
      .ok { doorEntry 100 7 with clarification := some (ascii "which door?") } ∧
    (Execution.run LedgerSystem.step (.start (.filled 3) shortWindow)
        [admittedDoor]).ledger.lookup (ascii "open-the-door") = .ok (doorEntry 100 7) ∧
    (Execution.outputs LedgerSystem.step (.start (.filled 3) shortWindow)
        [admittedDoor, advanceDoor { stage := .routed } (.lost {})])[1]? =
      some (.entry (.error (interactionError .unavailable .ledgerUnavailable
        "the interaction ledger could not append its record"))) ∧
    (Execution.run LedgerSystem.step (.start (.filled 3) shortWindow)
        [admittedDoor, advanceDoor { stage := .routed } (.lost {})]).ledger.lookup
          (ascii "open-the-door") = .ok { doorEntry 100 7 with stage := .routed } := by
  refine ⟨?_, ?_, ?_, ?_, ?_⟩
  · decide +kernel
  · decide +kernel
  · decide +kernel
  · decide +kernel
  · decide +kernel

end Mira.Interaction
