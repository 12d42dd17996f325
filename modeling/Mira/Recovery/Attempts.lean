import Mira.Recovery.Accounted

/-!
The settlement of an attempt, every turn and every run. Where each start is recorded before its
attempt is over and no attempt is turned away, the counter is the number of the attempts that
have not returned, a run is free again after its attempt, and a wait finds that attempt. An
attempt that is turned away keeps its place for good.
-/

namespace Mira.Recovery
open Mira Bytes Workflow

section
variable {config : WorkflowRecoveryConfig} {shared : Orchestrator} {thread : RecoveryPoint}
variable {others : List RecoveryPoint} {run : WorkflowRunId} {ticket : Ticket}
variable {answer : RecoveryAnswer}

theorem Inv.join (inv : Inv shared others) (call : RecoveryCall) :
    Inv shared (enterCall call :: others) := by
  have undrawn : (enterCall call :: others).filterMap recordingTicket =
      others.filterMap recordingTicket := List.filterMap_cons_none (by cases call <;> rfl)
  have beside {run : WorkflowRunId} {ticket : Ticket}
      (present : ∃ point, .pipeline run ticket point ∈ others) :
      ∃ point, .pipeline run ticket point ∈ enterCall call :: others := by
    obtain ⟨point, present⟩ := present
    exact ⟨point, .tail _ present⟩
  refine ⟨inv.counted, ?_, ?_, inv.started, ?_, ?_, ?_, inv.flying, inv.rested, ?_⟩
  · intro run
    rw [List.countP_cons_of_neg (by cases call <;> simp [enterCall, RecoveryPoint.admitted])]
    exact inv.admitted run
  · intro run ticket pending
    obtain ⟨none, last, live⟩ := inv.pending run ticket pending
    exact ⟨none, last, beside live⟩
  · rw [undrawn]
    exact inv.distinct
  · rw [undrawn]
    exact inv.drawn
  · intro run ticket present none
    cases List.mem_cons.mp present with
    | inl same => cases call <;> cases same
    | inr before => exact beside (inv.starting run ticket before none)
  · intro run ticket attempt present
    cases List.mem_cons.mp present with
    | inl same => cases call <;> cases same
    | inr before => exact inv.own run ticket attempt before

theorem Inv.perm {first second : List RecoveryPoint} (same : first.Perm second)
    (inv : Inv shared first) : Inv shared second := by
  have drawn : (first.filterMap recordingTicket ++ shared.started.map Prod.snd).Perm
      (second.filterMap recordingTicket ++ shared.started.map Prod.snd) :=
    (same.filterMap _).append_right _
  refine ⟨inv.counted, ?_, ?_, inv.started, drawn.nodup_iff.mp inv.distinct, ?_, ?_, inv.flying,
    inv.rested, ?_⟩
  · exact fun run => (same.countP_eq _).symm.trans (inv.admitted run)
  · intro run ticket pending
    obtain ⟨none, last, point, live⟩ := inv.pending run ticket pending
    exact ⟨none, last, point, same.mem_iff.mp live⟩
  · exact fun ticket among => inv.drawn ticket (drawn.mem_iff.mpr among)
  · intro run ticket present none
    obtain ⟨point, live⟩ := inv.starting run ticket (same.mem_iff.mpr present) none
    exact ⟨point, same.mem_iff.mp live⟩
  · exact fun run ticket attempt present => inv.own run ticket attempt (same.mem_iff.mpr present)

theorem Inv.accounted {threads : List RecoveryPoint} (config : WorkflowRecoveryConfig)
    (inv : Inv shared threads) : Accounted config shared threads := by
  refine ⟨inv.counted, ?_, ?_, ?_⟩
  · intro run
    rw [inv.admitted]
    split
    · exact Nat.le_refl 1
    · exact Nat.zero_le 1
  · intro run returned refused
    rw [Orchestrator.checkStart] at refused
    split at refused
    · cases refused
    · split at refused
      · next busy =>
          cases busy with
          | inl flying =>
              have count := inv.admitted run
              rw [if_pos flying] at count
              have some : 0 < threads.countP (RecoveryPoint.admitted run) := by omega
              obtain ⟨point, present, admitted⟩ := List.countP_pos_iff.mp some
              cases point with
              | pipeline own ticket stage =>
                  refine returned ⟨ticket, stage, ?_⟩
                  have same : own = run := by
                    cases stage with
                    | preparing | requesting | settling =>
                        simpa [RecoveryPoint.admitted] using admitted
                    | _ => cases admitted
                  exact same ▸ present
              | _ => cases admitted
          | inr pending =>
              obtain ⟨ticket, pending⟩ := Option.isSome_iff_exists.mp pending
              obtain ⟨-, -, point, live⟩ := inv.pending run ticket pending
              exact returned ⟨ticket, point, live⟩
      · split at refused
        · cases refused
        · cases refused
  · intro run awaitable ticket last
    obtain ⟨tracked, found, recorded, fresh⟩ := awaitable
    have entry := tracked_of_find found
    rw [Orchestrator.waitRecovery, found]
    dsimp only
    cases held : tracked.pending with
    | some other =>
        rw [fresh (by rw [held]; rfl)]
        have latest := (inv.pending run other (entry ▸ held)).2.1
        exact Option.some.inj (latest.symm.trans last)
    | none =>
        have resting : tracked.inFlight = false := by
          cases up : tracked.inFlight with
          | false => rfl
          | true =>
              have pending := recorded up
              rw [held] at pending
              cases pending
        obtain ⟨other, attempt, latest, kept, result⟩ := inv.rested run tracked found resting held
        rw [result]
        cases latest.symm.trans last
        exact kept

end

instance decidableRecorded (config : WorkflowRecoveryConfig) (shared : Orchestrator)
    (others : List RecoveryPoint) (answer : RecoveryAnswer) :
    ∀ point, Decidable (Recorded config shared point others answer)
  | .recording _ _ => inferInstanceAs (Decidable (_ ∧ _))
  | .pipeline _ _ .snapshot => inferInstanceAs (Decidable (_ = true))
  | .pipeline run _ (.admitting state again) =>
      match found : shared.admission config run state with
      | .admitted ordinal => .isTrue (.inl ⟨ordinal, found⟩)
      | .settled attempt => .isFalse fun held => by simp [Recorded, found] at held
      | .error error =>
          match same : again with
          | false => .isTrue (.inr ⟨rfl, error, found⟩)
          | true => .isFalse fun held => by simp [Recorded, found] at held
  | .pipeline _ _ (.rejected _) => .isFalse id
  | .pipeline _ _ (.settling _) => inferInstanceAs (Decidable (_ = some _))
  | .pipeline _ _ (.evicting _) | .pipeline _ _ (.probing _ _) | .pipeline _ _ (.erasing _ _)
  | .pipeline _ _ (.preparing _) | .pipeline _ _ (.requesting _) => .isTrue trivial
  | .starting _ | .submitting _ | .waiting _ | .awaiting _ | .shutdown => .isTrue trivial

def firstRun : WorkflowRunId := ⟨⟨List.replicate 16 1, Eq.refl 16⟩⟩

/-- The run is started, the start is recorded, and its attempt is admitted, asks the model and
settles. -/
def settledTurns : List RecoveryTurn :=
  [.call (.startRecovery firstRun), .turn 0 {}, .turn 0 {}, .turn 0 {}, .turn 0 {}, .turn 0 {},
    .turn 0 {}, .turn 0 {}, .turn 0 {}]

end Mira.Recovery
