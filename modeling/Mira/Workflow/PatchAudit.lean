import Mira.Workflow.PatchedRun

/-!
The audit of a patch: an event for each of its entries when it is proposed, and one more that says
how it ended. A patch is applied as a whole or not at all, and the last exit of all, a full record
of applied patches, is the one that leaves no event behind.
-/

namespace Mira.Workflow
open Mira Bytes

inductive PatchEvent
  | proposed (patchId : WorkflowPatchId) (digest : Sha256Digest) (target : WorkflowPatchTarget)
      (reasonCode : Bytes)
  | applied (patchId : WorkflowPatchId) (runPatchEpoch : UInt32)
  | rejected (patchId : WorkflowPatchId) (reasonCode : Bytes)
  | policySwitched (previous next : WorkflowPolicy)

/-- A run with what a patch reads and writes of it, and the events of the store. -/
structure AuditedRun where
  terminal : Bool := false
  run : PatchedRun
  runPatchEpoch : UInt32 := 0
  events : List PatchEvent := []

namespace AuditedRun

def emit (audited : AuditedRun) (events : List PatchEvent) : AuditedRun :=
  { audited with events := audited.events ++ events }

def emitPatchRejected (audited : AuditedRun) (patchId : WorkflowPatchId) (reasonCode : Bytes) :
    AuditedRun :=
  audited.emit [.rejected patchId (boundedSummary reasonCode)]

def emitPatchApplied (audited : AuditedRun) (patchId : WorkflowPatchId) : AuditedRun :=
  audited.emit [.applied patchId audited.runPatchEpoch]

/-- `apply_patch`, with its error if it has one. -/
def applyPatch (host : Host) (config : WorkflowRuntimeConfig) (definition : WorkflowDefinition)
    (audited : AuditedRun) (patchId : WorkflowPatchId) (digest : Sha256Digest)
    (entries : List WorkflowPatchEntry) (reasonCode : Bytes) : AuditedRun × Option WorkflowError :=
  let proposed := audited.emit
    (entries.map fun entry => .proposed patchId digest entry.target (boundedSummary reasonCode))
  if audited.terminal then
    (proposed.emitPatchRejected patchId (ascii "run-terminal"),
      some (workflowError .invalidState "workflow run is terminal"))
  else
    match patchedState host definition audited.run.effective entries with
    | .error rejection =>
        (proposed.emitPatchRejected patchId rejection.reason, some rejection.error)
    | .ok patched =>
        -- This exit does not go through `reject`.
        if config.maxAppliedPatchesPerRun ≤ audited.run.applied.length then
          (proposed, some patchCapacityExceeded)
        else
          let committed :=
            { proposed with
              run :=
                { effective := commitPatch audited.run.effective entries patched
                  applied := audited.run.applied ++
                    [AppliedPatch.mk patchId digest entries audited.run.effective] }
              runPatchEpoch := audited.runPatchEpoch + 1 }
          let applied := committed.emitPatchApplied patchId
          (if patched.policy ≠ audited.run.effective.policy then
              applied.emit [.policySwitched audited.run.effective.policy patched.policy]
            else applied, none)

end AuditedRun

def PatchEvent.ofPatch : PatchEvent → Bool
  | .policySwitched _ _ => false
  | _ => true

def PatchEvent.isApplied : PatchEvent → Bool
  | .applied _ _ => true
  | _ => false

def PatchEvent.isRejected : PatchEvent → Bool
  | .rejected _ _ => true
  | _ => false

/-- What is the run's besides its events. -/
def AuditedRun.state (audited : AuditedRun) : PatchedRun × UInt32 :=
  (audited.run, audited.runPatchEpoch)

/-- The patch left one event for each entry and then one for its end, which tells whether the
state changed. -/
def Audited (before after : AuditedRun) (patchId : WorkflowPatchId) (digest : Sha256Digest)
    (entries : List WorkflowPatchEntry) (reasonCode : Bytes) : Prop :=
  ∃ last : PatchEvent,
    after.events.filter PatchEvent.ofPatch = before.events.filter PatchEvent.ofPatch ++
      (entries.map fun entry => PatchEvent.proposed patchId digest entry.target reasonCode) ++
        [last] ∧
      (last.isApplied = true ↔ after.state ≠ before.state) ∧
      (last.isRejected = true ↔ after.state = before.state)

section
variable {host : Host} {config : WorkflowRuntimeConfig} {definition : WorkflowDefinition}
  {audited : AuditedRun} {patchId : WorkflowPatchId} {digest : Sha256Digest}
  {entries : List WorkflowPatchEntry} {reasonCode : Bytes}

/-- The patch is valid, but the run has no room for another one. -/
structure OutOfRoom (host : Host) (config : WorkflowRuntimeConfig)
    (definition : WorkflowDefinition) (audited : AuditedRun) (entries : List WorkflowPatchEntry) :
    Prop where
  live : audited.terminal = false
  valid : ∃ patched, patchedState host definition audited.run.effective entries = .ok patched
  full : config.maxAppliedPatchesPerRun ≤ audited.run.applied.length

theorem proposed_ofPatch (reasonCode : Bytes) :
    (entries.map fun entry => PatchEvent.proposed patchId digest entry.target reasonCode).filter
        PatchEvent.ofPatch =
      entries.map fun entry => PatchEvent.proposed patchId digest entry.target reasonCode := by
  rw [List.filter_eq_self]
  intro event own
  obtain ⟨entry, _, rfl⟩ := List.mem_map.mp own
  rfl

/-- The ways in which a patch ends. -/
theorem applyPatch_cases {after : AuditedRun} {answer : Option WorkflowError}
    (done : audited.applyPatch host config definition patchId digest entries reasonCode =
      (after, answer)) :
    (∃ reason, answer ≠ none ∧ ¬ OutOfRoom host config definition audited entries ∧
        after = (audited.emit (entries.map fun entry =>
          .proposed patchId digest entry.target (boundedSummary reasonCode))).emitPatchRejected
            patchId reason) ∨
      (answer ≠ none ∧ OutOfRoom host config definition audited entries ∧
        after = audited.emit (entries.map fun entry =>
          .proposed patchId digest entry.target (boundedSummary reasonCode))) ∨
      (answer = none ∧ ¬ OutOfRoom host config definition audited entries ∧
        after.runPatchEpoch = audited.runPatchEpoch + 1 ∧
        ∃ switched, switched.filter PatchEvent.ofPatch = [] ∧ after.events =
          audited.events ++ (entries.map fun entry =>
            .proposed patchId digest entry.target (boundedSummary reasonCode)) ++
              [.applied patchId after.runPatchEpoch] ++ switched) := by
  rw [AuditedRun.applyPatch] at done
  split at done
  · next ended =>
      cases done
      exact .inl ⟨_, Option.some_ne_none _, fun full => by simp [full.live] at ended, rfl⟩
  · next live =>
      split at done
      · next rejection refused =>
          cases done
          refine .inl ⟨_, Option.some_ne_none _, fun full => ?_, rfl⟩
          obtain ⟨patched, valid⟩ := full.valid
          rw [refused] at valid
          cases valid
      · next patched valid =>
          split at done
          · next full =>
              cases done
              exact .inr (.inl ⟨Option.some_ne_none _,
                ⟨Bool.not_eq_true _ ▸ live, ⟨patched, valid⟩, full⟩, rfl⟩)
          · next room =>
              refine .inr (.inr ?_)
              have open_ : ¬ OutOfRoom host config definition audited entries :=
                fun full => room full.full
              split at done
              · cases done
                exact ⟨rfl, open_, rfl, _, rfl, rfl⟩
              · cases done
                exact ⟨rfl, open_, rfl, [], rfl, (List.append_nil _).symm⟩

/-- A patch that is not applied leaves the state of the run, and a patch leaves a full audit if
and only if the run has room for it or it is refused before that is asked. -/
theorem patch_audited_iff (host : Host) (config : WorkflowRuntimeConfig)
    (definition : WorkflowDefinition) (audited : AuditedRun) (patchId : WorkflowPatchId)
    (digest : Sha256Digest) (entries : List WorkflowPatchEntry) (reasonCode : Bytes) :
    ((audited.applyPatch host config definition patchId digest entries reasonCode).2 ≠ none →
      (audited.applyPatch host config definition patchId digest entries reasonCode).1.state =
        audited.state) ∧
    (Audited audited (audited.applyPatch host config definition patchId digest entries reasonCode).1
        patchId digest entries (boundedSummary reasonCode) ↔
      ¬ OutOfRoom host config definition audited entries) := by
  cases done : audited.applyPatch host config definition patchId digest entries reasonCode with
  | mk after answer =>
      cases applyPatch_cases done with
      | inl rejected =>
          obtain ⟨reason, failed, room, rfl⟩ := rejected
          refine ⟨fun _ => rfl, fun _ => room, fun _ => ⟨.rejected patchId (boundedSummary reason),
            ?_, ?_, ?_⟩⟩
          · simp only [AuditedRun.emitPatchRejected, AuditedRun.emit, List.filter_append,
              proposed_ofPatch]
            rfl
          · exact ⟨fun never => (by cases never), fun changed => absurd rfl changed⟩
          · exact ⟨fun _ => rfl, fun _ => rfl⟩
      | inr settled =>
          cases settled with
          | inl unsettled =>
              obtain ⟨failed, full, rfl⟩ := unsettled
              refine ⟨fun _ => rfl, fun audit => ?_, fun room => absurd full room⟩
              obtain ⟨last, whole, _⟩ := audit
              have lengths := congrArg List.length whole
              simp only [AuditedRun.emit, List.filter_append, proposed_ofPatch, List.length_append,
                List.length_singleton] at lengths
              omega
          | inr applied =>
              obtain ⟨succeeded, room, epoch, switched, quiet, events⟩ := applied
              have changed : after.state ≠ audited.state := by
                intro same
                have still : after.runPatchEpoch = audited.runPatchEpoch := congrArg Prod.snd same
                rw [epoch] at still
                simp at still
              refine ⟨fun failed => absurd succeeded failed, fun _ => room, fun _ =>
                ⟨.applied patchId after.runPatchEpoch, ?_, ⟨fun _ => changed, fun _ => rfl⟩, ?_⟩⟩
              · rw [events, List.filter_append, List.filter_append, List.filter_append, quiet,
                  List.append_nil, proposed_ofPatch]
                rfl
              · exact ⟨fun never => (by cases never), fun same => absurd same changed⟩

end

/-- A valid patch of a run that may apply none: the entry is proposed and nothing follows. -/
theorem full_run_unaudited :
    ¬ Audited { run := ⟨sendState, []⟩ }
      (AuditedRun.applyPatch sendHost { maxAppliedPatchesPerRun := 0 } sendWorkflow
        { run := ⟨sendState, []⟩ } (.filled 5) .zero
        [{ path := ascii "to", value := .string (ascii "b") }] []).1
      (.filled 5) .zero [{ path := ascii "to", value := .string (ascii "b") }]
      (boundedSummary []) := by
  intro audit
  obtain ⟨last, whole, _⟩ := audit
  have short : (AuditedRun.applyPatch sendHost { maxAppliedPatchesPerRun := 0 } sendWorkflow
      { run := ⟨sendState, []⟩ } (.filled 5) .zero
      [{ path := ascii "to", value := .string (ascii "b") }] []).1.events.length = 1 := by
    decide +kernel
  have kept := List.length_filter_le PatchEvent.ofPatch (AuditedRun.applyPatch sendHost
    { maxAppliedPatchesPerRun := 0 } sendWorkflow { run := ⟨sendState, []⟩ } (.filled 5) .zero
    [{ path := ascii "to", value := .string (ascii "b") }] []).1.events
  rw [whole, short] at kept
  simp at kept

end Mira.Workflow
