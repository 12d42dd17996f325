import Mira.Workflow.Rollback

/-!
When a rollback restores the boundary of a patch.
-/

namespace Mira.Workflow
open Mira Bytes

variable {current boundary : EffectiveState}

variable {entries : List WorkflowPatchEntry}

structure Restored (state boundary : EffectiveState) : Prop where
  parameters : SameMembers state.parameters boundary.parameters
  overrides : SameMembers state.overrides boundary.overrides
  skipped : ∀ path, path ∈ state.skipped ↔ path ∈ boundary.skipped
  policy : state.policy = boundary.policy
  resolved : state.resolved = boundary.resolved

/-- A state of a run whose patches all meet the condition. -/
structure Orderly (host : Host) (definition : WorkflowDefinition) (state : EffectiveState) :
    Prop where
  coherent : Coherent host definition state
  ascending : Ascending state.overrides

variable {host : Host} {definition : WorkflowDefinition} {run next : PatchedRun}

variable {config : WorkflowRuntimeConfig}

end Mira.Workflow
