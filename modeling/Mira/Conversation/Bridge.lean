import Mira.Model.Response
import Mira.Workflow.Contracts
import Mira.Library.Firsts
import Mira.Library.Checked

/-!
The bridge between a response and the tools: how the tool calls of a response are resolved to
proposals against the tools that its request exposed.
-/

namespace Mira.Conversation

open Mira Bytes Model

-- Membership among texts is decided through this one instance.
local instance bytesLawful : LawfulBEq (List UInt8) := inferInstance

/-- What the bridge reads of a tool that a request exposes. -/
structure ExposedToolSpec extends Model.ExposedToolSpec where
  version : SemanticVersion := {}
  hasSideEffects : Bool := false

structure ToolBridgeLimits where
  maxCallsPerResponse : Nat := 16
  maxArgumentsBytes : Nat := 256 * 1024
  maxResultBytes : Nat := 1024 * 1024

def hostedToolNames : List Bytes :=
  ["web_search", "web_search_preview", "file_search", "code_interpreter", "computer_use_preview",
    "computer-use", "mcp", "bash", "shell", "terminal", "image_generation", "canvas"].map ascii

def isKnownHostedToolName (wireName : Bytes) : Bool := wireName ∈ hostedToolNames

def deriveToolOperationId (requestId : ModelRequestId) (callId : Bytes) (toolId : ToolId)
    (argumentsDigest : Sha256Digest) : OperationId :=
  let digest := Workflow.canonicalJsonDigest (.object
    [(ascii "request_id", .string requestId.value.toString),
      (ascii "provider_call_id", .string callId),
      (ascii "tool_id", .string toolId.value.toString),
      (ascii "arguments_digest", .string argumentsDigest.toString)])
  ⟨digest.bytes.take 16, by rw [List.length_take, digest.size]; rfl⟩

/-- One resolved, locally verified tool proposal. -/
structure ToolProposal where
  providerCallId : Bytes
  toolId : ToolId
  wireName : Bytes
  toolVersion : SemanticVersion
  arguments : JsonValue
  argumentsDigest : Sha256Digest
  operationId : OperationId
  hasSideEffects : Bool := false
  deduplicated : Bool := false

structure ToolBridgeDiagnostic where
  providerCallId : Bytes
  message : Bytes

structure ToolProposalBatch where
  proposals : List ToolProposal := []
  diagnostics : List ToolBridgeDiagnostic := []

def bridgeError (code : ModelDomainCode) (message : Bytes) : ModelError :=
  makeModelError code message

def toolCalls (output : List ModelOutputItem) : List ToolCallOutput :=
  output.filterMap fun
    | .toolCall call => some call
    | _ => none

/-- The checks of one call, in their order; what passes is the tool the call is for. -/
def checkToolCall (limits : ToolBridgeLimits) (tools : List ExposedToolSpec)
    (call : ToolCallOutput) : ModelResult ExposedToolSpec :=
  match tools.find? fun tool => tool.wireName = call.providerName with
  | none =>
      if isKnownHostedToolName call.providerName then
        .error (bridgeError .protocolViolation
          (ascii "hosted provider tool was not requested: " ++ call.providerName))
      else
        .error (bridgeError .protocolViolation
          (ascii "tool call references a tool that was not exposed"))
  | some exposed =>
      if call.toolId ≠ exposed.toolId then
        .error (bridgeError .protocolViolation
          (ascii "tool call identity does not match the exposed tool"))
      else if call.arguments.isObject = false then
        .error (bridgeError .protocolViolation
          (ascii "tool arguments were not a complete JSON object"))
      else if limits.maxArgumentsBytes < (toJsonString call.arguments).length then
        .error (bridgeError .responseTooLarge (ascii "tool arguments exceed the size limit"))
      else if digestString (toJsonString call.arguments) ≠ call.argumentsDigest then
        .error (bridgeError .protocolViolation
          (ascii "tool arguments digest does not match the payload"))
      else .ok exposed

def markDeduplicated (callId : Bytes) (proposals : List ToolProposal) : List ToolProposal :=
  proposals.modify (proposals.findIdx fun proposal => proposal.providerCallId = callId)
    fun proposal => { proposal with deduplicated := true }

/-- Adds one call to the batch: a call that repeats another one collapses into it. -/
def resolveToolCall (limits : ToolBridgeLimits) (requestId : ModelRequestId)
    (tools : List ExposedToolSpec) (batch : ToolProposalBatch) (call : ToolCallOutput) :
    ModelResult ToolProposalBatch := do
  let exposed ← checkToolCall limits tools call
  match batch.proposals.find? fun proposal => proposal.providerCallId = call.providerCallId with
  | some existing =>
      if existing.argumentsDigest = call.argumentsDigest then
        .ok { proposals := markDeduplicated call.providerCallId batch.proposals
              diagnostics := batch.diagnostics ++
                [⟨call.providerCallId, ascii "duplicate call collapsed"⟩] }
      else
        .error (bridgeError .protocolViolation
          (ascii "duplicate tool call id carries different arguments"))
  | none =>
      .ok { batch with
        proposals := batch.proposals ++
          [{ providerCallId := call.providerCallId
             toolId := exposed.toolId
             wireName := exposed.wireName
             toolVersion := exposed.version
             arguments := call.arguments
             argumentsDigest := call.argumentsDigest
             operationId := deriveToolOperationId requestId call.providerCallId exposed.toolId
               call.argumentsDigest
             hasSideEffects := exposed.hasSideEffects }] }

def resolveToolCalls (limits : ToolBridgeLimits) (requestId : ModelRequestId)
    (tools : List ExposedToolSpec) (output : List ModelOutputItem) :
    ModelResult ToolProposalBatch :=
  if limits.maxCallsPerResponse < (toolCalls output).length then
    .error (bridgeError .protocolViolation
      (ascii "tool call batch exceeds the per-response limit"))
  else (toolCalls output).foldlM (resolveToolCall limits requestId tools) {}

theorem markDeduplicated_map {β : Type} (f : ToolProposal → β)
    (blind : ∀ proposal, f { proposal with deduplicated := true } = f proposal) (callId : Bytes)
    (proposals : List ToolProposal) :
    (markDeduplicated callId proposals).map f = proposals.map f := by
  have general (index : Nat) :
      (proposals.modify index fun proposal => { proposal with deduplicated := true }).map f =
        proposals.map f := by
    induction proposals generalizing index with
    | nil => cases index <;> rfl
    | cons proposal rest ih =>
        cases index with
        | zero =>
            rw [List.modify_zero_cons, List.map_cons, blind, List.map_cons]
        | succ index => rw [List.modify_succ_cons, List.map_cons, ih, List.map_cons]
  exact general _

variable {limits : ToolBridgeLimits} {requestId : ModelRequestId} {tools : List ExposedToolSpec}
  {batch : ToolProposalBatch}

theorem resolveToolCall_ids {next : ToolProposalBatch} {call : ToolCallOutput}
    (resolved : resolveToolCall limits requestId tools batch call = .ok next) :
    next.proposals.map ToolProposal.providerCallId =
      if call.providerCallId ∈ batch.proposals.map ToolProposal.providerCallId then
        batch.proposals.map ToolProposal.providerCallId
      else batch.proposals.map ToolProposal.providerCallId ++ [call.providerCallId] := by
  obtain ⟨exposed, _, rest⟩ := Checked.ok_of_bind resolved
  split at rest
  · next existing found =>
      have same := List.find?_some found
      rw [decide_eq_true_iff] at same
      have present : call.providerCallId ∈ batch.proposals.map ToolProposal.providerCallId :=
        List.mem_map.mpr ⟨existing, List.mem_of_find?_eq_some found, same⟩
      rw [if_pos present]
      split at rest
      · cases rest
        exact markDeduplicated_map _ (fun _ => rfl) _ _
      · cases rest
  · next absent =>
      have fresh : call.providerCallId ∉ batch.proposals.map ToolProposal.providerCallId := by
        intro present
        obtain ⟨existing, own, same⟩ := List.mem_map.mp present
        exact List.find?_eq_none.mp absent existing own (decide_eq_true same)
      rw [if_neg fresh]
      cases rest
      rw [List.map_append]
      rfl

theorem resolveToolCalls_ids {output : List ModelOutputItem}
    (resolved : resolveToolCalls limits requestId tools output = .ok batch) :
    batch.proposals.map ToolProposal.providerCallId =
      Firsts.firsts [] ((toolCalls output).map ToolCallOutput.providerCallId) := by
  have general (calls : List ToolCallOutput) (before : ToolProposalBatch)
      (done : calls.foldlM (resolveToolCall limits requestId tools) before = .ok batch) :
      batch.proposals.map ToolProposal.providerCallId =
        before.proposals.map ToolProposal.providerCallId ++
          Firsts.firsts (before.proposals.map ToolProposal.providerCallId)
            (calls.map ToolCallOutput.providerCallId) := by
    induction calls generalizing before with
    | nil =>
        cases done
        exact (List.append_nil _).symm
    | cons call rest ih =>
        rw [List.foldlM_cons] at done
        obtain ⟨next, one, later⟩ := Checked.ok_of_bind done
        have ids := resolveToolCall_ids one
        rw [ih next later, ids, List.map_cons, Firsts.firsts]
        split
        · rfl
        · rw [List.append_assoc, List.singleton_append]
  rw [resolveToolCalls] at resolved
  split at resolved
  · cases resolved
  · exact general _ {} resolved

end Mira.Conversation
