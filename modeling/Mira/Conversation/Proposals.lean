import Mira.Json.Canonical
import Mira.Json.Distinct
import Mira.Conversation.Bridge

/-!
The proposals of a batch are the calls of the response, each identifier once. A call that repeats
an identifier is compared with the proposal by the digest of its arguments alone, so the batch
says what every call asked for exactly where no such pair differs in anything else.
-/

namespace Mira.Conversation
open Mira Bytes Model

def namedTool (tools : List ExposedToolSpec) (call : ToolCallOutput) :
    Option (ToolId × SemanticVersion) :=
  (tools.find? fun tool => tool.wireName = call.providerName).map fun tool =>
    (tool.toolId, tool.version)

structure Agrees (tools : List ExposedToolSpec) (call : ToolCallOutput)
    (proposal : ToolProposal) : Prop where
  identity : proposal.toolId = call.toolId
  tool : namedTool tools call = some (proposal.toolId, proposal.toolVersion)
  arguments : proposal.arguments = call.arguments

structure SameCall (tools : List ExposedToolSpec) (first second : ToolCallOutput) : Prop where
  id : first.providerCallId = second.providerCallId
  identity : first.toolId = second.toolId
  tool : namedTool tools first = namedTool tools second
  arguments : first.arguments = second.arguments

def operationText (requestId : ModelRequestId) (call : ToolCallOutput) : Bytes :=
  canonicalJsonString (.object
    [(ascii "request_id", .string requestId.value.toString),
      (ascii "provider_call_id", .string call.providerCallId),
      (ascii "tool_id", .string call.toolId.value.toString),
      (ascii "arguments_digest", .string call.argumentsDigest.toString)])

/-- The digests of no two of the texts begin with the same sixteen bytes. -/
def HeadsApart (texts : List Bytes) : Prop :=
  ∀ first ∈ texts, ∀ second ∈ texts,
    (digestString first).bytes.take 16 = (digestString second).bytes.take 16 → first = second

/-- The batch proposes what the response calls. -/
structure ProposalsExact (limits : ToolBridgeLimits) (requestId : ModelRequestId)
    (tools : List ExposedToolSpec) (output : List ModelOutputItem) : Prop where
  ids : ∀ batch, resolveToolCalls limits requestId tools output = .ok batch →
    batch.proposals.map ToolProposal.providerCallId =
      Firsts.firsts [] ((toolCalls output).map ToolCallOutput.providerCallId)
  once : ∀ batch, resolveToolCalls limits requestId tools output = .ok batch →
    (batch.proposals.map ToolProposal.providerCallId).Nodup
  agrees : ∀ batch, resolveToolCalls limits requestId tools output = .ok batch →
    ∀ call ∈ toolCalls output, ∀ proposal ∈ batch.proposals,
      proposal.providerCallId = call.providerCallId → Agrees tools call proposal
  rejects : ∀ first ∈ toolCalls output, ∀ second ∈ toolCalls output,
    first.providerCallId = second.providerCallId → ¬ SameCall tools first second →
      ∃ error, resolveToolCalls limits requestId tools output = .error error
  operations : ∀ batch, resolveToolCalls limits requestId tools output = .ok batch →
    HeadsApart ((toolCalls output).map (operationText requestId)) →
    ∀ first ∈ toolCalls output, ∀ second ∈ toolCalls output, ¬ SameCall tools first second →
      ∀ one ∈ batch.proposals, ∀ other ∈ batch.proposals,
        one.providerCallId = first.providerCallId → other.providerCallId = second.providerCallId →
          one.operationId ≠ other.operationId

/-- Every check of the bridge passes. -/
structure Resolvable (limits : ToolBridgeLimits) (tools : List ExposedToolSpec)
    (calls : List ToolCallOutput) : Prop where
  few : calls.length ≤ limits.maxCallsPerResponse
  checked : ∀ call ∈ calls, ∃ exposed, checkToolCall limits tools call = .ok exposed
  repeated : ∀ first ∈ calls, ∀ second ∈ calls,
    first.providerCallId = second.providerCallId → first.argumentsDigest = second.argumentsDigest

/-- The digests of the arguments do not tell the calls apart: they name different tools, or hold
different values behind one text. -/
structure Confusable (tools : List ExposedToolSpec) (first second : ToolCallOutput) : Prop where
  id : first.providerCallId = second.providerCallId
  digest : first.argumentsDigest = second.argumentsDigest
  apart : namedTool tools first ≠ namedTool tools second ∨ first.arguments ≠ second.arguments

variable {limits : ToolBridgeLimits} {requestId : ModelRequestId} {tools : List ExposedToolSpec}
  {call : ToolCallOutput} {exposed : ExposedToolSpec}

theorem named_of_check (passed : checkToolCall limits tools call = .ok exposed) :
    namedTool tools call = some (exposed.toolId, exposed.version) ∧
      call.toolId = exposed.toolId := by
  rw [checkToolCall] at passed
  split at passed
  · split at passed <;> cases passed
  · next found =>
      rw [namedTool, found]
      split at passed
      · cases passed
      · next own =>
          split at passed
          · cases passed
          · split at passed
            · cases passed
            · split at passed
              · cases passed
              · cases passed
                exact ⟨rfl, not_not.mp own⟩

theorem operationText_injective {first second : ToolCallOutput}
    (same : operationText requestId first = operationText requestId second) :
    first.providerCallId = second.providerCallId := by
  have written (call : ToolCallOutput) :
      operationText requestId call =
        123 :: (writeString (ascii "arguments_digest") ++ 58 ::
          (writeString call.argumentsDigest.toString ++ 44 ::
          (writeString (ascii "provider_call_id") ++ 58 ::
          (writeString call.providerCallId ++ 44 ::
          (writeString (ascii "request_id") ++ 58 :: (writeString requestId.value.toString ++ 44 ::
          (writeString (ascii "tool_id") ++ 58 ::
            (writeString call.toolId.value.toString ++ [125])))))))) := by
    have string (text : Bytes) : canonicalJsonString (.string text) = writeString text := by
      rw [canonicalJsonString, writeValue]
    have sorted : List.Perm
        [(ascii "request_id", JsonValue.string requestId.value.toString),
          (ascii "provider_call_id", .string call.providerCallId),
          (ascii "tool_id", .string call.toolId.value.toString),
          (ascii "arguments_digest", .string call.argumentsDigest.toString)]
        [(ascii "arguments_digest", .string call.argumentsDigest.toString),
          (ascii "provider_call_id", .string call.providerCallId),
          (ascii "request_id", .string requestId.value.toString),
          (ascii "tool_id", .string call.toolId.value.toString)] :=
      (List.perm_append_singleton _ [_, _, _]).trans ((List.Perm.swap _ _ _).cons _)
    have distinct : [ascii "request_id", ascii "provider_call_id", ascii "tool_id",
        ascii "arguments_digest"].Nodup := by
      decide
    rw [operationText, canonicalJsonString_of_perm sorted distinct,
      writeObject_sorted [ascii "arguments_digest", ascii "provider_call_id", ascii "request_id",
        ascii "tool_id"] rfl (by decide)]
    simp only [List.map_cons, List.map_nil, joinWith, string, List.append_assoc, List.cons_append]
  have hex (bytes : Bytes) : (44 : UInt8) ∉ writeString (toHex bytes) :=
    comma_not_mem (not_mem_toHex (by decide) bytes)
  rw [written, written, List.cons.injEq] at same
  obtain ⟨_, same⟩ := cut_at (hex _) (hex _) (behind_name same.2)
  refine writeString_injective (List.append_inj_left' (behind_name same) ?_)
  simp only [List.length_cons, List.length_append, Id128.toString, length_writeString_toHex,
    Id128.size]

/-- The proposal is made of the call, up to the mark of a collapsed repetition. -/
structure MadeOf (requestId : ModelRequestId) (tools : List ExposedToolSpec)
    (call : ToolCallOutput) (proposal : ToolProposal) : Prop extends
    Agrees tools call proposal where
  id : proposal.providerCallId = call.providerCallId
  digest : proposal.argumentsDigest = call.argumentsDigest
  operation : proposal.operationId =
    deriveToolOperationId requestId call.providerCallId call.toolId call.argumentsDigest

/-- What the batch says of the calls that were resolved. -/
structure Covers (limits : ToolBridgeLimits) (requestId : ModelRequestId)
    (tools : List ExposedToolSpec) (calls : List ToolCallOutput) (batch : ToolProposalBatch) :
    Prop where
  made : ∀ proposal ∈ batch.proposals, ∃ call ∈ calls, MadeOf requestId tools call proposal
  checked : ∀ call ∈ calls, ∃ exposed, checkToolCall limits tools call = .ok exposed
  proposed : ∀ call ∈ calls, ∃ proposal ∈ batch.proposals,
    proposal.providerCallId = call.providerCallId ∧ proposal.argumentsDigest = call.argumentsDigest

variable {batch next : ToolProposalBatch} {calls : List ToolCallOutput}

theorem mem_markDeduplicated {β : Type} (f : ToolProposal → β)
    (blind : ∀ proposal, f { proposal with deduplicated := true } = f proposal) {callId : Bytes}
    {proposals : List ToolProposal} {value : β} :
    (∃ proposal ∈ markDeduplicated callId proposals, f proposal = value) ↔
      ∃ proposal ∈ proposals, f proposal = value := by
  rw [← List.mem_map, ← List.mem_map, markDeduplicated_map f blind]

theorem MadeOf.marked {proposal other : ToolProposal}
    (made : MadeOf requestId tools call proposal)
    (same : { proposal with deduplicated := true } = { other with deduplicated := true }) :
    MadeOf requestId tools call other := by
  cases proposal
  cases other
  cases same
  exact ⟨⟨made.identity, made.tool, made.arguments⟩, made.id, made.digest, made.operation⟩

theorem Covers.step (covers : Covers limits requestId tools calls batch)
    (resolved : resolveToolCall limits requestId tools batch call = .ok next) :
    Covers limits requestId tools (calls ++ [call]) next := by
  obtain ⟨exposed, passed, rest⟩ := Checked.ok_of_bind resolved
  have checked : ∀ other ∈ calls ++ [call],
      ∃ exposed, checkToolCall limits tools other = .ok exposed := by
    intro other among
    rw [List.mem_append, List.mem_singleton] at among
    cases among with
    | inl old => exact covers.checked other old
    | inr new => exact ⟨exposed, new ▸ passed⟩
  split at rest
  · next existing found =>
      split at rest
      · next digest =>
          cases rest
          refine ⟨fun proposal among => ?_, checked, fun other among => ?_⟩
          · obtain ⟨old, own, same⟩ := (mem_markDeduplicated
              (fun proposal => { proposal with deduplicated := true }) fun _ => rfl).mp
              ⟨proposal, among, rfl⟩
            obtain ⟨source, held, made⟩ := covers.made old own
            exact ⟨source, List.mem_append_left _ held, made.marked same⟩
          · have asked : ∃ proposal ∈ batch.proposals,
                (proposal.providerCallId, proposal.argumentsDigest) =
                  (other.providerCallId, other.argumentsDigest) := by
              rw [List.mem_append, List.mem_singleton] at among
              cases among with
              | inl old =>
                  obtain ⟨proposal, own, id, same⟩ := covers.proposed other old
                  exact ⟨proposal, own, Prod.ext id same⟩
              | inr new =>
                  have id := List.find?_some found
                  rw [decide_eq_true_iff] at id
                  subst new
                  exact ⟨existing, List.mem_of_find?_eq_some found, Prod.ext id digest⟩
            obtain ⟨proposal, own, same⟩ := (mem_markDeduplicated
              (fun proposal => (proposal.providerCallId, proposal.argumentsDigest))
              fun _ => rfl).mpr asked
            exact ⟨proposal, own, Prod.mk.inj same⟩
      · cases rest
  · next absent =>
      cases rest
      refine ⟨fun proposal among => ?_, checked, fun other among => ?_⟩
      · rw [List.mem_append, List.mem_singleton] at among
        cases among with
        | inl old =>
            obtain ⟨source, own, made⟩ := covers.made proposal old
            exact ⟨source, List.mem_append_left _ own, made⟩
        | inr new =>
            obtain ⟨named, own⟩ := named_of_check passed
            subst new
            exact ⟨call, List.mem_append_right _ (List.mem_singleton.mpr rfl),
              ⟨⟨own.symm, named, rfl⟩, rfl, rfl, by rw [own]⟩⟩
      · rw [List.mem_append, List.mem_singleton] at among
        cases among with
        | inl old =>
            obtain ⟨proposal, own, same⟩ := covers.proposed other old
            exact ⟨proposal, List.mem_append_left _ own, same⟩
        | inr new =>
            subst new
            exact ⟨_, List.mem_append_right _ (List.mem_singleton.mpr rfl), rfl, rfl⟩

theorem Covers.resolves (covers : Covers limits requestId tools calls batch)
    (passed : checkToolCall limits tools call = .ok exposed)
    (repeated : ∀ other ∈ calls, other.providerCallId = call.providerCallId →
      other.argumentsDigest = call.argumentsDigest) :
    ∃ next, resolveToolCall limits requestId tools batch call = .ok next := by
  rw [resolveToolCall, passed]
  simp only [bind, Except.bind]
  split
  · next existing found =>
      have id := List.find?_some found
      rw [decide_eq_true_iff] at id
      obtain ⟨source, own, made⟩ := covers.made existing (List.mem_of_find?_eq_some found)
      rw [if_pos (made.digest.trans (repeated source own (made.id.symm.trans id)))]
      exact ⟨_, rfl⟩
  · exact ⟨_, rfl⟩

theorem Covers.run {later : List ToolCallOutput}
    (covers : Covers limits requestId tools calls batch)
    (resolved : later.foldlM (resolveToolCall limits requestId tools) batch = .ok next) :
    Covers limits requestId tools (calls ++ later) next := by
  induction later generalizing calls batch with
  | nil =>
      cases resolved
      rwa [List.append_nil]
  | cons call rest ih =>
      rw [List.foldlM_cons] at resolved
      obtain ⟨middle, one, others⟩ := Checked.ok_of_bind resolved
      rw [List.append_cons]
      exact ih (covers.step one) others

theorem Covers.run_resolves {later : List ToolCallOutput}
    (covers : Covers limits requestId tools calls batch)
    (checked : ∀ call ∈ later, ∃ exposed, checkToolCall limits tools call = .ok exposed)
    (repeated : ∀ first ∈ calls ++ later, ∀ second ∈ calls ++ later,
      first.providerCallId = second.providerCallId →
        first.argumentsDigest = second.argumentsDigest) :
    ∃ next, later.foldlM (resolveToolCall limits requestId tools) batch = .ok next := by
  induction later generalizing calls batch with
  | nil => exact ⟨batch, rfl⟩
  | cons call rest ih =>
      obtain ⟨⟨exposed, passed⟩, others⟩ := List.forall_mem_cons.mp checked
      obtain ⟨middle, one⟩ := covers.resolves passed fun other old =>
        repeated other (List.mem_append_left _ old) call
          (List.mem_append_right _ List.mem_cons_self)
      obtain ⟨last, done⟩ := ih (covers.step one) others
        (by rwa [List.append_assoc, List.singleton_append])
      rw [List.foldlM_cons, one]
      exact ⟨last, done⟩

variable {output : List ModelOutputItem}

theorem covers_nil : Covers limits requestId tools [] {} where
  made := fun _ never => (List.not_mem_nil never).elim
  checked := fun _ never => (List.not_mem_nil never).elim
  proposed := fun _ never => (List.not_mem_nil never).elim

theorem covers_of_resolved
    (resolved : resolveToolCalls limits requestId tools output = .ok batch) :
    Covers limits requestId tools (toolCalls output) batch := by
  rw [resolveToolCalls] at resolved
  split at resolved
  · cases resolved
  · exact covers_nil.run resolved

theorem nodup_ids (resolved : resolveToolCalls limits requestId tools output = .ok batch) :
    (batch.proposals.map ToolProposal.providerCallId).Nodup := by
  rw [resolveToolCalls_ids resolved]
  exact (Firsts.firsts_nodup _ _).1

theorem resolves_iff : (∃ batch, resolveToolCalls limits requestId tools output = .ok batch) ↔
    Resolvable limits tools (toolCalls output) := by
  constructor
  · intro ⟨batch, resolved⟩
    have covers := covers_of_resolved resolved
    refine ⟨?_, covers.checked, fun first own second own' same => ?_⟩
    · rw [resolveToolCalls] at resolved
      split at resolved
      · cases resolved
      · next few => exact not_lt.mp few
    · obtain ⟨one, held, id, digest⟩ := covers.proposed first own
      obtain ⟨other, held', id', digest'⟩ := covers.proposed second own'
      have equal := List.inj_on_of_nodup_map (nodup_ids resolved) held held'
        (id.trans (same.trans id'.symm))
      rw [← digest, ← digest', equal]
  · intro resolvable
    rw [resolveToolCalls, if_neg (not_lt.mpr resolvable.few)]
    exact covers_nil.run_resolves resolvable.checked resolvable.repeated

theorem tells_of_exact (exact_ : ProposalsExact limits requestId tools output)
    (resolvable : Resolvable limits tools (toolCalls output)) :
    ∀ first ∈ toolCalls output, ∀ second ∈ toolCalls output, ¬ Confusable tools first second := by
  intro first own second own' confusable
  have succeeds : ∃ batch, resolveToolCalls limits requestId tools output = .ok batch :=
    resolves_iff.mpr resolvable
  obtain ⟨batch, resolved⟩ := succeeds
  have differ : ¬ SameCall tools first second := by
    intro same
    cases confusable.apart with
    | inl tool => exact tool same.tool
    | inr arguments => exact arguments same.arguments
  obtain ⟨error, rejected⟩ := exact_.rejects first own second own' confusable.id differ
  rw [resolved] at rejected
  cases rejected

/-- The batch proposes what the response calls if and only if, where nothing else rejects the
response, no two calls share an identifier and a digest but name different tools or hold
different arguments. -/
theorem proposals_exact_iff (limits : ToolBridgeLimits) (requestId : ModelRequestId)
    (tools : List ExposedToolSpec) (output : List ModelOutputItem) :
    ProposalsExact limits requestId tools output ↔
      (Resolvable limits tools (toolCalls output) →
        ∀ first ∈ toolCalls output, ∀ second ∈ toolCalls output,
          ¬ Confusable tools first second) := by
  refine ⟨tells_of_exact, fun tells => ?_⟩
  have same {batch : ToolProposalBatch}
      (resolved : resolveToolCalls limits requestId tools output = .ok batch)
      {first second : ToolCallOutput} (own : first ∈ toolCalls output)
      (own' : second ∈ toolCalls output) (id : first.providerCallId = second.providerCallId) :
      SameCall tools first second := by
    have resolvable := resolves_iff.mp ⟨batch, resolved⟩
    have digest := resolvable.repeated first own second own' id
    have alike := tells resolvable first own second own'
    obtain ⟨exposed, passed⟩ := resolvable.checked first own
    obtain ⟨exposed', passed'⟩ := resolvable.checked second own'
    obtain ⟨named, identity⟩ := named_of_check passed
    obtain ⟨named', identity'⟩ := named_of_check passed'
    have tool : namedTool tools first = namedTool tools second :=
      not_not.mp fun apart => alike ⟨id, digest, .inl apart⟩
    refine ⟨id, ?_, tool, not_not.mp fun apart => alike ⟨id, digest, .inr apart⟩⟩
    rw [named, named', Option.some.injEq, Prod.mk.injEq] at tool
    rw [identity, identity', tool.1]
  refine ⟨fun batch => resolveToolCalls_ids, fun batch => nodup_ids, ?_, ?_, ?_⟩
  · intro batch resolved call own proposal among id
    obtain ⟨source, own', made⟩ := (covers_of_resolved resolved).made proposal among
    have alike := same resolved own' own (made.id.symm.trans id)
    exact ⟨made.identity.trans alike.identity, alike.tool.symm.trans made.tool,
      made.arguments.trans alike.arguments⟩
  · intro first own second own' id differ
    cases resolved : resolveToolCalls limits requestId tools output with
    | error error => exact ⟨error, rfl⟩
    | ok batch => exact absurd (same resolved own own' id) differ
  · intro batch resolved heads first own second own' differ one among other among' id id' equal
    obtain ⟨source, held, made⟩ := (covers_of_resolved resolved).made one among
    obtain ⟨source', held', made'⟩ := (covers_of_resolved resolved).made other among'
    have bytes : (deriveToolOperationId requestId source.providerCallId source.toolId
        source.argumentsDigest).value.bytes = (deriveToolOperationId requestId source'.providerCallId
        source'.toolId source'.argumentsDigest).value.bytes := by
      rw [← made.operation, ← made'.operation, equal]
    have texts := heads _ (List.mem_map_of_mem held) _ (List.mem_map_of_mem held') bytes
    refine differ (same resolved own own' ?_)
    rw [← id, ← id', made.id, made'.id]
    exact operationText_injective texts

/-- Two calls of two tools under one identifier and with the same arguments. -/
theorem second_tool_dropped :
    ¬ ProposalsExact {} { value := .nil }
      [{ toolId := ⟨⟨List.replicate 16 1, rfl⟩⟩, wireName := ascii "read" },
        { toolId := ⟨⟨List.replicate 16 2, rfl⟩⟩, wireName := ascii "delete" }]
      [.toolCall ⟨ascii "call", ⟨⟨List.replicate 16 1, rfl⟩⟩, ascii "read", .object [],
          digestString (toJsonString (.object []))⟩,
        .toolCall ⟨ascii "call", ⟨⟨List.replicate 16 2, rfl⟩⟩, ascii "delete", .object [],
          digestString (toJsonString (.object []))⟩] := by
  intro exact_
  refine tells_of_exact exact_ ⟨by decide, fun call own => ?_, fun first own second own' _ => ?_⟩
    _ List.mem_cons_self _ (List.mem_cons_of_mem _ List.mem_cons_self) ⟨rfl, rfl, .inl ?_⟩
  · have other : ascii "read" ≠ ascii "delete" := by decide
    have small : (toJsonString (.object [])).length ≤ 256 * 1024 := by decide +kernel
    simp only [toolCalls, List.filterMap_cons, List.filterMap_nil, List.mem_cons, List.not_mem_nil,
      or_false] at own
    cases own with
    | inl read =>
        subst read
        exact ⟨_, by simp [checkToolCall, JsonValue.isObject, not_lt.mpr small]; rfl⟩
    | inr delete =>
        subst delete
        exact ⟨_, by simp [checkToolCall, JsonValue.isObject, not_lt.mpr small, other]; rfl⟩
  · simp only [toolCalls, List.filterMap_cons, List.filterMap_nil, List.mem_cons, List.not_mem_nil,
      or_false] at own own'
    rcases own with rfl | rfl <;> rcases own' with rfl | rfl <;> rfl
  · decide +kernel

end Mira.Conversation
