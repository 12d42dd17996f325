import Mira.Model.Response
import Mira.Storage.Artifacts

/-!
How the Messages mapper encodes the input of a request: the assistant items are split off part by
part, the rest goes through the Chat Completions mapper, the messages that it makes are translated
and joined, and the blocks of the assistant take their places by position. Of the wire request
this is the `system` list and the `messages`; the errors are not told apart.
-/

namespace Mira.Model
open Mira Bytes Storage

inductive ModelRole
  | system | developer | user | assistant | unknown
  deriving DecidableEq

inductive ImageDetail
  | auto | low | high | original
  deriving DecidableEq

structure ToolCallPart where
  providerCallId : Bytes
  wireName : Bytes
  arguments : JsonValue

structure ToolResultPart where
  providerCallId : Bytes
  result : JsonValue := .null
  largePayload : Option ArtifactRef := none
  failed : Bool := false
  safeErrorSummary : Bytes := []

inductive ModelContentPart
  | text (text : Bytes)
  | image (source : ArtifactRef) (detail : ImageDetail)
  | file
  | toolCall (call : ToolCallPart)
  | toolResult (result : ToolResultPart)
  | thinking (text signature : Bytes) (redacted : Bool)

def ModelContentPart.isThinking : ModelContentPart → Bool
  | thinking .. => true
  | _ => false

def ModelContentPart.isImage : ModelContentPart → Bool
  | image .. => true
  | _ => false

def ModelContentPart.isFile : ModelContentPart → Bool
  | file => true
  | _ => false

structure ModelInputItem where
  role : ModelRole
  content : List ModelContentPart

/-- The item speaks for the host, not in the conversation. -/
def ModelInputItem.isSystem (item : ModelInputItem) : Bool :=
  item.role = .system || item.role = .developer

inductive OutputMode
  | strictJsonSchema | strictFunctionTool | jsonObject | text
  deriving DecidableEq

inductive ReasoningEffort
  | minimal | low | medium | high | xHigh | max
  deriving DecidableEq

/-- The options of a request that a mapper may refuse; of some only whether they are set. -/
structure ModelRequestOptions where
  outputMode : OutputMode := .text
  maxOutputTokens : Option Nat := none
  temperature : Bool := false
  topP : Bool := false
  seed : Bool := false
  serviceTier : Bool := false
  thinking : Bool := false
  reasoningEffort : Option ReasoningEffort := none
  organization : Bool := false
  project : Bool := false
  store : Bool := false
  continuation : Bool := false
  tools : List ExposedToolSpec := []
  requiredTool : Option ToolId := none

structure ModelRequest where
  input : List ModelInputItem
  options : ModelRequestOptions := {}

inductive ParamMapping
  | native | mapped | omitIfUnset | unsupported
  deriving DecidableEq

/-- What a profile says about requests. -/
structure ModelProfile where
  extraBody : List (Bytes × JsonValue) := []
  maxOutputTokens : ParamMapping := .native
  temperature : ParamMapping := .native
  topP : ParamMapping := .native
  thinking : ParamMapping := .native
  reasoningEffort : ParamMapping := .native
  functionTools : Bool := true
  imageInput : Bool := true
  sse : Bool := true

def ParamMapping.refuses (mapping : ParamMapping) (set : Bool) : Bool :=
  set && mapping = .unsupported

def messagesRefuses (options : ModelRequestOptions) (profile : ModelProfile) : Bool :=
  !profile.extraBody.isEmpty || options.outputMode ≠ .text || options.seed ||
    options.serviceTier || options.organization || options.project ||
    options.maxOutputTokens.getD 0 = 0 ||
    profile.thinking.refuses options.thinking ||
    profile.reasoningEffort.refuses options.reasoningEffort.isSome ||
    options.reasoningEffort = some .minimal

/-- The Chat Completions mapper does, with the thinking options taken out. -/
def chatRefuses (options : ModelRequestOptions) (profile : ModelProfile) (stream : Bool) : Bool :=
  profile.maxOutputTokens.refuses options.maxOutputTokens.isSome ||
    profile.temperature.refuses options.temperature || profile.topP.refuses options.topP ||
    options.continuation || options.store || (stream && !profile.sse) ||
    (!options.tools.isEmpty &&
      (!profile.functionTools ||
        options.requiredTool.any fun tool => options.tools.all fun spec => spec.toolId ≠ tool))

def base64Digit (n : Nat) : UInt8 :=
  if n < 26 then UInt8.ofNat (65 + n)
  else if n < 52 then UInt8.ofNat (71 + n)
  else if n < 62 then UInt8.ofNat (n - 4)
  else if n = 62 then 43 else 47

def base64Encode : Bytes → Bytes
  | [] => []
  | [a] => [base64Digit (a.toNat / 4), base64Digit (a.toNat % 4 * 16), 61, 61]
  | [a, b] =>
      [base64Digit (a.toNat / 4), base64Digit (a.toNat % 4 * 16 + b.toNat / 16),
        base64Digit (b.toNat % 16 * 4), 61]
  | a :: b :: c :: rest =>
      base64Digit (a.toNat / 4) :: base64Digit (a.toNat % 4 * 16 + b.toNat / 16) ::
        base64Digit (b.toNat % 16 * 4 + c.toNat / 64) :: base64Digit (c.toNat % 64) ::
        base64Encode rest

def delimiter : Bytes := ascii ";base64,"

inductive ChatPart
  | text (text : Bytes)
  | imageUrl (url : Bytes)

inductive ChatContent
  | null
  | text (text : Bytes)
  | parts (parts : List ChatPart)

/-- A call with the text of its arguments. -/
structure ChatCall where
  id : Bytes
  name : Bytes
  arguments : Bytes

inductive ChatRole
  | system | developer | user | assistant | tool
  deriving DecidableEq

structure ChatMessage where
  role : ChatRole
  content : ChatContent
  toolCalls : List ChatCall := []
  toolCallId : Bytes := []

inductive ItemShape
  | ordinary | callsOnly | resultsOnly | mixed

def classifyFrom (calls results : Bool) : List ModelContentPart → ItemShape
  | [] =>
      if calls && results then .mixed
      else if calls then .callsOnly
      else if results then .resultsOnly
      else .ordinary
  | .toolCall _ :: rest => classifyFrom true results rest
  | .toolResult _ :: rest => classifyFrom calls true rest
  | _ :: rest => if calls || results then .mixed else classifyFrom calls results rest

def classifyItem (item : ModelInputItem) : ItemShape := classifyFrom false false item.content

def encodeCall : ModelContentPart → Option ChatCall
  | .toolCall call => some ⟨call.providerCallId, call.wireName, toJsonString call.arguments⟩
  | _ => none

def maxResultBytes : Nat := 1024 * 1024

/-- The envelope in which a result goes back to the provider. -/
def resultOutput (result : ToolResultPart) : JsonValue :=
  if result.failed then
    .object [(ascii "status", .string (ascii "error")),
      (ascii "error", .string result.safeErrorSummary)]
  else
    .object [(ascii "status", .string (ascii "ok")),
      match result.largePayload with
      | some payload =>
          (ascii "payload", .object [(ascii "artifact_id", .string payload.id.toString),
            (ascii "media_type", .string payload.mediaType),
            (ascii "byte_size", .integer payload.byteSize.toInt64.toInt)])
      | none => (ascii "result", result.result)]

def encodeResult : ModelContentPart → Option ChatMessage
  | .toolResult result =>
      if result.providerCallId.isEmpty ∨
          (maxResultBytes < (toJsonString result.result).length ∧ result.largePayload.isNone) then
        none
      else
        some { role := .tool
               content := .text (toJsonString (resultOutput result))
               toolCallId := result.providerCallId }
  | _ => none

def chatRole : ModelRole → Option ChatRole
  | .system => some .system
  | .developer => some .developer
  | .user => some .user
  | .assistant => some .assistant
  | .unknown => none

def maxInlineImageBytes : Nat := 8 * 1024 * 1024

section Mapper
variable (profile : ModelProfile) (fetch : ArtifactRef → Option Bytes)

def fetchImageDataUrl (source : ArtifactRef) : Option Bytes :=
  if (ascii "image/").isPrefixOf source.mediaType = false ∨
      maxInlineImageBytes < source.byteSize.toNat then none
  else
    match fetch source with
    | none => none
    | some bytes =>
        if bytes.isEmpty then none
        else some (ascii "data:" ++ source.mediaType ++ (delimiter ++ base64Encode bytes))

/-- One part beside images; a part that is no text and no image is passed over. -/
def encodePart : ModelContentPart → Option (List ChatPart)
  | .text text => some [.text text]
  | .image source _ => (fetchImageDataUrl fetch source).map fun url => [.imageUrl url]
  | _ => some []

def plainText : ModelContentPart → Bytes
  | .text text => text
  | _ => []

/-- A text stays a string on the wire. -/
def encodeContent (content : List ModelContentPart) : Option ChatContent :=
  if content.any (·.isFile) then none
  else if content.any (·.isImage) then
    if profile.imageInput then
      (content.mapM (encodePart fetch)).map fun parts => .parts parts.flatten
    else none
  else some (.text (content.flatMap plainText))

def encodeItem (item : ModelInputItem) : Option (List ChatMessage) :=
  match classifyItem item with
  | .mixed => none
  | .callsOnly =>
      if profile.functionTools then
        (item.content.mapM encodeCall).map fun calls =>
          [{ role := .assistant, content := .null, toolCalls := calls }]
      else none
  | .resultsOnly => if profile.functionTools then item.content.mapM encodeResult else none
  | .ordinary =>
      match chatRole item.role, encodeContent profile fetch item.content with
      | some role, some content => some [{ role := role, content := content }]
      | _, _ => none

def chatMessages (input : List ModelInputItem) : Option (List ChatMessage) :=
  if input.any fun item => item.content.any (·.isThinking) then none
  else (input.mapM (encodeItem profile fetch)).map List.flatten

end Mapper

inductive Block
  | text (text : Bytes)
  | image (mediaType data : Bytes)
  | toolUse (id name : Bytes) (input : JsonValue)
  | toolResult (id content : Bytes) (isError : Bool)
  | thinking (text signature : Bytes)
  | redactedThinking (data : Bytes)
  | validatedImage

def Block.isText : Block → Bool
  | text _ => true
  | _ => false

def Block.isImage : Block → Bool
  | image .. => true
  | _ => false

inductive WireRole
  | user | assistant
  deriving DecidableEq

structure WireMessage where
  role : WireRole
  content : List Block

structure Wire where
  system : List Block := []
  messages : List WireMessage := []

/-- The items for common validation, the blocks of the assistant turns, and whether the last
item belongs to one. -/
structure AssistantSplit where
  translated : List ModelInputItem := []
  groups : List (List Block) := []
  lastAssistant : Bool := false

def maxThinkingBytes : Nat := 4 * 1024 * 1024

/-- The block that stands in the replay for a part; an image is put in when it is validated. -/
def replayBlock : ModelContentPart → Option Block
  | .thinking text signature redacted =>
      if maxThinkingBytes < text.length ∨ maxThinkingBytes < signature.length ∨
          (redacted ∧ signature ≠ []) then none
      else some (if redacted then .redactedThinking text else .thinking text signature)
  | .text text => some (.text text)
  | .toolCall call => some (.toolUse call.providerCallId call.wireName call.arguments)
  | .image .. => some .validatedImage
  | _ => none

/-- More blocks for the last group. -/
def pushLast {α : Type} (more : List α) (groups : List (List α)) : List (List α) :=
  groups.dropLast ++ [groups.getLastD [] ++ more]

/-- What goes to the common encoder for an item; an assistant item of thinking alone keeps its
position. -/
def pieces (item : ModelInputItem) : List ModelInputItem :=
  if item.role = .assistant then
    ((item.content.filter fun part => !part.isThinking).map fun part => ⟨item.role, [part]⟩) ++
      if !item.content.isEmpty && item.content.all (·.isThinking) then
        [⟨item.role, [.text []]⟩]
      else []
  else [item]

def splitItem (state : AssistantSplit) (item : ModelInputItem) : Option AssistantSplit :=
  if item.role = .assistant then
    (item.content.mapM replayBlock).map fun blocks =>
      { translated := state.translated ++ pieces item
        groups := pushLast blocks
          (if state.lastAssistant then state.groups else state.groups ++ [[]])
        lastAssistant := true }
  else if item.content.any (·.isThinking) then none
  else
    some { state with
      translated := state.translated ++ pieces item
      lastAssistant := if item.isSystem then state.lastAssistant else false }

/-- The text before the first delimiter and the text after it. -/
def cutDelimiter : Bytes → Option (Bytes × Bytes)
  | [] => none
  | c :: rest =>
      if delimiter.isPrefixOf (c :: rest) then some ([], (c :: rest).drop delimiter.length)
      else (cutDelimiter rest).map fun cut => (c :: cut.1, cut.2)

def partBlock : ChatPart → Option Block
  | .text text => some (.text text)
  | .imageUrl url => (cutDelimiter url).map fun cut => .image (cut.1.drop 5) cut.2

/-- The content of a tool message says that the tool failed. -/
def reportsError (content : Bytes) : Bool :=
  match parseJson content with
  | .ok output => (output.find (ascii "status")).bind (·.asString) = some (ascii "error")
  | .error _ => false

def contentBlocks (message : ChatMessage) : Option (List Block) :=
  match message.role, message.content with
  | .tool, .text text => some [.toolResult message.toolCallId text (reportsError text)]
  | _, .null => some []
  | _, .text text => some (if text.isEmpty then [] else [.text text])
  | _, .parts parts => parts.mapM partBlock

def callBlock (call : ChatCall) : Option Block :=
  match parseJson call.arguments with
  | .ok arguments =>
      if arguments.isObject then some (.toolUse call.id call.name arguments) else none
  | .error _ => none

def messageBlocks (message : ChatMessage) : Option (List Block) :=
  match contentBlocks message, message.toolCalls.mapM callBlock with
  | some content, some calls => some (content ++ calls)
  | _, _ => none

def mergeMessage (role : WireRole) (blocks : List Block) (messages : List WireMessage) :
    List WireMessage :=
  match messages.getLast? with
  | some last =>
      if last.role = role then messages.dropLast ++ [⟨role, last.content ++ blocks⟩]
      else messages ++ [⟨role, blocks⟩]
  | none => [⟨role, blocks⟩]

def placeMessage (wire : Wire) (message : ChatMessage) : Option Wire :=
  match messageBlocks message with
  | none => none
  | some blocks =>
      if message.role = .system ∨ message.role = .developer then
        if blocks.all (·.isText) then some { wire with system := wire.system ++ blocks } else none
      else
        some { wire with
          messages := mergeMessage (if message.role = .assistant then .assistant else .user)
            blocks wire.messages }

def fillImages : List Block → List Block → Option (List Block)
  | [], _ => some []
  | .validatedImage :: rest, validated =>
      match validated.dropWhile fun block => !block.isImage with
      | [] => none
      | image :: after => (fillImages rest after).map (image :: ·)
  | block :: rest, validated => (fillImages rest validated).map (block :: ·)

def replayGroups : List WireMessage → List (List Block) → Option (List WireMessage)
  | [], _ => some []
  | message :: rest, groups =>
      if message.role = .assistant then
        match groups with
        | [] => none
        | group :: later =>
            match fillImages group message.content, replayGroups rest later with
            | some blocks, some tail => some (⟨.assistant, blocks⟩ :: tail)
            | _, _ => none
      else (replayGroups rest groups).map (message :: ·)

def plainDetail : ModelContentPart → Bool
  | .image _ detail => detail = .auto
  | _ => true

/-- `AnthropicMessagesV1Mapper::encode_request`. -/
def encodeRequest (request : ModelRequest) (profile : ModelProfile) (stream : Bool)
    (fetch : ArtifactRef → Option Bytes) : Option Wire :=
  if messagesRefuses request.options profile ||
      !request.input.all fun item => item.content.all plainDetail then none
  else do
    let split ← request.input.foldlM splitItem {}
    if chatRefuses request.options profile stream then none
    else do
      let messages ← chatMessages profile fetch split.translated
      let wire ← messages.foldlM placeMessage {}
      let replayed ← replayGroups wire.messages split.groups
      return { wire with messages := replayed }

end Mira.Model
