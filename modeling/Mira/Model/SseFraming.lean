import Mira.Events.LogWire
import Mira.Model.Contracts

/-!
The framing of server-sent events. Chunks of bytes are appended to a buffer, complete lines are cut
off its front, and fields are collected until an empty line dispatches them as a message. A
carriage return at the end of the buffer waits for what follows it. Of the parsers over the
framing, that of chat completions is written out.
-/

namespace Mira.Model
open Mira Bytes

structure SseMessage where
  event : Bytes
  data : Bytes
  id : Option Bytes
  retryMs : Option Int
  deriving DecidableEq

structure SseFramingLimits where
  maxLineBytes : Nat := 16 * 1024
  maxEventDataBytes : Nat := 1024 * 1024
  maxEvents : Nat := 20000
  maxTotalBytes : Nat := 32 * 1024 * 1024
  deriving DecidableEq

/-- The fields of a message that is not dispatched yet, and how many were. -/
structure SsePending where
  event : Bytes := []
  data : Bytes := []
  id : Option Bytes := none
  retryMs : Option Int := none
  dispatched : Nat := 0
  deriving DecidableEq

structure SseFramingParser where
  limits : SseFramingLimits := {}
  buffer : Bytes := []
  pending : SsePending := {}
  bytesFed : Nat := 0
  deriving DecidableEq

def sseTooLarge (message : String) : ModelError :=
  makeModelError .responseTooLarge (ascii message)

def isLineEnd (c : UInt8) : Bool := c = 10 || c = 13

def nextLine (buffer : Bytes) : Option (Bytes × Bytes) :=
  let content := buffer.takeWhile fun c => !isLineEnd c
  match buffer.dropWhile fun c => !isLineEnd c with
  | [] => none
  | [13] => none
  | 13 :: 10 :: rest => some (content ++ [13, 10], rest)
  | ending :: rest => some (content ++ [ending], rest)

def dropLast (ending : UInt8) (line : Bytes) : Bytes :=
  if line.getLast? = some ending then line.dropLast else line

def lineContent (line : Bytes) : Bytes := dropLast 13 (dropLast 10 line)

/-- The name of a field and its value, without one leading space. -/
def splitField (content : Bytes) : Bytes × Bytes :=
  let name := content.takeWhile fun c => c ≠ 58
  let value := (content.drop name.length).drop 1
  (name, if value.head? = some 32 then value.drop 1 else value)

/-- `std::stoll`, of the number at the beginning of a text. -/
def stoll (text : Bytes) : Option Int :=
  let skipped := text.dropWhile Events.LogWire.isSpace
  let negative := skipped.head? = some 45
  let unsigned := if negative ∨ skipped.head? = some 43 then skipped.drop 1 else skipped
  let digits := unsigned.takeWhile isDigit
  let value : Int := if negative then -(decimalValue digits : Int) else decimalValue digits
  if digits = [] ∨ value < -2 ^ 63 ∨ 2 ^ 63 ≤ value then none else some value

/-- The fields are dispatched unless they are empty; the id that is moved out of stays there, with
nothing in it. -/
def dispatch (pending : SsePending) : SsePending × List SseMessage :=
  if pending.event = [] ∧ pending.data = [] then (pending, [])
  else
    ({ id := pending.id.map fun _ => []
       dispatched := pending.dispatched + 1 },
      [⟨pending.event, pending.data, pending.id, pending.retryMs⟩])

def takeField (limits : SseFramingLimits) (pending : SsePending) (name value : Bytes) :
    ModelResult SsePending :=
  if name = ascii "event" then .ok { pending with event := value }
  else if name = ascii "data" then
    let joined := if pending.data = [] then [] else pending.data ++ [10]
    if limits.maxEventDataBytes < joined.length + value.length then
      .error (sseTooLarge "sse event data exceeded the byte limit")
    else .ok { pending with data := joined ++ value }
  else if name = ascii "id" then
    .ok (if 0 ∈ value then pending else { pending with id := some value })
  else if name = ascii "retry" then
    .ok { pending with retryMs := (stoll value).orElse fun _ => pending.retryMs }
  else .ok pending

def processLine (limits : SseFramingLimits) (pending : SsePending) (line : Bytes) :
    ModelResult (SsePending × List SseMessage) :=
  let content := lineContent line
  if limits.maxLineBytes < content.length then
    .error (sseTooLarge "sse line exceeded the byte limit")
  else if content = [] then .ok (dispatch pending)
  else if content.head? = some 58 then .ok (pending, [])
  else
    (takeField limits pending (splitField content).1 (splitField content).2).map
      fun pending => (pending, [])

/-- What has been collected of a chunk: the fields and the messages. -/
abbrev SseCollected := SsePending × List SseMessage

/-- A round over the buffer: a line is processed, or there is none. -/
def lineRound (limits : SseFramingLimits) :
    Scan.Body SseCollected SseCollected ModelError UInt8 :=
  fun collected buffer =>
    match nextLine buffer with
    | none => .ok (.done collected buffer)
    | some (line, rest) =>
        match processLine limits collected.1 line with
        | .error error => .error error
        | .ok (pending, produced) =>
            if limits.maxEvents < pending.dispatched then
              .error (sseTooLarge "sse stream exceeded the event limit")
            else .ok (.again (pending, collected.2 ++ produced) rest)

namespace SseFramingParser

def processLineBuffer (parser : SseFramingParser) :
    ModelResult (SseFramingParser × List SseMessage) :=
  match Scan.loop (sseTooLarge "sse loop exhausted") (lineRound parser.limits)
      (parser.buffer.length + 1) (parser.pending, []) parser.buffer with
  | .error error => .error error
  | .ok ((pending, messages), rest) =>
      .ok ({ parser with pending := pending, buffer := rest }, messages)

def feed (parser : SseFramingParser) (chunk : Bytes) :
    ModelResult (SseFramingParser × List SseMessage) :=
  if parser.limits.maxTotalBytes < parser.bytesFed + chunk.length then
    .error (sseTooLarge "sse stream exceeded the byte limit")
  else
    processLineBuffer
      { parser with
        bytesFed := parser.bytesFed + chunk.length
        buffer := parser.buffer ++ chunk }

/-- The end of the stream ends a last line and dispatches the fields. -/
def finish (parser : SseFramingParser) : ModelResult (SseFramingParser × List SseMessage) :=
  if parser.buffer = [] then
    let (pending, messages) := dispatch parser.pending
    .ok ({ parser with pending := pending }, messages)
  else
    match processLine parser.limits parser.pending parser.buffer with
    | .error error => .error error
    | .ok (pending, produced) =>
        let (pending, remaining) := dispatch pending
        .ok ({ parser with pending := pending, buffer := [] }, produced ++ remaining)

end SseFramingParser

/-- A parser of a dialect: what a message does to its state, and what it answers at the end. -/
structure SseDialect (σ ρ : Type) where
  reduce : σ → SseMessage → ModelResult σ
  respond : σ → ModelResult ρ

/-- The framing of a parser, the state of its dialect and the bytes that it counts. -/
structure SseParser (σ : Type) where
  framer : SseFramingParser := {}
  state : σ
  bytes : Nat := 0
  deriving DecidableEq

namespace SseDialect
variable {σ ρ : Type}

def reduceAll (dialect : SseDialect σ ρ) (state : σ) (messages : List SseMessage) :
    ModelResult σ :=
  messages.foldlM dialect.reduce state

def feed (dialect : SseDialect σ ρ) (parser : SseParser σ) (chunk : Bytes) :
    ModelResult (SseParser σ) :=
  match parser.framer.feed chunk with
  | .error error => .error error
  | .ok (framer, messages) =>
      match dialect.reduceAll parser.state messages with
      | .error error => .error error
      | .ok state => .ok ⟨framer, state, framer.bytesFed⟩

def finish (dialect : SseDialect σ ρ) (parser : SseParser σ) : ModelResult (SseParser σ × ρ) :=
  match parser.framer.finish with
  | .error error => .error error
  | .ok (framer, messages) =>
      match dialect.reduceAll parser.state messages with
      | .error error => .error error
      | .ok state =>
          match dialect.respond state with
          | .error error => .error error
          | .ok response => .ok (⟨framer, state, parser.bytes⟩, response)

/-- Chunks are fed until one is refused; then the stream ends. -/
def feedAll (dialect : SseDialect σ ρ) (parser : SseParser σ) (chunks : List Bytes) :
    ModelResult (SseParser σ) :=
  chunks.foldlM dialect.feed parser

def stream (dialect : SseDialect σ ρ) (parser : SseParser σ) (chunks : List Bytes) :
    ModelResult (SseParser σ × ρ) :=
  match dialect.feedAll parser chunks with
  | .error error => .error error
  | .ok parser => dialect.finish parser

end SseDialect

structure SseStreamLimits where
  maxOpenOutputItems : Nat := 64
  maxAccumulatedTextBytes : Nat := 4 * 1024 * 1024
  maxArgumentsBufferBytes : Nat := 1024 * 1024

structure ToolFragments where
  id : Bytes := []
  name : Bytes := []
  arguments : Bytes := []
  deriving DecidableEq

/-- What the chunks of a chat completion have said so far; the tools in the order of their
indices. -/
structure ChatCompletionsSseParser where
  events : Nat := 0
  textDeltas : Nat := 0
  terminalSeen : Bool := false
  id : Bytes := []
  model : Bytes := []
  text : Bytes := []
  refusal : Bytes := []
  reasoning : Bytes := []
  finishReason : Bytes := []
  tools : List (Nat × ToolFragments) := []
  argumentBytes : Nat := 0
  usage : Option JsonValue := none
  deriving DecidableEq

namespace ChatCompletionsSseParser

def invalid {α : Type} (message : String) : ModelResult α :=
  .error (makeModelError .protocolViolation (ascii message))

def ensure (condition : Prop) [Decidable condition] (message : String) : ModelResult Unit :=
  if condition then .ok () else invalid message

/-- A member that is present and not null. -/
def given (key : String) (value : JsonValue) : Option JsonValue :=
  (value.find (ascii key)).filter fun member => !member.isNull

def append (held : Bytes) (key : String) (value : JsonValue) (limit : Nat) : Option Bytes :=
  match given key value with
  | none => some held
  | some part =>
      (part.asString.filter fun text => held.length + text.length ≤ limit).map (held ++ ·)

def takeIdentity (held : Bytes) (key : String) (body : JsonValue) : ModelResult Bytes :=
  match body.find (ascii key) with
  | none => .ok held
  | some value => do
      let text := value.asString.getD []
      ensure (text ≠ [] ∧ text.length ≤ 1024) "chat SSE invalid response identity"
      ensure (held = [] ∨ held = text) "chat SSE response identity changed"
      return text

def checkCounter (held : Option JsonValue) (usage : JsonValue) (key : String) :
    ModelResult Unit :=
  match usage.find (ascii key) with
  | none => .ok ()
  | some count => do
      let number := count.asInteger.getD (-1)
      ensure (0 ≤ number) "chat SSE invalid usage counter"
      let previous := (held.bind (·.find (ascii key))).bind JsonValue.asInteger
      ensure (previous.all (· ≤ number)) "chat SSE usage counter decreased"

/-- The counters are cumulative: the last ones given replace those before. -/
def takeUsage (held : Option JsonValue) (body : JsonValue) : ModelResult (Option JsonValue) :=
  match given "usage" body with
  | none => .ok held
  | some usage => do
      ensure usage.isObject "chat SSE malformed usage"
      ["prompt_tokens", "completion_tokens", "total_tokens"].forM (checkCounter held usage)
      return some usage

def insertTool (index : Nat) (tool : ToolFragments) :
    List (Nat × ToolFragments) → List (Nat × ToolFragments)
  | [] => [(index, tool)]
  | entry :: rest =>
      if index < entry.1 then (index, tool) :: entry :: rest
      else if index = entry.1 then (index, tool) :: rest
      else entry :: insertTool index tool rest

def takeCall (limits : SseStreamLimits) (parser : ChatCompletionsSseParser) (call : JsonValue) :
    ModelResult ChatCompletionsSseParser := do
  let number := ((call.find (ascii "index")).bind JsonValue.asInteger).getD (-1)
  ensure (0 ≤ number ∧ number < limits.maxOpenOutputItems) "chat SSE tool index exceeds budget"
  let index := number.toNat
  let tool := ((parser.tools.find? (·.1 = index)).map Prod.snd).getD {}
  let id := ((given "id" call).map fun id => id.asString.getD []).getD tool.id
  ensure ((given "id" call).isNone ∨ id ≠ [] ∧ id.length ≤ 1024 ∧ (tool.id = [] ∨ tool.id = id))
    "chat SSE tool identity changed"
  ensure ((given "type" call).all (·.asString = some (ascii "function")))
    "chat SSE unsupported tool type"
  let function := (call.find (ascii "function")).getD (.object [])
  ensure function.isObject "chat SSE invalid tool name"
  let some name := append tool.name "name" function 1024 | invalid "chat SSE invalid tool name"
  let budget := tool.arguments.length + limits.maxArgumentsBufferBytes - parser.argumentBytes
  let some arguments := append tool.arguments "arguments" function budget
    | invalid "chat SSE tool arguments exceed budget"
  return { parser with
    tools := insertTool index ⟨id, name, arguments⟩ parser.tools
    argumentBytes := parser.argumentBytes + (arguments.length - tool.arguments.length) }

def finishReasons : List Bytes :=
  [ascii "stop", ascii "tool_calls", ascii "length", ascii "content_filter"]

def takeChoice (limits : SseStreamLimits) (parser : ChatCompletionsSseParser)
    (choice : JsonValue) : ModelResult ChatCompletionsSseParser := do
  ensure ((choice.find (ascii "index")).bind JsonValue.asInteger = some 0)
    "chat SSE choice index must be zero"
  let delta := (choice.find (ascii "delta")).getD .null
  ensure delta.isObject "chat SSE choice has no delta object"
  ensure ((delta.find (ascii "role")).all (·.asString = some (ascii "assistant")))
    "chat SSE delta role must be assistant"
  let part (held : Bytes) (key : String) : ModelResult Bytes :=
    match append held key delta limits.maxAccumulatedTextBytes with
    | none => invalid "chat SSE text exceeds budget or has invalid type"
    | some grown => .ok grown
  let text ← part parser.text "content"
  let refusal ← part parser.refusal "refusal"
  let reasoning ← part parser.reasoning "reasoning_content"
  let deltas := if parser.text.length < text.length then 1 else 0
  let parser := { parser with
    text := text
    refusal := refusal
    reasoning := reasoning
    textDeltas := parser.textDeltas + deltas }
  let some calls := ((given "tool_calls" delta).getD (.array [])).asArray
    | invalid "chat SSE tool calls must be an array"
  let parser ← calls.foldlM (takeCall limits) parser
  match given "finish_reason" choice with
  | none => return parser
  | some finish =>
      let some reason := finish.asString | invalid "chat SSE invalid finish reason"
      ensure (finishReasons.contains reason) "chat SSE unknown finish reason"
      return { parser with finishReason := reason }

def reduce (limits : SseStreamLimits) (parser : ChatCompletionsSseParser)
    (message : SseMessage) : ModelResult ChatCompletionsSseParser := do
  ensure (parser.terminalSeen = false) "chat SSE event after terminal"
  let parser := { parser with events := parser.events + 1 }
  if message.data = ascii "[DONE]" then
    ensure (parser.finishReason ≠ []) "chat SSE terminal before finish reason"
    return { parser with terminalSeen := true }
  let body := (parseJson message.data).toOption.getD .null
  ensure body.isObject "chat SSE chunk is not a JSON object"
  ensure (body.find (ascii "error") = none) "chat SSE provider error"
  let id ← takeIdentity parser.id "id" body
  let model ← takeIdentity parser.model "model" body
  let usage ← takeUsage parser.usage body
  let parser := { parser with id := id, model := model, usage := usage }
  match (body.find (ascii "choices")).bind JsonValue.asArray with
  | some [] =>
      ensure (parser.finishReason ≠ [] ∧ usage.isSome)
        "chat SSE empty choices before usage terminal"
      return parser
  | some [choice] =>
      ensure (parser.finishReason = []) "chat SSE choice after finish reason"
      takeChoice limits parser choice
  | _ => invalid "chat SSE requires one choice"

/-- The end of the stream; what the mapper of the dialect makes of the completion is a
parameter. -/
def finish {ρ : Type} (decode : ChatCompletionsSseParser → ModelResult ρ)
    (parser : ChatCompletionsSseParser) : ModelResult ρ := do
  if parser.terminalSeen = false then
    .error (makeModelError .ambiguousCompletion (ascii "chat SSE stream ended without [DONE]"))
  ensure (parser.tools.all fun tool => tool.2.id ≠ [] ∧ tool.2.name ≠ [])
    "chat SSE incomplete tool identity"
  decode parser

def dialect {ρ : Type} (limits : SseStreamLimits)
    (decode : ChatCompletionsSseParser → ModelResult ρ) : SseDialect ChatCompletionsSseParser ρ :=
  ⟨reduce limits, finish decode⟩

end ChatCompletionsSseParser

variable {buffer : Bytes} {p : UInt8 → Bool} (more : Bytes)

theorem takeWhile_append_of_ended (ended : buffer.dropWhile p ≠ []) :
    (buffer ++ more).takeWhile p = buffer.takeWhile p := by
  rw [List.takeWhile_append, if_neg]
  intro whole
  have lengths := congrArg List.length (List.takeWhile_append_dropWhile (p := p) (l := buffer))
  rw [List.length_append, whole] at lengths
  exact ended (List.eq_nil_of_length_eq_zero (by omega))

theorem dropWhile_append_of_ended (ended : buffer.dropWhile p ≠ []) :
    (buffer ++ more).dropWhile p = buffer.dropWhile p ++ more := by
  rw [List.dropWhile_append, if_neg]
  simpa [List.isEmpty_iff] using ended

variable {line rest : Bytes}

theorem nextLine_append (cut : nextLine buffer = some (line, rest)) :
    nextLine (buffer ++ more) = some (line, rest ++ more) := by
  rw [nextLine] at cut ⊢
  have ended : buffer.dropWhile (fun c => !isLineEnd c) ≠ [] := by
    intro none
    rw [none] at cut
    cases cut
  rw [takeWhile_append_of_ended more ended, dropWhile_append_of_ended more ended]
  generalize buffer.dropWhile (fun c => !isLineEnd c) = tail at cut ended
  split at cut
  · cases cut
  · cases cut
  · cases cut
    rfl
  · next ending _ alone pair =>
      cases cut
      split
      · next same => cases same
      · next same =>
          simp only [List.cons_append, List.cons.injEq, List.append_eq_nil_iff] at same
          exact absurd same.2.1 (alone same.1)
      · next following same =>
          simp only [List.cons_append, List.cons.injEq] at same
          cases rest with
          | nil => exact absurd rfl (alone same.1)
          | cons second later =>
              simp only [List.cons_append, List.cons.injEq] at same
              exact absurd (congrArg (· :: later) same.2.1) (pair later same.1)
      · next same =>
          cases same
          rfl

theorem nextLine_shorter (cut : nextLine buffer = some (line, rest)) :
    rest.length < buffer.length := by
  rw [nextLine] at cut
  have whole : (buffer.dropWhile fun c => !isLineEnd c).length ≤ buffer.length :=
    (List.dropWhile_suffix _).length_le
  split at cut
  · cases cut
  · cases cut
  · next tail =>
      cases cut
      rw [tail] at whole
      simp only [List.length_cons] at whole
      omega
  · next tail =>
      cases cut
      rw [tail] at whole
      simp only [List.length_cons] at whole
      omega

theorem lineRound_resumable (limits : SseFramingLimits) : Scan.Resumable (lineRound limits) := by
  refine ⟨?_, ?_, ?_, ?_⟩
  · intro collected buffer next rest round
    rw [lineRound] at round
    split at round
    · cases round
    · next line after cut =>
        split at round
        · cases round
        · split at round
          · cases round
          · cases round
            exact nextLine_shorter cut
  · intro collected buffer next rest more round
    rw [lineRound] at round ⊢
    split at round
    · cases round
    · next line after cut =>
        rw [nextLine_append more cut]
        split at round
        · cases round
        · next processed =>
            simp only [processed]
            split at round
            · cases round
            · next few =>
                rw [if_neg few]
                cases round
                rfl
  · intro collected buffer error more round
    rw [lineRound] at round ⊢
    split at round
    · cases round
    · next line after cut =>
        rw [nextLine_append more cut]
        split at round
        · next refused =>
            exact ⟨_, by simp only [refused]; rfl⟩
        · next processed =>
            split at round
            · next many =>
                exact ⟨_, by simp only [processed, if_pos many]; rfl⟩
            · cases round
  · intro collected buffer result rest round
    rw [lineRound] at round
    split at round
    · cases round
      exact ⟨rfl, rfl⟩
    · split at round
      · cases round
      · split at round
        · cases round
        · cases round

section
variable {limits : SseFramingLimits}

/-- The lines of a buffer give these fields and messages, and leave a rest. -/
def Frames (limits : SseFramingLimits) (pending : SsePending) (buffer : Bytes)
    (after : SsePending) (messages : List SseMessage) (rest : Bytes) : Prop :=
  Scan.Accepts (lineRound limits) (pending, []) buffer (after, messages) rest

variable {buffer rest : Bytes}

theorem accepts_collected {collected result : SseCollected}
    (run : Scan.Accepts (lineRound limits) collected buffer result rest) (earlier : List SseMessage) :
    ∃ produced, result.2 = collected.2 ++ produced ∧
      Scan.Accepts (lineRound limits) (collected.1, earlier) buffer
        (result.1, earlier ++ produced) rest := by
  induction run generalizing earlier with
  | done finished =>
      obtain ⟨rfl, rfl⟩ := (lineRound_resumable limits).stops _ _ _ _ finished
      refine ⟨[], (List.append_nil _).symm, ?_⟩
      rw [List.append_nil]
      refine .done ?_
      rw [lineRound] at finished ⊢
      split at finished
      · rfl
      · split at finished
        · cases finished
        · split at finished
          · cases finished
          · cases finished
  | again round _ ih =>
      rw [lineRound] at round
      split at round
      · cases round
      · next line after cut =>
          split at round
          · cases round
          · next pending produced processed =>
              split at round
              · cases round
              · next few =>
                  cases round
                  obtain ⟨later, whole, run⟩ := ih (earlier ++ produced)
                  refine ⟨produced ++ later, by rw [whole, List.append_assoc], ?_⟩
                  rw [← List.append_assoc]
                  refine .again ?_ run
                  rw [lineRound, cut]
                  simp only [processed, if_neg few]

variable {pending after : SsePending} {messages : List SseMessage}

theorem frames_append {more : Bytes} :
    Frames limits pending (buffer ++ more) after messages rest ↔
      ∃ middle first left second, Frames limits pending buffer middle first left ∧
        Frames limits middle (left ++ more) after second rest ∧ messages = first ++ second := by
  rw [Frames, (lineRound_resumable limits).accepts_append]
  constructor
  · intro parts
    obtain ⟨⟨middle, first⟩, left, run, later⟩ := parts
    obtain ⟨second, whole, again⟩ := accepts_collected later []
    exact ⟨middle, first, left, second, run, again, whole⟩
  · intro parts
    obtain ⟨middle, first, left, second, run, later, rfl⟩ := parts
    obtain ⟨produced, whole, again⟩ := accepts_collected later first
    rw [List.nil_append] at whole
    rw [← show second = produced from whole] at again
    exact ⟨(middle, first), left, run, again⟩

theorem frames_rest (frames : Frames limits pending buffer after messages rest) :
    nextLine rest = none := by
  have ends (collected result : SseCollected) (buffer rest : Bytes)
      (run : Scan.Accepts (lineRound limits) collected buffer result rest) :
      nextLine rest = none := by
    induction run with
    | done finished =>
        obtain ⟨_, rfl⟩ := (lineRound_resumable limits).stops _ _ _ _ finished
        rw [lineRound] at finished
        split at finished
        · next none => exact none
        · split at finished
          · cases finished
          · split at finished
            · cases finished
            · cases finished
    | again _ _ ih => exact ih
  exact ends _ _ _ _ frames

theorem frames_idle (open_ : nextLine buffer = none) :
    Frames limits pending buffer after messages rest ↔
      after = pending ∧ messages = [] ∧ rest = buffer := by
  have stops : lineRound limits (pending, []) buffer = .ok (.done (pending, []) buffer) := by
    rw [lineRound, open_]
  constructor
  · intro frames
    cases frames with
    | done finished =>
        rw [stops] at finished
        cases finished
        exact ⟨rfl, rfl, rfl⟩
    | again round _ =>
        rw [stops] at round
        cases round
  · intro same
    obtain ⟨rfl, rfl, rfl⟩ := same
    exact .done stops

theorem framer_feed_ok {parser next : SseFramingParser} {chunk : Bytes} :
    parser.feed chunk = .ok (next, messages) ↔
      parser.bytesFed + chunk.length ≤ parser.limits.maxTotalBytes ∧
        ∃ after rest,
          Frames parser.limits parser.pending (parser.buffer ++ chunk) after messages rest ∧
            next = ⟨parser.limits, rest, after, parser.bytesFed + chunk.length⟩ := by
  rw [SseFramingParser.feed]
  split
  · next full =>
      refine ⟨fun refused => (by cases refused), fun fed => absurd full (Nat.not_lt.mpr fed.1)⟩
  · next fits =>
      rw [SseFramingParser.processLineBuffer]
      have loops (after : SsePending) (rest : Bytes) (messages : List SseMessage) :
          Scan.loop (sseTooLarge "sse loop exhausted") (lineRound parser.limits)
              ((parser.buffer ++ chunk).length + 1) (parser.pending, [])
              (parser.buffer ++ chunk) = .ok ((after, messages), rest) ↔
            Frames parser.limits parser.pending (parser.buffer ++ chunk) after messages rest :=
        (lineRound_resumable parser.limits).loop_iff _
      dsimp only
      constructor
      · intro done
        refine ⟨Nat.not_lt.mp fits, ?_⟩
        split at done
        · cases done
        · next after produced rest looped =>
            cases done
            exact ⟨after, rest, (loops _ _ _).mp looped, rfl⟩
      · intro fed
        obtain ⟨_, after, rest, frames, rfl⟩ := fed
        rw [(loops after rest messages).mpr frames]

end

section
variable {σ ρ : Type} {dialect : SseDialect σ ρ}

theorem reduceAll_append {state after : σ} {first second : List SseMessage} :
    dialect.reduceAll state (first ++ second) = .ok after ↔
      ∃ middle, dialect.reduceAll state first = .ok middle ∧
        dialect.reduceAll middle second = .ok after := by
  rw [SseDialect.reduceAll, List.foldlM_append, SseDialect.reduceAll]
  cases first.foldlM dialect.reduce state with
  | error error =>
      refine ⟨fun refused => (by cases refused), fun both => ?_⟩
      obtain ⟨_, refused, _⟩ := both
      cases refused
  | ok middle =>
      refine ⟨fun done => ⟨middle, rfl, done⟩, fun both => ?_⟩
      obtain ⟨_, same, done⟩ := both
      cases same
      exact done

/-- A parser after it was fed a text. -/
def Fed (dialect : SseDialect σ ρ) (parser : SseParser σ) (text : Bytes) (next : SseParser σ) :
    Prop :=
  parser.framer.bytesFed + text.length ≤ parser.framer.limits.maxTotalBytes ∧
    ∃ after messages rest state,
      Frames parser.framer.limits parser.framer.pending (parser.framer.buffer ++ text) after
          messages rest ∧
        dialect.reduceAll parser.state messages = .ok state ∧
        next = ⟨⟨parser.framer.limits, rest, after, parser.framer.bytesFed + text.length⟩, state,
          parser.framer.bytesFed + text.length⟩

variable {parser next : SseParser σ}

theorem feed_ok {chunk : Bytes} :
    dialect.feed parser chunk = .ok next ↔ Fed dialect parser chunk next := by
  rw [SseDialect.feed]
  constructor
  · intro done
    split at done
    · cases done
    · next framer messages framed =>
        split at done
        · cases done
        · next state reduced =>
            cases done
            obtain ⟨fits, after, rest, frames, rfl⟩ := framer_feed_ok.mp framed
            exact ⟨fits, after, messages, rest, state, frames, reduced, rfl⟩
  · intro fed
    obtain ⟨fits, after, messages, rest, state, frames, reduced, rfl⟩ := fed
    rw [framer_feed_ok.mpr ⟨fits, after, rest, frames, rfl⟩]
    simp only [reduced]

/-- Between chunks: the buffer holds no complete line and the bytes are counted. -/
structure Settled (parser : SseParser σ) : Prop where
  buffer : nextLine parser.framer.buffer = none
  bytes : parser.bytes = parser.framer.bytesFed
  fits : parser.framer.bytesFed ≤ parser.framer.limits.maxTotalBytes

theorem Fed.settled {text : Bytes} (fed : Fed dialect parser text next) : Settled next := by
  obtain ⟨fits, after, messages, rest, state, frames, reduced, rfl⟩ := fed
  exact ⟨frames_rest frames, rfl, fits⟩

theorem fed_nil (settled : Settled parser) : Fed dialect parser [] next ↔ next = parser := by
  obtain ⟨⟨limits, buffer, pending, bytesFed⟩, state, bytes⟩ := parser
  obtain ⟨open_, counted, fits⟩ := settled
  dsimp only at open_ counted fits
  simp only [Fed, List.append_nil, List.length_nil, Nat.add_zero, frames_idle open_]
  constructor
  · intro fed
    obtain ⟨_, _, _, _, _, ⟨rfl, rfl, rfl⟩, reduced, rfl⟩ := fed
    cases reduced
    rw [counted]
  · intro same
    exact ⟨fits, pending, [], buffer, state, ⟨rfl, rfl, rfl⟩, rfl, by rw [same, counted]⟩

theorem fed_append {first second : Bytes} :
    Fed dialect parser (first ++ second) next ↔
      ∃ middle, Fed dialect parser first middle ∧ Fed dialect middle second next := by
  constructor
  · intro fed
    obtain ⟨fits, after, messages, rest, state, frames, reduced, rfl⟩ := fed
    rw [← List.append_assoc] at frames
    obtain ⟨middle, early, left, late, run, later, rfl⟩ := frames_append.mp frames
    obtain ⟨between, reducedEarly, reducedLate⟩ := reduceAll_append.mp reduced
    rw [List.length_append] at fits
    refine ⟨_, ⟨by omega, middle, early, left, between, run, reducedEarly, rfl⟩, by
      dsimp only
      omega, after, late, rest, state, later, reducedLate, ?_⟩
    rw [List.length_append, Nat.add_assoc]
  · intro parts
    obtain ⟨_, ⟨_, middle, early, left, between, run, reducedEarly, rfl⟩, fits, after, late, rest,
      state, later, reducedLate, rfl⟩ := parts
    dsimp only at fits later reducedLate
    refine ⟨by rw [List.length_append]; omega, after, early ++ late, rest, state, ?_,
      reduceAll_append.mpr ⟨between, reducedEarly, reducedLate⟩, ?_⟩
    · rw [← List.append_assoc]
      exact frames_append.mpr ⟨middle, early, left, late, run, later, rfl⟩
    · rw [List.length_append, Nat.add_assoc]

theorem feedAll_ok (settled : Settled parser) (chunks : List Bytes) :
    dialect.feedAll parser chunks = .ok next ↔ Fed dialect parser chunks.flatten next := by
  induction chunks generalizing parser with
  | nil =>
      rw [List.flatten_nil, fed_nil settled]
      exact ⟨fun done => by cases done; rfl, fun same => by rw [same]; rfl⟩
  | cons chunk chunks ih =>
      rw [List.flatten_cons, fed_append, SseDialect.feedAll, List.foldlM_cons]
      constructor
      · intro done
        cases fed : dialect.feed parser chunk with
        | error error =>
            rw [fed] at done
            cases done
        | ok middle =>
            rw [fed] at done
            have here := feed_ok.mp fed
            exact ⟨middle, here, (ih here.settled).mp done⟩
      · intro parts
        obtain ⟨middle, here, later⟩ := parts
        rw [feed_ok.mpr here]
        exact (ih here.settled).mpr later

end

/-- However a stream is cut into chunks, a parser over it succeeds with the same state, the same
count of bytes and the same answer, or not at all. -/
theorem chunking_irrelevant {σ ρ : Type} (dialect : SseDialect σ ρ) (limits : SseFramingLimits)
    (start : σ) (first second : List Bytes) (same : first.flatten = second.flatten)
    (next : SseParser σ) (response : ρ) :
    dialect.stream ⟨{ limits := limits }, start, 0⟩ first = .ok (next, response) ↔
      dialect.stream ⟨{ limits := limits }, start, 0⟩ second = .ok (next, response) := by
  have settled : Settled (⟨{ limits := limits }, start, 0⟩ : SseParser σ) :=
    ⟨rfl, rfl, Nat.zero_le _⟩
  have whole (chunks : List Bytes) :
      dialect.stream ⟨{ limits := limits }, start, 0⟩ chunks = .ok (next, response) ↔
        ∃ fed, Fed dialect ⟨{ limits := limits }, start, 0⟩ chunks.flatten fed ∧
          dialect.finish fed = .ok (next, response) := by
    rw [SseDialect.stream]
    constructor
    · intro done
      split at done
      · cases done
      · next fed all => exact ⟨fed, (feedAll_ok settled chunks).mp all, done⟩
    · intro parts
      obtain ⟨fed, all, done⟩ := parts
      rw [(feedAll_ok settled chunks).mpr all]
      exact done
  rw [whole, whole, same]

/-- A completion whose one chunk ends in a carriage return and a line feed. -/
def greeting : Bytes :=
  ascii "data: \x7b\"choices\":[\x7b\"index\":0,\"delta\":\x7b\"content\":\"hi\"\x7d," ++
    ascii "\"finish_reason\":\"stop\"\x7d]\x7d" ++ [13, 10, 13, 10] ++ ascii "data: [DONE]"

def greeted : SseParser ChatCompletionsSseParser :=
  ⟨{ pending := { dispatched := 2 }, bytesFed := 95 },
    { events := 2, textDeltas := 1, terminalSeen := true, text := ascii "hi",
      finishReason := ascii "stop" }, 95⟩

def greetingDialect : SseDialect ChatCompletionsSseParser Bytes :=
  ChatCompletionsSseParser.dialect {} fun parser => .ok parser.text

/-- One cut is between the two bytes of a line end. -/
theorem cut_chunks_agree :
    greetingDialect.stream ⟨{}, {}, 0⟩ [greeting.take 80, greeting.drop 80] =
        .ok (greeted, ascii "hi") ∧
      greetingDialect.stream ⟨{}, {}, 0⟩ [greeting] = .ok (greeted, ascii "hi") := by
  have cut : greetingDialect.stream ⟨{}, {}, 0⟩ [greeting.take 80, greeting.drop 80] =
      .ok (greeted, ascii "hi") := by
    decide +kernel
  exact ⟨cut, (chunking_irrelevant greetingDialect {} {} [greeting.take 80, greeting.drop 80]
    [greeting] (by decide +kernel) greeted (ascii "hi")).mp cut⟩

end Mira.Model
