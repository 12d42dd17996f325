import Mira.Digest.Sha256
import Mira.Json.Parser
import Mira.Model.Schema

/-!
Canonical responses: what the decoder of a dialect makes of an answer of its provider.
-/

namespace Mira.Model
open Mira Bytes

structure ModelRequestId where
  value : Id128

structure ToolId where
  value : Id128 := .nil
  deriving DecidableEq

structure SemanticVersion where
  major : Nat := 0
  minor : Nat := 0
  patch : Nat := 0
  deriving DecidableEq

structure ExposedToolSpec where
  toolId : ToolId
  wireName : Bytes

structure ToolCallOutput where
  providerCallId : Bytes
  toolId : ToolId := {}
  providerName : Bytes
  arguments : JsonValue
  argumentsDigest : Sha256Digest

/-- An item of the output; a message of the assistant is the texts of its parts. -/
inductive ModelOutputItem
  | message (texts : List Bytes)
  | toolCall (call : ToolCallOutput)
  | refusal (safeSummary : Bytes)
  | thinking (text signature : Bytes) (redacted : Bool)

end Mira.Model
