import Mira.Library.Bytes

/-!
The 128-bit identifiers of the core contracts and their text form. One tagged
type stands for the family of strong identifier types: the tag keeps a session
from being used as a task, exactly as the distinct C++ structs do.
-/

namespace Mira
open Bytes

/-- Sixteen bytes; the length is part of the value. -/
structure Id128 where
  bytes : Bytes
  size : bytes.length = 16
  deriving DecidableEq

namespace Id128

def nil : Id128 := ⟨List.replicate 16 0, rfl⟩

instance : Inhabited Id128 := ⟨nil⟩

def isNil (id : Id128) : Bool := id = nil

def toString (id : Id128) : Bytes := toHex id.bytes

/-- Thirty-two hexadecimal digits in either case, and nothing else. -/
def parse (text : Bytes) : Option Id128 :=
  if text.length ≠ 32 then none
  else
    match ofHex text with
    | some bytes => if h : bytes.length = 16 then some ⟨bytes, h⟩ else none
    | none => none

/-- Random bytes with the version and variant bits of a version 4 identifier. -/
def generate (entropy : Id128) : Id128 :=
  ⟨(entropy.bytes.modify 6 fun b => (b &&& 0x0f) ||| 0x40).modify 8 fun b =>
      (b &&& 0x3f) ||| 0x80, by simp [entropy.size]⟩

theorem parse_toString (id : Id128) : parse id.toString = some id := by
  have length : id.toString.length = 32 := by
    rw [toString, length_toHex, id.size]
  unfold parse
  rw [if_neg (by simp [length])]
  simp only [toString, ofHex_toHex, id.size, dite_true]

theorem toString_injective (a b : Id128) (h : a.toString = b.toString) : a = b := by
  have hp := congrArg parse h
  simpa only [parse_toString, Option.some.injEq] using hp

end Id128

inductive IdTag
  | runtime | session | task | command | step | operation | observation | action
  | event | checkpoint | tenant | user | controlIngress | artifact
  | workflow | workflowPatch | workflowDecision

structure StrongId (tag : IdTag) where
  value : Id128
  deriving DecidableEq, Inhabited

namespace StrongId
variable {tag : IdTag}

def isNil (id : StrongId tag) : Bool := id.value.isNil

def toString (id : StrongId tag) : Bytes := id.value.toString

def parse (text : Bytes) : Option (StrongId tag) := (Id128.parse text).map StrongId.mk

def generate (entropy : Id128) : StrongId tag := ⟨Id128.generate entropy⟩

/-- Shorthand for an identifier whose bytes are one repeated byte. -/
def filled (b : UInt8) : StrongId tag := ⟨⟨List.replicate 16 b, by simp⟩⟩

variable (id : StrongId tag)

theorem parse_toString : parse id.toString = some id := by
  simp [parse, toString, Id128.parse_toString]

theorem length_toString : id.toString.length = 32 := by
  rw [toString, Id128.toString, length_toHex, id.value.size]

theorem generate_not_nil (entropy : Id128) : (generate entropy : StrongId tag).isNil = false := by
  obtain ⟨bytes, size⟩ := entropy
  apply decide_eq_false
  intro h
  have hb := congrArg (fun id : Id128 => id.bytes[6]?) h
  have present : 6 < bytes.length := by omega
  simp only [generate, Id128.generate, Id128.nil, List.getElem?_modify, List.getElem?_eq_getElem present,
    List.getElem?_replicate] at hb
  simp at hb

end StrongId

abbrev RuntimeId := StrongId .runtime
abbrev SessionId := StrongId .session
abbrev TaskId := StrongId .task
abbrev StepId := StrongId .step
abbrev OperationId := StrongId .operation
abbrev ObservationId := StrongId .observation
abbrev ActionId := StrongId .action
abbrev EventId := StrongId .event
abbrev CheckpointId := StrongId .checkpoint
abbrev TenantId := StrongId .tenant
abbrev UserId := StrongId .user
abbrev ControlIngressId := StrongId .controlIngress
abbrev ArtifactId := StrongId .artifact
abbrev WorkflowId := StrongId .workflow
abbrev WorkflowPatchId := StrongId .workflowPatch
abbrev WorkflowDecisionId := StrongId .workflowDecision

end Mira
