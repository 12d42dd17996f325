import Mira.Json.Value
import Mira.Model.Contracts

/-!
The subset of JSON Schema that is verified locally: the gate that admits a schema and the
validator that holds an instance against it. The walks are bounded by the depth that is left. A
search of a pattern in a text is a parameter; it has no answer where the pattern is not valid.
-/

namespace Mira.Model
open Mira Bytes

/-- The binary64 that an integer is converted to. -/
def binary64OfInt (value : Int) : Rat :=
  if value = 0 then 0
  else
    let magnitude := (roundBinary64 value.natAbs).getD 0
    if value < 0 then -magnitude else magnitude

/-- The cast of a signed word to an unsigned one. -/
def wordOfInt (value : Int) : Nat := (value % wordLimit).toNat

end Mira.Model

namespace Mira.JsonValue
open Mira.Model

def isBoolean : JsonValue → Bool
  | boolean _ => true
  | _ => false

def isNumber : JsonValue → Bool
  | integer _ | number _ => true
  | _ => false

def asNumber : JsonValue → Option Rat
  | integer value => some (binary64OfInt value)
  | number value => some value
  | _ => none

end Mira.JsonValue

namespace Mira.Model
open Mira Bytes

structure SchemaSubsetLimits where
  maxDepth : Nat := 8
  maxProperties : Nat := 64
  maxEnumValues : Nat := 64
  maxPatternBytes : Nat := 256
  maxSchemaBytes : Nat := 64 * 1024

def defaultSchemaSubsetLimits : SchemaSubsetLimits := {}

inductive SchemaKeyword
  | type | properties | required | additionalProperties | enum | const | items | minItems
  | maxItems | minLength | maxLength | minimum | maximum | pattern | title | description
  | schemaDialect | default

namespace SchemaKeyword

def text : SchemaKeyword → Bytes
  | .type => ascii "type"
  | .properties => ascii "properties"
  | .required => ascii "required"
  | .additionalProperties => ascii "additionalProperties"
  | .enum => ascii "enum"
  | .const => ascii "const"
  | .items => ascii "items"
  | .minItems => ascii "minItems"
  | .maxItems => ascii "maxItems"
  | .minLength => ascii "minLength"
  | .maxLength => ascii "maxLength"
  | .minimum => ascii "minimum"
  | .maximum => ascii "maximum"
  | .pattern => ascii "pattern"
  | .title => ascii "title"
  | .description => ascii "description"
  | .schemaDialect => ascii "$schema"
  | .default => ascii "default"

def all : List SchemaKeyword :=
  [.type, .properties, .required, .additionalProperties, .enum, .const, .items, .minItems,
    .maxItems, .minLength, .maxLength, .minimum, .maximum, .pattern, .title, .description,
    .schemaDialect, .default]

def value (keyword : SchemaKeyword) (schema : JsonValue) : Option JsonValue :=
  schema.find keyword.text

end SchemaKeyword

def supportedKeyword (name : Bytes) : Bool :=
  SchemaKeyword.all.any fun keyword => keyword.text = name

structure JsonSchema where
  root : JsonValue

def JsonSchema.valid (schema : JsonSchema) : Bool := schema.root.isObject

def schemaError (message : Bytes) : ModelError :=
  { code := .invalidArgument, safeMessage := message }

/-- What the gate says of a node, its children aside. -/
def checkSchemaNode (limits : SchemaSubsetLimits) (node : JsonValue) : ModelResult Unit :=
  match node with
  | .object members =>
      match members.find? fun member => !supportedKeyword member.1 with
      | some member =>
          .error (schemaError (ascii "schema keyword is outside the M3 subset: " ++ member.1))
      | none =>
          if ((SchemaKeyword.properties.value node).bind JsonValue.asObject).any
              (limits.maxProperties < ·.length) then
            .error (schemaError (ascii "schema declares more properties than the subset allows"))
          else if ((SchemaKeyword.enum.value node).bind JsonValue.asArray).any
              (limits.maxEnumValues < ·.length) then
            .error (schemaError (ascii "schema enum exceeds the subset limit"))
          else if ((SchemaKeyword.pattern.value node).bind JsonValue.asString).any
              (limits.maxPatternBytes < ·.length) then
            .error (schemaError (ascii "schema pattern exceeds the subset limit"))
          else if (SchemaKeyword.type.value node).any fun type =>
              !type.isString && !type.isArray then
            .error (schemaError (ascii "schema type must be a string or array of strings"))
          else if (SchemaKeyword.required.value node).any fun required => !required.isArray then
            .error (schemaError (ascii "schema required must be an array"))
          else .ok ()
  | _ => .error (schemaError (ascii "every schema node must be an object"))

/-- The children of a node in the order in which the walk takes them from its stack. -/
def schemaChildren (node : JsonValue) : List JsonValue :=
  (SchemaKeyword.items.value node).toList ++
    ((((SchemaKeyword.properties.value node).bind JsonValue.asObject).getD []).map
      Prod.snd).reverse

def gateNode (limits : SchemaSubsetLimits) : (left : Nat) → (node : JsonValue) → ModelResult Unit
  | 0, _ => .error (schemaError (ascii "schema nesting exceeds the subset depth limit"))
  | left + 1, node => do
      checkSchemaNode limits node
      (schemaChildren node).forM (gateNode limits left)

def gateSchemaSubset (schema : JsonSchema)
    (limits : SchemaSubsetLimits := defaultSchemaSubsetLimits) : ModelResult Unit :=
  if schema.valid = false then .error (schemaError (ascii "schema root must be an object"))
  else if limits.maxSchemaBytes < (canonicalJsonString schema.root).length then
    .error (schemaError (ascii "schema exceeds the size limit"))
  else gateNode limits limits.maxDepth schema.root

structure SchemaViolation where
  path : Bytes
  keyword : Bytes
  message : Bytes

def violation (path : Bytes) (keyword message : String) : SchemaViolation :=
  ⟨path, ascii keyword, ascii message⟩

def instanceMatchesType (inst : JsonValue) (type : Bytes) : Bool :=
  if type = ascii "object" then inst.isObject
  else if type = ascii "array" then inst.isArray
  else if type = ascii "string" then inst.isString
  else if type = ascii "boolean" then inst.isBoolean
  else if type = ascii "null" then inst.isNull
  else if type = ascii "integer" then inst.isInteger
  else if type = ascii "number" then inst.isNumber
  else false

def instanceTypeName : JsonValue → String
  | .null => "null"
  | .boolean _ => "boolean"
  | .integer _ => "integer"
  | .number _ => "number"
  | .string _ => "string"
  | .array _ => "array"
  | .object _ => "object"

/-- Whether the value of `type` names a type of the instance. -/
def matchesTypes (inst : JsonValue) : JsonValue → Bool
  | .string type => instanceMatchesType inst type
  | .array candidates =>
      candidates.any fun candidate => candidate.asString.any (instanceMatchesType inst)
  | _ => false

def typeViolations (inst schema : JsonValue) (path : Bytes) : List SchemaViolation :=
  match SchemaKeyword.type.value schema with
  | some type =>
      if matchesTypes inst type then []
      else
        [violation path "type" ("instance type " ++ instanceTypeName inst ++
          " does not match the schema type")]
  | none => []

def requiredViolations (inst schema : JsonValue) (path : Bytes) : List SchemaViolation :=
  match SchemaKeyword.required.value schema, inst with
  | some (.array names), .object _ =>
      names.filterMap fun name =>
        match name.asString with
        | some text =>
            if (inst.find text).isNone then
              some ⟨path, ascii "required", ascii "missing required property '" ++ text ++ ascii "'"⟩
            else none
        | none => none
  | _, _ => []

def declaredProperties (schema : JsonValue) : Option (List (Bytes × JsonValue)) :=
  (SchemaKeyword.properties.value schema).bind JsonValue.asObject

def allowsAdditional (schema : JsonValue) : Bool :=
  SchemaKeyword.additionalProperties.value schema = some (.boolean true)

def memberPath (path name : Bytes) : Bytes :=
  if path.isEmpty then name else path ++ ascii "." ++ name

def itemPath (path : Bytes) (index : Nat) : Bytes :=
  path ++ ascii "[" ++ decimal index ++ ascii "]"

def undeclaredViolation (path name : Bytes) : SchemaViolation :=
  ⟨memberPath path name, ascii "additionalProperties",
    ascii "property '" ++ name ++ ascii "' is not declared in the schema"⟩

/-- A lower bound on a count: only an integer is one, cast to a word. -/
def belowBound (keyword : SchemaKeyword) (schema : JsonValue) (count : Nat) : Bool :=
  match keyword.value schema with
  | some (.integer bound) => count < wordOfInt bound
  | _ => false

def aboveBound (keyword : SchemaKeyword) (schema : JsonValue) (count : Nat) : Bool :=
  match keyword.value schema with
  | some (.integer bound) => wordOfInt bound < count
  | _ => false

def arrayViolations (inst schema : JsonValue) (path : Bytes) : List SchemaViolation :=
  match inst with
  | .array items =>
      (if belowBound .minItems schema items.length then
        [violation path "minItems" "array is shorter than minItems"] else []) ++
      (if aboveBound .maxItems schema items.length then
        [violation path "maxItems" "array is longer than maxItems"] else [])
  | _ => []

/-- A pattern is searched for anywhere in the text. -/
def patternViolations (search : Bytes → Bytes → Option Bool) (text : Bytes) (schema : JsonValue)
    (path : Bytes) : List SchemaViolation :=
  match SchemaKeyword.pattern.value schema with
  | some (.string pattern) =>
      match search pattern text with
      | some true => []
      | some false => [violation path "pattern" "string does not match pattern"]
      | none => [violation path "pattern" "schema pattern is not a valid regex"]
  | _ => []

def stringViolations (search : Bytes → Bytes → Option Bool) (inst schema : JsonValue)
    (path : Bytes) : List SchemaViolation :=
  match inst with
  | .string text =>
      (if belowBound .minLength schema text.length then
        [violation path "minLength" "string is shorter than minLength"] else []) ++
      (if aboveBound .maxLength schema text.length then
        [violation path "maxLength" "string is longer than maxLength"] else []) ++
      patternViolations search text schema path
  | _ => []

def numberViolations (inst schema : JsonValue) (path : Bytes) : List SchemaViolation :=
  match inst.asNumber with
  | some value =>
      (if ((SchemaKeyword.minimum.value schema).bind JsonValue.asNumber).any (value < ·) then
        [violation path "minimum" "number is below the minimum"] else []) ++
      (if ((SchemaKeyword.maximum.value schema).bind JsonValue.asNumber).any (· < value) then
        [violation path "maximum" "number is above the maximum"] else [])
  | none => []

def enumViolations (inst schema : JsonValue) (path : Bytes) : List SchemaViolation :=
  match SchemaKeyword.enum.value schema with
  | some (.array candidates) =>
      if candidates.any fun candidate => candidate.same inst then []
      else [violation path "enum" "value is not one of the enum members"]
  | _ => []

def constViolations (inst schema : JsonValue) (path : Bytes) : List SchemaViolation :=
  match SchemaKeyword.const.value schema with
  | some constant =>
      if constant.same inst then []
      else [violation path "const" "value does not equal the const"]
  | none => []

/-- What is found before the parts of an instance are. -/
def headViolations (inst schema : JsonValue) (path : Bytes) : List SchemaViolation :=
  typeViolations inst schema path ++ requiredViolations inst schema path

/-- What is found after them. -/
def tailViolations (search : Bytes → Bytes → Option Bool) (inst schema : JsonValue)
    (path : Bytes) : List SchemaViolation :=
  arrayViolations inst schema path ++ stringViolations search inst schema path ++
    numberViolations inst schema path ++ enumViolations inst schema path ++
    constViolations inst schema path

/-- How many violations end the search. -/
def maxViolations : Nat := 32

/-- What holds a part of an instance against its schema, at a path. -/
abbrev PartCheck :=
  JsonValue → JsonValue → Bytes → List SchemaViolation → List SchemaViolation

def validateMember (part : PartCheck) (schema : JsonValue)
    (properties : List (Bytes × JsonValue)) (path : Bytes) (found : List SchemaViolation)
    (member : Bytes × JsonValue) : List SchemaViolation :=
  match (JsonValue.object properties).find member.1 with
  | none =>
      if allowsAdditional schema then found else found ++ [undeclaredViolation path member.1]
  | some property => part member.2 property (memberPath path member.1) found

def validateMembers (part : PartCheck) (inst schema : JsonValue) (path : Bytes)
    (found : List SchemaViolation) : List SchemaViolation :=
  match declaredProperties schema, inst with
  | some properties, .object members =>
      members.foldl (validateMember part schema properties path) found
  | _, _ => found

def validateItems (part : PartCheck) (inst schema : JsonValue) (path : Bytes)
    (found : List SchemaViolation) : List SchemaViolation :=
  match SchemaKeyword.items.value schema, inst with
  | some itemSchema, .array items =>
      items.zipIdx.foldl
        (fun found item => part item.1 itemSchema (itemPath path item.2) found) found
  | _, _ => found

/-- `Validator::validate`, with the depth that is left. -/
def validate (search : Bytes → Bytes → Option Bool) : (left : Nat) → PartCheck
  | 0, _, _, path, found =>
      if maxViolations ≤ found.length then found
      else found ++ [violation path "depth" "schema nesting depth exceeded"]
  | left + 1, inst, schema, path, found =>
      if maxViolations ≤ found.length then found
      else
        let part := validate search left
        let found := found ++ headViolations inst schema path
        let found := validateMembers part inst schema path found
        let found := validateItems part inst schema path found
        found ++ tailViolations search inst schema path

def validateInstance (search : Bytes → Bytes → Option Bool) (inst : JsonValue)
    (schema : JsonSchema) : List SchemaViolation :=
  validate search defaultSchemaSubsetLimits.maxDepth inst schema.root [] []

/-!
What a schema of the subset says. A schema applies to an instance and, through `properties` and
`items`, to its parts; the instance satisfies it where every keyword is met at every part. Values
are compared as JSON values are, and bounds as numbers. A keyword whose value does not have the
shape that its meaning needs is not met where it applies.
-/

def exactNumber : JsonValue → Option Rat
  | .integer value => some value
  | .number value => some value
  | _ => none

mutual

/-- Equality of JSON values: numbers by what they denote, members in any order. -/
def equalValues : JsonValue → JsonValue → Bool
  | .null, other => other.isNull
  | .boolean value, other => other.asBoolean = some value
  | .integer value, other => exactNumber other = some (value : Rat)
  | .number value, other => exactNumber other = some value
  | .string text, other => other.asString = some text
  | .array items, .array others => equalItems items others
  | .object members, .object others =>
      members.length = others.length && equalMembers members (.object others)
  | _, _ => false

def equalItems : List JsonValue → List JsonValue → Bool
  | [], [] => true
  | item :: items, other :: others => equalValues item other && equalItems items others
  | _, _ => false

/-- Every member has an equal one in the other object. -/
def equalMembers : List (Bytes × JsonValue) → JsonValue → Bool
  | [], _ => true
  | (key, value) :: members, others =>
      (match others.find key with
        | some other => equalValues value other
        | none => false) && equalMembers members others

end

/-- The characters of a text in UTF-8: the bytes that begin one. -/
def characters (text : Bytes) : Nat := text.countP fun c => !(0x80 ≤ c && c < 0xC0)

def atLeast (bound : JsonValue) (count : Nat) : Bool :=
  (exactNumber bound).any fun bound => bound ≤ (count : Rat)

def atMost (bound : JsonValue) (count : Nat) : Bool :=
  (exactNumber bound).any fun bound => (count : Rat) ≤ bound

/-- Whether the value of `required` is a list of names of members. -/
def requiresOnly (inst : JsonValue) : JsonValue → Bool
  | .array names => names.all fun name => name.asString.any fun text => (inst.find text).isSome
  | _ => false

def isEnumerated (inst : JsonValue) : JsonValue → Bool
  | .array candidates => candidates.any fun candidate => equalValues candidate inst
  | _ => false

def SchemaKeyword.holds (search : Bytes → Bytes → Option Bool) (keyword : SchemaKeyword)
    (value : JsonValue) (inst : JsonValue) : Bool :=
  match keyword, inst with
  | .type, inst => matchesTypes inst value
  | .properties, .object _ => value.isObject
  | .required, .object members => requiresOnly (.object members) value
  | .enum, inst => isEnumerated inst value
  | .const, inst => equalValues value inst
  | .items, .array _ => value.isObject
  | .minItems, .array elements => atLeast value elements.length
  | .maxItems, .array elements => atMost value elements.length
  | .minLength, .string content => atLeast value (characters content)
  | .maxLength, .string content => atMost value (characters content)
  | .pattern, .string content =>
      value.asString.any fun expression => search expression content = some true
  | .minimum, inst => (exactNumber inst).all fun number => (exactNumber value).any (· ≤ number)
  | .maximum, inst => (exactNumber inst).all fun number => (exactNumber value).any (number ≤ ·)
  | _, _ => true

/-- An object has no member outside of what is declared, unless others are allowed. -/
def isClosed (inst schema : JsonValue) : Bool :=
  match inst with
  | .object members =>
      allowsAdditional schema ||
        members.all fun member =>
          (((SchemaKeyword.properties.value schema).bind (·.find member.1))).isSome
  | _ => true

def meets (search : Bytes → Bytes → Option Bool) (keyword : SchemaKeyword)
    (inst schema : JsonValue) : Bool :=
  match keyword with
  | .additionalProperties => isClosed inst schema
  | keyword => (keyword.value schema).all fun value => keyword.holds search value inst

/-- A schema applied to an instance applies another to a part of it, so many levels below. -/
inductive Applies : JsonValue → JsonValue → Nat → JsonValue → JsonValue → Prop
  | whole (inst schema : JsonValue) : Applies inst schema 0 inst schema
  | member {members : List (Bytes × JsonValue)} {schema properties property : JsonValue}
      {member : Bytes × JsonValue} {level : Nat} {part partSchema : JsonValue}
      (given : member ∈ members) (declares : SchemaKeyword.properties.value schema = some properties)
      (declared : properties.find member.1 = some property)
      (below : Applies member.2 property level part partSchema) :
      Applies (.object members) schema (level + 1) part partSchema
  | item {items : List JsonValue} {schema itemSchema item : JsonValue} {level : Nat}
      {part partSchema : JsonValue} (given : item ∈ items)
      (declares : SchemaKeyword.items.value schema = some itemSchema)
      (below : Applies item itemSchema level part partSchema) :
      Applies (.array items) schema (level + 1) part partSchema

/-- An instance satisfies every keyword of a schema, wherever it applies. -/
def Satisfies (search : Bytes → Bytes → Option Bool) (inst schema : JsonValue) : Prop :=
  ∀ level part partSchema, Applies inst schema level part partSchema →
    ∀ keyword, meets search keyword part partSchema = true

end Mira.Model
