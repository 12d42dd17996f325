import Mira.Events.MemoryStore
import Mira.Json.RoundTrip

/-!
The records of the event log on the wire: the versioned JSON lines written today
and the whitespace-separated lines of the legacy format, which are only read.
-/

namespace Mira.Events.LogWire
open Mira Bytes

def header : Bytes := ascii "MIRA_EVENT_LOG 2"
def records : Bytes := ascii "MIRA_EVENT_RECORDS"

structure Record where
  request : AppendRequest
  sequence : Nat
  taskSequence : Option Nat := none
  requestDigest : Sha256Digest
  timestamp : Timestamp := {}
  v2 : Bool := false

def schema : Bytes := ascii "mira.file-event.v2"

/-- An absent value is written as null. -/
def optionalText (value : Option Bytes) : JsonValue :=
  match value with
  | some text => .string text
  | none => .null

def fields (record : Record) : List (Bytes × JsonValue) :=
  [(ascii "schema", .string schema),
    (ascii "event_id", .string record.request.eventId.toString),
    (ascii "runtime_id", .string record.request.runtimeId.toString),
    (ascii "session_id", .string record.request.sessionId.toString),
    (ascii "task_id", optionalText (record.request.taskId.map StrongId.toString)),
    (ascii "session_sequence", .string (decimal record.sequence)),
    (ascii "task_sequence", optionalText (record.taskSequence.map decimal)),
    (ascii "cause", .string (decimal record.request.cause.toNat)),
    (ascii "classification", .integer record.request.payload.classification.value.toNat),
    (ascii "type", .string record.request.payload.type),
    (ascii "data", .string record.request.payload.data),
    (ascii "wall_ns", .integer record.timestamp.wall),
    (ascii "integrity", .string record.requestDigest.toString)]

def recordDigest (record : Record) : Sha256Digest :=
  digestString (canonicalJsonString (.object (fields record)))

def encode (record : Record) : Bytes :=
  ascii "E2 " ++ canonicalJsonString
    ((JsonValue.object (fields record)).set (ascii "record_digest")
      (.string (recordDigest record).toString))

/-- A decimal member that fits an unsigned word and is nothing but digits. -/
def number (value : Option JsonValue) : Option Nat :=
  match value with
  | some (.string text) => ofDecimal (2 ^ 64) text
  | _ => none

def keys : List Bytes :=
  [ascii "schema", ascii "event_id", ascii "runtime_id", ascii "session_id", ascii "task_id",
    ascii "session_sequence", ascii "task_sequence", ascii "cause", ascii "classification",
    ascii "type", ascii "data", ascii "wall_ns", ascii "integrity", ascii "record_digest"]

/-- The members that must be strings. -/
def textKeys : List Bytes :=
  [ascii "event_id", ascii "runtime_id", ascii "session_id", ascii "type", ascii "data",
    ascii "integrity", ascii "record_digest"]

def text (document : JsonValue) (key : String) : Bytes :=
  ((document.find (ascii key)).bind JsonValue.asString).getD []

def identity {tag : IdTag} (text : Bytes) : Option (StrongId tag) :=
  (StrongId.parse text).filter fun id => id.isNil = false

/-- The identity part of a record. -/
structure Identity where
  event : EventId
  runtime : RuntimeId
  session : SessionId
  integrity : Sha256Digest
  recordDigest : Sha256Digest
  classification : Int
  wall : Int

def decodeIdentity (document : JsonValue) : Option Identity :=
  match identity (text document "event_id"), identity (text document "runtime_id"),
      identity (text document "session_id"), digestFromHex (text document "integrity"),
      digestFromHex (text document "record_digest"), document.find (ascii "classification"),
      document.find (ascii "wall_ns") with
  | some event, some runtime, some session, some integrity, some digest,
      some (.integer classification), some (.integer wall) =>
      some ⟨event, runtime, session, integrity, digest, classification, wall⟩
  | _, _, _, _, _, _, _ => none

/-- The task part: both members are null, or a task and its positive number. -/
def decodeTask (document : JsonValue) : Result (Option (TaskId × Nat)) :=
  match document.find (ascii "task_id") with
  | some (.string written) =>
      match identity written, number (document.find (ascii "task_sequence")) with
      | some task, some (sequence + 1) => .ok (some (task, sequence + 1))
      | _, _ => .error (storeError .dataLoss "event log task sequence is invalid")
  | some .null =>
      if (document.find (ascii "task_sequence")).map JsonValue.isNull = some true then .ok none
      else .error (storeError .dataLoss "event log task sequence has no task")
  | _ => .error (storeError .dataLoss "event log task identity is invalid")

def decodeDocument (document : JsonValue) : Result Record :=
  if (document.find (ascii "schema")).bind JsonValue.asString ≠ some schema then
    .error (storeError .unsupportedVersion "event log schema is unsupported")
  else if (document.asObject.map List.length) ≠ some keys.length ∨
      keys.any fun key => (document.find key).isNone then
    .error (storeError .unsupportedVersion "event log field set is unsupported")
  else if textKeys.any fun key => (document.find key).all fun value => value.isString = false then
    .error (storeError .dataLoss "event log member type is invalid")
  else
    match decodeIdentity document with
    | none => .error (storeError .dataLoss "event log identity or time is invalid")
    | some found =>
        match parseEventClass found.classification with
        | .error _ => .error (storeError .dataLoss "event log classification is invalid")
        | .ok classification =>
            match number (document.find (ascii "session_sequence")),
                number (document.find (ascii "cause")) with
            | some (sequence + 1), some cause =>
                match decodeTask document with
                | .error reason => .error reason
                | .ok task =>
                    let record : Record :=
                      { request :=
                          { eventId := found.event
                            runtimeId := found.runtime
                            sessionId := found.session
                            taskId := task.map Prod.fst
                            payload :=
                              { type := text document "type"
                                data := text document "data"
                                classification := classification }
                            cause := UInt64.ofNat cause }
                        sequence := sequence + 1
                        taskSequence := task.map Prod.snd
                        requestDigest := found.integrity
                        timestamp := { wall := found.wall }
                        v2 := true }
                    if recordDigest record ≠ found.recordDigest then
                      .error (storeError .dataLoss "event record metadata digest mismatch")
                    else .ok record
            | _, _ => .error (storeError .dataLoss "event log sequence or cause is invalid")

/-- The payload of an event is an opaque string, so only the line bounds it. -/
def lineLimits (line : Bytes) : JsonLimits :=
  { maxDocumentBytes := line.length, maxStringBytes := line.length }

def decodeV2 (line : Bytes) : Result Record :=
  if (ascii "E2 ").isPrefixOf line = false then
    if line.isPrefixOf (ascii "E2 ") then
      .error (storeError .invalidArgument "event log record prefix is incomplete")
    else if line.head? = some 69 ∨ (line.head?.map isDigit) = some true then
      .error (storeError .unsupportedVersion "event log record version is unsupported")
    else .error (storeError .invalidArgument "event log record is incomplete")
  else
    match parseJson (line.drop 3) (lineLimits line) with
    | .error _ => .error (storeError .invalidArgument "event log JSON is incomplete")
    | .ok document =>
        if document.isObject = false then
          .error (storeError .dataLoss "event log JSON must be an object")
        else decodeDocument document

def isSpace (c : UInt8) : Bool := c = 32 || (9 ≤ c && c ≤ 13)

/-- `>> std::string`: skips spaces and takes a word, which must not be empty. -/
def extractWord (input : Bytes) : Option (Bytes × Bytes) :=
  let skipped := input.dropWhile isSpace
  let word := skipped.takeWhile fun c => isSpace c = false
  if word = [] then none else some (word, skipped.dropWhile fun c => isSpace c = false)

/-- `>>` into an unsigned integer of that width: a sign is allowed and negates
within the width; an overflow fails. -/
def extractUnsigned (width : Nat) (input : Bytes) : Option (Nat × Bytes) :=
  let skipped := input.dropWhile isSpace
  let negative := skipped.head? = some 45
  let unsigned := if negative ∨ skipped.head? = some 43 then skipped.drop 1 else skipped
  let digits := unsigned.takeWhile isDigit
  if digits = [] ∨ 2 ^ width ≤ decimalValue digits then none
  else
    some (if negative then (2 ^ width - decimalValue digits) % 2 ^ width else decimalValue digits,
      unsigned.dropWhile isDigit)

def extractQuotedBody : Bytes → Option (Bytes × Bytes)
  | [] => none
  | [92] => none
  | 92 :: c :: rest => (extractQuotedBody rest).map fun (body, after) => (c :: body, after)
  | 34 :: rest => some ([], rest)
  | c :: rest => (extractQuotedBody rest).map fun (body, after) => (c :: body, after)

/-- `>> std::quoted`: without an opening quote it is a plain word. -/
def extractQuoted (input : Bytes) : Option (Bytes × Bytes) :=
  match input.dropWhile isSpace with
  | 34 :: rest => extractQuotedBody rest
  | _ => extractWord input

structure LegacyFields where
  sequence : Nat
  event : Bytes
  runtime : Bytes
  session : Bytes
  task : Bytes
  cause : Nat
  classification : Nat
  type : Bytes
  data : Bytes
  rest : Bytes

def extractLegacy (line : Bytes) : Option LegacyFields := do
  let (sequence, line) ← extractUnsigned 64 line
  let (event, line) ← extractWord line
  let (runtime, line) ← extractWord line
  let (session, line) ← extractWord line
  let (task, line) ← extractWord line
  let (cause, line) ← extractUnsigned 64 line
  let (classification, line) ← extractUnsigned 32 line
  let (type, line) ← extractQuoted line
  let (data, line) ← extractQuoted line
  return ⟨sequence, event, runtime, session, task, cause, classification, type, data, line⟩

def decodeLegacy (line : Bytes) : Result Record :=
  match extractLegacy line with
  | none => .error (storeError .invalidArgument "legacy event record is incomplete")
  | some found =>
      match identity found.event, identity found.runtime, identity found.session,
          parseEventClass found.classification with
      | some event, some runtime, some session, .ok classification =>
          let task : Option (Option TaskId) :=
            if found.task = ascii "-" then some none else (identity found.task).map some
          match task with
          | none => .error (storeError .dataLoss "legacy event task identity is invalid")
          | some task =>
              match extractWord found.rest with
              | none => .error (storeError .dataLoss "legacy event digest is missing")
              | some (integrity, rest) =>
                  match digestFromHex integrity with
                  | none => .error (storeError .dataLoss "legacy event digest is invalid")
                  | some digest =>
                      if (extractWord rest).isSome then
                        .error (storeError .dataLoss "legacy event contains trailing fields")
                      else
                        .ok { request :=
                                { eventId := event
                                  runtimeId := runtime
                                  sessionId := session
                                  taskId := task
                                  payload :=
                                    { type := found.type
                                      data := found.data
                                      classification := classification }
                                  cause := UInt64.ofNat found.cause }
                              sequence := found.sequence
                              requestDigest := digest }
      | _, _, _, _ =>
          .error (storeError .dataLoss "legacy event identity or classification is invalid")

/-!
The record line and its reader. A record of a well-formed request is written on
one line and decoded to itself, as far as the line stores it; every proper prefix
of the line is refused as incomplete; and what is decoded carries UTF-8 payloads
and a time that fits the signed word.
-/

/-- The records that an append writes, when its payload is text. -/
structure Writable (record : Record) : Prop where
  event : record.request.eventId.isNil = false
  runtime : record.request.runtimeId.isNil = false
  session : record.request.sessionId.isNil = false
  task : ∀ task, record.request.taskId = some task → task.isNil = false
  scope : record.request.taskId.isSome = record.taskSequence.isSome
  sequence : 0 < record.sequence ∧ record.sequence < 2 ^ 64
  taskSequence : ∀ n, record.taskSequence = some n → 0 < n ∧ n < 2 ^ 64
  type : ValidUtf8 record.request.payload.type
  data : ValidUtf8 record.request.payload.data
  classification : record.request.payload.classification.value < 3
  wall : -2 ^ 63 < record.timestamp.wall ∧ record.timestamp.wall < 2 ^ 63

def Record.stored (record : Record) : Record :=
  { record with
    request := { record.request with required := .processCrash }
    timestamp := { wall := record.timestamp.wall }
    v2 := true }

def members (record : Record) : List (Bytes × JsonValue) :=
  fields record ++ [(ascii "record_digest", .string (recordDigest record).toString)]

variable (record : Record)

theorem members_keys : (members record).map Prod.fst = keys := rfl

theorem keys_nodup : keys.Nodup := by decide

theorem encode_eq :
    encode record = ascii "E2 " ++ canonicalJsonString (.object (members record)) := by
  have absent : ((fields record).any fun member => member.1 = ascii "record_digest") = false := rfl
  simp only [encode, JsonValue.set, absent, Bool.false_eq_true, if_false, members]

theorem members_portable (writable : Writable record) (limits : JsonLimits) (levels : Nat)
    (room : ∀ member ∈ members record, ∀ text, member.2 = .string text →
      text.length < limits.maxStringBytes) :
    ∀ member ∈ members record, member.2.Portable limits (levels + 1) := by
  have hex (bytes : Bytes) : ValidUtf8 (toHex bytes) :=
    validUtf8_printable_ascii _ (toHex_ascii bytes)
  have dec (n : Nat) : ValidUtf8 (decimal n) := validUtf8_printable_ascii _ (decimal_ascii n)
  have string (member : Bytes × JsonValue) (present : member ∈ members record) (text : Bytes)
      (value : member.2 = .string text) (valid : ValidUtf8 text) :
      member.2.Portable limits (levels + 1) := by
    have short := room member present text value
    rw [value]
    exact .string text valid short
  have class_ : (record.request.payload.classification.value.toNat : Int) < 3 := by
    have h : record.request.payload.classification.value.toNat < 3 := writable.classification
    omega
  intro member present
  have source := present
  simp only [members, fields, List.cons_append, List.nil_append, List.mem_cons,
    List.not_mem_nil, or_false] at source
  rcases source with rfl | rfl | rfl | rfl | rfl | rfl | rfl | rfl | rfl | rfl | rfl | rfl | rfl | rfl
  · exact string _ present _ rfl (validUtf8_printable_ascii _ (by decide))
  · exact string _ present _ rfl (hex _)
  · exact string _ present _ rfl (hex _)
  · exact string _ present _ rfl (hex _)
  · cases h : record.request.taskId with
    | none => exact .null
    | some task =>
        rw [h] at present
        exact string _ present _ rfl (hex _)
  · exact string _ present _ rfl (dec _)
  · cases h : record.taskSequence with
    | none => exact .null
    | some n =>
        rw [h] at present
        exact string _ present _ rfl (dec _)
  · exact string _ present _ rfl (dec _)
  · exact .integer _ (by omega) (by omega)
  · exact string _ present _ rfl writable.type
  · exact string _ present _ rfl writable.data
  · exact .integer _ writable.wall.1 writable.wall.2
  · exact string _ present _ rfl (hex _)
  · exact string _ present _ rfl (hex _)

theorem encode_length :
    (encode record).length =
      3 + (canonicalJsonString (.object (members record))).length := by
  rw [encode_eq, List.length_append]
  rfl

theorem object_portable (writable : Writable record) (limits : JsonLimits) (levels : Nat)
    (strings : (encode record).length ≤ limits.maxStringBytes)
    (objects : 14 ≤ limits.maxObjectMembers) :
    (JsonValue.object (members record)).Portable limits (levels + 2) := by
  have length := encode_length record
  have sizes (member : Bytes × JsonValue) (present : member ∈ members record) :=
    length_member true (members record) member present
  have short (key : Bytes) (present : key ∈ keys) : ValidUtf8 key ∧ key.length < 32 := by
    have all : ∀ key ∈ keys, (∀ b ∈ key, b.toNat < 128) ∧ key.length < 32 := by decide
    exact ⟨validUtf8_printable_ascii key (all key present).1, (all key present).2⟩
  refine .object (members record) objects (by rw [members_keys]; exact keys_nodup) ?_ ?_
  · intro member present
    have named : member.1 ∈ keys := by
      rw [← members_keys record]
      exact List.mem_map.mpr ⟨member, present, rfl⟩
    refine ⟨(short member.1 named).1, ?_⟩
    have size := (sizes member present).1
    unfold canonicalJsonString at length
    omega
  · apply members_portable record writable
    intro member present text value
    have size := (sizes member present).2
    rw [value] at size
    have written := length_writeString text
    change (writeString text).length < _ at size
    unfold canonicalJsonString at length
    omega

theorem members_arrange :
    (JsonValue.object (members record)).arrange true =
      .object (orderMembers true (members record)) := by
  rw [JsonValue.arrange, arrangeMembers_eq]
  congr 2
  have leaf (value : Option Bytes) : (optionalText value).arrange true = optionalText value := by
    cases value <;> rfl
  simp only [members, fields, List.cons_append, List.nil_append, List.map_cons, List.map_nil,
    JsonValue.arrange, leaf]

theorem parse_members (writable : Writable record) :
    parseJson (canonicalJsonString (.object (members record))) (lineLimits (encode record)) =
      .ok (.object (orderMembers true (members record))) := by
  rw [← members_arrange]
  apply parseJson_writeValue
  · exact object_portable record writable (lineLimits (encode record)) 30 le_rfl
      (show 14 ≤ 100000 by omega)
  · have length := encode_length record
    unfold canonicalJsonString at length
    change _ ≤ (encode record).length
    omega

theorem find_ordered (key : Bytes) :
    (JsonValue.object (orderMembers true (members record))).find key =
      (JsonValue.object (members record)).find key := by
  refine (JsonValue.find_perm (orderMembers_perm true (members record)).symm ?_ key).symm
  rw [members_keys]
  exact keys_nodup

theorem identity_toString {tag : IdTag} (id : StrongId tag) (named : id.isNil = false) :
    identity id.toString = some id := by
  simp [identity, StrongId.parse_toString, named]

theorem parseEventClass_value (classification : EventClass) (named : classification.value < 3) :
    parseEventClass classification.value.toNat = .ok classification := by
  cases classification with
  | critical => rfl
  | state => rfl
  | diagnostic => rfl
  | unnamed value beyond =>
      have low : (3 : UInt8).toNat ≤ value.toNat := beyond
      have high : value.toNat < (3 : UInt8).toNat := named
      omega

/-- Reading back one member of the line. -/
structure Holds (document : JsonValue) (record : Record) : Prop where
  size : document.asObject.map List.length = some keys.length
  find : ∀ key, document.find key = (JsonValue.object (members record)).find key

theorem holds_ordered :
    Holds (.object (orderMembers true (members record))) record where
  size := by
    simp only [JsonValue.asObject, Option.map_some, (orderMembers_perm true _).length_eq]
    rfl
  find := find_ordered record

section Document
variable {document : JsonValue} {record : Record} (holds : Holds document record)
include holds

theorem decodeIdentity_holds (writable : Writable record) :
    decodeIdentity document =
      some ⟨record.request.eventId, record.request.runtimeId, record.request.sessionId,
        record.requestDigest, recordDigest record,
        record.request.payload.classification.value.toNat, record.timestamp.wall⟩ := by
  have event : text document "event_id" = record.request.eventId.toString := by
    rw [text, holds.find]; rfl
  have runtime : text document "runtime_id" = record.request.runtimeId.toString := by
    rw [text, holds.find]; rfl
  have session : text document "session_id" = record.request.sessionId.toString := by
    rw [text, holds.find]; rfl
  have integrity : text document "integrity" = record.requestDigest.toString := by
    rw [text, holds.find]; rfl
  have digest : text document "record_digest" = (recordDigest record).toString := by
    rw [text, holds.find]; rfl
  have classification : document.find (ascii "classification") =
      some (.integer record.request.payload.classification.value.toNat) := by
    rw [holds.find]; rfl
  have wall : document.find (ascii "wall_ns") = some (.integer record.timestamp.wall) := by
    rw [holds.find]; rfl
  rw [decodeIdentity, event, runtime, session, integrity, digest, classification, wall]
  simp only [identity_toString _ writable.event, identity_toString _ writable.runtime,
    identity_toString _ writable.session, digestFromHex_toString]

theorem decodeTask_holds (writable : Writable record) :
    decodeTask document =
      .ok (record.request.taskId.bind fun task => record.taskSequence.map fun n => (task, n)) := by
  have task : document.find (ascii "task_id") =
      some (optionalText (record.request.taskId.map StrongId.toString)) := by
    rw [holds.find]; rfl
  have sequence : document.find (ascii "task_sequence") =
      some (optionalText (record.taskSequence.map decimal)) := by
    rw [holds.find]; rfl
  have scope := writable.scope
  rw [decodeTask, task, sequence]
  cases hTask : record.request.taskId with
  | none =>
      cases hSequence : record.taskSequence with
      | none => rfl
      | some n => rw [hTask, hSequence] at scope; cases scope
  | some id =>
      cases hSequence : record.taskSequence with
      | none => rw [hTask, hSequence] at scope; cases scope
      | some n =>
          obtain ⟨positive, small⟩ := writable.taskSequence n hSequence
          obtain ⟨m, rfl⟩ := Nat.exists_eq_add_one.mpr positive
          simp only [Option.map_some, optionalText, number,
            identity_toString id (writable.task id hTask), ofDecimal_decimal _ _ small,
            Option.bind_some]

theorem decodeDocument_holds (writable : Writable record) :
    decodeDocument document = .ok record.stored := by
  have schema_ : (document.find (ascii "schema")).bind JsonValue.asString = some schema := by
    rw [holds.find]; rfl
  have complete : (keys.any fun key => (document.find key).isNone) = false := by
    simp only [holds.find]; rfl
  have texts : (textKeys.any fun key => (document.find key).all fun value =>
      value.isString = false) = false := by
    simp only [holds.find]; rfl
  have sequence : number (document.find (ascii "session_sequence")) = some record.sequence := by
    rw [holds.find]
    exact ofDecimal_decimal _ _ writable.sequence.2
  have cause : number (document.find (ascii "cause")) = some record.request.cause.toNat := by
    rw [holds.find]
    exact ofDecimal_decimal _ _ record.request.cause.toNat_lt
  have type : text document "type" = record.request.payload.type := by
    rw [text, holds.find]; rfl
  have data : text document "data" = record.request.payload.data := by
    rw [text, holds.find]; rfl
  obtain ⟨n, hn⟩ := Nat.exists_eq_add_one.mpr writable.sequence.1
  rw [hn] at sequence
  have paired : (record.request.taskId.bind fun task =>
        record.taskSequence.map fun n => (task, n)).map Prod.fst = record.request.taskId ∧
      (record.request.taskId.bind fun task =>
        record.taskSequence.map fun n => (task, n)).map Prod.snd = record.taskSequence := by
    have scope := writable.scope
    cases hTask : record.request.taskId <;> cases hSequence : record.taskSequence <;>
      rw [hTask, hSequence] at scope <;> first | exact ⟨rfl, rfl⟩ | cases scope
  unfold decodeDocument
  rw [if_neg (by simp [schema_]), if_neg (by simp [holds.size, complete]),
    if_neg (by rw [texts]; decide), decodeIdentity_holds holds writable]
  simp only [parseEventClass_value _ writable.classification, sequence, cause,
    decodeTask_holds holds writable, type, data, paired.1, paired.2, UInt64.ofNat_toNat]
  -- The digest covers nothing that the line does not store.
  rw [← hn]
  exact if_neg (not_not.mpr rfl)

end Document

theorem decodeV2_encode (writable : Writable record) :
    decodeV2 (encode record) = .ok record.stored := by
  have body : (encode record).drop 3 = canonicalJsonString (.object (members record)) := by
    rw [encode_eq]; rfl
  have marked : (ascii "E2 ").isPrefixOf (encode record) = true := by
    rw [encode_eq, List.isPrefixOf_iff_prefix]
    exact List.prefix_append _ _
  rw [decodeV2, if_neg (by simp [marked]), body, parse_members record writable]
  dsimp only
  rw [if_neg (by simp [JsonValue.isObject]),
    decodeDocument_holds (holds_ordered record) writable]

theorem encode_printable (writable : Writable record) : Printable (encode record) := by
  rw [encode_eq]
  refine (printable_ascii (ascii "E2 ") (by decide)).append ?_
  exact printable_writeValue true (lineLimits (encode record)) 32 _
    (object_portable record writable (lineLimits (encode record)) 30 le_rfl
      (show 14 ≤ 100000 by omega))

variable (line : Bytes)

theorem lineLimits_within (longer : Bytes) (h : line.length ≤ longer.length) :
    (lineLimits line).Within (lineLimits longer) :=
  ⟨h, Nat.le_refl 100000, Nat.le_refl 100000⟩

theorem lineLimits_maxDepth : (lineLimits line).maxDepth = 32 := rfl

theorem object_readsTo (writable : Writable record) :
    parseValue (lineLimits (encode record)) 32 (canonicalJsonString (.object (members record))) =
      .ok ((JsonValue.object (members record)).arrange true, []) := by
  have portable := object_portable record writable (lineLimits (encode record)) 30 le_rfl
    (show 14 ≤ 100000 by omega)
  have reads := (readsTo_writeValue true _ 32 _ portable).reads [] (by simp [EndsNumber])
  rwa [List.append_nil] at reads

theorem decodeV2_proper_prefix (writable : Writable record) (line more : Bytes)
    (whole : line ++ more = encode record) (left : more ≠ []) :
    ∃ message, decodeV2 line = .error (storeError .invalidArgument message) := by
  unfold decodeV2
  by_cases marked : (ascii "E2 ").isPrefixOf line = true
  · rw [if_neg (by simp [marked])]
    obtain ⟨text, rfl⟩ := List.isPrefixOf_iff_prefix.mp marked
    have body : text ++ more = canonicalJsonString (.object (members record)) := by
      rw [encode_eq, List.append_assoc] at whole
      exact List.append_cancel_left whole
    have refused : ∃ reason, parseJson text (lineLimits (ascii "E2 " ++ text)) = .error reason := by
      cases text with
      | nil => exact ⟨_, rfl⟩
      | cons first text =>
          have opened : first = 123 := by
            unfold canonicalJsonString at body
            rw [writeValue, List.cons_append, List.cons.injEq] at body
            exact body.1
          subst opened
          have within := lineLimits_within (ascii "E2 " ++ 123 :: text) (encode record)
            (by rw [← whole]; exact (List.prefix_append _ more).length_le)
          refine parseJson_proper_prefix within ?_ text more
            ((JsonValue.object (members record)).arrange true) ?_ left
          · rw [lineLimits_maxDepth, lineLimits_maxDepth]
          · rw [body, lineLimits_maxDepth, object_readsTo record writable]
    obtain ⟨reason, refused⟩ := refused
    rw [show (ascii "E2 " ++ text).drop 3 = text from rfl, refused]
    exact ⟨_, rfl⟩
  · rw [if_pos (Bool.eq_false_iff.mpr marked)]
    have short : line.isPrefixOf (ascii "E2 ") = true := by
      rw [List.isPrefixOf_iff_prefix] at marked ⊢
      have first : line <+: encode record := ⟨more, whole⟩
      have second : ascii "E2 " <+: encode record := by
        rw [encode_eq]
        exact List.prefix_append _ _
      exact (List.prefix_or_prefix_of_prefix first second).resolve_right marked
    rw [if_pos short]
    exact ⟨_, rfl⟩

variable (document : JsonValue)

theorem text_valid (formed : document.WellFormed) (key : String) :
    ValidUtf8 (text document key) := by
  unfold text
  cases found : document.find (ascii key) with
  | none => exact validUtf8_nil
  | some value =>
      cases formed.find found with
      | string written valid => exact valid
      | _ => exact validUtf8_nil

theorem decodeIdentity_wall (formed : document.WellFormed) (found : Identity)
    (h : decodeIdentity document = some found) : -2 ^ 63 < found.wall ∧ found.wall < 2 ^ 63 := by
  unfold decodeIdentity at h
  split at h
  · next wall =>
      cases h
      cases formed.find wall with
      | integer _ low high => exact ⟨low, high⟩
  · cases h

theorem decodeV2_sound (record : Record) (h : decodeV2 line = .ok record) :
    ValidUtf8 record.request.payload.type ∧ ValidUtf8 record.request.payload.data ∧
      -2 ^ 63 < record.timestamp.wall ∧ record.timestamp.wall < 2 ^ 63 := by
  unfold decodeV2 at h
  split at h
  · split_ifs at h
  · split at h
    · cases h
    · next document parsed =>
        have formed := parseJson_wellFormed _ _ _ parsed
        split at h
        · cases h
        · unfold decodeDocument at h
          split_ifs at h
          split at h
          · cases h
          · next found identity_ =>
              have wall := decodeIdentity_wall document formed found identity_
              split at h
              · cases h
              · split at h
                · split at h
                  · cases h
                  · dsimp only at h
                    split_ifs at h
                    cases h
                    exact ⟨text_valid document formed _, text_valid document formed _, wall⟩
                · cases h

end Mira.Events.LogWire
