import Mira.Events.MemoryStore
import Mira.Json.Canonical

/-!
Published task facts: the strict reader of the versioned payload that carries a
verified fact with its evidence, its scope and its validity interval.
-/

namespace Mira.Checkpoint
open Mira Bytes Events

def toLowerAscii (text : Bytes) : Bytes :=
  text.map fun c => if 65 ≤ c && c ≤ 90 then c - 65 + 97 else c

/-- Whether the text holds one of the markers, in either case. -/
def carriesMarker (text : Bytes) (markers : List Bytes) : Bool :=
  markers.any fun marker =>
    !marker.isEmpty &&
      (toLowerAscii text).tails.any fun rest => (toLowerAscii marker).isPrefixOf rest

def defaultForbiddenContentMarkers : List Bytes :=
  [ascii "api_key", ascii "apikey", ascii "authorization:", ascii "bearer ", ascii "password=",
    ascii "secret="]

def defaultInjectionContentMarkers : List Bytes :=
  [ascii "ignore previous", ascii "disregard previous", ascii "you are now", ascii "system:",
    ascii "new instructions:", ascii "override policy"]

inductive MemoryScopeKind
  | task | session | environment | application | user | agent | taskSkill
  deriving DecidableEq

def memoryScopeKindName : MemoryScopeKind → String
  | .task => "task"
  | .session => "session"
  | .environment => "environment"
  | .application => "application"
  | .user => "user"
  | .agent => "agent"
  | .taskSkill => "task-skill"

def memoryScopeKindFrom (name : Bytes) : Option MemoryScopeKind :=
  [.task, .session, .environment, .application, .user, .agent, .taskSkill].find? fun kind =>
    ascii (memoryScopeKindName kind) = name

structure MemoryScope where
  kind : MemoryScopeKind := .environment
  subjectId : Bytes := []
  tenantId : Option Bytes := none
  deriving DecidableEq

def memoryScopeToJson (scope : MemoryScope) : JsonValue :=
  .object
    ([(ascii "kind", .string (ascii (memoryScopeKindName scope.kind))),
        (ascii "subject_id", .string scope.subjectId)] ++
      scope.tenantId.toList.map fun tenant => (ascii "tenant_id", .string tenant))

/-- A scope object; only an unknown kind is refused. -/
def memoryScopeFromJson (document : JsonValue) : Option MemoryScope :=
  if document.isObject = false then none
  else
    let subject := (stringMember document "subject_id").getD []
    let tenant := stringMember document "tenant_id"
    match stringMember document "kind" with
    | none => some { subjectId := subject, tenantId := tenant }
    | some name =>
        (memoryScopeKindFrom name).map fun kind => ⟨kind, subject, tenant⟩

structure VerifiedFactClaim where
  publicationId : EventId
  task : TaskId
  taskEpoch : Nat := 0
  environmentEpoch : Nat := 0
  key : Bytes
  value : Bytes
  evidenceEvent : EventId
  evidenceDigest : Sha256Digest
  verifier : Bytes
  validFrom : Int
  validUntil : Int
  deriving DecidableEq

structure PublishedTaskFact where
  runtime : RuntimeId
  session : SessionId
  scope : MemoryScope
  claim : VerifiedFactClaim
  deriving DecidableEq

def factError (code : ErrorCode) (message : String) : Error :=
  { code := code, domain := "mira.verified_fact", safeMessage := message }

def identifier (text : Bytes) : Bool :=
  !text.isEmpty && text.length ≤ 128 &&
    text.all fun c => (97 ≤ c && c ≤ 122) || isDigit c || c = 46 || c = 95 || c = 58 || c = 45

def safeText (text : Bytes) (bound : Nat) : Bool :=
  !text.isEmpty && text.length ≤ bound && text.all fun c => 32 ≤ c && c ≠ 127

/-- Twenty-four hours in nanoseconds. -/
def longestValidity : Int := 24 * 3600 * 10 ^ 9

def validatePublished (fact : PublishedTaskFact) : Result Unit :=
  let c := fact.claim
  let s := fact.scope
  if fact.runtime.isNil ∨ fact.session.isNil ∨ c.publicationId.isNil ∨ c.task.isNil ∨
      c.evidenceEvent.isNil ∨ c.publicationId = c.evidenceEvent ∨ identifier c.key = false ∨
      identifier c.verifier = false ∨ safeText c.value 1024 = false ∨
      2 ^ 63 ≤ c.taskEpoch ∨ 2 ^ 63 ≤ c.environmentEpoch then
    .error (factError .invalidArgument "verified fact identity or content is invalid")
  else if (s.kind ≠ .environment ∧ s.kind ≠ .application ∧ s.kind ≠ .user) ∨
      safeText s.subjectId 256 = false ∨ s.tenantId.any fun tenant => !safeText tenant 256 then
    .error (factError .invalidArgument "verified fact scope is invalid")
  else if c.validFrom ≤ 0 ∨ c.validUntil ≤ c.validFrom ∨
      longestValidity < c.validUntil - c.validFrom then
    .error (factError .invalidArgument "verified fact validity is invalid")
  else if carriesMarker c.key defaultForbiddenContentMarkers ∨
      carriesMarker c.value defaultForbiddenContentMarkers ∨
      carriesMarker c.value defaultInjectionContentMarkers then
    .error (factError .safetyRejected "verified fact content is forbidden")
  else .ok ()

def factSchema : Bytes := ascii "mira.task-fact-verified.v1"

def factMembers (fact : PublishedTaskFact) : List (Bytes × JsonValue) :=
  let c := fact.claim
  [(ascii "schema", .string factSchema),
    (ascii "runtime_id", .string fact.runtime.toString),
    (ascii "session_id", .string fact.session.toString),
    (ascii "task_id", .string c.task.toString),
    (ascii "task_epoch", .integer (toInt64 c.taskEpoch)),
    (ascii "environment_epoch", .integer (toInt64 c.environmentEpoch)),
    (ascii "scope", memoryScopeToJson fact.scope),
    (ascii "claim", .object [(ascii "key", .string c.key), (ascii "value", .string c.value)]),
    (ascii "evidence_event", .string c.evidenceEvent.toString),
    (ascii "evidence_digest", .string c.evidenceDigest.toString),
    (ascii "verifier", .string c.verifier),
    (ascii "valid_from", .integer c.validFrom),
    (ascii "valid_until", .integer c.validUntil)]

def payloadFor (fact : PublishedTaskFact) : EventPayload :=
  { type := ascii "TaskFactVerified"
    data := canonicalJsonString (.object (factMembers fact))
    classification := .critical }

def factKeys : List String :=
  ["schema", "runtime_id", "session_id", "task_id", "task_epoch", "environment_epoch", "scope",
    "claim", "evidence_event", "evidence_digest", "verifier", "valid_from", "valid_until"]

def factTextKeys : List String :=
  ["runtime_id", "session_id", "task_id", "evidence_event", "evidence_digest", "verifier"]

def factNumberKeys : List String :=
  ["task_epoch", "environment_epoch", "valid_from", "valid_until"]

/-- The scope members: a kind and a subject, and no others but a tenant. -/
def scopeFieldsValid (scope : JsonValue) : Bool :=
  scope.isObject && (stringMember scope "kind").isSome && (stringMember scope "subject_id").isSome &&
    ((scope.find (ascii "tenant_id")).all JsonValue.isString) &&
    ((scope.asObject.getD []).all fun member =>
      member.1 = ascii "kind" || member.1 = ascii "subject_id" || member.1 = ascii "tenant_id")

def factFrom (event : EventEnvelope) (document : JsonValue) : Option PublishedTaskFact := do
  let text (key : String) : Bytes := (stringMember document key).getD []
  let number (key : String) : Int := (integerMember document key).getD 0
  let runtime ← (StrongId.parse (text "runtime_id") : Option RuntimeId)
  let session ← (StrongId.parse (text "session_id") : Option SessionId)
  let task ← (StrongId.parse (text "task_id") : Option TaskId)
  let evidence ← (StrongId.parse (text "evidence_event") : Option EventId)
  let digest ← digestFromHex (text "evidence_digest")
  let scope ← (document.find (ascii "scope")).bind memoryScopeFromJson
  let claim ← document.find (ascii "claim")
  guard (claim.asObject.map List.length = some 2)
  let key ← stringMember claim "key"
  let value ← stringMember claim "value"
  guard (0 ≤ number "task_epoch" ∧ 0 ≤ number "environment_epoch")
  return { runtime := runtime, session := session, scope := scope
           claim :=
             { publicationId := event.eventId
               task := task
               taskEpoch := (number "task_epoch").toNat
               environmentEpoch := (number "environment_epoch").toNat
               key := key
               value := value
               evidenceEvent := evidence
               evidenceDigest := digest
               verifier := text "verifier"
               validFrom := number "valid_from"
               validUntil := number "valid_until" } }

def factShapeError (document : JsonValue) : Option Error :=
  if stringMember document "schema" ≠ some factSchema then
    some (factError .unsupportedVersion "verified fact schema is unsupported")
  else if document.asObject.map List.length ≠ some factKeys.length ∨
      factKeys.any fun key => (document.find (ascii key)).isNone then
    some (factError .invalidArgument "verified fact field set is invalid")
  else if factTextKeys.any fun key => (stringMember document key).isNone then
    some (factError .invalidArgument "verified fact member type is invalid")
  else if factNumberKeys.any fun key => (integerMember document key).isNone then
    some (factError .invalidArgument "verified fact number type is invalid")
  else if (document.find (ascii "scope")).all fun scope => !scopeFieldsValid scope then
    some (factError .invalidArgument "verified fact scope fields are invalid")
  else none

def parsePublishedTaskFact (event : EventEnvelope) : Result PublishedTaskFact :=
  if event.payload.type ≠ ascii "TaskFactVerified" ∨ 8192 < event.payload.data.length ∨
      event.payload.classification ≠ .critical then
    .error (factError .invalidArgument "verified fact envelope is invalid")
  else
    match parseJson event.payload.data with
    | .error _ => .error (factError .invalidArgument "verified fact payload is invalid")
    | .ok document =>
        if document.isObject = false then
          .error (factError .invalidArgument "verified fact payload is invalid")
        else
          match factShapeError document with
          | some reason => .error reason
          | none =>
              match factFrom event document with
              | none => .error (factError .invalidArgument "verified fact members are invalid")
              | some fact =>
                  match validatePublished fact with
                  | .error reason => .error reason
                  | .ok () =>
                      if event.runtimeId ≠ fact.runtime ∨ event.sessionId ≠ fact.session ∨
                          event.taskId ≠ some fact.claim.task then
                        .error (factError .dataLoss "verified fact envelope identity disagrees")
                      else .ok fact

variable {fact : PublishedTaskFact}

theorem parsePublishedTaskFact_validity {event : EventEnvelope}
    (parsed : parsePublishedTaskFact event = .ok fact) :
    0 < fact.claim.validFrom ∧ fact.claim.validFrom < fact.claim.validUntil := by
  unfold parsePublishedTaskFact at parsed
  split_ifs at parsed
  split at parsed
  · cases parsed
  · split_ifs at parsed
    split at parsed
    · cases parsed
    · split at parsed
      · cases parsed
      · next found _ =>
          split at parsed
          · cases parsed
          · next valid =>
              split_ifs at parsed
              cases parsed
              unfold validatePublished at valid
              dsimp only at valid
              split_ifs at valid with _ _ interval
              rw [not_or, not_or] at interval
              omega

/-- What the validation of a fact establishes. -/
structure ValidPublished (fact : PublishedTaskFact) : Prop where
  key : identifier fact.claim.key = true
  verifier : identifier fact.claim.verifier = true
  value : safeText fact.claim.value 1024 = true
  epochs : fact.claim.taskEpoch < 2 ^ 63 ∧ fact.claim.environmentEpoch < 2 ^ 63
  subject : safeText fact.scope.subjectId 256 = true
  tenant : ∀ tenant ∈ fact.scope.tenantId, safeText tenant 256 = true
  interval : 0 < fact.claim.validFrom ∧ fact.claim.validFrom < fact.claim.validUntil

theorem validatePublished_valid (valid : validatePublished fact = .ok ()) :
    ValidPublished fact := by
  simp only [validatePublished] at valid
  split at valid
  · cases valid
  · next identity =>
      split at valid
      · cases valid
      · next scope =>
          split at valid
          · cases valid
          · next interval =>
              simp only [not_or, Bool.not_eq_false, not_le] at identity scope interval
              obtain ⟨_, _, _, _, _, _, key, verifier, value, task, environment⟩ := identity
              refine ⟨key, verifier, value, ⟨task, environment⟩, scope.2.1, ?_,
                interval.1, interval.2.1⟩
              intro tenant held
              have safe := scope.2.2
              rw [held] at safe
              simpa using safe

variable {text : Bytes}

theorem identifier_plain (valid : identifier text = true) :
    text.length ≤ 128 ∧ ∀ c ∈ text, 32 ≤ c.toNat ∧ c.toNat < 128 := by
  simp only [identifier, Bool.and_eq_true, decide_eq_true_eq, List.all_eq_true] at valid
  refine ⟨valid.1.2, fun c present => ?_⟩
  have own := valid.2 c present
  simp only [isDigit, Bool.or_eq_true, Bool.and_eq_true, decide_eq_true_eq,
    UInt8.le_iff_toNat_le, UInt8.reduceToNat] at own
  rcases own with ((((lower | digit) | dot) | bar) | colon) | dash
  · omega
  · omega
  · rw [dot]
    decide
  · rw [bar]
    decide
  · rw [colon]
    decide
  · rw [dash]
    decide

theorem safeText_plain {bound : Nat} (valid : safeText text bound = true) :
    text.length ≤ bound ∧ ∀ c ∈ text, 32 ≤ c.toNat := by
  simp only [safeText, Bool.and_eq_true, decide_eq_true_eq, List.all_eq_true] at valid
  exact ⟨valid.1.2, fun c present => UInt8.le_iff_toNat_le.mp (valid.2 c present).1⟩

theorem payloadFor_data (fact : PublishedTaskFact) :
    (payloadFor fact).data = canonicalJsonString (.object (factMembers fact)) := rfl

theorem factKeys_plain : PlainKeys (factKeys.map ascii) := by decide

theorem factMembers_keys (fact : PublishedTaskFact) :
    (factMembers fact).map Prod.fst = factKeys.map ascii := rfl

def scopeMembers (scope : MemoryScope) : List (Bytes × JsonValue) :=
  [(ascii "kind", .string (ascii (memoryScopeKindName scope.kind))),
      (ascii "subject_id", .string scope.subjectId)] ++
    scope.tenantId.toList.map fun tenant => (ascii "tenant_id", .string tenant)

variable (scope : MemoryScope)

theorem memoryScopeToJson_eq :
    memoryScopeToJson scope = .object (scopeMembers scope) := rfl

theorem scopeKeys_plain : PlainKeys [ascii "kind", ascii "subject_id", ascii "tenant_id"] := by
  decide

theorem scopeMembers_keys :
    ((scopeMembers scope).map Prod.fst).Sublist
      [ascii "kind", ascii "subject_id", ascii "tenant_id"] := by
  cases tenant : scope.tenantId with
  | none =>
      simp only [scopeMembers, tenant, Option.toList_none, List.map_nil, List.append_nil]
      exact List.sublist_append_left [ascii "kind", ascii "subject_id"] [ascii "tenant_id"]
  | some text =>
      simp only [scopeMembers, tenant]
      exact List.Sublist.refl _

/-- The texts that the publisher takes from outside and does not restrict to ASCII. -/
def FactTextsUtf8 (fact : PublishedTaskFact) : Prop :=
  ValidUtf8 fact.claim.value ∧ ValidUtf8 fact.scope.subjectId ∧
    ∀ tenant ∈ fact.scope.tenantId, ValidUtf8 tenant

section Document
variable {fact : PublishedTaskFact} {levels : Nat} (valid : ValidPublished fact)
include valid

theorem scope_portable (utf8 : FactTextsUtf8 fact) :
    (memoryScopeToJson fact.scope).Portable {} (levels + 2) := by
  have kind : ∀ kind, (∀ b ∈ ascii (memoryScopeKindName kind), b.toNat < 128) ∧
      (ascii (memoryScopeKindName kind)).length < 1024 * 1024 := by
    intro kind
    cases kind <;> decide
  have subject := (safeText_plain valid.subject).1
  refine object_portable scopeKeys_plain (scopeMembers_keys fact.scope) (by decide) ?_
  simp only [List.forall_mem_append, List.forall_mem_cons, List.not_mem_nil, IsEmpty.forall_iff,
    implies_true, and_true, List.forall_mem_map, Option.mem_toList]
  refine ⟨⟨text_portable (validUtf8_printable_ascii _ (kind _).1) (kind _).2,
    text_portable utf8.2.1 (by omega)⟩, ?_⟩
  intro tenant held
  have short := (safeText_plain (valid.tenant tenant held)).1
  exact text_portable (utf8.2.2 tenant held) (by omega)

theorem factMembers_portable (small : fact.claim.validUntil < 2 ^ 63)
    (utf8 : FactTextsUtf8 fact) :
    (JsonValue.object (factMembers fact)).Portable {} (levels + 3) := by
  have named {text : Bytes} {levels : Nat} (named : identifier text = true) :
      (JsonValue.string text).Portable {} (levels + 1) := by
    obtain ⟨short, low⟩ := identifier_plain named
    exact text_portable (validUtf8_printable_ascii _ fun c present => (low c present).2) (by omega)
  have counter {epoch levels : Nat} (small : epoch < 2 ^ 63) :
      (JsonValue.integer (toInt64 epoch)).Portable {} (levels + 1) :=
    counter_portable (by omega) (by omega)
  have schema : (JsonValue.string factSchema).Portable {} (levels + 2) :=
    text_portable (validUtf8_printable_ascii _ (by decide)) (by decide)
  have digest : (JsonValue.string fact.claim.evidenceDigest.toString).Portable {} (levels + 2) :=
    hex_portable (Nat.le_of_eq fact.claim.evidenceDigest.size)
  have claim : (JsonValue.object [(ascii "key", .string fact.claim.key),
      (ascii "value", .string fact.claim.value)]).Portable {} (levels + 2) := by
    have plain : PlainKeys [ascii "key", ascii "value"] := by decide
    have short := (safeText_plain valid.value).1
    refine object_portable plain (.refl _) (by decide) ?_
    simp only [List.forall_mem_cons, List.not_mem_nil, IsEmpty.forall_iff, implies_true, and_true]
    exact ⟨named valid.key, text_portable utf8.1 (by omega)⟩
  obtain ⟨start, order⟩ := valid.interval
  refine object_portable factKeys_plain (factMembers_keys fact ▸ .refl _) (by decide) ?_
  simp only [factMembers, List.forall_mem_cons, List.not_mem_nil, IsEmpty.forall_iff, implies_true,
    and_true]
  exact ⟨schema, id_portable _, id_portable _, id_portable _, counter valid.epochs.1,
    counter valid.epochs.2, scope_portable valid utf8, claim, id_portable _, digest,
    named valid.verifier, .integer _ (by omega) (by omega), .integer _ (by omega) (by omega)⟩

theorem payloadFor_short (small : fact.claim.validUntil < 2 ^ 63) :
    (payloadFor fact).data.length ≤ 8192 := by
  have text {text : Bytes} {bound : Nat} (safe : safeText text bound = true) :
      (writeString text).length ≤ 2 * bound + 2 := by
    obtain ⟨short, plain⟩ := safeText_plain safe
    have written := length_writeString_le plain
    omega
  have named {text : Bytes} (named : identifier text = true) :
      (writeString text).length ≤ 258 := by
    obtain ⟨short, plain⟩ := identifier_plain named
    have written := length_writeString_le fun c present => (plain c present).1
    omega
  have hex (bytes : Bytes) : (writeString (toHex bytes)).length ≤ 4 * bytes.length + 2 := by
    have written := length_writeString_le (toHex_plain bytes)
    rw [length_toHex] at written
    omega
  have id {tag : IdTag} (id : StrongId tag) : (writeString id.toString).length ≤ 66 := by
    have written := hex id.value.bytes
    rw [id.value.size] at written
    exact written
  have number {value : Int} (low : 0 ≤ value) (high : value < 2 ^ 63) :
      (decimalInt value).length ≤ 19 := by
    rw [decimalInt, if_neg (by omega)]
    exact length_decimal_le (by decide) (by omega)
  have epoch {epoch : Nat} (small : epoch < 2 ^ 63) : (decimalInt (toInt64 epoch)).length ≤ 19 := by
    rw [toInt64_small small]
    exact number (by omega) (by omega)
  have scope : (writeValue true (memoryScopeToJson fact.scope)).length ≤ 1200 := by
    have kind : ∀ kind, (writeString (ascii (memoryScopeKindName kind))).length ≤ 20 := by
      intro kind
      cases kind <;> decide
    have kind_ := kind fact.scope.kind
    have subject := text valid.subject
    have keys : (writeString (ascii "kind")).length = 6 ∧
        (writeString (ascii "subject_id")).length = 12 ∧
        (writeString (ascii "tenant_id")).length = 11 := by
      decide
    have whole := length_object_le true (scopeMembers fact.scope)
    rw [memoryScopeToJson_eq]
    cases held : fact.scope.tenantId with
    | none =>
        simp only [scopeMembers, held, Option.toList_none, List.map_nil, List.append_nil,
          List.map_cons, List.sum_cons, List.sum_nil, writeValue] at whole ⊢
        omega
    | some tenant =>
        have tenant_ := text (valid.tenant tenant held)
        simp only [scopeMembers, held, Option.toList_some, List.map_cons, List.map_nil,
          List.cons_append, List.nil_append, List.sum_cons, List.sum_nil, writeValue] at whole ⊢
        omega
  have claim : (writeValue true (.object [(ascii "key", .string fact.claim.key),
      (ascii "value", .string fact.claim.value)])).length ≤ 2400 := by
    have key := named valid.key
    have value := text valid.value
    have keys : (writeString (ascii "key")).length = 5 ∧
        (writeString (ascii "value")).length = 7 := by
      decide
    have whole := length_object_le true [(ascii "key", .string fact.claim.key),
      (ascii "value", .string fact.claim.value)]
    simp only [List.map_cons, List.map_nil, List.sum_cons, List.sum_nil] at whole
    rw [writeValue, writeValue] at whole
    omega
  have keys : ((factKeys.map ascii).map fun key => (writeString key).length + 2).sum ≤ 300 := by
    decide
  have schema : (writeString factSchema).length ≤ 66 := by decide
  have runtime := id fact.runtime
  have session := id fact.session
  have task := id fact.claim.task
  have evidence := id fact.claim.evidenceEvent
  have digest : (writeString fact.claim.evidenceDigest.toString).length ≤ 130 := by
    have written := hex fact.claim.evidenceDigest.bytes
    rw [fact.claim.evidenceDigest.size] at written
    exact written
  have verifier := named valid.verifier
  have taskEpoch := epoch valid.epochs.1
  have environmentEpoch := epoch valid.epochs.2
  obtain ⟨start, order⟩ := valid.interval
  have from_ := number start.le (order.trans small)
  have until_ := number (start.trans order).le small
  have string_ (text : Bytes) : writeValue true (.string text) = writeString text := by
    rw [writeValue]
  have integer_ (value : Int) : writeValue true (.integer value) = decimalInt value := by
    rw [writeValue]
  have whole := length_object_le true (factMembers fact)
  rw [payloadFor_data, canonicalJsonString]
  rw [factMembers_keys] at whole
  simp only [factMembers, List.map_cons, List.map_nil, List.sum_cons, List.sum_nil, string_,
    integer_] at whole ⊢
  omega

end Document

def readDocument (fact : PublishedTaskFact) : JsonValue :=
  (JsonValue.object (factMembers fact)).arrange true

section Lookups
variable {fact : PublishedTaskFact}

variable {key : String} (index : Nat)

theorem find_fact {value : JsonValue}
    (listed : (factMembers fact)[index]? = some (ascii key, value)) :
    (readDocument fact).find (ascii key) = some (value.arrange true) := by
  have distinct := (factMembers_keys fact).symm ▸ factKeys_plain.1
  rw [readDocument, JsonValue.find_arrange true distinct,
    (JsonValue.find_eq_some_iff distinct _ _).mpr (List.mem_of_getElem? listed)]
  rfl

theorem stringMember_fact {text : Bytes}
    (listed : (factMembers fact)[index]? = some (ascii key, .string text)) :
    stringMember (readDocument fact) key = some text := by
  rw [stringMember, find_fact index listed]
  rfl

theorem integerMember_fact {value : Int}
    (listed : (factMembers fact)[index]? = some (ascii key, .integer value)) :
    integerMember (readDocument fact) key = some value := by
  rw [integerMember, find_fact index listed]
  rfl

theorem readDocument_object :
    (readDocument fact).asObject.map List.length = some factKeys.length := by
  have length := (orderMembers_perm true (arrangeMembers true (factMembers fact))).length_eq
  simp only [readDocument, JsonValue.arrange, JsonValue.asObject, Option.map_some, length]
  rfl

theorem readDocument_keys :
    (factKeys.any fun key => ((readDocument fact).find (ascii key)).isNone) = false := by
  rw [List.any_eq_false]
  intro key present
  have listed : ascii key ∈ (factMembers fact).map Prod.fst :=
    (factMembers_keys fact).symm ▸ List.mem_map_of_mem present
  obtain ⟨member, held, same⟩ := List.mem_map.mp listed
  obtain ⟨index, found⟩ := List.mem_iff_getElem?.mp held
  have own : (factMembers fact)[index]? = some (ascii key, member.2) := by
    rw [found, ← same]
  rw [find_fact index own]
  exact Bool.false_ne_true

variable (scope : MemoryScope)

theorem scope_arranged : (memoryScopeToJson scope).arrange true = memoryScopeToJson scope := by
  obtain ⟨kind, subject, tenant⟩ := scope
  cases tenant with
  | none => rfl
  | some tenant => rfl

theorem claim_arranged (key value : Bytes) :
    (JsonValue.object [(ascii "key", .string key), (ascii "value", .string value)]).arrange true =
      .object [(ascii "key", .string key), (ascii "value", .string value)] := rfl

theorem scopeFieldsValid_scope : scopeFieldsValid (memoryScopeToJson scope) = true := by
  obtain ⟨kind, subject, tenant⟩ := scope
  cases tenant with
  | none => rfl
  | some tenant => rfl

theorem memoryScopeFromJson_scope : memoryScopeFromJson (memoryScopeToJson scope) = some scope := by
  have kind_from : ∀ kind, memoryScopeKindFrom (ascii (memoryScopeKindName kind)) = some kind := by
    intro kind
    cases kind <;> decide
  obtain ⟨kind, subject, tenant⟩ := scope
  have named : stringMember (memoryScopeToJson ⟨kind, subject, tenant⟩) "kind" =
      some (ascii (memoryScopeKindName kind)) := rfl
  have about : stringMember (memoryScopeToJson ⟨kind, subject, tenant⟩) "subject_id" =
      some subject := rfl
  have held : stringMember (memoryScopeToJson ⟨kind, subject, tenant⟩) "tenant_id" = tenant := by
    cases tenant with
    | none => rfl
    | some tenant => rfl
  have object_ : (memoryScopeToJson ⟨kind, subject, tenant⟩).isObject = true := rfl
  simp only [memoryScopeFromJson, object_, named, about, held, kind_from, Bool.true_eq_false,
    if_false, Option.map_some, Option.getD_some]

theorem factShapeError_document : factShapeError (readDocument fact) = none := by
  have scope : (readDocument fact).find (ascii "scope") = some (memoryScopeToJson fact.scope) := by
    rw [find_fact 6 rfl, scope_arranged]
  have texts : (factTextKeys.any fun key =>
      (stringMember (readDocument fact) key).isNone) = false := by
    simp only [factTextKeys, List.any_cons, List.any_nil, stringMember_fact 1 rfl,
      stringMember_fact 2 rfl, stringMember_fact 3 rfl, stringMember_fact 8 rfl,
      stringMember_fact 9 rfl, stringMember_fact 10 rfl]
    rfl
  have numbers : (factNumberKeys.any fun key =>
      (integerMember (readDocument fact) key).isNone) = false := by
    simp only [factNumberKeys, List.any_cons, List.any_nil, integerMember_fact 4 rfl,
      integerMember_fact 5 rfl, integerMember_fact 11 rfl, integerMember_fact 12 rfl]
    rfl
  have schema : stringMember (readDocument fact) "schema" = some factSchema :=
    stringMember_fact 0 rfl
  simp only [factShapeError, schema, readDocument_object, readDocument_keys, texts, numbers, scope,
    Option.all_some, scopeFieldsValid_scope]
  rfl

theorem factFrom_document (valid : ValidPublished fact) {event : EventEnvelope}
    (published : event.eventId = fact.claim.publicationId) :
    factFrom event (readDocument fact) = some fact := by
  have scope : (readDocument fact).find (ascii "scope") = some (memoryScopeToJson fact.scope) := by
    rw [find_fact 6 rfl, scope_arranged]
  have claim : (readDocument fact).find (ascii "claim") = some (.object
      [(ascii "key", .string fact.claim.key), (ascii "value", .string fact.claim.value)]) := by
    rw [find_fact 7 rfl, claim_arranged]
  have key : stringMember (.object [(ascii "key", .string fact.claim.key),
      (ascii "value", .string fact.claim.value)]) "key" = some fact.claim.key := rfl
  have value : stringMember (.object [(ascii "key", .string fact.claim.key),
      (ascii "value", .string fact.claim.value)]) "value" = some fact.claim.value := rfl
  simp only [factFrom, stringMember_fact 1 rfl, stringMember_fact 2 rfl, stringMember_fact 3 rfl,
    stringMember_fact 8 rfl, stringMember_fact 9 rfl, stringMember_fact 10 rfl,
    integerMember_fact 4 rfl, integerMember_fact 5 rfl, integerMember_fact 11 rfl,
    integerMember_fact 12 rfl, scope, claim, key, value, Option.getD_some,
    StrongId.parse_toString, digestFromHex_toString, Option.bind_eq_bind, Option.bind_some,
    memoryScopeFromJson_scope, toInt64_small valid.epochs.1, toInt64_small valid.epochs.2,
    Int.toNat_natCast, published]
  simp [guard, JsonValue.asObject]

end Lookups

end Mira.Checkpoint
