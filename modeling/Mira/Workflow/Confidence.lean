import Mira.Json.Nearest
import Mira.Library.Execution
import Mira.Model.Schema
import Mira.Workflow.Decoded

/-!
The confidence of a state or a transition of an app model: its document form, and how the outcomes
that are observed move it. The counts are words of 32 bits.
-/

namespace Mira.Workflow
open Mira Bytes

inductive AppModelSource
  | host | agent | trajectory
  deriving DecidableEq

def AppModelSource.name : AppModelSource → Bytes
  | .host => ascii "host"
  | .agent => ascii "agent"
  | .trajectory => ascii "trajectory"

def parseAppModelSource (name : Bytes) : Option AppModelSource :=
  [AppModelSource.host, .agent, .trajectory].find? fun source => source.name = name

structure ConfidenceRecord where
  /-- There is none where a quotient is not finite. -/
  confidence : Option Rat := some (1 / 2)
  observedAtMs : UInt64 := 0
  lastVerifiedMs : UInt64 := 0
  verifiedCount : UInt32 := 0
  failureCount : UInt32 := 0
  source : AppModelSource := .host

def appModelErrorOf (code : ErrorCode) (detail : Bytes) : WorkflowError :=
  { code := code, safeMessage := ascii "app model: " ++ detail }

def requireModel (condition : Bool) (detail : String) (code : ErrorCode := .invalidArgument) :
    WorkflowResult Unit :=
  if condition then .ok () else .error (appModelErrorOf code (ascii detail))

def expectModel {α : Type} (found : Option α) (detail : String) : WorkflowResult α :=
  match found with
  | some value => .ok value
  | none => .error (appModelErrorOf .invalidArgument (ascii detail))

def checkModelMember (known : List String) (place : String) (name : Bytes) : WorkflowResult Unit :=
  if known.any fun key => ascii key = name then .ok ()
  else
    .error (appModelErrorOf .unsupportedVersion
      (ascii place ++ ascii ": unknown field '" ++ name ++ ascii "'"))

/-- `check_keys` with the errors of the app model. -/
def checkModelKeys (document : JsonValue) (required optional : List String) (place : String) :
    WorkflowResult Unit :=
  match document with
  | .object members => do
      members.forM fun member => checkModelMember (required ++ optional) place member.1
      required.forM fun key =>
        requireModel (document.find (ascii key)).isSome
          (place ++ ": missing field '" ++ key ++ "'")
  | _ => .error (appModelErrorOf .invalidArgument (ascii place ++ ascii " must be an object"))

def wordMember (document : JsonValue) (key : String) : Option Int64 :=
  (integerMember document key).map Int64.ofInt

def parseTimeMember (document : JsonValue) (key place : String) : WorkflowResult UInt64 := do
  let value ← expectModel (wordMember document key)
    (place ++ ": '" ++ key ++ "' must be an integer")
  requireModel (0 ≤ value.toInt) (place ++ ": '" ++ key ++ "' must be non-negative")
  pure value.toUInt64

def parseCountMember (document : JsonValue) (key place : String) : WorkflowResult UInt32 := do
  let value ← expectModel (wordMember document key)
    (place ++ ": '" ++ key ++ "' must be an integer")
  requireModel (0 ≤ value.toInt && value.toInt ≤ 4294967295)
    (place ++ ": '" ++ key ++ "' is out of range")
  pure value.toUInt64.toUInt32

def parseUnitMember (document : JsonValue) (key place : String) : WorkflowResult Rat := do
  let value ← expectModel ((document.find (ascii key)).bind JsonValue.asNumber)
    (place ++ ": '" ++ key ++ "' must be a number")
  requireModel (0 ≤ value && value ≤ 1) (place ++ ": '" ++ key ++ "' must be within [0,1]")
  pure value

def confidenceKeys : List String :=
  ["confidence", "observed_at_ms", "last_verified_ms", "verified_count", "failure_count", "source"]

def parseConfidence (maxStringBytes : Nat) (document : JsonValue) :
    WorkflowResult ConfidenceRecord := do
  checkModelKeys document confidenceKeys [] "confidence"
  let confidence ← parseUnitMember document "confidence" "confidence"
  let observedAtMs ← parseTimeMember document "observed_at_ms" "confidence"
  let lastVerifiedMs ← parseTimeMember document "last_verified_ms" "confidence"
  let verifiedCount ← parseCountMember document "verified_count" "confidence"
  let failureCount ← parseCountMember document "failure_count" "confidence"
  let name ← expectModel (boundedString (memberOf document "source") maxStringBytes)
    "confidence source must be bounded"
  let source ← expectModel (parseAppModelSource name) "confidence source is unknown"
  pure
    { confidence := some confidence
      observedAtMs := observedAtMs
      lastVerifiedMs := lastVerifiedMs
      verifiedCount := verifiedCount
      failureCount := failureCount
      source := source }

/-- A confidence that is not finite has no document that a parser reads. -/
def confidenceToJson (record : ConfidenceRecord) : Option JsonValue :=
  record.confidence.map fun confidence =>
    objectOf
      [("confidence", some (.number confidence)),
        ("observed_at_ms", some (.integer record.observedAtMs.toInt64.toInt)),
        ("last_verified_ms", some (.integer record.lastVerifiedMs.toInt64.toInt)),
        ("verified_count", some (.integer record.verifiedCount.toNat)),
        ("failure_count", some (.integer record.failureCount.toNat)),
        ("source", some (.string record.source.name))]

def quotientOfWords (numerator denominator : UInt32) : Option Rat :=
  if denominator = 0 then none
  else if numerator = 0 then some 0
  else roundBinary64 (numerator.toNat / denominator.toNat)

def noteTransitionOutcome (record : ConfidenceRecord) (success : Bool) (nowMs : UInt64) :
    ConfidenceRecord :=
  let counted :=
    if success then
      { record with verifiedCount := record.verifiedCount + 1, lastVerifiedMs := nowMs }
    else { record with failureCount := record.failureCount + 1 }
  { counted with
    observedAtMs := nowMs
    confidence :=
      quotientOfWords (counted.verifiedCount + 1)
        (counted.verifiedCount + counted.failureCount + 2) }

structure TransitionOutcome where
  success : Bool
  nowMs : UInt64

def noteStep (record : ConfidenceRecord) (outcome : TransitionOutcome) : ConfidenceRecord × Unit :=
  (noteTransitionOutcome record outcome.success outcome.nowMs, ())

def noteOutcomes (record : ConfidenceRecord) (outcomes : List TransitionOutcome) :
    ConfidenceRecord :=
  Execution.run noteStep record outcomes

/-- The ratio of the counts as they are without a limit. -/
def smoothed (verified failures : Nat) : Rat := (verified + 1) / (verified + failures + 2)

section
variable {verified failures : Nat}

theorem smoothed_unit (small : verified + failures + 2 < 2 ^ 32) :
    (2 : Rat) ^ (-1022 : Int) ≤ smoothed verified failures ∧ smoothed verified failures ≤ 1 := by
  have denominator : (0 : Rat) < verified + failures + 2 := by positivity
  have bound : (verified + failures + 2 : Rat) ≤ 2 ^ 32 := by exact_mod_cast small.le
  have some_ : (0 : Rat) ≤ verified := Nat.cast_nonneg _
  have some' : (0 : Rat) ≤ failures := Nat.cast_nonneg _
  rw [smoothed, le_div_iff₀ denominator, div_le_one₀ denominator]
  refine ⟨?_, by linarith⟩
  have tiny : (2 : Rat) ^ (-1022 : Int) * 2 ^ 32 ≤ 1 := by
    rw [← zpow_natCast, ← zpow_add₀ (by norm_num)]
    exact zpow_le_one_of_nonpos₀ (by norm_num) (by norm_num)
  have step := mul_le_mul_of_nonneg_left bound
    (zpow_pos (by norm_num : (0 : Rat) < 2) (-1022)).le
  linarith

theorem round_smoothed (small : verified + failures + 2 < 2 ^ 32) :
    roundBinary64 (smoothed verified failures) = some (nearest (smoothed verified failures)) :=
  roundBinary64_eq (smoothed_unit small).1 (smoothed_unit small).2

theorem smoothed_pos (verified failures : Nat) : 0 < smoothed verified failures := by
  rw [smoothed]
  positivity

theorem smoothed_success (verified failures : Nat) :
    smoothed verified failures ≤ smoothed (verified + 1) failures := by
  have some_ : (0 : Rat) ≤ failures := Nat.cast_nonneg _
  rw [smoothed, smoothed, div_le_div_iff₀ (by positivity) (by positivity)]
  push_cast
  nlinarith

theorem smoothed_failure (verified failures : Nat) :
    smoothed verified (failures + 1) ≤ smoothed verified failures := by
  have some_ : (0 : Rat) ≤ verified := Nat.cast_nonneg _
  rw [smoothed, smoothed, div_le_div_iff₀ (by positivity) (by positivity)]
  push_cast
  nlinarith

end

/-- Where nothing wraps, the quotient of the words is that of the counts. -/
theorem quotient_smoothed {verified failures : UInt32}
    (small : verified.toNat + failures.toNat + 2 < 2 ^ 32) :
    verified + failures + 2 ≠ 0 ∧
      quotientOfWords (verified + 1) (verified + failures + 2) =
        roundBinary64 (smoothed verified.toNat failures.toNat) := by
  have numerator : (verified + 1).toNat = verified.toNat + 1 := by
    rw [UInt32.toNat_add, UInt32.toNat_one, Nat.mod_eq_of_lt (by omega)]
  have denominator : (verified + failures + 2).toNat = verified.toNat + failures.toNat + 2 := by
    have two : (2 : UInt32).toNat = 2 := rfl
    rw [UInt32.toNat_add, UInt32.toNat_add, two, Nat.mod_add_mod, Nat.mod_eq_of_lt small]
  have some_ : verified + failures + 2 ≠ 0 := by
    intro none_
    rw [none_, UInt32.toNat_zero] at denominator
    omega
  have some' : verified + 1 ≠ 0 := by
    intro none_
    rw [none_, UInt32.toNat_zero] at numerator
    omega
  refine ⟨some_, ?_⟩
  rw [quotientOfWords, if_neg some_, if_neg some', numerator, denominator, smoothed]
  push_cast
  rfl

@[simp]
theorem requireModel_ok {condition : Bool} {detail : String} {code : ErrorCode} {passed : Unit} :
    requireModel condition detail code = .ok passed ↔ condition = true := by
  cases condition <;> simp [requireModel]

@[simp]
theorem expectModel_ok {α : Type} {found : Option α} {detail : String} {value : α} :
    expectModel found detail = .ok value ↔ found = some value := by
  cases found <;> simp [expectModel]

/-- The records that a document holds: finite, with times that an integer of JSON keeps. -/
structure Storable (maxStringBytes : Nat) (record : ConfidenceRecord) : Prop where
  unit : ∃ value, record.confidence = some value ∧ 0 ≤ value ∧ value ≤ 1
  observed : record.observedAtMs.toNat < 2 ^ 63
  verified : record.lastVerifiedMs.toNat < 2 ^ 63
  source : record.source.name.length ≤ maxStringBytes

variable {maxStringBytes : Nat} {document : JsonValue} {record : ConfidenceRecord}

theorem toInt_of_small {word : UInt64} (small : word.toNat < 2 ^ 63) :
    word.toInt64.toInt = word.toNat :=
  BitVec.toInt_eq_toNat_of_lt (x := word.toBitVec) (by
    rw [UInt64.toNat_toBitVec]
    omega)

theorem toNat_of_nonneg {value : Int64} (nonneg : 0 ≤ value.toInt) :
    value.toUInt64.toNat < 2 ^ 63 := by
  rw [← Int64.toInt_toBitVec, BitVec.toInt_eq_toNat_cond] at nonneg
  rw [← UInt64.toNat_toBitVec, Int64.toBitVec_toUInt64]
  split at nonneg <;> omega

theorem time_back (word : UInt64) : (Int64.ofInt word.toInt64.toInt).toUInt64 = word := by simp

theorem count_back (word : UInt32) :
    0 ≤ (Int64.ofInt word.toNat).toInt ∧ (Int64.ofInt word.toNat).toInt ≤ 4294967295 ∧
      (Int64.ofInt word.toNat).toUInt64.toUInt32 = word := by
  have small := word.toNat_lt
  rw [Int64.toInt_ofInt_of_le (by omega) (by omega)]
  refine ⟨by omega, by omega, UInt32.toNat_inj.mp ?_⟩
  rw [UInt64.toNat_toUInt32, ← UInt64.toNat_toBitVec, Int64.toBitVec_toUInt64,
    Int64.toBitVec_ofInt, BitVec.toNat_ofInt]
  omega

theorem parseAppModelSource_some {name : Bytes} {source : AppModelSource}
    (parsed : parseAppModelSource name = some source) : source.name = name := by
  simpa using List.find?_some parsed

theorem parseConfidence_storable (parsed : parseConfidence maxStringBytes document = .ok record) :
    Storable maxStringBytes record := by
  simp only [parseConfidence, parseUnitMember, parseTimeMember, Checked.bind_ok_iff,
    requireModel_ok, expectModel_ok, pure, Except.pure, Except.ok.injEq] at parsed
  obtain ⟨_, _, value, ⟨_, _, _, unit, rfl⟩, observed, ⟨_, _, _, seen, rfl⟩, verified,
    ⟨_, _, _, sound, rfl⟩, _, _, _, _, name, bounded, source, named, rfl⟩ := parsed
  rw [Bool.and_eq_true, decide_eq_true_eq, decide_eq_true_eq] at unit
  refine ⟨⟨_, rfl, unit.1, unit.2⟩, toNat_of_nonneg (of_decide_eq_true seen),
    toNat_of_nonneg (of_decide_eq_true sound), ?_⟩
  have short := (Option.filter_eq_some_iff.mp bounded).2
  rw [parseAppModelSource_some named]
  rw [Bool.and_eq_true] at short
  exact of_decide_eq_true short.2

/-- An object that is written from all of its fields passes the check of its keys. -/
theorem checkModelKeys_full (fields : List (String × JsonValue)) (place : String) :
    checkModelKeys (objectOf (fields.map fun field => (field.1, some field.2)))
      (fields.map Prod.fst) [] place = .ok () := by
  have members : fieldMembers (fields.map fun field => (field.1, some field.2)) =
      fields.map fun field => (ascii field.1, field.2) := by
    simp [fieldMembers]
  rw [objectOf, members, checkModelKeys]
  refine Checked.bind_ok_iff.mpr ⟨(), ?_, ?_⟩
  · rw [Checked.forM_ok_iff]
    intro member among
    obtain ⟨field, held, rfl⟩ := List.mem_map.mp among
    rw [checkModelMember, if_pos]
    rw [List.append_nil, List.any_map, List.any_eq_true]
    exact ⟨field, held, decide_eq_true rfl⟩
  · rw [Checked.forM_ok_iff]
    intro key among
    obtain ⟨field, held, rfl⟩ := List.mem_map.mp among
    rw [requireModel_ok, JsonValue.find, Option.isSome_map, List.find?_isSome]
    exact ⟨_, List.mem_map_of_mem held, decide_eq_true rfl⟩

theorem parseConfidence_toJson (storable : Storable maxStringBytes record) :
    ∃ document, confidenceToJson record = some document ∧
      parseConfidence maxStringBytes document = .ok record := by
  obtain ⟨value, finite, low, high⟩ := storable.unit
  have named : parseAppModelSource record.source.name = some record.source := by
    cases record.source <;> decide
  have given : boundedString (.string record.source.name) maxStringBytes =
      some record.source.name := by
    rw [boundedString, JsonValue.asString, Option.filter_some, if_pos]
    rw [Bool.and_eq_true]
    refine ⟨?_, decide_eq_true storable.source⟩
    cases record.source <;> decide
  obtain ⟨low_, high_, verified⟩ := count_back record.verifiedCount
  obtain ⟨low', high', failures⟩ := count_back record.failureCount
  refine ⟨_, by rw [confidenceToJson, finite, Option.map_some], ?_⟩
  simp only [parseConfidence, parseUnitMember, parseTimeMember, parseCountMember, wordMember,
    Checked.bind_ok_iff, requireModel_ok, expectModel_ok, pure, Except.pure, Except.ok.injEq,
    integerMember, memberOf, find_objectOf_cons, String.reduceEq, if_true, if_false, Option.some_or,
    Option.bind_some, Option.map_some, JsonValue.asNumber, Option.getD_some, given, Option.some.injEq]
  refine ⟨(), ?_, value, ⟨value, rfl, (), by simp [low, high], rfl⟩, _, ⟨_, rfl, (), ?_, rfl⟩, _,
    ⟨_, rfl, (), ?_, rfl⟩, _, ⟨_, rfl, (), by simp only [low_, high_, decide_true, Bool.and_self],
      rfl⟩, _, ⟨_, rfl, (), by simp only [low', high', decide_true, Bool.and_self], rfl⟩, _, rfl, _,
    named, ?_⟩
  · exact checkModelKeys_full
      [("confidence", .number value), ("observed_at_ms", _), ("last_verified_ms", _),
        ("verified_count", _), ("failure_count", _), ("source", _)] "confidence"
  · rw [Int64.ofInt_toInt, toInt_of_small storable.observed]
    exact decide_eq_true (Int.natCast_nonneg _)
  · rw [Int64.ofInt_toInt, toInt_of_small storable.verified]
    exact decide_eq_true (Int.natCast_nonneg _)
  · rw [time_back, time_back, verified, failures, ← finite]

/-- The counts have room for one more outcome, and its time is one that a document keeps. -/
def Recordable (record : ConfidenceRecord) (outcome : TransitionOutcome) : Prop :=
  record.verifiedCount.toNat + record.failureCount.toNat + 3 < 2 ^ 32 ∧
    outcome.nowMs.toNat < 2 ^ 63

instance (record : ConfidenceRecord) (outcome : TransitionOutcome) :
    Decidable (Recordable record outcome) :=
  inferInstanceAs (Decidable (_ ∧ _))

def successes (outcomes : List TransitionOutcome) : Nat :=
  outcomes.countP TransitionOutcome.success

/-- The confidence is the ratio of the counts that the record holds. -/
def Smoothed (record : ConfidenceRecord) : Prop :=
  record.confidence =
    roundBinary64 (smoothed record.verifiedCount.toNat record.failureCount.toNat)

/-- What an outcome leaves of a record: the counts are those of all outcomes that were seen. -/
structure Learned (maxStringBytes : Nat) (start : ConfidenceRecord)
    (seen : List TransitionOutcome) (last : TransitionOutcome)
    (before after : ConfidenceRecord) : Prop where
  divisor : after.verifiedCount + after.failureCount + 2 ≠ 0
  ratio : after.confidence =
    roundBinary64 (smoothed (start.verifiedCount.toNat + successes seen)
      (start.failureCount.toNat + (seen.length - successes seen)))
  moves : ∃ old new, before.confidence = some old ∧ after.confidence = some new ∧
    0 ≤ new ∧ new ≤ 1 ∧ if last.success then old ≤ new else new ≤ old
  readable : ∃ document, confidenceToJson after = some document ∧
    parseConfidence maxStringBytes document = .ok after

/-- What a run keeps of its record. -/
structure Tracks (maxStringBytes : Nat) (start : ConfidenceRecord)
    (seen : List TransitionOutcome) (record : ConfidenceRecord) : Prop where
  verified : record.verifiedCount.toNat = start.verifiedCount.toNat + successes seen
  failures : record.failureCount.toNat =
    start.failureCount.toNat + (seen.length - successes seen)
  smoothed : Smoothed record
  observed : record.lastVerifiedMs.toNat < 2 ^ 63
  source : record.source.name.length ≤ maxStringBytes

variable {start : ConfidenceRecord} {seen : List TransitionOutcome} {last : TransitionOutcome}

theorem note_counts (room : Recordable record last) :
    (noteStep record last).1.verifiedCount.toNat =
        record.verifiedCount.toNat + last.success.toNat ∧
      (noteStep record last).1.failureCount.toNat =
        record.failureCount.toNat + (!last.success).toNat := by
  obtain ⟨small, _⟩ := room
  have one : (1 : UInt32).toNat = 1 := rfl
  rw [noteStep, noteTransitionOutcome]
  cases last.success with
  | true =>
      refine ⟨?_, rfl⟩
      rw [if_pos rfl, UInt32.toNat_add, one]
      exact Nat.mod_eq_of_lt (by omega)
  | false =>
      refine ⟨rfl, ?_⟩
      rw [if_neg Bool.false_ne_true, UInt32.toNat_add, one]
      exact Nat.mod_eq_of_lt (by omega)

theorem note_smoothed (room : Recordable record last) :
    (noteStep record last).1.verifiedCount + (noteStep record last).1.failureCount + 2 ≠ 0 ∧
      Smoothed (noteStep record last).1 := by
  obtain ⟨verified, failures⟩ := note_counts room
  have shares : last.success.toNat + (!last.success).toNat = 1 := by cases last.success <;> rfl
  obtain ⟨small, _⟩ := room
  exact quotient_smoothed (by omega)

/-- The confidence before and after an outcome. -/
theorem note_moves (smoothed_ : Smoothed record) (room : Recordable record last) :
    ∃ old new, record.confidence = some old ∧ (noteStep record last).1.confidence = some new ∧
      0 ≤ new ∧ new ≤ 1 ∧ if last.success then old ≤ new else new ≤ old := by
  obtain ⟨verified, failures⟩ := note_counts room
  have after := (note_smoothed room).2
  obtain ⟨small, _⟩ := room
  have old := round_smoothed (by omega :
    record.verifiedCount.toNat + record.failureCount.toNat + 2 < 2 ^ 32)
  have shares : last.success.toNat + (!last.success).toNat = 1 := by cases last.success <;> rfl
  have bound : (noteStep record last).1.verifiedCount.toNat +
      (noteStep record last).1.failureCount.toNat + 2 < 2 ^ 32 := by omega
  have unit := nearest_unit (smoothed_pos _ _) (smoothed_unit bound).2
  refine ⟨_, _, smoothed_.trans old, after.trans (round_smoothed bound), unit.1, unit.2, ?_⟩
  rw [verified, failures]
  cases last.success with
  | true => exact nearest_mono (smoothed_pos _ _) (smoothed_success _ _)
  | false => exact nearest_mono (smoothed_pos _ _) (smoothed_failure _ _)

theorem Tracks.note (tracks : Tracks maxStringBytes start seen record)
    (room : Recordable record last) :
    Tracks maxStringBytes start (seen ++ [last]) (noteStep record last).1 ∧
      Learned maxStringBytes start (seen ++ [last]) last record (noteStep record last).1 := by
  obtain ⟨verified, failures⟩ := note_counts room
  obtain ⟨divisor, after⟩ := note_smoothed room
  obtain ⟨old, new, held, made, low, high, moves⟩ := note_moves tracks.smoothed room
  have counted : successes (seen ++ [last]) = successes seen + last.success.toNat := by
    rw [successes, List.countP_append, List.countP_singleton]
    cases last.success <;> rfl
  have within : successes seen ≤ seen.length := List.countP_le_length
  have length : (seen ++ [last]).length = seen.length + 1 := by simp
  have shares : last.success.toNat + (!last.success).toNat = 1 := by cases last.success <;> rfl
  rw [tracks.verified, Nat.add_assoc, ← counted] at verified
  rw [tracks.failures] at failures
  have failures' : (noteStep record last).1.failureCount.toNat = start.failureCount.toNat +
      ((seen ++ [last]).length - successes (seen ++ [last])) := by omega
  have observed : (noteStep record last).1.lastVerifiedMs.toNat < 2 ^ 63 := by
    rw [noteStep, noteTransitionOutcome]
    cases last.success with
    | true => exact room.2
    | false => exact tracks.observed
  have source : (noteStep record last).1.source = record.source := by
    rw [noteStep, noteTransitionOutcome]
    cases last.success <;> rfl
  have short : (noteStep record last).1.source.name.length ≤ maxStringBytes :=
    source ▸ tracks.source
  refine ⟨⟨verified, failures', after, observed, short⟩, divisor, ?_,
    ⟨old, new, held, made, low, high, moves⟩, ?_⟩
  · rw [← verified, ← failures']
    exact after
  · exact parseConfidence_toJson ⟨⟨new, made, low, high⟩, room.2, observed, short⟩

theorem Tracks.run (tracks : Tracks maxStringBytes start seen record)
    {outcomes : List TransitionOutcome}
    (recordable : Execution.Guarded noteStep Recordable record outcomes)
    {before after : List TransitionOutcome} (whole : outcomes = before ++ last :: after) :
    Learned maxStringBytes start (seen ++ before ++ [last]) last (noteOutcomes record before)
      (noteOutcomes record (before ++ [last])) := by
  induction before generalizing seen record outcomes with
  | nil =>
      subst whole
      rw [List.append_nil]
      exact (tracks.note recordable.1).2
  | cons first before ih =>
      subst whole
      have later := ih (tracks.note recordable.1).1 recordable.2 rfl
      rw [List.append_assoc seen] at later
      exact later

/-- From a record that a document holds and whose confidence is the ratio of its counts, every
outcome of a run leaves the ratio of the counts of all outcomes, moves the confidence its way and
leaves a record that is read again, as long as the counts have room. -/
theorem confidence_learned (maxStringBytes : Nat) (document : JsonValue)
    (record : ConfidenceRecord) (outcomes : List TransitionOutcome)
    (parsed : parseConfidence maxStringBytes document = .ok record) (smoothed_ : Smoothed record)
    (recordable : Execution.Guarded noteStep Recordable record outcomes) :
    ∀ before last after, outcomes = before ++ last :: after →
      Learned maxStringBytes record (before ++ [last]) last (noteOutcomes record before)
        (noteOutcomes record (before ++ [last])) := by
  intro before last after whole
  have storable := parseConfidence_storable parsed
  have tracks : Tracks maxStringBytes record [] record :=
    ⟨rfl, rfl, smoothed_, storable.verified, storable.source⟩
  exact tracks.run recordable whole

def tiredRecord : ConfidenceRecord :=
  { verifiedCount := 2147483647, failureCount := 2147483646 }

theorem tired_record_lost :
    (∃ document, parseConfidence 8192 document = .ok tiredRecord) ∧
      (noteOutcomes tiredRecord [⟨true, 1000⟩]).verifiedCount +
        (noteOutcomes tiredRecord [⟨true, 1000⟩]).failureCount + 2 = 0 ∧
      confidenceToJson (noteOutcomes tiredRecord [⟨true, 1000⟩]) = none := by
  refine ⟨?_, by decide +kernel, rfl⟩
  obtain ⟨document, _, parsed⟩ := parseConfidence_toJson
    (⟨⟨1 / 2, rfl, by norm_num, by norm_num⟩, by decide, by decide, by decide⟩ :
      Storable 8192 tiredRecord)
  exact ⟨document, parsed⟩

/-- A record without evidence learns from a success and a failure. -/
theorem fresh_record_learns :
    Learned 8192 {} ([⟨true, 1000⟩] ++ [⟨false, 2000⟩]) ⟨false, 2000⟩
      (noteOutcomes {} [⟨true, 1000⟩]) (noteOutcomes {} ([⟨true, 1000⟩] ++ [⟨false, 2000⟩])) := by
  obtain ⟨document, _, parsed⟩ := parseConfidence_toJson
    (⟨⟨1 / 2, rfl, by norm_num, by norm_num⟩, by decide, by decide, by decide⟩ :
      Storable 8192 {})
  exact confidence_learned 8192 document {} [⟨true, 1000⟩, ⟨false, 2000⟩] parsed
    (by rw [Smoothed]; decide +kernel) (by decide) [⟨true, 1000⟩] ⟨false, 2000⟩ [] rfl

end Mira.Workflow
