import Mira.Interaction.Ledger
import Mira.Json.Canonical

/-!
The stream of the ledger. A record that the parser can read replays to what was written in
it, and over a log in order the pages of the rebuild are one pass over the stream.
-/

namespace Mira.Interaction
open Mira Bytes Events

/-- A record that the parser can read. -/
structure Legible (members : Members) : Prop where
  texts : ∀ key text, (key, JsonValue.string text) ∈ members → Readable text
  numbers : ∀ key value, (key, JsonValue.integer value) ∈ members → value ≠ -2 ^ 63
  size : (toJsonString (.object members)).length ≤ 4 * 1024 * 1024

/-- A short text of ASCII characters or a small integer. -/
def plainValue : JsonValue → Bool
  | .string text => text.all (· < 128) && text.length < 1024 * 1024
  | .integer value => value ≠ -2 ^ 63
  | _ => false

variable {members : Members}

theorem legible_of_plain (plain : (members.all fun member => plainValue member.2) = true)
    (size : (toJsonString (.object members)).length ≤ 4 * 1024 * 1024) : Legible members where
  texts := by
    intro key text present
    have own := List.all_eq_true.mp plain _ present
    simp only [plainValue, Bool.and_eq_true, decide_eq_true_eq] at own
    refine ⟨validUtf8_printable_ascii text ?_, own.2⟩
    intro b held
    exact of_decide_eq_true (List.all_eq_true.mp own.1 b held)
  numbers := by
    intro key value present
    exact of_decide_eq_true (List.all_eq_true.mp plain _ present)
  size := size

/-- A text or a 64-bit integer. -/
def FlatValue : JsonValue → Prop
  | .string _ => True
  | .integer value => -2 ^ 63 ≤ value ∧ value < 2 ^ 63
  | _ => False

/-- Texts and integers under different keys. -/
structure Flat (members : Members) : Prop where
  keys : PlainKeys (members.map Prod.fst)
  few : (members.map Prod.fst).length ≤ 100
  values : ∀ member ∈ members, FlatValue member.2

section Members
variable {members : Members}

theorem Legible.parsed (legible : Legible members) (flat : Flat members) :
    parseJson (toJsonString (.object members)) {} = .ok (.object members) := by
  have portable : (JsonValue.object members).Portable {} 32 := by
    apply object_portable flat.keys (List.Sublist.refl _)
    · exact flat.few
    · intro member present
      obtain ⟨key, value⟩ := member
      have held := flat.values _ present
      cases value with
      | string text => exact (legible.texts key text present).portable
      | integer number =>
          have other := legible.numbers key number present
          exact .integer number (lt_of_le_of_ne held.1 other.symm) held.2
      | _ => cases held
  rw [toJsonString, parseJson_writeValue false {} _ portable legible.size,
    JsonValue.arrange_false portable]

variable {key : String}

theorem Flat.find (flat : Flat members) {value : JsonValue} (index : Nat)
    (listed : members[index]? = some (ascii key, value)) :
    (JsonValue.object members).find (ascii key) = some value :=
  (JsonValue.find_eq_some_iff flat.keys.1 _ _).mpr (List.mem_of_getElem? listed)

theorem Flat.stringMember (flat : Flat members) {text : Bytes} (index : Nat)
    (listed : members[index]? = some (ascii key, .string text)) :
    stringMember (.object members) key = some text := by
  rw [Mira.stringMember, flat.find index listed]
  rfl

theorem Flat.integerMember (flat : Flat members) {value : Int} (index : Nat)
    (listed : members[index]? = some (ascii key, .integer value)) :
    integerMember (.object members) key = some value := by
  rw [Mira.integerMember, flat.find index listed]

theorem Flat.idMember (flat : Flat members) {tag : IdTag} {id : Option (StrongId tag)} (index : Nat)
    (listed : members[index]? = some (ascii key, .string (idText id))) :
    idMember (.object members) key = id := by
  rw [Interaction.idMember, flat.stringMember index listed]
  cases id with
  | none => rfl
  | some id => exact id.parse_toString

end Members

theorem flat_of_keys (keys : List Bytes) (plain : PlainKeys keys ∧ keys.length ≤ 100)
    (own : members.map Prod.fst = keys) (values : ∀ member ∈ members, FlatValue member.2) :
    Flat members :=
  ⟨own.symm ▸ plain.1, own.symm ▸ plain.2, values⟩

theorem acceptedPayload_flat (ledger : EventStoreInputLedger) (envelope : InputEnvelope)
    (readings : AdmissionReadings) (principal : PrincipalContext) :
    Flat (acceptedPayload (ledger.freshEntry envelope readings) principal) := by
  refine flat_of_keys [ascii "schema", ascii "input_id", ascii "ingress_id",
    ascii "principal_ref", ascii "admitted_at", ascii "window_expires_at"]
    (by decide) rfl ?_
  have number (value : Int64) : FlatValue (.integer value.toInt) := ⟨value.le_toInt, value.toInt_lt⟩
  simp only [acceptedPayload, headMembers, List.cons_append, List.nil_append,
    List.forall_mem_cons]
  exact ⟨trivial, trivial, trivial, trivial, number _, number _,
    fun _ absent => absurd absent List.not_mem_nil⟩

variable {entry : LedgerEntry} {transition : LedgerTransition} {type : InteractionEventType}

theorem record_flat (recorded : entry.record transition = some (type, members)) : Flat members := by
  have number (value : Int32) : FlatValue (.integer value.toInt) := by
    have low := value.le_toInt
    have high := value.toInt_lt
    exact ⟨by omega, by omega⟩
  have nothing : ∀ member ∈ ([] : Members), FlatValue member.2 :=
    fun _ absent => absurd absent List.not_mem_nil
  simp only [LedgerEntry.record] at recorded
  split at recorded
  · cases recorded
    refine flat_of_keys [ascii "schema", ascii "input_id", ascii "ingress_id",
      ascii "reason_code", ascii "reason"] (by decide) rfl ?_
    simp only [rejectedPayload, headMembers, List.cons_append, List.nil_append,
      List.forall_mem_cons]
    exact ⟨trivial, trivial, trivial, number _, trivial, nothing⟩
  · cases recorded
    refine flat_of_keys [ascii "schema", ascii "input_id", ascii "ingress_id", ascii "intent",
      ascii "session_id", ascii "task_id", ascii "rationale"] (by decide) rfl ?_
    simp only [routedPayload, headMembers, List.cons_append, List.nil_append,
      List.forall_mem_cons]
    exact ⟨trivial, trivial, trivial, trivial, trivial, trivial, trivial, nothing⟩
  · cases recorded
    refine flat_of_keys [ascii "schema", ascii "input_id", ascii "ingress_id",
      ascii "session_id", ascii "task_id", ascii "summary"] (by decide) rfl ?_
    simp only [answeredPayload, headMembers, List.cons_append, List.nil_append,
      List.forall_mem_cons]
    exact ⟨trivial, trivial, trivial, trivial, trivial, trivial, nothing⟩
  · cases recorded
    refine flat_of_keys [ascii "schema", ascii "input_id", ascii "ingress_id",
      ascii "task_id", ascii "terminal"] (by decide) rfl ?_
    simp only [settledPayload, headMembers, List.cons_append, List.nil_append,
      List.forall_mem_cons]
    exact ⟨trivial, trivial, trivial, trivial, trivial, nothing⟩
  · split at recorded
    · cases recorded
      refine flat_of_keys [ascii "schema", ascii "input_id", ascii "ingress_id",
        ascii "clarification"] (by decide) rfl ?_
      simp only [clarifiedPayload, headMembers, List.cons_append, List.nil_append,
        List.forall_mem_cons]
      exact ⟨trivial, trivial, trivial, trivial, nothing⟩
    · cases recorded

def LedgerEntry.restored (entry : LedgerEntry) (transition : LedgerTransition) : LedgerEntry :=
  match transition.stage with
  | .routed =>
      { entry with
        stage := .routed
        sessionId := transition.sessionId.or entry.sessionId
        taskId := transition.taskId.or entry.taskId
        note := transition.note }
  | .answered => { entry with stage := .answered, note := transition.note }
  | .taskSettled =>
      { entry with stage := .taskSettled, taskId := transition.taskId.or entry.taskId }
  | .rejected =>
      { entry with
        stage := .rejected
        error := some
          { code := .invalidState
            domain := interactionErrorDomain
            domainCode := (transition.error.map InteractionError.domainCode).getD
              InteractionDomainCode.unknown.value
            safeMessage := (transition.error.map InteractionError.safeMessage).getD
              transition.note } }
  | .accepted => { entry with clarification := transition.clarification.or entry.clarification }

theorem replayed_restored {source : LedgerEntry}
    (recorded : source.record transition = some (type, members)) :
    entry.replayed (some type) (.object members) = entry.restored transition := by
  have flat := record_flat recorded
  simp only [LedgerEntry.record] at recorded
  split at recorded
  · next stage =>
      cases recorded
      have code := flat.integerMember 3 rfl
      have reason := flat.stringMember 4 rfl
      simp only [LedgerEntry.replayed, LedgerEntry.restored, stage, code, reason,
        Option.map_some, Option.getD_some, Int32.ofInt_toInt]
  · next stage =>
      cases recorded
      have session := flat.idMember 4 rfl
      have task := flat.idMember 5 rfl
      have rationale := flat.stringMember 6 rfl
      simp only [LedgerEntry.replayed, LedgerEntry.restored, stage, session, task, rationale,
        Option.getD_some]
  · next stage =>
      cases recorded
      have summary := flat.stringMember 5 rfl
      simp only [LedgerEntry.replayed, LedgerEntry.restored, stage, summary, Option.getD_some]
  · next stage =>
      cases recorded
      have task := flat.idMember 3 rfl
      simp only [LedgerEntry.replayed, LedgerEntry.restored, stage, task]
  · next stage =>
      split at recorded
      · next clarifying =>
          cases recorded
          have clarification := flat.stringMember 3 rfl
          obtain ⟨text, held⟩ := Option.isSome_iff_exists.mp clarifying
          simp only [LedgerEntry.replayed, LedgerEntry.restored, stage, clarification, held,
            Option.getD_some]
      · cases recorded

section Records
variable {index : LedgerIndex} {entry : LedgerEntry} {type : InteractionEventType}
  {members tail : Members}

theorem replayRecord_head (shape : members = headMembers type entry ++ tail)
    (flat : Flat members) (legible : Legible members) :
    replayRecord index (toJsonString (.object members)) =
      if type = .inputAccepted then
        index.assign entry.inputId
          (acceptedEntry entry.inputId entry.ingressId (.object members))
      else index.update entry.inputId fun held => held.replayed (some type) (.object members) := by
  have schema : stringMember (.object members) "schema" = some type.schema :=
    flat.stringMember 0 (by rw [shape]; rfl)
  have inputId : stringMember (.object members) "input_id" = some entry.inputId :=
    flat.stringMember 1 (by rw [shape]; rfl)
  have ingressId : idMember (.object members) "ingress_id" = some entry.ingressId :=
    flat.idMember 2 (by rw [shape]; rfl)
  simp only [replayRecord, legible.parsed flat, schema, inputId, ingressId,
    parseInteractionEventSchema_schema, Option.some.injEq]

variable {source : LedgerEntry} {transition : LedgerTransition}

theorem record_head (recorded : source.record transition = some (type, members)) :
    type ≠ .inputAccepted ∧ ∃ tail, members = headMembers type source ++ tail := by
  simp only [LedgerEntry.record] at recorded
  split at recorded
  · cases recorded
    exact ⟨by decide, _, rfl⟩
  · cases recorded
    exact ⟨by decide, _, rfl⟩
  · cases recorded
    exact ⟨by decide, _, rfl⟩
  · cases recorded
    exact ⟨by decide, _, rfl⟩
  · split at recorded
    · cases recorded
      exact ⟨by decide, _, rfl⟩
    · cases recorded

theorem replayRecord_transition (index : LedgerIndex)
    (recorded : source.record transition = some (type, members)) (legible : Legible members) :
    replayRecord index (toJsonString (.object members)) =
      index.update source.inputId fun held => held.restored transition := by
  obtain ⟨other, tail, shape⟩ := record_head recorded
  rw [replayRecord_head shape (record_flat recorded) legible, if_neg other]
  have same : (fun held : LedgerEntry => held.replayed (some type) (.object members)) =
      fun held => held.restored transition :=
    funext fun held => replayed_restored recorded
  rw [same]

theorem replayRecord_accepted (index : LedgerIndex) (ledger : EventStoreInputLedger) (envelope : InputEnvelope)
    (readings : AdmissionReadings) (principal : PrincipalContext)
    (legible : Legible (acceptedPayload (ledger.freshEntry envelope readings) principal)) :
    replayRecord index (toJsonString
        (.object (acceptedPayload (ledger.freshEntry envelope readings) principal))) =
      index.assign envelope.inputId
        { ledger.freshEntry envelope readings with
          admittedAt := ⟨readings.wall.toInt, 0⟩ } := by
  have flat := acceptedPayload_flat ledger envelope readings principal
  have admitted := flat.integerMember 4 rfl
  have expires := flat.integerMember 5 rfl
  have shape : ∃ tail, acceptedPayload (ledger.freshEntry envelope readings) principal =
      headMembers .inputAccepted (ledger.freshEntry envelope readings) ++ tail := ⟨_, rfl⟩
  obtain ⟨tail, shape⟩ := shape
  rw [replayRecord_head shape flat legible, if_pos rfl]
  simp only [acceptedEntry, admitted, expires, Option.map_some, Option.getD_some,
    Int64.ofInt_toInt]
  rfl

theorem replayRecord_keeps (data : Bytes) {inputId : Bytes} (held : index.find? inputId ≠ none) :
    (replayRecord index data).find? inputId ≠ none := by
  simp only [replayRecord]
  split
  · exact held
  · split
    · split
      · rw [KeyedTable.find?_assign]
        split
        · exact Option.some_ne_none _
        · exact held
      · rw [KeyedTable.find?_update]
        split
        · next same =>
            rw [same] at held
            rw [ne_eq, Option.map_eq_none_iff]
            exact held
        · exact held
    · exact held

end Records

/-- The index after one pass over the stream. -/
def replayLog (session : SessionId) (log : List EventEnvelope) : LedgerIndex :=
  (sessionEvents session log).foldl (fun index event => replayRecord index event.payload.data)
    .empty

theorem replayLog_append {session : SessionId} (log : List EventEnvelope) {event : EventEnvelope}
    (own : event.sessionId = session) :
    replayLog session (log ++ [event]) =
      replayRecord (replayLog session log) event.payload.data := by
  rw [replayLog, sessionEvents_append, if_pos own, List.foldl_append]
  rfl

namespace EventStoreInputLedger

theorem visitAll_visit (events : List EventEnvelope) (scan : LedgerScan) :
    ∃ cursor, Paging.visitAll visit scan events =
      .ok ⟨events.foldl (fun index event => replayRecord index event.payload.data) scan.index,
        cursor⟩ := by
  induction events generalizing scan with
  | nil => exact ⟨scan.cursor, rfl⟩
  | cons event rest ih => exact ih ⟨replayRecord scan.index event.payload.data, _⟩

theorem rebuild_log {log : List EventEnvelope} (order : InOrder log)
    {ledger : EventStoreInputLedger} (connected : ledger.connected = true) {rounds : Nat}
    (enough : log.length < rounds) :
    ledger.rebuild (readLog log) rounds =
      some ({ ledger with index := replayLog ledger.partition log }, .ok ()) := by
  have whole := order.unread_none ledger.partition
  have scanned : Paging.scan (fetch (readLog log) ledger.partition) visit (fun _ => .ok ()) rounds
      {} = some (Paging.visitAll visit {} (sessionEvents ledger.partition log)) := by
    rw [← whole]
    refine Paging.scan_eq (fun _ => True)
      (fun scan : LedgerScan => unread log ledger.partition scan.cursor) (fun _ => rebuildLimit)
      ?_ ?_ ?_ ?_ _ _ trivial ?_
    · intro scan _
      simp only [fetch, readLog, read_unread]
      congr 2
      by_cases more : rebuildLimit < (unread log ledger.partition scan.cursor).length
      · have some_ : ¬ ((unread log ledger.partition scan.cursor).take rebuildLimit).isEmpty := by
          rw [List.isEmpty_iff_length_eq_zero, List.length_take]
          have positive : 0 < rebuildLimit := by decide
          omega
        simp [more, some_]
      · simp [more]
    · intro _ _ _
      decide
    · intro scan event rest next _ left visited
      cases visited
      exact ⟨trivial, order.unread_passed left⟩
    · intro _ _ _
      rfl
    · rw [whole]
      exact (List.length_filter_le _ _).trans_lt enough
  obtain ⟨cursor, visited⟩ := visitAll_visit (sessionEvents ledger.partition log) {}
  rw [rebuild, if_neg (by rw [connected]; decide), scanned, visited]
  rfl

end EventStoreInputLedger

end Mira.Interaction
