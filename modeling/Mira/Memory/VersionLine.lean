import Mira.Library.Checked
import Mira.Memory.Store

/-!
The version line of a record: its versions are stored from the first to the current one, and the
current one is the document of its row. A write keeps the line where it is the first of its record
or the next after the current version.
-/

namespace Mira.Memory
open Mira Bytes Storage Checked
open Mira.Checkpoint (MemoryScope MemoryScopeKind memoryScopeKindName)

structure Lines (tables : Tables) : Prop where
  first : ∀ {id row}, tables.records.find? id = some row → 1 ≤ row.version
  versions : ∀ {id version}, (∃ kept, tables.versions.find? (id, version) = some kept) ↔
    ∃ row, tables.records.find? id = some row ∧ 1 ≤ version ∧ version ≤ row.version
  newest : ∀ {id row}, tables.records.find? id = some row →
    tables.versions.find? (id, row.version) =
      some { recordedAt := row.recordedAt, document := row.document }
  document : ∀ {id row}, tables.records.find? id = some row → row.document.id = id ∧
    row.document.version = row.version ∧ row.document.status = row.status

theorem Lines.empty : Lines {} := by
  constructor
  case first =>
    intro id row found
    cases found
  case versions =>
    intro id version
    constructor <;> intro present <;> obtain ⟨_, found⟩ := present
    · cases found
    · cases found.1
  case newest =>
    intro id row found
    cases found
  case document =>
    intro id row found
    cases found

namespace Tables

variable {tables : Tables} {record : MemoryRecord} {scopeKey : Bytes} {version : Nat} {now : Int}

def rowOf (tables : Tables) (record : MemoryRecord) (scopeKey : Bytes) (version : Nat)
    (now : Int) : RecordRow :=
  { scopeKey := ((tables.records.find? record.id).map RecordRow.scopeKey).getD (boundText scopeKey)
    kind := ((tables.records.find? record.id).map RecordRow.kind).getD record.kind
    evidence := record.evidence.map ArtifactRef.id
    recordedAt := record.recordedAt
    status := record.status
    expiresAt := record.expiresAt
    version := version
    updatedAt := now
    document := { record with version := version } }

theorem find_writeRecord (id : MemoryId) :
    (tables.writeRecord record scopeKey version now).records.find? id =
      if id = record.id then some (tables.rowOf record scopeKey version now)
      else tables.records.find? id :=
  KeyedTable.find?_assign _ _ _ _

theorem version_writeRecord (key : MemoryId × Nat) :
    (tables.writeRecord record scopeKey version now).versions.find? key =
      if key = (record.id, version) then
        some { recordedAt := record.recordedAt, document := { record with version := version } }
      else tables.versions.find? key :=
  KeyedTable.find?_assign _ _ _ _

@[simp] theorem records_dropEmbedding {id : MemoryId} :
    (tables.dropEmbedding id).records = tables.records := rfl

/-- The version is the first of a new record or the next of a stored one. -/
def NextVersion (tables : Tables) (id : MemoryId) (version : Nat) : Prop :=
  match tables.records.find? id with
  | none => version = 1
  | some row => version = row.version + 1

end Tables

variable {tables : Tables}

theorem Lines.congr (lines : Lines tables) {after : Tables}
    (records : after.records = tables.records) (versions : after.versions = tables.versions) :
    Lines after := by
  obtain ⟨first, stored, newest, document⟩ := lines
  rw [← records] at first stored newest document
  rw [← versions] at stored newest
  exact ⟨first, stored, newest, document⟩

variable {record : MemoryRecord} {scopeKey : Bytes} {version : Nat}

theorem Lines.write (lines : Lines tables) (next : tables.NextVersion record.id version) :
    Lines (tables.writeRecord record scopeKey version now) := by
  rw [Tables.NextVersion] at next
  have positive : 1 ≤ version := by split at next <;> omega
  constructor
  case first =>
    intro id row found
    rw [Tables.find_writeRecord] at found
    split at found
    next same =>
      cases found
      exact positive
    next => exact lines.first found
  case versions =>
    intro id kept
    rw [Tables.version_writeRecord, Tables.find_writeRecord]
    by_cases same : id = record.id
    · subst same
      rw [if_pos rfl]
      simp only [Option.some.injEq, exists_eq_left', Prod.mk.injEq, true_and, Tables.rowOf]
      by_cases own : kept = version
      · rw [if_pos own]
        exact iff_of_true ⟨_, rfl⟩ ⟨by omega, by omega⟩
      · rw [if_neg own, lines.versions]
        split at next
        next none =>
          rw [none]
          simp only [reduceCtorEq, false_and, exists_false, false_iff]
          omega
        next row found =>
          rw [found]
          simp only [Option.some.injEq, exists_eq_left']
          omega
    · rw [if_neg same, if_neg fun equal => same (congrArg Prod.fst equal)]
      exact lines.versions
  case newest =>
    intro id row found
    rw [Tables.version_writeRecord]
    rw [Tables.find_writeRecord] at found
    split at found
    next same =>
      cases found
      rw [if_pos (by rw [same, Tables.rowOf])]
      rfl
    next differs =>
      rw [if_neg fun equal => differs (congrArg Prod.fst equal)]
      exact lines.newest found
  case document =>
    intro id row found
    rw [Tables.find_writeRecord] at found
    split at found
    next same =>
      cases found
      exact ⟨same.symm, rfl, rfl⟩
    next => exact lines.document found

theorem not_of_denyIf {wrong : Prop} [Decidable wrong] {code : MemoryDomainCode}
    {message : String} (passed : denyIf wrong code message = .ok ()) : ¬wrong := by
  intro isWrong
  rw [denyIf, if_pos isWrong] at passed
  cases passed

variable {store : MemoryStore} {mutation : MemoryMutation} {now : Int}

structure Targets (store : MemoryStore) (tables : Tables) (mutation : MemoryMutation)
    (target : MemoryId) (row : RecordRow) (existing : MemoryRecord) : Prop where
  named : mutation.target = some target
  found : tables.records.find? target = some row
  own : existing.id = row.document.id
  scope : scopeKeyOf existing.scope = scopeKeyOf mutation.scope
  expected : mutation.expectedVersion = some row.version
  reads : readTarget store tables (scopeKeyOf mutation.scope) target mutation.expectedVersion =
    .ok (row, existing)

variable {target : MemoryId}

theorem targets_of_readTarget {found : RecordRow × MemoryRecord}
    (named : mutation.target = some target)
    (read : readTarget store tables (scopeKeyOf mutation.scope) target mutation.expectedVersion =
      .ok found) : Targets store tables mutation target found.1 found.2 := by
  have reads := read
  rw [readTarget] at read
  split at read
  next => cases read
  next row stored =>
    obtain ⟨existing, document, read⟩ := ok_of_bind read
    obtain ⟨_, here, read⟩ := ok_of_bind read
    obtain ⟨_, expected, read⟩ := ok_of_bind read
    cases read
    exact ⟨named, stored, store.reader.own document, not_not.mp (not_of_denyIf here),
      (not_not.mp (not_of_denyIf expected)).symm, reads⟩

/-- The plans of the four types. -/
inductive Plans (store : MemoryStore) (tables : Tables) (mutation : MemoryMutation) (now : Int) :
    Planned → Prop
  | add (type : mutation.type = .add)
      (absent : tables.records.find? mutation.proposed.id = none) :
      Plans store tables mutation now
        { tables := tables
          proposed := { proposalOf mutation now with status := .active }
          newVersion := 1 }
  | tombstone {target : MemoryId} {row : RecordRow} {existing : MemoryRecord}
      (type : mutation.type = .tombstone)
      (targets : Targets store tables mutation target row existing) :
      Plans store tables mutation now (planTombstone tables target row existing)
  | supersede {target : MemoryId} {row : RecordRow} {existing : MemoryRecord}
      (type : mutation.type = .supersede)
      (targets : Targets store tables mutation target row existing)
      (differs : mutation.proposed.id ≠ target) :
      Plans store tables mutation now
        (planSupersede tables (scopeKeyOf mutation.scope) target row existing
          (proposalOf mutation now) now)
  | update {target : MemoryId} {row : RecordRow} {existing : MemoryRecord}
      (type : mutation.type = .update)
      (targets : Targets store tables mutation target row existing) :
      Plans store tables mutation now
        (planUpdate tables target row existing (proposalOf mutation now))

@[simp] theorem proposalOf_id : (proposalOf mutation now).id = mutation.proposed.id := by
  rw [proposalOf]
  dsimp only
  split <;> rfl

@[simp] theorem proposalOf_status :
    (proposalOf mutation now).status = mutation.proposed.status := by
  rw [proposalOf]
  dsimp only
  split <;> rfl

theorem plans_of_plan {planned : Planned} (done : plan store tables mutation now = .ok planned)
    (change : mutation.type ≠ .noop)
    (named : mutation.type = .add ∨ mutation.target.isSome = true) :
    Plans store tables mutation now planned := by
  rw [plan] at done
  have target_of (other : mutation.type ≠ .add) : ∃ target, mutation.target = some target :=
    Option.isSome_iff_exists.mp (named.resolve_left other)
  cases type : mutation.type with
  | noop => exact (change type).elim
  | add =>
      rw [type] at done
      obtain ⟨_, absent, own⟩ := ok_of_bind done
      cases own
      have missing := not_of_denyIf absent
      rw [proposalOf_id, KeyedTable.contains, Bool.not_eq_true, Option.isSome_eq_false_iff,
        Option.isNone_iff_eq_none] at missing
      exact .add type missing
  | tombstone =>
      obtain ⟨target, target_eq⟩ := target_of (by rw [type]; decide)
      rw [type, target_eq] at done
      obtain ⟨found, read, own⟩ := ok_of_bind done
      cases own
      exact .tombstone type (targets_of_readTarget target_eq read)
  | supersede =>
      obtain ⟨target, target_eq⟩ := target_of (by rw [type]; decide)
      rw [type, target_eq] at done
      obtain ⟨found, read, done⟩ := ok_of_bind done
      obtain ⟨_, differs, own⟩ := ok_of_bind done
      cases own
      have fresh := not_of_denyIf differs
      rw [proposalOf_id] at fresh
      exact .supersede type (targets_of_readTarget target_eq read) fresh
  | update =>
      obtain ⟨target, target_eq⟩ := target_of (by rw [type]; decide)
      rw [type, target_eq] at done
      obtain ⟨found, read, own⟩ := ok_of_bind done
      cases own
      exact .update type (targets_of_readTarget target_eq read)

/-- Nothing that is stored of the record differs. -/
structure SameRecord (before after : Tables) (id : MemoryId) : Prop where
  row : after.records.find? id = before.records.find? id
  versions : ∀ version, after.versions.find? (id, version) = before.versions.find? (id, version)
  provenance : after.provenance.filter (·.1 = id) = before.provenance.filter (·.1 = id)
  text : after.fts.filter (·.1 = id) = before.fts.filter (·.1 = id)
  embedding : after.embeddings.find? id = before.embeddings.find? id

theorem SameRecord.refl (tables : Tables) (id : MemoryId) : SameRecord tables tables id :=
  ⟨rfl, fun _ => rfl, rfl, rfl, rfl⟩

variable {id : MemoryId}

theorem SameRecord.trans {first second third : Tables} (one : SameRecord first second id)
    (two : SameRecord second third id) : SameRecord first third id :=
  ⟨two.row.trans one.row, fun version => (two.versions version).trans (one.versions version),
    two.provenance.trans one.provenance, two.text.trans one.text,
    two.embedding.trans one.embedding⟩

theorem filter_replaced {α : Type} (rows own : List (MemoryId × α)) {written : MemoryId}
    (differs : id ≠ written) (owned : ∀ row ∈ own, row.1 = written) :
    (rows.filter (·.1 ≠ written) ++ own).filter (·.1 = id) = rows.filter (·.1 = id) := by
  have none_own : own.filter (·.1 = id) = [] := by
    rw [List.filter_eq_nil_iff]
    intro row among
    rw [owned row among, decide_eq_true_eq]
    exact fun same => differs same.symm
  rw [List.filter_append, none_own, List.append_nil, List.filter_filter]
  apply List.filter_congr
  intro row _
  by_cases same : row.1 = id
  · simp [same, differs]
  · simp [same]

variable {tables : Tables}

theorem sameRecord_writeRecord (differs : id ≠ record.id) :
    SameRecord tables (tables.writeRecord record scopeKey version now) id where
  row := by rw [Tables.find_writeRecord, if_neg differs]
  versions := by
    intro other
    rw [Tables.version_writeRecord, if_neg fun same => differs (congrArg Prod.fst same)]
  provenance := by
    apply filter_replaced _ _ differs
    intro row among
    obtain ⟨_, _, same⟩ := List.mem_map.mp among
    rw [← same]
  text := by
    apply filter_replaced _ _ differs
    intro row among
    split at among
    next => rw [List.mem_singleton.mp among]
    next => cases among
  embedding := rfl

theorem sameRecord_dropEmbedding {dropped : MemoryId} (differs : id ≠ dropped) :
    SameRecord tables (tables.dropEmbedding dropped) id where
  row := rfl
  versions _ := rfl
  provenance := rfl
  text := rfl
  embedding := by
    rw [Tables.dropEmbedding, KeyedTable.find?_erase, if_neg differs]

variable {store : MemoryStore} {mutation : MemoryMutation} {now : Int} {call : Call}

theorem target_of_validate (valid : mutation.validate = .ok ()) (change : mutation.type ≠ .noop) :
    mutation.type = .add ∨ mutation.target.isSome = true := by
  rw [MemoryMutation.validate] at valid
  obtain ⟨_, _, valid⟩ := ok_of_bind valid
  obtain ⟨_, _, valid⟩ := ok_of_bind valid
  obtain ⟨_, _, valid⟩ := ok_of_bind valid
  obtain ⟨_, typed, _⟩ := ok_of_bind valid
  rw [MemoryMutation.validateType] at typed
  have named (targeted : denyIf (mutation.target.all (fun target => target.value.isNil) = true)
      .invalidMutation "mutation type requires a target record" = .ok ()) :
      mutation.target.isSome = true := by
    have wrong := not_of_denyIf targeted
    cases target : mutation.target with
    | none => rw [target] at wrong; exact (wrong rfl).elim
    | some id => rfl
  cases type : mutation.type with
  | add => exact .inl rfl
  | noop => exact (change type).elim
  | update | supersede | tombstone =>
      rw [type] at typed
      obtain ⟨_, targeted, _⟩ := ok_of_bind typed
      exact .inr (named targeted)

inductive Stepped (store : MemoryStore) (tables : Tables) (call : Call) :
    Tables → MemoryResult MemoryMutationResult → Prop
  | refused (error : MemoryError) : Stepped store tables call tables (.error error)
  | noop (writable : store.checkWritable = .ok ()) (valid : call.mutation.validate = .ok ())
      (type : call.mutation.type = .noop) :
      Stepped store tables call tables
        (.ok { applied := .noop, record := call.mutation.proposed.id })
  | replayed {row : LedgerRow} (found : tables.mutations.find? call.mutation.id = some row)
      (free : tables.checkNoHold (scopeKeyOf call.mutation.scope) = .ok ()) :
      Stepped store tables call tables
        (.ok
          { applied := row.appliedType
            record := row.record
            newVersion := row.resultVersion
            idempotentReplay := true })
  | changed {planned : Planned} (writable : store.checkWritable = .ok ())
      (valid : call.mutation.validate = .ok ()) (change : call.mutation.type ≠ .noop)
      (fresh : tables.mutations.find? call.mutation.id = none)
      (plans : Plans store tables call.mutation call.now planned)
      (free : tables.checkNoHold (scopeKeyOf call.mutation.scope) = .ok ()) :
      Stepped store tables call (planned.commit call.mutation call.now).1
        (.ok (planned.commit call.mutation call.now).2)

theorem stepped (store : MemoryStore) (tables : Tables) (call : Call) :
    Stepped store tables call (step store tables call).1 (step store tables call).2 := by
  rw [step]
  cases applied : apply store tables call.mutation call.now with
  | error error => exact .refused error
  | ok done =>
      rw [apply] at applied
      obtain ⟨_, writable, applied⟩ := ok_of_bind applied
      obtain ⟨_, valid, applied⟩ := ok_of_bind applied
      split at applied
      next type =>
        cases applied
        exact .noop writable valid type
      next type =>
        rw [change] at applied
        obtain ⟨_, free, applied⟩ := ok_of_bind applied
        split at applied
        next row found =>
          obtain ⟨result, replayed, own⟩ := ok_of_bind applied
          cases own
          rw [replay] at replayed
          split at replayed
          next => cases replayed
          next =>
            cases replayed
            exact .replayed found free
        next fresh =>
          obtain ⟨planned, planned_eq, own⟩ := ok_of_bind applied
          cases own
          exact .changed writable valid type fresh
            (plans_of_plan planned_eq type (target_of_validate valid type)) free

/-- A successor is stored under an id of its own, and an update leaves a record current only where
it was so before. -/
def LicensedChange (store : MemoryStore) (tables : Tables) (mutation : MemoryMutation) : Prop :=
  ∀ target ∈ mutation.target, ∀ found ∈
      (readTarget store tables (scopeKeyOf mutation.scope) target
        mutation.expectedVersion).toOption,
    (mutation.type = .supersede → mutation.proposed.id ≠ target →
        tables.records.find? mutation.proposed.id = none) ∧
      (mutation.type = .update → mutation.proposed.status ≠ .tombstoned →
        found.1.status = .active)

instance decidableLicensedChange (store : MemoryStore) (tables : Tables)
    (mutation : MemoryMutation) : Decidable (LicensedChange store tables mutation) :=
  inferInstanceAs (Decidable (∀ target ∈ mutation.target, ∀ found ∈ Except.toOption _, _))

/-- A repeat comes from a scope whose key is bound whole, and a first application is licensed. -/
def Licensed (store : MemoryStore) (tables : Tables) (call : Call) : Prop :=
  store.checkWritable.isOk = true → call.mutation.validate.isOk = true →
    call.mutation.type ≠ .noop →
      (∀ row ∈ tables.mutations.find? call.mutation.id,
        row.scopeKey = boundText (scopeKeyOf call.mutation.scope) →
          0 ∉ scopeKeyOf call.mutation.scope) ∧
      (tables.mutations.find? call.mutation.id = none →
        LicensedChange store tables call.mutation)

instance decidableLicensed (store : MemoryStore) (tables : Tables) (call : Call) :
    Decidable (Licensed store tables call) :=
  inferInstanceAs (Decidable (_ → _ → _ → (∀ row ∈ tables.mutations.find? _, _) ∧ _))

theorem LicensedChange.at_target (licensed : LicensedChange store tables mutation) {row : RecordRow}
    {existing : MemoryRecord} (targets : Targets store tables mutation target row existing) :
    (mutation.type = .supersede → mutation.proposed.id ≠ target →
        tables.records.find? mutation.proposed.id = none) ∧
      (mutation.type = .update → mutation.proposed.status ≠ .tombstoned →
        row.status = .active) :=
  licensed target targets.named (row, existing) (by rw [targets.reads]; rfl)

theorem Licensed.change (licensed : Licensed store tables call)
    (writable : store.checkWritable = .ok ()) (valid : call.mutation.validate = .ok ())
    (change : call.mutation.type ≠ .noop)
    (fresh : tables.mutations.find? call.mutation.id = none) :
    LicensedChange store tables call.mutation :=
  (licensed (by rw [writable]; rfl) (by rw [valid]; rfl) change).2 fresh

variable {planned : Planned}

theorem find_commit (id : MemoryId) :
    (planned.commit mutation now).1.records.find? id =
      if id = planned.proposed.id then
        some (planned.tables.rowOf planned.proposed (scopeKeyOf mutation.scope)
          planned.newVersion now)
      else planned.tables.records.find? id :=
  Tables.find_writeRecord id

theorem sameRecord_commit (differs : id ≠ planned.proposed.id)
    (same : SameRecord tables planned.tables id) :
    SameRecord tables (planned.commit mutation now).1 id :=
  have written := same.trans (sameRecord_writeRecord differs)
  ⟨written.row, written.versions, written.provenance, written.text, written.embedding⟩

theorem lines_commit (lines : Lines planned.tables)
    (next : planned.tables.NextVersion planned.proposed.id planned.newVersion) :
    Lines (planned.commit mutation now).1 :=
  (lines.write next).congr rfl rfl

theorem Plans.fits (plans : Plans store tables mutation now planned) (lines : Lines tables)
    (licensed : LicensedChange store tables mutation) :
    Lines planned.tables ∧
      planned.tables.NextVersion planned.proposed.id planned.newVersion := by
  cases plans with
  | add type absent =>
      refine ⟨lines, ?_⟩
      simp only [Tables.NextVersion, proposalOf_id, absent]
  | @tombstone target row existing type targets =>
      refine ⟨lines.congr rfl rfl, ?_⟩
      have own : existing.id = target :=
        targets.own.trans (lines.document targets.found).1
      simp only [Tables.NextVersion, planTombstone, Tables.records_dropEmbedding, own,
        targets.found]
  | @supersede target row existing type targets differs =>
      have own : existing.id = target :=
        targets.own.trans (lines.document targets.found).1
      have absent := (licensed.at_target targets).1 type differs
      have closing : (tables.dropEmbedding target).NextVersion
          (closedBy existing (proposalOf mutation now)).id (row.version + 1) := by
        simp only [Tables.NextVersion, closedBy, Tables.records_dropEmbedding, own,
          targets.found]
      have dropped : Lines (tables.dropEmbedding target) := lines.congr rfl rfl
      refine ⟨dropped.write closing, ?_⟩
      have fresh : mutation.proposed.id ≠ (closedBy existing (proposalOf mutation now)).id := by
        rw [closedBy, own]
        exact differs
      simp only [Tables.NextVersion, planSupersede, proposalOf_id, Tables.find_writeRecord,
        if_neg fresh, Tables.records_dropEmbedding, absent]
  | @update target row existing type targets =>
      have same : (planUpdate tables target row existing (proposalOf mutation now)).tables.records =
          tables.records := by
        rw [planUpdate]
        split <;> rfl
      have stored : (planUpdate tables target row existing
          (proposalOf mutation now)).tables.versions = tables.versions := by
        rw [planUpdate]
        split <;> rfl
      refine ⟨lines.congr same stored, ?_⟩
      rw [Tables.NextVersion, same]
      simp only [planUpdate, targets.found]

end Mira.Memory
