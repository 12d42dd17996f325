import Mira.Memory.VersionLine
import Mathlib.Data.List.TakeWhile

/-!
What one call keeps: a refused call changes nothing, a created record starts at version one, the
target of a change moves on by one version, every other record stays, and a closed record stays
closed.
-/

namespace Mira.Memory
open Mira Bytes Storage
open Mira.Checkpoint (MemoryScope MemoryScopeKind memoryScopeKindName)

/-- What the outcome of a call keeps of the tables before it. -/
structure Keeps (tables : Tables) (call : Call) (after : Tables)
    (outcome : MemoryResult MemoryMutationResult) : Prop where
  refused : ∀ {error}, outcome = .error error → after = tables
  created : ∀ {result}, outcome = .ok result → result.idempotentReplay = false →
    call.mutation.type = .add ∨ call.mutation.type = .supersede →
      tables.records.find? call.mutation.proposed.id = none ∧
        ∃ row, after.records.find? call.mutation.proposed.id = some row ∧ row.version = 1
  moved : ∀ {result}, outcome = .ok result → result.idempotentReplay = false →
    call.mutation.type = .update ∨ call.mutation.type = .supersede ∨
        call.mutation.type = .tombstone →
      ∃ target row next, call.mutation.target = some target ∧
        tables.records.find? target = some row ∧ after.records.find? target = some next ∧
          next.version = row.version + 1
  others : ∀ {result}, outcome = .ok result → ∀ id, call.mutation.target ≠ some id →
    tables.records.contains id = true → SameRecord tables after id
  closed : ∀ {id row}, tables.records.find? id = some row → row.status ≠ .active →
    ∃ next, after.records.find? id = some next ∧ next.status ≠ .active

variable {store : MemoryStore} {tables after : Tables} {call : Call} {planned : Planned}
  {outcome : MemoryResult MemoryMutationResult}

theorem Keeps.unchanged
    (idle : ∀ {result}, outcome = .ok result → result.idempotentReplay = false →
      call.mutation.type = .noop) : Keeps tables call tables outcome where
  refused _ := rfl
  created ok applied kind := by
    rw [idle ok applied] at kind
    rcases kind with kind | kind <;> cases kind
  moved ok applied kind := by
    rw [idle ok applied] at kind
    rcases kind with kind | kind | kind <;> cases kind
  others _ id _ _ := .refl tables id
  closed found inactive := ⟨_, found, inactive⟩

variable {target : MemoryId} {row : RecordRow} {result : MemoryMutationResult}

theorem Keeps.at_target {next : RecordRow} (named : call.mutation.target = some target)
    (found : tables.records.find? target = some row)
    (there : after.records.find? target = some next) (version : next.version = row.version + 1)
    (closed : row.status ≠ .active → next.status ≠ .active)
    (others : ∀ id, id ≠ target → tables.records.contains id = true → SameRecord tables after id)
    (created : call.mutation.type = .add ∨ call.mutation.type = .supersede →
      tables.records.find? call.mutation.proposed.id = none ∧
      ∃ row, after.records.find? call.mutation.proposed.id = some row ∧ row.version = 1) :
    Keeps tables call after (.ok result) where
  refused failed := by cases failed
  created _ _ kind := created kind
  moved _ _ _ := ⟨target, row, next, named, found, there, version⟩
  others _ id differs stored := others id (fun same => differs (same ▸ named)) stored
  closed := by
    intro id row' found' inactive
    by_cases same : id = target
    · rw [same, found] at found'
      cases found'
      exact ⟨next, same ▸ there, closed inactive⟩
    · have stored : tables.records.contains id = true := by
        rw [KeyedTable.contains, found']
        rfl
      exact ⟨row', (others id same stored).row.trans found', inactive⟩

variable {id : MemoryId}

theorem contains_of_find (found : tables.records.find? id = some row) :
    tables.records.contains id = true := by
  rw [KeyedTable.contains, found]
  rfl

theorem ne_of_absent {absent : MemoryId} (stored : tables.records.contains id = true)
    (missing : tables.records.find? absent = none) : id ≠ absent := by
  intro same
  rw [KeyedTable.contains, same, missing] at stored
  cases stored

theorem keeps_add (type : call.mutation.type = .add)
    (absent : tables.records.find? call.mutation.proposed.id = none)
    (base : planned.tables = tables)
    (own : planned.proposed.id = call.mutation.proposed.id) (first : planned.newVersion = 1) :
    Keeps tables call (planned.commit call.mutation call.now).1
      (.ok (planned.commit call.mutation call.now).2) := by
  have others (id : MemoryId) (stored : tables.records.contains id = true) :
      SameRecord tables (planned.commit call.mutation call.now).1 id := by
    apply sameRecord_commit
    · rw [own]
      exact ne_of_absent stored absent
    · rw [base]
      exact .refl tables id
  constructor
  case refused =>
    intro error failed
    cases failed
  case created =>
    intro result _ _ _
    refine ⟨absent, _, by rw [find_commit, if_pos own.symm], first⟩
  case moved =>
    intro result _ _ kind
    rw [type] at kind
    rcases kind with kind | kind | kind <;> cases kind
  case others => exact fun _ id _ stored => others id stored
  case closed =>
    intro id row found inactive
    exact ⟨row, (others id (contains_of_find found)).row.trans found, inactive⟩

theorem keeps_in_place (named : call.mutation.target = some target)
    (found : tables.records.find? target = some row)
    (base : ∀ id, id ≠ target → SameRecord tables planned.tables id)
    (own : planned.proposed.id = target) (next : planned.newVersion = row.version + 1)
    (closed : row.status ≠ .active → planned.proposed.status ≠ .active)
    (kind : call.mutation.type = .update ∨ call.mutation.type = .tombstone) :
    Keeps tables call (planned.commit call.mutation call.now).1
      (.ok (planned.commit call.mutation call.now).2) := by
  apply Keeps.at_target named found
  case there => rw [find_commit, if_pos own.symm]
  case version => exact next
  case closed => exact closed
  case others =>
    intro id differs _
    exact sameRecord_commit (own ▸ differs) (base id differs)
  case created =>
    intro created
    rcases kind with kind | kind <;> rw [kind] at created <;> rcases created with one | two
    all_goals contradiction

theorem keeps_supersede {existing : MemoryRecord} (lines : Lines tables)
    (targets : Targets store tables call.mutation target row existing)
    (differs : call.mutation.proposed.id ≠ target)
    (absent : tables.records.find? call.mutation.proposed.id = none) :
    Keeps tables call
      ((planSupersede tables (scopeKeyOf call.mutation.scope) target row existing
        (proposalOf call.mutation call.now) call.now).commit call.mutation call.now).1
      (.ok ((planSupersede tables (scopeKeyOf call.mutation.scope) target row existing
        (proposalOf call.mutation call.now) call.now).commit call.mutation call.now).2) := by
  have own : (closedBy existing (proposalOf call.mutation call.now)).id = target := by
    exact targets.own.trans (lines.document targets.found).1
  apply Keeps.at_target targets.named targets.found
  case there =>
    rw [find_commit]
    rw [if_neg (by simpa only [planSupersede, proposalOf_id] using differs.symm)]
    simp only [planSupersede]
    rw [Tables.find_writeRecord, if_pos own.symm]
  case version => rfl
  case closed =>
    intro _ current
    cases current
  case others =>
    intro id other stored
    apply sameRecord_commit
    · simpa only [planSupersede, proposalOf_id] using ne_of_absent stored absent
    · exact (sameRecord_dropEmbedding other).trans (sameRecord_writeRecord (own ▸ other))
  case created =>
    intro _
    have written : call.mutation.proposed.id = (proposalOf call.mutation call.now).id :=
      proposalOf_id.symm
    exact ⟨absent, _, by rw [find_commit, planSupersede, if_pos written], rfl⟩

theorem Plans.keeps (plans : Plans store tables call.mutation call.now planned)
    (lines : Lines tables) (licensed : LicensedChange store tables call.mutation) :
    Keeps tables call (planned.commit call.mutation call.now).1
      (.ok (planned.commit call.mutation call.now).2) := by
  cases plans with
  | add type absent => exact keeps_add type absent rfl proposalOf_id rfl
  | @tombstone target row existing type targets =>
      apply keeps_in_place targets.named targets.found
      case base => exact fun _ => sameRecord_dropEmbedding
      case own =>
        exact targets.own.trans (lines.document targets.found).1
      case next => rfl
      case closed =>
        intro _ current
        cases current
      case kind => exact .inr type
  | @supersede target row existing type targets differs =>
      exact keeps_supersede lines targets differs ((licensed.at_target targets).1 type differs)
  | @update target row existing type targets =>
      apply keeps_in_place targets.named targets.found
      case base =>
        intro id differs
        rw [planUpdate]
        split
        · exact sameRecord_dropEmbedding differs
        · exact .refl tables id
      case own => rfl
      case next => rfl
      case closed =>
        intro inactive
        have retired : call.mutation.proposed.status = .tombstoned := by
          by_contra current
          exact inactive ((licensed.at_target targets).2 type current)
        simp [planUpdate, retired]
      case kind => exact .inl type

theorem Stepped.keeps (stepped : Stepped store tables call after outcome) (lines : Lines tables)
    (licensed : Licensed store tables call) : Keeps tables call after outcome := by
  cases stepped with
  | refused error => exact .unchanged fun ok => by cases ok
  | noop _ _ type => exact .unchanged fun _ _ => type
  | replayed found =>
      apply Keeps.unchanged
      intro result ok applied
      cases ok
      cases applied
  | changed writable valid change fresh plans =>
      exact plans.keeps lines (licensed.change writable valid change fresh)

theorem Stepped.lines (stepped : Stepped store tables call after outcome) (lines : Lines tables)
    (licensed : Licensed store tables call) : Lines after := by
  cases stepped with
  | refused error => exact lines
  | noop _ _ type => exact lines
  | replayed found => exact lines
  | changed writable valid change fresh plans =>
      obtain ⟨under, next⟩ := plans.fits lines (licensed.change writable valid change fresh)
      exact lines_commit under next

/-!
The version lines over whole runs of the store. A mutation takes effect once, since its row of the
ledger is never rewritten.
-/

variable {store : MemoryStore} {tables after : Tables} {call : Call} {planned : Planned}
  {outcome : MemoryResult MemoryMutationResult}

theorem Plans.aside (plans : Plans store tables call.mutation call.now planned) :
    planned.tables.mutations = tables.mutations ∧ planned.tables.holds = tables.holds := by
  cases plans with
  | add | tombstone | supersede => exact ⟨rfl, rfl⟩
  | update =>
      rw [planUpdate]
      split <;> exact ⟨rfl, rfl⟩

theorem mutation_commit (id : MutationId) :
    (planned.commit call.mutation call.now).1.mutations.find? id =
      if id = call.mutation.id then
        some
          { scopeKey := boundText (scopeKeyOf call.mutation.scope)
            appliedType := call.mutation.type
            record := planned.proposed.id
            resultVersion := planned.newVersion }
      else planned.tables.mutations.find? id :=
  KeyedTable.find?_assign _ _ _ _

theorem Stepped.ledger (stepped : Stepped store tables call after outcome) {id : MutationId}
    {row : LedgerRow} (found : tables.mutations.find? id = some row) :
    after.mutations.find? id = some row := by
  cases stepped with
  | refused | noop | replayed => exact found
  | changed writable valid change fresh plans =>
      have differs : id ≠ call.mutation.id := by
        intro same
        rw [same, fresh] at found
        cases found
      rw [mutation_commit, if_neg differs, plans.aside.1]
      exact found

theorem Stepped.holds (stepped : Stepped store tables call after outcome) :
    after.holds = tables.holds := by
  cases stepped with
  | refused | noop | replayed => rfl
  | changed writable valid change fresh plans => exact plans.aside.2

theorem Stepped.once (stepped : Stepped store tables call after outcome) {row : LedgerRow}
    (found : tables.mutations.find? call.mutation.id = some row) : after = tables := by
  cases stepped with
  | refused | noop | replayed => rfl
  | changed writable valid change fresh plans =>
      rw [fresh] at found
      cases found

def ledgerRow (mutation : MemoryMutation) (result : MemoryMutationResult) : LedgerRow :=
  { scopeKey := boundText (scopeKeyOf mutation.scope)
    appliedType := result.applied
    record := result.record
    resultVersion := result.newVersion }

theorem Stepped.effect (stepped : Stepped store tables call after outcome)
    (ok : outcome = .ok result) (applied : result.idempotentReplay = false)
    (change : call.mutation.type ≠ .noop) :
    store.checkWritable = .ok () ∧
      after.mutations.find? call.mutation.id = some (ledgerRow call.mutation result) := by
  cases stepped with
  | refused error => cases ok
  | noop _ _ type => exact (change type).elim
  | replayed found =>
      cases ok
      cases applied
  | changed writable valid change fresh plans =>
      cases ok
      refine ⟨writable, ?_⟩
      rw [mutation_commit, if_pos rfl]
      rfl

theorem boundText_of_whole {text : Bytes} (whole : 0 ∉ text) : boundText text = text := by
  rw [boundText, List.takeWhile_eq_self_iff]
  intro byte among
  simpa using fun zero : byte = 0 => whole (zero ▸ among)

theorem step_replayed {row : LedgerRow} (writable : store.checkWritable = .ok ())
    (valid : call.mutation.validate = .ok ()) (change : call.mutation.type ≠ .noop)
    (free : tables.holds = .empty) (found : tables.mutations.find? call.mutation.id = some row)
    (here : row.scopeKey = scopeKeyOf call.mutation.scope) :
    (step store tables call).2 =
      .ok
        { applied := row.appliedType
          record := row.record
          newVersion := row.resultVersion
          idempotentReplay := true } := by
  have open_ : tables.checkNoHold (scopeKeyOf call.mutation.scope) = .ok () := by
    rw [Tables.checkNoHold, free]
    rfl
  have answered : replay row (scopeKeyOf call.mutation.scope) =
      .ok
        { applied := row.appliedType
          record := row.record
          newVersion := row.resultVersion
          idempotentReplay := true } := by
    rw [replay, if_neg (not_not.mpr here)]
  simp only [step, apply, writable, valid, if_neg change, Memory.change, open_, found, answered,
    bind, Except.bind, pure, Except.pure]

def reached (store : MemoryStore) (calls : List Call) : Tables :=
  Execution.run (step store) {} calls

/-- Every record follows one version line in the run. -/
structure OneLine (store : MemoryStore) (calls : List Call) : Prop where
  lines : ∀ {before rest}, calls = before ++ rest → Lines (reached store before)
  keeps : ∀ {before call rest}, calls = before ++ call :: rest →
    Keeps (reached store before) call (step store (reached store before) call).1
      (step store (reached store before) call).2
  closed : ∀ {before between rest id row}, calls = before ++ (between ++ rest) →
    (reached store before).records.find? id = some row → row.status ≠ .active →
      ∃ later, (reached store (before ++ between)).records.find? id = some later ∧
        later.status ≠ .active
  once : ∀ {before first between again rest result},
    calls = before ++ first :: (between ++ again :: rest) →
      (step store (reached store before) first).2 = .ok result →
        result.idempotentReplay = false → first.mutation.type ≠ .noop →
          again.mutation.id = first.mutation.id →
            (step store (reached store (before ++ first :: between)) again).1 =
              reached store (before ++ first :: between)
  repeated : ∀ {before first between again rest result},
    calls = before ++ first :: (between ++ again :: rest) →
      (step store (reached store before) first).2 = .ok result →
        result.idempotentReplay = false → first.mutation.type ≠ .noop →
          again.mutation.id = first.mutation.id → again.mutation.scope = first.mutation.scope →
            again.mutation.validate = .ok () → again.mutation.type ≠ .noop →
              (step store (reached store (before ++ first :: between)) again).2 =
                .ok { result with idempotentReplay := true }

variable {calls before between rest : List Call} {first again : Call}

theorem reached_append : reached store (before ++ rest) =
    Execution.run (step store) (reached store before) rest :=
  Execution.run_append (step store) {} before rest

theorem reached_concat (call : Call) : reached store (before ++ call :: rest) =
    Execution.run (step store) (step store (reached store before) call).1 rest :=
  reached_append

theorem holds_reached (store : MemoryStore) (calls : List Call) :
    (reached store calls).holds = .empty := by
  apply Execution.run_invariant_always (step store) (·.holds = .empty)
  case preserved => exact fun tables call free => (stepped store tables call).holds.trans free
  case start => rfl

theorem lines_reached (licensed : Execution.Guarded (step store) (Licensed store) {} calls) :
    Lines (reached store calls) := by
  apply Execution.run_invariant (step store) (Licensed store) Lines
  case preserved =>
    exact fun tables call licensed lines => (stepped store tables call).lines lines licensed
  case start => exact .empty
  case guarded => exact licensed

theorem closed_run (lines : Lines tables)
    (licensed : Execution.Guarded (step store) (Licensed store) tables calls)
    (found : tables.records.find? id = some row) (inactive : row.status ≠ .active) :
    ∃ later, (Execution.run (step store) tables calls).records.find? id = some later ∧
      later.status ≠ .active := by
  induction calls generalizing tables row with
  | nil => exact ⟨row, found, inactive⟩
  | cons call rest ih =>
      have outcome := stepped store tables call
      obtain ⟨next, found', inactive'⟩ :=
        (outcome.keeps lines licensed.1).closed found inactive
      exact ih (outcome.lines lines licensed.1) licensed.2 found' inactive'

theorem ledger_reached (ok : (step store (reached store before) first).2 = .ok result)
    (applied : result.idempotentReplay = false) (change : first.mutation.type ≠ .noop) :
    (reached store (before ++ first :: between)).mutations.find? first.mutation.id =
      some (ledgerRow first.mutation result) := by
  rw [reached_concat]
  apply Execution.run_invariant_always (step store)
    (·.mutations.find? first.mutation.id = some (ledgerRow first.mutation result))
  case preserved => exact fun tables call found => (stepped store tables call).ledger found
  case start => exact ((stepped store _ first).effect ok applied change).2

theorem one_version_line (store : MemoryStore) (calls : List Call)
    (licensed : Execution.Guarded (step store) (Licensed store) {} calls) :
    OneLine store calls := by
  constructor
  case lines =>
    intro before rest whole
    rw [whole, Execution.guarded_append] at licensed
    exact lines_reached licensed.1
  case keeps =>
    intro before call rest whole
    rw [whole, Execution.guarded_append] at licensed
    exact (stepped store _ call).keeps (lines_reached licensed.1) licensed.2.1
  case closed =>
    intro before between rest id row whole found inactive
    rw [whole, Execution.guarded_append, Execution.guarded_append] at licensed
    rw [reached_append]
    exact closed_run (lines_reached licensed.1) licensed.2.1 found inactive
  case once =>
    intro before first between again rest result _ ok applied change same
    have found : (reached store (before ++ first :: between)).mutations.find?
        again.mutation.id = some (ledgerRow first.mutation result) := by
      rw [same]
      exact ledger_reached ok applied change
    exact (stepped store _ again).once found
  case repeated =>
    intro before first between again rest result whole ok applied change same scope valid again'
    have found : (reached store (before ++ first :: between)).mutations.find?
        again.mutation.id = some (ledgerRow first.mutation result) := by
      rw [same]
      exact ledger_reached ok applied change
    have writable := ((stepped store _ first).effect ok applied change).1
    have split : calls = (before ++ first :: between) ++ again :: rest := by
      rw [whole, List.append_assoc, List.cons_append]
    rw [split, Execution.guarded_append] at licensed
    have own := (licensed.2.1 (by rw [writable]; rfl) (by rw [valid]; rfl) again').1 _ found
    have bound : (ledgerRow first.mutation result).scopeKey = scopeKeyOf again.mutation.scope := by
      rw [ledgerRow, ← scope]
      exact boundText_of_whole (own (by rw [ledgerRow, scope]))
    rw [step_replayed writable valid again' (holds_reached store _) found bound]
    rfl

def sampleStore : MemoryStore where
  reader := .plain

def sampleId (byte : UInt8) : Id128 := ⟨byte :: List.replicate 15 0, rfl⟩

def sampleRecord (byte : UInt8) : MemoryRecord :=
  { id := ⟨sampleId byte⟩
    statement := [byte]
    provenance := [⟨sampleId byte⟩]
    verification := .observed }

def sampleAdd (byte : UInt8) : Call where
  mutation :=
    { id := ⟨sampleId byte⟩
      proposed := sampleRecord byte
      evidence := [⟨sampleId byte⟩] }
  now := 1

/-- The first record is superseded by the second. -/
def sampleSupersede : Call where
  mutation :=
    { id := ⟨sampleId 3⟩
      type := .supersede
      target := some ⟨sampleId 1⟩
      expectedVersion := some 1
      proposed := { sampleRecord 2 with supersedes := some ⟨sampleId 1⟩ }
      evidence := [⟨sampleId 2⟩] }
  now := 2

theorem one_version_line_superseded :
    OneLine sampleStore [sampleAdd 1, sampleSupersede, sampleSupersede] :=
  one_version_line sampleStore [sampleAdd 1, sampleSupersede, sampleSupersede]
    (by decide +kernel)

/-- A successor is written over a record that is stored under its id. -/
theorem successor_overwrites : ¬ ∀ store calls, OneLine store calls := by
  intro every
  have kept : Keeps (reached sampleStore [sampleAdd 1, sampleAdd 2]) sampleSupersede _ _ :=
    (every sampleStore ([sampleAdd 1, sampleAdd 2] ++ [sampleSupersede])).keeps rfl
  have applied : ∃ result, (step sampleStore (reached sampleStore [sampleAdd 1, sampleAdd 2])
      sampleSupersede).2 = .ok result :=
    ⟨{ applied := .supersede, record := ⟨sampleId 2⟩ }, by decide +kernel⟩
  obtain ⟨result, ok⟩ := applied
  have other := (kept.others ok ⟨sampleId 2⟩ (by decide) (by decide +kernel)).row
  revert other
  decide +kernel

end Mira.Memory
