import Mira.Checkpoint.ReadBack
import Mira.Checkpoint.Store

/-!
The checkpoints of a task as both stores hold them. As long as no two of them reach
equally far, the rows of the table in descending order are the entries of the list; a
checkpoint that is stored again has to keep its place among the others.
-/

namespace Mira.Checkpoint
open Mira Bytes Ranked

/-- The checkpoints of a task as both stores hold them. -/
structure Orderly (task : TaskId) (entries : List TaskCheckpoint) : Prop where
  ids : (entries.map (·.id)).Nodup
  ascending : entries.Pairwise fun left right =>
    left.throughEventSequence < right.throughEventSequence
  own : ∀ entry ∈ entries, entry.taskId = task
  small : ∀ entry ∈ entries, entry.throughEventSequence < 2 ^ 63
  readable : ∀ entry ∈ entries, decodeRow entry.document = .ok entry

section Rows
variable {task : TaskId} {entries : List TaskCheckpoint} {rows : List CheckpointRow}

theorem Orderly.nil (task : TaskId) : Orderly task [] where
  ids := List.nodup_nil
  ascending := List.Pairwise.nil
  own _ present := absurd present List.not_mem_nil
  small _ present := absurd present List.not_mem_nil
  readable _ present := absurd present List.not_mem_nil

theorem Orderly.sublist {entries' : List TaskCheckpoint} (orderly : Orderly task entries)
    (part : entries'.Sublist entries) : Orderly task entries' where
  ids := orderly.ids.sublist (part.map _)
  ascending := orderly.ascending.sublist part
  own entry present := orderly.own entry (part.subset present)
  small entry present := orderly.small entry (part.subset present)
  readable entry present := orderly.readable entry (part.subset present)

theorem Orderly.orderedRows_eq (orderly : Orderly task entries)
    (perm : rows.Perm (entries.map rowOf)) : orderedRows rows = (entries.map rowOf).reverse := by
  have sequence : ∀ entry ∈ entries, (rowOf entry).sequence = entry.throughEventSequence :=
    fun entry present => toInt64_small (orderly.small entry present)
  have strict : (entries.map rowOf).reverse.Pairwise fun left right =>
      right.sequence < left.sequence := by
    rw [List.pairwise_reverse, List.pairwise_map]
    refine orderly.ascending.imp_of_mem ?_
    intro left right first second less
    rw [sequence left first, sequence right second]
    exact_mod_cast less
  have descending : (entries.map rowOf).reverse.Pairwise CheckpointRow.before :=
    strict.imp fun less => .inl less
  have perm' : (orderedRows rows).Perm (entries.map rowOf).reverse :=
    ((List.perm_insertionSort _ _).trans perm).trans (List.reverse_perm _).symm
  refine List.Perm.eq_of_pairwise ?_ (List.pairwise_insertionSort _ _) descending perm'
  intro left right first second forth back
  have same : left.sequence = right.sequence := by
    simp only [CheckpointRow.before] at forth back
    omega
  have unique : ((entries.map rowOf).reverse.map (·.sequence)).Nodup :=
    List.pairwise_map.mpr (strict.imp fun less => Int.ne_of_gt less)
  exact List.inj_on_of_nodup_map unique (perm'.mem_iff.mp first) second same

theorem Orderly.filter_rows (orderly : Orderly task entries)
    (perm : rows.Perm (entries.map rowOf)) {bound : Nat} (small : bound < 2 ^ 63) :
    (rows.filter fun row => row.sequence ≤ toInt64 bound).Perm
      ((entries.filter fun entry => entry.throughEventSequence ≤ bound).map rowOf) := by
  refine (perm.filter _).trans (.of_eq ?_)
  rw [List.filter_map]
  apply congrArg (List.map rowOf)
  apply List.filter_congr
  intro entry present
  simp only [Function.comp_apply, rowOf, toInt64_small small,
    toInt64_small (orderly.small entry present)]
  exact decide_eq_decide.mpr Int.ofNat_le

theorem Orderly.select_first (orderly : Orderly task entries)
    (perm : rows.Perm (entries.map rowOf)) :
    SqliteCheckpointStore.firstDecoded rows = .ok entries.getLast? := by
  rw [SqliteCheckpointStore.firstDecoded, orderly.orderedRows_eq perm, List.head?_reverse,
    List.getLast?_map]
  cases last : entries.getLast? with
  | none => rfl
  | some entry =>
      have present := List.mem_of_getLast? last
      simp only [Option.map_some]
      have decoded : decodeRow (rowOf entry).document = .ok entry := orderly.readable entry present
      rw [decoded]
      rfl

theorem Orderly.pruned (orderly : Orderly task entries) (perm : rows.Perm (entries.map rowOf))
    (dropped : Nat) :
    (rows.filter fun row =>
      row.checkpointId ∈ ((orderedRows rows).take (entries.length - dropped)).map
        (·.checkpointId)).Perm ((entries.drop dropped).map rowOf) := by
  have kept : (orderedRows rows).take (entries.length - dropped) =
      ((entries.drop dropped).map rowOf).reverse := by
    rw [orderly.orderedRows_eq perm, List.take_reverse, List.length_map, List.map_drop]
    by_cases within : dropped ≤ entries.length
    · rw [Nat.sub_sub_self within]
    · rw [List.drop_eq_nil_of_le (by rw [List.length_map]; omega),
        List.drop_eq_nil_of_le (by rw [List.length_map]; omega)]
  refine (perm.filter _).trans (.of_eq ?_)
  rw [kept, List.filter_map]
  apply congrArg (List.map rowOf)
  rw [← Roster.filter_later (fun entry : TaskCheckpoint => entry.id) orderly.ids dropped]
  apply List.filter_congr
  intro entry present
  apply decide_eq_decide.mpr
  rw [Roster.filter_later _ orderly.ids, List.map_reverse, List.mem_reverse, List.map_map]
  exact Iff.rfl

theorem Orderly.filter_all (orderly : Orderly task entries) {bound : Nat}
    (large : 2 ^ 63 ≤ bound) :
    (entries.filter fun entry => entry.throughEventSequence ≤ bound) = entries := by
  apply List.filter_eq_self.mpr
  intro entry present
  have below := orderly.small entry present
  rw [decide_eq_true_eq]
  omega

theorem Orderly.memory_atOrBefore {store : MemoryCheckpointStore}
    (orderly : Orderly task (store.held task)) (bound : Nat) :
    store.latestAtOrBefore task bound =
      ((store.held task).filter fun entry => entry.throughEventSequence ≤ bound).getLast? := by
  have ascending : Ascending (·.throughEventSequence) (store.held task) :=
    orderly.ascending.imp Nat.le_of_lt
  simp only [MemoryCheckpointStore.latestAtOrBefore]
  cases held : store.held task with
  | nil => rfl
  | cons front rest =>
      rw [held] at ascending
      simp only
      split
      · next beyond =>
          rw [List.filter_eq_nil_iff.mpr, List.getLast?_nil]
          intro entry present
          rw [decide_eq_true_eq]
          cases List.mem_cons.mp present with
          | inl own =>
              rw [own]
              omega
          | inr later =>
              have above : front.throughEventSequence ≤ entry.throughEventSequence :=
                (List.pairwise_cons.mp ascending).1 entry later
              omega
      · next within =>
          exact ascending.before_upperBound List.mem_cons_self (Nat.not_lt.mp within)

end Rows

/-- A checkpoint that finds its place: it reaches as far as no other one of the task, and
where it is known already it stays between the same neighbours. -/
structure Placed (entries : List TaskCheckpoint) (checkpoint : TaskCheckpoint) : Prop where
  apart : ∀ held ∈ entries, held.id ≠ checkpoint.id →
    held.throughEventSequence ≠ checkpoint.throughEventSequence
  kept : ∀ old ∈ entries, old.id = checkpoint.id → ∀ held ∈ entries, held.id ≠ checkpoint.id →
    (held.throughEventSequence < old.throughEventSequence ↔
      held.throughEventSequence < checkpoint.throughEventSequence)

section Put
variable {entries : List TaskCheckpoint} {checkpoint : TaskCheckpoint}
  (orderly : Orderly checkpoint.taskId entries) (placed : Placed entries checkpoint)
  (small : checkpoint.throughEventSequence < 2 ^ 63)
  (readable : decodeRow checkpoint.document = .ok checkpoint)
include orderly placed small readable

theorem Orderly.replace : Orderly checkpoint.taskId (Roster.replace (·.id) checkpoint entries) := by
  have each {p : TaskCheckpoint → Prop} (old : ∀ entry ∈ entries, p entry) (own : p checkpoint) :
      ∀ entry ∈ Roster.replace (·.id) checkpoint entries, p entry := by
    intro entry present
    cases Roster.mem_replace _ present with
    | inl held => exact old entry held
    | inr new =>
        rw [new]
        exact own
  refine ⟨?_, ?_, each orderly.own rfl, each orderly.small small, each orderly.readable readable⟩
  · rw [Roster.map_replace]
    exact orderly.ids
  · rw [Roster.replace_eq_map _ orderly.ids, List.pairwise_map]
    have distinct := List.pairwise_map.mp orderly.ids
    refine (orderly.ascending.and distinct).imp_of_mem ?_
    intro left right first second ordered
    obtain ⟨less, differ⟩ := ordered
    by_cases left_own : left.id = checkpoint.id
    · have right_other : right.id ≠ checkpoint.id := fun own => differ (left_own.trans own.symm)
      have beyond := placed.kept left first left_own right second right_other
      have off := placed.apart right second right_other
      rw [if_pos left_own, if_neg right_other]
      omega
    · rw [if_neg left_own]
      by_cases right_own : right.id = checkpoint.id
      · rw [if_pos right_own]
        exact (placed.kept right second right_own left first left_own).mp less
      · rw [if_neg right_own]
        exact less

theorem Orderly.sorted (sorting : SequenceSort) (fresh : checkpoint.id ∉ entries.map (·.id)) :
    Orderly checkpoint.taskId (sorting.sort (entries ++ [checkpoint])) := by
  have perm := sorting.perm (entries ++ [checkpoint])
  have each {p : TaskCheckpoint → Prop} (old : ∀ entry ∈ entries, p entry) (own : p checkpoint) :
      ∀ entry ∈ sorting.sort (entries ++ [checkpoint]), p entry := by
    intro entry present
    have listed := perm.mem_iff.mp present
    cases List.mem_append.mp listed with
    | inl held => exact old entry held
    | inr new =>
        rw [List.mem_singleton.mp new]
        exact own
  have other : ∀ held ∈ entries, held.id ≠ checkpoint.id := fun held present same =>
    fresh (List.mem_map.mpr ⟨held, present, same⟩)
  have throughs : ((entries ++ [checkpoint]).map (·.throughEventSequence)).Nodup := by
    rw [List.map_append, List.nodup_append]
    refine ⟨List.pairwise_map.mpr (orderly.ascending.imp Nat.ne_of_lt), List.nodup_singleton _, ?_⟩
    intro through listed own held
    obtain ⟨entry, present, rfl⟩ := List.mem_map.mp listed
    rw [List.mem_singleton.mp held]
    exact placed.apart entry present (other entry present)
  refine ⟨?_, ?_, each orderly.own rfl, each orderly.small small, each orderly.readable readable⟩
  · rw [(perm.map _).nodup_iff, List.map_append, List.nodup_append]
    refine ⟨orderly.ids, List.nodup_singleton _, ?_⟩
    intro id listed own held
    obtain ⟨entry, present, rfl⟩ := List.mem_map.mp listed
    rw [List.mem_singleton.mp held]
    exact other entry present
  · have distinct := List.pairwise_map.mp ((perm.map (·.throughEventSequence)).nodup_iff.mpr throughs)
    exact ((sorting.ascending _).and distinct).imp fun both => Nat.lt_of_le_of_ne both.1 both.2

end Put

structure CheckpointStores where
  memory : MemoryCheckpointStore
  sqlite : SqliteCheckpointStore

inductive StoreCall
  | put (checkpoint : TaskCheckpoint)
  | eraseTask (task : TaskId)

def CheckpointStores.step (sorting : SequenceSort) (stores : CheckpointStores) :
    StoreCall → CheckpointStores × Unit
  | .put checkpoint =>
      (⟨(stores.memory.put sorting checkpoint).1, (stores.sqlite.put checkpoint).1⟩, ())
  | .eraseTask task => (⟨(stores.memory.eraseTask task).1, (stores.sqlite.eraseTask task).1⟩, ())

def CheckpointStores.empty (maxPerTask : Nat) : CheckpointStores :=
  ⟨{ maxPerTask := maxPerTask }, { maxCheckpointsPerTask := maxPerTask }⟩

/-- The calls under which the stores agree. -/
def CheckpointStores.Admissible (stores : CheckpointStores) : StoreCall → Prop
  | .put checkpoint =>
      checkpoint.validate = .ok () ∧ WordSized checkpoint ∧
      (∀ text ∈ checkpoint.texts, ValidUtf8 text) ∧
      checkpoint.throughEventSequence < 2 ^ 63 ∧ Storable checkpoint ∧
      Placed (stores.memory.held checkpoint.taskId) checkpoint ∧
      (stores.memory.maxPerTask < 2 ^ 63 ∨
        (stores.memory.held checkpoint.taskId).length < stores.memory.maxPerTask)
  | .eraseTask _ => True

/-- The table holds the rows of the entries. -/
structure Agree (stores : CheckpointStores) : Prop where
  bounds : stores.sqlite.maxCheckpointsPerTask = stores.memory.maxPerTask
  size : stores.memory.maxPerTask < 2 ^ 64
  orderly : ∀ task, Orderly task (stores.memory.held task)
  rows : ∀ task, (stores.sqlite.rowsOf task).Perm ((stores.memory.held task).map rowOf)
  within : ∀ task, (stores.memory.held task).length ≤ stores.memory.maxPerTask

theorem limited_eq {bound length dropped : Nat} (size : bound < 2 ^ 64) {rows : List CheckpointRow}
    (all : rows.length = length) (room : length - dropped ≤ bound)
    (full : dropped = 0 ∨ (bound < 2 ^ 63 ∧ bound = length - dropped)) :
    limited (toInt64 bound) rows = rows.take (length - dropped) := by
  rw [limited]
  by_cases small : bound < 2 ^ 63
  · rw [toInt64_small small, if_neg (by omega), Int.toNat_natCast]
    cases full with
    | inl none_ =>
        rw [none_, Nat.sub_zero, List.take_of_length_le (by omega),
          List.take_of_length_le (by omega)]
    | inr some_ => rw [some_.2]
  · have negative : toInt64 bound < 0 := by
      simp only [toInt64, Nat.mod_eq_of_lt size, if_neg small]
      omega
    rw [if_pos negative]
    cases full with
    | inl none_ => rw [none_, Nat.sub_zero, List.take_of_length_le (by omega)]
    | inr some_ => exact absurd some_.1 small

section Step
variable {stores : CheckpointStores} (agree : Agree stores)
include agree

variable (task : TaskId)

theorem Agree.latest : stores.sqlite.latest task = .ok (stores.memory.latest task) :=
  (agree.orderly task).select_first (agree.rows task)

theorem Agree.count : stores.sqlite.count task = stores.memory.count task := by
  rw [SqliteCheckpointStore.count, (agree.rows task).length_eq, List.length_map]
  rfl

/-- A bound that the cast keeps, or that means none, gives the same checkpoint; the cast
of any other bound is below every sequence. -/
theorem Agree.latestAtOrBefore {bound : Nat} (size : bound < 2 ^ 64) :
    stores.sqlite.latestAtOrBefore task bound = .ok (stores.memory.latestAtOrBefore task bound) ↔
      bound < 2 ^ 63 ∨ bound = 2 ^ 64 - 1 ∨ stores.memory.count task = 0 := by
  have orderly := agree.orderly task
  have perm := agree.rows task
  rw [orderly.memory_atOrBefore, SqliteCheckpointStore.latestAtOrBefore,
    SqliteCheckpointStore.selectLatest]
  by_cases whole : bound = 2 ^ 64 - 1
  · have none_ : (some bound).filter (fun bound => bound < 2 ^ 64 - 1) = none := by
      rw [Option.filter_eq_none_iff]
      intro cap own
      cases own
      rw [decide_eq_true_eq]
      omega
    simp only [none_]
    rw [orderly.filter_all (by omega), orderly.select_first perm]
    exact iff_of_true rfl (.inr (.inl whole))
  · have some_ : (some bound).filter (fun bound => bound < 2 ^ 64 - 1) = some bound := by
      rw [Option.filter_some, if_pos]
      rw [decide_eq_true_eq]
      omega
    simp only [some_, whole, false_or]
    by_cases small : bound < 2 ^ 63
    · have kept := orderly.sublist
        (List.filter_sublist (p := fun entry => entry.throughEventSequence ≤ bound))
      simp only [kept.select_first (orderly.filter_rows perm small), small, true_or]
    · have negative : toInt64 bound < 0 := by
        simp only [toInt64, Nat.mod_eq_of_lt size, if_neg small]
        omega
      have hidden : ((stores.sqlite.rowsOf task).filter fun row => row.sequence ≤ toInt64 bound) =
          [] := by
        apply List.filter_eq_nil_iff.mpr
        intro row present
        obtain ⟨entry, listed, own⟩ := List.mem_map.mp (perm.mem_iff.mp present)
        have sequence : row.sequence = entry.throughEventSequence := by
          rw [← own]
          exact toInt64_small (orderly.small entry listed)
        rw [decide_eq_true_eq, sequence]
        omega
      have none_ : SqliteCheckpointStore.firstDecoded [] = .ok none := rfl
      rw [hidden, orderly.filter_all (Nat.not_lt.mp small), none_, MemoryCheckpointStore.count, List.length_eq_zero_iff]
      simp only [small, false_or, Except.ok.injEq]
      rw [eq_comm, List.getLast?_eq_none_iff]

variable {checkpoint : TaskCheckpoint}

theorem Agree.rows_put {entries : List TaskCheckpoint} (valid : checkpoint.validate = .ok ())
    (orderly : Orderly checkpoint.taskId entries)
    (put : (Roster.put (·.checkpointId) (rowOf checkpoint)
      (stores.sqlite.rowsOf checkpoint.taskId)).Perm (entries.map rowOf)) (dropped : Nat)
    (room : entries.length - dropped ≤ stores.memory.maxPerTask)
    (full : dropped = 0 ∨ (stores.memory.maxPerTask < 2 ^ 63 ∧
      stores.memory.maxPerTask = entries.length - dropped)) :
    ((stores.sqlite.put checkpoint).1.rowsOf checkpoint.taskId).Perm
      ((entries.drop dropped).map rowOf) := by
  simp only [SqliteCheckpointStore.put_rowsOf valid, if_true, agree.bounds]
  have length : (orderedRows (Roster.put (·.checkpointId) (rowOf checkpoint)
      (stores.sqlite.rowsOf checkpoint.taskId))).length = entries.length := by
    rw [orderedRows, List.length_insertionSort, put.length_eq, List.length_map]
  rw [limited_eq agree.size length room full]
  exact orderly.pruned put dropped

theorem Agree.rows_replace
    (known : Roster.holds (·.id) checkpoint.id (stores.memory.held task) = true) :
    (Roster.put (·.checkpointId) (rowOf checkpoint) (stores.sqlite.rowsOf task)).Perm
      ((Roster.replace (·.id) checkpoint (stores.memory.held task)).map rowOf) := by
  have perm := agree.rows task
  have ids : ((stores.sqlite.rowsOf task).map (·.checkpointId)).Perm
      ((stores.memory.held task).map (·.id)) := by
    have mapped := perm.map (·.checkpointId)
    rw [List.map_map] at mapped
    exact mapped
  have unique := ids.nodup_iff.mpr (agree.orderly task).ids
  have held : Roster.holds (·.checkpointId) (rowOf checkpoint).checkpointId
      (stores.sqlite.rowsOf task) = true :=
    (Roster.holds_iff _ _ _).mpr (ids.mem_iff.mpr ((Roster.holds_iff _ _ _).mp known))
  rw [Roster.put, if_pos held, Roster.replace_eq_map _ unique,
    Roster.replace_eq_map _ (agree.orderly task).ids, List.map_map]
  refine (perm.map _).trans (.of_eq ?_)
  rw [List.map_map]
  apply List.map_congr_left
  intro entry _
  exact (apply_ite rowOf (entry.id = checkpoint.id) checkpoint entry).symm

variable (sorting : SequenceSort)

theorem Agree.rows_append (fresh : checkpoint.id ∉ (stores.memory.held task).map (·.id)) :
    (Roster.put (·.checkpointId) (rowOf checkpoint) (stores.sqlite.rowsOf task)).Perm
      ((sorting.sort (stores.memory.held task ++ [checkpoint])).map rowOf) := by
  have perm := agree.rows task
  have absent : ¬ Roster.holds (·.checkpointId) (rowOf checkpoint).checkpointId
      (stores.sqlite.rowsOf task) = true := by
    rw [Roster.holds_iff, (perm.map (·.checkpointId)).mem_iff, List.map_map]
    exact fresh
  rw [Roster.put, if_neg absent]
  refine (perm.append_right _).trans ?_
  have sorted := (sorting.perm (stores.memory.held task ++ [checkpoint])).map rowOf
  rw [List.map_append] at sorted
  exact sorted.symm

theorem Agree.put_own (admissible : stores.Admissible (.put checkpoint)) :
    let entries := (stores.memory.put sorting checkpoint).1.held checkpoint.taskId
    Orderly checkpoint.taskId entries ∧
      ((stores.sqlite.put checkpoint).1.rowsOf checkpoint.taskId).Perm (entries.map rowOf) ∧
      entries.length ≤ stores.memory.maxPerTask := by
  obtain ⟨valid, sized, utf8, small, storable, placed, bound⟩ := admissible
  have readable := decodeRow_document valid sized utf8 storable
  have orderly := agree.orderly checkpoint.taskId
  have within := agree.within checkpoint.taskId
  simp only [MemoryCheckpointStore.put_held valid, if_true]
  by_cases known : Roster.holds (·.id) checkpoint.id (stores.memory.held checkpoint.taskId) = true
  · have length := Roster.length_replace (·.id) checkpoint (stores.memory.held checkpoint.taskId)
    rw [if_pos known]
    refine ⟨orderly.replace placed small readable, ?_, by omega⟩
    exact agree.rows_put valid (orderly.replace placed small readable)
      (agree.rows_replace _ known) 0 (by omega) (.inl rfl)
  · have fresh := fun listed => known ((Roster.holds_iff _ _ _).mpr listed)
    have length : (sorting.sort (stores.memory.held checkpoint.taskId ++ [checkpoint])).length =
        (stores.memory.held checkpoint.taskId).length + 1 := by
      rw [(sorting.perm _).length_eq, List.length_append, List.length_singleton]
    have sorted := orderly.sorted placed small readable sorting fresh
    have put := agree.rows_put valid sorted (agree.rows_append _ sorting fresh)
    rw [if_neg known]
    simp only [MemoryCheckpointStore.inserted]
    split
    · next full =>
        rw [← List.drop_one]
        refine ⟨sorted.sublist (List.drop_sublist _ _), put 1 (by omega) (.inr (by omega)), ?_⟩
        rw [List.length_drop]
        omega
    · next room => exact ⟨sorted, put 0 (by omega) (.inl rfl), by omega⟩

theorem Agree.step (call : StoreCall) (admissible : stores.Admissible call) :
    Agree (stores.step sorting call).1 := by
  cases call with
  | put checkpoint =>
      have valid := admissible.1
      have own := agree.put_own sorting admissible
      have bound : (stores.memory.put sorting checkpoint).1.maxPerTask =
          stores.memory.maxPerTask := by
        simp only [MemoryCheckpointStore.put, valid]
      have bound' : (stores.sqlite.put checkpoint).1.maxCheckpointsPerTask =
          stores.sqlite.maxCheckpointsPerTask := by
        simp only [SqliteCheckpointStore.put, valid]
      have other {task : TaskId} (elsewhere : task ≠ checkpoint.taskId) :
          (stores.memory.put sorting checkpoint).1.held task = stores.memory.held task ∧
          (stores.sqlite.put checkpoint).1.rowsOf task = stores.sqlite.rowsOf task := by
        rw [MemoryCheckpointStore.put_held valid, SqliteCheckpointStore.put_rowsOf valid,
          if_neg elsewhere, if_neg elsewhere]
        exact ⟨rfl, rfl⟩
      refine ⟨bound'.trans (agree.bounds.trans bound.symm), bound.symm ▸ agree.size, ?_, ?_, ?_⟩
      · intro task
        by_cases same : task = checkpoint.taskId
        · rw [same]
          exact own.1
        · exact (other same).1.symm ▸ agree.orderly task
      · intro task
        by_cases same : task = checkpoint.taskId
        · rw [same]
          exact own.2.1
        · simp only [CheckpointStores.step, (other same).1, (other same).2]
          exact agree.rows task
      · intro task
        simp only [CheckpointStores.step, bound]
        by_cases same : task = checkpoint.taskId
        · rw [same]
          exact own.2.2
        · rw [(other same).1]
          exact agree.within task
  | eraseTask erased =>
      have held (task : TaskId) : (stores.memory.eraseTask erased).1.held task =
          if task = erased then [] else stores.memory.held task :=
        MemoryCheckpointStore.eraseTask_held _ _ _
      have bound : (stores.memory.eraseTask erased).1.maxPerTask = stores.memory.maxPerTask :=
        MemoryCheckpointStore.eraseTask_maxPerTask _ _
      refine ⟨agree.bounds.trans bound.symm, bound.symm ▸ agree.size, ?_, ?_, ?_⟩
      · intro task
        simp only [CheckpointStores.step, held]
        split
        · exact Orderly.nil task
        · exact agree.orderly task
      · intro task
        simp only [CheckpointStores.step, held, SqliteCheckpointStore.eraseTask_rowsOf]
        split
        · exact List.Perm.nil
        · exact agree.rows task
      · intro task
        simp only [CheckpointStores.step, held, bound]
        split
        · exact Nat.zero_le _
        · exact agree.within task

end Step

theorem agree_empty {maxPerTask : Nat} (size : maxPerTask < 2 ^ 64) :
    Agree (.empty maxPerTask) where
  bounds := rfl
  size := size
  orderly := Orderly.nil
  rows _ := List.Perm.nil
  within _ := Nat.zero_le _

/-- When the stores agree. After every run of admissible calls they count the same
checkpoints and return the same latest one, and they return the same one for a bound
exactly if the cast keeps it, it is the largest one, or there is none. -/
theorem stores_agree (sorting : SequenceSort) (maxPerTask : Nat) (size : maxPerTask < 2 ^ 64)
    (calls : List StoreCall)
    (guarded : Execution.Guarded (CheckpointStores.step sorting) CheckpointStores.Admissible
      (.empty maxPerTask) calls) (task : TaskId) :
    let stores := Execution.run (CheckpointStores.step sorting) (.empty maxPerTask) calls
    stores.sqlite.count task = stores.memory.count task ∧
    stores.sqlite.latest task = .ok (stores.memory.latest task) ∧
    ∀ bound < 2 ^ 64,
      (stores.sqlite.latestAtOrBefore task bound =
          .ok (stores.memory.latestAtOrBefore task bound) ↔
        bound < 2 ^ 63 ∨ bound = 2 ^ 64 - 1 ∨ stores.memory.count task = 0) := by
  intro stores
  have agree : Agree stores :=
    Execution.run_invariant _ _ _ (fun _ call admissible agree => agree.step sorting call admissible)
      _ calls (agree_empty size) guarded
  exact ⟨agree.count task, agree.latest task, fun bound => agree.latestAtOrBefore task⟩

/-- A checkpoint of one task that reaches a sequence. -/
def reachingCheckpoint (id : UInt8) (sequence created : Nat) : TaskCheckpoint :=
  { id := .filled id
    taskId := .filled 3
    sessionId := .filled 2
    throughEventSequence := sequence
    createdAt := { wall := created }
    goalStatement := ascii "open the door" }

theorem reachingCheckpoint_sized (id : UInt8) {sequence created : Nat} (small : sequence < 2 ^ 63)
    (early : created < 2 ^ 63) : WordSized (reachingCheckpoint id sequence created) := by
  have zero : 0 < 2 ^ 64 := by decide
  have schema : checkpointSchemaCurrent.major < 2 ^ 16 ∧ checkpointSchemaCurrent.minor < 2 ^ 16 := by
    decide
  refine ⟨forall_counters.mpr ⟨zero, zero, small.trans (by decide), ?_, ?_⟩, ?_, ?_, schema⟩
  · intro reference held
    cases held
  · intro summary held
    cases held
  · intro time listed
    simp only [TaskCheckpoint.times, reachingCheckpoint, List.mem_cons, List.not_mem_nil,
      or_false] at listed
    omega
  · intro fact held
    cases held

theorem reachingCheckpoint_utf8 (id : UInt8) (sequence created : Nat) :
    ∀ text ∈ (reachingCheckpoint id sequence created).texts, ValidUtf8 text := by
  intro text present
  have low : ∀ b ∈ ascii "open the door", b.toNat < 128 := by decide
  rw [List.mem_singleton.mp present]
  exact validUtf8_printable_ascii _ low

/-- The first checkpoint is pushed out by the second. -/
theorem pushed_out_agrees :
    let stores := Execution.run (CheckpointStores.step (insertion _)) (.empty 1)
      [.put (reachingCheckpoint 5 1 1), .put (reachingCheckpoint 6 2 2)]
    stores.sqlite.latest (.filled 3) = .ok (stores.memory.latest (.filled 3)) ∧
    stores.sqlite.latestAtOrBefore (.filled 3) 1 =
      .ok (stores.memory.latestAtOrBefore (.filled 3) 1) := by
  have first : CheckpointStores.Admissible (.empty 1) (.put (reachingCheckpoint 5 1 1)) := by
    refine ⟨by decide +kernel, reachingCheckpoint_sized 5 (by decide) (by decide),
      reachingCheckpoint_utf8 5 1 1, by decide, ?_, ?_, .inl (by decide)⟩
    · exact ⟨by decide +kernel, by decide +kernel, by decide +kernel, by decide +kernel,
        by decide +kernel⟩
    · constructor
      · intro held present
        cases present
      · intro old present
        cases present
  have held : ((CheckpointStores.step (insertion _) (.empty 1)
      (.put (reachingCheckpoint 5 1 1))).1.memory.held (.filled 3)) =
      [reachingCheckpoint 5 1 1] := by
    decide +kernel
  have second : CheckpointStores.Admissible (CheckpointStores.step (insertion _) (.empty 1)
      (.put (reachingCheckpoint 5 1 1))).1 (.put (reachingCheckpoint 6 2 2)) := by
    refine ⟨by decide +kernel, reachingCheckpoint_sized 6 (by decide) (by decide),
      reachingCheckpoint_utf8 6 2 2, by decide, ?_, ?_, .inl (by decide)⟩
    · exact ⟨by decide +kernel, by decide +kernel, by decide +kernel, by decide +kernel,
        by decide +kernel⟩
    · have placed : Placed [reachingCheckpoint 5 1 1] (reachingCheckpoint 6 2 2) :=
        ⟨by decide +kernel, by decide +kernel⟩
      exact held.symm ▸ placed
  have agree := stores_agree (insertion _) 1 (by decide)
    [.put (reachingCheckpoint 5 1 1), .put (reachingCheckpoint 6 2 2)] ⟨first, second, trivial⟩
    (.filled 3)
  exact ⟨agree.2.1, (agree.2.2 1 (by decide)).mpr (.inl (by decide))⟩

/-- Two checkpoints, and the first of them again with a later sequence. -/
def restoredCalls : List StoreCall :=
  [.put (reachingCheckpoint 5 1 1), .put (reachingCheckpoint 6 2 2),
    .put (reachingCheckpoint 5 3 3)]

/-- The list keeps the checkpoint in its place, and the table orders it last. -/
theorem restored_checkpoint_differs :
    let stores := Execution.run (CheckpointStores.step (insertion _)) (.empty 64) restoredCalls
    (reachingCheckpoint 5 1 1).validate = .ok () ∧ (reachingCheckpoint 6 2 2).validate = .ok () ∧
    (reachingCheckpoint 5 3 3).validate = .ok () ∧
    stores.memory.latest (.filled 3) = some (reachingCheckpoint 6 2 2) ∧
    stores.sqlite.latest (.filled 3) = .ok (some (reachingCheckpoint 5 3 3)) := by
  refine ⟨by decide +kernel, by decide +kernel, by decide +kernel, by decide +kernel, ?_⟩
  decide +kernel

end Mira.Checkpoint
