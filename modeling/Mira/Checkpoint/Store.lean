import Mira.Checkpoint.Contracts
import Mira.Library.Ranked
import Mira.Library.Roster

/-!
The in-memory checkpoint store: for each task a list in the order of the sequences the
checkpoints reach. A new checkpoint is sorted in and may push out the first one; a
known one is replaced where it stands.
-/

namespace Mira.Checkpoint
open Mira Bytes Ranked

/-- `std::sort` by the sequence a checkpoint reaches. -/
abbrev SequenceSort := Sorting fun checkpoint : TaskCheckpoint => checkpoint.throughEventSequence

structure MemoryCheckpointStore where
  maxPerTask : Nat := 64
  tasks : TaskId → Option (List TaskCheckpoint) := fun _ => none
  erasures : Nat := 0

namespace MemoryCheckpointStore

def held (store : MemoryCheckpointStore) (task : TaskId) : List TaskCheckpoint :=
  (store.tasks task).getD []

def inserted (sorting : SequenceSort) (maxPerTask : Nat) (checkpoint : TaskCheckpoint)
    (entries : List TaskCheckpoint) : List TaskCheckpoint :=
  let sorted := sorting.sort (entries ++ [checkpoint])
  if maxPerTask < sorted.length then sorted.tail else sorted

def put (sorting : SequenceSort) (store : MemoryCheckpointStore) (checkpoint : TaskCheckpoint) :
    MemoryCheckpointStore × Result Unit :=
  match checkpoint.validate with
  | .error reason => (store, .error reason)
  | .ok () =>
      let entries := store.held checkpoint.taskId
      let entries' :=
        if Roster.holds (·.id) checkpoint.id entries then Roster.replace (·.id) checkpoint entries
        else inserted sorting store.maxPerTask checkpoint entries
      ({ store with tasks := Function.update store.tasks checkpoint.taskId (some entries') }, .ok ())

def latest (store : MemoryCheckpointStore) (task : TaskId) : Option TaskCheckpoint :=
  (store.held task).getLast?

def latestAtOrBefore (store : MemoryCheckpointStore) (task : TaskId) (maxSequence : Nat) :
    Option TaskCheckpoint :=
  let entries := store.held task
  match entries with
  | [] => none
  | front :: _ =>
      if maxSequence < front.throughEventSequence then none
      else entries[upperBound (·.throughEventSequence) entries maxSequence - 1]?

def count (store : MemoryCheckpointStore) (task : TaskId) : Nat := (store.held task).length

def eraseTask (store : MemoryCheckpointStore) (task : TaskId) : MemoryCheckpointStore × Nat :=
  match store.tasks task with
  | none => (store, 0)
  | some entries =>
      ({ store with
          tasks := Function.update store.tasks task none
          erasures := store.erasures + 1 }, entries.length)

variable {sorting : SequenceSort} {store : MemoryCheckpointStore} {checkpoint : TaskCheckpoint}

theorem put_held (valid : checkpoint.validate = .ok ()) (task : TaskId) :
    ((store.put sorting checkpoint).1.held task) =
      if task = checkpoint.taskId then
        if Roster.holds (·.id) checkpoint.id (store.held task) then
          Roster.replace (·.id) checkpoint (store.held task)
        else inserted sorting store.maxPerTask checkpoint (store.held task)
      else store.held task := by
  simp only [put, valid, held]
  by_cases own : task = checkpoint.taskId
  · subst own
    rw [Function.update_self, if_pos rfl]
    rfl
  · rw [Function.update_of_ne own, if_neg own]

theorem eraseTask_held (store : MemoryCheckpointStore) (erased task : TaskId) :
    (store.eraseTask erased).1.held task = if task = erased then [] else store.held task := by
  simp only [eraseTask]
  by_cases own : task = erased
  · subst own
    rw [if_pos rfl]
    cases listed : store.tasks task with
    | none => simp [held, listed]
    | some entries => simp [held]
  · rw [if_neg own]
    cases store.tasks erased with
    | none => rfl
    | some entries => simp [held, Function.update_of_ne own]

theorem eraseTask_maxPerTask (store : MemoryCheckpointStore) (erased : TaskId) :
    (store.eraseTask erased).1.maxPerTask = store.maxPerTask := by
  simp only [eraseTask]
  cases store.tasks erased with
  | none => rfl
  | some entries => rfl

theorem put_new (valid : checkpoint.validate = .ok ())
    (fresh : ∀ entry ∈ store.held checkpoint.taskId, entry.id ≠ checkpoint.id) :
    (store.put sorting checkpoint).1.held checkpoint.taskId =
      inserted sorting store.maxPerTask checkpoint (store.held checkpoint.taskId) := by
  rw [put_held valid, if_pos rfl, if_neg]
  intro known
  obtain ⟨entry, present, same⟩ := List.mem_map.mp ((Roster.holds_iff _ _ _).mp known)
  exact fresh entry present same

/-- What is last after a new checkpoint: nothing if there was no room, else what the
sort puts last. -/
theorem inserted_last (sorting : SequenceSort) (maxPerTask : Nat) (checkpoint : TaskCheckpoint)
    (entries : List TaskCheckpoint) :
    (inserted sorting maxPerTask checkpoint entries).getLast? =
      if entries = [] ∧ maxPerTask = 0 then none
      else (sorting.sort (entries ++ [checkpoint])).getLast? := by
  have length : (sorting.sort (entries ++ [checkpoint])).length = entries.length + 1 := by
    rw [(sorting.perm _).length_eq, List.length_append, List.length_singleton]
  simp only [inserted]
  cases sorted : sorting.sort (entries ++ [checkpoint]) with
  | nil =>
      rw [sorted] at length
      cases length
  | cons first rest =>
      rw [sorted, List.length_cons] at length
      cases rest with
      | nil =>
          have empty : entries = [] := List.length_eq_zero_iff.mp (Nat.succ.inj length).symm
          by_cases full : maxPerTask = 0
          · simp [empty, full]
          · rw [if_neg (by simp only [List.length_singleton]; omega), if_neg (full ·.2)]
      | cons second rest =>
          have some_ : ¬ (entries = [] ∧ maxPerTask = 0) := by
            intro none_
            rw [none_.1] at length
            cases length
          rw [if_neg some_]
          split
          · rfl
          · rfl

end MemoryCheckpointStore

end Mira.Checkpoint
