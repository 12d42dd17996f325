import Mira.Checkpoint.Planner
import Mira.Checkpoint.Store

/-!
The checkpoint coordinator's rebuild. A full rebuild from the log is compared with the
latest stored checkpoint and, to repair, stored. The store sorts it in by the sequence
it reaches, so it becomes the latest one only if nothing stored reaches further.
-/

namespace Mira.Checkpoint
open Mira Bytes Events Ranked

structure CheckpointSchedulePolicy where
  minEventIncrement : Nat := 4
  rebuildIntervalEvents : Nat := 256
  builder : CheckpointReducerConfig := {}

structure ProjectionReport where
  consistent : Bool := false
  storedSequence : Nat := 0
  rebuiltSequence : Nat := 0
  storedDigest : Sha256Digest := .zero
  rebuiltDigest : Sha256Digest := .zero
  repaired : Bool := false
  note : String := ""

structure TaskScan where
  collected : List EventEnvelope := []
  after : Option Nat := none

namespace TaskScan
variable (log : MemoryEventStore) (policy : CheckpointSchedulePolicy) (task : TaskId)
  (session : SessionId)

/-- The events of the session that were not read yet. -/
def unread (scan : TaskScan) : List EventEnvelope :=
  log.events.filter fun event =>
    event.sessionId = session && scan.after.getD 0 < event.sessionSequence

/-- An empty page ends the loop like the last one does. -/
def fetch (scan : TaskScan) : Result (List EventEnvelope × Bool) :=
  let page := log.read ⟨session, scan.after, 1024⟩
  .ok (page.events, page.hasMore && !page.events.isEmpty)

def visit (scan : TaskScan) (event : EventEnvelope) : Result TaskScan :=
  .ok { collected := if event.taskId = some task then scan.collected ++ [event]
          else scan.collected
        after := some event.sessionSequence }

def again (scan : TaskScan) : Result Unit :=
  if policy.rebuildIntervalEvents * 16 % 2 ^ 32 < scan.collected.length then
    .error (checkpointError .resourceExhausted "task event scan exceeded the scheduling bound")
  else .ok ()

/-- There are no more rounds than events. -/
def run : Option (Result TaskScan) :=
  Paging.scan (fetch log session) (visit task) (again policy) (log.events.length + 1) {}

theorem fetch_eq (scan : TaskScan) :
    fetch log session scan =
      .ok ((scan.unread log session).take 1024,
        decide (1024 < (scan.unread log session).length) &&
          !((scan.unread log session).take 1024).isEmpty) := rfl

theorem visitAll_after (scan next : TaskScan) (events : List EventEnvelope)
    (last : EventEnvelope) (visited : Paging.visitAll (visit task) scan (events ++ [last]) = .ok next) :
    next.after = some last.sessionSequence := by
  rw [Paging.visitAll_append] at visited
  split at visited
  · cases visited
  · cases visited
    rfl

theorem unread_lt {scan next : TaskScan} {last : EventEnvelope}
    (present : last ∈ scan.unread log session) (after : next.after = some last.sessionSequence) :
    (next.unread log session).length < (scan.unread log session).length := by
  have beyond := (List.mem_filter.mp present).2
  rw [Bool.and_eq_true, decide_eq_true_eq, decide_eq_true_eq] at beyond
  have fewer : next.unread log session = (scan.unread log session).filter fun event =>
      last.sessionSequence < event.sessionSequence := by
    simp only [unread, List.filter_filter, after, Option.getD_some]
    apply List.filter_congr
    intro event _
    by_cases later : last.sessionSequence < event.sessionSequence
    · have earlier : scan.after.getD 0 < event.sessionSequence := beyond.2.trans later
      simp only [later, earlier]
      simp
    · simp only [later]
      simp
  rw [fewer, List.length_filter_lt_length_iff_exists]
  exact ⟨last, present, by simp⟩

theorem ends_without_bound : run log policy task session ≠ none := by
  refine Paging.scan_ends_of_left (fun scan => (scan.unread log session).length) ?_ _ _ ?_
  · intro scan items next fetched visited
    rw [fetch_eq] at fetched
    obtain ⟨rfl, more⟩ := Prod.mk.inj (Except.ok.inj fetched)
    rw [Bool.and_eq_true, Bool.not_eq_true'] at more
    cases List.eq_nil_or_concat ((scan.unread log session).take 1024) with
    | inl empty =>
        rw [empty] at more
        cases more.2
    | inr split =>
        obtain ⟨events, last, split⟩ := split
        rw [List.concat_eq_append] at split
        rw [split] at visited
        have served : last ∈ (scan.unread log session).take 1024 := by
          rw [split]
          exact List.mem_append_right _ List.mem_cons_self
        exact unread_lt log session (List.mem_of_mem_take served)
          (visitAll_after task scan next events last visited)
  · exact Nat.lt_succ_of_le (List.length_filter_le _ _)

end TaskScan

/-- `CheckpointCoordinator::read_task_events`. -/
def readTaskEvents (log : MemoryEventStore) (policy : CheckpointSchedulePolicy) (task : TaskId)
    (session : SessionId) : Result (List EventEnvelope) :=
  match TaskScan.run log policy task session with
  | some (.ok scan) => .ok scan.collected
  | some (.error reason) => .error reason
  | none => .error (checkpointError .internal "unreachable")

theorem readTaskEvents_own {log : MemoryEventStore} {policy : CheckpointSchedulePolicy}
    {task : TaskId} {session : SessionId} {events : List EventEnvelope}
    (collected : readTaskEvents log policy task session = .ok events) :
    ∀ event ∈ events, event.taskId = some task ∧ 0 < event.sessionSequence := by
  simp only [readTaskEvents] at collected
  split at collected
  · next scan ran =>
      cases collected
      refine Paging.scan_invariant (fun scan : TaskScan => ∀ event ∈ scan.collected,
        event.taskId = some task ∧ 0 < event.sessionSequence)
        (fun event => 0 < event.sessionSequence) ?_ ?_ _ _ ?_ scan ran
      · intro scan items more fetched event present
        rw [TaskScan.fetch_eq] at fetched
        obtain ⟨rfl, _⟩ := Prod.mk.inj (Except.ok.inj fetched)
        have served := (List.mem_filter.mp (List.mem_of_mem_take present)).2
        rw [Bool.and_eq_true, decide_eq_true_eq, decide_eq_true_eq] at served
        exact Nat.zero_lt_of_lt served.2
      · intro scan event next held positive visited
        cases visited
        intro other present
        simp only at present
        split at present
        · next scope =>
            cases List.mem_append.mp present with
            | inl old => exact held other old
            | inr new =>
                rw [List.mem_singleton.mp new]
                exact ⟨scope, positive⟩
        · exact held other present
      · intro event present
        cases present
  · cases collected
  · cases collected

def ProjectionReport.compare (rebuilt : TaskCheckpoint) (stored : Option TaskCheckpoint) :
    ProjectionReport :=
  let sequence := (stored.map (·.throughEventSequence)).getD 0
  let digest := (stored.map (·.projectionDigest)).getD .zero
  { consistent := digest = rebuilt.projectionDigest && sequence = rebuilt.throughEventSequence
    storedSequence := sequence
    rebuiltSequence := rebuilt.throughEventSequence
    storedDigest := digest
    rebuiltDigest := rebuilt.projectionDigest }

def rebuild (sorting : SequenceSort) (policy : CheckpointSchedulePolicy) (log : MemoryEventStore)
    (store : MemoryCheckpointStore) (task : TaskId) (session : SessionId) (now : Timestamp)
    (entropy : Id128) (repair : Bool) : MemoryCheckpointStore × Result ProjectionReport :=
  match readTaskEvents log policy task session with
  | .error reason => (store, .error reason)
  | .ok events =>
      let built := build policy.builder none events now entropy
      match built.checkpoint.validate with
      | .error reason => (store, .error reason)
      | .ok () =>
          let report := ProjectionReport.compare built.checkpoint (store.latest task)
          if report.consistent then (store, .ok report)
          else if repair then
            match store.put sorting built.checkpoint with
            | (store', .error reason) => (store', .error reason)
            | (store', .ok ()) =>
                (store', .ok { report with
                  repaired := true
                  note := "stored projection replaced by full rebuild" })
          else
            (store, .ok { report with note := "stored projection diverges from the event log" })

section Rebuilt
variable (config : CheckpointReducerConfig) (events : List EventEnvelope) (now : Timestamp)

theorem build_through {task : TaskId} (some_ : events ≠ [])
    (own : ∀ event ∈ events, event.taskId = some task) (entropy : Id128) :
    (build config none events now entropy).checkpoint.throughEventSequence =
      durableSequence events := by
  have reaches (rest : List EventEnvelope) (projection : Projection)
      (own : ∀ event ∈ rest, event.taskId = some task) (scope : projection.taskId = task) :
      (Execution.run (foldStep config) projection rest).throughEventSequence =
        rest.foldl (fun high event => max high event.sessionSequence)
          projection.throughEventSequence := by
    induction rest generalizing projection with
    | nil => rfl
    | cons event rest ih =>
        obtain ⟨first, later⟩ := List.forall_mem_cons.mp own
        rw [Execution.run, ih _ later ((foldStep_identity config projection event).1.trans scope),
          List.foldl_cons]
        congr 1
        cases foldStep_cases config projection event with
        | inl folds =>
            rw [folds.2]
            exact (applyEvent_identity config _ event).through.trans
              (max_eq_right folds.1.2.le).symm
        | inr skips =>
            rw [skips.2]
            refine (max_eq_left (not_lt.mp fun unseen => skips.1 ⟨?_, unseen⟩)).symm
            intro other named
            rw [scope]
            exact Option.some.inj (named.symm.trans first)
  have start : (adopt events).throughEventSequence = 0 := by
    simp only [adopt]
    split <;> rfl
  have all := reaches events (adopt events) own (adopt_task some_ own)
  rw [start] at all
  exact all

variable (entropy entropy' : Id128)

theorem build_validate :
    (build config none events now entropy).checkpoint.validate =
      (build config none events now entropy').checkpoint.validate := by
  have named (entropy : Id128) :
      (build config none events now entropy).checkpoint.id.isNil = false :=
    StrongId.generate_not_nil entropy
  simp only [TaskCheckpoint.validate, named]
  rfl

end Rebuilt

/-- The latest checkpoint of the task has that digest and reaches that sequence. -/
def Current (store : MemoryCheckpointStore) (task : TaskId) (digest : Sha256Digest)
    (sequence : Nat) : Prop :=
  ∃ held, store.latest task = some held ∧ held.projectionDigest = digest ∧
    held.throughEventSequence = sequence

theorem compare_consistent {rebuilt : TaskCheckpoint} (positive : 0 < rebuilt.throughEventSequence)
    (store : MemoryCheckpointStore) (task : TaskId) :
    (ProjectionReport.compare rebuilt (store.latest task)).consistent = true ↔
      Current store task rebuilt.projectionDigest rebuilt.throughEventSequence := by
  simp only [ProjectionReport.compare, Bool.and_eq_true, decide_eq_true_eq, Current]
  cases store.latest task with
  | none =>
      constructor
      · intro same
        exact absurd same.2 positive.ne
      · intro current
        obtain ⟨_, held, _⟩ := current
        cases held
  | some held =>
      simp only [Option.map_some, Option.getD_some, Option.some.injEq, exists_eq_left']

section Rebuild
variable {policy : CheckpointSchedulePolicy} {log : MemoryEventStore} {task : TaskId}
  {session : SessionId} {now : Timestamp} {events : List EventEnvelope}
  (read : readTaskEvents log policy task session = .ok events)
  (sorting : SequenceSort) (store : MemoryCheckpointStore) (entropy : Id128)
include read

theorem rebuild_report {rebuilt : TaskCheckpoint}
    (built : (build policy.builder none events now entropy).checkpoint = rebuilt)
    (valid : rebuilt.validate = .ok ()) (repair : Bool) :
    let found := (ProjectionReport.compare rebuilt (store.latest task)).consistent
    ∃ report,
      rebuild sorting policy log store task session now entropy repair =
        (if found = true ∨ repair = false then store else (store.put sorting rebuilt).1,
          .ok report) ∧
      report.consistent = found := by
  intro found
  have stored : (store.put sorting rebuilt).2 = .ok () := by
    simp only [MemoryCheckpointStore.put, valid]
  simp only [rebuild, read, built, valid]
  by_cases consistent : found = true
  · rw [if_pos consistent, if_pos (.inl consistent)]
    exact ⟨_, rfl, rfl⟩
  · rw [if_neg consistent]
    cases repair with
    | false =>
        rw [if_neg Bool.false_ne_true, if_pos (Or.inr rfl)]
        exact ⟨_, rfl, rfl⟩
    | true =>
        rw [if_pos rfl, if_neg (not_or.mpr ⟨consistent, Bool.noConfusion⟩)]
        generalize store.put sorting rebuilt = result at stored
        obtain ⟨store', outcome⟩ := result
        cases stored
        exact ⟨_, rfl, rfl⟩

theorem rebuild_twice
    (valid : (build policy.builder none events now entropy).checkpoint.validate = .ok ())
    (positive : 0 < durableSequence events) (some_ : events ≠ [])
    (own : ∀ event ∈ events, event.taskId = some task) (entropy' : Id128) :
    let rebuilt := (build policy.builder none events now entropy).checkpoint
    let current (reached : MemoryCheckpointStore) :=
      Current reached task rebuilt.projectionDigest (durableSequence events)
    ∃ report store' second,
      rebuild sorting policy log store task session now entropy true = (store', .ok report) ∧
      rebuild sorting policy log store' task session now entropy' false = (store', .ok second) ∧
      (second.consistent = true ↔ current store ∨ current (store.put sorting rebuilt).1) := by
  intro rebuilt current
  have through (entropy : Id128) :=
    build_through policy.builder events now some_ own entropy
  have found (reached : MemoryCheckpointStore) (entropy : Id128) :
      (ProjectionReport.compare (build policy.builder none events now entropy).checkpoint
        (reached.latest task)).consistent = true ↔ current reached := by
    rw [compare_consistent (by rw [through entropy]; exact positive), through entropy]
    exact Iff.rfl
  obtain ⟨report, first, _⟩ := rebuild_report read sorting store entropy rfl valid true
  have valid' := valid
  rw [build_validate policy.builder events now entropy entropy'] at valid'
  by_cases before : current store
  · rw [if_pos (.inl ((found store entropy).mpr before))] at first
    obtain ⟨second, again, same⟩ := rebuild_report read sorting store entropy' rfl valid' false
    rw [if_pos (.inr rfl)] at again
    refine ⟨report, store, second, first, again, iff_of_true ?_ (.inl before)⟩
    rw [same]
    exact (found store entropy').mpr before
  · have repairs : ¬ ((ProjectionReport.compare rebuilt (store.latest task)).consistent = true ∨
        true = false) :=
      not_or.mpr ⟨fun consistent => before ((found store entropy).mp consistent), nofun⟩
    rw [if_neg repairs] at first
    obtain ⟨second, again, same⟩ :=
      rebuild_report read sorting (store.put sorting rebuilt).1 entropy' rfl valid' false
    rw [if_pos (.inr rfl)] at again
    refine ⟨report, _, second, first, again, ?_⟩
    rw [same, found, or_iff_right before]

end Rebuild

/-!
When a repair converges. The rebuilt checkpoint has to be the latest one after it was
stored, and it is not when a stored checkpoint reaches further than the log, as one of
a lost tail does.
-/

/-- The rebuilt checkpoint is the latest after it was stored, whatever order the sort
gives to checkpoints that reach equally far. -/
theorem put_current_iff (store : MemoryCheckpointStore) {checkpoint : TaskCheckpoint}
    (valid : checkpoint.validate = .ok ())
    (fresh : ∀ held ∈ store.held checkpoint.taskId, held.id ≠ checkpoint.id) :
    (∀ sorting, Current (store.put sorting checkpoint).1 checkpoint.taskId
        checkpoint.projectionDigest checkpoint.throughEventSequence) ↔
      (store.held checkpoint.taskId = [] → store.maxPerTask ≠ 0) ∧
      ∀ held ∈ store.held checkpoint.taskId,
        held.throughEventSequence < checkpoint.throughEventSequence ∨
          (held.throughEventSequence = checkpoint.throughEventSequence ∧
            held.projectionDigest = checkpoint.projectionDigest) := by
  let entries := store.held checkpoint.taskId
  have latest (sorting : SequenceSort) :
      (store.put sorting checkpoint).1.latest checkpoint.taskId =
        if entries = [] ∧ store.maxPerTask = 0 then none
        else (sorting.sort (entries ++ [checkpoint])).getLast? := by
    rw [MemoryCheckpointStore.latest, MemoryCheckpointStore.put_new valid fresh,
      MemoryCheckpointStore.inserted_last]
  have own : checkpoint ∈ entries ++ [checkpoint] :=
    List.mem_append_right entries List.mem_cons_self
  simp only [Current, latest]
  constructor
  · intro current
    have room : ¬ (entries = [] ∧ store.maxPerTask = 0) := by
      intro full
      obtain ⟨held, last, _⟩ := current (insertion _)
      rw [if_pos full] at last
      cases last
    simp only [if_neg room] at current
    refine ⟨fun empty full => room ⟨empty, full⟩, fun held present => ?_⟩
    have present' : held ∈ entries ++ [checkpoint] := List.mem_append_left _ present
    have bounded : ∀ item ∈ entries ++ [checkpoint],
        item.throughEventSequence ≤ checkpoint.throughEventSequence := by
      intro item listed
      obtain ⟨last, ends, _, reaches⟩ := current (insertion _)
      have largest := ((insertion fun item : TaskCheckpoint => item.throughEventSequence).ascending
        (entries ++ [checkpoint])).le_last ends item ((mem_sort _).mpr listed)
      rw [reaches] at largest
      exact largest
    cases (bounded held present').lt_or_eq with
    | inl less => exact .inl less
    | inr same =>
        -- Some sort puts the stored checkpoint last.
        have largest : ∀ item ∈ entries ++ [checkpoint],
            item.throughEventSequence ≤ held.throughEventSequence := by
          intro item listed
          rw [same]
          exact bounded item listed
        obtain ⟨sorting, ends⟩ := exists_sorting_last
          (fun item : TaskCheckpoint => item.throughEventSequence) present' largest
        obtain ⟨last, ends', digest, _⟩ := current sorting
        rw [ends] at ends'
        cases ends'
        exact .inr ⟨same, digest⟩
  · intro behind sorting
    obtain ⟨room, behind⟩ := behind
    rw [if_neg fun full => room full.1 full.2]
    have some_ : sorting.sort (entries ++ [checkpoint]) ≠ [] :=
      List.ne_nil_of_mem ((mem_sort sorting).mpr own)
    let last := (sorting.sort (entries ++ [checkpoint])).getLast some_
    have ends : (sorting.sort (entries ++ [checkpoint])).getLast? = some last :=
      List.getLast?_eq_some_getLast some_
    have largest := (sorting.ascending _).le_last ends checkpoint ((mem_sort sorting).mpr own)
    have listed : last ∈ entries ++ [checkpoint] :=
      (mem_sort sorting).mp (List.mem_of_mem_getLast? ends)
    refine ⟨last, ends, ?_⟩
    cases List.mem_append.mp listed with
    | inl held =>
        cases behind last held with
        | inl less => exact absurd largest (Nat.not_le.mpr less)
        | inr same => exact ⟨same.2, same.1⟩
    | inr new =>
        rw [List.mem_singleton.mp new]
        exact ⟨rfl, rfl⟩

theorem le_durableSequence (events : List EventEnvelope) :
    ∀ event ∈ events, event.sessionSequence ≤ durableSequence events := by
  have above (rest : List EventEnvelope) (start : Nat) :
      start ≤ rest.foldl (fun high event => max high event.sessionSequence) start ∧
        ∀ event ∈ rest, event.sessionSequence ≤
          rest.foldl (fun high event => max high event.sessionSequence) start := by
    induction rest generalizing start with
    | nil =>
        refine ⟨le_rfl, fun event present => ?_⟩
        cases present
    | cons first rest ih =>
        obtain ⟨from_, all⟩ := ih (max start first.sessionSequence)
        refine ⟨(le_max_left _ _).trans from_, fun event present => ?_⟩
        cases List.mem_cons.mp present with
        | inl own =>
            rw [own]
            exact (le_max_right _ _).trans from_
        | inr later => exact all event later
  exact (above events 0).2

/-- When a repair converges. After a rebuild that repairs, one that only reports finds the
store consistent exactly if the latest stored checkpoint already was what the log gives,
or there is room for one and every stored checkpoint ends before the last event of the
task, or ends there with the same projection. -/
theorem rebuild_converges_iff (policy : CheckpointSchedulePolicy) (log : MemoryEventStore)
    (store : MemoryCheckpointStore) (task : TaskId) (session : SessionId) (now : Timestamp)
    (entropy entropy' : Id128) (events : List EventEnvelope)
    (read : readTaskEvents log policy task session = .ok events)
    (valid : (build policy.builder none events now entropy).checkpoint.validate = .ok ())
    (fresh : ∀ held ∈ store.held task, held.id ≠ .generate entropy) :
    let digest := (build policy.builder none events now entropy).checkpoint.projectionDigest
    (∀ sorting, ∃ report store' second,
      rebuild sorting policy log store task session now entropy true = (store', .ok report) ∧
      rebuild sorting policy log store' task session now entropy' false = (store', .ok second) ∧
      second.consistent = true) ↔
    Current store task digest (durableSequence events) ∨
      ((store.held task = [] → store.maxPerTask ≠ 0) ∧
        ∀ held ∈ store.held task, held.throughEventSequence < durableSequence events ∨
          (held.throughEventSequence = durableSequence events ∧
            held.projectionDigest = digest)) := by
  intro digest
  have owned := readTaskEvents_own read
  have own : ∀ event ∈ events, event.taskId = some task := fun event present =>
    (owned event present).1
  have some_ : events ≠ [] := by
    intro empty
    subst empty
    cases validate_named valid
  have positive : 0 < durableSequence events := by
    obtain ⟨first, present⟩ := List.exists_mem_of_ne_nil events some_
    exact (owned first present).2.trans_le (le_durableSequence events first present)
  have task_eq : (build policy.builder none events now entropy).checkpoint.taskId = task :=
    (run_identity policy.builder (adopt events) events).1.trans (adopt_task some_ own)
  have twice (sorting : SequenceSort) :=
    rebuild_twice read sorting store entropy valid positive some_ own entropy'
  have stored := put_current_iff store valid (by rw [task_eq]; exact fresh)
  rw [task_eq, build_through policy.builder events now some_ own entropy] at stored
  constructor
  · intro converges
    by_cases before : Current store task digest (durableSequence events)
    · exact .inl before
    · refine .inr (stored.mp fun sorting => ?_)
      obtain ⟨report, store', second, first, again, consistent⟩ := converges sorting
      obtain ⟨report_, store_, second_, first_, again_, found⟩ := twice sorting
      cases first.symm.trans first_
      cases again.symm.trans again_
      exact (or_iff_right before).mp (found.mp consistent)
  · intro condition sorting
    obtain ⟨report, store', second, first, again, found⟩ := twice sorting
    refine ⟨report, store', second, first, again, found.mpr ?_⟩
    exact condition.imp id fun behind => stored.mpr behind sorting

def goalEvent (sequence : Nat) (statement : String) : EventEnvelope :=
  { eventId := .filled 4
    runtimeId := .filled 1
    sessionId := .filled 2
    taskId := some (.filled 3)
    sessionSequence := sequence
    payload :=
      { type := ascii "TaskGoalSet"
        data := canonicalJsonString (.object
          [(ascii "statement", .string (ascii statement))]) } }

def tornLog : MemoryEventStore := { events := [goalEvent 1 "find the door"] }

theorem tornLog_read :
    readTaskEvents tornLog {} (.filled 3) (.filled 2) = .ok [goalEvent 1 "find the door"] := rfl

theorem tornLog_valid (now : Timestamp) (entropy : Id128) :
    (build {} none [goalEvent 1 "find the door"] now entropy).checkpoint.validate = .ok () := by
  rw [build_validate {} _ now entropy .nil]
  have valid : (build {} none [goalEvent 1 "find the door"] {} .nil).checkpoint.validate = .ok () := by
    decide
  exact valid

/-- An empty store is repaired by one rebuild. -/
theorem empty_store_converges :
    ∃ report store' second,
      rebuild (insertion _) {} tornLog {} (.filled 3) (.filled 2) {} .nil true =
        (store', .ok report) ∧
      rebuild (insertion _) {} tornLog store' (.filled 3) (.filled 2) {} .nil false =
        (store', .ok second) ∧
      second.consistent = true := by
  have fresh : ∀ held ∈ MemoryCheckpointStore.held {} (.filled 3), held.id ≠ .generate .nil :=
    fun _ present => nomatch present
  refine (rebuild_converges_iff {} tornLog {} (.filled 3) (.filled 2) {} .nil .nil _ tornLog_read
    (tornLog_valid {} .nil) fresh).mpr (.inr ⟨fun _ => by decide, fun _ present => ?_⟩)
    (insertion _)
  cases present

/-- The checkpoint of the log before its second event was lost. -/
def aheadCheckpoint : TaskCheckpoint :=
  (build {} none [goalEvent 1 "find the door", goalEvent 2 "open the door"] {}
    (StrongId.filled 9 : TaskId).value).checkpoint

def aheadStore : MemoryCheckpointStore :=
  { tasks := Function.update (fun _ => none) (.filled 3) (some [aheadCheckpoint]) }

/-- The repair stores the rebuilt checkpoint below the one that is ahead, and the next
rebuild finds the same divergence. -/
theorem ahead_store_diverges :
    ∃ report store' second,
      rebuild (insertion _) {} tornLog aheadStore (.filled 3) (.filled 2) {} .nil true =
        (store', .ok report) ∧
      rebuild (insertion _) {} tornLog store' (.filled 3) (.filled 2) {} .nil false =
        (store', .ok second) ∧
      second.consistent = false := by
  obtain ⟨report, store', second, first, again, found⟩ :=
    rebuild_twice tornLog_read (insertion _) aheadStore .nil (tornLog_valid {} .nil) (by decide)
      (by decide) (by decide) .nil
  refine ⟨report, store', second, first, again, ?_⟩
  have before : (aheadStore.latest (.filled 3)).map (·.throughEventSequence) = some 2 := by
    decide +kernel
  have after : ((aheadStore.put (insertion _) (build {} none [goalEvent 1 "find the door"] {}
      .nil).checkpoint).1.latest (.filled 3)).map (·.throughEventSequence) = some 2 := by
    decide +kernel
  have stale {store : MemoryCheckpointStore} {digest : Sha256Digest}
      (reaches : (store.latest (.filled 3)).map (·.throughEventSequence) = some 2) :
      ¬ Current store (.filled 3) digest 1 := by
    intro current
    obtain ⟨held, latest, _, sequence⟩ := current
    rw [latest, Option.map_some, sequence] at reaches
    cases reaches
  apply Bool.eq_false_iff.mpr
  intro consistent
  cases found.mp consistent with
  | inl current => exact stale before current
  | inr current => exact stale after current

end Mira.Checkpoint
