import Mira.Workflow.Recovered

/-!
What a side effect is dispatched again on. Between two dispatches of a side-effecting step in one
visit of the cursor the run has been observed, and the step was retried by its hook or the run
was resumed; a step that was cut short was resolved before. The journal since the last dispatch
says so at every point before a dispatch.
-/

namespace Mira.Workflow
open Mira Bytes Interleaving

def lastDispatch (index : Nat) : List RunEvent → Option (List RunEvent)
  | [] => none
  | event :: earlier =>
      if event = .dispatched index true then some []
      else (lastDispatch index earlier).map (event :: ·)

/-- What is said of the events since the last dispatch in this visit, if there was one. -/
def SinceDispatch (index : Nat) (journal : List RunEvent) (said : List RunEvent → Prop) : Prop :=
  ∀ since ∈ lastDispatch index (visit journal), said since

instance (index : Nat) (journal : List RunEvent) (said : List RunEvent → Prop)
    [DecidablePred said] : Decidable (SinceDispatch index journal said) :=
  inferInstanceAs (Decidable (∀ since ∈ lastDispatch index (visit journal), said since))

/-- The step was retried, or the run resumed. -/
def Renewed (index : Nat) (since : List RunEvent) : Prop :=
  .retried index ∈ since ∨ .resumed ∈ since

/-- A step that was cut short was resolved. -/
def CutResolved (index : Nat) (since : List RunEvent) : Prop :=
  .cut index ∈ since → .cleared index ∈ since

/-- The step may be dispatched again. -/
def Ready (index : Nat) (journal : List RunEvent) : Prop :=
  SinceDispatch index journal fun since =>
    .observed ∈ since ∧ Renewed index since ∧ CutResolved index since

/-- What a dispatch with a side effect and a retry are allowed by. -/
def Allowed (setup : Setup) : RunEvent → List RunEvent → Prop
  | .dispatched index true, earlier => Ready index earlier
  | .retried index, earlier =>
      ∃ step, setup.step index = some step ∧ step.recoveryMode = some .retry ∧
        earlier.count (.executed index) < step.maxAttempts ∧
        earlier.count (.retried index) <
          (step.recovery.map WorkflowRecoveryHook.maxRetries).getD 0
  | _, _ => True

def Point.claims : Point → Bool
  | .control .startRun | .control .executeRun => true
  | _ => false

def Point.activates : Point → Bool
  | .control .activate => true
  | _ => false

/-- The turn of the thread dispatches a side effect. -/
def Point.dispatches (setup : Setup) (shared : Shared) (answer : Answer) : Point → Bool
  | .drive _ (.dispatch index) =>
      answer.accepted && (setup.host.tool ((((Setup.argumentsAt shared index).find
        (ascii "tool")).bind JsonValue.asString).getD [])).any ExposedTool.hasSideEffects
  | _ => false

/-- The failed step that the turn of the thread retries. -/
def Point.retried (setup : Setup) (shared : Shared) : Point → Option Nat
  | .drive _ (.failing index _) =>
      if (setup.step index).any fun step => retries shared step index then some index else none
  | _ => none

/-- A run is taken by one thread at a time, not claimed while it is active, and stopped when a
step was cut short; a side effect is not dispatched while a continuation that has observed the
run is about to make it active, and a step that is retried still has the side effects it was
dispatched with. -/
def RenewsInOrder (setup : Setup) (shared : Shared) (point : Point) (others : List Point)
    (answer : Answer) : Prop :=
  StopsWhenCut setup shared point others answer ∧
    (point.claims = true → point.takes setup shared = true →
      shared.run.view.state ≠ .running) ∧
    (point.dispatches setup shared answer = true →
      ∀ other ∈ others, other.activates = false) ∧
    ∀ index ∈ point.retried setup shared, SinceDispatch index shared.journal fun since =>
      .observed ∈ since ∨
        stepToolHasSideEffects setup.host (Setup.argumentsAt shared index) = true

instance (setup : Setup) (shared : Shared) (point : Point) (others : List Point)
    (answer : Answer) : Decidable (RenewsInOrder setup shared point others answer) :=
  inferInstanceAs (Decidable (_ ∧ _ ∧ _ ∧ _))

structure RedispatchBase (setup : Setup) (progress : Progress) : Prop where
  justified : Justified (Allowed setup) progress.journal
  attempts : ∀ index, progress.attempts index = progress.journal.count (.executed index)
  retries : ∀ index, progress.retries index = progress.journal.count (.retried index)
  kinds : ∀ index sideEffects, .dispatched index sideEffects ∈ visit progress.journal →
    ∃ step, setup.step index = some step ∧ step.kind = .toolCall
  resolved : progress.interrupted = false →
    SinceDispatch progress.cursor progress.journal (CutResolved progress.cursor)

/-- A run that has not started has dispatched nothing. -/
def RedispatchNew (shared : Shared) : Prop :=
  shared.run.view.state = .created → ∀ said, SinceDispatch shared.run.cursor shared.journal said

/-- The step of the cursor may be dispatched, or was cut short. -/
def ReadyOrCut (progress : Progress) : Prop :=
  progress.interrupted = true ∨ Ready progress.cursor progress.journal

/-- The run is new or active. -/
def OpenRun (shared : Shared) : Prop :=
  shared.run.view.state = .running ∨ shared.run.view.state = .created

def DrivePoint.looks : DrivePoint → Bool
  | .begin | .top => true
  | _ => false

/-- A point between that and the step. -/
def DrivePoint.passes : DrivePoint → Bool
  | .start | .drain | .boundary => true
  | _ => false

def DrivePoint.begins : DrivePoint → Bool
  | .begin | .start | .ending | .pausing | .escalate | .handoff _ => true
  | _ => false

def DrivePoint.renews : DrivePoint → Bool
  | .reobserve _ => true
  | _ => false

structure DriveRenews (shared : Shared) (point : DrivePoint) : Prop where
  looks : point.looks = true → OpenRun shared → ReadyOrCut shared.progress
  passes : point.passes = true → ReadyOrCut shared.progress
  ahead : point.ahead = true → Ready shared.run.cursor shared.journal
  renews : point.renews = true →
    SinceDispatch shared.run.cursor shared.journal (Renewed shared.run.cursor)
  uncut : point.index.isSome = true → shared.run.interrupted = false
  begun : point.begins = false → shared.run.view.state ≠ .created

def RedispatchAt (shared : Shared) : Role → Prop
  | .drive _ point => DriveRenews shared point
  | .patching _ => ReadyOrCut shared.progress ∧ shared.run.view.state ≠ .created
  | .control (.submitDrive _) | .control .launch =>
      OpenRun shared → ReadyOrCut shared.progress
  | .control .resolveInterrupted =>
      SinceDispatch shared.run.cursor shared.journal fun since =>
        .observed ∈ since ∧ .resumed ∈ since
  | _ => True

def RedispatchIdle (setup : Setup) (shared : Shared) : Prop :=
  RedispatchBase setup shared.progress ∧ RedispatchNew shared

def RedispatchFact (setup : Setup) (shared : Shared) (role : Role) : Prop :=
  RedispatchIdle setup shared ∧ RedispatchAt shared role

section
variable {index : Nat} {journal : List RunEvent} {event : RunEvent}
variable {said : List RunEvent → Prop}

theorem sinceDispatch_moved (target : Nat) : SinceDispatch index (.moved target :: journal) said := by
  intro since among
  cases among

theorem sinceDispatch_dispatched (starts : said []) :
    SinceDispatch index (.dispatched index true :: journal) said := by
  intro since among
  rw [visit_cons rfl, lastDispatch, if_pos rfl] at among
  cases among
  exact starts

theorem sinceDispatch_cons (stays : event.isMove = false) (other : event ≠ .dispatched index true) :
    SinceDispatch index (event :: journal) said ↔
      SinceDispatch index journal fun since => said (event :: since) := by
  rw [SinceDispatch, SinceDispatch, visit_cons stays, lastDispatch, if_neg other]
  simp only [Option.mem_map, forall_exists_index, and_imp, forall_apply_eq_imp_iff₂]

theorem SinceDispatch.imp {other : List RunEvent → Prop} (holds : SinceDispatch index journal said)
    (step : ∀ since, said since → other since) : SinceDispatch index journal other :=
  fun since among => step since (holds since among)

theorem SinceDispatch.noted (holds : SinceDispatch index journal said)
    (stays : event.isMove = false) (other : event ≠ .dispatched index true)
    (step : ∀ since, said since → said (event :: since)) :
    SinceDispatch index (event :: journal) said :=
  (sinceDispatch_cons stays other).2 (holds.imp step)

variable {since : List RunEvent}

theorem cutResolved_cons (uncut : event ≠ .cut index) (resolved : CutResolved index since) :
    CutResolved index (event :: since) := by
  intro cut
  cases List.mem_cons.1 cut with
  | inl same => exact absurd same.symm uncut
  | inr earlier => exact List.mem_cons_of_mem _ (resolved earlier)

theorem renewed_cons (renewed : Renewed index since) : Renewed index (event :: since) :=
  renewed.imp (List.mem_cons_of_mem _) (List.mem_cons_of_mem _)

theorem Ready.noted (ready : Ready index journal) (stays : event.isMove = false)
    (other : event ≠ .dispatched index true) (uncut : event ≠ .cut index) :
    Ready index (event :: journal) :=
  SinceDispatch.noted ready stays other fun _ has =>
    ⟨List.mem_cons_of_mem _ has.1, renewed_cons has.2.1, cutResolved_cons uncut has.2.2⟩

end

def RunEvent.faint : RunEvent → Bool
  | .moved _ | .dispatched _ _ | .cut _ | .executed _ | .retried _ => false
  | _ => true

/-- The run is where it was, with faint events added to its journal. -/
structure Fainted (before after : Progress) : Prop where
  cursor : after.cursor = before.cursor
  interrupted : after.interrupted = before.interrupted
  attempts : after.attempts = before.attempts
  retries : after.retries = before.retries
  journal : ∃ events, (∀ event ∈ events, RunEvent.faint event = true) ∧
    after.journal = events ++ before.journal

section
variable {setup : Setup} {before after : Progress}

variable {event : RunEvent}

theorem faint_stays (faint : event.faint = true) : event.isMove = false := by
  cases event <;> first | rfl | cases faint

theorem faint_apart (faint : event.faint = true) (index : Nat) :
    (∀ sideEffects, event ≠ .dispatched index sideEffects) ∧ event ≠ .cut index ∧
      event ≠ .executed index ∧ event ≠ .retried index := by
  cases event <;> first | exact absurd faint Bool.false_ne_true | simp

theorem faint_allowed (faint : event.faint = true) (earlier : List RunEvent) :
    Allowed setup event earlier := by
  cases event <;> first | exact absurd faint Bool.false_ne_true | trivial

variable {index : Nat}

theorem Fainted.since (fainted : Fainted before after) {said : List RunEvent → Prop}
    (step : ∀ event since, RunEvent.faint event = true → said since → said (event :: since))
    (holds : SinceDispatch index before.journal said) : SinceDispatch index after.journal said := by
  obtain ⟨events, faint, journal⟩ := fainted.journal
  rw [journal]
  clear journal
  induction events with
  | nil => exact holds
  | cons event rest ih =>
      have own := faint event List.mem_cons_self
      exact SinceDispatch.noted (ih fun other among => faint other (List.mem_cons_of_mem _ among))
        (faint_stays own) ((faint_apart own index).1 true) fun since has => step event since own has

theorem Fainted.ready (fainted : Fainted before after) (ready : Ready index before.journal) :
    Ready index after.journal :=
  fainted.since (fun _ _ faint has => ⟨List.mem_cons_of_mem _ has.1, renewed_cons has.2.1,
    cutResolved_cons (faint_apart faint index).2.1 has.2.2⟩) ready

theorem Fainted.readyOrCut (fainted : Fainted before after) (ready : ReadyOrCut before) :
    ReadyOrCut after := by
  rw [ReadyOrCut, fainted.interrupted, fainted.cursor]
  exact ready.imp_right fainted.ready

theorem Fainted.renewed (fainted : Fainted before after)
    (renewed : SinceDispatch index before.journal (Renewed index)) :
    SinceDispatch index after.journal (Renewed index) :=
  fainted.since (fun _ _ _ has => renewed_cons has) renewed

theorem Fainted.base (fainted : Fainted before after) (base : RedispatchBase setup before) :
    RedispatchBase setup after := by
  have resolved : after.interrupted = false →
      SinceDispatch after.cursor after.journal (CutResolved after.cursor) := by
    rw [fainted.interrupted, fainted.cursor]
    intro uncut
    exact fainted.since (fun _ _ faint has => cutResolved_cons (faint_apart faint _).2.1 has)
      (base.resolved uncut)
  obtain ⟨events, faint, journal⟩ := fainted.journal
  refine ⟨?_, ?_, ?_, ?_, resolved⟩
  · rw [journal]
    clear journal resolved
    induction events with
    | nil => exact base.justified
    | cons event rest ih =>
        exact ⟨faint_allowed (faint event List.mem_cons_self) _,
          ih fun other among => faint other (List.mem_cons_of_mem _ among)⟩
  · intro index
    have none : events.count (.executed index) = 0 :=
      List.count_eq_zero.2 fun among => (faint_apart (faint _ among) index).2.2.1 rfl
    rw [fainted.attempts, journal, List.count_append, none, Nat.zero_add]
    exact base.attempts index
  · intro index
    have none : events.count (.retried index) = 0 :=
      List.count_eq_zero.2 fun among => (faint_apart (faint _ among) index).2.2.2 rfl
    rw [fainted.retries, journal, List.count_append, none, Nat.zero_add]
    exact base.retries index
  · intro index sideEffects
    rw [journal]
    clear journal resolved
    induction events with
    | nil => exact base.kinds index sideEffects
    | cons event rest ih =>
        have own := faint event List.mem_cons_self
        intro among
        rw [List.cons_append, visit_cons (faint_stays own)] at among
        cases List.mem_cons.1 among with
        | inl same => exact absurd same.symm ((faint_apart own index).1 sideEffects)
        | inr earlier =>
            exact ih (fun other also => faint other (List.mem_cons_of_mem _ also)) earlier

theorem fainted_of_eq (same : after = before) : Fainted before after := by
  subst same
  exact ⟨rfl, rfl, rfl, rfl, [], by simp, rfl⟩

theorem fainted_note (event : RunEvent) (faint : event.faint = true)
    (cursor : after.cursor = before.cursor) (interrupted : after.interrupted = before.interrupted)
    (attempts : after.attempts = before.attempts) (retries : after.retries = before.retries)
    (journal : after.journal = event :: before.journal) : Fainted before after :=
  ⟨cursor, interrupted, attempts, retries, [event], by simpa using faint, journal⟩

theorem Undisturbed.fainted {shared last : Shared} (undisturbed : Undisturbed shared last) :
    Fainted shared.progress last.progress := by
  obtain ⟨events, inert, same⟩ := undisturbed.progress
  rw [same]
  refine ⟨rfl, rfl, rfl, rfl, events, ?_, rfl⟩
  intro event among
  have own := inert event among
  cases event <;> first | rfl | cases own

theorem RedispatchBase.noted (base : RedispatchBase setup before) (event : RunEvent)
    (stays : event.isMove = false) (allowed : Allowed setup event before.journal)
    (attempts : ∀ index, after.attempts index = (event :: before.journal).count (.executed index))
    (retries : ∀ index, after.retries index = (event :: before.journal).count (.retried index))
    (kinds : ∀ index sideEffects, event = .dispatched index sideEffects →
      ∃ step, setup.step index = some step ∧ step.kind = .toolCall)
    (resolved : after.interrupted = false →
      SinceDispatch after.cursor after.journal (CutResolved after.cursor))
    (journal : after.journal = event :: before.journal) : RedispatchBase setup after := by
  refine ⟨?_, ?_, ?_, ?_, resolved⟩
  · rw [journal]
    exact ⟨allowed, base.justified⟩
  · rw [journal]
    exact attempts
  · rw [journal]
    exact retries
  · intro index sideEffects among
    rw [journal, visit_cons stays] at among
    cases List.mem_cons.1 among with
    | inl same => exact kinds index sideEffects same.symm
    | inr earlier => exact base.kinds index sideEffects earlier

variable {journal : List RunEvent}

theorem kept_count {counts kept : StepCounts} {counted : Nat → RunEvent}
    (same : ∀ index, counts index = journal.count (counted index)) (stays : kept = counts)
    (other : ∀ index, event ≠ counted index) (index : Nat) :
    kept index = (event :: journal).count (counted index) := by
  rw [stays, List.count_cons_of_ne (other index)]
  exact same index

theorem bump_count {counts : StepCounts} {event : Nat → RunEvent}
    (injective : ∀ first second, event first = event second → first = second)
    (same : ∀ index, counts index = journal.count (event index)) (index : Nat) :
    ∀ other, counts.bump index other = (event index :: journal).count (event other) := by
  intro other
  rw [StepCounts.bump, same other]
  by_cases own : other = index
  · rw [if_pos own, own, List.count_cons_self]
  · rw [if_neg own, List.count_cons_of_ne fun equal => own (injective _ _ equal).symm]

theorem RedispatchBase.moved {target : Nat} (base : RedispatchBase setup before)
    (attempts : after.attempts = before.attempts) (retries : after.retries = before.retries)
    (journal : after.journal = .moved target :: before.journal) : RedispatchBase setup after := by
  refine ⟨?_, ?_, ?_, ?_, ?_⟩
  · rw [journal]
    exact ⟨trivial, base.justified⟩
  · rw [journal]
    exact kept_count base.attempts attempts (by simp)
  · rw [journal]
    exact kept_count base.retries retries (by simp)
  · intro index sideEffects among
    rw [journal] at among
    cases among
  · intro _
    rw [journal]
    exact sinceDispatch_moved target

theorem RedispatchBase.cleared (base : RedispatchBase setup before)
    (cursor : after.cursor = before.cursor) (attempts : after.attempts = before.attempts)
    (retries : after.retries = before.retries)
    (journal : after.journal = .cleared before.cursor :: before.journal) :
    RedispatchBase setup after := by
  refine base.noted (.cleared before.cursor) rfl trivial ?_ ?_ (by simp) ?_ journal
  · exact kept_count base.attempts attempts (by simp)
  · exact kept_count base.retries retries (by simp)
  · intro _
    rw [cursor, journal, sinceDispatch_cons rfl (by simp)]
    exact fun since _ _ => List.mem_cons_self

theorem RedispatchBase.cut (base : RedispatchBase setup before)
    (interrupted : after.interrupted = true) (attempts : after.attempts = before.attempts)
    (retries : after.retries = before.retries)
    (journal : after.journal = .cut index :: before.journal) : RedispatchBase setup after := by
  refine base.noted (.cut index) rfl trivial ?_ ?_ (by simp) ?_ journal
  · exact kept_count base.attempts attempts (by simp)
  · exact kept_count base.retries retries (by simp)
  · intro uncut
    rw [interrupted] at uncut
    cases uncut

theorem RedispatchBase.executed (base : RedispatchBase setup before)
    (cursor : after.cursor = before.cursor) (interrupted : after.interrupted = before.interrupted)
    (attempts : after.attempts = before.attempts.bump index)
    (retries : after.retries = before.retries)
    (journal : after.journal = .executed index :: before.journal) : RedispatchBase setup after := by
  refine base.noted (.executed index) rfl trivial ?_ ?_ (by simp) ?_ journal
  · rw [attempts]
    exact bump_count (fun _ _ equal => RunEvent.executed.inj equal) base.attempts index
  · exact kept_count base.retries retries (by simp)
  · rw [cursor, interrupted, journal]
    intro uncut
    exact (base.resolved uncut).noted rfl (by simp) fun since has => cutResolved_cons (by simp) has

theorem RedispatchBase.retried (base : RedispatchBase setup before)
    (allowed : Allowed setup (.retried index) before.journal)
    (cursor : after.cursor = before.cursor) (interrupted : after.interrupted = before.interrupted)
    (attempts : after.attempts = before.attempts)
    (retries : after.retries = before.retries.bump index)
    (journal : after.journal = .retried index :: before.journal) : RedispatchBase setup after := by
  refine base.noted (.retried index) rfl allowed ?_ ?_ (by simp) ?_ journal
  · exact kept_count base.attempts attempts (by simp)
  · rw [retries]
    exact bump_count (fun _ _ equal => RunEvent.retried.inj equal) base.retries index
  · rw [cursor, interrupted, journal]
    intro uncut
    exact (base.resolved uncut).noted rfl (by simp) fun since has => cutResolved_cons (by simp) has

theorem RedispatchBase.dispatched {sideEffects : Bool} {step : WorkflowStep}
    (base : RedispatchBase setup before) (here : index = before.cursor)
    (ready : Ready index before.journal) (found : setup.step index = some step)
    (calls : step.kind = .toolCall) (cursor : after.cursor = before.cursor)
    (interrupted : after.interrupted = before.interrupted)
    (attempts : after.attempts = before.attempts) (retries : after.retries = before.retries)
    (journal : after.journal = .dispatched index sideEffects :: before.journal) :
    RedispatchBase setup after := by
  have allowed : Allowed setup (.dispatched index sideEffects) before.journal := by
    cases sideEffects with
    | true => exact ready
    | false => trivial
  refine base.noted (.dispatched index sideEffects) rfl allowed ?_ ?_ ?_ ?_ journal
  · exact kept_count base.attempts attempts (by simp)
  · exact kept_count base.retries retries (by simp)
  · intro other effects same
    cases same
    exact ⟨step, found, calls⟩
  · rw [cursor, interrupted, journal]
    intro uncut
    cases sideEffects with
    | true =>
        rw [here]
        exact sinceDispatch_dispatched fun cut => absurd cut List.not_mem_nil
    | false =>
        exact (base.resolved uncut).noted rfl (by simp) fun since has =>
          cutResolved_cons (by simp) has

end

/-- The run was observed since the last dispatch of the step of the cursor. -/
def Observed (shared : Shared) : Prop :=
  SinceDispatch shared.run.cursor shared.journal fun since => .observed ∈ since

/-- A continuation that is about to make the run active has observed it. -/
def ObservedAhead (shared : Shared) (threads : List Point) : Prop :=
  ∀ thread ∈ threads, thread.activates = true → Observed shared

section
variable {setup : Setup} {shared after : Shared} {result : Shared × List Point}

theorem Observed.fainted (observed : Observed shared)
    (fainted : Fainted shared.progress after.progress) : Observed after := by
  have cursor : after.run.cursor = shared.run.cursor := fainted.cursor
  rw [Observed, cursor]
  exact fainted.since (fun _ _ _ has => List.mem_cons_of_mem _ has) observed

theorem Observed.noted {event : RunEvent} (observed : Observed shared)
    (stays : event.isMove = false) (other : ∀ index, event ≠ .dispatched index true)
    (cursor : after.run.cursor = shared.run.cursor)
    (journal : after.journal = event :: shared.journal) : Observed after := by
  rw [Observed, cursor, journal]
  exact SinceDispatch.noted observed stays (other _) fun _ has => List.mem_cons_of_mem _ has

theorem observed_moved {target : Nat} {earlier : List RunEvent}
    (journal : after.journal = .moved target :: earlier) : Observed after := by
  rw [Observed, journal]
  exact sinceDispatch_moved target

theorem OutsideTurned.observed {point : Point} (turned : OutsideTurned setup shared point result)
    (observed : Observed shared) : Observed result.1 := by
  cases turned with
  | quiet undisturbed nexts => exact observed.fainted undisturbed.fainted
  | started takes | executed takes => exact observed
  | activated done =>
      have moved := observed.fainted (fainted_of_eq (transition_progress done))
      exact moved.noted rfl (by simp) rfl rfl
  | rejected done => exact observed.fainted (fainted_of_eq (transition_progress done))

theorem AsideTurned.observed {role : Role} {next : List Role}
    (turned : AsideTurned setup shared role after next) (observed : Observed shared) :
    Observed after := by
  cases turned with
  | settles driver undisturbed | settled driver undisturbed | failed undisturbed
  | patches driver undisturbed | patched driver undisturbed | restored undisturbed
  | released undisturbed | launched undisturbed => exact observed.fainted undisturbed.fainted
  | submitted | withdrawn | dropped | judged | undefined => exact observed
  | cleared => exact observed.noted rfl (by simp) rfl rfl
  | skipped => exact observed_moved rfl
  | recovered index verdict target => exact observed_moved rfl
  | uncertain index =>
      have judged : Observed (shared.note (.recovered index .uncertain)) :=
        observed.noted rfl (by simp) rfl rfl
      exact judged.noted rfl (by simp) rfl rfl

variable {driver : Drive} {point : DrivePoint} {answer : Answer}

theorem DriveTurned.observed (turned : DriveTurned setup shared driver answer point result)
    (harmless : (Point.drive driver point).dispatches setup shared answer = false)
    (observed : Observed shared) : Observed result.1 := by
  have counted : ∀ entered index, Observed (shared.countArrival entered index) := by
    intro entered index
    rw [Shared.countArrival]
    split
    · exact observed.noted rfl (by simp) rfl rfl
    · exact observed
  cases turned with
  | started done => exact observed.fainted (fainted_of_eq (transition_progress done))
  | paused =>
      have undisturbed : Undisturbed shared (shared.tryTransition .paused) :=
        undisturbed_tried shared (by decide) (by decide)
      exact observed.fainted undisturbed.fainted
  | skipped | completes | jumps | fallsBack => exact observed_moved rfl
  | fails failure about kept | goes about within evidence kind order kept | escalated kept =>
      exact observed.fainted (fainted_of_eq kept.2)
  | handsOff index => exact counted true index
  | executes index => exact (counted _ index).noted rfl (by simp) rfl rfl
  | dispatches index tool accepted named =>
      have safe : tool.hasSideEffects = false := by
        simpa [Point.dispatches, accepted, named] using harmless
      exact observed.noted rfl (by simp [safe]) rfl rfl
  | navigates | cutShort | observes | reobserves | retries =>
      exact observed.noted rfl (by simp) rfl rfl
  | handedOff checkpoint done =>
      have moved := observed.fainted (fainted_of_eq (transition_progress done))
      cases checkpoint with
      | none => exact moved
      | some index => exact moved.noted rfl (by simp) rfl rfl
  | _ => exact observed

end

variable (setup : Setup) (shared : Shared)

theorem advance_observed (point : Point) (answer : Answer)
    (harmless : point.dispatches setup shared answer = false) (observed : Observed shared) :
    Observed (advance setup shared point answer).1 := by
  cases role : point.role with
  | none =>
      have out : point.owns = false := by simp [Point.owns, role]
      exact (advance_outside setup shared point answer out).observed observed
  | some role_ =>
      cases advance_aside setup shared point answer role with
      | inl aside => exact aside.observed observed
      | inr drives =>
          obtain ⟨driver, at_, rfl⟩ := drives
          exact (driveTurn_cases setup shared driver answer at_).observed harmless observed

section
variable {setup : Setup} {shared : Shared}

theorem DriveTurned.continues {driver : Drive} {point : DrivePoint} {answer : Answer}
    {result : Shared × List Point} (turned : DriveTurned setup shared driver answer point result) :
    .control .activate ∉ result.2 := by
  cases turned with
  | drained => cases shared.run.pending <;> simp [drainNext, Drive.at]
  | _ => simp [Drive.at, settleDrive, completeStep, driveEnding]

theorem ended_continues (back : Back) : .control .activate ∉ back.ended := by
  cases back <;> simp [Back.ended, Drive.at]

theorem unescalated_continues (back : Back) : .control .activate ∉ back.unescalated := by
  cases back <;> simp [Back.unescalated, settleDrive]

theorem refused_continues (submitter : Submitter) : .control .activate ∉ submitter.refused := by
  cases submitter with
  | caller | decided decision => simp [Submitter.refused]
  | draining driver rest => cases rest <;> simp [Submitter.refused, drainNext, Drive.at]

theorem patched_continues (shared : Shared) (submitter : Submitter) :
    .control .activate ∉ (submitter.patched shared).2 := by
  cases submitter with
  | caller | decided decision => simp [Submitter.patched]
  | draining driver rest => cases rest <;> simp [Submitter.patched, drainNext, Drive.at]

end

theorem controlTurn_activates (answer : Answer) (point : ControlPoint)
    (among : .control .activate ∈ (controlTurn setup shared answer point).2) :
    Observed (controlTurn setup shared answer point).1 := by
  generalize turn : controlTurn setup shared answer point = result at among
  cases turn ▸ controlTurn_cases setup shared answer point with
  | quiet events next plain inert nexts => exact absurd (nexts _ among) Bool.false_ne_true
  | reobserved => exact (sinceDispatch_cons rfl (by simp)).2 fun since _ => List.mem_cons_self
  | activated done => split at among <;> simp at among
  | _ => simp [Drive.at] at among

/-- A continuation comes to its transition from the section that observed the run. -/
theorem advance_activates (point : Point) (answer : Answer)
    (among : .control .activate ∈ (advance setup shared point answer).2) :
    Observed (advance setup shared point answer).1 := by
  cases point with
  | drive driver point =>
      exact absurd among (driveTurn_cases setup shared driver answer point).continues
  | control point => exact controlTurn_activates setup shared answer point among
  | settle target back => exact absurd among (ended_continues back)
  | stage decision back =>
      rw [advance, stageTurn] at among
      split at among
      · exact absurd among (unescalated_continues back)
      · simp at among
  | waitUser decision back =>
      rw [advance, waitUserTurn] at among
      split at among
      · simp at among
      · exact absurd among (ended_continues back)
  | unstage back => exact absurd among (unescalated_continues back)
  | submit patch submitter =>
      rw [advance] at among
      generalize turn : submitTurn setup shared patch submitter = result at among
      cases turn ▸ submitTurn_cases setup shared patch submitter with
      | refused => exact absurd among (refused_continues submitter)
      | replayed => exact absurd among (patched_continues shared submitter)
      | applies | queues => simp at among
  | enqueue patch submitter => exact absurd among (patched_continues _ submitter)
  | snapshot patch submitter =>
      rw [advance, snapshotTurn] at among
      split at among
      · exact absurd among (refused_continues submitter)
      · split at among
        · exact absurd among (refused_continues submitter)
        · simp at among
  | commit patch patched submitter =>
      rw [advance, commitTurn] at among
      split at among
      · exact absurd among (refused_continues submitter)
      · exact absurd among (patched_continues _ submitter)

/-- Every run whose turns are in order observes before it activates. -/
theorem observed_ahead (pool : RunPool) (turns : List RunTurn)
    (start : ObservedAhead pool.shared pool.threads)
    (met : TurnsMeet setup (RenewsInOrder setup) pool turns) :
    ObservedAhead (runTurns setup pool turns).shared (runTurns setup pool turns).threads := by
  refine run_invariant (RenewsInOrder setup) ObservedAhead ?_ ?_ ?_ pool turns start met
  · intro shared first second shuffled ahead thread among
    exact ahead thread (shuffled.mem_iff.2 among)
  · intro shared threads call ahead thread among activates
    cases List.mem_cons.1 among with
    | inl same =>
        subst same
        cases call <;> cases activates
    | inr earlier => exact ahead thread earlier activates
  · intro shared point others answer held ahead thread among activates
    cases List.mem_append.1 among with
    | inl next =>
        have own : thread = .control .activate := by
          cases thread with
          | control point => cases point <;> first | rfl | cases activates
          | _ => cases activates
        exact advance_activates setup shared point answer (own ▸ next)
    | inr other =>
        have harmless : point.dispatches setup shared answer = false :=
          Bool.eq_false_iff.2 fun dispatches =>
            absurd (held.2.2.1 dispatches thread other) (by simp [activates])
        exact advance_observed setup shared point answer harmless
          (ahead thread (List.mem_cons_of_mem _ other) activates)

theorem renews_observed (pool : RunPool) (turns : List RunTurn)
    (start : ObservedAhead pool.shared pool.threads)
    (met : TurnsMeet setup (RenewsInOrder setup) pool turns) :
    TurnsMeet setup (fun shared point others answer =>
      RenewsInOrder setup shared point others answer ∧ ObservedAhead shared (point :: others))
      pool turns := by
  refine guarded_invariant (RenewsInOrder setup) ObservedAhead ?_ ?_ pool turns start met
  · intro shared first second shuffled ahead thread among
    exact ahead thread (shuffled.mem_iff.2 among)
  · intro turns pool start met
    exact observed_ahead setup pool turns start met

end Mira.Workflow
