import Mira.Workflow.Redispatch

/-!
No blind redispatch. The owner of a run comes to a dispatch only through an observation that is
newer than the last dispatch of the step: by the retry of its hook, or by a continuation.
-/

namespace Mira.Workflow
open Mira Bytes Interleaving

section
variable {setup : Setup} {shared after : Shared} {driver later : Drive}

theorem Undisturbed.opens (undisturbed : Undisturbed shared after) (now : OpenRun after) :
    OpenRun shared :=
  now.imp undisturbed.running undisturbed.created

theorem RedispatchNew.fainted (fainted : Fainted shared.progress after.progress)
    (old : after.run.view.state = .created → shared.run.view.state = .created)
    (new : RedispatchNew shared) : RedispatchNew after := by
  intro created said
  have none := new (old created) fun _ => False
  have cursor : after.run.cursor = shared.run.cursor := fainted.cursor
  rw [cursor]
  exact SinceDispatch.imp (fainted.since (fun _ _ _ absurd => absurd) none) fun _ => False.elim

theorem RedispatchNew.noted {event : RunEvent} (new : RedispatchNew shared)
    (stays : event.isMove = false) (other : ∀ index, event ≠ .dispatched index true)
    (old : after.run.view.state = .created → shared.run.view.state = .created)
    (cursor : after.run.cursor = shared.run.cursor)
    (journal : after.journal = event :: shared.journal) : RedispatchNew after := by
  intro created said
  rw [cursor, journal, sinceDispatch_cons stays (other _)]
  exact new (old created) _

variable {point : DrivePoint}

theorem DriveRenews.fainted (fainted : Fainted shared.progress after.progress)
    (opens : OpenRun after → OpenRun shared)
    (old : after.run.view.state = .created → shared.run.view.state = .created)
    (renews : DriveRenews shared point) : DriveRenews after point := by
  have cursor : after.run.cursor = shared.run.cursor := fainted.cursor
  have interrupted : after.run.interrupted = shared.run.interrupted := fainted.interrupted
  refine ⟨fun looks now => fainted.readyOrCut (renews.looks looks (opens now)),
    fun passes => fainted.readyOrCut (renews.passes passes), fun ahead => ?_, fun again => ?_,
    fun inside => interrupted.trans (renews.uncut inside),
    fun begun created => renews.begun begun (old created)⟩
  · rw [cursor]
    exact fainted.ready (renews.ahead ahead)
  · rw [cursor]
    exact fainted.renewed (renews.renews again)

theorem redispatch_undisturbed (undisturbed : Undisturbed shared after) {role : Role}
    (at_ : RedispatchAt shared role) : RedispatchAt after role := by
  have fainted := undisturbed.fainted
  cases role with
  | drive driver point => exact at_.fainted fainted undisturbed.opens undisturbed.created
  | settling driver => trivial
  | patching driver =>
      exact ⟨fainted.readyOrCut at_.1, fun now => at_.2 (undisturbed.created now)⟩
  | control point =>
      cases point with
      | submitDrive resumed => exact fun now => fainted.readyOrCut (at_ (undisturbed.opens now))
      | launch => exact fun now => fainted.readyOrCut (at_ (undisturbed.opens now))
      | resolveInterrupted =>
          have cursor : after.run.cursor = shared.run.cursor := fainted.cursor
          change SinceDispatch after.run.cursor after.journal _
          rw [cursor]
          exact fainted.since (fun _ _ _ has =>
            ⟨List.mem_cons_of_mem _ has.1, List.mem_cons_of_mem _ has.2⟩) at_
      | _ => trivial

theorem RedispatchIdle.undisturbed (undisturbed : Undisturbed shared after)
    (idle : RedispatchIdle setup shared) : RedispatchIdle setup after :=
  ⟨undisturbed.fainted.base idle.1, idle.2.fainted undisturbed.fainted undisturbed.created⟩

theorem ahead_inside (now : point.ahead = true ∨ point.renews = true) : point.index ≠ none := by
  cases now with
  | inl now => cases point <;> first | exact absurd now Bool.false_ne_true | simp [DrivePoint.index]
  | inr now => cases point <;> first | exact absurd now Bool.false_ne_true | simp [DrivePoint.index]

theorem driveRenews_free (looks : point.looks = false) (passes : point.passes = false)
    (outside : point.index = none) (begins : point.begins = true) : DriveRenews shared point := by
  refine ⟨fun now => ?_, fun now => ?_, fun now => ?_, fun now => ?_, fun now => ?_, fun now => ?_⟩
  · exact absurd (looks.symm.trans now) Bool.false_ne_true
  · exact absurd (passes.symm.trans now) Bool.false_ne_true
  · exact absurd outside (ahead_inside (.inl now))
  · exact absurd outside (ahead_inside (.inr now))
  · rw [outside] at now
    cases now
  · exact absurd (now.symm.trans begins) Bool.false_ne_true

theorem driveRenews_outside (outside : point.index = none) (ready : ReadyOrCut shared.progress)
    (begun : point.begins = false → shared.run.view.state ≠ .created) :
    DriveRenews shared point := by
  refine ⟨fun _ _ => ready, fun _ => ready, fun now => ?_, fun now => ?_, fun now => ?_, begun⟩
  · exact absurd outside (ahead_inside (.inl now))
  · exact absurd outside (ahead_inside (.inr now))
  · rw [outside] at now
    cases now

theorem driveRenews_looks (outside : point.index = none) (looks : point.passes = false)
    (ready : OpenRun shared → ReadyOrCut shared.progress)
    (begun : point.begins = false → shared.run.view.state ≠ .created) :
    DriveRenews shared point := by
  refine ⟨fun _ => ready, fun now => ?_, fun now => ?_, fun now => ?_, fun now => ?_, begun⟩
  · exact absurd (looks.symm.trans now) Bool.false_ne_true
  · exact absurd outside (ahead_inside (.inl now))
  · exact absurd outside (ahead_inside (.inr now))
  · rw [outside] at now
    cases now

theorem driveRenews_inside
    (order : point.past = true ∨ point.ahead = true ∧ Ready shared.run.cursor shared.journal)
    (uncut : shared.run.interrupted = false) (begun : shared.run.view.state ≠ .created) :
    DriveRenews shared point := by
  have apart : point.looks = false ∧ point.passes = false ∧ point.renews = false := by
    cases order with
    | inl past => cases point <;> first | exact ⟨rfl, rfl, rfl⟩ | cases past
    | inr ahead => cases point <;> first | exact ⟨rfl, rfl, rfl⟩ | cases ahead.1
  refine ⟨fun now => ?_, fun now => ?_, fun now => ?_, fun now => ?_, fun _ => uncut,
    fun _ => begun⟩
  · exact absurd (apart.1.symm.trans now) Bool.false_ne_true
  · exact absurd (apart.2.1.symm.trans now) Bool.false_ne_true
  · cases order with
    | inl past =>
        cases point <;> first
          | exact absurd now Bool.false_ne_true
          | exact absurd past Bool.false_ne_true
    | inr ahead => exact ahead.2
  · exact absurd (apart.2.2.symm.trans now) Bool.false_ne_true

variable {target : Nat} {earlier : List RunEvent}

theorem readyOrCut_moved {progress : Progress}
    (journal : progress.journal = .moved target :: earlier) : ReadyOrCut progress := by
  right
  rw [Ready, journal]
  exact sinceDispatch_moved target

theorem redispatchNew_moved (journal : after.journal = .moved target :: earlier) :
    RedispatchNew after := by
  intro _ said
  rw [journal]
  exact sinceDispatch_moved target

end

variable (setup : Setup) {shared : Shared}

theorem redispatch_asides {after : Shared} {role : Role} {next : List Role}
    (turned : AsideTurned setup shared role after next) (fact : RedispatchFact setup shared role) :
    Leaves (RedispatchIdle setup) (RedispatchFact setup) after next := by
  obtain ⟨idle, at_⟩ := fact
  cases turned with
  | settles driver undisturbed | patches driver undisturbed | launched undisturbed =>
      exact ⟨idle.undisturbed undisturbed, redispatch_undisturbed undisturbed at_⟩
  | restored undisturbed => exact ⟨idle.undisturbed undisturbed, trivial⟩
  | settled driver undisturbed =>
      exact ⟨idle.undisturbed undisturbed, driveRenews_free rfl rfl rfl rfl⟩
  | patched driver undisturbed =>
      exact ⟨idle.undisturbed undisturbed, driveRenews_outside rfl
        (undisturbed.fainted.readyOrCut at_.1) fun _ now => at_.2 (undisturbed.created now)⟩
  | failed undisturbed | released undisturbed => exact idle.undisturbed undisturbed
  | submitted resumed =>
      refine ⟨idle, ⟨fun _ => at_, ?_, ?_, ?_, ?_, ?_⟩⟩ <;>
      · intro now
        cases now
  | withdrawn | dropped | judged found calls => exact ⟨idle, trivial⟩
  | undefined missing => exact idle
  | cleared =>
      refine ⟨⟨idle.1.cleared rfl rfl rfl rfl, idle.2.noted rfl (by simp) id rfl rfl⟩,
        fun _ => .inr ?_⟩
      exact (sinceDispatch_cons rfl (by simp)).2 (SinceDispatch.imp at_ fun since has =>
        ⟨List.mem_cons_of_mem _ has.1, .inr (List.mem_cons_of_mem _ has.2),
          fun _ => List.mem_cons_self⟩)
  | skipped =>
      exact ⟨⟨idle.1.moved rfl rfl rfl, redispatchNew_moved rfl⟩, fun _ => readyOrCut_moved rfl⟩
  | recovered index verdict target =>
      have fainted : Fainted shared.progress (shared.note (.recovered index verdict)).progress :=
        fainted_note (.recovered index verdict) rfl rfl rfl rfl rfl rfl
      exact ⟨⟨(fainted.base idle.1).moved rfl rfl rfl, redispatchNew_moved rfl⟩,
        fun _ => readyOrCut_moved rfl⟩
  | uncertain index =>
      have fainted : Fainted shared.progress (shared.note (.recovered index .uncertain)).progress :=
        fainted_note (.recovered index .uncertain) rfl rfl rfl rfl rfl rfl
      have new : RedispatchNew (shared.note (.recovered index .uncertain)) :=
        idle.2.noted rfl (by simp) id rfl rfl
      exact ⟨⟨(fainted.base idle.1).cleared rfl rfl rfl rfl, new.noted rfl (by simp) id rfl rfl⟩,
        trivial⟩

/-- The guard together with the observation of the continuations and the place of the owner. -/
def RenewsPlaced (setup : Setup) (shared : Shared) (point : Point) (others : List Point)
    (answer : Answer) : Prop :=
  (RenewsInOrder setup shared point others answer ∧ ObservedAhead shared (point :: others)) ∧
    Placed setup shared (point :: others)

section
variable {setup : Setup} {shared after : Shared} {driver : Drive}

theorem redispatch_leaves {target : Nat} {later : Drive}
    (base : RedispatchBase setup shared.progress) (begun : shared.run.view.state ≠ .created) :
    RedispatchFact setup (shared.moveTo target) (.drive later .top) :=
  ⟨⟨base.moved rfl rfl rfl, redispatchNew_moved rfl⟩,
    driveRenews_outside rfl (readyOrCut_moved rfl) fun _ => begun⟩

theorem redispatch_executed (idle : RedispatchIdle setup shared) (entered : Bool) (index : Nat) :
    RedispatchBase setup ((shared.countArrival entered index).countExecution index).progress ∧
      (Ready shared.run.cursor shared.journal → Ready shared.run.cursor
        ((shared.countArrival entered index).countExecution index).journal) := by
  have fainted : Fainted shared.progress (shared.countArrival entered index).progress := by
    rw [Shared.countArrival]
    split
    · exact fainted_note (.entered index) rfl rfl rfl rfl rfl rfl
    · exact fainted_of_eq rfl
  refine ⟨(fainted.base idle.1).executed rfl rfl rfl rfl rfl, fun ready => ?_⟩
  exact (fainted.ready ready).noted rfl (by simp) (by simp)

variable {index : Nat}

theorem ready_retried (base : RedispatchBase setup shared.progress)
    (here : index = shared.run.cursor) (uncut : shared.run.interrupted = false)
    (observed : SinceDispatch index shared.journal fun since => .observed ∈ since) :
    Ready shared.run.cursor (.retried index :: shared.journal) := by
  subst here
  have resolved := base.resolved uncut
  refine (sinceDispatch_cons rfl (by simp)).2 fun since among => ?_
  exact ⟨List.mem_cons_of_mem _ (observed since among), .inl List.mem_cons_self,
    cutResolved_cons (by simp) (resolved since among)⟩

theorem lastDispatch_mem {events since : List RunEvent} (last : since ∈ lastDispatch index events) :
    .dispatched index true ∈ events := by
  induction events generalizing since with
  | nil => cases last
  | cons event rest ih =>
      rw [lastDispatch] at last
      split at last
      · next same => exact same ▸ List.mem_cons_self
      · obtain ⟨before, earlier, _⟩ := Option.mem_map.1 last
        exact List.mem_cons_of_mem _ (ih earlier)

variable {step : WorkflowStep}

theorem observed_of_harmless (base : RedispatchBase setup shared.progress)
    (found : setup.step index = some step) (kept : SinceDispatch index shared.journal fun since =>
      .observed ∈ since ∨
      stepToolHasSideEffects setup.host (Setup.argumentsAt shared index) = true)
    (harmless : ¬ (step.kind = .toolCall ∧
      stepToolHasSideEffects setup.host (Setup.argumentsAt shared index) = true)) :
    SinceDispatch index shared.journal fun since => .observed ∈ since := by
  intro since among
  cases kept since among with
  | inl observed => exact observed
  | inr effects =>
      obtain ⟨own, same, calls⟩ := base.kinds index true (lastDispatch_mem among)
      cases found.symm.trans same
      exact absurd ⟨calls, effects⟩ harmless

theorem begins_outside {point : DrivePoint} (inside : point.index = some index) :
    point.begins = false := by
  cases point <;> first | rfl | cases inside

theorem redispatchNew_begun (begun : shared.run.view.state ≠ .created) : RedispatchNew shared :=
  fun created => absurd created begun

theorem transition_begun {target : WorkflowRunState}
    (done : shared.transition target = .ok after) (begins : target ≠ .created) :
    after.run.view.state ≠ .created := by
  rw [(transition_state done).1]
  exact begins

theorem countArrival_begun (shared : Shared) (entered : Bool) (index : Nat) :
    (shared.countArrival entered index).run.interrupted = shared.run.interrupted ∧
      (shared.countArrival entered index).run.view.state = shared.run.view.state := by
  rw [Shared.countArrival]
  split <;> exact ⟨rfl, rfl⟩

theorem allowed_retried (base : RedispatchBase setup shared.progress)
    (found : setup.step index = some step) (allowed : Workflow.retries shared step index = true) :
    Allowed setup (.retried index) shared.journal := by
  have attempts : shared.run.attempts index = shared.journal.count (.executed index) :=
    base.attempts index
  have retries : shared.run.retries index = shared.journal.count (.retried index) :=
    base.retries index
  simp only [Workflow.retries, Bool.and_eq_true, decide_eq_true_eq, attempts, retries] at allowed
  exact ⟨step, found, allowed.1.1, allowed.1.2, allowed.2⟩

theorem redispatch_retried {target : DrivePoint} (base : RedispatchBase setup shared.progress)
    (here : index = shared.run.cursor) (uncut : shared.run.interrupted = false)
    (begun : shared.run.view.state ≠ .created) (found : setup.step index = some step)
    (kept : SinceDispatch index shared.journal fun since =>
      .observed ∈ since ∨
      stepToolHasSideEffects setup.host (Setup.argumentsAt shared index) = true)
    (next : target = .reobserve index ∨ target = .top ∧
      ¬ (step.kind = .toolCall ∧
      stepToolHasSideEffects setup.host (Setup.argumentsAt shared index) = true))
    (cursor : after.run.cursor = shared.run.cursor)
    (interrupted : after.run.interrupted = shared.run.interrupted)
    (state : after.run.view.state = shared.run.view.state)
    (journal : after.journal = .retried index :: shared.journal) : DriveRenews after target := by
  have started : after.run.view.state ≠ .created := state ▸ begun
  cases next with
  | inl again =>
      subst again
      refine ⟨fun now => ?_, fun now => ?_, fun now => ?_, fun _ => ?_,
        fun _ => interrupted.trans uncut, fun _ => started⟩
      · cases now
      · cases now
      · cases now
      · rw [cursor, journal, ← here, sinceDispatch_cons rfl (by simp)]
        exact fun _ _ => .inl List.mem_cons_self
  | inr top =>
      obtain ⟨same, harmless⟩ := top
      subst same
      have observed := observed_of_harmless base found kept harmless
      refine driveRenews_outside rfl (.inr ?_) fun _ => started
      change Ready after.run.cursor after.journal
      rw [cursor, journal]
      exact ready_retried base here uncut observed

end

theorem redispatch_drives {driver : Drive} {point : DrivePoint} {others : List Point}
    {answer : Answer} {result : Shared × List Point}
    (met : RenewsPlaced setup shared (.drive driver point) others answer)
    (turned : DriveTurned setup shared driver answer point result)
    (fact : RedispatchFact setup shared (.drive driver point)) :
    Leaves (RedispatchIdle setup) (RedispatchFact setup) result.1 (rolesOf result.2) := by
  have place : InStep setup shared.run.cursor point := placed_inStep met.2
  obtain ⟨⟨base, new⟩, at_⟩ := fact
  have renews : DriveRenews shared point := at_
  have uncut : ∀ {index}, point.index = some index → shared.run.interrupted = false :=
    fun about => renews.uncut (by rw [about]; rfl)
  have begun : ∀ {index}, point.index = some index → shared.run.view.state ≠ .created :=
    fun about => renews.begun (begins_outside about)
  cases turned with
  | unstarted created =>
      exact ⟨⟨base, new⟩, driveRenews_outside rfl (renews.looks rfl (.inr created))
        fun now => absurd now.symm Bool.false_ne_true⟩
  | resumed started =>
      exact ⟨⟨base, new⟩, driveRenews_looks rfl rfl (renews.looks rfl) fun _ => started⟩
  | started done =>
      have now := transition_begun done (by decide)
      have fainted := fainted_of_eq (transition_progress done)
      exact ⟨⟨fainted.base base, redispatchNew_begun now⟩,
        driveRenews_outside rfl (fainted.readyOrCut (renews.passes rfl)) fun _ => now⟩
  | looped active =>
      exact ⟨⟨base, new⟩, driveRenews_outside rfl (renews.looks rfl (.inl active))
        fun _ => renews.begun rfl⟩
  | drained =>
      cases shared.run.pending with
      | nil =>
          exact ⟨⟨base, new⟩, driveRenews_outside rfl (renews.passes rfl)
            fun _ => renews.begun rfl⟩
      | cons patch rest => exact ⟨⟨base, new⟩, renews.passes rfl, renews.begun rfl⟩
  | settles | stages | unhanded => exact ⟨⟨base, new⟩, trivial⟩
  | left | stops | escalates => exact ⟨⟨base, new⟩, driveRenews_free rfl rfl rfl rfl⟩
  | paused =>
      have undisturbed : Undisturbed shared (shared.tryTransition .paused) :=
        undisturbed_tried shared (by decide) (by decide)
      exact ⟨RedispatchIdle.undisturbed undisturbed ⟨base, new⟩, driveRenews_free rfl rfl rfl rfl⟩
  | skipped goes => exact redispatch_leaves base (renews.begun rfl)
  | reached goes found next =>
      have unmarked := met.1.1.1.2 (by simp [Point.goesOn, goes])
      have ready : Ready shared.run.cursor shared.journal := by
        cases renews.passes rfl with
        | inl marked => exact absurd (unmarked.symm.trans marked) Bool.false_ne_true
        | inr ready => exact ready
      refine ⟨⟨base, new⟩, driveRenews_inside (.inr ⟨?_, ready⟩) unmarked (renews.begun rfl)⟩
      obtain first | second := next
      · rw [first]
        rfl
      · rw [second]
        rfl
  | undefined about missing marks =>
      obtain ⟨_, step, found, _⟩ := place _ about
      cases missing.symm.trans found
  | fails failure about kept marks =>
      have fainted := fainted_of_eq kept.2
      have started := begun about
      rw [← kept.state] at started
      exact ⟨⟨fainted.base base, redispatchNew_begun started⟩,
        driveRenews_inside (.inl rfl) (fainted.interrupted.trans (uncut about)) started⟩
  | completes about kept marks =>
      have started := begun about
      rw [← kept.state] at started
      exact redispatch_leaves ((fainted_of_eq kept.2).base base) started
  | goes about within evidence kind order kept marks =>
      have fainted := fainted_of_eq kept.2
      have started := begun about
      rw [← kept.state] at started
      refine ⟨⟨fainted.base base, redispatchNew_begun started⟩,
        driveRenews_inside (order.imp_right fun ahead => ⟨ahead.1, ?_⟩)
          (fainted.interrupted.trans (uncut about)) started⟩
      rw [kept.cursor]
      exact fainted.ready (renews.ahead ahead.2)
  | handsOff index found enters due =>
      have fainted : Fainted shared.progress
          (shared.countArrival true index).progress := by
        exact fainted_note (.entered index) rfl rfl rfl rfl rfl rfl
      have after : Fainted shared.progress
          ((shared.countArrival true index).countHandoff index).progress :=
        ⟨fainted.cursor, fainted.interrupted, fainted.attempts, fainted.retries, fainted.journal⟩
      exact ⟨⟨after.base base, redispatchNew_begun (begun rfl)⟩,
        driveRenews_free rfl rfl rfl rfl⟩
  | executes index found undue within evidence kind order =>
      have shape := countArrival_begun shared (driver.enters index) index
      obtain ⟨counted, ready⟩ := redispatch_executed ⟨base, new⟩ (driver.enters index) index
      have started : ((shared.countArrival (driver.enters index) index).countExecution
          index).run.view.state ≠ .created := fun created => begun rfl (shape.2 ▸ created)
      have inside : (shared.countArrival (driver.enters index) index).run.cursor =
          shared.run.cursor := countArrival_cursor shared _ index
      refine ⟨⟨counted, redispatchNew_begun started⟩,
        driveRenews_inside (order.imp_right fun ahead => ⟨ahead, ?_⟩)
          (shape.1.trans (uncut rfl)) started⟩
      change Ready (shared.countArrival (driver.enters index) index).run.cursor _
      rw [inside]
      exact ready (renews.ahead rfl)
  | jumps index target found undue kept =>
      obtain ⟨counted, _⟩ := redispatch_executed ⟨base, new⟩ (driver.enters index) index
      have shape := countArrival_begun shared (driver.enters index) index
      have started : shared.run.view.state ≠ .created := begun rfl
      rw [← shape.2] at started
      have later := kept.state
      exact redispatch_leaves ((fainted_of_eq kept.2).base counted) fun created =>
        started (later ▸ created)
  | dispatches index tool =>
      obtain ⟨here, step, found, kind⟩ := place index rfl
      have calls : step.kind = .toolCall := by
        cases kind with
        | inl any => cases any
        | inr same => exact (Option.some.inj same).symm
      have ready : Ready index shared.journal := here ▸ renews.ahead rfl
      exact ⟨⟨base.dispatched here ready found calls rfl rfl rfl rfl rfl,
        redispatchNew_begun (begun rfl)⟩,
        driveRenews_inside (.inl rfl) (uncut rfl) (begun rfl)⟩
  | navigates index edges =>
      have fainted : Fainted shared.progress (shared.note (.navigated index)).progress :=
        fainted_note (.navigated index) rfl rfl rfl rfl rfl rfl
      exact ⟨⟨fainted.base base, redispatchNew_begun (begun rfl)⟩,
        driveRenews_inside (.inl rfl) (uncut rfl) (begun rfl)⟩
  | cutShort about waits marks =>
      exact ⟨⟨base.cut rfl rfl rfl rfl, redispatchNew_begun (begun about)⟩,
        driveRenews_outside rfl (.inl rfl) fun _ => begun about⟩
  | observes index =>
      have fainted : Fainted shared.progress (shared.note .observed).progress :=
        fainted_note .observed rfl rfl rfl rfl rfl rfl
      exact ⟨⟨fainted.base base, redispatchNew_begun (begun rfl)⟩,
        driveRenews_inside (.inl rfl) (uncut rfl) (begun rfl)⟩
  | reobserves index =>
      have fainted : Fainted shared.progress (shared.note .observed).progress :=
        fainted_note .observed rfl rfl rfl rfl rfl rfl
      have resolved := base.resolved (uncut rfl)
      have ready : Ready shared.run.cursor (.observed :: shared.journal) := by
        refine (sinceDispatch_cons rfl (by simp)).2 fun since among => ?_
        exact ⟨List.mem_cons_self, renewed_cons (renews.renews rfl since among),
          cutResolved_cons (by simp) (resolved since among)⟩
      exact ⟨⟨fainted.base base, redispatchNew_begun (begun rfl)⟩,
        driveRenews_outside rfl (.inr ready) fun _ => begun rfl⟩
  | lost => exact ⟨base, new⟩
  | retries index failure found allowed next =>
      have here := (place index rfl).1
      have kept := met.1.1.2.2.2 index (by simp [Point.retried, found, allowed])
      refine ⟨⟨base.retried (allowed_retried base found allowed) rfl rfl rfl rfl rfl,
        redispatchNew_begun (begun rfl)⟩, ?_⟩
      exact redispatch_retried base here (uncut rfl) (begun rfl) found kept next rfl rfl rfl rfl
  | fallsBack index failure target => exact redispatch_leaves base (begun rfl)
  | escalated kept =>
      have fainted := fainted_of_eq kept.2
      exact ⟨⟨fainted.base base, new.fainted fainted fun now => kept.state ▸ now⟩,
        driveRenews_free rfl rfl rfl rfl⟩
  | handedOff checkpoint done =>
      have fainted := fainted_of_eq (transition_progress done)
      have waiting := transition_begun done (by decide)
      refine ⟨?_, driveRenews_free rfl rfl rfl rfl⟩
      cases checkpoint with
      | none => exact ⟨fainted.base base, redispatchNew_begun waiting⟩
      | some index =>
          refine ⟨Fainted.base ?_ (fainted.base base), redispatchNew_begun waiting⟩
          exact fainted_note (.handedOff index) rfl rfl rfl rfl rfl rfl
  | ended => exact ⟨base, new⟩

theorem redispatch_claimed {setup : Setup} (idle : RedispatchIdle setup shared)
    (inactive : shared.run.view.state ≠ .running) (open_ : OpenRun shared) :
    ReadyOrCut shared.progress := by
  cases open_ with
  | inl active => exact absurd active inactive
  | inr created => exact .inr (idle.2 created _)

theorem redispatch_rules :
    OwnerRules (RedispatchIdle setup) (RedispatchFact setup) setup (RenewsPlaced setup) where
  idles := fun undisturbed idle => idle.undisturbed undisturbed
  facts := fun undisturbed fact =>
    ⟨fact.1.undisturbed undisturbed, redispatch_undisturbed undisturbed fact.2⟩
  started := fun met takes idle => ⟨idle, redispatch_claimed idle (met.1.1.2.1 rfl takes)⟩
  executed := fun met takes idle =>
    ⟨idle, driveRenews_looks rfl rfl (redispatch_claimed idle (met.1.1.2.1 rfl takes))
      fun now => absurd now.symm Bool.false_ne_true⟩
  activated := by
    intro shared moved others answer met done idle
    have observed : Observed shared := met.1.2 _ List.mem_cons_self rfl
    have same := transition_progress done
    have cursor : moved.run.cursor = shared.run.cursor := congrArg Progress.cursor same
    have journal : moved.journal = shared.journal := congrArg Progress.journal same
    have base := (fainted_of_eq same).base idle.1
    have fainted : Fainted moved.progress (moved.note .resumed).progress :=
      fainted_note .resumed rfl rfl rfl rfl rfl rfl
    rw [Observed, ← cursor, ← journal] at observed
    have begun := transition_begun done (by decide)
    refine ⟨⟨fainted.base base, redispatchNew_begun begun⟩, ?_⟩
    split
    · refine (sinceDispatch_cons rfl (by simp)).2 fun since among => ?_
      exact ⟨List.mem_cons_of_mem _ (observed since among), List.mem_cons_self⟩
    · next uncut =>
        have resolved := base.resolved (Bool.not_eq_true _ ▸ uncut)
        refine fun _ => .inr ((sinceDispatch_cons rfl (by simp)).2 fun since among => ?_)
        exact ⟨List.mem_cons_of_mem _ (observed since among), .inr List.mem_cons_self,
          cutResolved_cons (by simp) (resolved since among)⟩
  rejected := fun done idle =>
    ⟨⟨(fainted_of_eq (transition_progress done)).base idle.1,
      redispatchNew_begun (transition_begun done (by decide))⟩, trivial⟩
  asides := fun turned fact => redispatch_asides setup turned fact
  drives := fun met turned fact => redispatch_drives setup met turned fact

/-- Between two dispatches with a side effect in one visit the run was observed, the step was
retried or the run resumed, and a step that was cut short was resolved; a retry is one that the
hook of the step still allows. -/
structure RedispatchesRenewed (setup : Setup) (journal : List RunEvent) : Prop where
  dispatched : ∀ later index earlier, journal = later ++ .dispatched index true :: earlier →
    Ready index earlier
  retried : ∀ later index earlier, journal = later ++ .retried index :: earlier →
    ∃ step, setup.step index = some step ∧ step.recoveryMode = some .retry ∧
      earlier.count (.executed index) < step.maxAttempts ∧
      earlier.count (.retried index) <
        (step.recovery.map WorkflowRecoveryHook.maxRetries).getD 0

theorem redispatches_renewed (setup : Setup) (state : EffectiveState) (turns : List RunTurn)
    (renews : TurnsMeet setup (RenewsInOrder setup) (newRun state) turns) :
    RedispatchesRenewed setup (runTurns setup (newRun state) turns).shared.journal := by
  have observed : TurnsMeet setup (fun shared point others answer =>
      RenewsInOrder setup shared point others answer ∧ ObservedAhead shared (point :: others))
      (newRun state) turns :=
    renews_observed setup (newRun state) turns (by simp [newRun, ObservedAhead]) renews
  have placed : TurnsMeet setup (RenewsPlaced setup) (newRun state) turns :=
    (placed_rules setup _).meets (fun met => met.1.1.1) (newRun state) turns
      (.inl ⟨rfl, trivial⟩) observed
  have start : RedispatchIdle setup (newRun state).shared :=
    ⟨⟨trivial, fun _ => rfl, fun _ => rfl, fun _ _ among => absurd among List.not_mem_nil,
      fun _ _ among => by cases among⟩, fun _ _ _ among => by cases among⟩
  have owned := (redispatch_rules setup).run (fun met => met.1.1.1.1) (newRun state) turns
    (.inl ⟨rfl, start⟩) placed
  have justified : Justified (Allowed setup) (runTurns setup (newRun state) turns).shared.journal :=
    owned.base (fun idle => idle.1.justified) fun fact => fact.1.1.justified
  refine ⟨fun later index earlier whole => ?_, fun later index earlier whole => ?_⟩
  · rw [whole] at justified
    exact justified.license
  · rw [whole] at justified
    exact justified.license

def retryStep : WorkflowStep :=
  { wipeStep with recovery := some { mode := .retry, maxRetries := 1 }, maxAttempts := 2 }

/-- One step with a side effect and a retry, under a policy that has an agent. -/
def wipeWorkflow : WorkflowDefinition :=
  { workflowId := .filled 9
    name := ascii "wipe"
    steps := [retryStep]
    defaultPolicy := .agentAssisted
    allowedPolicies := [.agentAssisted] }

def wipeState : EffectiveState :=
  { policy := .agentAssisted
    bindings := ⟨[], canonicalJsonDigest (.object [])⟩
    resolved := [retryStep.arguments] }

def wipeSetup : Setup := { host := wipeHost, definition := wipeWorkflow }

def failedTool : Answer := { outcome := .failedRecord [] }

/-- The tool of the step fails, is retried, fails again and is left to the agent, who resumes
the run. -/
def resumedWipeTurns : List RunTurn :=
  inFlightTurns ++ .turn 0 failedTool :: turnsOf 0 7 {} ++ .turn 0 failedTool :: turnsOf 0 4 {} ++
    resumedTurns ++ turnsOf 0 8 {}

theorem resumed_side_effect_renewed :
    RedispatchesRenewed wipeSetup
        (runTurns wipeSetup (newRun wipeState) resumedWipeTurns).shared.journal ∧
      (runTurns wipeSetup (newRun wipeState) resumedWipeTurns).shared.journal.count
        (.dispatched 0 true) = 3 :=
  ⟨redispatches_renewed wipeSetup wipeState resumedWipeTurns (by decide +kernel),
    by decide +kernel⟩

/-- A step is dispatched again only on a retry, or on a resumption that resolved it. -/
def RetriedOrResolved (journal : List RunEvent) : Prop :=
  ∀ later index earlier, journal = later ++ .dispatched index true :: earlier →
    SinceDispatch index earlier fun since =>
      .observed ∈ since ∧
        (.retried index ∈ since ∨ .resumed ∈ since ∧ .cleared index ∈ since)

/-- The tool of the step cancels on its own and is dispatched again. -/
def cancelledWipeTurns : List RunTurn :=
  inFlightTurns ++ .turn 0 cancelledTool :: turnsOf 0 5 {}

theorem failed_side_effect_resumed :
    admitRun wipeHost wipeWorkflow (.object []) none = .ok wipeState ∧
      ¬ RetriedOrResolved
        (runTurns wipeSetup (newRun wipeState) resumedWipeTurns).shared.journal ∧
      ¬ RetriedOrResolved
        (runTurns wipeSetup (newRun wipeState) cancelledWipeTurns).shared.journal := by
  refine ⟨rfl, fun claim => ?_, fun claim => ?_⟩
  · have licensed := claim [] 0
      ((runTurns wipeSetup (newRun wipeState) resumedWipeTurns).shared.journal.drop 1)
      (by decide +kernel)
    exact absurd licensed (by decide +kernel)
  · have licensed := claim [] 0
      ((runTurns wipeSetup (newRun wipeState) cancelledWipeTurns).shared.journal.drop 1)
      (by decide +kernel)
    exact absurd licensed (by decide +kernel)

end Mira.Workflow
