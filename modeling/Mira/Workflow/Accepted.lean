import Mira.Workflow.PatchFlow
import Mira.Workflow.Accepting

/-!
A patch is written once. What is on its way has one id each, fits into the queue and is admitted;
every turn that meets the conditions keeps that, and a patch that is written comes from there.
-/

namespace Mira.Workflow
open Mira Bytes

section
variable {setup : Setup} {shared after : Shared} {point : Point} {threads others : List Point}

variable (first second : List Point)

theorem patchesIn_append :
    patchesIn (first ++ second) = patchesIn first ++ patchesIn second := List.flatMap_append

theorem patchesIn_cons (point : Point) (others : List Point) :
    patchesIn (point :: others) = point.patches ++ patchesIn others := List.flatMap_cons

theorem queueing_append :
    queueing (first ++ second) = queueing first + queueing second := List.countP_append

theorem fresh_count {run : RunRecord} {patchId : WorkflowPatchId}
    (fresh : heldDigest run patchId = none) :
    (run.applied.map AppliedPatch.patchId).count patchId = 0 ∧
      (run.pending.map PendingPatch.patchId).count patchId = 0 := by
  rw [heldDigest, Option.or_eq_none_iff] at fresh
  obtain ⟨applied, pending⟩ := fresh
  simp only [Option.map_eq_none_iff, List.find?_eq_none, decide_eq_true_eq] at applied pending
  refine ⟨List.count_eq_zero.2 fun among => ?_, List.count_eq_zero.2 fun among => ?_⟩
  · obtain ⟨patch, own, same⟩ := List.mem_map.1 among
    exact applied patch own same
  · obtain ⟨patch, own, same⟩ := List.mem_map.1 among
    exact pending patch own same

variable {next : List Point}

theorem PatchFlow.fewer (left : (patchesIn next).Sublist point.patches) (queued : queueing next = 0)
    (flow : PatchFlow setup shared (point :: others)) :
    PatchFlow setup shared (next ++ others) := by
  refine ⟨flow.epoch, fun patchId => ?_, ?_, fun patch among => flow.admitted patch ?_,
    flow.written, flow.licensed⟩
  · have before := flow.distinct patchId
    have fewer := (left.map PendingPatch.patchId).count_le patchId
    simp only [patchesIn_cons, patchesIn_append, List.map_append, List.count_append]
      at before ⊢
    omega
  · have before := flow.room
    rw [queueing, List.countP_cons] at before
    rw [queueing_append, queued, queueing]
    omega
  · rw [patchesIn_append] at among
    rw [patchesIn_cons]
    exact (List.Sublist.append_left (left.append_right _) _).subset among

theorem PatchFlow.kept (kept : PatchesKept shared after)
    (open_ : ∀ patch ∈ shared.run.pending ++ patchesIn threads,
      patch.confirmed = true ∨ admitsPatches after.run = true)
    (flow : PatchFlow setup shared threads) : PatchFlow setup after threads := by
  obtain ⟨events, silent, journal⟩ := kept.journal
  have nothing : events.filterMap RunEvent.commitId = [] := List.filterMap_eq_nil_iff.2 silent
  refine ⟨?_, ?_, ?_, ?_, ?_, fun patchId admits among => ?_⟩
  · rw [kept.epoch, kept.applied]
    exact flow.epoch
  · rw [kept.applied, kept.pending]
    exact flow.distinct
  · rw [kept.pending]
    exact flow.room
  · rw [kept.pending]
    exact open_
  · rw [journal, List.filterMap_append, nothing, kept.applied]
    exact flow.written
  · rw [journal] at among
    cases List.mem_append.1 among with
    | inl new => cases silent _ new
    | inr old => exact flow.licensed patchId admits old

theorem admitsPatches_kept (kept : PatchesKept shared after)
    (state : after.run.view.state = shared.run.view.state) :
    admitsPatches after.run = admitsPatches shared.run := by
  rw [admitsPatches, admitsPatches, kept.policy, state]

theorem admitsPatches_open (kept : PatchesKept shared after)
    (policy : point.policyAfter shared = shared.run.effective.policy)
    (state : after.run.view.state = point.stateAfter shared)
    (open_ : admitsPatches shared.run = true) (stays : point.closes shared = false) :
    admitsPatches after.run = true := by
  rw [Point.closes, open_, Bool.true_and, Bool.not_eq_false', policy, ← state,
    ← kept.policy] at stays
  exact stays

variable {patch : PendingPatch} {submitter : Submitter} {answer : Answer}

theorem PatchFlow.admits {next : Point} (fresh : heldDigest shared.run patch.patchId = none)
    (allowed : patch.confirmed = true ∨ admitsPatches shared.run = true)
    (left : next.patches = patch :: submitter.rest)
    (queued : next.queues = true → shared.run.view.state = .running ∧
      shared.run.pending.length < setup.config.maxPendingPatchesPerRun)
    (apart : PatchesApart setup shared (.submit patch submitter) others answer)
    (flow : PatchFlow setup shared (.submit patch submitter :: others)) :
    PatchFlow setup shared (next :: others) := by
  obtain ⟨unseen, room⟩ := apart.1 patch rfl
  obtain ⟨unapplied, unqueued⟩ := fresh_count fresh
  refine ⟨flow.epoch, fun patchId => ?_, ?_, fun other among => ?_, flow.written, flow.licensed⟩
  · have before := flow.distinct patchId
    have away := List.count_eq_zero.2 unseen
    have own : (Point.submit patch submitter).patches = submitter.rest := rfl
    simp only [patchesIn_cons, own, left, List.map_append, List.map_cons, List.count_append,
      List.count_cons] at before away ⊢
    by_cases same : patch.patchId = patchId
    · subst same
      simp only [BEq.rfl, if_true]
      omega
    · simp only [beq_iff_eq, same, if_false]
      omega
  · have before := flow.room
    rw [queueing, List.countP_cons_of_neg (by simp [Point.queues])] at before
    rw [queueing, List.countP_cons]
    split
    · next queues =>
        obtain ⟨active, some_⟩ := queued queues
        have enough := room active some_
        rw [queueing] at enough
        omega
    · omega
  · rw [patchesIn_cons, left] at among
    simp only [List.cons_append, List.mem_append, List.mem_cons] at among
    have rest : ∀ other, other ∈ shared.run.pending ∨ other ∈ submitter.rest ∨
        other ∈ patchesIn others → other.confirmed = true ∨ admitsPatches shared.run = true := by
      intro other held
      refine flow.admitted other ?_
      rw [patchesIn_cons]
      simpa [Point.patches] using held
    obtain pending | own | behind | elsewhere := among
    · exact rest other (.inl pending)
    · exact own ▸ allowed
    · exact rest other (.inr (.inl behind))
    · exact rest other (.inr (.inr elsewhere))

theorem PatchFlow.queues (left : patchesIn next = submitter.rest) (none : queueing next = 0)
    (flow : PatchFlow setup shared (.enqueue patch submitter :: others)) :
    PatchFlow setup
      { shared with run := { shared.run with pending := shared.run.pending ++ [patch] } }
      (next ++ others) := by
  refine ⟨flow.epoch, fun patchId => ?_, ?_, fun other among => flow.admitted other ?_,
    flow.written, flow.licensed⟩
  · have before := flow.distinct patchId
    simp only [patchesIn_cons, patchesIn_append, Point.patches, left, List.map_append,
      List.map_cons, List.map_nil, List.count_append, List.count_cons, List.count_nil]
      at before ⊢
    omega
  · have before := flow.room
    rw [queueing, List.countP_cons_of_pos (by simp [Point.queues])] at before
    rw [queueing_append, none, queueing, List.length_append, List.length_singleton]
    omega
  · rw [patchesIn_append, left] at among
    rw [patchesIn_cons]
    simp only [List.mem_append, List.mem_singleton] at among
    simp only [Point.patches, List.mem_append, List.mem_cons]
    tauto

theorem PatchFlow.drains {driver : Drive} (left : patchesIn next = shared.run.pending)
    (none : queueing next = 0) (flow : PatchFlow setup shared (.drive driver .drain :: others)) :
    PatchFlow setup { shared with run := { shared.run with pending := [] } } (next ++ others) := by
  refine ⟨flow.epoch, fun patchId => ?_, ?_, fun other among => flow.admitted other ?_,
    flow.written, flow.licensed⟩
  · have before := flow.distinct patchId
    simp only [patchesIn_cons, patchesIn_append, Point.patches, left, List.map_append,
      List.map_nil, List.count_append, List.count_nil, List.nil_append] at before ⊢
    omega
  · have before := flow.room
    rw [queueing, List.countP_cons_of_neg (by simp [Point.queues])] at before
    rw [queueing_append, none, queueing]
    simp only [List.length_nil]
    omega
  · rw [patchesIn_append, left] at among
    rw [patchesIn_cons]
    exact among

theorem PatchFlow.writes {patched : EffectiveState} (left : patchesIn next = submitter.rest)
    (none : queueing next = 0)
    (apart : PatchesApart setup shared (.commit patch patched submitter) others answer)
    (flow : PatchFlow setup shared (.commit patch patched submitter :: others)) :
    PatchFlow setup (shared.commitPatch patch patched) (next ++ others) := by
  have whole : ∀ other, other ∈ shared.run.pending ++ patchesIn (next ++ others) ↔
      other ∈ shared.run.pending ++ (submitter.rest ++ patchesIn others) := by
    rw [patchesIn_append, left]
    exact fun _ => Iff.rfl
  refine ⟨?_, fun patchId => ?_, ?_, fun other among => ?_, ?_, fun patchId admits among => ?_⟩
  · have before := flow.epoch
    simp only [Shared.commitPatch, List.length_append, List.length_singleton]
    omega
  · have before := flow.distinct patchId
    simp only [Shared.commitPatch, patchesIn_cons, patchesIn_append, Point.patches, left,
      List.map_append, List.map_cons, List.map_nil, List.count_append, List.count_cons,
      List.count_nil] at before ⊢
    omega
  · have before := flow.room
    rw [queueing, List.countP_cons_of_neg (by simp [Point.queues])] at before
    rw [queueing_append, none, queueing]
    exact Nat.zero_add _ ▸ before
  · have before : other.confirmed = true ∨ admitsPatches shared.run = true := by
      refine flow.admitted other ?_
      have held := (whole other).1 among
      rw [patchesIn_cons]
      simp only [Point.patches, List.cons_append, List.mem_append, List.mem_cons] at held ⊢
      tauto
    cases before with
    | inl confirmed => exact .inl confirmed
    | inr open_ =>
        cases stays : (Point.commit patch patched submitter).closes shared with
        | true => exact .inl (apart.2 stays other ((whole other).1 among))
        | false =>
            right
            rw [Point.closes, open_, Bool.true_and, Bool.not_eq_false'] at stays
            exact stays
  · simp only [Shared.commitPatch, List.filterMap_cons, RunEvent.commitId, flow.written,
      List.map_append, List.map_cons, List.map_nil, List.reverse_append, List.reverse_singleton,
      List.singleton_append]
  · cases List.mem_cons.1 among with
    | inl own =>
        injection own with _ unconfirmed result
        have admitted := flow.admitted patch (by simp [patchesIn_cons, Point.patches])
        rw [result]
        exact admitted.resolve_left (by simp [← unconfirmed])
    | inr old => exact flow.licensed patchId admits old

end

variable {setup : Setup} {shared : Shared}

theorem PatchEffect.keeps {point : Point} {others : List Point} {answer : Answer}
    {result : Shared × List Point} (effect : PatchEffect setup shared point result)
    (apart : PatchesApart setup shared point others answer)
    (flow : PatchFlow setup shared (point :: others)) :
    PatchFlow setup result.1 (result.2 ++ others) := by
  cases effect with
  | carried kept state left queued =>
      have fewer := flow.fewer left queued
      refine fewer.kept kept fun patch among => ?_
      cases fewer.admitted patch among with
      | inl confirmed => exact .inl confirmed
      | inr open_ =>
          cases state with
          | inl same => exact .inr ((admitsPatches_kept kept same).trans open_)
          | inr moved =>
              obtain ⟨policy, state, nothing⟩ := moved
              cases stays : point.closes shared with
              | false => exact .inr (admitsPatches_open kept policy state open_ stays)
              | true =>
                  rw [patchesIn_append, nothing, List.nil_append] at among
                  refine .inl (apart.2 stays patch ?_)
                  simp only [List.mem_append] at among ⊢
                  tauto
  | admitted fresh allowed left queued => exact flow.admits fresh allowed left queued apart
  | queued kept state left none =>
      have queued := flow.queues left none
      refine queued.kept kept fun patch among => ?_
      rw [admitsPatches_kept kept state]
      exact queued.admitted patch among
  | drained left none => exact flow.drains left none
  | committed kept state left none =>
      have written := flow.writes left none apart
      refine written.kept kept fun patch among => ?_
      rw [admitsPatches_kept kept state]
      exact written.admitted patch among

theorem patchFlow_called {threads : List Point} (call : Call)
    (flow : PatchFlow setup shared threads) :
    PatchFlow setup shared (enterCall call :: threads) := by
  have free : (enterCall call).patches = [] ∧ (enterCall call).queues = false := by
    cases call <;> exact ⟨rfl, rfl⟩
  have patches : patchesIn (enterCall call :: threads) = patchesIn threads := by
    rw [patchesIn_cons, free.1, List.nil_append]
  refine ⟨flow.epoch, patches ▸ flow.distinct, ?_, patches ▸ flow.admitted, flow.written,
    flow.licensed⟩
  rw [queueing, List.countP_cons_of_neg (by simp [free.2])]
  exact flow.room

theorem patchFlow_perm {first second : List Point} (shuffled : first.Perm second)
    (flow : PatchFlow setup shared first) : PatchFlow setup shared second := by
  have patches : (patchesIn first).Perm (patchesIn second) := shuffled.flatMap_right _
  refine ⟨flow.epoch, fun patchId => ?_, ?_, fun patch among => flow.admitted patch ?_,
    flow.written, flow.licensed⟩
  · rw [← (patches.map PendingPatch.patchId).count_eq]
    exact flow.distinct patchId
  · rw [queueing, ← shuffled.countP_eq]
    exact flow.room
  · exact (patches.append_left _).mem_iff.2 among

/-- A patch takes effect once, and one that no decision confirmed while the run admits it. -/
structure PatchedOnce (setup : Setup) (shared : Shared) : Prop where
  epoch : shared.run.view.runPatchEpoch = shared.run.applied.length
  distinct : (shared.run.applied.map AppliedPatch.patchId).Nodup
  once : ∀ patchId, (shared.journal.filterMap RunEvent.commitId).count patchId ≤ 1
  room : shared.run.pending.length ≤ setup.config.maxPendingPatchesPerRun
  licensed : ∀ patchId admits, .committed patchId false admits ∈ shared.journal → admits = true

theorem patched_once (setup : Setup) (state : EffectiveState) (turns : List RunTurn)
    (apart : TurnsMeet setup (PatchesApart setup) (newRun state) turns) :
    PatchedOnce setup (runTurns setup (newRun state) turns).shared := by
  have flow : PatchFlow setup (runTurns setup (newRun state) turns).shared
      (runTurns setup (newRun state) turns).threads := by
    refine Interleaving.run_invariant (PatchesApart setup) (PatchFlow setup) ?_ ?_ ?_
      (newRun state) turns ?_ apart
    · intro shared first second shuffled flow
      exact patchFlow_perm shuffled flow
    · intro shared threads call flow
      exact patchFlow_called call flow
    · intro shared point others answer met flow
      exact (advance_patches setup shared point answer).keeps met flow
    · exact ⟨rfl, fun _ => Nat.zero_le 1, Nat.zero_le _, fun _ among => absurd among List.not_mem_nil, rfl,
        fun _ _ among => absurd among List.not_mem_nil⟩
  have distinct : ((runTurns setup (newRun state) turns).shared.run.applied.map
      AppliedPatch.patchId).Nodup := by
    refine List.nodup_iff_count_le_one.2 fun patchId => ?_
    have all := flow.distinct patchId
    omega
  refine ⟨flow.epoch, distinct, fun patchId => ?_, ?_, flow.licensed⟩
  · rw [flow.written, List.count_reverse]
    exact List.nodup_iff_count_le_one.1 distinct patchId
  · exact le_trans (Nat.le_add_right _ _) flow.room

def setTo (value : String) : List WorkflowPatchEntry :=
  [{ target := .runParameters, path := ascii "to", value := .string (ascii value) }]

def twiceTurns : List RunTurn :=
  pausedTurns ++
    [.call (.patchRun (.filled 2) (setTo "b")), .call (.patchRun (.filled 2) (setTo "b"))]

theorem patch_written_twice :
    admitRun sendHost sendWorkflow (sendTo "a") none = .ok sendState ∧
      ¬ PatchedOnce sendSetup
        (runTurns sendSetup (newRun sendState)
          (twiceTurns ++ [.turn 0 {}, .turn 1 {}, .turn 0 {}, .turn 1 {}] ++ turnsOf 0 2 {})).shared := by
  refine ⟨rfl, fun claim => ?_⟩
  exact absurd claim.distinct (by decide +kernel)

theorem patch_replayed :
    PatchedOnce sendSetup
        (runTurns sendSetup (newRun sendState) (twiceTurns ++ turnsOf 0 4 {})).shared ∧
      (runTurns sendSetup (newRun sendState)
        (twiceTurns ++ turnsOf 0 4 {})).shared.run.view.runPatchEpoch = 1 :=
  ⟨patched_once sendSetup sendState _ (by decide +kernel), by decide +kernel⟩

/-!
A decision is accepted once if the first call that is taken gets the run to go on. One that does
not leaves the run waiting with the proposal written, and tells of the decision although it is
still pending.
-/

section
variable {setup : Setup} {shared at_ after : Shared} {request : WorkflowDecisionRequest}
variable {call : AcceptCall} {written told : Nat}

/-- After any of the calls the decision was accepted once at most. -/
def AcceptedThroughout (setup : Setup) (request : WorkflowDecisionRequest) (before shared : Shared)
    (calls : List AcceptCall) : Prop :=
  ∀ count, AcceptedOnce request before (acceptCalls setup request shared (calls.take count))

theorem acceptedThroughout_nil :
    AcceptedThroughout setup request shared at_ [] ↔ AcceptedOnce request shared at_ := by
  simp [AcceptedThroughout, acceptCalls]

variable {calls : List AcceptCall}

theorem acceptedThroughout_cons :
    AcceptedThroughout setup request shared at_ (call :: calls) ↔
      AcceptedOnce request shared at_ ∧
        AcceptedThroughout setup request shared (acceptCall setup request at_ call).1 calls := by
  constructor
  · intro holds
    exact ⟨holds 0, fun count => holds (count + 1)⟩
  · intro holds count
    cases count with
    | zero => exact holds.1
    | succ count => exact holds.2 count

theorem acceptedThroughout_resolved (calls : List AcceptCall)
    (elsewhere : ¬ IsPending at_ request) (once : AcceptedOnce request shared at_) :
    AcceptedThroughout setup request shared at_ calls := by
  induction calls generalizing at_ with
  | nil => exact acceptedThroughout_nil.2 once
  | cons call rest ih =>
      rw [acceptedThroughout_cons, acceptCall_elsewhere elsewhere]
      exact ⟨once, ih elsewhere ⟨once.written, once.told, once.pending, once.resolved⟩⟩

theorem Counted.trans {first second more : Nat} (counted : Counted request shared at_ first second)
    {times : Nat} (later : Counted request at_ after times more) :
    Counted request shared after (first + times) (second + more) := by
  refine ⟨?_, ?_⟩
  · rw [later.written, counted.written]
    omega
  · rw [later.told, counted.told]
    omega

theorem AcceptedOnce.counts (once : AcceptedOnce request shared after)
    (counted : Counted request shared after written told) :
    written ≤ 1 ∧ told ≤ 1 ∧ (IsPending after request → written = 0) := by
  have first := once.written
  have second := once.told
  have third := once.pending
  rw [counted.written] at first third
  rw [counted.told] at second
  refine ⟨by omega, by omega, fun pending => ?_⟩
  have same := third pending
  omega

theorem acceptedOnce_pending (pending : IsPending after request)
    (counted : Counted request shared after 0 told) (once : told ≤ 1) :
    AcceptedOnce request shared after := by
  refine ⟨by rw [counted.written]; omega, by rw [counted.told]; omega,
    fun _ => counted.written, fun elsewhere => absurd pending elsewhere⟩

theorem acceptedOnce_resolved (elsewhere : ¬ IsPending after request)
    (counted : Counted request shared after written 1) (once : written ≤ 1) :
    AcceptedOnce request shared after := by
  refine ⟨by rw [counted.written]; omega, by rw [counted.told],
    fun pending => absurd pending elsewhere, fun _ => counted.told⟩

theorem AcceptedThroughout.start (holds : AcceptedThroughout setup request shared at_ calls) :
    AcceptedOnce request shared at_ := holds 0

theorem Beside.trans (first : Beside shared at_) (second : Beside at_ after) :
    Beside shared after := by
  obtain ⟨accepting, active, run⟩ := first
  obtain ⟨still, later, rest⟩ := second
  refine ⟨still.trans accepting, later, ?_⟩
  rw [rest, run]

theorem continuesFirst_taken (taken : takesAccept setup shared request call = true) :
    ContinuesFirst setup shared request (call :: calls) ↔
      continuesRun setup call = true ∨
        writesProposal setup shared request call = false ∧
          calls.filter (takesAccept setup shared request) = [] := by
  rw [ContinuesFirst, List.filter_cons_of_pos taken]

theorem continuesFirst_untaken (untaken : takesAccept setup shared request call = false) :
    ContinuesFirst setup shared request (call :: calls) ↔
      ContinuesFirst setup shared request calls := by
  rw [ContinuesFirst, List.filter_cons_of_neg (by simp [untaken]), ContinuesFirst]

theorem acceptCall_beside (setup : Setup) (waits : WaitsFor shared request)
    (beside : Beside shared at_) (call : AcceptCall) :
    Accepts setup at_ request call (acceptCall setup request at_ call).1 ∧
      takesAccept setup at_ request call = takesAccept setup shared request call ∧
      writesProposal setup at_ request call = writesProposal setup shared request call :=
  ⟨(acceptCall_cases (waits.beside beside)).1, takesAccept_beside beside call⟩

theorem acceptedThroughout_told (waits : WaitsFor shared request) (calls : List AcceptCall)
    (beside : Beside shared at_) (counted : Counted request shared at_ 0 1) :
    AcceptedThroughout setup request shared at_ calls ↔
      calls.filter (takesAccept setup shared request) = [] := by
  induction calls generalizing at_ with
  | nil =>
      rw [acceptedThroughout_nil]
      exact ⟨fun _ => rfl, fun _ =>
        acceptedOnce_pending (waits.beside beside).isPending counted (Nat.le_refl 1)⟩
  | cons call rest ih =>
      obtain ⟨accepts, takes, _⟩ := acceptCall_beside setup waits beside call
      have pending := (waits.beside beside).isPending
      rw [acceptedThroughout_cons]
      -- A second call that is taken tells of the decision again.
      have twice : ∀ {times : Nat}, takesAccept setup at_ request call = true →
          Counted request at_ (acceptCall setup request at_ call).1 times 1 →
          ((AcceptedOnce request shared at_ ∧ AcceptedThroughout setup request shared
            (acceptCall setup request at_ call).1 rest) ↔
              (call :: rest).filter (takesAccept setup shared request) = []) := by
        intro times taken more
        refine ⟨fun holds => ?_, fun none => ?_⟩
        · have counts := holds.2.start.counts (counted.trans more)
          omega
        · rw [List.filter_cons_of_pos (takes ▸ taken)] at none
          cases none
      cases accepts with
      | refused untaken aside same =>
          rw [List.filter_cons_of_neg (by rw [← takes, untaken]; exact Bool.false_ne_true),
            ih (beside.trans aside) (counted.trans same)]
          exact and_iff_right (acceptedOnce_pending pending counted (Nat.le_refl 1))
      | told taken unwritten stops aside more => exact twice taken more
      | written taken writes stops again more => exact twice taken more
      | resolved times once taken goes elsewhere more => exact twice taken more

/-- The decision is accepted once exactly if the first call that is taken continues the run, or
writes nothing and is the only one. -/
theorem acceptedThroughout_iff (waits : WaitsFor shared request) (calls : List AcceptCall)
    (beside : Beside shared at_) (counted : Counted request shared at_ 0 0) :
    AcceptedThroughout setup request shared at_ calls ↔
      ContinuesFirst setup shared request calls := by
  induction calls generalizing at_ with
  | nil =>
      rw [acceptedThroughout_nil]
      exact ⟨fun _ => trivial, fun _ =>
        acceptedOnce_pending (waits.beside beside).isPending counted (Nat.zero_le 1)⟩
  | cons call rest ih =>
      obtain ⟨accepts, takes, writing⟩ := acceptCall_beside setup waits beside call
      have start : AcceptedOnce request shared at_ :=
        acceptedOnce_pending (waits.beside beside).isPending counted (Nat.zero_le 1)
      rw [acceptedThroughout_cons, and_iff_right start]
      cases accepts with
      | refused untaken aside same =>
          rw [continuesFirst_untaken (takes ▸ untaken)]
          exact ih (beside.trans aside) (counted.trans same)
      | told taken unwritten stops aside more =>
          rw [continuesFirst_taken (takes ▸ taken), stops, ← writing, unwritten,
            acceptedThroughout_told waits rest (beside.trans aside) (counted.trans more)]
          simp
      | written taken writes stops pending more =>
          rw [continuesFirst_taken (takes ▸ taken), stops, ← writing, writes]
          refine ⟨fun holds => ?_, fun neither => by simp at neither⟩
          have counts := (holds.start.counts (counted.trans more)).2.2 pending
          omega
      | resolved times once taken goes elsewhere more =>
          rw [continuesFirst_taken (takes ▸ taken)]
          refine ⟨fun _ => .inl goes, fun _ => ?_⟩
          exact acceptedThroughout_resolved rest elsewhere
            (acceptedOnce_resolved elsewhere (counted.trans more) (by omega))

end

theorem decision_accepted_once (setup : Setup) (shared : Shared)
    (request : WorkflowDecisionRequest) (calls : List AcceptCall)
    (waits : WaitsFor shared request) :
    AcceptedThroughout setup request shared shared calls ↔
      ContinuesFirst setup shared request calls :=
  acceptedThroughout_iff waits calls ⟨rfl, shared.run.driveActive, rfl⟩ ⟨rfl, rfl⟩

def promptedRequest : WorkflowDecisionRequest := promptDecision (.filled 7) [] (setTo "b")

/-- A run that waits for a decision with a proposal, its step still in flight. -/
def promptedRun : Shared :=
  (runTurns sendSetup (newRun sendState)
    (inFlightTurns ++
      .call (.requestUserInput (.filled 7) [] (setTo "b")) :: turnsOf 0 3 {})).shared

theorem drawn_length (byte : UInt8) : (List.replicate 16 byte).length = 16 := List.length_replicate

def drawnId (byte : UInt8) : Id128 := ⟨List.replicate 16 byte, drawn_length byte⟩

theorem proposal_written_again :
    WaitsFor promptedRun promptedRequest ∧
      ¬ AcceptedThroughout sendSetup promptedRequest promptedRun promptedRun
        [{ driveActive := true, drawn := drawnId 5 },
          { driveActive := true, drawn := drawnId 6 }] := by
  refine ⟨⟨by decide +kernel, by decide +kernel, by rfl⟩, fun claim => ?_⟩
  exact absurd (claim 2).written (by decide +kernel)

theorem converged_decision_accepted :
    AcceptedThroughout sendSetup promptedRequest promptedRun promptedRun
        [{ drawn := drawnId 5 }, { drawn := drawnId 6 }] ∧
      (acceptCalls sendSetup promptedRequest promptedRun
        [{ drawn := drawnId 5 }, { drawn := drawnId 6 }]).run.view.runPatchEpoch = 1 := by
  refine ⟨?_, by decide +kernel⟩
  rw [decision_accepted_once sendSetup promptedRun promptedRequest _
    ⟨by decide +kernel, by decide +kernel, by rfl⟩]
  exact (continuesFirst_taken (by decide +kernel)).2 (.inl (by decide +kernel))

end Mira.Workflow
