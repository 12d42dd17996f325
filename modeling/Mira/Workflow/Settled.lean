import Mira.Workflow.Runs

/-!
Every run is settled once. The transition table arbitrates between the calls that settle a run;
the one that gets the transition takes the run out of the count and emits its event, each in a
section of its own, so the count runs behind by the settlements that stand between the two.
-/

namespace Mira.Workflow
open Mira Bytes

/-- The states of a run follow the table, and the epoch counts its transitions. -/
structure Lived (entry : RunEntry) : Prop where
  current : entry.states.head? = some entry.state
  steps : entry.states.IsChain fun later earlier => validWorkflowRunTransition earlier later = true
  epoch : entry.run.view.runEpoch + 1 = entry.states.length

variable {source target : WorkflowRunState}

theorem valid_from (valid : validWorkflowRunTransition source target = true) :
    source.isTerminal = false := by
  cases source with
  | completed | failed | cancelled => cases valid
  | _ => rfl

theorem valid_ne (valid : validWorkflowRunTransition source target = true) : target ≠ source := by
  intro same
  rw [same] at valid
  cases source <;> cases valid

theorem lived_created (definition : WorkflowDefinition) (effective : EffectiveState) :
    Lived { definition := definition, run := { effective := effective } } :=
  ⟨rfl, .singleton _, rfl⟩

variable {entry : RunEntry}

theorem Lived.after {shared : Shared} {aims : Option WorkflowRunState} (lived : Lived entry)
    (effect : LifeEffect entry.run.view shared.run.view aims) : Lived (entry.after shared) := by
  cases effect with
  | stays state epoch =>
      have same : (entry.after shared).states = entry.states :=
        if_pos state
      exact ⟨by rw [same, lived.current]; exact congrArg some state.symm, by rw [same]; exact lived.steps,
        by rw [same, ← lived.epoch]; exact congrArg (· + 1) epoch⟩
  | moves aimed valid epoch =>
      have more : (entry.after shared).states =
          shared.run.view.state :: entry.states := if_neg (valid_ne valid)
      refine ⟨by rw [more]; rfl, ?_, ?_⟩
      · rw [more]
        cases states : entry.states with
        | nil =>
            have current := lived.current
            rw [states] at current
            cases current
        | cons last earlier =>
            have current := lived.current
            have steps := lived.steps
            rw [states] at current steps
            cases current
            exact .cons_cons valid steps
      · rw [more, List.length_cons, ← lived.epoch]
        exact congrArg (· + 1) epoch

theorem chain_open {last : WorkflowRunState} {earlier : List WorkflowRunState}
    (steps : (last :: earlier).IsChain fun later earlier =>
      validWorkflowRunTransition earlier later = true) :
    ∀ state ∈ earlier, state.isTerminal = false := by
  induction earlier generalizing last with
  | nil => simp
  | cons next rest ih =>
      cases steps with
      | cons_cons valid before =>
          intro state among
          cases List.mem_cons.mp among with
          | inl own => exact own ▸ valid_from valid
          | inr later => exact ih before state later

theorem Lived.terminal_once (lived : Lived entry) :
    entry.states.countP WorkflowRunState.isTerminal =
      if entry.state.isTerminal then 1 else 0 := by
  have current := lived.current
  have steps := lived.steps
  cases states : entry.states with
  | nil =>
      rw [states] at current
      cases current
  | cons last earlier =>
      rw [states] at current steps
      have own := Option.some.inj current
      have before : earlier.countP WorkflowRunState.isTerminal = 0 :=
        List.countP_eq_zero.2 fun state among => by simp [chain_open steps state among]
      rw [List.countP_cons, before, own, Nat.zero_add]

def openRuns (state : RuntimeState) : Nat := state.runs.countP fun entry => !entry.state.isTerminal

def RuntimePoint.settles : RuntimePoint → Bool
  | .decrement _ _ => true
  | _ => false

/-- The settlements between the transition and the count. -/
def settling (threads : List RuntimePoint) : Nat := threads.countP RuntimePoint.settles

def RuntimePoint.tells (index : Nat) : RuntimePoint → Bool
  | .decrement other _ | .emit other _ => other = index
  | _ => false

/-- The settlements of a run that have not emitted their event. -/
def telling (index : Nat) (threads : List RuntimePoint) : Nat :=
  threads.countP (RuntimePoint.tells index)

def told (state : RuntimeState) (index : Nat) : Nat :=
  state.settledEvents.countP fun event => event.run = index

def settledRun (state : RuntimeState) (index : Nat) : Bool :=
  state.runs[index]?.any fun entry => entry.state.isTerminal

structure SettledOnce (setup : WorkflowRuntimeSetup) (state : RuntimeState)
    (threads : List RuntimePoint) : Prop where
  count : state.activeRuns = openRuns state + settling threads
  room : state.activeRuns ≤ setup.maxActiveRuns
  lived : ∀ entry ∈ state.runs, Lived entry
  told : setup.events = true → ∀ index,
    told state index + telling index threads = if settledRun state index then 1 else 0
  events : ∀ event ∈ state.settledEvents, ∃ entry, state.runs[event.run]? = some entry ∧
    entry.state = event.terminalState ∧ entry.run.view.runEpoch = event.runEpoch ∧
    entry.state.isTerminal = true

section
variable {setup : WorkflowRuntimeSetup} {state : RuntimeState} {index : Nat}
variable {entry : RunEntry} {threads others next : List RuntimePoint} {point : RuntimePoint}
variable {point' : Point}

theorem settling_cons (point : RuntimePoint) (threads : List RuntimePoint) :
    settling (point :: threads) = settling threads + if point.settles then 1 else 0 :=
  List.countP_cons

theorem telling_cons (index : Nat) (point : RuntimePoint) (threads : List RuntimePoint) :
    telling index (point :: threads) =
      telling index threads + if point.tells index then 1 else 0 :=
  List.countP_cons

theorem onRun_settles (index other : Nat) (points : List Point) (threads : List RuntimePoint) :
    settling (onRun index points ++ threads) = settling threads ∧
      telling other (onRun index points ++ threads) = telling other threads := by
  induction points with
  | nil => exact ⟨rfl, rfl⟩
  | cons point rest ih => exact ⟨(settling_cons _ _).trans ih.1, (telling_cons _ _ _).trans ih.2⟩

theorem SettledOnce.beside (held : SettledOnce setup state threads)
    (settles : settling next = settling threads)
    (tells : ∀ index, telling index next = telling index threads) :
    SettledOnce setup state next :=
  ⟨settles ▸ held.count, held.room, held.lived, fun installed index => by
    rw [tells]
    exact held.told installed index, held.events⟩

theorem SettledOnce.perm (same : threads.Perm next) (held : SettledOnce setup state threads) :
    SettledOnce setup state next :=
  held.beside (same.symm.countP_eq _) fun _ => same.symm.countP_eq _

theorem write_runs (shared : Shared) (found : state.runs[index]? = some entry) (other : Nat) :
    (state.write index entry shared).runs[other]? =
      if other = index then some (entry.after shared) else state.runs[other]? := by
  have inside : index < state.runs.length := (List.getElem?_eq_some_iff.1 found).1
  rw [RuntimeState.write, List.getElem?_set]
  by_cases own : other = index
  · rw [if_pos own.symm, if_pos inside, if_pos own]
  · rw [if_neg (Ne.symm own), if_neg own]

variable {shared : Shared}

theorem mem_write {other : RunEntry} (among : other ∈ (state.write index entry shared).runs) :
    other ∈ state.runs ∨ other = entry.after shared :=
  List.mem_or_eq_of_mem_set among

theorem openRuns_write (shared : Shared) (found : state.runs[index]? = some entry) :
    openRuns (state.write index entry shared) + (if entry.state.isTerminal then 0 else 1) =
      openRuns state + if shared.run.view.state.isTerminal then 0 else 1 := by
  obtain ⟨inside, own⟩ := List.getElem?_eq_some_iff.1 found
  have held : entry.state.isTerminal = false →
      0 < state.runs.countP fun entry => !entry.state.isTerminal := by
    intro running
    exact List.countP_pos_iff.2
      ⟨entry, List.mem_iff_getElem?.2 ⟨index, found⟩, by simp [running]⟩
  rw [openRuns, openRuns, RuntimeState.write, List.countP_set inside, own]
  change _ - _ + (if !shared.run.view.state.isTerminal then 1 else 0) + _ = _
  generalize state.runs.countP (fun entry => !entry.state.isTerminal) = total at held ⊢
  cases running : entry.state.isTerminal with
  | true => cases shared.run.view.state.isTerminal <;> simp
  | false =>
      have positive := held running
      cases shared.run.view.state.isTerminal <;> simp <;> omega

variable {aims : Option WorkflowRunState}

theorem SettledOnce.keeps (held : SettledOnce setup state (point :: others))
    (found : state.runs[index]? = some entry)
    (effect : LifeEffect entry.run.view shared.run.view aims)
    (same : shared.run.view.state.isTerminal = entry.state.isTerminal)
    (settles : settling next = settling (point :: others))
    (tells : ∀ index, telling index next = telling index (point :: others)) :
    SettledOnce setup (state.write index entry shared) next := by
  have among : entry ∈ state.runs := List.mem_iff_getElem?.2 ⟨index, found⟩
  have runs := openRuns_write shared found
  rw [same] at runs
  have settled (other : Nat) : settledRun (state.write index entry shared) other =
      settledRun state other := by
    rw [settledRun, settledRun, write_runs shared found]
    by_cases own : other = index
    · rw [if_pos own, own, found]
      exact same
    · rw [if_neg own]
  refine ⟨?_, held.room, ?_, ?_, ?_⟩
  · have count := held.count
    rw [settles]
    change state.activeRuns = _
    omega
  · intro other present
    cases mem_write present with
    | inl before => exact held.lived other before
    | inr own => exact own ▸ (held.lived entry among).after effect
  · intro installed other
    rw [tells, settled]
    exact held.told installed other
  · intro event present
    obtain ⟨other, has, state, epoch, terminal⟩ := held.events event present
    rw [write_runs shared found]
    by_cases own : event.run = index
    · rw [own, found] at has
      cases has
      rw [if_pos own]
      cases effect with
      | stays kept counted =>
          exact ⟨_, rfl, kept.trans state, counted.trans epoch, same.trans terminal⟩
      | moves aimed valid counted =>
          rw [RunEntry.state, valid_from valid] at terminal
          cases terminal
    · rw [if_neg own]
      exact ⟨other, has, state, epoch, terminal⟩

variable (back : Back)

theorem SettledOnce.settles (held : SettledOnce setup state (point :: others))
    (found : state.runs[index]? = some entry)
    (effect : LifeEffect entry.run.view shared.run.view aims)
    (running : entry.state.isTerminal = false) (settled : shared.run.view.state.isTerminal = true)
    (quiet : point.settles = false) (silent : ∀ index, point.tells index = false) :
    SettledOnce setup (state.write index entry shared) (.decrement index back :: others) := by
  have among : entry ∈ state.runs := List.mem_iff_getElem?.2 ⟨index, found⟩
  have runs := openRuns_write shared found
  rw [running, settled] at runs
  refine ⟨?_, held.room, ?_, ?_, ?_⟩
  · have count := held.count
    rw [settling_cons, quiet] at count
    rw [settling_cons]
    change state.activeRuns = _ + (_ + 1)
    simp at runs count
    omega
  · intro other present
    cases mem_write present with
    | inl before => exact held.lived other before
    | inr own => exact own ▸ (held.lived entry among).after effect
  · intro installed other
    have before := held.told installed other
    rw [telling_cons, silent] at before
    rw [telling_cons, settledRun, write_runs shared found]
    change Workflow.told state other + _ = _
    by_cases own : other = index
    · rw [settledRun, own, found, Option.any_some, running] at before
      simp only [own, RuntimePoint.tells, if_true, Option.any_some, RunEntry.after,
        RunEntry.state, settled, decide_true]
      simp at before
      omega
    · rw [if_neg own]
      simp only [RuntimePoint.tells, decide_eq_true_eq, Ne.symm own, if_false]
      exact before
  · intro event present
    obtain ⟨other, has, state, epoch, terminal⟩ := held.events event present
    rw [write_runs shared found]
    by_cases own : event.run = index
    · rw [own, found] at has
      cases has
      rw [running] at terminal
      cases terminal
    · rw [if_neg own]
      exact ⟨other, has, state, epoch, terminal⟩

theorem settled_write (held : SettledOnce setup state (.run index point' :: others))
    (found : state.runs[index]? = some entry) (answer : Answer) :
    SettledOnce setup (runTurn setup state index entry answer point').1
      ((runTurn setup state index entry answer point').2 ++ others) := by
  have quiet (points : List Point) :
      settling (onRun index points ++ others) = settling (.run index point' :: others) :=
    (onRun_settles index 0 points others).1
  have silent (points : List Point) (other : Nat) :
      telling other (onRun index points ++ others) = telling other (.run index point' :: others) :=
    (onRun_settles index other points others).2
  rw [runTurn.eq_def]
  split
  · next target back =>
      split
      · exact held.beside (quiet _) (silent _)
      · next moved done =>
          obtain ⟨state, valid⟩ := transition_state done
          exact held.settles back found (transition_life done) (valid_from valid)
            (by rw [state]; cases target <;> rfl) rfl fun _ => rfl
  · next other apart =>
      have effect := advance_life (setup.of entry) (state.sharedOf entry) point' answer
      refine held.keeps found effect ?_ (quiet _) (silent _)
      cases effect with
      | stays state epoch => exact congrArg WorkflowRunState.isTerminal state
      | moves aimed valid epoch =>
          have running : entry.state.isTerminal = false := valid_from valid
          rw [running]
          refine Bool.eq_false_iff.2 fun terminal => ?_
          obtain ⟨target, back, same⟩ := aims_terminal aimed terminal
          exact apart target back same

theorem settled_insert (definition : WorkflowDefinition) (effective : EffectiveState)
    (held : SettledOnce setup state (.insert definition effective :: others)) :
    SettledOnce setup (insertTurn setup state definition effective) others := by
  rw [insertTurn]
  split
  · exact held.beside rfl fun _ => rfl
  · next free =>
      have room : state.activeRuns < setup.maxActiveRuns := by
        simp only [not_or, not_le] at free
        exact free.2
      have fits := setup.fits
      have counted : (state.activeRuns + 1) % sizeLimit = state.activeRuns + 1 :=
        Nat.mod_eq_of_lt (by omega)
      have kept {index : Nat} {entry : RunEntry} (found : state.runs[index]? = some entry) :
          (state.runs ++ [{ definition := definition, run := { effective := effective } }])[index]? =
            some entry := by
        rw [List.getElem?_append_left (List.getElem?_eq_some_iff.1 found).1, found]
      refine ⟨?_, ?_, ?_, ?_, ?_⟩
      · have count := held.count
        rw [settling_cons] at count
        rw [openRuns, List.countP_append]
        change (state.activeRuns + 1) % sizeLimit = _
        rw [counted, count]
        change _ = openRuns state + 1 + _
        simp only [RuntimePoint.settles, Bool.false_eq_true, if_false]
        omega
      · change (state.activeRuns + 1) % sizeLimit ≤ _
        omega
      · intro entry among
        cases List.mem_append.mp among with
        | inl before => exact held.lived entry before
        | inr own => exact List.mem_singleton.mp own ▸ lived_created definition effective
      · intro installed index
        have before := held.told installed index
        rw [telling_cons] at before
        have same : settledRun { state with
            activeRuns := (state.activeRuns + 1) % sizeLimit
            runs := state.runs ++
              [{ definition := definition, run := { effective := effective } }] } index =
            settledRun state index := by
          rw [settledRun, settledRun]
          cases found : state.runs[index]? with
          | some entry => rw [kept found]
          | none =>
              rw [List.getElem?_append_right (List.getElem?_eq_none_iff.1 found)]
              cases index - state.runs.length <;> rfl
        rw [same]
        exact before
      · intro event present
        obtain ⟨entry, found, rest⟩ := held.events event present
        exact ⟨entry, kept found, rest⟩

theorem decremented {count limit : Nat} (positive : 0 < count) (fits : count < limit) :
    (count + (limit - 1)) % limit = count - 1 := by
  have whole : count + (limit - 1) = count - 1 + limit := by omega
  rw [whole, Nat.add_mod_right]
  exact Nat.mod_eq_of_lt (by omega)

theorem settled_decrement (held : SettledOnce setup state (.decrement index back :: others)) :
    SettledOnce setup
      { state with activeRuns := (state.activeRuns + (sizeLimit - 1)) % sizeLimit }
      (.emit index back :: others) := by
  have count := held.count
  have room := held.room
  have fits := setup.fits
  rw [settling_cons] at count
  simp only [RuntimePoint.settles, if_true] at count
  have counted : (state.activeRuns + (sizeLimit - 1)) % sizeLimit = state.activeRuns - 1 :=
    decremented (by omega) (lt_of_le_of_lt room fits)
  rw [counted]
  refine ⟨?_, ?_, held.lived, ?_, held.events⟩
  · rw [settling_cons]
    change state.activeRuns - 1 = openRuns state + (settling others + 0)
    omega
  · change state.activeRuns - 1 ≤ setup.maxActiveRuns
    omega
  · intro installed other
    have before := held.told installed other
    rw [telling_cons] at before ⊢
    exact before

theorem settled_emit (held : SettledOnce setup state (.emit index back :: others)) :
    SettledOnce setup (emitTurn setup state index) (onRun index back.ended ++ others) := by
  have quiet := (onRun_settles index 0 back.ended others).1
  have silent (other : Nat) := (onRun_settles index other back.ended others).2
  have count := held.count
  rw [settling_cons] at count
  simp only [RuntimePoint.settles, Bool.false_eq_true, if_false] at count
  have settled : setup.events = true → settledRun state index = true := by
    intro installed
    have before := held.told installed index
    rw [telling_cons] at before
    simp only [RuntimePoint.tells, decide_true, if_true] at before
    cases own : settledRun state index with
    | true => rfl
    | false =>
        rw [own] at before
        simp at before
  rw [emitTurn]
  split
  · next missing =>
      refine ⟨?_, held.room, held.lived, ?_, held.events⟩
      · rw [quiet]
        exact count
      · intro installed
        have terminal := settled installed
        rw [settledRun, missing] at terminal
        cases terminal
  · next entry found =>
      split
      · next installed =>
          have terminal : entry.state.isTerminal = true := by
            have own := settled installed
            rw [settledRun, found] at own
            exact own
          refine ⟨?_, held.room, held.lived, ?_, ?_⟩
          · rw [quiet]
            exact count
          · intro _ other
            have before := held.told installed other
            rw [telling_cons] at before
            rw [silent, Workflow.told, List.countP_cons]
            change told state other + _ + _ = if settledRun state other then 1 else 0
            rw [← before]
            simp only [RuntimePoint.tells, decide_eq_true_eq]
            omega
          · intro event present
            cases List.mem_cons.mp present with
            | inl own =>
                rw [own]
                exact ⟨entry, found, rfl, rfl, terminal⟩
            | inr before => exact held.events event before
      · next uninstalled =>
          refine ⟨?_, held.room, held.lived, fun installed => absurd installed uninstalled,
            held.events⟩
          rw [quiet]
          exact count

theorem settled_turn (answer : Answer) (held : SettledOnce setup state (point :: others)) :
    SettledOnce setup (advanceRuntime setup state point answer).1
      ((advanceRuntime setup state point answer).2 ++ others) := by
  cases point with
  | create definition parameters policy =>
      rw [advanceRuntime]
      have rest : SettledOnce setup state others := held.beside rfl fun _ => rfl
      rw [createTurn]
      split
      · exact rest
      · split
        · exact rest
        · exact rest.beside rfl fun _ => rfl
  | insert definition effective => exact settled_insert definition effective held
  | run index point =>
      rw [advanceRuntime]
      split
      · exact held.beside rfl fun _ => rfl
      · next entry found => exact settled_write held found answer
  | decrement index back => exact settled_decrement back held
  | emit index back => exact settled_emit back held
  | shutdown =>
      rw [advanceRuntime, shutdownTurn]
      have rest : SettledOnce setup state others := held.beside rfl fun _ => rfl
      split
      · exact rest
      · have closed : SettledOnce setup { state with accepting := false } others :=
          ⟨rest.count, rest.room, rest.lived, rest.told, rest.events⟩
        have none (indices : List Nat) (index : Nat) :
            settling ((indices.map fun index => .run index (.control .shutdownCheck)) ++ others) =
                settling others ∧
              telling index
                  ((indices.map fun index => .run index (.control .shutdownCheck)) ++ others) =
                telling index others := by
          induction indices with
          | nil => exact ⟨rfl, rfl⟩
          | cons first rest ih =>
              exact ⟨(settling_cons _ _).trans ih.1, (telling_cons _ _ _).trans ih.2⟩
        exact closed.beside (none _ 0).1 fun index => (none _ index).2

end

variable (setup : WorkflowRuntimeSetup) (pool : RuntimePool) (turns : List RuntimeTurn)

theorem settled_run (start : SettledOnce setup pool.shared pool.threads) :
    SettledOnce setup (Execution.run (runtimeMachine setup) pool turns).shared
      (Execution.run (runtimeMachine setup) pool turns).threads := by
  refine Interleaving.run_invariant (fun _ _ _ _ => True) (SettledOnce setup) ?_ ?_ ?_ pool turns
    start (Interleaving.guarded_of_forall (fun _ _ _ _ => trivial) _ _)
  · exact fun state first second same held => held.perm same
  · intro state threads call held
    cases call <;> exact held.beside rfl fun _ => rfl
  · exact fun state point others answer _ held => settled_turn answer held

theorem settled_start : SettledOnce setup {} [] :=
  ⟨rfl, Nat.zero_le _, by simp, by simp [told, telling, settledRun], by simp⟩

/-- The runs of the table keep their places, and their states only get more. -/
def Continues (state later : RuntimeState) : Prop :=
  ∀ (index : Nat) (entry : RunEntry), state.runs[index]? = some entry →
    ∃ after : RunEntry, later.runs[index]? = some after ∧ entry.states <:+ after.states

variable {state : RuntimeState}

theorem Continues.same {later : RuntimeState} (runs : later.runs = state.runs) :
    Continues state later := by
  intro index entry found
  exact ⟨entry, by rw [runs, found], List.suffix_refl _⟩

theorem runs_counted (state : RuntimeState) (count : Nat) :
    { state with activeRuns := count }.runs = state.runs := rfl

theorem Continues.refl (state : RuntimeState) : Continues state state := .same rfl

theorem Continues.trans {first second third : RuntimeState} (early : Continues first second)
    (late : Continues second third) : Continues first third := by
  intro index entry found
  obtain ⟨middle, present, grows⟩ := early index entry found
  obtain ⟨after, last, more⟩ := late index middle present
  exact ⟨after, last, grows.trans more⟩

theorem continues_write {index : Nat} (shared : Shared) (found : state.runs[index]? = some entry) :
    Continues state (state.write index entry shared) := by
  intro other before present
  rw [write_runs shared found]
  by_cases own : other = index
  · rw [own, found] at present
    cases present
    rw [if_pos own]
    refine ⟨_, rfl, ?_⟩
    rw [RunEntry.after]
    split
    · exact List.suffix_refl _
    · exact List.suffix_cons _ _
  · rw [if_neg own]
    exact ⟨before, present, List.suffix_refl _⟩

theorem continues_turn (turn : RuntimeTurn) :
    Continues pool.shared (runtimeMachine setup pool turn).1.shared := by
  rw [runtimeMachine, Interleaving.takeTurn.eq_def]
  cases turn with
  | call entry => exact .refl _
  | turn index answer =>
      dsimp only
      split
      · exact .refl _
      · next point present =>
          cases point with
          | insert definition effective =>
              rw [advanceRuntime, insertTurn]
              split
              · exact .refl _
              · intro index entry found
                refine ⟨entry, ?_, List.suffix_refl _⟩
                change (pool.shared.runs ++ _)[index]? = some entry
                rw [List.getElem?_append_left (List.getElem?_eq_some_iff.1 found).1, found]
          | run index point =>
              rw [advanceRuntime]
              split
              · exact .refl _
              · next entry found =>
                  rw [runTurn.eq_def]
                  split
                  · split
                    · exact .refl _
                    · exact continues_write _ found
                  · exact continues_write _ found
          | emit index back =>
              rw [advanceRuntime, emitTurn]
              split
              · exact .refl _
              · split <;> exact .same rfl
          | shutdown =>
              rw [advanceRuntime, shutdownTurn]
              split <;> exact .same rfl
          | create definition parameters policy => exact .refl _
          | decrement index back => exact .same (runs_counted pool.shared _)

theorem continues_run :
    Continues pool.shared (Execution.run (runtimeMachine setup) pool turns).shared :=
  Execution.run_relation (runtimeMachine setup) (fun _ => True)
    (fun before after => Continues before.shared after.shared) (fun pool => .refl pool.shared)
    .trans (fun _ _ _ => trivial) (fun pool turn _ => continues_turn setup pool turn) pool turns
    trivial

theorem Lived.stays {after : RunEntry} (lived : Lived entry) (later : Lived after)
    (grows : entry.states <:+ after.states) (terminal : entry.state.isTerminal = true) :
    after.state = entry.state := by
  obtain ⟨more, whole⟩ := grows
  have current := lived.current
  have steps := later.steps
  have last := later.current
  rw [← whole] at steps last
  cases more with
  | nil => exact Option.some.inj (last.symm.trans current)
  | cons first rest =>
      have among : entry.state ∈ rest ++ entry.states :=
        List.mem_append_right _ (List.mem_of_head? current)
      rw [chain_open steps _ among] at terminal
      cases terminal

/-- Whatever calls and drives take turns on the runs: the states of a run follow the table, its
epoch counts its transitions, it comes to one terminal state at most and stays in it; the count
of active runs is that of the runs that are not settled with the settlements on their way to it,
and within the limit; and a settlement emits one event, of the state that it settled. -/
theorem runs_settled_once (setup : WorkflowRuntimeSetup) (turns : List RuntimeTurn) :
    ((runtimeTurns setup turns).shared.activeRuns =
        openRuns (runtimeTurns setup turns).shared + settling (runtimeTurns setup turns).threads ∧
      (runtimeTurns setup turns).shared.activeRuns ≤ setup.maxActiveRuns) ∧
    (∀ entry ∈ (runtimeTurns setup turns).shared.runs,
      (entry.states.IsChain fun later earlier =>
        validWorkflowRunTransition earlier later = true) ∧
      entry.states.head? = some entry.state ∧
      entry.run.view.runEpoch + 1 = entry.states.length ∧
      entry.states.countP WorkflowRunState.isTerminal = if entry.state.isTerminal then 1 else 0) ∧
    (∀ (more : List RuntimeTurn) (index : Nat) (entry : RunEntry),
      (runtimeTurns setup turns).shared.runs[index]? = some entry →
      entry.state.isTerminal = true →
        ∃ after : RunEntry, (runtimeTurns setup (turns ++ more)).shared.runs[index]? = some after ∧
          after.state = entry.state) ∧
    (setup.events = true → ∀ index,
      told (runtimeTurns setup turns).shared index +
          telling index (runtimeTurns setup turns).threads =
        if settledRun (runtimeTurns setup turns).shared index then 1 else 0) ∧
    ∀ event ∈ (runtimeTurns setup turns).shared.settledEvents,
      ∃ entry : RunEntry, (runtimeTurns setup turns).shared.runs[event.run]? = some entry ∧
        entry.state = event.terminalState ∧ entry.run.view.runEpoch = event.runEpoch ∧
        entry.state.isTerminal = true := by
  have held := settled_run setup ⟨{}, []⟩ turns (settled_start setup)
  refine ⟨⟨held.count, held.room⟩, ?_, ?_, held.told, held.events⟩
  · intro entry among
    have lived := held.lived entry among
    exact ⟨lived.steps, lived.current, lived.epoch, lived.terminal_once⟩
  · intro more index entry found terminal
    obtain ⟨after, present, grows⟩ := continues_run setup (runtimeTurns setup turns) more index
      entry found
    rw [runtimeTurns, Execution.run_append]
    have later := settled_run setup (runtimeTurns setup turns) more held
    exact ⟨after, present, (held.lived entry (List.mem_iff_getElem?.2 ⟨index, found⟩)).stays
      (later.lived after (List.mem_iff_getElem?.2 ⟨index, present⟩)) grows terminal⟩

def sendRuntime : WorkflowRuntimeSetup := { host := sendHost }

def settlingTurns : List RuntimeTurn :=
  [.call (.createRun sendWorkflow (sendTo "a") none), .turn 0 {}, .turn 0 {},
    .call (.onRun 0 .cancelRun rfl), .turn 0 {}, .turn 0 {}, .turn 0 {}]

/-- Between its sections the settled run is still counted. -/
theorem settlement_counted_late :
    (runtimeTurns sendRuntime settlingTurns).shared.activeRuns = 1 ∧
      openRuns (runtimeTurns sendRuntime settlingTurns).shared = 0 := by
  decide +kernel

/-- The count, the event, and a second cancellation. -/
def settledTurns : List RuntimeTurn :=
  settlingTurns ++ [.turn 0 {}, .turn 0 {}, .call (.onRun 0 .cancelRun rfl), .turn 0 {}]

theorem cancelled_run_settled :
    settledRun (runtimeTurns sendRuntime settledTurns).shared 0 = true ∧
      told (runtimeTurns sendRuntime settledTurns).shared 0 +
          telling 0 (runtimeTurns sendRuntime settledTurns).threads =
        if settledRun (runtimeTurns sendRuntime settledTurns).shared 0 then 1 else 0 :=
  ⟨by decide +kernel, (runs_settled_once sendRuntime settledTurns).2.2.2.1 rfl 0⟩

end Mira.Workflow
