import Mathlib.Algebra.Order.BigOperators.Group.List
import Mathlib.Algebra.Order.Ring.Defs
import Mathlib.Tactic.Positivity
import Mira.Library.BestFirst
import Mira.Workflow.Navigation

/-!
The plans of the navigation planner with exact costs. What is planned is a usable path within the
length cap, and its total cost is the sum of its edges. A state is settled once, by its first path
in the order of the frontier; where that path has as many edges as the cap allows, it is not gone
on with and the other paths to the state are forgotten. As long as this does not happen on a
cheapest path, the plan is a cheapest one and is missed only if there is none.
-/

namespace Mira.Workflow
open Mira Bytes Eviction BestFirst

section
variable {κ : Type} (task : NavigationTask κ)

structure Usable (transition : AppModelTransition κ) : Prop where
  declared : transition ∈ task.model.transitions
  agent : transition.costs.agentRequired = true → task.options.allowAgentEdges = true
  guard : ∀ guard, transition.guard = some guard → task.evaluate guard task.context = .satisfied

def IsPath (fromState : Bytes) (path : List (AppModelTransition κ)) (toState : Bytes) : Prop :=
  Walk AppModelTransition.fromState AppModelTransition.toState (Usable task) fromState path toState

variable {task}

theorem usable_iff (edge : AppModelTransition κ) :
    Usable task edge ↔
      edge ∈ task.model.transitions ∧ edgeHas task .satisfied edge = true := by
  have open_ : edgeWithheld task edge = false ↔
      (edge.costs.agentRequired = true → task.options.allowAgentEdges = true) := by
    cases agent : edge.costs.agentRequired <;> cases allowed : task.options.allowAgentEdges <;>
      simp [edgeWithheld, agent, allowed]
  have verdict : guardVerdict task edge = .satisfied ↔
      ∀ guard, edge.guard = some guard → task.evaluate guard task.context = .satisfied := by
    cases guarded : edge.guard <;> simp [guardVerdict, guarded]
  constructor
  · intro used
    rw [edgeHas, open_.mpr used.agent, decide_eq_true (verdict.mpr used.guard)]
    exact ⟨used.declared, rfl⟩
  · intro has
    rw [edgeHas, Bool.and_eq_true, Bool.not_eq_true', decide_eq_true_eq] at has
    exact ⟨has.1, open_.mp has.2.1, verdict.mp has.2.2⟩

def nodePath (node : FrontierNode κ) : List (AppModelTransition κ) :=
  node.path.map PathStep.transition

theorem taken_parts [BEq κ] [LT κ] [DecidableLT κ] {frontier rest : List (FrontierNode κ)}
    {node : FrontierNode κ}
    (taken : evictLeast frontierBefore frontier = some (node, rest)) :
    ∀ path ∈ frontier.map nodePath, path = nodePath node ∨ path ∈ rest.map nodePath := by
  intro path held
  have whole := (evictLeast_perm frontierBefore taken).map nodePath
  rw [← whole.mem_iff, List.map_cons, List.mem_cons] at held
  exact held

/-- A path of the route to one of its states. -/
theorem route_front {fromState toState : Bytes}
    {route front later : List (AppModelTransition κ)} {edge : AppModelTransition κ}
    (walk : IsPath task fromState route toState)
    (simple : Simple AppModelTransition.toState fromState route)
    (parts : route = front ++ edge :: later) :
    Walk AppModelTransition.fromState AppModelTransition.toState (· ∈ route) fromState front
      edge.fromState ∧ Simple AppModelTransition.toState fromState front := by
  subst parts
  obtain ⟨middle, first, second⟩ := walk_append.mp walk
  constructor
  · refine Walk.mono (second.2.1 ▸ first) fun held inside _ => List.mem_append_left _ inside
  · rw [Simple, visited, List.map_append, ← List.cons_append] at simple
    exact (List.nodup_append'.mp simple).1

end

section
variable {κ : Type} [Semiring κ] (task : NavigationTask κ)

def edgeCost (transition : AppModelTransition κ) : κ :=
  navigationEdgeCost transition.costs task.profile

def pathCost (path : List (AppModelTransition κ)) : κ := (path.map (edgeCost task)).sum

def edgeStep (transition : AppModelTransition κ) : PathStep κ :=
  ⟨edgeCost task transition, transition⟩

def pathNode (path : List (AppModelTransition κ)) (state : Bytes) : FrontierNode κ :=
  ⟨pathCost task path, path.map (edgeStep task), state⟩

variable {task} {fromState toState state : Bytes} {path : List (AppModelTransition κ)}

theorem pathCost_snoc (transition : AppModelTransition κ) :
    pathCost task (path ++ [transition]) = pathCost task path + edgeCost task transition := by
  simp [pathCost]

theorem IsPath.declared (walk : IsPath task fromState path state) :
    ∀ step ∈ path.map (edgeStep task), step.transition ∈ task.model.transitions := by
  intro step held
  obtain ⟨edge, own, rfl⟩ := List.mem_map.mp held
  exact (Walk.edges walk edge own).declared

theorem edgeStep_injective : Function.Injective (edgeStep task) :=
  fun _ _ same => congrArg PathStep.transition same

variable (task fromState) in
/-- The node is that of a usable path within the cap, on which all states before the last one are
settled and none is visited twice. -/
structure Reached (settled : List Bytes) (node : FrontierNode κ) : Prop where
  own : node = pathNode task (nodePath node) node.state
  walk : IsPath task fromState (nodePath node) node.state
  short : (nodePath node).length ≤ task.options.maxPathEdges
  front : ∀ before edge, nodePath node = before ++ [edge] →
    Simple AppModelTransition.toState fromState before ∧
      ∀ state ∈ visited AppModelTransition.toState fromState before, state ∈ settled

theorem Reached.cost {settled : List Bytes} {node : FrontierNode κ}
    (reached : Reached task fromState settled node) :
    node.cost = pathCost task (nodePath node) := by
  conv_lhs => rw [reached.own]
  rfl

theorem Reached.steps {settled : List Bytes} {node : FrontierNode κ}
    (reached : Reached task fromState settled node) :
    node.path = (nodePath node).map (edgeStep task) := by
  conv_lhs => rw [reached.own]
  rfl

theorem Reached.simple {settled : List Bytes} {node : FrontierNode κ}
    (reached : Reached task fromState settled node) (fresh : node.state ∉ settled) :
    Simple AppModelTransition.toState fromState (nodePath node) := by
  rcases List.eq_nil_or_concat' (nodePath node) with none_ | ⟨before, edge, parts⟩
  · rw [none_]
    exact List.nodup_singleton _
  · have walk := reached.walk
    obtain ⟨simple, all⟩ := reached.front before edge parts
    rw [parts] at walk ⊢
    refine simple.longer fun again => fresh ?_
    rw [← (walk_snoc.mp walk).2.2]
    exact all _ again

theorem Reached.visits {settled : List Bytes} {node : FrontierNode κ}
    (reached : Reached task fromState settled node) :
    ∀ state ∈ visited AppModelTransition.toState fromState (nodePath node),
      state ∈ settled ++ [node.state] := by
  intro state held
  rcases List.eq_nil_or_concat' (nodePath node) with none_ | ⟨before, edge, parts⟩
  · have walk := reached.walk
    rw [none_] at walk held
    rw [List.mem_singleton.mp held]
    exact List.mem_append_right _ (List.mem_singleton.mpr walk)
  · have walk := reached.walk
    obtain ⟨simple, all⟩ := reached.front before edge parts
    rw [parts, visited_snoc, List.mem_append, List.mem_singleton] at held
    rw [parts] at walk
    cases held with
    | inl old => exact List.mem_append_left _ (all state old)
    | inr last =>
        rw [last, (walk_snoc.mp walk).2.2]
        exact List.mem_append_right _ (List.mem_singleton.mpr rfl)

theorem Reached.grow {settled : List Bytes} {node : FrontierNode κ}
    (reached : Reached task fromState settled node) (more : List Bytes) :
    Reached task fromState (settled ++ more) node where
  own := reached.own
  walk := reached.walk
  short := reached.short
  front before edge parts := by
    obtain ⟨simple, all⟩ := reached.front before edge parts
    exact ⟨simple, fun state held => List.mem_append_left _ (all state held)⟩

theorem Reached.extend {settled : List Bytes} {node : FrontierNode κ}
    (reached : Reached task fromState settled node) (fresh : node.state ∉ settled)
    (short : node.path.length < task.options.maxPathEdges) {edge : AppModelTransition κ}
    (used : Usable task edge) (left : edge.fromState = node.state) :
    Reached task fromState (settled ++ [node.state]) (extendNode task node edge) := by
  have path : nodePath (extendNode task node edge) = nodePath node ++ [edge] := by
    simp [nodePath, extendNode]
  constructor
  · rw [path, pathNode, pathCost_snoc, List.map_append, ← reached.cost,
      ← reached.steps]
    rfl
  · rw [path]
    exact walk_snoc.mpr ⟨left ▸ reached.walk, used, rfl⟩
  · rw [path, List.length_append, List.length_singleton, nodePath, List.length_map]
    exact short
  · intro before last parts
    rw [path] at parts
    obtain ⟨same, _⟩ := List.append_inj' parts rfl
    rw [← same]
    exact ⟨reached.simple fresh, reached.visits⟩

variable (task) in
/-- What the order of the frontier compares of a path. -/
def pathKey (path : List (AppModelTransition κ)) : κ ×ₗ List (κ ×ₗ List Nat ×ₗ List Nat) :=
  nodeKey (pathNode task path [])

theorem Reached.key {settled : List Bytes} {node : FrontierNode κ}
    (reached : Reached task fromState settled node) :
    pathKey task (nodePath node) = nodeKey node := by
  rw [pathKey, nodeKey, nodeKey, reached.cost, reached.steps]
  rfl

end

section
variable {κ : Type} [Semiring κ] [LinearOrder κ] (task : NavigationTask κ)

/-- The planner takes the first path before the other one. -/
def Precedes (path other : List (AppModelTransition κ)) : Prop :=
  frontierBefore (pathNode task path []) (pathNode task other []) = true

/-- What a decoder of app models makes sure of. -/
structure AcceptedModel : Prop where
  unique : (task.model.transitions.map AppModelTransition.id).Nodup
  costs : ∀ transition ∈ task.model.transitions, 0 ≤ transition.costs.latencyMs ∧
    0 ≤ transition.costs.failureProbability ∧ 0 ≤ transition.costs.risk ∧
      0 ≤ transition.costs.energy ∧ 0 ≤ transition.costs.modelCost

/-- The path is a plan as far as it is looked at alone. -/
structure Plans (fromState toState : Bytes) (plan : NavigationPlan κ)
    (path : List (AppModelTransition κ)) : Prop where
  walk : IsPath task fromState path toState
  short : path.length ≤ task.options.maxPathEdges
  ids : plan.transitionIds = path.map AppModelTransition.id
  states : plan.stateSequence = fromState :: path.map AppModelTransition.toState
  cost : plan.totalCost = pathCost task path

/-- The path is a usable one within the cap, and none of these is cheaper. -/
structure CheapestWithin (fromState toState : Bytes) (path : List (AppModelTransition κ)) :
    Prop where
  walk : IsPath task fromState path toState
  short : path.length ≤ task.options.maxPathEdges
  cheapest : ∀ other, IsPath task fromState other toState →
    other.length ≤ task.options.maxPathEdges → pathCost task path ≤ pathCost task other

/-- A plan is a cheapest usable path within the cap, and there is one if there is such a path. -/
structure PlanRight (fromState toState : Bytes) : Prop where
  cheapest : ∀ plan, planNavigation task fromState toState = .ok plan →
    ∃ path, Plans task fromState toState plan path ∧ CheapestWithin task fromState toState path
  complete : ∀ error, planNavigation task fromState toState = .error error →
    ¬ ∃ path, IsPath task fromState path toState ∧ path.length ≤ task.options.maxPathEdges

/-- Each part of the route precedes the paths without repeated states that use up the cap and end
where the part ends. -/
def Roomy (fromState : Bytes) (route : List (AppModelTransition κ)) : Prop :=
  ∀ front edge rest, route = front ++ edge :: rest →
    ∀ path, IsPath task fromState path edge.fromState →
      Simple AppModelTransition.toState fromState path →
      path.length = task.options.maxPathEdges → Precedes task front path

/-- A route by which the search is judged: its parts are found as long as no state is settled by a
path that precedes them. -/
structure Guides (fromState : Bytes) (route : List (AppModelTransition κ)) : Prop where
  usable : ∀ edge ∈ route, Usable task edge
  fronts : ∀ front edge rest, route = front ++ edge :: rest →
    Walk AppModelTransition.fromState AppModelTransition.toState (· ∈ route) fromState front
      edge.fromState ∧ Simple AppModelTransition.toState fromState front
  roomy : Roomy task fromState route

/-- There is no usable path within the cap, or a cheapest one has room for all its parts. -/
def CapFree (fromState toState : Bytes) : Prop :=
  (¬ ∃ path, IsPath task fromState path toState ∧ path.length ≤ task.options.maxPathEdges) ∨
    ∃ route, CheapestWithin task fromState toState route ∧
      Simple AppModelTransition.toState fromState route ∧ Roomy task fromState route

variable {task}

/-- A cap of as many edges as there are states has room for every route. -/
theorem roomy_of_states {fromState : Bytes} (declared : fromState ∈ task.model.states)
    (closed : ∀ edge ∈ task.model.transitions, edge.toState ∈ task.model.states)
    (room : task.model.states.length ≤ task.options.maxPathEdges)
    (route : List (AppModelTransition κ)) : Roomy task fromState route := by
  intro front edge rest parts path walk simple full
  have inside : visited AppModelTransition.toState fromState path ⊆ task.model.states := by
    intro state held
    cases List.mem_cons.mp held with
    | inl start => exact start ▸ declared
    | inr later =>
        obtain ⟨step, own, rfl⟩ := List.mem_map.mp later
        exact closed step (Walk.edges walk step own).declared
  have fewer := (List.Nodup.subperm simple inside).length_le
  rw [visited, List.length_cons, List.length_map] at fewer
  omega

theorem precedes_iff (path other : List (AppModelTransition κ)) :
    Precedes task path other ↔ pathKey task path < pathKey task other :=
  frontierBefore_ranks _ _

theorem pathKey_le_iff (path other : List (AppModelTransition κ)) :
    pathKey task path ≤ pathKey task other ↔ pathCost task path < pathCost task other ∨
      pathCost task path = pathCost task other ∧ (path.map (edgeStep task)).map stepKey ≤
        (other.map (edgeStep task)).map stepKey :=
  Prod.Lex.toLex_le_toLex

end

section
variable {κ : Type} [Semiring κ] [LinearOrder κ] [IsStrictOrderedRing κ] {task : NavigationTask κ}
  {fromState toState state : Bytes}

theorem AcceptedModel.edgeCost_nonneg (accepted : AcceptedModel task)
    (valid : task.profile.valid = true) {transition : AppModelTransition κ}
    (declared : transition ∈ task.model.transitions) : 0 ≤ edgeCost task transition := by
  obtain ⟨latency, failure, risk, energy, modelCost⟩ := accepted.costs transition declared
  simp only [NavigationCostProfile.valid, decide_eq_true_eq] at valid
  obtain ⟨one, two, three, four, five⟩ := valid
  rw [edgeCost, navigationEdgeCost]
  have first := mul_nonneg one latency
  have second := mul_nonneg two failure
  have third := mul_nonneg three modelCost
  have fourth := mul_nonneg four risk
  have fifth := mul_nonneg five energy
  exact add_nonneg (add_nonneg (add_nonneg (add_nonneg first second) third) fourth) fifth

theorem keyRanked (accepted : AcceptedModel task) (valid : task.profile.valid = true) :
    Ranked AppModelTransition.fromState AppModelTransition.toState (Usable task) fromState
      (pathKey task) (Simple AppModelTransition.toState fromState) where
  shorter _ _ simple := simple.shorter
  grows path edge used := by
    rw [pathKey_le_iff, pathCost_snoc, List.map_append, List.map_append]
    have more := accepted.edgeCost_nonneg valid used.declared
    rcases more.eq_or_lt with none_ | some_
    · rw [← none_, add_zero]
      exact .inr ⟨rfl, not_lt.mp List.le_append_left⟩
    · exact .inl (lt_add_of_pos_right _ some_)
  kept first second edge walk walk' used simple le := by
    rw [pathKey_le_iff] at le ⊢
    rw [pathCost_snoc, pathCost_snoc, List.map_append, List.map_append, List.map_append,
      List.map_append]
    rcases le with cheaper | ⟨same, keys⟩
    · exact .inl (add_lt_add_left cheaper _)
    · refine .inr ⟨by rw [same], ?_⟩
      rcases keys.eq_or_lt with equal | less
      · rw [equal]
      · rcases front_or_before less with ⟨more, some_, longer⟩ | before
        · exfalso
          have front : first.map (edgeStep task) =
              (second.map (edgeStep task)).take first.length := by
            refine path_eq_of_keys accepted.unique (IsPath.declared walk) (fun step own =>
              IsPath.declared walk' step (List.mem_of_mem_take own)) ?_
            rw [List.map_take, longer, List.take_left' (by simp)]
          rw [← List.map_take] at front
          have path := List.map_injective_iff.mpr edgeStep_injective front
          have parts : second = first ++ second.drop first.length :=
            (List.take_append_drop _ _).symm.trans (congrArg (· ++ _) path.symm)
          have rest : second.drop first.length ≠ [] := by
            intro none_
            rw [none_, List.append_nil] at parts
            rw [parts] at longer
            exact some_ (List.self_eq_append_right.mp longer)
          rw [parts] at walk' simple
          exact simple.shorter.no_return rest walk walk'
        · exact (before _ _).le

end

section
variable {κ : Type} [Semiring κ] [LinearOrder κ] (task : NavigationTask κ)
  (fromState toState : Bytes) (route : List (AppModelTransition κ))

/-- Every node is reached, every settled state has a path that ranks below the paths along the
route, and every edge of the route out of a settled state was offered. -/
structure Explores (search : NavigationSearch κ) (label : Bytes → List (AppModelTransition κ)) :
    Prop where
  nodes : ∀ node ∈ search.frontier, Reached task fromState search.settled node
  walks : ∀ state ∈ search.settled, IsPath task fromState (label state) state
  first : ∀ state ∈ search.settled, Least AppModelTransition.fromState
    AppModelTransition.toState (· ∈ route) fromState (pathKey task)
      (Simple AppModelTransition.toState fromState) (label state) state
  closed : Closed AppModelTransition.fromState AppModelTransition.toState (· ∈ route) fromState
    (fun state => state ∈ search.settled) label (search.frontier.map nodePath)
  target : toState ∉ search.settled

variable {task fromState toState route} {search : NavigationSearch κ}
  {label : Bytes → List (AppModelTransition κ)} {node : FrontierNode κ}
  {rest : List (FrontierNode κ)}

theorem explores_start :
    Explores task fromState toState route { frontier := [⟨0, [], fromState⟩] } (fun _ => []) where
  nodes node own := by
    rw [List.mem_singleton.mp own]
    exact ⟨rfl, rfl, Nat.zero_le _, fun before edge parts => by simp [nodePath] at parts⟩
  walks _ never := (List.not_mem_nil never).elim
  first _ never := (List.not_mem_nil never).elim
  closed := ⟨.inr (List.mem_singleton.mpr rfl), fun _ _ never => (List.not_mem_nil never).elim⟩
  target := List.not_mem_nil

theorem guides_nothing : Guides task fromState [] where
  usable _ never := (List.not_mem_nil never).elim
  fronts front edge rest parts := by simp at parts
  roomy front edge rest parts := by simp at parts

theorem Explores.own (explores : Explores task fromState toState route search label)
    (taken : evictLeast frontierBefore search.frontier = some (node, rest)) :
    Reached task fromState search.settled node :=
  explores.nodes node ((evictLeast_perm _ taken).subset List.mem_cons_self)

theorem Explores.skip (explores : Explores task fromState toState route search label)
    (taken : evictLeast frontierBefore search.frontier = some (node, rest))
    (old : node.state ∈ search.settled) :
    Explores task fromState toState route { search with frontier := rest } label where
  nodes other held :=
    explores.nodes other ((evictLeast_perm _ taken).subset (List.mem_cons_of_mem _ held))
  walks := explores.walks
  first := explores.first
  closed := explores.closed.skip (explores.own taken).walk old (taken_parts taken)
  target := explores.target

/-- The node settles its state, with a frontier that has what the route needs. -/
theorem Explores.settle (explores : Explores task fromState toState route search label)
    (taken : evictLeast frontierBefore search.frontier = some (node, rest))
    (fresh : node.state ∉ search.settled) (other : node.state ≠ toState)
    (first : Least AppModelTransition.fromState AppModelTransition.toState (· ∈ route) fromState
      (pathKey task) (Simple AppModelTransition.toState fromState) (nodePath node) node.state)
    {next : NavigationSearch κ} (settled : next.settled = search.settled ++ [node.state])
    (kept : ∀ held ∈ rest, held ∈ next.frontier)
    (nodes : ∀ held ∈ next.frontier,
      held ∈ rest ∨ Reached task fromState (search.settled ++ [node.state]) held)
    (new : ∀ edge ∈ route, edge.fromState = node.state →
      nodePath node ++ [edge] ∈ next.frontier.map nodePath) :
    Explores task fromState toState route next
      (Function.update label node.state (nodePath node)) := by
  have old : ∀ state ∈ search.settled,
      Function.update label node.state (nodePath node) state = label state :=
    fun state before => Function.update_of_ne (ne_of_mem_of_not_mem before fresh) _ _
  have here : Function.update label node.state (nodePath node) node.state = nodePath node :=
    Function.update_self _ _ _
  have grown : ∀ state, state ∈ next.settled ↔ state ∈ search.settled ∨ state = node.state := by
    intro state
    rw [settled, List.mem_append, List.mem_singleton]
  constructor
  · intro held offered
    rw [settled]
    cases nodes held offered with
    | inl before =>
        have inside := (evictLeast_perm _ taken).subset (List.mem_cons_of_mem _ before)
        exact (explores.nodes held inside).grow _
    | inr reached => exact reached
  · intro state held
    cases (grown state).mp held with
    | inl before =>
        rw [old state before]
        exact explores.walks state before
    | inr last =>
        rw [last, here]
        exact (explores.own taken).walk
  · intro state held
    cases (grown state).mp held with
    | inl before =>
        rw [old state before]
        exact explores.first state before
    | inr last =>
        rw [last, here]
        exact first
  · refine explores.closed.settle (explores.own taken).walk (taken_parts taken) ?_ new grown here
      old
    intro path held
    obtain ⟨kept_, before, rfl⟩ := List.mem_map.mp held
    exact List.mem_map_of_mem (kept kept_ before)
  · intro held
    cases (grown toState).mp held with
    | inl before => exact explores.target before
    | inr last => exact other last.symm

end

section
variable {κ : Type} [Semiring κ] [LinearOrder κ] [IsStrictOrderedRing κ] {task : NavigationTask κ}
  {fromState toState state : Bytes} {route : List (AppModelTransition κ)}
  {search : NavigationSearch κ} {label : Bytes → List (AppModelTransition κ)}
  {node : FrontierNode κ} {rest : List (FrontierNode κ)}

/-- The least node ranks below the paths along the route to a state that is not settled. -/
theorem Explores.foremost (explores : Explores task fromState toState route search label)
    (accepted : AcceptedModel task) (valid : task.profile.valid = true)
    (guides : Guides task fromState route)
    (taken : evictLeast frontierBefore search.frontier = some (node, rest))
    (fresh : state ∉ search.settled) :
    Least AppModelTransition.fromState AppModelTransition.toState (· ∈ route) fromState
      (pathKey task) (Simple AppModelTransition.toState fromState) (nodePath node) state := by
  refine explores.closed.least (keyRanked accepted valid) guides.usable
    (fun state here => ⟨explores.walks state here, explores.first state here⟩) ?_ fresh
  intro path offered
  obtain ⟨other, held, rfl⟩ := List.mem_map.mp offered
  rw [(explores.own taken).key, (explores.nodes other held).key]
  exact evictLeast_least frontierBefore_ranks taken other held

/-- A state of the route is not settled by a path that uses up the cap. -/
theorem Explores.short (explores : Explores task fromState toState route search label)
    (accepted : AcceptedModel task) (valid : task.profile.valid = true)
    (guides : Guides task fromState route)
    (taken : evictLeast frontierBefore search.frontier = some (node, rest))
    (fresh : node.state ∉ search.settled) {edge : AppModelTransition κ} (held : edge ∈ route)
    (left : edge.fromState = node.state) : node.path.length < task.options.maxPathEdges := by
  have own := explores.own taken
  have length : (nodePath node).length = node.path.length := List.length_map _
  obtain ⟨front, later, parts⟩ := List.append_of_mem held
  refine length ▸ lt_of_le_of_ne own.short fun full => ?_
  have before := guides.roomy front edge later parts (nodePath node) (left ▸ own.walk)
    (own.simple fresh) full
  obtain ⟨along, single⟩ := guides.fronts front edge later parts
  rw [precedes_iff] at before
  rw [left] at along
  exact absurd before (not_lt.mpr (explores.foremost accepted valid
    guides taken fresh front along single))

theorem Explores.again (explores : Explores task fromState toState route search label)
    (accepted : AcceptedModel task) (valid : task.profile.valid = true)
    (guides : Guides task fromState route) {next : NavigationSearch κ}
    (round : searchRound task toState search = .ok (.again next)) :
    ∃ label, Explores task fromState toState route next label := by
  have run := searchRound_runs task toState search
  rw [round] at run
  cases run with
  | skipped taken old => exact ⟨label, explores.skip taken old⟩
  | capped taken fresh other long =>
      refine ⟨_, explores.settle taken fresh other
        (explores.foremost accepted valid guides taken fresh) rfl (fun held kept => kept)
        (fun held kept => .inl kept) fun edge held left => ?_⟩
      have short := explores.short accepted valid guides taken fresh held left
      omega
  | @settled node rest taken fresh other short =>
      refine ⟨_, explores.settle taken fresh other
        (explores.foremost accepted valid guides taken fresh) rfl
        (fun held kept => List.mem_append_left _ kept) (fun held kept => ?_)
        fun edge held left => ?_⟩
      · cases List.mem_append.mp kept with
        | inl before => exact .inl before
        | inr new =>
            obtain ⟨edge, offered, rfl⟩ := List.mem_map.mp new
            obtain ⟨left, has⟩ := List.mem_filter.mp offered
            obtain ⟨declared, source⟩ := List.mem_filter.mp left
            exact .inr ((explores.own taken).extend fresh short
              ((usable_iff edge).mpr ⟨declared, has⟩) (of_decide_eq_true source))
      · have used := guides.usable edge held
        have declared : edge ∈ outgoing task node.state :=
          List.mem_filter.mpr ⟨used.declared, decide_eq_true left⟩
        rw [takeEdges, List.map_append, List.map_map]
        refine List.mem_append_right _ (List.mem_map.mpr ⟨edge,
          List.mem_filter.mpr ⟨declared, ((usable_iff edge).mp used).2⟩, ?_⟩)
        simp [nodePath, extendNode]

/-- What the planner says, judged by a route that guides it. -/
theorem plan_explored (accepted : AcceptedModel task) (valid : task.profile.valid = true)
    (guides : Guides task fromState route) (declared : fromState ∈ task.model.states)
    (declared' : toState ∈ task.model.states) (different : fromState ≠ toState) :
    (∃ plan path, planNavigation task fromState toState = .ok plan ∧
        Plans task fromState toState plan path ∧
        Least AppModelTransition.fromState AppModelTransition.toState (· ∈ route) fromState
          (pathKey task) (Simple AppModelTransition.toState fromState) path toState) ∨
      ∃ error, planNavigation task fromState toState = .error error ∧
        (error = evaluationsExhausted ∨ ∀ path, ¬ Walk AppModelTransition.fromState
          AppModelTransition.toState (· ∈ route) fromState path toState) := by
  have pending : pendingWork task ({ frontier := [⟨0, [], fromState⟩] } : NavigationSearch κ) <
      task.model.transitions.length + 2 := by
    have fewer := List.length_filter_le (fun transition : AppModelTransition κ =>
      transition.fromState ∉ ([] : List Bytes)) task.model.transitions
    simp only [pendingWork, openTransitions, List.length_singleton]
    omega
  obtain ⟨last, ⟨label, explores⟩, ends⟩ := searchLoop_ends task toState
    (fun search next (held : ∃ label, Explores task fromState toState route search label) round =>
      held.elim fun _ explores => explores.again accepted valid guides round)
    (task.model.transitions.length + 2) { frontier := [⟨0, [], fromState⟩] }
    ⟨_, explores_start⟩ pending
  have run := searchRound_runs task toState last
  rw [planNavigation, if_neg (by simp [valid]), if_neg (not_not.mpr declared),
    if_neg (not_not.mpr declared'), if_neg different]
  rcases ends with ⟨error, round, loop⟩ | ⟨round, loop⟩ | ⟨node, round, loop⟩
  · rw [round] at run
    rw [loop]
    cases run with
    | overBudget => exact .inr ⟨_, rfl, .inl rfl⟩
  · rw [round] at run
    rw [loop]
    cases run with
    | exhausted none_ =>
        have closed := explores.closed
        rw [none_] at closed
        have unreached : ∀ path, ¬ Walk AppModelTransition.fromState AppModelTransition.toState
            (· ∈ route) fromState path toState :=
          fun path walk => explores.target (closed.reaches walk)
        dsimp only
        split
        next => exact .inr ⟨_, rfl, .inr unreached⟩
        next => exact .inr ⟨_, rfl, .inr unreached⟩
  · rw [round] at run
    rw [loop]
    cases run with
    | found taken fresh target =>
        have own := explores.own taken
        refine .inl ⟨_, nodePath node, rfl, ⟨target ▸ own.walk, own.short, ?_, ?_, ?_⟩,
          explores.foremost accepted valid guides taken explores.target⟩
        · rw [nodePath, List.map_map]
          rfl
        · rw [nodePath, List.map_map]
          rfl
        · rw [own.steps, pathCost, List.sum_eq_foldl, List.foldl_map, List.foldl_map]
          rfl

theorem pathCost_nonneg (accepted : AcceptedModel task) (valid : task.profile.valid = true)
    {path : List (AppModelTransition κ)} (walk : IsPath task fromState path state) :
    0 ≤ pathCost task path := by
  refine List.sum_nonneg fun cost held => ?_
  obtain ⟨edge, own, rfl⟩ := List.mem_map.mp held
  exact accepted.edgeCost_nonneg valid (Walk.edges walk edge own).declared

theorem plan_here (accepted : AcceptedModel task) (valid : task.profile.valid = true)
    (declared : state ∈ task.model.states) :
    ∃ plan, planNavigation task state state = .ok plan ∧ Plans task state state plan [] ∧
      CheapestWithin task state state [] := by
  refine ⟨_, by rw [planNavigation, if_neg (by simp [valid]), if_neg (not_not.mpr declared),
    if_neg (not_not.mpr declared), if_pos rfl], ⟨rfl, Nat.zero_le _, rfl, rfl, rfl⟩, rfl,
    Nat.zero_le _, fun other walk _ => pathCost_nonneg accepted valid walk⟩

/-- With a budget for all edges that are met, a plan is a usable path within the cap with the cost
of its edges. Where a cheapest path has room for all its parts, a plan is a cheapest one, and there
is one if there is such a path. -/
theorem plan_right (accepted : AcceptedModel task) (valid : task.profile.valid = true)
    (declared : fromState ∈ task.model.states) (declared' : toState ∈ task.model.states)
    (budget : planNavigation task fromState toState ≠ .error evaluationsExhausted) :
    (∀ plan, planNavigation task fromState toState = .ok plan →
        ∃ path, Plans task fromState toState plan path) ∧
      (CapFree task fromState toState → PlanRight task fromState toState) := by
  by_cases different : fromState = toState
  · subst different
    obtain ⟨plan, planned, plans, cheapest⟩ := plan_here accepted valid declared
    constructor
    · intro other found
      rw [planned] at found
      cases found
      exact ⟨[], plans⟩
    · intro _
      constructor
      · intro other found
        rw [planned] at found
        cases found
        exact ⟨[], plans, cheapest⟩
      · intro error failed
        rw [planned] at failed
        cases failed
  · have sound : ∀ plan, planNavigation task fromState toState = .ok plan →
        ∃ path, Plans task fromState toState plan path := by
      intro plan found
      rcases plan_explored accepted valid guides_nothing declared declared' different with
        ⟨other, path, planned, plans, _⟩ | ⟨error, failed, _⟩
      · rw [planned] at found
        cases found
        exact ⟨path, plans⟩
      · rw [failed] at found
        cases found
    refine ⟨sound, fun free => ?_⟩
    rcases free with none_ | ⟨route, cheapest, simple, roomy⟩
    · constructor
      · intro plan found
        obtain ⟨path, plans⟩ := sound plan found
        exact absurd ⟨path, plans.walk, plans.short⟩ none_
      · exact fun _ _ => none_
    · have guides : Guides task fromState route :=
        ⟨Walk.edges cheapest.walk, fun _ _ _ parts => route_front cheapest.walk simple parts, roomy⟩
      have along : Walk AppModelTransition.fromState AppModelTransition.toState (· ∈ route)
          fromState route toState := Walk.mono cheapest.walk fun _ own _ => own
      rcases plan_explored accepted valid guides declared declared' different with
        ⟨plan, path, planned, plans, least⟩ | ⟨error, failed, exhausted | unreached⟩
      · constructor
        · intro other found
          rw [planned] at found
          cases found
          refine ⟨path, plans, plans.walk, plans.short, fun rival walk short => ?_⟩
          have cheaper : pathCost task path ≤ pathCost task route := by
            cases (pathKey_le_iff path route).mp (least route along simple) with
            | inl less => exact less.le
            | inr same => exact same.1.le
          exact cheaper.trans (cheapest.cheapest rival walk short)
        · intro error failed
          rw [planned] at failed
          cases failed
      · exact absurd (exhausted ▸ failed) budget
      · exact absurd along (unreached route)

end

/-- A state that is reached in two ways: cheaply by a detour, or at once. -/
def detour (maxPathEdges : Nat) : NavigationTask Nat where
  model :=
    { states := [ascii "home", ascii "menu", ascii "list", ascii "item"]
      transitions :=
        [⟨ascii "icon", ascii "home", ascii "list", none, ⟨5, 0, 0, 0, 0, false⟩⟩,
         ⟨ascii "open", ascii "home", ascii "menu", none, ⟨0, 0, 0, 0, 0, false⟩⟩,
         ⟨ascii "pick", ascii "menu", ascii "list", none, ⟨0, 0, 0, 0, 0, false⟩⟩,
         ⟨ascii "show", ascii "list", ascii "item", none, ⟨1, 0, 0, 0, 0, false⟩⟩] }
  profile := ⟨1, 1, 1, 1, 1⟩
  options := { maxPathEdges := maxPathEdges }
  evaluate _ _ := .notEvaluable

theorem detour_accepted (maxPathEdges : Nat) : AcceptedModel (detour maxPathEdges) where
  unique := by
    have different : [ascii "icon", ascii "open", ascii "pick", ascii "show"].Nodup := by
      decide
    exact different
  costs transition declared := ⟨Nat.zero_le _, Nat.zero_le _, Nat.zero_le _, Nat.zero_le _,
    Nat.zero_le _⟩

/-- Two edges lead to the item and two are allowed, but the list is settled by the detour. -/
theorem short_way_missed :
    planNavigation (detour 2) (ascii "home") (ascii "item") =
        .error ⟨.budgetExceeded, ascii "path length budget exhausted"⟩ ∧
      ¬ PlanRight (detour 2) (ascii "home") (ascii "item") := by
  have missed : planNavigation (detour 2) (ascii "home") (ascii "item") =
      .error ⟨.budgetExceeded, ascii "path length budget exhausted"⟩ := by
    rfl
  refine ⟨missed, fun right => right.complete _ missed ?_⟩
  refine ⟨[⟨ascii "icon", ascii "home", ascii "list", none, ⟨5, 0, 0, 0, 0, false⟩⟩,
    ⟨ascii "show", ascii "list", ascii "item", none, ⟨1, 0, 0, 0, 0, false⟩⟩],
    ⟨⟨?_, ?_, ?_⟩, rfl, ⟨?_, ?_, ?_⟩, rfl, rfl⟩, le_refl 2⟩
  · exact List.mem_cons_self
  · exact fun never => absurd never (by decide)
  · exact fun guard never => absurd never (by simp)
  · exact .tail _ (.tail _ (.tail _ (.head _)))
  · exact fun never => absurd never (by decide)
  · exact fun guard never => absurd never (by simp)

theorem detour_capFree : CapFree (detour 4) (ascii "home") (ascii "item") := by
  have ends : ∀ edge ∈ (detour 4).model.transitions, edge.toState = ascii "item" →
      edgeCost (detour 4) edge = 1 := by
    simp only [detour, List.forall_mem_cons, List.not_mem_nil, false_implies, implies_true,
      and_true]
    exact ⟨fun never => absurd never (by decide), fun never => absurd never (by decide),
      fun never => absurd never (by decide), fun _ => rfl⟩
  have dear : ∀ path, IsPath (detour 4) (ascii "home") path (ascii "item") →
      1 ≤ pathCost (detour 4) path := by
    intro path walk
    rcases List.eq_nil_or_concat' path with none_ | ⟨before, last, parts⟩
    · rw [none_] at walk
      have same : ascii "home" = ascii "item" := walk
      exact absurd same (by decide)
    · rw [parts] at walk ⊢
      obtain ⟨_, used, target⟩ := walk_snoc.mp walk
      rw [pathCost_snoc, ends last used.declared target]
      exact Nat.le_add_left 1 _
  refine .inr ⟨(detour 4).model.transitions.tail, ⟨?_, ?_, fun path walk _ => dear path walk⟩, ?_,
    roomy_of_states (.head _) (by decide) (Nat.le_refl _) _⟩
  · exact ⟨⟨.tail _ (.head _), by decide, by simp⟩, rfl,
      ⟨.tail _ (.tail _ (.head _)), by decide, by simp⟩, rfl,
      ⟨.tail _ (.tail _ (.tail _ (.head _))), by decide, by simp⟩, rfl, rfl⟩
  · decide
  · have distinct : [ascii "home", ascii "menu", ascii "list", ascii "item"].Nodup := by decide
    exact distinct

theorem detour_planned :
    ∃ plan path, planNavigation (detour 4) (ascii "home") (ascii "item") = .ok plan ∧
      Plans (detour 4) (ascii "home") (ascii "item") plan path ∧
        CheapestWithin (detour 4) (ascii "home") (ascii "item") path := by
  have planned : (planNavigation (detour 4) (ascii "home") (ascii "item")).isOk = true := rfl
  have right := @plan_right Nat _ _ _ (detour 4) (ascii "home") (ascii "item") (detour_accepted 4)
    rfl (.head _) (.tail _ (.tail _ (.tail _ (.head _))))
    (fun failed => by rw [failed] at planned; cases planned)
  cases result : planNavigation (detour 4) (ascii "home") (ascii "item") with
  | error error =>
      rw [result] at planned
      cases planned
  | ok plan =>
      obtain ⟨path, plans, cheapest⟩ := (right.2 detour_capFree).cheapest plan result
      exact ⟨plan, path, rfl, plans, cheapest⟩

end Mira.Workflow
