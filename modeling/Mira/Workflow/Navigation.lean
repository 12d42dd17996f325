import Mathlib.Data.Prod.Lex
import Mathlib.Order.Lex
import Mira.Json.KeyOrder
import Mira.Library.Checked
import Mira.Library.Eviction
import Mira.Workflow.Contracts

/-!
The navigation planner: a best-first search from state to state over the transitions of an app
model. The costs are of any type with comparisons, an addition and a multiplication, which may
round, and the verdict on a guard is a parameter. The frontier is a list whose least node is taken
out. Where the comparisons are those of a linear order, the nodes that can meet in it are told apart
by them, so that the plan does not depend on the order in which states and transitions are declared;
costs that are no number compare with nothing, and the first of them that is declared is taken.
-/

namespace Mira.Workflow

open Mira Bytes Eviction

-- Membership among texts is decided through this one instance.
local instance bytesLawful : LawfulBEq (List UInt8) := inferInstance

structure NavigationCosts (κ : Type) where
  latencyMs : κ
  failureProbability : κ
  risk : κ
  energy : κ
  modelCost : κ
  agentRequired : Bool := false

structure AppModelTransition (κ : Type) where
  id : Bytes
  fromState : Bytes
  toState : Bytes
  guard : Option WorkflowPredicate := none
  costs : NavigationCosts κ

/-- The states, by their ids, and the transitions. -/
structure AppModel (κ : Type) where
  states : List Bytes
  transitions : List (AppModelTransition κ)

structure NavigationCostProfile (κ : Type) where
  latency : κ
  failure : κ
  modelCost : κ
  risk : κ
  energy : κ

structure NavigationPlanOptions where
  allowAgentEdges : Bool := false
  maxEdgeEvaluations : Nat := 4096
  maxPathEdges : Nat := 64

inductive NavigationCode
  | unknownFromState | unknownToState | noPath | budgetExceeded

structure NavigationError where
  code : NavigationCode
  message : Bytes

structure NavigationPlan (κ : Type) where
  fromState : Bytes
  toState : Bytes
  transitionIds : List Bytes := []
  stateSequence : List Bytes := []
  totalCost : κ
  guardsBlocked : Nat := 0
  guardsUnevaluable : Nat := 0
  planDigest : Sha256Digest

/-- What a plan is made for: the arguments of `plan_navigation` besides the two states, and the
evaluation of guards. -/
structure NavigationTask (κ : Type) where
  model : AppModel κ
  profile : NavigationCostProfile κ
  context : JsonValue := .object []
  options : NavigationPlanOptions := {}
  evaluate : WorkflowPredicate → JsonValue → WorkflowPredicateResult

variable {κ : Type}

structure PathStep (κ : Type) where
  edgeCost : κ
  transition : AppModelTransition κ

structure FrontierNode (κ : Type) where
  cost : κ
  path : List (PathStep κ)
  state : Bytes

section
variable [BEq κ] [LT κ] [DecidableLT κ]

def stepLess (left right : PathStep κ) : Bool :=
  if left.edgeCost != right.edgeCost then left.edgeCost < right.edgeCost
  else if left.transition.id ≠ right.transition.id then
    keyLess left.transition.id right.transition.id
  else keyLess left.transition.toState right.transition.toState

def pathLess : List (PathStep κ) → List (PathStep κ) → Bool
  | left :: leftRest, right :: rightRest =>
      if stepLess left right ≠ stepLess right left then stepLess left right
      else pathLess leftRest rightRest
  | left, right => left.length < right.length

def frontierGreater (left right : FrontierNode κ) : Bool :=
  if left.cost != right.cost then right.cost < left.cost else pathLess right.path left.path

def frontierBefore (left right : FrontierNode κ) : Bool := frontierGreater right left

end

def stepKey (step : PathStep κ) : κ ×ₗ List Nat ×ₗ List Nat :=
  toLex (step.edgeCost, toLex (step.transition.id.map UInt8.toNat,
    step.transition.toState.map UInt8.toNat))

def nodeKey (node : FrontierNode κ) : κ ×ₗ List (κ ×ₗ List Nat ×ₗ List Nat) :=
  toLex (node.cost, node.path.map stepKey)

theorem bytes_injective : Function.Injective (List.map UInt8.toNat) :=
  List.map_injective_iff.mpr fun _ _ same => UInt8.toNat_inj.mp same

section
variable [LinearOrder κ]

theorem stepLess_iff (left right : PathStep κ) :
    stepLess left right = true ↔ stepKey left < stepKey right := by
  rw [stepLess, stepKey, stepKey, Prod.Lex.toLex_lt_toLex, Prod.Lex.toLex_lt_toLex]
  by_cases cost : left.edgeCost = right.edgeCost
  · rw [if_neg (by simp [cost])]
    by_cases id : left.transition.id = right.transition.id
    · rw [if_neg (not_not.mpr id), keyLess_iff]
      simp [cost, id]
    · have apart : left.transition.id.map UInt8.toNat ≠ right.transition.id.map UInt8.toNat :=
        fun same => id (bytes_injective same)
      rw [if_pos id, keyLess_iff]
      simp [cost, apart]
  · rw [if_pos (by simpa using cost)]
    simp [cost]

theorem pathLess_iff (left right : List (PathStep κ)) :
    pathLess left right = true ↔ left.map stepKey < right.map stepKey := by
  induction left generalizing right with
  | nil =>
      cases right with
      | nil => simp [pathLess]
      | cons step rest => simp [pathLess]
  | cons step rest ih =>
      cases right with
      | nil => simp [pathLess]
      | cons step' rest' =>
          have first := stepLess_iff step step'
          have second := stepLess_iff step' step
          rw [pathLess, List.map_cons, List.map_cons, List.cons_lt_cons_iff]
          rcases lt_trichotomy (stepKey step) (stepKey step') with less | same | greater
          · rw [first.mpr less, Bool.eq_false_iff.mpr fun other => lt_asymm less (second.mp other)]
            simp [less]
          · have neither := Bool.eq_false_iff.mpr fun one => absurd (first.mp one) (by simp [same])
            have neither' := Bool.eq_false_iff.mpr fun one =>
              absurd (second.mp one) (by simp [same])
            rw [neither, neither', if_neg (not_not.mpr rfl), ih]
            simp [same]
          · rw [second.mpr greater,
              Bool.eq_false_iff.mpr fun one => lt_asymm greater (first.mp one)]
            simp [lt_asymm greater, greater.ne']

theorem frontierBefore_ranks : Ranks (frontierBefore (κ := κ)) nodeKey := by
  intro left right
  rw [frontierBefore, frontierGreater, nodeKey, nodeKey, Prod.Lex.toLex_lt_toLex]
  by_cases cost : left.cost = right.cost
  · rw [if_neg (by simp [cost]), pathLess_iff]
    simp [cost]
  · rw [if_pos (by simpa using fun same => cost same.symm)]
    simp [cost]

end

section
variable {task : NavigationTask κ}

theorem path_eq_of_keys (unique : (task.model.transitions.map AppModelTransition.id).Nodup)
    {left right : List (PathStep κ)} (own : ∀ step ∈ left, step.transition ∈ task.model.transitions)
    (own' : ∀ step ∈ right, step.transition ∈ task.model.transitions)
    (same : left.map stepKey = right.map stepKey) : left = right := by
  induction left generalizing right with
  | nil =>
      cases right with
      | nil => rfl
      | cons step rest => cases same
  | cons step rest ih =>
      cases right with
      | nil => cases same
      | cons step' rest' =>
          rw [List.map_cons, List.map_cons, List.cons.injEq] at same
          obtain ⟨first, others⟩ := List.forall_mem_cons.mp own
          obtain ⟨first', others'⟩ := List.forall_mem_cons.mp own'
          have cost : step.edgeCost = step'.edgeCost := congrArg (fun key => (ofLex key).1) same.1
          have id : step.transition.id = step'.transition.id :=
            bytes_injective (congrArg (fun key => (ofLex (ofLex key).2).1) same.1)
          have transition := List.inj_on_of_nodup_map unique first first' id
          rw [ih others others' same.2]
          cases step
          cases step'
          simp only at cost transition
          rw [cost, transition]

end

section
variable [Add κ] [Mul κ]

def navigationEdgeCost (costs : NavigationCosts κ) (profile : NavigationCostProfile κ) : κ :=
  profile.latency * costs.latencyMs + profile.failure * costs.failureProbability +
    profile.modelCost * costs.modelCost + profile.risk * costs.risk +
    profile.energy * costs.energy

structure NavigationSearch (κ : Type) where
  frontier : List (FrontierNode κ)
  settled : List Bytes := []
  evaluations : Nat := 0
  pathCapped : Bool := false
  guardsBlocked : Nat := 0
  guardsUnevaluable : Nat := 0

def evaluationsExhausted : NavigationError :=
  ⟨.budgetExceeded, ascii "edge evaluation budget exhausted"⟩

def extendNode (task : NavigationTask κ) (current : FrontierNode κ)
    (transition : AppModelTransition κ) : FrontierNode κ where
  cost := current.cost + navigationEdgeCost transition.costs task.profile
  path := current.path ++ [⟨navigationEdgeCost transition.costs task.profile, transition⟩]
  state := transition.toState

/-- One edge of the state that is being expanded. -/
def offerEdge (task : NavigationTask κ) (current : FrontierNode κ) (search : NavigationSearch κ)
    (transition : AppModelTransition κ) : Except NavigationError (NavigationSearch κ) :=
  if task.options.maxEdgeEvaluations ≤ search.evaluations then .error evaluationsExhausted
  else
    let search := { search with evaluations := search.evaluations + 1 }
    if transition.costs.agentRequired ∧ task.options.allowAgentEdges = false then .ok search
    else
      match transition.guard.map fun guard => task.evaluate guard task.context with
      | some .notSatisfied => .ok { search with guardsBlocked := search.guardsBlocked + 1 }
      | some .notEvaluable => .ok { search with guardsUnevaluable := search.guardsUnevaluable + 1 }
      | _ => .ok { search with frontier := search.frontier ++ [extendNode task current transition] }

def outgoing (task : NavigationTask κ) (state : Bytes) : List (AppModelTransition κ) :=
  task.model.transitions.filter fun transition => transition.fromState = state

variable (task : NavigationTask κ)

def edgeWithheld (transition : AppModelTransition κ) : Bool :=
  transition.costs.agentRequired && !task.options.allowAgentEdges

def guardVerdict (transition : AppModelTransition κ) : WorkflowPredicateResult :=
  (transition.guard.map fun guard => task.evaluate guard task.context).getD .satisfied

def edgeHas (verdict : WorkflowPredicateResult) (transition : AppModelTransition κ) : Bool :=
  !edgeWithheld task transition && guardVerdict task transition = verdict

def takeEdges (current : FrontierNode κ) (search : NavigationSearch κ)
    (edges : List (AppModelTransition κ)) : NavigationSearch κ :=
  { search with
    frontier := search.frontier ++ (edges.filter (edgeHas task .satisfied)).map
      (extendNode task current)
    evaluations := search.evaluations + edges.length
    guardsBlocked := search.guardsBlocked + edges.countP (edgeHas task .notSatisfied)
    guardsUnevaluable := search.guardsUnevaluable + edges.countP (edgeHas task .notEvaluable) }

theorem offerEdge_eq (current : FrontierNode κ) (search : NavigationSearch κ)
    (transition : AppModelTransition κ)
    (budget : search.evaluations < task.options.maxEdgeEvaluations) :
    offerEdge task current search transition =
      .ok (takeEdges task current search [transition]) := by
  have withheld : (transition.costs.agentRequired = true ∧ task.options.allowAgentEdges = false) ↔
      edgeWithheld task transition = true := by
    simp [edgeWithheld]
  rw [offerEdge, if_neg (not_le.mpr budget)]
  simp only [takeEdges, edgeHas, guardVerdict, withheld, List.filter_cons, List.filter_nil,
    List.countP_cons, List.countP_nil, List.length_singleton]
  by_cases agent : edgeWithheld task transition = true
  · simp [agent]
  · rw [Bool.not_eq_true] at agent
    rcases Option.eq_none_or_eq_some transition.guard with open_ | ⟨guard, guarded⟩
    · simp [agent, open_]
    · cases verdict : task.evaluate guard task.context <;> simp [agent, guarded, verdict]

theorem takeEdges_cons (current : FrontierNode κ) (search : NavigationSearch κ)
    (first : AppModelTransition κ) (rest : List (AppModelTransition κ)) :
    takeEdges task current (takeEdges task current search [first]) rest =
      takeEdges task current search (first :: rest) := by
  have parts : first :: rest = [first] ++ rest := rfl
  rw [parts]
  simp only [takeEdges, List.filter_append, List.map_append, List.append_assoc, List.length_append,
    List.countP_append, Nat.add_assoc]

theorem expand_eq (current : FrontierNode κ) (search : NavigationSearch κ)
    (edges : List (AppModelTransition κ)) :
    edges.foldlM (offerEdge task current) search =
      if edges = [] ∨ search.evaluations + edges.length ≤ task.options.maxEdgeEvaluations then
        .ok (takeEdges task current search edges)
      else .error evaluationsExhausted := by
  induction edges generalizing search with
  | nil =>
      rw [if_pos (.inl rfl), List.foldlM_nil]
      simp [takeEdges, pure, Except.pure]
  | cons first rest ih =>
      rw [List.foldlM_cons]
      by_cases budget : search.evaluations < task.options.maxEdgeEvaluations
      · have counted : (takeEdges task current search [first]).evaluations =
            search.evaluations + 1 := rfl
        rw [offerEdge_eq task current search first budget]
        refine (ih _).trans ?_
        rw [counted, takeEdges_cons, List.length_cons]
        by_cases enough : search.evaluations + (rest.length + 1) ≤ task.options.maxEdgeEvaluations
        · rw [if_pos (.inr (by omega)), if_pos (.inr enough)]
        · have more : rest ≠ [] := by
            intro none_
            subst none_
            simp at enough
            omega
          rw [if_neg (by simp only [more, false_or]; omega), if_neg (by simp; omega)]
      · rw [offerEdge, if_pos (not_lt.mp budget), if_neg (by simp; omega)]
        rfl

end

section
variable [Add κ] [Mul κ] [Zero κ] [BEq κ] [LT κ] [DecidableLT κ] [LE κ] [DecidableLE κ]

/-- The weights are not negative; every number of the type is finite. -/
def NavigationCostProfile.valid (profile : NavigationCostProfile κ) : Bool :=
  0 ≤ profile.latency ∧ 0 ≤ profile.failure ∧ 0 ≤ profile.modelCost ∧ 0 ≤ profile.risk ∧
    0 ≤ profile.energy

/-- What one round of the loop leads to. -/
inductive SearchRound (κ : Type)
  | exhausted
  | found (node : FrontierNode κ)
  | again (search : NavigationSearch κ)

/-- One round of the loop: the least node of the frontier is taken out. -/
def searchRound (task : NavigationTask κ) (toState : Bytes) (search : NavigationSearch κ) :
    Except NavigationError (SearchRound κ) :=
  match evictLeast frontierBefore search.frontier with
  | none => .ok .exhausted
  | some (current, frontier) =>
      let search := { search with frontier := frontier }
      if current.state ∈ search.settled then .ok (.again search)
      else if current.state = toState then .ok (.found current)
      else
        let search := { search with settled := search.settled ++ [current.state] }
        if task.options.maxPathEdges ≤ current.path.length then
          .ok (.again { search with pathCapped := true })
        else
          ((outgoing task current.state).foldlM (offerEdge task current) search).map .again

/-- The loop, with the search it ends in. Each round takes a node out, and a transition brings one
in at most once. -/
def searchLoop (task : NavigationTask κ) (toState : Bytes) :
    Nat → NavigationSearch κ →
      Except NavigationError (Option (FrontierNode κ) × NavigationSearch κ)
  | 0, search => .ok (none, search)
  | fuel + 1, search =>
      match searchRound task toState search with
      | .error error => .error error
      | .ok .exhausted => .ok (none, search)
      | .ok (.found node) => .ok (some node, search)
      | .ok (.again next) => searchLoop task toState fuel next

def edgeIdsDigest (ids : List Bytes) : Sha256Digest :=
  canonicalJsonDigest (.array (ids.map .string))

def planNavigation (task : NavigationTask κ) (fromState toState : Bytes) :
    Except NavigationError (NavigationPlan κ) :=
  if task.profile.valid = false then
    .error ⟨.budgetExceeded, ascii "cost profile weights must be finite and non-negative"⟩
  else if fromState ∉ task.model.states then
    .error ⟨.unknownFromState, ascii "from state '" ++ fromState ++ ascii "' is not declared"⟩
  else if toState ∉ task.model.states then
    .error ⟨.unknownToState, ascii "to state '" ++ toState ++ ascii "' is not declared"⟩
  else if fromState = toState then
    .ok
      { fromState := fromState
        toState := toState
        stateSequence := [fromState]
        totalCost := 0
        planDigest := edgeIdsDigest [] }
  else
    match searchLoop task toState (task.model.transitions.length + 2)
        { frontier := [⟨0, [], fromState⟩] } with
    | .error error => .error error
    | .ok (none, search) =>
        if search.pathCapped then
          .error ⟨.budgetExceeded, ascii "path length budget exhausted"⟩
        else
          .error ⟨.noPath, ascii "no path from '" ++ fromState ++ ascii "' to '" ++ toState ++
            ascii "'; guards blocked=" ++ decimal search.guardsBlocked ++
            ascii ", unevaluable=" ++ decimal search.guardsUnevaluable⟩
    | .ok (some node, search) =>
        .ok
          { fromState := fromState
            toState := toState
            transitionIds := node.path.map fun step => step.transition.id
            stateSequence := fromState :: node.path.map fun step => step.transition.toState
            totalCost := node.path.foldl (fun total step => total + step.edgeCost) 0
            guardsBlocked := search.guardsBlocked
            guardsUnevaluable := search.guardsUnevaluable
            planDigest := edgeIdsDigest (node.path.map fun step => step.transition.id) }

end

def openTransitions (task : NavigationTask κ) (settled : List Bytes) :
    List (AppModelTransition κ) :=
  task.model.transitions.filter fun transition => transition.fromState ∉ settled

/-- The nodes of the frontier, and the transitions that can still bring one in. -/
def pendingWork (task : NavigationTask κ) (search : NavigationSearch κ) : Nat :=
  search.frontier.length + (openTransitions task search.settled).length

theorem outgoing_pending (task : NavigationTask κ) {settled : List Bytes} {state : Bytes}
    (fresh : state ∉ settled) :
    (openTransitions task (settled ++ [state])).length + (outgoing task state).length =
      (openTransitions task settled).length := by
  rw [openTransitions, openTransitions, outgoing]
  induction task.model.transitions with
  | nil => rfl
  | cons transition rest ih =>
      by_cases here : transition.fromState = state
      · simp [here, fresh] at ih ⊢
        omega
      · by_cases old : transition.fromState ∈ settled
        · simp [here, old] at ih ⊢
          omega
        · simp [here, old] at ih ⊢
          omega

theorem taken_length [BEq κ] [LT κ] [DecidableLT κ] {frontier rest : List (FrontierNode κ)} {node : FrontierNode κ}
    (taken : evictLeast frontierBefore frontier = some (node, rest)) :
    frontier.length = rest.length + 1 :=
  (evictLeast_perm frontierBefore taken).length_eq.symm

section
variable [Add κ] [Mul κ] [BEq κ] [LT κ] [DecidableLT κ]

/-- The search after the node has settled its state, before the edges of the state are taken. -/
def settleNode (search : NavigationSearch κ) (node : FrontierNode κ)
    (rest : List (FrontierNode κ)) : NavigationSearch κ :=
  { search with
    frontier := rest
    settled := search.settled ++ [node.state] }

inductive RoundRun (task : NavigationTask κ) (toState : Bytes) (search : NavigationSearch κ) :
    Except NavigationError (SearchRound κ) → Prop
  | exhausted (none_ : search.frontier = []) : RoundRun task toState search (.ok .exhausted)
  | skipped {node : FrontierNode κ} {rest : List (FrontierNode κ)}
      (taken : evictLeast frontierBefore search.frontier = some (node, rest))
      (old : node.state ∈ search.settled) :
      RoundRun task toState search (.ok (.again { search with frontier := rest }))
  | found {node : FrontierNode κ} {rest : List (FrontierNode κ)}
      (taken : evictLeast frontierBefore search.frontier = some (node, rest))
      (fresh : node.state ∉ search.settled) (target : node.state = toState) :
      RoundRun task toState search (.ok (.found node))
  | capped {node : FrontierNode κ} {rest : List (FrontierNode κ)}
      (taken : evictLeast frontierBefore search.frontier = some (node, rest))
      (fresh : node.state ∉ search.settled) (other : node.state ≠ toState)
      (long : task.options.maxPathEdges ≤ node.path.length) :
      RoundRun task toState search
        (.ok (.again { settleNode search node rest with pathCapped := true }))
  | overBudget : RoundRun task toState search (.error evaluationsExhausted)
  | settled {node : FrontierNode κ} {rest : List (FrontierNode κ)}
      (taken : evictLeast frontierBefore search.frontier = some (node, rest))
      (fresh : node.state ∉ search.settled) (other : node.state ≠ toState)
      (short : node.path.length < task.options.maxPathEdges) :
      RoundRun task toState search
        (.ok (.again (takeEdges task node (settleNode search node rest)
          (outgoing task node.state))))

theorem searchRound_runs (task : NavigationTask κ) (toState : Bytes)
    (search : NavigationSearch κ) :
    RoundRun task toState search (searchRound task toState search) := by
  by_cases none_ : search.frontier = []
  · rw [searchRound, none_]
    exact .exhausted none_
  · obtain ⟨node, rest, taken⟩ := evictLeast_some frontierBefore none_
    rw [searchRound, taken]
    dsimp only
    split
    next old => exact .skipped taken old
    next fresh =>
        split
        next target => exact .found taken fresh target
        next other =>
            split
            next long => exact .capped taken fresh other long
            next short =>
                rw [expand_eq]
                split
                next => exact .settled taken fresh other (not_le.mp short)
                next => exact .overBudget

theorem again_pending {task : NavigationTask κ} {toState : Bytes}
    {search next : NavigationSearch κ}
    (round : searchRound task toState search = .ok (.again next)) :
    pendingWork task next < pendingWork task search := by
  have run := searchRound_runs task toState search
  rw [round] at run
  cases run with
  | skipped taken old =>
      have length := taken_length taken
      simp only [pendingWork]
      omega
  | capped taken fresh other long =>
      have length := taken_length taken
      have pending := outgoing_pending task fresh
      simp only [pendingWork, settleNode]
      omega
  | @settled node rest taken fresh other short =>
      have length := taken_length taken
      have pending := outgoing_pending task fresh
      have usable := List.length_filter_le (edgeHas task .satisfied) (outgoing task node.state)
      simp only [pendingWork, takeEdges, settleNode, List.length_append, List.length_map]
      omega

/-- With fuel for all the work the loop ends in a search that meets what its rounds keep. -/
theorem searchLoop_ends (task : NavigationTask κ) (toState : Bytes)
    {Inv : NavigationSearch κ → Prop}
    (kept : ∀ search next, Inv search → searchRound task toState search = .ok (.again next) →
      Inv next)
    (fuel : Nat) (search : NavigationSearch κ) (start : Inv search)
    (enough : pendingWork task search < fuel) :
    ∃ last, Inv last ∧
      ((∃ error, searchRound task toState last = .error error ∧
          searchLoop task toState fuel search = .error error) ∨
        (searchRound task toState last = .ok .exhausted ∧
          searchLoop task toState fuel search = .ok (none, last)) ∨
        ∃ node, searchRound task toState last = .ok (.found node) ∧
          searchLoop task toState fuel search = .ok (some node, last)) := by
  induction fuel generalizing search with
  | zero => omega
  | succ fuel ih =>
      rw [searchLoop]
      cases round : searchRound task toState search with
      | error error => exact ⟨search, start, .inl ⟨error, round, rfl⟩⟩
      | ok result =>
          cases result with
          | exhausted => exact ⟨search, start, .inr (.inl ⟨round, rfl⟩)⟩
          | found node => exact ⟨search, start, .inr (.inr ⟨node, round, rfl⟩)⟩
          | again next =>
              have less := again_pending round
              exact ih next (kept search next start round) (by omega)

end

section
variable [Add κ] [Zero κ]

/-- The node of a path: the cost and the state are those of the path. -/
structure NodeOf (task : NavigationTask κ) (fromState : Bytes) (node : FrontierNode κ) : Prop where
  declared : ∀ step ∈ node.path, step.transition ∈ task.model.transitions
  cost : node.cost = node.path.foldl (fun total step => total + step.edgeCost) 0
  state : node.state = (node.path.getLast?.map fun step => step.transition.toState).getD fromState

variable {task : NavigationTask κ} {fromState : Bytes}

theorem NodeOf.eq (unique : (task.model.transitions.map AppModelTransition.id).Nodup)
    {one other : FrontierNode κ} (node : NodeOf task fromState one)
    (node' : NodeOf task fromState other) (same : nodeKey one = nodeKey other) : one = other := by
  have path := path_eq_of_keys unique node.declared node'.declared
    (congrArg (fun key => (ofLex key).2) same)
  have cost := node.cost.trans ((congrArg _ path).trans node'.cost.symm)
  have state := node.state.trans ((congrArg (fun path : List (PathStep κ) =>
    (path.getLast?.map fun step => step.transition.toState).getD fromState) path).trans
      node'.state.symm)
  cases one
  cases other
  simp only at path cost state
  rw [path, cost, state]

theorem NodeOf.extend [Mul κ] {current : FrontierNode κ} (node : NodeOf task fromState current)
    {transition : AppModelTransition κ} (declared : transition ∈ task.model.transitions) :
    NodeOf task fromState (extendNode task current transition) where
  declared := by
    intro step own
    rw [extendNode, List.mem_append, List.mem_singleton] at own
    cases own with
    | inl old => exact node.declared step old
    | inr new =>
        rw [new]
        exact declared
  cost := by
    simp only [extendNode, List.foldl_append, List.foldl_cons, List.foldl_nil, node.cost]
  state := by
    simp [extendNode]

theorem evictLeast_alike [LinearOrder κ]
    (unique : (task.model.transitions.map AppModelTransition.id).Nodup)
    {left right : List (FrontierNode κ)} (nodes : ∀ node ∈ left, NodeOf task fromState node)
    (same : left.Perm right) :
    (evictLeast frontierBefore left = none ∧ evictLeast frontierBefore right = none) ∨
      ∃ node rest rest', evictLeast frontierBefore left = some (node, rest) ∧
        evictLeast frontierBefore right = some (node, rest') ∧ rest.Perm rest' ∧ node ∈ left ∧
          ∀ other ∈ rest, other ∈ left := by
  cases left with
  | nil =>
      rw [List.nil_perm.mp same]
      exact .inl ⟨rfl, rfl⟩
  | cons first more =>
      have present : right ≠ [] := by
        intro none_
        rw [none_] at same
        exact List.cons_ne_nil _ _ (List.perm_nil.mp same)
      obtain ⟨node, rest, taken⟩ := evictLeast_some frontierBefore (List.cons_ne_nil first more)
      obtain ⟨node', rest', taken'⟩ := evictLeast_some frontierBefore present
      have whole := evictLeast_perm frontierBefore taken
      have whole' := evictLeast_perm frontierBefore taken'
      have own := whole.subset List.mem_cons_self
      have own' := same.symm.subset (whole'.subset List.mem_cons_self)
      have least := evictLeast_least frontierBefore_ranks taken node' own'
      have least' := evictLeast_least frontierBefore_ranks taken' node (same.subset own)
      have equal := (nodes node own).eq unique (nodes node' own') (le_antisymm least least')
      subst equal
      refine .inr ⟨node, rest, rest', taken, taken', ?_, own, fun other held =>
        whole.subset (List.mem_cons_of_mem _ held)⟩
      exact (whole.trans (same.trans whole'.symm)).cons_inv

end

section
variable [Add κ] [Mul κ] {task : NavigationTask κ} {model' : AppModel κ} {fromState : Bytes}

theorem takeEdges_alike (current : FrontierNode κ) (search : NavigationSearch κ)
    {frontier' : List (FrontierNode κ)} (same : search.frontier.Perm frontier')
    {edges edges' : List (AppModelTransition κ)} (edges_ : edges.Perm edges') :
    ∃ frontier, (takeEdges task current search edges).frontier.Perm frontier ∧
      takeEdges { task with model := model' } current { search with frontier := frontier' } edges' =
        { takeEdges task current search edges with frontier := frontier } := by
  refine ⟨frontier' ++ (edges'.filter (edgeHas task .satisfied)).map (extendNode task current),
    same.append ((edges_.filter _).map _), ?_⟩
  have blocked := edges_.countP_eq (edgeHas task .notSatisfied)
  have unevaluable := edges_.countP_eq (edgeHas task .notEvaluable)
  simp only [takeEdges, edges_.length_eq, blocked, unevaluable]
  rfl

variable [Zero κ] [LinearOrder κ]

/-- What a plan or an error is made of. -/
def searchSummary (done : Option (FrontierNode κ) × NavigationSearch κ) :
    Option (FrontierNode κ) × Bool × Nat × Nat :=
  (done.1, done.2.pathCapped, done.2.guardsBlocked, done.2.guardsUnevaluable)

theorem searchLoop_alike (unique : (task.model.transitions.map AppModelTransition.id).Nodup)
    (transitions : task.model.transitions.Perm model'.transitions) (toState : Bytes) (fuel : Nat)
    (search : NavigationSearch κ) (nodes : ∀ node ∈ search.frontier, NodeOf task fromState node)
    (frontier' : List (FrontierNode κ)) (same : search.frontier.Perm frontier') :
    (searchLoop { task with model := model' } toState fuel
        { search with frontier := frontier' }).map searchSummary =
      (searchLoop task toState fuel search).map searchSummary := by
  induction fuel generalizing search frontier' with
  | zero => rfl
  | succ fuel ih =>
      rw [searchLoop, searchLoop, searchRound, searchRound]
      rcases evictLeast_alike unique nodes same with
        ⟨none_, none_'⟩ | ⟨node, rest, rest', taken, taken', left, own, others⟩
      · rw [none_, none_']
        rfl
      · have kept : ∀ other ∈ rest, NodeOf task fromState other :=
          fun other held => nodes other (others other held)
        rw [taken, taken']
        dsimp only
        by_cases settled : node.state ∈ search.settled
        · simp only [if_pos settled]
          exact ih { search with frontier := rest } kept rest' left
        · by_cases target : node.state = toState
          · simp only [if_neg settled, if_pos target]
            rfl
          · by_cases capped : task.options.maxPathEdges ≤ node.path.length
            · simp only [if_neg settled, if_neg target, if_pos capped]
              exact ih { search with
                frontier := rest
                settled := search.settled ++ [node.state]
                pathCapped := true } kept rest' left
            · have edges := transitions.filter fun transition => transition.fromState = node.state
              let open_ : NavigationSearch κ :=
                { search with
                  frontier := rest
                  settled := search.settled ++ [node.state] }
              have sameFrontier : open_.frontier.Perm rest' := left
              obtain ⟨frontier, offered, whole⟩ := takeEdges_alike node open_ sameFrontier edges
              have empty : task.model.transitions.filter (fun transition =>
                  transition.fromState = node.state) = [] ↔ model'.transitions.filter
                    (fun transition => transition.fromState = node.state) = [] := by
                rw [← List.length_eq_zero_iff, edges.length_eq, List.length_eq_zero_iff]
              have count := edges.length_eq
              simp only [if_neg settled, if_neg target, if_neg capped, expand_eq, outgoing]
              by_cases enough : task.model.transitions.filter (fun transition =>
                  transition.fromState = node.state) = [] ∨ search.evaluations +
                    (task.model.transitions.filter fun transition =>
                      transition.fromState = node.state).length ≤ task.options.maxEdgeEvaluations
              · have enough' := enough
                rw [empty, count] at enough'
                rw [if_pos enough, if_pos enough']
                refine (congrArg (fun next => (searchLoop { task with model := model' } toState fuel
                  next).map searchSummary) whole).trans ?_
                refine ih _ (fun other held => ?_) frontier offered
                rw [takeEdges, List.mem_append, List.mem_map] at held
                cases held with
                | inl old => exact kept other old
                | inr new =>
                    obtain ⟨transition, used, rfl⟩ := new
                    have declared := (List.mem_filter.mp (List.mem_filter.mp used).1).1
                    exact (nodes node own).extend declared
              · have enough' := enough
                rw [empty, count] at enough'
                rw [if_neg enough, if_neg enough']
                rfl

/-- With costs in a linear order the plan, or the error, does not depend on the order in which the
states and the transitions are declared. -/
theorem plan_order_irrelevant (task : NavigationTask κ) (model' : AppModel κ)
    (states : task.model.states.Perm model'.states)
    (transitions : task.model.transitions.Perm model'.transitions)
    (unique : (task.model.transitions.map AppModelTransition.id).Nodup)
    (fromState toState : Bytes) :
    planNavigation { task with model := model' } fromState toState =
      planNavigation task fromState toState := by
  have start : NodeOf task fromState (⟨0, [], fromState⟩ : FrontierNode κ) :=
    ⟨fun step never => (List.not_mem_nil never).elim, rfl, rfl⟩
  have loops := searchLoop_alike unique transitions toState (task.model.transitions.length + 2)
    { frontier := [⟨0, [], fromState⟩] } (fun node own => List.mem_singleton.mp own ▸ start) _
    (List.Perm.refl _)
  rw [planNavigation, planNavigation]
  simp only [states.mem_iff, ← transitions.length_eq]
  congr 4
  cases one : searchLoop task toState (task.model.transitions.length + 2)
      { frontier := [⟨0, [], fromState⟩] } with
  | error error =>
      cases other : searchLoop { task with model := model' } toState
          (task.model.transitions.length + 2) { frontier := [⟨0, [], fromState⟩] } with
      | error error' =>
          rw [one, other] at loops
          cases loops
          rfl
      | ok done' =>
          rw [one, other] at loops
          cases loops
  | ok done =>
      cases other : searchLoop { task with model := model' } toState
          (task.model.transitions.length + 2) { frontier := [⟨0, [], fromState⟩] } with
      | error error' =>
          rw [one, other] at loops
          cases loops
      | ok done' =>
          obtain ⟨node, search⟩ := done
          obtain ⟨node', search'⟩ := done'
          rw [one, other] at loops
          have same : searchSummary (node', search') = searchSummary (node, search) :=
            Except.ok.inj loops
          simp only [searchSummary, Prod.mk.injEq] at same
          obtain ⟨rfl, capped, blocked, unevaluable⟩ := same
          cases node' with
          | none => simp only [capped, blocked, unevaluable]
          | some node => simp only [blocked, unevaluable]

end

def twoWays : NavigationTask Nat where
  model :=
    { states := [ascii "home", ascii "inbox"]
      transitions :=
        [⟨ascii "menu", ascii "home", ascii "inbox", none, ⟨2, 0, 0, 0, 0, false⟩⟩,
         ⟨ascii "icon", ascii "home", ascii "inbox", none, ⟨2, 0, 0, 0, 0, false⟩⟩] }
  profile := ⟨1, 1, 1, 1, 1⟩
  evaluate _ _ := .notEvaluable

theorem two_ways_swapped :
    planNavigation { twoWays with model :=
        { states := twoWays.model.states.reverse
          transitions := twoWays.model.transitions.reverse } } (ascii "home") (ascii "inbox") =
      planNavigation twoWays (ascii "home") (ascii "inbox") :=
  plan_order_irrelevant twoWays _ (List.reverse_perm _).symm (List.reverse_perm _).symm
    (by decide +kernel) (ascii "home") (ascii "inbox")

/-- A cost as a double: a number, or not one. -/
inductive DoubleCost
  | nan
  | number (value : Nat)

namespace DoubleCost

/-- An operation on numbers; it has no number where one of its operands is none. -/
def lift (operation : Nat → Nat → Nat) : DoubleCost → DoubleCost → DoubleCost
  | number left, number right => number (operation left right)
  | _, _ => nan

/-- A comparison of numbers, which fails where one of its operands is none. -/
def compares (comparison : Nat → Nat → Bool) : DoubleCost → DoubleCost → Bool
  | number left, number right => comparison left right
  | _, _ => false

instance : Zero DoubleCost := ⟨number 0⟩
instance : Add DoubleCost := ⟨lift (· + ·)⟩
instance : Mul DoubleCost := ⟨lift (· * ·)⟩
instance : BEq DoubleCost := ⟨compares (· == ·)⟩
instance : LT DoubleCost := ⟨fun left right => compares (· < ·) left right = true⟩
instance : LE DoubleCost := ⟨fun left right => compares (· ≤ ·) left right = true⟩
instance : DecidableLT DoubleCost := fun _ _ => inferInstanceAs (Decidable (_ = true))
instance : DecidableLE DoubleCost := fun _ _ => inferInstanceAs (Decidable (_ = true))

end DoubleCost

def unknownWays : NavigationTask DoubleCost where
  model :=
    { states := [ascii "home", ascii "inbox"]
      transitions :=
        [⟨ascii "menu", ascii "home", ascii "inbox", none, ⟨.nan, 0, 0, 0, 0, false⟩⟩,
         ⟨ascii "icon", ascii "home", ascii "inbox", none, ⟨.nan, 0, 0, 0, 0, false⟩⟩] }
  profile := ⟨.number 1, .number 1, .number 1, .number 1, .number 1⟩
  evaluate _ _ := .notEvaluable

/-- Which of them is planned is decided by the order of declaration. -/
theorem unknown_ways_ordered :
    ¬ ∀ (task : NavigationTask DoubleCost) (model' : AppModel DoubleCost),
      task.model.states.Perm model'.states → task.model.transitions.Perm model'.transitions →
        task.model.states.Nodup → (task.model.transitions.map AppModelTransition.id).Nodup →
          ∀ fromState toState, planNavigation { task with model := model' } fromState toState =
            planNavigation task fromState toState := by
  intro all
  have same := all unknownWays { unknownWays.model with
      transitions := unknownWays.model.transitions.reverse } (.refl _) (List.reverse_perm _).symm
    (by decide +kernel) (by decide +kernel) (ascii "home") (ascii "inbox")
  have declared : (planNavigation unknownWays (ascii "home") (ascii "inbox")).map
      NavigationPlan.transitionIds = .ok [ascii "menu"] := rfl
  rw [← same] at declared
  have swapped : Except.ok [ascii "icon"] = Except.ok [ascii "menu"] := declared
  exact absurd (Except.ok.inj swapped) (by decide)

end Mira.Workflow
