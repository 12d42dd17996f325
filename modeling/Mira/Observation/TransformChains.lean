import Mathlib.Data.Prod.Lex
import Mathlib.Algebra.Order.Ring.Rat
import Mathlib.Tactic.LinearCombination
import Mathlib.Tactic.Ring
import Mathlib.LinearAlgebra.Matrix.Notation
import Mira.Library.BestFirst
import Mira.Observation.CoordinateTransform

/-!
What a resolved chain of transforms is. Spaces are visited in the order of the ranks of their first
paths, the number of edges before the indices, so that the search finds the first shortest path.
The matrices are multiplied on the way back from the target, each new one from the left: the product
has them in the order of the path, which applies the last edge first.
-/

namespace Mira.Observation
open Mira Bytes BestFirst

variable {available : List CoordinateTransform} {epoch : Nat} {start target : Id128}

/-- An edge of the epoch. -/
def InEpoch (available : List CoordinateTransform) (epoch : Nat) (edge : TransformEdge) : Prop :=
  edge ∈ available.zipIdx ∧ edge.1.environmentEpoch = epoch

def ChainPath (available : List CoordinateTransform) (epoch : Nat) (start : Id128)
    (path : List TransformEdge) (finish : Id128) : Prop :=
  Walk (fun edge : TransformEdge => edge.1.fromSpace) (fun edge => edge.1.toSpace)
    (InEpoch available epoch) start path finish

def pathRank (path : List TransformEdge) : Nat ×ₗ List Nat :=
  toLex (path.length, path.map Prod.snd)

/-- The path has the fewest edges, and the least indices among these. -/
structure FirstShortest (available : List CoordinateTransform) (epoch : Nat) (start : Id128)
    (path : List TransformEdge) (finish : Id128) : Prop where
  walk : ChainPath available epoch start path finish
  least : ∀ other, ChainPath available epoch start other finish → pathRank path ≤ pathRank other

variable {path other : List TransformEdge} {edge edge' : TransformEdge} {space : Id128}

theorem length_le_of_rank (le : pathRank path ≤ pathRank other) : path.length ≤ other.length := by
  cases Prod.Lex.toLex_le_toLex.mp le with
  | inl less => exact less.le
  | inr same => exact same.1.le

theorem rank_lt_of_length (less : path.length < other.length) : pathRank path < pathRank other :=
  Prod.Lex.toLex_lt_toLex.mpr (.inl less)

theorem rank_snoc : pathRank path < pathRank (path ++ [edge]) :=
  rank_lt_of_length (by simp)

theorem rank_snoc_lt (less : pathRank path < pathRank other) :
    pathRank (path ++ [edge]) < pathRank (other ++ [edge']) := by
  rw [pathRank, pathRank, Prod.Lex.toLex_lt_toLex] at less ⊢
  simp only [List.length_append, List.length_singleton, List.map_append] at less ⊢
  rcases less with shorter | ⟨same, keys⟩
  · exact .inl (by omega)
  · refine .inr ⟨by omega, ?_⟩
    rcases front_or_before keys with ⟨more, some_, longer⟩ | before
    · have lengths := congrArg List.length longer
      rw [List.length_append, List.length_map, List.length_map] at lengths
      have none_ : more = [] := List.length_eq_zero_iff.mp (by omega)
      exact absurd none_ some_
    · exact before _ _

theorem rank_index_lt (same : pathRank path = pathRank other) (below : edge.2 < edge'.2) :
    pathRank (path ++ [edge]) < pathRank (other ++ [edge']) := by
  have length : path.length = other.length := congrArg (fun rank => (ofLex rank).1) same
  have keys : path.map Prod.snd = other.map Prod.snd := congrArg (fun rank => (ofLex rank).2) same
  rw [pathRank, pathRank, List.map_append, List.map_append, keys, List.length_append, length,
    List.length_append, Prod.Lex.toLex_lt_toLex]
  refine .inr ⟨rfl, ?_⟩
  induction other.map Prod.snd with
  | nil => exact List.Lex.rel below
  | cons key more ih => exact List.Lex.cons ih

theorem rank_snoc_le (le : pathRank path ≤ pathRank other) (index : edge.2 ≤ edge'.2) :
    pathRank (path ++ [edge]) ≤ pathRank (other ++ [edge']) := by
  rcases le.eq_or_lt with same | less
  · rcases index.eq_or_lt with equal | below
    · have length : path.length = other.length := congrArg (fun rank => (ofLex rank).1) same
      have keys : path.map Prod.snd = other.map Prod.snd :=
        congrArg (fun rank => (ofLex rank).2) same
      simp only [pathRank, List.map_append, keys, List.length_append, length, List.map_cons,
        equal, List.length_singleton, List.map_nil, le_refl]
    · exact (rank_index_lt same below).le
  · exact (rank_snoc_lt less).le

theorem edge_eq (own : edge ∈ available.zipIdx) (own' : edge' ∈ available.zipIdx)
    (index : edge.2 = edge'.2) : edge = edge' := by
  rw [List.mem_zipIdx_iff_getElem?] at own own'
  rw [index, own'] at own
  exact Prod.ext (Option.some.inj own).symm index

theorem path_eq (walk : ∀ edge ∈ path, edge ∈ available.zipIdx)
    (walk' : ∀ edge ∈ other, edge ∈ available.zipIdx)
    (indices : path.map Prod.snd = other.map Prod.snd) : path = other := by
  induction path generalizing other with
  | nil => exact (List.map_eq_nil_iff.mp indices.symm).symm
  | cons edge rest ih =>
      cases other with
      | nil => cases indices
      | cons edge' rest' =>
          rw [List.map_cons, List.map_cons, List.cons.injEq] at indices
          obtain ⟨own, others⟩ := List.forall_mem_cons.mp walk
          obtain ⟨own', others'⟩ := List.forall_mem_cons.mp walk'
          rw [edge_eq own own' indices.1, ih others others' indices.2]

theorem mem_adjacency :
    edge ∈ adjacency available epoch space ↔
      InEpoch available epoch edge ∧ edge.1.fromSpace = space := by
  rw [adjacency, List.mem_filter, decide_eq_true_eq, InEpoch, and_assoc]

theorem adjacency_ordered : (adjacency available epoch space).Pairwise fun a b => a.2 < b.2 := by
  refine List.Pairwise.filter _ (List.pairwise_map.mp ?_)
  rw [List.zipIdx_map_snd]
  exact List.pairwise_lt_range'

section
variable (available epoch start) in
/-- Every visited space has a first path, which was written down with its last edge and comes by way
of an expanded space; spaces are visited in the order of these paths. -/
structure Labelled (expanded : List Id128) (search : ChainSearch)
    (label : Id128 → List TransformEdge) : Prop where
  begins : start ∈ search.visited
  known : ∀ space ∈ expanded, space ∈ search.visited
  origin : label start = []
  paths : ∀ space ∈ search.visited, FirstShortest available epoch start (label space) space
  parents : ∀ space ∈ search.visited, space ≠ start → ∃ edge, edge.1.toSpace = space ∧
    search.cameFrom.lookup space = some ⟨edge, edge.1.fromSpace⟩ ∧
      edge.1.fromSpace ∈ expanded ∧ label space = label edge.1.fromSpace ++ [edge]
  ordered : search.visited.Pairwise fun a b => pathRank (label a) < pathRank (label b)
  short : ∀ space ∈ search.visited, (label space).length ≤ search.cameFrom.length
  fresh : ∀ space, space ∉ search.visited → search.cameFrom.lookup space = none

variable (available epoch start target) in
/-- Between two rounds: the visited spaces are the expanded ones and the frontier. -/
structure Between (expanded : List Id128) (search : ChainSearch)
    (label : Id128 → List TransformEdge) : Prop where
  labelled : Labelled available epoch start expanded search label
  visited : search.visited = expanded ++ search.frontier
  closed : ∀ edge, InEpoch available epoch edge → edge.1.fromSpace ∈ expanded →
    edge.1.toSpace ∈ search.visited
  missing : target ∉ search.visited
  searching : search.found = false

variable (available epoch start target) in
/-- While a space is expanded, with the edges that are left. -/
structure Expanding (done : List Id128) (current : Id128) (left : List TransformEdge)
    (search : ChainSearch) (label : Id128 → List TransformEdge) : Prop where
  labelled : Labelled available epoch start (done ++ [current]) search label
  visited : search.visited = done ++ current :: search.frontier
  closed : ∀ edge, InEpoch available epoch edge → edge.1.fromSpace ∈ done →
    edge.1.toSpace ∈ search.visited
  offered : ∀ edge, InEpoch available epoch edge → edge.1.fromSpace = current →
    edge ∈ left ∨ edge.1.toSpace ∈ search.visited
  later : ∀ space ∈ search.visited, ∀ edge ∈ left,
    pathRank (label space) < pathRank (label current ++ [edge])
  missing : target ∉ search.visited
  searching : search.found = false

variable {done expanded : List Id128} {current : Id128} {left : List TransformEdge}
  {search : ChainSearch} {label : Id128 → List TransformEdge}

theorem ChainPath.snoc_iff : ChainPath available epoch start (path ++ [edge]) space ↔
    ChainPath available epoch start path edge.1.fromSpace ∧ InEpoch available epoch edge ∧
      edge.1.toSpace = space :=
  walk_snoc

/-- No path to a space that is not expanded precedes the path to the current space. -/
theorem Expanding.current_first
    (expanding : Expanding available epoch start target done current left search label)
    (walk : ChainPath available epoch start path space) (outside : space ∉ done) :
    space = current ∨ pathRank (label current) < pathRank path := by
  have known {path : List TransformEdge} {space : Id128}
      (walk : ChainPath available epoch start path space) (outside : space ∉ done)
      (seen : space ∈ search.visited) :
      space = current ∨ pathRank (label current) < pathRank path := by
    have ordered := expanding.labelled.ordered
    have least := (expanding.labelled.paths space seen).least path walk
    rw [expanding.visited] at seen ordered
    rw [List.mem_append, List.mem_cons] at seen
    rcases seen with inside | same | waits
    · exact absurd inside outside
    · exact .inl same
    · rw [List.pairwise_append, List.pairwise_cons] at ordered
      exact .inr ((ordered.2.1.1 space waits).trans_le least)
  induction path using List.reverseRecOn generalizing space with
  | nil => exact known walk outside (walk ▸ expanding.labelled.begins)
  | append_singleton path edge ih =>
      by_cases seen : space ∈ search.visited
      · exact known walk outside seen
      · obtain ⟨before, own, last⟩ := ChainPath.snoc_iff.mp walk
        have open_ : edge.1.fromSpace ∉ done := by
          intro inside
          exact seen (last ▸ expanding.closed edge own inside)
        refine .inr ?_
        rcases ih before open_ with here | less
        · have current_ : current ∈ search.visited := by
            rw [expanding.visited]
            exact List.mem_append_right _ List.mem_cons_self
          have least := (expanding.labelled.paths current current_).least path (here ▸ before)
          exact least.trans_lt rank_snoc
        · exact less.trans rank_snoc

/-- An edge to a space that was not visited gives the first path to it. -/
theorem Expanding.child
    (expanding : Expanding available epoch start target done current (edge :: left) search label)
    (own : InEpoch available epoch edge) (leaves : edge.1.fromSpace = current)
    (ordered : ∀ other ∈ left, edge.2 ≤ other.2) (unseen : edge.1.toSpace ∉ search.visited) :
    FirstShortest available epoch start (label current ++ [edge]) edge.1.toSpace := by
  have current_ : current ∈ search.visited := by
    rw [expanding.visited]
    exact List.mem_append_right _ List.mem_cons_self
  have path := expanding.labelled.paths current current_
  constructor
  · exact ChainPath.snoc_iff.mpr ⟨leaves ▸ path.walk, own, rfl⟩
  · intro other walk
    rcases List.eq_nil_or_concat' other with none_ | ⟨front, last, parts⟩
    · rw [none_] at walk
      exact absurd (walk ▸ expanding.labelled.begins) unseen
    · rw [parts] at walk ⊢
      obtain ⟨before, inside, here⟩ := ChainPath.snoc_iff.mp walk
      have open_ : last.1.fromSpace ∉ done := by
        intro closed
        exact unseen (here ▸ expanding.closed last inside closed)
      rcases expanding.current_first before open_ with same | less
      · refine rank_snoc_le (path.least front (same ▸ before)) ?_
        rcases expanding.offered last inside same with waits | seen
        · cases waits with
          | head => exact le_refl _
          | tail _ waits => exact ordered last waits
        · exact absurd (here ▸ seen) unseen
      · exact (rank_snoc_lt less).le

/-- A first path to a space that was not visited is written down. -/
theorem Labelled.add (labelled : Labelled available epoch start expanded search label)
    (parent : edge.1.fromSpace ∈ expanded) (unseen : edge.1.toSpace ∉ search.visited)
    (path : FirstShortest available epoch start (label edge.1.fromSpace ++ [edge]) edge.1.toSpace)
    (later : ∀ space ∈ search.visited,
      pathRank (label space) < pathRank (label edge.1.fromSpace ++ [edge]))
    {next : ChainSearch} (visited : next.visited = search.visited ++ [edge.1.toSpace])
    (cameFrom : next.cameFrom =
      search.cameFrom ++ [(edge.1.toSpace, SearchNode.mk edge edge.1.fromSpace)]) :
    Labelled available epoch start expanded next
      (Function.update label edge.1.toSpace (label edge.1.fromSpace ++ [edge])) := by
  have here : Function.update label edge.1.toSpace (label edge.1.fromSpace ++ [edge])
      edge.1.toSpace = label edge.1.fromSpace ++ [edge] := Function.update_self _ _ _
  have old {space : Id128} (seen : space ∈ search.visited) :
      Function.update label edge.1.toSpace (label edge.1.fromSpace ++ [edge]) space =
        label space :=
    Function.update_of_ne (ne_of_mem_of_not_mem seen unseen) _ _
  have parent_ := labelled.known _ parent
  have grown (space : Id128) : space ∈ next.visited ↔
      space ∈ search.visited ∨ space = edge.1.toSpace := by
    rw [visited, List.mem_append, List.mem_singleton]
  constructor
  · exact (grown _).mpr (.inl labelled.begins)
  · exact fun space inside => (grown _).mpr (.inl (labelled.known space inside))
  · rw [old labelled.begins]
    exact labelled.origin
  · intro space seen
    cases (grown space).mp seen with
    | inl before =>
        rw [old before]
        exact labelled.paths space before
    | inr last =>
        rw [last, here]
        exact path
  · intro space seen other
    rw [cameFrom, List.lookup_append]
    cases (grown space).mp seen with
    | inl before =>
        obtain ⟨edge', ends, found, inside, parts⟩ := labelled.parents space before other
        refine ⟨edge', ends, ?_, inside, ?_⟩
        · rw [found]
          rfl
        · rw [old before, old (labelled.known _ inside)]
          exact parts
    | inr last =>
        refine ⟨edge, last.symm, ?_, parent, ?_⟩
        · rw [last, labelled.fresh _ unseen]
          simp
        · rw [last, here, old parent_]
  · rw [visited, List.pairwise_append]
    refine ⟨?_, List.pairwise_singleton _ _, ?_⟩
    · refine labelled.ordered.imp_of_mem fun one two less => ?_
      rw [old one, old two]
      exact less
    · intro space seen child only
      rw [List.mem_singleton.mp only, old seen, here]
      exact later space seen
  · intro space seen
    rw [cameFrom, List.length_append, List.length_singleton]
    cases (grown space).mp seen with
    | inl before =>
        have short := labelled.short space before
        rw [old before]
        omega
    | inr last =>
        have short := labelled.short _ parent_
        rw [last, here, List.length_append, List.length_singleton]
        omega
  · intro space unseen'
    rw [grown, not_or] at unseen'
    rw [cameFrom, List.lookup_append, labelled.fresh space unseen'.1]
    simp [List.lookup_cons, beq_eq_false_iff_ne.mpr unseen'.2]

/-- The target has a first path that was written down. -/
def Reaches (available : List CoordinateTransform) (epoch : Nat) (start target : Id128)
    (search : ChainSearch) : Prop :=
  search.found = true ∧ target ∈ search.visited ∧
    ∃ expanded label, Labelled available epoch start expanded search label

theorem Expanding.step
    (expanding : Expanding available epoch start target done current (edge :: left) search label)
    (own : InEpoch available epoch edge) (leaves : edge.1.fromSpace = current)
    (ordered : ∀ other ∈ left, edge.2 < other.2) :
    Reaches available epoch start target (visitEdge target current search edge) ∨
      ∃ label, Expanding available epoch start target done current left
        (visitEdge target current search edge) label := by
  have current_ : current ∈ search.visited := by
    rw [expanding.visited]
    exact List.mem_append_right _ List.mem_cons_self
  by_cases seen : edge.1.toSpace ∈ search.visited
  · right
    rw [visitEdge, if_pos (.inr (.inr seen))]
    refine ⟨label, expanding.labelled, expanding.visited, expanding.closed, ?_, ?_,
      expanding.missing, expanding.searching⟩
    · intro other inside same
      rcases expanding.offered other inside same with waits | visited
      · cases waits with
        | head => exact .inr seen
        | tail _ waits => exact .inl waits
      · exact .inr visited
    · exact fun space seen other waits => expanding.later space seen other (.tail _ waits)
  · have away : edge.1.toSpace ≠ current := fun same => seen (same ▸ current_)
    have path := expanding.child own leaves (fun other waits => (ordered other waits).le) seen
    have later (space : Id128) (visited : space ∈ search.visited) :=
      expanding.later space visited edge (.head _)
    have parent : edge.1.fromSpace ∈ done ++ [current] := by
      rw [leaves]
      exact List.mem_append_right _ (List.mem_singleton.mpr rfl)
    subst leaves
    have none_ : ¬ (search.found = true ∨ edge.1.toSpace = edge.1.fromSpace ∨
        edge.1.toSpace ∈ search.visited) := by
      simp [expanding.searching, away, seen]
    rw [visitEdge, if_neg none_]
    by_cases goal : edge.1.toSpace = target
    · left
      simp only [if_pos goal]
      refine ⟨rfl, List.mem_append_right _ (List.mem_singleton.mpr goal.symm), _, _,
        expanding.labelled.add parent seen path later rfl rfl⟩
    · right
      simp only [if_neg goal]
      refine ⟨_, expanding.labelled.add parent seen path later rfl rfl, ?_, ?_, ?_, ?_, ?_,
        expanding.searching⟩
      · simp only [expanding.visited, List.append_assoc, List.cons_append]
      · exact fun other inside before =>
          List.mem_append_left _ (expanding.closed other inside before)
      · intro other inside same
        rcases expanding.offered other inside same with waits | visited
        · cases waits with
          | head => exact .inr (List.mem_append_right _ (List.mem_singleton.mpr rfl))
          | tail _ waits => exact .inl waits
        · exact .inr (List.mem_append_left _ visited)
      · intro space visited other waits
        rw [Function.update_of_ne away.symm]
        cases List.mem_append.mp visited with
        | inl before =>
            rw [Function.update_of_ne (ne_of_mem_of_not_mem before seen)]
            exact expanding.later space before other (.tail _ waits)
        | inr last =>
            rw [List.mem_singleton.mp last, Function.update_self]
            exact rank_index_lt rfl (ordered other waits)
      · intro inside
        cases List.mem_append.mp inside with
        | inl before => exact expanding.missing before
        | inr last => exact goal (List.mem_singleton.mp last).symm

theorem foldl_found (found : search.found = true) (left : List TransformEdge) :
    left.foldl (visitEdge target current) search = search := by
  induction left with
  | nil => rfl
  | cons edge left ih =>
      have kept : visitEdge target current search edge = search := by
        rw [visitEdge, if_pos (.inl found)]
      rw [List.foldl_cons, kept, ih]

theorem Expanding.run
    (expanding : Expanding available epoch start target done current left search label)
    (own : ∀ edge ∈ left, InEpoch available epoch edge ∧ edge.1.fromSpace = current)
    (ordered : left.Pairwise fun a b => a.2 < b.2) :
    Reaches available epoch start target (left.foldl (visitEdge target current) search) ∨
      ∃ label, Expanding available epoch start target done current []
        (left.foldl (visitEdge target current) search) label := by
  induction left generalizing search label with
  | nil => exact .inr ⟨label, expanding⟩
  | cons edge left ih =>
      obtain ⟨first, others⟩ := List.forall_mem_cons.mp own
      obtain ⟨after, later⟩ := List.pairwise_cons.mp ordered
      rw [List.foldl_cons]
      rcases expanding.step first.1 first.2 after with reaches | ⟨label, next⟩
      · rw [foldl_found reaches.1]
        exact .inl reaches
      · exact ih next others later

theorem Expanding.between
    (expanding : Expanding available epoch start target done current [] search label) :
    Between available epoch start target (done ++ [current]) search label where
  labelled := expanding.labelled
  visited := by
    rw [expanding.visited, List.append_assoc]
    rfl
  closed edge own inside := by
    cases List.mem_append.mp inside with
    | inl before => exact expanding.closed edge own before
    | inr here =>
        rcases expanding.offered edge own (List.mem_singleton.mp here) with never | visited
        · cases never
        · exact visited
  missing := expanding.missing
  searching := expanding.searching

theorem Between.expanding (between : Between available epoch start target expanded search label)
    {frontier : List Id128} (taken : search.frontier = current :: frontier) :
    Expanding available epoch start target expanded current (adjacency available epoch current)
      { search with frontier := frontier } label where
  labelled :=
    { between.labelled with
      known := by
        intro space inside
        rw [between.visited, taken]
        cases List.mem_append.mp inside with
        | inl before => exact List.mem_append_left _ before
        | inr here =>
            rw [List.mem_singleton.mp here]
            exact List.mem_append_right _ List.mem_cons_self
      parents := by
        intro space seen other
        obtain ⟨edge, ends, found, inside, parts⟩ := between.labelled.parents space seen other
        exact ⟨edge, ends, found, List.mem_append_left _ inside, parts⟩ }
  visited := by
    rw [between.visited, taken]
  closed := between.closed
  offered edge own leaves := .inl (mem_adjacency.mpr ⟨own, leaves⟩)
  later := by
    intro space seen edge _
    by_cases origin : space = start
    · rw [origin, between.labelled.origin]
      exact rank_lt_of_length (by simp)
    · obtain ⟨edge', _, _, inside, parts⟩ := between.labelled.parents space seen origin
      have ordered := between.labelled.ordered
      rw [between.visited, taken, List.pairwise_append] at ordered
      rw [parts]
      exact rank_snoc_lt (ordered.2.2 _ inside current List.mem_cons_self)
  missing := between.missing
  searching := between.searching

/-- Spaces are visited once, and all but the first one are targets of transforms. -/
theorem Labelled.length_visited
    (labelled : Labelled available epoch start expanded search label) :
    search.visited.length ≤ available.length + 1 := by
  have distinct : search.visited.Nodup := by
    refine labelled.ordered.imp fun less same => ?_
    rw [same] at less
    exact lt_irrefl _ less
  have inside : search.visited ⊆ start :: available.map CoordinateTransform.toSpace := by
    intro space seen
    by_cases origin : space = start
    · exact origin ▸ List.mem_cons_self
    · obtain ⟨edge, ends, _, _, parts⟩ := labelled.parents space seen origin
      have walk := (labelled.paths space seen).walk
      rw [parts] at walk
      have own := (ChainPath.snoc_iff.mp walk).2.1.1
      rw [List.mem_zipIdx_iff_getElem?] at own
      exact List.mem_cons_of_mem _ (ends ▸ List.mem_map_of_mem (List.mem_of_getElem? own))
  have length := (distinct.subperm inside).length_le
  rwa [List.length_cons, List.length_map] at length

theorem Between.unreachable (between : Between available epoch start target expanded search label)
    (empty : search.frontier = []) : ¬ ∃ path, ChainPath available epoch start path target := by
  intro reached
  obtain ⟨path, walk⟩ := reached
  have all {path : List TransformEdge} {space : Id128}
      (walk : ChainPath available epoch start path space) : space ∈ search.visited := by
    induction path using List.reverseRecOn generalizing space with
    | nil => exact walk ▸ between.labelled.begins
    | append_singleton path edge ih =>
        obtain ⟨before, own, last⟩ := ChainPath.snoc_iff.mp walk
        have seen := ih before
        rw [between.visited, empty, List.append_nil] at seen
        exact last ▸ between.closed edge own seen
  exact between.missing (all walk)

theorem chainSearch_ends (fuel : Nat)
    (between : Between available epoch start target expanded search label)
    (enough : available.length + 2 ≤ fuel + expanded.length) :
    Reaches available epoch start target (chainSearch available epoch target fuel search) ∨
      (chainSearch available epoch target fuel search).found = false ∧
        ¬ ∃ path, ChainPath available epoch start path target := by
  induction fuel generalizing expanded search label with
  | zero =>
      have length := between.labelled.length_visited
      rw [between.visited, List.length_append] at length
      omega
  | succ fuel ih =>
      rw [chainSearch, if_neg (by simp [between.searching])]
      cases taken : search.frontier with
      | nil => exact .inr ⟨between.searching, between.unreachable taken⟩
      | cons current frontier =>
          rcases (between.expanding taken).run (fun edge own => mem_adjacency.mp own)
            adjacency_ordered with reaches | ⟨label, next⟩
          · left
            cases fuel with
            | zero => exact reaches
            | succ fuel =>
                dsimp only
                rw [chainSearch, if_pos reaches.1]
                exact reaches
          · refine ih next.between ?_
            rw [List.length_append, List.length_singleton]
            omega

theorem between_start (different : start ≠ target) :
    Between available epoch start target []
      { frontier := [start]
        visited := [start] } fun _ => [] where
  labelled :=
    { begins := List.mem_singleton.mpr rfl
      known := fun _ never => (List.not_mem_nil never).elim
      origin := rfl
      paths := by
        intro space seen
        exact ⟨(List.mem_singleton.mp seen).symm, fun other _ =>
          Prod.Lex.toLex_le_toLex.mpr (by cases other <;> simp)⟩
      parents := fun space seen other => absurd (List.mem_singleton.mp seen) other
      ordered := List.pairwise_singleton _ _
      short := fun _ _ => Nat.zero_le _
      fresh := fun _ _ => rfl }
  visited := rfl
  closed _ _ never := (List.not_mem_nil never).elim
  missing := fun inside => different (List.mem_singleton.mp inside).symm
  searching := rfl

theorem traceBack_runs (labelled : Labelled available epoch start expanded search label)
    (fuel : Nat) (seen : space ∈ search.visited) (enough : (label space).length < fuel)
    (chain : TransformChain) :
    ((∀ edge ∈ label space, validateCoordinateTransform edge.1 = .ok ()) ∧
        traceBack start search.cameFrom fuel space chain =
          .ok ((label space).reverse.foldl addEdge chain)) ∨
      ((∃ edge ∈ label space, validateCoordinateTransform edge.1 ≠ .ok ()) ∧
        ∃ error, traceBack start search.cameFrom fuel space chain = .error error) := by
  induction fuel generalizing space chain with
  | zero => omega
  | succ fuel ih =>
      rw [traceBack]
      by_cases origin : space = start
      · rw [if_pos origin, origin, labelled.origin]
        exact .inl ⟨fun edge never => (List.not_mem_nil never).elim, rfl⟩
      · obtain ⟨edge, _, found, inside, parts⟩ := labelled.parents space seen origin
        rw [parts, List.length_append, List.length_singleton] at enough
        rw [if_neg origin, found, parts]
        cases validated : validateCoordinateTransform edge.1 with
        | error error =>
            exact .inr ⟨⟨edge, by simp, by rw [validated]; simp⟩, error, by simp [validated]⟩
        | ok _ =>
            simp only [validated]
            rcases ih (labelled.known _ inside) (by omega) (addEdge chain edge) with
              ⟨all, back⟩ | ⟨⟨bad, own, invalid⟩, error, failed⟩
            · refine .inl ⟨fun other own => ?_, ?_⟩
              · cases List.mem_append.mp own with
                | inl before => exact all other before
                | inr last =>
                    rw [List.mem_singleton.mp last]
                    exact validated
              · rw [back, List.reverse_append]
                rfl
            · exact .inr ⟨⟨bad, List.mem_append_left _ own, invalid⟩, error, failed⟩

end

structure ChainOf (available : List CoordinateTransform) (epoch : Nat) (start target : Id128)
    (chain : TransformChain) (path : List TransformEdge) : Prop where
  walk : ChainPath available epoch start path target
  fewest : ∀ other, ChainPath available epoch start other target → path.length ≤ other.length
  indices : chain.transformIndices = path.map Prod.snd
  error : chain.maxAbsError = (path.map fun edge => edge.1.maxAbsError).sum
  worst : ∀ edge ∈ path, edge.1.quality.rank ≤ chain.quality.rank
  attained : ∃ edge ∈ path, edge.1.quality = chain.quality

/-- The matrix applies the edges of the path in their order, and so maps points as they do. -/
structure Composes (available : List CoordinateTransform) (chain : TransformChain)
    (path : List TransformEdge) : Prop where
  product : chain.composed = (path.map fun edge => edge.1.matrix).reverse.prod
  points : ∀ point out, transformPointThrough available chain point = .ok out →
    Matrix3x3.apply chain.composed point = some out.point

structure ChainMeant (available : List CoordinateTransform) (epoch : Nat)
    (start target : Id128) : Prop where
  resolved : ∀ chain, resolveTransformChain available start target epoch = .ok chain →
    ∃ path, ChainOf available epoch start target chain path ∧ Composes available chain path
  complete : (∀ transform ∈ available, transform.environmentEpoch = epoch →
      validateCoordinateTransform transform = .ok ()) →
    ∀ error, resolveTransformChain available start target epoch = .error error →
      ¬ ∃ path, ChainPath available epoch start path target

theorem addEdges_composed (path : List TransformEdge) (chain : TransformChain) :
    (path.reverse.foldl addEdge chain).composed =
      (path.map fun edge => edge.1.matrix).prod * chain.composed := by
  induction path using List.reverseRecOn generalizing chain with
  | nil => simp
  | append_singleton path edge ih =>
      rw [List.reverse_append, List.reverse_singleton, List.singleton_append, List.foldl_cons, ih,
        List.map_append, List.prod_append, List.map_singleton, List.prod_singleton, addEdge,
        mul_assoc]

theorem addEdges_indices (path : List TransformEdge) (chain : TransformChain) :
    (path.reverse.foldl addEdge chain).transformIndices =
      chain.transformIndices ++ (path.map Prod.snd).reverse := by
  induction path using List.reverseRecOn generalizing chain with
  | nil => simp
  | append_singleton path edge ih =>
      rw [List.reverse_append, List.reverse_singleton, List.singleton_append, List.foldl_cons, ih,
        addEdge, List.map_append, List.reverse_append, List.append_assoc]
      rfl

theorem addEdges_error (path : List TransformEdge) (chain : TransformChain) :
    (path.reverse.foldl addEdge chain).maxAbsError =
      chain.maxAbsError + (path.map fun edge => edge.1.maxAbsError).sum := by
  induction path using List.reverseRecOn generalizing chain with
  | nil => simp
  | append_singleton path edge ih =>
      rw [List.reverse_append, List.reverse_singleton, List.singleton_append, List.foldl_cons, ih,
        addEdge, List.map_append, List.sum_append, List.map_singleton, List.sum_singleton]
      ring

theorem worse_spec (lhs rhs : TransformQuality) :
    lhs.rank ≤ (worseTransformQuality lhs rhs).rank ∧
      rhs.rank ≤ (worseTransformQuality lhs rhs).rank ∧
        (worseTransformQuality lhs rhs = lhs ∨ worseTransformQuality lhs rhs = rhs) := by
  rw [worseTransformQuality]
  split
  next le => exact ⟨le_refl _, le, .inl rfl⟩
  next more => exact ⟨by omega, le_refl _, .inr rfl⟩

theorem addEdges_quality (path : List TransformEdge) (chain : TransformChain) :
    chain.quality.rank ≤ (path.reverse.foldl addEdge chain).quality.rank ∧
      (∀ edge ∈ path, edge.1.quality.rank ≤ (path.reverse.foldl addEdge chain).quality.rank) ∧
        ((path.reverse.foldl addEdge chain).quality = chain.quality ∨
          ∃ edge ∈ path, edge.1.quality = (path.reverse.foldl addEdge chain).quality) := by
  induction path using List.reverseRecOn generalizing chain with
  | nil => exact ⟨le_refl _, fun edge never => (List.not_mem_nil never).elim, .inl rfl⟩
  | append_singleton path edge ih =>
      rw [List.reverse_append, List.reverse_singleton, List.singleton_append, List.foldl_cons]
      obtain ⟨above, all, which⟩ := ih (addEdge chain edge)
      obtain ⟨left, right, either⟩ := worse_spec chain.quality edge.1.quality
      have added : (addEdge chain edge).quality =
          worseTransformQuality chain.quality edge.1.quality := rfl
      rw [added] at above which
      refine ⟨left.trans above, fun other own => ?_, ?_⟩
      · cases List.mem_append.mp own with
        | inl before => exact all other before
        | inr last =>
            rw [List.mem_singleton.mp last]
            exact right.trans above
      · rcases which with same | ⟨other, own, same⟩
        · rcases either with kept | taken
          · exact .inl (same.trans kept)
          · exact .inr ⟨edge, by simp, (same.trans taken).symm⟩
        · exact .inr ⟨other, List.mem_append_left _ own, same⟩

theorem FirstShortest.unique (one : FirstShortest available epoch start path target)
    (two : FirstShortest available epoch start other target) : path = other := by
  have rank := le_antisymm (one.least other two.walk) (two.least path one.walk)
  exact path_eq (fun edge own => (Walk.edges one.walk edge own).1)
    (fun edge own => (Walk.edges two.walk edge own).1)
    (congrArg (fun rank => (ofLex rank).2) rank)

theorem FirstShortest.present (first : FirstShortest available epoch start path target)
    (different : start ≠ target) : path ≠ [] := by
  intro none_
  have walk := first.walk
  rw [none_] at walk
  exact different walk

theorem valid_ends {transform : CoordinateTransform}
    (valid : validateCoordinateTransform transform = .ok ()) :
    transform.fromSpace.isNil = false ∧ transform.toSpace.isNil = false := by
  rw [validateCoordinateTransform] at valid
  split at valid
  next => cases valid
  next ends =>
      rw [not_or, Bool.not_eq_true, Bool.not_eq_true] at ends
      exact ends

/-- No edge with valid ends leaves or reaches the nil space. -/
theorem nil_invalid (different : start ≠ target) (nil : start.isNil = true ∨ target.isNil = true)
    (walk : ChainPath available epoch start path target) :
    ∃ edge ∈ path, validateCoordinateTransform edge.1 ≠ .ok () := by
  cases nil with
  | inl nil =>
      cases path with
      | nil => exact absurd walk different
      | cons edge rest =>
          refine ⟨edge, List.mem_cons_self, fun valid => ?_⟩
          have ends := (valid_ends valid).1
          have leaves : edge.1.fromSpace = start := walk.2.1
          rw [leaves, nil] at ends
          cases ends
  | inr nil =>
      rcases List.eq_nil_or_concat' path with none_ | ⟨front, edge, parts⟩
      · rw [none_] at walk
        exact absurd walk different
      · rw [parts] at walk ⊢
        refine ⟨edge, by simp, fun valid => ?_⟩
        have ends := (valid_ends valid).2
        rw [(ChainPath.snoc_iff.mp walk).2.2, nil] at ends
        cases ends

theorem InEpoch.declared (own : InEpoch available epoch edge) : edge.1 ∈ available := by
  have inside := own.1
  rw [List.mem_zipIdx_iff_getElem?] at inside
  exact List.mem_of_getElem? inside

structure Resolved (available : List CoordinateTransform) (epoch : Nat) (start target : Id128)
    (chain : TransformChain) (path : List TransformEdge) : Prop where
  first : FirstShortest available epoch start path target
  valid : ∀ edge ∈ path, validateCoordinateTransform edge.1 = .ok ()
  chainOf : ChainOf available epoch start target chain path
  product : chain.composed = (path.map fun edge => edge.1.matrix).prod

structure Unresolved (available : List CoordinateTransform) (epoch : Nat) (start target : Id128) :
    Prop where
  invalid : ∀ path, FirstShortest available epoch start path target →
    ∃ edge ∈ path, validateCoordinateTransform edge.1 ≠ .ok ()
  unreachable : (∀ transform ∈ available, transform.environmentEpoch = epoch →
      validateCoordinateTransform transform = .ok ()) →
    ¬ ∃ path, ChainPath available epoch start path target

theorem unresolved_of_invalid (all : ∀ path, ChainPath available epoch start path target →
    ∃ edge ∈ path, validateCoordinateTransform edge.1 ≠ .ok ()) :
    Unresolved available epoch start target where
  invalid path first := all path first.walk
  unreachable valid reached := by
    obtain ⟨path, walk⟩ := reached
    obtain ⟨edge, own, invalid⟩ := all path walk
    have inside := Walk.edges walk edge own
    exact invalid (valid edge.1 inside.declared inside.2)

variable (available epoch) in
theorem resolve_cases (different : start ≠ target) :
    (∃ chain path, resolveTransformChain available start target epoch = .ok chain ∧
        Resolved available epoch start target chain path) ∨
      (∃ error, resolveTransformChain available start target epoch = .error error) ∧
        Unresolved available epoch start target := by
  rw [resolveTransformChain]
  by_cases nil : start.isNil = true ∨ target.isNil = true
  · rw [if_pos nil]
    exact .inr ⟨⟨_, rfl⟩, unresolved_of_invalid fun path walk => nil_invalid different nil walk⟩
  · rw [if_neg nil, if_neg different]
    by_cases stale : ∀ transform ∈ available, transform.environmentEpoch ≠ epoch
    · rw [if_pos stale]
      refine .inr ⟨⟨_, rfl⟩, unresolved_of_invalid fun path walk => ?_⟩
      cases path with
      | nil => exact absurd walk different
      | cons edge rest => exact absurd walk.1.2 (stale edge.1 walk.1.declared)
    · rw [if_neg stale]
      have between : Between available epoch start target [] _ _ := between_start different
      rcases chainSearch_ends (available.length + 2) between (by simp) with
        ⟨found, seen, expanded, label, labelled⟩ | ⟨missing, none_⟩
      · rw [if_neg (by simp [found])]
        have first := labelled.paths target seen
        have present := first.present different
        have short := labelled.short target seen
        rcases traceBack_runs labelled _ seen (Nat.lt_succ_of_le short)
          { fromSpace := start, toSpace := target, environmentEpoch := epoch } with
          ⟨valid, back⟩ | ⟨⟨edge, own, invalid⟩, error, failed⟩
        · rw [back]
          obtain ⟨_, worst, which⟩ := addEdges_quality (label target)
            { fromSpace := start, toSpace := target, environmentEpoch := epoch }
          refine .inl ⟨_, label target, rfl, first, valid, ⟨first.walk, fun other walk =>
            length_le_of_rank (first.least other walk), ?_, ?_, worst, ?_⟩, ?_⟩
          · dsimp only
            rw [addEdges_indices, List.nil_append, List.reverse_reverse]
          · dsimp only
            rw [addEdges_error, zero_add]
          · rcases which with same | attained
            · obtain ⟨edge, rest, parts⟩ := List.exists_cons_of_ne_nil present
              have own : edge ∈ label target := by
                rw [parts]
                exact List.mem_cons_self
              have low := worst edge own
              rw [same] at low
              change edge.1.quality.rank ≤ 0 at low
              refine ⟨edge, own, ?_⟩
              rw [same]
              cases quality : edge.1.quality with
              | exact => rfl
              | _ =>
                  rw [quality] at low
                  exact absurd low (by decide)
            · exact attained
          · dsimp only
            rw [addEdges_composed, mul_one]
        · rw [failed]
          refine .inr ⟨⟨_, rfl⟩, fun path other => ?_, fun valid _ => ?_⟩
          · rw [other.unique first]
            exact ⟨edge, own, invalid⟩
          · have inside := Walk.edges first.walk edge own
            exact invalid (valid edge.1 inside.declared inside.2)
      · rw [if_pos missing]
        exact .inr ⟨⟨_, rfl⟩, unresolved_of_invalid fun path walk => absurd ⟨path, walk⟩ none_⟩

theorem apply_mul {a b : Matrix3x3} {point middle : PointF}
    (moved : Matrix3x3.apply b point = some middle) :
    Matrix3x3.apply (a * b) point = Matrix3x3.apply a middle := by
  rw [Matrix3x3.apply] at moved
  split at moved
  next => cases moved
  next finite =>
      have x := congrArg PointF.x (Option.some.inj moved)
      have y := congrArg PointF.y (Option.some.inj moved)
      dsimp only at x y
      have row (i : Fin 3) : (a * b) i 0 * point.x + (a * b) i 1 * point.y + (a * b) i 2 =
          (b 2 0 * point.x + b 2 1 * point.y + b 2 2) *
            (a i 0 * middle.x + a i 1 * middle.y + a i 2) := by
        simp only [Matrix.mul_apply, Fin.sum_univ_three]
        linear_combination a i 0 * (div_eq_iff finite).mp x + a i 1 * (div_eq_iff finite).mp y
      rw [Matrix3x3.apply, Matrix3x3.apply, row 0, row 1, row 2]
      by_cases gone : a 2 0 * middle.x + a 2 1 * middle.y + a 2 2 = 0
      · rw [gone, mul_zero, if_pos rfl, if_pos rfl]
      · rw [if_neg (mul_ne_zero finite gone), if_neg gone, mul_div_mul_left _ _ finite,
          mul_div_mul_left _ _ finite]

theorem origin_kept (point : PointF) : Matrix3x3.apply 1 point = some point := by
  rw [Matrix3x3.apply]
  simp

theorem movePoint_eq {edges : List CoordinateTransform} {point out : PointF} (m : Matrix3x3)
    {origin : PointF} (so_far : Matrix3x3.apply m origin = some point)
    (moved : movePoint edges point = .ok out) :
    Matrix3x3.apply ((edges.map CoordinateTransform.matrix).reverse.prod * m) origin =
      some out := by
  induction edges generalizing point m with
  | nil =>
      cases moved
      simpa using so_far
  | cons edge rest ih =>
      rw [movePoint] at moved
      split at moved
      next => cases moved
      next =>
          split at moved
          next => cases moved
          next next_ step =>
              split at moved
              next => cases moved
              next =>
                  have both := ih (edge.matrix * m) ((apply_mul so_far).trans step) moved
                  rw [List.map_cons, List.reverse_cons, List.prod_append, List.prod_singleton,
                    mul_assoc]
                  exact both

theorem orderedChainEdges_eq {chain : TransformChain}
    (own : ∀ edge ∈ path, edge ∈ available.zipIdx) (present : path ≠ [])
    (indices : chain.transformIndices = path.map Prod.snd) :
    orderedChainEdges available chain = .ok (path.map Prod.fst) := by
  have all : (path.map Prod.snd).mapM (fun index => available[index]?) =
      some (path.map Prod.fst) := by
    clear present indices
    induction path with
    | nil => rfl
    | cons edge rest ih =>
        obtain ⟨first, others⟩ := List.forall_mem_cons.mp own
        rw [List.mem_zipIdx_iff_getElem?] at first
        rw [List.map_cons, List.mapM_cons, first, ih others]
        rfl
  rw [orderedChainEdges, indices, all]
  cases path with
  | nil => exact absurd rfl present
  | cons edge rest => rfl

/-- The right product maps the points that pass through as the edges do. -/
theorem points_of_product {chain : TransformChain}
    (chainOf : ChainOf available epoch start target chain path) (present : path ≠ [])
    (product : chain.composed = (path.map fun edge => edge.1.matrix).reverse.prod) :
    Composes available chain path where
  product := product
  points point out passed := by
    have own : ∀ edge ∈ path, edge ∈ available.zipIdx :=
      fun edge own => (Walk.edges chainOf.walk edge own).1
    rw [transformPointThrough, orderedChainEdges_eq own present chainOf.indices] at passed
    split at passed
    next => cases passed
    next =>
        dsimp only at passed
        cases moved : movePoint (path.map Prod.fst) point with
        | error error =>
            rw [moved] at passed
            cases passed
        | ok last =>
            rw [moved] at passed
            have whole := movePoint_eq 1 (origin_kept point) moved
            rw [List.map_map, mul_one] at whole
            cases passed
            rw [product]
            exact whole

/-- A resolved chain is the mapping that it stands for exactly where the matrices of the first
shortest path have the same product in both orders. -/
theorem chain_meant_iff (different : start ≠ target) :
    ChainMeant available epoch start target ↔
      ∀ path, FirstShortest available epoch start path target →
        (∀ edge ∈ path, validateCoordinateTransform edge.1 = .ok ()) →
          (path.map fun edge => edge.1.matrix).prod =
            (path.map fun edge => edge.1.matrix).reverse.prod := by
  rcases resolve_cases available epoch different with ⟨chain, path, resolved, facts⟩ |
    ⟨⟨error, failed⟩, unresolved⟩
  · have present := facts.first.present different
    constructor
    · intro meant other first _
      obtain ⟨same, chainOf, composes⟩ := meant.resolved chain resolved
      have indices := chainOf.indices.symm.trans facts.chainOf.indices
      have equal := path_eq (fun edge own => (Walk.edges chainOf.walk edge own).1)
        (fun edge own => (Walk.edges facts.first.walk edge own).1) indices
      rw [first.unique facts.first, ← facts.product, composes.product, equal]
    · intro commutes
      constructor
      · intro other found
        rw [resolved] at found
        cases found
        have product := facts.product.trans (commutes path facts.first facts.valid)
        exact ⟨path, facts.chainOf, points_of_product facts.chainOf present product⟩
      · intro _ error failed
        rw [resolved] at failed
        cases failed
  · constructor
    · intro _ path first valid
      obtain ⟨edge, own, invalid⟩ := unresolved.invalid path first
      exact absurd (valid edge own) invalid
    · intro _
      constructor
      · intro chain found
        rw [failed] at found
        cases found
      · exact fun valid _ _ => unresolved.unreachable valid

def spaceId (last : UInt8) : Id128 := ⟨List.replicate 15 0 ++ [last], rfl⟩

def scaling : CoordinateTransform where
  fromSpace := spaceId 1
  toSpace := spaceId 2
  matrix := !![2, 0, 0; 0, 2, 0; 0, 0, 1]
  validSourceRegion := ⟨0, 0, 10, 10⟩
  validTargetRegion := ⟨0, 0, 20, 20⟩

def shift : CoordinateTransform where
  fromSpace := spaceId 2
  toSpace := spaceId 3
  matrix := !![1, 0, 5; 0, 1, 0; 0, 0, 1]
  validSourceRegion := ⟨0, 0, 20, 20⟩
  validTargetRegion := ⟨5, 0, 25, 20⟩

/-- The same scaling of the spaces after it. -/
def rescaling : CoordinateTransform :=
  { scaling with
    fromSpace := spaceId 2
    toSpace := spaceId 3
    validSourceRegion := ⟨0, 0, 20, 20⟩
    validTargetRegion := ⟨0, 0, 40, 40⟩ }

theorem scalings_meant : ChainMeant [scaling, rescaling] 0 (spaceId 1) (spaceId 3) := by
  refine (chain_meant_iff (by decide)).mpr fun path first _ => ?_
  have equal : (path.map fun edge => edge.1.matrix) =
      List.replicate path.length scaling.matrix := by
    refine List.eq_replicate_iff.mpr ⟨List.length_map _, fun matrix held => ?_⟩
    obtain ⟨edge, own, rfl⟩ := List.mem_map.mp held
    have known := List.fst_mem_of_mem_zipIdx (Walk.edges first.walk edge own).1
    rcases List.mem_pair.mp known with same | same
    · rw [same]
    · rw [same]
      rfl
  rw [equal, List.reverse_replicate]

/-- The shift is applied before the scaling. -/
theorem shift_scaled : ¬ ChainMeant [scaling, shift] 0 (spaceId 1) (spaceId 3) := by
  intro meant
  have off : (match resolveTransformChain [scaling, shift] (spaceId 1) (spaceId 3) 0 with
      | .ok chain =>
          match transformPointThrough [scaling, shift] chain ⟨1, 1⟩ with
          | .ok out => decide (Matrix3x3.apply chain.composed ⟨1, 1⟩ ≠ some out.point)
          | .error _ => false
      | .error _ => false) = true := by
    decide +kernel
  split at off
  next chain resolved =>
      obtain ⟨path, _, composes⟩ := meant.resolved chain resolved
      split at off
      next out passed => exact of_decide_eq_true off (composes.points _ out passed)
      next => cases off
  next => cases off

end Mira.Observation
