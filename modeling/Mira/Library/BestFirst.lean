import Mathlib

/-!
Best-first search in a graph. A path is a list of edges, and paths are ranked in a linear order.
While the search goes on, every settled state has a path, and every edge out of a settled state
leads to a settled one or gave a path of the frontier, at least where it is one of the leading
edges. Then the least path of the frontier ranks below all paths of leading edges to a state that
is not settled, as far as the rank is kept when two paths are extended by one edge.
-/

namespace BestFirst

variable {σ ε : Type*} (source target : ε → σ) (usable : ε → Prop)

/-- The edges lead from one state to another. -/
def Walk : σ → List ε → σ → Prop
  | start, [], finish => start = finish
  | start, edge :: rest, finish =>
      usable edge ∧ source edge = start ∧ Walk (target edge) rest finish

def visited (start : σ) (path : List ε) : List σ := start :: path.map target

/-- No state is visited twice. -/
def Simple (start : σ) (path : List ε) : Prop := (visited target start path).Nodup

variable {source target usable} {start finish state : σ} {path rest : List ε} {edge : ε}

theorem walk_append : Walk source target usable start (path ++ rest) finish ↔
    ∃ middle, Walk source target usable start path middle ∧
      Walk source target usable middle rest finish := by
  induction path generalizing start with
  | nil => exact ⟨fun walk => ⟨start, rfl, walk⟩, fun ⟨_, same, walk⟩ => same ▸ walk⟩
  | cons edge more ih =>
      simp only [List.cons_append, Walk, ih]
      constructor
      · intro walk
        obtain ⟨used, here, middle, first, second⟩ := walk
        exact ⟨middle, ⟨used, here, first⟩, second⟩
      · intro walk
        obtain ⟨middle, ⟨used, here, first⟩, second⟩ := walk
        exact ⟨used, here, middle, first, second⟩

theorem walk_snoc : Walk source target usable start (path ++ [edge]) finish ↔
    Walk source target usable start path (source edge) ∧ usable edge ∧ target edge = finish := by
  rw [walk_append]
  constructor
  · intro walk
    obtain ⟨middle, first, used, here, last⟩ := walk
    exact ⟨here ▸ first, used, last⟩
  · intro walk
    obtain ⟨first, used, last⟩ := walk
    exact ⟨_, first, used, rfl, last⟩

theorem walk_unique (one : Walk source target usable start path finish)
    (other : Walk source target usable start path state) : finish = state := by
  induction path generalizing start with
  | nil => exact one.symm.trans other
  | cons edge more ih => exact ih one.2.2 other.2.2

theorem Walk.edges (walk : Walk source target usable start path finish) :
    ∀ edge ∈ path, usable edge := by
  induction path generalizing start with
  | nil => exact fun edge never => (List.not_mem_nil never).elim
  | cons edge more ih => exact List.forall_mem_cons.mpr ⟨walk.1, ih walk.2.2⟩

theorem Walk.mono {lead : ε → Prop} (walk : Walk source target usable start path finish)
    (leads : ∀ edge ∈ path, usable edge → lead edge) :
    Walk source target lead start path finish := by
  induction path generalizing start with
  | nil => exact walk
  | cons edge more ih =>
      obtain ⟨first, others⟩ := List.forall_mem_cons.mp leads
      exact ⟨first walk.1, walk.2.1, ih walk.2.2 others⟩

theorem walk_visits (walk : Walk source target usable start path finish) :
    finish ∈ visited target start path := by
  induction path generalizing start with
  | nil => exact List.mem_singleton.mpr walk.symm
  | cons edge more ih => exact List.mem_cons_of_mem _ (ih walk.2.2)

theorem visited_snoc :
    visited target start (path ++ [edge]) = visited target start path ++ [target edge] := by
  rw [visited, visited, List.map_append, List.cons_append]
  rfl

theorem Simple.shorter (simple : Simple target start (path ++ [edge])) :
    Simple target start path := by
  rw [Simple, visited_snoc] at simple
  exact (List.nodup_append'.mp simple).1

theorem Simple.longer (simple : Simple target start path)
    (fresh : target edge ∉ visited target start path) : Simple target start (path ++ [edge]) := by
  rw [Simple, visited_snoc]
  exact List.nodup_append'.mpr ⟨simple, List.nodup_singleton _,
    List.disjoint_singleton.mpr fresh⟩

/-- A simple path does not come back to a state that it has left. -/
theorem Simple.no_return (simple : Simple target start (path ++ rest)) (more : rest ≠ [])
    (here : Walk source target usable start path state)
    (again : Walk source target usable start (path ++ rest) state) : False := by
  obtain ⟨middle, first, second⟩ := walk_append.mp again
  have same := walk_unique here first
  subst same
  have late : state ∈ rest.map target := by
    cases rest with
    | nil => exact absurd rfl more
    | cons edge later => exact walk_visits second.2.2
  rw [Simple, visited, List.map_append, ← List.cons_append] at simple
  exact (List.nodup_append'.mp simple).2.2 (walk_visits here) late

/-- Every leading edge out of a settled state was offered. -/
structure Closed (source target : ε → σ) (lead : ε → Prop) (start : σ) (settled : σ → Prop)
    (label : σ → List ε) (frontier : List (List ε)) : Prop where
  starts : settled start ∨ [] ∈ frontier
  offered : ∀ edge, lead edge → settled (source edge) →
    settled (target edge) ∨ label (source edge) ++ [edge] ∈ frontier

variable {lead : ε → Prop} {settled : σ → Prop} {label : σ → List ε} {frontier : List (List ε)}

/-- A path to a settled state may leave the frontier. -/
theorem Closed.skip (closed : Closed source target lead start settled label frontier)
    (walk : Walk source target usable start path finish) (here : settled finish)
    {others : List (List ε)} (parts : ∀ other ∈ frontier, other = path ∨ other ∈ others) :
    Closed source target lead start settled label others where
  starts := by
    rcases closed.starts with done | offered
    · exact .inl done
    · cases parts [] offered with
      | inl own =>
          subst own
          exact .inl (walk ▸ here)
      | inr kept => exact .inr kept
  offered edge used left := by
    rcases closed.offered edge used left with done | offered
    · exact .inl done
    · cases parts _ offered with
      | inl own =>
          rw [← own] at walk
          exact .inl ((walk_snoc.mp walk).2.2 ▸ here)
      | inr kept => exact .inr kept

/-- A path of the frontier settles its state once all leading edges out of that state are
offered. -/
theorem Closed.settle (closed : Closed source target lead start settled label frontier)
    (walk : Walk source target usable start path finish) {others next : List (List ε)}
    (parts : ∀ other ∈ frontier, other = path ∨ other ∈ others)
    (kept : ∀ other ∈ others, other ∈ next)
    (new : ∀ edge, lead edge → source edge = finish → path ++ [edge] ∈ next)
    {settled' : σ → Prop} (grown : ∀ state, settled' state ↔ settled state ∨ state = finish)
    {label' : σ → List ε} (own : label' finish = path)
    (old : ∀ state, settled state → label' state = label state) :
    Closed source target lead start settled' label' next where
  starts := by
    rcases closed.starts with done | offered
    · exact .inl ((grown _).mpr (.inl done))
    · cases parts [] offered with
      | inl same =>
          subst same
          exact .inl ((grown _).mpr (.inr walk))
      | inr other => exact .inr (kept _ other)
  offered edge used left := by
    cases (grown _).mp left with
    | inr here =>
        rw [here, own]
        exact .inr (new edge used here)
    | inl before =>
        rw [old _ before]
        rcases closed.offered edge used before with done | offered
        · exact .inl ((grown _).mpr (.inl done))
        · cases parts _ offered with
          | inl same =>
              rw [← same] at walk
              exact .inl ((grown _).mpr (.inr (walk_snoc.mp walk).2.2))
          | inr other => exact .inr (kept _ other)

/-- A search that has run out of paths has settled all states that leading
edges reach. -/
theorem Closed.reaches (closed : Closed source target lead start settled label [])
    (walk : Walk source target lead start path finish) : settled finish := by
  induction path using List.reverseRecOn generalizing finish with
  | nil =>
      cases closed.starts with
      | inl here => exact walk ▸ here
      | inr never => cases never
  | append_singleton path edge ih =>
      obtain ⟨first, used, rfl⟩ := walk_snoc.mp walk
      cases closed.offered edge used (ih first) with
      | inl here => exact here
      | inr never => cases never

section
variable {ρ : Type*} [LinearOrder ρ] {rank : List ε → ρ} {good : List ε → Prop}

/-- The rank grows along a path and is kept when two paths to one state are extended, at least
where the second path stays good. -/
structure Ranked (source target : ε → σ) (usable : ε → Prop) (start : σ) (rank : List ε → ρ)
    (good : List ε → Prop) : Prop where
  shorter : ∀ path edge, good (path ++ [edge]) → good path
  grows : ∀ path edge, usable edge → rank path ≤ rank (path ++ [edge])
  kept : ∀ first second edge, Walk source target usable start first (source edge) →
    Walk source target usable start second (source edge) → usable edge → good (second ++ [edge]) →
      rank first ≤ rank second → rank (first ++ [edge]) ≤ rank (second ++ [edge])

/-- The path ranks below all good paths of leading edges to where it leads. -/
def Least (source target : ε → σ) (lead : ε → Prop) (start : σ) (rank : List ε → ρ)
    (good : List ε → Prop) (path : List ε) (finish : σ) : Prop :=
  ∀ other, Walk source target lead start other finish → good other → rank path ≤ rank other

theorem Closed.least (closed : Closed source target lead start settled label frontier)
    (ranked : Ranked source target usable start rank good) (leads : ∀ edge, lead edge → usable edge)
    (labels : ∀ state, settled state → Walk source target usable start (label state) state ∧
      Least source target lead start rank good (label state) state)
    (first : ∀ other ∈ frontier, rank path ≤ rank other) (open_ : ¬ settled finish) :
    Least source target lead start rank good path finish := by
  intro other
  induction other using List.reverseRecOn generalizing finish with
  | nil =>
      intro walk _
      cases closed.starts with
      | inl here => exact absurd (walk ▸ here) open_
      | inr offered => exact first [] offered
  | append_singleton other edge ih =>
      intro walk fine
      obtain ⟨before, used, rfl⟩ := walk_snoc.mp walk
      by_cases here : settled (source edge)
      · obtain ⟨own, least⟩ := labels _ here
        cases closed.offered edge used here with
        | inl done => exact absurd done open_
        | inr offered =>
            have same := before.mono fun edge _ leading => leads edge leading
            exact (first _ offered).trans (ranked.kept _ _ edge own same (leads edge used) fine
              (least other before (ranked.shorter _ _ fine)))
      · exact (ih here before (ranked.shorter _ _ fine)).trans (ranked.grows other edge
          (leads edge used))

end

/-- A list is a front of another one that it precedes, or it precedes every way to go on. -/
theorem front_or_before {ρ : Type} [LinearOrder ρ] {first second : List ρ} (less : first < second) :
    (∃ more, more ≠ [] ∧ second = first ++ more) ∨
      ∀ rest rest', first ++ rest < second ++ rest' := by
  induction first generalizing second with
  | nil =>
      cases second with
      | nil => exact absurd less (lt_irrefl _)
      | cons key more => exact .inl ⟨_, List.cons_ne_nil key more, rfl⟩
  | cons key more ih =>
      cases second with
      | nil => cases less
      | cons key' more' =>
          rw [List.cons_lt_cons_iff] at less
          rcases less with below | ⟨rfl, later⟩
          · refine .inr fun rest rest' => ?_
            rw [List.cons_append, List.cons_append, List.cons_lt_cons_iff]
            exact .inl below
          · rcases ih later with ⟨tail, some_, rfl⟩ | before
            · exact .inl ⟨tail, some_, rfl⟩
            · refine .inr fun rest rest' => ?_
              rw [List.cons_append, List.cons_append, List.cons_lt_cons_iff]
              exact .inr ⟨rfl, before rest rest'⟩

end BestFirst
