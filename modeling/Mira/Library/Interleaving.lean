import Mira.Library.Execution
import Mathlib.Data.List.Perm.Basic

/-!
Threads that take turns on a shared state. A thread is where its program stands; a turn runs it
to its next point, changes the shared state and leaves threads in its place: itself at that
point, none when it has ended, and those it started. Calls add threads at the entries of their
programs. The scheduler picks a thread by its place, so an invariant is proved of any thread
beside the others, in whatever order these stand.
-/

namespace Interleaving

variable {σ π κ ι : Type*}

structure Pool (σ π : Type*) where
  shared : σ
  threads : List π

inductive Turn (κ ι : Type*)
  | call (entry : κ)
  | turn (index : Nat) (answer : ι)

/-- The threads with others in the place of one of them. -/
def replaceAt (threads : List π) (index : Nat) (next : List π) : List π :=
  threads.take index ++ next ++ threads.drop (index + 1)

def takeTurn (enter : κ → π) (advance : σ → π → ι → σ × List π) (pool : Pool σ π) :
    Turn κ ι → Pool σ π × Unit
  | .call entry => ({ pool with threads := enter entry :: pool.threads }, ())
  | .turn index answer =>
      match pool.threads[index]? with
      | none => (pool, ())
      | some thread =>
          let next := advance pool.shared thread answer
          (⟨next.1, replaceAt pool.threads index next.2⟩, ())

/-- A condition on a thread that takes its turn beside the others. -/
def TurnGuard (guard : σ → π → List π → ι → Prop) (pool : Pool σ π) : Turn κ ι → Prop
  | .call _ => True
  | .turn index answer =>
      ∀ thread, pool.threads[index]? = some thread →
        guard pool.shared thread (pool.threads.eraseIdx index) answer

instance decidableTurnGuard (guard : σ → π → List π → ι → Prop)
    [∀ shared thread others answer, Decidable (guard shared thread others answer)]
    (pool : Pool σ π) : ∀ turn : Turn κ ι, Decidable (TurnGuard guard pool turn)
  | .call _ => .isTrue trivial
  | .turn index answer =>
      match found : pool.threads[index]? with
      | none => .isTrue fun thread present => by cases found.symm.trans present
      | some thread =>
          decidable_of_iff (guard pool.shared thread (pool.threads.eraseIdx index) answer)
            ⟨fun held other present => Option.some.inj (found.symm.trans present) ▸ held,
              fun held => held thread found⟩

theorem perm_cons_eraseIdx {threads : List π} {index : Nat} {thread : π}
    (present : threads[index]? = some thread) :
    (thread :: threads.eraseIdx index).Perm threads := by
  induction threads generalizing index with
  | nil => cases present
  | cons first rest ih =>
      cases index with
      | zero =>
          cases present
          exact .refl _
      | succ index =>
          rw [List.eraseIdx_cons_succ]
          exact (List.Perm.swap first thread _).trans ((ih present).cons first)

theorem perm_replaceAt {threads : List π} (index : Nat) (next : List π) :
    (next ++ threads.eraseIdx index).Perm (replaceAt threads index next) := by
  rw [replaceAt, List.eraseIdx_eq_take_drop_succ, ← List.append_assoc]
  exact List.Perm.append_right _ List.perm_append_comm

variable {enter : κ → π} {advance : σ → π → ι → σ × List π}

/-- The invariant rule: calls keep the invariant, and so does the turn of a thread beside any
others. -/
theorem run_invariant (guard : σ → π → List π → ι → Prop) (inv : σ → List π → Prop)
    (shuffled : ∀ shared first second, first.Perm second → inv shared first → inv shared second)
    (called : ∀ shared threads entry, inv shared threads → inv shared (enter entry :: threads))
    (turned : ∀ shared thread others answer, guard shared thread others answer →
      inv shared (thread :: others) →
        inv (advance shared thread answer).1 ((advance shared thread answer).2 ++ others))
    (pool : Pool σ π) (turns : List (Turn κ ι)) (start : inv pool.shared pool.threads)
    (guarded : Execution.Guarded (takeTurn enter advance) (TurnGuard guard) pool turns) :
    inv (Execution.run (takeTurn enter advance) pool turns).shared
      (Execution.run (takeTurn enter advance) pool turns).threads := by
  refine Execution.run_invariant (takeTurn enter advance) (TurnGuard guard)
    (fun pool => inv pool.shared pool.threads) ?_ pool turns start guarded
  intro pool turn allowed held
  cases turn with
  | call entry => exact called _ _ entry held
  | turn index answer =>
      rw [takeTurn]
      split
      · exact held
      · next thread present =>
          have own := turned pool.shared thread (pool.threads.eraseIdx index) answer
            (allowed thread present)
            (shuffled _ _ _ (perm_cons_eraseIdx present).symm held)
          exact shuffled _ _ _ (perm_replaceAt index _) own

theorem guarded_of_forall {guard : σ → π → List π → ι → Prop}
    (always : ∀ shared thread others answer, guard shared thread others answer)
    (pool : Pool σ π) (turns : List (Turn κ ι)) :
    Execution.Guarded (takeTurn enter advance) (TurnGuard guard) pool turns := by
  induction turns generalizing pool with
  | nil => exact trivial
  | cons turn rest ih =>
      refine ⟨?_, ih _⟩
      cases turn with
      | call entry => exact trivial
      | turn index answer => exact fun thread _ => always _ _ _ _

theorem guarded_and {first second : σ → π → List π → ι → Prop} {pool : Pool σ π}
    {turns : List (Turn κ ι)}
    (one : Execution.Guarded (takeTurn enter advance) (TurnGuard first) pool turns)
    (other : Execution.Guarded (takeTurn enter advance) (TurnGuard second) pool turns) :
    Execution.Guarded (takeTurn enter advance)
      (TurnGuard fun shared thread others answer =>
        first shared thread others answer ∧ second shared thread others answer) pool turns := by
  induction turns generalizing pool with
  | nil => exact trivial
  | cons turn rest ih =>
      refine ⟨?_, ih one.2 other.2⟩
      cases turn with
      | call entry => exact trivial
      | turn index answer =>
          exact fun thread present => ⟨one.1 thread present, other.1 thread present⟩

/-!
A state that at most one thread has at a time. The owner keeps a fact about the state at each of
its points and leaves another behind when it lets go; the threads that are not the owner keep
both, or take the state over when nobody has it. Invariants of this form are proved of the
owner's program alone.
-/

variable {σ π κ ι : Type*} (owns : π → Bool) (idle : σ → Prop) (held : σ → π → Prop)

/-- The state with its owner among the threads, if there is one. -/
def Owned (shared : σ) (threads : List π) : Prop :=
  (threads.filter owns = [] ∧ idle shared) ∨
    ∃ owner, threads.filter owns = [owner] ∧ held shared owner

variable {owns idle held}

theorem Owned.perm {shared : σ} {first second : List π} (shuffled : first.Perm second)
    (owned : Owned owns idle held shared first) : Owned owns idle held shared second := by
  have same := shuffled.filter owns
  cases owned with
  | inl free =>
      rw [free.1] at same
      exact .inl ⟨same.nil_eq.symm, free.2⟩
  | inr taken =>
      obtain ⟨owner, only, has⟩ := taken
      rw [only] at same
      exact .inr ⟨owner, same.symm.eq_singleton, has⟩

theorem Owned.has {shared : σ} {thread : π} {others : List π} (own : owns thread = true)
    (owned : Owned owns idle held shared (thread :: others)) :
    held shared thread ∧ others.filter owns = [] := by
  rw [Owned, List.filter_cons_of_pos own] at owned
  cases owned with
  | inl free => cases free.1
  | inr taken =>
      obtain ⟨owner, only, has⟩ := taken
      obtain ⟨rfl, rest⟩ := List.cons.inj only
      exact ⟨has, rest⟩

theorem owned_append {shared : σ} {threads others : List π} (free : others.filter owns = []) :
    Owned owns idle held shared (threads ++ others) ↔ Owned owns idle held shared threads := by
  rw [Owned, Owned, List.filter_append, free, List.append_nil]

theorem owned_outside {shared : σ} (threads : List π) {others : List π}
    (outside : ∀ thread ∈ threads, owns thread = false) :
    Owned owns idle held shared (threads ++ others) ↔ Owned owns idle held shared others := by
  have none : threads.filter owns = [] :=
    List.filter_eq_nil_iff.2 fun thread among => by simp [outside thread among]
  rw [Owned, Owned, List.filter_append, none, List.nil_append]

variable {enter : κ → π} {advance : σ → π → ι → σ × List π}

/-- What a thread that does not own the state may do: leave it to its owner, or take it over. -/
def KeepsOut (owns : π → Bool) (idle : σ → Prop) (held : σ → π → Prop) (shared : σ)
    (others : List π) (result : σ × List π) : Prop :=
  ((∀ next ∈ result.2, owns next = false) ∧ (idle shared → idle result.1) ∧
      ∀ owner, owns owner = true → held shared owner → held result.1 owner) ∨
    (others.filter owns = [] ∧ (idle shared → Owned owns idle held result.1 result.2))

theorem run_owned (guard : σ → π → List π → ι → Prop)
    (called : ∀ entry, owns (enter entry) = false)
    (outside : ∀ shared thread others answer, guard shared thread others answer →
      owns thread = false →
        KeepsOut owns idle held shared others (advance shared thread answer))
    (inside : ∀ shared thread others answer, guard shared thread others answer →
      owns thread = true → held shared thread →
        Owned owns idle held (advance shared thread answer).1 (advance shared thread answer).2)
    (pool : Pool σ π) (turns : List (Turn κ ι))
    (start : Owned owns idle held pool.shared pool.threads)
    (guarded : Execution.Guarded (takeTurn enter advance) (TurnGuard guard) pool turns) :
    Owned owns idle held (Execution.run (takeTurn enter advance) pool turns).shared
      (Execution.run (takeTurn enter advance) pool turns).threads := by
  refine run_invariant guard (Owned owns idle held) ?_ ?_ ?_ pool turns start guarded
  · intro shared first second shuffled owned
    exact owned.perm shuffled
  · intro shared threads entry owned
    exact (owned_outside [enter entry] (by simpa using called entry)).2 owned
  · intro shared thread others answer held_ owned
    cases own : owns thread with
    | true =>
        obtain ⟨has, free⟩ := owned.has own
        exact (owned_append free).2 (inside shared thread others answer held_ own has)
    | false =>
        have rest : Owned owns idle held shared others :=
          (owned_outside [thread] (by simpa using own)).1 owned
        cases outside shared thread others answer held_ own with
        | inl keeps =>
            obtain ⟨nexts, idles, holds⟩ := keeps
            rw [owned_outside _ nexts]
            cases rest with
            | inl free => exact .inl ⟨free.1, idles free.2⟩
            | inr taken =>
                obtain ⟨owner, only, has⟩ := taken
                have among : owner ∈ others.filter owns := by simp [only]
                exact .inr ⟨owner, only, holds owner (List.mem_filter.1 among).2 has⟩
        | inr takes =>
            obtain ⟨free, taken⟩ := takes
            rw [owned_append free]
            cases rest with
            | inl idling => exact taken idling.2
            | inr owned =>
                obtain ⟨owner, only, _⟩ := owned
                cases free.symm.trans only

theorem guarded_invariant (guard : σ → π → List π → ι → Prop) (inv : σ → List π → Prop)
    (shuffled : ∀ shared first second, first.Perm second → inv shared first → inv shared second)
    (reached : ∀ turns : List (Turn κ ι), ∀ pool : Pool σ π, inv pool.shared pool.threads →
      Execution.Guarded (takeTurn enter advance) (TurnGuard guard) pool turns →
        inv (Execution.run (takeTurn enter advance) pool turns).shared
          (Execution.run (takeTurn enter advance) pool turns).threads)
    (pool : Pool σ π) (turns : List (Turn κ ι)) (start : inv pool.shared pool.threads)
    (guarded : Execution.Guarded (takeTurn enter advance) (TurnGuard guard) pool turns) :
    Execution.Guarded (takeTurn enter advance)
      (TurnGuard fun shared thread others answer =>
        guard shared thread others answer ∧ inv shared (thread :: others)) pool turns := by
  induction turns generalizing pool with
  | nil => exact trivial
  | cons turn rest ih =>
      refine ⟨?_, ih _ (reached [turn] pool start ⟨guarded.1, trivial⟩) guarded.2⟩
      cases turn with
      | call entry => exact trivial
      | turn index answer =>
          intro thread present
          exact ⟨guarded.1 thread present,
            shuffled _ _ _ (perm_cons_eraseIdx present).symm start⟩

end Interleaving

namespace Slots

variable {α : Type*}

def pick (entries : List α) (test : Nat → Bool) : List α :=
  (entries.zipIdx.filter fun entry => test entry.2).map Prod.fst

theorem filter_zipIdx_perm {entries : List α} {index : Nat} {entry : α} (start : Nat)
    (found : entries[index]? = some entry) (test : Nat → Bool)
    (passes : test (start + index) = true) :
    ((entries.zipIdx start).filter fun other => test other.2).Perm
      ((entry, start + index) ::
        (entries.zipIdx start).filter fun other => test other.2 && other.2 != start + index) := by
  induction entries generalizing start index with
  | nil => cases found
  | cons first rest ih =>
      rw [List.zipIdx_cons]
      cases index with
      | zero =>
          cases found
          rw [Nat.add_zero] at passes ⊢
          rw [List.filter_cons_of_pos (by exact passes), List.filter_cons_of_neg (by simp)]
          refine List.Perm.cons _ (List.Perm.of_eq (List.filter_congr fun other among => ?_))
          have later : start + 1 ≤ other.2 := List.le_snd_of_mem_zipIdx among
          have differs : other.2 ≠ start := by omega
          simp [differs]
      | succ index =>
          have shifted : start + 1 + index = start + (index + 1) := by omega
          have moved := ih (start + 1) found (by rwa [shifted])
          rw [shifted] at moved
          have differs : start ≠ start + (index + 1) := by omega
          cases here : test start with
          | true =>
              rw [List.filter_cons_of_pos (by exact here),
                List.filter_cons_of_pos (by simp [here])]
              exact (moved.cons _).trans (List.Perm.swap _ _ _)
          | false =>
              rw [List.filter_cons_of_neg (by simp [here]),
                List.filter_cons_of_neg (by simp [here])]
              exact moved

theorem pick_perm {entries : List α} {index : Nat} {entry : α} (found : entries[index]? = some entry)
    (test : Nat → Bool) (passes : test index = true) :
    (pick entries test).Perm (entry :: pick entries fun slot => test slot && slot != index) := by
  have moved := filter_zipIdx_perm 0 found test (by rwa [Nat.zero_add])
  rw [Nat.zero_add] at moved
  exact moved.map Prod.fst

theorem pick_congr {entries : List α} {test other : Nat → Bool}
    (same : ∀ index < entries.length, test index = other index) :
    pick entries test = pick entries other := by
  rw [pick, pick]
  refine congrArg _ (List.filter_congr fun entry among => ?_)
  exact same entry.2 (by simpa using List.snd_lt_of_mem_zipIdx among)

theorem filter_zipIdx_congr {entries others : List α} (start : Nat) {test : Nat → Bool}
    (size : entries.length = others.length)
    (same : ∀ index, test (start + index) = true → entries[index]? = others[index]?) :
    (entries.zipIdx start).filter (fun entry => test entry.2) =
      (others.zipIdx start).filter fun entry => test entry.2 := by
  induction entries generalizing others start with
  | nil =>
      rw [List.length_nil] at size
      rw [List.length_eq_zero_iff.mp size.symm]
  | cons first rest ih =>
      cases others with
      | nil => cases size
      | cons second others =>
          rw [List.zipIdx_cons, List.zipIdx_cons]
          have later := ih (start + 1) (Nat.succ.inj size) fun index passes =>
            same (index + 1) (by rwa [show start + (index + 1) = start + 1 + index by omega])
          cases here : test start with
          | true =>
              have equal : some first = some second := same 0 here
              cases equal
              rw [List.filter_cons_of_pos (by exact here), List.filter_cons_of_pos (by exact here),
                later]
          | false =>
              rw [List.filter_cons_of_neg (by simp [here]), List.filter_cons_of_neg (by simp [here]),
                later]

theorem pick_sublist {entries others : List α} {test : Nat → Bool}
    (size : entries.length = others.length)
    (same : ∀ index, test index = true → entries[index]? = others[index]?) :
    (pick entries test).Sublist others := by
  rw [pick, filter_zipIdx_congr 0 size (by simpa using same)]
  have listed := (List.filter_sublist (l := others.zipIdx) (p := fun entry => test entry.2)).map
    Prod.fst
  rwa [List.zipIdx_map_fst] at listed

theorem pick_all {entries : List α} {test : Nat → Bool} (all : ∀ index, test index = true) :
    pick entries test = entries := by
  rw [pick, List.filter_eq_self.mpr fun entry _ => all entry.2, List.zipIdx_map_fst]

theorem set_perm {entries : List α} {index : Nat} {entry : α} (value : α)
    (found : entries[index]? = some entry) {others : List α}
    (listed : entries.Perm (entry :: others)) : (entries.set index value).Perm (value :: others) := by
  have within : index < entries.length := (List.getElem?_eq_some_iff.mp found).1
  have rest : (entries.eraseIdx index).Perm others :=
    ((Interleaving.perm_cons_eraseIdx found).trans listed).cons_inv
  have written : (entries.set index value)[index]? = some value := by
    rw [List.getElem?_set_self within]
  have moved := Interleaving.perm_cons_eraseIdx written
  rw [List.eraseIdx_set_eq] at moved
  exact moved.symm.trans (rest.cons value)

end Slots
