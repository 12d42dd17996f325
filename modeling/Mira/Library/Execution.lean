import Mathlib.Data.List.Basic
import Mathlib.Logic.Relation

/-!
Runs of a deterministic machine. A machine is a step function from a state and
an input to the next state and an output; a run folds it over a list of inputs
and its trace records the state before every step. The rules carry a fact about
one step to every state of every run; nothing here fixes what the states are.
-/

namespace Execution

variable {σ ι ω : Type*}

/-- The state reached by feeding the inputs in order. -/
def run (step : σ → ι → σ × ω) : σ → List ι → σ
  | s, [] => s
  | s, i :: rest => run step (step s i).1 rest

/-- The outputs of the same run, in order. -/
def outputs (step : σ → ι → σ × ω) : σ → List ι → List ω
  | _, [] => []
  | s, i :: rest => (step s i).2 :: outputs step (step s i).1 rest

/-- The inputs of a run, each with its output. -/
def trace (step : σ → ι → σ × ω) : σ → List ι → List (ι × ω)
  | _, [] => []
  | s, i :: rest => (i, (step s i).2) :: trace step (step s i).1 rest

/-- Every step of the run meets the guard in the state it is taken from. -/
def Guarded (step : σ → ι → σ × ω) (guard : σ → ι → Prop) : σ → List ι → Prop
  | _, [] => True
  | s, i :: rest => guard s i ∧ Guarded step guard (step s i).1 rest

instance decidableGuarded (step : σ → ι → σ × ω) (guard : σ → ι → Prop)
    [∀ s i, Decidable (guard s i)] : ∀ s inputs, Decidable (Guarded step guard s inputs)
  | _, [] => .isTrue trivial
  | s, i :: rest =>
      have := decidableGuarded step guard (step s i).1 rest
      inferInstanceAs (Decidable (guard s i ∧ Guarded step guard (step s i).1 rest))

variable (step : σ → ι → σ × ω)

variable (s : σ) (xs : List ι)

theorem run_append (ys : List ι) : run step s (xs ++ ys) = run step (run step s xs) ys := by
  induction xs generalizing s with
  | nil => rfl
  | cons i rest ih => exact ih (step s i).1

theorem outputs_append (ys : List ι) :
    outputs step s (xs ++ ys) = outputs step s xs ++ outputs step (run step s xs) ys := by
  induction xs generalizing s with
  | nil => rfl
  | cons i rest ih => simp only [List.cons_append, outputs, run, ih]

theorem trace_map_fst : (trace step s xs).map Prod.fst = xs := by
  induction xs generalizing s with
  | nil => rfl
  | cons i rest ih => rw [trace, List.map_cons, ih]

theorem mem_trace {s : σ} {xs : List ι} {entry : ι × ω} (present : entry ∈ trace step s xs) :
    ∃ before after, xs = before ++ entry.1 :: after ∧
      entry.2 = (step (run step s before) entry.1).2 := by
  induction xs generalizing s with
  | nil => cases present
  | cons i rest ih =>
      cases present with
      | head => exact ⟨[], rest, rfl, rfl⟩
      | tail _ later =>
          obtain ⟨before, after, whole, answer⟩ := ih later
          exact ⟨i :: before, after, by rw [whole, List.cons_append], answer⟩

/-- A quantity that each step extends by what its answer tells grows by what the trace
tells. -/
theorem run_accumulates {τ : Type*} (guard : σ → ι → Prop) (total : σ → List τ)
    (told : ι × ω → List τ)
    (extended : ∀ s i, guard s i → total (step s i).1 = total s ++ told (i, (step s i).2))
    (s : σ) (xs : List ι) (guarded : Guarded step guard s xs) :
    total (run step s xs) = total s ++ (trace step s xs).flatMap told := by
  induction xs generalizing s with
  | nil => simp [run, trace]
  | cons i rest ih =>
      rw [run, ih _ guarded.2, extended s i guarded.1, trace, List.flatMap_cons,
        List.append_assoc]

theorem guarded_append (guard : σ → ι → Prop) (s : σ) (xs ys : List ι) :
    Guarded step guard s (xs ++ ys) ↔
      Guarded step guard s xs ∧ Guarded step guard (run step s xs) ys := by
  induction xs generalizing s with
  | nil => simp [Guarded, run]
  | cons i rest ih => simp only [List.cons_append, Guarded, run, ih, and_assoc]

theorem guarded_and {guard guard' : σ → ι → Prop} {s : σ} {xs : List ι}
    (first : Guarded step guard s xs) (second : Guarded step guard' s xs) :
    Guarded step (fun s i => guard s i ∧ guard' s i) s xs := by
  induction xs generalizing s with
  | nil => exact trivial
  | cons i rest ih => exact ⟨⟨first.1, second.1⟩, ih first.2 second.2⟩

theorem run_invariant (guard : σ → ι → Prop) (inv : σ → Prop)
    (preserved : ∀ s i, guard s i → inv s → inv (step s i).1)
    (s : σ) (xs : List ι) (start : inv s) (guarded : Guarded step guard s xs) :
    inv (run step s xs) := by
  induction xs generalizing s with
  | nil => exact start
  | cons i rest ih =>
      exact ih (step s i).1 (preserved s i guarded.1 start) guarded.2

theorem run_invariant_always (inv : σ → Prop)
    (preserved : ∀ s i, inv s → inv (step s i).1)
    (s : σ) (xs : List ι) (start : inv s) : inv (run step s xs) := by
  induction xs generalizing s with
  | nil => exact start
  | cons i rest ih => exact ih (step s i).1 (preserved s i start)

/-- A property that a step keeps exactly where it meets the guard, and that no step brings back,
holds at the end of a run exactly if it held at first and every step met the guard. -/
theorem run_survives (guard : σ → ι → Prop) (inv good : σ → Prop)
    (preserved : ∀ s i, inv s → inv (step s i).1)
    (effect : ∀ s i, inv s → (good (step s i).1 ↔ good s ∧ guard s i))
    (s : σ) (xs : List ι) (start : inv s) :
    good (run step s xs) ↔ good s ∧ Guarded step guard s xs := by
  induction xs generalizing s with
  | nil => exact (and_iff_left trivial).symm
  | cons i rest ih =>
      rw [run, ih _ (preserved s i start), effect s i start, Guarded, and_assoc]

/-- A reflexive and transitive relation that every step respects, under an
invariant of the states, relates the two ends of every run. -/
theorem run_relation (inv : σ → Prop) (rel : σ → σ → Prop)
    (refl : ∀ s, rel s s) (trans : ∀ {a b c}, rel a b → rel b c → rel a c)
    (preserved : ∀ s i, inv s → inv (step s i).1)
    (respects : ∀ s i, inv s → rel s (step s i).1)
    (s : σ) (xs : List ι) (start : inv s) : rel s (run step s xs) := by
  induction xs generalizing s with
  | nil => exact refl s
  | cons i rest ih =>
      exact trans (respects s i start) (ih (step s i).1 (preserved s i start))

/-- Some entry raises the flag and no later one clears it. -/
def Since {τ : Type*} (raises clears : τ → Prop) (entries : List τ) : Prop :=
  ∃ before entry after, entries = before ++ entry :: after ∧ raises entry ∧
    ∀ later ∈ after, ¬ clears later

theorem since_cons {τ : Type*} {raises clears : τ → Prop} (entry : τ) (entries : List τ) :
    Since raises clears (entry :: entries) ↔
      Since raises clears entries ∨ (raises entry ∧ ∀ later ∈ entries, ¬ clears later) := by
  constructor
  · rintro ⟨before, raised, after, whole, raising, quiet⟩
    cases before with
    | nil =>
        obtain ⟨rfl, rfl⟩ := List.cons.inj whole
        exact .inr ⟨raising, quiet⟩
    | cons first before =>
        obtain ⟨rfl, rest⟩ := List.cons.inj whole
        exact .inl ⟨before, raised, after, rest, raising, quiet⟩
  · rintro (⟨before, raised, after, rfl, raising, quiet⟩ | ⟨raising, quiet⟩)
    · exact ⟨entry :: before, raised, after, rfl, raising, quiet⟩
    · exact ⟨[], entry, entries, rfl, raising, quiet⟩

theorem Since.exists_mem {τ : Type*} {raises clears : τ → Prop} {entries : List τ}
    (since : Since raises clears entries) : ∃ entry ∈ entries, raises entry := by
  obtain ⟨before, entry, after, rfl, raising, _⟩ := since
  exact ⟨entry, by simp, raising⟩

/-- What a run tells: of every step something about the state before it and the input. -/
def along {τ : Type*} (step : σ → ι → σ × ω) (told : σ → ι → τ) : σ → List ι → List τ
  | _, [] => []
  | s, i :: rest => told s i :: along step told (step s i).1 rest

theorem along_inputs : along step (fun _ i => i) s xs = xs := by
  induction xs generalizing s with
  | nil => rfl
  | cons i rest ih => rw [along, ih]

theorem along_map {τ υ : Type*} (told : σ → ι → τ) (f : τ → υ) :
    (along step told s xs).map f = along step (fun s i => f (told s i)) s xs := by
  induction xs generalizing s with
  | nil => rfl
  | cons i rest ih => rw [along, List.map_cons, ih, along]

/-- A machine that another one simulates tells the same. -/
theorem along_simulated {σ' ω' τ : Type*} {step' : σ' → ι → σ' × ω'} {abs : σ → σ'}
    (simulates : ∀ s i, abs (step s i).1 = (step' (abs s) i).1) (told : σ' → ι → τ) :
    along step (fun s i => told (abs s) i) s xs = along step' told (abs s) xs := by
  induction xs generalizing s with
  | nil => rfl
  | cons i rest ih => rw [along, along, ih, simulates]

/-- The rule for a flag that each step raises, clears or keeps: at the end it is up
exactly if it was raised and not cleared since, or never cleared at all. -/
theorem run_flag {τ : Type*} (told : σ → ι → τ) (inv flag : σ → Prop) (raises clears : τ → Prop)
    (preserved : ∀ s i, inv s → inv (step s i).1)
    (effect : ∀ s i, inv s → (flag (step s i).1 ↔
      raises (told s i) ∨ (flag s ∧ ¬ clears (told s i))))
    (s : σ) (xs : List ι) (start : inv s) :
    flag (run step s xs) ↔ Since raises clears (along step told s xs) ∨
      (flag s ∧ ∀ entry ∈ along step told s xs, ¬ clears entry) := by
  induction xs generalizing s with
  | nil =>
      have none_ : ¬ Since raises clears (along step told s []) := by
        rintro ⟨before, entry, after, whole, _⟩
        cases before <;> cases whole
      simp only [run, none_, false_or]
      exact ⟨fun up => ⟨up, nofun⟩, And.left⟩
  | cons i rest ih =>
      rw [run, ih _ (preserved s i start), effect s i start, along, since_cons]
      simp only [List.mem_cons, forall_eq_or_imp]
      tauto

end Execution
