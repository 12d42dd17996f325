import Mathlib.Data.List.Basic

/-!
Loops that read a list from the front. A body looks at an accumulator and the
remaining items and either refuses, goes round again or finishes; the loop runs
it with a budget of rounds. A body that consumes something whenever it goes round
never uses up a budget larger than the input, so the budget is not observable.
The rules say when a loop accepts, and what acceptance says about the result and
about longer inputs.
-/

namespace Scan

variable {α β ε τ : Type*}

/-- What one round of a loop decides. -/
inductive Round (α β τ : Type*)
  | again (acc : α) (rest : List τ)
  | done (result : β) (rest : List τ)

abbrev Body (α β ε τ : Type*) := α → List τ → Except ε (Round α β τ)

/-- Runs the body until it finishes or refuses. -/
def loop (exhausted : ε) (body : Body α β ε τ) : Nat → α → List τ → Except ε (β × List τ)
  | 0, _, _ => .error exhausted
  | budget + 1, acc, input =>
      match body acc input with
      | .error reason => .error reason
      | .ok (.done result rest) => .ok (result, rest)
      | .ok (.again acc' rest) => loop exhausted body budget acc' rest

/-- The accepting runs of a loop, without a budget. -/
inductive Accepts (body : Body α β ε τ) : α → List τ → β → List τ → Prop
  | done {acc : α} {input rest : List τ} {result : β}
      (finished : body acc input = .ok (.done result rest)) :
      Accepts body acc input result rest
  | again {acc acc' : α} {input middle rest : List τ} {result : β}
      (round : body acc input = .ok (.again acc' middle))
      (later : Accepts body acc' middle result rest) :
      Accepts body acc input result rest

/-- Going round consumes something. -/
def Consumes (body : Body α β ε τ) : Prop :=
  ∀ acc input acc' rest, body acc input = .ok (.again acc' rest) → rest.length < input.length

variable {body : Body α β ε τ} {acc : α} {input rest : List τ} {result : β}

theorem loop_of_accepts (consumes : Consumes body) (exhausted : ε)
    (run : Accepts body acc input result rest) (budget : Nat) (enough : input.length < budget) :
    loop exhausted body budget acc input = .ok (result, rest) := by
  induction run generalizing budget with
  | done finished =>
      cases budget with
      | zero => exact absurd enough (Nat.not_lt_zero _)
      | succ budget => simp only [loop, finished]
  | again round _ ih =>
      cases budget with
      | zero => exact absurd enough (Nat.not_lt_zero _)
      | succ budget =>
          have shorter := consumes _ _ _ _ round
          simp only [loop, round]
          exact ih budget (by omega)

theorem accepts_of_loop {exhausted : ε} {budget : Nat}
    (accepted : loop exhausted body budget acc input = .ok (result, rest)) :
    Accepts body acc input result rest := by
  induction budget generalizing acc input with
  | zero => cases accepted
  | succ budget ih =>
      unfold loop at accepted
      split at accepted
      · cases accepted
      · next finished =>
          cases accepted
          exact .done finished
      · next round => exact .again round (ih accepted)

theorem Accepts.of_same {input' : List τ} (same : body acc input' = body acc input)
    (run : Accepts body acc input result rest) : Accepts body acc input' result rest := by
  cases run with
  | done finished => exact .done (same.trans finished)
  | again round later => exact .again (same.trans round) later

theorem Accepts.establishes (inv : α → Prop) (post : β → Prop)
    (kept : ∀ acc input acc' rest, body acc input = .ok (.again acc' rest) → inv acc → inv acc')
    (ends : ∀ acc input result rest, body acc input = .ok (.done result rest) → inv acc →
      post result) (run : Accepts body acc input result rest) (start : inv acc) : post result := by
  induction run with
  | done finished => exact ends _ _ _ _ finished start
  | again round _ ih => exact ih (kept _ _ _ _ round start)

/-- What a round of one body says about another body on longer inputs: it consumed
something, it kept the invariant of the accumulator or established the
postcondition, and it did not look at what follows. -/
def Reads (inv : α → Prop) (post : β → Prop) (body body' : Body α β ε τ) : Prop :=
  ∀ acc input round, body acc input = .ok round →
    match round with
    | .again acc' rest =>
        rest.length < input.length ∧ (inv acc → inv acc') ∧
        ∀ more, body' acc (input ++ more) = .ok (.again acc' (rest ++ more))
    | .done result rest =>
        rest.length < input.length ∧ (inv acc → post result) ∧
        ∀ more, body' acc (input ++ more) = .ok (.done result (rest ++ more))

variable {body' : Body α β ε τ}

theorem Reads.consumes {inv : α → Prop} {post : β → Prop} (reads : Reads inv post body body') :
    Consumes body :=
  fun acc input _ _ round => (reads acc input _ round).1

theorem Accepts.reads {inv : α → Prop} {post : β → Prop} (reads : Reads inv post body body')
    (run : Accepts body acc input result rest) :
    rest.length < input.length ∧ (inv acc → post result) ∧
      ∀ more, Accepts body' acc (input ++ more) result (rest ++ more) := by
  induction run with
  | done finished =>
      obtain ⟨shorter, established, extend⟩ := reads _ _ _ finished
      exact ⟨shorter, established, fun more => .done (extend more)⟩
  | again went _ ih =>
      obtain ⟨shorter, kept, extend⟩ := reads _ _ _ went
      obtain ⟨shorter', established, extend'⟩ := ih
      exact ⟨Nat.lt_trans shorter' shorter, fun start => established (kept start),
        fun more => .again (extend more) (extend' more)⟩

/-!
Loops that stop where the input runs short and go on when more of it comes. A round that such a
loop goes is not changed by what follows, and where it stops it has consumed nothing; so feeding
the input in two parts, with what was left of the first before the second, is feeding it whole.
-/

variable {α ε τ : Type*}

/-- Rounds do not look at what follows, and the loop stops with what it has. -/
structure Resumable (body : Body α α ε τ) : Prop where
  consumes : Consumes body
  again : ∀ acc input acc' rest more, body acc input = .ok (.again acc' rest) →
    body acc (input ++ more) = .ok (.again acc' (rest ++ more))
  refused : ∀ acc input reason more, body acc input = .error reason →
    ∃ reason, body acc (input ++ more) = .error reason
  stops : ∀ acc input result rest, body acc input = .ok (.done result rest) →
    result = acc ∧ rest = input

namespace Resumable
variable {body : Body α α ε τ}

variable {acc result : α} {input rest more left : List τ}

theorem resume (resumable : Resumable body) {middle : α} (run : Accepts body acc input middle rest) :
    Accepts body acc (input ++ more) result left ↔
      Accepts body middle (rest ++ more) result left := by
  induction run with
  | done finished =>
      obtain ⟨rfl, rfl⟩ := resumable.stops _ _ _ _ finished
      exact Iff.rfl
  | again round _ ih =>
      have longer := resumable.again _ _ _ _ more round
      refine ⟨fun whole => ?_, fun later => .again longer (ih.mpr later)⟩
      cases whole with
      | done finished =>
          rw [longer] at finished
          cases finished
      | again whole later =>
          rw [longer] at whole
          cases whole
          exact ih.mp later

theorem part (resumable : Resumable body) (budget : Nat) :
    ∀ {acc : α} {input : List τ}, input.length < budget →
      Accepts body acc (input ++ more) result left →
        ∃ middle rest, Accepts body acc input middle rest := by
  induction budget with
  | zero => exact fun short => absurd short (Nat.not_lt_zero _)
  | succ budget ih =>
      intro acc input short whole
      cases round : body acc input with
      | error reason =>
          obtain ⟨reason, refused⟩ := resumable.refused _ _ _ more round
          cases whole with
          | done finished => cases refused.symm.trans finished
          | again went _ => cases refused.symm.trans went
      | ok decided =>
          cases decided with
          | done middle rest => exact ⟨middle, rest, .done round⟩
          | again acc' rest =>
              have longer := resumable.again _ _ _ _ more round
              have shorter := resumable.consumes _ _ _ _ round
              cases whole with
              | done finished => cases longer.symm.trans finished
              | again went later =>
                  cases longer.symm.trans went
                  obtain ⟨middle, left, run⟩ := ih (by omega) later
                  exact ⟨middle, left, .again round run⟩

theorem accepts_append (resumable : Resumable body) :
    Accepts body acc (input ++ more) result left ↔
      ∃ middle rest, Accepts body acc input middle rest ∧
        Accepts body middle (rest ++ more) result left := by
  constructor
  · intro whole
    obtain ⟨middle, rest, run⟩ := resumable.part (input.length + 1) (Nat.lt_succ_self _) whole
    exact ⟨middle, rest, run, (resumable.resume run).mp whole⟩
  · intro parts
    obtain ⟨middle, rest, run, later⟩ := parts
    exact (resumable.resume run).mpr later

theorem loop_iff (resumable : Resumable body) (exhausted : ε) :
    loop exhausted body (input.length + 1) acc input = .ok (result, rest) ↔
      Accepts body acc input result rest :=
  ⟨accepts_of_loop,
    fun run => loop_of_accepts resumable.consumes exhausted run _ (Nat.lt_succ_self _)⟩

end Resumable

end Scan
