import Mathlib.Algebra.Ring.Nat
import Mathlib.Data.List.Basic

/-!
Text as lines. Reading a text line by line yields each line with a flag that says
whether its terminator was there; only the last line can lack it. Writing the
lines back gives the text, and the lines of a concatenation are the lines of its
parts, except that an unterminated last line runs into the first line of what
follows.
-/

namespace Lines

variable {τ : Type*} [DecidableEq τ] (newline : τ)

structure Line (τ : Type*) where
  text : List τ
  terminated : Bool

/-- What successive calls of `getline` return. -/
def split : List τ → List (Line τ)
  | [] => []
  | c :: rest =>
      if c = newline then ⟨[], true⟩ :: split rest
      else
        match split rest with
        | [] => [⟨[c], false⟩]
        | line :: lines => ⟨c :: line.text, line.terminated⟩ :: lines

def Line.size (line : Line τ) : Nat := line.text.length + if line.terminated then 1 else 0

def Line.bytes (line : Line τ) : List τ :=
  line.text ++ if line.terminated then [newline] else []

def unsplit (lines : List (Line τ)) : List τ := lines.flatMap fun line => line.bytes newline

/-- Runs an unterminated last line into what follows. -/
def join : List (Line τ) → List (Line τ) → List (Line τ)
  | [], more => more
  | line :: next :: lines, more => line :: join (next :: lines) more
  | [line], more =>
      if line.terminated then line :: more
      else
        match more with
        | [] => [line]
        | first :: rest => ⟨line.text ++ first.text, first.terminated⟩ :: rest

theorem split_eq_nil_iff (text : List τ) : split newline text = [] ↔ text = [] := by
  cases text with
  | nil => simp [split]
  | cons c rest =>
      simp only [split]
      split_ifs
      · simp
      · cases split newline rest <;> simp

theorem split_append (xs ys : List τ) :
    split newline (xs ++ ys) = join (split newline xs) (split newline ys) := by
  induction xs with
  | nil => rfl
  | cons c rest ih =>
      rw [List.cons_append, split, split]
      by_cases same : c = newline
      · rw [if_pos same, if_pos same, ih]
        cases split newline rest <;> rfl
      · rw [if_neg same, if_neg same, ih]
        cases hrest : split newline rest with
        | nil =>
            -- The character is an unterminated line of its own.
            rw [(split_eq_nil_iff newline rest).mp hrest] at *
            cases split newline ys <;> rfl
        | cons line lines =>
            cases lines with
            | cons next lines => rfl
            | nil =>
                simp only [join]
                split_ifs
                · rfl
                · cases split newline ys <;> rfl

theorem unsplit_split (text : List τ) : unsplit newline (split newline text) = text := by
  induction text with
  | nil => rfl
  | cons c rest ih =>
      rw [split]
      split_ifs with same
      · rw [same]
        simpa [unsplit, Line.bytes] using ih
      · cases hrest : split newline rest with
        | nil =>
            rw [(split_eq_nil_iff newline rest).mp hrest]
            rfl
        | cons line lines =>
            rw [hrest] at ih
            simpa [unsplit, Line.bytes] using ih

/-- A list of lines that `split` can return. -/
def Proper : List (Line τ) → Prop
  | [] => True
  | [line] => newline ∉ line.text ∧ (line.terminated = true ∨ line.text ≠ [])
  | line :: next :: lines =>
      (newline ∉ line.text ∧ line.terminated = true) ∧ Proper (next :: lines)

theorem split_proper (text : List τ) : Proper newline (split newline text) := by
  induction text with
  | nil => trivial
  | cons c rest ih =>
      rw [split]
      split_ifs with same
      · cases hrest : split newline rest with
        | nil => exact ⟨by simp, .inl rfl⟩
        | cons line lines =>
            rw [hrest] at ih
            exact ⟨⟨by simp, rfl⟩, ih⟩
      · have other : newline ≠ c := fun h => same h.symm
        cases hrest : split newline rest with
        | nil => exact ⟨by simpa using other, .inr (by simp)⟩
        | cons line lines =>
            rw [hrest] at ih
            cases lines with
            | nil => exact ⟨by simp [other, ih.1], .inr (by simp)⟩
            | cons next lines => exact ⟨⟨by simp [other, ih.1.1], ih.1.2⟩, ih.2⟩

theorem split_line (text rest : List τ) (absent : newline ∉ text) :
    split newline (text ++ newline :: rest) = ⟨text, true⟩ :: split newline rest := by
  induction text with
  | nil => simp [split]
  | cons c text ih =>
      rw [List.mem_cons, not_or] at absent
      have other : c ≠ newline := fun h => absent.1 h.symm
      rw [List.cons_append, split, if_neg other, ih absent.2]

theorem split_last (text : List τ) (absent : newline ∉ text) (some_ : text ≠ []) :
    split newline text = [⟨text, false⟩] := by
  induction text with
  | nil => exact absurd rfl some_
  | cons c text ih =>
      rw [List.mem_cons, not_or] at absent
      have other : c ≠ newline := fun h => absent.1 h.symm
      rw [split, if_neg other]
      by_cases last : text = []
      · rw [last]; rfl
      · rw [ih absent.2 last]

theorem split_unsplit (lines : List (Line τ))
    (proper : ∀ line ∈ lines, newline ∉ line.text ∧ line.terminated = true) :
    split newline (unsplit newline lines) = lines := by
  induction lines with
  | nil => rfl
  | cons line lines ih =>
      obtain ⟨absent, closed⟩ := proper line (by simp)
      have later := ih fun other present => proper other (by simp [present])
      have whole : unsplit newline (line :: lines) =
          line.text ++ newline :: unsplit newline lines := by
        simp [unsplit, Line.bytes, closed]
      rw [whole, split_line newline _ _ absent, later, ← closed]

omit [DecidableEq τ] in
theorem length_unsplit (lines : List (Line τ)) :
    (unsplit newline lines).length = (lines.map Line.size).sum := by
  induction lines with
  | nil => rfl
  | cons line lines ih =>
      have own : (line.bytes newline).length = line.size := by
        cases h : line.terminated <;> simp [Line.bytes, Line.size, h]
      simp only [unsplit, List.flatMap_cons, List.length_append] at ih ⊢
      rw [own, ih, List.map_cons, List.sum_cons]

/-- Whether the text behind these lines ends inside a line; `before` answers for no
lines at all. -/
def leavesOpen (before : Bool) (lines : List (Line τ)) : Bool :=
  (lines.getLast?.map fun line => !line.terminated).getD before

omit [DecidableEq τ] in
theorem leavesOpen_cons (before : Bool) (line : Line τ) (lines : List (Line τ)) :
    leavesOpen before (line :: lines) = leavesOpen (!line.terminated) lines := by
  unfold leavesOpen
  rw [List.getLast?_cons]
  cases lines.getLast? <;> rfl

omit [DecidableEq τ] in
theorem leavesOpen_append_cons (before : Bool) (lines : List (Line τ)) (line : Line τ)
    (more : List (Line τ)) :
    leavesOpen before (lines ++ line :: more) = leavesOpen (!line.terminated) more := by
  induction lines generalizing before with
  | nil => exact leavesOpen_cons before line more
  | cons other lines ih => rw [List.cons_append, leavesOpen_cons, ih]

omit [DecidableEq τ] in
theorem leavesOpen_terminated (lines : List (Line τ))
    (closed : ∀ line ∈ lines, line.terminated = true) : leavesOpen false lines = false := by
  induction lines with
  | nil => rfl
  | cons line lines ih =>
      rw [leavesOpen_cons, closed line (by simp)]
      exact ih fun other present => closed other (by simp [present])

omit [DecidableEq τ] in
theorem join_closed (lines more : List (Line τ)) (closed : leavesOpen false lines = false) :
    join lines more = lines ++ more := by
  induction lines with
  | nil => rfl
  | cons line lines ih =>
      rw [leavesOpen_cons] at closed
      cases lines with
      | nil =>
          have terminated : line.terminated = true := by simpa [leavesOpen] using closed
          cases more <;> simp [join, terminated]
      | cons next lines =>
          rw [join, ih (by rw [leavesOpen_cons] at closed ⊢; exact closed)]
          rfl

omit [DecidableEq τ] in
theorem join_terminator (lines : List (Line τ)) (opened : leavesOpen false lines = true) :
    (join lines [⟨[], true⟩]).map Line.text = lines.map Line.text ∧
      leavesOpen false (join lines [⟨[], true⟩]) = false := by
  induction lines with
  | nil => cases opened
  | cons line lines ih =>
      rw [leavesOpen_cons] at opened
      cases lines with
      | nil =>
          have unterminated : ¬ line.terminated = true := by simpa [leavesOpen] using opened
          rw [join, if_neg unterminated]
          simp [leavesOpen]
      | cons next lines =>
          obtain ⟨texts, closed⟩ := ih (by rw [leavesOpen_cons] at opened ⊢; exact opened)
          rw [join, List.map_cons, texts]
          refine ⟨rfl, ?_⟩
          rw [leavesOpen_cons]
          cases shape : join (next :: lines) [⟨[], true⟩] with
          | nil => rw [shape] at texts; cases texts
          | cons first rest =>
              rw [shape, leavesOpen_cons] at closed
              rw [leavesOpen_cons]
              exact closed

/-- What has to be written before a new line. -/
def separator (text : List τ) : List τ :=
  if leavesOpen false (split newline text) then [newline] else []

theorem split_separated (text more : List τ) :
    ∃ lines, split newline (text ++ separator newline text ++ more) =
        lines ++ split newline more ∧
      lines.map Line.text = (split newline text).map Line.text := by
  have closing : ∃ lines, split newline (text ++ separator newline text) = lines ∧
      lines.map Line.text = (split newline text).map Line.text ∧
      leavesOpen false lines = false := by
    unfold separator
    split_ifs with opened
    · obtain ⟨texts, closed⟩ := join_terminator (split newline text) opened
      refine ⟨_, rfl, ?_⟩
      rw [split_append, show split newline [newline] = [⟨[], true⟩] by simp [split]]
      exact ⟨texts, closed⟩
    · refine ⟨_, rfl, ?_⟩
      rw [List.append_nil]
      exact ⟨rfl, by simpa using opened⟩
  obtain ⟨lines, whole, texts, closed⟩ := closing
  exact ⟨lines, by rw [split_append, whole, join_closed lines _ closed], texts⟩

omit [DecidableEq τ] in
theorem Proper.terminated {newline : τ} {first last : List (Line τ)}
    (proper : Proper newline (first ++ last)) (more : last ≠ []) :
    ∀ line ∈ first, newline ∉ line.text ∧ line.terminated = true := by
  induction first with
  | nil => simp
  | cons line first ih =>
      obtain ⟨next, rest, shape⟩ := List.exists_cons_of_ne_nil
        (List.append_ne_nil_of_right_ne_nil first more)
      rw [List.cons_append, shape, Proper] at proper
      intro other present
      rcases List.mem_cons.mp present with rfl | later
      · exact proper.1
      · exact ih (shape ▸ proper.2) other later

theorem split_take (text : List τ) (first last : List (Line τ))
    (whole : split newline text = first ++ last) (more : last ≠ []) :
    split newline (text.take (first.map Line.size).sum) = first ∧
      leavesOpen false first = false := by
  have proper := split_proper newline text
  rw [whole] at proper
  have each := proper.terminated more
  have bytes : text = unsplit newline first ++ unsplit newline last := by
    rw [← unsplit_split newline text, whole]
    simp [unsplit]
  refine ⟨?_, leavesOpen_terminated first fun line present => (each line present).2⟩
  rw [bytes, ← length_unsplit newline first, List.take_left]
  exact split_unsplit newline first each

def terminate (texts : List (List τ)) : List τ := texts.flatMap fun text => text ++ [newline]

omit [DecidableEq τ] in
theorem terminate_eq (texts : List (List τ)) :
    terminate newline texts = unsplit newline (texts.map fun text => ⟨text, true⟩) := by
  simp [terminate, unsplit, Line.bytes, List.flatMap_map]

omit [DecidableEq τ] in
theorem cut_terminate (texts : List (List τ)) (cut : List τ)
    (isPrefix : cut <+: terminate newline texts) :
    ∃ whole rest part, texts = whole ++ rest ∧ cut = terminate newline whole ++ part ∧
      part <+: rest.headD [] := by
  induction texts generalizing cut with
  | nil => exact ⟨[], [], cut, rfl, rfl, isPrefix⟩
  | cons text texts ih =>
      rw [terminate, List.flatMap_cons] at isPrefix
      rcases Nat.lt_or_ge text.length cut.length with longer | shorter
      · have first : text ++ [newline] <+: cut :=
          List.prefix_of_prefix_length_le (List.prefix_append _ _) isPrefix
            (by rw [List.length_append]; exact longer)
        obtain ⟨later, rfl⟩ := first
        obtain ⟨whole, rest, part, rfl, rfl, next⟩ :=
          ih later ((List.prefix_append_right_inj _).mp isPrefix)
        refine ⟨text :: whole, rest, part, rfl, ?_, next⟩
        simp only [terminate, List.flatMap_cons, List.append_assoc]
      · refine ⟨[], text :: texts, cut, rfl, rfl, ?_⟩
        rw [List.append_assoc] at isPrefix
        exact List.prefix_of_prefix_length_le isPrefix (List.prefix_append _ _) shorter

theorem split_terminate_append (texts : List (List τ)) (part : List τ)
    (absent : ∀ text ∈ texts, newline ∉ text) :
    split newline (terminate newline texts ++ part) =
      (texts.map fun text => ⟨text, true⟩) ++ split newline part := by
  have lines : split newline (terminate newline texts) = texts.map fun text => ⟨text, true⟩ := by
    rw [terminate_eq]
    refine split_unsplit newline _ fun line present => ?_
    obtain ⟨text, member, rfl⟩ := List.mem_map.mp present
    exact ⟨absent text member, rfl⟩
  rw [split_append, lines, join_closed]
  refine leavesOpen_terminated _ fun line present => ?_
  obtain ⟨text, _, rfl⟩ := List.mem_map.mp present
  rfl

end Lines
