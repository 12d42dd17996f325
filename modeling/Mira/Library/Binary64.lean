import Mathlib.Algebra.Order.Ring.Rat
import Mathlib.Order.Monotone.Basic
import Mathlib.Tactic.NormNum
import Mathlib.Tactic.Positivity

/-!
Numbers of the binary64 format as the words that hold them. A word compares through its rank, the
magnitude with the sign: this is the order of the values, with the infinities at its ends. The two
zeros have one rank and two words; a word that is not a number compares with nothing.
-/

structure Binary64 where
  bits : UInt64

namespace Binary64

def magnitude (number : Binary64) : Nat := number.bits.toNat % 2 ^ 63

def negative (number : Binary64) : Bool := 2 ^ 63 ≤ number.bits.toNat

/-- The magnitude of the infinities; what lies above is not a number. -/
def infinity : Nat := 2047 * 2 ^ 52

def isNaN (number : Binary64) : Bool := infinity < number.magnitude

def isFinite (number : Binary64) : Bool := number.magnitude < infinity

def rank (number : Binary64) : Int :=
  if number.negative then -(number.magnitude : Int) else number.magnitude

def eq (first second : Binary64) : Bool :=
  !first.isNaN && !second.isNaN && first.rank = second.rank

def lt (first second : Binary64) : Bool :=
  !first.isNaN && !second.isNaN && first.rank < second.rank

def le (first second : Binary64) : Bool :=
  !first.isNaN && !second.isNaN && first.rank ≤ second.rank

/-- The smaller of two, and the first of two equal ones. -/
def min (first second : Binary64) : Binary64 := if second.lt first then second else first

/-- The greater of two, and the first of two equal ones. -/
def max (first second : Binary64) : Binary64 := if first.lt second then second else first

def zero : Binary64 := ⟨0⟩

def one : Binary64 := ⟨0x3FF0000000000000⟩

section
variable {first second third : Binary64}

theorem le_iff : first.le second = true ↔
    first.isNaN = false ∧ second.isNaN = false ∧ first.rank ≤ second.rank := by
  simp [le, and_assoc]

theorem lt_iff : first.lt second = true ↔
    first.isNaN = false ∧ second.isNaN = false ∧ first.rank < second.rank := by
  simp [lt, and_assoc]

/-- Equal numbers are one word but for the two zeros. -/
theorem eq_of_eq (equal : first.eq second = true) (nonzero : first.rank ≠ 0) : first = second := by
  rw [eq, Bool.and_eq_true, decide_eq_true_eq] at equal
  have ranks := equal.2
  have bound := first.bits.toNat_lt
  have bound' := second.bits.toNat_lt
  have words : first.bits.toNat = second.bits.toNat := by
    simp only [rank, magnitude, negative, decide_eq_true_eq] at ranks nonzero
    split_ifs at ranks nonzero <;> omega
  cases first
  cases second
  exact congrArg mk (UInt64.toNat_inj.mp words)

theorem le_trans (one : first.le second = true) (two : second.le third = true) :
    first.le third = true := by
  rw [le_iff] at one two ⊢
  exact ⟨one.1, two.2.1, Int.le_trans one.2.2 two.2.2⟩

theorem min_isNaN (number : first.isNaN = false) (number' : second.isNaN = false) :
    (min first second).isNaN = false := by
  rw [min]
  split
  · exact number'
  · exact number

theorem max_isNaN (number : first.isNaN = false) (number' : second.isNaN = false) :
    (max first second).isNaN = false := by
  rw [max]
  split
  · exact number'
  · exact number

theorem min_le_iff (number : first.isNaN = false) (number' : second.isNaN = false) :
    (min first second).le third = true ↔ first.le third = true ∨ second.le third = true := by
  rw [min]
  split
  · next less =>
      have below : second.le first = true :=
        le_iff.mpr ⟨number', number, (lt_iff.mp less).2.2.le⟩
      exact ⟨.inr, fun either => either.elim (le_trans below) id⟩
  · next notLess =>
      have below : first.le second = true := by
        refine le_iff.mpr ⟨number, number', ?_⟩
        exact not_lt.mp fun less => notLess (lt_iff.mpr ⟨number', number, less⟩)
      exact ⟨.inl, fun either => either.elim id (le_trans below)⟩

theorem le_max_iff (number : first.isNaN = false) (number' : second.isNaN = false) :
    third.le (max first second) = true ↔ third.le first = true ∨ third.le second = true := by
  rw [max]
  split
  · next less =>
      have below : first.le second = true :=
        le_iff.mpr ⟨number, number', (lt_iff.mp less).2.2.le⟩
      exact ⟨.inr, fun either => either.elim (fun one => le_trans one below) id⟩
  · next notLess =>
      have below : second.le first = true := by
        refine le_iff.mpr ⟨number', number, ?_⟩
        exact not_lt.mp fun less => notLess (lt_iff.mpr ⟨number, number', less⟩)
      exact ⟨.inl, fun either => either.elim id fun two => le_trans two below⟩

theorem foldl_min_le_iff {α : Type*} (number : α → Binary64) (items : List α)
    {start bound : Binary64}
    (number_ : start.isNaN = false) (numbers : ∀ item ∈ items, (number item).isNaN = false) :
    (items.foldl (fun least item => min least (number item)) start).le bound = true ↔
      start.le bound = true ∨ ∃ item ∈ items, (number item).le bound = true := by
  induction items generalizing start with
  | nil => simp
  | cons item rest ih =>
      have here := numbers item List.mem_cons_self
      rw [List.foldl_cons, ih (min_isNaN number_ here) fun other held =>
        numbers other (List.mem_cons_of_mem _ held), min_le_iff number_ here]
      simp [or_assoc]

end

/-- The absolute value of a finite word in units of the least positive number. -/
def units (magnitude : Nat) : Nat :=
  if magnitude < 2 ^ 52 then magnitude
  else (2 ^ 52 + magnitude % 2 ^ 52) * 2 ^ (magnitude / 2 ^ 52 - 1)

def signedUnits : Int → Int
  | .ofNat magnitude => units magnitude
  | .negSucc below => -(units (below + 1) : Int)

def value (number : Binary64) : Rat := signedUnits number.rank / 2 ^ 1074

/-- So many bytes of a word, the least significant first. -/
def littleEndian : Nat → Nat → List UInt8
  | 0, _ => []
  | count + 1, word => UInt8.ofNat (word % 256) :: littleEndian count (word / 256)

theorem littleEndian_length (count word : Nat) : (littleEndian count word).length = count := by
  induction count generalizing word with
  | zero => rfl
  | succ count ih => rw [littleEndian, List.length_cons, ih]

theorem littleEndian_injective (count : Nat) {first second : Nat} (low : first < 256 ^ count)
    (low' : second < 256 ^ count) (same : littleEndian count first = littleEndian count second) :
    first = second := by
  induction count generalizing first second with
  | zero => omega
  | succ count ih =>
      rw [littleEndian, littleEndian, List.cons.injEq] at same
      have digit : first % 256 = second % 256 := by
        have words := congrArg UInt8.toNat same.1
        rw [UInt8.toNat_ofNat', UInt8.toNat_ofNat'] at words
        omega
      have rest := ih (by rw [pow_succ] at low; omega) (by rw [pow_succ] at low'; omega) same.2
      omega

def raw (number : Binary64) : List UInt8 := littleEndian 8 number.bits.toNat

theorem raw_length (number : Binary64) : number.raw.length = 8 := littleEndian_length _ _

theorem raw_injective {first second : Binary64} (same : first.raw = second.raw) :
    first = second := by
  have words := littleEndian_injective 8 first.bits.toNat_lt second.bits.toNat_lt same
  cases first
  cases second
  exact congrArg Binary64.mk (UInt64.toNat_inj.mp words)

end Binary64
