import Mathlib.Data.Int.ModEq
import Mathlib.Tactic.Linarith

/-! Counters of several places with a radix each, such as a time of day, and the carry
that adds to the lowest place and passes whole multiples on to the next. Quotient and
remainder truncate toward zero, so a digit may be negative; modulo the product of the
radices the value still moves by exactly what was carried in. -/
namespace MixedRadix

/-- The places of a counter, lowest first: radix and digit. -/
abbrev Counter := List (ℤ × ℤ)

def value : Counter → ℤ
  | [] => 0
  | (radix, digit) :: rest => digit + radix * value rest

/-- How many values the places can tell apart. -/
def range : Counter → ℤ
  | [] => 1
  | (radix, _) :: rest => radix * range rest

/-- Add to the lowest place, and carry. -/
def carry : Counter → ℤ → Counter
  | [], _ => []
  | (radix, digit) :: rest, k => (radix, (digit + k).tmod radix) :: carry rest ((digit + k).tdiv radix)

/-- Every digit is a digit of its radix. -/
def Normal (counter : Counter) : Prop := ∀ place ∈ counter, 0 ≤ place.2 ∧ place.2 < place.1

/-- The radices are positive and no digit is negative. -/
def Nonneg (counter : Counter) : Prop := ∀ place ∈ counter, 0 < place.1 ∧ 0 ≤ place.2

@[simp] theorem value_nil : value [] = 0 := rfl

@[simp] theorem value_cons (radix digit : ℤ) (rest : Counter) :
    value ((radix, digit) :: rest) = digit + radix * value rest := rfl

@[simp] theorem range_nil : range [] = 1 := rfl

@[simp] theorem range_cons (radix digit : ℤ) (rest : Counter) :
    range ((radix, digit) :: rest) = radix * range rest := rfl

@[simp] theorem carry_nil (k : ℤ) : carry [] k = [] := rfl

@[simp] theorem carry_cons (radix digit : ℤ) (rest : Counter) (k : ℤ) :
    carry ((radix, digit) :: rest) k =
      (radix, (digit + k).tmod radix) :: carry rest ((digit + k).tdiv radix) := rfl

theorem range_carry (counter : Counter) (k : ℤ) : range (carry counter k) = range counter := by
  induction counter generalizing k with
  | nil => rfl
  | cons place rest ih => rw [carry_cons, range_cons, range_cons, ih]

/-- A carry adds to the value, up to what leaves the highest place. -/
theorem value_carry (counter : Counter) (k : ℤ) :
    value (carry counter k) ≡ value counter + k [ZMOD range counter] := by
  induction counter generalizing k with
  | nil => exact Int.modEq_one
  | cons place rest ih =>
    obtain ⟨radix, digit⟩ := place
    have split := Int.tmod_add_mul_tdiv (digit + k) radix
    have higher := ((ih ((digit + k).tdiv radix)).mul_left' (c := radix)).add_left ((digit + k).tmod radix)
    rw [carry_cons, value_cons, value_cons, range_cons]
    refine higher.trans ?_
    rw [mul_add, ← add_assoc, show (digit + k).tmod radix + radix * value rest +
      radix * (digit + k).tdiv radix = digit + radix * value rest + k by linarith]

/-- A normal counter holds one of the values it can tell apart. -/
theorem value_lt {counter : Counter} (normal : Normal counter) :
    0 ≤ value counter ∧ value counter < range counter := by
  induction counter with
  | nil => simp
  | cons place rest ih =>
    obtain ⟨radix, digit⟩ := place
    obtain ⟨lower, upper⟩ := ih fun place member => normal place (List.mem_cons_of_mem _ member)
    obtain ⟨least, most⟩ : 0 ≤ digit ∧ digit < radix := normal (radix, digit) List.mem_cons_self
    rw [value_cons, range_cons]
    constructor
    · nlinarith
    · nlinarith

/-- Carrying something nonnegative into a counter without negative digits leaves it normal. -/
theorem carry_normal {counter : Counter} (nonneg : Nonneg counter) {k : ℤ} (positive : 0 ≤ k) :
    Normal (carry counter k) := by
  induction counter generalizing k with
  | nil => simp [Normal]
  | cons place rest ih =>
    obtain ⟨radix, digit⟩ := place
    obtain ⟨some, least⟩ : 0 < radix ∧ 0 ≤ digit := nonneg (radix, digit) List.mem_cons_self
    have sum : 0 ≤ digit + k := by omega
    rw [carry_cons]
    rintro place (_ | ⟨_, member⟩)
    · exact ⟨Int.tmod_nonneg radix sum, Int.tmod_lt_of_pos _ some⟩
    · exact ih (fun place member => nonneg place (List.mem_cons_of_mem _ member))
        (Int.tdiv_nonneg sum some.le) place member

/-- What such a carry leaves is the sum, reduced. -/
theorem value_carry_of_nonneg {counter : Counter} (nonneg : Nonneg counter) {k : ℤ} (positive : 0 ≤ k) :
    value (carry counter k) = (value counter + k) % range counter := by
  obtain ⟨lower, upper⟩ := value_lt (carry_normal nonneg positive)
  rw [range_carry] at upper
  rw [← value_carry counter k, Int.emod_eq_of_lt lower upper]

/-- The digits of a normal counter are decided by its value. -/
theorem normal_unique {first second : Counter} (normal : Normal first) (normal' : Normal second)
    (radices : first.map Prod.fst = second.map Prod.fst) (same : value first = value second) : first = second := by
  induction first generalizing second with
  | nil => exact (List.map_eq_nil_iff.mp radices.symm).symm
  | cons place rest ih =>
    obtain ⟨radix, digit⟩ := place
    obtain ⟨⟨radix', digit'⟩, rest', rfl, equal, tail⟩ := List.map_eq_cons_iff.mp radices.symm
    obtain rfl : radix' = radix := equal
    obtain ⟨least, most⟩ : 0 ≤ digit ∧ digit < radix' := normal (radix', digit) List.mem_cons_self
    obtain ⟨least', most'⟩ : 0 ≤ digit' ∧ digit' < radix' := normal' (radix', digit') List.mem_cons_self
    simp only [value_cons] at same
    have low : digit = digit' := by
      have reduced := congrArg (· % radix') same
      simpa [Int.emod_eq_of_lt least most, Int.emod_eq_of_lt least' most'] using reduced
    have high : value rest = value rest' := by
      have positive : radix' ≠ 0 := by omega
      refine mul_left_cancel₀ positive ?_
      omega
    rw [low, ih (fun place member => normal place (List.mem_cons_of_mem _ member))
      (fun place member => normal' place (List.mem_cons_of_mem _ member)) tail.symm high]

end MixedRadix
