import Mathlib.Algebra.Group.Nat.Defs
import Mathlib.Data.List.Basic
import Mathlib.Data.Int.Notation
import Mathlib.Data.Nat.Notation

/-! Numbers in text: written in decimal, with a sign and leading zeros or without, with a
separator that is no digit between them or a name before them, they can all be read back. -/
namespace Fields

def decimal (n : ℕ) : List Char := Nat.toDigits 10 n

/-- The number that digits spell. -/
def value (text : List Char) : ℕ := Nat.ofDigitChars 10 text 0

@[simp] theorem value_decimal (n : ℕ) : value (decimal n) = n := Nat.ofDigitChars_ten_toDigits

theorem isDigit_of_mem_decimal {n : ℕ} {c : Char} (member : c ∈ decimal n) : c.isDigit = true :=
  Nat.isDigit_of_mem_toDigits (by decide) (by decide) member

theorem not_mem_decimal {c : Char} (other : c.isDigit = false) (n : ℕ) : c ∉ decimal n := fun member =>
  Bool.false_ne_true (other.symm.trans (isDigit_of_mem_decimal member))

theorem length_decimal_le {n k : ℕ} (positive : 0 < k) (small : n < 10 ^ k) : (decimal n).length ≤ k :=
  (Nat.length_toDigits_le_iff (by decide) positive).mpr small

/-! ## Cutting at a character -/

variable {separator c : Char} {front : List Char}

theorem takeWhile_cut (plain : c ∉ front) (rest : List Char) : (front ++ c :: rest).takeWhile (· ≠ c) = front := by
  have before : ∀ d ∈ front, decide (d ≠ c) = true := fun d member =>
    decide_eq_true fun same => plain (same ▸ member)
  rw [List.takeWhile_append_of_pos before, List.takeWhile_cons_of_neg (by simp), List.append_nil]

theorem dropWhile_cut (plain : c ∉ front) (rest : List Char) :
    (front ++ c :: rest).dropWhile (· ≠ c) = c :: rest := by
  have before : ∀ d ∈ front, decide (d ≠ c) = true := fun d member =>
    decide_eq_true fun same => plain (same ▸ member)
  rw [List.dropWhile_append_of_pos before, List.dropWhile_cons_of_neg (by simp)]

/-! ## Signed numbers -/

def signed (n : ℤ) : List Char := if n < 0 then '-' :: decimal n.natAbs else decimal n.natAbs

/-- The number that digits behind a sign, or without one, spell. -/
def readSigned (text : List Char) : ℤ :=
  if '-' ∈ text then -value ((text.dropWhile (· ≠ '-')).drop 1) else value text

theorem not_mem_signed {c : Char} (other : c.isDigit = false) (noSign : c ≠ '-') (zeros : ℕ) (n : ℤ) :
    c ∉ List.replicate zeros '0' ++ signed n := by
  rw [List.mem_append]
  rintro (zero | inside)
  · rw [List.eq_of_mem_replicate zero] at other
    cases other
  · unfold signed at inside
    split at inside
    · rcases List.mem_cons.mp inside with sign | digit
      · exact noSign sign
      · exact not_mem_decimal other _ digit
    · exact not_mem_decimal other _ inside

/-- Leading zeros, even in front of the sign, do not change the number. -/
theorem readSigned_signed (zeros : ℕ) (n : ℤ) : readSigned (List.replicate zeros '0' ++ signed n) = n := by
  have unsigned : ∀ k : ℕ, '-' ∉ List.replicate k '0' := fun k member =>
    absurd (List.eq_of_mem_replicate member) (by decide)
  unfold signed
  split_ifs with negative
  · rw [readSigned, if_pos (by simp), dropWhile_cut (unsigned zeros), List.drop_one, List.tail_cons, value_decimal]
    omega
  · have plain : '-' ∉ List.replicate zeros '0' ++ decimal n.natAbs := by
      rw [List.mem_append]
      exact fun member => member.elim (unsigned zeros) (not_mem_decimal (by decide) _)
    have leading : value (List.replicate zeros '0' ++ decimal n.natAbs) = n.natAbs := by
      rw [value, Nat.ofDigitChars_append, Nat.ofDigitChars_replicate_zero, Nat.mul_zero]
      exact value_decimal _
    rw [readSigned, if_neg plain, leading]
    omega

/-! ## Numbers between separators -/

/-- Numbers with a separator between them. -/
def joined (separator : Char) (values : List ℕ) : List Char := [separator].intercalate (values.map decimal)

/-- The numbers between separators. -/
def split (separator : Char) (text : List Char) : List ℕ := (text.splitOn separator).map value

theorem split_joined (other : separator.isDigit = false) {values : List ℕ} (some : values ≠ []) :
    split separator (joined separator values) = values := by
  have apart : ∀ text ∈ values.map decimal, separator ∉ text := by
    intro text member
    obtain ⟨n, _, rfl⟩ := List.mem_map.mp member
    exact not_mem_decimal other n
  rw [split, joined, List.splitOn_intercalate separator apart (by simpa using some), List.map_map]
  simp [Function.comp_def]

theorem not_mem_joined (other : c.isDigit = false) (differ : c ≠ separator) (values : List ℕ) :
    c ∉ joined separator values := by
  unfold joined
  induction values with
  | nil => simp
  | cons n rest ih =>
    cases rest with
    | nil => simpa using not_mem_decimal other n
    | cons next rest =>
      rw [List.map_cons, List.map_cons, List.intercalate_cons_cons, ← List.map_cons, List.mem_append, List.mem_append]
      rintro ((digit | between) | later)
      · exact not_mem_decimal other n digit
      · exact differ (List.mem_singleton.mp between)
      · exact ih later

/-! ## Numbers with names -/

/-- A number with its name before it. -/
def named (name : List Char) (n : ℕ) : List Char := name ++ ' ' :: decimal n

def readNamed (text : List Char) : List Char × ℕ :=
  (text.takeWhile (· ≠ ' '), value ((text.dropWhile (· ≠ ' ')).drop 1))

theorem readNamed_named {name : List Char} (plain : ' ' ∉ name) (n : ℕ) : readNamed (named name n) = (name, n) := by
  rw [readNamed, named, takeWhile_cut plain, dropWhile_cut plain, List.drop_one, List.tail_cons, value_decimal]

/-- Lines of named numbers, with an empty line behind them. -/
def lines (names : List (List Char)) (values : List ℕ) : List Char :=
  (List.zipWith named names values).flatMap (· ++ ['\n']) ++ ['\n']

def readLines (text : List Char) : List (List Char × ℕ) :=
  ((text.splitOn '\n').takeWhile (· ≠ [])).map readNamed

theorem readLines_lines {names : List (List Char)} (plain : ∀ name ∈ names, ' ' ∉ name ∧ '\n' ∉ name)
    (values : List ℕ) : readLines (lines names values) = names.zip values := by
  unfold readLines lines
  induction names generalizing values with
  | nil => simp [List.splitOn_cons_eq_if_modifyHead]
  | cons name names ih =>
    cases values with
    | nil => simp [List.splitOn_cons_eq_if_modifyHead]
    | cons n values =>
      obtain ⟨⟨spaceless, unbroken⟩, others⟩ := List.forall_mem_cons.mp plain
      have whole : '\n' ∉ named name n := by
        rw [named, List.mem_append, List.mem_cons]
        rintro (inside | space | digit)
        · exact unbroken inside
        · exact absurd space (by decide)
        · exact not_mem_decimal (by decide) n digit
      rw [List.zipWith_cons_cons, List.flatMap_cons, List.append_assoc, List.append_assoc, List.singleton_append,
        List.splitOn_append_cons_self_of_not_mem whole, List.takeWhile_cons_of_pos (by simp [named]), List.map_cons,
        readNamed_named spaceless, ih others]
      rfl

end Fields
