import Mathlib.Data.List.Infix
import Mathlib.Data.Nat.Notation

/-! Text of lines, and searching it for a pattern. A text is cut at one character at a
time: a pattern in which that character does not occur stands on one side of the cut, and
one that ends with it ends at a cut. -/
namespace Grep
variable {α : Type*} {c : α} {pattern front line : List α}

/-- Lists by the first place where `c` stands. -/
theorem cut_induction [DecidableEq α] {P : List α → Prop} (c : α) (plain : ∀ line, c ∉ line → P line)
    (cut : ∀ front rest, c ∉ front → P rest → P (front ++ c :: rest)) (line : List α) : P line := by
  by_cases member : c ∈ line
  · obtain ⟨front, rest, whole, first⟩ := List.eq_append_cons_of_mem member
    exact whole ▸ cut front rest first (cut_induction c plain cut rest)
  · exact plain line member
termination_by line.length
decreasing_by
  rw [whole, List.length_append, List.length_cons]
  omega

theorem suffix_cut (plain : c ∉ pattern) {rest : List α} (found : pattern <:+ front ++ c :: rest) :
    pattern <:+ rest := by
  rcases List.suffix_or_suffix_of_suffix found (List.suffix_append front (c :: rest)) with behind | across
  · rcases List.suffix_cons_iff.mp behind with whole | behind
    · exact absurd (whole ▸ List.mem_cons_self) plain
    · exact behind
  · exact absurd (across.subset List.mem_cons_self) plain

theorem infix_cut (plain : c ∉ pattern) (front rest : List α) :
    pattern <:+: front ++ c :: rest ↔ pattern <:+: front ∨ pattern <:+: rest := by
  constructor
  · rintro ⟨before, behind, whole⟩
    rcases List.append_eq_append_iff.mp whole with ⟨gap, rfl, _⟩ | ⟨gap, left, right⟩
    · exact .inl ⟨before, gap, rfl⟩
    · cases gap with
      | nil =>
        rw [List.append_nil] at left
        exact .inl ⟨before, [], by rw [List.append_nil, left]⟩
      | cons d gap =>
        obtain ⟨rfl, rfl⟩ := List.cons.inj right
        have ends : pattern <:+ gap := suffix_cut plain ⟨before, left⟩
        exact .inr (ends.isInfix.trans (List.infix_append [] gap behind))
  · rintro (inside | inside)
    · exact inside.trans (List.infix_append [] front (c :: rest))
    · exact inside.trans ((List.suffix_cons c rest).trans (List.suffix_append front (c :: rest))).isInfix

/-- A pattern that ends with `c` ends at a place where `c` stands. -/
theorem mark_cut (plain : c ∉ pattern) (first : c ∉ front) (rest : List α) :
    pattern ++ [c] <:+: front ++ c :: rest ↔ pattern <:+ front ∨ pattern ++ [c] <:+: rest := by
  constructor
  · rintro ⟨before, behind, whole⟩
    have parts : (before ++ pattern) ++ c :: behind = front ++ c :: rest := by simpa using whole
    rcases List.append_eq_append_iff.mp parts with ⟨gap, left, right⟩ | ⟨gap, left, right⟩
    · cases gap with
      | nil => exact .inl ⟨before, by simpa using left.symm⟩
      | cons d gap =>
        obtain ⟨rfl, _⟩ := List.cons.inj right
        exact absurd (left ▸ by simp) first
    · cases gap with
      | nil => exact .inl ⟨before, by simpa using left⟩
      | cons d gap =>
        obtain ⟨rfl, rfl⟩ := List.cons.inj right
        obtain ⟨space, rfl⟩ : pattern <:+ gap := suffix_cut plain ⟨before, left⟩
        exact .inr ⟨space, behind, by simp⟩
  · rintro (⟨before, rfl⟩ | inside)
    · exact ⟨before, rest, by simp⟩
    · exact inside.trans ((List.suffix_cons c rest).trans (List.suffix_append front (c :: rest))).isInfix

variable [DecidableEq α]

/-- What stands before each `c`. -/
def fronts (c : α) (line : List α) : List (List α) := (line.splitOn c).dropLast

theorem fronts_plain (plain : c ∉ line) : fronts c line = [] := by
  rw [fronts, List.splitOn_eq_singleton plain, List.dropLast_singleton]

theorem fronts_cut (first : c ∉ front) (rest : List α) : fronts c (front ++ c :: rest) = front :: fronts c rest := by
  rw [fronts, List.splitOn_append_cons_self_of_not_mem first,
    List.dropLast_cons_of_ne_nil (List.splitOn_ne_nil c rest), fronts]

/-- A pattern that ends with `c` is found where one of the fronts ends with the rest of it. -/
theorem mark_iff (plain : c ∉ pattern) (line : List α) :
    pattern ++ [c] <:+: line ↔ ∃ front ∈ fronts c line, pattern <:+ front := by
  induction line using cut_induction c with
  | plain line absent =>
    rw [fronts_plain absent]
    simp only [List.not_mem_nil, false_and, exists_false, iff_false]
    exact fun found => absent (found.subset (by simp))
  | cut front rest first ih => rw [mark_cut plain first, ih, fronts_cut first, List.exists_mem_cons_iff]

/-! ## Lines -/

/-- The text of lines, each with a line end behind it. -/
def text (lines : List (List Char)) : List Char := lines.flatMap (· ++ ['\r', '\n'])

/-- The lines of a text in which the pattern occurs. -/
def grep (pattern text : List Char) : List (List Char) := (text.splitOn '\n').filter (pattern <:+: ·)

variable {pattern line : List Char}

theorem grep_cut (front rest : List Char) :
    grep pattern (front ++ '\n' :: rest) = grep pattern front ++ grep pattern rest := by
  rw [grep, List.splitOn_append_cons_self, List.filter_append, grep, grep]

/-- Text without the pattern has no line with it. -/
theorem grep_of_not {text : List Char} (absent : ¬ pattern <:+: text) : grep pattern text = [] := by
  induction text using cut_induction '\n' with
  | plain text unbroken =>
    rw [grep, List.splitOn_eq_singleton unbroken]
    simpa using absent
  | cut front rest unbroken ih =>
    rw [grep_cut, ih fun inside => absent (inside.trans ?_)]
    · rw [grep, List.splitOn_eq_singleton unbroken, List.append_nil]
      simpa using fun inside => absent (inside.trans (List.infix_append [] front _))
    · exact ((List.suffix_cons _ rest).trans (List.suffix_append front _)).isInfix

/-- Each line is searched by itself. -/
theorem grep_text (some : pattern ≠ []) (lines : List (List Char)) :
    grep pattern (text lines) = lines.flatMap fun line => grep pattern (line ++ ['\r']) := by
  induction lines with
  | nil => exact grep_of_not (by simpa [text] using some)
  | cons line rest ih =>
    have cut : text (line :: rest) = (line ++ ['\r']) ++ '\n' :: text rest := by simp [text]
    rw [cut, grep_cut, ih, List.flatMap_cons]

theorem grep_line_of_not (plain : '\r' ∉ pattern) (some : pattern ≠ []) (absent : ¬ pattern <:+: line) :
    grep pattern (line ++ ['\r']) = [] := by
  refine grep_of_not fun found => ?_
  rcases (infix_cut plain line []).mp found with inside | none
  · exact absent inside
  · exact some (List.infix_nil.mp none)

theorem grep_line_of (unbroken : '\n' ∉ line) (present : pattern <:+: line) :
    grep pattern (line ++ ['\r']) = [line ++ ['\r']] := by
  rw [grep, List.splitOn_eq_singleton (by simpa using unbroken)]
  simpa using present.trans (List.infix_append [] line ['\r'])

end Grep
