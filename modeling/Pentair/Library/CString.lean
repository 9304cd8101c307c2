import Mathlib.Data.List.Infix
import Mathlib.Data.List.TakeDrop

/-! Strings that stand one after another in a block of cells, each ended by a terminator.
Where they start is decided by the terminators alone, and a string is complete exactly if
there is one terminator more than strings before it. -/
namespace CString
variable {α : Type*} (nul : α)

/-- The string that starts here ends inside the block. -/
def Terminated (cells : List α) (start : ℕ) : Prop := nul ∈ cells.drop start

/-- The string that starts here, without its terminator. -/
def Spells (cells : List α) (start : ℕ) (text : List α) : Prop := nul ∉ text ∧ text ++ [nul] <+: cells.drop start

/-- Strings one after another. -/
def layout (texts : List (List α)) : List α := texts.flatMap (· ++ [nul])

theorem layout_concat (texts : List (List α)) (text : List α) :
    layout nul (texts ++ [text]) = layout nul texts ++ text ++ [nul] := by
  simp [layout]

/-- A string laid out is read back behind those before it, whatever stands behind its
terminator. -/
theorem spells_layout (before after : List (List α)) {text : List α} (plain : nul ∉ text) (more : List α) :
    Spells nul (layout nul (before ++ text :: after) ++ more) (layout nul before).length text := by
  refine ⟨plain, layout nul after ++ more, ?_⟩
  simp [layout]

variable [DecidableEq α]

/-- The places behind terminators, in a block whose first cell is numbered `offset`. -/
def behind (offset : ℕ) : List α → List ℕ
  | [] => []
  | c :: rest => if c = nul then (offset + 1) :: behind (offset + 1) rest else behind (offset + 1) rest

/-- Where the strings of a block start. The last one need not be complete, and may start at
the end of the block. -/
def starts (cells : List α) : List ℕ := 0 :: behind nul 0 cells

/-! ## Starts -/

theorem behind_append (offset : ℕ) (first second : List α) :
    behind nul offset (first ++ second) = behind nul offset first ++ behind nul (offset + first.length) second := by
  induction first generalizing offset with
  | nil => rfl
  | cons c rest ih =>
    have place : offset + (c :: rest).length = offset + 1 + rest.length := by
      rw [List.length_cons]
      omega
    simp only [List.cons_append, behind, ih, place]
    split <;> rfl

theorem length_behind (offset : ℕ) (cells : List α) : (behind nul offset cells).length = cells.count nul := by
  induction cells generalizing offset with
  | nil => rfl
  | cons c rest ih =>
    rw [behind, List.count_cons]
    split <;> simp_all

@[simp] theorem length_starts (cells : List α) : (starts nul cells).length = cells.count nul + 1 := by
  rw [starts, List.length_cons, length_behind]

/-- One more cell: another string starts behind it if it is a terminator. -/
theorem starts_concat (cells : List α) (c : α) :
    starts nul (cells ++ [c]) = starts nul cells ++ if c = nul then [cells.length + 1] else [] := by
  simp only [starts, behind_append, behind, Nat.zero_add, List.cons_append]

theorem getElem?_starts_concat (cells : List α) (k : ℕ) :
    (starts nul (cells ++ [nul]))[k]? =
      if k = cells.count nul + 1 then some (cells.length + 1) else (starts nul cells)[k]? := by
  rw [starts_concat, if_pos rfl]
  by_cases last : k = cells.count nul + 1
  · rw [if_pos last, last, ← length_starts nul cells, List.getElem?_concat_length]
  · rw [if_neg last]
    by_cases early : k < (starts nul cells).length
    · rw [List.getElem?_append_left early]
    · rw [length_starts] at early
      rw [List.getElem?_eq_none, List.getElem?_eq_none] <;>
        simp only [length_starts, List.length_append, List.length_singleton] <;> omega

/-- More cells leave the strings before them where they are. -/
theorem starts_append {first : List α} {k start : ℕ} (found : (starts nul first)[k]? = some start) (second : List α) :
    (starts nul (first ++ second))[k]? = some start := by
  rw [starts, behind_append, ← List.cons_append]
  exact List.getElem?_append_left (List.getElem?_eq_some_iff.mp found).1 ▸ found

/-- As many terminators stand before a string as strings do. -/
theorem count_take_start {cells : List α} {k start : ℕ} (found : (starts nul cells)[k]? = some start) :
    start ≤ cells.length ∧ (cells.take start).count nul = k := by
  induction cells using List.reverseRecOn with
  | nil =>
    obtain ⟨rfl, rfl⟩ : k = 0 ∧ start = 0 := by
      cases k with
      | zero => exact ⟨rfl, (Option.some.inj found).symm⟩
      | succ k => cases found
    exact ⟨le_rfl, rfl⟩
  | append_singleton cells c ih =>
    by_cases early : k < (starts nul cells).length
    · have same : (starts nul (cells ++ [c]))[k]? = (starts nul cells)[k]? := by
        rw [starts_concat, List.getElem?_append_left early]
      obtain ⟨inside, before⟩ := ih (same.symm.trans found)
      rw [List.take_append_of_le_length inside, List.length_append]
      exact ⟨by omega, before⟩
    · -- only the string behind a new terminator is left
      have within := (List.getElem?_eq_some_iff.mp found).1
      rw [length_starts, List.count_append] at within
      rw [length_starts] at early
      obtain rfl : c = nul := by
        by_contra other
        rw [List.count_singleton, if_neg (by simpa using other)] at within
        omega
      rw [List.count_singleton_self] at within
      rw [getElem?_starts_concat, if_pos (by omega)] at found
      obtain rfl := Option.some.inj found
      rw [List.take_of_length_le (by simp), List.count_append, List.count_singleton_self, List.length_append]
      exact ⟨le_rfl, by omega⟩

/-- A string is complete if another terminator is left for it. -/
theorem terminated_iff {cells : List α} {k start : ℕ} (found : (starts nul cells)[k]? = some start) :
    Terminated nul cells start ↔ k < cells.count nul := by
  obtain ⟨_, before⟩ := count_take_start nul found
  have whole : (cells.take start).count nul + (cells.drop start).count nul = cells.count nul := by
    rw [← List.count_append, List.take_append_drop]
  rw [Terminated, ← List.count_pos_iff]
  omega

theorem count_layout {texts : List (List α)} (plain : ∀ text ∈ texts, nul ∉ text) :
    (layout nul texts).count nul = texts.length := by
  induction texts using List.reverseRecOn with
  | nil => rfl
  | append_singleton texts text ih =>
    rw [layout_concat, List.count_append, List.count_append, List.count_singleton_self,
      ih fun other member => plain other (List.mem_append_left _ member),
      List.count_eq_zero_of_not_mem (plain text (by simp)), List.length_append, List.length_singleton]

/-- A stretch with a terminator for each string laid out holds all of them. -/
theorem layout_prefix_of_count {texts : List (List α)} (plain : ∀ text ∈ texts, nul ∉ text) {seen cells : List α}
    (first : layout nul texts <+: cells) (stretch : seen <+: cells) (enough : texts.length ≤ seen.count nul) :
    layout nul texts <+: seen := by
  rcases List.prefix_or_prefix_of_prefix first stretch with inside | early
  · exact inside
  · rcases List.eq_nil_or_concat texts with rfl | ⟨before, last, rfl⟩
    · exact List.nil_prefix
    · rw [List.concat_eq_append, layout_concat] at early ⊢
      rcases List.prefix_concat_iff.mp early with rfl | shorter
      · exact List.prefix_rfl
      · have count := shorter.sublist.count_le nul
        rw [List.count_append, count_layout nul fun other member => plain other (by simp [member]),
          List.count_eq_zero_of_not_mem (plain last (by simp))] at count
        simp only [List.concat_eq_append, List.length_append, List.length_singleton] at enough
        omega

/-- Behind strings laid out, the next one starts. -/
theorem starts_layout {before : List (List α)} (plain : ∀ other ∈ before, nul ∉ other) (more : List α) :
    (starts nul (layout nul before ++ more))[before.length]? = some (layout nul before).length := by
  refine starts_append nul ?_ more
  induction before using List.reverseRecOn with
  | nil => rfl
  | append_singleton before last _ =>
    have count : (layout nul before ++ last).count nul = before.length := by
      rw [List.count_append, count_layout nul fun other member => plain other (List.mem_append_left _ member),
        List.count_eq_zero_of_not_mem (plain last (by simp)), Nat.add_zero]
    rw [layout_concat, getElem?_starts_concat, count, if_pos (by simp)]
    simp [Nat.add_assoc]

end CString
