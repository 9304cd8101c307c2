import Mathlib.Data.Nat.ModEq

/-! A fixed block of cells written cyclically. The write position is the number
of elements written so far, reduced modulo the size, so the block always holds
the most recent elements of an unbounded history. -/
namespace Ring
variable {α : Type*} {size : ℕ}

/-- Every element of `history` that has not been written over stands in the cell
of its index modulo the size. -/
def Holds (cells : Vector α size) (history : List α) : Prop :=
  ∀ i (inside : i % size < size) x, history[i]? = some x → history.length ≤ i + size →
    cells[i % size] = x

theorem holds_nil (cells : Vector α size) : Holds cells [] := by
  intro i inside x found
  simp at found

/-- Two indices in one window of `size` share a cell only when they are equal. -/
private theorem cell_injective {i j : ℕ} (before : i < j) (near : j < i + size) :
    i % size ≠ j % size := by
  intro same
  have divides : size ∣ j - i := (Nat.modEq_iff_dvd' before.le).mp same
  have := Nat.le_of_dvd (by omega) divides
  omega

/-- Writing the next element at its cell keeps the block in step with the history. -/
theorem holds_write {cells : Vector α size} {history : List α} (held : Holds cells history)
    (x : α) {cell : ℕ} (inside : cell < size) (next : cell = history.length % size) :
    Holds (cells.set cell x) (history ++ [x]) := by
  subst next
  intro i within y found near
  simp only [List.length_append, List.length_singleton] at near
  rcases Nat.lt_trichotomy i history.length with before | rfl | beyond
  · rw [Vector.getElem_set_ne _ _ (cell_injective before (by omega)).symm]
    rw [List.getElem?_append_left before] at found
    exact held i within y found (by omega)
  · simpa using found
  · rw [List.getElem?_eq_none (by simp only [List.length_append, List.length_singleton]; omega)] at found
    cases found

/-- The element `after.length` places from the end, as long as it is recent. -/
theorem recent {cells : Vector α size} (before : List α) {after : List α} {x : α}
    (held : Holds cells (before ++ x :: after)) (near : after.length < size)
    {cell : ℕ} (inside : cell < size) (place : cell = before.length % size) : cells[cell] = x := by
  subst place
  exact held before.length inside x (by simp) (by simp only [List.length_append, List.length_cons]; omega)

/-- A stretch of the history that neither crosses the end of the block nor has
been written over stands in consecutive cells. -/
theorem stretch {cells : Vector α size} {before middle : List α} (after : List α)
    (held : Holds cells (before ++ middle ++ after)) (near : middle.length + after.length ≤ size)
    {start : ℕ} (place : start = before.length % size) (fits : start + middle.length ≤ size)
    {k : ℕ} (within : k < middle.length) : cells[start + k] = middle[k] := by
  have wraps : (before.length + k) % size = start + k := by
    have below : start + k < size := by omega
    rw [Nat.add_mod, ← place, Nat.mod_eq_of_lt (by omega : k < size), Nat.mod_eq_of_lt below]
  have cell := held (before.length + k) (by omega) middle[k]
    (by simp [List.append_assoc, List.getElem?_append_right, List.getElem?_append, within])
    (by simp only [List.length_append]; omega)
  simpa only [wraps] using cell

/-- Whether the history ends with a marker can be read off consecutive cells, unless
the marker crosses the end of the block. -/
theorem suffix_iff {cells : Vector α size} {history : List α} (marker : List α) (held : Holds cells history)
    (long : marker.length ≤ history.length) (start : ℕ)
    (place : start = (history.length - marker.length) % size) (fits : start + marker.length ≤ size) :
    marker <:+ history ↔ ∀ k (within : k < marker.length), cells[start + k] = marker[k] := by
  obtain ⟨before, last, rfl, width⟩ : ∃ before last, history = before ++ last ∧
      last.length = marker.length :=
    ⟨history.take (history.length - marker.length), history.drop (history.length - marker.length),
      (List.take_append_drop _ _).symm, by simp only [List.length_drop]; omega⟩
  have position : start = before.length % size := by
    rw [place, List.length_append, width, Nat.add_sub_cancel]
  have cells_eq : ∀ k (within : k < last.length), cells[start + k] = last[k] := fun k within =>
    stretch [] (by simpa using held) (by simp only [List.length_nil]; omega) position
      (by omega) within
  constructor
  · intro ends k within
    have same : marker = last := List.IsSuffix.eq_of_length
      (List.suffix_of_suffix_length_le ends (List.suffix_append before last) width.ge) width.symm
    subst same
    exact cells_eq k within
  · intro agrees
    have same : last = marker := List.ext_getElem width fun k within within' =>
      (cells_eq k within).symm.trans (agrees k within')
    exact same ▸ List.suffix_append before last

end Ring
