import Mathlib.Data.List.Infix

/-! Where a fixed marker occurs in a sequence. A marker whose last element cannot
be found in a stretch cannot end inside that stretch, which is how framing bytes
are kept apart from what surrounds them. -/
namespace Marker
variable {α : Type*}

/-- An occurrence of `marker` ends with the element at index `i`. -/
def EndsAt (marker text : List α) (i : ℕ) : Prop :=
  i < text.length ∧ marker <:+ text.take (i + 1)

/-- A sequence in which no occurrence ends before `i` is free of the marker up to there. -/
theorem not_infix_take {marker text : List α} (nonempty : marker ≠ []) {i : ℕ}
    (early : ∀ j < i, ¬ EndsAt marker text j) : ¬ marker <:+: text.take i := by
  intro found
  obtain ⟨stop, ends, starts⟩ := List.infix_iff_suffix_prefix.mp found
  have shorter := starts.length_le
  have positive : 0 < stop.length :=
    Nat.lt_of_lt_of_le (List.length_pos_iff.mpr nonempty) ends.length_le
  rw [List.length_take] at shorter
  have spelling : stop = text.take (stop.length - 1 + 1) := by
    rw [Nat.sub_add_cancel positive, List.prefix_iff_eq_take.mp (starts.trans (List.take_prefix i text))]
    simp
  exact early (stop.length - 1) (by omega) ⟨by omega, spelling ▸ ends⟩

/-- Appending elements other than the marker's last one completes no occurrence. -/
theorem not_infix_append (front : List α) {text tail : List α} {last : α}
    (free : ¬ front ++ [last] <:+: text) (absent : last ∉ tail) :
    ¬ front ++ [last] <:+: text ++ tail := by
  induction tail using List.reverseRecOn with
  | nil => simpa using free
  | append_singleton tail x ih =>
    simp only [List.mem_append, List.mem_singleton, not_or] at absent
    rw [← List.append_assoc, List.infix_concat_iff]
    rintro (ends | before)
    · rcases List.suffix_concat_iff.mp ends with empty | ⟨stop, spelling, _⟩
      · simp at empty
      · obtain ⟨_, same⟩ := List.append_inj' spelling rfl
        exact absent.2 (by simpa using same)
    · exact ih absent.1 before

/-- A suffix of a prefix is an occurrence in the whole. -/
theorem infix_of_suffix_prefix {marker stop text : List α} (ends : marker <:+ stop)
    (starts : stop <+: text) : marker <:+: text :=
  List.infix_iff_suffix_prefix.mpr ⟨stop, ends, starts⟩

/-- A sequence that contains a marker has a first occurrence: everything up to it
is free of the marker except at its very end. -/
theorem first_occurrence {marker text : List α} (nonempty : marker ≠ []) (found : marker <:+: text) :
    ∃ before after, text = before ++ marker ++ after ∧ ¬ marker <:+: (before ++ marker).dropLast := by
  induction text using List.reverseRecOn with
  | nil => exact absurd (List.infix_nil.mp found) nonempty
  | append_singleton text x ih =>
    rcases Classical.em (marker <:+: text) with earlier | free
    · obtain ⟨before, after, spelling, first⟩ := ih earlier
      exact ⟨before, after ++ [x], by simp [spelling], first⟩
    · obtain ⟨before, spelling⟩ := (List.infix_concat_iff.mp found).resolve_right free
      exact ⟨before, [], by simp [spelling], by rw [spelling]; simpa using free⟩

end Marker
