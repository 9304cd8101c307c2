import Mathlib.Data.List.Basic
import Mathlib.Data.List.Induction

/-! Registers of a state machine. A register is a part of the state that some inputs
overwrite and all others leave alone, so after any history it holds what the last input
that wrote it put there, and histories that agree on the writers agree on it. -/

/-- A part of the states of `step`, the inputs that write it, and what each of them leaves
there. -/
structure Register {σ ι : Type*} (step : σ → ι → σ) (β : Type*) where
  view : σ → β
  writes : ι → Bool
  content : ι → β
  written : ∀ s i, writes i = true → view (step s i) = content i
  kept : ∀ s i, writes i = false → view (step s i) = view s

namespace Register
variable {σ ι β : Type*} {step : σ → ι → σ} (r : Register step β)

/-- The last input of a history that wrote the register. -/
def last (history : List ι) : Option ι := (history.filter r.writes).getLast?

/-- What a history leaves in a register that held `before`. -/
def after (before : β) (history : List ι) : β := ((r.last history).map r.content).getD before

@[simp] theorem last_nil : r.last [] = none := rfl

theorem last_concat (history : List ι) (i : ι) :
    r.last (history ++ [i]) = if r.writes i = true then some i else r.last history := by
  rw [last, List.filter_append]
  cases writes : r.writes i with
  | true => simp [writes]
  | false => simp [last, writes]

/-- A register holds what its last writer left. -/
theorem view_run (s : σ) (history : List ι) : r.view (history.foldl step s) = r.after (r.view s) history := by
  induction history using List.reverseRecOn with
  | nil => rfl
  | append_singleton history i ih =>
    rw [List.foldl_concat, after, last_concat]
    cases writes : r.writes i with
    | true => exact r.written _ i writes
    | false => exact (r.kept _ i writes).trans ih

/-- Histories with the same writers leave the same. -/
theorem view_congr {s t : σ} {history other : List ι} (start : r.view s = r.view t)
    (same : history.filter r.writes = other.filter r.writes) :
    r.view (history.foldl step s) = r.view (other.foldl step t) := by
  rw [view_run, view_run, start, after, after, last, last, same]

end Register
