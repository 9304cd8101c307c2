import Mathlib.Data.Nat.Notation

/-! Programs that read cells by offset and nothing else. Running one over a memory
gives its result together with the offsets it read, and both are decided by the
cells at those offsets alone. -/

/-- A program that returns a result, or reads the cell at an offset and goes on
with what it found. -/
inductive Reads (β : Type) (α : Type) where
  | done (result : α)
  | read (offset : ℕ) (next : β → Reads β α)

namespace Reads
variable {α β γ : Type}

def bind (program : Reads β α) (next : α → Reads β γ) : Reads β γ :=
  match program with
  | .done result => next result
  | .read offset rest => .read offset fun cell => (rest cell).bind next

instance : Monad (Reads β) where
  pure := .done
  bind := bind

/-- Read the cell at one offset. -/
def cell (offset : ℕ) : Reads β β := .read offset .done

/-- The result over `memory`, and the offsets read on the way, in order. -/
def run (memory : ℕ → β) : Reads β α → α × List ℕ
  | .done result => (result, [])
  | .read offset next =>
    ((run memory (next (memory offset))).1, offset :: (run memory (next (memory offset))).2)

@[simp] theorem run_pure (memory : ℕ → β) (result : α) :
    (pure result : Reads β α).run memory = (result, []) := rfl

@[simp] theorem run_cell (memory : ℕ → β) (offset : ℕ) :
    (cell offset : Reads β β).run memory = (memory offset, [offset]) := rfl

@[simp] theorem run_bind (memory : ℕ → β) (program : Reads β α) (next : α → Reads β γ) :
    (program >>= next).run memory =
      (((next (program.run memory).1).run memory).1,
        (program.run memory).2 ++ ((next (program.run memory).1).run memory).2) := by
  change (program.bind next).run memory = _
  induction program with
  | done result => rfl
  | read offset rest ih => simp [Reads.bind, run, ih]

/-- Memories that agree on the cells read give the same run. -/
theorem run_congr {memory other : ℕ → β} {program : Reads β α}
    (same : ∀ k ∈ (program.run memory).2, memory k = other k) : program.run memory = program.run other := by
  induction program with
  | done result => rfl
  | read offset next ih =>
    have here : memory offset = other offset := same offset List.mem_cons_self
    have rest := ih (memory offset) fun k read => same k (List.mem_cons_of_mem _ read)
    simp only [run, ← here, rest]

end Reads
