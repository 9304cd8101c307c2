import Mathlib.Data.List.Basic
import Mathlib.Data.List.Forall2
import Mathlib.Data.List.Induction

/-! Recognisers that read one input at a time, say whether that input completed
something, and are restarted by their driver after each completion. The driver's
runs, the completions it sees and the inputs since its last restart are defined
here once, with the rules that carry an invariant or a simulation from one step
to a whole run. -/

/-- `step` reads one input and reports a completion; `restart` is what the driver
applies to the state after a completion. -/
structure Recognizer (σ ι : Type*) where
  step : σ → ι → Bool × σ
  restart : σ → σ

namespace Recognizer
variable {σ τ ι κ : Type*} (m : Recognizer σ ι) (n : Recognizer τ κ)

/-- One round of the driver: read an input, restart if it completed something. -/
def round (s : σ) (i : ι) : σ :=
  if (m.step s i).1 then m.restart (m.step s i).2 else (m.step s i).2

/-- The state after a stream of rounds. -/
def feed (s : σ) (inputs : List ι) : σ := inputs.foldl m.round s

/-- The state after a stream of steps that are never restarted. -/
def drive (s : σ) (inputs : List ι) : σ := inputs.foldl (fun s i => (m.step s i).2) s

/-- Steps up to the first completion: its index, and the state it leaves. -/
def scan (s : σ) : List ι → Option ℕ × σ
  | [] => (none, s)
  | i :: rest =>
    if (m.step s i).1 then (some 0, (m.step s i).2)
    else ((scan (m.step s i).2 rest).1.map (· + 1), (scan (m.step s i).2 rest).2)

/-- Every completion of a run: its index in the stream and the state it leaves,
before the restart. -/
def completions (s : σ) : List ι → List (ℕ × σ)
  | [] => []
  | i :: rest =>
    (if (m.step s i).1 then [(0, (m.step s i).2)] else []) ++
      (completions (m.round s i) rest).map fun done => (done.1 + 1, done.2)

/-- The inputs read since the last restart, when `since` were already read. -/
def pending (s : σ) (since : List ι) : List ι → List ι
  | [] => since
  | i :: rest => pending (m.round s i) (if (m.step s i).1 then [] else since ++ [i]) rest

variable {m n}

@[simp] theorem round_of_complete {s : σ} {i : ι} (complete : (m.step s i).1 = true) :
    m.round s i = m.restart (m.step s i).2 := by
  simp [round, complete]

@[simp] theorem round_of_incomplete {s : σ} {i : ι} (incomplete : (m.step s i).1 = false) :
    m.round s i = (m.step s i).2 := by
  simp [round, incomplete]

@[simp] theorem feed_nil (s : σ) : m.feed s [] = s := rfl
@[simp] theorem feed_cons (s : σ) (i : ι) (rest : List ι) :
    m.feed s (i :: rest) = m.feed (m.round s i) rest := rfl
@[simp] theorem scan_nil (s : σ) : m.scan s [] = (none, s) := rfl
@[simp] theorem completions_nil (s : σ) : m.completions s [] = [] := rfl
@[simp] theorem pending_nil (s : σ) (since : List ι) : m.pending s since [] = since := rfl

theorem feed_append (s : σ) (first second : List ι) :
    m.feed s (first ++ second) = m.feed (m.feed s first) second := by
  simp [feed]

/-- What is pending was read last. -/
theorem pending_suffix (s : σ) (since inputs : List ι) : m.pending s since inputs <:+ since ++ inputs := by
  induction inputs generalizing s since with
  | nil => simp
  | cons i rest ih =>
    rw [pending]
    split
    · exact (ih _ _).trans ⟨since ++ [i], by simp⟩
    · simpa using ih (m.round s i) (since ++ [i])

/-- An invariant kept by every round holds after every stream. -/
theorem feed_invariant {P : σ → Prop} (kept : ∀ s i, P s → P (m.round s i)) {s : σ} (start : P s)
    (inputs : List ι) : P (m.feed s inputs) := by
  induction inputs generalizing s with
  | nil => exact start
  | cons i rest ih => exact ih (kept s i start)

/-! ## Streams split at completions -/

/-- A scan that finds nothing steps through its first input without completing. -/
theorem scan_cons_none {s t : σ} {i : ι} {rest : List ι} :
    m.scan s (i :: rest) = (none, t) ↔
      (m.step s i).1 = false ∧ m.scan (m.step s i).2 rest = (none, t) := by
  cases reported : (m.step s i).1 <;> simp [scan, reported, Prod.ext_iff]

/-- A scan finds its completion at the first input or, one place later, in the rest. -/
theorem scan_cons_some {s t : σ} {k : ℕ} {i : ι} {rest : List ι} :
    m.scan s (i :: rest) = (some k, t) ↔
      ((m.step s i).1 = true ∧ k = 0 ∧ (m.step s i).2 = t) ∨
      ((m.step s i).1 = false ∧ ∃ j, k = j + 1 ∧ m.scan (m.step s i).2 rest = (some j, t)) := by
  cases reported : (m.step s i).1 with
  | true => simp [scan, reported, eq_comm]
  | false =>
    simp only [scan, reported, Bool.false_eq_true, if_false, false_and, false_or, true_and,
      Prod.ext_iff, Option.map_eq_some_iff]
    constructor
    · rintro ⟨⟨j, found, rfl⟩, state⟩
      exact ⟨j, rfl, found, state⟩
    · rintro ⟨j, rfl, found, state⟩
      exact ⟨⟨j, found, rfl⟩, state⟩

/-- Steps that complete nothing hand over to the rest of the stream. -/
theorem scan_append_of_none {s t : σ} {first : List ι} (silent : m.scan s first = (none, t))
    (second : List ι) :
    m.scan s (first ++ second) = ((m.scan t second).1.map (· + first.length), (m.scan t second).2) := by
  induction first generalizing s with
  | nil =>
    cases silent
    simp
  | cons i rest ih =>
    obtain ⟨incomplete, quiet⟩ := scan_cons_none.mp silent
    simp only [List.cons_append, scan, incomplete, if_false, ih quiet, Option.map_map,
      List.length_cons, Bool.false_eq_true]
    congr 2

/-- A stream is silent exactly when each part of it is. -/
theorem scan_append_none {s t : σ} {first second : List ι} :
    m.scan s (first ++ second) = (none, t) ↔
      ∃ u, m.scan s first = (none, u) ∧ m.scan u second = (none, t) := by
  constructor
  · intro silent
    induction first generalizing s with
    | nil => exact ⟨s, rfl, silent⟩
    | cons i rest ih =>
      obtain ⟨incomplete, quiet⟩ := scan_cons_none.mp silent
      obtain ⟨u, before, after⟩ := ih quiet
      exact ⟨u, scan_cons_none.mpr ⟨incomplete, before⟩, after⟩
  · rintro ⟨u, before, after⟩
    rw [scan_append_of_none before, after]
    rfl

/-- What follows the first completion is never looked at. -/
theorem scan_append_of_some {s t : σ} {k : ℕ} {first : List ι} (found : m.scan s first = (some k, t))
    (second : List ι) : m.scan s (first ++ second) = (some k, t) := by
  induction first generalizing s k with
  | nil => simp at found
  | cons i rest ih =>
    rw [List.cons_append]
    rcases scan_cons_some.mp found with here | ⟨incomplete, j, rfl, later⟩
    · exact scan_cons_some.mpr (.inl here)
    · exact scan_cons_some.mpr (.inr ⟨incomplete, j, rfl, ih later⟩)

/-- A completion is a step from where the inputs before it led in silence. -/
theorem scan_some_split {s t : σ} {k : ℕ} {inputs : List ι} (found : m.scan s inputs = (some k, t)) :
    ∃ before i rest u, inputs = before ++ i :: rest ∧ before.length = k ∧ m.scan s before = (none, u) ∧
      m.step u i = (true, t) := by
  induction inputs generalizing s k with
  | nil => simp at found
  | cons i rest ih =>
    rcases scan_cons_some.mp found with ⟨complete, rfl, rfl⟩ | ⟨incomplete, j, rfl, later⟩
    · exact ⟨[], i, rest, s, rfl, rfl, rfl, Prod.ext complete rfl⟩
    · obtain ⟨before, i', rest', u, rfl, rfl, silent, completed⟩ := ih later
      exact ⟨i :: before, i', rest', u, rfl, rfl, scan_cons_none.mpr ⟨incomplete, silent⟩, completed⟩

/-- What a silent step keeps, along with the inputs read, holds after a silent stream. -/
theorem scan_invariant {P : List ι → σ → Prop} {s t : σ} {inputs : List ι} (start : P [] s)
    (kept : ∀ read u i, P read u → (m.step u i).1 = false → P (read ++ [i]) (m.step u i).2)
    (silent : m.scan s inputs = (none, t)) : P inputs t := by
  induction inputs using List.reverseRecOn generalizing t with
  | nil =>
    obtain rfl := (Prod.mk.inj silent).2
    exact start
  | append_singleton inputs i ih =>
    obtain ⟨u, before, last⟩ := scan_append_none.mp silent
    obtain ⟨incomplete, rest⟩ := scan_cons_none.mp last
    obtain rfl := (Prod.mk.inj rest).2
    exact kept inputs u i (ih before) incomplete

/-- The index of a completion lies inside the stream. -/
theorem scan_index_lt {s t : σ} {k : ℕ} {inputs : List ι} (found : m.scan s inputs = (some k, t)) :
    k < inputs.length := by
  induction inputs generalizing s k with
  | nil => simp at found
  | cons i rest ih =>
    rcases scan_cons_some.mp found with ⟨_, rfl, _⟩ | ⟨_, j, rfl, later⟩
    · simp
    · simpa using ih later

/-- No completion is reported before the first one. -/
theorem scan_prefix_none {s t : σ} {k : ℕ} {first second : List ι}
    (found : m.scan s (first ++ second) = (some k, t)) (early : first.length ≤ k) :
    (m.scan s first).1 = none := by
  cases reported : (m.scan s first).1 with
  | none => rfl
  | some j =>
    have inside := scan_index_lt (Prod.ext reported rfl)
    have whole := scan_append_of_some (Prod.ext reported rfl) second
    simp only [found, Prod.mk.injEq, Option.some.injEq] at whole
    omega

/-- Without a completion the driver never restarts. -/
theorem feed_of_none {s t : σ} {inputs : List ι} (silent : m.scan s inputs = (none, t)) :
    m.feed s inputs = t ∧ ∀ since, m.pending s since inputs = since ++ inputs := by
  induction inputs generalizing s with
  | nil =>
    cases silent
    simp
  | cons i rest ih =>
    obtain ⟨incomplete, quiet⟩ := scan_cons_none.mp silent
    obtain ⟨state, since⟩ := ih quiet
    exact ⟨by simp [incomplete, state], fun before => by simp [pending, incomplete, since]⟩

/-- A completion of the last input restarts the driver there, and an unrestarted
run ends in the state it leaves. -/
theorem feed_of_last {s t : σ} {k : ℕ} {inputs : List ι} (found : m.scan s inputs = (some k, t))
    (last : k + 1 = inputs.length) : m.feed s inputs = m.restart t ∧ m.drive s inputs = t := by
  induction inputs generalizing s k with
  | nil => simp at found
  | cons i rest ih =>
    rcases scan_cons_some.mp found with ⟨complete, rfl, rfl⟩ | ⟨incomplete, j, rfl, later⟩
    · have empty : rest = [] := List.eq_nil_of_length_eq_zero (by simpa using last.symm)
      subst empty
      simp [complete, drive]
    · obtain ⟨restarted, left⟩ := ih later (by simpa using last)
      exact ⟨by simp [incomplete, restarted], left⟩

/-- A first completion at the last input is the step from the state before it. -/
theorem step_of_last {s t : σ} {first : List ι} {i : ι}
    (found : m.scan s (first ++ [i]) = (some first.length, t)) : m.step (m.feed s first) i = (true, t) := by
  induction first generalizing s with
  | nil =>
    rcases scan_cons_some.mp found with ⟨complete, _, left⟩ | ⟨_, j, _, later⟩
    · exact Prod.ext complete left
    · simp at later
  | cons j rest ih =>
    rcases scan_cons_some.mp found with ⟨_, zero, _⟩ | ⟨incomplete, k, next, later⟩
    · simp at zero
    · simp only [List.length_cons, Nat.add_right_cancel_iff] at next
      rw [feed_cons, round_of_incomplete incomplete]
      exact ih (next ▸ later)

/-- The completions of a stream in two parts: those of the second part come from the
state the first leaves, and are shifted by its length. -/
theorem completions_append (s : σ) (first second : List ι) :
    m.completions s (first ++ second) = m.completions s first ++
      (m.completions (m.feed s first) second).map fun done => (done.1 + first.length, done.2) := by
  induction first generalizing s with
  | nil => simp
  | cons i rest ih =>
    simp only [List.cons_append, completions, ih, List.map_append, List.map_map, List.append_assoc,
      feed_cons, List.length_cons]
    congr 2

theorem completions_of_none {s : σ} {inputs : List ι} (silent : (m.scan s inputs).1 = none) :
    m.completions s inputs = [] := by
  induction inputs generalizing s with
  | nil => rfl
  | cons i rest ih =>
    obtain ⟨incomplete, later⟩ := scan_cons_none.mp (Prod.ext silent rfl)
    simp [completions, incomplete, ih (congrArg Prod.fst later)]

/-- A stream that completes only with its last input has that one completion. -/
theorem completions_of_last {s t : σ} {k : ℕ} {inputs : List ι} (found : m.scan s inputs = (some k, t))
    (last : k + 1 = inputs.length) : m.completions s inputs = [(k, t)] := by
  induction inputs generalizing s k with
  | nil => simp at found
  | cons i rest ih =>
    rcases scan_cons_some.mp found with ⟨complete, rfl, rfl⟩ | ⟨incomplete, j, rfl, later⟩
    · have empty : rest = [] := List.eq_nil_of_length_eq_zero (by simpa using last.symm)
      subst empty
      simp [completions, complete]
    · simp [completions, incomplete, ih later (by simpa using last)]

/-- Every completion lies inside the stream. -/
theorem completions_index_lt {s t : σ} {k : ℕ} {inputs : List ι} (member : (k, t) ∈ m.completions s inputs) :
    k < inputs.length := by
  induction inputs generalizing s k with
  | nil => simp at member
  | cons i rest ih =>
    simp only [completions, List.mem_append, List.mem_map] at member
    rcases member with here | ⟨⟨j, u⟩, later, same⟩
    · split at here <;> simp_all
    · obtain ⟨rfl, rfl⟩ := Prod.mk.inj same
      simpa using ih later

/-- A completion at the last input is the step from the state before it. -/
theorem mem_completions_last {s t : σ} {first : List ι} {i : ι} :
    (first.length, t) ∈ m.completions s (first ++ [i]) ↔ m.step (m.feed s first) i = (true, t) := by
  rw [completions_append, List.mem_append]
  constructor
  · rintro (early | last)
    · exact absurd (completions_index_lt early) (Nat.lt_irrefl _)
    · simp only [completions, List.map_nil, List.append_nil] at last
      split at last <;> simp_all [Prod.ext_iff]
  · intro stepped
    exact .inr (by simp [completions, stepped])

/-- What is pending has been read in silence, where every restart leads back to the start. -/
theorem scan_pending {s : σ} (restarted : ∀ t, m.restart t = s) (inputs : List ι) :
    m.scan s (m.pending s [] inputs) = (none, m.feed s inputs) := by
  suffices onward : ∀ u since, m.scan s since = (none, u) →
      m.scan s (m.pending u since inputs) = (none, m.feed u inputs) from onward s [] rfl
  induction inputs with
  | nil => exact fun u since silent => silent
  | cons i rest ih =>
    intro u since silent
    rw [pending, feed_cons]
    refine ih _ _ ?_
    cases reported : (m.step u i).1 with
    | true =>
      rw [round_of_complete reported, restarted, if_pos rfl]
      rfl
    | false =>
      rw [round_of_incomplete reported, if_neg Bool.false_ne_true, scan_append_of_none silent]
      simp [scan, reported]

variable (m n)

/-! ## Simulation -/

/-- `m` behaves as `n` does on the translated inputs: `rel` relates the states
between completions, `done` the states a completion leaves. -/
structure Simulation (translate : ι → κ) where
  rel : σ → τ → Prop
  done : σ → τ → Prop
  step : ∀ {s t} (i : ι), rel s t → (m.step s i).1 = (n.step t (translate i)).1 ∧
    if (m.step s i).1 then done (m.step s i).2 (n.step t (translate i)).2
    else rel (m.step s i).2 (n.step t (translate i)).2
  restart : ∀ {s t}, done s t → rel (m.restart s) (n.restart t)

namespace Simulation
variable {m n} {translate : ι → κ} (sim : Simulation m n translate)
include sim

theorem round {s : σ} {t : τ} (related : sim.rel s t) (i : ι) :
    sim.rel (m.round s i) (n.round t (translate i)) := by
  obtain ⟨same, after⟩ := sim.step i related
  cases reported : (m.step s i).1 with
  | true =>
    rw [round_of_complete reported, round_of_complete (same ▸ reported)]
    exact sim.restart (by simpa [reported] using after)
  | false =>
    rw [round_of_incomplete reported, round_of_incomplete (same ▸ reported)]
    simpa [reported] using after

theorem feed {s : σ} {t : τ} (related : sim.rel s t) (inputs : List ι) :
    sim.rel (m.feed s inputs) (n.feed t (inputs.map translate)) := by
  induction inputs generalizing s t with
  | nil => exact related
  | cons i rest ih => exact ih (sim.round related i)

theorem pending {s : σ} {t : τ} (related : sim.rel s t) (since inputs : List ι) :
    (m.pending s since inputs).map translate =
      n.pending t (since.map translate) (inputs.map translate) := by
  induction inputs generalizing s t since with
  | nil => rfl
  | cons i rest ih =>
    simp only [Recognizer.pending, List.map_cons]
    rw [ih (sim.round related i), ← (sim.step i related).1]
    split <;> simp

/-- Both machines first complete at the same input, or neither does. -/
theorem scan {s : σ} {t : τ} (related : sim.rel s t) (inputs : List ι) :
    (m.scan s inputs).1 = (n.scan t (inputs.map translate)).1 ∧
      if (m.scan s inputs).1.isSome
      then sim.done (m.scan s inputs).2 (n.scan t (inputs.map translate)).2
      else sim.rel (m.scan s inputs).2 (n.scan t (inputs.map translate)).2 := by
  induction inputs generalizing s t with
  | nil => exact ⟨rfl, related⟩
  | cons i rest ih =>
    obtain ⟨same, after⟩ := sim.step i related
    simp only [Recognizer.scan, List.map_cons, ← same]
    split at after <;> rename_i complete
    · simpa [complete] using after
    · simp only [complete, if_false, Bool.false_eq_true, Option.isSome_map]
      obtain ⟨index, state⟩ := ih after
      exact ⟨by rw [index], state⟩

/-- The completions of two related runs come at the same places, in related
states. -/
theorem completions {s : σ} {t : τ} (related : sim.rel s t) (inputs : List ι) :
    List.Forall₂ (fun here there => here.1 = there.1 ∧ sim.done here.2 there.2)
      (m.completions s inputs) (n.completions t (inputs.map translate)) := by
  induction inputs generalizing s t with
  | nil => exact .nil
  | cons i rest ih =>
    obtain ⟨same, after⟩ := sim.step i related
    have tail := ih (sim.round related i)
    simp only [Recognizer.completions, List.map_cons]
    refine List.rel_append ?_ (List.forall₂_map_left_iff.mpr (List.forall₂_map_right_iff.mpr
      (tail.imp fun _ _ pair => ⟨congrArg (· + 1) pair.1, pair.2⟩)))
    rw [← same]
    split at after <;> rename_i complete
    · simpa [complete] using after
    · simp [complete]

end Simulation
end Recognizer
