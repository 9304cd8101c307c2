import Pentair.Run

/-! How long one packet can keep the parser. An IntelliTouch packet is over after 262
bytes at most, because its length byte counts them. An IntelliChlor packet is over at its
first terminator that the buffer shows; the overrun check never abandons it, so nothing
bounds a packet without one. -/
namespace Pentair

namespace Receiver
variable {lead body : List UInt8}

/-- An IntelliTouch packet being read has at most 262 bytes. -/
theorem touch_bytes_le {r : Receiver} (sound : r.Sound) (reading : ¬ r.phase.Complete)
    (other : ∀ body, r.phase ≠ .intellichlor body) : r.phase.bytes.length ≤ 262 := by
  obtain ⟨lead, phase⟩ := r
  cases phase with
  | data h got =>
    have short : got.length < h.length.toNat := sound.2
    have bound := h.length.toNat_lt
    simp only [Phase.bytes, List.length_append, Header.length_bytes]
    omega
  | checksum h payload =>
    have fills : payload.length = h.length.toNat := sound.2
    have bound := h.length.toNat_lt
    simp only [Phase.bytes, List.length_append, Header.length_bytes]
    omega
  | checksumLow h payload hi =>
    have fills : payload.length = h.length.toNat := sound.2
    have bound := h.length.toNat_lt
    simp only [Phase.bytes, List.length_append, Header.length_bytes, List.length_singleton]
    omega
  | intellichlor body => exact absurd rfl (other body)
  | touch h payload hi lo => exact absurd trivial reading
  | chlor body => exact absurd trivial reading
  | _ => simp [Phase.bytes]

/-- A receiver inside an IntelliChlor packet has just opened it, or read one more byte of it. -/
theorem round_intellichlor {r : Receiver} {c : UInt8}
    (reached : receiver.round r c = ⟨lead, .intellichlor body⟩) :
    body = [] ∨ ∃ got, body = got ++ [c] ∧ r = ⟨lead, .intellichlor got⟩ ∧
      receiver.step r c = (false, ⟨lead, .intellichlor body⟩) := by
  obtain ⟨before, phase⟩ := r
  cases phase with
  | preamble =>
    change hunt (before ++ [c]) = _ at reached
    unfold hunt at reached
    split_ifs at reached <;> simp_all
  | length v t s k =>
    simp only [Recognizer.round, receiver, step, Bool.false_eq_true, if_false] at reached
    split at reached <;> simp at reached
  | data h got =>
    simp only [Recognizer.round, receiver, step, Bool.false_eq_true, if_false] at reached
    split at reached <;> simp at reached
  | intellichlor got =>
    by_cases ended : EndVisible (seen ⟨before, .intellichlor got⟩).length ∧ chlorEnd <:+ got ++ [c]
    · simp [Recognizer.round, receiver, step, ended, start] at reached
    · simp only [Recognizer.round, receiver, step, ended, Bool.false_eq_true, if_false, mk.injEq,
        Phase.intellichlor.injEq] at reached
      obtain ⟨rfl, rfl⟩ := reached
      exact .inr ⟨got, rfl, rfl, if_neg ended⟩
  | _ => simp [Recognizer.round, receiver, step, start] at reached

/-- An IntelliChlor packet being read was opened earlier in the stream, and its body is
all that has been read since. -/
theorem opened_earlier {bytes : List UInt8} (reached : receiver.feed start bytes = ⟨lead, .intellichlor body⟩) :
    ∃ opening, bytes = opening ++ body ∧ receiver.feed start opening = ⟨lead, .intellichlor []⟩ ∧
      receiver.scan ⟨lead, .intellichlor []⟩ body = (none, ⟨lead, .intellichlor body⟩) := by
  induction bytes using List.reverseRecOn generalizing body with
  | nil => simp [start] at reached
  | append_singleton bytes c ih =>
    have last : receiver.round (receiver.feed start bytes) c = ⟨lead, .intellichlor body⟩ := by
      rwa [Recognizer.feed_append] at reached
    rcases round_intellichlor last with rfl | ⟨got, rfl, before, stepped⟩
    · exact ⟨bytes ++ [c], by simp, reached, rfl⟩
    · obtain ⟨opening, rfl, opened, silent⟩ := ih before
      refine ⟨opening, by simp, opened, ?_⟩
      rw [before] at stepped
      rw [Recognizer.scan_append_of_none silent]
      simp [Recognizer.scan, stepped]

end Receiver

namespace Packet
variable (p : Packet) (stream : List Arrival)

/-- In every state of a run but the preamble state, at most 262 bytes have been pushed
since the start sequence of the packet being read. -/
def Released : Prop :=
  ∀ before rest, stream = before ++ rest → (p.after before).state ≠ .preambleState → p.held before ≤ 262

/-- The parser has just taken a `10 02` as the start of a packet. -/
def JustOpened : Prop := (p.after stream).state = .intellichlorState ∧ p.held stream = 0

instance : Decidable (p.JustOpened stream) := inferInstanceAs (Decidable (_ ∧ _))

/-- Each `10 02` that a run takes as a start, and goes on from for more than 262 bytes, is
followed within 263 bytes by a `10 03` that neither crosses the end of the buffer nor
touches it. -/
def Terminated : Prop :=
  ∀ before rest, stream = before ++ rest → p.JustOpened before → 263 ≤ rest.length →
    ∃ k < 263, Marker.EndsAt chlorEnd (rest.map Arrival.byte) k ∧
      Receiver.EndVisible ((p.sinceReset before).length + k)

/-- The bytes held are those the receiver has read of its packet. -/
theorem held_eq (p : Packet) (stream : List Arrival)
    (inside : (receiver.feed Receiver.start (stream.map Arrival.byte)).phase ≠ .preamble) :
    p.held stream = (receiver.feed Receiver.start (stream.map Arrival.byte)).phase.bytes.length :=
  heldFrom_tracks (tracks_reset p) (fun hunting => absurd rfl hunting) stream inside

/-- An IntelliChlor packet has just been opened exactly when the receiver has read none of
its body; the bytes since the reset are then its lead. -/
theorem justOpened_iff {p : Packet} {stream : List Arrival} :
    p.JustOpened stream ↔
      receiver.feed Receiver.start (stream.map Arrival.byte) = ⟨p.sinceReset stream, .intellichlor []⟩ := by
  obtain ⟨r, tracked, seen, reached⟩ := after_tracks p stream
  have state : (p.after stream).state = r.phase.registers.state := congrArg Registers.state tracked.registers
  rw [JustOpened, state, ← reached]
  constructor
  · rintro ⟨inside, none⟩
    have counted := held_eq p stream
    rw [← reached, none] at counted
    obtain ⟨lead, phase⟩ := r
    cases phase with
    | intellichlor body =>
      obtain rfl : body = [] := List.eq_nil_of_length_eq_zero (counted (by simp)).symm
      rw [← seen]
      simp [Receiver.seen, Phase.bytes]
    | _ => cases inside
  · intro opened
    have counted := held_eq p stream
    rw [← reached, opened] at counted
    rw [opened]
    exact ⟨rfl, counted (by simp)⟩

/-- A body whose terminator the buffer never shows is held whole. -/
private theorem released_terminated (released : p.Released stream) : p.Terminated stream := by
  intro before rest split opened long
  by_contra endless
  have reached := justOpened_iff.mp opened
  have silent : receiver.scan ⟨p.sinceReset before, .intellichlor []⟩ ((rest.take 263).map Arrival.byte) =
      (none, ⟨p.sinceReset before, .intellichlor ([] ++ (rest.take 263).map Arrival.byte)⟩) := by
    refine (Receiver.scan_chlor_silent [] _).mpr fun k within ended => endless ?_
    rw [List.length_map, List.length_take] at within
    refine ⟨k, by omega, ⟨by rw [List.length_map]; omega, ?_⟩, ?_⟩
    · have closed := ended.2
      rwa [List.nil_append, List.map_take, List.take_take, Nat.min_eq_left (by omega)] at closed
    · exact ended.1
  have holding : receiver.feed Receiver.start ((before ++ rest.take 263).map Arrival.byte) =
      ⟨p.sinceReset before, .intellichlor ((rest.take 263).map Arrival.byte)⟩ := by
    rw [List.map_append, Recognizer.feed_append, reached]
    exact (Recognizer.feed_of_none silent).1
  have inside : (receiver.feed Receiver.start ((before ++ rest.take 263).map Arrival.byte)).phase ≠ .preamble := by
    rw [holding]
    simp
  obtain ⟨r, tracked, _, rfl⟩ := after_tracks p (before ++ rest.take 263)
  have bounded := released (before ++ rest.take 263) (rest.drop 263) (by rw [split]; simp)
    (fun hunting => inside (tracked.preamble_iff.mp hunting))
  rw [held_eq _ _ inside, holding] at bounded
  simp only [Phase.bytes, List.length_map, List.length_take] at bounded
  omega

/-- A packet held for too long is an IntelliChlor packet that missed its terminator. -/
private theorem terminated_released (terminated : p.Terminated stream) : p.Released stream := by
  intro before rest split reading
  obtain ⟨r, tracked, _, reached⟩ := after_tracks p before
  have inside : r.phase ≠ .preamble := fun hunting => reading (tracked.preamble_iff.mpr hunting)
  rw [held_eq _ _ (reached ▸ inside), ← reached]
  by_cases chlor : ∃ body, r.phase = .intellichlor body
  · obtain ⟨body, phase⟩ := chlor
    obtain ⟨lead, _⟩ := r
    obtain rfl : _ = Phase.intellichlor body := phase
    by_contra long
    simp only [Phase.bytes] at long
    obtain ⟨opening, spelling, opened, silent⟩ := Receiver.opened_earlier reached.symm
    obtain ⟨first, more, rfl, rfl, rfl⟩ := List.map_eq_append_iff.mp spelling
    have lead_eq : p.sinceReset first = lead := by
      obtain ⟨r, _, seen, rfl⟩ := after_tracks p first
      rw [← seen, opened]
      simp [Receiver.seen, Phase.bytes]
    rw [List.length_map] at long
    obtain ⟨k, within, ⟨_, closed⟩, visible⟩ := terminated first (more ++ rest) (by rw [split]; simp)
      (justOpened_iff.mpr (by rw [opened, lead_eq])) (by rw [List.length_append]; omega)
    refine (Receiver.scan_chlor_silent [] _).mp silent k (by rw [List.length_map]; omega) ⟨?_, ?_⟩
    · rwa [lead_eq] at visible
    · rwa [List.map_append, List.take_append_of_le_length (by rw [List.length_map]; omega)] at closed
  · exact Receiver.touch_bytes_le tracked.sound tracked.reading fun body phase => chlor ⟨body, phase⟩

/-- In every run, no packet is held for more than 262 bytes exactly when every IntelliChlor
packet that goes on for longer has a terminator that the buffer shows. -/
theorem released_iff : p.Released stream ↔ p.Terminated stream :=
  ⟨released_terminated p stream, terminated_released p stream⟩

/-- A start sequence and 263 zeros keep the parser waiting for a terminator. -/
theorem not_released : ¬ ∀ (p : Packet) (stream : List Arrival), p.Released stream := by
  intro released
  obtain ⟨k, _, ⟨_, ends⟩, _⟩ := released_terminated default _ (released default _)
    (arrivals default chlorStart) (List.replicate 263 ⟨default, 0x00⟩) rfl (by decide +kernel)
    (by rw [List.length_replicate])
  have member : (0x03 : UInt8) ∈ (List.replicate 263 (⟨default, 0x00⟩ : Arrival)).map Arrival.byte :=
    List.mem_of_mem_take (ends.subset (by simp [chlorEnd]))
  rw [List.map_replicate] at member
  exact absurd (List.eq_of_mem_replicate member) (by decide)

end Packet
end Pentair
