import Pentair.Delivery

/-! Runs of the loop around `Push` over streams of any length: the state a stream leads
to, the bytes read since the last `Reset`, and how long the packet being read has been
read. None of this is bounded by the buffer. -/
namespace Pentair

namespace Receiver

/-- A step that completes nothing leaves a receiver that is still reading. -/
theorem reading_step {r : Receiver} (reading : ¬ r.phase.Complete) {c : UInt8}
    (incomplete : (r.step c).1 = false) : ¬ (r.step c).2.phase.Complete := by
  obtain ⟨lead, phase⟩ := r
  cases phase with
  | preamble =>
    simp only [step, hunt]
    split
    · exact id
    · split <;> exact id
  | length v t s k =>
    simp only [step]
    split <;> exact id
  | data h got =>
    simp only [step]
    split <;> exact id
  | checksumLow h payload hi => simp [step] at incomplete
  | intellichlor body =>
    simp only [step] at incomplete ⊢
    split at incomplete
    · simp at incomplete
    · rename_i unfinished
      rw [if_neg unfinished]
      exact id
  | touch h payload hi lo => exact absurd trivial reading
  | chlor body => exact absurd trivial reading
  | _ => exact id

/-- Between rounds the receiver is always reading. -/
theorem feed_reading {r : Receiver} (reading : ¬ r.phase.Complete) (bytes : List UInt8) :
    ¬ (receiver.feed r bytes).phase.Complete := by
  refine Recognizer.feed_invariant (P := fun r : Receiver => ¬ r.phase.Complete) (fun r c reading => ?_) reading bytes
  cases reported : (receiver.step r c).1 with
  | true =>
    rw [Recognizer.round_of_complete reported]
    exact id
  | false =>
    rw [Recognizer.round_of_incomplete reported]
    exact reading_step reading reported

/-- Over any stream the receiver has seen exactly the bytes since its last restart. -/
theorem feed_seen {r : Receiver} (reading : ¬ r.phase.Complete) (bytes : List UInt8) :
    (receiver.feed r bytes).seen = receiver.pending r r.seen bytes := by
  induction bytes generalizing r with
  | nil => rfl
  | cons c rest ih =>
    rw [Recognizer.feed_cons, Recognizer.pending]
    cases reported : (receiver.step r c).1 with
    | true =>
      rw [Recognizer.round_of_complete reported, if_pos rfl]
      exact ih id
    | false =>
      rw [Recognizer.round_of_incomplete reported, if_neg Bool.false_ne_true, ← seen_step reading c]
      exact ih (reading_step reading reported)

end Receiver

namespace Packet

/-- The state after the loop has read `stream`, starting from a reset. -/
def after (p : Packet) (stream : List Arrival) : Packet := Packet.recognizer.feed p.reset stream

/-- The call that pushes `a` after `stream`. -/
def pushAfter (p : Packet) (stream : List Arrival) (a : Arrival) : Pushed :=
  (p.after stream).push a.env a.byte

/-- The bytes of `stream` that were read since the last `Reset`. -/
def sinceReset (p : Packet) (stream : List Arrival) : List UInt8 :=
  (Packet.recognizer.pending p.reset [] stream).map Arrival.byte

/-- How many bytes have been pushed since the preamble state was last left, when `held`
had been before. -/
def heldFrom (p : Packet) (held : ℕ) : List Arrival → ℕ
  | [] => held
  | a :: rest => heldFrom (Packet.recognizer.round p a) (if p.state = .preambleState then 0 else held + 1) rest

/-- How many bytes of `stream` were pushed since the start sequence of the packet being
read. -/
def held (p : Packet) (stream : List Arrival) : ℕ := p.reset.heldFrom 0 stream

end Packet

/-- A call that completed a packet with a matching checksum. -/
def Pushed.Accepted (pushed : Pushed) : Prop := pushed.complete = true ∧ pushed.packet.valid = true

instance (pushed : Pushed) : Decidable pushed.Accepted := inferInstanceAs (Decidable (_ ∧ _))

variable (p : Packet) (stream : List Arrival)

/-- Every state of a run tracks a receiver that has seen the bytes since the last reset. -/
theorem after_tracks : ∃ r, Tracks (p.after stream) r ∧ r.seen = p.sinceReset stream ∧
    r = receiver.feed Receiver.start (stream.map Arrival.byte) := by
  have tracked := tracks_reset p
  refine ⟨_, refinement.feed tracked stream, ?_, rfl⟩
  rw [Receiver.feed_seen tracked.reading]
  exact (refinement.pending tracked [] stream).symm

/-- The call that pushes `a` does what the receiver does with its byte. -/
theorem pushAfter_agrees (a : Arrival) : Agrees (p.pushAfter stream a)
    ((receiver.feed Receiver.start (stream.map Arrival.byte)).step a.byte) := by
  obtain ⟨r, tracked, _, rfl⟩ := after_tracks p stream
  exact push_agrees a.env a.byte tracked

/-- What is delivered at the last byte of a stream is what the call for that byte
completes. -/
theorem mem_deliveries_last (a : Arrival) {view : Env} {d : Delivery} (last : d.position = stream.length) :
    d ∈ deliveries view p.reset (stream ++ [a]) ↔
      (p.pushAfter stream a).complete = true ∧
        (p.pushAfter stream a).packet.delivery view stream.length = d := by
  rw [deliveries, List.mem_map]
  constructor
  · rintro ⟨⟨k, q⟩, member, rfl⟩
    obtain rfl : k = stream.length := last
    have stepped := Recognizer.mem_completions_last.mp member
    exact ⟨congrArg Prod.fst stepped, congrArg (Packet.delivery view stream.length ·.2) stepped⟩
  · rintro ⟨complete, delivered⟩
    exact ⟨(stream.length, _), Recognizer.mem_completions_last.mpr (Prod.ext complete rfl), delivered⟩

/-- A tracked packet is in the preamble state exactly while its receiver hunts. -/
theorem Tracks.preamble_iff {p : Packet} {r : Receiver} (tracked : Tracks p r) :
    p.state = .preambleState ↔ r.phase = .preamble := by
  have state : p.state = r.phase.registers.state := congrArg Registers.state tracked.registers
  have reading := tracked.reading
  rw [state]
  revert reading
  cases r.phase with
  | preamble => exact fun _ => iff_of_true rfl rfl
  | touch h payload hi lo => exact fun reading => absurd trivial reading
  | chlor body => exact fun reading => absurd trivial reading
  | _ => exact fun _ => iff_of_false (fun same => by cases same) (fun same => by cases same)

namespace Receiver

/-- Only the second checksum byte completes an IntelliTouch packet. -/
theorem step_touch {r : Receiver} {c : UInt8} {lead payload : List UInt8} {h : Header} {hi lo : UInt8}
    (completed : r.step c = (true, ⟨lead, .touch h payload hi lo⟩)) :
    r = ⟨lead, .checksumLow h payload hi⟩ ∧ c = lo := by
  obtain ⟨before, phase⟩ := r
  cases phase with
  | checksumLow h' payload' hi' => simp_all [step]
  | intellichlor body =>
    simp only [step] at completed
    split at completed <;> simp at completed
  | _ => simp [step] at completed

/-- A step inside a packet reads one more byte of it. -/
theorem step_inside {r : Receiver} (reading : ¬ r.phase.Complete) (inside : r.phase ≠ .preamble) (c : UInt8) :
    (r.step c).2.lead = r.lead ∧ (r.step c).2.phase ≠ .preamble ∧
      (r.step c).2.phase.bytes = r.phase.bytes ++ [c] := by
  have seen := seen_step reading c
  have kept : (r.step c).2.lead = r.lead ∧ (r.step c).2.phase ≠ .preamble := by
    obtain ⟨lead, phase⟩ := r
    cases phase with
    | preamble => exact absurd rfl inside
    | length v t s k =>
      simp only [step]
      split <;> simp
    | data h got =>
      simp only [step]
      split <;> simp
    | intellichlor body =>
      simp only [step]
      split <;> simp
    | touch h payload hi lo => exact absurd trivial reading
    | chlor body => exact absurd trivial reading
    | _ => simp [step]
  refine ⟨kept.1, kept.2, ?_⟩
  rw [Receiver.seen, Receiver.seen, kept.1, List.append_assoc] at seen
  exact List.append_cancel_left seen

/-- Inside a packet every round reads one more byte of it, or leaves it. -/
theorem round_bytes {r : Receiver} (reading : ¬ r.phase.Complete) {c : UInt8}
    (inside : (receiver.round r c).phase ≠ .preamble) :
    (receiver.round r c).phase.bytes.length =
      if r.phase = .preamble then 0 else r.phase.bytes.length + 1 := by
  by_cases hunting : r.phase = .preamble
  · obtain ⟨lead, phase⟩ := r
    obtain rfl : phase = .preamble := hunting
    change (hunt (lead ++ [c])).phase ≠ .preamble at inside
    change (hunt (lead ++ [c])).phase.bytes.length = 0
    unfold hunt at inside ⊢
    split_ifs at inside ⊢ with touch chlor
    · rfl
    · rfl
    · exact absurd rfl inside
  · rw [if_neg hunting]
    cases reported : (receiver.step r c).1 with
    | true =>
      rw [Recognizer.round_of_complete reported] at inside
      exact absurd rfl inside
    | false =>
      have bytes : (receiver.step r c).2.phase.bytes = r.phase.bytes ++ [c] := (step_inside reading hunting c).2.2
      rw [Recognizer.round_of_incomplete reported, bytes, List.length_append, List.length_singleton]

end Receiver

/-- A frame that begins while the receiver hunts is completed by its last byte. -/
theorem Receiver.completed_hunting {before lead : List UInt8}
    (hunting : receiver.feed start before = ⟨lead, .preamble⟩) (quiet : Quiet lead) (short : lead.length ≤ 252)
    (f : TouchFrame) :
    (receiver.feed start (before ++ f.front)).step f.checksumLo =
      (true, ⟨lead ++ touchStart, .touch f.header f.payload f.checksumHi f.checksumLo⟩) := by
  have silent : receiver.scan start lead = (none, ⟨lead, .preamble⟩) := scan_quiet [] quiet
  have read := scan_touch quiet short f.length_header.symm f.checksumHi f.checksumLo
  have spelling : lead ++ touchStart ++ (f.header.bytes ++ f.payload ++ [f.checksumHi, f.checksumLo]) =
      lead ++ f.front ++ [f.checksumLo] := by
    simp [TouchFrame.front]
  have long : lead.length + f.payload.length + 10 = (lead ++ f.front).length := by
    rw [List.length_append, f.length_front]
    omega
  rw [spelling, long] at read
  have completed := Recognizer.step_of_last read
  rwa [Recognizer.feed_append, (Recognizer.feed_of_none silent).1, ← hunting, ← Recognizer.feed_append]
    at completed

/-- The count of bytes held is the number of bytes the receiver has read of its packet. -/
theorem heldFrom_tracks {p : Packet} {r : Receiver} (tracked : Tracks p r) {held : ℕ}
    (counted : r.phase ≠ .preamble → held = r.phase.bytes.length) (stream : List Arrival)
    (inside : (receiver.feed r (stream.map Arrival.byte)).phase ≠ .preamble) :
    p.heldFrom held stream = (receiver.feed r (stream.map Arrival.byte)).phase.bytes.length := by
  induction stream generalizing p r held with
  | nil => exact counted inside
  | cons a rest ih =>
    refine ih (refinement.round tracked a) (fun reading => ?_) inside
    rw [Receiver.round_bytes tracked.reading reading]
    by_cases hunting : r.phase = .preamble
    · rw [if_pos (tracked.preamble_iff.mpr hunting), if_pos hunting]
    · rw [if_neg (fun same => hunting (tracked.preamble_iff.mp same)), if_neg hunting, counted hunting]

end Pentair
