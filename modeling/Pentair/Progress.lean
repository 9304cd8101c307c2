import Pentair.Hold

/-! What an IntelliTouch packet cannot do is hang: once its start sequence has been read,
every further byte is a step towards its end, and the end comes with the byte that its
length announces, whatever the bytes are. -/
namespace Pentair

namespace Receiver
variable {r u done : Receiver} {bytes : List UInt8} {k : ℕ}

/-- Inside an IntelliTouch packet. -/
structure Touching (r : Receiver) : Prop where
  sound : r.Sound
  reading : ¬ r.phase.Complete
  opened : r.phase ≠ .preamble
  other : ∀ body, r.phase ≠ .intellichlor body

theorem Touching.step (touching : r.Touching) {c : UInt8} (incomplete : (r.step c).1 = false) :
    (r.step c).2.Touching where
  sound := sound_step touching.sound c
  reading := reading_step touching.reading incomplete
  opened := (step_inside touching.reading touching.opened c).2.1
  other := by
    obtain ⟨lead, phase⟩ := r
    cases phase with
    | preamble => exact absurd rfl touching.opened
    | length v t s k =>
      simp only [Receiver.step]
      split <;> simp
    | data h got =>
      simp only [Receiver.step]
      split <;> simp
    | intellichlor body => exact absurd rfl (touching.other body)
    | touch h payload hi lo => exact absurd trivial touching.reading
    | chlor body => exact absurd trivial touching.reading
    | _ => simp [Receiver.step]

/-- Bytes that complete nothing are all read into the packet. -/
theorem Touching.scan (touching : r.Touching) (silent : receiver.scan r bytes = (none, u)) :
    u.Touching ∧ u.phase.bytes = r.phase.bytes ++ bytes := by
  refine Recognizer.scan_invariant (P := fun read u => Touching u ∧ u.phase.bytes = r.phase.bytes ++ read)
    ⟨touching, by simp⟩ (fun read u c reached incomplete => ?_) silent
  obtain ⟨inside, spelled⟩ := reached
  refine ⟨inside.step incomplete, ?_⟩
  have bytes : (u.step c).2.phase.bytes = u.phase.bytes ++ [c] := (step_inside inside.reading inside.opened c).2.2
  rw [← List.append_assoc, ← spelled]
  exact bytes

/-- The packet ends with the byte that its length announces. -/
theorem Touching.completed (touching : r.Touching) (found : receiver.scan r bytes = (some k, done)) :
    ∃ h payload hi lo, done.phase = .touch h payload hi lo ∧ r.phase.bytes.length + k + 1 = h.length.toNat + 7 := by
  obtain ⟨before, c, rest, u, rfl, rfl, silent, completed⟩ := Recognizer.scan_some_split found
  obtain ⟨inside, spelled⟩ := touching.scan silent
  have length := congrArg List.length spelled
  rw [List.length_append] at length
  obtain ⟨lead, phase⟩ := u
  change Receiver.step ⟨lead, phase⟩ c = (true, done) at completed
  cases phase with
  | checksumLow h payload hi =>
    obtain rfl : _ = done := congrArg Prod.snd completed
    have fills : payload.length = h.length.toNat := inside.sound.2
    change (h.bytes ++ payload ++ [hi]).length = _ at length
    simp only [List.length_append, Header.length_bytes, List.length_singleton] at length
    exact ⟨h, payload, hi, c, rfl, by omega⟩
  | intellichlor body => exact absurd rfl (inside.other body)
  | touch h payload hi lo => exact absurd trivial inside.reading
  | chlor body => exact absurd trivial inside.reading
  | _ => simp [Receiver.step] at completed

/-- Enough bytes complete it. -/
theorem Touching.ends (touching : r.Touching) (enough : 262 ≤ r.phase.bytes.length + bytes.length) :
    ∃ k done, receiver.scan r bytes = (some k, done) := by
  -- one more byte is certainly enough, and it is not needed
  have longer : (receiver.scan r (bytes ++ [0])).1 ≠ none := by
    intro silent
    obtain ⟨inside, spelled⟩ := touching.scan (Prod.ext silent rfl)
    have most := touch_bytes_le inside.sound inside.reading inside.other
    rw [spelled] at most
    simp only [List.length_append, List.length_singleton] at most
    omega
  obtain ⟨k, found⟩ := Option.ne_none_iff_exists'.mp longer
  obtain ⟨h, payload, hi, lo, _, last⟩ := touching.completed (Prod.ext found rfl)
  have bound := h.length.toNat_lt
  rcases here : receiver.scan r bytes with ⟨_ | j, u⟩
  · rw [Recognizer.scan_append_of_none here] at found
    obtain ⟨i, _, shifted⟩ := Option.map_eq_some_iff.mp found
    omega
  · exact ⟨j, u, rfl⟩

end Receiver

/-- In every run, once the start sequence of an IntelliTouch packet has been read, 262 bytes
after it suffice to complete the packet, and it is complete at the byte that its length
announces. -/
theorem touch_completes (p : Packet) (stream more : List Arrival) (opened : (p.after stream).state ≠ .preambleState)
    (other : (p.after stream).state ≠ .intellichlorState) (enough : 262 ≤ p.held stream + more.length) :
    ∃ k q, Packet.recognizer.scan (p.after stream) more = (some k, q) ∧
      p.held stream + k + 1 = q.dataLen.toNat + 7 := by
  obtain ⟨r, tracked, _, reached⟩ := after_tracks p stream
  have state : (p.after stream).state = r.phase.registers.state := congrArg Registers.state tracked.registers
  have touching : r.Touching := by
    refine ⟨tracked.sound, tracked.reading, fun hunting => opened (tracked.preamble_iff.mpr hunting), ?_⟩
    intro body inside
    rw [state, inside] at other
    exact other rfl
  have held : p.held stream = r.phase.bytes.length := by
    rw [reached] at touching ⊢
    exact Packet.held_eq p stream touching.opened
  rw [held] at enough ⊢
  have plenty : 262 ≤ r.phase.bytes.length + (more.map Arrival.byte).length := by rwa [List.length_map]
  obtain ⟨k, done, found⟩ := touching.ends plenty
  obtain ⟨h, payload, hi, lo, phase, last⟩ := touching.completed found
  obtain ⟨q, scanned, received⟩ := tracked.scan_received found
  obtain ⟨lead, _⟩ := done
  obtain rfl : _ = Phase.touch h payload hi lo := phase
  have exposed : TouchReceived q lead h payload hi lo := received.packet
  refine ⟨k, q, scanned, ?_⟩
  rw [exposed.dataLen]
  exact last

/-- A status broadcast, with zeros behind it. -/
theorem touch_completes_broadcast :
    ∃ k q, Packet.recognizer.scan ((default : Packet).after (arrivals default touchStart))
        (arrivals default (statusBroadcast.bytes.drop 4 ++ List.replicate 226 0)) = (some k, q) ∧
      (default : Packet).held (arrivals default touchStart) + k + 1 = q.dataLen.toNat + 7 :=
  touch_completes default _ _ (by decide +kernel) (by decide +kernel) (by decide +kernel)

end Pentair
