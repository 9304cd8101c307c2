import Pentair.Run

/-! Where the cyclic buffer shows on streams of any length. A payload is read back as it
was received only if it does not cross the end of the buffer, and a packet ends only at
a terminator that does not. The overrun check that should have dropped such a packet
compares a `uint8_t` with 256 and never fires. -/
namespace Pentair

/-! ## Payloads -/

/-- `data_[0..data_len_)` lies inside the buffer and spells `received`. -/
structure Intact (q : Packet) (received : List UInt8) : Prop where
  inside : ∀ k < q.dataLen.toNat, ∃ start, q.data = some start ∧ start.toNat + k < bufferSize
  payload : ∀ env, q.payload env = received

section Touch
variable {q : Packet} {lead rest : List UInt8} {h : Header} {first hi lo : UInt8}

private theorem touch_history {payload : List UInt8}
    (received : Received q ⟨lead, .touch h payload hi lo⟩) :
    Ring.Holds q.buffer (lead ++ h.bytes ++ payload ++ [hi, lo]) := by
  simpa [Receiver.seen, Phase.bytes] using received.holds

/-- After the longest payload, the second checksum byte stands in the cell of the first
payload byte. -/
private theorem touch_replaced (received : Received q ⟨lead, .touch h (first :: rest) hi lo⟩)
    (full : rest.length = 254) (cell : (lead.length + 5) % 256 < 256) :
    q.buffer[(lead.length + 5) % 256] = lo := by
  have holds : Ring.Holds q.buffer (lead ++ h.bytes ++ first :: rest ++ [hi] ++ lo :: []) := by
    simpa using touch_history received
  refine Ring.recent (lead ++ h.bytes ++ first :: rest ++ [hi]) holds ?_ cell ?_
  · simp [bufferSize]
  · simp only [bufferSize, List.length_append, Header.length_bytes, List.length_cons, List.length_nil]
    omega

/-- The rest of the longest payload is not replaced. -/
private theorem touch_kept (received : Received q ⟨lead, .touch h (first :: rest) hi lo⟩)
    (full : rest.length = 254) (inside : (lead.length + 5) % 256 ≤ 1) {k : ℕ} (within : k < rest.length)
    (cell : (lead.length + 5) % 256 + 1 + k < 256) :
    q.buffer[(lead.length + 5) % 256 + 1 + k] = rest[k] := by
  have holds : Ring.Holds q.buffer (lead ++ h.bytes ++ [first] ++ rest ++ [hi, lo]) := by
    simpa using touch_history received
  refine Ring.stretch [hi, lo] holds ?_ ?_ ?_ within
  · simp only [List.length_cons, List.length_nil, bufferSize]
    omega
  · simp only [bufferSize, List.length_append, Header.length_bytes, List.length_singleton]
    omega
  · simp only [bufferSize]
    omega

/-- A non-empty payload that reads back as received does not cross the end of the buffer,
and its first byte is what the second checksum byte left there. -/
private theorem touch_intact_bound (received : Received q ⟨lead, .touch h (first :: rest) hi lo⟩)
    (intact : Intact q (first :: rest)) :
    (lead.length + 5) % 256 + (rest.length + 1) ≤ 256 ∧ (rest.length + 1 ≤ 254 ∨ first = lo) := by
  have exposed : TouchReceived q lead h (first :: rest) hi lo := received.packet
  have fills : (first :: rest).length = h.length.toNat := received.sound.2
  have bound := h.length.toNat_lt
  have start : (UInt8.ofNat (lead.length + 5)).toNat = (lead.length + 5) % 256 := UInt8.toNat_ofNat'
  have pointer := exposed.pointer (List.cons_ne_nil first rest)
  have length : q.dataLen.toNat = rest.length + 1 := by rw [exposed.dataLen, ← fills, List.length_cons]
  rw [List.length_cons] at fills
  obtain ⟨_, same, below⟩ := intact.inside rest.length (by omega)
  obtain rfl := Option.some.inj (pointer.symm.trans same)
  simp only [bufferSize, start] at below
  refine ⟨by omega, ?_⟩
  by_cases room : rest.length + 1 ≤ 254
  · exact .inl room
  · have head := q.payload_head? default (by omega)
    rw [intact.payload, Packet.dataAt_cell q default pointer (by omega)] at head
    simp only [Nat.add_zero, start] at head
    exact .inr ((Option.some.inj head).trans (touch_replaced received (by omega) (by omega)))

/-- The longest payload reads back as received when the second checksum byte repeats its
first byte. -/
private theorem touch_intact_full (received : Received q ⟨lead, .touch h (lo :: rest) hi lo⟩)
    (full : rest.length = 254) (inside : (lead.length + 5) % 256 ≤ 1) (env : Env) :
    q.payload env = lo :: rest := by
  have exposed : TouchReceived q lead h (lo :: rest) hi lo := received.packet
  have fills : (lo :: rest).length = h.length.toNat := received.sound.2
  have start : (UInt8.ofNat (lead.length + 5)).toNat = (lead.length + 5) % 256 := UInt8.toNat_ofNat'
  refine Packet.payload_eq q env (exposed.pointer (List.cons_ne_nil lo rest)) (by rw [exposed.dataLen, fills])
    fun k within => ?_
  rw [List.length_cons] at within
  refine ⟨by omega, ?_⟩
  cases k with
  | zero =>
    simp only [start, Nat.add_zero, List.getElem_cons_zero]
    exact touch_replaced received full (by omega)
  | succ k =>
    have cell := touch_kept received full inside (k := k) (by omega) (by omega)
    simpa only [start, Nat.add_assoc, Nat.add_comm 1 k, List.getElem_cons_succ] using cell

/-- A received IntelliTouch payload is intact exactly when it does not cross the end of
the buffer and the second checksum byte has not replaced its first byte. -/
theorem touch_intact_iff {payload : List UInt8} (received : Received q ⟨lead, .touch h payload hi lo⟩) :
    Intact q payload ↔
      (lead.length + 5) % 256 + payload.length ≤ 256 ∧
        (payload.length ≤ 254 ∨ payload.head? = some lo) := by
  have exposed : TouchReceived q lead h payload hi lo := received.packet
  have fills : payload.length = h.length.toNat := received.sound.2
  have bound := h.length.toNat_lt
  have start : (UInt8.ofNat (lead.length + 5)).toNat = (lead.length + 5) % 256 := UInt8.toNat_ofNat'
  have length : q.dataLen.toNat = payload.length := by rw [exposed.dataLen, fills]
  cases payload with
  | nil =>
    refine iff_of_true ⟨fun k below => ?_, touch_payload received ?_ ?_⟩ ⟨?_, .inl ?_⟩
    · simp [length] at below
    all_goals simp only [List.length_nil]; omega
  | cons first rest =>
    simp only [List.length_cons, List.head?_cons, Option.some.injEq] at fills length ⊢
    refine ⟨touch_intact_bound received, fun ⟨inside, room⟩ => ⟨fun k below => ?_, fun env => ?_⟩⟩
    · refine ⟨_, exposed.pointer (List.cons_ne_nil first rest), ?_⟩
      rw [start, bufferSize]
      omega
    · by_cases short : rest.length + 1 ≤ 254
      · exact touch_payload received inside short env
      · obtain rfl : first = lo := room.resolve_left short
        exact touch_intact_full received (by omega) (by omega) env

end Touch

/-- Where the payload began, counted from the last reset, when only the second checksum
byte of a packet is missing. -/
def payloadStart (since : List UInt8) (length : ℕ) : ℕ := since.length - (length + 1)

namespace Packet
variable (p : Packet)

/-- The payload received for the packet that the next byte completes: what stands between
its length byte and its first checksum byte. -/
def received (stream : List Arrival) : List UInt8 :=
  ((p.sinceReset stream).drop (payloadStart (p.sinceReset stream) (p.after stream).dataLen.toNat)).take
    (p.after stream).dataLen.toNat

/-- Pushing `a` after `stream` completes a valid IntelliTouch packet. -/
def AcceptsTouch (stream : List Arrival) (a : Arrival) : Prop :=
  (p.after stream).state = .checksumState ∧ (p.pushAfter stream a).Accepted

instance (stream : List Arrival) (a : Arrival) : Decidable (p.AcceptsTouch stream a) :=
  inferInstanceAs (Decidable (_ ∧ _))

/-- Every valid IntelliTouch packet of a run is read back as it was received. -/
def WindowsIntact (stream : List Arrival) : Prop :=
  ∀ before a rest, stream = before ++ a :: rest → p.AcceptsTouch before a →
    Intact (p.pushAfter before a).packet (p.received before)

/-- No valid IntelliTouch packet of a run crosses the end of the buffer with its payload,
or has its first payload byte replaced by a different checksum byte. -/
def WindowsFit (stream : List Arrival) : Prop :=
  ∀ before a rest, stream = before ++ a :: rest → p.AcceptsTouch before a →
    payloadStart (p.sinceReset before) (p.after before).dataLen.toNat % 256 +
        (p.after before).dataLen.toNat ≤ 256 ∧
      ((p.after before).dataLen.toNat ≤ 254 ∨ (p.received before).head? = some a.byte)

/-- A completed IntelliTouch packet was read from the bytes since the last reset. -/
theorem touch_completed {p : Packet} {stream : List Arrival} {a : Arrival}
    (state : (p.after stream).state = .checksumState) (complete : (p.pushAfter stream a).complete = true) :
    ∃ lead h payload hi, p.sinceReset stream = lead ++ h.bytes ++ payload ++ [hi] ∧
      (p.after stream).dataLen.toNat = payload.length ∧
      Received (p.pushAfter stream a).packet ⟨lead, .touch h payload hi a.byte⟩ := by
  obtain ⟨⟨lead, phase⟩, tracked, seen, _⟩ := after_tracks p stream
  have registers := tracked.registers
  obtain ⟨same, left⟩ := push_agrees a.env a.byte tracked
  change ((p.after stream).push a.env a.byte).complete = true at complete
  have reported : (Receiver.step ⟨lead, phase⟩ a.byte).1 = true := same.symm.trans complete
  rw [if_pos complete] at left
  have phased : phase.registers.state = .checksumState := (congrArg Registers.state registers).symm.trans state
  cases phase with
  | checksum h payload => exact absurd reported Bool.false_ne_true
  | checksumLow h payload hi =>
    have length : (p.after stream).dataLen = h.length := congrArg Registers.dataLen registers
    have fills : payload.length = h.length.toNat := tracked.sound.2
    refine ⟨lead, h, payload, hi, ?_, by rw [length, fills], left⟩
    rw [← seen]
    simp [Receiver.seen, Phase.bytes]
  | _ => cases phased

/-- At one completion: the payload is intact exactly when its place in the buffer is right. -/
theorem received_intact_iff {p : Packet} {stream : List Arrival} {a : Arrival} (accepts : p.AcceptsTouch stream a) :
    Intact (p.pushAfter stream a).packet (p.received stream) ↔
      payloadStart (p.sinceReset stream) (p.after stream).dataLen.toNat % 256 +
          (p.after stream).dataLen.toNat ≤ 256 ∧
        ((p.after stream).dataLen.toNat ≤ 254 ∨ (p.received stream).head? = some a.byte) := by
  obtain ⟨lead, h, payload, hi, since, length, received⟩ := touch_completed accepts.1 accepts.2.1
  have start : payloadStart (p.sinceReset stream) (p.after stream).dataLen.toNat = lead.length + 5 := by
    simp only [payloadStart, since, length, List.length_append, Header.length_bytes, List.length_singleton]
    omega
  have spelling : p.received stream = payload := by
    rw [Packet.received, start, since, length, List.append_assoc, List.drop_left' (by simp)]
    exact List.take_left' rfl
  rw [spelling, start, length]
  exact touch_intact_iff received

/-- In every run, the payloads of all valid IntelliTouch packets are intact exactly when
all of them fit. -/
theorem windows_intact_iff (p : Packet) (stream : List Arrival) : p.WindowsIntact stream ↔ p.WindowsFit stream := by
  constructor
  · intro intact before a rest split accepts
    exact (received_intact_iff accepts).mp (intact before a rest split accepts)
  · intro fit before a rest split accepts
    exact (received_intact_iff accepts).mpr (fit before a rest split accepts)

/-- The last byte of an IntelliTouch frame after noise completes a valid packet. -/
theorem accepts_touch (p : Packet) (f : TouchFrame) {noise : List UInt8} (quiet : Quiet noise)
    (short : noise.length ≤ 252) (env : ℕ → Env) (last : Env) :
    p.AcceptsTouch (arrivals env (noise ++ f.front)) ⟨last, f.checksumLo⟩ ∧
      Received (p.pushAfter (arrivals env (noise ++ f.front)) ⟨last, f.checksumLo⟩).packet
        ⟨noise ++ touchStart, .touch f.header f.payload f.checksumHi f.checksumLo⟩ := by
  have hunting : receiver.feed Receiver.start noise = ⟨noise, .preamble⟩ :=
    (Recognizer.feed_of_none (Receiver.scan_quiet [] quiet)).1
  have completed := Receiver.completed_hunting hunting quiet short f
  obtain ⟨complete, left⟩ := pushAfter_agrees p (arrivals env (noise ++ f.front)) ⟨last, f.checksumLo⟩
  rw [arrivals_bytes, completed] at complete left
  rw [if_pos complete] at left
  have exposed : TouchReceived _ (noise ++ touchStart) f.header f.payload f.checksumHi f.checksumLo := left.packet
  refine ⟨⟨?_, complete, exposed.valid.mpr f.valid⟩, left⟩
  obtain ⟨r, tracked, _, reached⟩ := after_tracks p (arrivals env (noise ++ f.front))
  rw [arrivals_bytes] at reached
  rw [← reached] at completed
  have registers := tracked.registers
  rw [(Receiver.step_touch completed).1] at registers
  exact congrArg Registers.state registers

/-- A status broadcast after 245 bytes of noise is valid, and its payload runs past the
end of the buffer. -/
theorem windows_not_intact : ¬ ∀ (p : Packet) (stream : List Arrival), p.WindowsIntact stream := by
  intro intact
  obtain ⟨accepts, received⟩ :=
    accepts_touch default statusBroadcast (quiet_zeros 245) (by rw [List.length_replicate]; omega) default default
  have exposed : TouchReceived _ _ statusBroadcast.header statusBroadcast.payload _ _ := received.packet
  have window := intact default _ _ _ [] rfl accepts
  obtain ⟨start, pointer, inside⟩ := window.inside 2 (by rw [exposed.dataLen]; decide)
  have start_eq := Option.some.inj (pointer.symm.trans (exposed.pointer (by decide)))
  rw [List.length_append, List.length_replicate] at start_eq
  subst start_eq
  exact absurd inside (by decide)

end Packet

end Pentair
