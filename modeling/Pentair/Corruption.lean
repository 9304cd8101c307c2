import Pentair.Delivery

/-! One altered byte in a frame. Unless it is part of the framing, the packet still
completes where the frame ends, and the checksum gives it away. -/
namespace Pentair
open ByteSum

/-- Replacing byte `i` by `b` leaves the framing alone: the byte is no part of a start
sequence or a terminator, is not a length byte, and completes no terminator. -/
def Frame.Guarded (i : ℕ) (b : UInt8) : Frame → Prop
  | .touch f => 4 ≤ i ∧ i ≠ 8 ∧ i < f.payload.length + 11
  | .chlor f => 2 ≤ i ∧ i < f.payload.length + 3 ∧ ¬ chlorEnd <:+: (f.payload ++ [f.checksum]).set (i - 2) b

/-- A header or payload byte other than the length is altered: the sum is another one. -/
private theorem TouchFrame.altered_summed (f : TouchFrame) {j : ℕ} {b : UInt8} (notLength : j ≠ 4)
    (within : j < (f.header.bytes ++ f.payload).length)
    (different : (f.header.bytes ++ f.payload)[j]? ≠ some b) :
    ∃ h payload, (f.header.bytes ++ f.payload).set j b = h.bytes ++ payload ∧
      payload.length = h.length.toNat ∧ payload.length = f.payload.length ∧
      ¬ TouchValid h payload f.checksumHi f.checksumLo := by
  have fifth : ((f.header.bytes ++ f.payload).set j b)[4]? = some f.header.length := by
    rw [List.getElem?_set_ne notLength]
    rfl
  obtain ⟨h, payload, spelling, length⟩ := Header.split fifth
  have same := congrArg List.length spelling
  simp only [List.length_set, List.length_append, Header.length_bytes] at same
  refine ⟨h, payload, spelling, ?_, by omega, fun agreed => ?_⟩
  · rw [length, f.length_header]
    omega
  · rw [List.getElem?_eq_getElem within] at different
    refine byteSum_set_ne within (fun equal => different (congrArg some equal.symm))
      (by decide : 256 ∣ 65536) 0xA5 ?_
    rw [spelling]
    exact agreed.trans f.valid.symm

/-- Another pair of checksum bytes is another sum. -/
private theorem TouchFrame.altered_checksum (f : TouchFrame) {hi lo : UInt8}
    (different : ¬ (hi = f.checksumHi ∧ lo = f.checksumLo)) : ¬ TouchValid f.header f.payload hi lo := by
  intro agreed
  have equal := agreed.symm.trans f.valid
  have low := lo.toNat_lt
  have low' := f.checksumLo.toNat_lt
  exact different ⟨UInt8.toNat_inj.mp (by omega), UInt8.toNat_inj.mp (by omega)⟩

/-- An altered IntelliTouch frame is an IntelliTouch packet of the same length that does
not pass its checksum. -/
theorem TouchFrame.altered (f : TouchFrame) {i : ℕ} {b : UInt8} (guarded : (Frame.touch f).Guarded i b)
    (different : f.bytes[i]? ≠ some b) :
    ∃ h payload hi lo, f.bytes.set i b = touchStart ++ (h.bytes ++ payload ++ [hi, lo]) ∧
      payload.length = h.length.toNat ∧ payload.length = f.payload.length ∧
      ¬ TouchValid h payload hi lo := by
  obtain ⟨after, notLength, inside⟩ : 4 ≤ i ∧ i ≠ 8 ∧ i < f.payload.length + 11 := guarded
  obtain ⟨j, rfl⟩ := Nat.exists_eq_add_of_le after
  have split : f.bytes = touchStart ++ (f.header.bytes ++ f.payload ++ [f.checksumHi, f.checksumLo]) := by
    simp [TouchFrame.bytes]
  have start : touchStart.length = 4 := rfl
  have long : (f.header.bytes ++ f.payload).length = f.payload.length + 5 := by
    simp only [List.length_append, Header.length_bytes]
    omega
  rw [split, List.set_append_right _ _ (by omega), start, Nat.add_sub_cancel_left]
  rw [split, List.getElem?_append_right (by omega), start, Nat.add_sub_cancel_left] at different
  by_cases body : j < f.payload.length + 5
  · rw [List.set_append_left _ _ (by omega)]
    rw [List.getElem?_append_left (by omega)] at different
    obtain ⟨h, payload, spelling, fills, same, invalid⟩ := f.altered_summed (by omega) (by omega) different
    exact ⟨h, payload, f.checksumHi, f.checksumLo, by rw [spelling], fills, same, invalid⟩
  · rw [List.set_append_right _ _ (by omega), long]
    rw [List.getElem?_append_right (by omega), long] at different
    obtain rfl | rfl : j = f.payload.length + 5 ∨ j = f.payload.length + 5 + 1 := by omega
    · rw [Nat.sub_self] at different ⊢
      exact ⟨f.header, f.payload, b, f.checksumLo, rfl, f.length_header.symm, rfl,
        f.altered_checksum fun same => different (congrArg some same.1.symm)⟩
    · rw [Nat.add_sub_cancel_left] at different ⊢
      exact ⟨f.header, f.payload, f.checksumHi, b, rfl, f.length_header.symm, rfl,
        f.altered_checksum fun same => different (congrArg some same.2.symm)⟩

/-- An altered IntelliChlor frame is an IntelliChlor packet of the same length that does
not pass its checksum. -/
theorem ChlorFrame.altered (f : ChlorFrame) {i : ℕ} {b : UInt8} (guarded : (Frame.chlor f).Guarded i b)
    (different : f.bytes[i]? ≠ some b) :
    ∃ payload k, f.bytes.set i b = chlorStart ++ (payload ++ [k] ++ chlorEnd) ∧
      ¬ chlorEnd <:+: payload ++ [k] ∧ payload.length = f.payload.length ∧
      chlorSum payload % 256 ≠ k.toNat := by
  obtain ⟨after, inside, closed⟩ :
      2 ≤ i ∧ i < f.payload.length + 3 ∧ ¬ chlorEnd <:+: (f.payload ++ [f.checksum]).set (i - 2) b := guarded
  obtain ⟨j, rfl⟩ := Nat.exists_eq_add_of_le after
  have split : f.bytes = chlorStart ++ (f.payload ++ [f.checksum] ++ chlorEnd) := by
    simp [ChlorFrame.bytes]
  have start : chlorStart.length = 2 := rfl
  have valid : chlorSum f.payload % 256 = f.checksum.toNat := by simp [ChlorFrame.checksum]
  rw [Nat.add_sub_cancel_left] at closed
  rw [split, List.set_append_right _ _ (by omega), start, Nat.add_sub_cancel_left,
    List.set_append_left _ _ (by simp only [List.length_append, List.length_singleton]; omega)]
  rw [split, List.getElem?_append_right (by omega), start, Nat.add_sub_cancel_left,
    List.getElem?_append_left (by simp only [List.length_append, List.length_singleton]; omega)] at different
  by_cases body : j < f.payload.length
  · rw [List.set_append_left _ _ body] at closed ⊢
    rw [List.getElem?_append_left body, List.getElem?_eq_getElem body] at different
    refine ⟨f.payload.set j b, f.checksum, rfl, closed, List.length_set, fun agreed => ?_⟩
    exact byteSum_set_ne body (fun equal => different (congrArg some equal.symm)) (dvd_refl 256) 0x12
      (agreed.trans valid.symm)
  · obtain rfl : j = f.payload.length := by omega
    rw [List.set_append_right _ _ (by omega), Nat.sub_self] at closed ⊢
    rw [List.getElem?_append_right (by omega), Nat.sub_self] at different
    refine ⟨f.payload, b, rfl, closed, rfl, fun agreed => ?_⟩
    exact different (congrArg some (UInt8.toNat_inj.mp (valid.symm.trans agreed)))

/-- A single altered byte never goes unnoticed: the packet completes at the frame's last
byte, as the unaltered one does, and is not valid. -/
theorem alteration_caught (p : Packet) (env : ℕ → Env) {noise : List UInt8} {f : Frame} {i : ℕ} {b : UInt8}
    (quiet : Quiet noise) (fits : noise.length + f.bytes.length ≤ 255) (guarded : f.Guarded i b)
    (different : f.bytes[i]? ≠ some b) :
    (Packet.recognizer.scan p.reset (arrivals env (noise ++ f.bytes))).1 =
        some (noise.length + f.bytes.length - 1) ∧
      (Packet.recognizer.scan p.reset (arrivals env (noise ++ f.bytes.set i b))).1 =
        some (noise.length + f.bytes.length - 1) ∧
      (Packet.recognizer.scan p.reset (arrivals env (noise ++ f.bytes.set i b))).2.valid = false := by
  have hunting := tracks_reset p
  cases f with
  | touch f =>
    simp only [Frame.bytes, TouchFrame.length_bytes] at fits different ⊢
    obtain ⟨h, payload, hi, lo, spelling, fills, long, invalid⟩ := f.altered guarded different
    obtain ⟨_, whole, _⟩ := hunting.scan_touch f quiet (by omega) env
    have read := Receiver.scan_touch quiet (by omega) fills hi lo
    rw [List.append_assoc, ← spelling, ← arrivals_bytes env (noise ++ _)] at read
    obtain ⟨q, altered, received⟩ := hunting.scan_received read
    have exposed : TouchReceived q (noise ++ touchStart) h payload hi lo := received.packet
    rw [whole, altered]
    refine ⟨congrArg some (by omega), congrArg some (by omega), ?_⟩
    exact Bool.eq_false_iff.mpr fun valid => invalid (exposed.valid.mp valid)
  | chlor f =>
    simp only [Frame.bytes, ChlorFrame.length_bytes] at fits different ⊢
    obtain ⟨payload, k, spelling, closed, long, invalid⟩ := f.altered guarded different
    obtain ⟨_, whole, _⟩ := hunting.scan_chlor f quiet (by omega) env
    have read := Receiver.scan_chlor quiet closed (by omega)
    rw [List.append_assoc, ← spelling, ← arrivals_bytes env (noise ++ _)] at read
    obtain ⟨q, altered, received⟩ := hunting.scan_received read
    have exposed := chlor_exposed received
      (by simp only [chlorStart, List.length_append, List.length_cons, List.length_nil]; omega)
    rw [whole, altered]
    refine ⟨congrArg some (by omega), congrArg some (by omega), ?_⟩
    exact Bool.eq_false_iff.mpr fun valid => invalid (exposed.valid.mp valid)

/-- A pump told to start instead of to stop. -/
theorem alteration_caught_pumpOff :
    (Packet.recognizer.scan (default : Packet).reset (arrivals default ([0x00] ++ (Frame.touch pumpOff).bytes))).1 =
        some 12 ∧
      (Packet.recognizer.scan (default : Packet).reset
        (arrivals default ([0x00] ++ (Frame.touch pumpOff).bytes.set 9 0x0A))).1 = some 12 ∧
      (Packet.recognizer.scan (default : Packet).reset
        (arrivals default ([0x00] ++ (Frame.touch pumpOff).bytes.set 9 0x0A))).2.valid = false :=
  alteration_caught default default (by decide) (by decide) ⟨by decide, by decide, by decide⟩ (by decide)

end Pentair
