import Pentair.Refinement

/-! What a completed packet exposes to its reader: header fields, validity and, as
long as the payload was not split or overwritten by the cyclic buffer, the payload
itself. -/
namespace Pentair
open ByteSum

variable {p : Packet} {lead payload : List UInt8}

/-- A payload that stands in the buffer unsplit, and has not been written over, is read
back. -/
theorem payload_in_buffer {q : Packet} {before payload : List UInt8} (after : List UInt8)
    (holds : Ring.Holds q.buffer (before ++ payload ++ after))
    (pointer : payload ≠ [] → q.data = some (UInt8.ofNat before.length))
    (length : q.dataLen.toNat = payload.length) (inside : before.length % 256 + payload.length ≤ 256)
    (room : payload.length + after.length ≤ 256) (env : Env) : q.payload env = payload := by
  by_cases empty : payload = []
  · subst empty
    simp only [List.length_nil] at length
    simp [Packet.payload, length]
  · have start : (UInt8.ofNat before.length).toNat = before.length % 256 := UInt8.toNat_ofNat'
    refine Packet.payload_eq q env (pointer empty) length fun k within => ⟨by omega, ?_⟩
    exact Ring.stretch after holds room start (by rw [start]; exact inside) within

/-- An IntelliTouch payload is read back intact when it does not cross the end of the
buffer and leaves room for the two checksum bytes. -/
theorem touch_payload {h : Header} {hi lo : UInt8} (received : Received p ⟨lead, .touch h payload hi lo⟩)
    (inside : (lead.length + 5) % 256 + payload.length ≤ 256) (room : payload.length ≤ 254) (env : Env) :
    p.payload env = payload := by
  have exposed : TouchReceived p lead h payload hi lo := received.packet
  have fills : payload.length = h.length.toNat := received.sound.2
  have holds : Ring.Holds p.buffer ((lead ++ h.bytes) ++ payload ++ [hi, lo]) := by
    simpa [Receiver.seen, Phase.bytes] using received.holds
  have before : (lead ++ h.bytes).length = lead.length + 5 := by simp
  refine payload_in_buffer [hi, lo] holds ?_ ?_ ?_ ?_ env
  · rw [before]
    exact exposed.pointer
  · rw [exposed.dataLen, fills]
  · rw [before]
    exact inside
  · simp only [List.length_cons, List.length_nil]
    omega

/-- What is more than a terminator has a checksum byte before it. -/
theorem before_end {body : List UInt8} (ends : chlorEnd <:+ body) (more : body ≠ chlorEnd) :
    ∃ data k, body = data ++ [k] ++ chlorEnd := by
  obtain ⟨front, rfl⟩ := ends
  rcases List.eq_nil_or_concat front with rfl | ⟨data, k, rfl⟩
  · exact absurd rfl more
  · exact ⟨data, k, by rw [List.concat_eq_append]⟩

/-- What is exposed of an IntelliChlor packet that ended before the buffer wrapped. -/
structure ChlorExposed (p : Packet) (data : List UInt8) (checksum : UInt8) : Prop where
  version : p.version = 0
  dataLen : p.dataLen = UInt8.ofNat data.length
  payload : ∀ env, p.payload env = data
  checksumData : p.checksumLo = checksum
  valid : p.valid = true ↔ chlorSum data % 256 = checksum.toNat
  header : p.valid = true → p.cid = commandChlorinator ∧ (data ≠ [] →
    (p.source, p.target) = if data.head? = some 0x50 then (deviceControlCenter, deviceChlorinator)
      else (deviceChlorinator, deviceControlCenter))

theorem chlor_exposed {k : UInt8} (received : Received p ⟨lead, .chlor (payload ++ [k] ++ chlorEnd)⟩)
    (short : lead.length + payload.length + 3 ≤ 255) : ChlorExposed p payload k := by
  obtain ⟨env, exposed⟩ : ∃ env, ChlorReceived p env lead (payload ++ [k] ++ chlorEnd) := received.packet
  have holds : Ring.Holds p.buffer (lead ++ payload ++ k :: chlorEnd) := by
    simpa [Receiver.seen, Phase.bytes] using received.holds
  have position : p.bufferPos.toNat = lead.length + payload.length + 3 := by
    have position := received.position
    simp only [Receiver.seen, Phase.bytes, List.length_append, chlorEnd, List.length_cons,
      List.length_nil] at position
    omega
  have dataLen : p.dataLen = UInt8.ofNat payload.length := by
    rw [exposed.dataLen]
    simp [chlorEnd]
  have length : p.dataLen.toNat = payload.length := by
    rw [dataLen, UInt8.toNat_ofNat']
    exact Nat.mod_eq_of_lt (by omega)
  have whole : ∀ env, p.payload env = payload := by
    refine payload_in_buffer (k :: chlorEnd) holds (fun _ => exposed.pointer) length (by omega) ?_
    simp only [chlorEnd, List.length_cons, List.length_nil]
    omega
  have checksum : p.checksumLo = k := by
    rw [exposed.checksumData, p.bufferAt_cell env (n := lead.length + payload.length) (by omega) (by omega)]
    exact Ring.recent (lead ++ payload) holds (by simp [chlorEnd, bufferSize]) (by simp only [bufferSize]; omega)
      (by simp only [bufferSize, List.length_append]; omega)
  refine ⟨exposed.version, dataLen, whole, checksum, ?_, fun valid => ⟨(exposed.header valid).1, fun some => ?_⟩⟩
  · rw [exposed.valid, checksum, Packet.intellichlorChecksum_eq, whole env]
    exact (Eq.congr_left (foldl_add_bytes 0x12 payload)).trans (ofNat_eq_byte _ k)
  · have head := p.payload_head? env (by rw [length]; exact List.length_pos_iff.mpr some)
    rw [whole env] at head
    rw [(exposed.header valid).2]
    simp only [head, Option.some.injEq]

end Pentair
