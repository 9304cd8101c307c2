import Pentair.Library.Ring
import Pentair.Parsing
import Pentair.PushSteps

/-! The state machine of `Push` refines the receiver: its 256-byte buffer, positions
and running sums hold what the receiver remembers, on streams of any length. A
completed packet exposes the header and sums of the bytes it was read from; whether
its payload can still be read from the buffer is a separate question. -/
namespace Pentair
open ByteSum

/-- A received byte, with what the call that pushes it takes from its surroundings. -/
structure Arrival where
  env : Env
  byte : UInt8

/-- The loop around `Push`: `Reset` after each call that returns true. -/
def Packet.recognizer : Recognizer Packet Arrival where
  step p a := ((p.push a.env a.byte).complete, (p.push a.env a.byte).packet)
  restart := Packet.reset

/-- The registers of the state machine, apart from the buffer. -/
structure Registers where
  state : State
  valid : Bool
  pos : UInt8
  version : UInt8
  target : UInt8
  source : UInt8
  cid : UInt8
  dataLen : UInt8
  checksum : UInt16

def Packet.registers (p : Packet) : Registers :=
  ⟨p.state, p.valid, p.pos, p.version, p.target, p.source, p.cid, p.dataLen, p.checksum⟩

/-- The registers inside an IntelliTouch packet, zero where nothing has been read. -/
def touchRegisters (state : State) (pos : UInt8) (h : Header) (summed : List UInt8) : Registers :=
  ⟨state, false, pos, h.version, h.target, h.source, h.command, h.length,
    UInt16.ofNat (0xA5 + byteSum summed)⟩

/-- The registers of a packet being read. -/
def Phase.registers : Phase → Registers
  | .version => touchRegisters .versionState 0 ⟨0, 0, 0, 0, 0⟩ []
  | .destination v => touchRegisters .destinationState 0 ⟨v, 0, 0, 0, 0⟩ [v]
  | .source v t => touchRegisters .sourceState 0 ⟨v, t, 0, 0, 0⟩ [v, t]
  | .command v t s => touchRegisters .commandState 0 ⟨v, t, s, 0, 0⟩ [v, t, s]
  | .length v t s c => touchRegisters .lengthState 0 ⟨v, t, s, c, 0⟩ [v, t, s, c]
  | .data h got => touchRegisters .dataState (UInt8.ofNat got.length) h (h.bytes ++ got)
  | .checksum h payload => touchRegisters .checksumState 0 h (h.bytes ++ payload)
  | .checksumLow h payload _ => touchRegisters .checksumState 1 h (h.bytes ++ payload)
  | .intellichlor body =>
    ⟨.intellichlorState, false, 0, 0, 0, 0, 0, UInt8.ofNat body.length, 0x12⟩
  | _ => ⟨.preambleState, false, 0, 0, 0, 0, 0, 0, 0⟩

/-- Where the payload starts, counted from the end of the start sequence, once
`data_` points there. -/
def Phase.payloadOffset : Phase → Option ℕ
  | .data .. => some 5
  | .checksum _ payload => if payload = [] then none else some 5
  | .checksumLow _ payload _ => if payload = [] then none else some 5
  | .intellichlor _ => some 0
  | _ => none

/-- The first checksum byte, once received. -/
def Phase.firstChecksum : Phase → Option UInt8
  | .checksumLow _ _ hi => some hi
  | _ => none

/-- The packet is reading what the receiver is reading. -/
structure Tracks (p : Packet) (r : Receiver) : Prop where
  sound : r.Sound
  reading : ¬ r.phase.Complete
  holds : Ring.Holds p.buffer r.seen
  position : p.bufferPos.toNat = r.seen.length % 256
  registers : p.registers = r.phase.registers
  pointer : ∀ n, r.phase.payloadOffset = some n → p.data = some (UInt8.ofNat (r.lead.length + n))
  firstChecksum : ∀ hi, r.phase.firstChecksum = some hi → p.checksumHi = hi
  command : p.command = .unknown

/-- What a packet exposes when an IntelliTouch packet is complete. -/
structure TouchReceived (p : Packet) (lead : List UInt8) (h : Header) (payload : List UInt8)
    (hi lo : UInt8) : Prop where
  version : p.version = h.version
  target : p.target = h.target
  source : p.source = h.source
  cid : p.cid = h.command
  dataLen : p.dataLen = h.length
  pointer : payload ≠ [] → p.data = some (UInt8.ofNat (lead.length + 5))
  checksumData : p.checksumData = #v[hi, lo]
  valid : p.valid = true ↔ TouchValid h payload hi lo

/-- What a packet exposes when an IntelliChlor packet is complete. The checksum byte
and the payload are read back from the buffer. -/
structure ChlorReceived (p : Packet) (env : Env) (lead body : List UInt8) : Prop where
  version : p.version = 0
  dataLen : p.dataLen = UInt8.ofNat body.length - 3
  pointer : p.data = some (UInt8.ofNat lead.length)
  checksumData : p.checksumLo = p.bufferAt env (p.bufferPos.toNat - 1 - 2)
  valid : p.valid = true ↔ p.intellichlorChecksum env = p.checksumLo
  header : p.valid = true → p.cid = commandChlorinator ∧
    (p.source, p.target) = if p.dataAt env 0 = 0x50 then (deviceControlCenter, deviceChlorinator)
      else (deviceChlorinator, deviceControlCenter)

/-- The packet has just completed what the receiver has. -/
structure Received (p : Packet) (r : Receiver) : Prop where
  sound : r.Sound
  holds : Ring.Holds p.buffer r.seen
  position : p.bufferPos.toNat = r.seen.length % 256
  packet : match r.phase with
    | .touch h payload hi lo => TouchReceived p r.lead h payload hi lo
    | .chlor body => ∃ env, ChlorReceived p env r.lead body
    | _ => False

/-- A reset packet is at the start of its hunt, whatever it was doing before. -/
theorem tracks_reset (p : Packet) : Tracks p.reset Receiver.start where
  sound := Receiver.sound_start
  reading := id
  holds := Ring.holds_nil _
  position := rfl
  registers := rfl
  pointer := fun n located => by simp [Receiver.start, Phase.payloadOffset] at located
  firstChecksum := fun hi read => by simp [Receiver.start, Phase.firstChecksum] at read
  command := rfl

/-- The store at the head of every call keeps the buffer in step with the history. -/
theorem Packet.store_holds {p : Packet} {history : List UInt8} (holds : Ring.Holds p.buffer history)
    (position : p.bufferPos.toNat = history.length % 256) (c : UInt8) :
    Ring.Holds (p.store c).buffer (history ++ [c]) ∧
      (p.store c).bufferPos.toNat = (history ++ [c]).length % 256 := by
  refine ⟨Ring.holds_write holds c p.bufferPos.toNat_lt position, ?_⟩
  simp only [Packet.store_bufferPos, UInt8.toNat_add, List.length_append, List.length_singleton,
    UInt8.reduceToNat]
  omega

namespace Tracks
variable {p q : Packet} {r : Receiver}

theorem store_holds (tracked : Tracks p r) (c : UInt8) :
    Ring.Holds (p.store c).buffer (r.seen ++ [c]) :=
  (Packet.store_holds tracked.holds tracked.position c).1

theorem store_position (tracked : Tracks p r) (c : UInt8) :
    (p.store c).bufferPos.toNat = (r.seen ++ [c]).length % 256 :=
  (Packet.store_holds tracked.holds tracked.position c).2

/-- A packet that is being read is not valid yet. -/
theorem invalid (tracked : Tracks p r) : p.valid = false := by
  have valid : p.valid = r.phase.registers.valid := congrArg Registers.valid tracked.registers
  rw [valid]
  cases r.phase <;> rfl

end Tracks

/-! ## Markers in the buffer -/

/-- Two adjacent cells hold a two-byte marker exactly when the history ends with it. -/
theorem pair_in_buffer {p : Packet} {history : List UInt8} (held : Ring.Holds p.buffer history)
    (env : Env) {n : ℕ} (place : n = (history.length - 1) % 256) (long : 2 ≤ history.length)
    (inside : 1 ≤ n) (x y : UInt8) :
    (p.bufferAt env n = y ∧ p.bufferAt env (n - 1) = x) ↔ [x, y] <:+ history := by
  rw [Ring.suffix_iff [x, y] held long (n - 1) (by simp only [bufferSize, List.length_cons, List.length_nil]; omega)
      (by simp only [bufferSize, List.length_cons, List.length_nil]; omega),
    p.bufferAt_cell env (n := n - 1 + 1) (by omega) (by omega),
    p.bufferAt_cell env (i := n - 1) (n := n - 1 + 0) (by omega) (by omega)]
  constructor
  · rintro ⟨second, first⟩ k within
    match k, within with
    | 0, _ => exact first
    | 1, _ => exact second
  · intro cells
    exact ⟨cells 1 (by simp), cells 0 (by simp)⟩

/-- The same for the four bytes of the IntelliTouch start. -/
theorem touchStart_in_buffer {p : Packet} {history : List UInt8} (held : Ring.Holds p.buffer history)
    (env : Env) {n : ℕ} (place : n = (history.length - 1) % 256) (long : 4 ≤ history.length)
    (inside : 3 ≤ n) :
    (p.bufferAt env n = 0xA5 ∧ p.bufferAt env (n - 1) = 0xFF ∧ p.bufferAt env (n - 2) = 0x00 ∧
      p.bufferAt env (n - 3) = 0xFF) ↔ touchStart <:+ history := by
  rw [Ring.suffix_iff touchStart held long (n - 3)
      (by simp only [bufferSize, touchStart, List.length_cons, List.length_nil]; omega)
      (by simp only [bufferSize, touchStart, List.length_cons, List.length_nil]; omega),
    p.bufferAt_cell env (n := n - 3 + 3) (by omega) (by omega),
    p.bufferAt_cell env (i := n - 1) (n := n - 3 + 2) (by omega) (by omega),
    p.bufferAt_cell env (i := n - 2) (n := n - 3 + 1) (by omega) (by omega),
    p.bufferAt_cell env (i := n - 3) (n := n - 3 + 0) (by omega) (by omega)]
  constructor
  · rintro ⟨fourth, third, second, first⟩ k within
    simp only [touchStart, List.length_cons, List.length_nil] at within
    obtain rfl | rfl | rfl | rfl : k = 0 ∨ k = 1 ∨ k = 2 ∨ k = 3 := by omega
    · exact first
    · exact second
    · exact third
    · exact fourth
  · intro cells
    exact ⟨cells 3 (by simp [touchStart]), cells 2 (by simp [touchStart]), cells 1 (by simp [touchStart]),
      cells 0 (by simp [touchStart])⟩

/-! ## One call of `Push` -/

/-- The call and the receiver's step complete together and leave matching states. -/
def Agrees (pushed : Pushed) (next : Bool × Receiver) : Prop :=
  pushed.complete = next.1 ∧
    if pushed.complete then Received pushed.packet next.2 else Tracks pushed.packet next.2

section Step
variable {p q : Packet} {r r' : Receiver} {lead : List UInt8} (env : Env) (c : UInt8)

/-- A byte that completes nothing: the buffer moves with the receiver, so only the
registers and the pointer have to be compared. -/
private theorem agrees_next (tracked : Tracks p r) (stepped : r.step c = (false, r'))
    (reading : ¬ r'.phase.Complete) (buffer : q.buffer = (p.store c).buffer)
    (bufferPos : q.bufferPos = (p.store c).bufferPos) (command : q.command = p.command)
    (registers : q.registers = r'.phase.registers)
    (pointer : ∀ n, r'.phase.payloadOffset = some n → q.data = some (UInt8.ofNat (r'.lead.length + n)))
    (firstChecksum : ∀ hi, r'.phase.firstChecksum = some hi → q.checksumHi = hi) :
    Agrees { complete := false, packet := q } (r.step c) := by
  have sound := Receiver.sound_step tracked.sound c
  have seen := Receiver.seen_step tracked.reading c
  rw [stepped] at sound seen ⊢
  refine ⟨rfl, ⟨sound, reading, ?_, ?_, registers, pointer, firstChecksum, command.trans tracked.command⟩⟩
  · rw [seen, buffer]
    exact tracked.store_holds c
  · rw [seen, bufferPos]
    exact tracked.store_position c

/-- The same for a phase that neither knows where its payload is nor keeps a checksum
byte. -/
private theorem agrees_plain (tracked : Tracks p r) (stepped : r.step c = (false, r'))
    (reading : ¬ r'.phase.Complete) (buffer : q.buffer = (p.store c).buffer)
    (bufferPos : q.bufferPos = (p.store c).bufferPos) (command : q.command = p.command)
    (registers : q.registers = r'.phase.registers) (noPayload : r'.phase.payloadOffset = none)
    (noChecksum : r'.phase.firstChecksum = none) :
    Agrees { complete := false, packet := q } (r.step c) := by
  refine agrees_next c tracked stepped reading buffer bufferPos command registers ?_ ?_
  · intro n located
    rw [noPayload] at located
    cases located
  · intro hi read
    rw [noChecksum] at read
    cases read

private theorem add_summed (summed : List UInt8) (c : UInt8) :
    UInt16.ofNat (0xA5 + byteSum summed) + c.toUInt16 = UInt16.ofNat (0xA5 + byteSum (summed ++ [c])) := by
  rw [ofNat_add_byte, byteSum_append, byteSum_cons, byteSum_nil, Nat.add_zero, Nat.add_assoc]

/-- The equations between a tracked packet's registers and an IntelliTouch phase. -/
theorem touch_registers {state : State} {pos : UInt8} {h : Header} {summed : List UInt8} :
    p.registers = touchRegisters state pos h summed ↔
      p.state = state ∧ p.valid = false ∧ p.pos = pos ∧ p.version = h.version ∧ p.target = h.target ∧
      p.source = h.source ∧ p.cid = h.command ∧ p.dataLen = h.length ∧
      p.checksum = UInt16.ofNat (0xA5 + byteSum summed) := by
  simp only [Packet.registers, touchRegisters, Registers.mk.injEq]

private theorem preamble_agrees (tracked : Tracks p ⟨lead, .preamble⟩) :
    Agrees (p.push env c) (Receiver.step ⟨lead, .preamble⟩ c) := by
  have registers := tracked.registers
  have seen : Receiver.seen ⟨lead, .preamble⟩ = lead := by simp [Receiver.seen, Phase.bytes]
  have held := tracked.store_holds c
  have position := tracked.position
  rw [seen] at held position
  simp only [Packet.registers, Phase.registers, Registers.mk.injEq] at registers
  obtain ⟨state, valid, pos, version, target, source, cid, dataLen, checksum⟩ := registers
  have place : p.bufferPos.toNat = ((lead ++ [c]).length - 1) % 256 := by simpa using position
  have large : ∀ n : UInt8, p.bufferPos ≥ n ↔ n.toNat ≤ ((lead ++ [c]).length - 1) % 256 := by
    intro n
    rw [ge_iff_le, UInt8.le_iff_toNat_le, place]
  have atTouch := (and_congr_right fun inside : p.bufferPos ≥ 3 => touchStart_in_buffer held env place
    (by have := (large 3).mp inside; simp only [UInt8.reduceToNat] at this; omega)
    (by rw [place]; exact (large 3).mp inside)).trans (and_congr_left' (large 3))
  have atChlor := (and_congr_right fun inside : p.bufferPos ≥ 1 => pair_in_buffer held env place
    (by have := (large 1).mp inside; simp only [UInt8.reduceToNat] at this; omega)
    (by rw [place]; exact (large 1).mp inside) 0x10 0x02).trans (and_congr_left' (large 1))
  simp only [Packet.push_eq, state, Packet.pushPreamble]
  by_cases touch : 3 ≤ ((lead ++ [c]).length - 1) % 256 ∧ touchStart <:+ lead ++ [c]
  · have stepped : Receiver.step ⟨lead, .preamble⟩ c = (false, ⟨lead ++ [c], .version⟩) :=
      congrArg (false, ·) (if_pos touch)
    rw [if_pos (atTouch.mpr touch)]
    refine agrees_plain c tracked stepped id rfl rfl rfl ?_ rfl rfl
    exact touch_registers.mpr ⟨rfl, valid, rfl, version, target, source, cid, dataLen,
      congrArg (· + 0xA5) checksum⟩
  · rw [if_neg (fun found => touch (atTouch.mp found))]
    by_cases chlor : 1 ≤ ((lead ++ [c]).length - 1) % 256 ∧ chlorStart <:+ lead ++ [c]
    · have stepped : Receiver.step ⟨lead, .preamble⟩ c = (false, ⟨lead ++ [c], .intellichlor []⟩) :=
        congrArg (false, ·) ((if_neg touch).trans (if_pos chlor))
      rw [if_pos (atChlor.mpr chlor)]
      refine agrees_next c tracked stepped id rfl rfl rfl ?_ ?_ (fun hi read => by cases read)
      · simp only [Packet.registers, Packet.nextState, Packet.store, Phase.registers, Registers.mk.injEq]
        exact ⟨trivial, valid, trivial, version, target, source, cid, dataLen, congrArg (· + 0x12) checksum⟩
      · rintro n ⟨⟩
        have after := tracked.store_position c
        rw [seen] at after
        refine congrArg some (UInt8.toNat_inj.mp ?_)
        simpa using after
    · have stepped : Receiver.step ⟨lead, .preamble⟩ c = (false, ⟨lead ++ [c], .preamble⟩) :=
        congrArg (false, ·) ((if_neg touch).trans (if_neg chlor))
      rw [if_neg (fun found => chlor (atChlor.mp found))]
      refine agrees_plain c tracked stepped id rfl rfl rfl ?_ rfl rfl
      exact tracked.registers

private theorem version_agrees (tracked : Tracks p ⟨lead, .version⟩) :
    Agrees (p.push env c) (Receiver.step ⟨lead, .version⟩ c) := by
  obtain ⟨state, valid, _, version, target, source, cid, dataLen, checksum⟩ :=
    touch_registers.mp tracked.registers
  have stepped : Receiver.step ⟨lead, .version⟩ c = (false, ⟨lead, .destination c⟩) := rfl
  simp only [Packet.push_eq, state]
  refine agrees_plain c tracked stepped id rfl rfl rfl ?_ rfl rfl
  exact touch_registers.mpr ⟨rfl, valid, rfl, rfl, target, source, cid, dataLen,
    (congrArg (· + c.toUInt16) checksum).trans (add_summed [] c)⟩

private theorem destination_agrees {v : UInt8} (tracked : Tracks p ⟨lead, .destination v⟩) :
    Agrees (p.push env c) (Receiver.step ⟨lead, .destination v⟩ c) := by
  obtain ⟨state, valid, _, version, target, source, cid, dataLen, checksum⟩ :=
    touch_registers.mp tracked.registers
  have stepped : Receiver.step ⟨lead, .destination v⟩ c = (false, ⟨lead, .source v c⟩) := rfl
  simp only [Packet.push_eq, state]
  refine agrees_plain c tracked stepped id rfl rfl rfl ?_ rfl rfl
  exact touch_registers.mpr ⟨rfl, valid, rfl, version, rfl, source, cid, dataLen,
    (congrArg (· + c.toUInt16) checksum).trans (add_summed [v] c)⟩

private theorem source_agrees {v t : UInt8} (tracked : Tracks p ⟨lead, .source v t⟩) :
    Agrees (p.push env c) (Receiver.step ⟨lead, .source v t⟩ c) := by
  obtain ⟨state, valid, _, version, target, source, cid, dataLen, checksum⟩ :=
    touch_registers.mp tracked.registers
  have stepped : Receiver.step ⟨lead, .source v t⟩ c = (false, ⟨lead, .command v t c⟩) := rfl
  simp only [Packet.push_eq, state]
  refine agrees_plain c tracked stepped id rfl rfl rfl ?_ rfl rfl
  exact touch_registers.mpr ⟨rfl, valid, rfl, version, target, rfl, cid, dataLen,
    (congrArg (· + c.toUInt16) checksum).trans (add_summed [v, t] c)⟩

private theorem command_agrees {v t s : UInt8} (tracked : Tracks p ⟨lead, .command v t s⟩) :
    Agrees (p.push env c) (Receiver.step ⟨lead, .command v t s⟩ c) := by
  obtain ⟨state, valid, _, version, target, source, cid, dataLen, checksum⟩ :=
    touch_registers.mp tracked.registers
  have stepped : Receiver.step ⟨lead, .command v t s⟩ c = (false, ⟨lead, .length v t s c⟩) := rfl
  simp only [Packet.push_eq, state]
  refine agrees_plain c tracked stepped id rfl rfl rfl ?_ rfl rfl
  exact touch_registers.mpr ⟨rfl, valid, rfl, version, target, source, rfl, dataLen,
    (congrArg (· + c.toUInt16) checksum).trans (add_summed [v, t, s] c)⟩

private theorem length_agrees {v t s k : UInt8} (tracked : Tracks p ⟨lead, .length v t s k⟩) :
    Agrees (p.push env c) (Receiver.step ⟨lead, .length v t s k⟩ c) := by
  obtain ⟨state, valid, _, version, target, source, cid, dataLen, checksum⟩ :=
    touch_registers.mp tracked.registers
  have summed := (congrArg (· + c.toUInt16) checksum).trans (add_summed [v, t, s, k] c)
  simp only [Packet.push_eq, state, Packet.pushLength]
  by_cases empty : c = 0
  · have stepped : Receiver.step ⟨lead, .length v t s k⟩ c = (false, ⟨lead, .checksum ⟨v, t, s, k, c⟩ []⟩) := by
      simp [Receiver.step, empty]
    rw [if_neg (by simp [empty])]
    refine agrees_plain c tracked stepped id rfl rfl rfl ?_ (by simp [Phase.payloadOffset]) rfl
    exact touch_registers.mpr ⟨rfl, valid, rfl, version, target, source, cid, rfl, summed⟩
  · have stepped : Receiver.step ⟨lead, .length v t s k⟩ c = (false, ⟨lead, .data ⟨v, t, s, k, c⟩ []⟩) := by
      simp [Receiver.step, empty]
    have positive : c > 0 := UInt8.pos_iff_ne_zero.mpr empty
    rw [if_pos positive]
    refine agrees_next c tracked stepped id rfl rfl rfl ?_ ?_ (fun hi read => by cases read)
    · exact touch_registers.mpr ⟨rfl, valid, rfl, version, target, source, cid, rfl, summed⟩
    · rintro n ⟨⟩
      have after := tracked.store_position c
      refine congrArg some (UInt8.toNat_inj.mp ?_)
      simpa [Receiver.seen, Phase.bytes] using after

private theorem data_agrees {h : Header} {got : List UInt8} (tracked : Tracks p ⟨lead, .data h got⟩) :
    Agrees (p.push env c) (Receiver.step ⟨lead, .data h got⟩ c) := by
  obtain ⟨state, valid, pos, version, target, source, cid, dataLen, checksum⟩ :=
    touch_registers.mp tracked.registers
  have short : got.length < h.length.toNat := tracked.sound.2
  have bound := h.length.toNat_lt
  have summed := (congrArg (· + c.toUInt16) checksum).trans (add_summed (h.bytes ++ got) c)
  rw [List.append_assoc] at summed
  have advanced : p.pos + 1 = UInt8.ofNat (got ++ [c]).length := by
    rw [pos]
    apply UInt8.toNat_inj.mp
    simp [UInt8.toNat_add]
  have done : (p.store c).pos + 1 ≥ (p.store c).dataLen ↔ h.length.toNat ≤ got.length + 1 := by
    change p.pos + 1 ≥ p.dataLen ↔ _
    rw [ge_iff_le, UInt8.le_iff_toNat_le, advanced, dataLen]
    simp only [List.length_append, List.length_singleton, UInt8.toNat_ofNat']
    omega
  simp only [Packet.push_eq, state, Packet.pushData]
  by_cases last : h.length.toNat ≤ got.length + 1
  · have stepped : Receiver.step ⟨lead, .data h got⟩ c = (false, ⟨lead, .checksum h (got ++ [c])⟩) := by
      simp [Receiver.step, last]
    rw [if_pos (done.mpr last)]
    refine agrees_next c tracked stepped id rfl rfl rfl ?_ ?_ (fun hi read => by cases read)
    · exact touch_registers.mpr ⟨rfl, valid, rfl, version, target, source, cid, dataLen,
        (UInt16.add_zero _).trans summed⟩
    · intro n located
      exact tracked.pointer n (by simpa [Phase.payloadOffset] using located)
  · have stepped : Receiver.step ⟨lead, .data h got⟩ c = (false, ⟨lead, .data h (got ++ [c])⟩) := by
      simp [Receiver.step, last]
    rw [if_neg (fun reached => last (done.mp reached))]
    refine agrees_next c tracked stepped id rfl rfl rfl ?_ ?_ (fun hi read => by cases read)
    · exact touch_registers.mpr ⟨state, valid, advanced, version, target, source, cid, dataLen, summed⟩
    · exact tracked.pointer

private theorem checksum_agrees {h : Header} {payload : List UInt8}
    (tracked : Tracks p ⟨lead, .checksum h payload⟩) :
    Agrees (p.push env c) (Receiver.step ⟨lead, .checksum h payload⟩ c) := by
  obtain ⟨state, valid, pos, version, target, source, cid, dataLen, checksum⟩ :=
    touch_registers.mp tracked.registers
  have stepped : Receiver.step ⟨lead, .checksum h payload⟩ c = (false, ⟨lead, .checksumLow h payload c⟩) := rfl
  simp only [Packet.push_eq, state]
  rw [Packet.pushChecksum_first (p.store c) env c pos]
  refine agrees_next c tracked stepped id rfl rfl rfl ?_ tracked.pointer ?_
  · exact touch_registers.mpr ⟨state, valid, rfl, version, target, source, cid, dataLen, checksum⟩
  · rintro hi ⟨⟩
    rfl

private theorem checksumLow_agrees {h : Header} {payload : List UInt8} {hi : UInt8}
    (tracked : Tracks p ⟨lead, .checksumLow h payload hi⟩) :
    Agrees (p.push env c) (Receiver.step ⟨lead, .checksumLow h payload hi⟩ c) := by
  obtain ⟨state, valid, pos, version, target, source, cid, dataLen, checksum⟩ :=
    touch_registers.mp tracked.registers
  have first : (p.store c).checksumHi = hi := tracked.firstChecksum hi rfl
  have holds := tracked.store_holds c
  have position := tracked.store_position c
  have seen := Receiver.seen_step tracked.reading c
  have sound := Receiver.sound_step tracked.sound c
  have pointer : payload ≠ [] → p.data = some (UInt8.ofNat (lead.length + 5)) := fun nonempty =>
    tracked.pointer 5 (by simp [Phase.payloadOffset, nonempty])
  have sums : (p.store c).checksum = toUint16 hi c ↔ TouchValid h payload hi c := by
    change p.checksum = _ ↔ _
    rw [checksum]
    exact ofNat_eq_bigEndian _ hi c
  rw [← seen] at holds position
  simp only [Packet.push_eq, state]
  rw [Packet.pushChecksum_second (p.store c) env c pos, first]
  by_cases agreed : TouchValid h payload hi c
  · rw [if_pos (sums.mpr agreed)]
    exact ⟨rfl, sound, holds, position, version, target, source, cid, dataLen, pointer, rfl,
      iff_of_true rfl agreed⟩
  · rw [if_neg (fun equal => agreed (sums.mp equal))]
    exact ⟨rfl, sound, holds, position, version, target, source, cid, dataLen, pointer, rfl,
      iff_of_false Bool.false_ne_true agreed⟩

/-- The terminator cannot begin in the start sequence, so it ends the history exactly
when it ends the body. -/
theorem end_in_body {body : List UInt8} (started : chlorStart <:+ lead) :
    chlorEnd <:+ lead ++ body ++ [c] ↔ chlorEnd <:+ body ++ [c] := by
  rw [List.append_assoc]
  constructor
  · intro ends
    cases body with
    | nil =>
      obtain ⟨before, rfl⟩ := started
      obtain ⟨before', spelling⟩ := ends
      have last := congrArg (fun bytes => bytes.reverse[1]?) spelling
      simp [chlorEnd, chlorStart] at last
    | cons first rest =>
      exact List.suffix_of_suffix_length_le ends (List.suffix_append _ _) (by simp [chlorEnd])
  · exact fun ends => ends.trans (List.suffix_append _ _)

/-- The stored byte closes the packet for the parser exactly when it does for the
receiver. -/
private theorem closes {body : List UInt8} (tracked : Tracks p ⟨lead, .intellichlor body⟩) :
    (p.store c).AtTerminator env ↔ Receiver.EndVisible (lead ++ body).length ∧ chlorEnd <:+ body ++ [c] := by
  have started : chlorStart <:+ lead := tracked.sound
  have long := started.length_le
  simp only [chlorStart, List.length_cons, List.length_nil] at long
  have holds := tracked.store_holds c
  have position := tracked.store_position c
  rw [show Receiver.seen ⟨lead, .intellichlor body⟩ = lead ++ body from rfl] at holds position
  simp only [List.length_append, List.length_singleton] at position
  have visible : ((p.store c).bufferPos.toNat : Int) - 1 ≥ 1 ↔ Receiver.EndVisible (lead ++ body).length := by
    simp only [Receiver.EndVisible, List.length_append]
    omega
  unfold Packet.AtTerminator
  rw [visible, ← end_in_body c started]
  refine and_congr_right fun inside => ?_
  simp only [Receiver.EndVisible, List.length_append] at inside
  have cell : ((p.store c).bufferPos.toNat : Int) - 1 = ((lead.length + body.length) % 256 : ℕ) := by
    omega
  rw [cell]
  exact pair_in_buffer holds env (by simp) (by simp; omega) inside.1 0x10 0x03

private theorem intellichlor_agrees {body : List UInt8} (tracked : Tracks p ⟨lead, .intellichlor body⟩) :
    Agrees (p.push env c) (Receiver.step ⟨lead, .intellichlor body⟩ c) := by
  have registers := tracked.registers
  simp only [Packet.registers, Phase.registers, Registers.mk.injEq] at registers
  obtain ⟨state, valid, pos, version, target, source, cid, dataLen, checksum⟩ := registers
  have holds := tracked.store_holds c
  have position := tracked.store_position c
  have pointer : p.data = some (UInt8.ofNat lead.length) := tracked.pointer 0 rfl
  have longer : p.dataLen + 1 = UInt8.ofNat (body ++ [c]).length := by
    rw [dataLen]
    apply UInt8.toNat_inj.mp
    simp [UInt8.toNat_add]
  simp only [Packet.push_eq, state]
  by_cases found : Receiver.EndVisible (lead ++ body).length ∧ chlorEnd <:+ body ++ [c]
  · have stepped : Receiver.step ⟨lead, .intellichlor body⟩ c = (true, ⟨lead, .chlor (body ++ [c])⟩) :=
      if_pos found
    have ended := Packet.pushIntellichlor_close (p.store c) env ((closes env c tracked).mpr found)
    have sound := Receiver.sound_step tracked.sound c
    have after := Receiver.seen_step tracked.reading c
    rw [stepped] at sound after ⊢
    refine ⟨ended.complete, ?_⟩
    rw [if_pos ended.complete]
    refine ⟨sound, ?_, ?_, env, ⟨ended.version.trans version, ?_, ended.data.trans pointer, ?_, ended.valid,
      ended.header⟩⟩
    · rw [after, ended.buffer]
      exact holds
    · rw [after, ended.bufferPos]
      exact position
    · rw [ended.dataLen]
      exact congrArg (· - 3) longer
    · rw [ended.checksumData, ended.bufferPos]
      simp only [Packet.bufferAt, ended.buffer]
  · have stepped : Receiver.step ⟨lead, .intellichlor body⟩ c = (false, ⟨lead, .intellichlor (body ++ [c])⟩) :=
      if_neg found
    rw [Packet.pushIntellichlor_open (p.store c) env (fun closed => found ((closes env c tracked).mp closed))]
    refine agrees_next c tracked stepped id rfl rfl rfl ?_ ?_ (fun hi read => by cases read)
    · simp only [Packet.registers, Phase.registers, Registers.mk.injEq]
      exact ⟨state, valid, pos, version, target, source, cid, longer, checksum⟩
    · rintro n ⟨⟩
      exact pointer

/-- One call of `Push` does what one step of the receiver does. -/
theorem push_agrees (tracked : Tracks p r) : Agrees (p.push env c) (r.step c) := by
  obtain ⟨lead, phase⟩ := r
  cases phase with
  | preamble => exact preamble_agrees env c tracked
  | version => exact version_agrees env c tracked
  | destination v => exact destination_agrees env c tracked
  | source v t => exact source_agrees env c tracked
  | command v t s => exact command_agrees env c tracked
  | length v t s k => exact length_agrees env c tracked
  | data h got => exact data_agrees env c tracked
  | checksum h payload => exact checksum_agrees env c tracked
  | checksumLow h payload hi => exact checksumLow_agrees env c tracked
  | intellichlor body => exact intellichlor_agrees env c tracked
  | touch h payload hi lo => exact absurd trivial tracked.reading
  | chlor body => exact absurd trivial tracked.reading

end Step

/-- `Push` and `Reset` refine the receiver on every stream. -/
def refinement : Recognizer.Simulation Packet.recognizer receiver Arrival.byte where
  rel := Tracks
  done := Received
  step a tracked := push_agrees a.env a.byte tracked
  restart {p _} _ := tracks_reset p

namespace Tracks
variable {p : Packet} {r done : Receiver} {stream : List Arrival}

/-- Where the receiver completes a packet, so does `Push`, and nowhere earlier. -/
theorem scan_received (tracked : Tracks p r) {k : ℕ}
    (found : receiver.scan r (stream.map Arrival.byte) = (some k, done)) :
    ∃ q, Packet.recognizer.scan p stream = (some k, q) ∧ Received q done := by
  obtain ⟨index, left⟩ := refinement.scan tracked stream
  rw [found] at index left
  exact ⟨_, Prod.ext index rfl, by simpa [index, refinement] using left⟩

/-- Where the receiver completes nothing, neither does `Push`. -/
theorem scan_tracks (tracked : Tracks p r) (silent : receiver.scan r (stream.map Arrival.byte) = (none, done)) :
    ∃ q, Packet.recognizer.scan p stream = (none, q) ∧ Tracks q done := by
  obtain ⟨index, left⟩ := refinement.scan tracked stream
  rw [silent] at index left
  exact ⟨_, Prod.ext index rfl, by simpa [index, refinement] using left⟩

end Tracks

end Pentair
