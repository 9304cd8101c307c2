import Mathlib.Tactic.SplitIfs
import Pentair.Packet

/-! What one call of `Push` can do. The overrun check never fires, so a call is one
store followed by the branch of the current state, and only a completed packet with
a matching checksum reaches `ReadCommand`. -/
namespace Pentair.Packet
variable (self : Packet) (env : Env) (c : UInt8)

@[simp] theorem store_bufferPos : (self.store c).bufferPos = self.bufferPos + 1 := rfl

/-- `uint8_t > 256` is false, so the buffer is never dropped. -/
theorem push_eq : self.push env c =
    match self.state with
    | .preambleState => { complete := false, packet := (self.store c).pushPreamble env self.bufferPos }
    | .versionState =>
      { complete := false,
        packet := { self.store c with version := c }.nextState .destinationState c.toUInt16 }
    | .destinationState =>
      { complete := false, packet := { self.store c with target := c }.nextState .sourceState c.toUInt16 }
    | .sourceState =>
      { complete := false, packet := { self.store c with source := c }.nextState .commandState c.toUInt16 }
    | .commandState =>
      { complete := false, packet := { self.store c with cid := c }.nextState .lengthState c.toUInt16 }
    | .lengthState => { complete := false, packet := (self.store c).pushLength c }
    | .dataState => { complete := false, packet := (self.store c).pushData c }
    | .checksumState => (self.store c).pushChecksum env c
    | .intellichlorState => (self.store c).pushIntellichlor env := by
  have fits : ¬ self.bufferPos.toNat > bufferSize := by
    have := self.bufferPos.toNat_lt
    simp only [bufferSize]
    omega
  unfold push
  simp only [fits, if_false]
  rfl

/-- `buffer_[i]` inside the buffer is a cell of it. -/
theorem bufferAt_cell {i : Int} {n : ℕ} (index : i = n) (inside : n < 256) :
    self.bufferAt env i = self.buffer[n] := by
  subst index
  change (if inside : n < bufferSize then self.buffer[n] else _) = _
  rw [dif_pos inside]

/-- Reads through `data_` that stay inside the buffer are reads of its cells. -/
theorem dataAt_cell {start : UInt8} (pointer : self.data = some start) {k : ℕ}
    (inside : start.toNat + k < 256) : self.dataAt env k = self.buffer[start.toNat + k] := by
  simp only [dataAt, pointer]
  exact bufferAt_cell self env rfl inside

/-- The payload is a stretch of the buffer when `data_` points at that stretch. -/
theorem payload_eq {start : UInt8} {bytes : List UInt8} (pointer : self.data = some start)
    (long : self.dataLen.toNat = bytes.length)
    (cells : ∀ k (within : k < bytes.length), ∃ inside : start.toNat + k < 256,
      self.buffer[start.toNat + k] = bytes[k]) : self.payload env = bytes := by
  apply List.ext_getElem
  · simp [payload, long]
  · intro k within within'
    obtain ⟨inside, cell⟩ := cells k within'
    simp only [payload, List.getElem_map, List.getElem_range]
    rw [dataAt_cell self env pointer inside, cell]

/-- The first payload byte is `data_[0]`. -/
theorem payload_head? (nonempty : 0 < self.dataLen.toNat) :
    (self.payload env).head? = some (self.dataAt env 0) := by
  obtain ⟨n, length⟩ := Nat.exists_eq_add_of_lt nonempty
  simp [payload, length, List.range_succ_eq_map]

/-- The checksum loop sums the payload. -/
theorem intellichlorChecksum_eq : self.intellichlorChecksum env = (self.payload env).foldl (· + ·) 0x12 := by
  simp [intellichlorChecksum, payload, List.foldl_map]

/-- The first checksum byte is kept for the second. -/
theorem pushChecksum_first (pos : self.pos = 0) :
    self.pushChecksum env c =
      { complete := false, packet := { self with checksumData := #v[c, self.checksumLo], pos := 1 } } := by
  have stored : self.checksumData.setIfInBounds (UInt8.toNat 0) c = #v[c, self.checksumLo] := by
    apply Vector.ext
    intro i inside
    match i, inside with
    | 0, _ => simp
    | 1, _ => simp [checksumLo]
  simp only [pushChecksum, pos, stored]
  rw [if_neg (by decide)]
  rfl

/-- The second checksum byte completes the packet, valid or not. -/
theorem pushChecksum_second (pos : self.pos = 1) :
    self.pushChecksum env c =
      let received := { self with checksumData := #v[self.checksumHi, c] }.nextState .preambleState 0
      if self.checksum = toUint16 self.checksumHi c then
        { complete := true
          packet := ({ received with valid := true }.readCommand env).1
          reads := ({ received with valid := true }.readCommand env).2 }
      else { complete := true, packet := { received with valid := false } } := by
  have stored : self.checksumData.setIfInBounds (UInt8.toNat 1) c = #v[self.checksumHi, c] := by
    apply Vector.ext
    intro i inside
    match i, inside with
    | 0, _ => simp [checksumHi]
    | 1, _ => simp
  have summed : ∀ q : Packet, (q.nextState .preambleState 0).checksum = q.checksum := fun q =>
    UInt16.add_zero q.checksum
  simp only [pushChecksum, pos, stored, summed]
  rw [if_pos (by decide)]
  rfl

/-- The last two bytes stored are the terminator, in consecutive cells. -/
def AtTerminator : Prop :=
  (self.bufferPos.toNat : Int) - 1 ≥ 1 ∧ self.bufferAt env (self.bufferPos.toNat - 1) = 0x03 ∧
    self.bufferAt env (self.bufferPos.toNat - 1 - 1) = 0x10

instance : Decidable (self.AtTerminator env) := inferInstanceAs (Decidable (_ ∧ _ ∧ _))

theorem pushIntellichlor_open (more : ¬ self.AtTerminator env) :
    self.pushIntellichlor env = { complete := false, packet := { self with dataLen := self.dataLen + 1 } } :=
  if_neg more

/-- What the end of an IntelliChlor packet leaves for its reader. -/
structure IntellichlorEnd (before : Packet) (env : Env) (pushed : Pushed) : Prop where
  complete : pushed.complete = true
  buffer : pushed.packet.buffer = before.buffer
  bufferPos : pushed.packet.bufferPos = before.bufferPos
  version : pushed.packet.version = before.version
  data : pushed.packet.data = before.data
  dataLen : pushed.packet.dataLen = before.dataLen + 1 - 3
  checksumData : pushed.packet.checksumLo = before.bufferAt env (before.bufferPos.toNat - 1 - 2)
  valid : pushed.packet.valid = true ↔
    pushed.packet.intellichlorChecksum env = pushed.packet.checksumLo
  header : pushed.packet.valid = true → pushed.packet.cid = commandChlorinator ∧
    (pushed.packet.source, pushed.packet.target) =
      if pushed.packet.dataAt env 0 = 0x50 then (deviceControlCenter, deviceChlorinator)
      else (deviceChlorinator, deviceControlCenter)

theorem pushIntellichlor_close (closed : self.AtTerminator env) :
    IntellichlorEnd self env (self.pushIntellichlor env) := by
  unfold pushIntellichlor
  dsimp only
  split_ifs with ended matched request
  · exact ⟨rfl, rfl, rfl, rfl, rfl, rfl, rfl, iff_of_true rfl matched, fun _ => ⟨rfl, (if_pos request).symm⟩⟩
  · exact ⟨rfl, rfl, rfl, rfl, rfl, rfl, rfl, iff_of_true rfl matched, fun _ => ⟨rfl, (if_neg request).symm⟩⟩
  · exact ⟨rfl, rfl, rfl, rfl, rfl, rfl, rfl, iff_of_false Bool.false_ne_true matched,
      fun valid => absurd valid Bool.false_ne_true⟩
  · exact absurd closed ended

/-- Every call stores its byte, and nothing else touches the buffer. -/
theorem push_stored : (self.push env c).packet.buffer = (self.store c).buffer ∧
    (self.push env c).packet.bufferPos = (self.store c).bufferPos := by
  rw [push_eq]
  cases self.state with
  | preambleState =>
    simp only [pushPreamble]
    split_ifs <;> exact ⟨rfl, rfl⟩
  | lengthState =>
    simp only [pushLength]
    split_ifs <;> exact ⟨rfl, rfl⟩
  | dataState =>
    simp only [pushData]
    split_ifs <;> exact ⟨rfl, rfl⟩
  | checksumState =>
    simp only [pushChecksum]
    split_ifs <;> exact ⟨rfl, rfl⟩
  | intellichlorState =>
    simp only [pushIntellichlor]
    split_ifs <;> exact ⟨rfl, rfl⟩
  | _ => exact ⟨rfl, rfl⟩

/-- A call that leaves the parser in `intellichlor_state` found it there and counted its
byte, or found the start sequence and pointed `data_` at the next cell. -/
theorem push_intellichlor (inside : (self.push env c).packet.state = .intellichlorState) :
    (self.state = .preambleState ∧ (self.bufferPos ≥ 1 ∧ (self.store c).bufferAt env self.bufferPos.toNat = 0x02 ∧
        (self.store c).bufferAt env (self.bufferPos.toNat - 1) = 0x10) ∧
      (self.push env c).packet.data = some (self.bufferPos + 1) ∧
      (self.push env c).packet.dataLen = self.dataLen) ∨
    (self.state = .intellichlorState ∧ (self.push env c).packet.data = self.data ∧
      (self.push env c).packet.dataLen = self.dataLen + 1) := by
  rw [push_eq] at inside ⊢
  cases state : self.state with
  | preambleState =>
    simp only [state, pushPreamble] at inside ⊢
    split_ifs at inside ⊢ with touch chlor
    · cases inside
    · exact .inl ⟨trivial, chlor, rfl, rfl⟩
    · cases state.symm.trans inside
  | lengthState =>
    simp only [state, pushLength] at inside
    split_ifs at inside <;> cases inside
  | dataState =>
    simp only [state, pushData] at inside
    split_ifs at inside
    · cases inside
    · cases state.symm.trans inside
  | checksumState =>
    simp only [state, pushChecksum] at inside
    split_ifs at inside
    · cases inside
    · cases inside
    · cases state.symm.trans inside
  | intellichlorState =>
    simp only [state] at inside ⊢
    by_cases closed : (self.store c).AtTerminator env
    · simp only [pushIntellichlor] at inside
      split_ifs at inside with ended
      · cases inside
      · cases inside
      · cases inside
      · exact absurd closed ended
    · rw [pushIntellichlor_open _ _ closed]
      exact .inr ⟨trivial, rfl, rfl⟩
  | _ =>
    rw [state] at inside
    cases inside

/-! ## Effects on the records -/

/-- The records, the clock and the command pointer are left as they were. -/
structure Untouched (before after : Packet) : Prop where
  records : after.records = before.records
  clock : after.clock = before.clock
  command : after.command = before.command

/-- A call that read no command: it left the records alone, read nothing through
`data_`, and completed no valid packet. -/
structure Silent (before : Packet) (pushed : Pushed) : Prop where
  untouched : Untouched before pushed.packet
  reads : pushed.reads = []
  invalid : pushed.complete = true → pushed.packet.valid = false

/-- A call that completed a valid packet: `ready` is the packet that `ReadCommand`
was called on, and only the running checksum is written after it. -/
structure Decoded (before : Packet) (env : Env) (pushed : Pushed) (ready : Packet) : Prop where
  reads : pushed.reads = (ready.readCommand env).2
  packet : ∃ checksum, pushed.packet = { (ready.readCommand env).1 with checksum := checksum }
  untouched : Untouched before ready
  complete : pushed.complete = true
  valid : ready.valid = true

private theorem pushPreamble_untouched (p : UInt8) : Untouched self (self.pushPreamble env p) := by
  unfold pushPreamble
  dsimp only
  split_ifs <;> exact ⟨rfl, rfl, rfl⟩

private theorem pushLength_untouched : Untouched self (self.pushLength c) := by
  unfold pushLength
  dsimp only
  split_ifs <;> exact ⟨rfl, rfl, rfl⟩

private theorem pushData_untouched : Untouched self (self.pushData c) := by
  unfold pushData
  dsimp only
  split_ifs <;> exact ⟨rfl, rfl, rfl⟩

private theorem pushChecksum_cases :
    Silent self (self.pushChecksum env c) ∨ ∃ ready, Decoded self env (self.pushChecksum env c) ready := by
  unfold pushChecksum
  dsimp only
  split_ifs
  · exact .inr ⟨_, rfl, ⟨(Packet.readCommand _ env).1.checksum, rfl⟩, ⟨rfl, rfl, rfl⟩, rfl, rfl⟩
  · exact .inl ⟨⟨rfl, rfl, rfl⟩, rfl, fun _ => rfl⟩
  · exact .inl ⟨⟨rfl, rfl, rfl⟩, rfl, fun complete => by simp at complete⟩

private theorem pushIntellichlor_cases :
    Silent self (self.pushIntellichlor env) ∨
      ∃ ready, Decoded self env (self.pushIntellichlor env) ready := by
  unfold pushIntellichlor
  dsimp only
  split_ifs
  · exact .inr ⟨_, rfl, ⟨_, rfl⟩, ⟨rfl, rfl, rfl⟩, rfl, rfl⟩
  · exact .inr ⟨_, rfl, ⟨_, rfl⟩, ⟨rfl, rfl, rfl⟩, rfl, rfl⟩
  · exact .inl ⟨⟨rfl, rfl, rfl⟩, rfl, fun _ => rfl⟩
  · exact .inl ⟨⟨rfl, rfl, rfl⟩, rfl, fun complete => by simp at complete⟩

/-- Every call is silent, or it decodes a valid packet. -/
theorem push_cases :
    Silent self (self.push env c) ∨ ∃ ready, Decoded self env (self.push env c) ready := by
  have quiet : ∀ q : Packet, Untouched (self.store c) q →
      Silent self { complete := false, packet := q } := fun q kept =>
    ⟨⟨kept.records, kept.clock, kept.command⟩, rfl, fun complete => by simp at complete⟩
  rw [push_eq]
  cases self.state with
  | preambleState => exact .inl (quiet _ (pushPreamble_untouched _ _ _))
  | versionState => exact .inl (quiet _ ⟨rfl, rfl, rfl⟩)
  | destinationState => exact .inl (quiet _ ⟨rfl, rfl, rfl⟩)
  | sourceState => exact .inl (quiet _ ⟨rfl, rfl, rfl⟩)
  | commandState => exact .inl (quiet _ ⟨rfl, rfl, rfl⟩)
  | lengthState => exact .inl (quiet _ (pushLength_untouched _ _))
  | dataState => exact .inl (quiet _ (pushData_untouched _ _))
  | checksumState =>
    rcases pushChecksum_cases (self.store c) env c with silent | ⟨ready, decoded⟩
    · exact .inl { silent with untouched := ⟨silent.untouched.records, silent.untouched.clock,
        silent.untouched.command⟩ }
    · exact .inr ⟨ready, { decoded with untouched := ⟨decoded.untouched.records, decoded.untouched.clock,
        decoded.untouched.command⟩ }⟩
  | intellichlorState =>
    rcases pushIntellichlor_cases (self.store c) env with silent | ⟨ready, decoded⟩
    · exact .inl { silent with untouched := ⟨silent.untouched.records, silent.untouched.clock,
        silent.untouched.command⟩ }
    · exact .inr ⟨ready, { decoded with untouched := ⟨decoded.untouched.records, decoded.untouched.clock,
        decoded.untouched.command⟩ }⟩

end Pentair.Packet
