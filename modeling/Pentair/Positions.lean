import Pentair.Calls
import Pentair.Refinement

/-! Where the parser stands inside a state. `pos_` is shared by the states that read a
payload and a checksum; each finds it reset, counts within its own bound, and leaves it
reset, over any calls in any order. -/
namespace Pentair

/-- `pos_` counts the payload bytes read, from the cell that `data_` points at, or the
checksum bytes read; in every other state it is zero. -/
structure Positioned (p : Packet) : Prop where
  data : p.state = .dataState → p.pos < p.dataLen ∧ p.data = some (p.bufferPos - p.pos)
  checksum : p.state = .checksumState → p.pos < 2
  other : p.state ≠ .dataState → p.state ≠ .checksumState → p.pos = 0

namespace Positioned
variable {p : Packet}

/-- Between states `pos_` is zero. -/
theorem of_zero (notData : p.state ≠ .dataState) (zero : p.pos = 0) : Positioned p where
  data := fun inside => absurd inside notData
  checksum := fun _ => by rw [zero]; decide
  other := fun _ _ => zero

/-- `pos_` never reaches its width, so counting on never wraps it. -/
theorem pos_lt (positioned : Positioned p) : p.pos.toNat < 255 := by
  by_cases inside : p.state = .dataState
  · have below := UInt8.lt_iff_toNat_lt.mp (positioned.data inside).1
    have bound := p.dataLen.toNat_lt
    omega
  · by_cases summing : p.state = .checksumState
    · have below := UInt8.lt_iff_toNat_lt.mp (positioned.checksum summing)
      simp only [UInt8.reduceToNat] at below
      omega
    · rw [positioned.other inside summing]
      decide

end Positioned

namespace Packet
variable (self : Packet) (env : Env) (c : UInt8)

/-- `ReadCommand` does not move the parser. -/
theorem readCommand_positioned (positioned : Positioned self) : Positioned (self.readCommand env).1 :=
  ⟨positioned.data, positioned.checksum, positioned.other⟩

private theorem pushPreamble_positioned (p : UInt8) (zero : self.pos = 0) (state : self.state = .preambleState) :
    Positioned (self.pushPreamble env p) := by
  unfold pushPreamble
  dsimp only
  split_ifs
  · exact .of_zero (fun inside => by cases inside) rfl
  · exact .of_zero (fun inside => by cases inside) rfl
  · exact .of_zero (by rw [state]; decide) zero

private theorem pushLength_positioned : Positioned (self.pushLength c) := by
  unfold pushLength
  dsimp only
  split_ifs with some
  · refine ⟨fun _ => ⟨some, ?_⟩, fun summing => ?_, fun inside => absurd rfl inside⟩
    · exact congrArg Option.some (UInt8.sub_zero _).symm
    · cases summing
  · exact .of_zero (fun inside => by cases inside) rfl

/-- A payload byte is counted, and the last one ends the state. -/
private theorem pushData_positioned (state : self.state = .dataState)
    (pointer : self.data = some (self.bufferPos - 1 - self.pos)) : Positioned (self.pushData c) := by
  unfold pushData
  dsimp only
  split_ifs with last
  · exact .of_zero (fun inside => by cases inside) rfl
  · refine ⟨fun _ => ⟨UInt8.not_le.mp last, ?_⟩, fun summing => ?_, fun inside => absurd state inside⟩
    · refine pointer.trans (congrArg some ?_)
      grind
    · cases state.symm.trans summing

private theorem pushChecksum_positioned (state : self.state = .checksumState) :
    Positioned (self.pushChecksum env c).packet := by
  unfold pushChecksum
  dsimp only
  split_ifs with second matched
  · exact readCommand_positioned _ _ (.of_zero (fun inside => by cases inside) rfl)
  · exact .of_zero (fun inside => by cases inside) rfl
  · refine ⟨fun inside => ?_, fun _ => UInt8.not_le.mp second, fun _ other => absurd state other⟩
    cases state.symm.trans inside

private theorem pushIntellichlor_positioned (state : self.state = .intellichlorState) (zero : self.pos = 0) :
    Positioned (self.pushIntellichlor env).packet := by
  unfold pushIntellichlor
  dsimp only
  have ended : ∀ q : Packet, q.state = .preambleState → q.pos = 0 → Positioned q := fun q state zero =>
    .of_zero (by rw [state]; decide) zero
  split_ifs
  · exact ended _ rfl rfl
  · exact ended _ rfl rfl
  · exact ended _ rfl rfl
  · exact .of_zero (by rw [state]; decide) zero

/-- One call of `Push` keeps the position within its state. -/
theorem push_positioned (positioned : Positioned self) : Positioned (self.push env c).packet := by
  rw [push_eq]
  cases state : self.state with
  | preambleState =>
    exact pushPreamble_positioned _ _ _ (positioned.other (by rw [state]; decide) (by rw [state]; decide)) state
  | versionState => exact .of_zero (fun inside => by cases inside) rfl
  | destinationState => exact .of_zero (fun inside => by cases inside) rfl
  | sourceState => exact .of_zero (fun inside => by cases inside) rfl
  | commandState => exact .of_zero (fun inside => by cases inside) rfl
  | lengthState => exact pushLength_positioned _ _
  | dataState =>
    obtain ⟨_, pointer⟩ := positioned.data state
    refine pushData_positioned _ c state (pointer.trans (congrArg some ?_))
    change self.bufferPos - self.pos = self.bufferPos + 1 - 1 - self.pos
    grind
  | checksumState => exact pushChecksum_positioned _ _ _ state
  | intellichlorState =>
    exact pushIntellichlor_positioned _ _ state (positioned.other (by rw [state]; decide) (by rw [state]; decide))

end Packet

theorem positioned_preserved : Preserved Positioned where
  push p env c positioned := p.push_positioned env c positioned
  reset _ _ := .of_zero (fun inside => by cases inside) rfl
  checksumData _ _ positioned := ⟨positioned.data, positioned.checksum, positioned.other⟩

/-! ## Leaving `data_state` -/

/-- A payload byte in `data_state`: the last one, by the count of `data_len_`, ends it. -/
theorem push_data {p : Packet} (state : p.state = .dataState) (env : Env) (c : UInt8) :
    (p.push env c).packet.data = p.data ∧ (p.push env c).packet.dataLen = p.dataLen ∧
      if p.pos + 1 ≥ p.dataLen then
        (p.push env c).packet.state = .checksumState ∧ (p.push env c).packet.pos = 0
      else (p.push env c).packet.state = .dataState ∧ (p.push env c).packet.pos = p.pos + 1 := by
  have pushed : p.push env c = { complete := false, packet := (p.store c).pushData c } := by
    rw [Packet.push_eq, state]
  rw [pushed]
  change _ ∧ _ ∧ if (p.store c).pos + 1 ≥ (p.store c).dataLen then _ else _
  unfold Packet.pushData
  dsimp only
  split_ifs
  · exact ⟨rfl, rfl, rfl, rfl⟩
  · exact ⟨rfl, rfl, state, rfl⟩

/-- Given a length byte that is not zero, the parser reads that many bytes as the payload,
which starts in the cell after the length byte, and then goes on to the checksum. -/
def Packet.ReadsPayload (p : Packet) : Prop :=
  ∀ (a : Arrival) (stream : List Arrival), a.byte ≠ 0 → stream.length ≤ a.byte.toNat →
    (Packet.recognizer.drive p (a :: stream)).data = some (p.bufferPos + 1) ∧
      (Packet.recognizer.drive p (a :: stream)).dataLen = a.byte ∧
      if stream.length < a.byte.toNat then
        (Packet.recognizer.drive p (a :: stream)).state = .dataState ∧
          (Packet.recognizer.drive p (a :: stream)).pos.toNat = stream.length
      else
        (Packet.recognizer.drive p (a :: stream)).state = .checksumState ∧
          (Packet.recognizer.drive p (a :: stream)).pos = 0

theorem readsPayload {p : Packet} (state : p.state = .lengthState) : p.ReadsPayload := by
  intro a stream some within
  induction stream using List.reverseRecOn with
  | nil =>
    have positive : 0 < a.byte.toNat := Nat.pos_of_ne_zero fun zero => some (UInt8.toNat_inj.mp zero)
    have opened : p.push a.env a.byte =
        { complete := false, packet := (p.store a.byte).pushLength a.byte } := by
      rw [Packet.push_eq, state]
    have driven : Packet.recognizer.drive p [a] = (p.store a.byte).pushLength a.byte := congrArg Pushed.packet opened
    rw [driven, if_pos (by simpa using positive)]
    unfold Packet.pushLength
    rw [if_pos (UInt8.pos_iff_ne_zero.mpr some)]
    exact ⟨rfl, rfl, rfl, rfl⟩
  | append_singleton stream b ih =>
    rw [List.length_append, List.length_singleton] at within
    obtain ⟨data, dataLen, before⟩ := ih (by omega)
    rw [if_pos (by omega)] at before
    obtain ⟨reading, pos⟩ := before
    have bound := a.byte.toNat_lt
    have driven : Packet.recognizer.drive p (a :: (stream ++ [b])) =
        ((Packet.recognizer.drive p (a :: stream)).push b.env b.byte).packet := by
      simp [Recognizer.drive, Packet.recognizer]
    obtain ⟨data', dataLen', next⟩ := push_data reading b.env b.byte
    have counted : ((Packet.recognizer.drive p (a :: stream)).pos + 1).toNat = stream.length + 1 := by
      rw [UInt8.toNat_add, pos]
      simp only [UInt8.reduceToNat]
      omega
    have done :
        (Packet.recognizer.drive p (a :: stream)).pos + 1 ≥ (Packet.recognizer.drive p (a :: stream)).dataLen ↔
          a.byte.toNat ≤ stream.length + 1 := by
      rw [ge_iff_le, UInt8.le_iff_toNat_le, counted, dataLen]
    rw [driven, data', dataLen', List.length_append, List.length_singleton]
    refine ⟨data, dataLen, ?_⟩
    by_cases last : stream.length + 1 < a.byte.toNat
    · rw [if_neg (fun reached => absurd (done.mp reached) (by omega))] at next
      rw [if_pos last]
      exact ⟨next.1, (congrArg UInt8.toNat next.2).trans counted⟩
    · rw [if_pos (done.mpr (by omega))] at next
      rw [if_neg last]
      exact next

/-- Over any calls in any order the position stays within its state: below `data_len_`
from where `data_` points, below two for the checksum bytes, zero elsewhere, and never at
its width. A payload is read for exactly `data_len_` bytes, from the cell after its length
byte on. -/
theorem parser_positions {p : Packet} (reached : Reachable p) :
    Positioned p ∧ p.pos.toNat < 255 ∧ (p.state = .lengthState → p.ReadsPayload) := by
  have positioned : Positioned p := positioned_preserved.reachable
    (fun _ => .of_zero (fun inside => by cases inside) rfl) reached
  exact ⟨positioned, positioned.pos_lt, readsPayload⟩

/-- `Make` without data stops before the length byte. -/
theorem parser_positions_made :
    let p := (default : Packet).construct.call (.make default 0xCB [])
    Positioned p ∧ p.pos.toNat < 255 ∧ (p.state = .lengthState → p.ReadsPayload) :=
  parser_positions ((Reachable.construct default).call _)

end Pentair
