import Pentair.Run

/-! What a stream can do to the telemetry. Only a call that completes a valid packet
reads a command, it updates the one record that the packet selects, and which payload
bytes it reads depends on that record alone: no decoder asks how long the payload is. -/
namespace Pentair

/-- The record that a packet's header and first payload byte select. -/
def selection (cid source first : UInt8) : Command :=
  if cid = commandSystemStatus then .systemStatus
  else if cid = commandPumpStatus then
    if source = deviceControlCenter then .pumpStatusRequest else .pumpStatusResponse
  else if cid = commandPumpControl then
    if source = deviceControlCenter then .pumpControlRequest else .pumpControlResponse
  else if cid = commandChlorinator then if first = 0x50 then .chlorinatorRequest else .chlorinatorResponse
  else if cid = commandScheduleConfig then .scheduleConfig
  else if cid = commandTimeSettings then .timeSettings
  else if cid = commandHeatStatus then .heatStatus
  else .unknown

/-- The record that a completed packet selects. -/
def Packet.selection (p : Packet) (env : Env) : Command := Pentair.selection p.cid p.source (p.dataAt env 0)

/-- How many payload bytes a record's fixed layout takes. -/
def Command.layout : Command → ℕ
  | .unknown => 0
  | .systemStatus => 23
  | .pumpStatusRequest => 0
  | .pumpStatusResponse => 15
  | .pumpControlRequest => 1
  | .pumpControlResponse => 1
  | .scheduleConfig => 7
  | .timeSettings => 8
  | .heatStatus => 9
  | .chlorinatorRequest => 3
  | .chlorinatorResponse => 4

/-- Every record but that of `command` is left as it was. -/
structure Records.ChangedOnly (command : Command) (before after : Records) : Prop where
  systemStatus : command ≠ .systemStatus → after.systemStatus = before.systemStatus
  pumpStatusRequest : command ≠ .pumpStatusRequest → after.pumpStatusRequest = before.pumpStatusRequest
  pumpStatusResponse : command ≠ .pumpStatusResponse → after.pumpStatusResponse = before.pumpStatusResponse
  pumpControlRequest : command ≠ .pumpControlRequest → after.pumpControlRequest = before.pumpControlRequest
  pumpControlResponse : command ≠ .pumpControlResponse → after.pumpControlResponse = before.pumpControlResponse
  scheduleConfig : command ≠ .scheduleConfig → after.scheduleConfig = before.scheduleConfig
  timeSettings : command ≠ .timeSettings → after.timeSettings = before.timeSettings
  heatStatus : command ≠ .heatStatus → after.heatStatus = before.heatStatus
  chlorinatorRequest : command ≠ .chlorinatorRequest → after.chlorinatorRequest = before.chlorinatorRequest
  chlorinatorResponse : command ≠ .chlorinatorResponse → after.chlorinatorResponse = before.chlorinatorResponse

/-! ## The decoders -/

/-- A decoder updates its own record. -/
theorem Command.read_changes (command : Command) (records : Records) (memory : ℕ → UInt8) :
    Records.ChangedOnly command records ((command.read records).run memory).1 := by
  cases command <;> constructor <;> intro other <;> first | rfl | exact absurd rfl other

/-- The offsets a decoder reads lie inside exactly the payloads of its layout's length. -/
theorem Command.reads_inside (command : Command) (records : Records) (memory : ℕ → UInt8) (length : ℕ) :
    (∀ k ∈ ((command.read records).run memory).2, k < length) ↔ command.layout ≤ length := by
  cases command <;>
    simp only [Command.read, Command.layout, SystemStatus.read, SystemStatus.circuit, ChlorinatorRequest.read,
      ChlorinatorResponse.read, TimeSettings.read, PumpControlRequest.read, PumpControlResponse.read,
      PumpStatusRequest.read, PumpStatusResponse.read, HeatStatus.read, ScheduleConfig.read, Reads.run_bind,
      Reads.run_cell, Reads.run_pure, List.append_nil, List.cons_append, List.nil_append, List.forall_mem_cons,
      List.not_mem_nil, false_imp_iff, implies_true, and_true, Nat.zero_le] <;>
    omega

namespace Packet
variable (self : Packet) (env : Env)

/-- With no command left over from before, the dispatch is decided by the packet. -/
theorem selectCommand_eq (idle : self.command = .unknown) :
    (self.selectCommand.run (self.dataAt env)).1 = self.selection env := by
  unfold selectCommand Packet.selection Pentair.selection
  rw [idle]
  split_ifs <;> simp_all [Reads.run_bind, eq_comm]

/-- The dispatch itself reads the first payload byte at most, and only for a chlorinator
record, whose layout includes it. -/
theorem selectCommand_reads {k : ℕ} (read : k ∈ (self.selectCommand.run (self.dataAt env)).2) :
    k = 0 ∧ 0 < (self.selection env).layout := by
  unfold selectCommand at read
  unfold Packet.selection Pentair.selection
  split_ifs at read ⊢ <;> simp_all [Command.layout, Reads.run_bind]

/-- What `ReadCommand` reads through `data_` lies inside the payload exactly when the
payload is as long as the layout of the record it updates. -/
theorem readCommand_reads (idle : self.command = .unknown) (length : ℕ) :
    (∀ k ∈ (self.readCommand env).2, k < length) ↔ (self.selection env).layout ≤ length := by
  have decoded := Command.reads_inside (self.selection env) self.records (self.dataAt env) length
  rw [← self.selectCommand_eq env idle] at decoded
  have split : (self.readCommand env).2 = (self.selectCommand.run (self.dataAt env)).2 ++
      (((self.selectCommand.run (self.dataAt env)).1.read self.records).run (self.dataAt env)).2 := rfl
  rw [split, List.forall_mem_append, decoded, self.selectCommand_eq env idle]
  refine and_iff_right_of_imp fun long k read => ?_
  obtain ⟨rfl, positive⟩ := self.selectCommand_reads env read
  exact positive.trans_le long

/-- A valid packet updates the record it selects, from the bytes found through `data_`. -/
theorem push_records (c : UInt8) (idle : self.command = .unknown) :
    (self.push env c).packet.records =
      if (self.push env c).Accepted then
        ((((self.push env c).packet.selection env).read self.records).run ((self.push env c).packet.dataAt env)).1
      else self.records := by
  rcases self.push_cases env c with silent | ⟨ready, decoded⟩
  · have refused : ¬ (self.push env c).Accepted := fun accepted =>
      absurd (accepted.2.symm.trans (silent.invalid accepted.1)) (by decide)
    rw [if_neg refused]
    exact silent.untouched.records
  · obtain ⟨checksum, packet⟩ := decoded.packet
    have accepted : (self.push env c).Accepted :=
      ⟨decoded.complete, (congrArg Packet.valid packet).trans decoded.valid⟩
    have selected := ready.selectCommand_eq env (decoded.untouched.command.trans idle)
    rw [if_pos accepted, packet, ← decoded.untouched.records]
    change (((ready.selectCommand.run (ready.dataAt env)).1.read ready.records).run (ready.dataAt env)).1 = _
    rw [selected]
    rfl

end Packet

/-! ## Calls in a run -/

section Calls
variable (p : Packet) (stream : List Arrival) (a : Arrival)

/-- Whatever was read before, no command is left over for the next call. -/
theorem idle_between_calls : (p.after stream).command = .unknown :=
  (refinement.feed (tracks_reset p) stream).command

/-- A call that completed a valid packet called `ReadCommand` on it, with no command left
over from before. -/
theorem accepted_decodes (accepted : (p.pushAfter stream a).Accepted) :
    ∃ ready : Packet, ready.command = .unknown ∧
      (p.pushAfter stream a).reads = (ready.readCommand a.env).2 ∧
      (p.pushAfter stream a).packet.dataLen = ready.dataLen ∧
      (p.pushAfter stream a).packet.selection a.env = ready.selection a.env := by
  rcases Packet.push_cases (p.after stream) a.env a.byte with silent | ⟨ready, decoded⟩
  · exact absurd (accepted.2.symm.trans (silent.invalid accepted.1)) (by decide)
  · obtain ⟨checksum, packet⟩ := decoded.packet
    refine ⟨ready, decoded.untouched.command.trans (idle_between_calls p stream), decoded.reads, ?_, ?_⟩
    · exact (congrArg Packet.dataLen packet).trans rfl
    · exact (congrArg (Packet.selection · a.env) packet).trans rfl

/-- The records and the clock change only with a valid packet, and then only the record
that the packet selects. -/
theorem telemetry_changes :
    (¬ (p.pushAfter stream a).Accepted →
      (p.pushAfter stream a).packet.records = (p.after stream).records ∧
      (p.pushAfter stream a).packet.clock = (p.after stream).clock) ∧
    ((p.pushAfter stream a).Accepted →
      Records.ChangedOnly ((p.pushAfter stream a).packet.selection a.env)
        (p.after stream).records (p.pushAfter stream a).packet.records) ∧
    ∀ q : Packet, q.reset.records = q.records ∧ q.reset.clock = q.clock := by
  have records := (p.after stream).push_records a.env a.byte (idle_between_calls p stream)
  change (p.pushAfter stream a).packet.records = if (p.pushAfter stream a).Accepted then _ else _ at records
  refine ⟨fun refused => ⟨?_, ?_⟩, fun accepted => ?_, fun q => ⟨rfl, rfl⟩⟩
  · rw [if_neg refused] at records
    exact records
  · rcases Packet.push_cases (p.after stream) a.env a.byte with silent | ⟨ready, decoded⟩
    · exact silent.untouched.clock
    · obtain ⟨checksum, packet⟩ := decoded.packet
      have valid : (p.pushAfter stream a).packet.valid = true :=
        (congrArg Packet.valid packet).trans decoded.valid
      exact absurd ⟨decoded.complete, valid⟩ refused
  · rw [if_pos accepted] at records
    rw [records]
    exact Command.read_changes _ _ _

/-- The payload bytes read for a valid packet lie inside it exactly when it is as long as
the layout of the record it selects. -/
theorem reads_inside_payload (accepted : (p.pushAfter stream a).Accepted) :
    (∀ k ∈ (p.pushAfter stream a).reads, k < (p.pushAfter stream a).packet.dataLen.toNat) ↔
      ((p.pushAfter stream a).packet.selection a.env).layout ≤
        (p.pushAfter stream a).packet.dataLen.toNat := by
  obtain ⟨ready, idle, reads, length, selected⟩ := accepted_decodes p stream a accepted
  rw [reads, length, selected]
  exact ready.readCommand_reads a.env idle _

end Calls

/-- The stop request of a pump is as long as its record's layout. -/
theorem reads_inside_pumpOff :
    (∀ k ∈ ((default : Packet).pushAfter (arrivals default pumpOff.bytes.dropLast) ⟨default, 0x20⟩).reads,
        k < ((default : Packet).pushAfter (arrivals default pumpOff.bytes.dropLast)
          ⟨default, 0x20⟩).packet.dataLen.toNat) ↔
      Command.pumpControlRequest.layout ≤ 1 :=
  reads_inside_payload default (arrivals default pumpOff.bytes.dropLast) ⟨default, 0x20⟩ (by decide +kernel)

/-- A status broadcast without a payload is valid, and is decoded all the same. -/
theorem reads_outside_payload :
    ¬ ∀ (p : Packet) (stream : List Arrival) (a : Arrival), (p.pushAfter stream a).Accepted →
      ∀ k ∈ (p.pushAfter stream a).reads, k < (p.pushAfter stream a).packet.dataLen.toNat := by
  intro inside
  have first := inside default (arrivals default emptyStatus.bytes.dropLast) ⟨default, 0xC7⟩
    (by decide +kernel) 0 (by decide +kernel)
  exact absurd first (by decide +kernel)

end Pentair
