import Pentair.Run

/-! The byte count of an IntelliChlor packet. It is kept in `data_len_`, from which the end
of the packet takes the checksum and the terminator off again, whether or not three bytes
were there to be counted. Calls are followed here without any `Reset` between them. -/
namespace Pentair

/-- The parser, with a note of the packet it is reading: `data_len_` as it left the
preamble state, and the bytes pushed since. -/
structure Watched where
  packet : Packet
  opened : UInt8
  body : List UInt8

def Watched.push (w : Watched) (a : Arrival) : Watched :=
  let next := (w.packet.push a.env a.byte).packet
  if w.packet.state = .preambleState then ⟨next, next.dataLen, []⟩
  else ⟨next, w.opened, w.body ++ [a.byte]⟩

/-- A reset packet that `stream` is pushed to. -/
def Packet.watch (p : Packet) (stream : List Arrival) : Watched := stream.foldl Watched.push ⟨p.reset, 0, []⟩

/-- What `data_len_` and `data_` should say of a completed IntelliChlor packet of which
`body` was read after the start sequence: at least a checksum byte and the terminator were
counted and only these were taken off, the checksum byte lies after the start sequence,
and the payload lies in the buffer. -/
structure Counted (p : Packet) (body : List UInt8) : Prop where
  three : 3 ≤ body.length
  dataLen : p.dataLen.toNat + 3 = body.length
  checksum : ∃ start, p.data = some start ∧ start.toNat + 3 ≤ p.bufferPos.toNat
  inside : ∀ i < p.dataLen.toNat, ∃ start, p.data = some start ∧ start.toNat + i < bufferSize

/-- The buffer holds the whole history, and `data_len_` has counted on from where it was. -/
structure Watched.Counting (w : Watched) (history : List UInt8) : Prop where
  holds : Ring.Holds w.packet.buffer history
  position : w.packet.bufferPos.toNat = history.length % 256
  reading : w.packet.state = .intellichlorState → ∃ lead, history = lead ++ w.body ∧ chlorStart <:+ lead ∧
    w.packet.data = some (UInt8.ofNat lead.length) ∧ w.packet.dataLen = w.opened + UInt8.ofNat w.body.length

theorem Watched.push_packet (w : Watched) (a : Arrival) :
    (w.push a).packet = (w.packet.push a.env a.byte).packet := by
  unfold Watched.push
  dsimp only
  split <;> rfl

theorem Packet.watch_concat (p : Packet) (stream : List Arrival) (a : Arrival) :
    p.watch (stream ++ [a]) = (p.watch stream).push a := List.foldl_concat ..

/-- Every call counts its byte. -/
theorem Watched.Counting.push {w : Watched} {history : List UInt8} (counting : w.Counting history) (a : Arrival) :
    (w.push a).Counting (history ++ [a.byte]) := by
  obtain ⟨buffer, bufferPos⟩ := Packet.push_stored w.packet a.env a.byte
  obtain ⟨holds, position⟩ := Packet.store_holds counting.holds counting.position a.byte
  rw [← buffer, ← w.push_packet] at holds
  rw [← bufferPos, ← w.push_packet] at position
  refine ⟨holds, position, fun inside => ?_⟩
  rw [w.push_packet] at inside
  rcases Packet.push_intellichlor w.packet a.env a.byte inside with
    ⟨hunting, ⟨large, found⟩, data, dataLen⟩ | ⟨reading, data, dataLen⟩
  · have place : w.packet.bufferPos.toNat = ((history ++ [a.byte]).length - 1) % 256 := by
      simpa using counting.position
    have second : 1 ≤ w.packet.bufferPos.toNat := UInt8.le_iff_toNat_le.mp large
    obtain ⟨stored, after⟩ := Packet.store_holds counting.holds counting.position a.byte
    have started := (pair_in_buffer stored a.env place (by omega) second 0x10 0x02).mp found
    have opened : w.push a = ⟨(w.packet.push a.env a.byte).packet, w.packet.dataLen, []⟩ := by
      simp only [Watched.push, hunting, if_true, dataLen]
    rw [opened]
    refine ⟨history ++ [a.byte], (List.append_nil _).symm, started, data.trans (congrArg some ?_), ?_⟩
    · apply UInt8.toNat_inj.mp
      rw [UInt8.toNat_ofNat']
      exact after
    · exact dataLen.trans (UInt8.add_zero _).symm
  · obtain ⟨lead, rfl, started, pointer, counted⟩ := counting.reading reading
    have onward : w.push a = ⟨(w.packet.push a.env a.byte).packet, w.opened, w.body ++ [a.byte]⟩ := by
      simp only [Watched.push, reading, reduceCtorEq, if_false]
    rw [onward]
    refine ⟨lead, List.append_assoc _ _ _, started, data.trans pointer, ?_⟩
    change (w.packet.push a.env a.byte).packet.dataLen = w.opened + UInt8.ofNat (w.body ++ [a.byte]).length
    rw [dataLen, counted]
    apply UInt8.toNat_inj.mp
    simp only [UInt8.toNat_add, UInt8.toNat_ofNat', List.length_append, List.length_singleton, UInt8.reduceToNat]
    omega

/-- So does every stream. -/
theorem Packet.watch_counting (p : Packet) (stream : List Arrival) :
    (p.watch stream).Counting (stream.map Arrival.byte) := by
  induction stream using List.reverseRecOn with
  | nil => exact ⟨Ring.holds_nil _, rfl, fun inside => by cases inside⟩
  | append_singleton stream a ih =>
    rw [watch_concat, List.map_append]
    exact ih.push a

section Completed
variable (p : Packet) (stream : List Arrival) (a : Arrival)

/-- The byte that completes an IntelliChlor packet is the last of its terminator. -/
theorem closed_by_terminator (short : stream.length + 1 ≤ 255)
    (inside : (p.watch stream).packet.state = .intellichlorState)
    (completed : ((p.watch stream).packet.push a.env a.byte).complete = true) :
    ((p.watch stream).packet.store a.byte).AtTerminator a.env ∧ chlorEnd <:+ (p.watch stream).body ++ [a.byte] := by
  have counting := p.watch_counting stream
  obtain ⟨lead, history, started, _, _⟩ := counting.reading inside
  obtain ⟨holds, position⟩ := Packet.store_holds counting.holds counting.position a.byte
  have closed : ((p.watch stream).packet.store a.byte).AtTerminator a.env := by
    by_contra opened
    rw [Packet.push_eq, inside] at completed
    simp only [Packet.pushIntellichlor_open _ _ opened] at completed
    cases completed
  refine ⟨closed, (end_in_body a.byte started).mp ?_⟩
  have long : (stream.map Arrival.byte ++ [a.byte]).length = stream.length + 1 := by simp
  rw [← history]
  obtain ⟨second, found⟩ := closed
  have cell : (((p.watch stream).packet.store a.byte).bufferPos.toNat : Int) - 1 = (stream.length : ℕ) := by
    omega
  rw [cell] at found second
  exact (pair_in_buffer holds a.env (by omega) (by omega) (by omega) 0x10 0x03).mp found

/-- Until a packet has completed, the preamble state is left with `data_len_` at zero. -/
theorem opened_before_completion {t : Packet} (silent : Packet.recognizer.scan p.reset stream = (none, t)) :
    (p.watch stream).packet = t ∧ (∃ r, Tracks t r) ∧ (p.watch stream).opened = 0 := by
  induction stream using List.reverseRecOn generalizing t with
  | nil =>
    obtain rfl := (Prod.mk.inj silent).2
    exact ⟨rfl, ⟨_, tracks_reset p⟩, rfl⟩
  | append_singleton stream a ih =>
    obtain ⟨u, before, last⟩ := Recognizer.scan_append_none.mp silent
    obtain ⟨same, ⟨⟨lead, phase⟩, tracked⟩, opened⟩ := ih before
    obtain ⟨incomplete, rfl⟩ : (u.push a.env a.byte).complete = false ∧ (u.push a.env a.byte).packet = t := by
      obtain ⟨incomplete, rest⟩ := Recognizer.scan_cons_none.mp last
      exact ⟨incomplete, (Prod.mk.inj rest).2⟩
    obtain ⟨_, next⟩ := push_agrees a.env a.byte tracked
    rw [if_neg (by rw [incomplete]; exact Bool.false_ne_true)] at next
    rw [Packet.watch_concat, Watched.push_packet, same]
    refine ⟨rfl, ⟨_, next⟩, ?_⟩
    by_cases hunting : u.state = .preambleState
    · obtain rfl : phase = .preamble := tracked.preamble_iff.mp hunting
      have dataLen : (u.push a.env a.byte).packet.dataLen =
          (Receiver.hunt (lead ++ [a.byte])).phase.registers.dataLen := congrArg Registers.dataLen next.registers
      have empty : (Receiver.hunt (lead ++ [a.byte])).phase.registers.dataLen = 0 := by
        unfold Receiver.hunt
        split_ifs <;> rfl
      simp only [Watched.push, same, hunting, if_true, dataLen, empty]
    · simp only [Watched.push, same, hunting, if_false, opened]

/-- What a completed IntelliChlor packet points at, and what it has counted. -/
theorem completed_registers (short : stream.length + 1 ≤ 255)
    (inside : (p.watch stream).packet.state = .intellichlorState)
    (completed : ((p.watch stream).packet.push a.env a.byte).complete = true) :
    ∃ start : ℕ, start + (p.watch stream).body.length = stream.length ∧
      ((p.watch stream).packet.push a.env a.byte).packet.data = some (UInt8.ofNat start) ∧
      ((p.watch stream).packet.push a.env a.byte).packet.dataLen =
        (p.watch stream).opened + UInt8.ofNat (p.watch stream).body.length + 1 - 3 ∧
      ((p.watch stream).packet.push a.env a.byte).packet.bufferPos.toNat = stream.length + 1 := by
  have counting := p.watch_counting stream
  obtain ⟨lead, history, _, pointer, counted⟩ := counting.reading inside
  obtain ⟨closed, _⟩ := closed_by_terminator p stream a short inside completed
  have ended := Packet.pushIntellichlor_close ((p.watch stream).packet.store a.byte) a.env closed
  have pushed : (p.watch stream).packet.push a.env a.byte =
      ((p.watch stream).packet.store a.byte).pushIntellichlor a.env := by rw [Packet.push_eq, inside]
  rw [← pushed] at ended
  refine ⟨lead.length, ?_, ended.data.trans pointer, ended.dataLen.trans (congrArg (· + 1 - 3) counted), ?_⟩
  · rw [← List.length_append, ← history, List.length_map]
  · have after := (Packet.store_holds counting.holds counting.position a.byte).2
    rw [ended.bufferPos, after, List.length_append, List.length_map, List.length_singleton]
    omega

/-- The count of a completed IntelliChlor packet is right exactly if `data_len_` was zero
as its start sequence was read, which is so until a packet has completed, and the start
sequence is not followed at once by the terminator. -/
theorem intellichlor_counted_iff (short : stream.length + 1 ≤ 255)
    (inside : (p.watch stream).packet.state = .intellichlorState)
    (completed : ((p.watch stream).packet.push a.env a.byte).complete = true) :
    (Counted ((p.watch stream).packet.push a.env a.byte).packet ((p.watch stream).body ++ [a.byte]) ↔
      (p.watch stream).opened = 0 ∧ (p.watch stream).body ++ [a.byte] ≠ chlorEnd) ∧
    ((Packet.recognizer.scan p.reset stream).1 = none → (p.watch stream).opened = 0) := by
  obtain ⟨start, long, data, dataLen, position⟩ := completed_registers p stream a short inside completed
  have first : (UInt8.ofNat start).toNat = start := UInt8.toNat_ofNat_of_lt' (show start < 256 by omega)
  refine ⟨⟨fun right => ?_, fun ⟨zero, more⟩ => ?_⟩, fun silent => ?_⟩
  · have three := right.three
    have dataLen' := right.dataLen
    rw [List.length_append, List.length_singleton] at three dataLen'
    refine ⟨UInt8.toNat_inj.mp ?_, fun same => ?_⟩
    · have bound := (p.watch stream).opened.toNat_lt
      rw [dataLen] at dataLen'
      simp only [UInt8.toNat_sub, UInt8.toNat_add, UInt8.toNat_ofNat', UInt8.reduceToNat] at dataLen' ⊢
      omega
    · have two := congrArg List.length same
      simp only [List.length_append, chlorEnd, List.length_cons, List.length_nil] at two
      omega
  · obtain ⟨payload, k, body⟩ := before_end (closed_by_terminator p stream a short inside completed).2 more
    have three : 3 ≤ ((p.watch stream).body ++ [a.byte]).length := by
      simp only [body, List.length_append, chlorEnd, List.length_cons, List.length_nil]
      omega
    rw [List.length_append, List.length_singleton] at three
    have taken : ((p.watch stream).packet.push a.env a.byte).packet.dataLen.toNat + 3 =
        (p.watch stream).body.length + 1 := by
      rw [dataLen, zero]
      simp only [UInt8.toNat_sub, UInt8.toNat_add, UInt8.toNat_ofNat', UInt8.reduceToNat]
      omega
    refine ⟨by simpa using three, by simpa using taken, ⟨_, data, ?_⟩, fun i within => ⟨_, data, ?_⟩⟩
    · rw [first, position]
      omega
    · rw [first, bufferSize]
      omega
  · exact (opened_before_completion p stream (Prod.ext silent rfl)).2.2

end Completed

/-- A request for half of the chlorinator's output. -/
theorem intellichlor_counted_request :
    (Counted (((default : Packet).watch (arrivals default [0x10, 0x02, 0x50, 0x11, 0x32, 0xA5, 0x10])).packet.push
          default 0x03).packet [0x50, 0x11, 0x32, 0xA5, 0x10, 0x03] ↔
        (0 : UInt8) = 0 ∧ [0x50, 0x11, 0x32, 0xA5, 0x10, 0x03] ≠ chlorEnd) ∧
      ((Packet.recognizer.scan (default : Packet).reset
        (arrivals default [0x10, 0x02, 0x50, 0x11, 0x32, 0xA5, 0x10])).1 = none → (0 : UInt8) = 0) :=
  intellichlor_counted_iff default (arrivals default [0x10, 0x02, 0x50, 0x11, 0x32, 0xA5, 0x10]) ⟨default, 0x03⟩
    (by decide) (by decide +kernel) (by decide +kernel)

/-- A terminator right after the start sequence completes a packet of which two bytes were
counted. -/
theorem intellichlor_not_counted :
    ¬ ∀ (p : Packet) (stream : List Arrival) (a : Arrival), stream.length + 1 ≤ 255 →
      (p.watch stream).packet.state = .intellichlorState →
      ((p.watch stream).packet.push a.env a.byte).complete = true →
      Counted ((p.watch stream).packet.push a.env a.byte).packet ((p.watch stream).body ++ [a.byte]) := by
  intro counted
  have inside :
      ((default : Packet).watch (arrivals default [0x10, 0x02, 0x10])).packet.state = .intellichlorState := by
    decide +kernel
  have closed : (((default : Packet).watch (arrivals default [0x10, 0x02, 0x10])).packet.store 0x03).AtTerminator
      default := by
    decide +kernel
  -- the checksum over 255 bytes need not be computed for this
  have completed :
      (((default : Packet).watch (arrivals default [0x10, 0x02, 0x10])).packet.push default 0x03).complete =
        true := by
    rw [Packet.push_eq, inside]
    exact (Packet.pushIntellichlor_close _ _ closed).complete
  have right := counted default (arrivals default [0x10, 0x02, 0x10]) ⟨default, 0x03⟩ (by decide) inside completed
  exact absurd right.three (by decide +kernel)

end Pentair
