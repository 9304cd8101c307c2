import Pentair.Corruption
import Pentair.Frames
import Pentair.Sending

/-! What goes over the bus, and what everyone on it makes of it. The frames in a stream
depend on its bytes alone, so all who listen agree, unless a packet is too short for its
record or does not fit the buffer. Damaged packets are no frames, and the frames that the
monitor writes go between the others, as long as nothing has begun when it writes. -/
namespace Pentair

/-! ## The frames of a stream -/

/-- Not an IntelliChlor packet without a payload. -/
def Phase.Filled : Phase → Prop
  | .chlor body => 3 < body.length
  | _ => True

instance : DecidablePred Phase.Filled := fun phase =>
  match phase with
  | .chlor body => inferInstanceAs (Decidable (3 < body.length))
  | .preamble | .version | .destination _ | .source .. | .command .. | .length .. | .data .. | .checksum ..
  | .checksumLow .. | .intellichlor _ | .touch .. => isTrue trivial

namespace Receiver

/-- A complete packet that is the same for everyone: it fits the first window, and if it is a
frame, that frame is whole. -/
structure Legible (r : Receiver) : Prop where
  short : r.seen.length ≤ 255
  filled : r.phase.Filled
  whole : ∀ frame ∈ r.phase.frame, frame.Whole

instance (r : Receiver) : Decidable r.Legible :=
  decidable_of_iff (r.seen.length ≤ 255 ∧ r.phase.Filled ∧ ∀ frame ∈ r.phase.frame, frame.Whole)
    ⟨fun ⟨short, filled, whole⟩ => ⟨short, filled, whole⟩,
      fun legible => ⟨legible.short, legible.filled, legible.whole⟩⟩

/-- The frames in the packets that a stream completes. -/
def frames (r : Receiver) (bytes : List UInt8) : List Frame :=
  (receiver.completions r bytes).filterMap fun done => done.2.phase.frame

/-- All packets that a stream completes are legible. -/
def Reads (r : Receiver) (bytes : List UInt8) : Prop := ∀ done ∈ receiver.completions r bytes, done.2.Legible

instance (r : Receiver) (bytes : List UInt8) : Decidable (r.Reads bytes) := List.decidableBAll _ _

variable (r : Receiver) (first second : List UInt8)

theorem frames_append : r.frames (first ++ second) = r.frames first ++ (receiver.feed r first).frames second := by
  simp only [frames, Recognizer.completions_append, List.filterMap_append, List.filterMap_map, Function.comp_def]

theorem reads_append : r.Reads (first ++ second) ↔ r.Reads first ∧ (receiver.feed r first).Reads second := by
  simp only [Reads, Recognizer.completions_append, List.forall_mem_append, List.forall_mem_map]

end Receiver

/-- A call of `Push` is heard as the frame that its byte completes, if it completes one. -/
theorem heard_push {p : Packet} {r : Receiver} (tracked : Tracks p r) (watchful : r.Watchful) (a : Arrival)
    (legible : r.Reads [a.byte]) :
    List.Forall₂ Telegram.Alike (p.heard [a]) ((r.frames [a.byte]).map Frame.telegram) := by
  obtain ⟨reported, after⟩ := push_agrees a.env a.byte tracked
  cases complete : (r.step a.byte).1 with
  | false =>
    have refused : ¬ (p.push a.env a.byte).Accepted := fun accepted => by
      rw [accepted.1, complete] at reported
      cases reported
    have silent : receiver.completions r [a.byte] = [] := by simp [Recognizer.completions, receiver, complete]
    rw [Packet.heard, if_neg refused, Receiver.frames, silent]
    exact .nil
  | true =>
    rw [complete] at reported
    rw [if_pos reported] at after
    have completed : receiver.completions r [a.byte] = [(0, (r.step a.byte).2)] := by
      simp [Recognizer.completions, receiver, complete]
    obtain ⟨short, filled, whole⟩ := legible _ (completed ▸ List.mem_singleton_self _)
    have valid := after.valid_iff (watchful.step a.byte short) short fun body ended => by
      rw [ended] at filled
      exact filled
    rw [Packet.heard, Receiver.frames, completed]
    cases framed : (r.step a.byte).2.phase.frame with
    | none =>
      have refused : ¬ (p.push a.env a.byte).Accepted := fun accepted => by
        obtain ⟨frame, found⟩ := valid.mp accepted.2
        rw [framed] at found
        cases found
      rw [if_neg refused]
      simp [framed, Packet.heard]
    | some frame =>
      rw [if_pos ⟨reported, valid.mpr ⟨frame, framed⟩⟩]
      rcases found : (r.step a.byte).2 with ⟨lead, phase⟩
      rw [found] at after framed short whole
      obtain rfl := Phase.frame_iff.mp framed
      have alike := Packet.telegram_alike (whole frame framed) (after.delivered short) a.env
      simpa [framed, Packet.heard] using alike

/-- Legible packets are heard as the frames they are, whoever hears them. -/
theorem heard_frames {p : Packet} {r : Receiver} (tracked : Tracks p r) (watchful : r.Watchful)
    {stream : List Arrival} (legible : r.Reads (stream.map Arrival.byte)) :
    List.Forall₂ Telegram.Alike (p.heard stream) ((r.frames (stream.map Arrival.byte)).map Frame.telegram) := by
  induction stream generalizing p r with
  | nil => exact .nil
  | cons a rest ih =>
    have split : (a :: rest).map Arrival.byte = [a.byte] ++ rest.map Arrival.byte := rfl
    rw [split] at legible ⊢
    obtain ⟨here, later⟩ := (r.reads_append _ _).mp legible
    rw [r.frames_append, List.map_append, ← List.singleton_append, p.heard_append]
    exact List.rel_append (heard_push tracked watchful a here)
      (ih (refinement.round tracked a) (watchful.round a.byte) later)

/-- In every run whose packets are legible, what is reported are the frames in the bytes
received, and nothing else matters. -/
theorem reports_frames (before : List Iteration) (i : Iteration)
    (legible : Receiver.start.Reads ((Monitor.stream (before ++ [i])).map Arrival.byte)) :
    Reports i ((Monitor.boot.run before).loop i)
      ((Receiver.start.frames ((Monitor.stream (before ++ [i])).map Arrival.byte)).map Frame.telegram) := by
  refine Monitor.reports_of_records ?_
  rw [Monitor.run_records]
  exact Telegram.foldl_alike (heard_frames Monitor.tracks_boot Receiver.watchful_start legible) default

/-- A client asks for the readings after a damaged frame and a whole one. -/
theorem reports_frames_damaged :
    Reports (Monitor.batch statusBroadcast.bytes)
      ((Monitor.boot.run [Monitor.batch (pumpOff.front ++ [0x00])]).loop (Monitor.batch statusBroadcast.bytes))
      ((Receiver.start.frames ((Monitor.stream [Monitor.batch (pumpOff.front ++ [0x00]),
        Monitor.batch statusBroadcast.bytes]).map Arrival.byte)).map Frame.telegram) :=
  reports_frames [Monitor.batch (pumpOff.front ++ [0x00])] (Monitor.batch statusBroadcast.bytes) (by decide +kernel)

/-! ## Damaged frames -/

/-- A frame as it arrives behind noise, with perhaps one of its bytes replaced by another. -/
structure Passage where
  item : Item
  damage : Option (ℕ × UInt8)
  guarded : ∀ hit ∈ damage, item.frame.Guarded hit.1 hit.2 ∧ item.frame.bytes[hit.1]? ≠ some hit.2

namespace Passage

def bytes (self : Passage) : List UInt8 :=
  self.item.noise ++ match self.damage with
    | none => self.item.frame.bytes
    | some (i, b) => self.item.frame.bytes.set i b

/-- The frame that arrives. -/
def frame (self : Passage) : Option Frame := if self.damage = none then some self.item.frame else none

theorem length_bytes (self : Passage) : self.bytes.length = self.item.bytes.length := by
  rw [bytes, Item.bytes]
  cases self.damage <;> simp

/-- A damaged frame is a packet that is no frame, and ends where the frame would have ended. -/
private theorem damaged_scanned (item : Item) {i : ℕ} {b : UInt8} (guarded : item.frame.Guarded i b)
    (different : item.frame.bytes[i]? ≠ some b) : ∃ phase : Phase, phase.frame = none ∧ phase.Filled ∧
      receiver.scan Receiver.start (item.noise ++ item.frame.bytes.set i b) =
        (some (item.bytes.length - 1), ⟨item.noise ++ item.frame.opening, phase⟩) ∧
      phase.bytes.length = item.frame.phase.bytes.length := by
  obtain ⟨noise, frame, quiet, fits⟩ := item
  cases frame with
  | touch f =>
    simp only [Frame.bytes, TouchFrame.length_bytes] at fits different ⊢
    obtain ⟨h, payload, hi, lo, spelling, fills, long, invalid⟩ := f.altered guarded different
    have read := Receiver.scan_touch quiet (by omega) fills hi lo
    refine ⟨.touch h payload hi lo, dif_neg fun valid => invalid valid.2, trivial, ?_, ?_⟩
    · rw [spelling, ← List.append_assoc, read]
      congr 2
      simp only [Item.bytes, Frame.bytes, List.length_append, TouchFrame.length_bytes]
      omega
    · simp [Frame.phase, Phase.bytes, long]
  | chlor f =>
    simp only [Frame.bytes, ChlorFrame.length_bytes] at fits different ⊢
    obtain ⟨payload, k, spelling, closed, long, invalid⟩ := f.altered guarded different
    have nonempty := List.length_pos_iff.mpr f.nonempty
    have read := Receiver.scan_chlor quiet closed (by omega)
    have front : (payload ++ [k] ++ chlorEnd).take ((payload ++ [k] ++ chlorEnd).length - 3) = payload := by
      simp [chlorEnd]
    refine ⟨.chlor (payload ++ [k] ++ chlorEnd), dif_neg fun valid => invalid ?_, ?_, ?_, ?_⟩
    · have last := valid.2.2
      rw [front] at last
      obtain rfl : k = UInt8.ofNat (chlorSum payload) := by simpa [chlorEnd] using last
      simp
    · simp only [Phase.Filled, chlorEnd, List.length_append, List.length_cons, List.length_nil]
      omega
    · rw [spelling, ← List.append_assoc, read]
      congr 2
      simp only [Item.bytes, Frame.bytes, List.length_append, ChlorFrame.length_bytes]
      omega
    · simp [Frame.phase, Phase.bytes, long]

/-- What arrives is one packet, complete with its last byte. -/
theorem scanned (self : Passage) : ∃ done,
    receiver.scan Receiver.start self.bytes = (some (self.bytes.length - 1), done) ∧
      done.phase.frame = self.frame ∧ done.phase.Filled ∧ done.seen.length ≤ 255 := by
  rw [length_bytes]
  have long := self.item.length_seen
  rw [Receiver.seen, List.length_append] at long
  cases damage : self.damage with
  | none =>
    have whole : self.bytes = self.item.bytes := by simp [bytes, damage, Item.bytes]
    refine ⟨_, whole ▸ self.item.scanned, ?_, ?_, self.item.length_seen⟩
    · simpa [frame, damage] using Phase.frame_iff.mpr rfl
    · cases frame : self.item.frame with
      | touch f => trivial
      | chlor f =>
        have nonempty := List.length_pos_iff.mpr f.nonempty
        simp only [Frame.phase, Phase.Filled, chlorEnd, List.length_append, List.length_cons, List.length_nil]
        omega
  | some hit =>
    obtain ⟨guarded, different⟩ := self.guarded hit damage
    obtain ⟨phase, none, filled, read, same⟩ := damaged_scanned self.item guarded different
    refine ⟨_, by simpa [bytes, damage] using read, by simpa [frame, damage] using none, filled, ?_⟩
    rw [Receiver.seen, List.length_append]
    change _ + phase.bytes.length ≤ 255
    rw [same]
    exact long

/-- It is the frame that arrives, if one does, and nothing is left of it. -/
theorem read (self : Passage) (whole : ∀ frame ∈ self.frame, frame.Whole) :
    Receiver.start.frames self.bytes = self.frame.toList ∧ Receiver.start.Reads self.bytes ∧
      receiver.feed Receiver.start self.bytes = Receiver.start := by
  obtain ⟨done, found, framed, filled, short⟩ := self.scanned
  have some : 0 < self.bytes.length := Nat.lt_of_le_of_lt (Nat.zero_le _) (Recognizer.scan_index_lt found)
  have last : self.bytes.length - 1 + 1 = self.bytes.length := Nat.sub_add_cancel some
  have completed := Recognizer.completions_of_last found last
  refine ⟨?_, fun other member => ?_, (Recognizer.feed_of_last found last).1⟩
  · rw [Receiver.frames, completed, ← framed]
    cases arrived : done.phase.frame <;> simp [arrived]
  · rw [completed, List.mem_singleton] at member
    obtain rfl := member
    exact ⟨short, filled, framed ▸ whole⟩

end Passage

/-- Of frames that arrive whole or damaged, those that arrive whole are read. -/
theorem passages_read (passages : List Passage) (whole : ∀ frame ∈ passages.filterMap Passage.frame, frame.Whole)
    {tail : List UInt8} (unfinished : Unfinished tail) :
    Receiver.start.frames (passages.flatMap Passage.bytes ++ tail) = passages.filterMap Passage.frame ∧
      Receiver.start.Reads (passages.flatMap Passage.bytes ++ tail) := by
  induction passages with
  | nil =>
    obtain ⟨item, missing, some, bytes⟩ := unfinished
    have found := item.scanned
    rw [bytes] at found
    have more := List.length_pos_iff.mpr some
    have silent :=
      Recognizer.completions_of_none (Recognizer.scan_prefix_none found (by rw [List.length_append]; omega))
    rw [List.flatMap_nil, List.nil_append, Receiver.frames, Receiver.Reads, silent]
    exact ⟨rfl, List.forall_mem_nil _⟩
  | cons passage rest ih =>
    have arrives :
        (passage :: rest).filterMap Passage.frame = passage.frame.toList ++ rest.filterMap Passage.frame := by
      cases frame : passage.frame <;> simp [frame]
    rw [arrives, List.forall_mem_append] at whole
    obtain ⟨frames, reads, next⟩ := passage.read fun frame arrived => whole.1 frame (Option.mem_toList.mpr arrived)
    obtain ⟨others, later⟩ := ih whole.2
    rw [List.flatMap_cons, List.append_assoc, Receiver.frames_append, Receiver.reads_append, next, frames, others,
      arrives]
    exact ⟨rfl, reads, later⟩

/-- In every run that receives frames of which some are damaged, what is reported are the others,
as if the damaged ones had never been sent. -/
theorem reports_damaged (before : List Iteration) (i : Iteration) (passages : List Passage) (tail : List UInt8)
    (whole : ∀ frame ∈ passages.filterMap Passage.frame, frame.Whole) (unfinished : Unfinished tail)
    (bytes : (Monitor.stream (before ++ [i])).map Arrival.byte = passages.flatMap Passage.bytes ++ tail) :
    Reports i ((Monitor.boot.run before).loop i) ((passages.filterMap Passage.frame).map Frame.telegram) := by
  obtain ⟨frames, reads⟩ := passages_read passages whole unfinished
  refine Monitor.reports_of_records ?_
  rw [Monitor.run_records, ← frames, ← bytes]
  rw [← bytes] at reads
  exact Telegram.foldl_alike (heard_frames Monitor.tracks_boot Receiver.watchful_start reads) default

/-- A stop request of which one byte is damaged, and a broadcast. -/
theorem reports_damaged_pumpOff :
    Reports (Monitor.batch statusBroadcast.bytes)
      ((Monitor.boot.run [Monitor.batch (0x00 :: pumpOff.bytes.set 9 0x0A)]).loop
        (Monitor.batch statusBroadcast.bytes))
      [(Frame.touch statusBroadcast).telegram] :=
  reports_damaged [Monitor.batch (0x00 :: pumpOff.bytes.set 9 0x0A)] (Monitor.batch statusBroadcast.bytes)
    [⟨⟨[0x00], .touch pumpOff, by decide, by decide⟩, some (9, 0x0A), by
        rintro hit ⟨⟩
        exact ⟨⟨by decide, by decide, by decide⟩, by decide⟩⟩,
      ⟨⟨[], .touch statusBroadcast, by decide, by decide⟩, none, by simp⟩]
    [] (by decide) ⟨⟨[], .touch pumpOff, by decide, by decide⟩, pumpOff.bytes, by decide, rfl⟩ (by decide)

/-! ## Writes -/

/-- The last byte of a batch completes a packet. -/
def EndsPacket (p : Packet) (batch : List Arrival) : Prop :=
  batch.length ∈ (Packet.recognizer.completions p batch).map fun done => done.1 + 1

instance (p : Packet) (batch : List Arrival) : Decidable (EndsPacket p batch) := inferInstanceAs (Decidable (_ ∈ _))

theorem EndsPacket.restarts {p : Packet} {r : Receiver} (tracked : Tracks p r) {batch : List Arrival}
    (ends : EndsPacket p batch) : receiver.feed r (batch.map Arrival.byte) = Receiver.start := by
  have same := List.forall₂_map_left_iff.mpr (List.forall₂_map_right_iff.mpr
    ((refinement.completions tracked batch).imp fun here there pair => congrArg (· + 1) pair.1))
  rw [List.forall₂_eq_eq_eq] at same
  rw [EndsPacket, same, ← List.length_map (f := Arrival.byte), List.mem_map] at ends
  obtain ⟨⟨k, done⟩, member, last⟩ := ends
  rcases List.eq_nil_or_concat (batch.map Arrival.byte) with none | ⟨front, c, spelled⟩
  · rw [none] at last
    cases last
  · rw [spelled, List.concat_eq_append, List.length_append, List.length_singleton, Nat.add_right_cancel_iff] at last
    obtain rfl : k = front.length := last
    rw [spelled, List.concat_eq_append] at member ⊢
    have completed := Recognizer.mem_completions_last.mp member
    rw [Recognizer.feed_append]
    exact Recognizer.round_of_complete (congrArg Prod.fst completed)

namespace Monitor

/-- The bytes on the bus in a run: those received, and those written. -/
def bus (self : Monitor) : List Iteration → List UInt8
  | [] => []
  | i :: rest => i.received.map Arrival.byte ++ (self.loop i).written.getD [] ++ (self.loop i).monitor.bus rest

/-- What is written is written right behind a packet. -/
def Spaced (self : Monitor) : List Iteration → Prop
  | [] => True
  | i :: rest =>
    ((self.loop i).written ≠ none → EndsPacket self.packet i.received) ∧ (self.loop i).monitor.Spaced rest

instance Spaced.decidable (self : Monitor) : (iterations : List Iteration) → Decidable (self.Spaced iterations)
  | [] => isTrue trivial
  | i :: rest => @instDecidableAnd _ _ inferInstance (Spaced.decidable (self.loop i).monitor rest)

/-- The frames on the bus in a run: those in the bytes received, each batch from where the last
one left off, and behind those of an iteration the request that it writes. -/
def talk (self : Monitor) (r : Receiver) : List Iteration → List Frame
  | [] => []
  | i :: rest =>
    r.frames (i.received.map Arrival.byte) ++
      (if (self.loop i).written = none then [] else [.touch circuitNameRequest]) ++
      (self.loop i).monitor.talk (receiver.feed r (i.received.map Arrival.byte)) rest

/-- The request as it goes over the bus. -/
def requestPassage : Passage := ⟨⟨[], .touch circuitNameRequest, by decide, by decide⟩, none, by simp⟩

/-- An iteration writes nothing, or the request for the name of a circuit. -/
theorem loop_writes (self : Monitor) (i : Iteration) :
    (self.loop i).written = none ∨ (self.loop i).written = some circuitNameRequest.bytes := by
  rw [loop_written, transmit_eq]
  split_ifs
  · exact .inr rfl
  · exact .inl rfl

/-- On the bus the frames that are written stand between those received, and everyone is where
the monitor is. -/
theorem bus_read (self : Monitor) {r : Receiver} (tracked : Tracks self.packet r) (iterations : List Iteration)
    (spaced : self.Spaced iterations) (reads : r.Reads ((stream iterations).map Arrival.byte)) :
    r.frames (self.bus iterations) = self.talk r iterations ∧ r.Reads (self.bus iterations) := by
  induction iterations generalizing self r with
  | nil => exact ⟨rfl, reads⟩
  | cons i rest ih =>
    rw [stream, List.flatMap_cons, List.map_append, Receiver.reads_append] at reads
    have onward : Tracks (self.loop i).monitor.packet (receiver.feed r (i.received.map Arrival.byte)) := by
      rw [loop_packet]
      exact refinement.feed tracked i.received
    obtain ⟨frames, later⟩ := ih (self.loop i).monitor onward spaced.2 reads.2
    rcases self.loop_writes i with none | written
    · rw [bus, talk, none, if_pos rfl, Option.getD_none, List.append_nil, List.append_nil, Receiver.frames_append,
        Receiver.reads_append, frames]
      exact ⟨rfl, reads.1, later⟩
    · -- the packet before the request has left everyone at the start of the hunt
      have fresh := (spaced.1 (by rw [written]; exact Option.some_ne_none _)).restarts tracked
      obtain ⟨request, legible, next⟩ := requestPassage.read (by decide)
      rw [fresh] at frames later
      rw [bus, talk, written, if_neg (Option.some_ne_none _), Option.getD_some, List.append_assoc,
        Receiver.frames_append, Receiver.reads_append, fresh, Receiver.frames_append, Receiver.reads_append]
      have bytes : requestPassage.bytes = circuitNameRequest.bytes := rfl
      rw [bytes] at request legible next
      rw [request, next, frames]
      exact ⟨by rw [List.append_assoc]; rfl, reads.1, legible, later⟩

/-- Apart from what no record is about, the frames on the bus are those received. -/
theorem talk_known (self : Monitor) (r : Receiver) (iterations : List Iteration) :
    (self.talk r iterations).filter (·.kind ≠ .unknown) =
      (r.frames ((stream iterations).map Arrival.byte)).filter (·.kind ≠ .unknown) := by
  induction iterations generalizing self r with
  | nil => rfl
  | cons i rest ih =>
    have unknown : (if (self.loop i).written = none then [] else [Frame.touch circuitNameRequest]).filter
        (·.kind ≠ .unknown) = [] := by
      split_ifs <;> rfl
    rw [talk, stream, List.flatMap_cons, List.map_append, Receiver.frames_append, List.filter_append,
      List.filter_append, List.filter_append, unknown, List.append_nil, ih]
    rfl

end Monitor

/-- In every run whose packets are legible and in which the monitor writes only right behind
them, a device that listens to all that is on the bus hears the frames that the monitor
receives, and the requests of the monitor in between, and it ends up with the same records. -/
theorem bus_heard (iterations : List Iteration)
    (legible : Receiver.start.Reads ((Monitor.stream iterations).map Arrival.byte))
    (spaced : Monitor.boot.Spaced iterations) (heard : List Arrival)
    (bytes : heard.map Arrival.byte = Monitor.boot.bus iterations) :
    List.Forall₂ Telegram.Alike (Monitor.boot.packet.heard heard)
        ((Monitor.boot.talk Receiver.start iterations).map Frame.telegram) ∧
      (Packet.recognizer.feed Monitor.boot.packet heard).records = (Monitor.boot.run iterations).packet.records := by
  obtain ⟨frames, reads⟩ := Monitor.boot.bus_read Monitor.tracks_boot iterations spaced legible
  rw [← bytes] at frames reads
  have alike := heard_frames Monitor.tracks_boot Receiver.watchful_start reads
  rw [frames] at alike
  refine ⟨alike, ?_⟩
  have known := Monitor.boot.talk_known Receiver.start iterations
  rw [Packet.feed_records Monitor.tracks_boot, Monitor.run_records,
    Telegram.foldl_alike (heard_frames Monitor.tracks_boot Receiver.watchful_start legible)]
  refine (Telegram.foldl_alike alike _).trans (Telegram.foldl_interleaved fun kind other => ?_)
  have narrowed : ∀ frames : List Frame,
      frames.filter (·.kind = kind) = (frames.filter (·.kind ≠ .unknown)).filter (·.kind = kind) := by
    intro frames
    rw [List.filter_filter]
    refine List.filter_congr fun frame _ => ?_
    by_cases same : frame.kind = kind <;> simp [same, other]
  rw [narrowed, known, ← narrowed]

/-- A request is written between a broadcast and a frame for a pump. -/
theorem bus_heard_request :
    List.Forall₂ Telegram.Alike
        (Monitor.boot.packet.heard (arrivals default (Monitor.boot.bus
          [Monitor.sendRequest, Monitor.batch statusBroadcast.bytes, Monitor.batch pumpOff.bytes])))
        ((Monitor.boot.talk Receiver.start
            [Monitor.sendRequest, Monitor.batch statusBroadcast.bytes, Monitor.batch pumpOff.bytes]).map
          Frame.telegram) ∧
      (Packet.recognizer.feed Monitor.boot.packet (arrivals default (Monitor.boot.bus
          [Monitor.sendRequest, Monitor.batch statusBroadcast.bytes, Monitor.batch pumpOff.bytes]))).records =
        (Monitor.boot.run
          [Monitor.sendRequest, Monitor.batch statusBroadcast.bytes, Monitor.batch pumpOff.bytes]).packet.records :=
  bus_heard [Monitor.sendRequest, Monitor.batch statusBroadcast.bytes, Monitor.batch pumpOff.bytes]
    (by decide +kernel) (by decide +kernel) _ (arrivals_bytes _ _)

end Pentair
