import Pentair.Forgetting
import Pentair.Library.Register
import Pentair.Monitor

/-! What the monitor reports. The records are ten registers that the packets on the bus
overwrite, one each, and the cloud properties and the answers to clients are read off
them. So whatever the batches in which bytes are received, and whatever clients ask and
writes happen in between, what is reported is what the last packet of each kind said. -/
namespace Pentair

/-! ## Records by kind -/

/-- What the record of a kind holds. -/
def Command.Record : Command → Type
  | .unknown => Unit
  | .systemStatus => SystemStatus
  | .pumpStatusRequest => PumpStatusRequest
  | .pumpStatusResponse => PumpStatusResponse
  | .pumpControlRequest => PumpControlRequest
  | .pumpControlResponse => PumpControlResponse
  | .scheduleConfig => ScheduleConfig
  | .timeSettings => TimeSettings
  | .heatStatus => HeatStatus
  | .chlorinatorRequest => ChlorinatorRequest
  | .chlorinatorResponse => ChlorinatorResponse

def Records.record (self : Records) : (kind : Command) → kind.Record
  | .unknown => ()
  | .systemStatus => self.systemStatus
  | .pumpStatusRequest => self.pumpStatusRequest
  | .pumpStatusResponse => self.pumpStatusResponse
  | .pumpControlRequest => self.pumpControlRequest
  | .pumpControlResponse => self.pumpControlResponse
  | .scheduleConfig => self.scheduleConfig
  | .timeSettings => self.timeSettings
  | .heatStatus => self.heatStatus
  | .chlorinatorRequest => self.chlorinatorRequest
  | .chlorinatorResponse => self.chlorinatorResponse

/-- The record of a kind that a payload is decoded into. -/
def Command.decode (kind : Command) (memory : ℕ → UInt8) : kind.Record :=
  ((kind.read default).run memory).1.record kind

theorem Command.read_record (kind : Command) (records : Records) (memory : ℕ → UInt8) :
    ((kind.read records).run memory).1.record kind = kind.decode memory := by
  cases kind <;> rfl

theorem Command.read_other {kind other : Command} (differ : kind ≠ other) (records : Records) (memory : ℕ → UInt8) :
    ((kind.read records).run memory).1.record other = records.record other := by
  have changed := kind.read_changes records memory
  cases other with
  | unknown => rfl
  | systemStatus => exact changed.systemStatus differ
  | pumpStatusRequest => exact changed.pumpStatusRequest differ
  | pumpStatusResponse => exact changed.pumpStatusResponse differ
  | pumpControlRequest => exact changed.pumpControlRequest differ
  | pumpControlResponse => exact changed.pumpControlResponse differ
  | scheduleConfig => exact changed.scheduleConfig differ
  | timeSettings => exact changed.timeSettings differ
  | heatStatus => exact changed.heatStatus differ
  | chlorinatorRequest => exact changed.chlorinatorRequest differ
  | chlorinatorResponse => exact changed.chlorinatorResponse differ

/-! ## Telegrams -/

/-- What a decoder makes of a packet or a frame: the record it belongs to, and the payload
as it is found. -/
structure Telegram where
  kind : Command
  memory : ℕ → UInt8

namespace Telegram

def update (records : Records) (self : Telegram) : Records := ((self.kind.read records).run self.memory).1

/-- The record of one kind, written by the telegrams of that kind. -/
def register (kind : Command) : Register update kind.Record where
  view records := records.record kind
  writes telegram := telegram.kind = kind
  content telegram := kind.decode telegram.memory
  written records telegram writes := by
    obtain rfl : telegram.kind = kind := of_decide_eq_true writes
    exact telegram.kind.read_record records telegram.memory
  kept records _ other := Command.read_other (of_decide_eq_false other) records _

/-- What the last telegram of a kind says, if there was one. -/
def latest (kind : Command) (telegrams : List Telegram) : kind.Record :=
  (register kind).after ((default : Records).record kind) telegrams

/-- Two telegrams that say the same. -/
structure Alike (first second : Telegram) : Prop where
  kind : first.kind = second.kind
  memory : ∀ k < first.kind.layout, first.memory k = second.memory k

theorem Alike.update {first second : Telegram} (alike : Alike first second) (records : Records) :
    first.update records = second.update records := by
  obtain ⟨kind, memory⟩ := first
  obtain ⟨other, found⟩ := second
  obtain rfl : kind = other := alike.kind
  exact decoded_congr alike.memory

theorem foldl_alike {first second : List Telegram} (alike : List.Forall₂ Alike first second) (records : Records) :
    first.foldl Telegram.update records = second.foldl Telegram.update records := by
  induction alike generalizing records with
  | nil => rfl
  | cons head tail ih => rw [List.foldl_cons, List.foldl_cons, head.update, ih]

end Telegram

def Packet.telegram (self : Packet) (env : Env) : Telegram := ⟨self.selection env, self.dataAt env⟩

/-- The valid packets that a stream completes, in order. -/
def Packet.heard (p : Packet) : List Arrival → List Telegram
  | [] => []
  | a :: rest =>
    (if (p.push a.env a.byte).Accepted then [(p.push a.env a.byte).packet.telegram a.env] else []) ++
      (Packet.recognizer.round p a).heard rest

namespace Packet
variable {p q : Packet} {r : Receiver}

theorem heard_append (p : Packet) (first second : List Arrival) :
    p.heard (first ++ second) = p.heard first ++ (Packet.recognizer.feed p first).heard second := by
  induction first generalizing p with
  | nil => rfl
  | cons a rest ih => rw [List.cons_append, heard, heard, ih, List.append_assoc, Recognizer.feed_cons]

/-- Bytes that complete nothing are not heard. -/
theorem heard_of_none {stream : List Arrival} (silent : (Packet.recognizer.scan p stream).1 = none) :
    p.heard stream = [] := by
  induction stream generalizing p with
  | nil => rfl
  | cons a rest ih =>
    obtain ⟨incomplete, later⟩ := Recognizer.scan_cons_none.mp (Prod.ext silent rfl)
    have refused : ¬ (p.push a.env a.byte).Accepted := fun accepted => by
      have complete : (Packet.recognizer.step p a).1 = true := accepted.1
      rw [incomplete] at complete
      cases complete
    rw [heard, if_neg refused, List.nil_append, Recognizer.round_of_incomplete incomplete]
    exact ih (congrArg Prod.fst later)

/-- A stream that completes a valid packet with its last byte is heard as that packet. -/
theorem heard_of_last {stream : List Arrival} {k : ℕ} (found : Packet.recognizer.scan p stream = (some k, q))
    (last : k + 1 = stream.length) (valid : q.valid = true) : ∃ env, p.heard stream = [q.telegram env] := by
  obtain ⟨before, a, rest, u, rfl, rfl, silent, completed⟩ := Recognizer.scan_some_split found
  obtain rfl : rest = [] := by
    rw [List.length_append, List.length_cons] at last
    exact List.eq_nil_of_length_eq_zero (by omega)
  have packet : (u.push a.env a.byte).packet = q := congrArg Prod.snd completed
  have accepted : (u.push a.env a.byte).Accepted := ⟨congrArg Prod.fst completed, by rw [packet]; exact valid⟩
  refine ⟨a.env, ?_⟩
  rw [heard_append, heard_of_none (congrArg Prod.fst silent), (Recognizer.feed_of_none silent).1, heard,
    if_pos accepted, packet]
  rfl

/-- The records after a stream are updated by every packet heard, and by nothing else. -/
theorem feed_records (tracked : Tracks p r) (stream : List Arrival) :
    (Packet.recognizer.feed p stream).records = (p.heard stream).foldl Telegram.update p.records := by
  induction stream generalizing p r with
  | nil => rfl
  | cons a rest ih =>
    have pushed := p.push_records a.env a.byte tracked.command
    have round : (Packet.recognizer.round p a).records = (p.push a.env a.byte).packet.records := by
      cases reported : (Packet.recognizer.step p a).1 with
      | true =>
        rw [Recognizer.round_of_complete reported]
        rfl
      | false =>
        rw [Recognizer.round_of_incomplete reported]
        rfl
    rw [Recognizer.feed_cons, ih (refinement.round tracked a), heard, List.foldl_append, round, pushed]
    split_ifs <;> rfl

end Packet

/-- A new packet is at the start of its hunt. -/
theorem tracks_construct (memory : Packet) : Tracks memory.construct Receiver.start where
  sound := Receiver.sound_start
  reading := id
  holds := Ring.holds_nil _
  position := rfl
  registers := rfl
  pointer := fun n located => by simp [Receiver.start, Phase.payloadOffset] at located
  firstChecksum := fun hi read => by simp [Receiver.start, Phase.firstChecksum] at read
  command := rfl

/-! ## Runs of the monitor -/

namespace Monitor

/-- The bytes received in a run. -/
def stream (iterations : List Iteration) : List Arrival := iterations.flatMap Iteration.received

theorem receive_packet (self : Monitor × Bool) (a : Arrival) :
    (receive self a).1.packet = Packet.recognizer.round self.1.packet a := by
  obtain ⟨monitor, sendReady⟩ := self
  cases complete : (monitor.packet.push a.env a.byte).complete with
  | false => simp [receive, Recognizer.round, Packet.recognizer, complete]
  | true =>
    cases valid : (monitor.packet.push a.env a.byte).packet.valid <;>
      simp [receive, Recognizer.round, Packet.recognizer, complete, valid]

theorem foldl_receive_packet (self : Monitor × Bool) (batch : List Arrival) :
    (batch.foldl receive self).1.packet = Packet.recognizer.feed self.1.packet batch := by
  induction batch generalizing self with
  | nil => rfl
  | cons a rest ih => rw [List.foldl_cons, ih, receive_packet, Recognizer.feed_cons]

/-- Neither a write nor a client touches what was received. -/
structure Kept (before after : Monitor) : Prop where
  packet : after.packet = before.packet
  cloud : after.cloud = before.cloud

theorem transmit_kept (self : Monitor) (sendReady : Bool) (i : Iteration) :
    Kept self (self.transmit sendReady i).1 := by
  unfold transmit
  split
  · dsimp only
    split <;> exact ⟨rfl, rfl⟩
  · exact ⟨rfl, rfl⟩

theorem serveClient_kept (self : Monitor) (client : Client) : Kept self (self.serveClient client).1 := by
  cases client with
  | timedOut => exact ⟨rfl, rfl⟩
  | request line =>
    unfold serveClient
    dsimp only
    split_ifs <;> exact ⟨rfl, rfl⟩

/-- An iteration leaves what it received. -/
theorem loop_kept (self : Monitor) (i : Iteration) :
    Kept (i.received.foldl receive (self, false)).1 (self.loop i).monitor := by
  unfold loop
  dsimp only
  have transmitted := transmit_kept (i.received.foldl receive (self, false)).1
    (i.received.foldl receive (self, false)).2 i
  cases i.client with
  | none => exact transmitted
  | some client =>
    have served := serveClient_kept ((i.received.foldl receive (self, false)).1.transmit
      (i.received.foldl receive (self, false)).2 i).1 client
    exact ⟨served.packet.trans transmitted.packet, served.cloud.trans transmitted.cloud⟩

theorem loop_packet (self : Monitor) (i : Iteration) :
    (self.loop i).monitor.packet = Packet.recognizer.feed self.packet i.received :=
  (self.loop_kept i).packet.trans (foldl_receive_packet _ _)

/-- The parser of a run is where the bytes received lead it, however they were batched. -/
theorem run_packet (self : Monitor) (iterations : List Iteration) :
    (self.run iterations).packet = Packet.recognizer.feed self.packet (stream iterations) := by
  induction iterations generalizing self with
  | nil => rfl
  | cons i rest ih =>
    rw [stream, List.flatMap_cons, Recognizer.feed_append, ← loop_packet]
    exact ih (self.loop i).monitor

/-- The cloud shows the records. -/
def Shows (self : Monitor) : Prop := self.cloud = updateArduinoCloud self.packet.records

theorem shows_boot : boot.Shows := rfl

theorem receive_shows {self : Monitor × Bool} {r : Receiver} (tracked : Tracks self.1.packet r)
    (shows : self.1.Shows) (a : Arrival) : (receive self a).1.Shows := by
  obtain ⟨monitor, sendReady⟩ := self
  have records := monitor.packet.push_records a.env a.byte tracked.command
  cases complete : (monitor.packet.push a.env a.byte).complete with
  | false =>
    rw [if_neg (fun accepted => by simp [accepted.1] at complete)] at records
    simpa [receive, complete, Shows, records] using shows
  | true =>
    cases valid : (monitor.packet.push a.env a.byte).packet.valid with
    | false =>
      rw [if_neg (fun accepted => by simp [accepted.2] at valid)] at records
      simpa [receive, complete, valid, Shows, Packet.reset, records] using shows
    | true => simp [receive, complete, valid, Shows, Packet.reset]

theorem foldl_receive_shows {self : Monitor × Bool} {r : Receiver} (tracked : Tracks self.1.packet r)
    (shows : self.1.Shows) (batch : List Arrival) : (batch.foldl receive self).1.Shows := by
  induction batch generalizing self r with
  | nil => exact shows
  | cons a rest ih =>
    refine ih (r := receiver.round r a.byte) ?_ (receive_shows tracked shows a)
    rw [receive_packet]
    exact refinement.round tracked a

theorem tracks_boot : Tracks boot.packet Receiver.start := tracks_construct default

theorem run_tracks (iterations : List Iteration) : ∃ r, Tracks (boot.run iterations).packet r := by
  rw [run_packet]
  exact ⟨_, refinement.feed tracks_boot _⟩

/-- In every state of a run the cloud shows the records. -/
theorem run_shows (iterations : List Iteration) : (boot.run iterations).Shows := by
  induction iterations using List.reverseRecOn with
  | nil => exact shows_boot
  | append_singleton before i ih =>
    obtain ⟨r, tracked⟩ := run_tracks before
    have kept := (boot.run before).loop_kept i
    have last : boot.run (before ++ [i]) = ((boot.run before).loop i).monitor := List.foldl_concat ..
    rw [last, Shows, kept.cloud, kept.packet]
    exact foldl_receive_shows tracked ih i.received

end Monitor

/-! ## Frames -/

namespace Frame

def payload : Frame → List UInt8
  | .touch f => f.payload
  | .chlor f => f.payload

/-- The record that a frame is about. -/
def kind : Frame → Command
  | .touch f => selection f.command f.source (f.payload.headD 0)
  | .chlor f => if f.payload.head? = some 0x50 then .chlorinatorRequest else .chlorinatorResponse

def telegram (self : Frame) : Telegram := ⟨self.kind, fun k => self.payload.getD k 0⟩

/-- The payload is as long as the layout of the record it is about. -/
def Whole (self : Frame) : Prop := self.kind.layout ≤ self.payload.length

instance (self : Frame) : Decidable self.Whole := inferInstanceAs (Decidable (_ ≤ _))

theorem delivery_valid (self : Frame) (position : ℕ) : (self.delivery position).valid = true := by
  cases self with
  | touch f => rfl
  | chlor f =>
    simp only [delivery]
    split_ifs <;> rfl

theorem delivery_payload (self : Frame) (position : ℕ) : (self.delivery position).payload = self.payload := by
  cases self with
  | touch f => rfl
  | chlor f =>
    simp only [delivery]
    split_ifs <;> rfl

/-- What a whole frame is delivered as selects the record it is about. -/
theorem delivery_kind {self : Frame} (whole : self.Whole) (position : ℕ) {first : UInt8}
    (head : ∀ b, self.payload.head? = some b → first = b) :
    selection (self.delivery position).cid (self.delivery position).source first = self.kind := by
  cases self with
  | touch f =>
    have command : ((Frame.touch f).delivery position).cid = f.command := rfl
    have source : ((Frame.touch f).delivery position).source = f.source := rfl
    rw [command, source]
    cases bytes : f.payload with
    | nil =>
      have none : (selection f.command f.source (f.payload.headD 0)).layout ≤ f.payload.length := whole
      rw [bytes] at none
      simp only [kind, bytes]
      exact selection_of_layout_lt (Nat.lt_of_le_of_lt none (by decide)) first
    | cons b rest =>
      obtain rfl := head b (by simp [payload, bytes])
      simp [kind, bytes]
  | chlor f =>
    have command : ((Frame.chlor f).delivery position).cid = commandChlorinator := by
      simp only [delivery]
      split_ifs <;> rfl
    obtain ⟨b, rest, bytes⟩ := List.exists_cons_of_ne_nil f.nonempty
    obtain rfl := head b (by simp [payload, bytes])
    rw [command]
    simp [kind, bytes, selection, commandChlorinator, commandSystemStatus, commandPumpStatus, commandPumpControl]

end Frame

/-- A packet that is delivered as a whole frame says what the frame says. -/
theorem Packet.telegram_alike {q : Packet} {frame : Frame} (whole : frame.Whole)
    (exposed : ∀ view position, q.delivery view position = frame.delivery position) (env : Env) :
    Telegram.Alike (q.telegram env) frame.telegram := by
  have delivered := exposed env 0
  have payload : q.payload env = frame.payload :=
    (congrArg Delivery.payload delivered).trans (frame.delivery_payload 0)
  have cells : ∀ k < frame.payload.length, q.dataAt env k = frame.payload.getD k 0 := by
    intro k within
    rw [← payload] at within ⊢
    simp [Packet.payload] at within ⊢
    simp [within]
  have cid : q.cid = (frame.delivery 0).cid := congrArg Delivery.cid delivered
  have source : q.source = (frame.delivery 0).source := congrArg Delivery.source delivered
  have kind : q.selection env = frame.kind := by
    rw [Packet.selection, cid, source]
    refine Frame.delivery_kind whole 0 fun b head => ?_
    obtain ⟨rest, bytes⟩ := List.head?_eq_some_iff.mp head
    rw [cells 0 (by simp [bytes]), bytes]
    rfl
  refine ⟨kind, fun k below => ?_⟩
  have inside : k < frame.kind.layout := by
    rw [← kind]
    exact below
  exact cells k (inside.trans_le whole)

/-- Any bytes arrive in some surroundings. -/
theorem arrivals_surjective (stream : List Arrival) :
    ∃ env, stream = arrivals env (stream.map Arrival.byte) := by
  refine ⟨fun i => (stream[i]?.map Arrival.env).getD default, List.ext_getElem (by simp) fun i within _ => ?_⟩
  simp [arrivals, within]

/-- A whole frame after its noise is heard as what it says. -/
theorem item_heard {p : Packet} (tracked : Tracks p Receiver.start) (item : Item) (whole : item.frame.Whole)
    {stream : List Arrival} (bytes : stream.map Arrival.byte = item.bytes) :
    (∃ telegram, p.heard stream = [telegram] ∧ Telegram.Alike telegram item.frame.telegram) ∧
      Tracks (Packet.recognizer.feed p stream) Receiver.start := by
  obtain ⟨env, arrived⟩ := arrivals_surjective stream
  rw [bytes] at arrived
  obtain ⟨k, q, found, last, exposed⟩ := item_delivered tracked item env
  rw [← arrived] at found
  have ended : k + 1 = stream.length := by rw [last, ← bytes, List.length_map]
  have valid : q.valid = true := (congrArg Delivery.valid (exposed default 0)).trans (item.frame.delivery_valid 0)
  obtain ⟨env', heard⟩ := Packet.heard_of_last found ended valid
  rw [heard, (Recognizer.feed_of_last found ended).1]
  exact ⟨⟨_, rfl, Packet.telegram_alike whole exposed env'⟩, tracks_reset q⟩

/-- What is received so far of a next frame and the noise before it. -/
def Unfinished (tail : List UInt8) : Prop := ∃ item : Item, ∃ missing, missing ≠ [] ∧ item.bytes = tail ++ missing

theorem unfinished_silent {p : Packet} (tracked : Tracks p Receiver.start) {stream : List Arrival}
    (unfinished : Unfinished (stream.map Arrival.byte)) : (Packet.recognizer.scan p stream).1 = none := by
  obtain ⟨item, missing, some, bytes⟩ := unfinished
  obtain ⟨env, arrived⟩ := arrivals_surjective stream
  obtain ⟨k, q, found, last, _⟩ := item_delivered tracked item env
  rw [bytes, arrivals_append, ← arrived] at found
  have early : stream.length ≤ k := by
    have more := List.length_pos_iff.mpr some
    rw [bytes, List.length_append, List.length_map] at last
    omega
  exact Recognizer.scan_prefix_none found early

/-- Whole frames among noise are heard one by one, as what they say. -/
theorem items_heard {p : Packet} (tracked : Tracks p Receiver.start) (items : List Item)
    (whole : ∀ item ∈ items, item.frame.Whole) {tail : List UInt8} (unfinished : Unfinished tail)
    {stream : List Arrival} (bytes : stream.map Arrival.byte = items.flatMap Item.bytes ++ tail) :
    List.Forall₂ Telegram.Alike (p.heard stream) (items.map fun item => item.frame.telegram) := by
  induction items generalizing p stream with
  | nil =>
    rw [Packet.heard_of_none (unfinished_silent tracked (by rw [bytes]; exact unfinished))]
    exact .nil
  | cons item rest ih =>
    rw [List.flatMap_cons, List.append_assoc] at bytes
    obtain ⟨first, later, rfl, here, there⟩ := List.map_eq_append_iff.mp bytes
    obtain ⟨⟨telegram, heard, alike⟩, next⟩ := item_heard tracked item (whole item List.mem_cons_self) here
    rw [Packet.heard_append, heard, List.singleton_append, List.map_cons]
    exact .cons alike (ih next (fun item later => whole item (List.mem_cons_of_mem _ later)) there)

/-! ## What is reported -/

/-- What an iteration leaves in the records and in the cloud, and what it answers, is the
latest of the telegrams of each kind. -/
structure Reports (i : Iteration) (outcome : Monitor.Outcome) (telegrams : List Telegram) : Prop where
  record : ∀ kind, outcome.monitor.packet.records.record kind = Telegram.latest kind telegrams
  cloud : outcome.monitor.cloud = Monitor.updateArduinoCloud outcome.monitor.packet.records
  metrics : ∀ line, i.client = some (.request line) → "GET /metrics".toList <+: line →
    outcome.response = some (Monitor.exportMetrics outcome.monitor.packet.records)
  csv : ∀ line, i.client = some (.request line) → "GET /csv".toList <+: line →
    outcome.response = some (Monitor.exportCSV outcome.monitor.packet.records)

namespace Monitor

/-- The answer to a client that sent a request line. -/
theorem loop_response (self : Monitor) (i : Iteration) {line : List Char} (client : i.client = some (.request line)) :
    (self.loop i).response =
      if "GET /metrics".toList.isPrefixOf line then some (exportMetrics (self.loop i).monitor.packet.records)
      else if "GET /csv".toList.isPrefixOf line then some (exportCSV (self.loop i).monitor.packet.records)
      else if "GET /send".toList.isPrefixOf line then some "HTTP/1.1 200 OK\n"
      else some "HTTP/1.1 404 Not Found\n" := by
  unfold loop
  simp only [client, serveClient]
  split_ifs <;> rfl

theorem run_concat (self : Monitor) (before : List Iteration) (i : Iteration) :
    self.run (before ++ [i]) = ((self.run before).loop i).monitor := List.foldl_concat ..

/-- Whatever was received, the records are those of the telegrams heard. -/
theorem run_records (iterations : List Iteration) :
    (boot.run iterations).packet.records = (boot.packet.heard (stream iterations)).foldl Telegram.update default := by
  rw [run_packet, Packet.feed_records tracks_boot]
  rfl

theorem reports_of_records {before : List Iteration} {i : Iteration} {telegrams : List Telegram}
    (records : (boot.run (before ++ [i])).packet.records = telegrams.foldl Telegram.update default) :
    Reports i ((boot.run before).loop i) telegrams := by
  have shows := run_shows (before ++ [i])
  rw [Shows, run_concat] at shows
  rw [run_concat] at records
  refine ⟨fun kind => ?_, shows, fun line client asked => ?_, fun line client asked => ?_⟩
  · rw [records]
    exact (Telegram.register kind).view_run default telegrams
  · rw [loop_response _ i client, if_pos (List.isPrefixOf_iff_prefix.mpr asked)]
  · have other : ¬ "GET /metrics".toList.isPrefixOf line = true := by
      obtain ⟨rest, rfl⟩ := asked
      exact Bool.not_eq_true _ ▸ rfl
    rw [loop_response _ i client, if_neg other, if_pos (List.isPrefixOf_iff_prefix.mpr asked)]

end Monitor

/-- In every run, on any bytes, what is reported is what the last valid packet of each kind
said. -/
theorem reports_heard (before : List Iteration) (i : Iteration) :
    Reports i ((Monitor.boot.run before).loop i) (Monitor.boot.packet.heard (Monitor.stream (before ++ [i]))) :=
  Monitor.reports_of_records (Monitor.run_records _)

/-- What a run receives is whole frames among noise, and perhaps a part of a next one. -/
def Carries (iterations : List Iteration) (frames : List Frame) : Prop :=
  ∃ (items : List Item) (tail : List UInt8), frames = items.map Item.frame ∧ (∀ item ∈ items, item.frame.Whole) ∧
    Unfinished tail ∧ (Monitor.stream iterations).map Arrival.byte = items.flatMap Item.bytes ++ tail

theorem Carries.records {iterations : List Iteration} {frames : List Frame} (carried : Carries iterations frames) :
    (Monitor.boot.run iterations).packet.records = (frames.map Frame.telegram).foldl Telegram.update default := by
  obtain ⟨items, tail, rfl, whole, unfinished, bytes⟩ := carried
  rw [Monitor.run_records, List.map_map]
  exact Telegram.foldl_alike (items_heard Monitor.tracks_boot items whole unfinished bytes) default

/-- In every run that receives whole frames among noise, however they are batched and whatever
clients ask and is written in between, what is reported is the last frame of each kind. -/
theorem reports_latest (before : List Iteration) (i : Iteration) (frames : List Frame)
    (carried : Carries (before ++ [i]) frames) :
    Reports i ((Monitor.boot.run before).loop i) (frames.map Frame.telegram) :=
  Monitor.reports_of_records carried.records

/-- A client asks for the readings while the second of two frames is still coming in. -/
theorem reports_latest_unfinished :
    Reports { Monitor.batch (statusBroadcast.bytes.drop 20 ++ pumpOff.bytes.take 5) with
        client := some (.request "GET /csv HTTP/1.1".toList) }
      ((Monitor.boot.run [Monitor.sendRequest, Monitor.batch (0x00 :: statusBroadcast.bytes.take 20)]).loop
        { Monitor.batch (statusBroadcast.bytes.drop 20 ++ pumpOff.bytes.take 5) with
          client := some (.request "GET /csv HTTP/1.1".toList) })
      [(Frame.touch statusBroadcast).telegram] :=
  reports_latest _ _ [.touch statusBroadcast]
    ⟨[⟨[0x00], .touch statusBroadcast, by decide, by decide⟩], pumpOff.bytes.take 5, rfl, by decide,
      ⟨⟨[], .touch pumpOff, by decide, by decide⟩, pumpOff.bytes.drop 5, by decide, by decide⟩, by decide⟩

theorem Records.ext_record {first second : Records} (same : ∀ kind, first.record kind = second.record kind) :
    first = second := by
  obtain ⟨_, _, _, _, _, _, _, _, _, _⟩ := first
  obtain ⟨_, _, _, _, _, _, _, _, _, _⟩ := second
  obtain rfl := same .systemStatus
  obtain rfl := same .pumpStatusRequest
  obtain rfl := same .pumpStatusResponse
  obtain rfl := same .pumpControlRequest
  obtain rfl := same .pumpControlResponse
  obtain rfl := same .scheduleConfig
  obtain rfl := same .timeSettings
  obtain rfl := same .heatStatus
  obtain rfl := same .chlorinatorRequest
  obtain rfl := same .chlorinatorResponse
  rfl

/-- Only the order of the frames within each kind matters for the records. -/
theorem Telegram.foldl_interleaved {frames others : List Frame}
    (same : ∀ kind ≠ .unknown, frames.filter (·.kind = kind) = others.filter (·.kind = kind)) :
    (frames.map Frame.telegram).foldl update default = (others.map Frame.telegram).foldl update default := by
  have writers : ∀ (kind : Command) (frames : List Frame), (frames.map Frame.telegram).filter
      (register kind).writes = (frames.filter (·.kind = kind)).map Frame.telegram := by
    intro kind frames
    rw [List.filter_map]
    rfl
  refine Records.ext_record fun kind => ?_
  by_cases known : kind = .unknown
  · subst known
    rfl
  · refine (register kind).view_congr rfl ?_
    rw [writers, writers, same kind known]

/-- Only the order of the frames within each kind matters: not how kinds are interleaved, which
frames of other commands stand between them, the noise, the batches, the clients or the writes. -/
theorem reports_interleaved {first second : List Iteration} {frames others : List Frame}
    (carried : Carries first frames) (carried' : Carries second others)
    (same : ∀ kind ≠ .unknown, frames.filter (·.kind = kind) = others.filter (·.kind = kind)) :
    (Monitor.boot.run first).packet.records = (Monitor.boot.run second).packet.records ∧
      (Monitor.boot.run first).cloud = (Monitor.boot.run second).cloud ∧
      ∀ client,
        ((Monitor.boot.run first).serveClient client).2 = ((Monitor.boot.run second).serveClient client).2 := by
  have records : (Monitor.boot.run first).packet.records = (Monitor.boot.run second).packet.records := by
    rw [carried.records, carried'.records]
    exact Telegram.foldl_interleaved same
  refine ⟨records, ?_, fun client => ?_⟩
  · have shows := Monitor.run_shows first
    have shows' := Monitor.run_shows second
    rw [Monitor.Shows] at shows shows'
    rw [shows, shows', records]
  · cases client with
    | timedOut => rfl
    | request line =>
      simp only [Monitor.serveClient, records]
      split_ifs <;> rfl

/-- A request for the name of a circuit, which no record is about. -/
def circuitName : TouchFrame := ⟨0x25, 0x10, 0x20, 0xCB, [0x02], by decide⟩

/-- A broadcast and a stop request in one batch, and in the other order around a write. -/
theorem reports_interleaved_write :
    (Monitor.boot.run [Monitor.batch (statusBroadcast.bytes ++ pumpOff.bytes)]).packet.records =
        (Monitor.boot.run [Monitor.batch pumpOff.bytes, Monitor.sendRequest,
          Monitor.batch (circuitName.bytes ++ statusBroadcast.bytes)]).packet.records ∧
      (Monitor.boot.run [Monitor.batch (statusBroadcast.bytes ++ pumpOff.bytes)]).cloud =
        (Monitor.boot.run [Monitor.batch pumpOff.bytes, Monitor.sendRequest,
          Monitor.batch (circuitName.bytes ++ statusBroadcast.bytes)]).cloud ∧
      ∀ client,
        ((Monitor.boot.run [Monitor.batch (statusBroadcast.bytes ++ pumpOff.bytes)]).serveClient client).2 =
          ((Monitor.boot.run [Monitor.batch pumpOff.bytes, Monitor.sendRequest,
            Monitor.batch (circuitName.bytes ++ statusBroadcast.bytes)]).serveClient client).2 := by
  have first : Carries [Monitor.batch (statusBroadcast.bytes ++ pumpOff.bytes)]
      [.touch statusBroadcast, .touch pumpOff] :=
    ⟨[⟨[], .touch statusBroadcast, by decide, by decide⟩, ⟨[], .touch pumpOff, by decide, by decide⟩], [], rfl,
      by decide, ⟨⟨[], .touch pumpOff, by decide, by decide⟩, pumpOff.bytes, by decide, rfl⟩, by decide⟩
  have second : Carries [Monitor.batch pumpOff.bytes, Monitor.sendRequest,
      Monitor.batch (circuitName.bytes ++ statusBroadcast.bytes)]
      [.touch pumpOff, .touch circuitName, .touch statusBroadcast] :=
    ⟨[⟨[], .touch pumpOff, by decide, by decide⟩, ⟨[], .touch circuitName, by decide, by decide⟩,
      ⟨[], .touch statusBroadcast, by decide, by decide⟩], [], rfl, by decide,
      ⟨⟨[], .touch pumpOff, by decide, by decide⟩, pumpOff.bytes, by decide, rfl⟩, by decide⟩
  refine reports_interleaved first second fun kind known => ?_
  cases kind with
  | unknown => exact absurd rfl known
  | _ => rfl

end Pentair
