import Pentair.Calls
import Pentair.Delivery

/-! The monitor: the `loop` of `pentair.cpp`, which receives what the bus has, may write a
frame to the bus, and then serves one client. A batch of bytes may complete any number of
packets, and the parser and the send flag live on from one iteration to the next. Serial
output and the cloud service itself are left out. -/
namespace Pentair

/-- The properties shown in the cloud. -/
structure Cloud where
  airTemp : UInt8
  poolTemp : UInt8
  solarTemp : UInt8
  salinity : UInt16
  inspectCell : Bool
  deriving Inhabited

/-- The globals that `loop` works on. -/
structure Monitor where
  packet : Packet
  /-- `SENT` -/
  sent : Bool
  cloud : Cloud

/-- A client that connects: it sends a request line, or it is dropped. That is for sending
nothing in time, or for connecting as `millis() + 3000` wraps, whatever it sends. -/
inductive Client where
  | timedOut
  | request (line : List Char)

/-- What one iteration of `loop` meets. -/
structure Iteration where
  /-- the bytes that `rs485` yields before it is empty -/
  received : List Arrival
  availableForWrite : Bool
  /-- the memory that `out` is constructed in, and what the calls on it meet -/
  memory : Packet
  outEnv : ℕ → Env
  writeEnv : Env
  client : Option Client

namespace Monitor

/-- As after `setup`, with globals in static storage. -/
def boot : Monitor where
  packet := (default : Packet).construct
  sent := true
  cloud := default

def updateArduinoCloud (records : Records) : Cloud where
  airTemp := records.systemStatus.airTemp
  poolTemp := records.systemStatus.poolTemp
  solarTemp := records.systemStatus.solarTemp
  salinity := records.chlorinatorResponse.salinity
  inspectCell := records.chlorinatorResponse.inspectCell ≠ 0

/-- The body of the receive loop, for one byte read. The flag is `send_ready`. -/
def receive (self : Monitor × Bool) (a : Arrival) : Monitor × Bool :=
  let (monitor, sendReady) := self
  let pushed := monitor.packet.push a.env a.byte
  if pushed.complete then
    if pushed.packet.valid then
      ({ monitor with packet := pushed.packet.reset, cloud := updateArduinoCloud pushed.packet.records },
        pushed.packet.cid = commandSystemStatus)
    else
      -- invalid packets are skipped
      ({ monitor with packet := pushed.packet.reset }, sendReady)
  else ({ monitor with packet := pushed.packet }, sendReady)

/-- The test write, with the bytes written to `rs485`. -/
def transmit (self : Monitor) (sendReady : Bool) (i : Iteration) : Monitor × Option (List UInt8) :=
  if !self.sent && sendReady then
    let out := (i.memory.construct.make i.outEnv 0xCB "01 02".toList).2
    if i.availableForWrite then ({ self with sent := true }, some (out.writeTo i.writeEnv)) else (self, none)
  else (self, none)

def exportMetrics (records : Records) : String :=
  "HTTP/1.1 200 OK\r\nContent-Type: text/plain; version=0.0.4\r\n\r\n" ++
  "air_temp " ++ toString records.systemStatus.airTemp ++ "\n" ++
  "pool_temp " ++ toString records.systemStatus.poolTemp ++ "\n" ++
  "solar_temp " ++ toString records.systemStatus.solarTemp ++ "\n" ++
  "spa_temp " ++ toString records.systemStatus.spaTemp ++ "\n" ++
  "pump_rpms " ++ toString records.pumpStatusResponse.rpms ++ "\n" ++
  "pump_watts " ++ toString records.pumpStatusResponse.watts ++ "\n" ++
  "chlorinator_percent " ++ toString records.chlorinatorRequest.percent ++ "\n" ++
  "chlorinator_salinity " ++ toString records.chlorinatorResponse.salinity ++ "\n" ++
  "\n"

def exportCSV (records : Records) : String :=
  "HTTP/1.1 200 OK\r\nContent-Type: text/plain; version=0.0.4\r\n\r\n" ++
  toString records.systemStatus.airTemp ++ "," ++ toString records.systemStatus.poolTemp ++ "," ++
  toString records.systemStatus.solarTemp ++ "," ++ toString records.systemStatus.spaTemp ++ "," ++
  toString records.pumpStatusResponse.rpms ++ "," ++ toString records.pumpStatusResponse.watts ++ "," ++
  toString records.chlorinatorRequest.percent ++ "," ++ toString records.chlorinatorResponse.salinity ++ "\n" ++
  "\n"

/-- `ServeClient`, with the response. -/
def serveClient (self : Monitor) : Client → Monitor × Option String
  | .timedOut => (self, none)
  | .request line =>
    if "GET /metrics".toList.isPrefixOf line then (self, some (exportMetrics self.packet.records))
    else if "GET /csv".toList.isPrefixOf line then (self, some (exportCSV self.packet.records))
    else if "GET /send".toList.isPrefixOf line then ({ self with sent := false }, some "HTTP/1.1 200 OK\n")
    else (self, some "HTTP/1.1 404 Not Found\n")

/-- What an iteration leaves, writes to the bus, and answers. -/
structure Outcome where
  monitor : Monitor
  written : Option (List UInt8)
  response : Option String

def loop (self : Monitor) (i : Iteration) : Outcome :=
  let received := i.received.foldl receive (self, false)
  let transmitted := received.1.transmit received.2 i
  match i.client with
  | none => ⟨transmitted.1, transmitted.2, none⟩
  | some client =>
    let served := transmitted.1.serveClient client
    ⟨served.1, transmitted.2, served.2⟩

/-- The iterations of a run. -/
def run (self : Monitor) (iterations : List Iteration) : Monitor :=
  iterations.foldl (fun monitor i => (monitor.loop i).monitor) self

end Monitor

/-! ## The quiet slot -/

/-- The packets that a stream completes, as they are found before the `Reset`. -/
def Packet.completed (p : Packet) (stream : List Arrival) : List Packet :=
  (Packet.recognizer.completions p stream).map Prod.snd

/-- The last valid packet that a batch completes is a status broadcast. -/
def QuietSlot (p : Packet) (batch : List Arrival) : Prop :=
  ∃ q, ((p.completed batch).filter Packet.valid).getLast? = some q ∧ q.cid = commandSystemStatus

namespace Packet
variable {p : Packet} {a : Arrival} (rest : List Arrival)

theorem completed_of_complete (complete : (p.push a.env a.byte).complete = true) :
    p.completed (a :: rest) = (p.push a.env a.byte).packet :: (p.push a.env a.byte).packet.reset.completed rest := by
  simp [completed, Recognizer.completions, Recognizer.round, Packet.recognizer, complete, Function.comp_def]

theorem completed_of_incomplete (incomplete : (p.push a.env a.byte).complete = false) :
    p.completed (a :: rest) = (p.push a.env a.byte).packet.completed rest := by
  simp [completed, Recognizer.completions, Recognizer.round, Packet.recognizer, incomplete, Function.comp_def]

end Packet

namespace Monitor

/-- The send flag after a batch is decided by the last valid packet in it. -/
theorem receive_sendReady (monitor : Monitor) (sendReady : Bool) (batch : List Arrival) :
    (batch.foldl receive (monitor, sendReady)).2 =
      match ((monitor.packet.completed batch).filter Packet.valid).getLast? with
      | some q => decide (q.cid = commandSystemStatus)
      | none => sendReady := by
  induction batch generalizing monitor sendReady with
  | nil => rfl
  | cons a rest ih =>
    rw [List.foldl_cons]
    cases complete : (monitor.packet.push a.env a.byte).complete with
    | false =>
      have here : receive (monitor, sendReady) a =
          ({ monitor with packet := (monitor.packet.push a.env a.byte).packet }, sendReady) := by
        simp [receive, complete]
      rw [here, ih, Packet.completed_of_incomplete rest complete]
    | true =>
      rw [Packet.completed_of_complete rest complete]
      cases valid : (monitor.packet.push a.env a.byte).packet.valid with
      | false =>
        -- an invalid packet leaves the flag as it is
        have here : receive (monitor, sendReady) a =
            ({ monitor with packet := (monitor.packet.push a.env a.byte).packet.reset }, sendReady) := by
          simp [receive, complete, valid]
        rw [here, ih, List.filter_cons_of_neg (by simp [valid])]
      | true =>
        have here : (receive (monitor, sendReady) a).1.packet = (monitor.packet.push a.env a.byte).packet.reset ∧
            (receive (monitor, sendReady) a).2 =
              decide ((monitor.packet.push a.env a.byte).packet.cid = commandSystemStatus) := by
          simp [receive, complete, valid]
        rw [← Prod.mk.eta (p := receive (monitor, sendReady) a), ih, here.1, here.2,
          List.filter_cons_of_pos (by simp [valid]), List.getLast?_cons]
        cases ((Packet.completed (monitor.packet.push a.env a.byte).packet.reset rest).filter
          Packet.valid).getLast? <;> rfl

/-- The outcome of an iteration shows what was written before a client was served. -/
theorem loop_written (self : Monitor) (i : Iteration) : (self.loop i).written =
    ((i.received.foldl receive (self, false)).1.transmit (i.received.foldl receive (self, false)).2 i).2 := by
  unfold loop
  dsimp only
  split <;> rfl

/-- Nothing is written without the send flag. -/
theorem transmit_sendReady {self : Monitor} {sendReady : Bool} {i : Iteration}
    (written : (self.transmit sendReady i).2 ≠ none) : sendReady = true := by
  unfold transmit at written
  split at written
  · rename_i ready
    exact (Bool.and_eq_true _ _ ▸ ready).2
  · exact absurd rfl written

end Monitor

/-- In every run, the bus is only written in an iteration in which the last valid packet
completed is a status broadcast. -/
theorem writes_in_quiet_slot (before : List Iteration) (i : Iteration)
    (written : ((Monitor.boot.run before).loop i).written ≠ none) :
    QuietSlot (Monitor.boot.run before).packet i.received := by
  rw [Monitor.loop_written] at written
  have ready := Monitor.transmit_sendReady written
  rw [Monitor.receive_sendReady] at ready
  unfold QuietSlot
  cases last : ((Packet.completed (Monitor.boot.run before).packet i.received).filter Packet.valid).getLast? with
  | none =>
    rw [last] at ready
    cases ready
  | some q =>
    rw [last] at ready
    exact ⟨q, rfl, of_decide_eq_true ready⟩

namespace Monitor

/-- A client asks for the test write. -/
def sendRequest : Iteration := ⟨[], true, default, default, default, some (.request "GET /send HTTP/1.1".toList)⟩

/-- A batch is received while the bus takes writes. -/
def batch (bytes : List UInt8) : Iteration := ⟨arrivals default bytes, true, default, default, default, none⟩

end Monitor

/-- The write that was asked for follows a status broadcast. -/
theorem writes_after_broadcast :
    QuietSlot (Monitor.boot.run [Monitor.sendRequest]).packet (arrivals default statusBroadcast.bytes) :=
  writes_in_quiet_slot [Monitor.sendRequest] (Monitor.batch statusBroadcast.bytes) (by decide +kernel)

/-- A packet with a wrong checksum, received after the broadcast in the same batch, does not
keep the bus from being written. -/
theorem writes_after_invalid :
    ¬ ∀ (before : List Iteration) (i : Iteration), ((Monitor.boot.run before).loop i).written ≠ none →
      ∃ q, ((Monitor.boot.run before).packet.completed i.received).getLast? = some q ∧ q.valid = true ∧
        q.cid = commandSystemStatus := by
  intro quiet
  have last := quiet [Monitor.sendRequest] (Monitor.batch (statusBroadcast.bytes ++ pumpOff.front ++ [0x00]))
    (by decide +kernel)
  have invalid : ∀ q ∈ ((Monitor.boot.run [Monitor.sendRequest]).packet.completed
      (Monitor.batch (statusBroadcast.bytes ++ pumpOff.front ++ [0x00])).received).getLast?, q.valid = false := by
    decide +kernel
  obtain ⟨q, found, valid, _⟩ := last
  exact absurd (valid.symm.trans (invalid q found)) (by decide)

end Pentair
