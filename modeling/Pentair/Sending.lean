import Pentair.Encoding
import Pentair.Reporting

/-! What the monitor does to the bus. The bus is half duplex: a pin switches the
transceiver between receiving and transmitting, and whoever holds it in transmit mode
hears nothing. The log of a run shows every byte received, every switch of that pin, every
write and every request for one, and it follows a discipline that knows neither packets
nor buffers. -/
namespace Pentair

/-- What happens on the line, and the requests of clients for a write. -/
inductive Event where
  | received (byte : UInt8)
  /-- `digitalWrite(RS485DirectionControl, …)` -/
  | direction (transmit : Bool)
  | wrote (bytes : List UInt8)
  | requested
  deriving DecidableEq, Repr

/-- Requests and writes, which answer each other. -/
def Event.settles : Event → Bool
  | .requested => true
  | .wrote _ => true
  | _ => false

/-- The last request has not been answered by a write yet. -/
def Awaited (log : List Event) : Prop := (log.filter Event.settles).getLast? = some .requested

instance (log : List Event) : Decidable (Awaited log) := inferInstanceAs (Decidable (_ = _))

/-- What is asked of the control center: the name of a circuit. -/
def circuitNameRequest : TouchFrame := madeFrame 0xCB [0x02] (by decide)

/-! ## The discipline -/

/-- Whether the line is held for a write, and whether a write is asked for. -/
structure Line where
  transmitting : Bool
  asked : Bool
  deriving DecidableEq, Repr

namespace Line

def idle : Line := ⟨false, false⟩

def step (self : Line) : Event → Line
  | .received _ => self
  | .direction transmit => { self with transmitting := transmit }
  | .wrote _ => { self with asked := false }
  | .requested => { self with asked := true }

/-- Bytes are received while the line is not held. It is only taken for a write that was
asked for, which is made once, and then it is given back. -/
def Allows (self : Line) : Event → Prop
  | .received _ => self.transmitting = false
  | .direction true => self.transmitting = false ∧ self.asked = true
  | .direction false => self.transmitting = true
  | .wrote bytes => self = ⟨true, true⟩ ∧ bytes = circuitNameRequest.bytes
  | .requested => self.transmitting = false

/-- Every event of the log is allowed after those before it, and together they lead to `next`. -/
def Leads (self : Line) : List Event → Line → Prop
  | [], next => self = next
  | event :: rest, next => self.Allows event ∧ (self.step event).Leads rest next

variable {self middle next : Line} {first second log : List Event}

theorem Leads.append (before : self.Leads first middle) (behind : middle.Leads second next) :
    self.Leads (first ++ second) next := by
  induction first generalizing self with
  | nil =>
    obtain rfl : self = middle := before
    exact behind
  | cons event rest ih => exact ⟨before.1, ih before.2⟩

theorem Leads.after (leads : self.Leads log next) : log.foldl step self = next := by
  induction log generalizing self with
  | nil => exact leads
  | cons event rest ih => exact ih leads.2

theorem leads_received {asked : Bool} (bytes : List UInt8) :
    Leads ⟨false, asked⟩ (bytes.map .received) ⟨false, asked⟩ := by
  induction bytes with
  | nil => rfl
  | cons byte rest ih => exact ⟨rfl, ih⟩

/-- Requests and writes decide what is asked for. -/
def asking : Register step Bool where
  view := asked
  writes := Event.settles
  content event := event = .requested
  written self event settles := by
    cases event with
    | received byte => cases settles
    | direction transmit => cases settles
    | wrote bytes => rfl
    | requested => rfl
  kept self event other := by
    cases event with
    | received byte => rfl
    | direction transmit => rfl
    | wrote bytes => cases other
    | requested => cases other

theorem Leads.asked_iff (leads : idle.Leads log next) : next.asked = true ↔ Awaited log := by
  have view := asking.view_run idle log
  rw [leads.after] at view
  change next.asked = _ at view
  have same : asking.last log = (log.filter Event.settles).getLast? := rfl
  rw [view, Register.after, Awaited, ← same]
  cases asking.last log with
  | none => simp [asking, idle]
  | some event => simp [asking]

end Line

/-! ## The log of a run -/

/-- A client that asks for the test write. -/
def Client.AsksToSend : Client → Prop
  | .timedOut => False
  | .request line => "GET /send".toList <+: line

instance : DecidablePred Client.AsksToSend := fun client =>
  match client with
  | .timedOut => inferInstanceAs (Decidable False)
  | .request line => inferInstanceAs (Decidable ("GET /send".toList <+: line))

namespace Monitor
variable (self : Monitor) (sendReady : Bool) (i : Iteration)

/-- What the test write does to the line. The pin is switched before `availableForWrite` is
asked. -/
def transmitted : List Event :=
  if !self.sent && sendReady then
    [.direction true] ++ ((self.transmit sendReady i).2.map Event.wrote).toList ++ [.direction false]
  else []

/-- What an iteration does to the line. -/
def log : List Event :=
  let received := i.received.foldl receive (self, false)
  (i.received.map Arrival.byte).map .received ++ received.1.transmitted received.2 i ++
    if ∃ client ∈ i.client, client.AsksToSend then [.requested] else []

/-- The log of a run. -/
def logs (self : Monitor) : List Iteration → List Event
  | [] => []
  | i :: rest => self.log i ++ (self.loop i).monitor.logs rest

/-- The line as the monitor leaves it between iterations. -/
def line : Line := ⟨false, !self.sent⟩

/-- The test write, in a single case analysis. -/
theorem transmit_eq : self.transmit sendReady i =
    if !self.sent && sendReady && i.availableForWrite then ({ self with sent := true }, some circuitNameRequest.bytes)
    else (self, none) := by
  have out : (i.memory.construct.make i.outEnv 0xCB "01 02".toList).2.writeTo i.writeEnv = circuitNameRequest.bytes :=
    make_written _ _ _ (by decide) (HexPrint.text_spells_last [0x01] 0x02)
  unfold transmit
  cases !self.sent && sendReady with
  | false => rfl
  | true =>
    dsimp only
    rw [out]
    cases i.availableForWrite <;> rfl

theorem foldl_receive_sent (state : Monitor × Bool) (batch : List Arrival) :
    (batch.foldl receive state).1.sent = state.1.sent := by
  induction batch generalizing state with
  | nil => rfl
  | cons a rest ih =>
    obtain ⟨monitor, sendReady⟩ := state
    rw [List.foldl_cons, ih]
    cases complete : (monitor.packet.push a.env a.byte).complete with
    | false => simp [receive, complete]
    | true => cases valid : (monitor.packet.push a.env a.byte).packet.valid <;> simp [receive, complete, valid]

theorem serveClient_sent (client : Client) :
    (self.serveClient client).1.sent = if client.AsksToSend then false else self.sent := by
  cases client with
  | timedOut => rfl
  | request line =>
    by_cases asks : (Client.request line).AsksToSend
    · rw [if_pos asks]
      obtain ⟨rest, rfl⟩ := asks
      rfl
    · have refused : ¬ "GET /send".toList.isPrefixOf line = true := fun found =>
        asks (List.isPrefixOf_iff_prefix.mp found)
      rw [if_neg asks]
      unfold serveClient
      dsimp only
      split_ifs <;> rfl

theorem loop_sent : (self.loop i).monitor.sent =
    if ∃ client ∈ i.client, client.AsksToSend then false
    else
      ((i.received.foldl receive (self, false)).1.transmit (i.received.foldl receive (self, false)).2 i).1.sent := by
  unfold loop
  cases i.client with
  | none => simp
  | some client => simpa using serveClient_sent _ client

theorem transmitted_leads : self.line.Leads (self.transmitted sendReady i) (self.transmit sendReady i).1.line := by
  rw [transmitted, transmit_eq]
  cases sent : self.sent with
  | true => simp [Line.Leads]
  | false =>
    cases sendReady with
    | false => simp [Line.Leads]
    | true =>
      cases i.availableForWrite <;> simp [Line.Leads, Line.Allows, Line.step, line, sent]

/-- An iteration keeps to the discipline. -/
theorem log_leads : self.line.Leads (self.log i) (self.loop i).monitor.line := by
  have received : self.line.Leads ((i.received.map Arrival.byte).map .received)
      (i.received.foldl receive (self, false)).1.line := by
    rw [line, line, foldl_receive_sent]
    exact Line.leads_received _
  have written := received.append (transmitted_leads _ (i.received.foldl receive (self, false)).2 i)
  refine written.append ?_
  rw [line, line, loop_sent]
  split_ifs with asks
  · exact ⟨rfl, rfl⟩
  · rfl

theorem logs_lead (iterations : List Iteration) :
    self.line.Leads (self.logs iterations) (self.run iterations).line := by
  induction iterations generalizing self with
  | nil => rfl
  | cons i rest ih => exact (log_leads self i).append (ih (self.loop i).monitor)

end Monitor

/-- In every run the line is disciplined: nothing is received while it is held, it is taken
only for a write that was asked for, every request is answered at most once, and every write
is the one frame that asks for the name of a circuit. -/
theorem line_disciplined (iterations : List Iteration) :
    Line.idle.Leads (Monitor.boot.logs iterations) (Monitor.boot.run iterations).line :=
  Monitor.logs_lead Monitor.boot iterations

namespace Monitor

/-- In a run, the flag is down while a request is unanswered. -/
theorem run_sent (iterations : List Iteration) :
    (boot.run iterations).sent = false ↔ Awaited (boot.logs iterations) := by
  have leads : Line.idle.Leads (boot.logs iterations) (boot.run iterations).line := logs_lead boot iterations
  rw [← leads.asked_iff]
  simp [line]

/-- The send flag is up after a batch that ends in a quiet slot. -/
theorem receive_quiet (monitor : Monitor) (batch : List Arrival) :
    (batch.foldl receive (monitor, false)).2 = true ↔ QuietSlot monitor.packet batch := by
  rw [receive_sendReady, QuietSlot]
  cases ((monitor.packet.completed batch).filter Packet.valid).getLast? with
  | none => simp
  | some q => simp

end Monitor

/-- In every run, an iteration writes exactly if a request is still unanswered, the last valid
packet it completes is a status broadcast and the bus takes writes. -/
theorem write_schedule (before : List Iteration) (i : Iteration) (bytes : List UInt8) :
    ((Monitor.boot.run before).loop i).written = some bytes ↔
      Awaited (Monitor.boot.logs before) ∧ QuietSlot (Monitor.boot.run before).packet i.received ∧
        i.availableForWrite = true ∧ bytes = circuitNameRequest.bytes := by
  rw [Monitor.loop_written, Monitor.transmit_eq, ← Monitor.run_sent, ← Monitor.receive_quiet,
    Monitor.foldl_receive_sent]
  cases (Monitor.boot.run before).sent with
  | true => simp
  | false =>
    cases (i.received.foldl Monitor.receive (Monitor.boot.run before, false)).2 with
    | false => simp
    | true => cases i.availableForWrite <;> simp [eq_comm]

end Pentair
