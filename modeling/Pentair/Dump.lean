import Pentair.Library.Grep
import Pentair.LogLines
import Pentair.Reporting

/-! Searching the serial log of a run. The data line of a packet repeats its addresses and
its command in front of a colon, so that dumps can be searched for the packets of one
command; so do the labels for a count of all commands. Both find what they are meant to
and nothing else, whatever was received and however often clients connect, as long as no
request contains what is sought. -/
namespace Pentair

/-! ## Patterns -/

/-- Text without the characters that set patterns apart. -/
def Solid (text : List Char) : Prop := ∀ c ∈ text, c ∉ [':', '\n', '\r', ' ', '=']

instance (text : List Char) : Decidable (Solid text) :=
  List.decidableBAll (fun c => c ∉ [':', '\n', '\r', ' ', '=']) text

/-- What the log can be searched for, with a colon behind it. -/
structure Sought (pattern : List Char) : Prop where
  solid : Solid pattern
  long : 6 ≤ pattern.length
  labels : ∀ l ∈ labels, ¬ pattern <:+ l

/-- Lines that contain the pattern with a colon behind it, each with the return that
`println` leaves in front of the line end. -/
def found (pattern : List Char) (lines : List TextLine) : List (List Char) :=
  lines.flatMap fun line => Grep.grep (pattern ++ [':']) (line ++ ['\r'])

@[simp] theorem found_nil (pattern : List Char) : found pattern [] = [] := rfl

@[simp] theorem found_append (pattern : List Char) (first second : List TextLine) :
    found pattern (first ++ second) = found pattern first ++ found pattern second := List.flatMap_append

theorem found_cons (pattern : List Char) (line : TextLine) (rest : List TextLine) :
    found pattern (line :: rest) = found pattern [line] ++ found pattern rest :=
  found_append pattern [line] rest

/-- What is found in a text of lines is found line by line. -/
theorem grep_text (pattern : List Char) (lines : List TextLine) :
    Grep.grep (pattern ++ [':']) (Grep.text lines) = found pattern lines :=
  Grep.grep_text (by simp) lines

theorem found_of {pattern : List Char} {line : TextLine} (unbroken : '\n' ∉ line)
    (present : pattern ++ [':'] <:+: line) : found pattern [line] = [line ++ ['\r']] := by
  rw [found, List.flatMap_singleton, Grep.grep_line_of unbroken present]

namespace Sought
variable {pattern : List Char} (sought : Sought pattern)
include sought

theorem apart {c : Char} (special : c ∈ [':', '\n', '\r', ' ', '=']) : c ∉ pattern := fun member =>
  sought.solid c member special

theorem colon : ':' ∉ pattern := sought.apart (by decide)

theorem found_of_not {line : TextLine} (absent : ¬ pattern ++ [':'] <:+: line) : found pattern [line] = [] := by
  have plain : '\r' ∉ pattern ++ [':'] := by
    simpa using sought.apart (c := '\r') (by decide)
  rw [found, List.flatMap_singleton, Grep.grep_line_of_not plain (by simp) absent]

/-- A pattern this long does not end an hour. -/
private theorem not_hour (k : ℕ) (h : UInt8) : ¬ pattern <:+ List.replicate k ' ' ++ Fields.decimal h.toNat := by
  intro ends
  have bound := h.toNat_lt
  have short : (Fields.decimal h.toNat).length ≤ 3 := Fields.length_decimal_le (by decide) (by omega)
  have hour : pattern <:+ Fields.decimal h.toNat := by
    cases k with
    | zero => exact ends
    | succ k =>
      rw [List.replicate_succ', List.append_assoc, List.singleton_append] at ends
      exact Grep.suffix_cut (sought.apart (by decide)) ends
  have length := hour.length_le
  have long := sought.long
  omega

theorem found_ordinary {line : TextLine} (ordinary : Ordinary line) : found pattern [line] = [] := by
  refine sought.found_of_not ?_
  rw [Grep.mark_iff sought.colon]
  rintro ⟨front, member, ends⟩
  rcases ordinary.fronts front member with label | ⟨k, h, rfl⟩
  · exact sought.labels front label ends
  · exact sought.not_hour k h ends

theorem found_ordinaries {lines : List TextLine} (ordinary : ∀ line ∈ lines, Ordinary line) :
    found pattern lines = [] := by
  induction lines with
  | nil => rfl
  | cons line rest ih =>
    obtain ⟨here, there⟩ := List.forall_mem_cons.mp ordinary
    rw [found_cons, sought.found_ordinary here, ih there, List.append_nil]

end Sought

/-! ## The lines that are sought -/

/-- The labels of the lines that say from where to where a packet goes, and what it is. -/
inductive Key where
  | source
  | target
  | command
  deriving DecidableEq, Repr

def Key.label : Key → List Char
  | .source => "source".toList
  | .target => "target".toList
  | .command => "command".toList

/-- The source, target and command of a packet as its data line shows them. -/
def address (source target cid : UInt8) : List Char := printHex source ++ printHex target ++ printHex cid

/-- Text of digits. -/
def Hex (text : List Char) : Prop := ∀ c ∈ text, c ∈ HexPrint.digits

instance (text : List Char) : Decidable (Hex text) := List.decidableBAll (· ∈ HexPrint.digits) text

theorem hex_address (source target cid : UInt8) : Hex (address source target cid) := by
  unfold Hex address
  rw [List.forall_mem_append, List.forall_mem_append]
  exact ⟨⟨fun _ => mem_printHex, fun _ => mem_printHex⟩, fun _ => mem_printHex⟩

@[simp] theorem length_address (source target cid : UInt8) : (address source target cid).length = 6 := rfl

private theorem printHex_inj {b c : UInt8} : printHex b = printHex c ↔ b = c := by
  refine ⟨fun same => ?_, congrArg printHex⟩
  rw [← htoi_printHex b, same, htoi_printHex c]

theorem address_inj {source target cid source' target' cid' : UInt8} :
    address source target cid = address source' target' cid' ↔ source = source' ∧ target = target' ∧ cid = cid' := by
  constructor
  · intro same
    obtain ⟨first, cids⟩ := List.append_inj same rfl
    obtain ⟨sources, targets⟩ := List.append_inj first rfl
    exact ⟨printHex_inj.mp sources, printHex_inj.mp targets, printHex_inj.mp cids⟩
  · rintro ⟨rfl, rfl, rfl⟩
    rfl

/-- A text that does not end with six digits does not end with an address. -/
private theorem address_not_suffix {l : List Char} (other : 6 ≤ l.length → ¬ Hex (l.drop (l.length - 6)))
    (source target cid : UInt8) : ¬ address source target cid <:+ l := by
  rintro ⟨before, rfl⟩
  have last : (before ++ address source target cid).drop ((before ++ address source target cid).length - 6) =
      address source target cid := by
    simp
  rw [last] at other
  exact other (by simp) (hex_address source target cid)

theorem sought_address (source target cid : UInt8) : Sought (address source target cid) where
  solid c member special := by
    have solid : Solid HexPrint.digits := by decide
    exact solid c (hex_address source target cid c member) special
  long := by simp
  labels l member := by
    have others : ∀ l ∈ labels, 6 ≤ l.length → ¬ Hex (l.drop (l.length - 6)) := by decide
    exact address_not_suffix (others l member) source target cid

theorem sought_key (key : Key) : Sought key.label := by
  cases key <;> exact ⟨by decide, by decide, by decide⟩

/-- Behind a label only text without colons is printed, so a pattern ends it or is not found. -/
theorem Sought.found_printLabel {pattern l rest : List Char} (sought : Sought pattern) (plain : Plain l)
    (behind : Plain rest) :
    found pattern [printLabel l ++ rest] = if pattern <:+ l then [printLabel l ++ rest ++ ['\r']] else [] := by
  have blank : Plain (List.replicate (defaultPad - (l.length + 1)) ' ' ++ rest) := by simp [behind]
  have line : printLabel l ++ rest = l ++ ':' :: (List.replicate (defaultPad - (l.length + 1)) ' ' ++ rest) := by
    simp [printLabel]
  have marked : pattern ++ [':'] <:+: printLabel l ++ rest ↔ pattern <:+ l := by
    rw [line, Grep.mark_iff sought.colon, Grep.fronts_cut plain.colon, Grep.fronts_plain blank.colon]
    simp
  split_ifs with ends
  · refine found_of ?_ (marked.mpr ends)
    rw [line]
    simpa [plain.newline] using blank.newline
  · exact sought.found_of_not fun present => ends (marked.mp present)

private theorem length_printPad {n : Int32} (bounded : -256 < n.toInt ∧ n.toInt < 256) : (printPad n).length ≤ 5 := by
  have digits : (Fields.decimal n.toInt.natAbs).length ≤ 3 := Fields.length_decimal_le (by decide) (by omega)
  have number : (printInt n).length ≤ 4 := by
    unfold printInt
    split
    · rw [List.length_cons]
      omega
    · omega
  unfold printPad
  split
  · rw [List.length_append, List.length_singleton]
    omega
  · rw [List.nil_append]
    omega

namespace Packet
variable {q : Packet}

/-- The line with a label. -/
def line (self : Packet) : Key → TextLine
  | .source => self.sourceLine
  | .target => self.targetLine
  | .command => self.commandLine

/-- A number, and its name in brackets. -/
private theorem bracketed (label : List Char) {number name : List Char} (digits : Plain number) (plain : Plain name) :
    ∃ rest, Plain rest ∧ label ++ number ++ " (".toList ++ name ++ [')'] = label ++ rest := by
  refine ⟨number ++ (" (".toList ++ (name ++ [')'])), ?_, ?_⟩
  · have opened : Plain " (".toList := by decide
    have closed : Plain [')'] := by decide
    exact Plain.append.mpr ⟨digits, Plain.append.mpr ⟨opened, Plain.append.mpr ⟨plain, closed⟩⟩⟩
  · rw [List.append_assoc, List.append_assoc, List.append_assoc]

theorem line_labelled (q : Packet) (key : Key) : ∃ rest, Plain rest ∧ q.line key = printLabel key.label ++ rest := by
  cases key with
  | source => exact bracketed _ (Plain.printHex q.source) (Plain.deviceName q.source)
  | target => exact bracketed _ (Plain.printHex q.target) (Plain.deviceName q.target)
  | command => exact bracketed _ (Plain.printHex q.cid) (Plain.name q.command)

theorem found_line {pattern : List Char} (sought : Sought pattern) (q : Packet) (key : Key) :
    found pattern [q.line key] = if pattern <:+ key.label then [q.line key ++ ['\r']] else [] := by
  have plain : Plain key.label := by
    cases key <;> decide
  obtain ⟨rest, behind, line⟩ := q.line_labelled key
  rw [line]
  exact sought.found_printLabel plain behind

/-- The data line is found by its address alone. -/
theorem found_dataLine (bounded : q.clock.Bounded) {pattern : List Char} (sought : Sought pattern) (env : Env) :
    found pattern [q.dataLine env] =
      if pattern = address q.source q.target q.cid then [q.dataLine env ++ ['\r']] else [] := by
  have data : Plain (' ' :: (q.payload env).flatMap fun b => printHex b ++ [' ']) :=
    Plain.cons.mpr ⟨by decide, Plain.flatMap _ fun b => by simp⟩
  have seconds : Plain (printPad q.clock.second ++ '.' :: (printPadLong q.clock.millisecond ++
      ' ' :: address q.source q.target q.cid)) := by
    simp [address]
  have line : q.dataLine env = printPad q.clock.hour ++ ':' :: (printPad q.clock.minute ++ ':' ::
      ((printPad q.clock.second ++ '.' :: (printPadLong q.clock.millisecond ++
        ' ' :: address q.source q.target q.cid)) ++ ':' :: ([] ++ ':' ::
          (' ' :: (q.payload env).flatMap fun b => printHex b ++ [' '])))) := by
    have colons : ":: ".toList = [':', ':', ' '] := by decide
    simp [dataLine, printClock, address, colons]
  have marked : pattern ++ [':'] <:+: q.dataLine env ↔ pattern = address q.source q.target q.cid := by
    rw [line, Grep.mark_iff sought.colon, Grep.fronts_cut (Plain.printPad _).colon,
      Grep.fronts_cut (Plain.printPad _).colon, Grep.fronts_cut seconds.colon, Grep.fronts_cut (by simp),
      Grep.fronts_plain data.colon]
    constructor
    · rintro ⟨front, member, ends⟩
      have long := sought.long
      have within := ends.length_le
      simp only [List.mem_cons, List.not_mem_nil, or_false] at member
      rcases member with rfl | rfl | rfl | rfl
      · have short := length_printPad bounded.hour
        omega
      · have short := length_printPad bounded.minute
        omega
      · have behind : pattern <:+ address q.source q.target q.cid := by
          rw [← List.cons_append, ← List.append_assoc] at ends
          exact Grep.suffix_cut (sought.apart (by decide)) ends
        exact behind.eq_of_length_le long
      · rw [List.length_nil] at within
        omega
    · rintro rfl
      refine ⟨_, List.mem_cons_of_mem _ (List.mem_cons_of_mem _ List.mem_cons_self), ?_⟩
      rw [← List.cons_append, ← List.append_assoc]
      exact (List.suffix_cons _ _).trans (List.suffix_append _ _)
  split_ifs with same
  · refine found_of ?_ (marked.mpr same)
    have hour := (Plain.printPad q.clock.hour).newline
    have minute := (Plain.printPad q.clock.minute).newline
    have second := seconds.newline
    have bytes := data.newline
    rw [line]
    simp_all
  · exact sought.found_of_not fun present => same (marked.mp present)

theorem completed_append (p : Packet) (first second : List Arrival) :
    p.completed (first ++ second) = p.completed first ++ (Packet.recognizer.feed p first).completed second := by
  simp [completed, Recognizer.completions_append, Function.comp_def]

/-- What a packet's lines are searched for is found in those with its labels and its data. -/
theorem found_printTo (printable : q.Printable) {pattern : List Char} (sought : Sought pattern) (env : PrintEnv) :
    found pattern (q.printTo env) = found pattern [q.line .source, q.line .target, q.line .command] ++
      if q.clock.initialized then found pattern [q.dataLine env.memory] else [] := by
  have header : q.printHeader env =
      [printLabel "millis".toList ++ Fields.decimal env.millis.toNat,
        printLabel "version".toList ++ printHex q.version] ++
        [q.line .source, q.line .target, q.line .command] := rfl
  have ordinary : ∀ line ∈ [printLabel "millis".toList ++ Fields.decimal env.millis.toNat,
      printLabel "version".toList ++ printHex q.version], Ordinary line := by
    simp only [List.forall_mem_cons]
    exact ⟨.printLabel (by decide) (by simp), .printLabel (by decide) (by simp), List.forall_mem_nil _⟩
  have title : ∀ line ∈ ["- Packet Data [".toList ++ Fields.decimal q.dataLen.toNat ++ [']']], Ordinary line := by
    simp only [List.forall_mem_cons]
    exact ⟨.plain (by simp), List.forall_mem_nil _⟩
  have tables : ∀ line ∈ (if q.dataLen > 0 then q.dataTables env.memory else []), Ordinary line := by
    split
    · exact q.dataTables_ordinary env.memory
    · exact List.forall_mem_nil _
  rw [printTo, header]
  simp only [found_append, sought.found_ordinaries ordinary,
    sought.found_ordinaries (Command.printTo_ordinary printable.records env.stray q.command),
    sought.found_ordinaries title, sought.found_ordinaries tables, sought.found_ordinaries q.printTrailer_ordinary,
    List.nil_append, List.append_nil]
  split <;> rfl

/-- The line with a label is found by that label. -/
theorem found_key (printable : q.Printable) (key : Key) (env : PrintEnv) :
    found key.label (q.printTo env) = [q.line key ++ ['\r']] := by
  have foreign : key.label ≠ address q.source q.target q.cid := by
    intro same
    have digits := hex_address q.source q.target q.cid
    rw [← same] at digits
    cases key <;> exact absurd digits (by decide)
  have one : ∀ other : Key, key.label <:+ other.label ↔ key = other := by
    cases key <;> intro other <;> cases other <;> decide
  rw [found_printTo printable (sought_key key), found_dataLine printable.clock (sought_key key), if_neg foreign,
    found_cons, found_cons _ (q.line .target)]
  simp only [found_line (sought_key key), one]
  cases key <;> simp

/-- The data line is found by the packet's source, target and command, once the clock runs. -/
theorem found_address (printable : q.Printable) (source target cid : UInt8) (env : PrintEnv) :
    found (address source target cid) (q.printTo env) =
      if q.clock.initialized = true ∧ q.source = source ∧ q.target = target ∧ q.cid = cid then
        [q.dataLine env.memory ++ ['\r']] else [] := by
  have sought := sought_address source target cid
  have labels : ∀ key : Key, ¬ address source target cid <:+ key.label := by
    intro key
    refine address_not_suffix (fun _ => ?_) source target cid
    cases key <;> decide
  rw [found_printTo printable sought, found_dataLine printable.clock sought, found_cons,
    found_cons _ (q.line .target)]
  simp only [found_line sought, labels, if_false, List.append_nil, List.nil_append, address_inj,
    eq_comm (a := source), eq_comm (a := target), eq_comm (a := cid)]
  split_ifs with running same both both <;> simp_all

end Packet

/-! ## Runs -/

/-- No request of the session contains what is sought. -/
def Session.Clear (pattern : List Char) (s : Session) : Prop :=
  ∀ line, s.iteration.client = some (.request line) → ¬ pattern ++ [':'] <:+: line

namespace Monitor

/-- The packets that a stream completes, each with what its print meets. -/
def printedReceived (p : Packet) (prints : ℕ → PrintEnv) : List Arrival → List (Packet × PrintEnv)
  | [] => []
  | a :: rest =>
    let pushed := p.push a.env a.byte
    if pushed.complete then
      (pushed.packet, prints 0) :: printedReceived pushed.packet.reset (fun n => prints (n + 1)) rest
    else printedReceived pushed.packet prints rest

/-- The packets that are printed in a run. -/
def printed (self : Monitor) : List Session → List (Packet × PrintEnv)
  | [] => []
  | s :: rest =>
    printedReceived self.packet s.prints s.iteration.received ++ (self.loop s.iteration).monitor.printed rest

variable {self : Monitor} {p : Packet}

theorem printedReceived_fst (p : Packet) (prints : ℕ → PrintEnv) (stream : List Arrival) :
    (printedReceived p prints stream).map Prod.fst = p.completed stream := by
  induction stream generalizing p prints with
  | nil => rfl
  | cons a rest ih =>
    rw [printedReceived]
    cases complete : (p.push a.env a.byte).complete with
    | false => simp only [Bool.false_eq_true, if_false, ih, Packet.completed_of_incomplete rest complete]
    | true => simp only [if_true, List.map_cons, ih, Packet.completed_of_complete rest complete]

/-- Every completed packet is printed, and no other. -/
theorem printed_fst (self : Monitor) (sessions : List Session) :
    (self.printed sessions).map Prod.fst = self.packet.completed (stream (sessions.map Session.iteration)) := by
  induction sessions generalizing self with
  | nil => rfl
  | cons s rest ih =>
    have batches : stream ((s :: rest).map Session.iteration) =
        s.iteration.received ++ stream (rest.map Session.iteration) :=
      List.flatMap_cons
    rw [printed, List.map_append, printedReceived_fst, ih, loop_packet, batches, Packet.completed_append]

theorem feed_printable (printable : p.Printable) (stream : List Arrival) :
    (Packet.recognizer.feed p stream).Printable := by
  refine Packet.recognizer.feed_invariant (fun q a kept => ?_) printable stream
  have pushed := kept.push a.env a.byte
  unfold Recognizer.round
  split
  · exact pushed.reset
  · exact pushed

/-- The receive loop prints nothing that is sought but in the lines of packets. -/
theorem found_printReceived (printable : p.Printable) {pattern : List Char} (sought : Sought pattern)
    (prints : ℕ → PrintEnv) (stream : List Arrival) :
    found pattern (printReceived p prints stream) =
        (printedReceived p prints stream).flatMap (fun printed => found pattern (printed.1.printTo printed.2)) ∧
      ∀ printed ∈ printedReceived p prints stream, printed.1.Printable := by
  induction stream generalizing p prints with
  | nil => simp [printReceived, printedReceived]
  | cons a rest ih =>
    have pushed := printable.push a.env a.byte
    have invalid : found pattern ["   ***   INVALID PACKET ***".toList] = [] :=
      sought.found_ordinary (.plain (by decide))
    rw [printReceived, printedReceived]
    cases complete : (p.push a.env a.byte).complete with
    | false =>
      simp only [Bool.false_eq_true, if_false]
      exact ih pushed prints
    | true =>
      obtain ⟨later, all⟩ := ih pushed.reset fun n => prints (n + 1)
      simp only [if_true, List.flatMap_cons, found_append, later]
      refine ⟨?_, List.forall_mem_cons.mpr ⟨pushed, all⟩⟩
      split_ifs
      · rfl
      · rw [found_cons, invalid, List.nil_append]

theorem found_printTransmitted {pattern : List Char} (sought : Sought pattern) (self : Monitor) (sendReady : Bool)
    (i : Iteration) : found pattern (self.printTransmitted sendReady i) = [] := by
  refine sought.found_ordinaries ?_
  unfold printTransmitted
  dsimp only
  split_ifs
  · simp only [List.forall_mem_cons]
    exact ⟨.plain (Plain.append.mpr ⟨Plain.decimal _, by decide⟩), .plain (by decide), .plain (by decide),
      List.forall_mem_nil _⟩
  · exact List.forall_mem_nil _
  · exact List.forall_mem_nil _

theorem found_printServed {pattern : List Char} (sought : Sought pattern) (client : Client)
    (clear : ∀ line, client = .request line → ¬ pattern ++ [':'] <:+: line) :
    found pattern (printServed client) = [] := by
  have connected : found pattern ["new client".toList] = [] := sought.found_ordinary (.plain (by decide))
  have disconnected : found pattern ["Client disconnected".toList] = [] := sought.found_ordinary (.plain (by decide))
  cases client with
  | timedOut =>
    have timeout : found pattern ["timeout".toList] = [] := sought.found_ordinary (.plain (by decide))
    rw [printServed, found_cons, connected, timeout]
    rfl
  | request line =>
    have request : found pattern ["req=".toList ++ line] = [] := by
      refine sought.found_of_not fun inside => ?_
      have cut : "req=".toList ++ line = "req".toList ++ '=' :: line := by
        have equals : "req=".toList = "req".toList ++ ['='] := by decide
        rw [equals, List.append_assoc, List.singleton_append]
      have plain : '=' ∉ pattern ++ [':'] := by
        simpa using sought.apart (c := '=') (by decide)
      rw [cut] at inside
      rcases (Grep.infix_cut plain _ line).mp inside with front | behind
      · have long := sought.long
        have short := front.length_le
        have three : "req".toList.length = 3 := by decide
        rw [List.length_append, three] at short
        omega
      · exact clear line rfl behind
    rw [printServed, found_cons, found_cons _ ("req=".toList ++ line), connected, request, disconnected]
    rfl

/-- What is sought in the log of a run is found in the lines of its packets. -/
theorem found_printRun {pattern : List Char} (sought : Sought pattern) {sessions : List Session}
    (clear : ∀ s ∈ sessions, s.Clear pattern) (printable : self.packet.Printable) :
    found pattern (self.printRun sessions) =
        (self.printed sessions).flatMap (fun printed => found pattern (printed.1.printTo printed.2)) ∧
      ∀ printed ∈ self.printed sessions, printed.1.Printable := by
  induction sessions generalizing self with
  | nil => simp [printRun, printed]
  | cons s rest ih =>
    obtain ⟨here, there⟩ := List.forall_mem_cons.mp clear
    obtain ⟨received, packets⟩ := found_printReceived printable sought s.prints s.iteration.received
    have next : (self.loop s.iteration).monitor.packet.Printable := by
      rw [loop_packet]
      exact feed_printable printable _
    obtain ⟨later, others⟩ := ih there next
    have served : found pattern ((s.iteration.client.map printServed).getD []) = [] := by
      cases client : s.iteration.client with
      | none => rfl
      | some client' => exact found_printServed sought client' fun line request => here line (by rw [client, request])
    rw [printRun, printLoop, printed]
    simp only [found_append, received, found_printTransmitted sought, served, later, List.append_nil,
      List.flatMap_append]
    exact ⟨trivial, List.forall_mem_append.mpr ⟨packets, others⟩⟩

end Monitor

/-! ## What does not show -/

/-- The lines of a record do not show what lies behind `NAMES`. -/
theorem Command.printTo_inside {records : Records} (ranged : records.InRange) (stray other : UInt8 → List Char)
    (kind : Command) : kind.printTo records stray = kind.printTo records other := by
  cases kind with
  | systemStatus =>
    obtain ⟨pool, spa⟩ := ranged.statusHeat
    simp only [printTo, SystemStatus.printTo, (heatSourceName_inside pool stray other).1,
      (heatSourceName_inside spa stray other).1]
  | heatStatus =>
    obtain ⟨pool, spa⟩ := ranged.heat
    simp only [printTo, HeatStatus.printTo, (heatSourceName_inside pool stray other).1,
      (heatSourceName_inside spa stray other).1]
  | _ => rfl

/-- The surroundings of a print with nothing behind `NAMES`. -/
def PrintEnv.bare (env : PrintEnv) : PrintEnv := { env with stray := fun _ => [] }

def Session.bare (s : Session) : Session := { s with prints := fun n => (s.prints n).bare }

theorem Packet.printTo_bare {q : Packet} (printable : q.Printable) (env : PrintEnv) :
    q.printTo env = q.printTo env.bare := by
  have record := Command.printTo_inside printable.records env.stray env.bare.stray q.command
  rw [printTo, record]
  rfl

theorem Monitor.printReceived_bare {p : Packet} (printable : p.Printable) (prints : ℕ → PrintEnv)
    (stream : List Arrival) : printReceived p prints stream = printReceived p (fun n => (prints n).bare) stream := by
  induction stream generalizing p prints with
  | nil => simp [printReceived]
  | cons a rest ih =>
    have pushed := printable.push a.env a.byte
    rw [printReceived, printReceived, ih pushed, ih pushed.reset, Packet.printTo_bare pushed]

/-- In no run does the log depend on what lies behind the four heat sources that have names:
the check that would let them through is never needed. -/
theorem prints_inside (sessions : List Session) :
    Monitor.boot.printRun sessions = Monitor.boot.printRun (sessions.map Session.bare) := by
  have from_printable : ∀ self : Monitor, self.packet.Printable →
      self.printRun sessions = self.printRun (sessions.map Session.bare) := by
    induction sessions with
    | nil => exact fun _ _ => rfl
    | cons s rest ih =>
      intro self printable
      have next : (self.loop s.iteration).monitor.packet.Printable := by
        rw [Monitor.loop_packet]
        exact Monitor.feed_printable printable _
      rw [List.map_cons, Monitor.printRun, Monitor.printRun, ih _ next, Monitor.printLoop,
        Monitor.printReceived_bare printable]
      rfl
  exact from_printable Monitor.boot Packet.printable_boot

/-! ## Searching a run -/

/-- Searched for a source, target and command, the log of a run shows the data lines of just
the packets with these, once the clock runs. -/
theorem grep_address {sessions : List Session} {source target cid : UInt8}
    (clear : ∀ s ∈ sessions, s.Clear (address source target cid)) :
    Grep.grep (address source target cid ++ [':']) (Grep.text (Monitor.boot.printRun sessions)) =
      ((Monitor.boot.printed sessions).filter fun printed => printed.1.clock.initialized = true ∧
        printed.1.source = source ∧ printed.1.target = target ∧ printed.1.cid = cid).map fun printed =>
          printed.1.dataLine printed.2.memory ++ ['\r'] := by
  obtain ⟨lines, packets⟩ := Monitor.found_printRun (sought_address source target cid) clear Packet.printable_boot
  rw [grep_text, lines]
  generalize Monitor.boot.printed sessions = all at packets
  induction all with
  | nil => rfl
  | cons printed rest ih =>
    obtain ⟨here, there⟩ := List.forall_mem_cons.mp packets
    rw [List.flatMap_cons, ih there, Packet.found_address here, List.filter_cons]
    split_ifs <;> simp_all

/-- Searched for one of the three labels, it shows one line for each packet completed. -/
theorem packets_counted (sessions : List Session) (key : Key) (clear : ∀ s ∈ sessions, s.Clear key.label) :
    Grep.grep (key.label ++ [':']) (Grep.text (Monitor.boot.printRun sessions)) =
      (Monitor.boot.packet.completed (Monitor.stream (sessions.map Session.iteration))).map fun q =>
        q.line key ++ ['\r'] := by
  obtain ⟨lines, packets⟩ := Monitor.found_printRun (sought_key key) clear Packet.printable_boot
  rw [grep_text, lines, ← Monitor.printed_fst, List.map_map]
  generalize Monitor.boot.printed sessions = all at packets
  induction all with
  | nil => rfl
  | cons printed rest ih =>
    obtain ⟨here, there⟩ := List.forall_mem_cons.mp packets
    rw [List.flatMap_cons, ih there, Packet.found_key here, List.map_cons, List.singleton_append]
    rfl

/-- A broadcast and the stop request of a pump are received in one batch, and a client asks
for the readings. -/
def busySession : Session where
  iteration := { Monitor.batch (statusBroadcast.bytes ++ pumpOff.bytes) with
    client := some (.request "GET /csv HTTP/1.1".toList) }
  prints := default

theorem busySession_clear {pattern : List Char} (absent : ¬ pattern ++ [':'] <:+: "GET /csv HTTP/1.1".toList) :
    ∀ s ∈ [busySession], s.Clear pattern := by
  intro s member line request
  rw [List.mem_singleton.mp member] at request
  cases request
  exact absent

theorem packets_counted_request :
    Grep.grep (Key.command.label ++ [':']) (Grep.text (Monitor.boot.printRun [busySession])) =
      (Monitor.boot.packet.completed (Monitor.stream ([busySession].map Session.iteration))).map fun q =>
        q.line .command ++ ['\r'] :=
  packets_counted [busySession] .command (busySession_clear (by decide))

end Pentair
