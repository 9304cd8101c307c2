import Pentair.Dump
import Pentair.TrueTime

/-! Reading the dump of a run back. A data line gives back the time, the addresses, the
command and the data of its packet, and so what a search shows is what the bus carried:
the payloads of the frames of one command, in order, from the broadcast on that set the
clock. -/
namespace Pentair

/-! ## Data lines -/

/-- What a data line says. -/
structure Shown where
  hour : ℤ
  minute : ℤ
  second : ℤ
  millisecond : ℤ
  source : UInt8
  target : UInt8
  cid : UInt8
  payload : List UInt8
  deriving DecidableEq, Repr

def readByte (text : List Char) : UInt8 := htoi (text.getD 0 '0') * 16 + htoi (text.getD 1 '0')

/-- How a data line is read: it is words with blanks between them, the time first, then the
addresses and the command, then one byte each. Behind the last blank is only the return. -/
def readDataLine (line : List Char) : Shown :=
  let words := line.splitOn ' '
  let fields := (words.getD 0 []).splitOn ':'
  let seconds := (fields.getD 2 []).splitOn '.'
  let addresses := words.getD 1 []
  { hour := Fields.readSigned (fields.getD 0 [])
    minute := Fields.readSigned (fields.getD 1 [])
    second := Fields.readSigned (seconds.getD 0 [])
    millisecond := Fields.readSigned (seconds.getD 1 [])
    source := readByte addresses
    target := readByte (addresses.drop 2)
    cid := readByte (addresses.drop 4)
    payload := (words.drop 2).dropLast.map readByte }

@[simp] theorem readByte_printHex (b : UInt8) : readByte (printHex b) = b := htoi_printHex b

theorem printHex_blankless (b : UInt8) : ' ' ∉ printHex b := fun member =>
  absurd (mem_printHex member) (by decide)

/-- Padding puts zeros in front of the number, and of its sign. -/
private theorem printPad_signed (n : Int32) :
    (∃ zeros, printPad n = List.replicate zeros '0' ++ Fields.signed n.toInt) ∧
      ∃ zeros, printPadLong n = List.replicate zeros '0' ++ Fields.signed n.toInt := by
  have number : printInt n = Fields.signed n.toInt := by
    have sign : n < 0 ↔ n.toInt < 0 := Int32.lt_iff_toInt_lt
    unfold printInt Fields.signed
    simp only [sign]
  unfold printPad printPadLong
  rw [number]
  constructor
  · split
    · exact ⟨1, rfl⟩
    · exact ⟨0, rfl⟩
  · split_ifs
    · exact ⟨2, rfl⟩
    · exact ⟨1, rfl⟩
    · exact ⟨1, rfl⟩
    · exact ⟨0, rfl⟩

private theorem readSigned_printPad (n : Int32) :
    Fields.readSigned (printPad n) = n.toInt ∧ Fields.readSigned (printPadLong n) = n.toInt := by
  obtain ⟨⟨zeros, pad⟩, ⟨zerosLong, padLong⟩⟩ := printPad_signed n
  rw [pad, padLong]
  exact ⟨Fields.readSigned_signed zeros _, Fields.readSigned_signed zerosLong _⟩

private theorem not_mem_printPad {c : Char} (other : c.isDigit = false) (noSign : c ≠ '-') (n : Int32) :
    c ∉ printPad n ∧ c ∉ printPadLong n := by
  obtain ⟨⟨zeros, pad⟩, ⟨zerosLong, padLong⟩⟩ := printPad_signed n
  rw [pad, padLong]
  exact ⟨Fields.not_mem_signed other noSign zeros _, Fields.not_mem_signed other noSign zerosLong _⟩

/-- The words of the data bytes, each with a blank behind it. -/
private theorem splitOn_bytes (bytes : List UInt8) {behind : List Char} (blankless : ' ' ∉ behind) :
    (bytes.flatMap (fun b => printHex b ++ [' ']) ++ behind).splitOn ' ' = bytes.map printHex ++ [behind] := by
  induction bytes with
  | nil => exact List.splitOn_eq_singleton blankless
  | cons b rest ih =>
    rw [List.flatMap_cons, List.append_assoc, List.append_assoc, List.singleton_append,
      List.splitOn_append_cons_self_of_not_mem (printHex_blankless b), ih, List.map_cons, List.cons_append]

namespace Packet

/-- What a packet has to say in its data line. -/
def shown (self : Packet) (env : Env) : Shown where
  hour := self.clock.hour.toInt
  minute := self.clock.minute.toInt
  second := self.clock.second.toInt
  millisecond := self.clock.millisecond.toInt
  source := self.source
  target := self.target
  cid := self.cid
  payload := self.payload env

end Packet

private theorem splitOn_printClock (c : Clock) : (printClock c).splitOn ':' =
    [printPad c.hour, printPad c.minute, printPad c.second ++ '.' :: printPadLong c.millisecond] := by
  have colon := fun n => not_mem_printPad (c := ':') (by decide) (by decide) n
  have parts : printClock c = printPad c.hour ++ ':' :: (printPad c.minute ++ ':' ::
      (printPad c.second ++ '.' :: printPadLong c.millisecond)) := by
    simp [printClock]
  rw [parts, List.splitOn_append_cons_self_of_not_mem (colon _).1,
    List.splitOn_append_cons_self_of_not_mem (colon _).1, List.splitOn_eq_singleton (by simp [colon])]

private theorem splitOn_seconds (second millisecond : Int32) :
    (printPad second ++ '.' :: printPadLong millisecond).splitOn '.' =
      [printPad second, printPadLong millisecond] := by
  have dot := fun n => not_mem_printPad (c := '.') (by decide) (by decide) n
  rw [List.splitOn_append_cons_self_of_not_mem (dot _).1, List.splitOn_eq_singleton (dot _).2]

namespace Packet

/-- The words of a data line. -/
theorem splitOn_dataLine (q : Packet) (env : Env) {behind : List Char} (blankless : ' ' ∉ behind) :
    (q.dataLine env ++ behind).splitOn ' ' = printClock q.clock ::
      (printHex q.source ++ (printHex q.target ++ (printHex q.cid ++ [':', ':']))) ::
        ((q.payload env).map printHex ++ [behind]) := by
  have clock : ' ' ∉ printClock q.clock := by
    have blank := fun n => not_mem_printPad (c := ' ') (by decide) (by decide) n
    simp [printClock, blank]
  have address : ' ' ∉ printHex q.source ++ (printHex q.target ++ (printHex q.cid ++ [':', ':'])) := by
    simp [printHex_blankless]
  have line : q.dataLine env ++ behind = printClock q.clock ++ ' ' ::
      ((printHex q.source ++ (printHex q.target ++ (printHex q.cid ++ [':', ':']))) ++ ' ' ::
        ((q.payload env).flatMap (fun b => printHex b ++ [' ']) ++ behind)) := by
    have colons : ":: ".toList = [':', ':', ' '] := by decide
    simp [dataLine, colons]
  rw [line, List.splitOn_append_cons_self_of_not_mem clock, List.splitOn_append_cons_self_of_not_mem address,
    splitOn_bytes _ blankless]

/-- Every data line can be read back, with or without the return behind it. -/
theorem readDataLine_dataLine (q : Packet) (env : Env) {behind : List Char} (blankless : ' ' ∉ behind) :
    readDataLine (q.dataLine env ++ behind) = q.shown env := by
  have bytes : ((q.payload env).map printHex).map readByte = q.payload env := by
    simp [Function.comp_def]
  have source := readByte_printHex q.source
  have target := readByte_printHex q.target
  have cid := readByte_printHex q.cid
  unfold readDataLine
  simp only [q.splitOn_dataLine env blankless, splitOn_printClock, splitOn_seconds, List.getD_cons_zero,
    List.getD_cons_succ, readSigned_printPad, List.drop_succ_cons, List.drop_zero, List.dropLast_concat, bytes]
  exact Shown.mk.injEq .. ▸ ⟨rfl, rfl, rfl, rfl, source, target, cid, rfl⟩

end Packet

/-! ## Runs of whole frames -/

/-- A packet that is delivered as the frame. -/
def Packet.Exposes (q : Packet) (frame : Frame) : Prop :=
  ∀ view position, q.delivery view position = frame.delivery position

namespace Frame

/-- A status broadcast that sets a clock that does not run: any but one on the hour. -/
def SetsClock (self : Frame) : Prop := self.kind = .systemStatus ∧ 0 < self.payload.getD 1 0

instance (self : Frame) : Decidable self.SetsClock := inferInstanceAs (Decidable (_ ∧ _))

/-- Where the frame comes from and goes to, and its command. An IntelliChlor frame is shown
with those of its delivery. -/
def addresses (self : Frame) : UInt8 × UInt8 × UInt8 :=
  ((self.delivery 0).source, (self.delivery 0).target, (self.delivery 0).cid)

end Frame

/-- A clock starts with the first broadcast that sets it. -/
theorem Clock.heard_initialized {c : Clock} (fresh : c.initialized = false → c.minute = 0)
    (said : Moment × Telegram) :
    (c.heard said).initialized = true ↔
      c.initialized = true ∨ (said.2.kind = .systemStatus ∧ 0 < said.2.memory 1) := by
  cases running : c.initialized with
  | true =>
    simp only [true_or, iff_true]
    unfold heard
    split_ifs <;> simp_all [time, advance, initializeAt]
  | false =>
    have positive : c.minute < Int32.ofNat (said.2.memory 1).toNat ↔ 0 < said.2.memory 1 := by
      have zero : (0 : Int32).toInt = 0 := rfl
      rw [fresh running, Int32.lt_iff_toInt_lt, toInt_ofNat_byte, zero, UInt8.lt_iff_toNat_lt]
      simp
    rw [← positive]
    unfold heard
    dsimp only
    by_cases behind : said.2.kind = .systemStatus ∧ c.minute < Int32.ofNat (said.2.memory 1).toNat
    · rw [if_pos behind]
      simp [behind, time, advance, initializeAt]
    · rw [if_neg behind, running]
      simp [behind, running]

namespace Packet
variable {p q : Packet}

/-- Bytes that complete nothing leave the clock alone. -/
theorem scan_clock {stream : List Arrival} (silent : Packet.recognizer.scan p stream = (none, q)) :
    q.clock = p.clock := by
  refine Packet.recognizer.scan_invariant (P := fun _ u => u.clock = p.clock) rfl
    (fun _ u a kept incomplete => ?_) silent
  rcases u.push_cases a.env a.byte with quiet | ⟨ready, decoded⟩
  · exact quiet.untouched.clock.trans kept
  · exact absurd (incomplete.symm.trans decoded.complete) (by decide)

theorem completed_of_none {stream : List Arrival} (silent : (Packet.recognizer.scan p stream).1 = none) :
    p.completed stream = [] := by
  rw [completed, Recognizer.completions_of_none silent, List.map_nil]

end Packet

/-- A whole frame after its noise completes one packet, which exposes it, and whose clock
runs if it ran before or the frame sets it. -/
theorem item_completed {p : Packet} (tracked : Tracks p Receiver.start)
    (fresh : p.clock.initialized = false → p.clock.minute = 0) (item : Item) (whole : item.frame.Whole)
    {stream : List Arrival} (bytes : stream.map Arrival.byte = item.bytes) :
    ∃ q, p.completed stream = [q] ∧ Packet.recognizer.feed p stream = q.reset ∧ q.Exposes item.frame ∧
      (q.clock.initialized = true ↔ p.clock.initialized = true ∨ item.frame.SetsClock) ∧
      (q.clock.initialized = false → q.clock.minute = 0) := by
  obtain ⟨env, arrived⟩ := arrivals_surjective stream
  rw [bytes] at arrived
  obtain ⟨k, q, found, last, exposed⟩ := item_delivered tracked item env
  rw [← arrived] at found
  have ended : k + 1 = stream.length := by rw [last, ← bytes, List.length_map]
  have valid : q.valid = true := (congrArg Delivery.valid (exposed default 0)).trans (item.frame.delivery_valid 0)
  obtain ⟨before, a, rest, u, rfl, rfl, silent, completed⟩ := Recognizer.scan_some_split found
  obtain rfl : rest = [] := by
    rw [List.length_append, List.length_cons] at ended
    exact List.eq_nil_of_length_eq_zero (by omega)
  have packet : (u.push a.env a.byte).packet = q := congrArg Prod.snd completed
  have complete : (u.push a.env a.byte).complete = true := congrArg Prod.fst completed
  have accepted : (u.push a.env a.byte).Accepted := ⟨complete, by rw [packet]; exact valid⟩
  have kept : u.clock = p.clock := Packet.scan_clock silent
  have clock : q.clock = p.clock.heard (⟨0, a⟩, q.telegram a.env) := by
    have pushed := u.push_clock ⟨0, a⟩
    rwa [if_pos accepted, packet, kept] at pushed
  refine ⟨q, ?_, (Recognizer.feed_of_last found ended).1, exposed, ?_, fun stopped => ?_⟩
  · rw [Packet.completed_append, Packet.completed_of_none (congrArg Prod.fst silent),
      (Recognizer.feed_of_none silent).1, Packet.completed_of_complete [] complete, packet]
    rfl
  · have alike := Packet.telegram_alike whole exposed a.env
    have minute : (q.telegram a.env).kind = .systemStatus →
        (q.telegram a.env).memory 1 = item.frame.telegram.memory 1 := fun status =>
      alike.memory 1 (by rw [status]; decide)
    have sets : (q.telegram a.env).kind = .systemStatus ∧ 0 < (q.telegram a.env).memory 1 ↔ item.frame.SetsClock := by
      rw [Frame.SetsClock, ← show (q.telegram a.env).kind = item.frame.kind from alike.kind]
      refine and_congr_right fun status => ?_
      rw [minute status]
      rfl
    rw [clock, Clock.heard_initialized fresh, sets]
  · rw [clock] at stopped ⊢
    have idle : p.clock.initialized = false := by
      cases running : p.clock.initialized with
      | false => rfl
      | true =>
        have started := (Clock.heard_initialized fresh (⟨0, a⟩, q.telegram a.env)).mpr (.inl running)
        exact absurd (stopped.symm.trans started) Bool.false_ne_true
    rw [(Clock.heard_stopped stopped).1]
    exact fresh idle

/-- Once the clock runs, the packets that whole frames among noise complete expose those
frames, and the first of them is the one that set it. -/
theorem items_completed {p : Packet} (tracked : Tracks p Receiver.start)
    (fresh : p.clock.initialized = false → p.clock.minute = 0) (items : List Item)
    (whole : ∀ item ∈ items, item.frame.Whole) {tail : List UInt8} (unfinished : Unfinished tail)
    {stream : List Arrival} (bytes : stream.map Arrival.byte = items.flatMap Item.bytes ++ tail) :
    List.Forall₂ Packet.Exposes ((p.completed stream).filter fun q => q.clock.initialized)
      (if p.clock.initialized = true then items.map Item.frame
        else (items.map Item.frame).dropWhile fun f => ¬ f.SetsClock) := by
  induction items generalizing p stream with
  | nil =>
    rw [Packet.completed_of_none (unfinished_silent tracked (by rw [bytes]; exact unfinished))]
    split_ifs <;> exact .nil
  | cons item rest ih =>
    rw [List.flatMap_cons, List.append_assoc] at bytes
    obtain ⟨first, later, rfl, here, there⟩ := List.map_eq_append_iff.mp bytes
    obtain ⟨q, completed, next, exposed, running, fresh'⟩ :=
      item_completed tracked fresh item (whole item List.mem_cons_self) here
    have others := ih (tracks_reset q) fresh' (fun item later => whole item (List.mem_cons_of_mem _ later)) there
    have clock : q.reset.clock = q.clock := rfl
    rw [clock] at others
    rw [Packet.completed_append, completed, next, List.singleton_append, List.map_cons]
    cases started : q.clock.initialized with
    | false =>
      -- neither did the clock run before, nor does the frame set it
      obtain ⟨stopped, other⟩ := not_or.mp (mt running.mpr (by simp [started]))
      rw [List.filter_cons_of_neg (by simp [started]), if_neg stopped,
        List.dropWhile_cons_of_pos (by simpa using other)]
      simpa [started] using others
    | true =>
      rw [List.filter_cons_of_pos (by simpa using started)]
      rw [if_pos started] at others
      by_cases before : p.clock.initialized = true
      · rw [if_pos before]
        exact .cons exposed others
      · have sets : item.frame.SetsClock := (running.mp started).resolve_left before
        rw [if_neg before, List.dropWhile_cons_of_neg (by simpa using sets)]
        exact .cons exposed others

/-- Of packets that expose frames, those with given addresses have the payloads of the frames
with these. -/
private theorem payloads_exposed {printed : List (Packet × PrintEnv)} {frames : List Frame}
    (exposed : List.Forall₂ (fun printed frame => printed.1.Exposes frame) printed frames)
    (source target cid : UInt8) :
    ((printed.filter fun printed => printed.1.source = source ∧ printed.1.target = target ∧ printed.1.cid = cid).map
        fun printed => printed.1.payload printed.2.memory) =
      (frames.filter fun f => f.addresses = (source, target, cid)).map Frame.payload := by
  induction exposed with
  | nil => rfl
  | @cons printed frame others frames head tail ih =>
    have delivered := head printed.2.memory 0
    have payload : printed.1.payload printed.2.memory = frame.payload :=
      (congrArg Delivery.payload delivered).trans (frame.delivery_payload 0)
    have same : frame.addresses = (printed.1.source, printed.1.target, printed.1.cid) := by
      rw [Frame.addresses, ← delivered]
      rfl
    rw [List.filter_cons, List.filter_cons, same]
    simp only [Prod.mk.injEq]
    split_ifs
    · rw [List.map_cons, List.map_cons, payload, ih]
    · exact ih

/-! ## What a search shows -/

/-- Whatever a run receives, a search of its log for a source, target and command shows the
packets with these, as they were completed once the clock ran, and their data lines give
back their time and their data. Only a request with the pattern in it would be found too. -/
theorem dump_searched (sessions : List Session) (source target cid : UInt8)
    (clear : ∀ s ∈ sessions, s.Clear (address source target cid)) :
    (Grep.grep (address source target cid ++ [':']) (Grep.text (Monitor.boot.printRun sessions))).map readDataLine =
      ((Monitor.boot.printed sessions).filter fun printed => printed.1.clock.initialized = true ∧
        printed.1.source = source ∧ printed.1.target = target ∧ printed.1.cid = cid).map fun printed =>
          printed.1.shown printed.2.memory := by
  rw [grep_address clear, List.map_map]
  exact List.map_congr_left fun printed _ => printed.1.readDataLine_dataLine _ (by decide)

/-- The stop requests that a pump gets. -/
theorem dump_searched_pumpOff :
    (Grep.grep (address 0x10 0x60 0x06 ++ [':']) (Grep.text (Monitor.boot.printRun [busySession]))).map readDataLine =
      ((Monitor.boot.printed [busySession]).filter fun printed => printed.1.clock.initialized = true ∧
        printed.1.source = 0x10 ∧ printed.1.target = 0x60 ∧ printed.1.cid = 0x06).map fun printed =>
          printed.1.shown printed.2.memory :=
  dump_searched [busySession] 0x10 0x60 0x06 (busySession_clear (by decide))

/-- In a run that receives whole frames among noise, the search shows the payloads of the
frames with this source, target and command, in order, from the first broadcast on that
sets the clock, unless a request has the pattern in it. -/
theorem dump_payloads {sessions : List Session} {frames : List Frame}
    (carried : Carries (sessions.map Session.iteration) frames) (source target cid : UInt8)
    (clear : ∀ s ∈ sessions, s.Clear (address source target cid)) :
    (Grep.grep (address source target cid ++ [':']) (Grep.text (Monitor.boot.printRun sessions))).map
        (fun line => (readDataLine line).payload) =
      ((frames.dropWhile fun f => ¬ f.SetsClock).filter fun f => f.addresses = (source, target, cid)).map
        Frame.payload := by
  obtain ⟨items, tail, rfl, whole, unfinished, bytes⟩ := carried
  have completed := items_completed Monitor.tracks_boot (fun _ => rfl) items whole unfinished bytes
  rw [if_neg (by decide), ← Monitor.printed_fst, List.filter_map, List.forall₂_map_left_iff] at completed
  have payloads := payloads_exposed completed source target cid
  have both : ∀ printed : Packet × PrintEnv, decide (printed.1.clock.initialized = true ∧ printed.1.source = source ∧
      printed.1.target = target ∧ printed.1.cid = cid) =
        (decide (printed.1.source = source ∧ printed.1.target = target ∧ printed.1.cid = cid) &&
          printed.1.clock.initialized) := by
    intro printed
    rw [Bool.decide_and, Bool.and_comm, Bool.decide_eq_true]
  rw [grep_address clear, List.map_map, ← payloads, List.filter_filter,
    List.filter_congr fun printed _ => both printed]
  exact List.map_congr_left fun printed _ =>
    congrArg Shown.payload (printed.1.readDataLine_dataLine _ (by decide))

/-- The data of the only one after the broadcast. -/
theorem dump_payloads_pumpOff :
    (Grep.grep (address 0x10 0x60 0x06 ++ [':']) (Grep.text (Monitor.boot.printRun [busySession]))).map
        (fun line => (readDataLine line).payload) =
      (([Frame.touch statusBroadcast, .touch pumpOff].dropWhile fun f => ¬ f.SetsClock).filter fun f =>
        f.addresses = (0x10, 0x60, 0x06)).map Frame.payload :=
  dump_payloads
    ⟨[⟨[], .touch statusBroadcast, by decide, by decide⟩, ⟨[], .touch pumpOff, by decide, by decide⟩], [], rfl,
      by decide, ⟨⟨[], .touch pumpOff, by decide, by decide⟩, pumpOff.bytes, by decide, rfl⟩, by decide⟩
    0x10 0x60 0x06 (busySession_clear (by decide))

end Pentair
