import Mathlib.Data.List.Chain
import Pentair.Reporting
import Pentair.Synchronisation

/-! The clock over whole runs. Whether it follows a broadcast depends on what it shows by
then, but a control center that is right about the time never leaves it far off: once set,
the clock never leads that time, and it trails by less than a minute and the time that a
broadcast takes to be processed. -/
namespace Pentair

/-- A byte and when it was received, in milliseconds that never wrap. -/
structure Moment where
  time : ℕ
  arrival : Arrival

/-- The valid packets that a stream completes, and when. -/
def Packet.heardAt (p : Packet) : List Moment → List (Moment × Telegram)
  | [] => []
  | m :: rest =>
    (if (p.push m.arrival.env m.arrival.byte).Accepted then
      [(m, (p.push m.arrival.env m.arrival.byte).packet.telegram m.arrival.env)] else []) ++
      (Packet.recognizer.round p m.arrival).heardAt rest

/-- A packet that was composed at most `delay` before it was processed, with the time of day
of that moment in it when it is a status broadcast. The time of day is counted from
`origin`. -/
def OnTime (origin delay : ℕ) (said : Moment × Telegram) : Prop :=
  said.1.arrival.env.millisAtTime = UInt32.ofNat said.1.time ∧
    ∃ sent set, sent ≤ set ∧ set ≤ said.1.time ∧ said.1.time ≤ sent + delay ∧
      said.1.arrival.env.millisAtInit = UInt32.ofNat set ∧
      (said.2.kind = .systemStatus →
        (said.2.memory 0).toNat = (origin + sent) / 3600000 % 24 ∧
          (said.2.memory 1).toNat = (origin + sent) / 60000 % 60)

/-- All packets are on time, and no two of them are too far apart for the counter. -/
structure Truthful (origin delay : ℕ) (heard : List (Moment × Telegram)) : Prop where
  onTime : ∀ said ∈ heard, OnTime origin delay said
  near : heard.IsChain fun said next => said.1.time ≤ next.1.time ∧ next.1.time ≤ said.1.time + (2 ^ 31 - 1000)

namespace Clock

/-- The fields are in range, and show the time of day `now` or a time less than `bound` before. -/
structure Trails (c : Clock) (origin now bound : ℕ) : Prop where
  hour : 0 ≤ c.hour.toInt ∧ c.hour.toInt < 24
  minute : 0 ≤ c.minute.toInt ∧ c.minute.toInt < 60
  second : 0 ≤ c.second.toInt ∧ c.second.toInt < 60
  millisecond : 0 ≤ c.millisecond.toInt ∧ c.millisecond.toInt < 1000
  behind : ∃ lag < bound,
    (((c.hour.toInt * 60 + c.minute.toInt) * 60 + c.second.toInt) * 1000 + c.millisecond.toInt + lag) % 86400000 =
      ((origin + now : ℕ) : ℤ) % 86400000

/-- What a valid packet does to the clock. -/
def heard (c : Clock) (said : Moment × Telegram) : Clock :=
  let clock :=
    if said.2.kind = .systemStatus ∧ c.minute < Int32.ofNat (said.2.memory 1).toNat then
      c.initializeAt (Int32.ofNat (said.2.memory 0).toNat) (Int32.ofNat (said.2.memory 1).toNat)
        said.1.arrival.env.millisAtInit.toInt32
    else c
  if clock.initialized then clock.time said.1.arrival.env.millisAtTime else clock

/-! ## One packet -/

/-- A clock that was last read at `last`, and then trailed. -/
structure Lags (c : Clock) (origin last bound : ℕ) : Prop where
  kept : c.Kept (UInt32.ofNat last)
  behind : ∃ lag < bound, (MixedRadix.value c.places + lag) % 86400000 = ((origin + last : ℕ) : ℤ) % 86400000

variable {c : Clock} {origin last now bound : ℕ}

private theorem counter_gap (order : last ≤ now) (near : now ≤ last + (2 ^ 31 - 1000)) :
    (UInt32.ofNat now - UInt32.ofNat last).toNat = now - last := by
  simp only [UInt32.toNat_sub, UInt32.toNat_ofNat']
  omega

/-- Reading the clock does not change how far it trails. -/
theorem Lags.time (lags : c.Lags origin last bound) (order : last ≤ now) (near : now ≤ last + (2 ^ 31 - 1000)) :
    (c.time (UInt32.ofNat now)).Lags origin now bound ∧ MixedRadix.Normal (c.time (UInt32.ofNat now)).places := by
  have gap := counter_gap order near
  obtain ⟨kept, normal, value⟩ := time_kept lags.kept (by rw [gap]; omega)
  rw [gap] at value
  obtain ⟨lag, small, behind⟩ := lags.behind
  refine ⟨⟨kept, lag, small, ?_⟩, normal⟩
  rw [value]
  omega

theorem Lags.trails (lags : c.Lags origin now bound) (normal : MixedRadix.Normal c.places) :
    c.Trails origin now bound := by
  obtain ⟨hour, minute, second, millisecond, total⟩ := fields_of_normal normal
  refine ⟨hour, minute, second, millisecond, ?_⟩
  rw [total]
  exact lags.behind

/-- A clock that is set trails by the seconds that a broadcast leaves out, and its delay. -/
theorem initializeAt_lags (c : Clock) {h m : UInt8} {sent set : ℕ} (hour : h.toNat = (origin + sent) / 3600000 % 24)
    (minute : m.toNat = (origin + sent) / 60000 % 60) (order : sent ≤ set) (soon : set ≤ sent + bound) :
    (c.initializeAt (Int32.ofNat h.toNat) (Int32.ofNat m.toNat) (UInt32.ofNat set).toInt32).Lags origin set
      (60000 + bound) := by
  refine ⟨initializeAt_kept c h m (UInt32.ofNat set), (origin + sent) % 60000 + (set - sent), by omega, ?_⟩
  rw [value_initializeAt, hour, minute]
  omega

variable {delay : ℕ} {said : Moment × Telegram}

/-- A packet on time leaves a clock that runs trailing by less than `60000 + delay`. -/
theorem heard_lags (onTime : OnTime origin delay said) (near : delay ≤ 2 ^ 31 - 1000)
    (before : c.initialized = true → c.Lags origin last (60000 + delay) ∧ last ≤ said.1.time ∧
      said.1.time ≤ last + (2 ^ 31 - 1000)) (running : (c.heard said).initialized = true) :
    (c.heard said).Lags origin said.1.time (60000 + delay) ∧ MixedRadix.Normal (c.heard said).places := by
  obtain ⟨reading, sent, set, order, processed, soon, readingAtInit, status⟩ := onTime
  unfold heard at running ⊢
  dsimp only at running ⊢
  rw [reading, readingAtInit] at running ⊢
  by_cases behind : said.2.kind = .systemStatus ∧ c.minute < Int32.ofNat (said.2.memory 1).toNat
  · rw [if_pos behind] at running ⊢
    obtain ⟨hour, minute⟩ := status behind.1
    have lags := initializeAt_lags c hour minute order (show set ≤ sent + delay by omega)
    have started : (c.initializeAt (Int32.ofNat (said.2.memory 0).toNat) (Int32.ofNat (said.2.memory 1).toNat)
      (UInt32.ofNat set).toInt32).initialized = true := rfl
    rw [if_pos started]
    exact lags.time processed (by omega)
  · rw [if_neg behind] at running ⊢
    cases already : c.initialized with
    | false => simp [already] at running
    | true =>
      obtain ⟨lags, later, close⟩ := before already
      rw [if_pos rfl]
      exact lags.time later close

/-- A clock that does not run was not set, and then every broadcast was on the hour. -/
theorem heard_stopped (stopped : (c.heard said).initialized = false) :
    c.heard said = c ∧ (said.2.kind = .systemStatus → c.minute = 0 → said.2.memory 1 = 0) := by
  unfold heard at stopped ⊢
  dsimp only at stopped ⊢
  by_cases behind : said.2.kind = .systemStatus ∧ c.minute < Int32.ofNat (said.2.memory 1).toNat
  · rw [if_pos behind] at stopped
    simp [time, advance, initializeAt] at stopped
  · rw [if_neg behind] at stopped ⊢
    cases already : c.initialized with
    | true => simp [already, time, advance] at stopped
    | false =>
      refine ⟨if_neg Bool.false_ne_true, fun kind zero => ?_⟩
      have least : ¬ (0 : Int32) < Int32.ofNat (said.2.memory 1).toNat := fun positive =>
        behind ⟨kind, by rw [zero]; exact positive⟩
      rw [Int32.lt_iff_toInt_lt, toInt_ofNat_byte] at least
      have none : (said.2.memory 1).toNat = 0 := by
        have zero : (0 : Int32).toInt = 0 := rfl
        omega
      exact UInt8.toNat_inj.mp none

/-! ## Runs -/

/-- After any packets on time, a clock that runs trails, and one that does not has met no
broadcast but on the hour. -/
theorem foldl_heard {heards : List (Moment × Telegram)} (truthful : Truthful origin delay heards)
    (near : delay ≤ 2 ^ 31 - 1000) :
    ((heards.foldl heard {}).initialized = true → ∃ last ∈ heards.getLast?,
      (heards.foldl heard {}).Lags origin last.1.time (60000 + delay) ∧
        MixedRadix.Normal (heards.foldl heard {}).places) ∧
    ((heards.foldl heard {}).initialized = false → heards.foldl heard {} = {} ∧
      ∀ said ∈ heards, said.2.kind = .systemStatus → said.2.memory 1 = 0) := by
  induction heards using List.reverseRecOn with
  | nil =>
    refine ⟨fun running => ?_, fun _ => ⟨rfl, nofun⟩⟩
    cases running
  | append_singleton earlier said ih =>
    obtain ⟨onTime, chained⟩ := truthful
    obtain ⟨before, _, joined⟩ := List.isChain_append.mp chained
    obtain ⟨running, stopped⟩ := ih ⟨fun other member => onTime other (List.mem_append_left _ member), before⟩
    rw [List.foldl_concat]
    refine ⟨fun started => ⟨said, by simp, ?_⟩, fun idle => ?_⟩
    · have here : OnTime origin delay said := onTime said (by simp)
      cases already : (earlier.foldl heard {}).initialized with
      | false =>
        have running : (earlier.foldl heard {}).initialized = true →
            (earlier.foldl heard {}).Lags origin 0 (60000 + delay) ∧ 0 ≤ said.1.time ∧
              said.1.time ≤ 0 + (2 ^ 31 - 1000) := fun running => by simp [already] at running
        exact heard_lags here near running started
      | true =>
        obtain ⟨last, member, lags, _⟩ := running already
        exact heard_lags here near (fun _ => ⟨lags, joined last member said (by simp)⟩) started
    · obtain ⟨same, none⟩ := heard_stopped idle
      rw [same] at idle ⊢
      obtain ⟨new, zeros⟩ := stopped idle
      refine ⟨new, fun other member kind => ?_⟩
      rcases List.mem_append.mp member with early | late
      · exact zeros other early kind
      · obtain rfl := List.mem_singleton.mp late
        exact none kind (by rw [new])

end Clock
/-- Status broadcasts are the packets that the clock part of `ReadCommand` looks at. -/
theorem selection_systemStatus {cid source first : UInt8} :
    selection cid source first = .systemStatus ↔ commandSystemStatus = cid := by
  unfold selection
  split_ifs with status <;> simp_all [eq_comm]

namespace Packet

theorem maintainClock_eq (self : Packet) {m : Moment} {said : Telegram}
    (kind : said.kind = .systemStatus ↔ commandSystemStatus = self.cid)
    (shown : commandSystemStatus = self.cid →
      self.records.systemStatus.hour = said.memory 0 ∧ self.records.systemStatus.minutes = said.memory 1) :
    self.maintainClock m.arrival.env = self.clock.heard (m, said) := by
  unfold maintainClock Clock.heard
  by_cases status : commandSystemStatus = self.cid
  · obtain ⟨hour, minutes⟩ := shown status
    simp only [kind.mpr status, status, hour, minutes, true_and]
  · have other : ¬ said.kind = .systemStatus := fun same => status (kind.mp same)
    simp only [other, status, false_and, if_false]

/-- A valid packet does to the clock what `heard` does, and nothing else does anything to it. -/
theorem push_clock (p : Packet) (m : Moment) :
    (p.push m.arrival.env m.arrival.byte).packet.clock =
      if (p.push m.arrival.env m.arrival.byte).Accepted then
        p.clock.heard (m, (p.push m.arrival.env m.arrival.byte).packet.telegram m.arrival.env)
      else p.clock := by
  rcases p.push_cases m.arrival.env m.arrival.byte with silent | ⟨ready, decoded⟩
  · have refused : ¬ (p.push m.arrival.env m.arrival.byte).Accepted := fun accepted =>
      absurd (accepted.2.symm.trans (silent.invalid accepted.1)) (by decide)
    rw [if_neg refused]
    exact silent.untouched.clock
  · obtain ⟨checksum, packet⟩ := decoded.packet
    have accepted : (p.push m.arrival.env m.arrival.byte).Accepted :=
      ⟨decoded.complete, (congrArg Packet.valid packet).trans decoded.valid⟩
    have clock : ready.clock = p.clock := decoded.untouched.clock
    rw [if_pos accepted, packet, ← clock]
    refine maintainClock_eq { (ready.readCommand m.arrival.env).1 with clock := ready.clock } selection_systemStatus
      fun status => ?_
    exact ready.readCommand_status m.arrival.env status.symm

/-- The clock after a stream was set and advanced by every packet heard, and by nothing else. -/
theorem feed_clock (p : Packet) (moments : List Moment) :
    (Packet.recognizer.feed p (moments.map Moment.arrival)).clock =
      (p.heardAt moments).foldl Clock.heard p.clock := by
  induction moments generalizing p with
  | nil => rfl
  | cons m rest ih =>
    have pushed := p.push_clock m
    have round :
        (Packet.recognizer.round p m.arrival).clock = (p.push m.arrival.env m.arrival.byte).packet.clock := by
      cases reported : (Packet.recognizer.step p m.arrival).1 with
      | true =>
        rw [Recognizer.round_of_complete reported]
        rfl
      | false =>
        rw [Recognizer.round_of_incomplete reported]
        rfl
    rw [List.map_cons, Recognizer.feed_cons, ih, heardAt, List.foldl_append,
      round, pushed]
    split_ifs <;> rfl

theorem heardAt_append (p : Packet) (first second : List Moment) :
    p.heardAt (first ++ second) =
      p.heardAt first ++ (Packet.recognizer.feed p (first.map Moment.arrival)).heardAt second := by
  induction first generalizing p with
  | nil => rfl
  | cons m rest ih =>
    rw [List.cons_append, heardAt, heardAt, ih, List.append_assoc, List.map_cons, Recognizer.feed_cons]

/-- A byte that completes a valid packet. -/
theorem heardAt_concat {p : Packet} {moments : List Moment} {m : Moment}
    (accepted :
      ((Packet.recognizer.feed p (moments.map Moment.arrival)).push m.arrival.env m.arrival.byte).Accepted) :
    p.heardAt (moments ++ [m]) = p.heardAt moments ++
      [(m, ((Packet.recognizer.feed p (moments.map Moment.arrival)).push m.arrival.env
        m.arrival.byte).packet.telegram m.arrival.env)] := by
  rw [heardAt_append, heardAt, if_pos accepted]
  rfl

end Packet

/-- In every run of a new packet whose valid packets are on time, after each of them the clock
trails the control center by less than a minute and the delay, and never leads it; it does
not run only as long as every broadcast was on the hour. -/
theorem clock_trails (memory : Packet) (origin delay : ℕ) (moments : List Moment) (m : Moment)
    (near : delay ≤ 2 ^ 31 - 1000) (truthful : Truthful origin delay (memory.construct.heardAt (moments ++ [m])))
    (accepted : ((Packet.recognizer.feed memory.construct (moments.map Moment.arrival)).push m.arrival.env
      m.arrival.byte).Accepted) :
    let clock := ((Packet.recognizer.feed memory.construct (moments.map Moment.arrival)).push m.arrival.env
      m.arrival.byte).packet.clock
    (clock.initialized = true → clock.Trails origin m.time (60000 + delay)) ∧
      (clock.initialized = false →
        ∀ said ∈ memory.construct.heardAt (moments ++ [m]), said.2.kind = .systemStatus → said.2.memory 1 = 0) := by
  intro clock
  have heard := Packet.heardAt_concat accepted
  have shown : clock = (memory.construct.heardAt (moments ++ [m])).foldl Clock.heard {} := by
    have last : clock = _ := Packet.push_clock _ m
    rw [last, if_pos accepted, heard, List.foldl_concat, Packet.feed_clock]
    rfl
  obtain ⟨running, stopped⟩ := Clock.foldl_heard truthful near
  rw [← shown] at running stopped
  refine ⟨fun started => ?_, fun idle => (stopped idle).2⟩
  obtain ⟨last, member, lags, normal⟩ := running started
  rw [heard, List.getLast?_concat] at member
  cases member
  exact lags.trails normal

/-- A byte received at `time`, for a call that looks at the counter at `set` as well. -/
def Moment.at (set time : ℕ) (c : UInt8) : Moment :=
  ⟨time, ⟨{ (default : Env) with millisAtInit := UInt32.ofNat set, millisAtTime := UInt32.ofNat time }, c⟩⟩

/-- A broadcast of 12:14 that is processed five seconds and a tenth into that minute. -/
def firstBroadcast : List Moment := statusBroadcast.bytes.map (Moment.at 44045090 44045100)

/-- All but the last byte of the next one, two seconds later. -/
def nextBroadcast : List Moment := statusBroadcast.front.map (Moment.at 44047000 44047000)

private theorem heardAt_firstBroadcast : ∃ telegram : Telegram,
    (default : Packet).construct.heardAt firstBroadcast =
      [(Moment.at 44045090 44045100 statusBroadcast.checksumLo, telegram)] ∧
      telegram.memory 0 = 12 ∧ telegram.memory 1 = 14 := by
  have bytes : firstBroadcast = statusBroadcast.front.map (Moment.at 44045090 44045100) ++
      [Moment.at 44045090 44045100 statusBroadcast.checksumLo] := by
    rw [firstBroadcast, statusBroadcast.bytes_eq_front, List.map_append]
    rfl
  have silent : (default : Packet).construct.heardAt (statusBroadcast.front.map (Moment.at 44045090 44045100)) = [] :=
    List.eq_nil_of_length_eq_zero (by decide +kernel)
  rw [bytes, Packet.heardAt_concat (by decide +kernel), silent]
  exact ⟨_, rfl, by decide +kernel, by decide +kernel⟩

/-- Two broadcasts of the same minute, the second of which does not set the clock. -/
theorem clock_trails_broadcasts :
    let m := Moment.at 44047090 44047100 statusBroadcast.checksumLo
    let clock := ((Packet.recognizer.feed (default : Packet).construct
      ((firstBroadcast ++ nextBroadcast).map Moment.arrival)).push m.arrival.env m.arrival.byte).packet.clock
    (clock.initialized = true → clock.Trails 0 m.time (60000 + 100)) ∧
      (clock.initialized = false →
        ∀ said ∈ (default : Packet).construct.heardAt (firstBroadcast ++ nextBroadcast ++ [m]),
          said.2.kind = .systemStatus → said.2.memory 1 = 0) := by
  intro m
  have accepted : ((Packet.recognizer.feed (default : Packet).construct
      ((firstBroadcast ++ nextBroadcast).map Moment.arrival)).push m.arrival.env m.arrival.byte).Accepted := by
    decide +kernel
  have silent : (Packet.recognizer.feed (default : Packet).construct
      (firstBroadcast.map Moment.arrival)).heardAt nextBroadcast = [] :=
    List.eq_nil_of_length_eq_zero (by decide +kernel)
  obtain ⟨telegram, first, hour, minutes⟩ := heardAt_firstBroadcast
  refine clock_trails default 0 100 _ m (by decide) ?_ accepted
  rw [Packet.heardAt_concat accepted, Packet.heardAt_append, first, silent]
  have near : 44045100 ≤ 44047100 ∧ 44047100 ≤ 44045100 + (2 ^ 31 - 1000) := by decide
  refine ⟨fun said member => ?_, List.isChain_pair.mpr near⟩
  rcases List.mem_pair.mp member with rfl | rfl
  · have delayed : 44045090 ≤ 44045100 ∧ 44045100 ≤ 44045000 + 100 := by decide
    refine ⟨rfl, 44045000, 44045090, by decide, delayed.1, delayed.2, rfl, fun _ => ?_⟩
    rw [hour, minutes]
    decide
  · exact ⟨rfl, 44047000, 44047090, by decide, by decide, by decide, rfl, fun _ => by decide +kernel⟩

end Pentair
