import Pentair.Calls
import Pentair.Telemetry
import Pentair.Timekeeping

/-! How the clock is kept to the time of the control center. Every status broadcast
carries that time, and sets the clock if its minute is greater than the clock's own; the
hour is not compared, and a clock that was never set stands at minute zero. -/
namespace Pentair

/-- Minutes since midnight. -/
def Clock.minuteOfDay (c : Clock) : ℤ := c.hour.toInt * 60 + c.minute.toInt

/-- The whole minutes that milliseconds passed carry into a clock. -/
def Clock.minutesCarried (c : Clock) (passed : Int32) : ℤ :=
  (c.second.toInt + (c.millisecond + passed).toInt.tdiv 1000).tdiv 60

/-- A difference of at most one minute, whichever midnight lies between. -/
def WithinMinute (difference : ℤ) : Prop :=
  difference % 1440 = 0 ∨ difference % 1440 = 1 ∨ difference % 1440 = 1439

instance (difference : ℤ) : Decidable (WithinMinute difference) := inferInstanceAs (Decidable (_ ∨ _))

/-- The clock runs, and shows `h:m` give or take a minute. -/
def Clock.Follows (c : Clock) (h m : UInt8) : Prop :=
  c.initialized = true ∧ WithinMinute (c.minuteOfDay - (h.toNat * 60 + m.toNat))

/-- What a status broadcast of `h:m` needs to find for the clock to follow it. A clock whose
minute is below `m` is set, and then no minute may pass before it is advanced. Any other
clock is only advanced, so it must be running already and come out right by itself. -/
def Clock.Catches (c : Clock) (env : Env) (h m : UInt8) : Prop :=
  if c.minute < Int32.ofNat m.toNat then
    WithinMinute (((env.millisAtTime.toInt32 - env.millisAtInit.toInt32).toInt.tdiv 1000).tdiv 60)
  else
    c.initialized = true ∧
      WithinMinute (c.minuteOfDay + c.minutesCarried (env.millisAtTime.toInt32 - c.lastMillis) -
        (h.toNat * 60 + m.toNat))

theorem withinMinute_congr {a b : ℤ} (same : a ≡ b [ZMOD 1440]) : WithinMinute a ↔ WithinMinute b := by
  unfold WithinMinute
  rw [show a % 1440 = b % 1440 from same]

/-! ## Any clock -/

namespace Clock
variable {c : Clock}

/-- Reading the clock moves it on by the minutes carried. -/
theorem time_minuteOfDay (bounded : c.Bounded) (millis : UInt32) :
    (c.time millis).minuteOfDay ≡ c.minuteOfDay + c.minutesCarried (millis.toInt32 - c.lastMillis) [ZMOD 1440] := by
  -- the two upper places of the clock are a counter of minutes
  have carried := advance_places bounded (millis.toInt32 - c.lastMillis)
  simp only [places, List.tail_cons, MixedRadix.carry_cons, zero_add] at carried
  have upper : [(60, (c.time millis).minute.toInt), (24, (c.time millis).hour.toInt)] =
      MixedRadix.carry [(60, c.minute.toInt), (24, c.hour.toInt)]
        (c.minutesCarried (millis.toInt32 - c.lastMillis)) := congrArg (List.drop 2) carried
  have moved := MixedRadix.value_carry [(60, c.minute.toInt), (24, c.hour.toInt)]
    (c.minutesCarried (millis.toInt32 - c.lastMillis))
  rw [← upper] at moved
  simp only [MixedRadix.value_cons, MixedRadix.value_nil, MixedRadix.range_cons, MixedRadix.range_nil] at moved
  unfold minuteOfDay
  convert moved using 1 <;> ring

/-- A running clock that is advanced follows a time it comes out at. -/
theorem time_follows (bounded : c.Bounded) (millis : UInt32) (h m : UInt8) :
    (c.time millis).Follows h m ↔ c.initialized = true ∧
      WithinMinute (c.minuteOfDay + c.minutesCarried (millis.toInt32 - c.lastMillis) - (h.toNat * 60 + m.toNat)) :=
  and_congr_right fun _ => withinMinute_congr ((time_minuteOfDay bounded millis).sub_right _)

/-- A clock that has just been set follows the time it was set to, unless minutes have
passed. -/
theorem initializeAt_follows (c : Clock) (h m : UInt8) (start millis : UInt32) :
    ((c.initializeAt (Int32.ofNat h.toNat) (Int32.ofNat m.toNat) start.toInt32).time millis).Follows h m ↔
      WithinMinute (((millis.toInt32 - start.toInt32).toInt.tdiv 1000).tdiv 60) := by
  rw [time_follows (initializeAt_bounded c h m start.toInt32)]
  have shown : (c.initializeAt (Int32.ofNat h.toNat) (Int32.ofNat m.toNat) start.toInt32).minuteOfDay =
      h.toNat * 60 + m.toNat := by
    simp only [minuteOfDay, initializeAt, toInt_ofNat_byte]
  have carried : (c.initializeAt (Int32.ofNat h.toNat) (Int32.ofNat m.toNat) start.toInt32).minutesCarried
      (millis.toInt32 - start.toInt32) = ((millis.toInt32 - start.toInt32).toInt.tdiv 1000).tdiv 60 := by
    have zero : (0 : Int32).toInt = 0 := rfl
    simp only [minutesCarried, initializeAt, zero, zero_add, Int32.zero_add]
  change _ ∧ WithinMinute (_ + Clock.minutesCarried _ (millis.toInt32 - start.toInt32) - _) ↔ _
  rw [shown, carried, add_sub_cancel_left]
  exact and_iff_right rfl

end Clock

/-! ## The clock of a packet -/

namespace Packet
variable (self : Packet) (env : Env)

theorem maintainClock_bounded (bounded : self.clock.Bounded) : (self.maintainClock env).Bounded := by
  unfold maintainClock
  dsimp only
  split_ifs
  · exact Clock.time_bounded _ _
  · exact Clock.initializeAt_bounded _ _ _ _
  · exact Clock.time_bounded _ _
  · exact bounded

theorem payload_cell {k : ℕ} {b : UInt8} (cell : (self.payload env)[k]? = some b) : self.dataAt env k = b := by
  obtain ⟨inside, same⟩ := List.getElem?_eq_some_iff.mp cell
  simpa [payload] using same

/-- What the clock part of `ReadCommand` makes of a status record. -/
theorem maintainClock_follows (bounded : self.clock.Bounded) (status : self.cid = commandSystemStatus) :
    (self.maintainClock env).Follows self.records.systemStatus.hour self.records.systemStatus.minutes ↔
      self.clock.Catches env self.records.systemStatus.hour self.records.systemStatus.minutes := by
  unfold Clock.Catches
  by_cases behind : self.clock.minute < Int32.ofNat self.records.systemStatus.minutes.toNat
  · simp only [maintainClock, status, behind, and_self, if_true, Clock.initializeAt]
    exact Clock.initializeAt_follows self.clock _ _ _ _
  · by_cases running : self.clock.initialized = true
    · simp only [maintainClock, behind, and_false, if_false, running, if_true]
      exact (Clock.time_follows bounded _ _ _).trans (and_congr_left' (iff_of_true running trivial))
    · simp only [maintainClock, behind, and_false, if_false, running]
      exact iff_of_false (fun follows => running follows.1) (fun catches => Bool.false_ne_true catches.1)

/-- A status packet is decoded into the status record, whose time is in its first two
payload bytes. -/
theorem readCommand_status (status : self.cid = commandSystemStatus) :
    (self.readCommand env).1.records.systemStatus.hour = self.dataAt env 0 ∧
      (self.readCommand env).1.records.systemStatus.minutes = self.dataAt env 1 := by
  have selected : self.selectCommand.run (self.dataAt env) = (.systemStatus, []) := by
    unfold selectCommand
    rw [if_pos status]
    rfl
  unfold readCommand
  simp only [selected, Command.read, SystemStatus.read, Reads.run_bind, Reads.run_pure, Reads.run_cell]
  exact ⟨rfl, rfl⟩

theorem readCommand_follows (bounded : self.clock.Bounded) (status : self.cid = commandSystemStatus) :
    (self.readCommand env).1.clock.Follows (self.dataAt env 0) (self.dataAt env 1) ↔
      self.clock.Catches env (self.dataAt env 0) (self.dataAt env 1) := by
  obtain ⟨hour, minutes⟩ := self.readCommand_status env status
  have maintained := maintainClock_follows { (self.readCommand env).1 with clock := self.clock } env bounded status
  rw [← hour, ← minutes]
  exact maintained

end Packet

theorem bounded_preserved : Preserved fun p => p.clock.Bounded where
  push p env c bounded := by
    rcases p.push_cases env c with silent | ⟨ready, decoded⟩
    · rw [silent.untouched.clock]
      exact bounded
    · obtain ⟨checksum, packet⟩ := decoded.packet
      rw [packet]
      exact Packet.maintainClock_bounded _ env (by rw [← decoded.untouched.clock] at bounded; exact bounded)
  reset _ bounded := bounded
  checksumData _ _ bounded := bounded

/-- After a valid status broadcast of `h:m`, the clock of any packet follows it exactly if
it could be caught: the minute alone was compared. -/
theorem clock_follows_iff {p : Packet} (reached : Reachable p) (env : Env) (c h m : UInt8)
    (accepted : (p.push env c).Accepted) (status : (p.push env c).packet.cid = commandSystemStatus)
    (hour : ((p.push env c).packet.payload env)[0]? = some h)
    (minute : ((p.push env c).packet.payload env)[1]? = some m) :
    (p.push env c).packet.clock.Follows h m ↔ p.clock.Catches env h m := by
  have bounded : p.clock.Bounded := bounded_preserved.reachable (fun _ => Clock.bounded_default) reached
  rcases p.push_cases env c with silent | ⟨ready, decoded⟩
  · exact absurd (accepted.2.symm.trans (silent.invalid accepted.1)) (by decide)
  · obtain ⟨checksum, packet⟩ := decoded.packet
    have clock : ready.clock = p.clock := decoded.untouched.clock
    rw [packet] at status hour minute ⊢
    have shown := Packet.readCommand_follows ready env (by rw [clock]; exact bounded) status
    have first : ready.dataAt env 0 = h := Packet.payload_cell _ env hour
    have second : ready.dataAt env 1 = m := Packet.payload_cell _ env minute
    rw [first, second, clock] at shown
    exact shown

/-- The calls that push a frame but for its last byte. -/
def TouchFrame.calls (f : TouchFrame) (env : Env) : List Packet.Call := f.bytes.dropLast.map (.push env)

/-- The first status broadcast, at 12:14, sets the clock of a new packet. -/
theorem clock_follows_broadcast :
    let p := (default : Packet).construct.history (statusBroadcast.calls default)
    (p.push default statusBroadcast.checksumLo).packet.clock.Follows 0x0C 0x0E ↔ p.clock.Catches default 0x0C 0x0E :=
  clock_follows_iff (reachable_history (.construct default) _) default statusBroadcast.checksumLo 0x0C 0x0E
    (by decide +kernel) (by decide +kernel) (by decide +kernel) (by decide +kernel)

/-- A status broadcast at 12:00. -/
def noonBroadcast : TouchFrame :=
  { statusBroadcast with payload := 0x0C :: 0x00 :: statusBroadcast.payload.drop 2, short := by decide }

/-- On the hour the first status broadcast does not set the clock. -/
theorem clock_not_following :
    ¬ ∀ (p : Packet) (env : Env) (c h m : UInt8), Reachable p → env.millisAtInit = env.millisAtTime →
      (p.push env c).Accepted → (p.push env c).packet.cid = commandSystemStatus →
      ((p.push env c).packet.payload env)[0]? = some h → ((p.push env c).packet.payload env)[1]? = some m →
      h < 24 → m < 60 → (p.push env c).packet.clock.Follows h m := by
  intro follows
  have noon := follows ((default : Packet).construct.history (noonBroadcast.calls default)) default
    noonBroadcast.checksumLo 0x0C 0x00 (reachable_history (.construct default) _) rfl (by decide +kernel)
    (by decide +kernel) (by decide +kernel) (by decide +kernel) (by decide) (by decide)
  exact absurd noon.1 (by decide +kernel)

end Pentair
