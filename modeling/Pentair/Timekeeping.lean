import Mathlib.Tactic.Ring
import Pentair.Clock
import Pentair.Library.MixedRadix

/-! The clock as a counter of milliseconds, seconds, minutes and hours. Advancing it is
one carry through its places, which is exact as long as the milliseconds passed since the
last reading fit an `int` together with those already counted. -/
namespace Pentair

/-- A sum of two `int`s that fits is the sum. -/
theorem toInt_add_of_fits {a b : Int32} (low : -2 ^ 31 ≤ a.toInt + b.toInt) (high : a.toInt + b.toInt < 2 ^ 31) :
    (a + b).toInt = a.toInt + b.toInt := by
  rw [Int32.toInt_add]
  exact Int.bmod_eq_of_le (by omega) (by omega)

/-- A counter reading below 2^31 is not changed by reading it as signed. -/
theorem toInt_toInt32_of_lt {reading : UInt32} (small : reading.toNat < 2 ^ 31) :
    reading.toInt32.toInt = reading.toNat := by
  rw [← UInt32.ofNat_toNat (x := reading), UInt32.toInt32_ofNat', UInt32.ofNat_toNat]
  exact Int32.toInt_ofNat_of_lt small

@[simp] theorem toInt_ofNat_byte (b : UInt8) : (Int32.ofNat b.toNat).toInt = b.toNat := by
  have bound := b.toNat_lt
  exact Int32.toInt_ofNat_of_lt (by omega)

/-- The quotient of a truncating division does not leave its range. -/
theorem tdiv_bounds {a radix bound : ℤ} (positive : 0 < radix) (low : -(radix * bound) < a)
    (high : a < radix * bound) :
    -bound < a.tdiv radix ∧ a.tdiv radix < bound := by
  have above : ∀ b : ℤ, 0 ≤ b → b < radix * bound → 0 ≤ b.tdiv radix ∧ b.tdiv radix < bound := by
    intro b sign small
    have split := Int.tmod_add_mul_tdiv b radix
    have rest := Int.tmod_nonneg radix sign
    exact ⟨Int.tdiv_nonneg sign positive.le, by nlinarith⟩
  rcases le_total 0 a with sign | sign
  · obtain ⟨least, most⟩ := above a sign high
    omega
  · obtain ⟨least, most⟩ := above (-a) (by omega) (by omega)
    rw [Int.neg_tdiv] at least most
    omega

/-- One place of the chain: a digit and the whole multiples of its radix from below. -/
theorem toInt_add_div (digit lower radix : Int32) (bound : ℤ) (positive : 0 < radix.toInt)
    (low : -(radix.toInt * bound) < lower.toInt) (high : lower.toInt < radix.toInt * bound)
    (fits : -2 ^ 31 ≤ digit.toInt - bound ∧ digit.toInt + bound ≤ 2 ^ 31) :
    (digit + lower / radix).toInt = digit.toInt + lower.toInt.tdiv radix.toInt ∧
      -bound < lower.toInt.tdiv radix.toInt ∧ lower.toInt.tdiv radix.toInt < bound := by
  have quotient := Int32.toInt_div_of_ne_right lower radix (fun minus => by simp [minus] at positive)
  obtain ⟨least, most⟩ := tdiv_bounds positive low high
  refine ⟨?_, least, most⟩
  rw [toInt_add_of_fits] <;> rw [quotient]
  · omega
  · omega

namespace Clock

/-- The clock's places, milliseconds first. -/
def places (c : Clock) : MixedRadix.Counter :=
  [(1000, c.millisecond.toInt), (60, c.second.toInt), (60, c.minute.toInt), (24, c.hour.toInt)]

/-- Bounds that hold of every clock, however it was set and advanced. -/
structure Bounded (c : Clock) : Prop where
  hour : -256 < c.hour.toInt ∧ c.hour.toInt < 256
  minute : -256 < c.minute.toInt ∧ c.minute.toInt < 256
  second : -60 < c.second.toInt ∧ c.second.toInt < 60
  millisecond : -1000 < c.millisecond.toInt ∧ c.millisecond.toInt < 1000

theorem bounded_default : Bounded {} := by
  constructor <;> decide

theorem initializeAt_bounded (c : Clock) (h m : UInt8) (millis : Int32) :
    Bounded (c.initializeAt (Int32.ofNat h.toNat) (Int32.ofNat m.toNat) millis) := by
  have hBound := h.toNat_lt
  have mBound := m.toNat_lt
  constructor
  · simp only [initializeAt, toInt_ofNat_byte]
    omega
  · simp only [initializeAt, toInt_ofNat_byte]
    omega
  · change -60 < (0 : Int32).toInt ∧ (0 : Int32).toInt < 60
    decide
  · change -1000 < (0 : Int32).toInt ∧ (0 : Int32).toInt < 1000
    decide

variable {c : Clock}

/-- Advancing carries the milliseconds, those passed and those already counted, through the
places. -/
theorem advance_places (bounded : c.Bounded) (passed : Int32) :
    (c.advance passed).places =
      MixedRadix.carry ((1000, 0) :: c.places.tail) (c.millisecond + passed).toInt := by
  obtain ⟨⟨hLow, hHigh⟩, ⟨mLow, mHigh⟩, ⟨sLow, sHigh⟩, _⟩ := bounded
  have low := (c.millisecond + passed).le_toInt
  have high := (c.millisecond + passed).toInt_lt
  have thousand : (1000 : Int32).toInt = 1000 := rfl
  have sixty : (60 : Int32).toInt = 60 := rfl
  have twentyFour : (24 : Int32).toInt = 24 := rfl
  obtain ⟨second, sLeast, sMost⟩ := toInt_add_div c.second (c.millisecond + passed) 1000 3000000 (by decide)
    (by omega) (by omega) (by omega)
  rw [thousand] at second sLeast sMost
  obtain ⟨minute, mLeast, mMost⟩ := toInt_add_div c.minute (c.second + (c.millisecond + passed) / 1000) 60 60000
    (by decide) (by omega) (by omega) (by omega)
  rw [sixty] at minute mLeast mMost
  obtain ⟨hour, _, _⟩ := toInt_add_div c.hour (c.minute + (c.second + (c.millisecond + passed) / 1000) / 60) 60 2000
    (by decide) (by omega) (by omega) (by omega)
  rw [sixty] at hour
  simp only [places, advance, List.tail_cons, MixedRadix.carry_cons, MixedRadix.carry_nil, Int32.toInt_mod,
    thousand, sixty, twentyFour, zero_add, second, minute, hour]

/-- However far it is advanced, a clock is within its bounds. -/
theorem advance_bounded (c : Clock) (passed : Int32) : (c.advance passed).Bounded := by
  have remainder : ∀ (a : Int32) {radix : Int32}, 0 < radix.toInt →
      -radix.toInt < (a % radix).toInt ∧ (a % radix).toInt < radix.toInt := fun a radix positive => by
    rw [Int32.toInt_mod]
    exact ⟨Int.lt_tmod_of_pos _ positive, Int.tmod_lt_of_pos _ positive⟩
  have hour := remainder (c.hour + (c.minute + (c.second + (c.millisecond + passed) / 1000) / 60) / 60)
    (show 0 < (24 : Int32).toInt by decide)
  have minute := remainder (c.minute + (c.second + (c.millisecond + passed) / 1000) / 60)
    (show 0 < (60 : Int32).toInt by decide)
  have day : (24 : Int32).toInt = 24 := rfl
  have sixty : (60 : Int32).toInt = 60 := rfl
  rw [day] at hour
  rw [sixty] at minute
  exact ⟨⟨by simp only [advance]; omega, by simp only [advance]; omega⟩,
    ⟨by simp only [advance]; omega, by simp only [advance]; omega⟩,
    remainder (c.second + (c.millisecond + passed) / 1000) (show 0 < (60 : Int32).toInt by decide),
    remainder (c.millisecond + passed) (show 0 < (1000 : Int32).toInt by decide)⟩

theorem time_bounded (c : Clock) (millis : UInt32) : (c.time millis).Bounded := by
  have advanced := advance_bounded c (millis.toInt32 - c.lastMillis)
  exact ⟨advanced.hour, advanced.minute, advanced.second, advanced.millisecond⟩

/-! ## Polling -/

/-- The calls of `time` that find `readings`. -/
def poll (c : Clock) (readings : List UInt32) : Clock := readings.foldl time c

/-- The milliseconds between successive readings, across any wrap of the counter. -/
def gaps (last : UInt32) : List UInt32 → List ℕ
  | [] => []
  | now :: rest => (now - last).toNat :: gaps now rest

/-- A clock that was last read at `last` and has no negative digits. -/
structure Kept (c : Clock) (last : UInt32) : Prop where
  bounded : c.Bounded
  nonneg : MixedRadix.Nonneg c.places
  lastMillis : c.lastMillis = last.toInt32

theorem initializeAt_kept (c : Clock) (h m : UInt8) (start : UInt32) :
    Kept (c.initializeAt (Int32.ofNat h.toNat) (Int32.ofNat m.toNat) start.toInt32) start where
  bounded := initializeAt_bounded c h m start.toInt32
  nonneg := by
    have zero : (0 : Int32).toInt = 0 := rfl
    simp only [MixedRadix.Nonneg, places, initializeAt, List.forall_mem_cons, List.not_mem_nil, false_imp_iff,
      implies_true, and_true, toInt_ofNat_byte, zero]
    omega
  lastMillis := rfl

theorem radices_places (c : Clock) : c.places.map Prod.fst = [1000, 60, 60, 24] := rfl

variable {last now : UInt32}

/-- One poll carries the gap. -/
theorem time_places (kept : c.Kept last) (near : (now - last).toNat ≤ 2 ^ 31 - 1000) :
    (c.time now).places = MixedRadix.carry c.places (now - last).toNat := by
  have passed : (now.toInt32 - c.lastMillis).toInt = (now - last).toNat := by
    rw [kept.lastMillis, ← UInt32.toInt32_sub]
    exact toInt_toInt32_of_lt (by omega)
  obtain ⟨_, least⟩ : (0 : ℤ) < 1000 ∧ 0 ≤ c.millisecond.toInt := kept.nonneg _ List.mem_cons_self
  obtain ⟨_, most⟩ := kept.bounded.millisecond
  have sum : (c.millisecond + (now.toInt32 - c.lastMillis)).toInt = c.millisecond.toInt + (now - last).toNat := by
    rw [toInt_add_of_fits, passed] <;> rw [passed] <;> omega
  have advanced := advance_places kept.bounded (now.toInt32 - c.lastMillis)
  rw [sum] at advanced
  refine Eq.trans ?_ (advanced.trans ?_)
  · rfl
  · simp only [places, List.tail_cons, MixedRadix.carry_cons, zero_add]

/-- One poll keeps the clock, puts its digits in order and adds the gap. -/
theorem time_kept (kept : c.Kept last) (near : (now - last).toNat ≤ 2 ^ 31 - 1000) :
    Kept (c.time now) now ∧ MixedRadix.Normal (c.time now).places ∧
      MixedRadix.value (c.time now).places = (MixedRadix.value c.places + (now - last).toNat) % 86400000 := by
  have carried := time_places kept near
  have normal := MixedRadix.carry_normal kept.nonneg (Int.natCast_nonneg (now - last).toNat)
  have value := MixedRadix.value_carry_of_nonneg kept.nonneg (Int.natCast_nonneg (now - last).toNat)
  rw [← carried] at normal value
  refine ⟨⟨time_bounded c now, fun place member => ?_, rfl⟩, normal, value⟩
  obtain ⟨least, most⟩ := normal place member
  exact ⟨by omega, least⟩

/-- Any polls, however many, add all gaps. -/
theorem poll_value (kept : c.Kept last) {readings : List UInt32} (some : readings ≠ [])
    (near : ∀ gap ∈ gaps last readings, gap ≤ 2 ^ 31 - 1000) :
    MixedRadix.Normal (c.poll readings).places ∧
      MixedRadix.value (c.poll readings).places =
        (MixedRadix.value c.places + (gaps last readings).sum) % 86400000 := by
  induction readings generalizing c last with
  | nil => exact absurd rfl some
  | cons now rest ih =>
    rw [gaps, List.forall_mem_cons] at near
    obtain ⟨onward, normal, value⟩ := time_kept kept near.1
    cases rest with
    | nil =>
      refine ⟨normal, value.trans ?_⟩
      simp [gaps]
    | cons next rest =>
      obtain ⟨later, total⟩ := ih onward (List.cons_ne_nil next rest) near.2
      refine ⟨later, total.trans ?_⟩
      have sum : (gaps last (now :: next :: rest)).sum = (now - last).toNat + (gaps now (next :: rest)).sum := by
        rw [gaps, List.sum_cons]
      rw [value, Int.emod_add_emod, sum, Nat.cast_add, add_assoc]

/-- The value a clock starts from when it is set. -/
theorem value_initializeAt (c : Clock) (h m : UInt8) (millis : Int32) :
    MixedRadix.value (c.initializeAt (Int32.ofNat h.toNat) (Int32.ofNat m.toNat) millis).places =
      (h.toNat * 60 + m.toNat) * 60000 := by
  have zero : (0 : Int32).toInt = 0 := rfl
  simp only [places, initializeAt, MixedRadix.value_cons, MixedRadix.value_nil, toInt_ofNat_byte, zero]
  ring

/-- What the fields of a clock in order show. -/
theorem fields_of_normal (normal : MixedRadix.Normal c.places) :
    (0 ≤ c.hour.toInt ∧ c.hour.toInt < 24) ∧ (0 ≤ c.minute.toInt ∧ c.minute.toInt < 60) ∧
      (0 ≤ c.second.toInt ∧ c.second.toInt < 60) ∧ (0 ≤ c.millisecond.toInt ∧ c.millisecond.toInt < 1000) ∧
      ((c.hour.toInt * 60 + c.minute.toInt) * 60 + c.second.toInt) * 1000 + c.millisecond.toInt =
        MixedRadix.value c.places := by
  simp only [MixedRadix.Normal, places, List.forall_mem_cons, List.not_mem_nil, false_imp_iff, implies_true,
    and_true] at normal
  obtain ⟨millisecond, second, minute, hour⟩ := normal
  refine ⟨hour, minute, second, millisecond, ?_⟩
  simp only [places, MixedRadix.value_cons, MixedRadix.value_nil]
  ring

/-- Two clocks show the same time. -/
def SameTime (c d : Clock) : Prop :=
  c.hour = d.hour ∧ c.minute = d.minute ∧ c.second = d.second ∧ c.millisecond = d.millisecond

theorem sameTime_of_value {c d : Clock} (normal : MixedRadix.Normal c.places) (normal' : MixedRadix.Normal d.places)
    (same : MixedRadix.value c.places = MixedRadix.value d.places) : SameTime c d := by
  have equal : c.places = d.places := MixedRadix.normal_unique normal normal'
    ((radices_places c).trans (radices_places d).symm) same
  simp only [places, List.cons.injEq, Prod.mk.injEq, true_and, and_true] at equal
  obtain ⟨millisecond, second, minute, hour⟩ := equal
  exact ⟨Int32.toInt_inj.mp hour, Int32.toInt_inj.mp minute, Int32.toInt_inj.mp second,
    Int32.toInt_inj.mp millisecond⟩

end Clock

/-- A clock that was set to any hour and minute and polled often enough shows the time of
day that has passed since, and how that time was split between polls does not show. -/
theorem clock_keeps_time (c : Clock) (h m : UInt8) (start : UInt32) (readings : List UInt32) (some : readings ≠ [])
    (near : ∀ gap ∈ Clock.gaps start readings, gap ≤ 2 ^ 31 - 1000) :
    let set := c.initializeAt (Int32.ofNat h.toNat) (Int32.ofNat m.toNat) start.toInt32
    let clock := set.poll readings
    (0 ≤ clock.hour.toInt ∧ clock.hour.toInt < 24) ∧ (0 ≤ clock.minute.toInt ∧ clock.minute.toInt < 60) ∧
      (0 ≤ clock.second.toInt ∧ clock.second.toInt < 60) ∧
      (0 ≤ clock.millisecond.toInt ∧ clock.millisecond.toInt < 1000) ∧
      ((clock.hour.toInt * 60 + clock.minute.toInt) * 60 + clock.second.toInt) * 1000 + clock.millisecond.toInt =
        ((h.toNat * 60 + m.toNat) * 60000 + (Clock.gaps start readings).sum : ℤ) % 86400000 ∧
      ∀ others : List UInt32, others ≠ [] → (∀ gap ∈ Clock.gaps start others, gap ≤ 2 ^ 31 - 1000) →
        (Clock.gaps start others).sum = (Clock.gaps start readings).sum → Clock.SameTime (set.poll others) clock := by
  intro set clock
  have kept := Clock.initializeAt_kept c h m start
  obtain ⟨normal, value⟩ := Clock.poll_value kept some near
  obtain ⟨hour, minute, second, millisecond, total⟩ := Clock.fields_of_normal normal
  refine ⟨hour, minute, second, millisecond, ?_, fun others some' near' same => ?_⟩
  · rw [← Clock.value_initializeAt c h m start.toInt32, ← value]
    exact total
  · obtain ⟨normal', value'⟩ := Clock.poll_value kept some' near'
    exact Clock.sameTime_of_value normal' normal (by rw [value', same, value])

/-- Set a second before the counter wraps, and polled once before and once after. -/
theorem clock_keeps_time_across_wrap :
    let set := ({} : Clock).initializeAt (Int32.ofNat (UInt8.toNat 23)) (Int32.ofNat (UInt8.toNat 59))
      (UInt32.toInt32 4294966296)
    let clock := set.poll [4294966796, 59000]
    (0 ≤ clock.hour.toInt ∧ clock.hour.toInt < 24) ∧ (0 ≤ clock.minute.toInt ∧ clock.minute.toInt < 60) ∧
      (0 ≤ clock.second.toInt ∧ clock.second.toInt < 60) ∧
      (0 ≤ clock.millisecond.toInt ∧ clock.millisecond.toInt < 1000) ∧
      ((clock.hour.toInt * 60 + clock.minute.toInt) * 60 + clock.second.toInt) * 1000 + clock.millisecond.toInt =
        (((23 : UInt8).toNat * 60 + (59 : UInt8).toNat) * 60000 +
          (Clock.gaps 4294966296 [4294966796, 59000]).sum : ℤ) % 86400000 ∧
      ∀ others : List UInt32, others ≠ [] → (∀ gap ∈ Clock.gaps 4294966296 others, gap ≤ 2 ^ 31 - 1000) →
        (Clock.gaps 4294966296 others).sum = (Clock.gaps 4294966296 [4294966796, 59000]).sum →
        Clock.SameTime (set.poll others) clock :=
  clock_keeps_time {} 23 59 4294966296 [4294966796, 59000] (by decide) (by decide)

end Pentair
