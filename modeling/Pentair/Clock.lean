import Mathlib.Data.Nat.Notation

/-! The on-board clock of `clock.h`. On the ESP8266 `int` and `long` are both 32
bits wide and `millis()` is a 32-bit unsigned counter. -/
namespace Pentair

structure Clock where
  hour : Int32 := 0
  minute : Int32 := 0
  second : Int32 := 0
  millisecond : Int32 := 0
  lastMillis : Int32 := 0
  initialized : Bool := false
  deriving DecidableEq, Repr, Inhabited

namespace Clock

/-- `initialize(h, m, millis)`; the two-argument overload passes `millis()`. -/
def initializeAt (_ : Clock) (h m millis : Int32) : Clock where
  hour := h
  minute := m
  second := 0
  millisecond := 0
  lastMillis := millis
  initialized := true

/-- `advance`: each unit carries its whole multiples into the next. Division and
remainder truncate, as in C. -/
def advance (self : Clock) (passed : Int32) : Clock :=
  let millisecond := self.millisecond + passed
  let second := self.second + millisecond / 1000
  let minute := self.minute + second / 60
  let hour := self.hour + minute / 60
  { self with
    hour := hour % 24
    minute := minute % 60
    second := second % 60
    millisecond := millisecond % 1000 }

/-- `time`, with the value `millis()` returns to it. -/
def time (self : Clock) (millis : UInt32) : Clock :=
  let now := millis.toInt32
  { self.advance (now - self.lastMillis) with lastMillis := now }

end Clock
end Pentair
