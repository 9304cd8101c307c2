import Pentair.Clock
import Pentair.Commands

/-! The `Packet` class of `packet.h` and `packet.cpp`: the receive state machine
`Push`, the record dispatch `ReadCommand`, and the readers and writers built on
them. Every field that these functions read or write is kept, with its width.

Bytes that a call reads from outside the packet's own storage come from `Env`, as
do the readings of the millisecond counter, so a statement over every `Env` holds
whatever they are. Debug output is left out. -/
namespace Pentair

/-- What one call takes from the world around the packet. -/
structure Env where
  /-- `millis()` as the clock is set. -/
  millisAtInit : UInt32
  /-- `millis()` as the clock is advanced. -/
  millisAtTime : UInt32
  /-- Bytes of memory around `buffer_`, by index relative to its start. -/
  outside : Int → UInt8
  /-- Bytes found through `data_` while nothing has ever been assigned to it. -/
  unset : ℕ → UInt8
  deriving Inhabited

/-- `sizeof(buffer_)`. -/
abbrev bufferSize : ℕ := 256

inductive State where
  | preambleState
  | versionState
  | destinationState
  | sourceState
  | commandState
  | lengthState
  | dataState
  | checksumState
  | intellichlorState
  deriving DecidableEq, Repr, Inhabited

/-- `data` is an index into `buffer`, or `none` before the first assignment. The
default value is that of static storage: all zero. -/
structure Packet where
  valid : Bool
  state : State
  pos : UInt8
  clock : Clock
  version : UInt8
  target : UInt8
  source : UInt8
  cid : UInt8
  command : Command
  dataLen : UInt8
  data : Option UInt8
  buffer : Vector UInt8 bufferSize
  bufferPos : UInt8
  checksumData : Vector UInt8 2
  checksum : UInt16
  records : Records
  deriving DecidableEq, Repr, Inhabited

def commandSystemStatus : UInt8 := 0x02
def commandTimeSettings : UInt8 := 0x05
def commandPumpControl : UInt8 := 0x06
def commandPumpStatus : UInt8 := 0x07
def commandHeatStatus : UInt8 := 0x08
def commandChlorinator : UInt8 := 0x50
def commandScheduleConfig : UInt8 := 0x11

def deviceControlCenter : UInt8 := 0x10
def deviceChlorinator : UInt8 := 0x70

/-- The result of `Push`. `reads` lists the offsets `k` of the `data_[k]` that
`ReadCommand` and the decoder it selected read during the call. -/
structure Pushed where
  complete : Bool
  packet : Packet
  reads : List ℕ := []

namespace Packet

/-- `Reset`. It leaves `data_`, the clock and the records alone. -/
def reset (self : Packet) : Packet :=
  { self with
    valid := false
    state := .preambleState
    pos := 0
    bufferPos := 0
    version := 0
    target := 0
    source := 0
    cid := 0
    command := .unknown
    dataLen := 0
    checksum := 0
    buffer := Vector.replicate bufferSize 0
    checksumData := Vector.replicate 2 0 }

/-- Switch to the next state and update the running checksum. -/
def nextState (self : Packet) (s : State) (check : UInt16) : Packet :=
  { self with state := s, pos := 0, checksum := self.checksum + check }

/-- `buffer_[i]`, for any index the code can form. -/
def bufferAt (self : Packet) (env : Env) (i : Int) : UInt8 :=
  match i with
  | .ofNat n => if inside : n < bufferSize then self.buffer[n] else env.outside i
  | .negSucc _ => env.outside i

/-- `data_[k]`. -/
def dataAt (self : Packet) (env : Env) (k : ℕ) : UInt8 :=
  match self.data with
  | some start => self.bufferAt env (start.toNat + k : ℕ)
  | none => env.unset k

/-- `checksum_data_[0]`. -/
def checksumHi (self : Packet) : UInt8 := self.checksumData[0]

/-- `checksum_data_[1]`. -/
def checksumLo (self : Packet) : UInt8 := self.checksumData[1]

/-- `data_[0..data_len_)`. -/
def payload (self : Packet) (env : Env) : List UInt8 :=
  (List.range self.dataLen.toNat).map (self.dataAt env)

/-! ## `ReadCommand` -/

/-- The switch of `ReadCommand`; without a matching case `command_` stays. -/
def selectCommand (self : Packet) : Decoder Command :=
  if self.cid = commandSystemStatus then pure .systemStatus
  else if self.cid = commandPumpStatus then
    pure (if deviceControlCenter = self.source then .pumpStatusRequest else .pumpStatusResponse)
  else if self.cid = commandPumpControl then
    pure (if deviceControlCenter = self.source then .pumpControlRequest else .pumpControlResponse)
  else if self.cid = commandChlorinator then do
    return if (← Reads.cell 0) = 0x50 then .chlorinatorRequest else .chlorinatorResponse
  else if self.cid = commandScheduleConfig then pure .scheduleConfig
  else if self.cid = commandTimeSettings then pure .timeSettings
  else if self.cid = commandHeatStatus then pure .heatStatus
  else pure self.command

/-- The clock part of `ReadCommand`: the time of a status broadcast sets the
clock, and an initialized clock is advanced on every command. -/
def maintainClock (self : Packet) (env : Env) : Clock :=
  let status := self.records.systemStatus
  let clock :=
    if commandSystemStatus = self.cid ∧ self.clock.minute < Int32.ofNat status.minutes.toNat then
      self.clock.initializeAt (Int32.ofNat status.hour.toNat) (Int32.ofNat status.minutes.toNat)
        env.millisAtInit.toInt32
    else self.clock
  if clock.initialized then clock.time env.millisAtTime else clock

/-- `ReadCommand`, with the offsets it read. -/
def readCommand (self : Packet) (env : Env) : Packet × List ℕ :=
  let selected := self.selectCommand.run (self.dataAt env)
  let self : Packet := { self with command := selected.1 }
  let decoded := (self.command.read self.records).run (self.dataAt env)
  let self : Packet := { self with records := decoded.1 }
  ({ self with clock := self.maintainClock env }, selected.2 ++ decoded.2)

/-! ## `Push` -/

/-- `case preamble_state`; `p` is the cell the byte was stored in. -/
def pushPreamble (self : Packet) (env : Env) (p : UInt8) : Packet :=
  let b := self.bufferAt env
  if p ≥ 3 ∧ b p.toNat = 0xA5 ∧ b (p.toNat - 1) = 0xFF ∧ b (p.toNat - 2) = 0x00 ∧
      b (p.toNat - 3) = 0xFF then
    -- the last preamble byte is part of the checksum
    self.nextState .versionState 0xA5
  else if p ≥ 1 ∧ b p.toNat = 0x02 ∧ b (p.toNat - 1) = 0x10 then
    -- both bytes of the start sequence are part of the checksum
    { self.nextState .intellichlorState 0x12 with data := some self.bufferPos }
  else self

/-- `case length_state`. -/
def pushLength (self : Packet) (c : UInt8) : Packet :=
  let self : Packet := { self with dataLen := c }
  if self.dataLen > 0 then
    { self with data := some self.bufferPos }.nextState .dataState c.toUInt16
  else self.nextState .checksumState c.toUInt16

/-- `case data_state`. -/
def pushData (self : Packet) (c : UInt8) : Packet :=
  let self : Packet := { self with pos := self.pos + 1, checksum := self.checksum + c.toUInt16 }
  if self.pos ≥ self.dataLen then self.nextState .checksumState 0 else self

/-- `case checksum_state`. An index past the two checksum bytes would be written
out of bounds; it is dropped here. -/
def pushChecksum (self : Packet) (env : Env) (c : UInt8) : Pushed :=
  let self : Packet := { self with
    checksumData := self.checksumData.setIfInBounds self.pos.toNat c, pos := self.pos + 1 }
  if self.pos ≥ 2 then
    let self := self.nextState .preambleState 0
    let chk := toUint16 self.checksumData[0] self.checksumData[1]
    if self.checksum = chk then
      let read := { self with valid := true }.readCommand env
      { complete := true, packet := read.1, reads := read.2 }
    else { complete := true, packet := { self with valid := false } }
  else { complete := false, packet := self }

/-- The checksum loop of `case intellichlor_state`, over `data_[0..data_len_)`. -/
def intellichlorChecksum (self : Packet) (env : Env) : UInt8 :=
  (List.range self.dataLen.toNat).foldl (fun checksum i => checksum + self.dataAt env i) 0x12

/-- `case intellichlor_state`. Here `p` is an `int`: one less than the position
after the store, so -1 when that has just wrapped to zero. -/
def pushIntellichlor (self : Packet) (env : Env) : Pushed :=
  let self : Packet := { self with dataLen := self.dataLen + 1 }
  let p : Int := self.bufferPos.toNat - 1
  let b := self.bufferAt env
  if p ≥ 1 ∧ b p = 0x03 ∧ b (p - 1) = 0x10 then
    let self := self.nextState .preambleState 0
    -- the data ended three bytes ago: one byte of checksum, two of terminator
    let self : Packet := { self with dataLen := self.dataLen - 3, checksumData := #v[0x00, b (p - 2)] }
    let chk := self.checksumData[1]
    let checksum := self.intellichlorChecksum env
    if checksum = chk then
      let self : Packet := { self with valid := true, cid := commandChlorinator }
      let self : Packet :=
        if self.dataAt env 0 = 0x50 then
          { self with source := deviceControlCenter, target := deviceChlorinator }
        else { self with source := deviceChlorinator, target := deviceControlCenter }
      let read := self.readCommand env
      { complete := true, packet := { read.1 with checksum := checksum.toUInt16 }, reads := read.2 }
    else
      { complete := true, packet := { self with valid := false, checksum := checksum.toUInt16 } }
  else { complete := false, packet := self }

/-- `buffer_[buffer_pos_++] = c`. -/
def store (self : Packet) (c : UInt8) : Packet :=
  { self with
    buffer := self.buffer.set self.bufferPos.toNat c self.bufferPos.toNat_lt
    bufferPos := self.bufferPos + 1 }

/-- `Push`. The overrun check compares a `uint8_t` with 256. -/
def push (self : Packet) (env : Env) (c : UInt8) : Pushed :=
  let self := if self.bufferPos.toNat > bufferSize then self.reset else self
  let p := self.bufferPos
  let self := self.store c
  match self.state with
  | .preambleState => { complete := false, packet := self.pushPreamble env p }
  | .versionState =>
    { complete := false, packet := { self with version := c }.nextState .destinationState c.toUInt16 }
  | .destinationState =>
    { complete := false, packet := { self with target := c }.nextState .sourceState c.toUInt16 }
  | .sourceState =>
    { complete := false, packet := { self with source := c }.nextState .commandState c.toUInt16 }
  | .commandState =>
    { complete := false, packet := { self with cid := c }.nextState .lengthState c.toUInt16 }
  | .lengthState => { complete := false, packet := self.pushLength c }
  | .dataState => { complete := false, packet := self.pushData c }
  | .checksumState => self.pushChecksum env c
  | .intellichlorState => self.pushIntellichlor env

/-! ## Hex text, `Make` and `WriteTo` -/

end Packet

def htoi (c : Char) : UInt8 :=
  if '0' ≤ c ∧ c ≤ '9' then UInt8.ofNat (c.toNat - '0'.toNat)
  else if 'a' ≤ c ∧ c ≤ 'f' then UInt8.ofNat (10 + c.toNat - 'a'.toNat)
  else if 'A' ≤ c ∧ c ≤ 'F' then UInt8.ofNat (10 + c.toNat - 'A'.toNat)
  else 0

namespace Packet

/-- `PushHex` on the characters before the terminating NUL. Blanks are skipped
where a pair may begin, and only there; a lone last digit is paired with the NUL.
The `n`th byte pushed meets `env n`. -/
def pushHex (self : Packet) (env : ℕ → Env) : List Char → Bool × Packet
  | [] => (false, self)
  | [hi] =>
    if hi ≠ ' ' ∧ hi ≠ '\t' then
      let pushed := self.push (env 0) (htoi hi * 16 + htoi '\x00')
      (pushed.complete, pushed.packet)
    else (false, self)
  | hi :: lo :: rest =>
    if hi ≠ ' ' ∧ hi ≠ '\t' then
      let pushed := self.push (env 0) (htoi hi * 16 + htoi lo)
      if pushed.complete then (true, pushed.packet)
      else pushed.packet.pushHex (fun n => env (n + 1)) rest
    else self.pushHex env (lo :: rest)

/-- `ReadFrom`. -/
def readFrom (self : Packet) (env : ℕ → Env) (s : List Char) : Bool × Packet :=
  self.reset.pushHex env s

/-- `Make`. The header takes the first seven pushes and the command byte the
eighth. -/
def make (self : Packet) (env : ℕ → Env) (cid : UInt8) (data : List Char) : Bool × Packet :=
  let self := self.reset
  let self := (self.pushHex env "ff 00 ff a5 25 10 20".toList).2
  let self := (self.push (env 7) cid).packet
  let self := (self.pushHex (fun n => env (n + 8)) data).2
  let self : Packet := { self with checksumData :=
    #v[((self.checksum / 256) &&& 0xFF).toUInt8, (self.checksum &&& 0xFF).toUInt8] }
  (self.valid, self)

/-- The bytes `WriteTo` writes, in order. -/
def writeTo (self : Packet) (env : Env) : List UInt8 :=
  if self.version = 0 then
    ([0x10, 0x02] : List UInt8) ++ self.payload env ++ [self.checksumData[1]] ++ [0x10, 0x03]
  else
    ([0xff, 0x00, 0xff, 0xa5] : List UInt8) ++ [self.version] ++ [self.target] ++ [self.source] ++ [self.cid] ++
      [self.dataLen] ++ self.payload env ++ [self.checksumData[0]] ++ [self.checksumData[1]]

end Packet
end Pentair
