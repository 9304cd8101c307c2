import Pentair.Library.Reads

/-! The command records of `packet.h` and the decoders that fill them from a
packet's payload. A decoder receives only a pointer to the payload, so each is a
program that reads payload bytes by offset; which offsets it reads is part of its
meaning. -/
namespace Pentair

def toUint16 (hi lo : UInt8) : UInt16 := hi.toUInt16 * 256 + lo.toUInt16

/-- The records a `Packet` keeps one instance of. `unknown` holds no data. -/
inductive Command where
  | unknown
  | systemStatus
  | pumpStatusRequest
  | pumpStatusResponse
  | pumpControlRequest
  | pumpControlResponse
  | scheduleConfig
  | timeSettings
  | heatStatus
  | chlorinatorRequest
  | chlorinatorResponse
  deriving DecidableEq, Repr, Inhabited

structure SystemStatus where
  hour : UInt8
  minutes : UInt8
  circuits : Vector Bool 8
  mode : UInt8
  celcius : Bool
  solar : Bool
  airTemp : UInt8
  poolTemp : UInt8
  spaTemp : UInt8
  solarTemp : UInt8
  poolHeatSource : UInt8
  spaHeatSource : UInt8
  deriving DecidableEq, Repr, Inhabited

structure ChlorinatorRequest where
  mode : Bool
  percent : UInt8
  deriving DecidableEq, Repr, Inhabited

structure ChlorinatorResponse where
  salinity : UInt16
  inspectCell : UInt8
  deriving DecidableEq, Repr, Inhabited

structure TimeSettings where
  hour : UInt8
  minute : UInt8
  weekDay : UInt8
  day : UInt8
  month : UInt8
  year : UInt8
  clockAccuracyOffset : Int32
  autoAdjustDst : Bool
  deriving DecidableEq, Repr, Inhabited

structure PumpControlRequest where
  running : Bool
  deriving DecidableEq, Repr, Inhabited

structure PumpControlResponse where
  running : Bool
  deriving DecidableEq, Repr, Inhabited

structure PumpStatusRequest where
  deriving DecidableEq, Repr, Inhabited

structure PumpStatusResponse where
  running : Bool
  watts : UInt16
  rpms : UInt16
  hour : UInt8
  minutes : UInt8
  priming : Bool
  deriving DecidableEq, Repr, Inhabited

structure HeatStatus where
  poolTemp : UInt8
  spaTemp : UInt8
  airTemp : UInt8
  solarTemp : UInt8
  poolTempTarget : UInt8
  poolHeatSource : UInt8
  spaTempTarget : UInt8
  spaHeatSource : UInt8
  deriving DecidableEq, Repr, Inhabited

structure ScheduleConfig where
  circuit : UInt8
  startHour : UInt8
  startMinute : UInt8
  stopHour : UInt8
  stopMinute : UInt8
  activeDays : UInt8
  deriving DecidableEq, Repr, Inhabited

/-- One instance of each record, so that none is ever allocated. -/
structure Records where
  systemStatus : SystemStatus
  pumpStatusRequest : PumpStatusRequest
  pumpStatusResponse : PumpStatusResponse
  pumpControlRequest : PumpControlRequest
  pumpControlResponse : PumpControlResponse
  scheduleConfig : ScheduleConfig
  timeSettings : TimeSettings
  heatStatus : HeatStatus
  chlorinatorRequest : ChlorinatorRequest
  chlorinatorResponse : ChlorinatorResponse
  deriving DecidableEq, Repr, Inhabited

/-! ## Decoders -/

/-- A program over the bytes `data_[0], data_[1], …`. -/
abbrev Decoder := Reads UInt8

namespace SystemStatus

/-- The loop body for one circuit; it reads `data_[CIRCUITS]` again each time. -/
def circuit (c : UInt8) : Decoder Bool := do
  return (← Reads.cell 2) &&& (1 <<< c) ≠ 0

def read : Decoder SystemStatus := do
  return {
    hour := ← Reads.cell 0
    minutes := ← Reads.cell 1
    circuits := #v[← circuit 0, ← circuit 1, ← circuit 2, ← circuit 3,
      ← circuit 4, ← circuit 5, ← circuit 6, ← circuit 7]
    mode := (← Reads.cell 9) &&& 0x81
    celcius := (← Reads.cell 9) &&& 0x4 = 0x4
    solar := (← Reads.cell 10) &&& 0x30 = 0x30
    poolHeatSource := (← Reads.cell 22) &&& 0x03
    spaHeatSource := ((← Reads.cell 22) >>> 2) &&& 0x03
    airTemp := ← Reads.cell 18
    poolTemp := ← Reads.cell 14
    spaTemp := ← Reads.cell 15
    solarTemp := ← Reads.cell 19 }

end SystemStatus

def ChlorinatorRequest.read : Decoder ChlorinatorRequest := do
  return {
    mode := (← Reads.cell 1) = 0x11
    percent := ← Reads.cell 2 }

def ChlorinatorResponse.read : Decoder ChlorinatorResponse := do
  return {
    salinity := (← Reads.cell 2).toUInt16 * 50
    inspectCell := (← Reads.cell 3) &&& 0x10 }

/-- The high bit of the accuracy byte is the sign, the rest counts steps of five
seconds. -/
def TimeSettings.read : Decoder TimeSettings := do
  return {
    hour := ← Reads.cell 0
    minute := ← Reads.cell 1
    weekDay := ← Reads.cell 2
    day := ← Reads.cell 3
    month := ← Reads.cell 4
    year := ← Reads.cell 5
    clockAccuracyOffset :=
      (if (← Reads.cell 6) &&& 0x80 ≠ 0 then -5 else 5) *
        Int32.ofNat ((← Reads.cell 6) &&& 0x7F).toNat
    autoAdjustDst := (← Reads.cell 7) ≠ 0 }

def PumpControlRequest.read : Decoder PumpControlRequest := do
  return { running := (← Reads.cell 0) = 0x10 }

def PumpControlResponse.read : Decoder PumpControlResponse := do
  return { running := (← Reads.cell 0) = 0x10 }

/-- The request's decoder has an empty body. -/
def PumpStatusRequest.read (self : PumpStatusRequest) : Decoder PumpStatusRequest := return self

def PumpStatusResponse.read : Decoder PumpStatusResponse := do
  return {
    running := (← Reads.cell 0) = 0x0a
    watts := toUint16 (← Reads.cell 3) (← Reads.cell 4)
    rpms := toUint16 (← Reads.cell 5) (← Reads.cell 6)
    priming := (← Reads.cell 12) = 0x0b
    hour := ← Reads.cell 13
    minutes := ← Reads.cell 14 }

def HeatStatus.read : Decoder HeatStatus := do
  return {
    poolTemp := ← Reads.cell 0
    spaTemp := ← Reads.cell 1
    airTemp := ← Reads.cell 2
    solarTemp := ← Reads.cell 8
    poolTempTarget := ← Reads.cell 3
    poolHeatSource := (← Reads.cell 5) &&& 0x03
    spaTempTarget := ← Reads.cell 4
    spaHeatSource := ((← Reads.cell 5) >>> 2) &&& 0x03 }

def ScheduleConfig.read : Decoder ScheduleConfig := do
  return {
    circuit := ← Reads.cell 0
    startHour := ← Reads.cell 2
    startMinute := ← Reads.cell 3
    stopHour := ← Reads.cell 4
    stopMinute := ← Reads.cell 5
    activeDays := ← Reads.cell 6 }

/-- `command_->Read(data_)`: the virtual call updates the record pointed at. -/
def Command.read (records : Records) : Command → Decoder Records
  | .unknown => return records
  | .systemStatus => return { records with systemStatus := ← SystemStatus.read }
  | .pumpStatusRequest =>
    return { records with pumpStatusRequest := ← records.pumpStatusRequest.read }
  | .pumpStatusResponse => return { records with pumpStatusResponse := ← PumpStatusResponse.read }
  | .pumpControlRequest => return { records with pumpControlRequest := ← PumpControlRequest.read }
  | .pumpControlResponse => return { records with pumpControlResponse := ← PumpControlResponse.read }
  | .scheduleConfig => return { records with scheduleConfig := ← ScheduleConfig.read }
  | .timeSettings => return { records with timeSettings := ← TimeSettings.read }
  | .heatStatus => return { records with heatStatus := ← HeatStatus.read }
  | .chlorinatorRequest => return { records with chlorinatorRequest := ← ChlorinatorRequest.read }
  | .chlorinatorResponse => return { records with chlorinatorResponse := ← ChlorinatorResponse.read }

end Pentair
