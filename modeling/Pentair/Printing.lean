import Pentair.HexText
import Pentair.Library.Fields
import Pentair.Monitor

/-! What the monitor prints on the serial line: every completed packet in readable form,
with its data once more on a single line, and what it says about writes and clients. The
output is a list of lines, each of which a `println` ends. Debug output of the libraries
is left out, and so is that of `Push` for an overrun, which a byte of position never shows. -/
namespace Pentair

/-- The text of a line, without its end. -/
abbrev TextLine := List Char

/-- What `PrintTo` takes from the world around the packet. -/
structure PrintEnv where
  /-- what `millis()` returns to `PrintHeader` -/
  millis : UInt32
  memory : Env
  /-- what is printed for the pointers that lie behind the four of `NAMES` -/
  stray : UInt8 → List Char
  deriving Inhabited

/-! ## Numbers and labels -/

/-- `Print::print` of a signed number. -/
def printInt (n : Int32) : List Char :=
  if n < 0 then '-' :: Fields.decimal n.toInt.natAbs else Fields.decimal n.toInt.natAbs

def defaultPad : ℕ := 10

/-- `PrintLabel`, with its default pad. -/
def printLabel (l : List Char) : List Char := l ++ ':' :: List.replicate (defaultPad - (l.length + 1)) ' '

def printHex (c : UInt8) : List Char :=
  [HexPrint.digits.getD ((c >>> 4) &&& 0x0F).toNat '\x00', HexPrint.digits.getD (c &&& 0x0F).toNat '\x00']

def printTime (h m : UInt8) : List Char :=
  Fields.decimal h.toNat ++ (if m < 10 then [':', '0'] else [':']) ++ Fields.decimal m.toNat

/-- `printPad` of an `int`. -/
def printPad (n : Int32) : List Char := (if n < 10 then ['0'] else []) ++ printInt n

/-- `printPad` of a `long`. -/
def printPadLong (n : Int32) : List Char :=
  (if n < 100 then ['0'] else []) ++ (if n < 10 then ['0'] else []) ++ printInt n

/-- The bytes are passed to the `printPad` of an `int`. -/
def printDate (day month year : UInt8) : List Char :=
  printPad (Int32.ofNat month.toNat) ++ ['/'] ++ printPad (Int32.ofNat day.toNat) ++ "/20".toList ++
    printPad (Int32.ofNat year.toNat)

def printClock (c : Clock) : List Char :=
  printPad c.hour ++ [':'] ++ printPad c.minute ++ [':'] ++ printPad c.second ++ ['.'] ++ printPadLong c.millisecond

/-! ## Names -/

def deviceName (id : UInt8) : List Char :=
  match id with
  | 0x10 => "Control Center".toList
  | 0x0f => "Broadcast".toList
  | 0x60 => "Pump1".toList
  | 0x61 => "Pump2".toList
  | 0x70 => "Chlorinator".toList
  | 0x20 => "Wired Remote".toList
  | 0x22 => "Wireless Remote".toList
  | 0x48 => "Remote".toList
  | 0x90 => "Device 0x90".toList
  | _ => "Unknown".toList

def systemModeName (mode : UInt8) : List Char :=
  match mode with
  | 0x00 => "Auto".toList
  | 0x01 => "Service".toList
  | 0x81 => "Timeout".toList
  | _ => "Unknown".toList

/-- `HeatSourceName`. It compares with the size of `NAMES` in bytes, which is four times
that of the four pointers in it, so it may look behind them. -/
def heatSourceName (stray : UInt8 → List Char) (settings : UInt8) : List Char :=
  if settings < 16 then
    match settings with
    | 0 => "Off".toList
    | 1 => "Heater".toList
    | 2 => "Solar Pref".toList
    | 3 => "Solar".toList
    | _ => stray settings
  else "Unknown".toList

def tempUnit (celcius : Bool) : List Char := if celcius then ['C'] else ['F']

def dayOfWeek (dow : UInt8) : List Char :=
  match dow with
  | 0x01 => "Sun".toList
  | 0x02 => "Mon".toList
  | 0x04 => "Tue".toList
  | 0x08 => "Wed".toList
  | 0x10 => "Thu".toList
  | 0x20 => "Fri".toList
  | 0x40 => "Sat".toList
  | _ => "???".toList

def circuitsNames : Vector (List Char) 8 :=
  #v["SPA".toList, "CLEANER".toList, "??".toList, "??".toList, "??".toList, "POOL".toList, "??".toList, "??".toList]

/-- `Name()` of each record. -/
def Command.name : Command → List Char
  | .unknown => "Unknown".toList
  | .systemStatus => "System Status Broadcast".toList
  | .pumpStatusRequest => "Pump Status Request".toList
  | .pumpStatusResponse => "Pump Status Response".toList
  | .pumpControlRequest => "Pump Control Request".toList
  | .pumpControlResponse => "Pump Control Response".toList
  | .scheduleConfig => "Schedule Config".toList
  | .timeSettings => "Time Settings".toList
  | .heatStatus => "Heat Status".toList
  | .chlorinatorRequest => "Chlorinator Request".toList
  | .chlorinatorResponse => "Chlorinator Response".toList

/-! ## Records -/

def yesNo (b : Bool) : List Char := if b then "Yes".toList else "No".toList

def SystemStatus.printTo (self : SystemStatus) (stray : UInt8 → List Char) : List TextLine :=
  [printLabel "time".toList ++ printTime self.hour self.minutes,
    printLabel "mode".toList ++ systemModeName self.mode,
    printLabel "solar".toList ++ (if self.solar then "On".toList else "Off".toList),
    printLabel "air T".toList ++ Fields.decimal self.airTemp.toNat ++ tempUnit self.celcius,
    printLabel "pool T".toList ++ Fields.decimal self.poolTemp.toNat ++ tempUnit self.celcius,
    printLabel "spa T".toList ++ Fields.decimal self.spaTemp.toNat ++ tempUnit self.celcius,
    printLabel "solar T".toList ++ Fields.decimal self.solarTemp.toNat ++ tempUnit self.celcius,
    printLabel "circuits".toList ++ (List.finRange 8).flatMap fun c =>
      circuitsNames[c] ++ (if self.circuits[c] then "=ON".toList else "=OFF".toList) ++ [' '],
    printLabel "pool heat".toList ++ heatSourceName stray self.poolHeatSource,
    printLabel "spa heat".toList ++ heatSourceName stray self.spaHeatSource]

def TimeSettings.printTo (self : TimeSettings) : List TextLine :=
  [printLabel "time".toList ++ printTime self.hour self.minute,
    printLabel "date".toList ++ dayOfWeek self.weekDay ++ [' '] ++ printDate self.day self.month self.year,
    printLabel "dst".toList ++ (if self.autoAdjustDst then "Auto".toList else "Manual".toList),
    printLabel "adjust".toList ++ printInt self.clockAccuracyOffset]

def PumpControlRequest.printTo (self : PumpControlRequest) : List TextLine :=
  [printLabel "running".toList ++ yesNo self.running]

def PumpControlResponse.printTo (self : PumpControlResponse) : List TextLine :=
  [printLabel "running".toList ++ yesNo self.running]

def PumpStatusResponse.printTo (self : PumpStatusResponse) : List TextLine :=
  [printLabel "time".toList ++ printTime self.hour self.minutes,
    printLabel "running".toList ++ yesNo self.running,
    printLabel "priming".toList ++ yesNo self.priming,
    printLabel "watts".toList ++ Fields.decimal self.watts.toNat,
    printLabel "rpms".toList ++ Fields.decimal self.rpms.toNat]

def HeatStatus.printTo (self : HeatStatus) (stray : UInt8 → List Char) : List TextLine :=
  [printLabel "pool T".toList ++ Fields.decimal self.poolTemp.toNat,
    printLabel "spa T".toList ++ Fields.decimal self.spaTemp.toNat,
    printLabel "air T".toList ++ Fields.decimal self.airTemp.toNat,
    printLabel "solar T".toList ++ Fields.decimal self.solarTemp.toNat,
    printLabel "pool heat".toList ++ Fields.decimal self.poolTempTarget.toNat ++ ['/'] ++
      heatSourceName stray self.poolHeatSource,
    printLabel "spa heat".toList ++ Fields.decimal self.spaTempTarget.toNat ++ ['/'] ++
      heatSourceName stray self.spaHeatSource]

/-- The characters of `DAYS` for the days that are on. -/
def ScheduleConfig.printDays (activeDays : UInt8) : List Char :=
  "MTWTFSS".toList.zipIdx.map fun (day, i) => if activeDays.toNat &&& (1 <<< i) ≠ 0 then day else '-'

def ScheduleConfig.printTo (self : ScheduleConfig) : List TextLine :=
  [printLabel "circuit".toList ++ Fields.decimal self.circuit.toNat,
    printLabel "start".toList ++ printTime self.startHour self.startMinute,
    printLabel "stop".toList ++ printTime self.stopHour self.stopMinute,
    printLabel "active".toList ++ printDays self.activeDays]

def ChlorinatorRequest.printTo (self : ChlorinatorRequest) : List TextLine :=
  [printLabel "running".toList ++ yesNo self.mode,
    printLabel "percent".toList ++ Fields.decimal self.percent.toNat]

def ChlorinatorResponse.printTo (self : ChlorinatorResponse) : List TextLine :=
  [printLabel "ppm".toList ++ Fields.decimal self.salinity.toNat,
    printLabel "inspect".toList ++ yesNo (self.inspectCell ≠ 0)]

/-- `command_->PrintTo(p)`; two of the records print nothing. -/
def Command.printTo (records : Records) (stray : UInt8 → List Char) : Command → List TextLine
  | .unknown => []
  | .systemStatus => records.systemStatus.printTo stray
  | .pumpStatusRequest => []
  | .pumpStatusResponse => records.pumpStatusResponse.printTo
  | .pumpControlRequest => records.pumpControlRequest.printTo
  | .pumpControlResponse => records.pumpControlResponse.printTo
  | .scheduleConfig => records.scheduleConfig.printTo
  | .timeSettings => records.timeSettings.printTo
  | .heatStatus => records.heatStatus.printTo stray
  | .chlorinatorRequest => records.chlorinatorRequest.printTo
  | .chlorinatorResponse => records.chlorinatorResponse.printTo

/-! ## Packets -/

namespace Packet

def sourceLine (self : Packet) : TextLine :=
  printLabel "source".toList ++ printHex self.source ++ " (".toList ++ deviceName self.source ++ [')']

def targetLine (self : Packet) : TextLine :=
  printLabel "target".toList ++ printHex self.target ++ " (".toList ++ deviceName self.target ++ [')']

def commandLine (self : Packet) : TextLine :=
  printLabel "command".toList ++ printHex self.cid ++ " (".toList ++ self.command.name ++ [')']

/-- `PrintHeader`, on the serial line, where the milliseconds always go. -/
def printHeader (self : Packet) (env : PrintEnv) : List TextLine :=
  [printLabel "millis".toList ++ Fields.decimal env.millis.toNat,
    printLabel "version".toList ++ printHex self.version,
    self.sourceLine,
    self.targetLine,
    self.commandLine]

/-- The numbers of the data bytes, and the bytes in hex and in decimal. -/
def dataTables (self : Packet) (env : Env) : List TextLine :=
  ["\t\t".toList ++ (List.range self.dataLen.toNat).flatMap fun i => '\t' :: Fields.decimal i,
    "data(0x):\t".toList ++ (self.payload env).flatMap fun b => printHex b ++ ['\t'],
    "data(10):".toList ++ (self.payload env).flatMap fun b => '\t' :: Fields.decimal b.toNat]

/-- The single line with clock, source, target, command and data. -/
def dataLine (self : Packet) (env : Env) : TextLine :=
  printClock self.clock ++ [' '] ++ printHex self.source ++ printHex self.target ++ printHex self.cid ++
    ":: ".toList ++ (self.payload env).flatMap fun b => printHex b ++ [' ']

/-- What is printed behind the data. -/
def printTrailer (self : Packet) : List TextLine :=
  ["checkdat:".toList ++ self.checksumData.toList.flatMap fun b => '\t' :: printHex b,
    "checksum:\t".toList ++ printHex ((self.checksum / 256) &&& 0xFF).toUInt8 ++ ['\t'] ++
      printHex (self.checksum &&& 0xFF).toUInt8,
    "bufferPos:\t".toList ++ Fields.decimal self.bufferPos.toNat,
    "buffer:\t".toList ++ (self.buffer.toList.take self.bufferPos.toNat).flatMap fun b => '\t' :: printHex b,
    List.replicate 33 '-']

/-- `PrintTo` -/
def printTo (self : Packet) (env : PrintEnv) : List TextLine :=
  self.printHeader env ++ self.command.printTo self.records env.stray ++
    ["- Packet Data [".toList ++ Fields.decimal self.dataLen.toNat ++ [']']] ++
    (if self.dataLen > 0 then self.dataTables env.memory else []) ++
    (if self.clock.initialized then [self.dataLine env.memory] else []) ++
    self.printTrailer

end Packet

/-! ## The loop -/

/-- An iteration, with what each of the packets printed in it meets. -/
structure Session where
  iteration : Iteration
  prints : ℕ → PrintEnv

namespace Monitor

/-- What the receive loop prints. -/
def printReceived (p : Packet) (prints : ℕ → PrintEnv) : List Arrival → List TextLine
  | [] => []
  | a :: rest =>
    let pushed := p.push a.env a.byte
    if pushed.complete then
      (if pushed.packet.valid then pushed.packet.printTo (prints 0)
        else "   ***   INVALID PACKET ***".toList :: pushed.packet.printTo (prints 0)) ++
        printReceived pushed.packet.reset (fun n => prints (n + 1)) rest
    else printReceived pushed.packet prints rest

/-- What the test write prints. -/
def printTransmitted (self : Monitor) (sendReady : Bool) (i : Iteration) : List TextLine :=
  if !self.sent && sendReady then
    let out := (i.memory.construct.make i.outEnv 0xCB "01 02".toList).2
    if i.availableForWrite then
      [Fields.decimal out.dataLen.toNat ++ " data bytes written".toList, "flushed".toList, List.replicate 33 '-']
    else []
  else []

/-- What `ServeClient` prints. -/
def printServed : Client → List TextLine
  | .timedOut => ["new client".toList, "timeout".toList]
  | .request line => ["new client".toList, "req=".toList ++ line, "Client disconnected".toList]

/-- What an iteration of `loop` prints. -/
def printLoop (self : Monitor) (s : Session) : List TextLine :=
  let received := s.iteration.received.foldl receive (self, false)
  printReceived self.packet s.prints s.iteration.received ++ received.1.printTransmitted received.2 s.iteration ++
    (s.iteration.client.map printServed).getD []

/-- What `loop` prints in a run. What `setup` and the cloud library print on the same line is not
part of it. -/
def printRun (self : Monitor) : List Session → List TextLine
  | [] => []
  | s :: rest => self.printLoop s ++ (self.loop s.iteration).monitor.printRun rest

end Monitor
end Pentair
