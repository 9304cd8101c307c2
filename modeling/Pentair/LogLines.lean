import Pentair.Library.Grep
import Pentair.Printing
import Pentair.Synchronisation

/-! The lines that a packet is printed in. But for the data line, every one of them has at
most two colons, which stand behind a label and an hour. That rests on ranges that the
records and the clock keep in every run: with other values the lines could say anything. -/
namespace Pentair

/-! ## Ranges -/

theorem byte_cases {P : UInt8 → Prop} (all : ∀ n < 256, P (UInt8.ofNat n)) (b : UInt8) : P b := by
  simpa using all b.toNat b.toNat_lt

/-- What the decoders leave in the fields that they mask or scale. -/
structure Records.InRange (r : Records) : Prop where
  mode : r.systemStatus.mode ∈ [0x00, 0x01, 0x80, 0x81]
  statusHeat : r.systemStatus.poolHeatSource < 4 ∧ r.systemStatus.spaHeatSource < 4
  heat : r.heatStatus.poolHeatSource < 4 ∧ r.heatStatus.spaHeatSource < 4
  offset : 5 ∣ r.timeSettings.clockAccuracyOffset.toInt ∧ r.timeSettings.clockAccuracyOffset.toInt.natAbs ≤ 635
  salinity : 50 ∣ r.chlorinatorResponse.salinity.toNat ∧ r.chlorinatorResponse.salinity.toNat ≤ 12750
  inspectCell : r.chlorinatorResponse.inspectCell ∈ [0x00, 0x10]

theorem Records.inRange_default : (default : Records).InRange := by
  constructor <;> decide

private theorem masked_inRange (b : UInt8) : b &&& 0x81 ∈ [0x00, 0x01, 0x80, 0x81] ∧ b &&& 0x10 ∈ [0x00, 0x10] := by
  revert b
  exact byte_cases (by decide +kernel)

private theorem low_inRange (b : UInt8) : b &&& 0x03 < 4 := by
  rw [UInt8.lt_iff_toNat_lt, UInt8.toNat_and]
  exact Nat.lt_of_le_of_lt Nat.and_le_right (by decide)

private theorem offset_inRange (b : UInt8) :
    let offset := (if b &&& 0x80 ≠ 0 then (-5 : Int32) else 5) * Int32.ofNat (b &&& 0x7F).toNat
    5 ∣ offset.toInt ∧ offset.toInt.natAbs ≤ 635 := by
  revert b
  exact byte_cases (by decide +kernel)

private theorem salinity_inRange (b : UInt8) : 50 ∣ (b.toUInt16 * 50).toNat ∧ (b.toUInt16 * 50).toNat ≤ 12750 := by
  have bound := b.toNat_lt
  have value : (b.toUInt16 * 50).toNat = b.toNat * 50 := by
    simp only [UInt16.toNat_mul, UInt8.toNat_toUInt16, UInt16.reduceToNat]
    omega
  omega

/-- Every decoder keeps the ranges, whatever it reads. -/
theorem Command.read_inRange (kind : Command) {records : Records} (ranged : records.InRange) (memory : ℕ → UInt8) :
    ((kind.read records).run memory).1.InRange := by
  cases kind with
  | systemStatus => exact { ranged with mode := (masked_inRange _).1, statusHeat := ⟨low_inRange _, low_inRange _⟩ }
  | heatStatus => exact { ranged with heat := ⟨low_inRange _, low_inRange _⟩ }
  | timeSettings => exact { ranged with offset := offset_inRange _ }
  | chlorinatorResponse => exact { ranged with salinity := salinity_inRange _, inspectCell := (masked_inRange _).2 }
  | _ => exact { ranged with }

/-- What holds of a packet whenever it is printed. -/
structure Packet.Printable (p : Packet) : Prop where
  records : p.records.InRange
  clock : p.clock.Bounded

namespace Packet
variable {p : Packet}

theorem printable_boot : Monitor.boot.packet.Printable := ⟨Records.inRange_default, Clock.bounded_default⟩

theorem Printable.reset (printable : p.Printable) : p.reset.Printable := ⟨printable.records, printable.clock⟩

theorem Printable.push (printable : p.Printable) (env : Env) (c : UInt8) : (p.push env c).packet.Printable := by
  refine ⟨?_, bounded_preserved.push p env c printable.clock⟩
  rcases p.push_cases env c with silent | ⟨ready, decoded⟩
  · rw [silent.untouched.records]
    exact printable.records
  · obtain ⟨checksum, packet⟩ := decoded.packet
    rw [packet]
    refine Command.read_inRange _ ?_ _
    rw [decoded.untouched.records]
    exact printable.records

end Packet

/-! ## Digits -/

/-- A byte is printed with the digits of `HexPrint`. -/
theorem mem_printHex {b : UInt8} {c : Char} (member : c ∈ printHex b) : c ∈ HexPrint.digits := by
  rcases List.mem_pair.mp member with rfl | rfl
  · exact HexPrint.digit_mem _
  · exact HexPrint.digit_mem _

/-- The digits are those of the byte. -/
theorem htoi_printHex (b : UInt8) : htoi ((printHex b).getD 0 '0') * 16 + htoi ((printHex b).getD 1 '0') = b := by
  obtain ⟨high, low⟩ := HexPrint.write_digits b
  exact htoi_pair high low

/-! ## Plain text -/

/-- Text without colons and line ends. -/
def Plain (text : List Char) : Prop := ∀ c ∈ text, c ≠ ':' ∧ c ≠ '\n'

instance (text : List Char) : Decidable (Plain text) := List.decidableBAll (fun c => c ≠ ':' ∧ c ≠ '\n') text

namespace Plain
variable {text first second : List Char} {c : Char}

@[simp] theorem append : Plain (first ++ second) ↔ Plain first ∧ Plain second := List.forall_mem_append

@[simp] theorem cons : Plain (c :: text) ↔ (c ≠ ':' ∧ c ≠ '\n') ∧ Plain text := List.forall_mem_cons

@[simp] theorem nil : Plain [] := List.forall_mem_nil _

theorem colon (plain : Plain text) : ':' ∉ text := fun member => (plain ':' member).1 rfl

theorem newline (plain : Plain text) : '\n' ∉ text := fun member => (plain '\n' member).2 rfl

@[simp] theorem replicate (n : ℕ) : Plain (List.replicate n ' ') := fun c member => by
  rw [List.eq_of_mem_replicate member]
  decide

@[simp] theorem decimal (n : ℕ) : Plain (Fields.decimal n) := fun c member => by
  have digit := Fields.isDigit_of_mem_decimal member
  constructor <;> rintro rfl <;> exact absurd digit (by decide)

@[simp] theorem printInt (n : Int32) : Plain (printInt n) := by
  unfold Pentair.printInt
  split <;> simp

@[simp] theorem printPad (n : Int32) : Plain (printPad n) := by
  unfold Pentair.printPad
  split <;> simp

@[simp] theorem printPadLong (n : Int32) : Plain (printPadLong n) := by
  unfold Pentair.printPadLong
  split_ifs <;> simp

@[simp] theorem printHex (b : UInt8) : Plain (printHex b) := fun c member => by
  have digits : Plain HexPrint.digits := by decide
  exact digits c (mem_printHex member)

theorem flatMap {α : Type*} {f : α → List Char} (xs : List α) (each : ∀ x, Plain (f x)) : Plain (xs.flatMap f) := by
  intro c member
  obtain ⟨x, _, inside⟩ := List.mem_flatMap.mp member
  exact each x c inside

@[simp] theorem deviceName (id : UInt8) : Plain (deviceName id) := by
  unfold Pentair.deviceName
  split <;> decide

@[simp] theorem systemModeName (mode : UInt8) : Plain (systemModeName mode) := by
  unfold Pentair.systemModeName
  split <;> decide

@[simp] theorem tempUnit (celcius : Bool) : Plain (tempUnit celcius) := by
  cases celcius <;> decide

@[simp] theorem dayOfWeek (dow : UInt8) : Plain (dayOfWeek dow) := by
  unfold Pentair.dayOfWeek
  split <;> decide

@[simp] theorem yesNo (b : Bool) : Plain (yesNo b) := by
  cases b <;> decide

@[simp] theorem name (kind : Command) : Plain kind.name := by
  cases kind <;> decide

end Plain

/-- A heat source in range is found in `NAMES`. -/
theorem heatSourceName_inside {settings : UInt8} (inside : settings < 4) (stray other : UInt8 → List Char) :
    heatSourceName stray settings = heatSourceName other settings ∧ Plain (heatSourceName stray settings) := by
  have four : settings = 0 ∨ settings = 1 ∨ settings = 2 ∨ settings = 3 := by grind
  rcases four with rfl | rfl | rfl | rfl
  · exact ⟨rfl, (by decide : Plain "Off".toList)⟩
  · exact ⟨rfl, (by decide : Plain "Heater".toList)⟩
  · exact ⟨rfl, (by decide : Plain "Solar Pref".toList)⟩
  · exact ⟨rfl, (by decide : Plain "Solar".toList)⟩

/-! ## Lines with labels -/

/-- What stands before the colons of labels, but for the three of a packet's addresses and
its command. -/
def labels : List (List Char) :=
  ["millis", "version", "time", "mode", "solar", "air T", "pool T", "spa T", "solar T", "circuits", "pool heat",
    "spa heat", "date", "dst", "adjust", "running", "priming", "watts", "rpms", "circuit", "start", "stop", "active",
    "percent", "ppm", "inspect", "data(0x)", "data(10)", "checkdat", "checksum", "bufferPos", "buffer"].map
    String.toList

private theorem labels_plain : ∀ l ∈ labels, Plain l := by decide

/-- The colons of a line stand behind labels and hours. -/
structure Ordinary (line : TextLine) : Prop where
  unbroken : '\n' ∉ line
  fronts : ∀ front ∈ Grep.fronts ':' line,
    front ∈ labels ∨ ∃ (k : ℕ) (h : UInt8), front = List.replicate k ' ' ++ Fields.decimal h.toNat

namespace Ordinary
variable {l rest line : List Char}

theorem plain (plain : Plain line) : Ordinary line where
  unbroken := plain.newline
  fronts := by
    rw [Grep.fronts_plain plain.colon]
    exact List.forall_mem_nil _

theorem label (label : l ∈ labels) (plain : Plain rest) : Ordinary (l ++ ':' :: rest) where
  unbroken := by
    simp [(labels_plain l label).newline, plain.newline]
  fronts := by
    rw [Grep.fronts_cut (labels_plain l label).colon, Grep.fronts_plain plain.colon]
    intro front member
    rw [List.mem_singleton.mp member]
    exact .inl label

theorem printLabel (label : l ∈ labels) (plain : Plain rest) : Ordinary (printLabel l ++ rest) := by
  unfold Pentair.printLabel
  rw [List.append_assoc, List.cons_append]
  exact .label label (by simp [plain])

theorem time (label : l ∈ labels) (h m : UInt8) : Ordinary (Pentair.printLabel l ++ printTime h m) := by
  obtain ⟨minutes, plain, split⟩ :
      ∃ minutes, Plain minutes ∧ printTime h m = Fields.decimal h.toNat ++ ':' :: minutes := by
    unfold printTime
    split_ifs
    · exact ⟨'0' :: Fields.decimal m.toNat, by simp, by simp⟩
    · exact ⟨Fields.decimal m.toNat, by simp, by simp⟩
  have behind : Plain (List.replicate (defaultPad - (l.length + 1)) ' ' ++ Fields.decimal h.toNat) := by simp
  rw [split, Pentair.printLabel, List.append_assoc, List.cons_append, ← List.append_assoc (List.replicate _ _)]
  constructor
  · have first := (labels_plain l label).newline
    have second := behind.newline
    have third := plain.newline
    simp_all
  · rw [Grep.fronts_cut (labels_plain l label).colon, Grep.fronts_cut behind.colon, Grep.fronts_plain plain.colon]
    intro front member
    rcases List.mem_pair.mp member with rfl | rfl
    · exact .inl label
    · exact .inr ⟨_, h, rfl⟩

end Ordinary

theorem SystemStatus.printTo_ordinary (self : SystemStatus) (stray : UInt8 → List Char)
    (inside : self.poolHeatSource < 4 ∧ self.spaHeatSource < 4) : ∀ line ∈ self.printTo stray, Ordinary line := by
  have pool := (heatSourceName_inside inside.1 stray stray).2
  have spa := (heatSourceName_inside inside.2 stray stray).2
  have solar : Plain (if self.solar then "On".toList else "Off".toList) := by
    split <;> decide
  have circuits : Plain ((List.finRange 8).flatMap fun c =>
      circuitsNames[c] ++ (if self.circuits[c] then "=ON".toList else "=OFF".toList) ++ [' ']) := by
    refine Plain.flatMap _ fun c => ?_
    have names : ∀ c : Fin 8, Plain circuitsNames[c] := by decide
    have states : Plain "=ON".toList ∧ Plain "=OFF".toList := by decide
    split
    · exact Plain.append.mpr ⟨Plain.append.mpr ⟨names c, states.1⟩, by decide⟩
    · exact Plain.append.mpr ⟨Plain.append.mpr ⟨names c, states.2⟩, by decide⟩
  unfold printTo
  simp only [List.append_assoc, List.forall_mem_cons]
  refine ⟨.time (by decide) _ _, .printLabel (by decide) (by simp), .printLabel (by decide) solar,
    .printLabel (by decide) (by simp), .printLabel (by decide) (by simp), .printLabel (by decide) (by simp),
    .printLabel (by decide) (by simp), .printLabel (by decide) ?_, .printLabel (by decide) pool,
    .printLabel (by decide) spa, List.forall_mem_nil _⟩
  simpa only [List.append_assoc] using circuits

theorem TimeSettings.printTo_ordinary (self : TimeSettings) : ∀ line ∈ self.printTo, Ordinary line := by
  have dst : Plain (if self.autoAdjustDst then "Auto".toList else "Manual".toList) := by
    split <;> decide
  have date : Plain (printDate self.day self.month self.year) := by
    simp [printDate]
  unfold printTo
  simp only [List.append_assoc, List.forall_mem_cons]
  exact ⟨.time (by decide) _ _, .printLabel (by decide) (by simp [date]), .printLabel (by decide) dst,
    .printLabel (by decide) (by simp), List.forall_mem_nil _⟩

theorem HeatStatus.printTo_ordinary (self : HeatStatus) (stray : UInt8 → List Char)
    (inside : self.poolHeatSource < 4 ∧ self.spaHeatSource < 4) : ∀ line ∈ self.printTo stray, Ordinary line := by
  have pool := (heatSourceName_inside inside.1 stray stray).2
  have spa := (heatSourceName_inside inside.2 stray stray).2
  unfold printTo
  simp only [List.append_assoc, List.forall_mem_cons]
  exact ⟨.printLabel (by decide) (by simp), .printLabel (by decide) (by simp), .printLabel (by decide) (by simp),
    .printLabel (by decide) (by simp), .printLabel (by decide) (by simp [pool]),
    .printLabel (by decide) (by simp [spa]), List.forall_mem_nil _⟩

theorem ScheduleConfig.printDays_plain (activeDays : UInt8) : Plain (printDays activeDays) := by
  have days : ∀ day ∈ "MTWTFSS".toList.zipIdx, day.1 ≠ ':' ∧ day.1 ≠ '\n' := by decide
  intro c member
  obtain ⟨day, shown, rfl⟩ := List.mem_map.mp member
  dsimp only
  split
  · exact days day shown
  · decide

/-- Whatever the record says, its lines are ordinary. -/
theorem Command.printTo_ordinary {records : Records} (ranged : records.InRange) (stray : UInt8 → List Char)
    (kind : Command) : ∀ line ∈ kind.printTo records stray, Ordinary line := by
  cases kind with
  | unknown => exact List.forall_mem_nil _
  | systemStatus => exact records.systemStatus.printTo_ordinary stray ranged.statusHeat
  | pumpStatusRequest => exact List.forall_mem_nil _
  | pumpStatusResponse =>
    simp only [Command.printTo, PumpStatusResponse.printTo, List.forall_mem_cons]
    exact ⟨.time (by decide) _ _, .printLabel (by decide) (by simp), .printLabel (by decide) (by simp),
      .printLabel (by decide) (by simp), .printLabel (by decide) (by simp), List.forall_mem_nil _⟩
  | pumpControlRequest =>
    simp only [Command.printTo, PumpControlRequest.printTo, List.forall_mem_cons]
    exact ⟨.printLabel (by decide) (by simp), List.forall_mem_nil _⟩
  | pumpControlResponse =>
    simp only [Command.printTo, PumpControlResponse.printTo, List.forall_mem_cons]
    exact ⟨.printLabel (by decide) (by simp), List.forall_mem_nil _⟩
  | scheduleConfig =>
    simp only [Command.printTo, ScheduleConfig.printTo, List.forall_mem_cons]
    exact ⟨.printLabel (by decide) (by simp), .time (by decide) _ _, .time (by decide) _ _,
      .printLabel (by decide) (ScheduleConfig.printDays_plain _), List.forall_mem_nil _⟩
  | timeSettings => exact records.timeSettings.printTo_ordinary
  | heatStatus => exact records.heatStatus.printTo_ordinary stray ranged.heat
  | chlorinatorRequest =>
    simp only [Command.printTo, ChlorinatorRequest.printTo, List.forall_mem_cons]
    exact ⟨.printLabel (by decide) (by simp), .printLabel (by decide) (by simp), List.forall_mem_nil _⟩
  | chlorinatorResponse =>
    simp only [Command.printTo, ChlorinatorResponse.printTo, List.forall_mem_cons]
    exact ⟨.printLabel (by decide) (by simp), .printLabel (by decide) (by simp), List.forall_mem_nil _⟩

namespace Packet
variable (self : Packet)

theorem dataTables_ordinary (env : Env) : ∀ line ∈ self.dataTables env, Ordinary line := by
  have hex : "data(0x):\t".toList = "data(0x)".toList ++ ':' :: ['\t'] := by decide
  have dec : "data(10):".toList = "data(10)".toList ++ ':' :: [] := by decide
  have tabs : Plain "\t\t".toList := by decide
  unfold dataTables
  rw [hex, dec]
  simp only [List.append_assoc, List.cons_append, List.nil_append, List.forall_mem_cons]
  refine ⟨.plain ?_, .label (by decide) ?_, .label (by decide) ?_, List.forall_mem_nil _⟩
  · exact Plain.append.mpr ⟨tabs, Plain.flatMap _ fun i => by simp⟩
  · exact Plain.cons.mpr ⟨by decide, Plain.flatMap _ fun b => by simp⟩
  · exact Plain.flatMap _ fun b => by simp

theorem printTrailer_ordinary : ∀ line ∈ self.printTrailer, Ordinary line := by
  have checkdat : "checkdat:".toList = "checkdat".toList ++ ':' :: [] := by decide
  have checksum : "checksum:\t".toList = "checksum".toList ++ ':' :: ['\t'] := by decide
  have bufferPos : "bufferPos:\t".toList = "bufferPos".toList ++ ':' :: ['\t'] := by decide
  have buffer : "buffer:\t".toList = "buffer".toList ++ ':' :: ['\t'] := by decide
  unfold printTrailer
  rw [checkdat, checksum, bufferPos, buffer]
  simp only [List.append_assoc, List.cons_append, List.nil_append, List.forall_mem_cons]
  refine ⟨.label (by decide) ?_, .label (by decide) (by simp), .label (by decide) (by simp), .label (by decide) ?_,
    .plain (by decide), List.forall_mem_nil _⟩
  · exact Plain.flatMap _ fun b => by simp
  · exact Plain.cons.mpr ⟨by decide, Plain.flatMap _ fun b => by simp⟩

end Packet

end Pentair
