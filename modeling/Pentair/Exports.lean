import Pentair.Library.Fields
import Pentair.Monitor

/-! The two formats in which clients are told the readings. Each of them can be read back,
so no reading is lost in either, none is shown under another's name, and both always tell
the same. -/
namespace Pentair

/-- What is exported of the records, in the order of both formats. -/
def readings (records : Records) : List ℕ :=
  [records.systemStatus.airTemp.toNat, records.systemStatus.poolTemp.toNat, records.systemStatus.solarTemp.toNat,
    records.systemStatus.spaTemp.toNat, records.pumpStatusResponse.rpms.toNat, records.pumpStatusResponse.watts.toNat,
    records.chlorinatorRequest.percent.toNat, records.chlorinatorResponse.salinity.toNat]

/-- Their names. -/
def metrics : List (List Char) :=
  ["air_temp", "pool_temp", "solar_temp", "spa_temp", "pump_rpms", "pump_watts", "chlorinator_percent",
    "chlorinator_salinity"].map String.toList

/-- What stands before the readings in both formats. -/
def okHeader : List Char := "HTTP/1.1 200 OK\r\nContent-Type: text/plain; version=0.0.4\r\n\r\n".toList

/-- How a client reads the comma separated line. -/
def readCSV (response : List Char) : List ℕ :=
  Fields.split ',' ((response.drop okHeader.length).takeWhile (· ≠ '\n'))

/-- How a client reads the named lines. -/
def readMetrics (response : List Char) : List (List Char × ℕ) := Fields.readLines (response.drop okHeader.length)

namespace Monitor

private theorem toList_toString_byte (b : UInt8) : (toString b).toList = Fields.decimal b.toNat := Nat.toList_repr

private theorem toList_toString_word (w : UInt16) : (toString w).toList = Fields.decimal w.toNat := Nat.toList_repr

theorem toList_exportCSV (records : Records) :
    (exportCSV records).toList = okHeader ++ (Fields.joined ',' (readings records) ++ '\n' :: ['\n']) := by
  -- the header is long, and never has to be taken apart
  have header : "HTTP/1.1 200 OK\r\nContent-Type: text/plain; version=0.0.4\r\n\r\n".toList = okHeader := rfl
  have comma : ",".toList = [','] := rfl
  have newline : "\n".toList = ['\n'] := rfl
  unfold exportCSV
  simp only [String.toList_append, toList_toString_byte, toList_toString_word, header, comma, newline]
  unfold readings Fields.joined
  simp only [List.map_cons, List.map_nil, List.intercalate_cons_cons, List.intercalate_singleton, List.append_assoc,
    List.cons_append, List.nil_append]

/-- The names as they are printed end with a blank. -/
private theorem names_spaced : ["air_temp ", "pool_temp ", "solar_temp ", "spa_temp ", "pump_rpms ", "pump_watts ",
    "chlorinator_percent ", "chlorinator_salinity "].map String.toList = metrics.map (· ++ [' ']) := rfl

theorem toList_exportMetrics (records : Records) :
    (exportMetrics records).toList = okHeader ++ Fields.lines metrics (readings records) := by
  have header : "HTTP/1.1 200 OK\r\nContent-Type: text/plain; version=0.0.4\r\n\r\n".toList = okHeader := rfl
  have newline : "\n".toList = ['\n'] := rfl
  have names := names_spaced
  unfold metrics at names ⊢
  simp only [List.map_cons, List.map_nil, List.cons.injEq, and_true] at names
  obtain ⟨air, pool, solar, spa, rpms, watts, percent, salinity⟩ := names
  unfold exportMetrics
  simp only [String.toList_append, toList_toString_byte, toList_toString_word, header, newline, air, pool, solar, spa,
    rpms, watts, percent, salinity]
  unfold readings Fields.lines Fields.named
  simp only [List.map_cons, List.map_nil, List.zipWith_cons_cons, List.zipWith_nil_left, List.flatMap_cons,
    List.flatMap_nil, List.append_assoc, List.cons_append, List.nil_append]

end Monitor

/-- Whatever the records, both exports can be read back, to the same readings. -/
theorem exports_read (records : Records) :
    readCSV (Monitor.exportCSV records).toList = readings records ∧
      readMetrics (Monitor.exportMetrics records).toList = metrics.zip (readings records) := by
  constructor
  · rw [readCSV, Monitor.toList_exportCSV, List.drop_left,
      Fields.takeWhile_cut (Fields.not_mem_joined (by decide) (by decide) _), Fields.split_joined (by decide)]
    simp [readings]
  · rw [readMetrics, Monitor.toList_exportMetrics, List.drop_left, Fields.readLines_lines]
    decide

end Pentair
