import Pentair.Library.CString

/-! The secrets in the EEPROM. A utility stores them one after another, and the monitor
copies them out and keeps a pointer to each; the two programs share nothing but that
layout, and neither checks it. -/
namespace Pentair

/-- `sizeof(eeprom_data)`, and what both programs pass to `EEPROM.begin`. -/
abbrev eepromSize : ℕ := 128

abbrev Eeprom := Vector UInt8 eepromSize

/-- `EEPROM.read`; outside it reads as zero. -/
def Eeprom.read (eeprom : Eeprom) (address : ℕ) : UInt8 := eeprom[address]?.getD 0

/-- `EEPROM.write`. The library is not part of the repository; it is assumed to drop what is
written outside, as that of the ESP8266 does. -/
def Eeprom.write (eeprom : Eeprom) (address : ℕ) (c : UInt8) : Eeprom := eeprom.setIfInBounds address c

/-! ## `eeprom_write.ino` -/

/-- The EEPROM being written, and the next address. -/
structure Writer where
  eeprom : Eeprom
  address : ℕ

namespace Writer

def write (self : Writer) (c : UInt8) : Writer := ⟨self.eeprom.write self.address c, self.address + 1⟩

/-- The loop over one secret, up to and including its NUL. -/
def store (self : Writer) (secret : List UInt8) : Writer := (secret ++ [0]).foldl write self

/-- The loop over the secrets. -/
def setup (eeprom : Eeprom) (ssid password id key : List UInt8) : Eeprom :=
  ([ssid, password, id, key].foldl store ⟨eeprom, 0⟩).eeprom

end Writer

/-! ## `readSecrets` -/

/-- `eeprom_data`, and the pointers into it by the index they point at. -/
structure Secrets where
  eepromData : Vector UInt8 eepromSize
  wifiSsid : Option ℕ
  wifiPassword : Option ℕ
  deviceId : Option ℕ
  deviceKey : Option ℕ
  deriving DecidableEq

namespace Secrets

/-- Before `readSecrets`, as static storage is initialized. -/
def boot : Secrets where
  eepromData := Vector.replicate eepromSize 0
  wifiSsid := some 0
  wifiPassword := none
  deviceId := none
  deviceKey := none

/-- The switch of `readSecrets`: the end of a component is where the next one starts. -/
def point (self : Secrets) (component start : ℕ) : Secrets :=
  match component with
  | 0 => { self with wifiPassword := some start }
  | 1 => { self with deviceId := some start }
  | 2 => { self with deviceKey := some start }
  | _ => self

/-- The loop of `readSecrets`. -/
structure Loop where
  secrets : Secrets
  component : ℕ
  done : Bool

/-- One round, which does nothing once the loop is left. -/
def Loop.round (eeprom : Eeprom) (self : Loop) (address : ℕ) : Loop :=
  if self.done then self
  else
    let c := eeprom.read address
    let secrets := { self.secrets with eepromData := self.secrets.eepromData.setIfInBounds address c }
    if c = 0 then
      ⟨secrets.point self.component (address + 1), self.component + 1, self.component = 3⟩
    else { self with secrets := secrets }

def readSecrets (self : Secrets) (eeprom : Eeprom) : Secrets :=
  ((List.range eepromSize).foldl (Loop.round eeprom) ⟨self, 0, false⟩).secrets

variable (self : Secrets) (component start : ℕ)

theorem point_eepromData : (self.point component start).eepromData = self.eepromData := by
  unfold point
  split <;> rfl

theorem point_wifiSsid : (self.point component start).wifiSsid = self.wifiSsid := by
  unfold point
  split <;> rfl

theorem point_wifiPassword : (self.point component start).wifiPassword =
    if 1 = component + 1 then some start else self.wifiPassword := by
  unfold point
  split <;> simp_all

theorem point_deviceId : (self.point component start).deviceId =
    if 2 = component + 1 then some start else self.deviceId := by
  unfold point
  split <;> simp_all

theorem point_deviceKey : (self.point component start).deviceKey =
    if 3 = component + 1 then some start else self.deviceKey := by
  unfold point
  split <;> simp_all

/-- `seen` has been copied, and every pointer is where its string starts in it. -/
structure Copied (s : Secrets) (seen rest : List UInt8) : Prop where
  data : s.eepromData.toList = seen ++ rest
  wifiSsid : s.wifiSsid = (CString.starts 0 seen)[0]?
  wifiPassword : s.wifiPassword = (CString.starts 0 seen)[1]?
  deviceId : s.deviceId = (CString.starts 0 seen)[2]?
  deviceKey : s.deviceKey = (CString.starts 0 seen)[3]?

/-- The loop has copied `seen`, and counts its NUL bytes up to the fourth. -/
structure Loop.Copied (loop : Loop) (seen rest : List UInt8) : Prop where
  secrets : loop.secrets.Copied seen rest
  component : loop.component = seen.count 0
  most : loop.component ≤ 4
  done : loop.done = true ↔ loop.component = 4

namespace Loop
variable {loop : Loop} {seen rest : List UInt8} {old : UInt8}

/-- A round copies one cell, and notes where the next string starts if that ended one. -/
theorem Copied.round (eeprom : Eeprom) (copied : loop.Copied seen (old :: rest)) (onward : loop.done = false) :
    (loop.round eeprom seen.length).Copied (seen ++ [eeprom.read seen.length]) rest := by
  have data : (loop.secrets.eepromData.setIfInBounds seen.length (eeprom.read seen.length)).toList =
      seen ++ [eeprom.read seen.length] ++ rest := by
    rw [Vector.toList_setIfInBounds, copied.secrets.data]
    simp
  have below : loop.component < 4 := by
    refine lt_of_le_of_ne copied.most fun four => ?_
    rw [copied.done.mpr four] at onward
    cases onward
  unfold Loop.round
  rw [if_neg (by rw [onward]; exact Bool.false_ne_true)]
  dsimp only
  by_cases ended : eeprom.read seen.length = 0
  · rw [if_pos ended]
    rw [ended] at data ⊢
    refine ⟨⟨?_, ?_, ?_, ?_, ?_⟩, ?_, below, by simp⟩
    · rw [point_eepromData]
      exact data
    · rw [point_wifiSsid, CString.getElem?_starts_concat, if_neg (by omega)]
      exact copied.secrets.wifiSsid
    · rw [point_wifiPassword, CString.getElem?_starts_concat, ← copied.component, ← copied.secrets.wifiPassword]
    · rw [point_deviceId, CString.getElem?_starts_concat, ← copied.component, ← copied.secrets.deviceId]
    · rw [point_deviceKey, CString.getElem?_starts_concat, ← copied.component, ← copied.secrets.deviceKey]
    · rw [List.count_append, List.count_singleton_self, ← copied.component]
  · rw [if_neg ended]
    have same : CString.starts 0 (seen ++ [eeprom.read seen.length]) = CString.starts 0 seen := by
      rw [CString.starts_concat, if_neg ended, List.append_nil]
    refine ⟨⟨data, ?_, ?_, ?_, ?_⟩, ?_, copied.most, copied.done⟩
    · rw [same]
      exact copied.secrets.wifiSsid
    · rw [same]
      exact copied.secrets.wifiPassword
    · rw [same]
      exact copied.secrets.deviceId
    · rw [same]
      exact copied.secrets.deviceKey
    · rw [List.count_append, List.count_singleton, if_neg (by simpa using ended)]
      exact copied.component

theorem copied_boot : Loop.Copied ⟨boot, 0, false⟩ [] (List.replicate eepromSize 0) where
  secrets := ⟨Vector.toList_replicate, rfl, rfl, rfl, rfl⟩
  component := rfl
  most := by decide
  done := by decide

/-- The rounds up to any address copy a stretch of the image that ends there, unless the
loop was left before. -/
theorem copied_range (eeprom : Eeprom) {n : ℕ} (within : n ≤ eepromSize) :
    ∃ m rest, m ≤ n ∧ ((List.range n).foldl (Loop.round eeprom) ⟨boot, 0, false⟩).Copied (eeprom.toList.take m) rest ∧
      rest.length = eepromSize - m ∧
      (m = n ∨ ((List.range n).foldl (Loop.round eeprom) ⟨boot, 0, false⟩).done = true) := by
  induction n with
  | zero => exact ⟨0, _, le_rfl, copied_boot, List.length_replicate, .inl rfl⟩
  | succ n ih =>
    obtain ⟨m, rest, early, copied, left, reached⟩ := ih (by omega)
    rw [List.range_succ, List.foldl_append, List.foldl_cons, List.foldl_nil]
    generalize (List.range n).foldl (Loop.round eeprom) ⟨boot, 0, false⟩ = loop at copied reached ⊢
    cases onward : loop.done with
    | true =>
      have stays : loop.round eeprom n = loop := if_pos onward
      rw [stays]
      exact ⟨m, rest, by omega, copied, left, .inr onward⟩
    | false =>
      obtain rfl : m = n := reached.resolve_right (by rw [onward]; exact Bool.false_ne_true)
      have long : (eeprom.toList.take m).length = m := by
        rw [List.length_take, Vector.length_toList]
        omega
      have next : eeprom.toList.take (m + 1) = eeprom.toList.take m ++ [eeprom.read m] := by
        rw [List.take_add_one, Vector.getElem?_toList]
        simp [Eeprom.read, Vector.getElem?_eq_getElem (show m < eepromSize by omega)]
      cases rest with
      | nil =>
        rw [List.length_nil] at left
        omega
      | cons old rest =>
        have copied' := copied.round eeprom onward
        rw [long, ← next] at copied'
        exact ⟨m + 1, rest, le_rfl, copied', by simp at left; omega, .inl rfl⟩

end Loop

/-- What `readSecrets` leaves: everything up to the fourth NUL is copied, or the whole image
if it has fewer. -/
theorem readSecrets_copied (eeprom : Eeprom) :
    ∃ seen more rest : List UInt8, eeprom.toList = seen ++ more ∧ (boot.readSecrets eeprom).Copied seen rest ∧
      (seen.count 0 = 4 ∨ seen.count 0 < 4 ∧ more = [] ∧ rest = []) := by
  obtain ⟨m, rest, within, copied, left, reached⟩ := Loop.copied_range eeprom le_rfl
  refine ⟨_, _, rest, (List.take_append_drop m _).symm, copied.secrets, ?_⟩
  rw [← copied.component]
  by_cases four : ((List.range eepromSize).foldl (Loop.round eeprom) ⟨boot, 0, false⟩).component = 4
  · exact .inl four
  · obtain rfl := reached.resolve_right fun done => four (copied.done.mp done)
    refine .inr ⟨lt_of_le_of_ne copied.most four, ?_, ?_⟩
    · rw [List.drop_of_length_le (by rw [Vector.length_toList])]
    · exact List.eq_nil_of_length_eq_zero (by omega)

/-- A pointer to a string that ends inside `eeprom_data`. -/
def Safe (self : Secrets) (pointer : Option ℕ) : Prop :=
  ∃ start, pointer = some start ∧ CString.Terminated 0 self.eepromData.toList start

/-- A pointer to this very string inside `eeprom_data`. -/
def PointsAt (self : Secrets) (pointer : Option ℕ) (text : List UInt8) : Prop :=
  ∃ start, pointer = some start ∧ CString.Spells 0 self.eepromData.toList start text

section Copied
variable {s : Secrets} {seen rest : List UInt8} {pointer : Option ℕ} {k : ℕ}

/-- With four NULs copied, each of the first four strings is complete. -/
theorem Copied.safe (copied : s.Copied seen rest) (four : seen.count 0 = 4)
    (found : pointer = (CString.starts 0 seen)[k]?) (early : k < 4) : s.Safe pointer := by
  have within : k < (CString.starts 0 seen).length := by
    rw [CString.length_starts]
    omega
  have start := List.getElem?_eq_getElem within
  refine ⟨_, found.trans start, ?_⟩
  have inside : (CString.starts 0 seen)[k] ≤ seen.length := (CString.count_take_start 0 start).1
  rw [CString.Terminated, copied.data, List.drop_append_of_le_length inside]
  exact List.mem_append_left _ ((CString.terminated_iff 0 start).mpr (by omega))

/-- With fewer, the last one is not. -/
theorem Copied.not_safe (copied : s.Copied seen []) (few : seen.count 0 < 4) : ¬ s.Safe s.deviceKey := by
  rintro ⟨start, some, terminated⟩
  rw [copied.data, List.append_nil] at terminated
  have more := (CString.terminated_iff 0 (copied.deviceKey.symm.trans some)).mp terminated
  omega

/-- The pointer to one of the strings laid out. -/
theorem Copied.pointsAt (before : List (List UInt8)) {after : List (List UInt8)} {text left : List UInt8}
    (copied : s.Copied (CString.layout 0 (before ++ text :: after) ++ left) rest)
    (plain : ∀ other ∈ before ++ text :: after, 0 ∉ other)
    (found : pointer = (CString.starts 0 (CString.layout 0 (before ++ text :: after) ++ left))[before.length]?) :
    s.PointsAt pointer text := by
  have spelling : CString.layout 0 (before ++ text :: after) ++ left =
      CString.layout 0 before ++ (CString.layout 0 (text :: after) ++ left) := by
    simp [CString.layout]
  have start := CString.starts_layout 0 (fun other member => plain other (List.mem_append_left _ member))
    (CString.layout 0 (text :: after) ++ left)
  rw [← spelling] at start
  refine ⟨_, found.trans start, ?_⟩
  rw [copied.data, List.append_assoc]
  exact CString.spells_layout 0 before after (plain text (by simp)) _

end Copied

end Secrets

/-- Whatever the EEPROM holds, all four pointers are safe to use exactly if it holds at
least four NULs. -/
theorem secrets_safe_iff (eeprom : Eeprom) :
    let s := Secrets.boot.readSecrets eeprom
    (s.Safe s.wifiSsid ∧ s.Safe s.wifiPassword ∧ s.Safe s.deviceId ∧ s.Safe s.deviceKey) ↔
      4 ≤ eeprom.toList.count 0 := by
  obtain ⟨seen, more, rest, image, copied, reached⟩ := Secrets.readSecrets_copied eeprom
  generalize Secrets.boot.readSecrets eeprom = s at copied
  rw [image, List.count_append]
  rcases reached with four | ⟨few, rfl, rfl⟩
  · refine iff_of_true ⟨?_, ?_, ?_, ?_⟩ (by omega)
    · exact copied.safe four copied.wifiSsid (by decide)
    · exact copied.safe four copied.wifiPassword (by decide)
    · exact copied.safe four copied.deviceId (by decide)
    · exact copied.safe four copied.deviceKey (by decide)
  · exact iff_of_false (fun safe => copied.not_safe few safe.2.2.2) (by simpa using few)

/-- Of a blank EEPROM only the first pointer is set. -/
theorem secrets_not_safe :
    ¬ ∀ eeprom : Eeprom,
      let s := Secrets.boot.readSecrets eeprom
      s.Safe s.wifiSsid ∧ s.Safe s.wifiPassword ∧ s.Safe s.deviceId ∧ s.Safe s.deviceKey := by
  intro safe
  obtain ⟨_, ⟨start, set, _⟩, _⟩ := safe (Vector.replicate eepromSize 0xFF)
  have null : (Secrets.boot.readSecrets (Vector.replicate eepromSize 0xFF)).wifiPassword = none := by decide +kernel
  cases null.symm.trans set

/-! ## Round trip -/

namespace Writer

/-- The writer has written `written` from the start on. -/
structure Written (w : Writer) (written rest : List UInt8) : Prop where
  eeprom : w.eeprom.toList = written ++ rest
  address : w.address = written.length

variable {w : Writer} {written rest : List UInt8}

theorem Written.write {old : UInt8} (done : w.Written written (old :: rest)) (c : UInt8) :
    (w.write c).Written (written ++ [c]) rest := by
  constructor
  · rw [Writer.write, Eeprom.write, Vector.toList_setIfInBounds, done.eeprom, done.address]
    simp
  · rw [Writer.write, done.address, List.length_append, List.length_singleton]

/-- Bytes that still fit are written behind the others. -/
theorem Written.writes (done : w.Written written rest) (bytes : List UInt8) (fits : bytes.length ≤ rest.length) :
    (bytes.foldl Writer.write w).Written (written ++ bytes) (rest.drop bytes.length) := by
  induction bytes generalizing w written rest with
  | nil => simpa using done
  | cons c bytes ih =>
    cases rest with
    | nil => simp at fits
    | cons old rest =>
      have onward := ih (done.write c) (by simpa using fits)
      simpa using onward

/-- Secrets that fit are laid out one after another. -/
theorem setup_layout (eeprom : Eeprom) {ssid password id key : List UInt8}
    (fits : ssid.length + password.length + id.length + key.length + 4 ≤ eepromSize) :
    ∃ more, (setup eeprom ssid password id key).toList = CString.layout 0 [ssid, password, id, key] ++ more := by
  have start : Writer.Written ⟨eeprom, 0⟩ [] eeprom.toList := ⟨rfl, rfl⟩
  have done := start.writes (CString.layout 0 [ssid, password, id, key]) (by
    simp only [CString.layout, List.flatMap_cons, List.flatMap_nil, List.length_append, List.length_singleton,
      List.length_nil, Vector.length_toList]
    omega)
  have stored : (CString.layout 0 [ssid, password, id, key]).foldl Writer.write ⟨eeprom, 0⟩ =
      [ssid, password, id, key].foldl store ⟨eeprom, 0⟩ := List.foldl_flatMap
  rw [stored] at done
  exact ⟨_, done.eeprom⟩

end Writer

/-- Secrets written by the utility are read back by the monitor, whatever the EEPROM held. -/
theorem secrets_round_trip (eeprom : Eeprom) (ssid password id key : List UInt8) (ssidPlain : 0 ∉ ssid)
    (passwordPlain : 0 ∉ password) (idPlain : 0 ∉ id) (keyPlain : 0 ∉ key)
    (fits : ssid.length + password.length + id.length + key.length + 4 ≤ eepromSize) :
    let s := Secrets.boot.readSecrets (Writer.setup eeprom ssid password id key)
    s.PointsAt s.wifiSsid ssid ∧ s.PointsAt s.wifiPassword password ∧ s.PointsAt s.deviceId id ∧
      s.PointsAt s.deviceKey key := by
  obtain ⟨leftover, written⟩ := Writer.setup_layout eeprom fits
  obtain ⟨seen, more, rest, image, copied, reached⟩ := Secrets.readSecrets_copied
    (Writer.setup eeprom ssid password id key)
  generalize Secrets.boot.readSecrets (Writer.setup eeprom ssid password id key) = s at copied
  have plain : ∀ text ∈ [ssid, password, id, key], 0 ∉ text := by simp [*]
  have enough : 4 ≤ seen.count 0 := by
    rcases reached with four | ⟨_, rfl, rfl⟩
    · exact four.ge
    · rw [← List.append_nil seen, ← image, written, List.count_append, CString.count_layout 0 plain]
      exact Nat.le_add_right _ _
  obtain ⟨left, rfl⟩ : CString.layout 0 [ssid, password, id, key] <+: seen :=
    CString.layout_prefix_of_count 0 plain ⟨leftover, written.symm⟩ ⟨more, image.symm⟩ enough
  exact ⟨Secrets.Copied.pointsAt [] copied plain copied.wifiSsid,
    Secrets.Copied.pointsAt [ssid] copied plain copied.wifiPassword,
    Secrets.Copied.pointsAt [ssid, password] copied plain copied.deviceId,
    Secrets.Copied.pointsAt [ssid, password, id] copied plain copied.deviceKey⟩

/-- The secrets of an open network, which has no password, on a blank EEPROM. -/
theorem secrets_round_trip_open :
    let s := Secrets.boot.readSecrets (Writer.setup (Vector.replicate eepromSize 0xFF) [0x70, 0x6F, 0x6F, 0x6C] []
      [0x69, 0x64] [0x6B])
    s.PointsAt s.wifiSsid [0x70, 0x6F, 0x6F, 0x6C] ∧ s.PointsAt s.wifiPassword [] ∧
      s.PointsAt s.deviceId [0x69, 0x64] ∧ s.PointsAt s.deviceKey [0x6B] :=
  secrets_round_trip (Vector.replicate eepromSize 0xFF) [0x70, 0x6F, 0x6F, 0x6C] [] [0x69, 0x64] [0x6B] (by decide)
    (by decide) (by decide) (by decide) (by decide)

end Pentair
