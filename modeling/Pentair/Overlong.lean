import Pentair.Secrets

/-! Secrets that do not fit. The utility writes on past the end of the EEPROM, where nothing
is stored, and says nothing about it. What the monitor makes of the rest is decided for
each secret by itself: it is read back if it ends in time, and else its pointer is unsafe. -/
namespace Pentair

namespace Writer
variable {w : Writer} {written rest : List UInt8}

/-- Behind the end nothing is written any more. -/
theorem foldl_write_full (full : eepromSize ≤ w.address) (bytes : List UInt8) :
    (bytes.foldl write w).eeprom = w.eeprom := by
  induction bytes generalizing w with
  | nil => rfl
  | cons c bytes ih =>
    have dropped : (w.write c).eeprom = w.eeprom := by
      apply Vector.toList_inj.mp
      rw [Writer.write, Eeprom.write, Vector.toList_setIfInBounds, List.set_eq_of_length_le]
      rw [Vector.length_toList]
      exact full
    rw [List.foldl_cons, ih (Nat.le_succ_of_le full), dropped]

/-- Bytes that do not fit are cut off at the end. -/
theorem Written.overflows (done : w.Written written rest) (bytes : List UInt8) (more : rest.length < bytes.length) :
    (bytes.foldl Writer.write w).eeprom.toList = written ++ bytes.take rest.length := by
  have fits : (bytes.take rest.length).length = rest.length := by
    rw [List.length_take]
    omega
  have first := done.writes (bytes.take rest.length) fits.le
  rw [fits, List.drop_length] at first
  have full : eepromSize ≤ ((bytes.take rest.length).foldl Writer.write w).address := by
    have size := congrArg List.length first.eeprom
    rw [Vector.length_toList, List.append_nil, ← first.address] at size
    exact size.le
  rw [← List.take_append_drop rest.length bytes, List.foldl_append, foldl_write_full full, first.eeprom,
    List.append_nil, List.take_append_drop]

/-- What the utility leaves: the secrets one after another, or as much of them as fits. -/
theorem setup_image (eeprom : Eeprom) (ssid password id key : List UInt8) :
    CString.layout 0 [ssid, password, id, key] <+: (setup eeprom ssid password id key).toList ∨
      (setup eeprom ssid password id key).toList = (CString.layout 0 [ssid, password, id, key]).take eepromSize := by
  have start : Writer.Written ⟨eeprom, 0⟩ [] eeprom.toList := ⟨rfl, rfl⟩
  have stored : (CString.layout 0 [ssid, password, id, key]).foldl Writer.write ⟨eeprom, 0⟩ =
      [ssid, password, id, key].foldl store ⟨eeprom, 0⟩ := List.foldl_flatMap
  rw [setup, ← stored]
  rcases Nat.lt_or_ge eeprom.toList.length (CString.layout 0 [ssid, password, id, key]).length with longer | fits
  · right
    rw [start.overflows _ longer, List.nil_append, Vector.length_toList]
  · left
    exact ⟨_, (start.writes _ fits).eeprom.symm⟩

end Writer

namespace Secrets

/-- A pointer is safe exactly if the string it is for ends in time, and then it points at it. -/
def Stored (self : Secrets) (pointer : Option ℕ) (before : List (List UInt8)) (text : List UInt8) : Prop :=
  (self.Safe pointer ↔ (CString.layout 0 (before ++ [text])).length ≤ eepromSize) ∧
    (self.Safe pointer → self.PointsAt pointer text)

section Copied
variable {s : Secrets} {seen more rest : List UInt8} {pointer : Option ℕ}

theorem PointsAt.safe {text : List UInt8} (points : s.PointsAt pointer text) : s.Safe pointer := by
  obtain ⟨start, found, _, ended⟩ := points
  exact ⟨start, found, ended.subset (List.mem_append_right _ (List.mem_singleton_self 0))⟩

/-- Without a terminator for it, a string is not complete. -/
theorem Copied.not_safe_of_count {k : ℕ} (copied : s.Copied seen []) (few : seen.count 0 ≤ k)
    (found : pointer = (CString.starts 0 seen)[k]?) : ¬ s.Safe pointer := by
  rintro ⟨start, some, terminated⟩
  rw [copied.data, List.append_nil] at terminated
  have enough := (CString.terminated_iff 0 (found.symm.trans some)).mp terminated
  omega

/-- One of four strings laid out, as far as they fit. -/
theorem Copied.stored {image : List UInt8} (before : List (List UInt8)) {after : List (List UInt8)}
    {text : List UInt8} (plain : ∀ other ∈ before ++ text :: after, 0 ∉ other)
    (four : (before ++ text :: after).length = 4)
    (laid : CString.layout 0 (before ++ text :: after) <+: image ∨
      image = (CString.layout 0 (before ++ text :: after)).take eepromSize)
    (size : image.length = eepromSize) (split : image = seen ++ more) (copied : s.Copied seen rest)
    (reached : seen.count 0 = 4 ∨ seen.count 0 < 4 ∧ more = [] ∧ rest = [])
    (found : pointer = (CString.starts 0 seen)[before.length]?) : s.Stored pointer before text := by
  have short : before.length < 4 := by
    rw [List.length_append, List.length_cons] at four
    omega
  have plain' : ∀ other ∈ before ++ [text], 0 ∉ other := fun other member =>
    plain other (by
      rcases List.mem_append.mp member with early | last
      · exact List.mem_append_left _ early
      · rw [List.mem_singleton.mp last]
        simp)
  have whole : CString.layout 0 (before ++ [text]) <+: CString.layout 0 (before ++ text :: after) :=
    ⟨CString.layout 0 after, by simp [CString.layout]⟩
  by_cases fits : (CString.layout 0 (before ++ [text])).length ≤ eepromSize
  · -- it ends in time, so its terminator is among those copied
    have inside : CString.layout 0 (before ++ [text]) <+: image := by
      rcases laid with all | cut
      · exact whole.trans all
      · rw [cut]
        exact List.prefix_take_iff.mpr ⟨whole, fits⟩
    have enough : (before ++ [text]).length ≤ seen.count 0 := by
      rw [List.length_append, List.length_singleton]
      rcases reached with done | ⟨_, rfl, _⟩
      · omega
      · have count := inside.sublist.count_le 0
        rw [CString.count_layout 0 plain', split, List.append_nil] at count
        simpa using count
    obtain ⟨left, rfl⟩ := CString.layout_prefix_of_count 0 plain' inside ⟨more, split.symm⟩ enough
    have points := Copied.pointsAt before copied plain' found
    exact ⟨iff_of_true points.safe fits, fun _ => points⟩
  · -- the image ends before its terminator
    have cut : image <+: CString.layout 0 before ++ text := by
      have shorter : image <+: CString.layout 0 (before ++ [text]) := by
        rcases laid with all | cut
        · have long := (whole.trans all).length_le
          omega
        · refine List.prefix_of_prefix_length_le (cut ▸ List.take_prefix _ _) whole ?_
          omega
      rw [CString.layout_concat] at shorter fits
      rcases List.prefix_concat_iff.mp shorter with same | inside
      · rw [same] at size
        omega
      · exact inside
    have few : seen.count 0 ≤ before.length := by
      have count := cut.sublist.count_le 0
      rw [split, List.count_append, List.count_append, List.count_eq_zero_of_not_mem (plain text (by simp)),
        CString.count_layout 0 fun other member => plain other (List.mem_append_left _ member)] at count
      omega
    rcases reached with done | ⟨_, _, rfl⟩
    · omega
    · have loose := copied.not_safe_of_count few found
      exact ⟨iff_of_false loose fits, fun safe => absurd safe loose⟩

end Copied
end Secrets

/-- Whatever the lengths of the secrets and whatever the EEPROM held, each secret that ends within
it is read back, and the pointer to any other one is not safe. -/
theorem secrets_stored (eeprom : Eeprom) (ssid password id key : List UInt8) (ssidPlain : 0 ∉ ssid)
    (passwordPlain : 0 ∉ password) (idPlain : 0 ∉ id) (keyPlain : 0 ∉ key) :
    let s := Secrets.boot.readSecrets (Writer.setup eeprom ssid password id key)
    s.Stored s.wifiSsid [] ssid ∧ s.Stored s.wifiPassword [ssid] password ∧ s.Stored s.deviceId [ssid, password] id ∧
      s.Stored s.deviceKey [ssid, password, id] key := by
  have laid := Writer.setup_image eeprom ssid password id key
  have size : (Writer.setup eeprom ssid password id key).toList.length = eepromSize := Vector.length_toList
  obtain ⟨seen, more, rest, image, copied, reached⟩ := Secrets.readSecrets_copied
    (Writer.setup eeprom ssid password id key)
  generalize Secrets.boot.readSecrets (Writer.setup eeprom ssid password id key) = s at copied
  have plain : ∀ text ∈ [ssid, password, id, key], 0 ∉ text := by simp [*]
  exact ⟨copied.stored [] plain rfl laid size image reached copied.wifiSsid,
    copied.stored [ssid] plain rfl laid size image reached copied.wifiPassword,
    copied.stored [ssid, password] plain rfl laid size image reached copied.deviceId,
    copied.stored [ssid, password, id] plain rfl laid size image reached copied.deviceKey⟩

/-- A long name and a long password: the password and what follows it are lost. -/
theorem secrets_stored_long :
    let s := Secrets.boot.readSecrets (Writer.setup (Vector.replicate eepromSize 0xFF) (List.replicate 64 0x61)
      (List.replicate 63 0x62) [0x69] [0x6B])
    s.Stored s.wifiSsid [] (List.replicate 64 0x61) ∧
      s.Stored s.wifiPassword [List.replicate 64 0x61] (List.replicate 63 0x62) ∧
      s.Stored s.deviceId [List.replicate 64 0x61, List.replicate 63 0x62] [0x69] ∧
      s.Stored s.deviceKey [List.replicate 64 0x61, List.replicate 63 0x62, [0x69]] [0x6B] :=
  secrets_stored (Vector.replicate eepromSize 0xFF) (List.replicate 64 0x61) (List.replicate 63 0x62) [0x69] [0x6B]
    (by decide) (by decide) (by decide) (by decide)

end Pentair
