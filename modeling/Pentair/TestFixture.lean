import Pentair.HexText

/-! The fixture of the unit tests, which writes packets as hex text and has `CheckSum` spell
the sum of what it has written so far. Behind an IntelliTouch packet that is its checksum.
Behind an IntelliChlor packet it is a byte too many, which does no harm while it is zero. -/
namespace Pentair
open ByteSum

/-- `String((int) c, HEX)`, with a zero in front of a single digit. -/
def asHex (c : UInt8) : List Char := if c < 0x10 then '0' :: Nat.toDigits 16 c.toNat else Nat.toDigits 16 c.toNat

/-- The loop of `CheckSum`, which goes through the text as that of `PushHex` does. -/
def checkSumFrom (chk : UInt16) : List Char → UInt16
  | [] => chk
  | [hi] => if hi ≠ ' ' ∧ hi ≠ '\t' then chk + (htoi hi * 16 + htoi '\x00').toUInt16 else chk
  | hi :: lo :: rest =>
    if hi ≠ ' ' ∧ hi ≠ '\t' then checkSumFrom (chk + (htoi hi * 16 + htoi lo).toUInt16) rest
    else checkSumFrom chk (lo :: rest)

/-- `CheckSum` -/
def checkSum (f : List Char) : List Char :=
  let chk := checkSumFrom 0 f
  asHex (chk / 256).toUInt8 ++ [' '] ++ asHex (chk &&& 0xFF).toUInt8

/-- There are two digits whatever the byte. -/
theorem asHex_digits (c : UInt8) : asHex c = [(c.toNat / 16).digitChar, (c.toNat % 16).digitChar] := by
  have bound := c.toNat_lt
  have small : c < 0x10 ↔ c.toNat < 16 := UInt8.lt_iff_toNat_lt
  by_cases single : c.toNat < 16
  · rw [asHex, if_pos (small.mpr single), Nat.toDigits_of_lt_base single, Nat.div_eq_of_lt single,
      Nat.mod_eq_of_lt single]
    rfl
  · rw [asHex, if_neg (mt small.mp single), Nat.toDigits_of_base_le (by decide) (by omega),
      Nat.toDigits_of_lt_base (by omega)]
    rfl

theorem asHex_spells (c : UInt8) : HexText (asHex c) [c] := by
  have bound := c.toNat_lt
  rw [asHex_digits]
  exact .pair ⟨by omega, .inl rfl⟩ ⟨by omega, .inl rfl⟩ .nil

theorem checkSumFrom_blank (chk : UInt16) {c : Char} (isBlank : c = ' ' ∨ c = '\t') (text : List Char) :
    checkSumFrom chk (c :: text) = checkSumFrom chk text := by
  have skipped : ¬ (c ≠ ' ' ∧ c ≠ '\t') := by
    rintro ⟨space, tab⟩
    exact isBlank.elim space tab
  cases text with
  | nil => simp only [checkSumFrom, skipped, if_false]
  | cons d rest => rw [checkSumFrom, if_neg skipped]

/-- The loop sums the bytes that the text spells. -/
theorem checkSumFrom_spelled {text : List Char} {bytes : List UInt8} (spelled : HexText text bytes) (sum : ℕ) :
    checkSumFrom (UInt16.ofNat sum) text = UInt16.ofNat (sum + byteSum bytes) := by
  induction spelled generalizing sum with
  | nil => rfl
  | blank isBlank _ ih => rw [checkSumFrom_blank _ isBlank, ih]
  | pair high low _ ih =>
    rw [checkSumFrom, if_pos high.not_blank, htoi_pair high low, ofNat_add_byte, ih, byteSum_cons, Nat.add_assoc]

/-- The text is that of the two bytes of the sum. -/
theorem checkSum_spells {text : List Char} {bytes : List UInt8} (spelled : HexText text bytes) :
    HexText (checkSum text) [UInt8.ofNat (byteSum bytes / 256), UInt8.ofNat (byteSum bytes)] := by
  have summed : checkSumFrom 0 text = UInt16.ofNat (byteSum bytes) := by
    rw [← Nat.zero_add (byteSum bytes)]
    exact checkSumFrom_spelled spelled 0
  have high : (UInt16.ofNat (byteSum bytes) / 256).toUInt8 = UInt8.ofNat (byteSum bytes / 256) := by
    apply UInt8.toNat_inj.mp
    simp only [UInt16.toNat_toUInt8, UInt16.toNat_div, UInt16.toNat_ofNat', UInt16.reduceToNat, UInt8.toNat_ofNat']
    omega
  have low : (UInt16.ofNat (byteSum bytes) &&& 0xFF).toUInt8 = UInt8.ofNat (byteSum bytes) := by
    have masked : ∀ n : ℕ, n &&& 255 = n % 256 := fun n => Nat.and_two_pow_sub_one_eq_mod n 8
    apply UInt8.toNat_inj.mp
    simp only [UInt16.toNat_toUInt8, UInt16.toNat_and, UInt16.toNat_ofNat', UInt16.reduceToNat, UInt8.toNat_ofNat',
      masked]
    omega
  rw [checkSum, summed, high, low, List.append_assoc]
  exact (asHex_spells _).append (.blank (.inl rfl) (asHex_spells _))

/-- An IntelliTouch frame that is written as text, from the last byte of its start sequence on
with `CheckSum` behind it, is read as that frame behind any noise that leaves it inside the
window. -/
theorem checkSum_touch (p : Packet) (env : ℕ → Env) {noise : List UInt8} (quiet : Quiet noise) (f : TouchFrame)
    (fits : noise.length + f.bytes.length ≤ 255) {lead text : List Char}
    (opened : HexText lead (noise ++ [0xFF, 0x00, 0xFF]))
    (spelled : HexText text (0xA5 :: f.header.bytes ++ f.payload)) :
    ∃ q, p.readFrom env (lead ++ text ++ ' ' :: checkSum text) = (true, q) ∧
      ∀ view position, q.delivery view position = (Frame.touch f).delivery position := by
  have sum : byteSum (0xA5 :: f.header.bytes ++ f.payload) = touchSum f.header f.payload := rfl
  have whole : HexText (lead ++ text ++ ' ' :: checkSum text) (noise ++ f.bytes) := by
    have bytes := (opened.append spelled).append (.blank (.inl rfl) (checkSum_spells spelled))
    rw [sum] at bytes
    simpa [TouchFrame.bytes, touchStart, TouchFrame.checksumHi, TouchFrame.checksumLo] using bytes
  obtain ⟨k, q, found, _, exposed⟩ := item_delivered (tracks_reset p) ⟨noise, .touch f, quiet, fits⟩ env
  have found : Packet.recognizer.scan p.reset (arrivals env (noise ++ f.bytes)) = (some k, q) := found
  refine ⟨q, ?_, exposed⟩
  rw [Packet.readFrom, Packet.pushHex_eq _ env whole, found]
  rfl

/-- The stop request of a pump, as the tests write it. -/
theorem checkSum_touch_pumpOff :
    ∃ q, (default : Packet).readFrom default ("ff ff 00 ff ".toList ++ "a5 00 60 10 06 01 04".toList ++
        ' ' :: checkSum "a5 00 60 10 06 01 04".toList) = (true, q) ∧
      ∀ view position, q.delivery view position = (Frame.touch pumpOff).delivery position :=
  checkSum_touch default default (show Quiet [0xFF] by decide) pumpOff (by decide)
    (HexPrint.text_spells [0xFF, 0xFF, 0x00, 0xFF])
    (HexPrint.text_spells_last [0xA5, 0x00, 0x60, 0x10, 0x06, 0x01] 0x04)

/-- An IntelliChlor packet that is written like that, and does not end too early or behind the
window, is valid only as long as its sum fits one byte: the checksum has one byte, and the
other one that `CheckSum` spells is taken for data. -/
theorem checkSum_chlor (p : Packet) (env : ℕ → Env) {data : List UInt8} (short : data.length ≤ 249) {text : List Char}
    (spelled : HexText text (chlorStart ++ data))
    (closed : ¬ chlorEnd <:+: data ++ [UInt8.ofNat (chlorSum data / 256), UInt8.ofNat (chlorSum data)]) :
    ∃ q, p.readFrom env (text ++ ' ' :: checkSum text ++ " 10 03".toList) = (true, q) ∧
      (q.valid = true ↔ chlorSum data < 256) := by
  have sum : byteSum (chlorStart ++ data) = chlorSum data := byteSum_append _ _
  have whole : HexText (text ++ ' ' :: checkSum text ++ " 10 03".toList)
      (chlorStart ++ (data ++ [UInt8.ofNat (chlorSum data / 256)] ++ [UInt8.ofNat (chlorSum data)] ++ chlorEnd)) := by
    have ending : HexText " 10 03".toList chlorEnd :=
      .blank (.inl rfl) (HexPrint.text_spells_last [0x10] 0x03)
    have bytes := (spelled.append (.blank (.inl rfl) (checkSum_spells spelled))).append ending
    rw [sum] at bytes
    simpa using bytes
  have long : (data ++ [UInt8.ofNat (chlorSum data / 256)]).length ≤ 250 := by
    rw [List.length_append, List.length_singleton]
    omega
  have unclosed : ¬ chlorEnd <:+: data ++ [UInt8.ofNat (chlorSum data / 256)] ++ [UInt8.ofNat (chlorSum data)] := by
    simpa using closed
  have read := Receiver.scan_chlor (show Quiet [] by decide) unclosed (by simpa using long)
  rw [List.nil_append, ← arrivals_bytes env (_ ++ _)] at read
  obtain ⟨q, found, received⟩ := (tracks_reset p).scan_received read
  have exposed := chlor_exposed received (by
    simp only [chlorStart, List.length_append, List.length_cons, List.length_nil]
    omega)
  refine ⟨q, ?_, ?_⟩
  · rw [Packet.readFrom, Packet.pushHex_eq _ env whole, found]
    rfl
  · have bound := byteSum_le data
    rw [exposed.valid]
    simp only [chlorSum, byteSum_append, byteSum_cons, byteSum_nil, UInt8.toNat_ofNat']
    omega

/-- A request of the control center, as the tests write it. -/
theorem checkSum_chlor_request :
    ∃ q, (default : Packet).readFrom default
        ("10 02 50 11 64".toList ++ ' ' :: checkSum "10 02 50 11 64".toList ++ " 10 03".toList) = (true, q) ∧
      (q.valid = true ↔ chlorSum [0x50, 0x11, 0x64] < 256) :=
  checkSum_chlor default default (show [0x50, 0x11, 0x64].length ≤ 249 by decide)
    (HexPrint.text_spells_last [0x10, 0x02, 0x50, 0x11] 0x64) (by decide)

end Pentair
