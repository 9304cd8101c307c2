import Pentair.Delivery

/-! Bytes written as hex text, two digits each with blanks between them, and what
`PushHex` makes of such text: it pushes the bytes until one completes a packet. The
loop of `PushHex` runs over an index, which a pair of digits moves on by two, so it is
first taken to the recursion over the text that `pushHex` is. -/
namespace Pentair

/-- `c` is the digit for `value`, in either case. -/
def HexDigit (c : Char) (value : ℕ) : Prop :=
  value < 16 ∧ (c = value.digitChar ∨ c = value.digitChar.toUpper)

instance (c : Char) (value : ℕ) : Decidable (HexDigit c value) := inferInstanceAs (Decidable (_ ∧ _))

/-- The text spells the bytes, with any blanks between the pairs of digits. -/
inductive HexText : List Char → List UInt8 → Prop
  | nil : HexText [] []
  | blank {c : Char} {text : List Char} {bytes : List UInt8} (isBlank : c = ' ' ∨ c = '\t')
      (rest : HexText text bytes) : HexText (c :: text) bytes
  | pair {hi lo : Char} {text : List Char} {b : UInt8} {bytes : List UInt8} (high : HexDigit hi (b.toNat / 16))
      (low : HexDigit lo (b.toNat % 16)) (rest : HexText text bytes) : HexText (hi :: lo :: text) (b :: bytes)

namespace Packet

/-- The loop of `PushHex` from index `i` on. What it finds past the last character is the
terminating NUL. -/
def pushHexFrom (self : Packet) (env : ℕ → Env) (f : List Char) (i : ℕ) : Bool × Packet :=
  if i < f.length then
    if f.getD i '\x00' ≠ ' ' ∧ f.getD i '\x00' ≠ '\t' then
      let hi := f.getD i '\x00'
      let lo := f.getD (i + 1) '\x00'
      let pushed := self.push (env 0) (htoi hi * 16 + htoi lo)
      if pushed.complete then (true, pushed.packet)
      -- the index moves on within the pair, and again at the end of the round
      else pushed.packet.pushHexFrom (fun n => env (n + 1)) f (i + 2)
    else self.pushHexFrom env f (i + 1)
  else (false, self)
termination_by f.length - i

/-- `Push` on bytes in order, up to the first that completes a packet. -/
def pushBytes (self : Packet) (env : ℕ → Env) : List UInt8 → Bool × Packet
  | [] => (false, self)
  | b :: rest =>
    let pushed := self.push (env 0) b
    if pushed.complete then (true, pushed.packet) else pushed.packet.pushBytes (fun n => env (n + 1)) rest

end Packet

namespace HexPrint

def digits : List Char := "0123456789abcdef".toList

/-- What `HexPrint` prints of a byte that is written to it. -/
def write (c : UInt8) : List Char :=
  [digits.getD ((c >>> 4) &&& 0x0F).toNat '\x00', digits.getD (c &&& 0x0F).toNat '\x00', ' ']

/-- The text of bytes written one after another. -/
def text (bytes : List UInt8) : List Char := bytes.flatMap write

end HexPrint

/-! ## Digits -/

private theorem htoi_digitChar : ∀ value < 16, htoi value.digitChar = UInt8.ofNat value ∧
    htoi value.digitChar.toUpper = UInt8.ofNat value ∧
    (value.digitChar ≠ ' ' ∧ value.digitChar ≠ '\t') ∧
    value.digitChar.toUpper ≠ ' ' ∧ value.digitChar.toUpper ≠ '\t' := by
  decide

theorem HexDigit.htoi {c : Char} {value : ℕ} (digit : HexDigit c value) : htoi c = UInt8.ofNat value := by
  obtain ⟨small, rfl | rfl⟩ := digit
  · exact (htoi_digitChar value small).1
  · exact (htoi_digitChar value small).2.1

theorem HexDigit.not_blank {c : Char} {value : ℕ} (digit : HexDigit c value) : c ≠ ' ' ∧ c ≠ '\t' := by
  obtain ⟨small, rfl | rfl⟩ := digit
  · exact (htoi_digitChar value small).2.2.1
  · exact (htoi_digitChar value small).2.2.2

namespace HexText
variable {c lo : Char} {text : List Char} {b : UInt8} {bytes : List UInt8}

theorem blank_iff (isBlank : c = ' ' ∨ c = '\t') : HexText (c :: text) bytes ↔ HexText text bytes := by
  constructor
  · intro spelled
    cases spelled with
    | blank _ rest => exact rest
    | pair high _ _ => exact (isBlank.elim high.not_blank.1 high.not_blank.2).elim
  · exact .blank isBlank

theorem pair_iff (digit : ¬ (c = ' ' ∨ c = '\t')) :
    HexText (c :: lo :: text) (b :: bytes) ↔
      (HexDigit c (b.toNat / 16) ∧ HexDigit lo (b.toNat % 16)) ∧ HexText text bytes := by
  constructor
  · intro spelled
    cases spelled with
    | blank isBlank _ => exact absurd isBlank digit
    | pair high low rest => exact ⟨⟨high, low⟩, rest⟩
  · rintro ⟨⟨high, low⟩, rest⟩
    exact .pair high low rest

/-- A digit spells nothing without another one and a byte. -/
theorem not_spelled (digit : ¬ (c = ' ' ∨ c = '\t')) (lone : text = [] ∨ bytes = []) :
    ¬ HexText (c :: text) bytes := by
  intro spelled
  cases spelled with
  | blank isBlank _ => exact digit isBlank
  | pair _ _ _ => exact lone.elim nofun nofun

/-- Texts one behind the other spell what they spell. -/
theorem append {first second : List Char} {more : List UInt8} (before : HexText first bytes)
    (behind : HexText second more) : HexText (first ++ second) (bytes ++ more) := by
  induction before with
  | nil => exact behind
  | blank isBlank _ ih => exact .blank isBlank ih
  | pair high low _ ih => exact .pair high low ih

instance decidable : (text : List Char) → (bytes : List UInt8) → Decidable (HexText text bytes)
  | [], [] => .isTrue .nil
  | [], _ :: _ => .isFalse nofun
  | c :: text, bytes =>
    if isBlank : c = ' ' ∨ c = '\t' then @decidable_of_iff _ _ (blank_iff isBlank).symm (decidable text bytes)
    else
      match text, bytes with
      | _ :: text, _ :: bytes =>
        @decidable_of_iff _ _ (pair_iff isBlank).symm (@instDecidableAnd _ _ _ (decidable text bytes))
      | [], _ => .isFalse (not_spelled isBlank (.inl rfl))
      | _ :: _, [] => .isFalse (not_spelled isBlank (.inr rfl))

end HexText

/-- Two digits make up the byte they spell. -/
theorem htoi_pair {hi lo : Char} {b : UInt8} (high : HexDigit hi (b.toNat / 16)) (low : HexDigit lo (b.toNat % 16)) :
    htoi hi * 16 + htoi lo = b := by
  have bound := b.toNat_lt
  rw [high.htoi, low.htoi]
  apply UInt8.toNat_inj.mp
  simp only [UInt8.toNat_add, UInt8.toNat_mul, UInt8.toNat_ofNat', UInt8.reduceToNat]
  omega

private theorem digits_spell : ∀ value < 16, HexDigit (HexPrint.digits.getD value '\x00') value := by decide

/-- What is printed spells the bytes. -/
theorem HexPrint.text_spells (bytes : List UInt8) : HexText (text bytes) bytes := by
  induction bytes with
  | nil => exact .nil
  | cons b rest ih =>
    have bound := b.toNat_lt
    have shifted : (b >>> 4).toNat = b.toNat / 16 := by
      rw [UInt8.toNat_shiftRight]
      exact Nat.shiftRight_eq_div_pow _ 4
    have high : ((b >>> 4) &&& 0x0F).toNat = b.toNat / 16 := by
      rw [UInt8.toNat_and, shifted]
      exact (Nat.and_two_pow_sub_one_eq_mod _ 4).trans (Nat.mod_eq_of_lt (by omega))
    have low : (b &&& 0x0F).toNat = b.toNat % 16 := by
      rw [UInt8.toNat_and]
      exact Nat.and_two_pow_sub_one_eq_mod _ 4
    refine .pair ?_ ?_ (.blank (.inl rfl) ih)
    · rw [high]
      exact digits_spell _ (by omega)
    · rw [low]
      exact digits_spell _ (by omega)

namespace HexPrint

theorem digit_mem (n : UInt8) : digits.getD (n &&& 0x0F).toNat '\x00' ∈ digits := by
  have small : (n &&& 0x0F).toNat < digits.length := by
    rw [UInt8.toNat_and]
    exact Nat.lt_of_le_of_lt Nat.and_le_right (by decide)
  rw [List.getD_eq_getElem?_getD, List.getElem?_eq_getElem small]
  exact List.getElem_mem small

/-- The digits are those of the byte. -/
theorem write_digits (b : UInt8) : HexDigit (digits.getD ((b >>> 4) &&& 0x0F).toNat '\x00') (b.toNat / 16) ∧
    HexDigit (digits.getD (b &&& 0x0F).toNat '\x00') (b.toNat % 16) := by
  have blanks : ' ' ∉ digits ∧ '\t' ∉ digits := by decide
  have unblank {c : Char} (digit : c ∈ digits) : ¬ (c = ' ' ∨ c = '\t') := by
    rintro (rfl | rfl)
    · exact blanks.1 digit
    · exact blanks.2 digit
  have spelled : HexText (write b ++ []) [b] := text_spells [b]
  exact ((HexText.pair_iff (unblank (digit_mem _))).mp spelled).1

/-- No blank is needed behind the last byte. -/
theorem text_spells_last (bytes : List UInt8) (b : UInt8) :
    HexText (text bytes ++ (write b).dropLast) (bytes ++ [b]) := by
  obtain ⟨high, low⟩ := write_digits b
  exact (text_spells bytes).append (.pair high low .nil)

end HexPrint

/-! ## Text and bytes -/

namespace Packet

/-- A blank where a pair may begin is skipped. -/
theorem pushHex_blank (p : Packet) (env : ℕ → Env) {c : Char} (isBlank : c = ' ' ∨ c = '\t') (text : List Char) :
    p.pushHex env (c :: text) = p.pushHex env text := by
  have skipped : ¬ (c ≠ ' ' ∧ c ≠ '\t') := by
    rintro ⟨space, tab⟩
    exact isBlank.elim space tab
  cases text with
  | nil => simp only [pushHex, skipped, if_false]
  | cons d rest => rw [pushHex, if_neg skipped]

/-- Anything else is taken for a digit, and the character behind it for the other one,
whatever they are. -/
theorem pushHex_digit (p : Packet) (env : ℕ → Env) {hi : Char} (digit : hi ≠ ' ' ∧ hi ≠ '\t') (rest : List Char) :
    p.pushHex env (hi :: rest) =
      if (p.push (env 0) (htoi hi * 16 + htoi (rest.headD '\x00'))).complete then
        (true, (p.push (env 0) (htoi hi * 16 + htoi (rest.headD '\x00'))).packet)
      else
        (p.push (env 0) (htoi hi * 16 + htoi (rest.headD '\x00'))).packet.pushHex (fun n => env (n + 1))
          rest.tail := by
  cases rest with
  | nil =>
    rw [pushHex, if_pos digit]
    cases complete : (p.push (env 0) (htoi hi * 16 + htoi '\x00')).complete <;> simp [complete, pushHex]
  | cons lo rest =>
    rw [pushHex, if_pos digit]
    rfl

private theorem drop_getD {f : List Char} {i : ℕ} (inside : i < f.length) :
    f.drop i = f.getD i '\x00' :: f.drop (i + 1) := by
  rw [List.getD_eq_getElem?_getD, List.getElem?_eq_getElem inside]
  exact List.drop_eq_getElem_cons inside

private theorem headD_drop (f : List Char) (i : ℕ) : (f.drop i).headD '\x00' = f.getD i '\x00' := by
  rw [List.headD_eq_head?_getD, List.head?_drop, List.getD_eq_getElem?_getD]

/-- From any index on, the loop is the recursion over the rest of the text. -/
theorem pushHexFrom_eq (p : Packet) (env : ℕ → Env) (f : List Char) (i : ℕ) :
    p.pushHexFrom env f i = p.pushHex env (f.drop i) := by
  fun_induction pushHexFrom p env f i with
  | case1 p env i inside digit hi lo pushed complete =>
    rw [drop_getD inside, pushHex_digit p env digit, headD_drop]
    exact (if_pos complete).symm
  | case2 p env i inside digit hi lo pushed incomplete ih =>
    rw [ih, drop_getD inside, pushHex_digit p env digit, headD_drop, List.tail_drop]
    exact (if_neg incomplete).symm
  | case3 p env i inside blank ih =>
    rw [ih, drop_getD inside, pushHex_blank p env (by simpa [or_iff_not_imp_left] using blank)]
  | case4 p env i outside =>
    rw [List.drop_eq_nil_of_le (Nat.le_of_not_lt outside)]
    rfl

/-- Pushing hex text pushes the bytes it spells. -/
theorem pushHex_spelled (p : Packet) (env : ℕ → Env) {text : List Char} {bytes : List UInt8}
    (spelled : HexText text bytes) : p.pushHex env text = p.pushBytes env bytes := by
  induction spelled generalizing p env with
  | nil => rfl
  | blank isBlank rest ih => rw [pushHex_blank p env isBlank, ih]
  | pair high low rest ih =>
    rw [pushHex_digit p env high.not_blank, List.headD_cons, List.tail_cons, htoi_pair high low, ih]
    rfl

/-- Bytes are pushed up to the first completion that a scan finds. -/
theorem pushBytes_eq (p : Packet) (env : ℕ → Env) (bytes : List UInt8) :
    p.pushBytes env bytes =
      ((Packet.recognizer.scan p (arrivals env bytes)).1.isSome,
        (Packet.recognizer.scan p (arrivals env bytes)).2) := by
  induction bytes generalizing p env with
  | nil => rfl
  | cons b rest ih =>
    rw [pushBytes, arrivals_cons]
    cases complete : (p.push (env 0) b).complete with
    | true => simp [Recognizer.scan, Packet.recognizer, complete]
    | false =>
      rw [if_neg Bool.false_ne_true, ih]
      simp [Recognizer.scan, Packet.recognizer, complete]

/-- Pushing hex text pushes the bytes it spells, up to the first that completes a packet. -/
theorem pushHex_eq (p : Packet) (env : ℕ → Env) {text : List Char} {bytes : List UInt8}
    (spelled : HexText text bytes) :
    p.pushHex env text =
      ((Packet.recognizer.scan p (arrivals env bytes)).1.isSome, (Packet.recognizer.scan p (arrivals env bytes)).2) :=
  (p.pushHex_spelled env spelled).trans (p.pushBytes_eq env bytes)

/-- Hex text that completes nothing leaves what its bytes leave. -/
theorem pushHex_of_none {p q : Packet} {env : ℕ → Env} {text : List Char} {bytes : List UInt8}
    (spelled : HexText text bytes) (silent : Packet.recognizer.scan p (arrivals env bytes) = (none, q)) :
    p.pushHex env text = (false, q) := by
  rw [pushHex_eq p env spelled, silent]
  rfl

end Packet

/-- Hex text and bytes are the same input: whatever the case of its digits and wherever its
blanks stand, `PushHex` on a text does what pushing the bytes it spells does. So it does on
the text that `HexPrint` makes of them. -/
theorem hex_text_pushed (p : Packet) (env : ℕ → Env) (bytes : List UInt8) :
    (∀ text, HexText text bytes → p.pushHexFrom env text 0 = p.pushBytes env bytes) ∧
      p.pushHexFrom env (HexPrint.text bytes) 0 = p.pushBytes env bytes := by
  have pushed : ∀ text, HexText text bytes → p.pushHexFrom env text 0 = p.pushBytes env bytes := by
    intro text spelled
    rw [Packet.pushHexFrom_eq, List.drop_zero, Packet.pushHex_spelled p env spelled]
  exact ⟨pushed, pushed _ (HexPrint.text_spells bytes)⟩

/-- Text in both cases and with uneven blanks, that goes on behind a packet. -/
theorem hex_text_pushed_uneven :
    (default : Packet).pushHexFrom default " 10 02\t5011  32A5 10\t03 fF".toList 0 =
      (default : Packet).pushBytes default [0x10, 0x02, 0x50, 0x11, 0x32, 0xA5, 0x10, 0x03, 0xFF] :=
  (hex_text_pushed default default [0x10, 0x02, 0x50, 0x11, 0x32, 0xA5, 0x10, 0x03, 0xFF]).1 _ (by decide +kernel)

end Pentair
