import Mathlib.Algebra.BigOperators.Group.List.Basic
import Mathlib.Algebra.GroupWithZero.Nat

/-! Sums of bytes and the running sums a fixed-width register keeps of them. The
exact sum is a natural number; a register holds it reduced modulo its width, and
replacing one byte always shows in the reduced sum. -/
namespace ByteSum

/-- The exact sum of a list of bytes. -/
def byteSum (bytes : List UInt8) : ℕ := (bytes.map UInt8.toNat).sum

@[simp] theorem byteSum_nil : byteSum [] = 0 := rfl

@[simp] theorem byteSum_cons (b : UInt8) (bytes : List UInt8) :
    byteSum (b :: bytes) = b.toNat + byteSum bytes := rfl

@[simp] theorem byteSum_append (first second : List UInt8) :
    byteSum (first ++ second) = byteSum first + byteSum second := by
  simp [byteSum]

theorem byteSum_le (bytes : List UInt8) : byteSum bytes ≤ bytes.length * 255 := by
  induction bytes with
  | nil => exact Nat.le_refl 0
  | cons b rest ih =>
    have bound := b.toNat_lt
    rw [byteSum_cons, List.length_cons]
    omega

/-- A sixteen-bit register adds a byte to the sum it holds. -/
theorem ofNat_add_byte (sum : ℕ) (b : UInt8) :
    UInt16.ofNat sum + b.toUInt16 = UInt16.ofNat (sum + b.toNat) := by
  apply UInt16.toNat_inj.mp
  simp [UInt16.toNat_add]

/-- An eight-bit register summing a list holds its exact sum, reduced. -/
theorem foldl_add_bytes (sum : ℕ) (bytes : List UInt8) :
    bytes.foldl (· + ·) (UInt8.ofNat sum) = UInt8.ofNat (sum + byteSum bytes) := by
  induction bytes generalizing sum with
  | nil => rfl
  | cons b rest ih =>
    have first : UInt8.ofNat sum + b = UInt8.ofNat (sum + b.toNat) := by
      apply UInt8.toNat_inj.mp
      simp [UInt8.toNat_add]
    rw [List.foldl_cons, first, ih, byteSum_cons, Nat.add_assoc]

/-- A sixteen-bit sum equals a big-endian pair of bytes. -/
theorem ofNat_eq_bigEndian (sum : ℕ) (hi lo : UInt8) :
    UInt16.ofNat sum = hi.toUInt16 * 256 + lo.toUInt16 ↔
      sum % 65536 = hi.toNat * 256 + lo.toNat := by
  have hiBound := hi.toNat_lt
  have loBound := lo.toNat_lt
  rw [← UInt16.toNat_inj]
  simp only [UInt16.toNat_ofNat', UInt16.toNat_add, UInt16.toNat_mul, UInt8.toNat_toUInt16,
    UInt16.reduceToNat]
  omega

theorem ofNat_eq_byte (sum : ℕ) (b : UInt8) : UInt8.ofNat sum = b ↔ sum % 256 = b.toNat := by
  rw [← UInt8.toNat_inj]
  simp

/-- Replacing one byte moves the exact sum by the difference of the two. -/
theorem byteSum_set {bytes : List UInt8} {i : ℕ} (inside : i < bytes.length) (b : UInt8) :
    byteSum (bytes.set i b) + bytes[i].toNat = byteSum bytes + b.toNat := by
  induction bytes generalizing i with
  | nil => simp at inside
  | cons first rest ih =>
    cases i with
    | zero => simp only [List.set_cons_zero, byteSum_cons, List.getElem_cons_zero]; omega
    | succ i =>
      have tail := ih (by simpa using inside)
      simp only [List.set_cons_succ, byteSum_cons, List.getElem_cons_succ]
      omega

/-- A single replaced byte is visible modulo any register width. -/
theorem byteSum_set_ne {bytes : List UInt8} {i : ℕ} (inside : i < bytes.length) {b : UInt8}
    (different : b ≠ bytes[i]) {width : ℕ} (wide : 256 ∣ width) (rest : ℕ) :
    (rest + byteSum (bytes.set i b)) % width ≠ (rest + byteSum bytes) % width := by
  intro same
  have shifted := byteSum_set inside b
  have narrow : (rest + byteSum (bytes.set i b)) % 256 = (rest + byteSum bytes) % 256 := by
    rw [← Nat.mod_mod_of_dvd _ wide, same, Nat.mod_mod_of_dvd _ wide]
  have := b.toNat_lt
  have := bytes[i].toNat_lt
  exact different (UInt8.toNat_inj.mp (by omega))

end ByteSum
