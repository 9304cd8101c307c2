import Pentair.Library.ByteSum

/-! The two framings on the bus, as byte strings. IntelliTouch frames carry their
length and a sixteen-bit sum; IntelliChlor frames end at the first terminator and
carry an eight-bit sum. Frames are well formed by construction. -/
namespace Pentair
open ByteSum

/-- `FF 00 FF A5`, which opens an IntelliTouch frame. -/
def touchStart : List UInt8 := [0xFF, 0x00, 0xFF, 0xA5]

/-- `10 02`, which opens an IntelliChlor frame. -/
def chlorStart : List UInt8 := [0x10, 0x02]

/-- `10 03`, which closes an IntelliChlor frame. -/
def chlorEnd : List UInt8 := [0x10, 0x03]

/-- The five bytes between an IntelliTouch start and the payload. -/
structure Header where
  version : UInt8
  target : UInt8
  source : UInt8
  command : UInt8
  length : UInt8
  deriving DecidableEq, Repr

def Header.bytes (h : Header) : List UInt8 := [h.version, h.target, h.source, h.command, h.length]

@[simp] theorem Header.length_bytes (h : Header) : h.bytes.length = 5 := rfl

/-- Any five bytes are a header; the last of them is its length byte. -/
theorem Header.split {bytes : List UInt8} {length : UInt8} (fifth : bytes[4]? = some length) :
    ∃ (h : Header) (rest : List UInt8), bytes = h.bytes ++ rest ∧ h.length = length := by
  match bytes, fifth with
  | v :: t :: s :: c :: _ :: rest, rfl => exact ⟨⟨v, t, s, c, length⟩, rest, rfl, rfl⟩

/-- The IntelliTouch sum: from the last start byte through the payload. -/
def touchSum (h : Header) (payload : List UInt8) : ℕ := 0xA5 + byteSum (h.bytes ++ payload)

/-- The two checksum bytes agree with the header and payload before them. -/
def TouchValid (h : Header) (payload : List UInt8) (hi lo : UInt8) : Prop :=
  touchSum h payload % 65536 = hi.toNat * 256 + lo.toNat

instance (h : Header) (payload : List UInt8) (hi lo : UInt8) :
    Decidable (TouchValid h payload hi lo) := inferInstanceAs (Decidable (_ = _))

/-- The IntelliChlor sum: the start sequence and the payload. -/
def chlorSum (payload : List UInt8) : ℕ := 0x12 + byteSum payload

/-- A well-formed IntelliTouch frame. -/
structure TouchFrame where
  version : UInt8
  target : UInt8
  source : UInt8
  command : UInt8
  payload : List UInt8
  short : payload.length < 256

namespace TouchFrame

def header (f : TouchFrame) : Header :=
  ⟨f.version, f.target, f.source, f.command, UInt8.ofNat f.payload.length⟩

/-- The high byte of the frame's sum; `ofNat` drops what exceeds sixteen bits. -/
def checksumHi (f : TouchFrame) : UInt8 := UInt8.ofNat (touchSum f.header f.payload / 256)

def checksumLo (f : TouchFrame) : UInt8 := UInt8.ofNat (touchSum f.header f.payload)

def bytes (f : TouchFrame) : List UInt8 :=
  touchStart ++ f.header.bytes ++ f.payload ++ [f.checksumHi, f.checksumLo]

@[simp] theorem length_header (f : TouchFrame) : f.header.length.toNat = f.payload.length := by
  simp [header, Nat.mod_eq_of_lt f.short]

@[simp] theorem length_bytes (f : TouchFrame) : f.bytes.length = f.payload.length + 11 := by
  simp [bytes, touchStart]
  omega

/-- All of a frame but its last byte. -/
def front (f : TouchFrame) : List UInt8 := touchStart ++ f.header.bytes ++ f.payload ++ [f.checksumHi]

theorem bytes_eq_front (f : TouchFrame) : f.bytes = f.front ++ [f.checksumLo] := by
  simp [bytes, front]

@[simp] theorem length_front (f : TouchFrame) : f.front.length = f.payload.length + 10 := by
  simp [front, touchStart]
  omega

theorem valid (f : TouchFrame) : TouchValid f.header f.payload f.checksumHi f.checksumLo := by
  simp only [TouchValid, checksumHi, checksumLo, UInt8.toNat_ofNat']
  omega

end TouchFrame

/-- A well-formed IntelliChlor frame: the payload is not empty, and neither it nor
the checksum after it completes a terminator. -/
structure ChlorFrame where
  payload : List UInt8
  nonempty : payload ≠ []
  closed : ¬ chlorEnd <:+: payload ++ [UInt8.ofNat (chlorSum payload)]

namespace ChlorFrame

def checksum (f : ChlorFrame) : UInt8 := UInt8.ofNat (chlorSum f.payload)

def bytes (f : ChlorFrame) : List UInt8 := chlorStart ++ f.payload ++ [f.checksum] ++ chlorEnd

@[simp] theorem length_bytes (f : ChlorFrame) : f.bytes.length = f.payload.length + 5 := by
  simp [bytes, chlorStart, chlorEnd]

end ChlorFrame

/-- The request that stops the first pump. Like every pump frame it has version 0. -/
def pumpOff : TouchFrame := ⟨0x00, 0x60, 0x10, 0x06, [0x04], by decide⟩

/-- A status broadcast of the control center. -/
def statusBroadcast : TouchFrame where
  version := 0x25
  target := 0x0F
  source := 0x10
  command := 0x02
  payload := [0x0C, 0x0E, 0x20, 0x00, 0x00, 0x00, 0x00, 0x00, 0x00, 0x00, 0x33, 0x00, 0x20, 0x04, 0x50, 0x50,
    0x00, 0x00, 0x4B, 0x65, 0x00, 0x00, 0x03, 0x00, 0x00, 0x77, 0x7F, 0x00, 0x0D]
  short := by decide

/-- A status broadcast without a payload. -/
def emptyStatus : TouchFrame := ⟨0x01, 0x0F, 0x10, 0x02, [], by decide⟩

/-- A frame of either kind. -/
inductive Frame where
  | touch (frame : TouchFrame)
  | chlor (frame : ChlorFrame)

def Frame.bytes : Frame → List UInt8
  | .touch f => f.bytes
  | .chlor f => f.bytes

end Pentair
