import Pentair.Frame
import Pentair.Library.Marker
import Pentair.Library.Recognizer

/-! What the receive state machine is for: a receiver that remembers every byte
since it was last reset and hunts for frames among them. It keeps no buffer,
positions or running sums. Only the limits of a cyclic 256-byte window remain
visible: a marker that straddles the window's end is not recognised. -/
namespace Pentair

/-- How far the receiver is inside a packet, with the bytes read so far. -/
inductive Phase where
  | preamble
  | version
  | destination (version : UInt8)
  | source (version target : UInt8)
  | command (version target source : UInt8)
  | length (version target source command : UInt8)
  | data (header : Header) (got : List UInt8)
  | checksum (header : Header) (payload : List UInt8)
  | checksumLow (header : Header) (payload : List UInt8) (hi : UInt8)
  | intellichlor (body : List UInt8)
  /-- a complete IntelliTouch packet -/
  | touch (header : Header) (payload : List UInt8) (hi lo : UInt8)
  /-- a complete IntelliChlor packet: all bytes after the start sequence -/
  | chlor (body : List UInt8)
  deriving DecidableEq, Repr

/-- The bytes read since the start sequence. -/
def Phase.bytes : Phase → List UInt8
  | .preamble => []
  | .version => []
  | .destination v => [v]
  | .source v t => [v, t]
  | .command v t s => [v, t, s]
  | .length v t s c => [v, t, s, c]
  | .data h got => h.bytes ++ got
  | .checksum h payload => h.bytes ++ payload
  | .checksumLow h payload hi => h.bytes ++ payload ++ [hi]
  | .intellichlor body => body
  | .touch h payload hi lo => h.bytes ++ payload ++ [hi, lo]
  | .chlor body => body

/-- A completed packet is all there is until the next reset. -/
def Phase.Complete : Phase → Prop
  | .touch .. => True
  | .chlor .. => True
  | _ => False

/-- `lead` ends with the start sequence of the packet being read; while hunting it
is everything since the reset. -/
structure Receiver where
  lead : List UInt8
  phase : Phase
  deriving DecidableEq, Repr

namespace Receiver

def start : Receiver := ⟨[], .preamble⟩

/-- Every byte since the last reset. -/
def seen (r : Receiver) : List UInt8 := r.lead ++ r.phase.bytes

/-- One byte of the hunt for a start sequence. -/
def hunt (lead : List UInt8) : Receiver :=
  if 3 ≤ (lead.length - 1) % 256 ∧ touchStart <:+ lead then ⟨lead, .version⟩
  else if 1 ≤ (lead.length - 1) % 256 ∧ chlorStart <:+ lead then ⟨lead, .intellichlor []⟩
  else ⟨lead, .preamble⟩

/-- The terminator is recognised unless it straddles the window's end; one that
only just fits before it is missed as well. -/
def EndVisible (n : ℕ) : Prop := 1 ≤ n % 256 ∧ n % 256 ≤ 254

instance (n : ℕ) : Decidable (EndVisible n) := inferInstanceAs (Decidable (_ ∧ _))

/-- The next byte, and whether it completes a packet. -/
def step (r : Receiver) (c : UInt8) : Bool × Receiver :=
  match r.phase with
  | .preamble => (false, hunt (r.lead ++ [c]))
  | .version => (false, ⟨r.lead, .destination c⟩)
  | .destination v => (false, ⟨r.lead, .source v c⟩)
  | .source v t => (false, ⟨r.lead, .command v t c⟩)
  | .command v t s => (false, ⟨r.lead, .length v t s c⟩)
  | .length v t s k =>
    (false, ⟨r.lead, if c = 0 then .checksum ⟨v, t, s, k, c⟩ [] else .data ⟨v, t, s, k, c⟩ []⟩)
  | .data h got =>
    (false, ⟨r.lead, if h.length.toNat ≤ got.length + 1 then .checksum h (got ++ [c])
      else .data h (got ++ [c])⟩)
  | .checksum h payload => (false, ⟨r.lead, .checksumLow h payload c⟩)
  | .checksumLow h payload hi => (true, ⟨r.lead, .touch h payload hi c⟩)
  | .intellichlor body =>
    if EndVisible r.seen.length ∧ chlorEnd <:+ body ++ [c] then (true, ⟨r.lead, .chlor (body ++ [c])⟩)
    else (false, ⟨r.lead, .intellichlor (body ++ [c])⟩)
  | .touch .. => (false, r)
  | .chlor .. => (false, r)

/-- What holds of the packet being read: its start sequence stands before it, and
its payload does not exceed its length byte. -/
def Sound (r : Receiver) : Prop :=
  match r.phase with
  | .preamble => True
  | .data h got => touchStart <:+ r.lead ∧ got.length < h.length.toNat
  | .checksum h payload => touchStart <:+ r.lead ∧ payload.length = h.length.toNat
  | .checksumLow h payload _ => touchStart <:+ r.lead ∧ payload.length = h.length.toNat
  | .touch h payload _ _ => touchStart <:+ r.lead ∧ payload.length = h.length.toNat
  | .intellichlor _ => chlorStart <:+ r.lead
  | .chlor body => chlorStart <:+ r.lead ∧ chlorEnd <:+ body
  | _ => touchStart <:+ r.lead

end Receiver

/-- The receiver as a recogniser: a reset forgets everything. -/
def receiver : Recognizer Receiver UInt8 where
  step := Receiver.step
  restart := fun _ => Receiver.start

namespace Receiver

theorem sound_start : start.Sound := trivial

private theorem sound_hunt (lead : List UInt8) : (hunt lead).Sound := by
  unfold hunt
  split
  · rename_i found
    exact found.2
  · split
    · rename_i found
      exact found.2
    · trivial

/-- Every step keeps the packet being read sound. -/
theorem sound_step {r : Receiver} (sound : r.Sound) (c : UInt8) : (r.step c).2.Sound := by
  obtain ⟨lead, phase⟩ := r
  cases phase with
  | preamble => exact sound_hunt _
  | length v t s k =>
    simp only [step, Sound] at sound ⊢
    by_cases empty : c = 0
    · simp [empty, sound]
    · have positive : 0 < c.toNat :=
        Nat.pos_of_ne_zero fun zero => empty (UInt8.toNat_inj.mp zero)
      simp [empty, sound, positive]
  | data h got =>
    simp only [step, Sound] at sound ⊢
    by_cases last : h.length.toNat ≤ got.length + 1
    · simp only [last, if_true, List.length_append, List.length_singleton]
      exact ⟨sound.1, by omega⟩
    · simp only [last, if_false, List.length_append, List.length_singleton]
      exact ⟨sound.1, by omega⟩
  | intellichlor body =>
    simp only [step, Sound] at sound ⊢
    by_cases found : EndVisible (seen ⟨lead, .intellichlor body⟩).length ∧ chlorEnd <:+ body ++ [c]
    · simp only [found, and_self, if_true]
      exact ⟨sound, trivial⟩
    · simp only [found, if_false]
      exact sound
  | _ => exact sound

/-- Every step of a receiver that is still reading has seen one more byte. -/
theorem seen_step {r : Receiver} (reading : ¬ r.phase.Complete) (c : UInt8) :
    (r.step c).2.seen = r.seen ++ [c] := by
  obtain ⟨lead, phase⟩ := r
  cases phase with
  | preamble =>
    simp only [step, hunt]
    split
    · simp [seen, Phase.bytes]
    · split <;> simp [seen, Phase.bytes]
  | length v t s k =>
    simp only [step]
    split <;> simp [seen, Phase.bytes, Header.bytes]
  | data h got =>
    simp only [step]
    split <;> simp [seen, Phase.bytes]
  | intellichlor body =>
    simp only [step]
    split <;> simp [seen, Phase.bytes]
  | touch h payload hi lo => exact absurd trivial reading
  | chlor body => exact absurd trivial reading
  | _ => simp [step, seen, Phase.bytes]

end Receiver
end Pentair
