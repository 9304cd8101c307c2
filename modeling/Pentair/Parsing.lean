import Pentair.Receiver

/-! How the receiver reads noise, IntelliTouch packets and IntelliChlor packets,
each as one stretch of a stream. Packets need not be well formed here: only their
shape decides where they complete. -/
namespace Pentair

/-- Bytes in which no start sequence occurs. -/
structure Quiet (bytes : List UInt8) : Prop where
  touch : ¬ touchStart <:+: bytes
  chlor : ¬ chlorStart <:+: bytes

instance (bytes : List UInt8) : Decidable (Quiet bytes) :=
  decidable_of_iff (¬ touchStart <:+: bytes ∧ ¬ chlorStart <:+: bytes)
    ⟨fun h => ⟨h.1, h.2⟩, fun h => ⟨h.touch, h.chlor⟩⟩

/-- Bytes that end neither start sequence keep noise quiet. -/
theorem quiet_append {noise tail : List UInt8} (quiet : Quiet noise) (noTouch : (0xA5 : UInt8) ∉ tail)
    (noChlor : (0x02 : UInt8) ∉ tail) : Quiet (noise ++ tail) where
  touch := Marker.not_infix_append [0xFF, 0x00, 0xFF] quiet.touch noTouch
  chlor := Marker.not_infix_append [0x10] quiet.chlor noChlor

theorem quiet_of_append {first second : List UInt8} (quiet : Quiet (first ++ second)) : Quiet first where
  touch := fun found => quiet.touch (found.trans (List.prefix_append first second).isInfix)
  chlor := fun found => quiet.chlor (found.trans (List.prefix_append first second).isInfix)

theorem quiet_zeros (n : ℕ) : Quiet (List.replicate n 0x00) := by
  refine quiet_append (show Quiet [] by decide) ?_ ?_ <;> simp [List.mem_replicate]

namespace Receiver

/-! ## The hunt -/

private theorem hunt_quiet {lead : List UInt8} (quiet : Quiet lead) : hunt lead = ⟨lead, .preamble⟩ := by
  have noTouch : ¬ touchStart <:+ lead := fun ends => quiet.touch ends.isInfix
  have noChlor : ¬ chlorStart <:+ lead := fun ends => quiet.chlor ends.isInfix
  simp [hunt, noTouch, noChlor]

/-- Noise is read without leaving the hunt. -/
theorem scan_quiet (lead : List UInt8) {noise : List UInt8} (quiet : Quiet (lead ++ noise)) :
    receiver.scan ⟨lead, .preamble⟩ noise = (none, ⟨lead ++ noise, .preamble⟩) := by
  induction noise generalizing lead with
  | nil => simp
  | cons c rest ih =>
    have spelling : lead ++ c :: rest = (lead ++ [c]) ++ rest := by simp
    rw [spelling] at quiet ⊢
    refine Recognizer.scan_cons_none.mpr ⟨rfl, ?_⟩
    change receiver.scan (hunt (lead ++ [c])) rest = _
    rw [hunt_quiet (quiet_of_append quiet)]
    exact ih _ quiet

/-- The byte that completes the first start sequence opens an IntelliTouch packet. -/
theorem scan_touch_start {lead : List UInt8} {c : UInt8} (quiet : Quiet lead)
    (found : touchStart <:+ lead ++ [c]) (short : lead.length < 256) :
    receiver.scan start (lead ++ [c]) = (none, ⟨lead ++ [c], .version⟩) := by
  have long := found.length_le
  simp only [touchStart, List.length_cons, List.length_nil, List.length_append] at long
  have hunted : receiver.scan start lead = (none, ⟨lead, .preamble⟩) := scan_quiet [] quiet
  rw [Recognizer.scan_append_of_none hunted]
  have opened : hunt (lead ++ [c]) = ⟨lead ++ [c], .version⟩ := by
    simp only [hunt, List.length_append, List.length_singleton, Nat.add_sub_cancel, found, and_true]
    rw [if_pos (by omega)]
  simp [Recognizer.scan, receiver, step, opened]

/-- The same for an IntelliChlor packet. -/
theorem scan_chlor_start {lead : List UInt8} {c : UInt8} (quiet : Quiet lead)
    (found : chlorStart <:+ lead ++ [c]) (short : lead.length < 256) :
    receiver.scan start (lead ++ [c]) = (none, ⟨lead ++ [c], .intellichlor []⟩) := by
  have long := found.length_le
  simp only [chlorStart, List.length_cons, List.length_nil, List.length_append] at long
  have other : ¬ touchStart <:+ lead ++ [c] := by
    intro ends
    obtain ⟨before, spelling⟩ := found
    obtain ⟨before', spelling'⟩ := ends
    have last := congrArg List.getLast? (spelling.trans spelling'.symm)
    simp [chlorStart, touchStart] at last
  have hunted : receiver.scan start lead = (none, ⟨lead, .preamble⟩) := scan_quiet [] quiet
  rw [Recognizer.scan_append_of_none hunted]
  have opened : hunt (lead ++ [c]) = ⟨lead ++ [c], .intellichlor []⟩ := by
    simp only [hunt, List.length_append, List.length_singleton, Nat.add_sub_cancel, other, and_false,
      if_false, found, and_true]
    rw [if_pos (by omega)]
  simp [Recognizer.scan, receiver, step, opened]

/-! ## IntelliTouch packets -/

private theorem scan_header (lead : List UInt8) (h : Header) :
    receiver.scan ⟨lead, .version⟩ h.bytes =
      (none, ⟨lead, if h.length = 0 then .checksum h [] else .data h []⟩) := rfl

private theorem scan_data {lead : List UInt8} {h : Header} (got : List UInt8) {more : List UInt8} (some : more ≠ [])
    (fills : got.length + more.length = h.length.toNat) :
    receiver.scan ⟨lead, .data h got⟩ more = (none, ⟨lead, .checksum h (got ++ more)⟩) := by
  induction more generalizing got with
  | nil => exact absurd rfl some
  | cons c rest ih =>
    simp only [List.length_cons] at fills
    refine Recognizer.scan_cons_none.mpr ⟨rfl, ?_⟩
    cases rest with
    | nil =>
      simp only [List.length_nil] at fills
      simp [receiver, step, ← fills]
    | cons d rest =>
      have unfinished : ¬ h.length.toNat ≤ got.length + 1 := by
        simp only [List.length_cons] at fills
        omega
      have tail := ih (got ++ [c]) (by simp) (by simp at fills ⊢; omega)
      simpa [receiver, step, unfinished] using tail

/-- Header and payload are read without completing. -/
theorem scan_payload (lead : List UInt8) {h : Header} {payload : List UInt8}
    (fills : payload.length = h.length.toNat) :
    receiver.scan ⟨lead, .version⟩ (h.bytes ++ payload) = (none, ⟨lead, .checksum h payload⟩) := by
  rw [Recognizer.scan_append_of_none (scan_header lead h)]
  cases payload with
  | nil =>
    have empty : h.length = 0 := UInt8.toNat_inj.mp fills.symm
    simp [empty]
  | cons c rest =>
    have nonempty : h.length ≠ 0 := fun zero => by simp [zero] at fills
    rw [if_neg nonempty, scan_data [] (by simp) (by simpa using fills)]
    simp

/-- From its start sequence on, an IntelliTouch packet completes exactly at its
second checksum byte. -/
theorem scan_touch_body (lead : List UInt8) {h : Header} {payload : List UInt8}
    (fills : payload.length = h.length.toNat) (hi lo : UInt8) :
    receiver.scan ⟨lead, .version⟩ (h.bytes ++ payload ++ [hi, lo]) =
      (some (payload.length + 6), ⟨lead, .touch h payload hi lo⟩) := by
  rw [Recognizer.scan_append_of_none (scan_payload lead fills)]
  simp [Recognizer.scan, receiver, step]
  omega

/-- From its length byte on, the payload of an IntelliTouch packet is read without
completing. -/
theorem scan_length_payload {lead : List UInt8} {h : Header} {payload : List UInt8}
    (fills : payload.length = h.length.toNat) :
    receiver.scan ⟨lead, .length h.version h.target h.source h.command⟩ (h.length :: payload) =
      (none, ⟨lead, .checksum h payload⟩) := by
  have read := scan_payload lead fills
  have spelling : h.bytes ++ payload = [h.version, h.target, h.source, h.command] ++ h.length :: payload := rfl
  rw [spelling] at read
  obtain ⟨_, front, rest⟩ := Recognizer.scan_append_none.mp read
  obtain rfl := (Prod.mk.inj front).2
  exact rest

/-- From its length byte on, an IntelliTouch packet completes exactly at its second
checksum byte. -/
theorem scan_length_body (lead : List UInt8) {h : Header} {payload : List UInt8}
    (fills : payload.length = h.length.toNat) (hi lo : UInt8) :
    receiver.scan ⟨lead, .length h.version h.target h.source h.command⟩ (h.length :: payload ++ [hi, lo]) =
      (some (payload.length + 2), ⟨lead, .touch h payload hi lo⟩) := by
  rw [Recognizer.scan_append_of_none (scan_length_payload fills)]
  simp [Recognizer.scan, receiver, step]
  omega

/-! ## IntelliChlor packets -/

/-- A body is read without completing exactly when none of its bytes is the last of a
terminator that can be seen. -/
theorem scan_chlor_silent {lead : List UInt8} (body more : List UInt8) :
    receiver.scan ⟨lead, .intellichlor body⟩ more = (none, ⟨lead, .intellichlor (body ++ more)⟩) ↔
      ∀ k < more.length,
        ¬ (EndVisible (lead.length + body.length + k) ∧ chlorEnd <:+ body ++ more.take (k + 1)) := by
  induction more generalizing body with
  | nil => simp
  | cons c rest ih =>
    have seen : (seen ⟨lead, .intellichlor body⟩).length = lead.length + body.length := List.length_append
    rw [List.length_cons, Nat.forall_lt_succ_left, Recognizer.scan_cons_none]
    by_cases ended : EndVisible (lead.length + body.length) ∧ chlorEnd <:+ body ++ [c]
    · simp [receiver, step, seen, ended]
    · have here : receiver.step ⟨lead, .intellichlor body⟩ c = (false, ⟨lead, .intellichlor (body ++ [c])⟩) := by
        simp [receiver, step, seen, ended]
      have tail := ih (body ++ [c])
      simp only [List.append_assoc, List.singleton_append, List.length_append, List.length_singleton] at tail
      rw [here, tail]
      simp only [List.take_succ_cons, List.take_zero, Nat.add_zero, ended, not_false_eq_true, true_and,
        Nat.add_assoc, Nat.add_comm 1]

/-- A body without a terminator is read without completing. -/
theorem scan_chlor_open {lead : List UInt8} (body : List UInt8) {more : List UInt8}
    (opened : ¬ chlorEnd <:+: body ++ more) :
    receiver.scan ⟨lead, .intellichlor body⟩ more = (none, ⟨lead, .intellichlor (body ++ more)⟩) :=
  (scan_chlor_silent body more).mpr fun k _ ended => opened (Marker.infix_of_suffix_prefix ended.2
    ((List.prefix_append_right_inj body).mpr (List.take_prefix (k + 1) more)))

/-- An IntelliChlor packet completes exactly at its first terminator, as long as the
window's end is not reached. -/
theorem scan_chlor_body {lead body : List UInt8} {c : UInt8} (opened : ¬ chlorEnd <:+: body)
    (closes : chlorEnd <:+ body ++ [c]) (short : lead.length + body.length ≤ 254) :
    receiver.scan ⟨lead, .intellichlor []⟩ (body ++ [c]) =
      (some body.length, ⟨lead, .chlor (body ++ [c])⟩) := by
  have long := closes.length_le
  simp only [chlorEnd, List.length_cons, List.length_nil, List.length_append] at long
  have reading : receiver.scan ⟨lead, .intellichlor []⟩ body = (none, ⟨lead, .intellichlor body⟩) :=
    scan_chlor_open [] opened
  rw [Recognizer.scan_append_of_none reading]
  have visible : EndVisible (seen ⟨lead, .intellichlor body⟩).length := by
    simp only [EndVisible, seen, Phase.bytes, List.length_append]
    omega
  have here : receiver.step ⟨lead, .intellichlor body⟩ c = (true, ⟨lead, .chlor (body ++ [c])⟩) := by
    simp [receiver, step, visible, closes]
  simp [Recognizer.scan, here]

/-! ## Whole packets after noise -/

/-- Noise and the start of an IntelliTouch packet. -/
theorem scan_noise_touch {noise : List UInt8} (quiet : Quiet noise) (short : noise.length ≤ 252) :
    receiver.scan start (noise ++ touchStart) = (none, ⟨noise ++ touchStart, .version⟩) := by
  have spelling : noise ++ touchStart = (noise ++ [0xFF, 0x00, 0xFF]) ++ [0xA5] := by simp [touchStart]
  rw [spelling]
  refine scan_touch_start (quiet_append quiet (by decide) (by decide)) ⟨noise, by simp [touchStart]⟩ ?_
  simp only [List.length_append, List.length_cons, List.length_nil]
  omega

/-- Noise and an IntelliTouch packet, whose checksum need not be right. -/
theorem scan_touch {noise : List UInt8} {h : Header} {payload : List UInt8} (quiet : Quiet noise)
    (short : noise.length ≤ 252) (fills : payload.length = h.length.toNat) (hi lo : UInt8) :
    receiver.scan start (noise ++ touchStart ++ (h.bytes ++ payload ++ [hi, lo])) =
      (some (noise.length + payload.length + 10), ⟨noise ++ touchStart, .touch h payload hi lo⟩) := by
  rw [Recognizer.scan_append_of_none (scan_noise_touch quiet short), scan_touch_body _ fills]
  simp [touchStart]
  omega

/-- Noise and an IntelliChlor packet that ends at its first terminator. -/
theorem scan_chlor {noise payload : List UInt8} {k : UInt8} (quiet : Quiet noise)
    (closed : ¬ chlorEnd <:+: payload ++ [k]) (short : noise.length + payload.length ≤ 250) :
    receiver.scan start (noise ++ chlorStart ++ (payload ++ [k] ++ chlorEnd)) =
      (some (noise.length + payload.length + 4), ⟨noise ++ chlorStart, .chlor (payload ++ [k] ++ chlorEnd)⟩) := by
  have spelling : noise ++ chlorStart = (noise ++ [0x10]) ++ [0x02] := by simp [chlorStart]
  have opened : receiver.scan start (noise ++ chlorStart) = (none, ⟨noise ++ chlorStart, .intellichlor []⟩) := by
    rw [spelling]
    refine scan_chlor_start (quiet_append quiet (by decide) (by decide)) ⟨noise, by simp [chlorStart]⟩ ?_
    simp only [List.length_append, List.length_singleton]
    omega
  have bodied : payload ++ [k] ++ chlorEnd = (payload ++ [k] ++ [0x10]) ++ [0x03] := by simp [chlorEnd]
  rw [Recognizer.scan_append_of_none opened, bodied,
    scan_chlor_body (Marker.not_infix_append [0x10] closed (by decide)) ⟨payload ++ [k], by simp [chlorEnd]⟩
      (by simp only [chlorStart, List.length_append, List.length_cons, List.length_nil]; omega)]
  simp [chlorStart]
  omega

end Receiver
end Pentair
