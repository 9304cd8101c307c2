import Pentair.Delivery

/-! The language the parser accepts. On a stream short enough for its buffer, the
first start sequence decides everything: where the first packet completes, if it
does, and whether it is valid. -/
namespace Pentair
open ByteSum

/-- The first start sequence in `text` is `marker`, and it ends at index `i`. -/
def StartsAt (marker text : List UInt8) (i : ℕ) : Prop :=
  Marker.EndsAt marker text i ∧
    ∀ j < i, ¬ Marker.EndsAt touchStart text j ∧ ¬ Marker.EndsAt chlorStart text j

/-- What a run over `text` that stops at its first completion finds: the index of that
completion and the packet it leaves. -/
structure Accepts (text : List UInt8) (outcome : Option ℕ × Packet) : Prop where
  /-- An IntelliTouch packet is as long as its fifth byte says. -/
  touch : ∀ {i : ℕ} {length hi lo : UInt8}, StartsAt touchStart text i → text[i + 5]? = some length →
    text[i + 6 + length.toNat]? = some hi → text[i + 7 + length.toNat]? = some lo →
    outcome.1 = some (i + 7 + length.toNat) ∧
      (outcome.2.valid = true ↔
        (0xA5 + byteSum ((text.drop (i + 1)).take (5 + length.toNat))) % 65536 = hi.toNat * 256 + lo.toNat)
  touch_short : ∀ {i : ℕ}, StartsAt touchStart text i →
    (∀ length, text[i + 5]? = some length → text[i + 7 + length.toNat]? = none) → outcome.1 = none
  /-- An IntelliChlor packet ends at the first terminator after its start. -/
  chlor : ∀ {i : ℕ}, StartsAt chlorStart text i → ¬ chlorEnd <+: text.drop (i + 1) →
    chlorEnd <:+: text.drop (i + 1) →
    ∃ payload k, payload ++ [k] ++ chlorEnd <+: text.drop (i + 1) ∧
      ¬ chlorEnd <:+: payload ++ [k] ++ chlorEnd.dropLast ∧
      outcome.1 = some (i + payload.length + 3) ∧
      (∀ env, outcome.2.payload env = payload) ∧
      (outcome.2.valid = true ↔ k.toNat = (0x12 + byteSum payload) % 256)
  chlor_short : ∀ {i : ℕ}, StartsAt chlorStart text i → ¬ chlorEnd <:+: text.drop (i + 1) → outcome.1 = none
  noise : ¬ touchStart <:+: text → ¬ chlorStart <:+: text → outcome.1 = none

section First
variable {text : List UInt8} {i : ℕ}

/-- The text up to its first start sequence: noise, and the byte that ends it. -/
private theorem before_start {marker : List UInt8} (starts : StartsAt marker text i) :
    ∃ noise c, text.take (i + 1) = noise ++ [c] ∧ noise.length = i ∧ Quiet noise ∧ marker <:+ noise ++ [c] := by
  obtain ⟨⟨inside, ends⟩, first⟩ := starts
  have spelling : text.take (i + 1) = text.take i ++ [text[i]] := List.take_succ_eq_append_getElem inside
  refine ⟨text.take i, text[i], spelling, by simp only [List.length_take]; omega, ⟨?_, ?_⟩, spelling ▸ ends⟩
  · exact Marker.not_infix_take (by decide) fun j early => (first j early).1
  · exact Marker.not_infix_take (by decide) fun j early => (first j early).2

/-- What follows the first start sequence is read as the packet it opens. -/
private theorem scan_from_start {marker : List UInt8} {phase : Phase}
    (opens : ∀ {noise : List UInt8} {c : UInt8}, Quiet noise → marker <:+ noise ++ [c] → noise.length < 256 →
      receiver.scan Receiver.start (noise ++ [c]) = (none, ⟨noise ++ [c], phase⟩))
    (starts : StartsAt marker text i) (short : text.length ≤ 256) :
    receiver.scan Receiver.start text =
      ((receiver.scan ⟨text.take (i + 1), phase⟩ (text.drop (i + 1))).1.map (· + (i + 1)),
        (receiver.scan ⟨text.take (i + 1), phase⟩ (text.drop (i + 1))).2) := by
  have inside : i < text.length := starts.1.1
  obtain ⟨noise, c, spelling, long, quiet, ends⟩ := before_start starts
  have opened := opens quiet ends (by omega)
  rw [← spelling] at opened
  have split := Recognizer.scan_append_of_none opened (text.drop (i + 1))
  rwa [List.take_append_drop, List.length_take, Nat.min_eq_left (by omega)] at split

end First

/-- Bytes that are long enough for their length byte hold an IntelliTouch packet. -/
private theorem touch_split {rest : List UInt8} {length hi lo : UInt8} (fifth : rest[4]? = some length)
    (high : rest[5 + length.toNat]? = some hi) (low : rest[6 + length.toNat]? = some lo) :
    ∃ (h : Header) (payload more : List UInt8), rest = h.bytes ++ payload ++ [hi, lo] ++ more ∧ h.length = length ∧
      payload.length = length.toNat := by
  obtain ⟨h, tail, rfl, rfl⟩ := Header.split fifth
  have moved : ∀ k, (h.bytes ++ tail)[5 + k]? = tail[k]? := fun k => by
    rw [List.getElem?_append_right (by simp)]
    simp
  rw [moved] at high
  rw [show 6 + h.length.toNat = 5 + (h.length.toNat + 1) by omega, moved] at low
  obtain ⟨highInside, rfl⟩ := List.getElem?_eq_some_iff.mp high
  obtain ⟨lowInside, rfl⟩ := List.getElem?_eq_some_iff.mp low
  have after : tail.drop h.length.toNat =
      tail[h.length.toNat] :: tail[h.length.toNat + 1] :: tail.drop (h.length.toNat + 2) := by
    rw [List.drop_eq_getElem_cons highInside, List.drop_eq_getElem_cons lowInside]
  refine ⟨h, tail.take h.length.toNat, tail.drop (h.length.toNat + 2), ?_, rfl, ?_⟩
  · simp only [List.append_assoc, List.cons_append, List.nil_append, ← after, List.take_append_drop]
  · rw [List.length_take]
    omega

/-- The index at which an IntelliTouch packet completes is fixed by its length byte,
and no shorter stream completes it. -/
private theorem scan_touch_short (lead : List UInt8) {rest : List UInt8}
    (short : ∀ length, rest[4]? = some length → rest[6 + length.toNat]? = none) :
    (receiver.scan ⟨lead, .version⟩ rest).1 = none := by
  -- the bytes that are missing do not matter: any filling completes the packet
  obtain ⟨padded, ⟨filling, padding⟩, long⟩ : ∃ padded, rest <+: padded ∧ padded.length = rest.length + 262 :=
    ⟨rest ++ List.replicate 262 0, List.prefix_append _ _, by rw [List.length_append, List.length_replicate]⟩
  have cell : ∀ k, k < 262 → ∃ c, padded[k]? = some c := fun k inside =>
    have within : k < padded.length := by omega
    ⟨padded[k], List.getElem?_eq_getElem within⟩
  obtain ⟨length, fifth⟩ := cell 4 (by omega)
  have bound := length.toNat_lt
  obtain ⟨hi, high⟩ := cell (5 + length.toNat) (by omega)
  obtain ⟨lo, low⟩ := cell (6 + length.toNat) (by omega)
  obtain ⟨h, payload, more, spelling, rfl, fills⟩ := touch_split fifth high low
  have completed := Recognizer.scan_append_of_some (Receiver.scan_touch_body lead fills hi lo) more
  rw [← spelling, ← padding] at completed
  refine Recognizer.scan_prefix_none completed ?_
  by_contra longer
  have same : rest[4]? = some h.length := by
    rw [← fifth, ← padding, List.getElem?_append_left (by omega)]
  have missing := List.getElem?_eq_none_iff.mp (short _ same)
  omega

/-- The first terminator closes an IntelliChlor packet; without one there is none. -/
private theorem chlor_split {rest : List UInt8} (started : ¬ chlorEnd <+: rest) (found : chlorEnd <:+: rest) :
    ∃ payload k, payload ++ [k] ++ chlorEnd <+: rest ∧ ¬ chlorEnd <:+: payload ++ [k] ++ chlorEnd.dropLast := by
  obtain ⟨body, more, rfl, first⟩ := Marker.first_occurrence (by decide) found
  have nonempty : body ≠ [] := by
    rintro rfl
    exact started (List.prefix_append chlorEnd more)
  rw [List.dropLast_append_of_ne_nil (by decide)] at first
  refine ⟨body.dropLast, body.getLast nonempty, ?_, ?_⟩
  · rw [List.dropLast_append_getLast]
    exact List.prefix_append _ _
  · rwa [List.dropLast_append_getLast]

section Accept
variable {p : Packet} {env : ℕ → Env} {text : List UInt8} {i : ℕ}

/-- A packet that the receiver completes is what the run finds. -/
private theorem scan_completed (p : Packet) (env : ℕ → Env) {k : ℕ} {done : Receiver}
    (completed : receiver.scan Receiver.start text = (some k, done)) :
    ∃ q, Packet.recognizer.scan p.reset (arrivals env text) = (some k, q) ∧ Received q done := by
  refine (tracks_reset p).scan_received ?_
  rwa [arrivals_bytes]

private theorem scan_index :
    (Packet.recognizer.scan p.reset (arrivals env text)).1 = (receiver.scan Receiver.start text).1 := by
  have index := (refinement.scan (tracks_reset p) (arrivals env text)).1
  rwa [arrivals_bytes] at index

/-- The IntelliTouch packet that the first start sequence opens, when all of it is there. -/
private theorem touch_found {length hi lo : UInt8} (short : text.length ≤ 255) (starts : StartsAt touchStart text i)
    (fifth : text[i + 5]? = some length) (high : text[i + 6 + length.toNat]? = some hi)
    (low : text[i + 7 + length.toNat]? = some lo) :
    ∃ h payload q, (text.drop (i + 1)).take (5 + length.toNat) = h.bytes ++ payload ∧
      Packet.recognizer.scan p.reset (arrivals env text) = (some (i + 7 + length.toNat), q) ∧
      TouchReceived q (text.take (i + 1)) h payload hi lo := by
  have moved : ∀ k, (text.drop (i + 1))[k]? = text[i + 1 + k]? := fun k => List.getElem?_drop
  obtain ⟨h, payload, more, spelling, rfl, fills⟩ : ∃ (h : Header) (payload more : List UInt8),
      text.drop (i + 1) = h.bytes ++ payload ++ [hi, lo] ++ more ∧ h.length = length ∧
        payload.length = length.toNat := by
    refine touch_split ?_ ?_ ?_
    · rw [moved, ← fifth]
    · rw [moved, ← high]
      congr 1
      omega
    · rw [moved, ← low]
      congr 1
      omega
  have completed : receiver.scan Receiver.start text =
      (some (i + 7 + h.length.toNat), ⟨text.take (i + 1), .touch h payload hi lo⟩) := by
    rw [scan_from_start Receiver.scan_touch_start starts (by omega), spelling,
      Recognizer.scan_append_of_some (Receiver.scan_touch_body _ fills hi lo) more, ← fills]
    simp only [Option.map_some]
    congr 2
    omega
  obtain ⟨q, found, received⟩ := scan_completed p env completed
  refine ⟨h, payload, q, ?_, found, received.packet⟩
  rw [spelling, List.append_assoc]
  exact List.take_left' (by simp [fills])

/-- The IntelliChlor packet that the first start sequence opens, when a terminator follows. -/
private theorem chlor_found (short : text.length ≤ 255) (starts : StartsAt chlorStart text i)
    (unclosed : ¬ chlorEnd <+: text.drop (i + 1)) (found : chlorEnd <:+: text.drop (i + 1)) :
    ∃ payload k q, payload ++ [k] ++ chlorEnd <+: text.drop (i + 1) ∧
      ¬ chlorEnd <:+: payload ++ [k] ++ chlorEnd.dropLast ∧
      Packet.recognizer.scan p.reset (arrivals env text) = (some (i + payload.length + 3), q) ∧
      ChlorExposed q payload k := by
  obtain ⟨payload, k, ⟨more, spelling⟩, first⟩ := chlor_split unclosed found
  have inside : i < text.length := starts.1.1
  have long := congrArg List.length spelling
  simp only [List.length_append, chlorEnd, List.length_cons, List.length_nil, List.length_drop] at long
  have bodied : payload ++ [k] ++ chlorEnd = payload ++ [k] ++ chlorEnd.dropLast ++ [0x03] := by
    simp [chlorEnd]
  have lead : (text.take (i + 1)).length = i + 1 := by
    rw [List.length_take]
    omega
  have completed : receiver.scan Receiver.start text =
      (some (i + payload.length + 3), ⟨text.take (i + 1), .chlor (payload ++ [k] ++ chlorEnd)⟩) := by
    rw [scan_from_start Receiver.scan_chlor_start starts (by omega), ← spelling, bodied,
      Recognizer.scan_append_of_some (Receiver.scan_chlor_body first ⟨payload ++ [k], by simp [chlorEnd]⟩ ?_) more]
    · simp [chlorEnd]
      omega
    · simp only [List.length_append, lead, chlorEnd, List.length_singleton, List.dropLast_cons_cons,
        List.dropLast_singleton]
      omega
  obtain ⟨q, scanned, received⟩ := scan_completed p env completed
  exact ⟨payload, k, q, ⟨more, spelling⟩, first, scanned, chlor_exposed received (by omega)⟩

end Accept

/-- Every stream of at most 255 bytes pushed into a reset packet is parsed by the
grammar. -/
theorem parser_accepts (p : Packet) (env : ℕ → Env) (text : List UInt8) (short : text.length ≤ 255) :
    Accepts text (Packet.recognizer.scan p.reset (arrivals env text)) where
  touch := by
    intro i length hi lo starts fifth high low
    obtain ⟨h, payload, q, summed, found, exposed⟩ := touch_found short starts fifth high low
    rw [found, summed]
    exact ⟨rfl, exposed.valid⟩
  touch_short := by
    intro i starts missing
    rw [scan_index, scan_from_start Receiver.scan_touch_start starts (by omega), scan_touch_short]
    · rfl
    · intro length fifth
      rw [List.getElem?_drop] at fifth ⊢
      rw [← missing length (by rw [← fifth])]
      congr 1
      omega
  chlor := by
    intro i starts unclosed found
    obtain ⟨payload, k, q, closed, first, scanned, exposed⟩ := chlor_found short starts unclosed found
    rw [scanned]
    exact ⟨payload, k, closed, first, rfl, exposed.payload, exposed.valid.trans eq_comm⟩
  chlor_short := by
    intro i starts opened
    rw [scan_index, scan_from_start Receiver.scan_chlor_start starts (by omega), Receiver.scan_chlor_open [] opened]
    rfl
  noise := by
    intro noTouch noChlor
    have quiet : Quiet text := ⟨noTouch, noChlor⟩
    have hunted : receiver.scan Receiver.start text = (none, ⟨text, .preamble⟩) := Receiver.scan_quiet [] quiet
    rw [scan_index, hunted]

/-- A chlorinator status request after two bytes of noise. -/
theorem parser_accepts_chlorinator_status :
    Accepts [0x00, 0xFF, 0x10, 0x02, 0x50, 0x00, 0x62, 0x10, 0x03]
      (Packet.recognizer.scan (default : Packet).reset
        (arrivals default [0x00, 0xFF, 0x10, 0x02, 0x50, 0x00, 0x62, 0x10, 0x03])) :=
  parser_accepts default default _ (by decide)

end Pentair
