import Pentair.Encoding
import Pentair.Hold
import Pentair.Joining
import Pentair.Reporting

/-! The frames in a stream. A packet with the right checksum that was completed within the
first window is a well-formed frame behind noise, and nothing else is; what `WriteTo`
makes of it is that frame again, for as many readers and writers as it passes. -/
namespace Pentair
open ByteSum

namespace Receiver

/-- What a receiver knows that has not overlooked anything: no start sequence before the one
it took, and no terminator in the packet since. -/
structure Attentive (r : Receiver) : Prop where
  hunting : r.phase = .preamble → Quiet r.lead
  opened : Quiet r.lead.dropLast
  reading : ∀ body, r.phase = .intellichlor body → ¬ chlorEnd <:+: body
  closed : ∀ body, r.phase = .chlor body → ¬ chlorEnd <:+: body.dropLast

theorem attentive_start : start.Attentive where
  hunting _ := show Quiet [] by decide
  opened := show Quiet [] by decide
  reading _ body := by cases body
  closed _ body := by cases body

/-- A byte of the hunt follows quiet noise, and is noise itself if the hunt goes on. -/
private theorem attentive_hunt {lead : List UInt8} {c : UInt8} (quiet : Quiet lead)
    (short : (lead ++ [c]).length ≤ 256) : (hunt (lead ++ [c])).Attentive := by
  have same : (hunt (lead ++ [c])).lead = lead ++ [c] := by
    unfold hunt
    split_ifs <;> rfl
  have reached : receiver.feed start (lead ++ [c]) = hunt (lead ++ [c]) := by
    have silent : receiver.scan start lead = (none, ⟨lead, .preamble⟩) := scan_quiet [] quiet
    rw [Recognizer.feed_append, (Recognizer.feed_of_none silent).1]
    rfl
  have bodies : ∀ body, (hunt (lead ++ [c])).phase = .intellichlor body → body = [] := by
    intro body
    unfold hunt
    split_ifs with touch chlor
    · simp
    · rintro ⟨⟩
      rfl
    · simp
  refine ⟨fun hunting => ?_, ?_, fun body read => ?_, fun body read => ?_⟩
  · rw [same]
    exact hunting_quiet (reached.trans (congrArg₂ Receiver.mk same hunting)) short
  · rwa [same, List.dropLast_concat]
  · rw [bodies body read]
    decide
  · unfold hunt at read
    split_ifs at read

/-- No byte of the first window is overlooked. -/
theorem attentive_step {r : Receiver} (sound : r.Sound) (reading : ¬ r.phase.Complete) (attentive : r.Attentive)
    {c : UInt8} (short : (r.step c).2.seen.length ≤ 255) : (r.step c).2.Attentive := by
  rw [seen_step reading c, List.length_append, List.length_singleton] at short
  obtain ⟨lead, phase⟩ := r
  have kept : ∀ next : Phase, next ≠ .preamble → (∀ body, next ≠ .intellichlor body) → (∀ body, next ≠ .chlor body) →
      Attentive ⟨lead, next⟩ := fun next inside open' closed =>
    ⟨fun hunting => absurd hunting inside, attentive.opened, fun body read => absurd read (open' body),
      fun body read => absurd read (closed body)⟩
  cases phase with
  | preamble =>
    refine attentive_hunt (attentive.hunting rfl) ?_
    simp only [seen, Phase.bytes, List.append_nil] at short
    change (lead ++ [c]).length ≤ 256
    rw [List.length_append, List.length_singleton]
    omega
  | length v t s k =>
    simp only [step]
    split_ifs <;> exact kept _ (by simp) (by simp) (by simp)
  | data h got =>
    simp only [step]
    split_ifs <;> exact kept _ (by simp) (by simp) (by simp)
  | intellichlor body =>
    have opened : ¬ chlorEnd <:+: body := attentive.reading body rfl
    have long : 2 ≤ lead.length := (show chlorStart <:+ lead from sound).length_le
    have visible : EndVisible (seen ⟨lead, .intellichlor body⟩).length := by
      simp only [EndVisible, seen, Phase.bytes, List.length_append] at short ⊢
      omega
    simp only [step]
    split_ifs with ended
    · refine ⟨by simp, attentive.opened, by simp, fun whole read => ?_⟩
      obtain rfl : body ++ [c] = whole := Phase.chlor.inj read
      rwa [List.dropLast_concat]
    · refine ⟨by simp, attentive.opened, fun longer read => ?_, by simp⟩
      obtain rfl : body ++ [c] = longer := Phase.intellichlor.inj read
      rw [List.infix_concat_iff]
      exact not_or.mpr ⟨fun ends => ended ⟨visible, ends⟩, opened⟩
  | touch h payload hi lo => exact absurd trivial reading
  | chlor body => exact absurd trivial reading
  | _ => exact kept _ (by simp) (by simp) (by simp)

/-- A receiver between rounds, as far as the first window. -/
structure Watchful (r : Receiver) : Prop where
  sound : r.Sound
  reading : ¬ r.phase.Complete
  attentive : r.seen.length ≤ 255 → r.Attentive

theorem watchful_start : start.Watchful := ⟨sound_start, id, fun _ => attentive_start⟩

theorem Watchful.step {r : Receiver} (watchful : r.Watchful) (c : UInt8) (short : (r.step c).2.seen.length ≤ 255) :
    (r.step c).2.Attentive := by
  have shorter := short
  rw [seen_step watchful.reading c, List.length_append] at shorter
  exact attentive_step watchful.sound watchful.reading (watchful.attentive (by omega)) short

theorem Watchful.round {r : Receiver} (watchful : r.Watchful) (c : UInt8) : (receiver.round r c).Watchful := by
  cases reported : (receiver.step r c).1 with
  | true =>
    rw [Recognizer.round_of_complete reported]
    exact watchful_start
  | false =>
    rw [Recognizer.round_of_incomplete reported]
    exact ⟨sound_step watchful.sound c, reading_step watchful.reading reported, watchful.step c⟩

theorem watchful_feed (bytes : List UInt8) : (receiver.feed start bytes).Watchful :=
  Recognizer.feed_invariant (fun _ c watchful => watchful.round c) watchful_start bytes

end Receiver

/-! ## Frames as packets -/

/-- The frame that a complete packet is, if its checksum is right. -/
def Phase.frame : Phase → Option Frame
  | .touch h payload hi lo =>
    if valid : payload.length = h.length.toNat ∧ TouchValid h payload hi lo then
      some (.touch ⟨h.version, h.target, h.source, h.command, payload, valid.1 ▸ h.length.toNat_lt⟩)
    else none
  | .chlor body =>
    let payload := body.take (body.length - 3)
    let checksum := UInt8.ofNat (chlorSum payload)
    if valid : payload ≠ [] ∧ ¬ chlorEnd <:+: payload ++ [checksum] ∧ body = payload ++ [checksum] ++ chlorEnd then
      some (.chlor ⟨payload, valid.1, valid.2.1⟩)
    else none
  | _ => none

namespace Frame

/-- The start sequence. -/
def opening : Frame → List UInt8
  | .touch _ => touchStart
  | .chlor _ => chlorStart

/-- The complete packet that a frame is read as. -/
def phase : Frame → Phase
  | .touch f => .touch f.header f.payload f.checksumHi f.checksumLo
  | .chlor f => .chlor (f.payload ++ [f.checksum] ++ chlorEnd)

theorem bytes_eq_opening (self : Frame) : self.bytes = self.opening ++ self.phase.bytes := by
  cases self with
  | touch f => simp [bytes, opening, phase, TouchFrame.bytes, Phase.bytes]
  | chlor f => simp [bytes, opening, phase, ChlorFrame.bytes, Phase.bytes]

end Frame

/-- The right checksum is the one a frame carries. -/
private theorem checksum_of_valid {h : Header} {payload : List UInt8} {hi lo : UInt8}
    (valid : TouchValid h payload hi lo) :
    UInt8.ofNat (touchSum h payload / 256) = hi ∧ UInt8.ofNat (touchSum h payload) = lo := by
  have low := lo.toNat_lt
  rw [TouchValid] at valid
  constructor <;> apply UInt8.toNat_inj.mp <;> simp only [UInt8.toNat_ofNat'] <;> omega

theorem Phase.frame_iff {phase : Phase} {frame : Frame} : phase.frame = some frame ↔ phase = frame.phase := by
  constructor
  · intro framed
    cases phase with
    | touch h payload hi lo =>
      simp only [Phase.frame] at framed
      split_ifs at framed with valid
      obtain rfl := Option.some.inj framed
      have header : (⟨h.version, h.target, h.source, h.command, UInt8.ofNat payload.length⟩ : Header) = h := by
        rw [valid.1, UInt8.ofNat_toNat]
      simp only [Frame.phase, TouchFrame.header, TouchFrame.checksumHi, TouchFrame.checksumLo, header,
        (checksum_of_valid valid.2).1, (checksum_of_valid valid.2).2]
    | chlor body =>
      simp only [Phase.frame] at framed
      split_ifs at framed with valid
      obtain rfl := Option.some.inj framed
      exact congrArg Phase.chlor valid.2.2
    | _ => cases framed
  · rintro rfl
    cases frame with
    | touch f => exact dif_pos ⟨f.length_header.symm, f.valid⟩
    | chlor f =>
      have payload :
          (f.payload ++ [f.checksum] ++ chlorEnd).take ((f.payload ++ [f.checksum] ++ chlorEnd).length - 3) =
            f.payload := by
        simp [chlorEnd]
      simp only [Frame.phase, Phase.frame, payload]
      exact dif_pos ⟨f.nonempty, f.closed, rfl⟩

section Received
variable {q : Packet} {r : Receiver} {lead : List UInt8} {frame : Frame}

/-- A packet that was read as a frame in the first window is delivered as that frame. -/
theorem Received.delivered (received : Received q ⟨lead, frame.phase⟩)
    (short : (Receiver.seen ⟨lead, frame.phase⟩).length ≤ 255) (view : Env) (position : ℕ) :
    q.delivery view position = frame.delivery position := by
  cases frame with
  | touch f =>
    simp only [Receiver.seen, Frame.phase, Phase.bytes, List.length_append, Header.length_bytes, List.length_cons,
      List.length_nil] at short
    exact touch_delivered f received (by omega) (by omega) view position
  | chlor f =>
    simp only [Receiver.seen, Frame.phase, Phase.bytes, chlorEnd, List.length_append, List.length_cons,
      List.length_nil] at short
    exact chlor_delivered f received (by omega) view position

/-- A packet of the first window is valid if it is a frame, and only then. -/
theorem Received.valid_iff (received : Received q r) (attentive : r.Attentive) (short : r.seen.length ≤ 255)
    (filled : ∀ body, r.phase = .chlor body → 3 < body.length) :
    q.valid = true ↔ ∃ frame, r.phase.frame = some frame := by
  constructor
  · intro valid
    obtain ⟨lead, phase⟩ := r
    cases phase with
    | touch h payload hi lo =>
      have exposed : TouchReceived q lead h payload hi lo := received.packet
      exact ⟨_, dif_pos ⟨received.sound.2, exposed.valid.mp valid⟩⟩
    | chlor body =>
      have long := filled body rfl
      obtain ⟨payload, k, rfl⟩ := before_end (show chlorEnd <:+ body from received.sound.2)
        (fun same => by simp [same, chlorEnd] at long)
      simp only [Receiver.seen, Phase.bytes, chlorEnd, List.length_append, List.length_cons,
        List.length_nil] at short long
      have exposed := chlor_exposed received (by omega)
      have nonempty : payload ≠ [] := List.ne_nil_of_length_pos (by omega)
      obtain rfl : UInt8.ofNat (chlorSum payload) = k := UInt8.toNat_inj.mp (by simpa using exposed.valid.mp valid)
      have closed : ¬ chlorEnd <:+: payload ++ [UInt8.ofNat (chlorSum payload)] := fun found => by
        refine attentive.closed _ rfl (found.trans ?_)
        rw [List.dropLast_append_of_ne_nil (by decide)]
        exact (List.prefix_append _ _).isInfix
      exact ⟨.chlor ⟨payload, nonempty, closed⟩, Phase.frame_iff.mpr rfl⟩
    | _ => exact received.packet.elim
  · rintro ⟨frame, framed⟩
    obtain ⟨lead, phase⟩ := r
    obtain rfl := Phase.frame_iff.mp framed
    exact (congrArg Delivery.valid (received.delivered short default 0)).trans (frame.delivery_valid 0)

/-- What has been seen of it are noise and the frame. -/
theorem Receiver.Attentive.item (attentive : Attentive ⟨lead, frame.phase⟩) (sound : Sound ⟨lead, frame.phase⟩)
    (short : (seen ⟨lead, frame.phase⟩).length ≤ 255) :
    ∃ item : Item, item.frame = frame ∧ seen ⟨lead, frame.phase⟩ = item.bytes := by
  have starts : frame.opening <:+ lead := by
    cases frame with
    | touch f => exact sound.1
    | chlor f => exact sound.1
  obtain ⟨noise, rfl⟩ := starts
  have spelled : seen ⟨noise ++ frame.opening, frame.phase⟩ = noise ++ frame.bytes := by
    rw [seen, List.append_assoc, frame.bytes_eq_opening]
  have quiet : Quiet (noise ++ frame.opening.dropLast) := by
    have opened := attentive.opened
    rwa [List.dropLast_append_of_ne_nil (by cases frame <;> exact List.cons_ne_nil _ _)] at opened
  rw [spelled, List.length_append] at short
  exact ⟨⟨noise, frame, quiet_of_append quiet, short⟩, rfl, spelled⟩

end Received

/-! ## What is accepted -/

/-- Noise and a frame are complete with their last byte. -/
theorem Item.scanned (item : Item) : receiver.scan Receiver.start item.bytes =
    (some (item.bytes.length - 1), ⟨item.noise ++ item.frame.opening, item.frame.phase⟩) := by
  obtain ⟨noise, frame, quiet, fits⟩ := item
  cases frame with
  | touch f =>
    simp only [Frame.bytes, TouchFrame.length_bytes] at fits
    have last : (noise ++ f.bytes).length - 1 = noise.length + f.payload.length + 10 := by
      rw [List.length_append, TouchFrame.length_bytes]
      omega
    have read := Receiver.scan_touch quiet (by omega) f.length_header.symm f.checksumHi f.checksumLo
    simp only [Item.bytes, Frame.bytes, last]
    simpa [TouchFrame.bytes, Frame.opening, Frame.phase] using read
  | chlor f =>
    simp only [Frame.bytes, ChlorFrame.length_bytes] at fits
    have last : (noise ++ f.bytes).length - 1 = noise.length + f.payload.length + 4 := by
      rw [List.length_append, ChlorFrame.length_bytes]
      omega
    have read := Receiver.scan_chlor quiet f.closed (by omega)
    simp only [Item.bytes, Frame.bytes, last]
    simpa [ChlorFrame.bytes, ChlorFrame.checksum, Frame.opening, Frame.phase] using read

section Accepted
variable {p : Packet} {stream : List Arrival} {a : Arrival}

/-- A packet accepted in the first window is a frame that nothing was overlooked in. -/
theorem accepted_frame (short : (p.sinceReset stream).length < 255)
    (filled : (p.after stream).state = .intellichlorState → 3 ≤ p.held stream)
    (accepted : (p.pushAfter stream a).Accepted) :
    ∃ (item : Item) (lead : List UInt8), p.sinceReset stream ++ [a.byte] = item.bytes ∧
      Received (p.pushAfter stream a).packet ⟨lead, item.frame.phase⟩ ∧
      (Receiver.seen ⟨lead, item.frame.phase⟩).length ≤ 255 ∧
      ((p.after stream).state = .intellichlorState → item.frame.opening = chlorStart) := by
  obtain ⟨r, tracked, seen, reached⟩ := after_tracks p stream
  have watchful : r.Watchful := reached ▸ Receiver.watchful_feed _
  have state : (p.after stream).state = r.phase.registers.state := congrArg Registers.state tracked.registers
  obtain ⟨reported, after⟩ : Agrees (p.pushAfter stream a) (r.step a.byte) := push_agrees a.env a.byte tracked
  rw [if_pos accepted.1] at after
  have completed : r.step a.byte = (true, (r.step a.byte).2) := Prod.ext (reported.symm.trans accepted.1) rfl
  have spelled := Receiver.seen_step tracked.reading a.byte
  rw [seen] at spelled
  have fits : (r.step a.byte).2.seen.length ≤ 255 := by
    rw [spelled, List.length_append, List.length_singleton]
    omega
  have attentive := watchful.step a.byte fits
  have closed : ∀ body, (r.step a.byte).2.phase = .chlor body → 3 < body.length := by
    intro body ended
    obtain ⟨before, inside, rfl⟩ := Receiver.step_chlor (completed.trans (congrArg (true, Receiver.mk _ ·) ended))
    have phase := congrArg Receiver.phase inside
    have held := p.held_eq stream (by rw [← reached, phase]; simp)
    rw [← reached, phase] at held
    have long := filled (by rw [state, phase]; rfl)
    rw [held] at long
    rw [List.length_append, List.length_singleton]
    exact Nat.lt_succ_of_le long
  obtain ⟨frame, framed⟩ := (after.valid_iff attentive fits closed).mp accepted.2
  rcases found : (r.step a.byte).2 with ⟨lead, phase⟩
  rw [found] at attentive after fits framed spelled completed
  obtain rfl := Phase.frame_iff.mp framed
  obtain ⟨item, rfl, bytes⟩ := attentive.item after.sound fits
  refine ⟨item, lead, spelled.symm.trans bytes, after, fits, fun inside => ?_⟩
  cases kind : item.frame with
  | touch f =>
    rw [kind] at completed
    rw [state, (Receiver.step_touch completed).1] at inside
    cases inside
  | chlor f => rfl

/-- Noise and a frame are accepted with the last byte of the frame. -/
theorem item_accepted (item : Item) (bytes : p.sinceReset stream ++ [a.byte] = item.bytes) :
    (p.pushAfter stream a).complete = true ∧
      Received (p.pushAfter stream a).packet ⟨item.noise ++ item.frame.opening, item.frame.phase⟩ := by
  obtain ⟨r, tracked, seen, reached⟩ := after_tracks p stream
  obtain ⟨reported, after⟩ : Agrees (p.pushAfter stream a) (r.step a.byte) := push_agrees a.env a.byte tracked
  have pending :=
    Recognizer.scan_pending (m := receiver) (s := Receiver.start) (fun _ => rfl) (stream.map Arrival.byte)
  rw [← reached, ← show Receiver.start.seen = [] from rfl, ← Receiver.feed_seen id, ← reached, seen] at pending
  have found := item.scanned
  rw [← bytes, List.length_append, List.length_singleton, Nat.add_sub_cancel] at found
  have stepped := Recognizer.step_of_last found
  rw [(Recognizer.feed_of_none pending).1] at stepped
  have stepped : r.step a.byte = (true, ⟨item.noise ++ item.frame.opening, item.frame.phase⟩) := stepped
  rw [stepped] at reported after
  rw [if_pos reported] at after
  exact ⟨reported, after⟩

end Accepted

theorem Item.length_seen (item : Item) :
    (Receiver.seen ⟨item.noise ++ item.frame.opening, item.frame.phase⟩).length ≤ 255 := by
  rw [Receiver.seen, List.append_assoc, ← item.frame.bytes_eq_opening, List.length_append]
  exact item.fits

/-- Within the first window after a reset, and unless an IntelliChlor packet without a payload
is being read, a byte completes a valid packet exactly if the bytes since the reset are
noise and a well-formed frame, and then the packet is that frame. -/
theorem accepted_iff_item (p : Packet) (stream : List Arrival) (a : Arrival)
    (short : (p.sinceReset stream).length < 255)
    (filled : (p.after stream).state = .intellichlorState → 3 ≤ p.held stream) :
    ((p.pushAfter stream a).Accepted ↔ ∃ item : Item, p.sinceReset stream ++ [a.byte] = item.bytes) ∧
      ∀ item : Item, p.sinceReset stream ++ [a.byte] = item.bytes → ∀ view position,
        (p.pushAfter stream a).packet.delivery view position = item.frame.delivery position := by
  have delivered : ∀ item : Item, p.sinceReset stream ++ [a.byte] = item.bytes → ∀ view position,
      (p.pushAfter stream a).packet.delivery view position = item.frame.delivery position := fun item bytes =>
    (item_accepted item bytes).2.delivered item.length_seen
  refine ⟨⟨fun accepted => ?_, fun ⟨item, bytes⟩ => ?_⟩, delivered⟩
  · obtain ⟨item, _, bytes, _⟩ := accepted_frame short filled accepted
    exact ⟨item, bytes⟩
  · refine ⟨(item_accepted item bytes).1, ?_⟩
    exact (congrArg Delivery.valid (delivered item bytes default 0)).trans (item.frame.delivery_valid 0)

/-- A stop request behind a zero. -/
theorem accepted_iff_item_pumpOff :
    (((default : Packet).pushAfter (arrivals default (0x00 :: pumpOff.front))
          ⟨default, pumpOff.checksumLo⟩).Accepted ↔
        ∃ item : Item, (default : Packet).sinceReset (arrivals default (0x00 :: pumpOff.front)) ++
          [pumpOff.checksumLo] = item.bytes) ∧
      ∀ item : Item, (default : Packet).sinceReset (arrivals default (0x00 :: pumpOff.front)) ++
        [pumpOff.checksumLo] = item.bytes → ∀ view position,
          ((default : Packet).pushAfter (arrivals default (0x00 :: pumpOff.front))
            ⟨default, pumpOff.checksumLo⟩).packet.delivery view position = item.frame.delivery position :=
  accepted_iff_item default (arrivals default (0x00 :: pumpOff.front)) ⟨default, pumpOff.checksumLo⟩
    (by decide +kernel) (by decide +kernel)

/-! ## Writing it again -/

/-- A frame that was read is written as it was, unless it is an IntelliTouch frame without a
version. -/
theorem Received.written {q : Packet} {lead : List UInt8} {frame : Frame} (received : Received q ⟨lead, frame.phase⟩)
    (short : (Receiver.seen ⟨lead, frame.phase⟩).length ≤ 255)
    (versioned : q.version = 0 → frame.opening = chlorStart) (view : Env) : q.writeTo view = frame.bytes := by
  cases frame with
  | touch f =>
    simp only [Receiver.seen, Frame.phase, Phase.bytes, List.length_append, Header.length_bytes, List.length_cons,
      List.length_nil] at short
    have exposed : TouchReceived q lead f.header f.payload f.checksumHi f.checksumLo := received.packet
    have version : q.version = f.version := exposed.version
    refine Packet.writeTo_touch (fun none => ?_) version exposed.target exposed.source exposed.cid exposed.dataLen
      (touch_payload received (by omega) (by omega) view) exposed.checksumData
    exact absurd (versioned (version.trans none)) (show touchStart ≠ chlorStart by decide)
  | chlor f =>
    simp only [Receiver.seen, Frame.phase, Phase.bytes, chlorEnd, List.length_append, List.length_cons,
      List.length_nil] at short
    have exposed := chlor_exposed received (by omega)
    have checksum : q.checksumData[1] = f.checksum := exposed.checksumData
    simp [Packet.writeTo, exposed.version, exposed.payload view, checksum, Frame.bytes, ChlorFrame.bytes, chlorStart,
      chlorEnd]

/-- What `WriteTo` writes of an accepted packet are the bytes it was read from, and whoever
reads them gets the same packet. -/
theorem accepted_written (p : Packet) (stream : List Arrival) (a : Arrival)
    (short : (p.sinceReset stream).length < 255)
    (filled : (p.after stream).state = .intellichlorState → 3 ≤ p.held stream)
    (accepted : (p.pushAfter stream a).Accepted)
    (versioned : (p.pushAfter stream a).packet.version = 0 → (p.after stream).state = .intellichlorState)
    (view : Env) :
    (p.pushAfter stream a).packet.writeTo view <:+ p.sinceReset stream ++ [a.byte] ∧
      ∀ (peer : Packet) (env : ℕ → Env) (view' : Env),
        deliveries view' peer.reset (arrivals env ((p.pushAfter stream a).packet.writeTo view)) =
          [(p.pushAfter stream a).packet.delivery view
            (((p.pushAfter stream a).packet.writeTo view).length - 1)] := by
  obtain ⟨item, lead, bytes, received, fits, chlor⟩ := accepted_frame short filled accepted
  rw [received.written fits (fun none => chlor (versioned none)) view, bytes]
  refine ⟨List.suffix_append _ _, fun peer env view' => ?_⟩
  have inside : ([] : List UInt8).length + item.frame.bytes.length ≤ 255 := by
    have room := item.fits
    rw [List.length_nil]
    omega
  obtain ⟨k, q, found, last, exposed⟩ :=
    item_delivered (tracks_reset peer) ⟨[], item.frame, show Quiet [] by decide, inside⟩ env
  have last : k + 1 = item.frame.bytes.length := last
  have completed := Recognizer.completions_of_last found (by simpa [Item.bytes] using last)
  have whole : Item.bytes ⟨[], item.frame, show Quiet [] by decide, inside⟩ = item.frame.bytes := rfl
  rw [whole] at completed
  rw [deliveries, completed, List.map_singleton, exposed, ← last, Nat.add_sub_cancel]
  exact congrArg (· :: []) (received.delivered fits view k).symm

/-- The answer of a chlorinator behind a zero. -/
theorem accepted_written_chlor :
    ((default : Packet).pushAfter (arrivals default [0x00, 0x10, 0x02, 0x00, 0x12, 0x67, 0x80, 0x0B, 0x10])
          ⟨default, 0x03⟩).packet.writeTo default <:+
        (default : Packet).sinceReset (arrivals default [0x00, 0x10, 0x02, 0x00, 0x12, 0x67, 0x80, 0x0B, 0x10]) ++
          [0x03] ∧
      ∀ (peer : Packet) (env : ℕ → Env) (view' : Env),
        deliveries view' peer.reset (arrivals env
          (((default : Packet).pushAfter (arrivals default [0x00, 0x10, 0x02, 0x00, 0x12, 0x67, 0x80, 0x0B, 0x10])
            ⟨default, 0x03⟩).packet.writeTo default)) =
          [((default : Packet).pushAfter (arrivals default [0x00, 0x10, 0x02, 0x00, 0x12, 0x67, 0x80, 0x0B, 0x10])
            ⟨default, 0x03⟩).packet.delivery default
              ((((default : Packet).pushAfter
                (arrivals default [0x00, 0x10, 0x02, 0x00, 0x12, 0x67, 0x80, 0x0B, 0x10])
                ⟨default, 0x03⟩).packet.writeTo default).length - 1)] :=
  accepted_written default (arrivals default [0x00, 0x10, 0x02, 0x00, 0x12, 0x67, 0x80, 0x0B, 0x10]) ⟨default, 0x03⟩
    (by decide +kernel) (by decide +kernel) (by decide +kernel) (by decide +kernel) default

end Pentair
