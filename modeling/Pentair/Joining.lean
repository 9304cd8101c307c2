import Pentair.Run

/-! Joining the bus in the middle of traffic. The first frame that begins while the parser
is hunting is delivered; one that begins while it is inside what it took for a packet is
not, because that packet and the frame have different lengths. -/
namespace Pentair

namespace Receiver

/-- The hunt goes on only with all the bytes it has seen. -/
private theorem lead_of_hunt {bytes lead : List UInt8} (hunting : hunt bytes = ⟨lead, .preamble⟩) : bytes = lead := by
  unfold hunt at hunting
  split_ifs at hunting
  · cases hunting
  · cases hunting
  · exact congrArg Receiver.lead hunting

/-- Hunting on past a byte in the first window means that it ended no start sequence. -/
private theorem quiet_of_hunt {before : List UInt8} {c : UInt8} (quiet : Quiet before)
    (hunting : hunt (before ++ [c]) = ⟨before ++ [c], .preamble⟩) (short : (before ++ [c]).length ≤ 256) :
    Quiet (before ++ [c]) := by
  unfold hunt at hunting
  split_ifs at hunting with touch chlor
  · cases hunting
  · cases hunting
  refine ⟨fun found => ?_, fun found => ?_⟩
  · rcases List.infix_concat_iff.mp found with ends | earlier
    · have long : 4 ≤ (before ++ [c]).length := ends.length_le
      exact touch ⟨by omega, ends⟩
    · exact quiet.touch earlier
  · rcases List.infix_concat_iff.mp found with ends | earlier
    · have long : 2 ≤ (before ++ [c]).length := ends.length_le
      exact chlor ⟨by omega, ends⟩
    · exact quiet.chlor earlier

/-- While the receiver hunts in its first window, no start sequence has been missed. -/
theorem hunting_quiet {bytes lead : List UInt8} (reached : receiver.feed start bytes = ⟨lead, .preamble⟩)
    (short : lead.length ≤ 256) : Quiet lead := by
  induction bytes using List.reverseRecOn generalizing lead with
  | nil =>
    obtain rfl : [] = lead := congrArg Receiver.lead reached
    decide
  | append_singleton bytes c ih =>
    have last : receiver.round (receiver.feed start bytes) c = ⟨lead, .preamble⟩ := by
      rwa [Recognizer.feed_append] at reached
    have reading := feed_reading (r := start) id bytes
    by_cases hunting : (receiver.feed start bytes).phase = .preamble
    · rcases hr : receiver.feed start bytes with ⟨before, phase⟩
      rw [hr] at hunting last
      obtain rfl : phase = .preamble := hunting
      obtain rfl := lead_of_hunt last
      have shorter : before.length ≤ 256 := by
        simp only [List.length_append, List.length_singleton] at short
        omega
      exact quiet_of_hunt (ih hr shorter) last short
    · cases reported : (receiver.step (receiver.feed start bytes) c).1 with
      | true =>
        rw [Recognizer.round_of_complete reported] at last
        obtain rfl : [] = lead := congrArg Receiver.lead last
        decide
      | false =>
        rw [Recognizer.round_of_incomplete reported] at last
        exact absurd (congrArg Receiver.phase last) (step_inside reading hunting c).2.1

/-- A receiver inside a packet reads on in it, or restarts within the stream. -/
theorem feed_inside {r : Receiver} (reading : ¬ r.phase.Complete) (inside : r.phase ≠ .preamble)
    (bytes : List UInt8) :
    ((receiver.feed r bytes).lead = r.lead ∧ (receiver.feed r bytes).phase ≠ .preamble ∧
        (receiver.feed r bytes).phase.bytes = r.phase.bytes ++ bytes) ∨
      (receiver.feed r bytes).seen <:+ bytes.tail := by
  induction bytes generalizing r with
  | nil => exact .inl ⟨rfl, inside, (List.append_nil _).symm⟩
  | cons c rest ih =>
    rw [Recognizer.feed_cons, List.tail_cons]
    cases reported : (receiver.step r c).1 with
    | true =>
      rw [Recognizer.round_of_complete reported]
      refine .inr ?_
      have suffix := Recognizer.pending_suffix (m := receiver) start [] rest
      rwa [← show start.seen = [] from rfl, ← feed_seen (r := start) id] at suffix
    | false =>
      obtain ⟨lead, onward, bytes⟩ := step_inside reading inside c
      rw [Recognizer.round_of_incomplete reported]
      rcases ih (reading_step reading reported) onward with ⟨lead', onward', bytes'⟩ | suffix
      · refine .inl ⟨lead'.trans lead, onward', bytes'.trans ?_⟩
        rw [bytes, List.append_assoc, List.singleton_append]
      · exact .inr (suffix.trans (List.tail_suffix rest))

end Receiver

/-- What the receiver completes with the last byte of a frame that began inside a packet:
either that packet, with all of the frame in it, or one that began inside the frame. -/
theorem completed_inside {r done : Receiver} (reading : ¬ r.phase.Complete) (inside : r.phase ≠ .preamble)
    {bytes : List UInt8} {c : UInt8} (some : bytes ≠ [])
    (completed : receiver.step (receiver.feed r bytes) c = (true, done)) :
    done.phase.bytes = r.phase.bytes ++ bytes ++ [c] ∨ done.seen <:+ (bytes ++ [c]).tail := by
  have still := Receiver.feed_reading reading bytes
  obtain rfl : ((receiver.feed r bytes).step c).2 = done := congrArg Prod.snd completed
  rcases Receiver.feed_inside reading inside bytes with ⟨_, onward, read⟩ | suffix
  · left
    rw [(Receiver.step_inside still onward c).2.2, read]
  · right
    rw [Receiver.seen_step still c, List.tail_append_of_ne_nil some]
    obtain ⟨front, spelling⟩ := suffix
    exact ⟨front, by rw [← spelling, List.append_assoc]⟩

section Join
variable {before : List UInt8} {f : TouchFrame}

/-- An IntelliTouch packet with the frame's length neither has all of the frame in it nor
began inside the frame: it is too short for the one and too long for the other. -/
private theorem touch_not_inside {lead inner payload : List UInt8} {h : Header} {hi lo : UInt8}
    (starts : touchStart <:+ lead) (long : payload.length = f.payload.length)
    (whole : h.bytes ++ payload ++ [hi, lo] = inner ++ f.front ++ [f.checksumLo] ∨
      Receiver.seen ⟨lead, .touch h payload hi lo⟩ <:+ f.bytes.tail) : False := by
  have four := starts.length_le
  simp only [touchStart, List.length_cons, List.length_nil] at four
  rcases whole with read | suffix
  · have length := congrArg List.length read
    simp only [List.length_append, Header.length_bytes, List.length_cons, List.length_nil,
      TouchFrame.length_front] at length
    omega
  · have length := suffix.length_le
    simp only [Receiver.seen, Phase.bytes, List.length_append, Header.length_bytes, List.length_cons,
      List.length_nil, List.length_tail, f.length_bytes] at length
    omega

/-- An IntelliChlor packet of the frame's length that began inside the frame is as long as
what follows the source, so its start sequence is made of the source and the command. -/
private theorem chlor_command {lead body : List UInt8} (starts : chlorStart <:+ lead)
    (long : body.length = f.payload.length + 3)
    (suffix : Receiver.seen ⟨lead, .chlor body⟩ <:+ f.bytes.tail) : f.command = 0x02 := by
  obtain ⟨skipped, spelling⟩ := suffix
  obtain ⟨before, rfl⟩ := starts
  have length := congrArg List.length spelling
  simp only [Receiver.seen, Phase.bytes, chlorStart, List.length_append, List.length_cons, List.length_nil,
    List.length_tail, f.length_bytes] at length
  have cell := congrArg (·[6]?) spelling
  have moved : skipped ++ Receiver.seen ⟨before ++ chlorStart, .chlor body⟩ =
      (skipped ++ before ++ [0x10]) ++ 0x02 :: body := by
    simp [Receiver.seen, Phase.bytes, chlorStart]
  have place : (skipped ++ before ++ [(0x10 : UInt8)]).length = 6 := by
    simp only [List.length_append, List.length_singleton]
    omega
  have command : f.bytes.tail[6]? = some f.command := by
    simp [TouchFrame.bytes, touchStart, Header.bytes, TouchFrame.header]
  rw [moved, List.getElem?_append_right place.le, place, command] at cell
  exact (Option.some.inj cell).symm

/-- A frame that begins inside a packet is not what its last byte completes. -/
private theorem not_delivered_inside {r done : Receiver} {q : Packet} (reading : ¬ r.phase.Complete)
    (inside : r.phase ≠ .preamble) (short : r.seen.length + f.bytes.length ≤ 255)
    (completed : receiver.step (receiver.feed r f.front) f.checksumLo = (true, done)) (received : Received q done)
    {view : Env} {position place : ℕ} (delivered : q.delivery view position = (Frame.touch f).delivery place) :
    False := by
  have valid : q.valid = true := congrArg Delivery.valid delivered
  have cid : q.cid = f.command := congrArg Delivery.cid delivered
  have length : q.dataLen.toNat = f.payload.length := congrArg Delivery.dataLen delivered
  have some : f.front ≠ [] := by simp [TouchFrame.front]
  have whole := completed_inside reading inside some completed
  have within : r.phase.bytes.length ≤ r.seen.length := by simp [Receiver.seen]
  rw [← f.bytes_eq_front] at whole
  rw [f.length_bytes] at short
  obtain ⟨lead, phase⟩ := done
  cases phase with
  | touch h payload hi lo =>
    have exposed : TouchReceived q lead h payload hi lo := received.packet
    obtain ⟨starts, fills⟩ : touchStart <:+ lead ∧ payload.length = h.length.toNat := received.sound
    rw [exposed.dataLen] at length
    exact touch_not_inside starts (fills.trans length) whole
  | chlor body =>
    obtain ⟨env, exposed⟩ : ∃ env, ChlorReceived q env lead body := received.packet
    obtain ⟨starts, ends⟩ : chlorStart <:+ lead ∧ chlorEnd <:+ body := received.sound
    have two := ends.length_le
    simp only [chlorEnd, List.length_cons, List.length_nil] at two
    rw [exposed.dataLen] at length
    simp only [UInt8.toNat_sub, UInt8.toNat_ofNat', UInt8.reduceToNat] at length
    rcases whole with read | suffix
    · change body = _ at read
      have long := congrArg List.length read
      simp only [List.length_append, List.length_singleton, TouchFrame.length_front] at long
      omega
    · have bound := suffix.length_le
      simp only [Receiver.seen, Phase.bytes, List.length_append, List.length_tail, f.length_bytes] at bound
      -- IntelliChlor packets all go by one command, and it is not 0x02
      have chlorinator : q.cid = commandChlorinator := (exposed.header valid).1
      rw [cid, chlor_command starts (by omega) suffix] at chlorinator
      exact absurd chlorinator (by decide)
  | _ => exact received.packet

/-- Bytes without a start sequence leave the parser in the preamble state. -/
theorem quiet_preamble (p : Packet) (env : ℕ → Env) (quiet : Quiet before) :
    (p.after (arrivals env before)).state = .preambleState := by
  obtain ⟨r, tracked, _, reached⟩ := after_tracks p (arrivals env before)
  have silent : receiver.scan Receiver.start before = (none, ⟨before, .preamble⟩) := Receiver.scan_quiet [] quiet
  rw [arrivals_bytes, (Recognizer.feed_of_none silent).1] at reached
  exact tracked.preamble_iff.mpr (congrArg Receiver.phase reached)

/-- A frame is delivered on its last byte exactly if it began in the preamble state. -/
theorem delivered_iff (p : Packet) (env : ℕ → Env) (view : Env) (before : List UInt8) (f : TouchFrame)
    (short : before.length + f.bytes.length ≤ 255) :
    (Frame.touch f).delivery (before.length + f.payload.length + 10) ∈
        deliveries view p.reset (arrivals env (before ++ f.bytes)) ↔
      (p.after (arrivals env before)).state = .preambleState := by
  have length := f.length_bytes
  have last : before.length + f.payload.length + 10 = (arrivals env (before ++ f.front)).length := by
    rw [length_arrivals, List.length_append, f.length_front]
    omega
  rw [arrivals_frame, mem_deliveries_last p _ _ (by exact last)]
  obtain ⟨same, left⟩ := pushAfter_agrees p (arrivals env (before ++ f.front))
    ⟨env (before ++ f.front).length, f.checksumLo⟩
  rw [arrivals_bytes] at same left
  obtain ⟨r, tracked, seen, reached⟩ := after_tracks p (arrivals env before)
  rw [arrivals_bytes] at reached
  have seen_le : r.seen.length ≤ before.length := by
    have suffix := Recognizer.pending_suffix (m := receiver) Receiver.start [] before
    rw [← show Receiver.start.seen = [] from rfl, ← Receiver.feed_seen (r := Receiver.start) id, ← reached] at suffix
    exact suffix.length_le
  constructor
  · rintro ⟨complete, delivered⟩
    by_contra inside
    rw [if_pos complete] at left
    have stepped : receiver.step (receiver.feed Receiver.start (before ++ f.front)) f.checksumLo = (true, _) :=
      Prod.ext (same.symm.trans complete) rfl
    rw [Recognizer.feed_append, ← reached] at stepped left
    exact not_delivered_inside tracked.reading (fun hunting => inside (tracked.preamble_iff.mpr hunting))
      (by omega) stepped left delivered
  · intro hunting
    obtain ⟨lead, phase⟩ := r
    obtain rfl : phase = .preamble := tracked.preamble_iff.mp hunting
    have lead_le : lead.length ≤ before.length := by simpa [Receiver.seen, Phase.bytes] using seen_le
    have completed :=
      Receiver.completed_hunting reached.symm (Receiver.hunting_quiet reached.symm (by omega)) (by omega) f
    rw [completed] at same left
    rw [if_pos same] at left
    refine ⟨same, ?_⟩
    rw [← last]
    refine touch_delivered f left ?_ (by omega) view _
    simp only [touchStart, List.length_append, List.length_cons, List.length_nil]
    omega

end Join

/-- Whatever the loop saw before, a frame that follows is delivered on its last byte exactly
if the parser was not inside a packet when it began, as after bytes without a start
sequence. -/
theorem joined_iff (p : Packet) (env : ℕ → Env) (view : Env) (before : List UInt8) (f : TouchFrame)
    (short : before.length + f.bytes.length ≤ 255) :
    ((Frame.touch f).delivery (before.length + f.payload.length + 10) ∈
        deliveries view p.reset (arrivals env (before ++ f.bytes)) ↔
      (p.after (arrivals env before)).state = .preambleState) ∧
    (Quiet before → (Frame.touch f).delivery (before.length + f.payload.length + 10) ∈
        deliveries view p.reset (arrivals env (before ++ f.bytes))) :=
  ⟨delivered_iff p env view before f short,
    fun quiet => (delivered_iff p env view before f short).mpr (quiet_preamble p env quiet)⟩

/-- The bus joined after the header of a status broadcast. -/
theorem joined_after_header :
    ((Frame.touch pumpOff).delivery 43 ∈ deliveries default (default : Packet).reset
        (arrivals default (statusBroadcast.bytes.drop 8 ++ pumpOff.bytes)) ↔
      ((default : Packet).after (arrivals default (statusBroadcast.bytes.drop 8))).state = .preambleState) ∧
    (Quiet (statusBroadcast.bytes.drop 8) → (Frame.touch pumpOff).delivery 43 ∈
      deliveries default (default : Packet).reset
        (arrivals default (statusBroadcast.bytes.drop 8 ++ pumpOff.bytes))) :=
  joined_iff default default default (statusBroadcast.bytes.drop 8) pumpOff (by decide)

/-- Joined two bytes earlier, source and command read as the start of an IntelliChlor
packet, and the next frame is lost in it. -/
theorem joined_inside_header :
    ¬ ∀ (p : Packet) (env : ℕ → Env) (view : Env) (g f : TouchFrame) (before : List UInt8),
      before <:+ g.bytes → before ≠ g.bytes → before.length + f.bytes.length ≤ 255 →
      (Frame.touch f).delivery (before.length + f.payload.length + 10) ∈
        deliveries view p.reset (arrivals env (before ++ f.bytes)) := by
  intro joined
  have member := joined default default default statusBroadcast pumpOff (statusBroadcast.bytes.drop 6)
    (List.drop_suffix _ _) (by decide) (by decide)
  have lost : deliveries default (default : Packet).reset
      (arrivals default (statusBroadcast.bytes.drop 6 ++ pumpOff.bytes)) = [] := by decide +kernel
  rw [lost] at member
  exact absurd member (List.not_mem_nil)

end Pentair
