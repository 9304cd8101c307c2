import Pentair.HexText

/-! Writing packets out again: what `WriteTo` makes of a packet that was read, and of one
that `Make` has built by driving the parser half way. -/
namespace Pentair
open ByteSum

namespace Packet

/-- A packet with a version is written as the IntelliTouch frame of its fields. -/
theorem writeTo_touch {q : Packet} {f : TouchFrame} {view : Env} (versioned : f.version ≠ 0)
    (version : q.version = f.version) (target : q.target = f.target) (source : q.source = f.source)
    (cid : q.cid = f.command) (dataLen : q.dataLen = f.header.length) (payload : q.payload view = f.payload)
    (checksumData : q.checksumData = #v[f.checksumHi, f.checksumLo]) : q.writeTo view = f.bytes := by
  unfold writeTo
  rw [version, if_neg versioned, target, source, cid, dataLen, payload, checksumData]
  simp [TouchFrame.bytes, TouchFrame.header, touchStart, Header.bytes]

/-- A packet without a version is written as an IntelliChlor frame, which no IntelliTouch
frame is. -/
theorem writeTo_versionless {q : Packet} {view : Env} (versionless : q.version = 0) (f : TouchFrame) :
    q.writeTo view ≠ f.bytes := by
  intro same
  have first := congrArg List.head? same
  unfold writeTo at first
  rw [if_pos versionless] at first
  simp [TouchFrame.bytes, touchStart] at first

end Packet

/-- An IntelliTouch frame that was read is written as it was exactly if it has a version. -/
theorem written_iff {q : Packet} {f : TouchFrame} (short : f.payload.length ≤ 247)
    (received : Received q ⟨touchStart, .touch f.header f.payload f.checksumHi f.checksumLo⟩) (view : Env) :
    q.writeTo view = f.bytes ↔ f.version ≠ 0 := by
  have exposed : TouchReceived q touchStart f.header f.payload f.checksumHi f.checksumLo := received.packet
  have version : q.version = f.version := exposed.version
  constructor
  · intro same versionless
    exact Packet.writeTo_versionless (version.trans versionless) f same
  · intro versioned
    refine Packet.writeTo_touch versioned version exposed.target exposed.source exposed.cid exposed.dataLen ?_
      exposed.checksumData
    refine touch_payload received ?_ (by omega) view
    simp only [touchStart, List.length_cons, List.length_nil]
    omega

/-- Reading a frame byte by byte or from its hex text, and writing it out again, gives the
frame back exactly if it has a version. -/
theorem reencoded_iff (p : Packet) (env : ℕ → Env) (view : Env) (f : TouchFrame) (short : f.payload.length ≤ 247) :
    ((Packet.recognizer.drive p.reset (arrivals env f.bytes)).writeTo view = f.bytes ↔ f.version ≠ 0) ∧
      ∀ text, HexText text f.bytes → ((p.readFrom env text).2.writeTo view = f.bytes ↔ f.version ≠ 0) := by
  obtain ⟨q, found, received⟩ := (tracks_reset p).scan_touch f (show Quiet [] by decide) (by simp) env
  simp only [List.nil_append, List.length_nil, Nat.zero_add] at found received
  constructor
  · rw [(Recognizer.feed_of_last found (by simp)).2]
    exact written_iff short received view
  · intro text spelled
    rw [Packet.readFrom, Packet.pushHex_eq _ env spelled, found]
    exact written_iff short received view

theorem reencoded_iff_statusBroadcast :
    ((Packet.recognizer.drive (default : Packet).reset (arrivals default statusBroadcast.bytes)).writeTo default =
        statusBroadcast.bytes ↔ statusBroadcast.version ≠ 0) ∧
      ∀ text, HexText text statusBroadcast.bytes →
        (((default : Packet).readFrom default text).2.writeTo default = statusBroadcast.bytes ↔
          statusBroadcast.version ≠ 0) :=
  reencoded_iff default default default statusBroadcast (by decide)

/-- The stop request of a pump is written as an IntelliChlor frame. -/
theorem pumpOff_reencoded :
    (Packet.recognizer.drive (default : Packet).reset (arrivals default pumpOff.bytes)).writeTo default =
        [0x10, 0x02, 0x04, 0x20, 0x10, 0x03] ∧
      ¬ ∀ (p : Packet) (env : ℕ → Env) (view : Env) (f : TouchFrame), f.payload.length ≤ 247 →
        (Packet.recognizer.drive p.reset (arrivals env f.bytes)).writeTo view = f.bytes :=
  ⟨by decide +kernel, fun same => absurd (same default default default pumpOff (by decide)) (by decide +kernel)⟩

/-- An IntelliChlor frame read from its hex text, whatever the packet held before, is
written as it was. -/
theorem chlor_reencoded (p : Packet) (env : ℕ → Env) (view : Env) (f : ChlorFrame) (short : f.payload.length ≤ 250)
    (text : List Char) (spelled : HexText text f.bytes) : (p.readFrom env text).2.writeTo view = f.bytes := by
  obtain ⟨q, found, received⟩ := (tracks_reset p).scan_chlor f (show Quiet [] by decide) (by simpa using short) env
  rw [List.nil_append] at found received
  have exposed : ChlorExposed q f.payload f.checksum := by
    refine chlor_exposed received ?_
    simp only [chlorStart, List.length_cons, List.length_nil]
    omega
  have checksum : q.checksumData[1] = f.checksum := exposed.checksumData
  rw [Packet.readFrom, Packet.pushHex_eq _ env spelled, found]
  simp [Packet.writeTo, exposed.version, exposed.payload view, checksum, ChlorFrame.bytes, chlorStart, chlorEnd]

/-- The answer of a chlorinator, after an IntelliTouch frame. -/
theorem chlor_reencoded_status :
    ((((default : Packet).readFrom default "ff00ffa50060100601040120".toList).2.readFrom default
      "10 02 00 12 67 80 0b 10 03".toList).2.writeTo default) =
        [0x10, 0x02, 0x00, 0x12, 0x67, 0x80, 0x0B, 0x10, 0x03] :=
  chlor_reencoded _ default default ⟨[0x00, 0x12, 0x67, 0x80], by decide, by decide⟩ (by decide)
    "10 02 00 12 67 80 0b 10 03".toList (by decide +kernel)

/-! ## `Make` -/

/-- What `Make` spells before the command byte. -/
private theorem make_header : HexText "ff 00 ff a5 25 10 20".toList (touchStart ++ [0x25, 0x10, 0x20]) := by
  decide +kernel

/-- The frame that `Make` is asked for. -/
def madeFrame (cid : UInt8) (d : List UInt8) (short : d.length ≤ 247) : TouchFrame :=
  ⟨0x25, 0x10, 0x20, cid, d, by omega⟩

/-- `Make` pushes its data in the length state, and then writes the running sum as the
checksum. -/
theorem make_opens (p : Packet) (env : ℕ → Env) (cid : UInt8) :
    ∃ q, Tracks q ⟨touchStart, .length 0x25 0x10 0x20 cid⟩ ∧ ∀ {text : List Char} {bytes : List UInt8},
      HexText text bytes →
        let made := (Packet.recognizer.scan q (arrivals (fun n => env (n + 8)) bytes)).2
        p.make env cid text = (made.valid, { made with checksumData :=
          #v[((made.checksum / 256) &&& 0xFF).toUInt8, (made.checksum &&& 0xFF).toUInt8] }) := by
  have read : receiver.scan Receiver.start (touchStart ++ [0x25, 0x10, 0x20] ++ [cid]) =
      (none, ⟨touchStart, .length 0x25 0x10 0x20 cid⟩) := by
    have started : receiver.scan Receiver.start touchStart = (none, ⟨touchStart, .version⟩) :=
      Receiver.scan_noise_touch (show Quiet [] by decide) (by simp)
    rw [List.append_assoc, Recognizer.scan_append_of_none started]
    rfl
  rw [← arrivals_bytes env (_ ++ _)] at read
  obtain ⟨q, silent, tracked⟩ := (tracks_reset p).scan_tracks read
  rw [arrivals_append] at silent
  obtain ⟨q₁, header, command⟩ := Recognizer.scan_append_none.mp silent
  refine ⟨q, tracked, fun spelled => ?_⟩
  have pushed : (q₁.push (env 7) cid).packet = q := congrArg Prod.snd (Recognizer.scan_cons_none.mp command).2
  simp only [Packet.make, Packet.pushHex_of_none make_header header, pushed, Packet.pushHex_eq _ _ spelled]

/-- `Make` leaves the parser waiting for the checksum of the frame it was asked for, with
the running sum as that checksum. -/
theorem make_tracks (p : Packet) (env : ℕ → Env) {cid : UInt8} {text : List Char} {d : List UInt8}
    (short : d.length ≤ 247) (spelled : HexText text (UInt8.ofNat d.length :: d)) :
    ∃ q, Tracks q ⟨touchStart, .checksum (madeFrame cid d short).header d⟩ ∧
      (p.make env cid text).2 = { q with checksumData :=
        #v[((q.checksum / 256) &&& 0xFF).toUInt8, (q.checksum &&& 0xFF).toUInt8] } := by
  have read : receiver.scan ⟨touchStart, .length 0x25 0x10 0x20 cid⟩ (UInt8.ofNat d.length :: d) =
      (none, ⟨touchStart, .checksum (madeFrame cid d short).header d⟩) :=
    Receiver.scan_length_payload (h := (madeFrame cid d short).header) (madeFrame cid d short).length_header.symm
  obtain ⟨q, tracked, made⟩ := make_opens p env cid
  rw [← arrivals_bytes (fun n => env (n + 8)) (_ :: _)] at read
  obtain ⟨q', silent, tracked'⟩ := tracked.scan_tracks read
  refine ⟨q', tracked', ?_⟩
  rw [made spelled, silent]

/-- The running sum of sixteen bits, taken apart the way `Make` does. -/
private theorem checksum_bytes (sum : ℕ) :
    ((UInt16.ofNat sum / 256) &&& 0xFF).toUInt8 = UInt8.ofNat (sum / 256) ∧
      (UInt16.ofNat sum &&& 0xFF).toUInt8 = UInt8.ofNat sum := by
  have low : ∀ n : ℕ, n &&& 255 = n % 256 := fun n => Nat.and_two_pow_sub_one_eq_mod n 8
  constructor <;> apply UInt8.toNat_inj.mp
  · simp only [UInt16.toNat_toUInt8, UInt16.toNat_and, UInt16.toNat_div, UInt16.toNat_ofNat', UInt16.reduceToNat,
      UInt8.toNat_ofNat', low]
    omega
  · simp only [UInt16.toNat_toUInt8, UInt16.toNat_and, UInt16.toNat_ofNat', UInt16.reduceToNat,
      UInt8.toNat_ofNat', low]
    omega

/-- `WriteTo` writes the frame that `Make` was asked for. -/
theorem make_written (p : Packet) (env : ℕ → Env) (view : Env) {cid : UInt8} {text : List Char} {d : List UInt8}
    (short : d.length ≤ 247) (spelled : HexText text (UInt8.ofNat d.length :: d)) :
    (p.make env cid text).2.writeTo view = (madeFrame cid d short).bytes := by
  obtain ⟨q, tracked, made⟩ := make_tracks p env short spelled
  obtain ⟨_, _, _, version, target, source, command, dataLen, checksum⟩ := touch_registers.mp tracked.registers
  obtain ⟨high, low⟩ := checksum_bytes (0xA5 + byteSum ((madeFrame cid d short).header.bytes ++ d))
  rw [made]
  refine Packet.writeTo_touch (f := madeFrame cid d short) (show (0x25 : UInt8) ≠ 0 by decide) version target source
    command dataLen ?_ ?_
  · have holds : Ring.Holds q.buffer (touchStart ++ (madeFrame cid d short).header.bytes ++ d ++ []) := by
      simpa [Receiver.seen, Phase.bytes] using tracked.holds
    refine payload_in_buffer [] holds (fun nonempty => ?_) ?_ ?_ ?_ view
    · exact tracked.pointer 5 (by simp [Phase.payloadOffset, nonempty])
    · rw [dataLen]
      exact (madeFrame cid d short).length_header
    · simp only [touchStart, List.length_append, Header.length_bytes, List.length_cons, List.length_nil]
      omega
    · simp only [List.length_nil]
      omega
  · rw [checksum, high, low]
    rfl

/-- What `Make` builds, once written, is read by any peer as the packet asked for, and
completes at its last byte. -/
theorem make_received (p peer : Packet) (env peerEnv : ℕ → Env) (view peerView : Env) (cid : UInt8)
    (text : List Char) (d : List UInt8) (short : d.length ≤ 247)
    (spelled : HexText text (UInt8.ofNat d.length :: d)) :
    ((p.make env cid text).2.writeTo view).length = d.length + 11 ∧
      deliveries peerView peer.reset (arrivals peerEnv ((p.make env cid text).2.writeTo view)) =
        [⟨d.length + 10, true, 0x25, 0x10, 0x20, cid, d.length, d⟩] := by
  rw [make_written p env view short spelled]
  refine ⟨TouchFrame.length_bytes _, ?_⟩
  obtain ⟨q, found, received⟩ :=
    (tracks_reset peer).scan_touch (madeFrame cid d short) (show Quiet [] by decide) (by simp) peerEnv
  have completed := Recognizer.completions_of_last found (by simp [madeFrame])
  simp only [List.nil_append, List.length_nil, Nat.zero_add] at completed received
  rw [deliveries, completed, List.map_singleton, touch_delivered _ received]
  · rfl
  · simp only [touchStart, List.length_cons, List.length_nil, madeFrame]
    omega
  · simp only [madeFrame]
    omega

/-- The request for a circuit name that the loop sends. -/
theorem make_received_circuitName :
    (((default : Packet).make default 0xCB "01 02".toList).2.writeTo default).length = 12 ∧
      deliveries default (default : Packet).reset
          (arrivals default (((default : Packet).make default 0xCB "01 02".toList).2.writeTo default)) =
        [⟨11, true, 0x25, 0x10, 0x20, 0xCB, 1, [0x02]⟩] :=
  make_received default default default default default default 0xCB "01 02".toList [0x02] (by decide)
    (by decide +kernel)

/-! ## What `Make` returns -/

/-- A length byte of at most 247, followed by that many bytes and nothing else. -/
def Sendable (bytes : List UInt8) : Prop :=
  ∃ (length : UInt8) (d : List UInt8), bytes = length :: d ∧ d.length = length.toNat ∧ length.toNat ≤ 247

/-- A length byte, that many bytes, and after them the checksum of the frame that `Make`
builds. -/
def Checksummed (cid : UInt8) (bytes : List UInt8) : Prop :=
  ∃ (length : UInt8) (d : List UInt8) (hi lo : UInt8) (more : List UInt8), bytes = length :: d ++ hi :: lo :: more ∧
    d.length = length.toNat ∧ TouchValid ⟨0x25, 0x10, 0x20, cid, length⟩ d hi lo

theorem not_sendable_of_checksummed {cid : UInt8} {bytes : List UInt8} (checksummed : Checksummed cid bytes) :
    ¬ Sendable bytes := by
  rintro ⟨length, d, rfl, fills, _⟩
  obtain ⟨_, d', hi, lo, more, spelling, fills', _⟩ := checksummed
  rw [List.cons_append, List.cons.injEq] at spelling
  obtain ⟨rfl, rfl⟩ := spelling
  simp only [List.length_append, List.length_cons] at fills
  omega

/-- Data with two bytes to spare, taken apart at the checksum. -/
private theorem split_checksum {rest : List UInt8} {n : ℕ} (long : n + 2 ≤ rest.length) :
    ∃ (d : List UInt8) (hi lo : UInt8) (more : List UInt8), rest = d ++ hi :: lo :: more ∧ d.length = n := by
  have spare : 2 ≤ (rest.drop n).length := by
    rw [List.length_drop]
    omega
  obtain ⟨hi, lo, more, last⟩ : ∃ hi lo more, rest.drop n = hi :: lo :: more := by
    match rest.drop n, spare with
    | hi :: lo :: more, _ => exact ⟨hi, lo, more, rfl⟩
  refine ⟨rest.take n, hi, lo, more, ?_, ?_⟩
  · rw [← last, List.take_append_drop]
  · rw [List.length_take]
    omega

/-- Data that end before the second checksum byte complete nothing. -/
private theorem scan_length_short {lead : List UInt8} {h : Header} {rest : List UInt8}
    (short : rest.length ≤ h.length.toNat + 1) :
    (receiver.scan ⟨lead, .length h.version h.target h.source h.command⟩ (h.length :: rest)).1 = none := by
  -- zeros fill the data up to a whole packet
  have filled : (rest ++ List.replicate (h.length.toNat + 2 - rest.length) 0).length = h.length.toNat + 2 := by
    rw [List.length_append, List.length_replicate]
    omega
  obtain ⟨d, hi, lo, more, spelling, fills⟩ := split_checksum filled.ge
  obtain rfl : more = [] := by
    rw [spelling, List.length_append, List.length_cons, List.length_cons] at filled
    exact List.eq_nil_of_length_eq_zero (by omega)
  have found := Receiver.scan_length_body lead fills hi lo
  rw [List.cons_append, ← spelling, ← List.cons_append] at found
  exact Recognizer.scan_prefix_none found (by rw [List.length_cons]; omega)

/-- `Make` returns true for data that go on with the checksum, and for no others. -/
theorem make_valid_iff (p : Packet) (env : ℕ → Env) (cid : UInt8) {text : List Char} {bytes : List UInt8}
    (spelled : HexText text bytes) : (p.make env cid text).1 = true ↔ Checksummed cid bytes := by
  obtain ⟨q, tracked, made⟩ := make_opens p env cid
  rw [made spelled]
  have silent : (receiver.scan ⟨touchStart, .length 0x25 0x10 0x20 cid⟩ bytes).1 = none →
      (Packet.recognizer.scan q (arrivals (fun n => env (n + 8)) bytes)).2.valid = false := by
    intro none
    rw [← arrivals_bytes (fun n => env (n + 8)) bytes] at none
    obtain ⟨q', scanned, tracked'⟩ := tracked.scan_tracks (Prod.ext none rfl)
    rw [scanned]
    exact tracked'.invalid
  cases bytes with
  | nil =>
    refine iff_of_false (by simp [silent rfl]) ?_
    rintro ⟨length, d, hi, lo, more, spelling, _⟩
    simp at spelling
  | cons length rest =>
    by_cases short : rest.length ≤ length.toNat + 1
    · refine iff_of_false (by simp [silent (scan_length_short (h := ⟨0x25, 0x10, 0x20, cid, length⟩) short)]) ?_
      rintro ⟨_, d, hi, lo, more, spelling, fills, _⟩
      rw [List.cons_append, List.cons.injEq] at spelling
      obtain ⟨rfl, rfl⟩ := spelling
      simp only [List.length_append, List.length_cons] at short
      omega
    · obtain ⟨d, hi, lo, more, rfl, fills⟩ := split_checksum (show length.toNat + 2 ≤ rest.length by omega)
      have found := Receiver.scan_length_body touchStart (h := ⟨0x25, 0x10, 0x20, cid, length⟩) fills hi lo
      have whole := Recognizer.scan_append_of_some found more
      rw [show length :: d ++ [hi, lo] ++ more = length :: (d ++ hi :: lo :: more) by simp,
        ← arrivals_bytes (fun n => env (n + 8)) (_ :: _)] at whole
      obtain ⟨q', scanned, received⟩ := tracked.scan_received whole
      have exposed : TouchReceived q' touchStart ⟨0x25, 0x10, 0x20, cid, length⟩ d hi lo := received.packet
      rw [scanned]
      refine exposed.valid.trans ⟨fun agreed => ⟨length, d, hi, lo, more, rfl, fills, agreed⟩, ?_⟩
      rintro ⟨_, d', hi', lo', more', spelling, fills', agreed⟩
      rw [List.cons_append, List.cons.injEq] at spelling
      obtain ⟨rfl, spelling⟩ := spelling
      obtain ⟨rfl, same⟩ := List.append_inj spelling (fills.trans fills'.symm)
      obtain ⟨rfl, rfl, rfl⟩ : hi = hi' ∧ lo = lo' ∧ more = more' := by simpa using same
      exact agreed

/-- `Make` tells whether it built a sendable packet exactly for data that are no packet's
data at all and do not spell out the checksum either. -/
theorem make_honest_iff (p : Packet) (env : ℕ → Env) (cid : UInt8) (text : List Char) (bytes : List UInt8)
    (spelled : HexText text bytes) :
    ((p.make env cid text).1 = true ↔ Sendable bytes) ↔ ¬ Sendable bytes ∧ ¬ Checksummed cid bytes := by
  rw [make_valid_iff p env cid spelled]
  constructor
  · intro honest
    have refused : ¬ Checksummed cid bytes := fun checksummed =>
      not_sendable_of_checksummed checksummed (honest.mp checksummed)
    exact ⟨fun sendable => refused (honest.mpr sendable), refused⟩
  · rintro ⟨unsendable, refused⟩
    exact iff_of_false refused unsendable

/-- Two bytes announced, one supplied. -/
theorem make_honest_truncated :
    ((((default : Packet).make default 0xCB "02 01".toList).1 = true ↔ Sendable [0x02, 0x01]) ↔
      ¬ Sendable [0x02, 0x01] ∧ ¬ Checksummed 0xCB [0x02, 0x01]) :=
  make_honest_iff default default 0xCB "02 01".toList [0x02, 0x01] (by decide +kernel)

/-- The request that the loop sends is sendable, and `Make` returns false for it. -/
theorem make_not_honest :
    ¬ ∀ (p : Packet) (env : ℕ → Env) (cid : UInt8) (text : List Char) (bytes : List UInt8), HexText text bytes →
      ((p.make env cid text).1 = true ↔ Sendable bytes) := by
  intro honest
  have made := (honest default default 0xCB "01 02".toList [0x01, 0x02] (by decide +kernel)).mpr
    ⟨0x01, [0x02], rfl, rfl, by decide⟩
  exact absurd made (by decide +kernel)

end Pentair
