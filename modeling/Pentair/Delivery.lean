import Pentair.Completion

/-! What the loop around `Push` is handed over a whole stream: frames among noise
come out one by one, in order and intact. -/
namespace Pentair

/-- The bytes of a stream as they arrive, each with surroundings of its own. -/
def arrivals (env : ℕ → Env) (bytes : List UInt8) : List Arrival :=
  bytes.mapIdx fun i c => ⟨env i, c⟩

@[simp] theorem arrivals_bytes (env : ℕ → Env) (bytes : List UInt8) :
    (arrivals env bytes).map Arrival.byte = bytes := by
  apply List.ext_getElem
  · simp [arrivals]
  · intro i within within'
    simp [arrivals]

@[simp] theorem length_arrivals (env : ℕ → Env) (bytes : List UInt8) :
    (arrivals env bytes).length = bytes.length := by
  simp [arrivals]

theorem arrivals_append (env : ℕ → Env) (first second : List UInt8) :
    arrivals env (first ++ second) =
      arrivals env first ++ arrivals (fun i => env (i + first.length)) second := by
  simp [arrivals, List.mapIdx_append]

theorem arrivals_cons (env : ℕ → Env) (b : UInt8) (bytes : List UInt8) :
    arrivals env (b :: bytes) = ⟨env 0, b⟩ :: arrivals (fun n => env (n + 1)) bytes := by
  simp [arrivals, List.mapIdx_cons]

/-- The last byte of a frame, apart from those before it. -/
theorem arrivals_frame (env : ℕ → Env) (before : List UInt8) (f : TouchFrame) :
    arrivals env (before ++ f.bytes) = arrivals env (before ++ f.front) ++
      [⟨env (before ++ f.front).length, f.checksumLo⟩] := by
  rw [f.bytes_eq_front, ← List.append_assoc, arrivals_append env (before ++ f.front)]
  simp [arrivals]

/-- A completed packet, as read before the `Reset` that follows it. -/
structure Delivery where
  position : ℕ
  valid : Bool
  version : UInt8
  target : UInt8
  source : UInt8
  cid : UInt8
  dataLen : ℕ
  payload : List UInt8
  deriving DecidableEq, Repr

/-- `view` supplies what a read of the payload outside the buffer would find. -/
def Packet.delivery (view : Env) (position : ℕ) (p : Packet) : Delivery :=
  ⟨position, p.valid, p.version, p.target, p.source, p.cid, p.dataLen.toNat, p.payload view⟩

/-- Every completion of a run, in order, by its position in the stream. -/
def deliveries (view : Env) (p : Packet) (stream : List Arrival) : List Delivery :=
  (Packet.recognizer.completions p stream).map fun done => done.2.delivery view done.1

/-- What a frame is delivered as. An IntelliChlor frame names no devices: they follow
from its first payload byte. -/
def Frame.delivery (position : ℕ) : Frame → Delivery
  | .touch f =>
    ⟨position, true, f.version, f.target, f.source, f.command, f.payload.length, f.payload⟩
  | .chlor f =>
    if f.payload.head? = some 0x50 then
      ⟨position, true, 0, deviceChlorinator, deviceControlCenter, commandChlorinator, f.payload.length,
        f.payload⟩
    else
      ⟨position, true, 0, deviceControlCenter, deviceChlorinator, commandChlorinator, f.payload.length,
        f.payload⟩

/-- A frame and the noise before it, which together fit the window. -/
structure Item where
  noise : List UInt8
  frame : Frame
  quiet : Quiet noise
  fits : noise.length + frame.bytes.length ≤ 255

namespace Item

def bytes (item : Item) : List UInt8 := item.noise ++ item.frame.bytes

/-- The deliveries announced by a list of frames, each at its last byte. -/
def deliveries (position : ℕ) : List Item → List Delivery
  | [] => []
  | item :: rest =>
    item.frame.delivery (position + item.bytes.length - 1) :: deliveries (position + item.bytes.length) rest

end Item

namespace Tracks
variable {p : Packet} {noise : List UInt8}

/-- An IntelliTouch frame after noise is received at its last byte. -/
theorem scan_touch (tracked : Tracks p Receiver.start) (f : TouchFrame) (quiet : Quiet noise)
    (short : noise.length ≤ 252) (env : ℕ → Env) :
    ∃ q, Packet.recognizer.scan p (arrivals env (noise ++ f.bytes)) =
        (some (noise.length + f.payload.length + 10), q) ∧
      Received q ⟨noise ++ touchStart, .touch f.header f.payload f.checksumHi f.checksumLo⟩ := by
  refine tracked.scan_received ?_
  have read := Receiver.scan_touch quiet short f.length_header.symm f.checksumHi f.checksumLo
  simpa [TouchFrame.bytes] using read

/-- An IntelliChlor frame after noise is received at its last byte. -/
theorem scan_chlor (tracked : Tracks p Receiver.start) (f : ChlorFrame) (quiet : Quiet noise)
    (short : noise.length + f.payload.length ≤ 250) (env : ℕ → Env) :
    ∃ q, Packet.recognizer.scan p (arrivals env (noise ++ f.bytes)) =
        (some (noise.length + f.payload.length + 4), q) ∧
      Received q ⟨noise ++ chlorStart, .chlor (f.payload ++ [f.checksum] ++ chlorEnd)⟩ := by
  refine tracked.scan_received ?_
  have read := Receiver.scan_chlor quiet f.closed short
  simpa [ChlorFrame.bytes, ChlorFrame.checksum] using read

end Tracks

/-- A received IntelliTouch frame exposes itself to its reader, as long as its payload
stands in the buffer unsplit. -/
theorem touch_delivered {q : Packet} {lead : List UInt8} (f : TouchFrame)
    (received : Received q ⟨lead, .touch f.header f.payload f.checksumHi f.checksumLo⟩)
    (inside : (lead.length + 5) % 256 + f.payload.length ≤ 256) (room : f.payload.length ≤ 254)
    (view : Env) (position : ℕ) : q.delivery view position = (Frame.touch f).delivery position := by
  have exposed : TouchReceived q lead f.header f.payload f.checksumHi f.checksumLo := received.packet
  simp [Packet.delivery, Frame.delivery, exposed.valid.mpr f.valid, exposed.version, exposed.target,
    exposed.source, exposed.cid, exposed.dataLen, touch_payload received inside room view,
    TouchFrame.header, Nat.mod_eq_of_lt f.short]

/-- The same for an IntelliChlor frame that ended before the buffer wrapped. -/
theorem chlor_delivered {q : Packet} {lead : List UInt8} (f : ChlorFrame)
    (received : Received q ⟨lead, .chlor (f.payload ++ [f.checksum] ++ chlorEnd)⟩)
    (short : lead.length + f.payload.length + 3 ≤ 255) (view : Env) (position : ℕ) :
    q.delivery view position = (Frame.chlor f).delivery position := by
  have exposed := chlor_exposed received short
  have valid : q.valid = true := exposed.valid.mpr (by simp [ChlorFrame.checksum])
  obtain ⟨cid, header⟩ := exposed.header valid
  have devices := header f.nonempty
  have dataLen : q.dataLen.toNat = f.payload.length := by
    rw [exposed.dataLen, UInt8.toNat_ofNat']
    omega
  by_cases request : f.payload.head? = some 0x50
  · rw [if_pos request, Prod.mk.injEq] at devices
    simp [Packet.delivery, Frame.delivery, valid, exposed.version, devices, cid, dataLen,
      exposed.payload view, request]
  · rw [if_neg request, Prod.mk.injEq] at devices
    simp [Packet.delivery, Frame.delivery, valid, exposed.version, devices, cid, dataLen,
      exposed.payload view, request]

/-- One frame after its noise: the packet completes at the frame's last byte and
exposes that frame. -/
theorem item_delivered {p : Packet} (tracked : Tracks p Receiver.start) (item : Item) (env : ℕ → Env) :
    ∃ k q, Packet.recognizer.scan p (arrivals env item.bytes) = (some k, q) ∧
      k + 1 = item.bytes.length ∧
      ∀ view position, q.delivery view position = item.frame.delivery position := by
  obtain ⟨noise, frame, quiet, fits⟩ := item
  cases frame with
  | touch f =>
    simp only [Frame.bytes, TouchFrame.length_bytes] at fits
    obtain ⟨q, found, received⟩ := tracked.scan_touch f quiet (by omega) env
    refine ⟨_, q, found, by simp [Item.bytes, Frame.bytes]; omega, fun view => touch_delivered f received ?_
      (by omega) view⟩
    simp only [touchStart, List.length_append, List.length_cons, List.length_nil]
    omega
  | chlor f =>
    simp only [Frame.bytes, ChlorFrame.length_bytes] at fits
    obtain ⟨q, found, received⟩ := tracked.scan_chlor f quiet (by omega) env
    refine ⟨_, q, found, by simp [Item.bytes, Frame.bytes]; omega, fun view => chlor_delivered f received ?_
      view⟩
    simp only [chlorStart, List.length_append, List.length_cons, List.length_nil]
    omega

/-- A reset packet fed frames among noise completes at the last byte of each frame and
nowhere else, and exposes each frame as it was sent. -/
theorem stream_delivered (p : Packet) (env : ℕ → Env) (view : Env) (items : List Item) :
    deliveries view p.reset (arrivals env (items.flatMap Item.bytes)) = Item.deliveries 0 items := by
  have delivered : ∀ {p : Packet}, Tracks p Receiver.start → ∀ env position,
      (Packet.recognizer.completions p (arrivals env (items.flatMap Item.bytes))).map
        (fun done => done.2.delivery view (position + done.1)) = Item.deliveries position items := by
    induction items with
    | nil =>
      intro p tracked env position
      rfl
    | cons item rest ih =>
      intro p tracked env position
      obtain ⟨k, q, found, last, exposed⟩ := item_delivered tracked item env
      have ended : k + 1 = (arrivals env item.bytes).length := by rw [last, length_arrivals]
      rw [List.flatMap_cons, arrivals_append, Recognizer.completions_append,
        Recognizer.completions_of_last found ended, (Recognizer.feed_of_last found ended).1]
      have later := ih (tracks_reset q) (fun i => env (i + item.bytes.length)) (position + item.bytes.length)
      simp only [List.map_cons, List.map_map, exposed, Item.deliveries,
        length_arrivals, ← later, List.singleton_append]
      congr 2
      · omega
      · funext done
        simp only [Function.comp_apply]
        congr 1
        omega
  simpa [deliveries] using delivered (tracks_reset p) env 0

end Pentair
