import Pentair.Calls
import Pentair.Telemetry

/-! What `Reset` forgets. It clears the buffer and every register, but leaves `data_`
pointing where it did, and only a payload makes it point anywhere else. So what comes
after it depends on what came before exactly if a packet without a payload is decoded. -/
namespace Pentair

/-- What a caller sees of a packet that bytes were pushed to after a `Reset`: which call
returned true, if any did yet, and the public fields. The payload is looked at when the
packet is complete. -/
structure Observed where
  completed : Option ℕ
  valid : Bool
  version : UInt8
  target : UInt8
  source : UInt8
  cid : UInt8
  dataLen : UInt8
  payload : Option (List UInt8)
  records : Records

/-- `Reset`, and then pushing `bytes` up to the first call that returns true. -/
def Packet.observed (p : Packet) (env : ℕ → Env) (bytes : List UInt8) : Observed :=
  let scanned := Packet.recognizer.scan p.reset (arrivals env bytes)
  { completed := scanned.1
    valid := scanned.2.valid
    version := scanned.2.version
    target := scanned.2.target
    source := scanned.2.source
    cid := scanned.2.cid
    dataLen := scanned.2.dataLen
    payload := scanned.1.map fun k => scanned.2.payload (env k)
    records := scanned.2.records }

/-- Two calls find the same bytes outside of `buffer_`, behind which the other fields of a packet
stand. Only the millisecond counter may have moved on. -/
structure Env.SameMemory (env env' : Env) : Prop where
  outside : env.outside = env'.outside
  unset : env.unset = env'.unset

/-- If `bytes` complete a valid IntelliTouch packet without a payload, its record has nothing
to read, so `data_` is not read while it points to where an earlier payload was. -/
def Anchored (bytes : List UInt8) : Prop :=
  ∀ k lead h hi lo, receiver.scan Receiver.start bytes = (some k, ⟨lead, .touch h [] hi lo⟩) →
    TouchValid h [] hi lo → (selection h.command h.source 0).layout = 0

/-! ## One run -/

namespace Packet
variable (self : Packet) (env : Env) (c : UInt8)

/-- The same buffer in the same surroundings. -/
theorem bufferAt_congr {q : Packet} {env' : Env} (buffer : self.buffer = q.buffer)
    (outside : env.outside = env'.outside) (i : Int) : self.bufferAt env i = q.bufferAt env' i := by
  unfold bufferAt
  rw [buffer, outside]

/-- The same pointer into it. -/
theorem dataAt_congr {q : Packet} {env' : Env} (buffer : self.buffer = q.buffer) (data : self.data = q.data)
    (memory : env.SameMemory env') : self.dataAt env = q.dataAt env' := by
  funext k
  unfold dataAt
  rw [data, memory.unset]
  cases q.data with
  | none => rfl
  | some start => exact self.bufferAt_congr env buffer memory.outside _

/-- `data_` is only assigned on the way into the states that read a payload. -/
theorem push_data_eq : (self.push env c).packet.data = self.data ∨ (self.push env c).complete = false ∧
    ((self.push env c).packet.state = .intellichlorState ∨ (self.push env c).packet.state = .dataState) := by
  rw [push_eq]
  cases state : self.state with
  | preambleState =>
    simp only [pushPreamble]
    split_ifs
    · exact .inl rfl
    · exact .inr ⟨trivial, .inl rfl⟩
    · exact .inl rfl
  | lengthState =>
    simp only [pushLength]
    split_ifs
    · exact .inr ⟨trivial, .inr rfl⟩
    · exact .inl rfl
  | dataState =>
    simp only [pushData]
    split_ifs <;> exact .inl rfl
  | checksumState =>
    simp only [pushChecksum]
    split_ifs <;> exact .inl rfl
  | intellichlorState =>
    simp only [pushIntellichlor]
    split_ifs <;> exact .inl rfl
  | _ => exact .inl rfl

/-- The end of an IntelliChlor packet with a wrong checksum does not fill in a header. -/
theorem pushIntellichlor_refused (closed : self.AtTerminator env)
    (refused : (self.pushIntellichlor env).packet.valid = false) :
    (self.pushIntellichlor env).packet.cid = self.cid ∧ (self.pushIntellichlor env).packet.source = self.source ∧
      (self.pushIntellichlor env).packet.target = self.target := by
  unfold pushIntellichlor at refused ⊢
  dsimp only at refused ⊢
  split_ifs at refused ⊢ with ended matched request
  · cases refused
  · cases refused
  · exact ⟨rfl, rfl, rfl⟩
  · exact absurd closed ended

end Packet

/-- The buffer holds the bytes since the `Reset`, and zeros behind them. -/
def Packet.Image (p : Packet) (history : List UInt8) : Prop :=
  ∀ i (inside : i < bufferSize), p.buffer[i] = history.getD i 0

theorem Packet.Image.store {p : Packet} {history : List UInt8} (image : p.Image history)
    (position : p.bufferPos.toNat = history.length) (c : UInt8) : (p.store c).Image (history ++ [c]) := by
  intro i inside
  change (p.buffer.set p.bufferPos.toNat c p.bufferPos.toNat_lt)[i] = _
  rw [Vector.getElem_set]
  by_cases last : p.bufferPos.toNat = i
  · rw [if_pos last, ← last, position]
    simp
  · rw [if_neg last, image i inside]
    simp only [List.getD_eq_getElem?_getD]
    rcases Nat.lt_or_gt_of_ne (Ne.symm (position ▸ last)) with before | behind
    · rw [List.getElem?_append_left before]
    · rw [List.getElem?_eq_none (by omega), List.getElem?_eq_none (by simp; omega)]

/-- What a packet that is being read still has of the packet it was reset from. -/
structure Begun (p u : Packet) (r : Receiver) : Prop where
  tracks : Tracks u r
  image : u.Image r.seen
  data : r.phase.payloadOffset = none → u.data = p.data
  records : u.records = p.records

/-- What a completed packet still has of it. -/
structure Ended (p t : Packet) (env : Env) (r : Receiver) : Prop where
  received : Received t r
  image : t.Image r.seen
  data : ∀ h hi lo, r.phase = .touch h [] hi lo → t.data = p.data
  records : t.records =
    if t.valid = true then (((t.selection env).read p.records).run (t.dataAt env)).1 else p.records
  summed : ∀ body, r.phase = .chlor body →
    (t.valid = true ↔ t.intellichlorChecksum env = t.bufferAt env (t.bufferPos.toNat - 1 - 2))
  header : ∀ body, r.phase = .chlor body → t.valid = true →
    t.cid = commandChlorinator ∧ (t.source, t.target) =
      if t.dataAt env 0 = 0x50 then (deviceControlCenter, deviceChlorinator)
      else (deviceChlorinator, deviceControlCenter)
  refused : ∀ body, r.phase = .chlor body → t.valid = false → t.cid = 0 ∧ t.source = 0 ∧ t.target = 0

/-- Where a payload is read, `data_` points at it. -/
theorem Phase.payloadOffset_of_state {phase : Phase}
    (reading : phase.registers.state = .intellichlorState ∨ phase.registers.state = .dataState) :
    phase.payloadOffset ≠ none := by
  cases phase with
  | data h got => exact fun unknown => by cases unknown
  | intellichlor body => exact fun unknown => by cases unknown
  | _ => rcases reading with state | state <;> cases state

namespace Receiver
variable {r : Receiver} {c : UInt8}

/-- The payload is located for good. -/
theorem payloadOffset_step (incomplete : (r.step c).1 = false) (unknown : (r.step c).2.phase.payloadOffset = none) :
    r.phase.payloadOffset = none := by
  obtain ⟨lead, phase⟩ := r
  cases phase with
  | data h got =>
    simp only [step] at unknown
    split at unknown
    · simp [Phase.payloadOffset] at unknown
    · simp [Phase.payloadOffset] at unknown
  | checksum h payload => exact unknown
  | checksumLow h payload hi => simp [step] at incomplete
  | intellichlor body =>
    simp only [step] at incomplete unknown
    split at incomplete
    · simp at incomplete
    · rename_i unfinished
      rw [if_neg unfinished] at unknown
      simp [Phase.payloadOffset] at unknown
  | _ => rfl

/-- Only the terminator completes an IntelliChlor packet. -/
theorem step_chlor {lead body : List UInt8} (completed : r.step c = (true, ⟨lead, .chlor body⟩)) :
    ∃ before, r = ⟨lead, .intellichlor before⟩ ∧ body = before ++ [c] := by
  obtain ⟨lead', phase⟩ := r
  cases phase with
  | intellichlor before =>
    simp only [step] at completed
    split at completed
    · simp at completed
      exact ⟨before, by rw [completed.1], completed.2.symm⟩
    · simp at completed
  | _ => simp [step] at completed

end Receiver

variable {p u : Packet} {r : Receiver}

theorem begun_reset (p : Packet) : Begun p p.reset Receiver.start where
  tracks := tracks_reset p
  image := fun i inside => by simp [Packet.reset, Receiver.start, Receiver.seen, Phase.bytes]
  data := fun _ => rfl
  records := rfl

/-- A call that completes nothing. -/
theorem Begun.push (begun : Begun p u r) (short : r.seen.length < 256) (env : Env) (c : UInt8)
    (incomplete : (u.push env c).complete = false) :
    (r.step c).1 = false ∧ Begun p (u.push env c).packet (r.step c).2 := by
  obtain ⟨same, next⟩ := push_agrees env c begun.tracks
  rw [if_neg (by rw [incomplete]; exact Bool.false_ne_true)] at next
  have reported : (r.step c).1 = false := same.symm.trans incomplete
  have position : u.bufferPos.toNat = r.seen.length := by
    rw [begun.tracks.position]
    omega
  refine ⟨reported, next, ?_, fun unknown => ?_, ?_⟩
  · rw [Receiver.seen_step begun.tracks.reading c]
    intro i inside
    rw [(u.push_stored env c).1]
    exact begun.image.store position c i inside
  · have before := begun.data (Receiver.payloadOffset_step reported unknown)
    have state : (u.push env c).packet.state = (r.step c).2.phase.registers.state :=
      congrArg Registers.state next.registers
    rcases u.push_data_eq env c with kept | ⟨_, assigned⟩
    · exact kept.trans before
    · rw [state] at assigned
      exact absurd unknown (Phase.payloadOffset_of_state assigned)
  · rw [u.push_records env c begun.tracks.command, if_neg fun accepted => ?_]
    · exact begun.records
    · rw [accepted.1] at incomplete
      cases incomplete

/-- A call that completes an IntelliChlor packet. If the checksum is wrong, the header stays
as `Reset` left it. -/
theorem Begun.chlor_end (begun : Begun p u r) (env : Env) {c : UInt8} {lead body : List UInt8}
    (completed : r.step c = (true, ⟨lead, .chlor body⟩)) :
    Packet.IntellichlorEnd (u.store c) env (u.push env c) ∧ ((u.push env c).packet.valid = false →
      (u.push env c).packet.cid = 0 ∧ (u.push env c).packet.source = 0 ∧ (u.push env c).packet.target = 0) := by
  obtain ⟨same, _⟩ := push_agrees env c begun.tracks
  rw [completed] at same
  obtain ⟨before, rfl, _⟩ := Receiver.step_chlor completed
  have registers := begun.tracks.registers
  simp only [Packet.registers, Phase.registers, Registers.mk.injEq] at registers
  obtain ⟨state, _, _, _, target, source, cid, _⟩ := registers
  have pushed : u.push env c = (u.store c).pushIntellichlor env := by rw [Packet.push_eq, state]
  rw [pushed] at same ⊢
  have closed : (u.store c).AtTerminator env := by
    by_contra opened
    rw [Packet.pushIntellichlor_open _ _ opened] at same
    cases same
  refine ⟨Packet.pushIntellichlor_close _ _ closed, fun refused => ?_⟩
  obtain ⟨cid', source', target'⟩ := Packet.pushIntellichlor_refused _ env closed refused
  exact ⟨cid'.trans cid, source'.trans source, target'.trans target⟩

/-- A call that completes a packet. -/
theorem Begun.complete (begun : Begun p u r) (short : r.seen.length < 256) (env : Env) {c : UInt8} {done : Receiver}
    (completed : r.step c = (true, done)) : Ended p (u.push env c).packet env done := by
  obtain ⟨same, left⟩ := push_agrees env c begun.tracks
  rw [completed] at same left
  rw [if_pos same] at left
  have position : u.bufferPos.toNat = r.seen.length := by
    rw [begun.tracks.position]
    omega
  refine ⟨left, ?_, fun h hi lo touch => ?_, ?_, fun body chlor => ?_, fun body chlor => ?_, fun body chlor => ?_⟩
  · have seen := Receiver.seen_step begun.tracks.reading c
    rw [completed] at seen
    rw [seen]
    intro i inside
    rw [(u.push_stored env c).1]
    exact begun.image.store position c i inside
  · obtain ⟨lead, phase⟩ := done
    obtain rfl : phase = .touch h [] hi lo := touch
    obtain ⟨rfl, _⟩ := Receiver.step_touch completed
    rcases u.push_data_eq env c with kept | ⟨incomplete, _⟩
    · exact kept.trans (begun.data (by simp [Phase.payloadOffset]))
    · rw [same] at incomplete
      cases incomplete
  · rw [u.push_records env c begun.tracks.command, begun.records]
    exact if_congr (and_iff_right same) rfl rfl
  · obtain ⟨lead, phase⟩ := done
    obtain rfl : phase = .chlor body := chlor
    have ending := (begun.chlor_end env completed).1
    rw [ending.valid, ending.checksumData, ending.bufferPos]
    exact Eq.congr_right (Packet.bufferAt_congr _ _ ending.buffer.symm rfl _)
  · obtain ⟨lead, phase⟩ := done
    obtain rfl : phase = .chlor body := chlor
    exact (begun.chlor_end env completed).1.header
  · obtain ⟨lead, phase⟩ := done
    obtain rfl : phase = .chlor body := chlor
    exact (begun.chlor_end env completed).2

/-- Bytes that complete nothing. -/
theorem begun_scan {stream : List Arrival} (short : stream.length ≤ 256)
    (silent : Packet.recognizer.scan p.reset stream = (none, u)) :
    ∃ r, receiver.scan Receiver.start (stream.map Arrival.byte) = (none, r) ∧
      r.seen = stream.map Arrival.byte ∧ Begun p u r := by
  have reached := Recognizer.scan_invariant (P := fun read u => read.length ≤ 256 →
    ∃ r, receiver.scan Receiver.start (read.map Arrival.byte) = (none, r) ∧
      r.seen = read.map Arrival.byte ∧ Begun p u r)
    (fun _ => ⟨_, rfl, rfl, begun_reset p⟩) ?_ silent
  · exact reached short
  · intro read u a before incomplete long
    rw [List.length_append, List.length_singleton] at long
    obtain ⟨r, scanned, seen, begun⟩ := before (by omega)
    have room : r.seen.length < 256 := by
      rw [seen, List.length_map]
      omega
    obtain ⟨reported, next⟩ := begun.push room a.env a.byte incomplete
    refine ⟨(r.step a.byte).2, ?_, ?_, next⟩
    · rw [List.map_append]
      exact Recognizer.scan_append_none.mpr ⟨r, scanned, Recognizer.scan_cons_none.mpr ⟨reported, rfl⟩⟩
    · rw [Receiver.seen_step begun.tracks.reading, seen, List.map_append]
      rfl

/-- Bytes that complete a packet. -/
theorem scan_ended (p : Packet) (env : ℕ → Env) {bytes : List UInt8} (short : bytes.length ≤ 255) {k : ℕ}
    {done : Receiver} (found : receiver.scan Receiver.start bytes = (some k, done)) :
    ∃ t, Packet.recognizer.scan p.reset (arrivals env bytes) = (some k, t) ∧ Ended p t (env k) done := by
  obtain ⟨before, c, rest, r, rfl, rfl, silent, completed⟩ := Recognizer.scan_some_split found
  rw [List.length_append, List.length_cons] at short
  rw [← arrivals_bytes env before] at silent
  obtain ⟨u, scanned, _⟩ := (tracks_reset p).scan_tracks silent
  obtain ⟨r', silent', seen, begun⟩ := begun_scan (by rw [length_arrivals]; omega) scanned
  obtain rfl : r = r' := congrArg Prod.snd (silent.symm.trans silent')
  rw [arrivals_bytes] at seen
  have complete : (u.push (env before.length) c).complete = true :=
    (push_agrees (env before.length) c begun.tracks).1.trans (congrArg Prod.fst completed)
  refine ⟨_, ?_, begun.complete (by rw [seen]; omega) (env before.length) completed⟩
  rw [arrivals_append, arrivals_cons, Recognizer.scan_append_of_none scanned]
  simp [Recognizer.scan, Packet.recognizer, complete]

/-! ## Two runs -/

/-- What is seen of a packet while nothing has completed is decided by the receiver. -/
theorem observed_of_none (p : Packet) (env : ℕ → Env) {bytes : List UInt8} (short : bytes.length ≤ 255) {r : Receiver}
    (silent : receiver.scan Receiver.start bytes = (none, r)) :
    p.observed env bytes = ⟨none, r.phase.registers.valid, r.phase.registers.version, r.phase.registers.target,
      r.phase.registers.source, r.phase.registers.cid, r.phase.registers.dataLen, none, p.records⟩ := by
  rw [← arrivals_bytes env bytes] at silent
  obtain ⟨u, scanned, _⟩ := (tracks_reset p).scan_tracks silent
  obtain ⟨r', silent', _, begun⟩ := begun_scan (by rw [length_arrivals]; omega) scanned
  obtain rfl : r = r' := congrArg Prod.snd (silent.symm.trans silent')
  rw [← begun.tracks.registers, ← begun.records]
  simp only [Packet.observed, scanned, Option.map_none, Packet.registers]

/-- What is seen of a completed packet. -/
theorem observed_of_some {p t : Packet} {env : ℕ → Env} {bytes : List UInt8} {k : ℕ}
    (scanned : Packet.recognizer.scan p.reset (arrivals env bytes) = (some k, t)) :
    p.observed env bytes = ⟨some k, t.valid, t.version, t.target, t.source, t.cid, t.dataLen,
      some (t.payload (env k)), t.records⟩ := by
  simp only [Packet.observed, scanned, Option.map_some]

/-- A cell that `data_` reaches inside the buffer. -/
theorem Packet.Image.dataAt {t : Packet} {history : List UInt8} (image : t.Image history) {n : ℕ}
    (pointer : t.data = some (UInt8.ofNat n)) (env : Env) {j : ℕ} (inside : n + j < bufferSize) :
    t.dataAt env j = history.getD (n + j) 0 := by
  have start : (UInt8.ofNat n).toNat = n :=
    UInt8.toNat_ofNat_of_lt' (Nat.lt_of_le_of_lt (Nat.le_add_right n j) inside)
  rw [t.dataAt_cell env pointer (by rwa [start])]
  simp only [start]
  exact image (n + j) inside

/-- Runs that decode the same bytes into the same records end with the same records. -/
theorem decoded_congr {command : Command} {records : Records} {memory other : ℕ → UInt8}
    (same : ∀ j < command.layout, memory j = other j) :
    ((command.read records).run memory).1 = ((command.read records).run other).1 :=
  congrArg Prod.fst (Reads.run_congr fun j read =>
    same j ((Command.reads_inside command records memory command.layout).mpr le_rfl j read))

/-- Only between the records of a chlorinator does the first payload byte decide. -/
theorem selection_of_layout_lt {cid source first : UInt8} (small : (selection cid source first).layout < 3)
    (other : UInt8) : selection cid source other = selection cid source first := by
  unfold selection at small ⊢
  split_ifs at small ⊢ <;> first | rfl | exact absurd small (by decide)

/-- Whether a record has anything to read is decided by the header. -/
theorem layout_pos {cid source first : UInt8} (busy : (selection cid source first).layout ≠ 0) (other : UInt8) :
    0 < (selection cid source other).layout := by
  by_contra idle
  have none : (selection cid source other).layout = 0 := by omega
  exact busy (by rw [selection_of_layout_lt (none ▸ Nat.zero_lt_succ 2) first, none])

section Alike
variable {q t t' : Packet} {env env' : Env} {lead payload body : List UInt8} {h : Header} {hi lo : UInt8}

/-- Two completed packets look the same. -/
structure Alike (t : Packet) (env : Env) (t' : Packet) (env' : Env) : Prop where
  valid : t.valid = t'.valid
  version : t.version = t'.version
  target : t.target = t'.target
  source : t.source = t'.source
  cid : t.cid = t'.cid
  dataLen : t.dataLen = t'.dataLen
  payload : t.payload env = t'.payload env'
  records : t.records = t'.records

theorem Ended.buffer_alike (first : Ended p t env r) (second : Ended q t' env' r) : t.buffer = t'.buffer := by
  apply Vector.ext
  intro i inside
  rw [first.image i inside, second.image i inside]

/-- What both runs read through `data_` they decode alike. -/
theorem Ended.records_alike (first : Ended p t env r) (second : Ended q t' env' r) (records : p.records = q.records)
    (valid : t.valid = t'.valid) (cid : t.cid = t'.cid) (source : t.source = t'.source)
    (cells : t.dataAt env = t'.dataAt env') : t.records = t'.records := by
  have selected : t.selection env = t'.selection env' := by
    rw [Packet.selection, Packet.selection, cid, source, cells]
  rw [first.records, second.records, valid, selected, cells, records]

/-- A packet without a payload is decoded from where `data_` pointed before the `Reset`. -/
theorem Ended.decoded_empty (ended : Ended p t env ⟨lead, .touch h [] hi lo⟩) (valid : TouchValid h [] hi lo) :
    t.records = (((selection h.command h.source (t.dataAt env 0)).read p.records).run (t.dataAt env)).1 := by
  have exposed : TouchReceived t lead h [] hi lo := ended.received.packet
  rw [ended.records, if_pos (exposed.valid.mpr valid), Packet.selection, exposed.cid, exposed.source]

/-- A record with nothing to read is the same wherever `data_` points. -/
theorem Ended.records_idle (first : Ended p t env ⟨lead, .touch h [] hi lo⟩)
    (second : Ended q t' env' ⟨lead, .touch h [] hi lo⟩) (records : p.records = q.records)
    (idle : TouchValid h [] hi lo → (selection h.command h.source 0).layout = 0) : t.records = t'.records := by
  have here : TouchReceived t lead h [] hi lo := first.received.packet
  have there : TouchReceived t' lead h [] hi lo := second.received.packet
  by_cases valid : TouchValid h [] hi lo
  · have selected := selection_of_layout_lt (idle valid ▸ Nat.zero_lt_succ 2)
    rw [first.decoded_empty valid, second.decoded_empty valid, selected (t.dataAt env 0),
      selected (t'.dataAt env' 0), records]
    refine decoded_congr fun j below => ?_
    rw [idle valid] at below
    exact absurd below (Nat.not_lt_zero j)
  · rw [first.records, second.records, if_neg (mt here.valid.mp valid), if_neg (mt there.valid.mp valid), records]

theorem touch_alike (first : Ended p t env ⟨lead, .touch h payload hi lo⟩)
    (second : Ended q t' env' ⟨lead, .touch h payload hi lo⟩) (records : p.records = q.records)
    (memory : env.SameMemory env')
    (idle : payload = [] → TouchValid h [] hi lo → (selection h.command h.source 0).layout = 0) :
    Alike t env t' env' := by
  have here : TouchReceived t lead h payload hi lo := first.received.packet
  have there : TouchReceived t' lead h payload hi lo := second.received.packet
  have fills : payload.length = h.length.toNat := first.received.sound.2
  have valid : t.valid = t'.valid := Bool.eq_iff_iff.mpr (here.valid.trans there.valid.symm)
  have source : t.source = t'.source := here.source.trans there.source.symm
  have cid : t.cid = t'.cid := here.cid.trans there.cid.symm
  have dataLen : t.dataLen = t'.dataLen := here.dataLen.trans there.dataLen.symm
  obtain ⟨shown, decoded⟩ : t.payload env = t'.payload env' ∧ t.records = t'.records := by
    cases payload with
    | nil =>
      have none : t'.dataLen.toNat = 0 := by rw [there.dataLen, ← fills, List.length_nil]
      refine ⟨?_, first.records_idle second records (idle rfl)⟩
      rw [Packet.payload, Packet.payload, dataLen, none]
      rfl
    | cons b rest =>
      have some : b :: rest ≠ [] := List.cons_ne_nil b rest
      have cells := t.dataAt_congr env (first.buffer_alike second)
        ((here.pointer some).trans (there.pointer some).symm) memory
      refine ⟨?_, first.records_alike second records valid cid source cells⟩
      rw [Packet.payload, Packet.payload, dataLen, cells]
  exact ⟨valid, here.version.trans there.version.symm, here.target.trans there.target.symm, source, cid, dataLen,
    shown, decoded⟩

theorem chlor_alike (first : Ended p t env ⟨lead, .chlor body⟩) (second : Ended q t' env' ⟨lead, .chlor body⟩)
    (records : p.records = q.records) (memory : env.SameMemory env') : Alike t env t' env' := by
  obtain ⟨_, here⟩ : ∃ e, ChlorReceived t e lead body := first.received.packet
  obtain ⟨_, there⟩ : ∃ e, ChlorReceived t' e lead body := second.received.packet
  have buffer := first.buffer_alike second
  have cells := t.dataAt_congr env buffer (here.pointer.trans there.pointer.symm) memory
  have dataLen : t.dataLen = t'.dataLen := here.dataLen.trans there.dataLen.symm
  have payload : t.payload env = t'.payload env' := by rw [Packet.payload, Packet.payload, dataLen, cells]
  have position : t.bufferPos = t'.bufferPos :=
    UInt8.toNat_inj.mp (first.received.position.trans second.received.position.symm)
  have valid : t.valid = t'.valid := by
    refine Bool.eq_iff_iff.mpr ((first.summed body rfl).trans (Iff.trans ?_ (second.summed body rfl).symm))
    rw [Packet.intellichlorChecksum_eq, Packet.intellichlorChecksum_eq, payload, position,
      t.bufferAt_congr env buffer memory.outside]
  have header : t.cid = t'.cid ∧ (t.source, t.target) = (t'.source, t'.target) := by
    cases accepted : t.valid with
    | true =>
      obtain ⟨cid, sides⟩ := first.header body rfl accepted
      obtain ⟨cid', sides'⟩ := second.header body rfl (valid.symm.trans accepted)
      rw [cid, cid', sides, sides', cells]
      exact ⟨rfl, rfl⟩
    | false =>
      obtain ⟨cid, source, target⟩ := first.refused body rfl accepted
      obtain ⟨cid', source', target'⟩ := second.refused body rfl (valid.symm.trans accepted)
      rw [cid, cid', source, source', target, target']
      exact ⟨rfl, rfl⟩
  obtain ⟨cid, sides⟩ := header
  have source := congrArg Prod.fst sides
  exact ⟨valid, here.version.trans there.version.symm, congrArg Prod.snd sides, source, cid, dataLen, payload,
    first.records_alike second records valid cid source cells⟩

end Alike

/-- Whatever two packets were before, anchored bytes make them look the same. -/
theorem observed_alike {p q : Packet} (records : p.records = q.records) {env env' : ℕ → Env}
    (memory : ∀ k, (env k).SameMemory (env' k)) {bytes : List UInt8} (short : bytes.length ≤ 255)
    (anchored : Anchored bytes) : p.observed env bytes = q.observed env' bytes := by
  rcases scanned : receiver.scan Receiver.start bytes with ⟨_ | k, lead, phase⟩
  · rw [observed_of_none p env short scanned, observed_of_none q env' short scanned, records]
  · obtain ⟨t, found, first⟩ := scan_ended p env short scanned
    obtain ⟨t', found', second⟩ := scan_ended q env' short scanned
    have alike : Alike t (env k) t' (env' k) := by
      cases phase with
      | touch h payload hi lo =>
        refine touch_alike first second records (memory k) fun empty => ?_
        subst empty
        exact anchored k lead h hi lo scanned
      | chlor body => exact chlor_alike first second records (memory k)
      | _ => exact first.received.packet.elim
    rw [observed_of_some found, observed_of_some found', alike.valid, alike.version, alike.target, alike.source,
      alike.cid, alike.dataLen, alike.payload, alike.records]

/-! ## Reads that go astray -/

private theorem read_last_of_field {β : Type} {command : Command} {records : Records} (field : Records → β)
    (shown : UInt8 → β) (b b' : UInt8) (differ : shown b ≠ shown b')
    (decoded : ∀ memory, field ((command.read records).run memory).1 = shown (memory (command.layout - 1)))
    (v : UInt8) :
    ∃ b : UInt8, ∀ memory other : ℕ → UInt8, memory (command.layout - 1) = b → other (command.layout - 1) = v →
      ((command.read records).run memory).1 ≠ ((command.read records).run other).1 := by
  obtain ⟨b, differ⟩ : ∃ b, shown b ≠ shown v := by
    by_cases same : shown b = shown v
    · exact ⟨b', fun same' => differ (same.trans same'.symm)⟩
    · exact ⟨b, same⟩
  refine ⟨b, fun memory other last last' same => differ ?_⟩
  rw [← last, ← last', ← decoded memory, ← decoded other, same]

/-- Every record with a layout shows the last byte of it. -/
theorem Command.read_last (command : Command) (records : Records) (some : 0 < command.layout) (v : UInt8) :
    ∃ b : UInt8, ∀ memory other : ℕ → UInt8, memory (command.layout - 1) = b → other (command.layout - 1) = v →
      ((command.read records).run memory).1 ≠ ((command.read records).run other).1 := by
  cases command with
  | unknown => exact absurd some (Nat.lt_irrefl 0)
  | pumpStatusRequest => exact absurd some (Nat.lt_irrefl 0)
  | systemStatus =>
    exact read_last_of_field (fun r => r.systemStatus.poolHeatSource) (· &&& 0x03) 0 3 (by decide) (fun _ => rfl) v
  | pumpStatusResponse =>
    exact read_last_of_field (fun r => r.pumpStatusResponse.minutes) id 0 1 (by decide) (fun _ => rfl) v
  | pumpControlRequest =>
    exact read_last_of_field (fun r => r.pumpControlRequest.running) (decide <| · = 0x10) 0 0x10 (by decide)
      (fun _ => rfl) v
  | pumpControlResponse =>
    exact read_last_of_field (fun r => r.pumpControlResponse.running) (decide <| · = 0x10) 0 0x10 (by decide)
      (fun _ => rfl) v
  | scheduleConfig =>
    exact read_last_of_field (fun r => r.scheduleConfig.activeDays) id 0 1 (by decide) (fun _ => rfl) v
  | timeSettings =>
    exact read_last_of_field (fun r => r.timeSettings.autoAdjustDst) (decide <| · ≠ 0) 0 1 (by decide)
      (fun _ => rfl) v
  | heatStatus => exact read_last_of_field (fun r => r.heatStatus.solarTemp) id 0 1 (by decide) (fun _ => rfl) v
  | chlorinatorRequest =>
    exact read_last_of_field (fun r => r.chlorinatorRequest.percent) id 0 1 (by decide) (fun _ => rfl) v
  | chlorinatorResponse =>
    exact read_last_of_field (fun r => r.chlorinatorResponse.inspectCell) (· &&& 0x10) 0 0x10 (by decide)
      (fun _ => rfl) v

/-- Surroundings in which an unassigned `data_` finds what stands from cell 2 of the buffer on,
but for `b` in place of the byte `j`. -/
def strayEnv (history : List UInt8) (j : ℕ) (b : UInt8) : Env :=
  { (default : Env) with unset := fun k => if k = j then b else history.getD (2 + k) 0 }

/-- A packet with an unassigned `data_`, and one that has only seen the start sequence of an
IntelliChlor packet. -/
theorem anchored_of_same {p q : Packet} (unassigned : p.data = none) (assigned : q.data = some 2)
    (records : p.records = q.records) {bytes : List UInt8} (short : bytes.length ≤ 255)
    (same : ∀ env : Env, p.observed (fun _ => env) bytes = q.observed (fun _ => env) bytes) : Anchored bytes := by
  intro k lead h hi lo scanned valid
  obtain ⟨seen, spelled⟩ : ∃ seen, seen = Receiver.seen ⟨lead, .touch h [] hi lo⟩ := ⟨_, rfl⟩
  obtain ⟨command, selected⟩ : ∃ command, command = selection h.command h.source (seen.getD 2 0) := ⟨_, rfl⟩
  by_contra busy
  have some : 0 < command.layout := selected ▸ layout_pos busy (seen.getD 2 0)
  obtain ⟨b, differ⟩ := command.read_last q.records some (seen.getD (2 + (command.layout - 1)) 0)
  obtain ⟨t, found, ended⟩ := scan_ended p (fun _ => strayEnv seen (command.layout - 1) b) short scanned
  obtain ⟨t', found', ended'⟩ := scan_ended q (fun _ => strayEnv seen (command.layout - 1) b) short scanned
  have stray : t.dataAt (strayEnv seen (command.layout - 1) b) =
      fun k => if k = command.layout - 1 then b else seen.getD (2 + k) 0 := by
    have null : t.data = none := (ended.data h hi lo rfl).trans unassigned
    funext j
    simp only [Packet.dataAt, null, strayEnv]
  have cells : ∀ j < 254, t'.dataAt (strayEnv seen (command.layout - 1) b) j = seen.getD (2 + j) 0 := by
    intro j inside
    rw [spelled]
    exact ended'.image.dataAt ((ended'.data h hi lo rfl).trans assigned) _ (by simp only [bufferSize]; omega)
  have first : selection h.command h.source (t.dataAt (strayEnv seen (command.layout - 1) b) 0) = command := by
    rw [stray]
    by_cases small : command.layout < 3
    · exact (selection_of_layout_lt (selected ▸ small) _).trans selected.symm
    · dsimp only
      rw [if_neg (by omega), selected]
  have second : selection h.command h.source (t'.dataAt (strayEnv seen (command.layout - 1) b) 0) = command := by
    rw [cells 0 (by decide), selected]
  have decoded := congrArg Observed.records (same (strayEnv seen (command.layout - 1) b))
  rw [observed_of_some found, observed_of_some found'] at decoded
  dsimp only at decoded
  rw [ended.decoded_empty valid, ended'.decoded_empty valid, first, second, records] at decoded
  refine differ _ _ ?_ (cells _ ?_) decoded
  · rw [stray]
    exact if_pos rfl
  · cases command <;> decide

theorem Anchored.take {bytes : List UInt8} (anchored : Anchored bytes) (n : ℕ) : Anchored (bytes.take n) := by
  intro k lead h hi lo scanned
  refine anchored k lead h hi lo ?_
  have whole := Recognizer.scan_append_of_some scanned (bytes.drop n)
  rwa [List.take_append_drop] at whole

/-- After a `Reset` and the same bytes, any two packets that held the same records look the
same in the same surroundings, whenever the calls are made, exactly if those bytes are anchored. -/
theorem reset_forgets_iff (bytes : List UInt8) (short : bytes.length ≤ 255) :
    (∀ (p q : Packet) (env env' : ℕ → Env) (n : ℕ), Reachable p → Reachable q → p.records = q.records →
      (∀ k, (env k).SameMemory (env' k)) → p.observed env (bytes.take n) = q.observed env' (bytes.take n)) ↔
      Anchored bytes := by
  constructor
  · intro forgets
    have assigned :
        ((default : Packet).construct.history [.push default 0x10, .push default 0x02]).data = some 2 := rfl
    refine anchored_of_same (p := (default : Packet).construct) rfl assigned rfl short fun env => ?_
    simpa using forgets (default : Packet).construct _ (fun _ => env) (fun _ => env) bytes.length (.construct default)
      (reachable_history (.construct default) _) rfl fun _ => ⟨rfl, rfl⟩
  · intro anchored p q env env' n _ _ records memory
    exact observed_alike records memory ((List.length_take_le' n bytes).trans short) (anchored.take n)

/-- A status broadcast, whose record is read from its payload. -/
theorem reset_forgets_broadcast :
    (∀ (p q : Packet) (env env' : ℕ → Env) (n : ℕ), Reachable p → Reachable q → p.records = q.records →
      (∀ k, (env k).SameMemory (env' k)) →
        p.observed env (statusBroadcast.bytes.take n) = q.observed env' (statusBroadcast.bytes.take n)) ↔
      Anchored statusBroadcast.bytes :=
  reset_forgets_iff statusBroadcast.bytes (by decide)

/-- A status broadcast without a payload is decoded from where the payload of the packet
before it stood, which a byte of noise moves. -/
theorem reset_remembers :
    ¬ ∀ (p q : Packet) (env : ℕ → Env) (bytes : List UInt8), Reachable p → Reachable q → p.records = q.records →
      bytes.length ≤ 255 → p.observed env bytes = q.observed env bytes := by
  intro forgets
  have same := forgets ((default : Packet).construct.history (pumpOff.bytes.map (.push default)))
    ((default : Packet).construct.history ((0x00 :: pumpOff.bytes).map (.push default))) default emptyStatus.bytes
    (reachable_history (.construct default) _) (reachable_history (.construct default) _) (by decide +kernel)
    (by decide)
  have hour := congrArg (fun seen : Observed => seen.records.systemStatus.hour) same
  exact absurd hour (by decide +kernel)

end Pentair
