import Pentair.PushSteps

/-! The public calls of a packet, in any order. Each of them is made of `Push` and
`Reset`, except that `Make` writes the checksum bytes itself, so what these three keep
holds of every packet that can be reached. -/
namespace Pentair

namespace Packet

/-- The constructor. Only the clock has initializers and only `Reset` is called, so what
the memory held before stays in the records, and nothing is assigned to `data_`. -/
def construct (memory : Packet) : Packet := { memory.reset with clock := {}, data := none }

/-- A call, with what it takes from its surroundings. -/
inductive Call where
  | push (env : Env) (c : UInt8)
  | pushHex (env : ℕ → Env) (text : List Char)
  | readFrom (env : ℕ → Env) (text : List Char)
  | make (env : ℕ → Env) (cid : UInt8) (data : List Char)
  | reset

/-- What a call leaves. -/
def call (p : Packet) : Call → Packet
  | .push env c => (p.push env c).packet
  | .pushHex env text => (p.pushHex env text).2
  | .readFrom env text => (p.readFrom env text).2
  | .make env cid data => (p.make env cid data).2
  | .reset => p.reset

/-- What a history of calls leaves. -/
def history (p : Packet) (calls : List Call) : Packet := calls.foldl call p

end Packet

/-- The packets that calls can lead to. -/
inductive Reachable : Packet → Prop
  | construct (memory : Packet) : Reachable memory.construct
  | call {p : Packet} (call : Packet.Call) (reached : Reachable p) : Reachable (p.call call)

theorem reachable_history {p : Packet} (reached : Reachable p) (calls : List Packet.Call) :
    Reachable (p.history calls) := by
  induction calls generalizing p with
  | nil => exact reached
  | cons call rest ih => exact ih (reached.call call)

/-- What every `Push`, every `Reset` and the checksum bytes of `Make` keep. -/
structure Preserved (P : Packet → Prop) : Prop where
  push : ∀ (p : Packet) (env : Env) (c : UInt8), P p → P (p.push env c).packet
  reset : ∀ p : Packet, P p → P p.reset
  checksumData : ∀ (p : Packet) (data : Vector UInt8 2), P p → P { p with checksumData := data }

namespace Preserved
variable {P : Packet → Prop} (kept : Preserved P) {p : Packet}
include kept

theorem pushHex (env : ℕ → Env) (text : List Char) (start : P p) : P (p.pushHex env text).2 := by
  fun_induction Packet.pushHex p env text with
  | case1 p env => exact start
  | case2 p env hi digit pushed => exact kept.push _ _ _ start
  | case3 p env hi blank => exact start
  | case4 p env hi lo rest digit pushed complete => exact kept.push _ _ _ start
  | case5 p env hi lo rest digit pushed incomplete ih => exact ih (kept.push _ _ _ start)
  | case6 p env hi lo rest blank ih => exact ih start

theorem call (call : Packet.Call) (start : P p) : P (p.call call) := by
  cases call with
  | push env c => exact kept.push p env c start
  | pushHex env text => exact kept.pushHex env text start
  | readFrom env text => exact kept.pushHex env text (kept.reset p start)
  | make env cid data =>
    refine kept.checksumData _ _ (kept.pushHex _ data ?_)
    exact kept.push _ _ cid (kept.pushHex env _ (kept.reset p start))
  | reset => exact kept.reset p start

/-- What holds of constructed packets and is kept holds of every reachable packet. -/
theorem reachable (start : ∀ memory : Packet, P memory.construct) (reached : Reachable p) : P p := by
  induction reached with
  | construct memory => exact start memory
  | call call _ ih => exact kept.call call ih

end Preserved
end Pentair
