import Libcage.Rdp.Handlers

/-!
# `Libcage.Rdp.Network`: two nodes and the network between them

Each node has its own `rdp` and takes calls of its user, segments and timer ticks as in
`Libcage.Rdp.Handlers`. The network keeps every segment that a node ever sent. What
arrives from the other node is one of those it sent to this one, at any time and any
number of times, so segments may be lost, repeated and reordered. Other nodes may send
anything.
-/

set_option autoImplicit false

namespace Libcage.Rdp

open Libcage.Lib

/-- Which of the two nodes. -/
inductive Side where
  | left | right
deriving DecidableEq

/-- The node at the other end. -/
def Side.other : Side → Side
  | .left => .right
  | .right => .left

@[simp] theorem Side.other_other (side : Side) : side.other.other = side := by cases side <;> rfl

theorem Side.other_ne (side : Side) : side.other ≠ side := by cases side <;> decide

/-- A node: its `rdp`, and what it gave to `rdp::output` so far. -/
structure Node where
  rdp : Members
  sent : List Sent

/-- Both nodes. -/
abbrev Network := Side → Node

namespace Network

/-- Two nodes that have done nothing yet. -/
def init (con : Side → ConPtr → RdpCon) : Network := fun side => ⟨.init (con side), []⟩

/-- One input of one node. -/
def step (n : Network) (input : Side × Env × Input) : Except Fault Network := do
  let (r, out) ← Rdp.step (n input.1).rdp input.2.1 input.2.2
  return Function.update n input.1 ⟨r, (n input.1).sent ++ out⟩

/-- What arrives from the other node was sent by it to this one. -/
def Delivers (id : Side → Id) (n : Network) (input : Side × Env × Input) : Prop :=
  match input.2.2 with
  | .arrive src pbuf =>
      src = id input.1.other →
        ∃ s ∈ (n input.1.other).sent, s.did = id input.1 ∧ pbuf.data = s.seg
  | .call _ => True
  | .tick => True

instance (id : Side → Id) (n : Network) (input : Side × Env × Input) :
    Decidable (Delivers id n input) :=
  match h : input.2.2 with
  | .arrive src pbuf =>
      decidable_of_iff
        (src = id input.1.other →
          ∃ s ∈ (n input.1.other).sent, s.did = id input.1 ∧ pbuf.data = s.seg)
        (by simp only [Delivers, h])
  | .call _ => isTrue (by simp only [Delivers, h])
  | .tick => isTrue (by simp only [Delivers, h])

end Network

end Libcage.Rdp
