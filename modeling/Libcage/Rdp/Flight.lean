import Libcage.Lib.Run
import Libcage.Rdp.Network

/-!
# `Libcage.Rdp.Flight`: an exchange without loss

Two nodes and the segments in flight between them. A delivery takes one segment out of
flight, whichever, and what the node that gets it sends to the other one is in flight
from then on. Nothing is lost or repeated, no timer fires, and no user makes a call.

`Opener` is what comes before such an exchange: a node with a past of its own calls
`rdp::connect` towards the other one.
-/

set_option autoImplicit false

namespace Libcage.Rdp

open Libcage.Lib

/-- A segment in flight, and the node it goes to. -/
structure InFlight where
  dest : Side
  seg : List Byte
deriving DecidableEq

/-- Two nodes and what is in flight between them. -/
structure Flight where
  rdp : Side → Members
  inFlight : List InFlight

/-- The next delivery: which of the segments in flight it takes, the buffer that holds
the segment, and what the handler gets from outside. -/
structure Delivery where
  index : Nat
  pbuf : Packetbuf
  env : Env

/-- What a node sent to the other one. -/
def launched (id : Side → Id) (side : Side) (out : List Sent) : List InFlight :=
  (out.filter fun s => s.did = id side.other).map fun s => ⟨side.other, s.seg⟩

namespace Flight

/-- One delivery. -/
def deliver (id : Side → Id) (f : Flight) (d : Delivery) : Except Fault Flight :=
  match f.inFlight[d.index]? with
  | none => .ok f
  | some s => do
      let (r, out) ← step (f.rdp s.dest) d.env (.arrive (id s.dest.other) d.pbuf)
      return {
        rdp := Function.update f.rdp s.dest r
        inFlight := f.inFlight.eraseIdx d.index ++ launched id s.dest out }

/-- A delivery brings a segment that is in flight, as long as there is one, and the
callbacks it runs make no calls. -/
def Carries (f : Flight) (d : Delivery) : Prop :=
  (f.inFlight ≠ [] → ∃ dest, f.inFlight[d.index]? = some ⟨dest, d.pbuf.data⟩) ∧
    d.env.reactions = []

/-- An order of delivering all that is ever in flight. -/
def Order (id : Side → Id) (f : Flight) (order : Stream' Delivery) : Prop :=
  ∀ n, Allowed (deliver id) Carries f (order.take n)

/-- The connection under a descriptor is in state OPEN. -/
def IsOpen (desc : Int) (r : Members) : Prop :=
  ∃ ptr, r.desc2conn.lookup desc = some ptr ∧ (r.con ptr).state = .opened

/-- After finitely many deliveries nothing is in flight, and both connections are in state
OPEN. -/
def Completes (id : Side → Id) (desc : Side → Int) (f : Flight) (order : Stream' Delivery) : Prop :=
  ∃ n f', run (deliver id) f (order.take n) = .ok f' ∧ f'.inFlight = [] ∧
    ∀ side, IsOpen (desc side) (f'.rdp side)

end Flight

/-- What a node does until it calls `rdp::connect`, and the arguments of the call. -/
structure Opener where
  con : ConPtr → RdpCon
  past : List (Env × Input)
  env : Env
  sport : BitVec 16
  dport : BitVec 16
  func : Callback
deriving Inhabited

namespace Opener

/-- The call: its result, the `rdp` after it and what it sent. -/
def connect (o : Opener) (peer : Id) : Except Fault (Int × Members × List Sent) := do
  let r ← run machine (.init o.con) o.past
  let (desc, w) ← (Rdp.connect o.sport peer o.dport o.func).run (.start r o.env)
  return (desc, w.rdp, w.out)

/-- Both nodes call `rdp::connect` towards each other: the results and what is in flight
then. -/
def connectBoth (id : Side → Id) (o : Side → Opener) : Except Fault ((Side → Int) × Flight) := do
  let (descL, l, outL) ← (o .left).connect (id .right)
  let (descR, r, outR) ← (o .right).connect (id .left)
  return (fun | .left => descL | .right => descR, {
    rdp := fun | .left => l | .right => r
    inFlight := launched id .left outL ++ launched id .right outR })

/-- Both calls went well, and the port a SYN comes from is the one its destination connects
to. -/
structure Mirrored (o : Side → Opener) (desc : Side → Int) (f : Flight) : Prop where
  connected : ∀ side, desc side ≠ -1
  ports : ∀ s ∈ f.inFlight, (RdpHead.decode s.seg).sport = (o s.dest).dport

end Opener

end Libcage.Rdp
