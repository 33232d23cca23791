import Libcage.Natdetector

/-!
# `Libcage.NatNetwork`: a detector and its servers

`NatNetwork` is a node that detects what its address is, and the network around it. An echo
that was sent comes to its server from some external port, any number of times, and each time
the server answers with the port that it sees. An answer comes to the node any number of
times, in any order, or never.

`heard` are the answers that have come since the echoes of the last `detect_nat_type` were
sent, each with its server.
-/

set_option autoImplicit false

namespace Libcage

open Libcage.Lib
open Libcage.Rdp (Id)

/-- The node, the answers in the network, and those that have come. -/
structure NatNetwork where
  node : Natdetector
  replies : List (Sockaddr × MsgNatEchoReply)
  heard : List (Sockaddr × MsgNatEchoReply)

namespace NatNetwork

/-- Nothing has been sent. -/
def init (id : Id) (isInet6 : Bool) : NatNetwork := ⟨.init id isInet6, [], []⟩

/-- The events. -/
inductive Input where
  | node (i : Natdetector.Input)
  | answer (server : Sockaddr) (serverId : Id) (nonce : BitVec 32) (from_ : Sockaddr)
  | deliver (server : Sockaddr) (reply : MsgNatEchoReply) (nonce2 : BitVec 32) (port : BitVec 16)

/-- An event of the node that no answer makes. -/
def IsLocal : Natdetector.Input → Prop
  | .recvEchoReply .. => False
  | _ => True

instance : DecidablePred IsLocal
  | .recvEchoReply .. => inferInstanceAs (Decidable False)
  | .detect .. => inferInstanceAs (Decidable True)
  | .detectNat .. => inferInstanceAs (Decidable True)
  | .detectNatType .. => inferInstanceAs (Decidable True)
  | .timerNat .. => inferInstanceAs (Decidable True)
  | .timerEcho .. => inferInstanceAs (Decidable True)
  | .receiverTimeout .. => inferInstanceAs (Decidable True)
  | .receiverPacket .. => inferInstanceAs (Decidable True)
  | .setStateGlobal => inferInstanceAs (Decidable True)

/-- The node sends new echoes, and the answers are those to these. -/
def nodeStep (s : NatNetwork) (node : Natdetector) : NatNetwork :=
  { s with
    node
    heard := if s.node.state ≠ .echoWait2 ∧ node.state = .echoWait2 then [] else s.heard }

/-- One event. A server answers the echoes that were sent to it, and only what was answered
comes. -/
def step (s : NatNetwork) : Input → Except Empty NatNetwork
  | .node i => if IsLocal i ∧ s.node.Fresh i then .ok (s.nodeStep (s.node.handle i)) else .ok s
  | .answer server serverId nonce from_ =>
      if .echo server.1 s.node.id nonce ∈ s.node.calls then
        .ok { s with
          replies := s.replies ++
            [(server, Natdetector.recvEcho serverId s.node.id nonce from_)] }
      else
        .ok s
  | .deliver server reply nonce2 port =>
      if (server, reply) ∈ s.replies ∧ nonce2 ∉ s.node.udps then
        .ok { s with
          node := s.node.recvEchoReply reply server nonce2 port
          heard := s.heard ++ [(server, reply)] }
      else
        .ok s

end NatNetwork

end Libcage
