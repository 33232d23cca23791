import Libcage.Lib.Run
import Libcage.Proxy.Relay

/-!
# `Libcage.Advertise`: a node makes itself known

A node that gets a datagram sends an `advertise` message to the sender, and takes down when
that was in `m_advertised`. `advertise_to` looks there before it sends, and `refresh` takes out
what is old. `m_advertising` has the timers of the messages that wait for a reply. A timer is
known by its nonce.

`recv_dgram` and `recv_forwarded` are the callers. `recv_advertise` is left out: it
reads and writes none of this. `time(NULL)` and the random number that is not in use come with
the event. `sent` has what was sent, with the time.
-/

set_option autoImplicit false

namespace Libcage

open Libcage.Lib
open Libcage.Rdp (Id Table)
open Libcage.Dht (Saddr Cageaddr domainInet domainInet6)

/-- `advertise::advertise_ttl`. -/
def advertiseTtl : Int := 300

/-- `sizeof(msg_advertise)`. -/
def sizeofAdvertise : Nat := 56

/-- The members of `advertise`, the session of `dtun`, and what was sent. -/
structure Advertise where
  id : Id
  session : BitVec 32
  advertised : Table Id Int
  advertising : Finset (BitVec 32)
  sent : List (Int × Datagram)

namespace Advertise

/-- A node that has sent nothing. -/
def init (id : Id) (session : BitVec 32) : Advertise := ⟨id, session, ∅, ∅, []⟩

/-- `timer_advertise::operator()`. -/
def timerAdvertise (s : Advertise) (nonce : BitVec 32) : Advertise :=
  { s with advertising := s.advertising.erase nonce }

/-- The `msg_advertise` for an id. -/
def msgAdvertise (s : Advertise) (nonce : BitVec 32) (id : Id) : List Byte :=
  (sendMsg 0 sizeofAdvertise typeAdvertise id s.id).encode ++ (wr32 nonce ++ wr32 s.session)

/-- The socket address that `advertise_to` makes of a port and the bytes of an address. -/
def toSaddr (domain port : BitVec 16) (addr : List Byte) : Option Saddr :=
  if domain = domainInet then
    some (.inet port (rd32 addr 0))
  else if domain = domainInet6 then
    some (.inet6 port (rd32 addr 0 ++ (rd32 addr 4 ++ (rd32 addr 8 ++ rd32 addr 12))))
  else
    none

/-- The test of `advertise_to`: the time in the record is compared, not its age. -/
def IsRecent (t : Int) : Prop := t < advertiseTtl / 2

instance (t : Int) : Decidable (IsRecent t) := inferInstanceAs (Decidable (t < advertiseTtl / 2))

/-- `advertise::advertise_to`. -/
def advertiseTo (s : Advertise) (now : Int) (nonce : BitVec 32) (id : Id)
    (domain port : BitVec 16) (addr : List Byte) : Advertise :=
  if (s.advertised.lookup id).any (fun t => IsRecent t) then
    s
  else
    { s with
      advertised := s.advertised.insert id now
      advertising := insert nonce s.advertising
      sent := s.sent ++ ((toSaddr domain port addr).map fun dst =>
        (now, Datagram.mk dst (s.msgAdvertise nonce id))).toList }

/-- `advertise::recv_advertise_reply`, with the arguments of `peers::add_node`. -/
def recvAdvertiseReply (s : Advertise) (msg : List Byte) (from_ : Sockaddr) :
    Advertise × Option (Cageaddr × BitVec 32) :=
  let hdr := MsgHdr.decode msg
  if hdr.dst ≠ s.id then
    (s, none)
  else
    let nonce := rd32 msg sizeofHdr
    if nonce ∉ s.advertising then
      (s, none)
    else
      ({ s with advertising := s.advertising.erase nonce },
        some (newCageaddr hdr.src from_, rd32 msg (sizeofHdr + 4)))

/-- `advertise::refresh`. -/
def refresh (s : Advertise) (now : Int) : Advertise :=
  { s with
    advertised := filterMap (fun _ t => if now - t > advertiseTtl then none else some t)
      s.advertised }

/-! ### Runs -/

/-- The events. A node that gets a datagram draws a random number for an `advertise`. -/
inductive Input where
  | recvDgram (node : Dgram) (pbuf : Packetbuf) (from_ : Sockaddr) (nonce : BitVec 32)
  | recvForwarded (pbuf : Packetbuf) (nonce : BitVec 32)
  | refresh
  | timerAdvertise (nonce : BitVec 32)
  | recvAdvertiseReply (msg : List Byte) (from_ : Sockaddr)

/-- A call that a datagram leads to, where it is one of `advertise_to`. -/
def perform (now : Int) (nonce : BitVec 32) (s : Advertise) : DgramCall → Advertise
  | .advertiseTo id domain port addr => s.advertiseTo now nonce id domain port addr
  | _ => s

/-- One event. -/
def handle (s : Advertise) (now : Int) : Input → Advertise
  | .recvDgram node pbuf from_ nonce => (node.recvDgram pbuf from_).foldl (perform now nonce) s
  | .recvForwarded pbuf nonce => (Proxy.recvForwarded pbuf).foldl (perform now nonce) s
  | .refresh => s.refresh now
  | .timerAdvertise nonce => s.timerAdvertise nonce
  | .recvAdvertiseReply msg from_ => (s.recvAdvertiseReply msg from_).1

end Advertise

/-- A node and its clock. -/
structure AdvertiseClock where
  now : Int
  advertise : Advertise

/-- An event some seconds after the one before. There are no faults. -/
def AdvertiseClock.step (s : AdvertiseClock) (i : Nat × Advertise.Input) :
    Except Empty AdvertiseClock :=
  .ok ⟨s.now + i.1, s.advertise.handle (s.now + i.1) i.2⟩

end Libcage
