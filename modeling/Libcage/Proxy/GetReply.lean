import Libcage.Lib.Draft
import Libcage.Proxy.ClientGets
import Libcage.Proxy.Register

/-!
# `Libcage.Proxy.GetReply`: the values of a key from a proxy by UDP

`GetReplyFunc.sendReply` is `get_reply_func::send_reply`: what a proxy sends to its client when
a get that it made for it has ended. Every value goes out in a message of its own, from one
buffer on the stack. A value is written whatever its length, and what does not fit stops the
program.
-/

set_option autoImplicit false

namespace Libcage.Proxy

open Libcage.Lib
open Libcage.Rdp (Id Table)
open Libcage.Dht (Buf StoreFault)

/-- The size of the buffer in `get_reply_func::send_reply`. -/
def sizeofGetReplyBuf : Nat := 1024 * 4

/-- `proxy::get_reply_func`, for a reply by UDP. -/
structure GetReplyFunc where
  id : Id
  src : Id
  nonce : BitVec 32

namespace GetReplyFunc

/-- A `msg_proxy_get_reply` in the buffer, with what `send_msg` puts in front of it. The size is
an `int`, and `send_msg` takes 16 bits of it. -/
def draft (func : GetReplyFunc) (mId dst : Id) (index total : BitVec 16) (flag : Byte)
    (value : List Byte) : Draft 16 :=
  let size := .ofNat 16 (sizeofGetReplyHead + value.length)
  { bytes := (sendMsg 0 size.toNat typeProxyGetReply dst mId).encode ++ (wr32 func.nonce ++
      (wr160 func.id ++ (wr16 index ++ (wr16 total ++ (flag :: 0 :: 0 :: 0 :: value)))))
    len := size }

/-- The loop over the values. -/
def sendValues (func : GetReplyFunc) (mId dst : Id) (total : BitVec 16) :
    List Buf → BitVec 16 → Except StoreFault (List (Draft 16))
  | [], _ => .ok []
  | it :: vset, index =>
      if sizeofGetReplyHead + it.1.length > sizeofGetReplyBuf then
        .error .overflow
      else do
        let sent ← sendValues func mId dst total vset (index + 1)
        return func.draft mId dst index total 1 it.1 :: sent

/-- `get_reply_func::send_reply`, with the values in the order in which the set has them. -/
def sendReply (func : GetReplyFunc) (mId : Id) (registered : Table Id Addr) (result : Bool)
    (vset : List Buf) : Except StoreFault (List (Draft 16)) :=
  match registered.lookup func.src with
  | none => .ok []
  | some it =>
      if result then
        func.sendValues mId it.addr.id (.ofNat 16 vset.length) vset 1
      else
        .ok [func.draft mId it.addr.id 0 0 0 []]

end GetReplyFunc

end Libcage.Proxy
