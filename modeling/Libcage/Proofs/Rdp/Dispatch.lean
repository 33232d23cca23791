import Libcage.Proofs.Rdp.Runs

/-!
# `Libcage.Proofs.Rdp.Dispatch`: which branch a segment takes

`rdp::input_dgram` hands a segment to the handler of a state (`inputDgram_con`), or to that of a
port (`inputDgram_listen`, `inputDgram_closed`). The other lemmas say what a handler then is,
for the branches that other modules run: a handler is a chain of tests on the segment
and the record.
-/

set_option autoImplicit false

namespace Libcage.Proofs.Rdp

open Libcage.Lib
open Libcage.Rdp
open Relation (ReflTransGen)

section
variable {w : World} {src : Id} {pbuf : Packetbuf}

theorem inputDgram_listen (hlen : sizeofHead ≤ pbuf.getLen)
    (hlook : w.rdp.addr2conn.lookup (addrOf src pbuf) = none)
    (hport : (w.rdp.listeningLeft (addrOf src pbuf).sport).isSome = true) :
    inputDgram src pbuf w = inStateListen (addrOf src pbuf) pbuf w := by
  rw [inputDgram_none hlen hlook, if_pos hport]

theorem inputDgram_closed (hlen : sizeofHead ≤ pbuf.getLen)
    (hlook : w.rdp.addr2conn.lookup (addrOf src pbuf) = none)
    (hport : (w.rdp.listeningLeft (addrOf src pbuf).sport).isSome = false) :
    inputDgram src pbuf w = inStateClosed (addrOf src pbuf) pbuf w := by
  rw [inputDgram_none hlen hlook, if_neg (ne_true_of_eq_false hport)]

end

/-! ### Repeated and acceptable SYNs -/

/-- A repeated SYN in state SYN_RCVD. -/
theorem inStateSynRcvd_again {w : World} {ptr : ConPtr} {pbuf : Packetbuf}
    (h : RepeatsSyn (w.rdp.con ptr) pbuf) :
    inStateSynRcvd ptr (w.rdp.con ptr).addr pbuf w
      = .ok ((), conStep w ptr { w.rdp.con ptr with synTime := timeNull w.env.clock }
          [(w.rdp.con ptr).emit ((w.rdp.con ptr).synSegment (w.rdp.con ptr).addr
            (flagAck ||| flagSyn ||| flagVer) 0)]) := by
  show (if _ then _ else _ : M Unit) w = _
  rw [if_pos ⟨h.2.1, h.2.2⟩]
  have haddr : ({ w.rdp.con ptr with synTime := timeNull w.env.clock } : RdpCon).addr
      = (w.rdp.con ptr).addr := rfl
  exact setCon_output_run haddr _

/-- An acceptable SYN in state OPEN, on the record. -/
theorem inStateOpen_syn {c : RdpCon} {pbuf : Packetbuf} (h : SynInOpen c pbuf) (clock : Int) :
    c.inStateOpen clock c.addr pbuf =
      (deref (pbuf.append (openRst c.addr pbuf).encode) >>= fun pbuf' =>
      .ok ({ c with state := .closed }, [c.emit pbuf'.data], some .reset)) := by
  obtain ⟨-, hin, hrst, hnul, hsyn⟩ := h
  unfold RdpCon.inStateOpen
  dsimp only
  rw [if_neg hin, if_neg (ne_true_of_eq_false hrst),
    if_neg (ne_true_of_eq_false hnul), if_pos hsyn]
  rfl

/-- What the handler of state OPEN does with an acceptable SYN, if anything: it emits the
segment it got with a reset behind it, closes the record and raises an event. -/
theorem inStateOpen_echo {w w' : World} {ptr : ConPtr} {pbuf : Packetbuf}
    (h : SynInOpen (w.rdp.con ptr) pbuf)
    (hrun : inStateOpen ptr (w.rdp.con ptr).addr pbuf w = .ok ((), w')) :
    invokeEvent (w.rdp.con ptr).desc 0 .reset
      (conStep w ptr { w.rdp.con ptr with state := .closed }
        [(w.rdp.con ptr).emit (pbuf.data ++ (openRst (w.rdp.con ptr).addr pbuf).encode)])
      = .ok ((), w') := by
  rw [inStateOpen_run, inStateOpen_syn h] at hrun
  cases happend : pbuf.append (openRst (w.rdp.con ptr).addr pbuf).encode with
  | none =>
    rw [happend] at hrun
    cases hrun
  | some pbuf' =>
    rw [happend] at hrun
    rw [← (Packetbuf.append_eq_some happend).2]
    exact hrun

end Libcage.Proofs.Rdp
