import Libcage.Proofs.Dht.Deletes
import Libcage.Proofs.Dht.Packets

/-!
# `Libcage.Proofs.Dht.StoreReceiver`: a store from any peer

A peer sends any bytes to the port of stores, in any packets, and these come in any groups.
`Progress` says what the receiver has made of them. `progress_run` is the induction over the
groups, with `loop_body` for the rounds that read the key and the value.

`Handled` is what the receiver has to do. `handled_iff` has the condition. The header must be
filled by the first read, because `read_hdr` returns `-1` where it is not, and its caller
takes this for `true` and goes on with the entry that was erased. The key and the value must
end with packets, because `rdp::receive` never divides one, and the receiver waits for the
rest of a key behind a packet that does not fit. A delete must not be one that reads a
missing record.
-/

set_option autoImplicit false

namespace Libcage.Proofs.Dht

open Libcage.Lib
open Libcage.Dht
open Libcage.Rdp (Id Table)

namespace StoreReceiver

/-- The bytes of the packets that come. -/
def stream (groups : List (Int × List (List Byte))) : List (List Byte) :=
  (groups.map (·.2)).flatten

/-- The packets at the first event. -/
def first (groups : List (Int × List (List Byte))) : Option (List (List Byte)) :=
  (groups.map (·.2)).find? (· ≠ [])

/-- The length of the body that a header names. -/
def bodyLen (msg : MsgDhtRdpStore) : Nat := msg.keylen.toNat + msg.valuelen.toNat

/-- The header that a stream begins with. -/
def headerOf (packets : List (List Byte)) : MsgDhtRdpStore := .decode packets.flatten

/-- A header that names a key and a value. -/
def HasBody (msg : MsgDhtRdpStore) : Prop := msg.keylen ≠ 0 ∧ msg.valuelen ≠ 0

/-- The store of a header and the body behind it. -/
def storeOf (msg : MsgDhtRdpStore) (uninit : Bool) (body : List Byte) : RdpRecvStore where
  key := Buf.copy msg.keylen body
  value := Buf.copy msg.valuelen (body.drop msg.keylen.toNat)
  ttl := msg.ttl
  id := msg.id
  src := msg.origin
  isUnique := if msg.flags &&& dhtFlagUnique ≠ 0 then true else uninit

/-- The store that a stream carries. -/
def storeOfStream (uninit : Bool) (packets : List (List Byte)) : RdpRecvStore :=
  storeOf (headerOf packets) uninit (packets.flatten.drop sizeofRdpStore)

/-- All of the store has come. -/
def Complete (packets : List (List Byte)) : Prop :=
  sizeofRdpStore + bodyLen (headerOf packets) ≤ packets.flatten.length

/-- What a connection leaves: it waits for the rest of a store, or is closed with nothing
stored, or is closed with one record stored. -/
inductive Outcome (stored : Stored) (uninit : Bool) (packets : List (List Byte)) :
    RecvState → Prop where
  | waiting {rs : RecvStore} {queue : List (List Byte)} (hmore : ¬ Complete packets) :
      Outcome stored uninit packets ⟨some rs, queue, stored⟩
  | closed (queue : List (List Byte)) : Outcome stored uninit packets ⟨none, queue, stored⟩
  | stored {queue : List (List Byte)} {stored' : Stored} {now : Int} (hcomplete : Complete packets)
      (hstored : (storeOfStream uninit packets).store2local now stored = .ok stored') :
      Outcome stored uninit packets ⟨none, queue, stored'⟩

/-- The receiver ends without a fault, and in one of these ways. -/
def Handled (stored : Stored) (did : Id) (uninit : Bool) (groups : List (Int × List (List Byte)))
    (ended : Bool) : Prop :=
  ∃ s, connection stored did uninit groups ended = .ok s ∧
    Outcome stored uninit (stream groups) s

/-- The key and the value end with packets. -/
def Aligned (packets : List (List Byte)) : Prop :=
  EndsAt (sizeofRdpStore + (headerOf packets).keylen.toNat) packets ∧
    EndsAt (sizeofRdpStore + bodyLen (headerOf packets)) packets

/-- The store deletes a record that is missing from its bucket. -/
def DeletesMissing (stored : Stored) (rs : RdpRecvStore) : Prop :=
  rs.ttl = 0 ∧ Missing stored (rs.sdata 0)

/-- What the receiver can handle. -/
def Framed (stored : Stored) (uninit : Bool) (groups : List (Int × List (List Byte)))
    (ended : Bool) : Prop :=
  ∀ group, first groups = some group → EndsAt sizeofRdpStore group ∧
    (HasBody (headerOf (stream groups)) →
      (Complete (stream groups) → ended = true ∨ Aligned (stream groups)) ∧
      (Aligned (stream groups) → ¬ DeletesMissing stored (storeOfStream uninit (stream groups))))

/-! ### The rounds that read the body -/

/-- The entry of a connection whose header has been read. -/
def headed (msg : MsgDhtRdpStore) (uninit : Bool) (key value : List Byte) : RecvStore where
  keylen := msg.keylen
  valuelen := msg.valuelen
  ttl := msg.ttl
  key := key
  value := value
  id := msg.id
  src := msg.origin
  isHdrRead := true
  isUnique := if msg.flags &&& dhtFlagUnique ≠ 0 then true else uninit

/-- The packets `done` of a body have been read. -/
structure Body (msg : MsgDhtRdpStore) (done : List (List Byte)) (key value : List Byte) : Prop where
  bytes : key ++ value = done.flatten
  phase : key.length < msg.keylen.toNat ∧ value = [] ∨
    key.length = msg.keylen.toNat ∧ EndsAt msg.keylen.toNat done
  missing : value.length < msg.valuelen.toNat
  has : HasBody msg

/-- The next packet of the queue goes beyond the key or the value that is being read. -/
def Stuck (msg : MsgDhtRdpStore) (key value : List Byte) (queue : List (List Byte)) : Prop :=
  ∀ p rest, queue = p :: rest →
    (if key.length < msg.keylen.toNat then msg.keylen.toNat - key.length
      else msg.valuelen.toNat - value.length) < p.length

/-- How the rounds end that read a body of which `done` has been read. -/
inductive BodyEnds (msg : MsgDhtRdpStore) (uninit : Bool) (now : Int) (stored : Stored)
    (done queue : List (List Byte)) : Except StoreFault RecvState → Prop where
  | waits {more queue' : List (List Byte)} {key value : List Byte} (hqueue : queue = more ++ queue')
      (hbody : Body msg (done ++ more) key value) (hstuck : Stuck msg key value queue') :
      BodyEnds msg uninit now stored done queue
        (.ok ⟨some (headed msg uninit key value), queue', stored⟩)
  | installs {more queue' : List (List Byte)} (hqueue : queue = more ++ queue')
      (hkey : EndsAt msg.keylen.toNat (done ++ more))
      (hlen : (done ++ more).flatten.length = bodyLen msg) :
      BodyEnds msg uninit now stored done queue
        ((storeOf msg uninit (done ++ more).flatten).store2local now stored >>= fun stored =>
          .ok ⟨none, queue', stored⟩)

section
variable {msg : MsgDhtRdpStore} {uninit : Bool} {now : Int} {stored : Stored} {rounds : Nat}

/-- The rounds go on with what one of them has left. -/
theorem BodyEnds.after {done more queue : List (List Byte)} {res : Except StoreFault RecvState}
    (h : BodyEnds msg uninit now stored (done ++ more) queue res) :
    BodyEnds msg uninit now stored done (more ++ queue) res := by
  cases h with
  | waits hqueue hbody hstuck =>
    rw [List.append_assoc] at hbody
    exact .waits (by rw [hqueue, List.append_assoc]) hbody hstuck
  | installs hqueue hkey hlen =>
    rw [List.append_assoc] at hkey hlen
    rw [List.append_assoc]
    exact .installs (by rw [hqueue, List.append_assoc]) hkey hlen

/-- The store is finished: the arrays are the two parts of the body. -/
theorem finished_headed {key value : List Byte} (hkey : key.length = msg.keylen.toNat) :
    (headed msg uninit key value).finished = storeOf msg uninit (key ++ value) := by
  have hk : Buf.copy msg.keylen (key ++ value) = Buf.copy msg.keylen key := by
    apply Subtype.ext
    show (key ++ value).take msg.keylen.toNat = key.take msg.keylen.toNat
    rw [← hkey, List.take_left, List.take_length]
  have hv : (key ++ value).drop msg.keylen.toNat = value := by rw [← hkey, List.drop_left]
  unfold storeOf
  rw [hk, hv]
  rfl

/-- Packets without bytes change nothing. -/
theorem Body.idle {done more : List (List Byte)} {key value : List Byte}
    (h : Body msg done key value) (hmore : more.flatten = []) :
    Body msg (done ++ more) key value where
  bytes := by rw [List.flatten_append, hmore, List.append_nil, h.bytes]
  phase := h.phase.imp_right fun h => ⟨h.1, h.2.append more⟩
  missing := h.missing
  has := h.has

/-- A round that reads nothing waits for a packet that fits. -/
theorem Body.waits {done more queue : List (List Byte)} {key value : List Byte}
    (h : Body msg done key value) (hmore : more.flatten = [])
    (hover : ∀ p rest, queue = p :: rest →
      (if key.length < msg.keylen.toNat then msg.keylen.toNat - key.length
        else msg.valuelen.toNat - value.length) < more.flatten.length + p.length) :
    BodyEnds msg uninit now stored done (more ++ queue)
      (.ok ⟨some (headed msg uninit key value), queue, stored⟩) := by
  refine .waits rfl (h.idle hmore) fun p rest hp => ?_
  have hroom := hover p rest hp
  rwa [hmore, List.length_nil, Nat.zero_add] at hroom

/-- A round that reads some of the key. -/
theorem Body.readKey {done more : List (List Byte)} {key : List Byte} (h : Body msg done key [])
    (hle : key.length + more.flatten.length ≤ msg.keylen.toNat) :
    Body msg (done ++ more) (key ++ more.flatten) [] where
  bytes := by
    have hbytes := h.bytes
    rw [List.append_nil] at hbytes
    rw [List.append_nil, List.flatten_append, hbytes]
  phase := by
    rcases Nat.lt_or_eq_of_le hle with hlt | heq
    · rw [← List.length_append] at hlt
      exact Or.inl ⟨hlt, rfl⟩
    · refine Or.inr ⟨by rw [List.length_append, heq], done ++ more, [], by simp, ?_⟩
      have hbytes := h.bytes
      rw [List.append_nil] at hbytes
      rw [List.flatten_append, ← hbytes, List.length_append, heq]
  missing := h.missing
  has := h.has

/-- A round that reads some of the value. -/
theorem Body.readValue {done more : List (List Byte)} {key value : List Byte}
    (h : Body msg done key value) (hkey : ¬ key.length < msg.keylen.toNat)
    (hlt : (value ++ more.flatten).length < msg.valuelen.toNat) :
    Body msg (done ++ more) key (value ++ more.flatten) where
  bytes := by rw [← List.append_assoc, h.bytes, List.flatten_append]
  phase := by
    rcases h.phase with ⟨hshort, -⟩ | ⟨hfull, hends⟩
    · exact absurd hshort hkey
    · exact Or.inr ⟨hfull, hends.append more⟩
  missing := hlt
  has := h.has

/-- The round that completes the value. -/
theorem Body.install {done more queue : List (List Byte)} {key value : List Byte}
    (h : Body msg done key value) (hkey : ¬ key.length < msg.keylen.toNat)
    (hfull : msg.valuelen.toNat = (value ++ more.flatten).length) :
    BodyEnds msg uninit now stored done (more ++ queue)
      (((headed msg uninit key (value ++ more.flatten)).finished.store2local now stored >>=
        fun stored => .ok (false, ⟨none, queue, stored⟩)) >>= fun res =>
          if res.1 then ready2ReadLoop now rounds res.2 else .ok res.2) := by
  rcases h.phase with ⟨hshort, -⟩ | ⟨hlen, hends⟩
  · exact absurd hshort hkey
  · have hbytes : key ++ (value ++ more.flatten) = (done ++ more).flatten := by
      rw [← List.append_assoc, h.bytes, List.flatten_append]
    have hboth : (done ++ more).flatten.length = bodyLen msg := by
      rw [← hbytes, List.length_append, hlen, ← hfull]
      rfl
    rw [finished_headed hlen, hbytes]
    have hends : BodyEnds msg uninit now stored done (more ++ queue)
        ((storeOf msg uninit (done ++ more).flatten).store2local now stored >>= fun stored =>
          .ok ⟨none, queue, stored⟩) := .installs rfl (hends.append more) hboth
    cases hstore : (storeOf msg uninit (done ++ more).flatten).store2local now stored with
    | error e =>
      rw [hstore] at hends
      exact hends
    | ok stored' =>
      rw [hstore] at hends
      exact hends

/-- The round that reads the header. -/
theorem readHdr_eq (did : Id) (e : Option RecvStore) (queue : List (List Byte)) :
    readHdr (.accepted did uninit) ⟨e, queue, stored⟩ =
      if (receive sizeofRdpStore queue).1.length ≠ sizeofRdpStore then .error .useAfterErase
      else if (MsgDhtRdpStore.decode (receive sizeofRdpStore queue).1).keylen = 0 ∨
          (MsgDhtRdpStore.decode (receive sizeofRdpStore queue).1).valuelen = 0 then
        .ok (false, ⟨none, (receive sizeofRdpStore queue).2, stored⟩)
      else
        .ok (true, ⟨some (headed (.decode (receive sizeofRdpStore queue).1) uninit [] []),
          (receive sizeofRdpStore queue).2, stored⟩) := rfl

/-- The body of a header begins. -/
theorem body_nil (h : HasBody msg) : Body msg [] [] [] where
  bytes := rfl
  phase := Or.inl ⟨BitVec.toNat_pos_of_ne_zero h.1, rfl⟩
  missing := BitVec.toNat_pos_of_ne_zero h.2
  has := h

/-- A round while the key is being read. -/
theorem readBody_key {key value : List Byte} {e : Option RecvStore} {queue : List (List Byte)}
    (hkey : key.length < msg.keylen.toNat) :
    readBody now (headed msg uninit key value) ⟨e, queue, stored⟩ =
      if (receive (msg.keylen.toNat - key.length) queue).1 = [] then
        .ok (false, ⟨e, (receive (msg.keylen.toNat - key.length) queue).2, stored⟩)
      else
        .ok (true, ⟨some (headed msg uninit
          (key ++ (receive (msg.keylen.toNat - key.length) queue).1) value),
          (receive (msg.keylen.toNat - key.length) queue).2, stored⟩) := by
  unfold readBody
  exact if_pos hkey

/-- A round while the value is being read. -/
theorem readBody_value {key value : List Byte} {e : Option RecvStore}
    {queue : List (List Byte)} (hkey : ¬ key.length < msg.keylen.toNat) :
    readBody now (headed msg uninit key value) ⟨e, queue, stored⟩ =
      if (receive (msg.valuelen.toNat - value.length) queue).1 = [] then
        .ok (false, ⟨e, (receive (msg.valuelen.toNat - value.length) queue).2, stored⟩)
      else if msg.valuelen.toNat =
          (value ++ (receive (msg.valuelen.toNat - value.length) queue).1).length then
        (headed msg uninit key
          (value ++ (receive (msg.valuelen.toNat - value.length) queue).1)).finished.store2local
            now stored >>= fun stored =>
          .ok (false, ⟨none, (receive (msg.valuelen.toNat - value.length) queue).2, stored⟩)
      else
        .ok (true, ⟨some (headed msg uninit key
          (value ++ (receive (msg.valuelen.toNat - value.length) queue).1)),
          (receive (msg.valuelen.toNat - value.length) queue).2, stored⟩) := by
  unfold readBody
  exact if_neg hkey

variable (msg uninit now stored) in
/-- What so many rounds come to, for any part of the body that has been read. -/
def LoopEnds (rounds : Nat) : Prop :=
  ∀ {done queue : List (List Byte)} {key value : List Byte}, Body msg done key value →
    queue.length < rounds → BodyEnds msg uninit now stored done queue
      (ready2ReadLoop now rounds ⟨some (headed msg uninit key value), queue, stored⟩)

section
variable {rounds : Nat} {done queue : List (List Byte)} {key value : List Byte}

/-- A round while the key is being read: there is nothing of the value yet. -/
theorem LoopEnds.readKey (ih : LoopEnds msg uninit now stored rounds)
    (hbody : Body msg done key value) (hkey : key.length < msg.keylen.toNat)
    (hrounds : queue.length < rounds + 1) : BodyEnds msg uninit now stored done queue
      (ready2ReadLoop now (rounds + 1) ⟨some (headed msg uninit key value), queue, stored⟩) := by
  rw [ready2ReadLoop]
  show BodyEnds _ _ _ _ _ _ (readBody now _ _ >>= _)
  rw [readBody_key hkey]
  obtain ⟨more, queue', hgot, rfl, hle, hover, hshort⟩ :=
    receive_spec (msg.keylen.toNat - key.length) queue
  rw [hgot]
  dsimp only
  have hvalue : value = [] := by
    rcases hbody.phase with ⟨-, h⟩ | ⟨h, -⟩
    · exact h
    · omega
  subst hvalue
  split
  · rename_i hnil
    exact hbody.waits hnil (by rwa [if_pos hkey])
  · rename_i hne
    have hnext := hshort hne
    exact (ih (hbody.readKey (by omega)) (by omega)).after

/-- A round while the value is being read. -/
theorem LoopEnds.readValue (ih : LoopEnds msg uninit now stored rounds)
    (hbody : Body msg done key value) (hkey : ¬ key.length < msg.keylen.toNat)
    (hrounds : queue.length < rounds + 1) : BodyEnds msg uninit now stored done queue
      (ready2ReadLoop now (rounds + 1) ⟨some (headed msg uninit key value), queue, stored⟩) := by
  rw [ready2ReadLoop]
  show BodyEnds _ _ _ _ _ _ (readBody now _ _ >>= _)
  rw [readBody_value hkey]
  obtain ⟨more, queue', hgot, rfl, hle, hover, hshort⟩ :=
    receive_spec (msg.valuelen.toNat - value.length) queue
  rw [hgot]
  dsimp only
  have hmissing := hbody.missing
  split
  · rename_i hnil
    exact hbody.waits hnil (by rwa [if_neg hkey])
  · rename_i hne
    have hnext := hshort hne
    split
    · -- The value is complete.
      rename_i hfull
      exact hbody.install hkey hfull
    · rename_i hpart
      rw [List.length_append] at hpart
      have hlt : (value ++ more.flatten).length < msg.valuelen.toNat := by
        rw [List.length_append]
        omega
      exact (ih (hbody.readValue hkey hlt) (by omega)).after

end

/-- The rounds that read the body. Each of them takes a packet from the queue, or is the
last. -/
theorem loop_body (rounds : Nat) : LoopEnds msg uninit now stored rounds := by
  induction rounds with
  | zero =>
    intro done queue key value _ hrounds
    exact absurd hrounds (Nat.not_lt_zero _)
  | succ rounds ih =>
    intro done queue key value hbody hrounds
    by_cases hkey : key.length < msg.keylen.toNat
    · exact ih.readKey hbody hkey hrounds
    · exact ih.readValue hbody hkey hrounds

/-- A key or a value that waits behind a packet is not aligned. -/
theorem Body.not_aligned {packets hdr done queue : List (List Byte)} {key value : List Byte}
    (h : Body (headerOf packets) done key value) (hstuck : Stuck (headerOf packets) key value queue)
    (hhdr : hdr.flatten.length = sizeofRdpStore) (hpackets : packets = hdr ++ (done ++ queue)) :
    ¬ Aligned packets := by
  rintro ⟨hkey, hboth⟩
  have hbytes := congrArg List.length h.bytes
  rw [List.length_append] at hbytes
  have hread : (hdr ++ done).flatten.length = sizeofRdpStore + (key.length + value.length) := by
    rw [List.flatten_append, List.length_append, hhdr, hbytes]
  rw [← List.append_assoc] at hpackets
  have hmissing := h.missing
  unfold bodyLen at hboth
  cases queue with
  | nil =>
    -- Not all of the body has come.
    have hkeyLe := hkey.le
    have hbothLe := hboth.le
    rw [hpackets, List.append_nil, hread, ← List.append_nil (hdr ++ done), ← hpackets]
      at hkeyLe hbothLe
    rcases h.phase with ⟨hlt, rfl⟩ | ⟨hlen, -⟩
    · simp only [List.length_nil] at hkeyLe
      omega
    · omega
  | cons p rest =>
    have hroom := hstuck p rest rfl
    split at hroom
    · rename_i hlt
      have hvalue : value = [] := by
        rcases h.phase with ⟨-, h⟩ | ⟨h, -⟩
        · exact h
        · omega
      subst hvalue
      simp only [List.length_nil] at hread
      rw [hpackets] at hkey
      refine not_endsAt ?_ ?_ hkey
      · rw [hread, ← hpackets]
        omega
      · rw [hread, ← hpackets]
        omega
    · rename_i hge
      have hlen : key.length = (headerOf packets).keylen.toNat := by
        rcases h.phase with ⟨hlt, -⟩ | ⟨hlen, -⟩
        · exact absurd hlt hge
        · exact hlen
      rw [hpackets] at hboth
      refine not_endsAt ?_ ?_ hboth
      · rw [hread, ← hpackets]
        omega
      · rw [hread, ← hpackets]
        omega

end

/-! ### The stream as it grows -/

section
variable {packets : List (List Byte)} {uninit : Bool}

/-- The header is the first bytes. -/
theorem decode_append {hdr : List Byte} (h : hdr.length = sizeofRdpStore) (rest : List Byte) :
    MsgDhtRdpStore.decode (hdr ++ rest) = MsgDhtRdpStore.decode hdr := by
  have hlen : hdr.length = 48 := h
  simp only [MsgDhtRdpStore.decode, rd160_append_left hdr rest 0 (by omega),
    rd160_append_left hdr rest 20 (by omega), rd16_append_left hdr rest 40 (by omega),
    rd16_append_left hdr rest 42 (by omega), rd16_append_left hdr rest 44 (by omega),
    byteAt_append_left hdr rest 46 (by omega), byteAt_append_left hdr rest 47 (by omega)]

theorem headerOf_append (h : sizeofRdpStore ≤ packets.flatten.length)
    (more : List (List Byte)) : headerOf (packets ++ more) = headerOf packets := by
  have hhdr : (packets.flatten.take sizeofRdpStore).length = sizeofRdpStore := by
    rw [List.length_take]
    omega
  unfold headerOf
  rw [List.flatten_append, ← List.take_append_drop sizeofRdpStore packets.flatten,
    List.append_assoc, decode_append hhdr, decode_append hhdr]

/-- What lies behind the body is not of the store. -/
theorem storeOf_append {msg : MsgDhtRdpStore} {body : List Byte} (h : bodyLen msg ≤ body.length)
    (rest : List Byte) : storeOf msg uninit (body ++ rest) = storeOf msg uninit body := by
  unfold bodyLen at h
  have hkey : Buf.copy msg.keylen (body ++ rest) = Buf.copy msg.keylen body := by
    apply Subtype.ext
    show (body ++ rest).take _ = body.take _
    rw [List.take_append_of_le_length (by omega)]
  have hvalue : Buf.copy msg.valuelen ((body ++ rest).drop msg.keylen.toNat) =
      Buf.copy msg.valuelen (body.drop msg.keylen.toNat) := by
    apply Subtype.ext
    show ((body ++ rest).drop _).take _ = (body.drop _).take _
    rw [List.drop_append_of_le_length (by omega),
      List.take_append_of_le_length (by rw [List.length_drop]; omega)]
  unfold storeOf
  rw [hkey, hvalue]

theorem Complete.header (h : Complete packets) : sizeofRdpStore ≤ packets.flatten.length := by
  unfold Complete at h
  omega

theorem Complete.append (h : Complete packets) (more : List (List Byte)) :
    Complete (packets ++ more) := by
  have hhdr := h.header
  unfold Complete at h ⊢
  rw [headerOf_append hhdr, List.flatten_append, List.length_append]
  omega

theorem storeOfStream_append (uninit : Bool) (h : Complete packets) (more : List (List Byte)) :
    storeOfStream uninit (packets ++ more) = storeOfStream uninit packets := by
  have hhdr := h.header
  have hbody : bodyLen (headerOf packets) ≤ (packets.flatten.drop sizeofRdpStore).length := by
    unfold Complete at h
    rw [List.length_drop]
    omega
  unfold storeOfStream
  rw [headerOf_append hhdr, List.flatten_append, List.drop_append_of_le_length hhdr,
    storeOf_append hbody]

theorem Aligned.complete (h : Aligned packets) : Complete packets := h.2.le

theorem Aligned.append (h : Aligned packets) (more : List (List Byte)) :
    Aligned (packets ++ more) := by
  have hhdr := h.complete.header
  unfold Aligned at h ⊢
  rw [headerOf_append hhdr]
  exact ⟨h.1.append more, h.2.append more⟩

end

/-! ### The groups -/

/-- What the receiver has made of the packets that have come. -/
inductive Progress (stored : Stored) (did : Id) (uninit : Bool)
    (groups : List (Int × List (List Byte))) : Except StoreFault RecvState → Prop where
  | idle (hfirst : first groups = none) :
      Progress stored did uninit groups (.ok ⟨some (.accepted did uninit), [], stored⟩)
  | short {group : List (List Byte)} (hfirst : first groups = some group)
      (hends : ¬ EndsAt sizeofRdpStore group) :
      Progress stored did uninit groups (.error .useAfterErase)
  | empty {group queue : List (List Byte)} (hfirst : first groups = some group)
      (hends : EndsAt sizeofRdpStore group) (hbody : ¬ HasBody (headerOf (stream groups))) :
      Progress stored did uninit groups (.ok ⟨none, queue, stored⟩)
  | waits {group hdr done queue : List (List Byte)} {key value : List Byte}
      (hfirst : first groups = some group) (hends : EndsAt sizeofRdpStore group)
      (hstream : stream groups = hdr ++ (done ++ queue))
      (hhdr : hdr.flatten.length = sizeofRdpStore)
      (hbody : Body (headerOf (stream groups)) done key value)
      (hstuck : Stuck (headerOf (stream groups)) key value queue) :
      Progress stored did uninit groups
        (.ok ⟨some (headed (headerOf (stream groups)) uninit key value), queue, stored⟩)
  | installed {group queue : List (List Byte)} {stored' : Stored} {now : Int}
      (hfirst : first groups = some group) (hends : EndsAt sizeofRdpStore group)
      (haligned : Aligned (stream groups))
      (hstored : (storeOfStream uninit (stream groups)).store2local now stored = .ok stored') :
      Progress stored did uninit groups (.ok ⟨none, queue, stored'⟩)
  | missing {group : List (List Byte)} {e : StoreFault} {now : Int}
      (hfirst : first groups = some group) (hends : EndsAt sizeofRdpStore group)
      (hhas : HasBody (headerOf (stream groups))) (haligned : Aligned (stream groups))
      (hstored : (storeOfStream uninit (stream groups)).store2local now stored = .error e) :
      Progress stored did uninit groups (.error e)

section
variable {stored : Stored} {did : Id} {uninit : Bool} {groups : List (Int × List (List Byte))}

theorem stream_append (groups more : List (Int × List (List Byte))) :
    stream (groups ++ more) = stream groups ++ stream more := by
  unfold stream
  rw [List.map_append, List.flatten_append]

theorem first_append {group : List (List Byte)} (h : first groups = some group)
    (more : List (Int × List (List Byte))) : first (groups ++ more) = some group := by
  unfold first at h ⊢
  rw [List.map_append, List.find?_append, h, Option.some_or]

/-- Where there was no event, nothing has come. -/
theorem stream_of_none (h : first groups = none) : stream groups = [] := by
  unfold first at h
  rw [List.find?_eq_none] at h
  unfold stream
  rw [List.flatten_eq_nil_iff]
  intro packets hmem
  simpa using h packets hmem

/-- The header of a stream is in the packets of the first event. -/
theorem header_of_first {group : List (List Byte)} (h : first groups = some group)
    (hends : EndsAt sizeofRdpStore group) : sizeofRdpStore ≤ (stream groups).flatten.length := by
  unfold first at h
  obtain ⟨before, after, hgroups, -⟩ := (List.find?_eq_some_iff_append.mp h).2
  have hle := hends.le
  unfold stream
  rw [hgroups, List.flatten_append, List.flatten_cons, List.flatten_append, List.flatten_append,
    List.length_append, List.length_append]
  omega

/-- What a read of the body leaves. -/
theorem BodyEnds.progress {msg : MsgDhtRdpStore} {group hdr done queue : List (List Byte)}
    {now : Int} {res : Except StoreFault RecvState} (hfirst : first groups = some group)
    (hends : EndsAt sizeofRdpStore group) (hmsg : headerOf (stream groups) = msg)
    (hhas : HasBody msg) (hstream : stream groups = hdr ++ (done ++ queue))
    (hhdr : hdr.flatten.length = sizeofRdpStore)
    (h : BodyEnds msg uninit now stored done queue res) :
    Progress stored did uninit groups res := by
  subst hmsg
  cases h with
  | @waits more queue' key value hqueue hbody hstuck =>
    refine .waits hfirst hends ?_ hhdr hbody hstuck
    rw [hstream, hqueue, List.append_assoc]
  | @installs more queue' hqueue hkey hlen =>
    have hall : stream groups = hdr ++ ((done ++ more) ++ queue') := by
      rw [hstream, hqueue, List.append_assoc]
    -- A packet ends behind the key, and one behind the value.
    have haligned : Aligned (stream groups) := by
      constructor
      · have hend := endsAt_append_left hdr _ (hkey.append queue')
        rw [hhdr, ← hall] at hend
        exact hend
      · refine ⟨hdr ++ (done ++ more), queue', ?_, ?_⟩
        · rw [hall]
          simp only [List.append_assoc]
        · rw [List.flatten_append, List.length_append, hhdr, hlen]
    -- What the receiver has read is what the stream says.
    have hstore : storeOf (headerOf (stream groups)) uninit (done ++ more).flatten =
        storeOfStream uninit (stream groups) := by
      have hdrop : (stream groups).flatten.drop sizeofRdpStore =
          (done ++ more).flatten ++ queue'.flatten := by
        rw [hall, List.flatten_append, ← hhdr, List.drop_left, List.flatten_append]
      unfold storeOfStream
      rw [hdrop, storeOf_append (Nat.le_of_eq hlen.symm)]
    rw [hstore]
    cases hstored : (storeOfStream uninit (stream groups)).store2local now stored with
    | error e => exact .missing hfirst hends hhas haligned hstored
    | ok stored' => exact .installed hfirst hends haligned hstored

/-- The first packets: the header has to be among them. -/
theorem progress_first (hfirst : first groups = none) (now : Int) (packets : List (List Byte))
    (hne : packets ≠ []) :
    Progress stored did uninit (groups ++ [(now, packets)])
      (ready2ReadLoop now (packets.length + 1) ⟨some (.accepted did uninit), packets, stored⟩) := by
  have hnow : first (groups ++ [(now, packets)]) = some packets := by
    unfold first at hfirst ⊢
    rw [List.map_append, List.find?_append, hfirst, Option.none_or]
    simp [hne]
  have hstream : stream (groups ++ [(now, packets)]) = packets := by
    rw [stream_append, stream_of_none hfirst]
    simp [stream]
  rw [ready2ReadLoop]
  show Progress _ _ _ _ (readHdr _ _ >>= _)
  -- These are the first packets, so they are all of the stream.
  rw [readHdr_eq]
  obtain ⟨hdr, queue, hgot, hqueue, -, -, hshort⟩ := receive_spec sizeofRdpStore packets
  have hfull : (receive sizeofRdpStore packets).1.length = sizeofRdpStore ↔
      EndsAt sizeofRdpStore packets := receive_full_iff
  rw [hgot] at hfull ⊢
  dsimp only at hfull ⊢
  split
  · rename_i hlen
    exact .short hnow fun hends => hlen (hfull.mpr hends)
  · rename_i hlen
    rw [not_not] at hlen
    -- The header is complete: what follows depends on the two lengths in it.
    have hmsg : headerOf (stream (groups ++ [(now, packets)])) = .decode hdr.flatten := by
      rw [hstream, hqueue, headerOf, List.flatten_append, decode_append hlen]
    have hends : EndsAt sizeofRdpStore packets := hfull.mp hlen
    split
    · rename_i hbody
      refine .empty hnow hends ?_
      rw [hmsg]
      exact fun hhas => hbody.elim hhas.1 hhas.2
    · rename_i hbody
      rw [not_or] at hbody
      have hnil : hdr.flatten ≠ [] := by
        intro hnil
        rw [hnil] at hlen
        cases hlen
      have hstart : Body (MsgDhtRdpStore.decode hdr.flatten) [] [] [] := body_nil hbody
      exact (loop_body packets.length hstart (hshort hnil)).progress hnow hends hmsg hbody
        (hstream.trans hqueue) hlen

/-- Nothing happens on a connection without an entry. -/
theorem arrive_none (now : Int) (queue packets : List (List Byte)) :
    Dht.arrive now ⟨none, queue, stored⟩ packets = .ok ⟨none, queue ++ packets, stored⟩ := by
  unfold Dht.arrive
  dsimp only
  split
  · rfl
  · rfl

/-- More packets come. -/
theorem Progress.arrive {s : RecvState} (h : Progress stored did uninit groups (.ok s)) (now : Int)
    (packets : List (List Byte)) :
    Progress stored did uninit (groups ++ [(now, packets)]) (arrive now s packets) := by
  have hstream : stream (groups ++ [(now, packets)]) = stream groups ++ packets := by
    rw [stream_append]
    simp [stream]
  cases h with
  | idle hfirst =>
    by_cases hnil : packets = []
    · subst hnil
      refine .idle ?_
      unfold first at hfirst ⊢
      rw [List.map_append, List.find?_append, hfirst, Option.none_or]
      rfl
    · have harrive : Dht.arrive now ⟨some (.accepted did uninit), [], stored⟩ packets =
          ready2ReadLoop now (packets.length + 1) ⟨some (.accepted did uninit), packets, stored⟩ :=
        if_neg hnil
      rw [harrive]
      exact progress_first hfirst now packets hnil
  | empty hfirst hends hbody =>
    rw [arrive_none]
    refine .empty (first_append hfirst _) hends ?_
    rw [hstream, headerOf_append (header_of_first hfirst hends)]
    exact hbody
  | @waits group hdr done queue key value hfirst hends hall hhdr hbody hstuck =>
    have hmsg : headerOf (stream (groups ++ [(now, packets)])) = headerOf (stream groups) := by
      rw [hstream, headerOf_append (header_of_first hfirst hends)]
    have hmore : stream (groups ++ [(now, packets)]) = hdr ++ (done ++ (queue ++ packets)) := by
      rw [hstream, hall]
      simp only [List.append_assoc]
    unfold Dht.arrive
    dsimp only
    split
    · -- No packet waits and none has come.
      rename_i hnil
      obtain ⟨rfl, rfl⟩ := List.append_eq_nil_iff.mp hnil
      rw [← hmsg] at hbody hstuck ⊢
      exact .waits (first_append hfirst _) hends hmore hhdr hbody hstuck
    · -- The packet that waits is read again, with the new ones behind it.
      have hrounds : (queue ++ packets).length < (queue ++ packets).length + 1 :=
        Nat.lt_succ_self _
      exact (loop_body _ hbody hrounds).progress (first_append hfirst _) hends hmsg
        hbody.has hmore hhdr
  | installed hfirst hends haligned hstored =>
    rw [arrive_none]
    -- The store was complete, so what comes behind it changes nothing.
    have hsame := storeOfStream_append uninit haligned.complete packets
    rw [← hsame, ← hstream] at hstored
    refine .installed (first_append hfirst _) hends ?_ hstored
    rw [hstream]
    exact haligned.append packets

/-- A fault stays one. -/
theorem Progress.fault {e : StoreFault} (h : Progress stored did uninit groups (.error e))
    (more : List (Int × List (List Byte))) :
    Progress stored did uninit (groups ++ more) (.error e) := by
  cases h with
  | short hfirst hends => exact .short (first_append hfirst more) hends
  | missing hfirst hends hhas haligned hstored =>
    have hsame := storeOfStream_append uninit haligned.complete (stream more)
    rw [← hsame, ← stream_append] at hstored
    refine .missing (first_append hfirst more) hends ?_ ?_ hstored
    · rw [stream_append, headerOf_append haligned.complete.header]
      exact hhas
    · rw [stream_append]
      exact haligned.append _

/-- In any groups. -/
theorem progress_run (more : List (Int × List (List Byte))) :
    ∀ {groups : List (Int × List (List Byte))} {s : RecvState},
      Progress stored did uninit groups (.ok s) →
      Progress stored did uninit (groups ++ more)
        (run (fun s (now, packets) => Dht.arrive now s packets) s more) := by
  induction more with
  | nil =>
    intro groups s h
    rw [List.append_nil]
    exact h
  | cons group more ih =>
    intro groups s h
    have hnow := h.arrive group.1 group.2
    rw [List.append_cons, run]
    dsimp only
    cases hres : Dht.arrive group.1 s group.2 with
    | error e =>
      rw [hres] at hnow
      exact hnow.fault more
    | ok s' =>
      rw [hres] at hnow
      exact ih hnow

end

/-! ### What the receiver handles -/

section
variable {stored : Stored} {did : Id} {uninit : Bool} {groups : List (Int × List (List Byte))}

/-- A finished store is passed on unless it deletes a missing record. -/
theorem store2local_ok_iff (rs : RdpRecvStore) (now : Int) :
    (∃ stored', rs.store2local now stored = .ok stored') ↔ ¬ DeletesMissing stored rs := by
  unfold RdpRecvStore.store2local Stored.receive DeletesMissing
  split
  · rename_i httl
    have httl : rs.ttl = 0 := httl
    rw [eraseSdata_ok_iff]
    simp only [httl, true_and]
    rfl
  · rename_i httl
    have httl : ¬ rs.ttl = 0 := httl
    simp only [httl, false_and, not_false_eq_true, iff_true]
    exact ⟨_, rfl⟩

/-- A receiver that has ended well. -/
theorem Progress.framed {s : RecvState} {ended : Bool}
    (h : Progress stored did uninit groups (.ok s))
    (hout : Outcome stored uninit (stream groups) (if ended then s.closed else s)) :
    Framed stored uninit groups ended := by
  intro group' hgroup'
  cases h with
  | idle hfirst =>
    rw [hfirst] at hgroup'
    cases hgroup'
  | empty hfirst hends hbody =>
    rw [hfirst] at hgroup'
    rw [← Option.some.inj hgroup']
    exact ⟨hends, fun hhas => absurd hhas hbody⟩
  | waits hfirst hends hall hhdr hbody hstuck =>
    rw [hfirst] at hgroup'
    rw [← Option.some.inj hgroup']
    refine ⟨hends, fun _ => ⟨fun hcomplete => ?_, fun haligned => ?_⟩⟩
    · -- A store that is complete and still waits is one that was closed.
      cases ended with
      | true => exact Or.inl rfl
      | false =>
        cases hout with
        | waiting hmore => exact absurd hcomplete hmore
    · exact absurd haligned (hbody.not_aligned hstuck hhdr hall)
  | installed hfirst hends haligned hstored =>
    rw [hfirst] at hgroup'
    rw [← Option.some.inj hgroup']
    exact ⟨hends, fun _ => ⟨fun _ => Or.inr haligned, fun _ =>
      (store2local_ok_iff _ _).mp ⟨_, hstored⟩⟩⟩

/-- What can be handled is. -/
theorem Progress.outcome {res : Except StoreFault RecvState} {ended : Bool}
    (h : Progress stored did uninit groups res) (hframed : Framed stored uninit groups ended) :
    ∃ s, res = .ok s ∧ Outcome stored uninit (stream groups) (if ended then s.closed else s) := by
  cases h with
  | idle hfirst =>
    refine ⟨_, rfl, ?_⟩
    cases ended with
    | true => exact .closed _
    | false =>
      refine .waiting ?_
      rw [stream_of_none hfirst]
      -- Nothing has come, and a complete stream has a header.
      intro hcomplete
      exact absurd hcomplete.header (by decide)
  | short hfirst hends => exact absurd (hframed _ hfirst).1 hends
  | empty hfirst hends hbody =>
    refine ⟨_, rfl, ?_⟩
    cases ended with
    | true => exact .closed _
    | false => exact .closed _
  | waits hfirst hends hall hhdr hbody hstuck =>
    refine ⟨_, rfl, ?_⟩
    cases ended with
    | true => exact .closed _
    | false =>
      refine .waiting fun hcomplete => ?_
      -- A complete stream that is framed right is aligned, and then nothing waits.
      rcases ((hframed _ hfirst).2 hbody.has).1 hcomplete with hended | haligned
      · cases hended
      · exact absurd haligned (hbody.not_aligned hstuck hhdr hall)
  | installed hfirst hends haligned hstored =>
    refine ⟨_, rfl, ?_⟩
    cases ended with
    | true => exact .stored haligned.complete hstored
    | false => exact .stored haligned.complete hstored
  | missing hfirst hends hhas haligned hstored =>
    have hfine := ((hframed _ hfirst).2 hhas).2 haligned
    obtain ⟨stored', hok⟩ := (store2local_ok_iff _ _).mpr hfine
    rw [hstored] at hok
    cases hok

/-- The receiver handles exactly the connections whose header fills the first read, whose
parts end with packets and whose store does not delete a missing record. -/
theorem handled_iff (stored : Stored) (did : Id) (uninit : Bool)
    (groups : List (Int × List (List Byte))) (ended : Bool) :
    Handled stored did uninit groups ended ↔ Framed stored uninit groups ended := by
  have hstart : Progress stored did uninit [] (.ok ⟨some (.accepted did uninit), [], stored⟩) :=
    .idle rfl
  have h := progress_run groups hstart
  rw [List.nil_append] at h
  constructor
  · rintro ⟨s, hs, hout⟩
    obtain ⟨s₀, hrun, hend⟩ := bind_eq_ok hs
    rw [hrun] at h
    rw [← Except.ok.inj hend] at hout
    exact h.framed hout
  · intro hframed
    obtain ⟨s, hs, hout⟩ := h.outcome hframed
    refine ⟨_, ?_, hout⟩
    unfold connection
    rw [hs]
    rfl

end

/-- The first packet has less than a header, and the entry that was erased is used. -/
theorem shortHeader_not_handled :
    ¬ Handled ∅ 7 false [(0, [List.replicate 20 0])] false := by
  rintro ⟨s, hs, -⟩
  have hfault : (connection ∅ 7 false [(0, [List.replicate 20 0])] false).isOk = false := by
    decide +kernel
  rw [hs] at hfault
  cases hfault

end StoreReceiver

end Libcage.Proofs.Dht
