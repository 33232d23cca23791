import Libcage.Advertise
import Libcage.Lib.RateLimit
import Libcage.Proofs.Proxy.Relay

/-!
# `Libcage.Proofs.Advertise`: how often a node makes itself known

`RateLimited` is what the test of `advertise_to` is for: between two messages to one id there
is half of `advertise_ttl`. The test takes the time in the record for its age. On a clock that
is past its first 150 seconds it holds back no message, and the messages are as far apart as the
datagrams that cause them. On any clock, a run is rate limited in which each record that a
call meets is old enough, or from the first 150 seconds. `rateLimited_iff` has both.

`handle_cases` says what an event does. The messages and the records are the log and the
memory of `Libcage.Lib.RateLimit`.
-/

set_option autoImplicit false

namespace Libcage.Proofs.Advertise

open Libcage.Lib
open Libcage.Rdp (Id Table)
open Libcage.Dht (Saddr Cageaddr domainInet domainInet6)
open Libcage.Advertise (Input toSaddr IsRecent)

/-- The times and the destinations of the messages. -/
def messages (s : Advertise) : List (Int × Id) :=
  s.sent.map fun m => (m.1, (MsgHdr.decode m.2.msg).dst)

/-- Two messages to one id are at least 150 seconds apart. -/
def RateLimited (s : AdvertiseClock) : Prop := Spaced (advertiseTtl / 2) (messages s.advertise)

/-! ### One call -/

/-- A call of `advertise_to` for an address of one of the two families. -/
def target : DgramCall → Option Id
  | .advertiseTo id domain _ _ =>
      if domain = domainInet ∨ domain = domainInet6 then some id else none
  | _ => none

theorem toSaddr_eq_none {domain port : BitVec 16} {addr : List Byte} :
    toSaddr domain port addr = none ↔ ¬ (domain = domainInet ∨ domain = domainInet6) := by
  unfold toSaddr
  by_cases hinet : domain = domainInet
  · simp [hinet]
  · rw [if_neg hinet]
    by_cases hinet6 : domain = domainInet6
    · simp [hinet6]
    · simp [hinet, hinet6]

section
variable {s : Advertise} {now : Int} {nonce : BitVec 32} {id : Id} {domain port : BitVec 16}
  {addr : List Byte}

/-- The header of a message has its destination. -/
@[simp] theorem dst_msgAdvertise (s : Advertise) (nonce : BitVec 32) (id : Id) :
    (MsgHdr.decode (s.msgAdvertise nonce id)).dst = id := by
  rw [Advertise.msgAdvertise, MsgHdr.decode_encode, sendMsg_dst]

/-- A record that is taken for recent stops the call. -/
theorem advertiseTo_recent {t : Int} (ht : s.advertised.lookup id = some t) (hrecent : IsRecent t) :
    s.advertiseTo now nonce id domain port addr = s := by
  rw [Advertise.advertiseTo, if_pos (by simp [ht, hrecent])]

/-- Any other call sends, and takes down the time. -/
theorem advertiseTo_sends (h : ∀ t, s.advertised.lookup id = some t → ¬ IsRecent t) (now : Int)
    (nonce : BitVec 32) (domain port : BitVec 16) (addr : List Byte) :
    (s.advertiseTo now nonce id domain port addr).advertised = s.advertised.insert id now ∧
      messages (s.advertiseTo now nonce id domain port addr) = messages s ++
        ((target (.advertiseTo id domain port addr)).map fun id => (now, id)).toList := by
  have hnot : ¬ (s.advertised.lookup id).any (fun t => IsRecent t) = true := by
    intro hany
    obtain ⟨t, ht, hrecent⟩ := (Option.any_eq_true _ _).mp hany
    exact h t ht (of_decide_eq_true hrecent)
  rw [Advertise.advertiseTo, if_neg hnot]
  refine ⟨rfl, ?_⟩
  rw [messages, List.map_append]
  congr 1
  by_cases hdomain : domain = domainInet ∨ domain = domainInet6
  · obtain ⟨dst, hdst⟩ := Option.ne_none_iff_exists'.mp
      (fun hnone => toSaddr_eq_none.mp hnone hdomain : toSaddr domain port addr ≠ none)
    simp [hdst, target, hdomain]
  · simp [toSaddr_eq_none.mpr hdomain, target, hdomain]

end

/-! ### One event -/

/-- What a datagram makes the node call. -/
def calls : Input → List DgramCall
  | .recvDgram node pbuf from_ _ => node.recvDgram pbuf from_
  | .recvForwarded pbuf _ => Proxy.recvForwarded pbuf
  | _ => []

/-- The ids that an event asks to advertise to. -/
def targets (i : Input) : List Id := (calls i).filterMap target

/-- Calls of other functions. -/
def Silent (cs : List DgramCall) : Prop :=
  ∀ id domain port addr, .advertiseTo id domain port addr ∉ cs

theorem Silent.foldl {cs : List DgramCall} (h : Silent cs) (now : Int) (nonce : BitVec 32)
    (s : Advertise) : cs.foldl (Advertise.perform now nonce) s = s := by
  induction cs with
  | nil => rfl
  | cons c cs ih =>
    have hcs : Silent cs := fun id domain port addr hmem =>
      h id domain port addr (List.mem_cons_of_mem _ hmem)
    cases c with
    | advertiseTo id domain port addr =>
      exact absurd (List.mem_cons_self ..) (h id domain port addr)
    | addNode addr => exact ih hcs
    | callback data src => exact ih hcs
    | inputDgram src pbuf => exact ih hcs
    | forwardMsg msg from_ => exact ih hcs

theorem Silent.filterMap {cs : List DgramCall} (h : Silent cs) : cs.filterMap target = [] := by
  refine List.filterMap_eq_nil_iff.mpr fun c hc => ?_
  cases c with
  | advertiseTo id domain port addr => exact absurd hc (h id domain port addr)
  | addNode addr => rfl
  | callback data src => rfl
  | inputDgram src pbuf => rfl
  | forwardMsg msg from_ => rfl

/-- A datagram leads to at most one call of `advertise_to`. -/
inductive Calls : List DgramCall → Prop where
  | none {cs : List DgramCall} (h : Silent cs) : Calls cs
  | one (before : List DgramCall) {after : List DgramCall} (hbefore : Silent before)
      (hafter : Silent after) (id : Id) (domain port : BitVec 16) (addr : List Byte) :
      Calls (before ++ .advertiseTo id domain port addr :: after)

theorem calls_recvDgram (node : Dgram) (pbuf : Packetbuf) (from_ : Sockaddr) :
    Calls (node.recvDgram pbuf from_) := by
  unfold Dgram.recvDgram
  simp only
  split
  · exact .none (by simp [Silent])
  · split
    · exact .none (by simp [Silent])
    · generalize hrest : (if (MsgHdr.decode pbuf.view).type = typeDgram ∧ node.isCallback then _
        else _ : List DgramCall) = rest
      have hsilent : Silent rest := by
        rw [← hrest]
        split
        · simp [Silent]
        · split <;> simp [Silent]
      cases node.isDtunEnabled with
      | false => exact .none (by simpa [Silent] using hsilent)
      | true => exact .one [.addNode _] (by simp [Silent]) hsilent _ _ _ _

theorem calls_recvForwarded (pbuf : Packetbuf) : Calls (Proxy.recvForwarded pbuf) := by
  unfold Proxy.recvForwarded
  split
  · exact .none (by simp [Silent])
  · refine .one _ ?_ (by simp [Silent]) _ _ _ _
    split
    · simp [Silent]
    · split <;> simp [Silent]

/-- The calls of a datagram are one call of `advertise_to`, or none. -/
theorem Calls.perform {cs : List DgramCall} (h : Calls cs) (s : Advertise) (now : Int)
    (nonce : BitVec 32) :
    (cs.foldl (Advertise.perform now nonce) s = s ∧ cs.filterMap target = []) ∨
      ∃ id domain port addr, .advertiseTo id domain port addr ∈ cs ∧
        cs.foldl (Advertise.perform now nonce) s = s.advertiseTo now nonce id domain port addr ∧
        cs.filterMap target = (target (.advertiseTo id domain port addr)).toList := by
  cases h with
  | none h => exact .inl ⟨h.foldl now nonce s, h.filterMap⟩
  | one _ hbefore hafter id domain port addr =>
    refine .inr ⟨id, domain, port, addr, by simp, ?_, ?_⟩
    · rw [List.foldl_append, hbefore.foldl, List.foldl_cons, hafter.foldl]
      rfl
    · rw [List.filterMap_append, hbefore.filterMap, List.nil_append]
      cases htarget : target (.advertiseTo id domain port addr) with
      | none => simp [htarget, hafter.filterMap]
      | some id => simp [htarget, hafter.filterMap]

/-- What an event does: it makes no call of `advertise_to` and leaves the records and the
messages alone, or it is a `refresh`, or it makes one call. -/
theorem handle_cases (s : Advertise) (now : Int) (i : Input) :
    ((s.handle now i).advertised = s.advertised ∧ (s.handle now i).sent = s.sent ∧
        targets i = []) ∨
      (s.handle now i = s.refresh now ∧ targets i = []) ∨
        ∃ nonce id domain port addr, .advertiseTo id domain port addr ∈ calls i ∧
          s.handle now i = s.advertiseTo now nonce id domain port addr ∧
          targets i = (target (.advertiseTo id domain port addr)).toList := by
  cases i with
  | recvDgram node pbuf from_ nonce =>
    rcases (calls_recvDgram node pbuf from_).perform s now nonce with ⟨hs, hnone⟩ | hone
    · exact .inl ⟨congrArg _ hs, congrArg _ hs, hnone⟩
    · exact .inr (.inr ⟨nonce, hone⟩)
  | recvForwarded pbuf nonce =>
    rcases (calls_recvForwarded pbuf).perform s now nonce with ⟨hs, hnone⟩ | hone
    · exact .inl ⟨congrArg _ hs, congrArg _ hs, hnone⟩
    · exact .inr (.inr ⟨nonce, hone⟩)
  | refresh => exact .inr (.inl ⟨rfl, rfl⟩)
  | timerAdvertise nonce => exact .inl ⟨rfl, rfl, rfl⟩
  | recvAdvertiseReply msg from_ =>
    refine .inl ⟨?_, ?_, rfl⟩
    · simp only [Advertise.handle, Advertise.recvAdvertiseReply]
      split_ifs <;> rfl
    · simp only [Advertise.handle, Advertise.recvAdvertiseReply]
      split_ifs <;> rfl

/-- The records that `refresh` leaves are those of the last 300 seconds. -/
theorem lookup_refresh {s : Advertise} {now t : Int} {id : Id} :
    (s.refresh now).advertised.lookup id = some t ↔
      s.advertised.lookup id = some t ∧ now - t ≤ advertiseTtl := by
  rw [Advertise.refresh, lookup_filterMap]
  cases s.advertised.lookup id with
  | none => simp
  | some t' =>
    simp only [Option.bind_some, Option.some.injEq]
    split
    · simp only [reduceCtorEq, false_iff]
      rintro ⟨rfl, hle⟩
      omega
    · simp only [Option.some.injEq]
      constructor
      · rintro rfl
        exact ⟨rfl, by omega⟩
      · exact And.left

/-- Every datagram for a node whose `dtun` is enabled asks to advertise to its sender. -/
theorem targets_direct {node : Dgram} {type : Byte} {src : Id} {payload tail : List Byte}
    (hdtun : node.isDtunEnabled = true) (h : (direct type node.id src payload).length ≤ pbufSize)
    (from_ : Sockaddr) (nonce : BitVec 32) :
    targets (.recvDgram node (.received (direct type node.id src payload) tail h) from_ nonce) =
      [src] := by
  have hdecode : MsgHdr.decode (Packetbuf.received (direct type node.id src payload) tail h).view =
      sendMsg 0 (payload.length + sizeofHdr) type node.id src := decode_received h
  have hlen : (sendMsg 0 (payload.length + sizeofHdr) type node.id src).len.toNat =
      (Packetbuf.received (direct type node.id src payload) tail h).getLen := len_direct h
  have hdomain : target (.advertiseTo (newCageaddr src from_).id (newCageaddr src from_).domain
      (sinPort from_.1) (sinAddr from_.1)) = some src := by
    obtain ⟨saddr, hsaddr⟩ := from_
    cases saddr with
    | loopback => exact absurd rfl hsaddr
    | inet port addr => rfl
    | inet6 port addr => rfl
  simp only [targets, calls, Dgram.recvDgram, hdecode, hlen, sendMsg_dst, sendMsg_src,
    sendMsg_type, ne_eq, not_true_eq_false, if_false, hdtun, if_true]
  rw [List.filterMap_cons_none rfl, List.filterMap_append, List.filterMap_cons_some hdomain]
  split
  · rfl
  · split <;> rfl

/-! ### Clocks that have run for a while -/

/-- The calls for an address, with their times. -/
def timedCalls : Int → List (Nat × Input) → List (Int × Id)
  | _, [] => []
  | now, i :: is =>
      (targets i.2).map (fun id => (now + i.1, id)) ++ timedCalls (now + i.1) is

/-- The clock is past its first 150 seconds, and so are all records. -/
structure Late (s : AdvertiseClock) : Prop where
  now : ¬ IsRecent s.now
  records : ∀ id t, s.advertise.advertised.lookup id = some t → ¬ IsRecent t

/-- Such a clock goes on, and every call for an address sends. -/
theorem Late.step {s s' : AdvertiseClock} (h : Late s) {i : Nat × Input} (hs' : s.step i = .ok s') :
    Late s' ∧ s'.now = s.now + i.1 ∧ messages s'.advertise = messages s.advertise ++
      (targets i.2).map fun id => (s.now + i.1, id) := by
  obtain rfl := Except.ok.inj hs'
  have hnow : ¬ IsRecent (s.now + i.1) := by
    have := h.now
    unfold IsRecent at this ⊢
    omega
  rcases handle_cases s.advertise (s.now + i.1) i.2 with
    ⟨hadvertised, hsent, hnone⟩ | ⟨hrefresh, hnone⟩ | ⟨nonce, id, domain, port, addr, -, hs, hone⟩
  · refine ⟨⟨hnow, fun id t ht => ?_⟩, rfl, ?_⟩
    · rw [hadvertised] at ht
      exact h.records id t ht
    · rw [messages, hsent, hnone, List.map_nil, List.append_nil]
      rfl
  · refine ⟨⟨hnow, fun id t ht => ?_⟩, rfl, ?_⟩
    · rw [hrefresh] at ht
      exact h.records id t (lookup_refresh.mp ht).1
    · rw [hrefresh, hnone, List.map_nil, List.append_nil]
      rfl
  · obtain ⟨hadvertised, hmessages⟩ := advertiseTo_sends (h.records id) (s.now + i.1) nonce
      domain port addr
    refine ⟨⟨hnow, fun id' t ht => ?_⟩, rfl, ?_⟩
    · rw [hs, hadvertised] at ht
      rcases lookup_insert_eq_some.mp ht with ⟨-, rfl⟩ | ⟨-, ht⟩
      · exact hnow
      · exact h.records id' t ht
    · rw [hs, hmessages, hone]
      congr 1
      cases target (.advertiseTo id domain port addr) with
      | none => rfl
      | some id => rfl

/-- On such a clock the messages are the calls. -/
theorem Late.always_iff {s : AdvertiseClock} (h : Late s) (is : List (Nat × Input)) :
    Always AdvertiseClock.step RateLimited s is ↔
      Spaced (advertiseTtl / 2) (messages s.advertise ++ timedCalls s.now is) := by
  induction is generalizing s with
  | nil => rw [Always, timedCalls, List.append_nil, RateLimited]
  | cons i is ih =>
    obtain ⟨h', hnow, hmessages⟩ := h.step rfl
    have hih := ih h'
    rw [hmessages, hnow, List.append_assoc] at hih
    rw [timedCalls, ← hih]
    constructor
    · rintro ⟨-, s', hs', hrest⟩
      obtain rfl := Except.ok.inj hs'
      exact hrest
    · intro hrest
      exact ⟨(hih.mp hrest).left, _, rfl, hrest⟩

/-! ### All clocks -/

/-- A record that a call meets is from the first 150 seconds of the clock, or old enough. -/
def Spared (s : AdvertiseClock) (i : Nat × Input) : Prop :=
  ∀ id domain port addr, .advertiseTo id domain port addr ∈ calls i.2 →
    ∀ t, s.advertise.advertised.lookup id = some t →
      IsRecent t ∨ advertiseTtl / 2 ≤ s.now + i.1 - t

/-- The messages are spaced, and the records are of the last ones. -/
structure RateInv (s : AdvertiseClock) : Prop where
  spaced : RateLimited s
  remembers : Remembers (advertiseTtl / 2) s.now s.advertise.advertised.lookup
    (messages s.advertise)

theorem RateInv.step {s s' : AdvertiseClock} (h : RateInv s) {i : Nat × Input}
    (hspared : Spared s i) (hs' : s.step i = .ok s') : RateInv s' := by
  obtain rfl := Except.ok.inj hs'
  have hlater := h.remembers.later (show s.now ≤ s.now + i.1 by omega)
  rcases handle_cases s.advertise (s.now + i.1) i.2 with
    ⟨hadvertised, hsent, -⟩ | ⟨hrefresh, -⟩ | ⟨nonce, id, domain, port, addr, hcall, hs, -⟩
  · have hmessages : messages (s.advertise.handle (s.now + i.1) i.2) = messages s.advertise := by
      rw [messages, hsent]
      rfl
    constructor
    case spaced =>
      show Spaced _ (messages (s.advertise.handle (s.now + i.1) i.2))
      rw [hmessages]
      exact h.spaced
    case remembers => simpa only [hmessages, hadvertised] using hlater
  · rw [hrefresh]
    constructor
    case spaced => exact h.spaced
    case remembers =>
      -- `refresh` forgets only what is older than both limits.
      refine hlater.forget fun id t ht hgap => lookup_refresh.mpr ⟨ht, ?_⟩
      unfold advertiseTtl at hgap ⊢
      omega
  · rw [hs]
    by_cases hrecent : ∃ t, s.advertise.advertised.lookup id = some t ∧ IsRecent t
    · obtain ⟨t, ht, hrecent⟩ := hrecent
      rw [advertiseTo_recent ht hrecent]
      exact ⟨h.spaced, hlater⟩
    · have hnot : ∀ t, s.advertise.advertised.lookup id = some t → ¬ IsRecent t :=
        fun t ht hrec => hrecent ⟨t, ht, hrec⟩
      obtain ⟨hadvertised, hmessages⟩ := advertiseTo_sends hnot (s.now + i.1) nonce domain
        port addr
      constructor
      case spaced =>
        show Spaced _ (messages (s.advertise.advertiseTo _ nonce id domain port addr))
        rw [hmessages]
        by_cases hdomain : domain = domainInet ∨ domain = domainInet6
        · rw [target, if_pos hdomain]
          exact h.spaced.concat hlater fun t ht =>
            (hspared id domain port addr hcall t ht).resolve_left (hnot t ht)
        · rw [target, if_neg hdomain, Option.map_none, Option.toList_none, List.append_nil]
          exact h.spaced
      case remembers =>
        show Remembers _ _
          (s.advertise.advertiseTo (s.now + i.1) nonce id domain port addr).advertised.lookup
          (messages (s.advertise.advertiseTo _ nonce id domain port addr))
        rw [hmessages, hadvertised]
        refine hlater.note (k := id) (AList.lookup_insert _)
          (fun id' hne => AList.lookup_insert_ne hne) ?_
        simp [target]

theorem rateInv_init (id : Id) (session : BitVec 32) (start : Int) :
    RateInv ⟨start, .init id session⟩ := ⟨spaced_nil, remembers_nil⟩

theorem late_init (id : Id) (session : BitVec 32) {start : Int} (h : 150 ≤ start) :
    Late ⟨start, .init id session⟩ := by
  constructor
  case now => exact Int.not_lt.mpr h
  case records => exact nofun

/-- On a clock past its first 150 seconds the messages are as far apart as the calls. On any
clock they are far enough apart where each record that a call meets allows it. -/
theorem rateLimited_iff (id : Id) (session : BitVec 32) (start : Int) (is : List (Nat × Input)) :
    (150 ≤ start →
      (Always AdvertiseClock.step RateLimited ⟨start, .init id session⟩ is ↔
        Spaced 150 (timedCalls start is))) ∧
    (Allowed AdvertiseClock.step Spared ⟨start, .init id session⟩ is →
      Always AdvertiseClock.step RateLimited ⟨start, .init id session⟩ is) := by
  constructor
  · intro hstart
    exact (late_init id session hstart).always_iff is
  · intro hallowed
    exact always_of_allowed (fun _ h => h.spaced)
      (fun s i h hspared => ⟨_, rfl, h.step hspared rfl⟩) (rateInv_init id session start) hallowed

/-- Node 1, with nothing to send. -/
def nodeOne : Dgram := ⟨1, .init, ∅, ∅, true, false, [], []⟩

/-- A datagram of node 2 comes to node 1, so many seconds after the last. -/
def hello (dt : Nat) (nonce : BitVec 32) : Nat × Input :=
  (dt, .recvDgram nodeOne (.received (direct typeDgram 1 2 []) [] (by decide))
    ⟨.inet 5000 0x0a000002, nofun⟩ nonce)

theorem targets_hello (dt : Nat) (nonce : BitVec 32) : targets (hello dt nonce).2 = [2] :=
  targets_direct (rfl : nodeOne.isDtunEnabled = true) _ _ _

/-- Two datagrams in one second of the year 2011 lead to two messages. -/
theorem not_rateLimited : ¬ ∀ id session start is,
    Always AdvertiseClock.step RateLimited ⟨start, .init id session⟩ is := by
  intro h
  have hspaced := ((late_init 1 7 (show 150 ≤ 1300000000 by decide)).always_iff
    [hello 0 1, hello 0 2]).mp (h 1 7 1300000000 _)
  simp only [timedCalls, targets_hello] at hspaced
  exact absurd hspaced (by decide)

/-- Two datagrams that are 150 seconds apart, and one when the clock starts. -/
theorem rateLimited_iff_apart :
    Always AdvertiseClock.step RateLimited ⟨1300000000, .init 1 7⟩ [hello 0 1, hello 150 2] ∧
      Always AdvertiseClock.step RateLimited ⟨0, .init 1 7⟩ [hello 0 1] := by
  constructor
  · refine ((rateLimited_iff 1 7 1300000000 [hello 0 1, hello 150 2]).1 (by decide)).mpr ?_
    simp only [timedCalls, targets_hello]
    decide
  · refine (rateLimited_iff 1 7 0 [hello 0 1]).2 ⟨?_, fun _ _ => trivial⟩
    -- There is no record yet.
    exact fun _ _ _ _ _ _ ht => nomatch ht

end Libcage.Proofs.Advertise
