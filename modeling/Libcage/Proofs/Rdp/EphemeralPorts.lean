import Libcage.Proofs.Rdp.SimultaneousOpen

/-!
# `Libcage.Proofs.Rdp.EphemeralPorts`: which local port `rdp::connect` allocates

The loop of `rdp::connect` draws a port, and skips a well known one by `continue`. In a
`do`-loop that goes to the condition, which only asks whether a connection with this address
exists. So the loop ends at the first drawn port that no connection to this destination has,
well known or not (`pickPort_eq_ok_iff`).

`allocatesWell_iff` says when the port is as intended: no free well known port is drawn
before a free one of the others. The ports 100 and 101 of the DHT and 200 to 202 of the proxy
are well known ones.
-/

set_option autoImplicit false

namespace Libcage.Proofs.Rdp

open Libcage.Lib
open Libcage.Rdp

/-- `rdp::well_known_port_max`. -/
def wellKnownPortMax : BitVec 16 := 1024

/-- The ports on which the local services listen: `rdp_store_port` and `rdp_get_port` of the
DHT, `proxy_store_port`, `proxy_get_port` and `proxy_get_reply_port` of the proxy. -/
def servicePorts : List (BitVec 16) := [100, 101, 200, 201, 202]

/-- The port is none of the well known ones, and no connection has the address. -/
structure PortOk (r : Members) (addr : RdpAddr) : Prop where
  high : wellKnownPortMax ≤ addr.sport
  unused : r.addr2conn.lookup addr = none
  noService : addr.sport ∉ servicePorts

/-- Where the allocation loop of `rdp::connect` ends, the port is as it should be. -/
def AllocatesWell (w : World) (did : Id) (dport : BitVec 16) : Prop :=
  ∀ addr rest, pickPort w.rdp.addr2conn did dport w.env.rnd = .ok (addr, rest) → PortOk w.rdp addr

/-- No connection to this destination has the port that is drawn. -/
def Free (addr2conn : Table RdpAddr ConPtr) (did : Id) (dport : BitVec 16) (x : BitVec 32) : Prop :=
  addr2conn.lookup ⟨did, dport, x.setWidth 16⟩ = none

instance (addr2conn : Table RdpAddr ConPtr) (did : Id) (dport : BitVec 16) (x : BitVec 32) :
    Decidable (Free addr2conn did dport x) := by
  unfold Free
  infer_instance

/-- Every free well known port in the numbers drawn comes after a free port that is none. -/
def DrawsHigh (w : World) (did : Id) (dport : BitVec 16) : Prop :=
  ∀ before x after, w.env.rnd = before ++ x :: after → Free w.rdp.addr2conn did dport x →
    x.setWidth 16 < wellKnownPortMax →
    ∃ y ∈ before, Free w.rdp.addr2conn did dport y ∧ wellKnownPortMax ≤ y.setWidth 16

section
variable {addr2conn : Table RdpAddr ConPtr} {did : Id} {dport : BitVec 16}

/-- The loop ends at the first number whose port is free. -/
theorem pickPort_eq_ok_iff {rnds rest : List (BitVec 32)} {addr : RdpAddr} :
    pickPort addr2conn did dport rnds = .ok (addr, rest) ↔
      ∃ before x, rnds = before ++ x :: rest ∧ addr = ⟨did, dport, x.setWidth 16⟩ ∧
        Free addr2conn did dport x ∧ ∀ y ∈ before, ¬ Free addr2conn did dport y := by
  induction rnds with
  | nil =>
    refine iff_of_false (by intro h; cases h) ?_
    rintro ⟨before, x, heq, -⟩
    cases before <;> cases heq
  | cons r rnds ih =>
    rw [pickPort]
    by_cases hfree : Free addr2conn did dport r
    · have hnone : ¬ (addr2conn.lookup ⟨did, dport, r.setWidth 16⟩).isSome = true :=
        Option.not_isSome_iff_eq_none.mpr hfree
      rw [if_neg hnone]
      constructor
      · intro h
        obtain ⟨rfl, rfl⟩ := Prod.mk.inj (Except.ok.inj h)
        exact ⟨[], r, rfl, rfl, hfree, by simp⟩
      · rintro ⟨before, x, heq, rfl, -, hbefore⟩
        cases before with
        | nil =>
          obtain ⟨rfl, rfl⟩ := List.cons.inj heq
          rfl
        | cons y before =>
          obtain ⟨rfl, -⟩ := List.cons.inj heq
          exact absurd hfree (hbefore r (List.mem_cons_self ..))
    · rw [if_pos (Option.isSome_iff_ne_none.mpr hfree), ih]
      constructor
      · rintro ⟨before, x, rfl, haddr, hx, hbefore⟩
        exact ⟨r :: before, x, rfl, haddr, hx, List.forall_mem_cons.mpr ⟨hfree, hbefore⟩⟩
      · rintro ⟨before, x, heq, haddr, hx, hbefore⟩
        cases before with
        | nil =>
          obtain ⟨rfl, -⟩ := List.cons.inj heq
          exact absurd hx hfree
        | cons y before =>
          obtain ⟨-, rfl⟩ := List.cons.inj heq
          exact ⟨before, x, rfl, haddr, hx, (List.forall_mem_cons.mp hbefore).2⟩

/-- A port above the well known ones is that of no service. -/
theorem notMem_servicePorts {port : BitVec 16} (h : wellKnownPortMax ≤ port) :
    port ∉ servicePorts := by
  have hall : servicePorts.all (fun p => decide (p < wellKnownPortMax)) = true := by decide
  intro hmem
  have hlow : port < wellKnownPortMax := of_decide_eq_true (List.all_eq_true.mp hall port hmem)
  exact absurd hlow (BitVec.not_lt.mpr h)

end

/-- The first free port is not a well known one exactly if each free well known one comes later
than some other. -/
theorem allocatesWell_iff_drawsHigh (w : World) (did : Id) (dport : BitVec 16) :
    AllocatesWell w did dport ↔ DrawsHigh w did dport := by
  constructor
  · intro h before x after hrnd hfree hlow
    cases hfirst : before.find? fun y => decide (Free w.rdp.addr2conn did dport y) with
    | none =>
      -- The loop ends here.
      have hbefore : ∀ y ∈ before, ¬ Free w.rdp.addr2conn did dport y := by
        simpa using List.find?_eq_none.mp hfirst
      have hpick := pickPort_eq_ok_iff.mpr ⟨before, x, hrnd, rfl, hfree, hbefore⟩
      exact absurd (h _ _ hpick).high (BitVec.not_le.mpr hlow)
    | some y =>
      -- It ended before, at a port that is as it should be.
      obtain ⟨hy, before', between, rfl, hnone⟩ := List.find?_eq_some_iff_append.mp hfirst
      have hyfree : Free w.rdp.addr2conn did dport y := of_decide_eq_true hy
      have hbefore : ∀ z ∈ before', ¬ Free w.rdp.addr2conn did dport z := by simpa using hnone
      have hsplit : w.env.rnd = before' ++ y :: (between ++ x :: after) := by
        rw [hrnd, List.append_assoc, List.cons_append]
      have hpick := pickPort_eq_ok_iff.mpr ⟨before', y, hsplit, rfl, hyfree, hbefore⟩
      exact ⟨y, List.mem_append_right _ (List.mem_cons_self ..), hyfree, (h _ _ hpick).high⟩
  · intro h addr rest hpick
    obtain ⟨before, x, hrnd, rfl, hfree, hbefore⟩ := pickPort_eq_ok_iff.mp hpick
    have hhigh : wellKnownPortMax ≤ x.setWidth 16 := by
      by_contra hlow
      obtain ⟨y, hy, hyfree, -⟩ := h before x rest hrnd hfree (BitVec.not_le.mp hlow)
      exact hbefore y hy hyfree
    exact ⟨hhigh, hfree, notMem_servicePorts hhigh⟩

/-- The record that `connect` makes has the address its loop found. -/
theorem connectTo_addr {w w' : World} {addr : RdpAddr} {func : Callback} {desc : Int}
    (h : connectTo addr func w = .ok (desc, w')) :
    ∃ ptr, w'.rdp.desc2conn.lookup desc = some ptr ∧ (w'.rdp.con ptr).addr = addr := by
  obtain ⟨⟨iss, w₁⟩, hrnd, h⟩ := bind_eq_ok h
  obtain ⟨⟨desc', w₂⟩, hgen, h⟩ := bind_eq_ok h
  obtain ⟨rest, rfl⟩ := rnd_eq_ok hrnd
  obtain ⟨-, rest', rfl⟩ := generateDesc_eq_ok hgen
  obtain ⟨rfl, rfl⟩ := Prod.mk.inj (Except.ok.inj h)
  refine ⟨w.rdp.nextPtr, AList.lookup_insert _, ?_⟩
  show ((withCon w.rdp _ _).con w.rdp.nextPtr).addr = addr
  rw [withCon_con_self]
  rfl

/-- Take any connections, any destination and any random numbers, and a call of `rdp::connect`
without a local port. The port at which its loop ends is as it should be exactly if every free
well known port that is drawn comes after a free port of the others. The connection that the
call makes has that port. -/
theorem allocatesWell_iff (w : World) (did : Id) (dport : BitVec 16) (func : Callback) :
    (AllocatesWell w did dport ↔ DrawsHigh w did dport) ∧
      ∀ desc w', connect 0 did dport func w = .ok (desc, w') →
        ∃ addr rest ptr, pickPort w.rdp.addr2conn did dport w.env.rnd = .ok (addr, rest) ∧
          w'.rdp.desc2conn.lookup desc = some ptr ∧ (w'.rdp.con ptr).addr = addr := by
  refine ⟨allocatesWell_iff_drawsHigh w did dport, fun desc w' h => ?_⟩
  rw [connect_run, if_neg (by decide)] at h
  obtain ⟨⟨addr, rest⟩, hpick, h⟩ := bind_eq_ok h
  obtain ⟨ptr, hptr, haddr⟩ := connectTo_addr h
  exact ⟨addr, rest, ptr, hpick, hptr, haddr⟩

/-- A node without connections draws 100 first. -/
def drawsHundred : World :=
  .start (.init default) { (default : Env) with rnd := [100, 1, 2000] }

/-- It connects from the port on which its DHT listens. -/
theorem drawsHundred_not_allocatesWell :
    (∃ w', connect 0 1 300 default drawsHundred = .ok (2000, w') ∧
      w'.rdp.desc2conn.lookup 2000 = some 0 ∧ (w'.rdp.con 0).addr = ⟨1, 300, 100⟩) ∧
      ¬ AllocatesWell drawsHundred 1 300 := by
  refine ⟨⟨_, rfl, rfl, rfl⟩, fun h => ?_⟩
  have hport := h ⟨1, 300, 100⟩ [1, 2000] rfl
  exact hport.noService (by decide)

end Libcage.Proofs.Rdp
