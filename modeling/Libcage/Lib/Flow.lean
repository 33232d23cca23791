import Mathlib.Data.Set.Insert
import Mathlib.Logic.Function.Basic
import Mathlib.Logic.Relation

/-!
# `Libcage.Lib.Flow`: one direction of a selective-repeat protocol

A sender accepts items and sends them in order. The receiver stores the items that
arrive, in any order and any number of times, and hands over the longest complete
front. It acknowledges the front with a number (`acks`) and single items behind it
by their index (`eacks`). Both kinds of acknowledgement reach the sender late, out
of order, more than once or never.

A `Flow` is the state of one direction: what both ends know, and the
acknowledgements that were ever sent. The sender moves by `SendStep`, the receiver
by `RecvStep`. `Inv` is the invariant of all interleavings (`Inv.sendStep`,
`Inv.recvStep`), and it gives:

* `Inv.handedOver`: the items handed over are the front of those accepted;
* `Inv.una_notMem_eacks`: the first item that is not acknowledged was never
  acknowledged by its index.

The second fact needs the order of the receiver's steps. It acknowledges single
items only where the front is complete. So the front always jumps over an item that
it acknowledged before.
-/

set_option autoImplicit false

namespace Libcage.Lib

universe u
variable {α : Type u}

/-- One direction: the items accepted, the number of those sent and of those the
sender knows to be acknowledged; the items that arrived and the number of those
handed over; the acknowledgements ever sent. -/
structure Flow (α : Type u) where
  items : List α
  nxt : Nat
  una : Nat
  arrived : Nat → Option α
  got : Nat
  acks : Set Nat
  eacks : Set Nat

namespace Flow

/-- The start: nothing accepted, and the empty front acknowledged. -/
def init : Flow α where
  items := []
  nxt := 0
  una := 0
  arrived := fun _ => none
  got := 0
  acks := {0}
  eacks := ∅

/-- The sender accepts an item, sends the next one or takes an acknowledgement. -/
inductive SendStep (f : Flow α) : Flow α → Prop where
  | accept (x : α) : SendStep f { f with items := f.items ++ [x] }
  | send (h : f.nxt < f.items.length) : SendStep f { f with nxt := f.nxt + 1 }
  | ack {a : Nat} (ha : a ∈ f.acks) : SendStep f { f with una := a }

/-- The receiver stores a new item and completes the front, or acknowledges. -/
inductive RecvStep (f : Flow α) : Flow α → Prop where
  | arrive {j got : Nat} {x : α} (hx : f.items[j]? = some x) (hj : j < f.nxt)
      (hnew : f.arrived j = none) (hgot : f.got ≤ got)
      (hfull : ∀ i, f.got ≤ i → i < got → Function.update f.arrived j (some x) i ≠ none)
      (hfront : Function.update f.arrived j (some x) got = none) :
      RecvStep f { f with arrived := Function.update f.arrived j (some x), got := got }
  | ack : RecvStep f { f with acks := insert f.got f.acks }
  | eack {j : Nat} (hj : f.got < j) (harrived : f.arrived j ≠ none) :
      RecvStep f { f with eacks := insert j f.eacks }

/-- The sender's runs. -/
abbrev Sends : Flow α → Flow α → Prop := Relation.ReflTransGen SendStep

/-- The receiver's runs. -/
abbrev Receives : Flow α → Flow α → Prop := Relation.ReflTransGen RecvStep

/-- The invariant of all interleavings. -/
structure Inv (f : Flow α) : Prop where
  nxt_le : f.nxt ≤ f.items.length
  arrived : ∀ j x, f.arrived j = some x → j < f.nxt ∧ f.items[j]? = some x
  full : ∀ i, i < f.got → f.arrived i ≠ none
  front : f.arrived f.got = none
  una : f.una ∈ f.acks
  acks : ∀ a ∈ f.acks, a ≤ f.got
  eacks : ∀ j ∈ f.eacks, f.arrived j ≠ none ∧ j ∉ f.acks

theorem inv_init : Inv (init : Flow α) where
  nxt_le := Nat.le_refl 0
  arrived := fun _ _ h => nomatch h
  full := fun _ h => absurd h (Nat.not_lt_zero _)
  front := rfl
  una := rfl
  acks := fun _ h => Nat.le_of_eq h
  eacks := fun _ h => absurd h (Set.notMem_empty _)

section
variable {f f' : Flow α}

namespace Inv

/-- The front is not longer than what was sent. -/
theorem got_le (h : Inv f) : f.got ≤ f.nxt := by
  by_contra hlt
  obtain ⟨x, hx⟩ := Option.ne_none_iff_exists'.mp (h.full f.nxt (by omega))
  have := (h.arrived f.nxt x hx).1
  omega

/-- No acknowledgement runs ahead of what was sent. -/
theorem ack_le (h : Inv f) {a : Nat} (ha : a ∈ f.acks) : a ≤ f.nxt :=
  Nat.le_trans (h.acks a ha) h.got_le

/-- Nothing acknowledged by its index was not sent. -/
theorem eack_lt (h : Inv f) {j : Nat} (hj : j ∈ f.eacks) : j < f.nxt := by
  obtain ⟨x, hx⟩ := Option.ne_none_iff_exists'.mp (h.eacks j hj).1
  exact (h.arrived j x hx).1

/-- The first item that is not acknowledged was never acknowledged by its index. -/
theorem una_notMem_eacks (h : Inv f) : f.una ∉ f.eacks :=
  fun hmem => (h.eacks f.una hmem).2 h.una

/-- The items handed over are the front of those accepted. -/
theorem handedOver (h : Inv f) {i : Nat} (hi : i < f.got) : f.arrived i = f.items[i]? := by
  obtain ⟨x, hx⟩ := Option.ne_none_iff_exists'.mp (h.full i hi)
  rw [hx, (h.arrived i x hx).2]

/-- The sender's steps keep the invariant. -/
theorem sendStep (h : Inv f) (hs : SendStep f f') : Inv f' := by
  cases hs with
  | accept x =>
    refine { h with nxt_le := ?_, arrived := fun j y hy => ?_ }
    · have hlen : (f.items ++ [x]).length = f.items.length + 1 := List.length_append
      have := h.nxt_le
      show f.nxt ≤ (f.items ++ [x]).length
      omega
    · obtain ⟨hj, hitem⟩ := h.arrived j y hy
      have hlt : j < f.items.length := Nat.lt_of_lt_of_le hj h.nxt_le
      exact ⟨hj, by rw [List.getElem?_append_left hlt, hitem]⟩
  | send hlt =>
    refine { h with nxt_le := hlt, arrived := fun j y hy => ?_ }
    exact ⟨Nat.lt_succ_of_lt (h.arrived j y hy).1, (h.arrived j y hy).2⟩
  | ack ha => exact { h with una := ha }

/-- The receiver's steps keep the invariant. -/
theorem recvStep (h : Inv f) (hr : RecvStep f f') : Inv f' := by
  cases hr with
  | @arrive j got x hx hj hnew hgot hfull hfront =>
    -- What has arrived before stays, so the acknowledgements of it stay true.
    have hkeep : ∀ i, f.arrived i ≠ none → Function.update f.arrived j (some x) i ≠ none := by
      intro i hi
      by_cases hij : i = j
      · rw [hij, Function.update_self]
        exact Option.some_ne_none x
      · rwa [Function.update_of_ne hij]
    refine { h with
      arrived := fun i y hy => ?_
      full := fun i hi => ?_
      front := hfront
      acks := fun a ha => Nat.le_trans (h.acks a ha) hgot
      eacks := fun i hi => ⟨hkeep i (h.eacks i hi).1, (h.eacks i hi).2⟩ }
    · by_cases hij : i = j
      · have hy : Function.update f.arrived j (some x) i = some y := hy
        rw [hij, Function.update_self] at hy
        rw [hij, ← hy]
        exact ⟨hj, hx⟩
      · have hy : Function.update f.arrived j (some x) i = some y := hy
        rw [Function.update_of_ne hij] at hy
        exact h.arrived i y hy
    · -- Up to the old front all was there, and the new front is moved over what is there now.
      by_cases hlt : i < f.got
      · exact hkeep i (h.full i hlt)
      · exact hfull i (Nat.le_of_not_lt hlt) hi
  | ack =>
    refine { h with una := Set.mem_insert_of_mem _ h.una, acks := fun a ha => ?_, eacks := ?_ }
    · rcases ha with rfl | ha
      · exact Nat.le_refl _
      · exact h.acks a ha
    · intro j hj
      refine ⟨(h.eacks j hj).1, fun ha => ?_⟩
      rcases ha with rfl | ha
      · -- The front itself has not arrived, so no EACK names it.
        exact (h.eacks f.got hj).1 h.front
      · exact (h.eacks j hj).2 ha
  | @eack j hj harrived =>
    refine { h with eacks := fun i hi => ?_ }
    rcases hi with rfl | hi
    · refine ⟨harrived, fun ha => ?_⟩
      have := h.acks i ha
      omega
    · exact h.eacks i hi

end Inv

/-! ### What the other end's steps leave alone -/

/-- What the receiver holds is the same after the sender's steps, and what was
accepted and sent stays. -/
structure SendFrame (f f' : Flow α) : Prop where
  arrived : f'.arrived = f.arrived
  got : f'.got = f.got
  acks : f'.acks = f.acks
  eacks : f'.eacks = f.eacks
  sent : ∀ j x, j < f.nxt → f.items[j]? = some x → j < f'.nxt ∧ f'.items[j]? = some x

/-- What the sender holds is the same after the receiver's steps, and what was
acknowledged stays. -/
structure RecvFrame (f f' : Flow α) : Prop where
  items : f'.items = f.items
  nxt : f'.nxt = f.nxt
  una : f'.una = f.una
  acks : f.acks ⊆ f'.acks
  eacks : f.eacks ⊆ f'.eacks

theorem SendFrame.of_steps (h : Sends f f') : SendFrame f f' := by
  induction h with
  | refl => exact ⟨rfl, rfl, rfl, rfl, fun _ _ hj hx => ⟨hj, hx⟩⟩
  | tail _ hs ih =>
    cases hs with
    | accept x =>
      refine { ih with sent := fun j y hj hy => ?_ }
      obtain ⟨hj', hy'⟩ := ih.sent j y hj hy
      have hlt := (List.getElem?_eq_some_iff.mp hy').1
      exact ⟨hj', by rw [List.getElem?_append_left hlt, hy']⟩
    | send hlt =>
      refine { ih with sent := fun j y hj hy => ?_ }
      exact ⟨Nat.lt_succ_of_lt (ih.sent j y hj hy).1, (ih.sent j y hj hy).2⟩
    | ack ha => exact { ih with }

theorem RecvFrame.of_steps (h : Receives f f') : RecvFrame f f' := by
  induction h with
  | refl => exact ⟨rfl, rfl, rfl, subset_rfl, subset_rfl⟩
  | tail _ hr ih =>
    cases hr with
    | arrive => exact { ih with }
    | ack => exact { ih with acks := ih.acks.trans (Set.subset_insert _ _) }
    | eack => exact { ih with eacks := ih.eacks.trans (Set.subset_insert _ _) }

theorem Inv.sendSteps (h : Inv f) (hs : Sends f f') : Inv f' := by
  induction hs with
  | refl => exact h
  | tail _ hs ih => exact ih.sendStep hs

theorem Inv.recvSteps (h : Inv f) (hr : Receives f f') : Inv f' := by
  induction hr with
  | refl => exact h
  | tail _ hr ih => exact ih.recvStep hr

/-- The sender accepts several items. -/
theorem accepts (f : Flow α) (xs : List α) : Sends f { f with items := f.items ++ xs } := by
  induction xs generalizing f with
  | nil =>
    rw [List.append_nil]
  | cons x xs ih =>
    have hrest := ih { f with items := f.items ++ [x] }
    rw [List.append_assoc, List.singleton_append] at hrest
    exact .head (SendStep.accept x) hrest

/-- The sender sends several items. -/
theorem sends (f : Flow α) {n : Nat} (hle : f.nxt ≤ n) (hn : n ≤ f.items.length) :
    Sends f { f with nxt := n } := by
  obtain ⟨d, rfl⟩ := Nat.exists_eq_add_of_le hle
  clear hle
  induction d with
  | zero => exact .refl
  | succ d ih =>
    refine (ih (by omega)).tail ?_
    exact SendStep.send (f := { f with nxt := f.nxt + d })
      (by show f.nxt + d < f.items.length; omega)

/-- The receiver acknowledges several items by their index. -/
theorem eackAll (f : Flow α) {js : List Nat} (hjs : ∀ j ∈ js, f.got < j ∧ f.arrived j ≠ none) :
    Receives f { f with eacks := {j | j ∈ js} ∪ f.eacks } := by
  induction js with
  | nil =>
    rw [show ({j | j ∈ ([] : List Nat)} ∪ f.eacks : Set Nat) = f.eacks by simp]
  | cons j js ih =>
    have hset : ({i | i ∈ j :: js} ∪ f.eacks : Set Nat) = insert j ({i | i ∈ js} ∪ f.eacks) := by
      ext i
      simp [or_assoc]
    obtain ⟨hj, hjs⟩ := List.forall_mem_cons.mp hjs
    rw [hset]
    exact (ih hjs).tail (RecvStep.eack (f := { f with eacks := _ }) hj.1 hj.2)

end

end Flow

end Libcage.Lib
