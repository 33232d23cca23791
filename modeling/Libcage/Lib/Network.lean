import Mathlib.Data.Set.Basic
import Mathlib.Logic.Function.Basic
import Libcage.Lib.Run

/-!
# `Libcage.Lib.Network`: nodes that send messages to each other

`Party` is a program that runs on every node: what it does by itself (`act`), what it does with
a message (`recv`), and the messages that it has sent. A network may lose a message, and may
deliver it late, twice or in another order than it was sent. `reach` says which message of a
node comes to which node, and `α` is what the receiver is told about it, such as the address
that it comes from.

* `Keeps.wire_run`: a message that was sent stays sent.
* `holds_run`: the invariant of a node may speak of all messages that were sent. It holds in
  every run where each event on a node, and each message from a node with the invariant, keeps
  it (`NetInv`).
-/

set_option autoImplicit false

namespace Libcage.Lib

universe u v

variable {ν σ ε : Type u} {ι π α : Type v}

/-- A program that runs on every node. -/
structure Party (σ ε : Type u) (ι π α : Type v) where
  act : σ → ι → Except ε σ
  recv : σ → α → π → Except ε σ
  sent : σ → List π

/-- An event on one node. -/
inductive NetInput (ν : Type u) (ι π α : Type v) where
  | act (n : ν) (i : ι)
  | deliver (src : ν) (p : π) (dst : ν) (a : α)

namespace Party

/-- All messages that were sent. -/
def wire (P : Party σ ε ι π α) (nodes : ν → σ) : Set (ν × π) := { m | m.2 ∈ P.sent (nodes m.1) }

theorem mem_wire {P : Party σ ε ι π α} {nodes : ν → σ} {n : ν} {p : π} :
    (n, p) ∈ P.wire nodes ↔ p ∈ P.sent (nodes n) := Iff.rfl

/-- A program that takes back no message. -/
structure Keeps (P : Party σ ε ι π α) : Prop where
  act : ∀ s i s', P.act s i = .ok s' → P.sent s ⊆ P.sent s'
  recv : ∀ s a p s', P.recv s a p = .ok s' → P.sent s ⊆ P.sent s'

theorem wire_update [DecidableEq ν] {P : Party σ ε ι π α} {nodes : ν → σ} {n : ν} {s : σ}
    (h : P.sent (nodes n) ⊆ P.sent s) : P.wire nodes ⊆ P.wire (Function.update nodes n s) := by
  rintro ⟨m, p⟩ hp
  rw [mem_wire] at hp ⊢
  by_cases hm : m = n
  · subst hm
    rw [Function.update_self]
    exact h hp
  · rw [Function.update_of_ne hm]
    exact hp

/-- What holds of every node and of all messages. -/
def Holds (P : Party σ ε ι π α) (J : Set (ν × π) → ν → σ → Prop) (nodes : ν → σ) : Prop :=
  ∀ n, J (P.wire nodes) n (nodes n)

/-- An invariant of a node that speaks of the messages that were sent. A message brings the
invariant of the node that it comes from. -/
structure NetInv (P : Party σ ε ι π α) (reach : ν → π → ν → α → Prop)
    (J : Set (ν × π) → ν → σ → Prop) : Prop where
  mono : ∀ {W W' : Set (ν × π)} {n : ν} {s : σ}, W ⊆ W' → J W n s → J W' n s
  act : ∀ {W : Set (ν × π)} {n : ν} {s : σ} {i : ι} {s' : σ}, J W n s → P.act s i = .ok s' →
    (∀ p ∈ P.sent s', (n, p) ∈ W) → J W n s'
  recv : ∀ {W : Set (ν × π)} {src : ν} {t : σ} {p : π} {dst : ν} {s : σ} {a : α} {s' : σ},
    J W src t → p ∈ P.sent t → reach src p dst a → J W dst s → P.recv s a p = .ok s' →
      (src, p) ∈ W → (∀ p ∈ P.sent s', (dst, p) ∈ W) → J W dst s'

/-- One node takes a step. -/
theorem Holds.update [DecidableEq ν] {P : Party σ ε ι π α} {reach : ν → π → ν → α → Prop}
    {nodes : ν → σ} {J : Set (ν × π) → ν → σ → Prop} (hJ : NetInv P reach J)
    (h : Holds P J nodes) {n : ν} {s : σ} (hsent : P.sent (nodes n) ⊆ P.sent s)
    (hs : J (P.wire (Function.update nodes n s)) n s) : Holds P J (Function.update nodes n s) := by
  intro m
  by_cases hm : m = n
  · subst hm
    rwa [Function.update_self]
  · rw [Function.update_of_ne hm]
    exact hJ.mono (wire_update hsent) (h m)

section
variable [DecidableEq ν] [DecidableEq π] (P : Party σ ε ι π α) (reach : ν → π → ν → α → Prop)
  [∀ src p dst a, Decidable (reach src p dst a)]

/-- One event. Only what was sent is delivered. -/
def step (nodes : ν → σ) : NetInput ν ι π α → Except ε (ν → σ)
  | .act n i => do
      let s ← P.act (nodes n) i
      return Function.update nodes n s
  | .deliver src p dst a =>
      if p ∈ P.sent (nodes src) ∧ reach src p dst a then do
        let s ← P.recv (nodes dst) a p
        return Function.update nodes dst s
      else
        .ok nodes

end

/-! ### One event -/

section
variable [DecidableEq ν] [DecidableEq π] {P : Party σ ε ι π α} {reach : ν → π → ν → α → Prop}
  [∀ src p dst a, Decidable (reach src p dst a)] {nodes nodes' : ν → σ}

/-- A message that is delivered. -/
structure Delivered (P : Party σ ε ι π α) (reach : ν → π → ν → α → Prop) (nodes : ν → σ)
    (src : ν) (p : π) (dst : ν) (a : α) : Prop where
  sent : p ∈ P.sent (nodes src)
  reach : reach src p dst a

/-- What an event does: nothing, or one step of one node. -/
inductive Moved (P : Party σ ε ι π α) (reach : ν → π → ν → α → Prop) (nodes : ν → σ) :
    NetInput ν ι π α → (ν → σ) → Prop
  | act (n : ν) (i : ι) (s : σ) (hs : P.act (nodes n) i = .ok s) :
      Moved P reach nodes (.act n i) (Function.update nodes n s)
  | recv (src : ν) (p : π) (dst : ν) (a : α) (s : σ) (hp : Delivered P reach nodes src p dst a)
      (hs : P.recv (nodes dst) a p = .ok s) :
      Moved P reach nodes (.deliver src p dst a) (Function.update nodes dst s)
  | lost (src : ν) (p : π) (dst : ν) (a : α) : Moved P reach nodes (.deliver src p dst a) nodes

theorem moved_of_step {i : NetInput ν ι π α} (h : P.step reach nodes i = .ok nodes') :
    Moved P reach nodes i nodes' := by
  cases i with
  | act n i =>
    obtain ⟨s, hs, h⟩ := bind_eq_ok h
    rw [← Except.ok.inj h]
    exact .act n i s hs
  | deliver src p dst a =>
    rw [step] at h
    split at h
    · rename_i hp
      obtain ⟨s, hs, h⟩ := bind_eq_ok h
      rw [← Except.ok.inj h]
      exact .recv src p dst a s ⟨hp.1, hp.2⟩ hs
    · rw [← Except.ok.inj h]
      exact .lost src p dst a

/-- What is delivered is received. -/
theorem step_deliver {src dst : ν} {p : π} {a : α} (hp : Delivered P reach nodes src p dst a)
    {s : σ} (hs : P.recv (nodes dst) a p = .ok s) :
    P.step reach nodes (.deliver src p dst a) = .ok (Function.update nodes dst s) := by
  rw [step, if_pos ⟨hp.sent, hp.reach⟩, hs, ok_bind]
  rfl

theorem Keeps.wire_step (h : P.Keeps) {i : NetInput ν ι π α}
    (hstep : P.step reach nodes i = .ok nodes') : P.wire nodes ⊆ P.wire nodes' := by
  cases moved_of_step hstep with
  | act n i s hs => exact wire_update (h.act _ _ _ hs)
  | recv src p dst a s hp hs => exact wire_update (h.recv _ _ _ _ hs)
  | lost => exact Set.Subset.refl _

/-! ### Runs -/

/-- A message that was sent stays sent. -/
theorem Keeps.wire_run (h : P.Keeps) {is : List (NetInput ν ι π α)}
    (hrun : run (P.step reach) nodes is = .ok nodes') : P.wire nodes ⊆ P.wire nodes' := by
  induction is generalizing nodes with
  | nil =>
    rw [← Except.ok.inj hrun]
  | cons i is ih =>
    obtain ⟨nodes₁, hs, hrest⟩ := bind_eq_ok hrun
    exact (h.wire_step hs).trans (ih hrest)

theorem holds_step {J : Set (ν × π) → ν → σ → Prop} (hJ : NetInv P reach J) (hkeeps : P.Keeps)
    {i : NetInput ν ι π α} (h : Holds P J nodes) (hstep : P.step reach nodes i = .ok nodes') :
    Holds P J nodes' := by
  have hown : ∀ {n : ν} {s : σ}, ∀ p ∈ P.sent s, (n, p) ∈ P.wire (Function.update nodes n s) := by
    intro n s p hp
    rw [mem_wire, Function.update_self]
    exact hp
  cases moved_of_step hstep with
  | act n i s hs =>
    have hsent := hkeeps.act _ _ _ hs
    exact h.update hJ hsent (hJ.act (hJ.mono (wire_update hsent) (h n)) hs hown)
  | recv src p dst a s hp hs =>
    have hsent := hkeeps.recv _ _ _ _ hs
    have hmore := wire_update (n := dst) hsent
    exact h.update hJ hsent (hJ.recv (hJ.mono hmore (h src)) hp.sent hp.reach
      (hJ.mono hmore (h dst)) hs (hmore hp.sent) hown)
  | lost => exact h

/-- The invariant holds in every run. -/
theorem holds_run {J : Set (ν × π) → ν → σ → Prop} (hJ : NetInv P reach J) (hkeeps : P.Keeps)
    {is : List (NetInput ν ι π α)} (h : Holds P J nodes)
    (hrun : run (P.step reach) nodes is = .ok nodes') : Holds P J nodes' := by
  induction is generalizing nodes with
  | nil =>
    rw [← Except.ok.inj hrun]
    exact h
  | cons i is ih =>
    obtain ⟨nodes₁, hs, hrest⟩ := bind_eq_ok hrun
    exact ih (holds_step hJ hkeeps h hs) hrest

end

end Party

end Libcage.Lib
