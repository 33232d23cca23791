import Mathlib.Data.List.Basic
import Mathlib.Tactic.Common

/-!
# `Libcage.Lib.Packets`: byte strings in packets

A sender cuts a byte string into packets of at most `n` bytes (`cut`), and no packet is
empty. A receiver with a buffer takes whole packets from a queue as long as they fit
(`receive`). A string that comes in its own packets is read piece by piece, as its packets
come, and a buffer of the size of what is left never reads beyond it (`receive_block`).

`receive_spec` says of any queue what is taken and why the next packet is left there. A
reader that waits for `n` elements gets stuck where no packet ends there (`EndsAt`), because
the packet that goes beyond is never taken (`not_endsAt`).
-/

set_option autoImplicit false

namespace Libcage.Lib

universe u
variable {α : Type u}

/-- The loop that cuts, with one round for each packet. -/
def cutLoop (n : Nat) : Nat → List α → List (List α)
  | 0, _ => []
  | rounds + 1, bs => if bs = [] then [] else bs.take n :: cutLoop n rounds (bs.drop n)

/-- The packets of a string, with at most `n` elements each. -/
def cut (n : Nat) (bs : List α) : List (List α) := cutLoop n bs.length bs

/-- Take packets from the queue as long as they fit into a buffer of `len`. -/
def receiveLoop (len : Nat) : List (List α) → List α → List α × List (List α)
  | [], dst => (dst, [])
  | p :: queue, dst =>
      if dst.length + p.length > len then (dst, p :: queue) else receiveLoop len queue (dst ++ p)

/-- What a buffer of `len` gets from the queue, and the queue that is left. -/
def receive (len : Nat) (queue : List (List α)) : List α × List (List α) :=
  receiveLoop len queue []

/-- Where nothing is taken, nothing is dropped. -/
theorem drop_of_take_nil {k : Nat} {queue : List α} (h : queue.take k = []) :
    queue.drop k = queue := by
  have hall := List.take_append_drop k queue
  rwa [h, List.nil_append] at hall

/-- The first packet is not empty. -/
def Starts (queue : List (List α)) : Prop := ∀ p rest, queue = p :: rest → p ≠ []

theorem cutLoop_spec {n : Nat} (hn : 0 < n) (rounds : Nat) :
    ∀ bs : List α, bs.length ≤ rounds →
      (cutLoop n rounds bs).flatten = bs ∧ ∀ p ∈ cutLoop n rounds bs, p ≠ [] := by
  induction rounds with
  | zero =>
    intro bs hbs
    rw [List.length_eq_zero_iff.mp (Nat.le_zero.mp hbs)]
    simp [cutLoop]
  | succ rounds ih =>
    intro bs hbs
    rw [cutLoop]
    split
    · rename_i hnil
      simp [hnil]
    · rename_i hne
      have hpos : 0 < bs.length := List.length_pos_iff_ne_nil.mpr hne
      have hlen : (bs.drop n).length ≤ rounds := by
        rw [List.length_drop]
        omega
      -- The rest is shorter by a packet, since `n` is positive.
      obtain ⟨hflat, hpackets⟩ := ih (bs.drop n) hlen
      constructor
      · rw [List.flatten_cons, hflat, List.take_append_drop]
      · intro p hp
        rcases List.mem_cons.mp hp with rfl | hp
        · rw [ne_eq, List.take_eq_nil_iff, not_or]
          exact ⟨Nat.pos_iff_ne_zero.mp hn, hne⟩
        · exact hpackets p hp

theorem length_le_of_mem_cutLoop (n rounds : Nat) :
    ∀ bs : List α, ∀ p ∈ cutLoop n rounds bs, p.length ≤ n := by
  induction rounds with
  | zero =>
    intro bs p hp
    cases hp
  | succ rounds ih =>
    intro bs p hp
    rw [cutLoop] at hp
    split at hp
    · cases hp
    · rcases List.mem_cons.mp hp with rfl | hp
      · exact List.length_take_le n bs
      · exact ih (bs.drop n) p hp

theorem length_le_of_mem_cut (n : Nat) (bs : List α) : ∀ p ∈ cut n bs, p.length ≤ n :=
  length_le_of_mem_cutLoop n bs.length bs

section
variable {n : Nat} (hn : 0 < n) (bs : List α)
include hn

/-- The packets are the string. -/
theorem flatten_cut : (cut n bs).flatten = bs := (cutLoop_spec hn bs.length bs (Nat.le_refl _)).1

theorem ne_nil_of_mem_cut : ∀ p ∈ cut n bs, p ≠ [] :=
  (cutLoop_spec hn bs.length bs (Nat.le_refl _)).2

theorem cut_ne_nil (hbs : bs ≠ []) : cut n bs ≠ [] := by
  intro h
  have hflat := flatten_cut hn bs
  rw [h] at hflat
  exact hbs hflat.symm

end

/-- Rounds that are left over change nothing. -/
theorem cutLoop_succ {n : Nat} (hn : 0 < n) (rounds : Nat) :
    ∀ bs : List α, bs.length ≤ rounds → cutLoop n (rounds + 1) bs = cutLoop n rounds bs := by
  induction rounds with
  | zero =>
    intro bs hbs
    rw [List.length_eq_zero_iff.mp (Nat.le_zero.mp hbs)]
    rfl
  | succ rounds ih =>
    intro bs hbs
    show (if bs = [] then [] else bs.take n :: cutLoop n (rounds + 1) (bs.drop n)) =
      if bs = [] then [] else bs.take n :: cutLoop n rounds (bs.drop n)
    split
    · rfl
    · rename_i hne
      have hpos : 0 < bs.length := List.length_pos_iff_ne_nil.mpr hne
      rw [ih (bs.drop n) (by rw [List.length_drop]; omega)]

theorem cutLoop_add {n : Nat} (hn : 0 < n) (bs : List α) (k : Nat) :
    cutLoop n (bs.length + k) bs = cut n bs := by
  induction k with
  | zero => rfl
  | succ k ih => rw [← Nat.add_assoc, cutLoop_succ hn _ bs (Nat.le_add_right ..), ih]

/-- The first packet, and the rest of the string cut on its own. -/
theorem cut_eq_cons {n : Nat} (hn : 0 < n) {bs : List α} (hbs : bs ≠ []) :
    cut n bs = bs.take n :: cut n (bs.drop n) := by
  have hpos : 0 < bs.length := List.length_pos_iff_ne_nil.mpr hbs
  have hrounds : bs.length = (bs.drop n).length + (min n bs.length - 1) + 1 := by
    rw [List.length_drop]
    omega
  rw [cut, hrounds, cutLoop, if_neg hbs, cutLoop_add hn]

theorem starts_of_forall {queue : List (List α)} (h : ∀ p ∈ queue, p ≠ []) : Starts queue := by
  intro p rest hq
  exact h p (by rw [hq]; exact List.mem_cons_self ..)

theorem starts_append {queue queue' : List (List α)} (h : ∀ p ∈ queue, p ≠ [])
    (h' : Starts queue') : Starts (queue ++ queue') := by
  intro p rest hq
  cases queue with
  | nil => exact h' p rest hq
  | cons p' queue =>
    obtain ⟨rfl, -⟩ := List.cons.inj hq
    exact h _ (List.mem_cons_self ..)

theorem receiveLoop_block (todo : List (List α)) :
    ∀ (dst : List α) (queue later rest : List (List α)), queue ++ later = todo ++ rest →
      Starts rest →
      receiveLoop (dst.length + todo.flatten.length) queue dst =
        (dst ++ (queue.take todo.length).flatten, queue.drop todo.length) := by
  induction todo with
  | nil =>
    intro dst queue later rest h hstarts
    cases queue with
    | nil => simp [receiveLoop]
    | cons p queue =>
      -- The block has been read, and the next packet does not fit into nothing.
      have hp : p ≠ [] := hstarts p (queue ++ later) (by simpa using h.symm)
      have hpos : 0 < p.length := List.length_pos_iff_ne_nil.mpr hp
      rw [receiveLoop, if_pos (by simpa using hpos)]
      simp
  | cons t todo ih =>
    intro dst queue later rest h hstarts
    cases queue with
    | nil => simp [receiveLoop]
    | cons p queue =>
      rw [List.cons_append, List.cons_append] at h
      obtain ⟨rfl, htail⟩ := List.cons.inj h
      rw [receiveLoop, if_neg (by simp)]
      have hnext := ih (dst ++ p) queue later rest htail hstarts
      rw [List.length_append] at hnext
      rw [List.flatten_cons, List.length_append, ← Nat.add_assoc, hnext]
      simp

/-- A queue that is a part of a block and what follows it: the buffer for the block gets what
of it has come. -/
theorem receive_block {todo queue later rest : List (List α)}
    (h : queue ++ later = todo ++ rest) (hstarts : Starts rest) :
    receive todo.flatten.length queue =
      ((queue.take todo.length).flatten, queue.drop todo.length) := by
  have hloop := receiveLoop_block todo [] queue later rest h hstarts
  simpa [receive] using hloop

theorem receiveLoop_le (len : Nat) (queue : List (List α)) :
    ∀ dst : List α, (receiveLoop len queue dst).2.length ≤ queue.length := by
  induction queue with
  | nil =>
    intro dst
    exact Nat.le_refl _
  | cons p queue ih =>
    intro dst
    rw [receiveLoop]
    split
    · exact Nat.le_refl _
    · exact Nat.le_succ_of_le (ih (dst ++ p))

theorem receiveLoop_length (len : Nat) (queue : List (List α)) :
    ∀ dst : List α, (receiveLoop len queue dst).1 = dst ∨
      (receiveLoop len queue dst).2.length < queue.length := by
  cases queue with
  | nil =>
    intro dst
    exact Or.inl rfl
  | cons p queue =>
    intro dst
    rw [receiveLoop]
    split
    · exact Or.inl rfl
    · exact Or.inr (Nat.lt_succ_of_le (receiveLoop_le len queue (dst ++ p)))

/-- Who gets something leaves a shorter queue. -/
theorem receive_length {len : Nat} {queue : List (List α)} (h : (receive len queue).1 ≠ []) :
    (receive len queue).2.length < queue.length := by
  rcases receiveLoop_length len queue [] with hsame | hshort
  · exact absurd hsame h
  · exact hshort

/-- A loop with more rounds than there are packets has a first round, -/
theorem exists_round {queue : List (List α)} {rounds : Nat} (h : queue.length < rounds) :
    ∃ n, rounds = n + 1 :=
  Nat.exists_eq_succ_of_ne_zero (Nat.ne_of_gt (Nat.zero_lt_of_lt h))

/-- and another one where there is a packet. -/
theorem exists_next_round {queue : List (List α)} {rounds : Nat} (hne : queue ≠ [])
    (h : queue.length < rounds + 1) : ∃ n, rounds = n + 1 := by
  have hpos := List.length_pos_iff_ne_nil.mpr hne
  exact Nat.exists_eq_succ_of_ne_zero (by omega)

/-- A short string is one packet. -/
theorem cut_of_short {n : Nat} {bs : List α} (hbs : bs ≠ []) (hlen : bs.length ≤ n) :
    cut n bs = [bs] := by
  unfold cut
  cases hrounds : bs.length with
  | zero => exact absurd (List.length_eq_zero_iff.mp hrounds) hbs
  | succ rounds =>
    rw [cutLoop, if_neg hbs, List.take_of_length_le hlen, List.drop_eq_nil_of_le hlen]
    cases rounds with
    | zero => rfl
    | succ rounds => simp [cutLoop]

/-- Either all that has come is of the block, or the whole block has come. -/
theorem block_cases {todo queue later rest : List α} (h : queue ++ later = todo ++ rest) :
    (∃ todo', todo' ≠ [] ∧ todo = queue ++ todo' ∧ later = todo' ++ rest) ∨
      ∃ queue', queue = todo ++ queue' ∧ queue' ++ later = rest := by
  rcases List.append_eq_append_iff.mp h with ⟨todo', htodo, hlater⟩ | ⟨queue', hqueue, hrest⟩
  · by_cases hnil : todo' = []
    · subst hnil
      refine Or.inr ⟨[], ?_, ?_⟩
      · rw [htodo]
        simp
      · rw [hlater]
        simp
    · exact Or.inl ⟨todo', hnil, htodo, hlater⟩
  · exact Or.inr ⟨queue', hqueue, hrest.symm⟩

/-- Packets that are not empty have some bytes. -/
theorem flatten_ne_nil {packets : List (List α)} (h : packets ≠ [])
    (hpackets : ∀ p ∈ packets, p ≠ []) : packets.flatten ≠ [] := by
  intro hnil
  rw [List.flatten_eq_nil_iff] at hnil
  cases packets with
  | nil => exact h rfl
  | cons p packets =>
    exact hpackets p (List.mem_cons_self ..) (hnil p (List.mem_cons_self ..))

theorem length_lt_of_todo {a todo all : List α} (h : a ++ todo = all) (htodo : todo ≠ []) :
    a.length < all.length := by
  have hpos := List.length_pos_iff_ne_nil.mpr htodo
  rw [← h, List.length_append]
  omega

theorem sub_length_of_todo {a todo all : List α} (h : a ++ todo = all) :
    all.length - a.length = todo.length := by
  rw [← h, List.length_append]
  omega

/-- What has come of a block fits into the buffer for the rest of it. -/
theorem receive_part {todo queue later : List (List α)} {n : Nat} (hn : n = todo.flatten.length)
    {rest : List (List α)} (hqueue : queue ++ later = todo ++ rest) (hrest : Starts rest) :
    (∃ todo', todo' ≠ [] ∧ todo = queue ++ todo' ∧ later = todo' ++ rest ∧
        receive n queue = (queue.flatten, [])) ∨
      ∃ queue', queue = todo ++ queue' ∧ queue' ++ later = rest ∧
        receive n queue = (todo.flatten, queue') := by
  have hblock := receive_block hqueue hrest
  rw [← hn] at hblock
  rcases block_cases hqueue with ⟨todo', hne, htodo, hlater⟩ | ⟨queue', heq, hlater⟩
  · have hlen : queue.length ≤ todo.length := by
      rw [htodo, List.length_append]
      omega
    rw [List.take_of_length_le hlen, List.drop_eq_nil_of_le hlen] at hblock
    exact Or.inl ⟨todo', hne, htodo, hlater, hblock⟩
  · rw [heq, List.take_left, List.drop_left, ← heq] at hblock
    exact Or.inr ⟨queue', heq, hlater, hblock⟩

/-! ### Packets that were not cut for the reader -/

theorem receiveLoop_spec (len : Nat) (queue : List (List α)) :
    ∀ dst : List α, dst.length ≤ len → ∃ done, queue = done ++ (receiveLoop len queue dst).2 ∧
      (receiveLoop len queue dst).1 = dst ++ done.flatten ∧
      dst.length + done.flatten.length ≤ len ∧
      ∀ p rest, (receiveLoop len queue dst).2 = p :: rest →
        len < dst.length + done.flatten.length + p.length := by
  induction queue with
  | nil =>
    intro dst hdst
    refine ⟨[], rfl, by simp [receiveLoop], by simpa using hdst, ?_⟩
    intro p rest h
    cases h
  | cons p queue ih =>
    intro dst hdst
    rw [receiveLoop]
    split
    · rename_i hover
      refine ⟨[], rfl, by simp, by simpa using hdst, ?_⟩
      intro p' rest h
      obtain ⟨rfl, -⟩ := List.cons.inj h
      simpa using hover
    · rename_i hfits
      -- The packet fits, and the rest is taken after it.
      have hlen : (dst ++ p).length ≤ len := by
        rw [List.length_append]
        omega
      obtain ⟨done, hqueue, hbytes, hle, hover⟩ := ih (dst ++ p) hlen
      rw [List.length_append] at hle hover
      refine ⟨p :: done, ?_, ?_, ?_, ?_⟩
      · rw [List.cons_append, ← hqueue]
      · rw [hbytes, List.flatten_cons, List.append_assoc]
      · rw [List.flatten_cons, List.length_append]
        omega
      · intro p' rest h
        have hmore := hover p' rest h
        rw [List.flatten_cons, List.length_append]
        omega

/-- A buffer takes whole packets, and the next one does not fit. What it got it took out of the
queue. -/
theorem receive_spec (len : Nat) (queue : List (List α)) :
    ∃ done rest, receive len queue = (done.flatten, rest) ∧ queue = done ++ rest ∧
      done.flatten.length ≤ len ∧
      (∀ p more, rest = p :: more → len < done.flatten.length + p.length) ∧
      (done.flatten ≠ [] → rest.length < queue.length) := by
  obtain ⟨done, hqueue, hbytes, hle, hover⟩ := receiveLoop_spec len queue [] (Nat.zero_le _)
  simp only [List.length_nil, Nat.zero_add, List.nil_append] at hbytes hle hover
  have hgot : receive len queue = (done.flatten, (receive len queue).2) := Prod.ext hbytes rfl
  refine ⟨done, _, hgot, hqueue, hle, hover, fun hne => receive_length ?_⟩
  rwa [hgot]

/-- A packet ends behind the first `n` elements. -/
def EndsAt (n : Nat) (packets : List (List α)) : Prop :=
  ∃ done rest, packets = done ++ rest ∧ done.flatten.length = n

theorem EndsAt.append {n : Nat} {packets : List (List α)} (h : EndsAt n packets)
    (more : List (List α)) : EndsAt n (packets ++ more) := by
  obtain ⟨done, rest, hpackets, hlen⟩ := h
  refine ⟨done, rest ++ more, ?_, hlen⟩
  rw [hpackets, List.append_assoc]

theorem EndsAt.le {n : Nat} {packets : List (List α)} (h : EndsAt n packets) :
    n ≤ packets.flatten.length := by
  obtain ⟨done, rest, hpackets, hlen⟩ := h
  rw [hpackets, List.flatten_append, List.length_append]
  omega

/-- Packets that follow others. -/
theorem endsAt_append_left {n : Nat} (done packets : List (List α)) :
    EndsAt n packets → EndsAt (done.flatten.length + n) (done ++ packets) := by
  rintro ⟨done', rest, hpackets, hlen⟩
  refine ⟨done ++ done', rest, ?_, ?_⟩
  · rw [hpackets, List.append_assoc]
  · rw [List.flatten_append, List.length_append, hlen]

/-- No packet ends within one that begins before `n` and ends behind it. -/
theorem not_endsAt {n : Nat} {done rest : List (List α)} {p : List α}
    (hlt : done.flatten.length < n) (hover : n < done.flatten.length + p.length) :
    ¬ EndsAt n (done ++ p :: rest) := by
  rintro ⟨done', rest', hpackets, hlen⟩
  rcases List.append_eq_append_iff.mp hpackets with ⟨more, hdone', hmore⟩ | ⟨more, hdone, -⟩
  · cases more with
    | nil =>
      rw [hdone', List.append_nil] at hlen
      omega
    | cons q more =>
      obtain ⟨rfl, -⟩ := List.cons.inj hmore
      rw [hdone', List.flatten_append, List.flatten_cons, List.length_append,
        List.length_append] at hlen
      omega
  · rw [hdone, List.flatten_append, List.length_append] at hlt
    omega

/-- A buffer of `n` is filled exactly where a packet ends there. -/
theorem receive_full_iff {n : Nat} {queue : List (List α)} :
    (receive n queue).1.length = n ↔ EndsAt n queue := by
  obtain ⟨done, rest, hgot, hqueue, hle, hover, -⟩ := receive_spec n queue
  rw [hgot]
  dsimp only
  constructor
  · exact fun hlen => ⟨done, rest, hqueue, hlen⟩
  · intro hends
    by_contra hne
    have hlt : done.flatten.length < n := by omega
    cases hrest : rest with
    | nil =>
      have hlen := hends.le
      rw [hqueue, hrest, List.append_nil] at hlen
      omega
    | cons p rest =>
      rw [hqueue, hrest] at hends
      exact not_endsAt hlt (hover p rest hrest) hends

end Libcage.Lib
