import Mathlib.Data.List.AList

/-!
# `Libcage.Lib.Index`: nested tables

Tables are association lists with distinct keys. `lookup_insert_eq_some` and
`lookup_erase_eq_some` say what is in a table after a write, and `map_lookup_insert` and
`map_lookup_erase` what its records are mapped to. `filterMap` goes over a table
and keeps, changes or drops each entry. An `Index` is a table of tables of tables, as a
map of maps of sets is one. `row` is the innermost table at two keys, and is empty where
there is none. Each operation comes with what it does to the rows: `row_put`, `row_prune`
and `row_filterMap`.

A row or a map that became empty is taken out by `prune` and `sweep`, and this cannot be
seen in the rows.
-/

set_option autoImplicit false

namespace Libcage.Lib

universe u
variable {ι κ ν α β : Type u}

/-! ### Tables -/

section
variable (f : κ → α → Option β)

/-- The entries that `f` keeps. -/
def filterEntries (l : List (Sigma fun _ : κ => α)) : List (Sigma fun _ : κ => β) :=
  l.filterMap fun e => (f e.1 e.2).map (Sigma.mk e.1)

theorem keys_filterEntries_sublist (l : List (Sigma fun _ : κ => α)) :
    (filterEntries f l).keys.Sublist l.keys := by
  induction l with
  | nil => exact List.Sublist.slnil
  | cons e l ih =>
    rw [List.keys_cons]
    cases he : f e.1 e.2 with
    | none =>
      rw [filterEntries, List.filterMap_cons_none (by simp [he])]
      exact ih.cons _
    | some b =>
      rw [filterEntries, List.filterMap_cons_some (b := ⟨e.1, b⟩) (by simp [he]), List.keys_cons]
      exact ih.cons_cons _

/-- Go over a table and keep what `f` gives. -/
def filterMap (t : AList fun _ : κ => α) : AList fun _ : κ => β :=
  ⟨filterEntries f t.entries, (keys_filterEntries_sublist f t.entries).nodup t.nodupKeys⟩

@[simp] theorem filterMap_empty : filterMap f (∅ : AList fun _ : κ => α) = ∅ := rfl

variable [DecidableEq κ]

/-- What is in a table after a record was written. -/
theorem lookup_insert_eq_some {t : AList fun _ : κ => α} {k k' : κ} {a a' : α} :
    (t.insert k a).lookup k' = some a' ↔ (k' = k ∧ a' = a) ∨ (k' ≠ k ∧ t.lookup k' = some a') := by
  by_cases hk : k' = k
  · subst hk
    simp [eq_comm]
  · simp [AList.lookup_insert_ne hk, hk]

/-- What is in a table after a record was taken out. -/
theorem lookup_erase_eq_some {t : AList fun _ : κ => α} {k k' : κ} {a : α} :
    (t.erase k).lookup k' = some a ↔ k' ≠ k ∧ t.lookup k' = some a := by
  by_cases hk : k' = k
  · subst hk
    simp
  · simp [AList.lookup_erase_ne hk, hk]

/-- What the records of a table are mapped to, after a record was written. -/
theorem map_lookup_insert (t : AList fun _ : κ => α) (g : α → β) (k : κ) (a : α) :
    (fun k' => ((t.insert k a).lookup k').map g) =
      Function.update (fun k' => (t.lookup k').map g) k (some (g a)) := by
  funext k'
  by_cases hk : k' = k
  · subst hk
    simp
  · simp [AList.lookup_insert_ne hk, hk]

/-- What the records of a table are mapped to, after a record was taken out. -/
theorem map_lookup_erase (t : AList fun _ : κ => α) (g : α → β) (k : κ) :
    (fun k' => ((t.erase k).lookup k').map g) =
      Function.update (fun k' => (t.lookup k').map g) k none := by
  funext k'
  by_cases hk : k' = k
  · subst hk
    simp
  · simp [AList.lookup_erase_ne hk, hk]

theorem dlookup_filterEntries {l : List (Sigma fun _ : κ => α)} (hl : l.NodupKeys) (k : κ) :
    (filterEntries f l).dlookup k = (l.dlookup k).bind (f k) := by
  induction l with
  | nil => rfl
  | cons e l ih =>
    rw [List.nodupKeys_cons] at hl
    obtain ⟨hnot, hl⟩ := hl
    -- The key of the first entry is in none behind it, so a filter leaves it out there too.
    have hfresh : (filterEntries f l).dlookup e.1 = none := by
      rw [List.dlookup_eq_none]
      exact fun hmem => hnot ((keys_filterEntries_sublist f l).subset hmem)
    by_cases hk : k = e.1
    · subst hk
      cases he : f e.1 e.2 with
      | none =>
        rw [filterEntries, List.filterMap_cons_none (by simp [he])]
        refine hfresh.trans ?_
        rw [← Sigma.eta e, List.dlookup_cons_eq, Option.bind_some]
        exact he.symm
      | some b =>
        rw [filterEntries, List.filterMap_cons_some (b := ⟨e.1, b⟩) (by simp [he]),
          List.dlookup_cons_eq, ← Sigma.eta e, List.dlookup_cons_eq, Option.bind_some]
        exact he.symm
    · rw [List.dlookup_cons_ne _ _ hk, ← ih hl]
      cases he : f e.1 e.2 with
      | none => rw [filterEntries, List.filterMap_cons_none (by simp [he])]; rfl
      | some b =>
        rw [filterEntries, List.filterMap_cons_some (b := ⟨e.1, b⟩) (by simp [he]),
          List.dlookup_cons_ne _ (⟨e.1, b⟩ : Sigma fun _ : κ => β) hk]
        rfl

@[simp] theorem lookup_filterMap (t : AList fun _ : κ => α) (k : κ) :
    (filterMap f t).lookup k = (t.lookup k).bind (f k) :=
  dlookup_filterEntries f t.nodupKeys k

end

/-- A table that is not empty. -/
def nonEmpty (t : AList fun _ : κ => α) : Option (AList fun _ : κ => α) :=
  if t.entries = [] then none else some t

theorem eq_empty_of_entries {t : AList fun _ : κ => α} (h : t.entries = []) : t = ∅ :=
  AList.ext h

@[simp] theorem getD_nonEmpty (t : AList fun _ : κ => α) : (nonEmpty t).getD ∅ = t := by
  unfold nonEmpty
  split
  · rename_i h
    rw [Option.getD_none, eq_empty_of_entries h]
  · rfl

/-- Put a table in its place, or take it out when it is empty. -/
def insertNonEmpty [DecidableEq κ] (t : AList fun _ : κ => AList fun _ : ν => α) (k : κ)
    (set : AList fun _ : ν => α) : AList fun _ : κ => AList fun _ : ν => α :=
  if set.entries = [] then t.erase k else t.insert k set

theorem lookup_insertNonEmpty [DecidableEq κ] (t : AList fun _ : κ => AList fun _ : ν => α)
    (k l : κ) (set : AList fun _ : ν => α) :
    (insertNonEmpty t k set).lookup l = if l = k then nonEmpty set else t.lookup l := by
  unfold insertNonEmpty nonEmpty
  split
  · split
    · rename_i hl
      rw [hl, AList.lookup_erase]
    · rename_i hl
      rw [AList.lookup_erase_ne hl]
  · split
    · rename_i hl
      rw [hl, AList.lookup_insert]
    · rename_i hl
      rw [AList.lookup_insert_ne hl]

/-! ### Tables of tables of tables -/

/-- A table of tables of tables. -/
abbrev Index (ι κ ν α : Type u) : Type u :=
  AList fun _ : ι => AList fun _ : κ => AList fun _ : ν => α

namespace Index
variable [DecidableEq ι] [DecidableEq κ]

/-- The row at a key of a table that may be missing. -/
def rowIn (map : Option (AList fun _ : κ => AList fun _ : ν => α)) (k : κ) : AList fun _ : ν => α :=
  (map.bind fun map => map.lookup k).getD ∅

/-- The row at two keys. -/
def row (m : Index ι κ ν α) (i : ι) (k : κ) : AList fun _ : ν => α := rowIn (m.lookup i) k

/-- Put a row in its place. -/
def put (m : Index ι κ ν α) (i : ι) (k : κ) (set : AList fun _ : ν => α) : Index ι κ ν α :=
  m.insert i (((m.lookup i).getD ∅).insert k set)

/-- Put a row in its place in the table that is there, and take out what is empty. -/
def prune (m : Index ι κ ν α) (i : ι) (map : AList fun _ : κ => AList fun _ : ν => α) (k : κ)
    (set : AList fun _ : ν => α) : Index ι κ ν α :=
  insertNonEmpty m i (insertNonEmpty map k set)

/-- Go over the rows of a table and take out what is empty then. -/
def sweep (f : κ → ν → α → Option α) (map : AList fun _ : κ => AList fun _ : ν => α) :
    Option (AList fun _ : κ => AList fun _ : ν => α) :=
  nonEmpty (filterMap (fun k set => nonEmpty (filterMap (f k) set)) map)

section
variable (m : Index ι κ ν α) (i j : ι) (k l : κ) (set : AList fun _ : ν => α)

@[simp] theorem rowIn_none :
    rowIn (none : Option (AList fun _ : κ => AList fun _ : ν => α)) k = ∅ :=
  rfl

theorem rowIn_insert (map : AList fun _ : κ => AList fun _ : ν => α) :
    rowIn (some (map.insert k set)) l = if l = k then set else rowIn (some map) l := by
  unfold rowIn
  rw [Option.bind_some, Option.bind_some]
  split
  · rename_i h
    rw [h, AList.lookup_insert, Option.getD_some]
  · rename_i h
    rw [AList.lookup_insert_ne h]

theorem rowIn_getD_empty (map : Option (AList fun _ : κ => AList fun _ : ν => α)) :
    rowIn (some (map.getD ∅)) k = rowIn map k := by
  cases map with
  | none => rfl
  | some map => rfl

theorem row_put : (m.put i k set).row j l = if j = i ∧ l = k then set else m.row j l := by
  unfold row put
  by_cases hj : j = i
  · rw [hj, AList.lookup_insert, rowIn_insert, rowIn_getD_empty]
    simp
  · rw [AList.lookup_insert_ne hj, if_neg (fun h => hj h.1)]

theorem row_of_lookup {map : AList fun _ : κ => AList fun _ : ν => α} (h : m.lookup i = some map) :
    m.row i k = rowIn (some map) k := by
  rw [row, h]

theorem rowIn_of_lookup {map : AList fun _ : κ => AList fun _ : ν => α}
    {set : AList fun _ : ν => α} (h : map.lookup k = some set) : rowIn (some map) k = set := by
  rw [rowIn, Option.bind_some, h, Option.getD_some]

theorem rowIn_nonEmpty (map : AList fun _ : κ => AList fun _ : ν => α) :
    rowIn (nonEmpty map) k = rowIn (some map) k := by
  rw [← rowIn_getD_empty k (nonEmpty map), getD_nonEmpty]

theorem row_prune {map : AList fun _ : κ => AList fun _ : ν => α} (h : m.lookup i = some map) :
    (m.prune i map k set).row j l = if j = i ∧ l = k then set else m.row j l := by
  unfold row prune
  rw [lookup_insertNonEmpty]
  by_cases hj : j = i
  · rw [if_pos hj, rowIn_nonEmpty, rowIn, Option.bind_some, lookup_insertNonEmpty, hj, h]
    by_cases hl : l = k
    · rw [if_pos hl, if_pos ⟨rfl, hl⟩, getD_nonEmpty]
    · rw [if_neg hl, if_neg (fun h => hl h.2), rowIn, Option.bind_some]
  · rw [if_neg hj, if_neg (fun h => hj h.1)]

/-- A sweep does the same to every row. -/
theorem rowIn_sweep (f : κ → ν → α → Option α) (map : AList fun _ : κ => AList fun _ : ν => α) :
    rowIn (sweep f map) k = filterMap (f k) (rowIn (some map) k) := by
  rw [sweep, rowIn_nonEmpty, rowIn, rowIn, Option.bind_some, Option.bind_some, lookup_filterMap]
  cases map.lookup k with
  | none => rfl
  | some set => rw [Option.bind_some, getD_nonEmpty, Option.getD_some]

theorem row_filterMap (g : ι → (AList fun _ : κ => AList fun _ : ν => α) →
      Option (AList fun _ : κ => AList fun _ : ν => α)) :
    row (filterMap g m) i k = rowIn ((m.lookup i).bind (g i)) k := by
  rw [row, lookup_filterMap]

end

end Index

end Libcage.Lib
