import Mathlib.Data.List.AList

/-!
# Keyed tables

A table is an association list without duplicate keys. The operations are the
statements a repository issues: read one row, insert one row, update one row under
a predicate and learn whether it matched, update or delete every row that matches,
insert the rows that are missing, and ask whether a matching row exists. Each is described
by what it does to a lookup.
-/

namespace Rheostream

universe u v

/-- The `WHERE` beyond the key and the `SET` of a predicated update of one row. -/
structure RowUpdate (V : Type v) where
  /-- The rest of the predicate. -/
  guard : V → Bool
  /-- The new row, as a function of the old one. -/
  set : V → V

/-- A predicated update of one row: `none` is a rowcount of zero. -/
def RowUpdate.apply {V : Type v} (u : RowUpdate V) (row : V) : Option V :=
  if u.guard row then some (u.set row) else none

section RowUpdate

variable {V : Type v} {w : RowUpdate V} {row row' : V}

theorem RowUpdate.apply_eq_some :
    w.apply row = some row' ↔ w.guard row = true ∧ row' = w.set row := by
  rw [RowUpdate.apply, Option.ite_none_right_eq_some, Option.some.injEq, @eq_comm V row']

theorem RowUpdate.apply_eq_none : w.apply row = none ↔ w.guard row = false := by
  simp only [RowUpdate.apply, ite_eq_right_iff, reduceCtorEq, imp_false, Bool.not_eq_true]

end RowUpdate

/-- A table with primary key `K` and rows `V`. -/
abbrev Table (K : Type u) (V : Type v) := AList fun _ : K => V

namespace Table

variable {K : Type u} {V : Type v} [DecidableEq K]

@[simp] theorem lookup_insert (t : Table K V) (k k' : K) (v : V) :
    (t.insert k v).lookup k' = if k' = k then some v else t.lookup k' := by
  by_cases h : k' = k
  · subst h
    simp
  · rw [if_neg h]
    exact AList.lookup_insert_ne h

variable {t : Table K V} {v : V}

theorem lookup_erase_eq_some {k k' : K} :
    (t.erase k).lookup k' = some v ↔ k' ≠ k ∧ t.lookup k' = some v := by
  by_cases h : k' = k
  · subst h
    simp
  · rw [AList.lookup_erase_ne h]
    simp [h]

/-- `UPDATE … SET … WHERE key = k AND …`. `none` is a rowcount of zero. -/
def updateRow (t : Table K V) (k : K) (w : RowUpdate V) : Option (Table K V) :=
  match t.lookup k with
  | none => none
  | some row => (w.apply row).map fun row' => t.insert k row'

variable {k : K}

/-- A predicated update applies exactly when the row is there and matches. -/
theorem updateRow_eq_some {t t' : Table K V} {w : RowUpdate V} :
    t.updateRow k w = some t' ↔
      ∃ row, t.lookup k = some row ∧ w.guard row = true ∧ t' = t.insert k (w.set row) := by
  unfold updateRow RowUpdate.apply
  cases t.lookup k with
  | none => simp
  | some row =>
    simp only [Option.map_eq_some_iff, Option.ite_none_right_eq_some, Option.some.injEq,
      exists_eq_left', @eq_comm _ t']
    constructor
    · rintro ⟨_, ⟨hguard, rfl⟩, rfl⟩
      exact ⟨hguard, rfl⟩
    · rintro ⟨hguard, rfl⟩
      exact ⟨_, ⟨hguard, rfl⟩, rfl⟩

/-- A predicated update has rowcount zero when the row is missing or does not match. -/
theorem updateRow_eq_none {w : RowUpdate V} :
    t.updateRow k w = none ↔ ∀ row, t.lookup k = some row → w.guard row = false := by
  unfold updateRow
  cases t.lookup k with
  | none => simp
  | some row => simp [RowUpdate.apply_eq_none]

/-- A predicated update of one row whose rowcount nobody reads. -/
def updateIf (t : Table K V) (k : K) (w : RowUpdate V) : Table K V := (t.updateRow k w).getD t

theorem updateIf_of_guard {w : RowUpdate V} {row : V} (hlookup : t.lookup k = some row)
    (hguard : w.guard row = true) : t.updateIf k w = t.insert k (w.set row) := by
  rw [updateIf, updateRow_eq_some.mpr ⟨row, hlookup, hguard, rfl⟩, Option.getD_some]

theorem lookup_updateIf (t : Table K V) (k j : K) (w : RowUpdate V) :
    (t.updateIf k w).lookup j = if j = k then
      (t.lookup k).map fun row => if w.guard row then w.set row else row
    else t.lookup j := by
  cases hupdate : t.updateRow k w with
  | some t' =>
    obtain ⟨row, hrow, hguard, rfl⟩ := updateRow_eq_some.mp hupdate
    rw [updateIf_of_guard hrow hguard, lookup_insert, hrow, Option.map_some, if_pos hguard]
  | none =>
    rw [updateIf, hupdate, Option.getD_none]
    split_ifs with hj
    · rw [hj]
      cases hrow : t.lookup k with
      | none => rfl
      | some row => simp [updateRow_eq_none.mp hupdate row hrow]
    · rfl

/-- `UPDATE … SET …` of every row, where `f` is the identity on rows that do not match. -/
def updateAll (t : Table K V) (f : K → V → V) : Table K V where
  entries := t.entries.map fun e => ⟨e.1, f e.1 e.2⟩
  nodupKeys := by
    have h : (t.entries.map fun e => (⟨e.1, f e.1 e.2⟩ : Sigma fun _ : K => V)).keys =
        t.entries.keys := by
      simp [List.keys, Function.comp_def]
    rw [List.NodupKeys, h]
    exact t.nodupKeys

variable {W : Type v}

private theorem dlookup_map (l : List (Sigma fun _ : K => V)) (f : K → V → W) (k : K) :
    (l.map fun e => (⟨e.1, f e.1 e.2⟩ : Sigma fun _ : K => W)).dlookup k =
      (l.dlookup k).map (f k) := by
  induction l with
  | nil => rfl
  | cons e l ih =>
    obtain ⟨a, b⟩ := e
    by_cases h : k = a
    · subst h
      simp
    · have hmap := List.dlookup_cons_ne (l.map fun e =>
        (⟨e.1, f e.1 e.2⟩ : Sigma fun _ : K => W)) ⟨a, f a b⟩ h
      have hold := List.dlookup_cons_ne l ⟨a, b⟩ h
      exact hmap.trans (ih.trans (congrArg (Option.map (f k)) hold.symm))

@[simp] theorem lookup_updateAll (t : Table K V) (f : K → V → V) (k : K) :
    (t.updateAll f).lookup k = (t.lookup k).map (f k) :=
  dlookup_map t.entries f k

/-- The rows under the same keys, seen through `f`. -/
def mapRows {W : Type v} (t : Table K V) (f : V → W) : Table K W where
  entries := t.entries.map fun e => ⟨e.1, f e.2⟩
  nodupKeys := by
    have h : (t.entries.map fun e => (⟨e.1, f e.2⟩ : Sigma fun _ : K => W)).keys =
        t.entries.keys := by
      simp [List.keys, Function.comp_def]
    rw [List.NodupKeys, h]
    exact t.nodupKeys

@[simp] theorem lookup_mapRows (t : Table K V) (f : V → W) (k : K) :
    (t.mapRows f).lookup k = (t.lookup k).map f :=
  dlookup_map t.entries (fun _ => f) k

/-- `DELETE … WHERE p`. -/
def deleteWhere (t : Table K V) (p : K → V → Bool) : Table K V where
  entries := t.entries.filter fun e => !p e.1 e.2
  nodupKeys := t.nodupKeys.sublist List.filter_sublist

variable {p : K → V → Bool}

theorem lookup_deleteWhere_eq_some :
    (t.deleteWhere p).lookup k = some v ↔ t.lookup k = some v ∧ p k v = false := by
  have hdel := AList.mem_lookup_iff (a := k) (b := v) (s := t.deleteWhere p)
  have hold := AList.mem_lookup_iff (a := k) (b := v) (s := t)
  rw [Option.mem_def] at hdel hold
  rw [hdel, hold]
  simp [deleteWhere, List.mem_filter]

@[simp] theorem lookup_deleteWhere (t : Table K V) (p : K → V → Bool) (k : K) :
    (t.deleteWhere p).lookup k = (t.lookup k).filter fun v => !p k v := by
  apply Option.ext
  intro v
  rw [lookup_deleteWhere_eq_some, Option.filter_eq_some_iff]
  simp

/-- A row that a condition on the key alone leaves is there. -/
theorem isSome_deleteWhere {p : K → Bool} :
    ((t.deleteWhere fun k _ => p k).lookup k).isSome = true ↔
      (t.lookup k).isSome = true ∧ p k = false := by
  rw [lookup_deleteWhere]
  cases t.lookup k with
  | none => simp
  | some v => cases p k <;> simp

/-- `SELECT … WHERE p`. -/
def select (t : Table K V) (p : K → V → Bool) : Table K V := t.deleteWhere fun k v => !p k v

@[simp] theorem lookup_select (t : Table K V) (p : K → V → Bool) (k : K) :
    (t.select p).lookup k = (t.lookup k).filter (p k) := by
  simp [select]

theorem mem_keys_select : k ∈ (t.select p).keys ↔ ∃ v, t.lookup k = some v ∧ p k v = true := by
  rw [← AList.mem_keys, ← AList.lookup_isSome, lookup_select, Option.isSome_iff_exists]
  simp only [Option.filter_eq_some_iff]

/-- `SELECT … WHERE p`, the first row. -/
def findRow (t : Table K V) (p : K → V → Bool) : Option (K × V) :=
  (t.entries.find? fun e => p e.1 e.2).map fun e => (e.1, e.2)

theorem findRow_eq_some (h : t.findRow p = some (k, v)) : t.lookup k = some v ∧ p k v = true := by
  obtain ⟨e, hfind, hrow⟩ := Option.map_eq_some_iff.mp h
  obtain ⟨rfl, rfl⟩ := Prod.mk.inj hrow
  have hp := List.find?_some (p := fun e : Sigma fun _ : K => V => p e.1 e.2) hfind
  exact ⟨AList.mem_lookup_iff.mpr (List.mem_of_find?_eq_some hfind), hp⟩

theorem findRow_eq_none (h : t.findRow p = none) (hlookup : t.lookup k = some v) :
    p k v = false := by
  have hnone := List.find?_eq_none.mp (Option.map_eq_none_iff.mp h) ⟨k, v⟩
    (AList.mem_lookup_iff.mp hlookup)
  simpa using hnone

/-- The first of the given rows under a key. -/
def rowOf (rows : List (K × V)) (k : K) : Option V := rows.lookup k

variable {rows : List (K × V)}

/-- The first row under a key is one of the rows. -/
theorem mem_of_rowOf (h : rowOf rows k = some v) : (k, v) ∈ rows := by
  obtain ⟨before, after, hsplit, -⟩ := List.lookup_eq_some_iff.mp h
  simp [hsplit]

/-- A key that one of the rows is under has a first row. -/
theorem isSome_rowOf (h : (k, v) ∈ rows) : (rowOf rows k).isSome = true := by
  by_contra hnone
  rw [Bool.not_eq_true, Option.isSome_eq_false_iff, Option.isNone_iff_eq_none, rowOf,
    List.lookup_eq_none_iff] at hnone
  simpa using hnone (k, v) h

/-- The rows of a table as rows to insert into another one. -/
def rowsAs {K' : Type u} {W : Type v} (t : Table K V) (key : K → K') (row : V → W) :
    List (K' × W) := t.entries.map fun e => (key e.1, row e.2)

variable {K' : Type u}

theorem lookup_rowsAs [DecidableEq K'] {key : K → K'} (hkey : Function.Injective key)
    (t : Table K V) (row : V → W) (k : K) :
    rowOf (t.rowsAs key row) (key k) = (t.lookup k).map row := by
  change (t.entries.map fun e => (key e.1, row e.2)).lookup (key k) = (t.entries.dlookup k).map row
  induction t.entries with
  | nil => rfl
  | cons e l ih =>
    obtain ⟨a, b⟩ := e
    by_cases h : k = a
    · subst h
      simp
    · have hne : (key k == key a) = false := by simpa using fun heq => h (hkey heq)
      rw [List.map_cons, List.lookup_cons, hne, List.dlookup_cons_ne l ⟨a, b⟩ h]
      exact ih

omit [DecidableEq K] in
/-- A key that no row is given is not among the rows. -/
theorem lookup_rowsAs_eq_none [DecidableEq K'] {key : K → K'} {row : V → W} {k' : K'}
    (h : ∀ k, key k ≠ k') : rowOf (t.rowsAs key row) k' = none := by
  simp only [rowOf, rowsAs, List.lookup_eq_none_iff, List.mem_map]
  rintro _ ⟨e, -, rfl⟩
  simpa using Ne.symm (h e.1)

/-- `EXISTS (SELECT … WHERE p)`. -/
def existsRow (t : Table K V) (p : K → V → Bool) : Bool := t.entries.any fun e => p e.1 e.2

theorem existsRow_iff : t.existsRow p = true ↔ ∃ k v, t.lookup k = some v ∧ p k v = true := by
  simp only [existsRow, List.any_eq_true]
  constructor
  · rintro ⟨⟨k, v⟩, hmem, hp⟩
    exact ⟨k, v, AList.mem_lookup_iff.mpr hmem, hp⟩
  · rintro ⟨k, v, hlookup, hp⟩
    exact ⟨⟨k, v⟩, AList.mem_lookup_iff.mp hlookup, hp⟩

theorem existsRow_eq_false :
    t.existsRow p = false ↔ ∀ k v, t.lookup k = some v → p k v = false := by
  rw [← Bool.not_eq_true, existsRow_iff]
  simp only [not_exists, not_and, Bool.not_eq_true]

/-- `INSERT … ON CONFLICT DO NOTHING` of one row after another. -/
def insertMissing (t : Table K V) (rows : List (K × V)) : Table K V :=
  rows.foldl (fun t row => if (t.lookup row.1).isSome then t else t.insert row.1 row.2) t

@[simp] theorem lookup_insertMissing (t : Table K V) (rows : List (K × V)) (k : K) :
    (t.insertMissing rows).lookup k = (t.lookup k).or (rowOf rows k) := by
  induction rows generalizing t with
  | nil => simp [insertMissing, rowOf]
  | cons row rows ih =>
    obtain ⟨k', v⟩ := row
    rw [insertMissing, List.foldl_cons, ← insertMissing, ih]
    unfold rowOf
    by_cases h : k = k'
    · subst h
      cases hold : t.lookup k <;> simp [hold]
    · have hne : (k == k') = false := by simpa using h
      cases hold : t.lookup k' <;> simp [List.lookup_cons, hne, h]

/-- `INSERT … ON CONFLICT DO UPDATE` of one row after another. -/
def upsertAll (t : Table K V) (rows : List (K × V)) : Table K V :=
  rows.foldl (fun t row => t.insert row.1 row.2) t

@[simp] theorem lookup_upsertAll (t : Table K V) (hnodup : (rows.map Prod.fst).Nodup) (k : K) :
    (t.upsertAll rows).lookup k = (rowOf rows k).or (t.lookup k) := by
  induction rows generalizing t with
  | nil => simp [upsertAll, rowOf]
  | cons row rows ih =>
    obtain ⟨k', v⟩ := row
    obtain ⟨hnew, hrest⟩ := List.nodup_cons.mp hnodup
    rw [upsertAll, List.foldl_cons, ← upsertAll, ih _ hrest, lookup_insert]
    unfold rowOf
    by_cases h : k = k'
    · subst h
      have hnone : rows.lookup k = none := by
        rw [List.lookup_eq_none_iff]
        intro other hmem
        have hne : k ≠ other.1 := fun heq => hnew (List.mem_map.mpr ⟨other, hmem, heq.symm⟩)
        simpa using hne
      simp [hnone]
    · have hne : (k == k') = false := by simpa using h
      simp [List.lookup_cons, hne, h]

omit [DecidableEq K] in
theorem nodup_rowsAs {key : K → K'} (hkey : Function.Injective key) (t : Table K V) (row : V → W) :
    ((t.rowsAs key row).map Prod.fst).Nodup := by
  have hkeys : (t.rowsAs key row).map Prod.fst = t.keys.map key := by
    simp [rowsAs, AList.keys, List.keys, Function.comp_def]
  rw [hkeys]
  exact (List.nodup_map_iff hkey).mpr t.keys_nodup

end Table

end Rheostream
