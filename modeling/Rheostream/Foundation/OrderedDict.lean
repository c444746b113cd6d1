import Mathlib.Data.List.Nodup
import Mathlib.Tactic.SplitIfs

/-!
# Dictionaries that keep the order of insertion

A dictionary as the list of its entries. A key that is there is written in place, a new key comes
last.
-/

namespace Rheostream.OrderedDict

universe u v

variable {K : Type u} {V : Type v} [DecidableEq K]

/-- `d[k] = v`. -/
def set : List (K × V) → K → V → List (K × V)
  | [], k, v => [(k, v)]
  | e :: d, k, v => if e.1 = k then (k, v) :: d else e :: set d k v

/-- `del d[k]`. -/
def del : List (K × V) → K → List (K × V)
  | [], _ => []
  | e :: d, k => if e.1 = k then d else e :: del d k

variable {d : List (K × V)} {k j : K} {v w : V}

theorem lookup_set (d : List (K × V)) (k j : K) (v : V) :
    (set d k v).lookup j = if j = k then some v else d.lookup j := by
  have hne {i : K} (h : j ≠ i) : (j == i) = false := by simpa using h
  induction d with
  | nil =>
    rw [set, List.lookup_cons, List.lookup_nil]
    by_cases h : j = k
    · simp [h]
    · rw [hne h, if_neg h]
  | cons e d ih =>
    obtain ⟨k', v'⟩ := e
    rw [set]
    by_cases h : k' = k
    · subst h
      rw [if_pos rfl, List.lookup_cons, List.lookup_cons]
      by_cases hj : j = k'
      · simp [hj]
      · rw [hne hj, if_neg hj]
    · rw [if_neg h, List.lookup_cons, List.lookup_cons, ih]
      by_cases hj : j = k'
      · subst hj
        simp [h]
      · rw [hne hj]

theorem lookup_eq_none : d.lookup k = none ↔ k ∉ d.map Prod.fst := by
  rw [List.lookup_eq_none_iff, List.mem_map]
  constructor
  · rintro h ⟨e, he, rfl⟩
    have hne := h e he
    simp at hne
  · intro h e he
    have hne : k ≠ e.1 := fun heq => h ⟨e, he, heq.symm⟩
    simpa using hne

theorem mem_of_lookup (h : d.lookup k = some v) : (k, v) ∈ d := by
  obtain ⟨before, behind, heq, -⟩ := List.lookup_eq_some_iff.mp h
  rw [heq]
  exact List.mem_append_right before List.mem_cons_self

theorem lookup_of_mem (hkeys : (d.map Prod.fst).Nodup) (h : (k, v) ∈ d) : d.lookup k = some v := by
  obtain ⟨before, behind, rfl⟩ := List.append_of_mem h
  refine List.lookup_eq_some_iff.mpr ⟨before, behind, rfl, ?_⟩
  intro e he
  rw [List.map_append, List.map_cons] at hkeys
  have hne : k ≠ e.1 := by
    intro hsame
    exact (List.nodup_append.mp hkeys).2.2 e.1 (List.mem_map_of_mem he) k List.mem_cons_self
      hsame.symm
  simpa using hne

/-- A write of the value that is there changes nothing. -/
theorem set_eq_self (h : d.lookup k = some v) : set d k v = d := by
  induction d with
  | nil => cases h
  | cons e d ih =>
    obtain ⟨k', v'⟩ := e
    rw [List.lookup_cons] at h
    rw [set]
    by_cases heq : k' = k
    · subst heq
      simp only [beq_self_eq_true, Option.some.injEq] at h
      rw [if_pos rfl, h]
    · have hne : (k == k') = false := by simpa using fun hsame : k = k' => heq hsame.symm
      rw [hne] at h
      rw [if_neg heq, ih h]

/-- The last of two writes counts. -/
theorem set_set (d : List (K × V)) (k : K) (v w : V) : set (set d k v) k w = set d k w := by
  induction d with
  | nil => simp [set]
  | cons e d ih =>
    by_cases heq : e.1 = k
    · simp [set, heq]
    · simp [set, heq, ih]

/-- A key that was new is taken out again. -/
theorem del_set (h : d.lookup k = none) : del (set d k v) k = d := by
  induction d with
  | nil => simp [set, del]
  | cons e d ih =>
    rw [lookup_eq_none, List.map_cons, List.mem_cons, not_or] at h
    have hne : e.1 ≠ k := fun heq => h.1 heq.symm
    rw [set, if_neg hne, del, if_neg hne, ih (lookup_eq_none.mpr h.2)]

theorem set_of_new (h : d.lookup k = none) : set d k v = d ++ [(k, v)] := by
  induction d with
  | nil => rfl
  | cons e d ih =>
    rw [lookup_eq_none, List.map_cons, List.mem_cons, not_or] at h
    have hne : e.1 ≠ k := fun heq => h.1 heq.symm
    rw [set, if_neg hne, ih (lookup_eq_none.mpr h.2), List.cons_append]

/-- A new key comes last, the others stay where they are. -/
theorem keys_set (d : List (K × V)) (k : K) (v : V) : (set d k v).map Prod.fst =
      d.map Prod.fst ++ if k ∈ d.map Prod.fst then [] else [k] := by
  induction d with
  | nil => simp [set]
  | cons e d ih =>
    by_cases heq : e.1 = k
    · simp [set, heq]
    · have hmem : k ∈ (e :: d).map Prod.fst ↔ k ∈ d.map Prod.fst := by
        rw [List.map_cons, List.mem_cons]
        exact or_iff_right fun h => heq h.symm
      rw [set, if_neg heq, List.map_cons, ih, List.map_cons, List.cons_append]
      simp only [← List.map_cons, hmem]

theorem nodup_keys_set (h : (d.map Prod.fst).Nodup) : ((set d k v).map Prod.fst).Nodup := by
  rw [keys_set]
  split_ifs with hmem
  · rw [List.append_nil]
    exact h
  · exact List.nodup_append.mpr ⟨h, List.nodup_singleton k, by
      rintro a ha b hb rfl
      exact hmem (List.mem_singleton.mp hb ▸ ha)⟩

/-- The entries of the other keys stay in their order. -/
theorem filter_set (d : List (K × V)) (k : K) (v : V) :
    (set d k v).filter (fun e => e.1 ≠ k) = d.filter fun e => e.1 ≠ k := by
  induction d with
  | nil => simp [set]
  | cons e d ih =>
    by_cases heq : e.1 = k
    · simp [set, heq]
    · simp only [set, if_neg heq]
      rw [List.filter_cons, List.filter_cons, ih]

/-- A map over the entries after a write is another map over the entries before it, when the two
agree on the other keys and on what was written. -/
theorem filterMap_set {β : Type*} {f g : K × V → Option β} (hkeys : (d.map Prod.fst).Nodup)
    (h : d.lookup k = some w) (hother : ∀ e ∈ d, e.1 ≠ k → f e = g e)
    (hsame : f (k, v) = g (k, w)) : (set d k v).filterMap f = d.filterMap g := by
  induction d with
  | nil => cases h
  | cons e d ih =>
    obtain ⟨k', v'⟩ := e
    obtain ⟨hnew, hrest⟩ := List.nodup_cons.mp hkeys
    rw [List.lookup_cons] at h
    rw [set]
    by_cases heq : k' = k
    · subst heq
      simp only [beq_self_eq_true, Option.some.injEq] at h
      subst h
      have hall : d.filterMap f = d.filterMap g := by
        refine List.filterMap_congr fun e he => ?_
        exact hother e (List.mem_cons_of_mem _ he) fun hk => hnew (List.mem_map.mpr ⟨e, he, hk⟩)
      rw [if_pos rfl, List.filterMap_cons, List.filterMap_cons, hsame, hall]
    · have hne : (k == k') = false := by simpa using fun hsame : k = k' => heq hsame.symm
      rw [hne] at h
      have hrestEq := ih hrest h fun e he => hother e (List.mem_cons_of_mem _ he)
      rw [if_neg heq, List.filterMap_cons, List.filterMap_cons, hrestEq,
        hother (k', v') List.mem_cons_self heq]

/-- A key that was taken out is not there, since it was there once. -/
theorem lookup_del (hkeys : (d.map Prod.fst).Nodup) (k : K) : (del d k).lookup k = none := by
  induction d with
  | nil => rfl
  | cons e d ih =>
    obtain ⟨hnew, hrest⟩ := List.nodup_cons.mp hkeys
    by_cases heq : e.1 = k
    · subst heq
      rw [del, if_pos rfl]
      exact lookup_eq_none.mpr hnew
    · have hne : (k == e.1) = false := by simpa using fun hsame : k = e.1 => heq hsame.symm
      rw [del, if_neg heq, List.lookup_cons, hne]
      exact ih hrest

end Rheostream.OrderedDict
