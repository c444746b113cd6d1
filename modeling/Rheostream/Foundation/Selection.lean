import Mathlib.Data.Finset.Card
import Mathlib.Data.List.MinMax
import Mathlib.Data.List.Sort
import Mathlib.Data.Prod.Lex

/-!
# Choices that ignore the order of a list

A query returns its rows in an order nobody promises. A choice made from them is
deterministic when it depends on the rows only up to permutation. Sorting by a key,
taking the first maximum of a key and taking the last row under a key all have this
property as soon as the key separates the rows.
-/

namespace Rheostream

universe u v w

variable {α : Type u} {β : Type v} {κ : Type w}

/-- Two rows of `l` with the same key are the same row. -/
def Separates (key : α → κ) (l : List α) : Prop :=
  ∀ a ∈ l, ∀ b ∈ l, key a = key b → a = b

namespace Separates

variable {key : α → κ} {l l' : List α}

theorem of_subset (h : Separates key l) (hsub : ∀ a ∈ l', a ∈ l) : Separates key l' :=
  fun a ha b hb hkey => h a (hsub a ha) b (hsub b hb) hkey

theorem filter (h : Separates key l) (p : α → Bool) : Separates key (l.filter p) :=
  h.of_subset fun _ ha => List.mem_of_mem_filter ha

theorem perm (h : Separates key l) (hperm : l.Perm l') : Separates key l' :=
  h.of_subset fun _ ha => hperm.mem_iff.mpr ha

/-- A finer key separates what a coarser one separates. -/
theorem refine {key' : α → β} (h : Separates key l)
    (hfine : ∀ a b, key' a = key' b → key a = key b) : Separates key' l :=
  fun a ha b hb hkey => h a ha b hb (hfine a b hkey)

end Separates

/-- `sorted(l, key=key)`. -/
def sortedBy [LinearOrder κ] (key : α → κ) (l : List α) : List α :=
  l.insertionSort fun a b => key a ≤ key b

section Sorted

variable [LinearOrder κ] {key : α → κ} {l l' : List α}

theorem sortedBy_perm (key : α → κ) (l : List α) : (sortedBy key l).Perm l :=
  List.perm_insertionSort _ l

theorem sortedBy_pairwise (key : α → κ) (l : List α) :
    (sortedBy key l).Pairwise fun a b => key a ≤ key b := by
  have htotal : Std.Total fun a b : α => key a ≤ key b := ⟨fun a b => le_total (key a) (key b)⟩
  have htrans : IsTrans α fun a b : α => key a ≤ key b := ⟨fun _ _ _ hab hbc => hab.trans hbc⟩
  exact List.pairwise_insertionSort _ l

/-- Rows that a key separates are sorted the same way however they arrive. -/
theorem sortedBy_eq_of_perm (hsep : Separates key l) (hperm : l.Perm l') :
    sortedBy key l = sortedBy key l' := by
  have hsorted : (sortedBy key l).Perm (sortedBy key l') :=
    (sortedBy_perm key l).trans (hperm.trans (sortedBy_perm key l').symm)
  apply List.Perm.eq_of_pairwise _ (sortedBy_pairwise key l) (sortedBy_pairwise key l') hsorted
  intro a b ha hb hab hba
  have ha' : a ∈ l := (sortedBy_perm key l).mem_iff.mp ha
  have hb' : b ∈ l := hperm.mem_iff.mpr ((sortedBy_perm key l').mem_iff.mp hb)
  exact hsep a ha' b hb' (le_antisymm hab hba)

/-- The first maximum under a key that separates the rows is the same however they arrive. -/
theorem argmax_eq_of_perm (hsep : Separates key l) (hperm : l.Perm l') :
    l.argmax key = l'.argmax key := by
  cases hmax : l.argmax key with
  | none =>
    obtain rfl := List.argmax_eq_none.mp hmax
    rw [hperm.nil_eq.symm]
    rfl
  | some m =>
    have hm : m ∈ l := List.argmax_mem hmax
    cases hmax' : l'.argmax key with
    | none =>
      obtain rfl := List.argmax_eq_none.mp hmax'
      exact absurd (hperm.mem_iff.mp hm) List.not_mem_nil
    | some m' =>
      have hm' : m' ∈ l := hperm.mem_iff.mpr (List.argmax_mem hmax')
      have hle : key m ≤ key m' := List.le_of_mem_argmax (hperm.mem_iff.mp hm) hmax'
      have hge : key m' ≤ key m := List.le_of_mem_argmax hm' hmax
      rw [hsep m hm m' hm' (le_antisymm hle hge)]

end Sorted

/-- `max(values, default=None)` does not see the order of the values. -/
theorem max?_eq_of_perm [LinearOrder κ] {l l' : List κ} (hperm : l.Perm l') :
    l.max? = l'.max? := by
  apply Option.ext
  intro m
  rw [List.max?_eq_some_iff, List.max?_eq_some_iff, hperm.mem_iff]
  simp only [hperm.mem_iff]

section Last

variable [DecidableEq κ] {key : α → κ} {l l' : List α}

/-- `{key(a): a for a in l}.get(k)`: the last row with the key. -/
def lastWith (key : α → κ) (l : List α) (k : κ) : Option α :=
  (l.filter fun a => key a = k).getLast?

theorem lastWith_mem {k : κ} {a : α} (h : lastWith key l k = some a) : a ∈ l ∧ key a = k := by
  have hmem := List.mem_of_getLast? h
  simpa using hmem

/-- Rows that a key separates are indexed by it: looking a row's key up finds the row. -/
theorem lastWith_eq_some (hsep : Separates key l) {k : κ} {a : α} :
    lastWith key l k = some a ↔ a ∈ l ∧ key a = k := by
  constructor
  · exact lastWith_mem
  · rintro ⟨hmem, hkey⟩
    have hfilter : a ∈ l.filter fun b => key b = k := by simp [hmem, hkey]
    cases hlast : lastWith key l k with
    | none =>
      have hnil : (l.filter fun b => key b = k) = [] := List.getLast?_eq_none_iff.mp hlast
      rw [hnil] at hfilter
      exact absurd hfilter List.not_mem_nil
    | some b =>
      obtain ⟨hb, hbkey⟩ := lastWith_mem hlast
      rw [hsep b hb a hmem (hbkey.trans hkey.symm)]

theorem lastWith_eq_of_perm (hsep : Separates key l) (hperm : l.Perm l') (k : κ) :
    lastWith key l k = lastWith key l' k := by
  apply Option.ext
  intro a
  rw [lastWith_eq_some hsep, lastWith_eq_some (hsep.perm hperm), hperm.mem_iff]

end Last

/-- A process that takes one candidate at a time, without bringing back or dropping another,
takes each of them. -/
theorem taken_of_pick [DecidableEq α] {State : Type v} (pick : State → Option α)
    (next : State → State) (left : State → Finset α) (hnone : ∀ s, pick s = none → left s = ∅)
    (htaken : ∀ s a, pick s = some a → a ∈ left s ∧ left (next s) = (left s).erase a)
    {s : State} {a : α} (ha : a ∈ left s) : ∃ n, pick (next^[n] s) = some a := by
  induction hcard : (left s).card generalizing s with
  | zero => simp [Finset.card_eq_zero.mp hcard] at ha
  | succ card ih =>
    cases hpick : pick s with
    | none => simp [hnone s hpick] at ha
    | some b =>
      obtain ⟨hb, hleft⟩ := htaken s b hpick
      by_cases heq : a = b
      · exact ⟨0, by rw [heq]; exact hpick⟩
      · have hcard' : (left (next s)).card = card := by
          rw [hleft, Finset.card_erase_of_mem hb, hcard]
          rfl
        obtain ⟨n, hn⟩ := ih (by rw [hleft]; exact Finset.mem_erase.mpr ⟨heq, ha⟩) hcard'
        exact ⟨n + 1, hn⟩

end Rheostream
