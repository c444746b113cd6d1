import Rheostream.Foundation.Selection

/-!
# Rankings by several keys

Stable sorts one after another, the least significant key first, rank by the keys together. The
head of a ranking depends on nothing below a bar that enough of its rows reach.
-/

namespace Rheostream

universe u v

variable {α : Type u} {κ : Type v}

/-- Ahead by the key, or level on the key and ahead already. -/
def AheadBy [LT κ] (key : α → κ) (ahead : α → α → Prop) (a b : α) : Prop :=
  key a < key b ∨ key a = key b ∧ ahead a b

theorem aheadBy_asymm [Preorder κ] {key : α → κ} {ahead : α → α → Prop} {a b : α}
    (hasymm : ∀ a b, ahead a b → ¬ ahead b a) (h : AheadBy key ahead a b) :
    ¬ AheadBy key ahead b a := by
  obtain hlt | ⟨heq, hahead⟩ := h
  · rintro (hlt' | ⟨heq', -⟩)
    · exact lt_asymm hlt hlt'
    · exact hlt.ne heq'.symm
  · rintro (hlt' | ⟨-, hahead'⟩)
    · exact hlt'.ne heq.symm
    · exact hasymm a b hahead hahead'

section Stable

variable [LinearOrder κ] {key : α → κ} {ahead : α → α → Prop} {l : List α}

/-- A row that was ahead of all others is put behind those with a smaller key only. -/
theorem pairwise_orderedInsert {a : α} (hl : l.Pairwise (AheadBy key ahead))
    (ha : ∀ b ∈ l, ahead a b) :
    (l.orderedInsert (fun a b => key a ≤ key b) a).Pairwise (AheadBy key ahead) := by
  induction l with
  | nil => exact List.pairwise_singleton _ a
  | cons b l ih =>
    obtain ⟨hb, hrest⟩ := List.pairwise_cons.mp hl
    by_cases hle : key a ≤ key b
    · rw [List.orderedInsert_cons_of_le _ l hle, List.pairwise_cons]
      refine ⟨?_, hl⟩
      intro c hc
      have hbc : key b ≤ key c := by
        obtain rfl | hc := List.mem_cons.mp hc
        · exact le_refl _
        · obtain hlt | ⟨heq, -⟩ := hb c hc
          · exact hlt.le
          · exact heq.le
      obtain hlt | heq := (hle.trans hbc).lt_or_eq
      · exact .inl hlt
      · exact .inr ⟨heq, ha c hc⟩
    · rw [List.orderedInsert_of_not_le _ l hle, List.pairwise_cons]
      constructor
      · intro c hc
        obtain rfl | hc := (List.mem_orderedInsert _).mp hc
        · exact .inl (not_le.mp hle)
        · exact hb c hc
      · exact ih hrest fun c hc => ha c (List.mem_cons_of_mem b hc)

/-- A sort keeps the order of the rows that are level on its key. -/
theorem sortedBy_stable (key : α → κ) (hl : l.Pairwise ahead) :
    (sortedBy key l).Pairwise (AheadBy key ahead) := by
  induction l with
  | nil => exact List.Pairwise.nil
  | cons a l ih =>
    obtain ⟨ha, hrest⟩ := List.pairwise_cons.mp hl
    refine pairwise_orderedInsert (ih hrest) ?_
    intro b hb
    exact ha b ((sortedBy_perm key l).mem_iff.mp hb)

end Stable

section Head

variable {ahead : α → α → Prop} {high : α → Bool} {l l' : List α}

/-- The rows that reach a bar come before those that do not. -/
theorem eq_high_append_low (hl : l.Pairwise ahead)
    (hhigh : ∀ a b, ahead a b → high b = true → high a = true) :
    l = l.filter high ++ l.filter fun a => !high a := by
  induction l with
  | nil => rfl
  | cons a l ih =>
    obtain ⟨ha, hrest⟩ := List.pairwise_cons.mp hl
    cases hbar : high a with
    | true =>
      have hlow : (a :: l).filter (fun a => !high a) = l.filter fun a => !high a := by
        simp [hbar]
      rw [List.filter_cons_of_pos hbar, hlow, List.cons_append, ← ih hrest]
    | false =>
      have hnone : l.filter high = [] := by
        rw [List.filter_eq_nil_iff]
        intro b hb hreach
        rw [hhigh a b (ha b hb) hreach] at hbar
        cases hbar
      have hall : l.filter (fun a => !high a) = l := by
        have h := ih hrest
        rw [hnone, List.nil_append] at h
        exact h.symm
      have hneg : ¬ high a = true := by simp [hbar]
      rw [List.filter_cons_of_neg hneg, hnone, List.nil_append]
      rw [List.filter_cons_of_pos (by simp [hbar]), hall]

/-- Two rankings with the same rows above a bar have the same head, as long as it lies above. -/
theorem take_eq_of_high {k : ℕ} (hasymm : ∀ a b, ahead a b → ¬ ahead b a)
    (hl : l.Pairwise ahead) (hl' : l'.Pairwise ahead)
    (hhigh : ∀ a b, ahead a b → high b = true → high a = true)
    (hsame : ∀ a, high a = true → (a ∈ l ↔ a ∈ l'))
    (hk : k ≤ (l.filter high).length) : l.take k = l'.take k := by
  have hirrefl (a : α) : ¬ ahead a a := fun h => hasymm a a h h
  have hnodup {m : List α} (hm : m.Pairwise ahead) : (m.filter high).Nodup := by
    have hne : m.Pairwise (· ≠ ·) := by
      refine hm.imp ?_
      rintro a b hab rfl
      exact hirrefl a hab
    exact hne.sublist List.filter_sublist
  have hperm : (l.filter high).Perm (l'.filter high) := by
    rw [List.perm_ext_iff_of_nodup (hnodup hl) (hnodup hl')]
    intro a
    rw [List.mem_filter, List.mem_filter]
    constructor
    · rintro ⟨ha, hbar⟩
      exact ⟨(hsame a hbar).mp ha, hbar⟩
    · rintro ⟨ha, hbar⟩
      exact ⟨(hsame a hbar).mpr ha, hbar⟩
  have heq : l.filter high = l'.filter high := by
    refine List.Perm.eq_of_pairwise ?_ (hl.sublist List.filter_sublist)
      (hl'.sublist List.filter_sublist) hperm
    intro a b _ _ hab hba
    exact absurd hba (hasymm a b hab)
  have htake {m : List α} (hm : m.Pairwise ahead) (hlen : k ≤ (m.filter high).length) :
      m.take k = (m.filter high).take k := by
    calc m.take k = (m.filter high ++ m.filter fun a => !high a).take k := by
          rw [← eq_high_append_low hm hhigh]
      _ = (m.filter high).take k := List.take_append_of_le_length hlen
  rw [htake hl hk, heq, ← htake hl' (heq ▸ hk)]

end Head

end Rheostream
