import Mathlib.Data.List.Forall2

/-!
# Delimited texts

When two printed values are followed by anything that cannot continue them, equal texts must
come apart at the same place. `Delimited` says so of two texts. It holds of tokens of one
alphabet, of texts with a common beginning, and of bracketed, separated lists whose items are
delimited in turn.
-/

namespace Rheostream

universe u

variable {α : Type u} {token : α → Prop} {a b : List α}

/-- What follows a token: nothing, or a symbol that no token has. -/
def Ends (token : α → Prop) (rest : List α) : Prop := ∀ c ∈ rest.head?, ¬token c

theorem ends_cons {c : α} {rest : List α} (hc : ¬token c) : Ends token (c :: rest) := by
  simpa [Ends] using hc

/-- Equal texts that begin with the one and the other come apart behind them. -/
def Delimited (token : α → Prop) (a b : List α) : Prop :=
  ∀ r s, Ends token r → Ends token s → a ++ r = b ++ s → a = b ∧ r = s

namespace Delimited

theorem refl (a : List α) : Delimited token a a :=
  fun _ _ _ _ h => ⟨rfl, List.append_cancel_left h⟩

/-- Two tokens are as long as their symbols go on. -/
theorem of_tokens (ha : ∀ c ∈ a, token c) (hb : ∀ c ∈ b, token c) : Delimited token a b := by
  intro r s hr hs h
  induction a generalizing b with
  | nil =>
    cases b with
    | nil => exact ⟨rfl, h⟩
    | cons c b =>
      have hhead : r.head? = some c := by simp [show r = c :: (b ++ s) from h]
      exact absurd (hb c List.mem_cons_self) (hr c hhead)
  | cons c a ih =>
    cases b with
    | nil =>
      have hhead : s.head? = some c := by simp [← show c :: (a ++ r) = s from h]
      exact absurd (ha c List.mem_cons_self) (hs c hhead)
    | cons d b =>
      obtain ⟨rfl, htail⟩ := List.cons.inj h
      obtain ⟨rfl, hrest⟩ := ih (fun x hx => ha x (List.mem_cons_of_mem _ hx))
        (fun x hx => hb x (List.mem_cons_of_mem _ hx)) htail
      exact ⟨rfl, hrest⟩

theorem append_left (h : Delimited token a b) (l : List α) :
    Delimited token (l ++ a) (l ++ b) := by
  intro r s hr hs heq
  rw [List.append_assoc, List.append_assoc] at heq
  obtain ⟨rfl, hrest⟩ := h r s hr hs (List.append_cancel_left heq)
  exact ⟨rfl, hrest⟩

end Delimited

/-- The items behind the first one, each after a separator, and the closing bracket. -/
def separatedTail (separator close : α) : List (List α) → List α
  | [] => [close]
  | item :: items => separator :: (item ++ separatedTail separator close items)

/-- The items with separators between them, and the closing bracket. -/
def separated (separator close : α) : List (List α) → List α
  | [] => [close]
  | item :: items => item ++ separatedTail separator close items

section Separated

variable {separator close : α} {as bs : List (List α)}

private theorem ends_separatedTail (hseparator : ¬token separator) (hclose : ¬token close)
    (rest : List α) : Ends token (separatedTail separator close as ++ rest) := by
  cases as with
  | nil => exact ends_cons hclose
  | cons => exact ends_cons hseparator

private theorem separatedTail_inj (hseparator : ¬token separator) (hclose : ¬token close)
    (h : List.Forall₂ (Delimited token) as bs) {r s : List α}
    (heq : separatedTail separator close as ++ r = separatedTail separator close bs ++ s) :
    as = bs ∧ r = s := by
  induction h with
  | nil => exact ⟨rfl, List.append_cancel_left heq⟩
  | cons hitem _ ih =>
    simp only [separatedTail, List.cons_append, List.append_assoc, List.cons.injEq, true_and]
      at heq
    obtain ⟨rfl, hrest⟩ := hitem _ _ (ends_separatedTail hseparator hclose r)
      (ends_separatedTail hseparator hclose s) heq
    obtain ⟨rfl, hend⟩ := ih hrest
    exact ⟨rfl, hend⟩

/-- Lists of items that are delimited in pairs print the same only if their items do. -/
theorem separated_inj (hseparator : ¬token separator) (hclose : ¬token close)
    (h : List.Forall₂ (Delimited token) as bs) {r s : List α}
    (heq : separated separator close as ++ r = separated separator close bs ++ s) :
    as = bs ∧ r = s := by
  cases h with
  | nil => exact ⟨rfl, List.append_cancel_left heq⟩
  | cons hitem hitems =>
    simp only [separated, List.append_assoc] at heq
    obtain ⟨rfl, hrest⟩ := hitem _ _ (ends_separatedTail hseparator hclose r)
      (ends_separatedTail hseparator hclose s) heq
    obtain ⟨rfl, hend⟩ := separatedTail_inj hseparator hclose hitems hrest
    exact ⟨rfl, hend⟩

variable {β : Type u} {l : List β} {f g : β → List α}

private theorem forall₂_map (h : ∀ x ∈ l, Delimited token (f x) (g x)) :
    List.Forall₂ (Delimited token) (l.map f) (l.map g) := by
  rw [List.forall₂_map_left_iff, List.forall₂_map_right_iff, List.forall₂_same]
  exact h

/-- One list printed in two ways that are delimited item by item. -/
theorem Delimited.separated_map (hseparator : ¬token separator) (hclose : ¬token close)
    (h : ∀ x ∈ l, Delimited token (f x) (g x)) :
    Delimited token (separated separator close (l.map f))
      (separated separator close (l.map g)) := by
  intro r s _ _ heq
  obtain ⟨hitems, hrest⟩ := separated_inj hseparator hclose (forall₂_map h) heq
  exact ⟨by rw [hitems], hrest⟩

theorem separated_map_inj (hseparator : ¬token separator) (hclose : ¬token close)
    (h : ∀ x ∈ l, Delimited token (f x) (g x)) :
    separated separator close (l.map f) = separated separator close (l.map g) ↔
      ∀ x ∈ l, f x = g x := by
  rw [← List.map_inj_left]
  refine ⟨fun heq => ?_, fun hitems => by rw [hitems]⟩
  have hends : separated separator close (l.map f) ++ [] =
      separated separator close (l.map g) ++ [] := by rw [heq]
  exact (separated_inj hseparator hclose (forall₂_map h) hends).1

end Separated

end Rheostream
