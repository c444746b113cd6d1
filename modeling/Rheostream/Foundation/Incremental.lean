import Mathlib.Data.List.Basic

/-!
# Reading in pieces

A splitter takes the next token off a buffer, or says that the buffer does not hold one yet. A
reader that keeps what is left, and goes on when more has come, reads the same tokens however
its input was cut.
-/

namespace Rheostream

universe u v w

variable {β : Type u} {τ : Type v} {S : Type w}

/-- How a buffer is split. The flag says that nothing more will come. -/
structure Splitter (β : Type u) (τ : Type v) where
  next : Bool → List β → Option (τ × List β)
  shorter : ∀ {final l t r}, next final l = some (t, r) → r.length < l.length
  /-- A token that was complete stays the next one. -/
  resumes : ∀ {a t r}, next false a = some (t, r) → ∀ final b,
    next final (a ++ b) = some (t, r ++ b)

/-- What reads the tokens, until it is done. -/
structure Consumer (τ : Type v) (S : Type w) where
  done : S → Bool
  step : S → τ → S

namespace Consumer

variable (c : Consumer τ S)

/-- The tokens are read in order, none after the reader is done. -/
def read : S → List τ → S
  | s, [] => s
  | s, t :: ts => if c.done s then s else read (c.step s t) ts

theorem read_done {s : S} (h : c.done s = true) (ts : List τ) : c.read s ts = s := by
  cases ts with
  | nil => rfl
  | cons t ts => rw [read, if_pos h]

theorem read_append (s : S) (ts ts' : List τ) :
    c.read s (ts ++ ts') = c.read (c.read s ts) ts' := by
  induction ts generalizing s with
  | nil => rfl
  | cons t ts ih =>
    by_cases h : c.done s = true
    · rw [read_done c h, read_done c h, read_done c h]
    · simp only [List.cons_append, read, if_neg h]
      exact ih _

end Consumer

namespace Splitter

variable (m : Splitter β τ) (c : Consumer τ S) {final : Bool}

/-- The loop over at most `n` tokens. -/
def drainFrom (final : Bool) : ℕ → S → List β → S × List β
  | 0, s, l => (s, l)
  | n + 1, s, l =>
    if c.done s then (s, l)
    else match m.next final l with
      | none => (s, l)
      | some (t, r) => drainFrom final n (c.step s t) r

/-- The tokens of a buffer are read, and what is left is kept. -/
def drain (final : Bool) (s : S) (l : List β) : S × List β := m.drainFrom c final l.length s l

/-- Nothing is the next token of an empty buffer. -/
theorem next_nil : m.next final [] = none := by
  cases hnext : m.next final [] with
  | none => rfl
  | some tr => exact absurd (m.shorter hnext) (Nat.not_lt_zero _)

/-- No more tokens are read than there are elements. -/
theorem drainFrom_enough {k n : ℕ} {l : List β} (s : S) (hk : l.length ≤ k) (hn : l.length ≤ n) :
    m.drainFrom c final k s l = m.drainFrom c final n s l := by
  induction k generalizing n l s with
  | zero =>
    obtain rfl : l = [] := List.eq_nil_of_length_eq_zero (Nat.le_zero.mp hk)
    cases n with
    | zero => rfl
    | succ n => simp [drainFrom, next_nil]
  | succ k ih =>
    cases n with
    | zero =>
      obtain rfl : l = [] := List.eq_nil_of_length_eq_zero (Nat.le_zero.mp hn)
      simp [drainFrom, next_nil]
    | succ n =>
      simp only [drainFrom]
      by_cases hdone : c.done s = true
      · rw [if_pos hdone, if_pos hdone]
      · rw [if_neg hdone, if_neg hdone]
        cases hnext : m.next final l with
        | none => rfl
        | some tr =>
          have hshorter := m.shorter hnext
          exact ih (c.step s tr.1) (by omega) (by omega)

theorem drain_done {s : S} (h : c.done s = true) (l : List β) : m.drain c final s l = (s, l) := by
  rw [drain]
  cases l with
  | nil => rfl
  | cons b l => rw [List.length_cons, drainFrom, if_pos h]

theorem drain_none {l : List β} (h : m.next final l = none) (s : S) :
    m.drain c final s l = (s, l) := by
  rw [drain]
  cases l with
  | nil => rfl
  | cons b l => simp [drainFrom, h]

theorem drain_some {s : S} {l r : List β} {t : τ} (hdone : ¬c.done s = true)
    (h : m.next final l = some (t, r)) :
    m.drain c final s l = m.drain c final (c.step s t) r := by
  have hshorter := m.shorter h
  cases l with
  | nil => exact absurd hshorter (Nat.not_lt_zero _)
  | cons b l =>
    rw [List.length_cons] at hshorter
    rw [drain, List.length_cons, drainFrom, if_neg hdone, h]
    exact drainFrom_enough m c (c.step s t) (by omega) (Nat.le_refl _)

/-- Reading what has come, and then what is left of it with the rest, is reading all at once. -/
theorem drain_append (final : Bool) (s : S) (a b : List β) :
    m.drain c final s (a ++ b) =
      m.drain c final (m.drain c false s a).1 ((m.drain c false s a).2 ++ b) := by
  induction hn : a.length using Nat.strongRecOn generalizing s a with
  | ind n ih =>
    subst hn
    by_cases hdone : c.done s = true
    · rw [drain_done m c hdone a]
    · cases hnext : m.next false a with
      | none => rw [drain_none m c hnext]
      | some tr =>
        obtain ⟨t, r⟩ := tr
        rw [drain_some m c hdone (m.resumes hnext final b), drain_some m c hdone hnext]
        exact ih r.length (m.shorter hnext) _ r rfl

/-- What follows a reader's last token is never looked at. -/
theorem drain_of_done {s : S} {a : List β} (h : c.done (m.drain c false s a).1 = true)
    (b : List β) : (m.drain c final s (a ++ b)).1 = (m.drain c false s a).1 := by
  rw [drain_append, drain_done m c h]

/-- The tokens of `l` are `ts`, whatever reads them. -/
inductive Tokens (final : Bool) : List β → List τ → Prop where
  | nil {l} : m.next final l = none → Tokens final l []
  | cons {l t r ts} : m.next final l = some (t, r) → Tokens final r ts →
    Tokens final l (t :: ts)

/-- The reader of a buffer reads its tokens. -/
theorem Tokens.drain_eq {l : List β} {ts : List τ} (h : m.Tokens final l ts) (s : S) :
    (m.drain c final s l).1 = c.read s ts := by
  induction h generalizing s with
  | nil hnone => rw [drain_none m c hnone, Consumer.read]
  | @cons l t r ts hnext _ ih =>
    by_cases hdone : c.done s = true
    · rw [drain_done m c hdone, Consumer.read_done c hdone]
    · rw [drain_some m c hdone hnext, Consumer.read, if_neg hdone]
      exact ih _

end Splitter

/-! ## Sections -/

section Sections

variable (ends : β → Bool)

/-- The stretches that an ending element closes, and the one that none has closed yet. -/
def sections : List β → List (List β) × List β
  | [] => ([], [])
  | b :: l =>
    if ends b then ([] :: (sections l).1, (sections l).2)
    else match sections l with
      | ([], rest) => ([], b :: rest)
      | (first :: more, rest) => ((b :: first) :: more, rest)

variable {ends}

theorem sections_open {l : List β} (h : ∀ b ∈ l, ends b = false) :
    sections ends l = ([], l) := by
  induction l with
  | nil => rfl
  | cons b l ih =>
    have hb : ends b = false := h b List.mem_cons_self
    rw [sections, hb, if_neg Bool.false_ne_true, ih fun b hb => h b (List.mem_cons_of_mem _ hb)]

/-- An ending element closes the section that was open. -/
theorem sections_append_ends {x : β} (hx : ends x = true) (a r : List β) :
    sections ends (a ++ x :: r) =
      ((sections ends a).1 ++ (sections ends a).2 :: (sections ends r).1, (sections ends r).2) := by
  induction a with
  | nil =>
    have hnil : sections ends ([] : List β) = ([], []) := rfl
    rw [hnil, List.nil_append, sections, if_pos hx]
    rfl
  | cons b a ih =>
    rw [List.cons_append, sections, sections]
    by_cases hb : ends b = true
    · rw [if_pos hb, if_pos hb, ih]
      rfl
    · rw [if_neg hb, if_neg hb, ih]
      rcases sections ends a with ⟨_ | ⟨first, more⟩, rest⟩
      · rfl
      · rfl

theorem sections_append {a r : List β} {x : β} (h : ∀ b ∈ a, ends b = false) (hx : ends x = true) :
    sections ends (a ++ x :: r) = (a :: (sections ends r).1, (sections ends r).2) := by
  rw [sections_append_ends hx, sections_open h]
  rfl

/-- No section holds an ending element. -/
theorem sections_free {l s : List β} (hs : s ∈ (sections ends l).1 ++ [(sections ends l).2]) :
    ∀ b ∈ s, ends b = false := by
  induction l generalizing s with
  | nil =>
    obtain rfl := List.mem_singleton.mp hs
    intro b hb
    cases hb
  | cons c l ih =>
    rw [sections] at hs
    by_cases hc : ends c = true
    · rw [if_pos hc, List.cons_append] at hs
      rcases List.mem_cons.mp hs with rfl | hs
      · intro b hb
        cases hb
      · exact ih hs
    · have hcons : ∀ {s : List β}, (∀ b ∈ s, ends b = false) → ∀ b ∈ c :: s, ends b = false := by
        intro s hs b hb
        rcases List.mem_cons.mp hb with rfl | hb
        · exact Bool.eq_false_iff.mpr hc
        · exact hs b hb
      rw [if_neg hc] at hs
      rcases hsections : sections ends l with ⟨_ | ⟨first, more⟩, rest⟩
      · rw [hsections] at hs ih
        obtain rfl := List.mem_singleton.mp hs
        exact hcons (ih List.mem_cons_self)
      · rw [hsections] at hs ih
        rw [List.cons_append] at hs
        rcases List.mem_cons.mp hs with rfl | hs
        · exact hcons (ih List.mem_cons_self)
        · exact ih (List.mem_cons_of_mem _ hs)

/-- What follows closed sections is cut by itself. -/
theorem sections_append_closed {a : List β} (h : (sections ends a).2 = []) (b : List β) :
    sections ends (a ++ b) = ((sections ends a).1 ++ (sections ends b).1, (sections ends b).2) := by
  induction a with
  | nil => rfl
  | cons x a ih =>
    rw [List.cons_append, sections, sections]
    rw [sections] at h
    by_cases hx : ends x = true
    · rw [if_pos hx] at h
      rw [if_pos hx, if_pos hx, ih h]
      rfl
    · rw [if_neg hx] at h
      rw [if_neg hx, if_neg hx]
      rcases hsections : sections ends a with ⟨_ | ⟨first, more⟩, rest⟩
      · rw [hsections] at h
        cases h
      · rw [hsections] at h
        rw [ih (by rw [hsections]; exact h), hsections]
        rfl

theorem sections_snoc {x : β} (hx : ends x = true) (a : List β) :
    ∃ first more, sections ends (a ++ [x]) = (first :: more, []) := by
  induction a with
  | nil => exact ⟨[], [], by rw [List.nil_append, sections, if_pos hx, sections]⟩
  | cons y a ih =>
    obtain ⟨first, more, hsections⟩ := ih
    rw [List.cons_append, sections, hsections]
    by_cases hy : ends y = true
    · exact ⟨[], first :: more, if_pos hy⟩
    · exact ⟨y :: first, more, if_neg hy⟩

/-- Either nothing closes, or the first section is followed by what closes it. -/
theorem sections_cases (ends : β → Bool) (l : List β) : (∀ b ∈ l, ends b = false) ∨
      ∃ a x r, l = a ++ x :: r ∧ (∀ b ∈ a, ends b = false) ∧ ends x = true := by
  induction l with
  | nil => exact Or.inl fun b hb => absurd hb List.not_mem_nil
  | cons b l ih =>
    cases hb : ends b with
    | true => exact Or.inr ⟨[], b, l, rfl, fun c hc => absurd hc List.not_mem_nil, hb⟩
    | false =>
      have hcons : ∀ {a : List β}, (∀ c ∈ a, ends c = false) → ∀ c ∈ b :: a, ends c = false := by
        intro a ha c hc
        rcases List.mem_cons.mp hc with rfl | hc
        · exact hb
        · exact ha c hc
      rcases ih with hopen | ⟨a, x, r, rfl, ha, hx⟩
      · exact Or.inl (hcons hopen)
      · exact Or.inr ⟨b :: a, x, r, rfl, hcons ha, hx⟩

end Sections

end Rheostream
