import Mathlib.Algebra.Order.Ring.Int
import Mathlib.Tactic.SplitIfs
import Rheostream.Foundation.Incremental

/-!
# Bytes as Python reads them

`bytes.splitlines`, and `bytes.decode("utf-8")`, which refuses what is not well-formed UTF-8: an
overlong spelling, a surrogate, a code point above `U+10FFFF` and a sequence cut short.
-/

namespace Rheostream

/-- The rest of a text after `owed` more bytes of a character whose code point is `code` so
far, the next of them between `low` and `high`. -/
def decodeFrom : ℕ → ℕ → ℕ → ℕ → List UInt8 → Option (List Char)
  | 0, _, _, _, [] => some []
  | _ + 1, _, _, _, [] => none
  | 0, _, _, _, b :: rest =>
    let n := b.toNat
    if n ≤ 0x7f then (decodeFrom 0 0 0 0 rest).map (Char.ofNat n :: ·)
    else if 0xc2 ≤ n && n ≤ 0xdf then decodeFrom 1 0x80 0xbf (n - 0xc0) rest
    else if n == 0xe0 then decodeFrom 2 0xa0 0xbf 0 rest
    else if n == 0xed then decodeFrom 2 0x80 0x9f 0xd rest
    else if 0xe1 ≤ n && n ≤ 0xef then decodeFrom 2 0x80 0xbf (n - 0xe0) rest
    else if n == 0xf0 then decodeFrom 3 0x90 0xbf 0 rest
    else if 0xf1 ≤ n && n ≤ 0xf3 then decodeFrom 3 0x80 0xbf (n - 0xf0) rest
    else if n == 0xf4 then decodeFrom 3 0x80 0x8f 4 rest
    else none
  | 1, low, high, code, b :: rest =>
    if low ≤ b.toNat && b.toNat ≤ high then
      (decodeFrom 0 0 0 0 rest).map (Char.ofNat (code * 64 + (b.toNat - 0x80)) :: ·)
    else none
  | owed + 2, low, high, code, b :: rest =>
    if low ≤ b.toNat && b.toNat ≤ high then
      decodeFrom (owed + 1) 0x80 0xbf (code * 64 + (b.toNat - 0x80)) rest
    else none

/-- `bytes.decode("utf-8")`. -/
def decodeUtf8 (bytes : List UInt8) : Option (List Char) := decodeFrom 0 0 0 0 bytes

example : decodeUtf8 [0x61, 0xc3, 0xa9, 0xe2, 0x82, 0xac, 0xf0, 0x9f, 0x98, 0x80] =
    some ['a', 'é', '€', '😀'] := by decide

/-- A character once begun is not nothing. -/
theorem decodeFrom_owed_ne_nil {owed low high code : ℕ} (h : 0 < owed) (bytes : List UInt8) :
    decodeFrom owed low high code bytes ≠ some [] := by
  induction bytes generalizing owed low high code with
  | nil =>
    obtain ⟨n, rfl⟩ : ∃ n, owed = n + 1 := ⟨owed - 1, by omega⟩
    simp [decodeFrom]
  | cons b rest ih =>
    obtain rfl | ⟨n, rfl⟩ : owed = 1 ∨ ∃ n, owed = n + 2 := by
      by_cases h1 : owed = 1
      · exact Or.inl h1
      · exact Or.inr ⟨owed - 2, by omega⟩
    · simp [decodeFrom]
    · simp only [decodeFrom]
      split
      · exact ih (by omega)
      · simp

/-- Only no bytes at all are the empty text. -/
theorem decodeUtf8_eq_nil {bytes : List UInt8} : decodeUtf8 bytes = some [] ↔ bytes = [] := by
  constructor
  · intro h
    cases bytes with
    | nil => rfl
    | cons b rest =>
      have howed : ∀ owed low high code, 0 < owed →
          ¬decodeFrom owed low high code rest = some [] :=
        fun _ _ _ _ howed => decodeFrom_owed_ne_nil howed rest
      rw [decodeUtf8, decodeFrom] at h
      split_ifs at h
      · simp at h
      all_goals exact absurd h (howed _ _ _ _ (by omega))
  · rintro rfl
    rfl

/-! ## Lines -/

/-- Every line end spelled as a line feed. -/
def unifyEnds : List UInt8 → List UInt8
  | [] => []
  | [b] => [if b = 13 then 10 else b]
  | b :: c :: rest =>
    if b = 13 then 10 :: (if c = 10 then unifyEnds rest else unifyEnds (c :: rest))
    else b :: unifyEnds (c :: rest)

/-- `bytes.splitlines`. -/
def bytesLines (data : List UInt8) : List (List UInt8) :=
  let split := sections (· == 10) (unifyEnds data)
  if split.2.isEmpty then split.1 else split.1 ++ [split.2]

example : bytesLines [0x61, 13, 10, 13, 0x62, 10, 0x63] = [[0x61], [], [0x62], [0x63]] := by decide

/-- A text that does not stop at a carriage return has its ends to itself. -/
theorem unifyEnds_append {a : List UInt8} (h : a.getLast? ≠ some 13) (b : List UInt8) :
    unifyEnds (a ++ b) = unifyEnds a ++ unifyEnds b := by
  fun_induction unifyEnds a with
  | case1 => rfl
  | case2 x =>
    have hx : ¬x = 13 := by
      intro hx
      exact h (by rw [hx]; rfl)
    cases b with
    | nil => simp [unifyEnds, hx]
    | cons c b => simp [unifyEnds, hx]
  | case3 c rest ih' ih =>
    by_cases hpair : c = 10
    · have hrest : rest.getLast? ≠ some 13 := by
        intro hlast
        cases rest with
        | nil => cases hlast
        | cons d rest => exact h (by rw [List.getLast?_cons_cons, List.getLast?_cons_cons, hlast])
      simp only [List.cons_append, unifyEnds, if_pos hpair, if_true, ih' hrest]
    · have hrest : (c :: rest).getLast? ≠ some 13 := by
        rw [List.getLast?_cons_cons] at h
        exact h
      have hsplit := ih hrest
      rw [List.cons_append] at hsplit
      simp only [List.cons_append, unifyEnds, if_neg hpair, if_true, hsplit]
  | case4 x c rest hx ih =>
    have hrest : (c :: rest).getLast? ≠ some 13 := by
      rw [List.getLast?_cons_cons] at h
      exact h
    have hsplit := ih hrest
    rw [List.cons_append] at hsplit
    simp only [List.cons_append, unifyEnds, if_neg hx, hsplit]

/-- A text that stops at a line feed still does. -/
theorem unifyEnds_closed (a : List UInt8) : ∃ u, unifyEnds (a ++ [10]) = u ++ [10] := by
  fun_induction unifyEnds a with
  | case1 => exact ⟨[], rfl⟩
  | case2 x =>
    by_cases hx : x = 13
    · exact ⟨[], by simp [unifyEnds, hx]⟩
    · exact ⟨[x], by simp [unifyEnds, hx]⟩
  | case3 c rest ih' ih =>
    by_cases hpair : c = 10
    · obtain ⟨u, hu⟩ := ih'
      exact ⟨10 :: u, by simp [unifyEnds, hpair, hu]⟩
    · obtain ⟨u, hu⟩ := ih
      rw [List.cons_append] at hu
      exact ⟨10 :: u, by simp [unifyEnds, hpair, hu]⟩
  | case4 x c rest hx ih =>
    obtain ⟨u, hu⟩ := ih
    rw [List.cons_append] at hu
    exact ⟨x :: u, by simp [unifyEnds, hx, hu]⟩

/-- Whole lines: nothing, or a text that stops at a line feed. -/
def WholeLines (data : List UInt8) : Prop := data = [] ∨ ∃ a, data = a ++ [10]

theorem sections_whole {data : List UInt8} (h : WholeLines data) :
    (sections (· == 10) (unifyEnds data)).2 = [] := by
  rcases h with rfl | ⟨a, rfl⟩
  · rfl
  · obtain ⟨u, hu⟩ := unifyEnds_closed a
    obtain ⟨first, more, hsections⟩ := @sections_snoc _ (· == (10 : UInt8)) 10 rfl u
    rw [hu, hsections]

/-- The lines of whole lines and of what follows them. -/
theorem bytesLines_append {a b : List UInt8} (ha : WholeLines a) :
    bytesLines (a ++ b) = bytesLines a ++ bytesLines b := by
  have hlast : a.getLast? ≠ some 13 := by
    rcases ha with rfl | ⟨a, rfl⟩
    · simp
    · simp
  have hclosed := sections_whole ha
  rw [bytesLines, bytesLines, bytesLines, unifyEnds_append hlast, sections_append_closed hclosed,
    hclosed]
  dsimp only
  by_cases hb : (sections (· == 10) (unifyEnds b)).2.isEmpty = true
  · rw [if_pos hb, if_pos hb]
    rfl
  · rw [if_neg hb, if_neg hb, List.append_assoc]
    rfl

end Rheostream
