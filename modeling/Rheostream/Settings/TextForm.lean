import Mathlib.Data.List.TakeWhile
import Rheostream.Settings.Schema

/-!
# What a text form reads back as

An integer, a boolean and a string are read back as they were written. Of a list, what is read
back are the pieces of its items, so an item is read back as itself when it is clean.
-/

namespace Rheostream.Settings

/-! ## Lists -/

/-- An item that is its own only piece: not empty, without a comma, and stripped. -/
def isClean (item : List Char) : Bool :=
  !item.isEmpty && !item.contains ',' && stripChars item == item

variable {item : List Char}

theorem isClean_iff : isClean item = true ↔ item ≠ [] ∧ ',' ∉ item ∧ stripChars item = item := by
  rw [isClean, Bool.and_eq_true, Bool.and_eq_true, and_assoc]
  simp

theorem itemsOf_append (a r : List Char) : itemsOf (a ++ ',' :: r) = itemsOf a ++ itemsOf r := by
  have hsplit : splitCommas (a ++ ',' :: r) = splitCommas a ++ splitCommas r := by
    rw [splitCommas, sections_append_ends rfl, splitCommas, splitCommas]
    simp
  rw [itemsOf, hsplit, List.map_append, List.filter_append]
  rfl

/-- A list is read back as the pieces of its items. -/
theorem itemsOf_intercalate (items : List (List Char)) :
    itemsOf ([','].intercalate items) = items.flatMap itemsOf := by
  induction items with
  | nil => rfl
  | cons a items ih =>
    cases items with
    | nil => simp [List.intercalate]
    | cons b items =>
      have hjoin : [','].intercalate (a :: b :: items) =
          a ++ ',' :: [','].intercalate (b :: items) := by
        simp [List.intercalate]
      rw [hjoin, itemsOf_append, ih]
      exact List.flatMap_cons.symm

variable {text : List Char} {c : Char}

theorem mem_of_mem_strip (h : c ∈ stripChars text) : c ∈ text := by
  rw [stripChars, List.mem_reverse] at h
  have hleft := (List.dropWhile_sublist isPySpace).subset h
  rw [List.mem_reverse] at hleft
  exact (List.dropWhile_sublist isPySpace).subset hleft

theorem dropWhile_dropWhile (l : List Char) :
    (l.dropWhile isPySpace).dropWhile isPySpace = l.dropWhile isPySpace := by
  induction l with
  | nil => rfl
  | cons c l ih =>
    by_cases hc : isPySpace c = true
    · rw [List.dropWhile_cons_of_pos hc, ih]
    · rw [List.dropWhile_cons_of_neg hc, List.dropWhile_cons_of_neg hc]

/-- What is stripped is stripped. -/
theorem strip_strip (text : List Char) : stripChars (stripChars text) = stripChars text := by
  -- stripping the right end keeps the left one, which is no space
  have hprefix : stripChars text <+: lstripChars text := by
    rw [stripChars, ← List.reverse_suffix, List.reverse_reverse]
    exact List.dropWhile_suffix isPySpace
  have hleft : lstripChars (stripChars text) = stripChars text := by
    cases hstrip : stripChars text with
    | nil => rfl
    | cons c rest =>
      obtain ⟨tail, htail⟩ := hprefix
      rw [hstrip, List.cons_append] at htail
      have hidle : lstripChars (lstripChars text) = lstripChars text := dropWhile_dropWhile text
      rw [← htail] at hidle
      rw [lstripChars] at hidle ⊢
      by_cases hc : isPySpace c = true
      · rw [List.dropWhile_cons_of_pos hc] at hidle
        have hlength := congrArg List.length hidle
        have hle := (List.dropWhile_sublist isPySpace (l := rest ++ tail)).length_le
        rw [List.length_cons] at hlength
        omega
      · exact List.dropWhile_cons_of_neg hc
  rw [stripChars, hleft, stripChars, List.reverse_reverse, dropWhile_dropWhile]

/-- A piece is clean. -/
theorem isClean_of_mem_itemsOf (h : item ∈ itemsOf text) : isClean item = true := by
  obtain ⟨hmem, hne⟩ := List.mem_filter.mp h
  obtain ⟨piece, hpiece, rfl⟩ := List.mem_map.mp hmem
  refine isClean_iff.mpr ⟨?_, ?_, strip_strip piece⟩
  · simpa using hne
  · intro hcomma
    have hfree := sections_free hpiece _ (mem_of_mem_strip hcomma)
    cases hfree

/-- A clean item is its own only piece. -/
theorem itemsOf_clean (h : isClean item = true) : itemsOf item = [item] := by
  obtain ⟨hne, hcomma, hstrip⟩ := isClean_iff.mp h
  have hfree : ∀ c ∈ item, (c == ',') = false := by
    intro c hc
    refine beq_eq_false_iff_ne.mpr ?_
    rintro rfl
    exact hcomma hc
  rw [itemsOf, splitCommas, sections_open hfree, List.nil_append, List.map_singleton, hstrip]
  exact List.filter_cons_of_pos (by simpa using hne)

/-- Clean items are read back as they are. -/
theorem flatMap_itemsOf_clean {items : List (List Char)} (h : ∀ x ∈ items, isClean x = true) :
    items.flatMap itemsOf = items := by
  induction items with
  | nil => rfl
  | cons x items ih =>
    rw [List.flatMap_cons, itemsOf_clean (h x List.mem_cons_self),
      ih fun y hy => h y (List.mem_cons_of_mem _ hy)]
    rfl

/-! ## Integers -/

theorem isDigit_iff : c.isDigit = true ↔ 48 ≤ c.toNat ∧ c.toNat ≤ 57 := by
  rw [Char.isDigit, Bool.and_eq_true, decide_eq_true_eq, decide_eq_true_eq]
  exact Iff.rfl

theorem pyDigit_of_isDigit (h : c.isDigit = true) : pyDigit c = some (c.toNat - 48) := by
  have hrange := isDigit_iff.mp h
  have hfirst : (decide (48 ≤ c.toNat) && decide (c.toNat < 48 + 10)) = true := by
    rw [Bool.and_eq_true, decide_eq_true_eq, decide_eq_true_eq]
    omega
  have hzeros : decimalZeros = 48 :: decimalZeros.tail := rfl
  rw [pyDigit, hzeros, List.find?_cons, hfirst]
  rfl

theorem pyDigits_of_isDigit (hne : text ≠ []) (h : ∀ c ∈ text, c.isDigit = true) :
    pyDigits text = some (text.map fun c => c.toNat - 48) := by
  induction text with
  | nil => exact absurd rfl hne
  | cons c text ih =>
    have hc := pyDigit_of_isDigit (h c List.mem_cons_self)
    cases text with
    | nil => simp [pyDigits, hc]
    | cons d text =>
      have hd : ¬d = '_' := by
        rintro rfl
        have hdigit := h '_' (List.mem_cons_of_mem _ List.mem_cons_self)
        cases hdigit
      have hrest := ih (List.cons_ne_nil d text) fun x hx => h x (List.mem_cons_of_mem _ hx)
      rw [pyDigits, hc, hrest]
      · rfl
      · exact hd

theorem pyNat_toDigits {n : ℕ} (h : (Nat.toDigits 10 n).length ≤ 4300) :
    pyNat (Nat.toDigits 10 n) = some n := by
  have hdigits : ∀ c ∈ Nat.toDigits 10 n, c.isDigit = true := fun c hc =>
    Nat.isDigit_of_mem_toDigits (by decide) (by decide) hc
  have hvalue := Nat.ofDigitChars_ten_toDigits (n := n)
  rw [Nat.ofDigitChars_eq_foldl] at hvalue
  rw [pyNat, pyDigits_of_isDigit Nat.toDigits_ne_nil hdigits, Option.bind_some, List.length_map,
    if_pos h, List.foldl_map]
  exact congrArg some hvalue

/-- The characters of an integer's text: a sign, or a digit. -/
theorem not_isPySpace_of_mem_intText {n : ℤ} (h : c ∈ intText n) : isPySpace c = false := by
  have hdigit : ∀ c : Char, c.isDigit = true → isPySpace c = false := by
    intro c hc
    have hrange := isDigit_iff.mp hc
    simp only [isPySpace, Bool.or_eq_false_iff, Bool.and_eq_false_iff, decide_eq_false_iff_not,
      beq_eq_false_iff_ne]
    omega
  rw [intText] at h
  rcases List.mem_append.mp h with h | h
  · split at h
    · obtain rfl := List.mem_singleton.mp h
      rfl
    · cases h
  · exact hdigit c (Nat.isDigit_of_mem_toDigits (by decide) (by decide) h)

theorem dropWhile_eq_self {l : List Char} (h : ∀ c ∈ l, isPySpace c = false) :
    l.dropWhile isPySpace = l := by
  cases l with
  | nil => rfl
  | cons c l => exact List.dropWhile_cons_of_neg (Bool.eq_false_iff.mp (h c List.mem_cons_self))

theorem pyStrip_eq_self {l : List Char} (h : ∀ c ∈ l, isPySpace c = false) :
    pyStrip (String.ofList l) = String.ofList l := by
  rw [pyStrip, String.toList_ofList, dropWhile_eq_self h,
    dropWhile_eq_self fun c hc => h c (List.mem_reverse.mp hc), List.reverse_reverse]

/-- An integer is read back. -/
theorem pyInt_intText {n : ℤ} (h : (Nat.toDigits 10 n.natAbs).length ≤ 4300) :
    pyInt (pyStrip (String.ofList (intText n))) = some n := by
  have hspace : ∀ c ∈ intText n, isPySpace c = false := fun c hc =>
    not_isPySpace_of_mem_intText hc
  rw [pyInt, pyStrip_eq_self hspace, pyStrip_eq_self hspace, String.toList_ofList, intText]
  have hnat := pyNat_toDigits h
  by_cases hneg : n < 0
  · rw [if_pos hneg, List.singleton_append]
    have hvalue : -(n.natAbs : ℤ) = n := by omega
    simp only [hnat]
    exact congrArg some hvalue
  · have hvalue : (n.natAbs : ℤ) = n := by omega
    rw [if_neg hneg, List.nil_append]
    split
    next rest heq =>
      have hminus : '-' ∈ Nat.toDigits 10 n.natAbs := heq ▸ List.mem_cons_self
      have hdigit := Nat.isDigit_of_mem_toDigits (by decide) (by decide) hminus
      cases hdigit
    next rest heq =>
      have hplus : '+' ∈ Nat.toDigits 10 n.natAbs := heq ▸ List.mem_cons_self
      have hdigit := Nat.isDigit_of_mem_toDigits (by decide) (by decide) hplus
      cases hdigit
    next =>
      rw [hnat]
      exact congrArg some hvalue

end Rheostream.Settings
