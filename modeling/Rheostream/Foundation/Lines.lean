import Mathlib.Data.List.Basic

/-!
# Lines, searching and replacing

A text is a list of symbols, and one symbol ends a line. The operations look for the first
occurrence of a needle, replace its occurrences one after the other, and rewrite each line.
-/

namespace Rheostream.Lines

universe u

variable {α : Type u}

theorem intercalate_cons {brk : α} {line : List α} {ls : List (List α)} :
    [brk].intercalate (line :: ls) = line ++ ls.flatMap (brk :: ·) := by
  induction ls generalizing line with
  | nil => simp
  | cons next ls ih =>
    rw [List.intercalate_cons_cons, ih, List.flatMap_cons]
    simp

variable [DecidableEq α]

/-- The index of the first occurrence. -/
def find (needle : List α) : List α → Option ℕ
  | [] => if needle.isEmpty then some 0 else none
  | c :: rest =>
    if needle.isPrefixOf (c :: rest) then some 0 else (find needle rest).map (· + 1)

/-- Replaces every occurrence, where the next symbols of an occurrence are still to be skipped. -/
def replaceFrom (old new : List α) : ℕ → List α → List α
  | _, [] => []
  | skip + 1, _ :: rest => replaceFrom old new skip rest
  | 0, c :: rest =>
    if old.isPrefixOf (c :: rest) then new ++ replaceFrom old new (old.length - 1) rest
    else c :: replaceFrom old new 0 rest

/-- Replaces every occurrence, from the left and without overlaps. -/
def replace (old new text : List α) : List α := replaceFrom old new 0 text

/-- Rewrites each line. -/
def mapLines (brk : α) (f : List α → List α) (text : List α) : List α :=
  [brk].intercalate ((text.splitOn brk).map f)

variable {brk : α} {a b line needle old new text word : List α} {ls : List (List α)}

/-! ### The lines of a text -/

theorem not_mem_of_mem_splitOn (h : line ∈ text.splitOn brk) : brk ∉ line := by
  induction text generalizing line with
  | nil =>
    rw [List.splitOn_nil, List.mem_singleton] at h
    rw [h]
    exact List.not_mem_nil
  | cons c text ih =>
    rw [List.splitOn_cons_eq_if_modifyHead] at h
    split_ifs at h with hc
    · rcases List.mem_cons.mp h with rfl | hin
      · exact List.not_mem_nil
      · exact ih hin
    · obtain ⟨first, ls, hsplit⟩ := List.exists_cons_of_ne_nil (List.splitOn_ne_nil brk text)
      rw [hsplit] at h ih
      rcases List.mem_cons.mp h with rfl | hin
      · intro hmem
        rcases List.mem_cons.mp hmem with rfl | hmem
        · exact hc (beq_self_eq_true _)
        · exact ih List.mem_cons_self hmem
      · exact ih (List.mem_cons_of_mem _ hin)

theorem mem_of_mem_splitOn {c : α} (h : line ∈ text.splitOn brk) (hc : c ∈ line) : c ∈ text := by
  have hmem : c ∈ [brk].intercalate (text.splitOn brk) := by
    obtain ⟨before, after, hsplit⟩ := List.append_of_mem h
    rw [hsplit]
    cases before with
    | nil =>
      rw [List.nil_append, intercalate_cons]
      exact List.mem_append_left _ hc
    | cons first before =>
      rw [List.cons_append, intercalate_cons, List.flatMap_append, List.flatMap_cons]
      simp [hc]
  rwa [List.intercalate_splitOn] at hmem

/-- A text is a line and, each after a break, the other lines. -/
theorem exists_lines (brk : α) (text : List α) : ∃ line ls, text.splitOn brk = line :: ls ∧
    text = line ++ ls.flatMap (brk :: ·) ∧ brk ∉ line ∧ ∀ l ∈ ls, brk ∉ l := by
  obtain ⟨line, ls, hsplit⟩ := List.exists_cons_of_ne_nil (List.splitOn_ne_nil brk text)
  refine ⟨line, ls, hsplit, ?_, ?_, fun l hl => ?_⟩
  · rw [← intercalate_cons, ← hsplit, List.intercalate_splitOn]
  · exact not_mem_of_mem_splitOn (hsplit ▸ List.mem_cons_self)
  · exact not_mem_of_mem_splitOn (hsplit ▸ List.mem_cons_of_mem _ hl)

theorem mapLines_eq {f : List α → List α} (hsplit : text.splitOn brk = line :: ls) :
    mapLines brk f text = f line ++ (ls.map f).flatMap (brk :: ·) := by
  rw [mapLines, hsplit, List.map_cons, intercalate_cons]

/-- Lines that stay without breaks are the lines of the rewritten text. -/
theorem splitOn_mapLines {f : List α → List α} (hf : ∀ l, brk ∉ l → brk ∉ f l) (text : List α) :
    (mapLines brk f text).splitOn brk = (text.splitOn brk).map f := by
  refine List.splitOn_intercalate brk (fun l hl => ?_) (by simp)
  obtain ⟨l', hl', rfl⟩ := List.mem_map.mp hl
  exact hf l' (not_mem_of_mem_splitOn hl')

theorem mapLines_mapLines {f g : List α → List α} (hf : ∀ l, brk ∉ l → brk ∉ f l)
    (text : List α) : mapLines brk g (mapLines brk f text) = mapLines brk (g ∘ f) text := by
  rw [mapLines, splitOn_mapLines hf, List.map_map, mapLines]

theorem mapLines_id (text : List α) : mapLines brk id text = text := by
  rw [mapLines, List.map_id, List.intercalate_splitOn]

/-! ### Replacing -/

/-- The symbols to be skipped are skipped. -/
theorem replaceFrom_skip {n : ℕ} (h : a.length = n) :
    replaceFrom old new n (a ++ b) = replace old new b := by
  induction a generalizing n with
  | nil =>
    subst h
    rfl
  | cons c a ih =>
    cases n with
    | zero => cases h
    | succ n => exact ih (Nat.succ.inj h)

theorem replace_old (hold : old ≠ []) :
    replace old new (old ++ b) = new ++ replace old new b := by
  cases old with
  | nil => exact absurd rfl hold
  | cons c rest =>
    have hprefix : (c :: rest).isPrefixOf (c :: (rest ++ b)) = true := by simp
    rw [List.cons_append, replace, replaceFrom, if_pos hprefix]
    exact congrArg (new ++ ·) (replaceFrom_skip rfl)

theorem replace_cons {c : α} (h : old.isPrefixOf (c :: b) = false) :
    replace old new (c :: b) = c :: replace old new b := by
  rw [replace, replaceFrom, if_neg (by simp [h])]
  rfl

/-- Symbols that no occurrence begins with stay. -/
theorem replace_append (h : ∀ c ∈ a, ∀ rest, old.isPrefixOf (c :: rest) = false) :
    replace old new (a ++ b) = a ++ replace old new b := by
  induction a with
  | nil => rfl
  | cons c a ih =>
    rw [List.cons_append, replace_cons (h c List.mem_cons_self _),
      ih fun c' hc' => h c' (List.mem_cons_of_mem _ hc'), List.cons_append]

/-- A text that goes on with a new line, or ends. -/
def LineEnds (brk : α) (text : List α) : Prop := text = [] ∨ ∃ rest, text = brk :: rest

/-- What is replaced in each line is replaced in the text. -/
theorem replace_mapLines {coded plain : List α → List α}
    (hbrk : ∀ rest, old.isPrefixOf (brk :: rest) = false)
    (hline : ∀ l ∈ text.splitOn brk, ∀ tail, LineEnds brk tail →
      replace old new (coded l ++ tail) = plain l ++ replace old new tail) :
    replace old new (mapLines brk coded text) = mapLines brk plain text := by
  obtain ⟨line, ls, hsplit, -, -, -⟩ := exists_lines brk text
  rw [hsplit] at hline
  rw [mapLines_eq hsplit, mapLines_eq hsplit]
  have hends : ∀ ls' : List (List α), LineEnds brk ((ls'.map coded).flatMap (brk :: ·)) := by
    intro ls'
    cases ls' with
    | nil => exact .inl rfl
    | cons l ls' => exact .inr ⟨_, rfl⟩
  have htail : ∀ ls' : List (List α), (∀ l ∈ ls', l ∈ line :: ls) →
      replace old new ((ls'.map coded).flatMap (brk :: ·)) =
        (ls'.map plain).flatMap (brk :: ·) := by
    intro ls' hsub
    induction ls' with
    | nil => rfl
    | cons l ls' ih =>
      rw [List.map_cons, List.flatMap_cons, List.cons_append, replace_cons (hbrk _),
        hline l (hsub l List.mem_cons_self) _ (hends ls'),
        ih fun l' hl' => hsub l' (List.mem_cons_of_mem _ hl')]
      rfl
  rw [hline line List.mem_cons_self _ (hends ls),
    htail ls fun l hl => List.mem_cons_of_mem _ hl]

/-! ### Searching -/

theorem find_zero {c : α} (h : needle.isPrefixOf (c :: b) = true) :
    find needle (c :: b) = some 0 := if_pos h

theorem find_cons {c : α} (h : needle.isPrefixOf (c :: b) = false) :
    find needle (c :: b) = (find needle b).map (· + 1) := if_neg (Bool.eq_false_iff.mp h)

/-- Symbols that no occurrence begins with are passed over. -/
theorem find_append (h : ∀ c ∈ a, ∀ rest, needle.isPrefixOf (c :: rest) = false) :
    find needle (a ++ b) = (find needle b).map (a.length + ·) := by
  induction a with
  | nil => simp
  | cons c a ih =>
    rw [List.cons_append, find_cons (h c List.mem_cons_self _),
      ih fun c' hc' => h c' (List.mem_cons_of_mem _ hc'), Option.map_map]
    refine congrArg (Option.map · _) (funext fun n => ?_)
    simp only [Function.comp_apply, List.length_cons]
    omega

theorem not_prefix_of_not_mem (hline : brk ∉ line) :
    ∀ c ∈ line, ∀ rest, (brk :: word ++ [brk]).isPrefixOf (c :: rest) = false := by
  intro c hc rest
  have hdiffers : brk ≠ c := fun h => hline (h ▸ hc)
  rw [List.cons_append, List.isPrefixOf_cons_cons, beq_eq_false_iff_ne.mpr hdiffers, Bool.false_and]

/-- A line between breaks does not begin at another line. -/
theorem not_prefix_of_ne (hline : brk ∉ line) (hword : brk ∉ word) (hne : line ≠ word)
    {tail : List α} (htail : LineEnds brk tail) :
    (brk :: word ++ [brk]).isPrefixOf (brk :: (line ++ tail)) = false := by
  refine Bool.eq_false_iff.mpr fun hprefix => ?_
  rw [List.isPrefixOf_iff_prefix, List.cons_append, List.cons_prefix_cons] at hprefix
  obtain ⟨rest, hrest⟩ := hprefix.2
  rw [List.append_assoc, List.singleton_append] at hrest
  have hsplit := congrArg (List.splitOn brk) hrest
  rw [List.splitOn_append_cons_self_of_not_mem hword] at hsplit
  rcases htail with rfl | ⟨tail, rfl⟩
  · rw [List.append_nil, List.splitOn_eq_singleton hline] at hsplit
    exact List.splitOn_ne_nil _ _ (List.cons.inj hsplit).2
  · rw [List.splitOn_append_cons_self_of_not_mem hline] at hsplit
    exact hne (List.cons.inj hsplit).1.symm

/-- Where a line between breaks is found that none of the lines before it is. -/
theorem find_word (hword : brk ∉ word) (hls : ∀ l ∈ ls, brk ∉ l ∧ l ≠ word) (rest : List α) :
    find (brk :: word ++ [brk]) (ls.flatMap (brk :: ·) ++ (brk :: word ++ brk :: rest)) =
      some (ls.flatMap (brk :: ·)).length := by
  induction ls with
  | nil =>
    exact find_zero (by simp)
  | cons line ls ih =>
    obtain ⟨hline, hne⟩ := hls line List.mem_cons_self
    have hends : LineEnds brk (ls.flatMap (brk :: ·) ++ (brk :: word ++ brk :: rest)) := by
      cases ls with
      | nil => exact .inr ⟨_, rfl⟩
      | cons l ls => exact .inr ⟨_, rfl⟩
    have htext : (line :: ls).flatMap (brk :: ·) ++ (brk :: word ++ brk :: rest) =
        brk :: (line ++ (ls.flatMap (brk :: ·) ++ (brk :: word ++ brk :: rest))) := by simp
    rw [htext, find_cons (not_prefix_of_ne hline hword hne hends),
      find_append (not_prefix_of_not_mem hline),
      ih fun l hl => hls l (List.mem_cons_of_mem _ hl)]
    simp only [Option.map_some, List.flatMap_cons, List.length_append, List.length_cons]
    congr 1
    omega

theorem find_none (hword : brk ∉ word) (hls : ∀ l ∈ ls, brk ∉ l ∧ l ≠ word) :
    find (brk :: word ++ [brk]) (ls.flatMap (brk :: ·)) = none := by
  induction ls with
  | nil => rfl
  | cons line ls ih =>
    obtain ⟨hline, hne⟩ := hls line List.mem_cons_self
    have hends : LineEnds brk (ls.flatMap (brk :: ·)) := by
      cases ls with
      | nil => exact .inl rfl
      | cons l ls => exact .inr ⟨_, rfl⟩
    have htext : (line :: ls).flatMap (brk :: ·) = brk :: (line ++ ls.flatMap (brk :: ·)) := rfl
    rw [htext, find_cons (not_prefix_of_ne hline hword hne hends),
      find_append (not_prefix_of_not_mem hline), ih fun l hl => hls l (List.mem_cons_of_mem _ hl)]
    rfl

/-- A line that a text does not have is found between breaks after it. -/
theorem find_after (hword : brk ∉ word) (hnot : word ∉ text.splitOn brk) (rest : List α) :
    find (brk :: word ++ [brk]) (text ++ (brk :: word ++ brk :: rest)) = some text.length := by
  obtain ⟨line, ls, hsplit, htext, hline, hls⟩ := exists_lines brk text
  rw [hsplit] at hnot
  have hfree : ∀ l ∈ ls, brk ∉ l ∧ l ≠ word := fun l hl =>
    ⟨hls l hl, fun h => hnot (h ▸ List.mem_cons_of_mem _ hl)⟩
  rw [htext, List.append_assoc, find_append (not_prefix_of_not_mem hline), find_word hword hfree,
    Option.map_some, List.length_append]

theorem find_eq_none (hword : brk ∉ word) (hnot : word ∉ text.splitOn brk) :
    find (brk :: word ++ [brk]) text = none := by
  obtain ⟨line, ls, hsplit, htext, hline, hls⟩ := exists_lines brk text
  rw [hsplit] at hnot
  have hfree : ∀ l ∈ ls, brk ∉ l ∧ l ≠ word := fun l hl =>
    ⟨hls l hl, fun h => hnot (h ▸ List.mem_cons_of_mem _ hl)⟩
  rw [htext, find_append (not_prefix_of_not_mem hline), find_none hword hfree, Option.map_none]

end Rheostream.Lines
