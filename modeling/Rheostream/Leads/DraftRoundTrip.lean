import Mathlib.Data.List.TakeWhile
import Rheostream.Leads.DraftText

/-!
# Written out and read back

What a well-formed draft is written out as is read back as the draft, but for a first question
that is the label of the letter.
-/

namespace Rheostream.Leads.DraftText

open Lines

variable {text line coded tail e question : List Char}

/-! ### Texts without whitespace around them -/

/-- The text has an end at both sides that is not whitespace. -/
structure Solid (text : List Char) : Prop where
  head : ∃ c, text.head? = some c ∧ isPySpace c = false
  last : ∃ c, text.getLast? = some c ∧ isPySpace c = false

theorem dropWhile_of_head {c : Char} (hc : text.head? = some c) (h : isPySpace c = false) :
    text.dropWhile isPySpace = text := by
  cases text with
  | nil => rfl
  | cons c' text =>
    cases hc
    exact List.dropWhile_cons_of_neg (by simp [h])

theorem head_of_dropWhile (hne : text ≠ []) (h : text.dropWhile isPySpace = text) :
    ∃ c, text.head? = some c ∧ isPySpace c = false := by
  cases text with
  | nil => exact absurd rfl hne
  | cons c text =>
    refine ⟨c, rfl, Bool.eq_false_iff.mpr fun hspace => ?_⟩
    rw [List.dropWhile_cons_of_pos hspace] at h
    have hlength := congrArg List.length h
    have hle := (List.dropWhile_sublist isPySpace (l := text)).length_le
    rw [List.length_cons] at hlength
    omega

theorem solid_of_strip (hne : text ≠ []) (h : stripChars text = text) : Solid text := by
  have hlength := congrArg List.length h
  have hright := (List.dropWhile_sublist isPySpace (l := (lstripChars text).reverse)).length_le
  have hleft : (lstripChars text).Sublist text := List.dropWhile_sublist isPySpace
  have hl : lstripChars text = text := by
    refine hleft.eq_of_length_le ?_
    simp only [stripChars, List.length_reverse] at hlength hright
    omega
  have hr : text.reverse.dropWhile isPySpace = text.reverse := by
    rw [stripChars, hl, List.reverse_eq_iff] at h
    exact h
  obtain ⟨c, hc, hspace⟩ := head_of_dropWhile (by simpa using hne) hr
  rw [List.head?_reverse] at hc
  exact ⟨head_of_dropWhile hne hl, c, hc, hspace⟩

/-- Whitespace after the text is what stripping takes. -/
theorem Solid.strip_append (h : Solid text) (hblank : ∀ c ∈ tail, isPySpace c = true) :
    stripChars (text ++ tail) = text := by
  obtain ⟨first, hfirst, hfirstspace⟩ := h.head
  obtain ⟨last, hlast, hlastspace⟩ := h.last
  have hhead : (text ++ tail).head? = some first := by simp [List.head?_append, hfirst]
  have hreverse : text.reverse.head? = some last := by rw [List.head?_reverse, hlast]
  rw [stripChars, lstripChars, dropWhile_of_head hhead hfirstspace, List.reverse_append,
    List.dropWhile_append_of_pos fun c hc => hblank c (List.mem_reverse.mp hc),
    dropWhile_of_head hreverse hlastspace, List.reverse_reverse]

theorem Solid.strip (h : Solid text) : stripChars text = text := by
  have hstrip : stripChars (text ++ []) = text := h.strip_append (by simp)
  rwa [List.append_nil] at hstrip

/-! ### Escaped lines -/

/-- What a line is escaped to. -/
def escapeLine (line : List Char) : List Char := escapeBold (escapeDash line)

/-- A line is the divider's, it begins in bold, or it stays. -/
inductive Escaped : List Char → List Char → Prop
  | dashes : Escaped dashes escDash
  | bold (rest : List Char) : Escaped (bold ++ rest) (escBold ++ rest)
  | plain {line : List Char} : line ≠ DraftText.dashes → bold.isPrefixOf line = false →
      Escaped line line

theorem escaped_escapeLine (line : List Char) : Escaped line (escapeLine line) := by
  unfold escapeLine escapeDash
  split_ifs with hdashes
  · subst hdashes
    exact .dashes
  · unfold escapeBold
    split_ifs with hbold
    · obtain ⟨rest, rfl⟩ := List.isPrefixOf_iff_prefix.mp hbold
      exact .bold rest
    · exact .plain hdashes (Bool.eq_false_iff.mpr hbold)

theorem newline_notMem_escapeDash (h : '\n' ∉ line) : '\n' ∉ escapeDash line := by
  unfold escapeDash
  split_ifs
  · decide
  · exact h

theorem Escaped.newline_notMem (hescaped : Escaped line coded) (h : '\n' ∉ line) :
    '\n' ∉ coded := by
  cases hescaped with
  | dashes => decide
  | bold rest =>
    have hsentinel : '\n' ∉ escBold := by decide
    rw [List.mem_append, not_or] at h ⊢
    exact ⟨hsentinel, h.2⟩
  | plain => exact h

theorem Escaped.ne_dashes (hescaped : Escaped line coded) : coded ≠ DraftText.dashes := by
  cases hescaped with
  | dashes => decide
  | bold rest =>
    intro h
    cases (List.cons.inj h).1
  | plain hne => exact hne

theorem escape_eq (text : List Char) : escape text = mapLines '\n' escapeLine text :=
  mapLines_mapLines (fun _ => newline_notMem_escapeDash) text

theorem splitOn_escape (text : List Char) :
    (escape text).splitOn '\n' = (text.splitOn '\n').map escapeLine := by
  rw [escape_eq]
  exact splitOn_mapLines (fun l => (escaped_escapeLine l).newline_notMem) text

/-- The divider's line is no line of an escaped text. -/
theorem dashes_notMem_escape (text : List Char) : dashes ∉ (escape text).splitOn '\n' := by
  rw [splitOn_escape]
  intro hmem
  obtain ⟨line, -, hline⟩ := List.mem_map.mp hmem
  exact (escaped_escapeLine line).ne_dashes hline

theorem Escaped.head (hescaped : Escaped line coded)
    (h : ∃ c, line.head? = some c ∧ isPySpace c = false) :
    ∃ c, coded.head? = some c ∧ isPySpace c = false := by
  cases hescaped with
  | dashes => exact ⟨'\x00', rfl, rfl⟩
  | bold rest => exact ⟨'\x00', rfl, rfl⟩
  | plain => exact h

theorem Escaped.last (hescaped : Escaped line coded)
    (h : ∃ c, line.getLast? = some c ∧ isPySpace c = false) :
    ∃ c, coded.getLast? = some c ∧ isPySpace c = false := by
  cases hescaped with
  | dashes => exact ⟨'\x00', rfl, rfl⟩
  | bold rest =>
    obtain ⟨c, hc, hspace⟩ := h
    rw [List.getLast?_append] at hc ⊢
    cases hrest : rest.getLast? with
    | none => exact ⟨'\x00', rfl, rfl⟩
    | some c' =>
      rw [hrest] at hc
      exact ⟨c, hc, hspace⟩
  | plain => exact h

/-- A break is whitespace, so the first line has the first character. -/
theorem head_line {ls : List (List Char)}
    (h : ∃ c, (line ++ ls.flatMap ('\n' :: ·)).head? = some c ∧ isPySpace c = false) :
    ∃ c, line.head? = some c ∧ isPySpace c = false := by
  obtain ⟨c, hc, hspace⟩ := h
  cases line with
  | nil =>
    cases ls with
    | nil => cases hc
    | cons l ls =>
      cases hc
      cases hspace
  | cons c' line => exact ⟨c, hc, hspace⟩

/-- The last line has the last one. -/
theorem last_line (h : ∃ c, (text ++ '\n' :: line).getLast? = some c ∧ isPySpace c = false) :
    ∃ c, line.getLast? = some c ∧ isPySpace c = false := by
  obtain ⟨c, hc, hspace⟩ := h
  rw [List.getLast?_append] at hc
  cases line with
  | nil =>
    cases hc
    cases hspace
  | cons c' line =>
    rw [List.getLast?_cons_cons] at hc
    cases hlast : (c' :: line).getLast? with
    | none => cases List.getLast?_eq_none_iff.mp hlast
    | some last =>
      rw [hlast] at hc
      exact ⟨c, hc, hspace⟩

theorem last_append (h : ∃ c, line.getLast? = some c ∧ isPySpace c = false) :
    ∃ c, (text ++ line).getLast? = some c ∧ isPySpace c = false := by
  obtain ⟨c, hc, hspace⟩ := h
  exact ⟨c, by simp [List.getLast?_append, hc], hspace⟩

theorem head_append (h : ∃ c, line.head? = some c ∧ isPySpace c = false) :
    ∃ c, (line ++ tail).head? = some c ∧ isPySpace c = false := by
  obtain ⟨c, hc, hspace⟩ := h
  exact ⟨c, by simp [List.head?_append, hc], hspace⟩

theorem solid_escape (h : Solid text) : Solid (escape text) := by
  obtain ⟨line, ls, hsplit, htext, -, -⟩ := exists_lines '\n' text
  obtain ⟨hhead, hlast⟩ := h
  rw [htext] at hhead hlast
  rw [escape_eq, mapLines_eq hsplit]
  refine ⟨head_append ((escaped_escapeLine line).head (head_line hhead)), ?_⟩
  rcases List.eq_nil_or_concat ls with rfl | ⟨init, final, rfl⟩
  · rw [List.flatMap_nil, List.append_nil] at hlast
    rw [List.map_nil, List.flatMap_nil, List.append_nil]
    exact (escaped_escapeLine line).last hlast
  · rw [List.concat_eq_append, List.flatMap_append, List.flatMap_singleton, ← List.append_assoc]
      at hlast
    rw [List.concat_eq_append, List.map_append, List.flatMap_append, List.map_singleton,
      List.flatMap_singleton, ← List.append_assoc, List.append_cons]
    have hfinal := (escaped_escapeLine final).last (last_line hlast)
    exact last_append hfinal

/-! ### Unescaping -/

theorem not_sentinel {c : Char} (h : c ≠ '\x00') (rest : List Char) :
    escDash.isPrefixOf (c :: rest) = false ∧ escBold.isPrefixOf (c :: rest) = false := by
  have hdiffers : ('\x00' == c) = false := beq_eq_false_iff_ne.mpr h.symm
  constructor
  · rw [escDash, List.isPrefixOf_cons_cons, hdiffers, Bool.false_and]
  · rw [escBold, List.isPrefixOf_cons_cons, hdiffers, Bool.false_and]

theorem replace_dash_plain (hnul : '\x00' ∉ line) (tail : List Char) :
    replace escDash dashes (line ++ tail) = line ++ replace escDash dashes tail :=
  replace_append fun _ hc rest => (not_sentinel (fun h => hnul (h ▸ hc)) rest).1

theorem replace_bold_plain (hnul : '\x00' ∉ line) (tail : List Char) :
    replace escBold bold (line ++ tail) = line ++ replace escBold bold tail :=
  replace_append fun _ hc rest => (not_sentinel (fun h => hnul (h ▸ hc)) rest).2

/-- What goes on to a sentinel is not in the rest of a line. -/
theorem not_prefix_of_nul {word : List Char} (hbreak : '\n' ∉ word) (hnul : '\x00' ∉ line)
    (htail : LineEnds '\n' tail) (rest : List Char) :
    (word ++ '\x00' :: rest).isPrefixOf (line ++ tail) = false := by
  induction word generalizing line with
  | nil =>
    cases line with
    | nil => rcases htail with rfl | ⟨tail, rfl⟩ <;> rfl
    | cons c line =>
      have hdiffers : '\x00' ≠ c := fun h => hnul (h ▸ List.mem_cons_self)
      rw [List.nil_append, List.cons_append, List.isPrefixOf_cons_cons,
        beq_eq_false_iff_ne.mpr hdiffers, Bool.false_and]
  | cons x word ih =>
    rw [List.mem_cons, not_or] at hbreak
    cases line with
    | nil =>
      rcases htail with rfl | ⟨tail, rfl⟩
      · rfl
      · rw [List.nil_append, List.cons_append, List.isPrefixOf_cons_cons,
          beq_eq_false_iff_ne.mpr (Ne.symm hbreak.1), Bool.false_and]
    | cons c line =>
      rw [List.mem_cons, not_or] at hnul
      rw [List.cons_append, List.cons_append, List.isPrefixOf_cons_cons, ih hbreak.2 hnul.2,
        Bool.and_false]

/-- The other sentinel stays. -/
theorem replace_dash_bold (hnul : '\x00' ∉ line) (htail : LineEnds '\n' tail) :
    replace escDash dashes (escBold ++ (line ++ tail)) =
      escBold ++ replace escDash dashes (line ++ tail) := by
  have hfirst : escDash.isPrefixOf (escBold ++ (line ++ tail)) = false := rfl
  have hsecond : escDash.isPrefixOf ('\x00' :: (['B', 'O', 'L', 'D'] ++ '\x00' :: (line ++ tail))) =
      false := rfl
  have hthird : escDash.isPrefixOf ('\x00' :: (line ++ tail)) = false := by
    have hword : '\n' ∉ ['E', 'S', 'C'] := by decide
    rw [escDash, List.isPrefixOf_cons_cons, beq_self_eq_true, Bool.true_and]
    exact not_prefix_of_nul hword hnul htail ['D', 'A', 'S', 'H', '\x00']
  have hesc : '\x00' ∉ ['E', 'S', 'C'] := by decide
  have hbold : '\x00' ∉ ['B', 'O', 'L', 'D'] := by decide
  calc replace escDash dashes (escBold ++ (line ++ tail))
      = '\x00' :: replace escDash dashes (['E', 'S', 'C'] ++ '\x00' ::
          (['B', 'O', 'L', 'D'] ++ '\x00' :: (line ++ tail))) := replace_cons hfirst
    _ = '\x00' :: (['E', 'S', 'C'] ++ '\x00' :: (['B', 'O', 'L', 'D'] ++ '\x00' ::
          replace escDash dashes (line ++ tail))) := by
      rw [replace_dash_plain hesc, replace_cons hsecond, replace_dash_plain hbold,
        replace_cons hthird]

theorem replace_dash (hescaped : Escaped line coded) (hnul : '\x00' ∉ line)
    (htail : LineEnds '\n' tail) :
    replace escDash dashes (coded ++ tail) = escapeBold line ++ replace escDash dashes tail := by
  cases hescaped with
  | dashes => exact replace_old (by decide)
  | bold rest =>
    have hrest : '\x00' ∉ rest := fun h => hnul (List.mem_append_right _ h)
    have hplain : escapeBold (bold ++ rest) = escBold ++ rest := rfl
    rw [List.append_assoc, replace_dash_bold hrest htail, replace_dash_plain hrest, hplain,
      List.append_assoc]
  | plain hne hbold =>
    rw [escapeBold, if_neg (by simp [hbold])]
    exact replace_dash_plain hnul tail

theorem replace_bold (hnul : '\x00' ∉ line) (tail : List Char) :
    replace escBold bold (escapeBold line ++ tail) = line ++ replace escBold bold tail := by
  unfold escapeBold
  split_ifs with hbold
  · obtain ⟨rest, rfl⟩ := List.isPrefixOf_iff_prefix.mp hbold
    have hrest : '\x00' ∉ rest := fun h => hnul (List.mem_append_right _ h)
    have hdrop : (bold ++ rest).drop 2 = rest := rfl
    rw [hdrop, List.append_assoc, replace_old (by decide), replace_bold_plain hrest,
      List.append_assoc]
  · exact replace_bold_plain hnul tail

/-- Escaping is undone. -/
theorem unescape_escape (hnul : '\x00' ∉ text) : unescape (escape text) = text := by
  have hline : ∀ line ∈ text.splitOn '\n', '\x00' ∉ line := fun line hline hmem =>
    hnul (mem_of_mem_splitOn hline hmem)
  have hdash : replace escDash dashes (escape text) = mapLines '\n' escapeBold text := by
    rw [escape_eq]
    exact replace_mapLines (fun rest => (not_sentinel (by decide) rest).1)
      fun line hmem tail htail => replace_dash (escaped_escapeLine line) (hline line hmem) htail
  have hbold : replace escBold bold (mapLines '\n' escapeBold text) = mapLines '\n' id text :=
    replace_mapLines (fun rest => (not_sentinel (by decide) rest).2)
      fun line hmem tail _ => replace_bold (hline line hmem) tail
  rw [unescape, hdash, hbold, mapLines_id]

/-! ### Reading a heading and an answer -/

/-- A heading is not closed before its question is over. -/
theorem heading_open {c : Char} (hline : '\n' ∉ question) (rest : List Char) :
    (bold ++ ['\n']).isPrefixOf (c :: (question ++ bold ++ '\n' :: rest)) = false := by
  rcases question with _ | ⟨d, _ | ⟨d', question⟩⟩
  · simp [bold, List.isPrefixOf_cons_cons]
  · simp [bold, List.isPrefixOf_cons_cons]
  · have hbreak : ('\n' == d') = false := beq_eq_false_iff_ne.mpr fun h => hline (h ▸ by simp)
    simp [bold, List.isPrefixOf_cons_cons, hbreak]

/-- The question of a heading line is read whole, whatever stands in it. -/
theorem matchQuestion_append {taken : List Char} (hline : '\n' ∉ question)
    (hne : taken ++ question ≠ []) (rest : List Char) :
    matchQuestion taken (question ++ bold ++ '\n' :: rest) = some (taken ++ question, rest) := by
  induction question generalizing taken with
  | nil =>
    rw [List.append_nil] at hne ⊢
    cases taken with
    | nil => exact absurd rfl hne
    | cons c taken => rfl
  | cons c question ih =>
    have hopen := heading_open (c := c) (fun h => hline (List.mem_cons_of_mem _ h)) rest
    rw [List.mem_cons, not_or] at hline
    have hrest : matchQuestion (taken ++ [c]) (question ++ bold ++ '\n' :: rest) =
        some (taken ++ c :: question, rest) := by
      rw [ih hline.2 (by simp), List.append_assoc, List.singleton_append]
    rw [List.cons_append, List.cons_append, matchQuestion, hopen, Bool.and_false,
      if_neg Bool.false_ne_true, if_neg (Ne.symm hline.1), hrest]

/-- A line that begins in bold, behind whitespace or not. -/
def BoldLine (line : List Char) : Prop := bold.isPrefixOf (line.dropWhile isPySpace) = true

/-- The lines of a text that a character is put before. -/
theorem mem_splitOn_cons {c : Char} (h : line ∈ text.splitOn '\n') :
    line ∈ (c :: text).splitOn '\n' ∨ c :: line ∈ (c :: text).splitOn '\n' := by
  rw [List.splitOn_cons_eq_if_modifyHead]
  split_ifs
  · exact .inl (List.mem_cons_of_mem _ h)
  · obtain ⟨first, ls, hsplit⟩ := List.exists_cons_of_ne_nil (List.splitOn_ne_nil '\n' text)
    rw [hsplit] at h ⊢
    rcases List.mem_cons.mp h with rfl | hin
    · exact .inr List.mem_cons_self
    · exact .inl (List.mem_cons_of_mem _ hin)

theorem boldLine_of_text (h : BoldLine text) : ∃ line ∈ text.splitOn '\n', BoldLine line := by
  induction text with
  | nil => exact ⟨[], by simp, h⟩
  | cons c text ih =>
    unfold BoldLine at h
    by_cases hspace : isPySpace c = true
    · rw [List.dropWhile_cons_of_pos hspace] at h
      obtain ⟨line, hline, hbold⟩ := ih h
      rcases mem_splitOn_cons (c := c) hline with hin | hin
      · exact ⟨line, hin, hbold⟩
      · refine ⟨c :: line, hin, ?_⟩
        rwa [BoldLine, List.dropWhile_cons_of_pos hspace]
    · rw [List.dropWhile_cons_of_neg hspace] at h
      obtain ⟨rest, hrest⟩ := List.isPrefixOf_iff_prefix.mp h
      obtain ⟨first, ls, hsplit, -, -, -⟩ := exists_lines '\n' rest
      refine ⟨bold ++ first, ?_, ?_⟩
      · rw [← hrest, bold, List.cons_append, List.cons_append, List.nil_append,
          List.splitOn_cons_eq_if_modifyHead, List.splitOn_cons_eq_if_modifyHead, hsplit]
        exact List.mem_cons_self
      · rfl

theorem takeAnswer_append (hend : answerEnds tail = true)
    (hopen : ∀ s, s <:+ e → s ≠ [] → answerEnds (s ++ tail) = false) :
    takeAnswer (e ++ tail) = (e, tail) := by
  induction e with
  | nil =>
    cases tail with
    | nil => rfl
    | cons c tail => rw [List.nil_append, takeAnswer, if_pos hend]
  | cons c e ih =>
    have hfirst := hopen (c :: e) (List.suffix_refl _) (List.cons_ne_nil _ _)
    rw [List.cons_append] at hfirst
    rw [List.cons_append, takeAnswer, hfirst, if_neg Bool.false_ne_true,
      ih fun s hs hne => hopen s (hs.trans (List.suffix_cons c e)) hne]
    rfl

/-- A heading does not begin at the last character of an answer. -/
theorem prefix_of_append (hne : text ≠ []) (htail : LineEnds '\n' tail)
    (h : bold.isPrefixOf (text ++ tail) = true) : bold.isPrefixOf text = true := by
  rcases text with _ | ⟨c, _ | ⟨d, text⟩⟩
  · exact absurd rfl hne
  · rcases htail with rfl | ⟨tail, rfl⟩
    · simpa using h
    · simp [bold, List.isPrefixOf_cons_cons] at h
  · simpa [bold, List.isPrefixOf_cons_cons] using h

/-- An answer without a bold line does not end before its end. -/
theorem answerEnds_suffix (hlast : ∃ c, e.getLast? = some c ∧ isPySpace c = false)
    (hplain : ∀ line ∈ e.splitOn '\n', ¬BoldLine line) (htail : LineEnds '\n' tail) {s : List Char}
    (hs : s <:+ e) (hne : s ≠ []) : answerEnds (s ++ tail) = false := by
  obtain ⟨before, rfl⟩ := hs
  cases s with
  | nil => exact absurd rfl hne
  | cons c s =>
    rw [List.cons_append, answerEnds]
    by_cases hc : c = '\n'
    · subst hc
      obtain ⟨last, hlastchar, hspace⟩ := last_line hlast
      have hsolid : s.dropWhile isPySpace ≠ [] := by
        intro hblank
        have hall := List.dropWhile_eq_nil_iff.mp hblank last (List.mem_of_getLast? hlastchar)
        rw [hspace] at hall
        cases hall
      have hrest : (s ++ tail).isEmpty = false := by
        cases s with
        | nil => cases hlastchar
        | cons c s => rfl
      have hbold : bold.isPrefixOf ((s ++ tail).dropWhile isPySpace) = false := by
        rw [List.dropWhile_append, if_neg (by simpa using hsolid)]
        refine Bool.eq_false_iff.mpr fun hprefix => ?_
        have hline : BoldLine s := prefix_of_append hsolid htail hprefix
        obtain ⟨line, hmem, hboldline⟩ := boldLine_of_text hline
        refine hplain line ?_ hboldline
        rw [List.splitOn_append_cons_self]
        exact List.mem_append_right _ hmem
      rw [hrest, hbold]
      rfl
    · rw [decide_eq_false hc, Bool.false_and]

/-! ### The blocks of a draft -/

/-- A text that a person or the model writes: not empty, stripped, and without NUL. -/
structure IsBody (text : String) : Prop where
  nonempty : text ≠ ""
  trimmed : stripChars text.toList = text.toList
  nulFree : '\x00' ∉ text.toList

/-- A question on one line. -/
structure IsQuestion (text : String) : Prop where
  nonempty : text ≠ ""
  trimmed : stripChars text.toList = text.toList
  oneLine : '\n' ∉ text.toList

/-- A line of the text begins with whitespace and then in bold. -/
def HasIndentedBold (text : String) : Prop :=
  ∃ line ∈ text.toList.splitOn '\n', (line.head?.any isPySpace) = true ∧ BoldLine line

theorem toList_ne_nil {text : String} (h : text ≠ "") : text.toList ≠ [] := by
  simpa using h

theorem IsBody.solid {text : String} (h : IsBody text) : Solid text.toList :=
  solid_of_strip (toList_ne_nil h.nonempty) h.trimmed

theorem Escaped.not_boldLine (hescaped : Escaped line coded)
    (h : ¬((line.head?.any isPySpace) = true ∧ BoldLine line)) : ¬BoldLine coded := by
  cases hescaped with
  | dashes => exact Bool.false_ne_true
  | bold rest => exact Bool.false_ne_true
  | plain hne hbold =>
    intro hline
    cases hhead : line.head? with
    | none =>
      rw [List.head?_eq_none_iff.mp hhead] at hline
      cases hline
    | some c =>
      by_cases hspace : isPySpace c = true
      · exact h ⟨by simpa [hhead] using hspace, hline⟩
      · rw [BoldLine, dropWhile_of_head hhead (Bool.eq_false_iff.mpr hspace), hbold] at hline
        cases hline

/-- What an escaped answer is read as in front of a further block or the end. -/
theorem takeAnswer_escape {text : String} (hbody : IsBody text) (hplain : ¬HasIndentedBold text)
    (hends : LineEnds '\n' tail) (hend : answerEnds tail = true) :
    takeAnswer (escape text.toList ++ tail) = (escape text.toList, tail) := by
  refine takeAnswer_append hend fun s hs hne => ?_
  refine answerEnds_suffix (solid_escape hbody.solid).last (fun line hline => ?_) hends hs hne
  rw [splitOn_escape] at hline
  obtain ⟨line, hmem, rfl⟩ := List.mem_map.mp hline
  exact (escaped_escapeLine line).not_boldLine fun h => hplain ⟨line, hmem, h⟩

/-- The blocks of the answers, each after an empty line. -/
def blocks (answers : List Answer) : List Char := answers.flatMap fun a => '\n' :: '\n' :: block a

theorem ends_blocks (answers : List Answer) : LineEnds '\n' (blocks answers) := by
  cases answers with
  | nil => exact .inl rfl
  | cons a answers => exact .inr ⟨_, rfl⟩

theorem answerEnds_blocks (answers : List Answer) : answerEnds (blocks answers) = true := by
  cases answers with
  | nil => rfl
  | cons a answers => rfl

theorem intercalate_blocks (a : Answer) (answers : List Answer) :
    ['\n', '\n'].intercalate ((a :: answers).map block) = block a ++ blocks answers := by
  induction answers generalizing a with
  | nil => simp [blocks]
  | cons b answers ih =>
    have hrest := ih b
    rw [List.map_cons] at hrest
    have hblocks : blocks (b :: answers) = '\n' :: '\n' :: (block b ++ blocks answers) := rfl
    rw [List.map_cons, List.map_cons, List.intercalate_cons_cons, hrest, hblocks]
    simp

/-- A block is matched whole. -/
theorem matchQa_block {a : Answer} (hquestion : IsQuestion a.question) (hbody : IsBody a.answer)
    (hplain : ¬HasIndentedBold a.answer) (answers : List Answer) :
    matchQa (block a ++ blocks answers) =
      some (a.question.toList, escape a.answer.toList, blocks answers) := by
  have hheading : matchQuestion [] (a.question.toList ++ bold ++
      '\n' :: (escape a.answer.toList ++ blocks answers)) =
        some (a.question.toList, escape a.answer.toList ++ blocks answers) :=
    matchQuestion_append hquestion.oneLine (toList_ne_nil hquestion.nonempty) _
  have htext : block a ++ blocks answers = bold ++ (a.question.toList ++ bold ++
      '\n' :: (escape a.answer.toList ++ blocks answers)) := by
    simp [block]
  have hopen : bold.isPrefixOf (bold ++ (a.question.toList ++ bold ++
      '\n' :: (escape a.answer.toList ++ blocks answers))) = true := by simp
  rw [htext, matchQa, if_pos hopen, bold, List.cons_append, List.cons_append, List.nil_append,
    List.drop_succ_cons, List.drop_succ_cons, List.drop_zero]
  rw [bold] at hheading
  rw [hheading, Option.map_some, takeAnswer_escape hbody hplain (ends_blocks _)
    (answerEnds_blocks _)]

/-- The answer can be written out so that it is read back. -/
structure IsReadable (a : Answer) : Prop where
  question : IsQuestion a.question
  body : IsBody a.answer
  plain : ¬HasIndentedBold a.answer

theorem findMatches_of_matchQa {steps : ℕ} {answer after : List Char}
    (h : matchQa text = some (question, answer, after)) :
    findMatches (steps + 1) text = (question, answer) :: findMatches steps after := by
  cases text with
  | nil => cases h
  | cons c text => rw [findMatches, h]

/-- Every block is a match, and nothing between them is. -/
theorem findMatches_blocks {answers : List Answer} (hreadable : ∀ a ∈ answers, IsReadable a)
    {steps : ℕ} (hsteps : (blocks answers).length ≤ steps) :
    findMatches steps (blocks answers) =
      answers.map fun a => (a.question.toList, escape a.answer.toList) := by
  induction answers generalizing steps with
  | nil => cases steps <;> rfl
  | cons a answers ih =>
    have hblocks : blocks (a :: answers) = '\n' :: '\n' :: (block a ++ blocks answers) := rfl
    have hpos : 0 < (block a).length := Nat.succ_pos _
    rw [hblocks, List.length_cons, List.length_cons, List.length_append] at hsteps
    obtain ⟨steps, rfl⟩ : ∃ n, steps = n + 3 := ⟨steps - 3, by omega⟩
    have ha := hreadable a List.mem_cons_self
    have hmatch := matchQa_block ha.question ha.body ha.plain answers
    calc findMatches (steps + 3) (blocks (a :: answers))
        = findMatches (steps + 1) (block a ++ blocks answers) := rfl
      _ = (a.question.toList, escape a.answer.toList) :: findMatches steps (blocks answers) :=
        findMatches_of_matchQa hmatch
      _ = _ := by
        rw [ih (fun b hb => hreadable b (List.mem_cons_of_mem _ hb)) (by omega), List.map_cons]

theorem parseAnswers_blocks {a : Answer} {answers : List Answer}
    (hreadable : ∀ b ∈ a :: answers, IsReadable b) :
    parseAnswers ('\n' :: (block a ++ blocks answers)) = a :: answers := by
  have hmatches : findMatches (blocks (a :: answers)).length (blocks (a :: answers)) =
      (a :: answers).map fun b => (b.question.toList, escape b.answer.toList) :=
    findMatches_blocks hreadable le_rfl
  -- the first of the two breaks before the block is the divider's
  have hpassed : findMatches (blocks (a :: answers)).length (blocks (a :: answers)) =
      findMatches ('\n' :: (block a ++ blocks answers)).length
        ('\n' :: (block a ++ blocks answers)) := rfl
  have hback : ∀ b ∈ a :: answers, readAnswer (b.question.toList, escape b.answer.toList) = b := by
    intro b hb
    have hb := hreadable b hb
    rw [readAnswer, hb.question.trimmed, (solid_escape hb.body.solid).strip,
      unescape_escape hb.body.nulFree, String.ofList_toList, String.ofList_toList]
  have hanswers : ((a :: answers).map fun b => (b.question.toList, escape b.answer.toList)).map
      readAnswer = a :: answers := by
    rw [List.map_map]
    exact (List.map_congr_left hback).trans (List.map_id _)
  rw [parseAnswers, ← hpassed, hmatches, hanswers]
  rfl

/-! ### The round trip -/

/-- The draft without a first question that is the label of the letter. -/
def Draft.withoutLabel (draft : Draft) : Draft :=
  match draft.answers with
  | [] => draft
  | first :: others =>
    if isCoverLetter first.question then ⟨draft.letter, others⟩ else draft

theorem find_divider (letter rest : List Char) :
    find divider (escape letter ++ ['\n'] ++ divider ++ rest) =
      some (escape letter ++ ['\n']).length := by
  have hbreak : '\n' ∉ dashes := by decide
  have hnot : dashes ∉ (escape letter ++ ['\n']).splitOn '\n' := by
    rw [List.splitOn_append_cons_self, List.splitOn_nil, List.mem_append, not_or]
    exact ⟨dashes_notMem_escape letter, by decide⟩
  have hdivider : divider ++ rest = '\n' :: dashes ++ '\n' :: rest := by simp [divider]
  rw [List.append_assoc _ divider, hdivider]
  exact find_after hbreak hnot rest

theorem parseDraft_of_find {blob : String} {before rest : List Char}
    (hblob : blob.toList = before ++ divider ++ rest)
    (hfind : find divider blob.toList = some before.length) :
    parseDraft blob =
      foldLabel (String.ofList (unescape (stripChars before))) (parseAnswers rest) := by
  have htake : blob.toList.take before.length = before := by
    rw [hblob, List.append_assoc, List.take_left]
  have hdrop : blob.toList.drop (before.length + divider.length) = rest := by
    rw [hblob, ← List.length_append, List.drop_left]
  rw [parseDraft, hfind]
  dsimp only
  rw [htake, hdrop]

/-- What is stripped of the letter is the break before the divider. -/
theorem letter_back {letter : String} (h : IsBody letter)
    (hblank : ∀ c ∈ tail, isPySpace c = true) :
    String.ofList (unescape (stripChars (escape letter.toList ++ tail))) = letter := by
  rw [(solid_escape h.solid).strip_append hblank, unescape_escape h.nulFree, String.ofList_toList]

/-- A draft is read back as it was, without the label. -/
theorem parse_render {draft : Draft} (hletter : IsBody draft.letter)
    (hreadable : ∀ a ∈ draft.answers, IsReadable a) :
    parseDraft (renderDraft draft) = draft.withoutLabel := by
  obtain ⟨letter, answers⟩ := draft
  cases answers with
  | nil =>
    have hrender : renderDraft ⟨letter, []⟩ = String.ofList (escape letter.toList) := rfl
    have hnone : find divider (escape letter.toList) = none :=
      find_eq_none (by decide) (dashes_notMem_escape _)
    have hback : String.ofList (unescape (stripChars (escape letter.toList ++ []))) = letter :=
      letter_back hletter (by simp)
    rw [List.append_nil] at hback
    rw [hrender, parseDraft, String.toList_ofList, hnone]
    exact congrArg (Draft.mk · []) hback
  | cons a answers =>
    have hrender : (renderDraft ⟨letter, a :: answers⟩).toList =
        escape letter.toList ++ ['\n'] ++ divider ++ '\n' :: (block a ++ blocks answers) := by
      rw [renderDraft, if_neg (by simp), String.toList_ofList, intercalate_blocks]
      simp
    have hfind : find divider (renderDraft ⟨letter, a :: answers⟩).toList =
        some (escape letter.toList ++ ['\n']).length := by
      rw [hrender]
      exact find_divider letter.toList _
    have hbreak : ∀ c ∈ ['\n'], isPySpace c = true := by
      intro c hc
      rw [List.mem_singleton.mp hc]
      rfl
    have hback := letter_back hletter hbreak
    rw [parseDraft_of_find hrender hfind, hback, parseAnswers_blocks hreadable, foldLabel,
      Draft.withoutLabel, if_neg hletter.nonempty]

instance (text : String) : Decidable (IsBody text) :=
  decidable_of_iff (text ≠ "" ∧ stripChars text.toList = text.toList ∧ '\x00' ∉ text.toList)
    ⟨fun h => ⟨h.1, h.2.1, h.2.2⟩, fun h => ⟨h.nonempty, h.trimmed, h.nulFree⟩⟩

instance (text : String) : Decidable (IsQuestion text) :=
  decidable_of_iff (text ≠ "" ∧ stripChars text.toList = text.toList ∧ '\n' ∉ text.toList)
    ⟨fun h => ⟨h.1, h.2.1, h.2.2⟩, fun h => ⟨h.nonempty, h.trimmed, h.oneLine⟩⟩

instance (text : String) : Decidable (HasIndentedBold text) :=
  inferInstanceAs (Decidable (∃ line ∈ text.toList.splitOn '\n',
    (line.head?.any isPySpace) = true ∧ bold.isPrefixOf (line.dropWhile isPySpace) = true))

/-- A letter with a line of dashes, and answers with a bold start and a question in bold. -/
def sampleDraft : Draft :=
  ⟨"Opening line.\n---\nA body line.",
    [⟨"What is your rate?", "**Bold** start.\n**Rate**\n$50."⟩, ⟨"A **start**", "Monday."⟩]⟩

/-- A letter with two answers is read back. -/
theorem parse_render_sample : parseDraft (renderDraft sampleDraft) = sampleDraft := by
  have hletter : IsBody sampleDraft.letter := by decide
  have hreadable : ∀ a ∈ sampleDraft.answers, IsReadable a := by
    intro a ha
    simp only [sampleDraft, List.mem_cons, List.not_mem_nil, or_false] at ha
    rcases ha with rfl | rfl
    · exact ⟨by decide, by decide, by decide⟩
    · exact ⟨by decide, by decide, by decide⟩
  exact parse_render hletter hreadable

/-- A question with the label of the letter is not read back. -/
theorem label_dropped :
    ¬∀ draft : Draft, IsBody draft.letter →
      (∀ a ∈ draft.answers, IsQuestion a.question ∧ IsBody a.answer) →
      parseDraft (renderDraft draft) = draft := by
  intro h
  have hdropped := h ⟨"Dear all.", [⟨"Cover letter", "See above."⟩]⟩ (by decide) (by decide)
  exact absurd hdropped (by decide)

end Rheostream.Leads.DraftText
