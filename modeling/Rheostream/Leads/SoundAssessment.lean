import Mathlib.Data.List.TakeWhile
import Rheostream.Leads.JobAssessment

/-!
# Excerpts and answers

The excerpts are pieces of the text with only whitespace between them. What satisfies the schema
that is sent for them passes the checks, and what passes the checks is written out from texts that
its identifiers name.
-/

namespace Rheostream.Leads.Tier2

variable {l rest : List Char} {pieces more : List (List Char)}

/-! ### Pieces and the whitespace between them -/

/-- Only whitespace. -/
def Blank (l : List Char) : Prop := ∀ c ∈ l, isPySpace c = true

/-- A text is its pieces one after the other, with whitespace before and after each. -/
inductive Spaced : List (List Char) → List Char → Prop
  | done {space : List Char} : Blank space → Spaced [] space
  | piece {space e rest : List Char} {es : List (List Char)} : Blank space → Spaced es rest →
      Spaced (e :: es) (space ++ e ++ rest)

theorem Blank.append {a b : List Char} (ha : Blank a) (hb : Blank b) : Blank (a ++ b) := by
  intro c hc
  rcases List.mem_append.mp hc with h | h
  · exact ha c h
  · exact hb c h

theorem blank_nil : Blank [] := by
  intro c hc
  cases hc

theorem Spaced.space_left {space : List Char} (hspace : Blank space) (h : Spaced pieces l) :
    Spaced pieces (space ++ l) := by
  cases h with
  | done hblank => exact .done (hspace.append hblank)
  | piece hblank hrest =>
    rw [List.append_assoc, ← List.append_assoc, ← List.append_assoc]
    exact .piece (hspace.append hblank) hrest

theorem Spaced.append (h : Spaced pieces l) (h' : Spaced more rest) :
    Spaced (pieces ++ more) (l ++ rest) := by
  induction h with
  | done hblank => exact h'.space_left hblank
  | piece hblank _ ih =>
    rw [List.append_assoc]
    exact .piece hblank ih

theorem Spaced.space_right {space : List Char} (hspace : Blank space) (h : Spaced pieces l) :
    Spaced pieces (l ++ space) := by
  have happend := h.append (.done hspace)
  rwa [List.append_nil] at happend

variable {e : List Char}

/-- Each piece stands in the text as it is. -/
theorem Spaced.stands (h : Spaced pieces l) (he : e ∈ pieces) : e <:+: l := by
  induction h with
  | done => cases he
  | @piece space e' rest es _ _ ih =>
    rcases List.mem_cons.mp he with rfl | hin
    · exact ⟨space, rest, rfl⟩
    · exact (ih hin).trans ⟨space ++ e', [], by simp⟩

/-! ### Cutting a line -/

theorem rfindSpace_lt {i : ℕ} (h : rfindSpace l = some i) : i < l.length := by
  induction l generalizing i with
  | nil => cases h
  | cons c l ih =>
    unfold rfindSpace at h
    cases hrest : rfindSpace l with
    | some j =>
      rw [hrest] at h
      cases h
      have hj := ih hrest
      rw [List.length_cons]
      omega
    | none =>
      rw [hrest] at h
      dsimp only at h
      split_ifs at h
      cases h
      rw [List.length_cons]
      omega

/-- An excerpt is not empty, not longer than what remains, and not longer than it may be. -/
theorem excerptEnd_bounds (h : l ≠ []) :
    0 < excerptEnd l ∧ excerptEnd l ≤ l.length ∧ excerptEnd l ≤ excerptChars := by
  have hpos : 0 < l.length := List.length_pos_iff.mpr h
  have hchars : excerptChars = 240 := rfl
  unfold excerptEnd
  dsimp only
  split_ifs with hlong
  · cases hboundary : rfindSpace (l.take (min excerptChars l.length + 1)) with
    | none =>
      dsimp only
      omega
    | some boundary =>
      have hlt := rfindSpace_lt hboundary
      rw [List.length_take] at hlt
      dsimp only
      split_ifs <;> omega
  · omega

theorem lstripChars_split (l : List Char) :
    ∃ space, Blank space ∧ l = space ++ lstripChars l := by
  refine ⟨l.takeWhile isPySpace, fun c hc => ?_, ?_⟩
  · exact List.mem_takeWhile_imp hc
  · exact (List.takeWhile_append_dropWhile).symm

theorem length_lstripChars (l : List Char) : (lstripChars l).length ≤ l.length := by
  obtain ⟨space, -, hsplit⟩ := lstripChars_split l
  have hlength := congrArg List.length hsplit
  rw [List.length_append] at hlength
  omega

/-- What remains after an excerpt is shorter. -/
theorem length_remaining (h : l ≠ []) :
    (lstripChars (l.drop (excerptEnd l))).length < l.length := by
  obtain ⟨hpos, hle, -⟩ := excerptEnd_bounds h
  have hstrip := length_lstripChars (l.drop (excerptEnd l))
  rw [List.length_drop] at hstrip
  omega

variable {rounds : ℕ}

/-- As many rounds as there are characters leave nothing of a line. -/
theorem spaced_cutLine (h : l.length ≤ rounds) : Spaced (cutLine rounds l) l := by
  induction rounds generalizing l with
  | zero =>
    have hnil : l = [] := List.length_eq_zero_iff.mp (by omega)
    subst hnil
    exact .done blank_nil
  | succ rounds ih =>
    unfold cutLine
    split_ifs with hempty
    · rw [List.isEmpty_iff.mp hempty]
      exact .done blank_nil
    · have hne : l ≠ [] := by simpa using hempty
      have hless := length_remaining hne
      obtain ⟨space, hspace, hsplit⟩ := lstripChars_split (l.drop (excerptEnd l))
      have hrest : Spaced (cutLine rounds (lstripChars (l.drop (excerptEnd l))))
          (l.drop (excerptEnd l)) := by
        have hcut := (ih (l := lstripChars (l.drop (excerptEnd l))) (by omega)).space_left hspace
        rwa [← hsplit] at hcut
      have hpiece := Spaced.piece blank_nil hrest (e := l.take (excerptEnd l))
      rwa [List.nil_append, List.take_append_drop] at hpiece

/-- More rounds change nothing: the loop has ended. -/
theorem cutLine_rounds {rounds' : ℕ} (h : l.length ≤ rounds) (h' : l.length ≤ rounds') :
    cutLine rounds l = cutLine rounds' l := by
  induction rounds generalizing l rounds' with
  | zero =>
    have hnil : l = [] := List.length_eq_zero_iff.mp (by omega)
    subst hnil
    cases rounds' <;> rfl
  | succ rounds ih =>
    cases rounds' with
    | zero =>
      have hnil : l = [] := List.length_eq_zero_iff.mp (by omega)
      subst hnil
      rfl
    | succ rounds' =>
      unfold cutLine
      split_ifs with hempty
      · rfl
      · have hless := length_remaining (l := l) (by simpa using hempty)
        have hsame : cutLine rounds (lstripChars (l.drop (excerptEnd l))) =
            cutLine rounds' (lstripChars (l.drop (excerptEnd l))) := ih (by omega) (by omega)
        rw [hsame]

theorem length_of_mem_cutLine (he : e ∈ cutLine rounds l) :
    0 < e.length ∧ e.length ≤ excerptChars := by
  induction rounds generalizing l with
  | zero => cases he
  | succ rounds ih =>
    unfold cutLine at he
    split_ifs at he with hempty
    · cases he
    · rcases List.mem_cons.mp he with rfl | hin
      · obtain ⟨hpos, hle, hmax⟩ := excerptEnd_bounds (l := l) (by simpa using hempty)
        rw [List.length_take]
        omega
      · exact ih hin

/-! ### The excerpts of a text -/

theorem stripChars_split (l : List Char) :
    ∃ before after, Blank before ∧ Blank after ∧ l = before ++ stripChars l ++ after := by
  obtain ⟨before, hbefore, hl⟩ := lstripChars_split l
  obtain ⟨after, hafter, hr⟩ := lstripChars_split (lstripChars l).reverse
  refine ⟨before, after.reverse, hbefore, fun c hc => hafter c (List.mem_reverse.mp hc), ?_⟩
  have hrev := congrArg List.reverse hr
  rw [List.reverse_reverse, List.reverse_append] at hrev
  rw [List.append_assoc]
  exact hl.trans (congrArg (before ++ ·) hrev)

theorem blank_of_isLineBreak {c : Char} (h : isLineBreak c = true) : isPySpace c = true := by
  simp only [isLineBreak, isPySpace, Bool.or_eq_true, Bool.and_eq_true, decide_eq_true_eq,
    beq_iff_eq] at h ⊢
  omega

/-- Lines are apart by whitespace, so the pieces of every line are the pieces of the text. -/
theorem spaced_splitlines {cut : List Char → List (List Char)}
    (hcut : ∀ line, Spaced (cut line) line) (line text : List Char) :
    Spaced ((splitlinesFrom line text).flatMap cut) (line ++ text) := by
  induction line, text using splitlinesFrom.induct with
  | case1 line hempty =>
    rw [splitlinesFrom, if_pos hempty, List.isEmpty_iff.mp hempty]
    exact .done blank_nil
  | case2 line hempty =>
    rw [splitlinesFrom, if_neg hempty, List.append_nil, List.flatMap_singleton]
    exact hcut line
  | case3 line rest ih =>
    rw [splitlinesFrom, List.flatMap_cons]
    have hbreak : Blank ['\r', '\n'] := by
      intro c hc
      simp only [List.mem_cons, List.not_mem_nil, or_false] at hc
      rcases hc with rfl | rfl <;> decide
    exact (hcut line).append (ih.space_left hbreak)
  | case4 line c rest hpair hbreak ih =>
    rw [splitlinesFrom, if_pos hbreak, List.flatMap_cons]
    · have hblank : Blank [c] := by
        intro c' hc'
        rw [List.mem_singleton.mp hc']
        exact blank_of_isLineBreak hbreak
      exact (hcut line).append (ih.space_left hblank)
    · exact hpair
  | case5 line c rest hpair hbreak ih =>
    rw [splitlinesFrom, if_neg hbreak]
    · rwa [List.append_assoc, List.singleton_append] at ih
    · exact hpair

theorem spaced_excerptTexts (text : List Char) : Spaced (excerptTexts text) text := by
  have hline : ∀ line, Spaced (cutLine (stripChars line).length (stripChars line)) line := by
    intro line
    obtain ⟨before, after, hbefore, hafter, hsplit⟩ := stripChars_split line
    have hcut := ((spaced_cutLine le_rfl).space_left hbefore).space_right hafter
      (l := before ++ stripChars line)
    rwa [← hsplit] at hcut
  exact spaced_splitlines hline [] text

theorem length_excerptTexts {text : List Char} (he : e ∈ excerptTexts text) :
    0 < e.length ∧ e.length ≤ excerptChars := by
  obtain ⟨line, -, hin⟩ := List.mem_flatMap.mp he
  exact length_of_mem_cutLine hin

/-! ### What satisfies the schema -/

variable {catalog : Catalog} {excerpts : List (String × String)} {members : List (String × Json)}
  {key : String} {ids : List String} {items : List Json}

/-- A field of the assessment is there, and satisfies its schema. -/
theorem field_of_accepts {field : FieldSchema}
    (h : (responseSchema catalog excerpts).accepts (.obj members) = true) (key : String)
    (hrequired : key ∈ assessmentFields)
    (hfield : Table.rowOf (responseSchema catalog excerpts).properties key = some field) :
    ∃ value, Table.rowOf members key = some value ∧ field.accepts value = true := by
  simp only [ObjectSchema.accepts, Bool.and_eq_true, List.all_eq_true] at h
  obtain ⟨value, hvalue⟩ := Option.isSome_iff_exists.mp (h.1 key hrequired)
  have hmember := h.2 (key, value) (Table.mem_of_rowOf hvalue)
  dsimp only at hmember
  rw [hfield] at hmember
  exact ⟨value, hvalue, hmember⟩

variable {value : Json}

theorem isOneOf_iff : isOneOf ids value = true ↔ ∃ id ∈ ids, value = .str id := by
  cases value <;> simp [isOneOf]

theorem strings_of_all (h : ∀ item ∈ items, isOneOf ids item = true) :
    items = (strings items).map .str ∧ ∀ id ∈ strings items, id ∈ ids := by
  induction items with
  | nil => simp [strings]
  | cons item items ih =>
    obtain ⟨hrest, hids⟩ := ih fun other hother => h other (List.mem_cons_of_mem _ hother)
    obtain ⟨id, hid, rfl⟩ := isOneOf_iff.mp (h item List.mem_cons_self)
    have hcons : strings (.str id :: items) = id :: strings items := rfl
    rw [hcons]
    refine ⟨?_, fun other hother => ?_⟩
    · rw [List.map_cons, ← hrest]
    · rcases List.mem_cons.mp hother with rfl | hin
      · exact hid
      · exact hids other hin

/-- A list of identifiers that satisfies its schema. -/
theorem idList_accepts {limit : ℕ} (h : (idList ids limit).accepts value = true) :
    ∃ items, value = .arr items ∧ items.length ≤ limit ∧ items = (strings items).map .str ∧
      (strings items).Nodup ∧ ∀ id ∈ strings items, id ∈ ids := by
  unfold idList at h
  split_ifs at h with hempty
  · cases value with
    | arr items =>
      have hnil : items = [] := by simpa [FieldSchema.accepts] using h
      subst hnil
      exact ⟨[], rfl, Nat.zero_le _, rfl, List.nodup_nil, by simp [strings]⟩
    | _ => cases h
  · cases value with
    | arr items =>
      simp only [FieldSchema.accepts, Option.all_some, Bool.and_eq_true, List.all_eq_true,
        decide_eq_true_eq, Bool.not_true, Bool.false_or] at h
      obtain ⟨⟨hall, hlength⟩, hnodup⟩ := h
      obtain ⟨hstrings, hids⟩ := strings_of_all hall
      exact ⟨items, rfl, hlength, hstrings, hnodup, hids⟩
    | _ => cases h

/-- It passes the check of its list. -/
theorem checkedList_of_accepts (hrow : Table.rowOf members key = some value)
    (h : (idList ids (limitOf key)).accepts value = true) :
    ∃ found, checkedList members key = .ok found ∧ (∀ id ∈ found, id ∈ ids) ∧
      value = .arr (found.map .str) := by
  obtain ⟨items, rfl, hlength, hstrings, hnodup, hids⟩ := idList_accepts h
  refine ⟨strings items, ?_, hids, by rw [← hstrings]⟩
  have hsame : (strings items).length = items.length := by
    have hmap := congrArg List.length hstrings
    rw [List.length_map] at hmap
    exact hmap.symm
  unfold checkedList
  rw [hrow]
  dsimp only
  rw [if_neg]
  simp [hsame, hnodup, hlength]

variable {V : Type}

theorem rowOf_isSome_of_mem {rows : List (String × V)} (h : key ∈ rows.map Prod.fst) :
    (Table.rowOf rows key).isSome = true := by
  obtain ⟨⟨_, v⟩, hmem, rfl⟩ := List.mem_map.mp h
  exact Table.isSome_rowOf hmem

/-- The assessment is an object with a float as its score. -/
def HasFloatScore (data : Json) : Prop :=
  ∃ members f, data = .obj members ∧ Table.rowOf members "score" = some (.float f)

/-- The assessment is strong and names no evidence. -/
def StrongWithoutEvidence (data : Json) : Prop :=
  ∃ members, data = .obj members ∧ Table.rowOf members "fit" = some (.str "strong") ∧
    Table.rowOf members "evidence" = some (.arr [])

/-- It has the fields of an assessment and no others. -/
theorem fields_of_accepts (h : (responseSchema catalog excerpts).accepts (.obj members) = true) :
    (assessmentFields.all (fun key => (Table.rowOf members key).isSome) &&
      members.all fun member => assessmentFields.contains member.1) = true := by
  simp only [ObjectSchema.accepts, Bool.and_eq_true] at h
  rw [Bool.and_eq_true]
  refine ⟨h.1, List.all_eq_true.mpr fun member hmember => ?_⟩
  have hknown := List.all_eq_true.mp h.2 member hmember
  cases hrow : Table.rowOf (responseSchema catalog excerpts).properties member.1 with
  | none =>
    rw [hrow] at hknown
    cases hknown
  | some field =>
    have hmem := List.mem_map_of_mem (f := Prod.fst) (Table.mem_of_rowOf hrow)
    have hnames : (responseSchema catalog excerpts).properties.map Prod.fst = assessmentFields :=
      rfl
    rw [hnames] at hmem
    exact List.contains_iff_mem.mpr hmem

theorem score_of_accepts (h : (FieldSchema.integer 1 scoreScale).accepts value = true)
    (hfloat : ∀ f, value ≠ .float f) :
    ∃ score, value = .int score ∧ 1 ≤ score ∧ score ≤ scoreScale := by
  cases value with
  | int score =>
    simp only [FieldSchema.accepts, schemaInteger, Option.any_some, Bool.and_eq_true,
      decide_eq_true_eq] at h
    exact ⟨score, rfl, h⟩
  | float f => exact absurd rfl (hfloat f)
  | _ => cases h

variable {text : String}

/-- What satisfies the schema of the excerpts is accepted. -/
theorem rendered_of_accepts {alnum : CharClass} {data : Json} {job : JobFacts}
    (h : (responseSchema catalog (jobExcerpts text)).accepts data = true)
    (hscore : ¬HasFloatScore data) (hstrong : ¬StrongWithoutEvidence data) :
    ∃ rendered, renderAssessment alnum data text catalog job = .ok rendered := by
  cases data with
  | obj members =>
    obtain ⟨value, hscorerow, hvalue⟩ := field_of_accepts h "score" (by decide) rfl
    obtain ⟨score, rfl, hlow, hhigh⟩ := score_of_accepts hvalue
      fun f hf => hscore ⟨members, f, rfl, by rw [hscorerow, hf]⟩
    obtain ⟨value, hfitrow, hvalue⟩ := field_of_accepts h "fit" (by decide) rfl
    obtain ⟨fit, hfit, rfl⟩ := isOneOf_iff.mp hvalue
    obtain ⟨value, heconomicsrow, hvalue⟩ := field_of_accepts h "economics" (by decide) rfl
    obtain ⟨economics, heconomics, rfl⟩ := isOneOf_iff.mp hvalue
    obtain ⟨value, hrow, hvalue⟩ := field_of_accepts h "evidence" (by decide) rfl
    obtain ⟨evidence, hevidence, hevidenceids, hlist⟩ := checkedList_of_accepts hrow hvalue
    have hstrong' : ¬(fit = "strong" ∧ evidence = []) := by
      rintro ⟨rfl, rfl⟩
      exact hstrong ⟨members, rfl, hfitrow, by rw [hrow, hlist, List.map_nil]⟩
    obtain ⟨value, hrow, hvalue⟩ := field_of_accepts h "requirements" (by decide) rfl
    obtain ⟨requirements, hrequirements, hrequirementids, -⟩ := checkedList_of_accepts hrow hvalue
    obtain ⟨value, hrow, hvalue⟩ := field_of_accepts h "gaps" (by decide) rfl
    obtain ⟨gaps, hgaps, hgapids, -⟩ := checkedList_of_accepts hrow hvalue
    obtain ⟨value, hrow, hvalue⟩ := field_of_accepts h "conditions" (by decide) rfl
    obtain ⟨conditions, hconditions, hconditionids, -⟩ := checkedList_of_accepts hrow hvalue
    have hknown : evidence.any (fun key => (Table.rowOf catalog key).isNone || isGap key) =
        false := by
      rw [List.any_eq_false]
      intro id hid
      obtain ⟨hin, hnot⟩ := List.mem_filter.mp (hevidenceids id hid)
      have hsome := rowOf_isSome_of_mem hin
      simp only [Bool.not_eq_true'] at hnot
      simp [hnot, Option.isSome_iff_ne_none.mp hsome]
    have hboundary : gaps.any (fun key => (Table.rowOf catalog key).isNone || !isGap key) =
        false := by
      rw [List.any_eq_false]
      intro id hid
      obtain ⟨hin, hgap⟩ := List.mem_filter.mp (hgapids id hid)
      have hsome := rowOf_isSome_of_mem hin
      simp [hgap, Option.isSome_iff_ne_none.mp hsome]
    have hexcerpts : requirements.any
        (fun key => (Table.rowOf (jobExcerpts text) key).isNone) = false := by
      rw [List.any_eq_false]
      intro id hid
      have hsome := rowOf_isSome_of_mem (hrequirementids id hid)
      simp [Option.isSome_iff_ne_none.mp hsome]
    have hreview : conditions.any (fun key => (Table.rowOf conditionTexts key).isNone) = false := by
      rw [List.any_eq_false]
      intro id hid
      have hsome := rowOf_isSome_of_mem (hconditionids id hid)
      simp [Option.isSome_iff_ne_none.mp hsome]
    unfold renderAssessment
    simp only [fields_of_accepts h, Bool.not_true, Bool.false_eq_true, if_false, hscorerow, hlow,
      hhigh, and_self, not_true_eq_false, hfitrow, heconomicsrow, List.contains_iff_mem.mpr hfit,
      List.contains_iff_mem.mpr heconomics, Bool.or_self, hevidence, hrequirements, hgaps,
      hconditions, hknown, hboundary, hexcerpts, hreview, if_neg hstrong', bind, Except.bind]
    exact ⟨_, rfl⟩
  | _ => cases h

/-! ### What is written out -/

/-- A line that says nothing but the labels of a checked assessment, the wording of the catalogue
and of the review conditions, and the text of one excerpt. -/
inductive Wording (catalog : Catalog) (texts : List String) : String → Prop
  | labels {fit economics : String} : fit ∈ fits → economics ∈ economicsLabels →
      Wording catalog texts ("Fit: " ++ fit ++ ". Economics: " ++ economics ++ ".")
  | evidence {labels : List String} :
      (∀ label ∈ labels, ∃ entry ∈ catalog.map Prod.snd, label = entry.label) →
      Wording catalog texts ("Candidate evidence to review: " ++ "; ".intercalate labels ++ ".")
  | excerpt {text : String} : text ∈ texts →
      Wording catalog texts ("Posting excerpt: \"" ++ text ++ "\".")
  | boundary {entry : CatalogEntry} : entry ∈ catalog.map Prod.snd →
      Wording catalog texts ("Candidate boundary: " ++ entry.text)
  | condition {text : String} : text ∈ conditionTexts.map Prod.snd → Wording catalog texts text

theorem mem_of_textUnder {rows : List (String × String)} (h : (Table.rowOf rows key).isSome) :
    textUnder rows key ∈ rows.map Prod.snd := by
  obtain ⟨text, htext⟩ := Option.isSome_iff_exists.mp h
  have hmem := List.mem_map_of_mem (f := Prod.snd) (Table.mem_of_rowOf htext)
  rwa [textUnder, htext, Option.getD_some]

theorem entry_of_rowOf {text : CatalogEntry → V} {v : V} {keys : List String}
    (h : v ∈ keys.filterMap fun key => (Table.rowOf catalog key).map text) :
    ∃ entry ∈ catalog.map Prod.snd, v = text entry := by
  obtain ⟨key, -, hrow⟩ := List.mem_filterMap.mp h
  obtain ⟨entry, hentry, rfl⟩ := Option.map_eq_some_iff.mp hrow
  exact ⟨entry, List.mem_map_of_mem (f := Prod.snd) (Table.mem_of_rowOf hentry), rfl⟩

theorem wording_of_mem_explanation {fit economics line : String}
    {evidence requirements gaps conditions : List String} (hfit : fit ∈ fits)
    (heconomics : economics ∈ economicsLabels)
    (hrequirements : ∀ key ∈ requirements, (Table.rowOf excerpts key).isSome)
    (hconditions : ∀ key ∈ conditions, (Table.rowOf conditionTexts key).isSome)
    (h : line ∈ explanation catalog excerpts fit economics evidence requirements gaps conditions) :
    Wording catalog (excerpts.map Prod.snd) line := by
  simp only [explanation, List.mem_append, or_assoc] at h
  rcases h with hline | hline | hline | hline | hline
  · rw [List.mem_singleton.mp hline]
    exact .labels hfit heconomics
  · split_ifs at hline
    · cases hline
    · rw [List.mem_singleton.mp hline]
      exact .evidence fun label hlabel => entry_of_rowOf hlabel
  · obtain ⟨key, hkey, rfl⟩ := List.mem_map.mp hline
    exact .excerpt (mem_of_textUnder (hrequirements key hkey))
  · obtain ⟨text, htext, rfl⟩ := List.mem_map.mp hline
    obtain ⟨entry, hentry, rfl⟩ := entry_of_rowOf htext
    exact .boundary hentry
  · obtain ⟨key, hkey, rfl⟩ := List.mem_map.mp hline
    exact .condition (mem_of_textUnder (hconditions key hkey))

/-- A list that is checked before the rest has passed where the rest has answered. -/
theorem checked_bind {α β : Type} {answer : Except String α} {next : α → Except String β} {b : β}
    (h : (answer >>= next) = .ok b) : ∃ a, answer = .ok a ∧ next a = .ok b := by
  cases answer with
  | error text => cases h
  | ok a => exact ⟨a, rfl, h⟩

theorem isSome_of_any {rows : List (String × V)} {keys : List String}
    (h : ¬(keys.any fun key => (Table.rowOf rows key).isNone) = true) :
    ∀ key ∈ keys, (Table.rowOf rows key).isSome = true := by
  intro key hkey
  have hfound := List.any_eq_false.mp (Bool.eq_false_of_not_eq_true h) key hkey
  rwa [Option.isNone_iff_eq_none, ← ne_eq, ← Option.isSome_iff_ne_none] at hfound

theorem wording_of_rendered {alnum : CharClass} {data : Json} {job : JobFacts} {rendered : Rendered}
    (h : renderAssessment alnum data text catalog job = .ok rendered) :
    ∀ line ∈ rendered.lines, Wording catalog ((jobExcerpts text).map Prod.snd) line := by
  unfold renderAssessment at h
  split at h
  case h_2 => cases h
  split_ifs at h
  split at h
  case h_2 => cases h
  split_ifs at h
  split at h
  case h_2 => cases h
  split_ifs at h with hlabels
  simp only [Bool.or_eq_true, Bool.not_eq_true', not_or, Bool.not_eq_false,
    List.contains_iff_mem] at hlabels
  obtain ⟨evidence, -, h⟩ := checked_bind h
  obtain ⟨requirements, -, h⟩ := checked_bind h
  obtain ⟨gaps, -, h⟩ := checked_bind h
  obtain ⟨conditions, -, h⟩ := checked_bind h
  split_ifs at h with _ _ hexcerpts hreview _ hscope
  -- a phased engagement at a fixed price adds the question of its budget
  · cases h
    intro line hline
    refine wording_of_mem_explanation hlabels.1 hlabels.2 (isSome_of_any hexcerpts) ?_ hline
    intro key hkey
    rcases List.mem_append.mp hkey with hin | hin
    · exact isSome_of_any hreview key hin
    · rw [List.mem_singleton.mp hin]
      rfl
  · cases h
    intro line hline
    exact wording_of_mem_explanation hlabels.1 hlabels.2 (isSome_of_any hexcerpts)
      (isSome_of_any hreview) hline

/-- What holds of the excerpts of a text and of the answers about them. -/
structure SoundFor (alnum : CharClass) (text : String) (catalog : Catalog) (job : JobFacts) :
    Prop where
  /-- The excerpts stand in the text in their order, with only whitespace left out. -/
  spaced : Spaced (excerptTexts text.toList) text.toList
  /-- The loop over a line ends: more rounds give the same excerpts. -/
  ends : ∀ line rounds, (stripChars line).length ≤ rounds →
    cutLine rounds (stripChars line) = cutLine (stripChars line).length (stripChars line)
  /-- An excerpt is a piece of the text, not empty, and not longer than it may be. -/
  pieces : ∀ excerpt ∈ jobExcerpts text, excerpt.2.toList <:+: text.toList ∧
    0 < excerpt.2.length ∧ excerpt.2.length ≤ 240
  /-- What satisfies the schema is accepted, a float score and a strong fit without evidence
  apart. -/
  accepted : ∀ data, (responseSchema catalog (jobExcerpts text)).accepts data = true →
    ¬HasFloatScore data → ¬StrongWithoutEvidence data →
    ∃ rendered, renderAssessment alnum data text catalog job = .ok rendered
  /-- What is accepted is written out in the wording of the catalogue and of the excerpts. -/
  wording : ∀ data rendered, renderAssessment alnum data text catalog job = .ok rendered →
    ∀ line ∈ rendered.lines, Wording catalog ((jobExcerpts text).map Prod.snd) line

theorem mem_jobExcerpts {excerpt : String × String} (h : excerpt ∈ jobExcerpts text) :
    excerpt.2.toList ∈ excerptTexts text.toList := by
  obtain ⟨⟨e, i⟩, hmem, rfl⟩ := List.mem_map.mp h
  have hin := List.fst_mem_of_mem_zipIdx hmem
  rwa [String.toList_ofList]

/-- The excerpts are sound, and so is every assessment that is checked against them. -/
theorem sound_assessment (alnum : CharClass) (text : String) (catalog : Catalog)
    (job : JobFacts) : SoundFor alnum text catalog job := by
  constructor
  case spaced => exact spaced_excerptTexts text.toList
  case ends => exact fun line rounds hrounds => cutLine_rounds hrounds le_rfl
  case pieces =>
    intro excerpt hexcerpt
    have hin := mem_jobExcerpts hexcerpt
    refine ⟨(spaced_excerptTexts text.toList).stands hin, ?_⟩
    have hlength := length_excerptTexts hin
    rwa [String.length_toList] at hlength
  case accepted => exact fun data h hscore hstrong => rendered_of_accepts h hscore hstrong
  case wording => exact fun data rendered h => wording_of_rendered h

theorem five_digits_le : 5 < 10 ^ 17 := by decide

theorem five_shortest : 5 % 10 ≠ 0 ∨ 5 = 0 ∧ (1 : ℤ) = 1 := by decide

/-- A score of five, written with a fraction of zero. -/
def floatScore : Json :=
  .obj [("score", .float ⟨false, 5, 1, five_digits_le, five_shortest⟩), ("fit", .str "weak"),
    ("economics", .str "poor"), ("evidence", .arr []), ("requirements", .arr []),
    ("gaps", .arr []), ("conditions", .arr [])]

/-- The schema takes a score of `5.0` for an integer, and the check refuses it. -/
theorem float_score_refused :
    ¬∀ (alnum : CharClass) (text : String) (catalog : Catalog) (job : JobFacts) (data : Json),
      (responseSchema catalog (jobExcerpts text)).accepts data = true →
      ¬StrongWithoutEvidence data →
      ∃ rendered, renderAssessment alnum data text catalog job = .ok rendered := by
  intro h
  have hweak : ¬StrongWithoutEvidence floatScore := by
    rintro ⟨members, hdata, hfit, -⟩
    cases hdata
    have hfit : Json.str "weak" = .str "strong" := Option.some.inj hfit
    exact absurd (Json.str.inj hfit) (by decide)
  obtain ⟨rendered, hrendered⟩ := h Char.isAlphanum "" [] ⟨none, none, none⟩ floatScore
    (by decide) hweak
  cases hrendered

def sampleCatalog : Catalog := [("lean", ⟨"Lean", "Proofs about programs."⟩)]

def sampleAssessment : Json :=
  .obj [("score", .int 7), ("fit", .str "strong"), ("economics", .str "favorable"),
    ("evidence", .arr [.str "lean"]), ("requirements", .arr [.str "job:0"]), ("gaps", .arr []),
    ("conditions", .arr [])]

/-- A strong assessment of a short job satisfies the schema, so it is rendered. -/
theorem sound_assessment_sample :
    ∃ rendered, renderAssessment Char.isAlphanum sampleAssessment "Prove a parser." sampleCatalog
      ⟨none, none, none⟩ = .ok rendered := by
  refine (sound_assessment Char.isAlphanum "Prove a parser." sampleCatalog
    ⟨none, none, none⟩).accepted sampleAssessment (by decide +kernel) ?_ ?_
  · rintro ⟨members, f, hdata, hscore⟩
    cases hdata
    cases hscore
  · rintro ⟨members, hdata, -, hevidence⟩
    cases hdata
    cases hevidence

end Rheostream.Leads.Tier2
