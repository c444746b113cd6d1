import Mathlib.Data.List.TakeWhile
import Rheostream.Routing.Links

/-!
# Paths and hosts of a link

Paths whose segments a URL carries as they are, hosts in lower case, and how a URL comes apart into
them again.
-/

namespace Rheostream.Routing

variable {segments before : List Text} {path text host : Text}

/-! ### Segments -/

/-- The quotation mark, the hash sign, the slash, the angle brackets, the question mark, the
backslash, the caret, the grave accent and the braces. -/
def encodedChars : List ℕ := [34, 35, 47, 60, 62, 63, 92, 94, 96, 123, 125]

/-- A character that a URL carries as it is in a path: printable, and none of those. -/
def isPathChar (c : Char) : Bool :=
  33 ≤ c.toNat && c.toNat ≤ 126 && !encodedChars.contains c.toNat

/-- The spellings of `.` and `..`, which a URL resolves. -/
def dotSegments : List Text :=
  [".".toList, "%2e".toList, "..".toList, ".%2e".toList, "%2e.".toList, "%2e%2e".toList]

/-- A segment that a URL carries as it is. -/
def UrlSegment (segment : Text) : Prop :=
  segment ≠ [] ∧ (∀ c ∈ segment, isPathChar c = true) ∧ segment.map Char.toLower ∉ dotSegments

/-- The segments, each after its slash. -/
def slashed (segments : List Text) : Text := segments.flatMap fun segment => '/' :: segment

/-- The path with a slash in front. -/
def withLead (path : Text) : Text := if ROOT.isPrefixOf path then path else '/' :: path

/-- A path of segments, with or without a slash in front and one at the end. -/
def PathOf (segments : List Text) (path : Text) : Prop :=
  (∀ segment ∈ segments, UrlSegment segment) ∧
    (withLead path = slashed segments ∨ withLead path = slashed segments ++ ROOT)

theorem slashed_append : slashed (before ++ segments) = slashed before ++ slashed segments := by
  rw [slashed, List.flatMap_append]
  rfl

theorem isPathChar_ne {c : Char} (hc : isPathChar c = true) : c ≠ '/' ∧ c ≠ '?' ∧ c ≠ '#' := by
  refine ⟨?_, ?_, ?_⟩
  · rintro rfl
    exact absurd hc (by decide)
  · rintro rfl
    exact absurd hc (by decide)
  · rintro rfl
    exact absurd hc (by decide)

/-- A path has neither a query nor a fragment. -/
theorem slashed_no_query (hsegments : ∀ segment ∈ segments, UrlSegment segment) :
    ∀ c ∈ slashed segments, c ≠ '?' ∧ c ≠ '#' := by
  intro c hc
  obtain ⟨segment, hsegment, hc⟩ := List.mem_flatMap.mp hc
  obtain rfl | hc := List.mem_cons.mp hc
  · decide
  · exact (isPathChar_ne ((hsegments segment hsegment).2.1 c hc)).2

/-- It begins with a slash. -/
theorem slashed_lead (hne : segments ≠ []) : ∃ rest, slashed segments = '/' :: rest := by
  cases segments with
  | nil => exact absurd rfl hne
  | cons segment rest => exact ⟨segment ++ slashed rest, rfl⟩

/-- It does not end with one. -/
theorem slashed_last (hsegments : ∀ segment ∈ segments, UrlSegment segment) :
    ROOT.isSuffixOf (slashed segments) = false := by
  rcases List.eq_nil_or_concat segments with rfl | ⟨before, last, rfl⟩
  · rfl
  · rw [← Bool.not_eq_true, List.isSuffixOf_iff_suffix]
    rintro ⟨rest, hrest⟩
    have hlast := hsegments last (by simp)
    rcases List.eq_nil_or_concat last with rfl | ⟨chars, c, rfl⟩
    · exact hlast.1 rfl
    · have hc := isPathChar_ne (hlast.2.1 c (by simp))
      have hend : rest ++ ['/'] = (slashed before ++ '/' :: chars) ++ [c] := by
        rw [← show ROOT = ['/'] from rfl, hrest, List.concat_eq_append, List.concat_eq_append,
          slashed_append]
        simp [slashed]
      have hchars := List.append_inj_right' hend rfl
      exact hc.1 (List.cons.inj hchars).1.symm

theorem withLead_lead (path : Text) : ∃ rest, withLead path = '/' :: rest := by
  unfold withLead
  by_cases hlead : ROOT.isPrefixOf path = true
  · rw [if_pos hlead]
    obtain ⟨rest, hrest⟩ := List.isPrefixOf_iff_prefix.mp hlead
    exact ⟨rest, hrest.symm⟩
  · rw [if_neg hlead]
    exact ⟨path, rfl⟩

theorem withLead_of_lead {rest : Text} : withLead ('/' :: rest) = '/' :: rest := by
  rw [withLead, if_pos]
  simp [ROOT, List.isPrefixOf]

/-- The segments as the web tier has them. -/
def tidy (segments : List Text) : Text := if segments = [] then ROOT else slashed segments

theorem normalizePath_eq :
    Web.normalizePath path = if withLead path = ROOT then ROOT
      else if ROOT.isSuffixOf (withLead path) then (withLead path).dropLast else withLead path := by
  unfold Web.normalizePath
  by_cases hempty : path = [] ∨ path = ROOT
  · rw [if_pos hempty, if_pos]
    obtain rfl | rfl := hempty
    · rfl
    · rfl
  · have hroot : withLead path ≠ ROOT := by
      intro hroot
      unfold withLead at hroot
      by_cases hlead : ROOT.isPrefixOf path = true
      · rw [if_pos hlead] at hroot
        exact hempty (.inr hroot)
      · rw [if_neg hlead] at hroot
        exact hempty (.inl (List.cons.inj hroot).2)
    rw [if_neg hempty, if_neg hroot]
    rfl

/-- `normalizePath` finds the segments of a path. -/
theorem normalizePath_of (hpath : PathOf segments path) :
    Web.normalizePath path = tidy segments := by
  obtain ⟨hsegments, hpath⟩ := hpath
  rw [normalizePath_eq]
  by_cases hempty : segments = []
  · subst hempty
    obtain hpath | hpath := hpath
    · obtain ⟨rest, hrest⟩ := withLead_lead path
      rw [hpath] at hrest
      cases hrest
    · rw [hpath]
      rfl
  · obtain ⟨rest, hrest⟩ := slashed_lead hempty
    have hroot : slashed segments ≠ ROOT := by
      intro hroot
      have hlast := slashed_last hsegments
      rw [hroot] at hlast
      exact absurd hlast (by decide)
    rw [tidy, if_neg hempty]
    obtain hpath | hpath := hpath
    · rw [hpath, if_neg hroot, slashed_last hsegments]
      rfl
    · rw [hpath, if_neg, if_pos, ROOT, List.dropLast_concat]
      · exact List.isSuffixOf_iff_suffix.mpr ⟨_, rfl⟩
      · intro hboth
        rw [hrest] at hboth
        cases rest <;> cases hboth

/-! ### Prefixes -/

/-- The prefix of a surface: the root, or segments. -/
def PrefixOf (before : List Text) (pathPrefix : Text) : Prop :=
  before = [] ∧ (pathPrefix = [] ∨ pathPrefix = ROOT) ∨
    before ≠ [] ∧ (∀ segment ∈ before, UrlSegment segment) ∧ pathPrefix = slashed before

variable {pathPrefix : Text}

theorem joinPrefix_eq : joinPrefix pathPrefix path =
    if pathPrefix = [] ∨ pathPrefix = ROOT then withLead path
    else pathPrefix ++ withLead path := rfl

theorem slashed_ne_root (hne : segments ≠ [])
    (hsegments : ∀ segment ∈ segments, UrlSegment segment) :
    ¬(slashed segments = [] ∨ slashed segments = ROOT) := by
  rintro (hempty | hroot)
  · obtain ⟨rest, hrest⟩ := slashed_lead hne
    rw [hrest] at hempty
    cases hempty
  · have hlast := slashed_last hsegments
    rw [hroot] at hlast
    exact absurd hlast (by decide)

/-- A joined path begins with a slash. -/
theorem joinPrefix_lead (path : Text) (hstart : PrefixOf before pathPrefix) :
    ∃ rest, joinPrefix pathPrefix path = '/' :: rest := by
  rw [joinPrefix_eq]
  obtain ⟨-, hroot⟩ | ⟨hne, hbefore, rfl⟩ := hstart
  · rw [if_pos hroot]
    exact withLead_lead path
  · rw [if_neg (slashed_ne_root hne hbefore)]
    obtain ⟨rest, hrest⟩ := slashed_lead hne
    exact ⟨rest ++ withLead path, by rw [hrest, List.cons_append]⟩

/-- A joined path has the segments of the prefix and of the path. -/
theorem pathOf_join (hstart : PrefixOf before pathPrefix) (hpath : PathOf segments path) :
    PathOf (before ++ segments) (joinPrefix pathPrefix path) := by
  obtain ⟨rest, hrest⟩ := joinPrefix_lead path hstart
  have hlead : withLead (joinPrefix pathPrefix path) = joinPrefix pathPrefix path := by
    rw [hrest]
    exact withLead_of_lead
  rw [PathOf, hlead, joinPrefix_eq]
  obtain ⟨hsegments, hform⟩ := hpath
  obtain ⟨rfl, hroot⟩ | ⟨hne, hbefore, rfl⟩ := hstart
  · rw [if_pos hroot]
    exact ⟨hsegments, hform⟩
  · rw [if_neg (slashed_ne_root hne hbefore)]
    constructor
    · intro segment hsegment
      obtain hmem | hmem := List.mem_append.mp hsegment
      · exact hbefore segment hmem
      · exact hsegments segment hmem
    · obtain hform | hform := hform
      · exact .inl (by rw [hform, slashed_append])
      · exact .inr (by rw [hform, slashed_append, List.append_assoc])

theorem normalizePath_start (hstart : PrefixOf before pathPrefix) :
    Web.normalizePath pathPrefix = tidy before := by
  obtain ⟨rfl, rfl | rfl⟩ | ⟨hne, hbefore, rfl⟩ := hstart
  · rfl
  · rfl
  · obtain ⟨rest, hrest⟩ := slashed_lead hne
    have hlead : withLead (slashed before) = slashed before := by
      rw [hrest]
      exact withLead_of_lead
    exact normalizePath_of ⟨hbefore, .inl hlead⟩

/-- A path of segments that begins with a slash has neither a query nor a fragment. -/
theorem no_query_of_pathOf {rest : Text} (hpath : PathOf segments ('/' :: rest)) :
    ∀ c ∈ '/' :: rest, c ≠ '?' ∧ c ≠ '#' := by
  obtain ⟨hsegments, hform⟩ := hpath
  rw [withLead_of_lead] at hform
  obtain hform | hform := hform
  · rw [hform]
    exact slashed_no_query hsegments
  · rw [hform]
    intro c hc
    obtain hc | hc := List.mem_append.mp hc
    · exact slashed_no_query hsegments c hc
    · obtain rfl := List.mem_singleton.mp hc
      decide

/-! ### Hosts -/

/-- A character of a host in lower case. -/
def isHostChar (c : Char) : Bool :=
  (97 ≤ c.toNat && c.toNat ≤ 122) || (48 ≤ c.toNat && c.toNat ≤ 57) || c.toNat == 45 ||
    c.toNat == 46

/-- A host in lower case, without a port. -/
def HostText (host : Text) : Prop := ∀ c ∈ host, isHostChar c = true

/-- A host and perhaps a port. -/
def Ported (host authority : Text) : Prop :=
  ∃ port, authority = host ++ port ∧
    (port = [] ∨ ∃ digits : Text, (∀ c ∈ digits, isHostChar c = true) ∧ port = ':' :: digits)

/-- `toLowerCase` keeps texts of ASCII without capitals. -/
def LowersAscii (toLowerCase : Text → Text) : Prop :=
  ∀ text, (∀ c ∈ text, c.toNat < 128 ∧ ¬(65 ≤ c.toNat ∧ c.toNat ≤ 90)) → toLowerCase text = text

variable {authority : Text} {toLowerCase : Text → Text}

theorem toNat_of_isHostChar {c : Char} (hc : isHostChar c = true) :
    (97 ≤ c.toNat ∧ c.toNat ≤ 122) ∨ (48 ≤ c.toNat ∧ c.toNat ≤ 57) ∨ c.toNat = 45 ∨
      c.toNat = 46 := by
  simpa [isHostChar, or_assoc] using hc

/-- The characters of an authority. -/
theorem Ported.chars (hhost : HostText host) (hported : Ported host authority) :
    ∀ c ∈ authority, isHostChar c = true ∨ c = ':' := by
  obtain ⟨port, rfl, hport⟩ := hported
  intro c hc
  obtain hc | hc := List.mem_append.mp hc
  · exact .inl (hhost c hc)
  · obtain rfl | ⟨digits, hdigits, rfl⟩ := hport
    · cases hc
    · obtain rfl | hc := List.mem_cons.mp hc
      · exact .inr rfl
      · exact .inl (hdigits c hc)

theorem trim_eq (htext : ∀ c ∈ text, Web.isSpace c = false) : Web.trim text = text := by
  have hdrop (l : Text) (hl : ∀ c ∈ l, Web.isSpace c = false) : l.dropWhile Web.isSpace = l := by
    cases l with
    | nil => rfl
    | cons c rest => rw [List.dropWhile_cons_of_neg]; simp [hl c List.mem_cons_self]
  rw [Web.trim, hdrop text htext, hdrop, List.reverse_reverse]
  intro c hc
  exact htext c (List.mem_reverse.mp hc)

/-- The host of an authority, without its port. -/
theorem hostName_of (hlower : LowersAscii toLowerCase) (hhost : HostText host)
    (hported : Ported host authority) : Web.hostName toLowerCase authority = host := by
  have hchars := hported.chars hhost
  have hspace : ∀ c ∈ authority, Web.isSpace c = false := by
    intro c hc
    obtain hc | rfl := hchars c hc
    · have hn := toNat_of_isHostChar hc
      simp only [Web.isSpace, Bool.or_eq_false_iff, Bool.and_eq_false_iff, decide_eq_false_iff_not,
        beq_eq_false_iff_ne]
      omega
    · decide
  have hascii : toLowerCase authority = authority := by
    refine hlower authority fun c hc => ?_
    obtain hc | rfl := hchars c hc
    · have hn := toNat_of_isHostChar hc
      omega
    · decide
  have hbracket : ['['].isPrefixOf authority = false := by
    rw [← Bool.not_eq_true, List.isPrefixOf_iff_prefix]
    rintro ⟨rest, rfl⟩
    obtain hc | hc := hchars '[' (by simp)
    · exact absurd hc (by decide)
    · exact absurd hc (by decide)
  have hcolon : ∀ c ∈ host, (c ≠ ':') := by
    rintro c hc rfl
    exact absurd (hhost _ hc) (by decide)
  rw [Web.hostName, trim_eq hspace, hascii, hbracket]
  obtain ⟨port, rfl, hport⟩ := hported
  simp only [Bool.false_eq_true, if_false]
  rw [List.takeWhile_append_of_pos (by simpa using hcolon)]
  obtain rfl | ⟨digits, -, rfl⟩ := hport
  · simp
  · simp

/-! ### URLs -/

/-- A URL comes apart into its authority and its path. -/
theorem url_split {scheme : Scheme} {rest : Text}
    (hauthority : ∀ c ∈ authority, Web.isDelimiter c = false)
    (hpath : ∀ c ∈ '/' :: rest, c ≠ '?' ∧ c ≠ '#') :
    Web.urlHost (scheme.text ++ "://".toList ++ (authority ++ '/' :: rest)) = authority ∧
      Web.urlPathname (scheme.text ++ "://".toList ++ (authority ++ '/' :: rest)) =
        '/' :: rest := by
  have hscheme : Web.afterScheme (scheme.text ++ "://".toList ++ (authority ++ '/' :: rest)) =
      authority ++ '/' :: rest := by
    cases scheme <;> rfl
  have hslash : Web.isDelimiter '/' = true := by decide
  constructor
  · rw [Web.urlHost, hscheme, List.takeWhile_append_of_pos (by simpa using hauthority)]
    simp [hslash]
  · rw [Web.urlPathname, hscheme, List.dropWhile_append_of_pos (by simpa using hauthority),
      List.dropWhile_cons_of_neg (by simp [hslash]), List.takeWhile_eq_self_iff.mpr]
    intro c hc
    simpa using hpath c hc

theorem delimiter_of_chars {c : Char} (hc : isHostChar c = true ∨ c = ':') :
    Web.isDelimiter c = false := by
  obtain hc | rfl := hc
  · simp only [Web.isDelimiter, Bool.or_eq_false_iff, decide_eq_false_iff_not]
    refine ⟨⟨?_, ?_⟩, ?_⟩
    · rintro rfl
      exact absurd hc (by decide)
    · rintro rfl
      exact absurd hc (by decide)
    · rintro rfl
      exact absurd hc (by decide)
  · decide

end Rheostream.Routing
