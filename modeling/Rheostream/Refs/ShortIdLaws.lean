import Mathlib.Data.List.TakeWhile
import Rheostream.Refs.ShortIds

/-!
# Short identifiers expand back

What is shown for a record names that record and no other, in its bare and in its typed form.
-/

namespace Rheostream.Refs

/-! ### Hexadecimal text -/

theorem isHex_hexDigit (d : Fin 16) : isHex (hexDigit d) = true := by
  revert d
  decide

theorem toLower_hexDigit (d : Fin 16) : (hexDigit d).toLower = hexDigit d := by
  revert d
  decide

theorem hexValue_hexDigit (d : Fin 16) : hexValue (hexDigit d) = some d := by
  revert d
  decide

theorem hexDigit_injective : Function.Injective hexDigit := by
  intro d d' h
  have hvalue : some d = some d' := by rw [← hexValue_hexDigit d, h, hexValue_hexDigit]
  exact Option.some.inj hvalue

/-- The characters that are told apart from those of a segment and of hexadecimal text. -/
structure Plain (c : Char) : Prop where
  space : isPySpace c = false
  dot : c ≠ '.'
  colon : c ≠ ':'

theorem plain_hexDigit (d : Fin 16) : Plain (hexDigit d) := by
  have hspace : isPySpace (hexDigit d) = false := by
    revert d
    decide
  have hdot : hexDigit d ≠ '.' := by
    revert d
    decide
  have hcolon : hexDigit d ≠ ':' := by
    revert d
    decide
  exact ⟨hspace, hdot, hcolon⟩

theorem hexDigit_ne_dash (d : Fin 16) : hexDigit d ≠ '-' := by
  revert d
  decide

namespace UUID

variable {u v : UUID}

theorem length_hex (u : UUID) : u.hex.length = 32 := by
  rw [hex, List.length_map, u.length_digits]

theorem hex_injective : Function.Injective hex := by
  intro u v h
  obtain ⟨du, hu⟩ := u
  obtain ⟨dv, hv⟩ := v
  have hdigits : du = dv := List.map_injective_iff.mpr hexDigit_injective h
  subst hdigits
  rfl

theorem mem_hex {c : Char} (h : c ∈ u.hex) : ∃ d, hexDigit d = c := by
  obtain ⟨d, -, rfl⟩ := List.mem_map.mp h
  exact ⟨d, rfl⟩

/-- The spelling of a UUID has a dash. -/
theorem dash_mem_str (u : UUID) : '-' ∈ u.str := by
  rw [str]
  exact List.mem_append_right _ List.mem_cons_self

end UUID

/-! ### Tails -/

section Right

variable {text part : List Char} {n m : ℕ}

theorem right_suffix (n : ℕ) (text : List Char) : right n text <:+ text := List.drop_suffix _ _

/-- The tail of a text is the tail of each longer tail. -/
theorem right_of_suffix (h : part <:+ text) (hn : n ≤ part.length) :
    right n text = right n part := by
  obtain ⟨front, rfl⟩ := h
  rw [right, right, List.length_append, List.drop_append, List.drop_eq_nil_of_le (by omega),
    List.nil_append]
  congr 1
  omega

theorem suffix_iff_right : part <:+ text ↔ right part.length text = part := by
  constructor
  · intro hsuffix
    rw [right_of_suffix hsuffix (le_refl _), right, Nat.sub_self, List.drop_zero]
  · intro heq
    rw [← heq]
    exact right_suffix _ _

end Right

/-- The tail that is shown: at least so long, and of no rival. -/
theorem shortestFrom_spec {own : List Char} {rivals : List (List Char)} {length : ℕ}
    (hrivals : ∀ r ∈ rivals, r.length = own.length ∧ r ≠ own) :
    ∃ n, length ≤ n ∧ shortestFrom own rivals length = right n own ∧
      ∀ r ∈ rivals, ¬ right n own <:+ r := by
  fun_induction shortestFrom own rivals length with
  | case1 length h ih =>
    obtain ⟨n, hn, heq, hfree⟩ := ih
    exact ⟨n, by omega, heq, hfree⟩
  | case2 length h =>
    refine ⟨length, le_refl _, rfl, ?_⟩
    intro r hr hsuffix
    obtain ⟨hlength, hne⟩ := hrivals r hr
    by_cases hlong : length < own.length
    · apply h
      rw [Bool.and_eq_true, decide_eq_true_iff, List.any_eq_true]
      exact ⟨hlong, r, hr, List.isSuffixOf_iff_suffix.mpr hsuffix⟩
    · have hwhole : right length own = own := by
        rw [right, Nat.sub_eq_zero_of_le (by omega), List.drop_zero]
      rw [hwhole] at hsuffix
      exact hne (hsuffix.eq_of_length hlength.symm).symm

/-- A tail of a stored identifier that no other one ends with. -/
structure Names (stored : List UUID) (tail : List Char) (id : UUID) : Prop where
  mem : id ∈ stored
  suffix : tail <:+ id.hex
  long : shortIdLength ≤ tail.length
  only : ∀ other ∈ stored, tail <:+ other.hex → other = id

variable {tail : List Char} {id : UUID}

/-- What is shown for a stored identifier names it. -/
theorem names_of_shortIds {stored ids : List UUID} (hids : ∀ id ∈ ids, id ∈ stored)
    (h : (id, tail) ∈ shortIds (opportunityTails stored) ids) : Names stored tail id := by
  unfold shortIds at h
  obtain ⟨i, hi, heq⟩ := List.mem_map.mp h
  obtain ⟨rfl, rfl⟩ := Prod.mk.inj heq
  have hstored : i ∈ stored := hids i (List.mem_eraseDups.mp hi)
  unfold shortestTail
  obtain ⟨n, hn, htail, hfree⟩ := @shortestFrom_spec i.hex
    (((opportunityTails stored shortIdLength
        (ids.eraseDups.map fun i => shortId i shortIdLength).eraseDups ++ ids.eraseDups).filter
      fun other => other != i &&
        right shortIdLength other.hex == right shortIdLength i.hex).map UUID.hex) shortIdLength (by
    intro r hr
    obtain ⟨other, hother, rfl⟩ := List.mem_map.mp hr
    have hne : other ≠ i := by
      have hboth := (List.mem_filter.mp hother).2
      rw [Bool.and_eq_true] at hboth
      simpa using hboth.1
    exact ⟨by rw [UUID.length_hex, UUID.length_hex], fun heq => hne (UUID.hex_injective heq)⟩)
  dsimp only
  rw [htail]
  have hlong : shortIdLength ≤ (right n i.hex).length := by
    have hlength := i.length_hex
    rw [right, List.length_drop, hlength]
    have height : shortIdLength = 8 := rfl
    omega
  refine ⟨hstored, right_suffix _ _, hlong, ?_⟩
  intro other hother hsuffix
  by_contra hne
  have hshared : right shortIdLength other.hex = right shortIdLength i.hex := by
    rw [right_of_suffix hsuffix hlong, right_of_suffix (right_suffix n i.hex) hlong]
  have hlooked : other ∈ opportunityTails stored shortIdLength
      (ids.eraseDups.map fun i => shortId i shortIdLength).eraseDups := by
    refine List.mem_filter.mpr ⟨hother, ?_⟩
    rw [List.contains_iff_mem, List.mem_eraseDups, hshared]
    exact List.mem_map_of_mem hi
  refine hfree other.hex (List.mem_map_of_mem (List.mem_filter.mpr ⟨?_, ?_⟩)) hsuffix
  · exact List.mem_append_left _ hlooked
  · simp [hne, hshared]

/-- A lookup of a tail finds the stored identifiers that end with it. -/
theorem mem_opportunityTails {stored : List UUID} :
    id ∈ opportunityTails stored tail.length [tail] ↔ id ∈ stored ∧ tail <:+ id.hex := by
  rw [opportunityTails, List.mem_filter, suffix_iff_right, List.contains_iff_mem,
    List.mem_singleton]

theorem Names.expandIn {stored : List UUID} (h : Names stored tail id)
    (moduleId recordType : Segment) :
    expandIn (some (opportunityTails stored)) moduleId recordType tail =
      .ok ⟨moduleId, recordType, id⟩ := by
  have hfound : (opportunityTails stored tail.length [tail]).dedup = [id] := by
    refine List.perm_singleton.mp ((List.perm_ext_iff_of_nodup (List.nodup_dedup _)
      (List.nodup_singleton id)).mpr fun other => ?_)
    rw [List.mem_dedup, mem_opportunityTails, List.mem_singleton]
    constructor
    · rintro ⟨hother, hsuffix⟩
      exact h.only other hother hsuffix
    · rintro rfl
      exact ⟨h.mem, h.suffix⟩
  simp only [Refs.expandIn, hfound]

/-- A tail that two stored identifiers end with is refused. -/
theorem expandIn_ambiguous {stored : List UUID} {a b : UUID} (ha : a ∈ stored) (hb : b ∈ stored)
    (hne : a ≠ b) (hsa : tail <:+ a.hex) (hsb : tail <:+ b.hex) (moduleId recordType : Segment) :
    expandIn (some (opportunityTails stored)) moduleId recordType tail = .error ambiguous := by
  have hmemA : a ∈ (opportunityTails stored tail.length [tail]).dedup :=
    List.mem_dedup.mpr (mem_opportunityTails.mpr ⟨ha, hsa⟩)
  have hmemB : b ∈ (opportunityTails stored tail.length [tail]).dedup :=
    List.mem_dedup.mpr (mem_opportunityTails.mpr ⟨hb, hsb⟩)
  unfold expandIn
  dsimp only
  split
  next hnil =>
    rw [hnil] at hmemA
    exact absurd hmemA List.not_mem_nil
  next found hone =>
    rw [hone, List.mem_singleton] at hmemA hmemB
    exact absurd (hmemA.trans hmemB.symm) hne
  next => rfl

/-! ### Reading a tail -/

section Reading

variable {text : List Char} {moduleId recordType : Segment}

theorem stripChars_eq_self (h : ∀ c ∈ text, isPySpace c = false) : stripChars text = text := by
  have hdrop (l : List Char) (hl : ∀ c ∈ l, isPySpace c = false) : l.dropWhile isPySpace = l := by
    cases l with
    | nil => rfl
    | cons c l => simp [hl c List.mem_cons_self]
  rw [stripChars, lstripChars, hdrop text h,
    hdrop _ fun c hc => h c (List.mem_reverse.mp hc), List.reverse_reverse]

/-- Hexadecimal text of a length that a tail may have. -/
structure TailText (text : List Char) : Prop where
  digits : ∀ c ∈ text, ∃ d, hexDigit d = c
  long : shortIdLength ≤ text.length
  fits : text.length ≤ 32

theorem Names.tailText {stored : List UUID} {id : UUID} (h : Names stored text id) :
    TailText text where
  digits c hc := UUID.mem_hex (h.suffix.subset hc)
  long := h.long
  fits := by
    rw [← id.length_hex]
    exact h.suffix.length_le

variable {c : Char}

theorem TailText.plain (h : TailText text) (hc : c ∈ text) : Plain c := by
  obtain ⟨d, rfl⟩ := h.digits c hc
  exact plain_hexDigit d

theorem TailText.strip (h : TailText text) : stripChars text = text :=
  stripChars_eq_self fun _ hc => (h.plain hc).space

theorem TailText.cleanTail (h : TailText text) : cleanTail text = some text := by
  have hlower : text.map Char.toLower = text := by
    calc text.map Char.toLower = text.map id := by
          refine List.map_congr_left fun c hc => ?_
          obtain ⟨d, rfl⟩ := h.digits c hc
          exact toLower_hexDigit d
      _ = text := List.map_id text
  have hdashes : text.filter (· != '-') = text := by
    rw [List.filter_eq_self]
    intro c hc
    obtain ⟨d, rfl⟩ := h.digits c hc
    simpa using hexDigit_ne_dash d
  have hhex : text.all isHex = true := by
    rw [List.all_eq_true]
    intro c hc
    obtain ⟨d, rfl⟩ := h.digits c hc
    exact isHex_hexDigit d
  have hlong := h.long
  have hfits := h.fits
  simp only [Refs.cleanTail, h.strip, hlower, hdashes, hhex]
  simp [hlong, hfits]

theorem plain_of_word (h : (c.isLower || c.isDigit || c == '_') = true) : Plain c := by
  have hrange : (97 ≤ c.toNat ∧ c.toNat ≤ 122) ∨ (48 ≤ c.toNat ∧ c.toNat ≤ 57) ∨
      c.toNat = 95 := by
    rw [Bool.or_eq_true, Bool.or_eq_true] at h
    obtain (hlower | hdigit) | hunder := h
    · have hbounds : (decide (c.val ≥ 'a'.val) && decide (c.val ≤ 'z'.val)) = true := hlower
      rw [Bool.and_eq_true, decide_eq_true_iff, decide_eq_true_iff] at hbounds
      exact .inl hbounds
    · simp only [Char.isDigit, Bool.and_eq_true, decide_eq_true_eq] at hdigit
      exact .inr (.inl hdigit)
    · rw [beq_iff_eq] at hunder
      subst hunder
      exact .inr (.inr rfl)
  constructor
  · simp only [isPySpace, Bool.or_eq_false_iff, Bool.and_eq_false_iff, decide_eq_false_iff_not,
      beq_eq_false_iff_ne]
    omega
  · rintro rfl
    revert hrange
    decide
  · rintro rfl
    revert hrange
    decide

theorem Segment.plain (s : Segment) (hc : c ∈ s.text) : Plain c := by
  have hvalid := s.valid
  cases htext : s.text with
  | nil =>
    rw [htext] at hc
    exact absurd hc List.not_mem_nil
  | cons first rest =>
    rw [htext] at hc hvalid
    rw [isSegment, Bool.and_eq_true] at hvalid
    obtain ⟨hfirst, hrest⟩ := hvalid
    apply plain_of_word
    obtain rfl | hc := List.mem_cons.mp hc
    · simp [hfirst]
    · exact List.all_eq_true.mp hrest c hc

theorem Segment.ofText_text (s : Segment) : Segment.ofText s.text = some s := by
  rw [Segment.ofText, dif_pos s.valid]

/-- The typed form of a text that stands for a record. -/
def typed (moduleId recordType : Segment) (text : List Char) : List Char :=
  moduleId.text ++ '.' :: (recordType.text ++ ':' :: text)

/-- Up to the first mark, and behind it. -/
theorem split_at {front behind : List Char} {mark : Char} (h : ∀ c ∈ front, c ≠ mark) :
    (front ++ mark :: behind).takeWhile (· != mark) = front ∧
      (front ++ mark :: behind).dropWhile (· != mark) = mark :: behind := by
  induction front with
  | nil => simp
  | cons c front ih =>
    have hc : (c != mark) = true := by simpa using h c List.mem_cons_self
    obtain ⟨htake, hdrop⟩ := ih fun c' hc' => h c' (List.mem_cons_of_mem c hc')
    simp [hc, htake, hdrop]

theorem matchReference_typed (hne : text ≠ []) (hcolon : ':' ∉ text) :
    matchReference (typed moduleId recordType text) = some (moduleId, recordType, text) := by
  obtain ⟨htake, hdrop⟩ := @split_at _ (recordType.text ++ ':' :: text) _ fun c hc =>
    (moduleId.plain hc).dot
  obtain ⟨htake', hdrop'⟩ := @split_at _ text _ fun c hc => (recordType.plain hc).colon
  unfold matchReference typed
  rw [hdrop, htake]
  dsimp only
  rw [hdrop', htake', Segment.ofText_text, Segment.ofText_text]
  dsimp only
  have hgood : (text.isEmpty || text.contains ':') = false := by simp [hne, hcolon]
  rw [hgood]
  rfl

theorem matchReference_none (h : ':' ∉ text) : matchReference text = none := by
  unfold matchReference
  split
  next => rfl
  next mark rest hrest =>
    have hnot : ':' ∉ rest := by
      intro hmem
      have hin : ':' ∈ text.dropWhile (· != '.') := by
        rw [hrest]
        exact List.mem_cons_of_mem mark hmem
      exact h ((List.dropWhile_suffix _).subset hin)
    have hnone : rest.dropWhile (· != ':') = [] := by
      rw [List.dropWhile_eq_nil_iff]
      intro c hc
      have hne : c ≠ ':' := fun heq => hnot (heq ▸ hc)
      simpa using hne
    rw [hnone]

theorem TailText.colon (h : TailText text) : ':' ∉ text := fun hc => (h.plain hc).colon rfl

theorem TailText.ne_nil (h : TailText text) : text ≠ [] := by
  rintro rfl
  exact absurd h.long (by decide)

/-- A tail is not a full reference, in either form. -/
theorem TailText.parse_bare (h : TailText text) : RecordRef.parse text = none := by
  unfold RecordRef.parse
  rw [matchReference_none h.colon]

theorem TailText.parse_typed (h : TailText text) :
    RecordRef.parse (typed moduleId recordType text) = none := by
  unfold RecordRef.parse
  rw [matchReference_typed h.ne_nil h.colon]
  dsimp only
  split
  next => rfl
  next found hfound =>
    have hne : (found.str == text) = false := by
      rw [beq_eq_false_iff_ne]
      intro heq
      have hdash : '-' ∈ text := heq ▸ found.dash_mem_str
      obtain ⟨d, hd⟩ := h.digits '-' hdash
      exact hexDigit_ne_dash d hd
    rw [hne]
    rfl

theorem TailText.short_typed (h : TailText text) :
    RecordRef.short (typed moduleId recordType text) = some (moduleId, recordType, text) := by
  have hspace : stripChars (typed moduleId recordType text) = typed moduleId recordType text := by
    apply stripChars_eq_self
    intro c hc
    simp only [typed, List.mem_append, List.mem_cons] at hc
    obtain hc | rfl | hc | rfl | hc := hc
    · exact (moduleId.plain hc).space
    · rfl
    · exact (recordType.plain hc).space
    · rfl
    · exact (h.plain hc).space
  unfold RecordRef.short
  rw [hspace, matchReference_typed h.ne_nil h.colon]
  simp [h.cleanTail]

theorem TailText.tail_typed (h : TailText text) :
    RecordRef.tail (typed moduleId recordType text) moduleId recordType = some text := by
  unfold RecordRef.tail
  rw [h.short_typed]
  simp

theorem TailText.tail_bare (h : TailText text) :
    RecordRef.tail text moduleId recordType = some text := by
  have hshort : RecordRef.short text = none := by
    unfold RecordRef.short
    rw [h.strip, matchReference_none h.colon]
  unfold RecordRef.tail
  rw [hshort]
  exact h.cleanTail

end Reading

/-! ### The round trip -/

section RoundTrip

variable {expander : ShortRefExpander} {moduleId recordType : Segment} {stored : List UUID}

/-- The type has short identifiers, and its stored identifiers can be read. -/
structure Serves (expander : ShortRefExpander) (moduleId recordType : Segment)
    (stored : List UUID) : Prop where
  lookup : expander.lookups moduleId recordType = some (opportunityTails stored)
  opens : expander.opens = true
  ready : expander.ready moduleId = true

theorem Serves.expand (h : Serves expander moduleId recordType stored) (tail : List Char) :
    expander.expand moduleId recordType tail =
      expandIn (some (opportunityTails stored)) moduleId recordType tail := by
  simp [ShortRefExpander.expand, h.lookup, h.opens, h.ready]

theorem refValue_of_tail {text tail : List Char} (hparse : RecordRef.parse text = none)
    (htail : RecordRef.tail text moduleId recordType = some tail) :
    refValue (.text text) (some expander) moduleId recordType =
      (expander.expand moduleId recordType tail).map Given.ref := by
  simp only [refValue, hparse, htail]

/-- What holds of the short identifiers of a record type. -/
structure ShortIdLaw (expander : ShortRefExpander) (moduleId recordType : Segment)
    (stored : List UUID) : Prop where
  /-- Every listed identifier is shown. -/
  shown : ∀ ids id, id ∈ ids →
    ∃ tail, (id, tail) ∈ shortIds (opportunityTails stored) ids
  /-- What is shown for a stored identifier is read as that identifier, in both forms. -/
  expands : ∀ ids id tail, (∀ i ∈ ids, i ∈ stored) →
    (id, tail) ∈ shortIds (opportunityTails stored) ids →
      refValue (.text tail) (some expander) moduleId recordType =
          .ok (.ref ⟨moduleId, recordType, id⟩) ∧
        refValue (.text (typed moduleId recordType tail)) (some expander) moduleId recordType =
            .ok (.ref ⟨moduleId, recordType, id⟩) ∧
          fullRefText (.text (typed moduleId recordType tail)) (some expander) =
            .ok (.text (RecordRef.format ⟨moduleId, recordType, id⟩))
  /-- A tail that two stored identifiers end with is refused, however it is written. -/
  ambiguous : ∀ text tail a b, RecordRef.parse text = none →
    RecordRef.tail text moduleId recordType = some tail → a ∈ stored → b ∈ stored → a ≠ b →
      tail <:+ a.hex → tail <:+ b.hex →
        refValue (.text text) (some expander) moduleId recordType = .error ambiguous
  /-- A full reference is itself, whatever could be looked up. -/
  full : ∀ text r context m t, RecordRef.parse text = some r →
    refValue (.text text) context m t = .ok (.ref r) ∧
      fullRefText (.text text) context = .ok (.text text)

/-- Short identifiers expand back. -/
theorem shortIds_expand (h : Serves expander moduleId recordType stored) :
    ShortIdLaw expander moduleId recordType stored where
  shown ids id hid := by
    refine ⟨_, List.mem_map.mpr ⟨id, List.mem_eraseDups.mpr hid, rfl⟩⟩
  expands ids id tail hids hshown := by
    have hnames := names_of_shortIds hids hshown
    have htext := hnames.tailText
    have hexpand : expander.expand moduleId recordType tail = .ok ⟨moduleId, recordType, id⟩ := by
      rw [h.expand, hnames.expandIn]
    refine ⟨?_, ?_, ?_⟩
    · rw [refValue_of_tail htext.parse_bare htext.tail_bare, hexpand]
      rfl
    · rw [refValue_of_tail htext.parse_typed htext.tail_typed, hexpand]
      rfl
    · simp only [fullRefText, htext.parse_typed, htext.short_typed, h.lookup, hexpand]
      rfl
  ambiguous text tail a b hparse htail ha hb hne hsa hsb := by
    rw [refValue_of_tail hparse htail, h.expand, expandIn_ambiguous ha hb hne hsa hsb]
    rfl
  full text r context m t hparse := by
    constructor
    · simp only [refValue, hparse]
    · simp [fullRefText, hparse]

end RoundTrip

section Sample

private def sampleModule : Segment := ⟨"leads".toList, by decide⟩

private def sampleType : Segment := ⟨"opportunity".toList, by decide⟩

/-- Two identifiers with the same last eight digits. -/
private def sampleIds : List UUID :=
  [⟨List.replicate 32 1, rfl⟩, ⟨List.replicate 22 2 ++ List.replicate 10 1, rfl⟩]

private def sampleExpander : ShortRefExpander :=
  ⟨fun _ _ => some (opportunityTails sampleIds), true, fun _ => true⟩

/-- Short identifiers among the sample records. -/
theorem shortIds_expand_sample : ShortIdLaw sampleExpander sampleModule sampleType sampleIds :=
  shortIds_expand ⟨rfl, rfl, rfl⟩

end Sample

end Rheostream.Refs
