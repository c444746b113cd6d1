import Mathlib.Algebra.Order.Ring.Rat
import Rheostream.Foundation.Selection
import Rheostream.Relationships.PartyInvariant

/-!
# Normal forms

`normalization.py`, the normal form of a displayed name that `matching.py` has the database
compute, and its query of similar names.
-/

namespace Rheostream.Relationships

/-- What the normal forms take from Python and from the database: `str.casefold` of a character,
`urlsplit(text).hostname or ""` (`none` where it raises), and `lower`, the whitespace of a regular
expression and `similarity` of the database. -/
structure TextRules where
  casefold : Char → List Char
  hostname : String → Option String
  lower : String → String
  isSqlSpace : Char → Bool
  similarity : String → String → ℚ

/-- `str.split()`. -/
def pySplit (text : List Char) : List (List Char) :=
  (text.splitOnP isPySpace).filter fun word => !word.isEmpty

/-- `regexp_replace(text, '\s+', ' ', 'g')`, with whether the character before was replaced. -/
def replaceSpaces (isSpace : Char → Bool) : Bool → List Char → List Char
  | _, [] => []
  | inside, c :: rest =>
    if isSpace c then
      if inside then replaceSpaces isSpace true rest
      else ' ' :: replaceSpaces isSpace true rest
    else c :: replaceSpaces isSpace false rest

/-- `trim(text)` of the database, which takes blanks only. -/
def sqlTrim (text : List Char) : List Char :=
  ((text.dropWhile (· == ' ')).reverse.dropWhile (· == ' ')).reverse

namespace TextRules

variable (rules : TextRules)

/-- `str.casefold()`. -/
def casefolded (text : String) : String := String.ofList (text.toList.flatMap rules.casefold)

/-- The host of a url, without the dots behind it. -/
def normalizeUrl (value : String) : Option String :=
  (rules.hostname (if pyContains "://" value then value else "https://" ++ value)).bind fun host =>
    let host := ((rules.casefolded host).toList.reverse.dropWhile (· == '.')).reverse
    if host.isEmpty then none else some (String.ofList host)

/-- The digits and plus signs of a phone number that has a digit. -/
def normalizePhone (value : String) : String :=
  let kept := value.toList.filter fun c => c.isDigit || c == '+'
  if kept.any Char.isDigit then String.ofList kept else ""

/-- `normalize` of a contact value. -/
def normalize (kind : ContactKind) (value : String) : Option String :=
  match kind with
  | .email => some (rules.casefolded (pyStrip value))
  | .phone => some (normalizePhone (pyStrip value))
  | .url => rules.normalizeUrl (pyStrip value)
  | .address | .externalSubject => some (pyStrip value)

/-- `normalize` of a name. -/
def normalizeName (value : String) : String :=
  String.ofList ([' '].intercalate (pySplit (rules.casefolded (pyStrip value)).toList))

/-- The normal form of a displayed name in the query of `candidates`. -/
def displayKey (name : String) : String :=
  rules.lower (String.ofList (replaceSpaces rules.isSqlSpace false (sqlTrim name.toList)))

end TextRules

/-- `relationships.match`. -/
structure MatchSettings where
  nameSimilarityPercent : ℕ
  maxCandidates : ℕ

/-- The displayed name of a live person. -/
def PartyState.personName (s : PartyState) (id : Uuid) : Option String :=
  ((s.parties.lookup id).filter fun row =>
    row.kind = .person && row.mergedIntoId = none).map PartyRow.displayName

/-- The persons whose name is similar to a normalized one, the most similar first. -/
def similarNames (rules : TextRules) (settings : MatchSettings) (s : PartyState) (key : String)
    (party : Uuid) : List Uuid :=
  let score (id : Uuid) : ℚ :=
    (s.personName id).elim 0 fun name => rules.similarity (rules.lower name) key
  let rows := (s.parties.select fun id _ => (s.personName id).isSome && id ≠ party &&
    (settings.nameSimilarityPercent : ℚ) / 100 ≤ score id).keys
  (sortedBy (fun id => OrderDual.toDual (score id)) (sortedBy id rows)).take settings.maxCandidates

/-- What the matching code asks outside the tables. -/
def TextRules.matching (rules : TextRules) (settings : MatchSettings) : Matching where
  normalize := rules.normalize
  normalizeName := rules.normalizeName
  displayKey := rules.displayKey
  similarNames := similarNames rules settings

variable {rules : TextRules} {settings : MatchSettings} {s t : PartyState}

/-- The query of similar names reads the displayed names of live persons. -/
theorem similarNames_congr (h : ∀ id, t.personName id = s.personName id) (key : String)
    (party : Uuid) : similarNames rules settings t key party =
      similarNames rules settings s key party := by
  have hnames : t.personName = s.personName := funext h
  have hmem (p : Uuid → Bool) (id : Uuid) (hp : p id = true → (s.personName id).isSome = true) :
      id ∈ (t.parties.select fun id _ => p id).keys ↔
        id ∈ (s.parties.select fun id _ => p id).keys := by
    have hthere (u : PartyState) (hid : (u.personName id).isSome = true) :
        ∃ row, u.parties.lookup id = some row := by
      rw [PartyState.personName, Option.isSome_map] at hid
      obtain ⟨row, hrow⟩ := Option.isSome_iff_exists.mp hid
      exact ⟨row, (Option.filter_eq_some_iff.mp hrow).1⟩
    rw [Table.mem_keys_select, Table.mem_keys_select]
    constructor
    · rintro ⟨_, _, hpid⟩
      obtain ⟨row, hrow⟩ := hthere s (hp hpid)
      exact ⟨row, hrow, hpid⟩
    · rintro ⟨_, _, hpid⟩
      obtain ⟨row, hrow⟩ := hthere t (by rw [hnames]; exact hp hpid)
      exact ⟨row, hrow, hpid⟩
  unfold similarNames
  rw [hnames]
  dsimp only
  congr 2
  refine sortedBy_eq_of_perm (fun _ _ _ _ hid => hid) ?_
  rw [List.perm_ext_iff_of_nodup (AList.keys_nodup _) (AList.keys_nodup _)]
  intro id
  refine hmem _ id fun hp => ?_
  rw [Bool.and_eq_true, Bool.and_eq_true] at hp
  exact hp.1.1

end Rheostream.Relationships
