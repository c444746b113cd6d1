import Mathlib.Data.List.Dedup
import Rheostream.Foundation.PyText

/-!
# Short identifiers

`refs.py` of the contracts and `refs/short.py`: a record is shown by the tail of its UUID, a tail
that two records share is lengthened, and every place that takes a reference also takes a tail.
-/

namespace Rheostream.Refs

/-- One hexadecimal digit. -/
def hexDigit (d : Fin 16) : Char := Nat.digitChar d

def hexValue (c : Char) : Option (Fin 16) :=
  (List.finRange 16).find? fun d => hexDigit d == c.toLower

/-- A UUID as its hexadecimal digits. -/
structure UUID where
  digits : List (Fin 16)
  length_digits : digits.length = 32
  deriving DecidableEq

namespace UUID

/-- `UUID.hex`. -/
def hex (u : UUID) : List Char := u.digits.map hexDigit

/-- `str` of a UUID. -/
def str (u : UUID) : List Char :=
  u.hex.take 8 ++ '-' :: ((u.hex.drop 8).take 4 ++ '-' :: ((u.hex.drop 12).take 4 ++ '-' ::
    ((u.hex.drop 16).take 4 ++ '-' :: u.hex.drop 20)))

def isBrace (c : Char) : Bool := c == '{' || c == '}'

/-- `UUID(text)` of a text without colons. `int(text, 16)` reads underscores, spaces and a sign
too, which the spelling of no UUID has. -/
def ofText (text : List Char) : Option UUID :=
  let inner := ((text.dropWhile isBrace).reverse.dropWhile isBrace).reverse
  match (inner.filter (· != '-')).mapM hexValue with
  | none => none
  | some digits => if h : digits.length = 32 then some ⟨digits, h⟩ else none

end UUID

/-! ### References -/

/-- `_SEGMENT_PATTERN`. -/
def isSegment : List Char → Bool
  | [] => false
  | c :: rest => c.isLower && rest.all fun c => c.isLower || c.isDigit || c == '_'

/-- `Segment`. -/
structure Segment where
  text : List Char
  valid : isSegment text = true
  deriving DecidableEq

def Segment.ofText (text : List Char) : Option Segment :=
  if h : isSegment text = true then some ⟨text, h⟩ else none

/-- `RecordRef`. -/
structure RecordRef where
  moduleId : Segment
  recordType : Segment
  id : UUID
  deriving DecidableEq

/-- `_REFERENCE.fullmatch`: no segment has a dot or a colon. -/
def matchReference (value : List Char) : Option (Segment × Segment × List Char) :=
  match value.dropWhile (· != '.') with
  | [] => none
  | _ :: rest =>
    match rest.dropWhile (· != ':') with
    | [] => none
    | _ :: recordId =>
      match Segment.ofText (value.takeWhile (· != '.')),
          Segment.ofText (rest.takeWhile (· != ':')) with
      | some moduleId, some recordType =>
        if recordId.isEmpty || recordId.contains ':' then none
        else some (moduleId, recordType, recordId)
      | _, _ => none

/-- `SHORT_ID_LENGTH`. -/
def shortIdLength : ℕ := 8

def isHex (c : Char) : Bool := "0123456789abcdef".toList.contains c

/-- `_clean_tail`. No character besides those of ASCII becomes a hexadecimal digit in lower case. -/
def cleanTail (value : List Char) : Option (List Char) :=
  let candidate := ((stripChars value).map Char.toLower).filter (· != '-')
  if candidate.all isHex && shortIdLength ≤ candidate.length && candidate.length ≤ 32 then
    some candidate
  else none

namespace RecordRef

/-- `RecordRef.format`. -/
def format (r : RecordRef) : List Char :=
  r.moduleId.text ++ '.' :: (r.recordType.text ++ ':' :: r.id.str)

/-- `RecordRef.parse`. -/
def parse (value : List Char) : Option RecordRef :=
  match matchReference value with
  | none => none
  | some (moduleId, recordType, rawId) =>
    match UUID.ofText rawId with
    | none => none
    | some recordId =>
      if recordId.str == rawId then some ⟨moduleId, recordType, recordId⟩ else none

/-- `RecordRef.short`. -/
def short (value : List Char) : Option (Segment × Segment × List Char) :=
  match matchReference (stripChars value) with
  | none => none
  | some (moduleId, recordType, recordId) =>
    (cleanTail recordId).map fun tail => (moduleId, recordType, tail)

/-- `RecordRef.tail`. -/
def tail (value : List Char) (moduleId recordType : Segment) : Option (List Char) :=
  match short value with
  | some (m, t, found) => if m = moduleId && t = recordType then some found else none
  | none => cleanTail value

end RecordRef

/-- `text[-length:]`. -/
def right (length : ℕ) (text : List Char) : List Char := text.drop (text.length - length)

/-- `RecordRef.short_id`. -/
def shortId (identifier : UUID) (length : ℕ) : List Char := right length identifier.hex

/-! ### Lookups by a tail -/

/-- `TailLookup`: the stored identifiers of one record type whose last characters are given. -/
def TailLookup : Type := ℕ → List (List Char) → List UUID

/-- `opportunity_tails`, on the identifiers that are stored. -/
def opportunityTails (stored : List UUID) : TailLookup := fun length tails =>
  stored.filter fun id => tails.contains (right length id.hex)

def ambiguous : String := "this short ID matches more than one record; give more characters"

def notFound : String := "no record has this short ID"

def fullOnly : String := "this record type takes full references only"

def unavailable : String := "short IDs cannot be looked up now; use the full reference"

/-- `expand_in`, with the lookup of the type. -/
def expandIn (lookup : Option TailLookup) (moduleId recordType : Segment) (tail : List Char) :
    Except String RecordRef :=
  match lookup with
  | none => .error fullOnly
  | some lookup =>
    match (lookup tail.length [tail]).dedup with
    | [] => .error notFound
    | [found] => .ok ⟨moduleId, recordType, found⟩
    | _ => .error ambiguous

/-- The loop of `shortest_tail`. -/
def shortestFrom (own : List Char) (rivals : List (List Char)) (length : ℕ) : List Char :=
  if length < own.length && rivals.any fun r => (right length own).isSuffixOf r then
    shortestFrom own rivals (length + 2)
  else right length own
termination_by own.length - length
decreasing_by
  simp only [Bool.and_eq_true, decide_eq_true_eq] at *
  omega

/-- `shortest_tail`. -/
def shortestTail (identifier : UUID) (among : List UUID) : List Char :=
  let own := identifier.hex
  let rivals := among.filter fun other =>
    other != identifier && right shortIdLength other.hex == right shortIdLength own
  shortestFrom own (rivals.map UUID.hex) shortIdLength

/-- `short_ids`: each identifier with its tail. -/
def shortIds (lookup : TailLookup) (ids : List UUID) : List (UUID × List Char) :=
  let wanted := ids.eraseDups
  let tails := (wanted.map fun i => shortId i shortIdLength).eraseDups
  let among := lookup shortIdLength tails ++ wanted
  wanted.map fun i => (i, shortestTail i among)

/-- `ShortRefExpander`: the registered lookups, whether a unit of work can be opened, and the
modules that are ready. -/
structure ShortRefExpander where
  lookups : Segment → Segment → Option TailLookup
  opens : Bool
  ready : Segment → Bool

/-- `ShortRefExpander.expand`. -/
def ShortRefExpander.expand (x : ShortRefExpander) (moduleId recordType : Segment)
    (tail : List Char) : Except String RecordRef :=
  if (x.lookups moduleId recordType).isNone then .error fullOnly
  else if x.opens && x.ready moduleId then
    expandIn (x.lookups moduleId recordType) moduleId recordType tail
  else .error unavailable

/-- What a field was given, and what its validator makes of it. -/
inductive Given where
  | text (value : List Char)
  | ref (value : RecordRef)
  | other
  deriving DecidableEq

/-- `ref_value`, with the expander that the context carries. -/
def refValue (value : Given) (context : Option ShortRefExpander) (moduleId recordType : Segment) :
    Except String Given :=
  match value with
  | .text text =>
    match RecordRef.parse text with
    | some r => .ok (.ref r)
    | none =>
      match RecordRef.tail text moduleId recordType, context with
      | some tail, some expander => (expander.expand moduleId recordType tail).map Given.ref
      | _, _ => .error "invalid reference"
  | value => .ok value

/-- `full_ref_text`. The expander of a context has the lookups that are registered. -/
def fullRefText (value : Given) (context : Option ShortRefExpander) : Except String Given :=
  match value with
  | .text text =>
    if (RecordRef.parse text).isSome then .ok value
    else
      match RecordRef.short text, context with
      | some (moduleId, recordType, tail), some expander =>
        if (expander.lookups moduleId recordType).isNone then .ok value
        else (expander.expand moduleId recordType tail).map fun r => .text r.format
      | _, _ => .ok value
  | value => .ok value

end Rheostream.Refs
