import Rheostream.Foundation.PyText
import Rheostream.Leads.Evidence

/-!
# Pinned mappings

`mapping.py`: the facts and the identity that a mapping reads from a payload. A value that
is not there is different from an explicit null, and a refusal names a target or a path,
never a part of the payload.
-/

namespace Rheostream.Leads

/-- What intake calls of Python's library. -/
structure IntakeLibrary where
  /-- `json.loads` of the accepted text. -/
  loads : String → Option Json
  /-- `str` of a text, a number or a Boolean. -/
  scalarText : Json → Option String
  lower : String → String
  /-- `datetime.strptime`, in UTC when the text has no offset, as an ISO text. -/
  strptime : String → String → Option String
  /-- `datetime.fromisoformat` of a text with an offset. -/
  fromIsoFormat : String → Option ℕ
  sha256 : String → String

inductive SourceKind where
  | json
  | csv
  deriving DecidableEq

inductive Transform where
  | trim
  | lower
  | emailNormalize
  | phoneNormalize
  | datetime
  | const
  deriving DecidableEq

/-- A row of `field_mapping_rule`. -/
structure MappingRule where
  target : String
  sourcePath : String
  transform : Option Transform
  transformArg : Option String
  required : Bool
  clearOnNull : Bool

/-- A row of `field_mapping_identity`. -/
structure IdentityPaths where
  eventId : Option String
  occurredAt : Option String
  subjectId : Option String
  verifiedEmail : Option String

/-- A version of a field mapping, with its rules in the order of their targets. -/
structure FieldMapping where
  sourceKind : SourceKind
  identity : IdentityPaths
  rules : List MappingRule

/-- `Fact` of a mapping. -/
structure MappedFact where
  target : String
  valueKind : ValueKind
  valueText : Option String
  sourcePath : String
  transform : Option Transform

/-- What `resolve_identity` returns: nothing where the payload has nothing. -/
structure Identity where
  eventId : Option Json
  occurredAt : Option Json
  subjectId : Option Json
  verifiedEmail : Option Json

/-- `FACTS`. -/
def factTargets : List String :=
  ["person.name", "person.email", "person.phone", "organization.name", "organization.domain",
    "subject", "message", "interest", "source_url", "locale", "value.amount", "value.currency",
    "value.basis"]

/-- How reading a mapping fails: it refuses, or a call of Python's raises. -/
inductive MappingFailure where
  | refused (label : String)
  | raised (error : String)

/-- A segment of a JSON pointer, decoded; nothing when a tilde escapes nothing. -/
def decodeSegment : List Char → Option (List Char)
  | [] => some []
  | '~' :: '1' :: rest => (decodeSegment rest).map ('/' :: ·)
  | '~' :: '0' :: rest => (decodeSegment rest).map ('~' :: ·)
  | '~' :: _ => none
  | c :: rest => (decodeSegment rest).map (c :: ·)

/-- The index that a segment writes without leading zeros, if it writes one. `int` raises for
more than 4300 digits. -/
def arrayIndex (segment : List Char) : Except MappingFailure (Option ℕ) :=
  if segment = ['0'] ∨ segment.head? ≠ some '0' ∧ segment ≠ [] ∧ segment.all Char.isDigit then
    match pyNat segment with
    | none => .error (.raised "ValueError")
    | some index => .ok (some index)
  else .ok none

/-- The value under the segments of a pointer. What is not there ends the walk at the next
segment. -/
def walkPointer : List (List Char) → Option Json → Except MappingFailure (Option Json)
  | [], value => .ok value
  | encoded :: rest, value =>
    match decodeSegment encoded with
    | none => .error (.refused "invalid_json_pointer")
    | some segment =>
      match value with
      | some (.obj members) => walkPointer rest (members.lookup (String.ofList segment))
      | some (.arr items) =>
        match arrayIndex segment with
        | .error failure => .error failure
        | .ok none => .ok none
        | .ok (some index) => walkPointer rest items[index]?
      | _ => .ok none

/-- `value_at`. -/
def valueAt (payload : Json) (path : Option String) (kind : SourceKind) :
    Except MappingFailure (Option Json) :=
  match path with
  | none => .ok none
  | some text =>
    match kind, payload with
    | .csv, .obj members => .ok (members.lookup text)
    | .csv, _ => .ok none
    | .json, _ =>
      match text.toList with
      | [] => .ok (some payload)
      | '/' :: pointer => walkPointer (pointer.splitOn '/') (some payload)
      | _ :: _ => .error (.refused "invalid_json_pointer")

/-- A character that a telephone number may have. -/
def isPhoneChar (c : Char) : Bool :=
  c.isDigit || c = '+' || c = '(' || c = ')' || c = '.' || c = '-' || isPySpace c

/-- A telephone number without its punctuation. -/
def normalizePhone (text : String) : Option String :=
  let chars := text.toList
  if chars.all isPhoneChar && !(chars.drop 1).contains '+' then
    some (String.ofList ((if chars.head? = some '+' then ['+'] else []) ++
      chars.filter Char.isDigit))
  else none

/-- `transform_value`; nothing where it raises. -/
def transformValue (lib : IntakeLibrary) (value : Json) (transform : Option Transform)
    (arg : Option String) : Option String :=
  if transform = some .const then some (arg.getD "")
  else match lib.scalarText value with
    | none => none
    | some text =>
      match transform with
      | none => some text
      | some .trim => some (pyStrip text)
      | some .lower => some (lib.lower (pyStrip text))
      | some .emailNormalize => some (lib.lower (pyStrip text))
      | some .phoneNormalize => normalizePhone (pyStrip text)
      | some .datetime =>
        let format := if arg.getD "" = "" then "%Y-%m-%dT%H:%M:%S%z" else arg.getD ""
        lib.strptime (pyStrip text) format
      | some .const => some (arg.getD "")

/-- The fact of one rule, if it has one. -/
def applyRule (lib : IntakeLibrary) (payload : Json) (kind : SourceKind)
    (isDeclared : String → Bool) (rule : MappingRule) :
    Except MappingFailure (Option MappedFact) :=
  if !factTargets.contains rule.target && !isDeclared rule.target then
    .error (.refused "unknown_target")
  else match valueAt payload (some rule.sourcePath) kind with
    | .error failure => .error failure
    | .ok found =>
      let value := if rule.transform = some .const then some (.str (rule.transformArg.getD ""))
        else found
      match value with
      | none => if rule.required then .error (.refused rule.target) else .ok none
      | some .null =>
        if rule.clearOnNull then
          .ok (some ⟨rule.target, .cleared, none, rule.sourcePath, rule.transform⟩)
        else if rule.required then .error (.refused rule.target)
        else .ok none
      | some scalar =>
        match transformValue lib scalar rule.transform rule.transformArg with
        | none => .error (.refused rule.target)
        | some text =>
          .ok (some ⟨rule.target, .value, some text, rule.sourcePath, rule.transform⟩)

/-- `apply_mapping`. -/
def applyMapping (lib : IntakeLibrary) (payload : Json) (kind : SourceKind)
    (isDeclared : String → Bool) : List MappingRule → Except MappingFailure (List MappedFact)
  | [] => .ok []
  | rule :: rest =>
    match applyRule lib payload kind isDeclared rule with
    | .error failure => .error failure
    | .ok fact =>
      match applyMapping lib payload kind isDeclared rest with
      | .error failure => .error failure
      | .ok facts => .ok (fact.toList ++ facts)

/-- `resolve_identity`. -/
def resolveIdentity (paths : IdentityPaths) (payload : Json) (kind : SourceKind) :
    Except MappingFailure Identity := do
  let eventId ← valueAt payload paths.eventId kind
  let occurredAt ← valueAt payload paths.occurredAt kind
  let subjectId ← valueAt payload paths.subjectId kind
  let verifiedEmail ← valueAt payload paths.verifiedEmail kind
  return ⟨eventId, occurredAt, subjectId, verifiedEmail⟩

/-- The texts of the facts with a value, by target: `values` of the later steps. -/
def valueOfFact (facts : List MappedFact) (target : String) : Option String :=
  match facts.find? fun f => f.target = target && f.valueKind = .value with
  | none => none
  | some f => f.valueText

end Rheostream.Leads
