import Mathlib.Data.Rat.Defs
import Rheostream.Foundation.PyText
import Rheostream.Foundation.Table
import Rheostream.Foundation.Values

/-!
# The assessment of a job

`scoring/tier2.py`: the posting is cut into numbered excerpts, the model is sent a schema whose
identifiers are those of the excerpts and of the catalogue, and its answer is checked and written
out from the texts that the identifiers name.
-/

namespace Rheostream.Leads.Tier2

/-! ### Excerpts -/

def excerptChars : ℕ := 240

/-- `str.rfind(" ")`. -/
def rfindSpace : List Char → Option ℕ
  | [] => none
  | c :: rest =>
    match rfindSpace rest with
    | some i => some (i + 1)
    | none => if c = ' ' then some 0 else none

/-- Where an excerpt of what remains of a line ends. -/
def excerptEnd (remaining : List Char) : ℕ :=
  let last := min excerptChars remaining.length
  if last < remaining.length then
    match rfindSpace (remaining.take (last + 1)) with
    | some boundary => if 0 < boundary then boundary else last
    | none => last
  else last

/-- The excerpts of a stripped line, in as many rounds at most. -/
def cutLine : ℕ → List Char → List (List Char)
  | 0, _ => []
  | rounds + 1, remaining =>
    if remaining.isEmpty then []
    else remaining.take (excerptEnd remaining) ::
      cutLine rounds (lstripChars (remaining.drop (excerptEnd remaining)))

/-- The excerpts in their order. Every round of the loop takes a character at least. -/
def excerptTexts (text : List Char) : List (List Char) :=
  (splitlines text).flatMap fun line => cutLine (stripChars line).length (stripChars line)

/-- `job_excerpts`. -/
def jobExcerpts (text : String) : List (String × String) :=
  (excerptTexts text.toList).zipIdx.map fun e => ("job:" ++ toString e.2, String.ofList e.1)

/-! ### The schema -/

/-- A schema of one field: `integer` with bounds, `enum`, or an array, of `enum` items where it has
any, of a largest size, and without repetitions where it says so. -/
inductive FieldSchema where
  | integer (minimum maximum : ℤ)
  | enum (values : List String)
  | array (items : Option (List String)) (maxItems : ℕ) (uniqueItems : Bool)

/-- An object schema without other properties. -/
structure ObjectSchema where
  required : List String
  properties : List (String × FieldSchema)

/-- The digits of a number. -/
def digitCount (n : ℕ) : ℕ := (Nat.toDigits 10 n).length

/-- The integer that a float is. -/
def floatInteger (f : PyFloat) : Option ℤ :=
  if f.significand = 0 then some 0
  else if (digitCount f.significand : ℤ) ≤ f.point then
    let size : ℤ := f.significand * 10 ^ (f.point - digitCount f.significand).toNat
    some (if f.negative then -size else size)
  else none

/-- The integer that a document is to a schema: a number with a zero fraction counts. -/
def schemaInteger : Json → Option ℤ
  | .int n => some n
  | .float f => floatInteger f
  | _ => none

/-- The document is one of the strings. -/
def isOneOf (values : List String) : Json → Bool
  | .str s => values.contains s
  | _ => false

/-- The strings among the documents. -/
def strings (items : List Json) : List String :=
  items.filterMap fun item =>
    match item with
    | .str s => some s
    | _ => none

/-- A document satisfies a field's schema. Repetitions are looked for among the strings, which all
items are where `uniqueItems` is used. -/
def FieldSchema.accepts : FieldSchema → Json → Bool
  | .integer minimum maximum, value =>
    (schemaInteger value).any fun n => minimum ≤ n && n ≤ maximum
  | .enum values, value => isOneOf values value
  | .array items maxItems uniqueItems, .arr values =>
    items.all (fun ids => values.all (isOneOf ids)) && values.length ≤ maxItems &&
      (!uniqueItems || (strings values).Nodup)
  | .array .., _ => false

/-- A document satisfies an object schema: it has the required members and no others than the
properties, and each satisfies the schema of its property. -/
def ObjectSchema.accepts (schema : ObjectSchema) : Json → Bool
  | .obj members =>
    schema.required.all (fun key => (Table.rowOf members key).isSome) &&
      members.all fun member =>
        match Table.rowOf schema.properties member.1 with
        | none => false
        | some field => field.accepts member.2
  | _ => false

structure CatalogEntry where
  label : String
  text : String

/-- The evidence catalogue, under its identifiers. -/
abbrev Catalog := List (String × CatalogEntry)

def fits : List String := ["strong", "partial", "weak"]

def economicsLabels : List String := ["favorable", "poor", "uncertain"]

def scoreScale : ℤ := 10

/-- `CONDITIONS`. -/
def conditionTexts : List (String × String) :=
  [("billing", "Confirm an acceptable billing arrangement."),
    ("budget_scope", "Confirm which deliverables the listed budget covers; phase allocation is " ++
      "unverified."),
    ("effort", "Delivery effort and hours are unknown; confirm scope before quoting."),
    ("eligibility", "Confirm eligibility against the quoted mandatory requirements."),
    ("client_quality",
      "Client quality needs verification; missing observations are not zero history."),
    ("scope", "Clarify scope and acceptance criteria.")]

/-- `LIMITS`. -/
def limits : List (String × ℕ) :=
  [("evidence", 3), ("requirements", 2), ("gaps", 2), ("conditions", 4)]

/-- `LIMITS[key]`. -/
def limitOf (key : String) : ℕ := (Table.rowOf limits key).getD 0

/-- `_id_list`. -/
def idList (ids : List String) (limit : ℕ) : FieldSchema :=
  if ids.isEmpty then .array none 0 false else .array (some ids) limit true

/-- The identifier is of a recorded experience boundary. -/
def isGap (key : String) : Bool := pyStartsWith "gap:" key

/-- The fields of an assessment. -/
def assessmentFields : List String :=
  ["score", "fit", "economics", "evidence", "requirements", "gaps", "conditions"]

/-- `response_schema`. -/
def responseSchema (catalog : Catalog) (excerpts : List (String × String)) : ObjectSchema where
  required := assessmentFields
  properties :=
    [("score", .integer 1 scoreScale), ("fit", .enum fits), ("economics", .enum economicsLabels),
      ("evidence", idList ((catalog.map Prod.fst).filter fun key => !isGap key)
        (limitOf "evidence")),
      ("requirements", idList (excerpts.map Prod.fst) (limitOf "requirements")),
      ("gaps", idList ((catalog.map Prod.fst).filter isGap) (limitOf "gaps")),
      ("conditions", idList (conditionTexts.map Prod.fst) (limitOf "conditions"))]

/-! ### The check -/

/-- What the scorer reads of a job here. -/
structure JobFacts where
  jobType : Option String
  budgetMin : Option ℚ
  budgetMax : Option ℚ

def hourlyCapCeiling : ℚ := 150

/-- `_budget_type`. -/
def budgetType (job : JobFacts) : Option String :=
  match job.jobType with
  | some jobType => some jobType
  | none =>
    match job.budgetMax.or job.budgetMin with
    | none => none
    | some reference => some (if reference ≤ hourlyCapCeiling then "hourly" else "fixed")

/-- A checked assessment. -/
structure Rendered where
  modelScore : ℤ
  fit : String
  economics : String
  conditions : List String
  lines : List String

/-- The list under a key: strings, no more than the limit, none of them twice. -/
def checkedList (members : List (String × Json)) (key : String) : Except String (List String) :=
  match Table.rowOf members key with
  | some (.arr items) =>
    if items.length > limitOf key || (strings items).length ≠ items.length ||
        !(strings items).Nodup then
      .error ("invalid assessment list: " ++ key)
    else .ok (strings items)
  | _ => .error ("invalid assessment list: " ++ key)

/-- `str.isalnum` of one character, for the word boundaries of a pattern. -/
abbrev CharClass := Char → Bool

/-- `re.search(r"\bpoc\b", text, re.IGNORECASE)`, where `before` says that a word goes on. -/
def searchPoc (alnum : CharClass) : Bool → List Char → Bool
  | _, [] => false
  | before, c :: rest =>
    let isWord (c : Char) : Bool := alnum c || c = '_'
    let here := !before && ("poc".toList.isPrefixOf ((c :: rest).map Char.toLower)) &&
      !(((c :: rest).drop 3).head?.any isWord)
    here || searchPoc alnum (isWord c) rest

/-- The posting describes a phased engagement. -/
def phased (alnum : CharClass) (text : String) : Bool :=
  ["proof of concept", "proof-of-concept", "discovery phase"].any
      (fun word => pyContains word (pyLower text)) ||
    searchPoc alnum false text.toList

/-- The text under a key. -/
def textUnder (rows : List (String × String)) (key : String) : String :=
  (Table.rowOf rows key).getD ""

/-- The lines of the explanation. -/
def explanation (catalog : Catalog) (excerpts : List (String × String)) (fit economics : String)
    (evidence requirements gaps conditions : List String) : List String :=
  ["Fit: " ++ fit ++ ". Economics: " ++ economics ++ "."] ++
    (if evidence.isEmpty then []
      else ["Candidate evidence to review: " ++ "; ".intercalate
        (evidence.filterMap fun key => (Table.rowOf catalog key).map CatalogEntry.label) ++ "."]) ++
    requirements.map (fun key => "Posting excerpt: \"" ++ textUnder excerpts key ++ "\".") ++
    (gaps.filterMap fun key => (Table.rowOf catalog key).map CatalogEntry.text).map
      ("Candidate boundary: " ++ ·) ++
    conditions.map (textUnder conditionTexts)

/-- `render_assessment`. -/
def renderAssessment (alnum : CharClass) (data : Json) (text : String) (catalog : Catalog)
    (job : JobFacts) : Except String Rendered :=
  match data with
  | .obj members =>
    if !(assessmentFields.all (fun key => (Table.rowOf members key).isSome) &&
        members.all fun member => assessmentFields.contains member.1) then
      .error "scoring assessment has missing or unexpected fields"
    else match Table.rowOf members "score" with
      | some (.int score) =>
        if ¬(1 ≤ score ∧ score ≤ scoreScale) then
          .error "scoring assessment score must be an integer 1-10"
        else match Table.rowOf members "fit", Table.rowOf members "economics" with
          | some (.str fit), some (.str economics) =>
            if !fits.contains fit || !economicsLabels.contains economics then
              .error "invalid assessment label"
            else do
              let evidence ← checkedList members "evidence"
              let requirements ← checkedList members "requirements"
              let gaps ← checkedList members "gaps"
              let conditions ← checkedList members "conditions"
              if evidence.any fun key => (Table.rowOf catalog key).isNone || isGap key then
                .error "unknown candidate evidence"
              else if gaps.any fun key => (Table.rowOf catalog key).isNone || !isGap key then
                .error "unknown experience boundary"
              else if requirements.any fun key =>
                  (Table.rowOf (jobExcerpts text) key).isNone then
                .error "unknown job excerpt"
              else if conditions.any fun key => (Table.rowOf conditionTexts key).isNone then
                .error "unknown review condition"
              else if fit = "strong" ∧ evidence = [] then
                .error "strong fit needs candidate evidence"
              else
                let conditions :=
                  if budgetType job = some "fixed" ∧ phased alnum text = true ∧
                      "budget_scope" ∉ conditions then conditions ++ ["budget_scope"]
                  else conditions
                .ok ⟨score, fit, economics, conditions,
                  explanation catalog (jobExcerpts text) fit economics evidence requirements gaps
                    conditions⟩
          | _, _ => .error "invalid assessment label"
      | _ => .error "scoring assessment score must be an integer 1-10"
  | _ => .error "scoring assessment has missing or unexpected fields"

end Rheostream.Leads.Tier2
