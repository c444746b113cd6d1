import Mathlib.Data.String.Basic
import Rheostream.Foundation.Selection
import Rheostream.Foundation.Table
import Rheostream.Foundation.Values

/-!
# Opportunity evidence

An opportunity shows one state per field. Each state is replayed from the facts of the
observations linked to the opportunity: in occurrence order, a later fact replaces the
winner when it is at least as complete and comes with at least as much authority, and an
explicit clear drops the evidence older than itself. The three competition fields come
together from the observation with the newest count. Fields the user owns are not replayed.
-/

namespace Rheostream.Leads

/-- The kinds of extension field a preset can declare. -/
inductive FieldType where
  | text
  | integer
  | decimal
  | date
  | boolean
  | enum
  deriving DecidableEq

/-- A row of `preset_field`. -/
structure FieldSpec where
  type : FieldType
  enumValues : List String

/-- The texts `int`, `Decimal(…).is_finite` and `date.fromisoformat` accept. -/
structure Parsers where
  int : String → Bool
  finiteDecimal : String → Bool
  isoDate : String → Bool

inductive ValueKind where
  | value
  | cleared
  deriving DecidableEq

inductive FieldOwner where
  | source
  | user
  deriving DecidableEq

/-- A row of `observation_field` joined to its observation and its connection. -/
structure Fact where
  observationId : Uuid
  target : String
  valueKind : ValueKind
  valueText : Option String
  sourceOccurredAt : ℕ
  completeness : ℤ
  sourceEventId : String
  priority : ℤ
  sourceNamespace : String
  deriving DecidableEq

/-- A row of `opportunity_field_state` beyond the opportunity and the target. -/
structure FieldState where
  valueKind : ValueKind
  valueText : Option String
  owner : FieldOwner
  observationId : Option Uuid
  occurredAt : Option ℕ
  completeness : Option ℤ
  priority : Option ℤ
  orphaned : Bool
  deriving DecidableEq

/-- The row `_replace` inserts for a fact. -/
def FieldState.ofFact (fact : Fact) : FieldState where
  valueKind := fact.valueKind
  valueText := fact.valueText
  owner := .source
  observationId := some fact.observationId
  occurredAt := some fact.sourceOccurredAt
  completeness := some fact.completeness
  priority := some fact.priority
  orphaned := false

/-- The row `user_field` inserts. -/
def FieldState.ofUser (value : Option String) : FieldState where
  valueKind := if value.isNone then .cleared else .value
  valueText := value
  owner := .user
  observationId := none
  occurredAt := none
  completeness := none
  priority := none
  orphaned := false

/-- The fields of one opportunity, by target. -/
abbrev Fields := Table String FieldState

def count : String := "ext.jobsearch.proposal_count"
def exact : String := "ext.jobsearch.proposal_count_exact"
def observedAt : String := "ext.jobsearch.proposal_observed_at"

/-- `COMPETITION_GROUP`: decided together, from one observation. -/
def competitionGroup : List String := [count, exact, observedAt]

/-- `validate_value` returns instead of raising. -/
def validateValue (parse : Parsers) (spec : FieldSpec) : Option String → Bool
  | none => true
  | some value =>
    value.length ≤ 16000 &&
      match spec.type with
      | .text => true
      | .integer => parse.int value
      | .decimal => parse.finiteDecimal value
      | .date => parse.isoDate value
      | .boolean => value = "true" || value = "false"
      | .enum => value ∈ spec.enumValues

def isExtension (target : String) : Bool := "ext.".toList.isPrefixOf target.toList

/-- What an opportunity's pinned preset version says of its extension fields. The contract
of a preset field admits no other target. -/
structure Preset where
  parse : Parsers
  specs : Table String FieldSpec
  extension : ∀ target spec, specs.lookup target = some spec → isExtension target = true

/-- The fact takes part in the replay: an extension field has to be declared and its value
valid, and every other target takes part. -/
def Preset.admits (preset : Preset) (fact : Fact) : Bool :=
  !isExtension fact.target ||
    match preset.specs.lookup fact.target with
    | none => false
    | some spec => validateValue preset.parse spec fact.valueText

/-- `candidates.get(target, [])`. -/
def candidates (preset : Preset) (rows : List Fact) (target : String) : List Fact :=
  rows.filter fun fact => preset.admits fact && fact.target = target

/-- `_clear_cutoff`. -/
def clearCutoff (values : List Fact) : Option ℕ :=
  ((values.filter fun v => v.valueKind = .cleared).map Fact.sourceOccurredAt).max?

/-- No cutoff, or one the fact is not older than. -/
def isCurrent (cutoff : Option ℕ) (fact : Fact) : Bool :=
  cutoff.all fun c => c ≤ fact.sourceOccurredAt

/-- The order of authority and completeness. -/
abbrev integerOrder : LinearOrder ℤ := Int.instLinearOrder

abbrev integerPreorder : Preorder ℤ := integerOrder.toPartialOrder.toPreorder

attribute [local instance] integerOrder integerPreorder

/-- The replay order: occurrence, then authority, completeness and the stable event key. -/
def replayKey (v : Fact) : ℕ ×ₗ ℤ ×ₗ ℤ ×ₗ String ×ₗ String :=
  toLex (v.sourceOccurredAt, toLex (v.priority, toLex (v.completeness,
    toLex (v.sourceNamespace, v.sourceEventId))))

/-- A later candidate replaces the winner when it is no thinner and no less authoritative. -/
def prefer (winner candidate : Fact) : Fact :=
  if candidate.completeness ≥ winner.completeness ∧ candidate.priority ≥ winner.priority
  then candidate else winner

/-- The winner of the replay, if any evidence is left after the cutoff. -/
def replay (values : List Fact) : Option Fact :=
  match sortedBy replayKey (values.filter (isCurrent (clearCutoff values))) with
  | [] => none
  | first :: rest => some (rest.foldl prefer first)

/-- The fact one observation contributes to a target: `own[target].get(observation_id)`. -/
def ownFact (values : List Fact) (observationId : Uuid) : Option Fact :=
  lastWith Fact.observationId values observationId

/-- `rank`: newest first, exactness at equal times, then the ordinary keys. -/
def competitionRank (exactFacts : List Fact) (v : Fact) :
    ℕ ×ₗ Bool ×ₗ ℤ ×ₗ ℤ ×ₗ String ×ₗ String :=
  toLex (v.sourceOccurredAt,
    toLex ((ownFact exactFacts v.observationId).any
        fun flag => flag.valueKind = .value && flag.valueText = some "true",
      toLex (v.priority, toLex (v.completeness, toLex (v.sourceNamespace, v.sourceEventId)))))

/-- The observation's count that decides the competition fields. -/
def competitionWinner (counts exactFacts : List Fact) : Option Fact :=
  (counts.filter fun v => v.valueKind = .value && isCurrent (clearCutoff counts) v).argmax
    (competitionRank exactFacts)

/-- What `_derive_competition` writes for one target of the group: the winner's own fact,
unless a clear of that target is newer. -/
def competitionFact (preset : Preset) (rows : List Fact) (target : String) : Option Fact :=
  match competitionWinner (candidates preset rows count) (candidates preset rows exact) with
  | none => none
  | some winner =>
    let values := candidates preset rows target
    (ownFact values winner.observationId).filter (isCurrent (clearCutoff values))

/-- `_replayed_elsewhere`. -/
def replayedElsewhere (old : Option FieldState) : Bool :=
  old.any fun state => state.owner = .user || state.orphaned

/-- `_replace`. -/
def replace (fields : Fields) (target : String) : Option Fact → Fields
  | none => fields.erase target
  | some fact => (fields.erase target).insert target (.ofFact fact)

/-- One turn of the loops of `derive` and `_derive_competition`: leave a field that is
replayed elsewhere, rewrite any other. -/
def deriveField (current : Fields) (fact : String → Option Fact) (fields : Fields)
    (target : String) : Fields :=
  if replayedElsewhere (current.lookup target) then fields
  else replace fields target (fact target)

/-- `title or "Untitled inquiry"`. -/
def titleOf (fields : Fields) : String :=
  match (fields.lookup "subject").bind FieldState.valueText with
  | none => "Untitled inquiry"
  | some text => if text = "" then "Untitled inquiry" else text

/-- `derive`: the rewritten fields and the title to store. -/
def derive (preset : Preset) (current : Fields) (rows : List Fact) : Fields × String :=
  let seen := (rows.filter preset.admits).map Fact.target
  let others := (current.keys ++ seen).dedup.filter fun target => target ∉ competitionGroup
  let competition := competitionGroup.foldl
    (deriveField current (competitionFact preset rows)) current
  let fields := others.foldl
    (deriveField current fun target => replay (candidates preset rows target)) competition
  (fields, titleOf fields)

/-- `user_field`. -/
def userField (fields : Fields) (target : String) (value : Option String) : Fields :=
  (fields.erase target).insert target (.ofUser value)

end Rheostream.Leads
