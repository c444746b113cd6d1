import Mathlib.Data.Multiset.Bind
import Mathlib.Data.Finset.Basic
import Rheostream.Foundation.Machine
import Rheostream.Leads.Evidence

/-!
# One opportunity and the observations linked to it

The commands that touch the evidence of an opportunity: intake connects a source, accepts
a delivery and turns it into an observation; routing or a user attaches an observation, an
approved erasure removes one, and a user edits fields. A command that derives runs one
query, and the order of the rows that query returns is part of the action.
-/

namespace Rheostream.Leads

/-- A row of `intake_connection`. -/
structure Connection where
  sourceNamespace : String
  priority : ℤ

inductive ReceiptState where
  | pending
  | processed
  | refused
  deriving DecidableEq

/-- A row of `delivery_receipt`. `deleted` is the detail `observation_deleted`. -/
structure Receipt where
  connectionId : Uuid
  sourceEventId : String
  state : ReceiptState
  deleted : Bool

/-- One extracted fact: the kind and the text of an `observation_field`. -/
structure ExtractedFact where
  valueKind : ValueKind
  valueText : Option String

/-- A row of `observation` with its rows of `observation_field`, by target. -/
structure Observation where
  connectionId : Uuid
  sourceEventId : String
  sourceOccurredAt : ℕ
  completeness : ℤ
  facts : Table String ExtractedFact

structure State where
  connections : Table Uuid Connection
  receipts : Table Uuid Receipt
  observations : Table Uuid Observation
  /-- The rows of `opportunity_observation` for this opportunity. -/
  linked : Finset Uuid
  fields : Fields
  title : String

/-- The row `create` inserts, before its first observation is linked. -/
def State.IsInserted (s : State) : Prop :=
  s.connections = ∅ ∧ s.receipts = ∅ ∧ s.observations = ∅ ∧ s.linked = ∅ ∧ s.fields = ∅ ∧
    s.title = "Untitled inquiry"

inductive Action where
  | connect (id : Uuid) (connection : Connection)
  | accept (id connectionId : Uuid) (sourceEventId : String)
  | process (id : Uuid) (occurredAt : ℕ) (facts : Table String ExtractedFact)
  | refuse (id : Uuid)
  | attach (id : Uuid) (rows : List Fact)
  | erase (id : Uuid) (rows : List Fact)
  | derive (rows : List Fact)
  | edit (fields : List (String × Option String)) (title : Option String)

/-- The action edits fields on the user's behalf. -/
def Action.isEdit : Action → Bool
  | .edit .. => true
  | _ => false

/-- The command of an action, without the order its query answered in. -/
def Action.command : Action → Action
  | .attach id _ => .attach id []
  | .erase id _ => .erase id []
  | .derive _ => .derive []
  | other => other

/-- The action links this observation. -/
def Action.links (id : Uuid) : Action → Bool
  | .attach k _ => k = id
  | _ => false

/-- One joined row of the query of `derive`. -/
def factRow (id : Uuid) (observation : Observation) (connection : Connection)
    (target : String) (extracted : ExtractedFact) : Fact where
  observationId := id
  target := target
  valueKind := extracted.valueKind
  valueText := extracted.valueText
  sourceOccurredAt := observation.sourceOccurredAt
  completeness := observation.completeness
  sourceEventId := observation.sourceEventId
  priority := connection.priority
  sourceNamespace := connection.sourceNamespace

/-- The joined rows of one observation. -/
def factsOf (connections : Table Uuid Connection) (observations : Table Uuid Observation)
    (id : Uuid) : List Fact :=
  match observations.lookup id with
  | none => []
  | some observation =>
    match connections.lookup observation.connectionId with
    | none => []
    | some connection =>
      observation.facts.entries.map fun e => factRow id observation connection e.1 e.2

/-- What the query of `derive` returns, whatever the order. -/
def State.evidence (s : State) : Multiset Fact :=
  s.linked.val.bind fun id => factsOf s.connections s.observations id

/-- Derive from the query's rows and store the result. -/
def State.rederive (preset : Preset) (s : State) (rows : List Fact) : Option State :=
  if (rows : Multiset Fact) = s.evidence then
    let (fields, title) := derive preset s.fields rows
    some { s with fields := fields, title := title }
  else none

/-- `_link`, and `derive` when the link is new. `create` does the same to the row it inserted. -/
def State.attach (preset : Preset) (s : State) (id : Uuid) (rows : List Fact) : Option State :=
  if (s.observations.lookup id).isNone then none
  else if id ∈ s.linked then some s
  else { s with linked := insert id s.linked }.rederive preset rows

/-- The rows `delete_owned` removes with an observation, and the mark on its receipt. -/
def State.removeObservation (s : State) (id : Uuid) : State :=
  { s with
    linked := s.linked.erase id
    fields := s.fields.deleteWhere fun _ field => field.observationId = some id
    observations := s.observations.erase id
    receipts := s.receipts.updateAll fun k receipt =>
      if k = id then { receipt with deleted := true } else receipt }

/-- `delete_owned` of an observation. -/
def State.eraseObservation (preset : Preset) (s : State) (id : Uuid) (rows : List Fact) :
    Option State :=
  if (s.observations.lookup id).isNone then none
  else if id ∈ s.linked then (s.removeObservation id).rederive preset rows
  else some (s.removeObservation id)

/-- The fields loop of `edit`, which refuses an undeclared field or an invalid value. -/
def editFields (preset : Preset) (fields : Fields) :
    List (String × Option String) → Option Fields
  | [] => some fields
  | (target, value) :: rest =>
    match preset.specs.lookup target with
    | none => none
    | some spec =>
      if validateValue preset.parse spec value then
        editFields preset (userField fields target value) rest
      else none

/-- What `edit` stores once its fields are accepted. A title is a user-owned `subject` too. -/
def State.storeEdit (s : State) (edited : Fields) : Option String → State
  | none => { s with fields := edited }
  | some text => { s with fields := userField edited "subject" (some text), title := text }

/-- `edit`. The contract takes at most 100 fields and a title of 1 to 2000 characters. -/
def State.edit (preset : Preset) (s : State) (fields : List (String × Option String))
    (title : Option String) : Option State :=
  if fields.length > 100 ∨ ∃ text ∈ title, text.length = 0 ∨ text.length > 2000 then none
  else
    (editFields preset s.fields fields).map fun edited => s.storeEdit edited title

/-- `create_observation`: one row per extracted fact, complete in the number of values. -/
def createObservation (receipt : Receipt) (occurredAt : ℕ)
    (facts : Table String ExtractedFact) : Observation where
  connectionId := receipt.connectionId
  sourceEventId := receipt.sourceEventId
  sourceOccurredAt := occurredAt
  completeness := (facts.entries.filter fun e => e.2.valueKind = .value).length
  facts := facts

/-- The delivery is still to be processed. -/
def Receipt.isOpen (receipt : Receipt) : Bool := receipt.state = .pending && !receipt.deleted

def step (preset : Preset) (s : State) : Action → Option State
  | .connect id connection =>
    if (s.connections.lookup id).isSome ||
        s.connections.existsRow fun _ row => row.sourceNamespace = connection.sourceNamespace
    then none
    else some { s with connections := s.connections.insert id connection }
  | .accept id connectionId sourceEventId =>
    if (s.connections.lookup connectionId).isNone || (s.receipts.lookup id).isSome then none
    else if s.receipts.existsRow fun _ row =>
        row.connectionId = connectionId && row.sourceEventId = sourceEventId
    then some s
    else
      some { s with
        receipts := s.receipts.insert id ⟨connectionId, sourceEventId, .pending, false⟩ }
  | .process id occurredAt facts =>
    match s.receipts.lookup id with
    | none => none
    | some receipt =>
      if receipt.isOpen then
        some { s with
          observations := s.observations.insert id (createObservation receipt occurredAt facts)
          receipts := s.receipts.insert id { receipt with state := .processed } }
      else none
  | .refuse id =>
    match s.receipts.lookup id with
    | none => none
    | some receipt =>
      if receipt.isOpen then
        some { s with receipts := s.receipts.insert id { receipt with state := .refused } }
      else none
  | .attach id rows => s.attach preset id rows
  | .erase id rows => s.eraseObservation preset id rows
  | .derive rows => s.rederive preset rows
  | .edit fields title => s.edit preset fields title

/-- One opportunity whose pinned preset version stays the same. -/
def opportunity (preset : Preset) : Machine State Action where
  init := State.IsInserted
  step := step preset

end Rheostream.Leads
