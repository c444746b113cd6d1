import Rheostream.Leads.Intake

/-!
# Processing and routing

`process.py` and `pipeline_intake.py`. One transaction rechecks the connection, applies the
mapping that the receipt pins, makes the observation, resolves its party and routes it. A
permanent refusal is kept on the receipt, any other failure rolls everything back and the
job is tried again. What Relationships answers is part of the action.
-/

namespace Rheostream.Leads

/-- What a processing attempt gets from outside. -/
structure ProcessAnswers where
  /-- `party.resolve_or_create`. -/
  party : Except String String
  /-- `party.aliases`: the canonical reference and its aliases. -/
  aliases : Except String (List String)
  /-- `party.get` answers. -/
  isReadable : String → Bool
  /-- The identifier of a new opportunity. -/
  opportunityId : Uuid
  now : ℕ

namespace IntakeState

variable (lib : IntakeLibrary) (parse : Parsers) (s : IntakeState)

/-- `recheck_connection`. -/
def recheckConnection (connection : IntakeConnection) (receipt : DeliveryReceipt) (now : ℕ) :
    Option String :=
  if connection.state ≠ .active then some "connection_revoked"
  else if receipt.transport = .webhook &&
      !connection.takesGeneration receipt.signingKeyGeneration now then some "connection_revoked"
  else none

/-- The preset of the pipelines of job searches. -/
def jobsearchPresetId : Uuid := 0x019bf0b0000070008000000000000002

def jobsearchTargetPrefix : String := "ext.jobsearch."

/-- The pipeline of a routing rule. -/
def RoutingTarget.pipelineId : RoutingTarget → Option Uuid
  | .recordOnly => none
  | .createOpportunity pipelineId => some pipelineId
  | .attachToOpenOpportunity pipelineId => some pipelineId
  | .attachByField pipelineId _ => some pipelineId

/-- `routes_to_jobsearch`. -/
def routesToJobsearch (connectionId : Uuid) : Bool :=
  (s.config.rules connectionId).any fun rule => rule.enabled &&
    (RoutingTarget.pipelineId rule.target).any fun pipelineId =>
      (s.pipeline.pipelines.lookup pipelineId).any fun row => row.presetId = jobsearchPresetId

/-- The extension targets that some version of a preset declares, those of job searches only
for a connection that routes into one. -/
def isDeclared (connectionId : Uuid) (target : String) : Bool :=
  (s.pipeline.versions.existsRow fun _ v => (v.specs.lookup target).isSome) &&
    (s.routesToJobsearch connectionId || !pyStartsWith jobsearchTargetPrefix target)

/-- `apply_pinned_mapping`: a mapping that is not there raises, what the payload lacks is
refused. -/
def applyPinnedMapping (id : Uuid) (receipt : DeliveryReceipt) :
    Except String (Except String (List MappedFact × Identity)) :=
  match s.payloads.lookup id with
  | none => .ok (.error "payload_unavailable")
  | some payload =>
    match lib.loads payload.body with
    | some (.obj members) =>
      match s.config.mappings.lookup (receipt.mappingId, receipt.mappingVersion) with
      | none => .error "NoResultFound"
      | some mapping =>
        match applyMapping lib (.obj members) mapping.sourceKind
            (s.isDeclared receipt.connectionId) mapping.rules with
        | .error (.raised error) => .error error
        | .error (.refused label) => .ok (.error ("mapping_failed:" ++ label))
        | .ok facts =>
          match resolveIdentity mapping.identity (.obj members) mapping.sourceKind with
          | .error (.raised error) => .error error
          | .error (.refused _) => .ok (.error "identity_invalid")
          | .ok identity => .ok (.ok (facts, identity))
    | _ => .ok (.error "payload_invalid")

/-- `_identity_text`. -/
def identityText (key : String) (value : Option Json) : Except String (Option String) :=
  match value with
  | none => .ok none
  | some .null => .ok none
  | some (.float _) => .error ("identity_invalid:" ++ key)
  | some scalar =>
    match lib.scalarText scalar with
    | none => .error ("identity_invalid:" ++ key)
    | some text => .ok (some text)

/-- The instant of the observation: of the receipt, else of the payload, else of the receipt's
arrival. -/
def occurredAt (receipt : DeliveryReceipt) (identity : Identity) : Except String ℕ :=
  match receipt.sourceOccurredAt with
  | some instant => .ok instant
  | none =>
    match identityText lib "occurred_at_path" identity.occurredAt with
    | .error refusal => .error refusal
    | .ok none => .ok receipt.receivedAt
    | .ok (some raw) =>
      match lib.fromIsoFormat raw with
      | none => .error "identity_invalid:occurred_at_path"
      | some instant => .ok instant

/-- A text of the identity, where the connection vouches for it. -/
def trustedText (isTrusted : Bool) (key : String) (value : Option Json) :
    Except String (Option String) :=
  if isTrusted then identityText lib key value else .ok none

/-- The row that `create_observation` inserts. -/
def observationRow (connection : IntakeConnection) (receipt : DeliveryReceipt)
    (facts : List MappedFact) (identity : Identity) (now : ℕ) : Except String ObservationRow :=
  match occurredAt lib receipt identity with
  | .error refusal => .error refusal
  | .ok occurred =>
    match trustedText lib connection.subjectAuthenticated "subject_id_path" identity.subjectId with
    | .error refusal => .error refusal
    | .ok subjectId =>
      match trustedText lib connection.emailVerified "verified_email_path"
          identity.verifiedEmail with
      | .error refusal => .error refusal
      | .ok email => .ok {
          connectionId := receipt.connectionId
          transport := receipt.transport
          sourceEventId := receipt.sourceEventId
          externalSubjectId := subjectId
          verifiedEmail := email
          sourceOccurredAt := occurred
          receivedAt := receipt.receivedAt
          mappingVersion := receipt.mappingVersion
          completeness := (facts.filter fun f => f.valueKind = .value).length
          createdAt := now
          facts := facts }

/-- The observation of a receipt, under the identifier of the receipt. -/
def withObservation (id : Uuid) (receipt : DeliveryReceipt) (row : ObservationRow) :
    IntakeState :=
  let observation : SourceObservation := ⟨receipt.funnelId, receipt.campaignId, none⟩
  { s with
    evidence := s.evidence.insert id row
    pipeline := { s.pipeline with observations := s.pipeline.observations.insert id observation }
    made := s.made ++ [id] }

/-- The hints for Relationships: the targets, and how long each may be. -/
def hintTargets : List (String × ℕ) :=
  [("person.name", 512), ("person.email", 512), ("person.phone", 128),
    ("organization.name", 512), ("organization.domain", 512)]

/-- The observation says something about a party. -/
def hasParty (row : ObservationRow) : Bool :=
  hintTargets.any (fun e => (valueOfFact row.facts e.1).any fun text =>
    text ≠ "" && text.length ≤ e.2) ||
    row.externalSubjectId.any (fun text => text ≠ "") || row.verifiedEmail.any fun text => text ≠ ""

/-- `resolve_party`. -/
def resolveParty (id : Uuid) (row : ObservationRow) (answer : Except String String) :
    Except String IntakeState :=
  if !hasParty row then .ok s
  else match answer with
    | .error refusal => .error refusal
    | .ok party =>
      let observations := s.pipeline.observations.updateAll fun k obs =>
        if k = id then { obs with partyRef := some party } else obs
      .ok { s with pipeline := { s.pipeline with observations := observations } }

/-- A condition on the values of the facts. -/
def isMet (facts : List MappedFact) (condition : RoutingCondition) : Bool :=
  let value := valueOfFact facts condition.field
  match condition.op with
  | .present => value.isSome
  | .absent => value.isNone
  | .equals => value.isSome && value = condition.value
  | .contains => value.any fun text => condition.value.any fun part => pyContains part text

/-- The newest of the opportunities that meet a condition. -/
def newestOpportunity (p : Uuid → OpportunityRow → Bool) : Option (Uuid × OpportunityRow) :=
  ((s.pipeline.opportunities.select p).entries.map fun e => (e.1, e.2)).argmax
    fun e => toLex (e.2.createdAt, e.1)

/-- `tracked_opportunity`. -/
def trackedOpportunity (pipelineId : Uuid) (field value : String) :
    Option (Uuid × OpportunityRow) :=
  s.newestOpportunity fun id row => row.pipelineId = pipelineId &&
    ((s.pipeline.fieldsOf id).lookup field).any fun f =>
      f.valueKind = .value && f.valueText = some value && !f.orphaned

/-- The newest open opportunity of a pipeline with one of the parties. -/
def openOpportunity (pipelineId : Uuid) (parties : List String) :
    Option (Uuid × OpportunityRow) :=
  s.newestOpportunity fun id row => row.pipelineId = pipelineId && !row.isClosed &&
    s.pipeline.parties.existsRow fun key removed =>
      key.1 = id && parties.contains key.2.1 && !removed

/-- `_record_route`. -/
def recordRoute (id obsId : Uuid) (ruleId : Uuid) : IntakeState :=
  let links := s.pipeline.links.updateAll fun key decision =>
    if key = (id, obsId) then "routing_rule:" ++ toString ruleId else decision
  { s with pipeline := { s.pipeline with links := links } }

/-- `_attach`, through the registered operation. -/
def attachRoute (answers : ProcessAnswers) (target : Uuid × OpportunityRow) (obsId ruleId : Uuid) :
    Except String IntakeState :=
  match s.pipeline.attach parse answers.isReadable target.1 target.2.revision obsId "manual"
      (s.linkedFacts (s.linksWith target.1 obsId) target.1) answers.now with
  | .error refusal => .error refusal
  | .ok pipeline => .ok ({ s with pipeline := pipeline }.recordRoute target.1 obsId ruleId)

/-- A new opportunity, through the registered operation. -/
def createRoute (answers : ProcessAnswers) (pipelineId obsId ruleId : Uuid) :
    Except String IntakeState :=
  match s.pipeline.create parse answers.isReadable answers.opportunityId obsId pipelineId "manual"
      (s.linkedFacts (s.linksWith answers.opportunityId obsId) answers.opportunityId)
      answers.now with
  | .error refusal => .error refusal
  | .ok pipeline =>
    .ok ({ s with pipeline := pipeline }.recordRoute answers.opportunityId obsId ruleId)

/-- An attachment, or a new opportunity where there is nothing to attach to. -/
def attachOrCreate (answers : ProcessAnswers) (target : Option (Uuid × OpportunityRow))
    (pipelineId obsId ruleId : Uuid) : Except String IntakeState :=
  match target with
  | some found => s.attachRoute parse answers found obsId ruleId
  | none => s.createRoute parse answers pipelineId obsId ruleId

/-- The party of an observation that is there. -/
def partyOf (obsId : Uuid) : Option String :=
  (s.pipeline.observations.lookup obsId).bind SourceObservation.partyRef

/-- `route`: the first enabled rule that matches decides. A rule that matches by a field the
observation does not have is passed over. -/
def route (answers : ProcessAnswers) (facts : List MappedFact) (obsId : Uuid) :
    List RoutingRule → Except String IntakeState
  | [] => .ok s
  | rule :: rest =>
    if !rule.enabled || !rule.conditions.all (isMet facts) then route answers facts obsId rest
    else match rule.target with
      | .recordOnly => .ok s
      | .createOpportunity pipelineId => s.createRoute parse answers pipelineId obsId rule.id
      | .attachByField pipelineId field =>
        match (valueOfFact facts field).filter fun key => pyStrip key ≠ "" with
        | none => route answers facts obsId rest
        | some key =>
          s.attachOrCreate parse answers (s.trackedOpportunity pipelineId field key) pipelineId
            obsId rule.id
      | .attachToOpenOpportunity pipelineId =>
        match (s.partyOf obsId).filter fun party => party ≠ "" with
        | none => s.createRoute parse answers pipelineId obsId rule.id
        | some _ =>
          match answers.aliases with
          | .error refusal => .error refusal
          | .ok parties =>
            s.attachOrCreate parse answers (s.openOpportunity pipelineId parties) pipelineId obsId
              rule.id

/-- The receipt is refused, and the health of its connection says why. -/
def refuseReceipt (id : Uuid) (receipt : DeliveryReceipt) (detail : String) (now : ℕ) :
    IntakeState :=
  let refused := { receipt with state := .refused, stateDetail := some detail }
  { s with receipts := s.receipts.insert id refused }.noteError receipt.connectionId detail now

/-- The receipt is processed, and its observation is published. -/
def finishReceipt (id : Uuid) (receipt : DeliveryReceipt) (now : ℕ) : IntakeState :=
  let processed := { receipt with state := .processed, processedAt := some now }
  { s with
    receipts := s.receipts.insert id processed
    published := s.published ++ [IntakeEvent.observationAccepted id] }.noteProcessed
      receipt.connectionId now

/-- The steps after the mapping: the observation, its party and its route. -/
def observe (answers : ProcessAnswers) (id : Uuid) (receipt : DeliveryReceipt)
    (row : ObservationRow) : Except String IntakeState :=
  if (s.pipeline.observations.lookup id).isSome then .error "intake_storage_failed"
  else match (s.withObservation id receipt row).resolveParty id row answers.party with
    | .error refusal => .error refusal
    | .ok resolved =>
      match resolved.route parse answers row.facts id
          (s.config.rules receipt.connectionId) with
      | .error refusal => .error refusal
      | .ok routed => .ok (routed.finishReceipt id receipt answers.now)

/-- `_process`. -/
def process (answers : ProcessAnswers) (id : Uuid) : Except String IntakeState :=
  match s.receipts.lookup id with
  | none => .ok s
  | some receipt =>
    if receipt.state ≠ .pending || receipt.isErased then .ok s
    else match s.config.connections.lookup receipt.connectionId with
      | none => .error "NoResultFound"
      | some connection =>
        match recheckConnection connection receipt answers.now with
        | some refusal => .ok (s.refuseReceipt id receipt refusal answers.now)
        | none =>
          match s.applyPinnedMapping lib id receipt with
          | .error raised => .error raised
          | .ok (.error refusal) => .ok (s.refuseReceipt id receipt refusal answers.now)
          | .ok (.ok (facts, identity)) =>
            match observationRow lib connection receipt facts identity answers.now with
            | .error refusal => .ok (s.refuseReceipt id receipt refusal answers.now)
            | .ok row => s.observe parse answers id receipt row

end IntakeState

inductive IntakeAction where
  | configure (config : IntakeConfig)
  | accept (m : AcceptInput) (caller : IntakeCaller) (receiptId conflictId : Uuid) (now : ℕ)
  | process (answers : ProcessAnswers) (id : Uuid)
  | erase (obsId : Uuid) (now : ℕ)
  | deleteOpportunity (id : Uuid) (revision : ℕ)
  | pipeline (a : PipelineAction)

namespace PipelineAction

/-- A call on opportunities that is not an arrival or an erasure of what intake keeps. -/
def isElsewhere : PipelineAction → Bool
  | .observe .. => false
  | .deleteObservation .. => false
  | .deleteOpportunity .. => false
  | _ => true

/-- The facts that `derive` reads in a call. -/
def rows : PipelineAction → List Fact
  | .create _ _ _ _ _ rows _ => rows
  | .attach _ _ _ _ _ rows _ => rows
  | _ => []

/-- The call, where `derive` reads the facts that intake keeps. -/
def withFacts (s : IntakeState) : PipelineAction → PipelineAction
  | .create isReadable id obsId pipelineId decision _ now =>
    .create isReadable id obsId pipelineId decision (s.linkedFacts (s.linksWith id obsId) id) now
  | .attach isReadable id revision obsId decision _ now =>
    .attach isReadable id revision obsId decision (s.linkedFacts (s.linksWith id obsId) id) now
  | a => a

end PipelineAction

namespace IntakeState

/-- New rows have identifiers that no row of their tables has had. -/
def isFresh (s : IntakeState) : IntakeAction → Bool
  | .accept _ _ receiptId conflictId _ =>
    (s.receipts.lookup receiptId).isNone && (s.conflicts.lookup conflictId).isNone
  | .process answers _ => (s.pipeline.opportunities.lookup answers.opportunityId).isNone
  | .pipeline a => a.isElsewhere && s.pipeline.isFresh a
  | _ => true

/-- What a call answers: the state it leaves, or a failure that leaves everything as it was. -/
def call (lib : IntakeLibrary) (parse : Parsers) (s : IntakeState) :
    IntakeAction → Except String IntakeState
  | .configure config => .ok { s with config := config }
  | .accept m caller receiptId conflictId now =>
    (s.accept lib m caller receiptId conflictId now).map Prod.fst
  | .process answers id => s.process lib parse answers id
  | .erase obsId now => s.deleteObservation parse obsId now
  | .deleteOpportunity id revision => s.deleteOpportunity id revision
  | .pipeline a => (s.pipeline.call parse (a.withFacts s)).map fun pipeline =>
      { s with pipeline := pipeline }

/-- The state after a call. -/
def after (lib : IntakeLibrary) (parse : Parsers) (s : IntakeState) (a : IntakeAction) :
    IntakeState :=
  match s.call lib parse a with
  | .ok t => t
  | .error _ => s

/-- One call, failed or not. -/
def step (lib : IntakeLibrary) (parse : Parsers) (s : IntakeState) (a : IntakeAction) :
    Option IntakeState :=
  if s.isFresh a then some (s.after lib parse a) else none

/-- Nothing was received yet. -/
structure Begins (s : IntakeState) : Prop where
  receipts : s.receipts = ∅
  payloads : s.payloads = ∅
  conflicts : s.conflicts = ∅
  evidence : s.evidence = ∅
  observations : s.pipeline.observations = ∅
  pipeline : s.pipeline.Begins
  fields : s.pipeline.fields = ∅
  published : s.published = []
  made : s.made = []

end IntakeState

/-- The intake of a workspace. -/
def intakeMachine (lib : IntakeLibrary) (parse : Parsers) : Machine IntakeState IntakeAction :=
  ⟨IntakeState.Begins, IntakeState.step lib parse⟩

end Rheostream.Leads
