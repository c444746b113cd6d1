import Rheostream.Leads.IntakeMapping
import Rheostream.Leads.Pipeline

/-!
# Durable acceptance

`accept.py` and the erasure of `lifecycle.py`. Receipt, payload, event and health share one
transaction, and acceptance, processing and erasure hold the workspace lifecycle lock, so
each of them is one step. What was published and which observations were made is kept as
history.
-/

namespace Rheostream.Leads

inductive Transport where
  | webhook
  | file
  | manual
  | poll
  deriving DecidableEq

inductive ConnectionState where
  | active
  | needsCredential
  | revoked
  deriving DecidableEq

/-- A row of `intake_connection`. -/
structure IntakeConnection where
  transport : Transport
  sourceNamespace : String
  mappingId : Uuid
  mappingVersion : ℕ
  funnelId : Option Uuid
  campaignId : Option Uuid
  priority : ℤ
  subjectAuthenticated : Bool
  emailVerified : Bool
  signingKeyGeneration : ℕ
  previousSecretRef : Option String
  previousValidUntil : Option ℕ
  state : ConnectionState

/-- A row of `campaign`. -/
structure CampaignRow where
  funnelId : Uuid
  archivedAt : Option ℕ

inductive DeliveryStatus where
  | pending
  | processed
  | refused
  deriving DecidableEq

/-- A row of `delivery_receipt`. -/
structure DeliveryReceipt where
  connectionId : Uuid
  sourceEventId : String
  contentDigest : String
  byteLength : ℕ
  transport : Transport
  receivedAt : ℕ
  sourceOccurredAt : Option ℕ
  mappingId : Uuid
  mappingVersion : ℕ
  funnelId : Uuid
  campaignId : Option Uuid
  signingKeyGeneration : Option ℕ
  state : DeliveryStatus
  stateDetail : Option String
  processedAt : Option ℕ

/-- A row of `delivery_payload`. -/
structure DeliveryPayload where
  body : String
  contentType : String
  byteLength : ℕ

inductive ConflictKind where
  | digestDiffers
  | deletedObservation
  deriving DecidableEq

/-- The text that a conflict leaves on the health of its connection. -/
def ConflictKind.text : ConflictKind → String
  | .digestDiffers => "digest_differs"
  | .deletedObservation => "deleted_observation"

/-- A row of `delivery_conflict`. -/
structure DeliveryConflict where
  receiptId : Uuid
  kind : ConflictKind
  contentDigest : String
  byteLength : ℕ
  receivedAt : ℕ
  body : Option String

/-- A row of `connection_health`. -/
structure ConnectionHealth where
  lastAcceptedAt : Option ℕ
  lastProcessedAt : Option ℕ
  unresolvedFailures : ℕ
  lastError : Option String
  lastErrorAt : Option ℕ

/-- What intake stores of an observation besides what a pipeline reads of it, with its
fields. -/
structure ObservationRow where
  connectionId : Uuid
  transport : Transport
  sourceEventId : String
  externalSubjectId : Option String
  verifiedEmail : Option String
  sourceOccurredAt : ℕ
  receivedAt : ℕ
  mappingVersion : ℕ
  completeness : ℕ
  createdAt : ℕ
  facts : List MappedFact

/-- A row of `jobfeed_posting`. -/
structure StoredPosting where
  seq : ℕ
  fieldDigests : String
  lastEventId : String
  firstDeliveredAt : ℕ
  lastDeliveredAt : ℕ

inductive ConditionOp where
  | present
  | absent
  | equals
  | contains
  deriving DecidableEq

/-- A row of `routing_condition`. -/
structure RoutingCondition where
  field : String
  op : ConditionOp
  value : Option String

/-- What a routing rule does with an observation that it matches. -/
inductive RoutingTarget where
  | recordOnly
  | createOpportunity (pipelineId : Uuid)
  | attachToOpenOpportunity (pipelineId : Uuid)
  | attachByField (pipelineId : Uuid) (matchField : String)

/-- A row of `routing_rule`, with its conditions. -/
structure RoutingRule where
  id : Uuid
  target : RoutingTarget
  enabled : Bool
  conditions : List RoutingCondition

/-- The configuration that acceptance and processing read. -/
structure IntakeConfig where
  connections : Table Uuid IntakeConnection
  /-- The funnels, and when each was archived. -/
  funnels : Table Uuid (Option ℕ)
  campaigns : Table Uuid CampaignRow
  mappings : Table (Uuid × ℕ) FieldMapping
  /-- The rules of each connection, in their order. -/
  rules : Uuid → List RoutingRule
  /-- The connections of the job feed. -/
  collectors : List Uuid
  leadsEnabled : Bool
  maxPayloadBytes : ℕ

inductive IntakeEvent where
  | deliveryReceived (receiptId : Uuid)
  | observationAccepted (observationId : Uuid)
  deriving DecidableEq

structure IntakeState where
  config : IntakeConfig
  receipts : Table Uuid DeliveryReceipt
  payloads : Table Uuid DeliveryPayload
  conflicts : Table Uuid DeliveryConflict
  health : Table Uuid ConnectionHealth
  evidence : Table Uuid ObservationRow
  postings : Table (Uuid × String) StoredPosting
  pipeline : PipelineState
  /-- The events published so far. -/
  published : List IntakeEvent
  /-- The receipts that an observation was made for so far. -/
  made : List Uuid

/-- Who calls. -/
structure IntakeCaller where
  /-- The connection that the caller is authenticated as. -/
  connection : Option Uuid
  isIntake : Bool
  isService : Bool

/-- `AcceptDeliveryInput`, with its references parsed. -/
structure AcceptInput where
  connectionId : Uuid
  sourceEventId : String
  body : String
  contentType : String
  sourceOccurredAt : Option ℕ
  signingKeyGeneration : Option ℕ
  funnelId : Option Uuid
  campaignId : Option Uuid

inductive AcceptOutcome where
  | accepted
  | duplicate
  | conflict
  deriving DecidableEq

/-- `state_detail` of an erased receipt. -/
def observationDeleted : String := "observation_deleted"

namespace DeliveryReceipt

/-- The receipt of an erased observation. -/
def isErased (receipt : DeliveryReceipt) : Bool := receipt.stateDetail = some observationDeleted

end DeliveryReceipt

namespace IntakeConnection

/-- A signing generation that the connection still takes. -/
def takesGeneration (connection : IntakeConnection) (generation : Option ℕ) (now : ℕ) : Bool :=
  match generation with
  | none => false
  | some g =>
    g = connection.signingKeyGeneration ||
      (g + 1 = connection.signingKeyGeneration && connection.previousSecretRef.isSome &&
        connection.previousValidUntil.any fun until_ => now < until_)

/-- The caller is the connection itself, through its own entry. -/
def isCaller (id : Uuid) (caller : IntakeCaller) : Bool :=
  caller.connection = some id && caller.isIntake

/-- The refusal of a caller or a signing generation. -/
def callerRefusal (connection : IntakeConnection) (id : Uuid) (leadsEnabled : Bool)
    (caller : IntakeCaller) (generation : Option ℕ) (now : ℕ) : Option String :=
  match connection.transport with
  | .webhook =>
    if !leadsEnabled then some "module_unavailable"
    else if !isCaller id caller then some "role_not_permitted"
    else if !connection.takesGeneration generation now then some "connection_revoked"
    else none
  | .poll => if isCaller id caller then none else some "role_not_permitted"
  | .file => none
  | .manual => none

/-- The funnel and the campaign of a delivery: of the caller on a manual connection, of the
connection elsewhere. -/
def attributionOf (connection : IntakeConnection) (caller : IntakeCaller) (m : AcceptInput) :
    Except String (Option Uuid × Option Uuid) :=
  match connection.transport with
  | .manual =>
    if m.funnelId.isNone then .error "funnel_required" else .ok (m.funnelId, m.campaignId)
  | _ =>
    if !caller.isService then .error "role_not_permitted"
    else if m.funnelId.isSome || m.campaignId.isSome then .error "input_invalid"
    else .ok (connection.funnelId, connection.campaignId)

end IntakeConnection

namespace IntakeState

variable (s : IntakeState)

/-- `attribution`: the funnel, if it and the campaign are there and not archived. -/
def attribution (funnelId campaignId : Option Uuid) : Except String Uuid :=
  match funnelId with
  | none => .error "funnel_required"
  | some funnel =>
    if s.config.funnels.lookup funnel ≠ some none then .error "not_found"
    else if campaignId.all fun campaign => (s.config.campaigns.lookup campaign).any fun row =>
        row.funnelId = funnel && row.archivedAt.isNone then .ok funnel
    else .error "not_found"

/-- `health_write` of an acceptance. -/
def noteAccepted (connectionId : Uuid) (now : ℕ) : IntakeState :=
  let row := match s.health.lookup connectionId with
    | none => ⟨some now, none, 0, none, none⟩
    | some row => { row with lastAcceptedAt := some now }
  { s with health := s.health.insert connectionId row }

/-- `health_write` of a processed delivery. -/
def noteProcessed (connectionId : Uuid) (now : ℕ) : IntakeState :=
  let row := match s.health.lookup connectionId with
    | none => ⟨none, some now, 0, none, none⟩
    | some row => { row with lastProcessedAt := some now }
  { s with health := s.health.insert connectionId row }

/-- `health_write` of an error. -/
def noteError (connectionId : Uuid) (error : String) (now : ℕ) : IntakeState :=
  let row := match s.health.lookup connectionId with
    | none => ⟨none, none, 1, some error, some now⟩
    | some row => { row with
        unresolvedFailures := row.unresolvedFailures + 1
        lastError := some error
        lastErrorAt := some now }
  { s with health := s.health.insert connectionId row }

/-- The receipt of an event of a connection. -/
def receiptOf (connectionId : Uuid) (sourceEventId : String) : Option (Uuid × DeliveryReceipt) :=
  s.receipts.findRow fun _ row =>
    row.connectionId = connectionId && row.sourceEventId = sourceEventId

/-- The conflict that a delivery leaves: without a body once the event is erased. -/
def conflictOf (lib : IntakeLibrary) (receiptId : Uuid) (receipt : DeliveryReceipt)
    (m : AcceptInput) (now : ℕ) : DeliveryConflict where
  receiptId := receiptId
  kind := if receipt.isErased then .deletedObservation else .digestDiffers
  contentDigest := lib.sha256 m.body
  byteLength := m.body.utf8ByteSize
  receivedAt := now
  body := if receipt.isErased then none else some m.body

/-- A conflict is kept for review. -/
def addConflict (conflictId : Uuid) (conflict : DeliveryConflict) : IntakeState :=
  { s with conflicts := s.conflicts.insert conflictId conflict }

/-- A delivery of an event that has a receipt. -/
def repeated (lib : IntakeLibrary) (receiptId : Uuid) (receipt : DeliveryReceipt)
    (m : AcceptInput) (conflictId : Uuid) (now : ℕ) : IntakeState × AcceptOutcome :=
  if !receipt.isErased && receipt.contentDigest = lib.sha256 m.body then (s, .duplicate)
  else
    let conflict := conflictOf lib receiptId receipt m now
    ((s.addConflict conflictId conflict).noteError m.connectionId conflict.kind.text now, .conflict)

/-- The receipt of a new delivery. -/
def receiptRow (lib : IntakeLibrary) (connection : IntakeConnection) (m : AcceptInput)
    (funnelId : Uuid) (campaignId : Option Uuid) (now : ℕ) : DeliveryReceipt where
  connectionId := m.connectionId
  sourceEventId := m.sourceEventId
  contentDigest := lib.sha256 m.body
  byteLength := m.body.utf8ByteSize
  transport := connection.transport
  receivedAt := now
  sourceOccurredAt := m.sourceOccurredAt
  mappingId := connection.mappingId
  mappingVersion := connection.mappingVersion
  funnelId := funnelId
  campaignId := campaignId
  signingKeyGeneration := m.signingKeyGeneration
  state := .pending
  stateDetail := none
  processedAt := none

/-- A new delivery: its receipt, its payload and its event. -/
def received (receiptId : Uuid) (row : DeliveryReceipt) (m : AcceptInput) (now : ℕ) :
    IntakeState :=
  { s with
    receipts := s.receipts.insert receiptId row
    payloads := s.payloads.insert receiptId ⟨m.body, m.contentType, m.body.utf8ByteSize⟩
    published := s.published ++ [IntakeEvent.deliveryReceived receiptId] }.noteAccepted
      m.connectionId now

/-- The funnel and the campaign of a delivery that is not refused. -/
def admitted (m : AcceptInput) (caller : IntakeCaller) (now : ℕ) :
    Except String (IntakeConnection × Uuid × Option Uuid) :=
  if s.config.maxPayloadBytes < m.body.utf8ByteSize then .error "payload_too_large"
  else match s.config.connections.lookup m.connectionId with
    | none => .error "not_found"
    | some connection =>
      if connection.state ≠ .active then .error "connection_revoked"
      else match connection.callerRefusal m.connectionId s.config.leadsEnabled caller
          m.signingKeyGeneration now with
        | some refusal => .error refusal
        | none =>
          match connection.attributionOf caller m with
          | .error refusal => .error refusal
          | .ok (funnelId, campaignId) =>
            match s.attribution funnelId campaignId with
            | .error refusal => .error refusal
            | .ok funnel => .ok (connection, funnel, campaignId)

/-- `accept_delivery`. -/
def accept (lib : IntakeLibrary) (m : AcceptInput) (caller : IntakeCaller)
    (receiptId conflictId : Uuid) (now : ℕ) : Except String (IntakeState × AcceptOutcome) :=
  match s.admitted m caller now with
  | .error refusal => .error refusal
  | .ok (connection, funnelId, campaignId) =>
    match s.receiptOf m.connectionId m.sourceEventId with
    | some (existing, receipt) => .ok (s.repeated lib existing receipt m conflictId now)
    | none =>
      .ok (s.received receiptId (receiptRow lib connection m funnelId campaignId now) m now,
        .accepted)

/-- `forget_posting`: on one connection, or on every one. -/
def forgetPosting (postingId : String) (connectionId : Option Uuid) : IntakeState :=
  { s with postings := s.postings.deleteWhere fun k _ =>
      k.2 = postingId && connectionId.all fun connection => k.1 = connection }

/-- The text before the first dot. -/
def firstSegment (eventId : String) : String :=
  String.ofList (eventId.toList.takeWhile fun c => c ≠ '.')

/-- `on_observation_deleted`. -/
def onObservationDeleted (id : Uuid) : IntakeState :=
  match s.receipts.lookup id with
  | none => s
  | some receipt =>
    let forgotten := if s.config.collectors.contains receipt.connectionId then
        s.forgetPosting (firstSegment receipt.sourceEventId) (some receipt.connectionId)
      else s
    { forgotten with
      payloads := s.payloads.erase id
      conflicts := s.conflicts.updateAll fun _ conflict =>
        if conflict.receiptId = id then { conflict with body := none } else conflict
      receipts := s.receipts.insert id { receipt with stateDetail := some observationDeleted } }

/-- The facts of an observation, as `derive` reads them. -/
def factsOf (id : Uuid) : List Fact :=
  match s.evidence.lookup id with
  | none => []
  | some row =>
    match s.config.connections.lookup row.connectionId with
    | none => []
    | some connection => row.facts.map fun f =>
      { observationId := id
        target := f.target
        valueKind := f.valueKind
        valueText := f.valueText
        sourceOccurredAt := row.sourceOccurredAt
        completeness := row.completeness
        sourceEventId := row.sourceEventId
        priority := connection.priority
        sourceNamespace := connection.sourceNamespace }

/-- The facts of the observations that an opportunity is linked to. -/
def linkedFacts (links : Table (Uuid × Uuid) String) (id : Uuid) : List Fact :=
  (links.keys.filter fun key => key.1 = id).flatMap fun key => s.factsOf key.2

/-- The links after an observation is linked to an opportunity. -/
def linksWith (id obsId : Uuid) : Table (Uuid × Uuid) String :=
  if (s.pipeline.links.lookup (id, obsId)).isSome then s.pipeline.links
  else s.pipeline.links.insert (id, obsId) ""

/-- The links after an observation is gone. -/
def linksWithout (obsId : Uuid) : Table (Uuid × Uuid) String :=
  s.pipeline.links.deleteWhere fun key _ => key.2 = obsId

/-- `delete_owned` of an observation, with what intake keeps of it. -/
def deleteObservation (parse : Parsers) (obsId : Uuid) (now : ℕ) : Except String IntakeState :=
  match s.pipeline.deleteObservation parse obsId (s.linkedFacts (s.linksWithout obsId)) now with
  | .error refusal => .error refusal
  | .ok pipeline => .ok ({ s with
      pipeline := pipeline
      evidence := s.evidence.erase obsId }.onObservationDeleted obsId)

/-- `POSTING_ID`. -/
def postingIdTarget : String := "ext.jobsearch.posting_id"

/-- The posting that an opportunity tracks. -/
def postingOf (id : Uuid) : Option String :=
  match (s.pipeline.fieldsOf id).lookup postingIdTarget with
  | none => none
  | some f => if f.valueKind = .value then f.valueText else none

/-- `delete_owned` of an opportunity. -/
def deleteOpportunity (id : Uuid) (revision : ℕ) : Except String IntakeState :=
  match s.pipeline.deleteOpportunity id revision with
  | .error refusal => .error refusal
  | .ok pipeline =>
    let forgotten := match s.postingOf id with
      | none => s
      | some postingId => s.forgetPosting postingId none
    .ok { forgotten with pipeline := pipeline }

end IntakeState

end Rheostream.Leads
