import Rheostream.Foundation.Machine
import Rheostream.Foundation.PyText
import Rheostream.Foundation.Selection
import Rheostream.Recallatron.Eligibility

/-!
# Trusted source units

`source_units.py`: a unit of evidence is accepted once under its identity, the partition that
its grant mints and the producer's key. What becomes of the identity is kept on its receipt. The
other operations that end, change or replace a memory are those of `lifecycle.py`.
-/

namespace Rheostream.Recallatron.SourceUnits

inductive ProducerKind where
  | migration
  | rheoRuntime
  | claudeCodeLocal
  deriving DecidableEq

/-- `AUTOMATIC_PRODUCER_KINDS`. -/
def ProducerKind.isAutomatic (kind : ProducerKind) : Bool := kind ≠ .migration

structure SourceLink where
  ref : RefText
  relation : Relation
  deriving DecidableEq

/-- The sanitized evidence of a unit; of a mention only its backing reference is kept. -/
structure SanitizedEvidence where
  title : String
  body : String
  occurredAt : Option ℤ
  purposes : List ContextPurpose
  links : List SourceLink
  mentions : List (Option RefText)

structure TrustedSourceUnit where
  producerKind : ProducerKind
  authorityId : Uuid
  principalAccountId : Option Uuid
  audienceKind : AudienceKind
  audienceId : Option Uuid
  boundPurpose : Option ContextPurpose
  sourceRecordedAt : Option ℤ
  sourceExpiresAt : Option ℤ
  externalSourceKey : String
  evidence : SanitizedEvidence

structure AuthorityGrant where
  workspaceId : Uuid
  producerKind : ProducerKind
  authorityId : Uuid
  principalAccountId : Option Uuid
  audienceKind : AudienceKind
  audienceId : Option Uuid
  boundPurpose : Option ContextPurpose
  requiredLinks : List SourceLink

/-- The states of a receipt for a memory. -/
inductive ReceiptState where
  | active
  | noop
  | denied
  | erased
  | expired
  deriving DecidableEq

/-- A row of `source_receipt`. -/
structure SourceReceipt where
  recordId : Option Uuid
  payloadDigest : String
  state : ReceiptState
  deriving DecidableEq

/-- The namespace and the key of a unit. -/
abbrev SourceKey := String × String

/-- A row of `memory`, with its purposes and links. -/
structure SourceMemory where
  title : String
  body : String
  audienceKind : AudienceKind
  audienceId : Option Uuid
  purposes : List ContextPurpose
  links : List SourceLink
  identity : Option SourceKey
  /-- Invalidated or superseded. -/
  retired : Bool

/-- The memories and receipts of a workspace, with every memory that was accepted and the grant
under which it was. -/
structure SourceState where
  memories : Table Uuid SourceMemory
  receipts : Table SourceKey SourceReceipt
  accepted : Table Uuid AuthorityGrant

/-- The two hashes: `mint_source_namespace` and `payload_digest`. -/
structure Hashing where
  mint : AuthorityGrant → String
  digest : TrustedSourceUnit → String

/-- What a call finds: the workspace, the clock, the answer of the authority, the horizon of the
retention policy, and which references and memories are readable. -/
structure SourceCall where
  workspaceId : Uuid
  now : ℤ
  grant : Option AuthorityGrant
  retention : Option RetentionPolicy
  readable : RefText → Bool
  eligible : Uuid → Bool
  newId : Uuid

/-- What acceptance and retirement answer. -/
inductive SourceOutcome where
  | authorityUnverified
  | sourceUnavailable
  | active (memory : Uuid)
  | terminal (state : ReceiptState)
  | liveRepresentation (memory : Uuid)
  deriving DecidableEq

/-- `_verified`. -/
def verified (c : SourceCall) (unit : TrustedSourceUnit) : Option AuthorityGrant :=
  c.grant.bind fun grant =>
    if grant.workspaceId ≠ c.workspaceId then none
    else if grant.producerKind ≠ unit.producerKind ∨ grant.authorityId ≠ unit.authorityId ∨
        grant.principalAccountId ≠ unit.principalAccountId then none
    else some grant

/-- `_within_ceiling`. -/
def withinCeiling (unit : TrustedSourceUnit) (grant : AuthorityGrant) : Bool :=
  match unit.audienceKind with
  | .member =>
    if unit.audienceId.isNone || unit.audienceId ≠ unit.principalAccountId then false
    else match grant.audienceKind with
      | .member => grant.audienceId = unit.audienceId
      | .workspace => true
  | .workspace => unit.audienceId.isNone && grant.audienceKind = .workspace

/-- `_accepted_purposes`. -/
def acceptedPurposes (unit : TrustedSourceUnit) : Option (List ContextPurpose) :=
  if unit.producerKind.isAutomatic then
    match unit.boundPurpose with
    | none => none
    | some purpose =>
      if unit.evidence.purposes.all (· = purpose) then some [purpose] else none
  else if unit.evidence.purposes.isEmpty then none
  else some (sortedBy ContextPurpose.value unit.evidence.purposes.dedup)

/-- `_producer_shape_holds`. -/
def producerShapeHolds (unit : TrustedSourceUnit) : Bool :=
  if !unit.producerKind.isAutomatic then true
  else if unit.sourceRecordedAt.isNone || unit.sourceExpiresAt.isNone then false
  else if unit.principalAccountId.isNone then
    unit.producerKind ≠ .claudeCodeLocal && unit.audienceKind = .workspace
  else true

/-- `_window_state`. -/
def windowState (unit : TrustedSourceUnit) (now : ℤ) : Option ReceiptState :=
  match unit.sourceRecordedAt, unit.sourceExpiresAt with
  | some recorded, some expires =>
    if recorded ≥ expires ∨ recorded > now then some .denied
    else if now ≥ expires then some .expired
    else none
  | _, _ => none

/-- `_evidence_is_explicit`. -/
def evidenceIsExplicit (unit : TrustedSourceUnit) : Bool :=
  !(pyStrip unit.evidence.title).isEmpty && !(pyStrip unit.evidence.body).isEmpty

/-- `_policy_state`. -/
def policyState (unit : TrustedSourceUnit) (grant : AuthorityGrant) (now : ℤ) :
    Option ReceiptState :=
  if !producerShapeHolds unit then some .denied
  else if !withinCeiling unit grant then some .denied
  else if unit.boundPurpose ≠ grant.boundPurpose then some .denied
  else if (acceptedPurposes unit).isNone then some .denied
  else match windowState unit now with
    | some state => some state
    | none =>
      if !grant.requiredLinks.all (unit.evidence.links.contains ·) then some .denied
      else if !evidenceIsExplicit unit then some .noop
      else none

/-- The clock of the memory: the source's, or for a migrated row its own. -/
def recordedAt (unit : TrustedSourceUnit) : Option ℤ :=
  match unit.sourceRecordedAt with
  | some recorded => some recorded
  | none => if unit.producerKind = .migration then unit.evidence.occurredAt else none

/-- `_born_expired`. -/
def bornExpired (c : SourceCall) (policy : RetentionPolicy) (unit : TrustedSourceUnit)
    (recorded : ℤ) : Bool :=
  unit.audienceKind = .workspace && (policy.horizon c.now).any fun horizon => recorded < horizon

/-- `_verified_links`: whether every link resolves under the caller. -/
def linksVerified (c : SourceCall) (unit : TrustedSourceUnit) : Bool :=
  unit.evidence.links.all fun link => link.ref.parse.isSome && c.readable link.ref

/-- `_mentions_readable`. -/
def mentionsReadable (c : SourceCall) (unit : TrustedSourceUnit) : Bool :=
  unit.evidence.mentions.all fun mention => mention.all c.readable

/-- The links that `write_memory` stores: those of the unit, and one to what backs a mention. -/
def storedLinks (unit : TrustedSourceUnit) : List SourceLink :=
  unit.evidence.links ++ unit.evidence.mentions.filterMap fun mention =>
    mention.map fun ref => ⟨ref, .about⟩

namespace SourceState

variable (s : SourceState) (hashing : Hashing)

/-- `_terminalize`. -/
def terminalize (key : SourceKey) (unit : TrustedSourceUnit) (state : ReceiptState) :
    SourceState × SourceOutcome :=
  ({ s with receipts := s.receipts.insert key ⟨none, hashing.digest unit, state⟩ },
    .terminal state)

/-- `_replayed`. -/
def replayed (c : SourceCall) (unit : TrustedSourceUnit) (existing : SourceReceipt) :
    SourceOutcome :=
  if existing.state ≠ .active || existing.payloadDigest ≠ hashing.digest unit then
    .sourceUnavailable
  else match existing.recordId with
    | none => .sourceUnavailable
    | some id => if c.eligible id then .active id else .sourceUnavailable

/-- The memory that an accepted unit becomes. -/
def acceptedMemory (unit : TrustedSourceUnit) (purposes : List ContextPurpose) (key : SourceKey) :
    SourceMemory :=
  ⟨pyStrip unit.evidence.title, unit.evidence.body, unit.audienceKind, unit.audienceId, purposes,
    storedLinks unit, some key, false⟩

/-- The write of `accept_source_unit`: the memory and its active receipt. -/
def create (c : SourceCall) (unit : TrustedSourceUnit) (grant : AuthorityGrant)
    (purposes : List ContextPurpose) (key : SourceKey) : SourceState × SourceOutcome :=
  ({ memories := s.memories.insert c.newId (acceptedMemory unit purposes key)
     receipts := s.receipts.insert key ⟨some c.newId, hashing.digest unit, .active⟩
     accepted := s.accepted.insert c.newId grant },
    .active c.newId)

/-- `accept_source_unit` of an identity without a receipt. -/
def acceptNew (c : SourceCall) (unit : TrustedSourceUnit) (grant : AuthorityGrant)
    (policy : RetentionPolicy) (key : SourceKey) : SourceState × SourceOutcome :=
  match policyState unit grant c.now with
  | some state => s.terminalize hashing key unit state
  | none =>
    match recordedAt unit with
    | none => s.terminalize hashing key unit .denied
    | some recorded =>
      if bornExpired c policy unit recorded then s.terminalize hashing key unit .noop
      else if !linksVerified c unit || !mentionsReadable c unit then
        s.terminalize hashing key unit .denied
      else match acceptedPurposes unit with
        | none => s.terminalize hashing key unit .denied
        | some purposes => s.create hashing c unit grant purposes key

/-- `accept_source_unit`. -/
def acceptSourceUnit (c : SourceCall) (unit : TrustedSourceUnit) :
    Except String (SourceState × SourceOutcome) :=
  match verified c unit with
  | none => .ok (s, .authorityUnverified)
  | some grant =>
    match c.retention with
    | none => .error "retention_unavailable"
    | some policy =>
      match s.receipts.lookup (hashing.mint grant, unit.externalSourceKey) with
      | some existing => .ok (s, replayed hashing c unit existing)
      | none => .ok (s.acceptNew hashing c unit grant policy
          (hashing.mint grant, unit.externalSourceKey))

/-- `set_source_receipt_state`. -/
def setReceiptState (receipts : Table SourceKey SourceReceipt) (key : SourceKey)
    (state : ReceiptState) : Table SourceKey SourceReceipt :=
  receipts.updateIf key ⟨fun _ => true, fun receipt => { receipt with state := state }⟩

/-- `retire_source_unit`. -/
def retireSourceUnit (c : SourceCall) (unit : TrustedSourceUnit) : SourceState × SourceOutcome :=
  match verified c unit with
  | none => (s, .authorityUnverified)
  | some grant =>
    let key := (hashing.mint grant, unit.externalSourceKey)
    match s.receipts.lookup key with
    | none => s.terminalize hashing key unit .erased
    | some existing =>
      match existing.recordId.filter fun id =>
        existing.state = .active && (s.memories.lookup id).isSome with
      | some id => (s, .liveRepresentation id)
      | none =>
        ({ s with receipts := setReceiptState s.receipts key .erased }, .terminal .erased)

/-- One row of `_erase`. -/
def eraseRow (id : Uuid) : SourceState :=
  match s.memories.lookup id with
  | none => s
  | some m =>
    { s with
      memories := s.memories.erase id
      receipts := match m.identity with
        | none => s.receipts
        | some key => setReceiptState s.receipts key .erased }

/-- `_erase`, for an approved deletion, an expiry and their closures. -/
def erase (ids : List Uuid) : SourceState := (sortedBy id ids).foldl eraseRow s

/-- `correct_memory`. -/
def correctRow (id : Uuid) (title body : String) : SourceState :=
  let rewrite : RowUpdate SourceMemory :=
    ⟨fun _ => true, fun m => { m with title := title, body := body }⟩
  { s with memories := s.memories.updateIf id rewrite }

/-- The rows that a correction or a supersession invalidates, or retires for a replacement. -/
def retireRows (ids : List Uuid) : SourceState :=
  { s with memories := s.memories.updateAll fun id m =>
      if ids.contains id then { m with retired := true } else m }

/-- A memory that is no representation of a unit: a statement, a derivation, a replacement. -/
def writeMemory (id : Uuid) (m : SourceMemory) : Option SourceState :=
  if (s.memories.lookup id).isSome || (s.accepted.lookup id).isSome then none
  else some { s with memories := s.memories.insert id { m with identity := none } }

end SourceState

/-- The operations on memories, with what each finds. -/
inductive SourceAction where
  | accept (c : SourceCall) (unit : TrustedSourceUnit)
  | retire (c : SourceCall) (unit : TrustedSourceUnit)
  | erase (ids : List Uuid)
  | correct (id : Uuid) (title body : String) (affected : List Uuid)
  | supersede (id replacement : Uuid) (m : SourceMemory) (affected : List Uuid)
  | write (id : Uuid) (m : SourceMemory)

def sourceStep (hashing : Hashing) (s : SourceState) : SourceAction → Option SourceState
  | .accept c unit =>
    -- identifiers are fresh
    if (s.memories.lookup c.newId).isSome || (s.accepted.lookup c.newId).isSome then none
    else match s.acceptSourceUnit hashing c unit with
      | .error _ => some s
      | .ok answer => some answer.1
  | .retire c unit => some (s.retireSourceUnit hashing c unit).1
  | .erase ids => some (s.erase ids)
  | .correct id title body affected => some ((s.correctRow id title body).retireRows affected)
  | .supersede id replacement m affected =>
    (s.writeMemory replacement m).map fun t => t.retireRows (id :: affected)
  | .write id m => s.writeMemory id m

/-- A workspace without memories, under any order of operations. -/
def sourceUnits (hashing : Hashing) : Machine SourceState SourceAction :=
  ⟨fun s => s = ⟨∅, ∅, ∅⟩, sourceStep hashing⟩

end Rheostream.Recallatron.SourceUnits
