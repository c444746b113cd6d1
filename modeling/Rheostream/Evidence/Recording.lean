import Rheostream.Evidence.Enrollment

/-!
# Recording evidence

`record.py` and the handler of `core.evidence.ingest`: the records and gaps of a producer are
stored in order, under the budgets of one attempt, and the attempt answers with their native keys.
What `sanitize` makes of a text is a parameter.
-/

namespace Rheostream.Evidence

inductive ProducerKind where
  | migration
  | rheoRuntime
  | claudeCodeLocal
  deriving DecidableEq

inductive SourceAudienceKind where
  | workspace
  | member
  deriving DecidableEq

/-- `EVIDENCE_STATES`. -/
inductive EvidenceUnitState where
  | pending
  | settled
  | gap
  deriving DecidableEq

/-- What a record and a gap have in common. -/
structure EvidenceIdentity where
  producerKind : ProducerKind
  authorityId : Uuid
  nativeKey : String
  speakerAccountId : Uuid
  audienceKind : SourceAudienceKind
  audienceId : Option Uuid
  purpose : String
  recordedAt : ℕ

/-- `NewEvidence`. -/
structure NewEvidence extends EvidenceIdentity where
  rawText : String

/-- `NewGap`. -/
structure NewGap extends EvidenceIdentity where
  reason : String

/-- The columns of `evidence_unit_native_key`. -/
structure UnitKey where
  producerKind : ProducerKind
  authorityId : Uuid
  nativeKey : String
  deriving DecidableEq

def EvidenceIdentity.key (record : EvidenceIdentity) : UnitKey :=
  ⟨record.producerKind, record.authorityId, record.nativeKey⟩

/-- A row of `evidence_unit`. -/
structure EvidenceUnit where
  id : Uuid
  speakerAccountId : Uuid
  audienceKind : SourceAudienceKind
  audienceId : Option Uuid
  purpose : String
  sourceRecordedAt : ℕ
  sourceExpiresAt : ℕ
  body : Option String
  state : EvidenceUnitState
  outcome : Option String
  createdAt : ℕ
  settledAt : Option ℕ

/-- The rows, the subjects of the recorded events, and the next identifier that is drawn. -/
structure EvidenceTables where
  units : Table UnitKey EvidenceUnit
  recorded : List Uuid
  nextId : Uuid

/-- The settings of an attempt. -/
structure RecordSettings where
  maxBytes : ℕ
  maxRecords : ℕ
  pendingFor : ℕ

/-- `_insert`: a key that is held stays as it is. -/
def insertUnit (t : EvidenceTables) (record : EvidenceIdentity) (expiresAt now : ℕ)
    (body : Option String) (state : EvidenceUnitState) (outcome : Option String)
    (settledAt : Option ℕ) : Option Uuid × EvidenceTables :=
  if (t.units.lookup record.key).isSome then (none, { t with nextId := t.nextId + 1 })
  else
    let row : EvidenceUnit :=
      { id := t.nextId, speakerAccountId := record.speakerAccountId,
        audienceKind := record.audienceKind, audienceId := record.audienceId,
        purpose := record.purpose, sourceRecordedAt := record.recordedAt,
        sourceExpiresAt := expiresAt, body, state, outcome, createdAt := now, settledAt }
    (some t.nextId, { t with units := t.units.insert record.key row, nextId := t.nextId + 1 })

/-- `RecordAttempt`. -/
structure RecordAttempt where
  accepted : List String
  deferred : List String
  gapped : List String
  dropped : List String

/-- The variables of the loop. -/
structure Recording where
  tables : EvidenceTables
  attempt : RecordAttempt
  firstInserted : Option Uuid
  admitted : ℕ
  admittedBytes : ℕ

namespace Recording

/-- The record is left to a later attempt, and so is every one behind it. -/
def defer (r : Recording) (nativeKey : String) : Recording :=
  { r with attempt := { r.attempt with deferred := r.attempt.deferred ++ [nativeKey] } }

/-- Nothing of the record may be stored. -/
def drop (r : Recording) (nativeKey : String) : Recording :=
  { r with attempt := { r.attempt with dropped := r.attempt.dropped ++ [nativeKey] } }

/-- The record is held as a gap, since its text alone is over the budget. -/
def oversize (r : Recording) (settings : RecordSettings) (now : ℕ) (record : NewEvidence) :
    Recording :=
  let inserted := insertUnit r.tables record.toEvidenceIdentity
    (record.recordedAt + settings.pendingFor) now none .gap (some "oversize") (some now)
  { r with
    tables := inserted.2
    attempt := { r.attempt with gapped := r.attempt.gapped ++ [record.nativeKey] }
    firstInserted := r.firstInserted.or inserted.1
    admitted := r.admitted + 1 }

/-- The record is held with its text. -/
def accept (r : Recording) (settings : RecordSettings) (now : ℕ) (record : NewEvidence)
    (body : String) : Recording :=
  let inserted := insertUnit r.tables record.toEvidenceIdentity
    (record.recordedAt + settings.pendingFor) now (some body) .pending none none
  { tables := inserted.2
    attempt := { r.attempt with accepted := r.attempt.accepted ++ [record.nativeKey] }
    firstInserted := r.firstInserted.or inserted.1
    admitted := r.admitted + 1
    admittedBytes := r.admittedBytes + body.utf8ByteSize }

variable (sanitize : String → Option String) (settings : RecordSettings) (now : ℕ)

/-- The body of the loop. -/
def step (r : Recording) (record : NewEvidence) : Recording :=
  if r.attempt.deferred.isEmpty then
    match sanitize record.rawText with
    | none => r.drop record.nativeKey
    | some body =>
      if settings.maxRecords < r.admitted + 1 then r.defer record.nativeKey
      else if settings.maxBytes < body.utf8ByteSize then r.oversize settings now record
      else if settings.maxBytes < r.admittedBytes + body.utf8ByteSize then r.defer record.nativeKey
      else r.accept settings now record body
  else r.defer record.nativeKey

end Recording

/-- `_check_bound_to_context`. -/
def boundToContext (account : Option Uuid) (purpose : Option String) (record : EvidenceIdentity) :
    Bool :=
  decide (account = some record.speakerAccountId) && decide (purpose = some record.purpose)

section Ingest

variable (sanitize : String → Option String) (settings : RecordSettings) (now : ℕ)

/-- `record_evidence`, which raises on a record that is not the context's. -/
def recordEvidence (account : Option Uuid) (purpose : Option String) (records : List NewEvidence)
    (t : EvidenceTables) : Option (RecordAttempt × EvidenceTables) :=
  if records.all fun record => boundToContext account purpose record.toEvidenceIdentity then
    let r := records.foldl (Recording.step sanitize settings now) ⟨t, ⟨[], [], [], []⟩, none, 0, 0⟩
    let recorded := r.tables.recorded ++ r.firstInserted.toList
    some (r.attempt, { r.tables with recorded })
  else none

/-- `record_gaps`, which raises on a gap that is not the context's. -/
def recordGaps (account : Option Uuid) (purpose : Option String) (gaps : List NewGap)
    (t : EvidenceTables) : Option (List String × EvidenceTables) :=
  if gaps.all fun gap => boundToContext account purpose gap.toEvidenceIdentity then
    some (gaps.map fun gap => gap.nativeKey, gaps.foldl (fun t gap =>
      (insertUnit t gap.toEvidenceIdentity (gap.recordedAt + settings.pendingFor) now none .gap
        (some gap.reason) (some now)).2) t)
  else none

/-- `IngestRecord`. -/
structure IngestRecord where
  nativeKey : String
  recordedAt : ℕ
  text : String

/-- `IngestGap`. -/
structure IngestGap where
  nativeKey : String
  reason : String
  recordedAt : ℕ

/-- A record as the enrollment's own, its clock not ahead of the server's. -/
def IngestRecord.evidence (enrollment : Uuid × EnrollmentRow) (record : IngestRecord) :
    NewEvidence :=
  { producerKind := .claudeCodeLocal, authorityId := enrollment.1, nativeKey := record.nativeKey,
    speakerAccountId := enrollment.2.accountId, audienceKind := .member,
    audienceId := some enrollment.2.accountId, purpose := enrollment.2.purpose,
    recordedAt := min record.recordedAt now, rawText := record.text }

/-- A gap as the enrollment's own, its clock not ahead of the server's. -/
def IngestGap.gap (enrollment : Uuid × EnrollmentRow) (gap : IngestGap) : NewGap :=
  { producerKind := .claudeCodeLocal, authorityId := enrollment.1, nativeKey := gap.nativeKey,
    speakerAccountId := enrollment.2.accountId, audienceKind := .member,
    audienceId := some enrollment.2.accountId, purpose := enrollment.2.purpose,
    recordedAt := min gap.recordedAt now, reason := gap.reason }

/-- `ingest_handler`, with the enrollment that `_active_enrollment` reads and the answer of
`recording_allowed`. A refusal, or what raises, gives an error. -/
def ingest (call : IngestCall) (enrollment : Option (Uuid × EnrollmentRow)) (allowed : Bool)
    (records : List IngestRecord) (gaps : List IngestGap) (t : EvidenceTables) :
    Except String (RecordAttempt × EvidenceTables) :=
  match enrollment with
  | none => .error "enrollment_inactive"
  | some enrollment =>
    if !call.fits enrollment.2 then .error "enrollment_mismatch"
    else if !allowed then
      let keys := records.map IngestRecord.nativeKey ++ gaps.map IngestGap.nativeKey
      .ok (⟨[], keys, [], []⟩, t)
    else
      let purpose := call.token.boundPurpose.map ContextPurpose.value
      match recordGaps settings now (some call.token.accountId) purpose
          (gaps.map (IngestGap.gap now enrollment)) t with
      | none => .error "ValueError"
      | some (heldGaps, t) =>
        match recordEvidence sanitize settings now (some call.token.accountId) purpose
            (records.map (IngestRecord.evidence now enrollment)) t with
        | none => .error "ValueError"
        | some (attempt, t) => .ok ({ attempt with gapped := attempt.gapped ++ heldGaps }, t)

end Ingest

end Rheostream.Evidence
