import Rheostream.Foundation.Keyset
import Rheostream.Foundation.Machine
import Rheostream.Foundation.PyText
import Rheostream.Foundation.Table
import Rheostream.Foundation.Values

/-!
# The projection of Current's source link

`current_links.py`, with the part of `handoff_routing.py` that it calls and the operations
that write a handoff. Leads keeps a copy of the link that Current holds for a handoff. An
event brings a new revision of the link, and a repair job goes over the handoffs with two
scans: one copies core's outcome of an attempt, the other the link of a finished handoff.
Every writer holds the workspace lifecycle lock, so each transaction is one step.
-/

namespace Rheostream.Leads

/-- `HANDOFF_STATES`. -/
inductive HandoffState where
  | unavailable
  | pending
  | succeeded
  | failed
  | refused
  | cancelled
  | unresolved
  deriving DecidableEq

inductive ProjectState where
  | neverAssigned
  | linked
  | cleared
  | deleted
  deriving DecidableEq

/-- The states of an external action of core. -/
inductive ActionState where
  | pending
  | executing
  | succeeded
  | failed
  | refused
  | cancelled
  | unresolved
  deriving DecidableEq

/-- A row of `handoff`. -/
structure Handoff where
  opportunityId : Uuid
  destinationRef : Option String
  idempotencyKey : String
  snapshotDigest : String
  state : HandoffState
  resultRef : Option String
  resultDetail : Option String
  approvalId : Option Uuid
  externalActionId : Option Uuid
  requestedAt : ℕ
  resolvedAt : Option ℕ
  attemptCount : ℕ
  currentProjectRef : Option String
  lastCurrentProjectRef : Option String
  currentProjectState : ProjectState
  currentLinkRevision : Option ℕ
  deriving DecidableEq

/-- The published record of an external action. A succeeded action has a result. -/
structure ActionRecord where
  state : ActionState
  failureClass : Option String
  errorCode : Option String
  resultRef : Option String
  terminalAt : Option ℕ
  restageEligible : Bool
  hasResult : state = .succeeded → resultRef.isSome = true

/-- What a read in the job's transaction gives: a refusal, or an answer. -/
inductive ReadAnswer (α : Type) where
  | refused (state : String)
  | answered (value : α)

/-- The fields of a link as they arrive. Current keeps the revision in an integer column. -/
structure RawLink where
  sourceRef : RefText
  itemRef : String
  projectRef : Option String
  lastProjectRef : Option String
  itemState : String
  projectState : String
  revision : ℤ
  revision_le : revision ≤ 2147483647

/-- The four facts that a handoff keeps of its link. -/
structure LinkProjection where
  projectRef : Option String
  lastProjectRef : Option String
  projectState : ProjectState
  revision : ℕ
  deriving DecidableEq

/-- The shape of a project: a live project exactly when it is linked, a history when it was
cleared or deleted, and none when it was never assigned. -/
structure LinkProjection.Shaped (p : LinkProjection) : Prop where
  live : p.projectState = .linked ↔ p.projectRef.isSome = true
  never : p.projectState = .neverAssigned → p.lastProjectRef = none
  history : p.projectState = .cleared ∨ p.projectState = .deleted → p.lastProjectRef.isSome = true
  revision_pos : 1 ≤ p.revision

/-- `CurrentLink`: a link that passed the validation. -/
structure CurrentLink where
  sourceRef : RefText
  itemRef : String
  projection : LinkProjection
  shaped : projection.Shaped

/-- An event as the consumer receives it. Data that does not have the fields of a link is
none. -/
structure LinkEvent where
  type : String
  schemaVersion : ℤ
  source : String
  data : Option RawLink

/-- The reference of a handoff. -/
def handoffRef (id : Uuid) : RefText := .ref ⟨"leads", "handoff", id⟩

/-- The project states by their names. -/
def projectStateOf : String → Option ProjectState
  | "never_assigned" => some .neverAssigned
  | "linked" => some .linked
  | "cleared" => some .cleared
  | "deleted" => some .deleted
  | _ => none

/-- `project_shape`. -/
def projectShape (p : LinkProjection) : Bool :=
  (if p.projectState = .linked then p.projectRef.isSome else p.projectRef.isNone) &&
    (if p.projectState = .neverAssigned then p.lastProjectRef.isNone
      else if p.projectState = .cleared || p.projectState = .deleted then p.lastProjectRef.isSome
      else true)

theorem shaped_of_projectShape {p : LinkProjection} (h : projectShape p = true)
    (hpos : 1 ≤ p.revision) : p.Shaped := by
  obtain ⟨project, last, state, revision⟩ := p
  cases state <;> cases project <;> cases last <;> simp [projectShape] at h <;>
    constructor <;> simp_all

/-- The facts of a link whose project state is known. A negative revision reads as zero,
which no link has. -/
def RawLink.projection (raw : RawLink) : Option LinkProjection :=
  (projectStateOf raw.projectState).map fun state =>
    ⟨raw.projectRef, raw.lastProjectRef, state, raw.revision.toNat⟩

/-- `CurrentLink.model_validate`. -/
def RawLink.validate (raw : RawLink) : Option CurrentLink :=
  if raw.itemState = "available" ∨ raw.itemState = "deleted" then
    match raw.projection with
    | none => none
    | some p =>
      if h : 1 ≤ p.revision ∧ projectShape p = true then
        some ⟨raw.sourceRef, raw.itemRef, p, shaped_of_projectShape h.2 h.1⟩
      else none
  else none

/-- `_handoff_id`. -/
def handoffId (sourceRef : RefText) : Option Uuid :=
  match sourceRef.parse with
  | some r => if r.moduleId = "leads" ∧ r.recordType = "handoff" then some r.id else none
  | none => none

/-- `is_newer`. -/
def isNewer (stored : Option ℕ) (incoming : ℕ) : Bool :=
  match stored with
  | none => true
  | some revision => revision < incoming

/-- `CORE_STATES`. -/
def coreState : ActionState → HandoffState
  | .pending => .pending
  | .executing => .pending
  | .succeeded => .succeeded
  | .failed => .failed
  | .refused => .refused
  | .cancelled => .cancelled
  | .unresolved => .unresolved

/-- `ACTION_ABSENT_DETAILS`. -/
def actionAbsentDetails : List String := ["restored_unresolved", "external_action_missing"]

namespace Handoff

/-- The key that the repair scans order by. -/
def scanKey (id : Uuid) (row : Handoff) : ℕ ×ₗ Uuid := toLex (row.requestedAt, id)

/-- `NONTERMINAL_SCAN`. -/
def isNonterminal (row : Handoff) : Bool :=
  row.state = .pending || (row.state = .unresolved && row.externalActionId.isSome &&
    !actionAbsentDetails.contains (row.resultDetail.getD ""))

def isSucceeded (row : Handoff) : Bool := row.state = .succeeded

/-- What the row keeps of its link. -/
def projection (row : Handoff) : Option LinkProjection :=
  row.currentLinkRevision.map fun revision =>
    ⟨row.currentProjectRef, row.lastCurrentProjectRef, row.currentProjectState, revision⟩

/-- The check constraints of the table. -/
structure Checked (row : Handoff) : Prop where
  attempts : row.attemptCount = 0 ↔ row.externalActionId = none
  pendingStaged : row.state = .pending → row.externalActionId.isSome = true
  successResult : row.state = .succeeded → row.resultRef.isSome = true
  projectLive : row.currentProjectState = .linked ↔ row.currentProjectRef.isSome = true
  projectHistory : row.currentProjectState = .cleared ∨ row.currentProjectState = .deleted →
    row.lastCurrentProjectRef.isSome = true
  linkRevision : ∀ revision, row.currentLinkRevision = some revision → 1 ≤ revision
  linkProjection : row.currentLinkRevision = none →
    row.currentProjectState = .neverAssigned ∧ row.lastCurrentProjectRef = none

end Handoff

/-- `ActionRead`. -/
structure ActionRead where
  record : Option ActionRecord
  missing : Bool

/-- `read_action`: a refusal is caught, and says whether the action is known to be absent. -/
def readAction : ReadAnswer ActionRecord → ActionRead
  | .refused state => ⟨none, state = "not_found"⟩
  | .answered record => ⟨some record, false⟩

/-- `read_link`: a refusal and an answer that is no link give none. -/
def readLink : ReadAnswer RawLink → Option CurrentLink
  | .refused _ => none
  | .answered raw => raw.validate

/-- The detail that a settled action leaves: none for a success, the error code of a person's
resolution, or the class of the failure. -/
def resultDetailOf (record : ActionRecord) : Option String :=
  if record.state = .succeeded then none
  else if record.errorCode.any fun code => pyStartsWith "resolved_" code then record.errorCode
  else if record.failureClass.any fun failure => failure ≠ "" then record.failureClass
  else record.errorCode

/-- `outcome_values`, as the row with the values written. -/
def outcomeValues (row : Handoff) (read : ActionRead) (now : ℕ) : Handoff :=
  match read.record with
  | none =>
    if read.missing then
      if row.state = .pending then
        { row with
          state := .unresolved
          resultRef := none
          resultDetail := some "external_action_missing"
          resolvedAt := some now }
      else if row.state = .unresolved &&
          !(row.resultDetail.any fun detail => actionAbsentDetails.contains detail) then
        { row with resultDetail := some "external_action_missing" }
      else row
    else row
  | some record =>
    if coreState record.state = .pending then { row with state := .pending }
    else { row with
      state := coreState record.state
      resultRef := if record.state = .succeeded then record.resultRef else none
      resultDetail := resultDetailOf record
      resolvedAt := record.terminalAt }

/-- The read of the latest attempt: none when no attempt was staged. -/
def Handoff.latestRead (row : Handoff) (answer : ReadAnswer ActionRecord) : Option ActionRead :=
  if row.externalActionId.isNone then none else some (readAction answer)

/-- The row with the outcome of its latest attempt copied. -/
def Handoff.copied (row : Handoff) (read : Option ActionRead) (now : ℕ) : Handoff :=
  match read with
  | none => row
  | some read => outcomeValues row read now

/-- `restage_allowed`. -/
def restageAllowed (row : Handoff) : Bool :=
  if row.destinationRef ≠ some "current" then false
  else if row.state = .unavailable then row.resultDetail = some "destination_unavailable"
  else if row.state = .refused then row.resultDetail = some "destination_unavailable_no_effect"
  else row.state = .failed

/-- `may_restage`. -/
def mayRestage (row : Handoff) (read : Option ActionRead) : Bool :=
  if row.destinationRef ≠ some "current" then false
  else match read.bind ActionRead.record with
    | some record => record.restageEligible
    | none => restageAllowed row

/-- What core holds for approval when an attempt is staged. -/
structure StagedAttempt where
  approvalId : Uuid
  actionId : Uuid
  state : ActionState

/-- The values that `stage` gives a handoff. A key that core answers with a success carries no
result here, so the check of the table refuses the row. -/
def stage (row : Handoff) (attempt : ℕ) (staged : StagedAttempt) : Except String Handoff :=
  if coreState staged.state = .succeeded then .error "handoff_success_result"
  else .ok { row with
    state := coreState staged.state
    attemptCount := attempt
    approvalId := some staged.approvalId
    externalActionId := some staged.actionId
    resultRef := none
    resultDetail := none
    resolvedAt := none }

/-- The two scans of the repair job. -/
inductive ScanKind where
  | nonterminal
  | succeeded
  deriving DecidableEq

/-- A row of `current_link_cursor`. -/
structure LinkCursor where
  after : Option (ℕ ×ₗ Uuid)
  cycles : ℕ
  updatedAt : ℕ

structure LinkState where
  handoffs : Table Uuid Handoff
  cursors : Table ScanKind LinkCursor
  /-- The links applied to each handoff so far, in order: those for its item. -/
  applied : Uuid → List LinkProjection
  /-- The pages that each scan has read, the newest first. -/
  pages : ScanKind → List (ScanPage (ℕ ×ₗ Uuid))
  /-- The keys of every handoff there has been. -/
  made : Finset (ℕ ×ₗ Uuid)

/-- `ScanReport`. -/
structure ScanReport where
  examined : ℕ
  updated : ℕ
  unavailable : ℕ
  wrapped : Bool

/-- What an examination comes to: the state it leaves, whether its row moved and how many of
its reads gave nothing. -/
structure Examination where
  state : LinkState
  moved : Bool
  unavailable : ℕ

/-- What the job's reads answer: an action by its identifier, and the link of a handoff in
each of the two scans. -/
structure RepairAnswers where
  action : Uuid → ReadAnswer ActionRecord
  settledLink : Uuid → ReadAnswer RawLink
  link : Uuid → ReadAnswer RawLink

namespace Handoff

/-- A link is for the item of the handoff, or the handoff has no item yet. -/
def isForItem (row : Handoff) (link : CurrentLink) : Bool :=
  row.resultRef.isNone || row.resultRef = some link.itemRef

/-- The columns that a newer link writes. -/
def withLink (row : Handoff) (p : LinkProjection) : Handoff :=
  { row with
    currentProjectRef := p.projectRef
    lastCurrentProjectRef := p.lastProjectRef
    currentProjectState := p.projectState
    currentLinkRevision := some p.revision }

end Handoff

/-- The update that a link is written by: of its item's handoff, when it is newer. -/
def linkUpdate (link : CurrentLink) : RowUpdate Handoff where
  guard row := row.isForItem link && isNewer row.currentLinkRevision link.projection.revision
  set row := row.withLink link.projection

namespace LinkState

/-- `write`. -/
def writeHandoff (s : LinkState) (id : Uuid) (row : Handoff) : LinkState :=
  { s with handoffs := s.handoffs.updateIf id ⟨fun _ => true, fun _ => row⟩ }

/-- `apply_link` on the handoff that the link names, and whether it moved. The revision is
compared in the write itself. -/
def applyTo (s : LinkState) (id : Uuid) (link : CurrentLink) : LinkState × Bool :=
  ({ s with
    handoffs := s.handoffs.updateIf id (linkUpdate link)
    applied := if (s.handoffs.lookup id).any fun row => row.isForItem link then
        Function.update s.applied id (s.applied id ++ [link.projection])
      else s.applied },
    (s.handoffs.updateRow id (linkUpdate link)).isSome)

/-- `apply_link`. -/
def applyLink (s : LinkState) (link : CurrentLink) : LinkState × Bool :=
  match handoffId link.sourceRef with
  | none => (s, false)
  | some id => s.applyTo id link

/-- `on_link_changed`. -/
def onLinkChanged (s : LinkState) (e : LinkEvent) : LinkState :=
  if e.type ≠ "current.source_item_link.changed" ∨ e.schemaVersion ≠ 1 ∨
      e.source ≠ "urn:rheo:module:current" then s
  else match e.data.bind RawLink.validate with
    | none => s
    | some link => (s.applyLink link).1

/-- `_relink`, on the row as it was loaded. -/
def relink (s : LinkState) (id : Uuid) (row : Handoff) (answer : ReadAnswer RawLink) :
    Examination :=
  match readLink answer with
  | none => ⟨s, false, 1⟩
  | some link =>
    if link.sourceRef ≠ handoffRef id ∨ some link.itemRef ≠ row.resultRef then ⟨s, false, 1⟩
    else if isNewer row.currentLinkRevision link.projection.revision then
      ⟨(s.applyLink link).1, (s.applyLink link).2, 0⟩
    else ⟨s, false, 0⟩

/-- `_settle`, on the row as it was loaded. -/
def settle (s : LinkState) (answers : RepairAnswers) (now : ℕ) (id : Uuid) (row : Handoff) :
    Examination :=
  match row.externalActionId with
  | none => ⟨s, false, 1⟩
  | some actionId =>
    let read := readAction (answers.action actionId)
    if read.record.isNone && !read.missing then ⟨s, false, 1⟩
    else
      let settled := outcomeValues row read now
      let written := s.writeHandoff id settled
      if settled.state = .succeeded && settled.resultRef.isSome then
        let linked := written.relink id settled (answers.settledLink id)
        ⟨linked.state, linked.moved || settled ≠ row, linked.unavailable⟩
      else ⟨written, settled ≠ row, 0⟩

/-- The rows of a page are examined one after the other, each as it was loaded. -/
def examineAll (examine : LinkState → Uuid → Handoff → Examination) :
    List (Uuid × Handoff) → LinkState × ScanReport → LinkState × ScanReport
  | [], done => done
  | (id, row) :: rest, (s, report) =>
    let examination := examine s id row
    examineAll examine rest (examination.state,
      { report with
        examined := report.examined + 1
        updated := report.updated + (if examination.moved then 1 else 0)
        unavailable := report.unavailable + examination.unavailable })

/-- The rows of a class. -/
def classOf (s : LinkState) (members : Handoff → Bool) : List (Uuid × Handoff) :=
  (s.handoffs.entries.map fun e => (e.1, e.2)).filter fun e => members e.2

/-- The cursor of a scan. A scan that never ran begins at the start. -/
def cursorOf (s : LinkState) (kind : ScanKind) (now : ℕ) : LinkCursor :=
  (s.cursors.lookup kind).getD ⟨none, 0, now⟩

/-- The page that a scan reads next. -/
def pageOf (s : LinkState) (kind : ScanKind) (members : Handoff → Bool) (size now : ℕ) :
    List (Uuid × Handoff) :=
  pageRows (fun e => Handoff.scanKey e.1 e.2) (s.cursorOf kind now).after size (s.classOf members)

/-- The cursor after a page: it wraps after a short page, and counts a cycle. -/
def nextCursor (cursor : LinkCursor) (rows : List (Uuid × Handoff)) (size now : ℕ) : LinkCursor :=
  if rows.length < size then ⟨none, cursor.cycles + 1, now⟩
  else ⟨rows.getLast?.map fun e => Handoff.scanKey e.1 e.2, cursor.cycles, now⟩

/-- `_scan`. -/
def scan (s : LinkState) (kind : ScanKind) (members : Handoff → Bool)
    (examine : LinkState → Uuid → Handoff → Examination) (size now : ℕ) :
    LinkState × ScanReport :=
  let cursor := s.cursorOf kind now
  let rows := s.pageOf kind members size now
  let read : LinkState := { s with
    pages := Function.update s.pages kind
      (ScanPage.ofRows (fun e => Handoff.scanKey e.1 e.2) cursor.after size (s.classOf members) ::
        s.pages kind) }
  let done := examineAll examine rows (read, ⟨0, 0, 0, rows.length < size⟩)
  ({ done.1 with cursors := done.1.cursors.insert kind (nextCursor cursor rows size now) }, done.2)

/-- The scan of `_settle`. -/
def settleScan (s : LinkState) (answers : RepairAnswers) (size now : ℕ) : LinkState × ScanReport :=
  s.scan .nonterminal Handoff.isNonterminal (fun s id row => s.settle answers now id row) size now

/-- The scan of `_relink`. -/
def relinkScan (s : LinkState) (answers : RepairAnswers) (size now : ℕ) : LinkState × ScanReport :=
  s.scan .succeeded Handoff.isSucceeded (fun s id row => s.relink id row (answers.link id)) size now

/-- `reconcile`: a page of each scan, the nonterminal one first. -/
def reconcile (s : LinkState) (answers : RepairAnswers) (size now : ℕ) :
    Except String (LinkState × ScanReport × ScanReport) :=
  if size < 1 then .error "page_size must be positive"
  else
    let settled := s.settleScan answers size now
    let linked := settled.1.relinkScan answers size now
    .ok (linked.1, settled.2, linked.2)

/-- `refresh`: the outcome of the latest attempt, as far as the caller may read it. -/
def refresh (s : LinkState) (id : Uuid) (row : Handoff) (answer : ReadAnswer ActionRecord)
    (now : ℕ) : LinkState :=
  match row.latestRead answer with
  | none => s
  | some read => s.writeHandoff id (outcomeValues row read now)

end LinkState

/-- A request for a handoff, with what staging its first attempt came to. -/
structure HandoffInput where
  opportunityId : Uuid
  destinationRef : Option String
  idempotencyKey : String
  snapshotDigest : String
  staged : Option StagedAttempt

namespace LinkState

/-- The row that a request inserts. -/
def requestedRow (m : HandoffInput) (now : ℕ) : Handoff where
  opportunityId := m.opportunityId
  destinationRef := m.destinationRef
  idempotencyKey := m.idempotencyKey
  snapshotDigest := m.snapshotDigest
  state := .unavailable
  resultRef := none
  resultDetail := some (if m.destinationRef.isNone then "no_destination"
    else "destination_unavailable")
  approvalId := none
  externalActionId := none
  requestedAt := now
  resolvedAt := some now
  attemptCount := 0
  currentProjectRef := none
  lastCurrentProjectRef := none
  currentProjectState := .neverAssigned
  currentLinkRevision := none

/-- The first attempt of a request: only for Current, and only where it is available. -/
def firstAttempt (row : Handoff) (m : HandoffInput) : Except String Handoff :=
  match m.staged with
  | some attempt => if m.destinationRef = some "current" then stage row 1 attempt else .ok row
  | none => .ok row

/-- `handoff`: the same request again is answered by its handoff, refreshed. -/
def handoff (s : LinkState) (id : Uuid) (m : HandoffInput) (answer : ReadAnswer ActionRecord)
    (now : ℕ) : Except String LinkState :=
  match s.handoffs.findRow fun _ row =>
      row.opportunityId = m.opportunityId && row.idempotencyKey = m.idempotencyKey with
  | some (existing, row) =>
    if row.snapshotDigest ≠ m.snapshotDigest then .error "idempotency_key_reused"
    else .ok (s.refresh existing row answer now)
  | none =>
    match firstAttempt (requestedRow m now) m with
    | .error refusal => .error refusal
    | .ok row => .ok { s with
        handoffs := s.handoffs.insert id row
        applied := Function.update s.applied id []
        made := insert (row.scanKey id) s.made }

/-- `handoff_restage`. -/
def handoffRestage (s : LinkState) (id : Uuid) (attemptCount : ℕ) (answer : ReadAnswer ActionRecord)
    (staged : Option StagedAttempt) (now : ℕ) : Except String LinkState :=
  match s.handoffs.lookup id with
  | none => .error "not_found"
  | some row =>
    if row.attemptCount = attemptCount + 1 then .ok (s.refresh id row answer now)
    else if row.attemptCount ≠ attemptCount then .error "record_stale"
    else
      let read := row.latestRead answer
      let settled := row.copied read now
      if !mayRestage settled read then .error "handoff_not_restageable"
      else match staged with
        | none => .error "destination_unavailable"
        | some attempt =>
          (stage settled (settled.attemptCount + 1) attempt).map fun next => s.writeHandoff id next

/-- The part of `on_observation_deleted` that reaches handoffs. -/
def eraseDerived (s : LinkState) (affected : List Uuid) : LinkState :=
  { s with handoffs := s.handoffs.deleteWhere fun _ row => affected.contains row.opportunityId }

end LinkState

inductive LinkAction where
  | handoff (id : Uuid) (m : HandoffInput) (answer : ReadAnswer ActionRecord) (now : ℕ)
  | restage (id : Uuid) (attemptCount : ℕ) (answer : ReadAnswer ActionRecord)
      (staged : Option StagedAttempt) (now : ℕ)
  | erase (affected : List Uuid)
  | deliver (e : LinkEvent)
  | reconcile (answers : RepairAnswers) (size now : ℕ)

namespace LinkState

/-- One transaction. A handoff is made under an identifier that no handoff has. -/
def step (s : LinkState) : LinkAction → Option LinkState
  | .handoff id m answer now =>
    if (s.handoffs.lookup id).isSome then none else (s.handoff id m answer now).toOption
  | .restage id attemptCount answer staged now =>
    (s.handoffRestage id attemptCount answer staged now).toOption
  | .erase affected => some (s.eraseDerived affected)
  | .deliver e => some (s.onLinkChanged e)
  | .reconcile answers size now => (s.reconcile answers size now).toOption.map (·.1)

/-- A workspace begins empty, or restored: its rows pass the checks of the table, and the
scans have no cursor. -/
structure Begins (s : LinkState) : Prop where
  checked : ∀ id row, s.handoffs.lookup id = some row → row.Checked
  cursors : s.cursors = ∅
  applied : ∀ id, s.applied id = ((s.handoffs.lookup id).bind Handoff.projection).toList
  pages : ∀ kind, s.pages kind = []
  made : ∀ id row, s.handoffs.lookup id = some row → row.scanKey id ∈ s.made

/-- The handoffs of a workspace, with every writer and every order of them. -/
def machine : Machine LinkState LinkAction := ⟨Begins, step⟩

end LinkState

end Rheostream.Leads
