import Rheostream.Operations.Idempotency
import Rheostream.Operations.Records
import Rheostream.Work.Jobs

/-!
# The rows of a held call

A call of an upper class is held: an approval with its payload, and the operation record that waits
for it. A keyed external call has three more rows: the staged action, the reservation of its key,
and, once it is approved, one continuation job. Here are the rows and their predicated writes.
-/

namespace Rheostream.Approvals

/-! ### The approval -/

/-- The members of the `approval_state` check constraint. -/
inductive ApprovalState where
  | pending
  | approved
  | executed
  | refused
  | expired
  | invalidated
  | requiresReapproval
  deriving DecidableEq

/-- A row of `core.approval`. -/
structure ApprovalRow where
  operationName : String
  operationId : Uuid
  destinationRef : Option RefText
  subjectRef : Option RefText
  subjectRevision : Option ℕ
  payloadDigest : ByteArray
  windowStart : ℕ
  windowEnd : ℕ
  state : ApprovalState
  approvedAt : Option ℕ
  executedAt : Option ℕ

namespace ApprovalRow

/-- `mark_approved`: a restored approval has its window reopened in the same write. -/
def markApproved (now : ℕ) (reopenedUntil : Option ℕ) : RowUpdate ApprovalRow where
  guard row := match reopenedUntil with
    | none => row.state = .pending
    | some _ => row.state = .requiresReapproval
  set row := match reopenedUntil with
    | none => { row with state := .approved, approvedAt := some now }
    | some until_ => { row with
        state := .approved
        approvedAt := some now
        windowStart := now
        windowEnd := until_ }

/-- `mark_refused`. -/
def markRefused : RowUpdate ApprovalRow where
  guard row := row.state = .pending || row.state = .requiresReapproval
  set row := { row with state := .refused }

/-- `mark_guard_refused`. -/
def markGuardRefused : RowUpdate ApprovalRow where
  guard row := row.state = .approved
  set row := { row with state := .refused }

/-- `mark_executed`. -/
def markExecuted (now : ℕ) : RowUpdate ApprovalRow where
  guard row := row.state = .approved
  set row := { row with state := .executed, executedAt := some now }

/-- What `erase_dependents` does to an approval that names the erased record. -/
def invalidate : RowUpdate ApprovalRow where
  guard row := row.state = .pending || row.state = .approved || row.state = .requiresReapproval
  set row := { row with state := .invalidated }

end ApprovalRow

/-! ### The external action -/

/-- The members of the `external_action_state` check constraint. -/
inductive ActionState where
  | pending
  | executing
  | succeeded
  | failed
  | refused
  | unresolved
  | cancelled
  deriving DecidableEq

/-- `OPEN_STATES`. -/
def ActionState.isOpen : ActionState → Bool
  | .pending | .executing => true
  | _ => false

/-- `ExternalFailureClass`. -/
inductive FailureClass where
  | destinationUnavailableNoEffect
  | permanentRefusalNoEffect
  | retryableNoEffect
  | outcomeUnknown
  | cancelledNoEffect
  deriving DecidableEq

/-- A row of `core.external_action`. -/
structure ExternalActionRow where
  operationId : Uuid
  approvalId : Uuid
  operationName : String
  destinationRef : RefText
  approvalPayloadDigest : ByteArray
  requestSchemaVersion : ℕ
  resultSchemaVersion : ℕ
  executionJobId : Option Uuid
  state : ActionState
  providerRequestId : Option String
  failureClass : Option FailureClass
  attempts : ℕ
  resultRef : Option String
  errorCode : Option String
  errorDetail : Option String
  terminalAt : Option ℕ

/-- `_short`. -/
def short (text : String) : String := String.ofList (text.toList.take 2000)

namespace ExternalActionRow

/-- `attach_job`. -/
def attachJob (jobId : Uuid) : RowUpdate ExternalActionRow where
  guard row := row.state = .pending && row.executionJobId.isNone
  set row := { row with executionJobId := some jobId }

/-- `_action_terminal`. -/
def settled (state : ActionState) (failureClass : FailureClass) (code detail : String)
    (now : ℕ) : RowUpdate ExternalActionRow where
  guard row := row.state.isOpen
  set row := { row with
    state := state
    failureClass := some failureClass
    errorCode := some code
    errorDetail := some (short detail)
    terminalAt := some now }

/-- The write of `_settle_success`. -/
def succeeded (resultRef : String) (now : ℕ) : RowUpdate ExternalActionRow where
  guard row := row.state.isOpen
  set row := { row with
    state := .succeeded
    resultRef := some resultRef
    failureClass := none
    errorCode := none
    errorDetail := none
    terminalAt := some now }

/-- The retryable error of `_classified`. -/
def retried (code detail : String) : RowUpdate ExternalActionRow where
  guard row := row.state.isOpen
  set row := { row with errorCode := some code, errorDetail := some (short detail) }

/-- The marker before the effect. -/
def executing (providerRequestId : Option String) : RowUpdate ExternalActionRow where
  guard row := row.state.isOpen
  set row := { row with
    state := .executing
    attempts := row.attempts + 1
    providerRequestId := providerRequestId }

/-- The request that `_prior_effect` asks about. -/
def asked (requestId : String) : RowUpdate ExternalActionRow where
  guard row := row.state.isOpen
  set row := { row with providerRequestId := some requestId }

/-- The write of `resolve_external`. -/
def resolved (outcome : ActionState) (resultRef errorCode errorDetail : Option String)
    (now : ℕ) : RowUpdate ExternalActionRow where
  guard row := row.state = .unresolved
  set row := { row with
    state := outcome
    resultRef := if outcome = .succeeded then resultRef else row.resultRef
    failureClass := if outcome = .succeeded then none else row.failureClass
    errorCode := errorCode
    errorDetail := errorDetail
    terminalAt := some now }

end ExternalActionRow

/-- The write of `erase_dependents` to a record that has not ended. -/
def cancelErased (now : ℕ) : RowUpdate OperationRow where
  guard row := row.isOpen || row.isHeld
  set row := { row with
    state := .cancelled
    terminalAt := some now
    errorCode := some "source_deleted"
    errorText := some "Source record erased" }

/-- The write of `_envelope_from_unresolved`. -/
def envelopeResolved (state : IdempotencyState) (result : Option Json)
    (resultSchemaVersion : Option ℕ) (errorCode errorDetail : Option String) :
    RowUpdate IdempotencyRow where
  guard row := row.state = .unresolved
  set row := { row with
    state := state
    result := if state = .succeeded then result else row.result
    resultSchemaVersion :=
      if state = .succeeded then resultSchemaVersion else row.resultSchemaVersion
    errorCode := errorCode
    errorDetail := errorDetail }

/-! ### The rows together -/

/-- The identifiers under which the rows of a call are stored. -/
structure CallIds where
  approval : Uuid
  operation : Uuid
  action : Uuid

/-- An effect that took place: the payload it ran with, where it went, what it ended with and
when. -/
structure Effect (Output : Type) where
  payload : Json
  destination : Option RefText
  output : Output
  at_ : ℕ

/-- The rows of one held call, and the effects that committed with them. -/
structure HeldCall (Output : Type) where
  ids : CallIds
  approval : ApprovalRow
  /-- The snapshot of `core.approval_payload`. -/
  payload : Option Json
  operation : OperationRow
  /-- The staged action, for a keyed external call. -/
  action : Option ExternalActionRow
  /-- The reservation of its key. -/
  envelope : Option IdempotencyRow
  /-- The continuation job, under its identifier. -/
  job : Option (Uuid × JobRow)
  effects : List (Effect Output)

namespace HeldCall

variable {Output : Type}

def updateApproval (u : RowUpdate ApprovalRow) (s : HeldCall Output) : Option (HeldCall Output) :=
  (u.apply s.approval).map fun row => { s with approval := row }

def updateOperation (u : RowUpdate OperationRow) (s : HeldCall Output) :
    Option (HeldCall Output) :=
  (u.apply s.operation).map fun row => { s with operation := row }

def updateAction (u : RowUpdate ExternalActionRow) (s : HeldCall Output) :
    Option (HeldCall Output) :=
  (s.action.bind u.apply).map fun row => { s with action := some row }

def updateEnvelope (u : RowUpdate IdempotencyRow) (s : HeldCall Output) :
    Option (HeldCall Output) :=
  (s.envelope.bind u.apply).map fun row => { s with envelope := some row }

/-- A write to the job of one identifier. -/
def updateJob (id : Uuid) (u : RowUpdate JobRow) (s : HeldCall Output) :
    Option (HeldCall Output) :=
  match s.job with
  | none => none
  | some (jobId, row) =>
    if jobId = id then (u.apply row).map fun row' => { s with job := some (jobId, row') } else none

end HeldCall

end Rheostream.Approvals
