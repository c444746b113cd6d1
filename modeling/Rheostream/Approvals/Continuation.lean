import Rheostream.Approvals.Decisions
import Rheostream.Work.Loop

/-!
# The continuation of an approved external action

`operations/continuation.py`. A leased job continues the one action that it names: it proves first
what an earlier lease did, rechecks the call, invokes the registered destination at most once, and
settles the action, the approval, the operation and the reservation in one transaction. What a
provider did is not undone by a rollback, and what an in-process destination did is.
-/

namespace Rheostream.Approvals

variable {Input Output : Type}

attribute [local instance] bytesEq

/-! ### What a destination answers -/

/-- `ExternalDestinationError`. -/
structure DestinationError where
  failureClass : FailureClass
  code : String
  detail : String

/-- How a callback of a destination ends. -/
inductive DestinationAnswer (Output : Type) where
  | nothing
  | output (value : Output)
  /-- Something that is not the declared output. -/
  | invalid
  | error (error : DestinationError)
  | raised (exception : String)

def outcomeUnknown : String := "outcome_unknown"

def destinationFailed : String := "destination_failed"

def continuationCancelled : String := "continuation_cancelled"

def budgetExhausted : String := "retry_budget_exhausted"

/-- An outcome that a destination did not prove. -/
def unknownOutcome (detail : String) : DestinationError := ⟨.outcomeUnknown, outcomeUnknown, detail⟩

/-! ### Binding -/

/-- The payload of a job is exactly this action's identifier. -/
def namesAction (input : Json) (actionId : Uuid) : Bool :=
  match input with
  | .obj [(key, .str text)] => key = "external_action_id" && text = toString actionId
  | _ => false

/-- `_lock_and_bind`: the action, where all five rows name each other. -/
def lockAndBind (s : HeldCall Output) (jobId owner : Uuid) : Option ExternalActionRow :=
  match s.action, s.envelope, s.job with
  | some action, some envelope, some (id, job) =>
    if (action.state.isOpen ∧ action.executionJobId = some jobId) ∧
        (id = jobId ∧ job.kind = externalActionExecute ∧ job.isHeld owner ∧
          job.operationId = none ∧ namesAction job.input s.ids.action) ∧
        (s.approval.state = .approved ∧ s.approval.operationId = action.operationId ∧
          s.approval.operationName = action.operationName ∧
          s.approval.destinationRef = some action.destinationRef ∧
          s.approval.payloadDigest = action.approvalPayloadDigest) ∧
        (s.operation.name = action.operationName ∧
          s.operation.approvalId = some action.approvalId ∧ s.operation.state = .running) ∧
        envelope.state = .pending ∧ envelope.operationId = some action.operationId ∧
        envelope.requestSchemaVersion = action.requestSchemaVersion then
      some action
    else none
  | _, _, _ => none

/-- What a lease has in its hands while it continues an action. -/
structure Continuing (Input Output : Type) where
  deployment : Deployment Input Output
  declaration : Option (Declaration Input Output)
  input : Option Input
  action : ExternalActionRow
  approval : ApprovalRow
  lease : LeasedJob
  mode : ContinuationMode
  now : ℕ
  /-- What the destination answers when it is asked whether the effect landed. -/
  reconcile : DestinationAnswer Output

namespace Continuing

/-- The success audit row can be written. -/
def canAudit (c : Continuing Input Output) : Bool :=
  c.deployment.heldCaller.isNone && c.declaration.isSome && c.input.isSome &&
    c.deployment.hasAuditSink

def destination (c : Continuing Input Output) : Option Destination :=
  c.deployment.destination c.action.destinationRef

/-! ### Settlements -/

/-- The answer of a settlement. -/
def settled (disposition : ContinuationDisposition) (code detail : String) : ContinuationResult :=
  ⟨disposition, some (code ++ ": " ++ detail)⟩

/-- `_settle_success`. -/
def settleSuccess (c : Continuing Input Output) (output : Output) (check : TerminalCheckKind) :
    Handler (HeldCall Output) ContinuationResult := do
  let d ← Handler.found c.declaration "AssertionError"
  let external ← Handler.found d.external "AssertionError"
  let resultRef ← Handler.found
    ((external.resultRef output).filter fun text => !text.toList.all isSpace) "read a result ref"
  let spec ← Handler.found d.keyed "operation has no keyed declaration"
  let body ← Handler.found (d.result output).jsonb "DataError"
  must (HeldCall.updateEnvelope (IdempotencyRow.finishSuccess spec body))
    "pending keyed reservation was not advanced exactly once"
  must (HeldCall.updateAction (ExternalActionRow.succeeded resultRef c.now))
    "settle the action succeeded"
  must (HeldCall.updateApproval (ApprovalRow.markExecuted c.now)) "consume the approval"
  must (HeldCall.updateOperation (OperationRow.finishSucceeded c.now check c.now (some resultRef)))
    "end the operation succeeded"
  Handler.require (c.canAudit = true) "write the success audit row"
  pure ⟨.succeeded, none⟩

/-- `_settle_refused`. -/
def settleRefused (c : Continuing Input Output) (e : DestinationError) :
    Handler (HeldCall Output) ContinuationResult := do
  settle ⟨.refused, e.failureClass, ApprovalRow.markGuardRefused,
    OperationRow.finishFailed c.now e.code (short e.detail), .refused⟩ e.code e.detail c.now
  pure (settled .handledTerminal e.code e.detail)

/-- `_settle_failed`. -/
def settleFailed (c : Continuing Input Output) (code detail : String) :
    Handler (HeldCall Output) ContinuationResult := do
  settle ⟨.failed, .retryableNoEffect, ApprovalRow.markExecuted c.now,
    OperationRow.finishFailed c.now code (short detail), .failed⟩ code detail c.now
  pure (settled .failedTerminal code detail)

/-- `_settle_cancelled`. -/
def settleCancelled (c : Continuing Input Output) (code detail : String) :
    Handler (HeldCall Output) ContinuationResult := do
  settle ⟨.cancelled, .cancelledNoEffect, ApprovalRow.markGuardRefused,
    OperationRow.finishCancelled c.now, .cancelled⟩ code detail c.now
  pure (settled .cancelledTerminal code detail)

/-- `_settle_unresolved`. -/
def settleUnresolved (c : Continuing Input Output) (code detail : String) :
    Handler (HeldCall Output) ContinuationResult := do
  settle ⟨.unresolved, .outcomeUnknown, ApprovalRow.markExecuted c.now,
    OperationRow.markUnresolved c.now, .unresolved⟩ code detail c.now
  pure (settled .handledTerminal code detail)

/-- `_classified`. -/
def classified (c : Continuing Input Output) (e : DestinationError) :
    Handler (HeldCall Output) ContinuationResult :=
  match e.failureClass with
  | .destinationUnavailableNoEffect | .permanentRefusalNoEffect => c.settleRefused e
  | .cancelledNoEffect => c.settleCancelled e.code e.detail
  | .outcomeUnknown => c.settleUnresolved e.code e.detail
  | .retryableNoEffect =>
    if c.lease.attempts ≥ c.lease.maxAttempts then
      c.settleFailed budgetExhausted (e.code ++ ": " ++ e.detail)
    else do
      must (HeldCall.updateAction (ExternalActionRow.retried e.code e.detail))
        "record the retryable error"
      pure (settled .retry e.code e.detail)

/-! ### What an earlier lease did -/

/-- `_provider_request_id`. -/
def providerRequestId (actionId : Uuid) : String := "rheo-external-" ++ toString actionId

/-- `_reconcile`. -/
def reconciled (c : Continuing Input Output) (d : Destination) :
    Except DestinationError (Option Output) :=
  if d.reconciles = false ∨ c.deployment.heldCaller.isSome then
    .error (unknownOutcome "the destination cannot be reconciled")
  else
    match c.reconcile with
    | .nothing => .ok none
    | .output value =>
      if c.declaration.isSome then .ok (some value)
      else .error (unknownOutcome "reconcile returned no valid declared output")
    | .invalid => .error (unknownOutcome "reconcile returned no valid declared output")
    | .error e => .error e
    | .raised exception => .error (unknownOutcome exception)

/-- What `_prior_effect` returns: a settlement, or an absence with the error that proved it. -/
inductive Prior where
  | closed (result : ContinuationResult)
  | absent (error : Option DestinationError)

/-- `_prior_effect`. -/
def priorEffect (c : Continuing Input Output) (actionId : Uuid) :
    Handler (HeldCall Output) Prior :=
  match c.destination with
  | none => do
    let r ← c.settleUnresolved outcomeUnknown
      "the destination is no longer registered, so absence cannot be proven"
    pure (.closed r)
  | some d =>
    if d.mode = .provider then do
      must (HeldCall.updateAction (ExternalActionRow.asked
        ((c.action.providerRequestId.filter (· ≠ "")).getD (providerRequestId actionId))))
        "record the reconciled provider request id"
      match c.reconciled d with
      | .ok (some output) => do
        let r ← c.settleSuccess output .providerStatus
        pure (.closed r)
      | .ok none => pure (.absent none)
      | .error e =>
        if e.failureClass = .outcomeUnknown then do
          let r ← c.settleUnresolved e.code e.detail
          pure (.closed r)
        else pure (.absent (some e))
    else pure (.absent none)

/-- `_recover`. -/
def recover (c : Continuing Input Output) (actionId : Uuid) :
    Handler (HeldCall Output) ContinuationResult :=
  let cancelling := c.mode = .cancelRequested
  let code := if cancelling then continuationCancelled else budgetExhausted
  let detail :=
    if cancelling then "cancelled before any effect"
    else "retry budget exhausted with no effect"
  if cancelling ∧ c.lease.attempts = 0 then c.settleCancelled code detail
  else do
    match ← c.priorEffect actionId with
    | .closed r => pure r
    | .absent _ =>
      if cancelling then c.settleCancelled code detail else c.settleFailed code detail

/-! ### The effect -/

section Digest

variable (sha256 : ByteArray → ByteArray)

/-- The rechecks at the moment of the effect, in their order: what runs and where, or the
refusal. -/
def rechecked (c : Continuing Input Output) :
    Except DestinationError (Declaration Input Output × Input × Destination) :=
  match c.declaration with
  | none => .error ⟨.permanentRefusalNoEffect, operationUnknown, "is not registered"⟩
  | some d =>
    if d.keyed ≠ some ⟨c.action.requestSchemaVersion, c.action.resultSchemaVersion⟩ then
      .error ⟨.permanentRefusalNoEffect, idempotencySchemaIncompatible,
        "the declaration's keyed versions differ from the staged action's"⟩
    else
      match c.input with
      | none => .error ⟨.permanentRefusalNoEffect, invalidApproval,
          "the approved payload no longer validates"⟩
      | some input =>
        if payloadDigest sha256 (d.executablePayload input) ≠ c.action.approvalPayloadDigest then
          .error ⟨.permanentRefusalNoEffect, invalidApproval,
            "the approved payload digest differs"⟩
        else
          match c.deployment.heldCaller, c.deployment.authorized, c.deployment.moduleNotReady with
          | some state, _, _ => .error ⟨.permanentRefusalNoEffect, state, state⟩
          | none, some state, _ => .error ⟨.permanentRefusalNoEffect, state, state⟩
          | none, none, some text =>
            .error ⟨.destinationUnavailableNoEffect, "module_not_ready", text⟩
          | none, none, none =>
            match runGuards (effectiveGuardsFor c.deployment d c.approval input c.now) with
            | some refusal =>
              .error ⟨if refusal.guard = "DestinationGuard" then .destinationUnavailableNoEffect
                else .permanentRefusalNoEffect, guardRefused, refusal.text⟩
            | none =>
              match c.destination with
              | none => .error ⟨.destinationUnavailableNoEffect, guardRefused,
                  "DestinationGuard: destination unregistered"⟩
              | some destination => .ok (d, input, destination)

/-- Where a continuation stands when it reaches its destination: settled already, or about to
invoke it. -/
inductive Prepared (Input Output : Type) where
  | settled (result : ContinuationResult)
  | invoke (d : Declaration Input Output) (input : Input) (destination : Destination)

/-- `continue_approved_external_in_transaction`, from the recheck up to the invocation. -/
def start (c : Continuing Input Output) (actionId : Uuid) (prior : Option DestinationError) :
    Handler (HeldCall Output) (Prepared Input Output) :=
  match c.rechecked sha256 with
  | .error e => do
    let r ← c.settleRefused e
    pure (.settled r)
  | .ok (d, input, destination) => do
    let provider := destination.mode = .provider
    must (HeldCall.updateAction (ExternalActionRow.executing
      (if provider then some (providerRequestId actionId) else none))) "mark the action executing"
    if provider then
      -- A retried lease asked already, under the same row locks.
      let answer := if c.lease.attempts > 1 then
          match prior with
          | none => .ok none
          | some e => .error e
        else c.reconciled destination
      match answer with
      | .ok (some output) => do
        let r ← c.settleSuccess output .providerStatus
        pure (.settled r)
      | .error e => do
        let r ← c.classified e
        pure (.settled r)
      | .ok none => pure (.invoke d input destination)
    else pure (.invoke d input destination)

/-- `continue_approved_external_in_transaction`, up to the invocation. -/
def prepare (c : Continuing Input Output) (actionId : Uuid) :
    Handler (HeldCall Output) (Prepared Input Output) :=
  if c.mode ≠ .run then do
    let r ← c.recover actionId
    pure (.settled r)
  else if c.lease.attempts > 1 then do
    match ← c.priorEffect actionId with
    | .closed r => pure (.settled r)
    | .absent prior => c.start sha256 actionId prior
  else c.start sha256 actionId none

end Digest

/-- `continue_approved_external_in_transaction`, after `destination.execute`. -/
def conclude (c : Continuing Input Output) (d : Declaration Input Output) (input : Input)
    (destination : Destination) (answer : DestinationAnswer Output) :
    Handler (HeldCall Output) ContinuationResult :=
  let provider := destination.mode = .provider
  match answer with
  | .output output => do
    -- The savepoint of an in-process effect is committed.
    if provider then pure ()
    else Handler.write (HeldCall.addEffect
      ⟨d.executablePayload input, some destination.destinationRef, output, c.now⟩)
    c.settleSuccess output (if provider then .providerStatus else .handlerReturned)
  | .nothing | .invalid =>
    if provider then
      c.settleUnresolved outcomeUnknown "the provider returned no valid declared output"
    else c.settleRefused ⟨.permanentRefusalNoEffect, "output_invalid",
      "the destination returned invalid output"⟩
  | .error e =>
    -- In process, the rollback of the savepoint is itself the proof of absence.
    if ¬provider ∧ e.failureClass = .outcomeUnknown then
      c.classified { e with failureClass := .retryableNoEffect }
    else c.classified e
  | .raised exception =>
    c.classified ⟨if provider then .outcomeUnknown else .retryableNoEffect, destinationFailed,
      exception⟩

end Continuing

/-! ### Manual resolution -/

/-- The outcomes that a person may name. -/
inductive Resolution where
  | succeeded
  | failed
  | cancelled
  deriving DecidableEq

namespace Resolution

def action : Resolution → ActionState
  | succeeded => .succeeded
  | failed => .failed
  | cancelled => .cancelled

def operation : Resolution → OperationState
  | succeeded => .succeeded
  | failed => .failed
  | cancelled => .cancelled

def envelope : Resolution → IdempotencyState
  | succeeded => .succeeded
  | failed => .failed
  | cancelled => .cancelled

end Resolution

def externalResolutionUnverified : String := "external_resolution_unverified"

/-- What a person gives to resolve an action, and what the destination answers about it. -/
structure ResolveInput (Output : Type) where
  outcome : Resolution
  note : String
  resultRef : Option String
  terminalCheckKind : Option TerminalCheckKind
  now : ℕ
  reconcile : DestinationAnswer Output

/-- The output that the destination confirms, if one is asked for. -/
def ResolveInput.verified (given : ResolveInput Output) (w : Deployment Input Output)
    (action : ExternalActionRow) :
    Handler (HeldCall Output) (Declaration Input Output × Option Output) := do
  let d ← Handler.found (w.operation action.operationName) externalResolutionUnverified
  let destination ← Handler.found (w.destination action.destinationRef)
    externalResolutionUnverified
  Handler.require (destination.reconciles = true) externalResolutionUnverified
  match given.outcome, given.reconcile with
  | .succeeded, .output value => pure (d, some value)
  | .failed, .nothing => pure (d, none)
  | _, _ => Handler.refuse externalResolutionUnverified

/-- The reservation, the action and the operation of a resolution. -/
def ResolveInput.write (given : ResolveInput Output) (envelope : RowUpdate IdempotencyRow)
    (errorCode errorDetail : Option String) : Handler (HeldCall Output) Unit := do
  must (HeldCall.updateEnvelope envelope) "operation_state"
  must (HeldCall.updateAction (ExternalActionRow.resolved given.outcome.action given.resultRef
    errorCode errorDetail given.now)) "operation_state"
  must (HeldCall.updateOperation (OperationRow.resolve given.outcome.operation given.note given.now
    (if given.outcome = .succeeded then some (given.terminalCheckKind.getD .providerStatus)
      else none)
    (if given.outcome = .succeeded then given.resultRef else none))) "operation_state"

/-- `resolve_external`. -/
def resolveExternal (w : Deployment Input Output) (given : ResolveInput Output) :
    Handler (HeldCall Output) Unit := do
  let s ← get
  let action ← Handler.found s.action "operation_state"
  Handler.require (action.state = .unresolved) "operation_state"
  match given.outcome with
  | .succeeded => do
    let (d, verified) ← given.verified w action
    let output ← Handler.found verified externalResolutionUnverified
    let external ← Handler.found d.external "AssertionError"
    Handler.require (given.resultRef.any (fun text => !text.toList.all isSpace) = true ∧
      external.resultRef output = given.resultRef) externalResolutionUnverified
    let body ← Handler.found (d.result output).jsonb "DataError"
    given.write (envelopeResolved .succeeded (some body) (some action.resultSchemaVersion) none
      none) none none
  | .failed => do
    let _ ← given.verified w action
    given.write (envelopeResolved .failed none none (some "resolved_no_effect")
      (some (short given.note))) (some "resolved_no_effect") (some (short given.note))
  | .cancelled =>
    given.write (envelopeResolved .cancelled none none (some "resolved_cancelled")
      (some (short given.note))) (some "resolved_cancelled") (some (short given.note))

/-- `resolve_handler`, for a record that has an action and for one that has none. -/
def resolveHandler (w : Deployment Input Output) (given : ResolveInput Output) :
    Handler (HeldCall Output) Unit := do
  let s ← get
  Handler.require (s.operation.state = .unresolved) "operation_state"
  match s.action with
  | some _ => resolveExternal w given
  | none => must (HeldCall.updateOperation (OperationRow.resolve given.outcome.operation given.note
      given.now given.terminalCheckKind none)) "operation_state"

end Rheostream.Approvals
