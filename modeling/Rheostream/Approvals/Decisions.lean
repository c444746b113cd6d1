import Rheostream.Approvals.Declarations
import Rheostream.Foundation.Handler

/-!
# Holding a call and deciding on it

A call of an upper class is held: `hold_for_approval` for one that will run inline, and
`stage_external_in_transaction` for a keyed external one. A person then approves or refuses it.
Approving verifies the stored payload against the approval, rechecks the guards, and either runs
the operation in the same transaction or queues its one continuation job.
-/

namespace Rheostream.Approvals

variable {Input Output : Type}

attribute [local instance] bytesEq

/-- A statement whose rowcount is checked. -/
def must (write : HeldCall Output → Option (HeldCall Output)) (refusal : String) :
    Handler (HeldCall Output) Unit := do
  let s ← get
  let t ← Handler.found (write s) refusal
  Handler.write fun _ => t

theorem answers_must {write : HeldCall Output → Option (HeldCall Output)} {refusal : String}
    {s t : HeldCall Output} {u : Unit} : (must write refusal).Answers s u t ↔ write s = some t := by
  unfold must
  rw [Handler.answers_bind_get, Handler.answers_bind_found]
  simp only [Handler.answers_write]
  constructor
  · rintro ⟨a, ha, rfl⟩
    exact ha
  · intro h
    exact ⟨t, h, rfl⟩

theorem answers_bind_must {α : Type} {write : HeldCall Output → Option (HeldCall Output)}
    {refusal : String} {k : Unit → Handler (HeldCall Output) α} {s t : HeldCall Output} {a : α} :
    Handler.Answers (must write refusal >>= k) s a t ↔
      ∃ r, write s = some r ∧ (k ()).Answers r a t := by
  rw [Handler.answers_bind]
  simp only [answers_must]
  constructor
  · rintro ⟨⟨⟩, r, hr, hrest⟩
    exact ⟨r, hr, hrest⟩
  · rintro ⟨r, hr, hrest⟩
    exact ⟨(), r, hr, hrest⟩

/-- A statement whose rowcount is not checked. -/
def attempt (write : HeldCall Output → Option (HeldCall Output)) :
    Handler (HeldCall Output) Unit :=
  Handler.write fun s => (write s).getD s

/-! ### The snapshot -/

section Digest

variable (sha256 : ByteArray → ByteArray)

/-- `payload_digest`. -/
def payloadDigest (body : Json) : ByteArray := sha256 (canonicalBytes body)

/-- `SnapshotRefusalCause`. -/
inductive SnapshotRefusalCause where
  | operationUnknown
  | payloadAbsent
  | payloadInvalid
  | payloadDigestMismatch
  | destinationMismatch
  | subjectInvalid
  | stagedActionAbsent
  | stagedActionMismatch
  deriving DecidableEq

def invalidApproval : String := "invalid_approval"

def operationUnknown : String := "operation_unknown"

/-- The refusal state of a cause. -/
def SnapshotRefusalCause.state : SnapshotRefusalCause → String
  | .operationUnknown => Approvals.operationUnknown
  | _ => invalidApproval

/-- `VerifiedSnapshot`. -/
structure VerifiedSnapshot (Input Output : Type) where
  declaration : Declaration Input Output
  input : Input
  subject : Option RecordRef

/-- The destination binding is exact. -/
def destinationBound (d : Declaration Input Output) (approval : ApprovalRow) (input : Input) :
    Bool :=
  match d.external with
  | none => approval.destinationRef.isNone
  | some external =>
    approval.destinationRef = some external.destinationRef &&
      external.destination input = some external.destinationRef

/-- The subject of a validated input, unless its field carries something else. -/
def subjectOf (d : Declaration Input Output) (input : Input) : Option (Option RecordRef) :=
  match d.subject with
  | none => some none
  | some field =>
    match field input with
    | .none => some none
    | .ref target => some (some target)
    | .other => none

/-- What is wrong with the staged action of a keyed external call. -/
def stagedProblem (d : Declaration Input Output) (s : HeldCall Output) :
    Option SnapshotRefusalCause :=
  if d.isStaged then
    match s.action with
    | none => some .stagedActionAbsent
    | some staged =>
      if staged.operationId ≠ s.approval.operationId ∨
          staged.operationName ≠ s.approval.operationName ∨
          some staged.destinationRef ≠ s.approval.destinationRef ∨
          staged.approvalPayloadDigest ≠ s.approval.payloadDigest then
        some .stagedActionMismatch
      else none
  else none

/-- `verify_snapshot`. -/
def verifySnapshot (w : Deployment Input Output) (s : HeldCall Output) :
    Except SnapshotRefusalCause (VerifiedSnapshot Input Output) :=
  match w.operation s.approval.operationName with
  | none => .error .operationUnknown
  | some d =>
    match s.payload with
    | none => .error .payloadAbsent
    | some body =>
      match d.validate body with
      | none => .error .payloadInvalid
      | some input =>
        if payloadDigest sha256 (d.executablePayload input) ≠ s.approval.payloadDigest then
          .error .payloadDigestMismatch
        else if !destinationBound d s.approval input then .error .destinationMismatch
        else
          match subjectOf d input with
          | none => .error .subjectInvalid
          | some subject =>
            match stagedProblem d s with
            | some cause => .error cause
            | none => .ok ⟨d, input, subject⟩

/-- The verified snapshot, or the refusal of its cause. -/
def verifiedOr (verified : Except SnapshotRefusalCause (VerifiedSnapshot Input Output)) :
    Handler (HeldCall Output) (VerifiedSnapshot Input Output) :=
  match verified with
  | .ok v => pure v
  | .error cause => Handler.refuse cause.state

theorem answers_bind_verifiedOr {α : Type}
    {verified : Except SnapshotRefusalCause (VerifiedSnapshot Input Output)}
    {k : VerifiedSnapshot Input Output → Handler (HeldCall Output) α} {s t : HeldCall Output}
    {a : α} :
    Handler.Answers (verifiedOr verified >>= k) s a t ↔
      ∃ v, verified = .ok v ∧ (k v).Answers s a t := by
  rw [Handler.answers_bind]
  cases verified with
  | error cause => simp [verifiedOr]
  | ok v => simp [verifiedOr]

/-- What a verified snapshot says of the stored rows. -/
structure Verified (w : Deployment Input Output) (s : HeldCall Output)
    (v : VerifiedSnapshot Input Output) : Prop where
  registered : w.operation s.approval.operationName = some v.declaration
  stored : ∃ body, s.payload = some body ∧ v.declaration.validate body = some v.input
  digest : payloadDigest sha256 (v.declaration.executablePayload v.input) =
    s.approval.payloadDigest
  destination : destinationBound v.declaration s.approval v.input = true
  staged : v.declaration.isStaged = true → s.action.isSome = true

theorem verified_of_verifySnapshot {w : Deployment Input Output} {s : HeldCall Output}
    {v : VerifiedSnapshot Input Output} (h : verifySnapshot sha256 w s = .ok v) :
    Verified sha256 w s v := by
  unfold verifySnapshot at h
  split at h
  · cases h
  · rename_i d hd
    split at h
    · cases h
    · rename_i body hbody
      split at h
      · cases h
      · rename_i input hinput
        split_ifs at h with hdigest hbound
        split at h
        · cases h
        · rename_i subject hsubject
          split at h
          · cases h
          · rename_i hstaged
            obtain rfl := Except.ok.inj h
            refine ⟨hd, ⟨body, hbody, hinput⟩, not_not.mp hdigest, by simpa using hbound, ?_⟩
            intro his
            simp only [stagedProblem, his, if_true] at hstaged
            cases haction : s.action with
            | none => simp [haction] at hstaged
            | some staged => rfl

/-- `binding_detail`: whether this call is the approved one, inside its window. -/
def bindingDetail (approved digest : ByteArray) (approval : ApprovalRow) (now : ℕ) :
    Option String :=
  if digest ≠ approved then some "the payload differs from the one that was approved"
  else if now < approval.windowStart ∨ approval.windowEnd < now then
    some "the approval's execution window has passed"
  else none

theorem bindingDetail_eq_none {approved digest : ByteArray} {approval : ApprovalRow} {now : ℕ} :
    bindingDetail approved digest approval now = none ↔
      digest = approved ∧ approval.windowStart ≤ now ∧ now ≤ approval.windowEnd := by
  unfold bindingDetail
  split_ifs with hdigest hwindow
  · simp [hdigest]
  · simp only [false_iff]
    omega
  · simp only [true_iff]
    exact ⟨not_not.mp hdigest, by omega⟩

/-! ### Holding -/

/-- `records.create`. -/
def ApprovalRow.create (d : Declaration Input Output) (ids : CallIds) (input : Input)
    (destinationRef : Option RefText) (subjectRef : Option RefText)
    (subjectRevision : Option ℕ) (now windowEnd : ℕ) : ApprovalRow where
  operationName := d.name
  operationId := ids.operation
  destinationRef := destinationRef
  subjectRef := subjectRef
  subjectRevision := subjectRevision
  payloadDigest := Approvals.payloadDigest sha256 (d.executablePayload input)
  windowStart := now
  windowEnd := windowEnd
  state := .pending
  approvedAt := none
  executedAt := none

/-- `_bound_destination`. -/
def boundDestination (d : Declaration Input Output) (input : Input) : Option RefText :=
  d.external.bind fun external =>
    if external.destination input = some external.destinationRef then
      some external.destinationRef
    else none

/-- The subject column, and the revision that the subject has. -/
def subjectColumns (w : Deployment Input Output) (d : Declaration Input Output) (input : Input) :
    Option RefText × Option ℕ :=
  match subjectOf d input with
  | some (some target) => (some (.ref target), (w.resolveIn target).toOption.map (·.revision))
  | _ => (none, none)

/-- `hold_for_approval`: the rows of a call that will run inline. -/
def holdForApproval (w : Deployment Input Output) (d : Declaration Input Output) (ids : CallIds)
    (input : Input) (now : ℕ) : Option (HeldCall Output) :=
  let subject := subjectColumns w d input
  HeldCall.updateOperation (OperationRow.markApprovalRequired ids.approval)
    { ids := ids
      approval := .create sha256 d ids input (boundDestination d input) subject.1 subject.2 now
        (now + seconds w.windowSeconds)
      payload := some (d.executablePayload input)
      operation := .mint d.name now
      action := none
      envelope := none
      job := none
      effects := [] }

/-- `create_pending`. -/
def ExternalActionRow.createPending (d : Declaration Input Output) (ids : CallIds) (input : Input)
    (destinationRef : RefText) (spec : KeyedSpec) : ExternalActionRow where
  operationId := ids.operation
  approvalId := ids.approval
  operationName := d.name
  destinationRef := destinationRef
  approvalPayloadDigest := payloadDigest sha256 (d.executablePayload input)
  requestSchemaVersion := spec.requestSchemaVersion
  resultSchemaVersion := spec.resultSchemaVersion
  executionJobId := none
  state := .pending
  providerRequestId := none
  failureClass := none
  attempts := 0
  resultRef := none
  errorCode := none
  errorDetail := none
  terminalAt := none

/-- `stage_external_in_transaction`, for a key that is not yet bound. -/
def stageExternal (w : Deployment Input Output) (d : Declaration Input Output) (ids : CallIds)
    (input : Input) (request : CanonicalRequest) (retainedUntil now : ℕ) :
    Option (HeldCall Output) := do
  let spec ← d.keyed
  let external ← d.external
  let destinationRef ← external.destination input
  let envelope ← IdempotencyRow.reserved spec request (some ids.operation) retainedUntil
  let subject := subjectColumns w d input
  if isExternal d.safetyClass ∧ destinationRef = external.destinationRef ∧
      w.authorized = none ∧ w.moduleNotReady = none ∧
      w.availabilityProblem destinationRef d.name = none ∧ w.hasAuditSink then
    HeldCall.updateOperation (OperationRow.markApprovalRequired ids.approval)
      { ids := ids
        approval := .create sha256 d ids input (some destinationRef) subject.1 subject.2 now
          (now + seconds w.windowSeconds)
        payload := some (d.executablePayload input)
        operation := .mint d.name now
        action := some (.createPending sha256 d ids input destinationRef spec)
        envelope := some envelope
        job := none
        effects := [] }
  else none

/-! ### Deciding -/

/-- The person who decides, as of now. -/
structure Viewer where
  eligible : Bool
  /-- The reference resolves for this viewer. -/
  sees : RecordRef → Bool
  /-- The viewer could have held this deletion. -/
  erases : Bool

def recordDelete : String := "core.record.delete"

/-- `_subject_access` is not `none`. -/
def Viewer.hasAccess (viewer : Viewer) (v : VerifiedSnapshot Input Output) : Bool :=
  match v.subject with
  | none => true
  | some target => viewer.sees target || (v.declaration.name = recordDelete && viewer.erases)

/-- `_stored_subject_visible`. -/
def Viewer.seesStored (viewer : Viewer) (approval : ApprovalRow) : Bool :=
  match approval.subjectRef with
  | none => true
  | some text => text.parse.any viewer.sees

/-- `_DECIDABLE`. -/
def ApprovalState.isDecidable : ApprovalState → Bool
  | .pending | .requiresReapproval => true
  | _ => false

/-- The subject is visible to this viewer: the verified one, or else the stored one. -/
def Viewer.isVisible (viewer : Viewer) (approval : ApprovalRow) :
    Except SnapshotRefusalCause (VerifiedSnapshot Input Output) → Bool
  | .ok v => viewer.hasAccess v
  | .error _ => viewer.seesStored approval

/-- `_lock_for_decision`. -/
def lockForDecision (w : Deployment Input Output) (viewer : Viewer) :
    Handler (HeldCall Output) (Except SnapshotRefusalCause (VerifiedSnapshot Input Output)) := do
  let s ← get
  Handler.require (viewer.eligible = true) "not_found"
  Handler.require (viewer.isVisible s.approval (verifySnapshot sha256 w s) = true) "not_found"
  pure (verifySnapshot sha256 w s)

/-- What the gated handler does with a verified input. -/
inductive HandlerAnswer (Output : Type) where
  | returned (output : Output)
  | stale
  | invalid
  | refused (refusal : String)

/-- The output, or the refusal that rolls the transaction back. -/
def HandlerAnswer.output : HandlerAnswer Output → Handler (HeldCall Output) Output
  | .returned output => pure output
  | .stale => Handler.refuse "record_stale"
  | .invalid => Handler.refuse "output_invalid"
  | .refused refusal => Handler.refuse refusal

def guardRefused : String := "guard_refused"

/-- The text that a guard's refusal is recorded under. -/
def GuardRefusal.text (refusal : GuardRefusal) : String := refusal.guard ++ ": " ++ refusal.detail

/-- `_record_guard_refusal`. -/
def recordGuardRefusal (refusal : GuardRefusal) (now : ℕ) : Handler (HeldCall Output) Unit := do
  attempt (HeldCall.updateApproval ApprovalRow.markGuardRefused)
  attempt (HeldCall.updateOperation (OperationRow.finishHeldFailed now guardRefused refusal.text))

/-- The handler's own writes, in the transaction of the approval. -/
def HeldCall.addEffect (effect : Effect Output) (s : HeldCall Output) : HeldCall Output :=
  { s with effects := s.effects ++ [effect] }

/-- `execute_approved`. -/
def executeApproved (w : Deployment Input Output) (now : ℕ)
    (handler : Input → HandlerAnswer Output) : Handler (HeldCall Output) Unit := do
  let s ← get
  let v ← verifiedOr (verifySnapshot sha256 w s)
  let payload := v.declaration.executablePayload v.input
  Handler.require (bindingDetail s.approval.payloadDigest (payloadDigest sha256 payload)
    s.approval now = none) invalidApproval
  match runGuards (effectiveGuardsFor w v.declaration s.approval v.input now) with
  | some refusal => recordGuardRefusal refusal now
  | none => do
    Handler.require (w.heldCaller = none) (w.heldCaller.getD "")
    Handler.require (w.moduleNotReady = none) "module_not_ready"
    let output ← (handler v.input).output
    Handler.write (HeldCall.addEffect ⟨payload, s.approval.destinationRef, output, now⟩)
    must (HeldCall.updateApproval (ApprovalRow.markExecuted now)) invalidApproval
    must (HeldCall.updateOperation (OperationRow.finishHeldSucceeded now .handlerReturned now))
      invalidApproval
    Handler.require (w.hasAuditSink = true) "audit_sink_missing"

/-! ### Settlements -/

/-- How the rows of a staged call end without a result. -/
structure Settlement where
  action : ActionState
  failureClass : FailureClass
  approval : RowUpdate ApprovalRow
  operation : RowUpdate OperationRow
  envelope : IdempotencyState

/-- The writes that `_settle_refused`, `_settle_failed`, `_settle_cancelled` and
`_settle_unresolved` share: the action, the approval, the operation and the reservation. -/
def settle (k : Settlement) (code detail : String) (now : ℕ) :
    Handler (HeldCall Output) Unit := do
  must (HeldCall.updateAction (ExternalActionRow.settled k.action k.failureClass code detail now))
    "settle the action"
  must (HeldCall.updateApproval k.approval) "end the approval"
  must (HeldCall.updateOperation k.operation) "end the operation"
  must (HeldCall.updateEnvelope (IdempotencyRow.finishError k.envelope code (short detail)))
    "advance the pending keyed reservation"

/-- The settlement of a guard's refusal at the approval. -/
def heldRefusal (refusal : GuardRefusal) (now : ℕ) : Settlement where
  action := .refused
  failureClass :=
    if refusal.guard = "DestinationGuard" then .destinationUnavailableNoEffect
    else .permanentRefusalNoEffect
  approval := ApprovalRow.markGuardRefused
  operation := OperationRow.finishHeldFailed now guardRefused (short refusal.text)
  envelope := .refused

/-- The whole payload of a continuation job. -/
def jobInput (actionId : Uuid) : Json := .obj [("external_action_id", .str (toString actionId))]

/-- `enqueue_job` for the one continuation. -/
def HeldCall.enqueue (jobId : Uuid) (now maxAttempts : ℕ) (s : HeldCall Output) :
    Option (HeldCall Output) :=
  match s.job with
  | some _ => none
  | none => some { s with
      job := some (jobId, .enqueued externalActionExecute (jobInput s.ids.action) now maxAttempts
        now none) }

/-- `queue_approved_external`. -/
def queueApprovedExternal (w : Deployment Input Output) (now : ℕ) (jobId : Uuid)
    (action : ExternalActionRow) : Handler (HeldCall Output) Unit := do
  let s ← get
  let d ← Handler.found (w.operation s.approval.operationName) operationUnknown
  let body ← Handler.found s.payload invalidApproval
  let input ← Handler.found (d.validate body) invalidApproval
  let digest := payloadDigest sha256 (d.executablePayload input)
  Handler.require (bindingDetail s.approval.payloadDigest digest s.approval now = none)
    invalidApproval
  Handler.require (digest = action.approvalPayloadDigest) invalidApproval
  match runGuards (effectiveGuardsFor w d s.approval input now) with
  | some refusal => settle (heldRefusal refusal now) guardRefused refusal.text now
  | none => do
    Handler.require (w.heldCaller = none) (w.heldCaller.getD "")
    must (HeldCall.enqueue jobId now w.maxAttempts) "queue the continuation job"
    must (HeldCall.updateAction (ExternalActionRow.attachJob jobId)) "bind the continuation job"
    must (HeldCall.updateOperation (OperationRow.startHeld now)) "start the held operation"

/-- `approve_handler`. -/
def approve (w : Deployment Input Output) (viewer : Viewer) (expected : Option ByteArray)
    (now : ℕ) (jobId : Uuid) (handler : Input → HandlerAnswer Output) :
    Handler (HeldCall Output) Unit := do
  let verified ← lockForDecision sha256 w viewer
  let s ← get
  Handler.require (s.approval.state.isDecidable = true) "approval_state"
  let _ ← verifiedOr verified
  let restored := s.approval.state = .requiresReapproval
  Handler.require
    (restored ∨ s.approval.windowStart ≤ now ∧ now ≤ s.approval.windowEnd) invalidApproval
  Handler.require (∀ digest ∈ expected, digest = s.approval.payloadDigest)
    "approval_digest_mismatch"
  must (HeldCall.updateApproval (ApprovalRow.markApproved now
    (if restored then some (now + seconds w.windowSeconds) else none))) "approval_state"
  match s.action with
  | some action => queueApprovedExternal sha256 w now jobId action
  | none => executeApproved sha256 w now handler

/-- `refuse_staged_external`. -/
def refuseStagedExternal (now : ℕ) : Handler (HeldCall Output) Unit := do
  let detail := "the approval was refused before any effect"
  must (HeldCall.updateAction
    (ExternalActionRow.settled .refused .cancelledNoEffect "approval_refused" detail now))
    "settle the action refused"
  must (HeldCall.updateEnvelope
    (IdempotencyRow.finishError .refused "approval_refused" (short detail)))
    "advance the pending keyed reservation"

/-- `refuse_handler`. -/
def refuse (w : Deployment Input Output) (viewer : Viewer) (expected : Option ByteArray)
    (now : ℕ) : Handler (HeldCall Output) Unit := do
  let _ ← lockForDecision sha256 w viewer
  let s ← get
  Handler.require (s.approval.state.isDecidable = true) "approval_state"
  Handler.require (∀ digest ∈ expected, digest = s.approval.payloadDigest)
    "approval_digest_mismatch"
  must (HeldCall.updateApproval ApprovalRow.markRefused) "approval_state"
  must (HeldCall.updateOperation (OperationRow.finishHeldCancelled now)) "approval_state"
  match s.action with
  | some _ => refuseStagedExternal now
  | none => pure ()

end Digest

/-! ### Erasure -/

/-- What `erase_dependents` does to a held call that names the erased record. -/
def HeldCall.eraseDependents (now : ℕ) (s : HeldCall Output) : HeldCall Output :=
  match s.updateApproval ApprovalRow.invalidate with
  | none => s
  | some t =>
    let erased := { t with payload := none }
    (erased.updateOperation (cancelErased now)).getD erased

end Rheostream.Approvals
