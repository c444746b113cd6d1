import Rheostream.Current.OneItem
import Rheostream.Leads.LinkRepair

/-!
# Handoffs, their external actions and the items they make

Three writers with a transaction each: Leads keeps the handoffs, core keeps the external actions
that its attempts stage (`external_actions.py`, `continuation.py` and `transaction.py`), and the
continuation of an action runs Current's `external.create` inside its own transaction, since
Current is an in-process destination without a `reconcile`.
-/

namespace Rheostream.Leads

open Current (CurrentState CurrentAction ExternalItemCreate)

/-- `ExternalFailureClass`. -/
inductive FailureClass where
  | destinationUnavailableNoEffect
  | permanentRefusalNoEffect
  | retryableNoEffect
  | outcomeUnknown
  | cancelledNoEffect
  deriving DecidableEq

def FailureClass.value : FailureClass → String
  | destinationUnavailableNoEffect => "destination_unavailable_no_effect"
  | permanentRefusalNoEffect => "permanent_refusal_no_effect"
  | retryableNoEffect => "retryable_no_effect"
  | outcomeUnknown => "outcome_unknown"
  | cancelledNoEffect => "cancelled_no_effect"

/-- A row of `external_action` that an attempt of a handoff staged. The key is the handoff with
the number of the attempt. -/
structure HandoffAction where
  handoff : Uuid
  attempt : ℕ
  approvalId : Uuid
  request : ExternalItemCreate
  state : ActionState
  failureClass : Option FailureClass
  errorCode : Option String
  resultRef : Option String
  terminalAt : Option ℕ
  /-- The continuation job is bound. -/
  queued : Bool
  /-- The row was erased with what it belonged to. -/
  erased : Bool
  hasResult : state = .succeeded → resultRef.isSome = true
  hasClass : state = .refused → failureClass.isSome = true

namespace HandoffAction

/-- `restage_eligible`, as `published` computes it. -/
def restageEligible (action : HandoffAction) : Bool :=
  action.state = .failed || (action.state = .refused &&
    action.failureClass = some .destinationUnavailableNoEffect)

/-- `published`. -/
def published (action : HandoffAction) : ActionRecord where
  state := action.state
  failureClass := action.failureClass.map FailureClass.value
  errorCode := action.errorCode
  resultRef := action.resultRef
  terminalAt := action.terminalAt
  restageEligible := action.restageEligible
  hasResult := action.hasResult

/-- `OPEN_STATES`. -/
def isOpen (action : HandoffAction) : Bool :=
  !action.erased && (action.state = .pending || action.state = .executing)

/-- `create_pending`. -/
def staged (handoff : Uuid) (attempt : ℕ) (approvalId : Uuid) (request : ExternalItemCreate) :
    HandoffAction where
  handoff := handoff
  attempt := attempt
  approvalId := approvalId
  request := request
  state := .pending
  failureClass := none
  errorCode := none
  resultRef := none
  terminalAt := none
  queued := false
  erased := false
  hasResult := fun h => by cases h
  hasClass := fun h => by cases h

/-- `_settle_refused`, and the refusals on the approval side. -/
def refuse (action : HandoffAction) (failure : FailureClass) (code : String) (now : ℕ) :
    HandoffAction :=
  { action with
    state := .refused
    failureClass := some failure
    errorCode := some code
    terminalAt := some now
    hasResult := fun h => by cases h
    hasClass := fun _ => rfl }

/-- `_settle_failed`. -/
def fail (action : HandoffAction) (code : String) (now : ℕ) : HandoffAction :=
  { action with
    state := .failed
    failureClass := some .retryableNoEffect
    errorCode := some code
    terminalAt := some now
    hasResult := fun h => by cases h
    hasClass := fun h => by cases h }

/-- `_settle_cancelled`. -/
def cancel (action : HandoffAction) (code : String) (now : ℕ) : HandoffAction :=
  { action with
    state := .cancelled
    failureClass := some .cancelledNoEffect
    errorCode := some code
    terminalAt := some now
    hasResult := fun h => by cases h
    hasClass := fun h => by cases h }

/-- `_settle_unresolved`. -/
def unresolve (action : HandoffAction) (code : String) (now : ℕ) : HandoffAction :=
  { action with
    state := .unresolved
    failureClass := some .outcomeUnknown
    errorCode := some code
    terminalAt := some now
    hasResult := fun h => by cases h
    hasClass := fun h => by cases h }

/-- `_settle_success`. -/
def succeed (action : HandoffAction) (result : String) (now : ℕ) : HandoffAction :=
  { action with
    state := .succeeded
    resultRef := some result
    failureClass := none
    errorCode := none
    terminalAt := some now
    hasResult := fun _ => rfl
    hasClass := fun h => by cases h }

/-- A retry: the action stays `executing` and keeps the error. -/
def retry (action : HandoffAction) (code : String) : HandoffAction :=
  { action with
    state := .executing
    errorCode := some code
    hasResult := fun h => by cases h
    hasClass := fun h => by cases h }

/-- `resolve_external` to `cancelled`, which keeps the failure class. -/
def resolveCancelled (action : HandoffAction) (now : ℕ) : HandoffAction :=
  { action with
    state := .cancelled
    errorCode := some "resolved_cancelled"
    terminalAt := some now
    hasResult := fun h => by cases h
    hasClass := fun h => by cases h }

/-- `_classified`, with what the lease says of its attempts. -/
def classified (action : HandoffAction) (failure : FailureClass) (code : String)
    (attempts maxAttempts now : ℕ) : HandoffAction :=
  match failure with
  | .destinationUnavailableNoEffect => action.refuse .destinationUnavailableNoEffect code now
  | .permanentRefusalNoEffect => action.refuse .permanentRefusalNoEffect code now
  | .cancelledNoEffect => action.cancel code now
  | .outcomeUnknown => action.unresolve code now
  | .retryableNoEffect =>
    if maxAttempts ≤ attempts then action.fail "retry_budget_exhausted" now else action.retry code

end HandoffAction

/-- How the job loop calls a continuation, with what the process finds when it runs. -/
inductive ContinuationLease where
  | cancelRequested (attempts : ℕ) (registered : Bool)
  | exhausted (registered : Bool)
  /-- A refusal of the checks before the destination, or an error that the destination raises
  whatever its own state is. -/
  | run (attempts maxAttempts : ℕ) (registered : Bool) (refusal : Option (FailureClass × String))
      (raised : Option (FailureClass × String)) (item : Uuid)

/-- The identifier that a lease draws for an item. -/
def ContinuationLease.item : ContinuationLease → Option Uuid
  | .run _ _ _ _ _ item => some item
  | _ => none

/-- The item that a continuation made, with its handoff and its action. -/
structure MadeItem where
  handoff : Uuid
  action : Uuid
  item : RecordRef
  deriving DecidableEq

structure HandoffWorld where
  leads : LinkState
  actions : Table Uuid HandoffAction
  current : CurrentState
  /-- Every handoff identifier that was drawn. -/
  drawn : Finset Uuid
  /-- Every item that a continuation made, in order. -/
  made : List MadeItem

/-- A request for a handoff as a person makes it. -/
structure HandoffRequest where
  opportunityId : Uuid
  destinationRef : Option String
  idempotencyKey : String
  snapshotDigest : String

namespace HandoffWorld

variable (w : HandoffWorld)

/-- What `core.external_action.get` answers to a caller who may or may not read. -/
def answer (readable : Bool) (id : Uuid) : ReadAnswer ActionRecord :=
  if !readable then .refused "operation_not_permitted"
  else match w.actions.lookup id with
    | none => .refused "not_found"
    | some action => if action.erased then .refused "not_found" else .answered action.published

/-- The answer about the latest attempt of a handoff. -/
def latestAnswer (readable : Bool) (row : Handoff) : ReadAnswer ActionRecord :=
  match row.externalActionId with
  | none => .refused "not_found"
  | some id => w.answer readable id

/-- `stage_external_in_transaction`: the key that was staged before answers its action, and a new
one is held when the destination is available. -/
def stageExternal (handoff : Uuid) (attempt : ℕ) (available : Bool) (actionId approvalId : Uuid)
    (request : ExternalItemCreate) : Option StagedAttempt × Table Uuid HandoffAction :=
  match w.actions.findRow fun _ action => action.handoff = handoff && action.attempt = attempt with
  | some (id, action) => (some ⟨action.approvalId, id, action.state⟩, w.actions)
  | none =>
    if available then (some ⟨approvalId, actionId, .pending⟩,
      w.actions.insert actionId (.staged handoff attempt approvalId request))
    else (none, w.actions)

/-- The settlement of a continuation that made nothing. -/
def settleAction (id : Uuid) (action : HandoffAction) : HandoffWorld :=
  { w with actions := w.actions.insert id action }

/-- The run of a continuation that reaches its destination. -/
def execute (id : Uuid) (action : HandoffAction) (attempts maxAttempts : ℕ) (item : Uuid)
    (now : ℕ) : HandoffWorld :=
  match w.current.createExternal action.request item now with
  -- Every refusal of Current is a permanent one.
  | .error code =>
    w.settleAction id (action.classified .permanentRefusalNoEffect code attempts maxAttempts now)
  | .ok (current, ref) =>
    { w with
      actions := w.actions.insert id
        (action.succeed (toString ref.moduleId ++ ":" ++ ref.recordType ++ ":" ++ toString ref.id)
          now)
      current := current
      made := if (w.current.items.lookup ref.id).isNone then w.made ++ [⟨action.handoff, id, ref⟩]
        else w.made }

/-- `continue_approved_external_in_transaction`, for an in-process destination. -/
def continueExternal (id : Uuid) (action : HandoffAction) (now : ℕ) :
    ContinuationLease → HandoffWorld
  | .cancelRequested attempts registered =>
    if attempts = 0 then w.settleAction id (action.cancel "continuation_cancelled" now)
    else if !registered then w.settleAction id (action.unresolve "outcome_unknown" now)
    else w.settleAction id (action.cancel "continuation_cancelled" now)
  | .exhausted registered =>
    if !registered then w.settleAction id (action.unresolve "outcome_unknown" now)
    else w.settleAction id (action.fail "retry_budget_exhausted" now)
  | .run attempts maxAttempts registered refusal raised item =>
    if 1 < attempts ∧ registered = false then
      w.settleAction id (action.unresolve "outcome_unknown" now)
    else match refusal with
      | some (failure, code) => w.settleAction id (action.refuse failure code now)
      | none =>
        if !registered then
          w.settleAction id (action.refuse .destinationUnavailableNoEffect "guard_refused" now)
        else match raised with
          | some (failure, code) =>
            -- The rollback of the savepoint proves that nothing happened.
            w.settleAction id (action.classified
              (if failure = .outcomeUnknown then .retryableNoEffect else failure) code attempts
                maxAttempts now)
          | none => w.execute id action attempts maxAttempts item now

end HandoffWorld

inductive HandoffStep where
  | handoff (id : Uuid) (m : HandoffRequest) (request : ExternalItemCreate)
      (available readable : Bool) (actionId approvalId : Uuid) (now : ℕ)
  | restage (id : Uuid) (attemptCount : ℕ) (request : ExternalItemCreate)
      (available readable : Bool) (actionId approvalId : Uuid) (now : ℕ)
  | erase (affected : List Uuid)
  | deliver (e : LinkEvent)
  | reconcile (readable : Uuid → Bool) (settledLink link : Uuid → ReadAnswer RawLink)
      (size now : ℕ)
  /-- `queue_approved_external`: an approval queues the continuation, unless a guard refuses. -/
  | approve (actionId : Uuid) (refusal : Option FailureClass) (now : ℕ)
  /-- `refuse_staged_external`. -/
  | refuse (actionId : Uuid) (now : ℕ)
  | continuation (actionId : Uuid) (lease : ContinuationLease) (now : ℕ)
  /-- `resolve_external`. Current has no `reconcile`, so only `cancelled` can be verified. -/
  | resolve (actionId : Uuid) (now : ℕ)
  | eraseAction (actionId : Uuid)
  | current (a : CurrentAction)

namespace HandoffWorld

variable (handoffText : Uuid → String)

/-- The payload of an attempt, with the routing fields that Leads writes into it. -/
def routed (id : Uuid) (request : ExternalItemCreate) : ExternalItemCreate :=
  { request with sourceRef := handoffText id }

/-- `handoff`, with the staging of its first attempt. -/
def handoffStep (w : HandoffWorld) (id : Uuid) (m : HandoffRequest) (request : ExternalItemCreate)
    (available readable : Bool) (actionId approvalId : Uuid) (now : ℕ) : Option HandoffWorld :=
  match w.leads.handoffs.findRow fun _ row =>
      row.opportunityId = m.opportunityId && row.idempotencyKey = m.idempotencyKey with
  | some (_, row) =>
    (w.leads.step (.handoff id ⟨m.opportunityId, m.destinationRef, m.idempotencyKey,
      m.snapshotDigest, none⟩ (w.latestAnswer readable row) now)).map fun leads =>
        { w with leads := leads }
  | none =>
    let staged := if m.destinationRef = some "current" then
        w.stageExternal id 1 available actionId approvalId (routed handoffText id request)
      else (none, w.actions)
    (w.leads.step (.handoff id ⟨m.opportunityId, m.destinationRef, m.idempotencyKey,
      m.snapshotDigest, staged.1⟩ (.refused "not_found") now)).map fun leads =>
        { w with leads := leads, actions := staged.2, drawn := insert id w.drawn }

/-- `handoff_restage`, with the staging of the next attempt. -/
def restageStep (w : HandoffWorld) (id : Uuid) (attemptCount : ℕ) (request : ExternalItemCreate)
    (available readable : Bool) (actionId approvalId : Uuid) (now : ℕ) : Option HandoffWorld :=
  match w.leads.handoffs.lookup id with
  | none => none
  | some row =>
    if row.attemptCount = attemptCount + 1 then
      (w.leads.step (.restage id attemptCount (w.latestAnswer readable row) none now)).map
        fun leads => { w with leads := leads }
    else
      let staged := w.stageExternal id (row.attemptCount + 1) available actionId approvalId
        (routed handoffText id request)
      (w.leads.step (.restage id attemptCount (w.latestAnswer readable row) staged.1 now)).map
        fun leads => { w with leads := leads, actions := staged.2 }

def step (w : HandoffWorld) : HandoffStep → Option HandoffWorld
  | .handoff id m request available readable actionId approvalId now =>
    if id ∈ w.drawn ∨ (w.actions.lookup actionId).isSome = true then none
    else w.handoffStep handoffText id m request available readable actionId approvalId now
  | .restage id attemptCount request available readable actionId approvalId now =>
    if (w.actions.lookup actionId).isSome = true then none
    else w.restageStep handoffText id attemptCount request available readable actionId approvalId
      now
  | .erase affected => (w.leads.step (.erase affected)).map fun leads => { w with leads := leads }
  | .deliver e => (w.leads.step (.deliver e)).map fun leads => { w with leads := leads }
  | .reconcile readable settledLink link size now =>
    (w.leads.step (.reconcile ⟨fun id => w.answer (readable id) id, settledLink, link⟩ size
      now)).map fun leads => { w with leads := leads }
  | .approve actionId refusal now =>
    match w.actions.lookup actionId with
    | none => none
    | some action =>
      if action.erased || action.queued || action.state ≠ .pending then none
      else match refusal with
        | none => some (w.settleAction actionId { action with queued := true })
        | some failure => some (w.settleAction actionId (action.refuse failure "guard_refused" now))
  | .refuse actionId now =>
    match w.actions.lookup actionId with
    | none => none
    | some action =>
      if action.erased || action.queued || action.state ≠ .pending then none
      else some (w.settleAction actionId (action.refuse .cancelledNoEffect "approval_refused" now))
  | .continuation actionId lease now =>
    match w.actions.lookup actionId with
    | none => none
    | some action =>
      if action.isOpen && action.queued && lease.item.all fun item => item ∉ w.current.drawn then
        some (w.continueExternal actionId action now lease)
      else none
  | .resolve actionId now =>
    match w.actions.lookup actionId with
    | none => none
    | some action =>
      if action.erased || action.state ≠ .unresolved then none
      else some (w.settleAction actionId (action.resolveCancelled now))
  | .eraseAction actionId =>
    match w.actions.lookup actionId with
    | none => none
    | some action => some (w.settleAction actionId { action with erased := true })
  | .current a => (w.current.step a).map fun current => { w with current := current }

/-- A workspace before its first handoff. -/
structure Begins (w : HandoffWorld) : Prop where
  leads : w.leads.Begins
  handoffs : w.leads.handoffs = ∅
  actions : w.actions = ∅
  current : w.current.Begins
  drawn : w.drawn = ∅
  made : w.made = []

/-- Every order of the transactions of the three writers. A transaction that a crash ends
leaves nothing, and a lost response changes nothing. -/
def machine : Machine HandoffWorld HandoffStep := ⟨Begins, step handoffText⟩

end HandoffWorld

end Rheostream.Leads
