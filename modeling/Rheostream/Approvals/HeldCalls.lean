import Rheostream.Approvals.Continuation

/-!
# Held calls and the workers that continue them

The whole life of one held call as a machine: the decisions of people, the erasure of a record that
it names, a stored payload that someone rewrites, and any number of workers that lease its job, run
its continuation, fail in the middle of it or die. Each action is one transaction. What a provider
was asked to do is not undone by a rollback, so the calls to it are kept beside the rows.
-/

namespace Rheostream.Approvals

variable {Input Output : Type}

/-- One invocation of a provider. -/
structure ProviderCall where
  payload : Json
  destination : RefText
  at_ : ℕ
  /-- The effect took place. -/
  landed : Bool

/-- Where a storage fault hits a visit. -/
inductive Fault where
  | beforeEffect
  | afterEffect
  deriving DecidableEq

/-- What one run of a continuation meets. -/
structure Visit (Input Output : Type) where
  deployment : Deployment Input Output
  now : ℕ
  finishedAt : ℕ
  jitter : Option ℕ
  reconcile : DestinationAnswer Output
  execute : DestinationAnswer Output
  /-- The invocation of a provider takes effect. -/
  lands : Bool
  fault : Option Fault

/-- How the transaction of a visit ends. -/
inductive Ending (Output : Type) where
  | committed (t : HeldCall Output)
  | unapplied
  | raised

namespace Visit

variable (v : Visit Input Output)

/-- `_finish_continuation_job`, and the commit that depends on it. -/
def finish (owner : Uuid) (lease : LeasedJob) (mode : ContinuationMode) (r : ContinuationResult)
    (t : HeldCall Output) : Ending Output :=
  match (finishContinuationJob lease owner mode r v.finishedAt v.jitter).bind fun write =>
      t.updateJob lease.id write.update with
  | some u => .committed u
  | none => .unapplied

/-- What a lease has in its hands once the rows are bound. -/
def continuing (s : HeldCall Output) (action : ExternalActionRow) (lease : LeasedJob)
    (mode : ContinuationMode) : Continuing Input Output :=
  let declaration := v.deployment.operation action.operationName
  { deployment := v.deployment
    declaration := declaration
    input := declaration.bind fun d => s.payload.bind d.validate
    action := action
    approval := s.approval
    lease := lease
    mode := mode
    now := v.now
    reconcile := v.reconcile }

variable (sha256 : ByteArray → ByteArray)

/-- From the invocation to the commit, with the call that a provider received. -/
def invoke (owner : Uuid) (c : Continuing Input Output) (d : Declaration Input Output)
    (input : Input) (destination : Destination) (t : HeldCall Output) :
    Ending Output × Option ProviderCall :=
  let call := if destination.mode = .provider then
      some ⟨d.executablePayload input, destination.destinationRef, v.now, v.lands⟩ else none
  if v.fault.isSome then (.raised, call)
  else
    match (c.conclude d input destination v.execute).exec t with
    | (.error _, _) => (.raised, call)
    | (.ok r, u) => (v.finish owner c.lease c.mode r u, call)

/-- One pass of `_run_continuation`: the continuation and its job write in one transaction. -/
def run (owner : Uuid) (lease : LeasedJob) (mode : ContinuationMode) (s : HeldCall Output) :
    Ending Output × Option ProviderCall :=
  if v.fault = some .beforeEffect then (.raised, none)
  else
    match if namesAction lease.payload s.ids.action then lockAndBind s lease.id owner else none with
    | none => (v.finish owner lease mode ⟨.failedTerminal, some "grant_refused"⟩ s, none)
    | some action =>
      let c := v.continuing s action lease mode
      match (c.prepare sha256 s.ids.action).exec s with
      | (.error _, _) => (.raised, none)
      | (.ok (.settled r), t) => (v.finish owner lease mode r t, none)
      | (.ok (.invoke d input destination), t) => v.invoke owner c d input destination t

end Visit

/-- Where a worker stands between two transactions. -/
inductive WorkerPhase where
  | running
  | raised
  | unapplied
  deriving DecidableEq

/-- A worker that has leased the job. -/
structure Worker where
  lease : LeasedJob
  mode : ContinuationMode
  phase : WorkerPhase

/-- The rows of a held call, what providers were asked to do, and the workers at its job. -/
structure CallState (Output : Type) where
  rows : HeldCall Output
  calls : List ProviderCall
  workers : Table Uuid Worker

/-- One transaction, or something that happens to a worker. -/
inductive CallAction (Input Output : Type) where
  | approve (deployment : Deployment Input Output) (viewer : Viewer)
      (expected : Option ByteArray) (now : ℕ) (jobId : Uuid)
      (handler : Input → HandlerAnswer Output)
  | refuse (deployment : Deployment Input Output) (viewer : Viewer)
      (expected : Option ByteArray) (now : ℕ)
  | resolve (deployment : Deployment Input Output) (given : ResolveInput Output)
  | erase (now : ℕ)
  /-- Someone rewrites the stored payload. -/
  | tamper (payload : Option Json)
  | requestCancellation (now : ℕ)
  | acquire (owner : Uuid) (now : ℕ)
  | visit (owner : Uuid) (v : Visit Input Output)
  /-- The requeue after a continuation that raised. -/
  | requeue (owner : Uuid) (now : ℕ) (jitter : Option ℕ) (error : String)
  /-- Whether the job is still this worker's and was cancelled meanwhile. -/
  | recheck (owner : Uuid)
  | crash (owner : Uuid)

namespace CallState

/-- The decision of a person: committed when it answers. -/
def decide (h : Handler (HeldCall Output) Unit) (s : CallState Output) : CallState Output :=
  { s with rows := (h.dispatch s.rows).2 }

/-- A write to the job that nobody waits for. -/
def writeJob (u : RowUpdate JobRow) (s : CallState Output) : CallState Output :=
  match s.rows.job with
  | none => s
  | some (id, _) => { s with rows := (s.rows.updateJob id u).getD s.rows }

/-- A worker takes the lease, and with it the row as it then is. -/
def acquire (owner : Uuid) (now : ℕ) (s : CallState Output) : Option (CallState Output) :=
  match s.workers.lookup owner, s.rows.job with
  | none, some (id, row) =>
    (s.rows.updateJob id (JobRow.acquireLease owner now leaseSeconds)).map fun rows =>
      let lease := ((JobRow.acquireLease owner now leaseSeconds).set row).toLeased id
      { s with
        rows := rows
        workers := s.workers.insert owner ⟨lease, continuationMode lease, .running⟩ }
  | _, _ => none

/-- Where the worker goes after its transaction. -/
def ended (owner : Uuid) (worker : Worker) (s : CallState Output)
    (result : Ending Output × Option ProviderCall) : CallState Output :=
  let calls := s.calls ++ result.2.toList
  match result.1 with
  | .committed rows => ⟨rows, calls, s.workers.erase owner⟩
  | .unapplied => ⟨s.rows, calls, s.workers.insert owner { worker with phase := .unapplied }⟩
  | .raised => ⟨s.rows, calls, s.workers.insert owner { worker with phase := .raised }⟩

/-- The requeue of a continuation that raised, if the job is still this worker's. -/
def requeue (owner : Uuid) (worker : Worker) (now : ℕ) (jitter : Option ℕ) (error : String)
    (s : CallState Output) : CallState Output :=
  match s.rows.updateJob worker.lease.id
      (JobRow.requeueForRetry owner (now + backoffFor worker.lease.attempts jitter) error) with
  | some rows => { s with rows := rows, workers := s.workers.erase owner }
  | none => { s with workers := s.workers.insert owner { worker with phase := .unapplied } }

/-- `_cancel_requested_and_ours`: one more pass in cancellation mode, or the end of the visit. -/
def recheck (owner : Uuid) (worker : Worker) (s : CallState Output) : CallState Output :=
  if worker.mode ≠ .cancelRequested ∧
      (s.rows.job.any fun (id, row) =>
        id = worker.lease.id && row.isHeld owner && row.cancelRequested) then
    { s with
      workers :=
        s.workers.insert owner { worker with mode := .cancelRequested, phase := .running } }
  else { s with workers := s.workers.erase owner }

/-- The worker, when it stands in this phase. -/
def worker (owner : Uuid) (phase : WorkerPhase) (s : CallState Output) : Option Worker :=
  (s.workers.lookup owner).filter (·.phase = phase)

variable (sha256 : ByteArray → ByteArray)

/-- One step under one action; `none` when the action is not enabled. -/
def step (s : CallState Output) : CallAction Input Output → Option (CallState Output)
  | .approve w viewer expected now jobId handler =>
    some (s.decide (approve sha256 w viewer expected now jobId handler))
  | .refuse w viewer expected now =>
    some (s.decide (refuse sha256 w viewer expected now))
  | .resolve w given => some (s.decide (resolveHandler w given))
  | .erase now => some { s with rows := s.rows.eraseDependents now }
  | .tamper payload => some { s with rows := { s.rows with payload := payload } }
  | .requestCancellation now => some (s.writeJob (JobRow.requestCancellation now))
  | .acquire owner now => s.acquire owner now
  | .visit owner v =>
    (s.worker owner .running).map fun worker =>
      s.ended owner worker (v.run sha256 owner worker.lease worker.mode s.rows)
  | .requeue owner now jitter error =>
    (s.worker owner .raised).map fun worker => s.requeue owner worker now jitter error
  | .recheck owner => (s.worker owner .unapplied).map fun worker => s.recheck owner worker
  | .crash owner => some { s with workers := s.workers.erase owner }

end CallState

section Machine

variable (sha256 : ByteArray → ByteArray)

/-- How a call comes to be held: held, staged, or brought back by a restore. A restore carries
the approval and the operation, and no staged action, reservation or job. -/
inductive Begins : HeldCall Output → Prop where
  | held {w : Deployment Input Output} {d : Declaration Input Output} {ids : CallIds}
      {input : Input} {now : ℕ} {s : HeldCall Output} :
      holdForApproval sha256 w d ids input now = some s → Begins s
  | staged {w : Deployment Input Output} {d : Declaration Input Output} {ids : CallIds}
      {input : Input} {request : CanonicalRequest} {retainedUntil now : ℕ} {s : HeldCall Output} :
      stageExternal sha256 w d ids input request retainedUntil now = some s → Begins s
  | restored {ids : CallIds} {approval : ApprovalRow} {payload : Option Json}
      {operation : OperationRow} :
      approval.state = .requiresReapproval → operation.isHeld = true →
      Begins ⟨ids, approval, payload, operation, none, none, none, []⟩

/-- One held call, with any number of workers. A later restore and `purge_expired` are not among
its steps. -/
def heldCallMachine (Input Output : Type) :
    Machine (CallState Output) (CallAction Input Output) where
  init s := @Begins Input Output sha256 s.rows ∧ s.calls = [] ∧ s.workers = ∅
  step s a := s.step sha256 a

end Machine

end Rheostream.Approvals
