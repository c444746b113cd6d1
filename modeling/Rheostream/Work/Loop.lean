import Mathlib.Logic.Function.Basic
import Rheostream.Foundation.Machine
import Rheostream.Operations.Records
import Rheostream.Work.Jobs

/-!
# The job half of the worker loop

`work/loop.py` as a machine over one workspace's job rows, its operation records and any
number of workers. A worker is named by the owner it leases under and does one thing at a
time; its phase says where it stands between two of its transactions. Each action is one
committed transaction, one thing a handler does, or a worker ending its visit. The clock
is read afresh by every action and may answer anything, so time may advance, stand still
or differ between workers.
-/

namespace Rheostream

/-- The lease length, in seconds. -/
def leaseSeconds : ℕ := 60

/-- What a deferral of unready work waits, in seconds. -/
def deferSeconds : ℕ := 60

/-- The pre-handler budget gate's error text. -/
def retryBudgetExhausted : String :=
  "retry budget exhausted: lease expired without a recorded outcome"

/-- The error code of every record that a failing job ends. -/
def jobFailed : String := "job_failed"

/-- `kind → (input model, handler)`: the text of the refusal for an unknown kind, or the
input model's validation. -/
structure JobKindRegistry where
  kinds : String → Option (Json → Except String Unit)

/-- The validation for `kind`, or the text of `JobKindUnknown`. A kind is a dotted name,
whose `repr` is the name between single quotes. -/
def JobKindRegistry.lookup (registry : JobKindRegistry) (kind : String) :
    Except String (Json → Except String Unit) :=
  match registry.kinds kind with
  | none => .error ("no handler is registered for job kind '" ++ kind ++ "'")
  | some validate => .ok validate

/-- Where a leased job goes before its handler is entered. -/
inductive Gate where
  | continuation
  | cancel
  | exhausted
  | failTerminally (error : String)
  | enter

/-- The two pre-handler gates, in their order, then the kind and its payload. -/
def runLeasedJob (registry : JobKindRegistry) (leased : LeasedJob) : Gate :=
  if leased.kind = externalActionExecute then .continuation
  else if leased.cancelRequested then .cancel
  else if leased.attempts > leased.maxAttempts then .exhausted
  else match registry.lookup leased.kind with
    | .error error => .failTerminally error
    | .ok validate =>
      match validate leased.payload with
      | .error detail => .failTerminally
          ("job kind '" ++ leased.kind ++ "' rejected its stored input: " ++ detail)
      | .ok () => .enter

/-- Why the loop is running a continuation kind this time. -/
inductive ContinuationMode where
  | run
  | cancelRequested
  | budgetExhaustedRecovery
deriving DecidableEq, Repr

/-- The closed set a continuation returns. -/
inductive ContinuationDisposition where
  | succeeded
  | handledTerminal
  | retry
  | failedTerminal
  | cancelledTerminal
deriving DecidableEq, Repr

/-- A disposition and the short text the job row records with it. -/
structure ContinuationResult where
  disposition : ContinuationDisposition
  detail : Option String

/-- Cancellation wins over exhaustion, as it does for the generic gates. -/
def continuationMode (leased : LeasedJob) : ContinuationMode :=
  if leased.cancelRequested then .cancelRequested
  else if leased.attempts > leased.maxAttempts then .budgetExhaustedRecovery
  else .run

/-- The one job write a disposition maps to, or `none` where the code answers that nothing
applied without issuing a statement. -/
def finishContinuationJob (leased : LeasedJob) (owner : Uuid) (mode : ContinuationMode)
    (result : ContinuationResult) (now : ℕ) (jitter : Option ℕ) : Option JobWrite :=
  match result.disposition with
  | .cancelledTerminal => some (.finishCancelled owner now)
  | .retry =>
    if mode = .cancelRequested then none
    else some (.requeueForRetry owner (now + backoffFor leased.attempts jitter)
      (result.detail.getD "external continuation retry"))
  | .failedTerminal =>
    if mode = .cancelRequested then
      some (.finishOwned owner now ⟨.failed, .inr rfl⟩ result.detail)
    else some (.finishFailed owner now (result.detail.getD "external continuation failed"))
  | .succeeded | .handledTerminal =>
    if mode = .cancelRequested then
      some (.finishOwned owner now ⟨.succeeded, .inl rfl⟩ none)
    else some (.finishSucceeded owner now)

/-- What the worker knows of an attempt that did not return: the work transaction is rolled
back and the outcome not yet written. `entered` says whether the handler was reached. -/
inductive Failure where
  | notReady (entered : Bool)
  | raised (error : String)

/-- Where a worker stands between two transactions. -/
inductive Phase where
  /-- Holding nothing in hand. A lease it took earlier may still name it. -/
  | idle
  /-- Leased, before the gates. -/
  | leased (job : LeasedJob)
  /-- Inside the handler, its transaction open. -/
  | running (job : LeasedJob)
  /-- The handler raised and its transaction is rolled back. -/
  | failing (job : LeasedJob) (failure : Failure)
  /-- About to re-read the row of a finish that did not apply. -/
  | stopped (job : LeasedJob)

/-- The lease a worker has in hand. -/
def Phase.job? : Phase → Option LeasedJob
  | idle => none
  | leased job | running job | failing job _ | stopped job => some job

/-- What the history of a run records of its handlers. -/
inductive JobEvent where
  /-- The handler of the job was entered on this attempt. -/
  | entered (job : Uuid) (attempt : ℤ)
  /-- That entry ended in a deferral of an unready module. -/
  | deferred (job : Uuid) (attempt : ℤ)
  /-- The handler's transaction committed. -/
  | committed (job : Uuid)
deriving DecidableEq

/-- The state of one workspace's jobs. The history is a ghost: no step reads it. -/
structure LoopState where
  jobs : Jobs
  operations : Operations
  workers : Uuid → Phase
  history : List JobEvent

namespace LoopState

/-- The worker's next phase. -/
def goto (s : LoopState) (owner : Uuid) (phase : Phase) : LoopState :=
  { s with workers := Function.update s.workers owner phase }

/-- The record half of a paired terminal write. Its own rowcount does not matter: a record
that is already terminal is left as it was. -/
def withOperation (s : LoopState) (operationId : Option Uuid)
    (operationWrite : Option (RowUpdate OperationRow)) : Operations :=
  match operationId, operationWrite with
  | some id, some write => (s.operations.updateRow id write).getD s.operations
  | _, _ => s.operations

/-- One job write in a transaction of its own, paired with its record's when it carries one.
Where the write matches nothing, nothing is written and the worker goes to `missed`. -/
def finishAlone (s : LoopState) (owner : Uuid) (leased : LeasedJob) (write : JobWrite)
    (operationWrite : Option (RowUpdate OperationRow)) (missed : Phase)
    (events : List JobEvent) : LoopState :=
  match s.jobs.updateRow leased.id write.update with
  | none => s.goto owner missed
  | some jobs =>
    { jobs := jobs
      operations := s.withOperation leased.operationId operationWrite
      workers := Function.update s.workers owner .idle
      history := events ++ s.history }

/-- How often the job's handler effects have committed. -/
def effects (s : LoopState) (job : Uuid) : ℕ := s.history.count (.committed job)

end LoopState

/-- One step of the system: a transaction, a handler's move, or a visit's end. -/
inductive LoopAction where
  /-- The dispatcher mints a record. -/
  | mint (id : Uuid) (name : String) (now : ℕ)
  /-- A record moves to `running`. -/
  | markRunning (id : Uuid) (now : ℕ)
  /-- Whatever else is written to a record that no job carries. -/
  | writeRecord (id : Uuid) (row : OperationRow)
  | enqueue (id : Uuid) (kind : String) (payload : Json) (now : ℕ) (maxAttempts : ℕ)
      (nextRunAt : Option ℕ) (operationId : Option Uuid) (dedupe : Bool)
  | acquire (owner id : Uuid) (now : ℕ)
  /-- The gates and what they lead to. `ready` is what `require_ready` answers. -/
  | visit (owner : Uuid) (now clock : ℕ) (ready : Bool)
  /-- The handler's heartbeat, in a short transaction of its own. -/
  | checkpoint (owner : Uuid) (now : ℕ)
  | handlerReturns (owner : Uuid) (now finishedAt : ℕ)
  /-- The handler lets `JobCancelled` or `JobLeaseLost` through. -/
  | handlerStops (owner : Uuid)
  /-- The handler raises; `none` is `ModuleNotReady`. -/
  | handlerRaises (owner : Uuid) (error : Option String)
  | writeFailureOutcome (owner : Uuid) (now : ℕ) (jitter : Option ℕ)
  | resolveZeroRowcount (owner : Uuid) (now : ℕ)
  /-- A continuation's settlement and its job write. -/
  | continuation (owner : Uuid) (mode : ContinuationMode) (result : ContinuationResult)
      (now : ℕ) (jitter : Option ℕ)
  /-- A continuation raised: rolled back and requeued. -/
  | continuationRaises (owner : Uuid) (now : ℕ) (jitter : Option ℕ) (error : String)
  | requestCancellation (id : Uuid) (now : ℕ)
  /-- The worker dies, or its visit ends by an exception, between two transactions. -/
  | crash (owner : Uuid)

namespace LoopState

variable (kinds : Uuid → JobKindRegistry)

/-- The visit of a leased job, up to its first write or its handler. -/
def visit (s : LoopState) (owner : Uuid) (job : LeasedJob) (now clock : ℕ)
    (ready : Bool) : Option LoopState :=
  match runLeasedJob (kinds owner) job with
  | .continuation => none
  | .cancel => some <| s.finishAlone owner job (.finishCancelled owner now)
      (some (OperationRow.finishCancelled now)) .idle []
  | .exhausted => some <| s.finishAlone owner job (.finishFailed owner now retryBudgetExhausted)
      (some (OperationRow.finishFailed now jobFailed retryBudgetExhausted)) .idle []
  | .failTerminally error =>
    if ready then
      some <| s.finishAlone owner job (.finishFailed owner now error)
        (some (OperationRow.finishFailed now jobFailed error)) (.stopped job) []
    else
      some <| s.finishAlone owner job (.deferUnreadyJob owner (clock + seconds deferSeconds))
        none (.stopped job) []
  | .enter =>
    if ready then
      some { s.goto owner (.running job) with
        history := .entered job.id job.attempts :: s.history }
    else some (s.goto owner (.failing job (.notReady false)))

/-- The write after a handler that did not return: a deferral, a retry, or the end. -/
def writeFailureOutcome (s : LoopState) (owner : Uuid) (job : LeasedJob) (failure : Failure)
    (now : ℕ) (jitter : Option ℕ) : LoopState :=
  match failure with
  | .notReady entered =>
    s.finishAlone owner job (.deferUnreadyJob owner (now + seconds deferSeconds)) none
      (.stopped job) (if entered then [.deferred job.id job.attempts] else [])
  | .raised error =>
    if job.attempts ≥ job.maxAttempts then
      s.finishAlone owner job (.finishFailed owner now error)
        (some (OperationRow.finishFailed now jobFailed error)) (.stopped job) []
    else
      s.finishAlone owner job
        (.requeueForRetry owner (now + backoffFor job.attempts jitter) error) none
        (.stopped job) []

/-- The one zero-rowcount branch all four finishes fall into. -/
def resolveZeroRowcount (s : LoopState) (owner : Uuid) (job : LeasedJob) (now : ℕ) :
    LoopState :=
  if (s.jobs.lookup job.id).any fun row => row.isHeld owner && row.cancelRequested then
    s.finishAlone owner job (.finishCancelled owner now)
      (some (OperationRow.finishCancelled now)) .idle []
  else s.goto owner .idle

/-- `request_cancellation`: the write, and the record of a row that it ended. -/
def requestCancellation (s : LoopState) (id : Uuid) (now : ℕ) : LoopState :=
  match s.jobs.lookup id, s.jobs.updateRow id (JobRow.requestCancellation now) with
  | some row, some jobs =>
    { s with
      jobs := jobs
      operations := s.withOperation row.operationId
        (if ((JobRow.requestCancellation now).set row).state = .cancelled then
          some (OperationRow.finishCancelled now) else none) }
  | _, _ => s

/-- No job carries the record. -/
def unclaimed (s : LoopState) (operationId : Uuid) : Bool :=
  !s.jobs.existsRow fun _ row => row.operationId = some operationId

/-- A record may be stamped on a job while it is open: the dispatcher hands a handler the
record it has just minted, and no other. -/
def mayCarry (s : LoopState) (operationId : Option Uuid) : Bool :=
  operationId.all fun id => (s.operations.lookup id).any OperationRow.isOpen

/-- One step under one action; `none` when the action is not enabled. -/
def step (s : LoopState) : LoopAction → Option LoopState
  | .mint id name now =>
    if (s.operations.lookup id).isNone then
      some { s with operations := s.operations.insert id (.mint name now) }
    else none
  | .markRunning id now =>
    (s.operations.updateRow id (OperationRow.markRunning now)).map fun operations =>
      { s with operations := operations }
  | .writeRecord id row =>
    if s.unclaimed id then some { s with operations := s.operations.insert id row } else none
  | .enqueue id kind payload now maxAttempts nextRunAt operationId dedupe =>
    if (s.jobs.lookup id).isNone && s.mayCarry operationId then
      some { s with
        jobs := (enqueueJob s.jobs id kind payload now maxAttempts nextRunAt operationId
          dedupe).1 }
    else none
  | .acquire owner id now =>
    match s.workers owner, s.jobs.lookup id with
    | .idle, some row =>
      (s.jobs.updateRow id (JobRow.acquireLease owner now leaseSeconds)).map fun jobs =>
        { s.goto owner (.leased
            (((JobRow.acquireLease owner now leaseSeconds).set row).toLeased id)) with
          jobs := jobs }
    | _, _ => none
  | .visit owner now clock ready =>
    match s.workers owner with
    | .leased job => s.visit kinds owner job now clock ready
    | _ => none
  | .checkpoint owner now =>
    match s.workers owner with
    | .running job =>
      (s.jobs.updateRow job.id (JobRow.extendLease owner now leaseSeconds)).map fun jobs =>
        { s with jobs := jobs }
    | _ => none
  | .handlerReturns owner now finishedAt =>
    match s.workers owner with
    | .running job => some <| s.finishAlone owner job (.finishSucceeded owner now)
        (some (OperationRow.finishSucceeded finishedAt .handlerReturned finishedAt none))
        (.stopped job) [.committed job.id]
    | _ => none
  | .handlerStops owner =>
    match s.workers owner with
    | .running job => some (s.goto owner (.stopped job))
    | _ => none
  | .handlerRaises owner error =>
    match s.workers owner with
    | .running job => some <| s.goto owner <| .failing job <|
        match error with
        | none => .notReady true
        | some error => .raised error
    | _ => none
  | .writeFailureOutcome owner now jitter =>
    match s.workers owner with
    | .failing job failure => some (s.writeFailureOutcome owner job failure now jitter)
    | _ => none
  | .resolveZeroRowcount owner now =>
    match s.workers owner with
    | .stopped job => some (s.resolveZeroRowcount owner job now)
    | _ => none
  | .continuation owner mode result now jitter =>
    match s.workers owner with
    | .leased job =>
      if job.kind = externalActionExecute then
        (finishContinuationJob job owner mode result now jitter).map fun write =>
          s.finishAlone owner job write none (.leased job) []
      else none
    | _ => none
  | .continuationRaises owner now jitter error =>
    match s.workers owner with
    | .leased job =>
      if job.kind = externalActionExecute then
        some <| s.finishAlone owner job
          (.requeueForRetry owner (now + backoffFor job.attempts jitter) error) none
          (.leased job) []
      else none
    | _ => none
  | .requestCancellation id now => some (s.requestCancellation id now)
  | .crash owner => some (s.goto owner .idle)

end LoopState

/-- One workspace's jobs from an empty database, with each worker's own registry. -/
def jobLoop (kinds : Uuid → JobKindRegistry) : Machine LoopState LoopAction where
  init s := s = ⟨∅, ∅, fun _ => .idle, []⟩
  step s a := s.step kinds a

end Rheostream
