import Rheostream.Foundation.Table
import Rheostream.Foundation.Values

/-!
# Job rows and their predicated writes

The `core.job` row and every write of `work/jobs.py`. A write answers the new row when
its predicate matches and `none` for a rowcount of zero. `JobWrite` names the writes, so
that what holds of all of them is proved once, by cases on the write.
-/

namespace Rheostream

/-- The five members of the `job_state` check constraint. -/
inductive JobState where
  | queued
  | leased
  | succeeded
  | failed
  | cancelled
deriving DecidableEq, Repr

namespace JobState

/-- `succeeded`, `failed` and `cancelled`. -/
def isTerminal : JobState → Bool
  | queued | leased => false
  | succeeded | failed | cancelled => true

end JobState

/-! ### The retry schedule

`work/backoff.py`: one schedule for jobs and deliveries, with additive jitter only. -/

/-- The five steps of the schedule, in seconds. -/
def backoffSeconds : List ℕ := [5, 20, 80, 320, 1280]

/-- What every attempt past the end of the schedule waits, in seconds. -/
def backoffCapSeconds : ℕ := 3600

/-- The bare step after `attempts`. Attempts below one are clamped to the first step. -/
def backoffBase (attempts : ℤ) : ℕ :=
  min (backoffSeconds.getD (max attempts 1 - 1).toNat backoffCapSeconds) backoffCapSeconds

/-- How long to wait before the attempt after `attempts`. The draw is what the jitter source
returned, which lies in `[0, 0.1 × base]`; `none` is the bare schedule. -/
def backoffFor (attempts : ℤ) (jitter : Option ℕ) : ℕ :=
  seconds (backoffBase attempts) + min (jitter.getD 0) (seconds (backoffBase attempts) / 10)

/-! ### Rows -/

/-- The continuation kind that performs one approved external action. -/
def externalActionExecute : String := "core.external_action.execute"

/-- A `core.job` row. -/
structure JobRow where
  kind : String
  state : JobState
  input : Json
  operationId : Option Uuid
  attempts : ℤ
  maxAttempts : ℕ
  nextRunAt : ℕ
  leaseOwner : Option Uuid
  leaseUntil : Option ℕ
  cancelRequested : Bool
  lastError : Option String
  createdAt : ℕ
  finishedAt : Option ℕ

/-- A workspace's jobs. -/
abbrev Jobs := Table Uuid JobRow

/-- The row `acquire_lease` just took, as the worker needs to see it. -/
structure LeasedJob where
  id : Uuid
  kind : String
  payload : Json
  attempts : ℤ
  maxAttempts : ℕ
  cancelRequested : Bool
  operationId : Option Uuid

namespace JobRow

/-- What the acquiring statement returns of the row it wrote. -/
def toLeased (id : Uuid) (row : JobRow) : LeasedJob where
  id := id
  kind := row.kind
  payload := row.input
  attempts := row.attempts
  maxAttempts := row.maxAttempts
  cancelRequested := row.cancelRequested
  operationId := row.operationId

/-- Whether the row is a continuation, which owns its own cancellation settlement. -/
def isContinuation (row : JobRow) : Bool := row.kind = externalActionExecute

/-- The predicate every terminal and requeue write shares. -/
def isHeld (owner : Uuid) (row : JobRow) : Bool :=
  row.leaseOwner = some owner && row.state = .leased

/-- `isHeld` with `AND cancel_requested = false`. -/
def isHeldUnflagged (owner : Uuid) (row : JobRow) : Bool :=
  row.isHeld owner && !row.cancelRequested

theorem isHeld_iff {owner : Uuid} {row : JobRow} :
    row.isHeld owner = true ↔ row.leaseOwner = some owner ∧ row.state = .leased := by
  simp [isHeld]

theorem isHeldUnflagged_iff {owner : Uuid} {row : JobRow} :
    row.isHeldUnflagged owner = true ↔
      row.leaseOwner = some owner ∧ row.state = .leased ∧ row.cancelRequested = false := by
  simp [isHeldUnflagged, isHeld_iff, and_assoc]

/-- Due to be leased: queued and due, or under a lease that has run out. -/
def isDue (now : ℕ) (row : JobRow) : Bool :=
  (row.state = .queued && row.nextRunAt ≤ now) ||
    (row.state = .leased && row.leaseUntil.any (· < now))

theorem isDue_iff {now : ℕ} {row : JobRow} :
    row.isDue now = true ↔ row.state = .queued ∧ row.nextRunAt ≤ now ∨
      row.state = .leased ∧ ∃ until_, row.leaseUntil = some until_ ∧ until_ < now := by
  simp [isDue, Option.any_eq_true]

/-- The row `enqueue_job` inserts. -/
def enqueued (kind : String) (payload : Json) (now : ℕ) (maxAttempts : ℕ)
    (dueAt : ℕ) (operationId : Option Uuid) : JobRow where
  kind := kind
  state := .queued
  input := payload
  operationId := operationId
  attempts := 0
  maxAttempts := maxAttempts
  nextRunAt := dueAt
  leaseOwner := none
  leaseUntil := none
  cancelRequested := false
  lastError := none
  createdAt := now
  finishedAt := none

/-- Lease a due row. The attempt is counted here and nowhere else, and not against a row
whose cancellation landed while its previous owner was running. -/
def acquireLease (owner : Uuid) (now : ℕ) (leaseSeconds : ℕ) : RowUpdate JobRow where
  guard := (isDue now)
  set row :=
    { row with
      state := .leased
      leaseOwner := some owner
      leaseUntil := some (now + seconds leaseSeconds)
      attempts := if row.cancelRequested then row.attempts else row.attempts + 1 }

/-- Push `leaseUntil` out while the handler runs. The flag is read from the new row. -/
def extendLease (owner : Uuid) (now : ℕ) (leaseSeconds : ℕ) : RowUpdate JobRow where
  guard := (isHeld owner)
  set row :=
    { row with leaseUntil := some (now + seconds leaseSeconds) }

/-- End the job `succeeded`. -/
def finishSucceeded (owner : Uuid) (now : ℕ) : RowUpdate JobRow where
  guard := (isHeldUnflagged owner)
  set row :=
    { row with
      state := .succeeded
      finishedAt := some now
      leaseOwner := none
      leaseUntil := none
      lastError := none }

/-- End the job `failed` with `error`. -/
def finishFailed (owner : Uuid) (now : ℕ) (error : String) : RowUpdate JobRow where
  guard := (isHeldUnflagged owner)
  set row :=
    { row with
      state := .failed
      finishedAt := some now
      leaseOwner := none
      leaseUntil := none
      lastError := some error }

/-- The two states in which a continuation may end on ownership alone. -/
abbrev OwnedFinish := { state : JobState // state = .succeeded ∨ state = .failed }

/-- End a continuation leased in cancellation mode, on ownership alone. -/
def finishOwned (owner : Uuid) (now : ℕ) (outcome : OwnedFinish) (error : Option String) :
    RowUpdate JobRow where
  guard := (isHeld owner)
  set row :=
    { row with
      state := outcome.val
      finishedAt := some now
      leaseOwner := none
      leaseUntil := none
      lastError := error }

/-- End the job `cancelled`. The one terminal write of an ordinary job with no
`cancel_requested` predicate, and the one that keeps `lastError`. -/
def finishCancelled (owner : Uuid) (now : ℕ) : RowUpdate JobRow where
  guard := (isHeld owner)
  set row :=
    { row with
      state := .cancelled
      finishedAt := some now
      leaseOwner := none
      leaseUntil := none }

/-- Put the job back on the queue at `nextRunAt`. -/
def requeueForRetry (owner : Uuid) (nextRunAt : ℕ) (error : String) : RowUpdate JobRow where
  guard := (isHeldUnflagged owner)
  set row :=
    { row with
      state := .queued
      nextRunAt := nextRunAt
      leaseOwner := none
      leaseUntil := none
      lastError := some error }

/-- Return an unexecuted lease, refunding its attempt and retaining failures. -/
def deferUnreadyJob (owner : Uuid) (nextRunAt : ℕ) : RowUpdate JobRow where
  guard := (isHeldUnflagged owner)
  set row :=
    { row with
      state := .queued
      attempts := row.attempts - 1
      nextRunAt := nextRunAt
      leaseOwner := none
      leaseUntil := none }

/-- Ask for the job to be cancelled. An ordinary queued row ends here; a leased row is
only flagged; a queued continuation is flagged and made due. -/
def requestCancellation (now : ℕ) : RowUpdate JobRow where
  guard := (fun row => row.state = .queued || row.state = .leased)
  set row :=
    { row with
      state := if row.state = .queued && !row.isContinuation then .cancelled else row.state
      finishedAt :=
        if row.state = .queued && !row.isContinuation then some now else row.finishedAt
      nextRunAt := if row.state = .queued && row.isContinuation then now else row.nextRunAt
      cancelRequested := true }

theorem requestCancellation_guard_iff {now : ℕ} {row : JobRow} :
    (requestCancellation now).guard row = true ↔ row.state = .queued ∨ row.state = .leased := by
  simp [requestCancellation]

end JobRow

/-- The insert of `enqueue_job`. With `dedupe`, a queued row of the same kind at the same
due instant suppresses it. The answer says whether a row was inserted. -/
def enqueueJob (jobs : Jobs) (id : Uuid) (kind : String) (payload : Json) (now : ℕ)
    (maxAttempts : ℕ) (nextRunAt : Option ℕ) (operationId : Option Uuid)
    (dedupe : Bool) : Jobs × Bool :=
  let dueAt := nextRunAt.getD now
  if dedupe && jobs.existsRow fun _ row =>
      row.kind = kind && row.state = .queued && row.nextRunAt = dueAt then
    (jobs, false)
  else
    (jobs.insert id (.enqueued kind payload now maxAttempts dueAt operationId), true)

/-- The predicated writes of the job repository. -/
inductive JobWrite where
  | acquireLease (owner : Uuid) (now : ℕ) (leaseSeconds : ℕ)
  | extendLease (owner : Uuid) (now : ℕ) (leaseSeconds : ℕ)
  | finishSucceeded (owner : Uuid) (now : ℕ)
  | finishFailed (owner : Uuid) (now : ℕ) (error : String)
  | finishOwned (owner : Uuid) (now : ℕ) (outcome : JobRow.OwnedFinish)
      (error : Option String)
  | finishCancelled (owner : Uuid) (now : ℕ)
  | requeueForRetry (owner : Uuid) (nextRunAt : ℕ) (error : String)
  | deferUnreadyJob (owner : Uuid) (nextRunAt : ℕ)
  | requestCancellation (now : ℕ)

namespace JobWrite

/-- What a write does to the row it is issued against. -/
def update : JobWrite → RowUpdate JobRow
  | acquireLease owner now leaseSeconds => JobRow.acquireLease owner now leaseSeconds
  | extendLease owner now leaseSeconds => JobRow.extendLease owner now leaseSeconds
  | finishSucceeded owner now => JobRow.finishSucceeded owner now
  | finishFailed owner now error => JobRow.finishFailed owner now error
  | finishOwned owner now outcome error => JobRow.finishOwned owner now outcome error
  | finishCancelled owner now => JobRow.finishCancelled owner now
  | requeueForRetry owner nextRunAt error => JobRow.requeueForRetry owner nextRunAt error
  | deferUnreadyJob owner nextRunAt => JobRow.deferUnreadyJob owner nextRunAt
  | requestCancellation now => JobRow.requestCancellation now

/-- The rows a write matches. -/
abbrev guard (w : JobWrite) : JobRow → Bool := w.update.guard

/-- The row a write leaves. -/
abbrev set (w : JobWrite) : JobRow → JobRow := w.update.set

/-- No write changes what a job is: its kind, input, record or budget. -/
theorem set_identity (w : JobWrite) (row : JobRow) :
    (w.set row).kind = row.kind ∧ (w.set row).input = row.input ∧
      (w.set row).operationId = row.operationId ∧
      (w.set row).maxAttempts = row.maxAttempts := by
  cases w <;> exact ⟨rfl, rfl, rfl, rfl⟩

/-- No write clears a cancellation flag. -/
theorem set_flag (w : JobWrite) (row : JobRow) (hflag : row.cancelRequested = true) :
    (w.set row).cancelRequested = true := by
  cases w <;> first | exact hflag | rfl

/-- A write matches only rows that have not ended. -/
theorem guard_unfinished {w : JobWrite} {row : JobRow} (h : w.guard row = true) :
    row.state = .queued ∨ row.state = .leased := by
  cases w with
  | acquireLease => exact (JobRow.isDue_iff.mp h).imp And.left And.left
  | extendLease | finishOwned | finishCancelled => exact .inr (JobRow.isHeld_iff.mp h).2
  | finishSucceeded | finishFailed | requeueForRetry | deferUnreadyJob =>
    exact .inr (JobRow.isHeldUnflagged_iff.mp h).2.1
  | requestCancellation => exact JobRow.requestCancellation_guard_iff.mp h

/-- Whatever a write leaves queued of an ordinary job is not flagged: the two writes that
requeue carry the flag in their predicate, and a request ends a queued row. -/
theorem set_queued {w : JobWrite} {row : JobRow} (h : w.guard row = true)
    (hordinary : row.isContinuation = false) (hqueued : (w.set row).state = .queued) :
    (w.set row).cancelRequested = false := by
  cases w with
  | extendLease =>
    exact absurd (hqueued.symm.trans (JobRow.isHeld_iff.mp h).2) (by decide)
  | finishOwned _ _ outcome =>
    rcases outcome with ⟨_, rfl | rfl⟩ <;> cases hqueued
  | acquireLease | finishSucceeded | finishFailed | finishCancelled => cases hqueued
  | requeueForRetry | deferUnreadyJob => exact (JobRow.isHeldUnflagged_iff.mp h).2.2
  | requestCancellation =>
    rcases JobRow.requestCancellation_guard_iff.mp h with hstate | hstate <;>
      simp [JobWrite.set, JobRow.requestCancellation, update, hstate, hordinary] at hqueued

end JobWrite

end Rheostream
