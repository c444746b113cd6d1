import Rheostream.Work.Loop

/-!
# Schedules and the catch-up sweep

`work/schedules.py` and `work/scheduled_authority.py` beside the job loop. A visit opens with
one transaction that reads the due schedules and enqueues their jobs; the catch-up kind is
claimed there under a row lock taken with `SKIP LOCKED`, and not enqueued beside an unfinished
job of its kind. The sweep's handler holds the same lock while it runs and may ask for its
next run. Both are open transactions: their locks are seen at once, their writes at commit.
-/

namespace Rheostream

/-- The one scheduled kind whose row is locked, coalesced and rearmed. -/
def catchUpJobKind : String := "recallatron.retention_sweep"

/-- How far a due row advances unless its declaration says otherwise. -/
def day : ℕ := seconds 86400

/-- How far past a batch's finish the next batch is asked for. -/
def catchUpGap : ℕ := seconds 1

/-- A `core.schedule` row. -/
structure ScheduleRow where
  moduleId : String
  name : String
  jobKind : String
  enabled : Bool
  lastRunAt : Option ℕ
  nextRunAt : ℕ

/-- A workspace's schedules. -/
abbrev Schedules := Table Uuid ScheduleRow

/-- A schedule as its module's manifest declares it. -/
structure ScheduleDeclaration where
  moduleId : String
  name : String
  jobKind : String
  enabledByDefault : Bool
  intervalSeconds : Option ℕ
  gateSetting : Option String
deriving DecidableEq

/-- The declaration of the catch-up sweep. -/
def memoryRetentionSweep : ScheduleDeclaration where
  moduleId := "recallatron"
  name := "memory_retention_sweep"
  jobKind := catchUpJobKind
  enabledByDefault := true
  intervalSeconds := none
  gateSetting := none

/-- The schedules the loaded manifests declare. `check_schedules` refuses an interval that is
not positive, and nothing but the sweep has the sweep's kind or its name. -/
structure Declarations where
  schedules : List ScheduleDeclaration
  interval_pos : ∀ d ∈ schedules, ∀ interval ∈ d.intervalSeconds, 0 < interval
  sweep : ∀ d ∈ schedules, d.jobKind = catchUpJobKind ∨
    d.moduleId = memoryRetentionSweep.moduleId ∧ d.name = memoryRetentionSweep.name →
      d = memoryRetentionSweep

/-- `_declared_schedule`. -/
def Declarations.find (declared : Declarations) (row : ScheduleRow) : Option ScheduleDeclaration :=
  declared.schedules.find? fun d => d.moduleId = row.moduleId && d.name = row.name

/-- The interval a due row advances by. -/
def Declarations.interval (declared : Declarations) (row : ScheduleRow) : ℕ :=
  match (declared.find row).bind ScheduleDeclaration.intervalSeconds with
  | none => day
  | some interval => seconds interval

/-- Whether the row's declaration names a gate at all. -/
def Declarations.isGated (declared : Declarations) (row : ScheduleRow) : Bool :=
  ((declared.find row).bind ScheduleDeclaration.gateSetting).isSome

/-- Enabled and due. -/
def ScheduleRow.isDue (now : ℕ) (row : ScheduleRow) : Bool := row.enabled && row.nextRunAt ≤ now

/-- Queued or leased: work that will run. -/
def JobRow.isUnfinished (row : JobRow) : Bool := !row.state.isTerminal

/-- `_unfinished_job_exists`. -/
def unfinishedJobExists (jobs : Jobs) (kind : String) : Bool :=
  jobs.existsRow fun _ row => row.kind = kind && row.isUnfinished

/-- `_single_enabled_schedule`: none for no row and none for more than one. -/
def singleEnabledSchedule (schedules : Schedules) (kind : String) : Option (Uuid × ScheduleRow) :=
  match schedules.entries.filter fun e => e.2.enabled && e.2.jobKind = kind with
  | [e] => some (e.1, e.2)
  | _ => none

/-- What one due row leads to: the job it enqueues, unless a closed gate skips the run, and
the instant it advances to. -/
structure TickWrite where
  schedule : Uuid
  job : Option (Uuid × String)
  nextRunAt : ℕ

/-- The open transaction of `run_due_schedules`. -/
structure Tick where
  now : ℕ
  /-- `work.max_attempts`, read once. -/
  budget : ℕ
  /-- The due rows of the outer read that are still to be visited. -/
  remaining : List Uuid
  /-- The catch-up row just locked, before the look for an unfinished job. -/
  claimed : Option Uuid
  writes : List TickWrite

/-- The open transaction of a catch-up job's handler. -/
inductive SweepRun where
  /-- Before the capability is minted. -/
  | entered
  /-- Every fact of the capability was read; the schedule row is still to be locked. -/
  | locking (schedule : Uuid)
  /-- In the handler, with the capability's schedule if there is one and the rearm it wrote. -/
  | running (schedule : Option Uuid) (finishedAt : Option ℕ)

/-- The transaction a row lock belongs to, by the worker that opened it. -/
inductive LockHolder where
  | tick (owner : Uuid)
  | sweep (owner : Uuid)
deriving DecidableEq

structure CatchUpState where
  loop : LoopState
  schedules : Schedules
  /-- The modules that are enabled. -/
  modules : String → Bool
  ticks : Uuid → Option Tick
  sweeps : Uuid → Option SweepRun
  locks : Uuid → Option LockHolder

namespace CatchUpState

/-- End a transaction: its row locks go with it. -/
def release (s : CatchUpState) (holder : LockHolder) : CatchUpState :=
  { s with locks := fun id => if s.locks id = some holder then none else s.locks id }

def setTick (s : CatchUpState) (owner : Uuid) (tick : Option Tick) : CatchUpState :=
  { s with ticks := Function.update s.ticks owner tick }

def setSweep (s : CatchUpState) (owner : Uuid) (sweep : Option SweepRun) : CatchUpState :=
  { s with sweeps := Function.update s.sweeps owner sweep }

def lock (s : CatchUpState) (id : Uuid) (holder : LockHolder) : CatchUpState :=
  { s with locks := Function.update s.locks id (some holder) }

end CatchUpState

inductive CatchUpAction where
  /-- A step of the job loop. -/
  | loop (a : LoopAction)
  /-- `insert_schedule_if_absent`, under the lock of the module's row. -/
  | insertSchedule (id : Uuid) (declared : ScheduleDeclaration) (dueAt : ℕ)
  /-- A member turns a schedule on or off, and may say when it is due. -/
  | setEnabled (id : Uuid) (enabled : Bool) (dueAt : Option ℕ)
  | setModule (moduleId : String) (enabled : Bool)
  /-- A visit begins: the unlocked outer read. -/
  | tickOpen (owner : Uuid) (now budget : ℕ)
  /-- The next row of the loop: claim a catch-up row, write any other. -/
  | tickRow (owner job : Uuid) (gateOpen : Bool)
  /-- The look for an unfinished job of a claimed row, and the writes when there is none. -/
  | tickCheck (owner job : Uuid) (gateOpen : Bool)
  | tickCommit (owner : Uuid)
  /-- `verified_execution_for` up to its lock. `routed` is what the control plane answers. -/
  | mint (owner : Uuid) (routed : Bool)
  /-- `_hold_catch_up_row`, once the row is free. -/
  | hold (owner : Uuid)
  /-- `rearm_catch_up_schedule` with the view's own capability. -/
  | rearm (owner : Uuid) (finishedAt : ℕ)

namespace CatchUpState

variable (kinds : Uuid → JobKindRegistry) (declared : Declarations) (workspaceId : String)

/-- The rest of the loop body for a row that is to be run: skip the enqueue at a closed gate,
advance the row either way. -/
def tickWrite (tick : Tick) (id : Uuid) (row : ScheduleRow) (job : Uuid) (gateOpen : Bool) :
    TickWrite where
  schedule := id
  job := if declared.isGated row && !gateOpen then none else some (job, row.jobKind)
  nextRunAt := tick.now + declared.interval row

/-- The job id is not in use by a row this transaction can see. -/
def freshJob (s : CatchUpState) (tick : Tick) (job : Uuid) : Bool :=
  (s.loop.jobs.lookup job).isNone &&
    tick.writes.all fun w => w.job.all fun enqueued => enqueued.1 ≠ job

def tickRow (s : CatchUpState) (owner : Uuid) (tick : Tick) (job : Uuid) (gateOpen : Bool) :
    Option CatchUpState :=
  match tick.remaining with
  | [] => none
  | id :: remaining =>
    match s.schedules.lookup id with
    | none => none
    | some row =>
      if row.jobKind = catchUpJobKind then
        -- `_claim_catch_up_row`: locked by another transaction, or no longer due.
        if (s.locks id).isSome || !row.isDue tick.now then
          some (s.setTick owner (some { tick with remaining := remaining }))
        else
          some ((s.lock id (.tick owner)).setTick owner
            (some { tick with remaining := remaining, claimed := some id }))
      else if s.freshJob tick job then
        some (s.setTick owner (some { tick with
          remaining := remaining
          writes := tick.writes ++ [tickWrite declared tick id row job gateOpen] }))
      else none

/-- An unfinished job of the kind, among the committed rows and the transaction's own. -/
def seesUnfinished (s : CatchUpState) (tick : Tick) (kind : String) : Bool :=
  unfinishedJobExists s.loop.jobs kind ||
    tick.writes.any fun w => w.job.any fun enqueued => enqueued.2 = kind

def tickCheck (s : CatchUpState) (owner : Uuid) (tick : Tick) (job : Uuid) (gateOpen : Bool) :
    Option CatchUpState :=
  match tick.claimed with
  | none => none
  | some id =>
    match s.schedules.lookup id with
    | none => none
    | some row =>
      if s.seesUnfinished tick row.jobKind then
        some (s.setTick owner (some { tick with claimed := none }))
      else if s.freshJob tick job then
        some (s.setTick owner (some { tick with
          claimed := none
          writes := tick.writes ++ [tickWrite declared tick id row job gateOpen] }))
      else none

/-- The payload of every job the ticker enqueues. -/
def sweepPayload : Json := .obj [("workspace_id", .str workspaceId)]

/-- The enqueue of one row. -/
def enqueueWrite (tick : Tick) (jobs : Jobs) (w : TickWrite) : Jobs :=
  match w.job with
  | none => jobs
  | some (job, kind) =>
    (enqueueJob jobs job kind (sweepPayload workspaceId) tick.now tick.budget none none false).1

/-- The advance of one row: the run it records, unless a gate skipped it, and the next one. -/
def advanceWrite (tick : Tick) (schedules : Schedules) (w : TickWrite) : Schedules :=
  schedules.updateAll fun id row =>
    if id = w.schedule then
      { row with
        lastRunAt := if w.job.isSome then some tick.now else row.lastRunAt
        nextRunAt := w.nextRunAt }
    else row

/-- The commit of a tick: every enqueue and every advance at once. -/
def tickCommit (s : CatchUpState) (owner : Uuid) (tick : Tick) : Option CatchUpState :=
  if tick.remaining = [] ∧ tick.claimed = none ∧
      ∀ w ∈ tick.writes, ∀ enqueued ∈ w.job, s.loop.jobs.lookup enqueued.1 = none then
    some (({ s with
      loop := { s.loop with
        jobs := tick.writes.foldl (enqueueWrite workspaceId tick) s.loop.jobs }
      schedules := tick.writes.foldl (advanceWrite tick) s.schedules }.setTick owner none).release
        (.tick owner))
  else none

/-- The job is still leased by the worker that runs it. -/
def leaseIsHeld (s : CatchUpState) (owner : Uuid) (job : LeasedJob) : Bool :=
  (s.loop.jobs.lookup job.id).any (JobRow.isHeld owner)

/-- The facts a capability rests on: one enabled schedule of the kind, its module enabled and
the lease held. -/
def verified (s : CatchUpState) (owner : Uuid) (job : LeasedJob) : Option Uuid :=
  match singleEnabledSchedule s.schedules job.kind with
  | none => none
  | some (id, row) => if s.modules row.moduleId && s.leaseIsHeld owner job then some id else none

def mint (s : CatchUpState) (owner : Uuid) (job : LeasedJob) (routed : Bool) : CatchUpState :=
  match s.verified owner job with
  | none => s.setSweep owner (some (.running none none))
  | some id =>
    if routed then s.setSweep owner (some (.locking id))
    else s.setSweep owner (some (.running none none))

/-- The row is locked only while it is enabled, and carries authority only while it is the one
enabled row of its kind. -/
def hold (s : CatchUpState) (owner : Uuid) (job : LeasedJob) (id : Uuid) : CatchUpState :=
  if (s.schedules.lookup id).any ScheduleRow.enabled then
    (s.lock id (.sweep owner)).setSweep owner (some (.running
      (if (singleEnabledSchedule s.schedules job.kind).any fun e => e.1 = id then some id
        else none) none))
  else s.setSweep owner (some (.running none none))

/-- The rearm is written only for the schedule of a capability that still verifies, and only
while that schedule is enabled. -/
def rearm (s : CatchUpState) (owner : Uuid) (job : LeasedJob) (schedule : Option Uuid)
    (earlier : Option ℕ) (finishedAt : ℕ) : CatchUpState :=
  match schedule with
  | none => s
  | some id =>
    if s.verified owner job = some id && (s.schedules.lookup id).any ScheduleRow.enabled then
      s.setSweep owner (some (.running (some id) (some finishedAt)))
    else s.setSweep owner (some (.running (some id) earlier))

/-- The finish of a run applies: the row is still leased by the worker and not flagged. -/
def finishes (s : CatchUpState) (owner : Uuid) (now : ℕ) : Bool :=
  match s.loop.workers owner with
  | .running job => (s.loop.jobs.updateRow job.id (JobRow.finishSucceeded owner now)).isSome
  | _ => false

/-- What a sweep wrote to its schedule, for the commit of its run. -/
def rearmed (s : CatchUpState) (owner : Uuid) : Schedules :=
  match s.sweeps owner with
  | some (.running (some id) (some finishedAt)) =>
    s.schedules.updateAll fun k row =>
      if k = id then { row with nextRunAt := finishedAt + catchUpGap } else row
  | _ => s.schedules

/-- End the handler's transaction, with its writes or without them. -/
def endSweep (s : CatchUpState) (owner : Uuid) (schedules : Schedules) : CatchUpState :=
  ({ s with schedules := schedules }.setSweep owner none).release (.sweep owner)

/-- A handler of the catch-up kind was entered: its transaction is open. -/
def enterSweep (s : CatchUpState) (owner : Uuid) : CatchUpState :=
  match s.loop.workers owner with
  | .running job => if job.kind = catchUpJobKind then s.setSweep owner (some .entered) else s
  | _ => s

/-- A sweep's capability is minted before its handler does anything. -/
def inHandler (s : CatchUpState) (owner : Uuid) : Bool :=
  match s.sweeps owner with
  | none | some (.running ..) => true
  | some .entered | some (.locking _) => false

/-- What a step of the job loop does to the transactions around it. -/
def around (s : CatchUpState) (a : LoopAction) (loop : LoopState) : Option CatchUpState :=
  let next := { s with loop := loop }
  match a with
  | .enqueue _ kind .. =>
    -- Nothing but the ticker enqueues the catch-up kind.
    if kind = catchUpJobKind then none else some next
  | .acquire owner .. => if (s.ticks owner).isSome then none else some next
  | .visit owner .. => some (next.enterSweep owner)
  | .handlerReturns owner now _ =>
    if s.inHandler owner then
      some (next.endSweep owner (if s.finishes owner now then s.rearmed owner else s.schedules))
    else none
  | .handlerStops owner | .handlerRaises owner _ => some (next.endSweep owner s.schedules)
  | .crash owner =>
    some (((next.endSweep owner s.schedules).setTick owner none).release (.tick owner))
  | _ => some next

/-- The row a module's enable writes for a declared schedule. -/
def insertSchedule (s : CatchUpState) (id : Uuid) (d : ScheduleDeclaration) (dueAt : ℕ) :
    CatchUpState :=
  { s with
    schedules := s.schedules.insert id
      { moduleId := d.moduleId
        name := d.name
        jobKind := d.jobKind
        enabled := true
        lastRunAt := none
        nextRunAt := dueAt } }

/-- A member's update of a schedule. -/
def setEnabled (s : CatchUpState) (id : Uuid) (enabled : Bool) (dueAt : Option ℕ) :
    CatchUpState :=
  { s with
    schedules := s.schedules.updateAll fun k row =>
      if k = id then { row with enabled := enabled, nextRunAt := dueAt.getD row.nextRunAt }
      else row }

def step (s : CatchUpState) : CatchUpAction → Option CatchUpState
  | .loop a => (s.loop.step kinds a).bind fun loop => s.around a loop
  | .insertSchedule id d dueAt =>
    if d ∈ declared.schedules ∧ (s.schedules.lookup id).isNone then
      if s.schedules.existsRow fun _ row => row.moduleId = d.moduleId && row.name = d.name then
        some s
      else
        some (s.insertSchedule id d dueAt)
    else none
  | .setEnabled id enabled dueAt =>
    -- The update waits for whoever holds the row.
    if (s.locks id).isSome then none else some (s.setEnabled id enabled dueAt)
  | .setModule moduleId enabled =>
    some { s with modules := Function.update s.modules moduleId enabled }
  | .tickOpen owner now budget =>
    match s.loop.workers owner, s.ticks owner with
    | .idle, none =>
      let due := (s.schedules.entries.filter fun e => e.2.isDue now).map Sigma.fst
      some (s.setTick owner (some ⟨now, budget, due, none, []⟩))
    | _, _ => none
  | .tickRow owner job gateOpen =>
    match s.ticks owner with
    | none => none
    | some tick =>
      if tick.claimed.isSome then none else tickRow declared s owner tick job gateOpen
  | .tickCheck owner job gateOpen =>
    (s.ticks owner).bind fun tick => tickCheck declared s owner tick job gateOpen
  | .tickCommit owner => (s.ticks owner).bind fun tick => s.tickCommit workspaceId owner tick
  | .mint owner routed =>
    match s.loop.workers owner, s.sweeps owner with
    | .running job, some .entered => some (s.mint owner job routed)
    | _, _ => none
  | .hold owner =>
    match s.loop.workers owner, s.sweeps owner with
    | .running job, some (.locking id) =>
      if (s.locks id).isSome then none else some (s.hold owner job id)
    | _, _ => none
  | .rearm owner finishedAt =>
    match s.loop.workers owner, s.sweeps owner with
    | .running job, some (.running schedule earlier) =>
      some (s.rearm owner job schedule earlier finishedAt)
    | _, _ => none

end CatchUpState

/-- One workspace's schedules and jobs, before the sweep's module is enabled. -/
def catchUp (kinds : Uuid → JobKindRegistry) (declared : Declarations) (workspaceId : String) :
    Machine CatchUpState CatchUpAction where
  init s := (jobLoop kinds).init s.loop ∧ (∀ owner, s.ticks owner = none) ∧
    (∀ owner, s.sweeps owner = none) ∧ (∀ id, s.locks id = none) ∧
    ∀ id row, s.schedules.lookup id = some row → row.jobKind ≠ catchUpJobKind ∧
      ¬(row.moduleId = memoryRetentionSweep.moduleId ∧ row.name = memoryRetentionSweep.name)
  step s a := s.step kinds declared workspaceId a

end Rheostream
