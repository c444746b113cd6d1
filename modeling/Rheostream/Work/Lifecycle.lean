import Rheostream.Work.LoopSteps

/-!
# The lifecycle of one job

What the jobs table is for, said of one job: it waits, is held, and ends once; its effects
commit on the way to `succeeded` and nowhere else; and once a cancellation has reached a
held job there is one way out. The machine below says this without rows, leases or workers,
and the job loop refines it for every job that is not a continuation.
-/

namespace Rheostream

/-- Where an ordinary job stands. -/
inductive Lifecycle where
  | waiting
  | held
  | cancelling
  | succeeded
  | failed
  | cancelled
deriving DecidableEq, Repr

/-- One job's lifecycle, `none` before it is enqueued, and how often its effects committed. -/
structure Life where
  stage : Option Lifecycle
  effects : ℕ

/-- What can happen to a job. -/
inductive LifeAction where
  | enqueue
  | lease
  | release
  | request
  | succeed
  | fail
  | cancel
deriving DecidableEq, Repr

namespace Life

/-- One event in the life of a job. -/
def step (life : Life) (action : LifeAction) : Option Life :=
  match life.stage, action with
  | none, .enqueue => some { life with stage := some .waiting }
  | some .waiting, .lease => some { life with stage := some .held }
  | some .waiting, .request => some { life with stage := some .cancelled }
  | some .held, .release => some { life with stage := some .waiting }
  | some .held, .request => some { life with stage := some .cancelling }
  | some .held, .succeed => some ⟨some .succeeded, life.effects + 1⟩
  | some .held, .fail => some { life with stage := some .failed }
  | some .cancelling, .cancel => some { life with stage := some .cancelled }
  | _, _ => none

end Life

/-- The lifecycle of one job. -/
def jobLife : Machine Life LifeAction where
  init life := life = ⟨none, 0⟩
  step := Life.step

section Abstract

variable {life life' : Life}

/-- A job's effects have committed once if it succeeded, and not at all otherwise. -/
theorem jobLife_effects (h : jobLife.Reachable life) :
    life.effects = if life.stage = some .succeeded then 1 else 0 := by
  refine Machine.IsInvariant.of_reachable
    (I := fun life => life.effects = if life.stage = some .succeeded then 1 else 0)
    ⟨?_, ?_⟩ h
  · rintro _ rfl
    rfl
  · intro life action next hlife hstep
    change life.step action = some next at hstep
    unfold Life.step at hstep
    split at hstep
    case h_9 => cases hstep
    all_goals
      obtain rfl := Option.some.inj hstep
      simp_all

/-- A job that has ended stays as it ended. -/
theorem jobLife_ended (hrun : jobLife.Reaches life life')
    (hended : life.stage = some .succeeded ∨ life.stage = some .failed ∨
      life.stage = some .cancelled) : life'.stage = life.stage := by
  induction hrun with
  | refl => rfl
  | @tail mid next _ hnext ih =>
    obtain ⟨action, hstep⟩ := hnext
    change mid.step action = some next at hstep
    unfold Life.step at hstep
    split at hstep
    case h_9 => cases hstep
    all_goals rcases hended with hended | hended | hended <;> simp_all

/-- Cancellation wins: a job that is being cancelled is only ever cancelled. -/
theorem jobLife_cancelling (hrun : jobLife.Reaches life life')
    (hcancelling : life.stage = some .cancelling) :
    life'.stage = some .cancelling ∨ life'.stage = some .cancelled := by
  induction hrun with
  | refl => exact .inl hcancelling
  | @tail mid next _ hnext ih =>
    obtain ⟨action, hstep⟩ := hnext
    change mid.step action = some next at hstep
    unfold Life.step at hstep
    split at hstep
    case h_9 => cases hstep
    all_goals
      obtain rfl := Option.some.inj hstep
      simp_all

end Abstract

/-- The lifecycle a row stands for. -/
def JobRow.lifecycle (row : JobRow) : Lifecycle :=
  match row.state with
  | .queued => .waiting
  | .leased => if row.cancelRequested then .cancelling else .held
  | .succeeded => .succeeded
  | .failed => .failed
  | .cancelled => .cancelled

/-- The life of one ordinary job in a state of the loop. A continuation has none. -/
def LoopState.life (s : LoopState) (job : Uuid) : Life where
  stage := ((s.jobs.lookup job).filter fun row => !row.isContinuation).map JobRow.lifecycle
  effects := s.effects job

section Workers

/-- A lease in a worker's hand and the row it was taken from still describe one job. -/
structure LeasedJob.Agrees (job : LeasedJob) (row : JobRow) : Prop where
  kind : row.kind = job.kind
  operationId : row.operationId = job.operationId
  maxAttempts : row.maxAttempts = job.maxAttempts
  flag : job.cancelRequested = true → row.cancelRequested = true

variable {job : LeasedJob}

/-- No predicated write breaks the agreement. -/
theorem LeasedJob.Agrees.update {row : JobRow} (h : job.Agrees row) (w : JobWrite) :
    job.Agrees (w.set row) := by
  obtain ⟨hkind, -, hoperation, hbudget⟩ := w.set_identity row
  exact ⟨hkind.trans h.kind, hoperation.trans h.operationId, hbudget.trans h.maxAttempts,
    fun hflag => w.set_flag row (h.flag hflag)⟩

/-- What a worker past the gates knows of its lease. -/
def Phase.Gated : Phase → Prop
  | .idle | .leased _ => True
  | .running job | .failing job _ | .stopped job =>
    job.kind ≠ externalActionExecute ∧ job.cancelRequested = false ∧
      job.attempts ≤ job.maxAttempts

/-- Every lease in hand agrees with its row, and every handler's lease passed the gates. -/
structure WorkersOk (s : LoopState) : Prop where
  agrees : ∀ owner job, (s.workers owner).job? = some job →
    ∃ row, s.jobs.lookup job.id = some row ∧ job.Agrees row
  gated : ∀ owner, (s.workers owner).Gated

variable {kinds : Uuid → JobKindRegistry} {s t : LoopState} {a : LoopAction}

variable {owner : Uuid}

/-- Replacing one row by a later version of itself keeps the agreement. -/
private theorem agrees_insert (h : WorkersOk s) {id : Uuid} {row row' : JobRow}
    (hrow : s.jobs.lookup id = some row)
    (hlater : ∀ job : LeasedJob, job.Agrees row → job.Agrees row')
    (hjob : (s.workers owner).job? = some job) :
    ∃ row, (s.jobs.insert id row').lookup job.id = some row ∧ job.Agrees row := by
  obtain ⟨old, hold, hagrees⟩ := h.agrees owner job hjob
  by_cases hid : job.id = id
  · subst hid
    obtain rfl : row = old := Option.some.inj (hrow.symm.trans hold)
    exact ⟨row', by simp, hlater job hagrees⟩
  · exact ⟨old, by simp [hid, hold], hagrees⟩

/-- A move keeps the lease in hand or drops it. -/
theorem Move.job? {jobs : Jobs} {p q : Phase} (h : Move kinds jobs owner a p q)
    (hjob : q.job? = some job) : p.job? = some job := by
  cases h <;> first | exact hjob | cases hjob

theorem Move.gated {jobs : Jobs} {p q : Phase} (h : Move kinds jobs owner a p q) (hp : p.Gated) :
    q.Gated := by
  cases h with
  | unready hgate => exact runLeasedJob_passed (.inl hgate)
  | terminalMissed hgate => exact runLeasedJob_passed (.inr ⟨_, hgate⟩)
  | gateMissed | unresolved | continues | crash => trivial
  | _ => exact hp

private theorem workersOk_step (h : WorkersOk s) (hstep : LoopStep kinds s a t) : WorkersOk t := by
  -- Only the phase of the worker that moves needs an argument; the others are untouched.
  have hother : ∀ {owner : Uuid} {phase : Phase} {jobs : Jobs},
      (∀ o job, (s.workers o).job? = some job →
        ∃ row, jobs.lookup job.id = some row ∧ job.Agrees row) →
      (∀ job, phase.job? = some job →
        ∃ row, jobs.lookup job.id = some row ∧ job.Agrees row) →
      ∀ o job, (Function.update s.workers owner phase o).job? = some job →
        ∃ row, jobs.lookup job.id = some row ∧ job.Agrees row := by
    intro owner phase jobs hold hnew o job hjob
    by_cases ho : o = owner
    · subst ho
      rw [Function.update_self] at hjob
      exact hnew job hjob
    · rw [Function.update_of_ne ho] at hjob
      exact hold o job hjob
  have hgated : ∀ {owner : Uuid} {phase : Phase}, phase.Gated →
      ∀ o, (Function.update s.workers owner phase o).Gated := by
    intro owner phase hphase o
    by_cases ho : o = owner
    · subst ho
      rwa [Function.update_self]
    · rw [Function.update_of_ne ho]
      exact h.gated o
  cases hstep with
  | record => exact ⟨h.agrees, h.gated⟩
  | @enqueue id _ _ _ _ _ _ _ hfresh =>
    refine ⟨fun owner job hjob => ?_, h.gated⟩
    obtain ⟨row, hrow, hagrees⟩ := h.agrees owner job hjob
    have hid : job.id ≠ id := by
      rintro rfl
      exact absurd (hrow.symm.trans hfresh) (by simp)
    exact ⟨row, by simp [hid, hrow], hagrees⟩
  | @acquire owner id now row _ hrow =>
    refine ⟨hother (fun o job hjob => agrees_insert h hrow
      (fun _ ha => ha.update (.acquireLease owner now leaseSeconds)) hjob)
      (fun job hjob => ?_), hgated trivial⟩
    obtain rfl := Option.some.inj hjob
    exact ⟨_, by simp [JobRow.toLeased], rfl, rfl, rfl, fun hflag => hflag⟩
  | @enter owner job _ _ hphase hgate =>
    refine ⟨hother h.agrees (fun job' hjob => ?_), hgated (runLeasedJob_passed (.inl hgate))⟩
    exact h.agrees owner job' (by rw [hphase]; exact hjob)
  | @move _ owner phase hmove =>
    exact ⟨hother h.agrees (fun job hjob => h.agrees owner job (hmove.job? hjob)),
      hgated (hmove.gated (h.gated owner))⟩
  | @checkpoint owner job now row _ hrow =>
    exact ⟨fun o job' hjob => agrees_insert h hrow
      (fun _ ha => ha.update (.extendLease owner now leaseSeconds)) hjob, h.gated⟩
  | @finish _ owner job row write _ _ hjob hrow =>
    exact ⟨hother (fun o job' hjob' => agrees_insert h hrow (fun _ ha => ha.update write) hjob')
      (fun _ hjob => by cases hjob), hgated trivial⟩
  | @request id now row hrow =>
    exact ⟨fun o job' hjob => agrees_insert h hrow
      (fun _ ha => ha.update (.requestCancellation now)) hjob, h.gated⟩

theorem workersOk (hs : (jobLoop kinds).Reachable s) : WorkersOk s := by
  refine Machine.IsInvariant.of_reachable ⟨?_, ?_⟩ hs
  · rintro _ rfl
    exact ⟨fun _ _ hjob => absurd hjob (by simp [Phase.job?]), fun _ => trivial⟩
  · intro s a t hok hstep
    rcases step_cases hstep with rfl | hstep
    · exact hok
    · exact workersOk_step hok hstep

end Workers

section Refinement

variable {kinds : Uuid → JobKindRegistry} {s t : LoopState} {a : LoopAction}

/-- What a step does to the jobs table: nothing, an insert, or one predicated write. -/
theorem LoopStep.jobs (hstep : LoopStep kinds s a t) :
    t.jobs = s.jobs ∨
      (∃ id row, s.jobs.lookup id = none ∧ row.state = .queued ∧ row.cancelRequested = false ∧
        t.jobs = s.jobs.insert id row) ∨
      ∃ id row w, s.jobs.lookup id = some row ∧ JobWrite.guard w row = true ∧
        t.jobs = s.jobs.insert id (JobWrite.set w row) := by
  cases hstep with
  | record | enter | move => exact .inl rfl
  | enqueue hfresh => exact .inr (.inl ⟨_, _, hfresh, rfl, rfl, rfl⟩)
  | @acquire owner _ now _ _ hrow hdue =>
    exact .inr (.inr ⟨_, _, .acquireLease owner now leaseSeconds, hrow, hdue, rfl⟩)
  | @checkpoint owner _ now _ _ hrow hheld =>
    exact .inr (.inr ⟨_, _, .extendLease owner now leaseSeconds, hrow, hheld, rfl⟩)
  | finish _ hrow hguard => exact .inr (.inr ⟨_, _, _, hrow, hguard, rfl⟩)
  | @request _ now _ hrow hguard =>
    exact .inr (.inr ⟨_, _, .requestCancellation now, hrow, hguard, rfl⟩)

variable {id : Uuid}

/-- Where a row that a step leaves came from. -/
theorem LoopStep.lookup (hstep : LoopStep kinds s a t) {row' : JobRow}
    (h : t.jobs.lookup id = some row') :
    s.jobs.lookup id = some row' ∨
      (s.jobs.lookup id = none ∧ row'.state = .queued ∧ row'.cancelRequested = false) ∨
      ∃ row w, s.jobs.lookup id = some row ∧ JobWrite.guard w row = true ∧
        row' = JobWrite.set w row := by
  rcases hstep.jobs with hjobs | ⟨id', row, hfresh, hstate, hflag, hjobs⟩ |
    ⟨id', row, w, hrow, hguard, hjobs⟩
  · rw [hjobs] at h
    exact .inl h
  all_goals
    rw [hjobs, Table.lookup_insert] at h
    split at h
  · subst id
    obtain rfl := Option.some.inj h
    exact .inr (.inl ⟨hfresh, hstate, hflag⟩)
  · exact .inl h
  · subst id
    obtain rfl := Option.some.inj h
    exact .inr (.inr ⟨row, w, hrow, hguard, rfl⟩)
  · exact .inl h

variable {row : JobRow}

/-- No row is ever removed, and what a step leaves of it is the same job. -/
theorem LoopStep.persists (hstep : LoopStep kinds s a t) (h : s.jobs.lookup id = some row) :
    ∃ row', t.jobs.lookup id = some row' ∧ row'.kind = row.kind ∧
      row'.operationId = row.operationId ∧
      (row.cancelRequested = true → row'.cancelRequested = true) := by
  rcases hstep.jobs with hjobs | ⟨id', new, hfresh, -, -, hjobs⟩ | ⟨id', old, w, hold, -, hjobs⟩
  · exact ⟨row, by rw [hjobs, h], rfl, rfl, fun hflag => hflag⟩
  · have hid : id ≠ id' := by
      rintro rfl
      exact absurd (h.symm.trans hfresh) (by simp)
    exact ⟨row, by rw [hjobs, Table.lookup_insert, if_neg hid, h], rfl, rfl,
      fun hflag => hflag⟩
  · by_cases hid : id = id'
    · subst hid
      obtain rfl : row = old := Option.some.inj (h.symm.trans hold)
      obtain ⟨hkind, -, hoperation, -⟩ := w.set_identity row
      exact ⟨w.set row, by rw [hjobs, Table.lookup_insert, if_pos rfl], hkind, hoperation,
        w.set_flag row⟩
    · exact ⟨row, by rw [hjobs, Table.lookup_insert, if_neg hid, h], rfl, rfl,
        fun hflag => hflag⟩

/-- Over a whole run a row stays, as the same job, and keeps a flag once it has it. -/
theorem jobs_persist (hrun : (jobLoop kinds).Reaches s t) (h : s.jobs.lookup id = some row) :
    ∃ row', t.jobs.lookup id = some row' ∧ row'.kind = row.kind ∧
      (row.cancelRequested = true → row'.cancelRequested = true) := by
  induction hrun with
  | refl => exact ⟨row, h, rfl, fun hflag => hflag⟩
  | tail _ hnext ih =>
    obtain ⟨mid, hmid, hkind, hflag⟩ := ih
    obtain ⟨a, hstep⟩ := hnext
    rcases step_cases hstep with rfl | hstep
    · exact ⟨mid, hmid, hkind, hflag⟩
    · obtain ⟨row', hrow', hkind', -, hflag'⟩ := hstep.persists hmid
      exact ⟨row', hrow', hkind'.trans hkind, fun h => hflag' (hflag h)⟩

/-- A queued row of an ordinary job never carries the cancellation flag. -/
def QueuedUnflagged (s : LoopState) : Prop :=
  ∀ id row, s.jobs.lookup id = some row → row.isContinuation = false →
    row.state = .queued → row.cancelRequested = false

theorem queuedUnflagged (hs : (jobLoop kinds).Reachable s) : QueuedUnflagged s := by
  refine Machine.IsInvariant.of_reachable ⟨?_, ?_⟩ hs
  · rintro _ rfl id row hrow
    simp at hrow
  · intro s a t hok hstep id row' hrow' hordinary hqueued
    rcases step_cases hstep with rfl | hstep
    · exact hok id row' hrow' hordinary hqueued
    rcases hstep.lookup hrow' with hrow | ⟨-, -, hflag⟩ | ⟨row, w, hrow, hguard, rfl⟩
    · exact hok id row' hrow hordinary hqueued
    · exact hflag
    · rw [JobRow.isContinuation, (w.set_identity row).1] at hordinary
      exact w.set_queued hguard hordinary hqueued

theorem JobRow.lifecycle_waiting (h : row.state = .queued) : row.lifecycle = .waiting := by
  simp [lifecycle, h]

theorem JobRow.lifecycle_held (h : row.state = .leased) (hflag : row.cancelRequested = false) :
    row.lifecycle = .held := by
  simp [lifecycle, h, hflag]

theorem JobRow.lifecycle_cancelling (h : row.state = .leased) (hflag : row.cancelRequested = true) :
    row.lifecycle = .cancelling := by
  simp [lifecycle, h, hflag]

theorem JobRow.lifecycle_cancelled (h : row.state = .cancelled) : row.lifecycle = .cancelled := by
  simp [lifecycle, h]

/-- However a worker ends its lease of an ordinary job, the job's life takes the matching
step, and its effects count exactly when it succeeds. -/
private theorem finish_life {registry : JobKindRegistry} {a : LoopAction} {owner : Uuid}
    {phase : Phase} {write : JobWrite} {operationWrite : Option (RowUpdate OperationRow)}
    {events : List JobEvent} {job : LeasedJob}
    (hfinish : Finish registry owner row a phase write operationWrite events)
    (hjob : phase.job? = some job) (hguard : write.guard row = true) (hagrees : job.Agrees row)
    (hordinary : row.isContinuation = false) (n : ℕ) :
    ∃ action, Life.step ⟨some row.lifecycle, n⟩ action =
      some ⟨some (write.set row).lifecycle, n + events.count (.committed job.id)⟩ := by
  have hheld : ∀ {owner}, row.isHeldUnflagged owner = true → row.lifecycle = .held :=
    fun h => JobRow.lifecycle_held (JobRow.isHeldUnflagged_iff.mp h).2.1
      (JobRow.isHeldUnflagged_iff.mp h).2.2
  have hcancelling : row.isHeld owner = true → row.cancelRequested = true →
      row.lifecycle = .cancelling :=
    fun h => JobRow.lifecycle_cancelling (JobRow.isHeld_iff.mp h).2
  cases hfinish with
  | cancelGate _ hflag =>
    obtain rfl := Option.some.inj hjob
    rw [hcancelling hguard (hagrees.flag hflag)]
    exact ⟨.cancel, rfl⟩
  | resolved hflag =>
    rw [hcancelling hguard hflag]
    exact ⟨.cancel, rfl⟩
  | exhausted | failTerminally | failed =>
    rw [hheld hguard]
    exact ⟨.fail, rfl⟩
  | returned =>
    obtain rfl := Option.some.inj hjob
    rw [hheld hguard, List.count_singleton_self]
    exact ⟨.succeed, rfl⟩
  | deferTerminally | requeued =>
    rw [hheld hguard]
    exact ⟨.release, rfl⟩
  | @deferred _ entered =>
    rw [hheld hguard]
    cases entered <;> exact ⟨.release, rfl⟩
  | continuation hkind =>
    obtain rfl := Option.some.inj hjob
    simp [JobRow.isContinuation, hagrees.kind, hkind] at hordinary

/-- The handlers of other jobs, and of a continuation, add nothing to a job's effects. -/
private theorem finish_effects {registry : JobKindRegistry} {a : LoopAction} {owner : Uuid}
    {phase : Phase} {write : JobWrite} {operationWrite : Option (RowUpdate OperationRow)}
    {events : List JobEvent} {job : LeasedJob}
    (hfinish : Finish registry owner row a phase write operationWrite events)
    (hjob : phase.job? = some job) (hgated : phase.Gated)
    (hother : id ≠ job.id ∨ job.kind = externalActionExecute) :
    events.count (.committed id) = 0 := by
  cases hfinish with
  | returned =>
    obtain rfl := Option.some.inj hjob
    have hid : id ≠ _ := hother.resolve_right hgated.1
    exact List.count_eq_zero.mpr (by simp [hid])
  | @deferred _ entered => cases entered <;> rfl
  | _ => rfl

/-- A lease leaves a waiting job held, and a held or cancelling one as it was. -/
private theorem acquire_life {owner now : ℕ} (hdue : row.isDue now = true)
    (hqueued : row.state = .queued → row.cancelRequested = false) (n : ℕ) :
    ((JobWrite.acquireLease owner now leaseSeconds).set row).lifecycle = row.lifecycle ∨
      Life.step ⟨some row.lifecycle, n⟩ .lease =
        some ⟨some ((JobWrite.acquireLease owner now leaseSeconds).set row).lifecycle, n⟩ := by
  have hleased : ((JobWrite.acquireLease owner now leaseSeconds).set row).state = .leased := rfl
  rcases JobRow.isDue_iff.mp hdue with ⟨hstate, -⟩ | ⟨hstate, -⟩
  · right
    rw [JobRow.lifecycle_waiting hstate, JobRow.lifecycle_held hleased (hqueued hstate)]
    rfl
  · left
    cases hflag : row.cancelRequested with
    | true =>
      rw [JobRow.lifecycle_cancelling hstate hflag, JobRow.lifecycle_cancelling hleased hflag]
    | false => rw [JobRow.lifecycle_held hstate hflag, JobRow.lifecycle_held hleased hflag]

/-- A request ends a waiting job, flags a held one and leaves a cancelling one as it was. -/
private theorem request_life {now : ℕ} (hguard : (JobRow.requestCancellation now).guard row = true)
    (hordinary : row.isContinuation = false) (n : ℕ) :
    ((JobWrite.requestCancellation now).set row).lifecycle = row.lifecycle ∨
      Life.step ⟨some row.lifecycle, n⟩ .request =
        some ⟨some ((JobWrite.requestCancellation now).set row).lifecycle, n⟩ := by
  rcases JobRow.requestCancellation_guard_iff.mp hguard with hstate | hstate
  · right
    have hended : ((JobWrite.requestCancellation now).set row).state = .cancelled := by
      simp [JobWrite.set, JobWrite.update, JobRow.requestCancellation, hstate, hordinary]
    rw [JobRow.lifecycle_waiting hstate, JobRow.lifecycle_cancelled hended]
    rfl
  · have hkept : ((JobWrite.requestCancellation now).set row).state = .leased := by
      simp [JobWrite.set, JobWrite.update, JobRow.requestCancellation, hstate]
    rw [JobRow.lifecycle_cancelling hkept rfl]
    cases hflag : row.cancelRequested with
    | true => exact .inl (JobRow.lifecycle_cancelling hstate hflag).symm
    | false =>
      rw [JobRow.lifecycle_held hstate hflag]
      exact .inr rfl

/-- The life of a job whose row is there. -/
theorem life_of_lookup (hrow : s.jobs.lookup id = some row) (hordinary : row.isContinuation = false)
    : s.life id = ⟨some row.lifecycle, s.effects id⟩ := by
  simp [LoopState.life, hrow, hordinary]

/-- Two states with the same row of a job and the same commits of its handler give it the
same life. -/
private theorem life_congr (hrow : t.jobs.lookup id = s.jobs.lookup id)
    (heffects : t.effects id = s.effects id) : t.life id = s.life id := by
  simp [LoopState.life, hrow, heffects]

/-- A write to a job's row moves its life as `hlife` says. A continuation has no life to
move, and no effects either. -/
private theorem reaches_of_write (write : JobWrite) (hrow : s.jobs.lookup id = some row)
    (hrow' : t.jobs.lookup id = some (write.set row))
    (heffects : row.isContinuation = true → t.effects id = s.effects id)
    (hlife : row.isContinuation = false →
      jobLife.Reaches ⟨some row.lifecycle, s.effects id⟩ ⟨some (write.set row).lifecycle,
      t.effects id⟩)
    : jobLife.Reaches (s.life id) (t.life id) := by
  have hkind : (write.set row).isContinuation = row.isContinuation := by
    rw [JobRow.isContinuation, (write.set_identity row).1, JobRow.isContinuation]
  cases hordinary : row.isContinuation with
  | true =>
    have hsame : t.life id = s.life id := by
      simp [LoopState.life, hrow, hrow', Option.filter_some, hkind, hordinary,
        heffects hordinary]
    rw [hsame]
    exact .refl _
  | false =>
    rw [life_of_lookup hrow hordinary, life_of_lookup hrow' (hkind.trans hordinary)]
    exact hlife hordinary

/-- The job loop refines the lifecycle of every job. -/
theorem jobLoop_refines_jobLife (kinds : Uuid → JobKindRegistry) (id : Uuid) :
    (jobLoop kinds).Refines jobLife (fun s => s.life id) := by
  refine ⟨?_, ?_⟩
  · rintro _ rfl
    rfl
  intro s a t hs hstep
  rcases step_cases hstep with rfl | hstep
  · exact .refl _
  have hsame : t.jobs.lookup id = s.jobs.lookup id → t.effects id = s.effects id →
      jobLife.Reaches (s.life id) (t.life id) := by
    intro hrow heffects
    rw [life_congr hrow heffects]
    exact .refl _
  cases hstep with
  | record | move => exact hsame rfl rfl
  | enter => exact hsame rfl (by simp [LoopState.effects])
  | @enqueue id' kind payload now maxAttempts nextRunAt operationId _ hfresh =>
    by_cases hid : id = id'
    · subst hid
      cases hordinary : (JobRow.enqueued kind payload now maxAttempts (nextRunAt.getD now)
          operationId).isContinuation with
      | true =>
        simp only [LoopState.life, LoopState.effects, Table.lookup_insert, if_true, hfresh,
          Option.filter_some, hordinary, Bool.not_true, Bool.false_eq_true, if_false]
        exact .refl _
      | false =>
        refine .single (a := .enqueue) ?_
        simp [jobLife, Life.step, LoopState.life, LoopState.effects, hfresh, hordinary,
          JobRow.lifecycle_waiting (rfl : (JobRow.enqueued kind payload now maxAttempts
            (nextRunAt.getD now) operationId).state = .queued)]
    · exact hsame (by simp [hid]) rfl
  | @acquire owner id' now row _ hrow hdue =>
    by_cases hid : id = id'
    · subst hid
      refine reaches_of_write (.acquireLease owner now leaseSeconds) hrow (AList.lookup_insert _)
        (fun _ => rfl) (fun hordinary => ?_)
      rcases acquire_life hdue (queuedUnflagged hs id row hrow hordinary) (s.effects id) with
        hlife | hlife
      · rw [hlife]
        exact .refl _
      · exact .single hlife
    · exact hsame (by simp [hid]) rfl
  | @checkpoint owner job now row _ hrow hheld =>
    by_cases hid : id = job.id
    · subst hid
      exact reaches_of_write (.extendLease owner now leaseSeconds) hrow (AList.lookup_insert _)
        (fun _ => rfl) (fun _ => .refl _)
    · exact hsame (by simp [hid]) rfl
  | @finish _ owner job row write operationWrite events hjob hrow hguard hfinish =>
    have hworkers := workersOk hs
    obtain ⟨row', hrow', hagrees⟩ := hworkers.agrees owner job hjob
    obtain rfl : row = row' := Option.some.inj (hrow.symm.trans hrow')
    have hcount : ∀ id, LoopState.effects ⟨s.jobs.insert job.id (write.set row),
        s.withOperation job.operationId operationWrite, Function.update s.workers owner .idle,
        events ++ s.history⟩ id = s.effects id + events.count (.committed id) := fun id => by
      simp [LoopState.effects, Nat.add_comm]
    by_cases hid : id = job.id
    · subst hid
      refine reaches_of_write write hrow (AList.lookup_insert _) (fun hcontinuation => ?_)
        (fun hordinary => ?_)
      · have hkind : job.kind = externalActionExecute := by
          simpa [JobRow.isContinuation, hagrees.kind] using hcontinuation
        rw [hcount, finish_effects hfinish hjob (hworkers.gated owner) (.inr hkind),
          Nat.add_zero]
      · obtain ⟨action, hlife⟩ := finish_life hfinish hjob hguard hagrees hordinary
          (s.effects job.id)
        rw [hcount]
        exact .single hlife
    · refine hsame (by simp [hid]) ?_
      rw [hcount, finish_effects hfinish hjob (hworkers.gated owner) (.inl hid), Nat.add_zero]
  | @request id' now row hrow hguard =>
    by_cases hid : id = id'
    · subst hid
      refine reaches_of_write (.requestCancellation now) hrow (AList.lookup_insert _) (fun _ => rfl)
        (fun hordinary => ?_)
      rcases request_life hguard hordinary (s.effects id) with hlife | hlife
      · rw [hlife]
        exact .refl _
      · exact .single hlife
    · exact hsame (by simp [hid]) rfl

end Refinement

end Rheostream
