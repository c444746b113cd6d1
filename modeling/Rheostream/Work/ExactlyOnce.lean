import Rheostream.Work.Lifecycle

/-!
# Exactly once, and cancellation wins

What the job loop guarantees of every job that is not a continuation, in every reachable
state. The parts about the job alone come down from its lifecycle; the part about its
operation record is an invariant of the loop, because the record lives in another table.
-/

namespace Rheostream

/-- The record of a job is open while the job is unfinished and ends by the job's name. -/
def JobState.AgreesWith (state : JobState) (record : OperationState) : Prop :=
  match state with
  | .queued | .leased => record.isOpen = true
  | .succeeded => record = .succeeded
  | .failed => record = .failed
  | .cancelled => record = .cancelled

theorem JobState.agreesWith_of_unfinished {state : JobState} {record : OperationState}
    (h : state = .queued ∨ state = .leased) :
    state.AgreesWith record ↔ record.isOpen = true := by
  rcases h with rfl | rfl <;> exact Iff.rfl

/-- An open record agrees only with an unfinished job, and then so does any open record. -/
theorem JobState.AgreesWith.of_open {state : JobState} {record record' : OperationState}
    (h : state.AgreesWith record) (hopen : record.isOpen = true)
    (hopen' : record'.isOpen = true) : state.AgreesWith record' := by
  cases state with
  | queued | leased => exact hopen'
  | succeeded | failed | cancelled =>
    cases h
    cases hopen

/-- The job is the only one that carries the record. -/
def LoopState.SoleCarrier (s : LoopState) (operationId id : Uuid) : Prop :=
  ∀ id' row', s.jobs.lookup id' = some row' → row'.operationId = some operationId → id' = id

/-- The record of every ordinary job that alone carries it agrees with the job. -/
def RecordsAgree (s : LoopState) : Prop :=
  ∀ id row operationId, s.jobs.lookup id = some row → row.isContinuation = false →
    row.operationId = some operationId → s.SoleCarrier operationId id →
    ∃ record, s.operations.lookup operationId = some record ∧
      row.state.AgreesWith record.state

section Records

variable {kinds : Uuid → JobKindRegistry} {s t : LoopState} {a : LoopAction}

/-- A paired write leaves every other record alone. -/
private theorem withOperation_other {operationId : Option Uuid}
    {write : Option (RowUpdate OperationRow)} {other : Uuid} (h : operationId ≠ some other) :
    (s.withOperation operationId write).lookup other = s.operations.lookup other := by
  unfold LoopState.withOperation
  split
  case h_1 id write =>
    cases happly : s.operations.updateRow id write with
    | none => rfl
    | some operations =>
      obtain ⟨record, _, _, rfl⟩ := Table.updateRow_eq_some.mp happly
      have hid : other ≠ id := fun hid => h (congrArg some hid.symm)
      simp [hid]
  case h_2 => rfl

/-- A paired write to a record that matches is made. -/
private theorem withOperation_applies {id : Uuid} {write : RowUpdate OperationRow}
    {record : OperationRow} (hrecord : s.operations.lookup id = some record)
    (hguard : write.guard record = true) :
    (s.withOperation (some id) (some write)).lookup id = some (write.set record) := by
  have happly : s.operations.updateRow id write = some (s.operations.insert id
      (write.set record)) := Table.updateRow_eq_some.mpr ⟨record, hrecord, hguard, rfl⟩
  simp [LoopState.withOperation, happly]

/-- A finish either leaves the job unfinished and its record alone, or ends both by the same
name. -/
private theorem finish_record {registry : JobKindRegistry} {owner : Uuid} {row : JobRow}
    {phase : Phase} {write : JobWrite} {operationWrite : Option (RowUpdate OperationRow)}
    {events : List JobEvent} {job : LeasedJob}
    (hfinish : Finish registry owner row a phase write operationWrite events)
    (hjob : phase.job? = some job) (hkind : job.kind ≠ externalActionExecute) :
    (operationWrite = none ∧ (write.set row).state = .queued) ∨
      ∃ recordWrite, operationWrite = some recordWrite ∧
        ∀ record, recordWrite.guard record = record.isOpen ∧
          (write.set row).state.AgreesWith (recordWrite.set record).state := by
  cases hfinish with
  | cancelGate | exhausted | failTerminally | returned | failed | resolved =>
    exact .inr ⟨_, rfl, fun _ => ⟨rfl, rfl⟩⟩
  | deferTerminally | deferred | requeued => exact .inl ⟨rfl, rfl⟩
  | continuation hcontinuation =>
    obtain rfl := Option.some.inj hjob
    exact absurd hcontinuation hkind

private theorem withOperation_none {operationId : Option Uuid} :
    s.withOperation operationId none = s.operations := by
  cases operationId <;> rfl

private theorem SoleCarrier.of_step (hstep : LoopStep kinds s a t) {operationId id : Uuid}
    (h : t.SoleCarrier operationId id) : s.SoleCarrier operationId id := by
  intro id' row' hrow' hcarries
  obtain ⟨later, hlater, -, hoperation, -⟩ := hstep.persists hrow'
  exact h id' later hlater (hoperation.trans hcarries)

/-- The step lemma where the step writes one job row and perhaps its record. -/
private theorem recordsAgree_write (h : RecordsAgree s) (hstep : LoopStep kinds s a t)
    (w : JobWrite) {id : Uuid} {row : JobRow} {write : Option (RowUpdate OperationRow)}
    (hrow : s.jobs.lookup id = some row) (hguard : w.guard row = true)
    (hjobs : t.jobs = s.jobs.insert id (w.set row))
    (hoperations : t.operations = s.withOperation row.operationId write)
    (hpair : row.isContinuation = false →
      (write = none ∧ ((w.set row).state = .queued ∨ (w.set row).state = .leased)) ∨
      ∃ recordWrite, write = some recordWrite ∧
        ∀ record, recordWrite.guard record = record.isOpen ∧
          (w.set row).state.AgreesWith (recordWrite.set record).state) : RecordsAgree t := by
  intro id' row' operationId hrow' hordinary hcarries hsole
  rw [hjobs, Table.lookup_insert] at hrow'
  have hsole' := SoleCarrier.of_step hstep hsole
  split at hrow'
  · subst id'
    obtain rfl := Option.some.inj hrow'
    obtain ⟨hkind, -, hoperation, -⟩ := w.set_identity row
    rw [hoperation] at hcarries
    rw [JobRow.isContinuation, hkind] at hordinary
    obtain ⟨record, hrecord, hagrees⟩ := h id row operationId hrow hordinary hcarries hsole'
    have hopen := (JobState.agreesWith_of_unfinished (JobWrite.guard_unfinished hguard)).mp hagrees
    rcases hpair hordinary with ⟨rfl, hstate⟩ | ⟨recordWrite, rfl, hwrite⟩
    · refine ⟨record, ?_, (JobState.agreesWith_of_unfinished hstate).mpr hopen⟩
      rw [hoperations, hcarries]
      exact hrecord
    · refine ⟨recordWrite.set record, ?_, (hwrite record).2⟩
      rw [hoperations, hcarries]
      exact withOperation_applies hrecord ((hwrite record).1.trans hopen)
  · -- Another job's record is not the one this job carries.
    obtain ⟨record, hrecord, hagrees⟩ := h id' row' operationId hrow' hordinary hcarries hsole'
    refine ⟨record, ?_, hagrees⟩
    rw [hoperations, withOperation_other, hrecord]
    intro hshared
    exact absurd (hsole' id row hrow hshared).symm ‹_›

private theorem recordsAgree_step (hok : WorkersOk s) (h : RecordsAgree s)
    (hstep : LoopStep kinds s a t) : RecordsAgree t := by
  have hstep' := hstep
  cases hstep with
  | @record _ id record' hrecord =>
    intro id' row operationId hrow hordinary hcarries hsole
    obtain ⟨record, hlookup, hagrees⟩ := h id' row operationId hrow hordinary hcarries
      (SoleCarrier.of_step hstep' hsole)
    by_cases hid : operationId = id
    · subst hid
      refine ⟨record', by simp, ?_⟩
      rcases hrecord with hnone | hfree | ⟨old, hold, hopen, hopen'⟩
      · exact absurd (hlookup.symm.trans hnone) (by simp)
      · simp only [LoopState.unclaimed, Bool.not_eq_true', Table.existsRow_eq_false] at hfree
        simpa [hcarries] using hfree id' row hrow
      · obtain rfl : record = old := Option.some.inj (hlookup.symm.trans hold)
        exact hagrees.of_open hopen hopen'
    · exact ⟨record, by simp [hid, hlookup], hagrees⟩
  | @enqueue id kind payload now maxAttempts nextRunAt operationId _ hfresh hcarry =>
    intro id' row' operationId' hrow hordinary hcarries hsole
    rw [Table.lookup_insert] at hrow
    split at hrow
    · obtain rfl := Option.some.inj hrow
      obtain rfl : operationId = some operationId' := hcarries
      have hcarry : (s.operations.lookup operationId').any OperationRow.isOpen = true := hcarry
      obtain ⟨record, hrecord, hopen⟩ := (Option.any_eq_true _ _).mp hcarry
      exact ⟨record, hrecord, hopen⟩
    · exact h id' row' operationId' hrow hordinary hcarries (SoleCarrier.of_step hstep' hsole)
  | enter | move =>
    exact fun id row operationId hrow hordinary hcarries hsole =>
      h id row operationId hrow hordinary hcarries hsole
  | @acquire owner id now row _ hrow hdue =>
    exact recordsAgree_write h hstep' (.acquireLease owner now leaseSeconds) hrow hdue rfl
      withOperation_none.symm fun _ => .inl ⟨rfl, .inr rfl⟩
  | @checkpoint owner job now row _ hrow hheld =>
    exact recordsAgree_write h hstep' (.extendLease owner now leaseSeconds) hrow hheld rfl
      withOperation_none.symm fun _ => .inl ⟨rfl, .inr (JobRow.isHeld_iff.mp hheld).2⟩
  | @finish _ owner job row write operationWrite events hjob hrow hguard hfinish =>
    obtain ⟨row', hrow', hagrees⟩ := hok.agrees owner job hjob
    obtain rfl : row = row' := Option.some.inj (hrow.symm.trans hrow')
    refine recordsAgree_write h hstep' write hrow hguard rfl (by rw [hagrees.operationId])
      fun hordinary => ?_
    have hkind : job.kind ≠ externalActionExecute := by
      simpa [JobRow.isContinuation, hagrees.kind] using hordinary
    exact (finish_record hfinish hjob hkind).imp_left (And.imp_right .inl)
  | @request id now row hrow hguard =>
    refine recordsAgree_write h hstep' (.requestCancellation now) hrow hguard rfl rfl
      fun hordinary => ?_
    split
    · have hended : ((JobWrite.requestCancellation now).set row).state = .cancelled := ‹_›
      exact .inr ⟨_, rfl, fun record => ⟨rfl, by rw [hended]; rfl⟩⟩
    · have hkept : ¬((JobWrite.requestCancellation now).set row).state = .cancelled := ‹_›
      refine .inl ⟨rfl, ?_⟩
      rcases JobRow.requestCancellation_guard_iff.mp hguard with hstate | hstate <;>
        simp [JobWrite.set, JobWrite.update, JobRow.requestCancellation, hstate, hordinary]
          at hkept ⊢

theorem recordsAgree (hs : (jobLoop kinds).Reachable s) : RecordsAgree s := by
  refine Machine.Reachable.invariant ?_ ?_ hs
  · rintro _ rfl id row operationId hrow
    simp at hrow
  · intro s a t hs hok hstep
    rcases step_cases hstep with rfl | hstep
    · exact hok
    · exact recordsAgree_step (workersOk hs) hok hstep

end Records

section Main

variable {kinds : Uuid → JobKindRegistry} {s : LoopState} {id : Uuid} {row : JobRow}

private theorem lifecycle_eq_succeeded_iff :
    row.lifecycle = .succeeded ↔ row.state = .succeeded := by
  unfold JobRow.lifecycle
  cases row.state <;> cases row.cancelRequested <;> simp

/-- For every job that is not a continuation, in every reachable state and over every run
from it: its handler's effects commit at most once, and have committed exactly when it is
`succeeded`; a row that has ended never changes state again; a row flagged for cancellation
before it ended is only ever cancelled; a queued row is never flagged; and a record that the
job alone carries is open until the job ends and then ends by the same name. -/
theorem job_exactly_once_and_cancellation_wins (hs : (jobLoop kinds).Reachable s)
    (hrow : s.jobs.lookup id = some row) (hkind : row.kind ≠ externalActionExecute) :
    (s.effects id ≤ 1 ∧ (s.effects id = 1 ↔ row.state = .succeeded)) ∧
    (row.state.isTerminal = true → ∀ t, (jobLoop kinds).Reaches s t →
      ∃ row', t.jobs.lookup id = some row' ∧ row'.state = row.state) ∧
    (row.cancelRequested = true → row.state.isTerminal = false →
      ∀ t, (jobLoop kinds).Reaches s t → ∃ row', t.jobs.lookup id = some row' ∧
        row'.cancelRequested = true ∧ (row'.state = .leased ∨ row'.state = .cancelled)) ∧
    (row.state = .queued → row.cancelRequested = false) ∧
    ∀ operationId, row.operationId = some operationId → s.SoleCarrier operationId id →
      ∃ record, s.operations.lookup operationId = some record ∧
        row.state.AgreesWith record.state := by
  have href := jobLoop_refines_jobLife kinds id
  have hordinary : row.isContinuation = false := by simpa [JobRow.isContinuation] using hkind
  have hlife := life_of_lookup hrow hordinary
  have hlater : ∀ t, (jobLoop kinds).Reaches s t → ∃ row', t.jobs.lookup id = some row' ∧
      (row.cancelRequested = true → row'.cancelRequested = true) ∧
      (t.life id).stage = some row'.lifecycle := by
    intro t hrun
    obtain ⟨row', hrow', hkind', hflag⟩ := jobs_persist hrun hrow
    have hordinary' : row'.isContinuation = false := by
      simpa [JobRow.isContinuation, hkind'] using hkind
    exact ⟨row', hrow', hflag, by rw [life_of_lookup hrow' hordinary']⟩
  refine ⟨?_, ?_, ?_, queuedUnflagged hs id row hrow hordinary,
    fun operationId => recordsAgree hs id row operationId hrow hordinary⟩
  · have heffects := jobLife_effects (href.reachable hs)
    simp only [hlife, Option.some.injEq, lifecycle_eq_succeeded_iff] at heffects
    rw [heffects]
    split <;> simp_all
  · intro hended t hrun
    obtain ⟨row', hrow', -, hstage⟩ := hlater t hrun
    have hsame := jobLife_ended (href.reaches hs hrun) (by
      rw [hlife]
      cases hstate : row.state <;> simp_all [JobRow.lifecycle, JobState.isTerminal])
    rw [hstage, hlife] at hsame
    refine ⟨row', hrow', ?_⟩
    cases hstate : row.state <;> cases hstate' : row'.state <;>
      simp_all [JobRow.lifecycle, JobState.isTerminal] <;> split at hsame <;> cases hsame
  · intro hflag hunfinished t hrun
    obtain ⟨row', hrow', hflag', hstage⟩ := hlater t hrun
    have hleased : row.state = .leased := by
      cases hstate : row.state
      case leased => rfl
      case queued =>
        exact absurd (queuedUnflagged hs id row hrow hordinary hstate) (by simp [hflag])
      all_goals simp [JobState.isTerminal, hstate] at hunfinished
    have hcancelling := jobLife_cancelling (href.reaches hs hrun) (by
      rw [hlife, JobRow.lifecycle_cancelling hleased hflag])
    rw [hstage] at hcancelling
    refine ⟨row', hrow', hflag' hflag, ?_⟩
    cases hstate' : row'.state <;>
      simp_all [JobRow.lifecycle]

end Main

/-- A registry that knows every kind and accepts every payload. -/
def acceptingKinds : Uuid → JobKindRegistry := fun _ => ⟨fun _ => some fun _ => .ok ()⟩

/-- One job is enqueued for a record, leased, entered and returned from. -/
def returningRun : List LoopAction :=
  [.mint 7 "core.export.create" 0, .enqueue 1 "core.export" .null 0 3 none (some 7) false,
    .acquire 5 1 0, .visit 5 0 0 true, .checkpoint 5 0, .handlerReturns 5 0 0]

/-- A job whose handler returned has one effect. -/
theorem job_exactly_once_and_cancellation_wins_returned :
    ∃ s : LoopState, (jobLoop acceptingKinds).run ⟨∅, ∅, fun _ => .idle, []⟩ returningRun = some s ∧
      s.effects 1 = 1 := by
  have hrun : (jobLoop acceptingKinds).run ⟨∅, ∅, fun _ => .idle, []⟩ returningRun = some _ := rfl
  have hs := Machine.reachable_of_run rfl hrun
  exact ⟨_, hrun, (job_exactly_once_and_cancellation_wins hs rfl (by decide)).1.2.mpr rfl⟩

end Rheostream
