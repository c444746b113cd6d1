import Rheostream.Work.Loop

/-!
# What one step of the job loop can do

Every step is one of eight changes. A finish is the change that ends a worker's lease, and
`Finish` lists the ten ways of reaching one. The invariants of the loop are proved by cases
on these and never unfold the step function.
-/

namespace Rheostream

open LoopState

/-- The ways a worker in a given phase ends its lease of a job: the action, the row write, the
write to the job's record, and what the history records. `row` is the row as the write
finds it. -/
inductive Finish (registry : JobKindRegistry) (owner : Uuid) (row : JobRow) : LoopAction → Phase →
    JobWrite → Option (RowUpdate OperationRow) → List JobEvent → Prop where
  | cancelGate {job : LeasedJob} {now clock : ℕ} {ready : Bool}
      (hkind : job.kind ≠ externalActionExecute) (hflag : job.cancelRequested = true) :
      Finish registry owner row (.visit owner now clock ready) (.leased job)
        (.finishCancelled owner now) (some (OperationRow.finishCancelled now)) []
  | exhausted {job : LeasedJob} {now clock : ℕ} {ready : Bool}
      (hkind : job.kind ≠ externalActionExecute) (hspent : job.maxAttempts < job.attempts) :
      Finish registry owner row (.visit owner now clock ready) (.leased job)
        (.finishFailed owner now retryBudgetExhausted)
        (some (OperationRow.finishFailed now jobFailed retryBudgetExhausted)) []
  | failTerminally {job : LeasedJob} {now clock : ℕ} {error : String}
      (hgate : runLeasedJob registry job = .failTerminally error) :
      Finish registry owner row (.visit owner now clock true) (.leased job)
        (.finishFailed owner now error) (some (OperationRow.finishFailed now jobFailed error)) []
  | deferTerminally {job : LeasedJob} {now clock next : ℕ} {error : String}
      (hgate : runLeasedJob registry job = .failTerminally error) :
      Finish registry owner row (.visit owner now clock false) (.leased job)
        (.deferUnreadyJob owner next) none []
  | returned {job : LeasedJob} {now finishedAt : ℕ} :
      Finish registry owner row (.handlerReturns owner now finishedAt) (.running job)
        (.finishSucceeded owner now)
        (some (OperationRow.finishSucceeded finishedAt .handlerReturned finishedAt none))
        [.committed job.id]
  | deferred {job : LeasedJob} {entered : Bool} {now next : ℕ} {jitter : Option ℕ} :
      Finish registry owner row (.writeFailureOutcome owner now jitter)
        (.failing job (.notReady entered)) (.deferUnreadyJob owner next) none
        (if entered then [.deferred job.id job.attempts] else [])
  | failed {job : LeasedJob} {now : ℕ} {jitter : Option ℕ} {error : String}
      (hspent : job.maxAttempts ≤ job.attempts) :
      Finish registry owner row (.writeFailureOutcome owner now jitter)
        (.failing job (.raised error)) (.finishFailed owner now error)
        (some (OperationRow.finishFailed now jobFailed error)) []
  | requeued {job : LeasedJob} {now next : ℕ} {jitter : Option ℕ} {error : String}
      (hleft : job.attempts < job.maxAttempts) :
      Finish registry owner row (.writeFailureOutcome owner now jitter)
        (.failing job (.raised error)) (.requeueForRetry owner next error) none []
  | resolved {job : LeasedJob} {now : ℕ} (hflag : row.cancelRequested = true) :
      Finish registry owner row (.resolveZeroRowcount owner now) (.stopped job)
        (.finishCancelled owner now) (some (OperationRow.finishCancelled now)) []
  | continuation {a : LoopAction} {job : LeasedJob} {write : JobWrite}
      (hkind : job.kind = externalActionExecute)
      (howned : ∀ row, write.guard row = true → row.isHeld owner = true) :
      Finish registry owner row a (.leased job) write none []

/-- The moves of a worker that write nothing. A move that follows a write that matched
nothing says so in `hmissed`. -/
inductive Move (kinds : Uuid → JobKindRegistry) (jobs : Jobs) (owner : Uuid) :
    LoopAction → Phase → Phase → Prop where
  | gateMissed {job : LeasedJob} {now clock : ℕ} {ready : Bool}
      (hgate : job.cancelRequested = true ∨ job.maxAttempts < job.attempts) :
      Move kinds jobs owner (.visit owner now clock ready) (.leased job) .idle
  | terminalMissed {job : LeasedJob} {now clock : ℕ} {ready : Bool} {error : String}
      (hgate : runLeasedJob (kinds owner) job = .failTerminally error) :
      Move kinds jobs owner (.visit owner now clock ready) (.leased job) (.stopped job)
  | unready {job : LeasedJob} {now clock : ℕ}
      (hgate : runLeasedJob (kinds owner) job = .enter) :
      Move kinds jobs owner (.visit owner now clock false) (.leased job)
        (.failing job (.notReady false))
  | returnMissed {job : LeasedJob} {now finishedAt : ℕ} :
      Move kinds jobs owner (.handlerReturns owner now finishedAt) (.running job) (.stopped job)
  | stops {job : LeasedJob} :
      Move kinds jobs owner (.handlerStops owner) (.running job) (.stopped job)
  | raises {job : LeasedJob} {error : Option String} {failure : Failure}
      (hentered : failure ≠ .notReady false) :
      Move kinds jobs owner (.handlerRaises owner error) (.running job) (.failing job failure)
  | outcomeMissed {job : LeasedJob} {failure : Failure} {now : ℕ} {jitter : Option ℕ}
      (hmissed : ∀ row, jobs.lookup job.id = some row → row.isHeldUnflagged owner = false) :
      Move kinds jobs owner (.writeFailureOutcome owner now jitter) (.failing job failure)
        (.stopped job)
  | unresolved {job : LeasedJob} {now : ℕ} :
      Move kinds jobs owner (.resolveZeroRowcount owner now) (.stopped job) .idle
  | continues {a : LoopAction} {job : LeasedJob} (hkind : job.kind = externalActionExecute) :
      Move kinds jobs owner a (.leased job) (.leased job)
  | crash {phase : Phase} : Move kinds jobs owner (.crash owner) phase .idle

/-- The eight changes a step can make. -/
inductive LoopStep (kinds : Uuid → JobKindRegistry) (s : LoopState) :
    LoopAction → LoopState → Prop where
  /-- A record is minted or started, or one that no job carries is written. -/
  | record {a : LoopAction} {id : Uuid} {row : OperationRow}
      (hrecord : s.operations.lookup id = none ∨ s.unclaimed id = true ∨
        ∃ old, s.operations.lookup id = some old ∧ old.isOpen = true ∧ row.isOpen = true) :
      LoopStep kinds s a { s with operations := s.operations.insert id row }
  | enqueue {id : Uuid} {kind : String} {payload : Json} {now maxAttempts : ℕ}
      {nextRunAt : Option ℕ} {operationId : Option Uuid} {dedupe : Bool}
      (hfresh : s.jobs.lookup id = none) (hcarry : s.mayCarry operationId = true) :
      LoopStep kinds s (.enqueue id kind payload now maxAttempts nextRunAt operationId dedupe)
        { s with
          jobs := s.jobs.insert id
            (.enqueued kind payload now maxAttempts (nextRunAt.getD now) operationId) }
  | acquire {owner id : Uuid} {now : ℕ} {row : JobRow} (hidle : s.workers owner = .idle)
      (hrow : s.jobs.lookup id = some row) (hdue : row.isDue now = true) :
      LoopStep kinds s (.acquire owner id now) { s with
        jobs := s.jobs.insert id ((JobRow.acquireLease owner now leaseSeconds).set row)
        workers := Function.update s.workers owner (.leased
          (((JobRow.acquireLease owner now leaseSeconds).set row).toLeased id)) }
  | enter {owner : Uuid} {job : LeasedJob} {now clock : ℕ}
      (hphase : s.workers owner = .leased job)
      (hgate : runLeasedJob (kinds owner) job = .enter) :
      LoopStep kinds s (.visit owner now clock true) { s with
        workers := Function.update s.workers owner (.running job)
        history := .entered job.id job.attempts :: s.history }
  | move {a : LoopAction} {owner : Uuid} {phase : Phase}
      (hmove : Move kinds s.jobs owner a (s.workers owner) phase) :
      LoopStep kinds s a { s with workers := Function.update s.workers owner phase }
  | checkpoint {owner : Uuid} {job : LeasedJob} {now : ℕ} {row : JobRow}
      (hphase : s.workers owner = .running job) (hrow : s.jobs.lookup job.id = some row)
      (hheld : row.isHeld owner = true) :
      LoopStep kinds s (.checkpoint owner now) { s with
        jobs := s.jobs.insert job.id ((JobRow.extendLease owner now leaseSeconds).set row) }
  | finish {a : LoopAction} {owner : Uuid} {job : LeasedJob} {row : JobRow} {write : JobWrite}
      {operationWrite : Option (RowUpdate OperationRow)} {events : List JobEvent}
      (hjob : (s.workers owner).job? = some job) (hrow : s.jobs.lookup job.id = some row)
      (hguard : write.guard row = true)
      (hfinish : Finish (kinds owner) owner row a (s.workers owner) write operationWrite events) :
      LoopStep kinds s a
        { jobs := s.jobs.insert job.id (write.set row)
          operations := s.withOperation job.operationId operationWrite
          workers := Function.update s.workers owner .idle
          history := events ++ s.history }
  | request {id : Uuid} {now : ℕ} {row : JobRow} (hrow : s.jobs.lookup id = some row)
      (hguard : (JobRow.requestCancellation now).guard row = true) :
      LoopStep kinds s (.requestCancellation id now) { s with
        jobs := s.jobs.insert id ((JobRow.requestCancellation now).set row)
        operations := s.withOperation row.operationId
          (if ((JobRow.requestCancellation now).set row).state = .cancelled then
            some (OperationRow.finishCancelled now) else none) }

variable {kinds : Uuid → JobKindRegistry} {s t : LoopState}

variable {job : LeasedJob} {owner : Uuid}

/-- A finish applies or leaves the worker where its miss leads. -/
private theorem LoopStep.finishAlone {a : LoopAction} {write : JobWrite}
    {operationWrite : Option (RowUpdate OperationRow)} {missed : Phase} {events : List JobEvent}
    (hjob : (s.workers owner).job? = some job)
    (hfinish : ∀ row, s.jobs.lookup job.id = some row →
      Finish (kinds owner) owner row a (s.workers owner) write operationWrite events)
    (hmissed : (∀ row, s.jobs.lookup job.id = some row → write.guard row = false) →
      Move kinds s.jobs owner a (s.workers owner) missed)
    : LoopStep kinds s a (s.finishAlone owner job write operationWrite missed events) := by
  unfold LoopState.finishAlone
  cases happly : s.jobs.updateRow job.id write.update with
  | none => exact .move (hmissed (Table.updateRow_eq_none.mp happly))
  | some jobs =>
    obtain ⟨row, hrow, hguard, rfl⟩ := Table.updateRow_eq_some.mp happly
    exact .finish hjob hrow hguard (hfinish row hrow)

variable {registry : JobKindRegistry}

/-- The gates let a job through only with its flag clear and its budget not spent. -/
theorem runLeasedJob_passed (h : runLeasedJob registry job = .enter ∨
      ∃ error, runLeasedJob registry job = .failTerminally error) :
    job.kind ≠ externalActionExecute ∧ job.cancelRequested = false ∧
      job.attempts ≤ job.maxAttempts := by
  unfold runLeasedJob at h
  split at h
  · simp at h
  split at h
  · simp at h
  split at h
  · simp at h
  · simp_all

theorem runLeasedJob_eq_cancel (h : runLeasedJob registry job = .cancel) :
    job.kind ≠ externalActionExecute ∧ job.cancelRequested = true := by
  unfold runLeasedJob at h
  split at h
  · cases h
  split at h
  · exact ⟨‹_›, ‹_›⟩
  split at h
  · cases h
  · split at h
    · cases h
    · split at h <;> cases h

theorem runLeasedJob_eq_exhausted (h : runLeasedJob registry job = .exhausted) :
    job.kind ≠ externalActionExecute ∧ job.maxAttempts < job.attempts := by
  unfold runLeasedJob at h
  split at h
  · cases h
  split at h
  · cases h
  split at h
  · exact ⟨‹_›, ‹_›⟩
  · split at h
    · cases h
    · split at h <;> cases h

variable {now : ℕ}

/-- Every write a continuation's disposition maps to is predicated on its owner's lease. -/
theorem finishContinuationJob_isHeld {mode : ContinuationMode} {result : ContinuationResult}
    {jitter : Option ℕ} {write : JobWrite}
    (h : finishContinuationJob job owner mode result now jitter = some write) (row : JobRow)
    (hguard : write.guard row = true) : row.isHeld owner = true := by
  have hunflagged : row.isHeldUnflagged owner = true → row.isHeld owner = true := fun h =>
    (Bool.and_eq_true_iff.mp h).1
  unfold finishContinuationJob at h
  split at h
  · obtain rfl := Option.some.inj h
    exact hguard
  all_goals
    split at h
    · first
      | (obtain rfl := Option.some.inj h; exact hguard)
      | cases h
    · obtain rfl := Option.some.inj h
      exact hunflagged hguard

private theorem LoopStep.visit {now clock : ℕ} {ready : Bool}
    (hphase : s.workers owner = .leased job) (h : s.visit kinds owner job now clock ready = some t)
    : LoopStep kinds s (.visit owner now clock ready) t := by
  have hjob : (s.workers owner).job? = some job := by rw [hphase]; rfl
  unfold LoopState.visit at h
  split at h
  case h_1 => cases h
  case h_2 hgate =>
    obtain ⟨hkind, hflag⟩ := runLeasedJob_eq_cancel hgate
    obtain rfl := Option.some.inj h
    exact .finishAlone hjob (fun row _ => hphase ▸ .cancelGate hkind hflag)
      (fun _ => hphase ▸ .gateMissed (.inl hflag))
  case h_3 hgate =>
    obtain ⟨hkind, hspent⟩ := runLeasedJob_eq_exhausted hgate
    obtain rfl := Option.some.inj h
    exact .finishAlone hjob (fun row _ => hphase ▸ .exhausted hkind hspent)
      (fun _ => hphase ▸ .gateMissed (.inr hspent))
  case h_4 error hgate =>
    cases ready with
    | true =>
      obtain rfl := Option.some.inj h
      exact .finishAlone hjob (fun row _ => hphase ▸ .failTerminally hgate)
        (fun _ => hphase ▸ .terminalMissed hgate)
    | false =>
      obtain rfl := Option.some.inj h
      exact .finishAlone hjob (fun row _ => hphase ▸ .deferTerminally hgate)
        (fun _ => hphase ▸ .terminalMissed hgate)
  case h_5 hgate =>
    cases ready with
    | true =>
      obtain rfl := Option.some.inj h
      exact .enter hphase hgate
    | false =>
      obtain rfl := Option.some.inj h
      exact .move (hphase ▸ .unready hgate)

private theorem LoopStep.writeFailureOutcome {failure : Failure} {jitter : Option ℕ}
    (hphase : s.workers owner = .failing job failure) :
    LoopStep kinds s (.writeFailureOutcome owner now jitter)
      (s.writeFailureOutcome owner job failure now jitter) := by
  have hjob : (s.workers owner).job? = some job := by rw [hphase]; rfl
  -- All three outcomes are predicated on the same unflagged lease.
  have hmissed : (∀ row, s.jobs.lookup job.id = some row → row.isHeldUnflagged owner = false) →
      Move kinds s.jobs owner (.writeFailureOutcome owner now jitter) (s.workers owner)
        (.stopped job) := fun h => hphase ▸ .outcomeMissed h
  unfold LoopState.writeFailureOutcome
  cases failure with
  | notReady entered => exact .finishAlone hjob (fun row _ => hphase ▸ .deferred) hmissed
  | raised error =>
    dsimp only
    split
    · exact .finishAlone hjob (fun row _ => hphase ▸ .failed ‹_›) hmissed
    · exact .finishAlone hjob (fun row _ => hphase ▸ .requeued (not_le.mp ‹_›)) hmissed

private theorem LoopStep.resolveZeroRowcount (hphase : s.workers owner = .stopped job) :
    LoopStep kinds s (.resolveZeroRowcount owner now) (s.resolveZeroRowcount owner job now) := by
  have hjob : (s.workers owner).job? = some job := by rw [hphase]; rfl
  unfold LoopState.resolveZeroRowcount
  split
  case isTrue hread =>
    refine .finishAlone hjob (fun row hrow => ?_) (fun _ => hphase ▸ .unresolved)
    have hflag : row.cancelRequested = true := by simp_all
    exact hphase ▸ .resolved hflag
  case isFalse => exact .move (hphase ▸ .unresolved)

private theorem LoopStep.requestCancellation {id : Uuid} :
    s.requestCancellation id now = s ∨
      LoopStep kinds s (.requestCancellation id now) (s.requestCancellation id now) := by
  unfold LoopState.requestCancellation
  split
  case h_1 row jobs hlookup happly =>
    obtain ⟨row', hrow, hguard, rfl⟩ := Table.updateRow_eq_some.mp happly
    obtain rfl : row = row' := Option.some.inj (hlookup.symm.trans hrow)
    exact .inr (.request hrow hguard)
  case h_2 => exact .inl rfl

/-- The inversion lemma: a step changes nothing, or is one of the eight changes. -/
theorem step_cases {a : LoopAction} (h : (jobLoop kinds).step s a = some t) :
    t = s ∨ LoopStep kinds s a t := by
  have h : s.step kinds a = some t := h
  cases a with
  | mint id name now =>
    obtain ⟨hnone, rfl⟩ := by simpa [LoopState.step] using h
    exact .inr (.record (.inl hnone))
  | markRunning id now =>
    obtain ⟨operations, happly, rfl⟩ := Option.map_eq_some_iff.mp h
    obtain ⟨old, hold, hopen, rfl⟩ := Table.updateRow_eq_some.mp happly
    exact .inr (.record (.inr (.inr ⟨old, hold, hopen, rfl⟩)))
  | writeRecord id row =>
    obtain ⟨hfree, rfl⟩ := by simpa [LoopState.step] using h
    exact .inr (.record (.inr (.inl hfree)))
  | enqueue id kind payload now maxAttempts nextRunAt operationId dedupe =>
    obtain ⟨⟨hfresh, hcarry⟩, rfl⟩ := by simpa [LoopState.step] using h
    unfold enqueueJob
    dsimp only
    split
    · exact .inl rfl
    · exact .inr (.enqueue hfresh hcarry)
  | acquire owner id now =>
    simp only [LoopState.step] at h
    split at h
    case h_1 row hidle hrow =>
      obtain ⟨jobs, happly, rfl⟩ := Option.map_eq_some_iff.mp h
      obtain ⟨row', hrow', hdue, rfl⟩ := Table.updateRow_eq_some.mp happly
      obtain rfl : row = row' := Option.some.inj (hrow.symm.trans hrow')
      exact .inr (.acquire hidle hrow hdue)
    case h_2 => cases h
  | visit owner now clock ready =>
    simp only [LoopState.step] at h
    split at h
    case h_1 job hphase => exact .inr (.visit hphase h)
    case h_2 => cases h
  | checkpoint owner now =>
    simp only [LoopState.step] at h
    split at h
    case h_1 job hphase =>
      obtain ⟨jobs, happly, rfl⟩ := Option.map_eq_some_iff.mp h
      obtain ⟨row, hrow, hheld, rfl⟩ := Table.updateRow_eq_some.mp happly
      exact .inr (.checkpoint hphase hrow hheld)
    case h_2 => cases h
  | handlerReturns owner now finishedAt =>
    simp only [LoopState.step] at h
    split at h
    case h_1 job hphase =>
      obtain rfl := Option.some.inj h
      exact .inr (.finishAlone (by rw [hphase]; rfl) (fun row _ => hphase ▸ .returned)
        (fun _ => hphase ▸ .returnMissed))
    case h_2 => cases h
  | handlerStops owner =>
    simp only [LoopState.step] at h
    split at h
    case h_1 job hphase =>
      obtain rfl := Option.some.inj h
      exact .inr (.move (hphase ▸ .stops))
    case h_2 => cases h
  | handlerRaises owner error =>
    simp only [LoopState.step] at h
    split at h
    case h_1 job hphase =>
      obtain rfl := Option.some.inj h
      refine .inr (.move (hphase ▸ .raises ?_))
      cases error <;> simp
    case h_2 => cases h
  | writeFailureOutcome owner now jitter =>
    simp only [LoopState.step] at h
    split at h
    case h_1 job failure hphase =>
      obtain rfl := Option.some.inj h
      exact .inr (.writeFailureOutcome hphase)
    case h_2 => cases h
  | resolveZeroRowcount owner now =>
    simp only [LoopState.step] at h
    split at h
    case h_1 job hphase =>
      obtain rfl := Option.some.inj h
      exact .inr (.resolveZeroRowcount hphase)
    case h_2 => cases h
  | continuation owner mode result now jitter =>
    simp only [LoopState.step] at h
    split at h
    case h_1 job hphase =>
      split at h
      case isTrue hkind =>
        obtain ⟨write, hwrite, rfl⟩ := Option.map_eq_some_iff.mp h
        exact .inr (.finishAlone (by rw [hphase]; rfl)
          (fun row _ => hphase ▸ .continuation hkind (finishContinuationJob_isHeld hwrite))
          (fun _ => by rw [hphase]; exact .continues hkind))
      case isFalse => cases h
    case h_2 => cases h
  | continuationRaises owner now jitter error =>
    simp only [LoopState.step] at h
    split at h
    case h_1 job hphase =>
      split at h
      case isTrue hkind =>
        obtain rfl := Option.some.inj h
        refine .inr (.finishAlone (by rw [hphase]; rfl)
          (fun row _ => hphase ▸ .continuation hkind fun row hguard => ?_)
          (fun _ => by rw [hphase]; exact .continues hkind))
        exact (Bool.and_eq_true_iff.mp hguard).1
      case isFalse => cases h
    case h_2 => cases h
  | requestCancellation id now =>
    obtain rfl := Option.some.inj h
    exact LoopStep.requestCancellation
  | crash owner =>
    obtain rfl := Option.some.inj h
    exact .inr (.move .crash)

end Rheostream
