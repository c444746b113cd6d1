import Rheostream.Foundation.Ledger
import Rheostream.Work.Lifecycle

/-!
# The retry budget of a job

A lease hands out an attempt, entering the handler uses it, and a deferral gives it back: a
job's row, the leases workers have in hand and the history of its entries form a ledger whose
limit is `max_attempts`. Leases that have been stolen stay in their workers' hands, and a
worker enters the handler without asking whether its lease still stands.
-/

namespace Rheostream

/-- The row of a job that is not a continuation. -/
def LoopState.ordinary (s : LoopState) (id : Uuid) : Option JobRow :=
  (s.jobs.lookup id).filter fun row => !row.isContinuation

/-- Whose lease a row is under. -/
def JobRow.holder (row : JobRow) : Option Uuid :=
  if row.state = .leased then row.leaseOwner else none

/-- The attempt a lease in hand stands for. A lease taken on a cancelled row counts none. -/
def LeasedJob.ticket (id : Uuid) (used : Bool) (job : LeasedJob) : Option Ticket :=
  if job.id = id ∧ job.kind ≠ externalActionExecute ∧ job.cancelRequested = false then
    some ⟨job.attempts, used⟩
  else none

/-- The attempt a worker has in hand, used once its handler was entered. -/
def Phase.ticket (id : Uuid) : Phase → Option Ticket
  | .idle | .stopped _ => none
  | .leased job => job.ticket id false
  | .running job | .failing job (.raised _) => job.ticket id true
  | .failing job (.notReady entered) => job.ticket id entered

/-- The attempts of the entries that did not end in a deferral. -/
def spentAttempts (id : Uuid) : List JobEvent → List ℤ
  | [] => []
  | .entered job attempt :: history =>
    if job = id then attempt :: spentAttempts id history else spentAttempts id history
  | .deferred job attempt :: history =>
    if job = id then (spentAttempts id history).erase attempt else spentAttempts id history
  | .committed _ :: history => spentAttempts id history

namespace LoopState

/-- How often the handler of the job was entered. -/
def entries (s : LoopState) (id : Uuid) : ℕ :=
  s.history.countP fun
    | .entered job _ => job = id
    | _ => false

/-- How many of these entries ended in a deferral of an unready module. -/
def deferrals (s : LoopState) (id : Uuid) : ℕ :=
  s.history.countP fun
    | .deferred job _ => job = id
    | _ => false

/-- The ledger of one job. -/
def ledger (s : LoopState) (id : Uuid) : Ledger Uuid where
  issued := (s.ordinary id).elim 0 JobRow.attempts
  limit := (s.ordinary id).elim 0 JobRow.maxAttempts
  holder := (s.ordinary id).bind JobRow.holder
  tickets := Phase.ticket id ∘ s.workers
  spent := spentAttempts id s.history

end LoopState

/-- What keeps a job's run to raising handlers: no worker that has it in hand dies or has its
handler return, it is not cancelled, its kind is known and its payload valid, and a deferral
of it before its handler was entered finds the lease still standing. -/
def raisingOnly (kinds : Uuid → JobKindRegistry) (id : Uuid) (s : LoopState) :
    LoopAction → Bool
  | .crash owner | .handlerReturns owner _ _ => (s.workers owner).job?.all fun job => job.id ≠ id
  | .requestCancellation id' _ => id' ≠ id
  | .visit owner _ _ _ =>
    match s.workers owner with
    | .leased job => job.id ≠ id ||
      match runLeasedJob (kinds owner) job with
      | .enter | .exhausted => true
      | _ => false
    | _ => true
  | .writeFailureOutcome owner _ _ =>
    match s.workers owner with
    | .failing job (.notReady false) =>
      job.id ≠ id || (s.jobs.lookup id).any fun row => row.isHeldUnflagged owner
    | _ => true
  | _ => true

section Refinement

variable {kinds : Uuid → JobKindRegistry} {s t : LoopState} {a : LoopAction} {id : Uuid}
  {strict : Bool}

variable {job : LeasedJob}

@[simp] theorem LeasedJob.ticket_other {used : Bool} (h : job.id ≠ id) :
    job.ticket id used = none := by
  simp [ticket, h]

variable {phase : Phase}

/-- A worker with another job in hand has nothing of this one. -/
theorem Phase.ticket_other (h : ∀ job, phase.job? = some job → job.id ≠ id) :
    phase.ticket id = none := by
  cases phase with
  | idle | stopped => rfl
  | leased job | running job => exact LeasedJob.ticket_other (h job rfl)
  | failing job failure =>
    cases failure <;> exact LeasedJob.ticket_other (h job rfl)

/-- The ledger of a job depends on its row, the workers and the history. -/
private theorem ledger_congr (hrow : t.jobs.lookup id = s.jobs.lookup id)
    (hworkers : Phase.ticket id ∘ t.workers = Phase.ticket id ∘ s.workers)
    (hspent : spentAttempts id t.history = spentAttempts id s.history) :
    t.ledger id = s.ledger id := by
  simp [LoopState.ledger, LoopState.ordinary, hrow, hworkers, hspent]

variable {owner : Uuid}

private theorem tickets_goto :
    Phase.ticket id ∘ Function.update s.workers owner phase =
      Function.update (Phase.ticket id ∘ s.workers) owner (phase.ticket id) :=
  Function.comp_update _ _ _ _

/-- A worker that moves between phases with the same ticket leaves every ticket as it was. -/
private theorem tickets_goto_same (h : phase.ticket id = (s.workers owner).ticket id) :
    Phase.ticket id ∘ Function.update s.workers owner phase = Phase.ticket id ∘ s.workers := by
  rw [tickets_goto, h]
  exact Function.update_eq_self _ _

/-- A move keeps a worker's ticket or gives it up. -/
private theorem Move.ticket {jobs : Jobs} {p q : Phase} (h : Move kinds jobs owner a p q) :
    q.ticket id = p.ticket id ∨ q.ticket id = none := by
  cases h with
  | unready | continues => exact .inl rfl
  | @raises _ _ failure hentered =>
    left
    rcases failure with (_ | _) | _
    · exact absurd rfl hentered
    · rfl
    · rfl
  | _ => exact .inr rfl

/-- Where only raising handlers are run, a move gives up no attempt that could be used. -/
private theorem Move.keeps {q : Phase} {number : ℤ}
    (h : Move kinds s.jobs owner a (s.workers owner) q) (hok : raisingOnly kinds id s a = true)
    (hjob : (s.workers owner).job? = some job)
    (hticket : (s.workers owner).ticket id = some ⟨number, false⟩) (hgone : q.ticket id = none) :
    job.maxAttempts < number := by
  have hjobs : ∀ {phase : Phase}, s.workers owner = phase → phase.job? = some job :=
    fun h => h ▸ hjob
  have hid : job.id = id := by
    by_contra hne
    rw [Phase.ticket_other fun job' hjob' => by
      rwa [Option.some.inj (hjob'.symm.trans hjob)]] at hticket
    cases hticket
  generalize hphase : s.workers owner = phase at *
  cases h with
  | @gateMissed job' _ _ _ hgate =>
    obtain rfl := Option.some.inj hjob
    simp only [Phase.ticket, LeasedJob.ticket, Option.ite_none_right_eq_some] at hticket
    obtain ⟨⟨-, -, hflag⟩, hnumber⟩ := hticket
    obtain ⟨rfl, -⟩ := by simpa using hnumber
    exact hgate.resolve_left (by simp [hflag])
  | @terminalMissed job' _ _ _ _ hgate =>
    obtain rfl := Option.some.inj hjob
    simp [raisingOnly, hphase, hid, hgate] at hok
  | unready | continues => exact absurd (hgone.symm.trans hticket) (by simp)
  | returnMissed | stops | raises =>
    simp [Phase.ticket, LeasedJob.ticket] at hticket
  | @outcomeMissed job' failure _ _ hmissed =>
    obtain rfl := Option.some.inj hjob
    rcases failure with (_ | _) | _
    · simp only [raisingOnly, hphase, hid, Bool.or_eq_true, decide_not, Bool.not_eq_true',
        decide_eq_false_iff_not, not_true_eq_false, false_or] at hok
      obtain ⟨row, hrow, hheld⟩ := (Option.any_eq_true _ _).mp hok
      exact absurd hheld (by simp [hmissed row (hid ▸ hrow)])
    all_goals simp [Phase.ticket, LeasedJob.ticket] at hticket
  | unresolved => cases hticket
  | crash =>
    simp only [raisingOnly, hphase, hjob, Option.all_some, hid] at hok
    simp at hok

variable {events : List JobEvent} {operationWrite : Option (RowUpdate OperationRow)}
  {write : JobWrite}

/-- A finish gives its attempt back by a deferral, or keeps the counter and lets the lease
go. Either way the history spends what the ledger does. -/
private theorem finish_ledger {row : JobRow}
    (hfinish : Finish (kinds owner) owner row a phase write operationWrite events)
    (hjob : phase.job? = some job) (hkind : job.kind ≠ externalActionExecute)
    (history : List JobEvent) :
    (∃ next used, write = .deferUnreadyJob owner next ∧
        phase.ticket job.id = job.ticket job.id used ∧
        spentAttempts job.id (events ++ history) =
          if used then (spentAttempts job.id history).erase job.attempts
          else spentAttempts job.id history) ∨
      ((write.set row).attempts = row.attempts ∧ (write.set row).holder = none ∧
        spentAttempts job.id (events ++ history) = spentAttempts job.id history) := by
  cases hfinish with
  | cancelGate | exhausted | failTerminally | returned | failed | requeued | resolved =>
    exact .inr ⟨rfl, rfl, rfl⟩
  | deferTerminally =>
    obtain rfl := Option.some.inj hjob
    exact .inl ⟨_, false, rfl, rfl, rfl⟩
  | @deferred _ entered =>
    obtain rfl := Option.some.inj hjob
    cases entered with
    | false => exact .inl ⟨_, false, rfl, rfl, rfl⟩
    | true => exact .inl ⟨_, true, rfl, rfl, by simp [spentAttempts]⟩
  | continuation hcontinuation =>
    obtain rfl := Option.some.inj hjob
    exact absurd hcontinuation hkind

/-- What a worker's finish of one job records says nothing of another. -/
private theorem finish_spent_other {row : JobRow}
    (hfinish : Finish (kinds owner) owner row a phase write operationWrite events)
    (hjob : phase.job? = some job) (hid : job.id ≠ id) (history : List JobEvent) :
    spentAttempts id (events ++ history) = spentAttempts id history := by
  cases hfinish with
  | @deferred _ entered =>
    obtain rfl := Option.some.inj hjob
    cases entered <;> simp [spentAttempts, hid]
  | _ => rfl

/-- Where only raising handlers are run, a finish gives up no attempt that could be used. -/
private theorem Finish.keeps {row : JobRow} {number : ℤ}
    (h : Finish (kinds owner) owner row a (s.workers owner) write operationWrite events)
    (hok : raisingOnly kinds job.id s a = true) (hjob : (s.workers owner).job? = some job)
    (hticket : (s.workers owner).ticket job.id = some ⟨number, false⟩)
    (hwrite : ∀ next, write ≠ .deferUnreadyJob owner next) : job.maxAttempts < number := by
  generalize hphase : s.workers owner = phase at *
  cases h with
  | cancelGate _ hflag =>
    obtain rfl := Option.some.inj hjob
    simp [Phase.ticket, LeasedJob.ticket, hflag] at hticket
  | exhausted _ hspent =>
    obtain rfl := Option.some.inj hjob
    simp only [Phase.ticket, LeasedJob.ticket, Option.ite_none_right_eq_some] at hticket
    obtain ⟨rfl, -⟩ := by simpa using hticket.2
    exact hspent
  | failTerminally hgate =>
    obtain rfl := Option.some.inj hjob
    simp [raisingOnly, hphase, hgate] at hok
  | deferTerminally | deferred => exact absurd rfl (hwrite _)
  | returned | failed | requeued => simp [Phase.ticket, LeasedJob.ticket] at hticket
  | resolved => cases hticket
  | continuation hkind =>
    obtain rfl := Option.some.inj hjob
    simp [Phase.ticket, LeasedJob.ticket, hkind] at hticket

private theorem ordinary_of_lookup {row : JobRow} (hrow : s.jobs.lookup id = some row)
    (hordinary : row.isContinuation = false) : s.ordinary id = some row := by
  simp [LoopState.ordinary, hrow, hordinary]

private theorem ordinary_of_continuation {row : JobRow} (hrow : s.jobs.lookup id = some row)
    (hcontinuation : row.isContinuation = true) : s.ordinary id = none := by
  simp [LoopState.ordinary, hrow, hcontinuation]

/-- A write that keeps a row's counter and lease keeps the row's part of the ledger. -/
private theorem ledger_row_congr {row row' : JobRow} (hrow : s.jobs.lookup id = some row)
    (hrow' : t.jobs.lookup id = some row') (hkind : row'.isContinuation = row.isContinuation)
    (hattempts : row'.attempts = row.attempts) (hmax : row'.maxAttempts = row.maxAttempts)
    (hholder : row'.holder = row.holder)
    (hworkers : Phase.ticket id ∘ t.workers = Phase.ticket id ∘ s.workers)
    (hspent : spentAttempts id t.history = spentAttempts id s.history) :
    t.ledger id = s.ledger id := by
  cases hordinary : row.isContinuation with
  | true =>
    simp [LoopState.ledger, ordinary_of_continuation hrow hordinary,
      ordinary_of_continuation hrow' (hkind.trans hordinary), hworkers, hspent]
  | false =>
    simp [LoopState.ledger, ordinary_of_lookup hrow hordinary,
      ordinary_of_lookup hrow' (hkind.trans hordinary), hworkers, hspent, hattempts, hmax,
      hholder]

/-- Giving up what a worker has in hand is a drop. -/
private theorem ledger_drop (hgone : phase.ticket id = none) :
    LoopState.ledger { s with workers := Function.update s.workers owner phase } id =
      { s.ledger id with tickets := Function.update (s.ledger id).tickets owner none } := by
  simp [LoopState.ledger, LoopState.ordinary, tickets_goto, hgone]

/-- The limit of a job's ledger is the budget its row and every lease of it name. -/
private theorem ledger_limit {row : JobRow} (hrow : s.jobs.lookup id = some row)
    (hordinary : row.isContinuation = false) : (s.ledger id).limit = row.maxAttempts := by
  simp [LoopState.ledger, ordinary_of_lookup hrow hordinary]

/-- A worker's ticket belongs to the lease it has in hand. -/
private theorem Phase.job?_of_ticket {ticket : Ticket} (h : phase.ticket id = some ticket) :
    ∃ job, phase.job? = some job ∧ job.id = id ∧ job.kind ≠ externalActionExecute := by
  have hlease : ∀ {job : LeasedJob} {used : Bool}, job.ticket id used = some ticket →
      job.id = id ∧ job.kind ≠ externalActionExecute := fun h => by
    simp only [LeasedJob.ticket, Option.ite_none_right_eq_some] at h
    exact ⟨h.1.1, h.1.2.1⟩
  cases phase with
  | idle | stopped => cases h
  | leased job | running job => exact ⟨job, rfl, hlease h⟩
  | failing job failure => cases failure <;> exact ⟨job, rfl, hlease h⟩

private theorem ledger_enqueue {row : JobRow} (hfresh : s.jobs.lookup id = none)
    (hattempts : row.attempts = 0) (hholder : row.holder = none) :
    (Ledger.machine Uuid strict).Reaches (s.ledger id)
      (LoopState.ledger { s with jobs := s.jobs.insert id row } id) := by
  have hnone : s.ordinary id = none := by simp [LoopState.ordinary, hfresh]
  cases hordinary : row.isContinuation with
  | true =>
    have hnone' : LoopState.ordinary { s with jobs := s.jobs.insert id row } id = none :=
      ordinary_of_continuation (AList.lookup_insert _) hordinary
    have hsame : LoopState.ledger { s with jobs := s.jobs.insert id row } id = s.ledger id := by
      simp [LoopState.ledger, hnone, hnone']
    rw [hsame]
    exact .refl _
  | false =>
    have hsome : LoopState.ordinary { s with jobs := s.jobs.insert id row } id = some row :=
      ordinary_of_lookup (AList.lookup_insert _) hordinary
    refine .single (a := .open row.maxAttempts) ?_
    simp [Ledger.machine, Ledger.step, LoopState.ledger, hnone, hsome, hattempts, hholder]

private theorem ledger_acquire {owner now : ℕ} {row : JobRow} (hidle : s.workers owner = .idle)
    (hrow : s.jobs.lookup id = some row) : (Ledger.machine Uuid strict).Reaches (s.ledger id)
      (LoopState.ledger { s with
        jobs := s.jobs.insert id ((JobRow.acquireLease owner now leaseSeconds).set row)
        workers := Function.update s.workers owner (.leased
          (((JobRow.acquireLease owner now leaseSeconds).set row).toLeased id)) } id) := by
  generalize ht : ({ s with
        jobs := s.jobs.insert id ((JobRow.acquireLease owner now leaseSeconds).set row)
        workers := Function.update s.workers owner (.leased
          (((JobRow.acquireLease owner now leaseSeconds).set row).toLeased id)) } : LoopState) = t
  have hrow' : t.jobs.lookup id = some ((JobRow.acquireLease owner now leaseSeconds).set row) := by
    subst ht
    exact AList.lookup_insert _
  have hnone : (Phase.ticket id ∘ s.workers) owner = none := by simp [hidle, Phase.ticket]
  have hkind : ((JobRow.acquireLease owner now leaseSeconds).set row).isContinuation =
      row.isContinuation := rfl
  cases hordinary : row.isContinuation with
  | true =>
    -- The lease of a continuation is no ticket.
    have hticket : Phase.ticket id (.leased
        (((JobRow.acquireLease owner now leaseSeconds).set row).toLeased id)) = none := by
      have hcontinuation : row.kind = externalActionExecute := by
        simpa [JobRow.isContinuation] using hordinary
      simp [Phase.ticket, LeasedJob.ticket, JobRow.toLeased, JobRow.acquireLease, hcontinuation]
    have hsame : t.ledger id = s.ledger id := by
      subst ht
      simp [LoopState.ledger, ordinary_of_continuation hrow hordinary,
        ordinary_of_continuation hrow' (hkind.trans hordinary),
        tickets_goto_same (hticket.trans hnone.symm)]
    rw [hsame]
    exact .refl _
  | false =>
    have hsome := ordinary_of_lookup hrow hordinary
    have hsome' := ordinary_of_lookup hrow' (hkind.trans hordinary)
    have hne : row.kind ≠ externalActionExecute := by simpa [JobRow.isContinuation] using hordinary
    cases hflag : row.cancelRequested with
    | true =>
      -- A lease of a cancelled row counts no attempt and is no ticket.
      refine .single (a := .hold (some owner)) ?_
      subst ht
      simp only [Ledger.machine, Ledger.step, LoopState.ledger, hsome, hsome', hnone, if_true,
        Option.some.injEq, Ledger.mk.injEq]
      refine ⟨by simp [JobRow.acquireLease, hflag], rfl, rfl, ?_, trivial⟩
      refine (tickets_goto_same ?_).symm
      simp [Phase.ticket, LeasedJob.ticket, JobRow.toLeased, JobRow.acquireLease, hflag, hidle]
    | false =>
      refine .single (a := .issue owner) ?_
      subst ht
      simp only [Ledger.machine, Ledger.step, LoopState.ledger, hsome, hsome', hnone, if_true,
        Option.some.injEq, Ledger.mk.injEq]
      refine ⟨by simp [JobRow.acquireLease, hflag], rfl, rfl, ?_, trivial⟩
      rw [tickets_goto]
      simp [Phase.ticket, LeasedJob.ticket, JobRow.toLeased, JobRow.acquireLease, hflag, hne]

/-- The history of a continuation's finishes spends nothing. -/
private theorem finish_spent_continuation {row : JobRow}
    (hfinish : Finish (kinds owner) owner row a phase write operationWrite events)
    (hjob : phase.job? = some job) (hgated : phase.Gated) (hkind : job.kind = externalActionExecute)
    (history : List JobEvent) :
    spentAttempts id (events ++ history) = spentAttempts id history := by
  cases hfinish with
  | deferred =>
    obtain rfl := Option.some.inj hjob
    exact absurd hkind hgated.1
  | _ => rfl

private theorem ledger_finish (hworkers : WorkersOk s) {row : JobRow}
    (hjob : (s.workers owner).job? = some job) (hrow : s.jobs.lookup job.id = some row)
    (hguard : write.guard row = true)
    (hfinish : Finish (kinds owner) owner row a (s.workers owner) write operationWrite events)
    (hok : strict = true → raisingOnly kinds job.id s a = true) :
    (Ledger.machine Uuid strict).Reaches (s.ledger job.id)
      (LoopState.ledger
        { jobs := s.jobs.insert job.id (write.set row)
          operations := s.withOperation job.operationId operationWrite
          workers := Function.update s.workers owner .idle
          history := events ++ s.history } job.id) := by
  obtain ⟨row', hrow'', hagrees⟩ := hworkers.agrees owner job hjob
  obtain rfl : row = row' := Option.some.inj (hrow.symm.trans hrow'')
  generalize ht : ({ jobs := s.jobs.insert job.id (write.set row)
                     operations := s.withOperation job.operationId operationWrite
                     workers := Function.update s.workers owner .idle
                     history := events ++ s.history } : LoopState) = t
  have hrow' : t.jobs.lookup job.id = some (write.set row) := by
    subst ht
    exact AList.lookup_insert _
  have hsame : (write.set row).isContinuation = row.isContinuation := by
    rw [JobRow.isContinuation, (write.set_identity row).1, JobRow.isContinuation]
  by_cases hkind : job.kind = externalActionExecute
  · have hcontinuation : row.isContinuation = true := by
      simp [JobRow.isContinuation, hagrees.kind, hkind]
    have hnone : (s.workers owner).ticket job.id = none := by
      cases hticket : (s.workers owner).ticket job.id with
      | none => rfl
      | some ticket =>
        obtain ⟨job', hjob', -, hne⟩ := Phase.job?_of_ticket hticket
        obtain rfl : job = job' := Option.some.inj (hjob.symm.trans hjob')
        exact absurd hkind hne
    have hledger : t.ledger job.id = s.ledger job.id := by
      subst ht
      simp [LoopState.ledger, ordinary_of_continuation hrow hcontinuation,
        ordinary_of_continuation hrow' (hsame.trans hcontinuation),
        tickets_goto_same (show Phase.ticket job.id .idle = _ from hnone.symm),
        finish_spent_continuation hfinish hjob (hworkers.gated owner) hkind]
    rw [hledger]
    exact .refl _
  have hordinary : row.isContinuation = false := by
    simpa [JobRow.isContinuation, hagrees.kind] using hkind
  have hsome := ordinary_of_lookup hrow hordinary
  have hsome' := ordinary_of_lookup hrow' (hsame.trans hordinary)
  have hmax := (write.set_identity row).2.2.2
  rcases finish_ledger hfinish hjob hkind s.history with
    ⟨next, used, rfl, hticket, hspent⟩ | ⟨hattempts, hholder, hspent⟩
  · obtain ⟨howner, hstate, hflag⟩ := JobRow.isHeldUnflagged_iff.mp hguard
    have hunflagged : job.cancelRequested = false := by
      by_contra h
      simp [hagrees.flag (by simpa using h)] at hflag
    have hticket' : (Phase.ticket job.id ∘ s.workers) owner = some ⟨job.attempts, used⟩ := by
      simp [hticket, LeasedJob.ticket, hkind, hunflagged]
    have hstanding : row.holder = some owner := by simp [JobRow.holder, hstate, howner]
    refine .single (a := .refund owner) ?_
    subst ht
    simp only [Ledger.machine, Ledger.step, LoopState.ledger, hsome, hsome', hticket', hspent,
      Option.elim_some, Option.bind_some, hstanding, if_true, Option.some.injEq,
      Ledger.mk.injEq]
    exact ⟨rfl, rfl, rfl, by rw [tickets_goto]; rfl, trivial⟩
  · refine Ledger.reaches_hold_none.trans ?_
    have hledger : t.ledger job.id = { { s.ledger job.id with holder := none } with
        tickets := Function.update (s.ledger job.id).tickets owner none } := by
      subst ht
      simp [LoopState.ledger, hsome, hsome', hspent, hattempts, hholder, hmax, tickets_goto,
        Phase.ticket]
    rw [hledger]
    refine Ledger.reaches_drop fun hstrict number hticket => ?_
    rw [show Ledger.limit { s.ledger job.id with holder := none } = row.maxAttempts from
      ledger_limit hrow hordinary, hagrees.maxAttempts]
    refine hfinish.keeps (hok hstrict) hjob hticket fun next hdefer => ?_
    subst hdefer
    have : row.attempts - 1 = row.attempts := hattempts
    omega

/-- The job loop refines the ledger of every job, and a strict one where only raising
handlers are run. -/
theorem ledger_step (hs : (jobLoop kinds).Reachable s) (hstep : LoopStep kinds s a t)
    (hok : strict = true → raisingOnly kinds id s a = true) :
    (Ledger.machine Uuid strict).Reaches (s.ledger id) (t.ledger id) := by
  have hworkers := workersOk hs
  have hsame : t.ledger id = s.ledger id →
      (Ledger.machine Uuid strict).Reaches (s.ledger id) (t.ledger id) := fun h => by
    rw [h]
    exact .refl _
  cases hstep with
  | record => exact hsame rfl
  | @enqueue id' kind payload now maxAttempts nextRunAt operationId _ hfresh =>
    by_cases hid : id = id'
    · subst hid
      exact ledger_enqueue hfresh rfl rfl
    · exact hsame (ledger_congr (by simp [hid]) rfl rfl)
  | @acquire owner id' now row hidle hrow hdue =>
    by_cases hid : id = id'
    · subst hid
      exact ledger_acquire hidle hrow
    · refine hsame (ledger_congr (by simp [hid]) (tickets_goto_same ?_) rfl)
      rw [hidle]
      exact LeasedJob.ticket_other (Ne.symm hid)
  | @enter owner job _ _ hphase hgate =>
    obtain ⟨hkind, hflag, hbudget⟩ := runLeasedJob_passed (.inl hgate)
    by_cases hid : job.id = id
    · subst hid
      obtain ⟨row, hrow, hagrees⟩ := hworkers.agrees owner job (by rw [hphase]; rfl)
      have hordinary : row.isContinuation = false := by
        simpa [JobRow.isContinuation, hagrees.kind] using hkind
      have hticket : (s.ledger job.id).tickets owner = some ⟨job.attempts, false⟩ := by
        simp [LoopState.ledger, hphase, Phase.ticket, LeasedJob.ticket, hkind, hflag]
      have hlimit : job.attempts ≤ ((s.ledger job.id).limit : ℤ) := by
        rwa [ledger_limit hrow hordinary, hagrees.maxAttempts]
      refine .single (a := .use owner) ?_
      simp only [Ledger.machine, Ledger.step, hticket, hlimit, if_true, Option.some.injEq]
      simp [LoopState.ledger, LoopState.ordinary, tickets_goto, spentAttempts, Phase.ticket,
        LeasedJob.ticket, hkind, hflag]
    · refine hsame (ledger_congr rfl (tickets_goto_same ?_) (by simp [spentAttempts, hid]))
      rw [hphase]
      simp [Phase.ticket, hid]
  | @move _ owner phase hmove =>
    rcases hmove.ticket with hticket | hgone
    · exact hsame (ledger_congr rfl (tickets_goto_same hticket) rfl)
    · rw [ledger_drop hgone]
      refine Ledger.reaches_drop fun hstrict number hticket => ?_
      obtain ⟨job, hjob, rfl, hkind⟩ := Phase.job?_of_ticket hticket
      obtain ⟨row, hrow, hagrees⟩ := hworkers.agrees owner job hjob
      have hordinary : row.isContinuation = false := by
        simpa [JobRow.isContinuation, hagrees.kind] using hkind
      rw [ledger_limit hrow hordinary, hagrees.maxAttempts]
      exact hmove.keeps (hok hstrict) hjob hticket hgone
  | @checkpoint owner job now row hphase hrow hheld =>
    by_cases hid : id = job.id
    · subst hid
      exact hsame (ledger_row_congr hrow (AList.lookup_insert _) rfl rfl rfl rfl rfl rfl)
    · exact hsame (ledger_congr (by simp [hid]) rfl rfl)
  | @finish _ owner job row write operationWrite events hjob hrow hguard hfinish =>
    by_cases hid : job.id = id
    · subst hid
      exact ledger_finish hworkers hjob hrow hguard hfinish hok
    · refine hsame (ledger_congr (by simp [Ne.symm hid]) (tickets_goto_same ?_)
        (finish_spent_other hfinish hjob hid s.history))
      refine (Phase.ticket_other fun job' hjob' => ?_).symm
      rwa [Option.some.inj (hjob'.symm.trans hjob)]
  | @request id' now row hrow hguard =>
    by_cases hid : id = id'
    · subst hid
      refine hsame (ledger_row_congr hrow (AList.lookup_insert _) rfl rfl rfl ?_ rfl rfl)
      rcases JobRow.requestCancellation_guard_iff.mp hguard with hstate | hstate <;>
        cases hkind : row.isContinuation <;>
          simp [JobRow.holder, JobRow.requestCancellation, hstate, hkind]
    · exact hsame (ledger_congr (by simp [hid]) rfl rfl)

/-- The job loop refines the ledger of every job. -/
theorem jobLoop_refines_ledger (kinds : Uuid → JobKindRegistry) (id : Uuid) :
    (jobLoop kinds).Refines (Ledger.machine Uuid false) (fun s => s.ledger id) := by
  refine ⟨?_, fun s a t hs hstep => ?_⟩
  · rintro _ rfl
    rfl
  · rcases step_cases hstep with rfl | hstep
    · exact .refl _
    · exact ledger_step hs hstep (by simp)

/-- The job loop in which one job's handlers only raise. -/
def raisingLoop (kinds : Uuid → JobKindRegistry) (id : Uuid) : Machine LoopState LoopAction :=
  (jobLoop kinds).restrict fun s a => raisingOnly kinds id s a = true

/-- Where one job's handlers only raise, no attempt of it is lost. -/
theorem raisingLoop_refines_ledger (kinds : Uuid → JobKindRegistry) (id : Uuid) :
    (raisingLoop kinds id).Refines (Ledger.machine Uuid true) (fun s => s.ledger id) := by
  refine ⟨?_, fun s a t hs hstep => ?_⟩
  · rintro _ rfl
    rfl
  · obtain ⟨hok, hstep⟩ := Machine.restrict_step.mp hstep
    rcases step_cases hstep with rfl | hstep
    · exact .refl _
    · exact ledger_step hs.of_restrict hstep fun _ => hok

end Refinement

section Budget

variable {kinds : Uuid → JobKindRegistry} {s t : LoopState} {a : LoopAction} {id : Uuid}
  {row : JobRow}

/-- Entries are spent attempts or deferrals. -/
private theorem entries_eq (hs : (jobLoop kinds).Reachable s) (id : Uuid) :
    s.entries id = (spentAttempts id s.history).length + s.deferrals id := by
  refine Machine.Reachable.invariant
    (I := fun s => s.entries id = (spentAttempts id s.history).length + s.deferrals id)
    ?_ (fun s a t hs hcount hstep => ?_) hs
  · rintro _ rfl
    rfl
  rcases step_cases hstep with rfl | hstep
  · exact hcount
  simp only [LoopState.entries, LoopState.deferrals] at hcount ⊢
  cases hstep with
  | record | enqueue | acquire | move | checkpoint | request => exact hcount
  | @enter owner job =>
    by_cases hid : job.id = id <;> simp [spentAttempts, hid, hcount]
    omega
  | @finish _ owner job row write operationWrite events hjob hrow hguard hfinish =>
    generalize hphase : s.workers owner = phase at *
    cases hfinish with
    | @deferred job' entered =>
      obtain rfl := Option.some.inj hjob
      cases entered with
      | false => exact hcount
      | true =>
        by_cases hid : job'.id = id
        · -- The attempt that is given back is one of those spent.
          subst hid
          have hgated := (workersOk hs).gated owner
          rw [hphase] at hgated
          have hok := Ledger.ok_of_reachable
            ((jobLoop_refines_ledger kinds job'.id).reachable hs)
          have hmem : job'.attempts ∈ spentAttempts job'.id s.history :=
            (hok.used_iff owner ⟨job'.attempts, true⟩ (by
              simp [LoopState.ledger, hphase, Phase.ticket, LeasedJob.ticket, hgated.1,
                hgated.2.1])).mp rfl
          have hpos := List.length_pos_of_mem hmem
          simp only [if_true, List.singleton_append, spentAttempts, List.countP_cons,
            List.length_erase_of_mem hmem, hcount, decide_true]
          simp
          omega
        · simp [spentAttempts, hid, hcount]
    | returned => simp [spentAttempts, hcount]
    | _ => exact hcount

/-- Over any run the entries of a job that did not end in a deferral stay within its budget
and within its counter, which never goes negative. -/
theorem job_entries_le (hs : (jobLoop kinds).Reachable s) (hrow : s.jobs.lookup id = some row)
    (hkind : row.kind ≠ externalActionExecute) :
    s.deferrals id ≤ s.entries id ∧ s.entries id - s.deferrals id ≤ row.maxAttempts ∧
      0 ≤ row.attempts ∧ ((s.entries id - s.deferrals id : ℕ) : ℤ) ≤ row.attempts := by
  have hordinary : row.isContinuation = false := by simpa [JobRow.isContinuation] using hkind
  have hok := Ledger.ok_of_reachable ((jobLoop_refines_ledger kinds id).reachable hs)
  have hcount := entries_eq hs id
  obtain ⟨hissued, hlimit⟩ := hok.length_spent_le
  have hnonneg := hok.issued_nonneg
  simp only [LoopState.ledger, ordinary_of_lookup hrow hordinary, Option.elim_some] at *
  omega

/-- What holds of a job whose handlers only raise: it is not cancelled, it waits only while
there is budget left, and it ends only failed, its budget handed out. -/
structure Raising (row : JobRow) : Prop where
  unflagged : row.cancelRequested = false
  waits : row.state = .queued → row.attempts < row.maxAttempts ∨ row.attempts = 0
  fails : row.state = .failed → row.maxAttempts ≤ row.attempts
  ends : row.state ≠ .succeeded ∧ row.state ≠ .cancelled

private theorem Raising.of_queued (hflag : row.cancelRequested = false)
    (hstate : row.state = .queued)
    (hleft : row.attempts < row.maxAttempts ∨ row.attempts = 0) : Raising row :=
  ⟨hflag, fun _ => hleft, by simp [hstate], by simp [hstate]⟩

private theorem Raising.of_leased (hflag : row.cancelRequested = false)
    (hstate : row.state = .leased) : Raising row :=
  ⟨hflag, by simp [hstate], by simp [hstate], by simp [hstate]⟩

private theorem Raising.of_failed (hflag : row.cancelRequested = false)
    (hstate : row.state = .failed) (hspent : row.maxAttempts ≤ row.attempts) : Raising row :=
  ⟨hflag, by simp [hstate], fun _ => hspent, by simp [hstate]⟩

/-- The step lemma, where the step ends a lease of the job. -/
private theorem raising_finish (hs : (raisingLoop kinds id).Reachable s)
    (hraising : Raising row) {owner : Uuid} {job : LeasedJob} {write : JobWrite}
    {operationWrite : Option (RowUpdate OperationRow)} {events : List JobEvent}
    (hid : job.id = id) (hjob : (s.workers owner).job? = some job)
    (hrow : s.jobs.lookup id = some row) (hordinary : row.isContinuation = false)
    (hguard : write.guard row = true) (hok : raisingOnly kinds id s a = true)
    (hfinish : Finish (kinds owner) owner row a (s.workers owner) write operationWrite events) :
    Raising (write.set row) := by
  subst hid
  have hworkers := workersOk hs.of_restrict
  obtain ⟨row', hrow', hagrees⟩ := hworkers.agrees owner job hjob
  obtain rfl : row = row' := Option.some.inj (hrow.symm.trans hrow')
  have hgated := hworkers.gated owner
  have hledger := Ledger.ok_of_reachable
    ((jobLoop_refines_ledger kinds job.id).reachable hs.of_restrict)
  have hunflagged : job.cancelRequested = false := by
    by_contra h
    simpa [hagrees.flag (by simpa using h)] using hraising.unflagged
  have hkind : job.kind ≠ externalActionExecute := by
    simpa [JobRow.isContinuation, hagrees.kind] using hordinary
  -- The lease that still stands is the last one handed out.
  have hlast : ∀ {used}, row.isHeldUnflagged owner = true →
      (s.workers owner).ticket job.id = job.ticket job.id used → job.attempts = row.attempts := by
    intro used hheld hticket
    obtain ⟨howner, hstate, -⟩ := JobRow.isHeldUnflagged_iff.mp hheld
    have := hledger.holder_last owner ⟨job.attempts, used⟩
      (by simp [LoopState.ledger, ordinary_of_lookup hrow hordinary, JobRow.holder, hstate, howner])
      (by simp [LoopState.ledger, hticket, LeasedJob.ticket, hkind, hunflagged])
    simpa [LoopState.ledger, ordinary_of_lookup hrow hordinary] using this
  have hmax := hagrees.maxAttempts
  generalize hphase : s.workers owner = phase at *
  cases hfinish with
  | cancelGate _ hflag =>
    obtain rfl := Option.some.inj hjob
    simp [hflag] at hunflagged
  | exhausted _ hspent =>
    obtain rfl := Option.some.inj hjob
    have hnumber := hlast hguard rfl
    rw [← hmax, hnumber] at hspent
    exact .of_failed hraising.unflagged rfl hspent.le
  | failTerminally hgate | deferTerminally hgate =>
    obtain rfl := Option.some.inj hjob
    simp [raisingOnly, hphase, hgate] at hok
  | returned =>
    obtain rfl := Option.some.inj hjob
    simp [raisingOnly, hphase, Phase.job?] at hok
  | @deferred _ entered =>
    obtain rfl := Option.some.inj hjob
    have hnumber := hlast hguard rfl
    refine .of_queued hraising.unflagged rfl (.inl ?_)
    have hbudget := hgated.2.2
    rw [← hmax, hnumber] at hbudget
    exact Int.lt_of_lt_of_le (Int.sub_one_lt_of_le le_rfl) hbudget
  | failed hspent =>
    obtain rfl := Option.some.inj hjob
    have hnumber := hlast hguard rfl
    rw [← hmax, hnumber] at hspent
    exact .of_failed hraising.unflagged rfl hspent
  | requeued hleft =>
    obtain rfl := Option.some.inj hjob
    have hnumber := hlast hguard rfl
    rw [← hmax, hnumber] at hleft
    exact .of_queued hraising.unflagged rfl (.inl hleft)
  | resolved hflag => simp [hraising.unflagged] at hflag
  | continuation hcontinuation =>
    obtain rfl := Option.some.inj hjob
    exact absurd hcontinuation hkind

theorem raising (hs : (raisingLoop kinds id).Reachable s) :
    ∀ row, s.jobs.lookup id = some row → row.isContinuation = false → Raising row := by
  refine Machine.Reachable.invariant
    (I := fun s => ∀ row, s.jobs.lookup id = some row → row.isContinuation = false → Raising row)
    ?_ (fun s a t hs hraising hstep => ?_) hs
  · rintro _ rfl row hrow
    simp at hrow
  obtain ⟨hok, hstep⟩ := Machine.restrict_step.mp hstep
  rcases step_cases hstep with rfl | hstep
  · exact hraising
  intro row hrow hordinary
  cases hstep with
  | record | enter | move => exact hraising row hrow hordinary
  | enqueue =>
    rw [Table.lookup_insert] at hrow
    split at hrow
    · obtain rfl := Option.some.inj hrow
      exact .of_queued rfl rfl (.inr rfl)
    · exact hraising row hrow hordinary
  | @acquire owner id' now old hidle hold hdue =>
    rw [Table.lookup_insert] at hrow
    split at hrow
    · subst id
      obtain rfl := Option.some.inj hrow
      exact .of_leased (hraising old hold hordinary).unflagged rfl
    · exact hraising row hrow hordinary
  | @checkpoint owner job now old _ hold =>
    rw [Table.lookup_insert] at hrow
    split at hrow
    · subst id
      obtain rfl := Option.some.inj hrow
      obtain ⟨hflag, hwaits, hfails, hends⟩ := hraising old hold hordinary
      exact ⟨hflag, hwaits, hfails, hends⟩
    · exact hraising row hrow hordinary
  | @finish _ owner job old write operationWrite events hjob hold hguard hfinish =>
    rw [Table.lookup_insert] at hrow
    split at hrow
    · obtain rfl := Option.some.inj hrow
      have hid : job.id = id := Eq.symm ‹_›
      have hordinary' : old.isContinuation = false := by
        rwa [JobRow.isContinuation, (write.set_identity old).1] at hordinary
      rw [hid] at hold
      exact raising_finish hs (hraising old hold hordinary') hid hjob hold hordinary' hguard hok
        hfinish
    · exact hraising row hrow hordinary
  | @request id' now old hold hguard =>
    have hid : id ≠ id' := by
      rintro rfl
      simp [raisingOnly] at hok
    rw [Table.lookup_insert, if_neg hid] at hrow
    exact hraising row hrow hordinary

/-- A worker holds a lease of the job that is within its budget and whose handler it has not
entered yet. -/
def LoopState.AwaitsEntry (s : LoopState) (id : Uuid) : Prop :=
  ∃ owner row, s.jobs.lookup id = some row ∧
    ∃ number ≤ (row.maxAttempts : ℤ), (s.workers owner).ticket id = some ⟨number, false⟩

/-- A job whose handlers only raise ends only `failed`. By then its budget is handed out, and
once no worker stands between a lease within the budget and its handler, the handler was
entered exactly `max_attempts` times, deferrals apart. A job that has used its budget is not
queued again. -/
theorem job_raising (hs : (raisingLoop kinds id).Reachable s)
    (hrow : s.jobs.lookup id = some row) (hkind : row.kind ≠ externalActionExecute) :
    (row.state.isTerminal = true → row.state = .failed) ∧
      (row.state = .failed → ¬s.AwaitsEntry id →
        s.entries id - s.deferrals id = row.maxAttempts) ∧
      (0 < row.maxAttempts → s.entries id - s.deferrals id = row.maxAttempts →
        row.state = .leased ∨ row.state = .failed) := by
  have hordinary : row.isContinuation = false := by simpa [JobRow.isContinuation] using hkind
  obtain ⟨-, hwaits, hfails, hnot⟩ := raising hs row hrow hordinary
  have hreach := (raisingLoop_refines_ledger kinds id).reachable hs
  have hcount := entries_eq hs.of_restrict id
  have hentries := job_entries_le hs.of_restrict hrow hkind
  refine ⟨?_, fun hfailed hnone => ?_, fun hpositive hspent => ?_⟩
  · cases hstate : row.state <;> simp_all [JobState.isTerminal]
  · have hlimit := ledger_limit hrow hordinary
    have hissued : (s.ledger id).issued = row.attempts := by
      simp [LoopState.ledger, ordinary_of_lookup hrow hordinary]
    have hlength := (Ledger.ok_of_reachable hreach).length_spent_eq
      (Ledger.covered_of_reachable hreach) (by rw [hlimit, hissued]; exact hfails hfailed)
      (fun owner number hticket => by
        rw [hlimit]
        by_contra hwithin
        exact hnone ⟨owner, row, hrow, number, not_lt.mp hwithin, hticket⟩)
    rw [hlimit] at hlength
    change (spentAttempts id s.history).length = row.maxAttempts at hlength
    omega
  · cases hstate : row.state
    case leased => exact .inl rfl
    case failed => exact .inr rfl
    case queued =>
      have := hwaits hstate
      omega
    all_goals simp_all

end Budget

end Rheostream
