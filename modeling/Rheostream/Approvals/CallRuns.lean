import Rheostream.Approvals.RowsTogether

/-!
# The runs of a held call

What one step of the machine can do, and from it that in every run, whatever people decide, however
many workers lease the job and wherever they fail, the rows stand together.
-/

namespace Rheostream.Approvals

variable {Input Output : Type}

attribute [local instance] bytesEq

open Handler

/-! ### The rows and the leases -/

/-- The rows stand together, and every worker's lease is of the job. -/
structure Consistent (s : CallState Output) : Prop where
  coherent : Coherent s.rows
  leases : ∀ owner worker, s.workers.lookup owner = some worker → Leased s.rows worker.lease

section Runs

variable {sha256 : ByteArray → ByteArray}

/-- The rows after an approval are coherent, and no worker had a lease before it. -/
theorem Consistent.of_rows {s : CallState Output} {rows : HeldCall Output} (h : Consistent s)
    (hrows : Coherent rows) (hsame : Same s.rows rows ∨ s.rows.job = none) :
    Consistent { s with rows := rows } where
  coherent := hrows
  leases owner worker hworker := by
    rcases hsame with hsame | hnone
    · exact (h.leases owner worker hworker).of_same hsame
    · obtain ⟨row, hrow, -⟩ := h.leases owner worker hworker
      rw [hnone] at hrow
      cases hrow

/-- A call without a staged action or a job has nothing to bind. -/
theorem Bound.of_inline (haction : s.action = none) (hjob : s.job = none) : Bound s := by
  constructor
  · intro a ha
    rw [haction] at ha
    cases ha
  · intro a e ha
    rw [haction] at ha
    cases ha
  · intro id row hrow
    rw [hjob] at hrow
    cases hrow

/-- A call begins held, without a job, and nothing has happened yet. -/
theorem Begins.coherent {s : HeldCall Output} (h : @Begins Input Output sha256 s) :
    Coherent s ∧ s.job = none ∧ s.effects = [] ∧ s.operation.state = .approvalRequired := by
  cases h with
  | held hheld =>
    obtain ⟨-, rfl⟩ := HeldCall.updateOperation_eq_some.mp hheld
    exact ⟨⟨.of_inline rfl rfl, .held .pending rfl⟩, rfl, rfl, rfl⟩
  | @staged w d ids input request retainedUntil now s hstaged =>
    unfold stageExternal at hstaged
    obtain ⟨spec, -, hstaged⟩ := Option.bind_eq_some_iff.mp hstaged
    obtain ⟨external, -, hstaged⟩ := Option.bind_eq_some_iff.mp hstaged
    obtain ⟨destinationRef, -, hstaged⟩ := Option.bind_eq_some_iff.mp hstaged
    obtain ⟨envelope, hreserved, hstaged⟩ := Option.bind_eq_some_iff.mp hstaged
    split_ifs at hstaged
    obtain ⟨-, rfl⟩ := HeldCall.updateOperation_eq_some.mp hstaged
    obtain ⟨identity, -, rfl⟩ := Option.map_eq_some_iff.mp hreserved
    refine ⟨⟨⟨?_, ?_, ?_⟩, .staged⟩, rfl, rfl, rfl⟩
    · rintro _ ⟨⟩
      exact ⟨rfl, rfl, rfl, rfl, rfl, rfl⟩
    · rintro _ _ ⟨⟩ ⟨⟩
      exact ⟨rfl, rfl⟩
    · intro id row hrow
      cases hrow
  | restored hstate hheld =>
    simp only [OperationRow.isHeld, decide_eq_true_eq] at hheld
    refine ⟨⟨.of_inline rfl rfl, ?_⟩, rfl, rfl, hheld⟩
    simp only [HeldCall.states, hheld, Option.map_none]
    exact .held _ (by rw [hstate]; rfl)

end Runs

/-! ### The steps -/

section Steps

variable {sha256 : ByteArray → ByteArray} {s t : CallState Output} {owner : Uuid}

/-- A worker in a phase. -/
theorem worker_eq_some {phase : WorkerPhase} {worker : Worker} :
    s.worker owner phase = some worker ↔
      s.workers.lookup owner = some worker ∧ worker.phase = phase := by
  simp [CallState.worker, Option.filter_eq_some_iff]

/-- A write to the job finds it or leaves the rows. -/
theorem writeJob_cases (u : RowUpdate JobRow) (s : CallState Output) :
    s.writeJob u = s ∨ ∃ id row, s.rows.job = some (id, row) ∧ u.guard row = true ∧
      s.writeJob u = { s with rows := { s.rows with job := some (id, u.set row) } } := by
  unfold CallState.writeJob
  cases hjob : s.rows.job with
  | none => exact .inl rfl
  | some entry =>
    obtain ⟨id, row⟩ := entry
    simp only
    cases hupdate : s.rows.updateJob id u with
    | none => exact .inl rfl
    | some rows =>
      obtain ⟨row', hrow', hguard, rfl⟩ := HeldCall.updateJob_eq_some.mp hupdate
      obtain ⟨-, rfl⟩ := Prod.mk.inj (Option.some.inj (hjob.symm.trans hrow'))
      exact .inr ⟨id, row, rfl, hguard, rfl⟩

/-- The worker that a lease makes. -/
def newWorker (owner : Uuid) (now : ℕ) (id : Uuid) (row : JobRow) : Worker :=
  ⟨((JobRow.acquireLease owner now leaseSeconds).set row).toLeased id,
    continuationMode (((JobRow.acquireLease owner now leaseSeconds).set row).toLeased id),
    .running⟩

/-- An idle worker that takes the due job leases it. -/
theorem acquire_eq_some {now : ℕ} (h : s.acquire owner now = some t) :
    ∃ id row, s.workers.lookup owner = none ∧ s.rows.job = some (id, row) ∧
      row.isDue now = true ∧ t = { s with
        rows := { s.rows with
          job := some (id, (JobRow.acquireLease owner now leaseSeconds).set row) }
        workers := s.workers.insert owner (newWorker owner now id row) } := by
  unfold CallState.acquire at h
  cases hidle : s.workers.lookup owner with
  | some worker =>
    rw [hidle] at h
    cases h
  | none =>
    cases hjob : s.rows.job with
    | none =>
      rw [hidle, hjob] at h
      cases h
    | some entry =>
      obtain ⟨id, row⟩ := entry
      rw [hidle, hjob] at h
      obtain ⟨rows, hupdate, rfl⟩ := Option.map_eq_some_iff.mp h
      obtain ⟨row', hrow', hguard, rfl⟩ := HeldCall.updateJob_eq_some.mp hupdate
      obtain ⟨-, rfl⟩ := Prod.mk.inj (Option.some.inj (hjob.symm.trans hrow'))
      exact ⟨id, row, rfl, rfl, hguard, rfl⟩

/-- Leases of the job among the workers after one of them moved on. -/
theorem leases_insert {rows : HeldCall Output} {workers : Table Uuid Worker} {worker : Worker}
    (h : ∀ o w, workers.lookup o = some w → Leased rows w.lease)
    (hworker : Leased rows worker.lease) :
    ∀ o w, (workers.insert owner worker).lookup o = some w → Leased rows w.lease := by
  intro o w hlookup
  rw [Table.lookup_insert] at hlookup
  split_ifs at hlookup
  · obtain rfl := Option.some.inj hlookup
    exact hworker
  · exact h o w hlookup

/-- So are they after one of them is gone. -/
theorem leases_erase {rows : HeldCall Output} {workers : Table Uuid Worker}
    (h : ∀ o w, workers.lookup o = some w → Leased rows w.lease) :
    ∀ o w, (workers.erase owner).lookup o = some w → Leased rows w.lease :=
  fun o w hlookup => h o w (Table.lookup_erase_eq_some.mp hlookup).2

/-- The writes match unfinished jobs only. -/
theorem nonterminal_of_guard (write : JobWrite) {row : JobRow} (h : write.guard row = true) :
    row.state.isTerminal = false := by
  rcases JobWrite.guard_unfinished h with hstate | hstate <;> rw [hstate] <;> rfl

/-- A write to an unfinished job that leaves it unfinished keeps the rows together. -/
theorem Consistent.write {id : Uuid} {row : JobRow} (h : Consistent s) (write : JobWrite)
    (hjob : s.rows.job = some (id, row)) (hguard : write.guard row = true)
    (hstill : (write.set row).state.isTerminal = false) :
    Consistent { s with rows := { s.rows with job := some (id, write.set row) } } := by
  obtain ⟨hrows, hsame⟩ :=
    h.coherent.of_job hjob (nonterminal_of_guard write hguard) hstill
  exact h.of_rows hrows (.inl hsame)

/-- A request to cancel leaves a continuation in its state. -/
theorem requestCancellation_state (now : ℕ) {row : JobRow}
    (hkind : row.kind = externalActionExecute) :
    ((JobRow.requestCancellation now).set row).state = row.state := by
  simp [JobRow.requestCancellation, JobRow.isContinuation, hkind]

/-- What a step does under its action. -/
inductive CallMoves (sha256 : ByteArray → ByteArray) (s : CallState Output)
    (a : CallAction Input Output) : CallState Output → Prop where
  /-- A decision that rolled back, or a request that matched no job. -/
  | stayed : CallMoves sha256 s a s
  | approved {w : Deployment Input Output} {now : ℕ} {jobId : Uuid} {rows : HeldCall Output}
      (hdecidable : s.rows.approval.state.isDecidable = true)
      (hbecame : Approved sha256 w now jobId s.rows rows) :
      CallMoves sha256 s a { s with rows := rows }
  | refused {w : Deployment Input Output} {viewer : Viewer} {expected : Option ByteArray} {now : ℕ}
      {rows : HeldCall Output}
      (hanswers : (refuse sha256 w viewer expected now).Answers s.rows () rows) :
      CallMoves sha256 s a { s with rows := rows }
  | resolved {w : Deployment Input Output} {given : ResolveInput Output} {rows : HeldCall Output}
      (hgiven : a = .resolve w given)
      (hanswers : (resolveHandler w given).Answers s.rows () rows) :
      CallMoves sha256 s a { s with rows := rows }
  | erased (now : ℕ) : CallMoves sha256 s a { s with rows := s.rows.eraseDependents now }
  | tampered (payload : Option Json) :
      CallMoves sha256 s a { s with rows := { s.rows with payload := payload } }
  | requested {now : ℕ} {id : Uuid} {row : JobRow} (hjob : s.rows.job = some (id, row))
      (hguard : (JobWrite.requestCancellation now).guard row = true) : CallMoves sha256 s a { s with
        rows := { s.rows with job := some (id, (JobWrite.requestCancellation now).set row) } }
  | acquired {owner : Uuid} {now : ℕ} {id : Uuid} {row : JobRow}
      (hidle : s.workers.lookup owner = none) (hjob : s.rows.job = some (id, row))
      (hdue : row.isDue now = true) : CallMoves sha256 s a { s with
        rows := { s.rows with
          job := some (id, (JobWrite.acquireLease owner now leaseSeconds).set row) }
        workers := s.workers.insert owner (newWorker owner now id row) }
  | visited {owner : Uuid} {v : Visit Input Output} {worker : Worker}
      {p : Ending Output × Option ProviderCall} (hvisit : a = .visit owner v)
      (hworker : s.workers.lookup owner = some worker) (hphase : worker.phase = .running)
      (hpasses : Passes sha256 v owner worker.lease worker.mode s.rows p) :
      CallMoves sha256 s a (s.ended owner worker p)
  | requeued {owner id : Uuid} {next : ℕ} {error : String} {row : JobRow}
      (hjob : s.rows.job = some (id, row))
      (hguard : (JobWrite.requeueForRetry owner next error).guard row = true) :
      CallMoves sha256 s a { s with
        rows := { s.rows with
          job := some (id, (JobWrite.requeueForRetry owner next error).set row) }
        workers := s.workers.erase owner }
  | overtaken {owner : Uuid} {worker : Worker} (hworker : s.workers.lookup owner = some worker) :
      CallMoves sha256 s a
        { s with workers := s.workers.insert owner { worker with phase := .unapplied } }
  | rechecked {owner : Uuid} {worker : Worker} (hworker : s.workers.lookup owner = some worker) :
      CallMoves sha256 s a { s with
        workers :=
          s.workers.insert owner { worker with mode := .cancelRequested, phase := .running } }
  | left (owner : Uuid) : CallMoves sha256 s a { s with workers := s.workers.erase owner }

/-- A decision either answers or leaves the rows. -/
theorem decide_cases (h : Handler (HeldCall Output) Unit) (s : CallState Output) :
    s.decide h = s ∨ ∃ rows, h.Answers s.rows () rows ∧ s.decide h = { s with rows := rows } := by
  unfold CallState.decide
  rcases hdispatch : h.dispatch s.rows with ⟨_ | _, t⟩
  · rw [dispatch_error hdispatch]
    exact .inl rfl
  · exact .inr ⟨t, dispatch_eq_ok.mp hdispatch, rfl⟩

/-- The inversion lemma: what a step does, with its guards. -/
theorem step_moves {a : CallAction Input Output} (h : s.step sha256 a = some t) :
    CallMoves sha256 s a t := by
  cases a with
  | approve w viewer expected now jobId handler =>
    obtain rfl := Option.some.inj h
    rcases decide_cases (approve sha256 w viewer expected now jobId handler) s with
      heq | ⟨rows, hanswers, heq⟩ <;> rw [heq]
    · exact .stayed
    · obtain ⟨hdecidable, -, -, hbecame⟩ := approve_answers hanswers
      exact .approved hdecidable hbecame
  | refuse w viewer expected now =>
    obtain rfl := Option.some.inj h
    rcases decide_cases (refuse sha256 w viewer expected now) s with
      heq | ⟨rows, hanswers, heq⟩ <;> rw [heq]
    · exact .stayed
    · exact .refused hanswers
  | resolve w given =>
    obtain rfl := Option.some.inj h
    rcases decide_cases (resolveHandler w given) s with heq | ⟨rows, hanswers, heq⟩ <;> rw [heq]
    · exact .stayed
    · exact .resolved rfl hanswers
  | erase now =>
    obtain rfl := Option.some.inj h
    exact .erased now
  | tamper payload =>
    obtain rfl := Option.some.inj h
    exact .tampered payload
  | requestCancellation now =>
    obtain rfl := Option.some.inj h
    rcases writeJob_cases (JobRow.requestCancellation now) s with
      heq | ⟨id, row, hjob, hguard, heq⟩ <;> rw [heq]
    · exact .stayed
    · exact .requested hjob hguard
  | acquire owner now =>
    obtain ⟨id, row, hidle, hjob, hdue, rfl⟩ := acquire_eq_some h
    exact .acquired hidle hjob hdue
  | visit owner v =>
    obtain ⟨worker, hworker, rfl⟩ := Option.map_eq_some_iff.mp h
    obtain ⟨hlookup, hphase⟩ := worker_eq_some.mp hworker
    exact .visited rfl hlookup hphase
      (run_passes sha256 v owner worker.lease worker.mode s.rows)
  | requeue owner now jitter error =>
    obtain ⟨worker, hworker, rfl⟩ := Option.map_eq_some_iff.mp h
    unfold CallState.requeue
    split
    · rename_i rows hupdate
      obtain ⟨row, hjob, hguard, rfl⟩ := HeldCall.updateJob_eq_some.mp hupdate
      exact .requeued hjob hguard
    · exact .overtaken (worker_eq_some.mp hworker).1
  | recheck owner =>
    obtain ⟨worker, hworker, rfl⟩ := Option.map_eq_some_iff.mp h
    unfold CallState.recheck
    split_ifs
    · exact .rechecked (worker_eq_some.mp hworker).1
    · exact .left owner
  | crash owner =>
    obtain rfl := Option.some.inj h
    exact .left owner

/-- Every step keeps the rows together. -/
theorem Consistent.step {a : CallAction Input Output} (h : Consistent s)
    (hmoves : CallMoves sha256 s a t) : Consistent t := by
  cases hmoves with
  | stayed => exact h
  | approved hdecidable hbecame =>
    obtain ⟨hrows, hnone⟩ := h.coherent.of_approved hdecidable hbecame
    exact h.of_rows hrows (.inr hnone)
  | refused hanswers =>
    obtain ⟨hrows, hsame⟩ := h.coherent.of_refused hanswers
    exact h.of_rows hrows (.inl hsame)
  | resolved _ hanswers =>
    obtain ⟨hrows, hsame, -⟩ := h.coherent.of_resolved hanswers
    exact h.of_rows hrows (.inl hsame)
  | erased now =>
    obtain ⟨hrows, hsame⟩ := h.coherent.erased now
    exact h.of_rows hrows (.inl hsame)
  | tampered payload =>
    have hsame : Same s.rows { s.rows with payload := payload } :=
      ⟨rfl, rfl, ⟨rfl, rfl⟩, rfl, rfl, rfl⟩
    exact h.of_rows ⟨h.coherent.bound.of_same hsame, h.coherent.agree⟩ (.inl hsame)
  | @requested now id row hjob hguard =>
    refine h.write (.requestCancellation now) hjob hguard ?_
    have hkept := requestCancellation_state now (h.coherent.bound.job id row hjob).1
    exact (congrArg JobState.isTerminal hkept).trans
      (nonterminal_of_guard (.requestCancellation now) hguard)
  | @acquired owner now id row hidle hjob hdue =>
    have hwrite := h.write (.acquireLease owner now leaseSeconds) hjob hdue rfl
    exact ⟨hwrite.coherent, leases_insert hwrite.leases ⟨_, rfl, rfl, rfl⟩⟩
  | @visited owner v worker p _ hworker hphase hpasses =>
    have hleased := h.leases owner worker hworker
    unfold CallState.ended
    cases hending : p.1 with
    | committed rows =>
      obtain ⟨hrows, hsame⟩ := h.coherent.of_passes hleased hpasses hending
      exact ⟨hrows, leases_erase fun o w hw => (h.leases o w hw).of_same hsame⟩
    | unapplied | raised => exact ⟨h.coherent, leases_insert h.leases hleased⟩
  | @requeued owner id next error row hjob hguard =>
    have hwrite := h.write (.requeueForRetry owner next error) hjob hguard rfl
    exact ⟨hwrite.coherent, leases_erase hwrite.leases⟩
  | overtaken hworker | rechecked hworker =>
    have hleased := h.leases _ _ hworker
    exact ⟨h.coherent, leases_insert h.leases hleased⟩
  | left owner => exact ⟨h.coherent, leases_erase h.leases⟩

/-- The rows are together in every reachable state. -/
theorem consistent_isInvariant (sha256 : ByteArray → ByteArray) (Input Output : Type) :
    (heldCallMachine sha256 Input Output).IsInvariant Consistent where
  init s hinit := by
    obtain ⟨hbegins, -, hworkers⟩ := hinit
    refine ⟨hbegins.coherent.1, ?_⟩
    rw [hworkers]
    intro owner worker hlookup
    cases hlookup
  step s a t h hstep := h.step (step_moves hstep)

/-- In every run, with any decisions, erasures, rewritten payloads, lost leases, faults and
crashes, the rows of a held call stand in one of the combinations. -/
theorem rows_together (h : (heldCallMachine sha256 Input Output).Reachable s) :
    Agree s.rows.states :=
  ((consistent_isInvariant sha256 Input Output).of_reachable h).coherent.agree

end Steps

/-! ### A mail whose worker fails after sending it -/

def sampleRef : RefText := .malformed "mail"

/-- The sending of a mail, at a provider. -/
def sampleMail : Declaration Unit Unit where
  name := "mail.send"
  moduleId := "mail"
  safetyClass := .external
  keyed := some ⟨1, 1⟩
  external := some ⟨sampleRef, fun _ => some sampleRef, fun _ => some "sent"⟩
  subject := none
  guards := []
  validate _ := some ()
  executablePayload _ := .null
  result _ := .null

def sampleDeployment : Deployment Unit Unit where
  operations := [sampleMail]
  destinations := [⟨sampleRef, "mail.send", .provider, none, true⟩]
  guards := []
  permission := none
  resolveIn _ := .error "unavailable"
  heldCaller := none
  authorized := none
  moduleNotReady := none
  hasAuditSink := true
  windowSeconds := 3600
  maxAttempts := 3

/-- A digest of nothing. -/
def sampleDigest (_ : ByteArray) : ByteArray := ByteArray.empty

/-- The staged mail. -/
def sampleStaged : Option (HeldCall Unit) :=
  stageExternal sampleDigest sampleDeployment sampleMail ⟨1, 2, 3⟩ ()
    ⟨.null, ByteArray.empty, ByteArray.empty, "key"⟩ 0 0

def sampleVisit (reconcile : DestinationAnswer Unit) (fault : Option Fault) (now : ℕ) :
    Visit Unit Unit :=
  ⟨sampleDeployment, now, now, none, reconcile, .output (), true, fault⟩

/-- The first worker sends the mail and fails; the second one finds it sent. -/
def sampleActions : List (CallAction Unit Unit) :=
  [.approve sampleDeployment ⟨true, fun _ => true, true⟩ none 0 7 fun _ => .returned (),
   .acquire 10 0,
   .visit 10 (sampleVisit .nothing (some .afterEffect) 0),
   .requeue 10 0 none "fault",
   .acquire 11 (seconds 100000),
   .visit 11 (sampleVisit (.output ()) none (seconds 100000))]

/-- Where that run ends. -/
def sampleEnd : Option (CallState Unit) :=
  sampleStaged.bind fun s =>
    (heldCallMachine sampleDigest Unit Unit).run ⟨s, [], ∅⟩ sampleActions

theorem sampleEnd_isSome : sampleEnd.isSome = true := by decide +kernel

theorem sampleStaged_begins {s : HeldCall Unit} (h : sampleStaged = some s) :
    @Begins Unit Unit sampleDigest s := by
  unfold sampleStaged at h
  exact .staged h

theorem sampleEnd_reachable :
    (heldCallMachine sampleDigest Unit Unit).Reachable (sampleEnd.get sampleEnd_isSome) := by
  obtain ⟨s, hs, hrun⟩ := Option.bind_eq_some_iff.mp (Option.some_get sampleEnd_isSome).symm
  exact Machine.reachable_of_run ⟨sampleStaged_begins hs, rfl, rfl⟩ hrun

/-- The rows of the sample call agree at its end. -/
theorem rows_together_sample : Agree (sampleEnd.get sampleEnd_isSome).rows.states :=
  rows_together sampleEnd_reachable

end Rheostream.Approvals
