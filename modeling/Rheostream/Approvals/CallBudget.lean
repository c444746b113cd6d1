import Rheostream.Approvals.CallRuns

/-!
# What a provider is called with, and how often

A provider is called at most once under each attempt that the budget of the job allows, and always
with what was approved, at the approved destination.
-/

namespace Rheostream.Approvals

variable {Input Output : Type} {sha256 : ByteArray → ByteArray} {s t : CallState Output}

attribute [local instance] bytesEq

/-! ### What a pass does -/

section Passing

variable {v : Visit Input Output} {owner : Uuid} {lease : LeasedJob} {mode : ContinuationMode}
  {rows u : HeldCall Output} {p : Ending Output × Option ProviderCall}

/-- A pass that ends as this result commits only its job write beside the rows that it had. -/
theorem finish_spent {r : ContinuationResult}
    (h : v.finish owner lease mode r rows = .committed u) :
    ∃ row row', rows.job = some (lease.id, row) ∧ row.isHeld owner = true ∧
      u = { rows with job := some (lease.id, row') } ∧ row'.attempts = row.attempts ∧
      row'.maxAttempts = row.maxAttempts ∧ ∀ o, row'.isHeld o = false := by
  obtain ⟨write, row, hrow, hheld, hended, hretried, hattempts, rfl⟩ := finish_eq_committed h
  refine ⟨row, _, hrow, hheld, rfl, hattempts, (write.set_identity row).2.2.2, fun o => ?_⟩
  have hstate : (write.set row).state ≠ .leased := by
    cases hdisposition : r.disposition with
    | succeeded => simp [hended .succeeded hdisposition, Ended.job]
    | handledTerminal => simp [hended .refused hdisposition, Ended.job]
    | failedTerminal => simp [hended .failed hdisposition, Ended.job]
    | cancelledTerminal => simp [hended .cancelled hdisposition, Ended.job]
    | retry => simp [hretried hdisposition]
  simp [JobRow.isHeld, hstate]

theorem Continuing.Leaves.job_eq {absent landed : Prop} {r : ContinuationResult}
    (h : Continuing.Leaves absent landed rows u r) :
    u.job = rows.job ∧ u.effects = rows.effects := by
  cases h with
  | closed k hends => exact ⟨hends.1.rest.2.2.1, hends.1.rest.2.2.2⟩
  | retried hadvances =>
    obtain ⟨_, _, -, -, -, -, rfl⟩ := hadvances.action
    exact ⟨rfl, rfl⟩

/-- What an invocation is for is what was approved. -/
theorem Invoked.approved {m : HeldCall Output} {a : ExternalActionRow}
    {d : Declaration Input Output} {input : Input} {destination : Destination}
    (h : Invoked sha256 v owner lease mode rows m a d input destination) :
    payloadDigest sha256 (d.executablePayload input) = rows.approval.payloadDigest ∧
      some destination.destinationRef = rows.approval.destinationRef := by
  obtain ⟨-, -, -, -, hdestination, hdigest⟩ := boundAction_eq_some h.bound
  obtain ⟨-, -, hfound, -, hrechecked, -⟩ := Continuing.rechecked_eq_ok h.rechecked
  have hregistered : v.deployment.destination a.destinationRef = some destination := hfound
  rw [hdestination, Deployment.destination_ref hregistered]
  exact ⟨hrechecked.trans hdigest.symm, rfl⟩

/-- A call that a provider received was made under the lease, once. -/
theorem call_of_passes {call : ProviderCall}
    (h : Passes sha256 v owner lease mode rows p) (hcall : p.2 = some call) :
    ∃ m a d input destination,
      Invoked sha256 v owner lease mode rows m a d input destination ∧
        providerCall v d input destination = some call := by
  cases h with
  | faulted | unbound | settled => cases hcall
  | lost a m d input destination hinvoked =>
    exact ⟨m, a, d, input, destination, hinvoked, hcall⟩
  | concluded a m t d input destination r hinvoked =>
    exact ⟨m, a, d, input, destination, hinvoked, hcall⟩

/-- A pass that commits spends no attempt, nobody holds the job after it, and the effects are
those before it, but for the one of a destination in this process. -/
theorem committed_of_passes (h : Passes sha256 v owner lease mode rows p)
    (hcommitted : p.1 = .committed u) :
    (∃ row row', rows.job = some (lease.id, row) ∧ u.job = some (lease.id, row') ∧
      row'.attempts = row.attempts ∧ row'.maxAttempts = row.maxAttempts ∧
      ∀ o, row'.isHeld o = false) ∧
    (u.effects = rows.effects ∨ ∃ m a d input destination output,
      Invoked sha256 v owner lease mode rows m a d input destination ∧
        u.effects = rows.effects ++
          [⟨d.executablePayload input, some destination.destinationRef, output, v.now⟩]) := by
  cases h with
  | faulted | lost => cases hcommitted
  | unbound =>
    obtain ⟨row, row', hrow, -, rfl, hspent⟩ := finish_spent hcommitted
    exact ⟨⟨row, row', hrow, rfl, hspent⟩, .inl rfl⟩
  | settled a t r hbound hleaves =>
    obtain ⟨row, row', hrow, -, rfl, hspent⟩ := finish_spent hcommitted
    obtain ⟨hjob, heffects⟩ := hleaves.job_eq
    exact ⟨⟨row, row', hjob.symm.trans hrow, rfl, hspent⟩, .inl heffects⟩
  | concluded a m t d input destination r hinvoked hleaves =>
    obtain ⟨row, row', hrow, -, rfl, hspent⟩ := finish_spent hcommitted
    obtain ⟨_, _, -, -, -, -, rfl⟩ := hinvoked.advances.action
    rcases hleaves with ⟨output, -, ⟨hcloses, -⟩⟩ | hleaves
    · obtain ⟨-, -, hjob, heffects⟩ := hcloses.rest
      split_ifs at hjob heffects
      · exact ⟨⟨row, row', hjob.symm.trans hrow, rfl, hspent⟩, .inl heffects⟩
      · exact ⟨⟨row, row', hjob.symm.trans hrow, rfl, hspent⟩,
          .inr ⟨_, a, d, input, destination, output, hinvoked, heffects⟩⟩
    · obtain ⟨hjob, heffects⟩ := hleaves.job_eq
      exact ⟨⟨row, row', hjob.symm.trans hrow, rfl, hspent⟩, .inl heffects⟩

end Passing

/-- An erasure writes the approval, its payload and the record. -/
theorem eraseDependents_rest (rows : HeldCall Output) (now : ℕ) :
    (rows.eraseDependents now).action = rows.action ∧
      (rows.eraseDependents now).job = rows.job ∧
      (rows.eraseDependents now).effects = rows.effects ∧
      ((rows.eraseDependents now).approval.state = rows.approval.state ∨
        rows.approval.state ≠ .executed ∧
          (rows.eraseDependents now).approval.state = .invalidated) := by
  rcases eraseDependents_cases rows now with heq | ⟨hguard, heq⟩ <;> rw [heq]
  · exact ⟨rfl, rfl, rfl, .inl rfl⟩
  · refine ⟨rfl, rfl, rfl, .inr ⟨fun hexecuted => ?_, rfl⟩⟩
    simp [ApprovalRow.invalidate, hexecuted] at hguard

/-! ### The budget -/

/-- Only a lease within the budget, of a job that nobody asked to cancel, may run. -/
theorem continuationMode_eq_run {leased : LeasedJob} (h : continuationMode leased = .run) :
    leased.cancelRequested = false ∧ leased.attempts ≤ leased.maxAttempts := by
  unfold continuationMode at h
  split_ifs at h with hflag hspent
  exact ⟨by simpa using hflag, not_lt.mp hspent⟩

/-- The calls are counted by the attempts of the job, and its holder has one left until it calls. -/
structure Budgeted (s : CallState Output) : Prop where
  unqueued : s.rows.job = none → s.calls = []
  counted : ∀ id row, s.rows.job = some (id, row) →
    (s.calls.length : ℤ) ≤ row.attempts ∧ s.calls.length ≤ row.maxAttempts
  holder : ∀ id row owner worker, s.rows.job = some (id, row) → row.isHeld owner = true →
    s.workers.lookup owner = some worker → worker.lease.attempts = row.attempts ∧
      (worker.phase = .running → worker.mode = .run →
        (s.calls.length : ℤ) < row.attempts ∧ row.attempts ≤ row.maxAttempts)

namespace Budgeted

/-- Writes of other rows spend nothing. -/
theorem of_job_eq {rows : HeldCall Output} (h : Budgeted s) (hjob : rows.job = s.rows.job) :
    Budgeted { s with rows := rows } where
  unqueued hnone := h.unqueued (hjob.symm.trans hnone)
  counted id row hrow := h.counted id row (hjob.symm.trans hrow)
  holder id row owner worker hrow := h.holder id row owner worker (hjob.symm.trans hrow)

/-- A write of the job that spends no attempt and gives the lease to nobody else. -/
theorem of_write {id : Uuid} {row : JobRow} (h : Budgeted s) (write : JobWrite)
    (hjob : s.rows.job = some (id, row)) (hattempts : (write.set row).attempts = row.attempts)
    (hheld : ∀ owner, (write.set row).isHeld owner = true → row.isHeld owner = true) :
    Budgeted { s with rows := { s.rows with job := some (id, write.set row) } } where
  unqueued hnone := by cases hnone
  counted id' row' hrow := by
    cases hrow
    rw [hattempts, (write.set_identity row).2.2.2]
    exact h.counted id row hjob
  holder id' row' owner worker hrow howner hworker := by
    cases hrow
    rw [hattempts, (write.set_identity row).2.2.2]
    exact h.holder id row owner worker hjob (hheld owner howner) hworker

variable {worker : Worker}

/-- A worker that has called, or must not, keeps its lease. -/
theorem insert {owner : Uuid} {worker' : Worker} (h : Budgeted s)
    (hworker : s.workers.lookup owner = some worker) (hlease : worker'.lease = worker.lease)
    (hdone : worker'.phase = .running → worker'.mode ≠ .run) :
    Budgeted { s with workers := s.workers.insert owner worker' } where
  unqueued := h.unqueued
  counted := h.counted
  holder id row o w hrow hheld hlookup := by
    simp only [Table.lookup_insert] at hlookup
    split_ifs at hlookup with ho
    · subst ho
      cases hlookup
      rw [hlease]
      exact ⟨(h.holder id row _ worker hrow hheld hworker).1,
        fun hphase hmode => absurd hmode (hdone hphase)⟩
    · exact h.holder id row o w hrow hheld hlookup

theorem erase {owner : Uuid} (h : Budgeted s) :
    Budgeted { s with workers := s.workers.erase owner } where
  unqueued := h.unqueued
  counted := h.counted
  holder id row o w hrow hheld hlookup :=
    h.holder id row o w hrow hheld (Table.lookup_erase_eq_some.mp hlookup).2

/-- A call is made by the holder of the job, with an attempt left. -/
theorem call_room {owner : Uuid} {v : Visit Input Output} {p : Ending Output × Option ProviderCall}
      {call : ProviderCall} (h : Budgeted s)
    (hworker : s.workers.lookup owner = some worker) (hphase : worker.phase = .running)
    (hpasses : Passes sha256 v owner worker.lease worker.mode s.rows p) (hcall : p.2 = some call) :
    ∃ row, s.rows.job = some (worker.lease.id, row) ∧ row.isHeld owner = true ∧
      (s.calls.length : ℤ) < row.attempts ∧ row.attempts ≤ row.maxAttempts := by
  obtain ⟨m, a, d, input, destination, hinvoked, -⟩ := call_of_passes hpasses hcall
  obtain ⟨-, -, ⟨row, hjob, hheld⟩, -⟩ := boundAction_eq_some hinvoked.bound
  exact ⟨row, hjob, hheld,
    (h.holder _ row owner worker hjob hheld hworker).2 hphase hinvoked.running⟩

/-- A pass keeps the calls within the attempts. -/
theorem counted_pass {owner : Uuid} {v : Visit Input Output} {p : Ending Output × Option
      ProviderCall} (h : Budgeted s)
    (hworker : s.workers.lookup owner = some worker) (hphase : worker.phase = .running)
    (hpasses : Passes sha256 v owner worker.lease worker.mode s.rows p) :
    (s.rows.job = none → s.calls ++ p.2.toList = []) ∧
      ∀ id row, s.rows.job = some (id, row) →
        ((s.calls ++ p.2.toList).length : ℤ) ≤ row.attempts ∧
          (s.calls ++ p.2.toList).length ≤ row.maxAttempts := by
  cases hcall : p.2 with
  | none => simpa using ⟨h.unqueued, h.counted⟩
  | some call =>
    obtain ⟨row, hjob, -, hless, hmost⟩ := h.call_room hworker hphase hpasses hcall
    refine ⟨fun hnone => absurd (hjob.symm.trans hnone) (by simp), fun id row' hrow => ?_⟩
    cases hjob.symm.trans hrow
    simp only [Option.toList_some, List.length_append, List.length_singleton]
    omega

/-- A pass that does not commit leaves its worker with nothing more to call. -/
theorem ended {owner : Uuid} {v : Visit Input Output} {phase : WorkerPhase}
    {p : Ending Output × Option ProviderCall} (h : Budgeted s)
    (hworker : s.workers.lookup owner = some worker) (hphase : worker.phase = .running)
    (hpasses : Passes sha256 v owner worker.lease worker.mode s.rows p) (hdone : phase ≠ .running) :
    Budgeted ⟨s.rows, s.calls ++ p.2.toList,
      s.workers.insert owner { worker with phase := phase }⟩ := by
  obtain ⟨hnone, hcounted⟩ := h.counted_pass hworker hphase hpasses
  refine ⟨hnone, hcounted, fun id row o w hrow hheld hlookup => ?_⟩
  simp only [Table.lookup_insert] at hlookup
  split_ifs at hlookup with ho
  · subst ho
    cases hlookup
    exact ⟨(h.holder id row _ worker hrow hheld hworker).1, fun hrunning => absurd hrunning hdone⟩
  · cases hcall : p.2 with
    | none => simpa using h.holder id row o w hrow hheld hlookup
    | some call =>
      -- The one who called held the job.
      obtain ⟨row', hjob, hheld', -⟩ := h.call_room hworker hphase hpasses hcall
      cases hjob.symm.trans hrow
      have hsame : owner = o := Option.some.inj ((JobRow.isHeld_iff.mp hheld').1.symm.trans
        (JobRow.isHeld_iff.mp hheld).1)
      exact absurd hsame.symm ho

theorem step {a : CallAction Input Output} (h : Budgeted s) (hconsistent : Consistent s)
    (hmoves : CallMoves sha256 s a t) : Budgeted t := by
  cases hmoves with
  | stayed => exact h
  | approved hdecidable hbecame =>
    obtain ⟨-, hnone, -⟩ := hconsistent.coherent.of_decidable hdecidable
    cases hbecame with
    | executed _ _ _ _ _ _ ht | guardRefused _ _ ht | stagedRefused _ _ _ _ _ _ _ _ ht =>
      exact h.of_job_eq (by rw [ht])
    | queued a haction hpending hheld hjob ht =>
      subst ht
      have hcalls := h.unqueued hnone
      constructor
      · intro hunqueued
        cases hunqueued
      · intro id row hrow
        cases hrow
        simp [hcalls, JobRow.enqueued]
      · intro id row owner worker hrow
        cases hrow
        simp [JobRow.isHeld, JobRow.enqueued]
  | refused hanswers =>
    obtain ⟨-, -, hbecame⟩ := refuse_answers hanswers
    rcases hbecame with ⟨-, rfl⟩ | ⟨a, e, -, -, -, -, rfl⟩
    · exact h.of_job_eq rfl
    · exact h.of_job_eq rfl
  | resolved _ hanswers =>
    obtain ⟨-, -, hresolved⟩ := hconsistent.coherent.of_resolved hanswers
    exact h.of_job_eq hresolved.rest.2.2.2.1
  | erased now => exact h.of_job_eq (eraseDependents_rest s.rows now).2.1
  | tampered payload => exact h.of_job_eq rfl
  | @requested now id row hjob hguard =>
    refine h.of_write (.requestCancellation now) hjob rfl fun owner hheld => ?_
    have hkept := requestCancellation_state now (hconsistent.coherent.bound.job id row hjob).1
    rw [JobRow.isHeld_iff] at hheld ⊢
    exact ⟨hheld.1, hkept.symm.trans hheld.2⟩
  | @acquired owner now id row hidle hjob hdue =>
    have hcounted := h.counted id row hjob
    constructor
    · intro hnone
      cases hnone
    · intro id' row' hrow
      cases hrow
      simp only [JobWrite.set, JobWrite.update, JobRow.acquireLease]
      split_ifs <;> omega
    · intro id' row' o worker hrow hheld hworker
      cases hrow
      obtain rfl : owner = o := Option.some.inj (JobRow.isHeld_iff.mp hheld).1
      simp only [Table.lookup_insert, if_true] at hworker
      cases hworker
      refine ⟨rfl, fun _ hmode => ?_⟩
      obtain ⟨hflag, hleft⟩ := continuationMode_eq_run hmode
      have hunflagged : row.cancelRequested = false := hflag
      have hattempts : ((JobWrite.acquireLease owner now leaseSeconds).set row).attempts =
          row.attempts + 1 := if_neg (by simp [hunflagged])
      have hless : (s.calls.length : ℤ) < row.attempts + 1 := by omega
      exact ⟨hless.trans_eq hattempts.symm, hleft⟩
  | @visited owner v worker p _ hworker hphase hpasses =>
    obtain ⟨hnone, hcounted⟩ := h.counted_pass hworker hphase hpasses
    unfold CallState.ended
    cases hending : p.1 with
    | committed rows =>
      obtain ⟨⟨row, row', hjob, hjob', hattempts, hmax, hfree⟩, -⟩ :=
        committed_of_passes hpasses hending
      refine ⟨fun h' => ?_, fun id r hr => ?_, fun id r o w hr hheld => ?_⟩
      · rw [hjob'] at h'
        cases h'
      · cases hjob'.symm.trans hr
        rw [hattempts, hmax]
        exact hcounted _ _ hjob
      · cases hjob'.symm.trans hr
        rw [hfree o] at hheld
        cases hheld
    | unapplied => exact h.ended hworker hphase hpasses (by simp)
    | raised => exact h.ended hworker hphase hpasses (by simp)
  | @requeued owner id next error row hjob hguard =>
    refine (h.of_write (.requeueForRetry owner next error) hjob rfl fun o hheld => ?_).erase
    have hstate : JobState.queued = .leased := (JobRow.isHeld_iff.mp hheld).2
    cases hstate
  | overtaken hworker | rechecked hworker => exact h.insert hworker rfl (by simp)
  | left owner => exact h.erase

end Budgeted

theorem budgeted (h : (heldCallMachine sha256 Input Output).Reachable s) : Budgeted s := by
  refine Machine.Reachable.invariant ?_ ?_ h
  · rintro r ⟨hbegins, hcalls, -⟩
    refine ⟨fun _ => hcalls, fun id row hrow => ?_, fun id row owner worker hrow => ?_⟩
    all_goals
      rw [hbegins.coherent.2.1] at hrow
      cases hrow
  · intro r a u hreach hr hstep
    exact hr.step ((consistent_isInvariant sha256 Input Output).of_reachable hreach)
      (step_moves hstep)

/-- In every reachable state providers have been called at most once for each attempt of the job,
and at most as often as its budget allows; while there is no job, not at all. -/
theorem calls_within_budget (h : (heldCallMachine sha256 Input Output).Reachable s) :
    (s.rows.job = none → s.calls = []) ∧ ∀ id row, s.rows.job = some (id, row) →
      (s.calls.length : ℤ) ≤ row.attempts ∧ s.calls.length ≤ row.maxAttempts :=
  ⟨(budgeted h).unqueued, (budgeted h).counted⟩

/-- The sample call is made once, within its attempts. -/
theorem calls_within_budget_sample : (sampleEnd.get sampleEnd_isSome).calls.length = 1 ∧
      ∀ id row, (sampleEnd.get sampleEnd_isSome).rows.job = some (id, row) →
        ((sampleEnd.get sampleEnd_isSome).calls.length : ℤ) ≤ row.attempts ∧
          (sampleEnd.get sampleEnd_isSome).calls.length ≤ row.maxAttempts :=
  ⟨by decide +kernel, (calls_within_budget sampleEnd_reachable).2⟩

/-! ### What was approved -/

/-- A payload and a destination are those that the approval binds. -/
def ApprovedFor (sha256 : ByteArray → ByteArray) (row : ApprovalRow) (payload : Json)
    (destination : Option RefText) : Prop :=
  payloadDigest sha256 payload = row.payloadDigest ∧ destination = row.destinationRef

/-- Everything that was done is what the approval binds. -/
structure Sealed (sha256 : ByteArray → ByteArray) (s : CallState Output) : Prop where
  calls : ∀ call ∈ s.calls, ApprovedFor sha256 s.rows.approval call.payload (some call.destination)
  effects : ∀ effect ∈ s.rows.effects,
    ApprovedFor sha256 s.rows.approval effect.payload effect.destination

theorem ApprovedFor.of_boundTo {row row' : ApprovalRow} {payload : Json}
    {destination : Option RefText} (h : ApprovedFor sha256 row payload destination)
    (hbound : row'.boundTo = row.boundTo) : ApprovedFor sha256 row' payload destination := by
  simp only [ApprovalRow.boundTo, Prod.mk.injEq] at hbound
  obtain ⟨-, -, hdestination, hdigest⟩ := hbound
  exact ⟨h.1.trans hdigest.symm, h.2.trans hdestination.symm⟩

/-- An approval binds the same call after it, and its effect is of that call. -/
theorem Approved.sealed {w : Deployment Input Output} {now : ℕ} {jobId : Uuid}
    {rows rows' : HeldCall Output} (h : Approved sha256 w now jobId rows rows') :
    rows'.approval.boundTo = rows.approval.boundTo ∧
      (rows'.effects = rows.effects ∨ ∃ effect, rows'.effects = rows.effects ++ [effect] ∧
        ApprovedFor sha256 rows.approval effect.payload effect.destination) := by
  cases h with
  | executed payload output hinline hheld hdigest hwindow ht =>
    subst ht
    exact ⟨boundTo_markedApproved, .inr ⟨_, rfl, hdigest, rfl⟩⟩
  | guardRefused _ _ ht | queued _ _ _ _ _ ht | stagedRefused _ _ _ _ _ _ _ _ ht =>
    subst ht
    exact ⟨boundTo_markedApproved, .inl rfl⟩

namespace Sealed

/-- Rows that bind the same call, with effects of that call only. -/
theorem of_rows {rows : HeldCall Output} (h : Sealed sha256 s)
    (hbound : rows.approval.boundTo = s.rows.approval.boundTo)
    (heffects : rows.effects = s.rows.effects) : Sealed sha256 { s with rows := rows } where
  calls call hcall := (h.calls call hcall).of_boundTo hbound
  effects effect heffect := (h.effects effect (heffects ▸ heffect)).of_boundTo hbound

/-- What a pass leaves of the calls. -/
theorem calls_pass {v : Visit Input Output} {owner : Uuid} {lease : LeasedJob}
    {mode : ContinuationMode} {p : Ending Output × Option ProviderCall} (h : Sealed sha256 s)
    (hpasses : Passes sha256 v owner lease mode s.rows p) :
    ∀ call ∈ s.calls ++ p.2.toList,
      ApprovedFor sha256 s.rows.approval call.payload (some call.destination) := by
  intro call hcall
  rcases List.mem_append.mp hcall with hold | hnew
  · exact h.calls call hold
  · obtain ⟨m, a, d, input, destination, hinvoked, hprovider⟩ :=
      call_of_passes hpasses (Option.mem_toList.mp hnew)
    unfold providerCall at hprovider
    split_ifs at hprovider
    cases hprovider
    exact hinvoked.approved

theorem step {a : CallAction Input Output} (h : Sealed sha256 s) (hconsistent : Consistent s)
    (hmoves : CallMoves sha256 s a t) : Sealed sha256 t := by
  cases hmoves with
  | stayed => exact h
  | approved hdecidable hbecame =>
    obtain ⟨hbound, heffects | ⟨effect, heffects, happroved⟩⟩ := hbecame.sealed
    · exact h.of_rows hbound heffects
    · refine ⟨fun call hcall => (h.calls call hcall).of_boundTo hbound, fun e he => ?_⟩
      simp only [heffects, List.mem_append, List.mem_singleton] at he
      rcases he with hold | rfl
      · exact (h.effects e hold).of_boundTo hbound
      · exact happroved.of_boundTo hbound
  | refused hanswers =>
    obtain ⟨-, -, hbecame⟩ := refuse_answers hanswers
    rcases hbecame with ⟨-, rfl⟩ | ⟨a, e, -, -, -, -, rfl⟩
    · exact h.of_rows rfl rfl
    · exact h.of_rows rfl rfl
  | resolved _ hanswers =>
    obtain ⟨-, hsame, hresolved⟩ := hconsistent.coherent.of_resolved hanswers
    exact h.of_rows hsame.approval hresolved.rest.2.2.2.2
  | erased now =>
    exact h.of_rows (hconsistent.coherent.erased now).2.approval
      (eraseDependents_rest s.rows now).2.2.1
  | @visited owner v worker p _ hworker hphase hpasses =>
    have hcalls := h.calls_pass hpasses
    unfold CallState.ended
    cases hending : p.1 with
    | committed rows =>
      have hleased := hconsistent.leases owner worker hworker
      have hbound := (hconsistent.coherent.of_passes hleased hpasses hending).2.approval
      refine ⟨fun call hcall => (hcalls call hcall).of_boundTo hbound, fun e he => ?_⟩
      rcases (committed_of_passes hpasses hending).2 with
        heffects | ⟨m, a, d, input, destination, output, hinvoked, heffects⟩
      · exact (h.effects e (heffects ▸ he)).of_boundTo hbound
      · simp only [heffects, List.mem_append, List.mem_singleton] at he
        rcases he with hold | rfl
        · exact (h.effects e hold).of_boundTo hbound
        · exact ApprovedFor.of_boundTo hinvoked.approved hbound
    | unapplied | raised => exact ⟨hcalls, h.effects⟩
  | tampered | requested => exact h.of_rows rfl rfl
  | acquired | requeued | overtaken | rechecked | left => exact ⟨h.calls, h.effects⟩

end Sealed

/-- In every run, whoever rewrites the stored payload meanwhile: a provider is only called with a
payload of the approved digest at the approved destination, and no other effect commits. -/
theorem only_what_was_approved (h : (heldCallMachine sha256 Input Output).Reachable s) :
    (∀ call ∈ s.calls, ApprovedFor sha256 s.rows.approval call.payload (some call.destination)) ∧
      ∀ effect ∈ s.rows.effects,
        ApprovedFor sha256 s.rows.approval effect.payload effect.destination := by
  have hsealed : Sealed sha256 s := by
    refine Machine.Reachable.invariant ?_ ?_ h
    · rintro r ⟨hbegins, hcalls, -⟩
      refine ⟨?_, ?_⟩
      · rw [hcalls]
        simp
      · rw [hbegins.coherent.2.2.1]
        simp
    · intro r a u hreach hr hstep
      exact hr.step ((consistent_isInvariant sha256 Input Output).of_reachable hreach)
        (step_moves hstep)
  exact ⟨hsealed.calls, hsealed.effects⟩

/-- Its one call carries what was approved. -/
theorem only_what_was_approved_sample : (sampleEnd.get sampleEnd_isSome).calls.length = 1 ∧
      ∀ call ∈ (sampleEnd.get sampleEnd_isSome).calls,
        ApprovedFor sampleDigest (sampleEnd.get sampleEnd_isSome).rows.approval call.payload
          (some call.destination) :=
  ⟨by decide +kernel, (only_what_was_approved sampleEnd_reachable).1⟩

end Rheostream.Approvals
