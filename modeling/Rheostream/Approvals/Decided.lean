import Rheostream.Approvals.Settlements

/-!
# What a decision leaves

The decisions of people, read off their answers, and one pass of a worker, read off how its
transaction ends. These are the only ways in which the rows of a held call move.
-/

namespace Rheostream.Approvals

variable {Input Output : Type} {s t : HeldCall Output}

attribute [local instance] bytesEq

open Handler

/-! ### Approving -/

section Approving

variable {sha256 : ByteArray → ByteArray} {w : Deployment Input Output} {viewer : Viewer}
  {expected : Option ByteArray} {now : ℕ} {jobId : Uuid} {handler : Input → HandlerAnswer Output}

/-- The row that `mark_approved` leaves of a decidable approval. -/
def markedApproved (w : Deployment Input Output) (now : ℕ) (row : ApprovalRow) : ApprovalRow :=
  (ApprovalRow.markApproved now
    (if row.state = .requiresReapproval then some (now + seconds w.windowSeconds) else none)).set
    row

/-- Approving changes the state of a row, when it was approved and its window. -/
theorem markedApproved_eq (w : Deployment Input Output) (now : ℕ) (row : ApprovalRow) :
    ∃ windowStart windowEnd, markedApproved w now row =
      { row with
        state := .approved
        approvedAt := some now
        windowStart := windowStart
        windowEnd := windowEnd } := by
  unfold markedApproved ApprovalRow.markApproved
  split <;> exact ⟨_, _, rfl⟩

@[simp] theorem markedApproved_state {row : ApprovalRow} :
    (markedApproved w now row).state = .approved := by
  obtain ⟨windowStart, windowEnd, heq⟩ := markedApproved_eq w now row
  rw [heq]

/-- How an approval that answers leaves the rows. -/
inductive Approved (sha256 : ByteArray → ByteArray) (w : Deployment Input Output) (now : ℕ)
    (jobId : Uuid) (s t : HeldCall Output) : Prop where
  /-- The operation ran, in this transaction. -/
  | executed (payload : Json) (output : Output) (hinline : s.action = none)
      (hheld : s.operation.isHeld = true)
      (hdigest : payloadDigest sha256 payload = s.approval.payloadDigest)
      (hwindow : (markedApproved w now s.approval).windowStart ≤ now ∧
        now ≤ (markedApproved w now s.approval).windowEnd)
      (ht : t = { s with
        approval := (ApprovalRow.markExecuted now).set (markedApproved w now s.approval)
        operation := (OperationRow.finishHeldSucceeded now .handlerReturned now).set s.operation
        effects := s.effects ++ [⟨payload, s.approval.destinationRef, output, now⟩] })
  /-- A guard refused the operation that would have run. -/
  | guardRefused (refusal : GuardRefusal) (hinline : s.action = none)
      (ht : t = { s with
        approval := ApprovalRow.markGuardRefused.set (markedApproved w now s.approval)
        operation :=
          ((OperationRow.finishHeldFailed now guardRefused refusal.text).apply s.operation).getD
            s.operation })
  /-- The one continuation job was queued. -/
  | queued (a : ExternalActionRow) (haction : s.action = some a) (hpending : a.state = .pending)
      (hheld : s.operation.isHeld = true) (hjob : s.job = none)
      (ht : t = { s with
        approval := markedApproved w now s.approval
        action := some ((ExternalActionRow.attachJob jobId).set a)
        operation := (OperationRow.startHeld now).set s.operation
        job := some (jobId, .enqueued externalActionExecute (jobInput s.ids.action) now
          w.maxAttempts now none) })
  /-- A guard refused the staged action. -/
  | stagedRefused (refusal : GuardRefusal) (a : ExternalActionRow) (e : IdempotencyRow)
      (haction : s.action = some a) (hopen : a.state.isOpen = true)
      (henvelope : s.envelope = some e) (hpending : e.state = .pending)
      (hheld : s.operation.isHeld = true)
      (ht : t = { s with
        action := some ((ExternalActionRow.settled .refused
          (heldRefusal refusal now).failureClass guardRefused refusal.text now).set a)
        approval := ApprovalRow.markGuardRefused.set (markedApproved w now s.approval)
        operation :=
          (OperationRow.finishHeldFailed now guardRefused (short refusal.text)).set s.operation
        envelope := some ((IdempotencyRow.finishError .refused guardRefused
          (short refusal.text)).set e) })

variable {u : Unit}

theorem executeApproved_answers {r : HeldCall Output} (hinline : s.action = none)
    (hr : r = { s with approval := markedApproved w now s.approval })
    (h : (executeApproved sha256 w now handler).Answers r u t) :
    Approved sha256 w now jobId s t := by
  unfold executeApproved at h
  rw [answers_bind_get, answers_bind_verifiedOr] at h
  obtain ⟨v, hv, h⟩ := h
  have hverified := verified_of_verifySnapshot sha256 hv
  rw [answers_bind_require, bindingDetail_eq_none] at h
  obtain ⟨⟨hdigest, hwindow⟩, h⟩ := h
  subst hr
  split at h
  · rename_i refusal hguards
    simp only [recordGuardRefusal, attempt, answers_bind_write, answers_write] at h
    refine .guardRefused refusal hinline ?_
    rw [h]
    simp only [HeldCall.updateApproval, RowUpdate.apply, ApprovalRow.markGuardRefused,
      markedApproved_state, decide_true, if_true, Option.map_some, Option.getD_some,
      HeldCall.updateOperation]
    cases (if (OperationRow.finishHeldFailed now guardRefused refusal.text).guard s.operation =
      true then some ((OperationRow.finishHeldFailed now guardRefused refusal.text).set
        s.operation) else none) <;> rfl
  · rw [answers_bind_require] at h
    obtain ⟨-, h⟩ := h
    rw [answers_bind_require] at h
    obtain ⟨-, h⟩ := h
    rw [answers_bind] at h
    obtain ⟨output, r', houtput, h⟩ := h
    have hr' : r' = { s with approval := markedApproved w now s.approval } := by
      cases hanswer : handler v.input with
      | returned value =>
        rw [hanswer] at houtput
        exact (answers_pure.mp houtput).2
      | stale | invalid | refused =>
        rw [hanswer] at houtput
        exact absurd houtput answers_refuse
    subst hr'
    simp only [answers_bind_write, answers_bind_must, answers_require,
      HeldCall.updateApproval_eq_some, HeldCall.updateOperation_eq_some] at h
    obtain ⟨_, ⟨-, rfl⟩, _, ⟨hheld, rfl⟩, -, rfl⟩ := h
    obtain ⟨windowStart, windowEnd, heq⟩ := markedApproved_eq w now s.approval
    refine .executed (v.declaration.executablePayload v.input) output hinline hheld ?_ hwindow ?_
    · rw [hdigest]
      dsimp only
      rw [heq]
    · have hdestination : (markedApproved w now s.approval).destinationRef =
          s.approval.destinationRef := by rw [heq]
      simp [HeldCall.addEffect, hdestination]

theorem queueApprovedExternal_answers {r : HeldCall Output} {a : ExternalActionRow}
    (hr : r = { s with approval := markedApproved w now s.approval })
    (h : (queueApprovedExternal sha256 w now jobId a).Answers r u t) :
    Approved sha256 w now jobId s t := by
  unfold queueApprovedExternal at h
  rw [answers_bind_get, answers_bind_found] at h
  obtain ⟨d, -, h⟩ := h
  rw [answers_bind_found] at h
  obtain ⟨body, -, h⟩ := h
  rw [answers_bind_found] at h
  obtain ⟨input, -, h⟩ := h
  rw [answers_bind_require] at h
  obtain ⟨-, h⟩ := h
  rw [answers_bind_require] at h
  obtain ⟨-, h⟩ := h
  subst hr
  split at h
  · rename_i refusal hguards
    obtain ⟨a', e, ha, hopen, he, hpending, -, hheld, rfl⟩ := settle_answers h
    exact .stagedRefused refusal a' e ha hopen he hpending hheld rfl
  · rw [answers_bind_require] at h
    obtain ⟨-, h⟩ := h
    simp only [answers_bind_must, answers_must, HeldCall.updateAction_eq_some,
      HeldCall.updateOperation_eq_some] at h
    obtain ⟨r₁, hjob, _, ⟨a', ha, hpending, rfl⟩, hheld, rfl⟩ := h
    unfold HeldCall.enqueue at hjob
    split at hjob
    · cases hjob
    · rename_i hnone
      obtain rfl := Option.some.inj hjob
      have hstate : a'.state = .pending := by
        simp only [ExternalActionRow.attachJob, Bool.and_eq_true, decide_eq_true_eq] at hpending
        exact hpending.1
      exact .queued a' ha hstate hheld hnone rfl

/-- An approval decides a decidable row, and what follows is all that it does. -/
theorem approve_answers (h : (approve sha256 w viewer expected now jobId handler).Answers s u t) :
    s.approval.state.isDecidable = true ∧ (∃ v, Verified sha256 w s v) ∧
      (s.approval.state ≠ .requiresReapproval →
        s.approval.windowStart ≤ now ∧ now ≤ s.approval.windowEnd) ∧
      Approved sha256 w now jobId s t := by
  unfold approve lockForDecision at h
  rw [answers_bind] at h
  obtain ⟨verified, r, hlocked, h⟩ := h
  simp only [answers_bind_get, answers_bind_require, answers_pure] at hlocked
  obtain ⟨-, -, rfl, rfl⟩ := hlocked
  rw [answers_bind_get, answers_bind_require] at h
  obtain ⟨hdecidable, h⟩ := h
  rw [answers_bind_verifiedOr] at h
  obtain ⟨v, hv, h⟩ := h
  rw [answers_bind_require] at h
  obtain ⟨hinside, h⟩ := h
  rw [answers_bind_require] at h
  obtain ⟨-, h⟩ := h
  rw [answers_bind_must] at h
  obtain ⟨r', hmarked, h⟩ := h
  rw [HeldCall.updateApproval_eq_some] at hmarked
  refine ⟨hdecidable, ⟨v, verified_of_verifySnapshot sha256 hv⟩,
    fun hfresh => hinside.resolve_left hfresh, ?_⟩
  cases haction : r.action with
  | none =>
    rw [haction] at h
    exact executeApproved_answers haction hmarked.2 h
  | some a =>
    rw [haction] at h
    exact queueApprovedExternal_answers hmarked.2 h

/-- How a refusal that answers leaves the rows. -/
theorem refuse_answers (h : (refuse sha256 w viewer expected now).Answers s u t) :
    s.approval.state.isDecidable = true ∧ s.operation.isHeld = true ∧
      (s.action = none ∧ t = { s with
          approval := ApprovalRow.markRefused.set s.approval
          operation := (OperationRow.finishHeldCancelled now).set s.operation } ∨
        ∃ a e, s.action = some a ∧ a.state.isOpen = true ∧ s.envelope = some e ∧
          e.state = .pending ∧ t = { s with
            approval := ApprovalRow.markRefused.set s.approval
            operation := (OperationRow.finishHeldCancelled now).set s.operation
            action := some ((ExternalActionRow.settled .refused .cancelledNoEffect
              "approval_refused" "the approval was refused before any effect" now).set a)
            envelope := some ((IdempotencyRow.finishError .refused "approval_refused"
              (short "the approval was refused before any effect")).set e) }) := by
  unfold refuse lockForDecision at h
  rw [answers_bind] at h
  obtain ⟨verified, r, hlocked, h⟩ := h
  simp only [answers_bind_get, answers_bind_require, answers_pure] at hlocked
  obtain ⟨-, -, rfl, rfl⟩ := hlocked
  simp only [answers_bind_get, answers_bind_require, answers_bind_must,
    HeldCall.updateApproval_eq_some, HeldCall.updateOperation_eq_some] at h
  obtain ⟨hdecidable, -, _, ⟨-, rfl⟩, _, ⟨hheld, rfl⟩, h⟩ := h
  refine ⟨hdecidable, hheld, ?_⟩
  cases haction : r.action with
  | none =>
    rw [haction] at h
    exact .inl ⟨rfl, (answers_pure.mp h).2⟩
  | some a =>
    simp only [haction, refuseStagedExternal, answers_bind_must, answers_must,
      HeldCall.updateAction_eq_some, HeldCall.updateEnvelope_eq_some] at h
    obtain ⟨_, ⟨a', ha, hopen, rfl⟩, e, he, hpending, rfl⟩ := h
    obtain rfl := Option.some.inj ha
    exact .inr ⟨a, e, rfl, hopen, he, by simpa [IdempotencyRow.finishError] using hpending, rfl⟩

end Approving

/-! ### Resolving -/

section Resolving

variable {w : Deployment Input Output} {given : ResolveInput Output}

/-- What a resolution leaves of an unresolved action, and what it rests on. -/
structure Resolved (given : ResolveInput Output) (s t : HeldCall Output) : Prop where
  proof : given.outcome = .succeeded ∧ (∃ output, given.reconcile = .output output) ∨
    given.outcome = .failed ∧ given.reconcile = .nothing ∨ given.outcome = .cancelled
  operation : s.operation.state = .unresolved ∧ t.operation.state = given.outcome.operation ∧
    t.operation.name = s.operation.name ∧ t.operation.approvalId = s.operation.approvalId
  action : ∃ a a', s.action = some a ∧ a.state = .unresolved ∧ t.action = some a' ∧
    a'.state = given.outcome.action ∧ a'.call = a.call
  envelope : ∃ e e', s.envelope = some e ∧ e.state = .unresolved ∧ t.envelope = some e' ∧
    e'.state = given.outcome.envelope ∧ reservedFor e' = reservedFor e
  rest : t.ids = s.ids ∧ t.approval = s.approval ∧ t.payload = s.payload ∧ t.job = s.job ∧
    t.effects = s.effects

variable {u : Unit}

theorem write_answers {state : IdempotencyState} {result : Option Json} {version : Option ℕ}
    {code detail errorCode errorDetail : Option String} (hstate : state = given.outcome.envelope)
    (hproof : given.outcome = .succeeded ∧ (∃ output, given.reconcile = .output output) ∨
      given.outcome = .failed ∧ given.reconcile = .nothing ∨ given.outcome = .cancelled)
    (h : (given.write (envelopeResolved state result version code detail) errorCode
      errorDetail).Answers s u t) : Resolved given s t := by
  unfold ResolveInput.write at h
  simp only [answers_bind_must, answers_must, HeldCall.updateAction_eq_some,
    HeldCall.updateOperation_eq_some, HeldCall.updateEnvelope_eq_some] at h
  obtain ⟨_, ⟨e, he, hreserved, rfl⟩, _, ⟨a, ha, hunresolved, rfl⟩, hop, rfl⟩ := h
  exact
    { proof := hproof
      operation := ⟨by simpa [OperationRow.resolve] using hop, rfl, rfl, rfl⟩
      action := ⟨a, _, ha, by simpa [ExternalActionRow.resolved] using hunresolved, rfl, rfl, rfl⟩
      envelope := ⟨e, _, he, by simpa [envelopeResolved] using hreserved, rfl, hstate, rfl⟩
      rest := ⟨rfl, rfl, rfl, rfl, rfl⟩ }

/-- A verification answers only with what the destination says. -/
theorem verified_answers {a : ExternalActionRow} {p : Declaration Input Output × Option Output}
    (h : (given.verified w a).Answers s p t) :
    t = s ∧ (given.outcome = .succeeded ∧ (∃ output, given.reconcile = .output output) ∨
      given.outcome = .failed ∧ given.reconcile = .nothing) := by
  unfold ResolveInput.verified at h
  simp only [answers_bind_found, answers_bind_require] at h
  obtain ⟨d, -, destination, -, -, h⟩ := h
  split at h
  · rename_i value houtcome hanswer
    exact ⟨(answers_pure.mp h).2, .inl ⟨houtcome, value, hanswer⟩⟩
  · rename_i houtcome hanswer
    exact ⟨(answers_pure.mp h).2, .inr ⟨houtcome, hanswer⟩⟩
  · exact absurd h answers_refuse

/-- A resolution moves the action, its reservation and its record together. -/
theorem resolveExternal_answers (h : (resolveExternal w given).Answers s u t) :
    Resolved given s t := by
  unfold resolveExternal at h
  rw [answers_bind_get, answers_bind_found] at h
  obtain ⟨a, -, h⟩ := h
  rw [answers_bind_require] at h
  obtain ⟨-, h⟩ := h
  cases houtcome : given.outcome with
  | succeeded =>
    simp only [houtcome, answers_bind, answers_found, answers_require] at h
    obtain ⟨⟨d, verified⟩, r, hverified, _, _, ⟨-, rfl⟩, _, _, ⟨-, rfl⟩, _, _, ⟨-, rfl⟩, _, _,
      ⟨-, rfl⟩, h⟩ := h
    obtain ⟨rfl, hproof⟩ := verified_answers hverified
    exact write_answers (by rw [houtcome]; rfl) (hproof.imp id .inl) h
  | failed =>
    simp only [houtcome, answers_bind] at h
    obtain ⟨p, r, hverified, h⟩ := h
    obtain ⟨rfl, hproof⟩ := verified_answers hverified
    exact write_answers (by rw [houtcome]; rfl) (hproof.imp id .inl) h
  | cancelled =>
    simp only [houtcome] at h
    exact write_answers (by rw [houtcome]; rfl) (.inr (.inr houtcome)) h

theorem resolveHandler_answers (h : (resolveHandler w given).Answers s u t) :
    s.operation.state = .unresolved ∧ (s.action = none ∨ Resolved given s t) := by
  unfold resolveHandler at h
  rw [answers_bind_get, answers_bind_require] at h
  obtain ⟨hunresolved, h⟩ := h
  cases haction : s.action with
  | none => exact ⟨hunresolved, .inl rfl⟩
  | some a =>
    rw [haction] at h
    exact ⟨hunresolved, .inr (resolveExternal_answers h)⟩

end Resolving

/-! ### One pass of a worker -/

section Passing

variable {sha256 : ByteArray → ByteArray} {v : Visit Input Output} {owner jobId : Uuid}
  {lease : LeasedJob} {mode : ContinuationMode} {a : ExternalActionRow}

/-- What the binding of an action has checked. -/
theorem lockAndBind_eq_some (h : lockAndBind s jobId owner = some a) :
    s.action = some a ∧ a.state.isOpen = true ∧
      (∃ row, s.job = some (jobId, row) ∧ row.isHeld owner = true) ∧
      s.approval.state = .approved ∧ s.approval.destinationRef = some a.destinationRef ∧
      s.approval.payloadDigest = a.approvalPayloadDigest := by
  unfold lockAndBind at h
  split at h
  · rename_i action envelope id job haction henvelope hjob
    split_ifs at h with hall
    obtain rfl := Option.some.inj h
    obtain ⟨⟨hopen, -⟩, ⟨rfl, -, hheld, -⟩, ⟨happroved, -, -, hdestination, hdigest⟩, -⟩ := hall
    exact ⟨haction, hopen, ⟨job, hjob, hheld⟩, happroved, hdestination, hdigest⟩
  · cases h

/-- The action that this pass works at, when its rows are bound to its lease. -/
def boundAction (lease : LeasedJob) (owner : Uuid) (s : HeldCall Output) :
    Option ExternalActionRow :=
  if namesAction lease.payload s.ids.action then lockAndBind s lease.id owner else none

/-- The call that an invocation makes, at a provider. -/
def providerCall (v : Visit Input Output) (d : Declaration Input Output) (input : Input)
    (destination : Destination) : Option ProviderCall :=
  if destination.mode = .provider then
    some ⟨d.executablePayload input, destination.destinationRef, v.now, v.lands⟩ else none

/-- What stands when a destination is invoked. -/
structure Invoked (sha256 : ByteArray → ByteArray) (v : Visit Input Output) (owner : Uuid)
    (lease : LeasedJob) (mode : ContinuationMode) (s m : HeldCall Output) (a : ExternalActionRow)
    (d : Declaration Input Output) (input : Input) (destination : Destination) : Prop where
  bound : boundAction lease owner s = some a
  running : mode = .run
  advances : Advances s m
  absent : (v.continuing s a lease mode).ShowsAbsence
  rechecked : (v.continuing s a lease mode).rechecked sha256 = .ok (d, input, destination)

/-- How the transaction of one pass ends, and what a provider received in it. -/
inductive Passes (sha256 : ByteArray → ByteArray) (v : Visit Input Output) (owner : Uuid)
    (lease : LeasedJob) (mode : ContinuationMode) (s : HeldCall Output) :
    Ending Output × Option ProviderCall → Prop where
  | faulted : Passes sha256 v owner lease mode s (.raised, none)
  | unbound (hunbound : boundAction lease owner s = none) : Passes sha256 v owner lease mode s
      (v.finish owner lease mode ⟨.failedTerminal, some "grant_refused"⟩ s, none)
  | settled (a : ExternalActionRow) (t : HeldCall Output) (r : ContinuationResult)
      (hbound : boundAction lease owner s = some a)
      (hleaves : Continuing.Leaves (v.continuing s a lease mode).ShowsAbsence
        (v.continuing s a lease mode).Confirmed s t r) :
      Passes sha256 v owner lease mode s (v.finish owner lease mode r t, none)
  | lost (a : ExternalActionRow) (m : HeldCall Output) (d : Declaration Input Output)
      (input : Input) (destination : Destination)
      (hinvoked : Invoked sha256 v owner lease mode s m a d input destination) :
      Passes sha256 v owner lease mode s (.raised, providerCall v d input destination)
  | concluded (a : ExternalActionRow) (m t : HeldCall Output) (d : Declaration Input Output)
      (input : Input) (destination : Destination) (r : ContinuationResult)
      (hinvoked : Invoked sha256 v owner lease mode s m a d input destination)
      (hleaves : (∃ output, v.execute = .output output ∧
          Continuing.Ends .succeeded (if destination.mode = .provider then m else m.addEffect
            ⟨d.executablePayload input, some destination.destinationRef, output, v.now⟩) t r) ∨
        Continuing.Leaves (destination.mode ≠ .provider ∨
          ∃ e, v.execute = .error e ∧ e.failureClass ≠ .outcomeUnknown) False m t r) :
      Passes sha256 v owner lease mode s
        (v.finish owner lease mode r t, providerCall v d input destination)

theorem run_passes (sha256 : ByteArray → ByteArray) (v : Visit Input Output) (owner : Uuid)
    (lease : LeasedJob) (mode : ContinuationMode) (s : HeldCall Output) :
    Passes sha256 v owner lease mode s (v.run sha256 owner lease mode s) := by
  unfold Visit.run
  by_cases hfault : v.fault = some .beforeEffect
  · rw [if_pos hfault]
    exact .faulted
  rw [if_neg hfault]
  have hdef : (if namesAction lease.payload s.ids.action = true then
      lockAndBind s lease.id owner else none) = boundAction lease owner s := rfl
  rw [hdef]
  cases hbound : boundAction lease owner s with
  | none => exact .unbound hbound
  | some a =>
    have hlocked : lockAndBind s lease.id owner = some a := by
      unfold boundAction at hbound
      split_ifs at hbound
      exact hbound
    obtain ⟨haction, hopen, -⟩ := lockAndBind_eq_some hlocked
    simp only
    rcases hprepare : ((v.continuing s a lease mode).prepare sha256 s.ids.action).exec s with
      ⟨_ | p, m⟩
    · exact .faulted
    have hready := Continuing.prepare_answers haction hopen hprepare
    cases p with
    | settled r => exact .settled a m r hbound hready.1
    | invoke d input destination =>
      have hinvoked : Invoked sha256 v owner lease mode s m a d input destination :=
        { bound := hbound
          running := hready.2 _ _ _ rfl
          advances := hready.1.1
          absent := hready.1.2.1
          rechecked := hready.1.2.2 }
      simp only [Visit.invoke]
      by_cases hlost : v.fault.isSome = true
      · rw [if_pos hlost]
        exact .lost a m d input destination hinvoked
      rw [if_neg hlost]
      rcases hconclude :
          ((v.continuing s a lease mode).conclude d input destination v.execute).exec m with
        ⟨_ | r, t⟩
      · exact .lost a m d input destination hinvoked
      · exact .concluded a m t d input destination r hinvoked
          (Continuing.conclude_answers hconclude)

/-- The job write of a continuation needs the lease, and leaves the state of its disposition. -/
theorem finishContinuationJob_eq_some {r : ContinuationResult} {now : ℕ} {jitter : Option ℕ}
    {write : JobWrite} {row : JobRow}
    (h : finishContinuationJob lease owner mode r now jitter = some write)
    (hguard : write.guard row = true) :
    row.isHeld owner = true ∧
      (∀ k : Ended, r.disposition = k.disposition → (write.set row).state = k.job) ∧
      (r.disposition = .retry → (write.set row).state = .queued) ∧
      (write.set row).attempts = row.attempts := by
  have hheld (hflagless : row.isHeldUnflagged owner = true) : row.isHeld owner = true := by
    simp only [JobRow.isHeldUnflagged, Bool.and_eq_true] at hflagless
    exact hflagless.1
  -- Each disposition has one write, or two that leave the same state.
  have hends (k : Ended) (hk : r.disposition = k.disposition) (hours : row.isHeld owner = true)
      (hstate : (write.set row).state = k.job)
      (hattempts : (write.set row).attempts = row.attempts) :
      row.isHeld owner = true ∧
        (∀ k' : Ended, r.disposition = k'.disposition → (write.set row).state = k'.job) ∧
        (r.disposition = .retry → (write.set row).state = .queued) ∧
        (write.set row).attempts = row.attempts := by
    refine ⟨hours, fun k' hk' => hstate.trans ?_, fun hretry => ?_, hattempts⟩
    · have heq := hk.symm.trans hk'
      cases k <;> cases k' <;> first | rfl | cases heq
    · have heq := hk.symm.trans hretry
      cases k <;> cases heq
  unfold finishContinuationJob at h
  split at h
  · rename_i hk
    cases h
    exact hends .cancelled hk hguard rfl rfl
  · rename_i hdisposition
    split_ifs at h
    cases h
    refine ⟨hheld hguard, fun k hk => ?_, fun _ => rfl, rfl⟩
    cases k <;> rw [hdisposition] at hk <;> cases hk
  · rename_i hk
    split_ifs at h <;> cases h
    · exact hends .failed hk hguard rfl rfl
    · exact hends .failed hk (hheld hguard) rfl rfl
  · rename_i hk
    split_ifs at h <;> cases h
    · exact hends .succeeded hk hguard rfl rfl
    · exact hends .succeeded hk (hheld hguard) rfl rfl
  · rename_i hk
    split_ifs at h <;> cases h
    · exact hends .refused hk hguard rfl rfl
    · exact hends .refused hk (hheld hguard) rfl rfl

/-- A pass that commits has written the job, which it still held. -/
theorem finish_eq_committed {r : ContinuationResult} {u : HeldCall Output}
    (h : v.finish owner lease mode r t = .committed u) :
    ∃ (write : JobWrite) (row : JobRow), t.job = some (lease.id, row) ∧
      row.isHeld owner = true ∧
      (∀ k : Ended, r.disposition = k.disposition → (write.set row).state = k.job) ∧
      (r.disposition = .retry → (write.set row).state = .queued) ∧
      (write.set row).attempts = row.attempts ∧
      u = { t with job := some (lease.id, write.set row) } := by
  unfold Visit.finish at h
  split at h
  · rename_i u' hwrite
    cases h
    obtain ⟨write, hfinish, hupdate⟩ := Option.bind_eq_some_iff.mp hwrite
    obtain ⟨row, hrow, hguard, rfl⟩ := HeldCall.updateJob_eq_some.mp hupdate
    obtain ⟨hheld, hended, hretried, hattempts⟩ := finishContinuationJob_eq_some hfinish hguard
    exact ⟨write, row, hrow, hheld, hended, hretried, hattempts, rfl⟩
  · cases h

end Passing

end Rheostream.Approvals
