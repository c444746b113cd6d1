import Rheostream.Approvals.HeldCalls

/-!
# What a continuation leaves

Each handler of the continuation, read off its answer: it closes the rows of the call in one way,
or leaves the action open. Beside the way stands what the answer rests on, since only a proof of
absence, or of success, may close a call as one.
-/

namespace Rheostream.Approvals

variable {Input Output : Type} {s t : HeldCall Output}

attribute [local instance] bytesEq

open Handler

/-! ### Writes of one row -/

namespace HeldCall

theorem map_apply_eq_some {Row : Type} {u : RowUpdate Row} {row : Row} {f : Row → HeldCall Output} :
    (u.apply row).map f = some t ↔ u.guard row = true ∧ t = f (u.set row) := by
  simp only [Option.map_eq_some_iff, RowUpdate.apply_eq_some]
  constructor
  · rintro ⟨_, ⟨hguard, rfl⟩, rfl⟩
    exact ⟨hguard, rfl⟩
  · rintro ⟨hguard, rfl⟩
    exact ⟨_, ⟨hguard, rfl⟩, rfl⟩

theorem bind_apply_eq_some {Row : Type} {u : RowUpdate Row} {stored : Option Row}
    {f : Row → HeldCall Output} : (stored.bind u.apply).map f = some t ↔
      ∃ row, stored = some row ∧ u.guard row = true ∧ t = f (u.set row) := by
  cases stored with
  | none => simp
  | some row => simpa using map_apply_eq_some

theorem updateApproval_eq_some {u : RowUpdate ApprovalRow} :
    s.updateApproval u = some t ↔
      u.guard s.approval = true ∧ t = { s with approval := u.set s.approval } :=
  map_apply_eq_some

theorem updateOperation_eq_some {u : RowUpdate OperationRow} :
    s.updateOperation u = some t ↔
      u.guard s.operation = true ∧ t = { s with operation := u.set s.operation } :=
  map_apply_eq_some

theorem updateAction_eq_some {u : RowUpdate ExternalActionRow} :
    s.updateAction u = some t ↔
      ∃ a, s.action = some a ∧ u.guard a = true ∧ t = { s with action := some (u.set a) } :=
  bind_apply_eq_some

theorem updateEnvelope_eq_some {u : RowUpdate IdempotencyRow} :
    s.updateEnvelope u = some t ↔
      ∃ e, s.envelope = some e ∧ u.guard e = true ∧
        t = { s with envelope := some (u.set e) } :=
  bind_apply_eq_some

theorem updateJob_eq_some {u : RowUpdate JobRow} {id : Uuid} :
    s.updateJob id u = some t ↔
      ∃ row, s.job = some (id, row) ∧ u.guard row = true ∧
        t = { s with job := some (id, u.set row) } := by
  unfold updateJob
  cases hjob : s.job with
  | none => simp
  | some entry =>
    obtain ⟨jobId, row⟩ := entry
    by_cases hid : jobId = id
    · subst hid
      simp only [if_true, Option.map_eq_some_iff, RowUpdate.apply_eq_some, Option.some.injEq,
        Prod.mk.injEq, true_and]
      constructor
      · rintro ⟨_, ⟨hguard, rfl⟩, rfl⟩
        exact ⟨row, rfl, hguard, rfl⟩
      · rintro ⟨_, rfl, hguard, rfl⟩
        exact ⟨_, ⟨hguard, rfl⟩, rfl⟩
    · simp [hid]

end HeldCall

/-! ### The ways in which a continuation ends a call -/

/-- How the rows of a staged call end. -/
inductive Ended where
  | succeeded
  | refused
  | failed
  | cancelled
  | unresolved
  deriving DecidableEq

namespace Ended

def action : Ended → ActionState
  | succeeded => .succeeded
  | refused => .refused
  | failed => .failed
  | cancelled => .cancelled
  | unresolved => .unresolved

/-- The approval is consumed where the effect may have taken place, and after a last attempt. -/
def approval : Ended → ApprovalState
  | succeeded | failed | unresolved => .executed
  | refused | cancelled => .refused

def operation : Ended → OperationState
  | succeeded => .succeeded
  | refused | failed => .failed
  | cancelled => .cancelled
  | unresolved => .unresolved

def envelope : Ended → IdempotencyState
  | succeeded => .succeeded
  | refused => .refused
  | failed => .failed
  | cancelled => .cancelled
  | unresolved => .unresolved

def disposition : Ended → ContinuationDisposition
  | succeeded => .succeeded
  | refused | unresolved => .handledTerminal
  | failed => .failedTerminal
  | cancelled => .cancelledTerminal

/-- The state in which the loop leaves the job. -/
def job : Ended → JobState
  | succeeded | refused | unresolved => .succeeded
  | failed => .failed
  | cancelled => .cancelled

end Ended

/-- What an approval binds. -/
def ApprovalRow.binding (row : ApprovalRow) :=
  (row.operationName, row.operationId, row.destinationRef, row.payloadDigest, row.windowStart,
    row.windowEnd)

/-- The call that an action stands for. -/
def ExternalActionRow.call (row : ExternalActionRow) :=
  (row.operationId, row.approvalId, row.operationName, row.destinationRef,
    row.approvalPayloadDigest, row.requestSchemaVersion, row.resultSchemaVersion,
    row.executionJobId)

/-- The call that a reservation is for. -/
def reservedFor (row : IdempotencyRow) := (row.operationId, row.requestSchemaVersion)

/-- The rows of an open call are closed in one way, and everything else stays. -/
structure Closes (k : Ended) (s t : HeldCall Output) : Prop where
  approved : s.approval.state = .approved
  running : s.operation.state.isOpen = true
  action : ∃ a a', s.action = some a ∧ a.state.isOpen = true ∧ t.action = some a' ∧
    a'.state = k.action ∧ a'.call = a.call
  envelope : ∃ e e', s.envelope = some e ∧ e.state = .pending ∧ t.envelope = some e' ∧
    e'.state = k.envelope ∧ reservedFor e' = reservedFor e
  approval : t.approval.state = k.approval ∧ t.approval.binding = s.approval.binding
  operation : t.operation.state = k.operation ∧ t.operation.name = s.operation.name ∧
    t.operation.approvalId = s.operation.approvalId
  rest : t.ids = s.ids ∧ t.payload = s.payload ∧ t.job = s.job ∧ t.effects = s.effects

/-- Only the progress of the open action moved. -/
structure Advances (s t : HeldCall Output) : Prop where
  action : ∃ a a', s.action = some a ∧ a.state.isOpen = true ∧ a'.state.isOpen = true ∧
    a'.call = a.call ∧ t = { s with action := some a' }

theorem Advances.refl {a : ExternalActionRow} (ha : s.action = some a)
    (hopen : a.state.isOpen = true) : Advances s s :=
  ⟨a, a, ha, hopen, hopen, rfl, by rw [← ha]⟩

theorem Advances.trans {r : HeldCall Output} (h : Advances s r) (h' : Advances r t) :
    Advances s t := by
  obtain ⟨a, b, ha, hopen, hopen', hcall, rfl⟩ := h.action
  obtain ⟨b', d, hb, -, hopen'', hcall', rfl⟩ := h'.action
  obtain rfl := Option.some.inj hb
  exact ⟨a, d, ha, hopen, hopen'', hcall'.trans hcall, rfl⟩

/-- A call that was closed after some progress was closed. -/
theorem Advances.closes {k : Ended} {r : HeldCall Output} (h : Advances s r) (hk : Closes k r t) :
    Closes k s t := by
  obtain ⟨a, b, ha, hopen, -, hcall, rfl⟩ := h.action
  obtain ⟨b', d, hb, -, hd, hstate, hcall'⟩ := hk.action
  obtain rfl := Option.some.inj hb
  exact
    { approved := hk.approved
      running := hk.running
      action := ⟨a, d, ha, hopen, hd, hstate, hcall'.trans hcall⟩
      envelope := hk.envelope
      approval := hk.approval
      operation := hk.operation
      rest := hk.rest }

theorem advances_of_update {u : RowUpdate ExternalActionRow}
    (hguard : ∀ a, u.guard a = a.state.isOpen) (hopen : ∀ a, a.state.isOpen = true →
      (u.set a).state.isOpen = true) (hcall : ∀ a, (u.set a).call = a.call)
    (h : s.updateAction u = some t) : Advances s t := by
  obtain ⟨a, ha, hmatch, rfl⟩ := HeldCall.updateAction_eq_some.mp h
  rw [hguard] at hmatch
  exact ⟨a, _, ha, hmatch, hopen a hmatch, hcall a, rfl⟩

theorem advances_retried {code detail : String}
    (h : s.updateAction (ExternalActionRow.retried code detail) = some t) : Advances s t :=
  advances_of_update (fun _ => rfl) (fun _ ha => ha) (fun _ => rfl) h

theorem advances_asked {request : String}
    (h : s.updateAction (ExternalActionRow.asked request) = some t) : Advances s t :=
  advances_of_update (fun _ => rfl) (fun _ ha => ha) (fun _ => rfl) h

theorem advances_executing {request : Option String}
    (h : s.updateAction (ExternalActionRow.executing request) = some t) : Advances s t :=
  advances_of_update (fun _ => rfl) (fun _ _ => rfl) (fun _ => rfl) h

/-! ### Settlements -/

/-- The shared writes of a settlement, on the four rows. -/
theorem settle_answers {k : Settlement} {code detail : String} {now : ℕ} {u : Unit}
    (h : (settle k code detail now).Answers s u t) :
    ∃ a e, s.action = some a ∧ a.state.isOpen = true ∧ s.envelope = some e ∧
      e.state = .pending ∧ k.approval.guard s.approval = true ∧
      k.operation.guard s.operation = true ∧
      t = { s with
        action := some ((ExternalActionRow.settled k.action k.failureClass code detail now).set a)
        approval := k.approval.set s.approval
        operation := k.operation.set s.operation
        envelope := some ((IdempotencyRow.finishError k.envelope code (short detail)).set e) } := by
  unfold settle at h
  simp only [answers_bind_must, answers_must, HeldCall.updateAction_eq_some,
    HeldCall.updateApproval_eq_some, HeldCall.updateOperation_eq_some,
    HeldCall.updateEnvelope_eq_some] at h
  obtain ⟨_, ⟨a, ha, hopen, rfl⟩, _, ⟨hap, rfl⟩, _, ⟨hop, rfl⟩, e, he, hpending, rfl⟩ := h
  exact ⟨a, e, ha, hopen, he, by simpa [IdempotencyRow.finishError] using hpending, hap, hop,
    rfl⟩

variable {c : Continuing Input Output} {r : ContinuationResult}

namespace Continuing

/-- The end `k`, and the answer that says so. -/
def Ends (k : Ended) (s t : HeldCall Output) (r : ContinuationResult) : Prop :=
  Closes k s t ∧ r.disposition = k.disposition

variable {code detail : String}

/-- A settlement of the continuation ends the call in its way. -/
theorem ends_of_settle (k : Ended) {K : Settlement} {disposition : ContinuationDisposition}
    (h : Handler.Answers (do
      settle K code detail c.now
      pure (settled disposition code detail)) s r t)
    (haction : K.action = k.action) (henvelope : K.envelope = k.envelope)
    (hdisposition : disposition = k.disposition)
    (hap : ∀ row, K.approval.guard row = decide (row.state = .approved) ∧
      (K.approval.set row).state = k.approval ∧ (K.approval.set row).binding = row.binding)
    (hop : ∀ row, K.operation.guard row = row.isOpen ∧
      (K.operation.set row).state = k.operation ∧ (K.operation.set row).name = row.name ∧
        (K.operation.set row).approvalId = row.approvalId) : Ends k s t r := by
  obtain ⟨_, m, hsettle, hpure⟩ := answers_bind.mp h
  obtain ⟨rfl, rfl⟩ := answers_pure.mp hpure
  obtain ⟨a, e, ha, hopen, he, hpending, hguard, hguard', rfl⟩ := settle_answers hsettle
  obtain ⟨happroved, hstate, hbinding⟩ := hap s.approval
  obtain ⟨hrunning, hended, hname, hid⟩ := hop s.operation
  exact ⟨{
    approved := of_decide_eq_true (happroved.symm.trans hguard)
    running := hrunning.symm.trans hguard'
    action := ⟨a, _, ha, hopen, rfl, haction, rfl⟩
    envelope := ⟨e, _, he, hpending, rfl, henvelope, rfl⟩
    approval := ⟨hstate, hbinding⟩
    operation := ⟨hended, hname, hid⟩
    rest := ⟨rfl, rfl, rfl, rfl⟩ }, hdisposition⟩

theorem settleRefused_answers {e : DestinationError} (h : (c.settleRefused e).Answers s r t) :
    Ends .refused s t r :=
  ends_of_settle .refused h rfl rfl rfl (fun _ => ⟨rfl, rfl, rfl⟩) fun _ => ⟨rfl, rfl, rfl, rfl⟩

theorem settleFailed_answers (h : (c.settleFailed code detail).Answers s r t) :
    Ends .failed s t r :=
  ends_of_settle .failed h rfl rfl rfl (fun _ => ⟨rfl, rfl, rfl⟩) fun _ => ⟨rfl, rfl, rfl, rfl⟩

theorem settleCancelled_answers (h : (c.settleCancelled code detail).Answers s r t) :
    Ends .cancelled s t r :=
  ends_of_settle .cancelled h rfl rfl rfl (fun _ => ⟨rfl, rfl, rfl⟩) fun _ => ⟨rfl, rfl, rfl, rfl⟩

theorem settleUnresolved_answers (h : (c.settleUnresolved code detail).Answers s r t) :
    Ends .unresolved s t r :=
  ends_of_settle .unresolved h rfl rfl rfl (fun _ => ⟨rfl, rfl, rfl⟩) fun _ =>
    ⟨rfl, rfl, rfl, rfl⟩

theorem settleSuccess_answers {output : Output} {check : TerminalCheckKind}
    (h : (c.settleSuccess output check).Answers s r t) : Ends .succeeded s t r := by
  unfold settleSuccess at h
  simp only [answers_bind_found, answers_bind_must, answers_bind_require, answers_pure,
    HeldCall.updateAction_eq_some, HeldCall.updateApproval_eq_some,
    HeldCall.updateOperation_eq_some, HeldCall.updateEnvelope_eq_some] at h
  obtain ⟨d, -, external, -, resultRef, -, spec, -, body, -, _, ⟨e, he, hpending, rfl⟩,
    _, ⟨a, ha, hopen, rfl⟩, _, ⟨hap, rfl⟩, _, ⟨hop, rfl⟩, -, rfl, rfl⟩ := h
  refine ⟨?_, rfl⟩
  exact
    { approved := by simpa [ApprovalRow.markExecuted] using hap
      running := hop
      action := ⟨a, _, ha, hopen, rfl, rfl, rfl⟩
      envelope := ⟨e, _, he, by simpa [IdempotencyRow.finishSuccess] using hpending, rfl, rfl,
        rfl⟩
      approval := ⟨rfl, rfl⟩
      operation := ⟨rfl, rfl, rfl⟩
      rest := ⟨rfl, rfl, rfl, rfl⟩ }

/-! ### What the end rests on -/

/-- The destination has said that no effect took place, or cannot have had one that lasts. -/
def SaysAbsent (c : Continuing Input Output) : Prop :=
  ∃ d, c.destination = some d ∧ (d.mode ≠ .provider ∨ c.reconcile = .nothing ∨
    ∃ e, c.reconcile = .error e ∧ e.failureClass ≠ .outcomeUnknown)

/-- No earlier lease can have had an effect: there was none, or the destination denies it. -/
def ShowsAbsence (c : Continuing Input Output) : Prop :=
  c.mode = .run ∧ c.lease.attempts ≤ 1 ∨ c.mode = .cancelRequested ∧ c.lease.attempts = 0 ∨
    c.SaysAbsent

/-- The destination confirms that the effect took place. -/
def Confirmed (c : Continuing Input Output) : Prop :=
  ∃ d output, c.destination = some d ∧ d.mode = .provider ∧ c.reconcile = .output output

/-- What must have been shown for a call to end in this way. -/
def RestsOn (absent landed : Prop) : Ended → Prop
  | .succeeded => landed
  | .refused | .failed | .cancelled => absent
  | .unresolved => True

/-- The call is closed, or stays open for another attempt. -/
inductive Leaves (absent landed : Prop) (s t : HeldCall Output) (r : ContinuationResult) :
    Prop where
  | closed (k : Ended) (hends : Ends k s t r) (hrests : RestsOn absent landed k)
  | retried (hadvances : Advances s t) (hretry : r.disposition = .retry) (habsent : absent)

theorem Leaves.mono {absent absent' landed landed' : Prop} (h : Leaves absent landed s t r)
    (habsent : absent → absent') (hlanded : landed → landed') : Leaves absent' landed' s t r := by
  cases h with
  | closed k hends hrests =>
    refine .closed k hends ?_
    cases k with
    | succeeded => exact hlanded hrests
    | refused | failed | cancelled => exact habsent hrests
    | unresolved => trivial
  | retried hadvances hretry hproof => exact .retried hadvances hretry (habsent hproof)

theorem Leaves.after {absent landed : Prop} {m : HeldCall Output} (hadvances : Advances s m)
    (h : Leaves absent landed m t r) : Leaves absent landed s t r := by
  cases h with
  | closed k hends hrests => exact .closed k ⟨hadvances.closes hends.1, hends.2⟩ hrests
  | retried hmore hretry hproof => exact .retried (hadvances.trans hmore) hretry hproof

/-- An error is classified by its class alone: nothing but the unknown one leaves a doubt. -/
theorem classified_answers {e : DestinationError} (h : (c.classified e).Answers s r t) :
    Leaves (e.failureClass ≠ .outcomeUnknown) False s t r := by
  unfold classified at h
  split at h
  · rename_i hclass
    exact .closed .refused (settleRefused_answers h) (by simp [RestsOn, hclass])
  · rename_i hclass
    exact .closed .refused (settleRefused_answers h) (by simp [RestsOn, hclass])
  · rename_i hclass
    exact .closed .cancelled (settleCancelled_answers h) (by simp [RestsOn, hclass])
  · exact .closed .unresolved (settleUnresolved_answers h) trivial
  · rename_i hclass
    split_ifs at h
    · exact .closed .failed (settleFailed_answers h) (by simp [RestsOn, hclass])
    · simp only [answers_bind_must, answers_pure] at h
      obtain ⟨m, hretried, rfl, rfl⟩ := h
      exact .retried (advances_retried hretried) rfl (by simp [hclass])

/-- What the destination of a provider is asked, and what it may prove. -/
theorem reconciled_cases {d : Destination} (hd : c.destination = some d)
    (hprovider : d.mode = .provider) :
    (∃ output, c.reconciled d = .ok (some output) ∧ c.Confirmed) ∨
      (c.reconciled d = .ok none ∧ c.SaysAbsent) ∨
      ∃ e, c.reconciled d = .error e ∧ (e.failureClass ≠ .outcomeUnknown → c.SaysAbsent) := by
  unfold reconciled
  by_cases hblind : d.reconciles = false ∨ c.deployment.heldCaller.isSome = true
  · rw [if_pos hblind]
    exact .inr (.inr ⟨_, rfl, fun h => absurd rfl h⟩)
  rw [if_neg hblind]
  cases hanswer : c.reconcile with
  | nothing => exact .inr (.inl ⟨rfl, d, hd, .inr (.inl hanswer)⟩)
  | output value =>
    by_cases hregistered : c.declaration.isSome = true
    · exact .inl ⟨value, if_pos hregistered, d, value, hd, hprovider, hanswer⟩
    · exact .inr (.inr ⟨_, if_neg hregistered, fun h => absurd rfl h⟩)
  | error e => exact .inr (.inr ⟨e, rfl, fun h => ⟨d, hd, .inr (.inr ⟨e, hanswer, h⟩)⟩⟩)
  | invalid | raised => exact .inr (.inr ⟨_, rfl, fun h => absurd rfl h⟩)

variable {a : ExternalActionRow} {actionId : Uuid}

/-- What an earlier lease did is settled as it was, or shown to be nothing. -/
theorem priorEffect_answers {prior : Prior} (ha : s.action = some a) (hopen : a.state.isOpen = true)
    (h : (c.priorEffect actionId).Answers s prior t) :
    (∃ r, prior = .closed r ∧ Leaves c.ShowsAbsence c.Confirmed s t r) ∨
      ∃ error, prior = .absent error ∧ Advances s t ∧ c.SaysAbsent := by
  unfold priorEffect at h
  cases hd : c.destination with
  | none =>
    simp only [hd, answers_bind, answers_pure] at h
    obtain ⟨r, m, hsettle, rfl, rfl⟩ := h
    exact .inl ⟨r, rfl, .closed .unresolved (settleUnresolved_answers hsettle) trivial⟩
  | some d =>
    simp only [hd] at h
    split_ifs at h with hprovider
    · rw [answers_bind_must] at h
      obtain ⟨m, hasked, h⟩ := h
      have hadvances := advances_asked hasked
      rcases reconciled_cases hd hprovider with ⟨output, hanswer, hconfirmed⟩ |
        ⟨hanswer, habsent⟩ | ⟨e, hanswer, habsent⟩
      · simp only [hanswer, answers_bind, answers_pure] at h
        obtain ⟨r, u, hsettle, rfl, rfl⟩ := h
        exact .inl ⟨r, rfl, .after hadvances
          (.closed .succeeded (settleSuccess_answers hsettle) hconfirmed)⟩
      · simp only [hanswer, answers_pure] at h
        obtain ⟨rfl, rfl⟩ := h
        exact .inr ⟨none, rfl, hadvances, habsent⟩
      · simp only [hanswer] at h
        split_ifs at h with hclass
        · simp only [answers_bind, answers_pure] at h
          obtain ⟨r, u, hsettle, rfl, rfl⟩ := h
          exact .inl ⟨r, rfl, .after hadvances
            (.closed .unresolved (settleUnresolved_answers hsettle) trivial)⟩
        · obtain ⟨rfl, rfl⟩ := answers_pure.mp h
          exact .inr ⟨some e, rfl, hadvances, habsent hclass⟩
    · obtain ⟨rfl, rfl⟩ := answers_pure.mp h
      exact .inr ⟨none, rfl, .refl ha hopen, d, hd, .inl hprovider⟩

/-- A recovery never invokes: it closes the call as what was proved. -/
theorem recover_answers (ha : s.action = some a)
    (hopen : a.state.isOpen = true) (h : (c.recover actionId).Answers s r t) :
    Leaves c.ShowsAbsence c.Confirmed s t r := by
  unfold recover at h
  simp only at h
  by_cases hunleased : c.mode = .cancelRequested ∧ c.lease.attempts = 0
  · rw [if_pos hunleased] at h
    exact .closed .cancelled (settleCancelled_answers h) (.inr (.inl hunleased))
  rw [if_neg hunleased, answers_bind] at h
  obtain ⟨prior, m, hprior, h⟩ := h
  rcases priorEffect_answers ha hopen hprior with ⟨r', rfl, hleaves⟩ |
    ⟨error, rfl, hadvances, habsent⟩
  · obtain ⟨rfl, rfl⟩ := answers_pure.mp h
    exact hleaves
  · simp only at h
    by_cases hcancelling : c.mode = .cancelRequested
    · rw [if_pos hcancelling] at h
      exact .after hadvances
        (.closed .cancelled (settleCancelled_answers h) (.inr (.inr habsent)))
    · rw [if_neg hcancelling] at h
      exact .after hadvances (.closed .failed (settleFailed_answers h) (.inr (.inr habsent)))

variable {sha256 : ByteArray → ByteArray}

/-- What passes the rechecks: the registered operation on the stored payload, whose digest is the
action's, past every guard, at the registered destination. -/
theorem rechecked_eq_ok {d : Declaration Input Output} {input : Input} {destination : Destination}
    (h : c.rechecked sha256 = .ok (d, input, destination)) :
    c.declaration = some d ∧ c.input = some input ∧ c.destination = some destination ∧
      d.keyed.isSome = true ∧
      payloadDigest sha256 (d.executablePayload input) = c.action.approvalPayloadDigest ∧
      runGuards (effectiveGuardsFor c.deployment d c.approval input c.now) = none := by
  unfold rechecked at h
  split at h
  · cases h
  · rename_i d' hd
    by_cases hkeyed :
        d'.keyed ≠ some ⟨c.action.requestSchemaVersion, c.action.resultSchemaVersion⟩
    · rw [if_pos hkeyed] at h
      cases h
    rw [if_neg hkeyed] at h
    split at h
    · cases h
    · rename_i input' hinput
      by_cases hdigest :
          payloadDigest sha256 (d'.executablePayload input') ≠ c.action.approvalPayloadDigest
      · rw [if_pos hdigest] at h
        cases h
      rw [if_neg hdigest] at h
      split at h
      · cases h
      · cases h
      · cases h
      · split at h
        · cases h
        · rename_i hguards
          split at h
          · cases h
          · rename_i hdestination
            cases h
            exact ⟨hd, hinput, hdestination, by rw [not_not.mp hkeyed]; rfl, not_not.mp hdigest,
              hguards⟩

/-- What comes before an invocation: the call is closed, or everything was rechecked and no
earlier effect can stand. -/
def ReadyFor (c : Continuing Input Output) (sha256 : ByteArray → ByteArray)
    (s t : HeldCall Output) : Prepared Input Output → Prop
  | .settled r => Leaves c.ShowsAbsence c.Confirmed s t r
  | .invoke d input destination => Advances s t ∧ c.ShowsAbsence ∧
      c.rechecked sha256 = .ok (d, input, destination)

theorem start_answers {prior : Option DestinationError}
    {p : Prepared Input Output} (habsent : c.ShowsAbsence)
    (h : (c.start sha256 actionId prior).Answers s p t) : c.ReadyFor sha256 s t p := by
  unfold start at h
  split at h
  · simp only [answers_bind, answers_pure] at h
    obtain ⟨r, m, hsettle, rfl, rfl⟩ := h
    exact .closed .refused (settleRefused_answers hsettle) habsent
  · rename_i d input destination hrechecked
    simp only [answers_bind_must] at h
    obtain ⟨m, hexecuting, h⟩ := h
    have hadvances := advances_executing hexecuting
    have hdestination := (rechecked_eq_ok hrechecked).2.2.1
    by_cases hprovider : destination.mode = .provider
    · rw [if_pos hprovider] at h
      by_cases hretried : c.lease.attempts > 1
      · simp only [if_pos hretried] at h
        cases prior with
        | none =>
          obtain ⟨rfl, rfl⟩ := answers_pure.mp h
          exact ⟨hadvances, habsent, hrechecked⟩
        | some e =>
          simp only [answers_bind, answers_pure] at h
          obtain ⟨r, u, hclassified, rfl, rfl⟩ := h
          exact .after hadvances
            ((classified_answers hclassified).mono (fun _ => habsent) False.elim)
      · simp only [if_neg hretried] at h
        rcases reconciled_cases hdestination hprovider with ⟨output, hanswer, hconfirmed⟩ |
          ⟨hanswer, -⟩ | ⟨e, hanswer, hproof⟩
        · simp only [hanswer, answers_bind, answers_pure] at h
          obtain ⟨r, u, hsettle, rfl, rfl⟩ := h
          exact .after hadvances
            (.closed .succeeded (settleSuccess_answers hsettle) hconfirmed)
        · simp only [hanswer, answers_pure] at h
          obtain ⟨rfl, rfl⟩ := h
          exact ⟨hadvances, habsent, hrechecked⟩
        · simp only [hanswer, answers_bind, answers_pure] at h
          obtain ⟨r, u, hclassified, rfl, rfl⟩ := h
          exact .after hadvances
            ((classified_answers hclassified).mono (fun _ => habsent) False.elim)
    · rw [if_neg hprovider] at h
      obtain ⟨rfl, rfl⟩ := answers_pure.mp h
      exact ⟨hadvances, habsent, hrechecked⟩

theorem prepare_answers {p : Prepared Input Output}
    (ha : s.action = some a) (hopen : a.state.isOpen = true)
    (h : (c.prepare sha256 actionId).Answers s p t) :
    c.ReadyFor sha256 s t p ∧ ∀ d input destination, p = .invoke d input destination →
      c.mode = .run := by
  unfold prepare at h
  by_cases hmode : c.mode ≠ .run
  · rw [if_pos hmode, answers_bind] at h
    obtain ⟨r, m, hrecover, h⟩ := h
    obtain ⟨rfl, rfl⟩ := answers_pure.mp h
    exact ⟨recover_answers ha hopen hrecover, by simp⟩
  rw [if_neg hmode] at h
  have hrun := not_not.mp hmode
  refine ⟨?_, fun _ _ _ _ => hrun⟩
  by_cases hretried : c.lease.attempts > 1
  · rw [if_pos hretried, answers_bind] at h
    obtain ⟨prior, m, hprior, h⟩ := h
    rcases priorEffect_answers ha hopen hprior with ⟨r, rfl, hleaves⟩ |
      ⟨error, rfl, hadvances, habsent⟩
    · obtain ⟨rfl, rfl⟩ := answers_pure.mp h
      exact hleaves
    · have hready := start_answers (.inr (.inr habsent)) h
      cases p with
      | settled r => exact .after hadvances hready
      | invoke d input destination =>
        exact ⟨hadvances.trans hready.1, hready.2.1, hready.2.2⟩
  · rw [if_neg hretried] at h
    exact start_answers (.inl ⟨hrun, by omega⟩) h

/-- After the invocation: a success that the destination returned, or what its answer proves. -/
theorem conclude_answers {d : Declaration Input Output} {input : Input}
    {destination : Destination} {answer : DestinationAnswer Output}
    (h : (c.conclude d input destination answer).Answers s r t) :
    (∃ output, answer = .output output ∧
      Ends .succeeded (if destination.mode = .provider then s else s.addEffect
        ⟨d.executablePayload input, some destination.destinationRef, output, c.now⟩) t r) ∨
      Leaves (destination.mode ≠ .provider ∨
        ∃ e, answer = .error e ∧ e.failureClass ≠ .outcomeUnknown) False s t r := by
  unfold conclude at h
  by_cases hprovider : destination.mode = .provider
  · cases answer with
    | output output =>
      simp only [hprovider, if_true] at h
      exact .inl ⟨output, rfl, by rw [if_pos hprovider]; exact settleSuccess_answers h⟩
    | nothing | invalid =>
      simp only [hprovider, if_true] at h
      exact .inr (.closed .unresolved (settleUnresolved_answers h) trivial)
    | error e =>
      simp only [hprovider, not_true_eq_false, false_and, if_false] at h
      exact .inr ((classified_answers h).mono (fun hclass => .inr ⟨e, rfl, hclass⟩) id)
    | raised exception =>
      simp only [hprovider, if_true] at h
      exact .inr ((classified_answers h).mono (fun hclass => absurd rfl hclass) id)
  · refine Or.imp id (fun hleaves => hleaves.mono (fun _ => .inl hprovider) id)
      (?_ : _ ∨ Leaves True False s t r)
    cases answer with
    | output output =>
      simp only [hprovider, if_false, answers_bind_write] at h
      exact .inl ⟨output, rfl, by rw [if_neg hprovider]; exact settleSuccess_answers h⟩
    | nothing | invalid =>
      simp only [hprovider, if_false] at h
      exact .inr (.closed .refused (settleRefused_answers h) trivial)
    | error e =>
      simp only at h
      split_ifs at h
      · exact .inr ((classified_answers h).mono (fun _ => trivial) id)
      · exact .inr ((classified_answers h).mono (fun _ => trivial) id)
    | raised exception =>
      exact .inr ((classified_answers h).mono (fun _ => trivial) id)

end Continuing

end Rheostream.Approvals
