import Rheostream.Approvals.Decided

/-!
# The rows of a held call move together

The approval, the operation, the staged action, its reservation and its job stand in one of the
combinations below, and each decision and each pass of a worker keeps them there: a settlement moves
all of them or none.
-/

namespace Rheostream.Approvals

variable {Input Output : Type} {s t : HeldCall Output}

attribute [local instance] bytesEq

open Handler

/-! ### The combinations -/

/-- The states of the rows of a call. -/
structure States where
  approval : ApprovalState
  operation : OperationState
  action : Option ActionState
  envelope : Option IdempotencyState
  job : Option JobState

/-- The states in which the rows stand. -/
def HeldCall.states (s : HeldCall Output) : States where
  approval := s.approval.state
  operation := s.operation.state
  action := s.action.map (·.state)
  envelope := s.envelope.map (·.state)
  job := s.job.map (·.2.state)

/-- The combinations in which the rows of a call may stand. -/
inductive Agree : States → Prop where
  /-- Waiting for a decision. -/
  | held (a : ApprovalState) (ha : a.isDecidable = true) :
      Agree ⟨a, .approvalRequired, none, none, none⟩
  | executed : Agree ⟨.executed, .succeeded, none, none, none⟩
  | guardRefused : Agree ⟨.refused, .failed, none, none, none⟩
  | refused : Agree ⟨.refused, .cancelled, none, none, none⟩
  | erased : Agree ⟨.invalidated, .cancelled, none, none, none⟩
  /-- A staged call waits for a decision. -/
  | staged : Agree ⟨.pending, .approvalRequired, some .pending, some .pending, none⟩
  | stagedGuardRefused : Agree ⟨.refused, .failed, some .refused, some .refused, none⟩
  | stagedRefused : Agree ⟨.refused, .cancelled, some .refused, some .refused, none⟩
  | stagedErased : Agree ⟨.invalidated, .cancelled, some .pending, some .pending, none⟩
  /-- Approved, and with its worker. -/
  | queued (a : ActionState) (j : JobState) (ha : a.isOpen = true) (hj : j.isTerminal = false) :
      Agree ⟨.approved, .running, some a, some .pending, some j⟩
  /-- The record was erased while the job was on its way: the job fails, and the action and its
  reservation are left as they were. -/
  | queuedErased (a : ActionState) (j : JobState) (ha : a.isOpen = true)
      (hj : j.isTerminal = false ∨ j = .failed) :
      Agree ⟨.invalidated, .cancelled, some a, some .pending, some j⟩
  | ended (k : Ended) :
      Agree ⟨k.approval, k.operation, some k.action, some k.envelope, some k.job⟩
  | resolved (r : Resolution) :
      Agree ⟨.executed, r.operation, some r.action, some r.envelope, some .succeeded⟩

variable {st : States}

/-- A call with an unfinished job is approved and on its way, or its record was erased. -/
theorem Agree.of_unfinished {j : JobState} (h : Agree st) (hjob : st.job = some j)
    (hj : j.isTerminal = false) :
    (∃ a : ActionState, a.isOpen = true ∧ st = ⟨.approved, .running, some a, some .pending, some j⟩)
      ∨ ∃ a : ActionState, a.isOpen = true ∧
        st = ⟨.invalidated, .cancelled, some a, some .pending, some j⟩ := by
  cases h with
  | queued a j' ha =>
    obtain rfl := Option.some.inj hjob
    exact .inl ⟨a, ha, rfl⟩
  | queuedErased a j' ha =>
    obtain rfl := Option.some.inj hjob
    exact .inr ⟨a, ha, rfl⟩
  | ended k =>
    obtain rfl := Option.some.inj hjob
    cases k <;> cases hj
  | resolved =>
    obtain rfl := Option.some.inj hjob
    cases hj
  | _ => cases hjob

/-- An approved call that committed is on its way, with an unfinished job. -/
theorem Agree.of_approved (h : Agree st) (happroved : st.approval = .approved) :
    ∃ (a : ActionState) (j : JobState), a.isOpen = true ∧ j.isTerminal = false ∧
      st = ⟨.approved, .running, some a, some .pending, some j⟩ := by
  cases h with
  | queued a j ha hj => exact ⟨a, j, ha, hj, rfl⟩
  | held a ha => cases a <;> cases ha <;> cases happroved
  | ended k => cases k <;> cases happroved
  | _ => cases happroved

/-- A call that waits for a decision has no job. -/
theorem Agree.of_held (h : Agree st) (hheld : st.operation = .approvalRequired) :
    st.approval.isDecidable = true ∧ st.job = none ∧
      (st.action = none ∧ st.envelope = none ∨ st.approval = .pending ∧
        st.action = some .pending ∧ st.envelope = some .pending) := by
  cases h with
  | held a ha => exact ⟨ha, rfl, .inl ⟨rfl, rfl⟩⟩
  | staged => exact ⟨rfl, rfl, .inr ⟨rfl, rfl, rfl⟩⟩
  | ended k => cases k <;> cases hheld
  | resolved r => cases r <;> cases hheld
  | _ => cases hheld

/-- A decidable approval is held. -/
theorem Agree.of_decidable (h : Agree st) (hdecidable : st.approval.isDecidable = true) :
    st.operation = .approvalRequired := by
  cases h with
  | held | staged => rfl
  | ended k => cases k <;> cases hdecidable
  | _ => cases hdecidable

/-- An unresolved record has ended so. -/
theorem Agree.of_unresolved (h : Agree st) (hop : st.operation = .unresolved) :
    st = ⟨.executed, .unresolved, some .unresolved, some .unresolved, some .succeeded⟩ := by
  cases h with
  | ended k => cases k <;> first | rfl | cases hop
  | resolved r => cases r <;> cases hop
  | _ => cases hop

/-- An erasure cancels a call that waits for a decision or is on its way. -/
theorem Agree.of_erasure (h : Agree st)
    (hlive : (st.approval = .pending || st.approval = .approved || st.approval =
      .requiresReapproval) = true)
    :
    (st.operation = .approvalRequired ∨ st.operation = .running) ∧
      Agree { st with approval := .invalidated, operation := .cancelled } := by
  cases h with
  | held => exact ⟨.inl rfl, .erased⟩
  | staged => exact ⟨.inl rfl, .stagedErased⟩
  | queued a j ha hj => exact ⟨.inr rfl, .queuedErased a j ha (.inl hj)⟩
  | ended k => cases k <;> cases hlive
  | _ => cases hlive

/-! ### The identity of the rows -/

/-- The rows of a call name each other. -/
structure Bound (s : HeldCall Output) : Prop where
  action : ∀ a, s.action = some a → s.approval.operationId = a.operationId ∧
    s.approval.operationName = a.operationName ∧ s.approval.destinationRef = some a.destinationRef ∧
    s.approval.payloadDigest = a.approvalPayloadDigest ∧ s.operation.name = a.operationName ∧
    s.operation.approvalId = some a.approvalId
  envelope : ∀ a e, s.action = some a → s.envelope = some e →
    e.operationId = some a.operationId ∧ e.requestSchemaVersion = a.requestSchemaVersion
  job : ∀ id row, s.job = some (id, row) → row.kind = externalActionExecute ∧
    row.operationId = none ∧ namesAction row.input s.ids.action = true ∧
    ∃ a, s.action = some a ∧ a.executionJobId = some id

/-- What an approval binds, but for its window. -/
def ApprovalRow.boundTo (row : ApprovalRow) :=
  (row.operationName, row.operationId, row.destinationRef, row.payloadDigest)

/-- What a job is. -/
def jobIdentity (entry : Uuid × JobRow) :=
  (entry.1, entry.2.kind, entry.2.operationId, entry.2.input, entry.2.maxAttempts)

/-- The rows stand for the same call. -/
structure Same (s t : HeldCall Output) : Prop where
  ids : t.ids = s.ids
  approval : t.approval.boundTo = s.approval.boundTo
  operation : t.operation.name = s.operation.name ∧ t.operation.approvalId = s.operation.approvalId
  action : t.action.map ExternalActionRow.call = s.action.map ExternalActionRow.call
  envelope : t.envelope.map reservedFor = s.envelope.map reservedFor
  job : t.job.map jobIdentity = s.job.map jobIdentity

theorem Same.refl (s : HeldCall Output) : Same s s := ⟨rfl, rfl, ⟨rfl, rfl⟩, rfl, rfl, rfl⟩

theorem Same.trans {r : HeldCall Output} (h : Same s r) (h' : Same r t) : Same s t where
  ids := h'.ids.trans h.ids
  approval := h'.approval.trans h.approval
  operation := ⟨h'.operation.1.trans h.operation.1, h'.operation.2.trans h.operation.2⟩
  action := h'.action.trans h.action
  envelope := h'.envelope.trans h.envelope
  job := h'.job.trans h.job

theorem Bound.of_same (h : Bound s) (hsame : Same s t) : Bound t := by
  obtain ⟨hids, hap, ⟨hname, hid⟩, haction, henvelope, hjob⟩ := hsame
  simp only [ApprovalRow.boundTo, Prod.mk.injEq] at hap
  obtain ⟨hap₁, hap₂, hap₃, hap₄⟩ := hap
  have hcall (a : ExternalActionRow) (ha : t.action = some a) :
      ∃ a', s.action = some a' ∧ a.call = a'.call := by
    rw [ha, Option.map_some] at haction
    obtain ⟨a', ha', heq⟩ := Option.map_eq_some_iff.mp haction.symm
    exact ⟨a', ha', heq.symm⟩
  constructor
  · intro a ha
    obtain ⟨a', ha', heq⟩ := hcall a ha
    simp only [ExternalActionRow.call, Prod.mk.injEq] at heq
    obtain ⟨h₁, h₂, h₃, h₄, h₅, -⟩ := heq
    rw [hap₁, hap₂, hap₃, hap₄, hname, hid, h₁, h₂, h₃, h₄, h₅]
    exact h.action a' ha'
  · intro a e ha he
    obtain ⟨a', ha', heq⟩ := hcall a ha
    rw [he, Option.map_some] at henvelope
    obtain ⟨e', he', hreserved⟩ := Option.map_eq_some_iff.mp henvelope.symm
    simp only [ExternalActionRow.call, Prod.mk.injEq] at heq
    simp only [reservedFor, Prod.mk.injEq] at hreserved
    rw [← hreserved.1, ← hreserved.2, heq.1, heq.2.2.2.2.2.1]
    exact h.envelope a' e' ha' he'
  · intro id row hrow
    rw [hrow, Option.map_some] at hjob
    obtain ⟨⟨id', row'⟩, hrow', hidentity⟩ := Option.map_eq_some_iff.mp hjob.symm
    simp only [jobIdentity, Prod.mk.injEq] at hidentity
    obtain ⟨rfl, hkind, hop, hinput, -⟩ := hidentity
    obtain ⟨h₁, h₂, h₃, a', ha', hjobId⟩ := h.job id' row' hrow'
    rw [← hkind, ← hop, ← hinput, hids]
    refine ⟨h₁, h₂, h₃, ?_⟩
    rw [ha', Option.map_some] at haction
    obtain ⟨a, ha, heq⟩ := Option.map_eq_some_iff.mp haction
    simp only [ExternalActionRow.call, Prod.mk.injEq] at heq
    exact ⟨a, ha, heq.2.2.2.2.2.2.2.trans hjobId⟩

theorem Advances.same (h : Advances s t) : Same s t := by
  obtain ⟨a, a', ha, -, -, hcall, rfl⟩ := h.action
  refine ⟨rfl, rfl, ⟨rfl, rfl⟩, ?_, rfl, rfl⟩
  rw [ha, Option.map_some, Option.map_some, hcall]

theorem Closes.same {k : Ended} (h : Closes k s t) : Same s t := by
  obtain ⟨a, a', ha, -, ha', -, hcall⟩ := h.action
  obtain ⟨e, e', he, -, he', -, hreserved⟩ := h.envelope
  have hbinding := h.approval.2
  simp only [ApprovalRow.binding, Prod.mk.injEq] at hbinding
  obtain ⟨h₁, h₂, h₃, h₄, -⟩ := hbinding
  refine ⟨h.rest.1, by simp [ApprovalRow.boundTo, h₁, h₂, h₃, h₄], h.operation.2, ?_, ?_, ?_⟩
  · rw [ha, ha', Option.map_some, Option.map_some, hcall]
  · rw [he, he', Option.map_some, Option.map_some, hreserved]
  · rw [h.rest.2.2.1]

/-- A write to the job changes neither what it is nor another row. -/
theorem same_job {id : Uuid} {row : JobRow} (write : JobWrite) (hjob : s.job = some (id, row)) :
    Same s { s with job := some (id, write.set row) } := by
  refine ⟨rfl, rfl, ⟨rfl, rfl⟩, rfl, rfl, ?_⟩
  obtain ⟨hkind, hinput, hop, hmax⟩ := write.set_identity row
  rw [hjob, Option.map_some, Option.map_some, jobIdentity, jobIdentity, hkind, hinput, hop, hmax]

/-! ### Each write keeps the combinations -/

/-- The rows name each other and stand together. -/
structure Coherent (s : HeldCall Output) : Prop where
  bound : Bound s
  agree : Agree s.states

theorem Coherent.of_same (h : Coherent s) (hsame : Same s t) (hagree : Agree t.states) :
    Coherent t ∧ Same s t :=
  ⟨⟨h.bound.of_same hsame, hagree⟩, hsame⟩

section Decisions

variable {sha256 : ByteArray → ByteArray} {w : Deployment Input Output} {now : ℕ}
  {jobId : Uuid} {given : ResolveInput Output}

/-- A held call, with its action or without. -/
theorem Coherent.of_decidable (h : Coherent s) (hdecidable : s.approval.state.isDecidable = true) :
    s.operation.state = .approvalRequired ∧ s.job = none ∧
      (s.action = none ∧ s.envelope = none ∨ ∃ a e, s.action = some a ∧ a.state = .pending ∧
        s.envelope = some e ∧ e.state = .pending ∧ s.approval.state = .pending) := by
  have hheld : s.operation.state = .approvalRequired := h.agree.of_decidable hdecidable
  obtain ⟨-, hjob, hrest⟩ := h.agree.of_held hheld
  refine ⟨hheld, by simpa [HeldCall.states] using hjob, hrest.imp ?_ ?_⟩
  · rintro ⟨haction, henvelope⟩
    exact ⟨by simpa [HeldCall.states] using haction, by simpa [HeldCall.states] using henvelope⟩
  · rintro ⟨hpending, haction, henvelope⟩
    obtain ⟨a, ha, hstate⟩ := Option.map_eq_some_iff.mp haction
    obtain ⟨e, he, hreserved⟩ := Option.map_eq_some_iff.mp henvelope
    exact ⟨a, e, ha, hstate, he, hreserved, hpending⟩

theorem boundTo_markedApproved {row : ApprovalRow} :
    (markedApproved w now row).boundTo = row.boundTo := by
  obtain ⟨windowStart, windowEnd, heq⟩ := markedApproved_eq w now row
  rw [heq]
  rfl

theorem namesAction_jobInput (id : Uuid) : namesAction (jobInput id) id = true := by
  simp [namesAction, jobInput]

/-- A call that has just been approved still stands together. -/
theorem Coherent.of_approved (h : Coherent s)
    (hdecidable : s.approval.state.isDecidable = true) (hbecame : Approved sha256 w now jobId s t) :
    Coherent t ∧ s.job = none := by
  obtain ⟨hheld, hjob, hrest⟩ := h.of_decidable hdecidable
  refine ⟨?_, hjob⟩
  cases hbecame with
  | executed payload output hinline _ _ _ ht =>
    obtain ⟨-, henvelope⟩ : s.action = none ∧ s.envelope = none :=
      hrest.resolve_right fun ⟨a, _, ha, _⟩ => by rw [hinline] at ha; cases ha
    subst ht
    refine ⟨h.bound.of_same ⟨rfl, boundTo_markedApproved, ⟨rfl, rfl⟩, rfl, rfl, rfl⟩, ?_⟩
    simp only [HeldCall.states, hinline, henvelope, hjob]
    exact .executed
  | guardRefused refusal hinline ht =>
    obtain ⟨-, henvelope⟩ : s.action = none ∧ s.envelope = none :=
      hrest.resolve_right fun ⟨a, _, ha, _⟩ => by rw [hinline] at ha; cases ha
    have hfailed : (OperationRow.finishHeldFailed now guardRefused refusal.text).apply
        s.operation = some ((OperationRow.finishHeldFailed now guardRefused refusal.text).set
          s.operation) :=
      RowUpdate.apply_eq_some.mpr ⟨by
        simp [OperationRow.finishHeldFailed, OperationRow.isHeld, hheld], rfl⟩
    rw [hfailed, Option.getD_some] at ht
    subst ht
    refine ⟨h.bound.of_same ⟨rfl, boundTo_markedApproved, ⟨rfl, rfl⟩, rfl, rfl, rfl⟩, ?_⟩
    simp only [HeldCall.states, hinline, henvelope, hjob]
    exact .guardRefused
  | queued a ha hpending _ _ ht =>
    obtain ⟨a', e, ha', -, he, hreserved, -⟩ : ∃ a e, s.action = some a ∧ a.state = .pending ∧
        s.envelope = some e ∧ e.state = .pending ∧ s.approval.state = .pending :=
      hrest.resolve_left fun hinline => by rw [ha] at hinline; cases hinline.1
    have hbound := h.bound.action a ha
    have henvelope := h.bound.envelope a e ha he
    subst ht
    constructor
    · constructor
      · rintro _ ⟨⟩
        obtain ⟨windowStart, windowEnd, heq⟩ := markedApproved_eq w now s.approval
        simpa [heq, ExternalActionRow.attachJob, OperationRow.startHeld] using hbound
      · rintro _ e' ⟨⟩ he'
        obtain rfl := Option.some.inj (he.symm.trans he')
        exact henvelope
      · rintro id row ⟨⟩
        exact ⟨rfl, rfl, namesAction_jobInput _, _, rfl, rfl⟩
    · simp only [HeldCall.states, he, Option.map_some, hreserved, markedApproved_state]
      exact .queued a.state .queued (by rw [hpending]; rfl) rfl
  | stagedRefused refusal a e ha hopen he hreserved _ ht =>
    subst ht
    refine ⟨h.bound.of_same ⟨rfl, boundTo_markedApproved, ⟨rfl, rfl⟩, ?_, ?_, rfl⟩, ?_⟩
    · rw [ha]
      rfl
    · rw [he]
      rfl
    · simp only [HeldCall.states, hjob]
      exact .stagedGuardRefused

/-- So does one that was refused. -/
theorem Coherent.of_refused {u : Unit} {viewer : Viewer} {expected : Option ByteArray}
    (h : Coherent s) (hrefused : (refuse sha256 w viewer expected now).Answers s u t) :
    Coherent t ∧ Same s t := by
  obtain ⟨hdecidable, -, hbecame⟩ := refuse_answers hrefused
  obtain ⟨hheld, hjob, hrest⟩ := h.of_decidable hdecidable
  rcases hbecame with ⟨hinline, rfl⟩ | ⟨a, e, ha, hopen, he, hreserved, rfl⟩
  · obtain ⟨-, henvelope⟩ : s.action = none ∧ s.envelope = none :=
      hrest.resolve_right fun ⟨a, _, ha, _⟩ => by rw [hinline] at ha; cases ha
    refine h.of_same ⟨rfl, rfl, ⟨rfl, rfl⟩, rfl, rfl, rfl⟩ ?_
    simp only [HeldCall.states, hinline, henvelope, hjob]
    exact .refused
  · refine h.of_same ⟨rfl, rfl, ⟨rfl, rfl⟩, by rw [ha]; rfl, by rw [he]; rfl, rfl⟩ ?_
    simp only [HeldCall.states, hjob]
    exact .stagedRefused

/-- And one that a person resolved: an inline call is never unresolved. -/
theorem Coherent.of_resolved {u : Unit} (h : Coherent s)
    (hresolved : (resolveHandler w given).Answers s u t) :
    Coherent t ∧ Same s t ∧ Resolved given s t := by
  obtain ⟨hunresolved, hbecame⟩ := resolveHandler_answers hresolved
  have hstates := h.agree.of_unresolved hunresolved
  have hr : Resolved given s t := by
    rcases hbecame with hinline | hr
    · rw [HeldCall.states, hinline] at hstates
      cases (congrArg States.action hstates)
    · exact hr
  obtain ⟨a, a', ha, -, ha', hstate, hcall⟩ := hr.action
  obtain ⟨e, e', he, -, he', hreserved, hfor⟩ := hr.envelope
  obtain ⟨hids, happroval, -, hjob, -⟩ := hr.rest
  have hsame : Same s t := by
    refine ⟨hids, by rw [happroval], hr.operation.2.2, ?_, ?_, by rw [hjob]⟩
    · rw [ha, ha', Option.map_some, Option.map_some, hcall]
    · rw [he, he', Option.map_some, Option.map_some, hfor]
  refine ⟨⟨h.bound.of_same hsame, ?_⟩, hsame, hr⟩
  have happroved : s.approval.state = .executed := congrArg States.approval hstates
  have hended : s.job.map (·.2.state) = some .succeeded := congrArg States.job hstates
  have hrow : t.states = ⟨.executed, given.outcome.operation, some given.outcome.action,
      some given.outcome.envelope, some .succeeded⟩ := by
    simp [HeldCall.states, happroval, happroved, hr.operation.2.1, ha', hstate, he', hreserved,
      hjob, hended]
  rw [hrow]
  exact .resolved given.outcome

/-- An erasure leaves an approval that has ended. -/
theorem eraseDependents_cases (s : HeldCall Output) (now : ℕ) : s.eraseDependents now = s ∨
    ApprovalRow.invalidate.guard s.approval = true ∧ s.eraseDependents now = { s with
      approval := ApprovalRow.invalidate.set s.approval
      payload := none
      operation := ((cancelErased now).apply s.operation).getD s.operation } := by
  unfold HeldCall.eraseDependents
  cases hinvalidated : s.updateApproval ApprovalRow.invalidate with
  | none => exact .inl rfl
  | some t =>
    obtain ⟨hguard, rfl⟩ := HeldCall.updateApproval_eq_some.mp hinvalidated
    refine .inr ⟨hguard, ?_⟩
    simp only [HeldCall.updateOperation]
    cases (cancelErased now).apply s.operation <;> rfl

/-- And one whose record was erased, in whatever state it was. -/
theorem Coherent.erased (h : Coherent s) (now : ℕ) :
    Coherent (s.eraseDependents now) ∧ Same s (s.eraseDependents now) := by
  rcases eraseDependents_cases s now with heq | ⟨hguard, heq⟩
  · rw [heq]
    exact ⟨h, .refl s⟩
  obtain ⟨hop, hagree⟩ := h.agree.of_erasure hguard
  have hopen : (cancelErased now).guard s.operation = true := by
    rcases hop with hheld | hrunning
    · simp [cancelErased, OperationRow.isHeld, show s.operation.state = _ from hheld]
    · simp [cancelErased, OperationRow.isOpen, OperationState.isOpen,
        show s.operation.state = _ from hrunning]
  rw [heq, RowUpdate.apply_eq_some.mpr ⟨hopen, rfl⟩, Option.getD_some]
  exact h.of_same ⟨rfl, rfl, ⟨rfl, rfl⟩, rfl, rfl, rfl⟩ hagree

end Decisions

/-! ### One pass of a worker -/

section Passing

variable {sha256 : ByteArray → ByteArray} {v : Visit Input Output} {owner : Uuid}
  {lease : LeasedJob} {mode : ContinuationMode} {id : Uuid} {row : JobRow} {write : JobWrite}

/-- A write that leaves an unfinished job unfinished. -/
theorem Coherent.of_job (h : Coherent s) (hjob : s.job = some (id, row))
    (hopen : row.state.isTerminal = false) (hstill : (write.set row).state.isTerminal = false) :
    Coherent { s with job := some (id, write.set row) } ∧
      Same s { s with job := some (id, write.set row) } := by
  have hsame := same_job write hjob
  refine h.of_same hsame ?_
  have hstate : s.states.job = some row.state := by simp [HeldCall.states, hjob]
  rcases h.agree.of_unfinished hstate hopen with ⟨a, ha, hstates⟩ | ⟨a, ha, hstates⟩
  all_goals
    simp only [HeldCall.states, States.mk.injEq] at hstates ⊢
    obtain ⟨hap, hop, haction, henvelope, -⟩ := hstates
    rw [hap, hop, haction, henvelope]
  · exact .queued a _ ha hstill
  · exact .queuedErased a _ ha (.inl hstill)

/-- Progress of the open action keeps an approved call on its way. -/
theorem Coherent.advance (h : Coherent s) (happroved : s.approval.state = .approved)
    (hadvances : Advances s t) : Coherent t ∧ Same s t := by
  refine ⟨⟨h.bound.of_same hadvances.same, ?_⟩, hadvances.same⟩
  obtain ⟨a, j, -, hj, hstates⟩ := h.agree.of_approved happroved
  obtain ⟨a', b, -, -, hopen, -, rfl⟩ := hadvances.action
  simp only [HeldCall.states, States.mk.injEq, Option.map_some] at hstates ⊢
  obtain ⟨hap, hop, -, henvelope, hjob⟩ := hstates
  rw [hap, hop, henvelope, hjob]
  exact .queued b.state j hopen hj

/-- A settlement with its job write ends the call. -/
theorem Coherent.of_closes {k : Ended} (h : Coherent s) (hcloses : Closes k s t)
    (hjob : t.job = some (id, row)) (hended : (write.set row).state = k.job) :
    Coherent { t with job := some (id, write.set row) } ∧
      Same s { t with job := some (id, write.set row) } := by
  have hsame := hcloses.same.trans (same_job write hjob)
  refine h.of_same hsame ?_
  obtain ⟨a, a', -, -, ha', hstate, -⟩ := hcloses.action
  obtain ⟨e, e', -, -, he', hreserved, -⟩ := hcloses.envelope
  simp only [HeldCall.states, hcloses.approval.1, hcloses.operation.1, ha', he', hstate,
    hreserved, hended, Option.map_some]
  exact .ended k

/-- Bound rows of a held job are all that a grant asks for. -/
theorem lockAndBind_of_approved (h : Coherent s) (happroved : s.approval.state = .approved)
    (hjob : s.job = some (id, row)) (hheld : row.isHeld owner = true) :
    ∃ a, lockAndBind s id owner = some a := by
  obtain ⟨a', j, hopen, -, hstates⟩ := h.agree.of_approved happroved
  obtain ⟨a, ha, rfl⟩ := Option.map_eq_some_iff.mp (congrArg States.action hstates)
  obtain ⟨e, he, hreserved⟩ := Option.map_eq_some_iff.mp (congrArg States.envelope hstates)
  obtain ⟨h₁, h₂, h₃, h₄, h₅, h₆⟩ := h.bound.action a ha
  obtain ⟨h₇, h₈⟩ := h.bound.envelope a e ha he
  obtain ⟨hkind, hop, hnames, a'', ha'', hattached⟩ := h.bound.job id row hjob
  obtain rfl := Option.some.inj (ha.symm.trans ha'')
  have hrunning : s.operation.state = .running := congrArg States.operation hstates
  refine ⟨a, ?_⟩
  unfold lockAndBind
  rw [ha, he, hjob]
  exact if_pos ⟨⟨hopen, hattached⟩, ⟨rfl, hkind, hheld, hop, hnames⟩,
    ⟨happroved, h₁, h₂, h₃, h₄⟩, ⟨h₅, h₆, hrunning⟩, hreserved, h₇, h₈⟩

/-- The lease is of the job. -/
def Leased (s : HeldCall Output) (lease : LeasedJob) : Prop :=
  ∃ row, s.job = some (lease.id, row) ∧ lease.payload = row.input ∧
    lease.maxAttempts = row.maxAttempts

theorem Leased.of_same (h : Leased s lease) (hsame : Same s t) : Leased t lease := by
  obtain ⟨row, hrow, hpayload, hmax⟩ := h
  have hjob := hsame.job
  rw [hrow, Option.map_some] at hjob
  obtain ⟨⟨id', row'⟩, hrow', hidentity⟩ := Option.map_eq_some_iff.mp hjob
  simp only [jobIdentity, Prod.mk.injEq] at hidentity
  obtain ⟨rfl, -, -, hinput, hmax'⟩ := hidentity
  exact ⟨row', hrow', hpayload.trans hinput.symm, hmax.trans hmax'.symm⟩

/-- What a bound pass works at is the open action of an approved call. -/
theorem boundAction_eq_some {a : ExternalActionRow} (h : boundAction lease owner s = some a) :
    s.action = some a ∧ a.state.isOpen = true ∧
      (∃ row, s.job = some (lease.id, row) ∧ row.isHeld owner = true) ∧
      s.approval.state = .approved ∧ s.approval.destinationRef = some a.destinationRef ∧
      s.approval.payloadDigest = a.approvalPayloadDigest := by
  unfold boundAction at h
  split_ifs at h
  exact lockAndBind_eq_some h

theorem Coherent.addEffect (h : Coherent s) (effect : Effect Output) :
    Coherent (s.addEffect effect) ∧ Same s (s.addEffect effect) :=
  ⟨⟨⟨h.bound.action, h.bound.envelope, h.bound.job⟩, h.agree⟩, rfl, rfl, ⟨rfl, rfl⟩, rfl, rfl, rfl⟩

theorem Coherent.of_leaves {absent landed : Prop} {r : ContinuationResult} {u : HeldCall Output}
    (h : Coherent s) (happroved : s.approval.state = .approved)
    (hleaves : Continuing.Leaves absent landed s t r)
    (hfinish : v.finish owner lease mode r t = .committed u) : Coherent u ∧ Same s u := by
  obtain ⟨write, row, hjob, hheld, hended, hretried, -, rfl⟩ := finish_eq_committed hfinish
  cases hleaves with
  | closed k hends hrests => exact h.of_closes hends.1 hjob (hended k hends.2)
  | retried hadvances hretry habsent =>
    obtain ⟨ht, hsame⟩ := h.advance happroved hadvances
    obtain ⟨hu, hsame'⟩ := ht.of_job hjob (by rw [(JobRow.isHeld_iff.mp hheld).2]; rfl)
      (by rw [hretried hretry]; rfl)
    exact ⟨hu, hsame.trans hsame'⟩

/-- What a pass commits stands together. -/
theorem Coherent.of_passes {p : Ending Output × Option ProviderCall} {u : HeldCall Output}
    (h : Coherent s) (hleased : Leased s lease) (hpasses : Passes sha256 v owner lease mode s p)
    (hcommitted : p.1 = .committed u) : Coherent u ∧ Same s u := by
  cases hpasses with
  | faulted | lost => cases hcommitted
  | unbound hunbound =>
    obtain ⟨write, row, hjob, hheld, hended, -, -, rfl⟩ := finish_eq_committed hcommitted
    have hsame := same_job write hjob
    refine h.of_same hsame ?_
    have hstate : s.states.job = some .leased := by
      simp [HeldCall.states, hjob, (JobRow.isHeld_iff.mp hheld).2]
    have hnames : namesAction lease.payload s.ids.action = true := by
      obtain ⟨row', hrow', hpayload, -⟩ := hleased
      rw [hpayload]
      exact (h.bound.job _ _ hrow').2.2.1
    rcases h.agree.of_unfinished hstate rfl with ⟨a, ha, hstates⟩ | ⟨a, ha, hstates⟩
    · have happroved : s.approval.state = .approved := congrArg States.approval hstates
      obtain ⟨b, hb⟩ := lockAndBind_of_approved h happroved hjob hheld
      rw [boundAction, if_pos hnames, hb] at hunbound
      cases hunbound
    · have hfailed : (write.set row).state = .failed := hended .failed rfl
      simp only [HeldCall.states, States.mk.injEq, Option.map_some] at hstates ⊢
      obtain ⟨hap, hop, haction, henvelope, -⟩ := hstates
      rw [hap, hop, haction, henvelope]
      exact .queuedErased a _ ha (.inr hfailed)
  | settled a t r hbound hleaves =>
    exact h.of_leaves (boundAction_eq_some hbound).2.2.2.1 hleaves hcommitted
  | concluded a m t d input destination r hinvoked hleaves =>
    have happroved := (boundAction_eq_some hinvoked.bound).2.2.2.1
    obtain ⟨hm, hsame⟩ := h.advance happroved hinvoked.advances
    have happroved' : m.approval.state = .approved := by
      obtain ⟨_, _, _, _, _, _, rfl⟩ := hinvoked.advances.action
      exact happroved
    rcases hleaves with ⟨output, -, hends, hdisposition⟩ | hleaves
    · obtain ⟨write, row, hjob, -, hended, -, -, rfl⟩ := finish_eq_committed hcommitted
      split_ifs at hends with hprovider
      · obtain ⟨hu, hsame'⟩ := hm.of_closes hends hjob (hended .succeeded hdisposition)
        exact ⟨hu, hsame.trans hsame'⟩
      · obtain ⟨hm', hsame''⟩ := hm.addEffect
          ⟨d.executablePayload input, some destination.destinationRef, output, v.now⟩
        obtain ⟨hu, hsame'⟩ := hm'.of_closes hends hjob (hended .succeeded hdisposition)
        exact ⟨hu, hsame.trans (hsame''.trans hsame')⟩
    · obtain ⟨hu, hsame'⟩ := hm.of_leaves happroved' hleaves hcommitted
      exact ⟨hu, hsame.trans hsame'⟩

end Passing

end Rheostream.Approvals
