import Rheostream.Approvals.CallBudget

/-!
# One effect for one approval

Where destinations say the truth about what they did, one held call has at most one effect, over
every run with its lost leases, faults and crashes, and its rows say whether it had it.
-/

namespace Rheostream.Approvals

variable {Input Output : Type} {sha256 : ByteArray → ByteArray} {s t : CallState Output}

attribute [local instance] bytesEq

/-! ### Destinations that say the truth -/

namespace DestinationAnswer

/-- What a destination says about an effect that it was called for: an output says that the effect
took place, and an error of a known class that it did not. -/
def saysLanded : DestinationAnswer Output → Option Bool
  | .output _ => some true
  | .error e => if e.failureClass = .outcomeUnknown then none else some false
  | .nothing | .invalid | .raised _ => none

/-- What it says when it is asked about the effect: here, nothing says that there was none. -/
def saysFound : DestinationAnswer Output → Option Bool
  | .nothing => some false
  | answer => answer.saysLanded

end DestinationAnswer

/-- Some call to the provider took effect. -/
def CallState.landed (s : CallState Output) : Bool := s.calls.any (·.landed)

/-- The effects of a held call: those of the provider, and those that committed here. -/
def CallState.effectCount (s : CallState Output) : ℕ :=
  s.calls.countP (·.landed) + s.rows.effects.length

/-- What a destination says is so, and the destination of this call keeps its mode. -/
def Honest (mode : DestinationMode) (s : CallState Output) : CallAction Input Output → Bool
  | .visit _ v =>
    v.reconcile.saysFound.all (· == s.landed) && v.execute.saysLanded.all (· == v.lands) &&
      v.deployment.destinations.all fun d =>
        some d.destinationRef ≠ s.rows.approval.destinationRef || d.mode = mode
  | .resolve _ given => given.reconcile.saysFound.all (· == s.landed)
  | _ => true

/-- The machine whose destinations say the truth. -/
def honestMachine (sha256 : ByteArray → ByteArray) (Input Output : Type) (mode : DestinationMode) :
    Machine (CallState Output) (CallAction Input Output) :=
  (heldCallMachine sha256 Input Output).restrict fun s a => Honest mode s a = true

/-- How many effects the rows of a call stand for. -/
def Accounts (st : States) (n : ℕ) : Prop :=
  match st.action with
  | none => n = if st.approval = .executed then 1 else 0
  | some .succeeded => n = 1
  | some .failed | some .refused => n = 0
  | some .cancelled => n ≤ 1 ∧ (st.approval = .refused → n = 0)
  | some .pending | some .executing | some .unresolved => n ≤ 1

variable {n : ℕ} {st : States}

theorem Accounts.le_one (h : Accounts st n) : n ≤ 1 := by
  unfold Accounts at h
  split at h
  · split_ifs at h <;> omega
  all_goals omega

theorem Accounts.of_open {a : ActionState} (haction : st.action = some a) (hopen : a.isOpen = true)
    (hn : n ≤ 1) : Accounts st n := by
  cases a <;> cases hopen <;> simpa [Accounts, haction] using hn

theorem ne_succeeded_of_isOpen {a : ActionState} (h : a.isOpen = true) : a ≠ .succeeded := by
  rintro rfl
  cases h

/-- What each end of a staged call says about its effects. -/
theorem Accounts.of_ended {k : Ended} (haction : st.action = some k.action) (hn : n ≤ 1)
    (hlanded : k = .succeeded → n = 1)
    (habsent : k = .refused ∨ k = .failed ∨ k = .cancelled → n = 0) : Accounts st n := by
  cases k with
  | succeeded => simpa [Accounts, haction, Ended.action] using hlanded rfl
  | refused => simpa [Accounts, haction, Ended.action] using habsent (.inl rfl)
  | failed => simpa [Accounts, haction, Ended.action] using habsent (.inr (.inl rfl))
  | cancelled => simp [Accounts, haction, Ended.action, habsent (.inr (.inr rfl))]
  | unresolved => simpa [Accounts, haction, Ended.action] using hn

/-- The rows of a call account for its effects. -/
structure Accounted (mode : DestinationMode) (s : CallState Output) : Prop where
  accounts : Accounts s.rows.states s.effectCount
  /-- Nothing commits here before the end. -/
  quiet : ∀ a, s.rows.action = some a → a.state ≠ .succeeded → s.rows.effects = []
  inProcess : mode ≠ .provider → s.calls = []

section Accounting

variable {mode : DestinationMode} {v : Visit Input Output} {owner : Uuid} {worker : Worker}
  {a : ExternalActionRow}

theorem landed_eq_false (calls : List ProviderCall) (h : calls.any (·.landed) = false) :
    calls.countP (·.landed) = 0 :=
  List.countP_eq_zero.mpr (List.any_eq_false.mp h)

theorem landed_eq_true (calls : List ProviderCall) (h : calls.any (·.landed) = true) :
    0 < calls.countP (·.landed) := by
  rw [List.countP_pos_iff]
  simpa using h

theorem honest_visit (h : Honest mode s (.visit owner v) = true) :
    v.reconcile.saysFound.all (· == s.landed) = true ∧
      v.execute.saysLanded.all (· == v.lands) = true ∧
      ∀ d ∈ v.deployment.destinations, some d.destinationRef = s.rows.approval.destinationRef →
        d.mode = mode := by
  simp only [Honest, Bool.and_eq_true, List.all_eq_true, Bool.or_eq_true, decide_eq_true_eq] at h
  exact ⟨h.1.1, h.1.2, fun d hd hbound => (h.2 d hd).resolve_left (absurd hbound)⟩

variable {destination : Destination}

/-- The registered destination of a bound action has the mode. -/
theorem honest_destination
    (hmode : ∀ d ∈ v.deployment.destinations,
      some d.destinationRef = s.rows.approval.destinationRef → d.mode = mode)
    (hdestination : s.rows.approval.destinationRef = some a.destinationRef)
    (hfound : v.deployment.destination a.destinationRef = some destination) :
    destination.mode = mode := by
  refine hmode destination (List.mem_of_find?_eq_some hfound) ?_
  rw [hdestination, Deployment.destination_ref hfound]

/-- Where a pass shows that no effect can stand, there is none. -/
theorem Accounted.absent {row : JobRow} (h : Accounted mode s) (hbudget : Budgeted s)
    (hhonest : Honest mode s (.visit owner v) = true)
    (hworker : s.workers.lookup owner = some worker) (hphase : worker.phase = .running)
    (hjob : s.rows.job = some (worker.lease.id, row)) (hheld : row.isHeld owner = true)
    (hdestination : s.rows.approval.destinationRef = some a.destinationRef)
    (habsent : (v.continuing s.rows a worker.lease worker.mode).ShowsAbsence) :
    s.calls.countP (·.landed) = 0 := by
  obtain ⟨hasked, -, hmode⟩ := honest_visit hhonest
  obtain ⟨hattempts, hroom⟩ := hbudget.holder _ row owner worker hjob hheld hworker
  have hcounted := (hbudget.counted _ row hjob).1
  rcases habsent with ⟨hrun, hfirst⟩ | ⟨-, hunleased⟩ | ⟨d, hd, hproof⟩
  · -- The first lease has called nobody yet.
    have hrun' : worker.mode = .run := hrun
    have hfirst' : worker.lease.attempts ≤ 1 := hfirst
    have hless := (hroom hphase hrun').1
    have hnone : s.calls = [] := List.length_eq_zero_iff.mp (by omega)
    rw [hnone]
    rfl
  · have hunleased' : worker.lease.attempts = 0 := hunleased
    have hnone : s.calls = [] := List.length_eq_zero_iff.mp (by omega)
    rw [hnone]
    rfl
  · rcases hproof with hlocal | hnothing | ⟨e, he, hclass⟩
    · have hlocal' := honest_destination hmode hdestination hd
      rw [h.inProcess (hlocal' ▸ hlocal)]
      rfl
    · have hnothing' : v.reconcile = .nothing := hnothing
      rw [hnothing'] at hasked
      exact landed_eq_false s.calls (by
        simpa [DestinationAnswer.saysFound, CallState.landed] using hasked)
    · have he' : v.reconcile = .error e := he
      rw [he'] at hasked
      exact landed_eq_false s.calls (by
        simpa [DestinationAnswer.saysFound, DestinationAnswer.saysLanded, hclass,
          CallState.landed] using hasked)

/-- A destination that confirms the effect has had one. -/
theorem confirmed_landed (hhonest : Honest mode s (.visit owner v) = true)
    (hconfirmed : (v.continuing s.rows a worker.lease worker.mode).Confirmed) :
    0 < s.calls.countP (·.landed) := by
  obtain ⟨hasked, -, -⟩ := honest_visit hhonest
  obtain ⟨d, output, -, -, houtput⟩ := hconfirmed
  have houtput' : v.reconcile = .output output := houtput
  rw [houtput'] at hasked
  exact landed_eq_true s.calls (by simpa [DestinationAnswer.saysFound, DestinationAnswer.saysLanded,
    CallState.landed] using hasked)

theorem Accounts.of_frame {st st' : States} {n : ℕ} (h : Accounts st n)
    (haction : st'.action = st.action)
    (happroval : st'.approval = st.approval ∨
      st.approval ≠ .executed ∧ st'.approval = .invalidated) : Accounts st' n := by
  unfold Accounts at h ⊢
  rw [haction]
  rcases happroval with heq | ⟨hlive, heq⟩
  · rw [heq]
    exact h
  · rw [heq]
    cases hstate : st.action with
    | none => simpa [hstate, hlive] using h
    | some a => cases a <;> simp_all

/-- Nothing that the account is about has moved. -/
theorem Accounted.frame (h : Accounted mode s) (haction : t.rows.action = s.rows.action)
    (happroval : t.rows.approval.state = s.rows.approval.state ∨
      s.rows.approval.state ≠ .executed ∧ t.rows.approval.state = .invalidated)
    (heffects : t.rows.effects = s.rows.effects) (hcalls : t.calls = s.calls) :
    Accounted mode t where
  accounts := by
    unfold CallState.effectCount
    rw [hcalls, heffects]
    exact h.accounts.of_frame (by simp [HeldCall.states, haction]) happroval
  quiet b hb hstate := heffects.trans (h.quiet b (haction.symm.trans hb) hstate)
  inProcess hmode := hcalls.trans (h.inProcess hmode)

/-- A call that waits for a decision has had no effect. -/
theorem Accounted.undecided (h : Accounted mode s) (hconsistent : Consistent s)
    (hbudget : Budgeted s) (hdecidable : s.rows.approval.state.isDecidable = true) :
    s.calls = [] ∧ s.rows.effects = [] := by
  obtain ⟨-, hjob, hrest⟩ := hconsistent.coherent.of_decidable hdecidable
  have hcalls := hbudget.unqueued hjob
  refine ⟨hcalls, ?_⟩
  rcases hrest with ⟨hinline, -⟩ | ⟨b, e, hb, hpending, -⟩
  · have hlive : s.rows.approval.state ≠ .executed := by
      intro hexecuted
      rw [hexecuted] at hdecidable
      cases hdecidable
    have hcount := h.accounts
    simpa [Accounts, HeldCall.states, hinline, hlive, CallState.effectCount, hcalls] using hcount
  · exact h.quiet b hb (by rw [hpending]; simp)

/-- What stands at an invocation: no effect so far, and a destination of the mode. -/
theorem Accounted.invoked {m : HeldCall Output} {d : Declaration Input Output} {input : Input}
    (h : Accounted mode s) (hbudget : Budgeted s) (hhonest : Honest mode s (.visit owner v) = true)
    (hworker : s.workers.lookup owner = some worker) (hphase : worker.phase = .running)
    (hinvoked : Invoked sha256 v owner worker.lease worker.mode s.rows m a d input destination) :
    s.calls.countP (·.landed) = 0 ∧ s.rows.effects = [] ∧ destination.mode = mode := by
  obtain ⟨haction, hopen, ⟨row, hjob, hheld⟩, -, hbound, -⟩ := boundAction_eq_some hinvoked.bound
  obtain ⟨-, -, hfound, -⟩ := Continuing.rechecked_eq_ok hinvoked.rechecked
  refine ⟨h.absent hbudget hhonest hworker hphase hjob hheld hbound hinvoked.absent,
    h.quiet a haction (ne_succeeded_of_isOpen hopen),
    honest_destination (honest_visit hhonest).2.2 hbound hfound⟩

theorem providerCall_local {d : Declaration Input Output} {input : Input}
    (hmode : destination.mode ≠ .provider) : providerCall v d input destination = none :=
  if_neg hmode

theorem countP_providerCall (d : Declaration Input Output) (input : Input)
    (destination : Destination) : (providerCall v d input destination).toList.countP (·.landed) =
      if destination.mode = .provider ∧ v.lands = true then 1 else 0 := by
  unfold providerCall
  by_cases hmode : destination.mode = .provider
  · cases hlands : v.lands <;> simp [hmode]
  · simp [hmode]

variable {workers : Table Uuid Worker}

/-- A way in which a call is left accounts for its effects, where what it rests on is so. -/
theorem accounted_of_leaves {absent landed : Prop} {rows u : HeldCall Output}
    {r : ContinuationResult} {job : Option (Uuid × JobRow)} {calls : List ProviderCall}
    (hleaves : Continuing.Leaves absent landed rows u r) (heffects : rows.effects = [])
    (hcount : calls.countP (·.landed) ≤ 1) (habsent : absent → calls.countP (·.landed) = 0)
    (hlanded : landed → calls.countP (·.landed) = 1) (hlocal : mode ≠ .provider → calls = []) :
    Accounted mode (⟨{ u with job := job }, calls, workers⟩ : CallState Output) where
  accounts := by
    have hcount' : (⟨{ u with job := job }, calls, workers⟩ : CallState Output).effectCount =
        calls.countP (·.landed) := by
      simp [CallState.effectCount, hleaves.job_eq.2, heffects]
    rw [hcount']
    cases hleaves with
    | closed k hends hrests =>
      obtain ⟨b, b', -, -, hb', hstate, -⟩ := hends.1.action
      refine .of_ended (k := k) (by simp [HeldCall.states, hb', hstate]) hcount ?_ ?_
      · rintro rfl
        exact hlanded hrests
      · rintro (rfl | rfl | rfl) <;> exact habsent hrests
    | retried hadvances =>
      obtain ⟨b, b', -, -, hopen, -, rfl⟩ := hadvances.action
      exact .of_open rfl hopen hcount
  quiet b hb hstate := hleaves.job_eq.2.trans heffects
  inProcess := hlocal

/-- A pass whose transaction is lost leaves at most the effect of its call. -/
theorem Accounted.uncommitted {p : Ending Output × Option ProviderCall} (h : Accounted mode s)
    (hbudget : Budgeted s) (hhonest : Honest mode s (.visit owner v) = true)
    (hworker : s.workers.lookup owner = some worker) (hphase : worker.phase = .running)
    (hpasses : Passes sha256 v owner worker.lease worker.mode s.rows p) :
    Accounted mode ⟨s.rows, s.calls ++ p.2.toList, workers⟩ := by
  cases hcall : p.2 with
  | none => exact h.frame rfl (.inl rfl) rfl (by simp)
  | some call =>
    obtain ⟨m, b, d, input, destination, hinvoked, hprovider⟩ := call_of_passes hpasses hcall
    obtain ⟨hcount, heffects, hmode⟩ := h.invoked hbudget hhonest hworker hphase hinvoked
    obtain ⟨haction, hopen, -⟩ := boundAction_eq_some hinvoked.bound
    refine ⟨.of_open (a := b.state) (by simp [HeldCall.states, haction]) hopen ?_, h.quiet,
      fun hlocal => ?_⟩
    · simp only [CallState.effectCount, List.countP_append, hcount, heffects, Option.toList_some,
        List.length_nil]
      have hone := List.countP_le_length (p := fun call : ProviderCall => call.landed) (l := [call])
      simp only [List.length_singleton] at hone
      omega
    · rw [providerCall_local (hmode ▸ hlocal)] at hprovider
      cases hprovider

/-- What a pass commits accounts for its effects. -/
theorem Accounted.committed {p : Ending Output × Option ProviderCall} {u : HeldCall Output}
    (h : Accounted mode s) (hbudget : Budgeted s) (hhonest : Honest mode s (.visit owner v) = true)
    (hworker : s.workers.lookup owner = some worker) (hphase : worker.phase = .running)
    (hpasses : Passes sha256 v owner worker.lease worker.mode s.rows p)
    (hcommitted : p.1 = .committed u) : Accounted mode ⟨u, s.calls ++ p.2.toList, workers⟩ := by
  cases hpasses with
  | faulted | lost => cases hcommitted
  | unbound =>
    obtain ⟨row, row', -, -, rfl, -⟩ := finish_spent hcommitted
    exact h.frame rfl (.inl rfl) rfl (by simp)
  | settled b m r hbound hleaves =>
    obtain ⟨row, row', -, -, rfl, -⟩ := finish_spent hcommitted
    obtain ⟨haction, hopen, ⟨row'', hjob, hheld⟩, -, hdestination, -⟩ := boundAction_eq_some hbound
    have hquiet : s.rows.effects = [] := h.quiet b haction (ne_succeeded_of_isOpen hopen)
    have hcount : s.calls.countP (·.landed) ≤ 1 := by
      have := h.accounts.le_one
      unfold CallState.effectCount at this
      omega
    simp only [Option.toList_none, List.append_nil]
    refine accounted_of_leaves hleaves hquiet hcount (fun habsent => ?_) (fun hlanded => ?_)
      h.inProcess
    · exact h.absent hbudget hhonest hworker hphase hjob hheld hdestination habsent
    · have hpos := confirmed_landed hhonest hlanded
      omega
  | concluded b m w d input destination r hinvoked hleaves =>
    obtain ⟨row, row', -, -, rfl, -⟩ := finish_spent hcommitted
    obtain ⟨hcount, heffects, hmode⟩ := h.invoked hbudget hhonest hworker hphase hinvoked
    obtain ⟨-, hexecuted, -⟩ := honest_visit hhonest
    obtain ⟨_, _, -, -, -, -, rfl⟩ := hinvoked.advances.action
    have hlocal : mode ≠ .provider → s.calls ++ (providerCall v d input destination).toList = [] :=
      fun hne => by rw [providerCall_local (hmode ▸ hne), h.inProcess hne]; rfl
    rcases hleaves with ⟨output, houtput, hends, -⟩ | hleaves
    · rw [houtput] at hexecuted
      have hlands : v.lands = true := by
        simpa [DestinationAnswer.saysLanded] using hexecuted
      obtain ⟨c, c', -, -, hc', hstate, -⟩ := hends.action
      have hone : (s.calls ++ (providerCall v d input destination).toList).countP (·.landed) +
          w.effects.length = 1 := by
        rw [hends.rest.2.2.2, List.countP_append, hcount, countP_providerCall]
        by_cases hprovider : destination.mode = .provider
        · simp [hprovider, hlands, heffects]
        · simp [hprovider, HeldCall.addEffect, heffects]
      refine ⟨.of_ended (k := .succeeded) (by simp [HeldCall.states, hc', hstate]) hone.le
        (fun _ => hone) (by simp), fun e he hne => ?_, hlocal⟩
      obtain rfl := Option.some.inj (hc'.symm.trans he)
      exact absurd hstate hne
    · refine accounted_of_leaves hleaves heffects ?_ ?_ False.elim hlocal
      · rw [List.countP_append, hcount, countP_providerCall]
        split_ifs <;> omega
      · intro hproof
        rw [List.countP_append, hcount, countP_providerCall, if_neg, Nat.add_zero]
        rintro ⟨hprovider, hlands⟩
        rcases hproof with hne | ⟨e, he, hclass⟩
        · exact hne hprovider
        · rw [he] at hexecuted
          simp [DestinationAnswer.saysLanded, hclass, hlands] at hexecuted

variable {rows : HeldCall Output}

/-- A decision leaves the call accounted for. -/
theorem Accounted.approved {w : Deployment Input Output} {now : ℕ} {jobId : Uuid}
    (h : Accounted mode s) (hconsistent : Consistent s) (hbudget : Budgeted s)
    (hdecidable : s.rows.approval.state.isDecidable = true)
    (hbecame : Approved sha256 w now jobId s.rows rows) :
    Accounted mode { s with rows := rows } := by
  obtain ⟨hcalls, heffects⟩ := h.undecided hconsistent hbudget hdecidable
  cases hbecame with
  | executed payload output hinline hheld hdigest hwindow ht =>
    subst ht
    refine ⟨?_, fun b hb => ?_, fun _ => hcalls⟩
    · simp [Accounts, HeldCall.states, hinline, CallState.effectCount, hcalls, heffects,
        ApprovalRow.markExecuted]
    · rw [hinline] at hb
      cases hb
  | guardRefused refusal hinline ht =>
    subst ht
    refine ⟨?_, fun _ _ _ => heffects, fun _ => hcalls⟩
    simp [Accounts, HeldCall.states, hinline, CallState.effectCount, hcalls, heffects,
      ApprovalRow.markGuardRefused]
  | queued b haction hpending hheld hjob ht =>
    subst ht
    refine ⟨.of_open (a := b.state) rfl (by rw [hpending]; rfl) ?_, fun _ _ _ => heffects,
      fun _ => hcalls⟩
    simp [CallState.effectCount, hcalls, heffects]
  | stagedRefused refusal b e haction hopen henvelope hpending hheld ht =>
    subst ht
    refine ⟨?_, fun _ _ _ => heffects, fun _ => hcalls⟩
    simp [Accounts, HeldCall.states, CallState.effectCount, hcalls, heffects,
      ExternalActionRow.settled]

theorem Accounted.refused {w : Deployment Input Output} {viewer : Viewer}
    {expected : Option ByteArray} {now : ℕ} (h : Accounted mode s) (hconsistent : Consistent s)
    (hbudget : Budgeted s) (hanswers : (refuse sha256 w viewer expected now).Answers s.rows () rows)
    : Accounted mode { s with rows := rows } := by
  obtain ⟨hdecidable, -, hbecame⟩ := refuse_answers hanswers
  obtain ⟨hcalls, heffects⟩ := h.undecided hconsistent hbudget hdecidable
  rcases hbecame with ⟨hinline, rfl⟩ | ⟨b, e, haction, hopen, -, -, rfl⟩
  · refine ⟨?_, fun _ _ _ => heffects, fun _ => hcalls⟩
    simp [Accounts, HeldCall.states, hinline, CallState.effectCount, hcalls, heffects,
      ApprovalRow.markRefused]
  · refine ⟨?_, fun _ _ _ => heffects, fun _ => hcalls⟩
    simp [Accounts, HeldCall.states, CallState.effectCount, hcalls, heffects,
      ExternalActionRow.settled]

/-- So does a resolution, which a person may make only with what the destination says. -/
theorem Accounted.resolved {given : ResolveInput Output} (h : Accounted mode s)
    (hconsistent : Consistent s) (hhonest : given.reconcile.saysFound.all (· == s.landed) = true)
    (hresolved : Resolved given s.rows rows) : Accounted mode { s with rows := rows } := by
  obtain ⟨b, b', hb, hunresolved, hb', hstate, -⟩ := hresolved.action
  obtain ⟨-, happroval, -, -, heffects⟩ := hresolved.rest
  have hquiet : s.rows.effects = [] := h.quiet b hb (by rw [hunresolved]; simp)
  have hcount : s.calls.countP (·.landed) ≤ 1 := by
    have hle := h.accounts.le_one
    unfold CallState.effectCount at hle
    omega
  have hrow := hconsistent.coherent.agree.of_unresolved hresolved.operation.1
  have hexecuted : s.rows.approval.state = .executed := congrArg States.approval hrow
  refine ⟨?_, fun _ _ _ => heffects.trans hquiet, h.inProcess⟩
  rcases hresolved.proof with ⟨houtcome, output, hanswer⟩ | ⟨houtcome, hanswer⟩ | houtcome
  · rw [hanswer] at hhonest
    have hpos := landed_eq_true s.calls (by
      simpa [DestinationAnswer.saysFound, DestinationAnswer.saysLanded, CallState.landed]
        using hhonest)
    have hone : s.calls.countP (·.landed) = 1 := by omega
    simp [Accounts, HeldCall.states, hb', hstate, houtcome, Resolution.action,
      CallState.effectCount, heffects, hquiet, hone]
  · rw [hanswer] at hhonest
    have hzero := landed_eq_false s.calls (by
      simpa [DestinationAnswer.saysFound, CallState.landed] using hhonest)
    simp [Accounts, HeldCall.states, hb', hstate, houtcome, Resolution.action,
      CallState.effectCount, heffects, hquiet, hzero]
  · simp [Accounts, HeldCall.states, hb', hstate, houtcome, Resolution.action,
      CallState.effectCount, heffects, hquiet, hcount, happroval, hexecuted]

theorem Accounted.step {b : CallAction Input Output} (h : Accounted mode s)
    (hconsistent : Consistent s) (hbudget : Budgeted s) (hhonest : Honest mode s b = true)
    (hmoves : CallMoves sha256 s b t) : Accounted mode t := by
  cases hmoves with
  | stayed => exact h
  | approved hdecidable hbecame =>
    exact h.approved hconsistent hbudget hdecidable hbecame
  | refused hanswers =>
    exact h.refused hconsistent hbudget hanswers
  | resolved hgiven hanswers =>
    subst hgiven
    exact h.resolved hconsistent hhonest (hconsistent.coherent.of_resolved hanswers).2.2
  | erased now =>
    obtain ⟨haction, -, heffects, happroval⟩ := eraseDependents_rest s.rows now
    exact h.frame haction (happroval.imp id fun ⟨hlive, hinvalid⟩ => ⟨hlive, hinvalid⟩) heffects rfl
  | @visited owner v worker p hvisit hworker hphase hpasses =>
    subst hvisit
    unfold CallState.ended
    cases hending : p.1 with
    | committed rows => exact h.committed hbudget hhonest hworker hphase hpasses hending
    | unapplied | raised => exact h.uncommitted hbudget hhonest hworker hphase hpasses
  | tampered | requested | acquired | requeued | overtaken | rechecked | left =>
    exact h.frame rfl (.inl rfl) rfl rfl

end Accounting

/-- Where destinations say the truth, in every run, with any lost leases, faults and crashes, the
rows of a held call account for its effects: at most one, one where the call succeeded, and none
where it was refused, failed, or was cancelled before a person had to resolve it. -/
theorem one_effect {mode : DestinationMode}
    (h : (honestMachine sha256 Input Output mode).Reachable s) :
    s.effectCount ≤ 1 ∧ Accounts s.rows.states s.effectCount := by
  have haccounted : Accounted mode s := by
    refine Machine.Reachable.invariant ?_ ?_ h
    · rintro r ⟨hbegins, hcalls, -⟩
      obtain ⟨hcoherent, -, heffects, hheld⟩ := hbegins.coherent
      refine ⟨?_, fun _ _ _ => heffects, fun _ => hcalls⟩
      obtain ⟨hdecidable, -, ⟨haction, -⟩ | ⟨-, haction, -⟩⟩ := hcoherent.agree.of_held hheld
      · have hlive : r.rows.states.approval ≠ .executed := by
          intro hexecuted
          rw [hexecuted] at hdecidable
          cases hdecidable
        simp [Accounts, haction, hlive, CallState.effectCount, hcalls, heffects]
      · exact .of_open haction rfl (by simp [CallState.effectCount, hcalls, heffects])
    · intro r b u hreach hr hstep
      obtain ⟨hhonest, hstep⟩ := Machine.restrict_step.mp hstep
      have hreach' := Machine.Reachable.of_restrict hreach
      exact hr.step ((consistent_isInvariant sha256 Input Output).of_reachable hreach')
        (budgeted hreach') hhonest (step_moves hstep)
  exact ⟨haccounted.accounts.le_one, haccounted.accounts⟩

/-- The mail again, at a destination that says the truth. -/
def sampleTold : Option (CallState Unit) :=
  sampleStaged.bind fun s =>
    (honestMachine sampleDigest Unit Unit .provider).run ⟨s, [], ∅⟩ sampleActions

theorem sampleTold_isSome : sampleTold.isSome = true := by decide +kernel

/-- The sample call that is told of its effect has at most one, and its rows account for it. -/
theorem one_effect_sample : (sampleTold.get sampleTold_isSome).effectCount ≤ 1 ∧
      Accounts (sampleTold.get sampleTold_isSome).rows.states
        (sampleTold.get sampleTold_isSome).effectCount := by
  obtain ⟨s, hs, hrun⟩ := Option.bind_eq_some_iff.mp (Option.some_get sampleTold_isSome).symm
  exact one_effect (Machine.reachable_of_run ⟨sampleStaged_begins hs, rfl, rfl⟩ hrun)

end Rheostream.Approvals
