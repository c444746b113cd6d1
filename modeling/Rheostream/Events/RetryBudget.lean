import Rheostream.Events.BudgetLedger
import Rheostream.Work.ExactlyOnce
import Rheostream.Work.RetryBudget

/-!
# The retry budget

The law of the delivery half, from the ledger of a delivery, and the law of both halves. The
entries of a delivery are counted under leases taken since its row was made or last started
over: one that was taken before and is still in hand may enter the handler beyond the budget.
-/

namespace Rheostream

section Budget

open DeliveryBudget

variable {n : ℕ} {s t : EventState} {a : EventAction} {key : DeliveryKey} {row : DeliveryRow}

/-- Entries are spent attempts or deferrals. -/
private def Counted (key : DeliveryKey) (s : EventState) : Prop :=
  s.entries key =
    (spentDeliveries key (s.generation key) s.history).length + s.deferrals key

/-- A history that says nothing new says it of an old generation, or of a new one nothing. -/
private theorem Counted.of_history (h : Counted key s) (hok : GenerationsOk s)
    (hhistory : t.history = s.history) (hgeneration : t.generation key = s.generation key ∨
      t.generation key = s.generation key + 1) : Counted key t := by
  unfold Counted EventState.entries EventState.deferrals at *
  rw [hhistory]
  rcases hgeneration with hsame | hnew
  · rwa [hsame]
  · have hpast : ∀ event ∈ s.history, ∀ generation, event.generation? key = some generation →
        generation < t.generation key := fun event hevent generation hat => by
      have hle := hok.history event hevent key generation hat
      omega
    have hnone : ∀ event ∈ s.history, event.generation? key ≠ some (t.generation key) :=
      fun event hevent hat => absurd (hpast event hevent _ hat) (lt_irrefl _)
    rw [spent_eq_nil hpast, List.length_nil, Nat.zero_add, List.countP_eq_zero.mpr,
      List.countP_eq_zero.mpr]
    all_goals
      intro event hevent
      have hother := hnone event hevent
      cases event <;> simp_all [DeliveryEvent.generation?]

private theorem counted (hs : (budgetLoop n).Reachable s) (key : DeliveryKey) :
    Counted key s := by
  refine Machine.Reachable.invariant (I := Counted key) ?_ (fun s a t hs hcount hstep => ?_) hs
  · rintro _ rfl
    rfl
  obtain ⟨-, hstep⟩ := Machine.restrict_step.mp hstep
  have hgenerations := generationsOk hs.of_restrict
  have hstep := eventLoop_cases hstep
  have hgeneration := generation_or hstep key
  cases hstep with
  | publish | abortPublish | lease | move | deliver | skip | beginSweep | sweepNext
  | rollbackSweep | commitPublish | retry | replay | commitSweep =>
    exact hcount.of_history hgenerations rfl hgeneration
  | @enter owner lease =>
    simp only [Counted, EventState.entries, EventState.deferrals, spentDeliveries,
      List.countP_cons, decide_eq_true_eq, Bool.false_eq_true, if_false] at hcount ⊢
    split
    · rw [hcount, List.length_cons]
      omega
    · exact hcount
  | @finish _ owner lease row write events hlease hrow howned hfinish =>
    simp only [Counted, EventState.entries, EventState.deferrals] at hcount ⊢
    generalize hphase : s.workers owner = phase at *
    cases hfinish with
    | @deferred lease' entered =>
      obtain rfl := Option.some.inj hlease
      cases entered with
      | false => exact hcount
      | true =>
        by_cases hmine : lease'.key = key ∧ lease'.generation = s.generation key
        · -- The attempt that is given back is one of those spent.
          obtain ⟨rfl, hcurrent⟩ := hmine
          have hok := Ledger.ok_of_reachable
            ((budgetLoop_refines_ledger n lease'.key).reachable hs)
          have hmem : lease'.delivery.attempts ∈
              spentDeliveries lease'.key (s.generation lease'.key) s.history := by
            have hused := hok.used_iff owner ⟨lease'.delivery.attempts, true⟩ (by
              simp [EventState.ledger, hrow, hphase, DeliveryPhase.ticket, Lease.ticket,
                hcurrent])
            simpa [EventState.ledger, hrow] using hused
          have hpos := List.length_pos_of_mem hmem
          simp only [if_true, List.singleton_append, spentDeliveries, List.countP_cons, hcurrent,
            and_self, List.length_erase_of_mem hmem, hcount, decide_true]
          simp
          omega
        · simpa only [if_true, List.singleton_append, spentDeliveries, hmine, if_false,
            List.countP_cons, decide_false, Bool.false_eq_true, Nat.add_zero] using hcount
    | _ => exact hcount

/-- Over any run with a fixed budget the entries of a delivery that did not end in a deferral
stay within the budget and within its counter, which never goes negative. -/
theorem delivery_entries_le (hs : (budgetLoop n).Reachable s)
    (hrow : s.tables.deliveries.lookup key = some row) :
    s.deferrals key ≤ s.entries key ∧ s.entries key - s.deferrals key ≤ n ∧
      0 ≤ row.attempts ∧ ((s.entries key - s.deferrals key : ℕ) : ℤ) ≤ row.attempts := by
  have hok := Ledger.ok_of_reachable ((budgetLoop_refines_ledger n key).reachable hs)
  have hcount : s.entries key = _ := counted hs key
  obtain ⟨hissued, hlimit⟩ := hok.length_spent_le
  have hnonneg := hok.issued_nonneg
  simp only [EventState.ledger, hrow] at *
  omega

/-- A worker past the gate has a lease within the budget. -/
def DeliveryPhase.Gated (n : ℕ) : DeliveryPhase → Prop
  | .running lease _ | .failing lease _ _ => lease.delivery.attempts ≤ n
  | .idle | .leased _ | .alreadyProcessed _ => True

private theorem gated (hs : (budgetLoop n).Reachable s) :
    ∀ owner, (s.workers owner).Gated n := by
  refine Machine.Reachable.invariant (I := fun s => ∀ owner, (s.workers owner).Gated n) ?_
    (fun s a t hs hgated hstep => ?_) hs
  · rintro _ rfl owner
    exact trivial
  obtain ⟨hbudget, hstep⟩ := Machine.restrict_step.mp hstep
  have hupdate : ∀ {owner : Uuid} {phase : DeliveryPhase}, phase.Gated n →
      ∀ owner', (Function.update s.workers owner phase owner').Gated n := by
    intro owner phase hphase owner'
    by_cases howner : owner' = owner
    · subst howner
      rwa [Function.update_self]
    · rw [Function.update_of_ne howner]
      exact hgated owner'
  have hstep := eventLoop_cases hstep
  cases hstep with
  | publish | commitPublish | abortPublish | retry | skip | replay | beginSweep | sweepNext
  | commitSweep | rollbackSweep => exact hgated
  | lease | finish | deliver => exact hupdate trivial
  | enter _ hwithin =>
    refine hupdate ?_
    have hmax := of_decide_eq_true hbudget
    rwa [hmax] at hwithin
  | @move _ owner phase hmove =>
    refine hupdate ?_
    have hbefore := hgated owner
    generalize s.workers owner = before at hmove hbefore
    cases hmove with
    | gateMissed | found | returnMissed | markMissed | outcomeMissed | crash => exact trivial
    | missing hwithin | refused hwithin | unready hwithin =>
      have hmax := of_decide_eq_true hbudget
      rwa [hmax] at hwithin
    | conflict | raises => exact hbefore

/-- What holds of a delivery whose handlers only raise: it waits only while there is budget
left, and leaves the workers only with its budget handed out. -/
structure RaisingDelivery (n : ℕ) (row : DeliveryRow) : Prop where
  undelivered : row.state ≠ .delivered
  waits : row.state = .pending → row.attempts < n ∨ row.attempts = 0
  fails : row.state = .failed ∨ row.state = .skipped → (n : ℤ) ≤ row.attempts

private theorem RaisingDelivery.of_pending (hstate : row.state = .pending)
    (hleft : row.attempts < n ∨ row.attempts = 0) : RaisingDelivery n row :=
  ⟨by simp [hstate], fun _ => hleft, by simp [hstate]⟩

private theorem RaisingDelivery.of_leased (hstate : row.state = .leased) :
    RaisingDelivery n row :=
  ⟨by simp [hstate], by simp [hstate], by simp [hstate]⟩

private theorem RaisingDelivery.of_ended (hstate : row.state = .failed ∨ row.state = .skipped)
    (hspent : (n : ℤ) ≤ row.attempts) : RaisingDelivery n row := by
  rcases hstate with hstate | hstate <;>
    exact ⟨by simp [hstate], by simp [hstate], fun _ => hspent⟩

/-- The step lemma, where the step ends a lease of the delivery. -/
private theorem raisingDelivery_finish (hs : (budgetLoop n).Reachable s) {owner : Uuid}
    {lease : Lease} {write : DeliveryWrite} {events : List DeliveryEvent}
    (hnotFound : s.workers owner ≠ .alreadyProcessed lease)
    (hlease : (s.workers owner).lease? = some lease)
    (hrow : s.tables.deliveries.lookup lease.key = some row) (howned : row.isHeld owner = true)
    (hbudget : readsBudget n a = true) (hok : raisingDelivery lease.key s a = true)
    (hfinish : DeliveryFinish owner a (s.workers owner) write events) :
    RaisingDelivery n (write.set owner row) := by
  obtain ⟨hheld, -, -⟩ := deliveredOk hs.of_restrict
  obtain ⟨-, hdelivery, -⟩ := hheld owner lease row hlease hrow howned
  -- The lease that still stands is the last one handed out.
  have hlast : lease.delivery.attempts = row.attempts := by rw [hdelivery]; rfl
  have hgated := gated hs owner
  generalize hphase : s.workers owner = phase at *
  cases hfinish with
  | exhausted hspent =>
    obtain rfl := Option.some.inj hlease
    have hmax := of_decide_eq_true hbudget
    rw [hmax, hlast] at hspent
    exact .of_ended (.inl rfl) hspent.le
  | unknown hgate | deferUnknown hgate =>
    obtain rfl := Option.some.inj hlease
    simp [raisingDelivery, hphase, hgate] at hok
  | marked =>
    obtain rfl := Option.some.inj hlease
    exact absurd rfl hnotFound
  | missing =>
    obtain rfl := Option.some.inj hlease
    simp [raisingDelivery, hphase] at hok
  | deferred =>
    obtain rfl := Option.some.inj hlease
    have hwithin : row.attempts ≤ n := hlast ▸ hgated
    exact .of_pending rfl (.inl (Int.sub_one_lt_of_le hwithin))
  | failed hspent =>
    obtain rfl := Option.some.inj hlease
    have hmax := of_decide_eq_true hbudget
    rw [hmax, hlast] at hspent
    exact .of_ended (.inl rfl) hspent
  | requeued hleft =>
    obtain rfl := Option.some.inj hlease
    have hmax := of_decide_eq_true hbudget
    rw [hmax, hlast] at hleft
    exact .of_pending rfl (.inl hleft)

/-- Every delivery whose handlers only raise is such a one, and no worker found its event
processed. -/
private theorem raisingDelivery_all (hs : (raisingDeliveries n key).Reachable s) :
    (∀ row, s.tables.deliveries.lookup key = some row → RaisingDelivery n row) ∧
      ∀ owner lease, s.workers owner = .alreadyProcessed lease → lease.key ≠ key := by
  refine Machine.Reachable.invariant
    (I := fun s => (∀ row, s.tables.deliveries.lookup key = some row → RaisingDelivery n row) ∧
      ∀ owner lease, s.workers owner = .alreadyProcessed lease → lease.key ≠ key)
    ?_ (fun s a t hs hraising hstep => ?_) hs
  · rintro _ rfl
    exact ⟨by simp [emptyEvents], by simp [emptyEvents]⟩
  obtain ⟨hrows, hnotFound⟩ := hraising
  obtain ⟨hok, hstep⟩ := Machine.restrict_step.mp hstep
  obtain ⟨hbudget, hstep⟩ := Machine.restrict_step.mp hstep
  have hreach := hs.of_restrict.of_restrict
  have htables := tablesOk hreach
  obtain ⟨-, hledger, -⟩ := deliveredOk hreach
  have hstep := eventLoop_cases hstep
  -- A write of one row leaves the others.
  have hinsert : ∀ {key' : DeliveryKey} {row' : DeliveryRow},
      (key' = key → RaisingDelivery n row') → ∀ row,
        (s.tables.deliveries.insert key' row').lookup key = some row → RaisingDelivery n row := by
    intro key' row' hnew row hrow
    rw [Table.lookup_insert] at hrow
    split at hrow
    case isTrue hkey =>
      obtain rfl := Option.some.inj hrow
      exact hnew hkey.symm
    case isFalse => exact hrows row hrow
  have hworkers : ∀ {owner : Uuid} {phase : DeliveryPhase},
      (∀ lease, phase = .alreadyProcessed lease → lease.key ≠ key) → ∀ owner' lease,
        Function.update s.workers owner phase owner' = .alreadyProcessed lease →
          lease.key ≠ key := by
    intro owner phase hphase owner' lease hfound
    by_cases howner : owner' = owner
    · subst howner
      rw [Function.update_self] at hfound
      exact hphase lease hfound
    · rw [Function.update_of_ne howner] at hfound
      exact hnotFound owner' lease hfound
  cases hstep with
  | publish | abortPublish | beginSweep | sweepNext | rollbackSweep => exact ⟨hrows, hnotFound⟩
  | @commitPublish id publication hpublication =>
    refine ⟨fun row hrow => ?_, hnotFound⟩
    rw [EventTables.commit, Table.lookup_insertMissing, Option.or_eq_some_iff] at hrow
    rcases hrow with hrow | ⟨-, hnew⟩
    · exact hrows row hrow
    · obtain ⟨-, now, rfl⟩ := htables.fanOut id publication hpublication key row hnew
      exact .of_pending rfl (.inr rfl)
  | lease => exact ⟨hinsert fun _ => .of_leased rfl, hworkers (by simp)⟩
  | enter => exact ⟨hrows, hworkers (by simp)⟩
  | @move _ owner phase hmove =>
    refine ⟨hrows, hworkers ?_⟩
    rintro lease rfl
    generalize s.workers owner = before at hmove
    cases hmove with
    | found hprocessed =>
      rintro rfl
      obtain ⟨row, hrow, hdelivered⟩ := (hledger lease.key).mp hprocessed
      exact (hrows row hrow).undelivered hdelivered
  | @finish _ owner lease row write events hlease hrow howned hfinish =>
    refine ⟨hinsert ?_, hworkers (by simp)⟩
    rintro rfl
    exact raisingDelivery_finish hs.of_restrict (fun hfound => hnotFound owner lease hfound rfl)
      hlease hrow howned hbudget hok hfinish
  | @deliver owner lease round now conflict row hphase =>
    refine ⟨hinsert fun hkey => ?_, hworkers (by simp)⟩
    simp [raisingDelivery, hphase, DeliveryPhase.lease?, hkey] at hok
  | retry => exact ⟨hinsert fun _ => .of_pending rfl (.inr rfl), hnotFound⟩
  | @skip caller key' now note row hrow hfailed =>
    refine ⟨hinsert ?_, hnotFound⟩
    rintro rfl
    exact .of_ended (.inr rfl) ((hrows row hrow).fails (.inl hfailed))
  | @replay caller consumers consumerId fromPosition now replayed _ hreplayed =>
    refine ⟨fun row hrow => ?_, hnotFound⟩
    obtain ⟨-, -, htables⟩ := replayHandler_eq_ok hreplayed
    rw [EventState.replay, htables] at hrow
    cases hold : s.tables.deliveries.lookup key with
    | none =>
      rw [EventTables.lookup_replayDeliveries_missing hold] at hrow
      obtain ⟨-, hrow⟩ := Option.ite_none_right_eq_some.mp hrow
      obtain ⟨event, -, rfl⟩ := Option.map_eq_some_iff.mp hrow
      exact .of_pending rfl (.inr rfl)
    | some old =>
      rw [EventTables.lookup_replayDeliveries hold] at hrow
      obtain rfl := Option.some.inj hrow
      split
      · exact .of_pending rfl (.inr rfl)
      · exact hrows old hold
  | commitSweep hsweep hfinished =>
    refine ⟨fun row hrow => hrows row ?_, hnotFound⟩
    exact (((htables.sweep _ hsweep).lookup_commit_deliveries hfinished key row).mp hrow).1

/-- Where a delivery's handlers only raise, no attempt of it is lost. -/
theorem raisingDeliveries_refines_ledger (n : ℕ) (key : DeliveryKey) :
    (raisingDeliveries n key).Refines (Ledger.machine Uuid true) (fun s => s.ledger n key) := by
  refine ⟨?_, fun s a t hs hstep => ?_⟩
  · rintro _ rfl
    rfl
  · obtain ⟨hok, hstep⟩ := Machine.restrict_step.mp hstep
    obtain ⟨hbudget, hstep⟩ := Machine.restrict_step.mp hstep
    have hreach := hs.of_restrict.of_restrict
    obtain ⟨hheld, hledger, -⟩ := deliveredOk hreach
    exact DeliveryBudget.ledger_step (tablesOk hreach) hheld hledger (generationsOk hreach)
      (eventLoop_cases hstep) hbudget
      fun _ => ⟨hok, fun row hrow => ((raisingDelivery_all hs).1 row hrow).undelivered⟩

/-- A worker holds a lease of the delivery's current generation that is within the budget and
whose handler it has not entered yet. -/
def EventState.AwaitsEntry (n : ℕ) (s : EventState) (key : DeliveryKey) : Prop :=
  ∃ owner, ∃ number ≤ (n : ℤ),
    (s.workers owner).ticket key (s.generation key) = some ⟨number, false⟩

/-- A delivery whose handlers only raise leaves the workers only `failed`, and from there a
person may skip it. By then its budget is handed out, and once no worker stands between a lease
within the budget and its handler, the handler was entered exactly as often as the budget says,
deferrals apart. A delivery that has used its budget is not pending again. -/
theorem delivery_raising (hs : (raisingDeliveries n key).Reachable s)
    (hrow : s.tables.deliveries.lookup key = some row) :
    row.state ≠ .delivered ∧
      (row.state = .failed ∨ row.state = .skipped → ¬s.AwaitsEntry n key →
        s.entries key - s.deferrals key = n) ∧
      (0 < n → s.entries key - s.deferrals key = n →
        row.state = .leased ∨ row.state = .failed ∨ row.state = .skipped) := by
  obtain ⟨hundelivered, hwaits, hfails⟩ := (raisingDelivery_all hs).1 row hrow
  have hreach := (raisingDeliveries_refines_ledger n key).reachable hs
  have hcount : s.entries key = _ := counted hs.of_restrict key
  have hentries := delivery_entries_le hs.of_restrict hrow
  refine ⟨hundelivered, fun hended hnone => ?_, fun hpositive hspent => ?_⟩
  · have hlimit : (s.ledger n key).limit = n := by simp only [EventState.ledger, hrow]
    have hissued : (s.ledger n key).issued = row.attempts := by
      simp only [EventState.ledger, hrow]
    have hlength := (Ledger.ok_of_reachable hreach).length_spent_eq
      (Ledger.covered_of_reachable hreach) (by rw [hlimit, hissued]; exact hfails hended)
      (fun owner number hticket => by
        rw [hlimit]
        by_contra hwithin
        refine hnone ⟨owner, number, not_lt.mp hwithin, ?_⟩
        simpa only [EventState.ledger, hrow, Function.comp_apply] using hticket)
    have hspent : (s.ledger n key).spent = spentDeliveries key (s.generation key) s.history := by
      simp only [EventState.ledger, hrow]
    rw [hlimit, hspent] at hlength
    omega
  · cases hstate : row.state
    case leased => exact .inl rfl
    case failed => exact .inr (.inl rfl)
    case skipped => exact .inr (.inr rfl)
    case delivered => exact absurd hstate hundelivered
    case pending =>
      have := hwaits hstate
      omega

end Budget

/-- The retry budget, over any run. The entries of a job or of a delivery that did not end in a
deferral stay within its budget, and within its counter, which never goes negative; a
delivery's are those under leases taken since its row was made or last started over. Where the
handlers only raise, the work ends only `failed` (or is then skipped by a person), entered as
often as the budget says once no worker stands between a lease within the budget and its
handler; and work that was entered so often does not wait for a worker again. -/
theorem retry_budget :
    (∀ kinds s, (jobLoop kinds).Reachable s → ∀ id row, s.jobs.lookup id = some row →
      row.kind ≠ externalActionExecute →
      s.deferrals id ≤ s.entries id ∧ s.entries id - s.deferrals id ≤ row.maxAttempts ∧
        0 ≤ row.attempts ∧ ((s.entries id - s.deferrals id : ℕ) : ℤ) ≤ row.attempts) ∧
    (∀ kinds id s, (raisingLoop kinds id).Reachable s → ∀ row, s.jobs.lookup id = some row →
      row.kind ≠ externalActionExecute →
      (row.state.isTerminal = true → row.state = .failed) ∧
        (row.state = .failed → ¬s.AwaitsEntry id →
          s.entries id - s.deferrals id = row.maxAttempts) ∧
        (0 < row.maxAttempts → s.entries id - s.deferrals id = row.maxAttempts →
          row.state = .leased ∨ row.state = .failed)) ∧
    (∀ n s, (budgetLoop n).Reachable s → ∀ key row, s.tables.deliveries.lookup key = some row →
      s.deferrals key ≤ s.entries key ∧ s.entries key - s.deferrals key ≤ n ∧
        0 ≤ row.attempts ∧ ((s.entries key - s.deferrals key : ℕ) : ℤ) ≤ row.attempts) ∧
    ∀ n key s, (raisingDeliveries n key).Reachable s → ∀ row,
      s.tables.deliveries.lookup key = some row →
      row.state ≠ .delivered ∧
        (row.state = .failed ∨ row.state = .skipped → ¬s.AwaitsEntry n key →
          s.entries key - s.deferrals key = n) ∧
        (0 < n → s.entries key - s.deferrals key = n →
          row.state = .leased ∨ row.state = .failed ∨ row.state = .skipped) :=
  ⟨fun _ _ hs _ _ hrow hkind => job_entries_le hs hrow hkind,
    fun _ _ _ hs _ hrow hkind => job_raising hs hrow hkind,
    fun _ _ hs _ _ hrow => delivery_entries_le hs hrow,
    fun _ _ _ hs _ hrow => delivery_raising hs hrow⟩

/-- One delivery that is entered and raises under a budget of one. -/
def raisedRun : List EventAction :=
  [.publish indexRegistry ["crm"] 1 "crm.contact.created" "crm:contact:7" 10, .commitPublish 1,
    .lease 5 (1, "crm.index") 10, .visit 5 indexRegistry 1 10 10 none true,
    .handlerRaises 5 (some "boom"), .writeFailure 5 1 11 none]

/-- The state `raisedRun` ends in. -/
def afterRaise : EventState := (eventLoop.run emptyEvents raisedRun).getD emptyEvents

/-- A delivery that raised and a job that returned are within their budgets. -/
theorem retry_budget_afterRaise :
    afterRaise.entries (1, "crm.index") = 1 ∧
      afterRaise.entries (1, "crm.index") - afterRaise.deferrals (1, "crm.index") = 1 ∧
      ∃ s : LoopState, (jobLoop acceptingKinds).run ⟨∅, ∅, fun _ => .idle, []⟩ returningRun =
        some s ∧ s.entries 1 - s.deferrals 1 ≤ 3 := by
  have hrun : (raisingDeliveries 1 (1, "crm.index")).run emptyEvents raisedRun =
      some afterRaise := rfl
  have hidle : ¬afterRaise.AwaitsEntry 1 (1, "crm.index") := by
    rintro ⟨owner, number, -, hticket⟩
    have hworkers : afterRaise.workers owner = Function.update (Function.update (Function.update
        (Function.update (fun _ => DeliveryPhase.idle) 5 _) 5 _) 5 _) 5 .idle owner := rfl
    simp only [Function.update_idem, Function.update_eq_self_iff.mpr] at hworkers
    simp [hworkers, DeliveryPhase.ticket] at hticket
  have hjob : (jobLoop acceptingKinds).run ⟨∅, ∅, fun _ => .idle, []⟩ returningRun = some _ := rfl
  exact ⟨rfl, (retry_budget.2.2.2 1 (1, "crm.index") _ (Machine.reachable_of_run rfl hrun) _
      rfl).2.1 (.inl rfl) hidle, _, hjob,
    (retry_budget.1 _ _ (Machine.reachable_of_run rfl hjob) 1 _ rfl (by decide)).2.1⟩

/-- A lease that outlives a person's retry: its worker enters the handler after the retry, and
so does the one that leases the row afresh. -/
def retriedRun : List EventAction :=
  [.publish indexRegistry ["crm"] 1 "crm.contact.created" "crm:contact:7" 10, .commitPublish 1,
    .lease 5 (1, "crm.index") 10, .lease 6 (1, "crm.index") (seconds 61),
    .visit 6 indexRegistry 1 (seconds 61) (seconds 61) none true]

/-- What follows the retry of `retriedRun`. -/
def lateRun : List EventAction :=
  [.visit 5 indexRegistry 1 (seconds 63) (seconds 63) none true,
    .lease 6 (1, "crm.index") (seconds 64),
    .visit 6 indexRegistry 1 (seconds 64) (seconds 64) none true]

/-- The entries of a delivery's handler that did not end in a deferral, under any lease. -/
def DeliveryEvent.net (key : DeliveryKey) (history : List DeliveryEvent) : ℤ :=
  history.countP (fun | .entered key' _ _ => key' = key | .deferred _ _ _ => false) -
    history.countP fun | .entered _ _ _ => false | .deferred key' _ _ => key' = key

/-- Counted over all leases, the entries since a retry can exceed the budget. -/
theorem late_entry_over_budget : ¬∀ n s t u key caller now as, (budgetLoop n).Reachable s →
    (budgetLoop n).step s (.retry caller key now) = some t → (budgetLoop n).run t as = some u →
    (∀ a ∈ as, (∀ caller' now', a ≠ .retry caller' key now') ∧
      ∀ caller' consumers from' now', a ≠ .replay caller' consumers key.2 from' now') →
    DeliveryEvent.net key u.history - DeliveryEvent.net key t.history ≤ n := by
  intro h
  have hrun : (budgetLoop 1).run emptyEvents retriedRun = some _ := rfl
  have hlate := h 1 _ _ _ (1, "crm.index") ⟨false, none, ["crm"]⟩ (seconds 62) lateRun
    (Machine.reachable_of_run rfl hrun) rfl rfl (by simp [lateRun])
  revert hlate
  decide

end Rheostream
