import Rheostream.Events.ExactlyOnce
import Rheostream.Foundation.Ledger

/-!
# The ledger of a delivery

With `work.max_attempts` held fixed, a delivery's row, the leases workers have in hand and the
history of its entries form the ledger that a job's do. A retry, or a replay that puts the row
back, starts the ledger over: the leases taken before it are void, although a worker that still
has one in hand may enter the handler under it.
-/

namespace Rheostream

/-- Whose lease a delivery is under. -/
def DeliveryRow.holder (row : DeliveryRow) : Option Uuid :=
  if row.state = .leased then row.leaseOwner else none

/-- The attempt a lease in hand stands for, if it was taken since the row last started over. -/
def Lease.ticket (key : DeliveryKey) (generation : ℕ) (used : Bool) (lease : Lease) :
    Option Ticket :=
  if lease.key = key ∧ lease.generation = generation then some ⟨lease.delivery.attempts, used⟩
  else none

/-- The attempt a worker has in hand, used once its handler was entered. -/
def DeliveryPhase.ticket (key : DeliveryKey) (generation : ℕ) : DeliveryPhase → Option Ticket
  | .idle | .alreadyProcessed _ => none
  | .leased lease => lease.ticket key generation false
  | .running lease _ => lease.ticket key generation true
  | .failing lease _ entered => lease.ticket key generation entered

/-- The attempts of the entries, under leases of one generation, that did not end in a
deferral. -/
def spentDeliveries (key : DeliveryKey) (generation : ℕ) : List DeliveryEvent → List ℤ
  | [] => []
  | .entered key' generation' attempt :: history =>
    if key' = key ∧ generation' = generation then
      attempt :: spentDeliveries key generation history
    else spentDeliveries key generation history
  | .deferred key' generation' attempt :: history =>
    if key' = key ∧ generation' = generation then
      (spentDeliveries key generation history).erase attempt
    else spentDeliveries key generation history

/-- The generation a record of the history is of, if it is of the row. -/
def DeliveryEvent.generation? (key : DeliveryKey) : DeliveryEvent → Option ℕ
  | .entered key' generation _ | .deferred key' generation _ =>
    if key' = key then some generation else none

namespace EventState

/-- How often the handler of a row was entered under a lease of its current generation. -/
def entries (s : EventState) (key : DeliveryKey) : ℕ :=
  s.history.countP fun
    | .entered key' generation _ => key' = key ∧ generation = s.generation key
    | .deferred _ _ _ => false

/-- How many of these entries ended in a deferral of an unready module. -/
def deferrals (s : EventState) (key : DeliveryKey) : ℕ :=
  s.history.countP fun
    | .entered _ _ _ => false
    | .deferred key' generation _ => key' = key ∧ generation = s.generation key

/-- The ledger of one delivery, under a budget of `n`. -/
def ledger (n : ℕ) (s : EventState) (key : DeliveryKey) : Ledger Uuid :=
  match s.tables.deliveries.lookup key with
  | none => .empty
  | some row =>
    { issued := row.attempts
      limit := n
      holder := row.holder
      tickets := DeliveryPhase.ticket key (s.generation key) ∘ s.workers
      spent := spentDeliveries key (s.generation key) s.history }

end EventState

/-- The setting reads `n` wherever an action reads it. -/
def readsBudget (n : ℕ) : EventAction → Bool
  | .visit _ _ maxAttempts _ _ _ _ | .writeFailure _ maxAttempts _ _ => maxAttempts = n
  | _ => true

/-- The event system with `work.max_attempts` held at `n`. -/
def budgetLoop (n : ℕ) : Machine EventState EventAction :=
  eventLoop.restrict fun _ a => readsBudget n a = true

/-- What keeps a delivery's run to raising handlers: no worker that has it in hand dies or has
its handler return, its consumer is known and its context granted, and a worker that did not
reach the handler found the module unready and its own lease standing. -/
def raisingDelivery (key : DeliveryKey) (s : EventState) : EventAction → Bool
  | .crash owner | .handlerReturns owner _ _ =>
    (s.workers owner).lease?.all fun lease => lease.key ≠ key
  | .visit owner registry maxAttempts _ _ context _ =>
    match s.workers owner with
    | .leased lease => lease.key ≠ key || (context.isNone &&
      match runLeasedDelivery registry lease.delivery maxAttempts with
      | .run | .exhausted => true
      | .unknown _ => false)
    | _ => true
  | .writeFailure owner _ _ _ =>
    match s.workers owner with
    | .failing lease .notReady false =>
      lease.key ≠ key || (s.tables.deliveries.lookup key).any (DeliveryRow.isHeld owner)
    | .failing lease .missing _ | .failing lease (.raised _) false => lease.key ≠ key
    | _ => true
  | _ => true

/-- The event system with a fixed budget in which one delivery's handlers only raise. -/
def raisingDeliveries (n : ℕ) (key : DeliveryKey) : Machine EventState EventAction :=
  (budgetLoop n).restrict fun s a => raisingDelivery key s a = true

/-- No lease in hand and no record of the history is of a generation to come. -/
structure GenerationsOk (s : EventState) : Prop where
  lease : ∀ owner lease, (s.workers owner).lease? = some lease →
    lease.generation ≤ s.generation lease.key
  history : ∀ event ∈ s.history, ∀ key generation, event.generation? key = some generation →
    generation ≤ s.generation key

namespace DeliveryBudget

variable {s t : EventState} {a : EventAction} {key : DeliveryKey} {n : ℕ} {strict : Bool}

variable {generation : ℕ} {lease : Lease}

@[simp] theorem ticket_other {used : Bool} (h : lease.key ≠ key) :
    lease.ticket key generation used = none := by
  simp [Lease.ticket, h]

variable {phase : DeliveryPhase}

/-- A worker with another row in hand has nothing of this one. -/
theorem phase_ticket_other (h : ∀ lease, phase.lease? = some lease → lease.key ≠ key) :
    phase.ticket key generation = none := by
  cases phase with
  | idle | alreadyProcessed => rfl
  | leased lease | running lease | failing lease => exact ticket_other (h lease rfl)

/-- A worker's ticket is of the lease it has in hand. -/
theorem lease?_of_ticket {ticket : Ticket} (h : phase.ticket key generation = some ticket) :
    ∃ lease, phase.lease? = some lease ∧ lease.key = key ∧ lease.generation = generation ∧
      ticket.number = lease.delivery.attempts := by
  have hlease : ∀ {lease : Lease} {used : Bool}, lease.ticket key generation used = some ticket →
      lease.key = key ∧ lease.generation = generation ∧
        ticket.number = lease.delivery.attempts := fun h => by
    simp only [Lease.ticket, Option.ite_none_right_eq_some, Option.some.injEq] at h
    obtain ⟨⟨hkey, hgeneration⟩, rfl⟩ := h
    exact ⟨hkey, hgeneration, rfl⟩
  cases phase with
  | idle | alreadyProcessed => cases h
  | leased lease | running lease | failing lease => exact ⟨lease, rfl, hlease h⟩

variable {owner : Uuid}

theorem tickets_update :
    DeliveryPhase.ticket key generation ∘ Function.update s.workers owner phase =
      Function.update (DeliveryPhase.ticket key generation ∘ s.workers) owner
        (phase.ticket key generation) :=
  Function.comp_update _ _ _ _

/-- A worker that moves between phases with one ticket leaves every ticket as it was. -/
theorem tickets_same (h : phase.ticket key generation = (s.workers owner).ticket key generation) :
    DeliveryPhase.ticket key generation ∘ Function.update s.workers owner phase =
      DeliveryPhase.ticket key generation ∘ s.workers := by
  rw [tickets_update, h]
  exact Function.update_eq_self _ _

/-- Nothing of a generation to come has been spent. -/
theorem spent_eq_nil {history : List DeliveryEvent}
    (h : ∀ event ∈ history, ∀ generation', event.generation? key = some generation' →
      generation' < generation)
    : spentDeliveries key generation history = [] := by
  induction history with
  | nil => rfl
  | cons event history ih =>
    have hrest := ih fun event' hmem => h event' (List.mem_cons_of_mem _ hmem)
    have hfirst := h event List.mem_cons_self
    have hother : ∀ {key' : DeliveryKey} {generation' : ℕ},
        (key' = key → generation' < generation) →
        ¬(key' = key ∧ generation' = generation) := by
      rintro key' generation' hlt ⟨rfl, rfl⟩
      exact absurd (hlt rfl) (lt_irrefl _)
    cases event with
    | entered key' generation' attempt | deferred key' generation' attempt =>
      have hlt : key' = key → generation' < generation := fun hkey =>
        hfirst generation' (by simp [DeliveryEvent.generation?, hkey])
      simp [spentDeliveries, hother hlt, hrest]

/-- The ledger of a row depends on the row, its generation, the workers and the history. -/
theorem ledger_same (hrow : t.tables.deliveries.lookup key = s.tables.deliveries.lookup key)
    (hgeneration : t.generation key = s.generation key)
    (hworkers : DeliveryPhase.ticket key (s.generation key) ∘ t.workers =
      DeliveryPhase.ticket key (s.generation key) ∘ s.workers)
    (hspent : spentDeliveries key (s.generation key) t.history =
      spentDeliveries key (s.generation key) s.history) : t.ledger n key = s.ledger n key := by
  unfold EventState.ledger
  rw [hrow, hgeneration, hworkers, hspent]

variable {row : DeliveryRow}

/-- A row that starts over, or is made, has an empty ledger with its limit. -/
theorem ledger_fresh (hok : GenerationsOk s) (hrow : t.tables.deliveries.lookup key = some row)
    (hattempts : row.attempts = 0) (hholder : row.holder = none)
    (hgeneration : t.generation key = s.generation key + 1) (hworkers : t.workers = s.workers)
    (hhistory : t.history = s.history) :
    t.ledger n key = { (Ledger.empty : Ledger Uuid) with limit := n } := by
  have htickets : DeliveryPhase.ticket key (s.generation key + 1) ∘ s.workers = fun _ => none := by
    funext owner
    simp only [Function.comp_apply]
    cases hticket : (s.workers owner).ticket key (s.generation key + 1) with
    | none => rfl
    | some ticket =>
      obtain ⟨lease, hlease, rfl, hat, -⟩ := lease?_of_ticket hticket
      have hle := hok.lease owner lease hlease
      omega
  have hspent : spentDeliveries key (s.generation key + 1) s.history = [] := by
    refine spent_eq_nil fun event hevent generation hat => ?_
    have hle := hok.history event hevent key generation hat
    omega
  simp only [EventState.ledger, hrow, hgeneration, hworkers, hhistory, htickets, hspent, hattempts,
    hholder, Ledger.empty]

/-- A move keeps a worker's ticket or gives it up. -/
private theorem move_ticket {tables : EventTables} {p q : DeliveryPhase}
    (h : DeliveryMove tables owner a p q) :
    q.ticket key generation = p.ticket key generation ∨ q.ticket key generation = none := by
  cases h with
  | missing | refused | unready | conflict | raises => exact .inl rfl
  | gateMissed | found | returnMissed | markMissed | outcomeMissed | crash => exact .inr rfl

/-- Where only raising handlers are run, a move gives up no attempt that could be used. -/
private theorem move_keeps (hledger : LedgerOk s) {q : DeliveryPhase} {number : ℤ}
    (h : DeliveryMove s.tables owner a (s.workers owner) q) (hbudget : readsBudget n a = true)
    (hraising : raisingDelivery key s a = true) (hrow : s.tables.deliveries.lookup key = some row)
    (hstate : row.state ≠ .delivered)
    (hticket : (s.workers owner).ticket key generation = some ⟨number, false⟩)
    (hgone : q.ticket key generation = none) : (n : ℤ) < number := by
  obtain ⟨lease, hlease, hkey, -, hnumber⟩ := lease?_of_ticket hticket
  have hnumber : number = lease.delivery.attempts := hnumber
  generalize hphase : s.workers owner = phase at *
  cases h with
  | gateMissed hgate hspent =>
    obtain rfl := Option.some.inj hlease
    have hmax := of_decide_eq_true hbudget
    simp only [raisingDelivery, hphase, hkey, ne_eq, not_true_eq_false, decide_false,
      Bool.false_or, Bool.and_eq_true] at hraising
    rw [← hmax, hnumber]
    refine hspent ?_
    have hknown := hraising.2
    split at hknown
    · exact absurd ‹_› hgate
    · assumption
    · cases hknown
  | found hprocessed =>
    obtain rfl := Option.some.inj hlease
    obtain ⟨row', hrow', hdelivered⟩ := (hledger _).mp hprocessed
    rw [hkey] at hrow'
    obtain rfl := Option.some.inj (hrow.symm.trans hrow')
    exact absurd hdelivered hstate
  | missing | refused | unready | conflict | raises =>
    exact absurd (hgone.symm.trans hticket) (by simp)
  | returnMissed => simp [DeliveryPhase.ticket, Lease.ticket] at hticket
  | markMissed => cases hticket
  | @outcomeMissed lease' failure entered _ _ _ hmissed =>
    obtain rfl := Option.some.inj hlease
    have hentered : entered = false := by
      simp only [DeliveryPhase.ticket, Lease.ticket, Option.ite_none_right_eq_some,
        Option.some.injEq, Ticket.mk.injEq] at hticket
      exact hticket.2.2
    subst hentered
    cases failure with
    | notReady =>
      simp only [raisingDelivery, hphase, hkey, hrow] at hraising
      rw [hkey] at hmissed
      simp [hmissed row hrow] at hraising
    | missing | raised => simp [raisingDelivery, hphase, hkey] at hraising
  | crash => simp [raisingDelivery, hphase, hlease, hkey] at hraising

variable {events : List DeliveryEvent} {write : DeliveryWrite}

/-- A finish gives its attempt back by a deferral, or keeps the counter. Either way the
history spends what the ledger does. -/
private theorem finish_deferral (row : DeliveryRow)
    (hfinish : DeliveryFinish owner a phase write events) (hlease : phase.lease? = some lease)
    (history : List DeliveryEvent) :
    (∃ next used, write = .deferUnreadyDelivery next ∧
        phase.ticket lease.key lease.generation = some ⟨lease.delivery.attempts, used⟩ ∧
        spentDeliveries lease.key lease.generation (events ++ history) =
          if used then
            (spentDeliveries lease.key lease.generation history).erase lease.delivery.attempts
          else spentDeliveries lease.key lease.generation history) ∨
      ((write.set owner row).attempts = row.attempts ∧ events = []) := by
  cases hfinish with
  | exhausted | unknown | marked | missing | failed | requeued => exact .inr ⟨rfl, rfl⟩
  | deferUnknown =>
    obtain rfl := Option.some.inj hlease
    exact .inl ⟨_, false, rfl, by simp [DeliveryPhase.ticket, Lease.ticket], rfl⟩
  | @deferred _ entered =>
    obtain rfl := Option.some.inj hlease
    refine .inl ⟨_, entered, rfl, by simp [DeliveryPhase.ticket, Lease.ticket], ?_⟩
    cases entered <;> simp [spentDeliveries]

/-- What a finish records is of its own lease. -/
private theorem finish_spent_other (hfinish : DeliveryFinish owner a phase write events)
    (hlease : phase.lease? = some lease) (hkey : lease.key ≠ key) (history : List DeliveryEvent) :
    spentDeliveries key generation (events ++ history) =
      spentDeliveries key generation history := by
  cases hfinish with
  | @deferred _ entered =>
    obtain rfl := Option.some.inj hlease
    cases entered <;> simp [spentDeliveries, hkey]
  | _ => rfl

/-- Where only raising handlers are run, a finish gives up no attempt that could be used. -/
private theorem finish_keeps {number : ℤ}
    (h : DeliveryFinish owner a (s.workers owner) write events) (hbudget : readsBudget n a = true)
    (hraising : raisingDelivery lease.key s a = true)
    (hlease : (s.workers owner).lease? = some lease)
    (hticket : (s.workers owner).ticket lease.key generation = some ⟨number, false⟩)
    (hwrite : ∀ next, write ≠ .deferUnreadyDelivery next) : (n : ℤ) < number := by
  have hunused : ∀ {used : Bool}, lease.ticket lease.key generation used = some ⟨number, false⟩ →
      used = false ∧ lease.delivery.attempts = number := fun h => by
    simp only [Lease.ticket, Option.ite_none_right_eq_some, Option.some.injEq,
      Ticket.mk.injEq] at h
    exact ⟨h.2.2, h.2.1⟩
  generalize hphase : s.workers owner = phase at *
  cases h with
  | exhausted hspent =>
    obtain rfl := Option.some.inj hlease
    have hmax := of_decide_eq_true hbudget
    obtain ⟨-, rfl⟩ := hunused hticket
    rwa [← hmax]
  | unknown hgate =>
    obtain rfl := Option.some.inj hlease
    simp [raisingDelivery, hphase, hgate] at hraising
  | deferUnknown | deferred => exact absurd rfl (hwrite _)
  | marked => cases hticket
  | missing =>
    obtain rfl := Option.some.inj hlease
    simp [raisingDelivery, hphase] at hraising
  | failed | requeued =>
    obtain rfl := Option.some.inj hlease
    obtain ⟨rfl, -⟩ := hunused hticket
    simp [raisingDelivery, hphase] at hraising

variable {row' : DeliveryRow}

/-- Giving up what a worker has in hand is a drop, also where the row is let go with it. -/
private theorem ledger_release (hrow : s.tables.deliveries.lookup key = some row)
    (hrow' : t.tables.deliveries.lookup key = some row') (hattempts : row'.attempts = row.attempts)
    (hgeneration : t.generation key = s.generation key)
    (hworkers : t.workers = Function.update s.workers owner phase)
    (hgone : phase.ticket key (s.generation key) = none)
    (hspent : spentDeliveries key (s.generation key) t.history =
      spentDeliveries key (s.generation key) s.history)
    :
    t.ledger n key = { s.ledger n key with
      holder := row'.holder
      tickets := Function.update (s.ledger n key).tickets owner none } := by
  simp only [EventState.ledger, hrow, hrow', hgeneration, hworkers, hattempts, hspent,
    tickets_update, hgone]

/-- A step stays in a row's generation, or begins its next one. -/
theorem generation_or (hstep : EventStep s a t) (key : DeliveryKey) :
    t.generation key = s.generation key ∨ t.generation key = s.generation key + 1 := by
  cases hstep with
  | commitPublish | retry | commitSweep | replay =>
    simp only [EventState.replay, bump]
    split <;> omega
  | _ => exact .inl rfl

theorem generations_step (h : GenerationsOk s) (hstep : EventStep s a t) : GenerationsOk t := by
  have hle : ∀ key, s.generation key ≤ t.generation key := fun key => by
    rcases generation_or hstep key with hsame | hnext <;> omega
  have hold : ∀ owner lease, (s.workers owner).lease? = some lease →
      lease.generation ≤ t.generation lease.key := fun owner lease hlease =>
    (h.lease owner lease hlease).trans (hle lease.key)
  have hhistory : ∀ event ∈ s.history, ∀ key generation, event.generation? key = some generation →
      generation ≤ t.generation key := fun event hevent key generation hat =>
    (h.history event hevent key generation hat).trans (hle key)
  -- A record of a lease in hand is of no later generation than the lease.
  have hrecord : ∀ {owner : Uuid} {lease : Lease}, (s.workers owner).lease? = some lease →
      ∀ key generation, (if lease.key = key then some lease.generation else none) =
        some generation → generation ≤ t.generation key := by
    intro owner lease hlease key generation hat
    obtain ⟨rfl, hgeneration⟩ := Option.ite_none_right_eq_some.mp hat
    rw [← Option.some.inj hgeneration]
    exact hold owner lease hlease
  have hworkers : ∀ {owner : Uuid} {phase : DeliveryPhase},
      (∀ lease, phase.lease? = some lease → lease.generation ≤ t.generation lease.key) →
      ∀ owner' lease, (Function.update s.workers owner phase owner').lease? = some lease →
        lease.generation ≤ t.generation lease.key := by
    intro owner phase hphase owner' lease hlease
    by_cases howner : owner' = owner
    · subst howner
      rw [Function.update_self] at hlease
      exact hphase lease hlease
    · rw [Function.update_of_ne howner] at hlease
      exact hold owner' lease hlease
  cases hstep with
  | publish | commitPublish | abortPublish | retry | skip | replay | beginSweep | sweepNext
  | commitSweep | rollbackSweep => exact ⟨hold, hhistory⟩
  | lease =>
    refine ⟨hworkers fun lease hlease => ?_, hhistory⟩
    obtain rfl := Option.some.inj hlease
    exact le_rfl
  | @enter owner lease _ _ _ _ _ hphase =>
    have hlease : (s.workers owner).lease? = some lease := by rw [hphase]; rfl
    refine ⟨hworkers fun lease' hlease' => ?_, fun event hevent => ?_⟩
    · obtain rfl := Option.some.inj hlease'
      exact hold owner lease hlease
    · rcases List.mem_cons.mp hevent with rfl | hevent
      · exact hrecord hlease
      · exact hhistory event hevent
  | @move _ owner phase hmove =>
    refine ⟨hworkers fun lease hlease => hold owner lease ?_, hhistory⟩
    generalize s.workers owner = before at hmove
    cases hmove with
    | gateMissed | returnMissed | markMissed | outcomeMissed | crash => cases hlease
    | found | missing | refused | unready | conflict | raises => exact hlease
  | @finish _ owner lease row write events hlease _ _ hfinish =>
    refine ⟨hworkers fun _ h => (nomatch h), fun event hevent => ?_⟩
    rcases List.mem_append.mp hevent with hevent' | hevent'
    · clear hevent
      generalize hphase : s.workers owner = phase at hlease hfinish
      have hlease' : (s.workers owner).lease? = some lease := hphase ▸ hlease
      cases hfinish with
      | @deferred _ entered =>
        obtain rfl := Option.some.inj hlease
        cases entered with
        | false => cases hevent'
        | true =>
          obtain rfl := List.mem_singleton.mp hevent'
          exact hrecord hlease'
      | _ => cases hevent'
    · exact hhistory event hevent'
  | deliver => exact ⟨hworkers fun _ h => (nomatch h), hhistory⟩

/-- A ledger without a row is empty whatever else changes. -/
private theorem ledger_absent (hrow : s.tables.deliveries.lookup key = none)
    (hrow' : t.tables.deliveries.lookup key = none) : t.ledger n key = s.ledger n key := by
  simp only [EventState.ledger, hrow, hrow']

private theorem reaches_same (h : t.ledger n key = s.ledger n key) :
    (Ledger.machine Uuid strict).Reaches (s.ledger n key) (t.ledger n key) := by
  rw [h]
  exact .refl _

/-- A row that is put back starts its ledger over. -/
private theorem reaches_restart (hok : GenerationsOk s)
    (hrow : s.tables.deliveries.lookup key = some row)
    (hrow' : t.tables.deliveries.lookup key = some row') (hattempts : row'.attempts = 0)
    (hholder : row'.holder = none) (hgeneration : t.generation key = s.generation key + 1)
    (hworkers : t.workers = s.workers) (hhistory : t.history = s.history) :
    (Ledger.machine Uuid strict).Reaches (s.ledger n key) (t.ledger n key) := by
  rw [ledger_fresh hok hrow' hattempts hholder hgeneration hworkers hhistory]
  have hlimit : (s.ledger n key).limit = n := by simp only [EventState.ledger, hrow]
  have hreset : (Ledger.machine Uuid strict).Reaches (s.ledger n key)
      { (Ledger.empty : Ledger Uuid) with limit := (s.ledger n key).limit } := Ledger.reaches_reset
  rwa [hlimit] at hreset

/-- A row that is made opens its ledger. -/
private theorem reaches_made (hok : GenerationsOk s) (hrow : s.tables.deliveries.lookup key = none)
    (hrow' : t.tables.deliveries.lookup key = some row') (hattempts : row'.attempts = 0)
    (hholder : row'.holder = none) (hgeneration : t.generation key = s.generation key + 1)
    (hworkers : t.workers = s.workers) (hhistory : t.history = s.history) :
    (Ledger.machine Uuid strict).Reaches (s.ledger n key) (t.ledger n key) := by
  rw [ledger_fresh hok hrow' hattempts hholder hgeneration hworkers hhistory]
  have hempty : s.ledger n key = .empty := by simp only [EventState.ledger, hrow]
  rw [hempty]
  exact Ledger.reaches_open n

variable {now : ℕ}

private theorem reaches_lease {owner : ℕ} (hidle : s.workers owner = .idle)
    (hrow : s.tables.deliveries.lookup key = some row)
    (hrow' : t.tables.deliveries.lookup key =
      some ((DeliveryRow.lease owner now leaseSeconds).set row))
    (hworkers : t.workers = Function.update s.workers owner (.leased ⟨((DeliveryRow.lease owner now
      leaseSeconds).set row).toLeased key, s.generation key⟩))
    (hgeneration : t.generation = s.generation) (hhistory : t.history = s.history) :
    (Ledger.machine Uuid strict).Reaches (s.ledger n key) (t.ledger n key) := by
  have hnone : (s.ledger n key).tickets owner = none := by
    simp [EventState.ledger, hrow, hidle, DeliveryPhase.ticket]
  refine .single (a := .issue owner) ?_
  simp only [Ledger.machine, Ledger.step, hnone, if_true, Option.some.injEq]
  simp only [EventState.ledger, hrow, hrow', hworkers, hgeneration, hhistory, Ledger.mk.injEq]
  refine ⟨rfl, trivial, rfl, ?_, trivial⟩
  rw [tickets_update]
  simp [DeliveryPhase.ticket, Lease.ticket, DeliveryRow.toLeased, DeliveryRow.lease,
    LeasedDelivery.key]

private theorem reaches_enter {round maxAttempts : ℕ} (hphase : s.workers owner = .leased lease)
    (hbudget : lease.delivery.attempts ≤ maxAttempts) (hmax : maxAttempts = n)
    (htables : t.tables = s.tables)
    (hworkers : t.workers = Function.update s.workers owner (.running lease round))
    (hgeneration : t.generation = s.generation)
    (hhistory : t.history =
      .entered lease.key lease.generation lease.delivery.attempts :: s.history)
    : (Ledger.machine Uuid strict).Reaches (s.ledger n key) (t.ledger n key) := by
  subst hmax
  by_cases hmine : lease.key = key ∧ lease.generation = s.generation key
  · cases hrow : s.tables.deliveries.lookup key with
    | none => exact reaches_same (ledger_absent hrow (htables ▸ hrow))
    | some row =>
      have hticket : (s.ledger maxAttempts key).tickets owner =
          some ⟨lease.delivery.attempts, false⟩ := by
        simp [EventState.ledger, hrow, hphase, DeliveryPhase.ticket, Lease.ticket, hmine]
      have hlimit : lease.delivery.attempts ≤ ((s.ledger maxAttempts key).limit : ℤ) := by
        simpa [EventState.ledger, hrow] using hbudget
      refine .single (a := .use owner) ?_
      simp only [Ledger.machine, Ledger.step, hticket, hlimit, if_true, Option.some.injEq]
      simp only [EventState.ledger, htables, hrow, hworkers, hgeneration, hhistory, tickets_update]
      simp [DeliveryPhase.ticket, Lease.ticket, hmine, spentDeliveries]
  · refine reaches_same (ledger_same (by rw [htables]) (by rw [hgeneration]) ?_ ?_)
    · rw [hworkers]
      refine tickets_same ?_
      simp [hphase, DeliveryPhase.ticket, Lease.ticket, hmine]
    · simp [hhistory, spentDeliveries, hmine]

private theorem reaches_move (hledger : LedgerOk s)
    (hmove : DeliveryMove s.tables owner a (s.workers owner) phase)
    (hbudget : readsBudget n a = true)
    (hraising : strict = true → raisingDelivery key s a = true ∧
      ∀ row, s.tables.deliveries.lookup key = some row → row.state ≠ .delivered)
    :
    (Ledger.machine Uuid strict).Reaches (s.ledger n key)
      (EventState.ledger n { s with workers := Function.update s.workers owner phase } key) := by
  rcases move_ticket hmove with hticket | hgone
  · exact reaches_same (ledger_same rfl rfl (tickets_same hticket) rfl)
  · cases hrow : s.tables.deliveries.lookup key with
    | none => exact reaches_same (ledger_absent hrow hrow)
    | some row =>
      have hdrop : EventState.ledger n
          { s with workers := Function.update s.workers owner phase } key =
          { s.ledger n key with
            tickets := Function.update (s.ledger n key).tickets owner none } := by
        simp only [EventState.ledger, hrow, tickets_update, hgone]
      rw [hdrop]
      refine Ledger.reaches_drop fun hstrict number hticket => ?_
      obtain ⟨hok, hstate⟩ := hraising hstrict
      simp only [EventState.ledger, hrow] at hticket ⊢
      exact move_keeps hledger hmove hbudget hok hrow (hstate row hrow) hticket hgone

private theorem reaches_finish (hheld : HeldOk s) (hlease : (s.workers owner).lease? = some lease)
    (hrow : s.tables.deliveries.lookup lease.key = some row) (howned : row.isHeld owner = true)
    (hfinish : DeliveryFinish owner a (s.workers owner) write events)
    (hbudget : readsBudget n a = true)
    (hraising : strict = true → raisingDelivery lease.key s a = true)
    (hrow' : t.tables.deliveries.lookup lease.key = some (write.set owner row))
    (hworkers : t.workers = Function.update s.workers owner .idle)
    (hgeneration : t.generation = s.generation) (hhistory : t.history = events ++ s.history) :
    (Ledger.machine Uuid strict).Reaches (s.ledger n lease.key) (t.ledger n lease.key) := by
  obtain ⟨hcurrent, -, -⟩ := hheld owner lease row hlease hrow howned
  obtain ⟨howner, hstate⟩ := DeliveryRow.isHeld_iff.mp howned
  have hidle : DeliveryPhase.ticket lease.key (s.generation lease.key) .idle = none := rfl
  have hfree : (write.set owner row).holder = none := by
    simp [DeliveryRow.holder, (DeliveryWrite.set_state_ne write).1]
  rcases finish_deferral row hfinish hlease s.history with
    ⟨next, used, rfl, hticket, hspent⟩ | ⟨hattempts, rfl⟩
  · rw [hcurrent] at hticket hspent
    have hticket' : (s.ledger n lease.key).tickets owner =
        some ⟨lease.delivery.attempts, used⟩ := by
      simp only [EventState.ledger, hrow, Function.comp_apply, hticket]
    have hholder : (s.ledger n lease.key).holder = some owner := by
      simp only [EventState.ledger, hrow, DeliveryRow.holder, hstate, if_true, howner]
    refine .single (a := .refund owner) ?_
    simp only [Ledger.machine, Ledger.step, hticket', hholder, if_true, Option.some.injEq]
    simp only [EventState.ledger, hrow, hrow', hfree, hworkers, hgeneration, hhistory, hspent,
      tickets_update, hidle, Ledger.mk.injEq]
    exact ⟨rfl, trivial, trivial, trivial, trivial⟩
  · have hrelease : t.ledger n lease.key = { { s.ledger n lease.key with holder := none } with
        tickets := Function.update (s.ledger n lease.key).tickets owner none } := by
      rw [ledger_release hrow hrow' hattempts (by rw [hgeneration]) hworkers hidle
        (by rw [hhistory]; rfl), hfree]
    rw [hrelease]
    refine Ledger.reaches_hold_none.trans (Ledger.reaches_drop fun hstrict number hticket => ?_)
    simp only [EventState.ledger, hrow] at hticket ⊢
    refine finish_keeps hfinish hbudget (hraising hstrict) hlease hticket fun next hdefer => ?_
    subst hdefer
    have : row.attempts - 1 = row.attempts := hattempts
    omega

private theorem reaches_deliver {round : ℕ} (hphase : s.workers owner = .running lease round)
    (hrow : s.tables.deliveries.lookup key = some row) (hkey : lease.key = key)
    (hrow' : t.tables.deliveries.lookup key = some ((DeliveryRow.markDelivered owner now).set row))
    (hworkers : t.workers = Function.update s.workers owner .idle)
    (hgeneration : t.generation = s.generation) (hhistory : t.history = s.history) :
    (Ledger.machine Uuid strict).Reaches (s.ledger n key) (t.ledger n key) := by
  have hrelease : t.ledger n key = { { s.ledger n key with holder := none } with
      tickets := Function.update (s.ledger n key).tickets owner none } := by
    rw [ledger_release hrow hrow' rfl (by rw [hgeneration]) hworkers rfl (by rw [hhistory])]
    rfl
  rw [hrelease]
  refine Ledger.reaches_hold_none.trans (Ledger.reaches_drop fun _ number hticket => ?_)
  simp [EventState.ledger, hrow, hphase, DeliveryPhase.ticket, Lease.ticket, hkey] at hticket

/-- A replay starts the ledgers of the rows it makes or puts back over. -/
private theorem reaches_replay (hgenerations : GenerationsOk s) {consumerId : String}
    {fromPosition : ℕ} {replayed : Replayed}
    (htables : replayed.tables = s.tables.replayDeliveries consumerId
      replayed.subscription.eventType fromPosition now)
    :
    (Ledger.machine Uuid strict).Reaches (s.ledger n key)
      ((s.replay consumerId fromPosition replayed).ledger n key) := by
  cases hrow : s.tables.deliveries.lookup key with
  | none =>
    have hafter : replayed.tables.deliveries.lookup key = if key.2 = consumerId then
        ((s.tables.outbox.lookup key.1).filter fun row =>
          row.type = replayed.subscription.eventType && fromPosition ≤ row.position).map fun row =>
            .fresh row.subjectRef row.position now else none := by
      rw [htables]
      exact EventTables.lookup_replayDeliveries_missing hrow
    by_cases hmade : key.2 = consumerId ∧
      s.tables.replayable replayed.subscription.eventType fromPosition key.1 = true
    · obtain ⟨hconsumer, hreplayable⟩ := hmade
      obtain ⟨event, hevent, htype, hposition⟩ := EventTables.replayable_iff.mp hreplayable
      have hfresh : replayed.tables.deliveries.lookup key =
          some (.fresh event.subjectRef event.position now) := by
        simp [hafter, hconsumer, hevent, Option.filter, htype, hposition]
      exact reaches_made hgenerations hrow hfresh rfl rfl
        (by simp [EventState.replay, bump, hrow, hconsumer, hreplayable]) rfl rfl
    · refine reaches_same (ledger_absent hrow (hafter.trans ?_))
      rw [ite_eq_right_iff]
      intro hconsumer
      rw [Option.map_eq_none_iff]
      refine Option.eq_none_iff_forall_ne_some.mpr fun event hevent => ?_
      obtain ⟨hevent, hmatch⟩ := Option.filter_eq_some_iff.mp hevent
      simp only [Bool.and_eq_true, decide_eq_true_eq] at hmatch
      exact hmade ⟨hconsumer, EventTables.replayable_iff.mpr ⟨event, hevent, hmatch⟩⟩
  | some row =>
    have hafter : replayed.tables.deliveries.lookup key =
        some (if s.tables.resets consumerId replayed.subscription.eventType fromPosition key row
          then row.replayed now else row) := by
      rw [htables]
      exact EventTables.lookup_replayDeliveries hrow
    by_cases hresets : s.tables.resets consumerId replayed.subscription.eventType fromPosition
      key row = true
    · rw [if_pos hresets] at hafter
      exact reaches_restart hgenerations hrow hafter rfl rfl
        (by simp [EventState.replay, bump, hrow, hresets]) rfl rfl
    · rw [if_neg hresets] at hafter
      exact reaches_same (ledger_same (hafter.trans hrow.symm)
        (by simp [EventState.replay, bump, hrow, hresets]) rfl rfl)

/-- One step of the event system is any number of the ledger of a delivery, kept strictly
where the row is not delivered and its handlers only raise. -/
theorem ledger_step (hok : TablesOk s) (hheld : HeldOk s) (hledger : LedgerOk s)
    (hgenerations : GenerationsOk s) (hstep : EventStep s a t) (hbudget : readsBudget n a = true)
    (hraising : strict = true → raisingDelivery key s a = true ∧
      ∀ row, s.tables.deliveries.lookup key = some row → row.state ≠ .delivered) :
    (Ledger.machine Uuid strict).Reaches (s.ledger n key) (t.ledger n key) := by
  -- A step that writes another row, and has none of this one's leases in hand, does nothing.
  have hother : ∀ {key' : DeliveryKey} {row' : DeliveryRow}, key ≠ key' →
      (s.tables.deliveries.insert key' row').lookup key = s.tables.deliveries.lookup key :=
    fun hne => AList.lookup_insert_ne hne
  have hphase : ∀ {owner : Uuid} {lease : Lease}, (s.workers owner).lease? = some lease →
      lease.key ≠ key → DeliveryPhase.ticket key (s.generation key) .idle =
        (s.workers owner).ticket key (s.generation key) := by
    intro owner lease hlease hne
    refine (phase_ticket_other fun lease' hlease' => ?_).symm
    rwa [Option.some.inj (hlease'.symm.trans hlease)]
  cases hstep with
  | publish | abortPublish | beginSweep | sweepNext | rollbackSweep => exact reaches_same rfl
  | @commitPublish id publication hpublication =>
    have hrows : (s.tables.commit id publication).deliveries.lookup key =
        (s.tables.deliveries.lookup key).or (Table.rowOf publication.deliveries key) := by
      rw [EventTables.commit, Table.lookup_insertMissing]
    cases hmade : Table.rowOf publication.deliveries key with
    | none =>
      exact reaches_same (ledger_same (by simp [hrows, hmade]) (by simp [bump, hmade]) rfl rfl)
    | some row =>
      obtain ⟨hid, now, rfl⟩ := hok.fanOut id publication hpublication key row hmade
      have hnone : s.tables.deliveries.lookup key = none := by
        refine Option.eq_none_iff_forall_ne_some.mpr fun row hrow => ?_
        exact (hok.unpublished hpublication).2 key row hrow hid
      exact reaches_made hgenerations hnone (hrows.trans (by rw [hnone, hmade]; rfl)) rfl rfl
        (by simp [bump, hmade]) rfl rfl
  | @lease owner key' now row hidle hrow hdue hfree =>
    by_cases hkey : key = key'
    · subst hkey
      exact reaches_lease hidle hrow (AList.lookup_insert _) rfl rfl rfl
    · refine reaches_same (ledger_same (hother hkey) rfl (tickets_same ?_) rfl)
      rw [hidle]
      exact ticket_other (Ne.symm hkey)
  | enter hleased hwithin =>
    exact reaches_enter hleased hwithin (of_decide_eq_true hbudget) rfl rfl rfl rfl
  | move hmove => exact reaches_move hledger hmove hbudget hraising
  | @finish _ owner lease row write events hlease hrow howned hfinish =>
    by_cases hkey : lease.key = key
    · subst hkey
      exact reaches_finish hheld hlease hrow howned hfinish hbudget (fun h => (hraising h).1)
        (AList.lookup_insert _) rfl rfl rfl
    · exact reaches_same (ledger_same (hother (Ne.symm hkey)) rfl
        (tickets_same (hphase hlease hkey)) (finish_spent_other hfinish hlease hkey _))
  | @deliver owner lease round now conflict row hrunning hrow howned =>
    by_cases hkey : lease.key = key
    · subst hkey
      exact reaches_deliver hrunning hrow rfl (AList.lookup_insert _) rfl rfl rfl
    · exact reaches_same (ledger_same (hother (Ne.symm hkey)) rfl
        (tickets_same (hphase (by rw [hrunning]; rfl) hkey)) rfl)
  | @retry caller key' now row hrow hfailed =>
    by_cases hkey : key = key'
    · subst hkey
      exact reaches_restart hgenerations hrow (AList.lookup_insert _) rfl rfl (by simp [bump]) rfl
        rfl
    · exact reaches_same (ledger_same (hother hkey) (by simp [bump, hkey]) rfl rfl)
  | @skip caller key' now note row hrow hfailed =>
    by_cases hkey : key = key'
    · subst hkey
      refine reaches_same ?_
      simp only [EventState.ledger, hrow, AList.lookup_insert]
      simp [DeliveryRow.holder, DeliveryRow.skipDelivery, hfailed]
    · exact reaches_same (ledger_same (hother hkey) rfl rfl rfl)
  | replay _ hreplayed =>
    obtain ⟨-, -, htables⟩ := replayHandler_eq_ok hreplayed
    exact reaches_replay hgenerations htables
  | @commitSweep sweep hsweep hfinished =>
    have hrows := (hok.sweep sweep hsweep).lookup_commit_deliveries hfinished key
    by_cases hid : key.1 ∈ sweep.deletedIds
    · have hnone : (sweep.commit s.tables).deliveries.lookup key = none :=
        Option.eq_none_iff_forall_ne_some.mpr fun row hrow => ((hrows row).mp hrow).2 hid
      have hempty : EventState.ledger n { s with
          sweep := none
          tables := sweep.commit s.tables
          generation := bump s.generation fun key => sweep.deletedIds.contains key.1 } key =
          .empty := by
        simp only [EventState.ledger, hnone]
      rw [hempty]
      exact Ledger.reaches_empty
    · refine reaches_same (ledger_same ?_ (by simp [bump, hid]) rfl rfl)
      exact Option.ext fun row => (hrows row).trans (and_iff_left hid)

end DeliveryBudget

theorem generationsOk {s : EventState} (hs : eventLoop.Reachable s) : GenerationsOk s := by
  refine Machine.Reachable.invariant ?_ (fun s a t hs hok hstep => ?_) hs
  · rintro _ rfl
    exact ⟨fun owner lease hlease => (nomatch hlease), fun event hevent => (nomatch hevent)⟩
  · exact DeliveryBudget.generations_step hok (eventLoop_cases hstep)

/-- With its budget fixed, the event system refines the ledger of every delivery. -/
theorem budgetLoop_refines_ledger (n : ℕ) (key : DeliveryKey) :
    (budgetLoop n).Refines (Ledger.machine Uuid false) (fun s => s.ledger n key) := by
  refine ⟨?_, fun s a t hs hstep => ?_⟩
  · rintro _ rfl
    rfl
  · obtain ⟨hbudget, hstep⟩ := Machine.restrict_step.mp hstep
    obtain ⟨hheld, hledger, -⟩ := deliveredOk hs.of_restrict
    exact DeliveryBudget.ledger_step (tablesOk hs.of_restrict) hheld hledger
      (generationsOk hs.of_restrict) (eventLoop_cases hstep) hbudget nofun

end Rheostream
