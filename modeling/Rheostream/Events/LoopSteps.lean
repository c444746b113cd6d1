import Rheostream.Events.Loop

/-!
# What one step of the event system can do

The step function inverted once. A worker's write of its own row is a finish, and
`DeliveryFinish` lists the seven ways of reaching one; the moves that write nothing are in
`DeliveryMove`; what remains are publishes, leases, handler entries and commits, a person's
writes, replays, and a sweep's statements and commit.
-/

namespace Rheostream

open EventState

/-- The ways a worker in a given phase ends its lease without a handler's effects: the
action, the row write, and what the history records. -/
inductive DeliveryFinish (owner : Uuid) : EventAction → DeliveryPhase → DeliveryWrite →
    List DeliveryEvent → Prop where
  | exhausted {lease : Lease} {registry : ConsumerRegistry} {maxAttempts now clock : ℕ}
      {context : Option String} {ready : Bool}
      (hspent : maxAttempts < lease.delivery.attempts) :
      DeliveryFinish owner (.visit owner registry maxAttempts now clock context ready)
        (.leased lease) (.failDelivery now retryBudgetExhausted) []
  | unknown {lease : Lease} {registry : ConsumerRegistry} {maxAttempts now clock : ℕ}
      {context : Option String} {error : String}
      (hgate : runLeasedDelivery registry lease.delivery maxAttempts = .unknown error) :
      DeliveryFinish owner (.visit owner registry maxAttempts now clock context true)
        (.leased lease) (.failDelivery now error) []
  | deferUnknown {lease : Lease} {registry : ConsumerRegistry} {maxAttempts now clock next : ℕ}
      {context : Option String} {error : String}
      (hgate : runLeasedDelivery registry lease.delivery maxAttempts = .unknown error) :
      DeliveryFinish owner (.visit owner registry maxAttempts now clock context false)
        (.leased lease) (.deferUnreadyDelivery next) []
  | marked {lease : Lease} {now : ℕ} :
      DeliveryFinish owner (.markProcessed owner now) (.alreadyProcessed lease)
        (.markDelivered now) []
  | missing {lease : Lease} {entered : Bool} {maxAttempts now : ℕ} {jitter : Option ℕ}
      {error : String} :
      DeliveryFinish owner (.writeFailure owner maxAttempts now jitter)
        (.failing lease .missing entered) (.failDelivery now error) []
  | deferred {lease : Lease} {entered : Bool} {maxAttempts now next : ℕ} {jitter : Option ℕ} :
      DeliveryFinish owner (.writeFailure owner maxAttempts now jitter)
        (.failing lease .notReady entered) (.deferUnreadyDelivery next)
        (if entered then [.deferred lease.key lease.generation lease.delivery.attempts] else [])
  | failed {lease : Lease} {entered : Bool} {maxAttempts now : ℕ} {jitter : Option ℕ}
      {error : String} (hspent : maxAttempts ≤ lease.delivery.attempts) :
      DeliveryFinish owner (.writeFailure owner maxAttempts now jitter)
        (.failing lease (.raised error) entered) (.failDelivery now error) []
  | requeued {lease : Lease} {entered : Bool} {maxAttempts now : ℕ} {jitter : Option ℕ}
      {error : String} (hleft : lease.delivery.attempts < maxAttempts) :
      DeliveryFinish owner (.writeFailure owner maxAttempts now jitter)
        (.failing lease (.raised error) entered) (.requeueDelivery now error jitter) []

/-- The moves of a worker that write nothing. -/
inductive DeliveryMove (tables : EventTables) (owner : Uuid) :
    EventAction → DeliveryPhase → DeliveryPhase → Prop where
  | gateMissed {lease : Lease} {registry : ConsumerRegistry} {maxAttempts now clock : ℕ}
      {context : Option String} {ready : Bool}
      (hgate : runLeasedDelivery registry lease.delivery maxAttempts ≠ .run)
      (hspent : runLeasedDelivery registry lease.delivery maxAttempts = .exhausted →
        maxAttempts < lease.delivery.attempts) :
      DeliveryMove tables owner (.visit owner registry maxAttempts now clock context ready)
        (.leased lease) .idle
  | found {lease : Lease} {registry : ConsumerRegistry} {maxAttempts now clock : ℕ}
      {context : Option String} {ready : Bool}
      (hprocessed : (tables.processed.lookup lease.key).isSome = true) :
      DeliveryMove tables owner (.visit owner registry maxAttempts now clock context ready)
        (.leased lease) (.alreadyProcessed lease)
  | missing {lease : Lease} {registry : ConsumerRegistry} {maxAttempts now clock : ℕ}
      {context : Option String} {ready : Bool}
      (hbudget : lease.delivery.attempts ≤ maxAttempts)
      (hmissing : tables.outbox.lookup lease.key.1 = none) :
      DeliveryMove tables owner (.visit owner registry maxAttempts now clock context ready)
        (.leased lease) (.failing lease .missing false)
  | refused {lease : Lease} {registry : ConsumerRegistry} {maxAttempts now clock : ℕ}
      {context : String} {ready : Bool} {error : String}
      (hbudget : lease.delivery.attempts ≤ maxAttempts) :
      DeliveryMove tables owner
        (.visit owner registry maxAttempts now clock (some context) ready)
        (.leased lease) (.failing lease (.raised error) false)
  | unready {lease : Lease} {registry : ConsumerRegistry} {maxAttempts now clock : ℕ}
      {context : Option String} (hbudget : lease.delivery.attempts ≤ maxAttempts) :
      DeliveryMove tables owner (.visit owner registry maxAttempts now clock context false)
        (.leased lease) (.failing lease .notReady false)
  | conflict {lease : Lease} {round now : ℕ} {conflict : String}
      (hprocessed : (tables.processed.lookup lease.key).isSome = true) :
      DeliveryMove tables owner (.handlerReturns owner now conflict) (.running lease round)
        (.failing lease (.raised conflict) true)
  | returnMissed {lease : Lease} {round now : ℕ} {conflict : String} :
      DeliveryMove tables owner (.handlerReturns owner now conflict) (.running lease round) .idle
  | raises {lease : Lease} {round : ℕ} {error : Option String} {failure : DeliveryFailure} :
      DeliveryMove tables owner (.handlerRaises owner error) (.running lease round)
        (.failing lease failure true)
  | markMissed {lease : Lease} {now : ℕ} :
      DeliveryMove tables owner (.markProcessed owner now) (.alreadyProcessed lease) .idle
  | outcomeMissed {lease : Lease} {failure : DeliveryFailure} {entered : Bool}
      {maxAttempts now : ℕ} {jitter : Option ℕ}
      (hmissed : ∀ row, tables.deliveries.lookup lease.key = some row →
        row.isHeld owner = false) :
      DeliveryMove tables owner (.writeFailure owner maxAttempts now jitter)
        (.failing lease failure entered) .idle
  | crash {phase : DeliveryPhase} : DeliveryMove tables owner (.crash owner) phase .idle

/-- The changes a step can make. -/
inductive EventStep (s : EventState) : EventAction → EventState → Prop where
  | publish {registry : ConsumerRegistry} {enabledModules : List String} {id : Uuid}
      {type subjectRef : String} {now : ℕ} (hfresh : s.published.lookup id = none)
      (hidle : s.publishing.lookup id = none) :
      EventStep s (.publish registry enabledModules id type subjectRef now) { s with
        sequence := s.sequence + 1
        publishing := s.publishing.insert id
          (Rheostream.publish registry enabledModules id type subjectRef (s.sequence + 1) now) }
  | commitPublish {id : Uuid} {publication : Publication}
      (hpublication : s.publishing.lookup id = some publication) :
      EventStep s (.commitPublish id) { s with
        publishing := s.publishing.erase id
        tables := s.tables.commit id publication
        published := s.published.insert id publication.row
        generation := bump s.generation fun key =>
          (Table.rowOf publication.deliveries key).isSome }
  | abortPublish {id : Uuid} :
      EventStep s (.abortPublish id) { s with publishing := s.publishing.erase id }
  | lease {owner : Uuid} {key : DeliveryKey} {now : ℕ} {row : DeliveryRow}
      (hidle : s.workers owner = .idle) (hrow : s.tables.deliveries.lookup key = some row)
      (hdue : row.isDue now = true) (hfree : s.tables.deliveries.isBlocked key row = false) :
      EventStep s (.lease owner key now) { s with
        tables := { s.tables with
          deliveries := s.tables.deliveries.insert key
            ((DeliveryRow.lease owner now leaseSeconds).set row) }
        workers := Function.update s.workers owner (.leased
          ⟨((DeliveryRow.lease owner now leaseSeconds).set row).toLeased key,
            s.generation key⟩) }
  | enter {owner : Uuid} {lease : Lease} {registry : ConsumerRegistry}
      {maxAttempts now clock : ℕ} {context : Option String}
      (hphase : s.workers owner = .leased lease)
      (hbudget : lease.delivery.attempts ≤ maxAttempts)
      (hunprocessed : s.tables.processed.lookup lease.key = none) :
      EventStep s (.visit owner registry maxAttempts now clock context true) { s with
        workers := Function.update s.workers owner (.running lease (s.round lease.key))
        history := .entered lease.key lease.generation lease.delivery.attempts :: s.history }
  | move {a : EventAction} {owner : Uuid} {phase : DeliveryPhase}
      (hmove : DeliveryMove s.tables owner a (s.workers owner) phase) :
      EventStep s a { s with workers := Function.update s.workers owner phase }
  | finish {a : EventAction} {owner : Uuid} {lease : Lease} {row : DeliveryRow}
      {write : DeliveryWrite} {events : List DeliveryEvent}
      (hlease : (s.workers owner).lease? = some lease)
      (hrow : s.tables.deliveries.lookup lease.key = some row)
      (hheld : row.isHeld owner = true)
      (hfinish : DeliveryFinish owner a (s.workers owner) write events) :
      EventStep s a { s with
        tables := { s.tables with
          deliveries := s.tables.deliveries.insert lease.key (write.set owner row) }
        workers := Function.update s.workers owner .idle
        history := events ++ s.history }
  | deliver {owner : Uuid} {lease : Lease} {round now : ℕ} {conflict : String}
      {row : DeliveryRow} (hphase : s.workers owner = .running lease round)
      (hrow : s.tables.deliveries.lookup lease.key = some row)
      (hheld : row.isHeld owner = true)
      (hunprocessed : s.tables.processed.lookup lease.key = none) :
      EventStep s (.handlerReturns owner now conflict) { s with
        tables := { s.tables with
          deliveries := s.tables.deliveries.insert lease.key
            ((DeliveryRow.markDelivered owner now).set row)
          processed := s.tables.processed.insert lease.key now }
        workers := Function.update s.workers owner .idle
        effects :=
          { key := lease.key
            subjectRef := lease.delivery.subjectRef
            position := lease.delivery.position
            enteredRound := round
            round := s.round lease.key
            replays := s.replays lease.key.2 } :: s.effects }
  | retry {caller : WorkCaller} {key : DeliveryKey} {now : ℕ} {row : DeliveryRow}
      (hrow : s.tables.deliveries.lookup key = some row) (hfailed : row.state = .failed) :
      EventStep s (.retry caller key now) { s with
        tables := { s.tables with
          deliveries := s.tables.deliveries.insert key
            ((DeliveryRow.retryDelivery now).set row) }
        generation := bump s.generation fun other => other = key }
  | skip {caller : WorkCaller} {key : DeliveryKey} {now : ℕ} {note : Option String}
      {row : DeliveryRow} (hrow : s.tables.deliveries.lookup key = some row)
      (hfailed : row.state = .failed) :
      EventStep s (.skip caller key now note) { s with
        tables := { s.tables with
          deliveries := s.tables.deliveries.insert key
            ((DeliveryRow.skipDelivery now note).set row) } }
  | replay {caller : WorkCaller} {consumers : Option ConsumerRegistry} {consumerId : String}
      {fromPosition now : ℕ} {replayed : Replayed} (hsweep : s.sweep = none)
      (hreplayed : replayHandler caller consumers s.tables consumerId fromPosition now =
        .ok replayed) :
      EventStep s (.replay caller consumers consumerId fromPosition now)
        (s.replay consumerId fromPosition replayed)
  | beginSweep {occurredBefore batchEvents maxBatches : ℕ} (hsweep : s.sweep = none) :
      EventStep s (.beginSweep occurredBefore batchEvents maxBatches) { s with
        sweep := some (.start s.tables occurredBefore batchEvents maxBatches) }
  | sweepNext {sweep sweep' : Sweep} (hsweep : s.sweep = some sweep)
      (hnext : sweep.next s.tables = some sweep') :
      EventStep s .sweepNext { s with sweep := some sweep' }
  | commitSweep {sweep : Sweep} (hsweep : s.sweep = some sweep)
      (hfinished : sweep.stage = .finished) :
      EventStep s .commitSweep { s with
        sweep := none
        tables := sweep.commit s.tables
        generation := bump s.generation fun key => sweep.deletedIds.contains key.1 }
  | rollbackSweep : EventStep s .rollbackSweep { s with sweep := none }

variable {s t : EventState}

variable {maxAttempts : ℕ}

/-- The gate lets a delivery through only within the budget. -/
theorem runLeasedDelivery_eq_exhausted {registry : ConsumerRegistry} {leased : LeasedDelivery} :
    runLeasedDelivery registry leased maxAttempts = .exhausted ↔
      (maxAttempts : ℤ) < leased.attempts := by
  unfold runLeasedDelivery
  split
  · simpa
  · split <;> simp_all

variable {lease : Lease} {owner : Uuid}

/-- A finish applies, or leaves the worker idle. -/
private theorem EventStep.finish_or_move {a : EventAction} {write : DeliveryWrite}
    {events : List DeliveryEvent} (hlease : (s.workers owner).lease? = some lease)
    (hfinish : DeliveryFinish owner a (s.workers owner) write events)
    (hmissed : (∀ row, s.tables.deliveries.lookup lease.key = some row →
      row.isHeld owner = false) → DeliveryMove s.tables owner a (s.workers owner) .idle)
    : EventStep s a (s.finish owner lease write events) := by
  unfold EventState.finish
  cases happly : s.tables.deliveries.updateRow lease.key (write.update owner) with
  | none =>
    have hnone := Table.updateRow_eq_none.mp happly
    rw [DeliveryWrite.guard_eq] at hnone
    exact .move (hmissed hnone)
  | some deliveries =>
    obtain ⟨row, hrow, hguard, rfl⟩ := Table.updateRow_eq_some.mp happly
    rw [DeliveryWrite.guard_eq] at hguard
    exact .finish hlease hrow hguard hfinish

variable {now : ℕ}

private theorem EventStep.visit {registry : ConsumerRegistry} {clock : ℕ} {context : Option String}
    {ready : Bool} (hphase : s.workers owner = .leased lease) :
    EventStep s (.visit owner registry maxAttempts now clock context ready)
      (s.visit owner lease registry maxAttempts now clock context ready) := by
  have hlease : (s.workers owner).lease? = some lease := by rw [hphase]; rfl
  unfold EventState.visit
  cases hgate : runLeasedDelivery registry lease.delivery maxAttempts with
  | exhausted =>
    have hspent := runLeasedDelivery_eq_exhausted.mp hgate
    exact .finish_or_move hlease (hphase ▸ .exhausted hspent)
      (fun _ => hphase ▸ .gateMissed (by simp [hgate]) fun _ => hspent)
  | unknown error =>
    have hmissed : DeliveryMove s.tables owner
        (.visit owner registry maxAttempts now clock context ready) (s.workers owner) .idle :=
      hphase ▸ .gateMissed (by simp [hgate]) (by simp [hgate])
    cases ready with
    | true => exact .finish_or_move hlease (hphase ▸ .unknown hgate) fun _ => hmissed
    | false => exact .finish_or_move hlease (hphase ▸ .deferUnknown hgate) fun _ => hmissed
  | run =>
    have hbudget : lease.delivery.attempts ≤ maxAttempts := by
      by_contra hspent
      have hexhausted : runLeasedDelivery registry lease.delivery maxAttempts = .exhausted :=
        runLeasedDelivery_eq_exhausted.mpr (not_le.mp hspent)
      simp [hgate] at hexhausted
    dsimp only
    split
    case isTrue hprocessed => exact .move (hphase ▸ .found hprocessed)
    case isFalse hunprocessed =>
      split
      case h_1 hmissing => exact .move (hphase ▸ .missing hbudget hmissing)
      case h_2 =>
        split
        case h_1 => exact .move (hphase ▸ .refused hbudget)
        case h_2 =>
          cases ready with
          | true => exact .enter hphase hbudget (by simpa using hunprocessed)
          | false => exact .move (hphase ▸ .unready hbudget)

private theorem EventStep.writeFailure {failure : DeliveryFailure} {entered : Bool}
    {jitter : Option ℕ} (hphase : s.workers owner = .failing lease failure entered) :
    EventStep s (.writeFailure owner maxAttempts now jitter)
      (s.writeFailure owner lease failure entered maxAttempts now jitter) := by
  have hlease : (s.workers owner).lease? = some lease := by rw [hphase]; rfl
  have hmissed : (∀ row, s.tables.deliveries.lookup lease.key = some row →
      row.isHeld owner = false) →
      DeliveryMove s.tables owner (.writeFailure owner maxAttempts now jitter)
        (s.workers owner) .idle := fun h => hphase ▸ .outcomeMissed h
  unfold EventState.writeFailure
  cases failure with
  | missing => exact .finish_or_move hlease (hphase ▸ .missing) hmissed
  | notReady => exact .finish_or_move hlease (hphase ▸ .deferred) hmissed
  | raised error =>
    dsimp only
    split
    case isTrue hspent => exact .finish_or_move hlease (hphase ▸ .failed hspent) hmissed
    case isFalse hleft =>
      exact .finish_or_move hlease (hphase ▸ .requeued (not_le.mp hleft)) hmissed

private theorem EventStep.handlerReturns {round : ℕ} {conflict : String}
    (hphase : s.workers owner = .running lease round) :
    EventStep s (.handlerReturns owner now conflict)
      (s.handlerReturns owner lease round now conflict) := by
  unfold EventState.handlerReturns
  split
  case isTrue hprocessed => exact .move (hphase ▸ .conflict hprocessed)
  case isFalse hunprocessed =>
    split
    case h_1 => exact .move (hphase ▸ .returnMissed)
    case h_2 deliveries happly =>
      obtain ⟨row, hrow, hheld, rfl⟩ := Table.updateRow_eq_some.mp happly
      exact .deliver hphase hrow hheld (by simpa using hunprocessed)

/-- The inversion lemma. -/
theorem eventLoop_cases {a : EventAction} (h : eventLoop.step s a = some t) : EventStep s a t := by
  have h : s.step a = some t := h
  cases a with
  | publish registry enabledModules id type subjectRef now =>
    obtain ⟨⟨hfresh, hidle⟩, rfl⟩ := by simpa [EventState.step] using h
    exact .publish hfresh hidle
  | commitPublish id =>
    obtain ⟨publication, hpublication, rfl⟩ := Option.map_eq_some_iff.mp h
    exact .commitPublish hpublication
  | abortPublish id =>
    obtain ⟨_, -, rfl⟩ := Option.map_eq_some_iff.mp h
    exact .abortPublish
  | lease owner key now =>
    simp only [EventState.step] at h
    split at h
    case h_1 hidle =>
      obtain ⟨⟨deliveries, leased⟩, hlease, rfl⟩ := Option.map_eq_some_iff.mp h
      obtain ⟨row, hrow, hdue, hfree, rfl, rfl⟩ := Deliveries.leaseDelivery_eq_some hlease
      exact .lease hidle hrow hdue hfree
    case h_2 => cases h
  | visit owner registry maxAttempts now clock context ready =>
    simp only [EventState.step] at h
    split at h
    case h_1 lease hphase =>
      obtain rfl := Option.some.inj h
      exact .visit hphase
    case h_2 => cases h
  | handlerReturns owner now conflict =>
    simp only [EventState.step] at h
    split at h
    case h_1 lease round hphase =>
      obtain rfl := Option.some.inj h
      exact .handlerReturns hphase
    case h_2 => cases h
  | handlerRaises owner error =>
    simp only [EventState.step] at h
    split at h
    case h_1 lease round hphase =>
      obtain rfl := Option.some.inj h
      cases error with
      | none => exact .move (hphase ▸ .raises)
      | some error => exact .move (hphase ▸ .raises)
    case h_2 => cases h
  | markProcessed owner now =>
    simp only [EventState.step] at h
    split at h
    case h_1 lease hphase =>
      obtain rfl := Option.some.inj h
      exact .finish_or_move (by rw [hphase]; rfl) (hphase ▸ .marked)
        (fun _ => hphase ▸ .markMissed)
    case h_2 => cases h
  | writeFailure owner maxAttempts now jitter =>
    simp only [EventState.step] at h
    split at h
    case h_1 lease failure entered hphase =>
      obtain rfl := Option.some.inj h
      exact .writeFailure hphase
    case h_2 => cases h
  | retry caller key now =>
    obtain ⟨-, h⟩ := Option.ite_none_right_eq_some.mp h
    obtain ⟨deliveries, happly, rfl⟩ := Option.map_eq_some_iff.mp h
    obtain ⟨row, hrow, hfailed, rfl⟩ := Table.updateRow_eq_some.mp happly
    exact .retry hrow (by simpa [DeliveryRow.retryDelivery] using hfailed)
  | skip caller key now note =>
    obtain ⟨-, h⟩ := Option.ite_none_right_eq_some.mp h
    obtain ⟨deliveries, happly, rfl⟩ := Option.map_eq_some_iff.mp h
    obtain ⟨row, hrow, hfailed, rfl⟩ := Table.updateRow_eq_some.mp happly
    exact .skip hrow (by simpa [DeliveryRow.skipDelivery] using hfailed)
  | replay caller consumers consumerId fromPosition now =>
    simp only [EventState.step] at h
    split at h
    case h_1 hsweep hreplayed =>
      obtain rfl := Option.some.inj h
      exact .replay hsweep hreplayed
    case h_2 => cases h
  | beginSweep occurredBefore batchEvents maxBatches =>
    simp only [EventState.step] at h
    split at h
    case h_1 hsweep =>
      obtain rfl := Option.some.inj h
      exact .beginSweep hsweep
    case h_2 => cases h
  | sweepNext =>
    obtain ⟨sweep', hnext, rfl⟩ := Option.map_eq_some_iff.mp h
    obtain ⟨sweep, hsweep, hnext⟩ := Option.bind_eq_some_iff.mp hnext
    exact .sweepNext hsweep hnext
  | commitSweep =>
    simp only [EventState.step] at h
    split at h
    case h_1 sweep hsweep =>
      split at h
      case h_1 hfinished =>
        obtain rfl := Option.some.inj h
        exact .commitSweep hsweep hfinished
      case h_2 => cases h
    case h_2 => cases h
  | rollbackSweep =>
    obtain ⟨_, -, rfl⟩ := Option.map_eq_some_iff.mp h
    exact .rollbackSweep
  | crash owner =>
    obtain rfl := Option.some.inj h
    exact .move .crash

end Rheostream
