import Rheostream.Events.Retention
import Rheostream.Work.Loop

/-!
# The delivery half of the worker loop

Publishers, workers, people and one sweep at a time over one workspace's event tables, as a
machine. A publish allocates its position when it inserts and becomes visible when it
commits, which may be in another order. A worker is named by the owner it leases under, and
each of its actions is one committed transaction or one thing that happens to a handler. The
registry a process holds, the `work.max_attempts` setting and the clock are read afresh by
every action that reads them.
-/

namespace Rheostream

/-- Where a leased delivery goes before its transaction is opened. -/
inductive DeliveryGate where
  | exhausted
  | unknown (error : String)
  | run

/-- The pre-handler budget gate, then the subscription. -/
def runLeasedDelivery (registry : ConsumerRegistry) (leased : LeasedDelivery)
    (maxAttempts : ℕ) : DeliveryGate :=
  if leased.attempts > maxAttempts then .exhausted
  else match registry.lookup leased.consumerId with
    | .error error => .unknown error
    | .ok _ => .run

/-- A lease in a worker's hand. The generation, a ghost, is how often the row had started
over when the lease was taken. -/
structure Lease where
  delivery : LeasedDelivery
  generation : ℕ

/-- The row the lease is of. -/
abbrev Lease.key (lease : Lease) : DeliveryKey := lease.delivery.key

/-- Why a delivery's transaction was rolled back. -/
inductive DeliveryFailure where
  | missing
  | notReady
  | raised (error : String)

/-- Where a worker stands between two transactions. -/
inductive DeliveryPhase where
  /-- Holding nothing in hand. A lease it took earlier may still name it. -/
  | idle
  /-- Leased, before the gate. -/
  | leased (lease : Lease)
  /-- Its transaction found the event processed and is about to mark the row. -/
  | alreadyProcessed (lease : Lease)
  /-- Inside the handler, in the given round of replays of the row. -/
  | running (lease : Lease) (round : ℕ)
  /-- Rolled back; `entered` says whether the handler was reached. -/
  | failing (lease : Lease) (failure : DeliveryFailure) (entered : Bool)

/-- The lease a worker has in hand. -/
def DeliveryPhase.lease? : DeliveryPhase → Option Lease
  | idle => none
  | leased lease | alreadyProcessed lease | running lease _ | failing lease _ _ => some lease

/-- A commit of a handler's effects: the row it was for, the rounds of replays in which the
handler was entered and the effects committed, and how often the consumer had been replayed. -/
structure DeliveryEffect where
  key : DeliveryKey
  subjectRef : String
  position : ℕ
  enteredRound : ℕ
  round : ℕ
  replays : ℕ
deriving DecidableEq, Repr

/-- What the history of a run records of its handlers. -/
inductive DeliveryEvent where
  /-- The handler was entered on this attempt. -/
  | entered (key : DeliveryKey) (generation : ℕ) (attempt : ℤ)
  /-- That entry ended in a deferral of an unready module. -/
  | deferred (key : DeliveryKey) (generation : ℕ) (attempt : ℤ)
deriving DecidableEq

/-- One workspace's events. The sequence is the last position given out; the publications are
those that have not committed. From `published` on the fields are ghosts: every event that
ever committed, the effects with the latest first, the entries, how often each row was made
or started over, how often a replay covered each row, and how often each consumer was
replayed. -/
structure EventState where
  sequence : ℕ
  publishing : Table Uuid Publication
  tables : EventTables
  sweep : Option Sweep
  workers : Uuid → DeliveryPhase
  published : Table Uuid OutboxRow
  effects : List DeliveryEffect
  history : List DeliveryEvent
  generation : DeliveryKey → ℕ
  round : DeliveryKey → ℕ
  replays : String → ℕ

/-- One step of the system. -/
inductive EventAction where
  /-- The insert of a publish, which takes its position. -/
  | publish (registry : ConsumerRegistry) (enabledModules : List String) (id : Uuid)
      (type subjectRef : String) (now : ℕ)
  | commitPublish (id : Uuid)
  | abortPublish (id : Uuid)
  | lease (owner : Uuid) (key : DeliveryKey) (now : ℕ)
  /-- The gate and what it leads to. `context` is the state of a refused consumer context, and
  `ready` what `require_ready` answers. -/
  | visit (owner : Uuid) (registry : ConsumerRegistry) (maxAttempts now clock : ℕ)
      (context : Option String) (ready : Bool)
  /-- The handler returns. `conflict` is the text of the ledger's integrity error, should the
  ledger refuse. -/
  | handlerReturns (owner : Uuid) (now : ℕ) (conflict : String)
  /-- The handler raises; `none` is `ModuleNotReady`. -/
  | handlerRaises (owner : Uuid) (error : Option String)
  /-- The row of an event that was found processed is marked. -/
  | markProcessed (owner : Uuid) (now : ℕ)
  | writeFailure (owner : Uuid) (maxAttempts now : ℕ) (jitter : Option ℕ)
  | retry (caller : WorkCaller) (key : DeliveryKey) (now : ℕ)
  | skip (caller : WorkCaller) (key : DeliveryKey) (now : ℕ) (note : Option String)
  | replay (caller : WorkCaller) (consumers : Option ConsumerRegistry) (consumerId : String)
      (fromPosition now : ℕ)
  | beginSweep (occurredBefore batchEvents maxBatches : ℕ)
  | sweepNext
  | commitSweep
  /-- The sweep's checkpoint raises, or its transaction fails or is cut off. -/
  | rollbackSweep
  /-- The worker dies, or its visit ends by an exception, between two transactions. -/
  | crash (owner : Uuid)

/-- One more on every key of a kind. -/
def bump (count : DeliveryKey → ℕ) (p : DeliveryKey → Bool) : DeliveryKey → ℕ :=
  fun key => if p key then count key + 1 else count key

namespace EventState

/-- The worker's next phase. -/
def goto (s : EventState) (owner : Uuid) (phase : DeliveryPhase) : EventState :=
  { s with workers := Function.update s.workers owner phase }

/-- One write of a delivery row in a transaction of its own. A write that matches nothing is
the end of the attempt too: the row belongs to whoever holds it. -/
def finish (s : EventState) (owner : Uuid) (lease : Lease) (write : DeliveryWrite)
    (events : List DeliveryEvent) : EventState :=
  match s.tables.deliveries.updateRow lease.key (write.update owner) with
  | none => s.goto owner .idle
  | some deliveries =>
    { s.goto owner .idle with
      tables := { s.tables with deliveries := deliveries }
      history := events ++ s.history }

/-- The visit of a leased delivery, up to its first write or its handler. -/
def visit (s : EventState) (owner : Uuid) (lease : Lease) (registry : ConsumerRegistry)
    (maxAttempts now clock : ℕ) (context : Option String) (ready : Bool) : EventState :=
  match runLeasedDelivery registry lease.delivery maxAttempts with
  | .exhausted => s.finish owner lease (.failDelivery now retryBudgetExhausted) []
  | .unknown error =>
    if ready then s.finish owner lease (.failDelivery now error) []
    else s.finish owner lease (.deferUnreadyDelivery (clock + seconds deferSeconds)) []
  | .run =>
    if (s.tables.processed.lookup lease.key).isSome then s.goto owner (.alreadyProcessed lease)
    else match s.tables.outbox.lookup lease.key.1 with
      | none => s.goto owner (.failing lease .missing false)
      | some _ =>
        match context with
        | some state =>
          s.goto owner (.failing lease (.raised ("consumer context refused: " ++ state)) false)
        | none =>
          if ready then
            { s.goto owner (.running lease (s.round lease.key)) with
              history := .entered lease.key lease.generation lease.delivery.attempts ::
                s.history }
          else s.goto owner (.failing lease .notReady false)

/-- The text of `_EventMissing`, given the event's and the consumer's as Python prints them. -/
def eventMissing (event consumer : String) : String :=
  "event " ++ event ++ " has no outbox row, so the delivery to " ++ consumer ++
    " cannot be built"

/-- The write after a transaction that was rolled back. -/
def writeFailure (s : EventState) (owner : Uuid) (lease : Lease) (failure : DeliveryFailure)
    (entered : Bool) (maxAttempts now : ℕ) (jitter : Option ℕ) : EventState :=
  match failure with
  | .missing => s.finish owner lease (.failDelivery now
      (eventMissing (toString lease.delivery.eventId) ("'" ++ lease.delivery.consumerId ++ "'"))) []
  | .notReady => s.finish owner lease (.deferUnreadyDelivery (now + seconds deferSeconds))
      (if entered then [.deferred lease.key lease.generation lease.delivery.attempts] else [])
  | .raised error =>
    if lease.delivery.attempts ≥ maxAttempts then
      s.finish owner lease (.failDelivery now error) []
    else s.finish owner lease (.requeueDelivery now error jitter) []

/-- The end of the handler's transaction: the ledger row, the `delivered` write and the
effects commit together, or none of them. -/
def handlerReturns (s : EventState) (owner : Uuid) (lease : Lease) (round now : ℕ)
    (conflict : String) : EventState :=
  if (s.tables.processed.lookup lease.key).isSome then
    s.goto owner (.failing lease (.raised conflict) true)
  else match s.tables.deliveries.updateRow lease.key (DeliveryRow.markDelivered owner now) with
    | none => s.goto owner .idle
    | some deliveries =>
      { s.goto owner .idle with
        tables := { s.tables with
          deliveries := deliveries
          processed := s.tables.processed.insert lease.key now }
        effects :=
          { key := lease.key
            subjectRef := lease.delivery.subjectRef
            position := lease.delivery.position
            enteredRound := round
            round := s.round lease.key
            replays := s.replays lease.key.2 } :: s.effects }

/-- A replay and what its ghosts count: the rows it makes or puts back start over, and the
rows of every event it covers enter a new round. -/
def replay (s : EventState) (consumerId : String) (fromPosition : ℕ) (replayed : Replayed) :
    EventState :=
  { s with
    tables := replayed.tables
    generation := bump s.generation fun key =>
      match s.tables.deliveries.lookup key with
      | some row =>
        s.tables.resets consumerId replayed.subscription.eventType fromPosition key row
      | none => key.2 = consumerId &&
          s.tables.replayable replayed.subscription.eventType fromPosition key.1
    round := bump s.round fun key => key.2 = consumerId &&
      s.tables.replayable replayed.subscription.eventType fromPosition key.1
    replays := Function.update s.replays consumerId (s.replays consumerId + 1) }

/-- One step under one action; `none` when the action is not enabled, or is refused. -/
def step (s : EventState) : EventAction → Option EventState
  | .publish registry enabledModules id type subjectRef now =>
    if (s.published.lookup id).isNone && (s.publishing.lookup id).isNone then
      some { s with
        sequence := s.sequence + 1
        publishing := s.publishing.insert id
          (Rheostream.publish registry enabledModules id type subjectRef (s.sequence + 1) now) }
    else none
  | .commitPublish id =>
    (s.publishing.lookup id).map fun publication =>
      { s with
        publishing := s.publishing.erase id
        tables := s.tables.commit id publication
        published := s.published.insert id publication.row
        generation := bump s.generation fun key =>
          (Table.rowOf publication.deliveries key).isSome }
  | .abortPublish id =>
    (s.publishing.lookup id).map fun _ => { s with publishing := s.publishing.erase id }
  | .lease owner key now =>
    match s.workers owner with
    | .idle =>
      (s.tables.deliveries.leaseDelivery key owner now leaseSeconds).map fun leased =>
        { s.goto owner (.leased ⟨leased.2, s.generation key⟩) with
          tables := { s.tables with deliveries := leased.1 } }
    | _ => none
  | .visit owner registry maxAttempts now clock context ready =>
    match s.workers owner with
    | .leased lease =>
      some (s.visit owner lease registry maxAttempts now clock context ready)
    | _ => none
  | .handlerReturns owner now conflict =>
    match s.workers owner with
    | .running lease round => some (s.handlerReturns owner lease round now conflict)
    | _ => none
  | .handlerRaises owner error =>
    match s.workers owner with
    | .running lease _ => some <| s.goto owner <|
        match error with
        | none => .failing lease .notReady true
        | some error => .failing lease (.raised error) true
    | _ => none
  | .markProcessed owner now =>
    match s.workers owner with
    | .alreadyProcessed lease => some (s.finish owner lease (.markDelivered now) [])
    | _ => none
  | .writeFailure owner maxAttempts now jitter =>
    match s.workers owner with
    | .failing lease failure entered =>
      some (s.writeFailure owner lease failure entered maxAttempts now jitter)
    | _ => none
  | .retry caller key now =>
    if caller.isPerson then
      (s.tables.deliveries.updateRow key (DeliveryRow.retryDelivery now)).map fun deliveries =>
        { s with
          tables := { s.tables with deliveries := deliveries }
          generation := bump s.generation fun other => other = key }
    else none
  | .skip caller key now note =>
    if caller.isPerson then
      (s.tables.deliveries.updateRow key (DeliveryRow.skipDelivery now note)).map fun deliveries =>
        { s with tables := { s.tables with deliveries := deliveries } }
    else none
  | .replay caller consumers consumerId fromPosition now =>
    match s.sweep, replayHandler caller consumers s.tables consumerId fromPosition now with
    | none, .ok replayed => some (s.replay consumerId fromPosition replayed)
    | _, _ => none
  | .beginSweep occurredBefore batchEvents maxBatches =>
    match s.sweep with
    | none => some { s with
        sweep := some (.start s.tables occurredBefore batchEvents maxBatches) }
    | some _ => none
  | .sweepNext =>
    (s.sweep.bind fun sweep => sweep.next s.tables).map fun sweep =>
      { s with sweep := some sweep }
  | .commitSweep =>
    match s.sweep with
    | some sweep =>
      match sweep.stage with
      | .finished => some { s with
          sweep := none
          tables := sweep.commit s.tables
          generation := bump s.generation fun key => sweep.deletedIds.contains key.1 }
      | _ => none
    | none => none
  | .rollbackSweep => s.sweep.map fun _ => { s with sweep := none }
  | .crash owner => some (s.goto owner .idle)

end EventState

/-- An empty database, with every worker idle. -/
def emptyEvents : EventState :=
  ⟨0, ∅, ⟨∅, ∅, ∅, none⟩, none, fun _ => .idle, ∅, [], [], fun _ => 0, fun _ => 0, fun _ => 0⟩

/-- One workspace's events. -/
def eventLoop : Machine EventState EventAction where
  init s := s = emptyEvents
  step := EventState.step

end Rheostream
