import Mathlib.Data.List.MinMax
import Rheostream.Events.Deliveries

/-!
# The outbox, its fan-out and replay

`events/consumers.py`, `events/publish.py` and `core.work.replay`. The tables of one
workspace's events are the outbox, the deliveries, the ledger of what consumers have
processed, and the retention row.
-/

namespace Rheostream

/-- One consumer's subscription to one event type. -/
structure ConsumerSubscription where
  consumerId : String
  eventType : String
  moduleId : String
  replaySafe : Bool
deriving DecidableEq, Repr

/-- The consumers in registration order, each registered once. -/
structure ConsumerRegistry where
  subscriptions : List ConsumerSubscription
  nodup : (subscriptions.map ConsumerSubscription.consumerId).Nodup

namespace ConsumerRegistry

/-- Every subscription to `eventType`. -/
def forType (registry : ConsumerRegistry) (eventType : String) : List ConsumerSubscription :=
  registry.subscriptions.filter fun subscription => subscription.eventType = eventType

/-- The subscription for a consumer, or the text of `ConsumerUnknown`. -/
def lookup (registry : ConsumerRegistry) (consumerId : String) :
    Except String ConsumerSubscription :=
  match registry.subscriptions.find? fun subscription => subscription.consumerId = consumerId with
  | none => .error ("no subscription is registered for '" ++ consumerId ++ "'")
  | some subscription => .ok subscription

end ConsumerRegistry

/-- True for the segment reserved for core-owned records. -/
def isReservedModule (moduleId : String) : Bool := moduleId = "core"

/-- A `core.outbox_event` row, less its key. -/
structure OutboxRow where
  type : String
  subjectRef : String
  position : ℕ
  occurredAt : ℕ
deriving DecidableEq, Repr

/-- A workspace's outbox. -/
abbrev Outbox := Table Uuid OutboxRow

/-- What the transaction of a publish holds until it commits: the outbox row and its fan-out. -/
structure Publication where
  row : OutboxRow
  deliveries : List (DeliveryKey × DeliveryRow)

/-- Write one outbox row, under the position the sequence gave it, and fan it out to every
subscribed consumer of the core or of a module that is enabled at this moment. -/
def publish (registry : ConsumerRegistry) (enabledModules : List String) (id : Uuid)
    (type subjectRef : String) (position now : ℕ) : Publication where
  row := ⟨type, subjectRef, position, now⟩
  deliveries := ((registry.forType type).filter fun subscription =>
      isReservedModule subscription.moduleId ||
        enabledModules.contains subscription.moduleId).map fun subscription =>
    ((id, subscription.consumerId), .fresh subjectRef position now)

/-- A fan-out is of its own event, and its rows are fresh. -/
theorem lookup_publish_deliveries {registry : ConsumerRegistry} {enabledModules : List String}
    {id : Uuid} {type subjectRef : String} {position now : ℕ} {key : DeliveryKey}
    {row : DeliveryRow}
    (h : Table.rowOf (publish registry enabledModules id type subjectRef position now).deliveries
      key = some row) :
    key.1 = id ∧ row = .fresh subjectRef position now := by
  obtain ⟨subscription, -, heq⟩ := List.mem_map.mp (Table.mem_of_rowOf h)
  simp only [Prod.mk.injEq] at heq
  exact ⟨by simp [← heq.1], heq.2.symm⟩

/-- The committed tables: `outbox_event`, `event_delivery`, `consumer_processed` with its
`processed_at`, and the one row of `outbox_retention`. -/
structure EventTables where
  outbox : Outbox
  deliveries : Deliveries
  processed : Table DeliveryKey ℕ
  sweptThrough : Option ℕ

namespace EventTables

/-- A publish commits: the event and its fan-out become visible together. -/
def commit (tables : EventTables) (id : Uuid) (publication : Publication) : EventTables :=
  { tables with
    outbox := tables.outbox.insert id publication.row
    deliveries := tables.deliveries.insertMissing publication.deliveries }

/-- The smallest position still in the outbox. -/
def oldestRetainedPosition (tables : EventTables) : Option ℕ :=
  (tables.outbox.entries.map fun e => e.2.position).min?

/-- The earliest position a replay can start from. -/
def earliestReplayable (tables : EventTables) : Option ℕ :=
  tables.oldestRetainedPosition.map fun oldest =>
    match tables.sweptThrough with
    | none => oldest
    | some swept => max oldest (swept + 1)

/-- Whether an event is retained, of the type, and at or after the position. -/
def replayable (tables : EventTables) (eventType : String) (fromPosition : ℕ) (id : Uuid) : Bool :=
  (tables.outbox.lookup id).any fun row => row.type = eventType && fromPosition ≤ row.position

theorem replayable_iff {tables : EventTables} {eventType : String} {fromPosition : ℕ} {id : Uuid} :
    tables.replayable eventType fromPosition id = true ↔
      ∃ row, tables.outbox.lookup id = some row ∧ row.type = eventType ∧
        fromPosition ≤ row.position := by
  simp [replayable, Option.any_eq_true]

/-- The delivery of this consumer at or after the position that is leased right now. -/
def inFlight (tables : EventTables) (consumerId : String) (fromPosition : ℕ) : Option Uuid :=
  (tables.deliveries.select fun key row =>
    key.2 = consumerId && fromPosition ≤ row.position && row.state = .leased).keys.head?.map
      Prod.fst

theorem inFlight_eq_none {tables : EventTables} {consumerId : String} {fromPosition : ℕ}
    (h : tables.inFlight consumerId fromPosition = none) {key : DeliveryKey} {row : DeliveryRow}
    (hrow : tables.deliveries.lookup key = some row) (hconsumer : key.2 = consumerId)
    (hposition : fromPosition ≤ row.position) : row.state ≠ .leased := by
  intro hleased
  have hkeys : (tables.deliveries.select fun key row =>
      key.2 = consumerId && fromPosition ≤ row.position && row.state = .leased).keys = [] := by
    simpa [inFlight] using h
  have hsome : (tables.deliveries.select fun key row =>
      key.2 = consumerId && fromPosition ≤ row.position && row.state = .leased).lookup key =
        some row := by
    rw [Table.lookup_select, hrow]
    simp [hconsumer, hposition, hleased]
  have hmem := AList.lookup_isSome.mp (Option.isSome_of_mem hsome)
  rw [AList.mem_keys, hkeys] at hmem
  simp at hmem

/-- The rows a replay inserts: one for each retained event the consumer has none for. -/
def missingDeliveries (tables : EventTables) (consumerId eventType : String)
    (fromPosition now : ℕ) : List (DeliveryKey × DeliveryRow) :=
  (tables.outbox.select fun id row => row.type = eventType && fromPosition ≤ row.position &&
    (tables.deliveries.lookup (id, consumerId)).isNone).rowsAs (·, consumerId) fun row =>
      .fresh row.subjectRef row.position now

/-- Whether a replay puts a row back. -/
def resets (tables : EventTables) (consumerId eventType : String) (fromPosition : ℕ)
    (key : DeliveryKey) (row : DeliveryRow) : Bool :=
  key.2 = consumerId && fromPosition ≤ row.position && row.state.isEnded &&
    tables.replayable eventType fromPosition key.1

/-- Put ended rows back, make the missing ones, and forget that their events were processed. -/
def replayDeliveries (tables : EventTables) (consumerId eventType : String)
    (fromPosition now : ℕ) : EventTables :=
  { tables with
    deliveries := (tables.deliveries.updateAll fun key row =>
      if tables.resets consumerId eventType fromPosition key row then row.replayed now
      else row).insertMissing (tables.missingDeliveries consumerId eventType fromPosition now)
    processed := tables.processed.deleteWhere fun key _ =>
      key.2 = consumerId && tables.replayable eventType fromPosition key.1 }

/-- How many rows a replay puts back, and how many it makes. -/
def replayCounts (tables : EventTables) (consumerId eventType : String)
    (fromPosition now : ℕ) : ℕ × ℕ :=
  ((tables.deliveries.select (tables.resets consumerId eventType fromPosition)).entries.length,
    (tables.missingDeliveries consumerId eventType fromPosition now).length)

variable {tables : EventTables} {consumerId eventType : String} {fromPosition now : ℕ}
  {key : DeliveryKey}

/-- A row that was there is put back or left alone. -/
theorem lookup_replayDeliveries {row : DeliveryRow}
    (hrow : tables.deliveries.lookup key = some row) :
    (tables.replayDeliveries consumerId eventType fromPosition now).deliveries.lookup key =
      some (if tables.resets consumerId eventType fromPosition key row then row.replayed now
        else row) := by
  simp [replayDeliveries, hrow]

/-- A row that was not there is made for a retained event in range, and for no other. -/
theorem lookup_replayDeliveries_missing (hnone : tables.deliveries.lookup key = none) :
    (tables.replayDeliveries consumerId eventType fromPosition now).deliveries.lookup key =
      if key.2 = consumerId then
        ((tables.outbox.lookup key.1).filter fun row =>
          row.type = eventType && fromPosition ≤ row.position).map fun row =>
            .fresh row.subjectRef row.position now
      else none := by
  obtain ⟨id, consumer⟩ := key
  simp only [replayDeliveries, Table.lookup_insertMissing, Table.lookup_updateAll, hnone,
    Option.map_none, Option.none_or]
  by_cases hconsumer : consumer = consumerId
  · subst hconsumer
    have hinj : ∀ a b : Uuid, (a, consumer) = (b, consumer) → a = b :=
      fun a b h => (Prod.mk.inj h).1
    rw [if_pos rfl, missingDeliveries, Table.lookup_rowsAs hinj, Table.lookup_select]
    cases tables.outbox.lookup id <;> simp [hnone, Option.filter]
  · rw [if_neg hconsumer]
    exact Table.lookup_rowsAs_eq_none fun id' h => hconsumer (Prod.mk.inj h).2.symm

@[simp] theorem lookup_replayDeliveries_processed :
    (tables.replayDeliveries consumerId eventType fromPosition now).processed.lookup key =
      if key.2 = consumerId ∧ tables.replayable eventType fromPosition key.1 = true then none
      else tables.processed.lookup key := by
  simp only [replayDeliveries, Table.lookup_deleteWhere]
  cases tables.processed.lookup key with
  | none => simp
  | some row =>
    by_cases hconsumer : key.2 = consumerId <;>
      cases tables.replayable eventType fromPosition key.1 <;> simp [hconsumer]

end EventTables

/-- Why a replay is refused, with what the refusal's detail names. -/
inductive ReplayRefusal where
  | operationNotPermitted (kind : Option String)
  | consumersMissing
  | consumerUnknown (detail : String)
  | replayUnsafe
  | consumerNotEnabled (moduleId : String)
  | replayGap (earliest swept : Option ℕ)
  | deliveryInFlight (event : Uuid)

/-- The refusal's state. -/
def ReplayRefusal.state : ReplayRefusal → String
  | operationNotPermitted _ => "operation_not_permitted"
  | consumersMissing => "consumers_missing"
  | consumerUnknown _ => "consumer_unknown"
  | replayUnsafe => "replay_unsafe"
  | consumerNotEnabled _ => "consumer_not_enabled"
  | replayGap _ _ => "replay_gap"
  | deliveryInFlight _ => "delivery_in_flight"

/-- What a handler reads of its caller: whether a token calls and of which kind, and the
modules enabled in the workspace. -/
structure WorkCaller where
  isToken : Bool
  tokenKind : Option String
  enabledModules : List String

/-- Whether the caller may move a delivery out of `failed`: any person, but of the tokens
only a kind that a person holds. -/
def WorkCaller.isPerson (caller : WorkCaller) : Bool :=
  !caller.isToken || caller.tokenKind = some "cli"

/-- What a replay did. -/
structure ReplayResult where
  consumerId : String
  fromPosition : ℕ
  reset : ℕ
  created : ℕ

/-- An accepted replay: the subscription it read, its answer, and the tables it leaves. -/
structure Replayed where
  subscription : ConsumerSubscription
  result : ReplayResult
  tables : EventTables

/-- `core.work.replay`: the refusals in their order, then the write. -/
def replayHandler (caller : WorkCaller) (consumers : Option ConsumerRegistry)
    (tables : EventTables) (consumerId : String) (fromPosition now : ℕ) :
    Except ReplayRefusal Replayed :=
  if !caller.isPerson then .error (.operationNotPermitted caller.tokenKind)
  else match consumers with
  | none => .error .consumersMissing
  | some registry =>
    match registry.lookup consumerId with
    | .error detail => .error (.consumerUnknown detail)
    | .ok subscription =>
      if !subscription.replaySafe then .error .replayUnsafe
      else if !(isReservedModule subscription.moduleId ||
          caller.enabledModules.contains subscription.moduleId) then
        .error (.consumerNotEnabled subscription.moduleId)
      else if tables.earliestReplayable.all (fromPosition < ·) then
        .error (.replayGap tables.earliestReplayable tables.sweptThrough)
      else match tables.inFlight consumerId fromPosition with
        | some event => .error (.deliveryInFlight event)
        | none =>
          let counts := tables.replayCounts consumerId subscription.eventType fromPosition now
          .ok
            { subscription := subscription
              result := ⟨consumerId, fromPosition, counts.1, counts.2⟩
              tables :=
                tables.replayDeliveries consumerId subscription.eventType fromPosition now }

/-- An accepted replay starts after everything swept, with nothing of its range in flight. -/
theorem replayHandler_eq_ok {caller : WorkCaller} {consumers : Option ConsumerRegistry}
    {tables : EventTables} {consumerId : String} {fromPosition now : ℕ} {replayed : Replayed}
    (h : replayHandler caller consumers tables consumerId fromPosition now = .ok replayed) :
    (∀ swept, tables.sweptThrough = some swept → swept < fromPosition) ∧
      tables.inFlight consumerId fromPosition = none ∧
      replayed.tables = tables.replayDeliveries consumerId replayed.subscription.eventType
        fromPosition now := by
  unfold replayHandler at h
  split at h
  · cases h
  split at h
  · cases h
  split at h
  · cases h
  split at h
  · cases h
  split at h
  · cases h
  split at h
  · cases h
  case isFalse hgap =>
    split at h
    · cases h
    case h_2 hnone =>
      obtain rfl := Except.ok.inj h
      refine ⟨fun swept hswept => ?_, hnone, rfl⟩
      cases holdest : tables.oldestRetainedPosition with
      | none => simp [EventTables.earliestReplayable, holdest] at hgap
      | some oldest =>
        simp only [EventTables.earliestReplayable, holdest, hswept, Option.map_some,
          Option.all_some, decide_eq_true_eq] at hgap
        omega

end Rheostream
