import Rheostream.Work.Jobs

/-!
# Delivery rows and their predicated writes

The `core.event_delivery` row, the ordered lease and the writes of `events/deliveries.py`:
four end a worker's attempt and carry its ownership in their predicate, and two are made by
a person and match only a failed row.
-/

namespace Rheostream

/-- The five members of the `event_delivery_state` check constraint. -/
inductive DeliveryState where
  | pending
  | leased
  | delivered
  | failed
  | skipped
deriving DecidableEq, Repr

/-- The two states that release the head of a queue. They are also the two that retention
deletes. -/
def DeliveryState.isSettled : DeliveryState → Bool
  | delivered | skipped => true
  | pending | leased | failed => false

/-- `delivered`, `failed` or `skipped`: what a replay puts back. -/
def DeliveryState.isEnded : DeliveryState → Bool
  | delivered | failed | skipped => true
  | pending | leased => false

/-- The composite primary key: an event and a consumer. -/
abbrev DeliveryKey := Uuid × String

/-- A `core.event_delivery` row, less its key. -/
structure DeliveryRow where
  subjectRef : String
  position : ℕ
  state : DeliveryState
  attempts : ℤ
  nextAttemptAt : ℕ
  leaseOwner : Option Uuid
  leaseUntil : Option ℕ
  lastError : Option String
  completedAt : Option ℕ
deriving DecidableEq, Repr

/-- A workspace's deliveries. -/
abbrev Deliveries := Table DeliveryKey DeliveryRow

/-- The row `lease_delivery` just took, as the worker needs to see it. -/
structure LeasedDelivery where
  eventId : Uuid
  consumerId : String
  subjectRef : String
  position : ℕ
  attempts : ℤ
deriving DecidableEq, Repr

/-- The key of the row a lease is of. -/
def LeasedDelivery.key (leased : LeasedDelivery) : DeliveryKey :=
  (leased.eventId, leased.consumerId)

/-- What a skipped row's `lastError` starts with. -/
def skipNotePrefix : String := "skipped: "

/-- The separator before the error the row failed with. -/
def skipPreviousError : String := "\nlast error: "

namespace DeliveryRow

/-- The row a fan-out or a replay inserts. -/
def fresh (subjectRef : String) (position now : ℕ) : DeliveryRow where
  subjectRef := subjectRef
  position := position
  state := .pending
  attempts := 0
  nextAttemptAt := now
  leaseOwner := none
  leaseUntil := none
  lastError := none
  completedAt := none

/-- What the leasing statement returns of the row it wrote. -/
def toLeased (key : DeliveryKey) (row : DeliveryRow) : LeasedDelivery where
  eventId := key.1
  consumerId := key.2
  subjectRef := row.subjectRef
  position := row.position
  attempts := row.attempts

@[simp] theorem toLeased_key (key : DeliveryKey) (row : DeliveryRow) :
    (row.toLeased key).key = key := rfl

/-- The predicate every write that ends an attempt shares. -/
def isHeld (owner : Uuid) (row : DeliveryRow) : Bool :=
  row.leaseOwner = some owner && row.state = .leased

theorem isHeld_iff {owner : Uuid} {row : DeliveryRow} :
    row.isHeld owner = true ↔ row.leaseOwner = some owner ∧ row.state = .leased := by
  simp [isHeld]

/-- Pending and due, or under a lease that has run out. -/
def isDue (now : ℕ) (row : DeliveryRow) : Bool :=
  (row.state = .pending && row.nextAttemptAt ≤ now) ||
    (row.state = .leased && row.leaseUntil.any (· < now))

/-- A row that is due is pending or leased. -/
theorem isDue_state {now : ℕ} {row : DeliveryRow} (h : row.isDue now = true) :
    row.state = .pending ∨ row.state = .leased := by
  rcases (Bool.or_eq_true _ _).mp h with h | h
  · exact .inl (by simpa using ((Bool.and_eq_true _ _).mp h).1)
  · exact .inr (by simpa using ((Bool.and_eq_true _ _).mp h).1)

/-- The `SET` of the lease, which counts the attempt. The candidate's predicate is `isDue`;
its `NOT EXISTS` is `Deliveries.isBlocked`. -/
def lease (owner : Uuid) (now leaseSeconds : ℕ) : RowUpdate DeliveryRow where
  guard := isDue now
  set row :=
    { row with
      state := .leased
      leaseOwner := some owner
      leaseUntil := some (now + seconds leaseSeconds)
      attempts := row.attempts + 1 }

/-- End the delivery `delivered`. -/
def markDelivered (owner : Uuid) (now : ℕ) : RowUpdate DeliveryRow where
  guard := isHeld owner
  set row :=
    { row with
      state := .delivered
      completedAt := some now
      leaseOwner := none
      leaseUntil := none
      lastError := none }

/-- Put the delivery back under its backoff, by the count the row holds. -/
def requeueDelivery (owner : Uuid) (now : ℕ) (error : String) (jitter : Option ℕ) :
    RowUpdate DeliveryRow where
  guard := isHeld owner
  set row :=
    { row with
      state := .pending
      nextAttemptAt := now + backoffFor row.attempts jitter
      leaseOwner := none
      leaseUntil := none
      lastError := some error }

/-- Return an unexecuted lease without spending its retry budget. -/
def deferUnreadyDelivery (owner : Uuid) (nextAttemptAt : ℕ) : RowUpdate DeliveryRow where
  guard := isHeld owner
  set row :=
    { row with
      state := .pending
      attempts := row.attempts - 1
      nextAttemptAt := nextAttemptAt
      leaseOwner := none
      leaseUntil := none }

/-- End the delivery `failed` with `error`. -/
def failDelivery (owner : Uuid) (now : ℕ) (error : String) : RowUpdate DeliveryRow where
  guard := isHeld owner
  set row :=
    { row with
      state := .failed
      completedAt := some now
      leaseOwner := none
      leaseUntil := none
      lastError := some error }

/-- Put a failed delivery back with a fresh budget. `lastError` is kept. -/
def retryDelivery (now : ℕ) : RowUpdate DeliveryRow where
  guard row := row.state = .failed
  set row :=
    { row with
      state := .pending
      attempts := 0
      nextAttemptAt := now
      leaseOwner := none
      leaseUntil := none
      completedAt := none }

/-- Release a failed head. The note goes before the error the row failed with. -/
def skipDelivery (now : ℕ) (note : Option String) : RowUpdate DeliveryRow where
  guard row := row.state = .failed
  set row :=
    { row with
      state := .skipped
      completedAt := some now
      leaseOwner := none
      leaseUntil := none
      lastError := match note with
        | none => row.lastError
        | some note => some <| skipNotePrefix ++ note ++
            (row.lastError.map (skipPreviousError ++ ·)).getD "" }

/-- What a replay does to a row that has ended. `lastError` is kept. -/
def replayed (now : ℕ) (row : DeliveryRow) : DeliveryRow :=
  { row with
    state := .pending
    attempts := 0
    nextAttemptAt := now
    leaseOwner := none
    leaseUntil := none
    completedAt := none }

end DeliveryRow

/-- The writes that end a worker's attempt. -/
inductive DeliveryWrite where
  | markDelivered (now : ℕ)
  | requeueDelivery (now : ℕ) (error : String) (jitter : Option ℕ)
  | deferUnreadyDelivery (nextAttemptAt : ℕ)
  | failDelivery (now : ℕ) (error : String)

namespace DeliveryWrite

/-- What a write does to the row it is issued against by its owner. -/
def update (owner : Uuid) : DeliveryWrite → RowUpdate DeliveryRow
  | markDelivered now => DeliveryRow.markDelivered owner now
  | requeueDelivery now error jitter => DeliveryRow.requeueDelivery owner now error jitter
  | deferUnreadyDelivery nextAttemptAt => DeliveryRow.deferUnreadyDelivery owner nextAttemptAt
  | failDelivery now error => DeliveryRow.failDelivery owner now error

/-- The row a write leaves. -/
abbrev set (owner : Uuid) (w : DeliveryWrite) : DeliveryRow → DeliveryRow := (w.update owner).set

variable {owner : Uuid} {row : DeliveryRow}

/-- Every one of them carries the ownership half. -/
@[simp] theorem guard_eq (w : DeliveryWrite) :
    (w.update owner).guard = DeliveryRow.isHeld owner := by
  cases w <;> rfl

/-- No write moves a delivery to another place in the order. -/
@[simp] theorem set_subjectRef (w : DeliveryWrite) :
    (w.set owner row).subjectRef = row.subjectRef := by
  cases w <;> rfl

@[simp] theorem set_position (w : DeliveryWrite) : (w.set owner row).position = row.position := by
  cases w <;> rfl

/-- Every one of them gives the lease up. -/
theorem set_state_ne (w : DeliveryWrite) :
    (w.set owner row).state ≠ .leased ∧ (w.set owner row).state ≠ .skipped := by
  cases w <;> exact ⟨nofun, nofun⟩

end DeliveryWrite

namespace Deliveries

/-- The `NOT EXISTS` of the lease, negated: an earlier delivery of the same consumer and
subject is neither delivered nor skipped. -/
def isBlocked (deliveries : Deliveries) (key : DeliveryKey) (candidate : DeliveryRow) : Bool :=
  deliveries.existsRow fun key' earlier =>
    key'.2 = key.2 && earlier.subjectRef = candidate.subjectRef &&
      earlier.position < candidate.position && !earlier.state.isSettled

theorem isBlocked_eq_false {deliveries : Deliveries} {key : DeliveryKey} {candidate : DeliveryRow} :
    deliveries.isBlocked key candidate = false ↔
      ∀ key' earlier, deliveries.lookup key' = some earlier → key'.2 = key.2 →
        earlier.subjectRef = candidate.subjectRef → earlier.position < candidate.position →
        earlier.state.isSettled = true := by
  simp only [isBlocked, Table.existsRow_eq_false, Bool.and_eq_false_iff, decide_eq_false_iff_not,
    Bool.not_eq_false']
  refine forall₂_congr fun key' earlier =>
    ⟨fun h hrow hkey hsubject hposition => ?_, fun h hrow => ?_⟩
  · have := h hrow
    simp only [hkey, hsubject, hposition, not_true_eq_false, false_or] at this
    exact this
  · by_cases hkey : key'.2 = key.2 <;>
      by_cases hsubject : earlier.subjectRef = candidate.subjectRef <;>
        by_cases hposition : earlier.position < candidate.position <;> simp_all

/-- Lease the row under `key`, when it is a candidate. Which candidate a worker gets depends
on the rows that others have locked at that moment. -/
def leaseDelivery (deliveries : Deliveries) (key : DeliveryKey) (owner : Uuid)
    (now leaseSeconds : ℕ) : Option (Deliveries × LeasedDelivery) :=
  match deliveries.lookup key with
  | none => none
  | some row =>
    if deliveries.isBlocked key row then none
    else (deliveries.updateRow key (DeliveryRow.lease owner now leaseSeconds)).map fun deliveries =>
      (deliveries, ((DeliveryRow.lease owner now leaseSeconds).set row).toLeased key)

/-- A lease takes a row that is due and that no earlier unsettled row blocks. -/
theorem leaseDelivery_eq_some {deliveries deliveries' : Deliveries} {key : DeliveryKey}
    {owner : Uuid} {now leaseSeconds : ℕ} {leased : LeasedDelivery}
    (h : deliveries.leaseDelivery key owner now leaseSeconds = some (deliveries', leased)) :
    ∃ row, deliveries.lookup key = some row ∧ row.isDue now = true ∧
      deliveries.isBlocked key row = false ∧
      deliveries' = deliveries.insert key ((DeliveryRow.lease owner now leaseSeconds).set row) ∧
      leased = ((DeliveryRow.lease owner now leaseSeconds).set row).toLeased key := by
  unfold leaseDelivery at h
  cases hrow : deliveries.lookup key with
  | none => simp [hrow] at h
  | some row =>
    simp only [hrow, Option.ite_none_left_eq_some, Option.map_eq_some_iff, Prod.mk.injEq,
      Bool.not_eq_true] at h
    obtain ⟨hblocked, _, hupdate, rfl, rfl⟩ := h
    obtain ⟨row', hrow', hdue, rfl⟩ := Table.updateRow_eq_some.mp hupdate
    obtain rfl := Option.some.inj (hrow.symm.trans hrow')
    exact ⟨row, rfl, hdue, hblocked, rfl, rfl⟩

end Deliveries

end Rheostream
