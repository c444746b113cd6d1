import Rheostream.Events.Horizon

/-!
# Consumer effects are committed exactly once

The ledger row, the effects and the `delivered` write commit together, and the ledger row is
there exactly while the delivery is delivered. A replay begins a new round of every row it
covers: within one round a handler's effects commit at most once, and a delivered row has
effects whose handler was entered in the current round.
-/

namespace Rheostream

/-- How often the effects of one row's handler committed in one round. -/
def EventState.effectsIn (s : EventState) (key : DeliveryKey) (round : ℕ) : ℕ :=
  s.effects.countP fun effect => effect.key = key ∧ effect.round = round

/-- The worker whose own step an action is, but for its taking of a lease. -/
def EventAction.worker? : EventAction → Option Uuid
  | .visit owner _ _ _ _ _ _ | .handlerReturns owner _ _ | .handlerRaises owner _
  | .markProcessed owner _ | .writeFailure owner _ _ _ | .crash owner => some owner
  | _ => none

/-- What a worker whose lease stands is up to: it entered its handler, if at all, in this
round, and it did not find the event processed. -/
def DeliveryPhase.Current (round : ℕ) : DeliveryPhase → Prop
  | .running _ entered => entered = round
  | .alreadyProcessed _ => False
  | .idle | .leased _ | .failing _ _ _ => True

/-- A worker whose lease stands knows the row as it is. -/
def HeldOk (s : EventState) : Prop :=
  ∀ owner lease row, (s.workers owner).lease? = some lease →
    s.tables.deliveries.lookup lease.key = some row → row.isHeld owner = true →
    lease.generation = s.generation lease.key ∧ lease.delivery = row.toLeased lease.key ∧
      (s.workers owner).Current (s.round lease.key)

/-- The ledger names the delivered rows. -/
def LedgerOk (s : EventState) : Prop :=
  ∀ key, (s.tables.processed.lookup key).isSome = true ↔
    ∃ row, s.tables.deliveries.lookup key = some row ∧ row.state = .delivered

/-- The effects agree with the rows. -/
structure EffectsOk (s : EventState) : Prop where
  once : ∀ key round, s.effectsIn key round ≤ 1
  past : ∀ effect ∈ s.effects, effect.round ≤ s.round effect.key
  known : ∀ effect ∈ s.effects, ∃ event, s.published.lookup effect.key.1 = some event
  undelivered : ∀ key row, s.tables.deliveries.lookup key = some row → row.state ≠ .delivered →
    ∀ effect ∈ s.effects, effect.key = key → effect.round ≠ s.round key
  delivered : ∀ key row, s.tables.deliveries.lookup key = some row → row.state = .delivered →
    ∃ effect ∈ s.effects, effect.key = key ∧ effect.enteredRound = s.round key ∧
      effect.round = s.round key

section Steps

variable {s t : EventState} {a : EventAction}

variable {row : DeliveryRow} {owner : Uuid}

/-- A row that is not leased is held by nobody. -/
private theorem not_held (h : row.state ≠ .leased) : row.isHeld owner = false := by
  by_contra hheld
  exact h (DeliveryRow.isHeld_iff.mp (by simpa using hheld)).2

variable {lease : Lease}

/-- What a standing lease says is kept when the row, its counts and its worker are. -/
private theorem HeldOk.of_same (h : HeldOk s) (hlease : (s.workers owner).lease? = some lease)
    (hrow : s.tables.deliveries.lookup lease.key = some row) (hheld : row.isHeld owner = true)
    (hworker : t.workers owner = s.workers owner)
    (hgeneration : t.generation lease.key = s.generation lease.key)
    (hround : t.round lease.key = s.round lease.key) :
    lease.generation = t.generation lease.key ∧ lease.delivery = row.toLeased lease.key ∧
      (t.workers owner).Current (t.round lease.key) := by
  rw [hworker, hgeneration, hround]
  exact h owner lease row hlease hrow hheld

variable {key : DeliveryKey} {row' : DeliveryRow}

/-- A write that leaves one row unleased, and every other row and count as it was. -/
private theorem HeldOk.release (h : HeldOk s) (hstate : row'.state ≠ .leased)
    (hrows : ∀ other, t.tables.deliveries.lookup other = if other =
      key then some row' else s.tables.deliveries.lookup other)
    (hworkers : ∀ owner, t.workers owner = s.workers owner ∨ t.workers owner = .idle)
    (hgeneration : ∀ other, other ≠ key → t.generation other = s.generation other)
    (hround : t.round = s.round) : HeldOk t := by
  intro owner lease row hlease hrow hheld
  rw [hrows] at hrow
  split at hrow
  · obtain rfl := Option.some.inj hrow
    simp [not_held hstate] at hheld
  case isFalse hne =>
    rcases hworkers owner with hworker | hidle
    · rw [hworker] at hlease
      exact h.of_same hlease hrow hheld hworker (hgeneration _ hne) (by rw [hround])
    · rw [hidle] at hlease
      cases hlease

private theorem workers_release {other : Uuid} :
    Function.update s.workers owner .idle other = s.workers other ∨
      Function.update s.workers owner .idle other = .idle := by
  by_cases h : other = owner
  · subst h
    exact .inr (Function.update_self _ _ _)
  · exact .inl (Function.update_of_ne h _ _)

variable {consumerId : String} {fromPosition : ℕ}

/-- A replay puts back the rows it covers that have ended, and no others. -/
private theorem resets_iff (hok : TablesOk s) {eventType : String}
    (hrow : s.tables.deliveries.lookup key = some row) :
    s.tables.resets consumerId eventType fromPosition key row = true ↔
      (key.2 = consumerId ∧ s.tables.replayable eventType fromPosition key.1 = true) ∧
        row.state.isEnded = true := by
  obtain ⟨event, hevent, -, hat⟩ := hok.delivery key row hrow
  simp only [EventTables.resets, Bool.and_eq_true, decide_eq_true_eq]
  constructor
  · rintro ⟨⟨⟨hconsumer, -⟩, hended⟩, hreplayable⟩
    exact ⟨⟨hconsumer, hreplayable⟩, hended⟩
  · rintro ⟨⟨hconsumer, hreplayable⟩, hended⟩
    obtain ⟨event', hevent', -, hfrom⟩ := EventTables.replayable_iff.mp hreplayable
    obtain rfl := Option.some.inj (hevent.symm.trans hevent')
    exact ⟨⟨⟨hconsumer, hat ▸ hfrom⟩, hended⟩, hreplayable⟩

/-- A lease that stands after an acceptable replay is of a row the replay did not cover. -/
private theorem uncovered (hok : TablesOk s) (eventType : String)
    (hidle : s.tables.inFlight consumerId fromPosition = none)
    (hrow : s.tables.deliveries.lookup key = some row) (hleased : row.state = .leased) :
    (key.2 = consumerId && s.tables.replayable eventType fromPosition key.1) = false := by
  by_contra hcovered
  simp only [Bool.not_eq_false, Bool.and_eq_true, decide_eq_true_eq] at hcovered
  obtain ⟨hconsumer, hreplayable⟩ := hcovered
  obtain ⟨event, hevent, -, hfrom⟩ := EventTables.replayable_iff.mp hreplayable
  obtain ⟨event', hevent', -, hat⟩ := hok.delivery key row hrow
  obtain rfl := Option.some.inj (hevent.symm.trans hevent')
  exact EventTables.inFlight_eq_none hidle hrow hconsumer (hat ▸ hfrom) hleased

variable {now : ℕ}

private theorem HeldOk.replay (h : HeldOk s) (hok : TablesOk s) {replayed : Replayed}
    (hidle : s.tables.inFlight consumerId fromPosition = none)
    (htables : replayed.tables = s.tables.replayDeliveries consumerId
      replayed.subscription.eventType fromPosition now)
    : HeldOk (s.replay consumerId fromPosition replayed) := by
  intro owner lease row hlease hrow hheld
  have hleased := (DeliveryRow.isHeld_iff.mp hheld).2
  change replayed.tables.deliveries.lookup lease.key = some row at hrow
  rw [htables] at hrow
  cases hold : s.tables.deliveries.lookup lease.key with
  | none =>
    rw [EventTables.lookup_replayDeliveries_missing hold] at hrow
    obtain ⟨-, hrow⟩ := Option.ite_none_right_eq_some.mp hrow
    obtain ⟨event, -, rfl⟩ := Option.map_eq_some_iff.mp hrow
    cases hleased
  | some old =>
    rw [EventTables.lookup_replayDeliveries hold] at hrow
    split at hrow
    · obtain rfl := Option.some.inj hrow
      cases hleased
    case isFalse hkept =>
      obtain rfl := Option.some.inj hrow
      have hcovered := uncovered hok replayed.subscription.eventType hidle hold hleased
      refine h.of_same hlease hold hheld rfl ?_ ?_
      · simp [EventState.replay, bump, hold, hkept]
      · simp only [EventState.replay, bump, hcovered]
        simp

theorem HeldOk.step (h : HeldOk s) (hok : TablesOk s) (hledger : LedgerOk s)
    (hstep : EventStep s a t) : HeldOk t := by
  cases hstep with
  | publish | abortPublish | beginSweep | sweepNext | rollbackSweep => exact h
  | @commitPublish id publication hpublication =>
    intro owner lease row hlease hrow hheld
    obtain ⟨-, hkeys⟩ := hok.unpublished hpublication
    change (s.tables.deliveries.insertMissing publication.deliveries).lookup lease.key = _ at hrow
    rw [Table.lookup_insertMissing, Option.or_eq_some_iff] at hrow
    rcases hrow with hrow | ⟨-, hnew⟩
    · refine h.of_same hlease hrow hheld rfl ?_ rfl
      have hnone : Table.rowOf publication.deliveries lease.key = none := by
        cases hnew : Table.rowOf publication.deliveries lease.key with
        | none => rfl
        | some new =>
          exact absurd (hok.fanOut id publication hpublication lease.key new hnew).1
            (hkeys lease.key row hrow)
      simp [bump, hnone]
    · obtain ⟨-, now, rfl⟩ := hok.fanOut id publication hpublication lease.key row hnew
      simp [DeliveryRow.isHeld, DeliveryRow.fresh] at hheld
  | @lease owner key now old hidle hold hdue hfree =>
    intro owner' lease row hlease hrow hheld
    change (s.tables.deliveries.insert key _).lookup lease.key = some row at hrow
    rw [Table.lookup_insert] at hrow
    by_cases howner : owner' = owner
    · subst howner
      simp only [Function.update_self] at hlease ⊢
      obtain rfl := Option.some.inj hlease
      simp only [Lease.key, DeliveryRow.toLeased_key, if_true] at hrow
      obtain rfl := Option.some.inj hrow
      exact ⟨rfl, rfl, trivial⟩
    · simp only [Function.update_of_ne howner] at hlease
      split at hrow
      · obtain rfl := Option.some.inj hrow
        obtain ⟨hsame, -⟩ := DeliveryRow.isHeld_iff.mp hheld
        exact absurd (Option.some.inj hsame).symm howner
      · exact h.of_same hlease hrow hheld (Function.update_of_ne howner _ _) rfl rfl
  | @enter owner lease' registry maxAttempts now clock context hphase =>
    intro owner' lease row hlease hrow hheld
    by_cases howner : owner' = owner
    · subst howner
      simp only [Function.update_self] at hlease ⊢
      obtain rfl := Option.some.inj hlease
      obtain ⟨hgeneration, hdelivery, -⟩ := h owner' lease' row (by rw [hphase]; rfl) hrow hheld
      exact ⟨hgeneration, hdelivery, rfl⟩
    · simp only [Function.update_of_ne howner] at hlease
      exact h.of_same hlease hrow hheld (Function.update_of_ne howner _ _) rfl rfl
  | @move _ owner phase hmove =>
    intro owner' lease row hlease hrow hheld
    by_cases howner : owner' = owner
    · subst howner
      simp only [Function.update_self] at hlease ⊢
      generalize hphase : s.workers owner' = before at hmove
      -- The one move whose phase says something of the ledger finds the row delivered.
      have hkeep : before.lease? = some lease → phase.Current (s.round lease.key) →
          lease.generation = s.generation lease.key ∧ lease.delivery = row.toLeased lease.key ∧
            phase.Current (s.round lease.key) := fun hbefore hcurrent => by
        obtain ⟨hgeneration, hdelivery, -⟩ := h owner' lease row (hphase ▸ hbefore) hrow hheld
        exact ⟨hgeneration, hdelivery, hcurrent⟩
      cases hmove with
      | gateMissed | returnMissed | markMissed | outcomeMissed | crash => cases hlease
      | found hprocessed =>
        obtain rfl := Option.some.inj hlease
        obtain ⟨row', hrow', hdelivered⟩ := (hledger _).mp hprocessed
        obtain rfl := Option.some.inj (hrow.symm.trans hrow')
        rw [(DeliveryRow.isHeld_iff.mp hheld).2] at hdelivered
        cases hdelivered
      | missing | refused | unready | conflict | raises => exact hkeep hlease trivial
    · simp only [Function.update_of_ne howner] at hlease
      exact h.of_same hlease hrow hheld (Function.update_of_ne howner _ _) rfl rfl
  | finish =>
    exact h.release (DeliveryWrite.set_state_ne _).1 (fun _ => Table.lookup_insert _ _ _ _)
      (fun _ => workers_release) (fun _ _ => rfl) rfl
  | deliver =>
    exact h.release (by simp [DeliveryRow.markDelivered])
      (fun _ => Table.lookup_insert _ _ _ _) (fun _ => workers_release) (fun _ _ => rfl) rfl
  | retry =>
    exact h.release (by simp [DeliveryRow.retryDelivery])
      (fun _ => Table.lookup_insert _ _ _ _) (fun _ => .inl rfl)
      (fun _ hne => by simp [bump, hne]) rfl
  | skip =>
    exact h.release (by simp [DeliveryRow.skipDelivery])
      (fun _ => Table.lookup_insert _ _ _ _) (fun _ => .inl rfl) (fun _ _ => rfl) rfl
  | replay _ hreplayed =>
    obtain ⟨-, hidle, htables⟩ := replayHandler_eq_ok hreplayed
    exact h.replay hok hidle htables
  | @commitSweep sweep hsweep hfinished =>
    intro owner lease row hlease hrow hheld
    obtain ⟨hrow, hkept⟩ :=
      ((hok.sweep sweep hsweep).lookup_commit_deliveries hfinished lease.key row).mp hrow
    exact h.of_same hlease hrow hheld rfl (by simp [bump, hkept]) rfl

/-- A worker that ends a standing lease without its handler's effects does not deliver. -/
private theorem finish_undelivered (h : HeldOk s) {write : DeliveryWrite}
    {events : List DeliveryEvent} (hlease : (s.workers owner).lease? = some lease)
    (hrow : s.tables.deliveries.lookup lease.key = some row) (hheld : row.isHeld owner = true)
    (hfinish : DeliveryFinish owner a (s.workers owner) write events) :
    (write.set owner row).state ≠ .delivered := by
  obtain ⟨-, -, hcurrent⟩ := h owner lease row hlease hrow hheld
  generalize s.workers owner = phase at hfinish hcurrent
  cases hfinish with
  | marked => exact hcurrent.elim
  | exhausted | unknown | deferUnknown | missing | deferred | failed | requeued => exact nofun

/-- A row that is neither delivered before nor after a write. -/
private theorem LedgerOk.write (h : LedgerOk s) (hrow : s.tables.deliveries.lookup key = some row)
    (hstate : row.state ≠ .delivered) (hstate' : row'.state ≠ .delivered)
    (hrows : ∀ other, t.tables.deliveries.lookup other = if other =
      key then some row' else s.tables.deliveries.lookup other)
    (hprocessed : t.tables.processed = s.tables.processed) : LedgerOk t := by
  intro other
  rw [hprocessed, h other, hrows]
  split
  · subst other
    simp [hrow, hstate, hstate']
  · rfl

theorem LedgerOk.step (h : LedgerOk s) (hok : TablesOk s) (hheld : HeldOk s)
    (hstep : EventStep s a t) : LedgerOk t := by
  cases hstep with
  | publish | abortPublish | enter | move | beginSweep | sweepNext | rollbackSweep => exact h
  | @commitPublish id publication hpublication =>
    intro key
    refine (h key).trans ?_
    change _ ↔ ∃ row, (s.tables.deliveries.insertMissing publication.deliveries).lookup key = _ ∧ _
    simp only [Table.lookup_insertMissing, Option.or_eq_some_iff]
    refine exists_congr fun row => and_congr_left fun hdelivered => ⟨.inl, fun hrow => ?_⟩
    refine hrow.resolve_right fun hnew => ?_
    obtain ⟨-, now, rfl⟩ := hok.fanOut id publication hpublication key row hnew.2
    cases hdelivered
  | lease _ hrow hdue =>
    refine h.write hrow ?_ (by simp [DeliveryRow.lease])
      (fun _ => Table.lookup_insert _ _ _ _) rfl
    rcases DeliveryRow.isDue_state hdue with hstate | hstate <;> simp [hstate]
  | finish hlease hrow howned hfinish =>
    refine h.write hrow ?_ (finish_undelivered hheld hlease hrow howned hfinish)
      (fun _ => Table.lookup_insert _ _ _ _) rfl
    simp [(DeliveryRow.isHeld_iff.mp howned).2]
  | @deliver owner lease round now conflict row hphase hrow howned =>
    intro key
    have hrows := Table.lookup_insert s.tables.deliveries lease.key key
      ((DeliveryRow.markDelivered owner now).set row)
    have hprocessed := Table.lookup_insert s.tables.processed lease.key key now
    simp only [hrows, hprocessed]
    split
    · simp [DeliveryRow.markDelivered]
    · exact h key
  | retry hrow hfailed =>
    exact h.write hrow (by simp [hfailed]) (by simp [DeliveryRow.retryDelivery])
      (fun _ => Table.lookup_insert _ _ _ _) rfl
  | skip hrow hfailed =>
    exact h.write hrow (by simp [hfailed]) (by simp [DeliveryRow.skipDelivery])
      (fun _ => Table.lookup_insert _ _ _ _) rfl
  | @replay caller consumers consumerId fromPosition now replayed hsweep hreplayed =>
    intro key
    obtain ⟨-, hidle, htables⟩ := replayHandler_eq_ok hreplayed
    change (replayed.tables.processed.lookup key).isSome = true ↔
      ∃ row, replayed.tables.deliveries.lookup key = some row ∧ _
    rw [htables, EventTables.lookup_replayDeliveries_processed]
    have hledger := h key
    cases hrow : s.tables.deliveries.lookup key with
    | none =>
      -- A row made by the replay is pending.
      rw [EventTables.lookup_replayDeliveries_missing hrow]
      have hunprocessed : (s.tables.processed.lookup key).isSome = false := by
        simpa [hrow] using hledger
      constructor
      · intro hsome
        split at hsome
        · cases hsome
        · simp [hunprocessed] at hsome
      · rintro ⟨row, hnew, hdelivered⟩
        obtain ⟨-, hnew⟩ := Option.ite_none_right_eq_some.mp hnew
        obtain ⟨event, -, rfl⟩ := Option.map_eq_some_iff.mp hnew
        cases hdelivered
    | some row =>
      rw [EventTables.lookup_replayDeliveries hrow]
      have hiff : (s.tables.processed.lookup key).isSome = true ↔ row.state = .delivered := by
        simpa [hrow] using hledger
      by_cases hcovered : key.2 = consumerId ∧ s.tables.replayable
          replayed.subscription.eventType fromPosition key.1 = true
      · -- A covered row that was delivered is put back.
        have hnot : (if s.tables.resets consumerId replayed.subscription.eventType fromPosition
            key row then row.replayed now else row).state ≠ .delivered := by
          split
          · simp [DeliveryRow.replayed]
          case isFalse hkept =>
            intro hdelivered
            exact hkept ((resets_iff hok hrow).mpr ⟨hcovered, by rw [hdelivered]; rfl⟩)
        simpa [hcovered] using hnot
      · have hkept : s.tables.resets consumerId replayed.subscription.eventType fromPosition
            key row = false := by
          by_contra hresets
          exact hcovered ((resets_iff hok hrow).mp (by simpa using hresets)).1
        simpa [hcovered, hkept] using hiff
  | @commitSweep sweep hsweep hfinished =>
    intro key
    have hrows := (hok.sweep sweep hsweep).lookup_commit_deliveries hfinished key
    simp only [hrows]
    simp only [Sweep.commit, Table.lookup_deleteWhere]
    have hledger := h key
    by_cases hgone : key.1 ∈ sweep.deletedIds
    · cases s.tables.processed.lookup key <;> simp [hgone, Option.filter]
    · cases hprocessed : s.tables.processed.lookup key <;>
        simpa [hgone, hprocessed, Option.filter] using hledger

/-- A step that commits no effect and begins no round, and after which each row is delivered
just when it was, or is new and of an event without effects. -/
private theorem EffectsOk.of_rows (h : EffectsOk s) (heffects : t.effects = s.effects)
    (hround : t.round = s.round)
    (hpublished : ∀ id event, s.published.lookup id = some event →
      ∃ event', t.published.lookup id = some event')
    (hrows : ∀ key row', t.tables.deliveries.lookup key = some row' →
      (∃ row, s.tables.deliveries.lookup key = some row ∧
        (row'.state = .delivered ↔ row.state = .delivered)) ∨
      row'.state ≠ .delivered ∧ ∀ effect ∈ s.effects, effect.key ≠ key) : EffectsOk t := by
  refine ⟨?_, ?_, fun effect heffect => ?_, fun key row' hrow' hstate effect heffect hkey => ?_,
    fun key row' hrow' hstate => ?_⟩
  · simpa only [EventState.effectsIn, heffects] using h.once
  · simpa only [heffects, hround] using h.past
  · rw [heffects] at heffect
    obtain ⟨event, hevent⟩ := h.known effect heffect
    exact hpublished _ event hevent
  · rw [heffects] at heffect
    rw [hround]
    rcases hrows key row' hrow' with ⟨row, hrow, hiff⟩ | ⟨-, hnone⟩
    · exact h.undelivered key row hrow (fun hd => hstate (hiff.mpr hd)) effect heffect hkey
    · exact absurd hkey (hnone effect heffect)
  · rw [heffects, hround]
    rcases hrows key row' hrow' with ⟨row, hrow, hiff⟩ | ⟨hnot, -⟩
    · exact h.delivered key row hrow (hiff.mp hstate)
    · exact absurd hstate hnot

/-- A write of one row that is delivered neither before nor after. -/
private theorem EffectsOk.write (h : EffectsOk s) (hrow : s.tables.deliveries.lookup key = some row)
    (hstate : row.state ≠ .delivered) (hstate' : row'.state ≠ .delivered)
    (hrows : ∀ other, t.tables.deliveries.lookup other = if other =
      key then some row' else s.tables.deliveries.lookup other)
    (heffects : t.effects = s.effects) (hround : t.round = s.round)
    (hpublished : t.published = s.published) : EffectsOk t := by
  refine h.of_rows heffects hround (fun id event hevent => ⟨event, hpublished ▸ hevent⟩)
    fun other new hnew => .inl ?_
  rw [hrows] at hnew
  split at hnew
  · subst other
    obtain rfl := Option.some.inj hnew
    exact ⟨row, hrow, iff_of_false hstate' hstate⟩
  · exact ⟨new, hnew, Iff.rfl⟩

/-- The effects of a standing lease are the first of its row's round. -/
private theorem EffectsOk.deliver (h : EffectsOk s) (hok : TablesOk s) (hheld : HeldOk s)
    {round : ℕ} (hphase : s.workers owner = .running lease round)
    (hrow : s.tables.deliveries.lookup lease.key = some row) (howned : row.isHeld owner = true)
    (heffects : t.effects =
      { key := lease.key
        subjectRef := lease.delivery.subjectRef
        position := lease.delivery.position
        enteredRound := round
        round := s.round lease.key
        replays := s.replays lease.key.2 } :: s.effects)
    (hround : t.round = s.round) (hpublished : t.published = s.published)
    (hrows : ∀ other, t.tables.deliveries.lookup other =
      if other = lease.key then some ((DeliveryRow.markDelivered owner now).set row)
      else s.tables.deliveries.lookup other) : EffectsOk t := by
  have hcurrent : round = s.round lease.key := by
    have := (hheld owner lease row (by rw [hphase]; rfl) hrow howned).2.2
    rwa [hphase] at this
  have hstate : row.state ≠ .delivered := by
    simp [(DeliveryRow.isHeld_iff.mp howned).2]
  have hfirst := h.undelivered lease.key row hrow hstate
  refine ⟨fun key round' => ?_, fun effect heffect => ?_, fun effect heffect => ?_,
    fun key new hnew hnot effect heffect hkey => ?_, fun key new hnew hdelivered => ?_⟩
  · have honce := h.once key round'
    simp only [EventState.effectsIn, heffects, List.countP_cons, decide_eq_true_eq] at honce ⊢
    split
    case isTrue hsame =>
      obtain ⟨rfl, rfl⟩ := hsame
      have hnone : s.effects.countP (fun effect =>
          effect.key = lease.key ∧ effect.round = s.round lease.key) = 0 := by
        refine List.countP_eq_zero.mpr fun effect heffect hsame => ?_
        obtain ⟨hkey, hat⟩ := by simpa using hsame
        exact hfirst effect heffect hkey hat
      omega
    case isFalse => omega
  · rw [hround]
    rcases List.mem_cons.mp (heffects ▸ heffect) with rfl | hold
    · exact le_rfl
    · exact h.past effect hold
  · rw [hpublished]
    rcases List.mem_cons.mp (heffects ▸ heffect) with rfl | hold
    · obtain ⟨event, hevent, -⟩ := hok.delivery lease.key row hrow
      exact ⟨event, hok.retained _ event hevent⟩
    · exact h.known effect hold
  · rw [hround]
    rw [hrows] at hnew
    split at hnew
    · obtain rfl := Option.some.inj hnew
      exact absurd rfl hnot
    case isFalse hne =>
      rcases List.mem_cons.mp (heffects ▸ heffect) with rfl | hold
      · exact absurd hkey.symm hne
      · exact h.undelivered key new hnew hnot effect hold hkey
  · rw [hround, heffects]
    rw [hrows] at hnew
    split at hnew
    case isTrue hkey =>
      subst hkey
      exact ⟨_, List.mem_cons_self, rfl, hcurrent, rfl⟩
    case isFalse =>
      obtain ⟨effect, hold, hrest⟩ := h.delivered key new hnew hdelivered
      exact ⟨effect, List.mem_cons_of_mem _ hold, hrest⟩

/-- A replay puts what it covers into a round that has no effects yet. -/
private theorem EffectsOk.replay (h : EffectsOk s) (hok : TablesOk s) {replayed : Replayed}
    (htables : replayed.tables = s.tables.replayDeliveries consumerId
      replayed.subscription.eventType fromPosition now)
    : EffectsOk (s.replay consumerId fromPosition replayed) := by
  generalize ht : s.replay consumerId fromPosition replayed = t
  have heffects : t.effects = s.effects := by rw [← ht]; rfl
  have hround : ∀ key, t.round key = if key.2 = consumerId ∧ s.tables.replayable
      replayed.subscription.eventType fromPosition key.1 = true then s.round key + 1
      else s.round key := fun key => by
    rw [← ht]
    simp [EventState.replay, bump]
  have hle : ∀ key, s.round key ≤ t.round key := fun key => by
    rw [hround]
    split <;> omega
  have hdeliveries : t.tables.deliveries = (s.tables.replayDeliveries consumerId
      replayed.subscription.eventType fromPosition now).deliveries := by
    rw [← ht, EventState.replay, htables]
  refine ⟨?_, fun effect heffect => ?_, fun effect heffect => ?_,
    fun key new hnew hnot effect heffect hkey => ?_, fun key new hnew hdelivered => ?_⟩
  · simpa only [EventState.effectsIn, heffects] using h.once
  · exact (h.past effect (heffects ▸ heffect)).trans (hle _)
  · rw [← ht]
    exact h.known effect (heffects ▸ heffect)
  · have hpast := h.past effect (heffects ▸ heffect)
    rw [hkey] at hpast
    by_cases hcovered : key.2 = consumerId ∧ s.tables.replayable
        replayed.subscription.eventType fromPosition key.1 = true
    · rw [hround, if_pos hcovered]
      omega
    · rw [hround, if_neg hcovered]
      rw [hdeliveries] at hnew
      cases hrow : s.tables.deliveries.lookup key with
      | none =>
        rw [EventTables.lookup_replayDeliveries_missing hrow] at hnew
        obtain ⟨hconsumer, hnew⟩ := Option.ite_none_right_eq_some.mp hnew
        obtain ⟨event, hevent, -⟩ := Option.map_eq_some_iff.mp hnew
        obtain ⟨hevent, hmatch⟩ := Option.filter_eq_some_iff.mp hevent
        refine absurd ⟨hconsumer, EventTables.replayable_iff.mpr ⟨event, hevent, ?_⟩⟩ hcovered
        simpa using hmatch
      | some row =>
        rw [EventTables.lookup_replayDeliveries hrow] at hnew
        split at hnew
        case isTrue hresets => exact absurd ((resets_iff hok hrow).mp hresets).1 hcovered
        case isFalse =>
          obtain rfl := Option.some.inj hnew
          exact h.undelivered key row hrow hnot effect (heffects ▸ heffect) hkey
  · rw [hdeliveries] at hnew
    cases hrow : s.tables.deliveries.lookup key with
    | none =>
      rw [EventTables.lookup_replayDeliveries_missing hrow] at hnew
      obtain ⟨-, hnew⟩ := Option.ite_none_right_eq_some.mp hnew
      obtain ⟨event, -, rfl⟩ := Option.map_eq_some_iff.mp hnew
      cases hdelivered
    | some row =>
      rw [EventTables.lookup_replayDeliveries hrow] at hnew
      split at hnew
      · obtain rfl := Option.some.inj hnew
        cases hdelivered
      case isFalse hkept =>
        obtain rfl := Option.some.inj hnew
        have huncovered : ¬(key.2 = consumerId ∧ s.tables.replayable
            replayed.subscription.eventType fromPosition key.1 = true) := fun hcovered =>
          hkept ((resets_iff hok hrow).mpr ⟨hcovered, by rw [hdelivered]; rfl⟩)
        rw [hround, if_neg huncovered, heffects]
        exact h.delivered key row hrow hdelivered

theorem EffectsOk.step (h : EffectsOk s) (hok : TablesOk s) (hheld : HeldOk s)
    (hstep : EventStep s a t) : EffectsOk t := by
  cases hstep with
  | publish | abortPublish | enter | move | beginSweep | sweepNext | rollbackSweep =>
    exact ⟨h.once, h.past, h.known, h.undelivered, h.delivered⟩
  | @commitPublish id publication hpublication =>
    refine h.of_rows rfl rfl (fun id' event hevent => ?_) fun key row' hrow' => ?_
    · rw [Table.lookup_insert]
      split
      · exact ⟨_, rfl⟩
      · exact ⟨event, hevent⟩
    · change (s.tables.deliveries.insertMissing publication.deliveries).lookup key = _ at hrow'
      rw [Table.lookup_insertMissing, Option.or_eq_some_iff] at hrow'
      rcases hrow' with hrow | ⟨-, hnew⟩
      · exact .inl ⟨row', hrow, Iff.rfl⟩
      · obtain ⟨rfl, now, rfl⟩ := hok.fanOut id publication hpublication key row' hnew
        refine .inr ⟨by simp [DeliveryRow.fresh], ?_⟩
        rintro effect heffect rfl
        obtain ⟨event, hevent⟩ := h.known effect heffect
        simp [hok.publishing_fresh _ publication hpublication] at hevent
  | lease _ hrow hdue =>
    refine h.write hrow ?_ (by simp [DeliveryRow.lease])
      (fun _ => Table.lookup_insert _ _ _ _) rfl rfl rfl
    rcases DeliveryRow.isDue_state hdue with hstate | hstate <;> simp [hstate]
  | finish hlease hrow howned hfinish =>
    refine h.write hrow ?_ (finish_undelivered hheld hlease hrow howned hfinish)
      (fun _ => Table.lookup_insert _ _ _ _) rfl rfl rfl
    simp [(DeliveryRow.isHeld_iff.mp howned).2]
  | deliver hphase hrow howned =>
    exact h.deliver hok hheld hphase hrow howned rfl rfl rfl
      fun _ => Table.lookup_insert _ _ _ _
  | retry hrow hfailed =>
    exact h.write hrow (by simp [hfailed]) (by simp [DeliveryRow.retryDelivery])
      (fun _ => Table.lookup_insert _ _ _ _) rfl rfl rfl
  | skip hrow hfailed =>
    exact h.write hrow (by simp [hfailed]) (by simp [DeliveryRow.skipDelivery])
      (fun _ => Table.lookup_insert _ _ _ _) rfl rfl rfl
  | replay _ hreplayed =>
    obtain ⟨-, -, htables⟩ := replayHandler_eq_ok hreplayed
    exact h.replay hok htables
  | @commitSweep sweep hsweep hfinished =>
    refine h.of_rows rfl rfl (fun _ event hevent => ⟨event, hevent⟩) fun key row' hrow' => .inl ?_
    obtain ⟨hrow, -⟩ :=
      ((hok.sweep sweep hsweep).lookup_commit_deliveries hfinished key row').mp hrow'
    exact ⟨row', hrow, Iff.rfl⟩

/-- A worker's own step touches no row that it does not hold. -/
theorem lost_row_unchanged (ha : a.worker? = some owner) (hstep : EventStep s a t)
    (hrow : s.tables.deliveries.lookup key = some row) (hlost : row.isHeld owner = false) :
    t.tables.deliveries.lookup key = some row := by
  have hinsert : ∀ {key' : DeliveryKey} {old new : DeliveryRow},
      s.tables.deliveries.lookup key' = some old → old.isHeld owner = true →
      (s.tables.deliveries.insert key' new).lookup key = some row := by
    intro key' old new hold hheld
    have hne : key ≠ key' := by
      rintro rfl
      obtain rfl := Option.some.inj (hrow.symm.trans hold)
      simp [hlost] at hheld
    rwa [AList.lookup_insert_ne hne]
  cases hstep with
  | enter | move => exact hrow
  | @finish _ owner' lease old write events hlease hold hheld hfinish =>
    have howner : owner' = owner := by
      generalize s.workers owner' = phase at hfinish
      cases hfinish <;> exact Option.some.inj ha
    subst howner
    exact hinsert hold hheld
  | deliver _ hold hheld =>
    obtain rfl := Option.some.inj ha
    exact hinsert hold hheld
  | _ => cases ha

end Steps

/-- The three accounts hold together in every reachable state. -/
theorem deliveredOk {s : EventState} (hs : eventLoop.Reachable s) :
    HeldOk s ∧ LedgerOk s ∧ EffectsOk s := by
  refine Machine.Reachable.invariant (I := fun s => HeldOk s ∧ LedgerOk s ∧ EffectsOk s) ?_
    (fun s a t hs hok hstep => ?_) hs
  · rintro _ rfl
    refine ⟨fun owner lease row hlease => (nomatch hlease), fun key => ?_, ?_⟩
    · simp [emptyEvents]
    · constructor <;> simp [emptyEvents, EventState.effectsIn]
  · obtain ⟨hheld, hledger, heffects⟩ := hok
    have htables := tablesOk hs
    have hstep := eventLoop_cases hstep
    exact ⟨hheld.step htables hledger hstep, hledger.step htables hheld hstep,
      heffects.step htables hheld hstep⟩

/-- Exactly-once delivery, after any run. The effects of one row's handler commit at most
once in each round, and only a replay that covers the row begins a new one; a delivered row
has its ledger row, and effects of a handler entered in the current round; an accepted replay
begins a new round of every retained event in its range; and the steps of a worker that lost
its lease leave the row as its successor has it. -/
theorem delivery_exactly_once {s : EventState} (hs : eventLoop.Reachable s) :
    (∀ key round, s.effectsIn key round ≤ 1) ∧
    (∀ effect ∈ s.effects, effect.round ≤ s.round effect.key) ∧
    (∀ key row, s.tables.deliveries.lookup key = some row → row.state = .delivered →
      (s.tables.processed.lookup key).isSome = true ∧
        ∃ effect ∈ s.effects, effect.key = key ∧ effect.enteredRound = s.round key ∧
          effect.round = s.round key) ∧
    (∀ a t, eventLoop.step s a = some t →
      (∀ key, t.round key = s.round key ∨ ∃ caller consumers fromPosition now,
        a = .replay caller consumers key.2 fromPosition now) ∧
      (∀ caller consumers consumerId fromPosition now replayed,
        a = .replay caller consumers consumerId fromPosition now →
        replayHandler caller consumers s.tables consumerId fromPosition now = .ok replayed →
        ∀ id event, s.tables.outbox.lookup id = some event →
          event.type = replayed.subscription.eventType → fromPosition ≤ event.position →
          t.round (id, consumerId) = s.round (id, consumerId) + 1) ∧
      ∀ owner, a.worker? = some owner → ∀ key row,
        s.tables.deliveries.lookup key = some row → row.isHeld owner = false →
        t.tables.deliveries.lookup key = some row) := by
  obtain ⟨-, hledger, heffects⟩ := deliveredOk hs
  refine ⟨heffects.once, heffects.past, fun key row hrow hdelivered =>
    ⟨(hledger key).mpr ⟨row, hrow, hdelivered⟩, heffects.delivered key row hrow hdelivered⟩,
    fun a t hstep => ?_⟩
  have hstep := eventLoop_cases hstep
  refine ⟨fun key => ?_, ?_, fun owner ha key row hrow hlost =>
    lost_row_unchanged ha hstep hrow hlost⟩
  · cases hstep with
    | @replay caller consumers consumerId fromPosition now replayed =>
      by_cases hconsumer : key.2 = consumerId
      · exact .inr ⟨caller, consumers, fromPosition, now, by rw [hconsumer]⟩
      · exact .inl (by simp [EventState.replay, bump, hconsumer])
    | _ => exact .inl rfl
  · rintro caller consumers consumerId fromPosition now replayed rfl hreplayed id event hevent
      htype hposition
    cases hstep with
    | replay _ hreplayed' =>
      obtain rfl := Except.ok.inj (hreplayed.symm.trans hreplayed')
      have hreplayable : s.tables.replayable replayed.subscription.eventType fromPosition id =
          true := EventTables.replayable_iff.mpr ⟨event, hevent, htype, hposition⟩
      simp [EventState.replay, bump, hreplayable]
    | finish _ _ _ hfinish => cases hfinish
    | move hmove => cases hmove

/-- A delivery is stolen from a worker inside its handler and delivered by the thief; the
worker's own end comes too late; and a replay has the event delivered once more. -/
def stolenRun : List EventAction :=
  [.publish indexRegistry ["crm"] 1 "crm.contact.created" "crm:contact:7" 10, .commitPublish 1,
    .lease 5 (1, "crm.index") 10, .visit 5 indexRegistry 3 10 10 none true,
    .lease 6 (1, "crm.index") (seconds 61), .visit 6 indexRegistry 3 10 10 none true,
    .handlerReturns 6 (seconds 62) "duplicate key", .handlerReturns 5 (seconds 63) "duplicate key",
    .writeFailure 5 3 (seconds 64) none,
    .replay ⟨false, none, ["crm"]⟩ (some indexRegistry) "crm.index" 1 (seconds 70),
    .lease 5 (1, "crm.index") (seconds 71),
    .visit 5 indexRegistry 3 (seconds 71) (seconds 71) none true,
    .handlerReturns 5 (seconds 72) "duplicate key"]

/-- The state `stolenRun` ends in. -/
def afterTheft : EventState := (eventLoop.run emptyEvents stolenRun).getD emptyEvents

/-- After a theft and a replay the delivery has one effect in each round. -/
theorem delivery_exactly_once_afterTheft :
    afterTheft.effects.length = 2 ∧ afterTheft.effectsIn (1, "crm.index") 0 ≤ 1 ∧
      ∃ effect ∈ afterTheft.effects, effect.key = (1, "crm.index") ∧ effect.enteredRound = 1 ∧
        effect.round = 1 := by
  have hrun : eventLoop.run emptyEvents stolenRun = some afterTheft := rfl
  obtain ⟨honce, -, hdelivered, -⟩ :=
    delivery_exactly_once (Machine.reachable_of_run rfl hrun)
  exact ⟨rfl, honce _ 0, (hdelivered (1, "crm.index") _ rfl rfl).2⟩

end Rheostream
