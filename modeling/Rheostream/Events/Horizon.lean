import Rheostream.Events.LoopSteps

/-!
# What the event tables hold

Every delivery belongs to a retained event and carries its subject and position; positions
are never given out twice; every event that ever committed is retained or lies at or below
the recorded horizon; and a sweep in progress is not disturbed. Retention and the replay gate
rest on nothing else.
-/

namespace Rheostream

/-- The position an event was given, whether it has committed or not. -/
def EventState.position? (s : EventState) (id : Uuid) : Option ℕ :=
  ((s.published.lookup id).or ((s.publishing.lookup id).map Publication.row)).map
    OutboxRow.position

/-- The account of the event tables. -/
structure TablesOk (s : EventState) : Prop where
  position_le : ∀ id position, s.position? id = some position → position ≤ s.sequence
  position_inj : ∀ id id' position, s.position? id = some position →
    s.position? id' = some position → id = id'
  publishing_fresh : ∀ id publication, s.publishing.lookup id = some publication →
    s.published.lookup id = none
  fanOut : ∀ id publication, s.publishing.lookup id = some publication →
    ∀ key row, Table.rowOf publication.deliveries key = some row → key.1 = id ∧
      ∃ now, row = .fresh publication.row.subjectRef publication.row.position now
  retained : ∀ id row, s.tables.outbox.lookup id = some row → s.published.lookup id = some row
  delivery : ∀ key row, s.tables.deliveries.lookup key = some row →
    ∃ event, s.tables.outbox.lookup key.1 = some event ∧
      row.subjectRef = event.subjectRef ∧ row.position = event.position
  processed : ∀ key now, s.tables.processed.lookup key = some now →
    ∃ event, s.tables.outbox.lookup key.1 = some event
  swept : ∀ id event, s.published.lookup id = some event →
    s.tables.outbox.lookup id = some event ∨
      ∃ swept, s.tables.sweptThrough = some swept ∧ event.position ≤ swept
  sweep : ∀ sweep, s.sweep = some sweep → sweep.Ok s.tables

namespace TablesOk

variable {s t : EventState} {a : EventAction}

variable {id : Uuid}

/-- A committed event has its position. -/
private theorem position_of_published {event : OutboxRow} (h : s.published.lookup id = some event) :
    s.position? id = some event.position := by
  simp [EventState.position?, h]

/-- Two committed events at one position are one. -/
theorem published_inj (h : TablesOk s) {id' : Uuid} {event event' : OutboxRow}
    (hevent : s.published.lookup id = some event) (hevent' : s.published.lookup id' = some event')
    (hposition : event.position = event'.position) : id = id' := by
  refine h.position_inj id id' event.position (position_of_published hevent) ?_
  rw [hposition]
  exact position_of_published hevent'

variable {key : DeliveryKey} {row row' : DeliveryRow}

/-- Two deliveries of one consumer at one position are one. -/
theorem key_inj (h : TablesOk s) {key' : DeliveryKey} (hrow : s.tables.deliveries.lookup key =
      some row)
    (hrow' : s.tables.deliveries.lookup key' = some row') (hconsumer : key.2 = key'.2)
    (hposition : row.position = row'.position) : key = key' := by
  obtain ⟨event, hevent, -, hat⟩ := h.delivery key row hrow
  obtain ⟨event', hevent', -, hat'⟩ := h.delivery key' row' hrow'
  have hid : key.1 = key'.1 := h.published_inj (h.retained _ _ hevent) (h.retained _ _ hevent')
    (by rw [← hat, ← hat', hposition])
  exact Prod.ext hid hconsumer

variable {publication : Publication}

/-- A publication's event is not retained yet, so nothing is delivered of it. -/
theorem unpublished (h : TablesOk s) (hpublication : s.publishing.lookup id = some publication) :
    s.tables.outbox.lookup id = none ∧
      ∀ key row, s.tables.deliveries.lookup key = some row → key.1 ≠ id := by
  have hfresh := h.publishing_fresh id publication hpublication
  have hnone : s.tables.outbox.lookup id = none := by
    cases hevent : s.tables.outbox.lookup id with
    | none => rfl
    | some event => simp [h.retained id event hevent] at hfresh
  refine ⟨hnone, ?_⟩
  rintro key row hrow rfl
  obtain ⟨event, hevent, -⟩ := h.delivery key row hrow
  simp [hnone] at hevent

/-- What a publish commits evolves the tables. -/
private theorem evolves_commit (h : TablesOk s)
    (hpublication : s.publishing.lookup id = some publication) :
    s.tables.Evolves (s.tables.commit id publication) := by
  obtain ⟨hnone, hkeys⟩ := h.unpublished hpublication
  refine ⟨fun id' event hevent => ?_, fun key row' event hrow' hevent => ?_, rfl⟩
  · have hne : id' ≠ id := by
      rintro rfl
      simp [hnone] at hevent
    simpa [EventTables.commit, hne] using hevent
  · simp only [EventTables.commit, Table.lookup_insertMissing, Option.or_eq_some_iff] at hrow'
    rcases hrow' with hrow | ⟨-, hnew⟩
    · exact ⟨row', hrow, fun _ => rfl⟩
    · obtain ⟨rfl, -⟩ := h.fanOut id publication hpublication key row' hnew
      simp [hnone] at hevent

/-- Writing a row that is not settled evolves the tables, if the row stays in its place. -/
private theorem evolves_write (hrow : s.tables.deliveries.lookup key = some row)
    (hunsettled : row.state.isSettled = false) (processed : Table DeliveryKey ℕ) :
    s.tables.Evolves { s.tables with
      deliveries := s.tables.deliveries.insert key row'
      processed := processed } := by
  refine ⟨fun _ _ h => h, fun key' new event hnew _ => ?_, rfl⟩
  rw [Table.lookup_insert] at hnew
  split at hnew
  · subst key'
    exact ⟨row, hrow, fun hsettled => by simp [hunsettled] at hsettled⟩
  · exact ⟨new, hnew, fun _ => rfl⟩

/-- A write of one row that is not settled, with or without its ledger row. -/
private theorem write (h : TablesOk s) {processed : Table DeliveryKey ℕ} (hrow :
      s.tables.deliveries.lookup key = some row)
    (htables : t.tables = { s.tables with
      deliveries := s.tables.deliveries.insert key row'
      processed := processed })
    (hunsettled : row.state.isSettled = false) (hsubject : row'.subjectRef = row.subjectRef)
    (hposition : row'.position = row.position)
    (hprocessed : ∀ other now, processed.lookup other = some now →
      other = key ∨ s.tables.processed.lookup other = some now)
    (hsequence : t.sequence = s.sequence) (hpublishing : t.publishing = s.publishing)
    (hpublished : t.published = s.published) (hsweep : t.sweep = s.sweep) : TablesOk t := by
  have hsame : ∀ id, t.position? id = s.position? id := fun id => by
    simp [EventState.position?, hpublishing, hpublished]
  obtain ⟨event, hevent, hsubject', hposition'⟩ := h.delivery key row hrow
  refine ⟨?_, ?_, ?_, ?_, ?_, fun other new hnew => ?_, fun other now hnow => ?_, ?_, ?_⟩
  · simpa only [hsame, hsequence] using h.position_le
  · simpa only [hsame] using h.position_inj
  · simpa only [hpublishing, hpublished] using h.publishing_fresh
  · simpa only [hpublishing] using h.fanOut
  · simpa only [htables, hpublished] using h.retained
  · simp only [htables, Table.lookup_insert] at hnew ⊢
    split at hnew
    · subst other
      obtain rfl := Option.some.inj hnew
      exact ⟨event, hevent, hsubject.trans hsubject', hposition.trans hposition'⟩
    · exact h.delivery other new hnew
  · simp only [htables] at hnow ⊢
    rcases hprocessed other now hnow with rfl | hold
    · exact ⟨event, hevent⟩
    · exact h.processed other now hold
  · simpa only [htables, hpublished] using h.swept
  · intro sweep hin
    rw [htables]
    exact (h.sweep sweep (hsweep ▸ hin)).evolves (evolves_write hrow hunsettled processed)

/-- A step that touches neither the tables nor what is being published. -/
private theorem congr (h : TablesOk s) (htables : t.tables = s.tables)
    (hsequence : t.sequence = s.sequence) (hpublishing : t.publishing = s.publishing)
    (hpublished : t.published = s.published)
    (hsweep : ∀ sweep, t.sweep = some sweep → sweep.Ok s.tables) : TablesOk t := by
  have hsame : ∀ id, t.position? id = s.position? id := fun id => by
    simp [EventState.position?, hpublishing, hpublished]
  refine ⟨?_, ?_, ?_, ?_, ?_, ?_, ?_, ?_, ?_⟩
  · simpa only [hsame, hsequence] using h.position_le
  · simpa only [hsame] using h.position_inj
  · simpa only [hpublishing, hpublished] using h.publishing_fresh
  · simpa only [hpublishing] using h.fanOut
  · simpa only [htables, hpublished] using h.retained
  · simpa only [htables] using h.delivery
  · simpa only [htables] using h.processed
  · simpa only [htables, hpublished] using h.swept
  · simpa only [htables] using hsweep

/-- An insert takes the next position. -/
private theorem publish (h : TablesOk s) {registry : ConsumerRegistry}
    {enabledModules : List String} {type subjectRef : String} {now : ℕ}
    (hfresh : s.published.lookup id = none) :
    TablesOk { s with
      sequence := s.sequence + 1
      publishing := s.publishing.insert id (Rheostream.publish registry enabledModules id type
        subjectRef (s.sequence + 1) now) } := by
  generalize ht : ({ s with
      sequence := s.sequence + 1
      publishing := s.publishing.insert id (Rheostream.publish registry enabledModules id type
        subjectRef (s.sequence + 1) now) } : EventState) = t
  have hposition : ∀ id', t.position? id' =
      if id' = id then some (s.sequence + 1) else s.position? id' := by
    intro id'
    subst ht
    by_cases hid : id' = id
    · subst hid
      simp [EventState.position?, hfresh, Rheostream.publish]
    · simp [EventState.position?, hid]
  have hold : ∀ id' position, s.position? id' = some position → position ≠ s.sequence + 1 := by
    intro id' position hat
    have hle := h.position_le id' position hat
    omega
  refine ⟨fun id' position hat => ?_, fun id' id'' position hat hat' => ?_,
    fun id' publication hin => ?_, fun id' publication hin => ?_, ?_, ?_, ?_, ?_, ?_⟩
  · have hsequence : t.sequence = s.sequence + 1 := by rw [← ht]
    rw [hposition] at hat
    split at hat
    · obtain rfl := Option.some.inj hat
      omega
    · have hle := h.position_le id' position hat
      omega
  · rw [hposition] at hat hat'
    split at hat <;> split at hat'
    · simp_all
    · obtain rfl := Option.some.inj hat
      exact absurd rfl (hold id'' _ hat')
    · obtain rfl := Option.some.inj hat'
      exact absurd rfl (hold id' _ hat)
    · exact h.position_inj id' id'' position hat hat'
  · subst ht
    simp only [Table.lookup_insert] at hin
    split at hin
    · subst id'
      exact hfresh
    · exact h.publishing_fresh id' publication hin
  · subst ht
    simp only [Table.lookup_insert] at hin
    split at hin
    · subst id'
      obtain rfl := Option.some.inj hin
      intro key row hrow
      obtain ⟨hid, rfl⟩ := lookup_publish_deliveries hrow
      exact ⟨hid, now, rfl⟩
    · exact h.fanOut id' publication hin
  all_goals subst ht
  · exact h.retained
  · exact h.delivery
  · exact h.processed
  · exact h.swept
  · exact h.sweep

/-- A publish commits. -/
private theorem commit (h : TablesOk s) (hpublication : s.publishing.lookup id = some publication)
    (hpublishing : t.publishing = s.publishing.erase id)
    (hpublished : t.published = s.published.insert id publication.row)
    (htables : t.tables = s.tables.commit id publication) (hsequence : t.sequence = s.sequence)
    (hsweep : t.sweep = s.sweep) : TablesOk t := by
  have hfresh := h.publishing_fresh id publication hpublication
  obtain ⟨hnone, -⟩ := h.unpublished hpublication
  have hevolves := h.evolves_commit hpublication
  have hsame : ∀ id', t.position? id' = s.position? id' := by
    intro id'
    by_cases hid : id' = id
    · subst hid
      simp [EventState.position?, hpublishing, hpublished, hpublication, hfresh]
    · simp [EventState.position?, hpublishing, hpublished, hid]
  have houtbox : ∀ id', t.tables.outbox.lookup id' =
      if id' = id then some publication.row else s.tables.outbox.lookup id' := by
    intro id'
    rw [htables, EventTables.commit, Table.lookup_insert]
  have hother : ∀ {id' p}, t.publishing.lookup id' = some p →
      id' ≠ id ∧ s.publishing.lookup id' = some p := by
    intro id' p hin
    by_cases hid : id' = id
    · subst hid
      simp [hpublishing] at hin
    · rw [hpublishing, AList.lookup_erase_ne hid] at hin
      exact ⟨hid, hin⟩
  refine ⟨?_, ?_, fun id' p hin => ?_, fun id' p hin => ?_, fun id' event hevent => ?_,
    fun key row hrow => ?_, fun key now hnow => ?_, fun id' event hevent => ?_,
    fun sweep hin => ?_⟩
  · simpa only [hsame, hsequence] using h.position_le
  · simpa only [hsame] using h.position_inj
  · obtain ⟨hid, hold⟩ := hother hin
    rw [hpublished, AList.lookup_insert_ne hid]
    exact h.publishing_fresh id' p hold
  · exact h.fanOut id' p (hother hin).2
  · rw [houtbox] at hevent
    rw [hpublished, Table.lookup_insert]
    split at hevent
    · exact (if_pos ‹_›).trans hevent
    · exact (if_neg ‹_›).trans (h.retained id' event hevent)
  · rw [houtbox]
    rw [htables, EventTables.commit, Table.lookup_insertMissing, Option.or_eq_some_iff] at hrow
    rcases hrow with hrow | ⟨-, hnew⟩
    · obtain ⟨event, hevent, hplace⟩ := h.delivery key row hrow
      have hid : key.1 ≠ id := fun hid => by simp [hid ▸ hevent] at hnone
      exact ⟨event, (if_neg hid).trans hevent, hplace⟩
    · obtain ⟨hid, now, rfl⟩ := h.fanOut id publication hpublication key row hnew
      exact ⟨publication.row, if_pos hid, rfl, rfl⟩
  · rw [htables] at hnow
    obtain ⟨event, hevent⟩ := h.processed key now hnow
    exact ⟨event, by rw [htables]; exact hevolves.outbox key.1 event hevent⟩
  · rw [houtbox]
    rw [hpublished, Table.lookup_insert] at hevent
    split at hevent
    · exact .inl ((if_pos ‹_›).trans hevent)
    · rw [if_neg ‹_›, htables]
      exact h.swept id' event hevent
  · rw [htables]
    exact (h.sweep sweep (hsweep ▸ hin)).evolves hevolves

/-- A publish that never commits leaves its position unused. -/
private theorem abort (h : TablesOk s) :
    TablesOk { s with publishing := s.publishing.erase id } := by
  have hother : ∀ {id' p}, (s.publishing.erase id).lookup id' = some p →
      s.publishing.lookup id' = some p := by
    intro id' p hin
    by_cases hid : id' = id
    · subst hid
      simp at hin
    · rwa [AList.lookup_erase_ne hid] at hin
  have hsub : ∀ id' position,
      EventState.position? { s with publishing := s.publishing.erase id } id' = some position →
      s.position? id' = some position := by
    intro id' position hat
    simp only [EventState.position?, Option.map_eq_some_iff, Option.or_eq_some_iff] at hat ⊢
    obtain ⟨row, hrow | ⟨hnone, p, hp, hrow⟩, hposition⟩ := hat
    · exact ⟨row, .inl hrow, hposition⟩
    · exact ⟨row, .inr ⟨hnone, p, hother hp, hrow⟩, hposition⟩
  exact ⟨fun id' position hat => h.position_le id' position (hsub id' position hat),
    fun id' id'' position hat hat' =>
      h.position_inj id' id'' position (hsub _ _ hat) (hsub _ _ hat'),
    fun id' p hin => h.publishing_fresh id' p (hother hin),
    fun id' p hin => h.fanOut id' p (hother hin), h.retained, h.delivery, h.processed, h.swept,
    h.sweep⟩

/-- A replay makes deliveries of retained events only, and no sweep is in progress. -/
private theorem replay (h : TablesOk s) {consumerId : String} {fromPosition : ℕ}
    {replayed : Replayed} {now : ℕ} (hsweep : s.sweep = none)
    (htables : replayed.tables = s.tables.replayDeliveries consumerId
      replayed.subscription.eventType fromPosition now) :
    TablesOk (s.replay consumerId fromPosition replayed) := by
  refine ⟨h.position_le, h.position_inj, h.publishing_fresh, h.fanOut, ?_,
    fun key row hrow => ?_, fun key at_ hat => ?_, ?_, ?_⟩
  · simpa only [EventState.replay, htables, EventTables.replayDeliveries] using h.retained
  · simp only [EventState.replay, htables] at hrow ⊢
    cases hold : s.tables.deliveries.lookup key with
    | some old =>
      rw [EventTables.lookup_replayDeliveries hold] at hrow
      obtain rfl := Option.some.inj hrow
      obtain ⟨event, hevent, hsubject, hposition⟩ := h.delivery key old hold
      refine ⟨event, hevent, ?_, ?_⟩ <;> split <;> assumption
    | none =>
      rw [EventTables.lookup_replayDeliveries_missing hold] at hrow
      obtain ⟨-, hrow⟩ := Option.ite_none_right_eq_some.mp hrow
      obtain ⟨event, hevent, rfl⟩ := Option.map_eq_some_iff.mp hrow
      obtain ⟨hevent, -⟩ := Option.filter_eq_some_iff.mp hevent
      exact ⟨event, hevent, rfl, rfl⟩
  · simp only [EventState.replay, htables, EventTables.lookup_replayDeliveries_processed] at hat
    split at hat
    · cases hat
    · simpa only [EventState.replay, htables, EventTables.replayDeliveries] using
        h.processed key at_ hat
  · simpa only [EventState.replay, htables, EventTables.replayDeliveries] using h.swept
  · intro sweep hin
    simp [EventState.replay, hsweep] at hin

/-- A sweep commits: what it deleted goes, and the record moves past it. -/
private theorem commitSweep (h : TablesOk s) {sweep : Sweep} (hsweep : s.sweep = some sweep)
    (hfinished : sweep.stage = .finished) (generation : DeliveryKey → ℕ) :
    TablesOk { s with
      sweep := none
      tables := sweep.commit s.tables
      generation := generation } := by
  have hok := h.sweep sweep hsweep
  refine ⟨h.position_le, h.position_inj, h.publishing_fresh, h.fanOut, fun id event hevent => ?_,
    fun key row hrow => ?_, fun key now hnow => ?_, fun id event hevent => ?_, nofun⟩
  · exact h.retained id event (Sweep.lookup_outbox.mp hevent).1
  · obtain ⟨hrow, hkept⟩ := (hok.lookup_commit_deliveries hfinished key row).mp hrow
    obtain ⟨event, hevent, hplace⟩ := h.delivery key row hrow
    exact ⟨event, Sweep.lookup_outbox.mpr ⟨hevent, hkept⟩, hplace⟩
  · obtain ⟨hnow, hkept⟩ := Table.lookup_deleteWhere_eq_some.mp hnow
    obtain ⟨event, hevent⟩ := h.processed key now hnow
    refine ⟨event, Sweep.lookup_outbox.mpr ⟨hevent, ?_⟩⟩
    simpa using hkept
  · rcases h.swept id event hevent with hretained | ⟨swept, hswept, hle⟩
    · by_cases hid : id ∈ sweep.deletedIds
      · exact .inr (hok.position_le_commit hid hretained)
      · exact .inl (Sweep.lookup_outbox.mpr ⟨hretained, hid⟩)
    · obtain ⟨swept', hswept', hle'⟩ := hok.sweptThrough_commit hswept
      exact .inr ⟨swept', hswept', hle.trans hle'⟩

/-- Every step keeps the account. -/
theorem step (h : TablesOk s) (hstep : EventStep s a t) : TablesOk t := by
  have hheld : ∀ {owner : Uuid} {row : DeliveryRow}, row.isHeld owner = true →
      row.state.isSettled = false := fun hheld => by
    rw [(DeliveryRow.isHeld_iff.mp hheld).2]
    rfl
  cases hstep with
  | publish hfresh => exact h.publish hfresh
  | commitPublish hpublication => exact h.commit hpublication rfl rfl rfl rfl rfl
  | abortPublish => exact h.abort
  | lease _ hrow hdue =>
    refine h.write hrow rfl ?_ rfl rfl (fun _ _ => .inr) rfl rfl rfl rfl
    rcases DeliveryRow.isDue_state hdue with hstate | hstate <;> rw [hstate] <;> rfl
  | enter | move => exact h.congr rfl rfl rfl rfl h.sweep
  | finish _ hrow howned =>
    exact h.write hrow rfl (hheld howned) (by simp) (by simp) (fun _ _ => .inr) rfl rfl rfl rfl
  | deliver _ hrow howned =>
    refine h.write hrow rfl (hheld howned) rfl rfl (fun other now hnow => ?_) rfl rfl rfl rfl
    rw [Table.lookup_insert] at hnow
    split at hnow
    · exact .inl ‹_›
    · exact .inr hnow
  | retry hrow hfailed | skip hrow hfailed =>
    exact h.write hrow rfl (by rw [hfailed]; rfl) rfl rfl (fun _ _ => .inr) rfl rfl rfl rfl
  | replay hsweep hreplayed =>
    obtain ⟨-, -, htables⟩ := replayHandler_eq_ok hreplayed
    exact h.replay hsweep htables
  | beginSweep =>
    refine h.congr rfl rfl rfl rfl fun sweep hin => ?_
    obtain rfl := Option.some.inj hin
    exact .start _ _ _ _
  | sweepNext hsweep hnext =>
    refine h.congr rfl rfl rfl rfl fun sweep hin => ?_
    obtain rfl := Option.some.inj hin
    exact (h.sweep _ hsweep).next hnext
  | commitSweep hsweep hfinished => exact h.commitSweep hsweep hfinished _
  | rollbackSweep => exact h.congr rfl rfl rfl rfl nofun

end TablesOk

/-- The account holds in every reachable state. -/
theorem tablesOk {s : EventState} (hs : eventLoop.Reachable s) : TablesOk s := by
  refine Machine.IsInvariant.of_reachable
    ⟨?_, fun _ _ _ hok hstep => hok.step (eventLoop_cases hstep)⟩ hs
  rintro _ rfl
  refine ⟨?_, ?_, ?_, ?_, ?_, ?_, ?_, ?_, ?_⟩ <;> simp [EventState.position?, emptyEvents]

/-- A step that is not a sweep's commit keeps every event and the record. -/
private theorem EventStep.keeps {s t : EventState} {a : EventAction} (hok : TablesOk s)
    (h : EventStep s a t) : (∃ sweep, s.sweep = some sweep ∧ sweep.stage = .finished ∧
        t.tables = sweep.commit s.tables) ∨
      (∀ id event, s.tables.outbox.lookup id = some event →
        t.tables.outbox.lookup id = some event) ∧
        t.tables.sweptThrough = s.tables.sweptThrough := by
  cases h with
  | commitSweep hsweep hfinished => exact .inl ⟨_, hsweep, hfinished, rfl⟩
  | commitPublish hpublication =>
    exact .inr ⟨(hok.evolves_commit hpublication).outbox, rfl⟩
  | replay _ hreplayed =>
    obtain ⟨-, -, htables⟩ := replayHandler_eq_ok hreplayed
    refine .inr ⟨fun id event hevent => ?_, ?_⟩ <;> rw [EventState.replay, htables]
    · exact hevent
    · rfl
  | _ => exact .inr ⟨fun _ _ hevent => hevent, rfl⟩

/-- What an accepted replay covers is there to be delivered: every event of the type that
ever committed at or after the position is retained, its delivery is pending, and the ledger
has forgotten it. -/
theorem replay_covers {s : EventState} (hok : TablesOk s) {caller : WorkCaller}
    {consumers : Option ConsumerRegistry} {consumerId : String} {fromPosition now : ℕ}
    {replayed : Replayed}
    (h : replayHandler caller consumers s.tables consumerId fromPosition now = .ok replayed)
    {id : Uuid} {event : OutboxRow} (hevent : s.published.lookup id = some event)
    (htype : event.type = replayed.subscription.eventType)
    (hposition : fromPosition ≤ event.position) :
    replayed.tables.outbox.lookup id = some event ∧
      (∃ row, replayed.tables.deliveries.lookup (id, consumerId) = some row ∧
        row.state = .pending) ∧
      replayed.tables.processed.lookup (id, consumerId) = none := by
  obtain ⟨hswept, hidle, htables⟩ := replayHandler_eq_ok h
  have hretained : s.tables.outbox.lookup id = some event := by
    rcases hok.swept id event hevent with hretained | ⟨swept, hsome, hle⟩
    · exact hretained
    · have := hswept swept hsome
      omega
  have hreplayable :
      s.tables.replayable replayed.subscription.eventType fromPosition id = true :=
    EventTables.replayable_iff.mpr ⟨event, hretained, htype, hposition⟩
  rw [htables]
  refine ⟨hretained, ?_, by simp [hreplayable]⟩
  cases hrow : s.tables.deliveries.lookup (id, consumerId) with
  | none =>
    rw [EventTables.lookup_replayDeliveries_missing hrow, if_pos rfl, hretained]
    exact ⟨_, by simp [Option.filter, htype, hposition]; rfl, rfl⟩
  | some row =>
    rw [EventTables.lookup_replayDeliveries hrow]
    refine ⟨_, rfl, ?_⟩
    obtain ⟨event', hevent', -, hat⟩ := hok.delivery _ row hrow
    obtain rfl := Option.some.inj (hretained.symm.trans hevent')
    have hnear : fromPosition ≤ row.position := hat ▸ hposition
    have hunleased := EventTables.inFlight_eq_none hidle hrow rfl hnear
    cases hstate : row.state <;>
      simp_all [EventTables.resets, DeliveryState.isEnded, DeliveryRow.replayed]

/-- Retention and the replay horizon, after any run. No delivery and no ledger row outlives
its event; an event goes only when its deliveries are delivered or skipped; the record never
goes back, and reaches every event that is gone; and an accepted replay covers every event of
its type that ever committed at or after its position. -/
theorem outbox_horizon {s : EventState} (hs : eventLoop.Reachable s) :
    (∀ key row, s.tables.deliveries.lookup key = some row →
      ∃ event, s.tables.outbox.lookup key.1 = some event) ∧
    (∀ key now, s.tables.processed.lookup key = some now →
      ∃ event, s.tables.outbox.lookup key.1 = some event) ∧
    (∀ a t, eventLoop.step s a = some t → ∀ id event, s.tables.outbox.lookup id = some event →
      t.tables.outbox.lookup id = none → ∀ key row, s.tables.deliveries.lookup key = some row →
        key.1 = id → row.state = .delivered ∨ row.state = .skipped) ∧
    (∀ t, eventLoop.Reaches s t → ∀ swept, s.tables.sweptThrough = some swept →
      ∃ swept', t.tables.sweptThrough = some swept' ∧ swept ≤ swept') ∧
    (∀ id event, s.published.lookup id = some event → s.tables.outbox.lookup id = none →
      ∃ swept, s.tables.sweptThrough = some swept ∧ event.position ≤ swept) ∧
    (∀ caller consumers consumerId fromPosition now replayed,
      replayHandler caller consumers s.tables consumerId fromPosition now = .ok replayed →
      ∀ id event, s.published.lookup id = some event →
        event.type = replayed.subscription.eventType → fromPosition ≤ event.position →
        replayed.tables.outbox.lookup id = some event ∧
          (∃ row, replayed.tables.deliveries.lookup (id, consumerId) = some row ∧
            row.state = .pending) ∧
          replayed.tables.processed.lookup (id, consumerId) = none) := by
  have hok := tablesOk hs
  refine ⟨fun key row hrow => ?_, hok.processed, fun a t hstep id event hevent hgone => ?_,
    fun t hrun swept hswept => ?_, fun id event hevent hgone => ?_,
    fun _ _ _ _ _ _ h _ _ hevent htype hposition => replay_covers hok h hevent htype hposition⟩
  · obtain ⟨event, hevent, -⟩ := hok.delivery key row hrow
    exact ⟨event, hevent⟩
  · rintro key row hrow rfl
    rcases (eventLoop_cases hstep).keeps hok with ⟨sweep, hsweep, hfinished, htables⟩ | ⟨hkeep, -⟩
    · have hdeleted : key.1 ∈ sweep.deletedIds := by
        by_contra hkept
        have hstays := Sweep.lookup_outbox.mpr ⟨hevent, hkept⟩
        rw [htables] at hgone
        exact absurd (hstays.symm.trans hgone) (by simp)
      have hsettled := (hok.sweep sweep hsweep).settled_of_deleted hrow hdeleted
      cases hstate : row.state <;> simp_all [DeliveryState.isSettled]
    · exact absurd ((hkeep key.1 event hevent).symm.trans hgone) (by simp)
  · -- A run moves the record as its steps do.
    refine Machine.Reachable.stable
      (P := fun t => ∃ swept', t.tables.sweptThrough = some swept' ∧ swept ≤ swept')
      (fun u a v hu hle hstep => ?_) hs ⟨swept, hswept, le_rfl⟩ hrun
    obtain ⟨swept', hswept', hle⟩ := hle
    rcases (eventLoop_cases hstep).keeps (tablesOk hu) with
      ⟨sweep, hsweep, -, htables⟩ | ⟨-, hsame⟩
    · obtain ⟨swept'', hswept'', hle'⟩ :=
        ((tablesOk hu).sweep sweep hsweep).sweptThrough_commit hswept'
      exact ⟨swept'', htables ▸ hswept'', hle.trans hle'⟩
    · exact ⟨swept', hsame.trans hswept', hle⟩
  · rcases hok.swept id event hevent with hretained | hswept
    · exact absurd (hretained.symm.trans hgone) (by simp)
    · exact hswept

/-- One replay-safe consumer of one event type. -/
def indexRegistry : ConsumerRegistry where
  subscriptions := [⟨"crm.index", "crm.contact.created", "crm", true⟩]
  nodup := by decide

/-- Two events are published and delivered, and a sweep deletes the older one. -/
def sweptRun : List EventAction :=
  [.publish indexRegistry ["crm"] 1 "crm.contact.created" "crm:contact:7" 10, .commitPublish 1,
    .lease 5 (1, "crm.index") 10, .visit 5 indexRegistry 3 10 10 none true,
    .handlerReturns 5 11 "duplicate key",
    .publish indexRegistry ["crm"] 2 "crm.contact.created" "crm:contact:7" 50, .commitPublish 2,
    .lease 5 (2, "crm.index") 50, .visit 5 indexRegistry 3 50 50 none true,
    .handlerReturns 5 51 "duplicate key",
    .beginSweep 20 10 1, .sweepNext, .sweepNext, .sweepNext, .commitSweep]

/-- The state `sweptRun` ends in. -/
def afterSweep : EventState :=
  (eventLoop.run emptyEvents sweptRun).getD emptyEvents

/-- Past a sweep, an event after the horizon is replayed. -/
theorem outbox_horizon_afterSweep :
    (∃ swept, afterSweep.tables.sweptThrough = some swept ∧ 1 ≤ swept) ∧
      ∃ replayed, replayHandler ⟨false, none, ["crm"]⟩ (some indexRegistry) afterSweep.tables
          "crm.index" 2 60 = .ok replayed ∧
        ∃ row, replayed.tables.deliveries.lookup (2, "crm.index") = some row ∧
          row.state = .pending := by
  have hrun : eventLoop.run emptyEvents sweptRun = some afterSweep := rfl
  obtain ⟨-, -, -, -, hcovered, hreplay⟩ := outbox_horizon (Machine.reachable_of_run rfl hrun)
  refine ⟨hcovered 1 ⟨"crm.contact.created", "crm:contact:7", 1, 10⟩ rfl rfl, _, rfl, ?_⟩
  exact (hreplay ⟨false, none, ["crm"]⟩ (some indexRegistry) "crm.index" 2 60 _ rfl 2
    ⟨"crm.contact.created", "crm:contact:7", 2, 50⟩ rfl rfl (by decide)).2.1

end Rheostream
