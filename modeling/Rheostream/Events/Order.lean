import Rheostream.Events.ExactlyOnce

/-!
# Deliveries of one subject are in order

The lease statement asks for no earlier unsettled row among those it can see, so order rests
on what can make such a row appear behind a later one in flight. A replay cannot, since it
locks the table and refuses a range in flight; a retry cannot, since a failed row was blocking
already. A publish can: its position is taken at the insert and its rows appear at the commit.
Where no publish commits behind a later delivery that is leased or has had its effects, order
holds in every reachable state.
-/

namespace Rheostream

/-- The order of one consumer's deliveries of one subject: one in flight at a time, nothing
unsettled before it, and effects in the order of positions between replays. -/
structure SubjectOrder (s : EventState) : Prop where
  one_leased : ∀ key key' row row', s.tables.deliveries.lookup key = some row →
    s.tables.deliveries.lookup key' = some row' → key'.2 = key.2 →
    row'.subjectRef = row.subjectRef → row.state = .leased → row'.state = .leased → key' = key
  earlier_settled : ∀ key key' row row', s.tables.deliveries.lookup key = some row →
    s.tables.deliveries.lookup key' = some row' → key'.2 = key.2 →
    row'.subjectRef = row.subjectRef → row.state = .leased → row'.position < row.position →
    row'.state = .delivered ∨ row'.state = .skipped
  effects_ordered : s.effects.Pairwise fun later earlier =>
    later.key.2 = earlier.key.2 → later.subjectRef = earlier.subjectRef →
    later.replays = earlier.replays → earlier.position < later.position

/-- Whether a later delivery of the same consumer and subject is leased, or has had its
effects since the consumer was last replayed. -/
def EventState.overtaken (s : EventState) (consumerId subjectRef : String) (position : ℕ) :
    Bool :=
  (s.tables.deliveries.existsRow fun key later => key.2 = consumerId &&
    later.subjectRef = subjectRef && position < later.position && later.state = .leased) ||
  s.effects.any fun effect => effect.key.2 = consumerId && effect.subjectRef = subjectRef &&
    position < effect.position && effect.replays = s.replays consumerId

/-- A commit of a publish none of whose deliveries has been overtaken. -/
def commitsInOrder (s : EventState) : EventAction → Bool
  | .commitPublish id => (s.publishing.lookup id).all fun publication =>
    publication.deliveries.all fun (key, row) => !s.overtaken key.2 row.subjectRef row.position
  | _ => true

/-- The event system in which publishes commit in order. -/
def orderlyLoop : Machine EventState EventAction :=
  eventLoop.restrict fun s a => commitsInOrder s a = true

/-- What order rests on: a leased row has nothing unsettled before it, and effects committed
since the last replay lie before everything unsettled. -/
structure OrderOk (s : EventState) : Prop where
  settled : ∀ key key' row row', s.tables.deliveries.lookup key = some row →
    s.tables.deliveries.lookup key' = some row' → key'.2 = key.2 →
    row'.subjectRef = row.subjectRef → row.state = .leased → row'.position < row.position →
    row'.state.isSettled = true
  ahead : ∀ effect ∈ s.effects, effect.replays = s.replays effect.key.2 →
    ∀ key row, s.tables.deliveries.lookup key = some row → key.2 = effect.key.2 →
      row.subjectRef = effect.subjectRef → row.state.isSettled = false →
      effect.position < row.position
  replays_le : ∀ effect ∈ s.effects, effect.replays ≤ s.replays effect.key.2
  placed : ∀ effect ∈ s.effects, ∃ event, s.published.lookup effect.key.1 = some event ∧
    effect.position = event.position
  sorted : s.effects.Pairwise fun later earlier =>
    later.key.2 = earlier.key.2 → later.subjectRef = earlier.subjectRef →
    later.replays = earlier.replays → earlier.position < later.position

namespace OrderOk

variable {s t : EventState} {a : EventAction}

variable {row : DeliveryRow}

private theorem unsettled_of_leased (h : row.state = .leased) :
    row.state.isSettled = false := by
  rw [h]
  rfl

/-- Fewer rows and no new effects keep the order. -/
private theorem of_rows (h : OrderOk s) (heffects : t.effects = s.effects)
    (hreplays : t.replays = s.replays)
    (hpublished : ∀ id event, s.published.lookup id = some event →
      t.published.lookup id = some event)
    (hrows : ∀ key row, t.tables.deliveries.lookup key = some row →
      s.tables.deliveries.lookup key = some row) : OrderOk t := by
  refine ⟨fun key key' row row' hrow hrow' => h.settled key key' row row' (hrows _ _ hrow)
    (hrows _ _ hrow'), fun effect heffect hlast key row hrow => ?_, ?_,
    fun effect heffect => ?_, ?_⟩
  · rw [heffects] at heffect
    rw [hreplays] at hlast
    exact h.ahead effect heffect hlast key row (hrows key row hrow)
  · simpa only [heffects, hreplays] using h.replays_le
  · rw [heffects] at heffect
    obtain ⟨event, hevent, hat⟩ := h.placed effect heffect
    exact ⟨event, hpublished _ event hevent, hat⟩
  · simpa only [heffects] using h.sorted

/-- Writing a row that was not settled keeps the order, if it is not leased by that, or
nothing unsettled was before it. -/
private theorem write (h : OrderOk s) {key : DeliveryKey} {row' : DeliveryRow}
    (hrow : s.tables.deliveries.lookup key = some row)
    (hrows : ∀ other, t.tables.deliveries.lookup other =
      if other = key then some row' else s.tables.deliveries.lookup other)
    (hunsettled : row.state.isSettled = false) (hsubject : row'.subjectRef = row.subjectRef)
    (hposition : row'.position = row.position)
    (hfree : row'.state = .leased → ∀ other earlier,
      s.tables.deliveries.lookup other = some earlier → other.2 = key.2 →
      earlier.subjectRef = row.subjectRef → earlier.position < row.position →
      earlier.state.isSettled = true)
    (heffects : t.effects = s.effects) (hreplays : t.replays = s.replays)
    (hpublished : t.published = s.published) : OrderOk t := by
  refine ⟨fun later earlier laterRow earlierRow hlater hearlier hconsumer hsame hleased
    hbefore => ?_, fun effect heffect hlast other new hnew hconsumer hsame hopen => ?_, ?_, ?_, ?_⟩
  · rw [hrows] at hlater hearlier
    split at hlater
    · subst later
      obtain rfl := Option.some.inj hlater
      split at hearlier
      · obtain rfl := Option.some.inj hearlier
        omega
      · rw [hsubject] at hsame
        rw [hposition] at hbefore
        exact hfree hleased earlier earlierRow hearlier hconsumer hsame hbefore
    · split at hearlier
      · -- A later leased row would have found the old row settled.
        subst earlier
        obtain rfl := Option.some.inj hearlier
        rw [hsubject] at hsame
        rw [hposition] at hbefore
        have hsettled :=
          h.settled later key laterRow row hlater hrow hconsumer hsame hleased hbefore
        simp [hunsettled] at hsettled
      · exact h.settled later earlier laterRow earlierRow hlater hearlier hconsumer hsame hleased
          hbefore
  · rw [heffects] at heffect
    rw [hreplays] at hlast
    rw [hrows] at hnew
    split at hnew
    · subst other
      obtain rfl := Option.some.inj hnew
      rw [hsubject] at hsame
      rw [hposition]
      exact h.ahead effect heffect hlast key row hrow hconsumer hsame hunsettled
    · exact h.ahead effect heffect hlast other new hnew hconsumer hsame hopen
  · simpa only [heffects, hreplays] using h.replays_le
  · simpa only [heffects, hpublished] using h.placed
  · simpa only [heffects] using h.sorted

/-- A publish that commits in order adds nothing unsettled before a later row in flight. -/
private theorem commit (h : OrderOk s) (hok : TablesOk s) {id : Uuid} {publication : Publication}
    (hpublication : s.publishing.lookup id = some publication)
    (horder : commitsInOrder s (.commitPublish id) = true)
    (hrows : ∀ key row, t.tables.deliveries.lookup key = some row →
      s.tables.deliveries.lookup key = some row ∨
        Table.rowOf publication.deliveries key = some row)
    (heffects : t.effects = s.effects) (hreplays : t.replays = s.replays)
    (hpublished : t.published = s.published.insert id publication.row) : OrderOk t := by
  have hfresh := hok.publishing_fresh id publication hpublication
  have hovertaken : ∀ {key row}, Table.rowOf publication.deliveries key = some row →
      s.overtaken key.2 row.subjectRef row.position = false := by
    intro key row hrow
    simp only [commitsInOrder, hpublication, Option.all_some, List.all_eq_true] at horder
    simpa using horder _ (Table.mem_of_rowOf hrow)
  have hnew : ∀ {key row}, Table.rowOf publication.deliveries key = some row →
      row.state = .pending ∧ row.position = publication.row.position := by
    intro key row hrow
    obtain ⟨-, now, rfl⟩ := hok.fanOut id publication hpublication key row hrow
    exact ⟨rfl, rfl⟩
  refine ⟨fun later earlier laterRow earlierRow hlater hearlier hconsumer hsame hleased
    hbefore => ?_, fun effect heffect hlast key row hrow hconsumer hsame hopen => ?_, ?_,
    fun effect heffect => ?_, ?_⟩
  · rcases hrows later laterRow hlater with hlater | hlater
    · rcases hrows earlier earlierRow hearlier with hearlier | hearlier
      · exact h.settled later earlier laterRow earlierRow hlater hearlier hconsumer hsame hleased
          hbefore
      · have hnone := hovertaken hearlier
        simp only [EventState.overtaken, Bool.or_eq_false_iff, Table.existsRow_eq_false] at hnone
        have := hnone.1 later laterRow hlater
        simp [hconsumer, hsame, hbefore, hleased] at this
    · rw [(hnew hlater).1] at hleased
      cases hleased
  · rw [heffects] at heffect
    rw [hreplays] at hlast
    rcases hrows key row hrow with hrow | hrow
    · exact h.ahead effect heffect hlast key row hrow hconsumer hsame hopen
    · have hnone := hovertaken hrow
      simp only [EventState.overtaken, Bool.or_eq_false_iff, List.any_eq_false] at hnone
      have hle := hnone.2 effect heffect
      simp only [hconsumer, hsame, hlast, decide_true, Bool.true_and, Bool.and_true,
        decide_eq_true_eq, not_lt] at hle
      -- The effect's event has committed and this one has not, so they are not at one position.
      obtain ⟨event, hevent, hat⟩ := h.placed effect heffect
      have hdiffer : effect.position ≠ row.position := by
        intro hequal
        rw [(hnew hrow).2, hat] at hequal
        have hid := hok.position_inj effect.key.1 id event.position
          (by simp [EventState.position?, hevent])
          (by simp [EventState.position?, hfresh, hpublication, hequal])
        rw [hid, hfresh] at hevent
        cases hevent
      omega
  · simpa only [heffects, hreplays] using h.replays_le
  · rw [heffects] at heffect
    obtain ⟨event, hevent, hat⟩ := h.placed effect heffect
    have hid : effect.key.1 ≠ id := by
      intro hid
      rw [hid, hfresh] at hevent
      cases hevent
    exact ⟨event, by rw [hpublished, AList.lookup_insert_ne hid, hevent], hat⟩
  · simpa only [heffects] using h.sorted

/-- A replay resets rows at or after its position, where nothing of the consumer is leased,
and leaves no effect of the consumer to be ahead of. -/
private theorem replay (h : OrderOk s) {consumerId : String} {fromPosition now : ℕ}
    {replayed : Replayed} (hidle : s.tables.inFlight consumerId fromPosition = none)
    (htables : replayed.tables = s.tables.replayDeliveries consumerId
      replayed.subscription.eventType fromPosition now) :
    OrderOk (s.replay consumerId fromPosition replayed) := by
  -- Every row afterwards is as it was, or pending and in the range.
  have hrows : ∀ key row, replayed.tables.deliveries.lookup key = some row →
      s.tables.deliveries.lookup key = some row ∨
        key.2 = consumerId ∧ row.state = .pending ∧ fromPosition ≤ row.position := by
    intro key row hrow
    rw [htables] at hrow
    cases hold : s.tables.deliveries.lookup key with
    | none =>
      rw [EventTables.lookup_replayDeliveries_missing hold] at hrow
      obtain ⟨hconsumer, hrow⟩ := Option.ite_none_right_eq_some.mp hrow
      obtain ⟨event, hevent, rfl⟩ := Option.map_eq_some_iff.mp hrow
      have hmatch := (Option.filter_eq_some_iff.mp hevent).2
      simp only [Bool.and_eq_true, decide_eq_true_eq] at hmatch
      exact .inr ⟨hconsumer, rfl, hmatch.2⟩
    | some old =>
      rw [EventTables.lookup_replayDeliveries hold] at hrow
      split at hrow
      case isTrue hresets =>
        obtain rfl := Option.some.inj hrow
        simp only [EventTables.resets, Bool.and_eq_true, decide_eq_true_eq] at hresets
        exact .inr ⟨hresets.1.1.1, rfl, hresets.1.1.2⟩
      case isFalse => exact .inl hrow
  have hreplays : ∀ consumer, (s.replay consumerId fromPosition replayed).replays consumer =
      if consumer = consumerId then s.replays consumer + 1 else s.replays consumer := by
    intro consumer
    by_cases hconsumer : consumer = consumerId
    · subst hconsumer
      simp [EventState.replay]
    · simp [EventState.replay, hconsumer]
  refine ⟨fun later earlier laterRow earlierRow hlater hearlier hconsumer hsame hleased
    hbefore => ?_, fun effect heffect hlast key row hrow hconsumer hsame hopen => ?_,
    fun effect heffect => ?_, h.placed, h.sorted⟩
  · rcases hrows later laterRow hlater with hlater | ⟨-, hpending, -⟩
    · rcases hrows earlier earlierRow hearlier with hearlier | ⟨hin, -, hfrom⟩
      · exact h.settled later earlier laterRow earlierRow hlater hearlier hconsumer hsame hleased
          hbefore
      · have hunleased := EventTables.inFlight_eq_none hidle hlater (hconsumer ▸ hin) (by omega)
        exact absurd hleased hunleased
    · rw [hpending] at hleased
      cases hleased
  · have hle := h.replays_le effect heffect
    rw [hreplays] at hlast
    split at hlast
    · omega
    case isFalse hother =>
      rcases hrows key row hrow with hrow | ⟨hin, -⟩
      · exact h.ahead effect heffect hlast key row hrow hconsumer hsame hopen
      · exact absurd (hconsumer.symm.trans hin) hother
  · have hle := h.replays_le effect heffect
    rw [hreplays]
    split <;> omega

/-- The effects of a standing lease come after all the others of its pair. -/
private theorem deliver (h : OrderOk s) (hok : TablesOk s) (hheld : HeldOk s) {owner : Uuid}
    {lease : Lease} {round now : ℕ} (hphase : s.workers owner = .running lease round)
    (hrow : s.tables.deliveries.lookup lease.key = some row) (howned : row.isHeld owner = true)
    (heffects : t.effects =
      { key := lease.key
        subjectRef := lease.delivery.subjectRef
        position := lease.delivery.position
        enteredRound := round
        round := s.round lease.key
        replays := s.replays lease.key.2 } :: s.effects)
    (hreplays : t.replays = s.replays) (hpublished : t.published = s.published)
    (hrows : ∀ other, t.tables.deliveries.lookup other =
      if other = lease.key then some ((DeliveryRow.markDelivered owner now).set row)
      else s.tables.deliveries.lookup other) : OrderOk t := by
  obtain ⟨-, hdelivery, -⟩ := hheld owner lease row (by rw [hphase]; rfl) hrow howned
  have hleased := (DeliveryRow.isHeld_iff.mp howned).2
  have hsubject : lease.delivery.subjectRef = row.subjectRef := by rw [hdelivery]; rfl
  have hposition : lease.delivery.position = row.position := by rw [hdelivery]; rfl
  have hopen := unsettled_of_leased hleased
  have hquiet : OrderOk { t with effects := s.effects } :=
    h.write hrow hrows hopen rfl rfl (fun hstate => by simp [DeliveryRow.markDelivered] at hstate)
      rfl hreplays hpublished
  refine ⟨hquiet.settled, fun effect heffect hlast key new hnew hconsumer hsame hunsettled => ?_,
    fun effect heffect => ?_, fun effect heffect => ?_, ?_⟩
  · rcases List.mem_cons.mp (heffects ▸ heffect) with rfl | hold
    · -- Everything before a leased row is settled, and at its own position there is only it.
      rw [hrows] at hnew
      split at hnew
      · obtain rfl := Option.some.inj hnew
        simp [DeliveryRow.markDelivered, DeliveryState.isSettled] at hunsettled
      case isFalse hne =>
        have hafter : ¬new.position < row.position := by
          intro hbefore
          have hsettled := h.settled lease.key key row new hrow hnew hconsumer
            (hsame.trans hsubject) hleased hbefore
          simp [hunsettled] at hsettled
        have hdiffer : new.position ≠ row.position := fun hequal =>
          hne (hok.key_inj hnew hrow hconsumer hequal)
        simp only [hposition]
        omega
    · exact hquiet.ahead effect hold hlast key new hnew hconsumer hsame hunsettled
  · rw [hreplays]
    rcases List.mem_cons.mp (heffects ▸ heffect) with rfl | hold
    · exact le_rfl
    · exact h.replays_le effect hold
  · rw [hpublished]
    rcases List.mem_cons.mp (heffects ▸ heffect) with rfl | hold
    · obtain ⟨event, hevent, -, hat⟩ := hok.delivery lease.key row hrow
      exact ⟨event, hok.retained _ event hevent, hposition.trans hat⟩
    · exact h.placed effect hold
  · rw [heffects]
    refine List.pairwise_cons.mpr ⟨fun effect hold hconsumer hsame hlast => ?_, h.sorted⟩
    have hahead := h.ahead effect hold
    simp only at hconsumer hsame hlast ⊢
    rw [hposition]
    refine hahead ?_ lease.key row hrow hconsumer (hsubject.symm.trans hsame) hopen
    rw [← hlast, hconsumer]

/-- Every step of the orderly system keeps the order. -/
theorem step (h : OrderOk s) (hok : TablesOk s) (hheld : HeldOk s)
    (horder : commitsInOrder s a = true) (hstep : EventStep s a t) : OrderOk t := by
  cases hstep with
  | publish | abortPublish | enter | move | beginSweep | sweepNext | rollbackSweep =>
    exact h.of_rows rfl rfl (fun _ _ => id) (fun _ _ => id)
  | commitPublish hpublication =>
    refine h.commit hok hpublication horder (fun key row hrow => ?_) rfl rfl rfl
    rw [EventTables.commit, Table.lookup_insertMissing, Option.or_eq_some_iff] at hrow
    exact hrow.imp_right And.right
  | @lease owner key now row hidle hrow hdue hfree =>
    refine h.write hrow (fun _ => Table.lookup_insert _ _ _ _) ?_ rfl rfl (fun _ => ?_) rfl rfl
      rfl
    · rcases DeliveryRow.isDue_state hdue with hstate | hstate <;> rw [hstate] <;> rfl
    · exact Deliveries.isBlocked_eq_false.mp hfree
  | finish _ hrow howned =>
    have hopen := unsettled_of_leased (DeliveryRow.isHeld_iff.mp howned).2
    exact h.write hrow (fun _ => Table.lookup_insert _ _ _ _) hopen (by simp) (by simp)
      (fun hstate => absurd hstate (DeliveryWrite.set_state_ne _).1) rfl rfl rfl
  | deliver hphase hrow howned =>
    exact h.deliver hok hheld hphase hrow howned rfl rfl rfl
      fun _ => Table.lookup_insert _ _ _ _
  | retry hrow hfailed =>
    exact h.write hrow (fun _ => Table.lookup_insert _ _ _ _) (by rw [hfailed]; rfl) rfl rfl
      (fun hstate => by simp [DeliveryRow.retryDelivery] at hstate) rfl rfl rfl
  | skip hrow hfailed =>
    exact h.write hrow (fun _ => Table.lookup_insert _ _ _ _) (by rw [hfailed]; rfl) rfl rfl
      (fun hstate => by simp [DeliveryRow.skipDelivery] at hstate) rfl rfl rfl
  | replay _ hreplayed =>
    obtain ⟨-, hidle, htables⟩ := replayHandler_eq_ok hreplayed
    exact h.replay hidle htables
  | commitSweep hsweep hfinished =>
    refine h.of_rows rfl rfl (fun _ _ => id) fun key row hrow => ?_
    exact (((hok.sweep _ hsweep).lookup_commit_deliveries hfinished key row).mp hrow).1

/-- What order rests on gives the order. -/
theorem subjectOrder (h : OrderOk s) (hok : TablesOk s) : SubjectOrder s := by
  refine ⟨fun key key' row row' hrow hrow' hconsumer hsame hleased hleased' => ?_,
    fun key key' row row' hrow hrow' hconsumer hsame hleased hbefore => ?_, h.sorted⟩
  · have hnotBefore : ¬row'.position < row.position := fun hbefore => by
      have hsettled := h.settled key key' row row' hrow hrow' hconsumer hsame hleased hbefore
      simp [unsettled_of_leased hleased'] at hsettled
    have hnotAfter : ¬row.position < row'.position := fun hbefore => by
      have hsettled := h.settled key' key row' row hrow' hrow hconsumer.symm hsame.symm hleased'
        hbefore
      simp [unsettled_of_leased hleased] at hsettled
    exact hok.key_inj hrow' hrow hconsumer (by omega)
  · have hsettled := h.settled key key' row row' hrow hrow' hconsumer hsame hleased hbefore
    cases hstate : row'.state <;> simp_all [DeliveryState.isSettled]

end OrderOk

/-- A failed row stays failed until a person retries or skips it, or has its consumer
replayed. -/
theorem failed_stays {s t : EventState} {a : EventAction} (hok : TablesOk s)
    (hstep : EventStep s a t) {key : DeliveryKey} {row : DeliveryRow}
    (hrow : s.tables.deliveries.lookup key = some row) (hfailed : row.state = .failed) :
    t.tables.deliveries.lookup key = some row ∨ (∃ caller now, a = .retry caller key now) ∨
      (∃ caller now note, a = .skip caller key now note) ∨
      ∃ caller consumers fromPosition now, a = .replay caller consumers key.2 fromPosition now := by
  -- A write of another row leaves this one, and no write but a person's is of a failed one.
  have hinsert : ∀ {key' : DeliveryKey} {old new : DeliveryRow},
      s.tables.deliveries.lookup key' = some old → old.state ≠ .failed →
      (s.tables.deliveries.insert key' new).lookup key = some row := by
    intro key' old new hold hstate
    have hne : key ≠ key' := by
      rintro rfl
      obtain rfl := Option.some.inj (hrow.symm.trans hold)
      exact hstate hfailed
    rwa [AList.lookup_insert_ne hne]
  cases hstep with
  | publish | abortPublish | enter | move | beginSweep | sweepNext | rollbackSweep =>
    exact .inl hrow
  | commitPublish =>
    refine .inl ?_
    rw [EventTables.commit, Table.lookup_insertMissing, hrow]
    rfl
  | lease _ hold hdue =>
    refine .inl (hinsert hold ?_)
    rcases DeliveryRow.isDue_state hdue with hstate | hstate <;> simp [hstate]
  | finish _ hold howned | deliver _ hold howned =>
    refine .inl (hinsert hold ?_)
    simp [(DeliveryRow.isHeld_iff.mp howned).2]
  | @retry caller key' now =>
    by_cases hkey : key = key'
    · subst hkey
      exact .inr (.inl ⟨caller, now, rfl⟩)
    · exact .inl ((AList.lookup_insert_ne hkey).trans hrow)
  | @skip caller key' now note =>
    by_cases hkey : key = key'
    · subst hkey
      exact .inr (.inr (.inl ⟨caller, now, note, rfl⟩))
    · exact .inl ((AList.lookup_insert_ne hkey).trans hrow)
  | @replay caller consumers consumerId fromPosition now replayed _ hreplayed =>
    obtain ⟨-, -, htables⟩ := replayHandler_eq_ok hreplayed
    by_cases hconsumer : key.2 = consumerId
    · exact .inr (.inr (.inr ⟨caller, consumers, fromPosition, now, by rw [hconsumer]⟩))
    · refine .inl ?_
      rw [EventState.replay, htables, EventTables.lookup_replayDeliveries hrow]
      simp [EventTables.resets, hconsumer]
  | commitSweep hsweep hfinished =>
    refine .inl (((hok.sweep _ hsweep).lookup_commit_deliveries hfinished key row).mpr
      ⟨hrow, fun hgone => ?_⟩)
    have hsettled := (hok.sweep _ hsweep).settled_of_deleted hrow hgone
    simp [hfailed, DeliveryState.isSettled] at hsettled

/-- The order is kept in every run whose publishes commit in order. -/
theorem orderOk {s : EventState} (hs : orderlyLoop.Reachable s) : OrderOk s := by
  refine Machine.Reachable.invariant ?_ (fun s a t hs hok hstep => ?_) hs
  · rintro _ rfl
    refine ⟨?_, ?_, ?_, ?_, ?_⟩ <;> simp [emptyEvents]
  · obtain ⟨horder, hstep⟩ := Machine.restrict_step.mp hstep
    exact hok.step (tablesOk hs.of_restrict) (deliveredOk hs.of_restrict).1 horder
      (eventLoop_cases hstep)

/-- Where no publish commits behind a later delivery that is leased or has had its effects,
each consumer's deliveries of one subject are in order in every reachable state, and a failed
head goes on blocking what is behind it until a person acts on it. -/
theorem deliveries_in_subject_order {s : EventState} (hs : orderlyLoop.Reachable s) :
    SubjectOrder s ∧ ∀ a t, orderlyLoop.step s a = some t → ∀ key row,
      s.tables.deliveries.lookup key = some row → row.state = .failed →
      t.tables.deliveries.lookup key = some row ∨ (∃ caller now, a = .retry caller key now) ∨
        (∃ caller now note, a = .skip caller key now note) ∨
        ∃ caller consumers fromPosition now,
          a = .replay caller consumers key.2 fromPosition now := by
  have hok := tablesOk hs.of_restrict
  refine ⟨(orderOk hs).subjectOrder hok, fun a t hstep key row hrow hfailed => ?_⟩
  exact failed_stays hok (eventLoop_cases (Machine.restrict_step.mp hstep).2) hrow hfailed

/-- Two publishes of one subject, the positions taken in order and committed in the given
one, with a lease after each commit. -/
def twoPublishes (first second : Uuid) : List EventAction :=
  [.publish indexRegistry ["crm"] 1 "crm.contact.created" "crm:contact:7" 10,
    .publish indexRegistry ["crm"] 2 "crm.contact.created" "crm:contact:7" 11,
    .commitPublish first, .lease 5 (first, "crm.index") 20, .commitPublish second]

/-- The state after two publishes. -/
def afterPublishes (first second : Uuid) : EventState :=
  (eventLoop.run emptyEvents (twoPublishes first second)).getD emptyEvents

/-- Two publishes in order are leased in order. -/
theorem deliveries_in_subject_order_afterPublishes :
    SubjectOrder (afterPublishes 1 2) ∧
      ((afterPublishes 1 2).tables.deliveries.lookup (1, "crm.index")).map DeliveryRow.state =
        some .leased := by
  have hrun : orderlyLoop.run emptyEvents (twoPublishes 1 2) = some (afterPublishes 1 2) := rfl
  exact ⟨(deliveries_in_subject_order (Machine.reachable_of_run rfl hrun)).1, rfl⟩

/-- A publish that took the earlier position and commits second puts a pending row before one
that is leased. -/
theorem late_commit_overtaken : ¬∀ s, eventLoop.Reachable s → SubjectOrder s := by
  intro h
  have hrun : eventLoop.run emptyEvents (twoPublishes 2 1) = some (afterPublishes 2 1) := rfl
  have horder := h _ (Machine.reachable_of_run rfl hrun)
  have hsettled := horder.earlier_settled (2, "crm.index") (1, "crm.index") _ _ rfl rfl rfl rfl
    rfl (by decide)
  revert hsettled
  decide

end Rheostream
