import Rheostream.Leads.CurrentLinksLaws

/-!
# The projection follows the highest revision, and the repair misses nothing

The links of the handoffs under every order of events, with duplicates and gaps, of repair
jobs with any page size, of requests, new attempts and erasures between them, and of whatever
the reads of a repair answer. The history of each scan records its pages, so a cycle is a
stretch of pages between two that wrapped.
-/

namespace Rheostream.Leads

namespace LinkState

variable {s t : LinkState} {id : Uuid} {row row' : Handoff}

/-- A link that is not for a handoff here, or not for its item, leaves everything as it was. -/
theorem applyTo_eq_self (id : Uuid) (link : CurrentLink)
    (hnot : (s.handoffs.lookup id).any (fun row => row.isForItem link) = false) :
    (s.applyTo id link).1 = s := by
  have hnone : s.handoffs.updateRow id (linkUpdate link) = none := by
    refine Table.updateRow_eq_none.mpr fun row hrow => ?_
    have hitem : row.isForItem link = false := by simpa [hrow] using hnot
    simp [linkUpdate, hitem]
  simp [applyTo, Table.updateIf, hnone, hnot]

/-- A delivered event leaves everything as it was, or applies its link to one row. -/
theorem onLinkChanged_ok (e : LinkEvent) :
    s.onLinkChanged e = s ∨ ∃ id row row',
      s.handoffs.lookup id = some row ∧ Writes s (s.onLinkChanged e) id row row' := by
  unfold onLinkChanged
  split_ifs
  · exact .inl rfl
  · cases e.data.bind RawLink.validate with
    | none => exact .inl rfl
    | some link =>
      simp only [applyLink]
      cases handoffId link.sourceRef with
      | none => exact .inl rfl
      | some id =>
        cases hitem : (s.handoffs.lookup id).any fun row => row.isForItem link with
        | false => exact .inl (s.applyTo_eq_self id link hitem)
        | true =>
          obtain ⟨row, hrow, hfor⟩ := Option.any_eq_true _ _ |>.mp hitem
          exact .inr ⟨id, row, _, hrow, applyTo_ok hrow link hfor⟩

variable {answer : ReadAnswer ActionRecord}

theorem isSome_of_latestRead {read : ActionRead} (h : row.latestRead answer = some read) :
    row.externalActionId.isSome = true := by
  unfold Handoff.latestRead at h
  cases haction : row.externalActionId with
  | none => simp [haction] at h
  | some actionId => rfl

/-- Copying the outcome of the latest attempt keeps the identity of the row, its projection
and its checks. -/
theorem copied_ok (row : Handoff) (answer : ReadAnswer ActionRecord) (now : ℕ) :
    (row.copied (row.latestRead answer) now).requestedAt = row.requestedAt ∧
      (row.copied (row.latestRead answer) now).projection = row.projection ∧
        (row.Checked → (row.copied (row.latestRead answer) now).Checked) := by
  cases hread : row.latestRead answer with
  | none => exact ⟨rfl, rfl, fun h => h⟩
  | some read =>
    obtain ⟨hkey, hlink⟩ := outcomeValues_frame row read now
    exact ⟨hkey, hlink, fun h => outcomeValues_checked h (isSome_of_latestRead hread) read now⟩

/-- Refreshing a handoff writes its row, and applies no link. -/
theorem refresh_ok (hrow : s.handoffs.lookup id = some row) (answer : ReadAnswer ActionRecord)
    (now : ℕ) : ∃ row', Writes s (s.refresh id row answer now) id row row' := by
  have hcopied := copied_ok row answer now
  unfold refresh
  cases hread : row.latestRead answer with
  | none => exact ⟨row, Writes.refl hrow⟩
  | some read =>
    rw [hread] at hcopied
    obtain ⟨hkey, hlink, hchecked⟩ := hcopied
    exact ⟨_, writeHandoff_ok hrow hlink hkey hchecked⟩

/-- Staging an attempt keeps the identity of the row, its projection and its checks. -/
theorem stage_ok {attempt : ℕ} {staged : StagedAttempt} (h : stage row attempt staged = .ok row')
    (hattempt : 1 ≤ attempt) :
    row'.requestedAt = row.requestedAt ∧ row'.projection = row.projection ∧
      (row.Checked → row'.Checked) := by
  unfold stage at h
  split_ifs at h with hsuccess
  obtain rfl := Except.ok.inj h
  refine ⟨rfl, rfl, fun hchecked => ?_⟩
  refine { hchecked with
    attempts := ?_, pendingStaged := fun _ => rfl, successResult := fun heq => ?_ }
  · constructor
    · intro hzero
      have hzero' : attempt = 0 := hzero
      omega
    · intro hnone
      cases hnone
  · exact absurd heq hsuccess

/-- A request is answered by a handoff that is there, or inserts one that keeps no link. -/
theorem handoff_ok {m : HandoffInput} {now : ℕ} (h : s.handoff id m answer now = .ok t) :
    (∃ k row row', s.handoffs.lookup k = some row ∧ Writes s t k row row') ∨
      ∃ row, row.Checked ∧ row.projection = none ∧ t = { s with
        handoffs := s.handoffs.insert id row
        applied := Function.update s.applied id []
        made := insert (row.scanKey id) s.made } := by
  unfold handoff at h
  split at h
  · next existing row hfind =>
    split_ifs at h
    obtain rfl := Except.ok.inj h
    have hrow := (Table.findRow_eq_some hfind).1
    obtain ⟨row', hwrites⟩ := refresh_ok hrow answer now
    exact .inl ⟨existing, row, row', hrow, hwrites⟩
  · have hfresh : (requestedRow m now).Checked := by
      constructor <;> simp [requestedRow]
    cases hfirst : firstAttempt (requestedRow m now) m with
    | error refusal =>
      rw [hfirst] at h
      cases h
    | ok row =>
      rw [hfirst] at h
      refine .inr ⟨row, ?_, ?_, (Except.ok.inj h).symm⟩
      · unfold firstAttempt at hfirst
        split at hfirst
        · split_ifs at hfirst
          · exact (stage_ok hfirst le_rfl).2.2 hfresh
          · exact Except.ok.inj hfirst ▸ hfresh
        · exact Except.ok.inj hfirst ▸ hfresh
      · unfold firstAttempt at hfirst
        split at hfirst
        · split_ifs at hfirst
          · exact (stage_ok hfirst le_rfl).2.1
          · exact Except.ok.inj hfirst ▸ rfl
        · exact Except.ok.inj hfirst ▸ rfl

/-- A new attempt writes its row, and applies no link. -/
theorem handoffRestage_ok {attemptCount : ℕ} {staged : Option StagedAttempt} {now : ℕ}
    (h : s.handoffRestage id attemptCount answer staged now = .ok t) :
    ∃ row row', s.handoffs.lookup id = some row ∧ Writes s t id row row' := by
  unfold handoffRestage at h
  cases hrow : s.handoffs.lookup id with
  | none =>
    rw [hrow] at h
    cases h
  | some row =>
    rw [hrow] at h
    dsimp only at h
    split at h
    · obtain rfl := Except.ok.inj h
      obtain ⟨row', hwrites⟩ := refresh_ok hrow answer now
      exact ⟨row, row', rfl, hwrites⟩
    · split at h
      · cases h
      · split at h
        · cases h
        · cases staged with
          | none => cases h
          | some attempt =>
            obtain ⟨hkey, hlink, hchecked⟩ := copied_ok row answer now
            dsimp only at h
            cases hstage : stage (row.copied (row.latestRead answer) now)
              ((row.copied (row.latestRead answer) now).attemptCount + 1) attempt with
            | error refusal =>
              rw [hstage] at h
              cases h
            | ok next =>
              rw [hstage] at h
              obtain rfl := Except.ok.inj h
              obtain ⟨hkey', hlink', hchecked'⟩ := stage_ok hstage (by omega)
              exact ⟨row, next, rfl, writeHandoff_ok hrow (hlink'.trans hlink) (hkey'.trans hkey)
                fun h => hchecked' (hchecked h)⟩

variable {size now : ℕ}

/-- What an accepted repair did: a page of each scan, the second after the first. -/
theorem reconcile_ok {answers : RepairAnswers} {r : ScanReport × ScanReport}
    (h : s.reconcile answers size now = .ok (t, r)) :
    1 ≤ size ∧ t = ((s.settleScan answers size now).1.relinkScan answers size now).1 := by
  unfold reconcile at h
  split_ifs at h with hsize
  exact ⟨by omega, (congrArg Prod.fst (Except.ok.inj h)).symm⟩

theorem settleScan_ok (answers : RepairAnswers) (size now : ℕ) :
    ScanOk (fun id row => row.settledBy id answers now) .nonterminal Handoff.isNonterminal size now
      s (s.settleScan answers size now).1 :=
  scan_ok (isRowwise_settle answers now) .nonterminal Handoff.isNonterminal size now

theorem relinkScan_ok (answers : RepairAnswers) (size now : ℕ) :
    ScanOk (fun id row => row.relinkedBy id (answers.link id)) .succeeded Handoff.isSucceeded size
      now s (s.relinkScan answers size now).1 :=
  scan_ok (isRowwise_relink answers) .succeeded Handoff.isSucceeded size now

/-- A repair, as a step. -/
theorem step_reconcile {answers : RepairAnswers} (h : s.step (.reconcile answers size now) = some t)
    : 1 ≤ size ∧ t = ((s.settleScan answers size now).1.relinkScan answers size now).1 := by
  obtain ⟨⟨t', r⟩, hanswer, rfl⟩ := Option.map_eq_some_iff.mp h
  exact reconcile_ok (accepted_iff.mp hanswer)

/-- The row of a request is the only one that no earlier state had. -/
theorem Agrees.handoff {m : HandoffInput} {now : ℕ} (hs : s.Agrees)
    (h : s.handoff id m answer now = .ok t) : t.Agrees := by
  obtain ⟨k, row, row', hrow, hwrites⟩ | ⟨row, hchecked, hlink, rfl⟩ := handoff_ok h
  · exact hwrites.agrees hs hrow
  · constructor
    · constructor
      · intro k r hr
        rw [Table.lookup_insert] at hr
        split_ifs at hr with hk
        · exact Option.some.inj hr ▸ hchecked
        · exact hs.checked k r hr
      · intro k r hr
        dsimp only at hr ⊢
        rw [Table.lookup_insert] at hr
        split_ifs at hr with hk
        · rw [hk, ← Option.some.inj hr, Function.update_self, hlink]
          rfl
        · rw [Function.update_of_ne hk]
          exact hs.highest k r hr
    · intro k r hr
      rw [Table.lookup_insert] at hr
      split_ifs at hr with hk
      · rw [hk, ← Option.some.inj hr]
        exact Finset.mem_insert_self _ _
      · exact Finset.mem_insert_of_mem (hs.keys k r hr)
    · exact hs.history
    · exact fun kind p hp key hkey => Finset.mem_insert_of_mem (hs.members kind p hp key hkey)
    · exact hs.cursor

theorem Agrees.step {a : LinkAction} (hs : s.Agrees) (h : s.step a = some t) : t.Agrees := by
  cases a with
  | handoff id m answer now =>
    obtain ⟨-, haccepted⟩ := Option.ite_none_left_eq_some.mp h
    exact hs.handoff (accepted_iff.mp haccepted)
  | restage id attemptCount answer staged now =>
    obtain ⟨row, row', hrow, hwrites⟩ := handoffRestage_ok (accepted_iff.mp h)
    exact hwrites.agrees hs hrow
  | erase affected =>
    obtain rfl := Option.some.inj h
    have hkept : ∀ k r, (s.eraseDerived affected).handoffs.lookup k = some r →
        s.handoffs.lookup k = some r := fun k r hr => (Table.lookup_deleteWhere_eq_some.mp hr).1
    exact hs.of_rows ⟨fun k r hr => hs.checked k r (hkept k r hr),
      fun k r hr => hs.highest k r (hkept k r hr)⟩ (fun k r hr => ⟨r, hkept k r hr, rfl⟩) rfl rfl
      rfl
  | deliver e =>
    obtain rfl := Option.some.inj h
    obtain hsame | ⟨id, row, row', hrow, hwrites⟩ := s.onLinkChanged_ok e
    · rw [hsame]
      exact hs
    · exact hwrites.agrees hs hrow
  | reconcile answers size now =>
    obtain ⟨hsize, rfl⟩ := step_reconcile h
    exact (relinkScan_ok answers size now).agrees
      ((settleScan_ok answers size now).agrees hs hsize) hsize

theorem agrees_of_reachable (hs : machine.Reachable s) : s.Agrees :=
  Machine.Reachable.invariant (I := Agrees) (fun _ h => Agrees.of_begins h)
    (fun _ _ _ _ h ht => h.step ht) hs

/-- A write of one row moves no projection back. -/
theorem Writes.forward_all (h : Writes s t id row row') (hrow : s.handoffs.lookup id = some row)
    {k : Uuid} {old new : Handoff} (hold : s.handoffs.lookup k = some old)
    (hnew : t.handoffs.lookup k = some new) : Forward old.projection new.projection := by
  rw [h.lookup] at hnew
  split_ifs at hnew with hk
  · obtain rfl := Option.some.inj hnew
    obtain rfl := Option.some.inj ((hk ▸ hrow).symm.trans hold)
    exact h.forward
  · obtain rfl := Option.some.inj (hold.symm.trans hnew)
    exact .inl rfl

/-- No step moves a projection back. -/
theorem forward_of_step {a : LinkAction} (h : s.step a = some t) {k : Uuid} {old new : Handoff}
    (hold : s.handoffs.lookup k = some old) (hnew : t.handoffs.lookup k = some new) :
    Forward old.projection new.projection := by
  cases a with
  | handoff id m answer now =>
    obtain ⟨hnone, haccepted⟩ := Option.ite_none_left_eq_some.mp h
    obtain ⟨j, row, row', hrow, hwrites⟩ | ⟨row, -, -, rfl⟩ :=
      handoff_ok (accepted_iff.mp haccepted)
    · exact hwrites.forward_all hrow hold hnew
    · rw [Table.lookup_insert] at hnew
      split_ifs at hnew with hk
      · exact absurd (by rw [← hk, hold]; rfl) hnone
      · obtain rfl := Option.some.inj (hold.symm.trans hnew)
        exact .inl rfl
  | restage id attemptCount answer staged now =>
    obtain ⟨row, row', hrow, hwrites⟩ := handoffRestage_ok (accepted_iff.mp h)
    exact hwrites.forward_all hrow hold hnew
  | erase affected =>
    obtain rfl := Option.some.inj h
    have hkept := (Table.lookup_deleteWhere_eq_some.mp hnew).1
    obtain rfl := Option.some.inj (hold.symm.trans hkept)
    exact .inl rfl
  | deliver e =>
    obtain rfl := Option.some.inj h
    obtain hsame | ⟨id, row, row', hrow, hwrites⟩ := s.onLinkChanged_ok e
    · rw [hsame] at hnew
      obtain rfl := Option.some.inj (hold.symm.trans hnew)
      exact .inl rfl
    · exact hwrites.forward_all hrow hold hnew
  | reconcile answers size now =>
    obtain ⟨-, rfl⟩ := step_reconcile h
    have hsettle := settleScan_ok (s := s) answers size now
    have hrelink := relinkScan_ok (s := (s.settleScan answers size now).1) answers size now
    have hsome := hsettle.present k
    rw [hold] at hsome
    obtain ⟨mid, hmid⟩ := Option.isSome_iff_exists.mp hsome
    exact (hsettle.forward k old mid hold hmid).2.trans (hrelink.forward k mid new hmid hnew).2

/-- An event of Current, of the version that is read, with a valid link. -/
structure Carries (e : LinkEvent) (link : CurrentLink) : Prop where
  type : e.type = "current.source_item_link.changed"
  version : e.schemaVersion = 1
  source : e.source = "urn:rheo:module:current"
  data : e.data.bind RawLink.validate = some link

theorem Carries.onLinkChanged {e : LinkEvent} {link : CurrentLink} (h : Carries e link)
    (hid : handoffId link.sourceRef = some id) : s.onLinkChanged e = (s.applyTo id link).1 := by
  simp [LinkState.onLinkChanged, h.type, h.version, h.source, h.data, applyLink, hid]

/-- A link that is not newer than what its handoff keeps writes no row. -/
theorem onLinkChanged_handoffs {e : LinkEvent} {link : CurrentLink} {revision : ℕ}
    (hlink : e.data.bind RawLink.validate = some link) (hid : handoffId link.sourceRef = some id)
    (hrow : s.handoffs.lookup id = some row) (hrevision : row.currentLinkRevision = some revision)
    (hle : link.projection.revision ≤ revision) : (s.onLinkChanged e).handoffs = s.handoffs := by
  unfold onLinkChanged
  split_ifs
  · rfl
  · have hnone : s.handoffs.updateRow id (linkUpdate link) = none := by
      refine Table.updateRow_eq_none.mpr fun other hother => ?_
      obtain rfl := Option.some.inj (hrow.symm.trans hother)
      simp [linkUpdate, hrevision, isNewer, hle]
    simp [hlink, applyLink, hid, applyTo, Table.updateIf, hnone]

/-- A scan moves its cursor past where it was, or wraps it and counts a cycle. -/
theorem ScanOk.advances {outcome : Uuid → Handoff → Handoff} {kind : ScanKind}
    {members : Handoff → Bool} (h : ScanOk outcome kind members size now s t) (hs : s.Agrees)
    (hsize : 1 ≤ size) (later : ℕ) :
    t.cursorOf kind later = ⟨none, (s.cursorOf kind now).cycles + 1, now⟩ ∨
      ∃ c, (t.cursorOf kind later).after = some c ∧
        isAfter (s.cursorOf kind now).after c = true := by
  have hcursor : t.cursorOf kind later =
      nextCursor (s.cursorOf kind now) (s.pageOf kind members size now) size now := by
    rw [cursorOf, h.cursors, Table.lookup_insert, if_pos rfl]
    rfl
  have hread := hs.readAt kind members hsize now
  by_cases hshort : (s.pageOf kind members size now).length < size
  · rw [hcursor, nextCursor, if_pos hshort]
    exact .inl rfl
  · have hopen : (s.nextPage kind members size now).wrapped = false := decide_eq_false hshort
    obtain ⟨c, hc, hafter⟩ := hread.advances hopen
    rw [← hs.cursor kind now] at hafter
    rw [hcursor, nextCursor_after]
    exact .inr ⟨c, hc, hafter⟩

/-- A page of one scan leaves the cursor of the other alone. -/
theorem ScanOk.cursorOf_other {outcome : Uuid → Handoff → Handoff} {kind other : ScanKind}
    {members : Handoff → Bool} (h : ScanOk outcome kind members size now s t) (hne : other ≠ kind)
    (later : ℕ) : t.cursorOf other later = s.cursorOf other later := by
  rw [cursorOf, h.cursors, Table.lookup_insert, if_neg hne]
  rfl

end LinkState

/-- A handoff whose action is read and answers takes the state of the action, whatever the
read of its link gives. -/
theorem Handoff.settledBy_state {row : Handoff} {id actionId : Uuid} {answers : RepairAnswers}
    {record : ActionRecord} (haction : row.externalActionId = some actionId)
    (hanswer : answers.action actionId = .answered record) (now : ℕ) :
    (row.settledBy id answers now).state = coreState record.state := by
  have hcopied : (outcomeValues row (readAction (.answered record)) now).state =
      coreState record.state := by
    simp only [outcomeValues, readAction]
    split_ifs with hpending hsuccess
    · exact hpending.symm
    · rfl
    · rfl
  have hrelinked : ∀ (r : Handoff) (answer : ReadAnswer RawLink),
      (r.relinkedBy id answer).state = r.state := by
    intro r answer
    unfold Handoff.relinkedBy
    split
    · rfl
    · split_ifs <;> rfl
  unfold Handoff.settledBy
  simp only [haction, hanswer]
  split_ifs with hunread hsuccess
  · simp [readAction] at hunread
  · exact (hrelinked _ _).trans hcopied
  · exact hcopied

/-- What every state of the handoffs, and every step out of it, satisfies. -/
structure CurrentLinkLaw (s : LinkState) : Prop where
  /-- Every row passes the checks of its table, so no write of an event or a repair fails. -/
  checked : ∀ id row, s.handoffs.lookup id = some row → row.Checked
  /-- The projection is the link with the highest revision applied so far, the first of them. -/
  highest : ∀ id row, s.handoffs.lookup id = some row →
    row.projection = (s.applied id).argmax LinkProjection.revision
  /-- A delivered event that names a handoff and its item is applied: the row takes its link when
  the link is newer, and no other row changes. -/
  delivered : ∀ e link id row, LinkState.Carries e link → handoffId link.sourceRef = some id →
    s.handoffs.lookup id = some row → row.isForItem link = true →
    ∃ t, s.step (.deliver e) = some t ∧ t.applied id = s.applied id ++ [link.projection] ∧
      ∀ k, t.handoffs.lookup k =
        if k = id then
          if isNewer row.currentLinkRevision link.projection.revision then
            some (row.withLink link.projection)
          else some row
        else s.handoffs.lookup k
  /-- An older or equal revision changes nothing. -/
  stale : ∀ e link id row revision, e.data.bind RawLink.validate = some link →
    handoffId link.sourceRef = some id → s.handoffs.lookup id = some row →
    row.currentLinkRevision = some revision → link.projection.revision ≤ revision →
    (s.onLinkChanged e).handoffs = s.handoffs
  /-- A projection only ever becomes one with a higher revision. -/
  forward : ∀ a t id row row', s.step a = some t → s.handoffs.lookup id = some row →
    t.handoffs.lookup id = some row' → LinkState.Forward row.projection row'.projection
  /-- Between two wraps every handoff that is in the class at every page is examined exactly
  once. -/
  once : ∀ kind later p body earlier k, s.pages kind = later ++ (p :: body ++ earlier) →
    ScanPage.EndsCycle earlier → p.wrapped = true → (∀ q ∈ body, q.wrapped = false) →
    (∀ q ∈ p :: body, k ∈ q.members) → ScanPage.timesExamined (p :: body) k = 1
  /-- A cycle ends: it has no more pages without a wrap than there have been handoffs. -/
  ends : ∀ kind later body earlier, s.pages kind = later ++ (body ++ earlier) →
    (∀ q ∈ body, q.wrapped = false) → body.length ≤ s.made.card
  /-- A repair moves each cursor past where it was, or wraps it and counts a cycle. -/
  advances : ∀ answers size now t, s.step (.reconcile answers size now) = some t → ∀ kind later,
    t.cursorOf kind later = ⟨none, (s.cursorOf kind now).cycles + 1, now⟩ ∨
      ∃ c, (t.cursorOf kind later).after = some c ∧ isAfter (s.cursorOf kind now).after c = true
  /-- A repair is a page of each scan, recorded with the class as it was. -/
  paged : ∀ answers size now t, s.step (.reconcile answers size now) = some t →
    ∃ mid, mid = (s.settleScan answers size now).1 ∧ t = (mid.relinkScan answers size now).1 ∧
      t.pages .nonterminal =
        s.nextPage .nonterminal Handoff.isNonterminal size now :: s.pages .nonterminal ∧
      t.pages .succeeded =
        mid.nextPage .succeeded Handoff.isSucceeded size now :: s.pages .succeeded
  /-- Each handoff of a settlement page becomes what its own answers make of it. -/
  settled : ∀ answers size now id row,
    (id, row) ∈ s.pageOf .nonterminal Handoff.isNonterminal size now →
    (s.settleScan answers size now).1.handoffs.lookup id = some (row.settledBy id answers now)
  /-- It takes the state of its action, whatever the reads of the other handoffs give. -/
  settles : ∀ answers size now id row actionId record,
    (id, row) ∈ s.pageOf .nonterminal Handoff.isNonterminal size now →
    row.externalActionId = some actionId → answers.action actionId = .answered record →
    ∃ row', (s.settleScan answers size now).1.handoffs.lookup id = some row' ∧
      row'.state = coreState record.state
  /-- Each handoff of a page of the other scan becomes what its own link makes of it. -/
  relinked : ∀ answers size now id row,
    (id, row) ∈ s.pageOf .succeeded Handoff.isSucceeded size now →
    (s.relinkScan answers size now).1.handoffs.lookup id =
      some (row.relinkedBy id (answers.link id))

namespace LinkState

variable {s t : LinkState}

/-- The cursor of each scan after a repair. -/
theorem Agrees.reconcile_advances (hs : s.Agrees) {answers : RepairAnswers} {size now : ℕ}
    (h : s.step (.reconcile answers size now) = some t) (kind : ScanKind) (later : ℕ) :
    t.cursorOf kind later = ⟨none, (s.cursorOf kind now).cycles + 1, now⟩ ∨
      ∃ c, (t.cursorOf kind later).after = some c ∧
        isAfter (s.cursorOf kind now).after c = true := by
  obtain ⟨hsize, rfl⟩ := step_reconcile h
  have hsettle := settleScan_ok (s := s) answers size now
  have hrelink := relinkScan_ok (s := (s.settleScan answers size now).1) answers size now
  have hmid := hsettle.agrees hs hsize
  cases kind with
  | nonterminal =>
    rw [hrelink.cursorOf_other (by decide)]
    exact hsettle.advances hs hsize later
  | succeeded =>
    rw [← hsettle.cursorOf_other (by decide) now]
    exact hrelink.advances hmid hsize later

/-- The pages that a repair records. -/
theorem reconcile_pages {answers : RepairAnswers} {size now : ℕ}
    (h : s.step (.reconcile answers size now) = some t) :
    ∃ mid, mid = (s.settleScan answers size now).1 ∧ t = (mid.relinkScan answers size now).1 ∧
      t.pages .nonterminal =
        s.nextPage .nonterminal Handoff.isNonterminal size now :: s.pages .nonterminal ∧
      t.pages .succeeded =
        mid.nextPage .succeeded Handoff.isSucceeded size now :: s.pages .succeeded := by
  obtain ⟨-, rfl⟩ := step_reconcile h
  have hsettle := settleScan_ok (s := s) answers size now
  have hrelink := relinkScan_ok (s := (s.settleScan answers size now).1) answers size now
  refine ⟨_, rfl, rfl, ?_, ?_⟩
  · rw [hrelink.pages, Function.update_of_ne (by decide), hsettle.pages, Function.update_self]
  · rw [hrelink.pages, Function.update_self, hsettle.pages, Function.update_of_ne (by decide)]

end LinkState

/-- In every run of events, repairs, requests, new attempts and erasures, the projection of a
handoff is the highest link applied to it, and the repair examines what stays in a class once
a cycle, each handoff by its own answers. -/
theorem current_link_law {s : LinkState} (hs : LinkState.machine.Reachable s) :
    CurrentLinkLaw s := by
  have hagrees := LinkState.agrees_of_reachable hs
  constructor
  · exact hagrees.checked
  · exact hagrees.highest
  · intro e link id row hcarries hid hrow hitem
    have hwrites := LinkState.applyTo_ok hrow link hitem
    refine ⟨_, rfl, ?_, fun k => ?_⟩
    · rw [hcarries.onLinkChanged hid]
      simp [LinkState.applyTo, hrow, hitem]
    · rw [hcarries.onLinkChanged hid, hwrites.lookup]
      split_ifs <;> rfl
  · intro e link id row revision hlink hid hrow hrevision hle
    exact LinkState.onLinkChanged_handoffs hlink hid hrow hrevision hle
  · intro a t id row row' hstep hrow hrow'
    exact LinkState.forward_of_step hstep hrow hrow'
  · intro kind later p body earlier k hpages hstart hwrap hopen hk
    have hhistory := hagrees.history kind
    rw [hpages] at hhistory
    exact ScanPage.count_of_cycle hstart hhistory.of_append hwrap hopen hk
  · intro kind later body earlier hpages hopen
    have hhistory := hagrees.history kind
    rw [hpages] at hhistory
    refine ScanPage.length_le_of_open hhistory.of_append hopen fun p hp k hk => ?_
    refine hagrees.members kind p ?_ k hk
    rw [hpages]
    simp [hp]
  · intro answers size now t hstep kind later
    exact hagrees.reconcile_advances hstep kind later
  · intro answers size now t hstep
    exact LinkState.reconcile_pages hstep
  · intro answers size now id row hmem
    exact (LinkState.settleScan_ok answers size now).examined id row hmem
  · intro answers size now id row actionId record hmem haction hanswer
    exact ⟨_, (LinkState.settleScan_ok answers size now).examined id row hmem,
      Handoff.settledBy_state haction hanswer now⟩
  · intro answers size now id row hmem
    exact (LinkState.relinkScan_ok answers size now).examined id row hmem

section Sample

/-- A link of the first handoff. -/
private def sampleLink (state : String) (project last : Option String) (revision : ℤ)
    (hle : revision ≤ 2147483647) : RawLink where
  sourceRef := handoffRef 1
  itemRef := "current.item:7"
  projectRef := project
  lastProjectRef := last
  itemState := "available"
  projectState := state
  revision := revision
  revision_le := hle

private def sampleEvent (link : RawLink) : LinkAction :=
  .deliver ⟨"current.source_item_link.changed", 1, "urn:rheo:module:current", some link⟩

private def sampleInput (key : String) (action : Uuid) : HandoffInput :=
  ⟨10, some "current", key, "digest", some ⟨action + 1, action, .pending⟩⟩

/-- Core answers for the first attempt and refuses the second; Current answers for the first
handoff only. -/
private def sampleAnswers : RepairAnswers where
  action action := if action = 100 then
      .answered ⟨.succeeded, none, none, some "current.item:7", some 50, false, fun _ => rfl⟩
    else .refused "module_disabled"
  settledLink _ := .refused "module_unavailable"
  link id := if id = 1 then
      .answered (sampleLink "cleared" none (some "current.project:2") 3 (by decide))
    else .refused "not_found"

private def sampleRun : List LinkAction :=
  [.handoff 1 (sampleInput "a" 100) (.refused "not_found") 5,
    .handoff 2 (sampleInput "b" 200) (.refused "not_found") 6,
    sampleEvent (sampleLink "linked" (some "current.project:2") none 2 (by decide)),
    sampleEvent (sampleLink "never_assigned" none none 1 (by decide)),
    .reconcile sampleAnswers 2 60]

private def emptyLinks : LinkState := ⟨∅, ∅, fun _ => [], fun _ => [], ∅⟩

private theorem begins_emptyLinks : emptyLinks.Begins where
  checked _ _ hrow := by cases hrow
  cursors := rfl
  applied _ := rfl
  pages _ := rfl
  made _ _ hrow := by cases hrow

/-- What a run shows: the states of the handoffs, the revision kept of the first one's link and
how many links were applied to it. -/
private def sampleView (s : LinkState) :
    Option HandoffState × Option HandoffState × Option ℕ × ℕ :=
  ((s.handoffs.lookup 1).map Handoff.state, (s.handoffs.lookup 2).map Handoff.state,
    (s.handoffs.lookup 1).bind Handoff.currentLinkRevision, (s.applied 1).length)

/-- A handoff that core refused to answer for stays pending, and the other one on its page is
settled and follows its link past an older revision. -/
theorem current_link_law_repaired : ∃ s, LinkState.machine.Reachable s ∧
    sampleView s = (some .succeeded, some .pending, some 3, 3) ∧ CurrentLinkLaw s := by
  have hrun : (LinkState.machine.run emptyLinks sampleRun).map sampleView =
      some (some .succeeded, some .pending, some 3, 3) := by decide +kernel
  obtain ⟨s, hs, hview⟩ := Option.map_eq_some_iff.mp hrun
  have hreach := Machine.reachable_of_run (M := LinkState.machine) begins_emptyLinks hs
  exact ⟨s, hreach, hview, current_link_law hreach⟩

end Sample

end Rheostream.Leads
