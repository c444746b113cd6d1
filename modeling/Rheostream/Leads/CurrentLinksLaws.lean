import Rheostream.Leads.CurrentLinks

/-!
# What each writer of a handoff does

Every write of a link, a settlement and a repair changes one row, keeps the checks of the
table, and moves the projection to the link just applied when that link is newer. The rows
of a page are examined independently: what becomes of each is a function of the row and of
the answers to its own reads.
-/

namespace Rheostream.Leads

namespace Handoff

variable {row : Handoff} {p : LinkProjection}

/-- What the row becomes when its link is read again. -/
def relinkedBy (row : Handoff) (id : Uuid) (answer : ReadAnswer RawLink) : Handoff :=
  match readLink answer with
  | none => row
  | some link =>
    if link.sourceRef ≠ handoffRef id ∨ some link.itemRef ≠ row.resultRef then row
    else if isNewer row.currentLinkRevision link.projection.revision then
      row.withLink link.projection
    else row

/-- What the row becomes when its action is read again, and its link after a success. -/
def settledBy (row : Handoff) (id : Uuid) (answers : RepairAnswers) (now : ℕ) : Handoff :=
  match row.externalActionId with
  | none => row
  | some actionId =>
    let read := readAction (answers.action actionId)
    if read.record.isNone && !read.missing then row
    else
      let settled := outcomeValues row read now
      if settled.state = .succeeded && settled.resultRef.isSome then
        settled.relinkedBy id (answers.settledLink id)
      else settled

theorem revision_eq (row : Handoff) :
    row.currentLinkRevision = row.projection.map LinkProjection.revision := by
  cases h : row.currentLinkRevision <;> simp [projection, h]

/-- A link of the right shape keeps the checks of the table. -/
theorem Checked.withLink (h : row.Checked) (hp : p.Shaped) : (row.withLink p).Checked where
  attempts := h.attempts
  pendingStaged := h.pendingStaged
  successResult := h.successResult
  projectLive := hp.live
  projectHistory := hp.history
  linkRevision := by
    intro revision hrevision
    obtain rfl : p.revision = revision := Option.some.inj hrevision
    exact hp.revision_pos
  linkProjection := by
    intro hnone
    cases hnone

end Handoff

/-- Copying an outcome leaves the identity of the row and its projection alone. -/
theorem outcomeValues_frame (row : Handoff) (read : ActionRead) (now : ℕ) :
    (outcomeValues row read now).requestedAt = row.requestedAt ∧
      (outcomeValues row read now).projection = row.projection := by
  unfold outcomeValues
  split <;> split_ifs <;> exact ⟨rfl, rfl⟩

/-- Copying the outcome of a staged attempt keeps the checks of the table: core records no
success without a result. -/
theorem outcomeValues_checked {row : Handoff} (h : row.Checked)
    (hstaged : row.externalActionId.isSome = true) (read : ActionRead) (now : ℕ) :
    (outcomeValues row read now).Checked := by
  unfold outcomeValues
  split
  · split_ifs
    · exact { h with pendingStaged := fun _ => hstaged, successResult := nofun }
    · exact { h with }
    · exact h
    · exact h
  · next record hrecord =>
    split_ifs with hpending hsuccess
    · exact { h with pendingStaged := fun _ => hstaged, successResult := nofun }
    · exact { h with
        pendingStaged := fun _ => hstaged
        successResult := fun _ => record.hasResult hsuccess }
    · refine { h with pendingStaged := fun _ => hstaged, successResult := fun heq => ?_ }
      cases hstate : record.state <;> simp_all [coreState]

namespace LinkState

variable {s t : LinkState} {id : Uuid} {row row' : Handoff}

/-- A write of one row: what it becomes, and the link that was applied to it, if any. -/
structure Writes (s t : LinkState) (id : Uuid) (row row' : Handoff) : Prop where
  lookup : ∀ k, t.handoffs.lookup k = if k = id then some row' else s.handoffs.lookup k
  others : ∀ k, k ≠ id → t.applied k = s.applied k
  link : t.applied id = s.applied id ∧ row'.projection = row.projection ∨
    ∃ p, t.applied id = s.applied id ++ [p] ∧ row'.projection =
      if isNewer row.currentLinkRevision p.revision then some p else row.projection
  key : row'.requestedAt = row.requestedAt
  checked : row.Checked → row'.Checked
  cursors : t.cursors = s.cursors
  pages : t.pages = s.pages
  made : t.made = s.made

theorem Writes.refl (hrow : s.handoffs.lookup id = some row) : Writes s s id row row where
  lookup k := by
    split_ifs with hk
    · rw [hk, hrow]
    · rfl
  others _ _ := rfl
  link := .inl ⟨rfl, rfl⟩
  key := rfl
  checked h := h
  cursors := rfl
  pages := rfl
  made := rfl

/-- Applying a link to its handoff writes the link when it is newer. -/
theorem applyTo_ok (hrow : s.handoffs.lookup id = some row) (link : CurrentLink)
    (hitem : row.isForItem link = true) :
    Writes s (s.applyTo id link).1 id row
      (if isNewer row.currentLinkRevision link.projection.revision then
        row.withLink link.projection else row) := by
  have happlied : (s.applyTo id link).1.applied =
      Function.update s.applied id (s.applied id ++ [link.projection]) := by
    simp [applyTo, hrow, hitem]
  cases hnewer : isNewer row.currentLinkRevision link.projection.revision with
  | true =>
    have hwrite : (s.applyTo id link).1.handoffs =
        s.handoffs.insert id (row.withLink link.projection) :=
      Table.updateIf_of_guard hrow (by simp [linkUpdate, hitem, hnewer])
    refine ⟨fun k => ?_, fun k hk => ?_, .inr ⟨link.projection, ?_, ?_⟩, rfl, ?_, rfl, rfl, rfl⟩
    · rw [hwrite, Table.lookup_insert]
      rfl
    · rw [happlied, Function.update_of_ne hk]
    · rw [happlied, Function.update_self]
    · rw [hnewer]
      rfl
    · exact fun h => h.withLink link.shaped
  | false =>
    have hkeep : (s.applyTo id link).1.handoffs = s.handoffs := by
      have hnone : s.handoffs.updateRow id (linkUpdate link) = none := by
        refine Table.updateRow_eq_none.mpr fun other hother => ?_
        obtain rfl := Option.some.inj (hrow.symm.trans hother)
        simp [linkUpdate, hnewer]
      simp [applyTo, Table.updateIf, hnone]
    refine ⟨fun k => ?_, fun k hk => ?_, .inr ⟨link.projection, ?_, ?_⟩, rfl, fun h => h, rfl,
      rfl, rfl⟩
    · rw [hkeep]
      by_cases hk : k = id
      · rw [if_pos hk, hk, hrow]
        rfl
      · rw [if_neg hk]
    · rw [happlied, Function.update_of_ne hk]
    · rw [happlied, Function.update_self]
    · rw [hnewer]
      rfl

/-- Copying an outcome writes the row and applies no link. -/
theorem writeHandoff_ok (hrow : s.handoffs.lookup id = some row)
    (hlink : row'.projection = row.projection) (hkey : row'.requestedAt = row.requestedAt)
    (hchecked : row.Checked → row'.Checked) : Writes s (s.writeHandoff id row') id row row' where
  lookup k := by
    have hwrite : (s.writeHandoff id row').handoffs = s.handoffs.insert id row' :=
      Table.updateIf_of_guard hrow rfl
    rw [hwrite, Table.lookup_insert]
  others _ _ := rfl
  link := .inl ⟨rfl, hlink⟩
  key := hkey
  checked := hchecked
  cursors := rfl
  pages := rfl
  made := rfl

/-- Reading a link again writes what the row becomes. -/
theorem relink_ok (hrow : s.handoffs.lookup id = some row) (answer : ReadAnswer RawLink) :
    Writes s (s.relink id row answer).state id row (row.relinkedBy id answer) := by
  unfold relink Handoff.relinkedBy
  cases readLink answer with
  | none => exact Writes.refl hrow
  | some link =>
    by_cases hother : link.sourceRef ≠ handoffRef id ∨ some link.itemRef ≠ row.resultRef
    · simp only [if_pos hother]
      exact Writes.refl hrow
    · simp only [if_neg hother]
      obtain ⟨hsource, hitem⟩ := not_or.mp hother
      rw [not_not] at hsource hitem
      split_ifs with hnewer
      · have happly : s.applyLink link = s.applyTo id link := by
          simp [applyLink, hsource, handoffRef, handoffId, RefText.parse]
        have hfor : row.isForItem link = true := by simp [Handoff.isForItem, ← hitem]
        have hwrites := applyTo_ok hrow link hfor
        rw [if_pos hnewer] at hwrites
        rw [happly]
        exact hwrites
      · exact Writes.refl hrow

/-- A second write of the same row, when only the second applies a link. -/
theorem Writes.trans {r : LinkState} {mid : Handoff} (h : Writes s t id row mid)
    (h' : Writes t r id mid row') (hnone : t.applied id = s.applied id)
    (hlink : mid.projection = row.projection) : Writes s r id row row' where
  lookup k := by
    rw [h'.lookup, h.lookup]
    split_ifs <;> rfl
  others k hk := (h'.others k hk).trans (h.others k hk)
  link := by
    rw [← hnone, ← hlink, Handoff.revision_eq row, ← hlink, ← Handoff.revision_eq mid]
    exact h'.link
  key := h'.key.trans h.key
  checked hrow := h'.checked (h.checked hrow)
  cursors := h'.cursors.trans h.cursors
  pages := h'.pages.trans h.pages
  made := h'.made.trans h.made

/-- Settling a handoff writes what the row becomes. -/
theorem settle_ok (hrow : s.handoffs.lookup id = some row) (answers : RepairAnswers) (now : ℕ) :
    Writes s (s.settle answers now id row).state id row (row.settledBy id answers now) := by
  unfold settle Handoff.settledBy
  cases haction : row.externalActionId with
  | none => exact Writes.refl hrow
  | some actionId =>
    have hstaged : row.externalActionId.isSome = true := by simp [haction]
    dsimp only
    split_ifs with hunread hsuccess
    · exact Writes.refl hrow
    · obtain ⟨hkey, hlink⟩ := outcomeValues_frame row (readAction (answers.action actionId)) now
      have hwrites := writeHandoff_ok hrow hlink hkey fun h =>
        outcomeValues_checked h hstaged (readAction (answers.action actionId)) now
      have hnext := (hwrites.lookup id).trans (if_pos rfl)
      exact hwrites.trans (relink_ok hnext (answers.settledLink id)) rfl hlink
    · obtain ⟨hkey, hlink⟩ := outcomeValues_frame row (readAction (answers.action actionId)) now
      exact writeHandoff_ok hrow hlink hkey fun h =>
        outcomeValues_checked h hstaged (readAction (answers.action actionId)) now

/-- A row passes the checks of the table, and shows the highest link applied to it. -/
structure RowsOk (s : LinkState) : Prop where
  checked : ∀ id row, s.handoffs.lookup id = some row → row.Checked
  highest : ∀ id row, s.handoffs.lookup id = some row →
    row.projection = (s.applied id).argmax LinkProjection.revision

/-- A projection moves forward: it stays, or becomes one with a higher revision. -/
def Forward (old new : Option LinkProjection) : Prop :=
  new = old ∨ ∃ p, new = some p ∧ ∀ q, old = some q → q.revision < p.revision

theorem Forward.trans {a b c : Option LinkProjection} (h : Forward a b) (h' : Forward b c) :
    Forward a c := by
  obtain rfl | ⟨p, rfl, hp⟩ := h
  · exact h'
  · obtain rfl | ⟨q, rfl, hq⟩ := h'
    · exact .inr ⟨p, rfl, hp⟩
    · exact .inr ⟨q, rfl, fun r hr => (hp r hr).trans (hq p rfl)⟩

/-- A link is newer than what a row keeps when its revision is higher. -/
theorem isNewer_iff {p : LinkProjection} :
    isNewer row.currentLinkRevision p.revision = true ↔
      ∀ q, row.projection = some q → q.revision < p.revision := by
  rw [Handoff.revision_eq row]
  cases row.projection <;> simp [isNewer]

/-- Applying one more link, in order, takes it when it is newer than the highest so far. -/
theorem argmax_append {l : List LinkProjection} {p : LinkProjection}
    (h : row.projection = l.argmax LinkProjection.revision) :
    (l ++ [p]).argmax LinkProjection.revision =
      if isNewer row.currentLinkRevision p.revision then some p else row.projection := by
  rw [List.argmax_concat, ← h, Handoff.revision_eq row]
  cases row.projection with
  | none => rfl
  | some q => simp [isNewer]

theorem Writes.highest (h : Writes s t id row row')
    (hrow : row.projection = (s.applied id).argmax LinkProjection.revision) :
    row'.projection = (t.applied id).argmax LinkProjection.revision := by
  obtain ⟨hsame, hlink⟩ | ⟨p, happlied, hlink⟩ := h.link
  · rw [hsame, hlink, hrow]
  · rw [happlied, hlink, argmax_append hrow]

theorem Writes.forward (h : Writes s t id row row') : Forward row.projection row'.projection := by
  obtain ⟨-, hlink⟩ | ⟨p, -, hlink⟩ := h.link
  · exact .inl hlink
  · rw [hlink]
    split_ifs with hnewer
    · exact .inr ⟨p, rfl, isNewer_iff.mp hnewer⟩
    · exact .inl rfl

theorem Writes.rowsOk (h : Writes s t id row row') (hs : s.RowsOk)
    (hrow : s.handoffs.lookup id = some row) : t.RowsOk := by
  constructor
  · intro k r hr
    rw [h.lookup] at hr
    split_ifs at hr with hk
    · obtain rfl := Option.some.inj hr
      exact h.checked (hs.checked id row hrow)
    · exact hs.checked k r hr
  · intro k r hr
    rw [h.lookup] at hr
    split_ifs at hr with hk
    · obtain rfl := Option.some.inj hr
      rw [hk]
      exact h.highest (hs.highest id row hrow)
    · rw [h.others k hk]
      exact hs.highest k r hr

section Page

variable {examine : LinkState → Uuid → Handoff → Examination} {outcome : Uuid → Handoff → Handoff}

/-- Examinations that write one row each, as a function of that row. -/
def IsRowwise (examine : LinkState → Uuid → Handoff → Examination)
    (outcome : Uuid → Handoff → Handoff) : Prop :=
  ∀ s id row, s.handoffs.lookup id = some row →
    Writes s (examine s id row).state id row (outcome id row)

theorem isRowwise_settle (answers : RepairAnswers) (now : ℕ) :
    IsRowwise (fun s id row => s.settle answers now id row)
      fun id row => row.settledBy id answers now :=
  fun _ _ _ hrow => settle_ok hrow answers now

theorem isRowwise_relink (answers : RepairAnswers) :
    IsRowwise (fun s id row => s.relink id row (answers.link id))
      fun id row => row.relinkedBy id (answers.link id) :=
  fun _ id _ hrow => relink_ok hrow (answers.link id)

/-- What a page leaves: each of its rows became what its own answers make of it, every other
row is the same, and the cursors are still where they were. -/
structure PageOk (outcome : Uuid → Handoff → Handoff) (rows : List (Uuid × Handoff))
    (s t : LinkState) : Prop where
  examined : ∀ id row, (id, row) ∈ rows → t.handoffs.lookup id = some (outcome id row)
  others : ∀ id, (∀ e ∈ rows, e.1 ≠ id) → t.handoffs.lookup id = s.handoffs.lookup id
  forward : ∀ id row row', s.handoffs.lookup id = some row → t.handoffs.lookup id = some row' →
    row'.requestedAt = row.requestedAt ∧ Forward row.projection row'.projection
  present : ∀ id, (t.handoffs.lookup id).isSome = (s.handoffs.lookup id).isSome
  rowsOk : s.RowsOk → t.RowsOk
  cursors : t.cursors = s.cursors
  pages : t.pages = s.pages
  made : t.made = s.made

theorem pageOk_nil : PageOk outcome [] s s where
  examined _ _ h := absurd h List.not_mem_nil
  others _ _ := rfl
  forward _ _ _ hrow hrow' := by
    obtain rfl := Option.some.inj (hrow.symm.trans hrow')
    exact ⟨rfl, .inl rfl⟩
  present _ := rfl
  rowsOk h := h
  cursors := rfl
  pages := rfl
  made := rfl

/-- A failed examination leaves its row as `outcome` says and goes on to the next one. -/
theorem examineAll_ok (hexamine : IsRowwise examine outcome) {rows : List (Uuid × Handoff)}
    (hids : (rows.map Prod.fst).Nodup)
    (hrows : ∀ e ∈ rows, s.handoffs.lookup e.1 = some e.2) (report : ScanReport) :
    PageOk outcome rows s (examineAll examine rows (s, report)).1 := by
  induction rows generalizing s report with
  | nil => exact pageOk_nil
  | cons e rest ih =>
    obtain ⟨id, row⟩ := e
    obtain ⟨hnew, hids⟩ := List.nodup_cons.mp hids
    have hrow := hrows (id, row) List.mem_cons_self
    have hwrites := hexamine s id row hrow
    have hne : ∀ e ∈ rest, e.1 ≠ id := by
      rintro e he rfl
      exact hnew (List.mem_map.mpr ⟨e, he, rfl⟩)
    have hrest : ∀ e ∈ rest, (examine s id row).state.handoffs.lookup e.1 = some e.2 := by
      intro e he
      rw [hwrites.lookup, if_neg (hne e he)]
      exact hrows e (List.mem_cons_of_mem _ he)
    rw [examineAll]
    have hpage := ih hids hrest { report with
      examined := report.examined + 1
      updated := report.updated + (if (examine s id row).moved then 1 else 0)
      unavailable := report.unavailable + (examine s id row).unavailable }
    refine ⟨?_, ?_, ?_, ?_, fun h => hpage.rowsOk (hwrites.rowsOk h hrow),
      hpage.cursors.trans hwrites.cursors, hpage.pages.trans hwrites.pages,
      hpage.made.trans hwrites.made⟩
    · intro k r hmem
      obtain heq | hmem := List.mem_cons.mp hmem
      · obtain ⟨rfl, rfl⟩ := Prod.mk.inj heq
        rw [hpage.others k hne, hwrites.lookup, if_pos rfl]
      · exact hpage.examined k r hmem
    · intro k hk
      have hkid : k ≠ id := fun heq => hk (id, row) List.mem_cons_self heq.symm
      rw [hpage.others k fun e he => hk e (List.mem_cons_of_mem _ he), hwrites.lookup, if_neg hkid]
    · intro k r r' hr hr'
      by_cases hk : k = id
      · subst hk
        obtain rfl := Option.some.inj (hrow.symm.trans hr)
        have hmid := (hwrites.lookup k).trans (if_pos rfl)
        obtain ⟨hkey, hforward⟩ := hpage.forward k _ r' hmid hr'
        exact ⟨hkey.trans hwrites.key, hwrites.forward.trans hforward⟩
      · have hmid := (hwrites.lookup k).trans (if_neg hk)
        exact hpage.forward k r r' (hmid.trans hr) hr'
    · intro k
      rw [hpage.present, hwrites.lookup]
      split_ifs with hk
      · rw [hk, hrow]
        rfl
      · rfl

end Page

section Scan

variable {kind : ScanKind} {members : Handoff → Bool} {size now : ℕ}

theorem mem_classOf :
    (id, row) ∈ s.classOf members ↔ s.handoffs.lookup id = some row ∧ members row = true := by
  have hmem := AList.mem_lookup_iff (a := id) (b := row) (s := s.handoffs)
  rw [Option.mem_def] at hmem
  simp only [classOf, List.mem_filter, List.mem_map, hmem]
  constructor
  · rintro ⟨⟨⟨k, r⟩, he, heq⟩, hmember⟩
    obtain ⟨rfl, rfl⟩ := Prod.mk.inj heq
    exact ⟨he, hmember⟩
  · rintro ⟨he, hmember⟩
    exact ⟨⟨⟨id, row⟩, he, rfl⟩, hmember⟩

/-- The rows of a class have distinct identifiers. -/
theorem nodup_classOf (s : LinkState) (members : Handoff → Bool) :
    ((s.classOf members).map Prod.fst).Nodup := by
  have hkeys : ((s.handoffs.entries.map fun e => (e.1, e.2)).map Prod.fst).Nodup := by
    rw [List.map_map]
    exact s.handoffs.nodupKeys
  exact hkeys.sublist (List.filter_sublist.map Prod.fst)

/-- The rows of a class have distinct keys. -/
theorem nodup_keys_classOf (s : LinkState) (members : Handoff → Bool) :
    ((s.classOf members).map fun e => Handoff.scanKey e.1 e.2).Nodup := by
  have hids := s.nodup_classOf members
  refine List.Nodup.of_map (fun k : ℕ ×ₗ Uuid => (ofLex k).2) ?_
  rw [List.map_map]
  exact hids

theorem mem_of_mem_pageOf (h : (id, row) ∈ s.pageOf kind members size now) :
    s.handoffs.lookup id = some row ∧ members row = true :=
  mem_classOf.mp (ScanPage.mem_of_mem_pageRows h).1

theorem nodup_pageOf (s : LinkState) (kind : ScanKind) (members : Handoff → Bool) (size now : ℕ) :
    ((s.pageOf kind members size now).map Prod.fst).Nodup := by
  have hperm := sortedBy_perm (fun e : Uuid × Handoff => Handoff.scanKey e.1 e.2)
    ((s.classOf members).filter fun e => isAfter (s.cursorOf kind now).after (e.2.scanKey e.1))
  have hfilter : (((s.classOf members).filter fun e =>
      isAfter (s.cursorOf kind now).after (e.2.scanKey e.1)).map Prod.fst).Nodup :=
    (s.nodup_classOf members).sublist (List.filter_sublist.map Prod.fst)
  exact ((hperm.map Prod.fst).nodup_iff.mpr hfilter).sublist ((List.take_sublist _ _).map Prod.fst)

/-- The page that a scan reads, as its history records it. -/
def nextPage (s : LinkState) (kind : ScanKind) (members : Handoff → Bool) (size now : ℕ) :
    ScanPage (ℕ ×ₗ Uuid) :=
  ScanPage.ofRows (fun e => Handoff.scanKey e.1 e.2) (s.cursorOf kind now).after size
    (s.classOf members)

/-- What a scan leaves: its page examined, its cursor moved and its page recorded. -/
structure ScanOk (outcome : Uuid → Handoff → Handoff) (kind : ScanKind) (members : Handoff → Bool)
    (size now : ℕ) (s t : LinkState) : Prop where
  examined : ∀ id row, (id, row) ∈ s.pageOf kind members size now →
    t.handoffs.lookup id = some (outcome id row)
  others : ∀ id, (∀ e ∈ s.pageOf kind members size now, e.1 ≠ id) →
    t.handoffs.lookup id = s.handoffs.lookup id
  forward : ∀ id row row', s.handoffs.lookup id = some row → t.handoffs.lookup id = some row' →
    row'.requestedAt = row.requestedAt ∧ Forward row.projection row'.projection
  present : ∀ id, (t.handoffs.lookup id).isSome = (s.handoffs.lookup id).isSome
  rowsOk : s.RowsOk → t.RowsOk
  cursors : t.cursors = s.cursors.insert kind
    (nextCursor (s.cursorOf kind now) (s.pageOf kind members size now) size now)
  pages : t.pages = Function.update s.pages kind (s.nextPage kind members size now :: s.pages kind)
  made : t.made = s.made

theorem scan_ok {examine : LinkState → Uuid → Handoff → Examination}
    {outcome : Uuid → Handoff → Handoff} (hexamine : IsRowwise examine outcome) (kind : ScanKind)
    (members : Handoff → Bool) (size now : ℕ) :
    ScanOk outcome kind members size now s (s.scan kind members examine size now).1 := by
  have hrows : ∀ e ∈ s.pageOf kind members size now, s.handoffs.lookup e.1 = some e.2 :=
    fun e he => (mem_of_mem_pageOf he).1
  have hpage := examineAll_ok (s := { s with
    pages := Function.update s.pages kind (s.nextPage kind members size now :: s.pages kind) })
    hexamine (s.nodup_pageOf kind members size now) hrows
    ⟨0, 0, 0, (s.pageOf kind members size now).length < size⟩
  constructor
  · exact hpage.examined
  · exact hpage.others
  · exact hpage.forward
  · exact hpage.present
  · exact fun h => ⟨(hpage.rowsOk ⟨h.checked, h.highest⟩).checked,
      (hpage.rowsOk ⟨h.checked, h.highest⟩).highest⟩
  · exact congrArg (fun cursors => AList.insert kind _ cursors) hpage.cursors
  · exact hpage.pages
  · exact hpage.made

/-- The cursor after a page is the one that the page leaves behind. -/
theorem nextCursor_after (s : LinkState) (kind : ScanKind) (members : Handoff → Bool)
    (size now : ℕ) :
    (nextCursor (s.cursorOf kind now) (s.pageOf kind members size now) size now).after =
      (s.nextPage kind members size now).cursorAfter := by
  unfold nextCursor ScanPage.cursorAfter nextPage ScanPage.ofRows
  by_cases hshort : (s.pageOf kind members size now).length < size
  · have hshort' := hshort
    unfold pageOf at hshort'
    simp [hshort, hshort']
  · have hlong := hshort
    unfold pageOf at hlong
    simp only [hshort, hlong, if_false, decide_false, Bool.false_eq_true, List.getLast?_map]
    rfl

/-- The rows agree with their links, and the cursors with the pages the scans have read. -/
structure Agrees (s : LinkState) : Prop extends RowsOk s where
  keys : ∀ id row, s.handoffs.lookup id = some row → row.scanKey id ∈ s.made
  history : ∀ kind, ScanPage.IsHistory (s.pages kind)
  members : ∀ kind, ∀ p ∈ s.pages kind, ∀ k ∈ p.members, k ∈ s.made
  cursor : ∀ kind now, (s.cursorOf kind now).after = ScanPage.cursorOf (s.pages kind)

theorem Agrees.of_begins (h : s.Begins) : s.Agrees where
  checked := h.checked
  highest id row hrow := by
    rw [h.applied, hrow, Option.bind_some]
    cases hlink : row.projection <;> rfl
  keys := h.made
  history kind := by
    rw [h.pages]
    trivial
  members kind p hp := by
    rw [h.pages] at hp
    exact absurd hp List.not_mem_nil
  cursor kind now := by
    rw [cursorOf, h.cursors, h.pages]
    rfl

/-- A page read at the cursor of its scan is a page of a scan. -/
theorem Agrees.readAt (h : s.Agrees) (kind : ScanKind) (members : Handoff →
      Bool) (hsize : 1 ≤ size) (now : ℕ) :
    (s.nextPage kind members size now).ReadAt (ScanPage.cursorOf (s.pages kind)) := by
  rw [← h.cursor kind now]
  exact ScanPage.readAt_ofRows (s.nodup_keys_classOf members) hsize

/-- Writes that keep the keys of the rows, the cursors and the pages keep the agreement. -/
theorem Agrees.of_rows (h : s.Agrees) (hrows : t.RowsOk)
    (hkeys : ∀ id row', t.handoffs.lookup id = some row' →
      ∃ row, s.handoffs.lookup id = some row ∧ row'.requestedAt = row.requestedAt)
    (hcursors : t.cursors = s.cursors) (hpages : t.pages = s.pages) (hmade : t.made = s.made) :
    t.Agrees where
  checked := hrows.checked
  highest := hrows.highest
  keys id row' hrow' := by
    obtain ⟨row, hrow, hkey⟩ := hkeys id row' hrow'
    rw [hmade, Handoff.scanKey, hkey]
    exact h.keys id row hrow
  history := hpages ▸ h.history
  members := by
    rw [hpages, hmade]
    exact h.members
  cursor kind now := by
    rw [cursorOf, hcursors, hpages]
    exact h.cursor kind now

theorem Writes.agrees (h : Writes s t id row row') (hs : s.Agrees)
    (hrow : s.handoffs.lookup id = some row) : t.Agrees := by
  refine hs.of_rows (h.rowsOk hs.toRowsOk hrow) (fun k r hr => ?_) h.cursors h.pages h.made
  rw [h.lookup] at hr
  split_ifs at hr with hk
  · obtain rfl := Option.some.inj hr
    exact ⟨row, by rw [hk, hrow], h.key⟩
  · exact ⟨r, hr, rfl⟩

theorem ScanOk.agrees {outcome : Uuid → Handoff → Handoff}
    (h : ScanOk outcome kind members size now s t) (hs : s.Agrees) (hsize : 1 ≤ size) :
    t.Agrees where
  checked := (h.rowsOk hs.toRowsOk).checked
  highest := (h.rowsOk hs.toRowsOk).highest
  keys id row' hrow' := by
    have hsome : (s.handoffs.lookup id).isSome = true := by rw [← h.present, hrow']; rfl
    obtain ⟨row, hrow⟩ := Option.isSome_iff_exists.mp hsome
    rw [h.made, Handoff.scanKey, (h.forward id row row' hrow hrow').1]
    exact hs.keys id row hrow
  history k := by
    rw [h.pages]
    by_cases hk : k = kind
    · rw [hk, Function.update_self]
      exact ⟨hs.readAt kind members hsize now, hs.history kind⟩
    · rw [Function.update_of_ne hk]
      exact hs.history k
  members k p hp key hkey := by
    rw [h.made]
    rw [h.pages] at hp
    by_cases hk : k = kind
    · rw [hk, Function.update_self] at hp
      obtain rfl | hp := List.mem_cons.mp hp
      · obtain ⟨⟨id, row⟩, he, rfl⟩ := List.mem_map.mp hkey
        exact hs.keys id row (mem_classOf.mp he).1
      · exact hs.members kind p hp key hkey
    · rw [Function.update_of_ne hk] at hp
      exact hs.members k p hp key hkey
  cursor k later := by
    rw [cursorOf, h.cursors, h.pages, Table.lookup_insert]
    by_cases hk : k = kind
    · rw [hk, if_pos rfl, Function.update_self]
      exact s.nextCursor_after kind members size now
    · rw [if_neg hk, Function.update_of_ne hk]
      exact hs.cursor k later

end Scan

end LinkState

end Rheostream.Leads
