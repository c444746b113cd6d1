import Rheostream.Leads.Pipeline

/-!
# What each call on an opportunity writes

A call that is accepted writes the opportunity that it names, at the next revision, and what
belongs to it. The row stays in a stage of its pinned version and carries its outcome, an
open opportunity has at most one pending reminder and a closed one has none.
-/

namespace Rheostream.Leads

namespace PipelineState

variable {parse : Parsers} {s t : PipelineState} {id : Uuid} {row row' : OpportunityRow}

/-- The row stands in a stage of its pinned version and carries its outcome. -/
def IsPinned (s : PipelineState) (row : OpportunityRow) : Prop :=
  ∃ v stage, s.pinned row = some v ∧ v.stage row.stageId = some stage ∧
    row.dispositionOutcome = stage.outcome ∧
    row.dispositionAt.isSome = row.dispositionOutcome.isSome

/-- A linked observation is there, and its party is a contact of the opportunity. -/
def HasContacts (s : PipelineState) : Prop :=
  ∀ id obsId, (s.links.lookup (id, obsId)).isSome = true →
    ∃ obs, s.observations.lookup obsId = some obs ∧
      ∀ party, obs.partyRef = some party → (s.parties.lookup (id, party, .contact)).isSome = true

/-- An opportunity has at most one pending reminder. -/
def HasOnePending (s : PipelineState) : Prop :=
  ∀ k k' r r', s.reminders.lookup k = some r → s.reminders.lookup k' = some r' →
    r.state = .pending → r'.state = .pending → r.opportunityId = r'.opportunityId → k = k'

/-- The opportunity of a pending reminder is there, and open. -/
def HasOpenPending (s : PipelineState) : Prop :=
  ∀ k r, s.reminders.lookup k = some r → r.state = .pending →
    ∃ row, s.opportunities.lookup r.opportunityId = some row ∧ row.dispositionOutcome = none

/-- The invariant of the opportunities of a workspace. -/
structure Sound (s : PipelineState) : Prop where
  current : ∀ presetId version, s.presets.lookup presetId = some version →
    (s.versions.lookup (presetId, version)).isSome = true
  last : ∀ presetId version v, s.versions.lookup (presetId, version) = some v →
    ∃ current, s.presets.lookup presetId = some current ∧ version ≤ current
  versions : ∀ key v, s.versions.lookup key = some v → v.IsSound
  pinned : ∀ id row, s.opportunities.lookup id = some row → s.IsPinned row
  contacts : s.HasContacts
  onePending : s.HasOnePending
  openPending : s.HasOpenPending

theorem Sound.of_begins (h : s.Begins) : s.Sound where
  current := h.current
  last := h.last
  versions := h.sound
  pinned id row hrow := by
    rw [h.opportunities] at hrow
    cases hrow
  contacts id obsId hlink := by
    rw [h.links] at hlink
    cases hlink
  onePending k _ r _ hr := by
    rw [h.reminders] at hr
    cases hr
  openPending k r hr := by
    rw [h.reminders] at hr
    cases hr

/-- The rows of an opportunity and all that belongs to it are as they were. -/
structure Untouched (s t : PipelineState) (id : Uuid) : Prop where
  row : t.opportunities.lookup id = s.opportunities.lookup id
  fields : t.fields.lookup id = s.fields.lookup id
  links : ∀ obsId, t.links.lookup (id, obsId) = s.links.lookup (id, obsId)
  parties : ∀ party role, t.parties.lookup (id, party, role) = s.parties.lookup (id, party, role)
  notes : ∀ k, (t.notes.lookup k).filter (fun n => n.opportunityId = id) =
    (s.notes.lookup k).filter fun n => n.opportunityId = id
  reminders : ∀ k, (t.reminders.lookup k).filter (fun r => r.opportunityId = id) =
    (s.reminders.lookup k).filter fun r => r.opportunityId = id

theorem Untouched.refl (s : PipelineState) (id : Uuid) : Untouched s s id :=
  ⟨rfl, rfl, fun _ => rfl, fun _ _ => rfl, fun _ => rfl, fun _ => rfl⟩

variable {revision : ℕ}

/-- The call found its opportunity, at the revision that it expects. -/
theorem opportunity_ok (h : s.opportunity id revision = .ok row) :
    s.opportunities.lookup id = some row ∧ row.revision = revision := by
  unfold opportunity at h
  split at h
  · cases h
  · next found hfound =>
    split_ifs at h with hstale
    obtain rfl := Except.ok.inj h
    exact ⟨hfound, not_not.mp hstale⟩

/-- The row after a bump. -/
def bumped (row : OpportunityRow) (changes : OpportunityRow → OpportunityRow) (now : ℕ) :
    OpportunityRow :=
  { changes row with revision := row.revision + 1, updatedAt := now }

/-- A bump of the row as it was read writes it, at the next revision. -/
theorem bump_ok (hrow : s.opportunities.lookup id = some row)
    {changes : OpportunityRow → OpportunityRow} {now : ℕ} (h : s.bump id row changes now = .ok t) :
    t = { s with opportunities := s.opportunities.insert id (bumped row changes now) } := by
  unfold bump at h
  split at h
  · cases h
  · next opportunities hupdate =>
    obtain ⟨found, hfound, -, rfl⟩ := Table.updateRow_eq_some.mp hupdate
    obtain rfl := Option.some.inj (hrow.symm.trans hfound)
    exact (Except.ok.inj h).symm

/-- One opportunity was written, at the next revision, and what belongs to the others is as it
was. -/
structure WritesOne (s t : PipelineState) (id : Uuid) (row row' : OpportunityRow) : Prop where
  found : s.opportunities.lookup id = some row
  opportunities : t.opportunities = s.opportunities.insert id row'
  revision : row'.revision = row.revision + 1
  source : row'.sourceObservationId = row.sourceObservationId
  others : ∀ k, k ≠ id → Untouched s t k
  presets : t.presets = s.presets
  versions : t.versions = s.versions
  observations : t.observations = s.observations

theorem WritesOne.lookup (h : WritesOne s t id row row') (k : Uuid) :
    t.opportunities.lookup k = if k = id then some row' else s.opportunities.lookup k := by
  rw [h.opportunities, Table.lookup_insert]

theorem WritesOne.isPinned (h : WritesOne s t id row row') {r : OpportunityRow} :
    t.IsPinned r ↔ s.IsPinned r := by
  simp only [IsPinned, pinned, h.versions]

/-- A write that keeps the parts of the invariant about its own row and its reminders keeps the
invariant. -/
theorem Sound.write (hs : s.Sound) (h : WritesOne s t id row row') (hpinned : s.IsPinned row')
    (hcontacts : t.HasContacts) (hone : t.HasOnePending) (hopen : t.HasOpenPending) : t.Sound where
  current := by
    rw [h.presets, h.versions]
    exact hs.current
  last := by
    rw [h.presets, h.versions]
    exact hs.last
  versions := by
    rw [h.versions]
    exact hs.versions
  pinned k r hr := by
    rw [h.lookup] at hr
    rw [h.isPinned]
    split_ifs at hr with hk
    · exact Option.some.inj hr ▸ hpinned
    · exact hs.pinned k r hr
  contacts := hcontacts
  onePending := hone
  openPending := hopen

/-- The reminders stay where they were and the outcome of the row stays: what is pending is
still of an open opportunity. -/
theorem WritesOne.openPending (h : WritesOne s t id row row') (hs : s.Sound)
    (hreminders : t.reminders = s.reminders)
    (houtcome : row'.dispositionOutcome = row.dispositionOutcome) : t.HasOpenPending := by
  intro k r hr hpending
  rw [hreminders] at hr
  obtain ⟨found, hfound, hopen⟩ := hs.openPending k r hr hpending
  rw [h.lookup]
  split_ifs with hk
  · have hsame : s.opportunities.lookup id = some found := hk ▸ hfound
    obtain rfl := Option.some.inj (h.found.symm.trans hsame)
    exact ⟨row', rfl, houtcome.trans hopen⟩
  · exact ⟨found, hfound, hopen⟩

theorem Sound.onePending_of_eq (hs : s.Sound) (h : t.reminders = s.reminders) :
    t.HasOnePending := by
  intro k k' r r' hr hr'
  rw [h] at hr hr'
  exact hs.onePending k k' r r' hr hr'

theorem Sound.contacts_of_eq (hs : s.Sound) (hlinks : t.links = s.links)
    (hobservations : t.observations = s.observations)
    (hparties : ∀ key, (s.parties.lookup key).isSome = true →
      (t.parties.lookup key).isSome = true) : t.HasContacts := by
  intro k obsId hlink
  rw [hlinks] at hlink
  obtain ⟨obs, hobs, hparty⟩ := hs.contacts k obsId hlink
  rw [hobservations]
  exact ⟨obs, hobs, fun party href => hparties _ (hparty party href)⟩

/-- A row with the same version, stage and disposition. -/
structure Steady (row row' : OpportunityRow) : Prop where
  preset : row'.presetId = row.presetId
  version : row'.presetVersion = row.presetVersion
  stage : row'.stageId = row.stageId
  outcome : row'.dispositionOutcome = row.dispositionOutcome
  closedAt : row'.dispositionAt = row.dispositionAt

theorem IsPinned.congr (h : s.IsPinned row) (hsteady : Steady row row') : s.IsPinned row' := by
  obtain ⟨v, stage, hv, hfound, hmatch, hboth⟩ := h
  refine ⟨v, stage, ?_, ?_, ?_, ?_⟩
  · rw [pinned, hsteady.preset, hsteady.version]
    exact hv
  · rw [hsteady.stage]
    exact hfound
  · rw [hsteady.outcome]
    exact hmatch
  · rw [hsteady.closedAt, hsteady.outcome]
    exact hboth

/-- A write of one opportunity that keeps the invariant, and does not reopen it. -/
structure WritesSoundly (s t : PipelineState) (id : Uuid) (row row' : OpportunityRow) : Prop
    extends WritesOne s t id row row' where
  sound : s.Sound → t.Sound
  closed : s.Sound → ∀ outcome, row.dispositionOutcome = some outcome →
    row'.dispositionOutcome = some outcome

/-- A write that leaves the outcome and the reminders alone. -/
theorem WritesOne.steady (h : WritesOne s t id row row') (hpinned : s.Sound → s.IsPinned row')
    (houtcome : s.Sound → row'.dispositionOutcome = row.dispositionOutcome)
    (hreminders : t.reminders = s.reminders) (hcontacts : s.Sound → t.HasContacts) :
    WritesSoundly s t id row row' where
  toWritesOne := h
  sound hs := hs.write h (hpinned hs) (hcontacts hs) (hs.onePending_of_eq hreminders)
    (h.openPending hs hreminders (houtcome hs))
  closed hs _ hclosed := (houtcome hs).trans hclosed

/-- A write that leaves the stage, the disposition and the reminders alone. -/
theorem WritesOne.quiet {changes : OpportunityRow → OpportunityRow} {now : ℕ}
    (h : WritesOne s t id row (bumped row changes now))
    (hsteady : Steady row (changes row)) (hreminders : t.reminders = s.reminders)
    (hcontacts : s.Sound → t.HasContacts) : WritesSoundly s t id row (bumped row changes now) := by
  have hbumped : Steady row (bumped row changes now) :=
    ⟨hsteady.preset, hsteady.version, hsteady.stage, hsteady.outcome, hsteady.closedAt⟩
  exact h.steady (fun hs => (hs.pinned id row h.found).congr hbumped) (fun _ => hbumped.outcome)
    hreminders hcontacts

/-- A write that changes the reminders of its own opportunity only, and leaves at most `own`
pending, of an open one. -/
theorem WritesOne.remind (h : WritesOne s t id row row') (own : Option Uuid)
    (hpinned : s.Sound → s.IsPinned row') (hcontacts : s.Sound → t.HasContacts)
    (hclosed : s.Sound → ∀ outcome, row.dispositionOutcome = some outcome →
      row'.dispositionOutcome = some outcome)
    (hothers : ∀ k r, t.reminders.lookup k = some r → r.state = .pending → r.opportunityId ≠ id →
      s.reminders.lookup k = some r)
    (hown : s.Sound → ∀ k r, t.reminders.lookup k = some r → r.state = .pending →
      r.opportunityId = id → some k = own ∧ row'.dispositionOutcome = none) :
    WritesSoundly s t id row row' where
  toWritesOne := h
  closed := hclosed
  sound hs := by
    refine hs.write h (hpinned hs) (hcontacts hs) ?_ ?_
    · intro k k' r r' hr hr' hpending hpending' heq
      by_cases hid : r.opportunityId = id
      · have hkey := (hown hs k r hr hpending hid).1
        have hkey' := (hown hs k' r' hr' hpending' (heq.symm.trans hid)).1
        exact Option.some.inj (hkey.trans hkey'.symm)
      · have hid' : r'.opportunityId ≠ id := fun hid' => hid (heq.trans hid')
        exact hs.onePending k k' r r' (hothers k r hr hpending hid)
          (hothers k' r' hr' hpending' hid') hpending hpending' heq
    · intro k r hr hpending
      rw [h.lookup]
      split_ifs with hid
      · exact ⟨row', rfl, (hown hs k r hr hpending hid).2⟩
      · exact hs.openPending k r (hothers k r hr hpending hid) hpending

/-- The contact of an observation is added to one opportunity, and no party goes away. -/
theorem addContact_ok (s : PipelineState) (id : Uuid) (partyRef : Option String) :
    ∃ parties, s.addContact id partyRef = { s with parties := parties } ∧
      (∀ key, (s.parties.lookup key).isSome = true → (parties.lookup key).isSome = true) ∧
      (∀ party, partyRef = some party → (parties.lookup (id, party, .contact)).isSome = true) ∧
      ∀ k, k ≠ id → ∀ party role,
        parties.lookup (k, party, role) = s.parties.lookup (k, party, role) := by
  cases partyRef with
  | none => exact ⟨s.parties, rfl, fun _ h => h, nofun, fun _ _ _ _ => rfl⟩
  | some party =>
    simp only [addContact]
    split_ifs with hthere
    · refine ⟨s.parties, rfl, fun _ h => h, fun p hp => ?_, fun _ _ _ _ => rfl⟩
      obtain rfl := Option.some.inj hp
      exact hthere
    · refine ⟨_, rfl, fun key hkey => ?_, fun p hp => ?_, fun k hk p role => ?_⟩
      · rw [Table.lookup_insert]
        split_ifs
        · rfl
        · exact hkey
      · obtain rfl := Option.some.inj hp
        rw [Table.lookup_insert, if_pos rfl]
        rfl
      · rw [Table.lookup_insert, if_neg fun heq => hk (congrArg Prod.fst heq)]

/-- A contact that is there already is not added again. -/
theorem addContact_eq_self {partyRef : Option String}
    (h : ∀ party, partyRef = some party →
      (s.parties.lookup (id, party, .contact)).isSome = true) : s.addContact id partyRef = s := by
  cases partyRef with
  | none => rfl
  | some party => simp [addContact, h party rfl]

variable {decision : String} {isReadable : String → Bool} {obs : SourceObservation} {obsId : Uuid}

/-- What a link wrote: nothing but a contact when the observation was linked already. -/
theorem link_ok {added : Bool} (h : s.link isReadable id obsId obs decision = .ok (t, added)) :
    added = false ∧ (s.links.lookup (id, obsId)).isSome = true ∧
        t = s.addContact id obs.partyRef ∨
      added = true ∧ (s.links.lookup (id, obsId)).isSome = false ∧
        t = { s with links := s.links.insert (id, obsId) decision }.addContact id obs.partyRef := by
  unfold link at h
  split_ifs at h with hreadable hlinked
  · obtain ⟨rfl, rfl⟩ := Prod.mk.inj (Except.ok.inj h)
    exact .inl ⟨rfl, hlinked, rfl⟩
  · obtain ⟨rfl, rfl⟩ := Prod.mk.inj (Except.ok.inj h)
    exact .inr ⟨rfl, Bool.eq_false_iff.mpr hlinked, rfl⟩

/-- A new link brings its contact, so every link has one. -/
theorem HasContacts.insert {parties : Table (Uuid × String × PartyRole) Bool} (h : s.HasContacts)
    (hobs : s.observations.lookup obsId = some obs)
    (hgrow : ∀ key, (s.parties.lookup key).isSome = true → (parties.lookup key).isSome = true)
    (hparty : ∀ party, obs.partyRef = some party →
      (parties.lookup (id, party, .contact)).isSome = true)
    (hlinks : t.links = s.links.insert (id, obsId) decision) (hparties : t.parties = parties)
    (hobservations : t.observations = s.observations) : t.HasContacts := by
  intro k o hlink
  rw [hlinks, Table.lookup_insert] at hlink
  rw [hobservations, hparties]
  split_ifs at hlink with heq
  · obtain ⟨rfl, rfl⟩ := Prod.mk.inj heq
    exact ⟨obs, hobs, hparty⟩
  · obtain ⟨found, hfound, hcontact⟩ := h k o hlink
    exact ⟨found, hfound, fun party href => hgrow _ (hcontact party href)⟩

theorem attach_ok {rows : List Fact} {now : ℕ} (hs : s.Sound)
    (h : s.attach parse isReadable id revision obsId decision rows now = .ok t) :
    (s.links.lookup (id, obsId)).isSome = true ∧ t = s ∧
        (∃ row, s.opportunities.lookup id = some row ∧ row.revision = revision) ∨
      (s.links.lookup (id, obsId)).isSome = false ∧
        ∃ row row', row.revision = revision ∧ WritesSoundly s t id row row' := by
  unfold attach at h
  split at h
  · cases h
  next row hopportunity =>
  obtain ⟨hrow, hrevision⟩ := opportunity_ok hopportunity
  split at h
  · cases h
  next obs hobs =>
  split at h
  · cases h
  next linked added hlink =>
  obtain ⟨rfl, hthere, rfl⟩ | ⟨rfl, hnew, rfl⟩ := link_ok hlink
  · rw [if_neg (by simp)] at h
    obtain ⟨found, hfound, hcontact⟩ := hs.contacts id obsId hthere
    obtain rfl := Option.some.inj (hobs.symm.trans hfound)
    have hsame : t = s := (Except.ok.inj h).symm.trans (addContact_eq_self hcontact)
    exact .inl ⟨hthere, hsame, row, hrow, hrevision⟩
  · obtain ⟨parties, hadded, hgrow, hparty, hothers⟩ :=
      addContact_ok { s with links := s.links.insert (id, obsId) decision } id obs.partyRef
    rw [if_pos rfl, hadded] at h
    obtain rfl := bump_ok (by exact hrow) h
    refine .inr ⟨hnew, row, _, hrevision, WritesOne.quiet ⟨hrow, rfl, rfl, rfl, fun k hk => ?_, rfl,
      rfl, rfl⟩ ⟨rfl, rfl, rfl, rfl, rfl⟩ rfl fun hs => ?_⟩
    · refine ⟨?_, ?_, fun o => ?_, hothers k hk, fun _ => rfl, fun _ => rfl⟩
      · rw [Table.lookup_insert, if_neg hk]
      · rw [Table.lookup_insert, if_neg hk]
      · rw [Table.lookup_insert, if_neg fun heq => hk (congrArg Prod.fst heq)]
    · exact hs.contacts.insert hobs hgrow hparty rfl rfl rfl

theorem edit_ok {m : OpportunityEdit} {now : ℕ} (h : s.edit parse id revision m now = .ok t) :
    ∃ row row', row.revision = revision ∧ WritesSoundly s t id row row' := by
  unfold edit at h
  split at h
  · cases h
  next row hopportunity =>
  obtain ⟨hrow, hrevision⟩ := opportunity_ok hopportunity
  split at h
  · cases h
  next edited hedited =>
  obtain rfl := bump_ok (by exact hrow) h
  refine ⟨row, _, hrevision, WritesOne.quiet ⟨hrow, rfl, rfl, rfl, fun k hk => ?_, rfl, rfl, rfl⟩
    ⟨rfl, rfl, rfl, rfl, rfl⟩ rfl fun hs => hs.contacts_of_eq rfl rfl fun _ hkey => hkey⟩
  refine ⟨?_, ?_, fun _ => rfl, fun _ _ => rfl, fun _ => rfl, fun _ => rfl⟩
  · rw [Table.lookup_insert, if_neg hk]
  · rw [Table.lookup_insert, if_neg hk]

/-- A new note is of its own opportunity. -/
theorem filter_note {k noteId : Uuid} {note : OpportunityNote} (hne : k ≠ note.opportunityId)
    (hfresh : s.notes.lookup noteId = none) (j : Uuid) :
    ((s.notes.insert noteId note).lookup j).filter (fun n => n.opportunityId = k) =
      (s.notes.lookup j).filter fun n => n.opportunityId = k := by
  rw [Table.lookup_insert]
  split_ifs with hj
  · rw [hj, hfresh]
    simpa using fun heq => hne heq.symm
  · rfl

theorem addNote_ok {body : String} {noteId : Uuid} {now : ℕ} (hfresh : s.notes.lookup noteId = none)
    (h : s.addNote id revision body noteId now = .ok t) :
    ∃ row row', row.revision = revision ∧ WritesSoundly s t id row row' := by
  unfold addNote at h
  split at h
  · cases h
  next row hopportunity =>
  obtain ⟨hrow, hrevision⟩ := opportunity_ok hopportunity
  obtain rfl := bump_ok (by exact hrow) h
  refine ⟨row, _, hrevision, WritesOne.quiet ⟨hrow, rfl, rfl, rfl, fun k hk => ?_, rfl, rfl, rfl⟩
    ⟨rfl, rfl, rfl, rfl, rfl⟩ rfl fun hs => hs.contacts_of_eq rfl rfl fun _ hkey => hkey⟩
  refine ⟨?_, rfl, fun _ => rfl, fun _ _ => rfl, fun j => filter_note hk hfresh j, fun _ => rfl⟩
  rw [Table.lookup_insert, if_neg hk]

theorem partyChange_ok {party : String} {role : PartyRole} {remove : Bool} {now : ℕ}
    (h : s.partyChange isReadable id revision party role remove now = .ok t) :
    ∃ row row', row.revision = revision ∧ WritesSoundly s t id row row' := by
  unfold partyChange at h
  split at h
  · cases h
  next row hopportunity =>
  obtain ⟨hrow, hrevision⟩ := opportunity_ok hopportunity
  split at h
  · cases h
  obtain rfl := bump_ok (by exact hrow) h
  refine ⟨row, _, hrevision, WritesOne.quiet ⟨hrow, rfl, rfl, rfl, fun k hk => ?_, rfl, rfl, rfl⟩
    ⟨rfl, rfl, rfl, rfl, rfl⟩ rfl fun hs => hs.contacts_of_eq rfl rfl fun key hkey => ?_⟩
  · refine ⟨?_, rfl, fun _ => rfl, fun p r => ?_, fun _ => rfl, fun _ => rfl⟩
    · rw [Table.lookup_insert, if_neg hk]
    · have hne : (k, p, r) ≠ (id, party, role) := fun heq => hk (congrArg Prod.fst heq)
      cases remove with
      | true => simp [hne]
      | false => simp [hne]
  · cases remove with
    | true => simpa using hkey
    | false =>
      simp only [Bool.false_eq_true, if_false, Table.lookup_insert]
      split_ifs
      · rfl
      · exact hkey

section Reminders

/-- A reminder of one opportunity is not among those of another. -/
theorem filter_reminder {k : Uuid} {r : Reminder} (hne : r.opportunityId ≠ k) :
    Option.filter (fun r : Reminder => decide (r.opportunityId = k)) (some r) = none := by
  simp [hne]

variable {k k' : Uuid} {r : Reminder} {state : ReminderState} {now : ℕ}

/-- What is pending after the pending reminder of an opportunity was closed was pending before,
and is of another one. -/
theorem pending_of_closePending (hstate : state ≠ .pending)
    (hr : (s.closePending id state now).reminders.lookup k = some r)
    (hpending : r.state = .pending) :
    s.reminders.lookup k = some r ∧ r.opportunityId ≠ id := by
  simp only [closePending, Table.lookup_updateAll] at hr
  obtain ⟨old, hold, rfl⟩ := Option.map_eq_some_iff.mp hr
  split_ifs at hpending ⊢ with hclosed
  · exact absurd hpending hstate
  · refine ⟨hold, fun heq => ?_⟩
    simp [heq, hpending] at hclosed

/-- Closing the pending reminder of an opportunity leaves the reminders of the others alone. -/
theorem filter_closePending (hne : k' ≠ id) (j : Uuid) :
    ((s.closePending id state now).reminders.lookup j).filter (fun r => r.opportunityId = k') =
      (s.reminders.lookup j).filter fun r => r.opportunityId = k' := by
  simp only [closePending, Table.lookup_updateAll]
  cases s.reminders.lookup j with
  | none => rfl
  | some r =>
    by_cases hid : r.opportunityId = id
    · have hother : r.opportunityId ≠ k' := fun heq => hne (heq.symm.trans hid)
      rw [Option.map_some, filter_reminder hother]
      split_ifs
      · exact filter_reminder hother
      · exact filter_reminder hother
    · simp [hid]

end Reminders

theorem schedule_ok {action : String} {dueOn : ℕ} {reminderId : Uuid} {now : ℕ}
    (hfresh : s.reminders.lookup reminderId = none)
    (h : s.schedule id revision action dueOn reminderId now = .ok t) :
    ∃ row row', row.revision = revision ∧ WritesSoundly s t id row row' := by
  unfold schedule at h
  split at h
  · cases h
  next row hopportunity =>
  obtain ⟨hrow, hrevision⟩ := opportunity_ok hopportunity
  split at h
  · cases h
  next hopen =>
  have ht := bump_ok (by exact hrow) h
  have hnone : row.dispositionOutcome = none := by simpa [OpportunityRow.isClosed] using hopen
  have hwrites : WritesOne s t id row (bumped row (fun r => r) now) := by
    subst ht
    refine ⟨hrow, rfl, rfl, rfl, fun k hk => ?_, rfl, rfl, rfl⟩
    refine ⟨?_, rfl, fun _ => rfl, fun _ _ => rfl, fun _ => rfl, fun j => ?_⟩
    · rw [Table.lookup_insert, if_neg hk]
      rfl
    · dsimp only
      rw [Table.lookup_insert]
      split_ifs with hj
      · rw [hj, hfresh]
        exact filter_reminder (Ne.symm hk)
      · exact filter_closePending hk j
  -- A pending reminder is the new one, or was pending for another opportunity.
  have hpending : ∀ j r, t.reminders.lookup j = some r → r.state = .pending →
      j = reminderId ∧ r.opportunityId = id ∨
        s.reminders.lookup j = some r ∧ r.opportunityId ≠ id := by
    intro j r hr hstate
    rw [ht, Table.lookup_insert] at hr
    split_ifs at hr with hj
    · exact .inl ⟨hj, Option.some.inj hr ▸ rfl⟩
    · exact .inr (pending_of_closePending (by decide) hr hstate)
  refine ⟨row, _, hrevision, hwrites.remind (some reminderId)
    (fun hs => (hs.pinned id row hrow).congr ⟨rfl, rfl, rfl, rfl, rfl⟩)
    (fun hs => hs.contacts_of_eq (by rw [ht]; rfl) hwrites.observations
      (by rw [ht]; exact fun _ hkey => hkey)) (fun _ _ hclosed => hclosed)
    (fun j r hr hstate hid => ?_) fun _ j r hr hstate hid => ?_⟩
  · obtain ⟨-, hsame⟩ | ⟨hold, -⟩ := hpending j r hr hstate
    · exact absurd hsame hid
    · exact hold
  · obtain ⟨rfl, -⟩ | ⟨-, hother⟩ := hpending j r hr hstate
    · exact ⟨rfl, hnone⟩
    · exact absurd hid hother

theorem resolve_ok {reminderId : Uuid} {completed : Bool} {now : ℕ}
    (h : s.resolve id revision reminderId completed now = .ok t) :
    ∃ row row', row.revision = revision ∧ WritesSoundly s t id row row' := by
  unfold resolve at h
  split at h
  · cases h
  next row hopportunity =>
  obtain ⟨hrow, hrevision⟩ := opportunity_ok hopportunity
  split at h
  · cases h
  next reminders hupdate =>
  obtain ⟨found, hfound, hguard, rfl⟩ := Table.updateRow_eq_some.mp hupdate
  obtain ⟨howner, hwas⟩ := Bool.and_eq_true_iff.mp hguard
  replace howner : found.opportunityId = id := of_decide_eq_true howner
  replace hwas : found.state = .pending := of_decide_eq_true hwas
  have ht := bump_ok (by exact hrow) h
  have hnot : (if completed then ReminderState.completed else .cancelled) ≠ .pending := by
    cases completed <;> decide
  have hwrites : WritesOne s t id row (bumped row (fun r => r) now) := by
    subst ht
    refine ⟨hrow, rfl, rfl, rfl, fun k hk => ?_, rfl, rfl, rfl⟩
    refine ⟨?_, rfl, fun _ => rfl, fun _ _ => rfl, fun _ => rfl, fun j => ?_⟩
    · rw [Table.lookup_insert, if_neg hk]
    · dsimp only
      rw [Table.lookup_insert]
      split_ifs with hj
      · have hother : found.opportunityId ≠ k := fun heq => hk (heq.symm.trans howner)
        rw [hj, hfound, filter_reminder hother]
        exact filter_reminder hother
      · rfl
  -- What is pending was pending, under another identifier.
  have hpending : ∀ j r, t.reminders.lookup j = some r → r.state = .pending →
      s.reminders.lookup j = some r ∧ j ≠ reminderId := by
    intro j r hr hstate
    rw [ht, Table.lookup_insert] at hr
    split_ifs at hr with hj
    · obtain rfl := Option.some.inj hr
      exact absurd hstate hnot
    · exact ⟨hr, hj⟩
  refine ⟨row, _, hrevision, hwrites.remind none
    (fun hs => (hs.pinned id row hrow).congr ⟨rfl, rfl, rfl, rfl, rfl⟩)
    (fun hs => hs.contacts_of_eq (by rw [ht]) hwrites.observations
      (by rw [ht]; exact fun _ hkey => hkey)) (fun _ _ hclosed => hclosed)
    (fun j r hr hstate _ => (hpending j r hr hstate).1) fun hs j r hr hstate hid => ?_⟩
  obtain ⟨hold, hne⟩ := hpending j r hr hstate
  have hsame := hs.onePending j reminderId r found hold hfound hstate hwas (hid.trans howner.symm)
  exact absurd hsame hne

/-- The note of a transition is of its own opportunity. -/
theorem addTransitionNote_ok (s : PipelineState) (noteId id : Uuid) (note : Option String)
    (stageId : String) : ∃ notes, s.addTransitionNote noteId id note stageId =
      { s with notes := notes } ∧ (s.notes.lookup noteId = none → ∀ k, k ≠ id → ∀ j,
        (notes.lookup j).filter (fun n => n.opportunityId = k) =
          (s.notes.lookup j).filter fun n => n.opportunityId = k) := by
  cases note with
  | none => exact ⟨s.notes, rfl, fun _ _ _ _ => rfl⟩
  | some body =>
    simp only [addTransitionNote]
    split_ifs
    · exact ⟨s.notes, rfl, fun _ _ _ _ => rfl⟩
    · exact ⟨_, rfl, fun hfresh k hk j => filter_note hk hfresh j⟩

/-- The pinned version has no transition out of a terminal stage. -/
theorem Sound.isOpen_of_transition {v : PresetVersion} {toStageId : String} (hs : s.Sound)
    (hrow : s.opportunities.lookup id = some row) (hv : s.pinned row = some v)
    (hmem : (row.stageId, toStageId) ∈ v.transitions) : row.dispositionOutcome = none := by
  obtain ⟨v', stage, hv', hstage, hmatch, -⟩ := hs.pinned id row hrow
  obtain rfl := Option.some.inj (hv.symm.trans hv')
  obtain ⟨⟨start, hstart, hkind⟩, -⟩ := (hs.versions _ v hv).transitions _ hmem
  obtain rfl := Option.some.inj (hstart.symm.trans hstage)
  rw [hmatch]
  exact start.outcome_of_opened hkind

/-- What a transition that is accepted went through. -/
theorem transition_ok {toStageId : String} {note : Option String} {noteId : Uuid} {now : ℕ}
    (hfresh : s.notes.lookup noteId = none)
    (h : s.transition id revision toStageId note noteId now = .ok t) :
    ∃ row row', row.revision = revision ∧ WritesSoundly s t id row row' := by
  unfold transition at h
  split at h
  · cases h
  next row hopportunity =>
  obtain ⟨hrow, hrevision⟩ := opportunity_ok hopportunity
  split at h
  · cases h
  next v hv =>
  split at h
  · cases h
  next hallowed =>
  split at h
  · cases h
  next stage hstage =>
  split at h
  · cases h
  split at h
  · cases h
  next moved hbump =>
  have hmoved := bump_ok (by exact hrow) hbump
  set entered := bumped row (enters stage toStageId now) now with hentered
  refine ⟨row, entered, hrevision, ?_⟩
  have hpinned : s.IsPinned entered := by
    refine ⟨v, stage, hv, hstage, rfl, ?_⟩
    change (if stage.kind = .terminal then some now else none).isSome = stage.outcome.isSome
    cases hkind : stage.kind with
    | terminal => simpa using stage.outcome_iff.mp hkind
    | opened => simp [stage.outcome_of_opened hkind]
  have hclosed : s.Sound → ∀ outcome, row.dispositionOutcome = some outcome →
      entered.dispositionOutcome = some outcome := by
    intro hs outcome houtcome
    rw [hs.isOpen_of_transition hrow hv (by simpa using hallowed)] at houtcome
    cases houtcome
  subst hmoved
  by_cases hkind : stage.kind = .terminal
  · simp only [if_pos hkind] at h
    obtain ⟨notes, hnotes, hothers⟩ := addTransitionNote_ok
      (({ s with opportunities := s.opportunities.insert id entered } : PipelineState).closePending
        id .cancelled now) noteId id note toStageId
    have ht := (Except.ok.inj h).symm.trans hnotes
    have hwrites : WritesOne s t id row entered := by
      subst ht
      refine ⟨hrow, rfl, rfl, rfl, fun k hk => ?_, rfl, rfl, rfl⟩
      refine ⟨?_, rfl, fun _ => rfl, fun _ _ => rfl, hothers hfresh k hk, fun j => ?_⟩
      · exact (Table.lookup_insert _ _ _ _).trans (if_neg hk)
      · exact filter_closePending hk j
    have hpending : ∀ j r, t.reminders.lookup j = some r → r.state = .pending →
        s.reminders.lookup j = some r ∧ r.opportunityId ≠ id := by
      intro j r hr hstate
      rw [ht] at hr
      exact pending_of_closePending
        (s := { s with opportunities := s.opportunities.insert id entered }) (by decide) hr hstate
    refine hwrites.remind none (fun _ => hpinned) (fun hs => hs.contacts_of_eq (by rw [ht]; rfl)
      hwrites.observations (by rw [ht]; exact fun _ hkey => hkey)) hclosed
      (fun j r hr hstate _ => (hpending j r hr hstate).1) fun _ j r hr hstate hid => ?_
    exact absurd hid (hpending j r hr hstate).2
  · simp only [if_neg hkind] at h
    obtain ⟨notes, hnotes, hothers⟩ := addTransitionNote_ok
      { s with opportunities := s.opportunities.insert id entered } noteId id note toStageId
    have ht := (Except.ok.inj h).symm.trans hnotes
    have hwrites : WritesOne s t id row entered := by
      subst ht
      refine ⟨hrow, rfl, rfl, rfl, fun k hk => ?_, rfl, rfl, rfl⟩
      refine ⟨?_, rfl, fun _ => rfl, fun _ _ => rfl, hothers hfresh k hk, fun _ => rfl⟩
      exact (Table.lookup_insert _ _ _ _).trans (if_neg hk)
    have houtcome : entered.dispositionOutcome = none := by
      cases hstate : stage.kind with
      | terminal => exact absurd hstate hkind
      | opened => exact stage.outcome_of_opened hstate
    refine hwrites.steady (fun _ => hpinned) (fun hs => ?_) (by rw [ht])
      fun hs => hs.contacts_of_eq (by rw [ht]) hwrites.observations
        (by rw [ht]; exact fun _ hkey => hkey)
    rw [houtcome, hs.isOpen_of_transition hrow hv (by simpa using hallowed)]

theorem migrate_ok {revision toVersion : ℕ} {stageMap : List (String × String)} {now : ℕ}
    (h : s.migrate parse id revision toVersion stageMap now = .ok t) :
    ∃ row row', row.revision = revision ∧ WritesSoundly s t id row row' := by
  unfold migrate at h
  split at h
  · cases h
  next row hopportunity =>
  obtain ⟨hrow, hrevision⟩ := opportunity_ok hopportunity
  split at h
  case h_2 => cases h
  next target v htarget hv =>
  split at h
  · cases h
  next stage hstage =>
  split at h
  · cases h
  next hmatch =>
  split at h
  · cases h
  have houtcome : stage.outcome = row.dispositionOutcome := not_not.mp hmatch
  obtain rfl := bump_ok (by exact hrow) h
  refine ⟨row, _, hrevision, WritesOne.steady ⟨hrow, rfl, rfl, rfl, fun k hk => ?_, rfl, rfl, rfl⟩
    (fun hs => ?_) (fun _ => rfl) rfl fun hs => hs.contacts_of_eq rfl rfl fun _ hkey => hkey⟩
  · refine ⟨?_, ?_, fun _ => rfl, fun _ _ => rfl, fun _ => rfl, fun _ => rfl⟩
    · rw [Table.lookup_insert, if_neg hk]
    · rw [Table.lookup_insert, if_neg hk]
  · obtain ⟨-, -, -, -, -, hboth⟩ := hs.pinned id row hrow
    exact ⟨v, stage, hv, hstage, houtcome.symm, hboth⟩

/-- What an opportunity enters with: a version of its preset, and an open stage of it. -/
theorem entry_ok {pipeline : PipelineRow} {version : ℕ} {stage : PresetStage} (hs : s.Sound)
    (h : s.entry pipeline = .ok (version, stage)) :
    ∃ v, s.versions.lookup (pipeline.presetId, version) = some v ∧
      v.stage stage.stageId = some stage ∧ stage.outcome = none := by
  unfold entry at h
  split at h
  · cases h
  split at h
  · cases h
  next entered hfound =>
  obtain ⟨rfl, rfl⟩ := Prod.mk.inj (Except.ok.inj h)
  obtain ⟨v, hv, hentry⟩ := Option.bind_eq_some_iff.mp hfound
  obtain ⟨hstage, hopen⟩ := (hs.versions _ v hv).entryStage hentry
  exact ⟨v, hv, hstage, entered.outcome_of_opened hopen⟩

/-- A link leaves the rows, the fields and the reminders alone, and what belongs to the other
opportunities. -/
structure Links (s t : PipelineState) (id obsId : Uuid) (obs : SourceObservation) : Prop where
  kept : t = { s with links := t.links, parties := t.parties }
  others : ∀ k, k ≠ id → Untouched s t k
  contacts : s.HasContacts → s.observations.lookup obsId = some obs → t.HasContacts

theorem link_links {added : Bool} (h : s.link isReadable id obsId obs decision = .ok (t, added)) :
    Links s t id obsId obs := by
  obtain ⟨-, -, rfl⟩ | ⟨-, -, rfl⟩ := link_ok h
  · obtain ⟨parties, hadded, hgrow, -, hothers⟩ := addContact_ok s id obs.partyRef
    rw [hadded]
    refine ⟨rfl, fun k hk => ⟨rfl, rfl, fun _ => rfl, hothers k hk, fun _ => rfl, fun _ => rfl⟩,
      fun hcontacts _ k o hlink => ?_⟩
    obtain ⟨found, hfound, hparty⟩ := hcontacts k o hlink
    exact ⟨found, hfound, fun party href => hgrow _ (hparty party href)⟩
  · obtain ⟨parties, hadded, hgrow, hparty, hothers⟩ := addContact_ok
      { s with links := s.links.insert (id, obsId) decision } id obs.partyRef
    rw [hadded]
    refine ⟨rfl, fun k hk => ⟨rfl, rfl, fun o => ?_, hothers k hk, fun _ => rfl, fun _ => rfl⟩,
      fun hcontacts hobs => hcontacts.insert hobs hgrow hparty rfl rfl rfl⟩
    rw [Table.lookup_insert, if_neg fun heq => hk (congrArg Prod.fst heq)]

/-- A row of one opportunity is inserted, with what belongs to it. -/
theorem create_ok {obsId pipelineId : Uuid} {rows : List Fact} {now : ℕ}
    (hfresh : s.opportunities.lookup id = none)
    (h : s.create parse isReadable id obsId pipelineId decision rows now = .ok t) :
    (s.Sound → t.Sound) ∧ (∀ k, k ≠ id → Untouched s t k) ∧
      t.presets = s.presets ∧ t.versions = s.versions ∧
        ∃ row, t.opportunities.lookup id = some row ∧ row.revision = 1 ∧
          row.sourceObservationId = some obsId := by
  unfold create at h
  split at h
  · cases h
  next obs hobs =>
  split at h
  · cases h
  next pipeline hpipeline =>
  split at h
  · cases h
  next version stage hentry =>
  dsimp only at h
  split at h
  · cases h
  next linked added hlink =>
  obtain ⟨hkept, hothers, hcontacts⟩ := link_links hlink
  have hopportunities : linked.opportunities = s.opportunities.insert id
      (enteredRow pipelineId pipeline version stage.stageId obsId obs now) := by rw [hkept]
  have hversions : linked.versions = s.versions := by rw [hkept]
  have hpresets : linked.presets = s.presets := by rw [hkept]
  have hreminders : linked.reminders = s.reminders := by rw [hkept]
  have hrows : ∀ k, t.opportunities.lookup k = if k = id then
      some { enteredRow pipelineId pipeline version stage.stageId obsId obs now with
        title := (linked.derived parse id
          (enteredRow pipelineId pipeline version stage.stageId obsId obs now) rows).2 }
      else s.opportunities.lookup k := by
    intro k
    obtain rfl := Except.ok.inj h
    rw [Table.lookup_insert, hopportunities, Table.lookup_insert]
    split_ifs <;> rfl
  obtain rfl := Except.ok.inj h
  refine ⟨fun hs => ?_, fun k hk => ?_, hpresets, hversions, ?_⟩
  · obtain ⟨v, hv, hstage, houtcome⟩ := entry_ok hs hentry
    refine ⟨?_, ?_, ?_, fun k r hr => ?_, ?_, ?_, fun k r hr hpending => ?_⟩
    · dsimp only
      rw [hpresets, hversions]
      exact hs.current
    · dsimp only
      rw [hpresets, hversions]
      exact hs.last
    · dsimp only
      rw [hversions]
      exact hs.versions
    · rw [hrows] at hr
      simp only [IsPinned, pinned, hversions]
      split_ifs at hr with hk
      · obtain rfl := Option.some.inj hr
        exact ⟨v, stage, hv, hstage, houtcome.symm, rfl⟩
      · exact hs.pinned k r hr
    · exact hcontacts hs.contacts hobs
    · exact hs.onePending_of_eq hreminders
    · dsimp only at hr
      rw [hreminders] at hr
      obtain ⟨found, hfound, hopen⟩ := hs.openPending k r hr hpending
      refine ⟨found, ?_, hopen⟩
      rw [hrows, if_neg fun heq => ?_]
      · exact hfound
      · rw [heq, hfresh] at hfound
        cases hfound
  · obtain ⟨-, hfields, hlinks, hparties, hnotes, hreminders'⟩ := hothers k hk
    refine ⟨?_, ?_, hlinks, hparties, hnotes, hreminders'⟩
    · rw [hrows, if_neg hk]
    · rw [Table.lookup_insert, if_neg hk]
      exact hfields
  · exact ⟨_, (hrows id).trans (if_pos rfl), rfl, rfl⟩

theorem observe_sound (obs : SourceObservation) (hfresh : s.observations.lookup obsId = none)
    (hs : s.Sound) :
    Sound { s with observations := s.observations.insert obsId obs } where
  current := hs.current
  last := hs.last
  versions := hs.versions
  pinned := hs.pinned
  onePending := hs.onePending
  openPending := hs.openPending
  contacts k o hlink := by
    obtain ⟨found, hfound, hparty⟩ := hs.contacts k o hlink
    refine ⟨found, ?_, hparty⟩
    rw [Table.lookup_insert, if_neg fun heq => ?_]
    · exact hfound
    · rw [heq, hfresh] at hfound
      cases hfound

theorem pipelineCreate_ok {presetId ownerId : Uuid}
    (h : s.pipelineCreate id presetId ownerId = .ok t) :
    (s.Sound → t.Sound) ∧ t = { s with pipelines := t.pipelines } ∧ ∀ k, Untouched s t k := by
  unfold pipelineCreate at h
  split_ifs at h
  obtain rfl := Except.ok.inj h
  refine ⟨fun hs => ?_, rfl, fun k => ?_⟩
  case refine_2 => exact ⟨rfl, rfl, fun _ => rfl, fun _ _ => rfl, fun _ => rfl, fun _ => rfl⟩
  exact ⟨hs.current, hs.last, hs.versions, hs.pinned, hs.contacts, hs.onePending, hs.openPending⟩

/-- An edit of a preset adds the next version, and leaves every version that is there alone. -/
theorem presetEdit_ok {m : PresetEdit} (h : s.presetEdit m = .ok t) :
    (s.Sound → t.Sound) ∧ t = { s with presets := t.presets, versions := t.versions } ∧
      (∀ k, Untouched s t k) ∧ s.presets.lookup m.presetId = some m.fromVersion := by
  unfold presetEdit at h
  split at h
  · cases h
  next current hcurrent =>
  split at h
  · cases h
  next hfrom =>
  split at h
  · cases h
  next hchecked =>
  split_ifs at h with hfree
  obtain rfl := Except.ok.inj h
  obtain rfl := not_not.mp hfrom
  replace hfree := Option.not_isSome_iff_eq_none.mp hfree
  refine ⟨fun hs => ?_, rfl, fun k => ?_, hcurrent⟩
  case refine_2 => exact ⟨rfl, rfl, fun _ => rfl, fun _ _ => rfl, fun _ => rfl, fun _ => rfl⟩
  refine ⟨fun k version hk => ?_, fun k version v hv => ?_, fun key v hv => ?_, fun k r hr => ?_,
    hs.contacts, hs.onePending, hs.openPending⟩
  · dsimp only at hk ⊢
    rw [Table.lookup_insert] at hk ⊢
    split_ifs at hk with hsame
    · obtain rfl := Option.some.inj hk
      rw [hsame, if_pos rfl]
      rfl
    · rw [if_neg fun heq => hsame (congrArg Prod.fst heq)]
      exact hs.current k version hk
  · dsimp only at hv ⊢
    rw [Table.lookup_insert] at hv ⊢
    split_ifs at hv with hnew
    · obtain ⟨rfl, rfl⟩ := Prod.mk.inj hnew
      exact ⟨_, if_pos rfl, le_rfl⟩
    · obtain ⟨found, hfound, hle⟩ := hs.last k version v hv
      split_ifs with hsame
      · rw [hsame, hcurrent] at hfound
        obtain rfl := Option.some.inj hfound
        exact ⟨_, rfl, Nat.le_succ_of_le hle⟩
      · exact ⟨found, hfound, hle⟩
  · dsimp only at hv
    rw [Table.lookup_insert] at hv
    split_ifs at hv
    · obtain rfl := Option.some.inj hv
      exact m.isSound_version hchecked
    · exact hs.versions key v hv
  · obtain ⟨v, stage, hv, hrest⟩ := hs.pinned k r hr
    refine ⟨v, stage, ?_, hrest⟩
    unfold pinned at hv ⊢
    dsimp only
    rw [Table.lookup_insert, if_neg fun heq => ?_]
    · exact hv
    · rw [heq, hfree] at hv
      cases hv

/-- An erasure that keeps the stage of every row that it leaves, and raises its revision by one
if at all. -/
structure Erases (s t : PipelineState) : Prop where
  presets : t.presets = s.presets
  versions : t.versions = s.versions
  steady : ∀ id row', t.opportunities.lookup id = some row' →
    ∃ row, s.opportunities.lookup id = some row ∧ Steady row row' ∧
      (row'.revision = row.revision ∨ row'.revision = row.revision + 1)
  contacts : s.HasContacts → t.HasContacts
  reminders : ∀ k r, t.reminders.lookup k = some r → s.reminders.lookup k = some r ∧
    ((s.opportunities.lookup r.opportunityId).isSome = true →
      (t.opportunities.lookup r.opportunityId).isSome = true)

theorem Erases.sound (h : Erases s t) (hs : s.Sound) : t.Sound where
  current := by
    rw [h.presets, h.versions]
    exact hs.current
  last := by
    rw [h.presets, h.versions]
    exact hs.last
  versions := by
    rw [h.versions]
    exact hs.versions
  pinned id row' hrow' := by
    obtain ⟨row, hrow, hsteady, -⟩ := h.steady id row' hrow'
    simp only [IsPinned, pinned, h.versions]
    exact (hs.pinned id row hrow).congr hsteady
  contacts := h.contacts hs.contacts
  onePending k k' r r' hr hr' :=
    hs.onePending k k' r r' (h.reminders k r hr).1 (h.reminders k' r' hr').1
  openPending k r hr hpending := by
    obtain ⟨hold, hkept⟩ := h.reminders k r hr
    obtain ⟨row, hrow, hopen⟩ := hs.openPending k r hold hpending
    obtain ⟨row', hrow'⟩ := Option.isSome_iff_exists.mp (hkept (by rw [hrow]; rfl))
    obtain ⟨found, hfound, hsteady, -⟩ := h.steady _ row' hrow'
    obtain rfl := Option.some.inj (hrow.symm.trans hfound)
    exact ⟨row', hrow', hsteady.outcome.trans hopen⟩

/-- The title and the revision of a row that an erasure reached are new, nothing else is. -/
theorem lookup_bumpErased {title : Uuid → Option String} {affected : Uuid → Bool} {now : ℕ}
    (h : (s.bumpErased title affected now).opportunities.lookup id = some row') :
    ∃ row, s.opportunities.lookup id = some row ∧ Steady row row' ∧
      (row'.revision = row.revision ∨ row'.revision = row.revision + 1) := by
  simp only [bumpErased, Table.lookup_updateAll] at h
  obtain ⟨row, hrow, rfl⟩ := Option.map_eq_some_iff.mp h
  refine ⟨row, hrow, ?_⟩
  split_ifs
  · exact ⟨⟨rfl, rfl, rfl, rfl, rfl⟩, .inr rfl⟩
  · exact ⟨⟨rfl, rfl, rfl, rfl, rfl⟩, .inl rfl⟩

theorem deleteObservation_ok {rows : Uuid → List Fact} {now : ℕ}
    (h : s.deleteObservation parse obsId rows now = .ok t) : Erases s t := by
  unfold deleteObservation at h
  split_ifs at h
  obtain rfl := Except.ok.inj h
  refine ⟨rfl, rfl, fun k row' hrow' => ?_, fun hcontacts k o hlink => ?_, fun k r hr => ⟨?_, ?_⟩⟩
  · obtain ⟨dropped, hdropped, hsteady, hrevision⟩ := lookup_bumpErased hrow'
    simp only [dropObservation, Table.lookup_updateAll] at hdropped
    obtain ⟨row, hrow, rfl⟩ := Option.map_eq_some_iff.mp hdropped
    refine ⟨row, hrow, ?_⟩
    split_ifs at hsteady hrevision
    · obtain ⟨hpreset, hversion, hstage, houtcome, hclosed⟩ := hsteady
      exact ⟨⟨hpreset, hversion, hstage, houtcome, hclosed⟩, hrevision⟩
    · exact ⟨hsteady, hrevision⟩
  · obtain ⟨hthere, hother⟩ :=
      (Table.isSome_deleteWhere (p := fun k : Uuid × Uuid => k.2 = obsId)).mp hlink
    obtain ⟨obs, hobs, hparty⟩ := hcontacts k o hthere
    refine ⟨obs, ?_, hparty⟩
    have hne : o ≠ obsId := of_decide_eq_false hother
    exact (AList.lookup_erase_ne hne).trans hobs
  · exact (Table.lookup_deleteWhere_eq_some.mp hr).1
  · intro hthere
    simpa [bumpErased, dropObservation] using hthere

theorem deleteParty_ok (s : PipelineState) (party : String) (now : ℕ) :
    Erases s (s.deleteParty party now) where
  presets := rfl
  versions := rfl
  steady _ _ h := lookup_bumpErased h
  contacts hcontacts k o hlink := by
    obtain ⟨obs, hobs, hparty⟩ := hcontacts k o hlink
    refine ⟨_, (Table.lookup_updateAll _ _ _).trans (congrArg _ hobs), fun p hp => ?_⟩
    have hwas : obs.partyRef = some p := by
      by_cases hsame : obs.partyRef = some party
      · simp [hsame] at hp
      · simpa [hsame] using hp
    simpa [deleteParty, bumpErased] using hparty p hwas
  reminders k r hr := by
    refine ⟨hr, fun hthere => ?_⟩
    simpa [deleteParty, bumpErased] using hthere

theorem deleteOpportunity_ok (h : s.deleteOpportunity id revision = .ok t) :
    Erases s t ∧ t.opportunities.lookup id = none ∧
      ∃ row, s.opportunities.lookup id = some row ∧ row.revision = revision := by
  unfold deleteOpportunity at h
  split at h
  · cases h
  next row hopportunity =>
  obtain rfl := Except.ok.inj h
  refine ⟨⟨rfl, rfl, fun k row' hrow' => ?_, fun hcontacts k o hlink => ?_, fun k r hr => ?_⟩,
    AList.lookup_erase _ _, row, opportunity_ok hopportunity⟩
  · exact ⟨row', (Table.lookup_erase_eq_some.mp hrow').2, ⟨rfl, rfl, rfl, rfl, rfl⟩, .inl rfl⟩
  · obtain ⟨hthere, hother⟩ :=
      (Table.isSome_deleteWhere (p := fun k : Uuid × Uuid => k.1 = id)).mp hlink
    obtain ⟨obs, hobs, hparty⟩ := hcontacts k o hthere
    refine ⟨obs, hobs, fun p hp => Table.isSome_deleteWhere.mpr ⟨hparty p hp, hother⟩⟩
  · obtain ⟨hold, hother⟩ := Table.lookup_deleteWhere_eq_some.mp hr
    have hne : r.opportunityId ≠ id := of_decide_eq_false hother
    refine ⟨hold, fun hthere => ?_⟩
    dsimp only
    rw [AList.lookup_erase_ne hne]
    exact hthere

end PipelineState

end Rheostream.Leads
