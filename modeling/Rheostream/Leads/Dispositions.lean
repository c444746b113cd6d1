import Rheostream.Leads.PipelineLaws

/-!
# The outcome of an opportunity is the outcome of its stage

Opportunities over every sequence of calls on them: what they carry in any state that can be
reached, what a refused call leaves, and what an accepted call writes.
-/

namespace Rheostream.Leads

namespace PipelineState

variable {parse : Parsers} {s t : PipelineState} {a : PipelineAction} {id : Uuid}
  {row row' : OpportunityRow}

/-- An observation that is linked already is attached again. -/
def isRepeated (s : PipelineState) : PipelineAction → Bool
  | .attach _ id _ obsId _ _ _ => (s.links.lookup (id, obsId)).isSome
  | _ => false

/-- What an accepted call did. -/
structure Accepted (s t : PipelineState) (a : PipelineAction) : Prop where
  /-- The opportunity that it names was there, at the revision that it expects. -/
  expected : ∀ id revision, a.expects = some (id, revision) →
    ∃ row, s.opportunities.lookup id = some row ∧ row.revision = revision
  /-- Attaching an observation that is linked already wrote nothing. -/
  repeated : s.isRepeated a = true → t = s
  /-- Otherwise the opportunity that it names is at the next revision. -/
  raised : a.isErasure = false → s.isRepeated a = false → ∀ id revision,
    a.expects = some (id, revision) →
      ∃ row', t.opportunities.lookup id = some row' ∧ row'.revision = revision + 1
  /-- The other opportunities that were there are as they were. -/
  others : a.isErasure = false → ∀ k row, s.opportunities.lookup k = some row →
    a.expects.map Prod.fst ≠ some k → Untouched s t k
  /-- An erasure raises a revision by one, if at all. -/
  erased : a.isErasure = true → ∀ k row row', s.opportunities.lookup k = some row →
    t.opportunities.lookup k = some row' →
      row'.revision = row.revision ∨ row'.revision = row.revision + 1
  /-- A closed opportunity is not opened again. -/
  closed : ∀ k row row' outcome, s.opportunities.lookup k = some row →
    t.opportunities.lookup k = some row' → row.dispositionOutcome = some outcome →
      row'.dispositionOutcome = some outcome

theorem WritesSoundly.accepted {revision : ℕ} (hs : s.Sound) (h : WritesSoundly s t id row row')
    (hrevision : row.revision = revision) (hexpects : a.expects = some (id, revision))
    (herasure : a.isErasure = false) (hrepeated : s.isRepeated a = false) : Accepted s t a where
  expected k r hk := by
    obtain ⟨rfl, rfl⟩ := Prod.mk.inj (Option.some.inj (hexpects.symm.trans hk))
    exact ⟨row, h.found, hrevision⟩
  repeated hr := by
    rw [hrepeated] at hr
    cases hr
  raised _ _ k r hk := by
    obtain ⟨rfl, rfl⟩ := Prod.mk.inj (Option.some.inj (hexpects.symm.trans hk))
    refine ⟨row', (h.lookup _).trans (if_pos rfl), ?_⟩
    rw [h.revision, hrevision]
  others _ k r _ hk := by
    refine h.others k fun heq => hk ?_
    rw [hexpects, heq]
    rfl
  erased herased := by
    rw [herasure] at herased
    cases herased
  closed k r r' outcome hr hr' hclosed := by
    rw [h.lookup] at hr'
    split_ifs at hr' with hk
    · have hsame : s.opportunities.lookup id = some r := hk ▸ hr
      obtain rfl := Option.some.inj (h.found.symm.trans hsame)
      obtain rfl := Option.some.inj hr'
      exact h.closed hs outcome hclosed
    · obtain rfl := Option.some.inj (hr.symm.trans hr')
      exact hclosed

/-- A call that names no opportunity leaves those that were there alone. -/
theorem Accepted.of_untouched (hexpects : a.expects = none) (herasure : a.isErasure = false)
    (hrepeated : s.isRepeated a = false)
    (h : ∀ k row, s.opportunities.lookup k = some row → Untouched s t k) : Accepted s t a where
  expected k r hk := by
    rw [hexpects] at hk
    cases hk
  repeated hr := by
    rw [hrepeated] at hr
    cases hr
  raised _ _ k r hk := by
    rw [hexpects] at hk
    cases hk
  others _ k row hrow _ := h k row hrow
  erased herased := by
    rw [herasure] at herased
    cases herased
  closed k row row' outcome hrow hrow' hclosed := by
    rw [(h k row hrow).row, hrow] at hrow'
    obtain rfl := Option.some.inj hrow'
    exact hclosed

/-- What an erasure did. -/
theorem Erases.accepted (h : Erases s t) (herasure : a.isErasure = true)
    (hrepeated : s.isRepeated a = false)
    (hexpected : ∀ id revision, a.expects = some (id, revision) →
      ∃ row, s.opportunities.lookup id = some row ∧ row.revision = revision) :
    Accepted s t a where
  expected := hexpected
  repeated hr := by
    rw [hrepeated] at hr
    cases hr
  raised hnot := by
    rw [herasure] at hnot
    cases hnot
  others hnot := by
    rw [herasure] at hnot
    cases hnot
  erased _ k row row' hrow hrow' := by
    obtain ⟨found, hfound, -, hrevision⟩ := h.steady k row' hrow'
    obtain rfl := Option.some.inj (hrow.symm.trans hfound)
    exact hrevision
  closed k row row' outcome hrow hrow' hclosed := by
    obtain ⟨found, hfound, hsteady, -⟩ := h.steady k row' hrow'
    obtain rfl := Option.some.inj (hrow.symm.trans hfound)
    exact hsteady.outcome.trans hclosed

/-- An accepted call keeps the invariant. -/
theorem call_ok (hs : s.Sound) (hfresh : s.isFresh a = true) (h : s.call parse a = .ok t) :
    t.Sound ∧ Accepted s t a := by
  cases a with
  | observe obsId obs =>
    obtain rfl := Except.ok.inj h
    refine ⟨observe_sound obs (by simpa [isFresh] using hfresh) hs, ?_⟩
    refine Accepted.of_untouched rfl rfl rfl fun k row _ => ?_
    exact ⟨rfl, rfl, fun _ => rfl, fun _ _ => rfl, fun _ => rfl, fun _ => rfl⟩
  | pipelineCreate pipelineId presetId ownerId =>
    obtain ⟨hsound, -, huntouched⟩ := pipelineCreate_ok h
    exact ⟨hsound hs, .of_untouched rfl rfl rfl fun k _ _ => huntouched k⟩
  | presetEdit m =>
    obtain ⟨hsound, -, huntouched, -⟩ := presetEdit_ok h
    exact ⟨hsound hs, .of_untouched rfl rfl rfl fun k _ _ => huntouched k⟩
  | create isReadable id obsId pipelineId decision rows now =>
    have hfree : s.opportunities.lookup id = none := by simpa [isFresh] using hfresh
    obtain ⟨hsound, hothers, -⟩ := create_ok hfree h
    refine ⟨hsound hs, .of_untouched rfl rfl rfl fun k row hrow => hothers k ?_⟩
    rintro rfl
    rw [hfree] at hrow
    cases hrow
  | attach isReadable id revision obsId decision rows now =>
    obtain ⟨hthere, rfl, row, hrow, hrevision⟩ | ⟨hnew, row, row', hrevision, hwrites⟩ :=
      attach_ok hs h
    · refine ⟨hs, ⟨?_, fun _ => rfl, ?_, fun _ k _ _ _ => Untouched.refl _ k, ?_, ?_⟩⟩
      · intro k r hk
        obtain ⟨rfl, rfl⟩ := Prod.mk.inj (Option.some.inj hk)
        exact ⟨row, hrow, hrevision⟩
      · intro _ hnot
        have hrepeated : (t.links.lookup (id, obsId)).isSome = false := hnot
        rw [hthere] at hrepeated
        cases hrepeated
      · intro herased
        cases herased
      · intro k r r' outcome hr hr' hclosed
        obtain rfl := Option.some.inj (hr.symm.trans hr')
        exact hclosed
    · exact ⟨hwrites.sound hs, hwrites.accepted hs hrevision rfl rfl hnew⟩
  | edit id revision m now =>
    obtain ⟨row, row', hrevision, hwrites⟩ := edit_ok h
    exact ⟨hwrites.sound hs, hwrites.accepted hs hrevision rfl rfl rfl⟩
  | transition id revision toStageId note noteId now =>
    obtain ⟨row, row', hrevision, hwrites⟩ := transition_ok (by simpa [isFresh] using hfresh) h
    exact ⟨hwrites.sound hs, hwrites.accepted hs hrevision rfl rfl rfl⟩
  | addNote id revision body noteId now =>
    obtain ⟨row, row', hrevision, hwrites⟩ := addNote_ok (by simpa [isFresh] using hfresh) h
    exact ⟨hwrites.sound hs, hwrites.accepted hs hrevision rfl rfl rfl⟩
  | partyChange isReadable id revision party role remove now =>
    obtain ⟨row, row', hrevision, hwrites⟩ := partyChange_ok h
    exact ⟨hwrites.sound hs, hwrites.accepted hs hrevision rfl rfl rfl⟩
  | schedule id revision action dueOn reminderId now =>
    obtain ⟨row, row', hrevision, hwrites⟩ := schedule_ok (by simpa [isFresh] using hfresh) h
    exact ⟨hwrites.sound hs, hwrites.accepted hs hrevision rfl rfl rfl⟩
  | resolve id revision reminderId completed now =>
    obtain ⟨row, row', hrevision, hwrites⟩ := resolve_ok h
    exact ⟨hwrites.sound hs, hwrites.accepted hs hrevision rfl rfl rfl⟩
  | migrate id revision toVersion stageMap now =>
    obtain ⟨row, row', hrevision, hwrites⟩ := migrate_ok h
    exact ⟨hwrites.sound hs, hwrites.accepted hs hrevision rfl rfl rfl⟩
  | deleteObservation obsId rows now =>
    have herases := deleteObservation_ok h
    exact ⟨herases.sound hs, herases.accepted rfl rfl fun _ _ hk => by cases hk⟩
  | deleteParty party now =>
    obtain rfl := Except.ok.inj h
    have herases := s.deleteParty_ok party now
    exact ⟨herases.sound hs, herases.accepted rfl rfl fun _ _ hk => by cases hk⟩
  | deleteOpportunity id revision =>
    obtain ⟨herases, hgone, row, hrow, hrevision⟩ := deleteOpportunity_ok h
    refine ⟨herases.sound hs, herases.accepted rfl rfl fun k r hk => ?_⟩
    obtain ⟨rfl, rfl⟩ := Prod.mk.inj (Option.some.inj hk)
    exact ⟨row, hrow, hrevision⟩

/-- A call at a revision that the opportunity no longer has is refused. -/
theorem call_stale {revision : ℕ} (hexpects : a.expects = some (id, revision))
    (hrow : s.opportunities.lookup id = some row) (hstale : row.revision ≠ revision) :
    s.call parse a = .error "record_stale" := by
  have hrefused : s.opportunity id revision = .error "record_stale" := by
    simp [opportunity, hrow, hstale]
  cases a with
  | observe | pipelineCreate | presetEdit | create | deleteObservation | deleteParty =>
    cases hexpects
  | attach | edit | transition | addNote | partyChange | schedule | resolve | migrate
  | deleteOpportunity =>
    obtain ⟨rfl, rfl⟩ := Prod.mk.inj (Option.some.inj hexpects)
    simp [call, attach, edit, transition, addNote, partyChange, schedule, resolve, migrate,
      deleteOpportunity, hrefused]

/-- A transition into a stage that requires a field the opportunity misses is refused. -/
theorem transition_missing {v : PresetVersion} {revision : ℕ} {toStageId field : String}
    {note : Option String} {noteId : Uuid} {now : ℕ}
    (hrow : s.opportunities.lookup id = some row) (hv : s.pinned row = some v)
    (hrequired : (toStageId, field) ∈ v.requirements) (hmissing : s.isMissing id row field = true) :
    ∃ refusal, s.transition id revision toStageId note noteId now = .error refusal := by
  have hany : (required v toStageId).any (s.isMissing id row) = true := by
    refine List.any_eq_true.mpr ⟨field, ?_, hmissing⟩
    refine List.mem_map.mpr ⟨(toStageId, field), ?_, rfl⟩
    simpa using hrequired
  cases hanswer : s.transition id revision toStageId note noteId now with
  | error refusal => exact ⟨refusal, rfl⟩
  | ok t =>
    unfold transition at hanswer
    split at hanswer
    · cases hanswer
    next found hopportunity =>
    obtain ⟨hfound, -⟩ := opportunity_ok hopportunity
    obtain rfl := Option.some.inj (hrow.symm.trans hfound)
    rw [hv] at hanswer
    simp only [hany, if_true] at hanswer
    split at hanswer
    · cases hanswer
    split at hanswer
    · cases hanswer
    · cases hanswer

theorem presetEdit_stale {m : PresetEdit} {current : ℕ}
    (hcurrent : s.presets.lookup m.presetId = some current) (hstale : current ≠ m.fromVersion) :
    s.presetEdit m = .error "record_stale" := by
  simp [presetEdit, hcurrent, hstale]

theorem after_of_error {refusal : String} (h : s.call parse a = .error refusal) :
    s.after parse a = s := by
  simp [after, h]

theorem Sound.step (hs : s.Sound) (h : s.step parse a = some t) : t.Sound := by
  unfold PipelineState.step at h
  split_ifs at h with hfresh
  obtain rfl := Option.some.inj h
  unfold after
  split
  · next t hcall => exact (call_ok hs hfresh hcall).1
  · exact hs

end PipelineState

variable {parse : Parsers} {s : PipelineState}

theorem sound_of_reachable (h : (pipelineMachine parse).Reachable s) : s.Sound :=
  Machine.Reachable.invariant (I := PipelineState.Sound) (fun _ => PipelineState.Sound.of_begins)
    (fun _ _ _ _ hs hstep => hs.step hstep) h

/-- What holds of the opportunities in a state, and of every call in it. -/
structure DispositionLaw (parse : Parsers) (s : PipelineState) : Prop where
  /-- An opportunity carries the outcome of its stage in the version that it is pinned to. -/
  outcome : ∀ id row, s.opportunities.lookup id = some row → ∃ v stage,
    s.versions.lookup (row.presetId, row.presetVersion) = some v ∧
      v.stage row.stageId = some stage ∧ row.dispositionOutcome = stage.outcome
  /-- It has at most one pending reminder. -/
  onePending : ∀ k k' r r', s.reminders.lookup k = some r → s.reminders.lookup k' = some r' →
    r.state = .pending → r'.state = .pending → r.opportunityId = r'.opportunityId → k = k'
  /-- It has none while it is closed. -/
  nonePending : ∀ id row k r, s.opportunities.lookup id = some row → row.isClosed = true →
    s.reminders.lookup k = some r → r.opportunityId = id → r.state ≠ .pending
  /-- A call that expects a revision the opportunity does not have is refused. -/
  stale : ∀ a id revision row, a.expects = some (id, revision) →
    s.opportunities.lookup id = some row → row.revision ≠ revision →
      s.call parse a = .error "record_stale" ∧ s.after parse a = s
  /-- An edit of a preset from a version that is not the current one is refused. -/
  stalePreset : ∀ m current, s.presets.lookup m.presetId = some current →
    current ≠ m.fromVersion →
      s.call parse (.presetEdit m) = .error "record_stale" ∧ s.after parse (.presetEdit m) = s
  /-- A transition into a stage whose required fields are missing is refused. -/
  missing : ∀ id row v revision toStageId field note noteId now,
    s.opportunities.lookup id = some row →
      s.versions.lookup (row.presetId, row.presetVersion) = some v →
        (toStageId, field) ∈ v.requirements → s.isMissing id row field = true →
          (∃ refusal, s.call parse (.transition id revision toStageId note noteId now) =
            .error refusal) ∧
              s.after parse (.transition id revision toStageId note noteId now) = s
  /-- A call that is accepted writes the opportunity that it names, at the next revision. -/
  accepted : ∀ a t, s.isFresh a = true → s.call parse a = .ok t → PipelineState.Accepted s t a

/-- In every run of calls on the opportunities of a workspace, each carries the outcome of its
stage, has a pending reminder only while it is open, and is written at its next revision. -/
theorem disposition_law (h : (pipelineMachine parse).Reachable s) : DispositionLaw parse s where
  outcome id row hrow := by
    obtain ⟨v, stage, hv, hstage, houtcome, -⟩ := (sound_of_reachable h).pinned id row hrow
    exact ⟨v, stage, hv, hstage, houtcome⟩
  onePending := (sound_of_reachable h).onePending
  nonePending id row k r hrow hclosed hr howner hpending := by
    obtain ⟨found, hfound, hopen⟩ := (sound_of_reachable h).openPending k r hr hpending
    rw [howner, hrow] at hfound
    obtain rfl := Option.some.inj hfound
    simp [OpportunityRow.isClosed, hopen] at hclosed
  stale a id revision row hexpects hrow hstale := by
    have hrefused : s.call parse a = .error "record_stale" :=
      PipelineState.call_stale hexpects hrow hstale
    exact ⟨hrefused, PipelineState.after_of_error hrefused⟩
  stalePreset m current hcurrent hstale := by
    have hrefused : s.call parse (.presetEdit m) = .error "record_stale" :=
      PipelineState.presetEdit_stale hcurrent hstale
    exact ⟨hrefused, PipelineState.after_of_error hrefused⟩
  missing id row v revision toStageId field note noteId now hrow hv hrequired hmissing := by
    have hanswer : ∃ refusal, s.transition id revision toStageId note noteId now = .error refusal :=
      PipelineState.transition_missing hrow hv hrequired hmissing
    obtain ⟨refusal, hrefused⟩ := hanswer
    have hcall : s.call parse (.transition id revision toStageId note noteId now) =
        .error refusal := hrefused
    exact ⟨⟨refusal, hrefused⟩, PipelineState.after_of_error hcall⟩
  accepted a t hfresh hcall := (PipelineState.call_ok (sound_of_reachable h) hfresh hcall).2

section Sample

private def sampleParsers : Parsers := ⟨fun _ => false, fun _ => false, fun _ => false⟩

private def sampleStages : List PresetStage :=
  [⟨"new", "New", .opened, none, by decide⟩,
    ⟨"qualified", "Qualified", .opened, none, by decide⟩,
    ⟨"won", "Won", .terminal, some .succeeded, by decide⟩]

private def sampleVersion : PresetVersion where
  stages := sampleStages
  transitions := [("new", "qualified"), ("qualified", "won")]
  requirements := []
  specs := ∅
  extension _ _ h := by cases h

private theorem isSound_sampleVersion : sampleVersion.IsSound where
  stages := by decide
  transitions e he := by
    have hcases : e = ("new", "qualified") ∨ e = ("qualified", "won") := by
      simpa [sampleVersion] using he
    obtain rfl | rfl := hcases
    · exact ⟨⟨_, rfl, rfl⟩, rfl⟩
    · exact ⟨⟨_, rfl, rfl⟩, rfl⟩

private def sampleState : PipelineState where
  presets := (∅ : Table Uuid ℕ).insert 5 1
  versions := (∅ : Table (Uuid × ℕ) PresetVersion).insert (5, 1) sampleVersion
  pipelines := ∅
  observations := ∅
  opportunities := ∅
  fields := ∅
  links := ∅
  parties := ∅
  notes := ∅
  reminders := ∅

private theorem begins_sampleState : sampleState.Begins where
  current presetId version h := by
    simp only [sampleState, Table.lookup_insert] at h ⊢
    split_ifs at h with hpreset
    · obtain rfl := Option.some.inj h
      rw [hpreset, if_pos rfl]
      rfl
    · cases h
  last presetId version v h := by
    simp only [sampleState, Table.lookup_insert] at h ⊢
    split_ifs at h with hkey
    · obtain ⟨rfl, rfl⟩ := Prod.mk.inj hkey
      exact ⟨1, if_pos rfl, le_rfl⟩
    · cases h
  sound key v h := by
    simp only [sampleState, Table.lookup_insert] at h
    split_ifs at h
    · exact Option.some.inj h ▸ isSound_sampleVersion
    · cases h
  opportunities := rfl
  links := rfl
  parties := rfl
  notes := rfl
  reminders := rfl

/-- The next version asks for an interest in the stage of the qualified. -/
private def sampleEdit : PresetEdit where
  presetId := 5
  fromVersion := 1
  stages := sampleStages
  transitions := [("new", "qualified"), ("qualified", "won")]
  requirements := [("qualified", ["interest"])]
  fields := []

private def sampleOpening : List PipelineAction :=
  [.pipelineCreate 6 5 9, .observe 7 ⟨8, none, none⟩,
    .create (fun _ => true) 1 7 6 "manual" [] 10]

private def wonRun : List PipelineAction :=
  sampleOpening ++ [.schedule 1 1 "call" 30 40 11, .transition 1 2 "qualified" none 50 12,
    .transition 1 3 "won" (some "signed") 51 13, .schedule 1 4 "call" 60 41 14]

/-- What a run shows: the stage, the outcome and the revision of the opportunity, and the state
of its reminder. -/
private def wonView (s : PipelineState) :
    Option (String × Option StageOutcome × ℕ) × Option ReminderState × Bool :=
  ((s.opportunities.lookup 1).map fun row => (row.stageId, row.dispositionOutcome, row.revision),
    (s.reminders.lookup 40).map Reminder.state, (s.reminders.lookup 41).isSome)

/-- A won opportunity is at its fourth revision, its reminder is cancelled, and no other one was
scheduled. -/
theorem disposition_law_won : ∃ s, (pipelineMachine sampleParsers).Reachable s ∧
    wonView s = (some ("won", some .succeeded, 4), some .cancelled, false) ∧
      DispositionLaw sampleParsers s := by
  have hrun : ((pipelineMachine sampleParsers).run sampleState wonRun).map wonView =
      some (some ("won", some .succeeded, 4), some .cancelled, false) := by decide +kernel
  obtain ⟨s, hs, hview⟩ := Option.map_eq_some_iff.mp hrun
  have hreach := Machine.reachable_of_run begins_sampleState hs
  exact ⟨s, hreach, hview, disposition_law hreach⟩

private def sampleMigration : PipelineAction := .migrate 1 1 2 [("new", "qualified")] 12

/-- What a state shows: the stage of the opportunity, whether its version requires the interest
there, and whether it is missing. -/
private def sampleEntry (s : PipelineState) : Option (String × Bool × Bool) :=
  (s.opportunities.lookup 1).map fun row =>
    (row.stageId, (s.pinned row).any fun v => v.requirements.contains (row.stageId, "interest"),
      s.isMissing 1 row "interest")

/-- A migration enters a stage whose required field is missing. -/
theorem migration_enters_incomplete : ∃ s t, (pipelineMachine sampleParsers).Reachable s ∧
    s.call sampleParsers sampleMigration = .ok t ∧ sampleEntry s = some ("new", false, true) ∧
      sampleEntry t = some ("qualified", true, true) := by
  have hrun : ((pipelineMachine sampleParsers).run sampleState
      (sampleOpening ++ [.presetEdit sampleEdit])).bind (fun s =>
        (s.call sampleParsers sampleMigration).toOption.map fun t =>
          (sampleEntry s, sampleEntry t)) =
      some (some ("new", false, true), some ("qualified", true, true)) := by decide +kernel
  obtain ⟨s, hs, hcall⟩ := Option.bind_eq_some_iff.mp hrun
  obtain ⟨t, ht, hview⟩ := Option.map_eq_some_iff.mp hcall
  obtain ⟨hbefore, hafter⟩ := Prod.mk.inj hview
  have hreach := Machine.reachable_of_run begins_sampleState hs
  refine ⟨s, t, hreach, ?_, hbefore, hafter⟩
  cases hanswer : s.call sampleParsers sampleMigration with
  | error refusal =>
    rw [hanswer] at ht
    cases ht
  | ok t' =>
    rw [hanswer] at ht
    exact congrArg _ (Option.some.inj ht)

end Sample

end Rheostream.Leads
