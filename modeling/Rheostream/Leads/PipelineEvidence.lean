import Rheostream.Leads.LinkedSet
import Rheostream.Leads.PipelineLaws

/-!
# Opportunities rest on observations that are there

What an opportunity says it has from an observation, its source or one of its fields, names
an observation that is there. `derive` keeps this for facts of such observations, and an
erasure removes whatever names the erased one.
-/

namespace Rheostream.Leads

namespace PipelineState

variable {parse : Parsers} {s t : PipelineState} {a : PipelineAction} {id : Uuid}
  {row row' : OpportunityRow}

/-- An observation is there. -/
def hasObservation (s : PipelineState) (obsId : Uuid) : Prop :=
  (s.observations.lookup obsId).isSome = true

/-- The fields come from observations that are there. -/
def Rests (s : PipelineState) (fields : Fields) : Prop :=
  ∀ target f obsId, fields.lookup target = some f → f.observationId = some obsId →
    s.hasObservation obsId

/-- The facts are of observations that are there. -/
def Observed (s : PipelineState) (rows : List Fact) : Prop :=
  ∀ r ∈ rows, s.hasObservation r.observationId

/-- What opportunities have from observations names observations that are there. -/
structure Evidenced (s : PipelineState) : Prop where
  sources : ∀ id row obsId, s.opportunities.lookup id = some row →
    row.sourceObservationId = some obsId → s.hasObservation obsId
  fields : ∀ id, s.Rests (s.fieldsOf id)

theorem Evidenced.of_begins (h : s.Begins) (hfields : s.fields = ∅) : s.Evidenced where
  sources id row obsId hrow := by
    rw [h.opportunities] at hrow
    cases hrow
  fields id target f obsId hf := by
    rw [fieldsOf, hfields] at hf
    cases hf

variable {rows : List Fact}

variable {fields : Fields}

theorem Rests.derive {preset : Preset} (h : s.Rests fields)
    (hrows : s.Observed rows) : s.Rests (derive preset fields rows).1 := by
  intro target f obsId hf hobs
  obtain hold | ⟨fact, hfact, rfl⟩ := derive_row hf
  · exact h target f obsId hold hobs
  · obtain rfl := Option.some.inj hobs
    exact hrows fact hfact

/-- A field of the user comes from no observation. -/
theorem Rests.userField (h : s.Rests fields) (target : String)
    (value : Option String) : s.Rests (userField fields target value) := by
  intro k f obsId hf hobs
  rw [lookup_userField] at hf
  split_ifs at hf
  · obtain rfl := Option.some.inj hf
    cases hobs
  · exact h k f obsId hf hobs

theorem Rests.editFields {preset : Preset} {edited : Fields}
    {edits : List (String × Option String)} (h : s.Rests fields)
    (hedited : editFields preset fields edits = some edited) : s.Rests edited := by
  intro target f obsId hf hobs
  obtain hold | ⟨-, value, hnew⟩ := lookup_editFields hedited target
  · exact h target f obsId (hold ▸ hf) hobs
  · rw [hnew] at hf
    obtain rfl := Option.some.inj hf
    cases hobs

/-- A write of one opportunity, with fields that come from observations that are there. -/
theorem WritesOne.evidenced (h : WritesOne s t id row row') (hs : s.Evidenced)
    (hown : s.Rests (t.fieldsOf id)) : t.Evidenced where
  sources k r obsId hr hobs := by
    have hsame : t.hasObservation obsId = s.hasObservation obsId := by
      unfold hasObservation
      rw [h.observations]
    rw [hsame]
    rw [h.lookup] at hr
    split_ifs at hr with hk
    · obtain rfl := Option.some.inj hr
      exact hs.sources id row obsId h.found (h.source.symm.trans hobs)
    · exact hs.sources k r obsId hr hobs
  fields k target f obsId hf hobs := by
    have hsame : t.hasObservation obsId = s.hasObservation obsId := by
      unfold hasObservation
      rw [h.observations]
    rw [hsame]
    by_cases hk : k = id
    · exact hown target f obsId (hk ▸ hf) hobs
    · have hfields : t.fieldsOf k = s.fieldsOf k := by
        rw [fieldsOf, (h.others k hk).fields, fieldsOf]
      exact hs.fields k target f obsId (hfields ▸ hf) hobs

variable {now : ℕ}

theorem bump_fields {changes : OpportunityRow → OpportunityRow}
    (h : s.bump id row changes now = .ok t) : t.fields = s.fields := by
  unfold bump at h
  split at h
  · cases h
  · obtain rfl := Except.ok.inj h
    rfl

variable {revision : ℕ}

theorem transition_fields {toStageId : String} {note : Option String} {noteId : Uuid}
    (h : s.transition id revision toStageId note noteId now = .ok t) : t.fields = s.fields := by
  unfold transition at h
  split at h
  · cases h
  split at h
  · cases h
  split at h
  · cases h
  split at h
  · cases h
  split at h
  · cases h
  split at h
  · cases h
  next moved hmoved =>
  obtain rfl := Except.ok.inj h
  have hnote : ∀ u : PipelineState, (u.addTransitionNote noteId id note toStageId).fields =
      u.fields := by
    intro u
    obtain ⟨notes, hnotes, -⟩ := addTransitionNote_ok u noteId id note toStageId
    rw [hnotes]
  have hbump := bump_fields hmoved
  rw [hnote]
  split_ifs
  · exact hbump
  · exact hbump

theorem addNote_fields {body : String} {noteId : Uuid}
    (h : s.addNote id revision body noteId now = .ok t) : t.fields = s.fields := by
  unfold addNote at h
  split at h
  · cases h
  · have hbump := bump_fields h
    exact hbump

variable {isReadable : String → Bool}

theorem partyChange_fields {party : String} {role : PartyRole} {remove : Bool}
    (h : s.partyChange isReadable id revision party role remove now = .ok t) :
    t.fields = s.fields := by
  unfold partyChange at h
  split at h
  · cases h
  split at h
  · cases h
  · have hbump := bump_fields h
    exact hbump

theorem schedule_fields {action : String} {dueOn : ℕ} {reminderId : Uuid}
    (h : s.schedule id revision action dueOn reminderId now = .ok t) : t.fields = s.fields := by
  unfold schedule at h
  split at h
  · cases h
  split at h
  · cases h
  · have hbump := bump_fields h
    exact hbump

theorem resolve_fields {reminderId : Uuid} {completed : Bool}
    (h : s.resolve id revision reminderId completed now = .ok t) : t.fields = s.fields := by
  unfold resolve at h
  split at h
  · cases h
  split at h
  · cases h
  · have hbump := bump_fields h
    exact hbump

variable {decision : String}

variable {obsId : Uuid}

theorem attach_rests (hs : s.Evidenced) (hrows : s.Observed rows)
    (h : s.attach parse isReadable id revision obsId decision rows now = .ok t) :
    s.Rests (t.fieldsOf id) := by
  unfold attach at h
  split at h
  · cases h
  next row hopportunity =>
  split at h
  · cases h
  split at h
  · cases h
  next linked added hlink =>
  have hfields : linked.fields = s.fields := by
    obtain hkept := (link_links hlink).kept
    rw [hkept]
  have hsame : linked.fieldsOf id = s.fieldsOf id := by rw [fieldsOf, hfields, fieldsOf]
  split at h
  · have hbump := bump_fields h
    have hown : t.fieldsOf id = (linked.derived parse id row rows).1 := by
      rw [fieldsOf, hbump]
      exact congrArg (fun o => Option.getD o ∅)
        ((Table.lookup_insert _ _ _ _).trans (if_pos rfl))
    rw [hown, derived, hsame]
    exact (hs.fields id).derive hrows
  · obtain rfl := Except.ok.inj h
    rw [hsame]
    exact hs.fields id

theorem edit_rests {m : OpportunityEdit} (hs : s.Evidenced)
    (h : s.edit parse id revision m now = .ok t) : s.Rests (t.fieldsOf id) := by
  unfold edit at h
  split at h
  · cases h
  split at h
  · cases h
  next edited hedited =>
  have hbump := bump_fields h
  have hown : t.fieldsOf id = titledFields edited m.title := by
    rw [fieldsOf, hbump]
    exact congrArg (fun o => Option.getD o ∅) ((Table.lookup_insert _ _ _ _).trans (if_pos rfl))
  rw [hown]
  have hrests := (hs.fields id).editFields hedited
  unfold titledFields
  split
  · exact hrests
  · exact hrests.userField _ _

theorem migrate_rests {toVersion : ℕ} {stageMap : List (String × String)}
    (hs : s.Evidenced) (h : s.migrate parse id revision toVersion stageMap now = .ok t) :
    s.Rests (t.fieldsOf id) := by
  unfold migrate at h
  split at h
  · cases h
  split at h
  case h_2 => cases h
  next target v htarget hv =>
  split at h
  · cases h
  split at h
  · cases h
  split at h
  · cases h
  have hbump := bump_fields h
  have hown : t.fieldsOf id = migratedFields v.specs (s.fieldsOf id) := by
    rw [fieldsOf, hbump]
    exact congrArg (fun o => Option.getD o ∅) ((Table.lookup_insert _ _ _ _).trans (if_pos rfl))
  rw [hown]
  intro k f obsId hf hobs
  rw [migratedFields, Table.lookup_updateAll] at hf
  obtain ⟨old, hold, rfl⟩ := Option.map_eq_some_iff.mp hf
  refine hs.fields id k old obsId hold ?_
  split_ifs at hobs
  · exact hobs
  · exact hobs

theorem create_rests {pipelineId : Uuid} (hs : s.Evidenced) (hrows : s.Observed rows)
    (h : s.create parse isReadable id obsId pipelineId decision rows now = .ok t) :
    s.Rests (t.fieldsOf id) ∧ t.observations = s.observations ∧ s.hasObservation obsId := by
  unfold create at h
  split at h
  · cases h
  next obs hobs =>
  split at h
  · cases h
  split at h
  · cases h
  dsimp only at h
  split at h
  · cases h
  next linked added hlink =>
  have hkept := (link_links hlink).kept
  have hfields : linked.fieldsOf id = s.fieldsOf id := by rw [fieldsOf, hkept, fieldsOf]
  have hobservations : linked.observations = s.observations := by rw [hkept]
  obtain rfl := Except.ok.inj h
  refine ⟨?_, hobservations, ?_⟩
  · rw [fieldsOf, Table.lookup_insert, if_pos rfl, Option.getD_some, derived, hfields]
    exact (hs.fields id).derive hrows
  · rw [hasObservation, hobs]
    rfl

theorem create_evidenced {pipelineId : Uuid} (hs : s.Evidenced) (hrows : s.Observed rows)
    (hfresh : s.opportunities.lookup id = none)
    (h : s.create parse isReadable id obsId pipelineId decision rows now = .ok t) :
    t.Evidenced := by
  obtain ⟨hrests, hobservations, hthere⟩ := create_rests hs hrows h
  obtain ⟨-, hothers, -, -, row, hrow, -, hsource⟩ := create_ok hfresh h
  have hsame : ∀ o, t.hasObservation o = s.hasObservation o := by
    intro o
    rw [hasObservation, hobservations, hasObservation]
  refine ⟨fun k r o hr ho => ?_, fun k target f o hf ho => ?_⟩
  · rw [hsame]
    by_cases hk : k = id
    · rw [hk, hrow] at hr
      obtain rfl := Option.some.inj hr
      obtain rfl := Option.some.inj (hsource.symm.trans ho)
      exact hthere
    · rw [(hothers k hk).row] at hr
      exact hs.sources k r o hr ho
  · rw [hsame]
    by_cases hk : k = id
    · exact hrests target f o (hk ▸ hf) ho
    · have hfields : t.fieldsOf k = s.fieldsOf k := by
        rw [fieldsOf, (hothers k hk).fields, fieldsOf]
      exact hs.fields k target f o (hfields ▸ hf) ho

/-- An erased observation is named nowhere. -/
theorem deleteObservation_evidenced {rows : Uuid → List Fact} (hs : s.Evidenced)
    (hrows : ∀ id, ∀ r ∈ rows id, r.observationId ≠ obsId ∧ s.hasObservation r.observationId)
    (h : s.deleteObservation parse obsId rows now = .ok t) :
    t.Evidenced ∧ t.observations = s.observations.erase obsId := by
  have hthere : ∀ o, o ≠ obsId → s.hasObservation o →
      (AList.lookup o (s.observations.erase obsId)).isSome = true := by
    intro o hne ho
    rw [AList.lookup_erase_ne hne]
    exact ho
  unfold deleteObservation at h
  split_ifs at h
  obtain rfl := Except.ok.inj h
  refine ⟨⟨fun k r o hr ho => ?_, fun k target f o hf ho => ?_⟩, rfl⟩
  · simp only [bumpErased, dropObservation, Table.lookup_updateAll] at hr
    obtain ⟨dropped, hdropped, rfl⟩ := Option.map_eq_some_iff.mp hr
    obtain ⟨old, hold, rfl⟩ := Option.map_eq_some_iff.mp hdropped
    by_cases herased : old.sourceObservationId = some obsId
    · rw [if_pos herased] at ho
      split_ifs at ho
    · have hsource : old.sourceObservationId = some o := by
        rw [if_neg herased] at ho
        split_ifs at ho <;> exact ho
      refine hthere o ?_ (hs.sources k old o hold hsource)
      rintro rfl
      exact herased hsource
  · have hdropped : ∀ target f o, ((s.dropObservation obsId).fieldsOf k).lookup target = some f →
        f.observationId = some o → o ≠ obsId ∧ s.hasObservation o := by
      intro target f o hf ho
      simp only [fieldsOf, dropObservation, Table.lookup_updateAll] at hf
      cases hfields : s.fields.lookup k with
      | none =>
        rw [hfields] at hf
        cases hf
      | some fields =>
        rw [hfields] at hf
        have hleft : (fields.deleteWhere fun _ f => f.observationId = some obsId).lookup target =
            some f := hf
        obtain ⟨hold, hkept⟩ := Table.lookup_deleteWhere_eq_some.mp hleft
        have hne : f.observationId ≠ some obsId := of_decide_eq_false hkept
        refine ⟨fun heq => hne (heq ▸ ho), hs.fields k target f o ?_ ho⟩
        rw [fieldsOf, hfields]
        exact hold
    have hderived : ∀ row, ∀ target f o, ((s.dropObservation obsId).derived parse k row
        (rows k)).1.lookup target = some f → f.observationId = some o →
          o ≠ obsId ∧ s.hasObservation o := by
      intro row target f o hf ho
      obtain hold | ⟨fact, hfact, rfl⟩ := derive_row hf
      · exact hdropped target f o hold ho
      · obtain rfl := Option.some.inj ho
        exact hrows k fact hfact
    have hnamed : o ≠ obsId ∧ s.hasObservation o := by
      simp only [fieldsOf, bumpErased, Table.lookup_updateAll] at hf
      cases hfields : (s.dropObservation obsId).fields.lookup k with
      | none =>
        rw [hfields] at hf
        cases hf
      | some fields =>
        rw [hfields] at hf
        have hsame : (s.dropObservation obsId).fieldsOf k = fields := by
          rw [fieldsOf, hfields]
          rfl
        rw [Option.map_some, Option.getD_some] at hf
        split_ifs at hf
        · cases hrow : (s.dropObservation obsId).opportunities.lookup k with
          | none =>
            rw [derivedOf, hrow] at hf
            exact hdropped target f o (hsame ▸ hf) ho
          | some row =>
            rw [derivedOf, hrow] at hf
            exact hderived row target f o hf ho
        · exact hdropped target f o (hsame ▸ hf) ho
    exact hthere o hnamed.1 hnamed.2

theorem deleteParty_evidenced (hs : s.Evidenced) (party : String) (now : ℕ) :
    (s.deleteParty party now).Evidenced := by
  have hthere : ∀ o, s.hasObservation o → (s.deleteParty party now).hasObservation o := by
    intro o ho
    simpa [hasObservation, deleteParty, bumpErased] using ho
  refine ⟨fun k r o hr ho => ?_, fun k target f o hf ho => hthere o (hs.fields k target f o hf ho)⟩
  simp only [deleteParty, bumpErased, Table.lookup_updateAll] at hr
  obtain ⟨row, hrow, rfl⟩ := Option.map_eq_some_iff.mp hr
  refine hthere o (hs.sources k row o hrow ?_)
  split_ifs at ho <;> exact ho

theorem deleteOpportunity_evidenced (hs : s.Evidenced) (h : s.deleteOpportunity id revision = .ok t)
    : t.Evidenced ∧ t.observations = s.observations := by
  unfold deleteOpportunity at h
  split at h
  · cases h
  obtain rfl := Except.ok.inj h
  refine ⟨⟨fun k r o hr ho => ?_, fun k target f o hf ho => ?_⟩, rfl⟩
  · exact hs.sources k r o (Table.lookup_erase_eq_some.mp hr).2 ho
  · by_cases hk : k = id
    · have hnone : (none : Option FieldState) = some f := by
        rw [← hf, fieldsOf, hk]
        dsimp only
        rw [AList.lookup_erase]
        rfl
      cases hnone
    · have hsame : (s.fields.erase id).lookup k = s.fields.lookup k := AList.lookup_erase_ne hk
      rw [fieldsOf] at hf
      dsimp only at hf
      rw [hsame] at hf
      exact hs.fields k target f o hf ho

end PipelineState

end Rheostream.Leads
