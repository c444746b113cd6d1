import Rheostream.Leads.Opportunity
import Rheostream.Leads.PresetVersions

/-!
# Opportunities in their pipelines

`pipeline_service.py`, `pipeline_configuration.py` and `followups.py`, with the erasures of
`lifecycle.py` that reach an opportunity. An opportunity is pinned to a version of its
preset, stands in one of its stages and carries the outcome of that stage. Every writer
holds the workspace lifecycle lock, so each call is one step, and a call that is refused is
rolled back. What the query of `derive` returns is part of the action.
-/

namespace Rheostream.Leads

/-- A row of `pipeline`. -/
structure PipelineRow where
  presetId : Uuid
  ownerId : Uuid

/-- What a pipeline reads of a row of `observation`. -/
structure SourceObservation where
  funnelId : Uuid
  campaignId : Option Uuid
  partyRef : Option String

/-- The value group of an opportunity. -/
structure ValueGroup where
  amount : Option String
  currency : Option String
  basis : Option String

/-- A row of `opportunity`. -/
structure OpportunityRow where
  pipelineId : Uuid
  presetId : Uuid
  presetVersion : ℕ
  stageId : String
  title : String
  ownerId : Uuid
  funnelId : Uuid
  campaignId : Option Uuid
  sourceObservationId : Option Uuid
  value : ValueGroup
  dispositionOutcome : Option StageOutcome
  dispositionAt : Option ℕ
  revision : ℕ
  createdAt : ℕ
  updatedAt : ℕ

inductive ReminderState where
  | pending
  | completed
  | cancelled
  | superseded
  deriving DecidableEq

/-- A row of `followup_reminder`. -/
structure Reminder where
  opportunityId : Uuid
  action : String
  dueOn : ℕ
  state : ReminderState
  createdAt : ℕ
  resolvedAt : Option ℕ

/-- A row of `opportunity_note`. -/
structure OpportunityNote where
  opportunityId : Uuid
  body : String
  stageId : Option String

/-- The roles of a party in an opportunity. -/
inductive PartyRole where
  | contact
  | organization
  | referrer
  deriving DecidableEq

structure PipelineState where
  /-- The current version of each preset. -/
  presets : Table Uuid ℕ
  versions : Table (Uuid × ℕ) PresetVersion
  pipelines : Table Uuid PipelineRow
  observations : Table Uuid SourceObservation
  opportunities : Table Uuid OpportunityRow
  fields : Table Uuid Fields
  /-- The rows of `opportunity_observation`, with their decisions. -/
  links : Table (Uuid × Uuid) String
  /-- The rows of `opportunity_party`, and whether each was removed. -/
  parties : Table (Uuid × String × PartyRole) Bool
  notes : Table Uuid OpportunityNote
  reminders : Table Uuid Reminder

/-- `UpdateInput` without the reference. -/
structure OpportunityEdit where
  title : Option String
  ownerId : Option Uuid
  value : Option ValueGroup
  fields : List (String × Option String)

namespace OpportunityRow

/-- The opportunity is closed. -/
def isClosed (row : OpportunityRow) : Bool := row.dispositionOutcome.isSome

end OpportunityRow

namespace PipelineState

variable (parse : Parsers) (s : PipelineState)

/-- The fields of an opportunity. -/
def fieldsOf (id : Uuid) : Fields := (s.fields.lookup id).getD ∅

/-- The version that an opportunity is pinned to. -/
def pinned (row : OpportunityRow) : Option PresetVersion :=
  s.versions.lookup (row.presetId, row.presetVersion)

/-- `h.opportunity` with an expected revision. -/
def opportunity (id : Uuid) (revision : ℕ) : Except String OpportunityRow :=
  match s.opportunities.lookup id with
  | none => .error "not_found"
  | some row => if row.revision ≠ revision then .error "record_stale" else .ok row

/-- `bump`: the changes and the next revision, on the row as it was read. -/
def bump (id : Uuid) (row : OpportunityRow) (changes : OpportunityRow → OpportunityRow)
    (now : ℕ) : Except String PipelineState :=
  match s.opportunities.updateRow id ⟨fun r => r.revision = row.revision, fun r =>
      { changes r with revision := row.revision + 1, updatedAt := now }⟩ with
  | none => .error "record_stale"
  | some opportunities => .ok { s with opportunities := opportunities }

/-- The party of a linked observation, unless the opportunity has it. -/
def addContact (id : Uuid) (partyRef : Option String) : PipelineState :=
  match partyRef with
  | none => s
  | some party =>
    if (s.parties.lookup (id, party, .contact)).isSome then s
    else { s with parties := s.parties.insert (id, party, .contact) false }

/-- `_link`, and whether the observation was added. `isReadable` answers `party_read`. -/
def link (isReadable : String → Bool) (id obsId : Uuid) (obs : SourceObservation)
    (decision : String) : Except String (PipelineState × Bool) :=
  if obs.partyRef.all isReadable then
    if (s.links.lookup (id, obsId)).isSome then .ok (s.addContact id obs.partyRef, false)
    else
      let linked := { s with links := s.links.insert (id, obsId) decision }
      .ok (linked.addContact id obs.partyRef, true)
  else .error "not_found"

/-- What the pinned version says of the extension fields. -/
def presetOf (row : OpportunityRow) : Preset :=
  match s.pinned row with
  | none => ⟨parse, ∅, by simp⟩
  | some v => v.preset parse

/-- `derive` on the pinned version: the fields, and the title that they give. -/
def derived (id : Uuid) (row : OpportunityRow) (rows : List Fact) : Fields × String :=
  derive (s.presetOf parse row) (s.fieldsOf id) rows

/-- The row that `create` inserts. -/
def enteredRow (pipelineId : Uuid) (pipeline : PipelineRow) (version : ℕ) (stageId : String)
    (obsId : Uuid) (obs : SourceObservation) (now : ℕ) : OpportunityRow where
  pipelineId := pipelineId
  presetId := pipeline.presetId
  presetVersion := version
  stageId := stageId
  title := "Untitled inquiry"
  ownerId := pipeline.ownerId
  funnelId := obs.funnelId
  campaignId := obs.campaignId
  sourceObservationId := some obsId
  value := ⟨none, none, none⟩
  dispositionOutcome := none
  dispositionAt := none
  revision := 1
  createdAt := now
  updatedAt := now

/-- The stage where an opportunity of a pipeline enters, and the version that it is pinned to. -/
def entry (pipeline : PipelineRow) : Except String (ℕ × PresetStage) :=
  match s.presets.lookup pipeline.presetId with
  | none => .error "not_found"
  | some version =>
    match (s.versions.lookup (pipeline.presetId, version)).bind PresetVersion.entryStage with
    | none => .error "pipeline_invalid"
    | some stage => .ok (version, stage)

/-- `create`. -/
def create (isReadable : String → Bool) (id obsId pipelineId : Uuid) (decision : String)
    (rows : List Fact) (now : ℕ) : Except String PipelineState :=
  match s.observations.lookup obsId with
  | none => .error "not_found"
  | some obs =>
    match s.pipelines.lookup pipelineId with
    | none => .error "not_found"
    | some pipeline =>
      match s.entry pipeline with
      | .error refusal => .error refusal
      | .ok (version, stage) =>
        let row := enteredRow pipelineId pipeline version stage.stageId obsId obs now
        match { s with opportunities := s.opportunities.insert id row }.link isReadable id obsId obs
            decision with
        | .error refusal => .error refusal
        | .ok (linked, _) =>
          let changes := linked.derived parse id row rows
          .ok { linked with
            fields := linked.fields.insert id changes.1
            opportunities := linked.opportunities.insert id { row with title := changes.2 } }

/-- `attach`: an observation that is linked already changes nothing. -/
def attach (isReadable : String → Bool) (id : Uuid) (revision : ℕ) (obsId : Uuid)
    (decision : String) (rows : List Fact) (now : ℕ) : Except String PipelineState :=
  match s.opportunity id revision with
  | .error refusal => .error refusal
  | .ok row =>
    match s.observations.lookup obsId with
    | none => .error "not_found"
    | some obs =>
      match s.link isReadable id obsId obs decision with
      | .error refusal => .error refusal
      | .ok (linked, added) =>
        if added then
          let changes := linked.derived parse id row rows
          { linked with fields := linked.fields.insert id changes.1 }.bump id row
            (fun r => { r with title := changes.2 }) now
        else .ok linked

/-- The refusal of the first field that an edit may not write. -/
def editRefusal (preset : Preset) : List (String × Option String) → Option String
  | [] => none
  | (target, value) :: rest =>
    match preset.specs.lookup target with
    | none => some "field_unknown"
    | some spec =>
      if validateValue preset.parse spec value then editRefusal preset rest
      else some "input_invalid"

/-- The fields of an edit, with the title as a user's subject. -/
def titledFields (edited : Fields) (title : Option String) : Fields :=
  match title with
  | none => edited
  | some text => userField edited "subject" (some text)

/-- `edit`. -/
def edit (id : Uuid) (revision : ℕ) (m : OpportunityEdit) (now : ℕ) : Except String PipelineState :=
  match s.opportunity id revision with
  | .error refusal => .error refusal
  | .ok row =>
    match editFields (s.presetOf parse row) (s.fieldsOf id) m.fields with
    | none => .error ((editRefusal (s.presetOf parse row) m.fields).getD "input_invalid")
    | some edited =>
      { s with fields := s.fields.insert id (titledFields edited m.title) }.bump id row
        (fun r => { r with
          title := m.title.getD r.title
          ownerId := m.ownerId.getD r.ownerId
          value := m.value.getD r.value }) now

/-- The pending reminder of an opportunity is closed. -/
def closePending (id : Uuid) (state : ReminderState) (now : ℕ) : PipelineState :=
  { s with reminders := s.reminders.updateAll fun _ r =>
      if r.opportunityId = id && r.state = .pending then
        { r with state := state, resolvedAt := some now }
      else r }

/-- The value that a requirement reads: the title, or a field that holds one. -/
def valueOf (id : Uuid) (row : OpportunityRow) (field : String) : Option String :=
  if field = "title" then some row.title
  else match (s.fieldsOf id).lookup field with
    | none => none
    | some f => if f.valueKind = .value && !f.orphaned then f.valueText else none

/-- A field is missing when it holds nothing, or nothing but the empty text. -/
def isMissing (id : Uuid) (row : OpportunityRow) (field : String) : Bool :=
  !(s.valueOf id row field).any fun text => text ≠ ""

/-- The fields that entering a stage requires. -/
def required (v : PresetVersion) (stageId : String) : List String :=
  (v.requirements.filter fun e => e.1 = stageId).map Prod.snd

/-- The note of a transition. -/
def addTransitionNote (noteId id : Uuid) (note : Option String) (stageId : String) :
    PipelineState :=
  match note with
  | none => s
  | some body =>
    if body = "" then s else { s with notes := s.notes.insert noteId ⟨id, body, some stageId⟩ }

/-- The row that a transition writes. -/
def enters (stage : PresetStage) (toStageId : String) (now : ℕ) (r : OpportunityRow) :
    OpportunityRow :=
  { r with
    stageId := toStageId
    dispositionOutcome := stage.outcome
    dispositionAt := if stage.kind = .terminal then some now else none }

/-- `transition`. -/
def transition (id : Uuid) (revision : ℕ) (toStageId : String) (note : Option String)
    (noteId : Uuid) (now : ℕ) : Except String PipelineState :=
  match s.opportunity id revision with
  | .error refusal => .error refusal
  | .ok row =>
    match s.pinned row with
    | none => .error "transition_not_allowed"
    | some v =>
      if !v.transitions.contains (row.stageId, toStageId) then .error "transition_not_allowed"
      else match v.stage toStageId with
        | none => .error "transition_not_allowed"
        | some stage =>
          if (required v toStageId).any (s.isMissing id row) then .error "evidence_required"
          else match s.bump id row (enters stage toStageId now) now with
            | .error refusal => .error refusal
            | .ok moved =>
              let closed := if stage.kind = .terminal then moved.closePending id .cancelled now
                else moved
              .ok (closed.addTransitionNote noteId id note toStageId)

/-- `add_note`. -/
def addNote (id : Uuid) (revision : ℕ) (body : String) (noteId : Uuid) (now : ℕ) :
    Except String PipelineState :=
  match s.opportunity id revision with
  | .error refusal => .error refusal
  | .ok row =>
    { s with notes := s.notes.insert noteId ⟨id, body, none⟩ }.bump id row (fun r => r) now

/-- `party_change`. Removing a party that is not there removes nothing. -/
def partyChange (isReadable : String → Bool) (id : Uuid) (revision : ℕ) (party : String)
    (role : PartyRole) (remove : Bool) (now : ℕ) : Except String PipelineState :=
  match s.opportunity id revision with
  | .error refusal => .error refusal
  | .ok row =>
    if !isReadable party then .error "not_found"
    else
      let parties := if remove then
          s.parties.updateAll fun k removed => if k = (id, party, role) then true else removed
        else s.parties.insert (id, party, role) false
      { s with parties := parties }.bump id row (fun r => r) now

/-- `schedule`. -/
def schedule (id : Uuid) (revision : ℕ) (action : String) (dueOn : ℕ) (reminderId : Uuid)
    (now : ℕ) : Except String PipelineState :=
  match s.opportunity id revision with
  | .error refusal => .error refusal
  | .ok row =>
    if row.isClosed then .error "opportunity_closed"
    else
      let closed := s.closePending id .superseded now
      let reminder : Reminder := ⟨id, action, dueOn, .pending, now, none⟩
      { closed with reminders := closed.reminders.insert reminderId reminder }.bump id row
        (fun r => r) now

/-- The update of a resolution: of a pending reminder of the opportunity. -/
def resolution (id : Uuid) (completed : Bool) (now : ℕ) : RowUpdate Reminder where
  guard r := r.opportunityId = id && r.state = .pending
  set r := { r with
    state := if completed then .completed else .cancelled
    resolvedAt := some now }

/-- `resolve`. -/
def resolve (id : Uuid) (revision : ℕ) (reminderId : Uuid) (completed : Bool) (now : ℕ) :
    Except String PipelineState :=
  match s.opportunity id revision with
  | .error refusal => .error refusal
  | .ok row =>
    match s.reminders.updateRow reminderId (resolution id completed now) with
    | none => .error "followup_not_pending"
    | some reminders => { s with reminders := reminders }.bump id row (fun r => r) now

/-- A declared field holds a value that the target version does not take. -/
def isMisfit (specs : Table String FieldSpec) (target : String) (f : FieldState) : Bool :=
  isExtension target && (specs.lookup target).any fun spec => !validateValue parse spec f.valueText

/-- The fields under the target version: an extension field that it does not declare is
orphaned. -/
def migratedFields (specs : Table String FieldSpec) (fields : Fields) : Fields :=
  fields.updateAll fun target f =>
    if isExtension target then { f with orphaned := (specs.lookup target).isNone } else f

/-- `migrate`. -/
def migrate (id : Uuid) (revision : ℕ) (toVersion : ℕ) (stageMap : List (String × String))
    (now : ℕ) : Except String PipelineState :=
  match s.opportunity id revision with
  | .error refusal => .error refusal
  | .ok row =>
    match stageMap.lookup row.stageId, s.versions.lookup (row.presetId, toVersion) with
    | some target, some v =>
      match v.stage target with
      | none => .error "stage_map_required"
      | some stage =>
        if stage.outcome ≠ row.dispositionOutcome then .error "outcome_mismatch"
        else if (s.fieldsOf id).existsRow (isMisfit parse v.specs) then .error "input_invalid"
        else
          { s with fields := s.fields.insert id (migratedFields v.specs (s.fieldsOf id)) }.bump id
            row (fun r => { r with presetVersion := toVersion, stageId := target }) now
    | _, _ => .error "stage_map_required"

/-- `preset_edit`. -/
def presetEdit (m : PresetEdit) : Except String PipelineState :=
  match s.presets.lookup m.presetId with
  | none => .error "not_found"
  | some current =>
    if current ≠ m.fromVersion then .error "record_stale"
    else match m.refusal with
      | some _ => .error "preset_invalid"
      | none =>
        if (s.versions.lookup (m.presetId, m.fromVersion + 1)).isSome then
          .error "preset_version_pkey"
        else .ok { s with
          versions := s.versions.insert (m.presetId, m.fromVersion + 1) m.version
          presets := s.presets.insert m.presetId (m.fromVersion + 1) }

/-- `pipeline_create`. -/
def pipelineCreate (id presetId ownerId : Uuid) : Except String PipelineState :=
  if (s.presets.lookup presetId).isNone then .error "not_found"
  else .ok { s with pipelines := s.pipelines.insert id ⟨presetId, ownerId⟩ }

/-- The row of an opportunity after an erasure that changed its title. -/
def bumpErased (title : Uuid → Option String) (affected : Uuid → Bool) (now : ℕ) : PipelineState :=
  { s with opportunities := s.opportunities.updateAll fun id r =>
      if affected id then
        { r with title := (title id).getD r.title, revision := r.revision + 1, updatedAt := now }
      else r }

/-- The opportunities that an observation is linked to. -/
def isLinked (obsId id : Uuid) : Bool := (s.links.lookup (id, obsId)).isSome

/-- An observation and what was derived from it are gone. -/
def dropObservation (obsId : Uuid) : PipelineState :=
  { s with
    observations := s.observations.erase obsId
    links := s.links.deleteWhere fun k _ => k.2 = obsId
    fields := s.fields.updateAll fun _ fields =>
      fields.deleteWhere fun _ f => f.observationId = some obsId
    opportunities := s.opportunities.updateAll fun _ r =>
      if r.sourceObservationId = some obsId then { r with sourceObservationId := none } else r
    reminders := s.reminders.deleteWhere fun _ r => s.isLinked obsId r.opportunityId }

/-- `derive` of an opportunity that is there. -/
def derivedOf (rows : Uuid → List Fact) (id : Uuid) : Option (Fields × String) :=
  (s.opportunities.lookup id).map fun row => s.derived parse id row (rows id)

/-- `delete_owned` of an observation: each opportunity it was linked to is derived again. -/
def deleteObservation (obsId : Uuid) (rows : Uuid → List Fact) (now : ℕ) :
    Except String PipelineState :=
  if (s.observations.lookup obsId).isNone then .error "record_stale"
  else
    let dropped := s.dropObservation obsId
    let derived := dropped.derivedOf parse rows
    let fields := dropped.fields.updateAll fun id fields =>
      if s.isLinked obsId id then ((derived id).map Prod.fst).getD fields else fields
    .ok ({ dropped with fields := fields }.bumpErased (fun id => (derived id).map Prod.snd)
      (s.isLinked obsId) now)

/-- A party is an active one of an opportunity. -/
def hasParty (party : String) (id : Uuid) : Bool :=
  s.parties.existsRow fun k removed => k.1 = id && k.2.1 = party && !removed

/-- `on_party_deleted`. -/
def deleteParty (party : String) (now : ℕ) : PipelineState :=
  { s with
    observations := s.observations.updateAll fun _ obs =>
      if obs.partyRef = some party then { obs with partyRef := none } else obs
    parties := s.parties.updateAll fun k removed =>
      if k.2.1 = party then true else removed }.bumpErased
    (fun _ => none) (s.hasParty party) now

/-- `delete_owned` of an opportunity, with everything that belongs to it. -/
def deleteOpportunity (id : Uuid) (revision : ℕ) : Except String PipelineState :=
  match s.opportunity id revision with
  | .error refusal => .error refusal
  | .ok _ => .ok { s with
      opportunities := s.opportunities.erase id
      fields := s.fields.erase id
      links := s.links.deleteWhere fun k _ => k.1 = id
      parties := s.parties.deleteWhere fun k _ => k.1 = id
      notes := s.notes.deleteWhere fun _ n => n.opportunityId = id
      reminders := s.reminders.deleteWhere fun _ r => r.opportunityId = id }

end PipelineState

inductive PipelineAction where
  | observe (id : Uuid) (obs : SourceObservation)
  | pipelineCreate (id presetId ownerId : Uuid)
  | presetEdit (m : PresetEdit)
  | create (isReadable : String → Bool) (id obsId pipelineId : Uuid) (decision : String)
      (rows : List Fact) (now : ℕ)
  | attach (isReadable : String → Bool) (id : Uuid) (revision : ℕ) (obsId : Uuid)
      (decision : String) (rows : List Fact) (now : ℕ)
  | edit (id : Uuid) (revision : ℕ) (m : OpportunityEdit) (now : ℕ)
  | transition (id : Uuid) (revision : ℕ) (toStageId : String) (note : Option String)
      (noteId : Uuid) (now : ℕ)
  | addNote (id : Uuid) (revision : ℕ) (body : String) (noteId : Uuid) (now : ℕ)
  | partyChange (isReadable : String → Bool) (id : Uuid) (revision : ℕ) (party : String)
      (role : PartyRole) (remove : Bool) (now : ℕ)
  | schedule (id : Uuid) (revision : ℕ) (action : String) (dueOn : ℕ) (reminderId : Uuid) (now : ℕ)
  | resolve (id : Uuid) (revision : ℕ) (reminderId : Uuid) (completed : Bool) (now : ℕ)
  | migrate (id : Uuid) (revision : ℕ) (toVersion : ℕ) (stageMap : List (String × String))
      (now : ℕ)
  | deleteObservation (obsId : Uuid) (rows : Uuid → List Fact) (now : ℕ)
  | deleteParty (party : String) (now : ℕ)
  | deleteOpportunity (id : Uuid) (revision : ℕ)

namespace PipelineAction

/-- The opportunity and the revision that a call expects. -/
def expects : PipelineAction → Option (Uuid × ℕ)
  | .attach _ id revision _ _ _ _ => some (id, revision)
  | .edit id revision _ _ => some (id, revision)
  | .transition id revision _ _ _ _ => some (id, revision)
  | .addNote id revision _ _ _ => some (id, revision)
  | .partyChange _ id revision _ _ _ _ => some (id, revision)
  | .schedule id revision _ _ _ _ => some (id, revision)
  | .resolve id revision _ _ _ => some (id, revision)
  | .migrate id revision _ _ _ => some (id, revision)
  | .deleteOpportunity id revision => some (id, revision)
  | _ => none

/-- An approved erasure. -/
def isErasure : PipelineAction → Bool
  | .deleteObservation .. => true
  | .deleteParty .. => true
  | .deleteOpportunity .. => true
  | _ => false

end PipelineAction

namespace PipelineState

/-- A new row has an identifier that no row of its table has. -/
def isFresh (s : PipelineState) : PipelineAction → Bool
  | .observe id _ => (s.observations.lookup id).isNone
  | .pipelineCreate id _ _ => (s.pipelines.lookup id).isNone
  | .create _ id _ _ _ _ _ => (s.opportunities.lookup id).isNone
  | .transition _ _ _ _ noteId _ => (s.notes.lookup noteId).isNone
  | .addNote _ _ _ noteId _ => (s.notes.lookup noteId).isNone
  | .schedule _ _ _ _ reminderId _ => (s.reminders.lookup reminderId).isNone
  | _ => true

/-- What a call answers: the state it leaves, or a refusal that leaves everything as it was. -/
def call (parse : Parsers) (s : PipelineState) : PipelineAction → Except String PipelineState
  | .observe id obs => .ok { s with observations := s.observations.insert id obs }
  | .pipelineCreate id presetId ownerId => s.pipelineCreate id presetId ownerId
  | .presetEdit m => s.presetEdit m
  | .create isReadable id obsId pipelineId decision rows now =>
    s.create parse isReadable id obsId pipelineId decision rows now
  | .attach isReadable id revision obsId decision rows now =>
    s.attach parse isReadable id revision obsId decision rows now
  | .edit id revision m now => s.edit parse id revision m now
  | .transition id revision toStageId note noteId now =>
    s.transition id revision toStageId note noteId now
  | .addNote id revision body noteId now => s.addNote id revision body noteId now
  | .partyChange isReadable id revision party role remove now =>
    s.partyChange isReadable id revision party role remove now
  | .schedule id revision action dueOn reminderId now =>
    s.schedule id revision action dueOn reminderId now
  | .resolve id revision reminderId completed now => s.resolve id revision reminderId completed now
  | .migrate id revision toVersion stageMap now =>
    s.migrate parse id revision toVersion stageMap now
  | .deleteObservation obsId rows now => s.deleteObservation parse obsId rows now
  | .deleteParty party now => .ok (s.deleteParty party now)
  | .deleteOpportunity id revision => s.deleteOpportunity id revision

/-- The state after a call. -/
def after (parse : Parsers) (s : PipelineState) (a : PipelineAction) : PipelineState :=
  match s.call parse a with
  | .ok t => t
  | .error _ => s

/-- One call, refused or not. -/
def step (parse : Parsers) (s : PipelineState) (a : PipelineAction) : Option PipelineState :=
  if s.isFresh a then some (s.after parse a) else none

/-- A workspace with presets and pipelines, and no opportunity yet. The current version of a
preset is its last one. -/
structure Begins (s : PipelineState) : Prop where
  current : ∀ presetId version, s.presets.lookup presetId = some version →
    (s.versions.lookup (presetId, version)).isSome = true
  last : ∀ presetId version v, s.versions.lookup (presetId, version) = some v →
    ∃ current, s.presets.lookup presetId = some current ∧ version ≤ current
  sound : ∀ key v, s.versions.lookup key = some v → v.IsSound
  opportunities : s.opportunities = ∅
  links : s.links = ∅
  parties : s.parties = ∅
  notes : s.notes = ∅
  reminders : s.reminders = ∅

end PipelineState

/-- The opportunities of a workspace. -/
def pipelineMachine (parse : Parsers) : Machine PipelineState PipelineAction :=
  ⟨PipelineState.Begins, PipelineState.step parse⟩

end Rheostream.Leads
