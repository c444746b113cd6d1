import Rheostream.Foundation.Machine
import Rheostream.Leads.Evidence

/-!
# Preset versions

`preset_edit` of `pipeline_configuration.py`. A preset is edited by adding a version, and a
version is never changed: an opportunity reads the stages, the transitions, the requirements
and the fields of the version it is pinned to.
-/

namespace Rheostream.Leads

inductive StageKind where
  | opened
  | terminal
  deriving DecidableEq

inductive StageOutcome where
  | succeeded
  | lost
  | disqualified
  deriving DecidableEq

/-- A row of `preset_stage`. A terminal stage has an outcome, an open one has none. -/
structure PresetStage where
  stageId : String
  label : String
  kind : StageKind
  outcome : Option StageOutcome
  outcome_iff : kind = .terminal ↔ outcome.isSome = true

theorem PresetStage.outcome_of_opened (stage : PresetStage) (h : stage.kind = .opened) :
    stage.outcome = none := by
  cases houtcome : stage.outcome with
  | none => rfl
  | some outcome =>
    have hterminal := stage.outcome_iff.mpr (by rw [houtcome]; rfl)
    rw [h] at hterminal
    cases hterminal

/-- A version of a preset, with its stages in order. The extension targets have the prefix
that the contract asks for. -/
structure PresetVersion where
  stages : List PresetStage
  transitions : List (String × String)
  /-- The rows of `preset_requirement`: a stage and a field. -/
  requirements : List (String × String)
  specs : Table String FieldSpec
  extension : ∀ target spec, specs.lookup target = some spec → isExtension target = true

namespace PresetVersion

/-- The stage with an identifier. -/
def stage (v : PresetVersion) (stageId : String) : Option PresetStage :=
  v.stages.find? fun stage => stage.stageId = stageId

/-- The first open stage, where a new opportunity enters. -/
def entryStage (v : PresetVersion) : Option PresetStage :=
  v.stages.find? fun stage => stage.kind = .opened

/-- What the version says of the extension fields. -/
def preset (v : PresetVersion) (parse : Parsers) : Preset := ⟨parse, v.specs, v.extension⟩

/-- The stages of a version are distinct, and its transitions lead from an open stage to a
stage. -/
structure IsSound (v : PresetVersion) : Prop where
  stages : (v.stages.map PresetStage.stageId).Nodup
  transitions : ∀ e ∈ v.transitions, (∃ stage, v.stage e.1 = some stage ∧ stage.kind = .opened) ∧
    (v.stage e.2).isSome = true

/-- The entry stage is an open stage of the version. -/
theorem IsSound.entryStage {v : PresetVersion} {stage : PresetStage} (h : v.IsSound)
    (hentry : v.entryStage = some stage) :
    v.stage stage.stageId = some stage ∧ stage.kind = .opened := by
  have hmem : stage ∈ v.stages := List.mem_of_find?_eq_some hentry
  refine ⟨?_, by simpa using List.find?_some hentry⟩
  cases hfound : v.stage stage.stageId with
  | none => exact absurd (by simp) (List.find?_eq_none.mp hfound stage hmem)
  | some found =>
    have hsame : found.stageId = stage.stageId := by simpa using List.find?_some hfound
    have hinj := List.inj_on_of_nodup_map h.stages
    rw [hinj (List.mem_of_find?_eq_some hfound) hmem hsame]

end PresetVersion

/-- A declared extension field. -/
structure ExtensionField where
  target : String
  spec : FieldSpec
  extension : isExtension target = true

/-- `PresetEdit`. -/
structure PresetEdit where
  presetId : Uuid
  fromVersion : ℕ
  stages : List PresetStage
  transitions : List (String × String)
  requirements : List (String × List String)
  fields : List ExtensionField

/-- The fields that a requirement may name besides the declared ones. -/
def requirableFacts : List String := ["title", "subject", "message", "interest"]

namespace PresetEdit

variable (m : PresetEdit)

/-- The stages of the edit, by identifier. -/
def stageOf (stageId : String) : Option PresetStage :=
  m.stages.find? fun stage => stage.stageId = stageId

/-- No stage and no field is given twice, and an opportunity can enter somewhere. -/
def hasDistinctKeys : Bool :=
  (m.stages.map PresetStage.stageId).dedup.length = m.stages.length &&
    (m.fields.map ExtensionField.target).dedup.length = m.fields.length &&
    m.stages.any fun stage => stage.kind = .opened

/-- Each transition leads between two stages, the first of them open. -/
def hasSoundTransitions : Bool :=
  m.transitions.all fun e =>
    (m.stageOf e.1).any (fun stage => stage.kind ≠ .terminal) && (m.stageOf e.2).isSome

/-- Each requirement is of a stage, and names each field once. -/
def hasSoundRequirements : Bool :=
  m.requirements.all fun e =>
    (m.stageOf e.1).isSome && e.2.dedup.length = e.2.length &&
      e.2.all fun target =>
        (m.fields.map ExtensionField.target).contains target || requirableFacts.contains target

/-- Each enumeration has a value. -/
def hasEnumValues : Bool :=
  m.fields.all fun field => field.spec.type ≠ .enum || !field.spec.enumValues.isEmpty

/-- The declared fields, as a table. -/
def specs (fields : List ExtensionField) : Table String FieldSpec :=
  match fields with
  | [] => ∅
  | field :: rest => (specs rest).insert field.target field.spec

theorem extension_of_specs (fields : List ExtensionField) {target : String} {spec : FieldSpec}
    (h : (specs fields).lookup target = some spec) : isExtension target = true := by
  induction fields with
  | nil => simp [specs] at h
  | cons field rest ih =>
    rw [specs, Table.lookup_insert] at h
    split_ifs at h with heq
    · rw [heq]
      exact field.extension
    · exact ih h

/-- The version that the edit adds. -/
def version : PresetVersion where
  stages := m.stages
  transitions := m.transitions
  requirements := m.requirements.flatMap fun e => e.2.map fun target => (e.1, target)
  specs := specs m.fields
  extension _ _ h := extension_of_specs m.fields h

/-- A refusal of the edit, in the order of the checks. -/
def refusal : Option String :=
  if !m.hasDistinctKeys then some "duplicate keys or missing entry stage"
  else if !m.hasSoundTransitions then some "invalid transition"
  else if m.transitions.dedup.length ≠ m.transitions.length then some "duplicate transitions"
  else if !m.hasSoundRequirements then some "invalid requirement"
  else if !m.hasEnumValues then some "enum has no values"
  else none

/-- The version of an edit that is not refused is sound. -/
theorem isSound_version (h : m.refusal = none) : m.version.IsSound := by
  unfold refusal at h
  split_ifs at h with hkeys htransitions
  have hdistinct : m.hasDistinctKeys = true := by simpa using hkeys
  refine ⟨?_, fun e he => ?_⟩
  · simp only [hasDistinctKeys, Bool.and_eq_true, decide_eq_true_eq] at hdistinct
    have hlength : (m.stages.map PresetStage.stageId).dedup.length =
        (m.stages.map PresetStage.stageId).length := by
      rw [List.length_map]
      exact hdistinct.1.1
    exact List.dedup_eq_self.mp ((List.dedup_sublist _).eq_of_length hlength)
  have hsound : m.hasSoundTransitions = true := by simpa using htransitions
  have hall := List.all_eq_true.mp hsound e he
  obtain ⟨hstart, hend⟩ := Bool.and_eq_true_iff.mp hall
  obtain ⟨stage, hstage, hkind⟩ := Option.any_eq_true _ _ |>.mp hstart
  refine ⟨⟨stage, hstage, ?_⟩, hend⟩
  cases hk : stage.kind with
  | opened => rfl
  | terminal => simp [hk] at hkind

end PresetEdit

end Rheostream.Leads
