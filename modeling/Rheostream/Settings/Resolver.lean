import Rheostream.Settings.Schema

/-!
# Resolving settings

The value of every declared key: the package default, the deployment's value, then the rows of
the workspace and of the member, each under the floor. The write path asks beforehand whether a
value would be accepted.
-/

namespace Rheostream.Settings

/-- `apply_floor`, which raises on values of another type than the floor's. -/
def applyFloor : Floor → SettingValue → SettingValue → Option SettingValue
  | .min, .int deployed, .int override => some (.int (min deployed override))
  | .union, .list deployed, .list override =>
    some (.list (deployed ++ override.filter fun item => !deployed.contains item))
  | .subset, .list deployed, .list override =>
    some (.list (deployed.filter fun item => override.contains item))
  | .and, .bool deployed, .bool override => some (.bool (deployed && override))
  | _, _, _ => none

/-- `is_looser`, which raises on values of another type than the floor's. -/
def isLooser : Floor → SettingValue → SettingValue → Option Bool
  | .min, .int deployed, .int candidate => some (decide (deployed < candidate))
  | .union, .list deployed, .list candidate =>
    some !(deployed.all fun item => candidate.contains item)
  | .subset, .list deployed, .list candidate =>
    some !(candidate.all fun item => deployed.contains item)
  | .and, .bool deployed, .bool candidate => some (candidate && !deployed)
  | _, _, _ => none

/-- The values so far, and the keys that rows supplied. -/
abbrev Resolving := List (String × SettingValue) × List String

/-- What a row of a declared key of its scope does. -/
def applyRow (spec : KeySpec) (text : List Char) (state : Resolving) : Option Resolving :=
  match decodeText spec text with
  | none => some state
  | some value =>
    let floored := match spec.floor with
      | none => some value
      | some floor => (state.1.lookup spec.key).bind fun current => applyFloor floor current value
    floored.map fun value => (OrderedDict.set state.1 spec.key value, spec.key :: state.2)

/-- `_apply_rows`: a row of an undeclared key, of a key of another scope, or one that does not
decode is ignored. -/
def applyRows (registry : SettingsRegistry) (scope : Scope) :
    List (String × List Char) → Resolving → Option Resolving
  | [], state => some state
  | (key, text) :: rows, state =>
    match registry.lookup key with
    | none => applyRows registry scope rows state
    | some spec =>
      if spec.scope = scope then (applyRow spec text state).bind (applyRows registry scope rows)
      else applyRows registry scope rows state

/-- The package defaults under the deployment's layer. -/
def deployedValues (registry : SettingsRegistry) (deployment : List (String × SettingValue)) :
    List (String × SettingValue) :=
  deployment.foldl (fun values e => OrderedDict.set values e.1 e.2)
    (registry.specs.map fun spec => (spec.key, spec.default))

/-- `resolve`: the values, and the keys a workspace row supplied. -/
def resolve (registry : SettingsRegistry) (deployment : List (String × SettingValue))
    (workspaceRows memberRows : List (String × List Char)) : Option Resolving :=
  (applyRows registry .workspace workspaceRows (deployedValues registry deployment, [])).bind
    fun workspace => (applyRows registry .member memberRows (workspace.1, [])).map
      fun member => (member.1, workspace.2)

/-- The states of a refusal. -/
inductive RefusalState where
  | settingUndeclared
  | settingScope
  | settingType
  | settingFloorViolation
  deriving DecidableEq

/-- `SettingRefusal`. -/
structure SettingRefusal where
  state : RefusalState
  key : String

/-- `SettingAccepted`. -/
structure SettingAccepted where
  key : String
  value : SettingValue
  encoded : List Char
  valueType : ValueType

/-- `validate_override`, which raises on a deployment value that the key does not accept and on
an integer that is not written. -/
def validateOverride (registry : SettingsRegistry) (key : String)
    (value deploymentValue : SettingValue) (scope : Scope) :
    Option (Except SettingRefusal SettingAccepted) :=
  match registry.lookup key with
  | none => some (.error ⟨.settingUndeclared, key⟩)
  | some spec =>
    if scope = .deployment ∨ spec.scope ≠ scope then some (.error ⟨.settingScope, key⟩)
    else if !matchesType spec.type value || !inChoices spec.choices value then
      some (.error ⟨.settingType, key⟩)
    else if outOfBounds spec.minimum spec.maximum value then some (.error ⟨.settingType, key⟩)
    else
      let looser := match spec.floor with
        | none => some false
        | some floor => (checkValue spec deploymentValue).bind fun base => isLooser floor base value
      looser.bind fun looser =>
        if looser then some (.error ⟨.settingFloorViolation, key⟩)
        else (encodeText spec value).map fun encoded => .ok ⟨key, value, encoded, spec.type⟩

end Rheostream.Settings
