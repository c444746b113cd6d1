import Rheostream.Modules.Manifests

/-!
# Install, enable and upgrade

The handlers of `modules/operations.py` and `modules/upgrade.py` over one workspace's rows, and
the machine that interleaves their transactions. An install is judged in the dispatcher's
transaction and written by a later job. An enable locks its module's row, then judges, then
commits. An upgrade holds the lifecycle lock, the exclusive execution lock and the row from its
checks to its commit.
-/

namespace Rheostream

/-- The members of `MODULE_STATES`. -/
inductive ModuleState where
  | installed
  | enabled
  | disabled
  | removed
deriving DecidableEq, Repr

namespace ModuleState

/-- `_INSTALLED_AT_MINIMUM`, which is also what an upgrade accepts. -/
def isInstalledAtMinimum : ModuleState → Bool
  | installed | enabled | disabled => true
  | removed => false

/-- `_ENABLEABLE_STATES`. -/
def isEnableable : ModuleState → Bool
  | installed | disabled => true
  | _ => false

end ModuleState

/-- A `core.module_state` row. -/
structure ModuleStateRow where
  packageVersion : String
  state : ModuleState
  installedAt : ℕ
  enabledAt : Option ℕ
deriving DecidableEq

/-- A `core.workspace_setting` row. -/
structure SettingRow where
  value : String
  valueType : String
deriving DecidableEq

/-- What the three operations read and write in one workspace. -/
structure ModuleTables where
  states : Table String ModuleStateRow
  settings : Table String SettingRow
  schedules : Schedules
  /-- The head that each module's own version table records. -/
  revisions : Table String String
  /-- `core.module_schema_version`. -/
  history : List (String × String)
  extensions : List String

/-- The stored input of an install job. -/
structure ModuleInstallPayload where
  moduleId : String
  packageVersion : String
deriving DecidableEq

/-- What the host answers while a module's chain and health checks run. -/
structure ModuleEnvironment where
  /-- Every `CREATE EXTENSION` succeeds. -/
  extensionsCreated : Bool
  /-- The control plane has a row for the workspace. -/
  workspaceRegistered : Bool
  /-- Every pending migration runs. -/
  chainRuns : Bool
  /-- Every health check passes. -/
  healthy : Bool
  now : ℕ

namespace ModuleTables

section Chain

variable {pkgs : Packages} (D : Deployment pkgs) (t : ModuleTables)

/-- The revisions of a chain past the recorded one. -/
def pendingRevisions (chain : List Revision) (before : Option String) : List Revision :=
  match before with
  | none => chain
  | some head => (chain.dropWhile fun r => r.id ≠ head).drop 1

/-- `run_chain`: refuse a recorded revision this code does not know, then upgrade to head. -/
def runChain (id : String) : Except String ModuleTables :=
  if ((t.revisions.lookup id).all fun head => (D.chain id).any fun r => r.id = head) then
    match D.expectedHead id with
    | none => .ok t
    | some head => .ok { t with revisions := t.revisions.insert id head }
  else .error "schema_ahead"

/-- `run_module_chain`: one history row for each newly applied revision. -/
def runModuleChain (id : String) : Except String ModuleTables :=
  let applied := (pendingRevisions (D.chain id) (t.revisions.lookup id)).map fun r => (id, r.id)
  match t.runChain D id with
  | .error code => .error code
  | .ok migrated =>
    if applied.any fun row => row ∈ t.history then .error "IntegrityError"
    else .ok { migrated with history := t.history ++ applied }

end Chain

section Install

variable {pkgs : Packages} (D : Deployment pkgs) (t : ModuleTables)

/-- Step 3 of the pre-flight for one declared dependency. -/
def installDependencyRefusal (pkgs : Packages) (d : Dependency) : Option String :=
  match t.states.lookup d.moduleId with
  | none => if d.optional then none else some "dependency_missing"
  | some present =>
    if !present.state.isInstalledAtMinimum then
      if d.optional then none else some "dependency_missing"
    else if pkgs.contains d.versionRange present.packageVersion then none
    else some "dependency_version"

/-- `module_install_handler`: the refusals in their order, then the job's payload. The last
argument says whether the declared contract tests resolve; only the test profile asks. -/
def moduleInstallHandler (id : String) (testsResolve : Bool) :
    Except String ModuleInstallPayload :=
  match D.loadedManifests.lookup id with
  | none => .error "module_unavailable"
  | some manifest =>
    if (t.states.lookup id).isSome then .error "module_already_installed"
    else match manifest.dependencies.findSome? (t.installDependencyRefusal pkgs) with
      | some code => .error code
      | none =>
        if testsResolve then .ok ⟨id, manifest.packageVersion⟩
        else .error "contract_tests_missing"

/-- `_create_extensions`. -/
def createExtensions (manifest : ModuleManifest) : ModuleTables :=
  { t with extensions := t.extensions ++ manifest.requiredExtensions }

/-- `insert_module_state`, with the primary key's refusal. -/
def insertModuleState (id version : String) (installedAt : ℕ) : Except String ModuleTables :=
  if (t.states.lookup id).isSome then .error "IntegrityError"
  else .ok { t with states := t.states.insert id ⟨version, .installed, installedAt, none⟩ }

/-- `run_module_install_job`. The dependencies were judged at dispatch and are not judged
again. -/
def runModuleInstallJob (payload : ModuleInstallPayload) (env : ModuleEnvironment) :
    Except String ModuleTables :=
  match D.loadedManifests.lookup payload.moduleId with
  | none => .error "RuntimeError"
  | some manifest =>
    if manifest.packageVersion ≠ payload.packageVersion then .error "RuntimeError"
    else if !env.extensionsCreated then .error "extension_failed"
    else if !env.chainRuns then .error "migration_failed"
    else match (t.createExtensions manifest).runModuleChain D payload.moduleId with
      | .error _ => .error "migration_failed"
      | .ok migrated =>
        match migrated.insertModuleState payload.moduleId manifest.packageVersion env.now with
        | .error code => .error code
        | .ok written => if env.healthy then .ok written else .error "health_check_failed"

end Install

section Enable

/-- What an enable has decided to write. -/
structure EnableWrites where
  settings : List (String × SettingRow)
  schedules : List ScheduleRow
  enabledAt : ℕ

variable {pkgs : Packages} (D : Deployment pkgs) (t : ModuleTables)

/-- `_refuse_unless_dependencies_enabled` for one dependency. -/
def dependencyNotEnabled (d : Dependency) : Option String :=
  if d.optional then none
  else if ((t.states.lookup d.moduleId).any fun row => row.state = .enabled) then none
  else some "dependency_not_enabled"

/-- The settings half of `_write_enable_rows`. -/
def defaultSettings (manifest : ModuleManifest) : List (String × SettingRow) :=
  (manifest.configurationSchema.filter KeySpec.explicitPerWorkspace).map fun spec =>
    (spec.key, ⟨spec.default, spec.type⟩)

/-- Whether the module has a schedule of this name. -/
def hasSchedule (id name : String) : Bool :=
  t.schedules.existsRow fun _ row => row.moduleId = id && row.name = name

/-- The schedule half of `_write_enable_rows`: each default schedule, unless this transaction
sees one of its name. -/
def defaultSchedules (id : String) (now : ℕ) (declared : List ScheduleDeclaration) :
    List ScheduleRow :=
  (declared.filter ScheduleDeclaration.enabledByDefault).foldl (fun rows d =>
    if t.hasSchedule id d.name || rows.any fun row => row.name = d.name then rows
    else rows ++ [⟨id, d.name, d.jobKind, true, none, now + day⟩]) []

/-- Steps 1 to 3 of `module_enable_handler`, under the lock of the row. -/
def moduleEnableHandler (locked : ModuleStateRow) (id : String) (now : ℕ) :
    Except String EnableWrites :=
  if !locked.state.isEnableable then .error "module_state_invalid"
  else match D.loadedManifests.lookup id with
    | none => .error "module_unavailable"
    | some manifest =>
      match manifest.dependencies.findSome? t.dependencyNotEnabled with
      | some code => .error code
      | none => .ok
          { settings := defaultSettings manifest
            schedules := t.defaultSchedules id now manifest.schedules
            enabledAt := now }

/-- `set_module_state`. -/
def setEnabled (enabledAt : ℕ) : RowUpdate ModuleStateRow where
  guard _ := true
  set row := { row with state := .enabled, enabledAt := some enabledAt }

/-- The rows of an enable as its commit makes them visible. `none` is the `RuntimeError` of a
row that is no longer there. -/
def enable (id : String) (w : EnableWrites) (ids : List Uuid) : Option ModuleTables :=
  (t.states.updateRow id (setEnabled w.enabledAt)).map fun states =>
    { t with
      states := states
      settings := t.settings.insertMissing w.settings
      schedules := (ids.zip w.schedules).foldl (fun s row => s.insert row.1 row.2) t.schedules }

end Enable

section Upgrade

structure UpgradeInput where
  moduleId : String
  targetVersion : String
  targetSchema : String

variable {pkgs : Packages} (D : Deployment pkgs) (t : ModuleTables)

/-- `readiness_problem`. Each call adds a recorded module to `seen`, so one more call than
there are rows is enough. -/
def readinessProblem : ℕ → List String → String → ModuleStateRow → Option String
  | 0, _, _, _ => none
  | calls + 1, seen, id, row =>
    if id ∈ seen then none
    else match D.loadedManifests.lookup id with
      | none => some "module_not_loaded"
      | some manifest =>
        if row.packageVersion ≠ manifest.packageVersion then some "package_version_mismatch"
        else if t.revisions.lookup id ≠ D.expectedHead id then some "schema_version_mismatch"
        else if manifest.dependencies.any fun d =>
            match t.states.lookup d.moduleId with
            | none => !d.optional
            | some present =>
              if present.state = .removed then !d.optional
              else !pkgs.contains d.versionRange present.packageVersion ||
                (readinessProblem calls (id :: seen) d.moduleId present).isSome then
          some "dependency_unavailable"
        else none

/-- The upgrade's check of one dependency of the new manifest. -/
def upgradeDependencyRefusal (d : Dependency) : Option String :=
  match t.states.lookup d.moduleId with
  | none => if d.optional then none else some "dependency_missing"
  | some present =>
    if present.state = .removed then if d.optional then none else some "dependency_missing"
    else if (t.readinessProblem D (t.states.entries.length + 1) [] d.moduleId present).isSome then
      some "dependency_unavailable"
    else if pkgs.contains d.versionRange present.packageVersion then none
    else some "dependency_version"

/-- The upgrade's check of one loaded manifest as an installed dependent. -/
def dependentRefusal (pkgs : Packages) (id version : String) (other : ModuleManifest) :
    Option String :=
  match t.states.lookup other.moduleId with
  | none => none
  | some row =>
    if row.state = .removed then none
    else if other.dependencies.any fun d =>
        d.moduleId = id && !pkgs.contains d.versionRange version then
      some "dependency_version"
    else none

/-- A revision that declares itself non-destructive. -/
def Revision.isReviewed (r : Revision) : Bool :=
  r.nonDestructiveUpgrade = some true && (r.destructive = none || r.destructive = some false)

/-- An upgrade that passed its checks. -/
structure UpgradePlan (pkgs : Packages) where
  deployment : Deployment pkgs
  moduleId : String
  packageVersion : String
  changed : Bool

/-- `upgrade` up to its first write. -/
def planUpgrade (input : UpgradeInput) : Except String (UpgradePlan pkgs) :=
  match D.loadedManifests.lookup input.moduleId with
  | none => .error "module_unavailable"
  | some manifest =>
    if manifest.packageVersion ≠ input.targetVersion ||
        D.expectedHead input.moduleId ≠ some input.targetSchema then
      .error "upgrade_target_changed"
    else if !(1 ∈ manifest.coreContractVersions) then .error "contract_version_mismatch"
    else match t.states.lookup input.moduleId with
      | none => .error "module_state_invalid"
      | some row =>
        if !row.state.isInstalledAtMinimum then .error "module_state_invalid"
        else if pkgs.newer row.packageVersion manifest.packageVersion then
          .error "downgrade_refused"
        else match manifest.dependencies.findSome? (t.upgradeDependencyRefusal D) with
          | some code => .error code
          | none =>
            match D.loadedManifests.entries.findSome? fun e =>
                t.dependentRefusal pkgs input.moduleId manifest.packageVersion e.2 with
            | some code => .error code
            | none =>
              if manifest.requiredExtensions.any fun e => !(e ∈ t.extensions) then
                .error "extension_missing"
              else match t.revisions.lookup input.moduleId with
                | none => .error "schema_unknown"
                | some before =>
                  if !((D.chain input.moduleId).any fun r => r.id = before) then
                    .error "schema_unknown"
                  else
                    let pending := pendingRevisions (D.chain input.moduleId) (some before)
                    if !(pending.all Revision.isReviewed) then .error "upgrade_requires_review"
                    else .ok
                      { deployment := D
                        moduleId := input.moduleId
                        packageVersion := manifest.packageVersion
                        changed := !pending.isEmpty ||
                          decide (row.packageVersion ≠ manifest.packageVersion) }

/-- The last write of an upgrade. -/
def setVersion (version : String) : RowUpdate ModuleStateRow where
  guard _ := true
  set row := { row with packageVersion := version }

/-- `upgrade` from its first write on. -/
def upgrade (plan : UpgradePlan pkgs) (env : ModuleEnvironment) : Except String ModuleTables :=
  if !plan.changed then .ok t
  else if !env.workspaceRegistered then .error "workspace_unavailable"
  else if !env.chainRuns then .error "migration_failed"
  else match t.runModuleChain plan.deployment plan.moduleId with
    | .error code => .error code
    | .ok migrated =>
      if !env.healthy then .error "health_check_failed"
      else match migrated.states.updateRow plan.moduleId (setVersion plan.packageVersion) with
        | none => .ok migrated
        | some states => .ok { migrated with states := states }

end Upgrade

end ModuleTables

open ModuleTables

/-- An open enable: the row it holds locked, and its writes once it is judged. -/
structure EnableTx where
  locked : ModuleStateRow
  writes : Option EnableWrites

/-- One workspace: its committed rows, the queued install jobs and the open transactions. -/
structure ModuleRun (pkgs : Packages) where
  tables : ModuleTables
  /-- Dispatches that passed the pre-flight and have not committed. -/
  dispatching : List ModuleInstallPayload
  jobs : List ModuleInstallPayload
  enabling : Table String EnableTx
  upgrading : Option (UpgradePlan pkgs)

inductive ModuleAction (pkgs : Packages) where
  /-- `core.module.install` is judged. -/
  | dispatchInstall (D : Deployment pkgs) (id : String) (testsResolve : Bool)
  | commitDispatch (payload : ModuleInstallPayload)
  | abortDispatch (payload : ModuleInstallPayload)
  /-- A worker of any deployment runs a queued install job. -/
  | runInstallJob (D : Deployment pkgs) (payload : ModuleInstallPayload) (env : ModuleEnvironment)
  /-- The job ends without an effect: cancelled, failed for good, dead. -/
  | dropInstallJob (payload : ModuleInstallPayload)
  /-- `lock_module_state` of an enable. -/
  | lockEnable (id : String)
  | judgeEnable (D : Deployment pkgs) (id : String) (now : ℕ)
  | commitEnable (id : String) (ids : List Uuid)
  | abortEnable (id : String)
  /-- An upgrade takes its locks and makes its checks. -/
  | beginUpgrade (D : Deployment pkgs) (input : UpgradeInput)
  | commitUpgrade (env : ModuleEnvironment)
  | abortUpgrade

namespace ModuleRun

variable {pkgs : Packages}

/-- No open transaction holds the module's row. -/
def rowFree (s : ModuleRun pkgs) (id : String) : Bool :=
  (s.enabling.lookup id).isNone && s.upgrading.all fun plan => plan.moduleId ≠ id

/-- Ids as `uuid7` mints them: one for each row, no two equal, none in use. -/
def fresh (s : ModuleRun pkgs) (ids : List Uuid) (w : EnableWrites) : Bool :=
  ids.length = w.schedules.length && decide ids.Nodup &&
    ids.all fun id => (s.tables.schedules.lookup id).isNone

def endEnable (s : ModuleRun pkgs) (id : String) : ModuleRun pkgs :=
  { s with enabling := s.enabling.erase id }

def step (s : ModuleRun pkgs) : ModuleAction pkgs → Option (ModuleRun pkgs)
  | .dispatchInstall D id testsResolve =>
    match s.tables.moduleInstallHandler D id testsResolve with
    | .error _ => some s
    | .ok payload => some { s with dispatching := payload :: s.dispatching }
  | .commitDispatch payload =>
    if payload ∈ s.dispatching then
      some { s with
        dispatching := s.dispatching.erase payload
        jobs := payload :: s.jobs }
    else none
  | .abortDispatch payload => some { s with dispatching := s.dispatching.erase payload }
  | .runInstallJob D payload env =>
    if payload ∈ s.jobs then
      match s.tables.runModuleInstallJob D payload env with
      | .error _ => some s
      | .ok tables => some { s with tables := tables, jobs := s.jobs.erase payload }
    else none
  | .dropInstallJob payload => some { s with jobs := s.jobs.erase payload }
  | .lockEnable id =>
    if s.rowFree id then
      match s.tables.states.lookup id with
      | none => some s
      | some row => some { s with enabling := s.enabling.insert id ⟨row, none⟩ }
    else none
  | .judgeEnable D id now =>
    match s.enabling.lookup id with
    | some ⟨locked, none⟩ =>
      match s.tables.moduleEnableHandler D locked id now with
      | .error _ => some (s.endEnable id)
      | .ok w => some { s with enabling := s.enabling.insert id ⟨locked, some w⟩ }
    | _ => none
  | .commitEnable id ids =>
    match s.enabling.lookup id with
    | some ⟨_, some w⟩ =>
      if s.fresh ids w then
        match s.tables.enable id w ids with
        | none => some (s.endEnable id)
        | some tables => some { s.endEnable id with tables := tables }
      else none
    | _ => none
  | .abortEnable id => some (s.endEnable id)
  | .beginUpgrade D input =>
    if s.upgrading.isNone && s.rowFree input.moduleId then
      match s.tables.planUpgrade D input with
      | .error _ => some s
      | .ok plan => some { s with upgrading := some plan }
    else none
  | .commitUpgrade env =>
    match s.upgrading with
    | none => none
    | some plan =>
      match s.tables.upgrade plan env with
      | .error _ => some { s with upgrading := none }
      | .ok tables => some { s with tables := tables, upgrading := none }
  | .abortUpgrade => some { s with upgrading := none }

/-- A workspace in which no module was ever installed. -/
structure Initial (s : ModuleRun pkgs) : Prop where
  states : s.tables.states = ∅
  schedules : ∀ id id' row row', s.tables.schedules.lookup id = some row →
    s.tables.schedules.lookup id' = some row' → row.moduleId = row'.moduleId →
      row.name = row'.name → id = id'
  dispatching : s.dispatching = []
  jobs : s.jobs = []
  enabling : s.enabling = ∅
  upgrading : s.upgrading = none

/-- The modules of one workspace under any sequence of deployments. -/
def machine (pkgs : Packages) : Machine (ModuleRun pkgs) (ModuleAction pkgs) where
  init := Initial
  step := step

end ModuleRun

end Rheostream
