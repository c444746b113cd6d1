import Mathlib.Logic.Function.Basic
import Rheostream.Foundation.Machine
import Rheostream.Foundation.Values

/-!
# Provisioning and restoring one workspace

`storage/provisioning.py`, `restore_artifact` and the migration pass over one workspace, as
processes that commit one transaction at a time. The registry row lives in the control database
and everything else in the workspace's own, so a process can die between any two commits; a
retry is a new process. The restores are the attempts at one artifact under one restore id.
-/

namespace Rheostream

/-- The closed set of `workspace.state` values. -/
inductive WorkspaceState where
  | provisioning
  | migrating
  | active
  | unavailable
  | restoring
deriving DecidableEq, Repr

/-- The members of `PROVISION_STEPS`. -/
inductive ProvisionStep where
  | insertRegistryRow
  | createDatabase
  | migrateCore
  | writeDefaultSettings
  | activate
deriving DecidableEq, Repr

/-- A workspace's registry row, with the account whose owner membership was written beside it. -/
structure RegistryRow where
  state : WorkspaceState
  stateDetail : Option String
  owner : Uuid
deriving DecidableEq

/-- What the workspace's own database holds of provisioning and of the restore. -/
structure WorkspaceDatabase (α : Type) where
  /-- The core chain is at head and the composition row written. -/
  migrated : Bool
  /-- The default settings are written. -/
  settings : Bool
  /-- The completed `export_record` of the restore. -/
  restored : Bool
  /-- The rows imported from the artifact. -/
  imported : List α

namespace ProvisionStep

/-- The step's name, as `state_detail` records it. -/
def name : ProvisionStep → String
  | insertRegistryRow => "insert_registry_row"
  | createDatabase => "create_database"
  | migrateCore => "migrate_core"
  | writeDefaultSettings => "write_default_settings"
  | activate => "activate"

end ProvisionStep

/-- `PROVISION_STEPS`. -/
def provisionSteps : List ProvisionStep :=
  [.insertRegistryRow, .createDatabase, .migrateCore, .writeDefaultSettings, .activate]

/-- `_remaining_after`. A row exists, so the first step is done. -/
def remainingAfter (stateDetail : Option String) : List ProvisionStep :=
  match provisionSteps.find? fun step => some step.name = stateDetail with
  | some step => (provisionSteps.dropWhile fun other => other ≠ step).drop 1
  | none => provisionSteps.drop 1

/-- A walk over provisioning steps, by `provision`, by `repair` or by a restore. -/
structure Walk where
  /-- The first is the next to run. -/
  steps : List ProvisionStep
  /-- The owner that the first step inserts or compares. -/
  owner : Uuid
  /-- Whether a restore goes on when the walk is through. -/
  restoring : Bool
deriving DecidableEq

/-- A process that acts on the workspace, between two of its commits. -/
inductive WorkspaceProcess where
  | walk (w : Walk)
  /-- `CREATE DATABASE` found the database there; the state is to be read again. -/
  | recheck (w : Walk)
  /-- The effect of a step has committed; `_record_step` is next. -/
  | record (step : ProvisionStep) (w : Walk)
  /-- A restore whose provisioning is through: the move to `restoring`. -/
  | move
  /-- A restore that read the registry row in this state and looks for its own record. -/
  | found (state : WorkspaceState)
  | importing
  /-- A restore whose record is committed: the move to `active`. -/
  | finishing
  /-- A migration pass that listed the workspace as active. -/
  | migrating
  | returned
  | refused (code : String)
deriving DecidableEq

/-- What a walk does next. -/
def Walk.next (w : Walk) : WorkspaceProcess :=
  match w.steps with
  | [] => if w.restoring then .move else .returned
  | _ => .walk w

/-- One workspace and the processes that act on it. -/
structure WorkspaceRun (α : Type) where
  registry : Option RegistryRow
  database : Option (WorkspaceDatabase α)
  processes : ℕ → Option WorkspaceProcess

inductive WorkspaceAction where
  | provision (p : ℕ) (owner : Uuid)
  | repair (p : ℕ)
  | restore (p : ℕ)
  /-- `migrate_active_workspaces` lists the workspace. -/
  | listActive (p : ℕ)
  /-- The next transaction of a process, and the error it meets if it meets one. -/
  | advance (p : ℕ) (error : Option String)
  | crash (p : ℕ)

namespace WorkspaceRun

variable {α : Type} (artifact : List α) (owner : Uuid)

def state (s : WorkspaceRun α) : Option WorkspaceState := s.registry.map RegistryRow.state

/-- The restore's completed record is committed. -/
def isRestored (s : WorkspaceRun α) : Bool := s.database.any WorkspaceDatabase.restored

def imported (s : WorkspaceRun α) : List α := s.database.elim [] WorkspaceDatabase.imported

def setProcess (s : WorkspaceRun α) (p : ℕ) (process : Option WorkspaceProcess) :
    WorkspaceRun α :=
  { s with processes := Function.update s.processes p process }

def refuse (s : WorkspaceRun α) (p : ℕ) (code : String) : WorkspaceRun α :=
  s.setProcess p (some (.refused code))

/-- `set_workspace_state` with expected states, and what follows when it applies. -/
def compareAndSet (s : WorkspaceRun α) (p : ℕ) (expected : List WorkspaceState)
    (new : WorkspaceState) (stateDetail : String) (next : WorkspaceProcess) : WorkspaceRun α :=
  match s.registry with
  | none => s.refuse p "workspace_missing"
  | some row =>
    if row.state ∈ expected then
      { s.setProcess p (some next) with
        registry := some { row with state := new, stateDetail := some stateDetail } }
    else s.refuse p "workspace_state"

/-- The registry row and the owner's membership, in one transaction. -/
def insertRegistryRow (s : WorkspaceRun α) (p : ℕ) (w : Walk) : WorkspaceRun α :=
  match s.registry with
  | none =>
    { s.setProcess p (some w.next) with
      registry := some ⟨.provisioning, some ProvisionStep.insertRegistryRow.name, w.owner⟩ }
  | some row =>
    if row.state ≠ .provisioning then s.refuse p "workspace_exists"
    else if row.owner ≠ w.owner then s.refuse p "workspace_exists"
    else s.setProcess p (some w.next)

/-- The effect of a step, `w` being the walk after it. A step that reads the registry row
refuses when there is none; one that opens the workspace's database fails when there is none. -/
def runStep (s : WorkspaceRun α) (p : ℕ) (w : Walk) : ProvisionStep → WorkspaceRun α
  | .insertRegistryRow => s.insertRegistryRow p w
  | .createDatabase =>
    if s.registry.isNone then s.refuse p "workspace_missing"
    else match s.database with
      | none =>
        { s.setProcess p (some (.record .createDatabase w)) with
          database := some ⟨false, false, false, []⟩ }
      | some _ => s.setProcess p (some (.recheck w))
  | .migrateCore =>
    if s.registry.isNone then s.refuse p "workspace_missing"
    else match s.database with
      | none => s.refuse p "database_missing"
      | some db =>
        { s.setProcess p (some (.record .migrateCore w)) with
          database := some { db with migrated := true } }
  | .writeDefaultSettings =>
    if s.registry.isNone then s.refuse p "workspace_missing"
    else match s.database with
      | none => s.refuse p "database_missing"
      | some db =>
        if db.migrated then
          { s.setProcess p (some (.record .writeDefaultSettings w)) with
            database := some { db with settings := true } }
        else s.refuse p "undefined_table"
  | .activate =>
    s.compareAndSet p [.provisioning] .active ProvisionStep.activate.name w.next

/-- A restore that read the row looks for its completed record in the workspace's database. -/
def lookForRecord (s : WorkspaceRun α) (p : ℕ) (state : WorkspaceState) : WorkspaceRun α :=
  match s.database with
  | none => s.refuse p "database_missing"
  | some db =>
    if !db.migrated then s.refuse p "undefined_table"
    else if db.restored then
      s.setProcess p (some (if state = .restoring then .finishing else .returned))
    else if state = .restoring then s.setProcess p (some .importing)
    else s.refuse p "workspace_exists"

/-- The one import transaction. The record's primary key refuses a second import. -/
def importArtifact (s : WorkspaceRun α) (p : ℕ) : WorkspaceRun α :=
  match s.database with
  | none => s.refuse p "database_missing"
  | some db =>
    if !db.migrated then s.refuse p "undefined_table"
    else if db.restored then s.refuse p "export_record_pkey"
    else
      { s.setProcess p (some .finishing) with
        database := some { db with restored := true, imported := db.imported ++ artifact } }

/-- The next transaction of a process that meets no error. -/
def advance (s : WorkspaceRun α) (p : ℕ) : WorkspaceProcess → Option (WorkspaceRun α)
  | .walk ⟨step :: steps, owner, restoring⟩ => some (s.runStep p ⟨steps, owner, restoring⟩ step)
  | .walk ⟨[], _, _⟩ => none
  | .recheck w =>
    match s.registry with
    | none => some (s.refuse p "workspace_missing")
    | some row =>
      if row.state = .provisioning then some (s.setProcess p (some (.record .createDatabase w)))
      else some (s.refuse p "workspace_exists")
  | .record step w =>
    some (s.compareAndSet p [.provisioning, .unavailable] .provisioning step.name w.next)
  | .move => some (s.compareAndSet p [.active] .restoring "importing_artifact" .importing)
  | .found state => some (s.lookForRecord p state)
  | .importing => some (s.importArtifact artifact p)
  | .finishing => some (s.compareAndSet p [.restoring] .active "restore_complete" .returned)
  | .migrating => some (s.setProcess p (some .returned))
  | .returned | .refused _ => none

/-- A transaction that meets an error is rolled back and ends its process. The migration pass
alone turns it into a write, for which it names no expected state. -/
def fail (s : WorkspaceRun α) (p : ℕ) (error : String) : WorkspaceProcess →
    Option (WorkspaceRun α)
  | .migrating =>
    some { s.setProcess p (some .returned) with
      registry := s.registry.map fun row =>
        { row with state := .unavailable, stateDetail := some error } }
  | .returned | .refused _ => none
  | _ => some (s.refuse p error)

/-- `repair` reads the row. -/
def repair (s : WorkspaceRun α) (p : ℕ) : WorkspaceRun α :=
  match s.registry with
  | none => s.refuse p "workspace_missing"
  | some row =>
    match row.state with
    | .active => s.setProcess p (some .returned)
    | .provisioning =>
      s.setProcess p (some (Walk.mk (remainingAfter row.stateDetail) row.owner false).next)
    | .unavailable =>
      s.setProcess p (some (.walk
        ⟨provisionSteps.dropWhile fun step => step ≠ .migrateCore, row.owner, false⟩))
    | .migrating | .restoring => s.refuse p "workspace_state"

/-- `restore_artifact` reads the row: a fresh workspace is provisioned for the artifact's
owner. -/
def restore (s : WorkspaceRun α) (p : ℕ) : WorkspaceRun α :=
  match s.registry with
  | none => s.setProcess p (some (.walk ⟨provisionSteps, owner, true⟩))
  | some row => s.setProcess p (some (.found row.state))

def step (s : WorkspaceRun α) : WorkspaceAction → Option (WorkspaceRun α)
  | .provision p account =>
    if (s.processes p).isNone then
      some (s.setProcess p (some (.walk ⟨provisionSteps, account, false⟩)))
    else none
  | .repair p => if (s.processes p).isNone then some (s.repair p) else none
  | .restore p => if (s.processes p).isNone then some (s.restore owner p) else none
  | .listActive p =>
    if (s.processes p).isNone && s.state = some .active then
      some (s.setProcess p (some .migrating))
    else none
  | .advance p error =>
    match s.processes p with
    | none => none
    | some process =>
      match error with
      | none => s.advance artifact p process
      | some code => s.fail p code process
  | .crash p => some (s.setProcess p none)

/-- Nothing exists and nothing runs. -/
structure Initial (s : WorkspaceRun α) : Prop where
  registry : s.registry = none
  database : s.database = none
  processes : s.processes = fun _ => none

/-- One workspace under any processes: walks, repairs, attempts at the restore of `artifact` for
`owner`, and migration passes. -/
def machine : Machine (WorkspaceRun α) WorkspaceAction where
  init := Initial
  step := step artifact owner

end WorkspaceRun

end Rheostream
