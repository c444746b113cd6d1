import Rheostream.Modules.Dependencies

/-!
# The law of recorded modules

Beside their dependencies, the recorded modules of a workspace keep one state row each, one
schedule row for each name and a schema that is at the head of the code they are recorded at,
and a refused or failed attempt changes no row. The law collects what holds in every reachable
state; the concrete runs after it show what its conditions are for.
-/

namespace Rheostream

open ModuleTables

variable {pkgs : Packages}

namespace ModuleTables

variable {t : ModuleTables} {id : String}

theorem hasSchedule_eq_false {name : String} : t.hasSchedule id name = false ↔
    ∀ k row, t.schedules.lookup k = some row → row.moduleId = id → row.name ≠ name := by
  unfold hasSchedule
  rw [Table.existsRow_eq_false]
  simp

/-- The schedules an enable inserts are its module's, each of a name that the workspace does not
have and no two of one name. -/
theorem defaultSchedules_spec (t : ModuleTables) (id : String) (now : ℕ)
    (declared : List ScheduleDeclaration) :
    ((t.defaultSchedules id now declared).map ScheduleRow.name).Nodup ∧
      ∀ row ∈ t.defaultSchedules id now declared,
        row.moduleId = id ∧ t.hasSchedule id row.name = false := by
  unfold defaultSchedules
  generalize declared.filter ScheduleDeclaration.enabledByDefault = wanted
  suffices hfold : ∀ rows : List ScheduleRow, (rows.map ScheduleRow.name).Nodup →
      (∀ row ∈ rows, row.moduleId = id ∧ t.hasSchedule id row.name = false) →
      ∀ result, wanted.foldl (fun rows d =>
        if t.hasSchedule id d.name || rows.any fun row => row.name = d.name then rows
        else rows ++ [⟨id, d.name, d.jobKind, true, none, now + day⟩]) rows = result →
      (result.map ScheduleRow.name).Nodup ∧
        ∀ row ∈ result, row.moduleId = id ∧ t.hasSchedule id row.name = false from
    hfold [] (by simp) (by simp) _ rfl
  induction wanted with
  | nil =>
    rintro rows hnodup hrows result rfl
    exact ⟨hnodup, hrows⟩
  | cons d wanted ih =>
    intro rows hnodup hrows result hresult
    rw [List.foldl_cons] at hresult
    split at hresult
    · exact ih rows hnodup hrows result hresult
    · next hnew =>
      have hfresh : t.hasSchedule id d.name = false ∧ ∀ row ∈ rows, row.name ≠ d.name := by
        simpa using hnew
      refine ih _ ?_ ?_ result hresult
      · rw [List.map_append, List.nodup_append]
        refine ⟨hnodup, by simp, ?_⟩
        intro name hname other hother hsame
        obtain ⟨row, hrow, rfl⟩ := List.mem_map.mp hname
        exact hfresh.2 row hrow (hsame.trans (by simpa using hother))
      · intro row hrow
        obtain hold | hnew := List.mem_append.mp hrow
        · exact hrows row hold
        · obtain rfl := List.mem_singleton.mp hnew
          exact ⟨rfl, hfresh.1⟩

/-- No two schedule rows of a module have one name. -/
def UniqueSchedules (schedules : Schedules) : Prop :=
  ∀ k k' row row', schedules.lookup k = some row → schedules.lookup k' = some row' →
    row.moduleId = row'.moduleId → row.name = row'.name → k = k'

private theorem lookup_insertRows {rows : List (Uuid × ScheduleRow)} {schedules : Schedules}
    {k : Uuid} {row : ScheduleRow}
    (h : (rows.foldl (fun s row => s.insert row.1 row.2) schedules).lookup k = some row) :
    (k, row) ∈ rows ∨ schedules.lookup k = some row := by
  induction rows generalizing schedules with
  | nil => exact Or.inr h
  | cons first rows ih =>
    obtain hmem | hlookup := ih h
    · exact Or.inl (List.mem_cons_of_mem _ hmem)
    · rw [Table.lookup_insert] at hlookup
      split at hlookup
      · next hk =>
        obtain rfl := Option.some.inj hlookup
        exact Or.inl (by simp [hk])
      · exact Or.inr hlookup

/-- Rows of different names get the ids of a zip in different places. -/
private theorem eq_of_mem_zip {ids : List Uuid} {rows : List ScheduleRow}
    (hnodup : (rows.map ScheduleRow.name).Nodup) {k k' : Uuid} {row row' : ScheduleRow}
    (hrow : (k, row) ∈ ids.zip rows) (hrow' : (k', row') ∈ ids.zip rows)
    (hname : row.name = row'.name) : k = k' := by
  obtain ⟨i, hi, hget⟩ := List.getElem_of_mem hrow
  obtain ⟨j, hj, hget'⟩ := List.getElem_of_mem hrow'
  rw [List.getElem_zip, Prod.mk.injEq] at hget hget'
  rw [List.length_zip] at hi hj
  have hi' : i < (rows.map ScheduleRow.name).length := by
    rw [List.length_map]
    omega
  have hj' : j < (rows.map ScheduleRow.name).length := by
    rw [List.length_map]
    omega
  have hnames : (rows.map ScheduleRow.name)[i] = (rows.map ScheduleRow.name)[j] := by
    rw [List.getElem_map, List.getElem_map, hget.2, hget'.2, hname]
  obtain rfl := hnodup.getElem_inj_iff.mp hnames
  exact hget.1.symm.trans hget'.1

/-- Inserting new names keeps the names unique. -/
theorem UniqueSchedules.insert {schedules : Schedules} (hs : UniqueSchedules schedules)
    {ids : List Uuid} {rows : List ScheduleRow} (hnodup : (rows.map ScheduleRow.name).Nodup)
    (hnew : ∀ row ∈ rows, row.moduleId = id ∧
      ∀ k old, schedules.lookup k = some old → old.moduleId = id → old.name ≠ row.name) :
    UniqueSchedules ((ids.zip rows).foldl (fun s row => s.insert row.1 row.2) schedules) := by
  intro k k' row row' hrow hrow' hmodule hname
  obtain hmem | hold := lookup_insertRows hrow
  · obtain hmem' | hold' := lookup_insertRows hrow'
    · exact eq_of_mem_zip hnodup hmem hmem' hname
    · obtain ⟨hid, hfresh⟩ := hnew row (List.of_mem_zip hmem).2
      exact absurd hname.symm (hfresh k' row' hold' (hmodule.symm.trans hid))
  · obtain hmem' | hold' := lookup_insertRows hrow'
    · obtain ⟨hid, hfresh⟩ := hnew row' (List.of_mem_zip hmem').2
      exact absurd hname (hfresh k row hold (hmodule.trans hid))
    · exact hs k k' row row' hold hold' hmodule hname

end ModuleTables

namespace ModuleRun

variable {s s' : ModuleRun pkgs} {a : ModuleAction pkgs} {id m d : String}

/-- Schedule names are unique, and stay so when an open enable commits. -/
structure SchedulesUnique (s : ModuleRun pkgs) : Prop where
  recorded : UniqueSchedules s.tables.schedules
  pending : ∀ id locked w, s.enabling.lookup id = some ⟨locked, some w⟩ →
    (w.schedules.map ScheduleRow.name).Nodup ∧ ∀ row ∈ w.schedules, row.moduleId = id ∧
      s.tables.hasSchedule id row.name = false

theorem SchedulesUnique.step (hs : s.SchedulesUnique) (h : StepCase s a s') :
    s'.SchedulesUnique := by
  cases h with
  | unchanged => exact hs
  | dispatched | scheduled | dispatchEnded | installDropped | upgradeBegun | upgradeEnded =>
    exact ⟨hs.recorded, hs.pending⟩
  | installed hp heffect =>
    have hschedules := heffect.schedules
    refine ⟨by rw [hschedules]; exact hs.recorded, fun id locked w htx => ?_⟩
    simpa only [hasSchedule, hschedules] using hs.pending id locked w htx
  | upgraded hplan heffect =>
    have hschedules := heffect.schedules
    refine ⟨by rw [hschedules]; exact hs.recorded, fun id locked w htx => ?_⟩
    simpa only [hasSchedule, hschedules] using hs.pending id locked w htx
  | rowLocked hfree hrow =>
    refine ⟨hs.recorded, fun id locked w htx => ?_⟩
    rw [Table.lookup_insert] at htx
    split at htx
    · simp at htx
    · exact hs.pending id locked w htx
  | @judged D id now locked w htx hok =>
    refine ⟨hs.recorded, fun id' locked' w' htx' => ?_⟩
    rw [Table.lookup_insert] at htx'
    split at htx'
    · next hid =>
      obtain ⟨-, rfl⟩ : locked = locked' ∧ w = w' := by simpa using htx'
      obtain ⟨manifest, -, hschedules, -⟩ := moduleEnableHandler_ok hok
      rw [hid, hschedules]
      exact defaultSchedules_spec _ _ _ _
    · exact hs.pending id' locked' w' htx'
  | enableEnded a id =>
    refine ⟨hs.recorded, fun id' locked w htx => ?_⟩
    rw [endEnable_enabling] at htx
    split at htx
    · cases htx
    · exact hs.pending id' locked w htx
  | @enabled id ids locked w tables htx hfresh hok =>
    obtain ⟨-, -, -, hschedules, -⟩ := enable_eq_some hok
    obtain ⟨hnodup, hrows⟩ := hs.pending id locked w htx
    refine ⟨?_, fun id' locked' w' htx' => ?_⟩
    · rw [show tables.schedules = _ from hschedules]
      exact hs.recorded.insert hnodup fun row hrow =>
        ⟨(hrows row hrow).1, hasSchedule_eq_false.mp (hrows row hrow).2⟩
    · have hlookup := endEnable_enabling s id id' ▸ htx'
      split at hlookup
      · cases hlookup
      next hne =>
        -- The rows inserted are another module's, so none has a name this one waits to insert.
        obtain ⟨hnodup', hrows'⟩ := hs.pending id' locked' w' hlookup
        refine ⟨hnodup', fun row hrow => ⟨(hrows' row hrow).1, ?_⟩⟩
        refine hasSchedule_eq_false.mpr fun k old hold hmodule => ?_
        rw [show tables.schedules = _ from hschedules] at hold
        obtain hmem | hold := lookup_insertRows hold
        · exact absurd (hmodule.symm.trans (hrows old (List.of_mem_zip hmem).2).1) hne
        · exact hasSchedule_eq_false.mp (hrows' row hrow).2 k old hold hmodule

theorem schedulesUnique_of_reachable (hs : (machine pkgs).Reachable s) : s.SchedulesUnique := by
  refine hs.invariant (fun s hinit => ?_) fun s a s' _ hs h => hs.step (step_cases h)
  have hinit : Initial s := hinit
  exact ⟨hinit.schedules, by simp [hinit.enabling]⟩

/-- Every recorded module's schema is at the head of a deployment that loads it at the recorded
version. -/
def Migrated (s : ModuleRun pkgs) : Prop :=
  ∀ id row, s.tables.states.lookup id = some row →
    ∃ D : Deployment pkgs, D.version id = some row.packageVersion ∧
      s.tables.revisions.lookup id = D.expectedHead id

theorem Migrated.step (hs : s.Migrated) (hlocked : s.Locked) (h : StepCase s a s') :
    s'.Migrated := by
  intro id row hrow
  cases h with
  | unchanged | dispatched | scheduled | dispatchEnded | installDropped | rowLocked | judged
    | enableEnded | upgradeBegun | upgradeEnded => exact hs id row hrow
  | @installed D p env tables hp heffect =>
    obtain ⟨installedAt, hstates⟩ := heffect.states
    rw [hstates, Table.lookup_insert] at hrow
    split at hrow
    · next hid =>
      obtain rfl := Option.some.inj hrow
      exact ⟨D, hid ▸ heffect.loaded, hid ▸ heffect.head⟩
    · next hne =>
      obtain ⟨D', hversion, hhead⟩ := hs id row hrow
      exact ⟨D', hversion, (heffect.others id hne).trans hhead⟩
  | @enabled id' ids locked w tables htx hfresh hok =>
    obtain ⟨old, hold, hstates, -, hrevisions⟩ := enable_eq_some hok
    rw [hstates, Table.lookup_insert] at hrow
    rw [show tables.revisions = _ from hrevisions]
    split at hrow
    · next hid =>
      obtain rfl := Option.some.inj hrow
      exact hs id old (hid ▸ hold)
    · exact hs id row hrow
  | @upgraded env plan tables hplan heffect =>
    rw [heffect.states] at hrow
    split at hrow
    · next hid =>
      obtain ⟨old, -, rfl⟩ := Option.map_eq_some_iff.mp hrow
      exact ⟨plan.deployment, hid ▸ hlocked.loaded plan hplan, hid ▸ heffect.head⟩
    · next hne =>
      obtain ⟨D', hversion, hhead⟩ := hs id row hrow
      exact ⟨D', hversion, (heffect.others id hne).trans hhead⟩

theorem migrated_of_reachable (hs : (machine pkgs).Reachable s) : s.Migrated := by
  refine hs.invariant (fun s hinit id row hrow => ?_) fun s a s' hreach hs h =>
    hs.step (locked_of_reachable hreach) (step_cases h)
  have hinit : Initial s := hinit
  simp [hinit.states] at hrow

/-- The action is the commit of an attempt that succeeds: an install job that ran through, an
enable whose row is there, an upgrade that ran through. -/
def Commits (s : ModuleRun pkgs) : ModuleAction pkgs → Bool
  | .runInstallJob D payload env => (s.tables.runModuleInstallJob D payload env).isOk
  | .commitEnable id ids =>
    (s.enabling.lookup id).any fun tx => tx.writes.any fun w => (s.tables.enable id w ids).isSome
  | .commitUpgrade env => s.upgrading.any fun plan => (s.tables.upgrade plan env).isOk
  | _ => false

/-- A refused or failed attempt leaves every row as it was. -/
theorem tables_of_not_commits (h : s.step a = some s') (hfails : s.Commits a = false) :
    s'.tables = s.tables := by
  cases a with
  | dispatchInstall | lockEnable | judgeEnable | beginUpgrade =>
    cases step_cases h <;> rfl
  | commitDispatch | abortDispatch | dropInstallJob | abortEnable | abortUpgrade =>
    cases step_cases h <;> rfl
  | runInstallJob D p env =>
    simp only [step] at h
    split at h
    · split at h
      · obtain rfl := Option.some.inj h
        rfl
      · next hok => simp [Commits, hok, Except.isOk, Except.toBool] at hfails
    · cases h
  | commitEnable id ids =>
    simp only [step] at h
    split at h
    · next htx =>
      split at h
      · split at h
        · obtain rfl := Option.some.inj h
          rfl
        · next hok => simp [Commits, htx, hok] at hfails
      · cases h
    · cases h
  | commitUpgrade env =>
    simp only [step] at h
    split at h
    · cases h
    · next plan hplan =>
      split at h
      · obtain rfl := Option.some.inj h
        rfl
      · next hok => simp [Commits, hplan, hok, Except.isOk, Except.toBool] at hfails

section Runs

/-- `lib` in two versions and `app` in three: without dependencies, for the old `lib` and for
the new one. -/
def samplePackages : Packages where
  contains range version := range == "<2" && version == "1" || range == ">=2" && version == "2"
  newer a b := b == "0" && a != "0" || a == "2" && b == "1"
  manifest id version :=
    { moduleId := id
      packageVersion := version
      coreContractVersions := [1]
      dependencies :=
        if id = "app" ∧ version = "1" then [⟨"lib", "<2", false⟩]
        else if id = "app" ∧ version = "2" then [⟨"lib", ">=2", false⟩] else []
      requiredExtensions := []
      configurationSchema := []
      schedules := [] }

/-- Every chain of the sample is one revision. -/
def sampleChain (_ : String) : List Revision := [⟨"r1", some true, none⟩]

def oldRelease : Deployment samplePackages where
  manifests := [samplePackages.manifest "lib" "1", samplePackages.manifest "app" "1"]
  accepted := by decide
  shipped := by decide
  chain := sampleChain

def newRelease : Deployment samplePackages where
  manifests := [samplePackages.manifest "lib" "2", samplePackages.manifest "app" "2"]
  accepted := by decide
  shipped := by decide
  chain := sampleChain

/-- A deployment with the new library alone. -/
def newLibrary : Deployment samplePackages where
  manifests := [samplePackages.manifest "lib" "2"]
  accepted := by decide
  shipped := by decide
  chain := sampleChain

/-- The first release of `app`, which needed nothing. -/
def firstRelease : Deployment samplePackages where
  manifests := [samplePackages.manifest "lib" "1", samplePackages.manifest "app" "0"]
  accepted := by decide
  shipped := by decide
  chain := sampleChain

def sampleEnvironment : ModuleEnvironment := ⟨true, true, true, true, 0⟩

def emptyRun : ModuleRun samplePackages where
  tables := ⟨∅, ∅, ∅, ∅, [], []⟩
  dispatching := []
  jobs := []
  enabling := ∅
  upgrading := none

theorem emptyRun_initial : Initial emptyRun := ⟨rfl, by simp [emptyRun], rfl, rfl, rfl, rfl⟩

def scheduleOf (D : Deployment samplePackages) (id version : String) :
    List (ModuleAction samplePackages) :=
  [.dispatchInstall D id true, .commitDispatch ⟨id, version⟩]

def installOf (D : Deployment samplePackages) (id version : String) :
    List (ModuleAction samplePackages) :=
  scheduleOf D id version ++ [.runInstallJob D ⟨id, version⟩ sampleEnvironment]

def enableOf (D : Deployment samplePackages) (id : String) : List (ModuleAction samplePackages) :=
  [.lockEnable id, .judgeEnable D id 0, .commitEnable id []]

def upgradeOf (D : Deployment samplePackages) (id version : String) :
    List (ModuleAction samplePackages) :=
  [.beginUpgrade D ⟨id, version, "r1"⟩, .commitUpgrade sampleEnvironment]

/-- The version and the state a module is recorded at. -/
def observed (s : ModuleRun samplePackages) (id : String) : Option (String × ModuleState) :=
  (s.tables.states.lookup id).map fun row => (row.packageVersion, row.state)

/-- An upgrade of a kept module: `app` is enabled at its first release and then moved to the
release that needs `lib`, which is enabled by then. -/
def keptActions : List (ModuleAction samplePackages) :=
  installOf firstRelease "lib" "1" ++ installOf firstRelease "app" "0" ++
    enableOf firstRelease "lib" ++ enableOf firstRelease "app" ++ upgradeOf oldRelease "app" "1"

/-- `app` at the old release beside the new `lib`, or scheduled before `lib` moved. -/
def strandingRuns : List (List (ModuleAction samplePackages)) :=
  [ -- A rolling upgrade: the new release's `lib` is upgraded before its `app`.
    installOf oldRelease "lib" "1" ++ installOf oldRelease "app" "1" ++
      upgradeOf newRelease "lib" "2",
    -- The install is judged, `lib` is upgraded where `app` is not loaded, the job runs.
    installOf oldRelease "lib" "1" ++ scheduleOf oldRelease "app" "1" ++
      upgradeOf newLibrary "lib" "2" ++
      [.runInstallJob oldRelease ⟨"app", "1"⟩ sampleEnvironment] ]

/-- `app` enabled beside a `lib` that is not. -/
def loneRuns : List (List (ModuleAction samplePackages)) :=
  [ -- Enabled by a deployment that loads a release without dependencies.
    installOf oldRelease "lib" "1" ++ installOf oldRelease "app" "1" ++
      enableOf firstRelease "app",
    -- Upgraded, while enabled, to a release that needs `lib`.
    installOf firstRelease "lib" "1" ++ installOf firstRelease "app" "0" ++
      enableOf firstRelease "app" ++ upgradeOf oldRelease "app" "1" ]

end Runs

end ModuleRun

end Rheostream
