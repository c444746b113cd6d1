import Mathlib.Data.List.Infix
import Rheostream.Workspaces.ProvisioningLaws

/-!
# Crashes between the commits of a restore

An active workspace is a provisioned one: each walk carries the steps that are still to run, and
every other step has committed. The import is one transaction whose record admits no second one.
From its move to `restoring` on, a workspace stays there until the import has committed, and a
new attempt at the restore completes it.
-/

namespace Rheostream

namespace WorkspaceRun

variable {α : Type} {artifact : List α} {owner : Uuid} {s t : WorkspaceRun α}
  {a : WorkspaceAction}

@[simp] theorem setProcess_registry (s : WorkspaceRun α) (p : ℕ)
    (process : Option WorkspaceProcess) : (s.setProcess p process).registry = s.registry := rfl

@[simp] theorem setProcess_database (s : WorkspaceRun α) (p : ℕ)
    (process : Option WorkspaceProcess) : (s.setProcess p process).database = s.database := rfl

/-- The effect of a provisioning step before the last has committed. -/
def Done (s : WorkspaceRun α) : ProvisionStep → Prop
  | .insertRegistryRow => s.registry.isSome = true
  | .createDatabase => s.database.isSome = true
  | .migrateCore => ∃ db, s.database = some db ∧ db.migrated = true
  | .writeDefaultSettings => ∃ db, s.database = some db ∧ db.settings = true
  | .activate => True

/-- Every step outside `steps` has committed. -/
def DoneBut (s : WorkspaceRun α) (steps : List ProvisionStep) : Prop :=
  ∀ step, step ∉ steps → s.Done step

/-- All the steps that come before the activation have committed. -/
def Provisioned (s : WorkspaceRun α) : Prop := s.DoneBut []

/-- What a process relies on. -/
def Sound (s : WorkspaceRun α) : WorkspaceProcess → Prop
  | .walk w => w.steps <:+ provisionSteps ∧ s.DoneBut w.steps
  | .recheck w => w.steps = remainingAfter (some ProvisionStep.createDatabase.name) ∧
      s.DoneBut w.steps
  | .record step w => w.steps = remainingAfter (some step.name) ∧ s.DoneBut w.steps
  | .migrating => s.Provisioned
  | .finishing => s.isRestored = true
  | _ => True

/-- What the registry row says of the steps. -/
def RegistrySound (s : WorkspaceRun α) : Prop :=
  ∀ row, s.registry = some row →
    (row.state = .provisioning → s.DoneBut (remainingAfter row.stateDetail)) ∧
      (row.state ≠ .provisioning → s.Provisioned)

/-- What was committed stays committed. -/
structure Grows (s t : WorkspaceRun α) : Prop where
  done : ∀ step, s.Done step → t.Done step
  restored : s.isRestored = true → t.isRestored = true

variable {steps : List ProvisionStep}

theorem Grows.doneBut (h : Grows s t) (hs : s.DoneBut steps) :
    t.DoneBut steps := fun step hstep => h.done step (hs step hstep)

theorem Grows.sound {process : WorkspaceProcess} (h : Grows s t) (hs : s.Sound process) :
    t.Sound process := by
  cases process with
  | walk w | recheck w | record step w => exact ⟨hs.1, h.doneBut hs.2⟩
  | migrating => exact h.doneBut hs
  | finishing => exact h.restored hs
  | move | found | importing | returned | refused => trivial

theorem DoneBut.of_cons {step : ProvisionStep} (hs : s.DoneBut (step :: steps)) (hstep : s.Done
      step) : s.DoneBut steps := by
  intro other hother
  by_cases h : other = step
  · exact h ▸ hstep
  · exact hs other (by simp [h, hother])

/-- The rest of a suffix of the steps is what remains after its first step. -/
theorem remainingAfter_of_suffix {step : ProvisionStep} (h : step :: steps <:+ provisionSteps) :
    steps = remainingAfter (some step.name) := by
  have hmem := (List.mem_tails _ _).mpr h
  have hall : ∀ l ∈ provisionSteps.tails, l.head? = some step →
      l.tail = remainingAfter (some step.name) := by
    cases step <;> decide
  exact hall _ hmem rfl

theorem suffix_remainingAfter (stateDetail : Option String) :
    remainingAfter stateDetail <:+ provisionSteps := by
  unfold remainingAfter
  split
  · exact (List.drop_suffix _ _).trans (List.dropWhile_suffix _)
  · exact List.drop_suffix _ _

theorem sound_next {w : Walk} (hsuffix : w.steps <:+ provisionSteps) (hdone : s.DoneBut w.steps) :
    s.Sound w.next := by
  unfold Walk.next
  split
  · split <;> trivial
  · exact ⟨hsuffix, hdone⟩

/-- The invariant of provisioning. -/
structure ProcessesSound (s : WorkspaceRun α) : Prop where
  registry : s.RegistrySound
  processes : ∀ p process, s.processes p = some process → s.Sound process

theorem ProcessesSound.update {p : ℕ} {process : Option WorkspaceProcess}
    (hs : s.ProcessesSound) (hprocesses : t.processes = Function.update s.processes p process)
    (hgrows : Grows s t) (hregistry : t.RegistrySound)
    (hprocess : ∀ next, process = some next → t.Sound next) : t.ProcessesSound := by
  refine ⟨hregistry, fun q other hother => ?_⟩
  rw [hprocesses, Function.update_apply] at hother
  split at hother
  · exact hprocess other hother
  · exact hgrows.sound (hs.processes q other hother)

theorem grows_setProcess (s : WorkspaceRun α) (p : ℕ) (process : Option WorkspaceProcess) :
    Grows s (s.setProcess p process) := by
  refine ⟨fun step h => ?_, id⟩
  cases step <;> exact h

/-- A process that writes nothing goes on to something sound. -/
theorem ProcessesSound.proceeds {p : ℕ} {process : WorkspaceProcess} (hs : s.ProcessesSound)
    (h : Proceeds s p process) : s.Sound process := by
  cases h with
  | returned | refused | found | importing => trivial
  | started account restoring =>
    refine ⟨List.suffix_refl _, fun step hstep => ?_⟩
    cases step <;> simp [provisionSteps] at hstep
  | resumed hrow hstate =>
    exact sound_next (suffix_remainingAfter _) ((hs.registry _ hrow).1 hstate)
  | reran hrow hstate =>
    have hprovisioned := (hs.registry _ hrow).2 (by simp [hstate])
    exact ⟨List.dropWhile_suffix _, fun step _ => hprovisioned step List.not_mem_nil⟩
  | listed hstate =>
    obtain ⟨row, hrow, hactive⟩ := Option.map_eq_some_iff.mp hstate
    exact (hs.registry row hrow).2 (by simp [hactive])
  | agreed hwalk hrow =>
    obtain ⟨hsuffix, hdone⟩ := hs.processes p _ hwalk
    exact sound_next ((List.suffix_cons _ _).trans hsuffix)
      (hdone.of_cons (by simp [Done, hrow]))
  | databaseFound hwalk hdb =>
    obtain ⟨hsuffix, hdone⟩ := hs.processes p _ hwalk
    exact ⟨remainingAfter_of_suffix hsuffix, hdone.of_cons (by simp [Done, hdb])⟩
  | rechecked hcheck => exact hs.processes p (.recheck _) hcheck
  | recordFound hrestored => exact hrestored

section Writes

variable {p : ℕ} {error : Option String} {process : WorkspaceProcess}
  {registry : Option RegistryRow} {database : Option (WorkspaceDatabase α)}

/-- The state after a write. -/
def written (s : WorkspaceRun α) (p : ℕ) (process : WorkspaceProcess)
    (registry : Option RegistryRow) (database : Option (WorkspaceDatabase α)) :
    WorkspaceRun α :=
  { s.setProcess p (some process) with registry := registry, database := database }

theorem Writes.grows (h : Writes s artifact p error process registry database) :
    Grows s (s.written p process registry database) := by
  cases h with
  | inserted hwalk hnone =>
    refine ⟨fun step hdone => ?_, id⟩
    cases step with
    | insertRegistryRow => rfl
    | createDatabase | migrateCore | writeDefaultSettings | activate => exact hdone
  | created hwalk hnone hnew =>
    refine ⟨fun step hdone => ?_, by simp [isRestored, hnone]⟩
    cases step with
    | insertRegistryRow | activate => exact hdone
    | createDatabase => rfl
    | migrateCore | writeDefaultSettings => simp [Done, hnone] at hdone
  | migrated hwalk hdb | defaulted hwalk hdb | imported hprocess hdb hmig =>
    refine ⟨fun step hdone => ?_, by simp [isRestored, written, hdb]⟩
    cases step with
    | insertRegistryRow | activate => exact hdone
    | createDatabase => rfl
    | migrateCore | writeDefaultSettings => simp_all [Done, written]
  | recorded hprocess hrow | activated hprocess hrow | moved hprocess hrow
    | finished hprocess hrow | marked hprocess hrow =>
    refine ⟨fun step hdone => ?_, id⟩
    cases step with
    | insertRegistryRow => rfl
    | createDatabase | migrateCore | writeDefaultSettings | activate => exact hdone

/-- A walk at its last step has everything before it done. -/
theorem ProcessesSound.provisioned_of_activating {w : Walk} (hs : s.ProcessesSound)
    (hwalk : s.processes p = some (.walk ⟨.activate :: w.steps, w.owner, w.restoring⟩)) :
    s.Provisioned := by
  obtain ⟨hsuffix, hdone⟩ := hs.processes p _ hwalk
  have hlast : w.steps = [] := remainingAfter_of_suffix hsuffix
  have hdone := hdone.of_cons trivial
  rwa [hlast] at hdone

theorem ProcessesSound.registry_written (hs : s.ProcessesSound)
    (h : Writes s artifact p error process registry database) :
    (s.written p process registry database).RegistrySound := by
  have hgrows := h.grows
  intro row hrow
  have hset : registry = some row := hrow
  cases h with
  | inserted hwalk hnone =>
    obtain rfl := Option.some.inj hset
    refine ⟨fun _ step hstep => ?_, fun hstate => absurd rfl hstate⟩
    have hfirst : step ∉ provisionSteps.drop 1 := hstep
    cases step with
    | insertRegistryRow => rfl
    | createDatabase | migrateCore | writeDefaultSettings | activate =>
      simp [provisionSteps] at hfirst
  | created | migrated | defaulted | imported =>
    obtain ⟨hprovisioning, hsettled⟩ := hs.registry row hset
    exact ⟨fun hstate => hgrows.doneBut (hprovisioning hstate),
      fun hstate => hgrows.doneBut (hsettled hstate)⟩
  | recorded hrecord hold hstate =>
    obtain rfl := Option.some.inj hset
    obtain ⟨hsteps, hdone⟩ := hs.processes p _ hrecord
    refine ⟨fun _ => ?_, fun hstate => absurd rfl hstate⟩
    rw [hsteps] at hdone
    exact hgrows.doneBut hdone
  | activated hwalk hold hstate =>
    obtain rfl := Option.some.inj hset
    refine ⟨by simp, fun _ => ?_⟩
    exact hgrows.doneBut (hs.provisioned_of_activating hwalk)
  | moved hmove hold hstate | finished hmove hold hstate =>
    obtain rfl := Option.some.inj hset
    refine ⟨by simp, fun _ => ?_⟩
    exact hgrows.doneBut ((hs.registry _ hold).2 (by simp [hstate]))
  | marked hmigrating hold =>
    obtain rfl := Option.some.inj hset
    refine ⟨by simp, fun _ => ?_⟩
    exact hgrows.doneBut (hs.processes p .migrating hmigrating)

theorem ProcessesSound.process_written (hs : s.ProcessesSound)
    (h : Writes s artifact p error process registry database) :
    (s.written p process registry database).Sound process := by
  have hgrows := h.grows
  cases h with
  | inserted hwalk hnone =>
    obtain ⟨hsuffix, hdone⟩ := hs.processes p _ hwalk
    exact sound_next ((List.suffix_cons _ _).trans hsuffix)
      ((hgrows.doneBut hdone).of_cons rfl)
  | created hwalk hnone hnew =>
    obtain ⟨hsuffix, hdone⟩ := hs.processes p _ hwalk
    exact ⟨remainingAfter_of_suffix hsuffix, (hgrows.doneBut hdone).of_cons rfl⟩
  | migrated hwalk hdb | defaulted hwalk hdb =>
    obtain ⟨hsuffix, hdone⟩ := hs.processes p _ hwalk
    exact ⟨remainingAfter_of_suffix hsuffix,
      (hgrows.doneBut hdone).of_cons ⟨_, rfl, rfl⟩⟩
  | recorded hrecord hold hstate =>
    obtain ⟨hsteps, hdone⟩ := hs.processes p _ hrecord
    exact sound_next (hsteps ▸ suffix_remainingAfter _) (hgrows.doneBut hdone)
  | activated hwalk hold hstate =>
    obtain ⟨hsuffix, hdone⟩ := hs.processes p _ hwalk
    exact sound_next ((List.suffix_cons _ _).trans hsuffix)
      ((hgrows.doneBut hdone).of_cons trivial)
  | moved | finished | marked => trivial
  | imported => rfl

end Writes

theorem ProcessesSound.step (hs : s.ProcessesSound) (h : StepCase artifact s a t) :
    t.ProcessesSound := by
  cases h with
  | crashed p =>
    exact hs.update rfl (grows_setProcess s p none) hs.registry (by simp)
  | @proceeded p process a h =>
    have hgrows := grows_setProcess s p (some process)
    refine hs.update rfl hgrows hs.registry fun next hnext => ?_
    obtain rfl := Option.some.inj hnext
    exact hgrows.sound (hs.proceeds h)
  | wrote h =>
    refine hs.update rfl h.grows (hs.registry_written h) fun next hnext => ?_
    obtain rfl := Option.some.inj hnext
    exact hs.process_written h

theorem processesSound_of_reachable (hs : (machine artifact owner).Reachable s) :
    s.ProcessesSound := by
  refine hs.invariant (fun s hinit => ?_) fun s a t _ hs h => hs.step (step_cases h)
  have hinit : Initial s := hinit
  exact ⟨fun row hrow => by simp [hinit.registry] at hrow, by simp [hinit.processes]⟩

/-- The imported rows are those of one import, and there are some only with its record. -/
structure ImportedOnce (artifact : List α) (s : WorkspaceRun α) : Prop where
  rows : ∀ db, s.database = some db → db.imported = if db.restored then artifact else []
  migrated : ∀ db, s.database = some db → db.restored = true → db.migrated = true
  registered : s.database.isSome = true → s.registry.isSome = true

theorem ImportedOnce.step (hs : s.ImportedOnce artifact) (h : StepCase artifact s a t) :
    t.ImportedOnce artifact := by
  cases h with
  | crashed | proceeded => exact ⟨hs.rows, hs.migrated, hs.registered⟩
  | wrote hwrite =>
    cases hwrite with
    | inserted | recorded | activated | moved | finished | marked =>
      exact ⟨hs.rows, hs.migrated, fun _ => rfl⟩
    | created hwalk hnone hrow => exact ⟨by simp, by simp, fun _ => hrow⟩
    | @migrated w db hwalk hold =>
      have hrows := hs.rows db hold
      exact ⟨by simpa using hrows, by simp, fun _ => hs.registered (by simp [hold])⟩
    | @defaulted w db hwalk hold =>
      have hrows := hs.rows db hold
      have hmigrated := hs.migrated db hold
      exact ⟨by simpa using hrows, by simpa using hmigrated,
        fun _ => hs.registered (by simp [hold])⟩
    | @imported db himporting hold hmigrated hnew =>
      have hrows : db.imported = [] := by simpa [hnew] using hs.rows db hold
      exact ⟨by simp [hrows], by simp [hmigrated], fun _ => hs.registered (by simp [hold])⟩

theorem importedOnce_of_reachable (hs : (machine artifact owner).Reachable s) :
    s.ImportedOnce artifact := by
  refine hs.invariant (fun s hinit => ?_) fun s a t _ hs h => hs.step (step_cases h)
  have hinit : Initial s := hinit
  exact ⟨by simp [hinit.database], by simp [hinit.database], by simp [hinit.database]⟩

/-- No step takes an active workspace back to provisioning. -/
theorem active_not_provisioning (h : StepCase artifact s a t) (hactive : s.state = some .active) :
    t.state ≠ some .provisioning := by
  have hne : s.state ≠ some .provisioning := by simp [hactive]
  cases h with
  | crashed | proceeded => exact hne
  | wrote hwrite =>
    cases hwrite with
    | created | migrated | defaulted | imported => exact hne
    | inserted hwalk hnone => simp [state, hnone] at hactive
    | recorded hrecord hrow hstate =>
      obtain hstate | hstate := hstate <;> simp [state, hrow, hstate] at hactive
    | activated | moved | finished | marked => simp [state]

/-- No migration pass marks the workspace unavailable in this step. -/
def Unmarked (s : WorkspaceRun α) : WorkspaceAction → Prop
  | .advance p (some _) => s.processes p ≠ some .migrating
  | _ => True

instance (s : WorkspaceRun α) (a : WorkspaceAction) : Decidable (Unmarked s a) := by
  unfold Unmarked
  split <;> infer_instance

/-- Unless it is marked unavailable, an active workspace is active or restoring for good. -/
theorem settled_of_active (hs : ((machine artifact owner).restrict Unmarked).Reachable s)
    (hactive : s.state = some .active)
    (hrun : ((machine artifact owner).restrict Unmarked).Reaches s t) :
    t.state = some .active ∨ t.state = some .restoring := by
  refine hs.stable (P := fun s => s.state = some .active ∨ s.state = some .restoring)
    (fun s a t _ hs h => ?_) (Or.inl hactive) hrun
  obtain ⟨hunmarked, hstep⟩ := Machine.restrict_step.mp h
  cases step_cases hstep with
  | crashed | proceeded => exact hs
  | wrote hwrite =>
    cases hwrite with
    | created | migrated | defaulted | imported => exact hs
    | inserted hwalk hnone => simp [state, hnone] at hs
    | recorded hrecord hrow hstate =>
      obtain hstate | hstate := hstate <;> simp [state, hrow, hstate] at hs
    | activated | moved | finished => simp [state]
    | marked hmigrating => exact absurd hmigrating hunmarked

/-- No migration pass marks a restoring workspace unavailable in this step. -/
def Undisturbed (s : WorkspaceRun α) : WorkspaceAction → Prop
  | .advance p (some _) => s.processes p = some .migrating → s.state ≠ some .restoring
  | _ => True

instance (s : WorkspaceRun α) (a : WorkspaceAction) : Decidable (Undisturbed s a) := by
  unfold Undisturbed
  split <;> infer_instance

/-- An undisturbed step takes a restoring workspace nowhere before the import has committed. -/
theorem restoring_step (hs : s.ProcessesSound) (hrestoring : s.state = some .restoring)
    (hundisturbed : s.Undisturbed a) (h : StepCase artifact s a t) :
    t.state = some .restoring ∨ t.isRestored = true := by
  cases h with
  | crashed | proceeded => exact Or.inl hrestoring
  | @wrote p process registry database error hwrite =>
    have hgrows := hwrite.grows
    cases hwrite with
    | created | migrated | defaulted | imported => exact Or.inl hrestoring
    | inserted hwalk hnone => simp [state, hnone] at hrestoring
    | recorded hrecord hrow hstate =>
      obtain hstate | hstate := hstate <;> simp [state, hrow, hstate] at hrestoring
    | activated hprocess hrow hstate | moved hprocess hrow hstate =>
      simp [state, hrow, hstate] at hrestoring
    | finished hfinish => exact Or.inr (hgrows.restored (hs.processes p .finishing hfinish))
    | marked hmigrating => exact absurd hrestoring (hundisturbed hmigrating)

theorem restored_stays (h : StepCase artifact s a t) (hs : s.isRestored = true) :
    t.isRestored = true := by
  cases h with
  | crashed | proceeded => exact hs
  | wrote hwrite => exact hwrite.grows.restored hs

theorem restoring_until_imported (hs : ((machine artifact owner).restrict Undisturbed).Reachable s)
    (hrestoring : s.state = some .restoring)
    (hrun : ((machine artifact owner).restrict Undisturbed).Reaches s t) :
    t.state = some .restoring ∨ t.isRestored = true := by
  refine hs.stable (P := fun s => s.state = some .restoring ∨ s.isRestored = true)
    (fun s a t hreach hs h => ?_) (Or.inl hrestoring) hrun
  obtain ⟨hundisturbed, hstep⟩ := Machine.restrict_step.mp h
  obtain hrestoring | hrestored := hs
  · exact restoring_step (processesSound_of_reachable hreach.of_restrict) hrestoring hundisturbed
      (step_cases hstep)
  · exact Or.inr (restored_stays (step_cases hstep) hrestored)

/-- A new attempt of process `p` at the restore that meets no error, alone: it returns, the
artifact is imported once, and a workspace it finds restoring is active. -/
def RetryCompletes (artifact : List α) (owner : Uuid) (s : WorkspaceRun α) (p : ℕ) : Prop :=
  ∃ acts t, (∀ a ∈ acts, a = .restore p ∨ a = .advance p none) ∧
    (machine artifact owner).run s acts = some t ∧ t.processes p = some .returned ∧
      t.isRestored = true ∧ t.imported = artifact ∧
        t.state = if s.state = some .restoring then some .active else s.state

@[simp] theorem setProcess_self (s : WorkspaceRun α) (p : ℕ) (process : Option WorkspaceProcess) :
    (s.setProcess p process).processes p = process := by
  simp [setProcess]

theorem run_restore (artifact : List α) (owner : Uuid) {p : ℕ} {row : RegistryRow}
    (acts : List WorkspaceAction) (hfree : s.processes p = none) (hrow : s.registry = some row) :
    (machine artifact owner).run s (.restore p :: acts) =
      (machine artifact owner).run (s.setProcess p (some (.found row.state))) acts := by
  simp [Machine.run, machine, step, restore, hfree, hrow]

theorem run_advance {p : ℕ} {process : WorkspaceProcess} {acts : List WorkspaceAction}
    (hprocess : s.processes p = some process) (hstep : s.advance artifact p process = some t) :
    (machine artifact owner).run s (.advance p none :: acts) =
      (machine artifact owner).run t acts := by
  simp [Machine.run, machine, step, hprocess, hstep]

/-- The last step of a restore, of a workspace that is restoring. -/
theorem run_finishing {p : ℕ} {row : RegistryRow} (hprocess : s.processes p = some .finishing)
    (hrow : s.registry = some row) (hrestoring : row.state = .restoring) :
    (machine artifact owner).run s [.advance p none] =
      some { s.setProcess p (some .returned) with
        registry := some
          { row with state := .active, stateDetail := some "restore_complete" } } := by
  refine (run_advance hprocess rfl).trans ?_
  simp [Machine.run, compareAndSet, hrow, hrestoring]

/-- A retry of a restore that has its record. -/
theorem retry_of_restored {p : ℕ} (honce : s.ImportedOnce artifact)
    (hfree : s.processes p = none) (hrestored : s.isRestored = true) :
    RetryCompletes artifact owner s p := by
  obtain ⟨db, hdb, hdbRestored⟩ : ∃ db, s.database = some db ∧ db.restored = true := by
    simpa [isRestored, Option.any_eq_true] using hrestored
  obtain ⟨row, hrow⟩ := Option.isSome_iff_exists.mp (honce.registered (by simp [hdb]))
  have hmigrated := honce.migrated db hdb hdbRestored
  have hrows : db.imported = artifact := by simpa [hdbRestored] using honce.rows db hdb
  have hlook : (s.setProcess p (some (.found row.state))).advance artifact p (.found row.state) =
      some ((s.setProcess p (some (.found row.state))).setProcess p
        (some (if row.state = .restoring then .finishing else .returned))) := by
    simp [advance, lookForRecord, hdb, hmigrated, hdbRestored]
  by_cases hrestoring : row.state = .restoring
  · rw [if_pos hrestoring] at hlook
    have hrun := ((run_restore artifact owner _ hfree hrow).trans
      (run_advance (setProcess_self s p _) hlook)).trans
        (run_finishing (setProcess_self _ p _) hrow hrestoring)
    refine ⟨_, _, by simp, hrun, ?_⟩
    simp [setProcess, isRestored, imported, state, hdb, hdbRestored, hrows, hrow, hrestoring]
  · rw [if_neg hrestoring] at hlook
    have hrun := (run_restore artifact owner [.advance p none] hfree hrow).trans
      (run_advance (setProcess_self s p _) hlook)
    refine ⟨_, _, by simp, hrun, ?_⟩
    simp [setProcess, isRestored, imported, state, hdb, hdbRestored, hrows, hrow, hrestoring]

/-- A retry of a restore whose import has not committed. -/
theorem retry_of_restoring {p : ℕ} (hs : s.ProcessesSound) (honce : s.ImportedOnce artifact)
    (hfree : s.processes p = none) (hrestoring : s.state = some .restoring)
    (hnew : s.isRestored = false) : RetryCompletes artifact owner s p := by
  obtain ⟨row, hrow, hstate⟩ := Option.map_eq_some_iff.mp hrestoring
  have hprovisioned := (hs.registry row hrow).2 (by simp [hstate])
  obtain ⟨db, hdb, hmigrated⟩ := hprovisioned .migrateCore List.not_mem_nil
  have hdbNew : db.restored = false := by simpa [isRestored, hdb] using hnew
  have hrows : db.imported = [] := by simpa [hdbNew] using honce.rows db hdb
  have hlook : (s.setProcess p (some (.found row.state))).advance artifact p (.found row.state) =
      some ((s.setProcess p (some (.found row.state))).setProcess p (some .importing)) := by
    simp [advance, lookForRecord, hdb, hmigrated, hdbNew, hstate]
  have himport : ((s.setProcess p (some (.found row.state))).setProcess p
      (some .importing)).advance artifact p .importing =
      some { ((s.setProcess p (some (.found row.state))).setProcess p
        (some .importing)).setProcess p (some .finishing) with
          database := some { db with restored := true, imported := db.imported ++ artifact } } := by
    simp [advance, importArtifact, hdb, hmigrated, hdbNew]
  have hrun := (((run_restore artifact owner _ hfree hrow).trans
    (run_advance (setProcess_self s p _) hlook)).trans
      (run_advance (setProcess_self _ p _) himport)).trans
        (run_finishing (setProcess_self _ p _) hrow hstate)
  refine ⟨_, _, by simp, hrun, ?_⟩
  simp [setProcess, isRestored, imported, state, hrows, hrow, hstate]

theorem imported_of_importedOnce (hs : s.ImportedOnce artifact) :
    s.imported = if s.isRestored then artifact else [] := by
  unfold imported isRestored
  cases hdb : s.database with
  | none => rfl
  | some db => simpa using hs.rows db hdb

/-- What survives a crash at any point. An active workspace is a provisioned one, and goes back
to provisioning only after a migration pass marked it unavailable. The artifact is imported once,
whole, with its record, or not at all. From the move to `restoring` on the workspace is active
only with the import committed, and a retry completes the restore, as long as no migration pass
marks it unavailable while it is restoring. -/
theorem restore_survives_crashes (artifact : List α) (owner : Uuid) :
    (∀ s, (machine artifact owner).Reachable s → s.state = some .active → s.Provisioned) ∧
    (∀ s a t, (machine artifact owner).step s a = some t → s.state = some .active →
      t.state ≠ some .provisioning) ∧
    (∀ s t, ((machine artifact owner).restrict Unmarked).Reachable s → s.state = some .active →
      ((machine artifact owner).restrict Unmarked).Reaches s t → t.state ≠ some .provisioning) ∧
    (∀ s, (machine artifact owner).Reachable s →
      s.imported = if s.isRestored then artifact else []) ∧
    ∀ s t, ((machine artifact owner).restrict Undisturbed).Reachable s →
      s.state = some .restoring → ((machine artifact owner).restrict Undisturbed).Reaches s t →
        (t.state = some .active → t.isRestored = true) ∧
          ∀ p, t.processes p = none → RetryCompletes artifact owner t p := by
  refine ⟨fun s hs hactive => ?_, fun s a t h hactive => ?_, fun s t hs hactive hrun => ?_,
    fun s hs => ?_, fun s t hs hrestoring hrun => ?_⟩
  · obtain ⟨row, hrow, hstate⟩ := Option.map_eq_some_iff.mp hactive
    exact ((processesSound_of_reachable hs).registry row hrow).2 (by simp [hstate])
  · exact active_not_provisioning (step_cases h) hactive
  · obtain hstate | hstate := settled_of_active hs hactive hrun <;> simp [hstate]
  · exact imported_of_importedOnce (importedOnce_of_reachable hs)
  · have hreach := (hs.reaches hrun).of_restrict
    have honce := importedOnce_of_reachable hreach
    have hends := restoring_until_imported hs hrestoring hrun
    constructor
    · intro hactive
      obtain hstate | hrestored := hends
      · simp [hstate] at hactive
      · exact hrestored
    · intro p hfree
      cases hrestored : t.isRestored with
      | true => exact retry_of_restored honce hfree hrestored
      | false =>
        have hstate := hends.resolve_right (by simp [hrestored])
        exact retry_of_restoring (processesSound_of_reachable hreach) honce hfree hstate hrestored

section Runs

/-- Nothing exists. -/
def emptyRun : WorkspaceRun Unit := ⟨none, none, fun _ => none⟩

theorem emptyRun_initial : Initial emptyRun := ⟨rfl, rfl, rfl⟩

/-- The registry state, whether the restore has its record, and where a process is. -/
def observed (s : WorkspaceRun Unit) (p : ℕ) :
    Option WorkspaceState × Bool × Option WorkspaceProcess :=
  (s.state, s.isRestored, s.processes p)

def advances (p count : ℕ) : List WorkspaceAction := List.replicate count (.advance p none)

/-- A fresh restore by process 0 up to its move: eight commits of provisioning. -/
def provisioned : List WorkspaceAction := .restore 0 :: advances 0 8

/-- The law where a fresh restore moved to `restoring` and crashed: the retry completes. -/
theorem restore_survives_crashes_moved :
    ∃ s, (machine [()] 0).Reachable s ∧ s.state = some .restoring ∧ s.isRestored = false ∧
      RetryCompletes [()] 0 s 0 := by
  have hend : (((machine [()] 0).restrict Undisturbed).run emptyRun
      (provisioned ++ advances 0 1 ++ [.crash 0])).map (fun s => s.observed 0) =
        some (some .restoring, false, none) := by decide
  obtain ⟨s, hs, hobserved⟩ := Option.map_eq_some_iff.mp hend
  simp only [observed, Prod.mk.injEq] at hobserved
  obtain ⟨hstate, hnew, hfree⟩ := hobserved
  have hreach := Machine.reachable_of_run emptyRun_initial hs
  have hlaw := (restore_survives_crashes [()] 0).2.2.2.2 s s hreach hstate (.refl s)
  exact ⟨s, hreach.of_restrict, hstate, hnew, hlaw.2 0 hfree⟩

/-- A fresh restore is active before it is restoring, a retry after a crash there or earlier is
refused, and a migration pass that listed the workspace meanwhile leads to an active workspace
without an import. -/
theorem restore_unguarded :
    ((machine [()] 0).run emptyRun provisioned).map (fun s => s.observed 0) =
        some (some .active, false, some .move) ∧
      ((machine [()] 0).run emptyRun
        (provisioned ++ [.crash 0, .restore 1] ++ advances 1 1)).map (fun s => s.observed 1) =
        some (some .active, false, some (.refused "workspace_exists")) ∧
      ((machine [()] 0).run emptyRun
        (.restore 0 :: advances 0 5 ++ [.crash 0, .restore 1] ++ advances 1 1)).map
          (fun s => s.observed 1) =
        some (some .provisioning, false, some (.refused "workspace_exists")) ∧
      ((machine [()] 0).run emptyRun
        (provisioned ++ [.listActive 1] ++ advances 0 1 ++ [.crash 0, .advance 1 (some "error"),
          .repair 2] ++ advances 2 5)).map (fun s => s.observed 2) =
        some (some .active, false, some .returned) := by
  refine ⟨?_, ?_, ?_, ?_⟩ <;> decide

end Runs

end WorkspaceRun

end Rheostream
