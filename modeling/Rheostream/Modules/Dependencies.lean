import Rheostream.Foundation.Selection
import Rheostream.Modules.LifecycleLaws

/-!
# Module dependencies in every reachable state

What holds of a workspace's recorded modules over every run of installs, enables and upgrades:
the locks keep an open transaction's view of its own row current, a required dependency once
judged stays recorded, and it stays in range as long as the deployments that upgrade it load
their recorded dependents.
-/

namespace Rheostream

open ModuleTables

variable {pkgs : Packages}

namespace ModuleRun

variable {s s' : ModuleRun pkgs} {a : ModuleAction pkgs} {id m : String}

@[simp] theorem endEnable_enabling (s : ModuleRun pkgs) (id id' : String) :
    (s.endEnable id).enabling.lookup id' = if id' = id then none else s.enabling.lookup id' := by
  unfold endEnable
  split
  · next h => rw [h, AList.lookup_erase]
  · next h => rw [AList.lookup_erase_ne h]

theorem rowFree_iff : s.rowFree id = true ↔
    s.enabling.lookup id = none ∧ ∀ plan, s.upgrading = some plan → plan.moduleId ≠ id := by
  unfold rowFree
  rw [Bool.and_eq_true, Option.isNone_iff_eq_none, Option.all_eq_true]
  simp

/-- The locks of the open transactions: an enable's row is the committed one, and no other
transaction has it. -/
structure Locked (s : ModuleRun pkgs) : Prop where
  row : ∀ id tx, s.enabling.lookup id = some tx → s.tables.states.lookup id = some tx.locked
  exclusive : ∀ plan, s.upgrading = some plan → s.enabling.lookup plan.moduleId = none
  loaded : ∀ plan, s.upgrading = some plan →
    plan.deployment.version plan.moduleId = some plan.packageVersion

private theorem Locked.step (hs : s.Locked) (h : StepCase s a s') : s'.Locked := by
  cases h with
  | unchanged | dispatched | scheduled | dispatchEnded | installDropped =>
    exact ⟨hs.row, hs.exclusive, hs.loaded⟩
  | installed hp heffect =>
    refine ⟨fun id tx htx => ?_, hs.exclusive, hs.loaded⟩
    obtain ⟨installedAt, hstates⟩ := heffect.states
    have hrow := hs.row id tx htx
    have hne : id ≠ _ := fun hid => by
      rw [hid, heffect.absent] at hrow
      cases hrow
    simpa [hstates, hne] using hrow
  | rowLocked hfree hrow =>
    obtain ⟨-, hother⟩ := rowFree_iff.mp hfree
    refine ⟨fun id tx htx => ?_, fun plan hplan => ?_, hs.loaded⟩
    · rw [Table.lookup_insert] at htx
      split at htx
      · next hid =>
        obtain rfl := Option.some.inj htx
        exact hid ▸ hrow
      · exact hs.row id tx htx
    · have hne := hother plan hplan
      simpa [hne] using hs.exclusive plan hplan
  | judged htx hok =>
    refine ⟨fun id tx htx' => ?_, fun plan hplan => ?_, hs.loaded⟩
    · rw [Table.lookup_insert] at htx'
      split at htx'
      · next hid =>
        obtain rfl := Option.some.inj htx'
        rw [hid]
        exact hs.row _ ⟨_, none⟩ htx
      · exact hs.row id tx htx'
    · have hnone := hs.exclusive plan hplan
      have hne : plan.moduleId ≠ _ := fun hid => by
        rw [hid, htx] at hnone
        cases hnone
      simpa [hne] using hnone
  | enableEnded a id =>
    refine ⟨fun id' tx htx => ?_, fun plan hplan => ?_, hs.loaded⟩
    · rw [endEnable_enabling] at htx
      split at htx
      · cases htx
      · exact hs.row id' tx htx
    · rw [endEnable_enabling, hs.exclusive plan hplan, ite_self]
  | enabled htx hfresh hok =>
    obtain ⟨row, hrow, hstates, -, -⟩ := enable_eq_some hok
    refine ⟨fun id' tx htx' => ?_, fun plan hplan => ?_, hs.loaded⟩
    · have hlookup := endEnable_enabling s _ id' ▸ htx'
      split at hlookup
      · cases hlookup
      · next hne => simpa [hstates, hne] using hs.row id' tx hlookup
    · exact (endEnable_enabling s _ _).trans (by rw [hs.exclusive plan hplan, ite_self])
  | upgradeBegun hnone hfree hok =>
    obtain ⟨hid, hloaded, -, -⟩ := planUpgrade_ok hok
    refine ⟨hs.row, fun plan hplan => ?_, fun plan hplan => ?_⟩
    · obtain rfl := Option.some.inj hplan
      rw [hid]
      exact (rowFree_iff.mp hfree).1
    · obtain rfl := Option.some.inj hplan
      exact hloaded
  | @upgraded env plan tables hplan heffect =>
    refine ⟨fun id tx htx => ?_, by simp, by simp⟩
    have hnone := hs.exclusive plan hplan
    have hne : id ≠ plan.moduleId := fun hid => by
      rw [← hid, htx] at hnone
      cases hnone
    simpa [heffect.states, hne] using hs.row id tx htx
  | upgradeEnded =>
    exact ⟨hs.row, by simp, by simp⟩

theorem locked_of_reachable (hs : (machine pkgs).Reachable s) : s.Locked := by
  refine hs.invariant (fun s hinit => ?_) fun s a s' _ hlocked h => hlocked.step (step_cases h)
  refine ⟨fun id tx htx => ?_, fun plan hplan => ?_, fun plan hplan => ?_⟩
  · simp [hinit.enabling] at htx
  · simp [hinit.upgrading] at hplan
  · simp [hinit.upgrading] at hplan

/-- Every dependency a version of a module requires is recorded at a version that satisfies
`ok`. -/
def Meets (ok : Dependency → String → Prop) (s : ModuleRun pkgs) (m version : String) : Prop :=
  ∀ d ∈ (pkgs.manifest m version).dependencies, d.optional = false →
    ∃ present, s.tables.states.lookup d.moduleId = some present ∧ ok d present.packageVersion

/-- An install of the module is scheduled: its dispatch passed or its job is queued. -/
def Scheduled (s : ModuleRun pkgs) (p : ModuleInstallPayload) : Prop :=
  p ∈ s.dispatching ∨ p ∈ s.jobs

/-- The versions of a module that were judged: the one it is recorded at, those an install of it
is scheduled for, and the one an open upgrade moves it to. -/
def Judged (s : ModuleRun pkgs) (m version : String) : Prop :=
  (∃ row, s.tables.states.lookup m = some row ∧ row.packageVersion = version) ∨
    (∃ p, s.Scheduled p ∧ p.moduleId = m ∧ p.packageVersion = version) ∨
      ∃ plan, s.upgrading = some plan ∧ plan.moduleId = m ∧ plan.packageVersion = version

theorem Judged.recorded {row : ModuleStateRow} (h : s.tables.states.lookup m = some row) :
    s.Judged m row.packageVersion := Or.inl ⟨row, h, rfl⟩

theorem Judged.scheduled {p : ModuleInstallPayload} (h : s.Scheduled p) :
    s.Judged p.moduleId p.packageVersion := Or.inr (Or.inl ⟨p, h, rfl, rfl⟩)

theorem Judged.upgrading {plan : UpgradePlan pkgs} (h : s.upgrading = some plan) :
    s.Judged plan.moduleId plan.packageVersion := Or.inr (Or.inr ⟨plan, h, rfl, rfl⟩)

variable {version : String}

/-- A version that became judged in a step was found to have its dependencies in range. -/
theorem judged_step (h : StepCase s a s') (hjudged : s'.Judged m version) :
    s.Judged m version ∨
      Meets (fun d v => pkgs.contains d.versionRange v = true) s' m version := by
  obtain ⟨row, hrow, rfl⟩ | ⟨p, hp, rfl, rfl⟩ | ⟨plan, hplan, rfl, rfl⟩ := hjudged
  · cases h with
    | unchanged | dispatched | scheduled | dispatchEnded | installDropped | rowLocked | judged
      | enableEnded | upgradeBegun | upgradeEnded => exact Or.inl (.recorded hrow)
    | @installed D p env tables hp heffect =>
      obtain ⟨installedAt, hstates⟩ := heffect.states
      rw [hstates, Table.lookup_insert] at hrow
      split at hrow
      · next hid =>
        obtain rfl := Option.some.inj hrow
        rw [hid]
        exact Or.inl (.scheduled (Or.inr hp))
      · exact Or.inl (.recorded hrow)
    | enabled htx hfresh hok =>
      obtain ⟨old, hold, hstates, -, -⟩ := enable_eq_some hok
      rw [hstates, Table.lookup_insert] at hrow
      split at hrow
      · next hid =>
        obtain rfl := Option.some.inj hrow
        rw [hid]
        exact Or.inl (Or.inl ⟨old, hold, rfl⟩)
      · exact Or.inl (.recorded hrow)
    | @upgraded env plan tables hplan heffect =>
      rw [heffect.states] at hrow
      split at hrow
      · next hid =>
        obtain ⟨old, -, rfl⟩ := Option.map_eq_some_iff.mp hrow
        rw [hid]
        exact Or.inl (.upgrading hplan)
      · exact Or.inl (.recorded hrow)
  · cases h with
    | unchanged | rowLocked | judged | enableEnded | enabled | upgradeBegun | upgraded
      | upgradeEnded => exact Or.inl (.scheduled hp)
    | installed | installDropped =>
      exact Or.inl (.scheduled (hp.imp_right List.mem_of_mem_erase))
    | dispatchEnded => exact Or.inl (.scheduled (hp.imp_left List.mem_of_mem_erase))
    | scheduled hmem =>
      obtain hp | hp := hp
      · exact Or.inl (.scheduled (Or.inl (List.mem_of_mem_erase hp)))
      · obtain rfl | hp := List.mem_cons.mp hp
        · exact Or.inl (.scheduled (Or.inl hmem))
        · exact Or.inl (.scheduled (Or.inr hp))
    | dispatched hok =>
      obtain hp | hp := hp
      · obtain rfl | hp := List.mem_cons.mp hp
        · exact Or.inr (moduleInstallHandler_ok hok).2.2
        · exact Or.inl (.scheduled (Or.inl hp))
      · exact Or.inl (.scheduled (Or.inr hp))
  · cases h with
    | upgradeBegun hnone hfree hok =>
      obtain rfl := Option.some.inj hplan
      exact Or.inr (planUpgrade_ok hok).2.2.2
    | upgraded | upgradeEnded => simp at hplan
    | unchanged | dispatched | scheduled | dispatchEnded | installed | installDropped | rowLocked
      | judged | enableEnded | enabled => exact Or.inl (.upgrading hplan)

variable {ok : Dependency → String → Prop}

/-- What is met stays met, as long as an upgrade of a dependency keeps it acceptable. -/
theorem Meets.step (hmeets : s.Meets ok m version) (h : StepCase s a s')
    (hupgrade : ∀ env plan, a = .commitUpgrade env → s.upgrading = some plan →
      ∀ d ∈ (pkgs.manifest m version).dependencies, d.optional = false →
      d.moduleId = plan.moduleId → ok d plan.packageVersion)
    : s'.Meets ok m version := by
  intro d hd hrequired
  obtain ⟨present, hpresent, hok⟩ := hmeets d hd hrequired
  cases h with
  | unchanged | dispatched | scheduled | dispatchEnded | installDropped | rowLocked | judged
    | enableEnded | upgradeBegun | upgradeEnded => exact ⟨present, hpresent, hok⟩
  | @installed D p env tables hp heffect =>
    obtain ⟨installedAt, hstates⟩ := heffect.states
    have hne : d.moduleId ≠ p.moduleId := fun hid => by
      rw [hid, heffect.absent] at hpresent
      cases hpresent
    exact ⟨present, by simpa [hstates, hne] using hpresent, hok⟩
  | @enabled id ids locked w tables htx hfresh henable =>
    obtain ⟨old, hold, hstates, -, -⟩ := enable_eq_some henable
    by_cases hid : d.moduleId = id
    · rw [hid, hold] at hpresent
      obtain rfl := Option.some.inj hpresent
      exact ⟨{ old with state := .enabled, enabledAt := some w.enabledAt },
        by rw [hstates, hid, AList.lookup_insert], hok⟩
    · exact ⟨present, by simpa [hstates, hid] using hpresent, hok⟩
  | @upgraded env plan tables hplan heffect =>
    by_cases hid : d.moduleId = plan.moduleId
    · refine ⟨(setVersion plan.packageVersion).set present, ?_,
        hupgrade env plan rfl hplan d hd hrequired hid⟩
      rw [heffect.states, if_pos hid, hpresent, Option.map_some]
    · exact ⟨present, by simpa [heffect.states, hid] using hpresent, hok⟩

theorem Meets.mono {ok ok' : Dependency → String → Prop} (hmeets : s.Meets ok m version)
    (h : ∀ d v, ok d v → ok' d v) : s.Meets ok' m version := by
  intro d hd hrequired
  obtain ⟨present, hpresent, hok⟩ := hmeets d hd hrequired
  exact ⟨present, hpresent, h d _ hok⟩

/-- Every judged version of the module has its dependencies met. -/
def DependenciesMet (ok : Dependency → String → Prop) (m : String) (s : ModuleRun pkgs) : Prop :=
  ∀ version, s.Judged m version → s.Meets ok m version

theorem DependenciesMet.step (hs : DependenciesMet ok m s)
    (hcontains : ∀ d v, pkgs.contains d.versionRange v = true → ok d v) (h : StepCase s a s')
    (hupgrade : ∀ env plan version, a = .commitUpgrade env → s.upgrading = some plan →
      s.Judged m version → ∀ d ∈ (pkgs.manifest m version).dependencies, d.optional = false →
      d.moduleId = plan.moduleId → ok d plan.packageVersion)
    : DependenciesMet ok m s' := by
  intro version hjudged
  obtain hold | hnew := judged_step h hjudged
  · exact (hs version hold).step h fun env plan ha hplan => hupgrade env plan version ha hplan hold
  · exact hnew.mono hcontains

theorem DependenciesMet.init (h : Initial s) : DependenciesMet ok m s := by
  rintro version (⟨row, hrow, -⟩ | ⟨p, hp, -⟩ | ⟨plan, hplan, -⟩)
  · simp [h.states] at hrow
  · simp [Scheduled, h.dispatching, h.jobs] at hp
  · simp [h.upgrading] at hplan

/-- A required dependency, once judged, is recorded for good. -/
theorem recorded_of_reachable (hs : (machine pkgs).Reachable s) :
    DependenciesMet (fun _ _ => True) m s :=
  hs.invariant (fun _ h => .init h) fun _ _ _ _ hmet h =>
    hmet.step (fun _ _ _ => trivial) (step_cases h) fun _ _ _ _ _ _ _ _ _ _ => trivial

/-- The version of `m` declares `d` as a required dependency. -/
def Requires (pkgs : Packages) (m version d : String) : Prop :=
  ∃ dep ∈ (pkgs.manifest m version).dependencies, dep.optional = false ∧ dep.moduleId = d

instance (m version d : String) : Decidable (Requires pkgs m version d) :=
  inferInstanceAs (Decidable (∃ dep ∈ _, _))

/-- An upgrade of `d` is committed only by a deployment that loads `m` at every version at which
`m` is recorded, or an install of it scheduled, and which requires `d`. -/
def Sheltered (m d : String) (s : ModuleRun pkgs) : ModuleAction pkgs → Prop
  | .commitUpgrade _ => ∀ plan ∈ s.upgrading, plan.moduleId = d →
      (∀ row ∈ s.tables.states.lookup m, Requires pkgs m row.packageVersion d →
        plan.deployment.version m = some row.packageVersion) ∧
      ∀ p ∈ s.dispatching ++ s.jobs, p.moduleId = m → Requires pkgs m p.packageVersion d →
        plan.deployment.version m = some p.packageVersion
  | _ => True

instance (m d : String) (s : ModuleRun pkgs) (a : ModuleAction pkgs) :
    Decidable (Sheltered m d s a) := by
  cases a <;> unfold Sheltered <;> infer_instance

/-- A sheltered upgrade of `d` moves it inside the range of every judged version of `m`: the
loader accepted that version of `m` beside the new one of `d`. -/
theorem contains_of_sheltered {d version : String} {env : ModuleEnvironment}
    {plan : UpgradePlan pkgs} (hlocked : s.Locked) (hplan : s.upgrading = some plan)
    (hsheltered : s.Sheltered m d (.commitUpgrade env)) (hjudged : s.Judged m version)
    {dep : Dependency} (hdep : dep ∈ (pkgs.manifest m version).dependencies)
    (hrequired : dep.optional = false) (hd : dep.moduleId = d)
    (hid : dep.moduleId = plan.moduleId) :
    pkgs.contains dep.versionRange plan.packageVersion = true := by
  have hloaded : plan.deployment.version dep.moduleId = some plan.packageVersion := by
    rw [hid]
    exact hlocked.loaded plan hplan
  have hrequires : Requires pkgs m version d := ⟨dep, hdep, hrequired, hd⟩
  obtain ⟨hrecorded, hscheduled⟩ := hsheltered plan hplan (hid.symm.trans hd)
  have hversion : plan.deployment.version m = some version := by
    obtain ⟨row, hrow, rfl⟩ | ⟨p, hp, rfl, rfl⟩ | ⟨plan', hplan', rfl, rfl⟩ := hjudged
    · exact hrecorded row hrow hrequires
    · exact hscheduled p (List.mem_append.mpr hp) rfl hrequires
    · obtain rfl := Option.some.inj (hplan.symm.trans hplan')
      exact hlocked.loaded plan hplan
  exact Deployment.contains_of_loaded hversion hdep hloaded

/-- While the upgrades of `d` are sheltered, every judged version of `m` that requires `d` finds
it recorded in range. -/
theorem inRange_of_reachable {d : String}
    (hs : ((machine pkgs).restrict (Sheltered m d)).Reachable s) :
    DependenciesMet (fun dep v => dep.moduleId = d → pkgs.contains dep.versionRange v = true)
      m s := by
  refine hs.invariant (fun s h => .init h) fun s a s' hreach hmet h => ?_
  obtain ⟨hok, hstep⟩ := Machine.restrict_step.mp h
  have hlocked := locked_of_reachable hreach.of_restrict
  refine hmet.step (fun _ _ hcontains _ => hcontains) (step_cases hstep) ?_
  rintro env plan version rfl hplan hjudged dep hdep hrequired hid hd
  exact contains_of_sheltered hlocked hplan hok hjudged hdep hrequired hd hid

/-- Every dependency a version of a module requires is enabled. -/
def DependenciesEnabled (s : ModuleRun pkgs) (m version : String) : Prop :=
  ∀ d ∈ (pkgs.manifest m version).dependencies, d.optional = false →
    ∃ present, s.tables.states.lookup d.moduleId = some present ∧ present.state = .enabled

/-- Nothing moves a module out of enabled. -/
theorem enabled_stays {row : ModuleStateRow} (hrow : s.tables.states.lookup id = some row)
    (henabled : row.state = .enabled) (h : StepCase s a s') :
    ∃ row', s'.tables.states.lookup id = some row' ∧ row'.state = .enabled := by
  cases h with
  | unchanged | dispatched | scheduled | dispatchEnded | installDropped | rowLocked | judged
    | enableEnded | upgradeBegun | upgradeEnded => exact ⟨row, hrow, henabled⟩
  | @installed D p env tables hp heffect =>
    obtain ⟨installedAt, hstates⟩ := heffect.states
    have hne : id ≠ p.moduleId := fun hid => by
      rw [hid, heffect.absent] at hrow
      cases hrow
    exact ⟨row, by simpa [hstates, hne] using hrow, henabled⟩
  | @enabled id' ids locked w tables htx hfresh hok =>
    obtain ⟨old, hold, hstates, -, -⟩ := enable_eq_some hok
    by_cases hid : id = id'
    · exact ⟨{ old with state := .enabled, enabledAt := some w.enabledAt },
        by rw [hstates, hid, AList.lookup_insert], rfl⟩
    · exact ⟨row, by simpa [hstates, hid] using hrow, henabled⟩
  | @upgraded env plan tables hplan heffect =>
    have hlookup := heffect.states id
    split at hlookup
    · exact ⟨(setVersion plan.packageVersion).set row,
        hlookup.trans (by rw [hrow, Option.map_some]), henabled⟩
    · exact ⟨row, hlookup.trans hrow, henabled⟩

theorem DependenciesEnabled.step (hs : s.DependenciesEnabled m version) (h : StepCase s a s') :
    s'.DependenciesEnabled m version := by
  intro d hd hrequired
  obtain ⟨present, hpresent, henabled⟩ := hs d hd hrequired
  exact enabled_stays hpresent henabled h

/-- An enabled module's dependencies are enabled, and so are those of a module whose enable was
judged and is still to commit. -/
structure EnabledTogether (m : String) (s : ModuleRun pkgs) : Prop where
  recorded : ∀ row, s.tables.states.lookup m = some row → row.state = .enabled →
    s.DependenciesEnabled m row.packageVersion
  judged : ∀ locked w, s.enabling.lookup m = some ⟨locked, some w⟩ →
    s.DependenciesEnabled m locked.packageVersion

/-- The module is enabled only by deployments that load it at its recorded version, and moved
while it is enabled only to versions whose required dependencies are enabled. -/
def Kept (m : String) (s : ModuleRun pkgs) : ModuleAction pkgs → Prop
  | .judgeEnable D id _ => id = m →
      ∀ row ∈ s.tables.states.lookup m, D.version m = some row.packageVersion
  | .commitUpgrade _ => ∀ plan ∈ s.upgrading, plan.moduleId = m →
      ∀ row ∈ s.tables.states.lookup m, row.state = .enabled →
        ∀ d ∈ (pkgs.manifest m plan.packageVersion).dependencies, d.optional = false →
          ∃ present ∈ s.tables.states.lookup d.moduleId, present.state = .enabled
  | _ => True

instance (m : String) (s : ModuleRun pkgs) (a : ModuleAction pkgs) : Decidable (Kept m s a) := by
  cases a <;> unfold Kept <;> infer_instance

/-- An enable judged by a deployment that loads the recorded version found the dependencies of
that version enabled. -/
theorem dependenciesEnabled_of_judged {D : Deployment pkgs} {locked : ModuleStateRow} {now : ℕ}
    {w : EnableWrites} (hversion : D.version m = some locked.packageVersion)
    (hok : s.tables.moduleEnableHandler D locked m now = .ok w) :
    s.DependenciesEnabled m locked.packageVersion := by
  obtain ⟨manifest, hloaded, -, henabled⟩ := moduleEnableHandler_ok hok
  have hsame : manifest.packageVersion = locked.packageVersion := by
    have hmanifest := Deployment.version_of_loaded hloaded
    exact Option.some.inj (hmanifest.symm.trans hversion)
  intro d hd hrequired
  rw [← hsame, Deployment.shipped_of_loaded hloaded] at hd
  exact henabled d hd hrequired

theorem EnabledTogether.step (hs : EnabledTogether m s) (hlocked : s.Locked) (hkept : s.Kept m a)
    (h : StepCase s a s') : EnabledTogether m s' := by
  have hstays : ∀ version, s.DependenciesEnabled m version → s'.DependenciesEnabled m version :=
    fun version hdeps => hdeps.step h
  cases h with
  | unchanged => exact hs
  | dispatched | scheduled | dispatchEnded | installDropped | upgradeBegun | upgradeEnded =>
    exact ⟨hs.recorded, hs.judged⟩
  | @installed D p env tables hp heffect =>
    obtain ⟨installedAt, hstates⟩ := heffect.states
    refine ⟨fun row hrow henabled => ?_, fun locked w htx => hstays _ (hs.judged locked w htx)⟩
    rw [hstates, Table.lookup_insert] at hrow
    split at hrow
    · obtain rfl := Option.some.inj hrow
      cases henabled
    · exact hstays _ (hs.recorded row hrow henabled)
  | @rowLocked id locked hfree hrow =>
    refine ⟨hs.recorded, fun locked' w htx => ?_⟩
    rw [Table.lookup_insert] at htx
    split at htx
    · simp at htx
    · exact hs.judged locked' w htx
  | @judged D id now locked w htx hok =>
    refine ⟨hs.recorded, fun locked' w' htx' => ?_⟩
    rw [Table.lookup_insert] at htx'
    split at htx'
    · next hid =>
      obtain ⟨rfl, -⟩ : locked = locked' ∧ w = w' := by simpa using htx'
      subst hid
      exact dependenciesEnabled_of_judged (hkept rfl locked (hlocked.row _ _ htx)) hok
    · exact hs.judged locked' w' htx'
  | enableEnded a id =>
    refine ⟨hs.recorded, fun locked w htx => ?_⟩
    rw [endEnable_enabling] at htx
    split at htx
    · cases htx
    · exact hs.judged locked w htx
  | @enabled id ids locked w tables htx hfresh hok =>
    obtain ⟨old, hold, hstates, -, -⟩ := enable_eq_some hok
    refine ⟨fun row hrow henabled => ?_, fun locked' w' htx' => ?_⟩
    · rw [hstates, Table.lookup_insert] at hrow
      split at hrow
      · next hid =>
        subst hid
        obtain rfl := Option.some.inj hrow
        have hsame : old = locked := Option.some.inj (hold.symm.trans (hlocked.row _ _ htx))
        subst hsame
        exact hstays _ (hs.judged old w htx)
      · exact hstays _ (hs.recorded row hrow henabled)
    · have hlookup := endEnable_enabling s id m ▸ htx'
      split at hlookup
      · cases hlookup
      · exact hstays _ (hs.judged locked' w' hlookup)
  | @upgraded env plan tables hplan heffect =>
    refine ⟨fun row hrow henabled => ?_, fun locked w htx => hstays _ (hs.judged locked w htx)⟩
    rw [heffect.states] at hrow
    split at hrow
    · next hid =>
      obtain ⟨old, hold, rfl⟩ := Option.map_eq_some_iff.mp hrow
      exact hstays _ (hkept plan hplan hid.symm old hold henabled)
    · exact hstays _ (hs.recorded row hrow henabled)

theorem enabledTogether_of_reachable (hs : ((machine pkgs).restrict (Kept m)).Reachable s) :
    EnabledTogether m s := by
  refine hs.invariant (fun s hinit => ?_) fun s a s' hreach hmet h => ?_
  · have hinit : Initial s := hinit
    exact ⟨by simp [hinit.states], by simp [hinit.enabling]⟩
  · obtain ⟨hok, hstep⟩ := Machine.restrict_step.mp h
    exact hmet.step (locked_of_reachable hreach.of_restrict) hok (step_cases hstep)

end ModuleRun

end Rheostream
