import Rheostream.Modules.Lifecycle

/-!
# What the module operations do

One law for each function of the lifecycle and, from them, the effect of one step on the
workspace's rows: a step leaves all of them alone unless it is the commit of an install job, of
an enable or of a changed upgrade.
-/

namespace Rheostream

open ModuleTables

variable {pkgs : Packages} {D : Deployment pkgs} {t t' : ModuleTables} {id : String}

/-- A chain that ran leaves only the version table of its module changed, and that at head. -/
structure ChainEffect (D : Deployment pkgs) (id : String) (t t' : ModuleTables) : Prop where
  states : t'.states = t.states
  settings : t'.settings = t.settings
  schedules : t'.schedules = t.schedules
  head : t'.revisions.lookup id = D.expectedHead id
  others : ∀ id', id' ≠ id → t'.revisions.lookup id' = t.revisions.lookup id'

namespace ModuleTables

theorem runChain_ok (h : t.runChain D id = .ok t') : ChainEffect D id t t' := by
  unfold runChain at h
  split at h
  next hknown =>
    split at h
    · next hhead =>
      obtain rfl := Except.ok.inj h
      have hempty : D.chain id = [] := by
        simpa [Deployment.expectedHead, List.getLast?_eq_none_iff] using hhead
      have hnone : t.revisions.lookup id = none := by
        cases hlookup : t.revisions.lookup id with
        | none => rfl
        | some head => simp [hlookup, hempty] at hknown
      exact ⟨rfl, rfl, rfl, hnone.trans hhead.symm, fun _ _ => rfl⟩
    · next head hhead =>
      obtain rfl := Except.ok.inj h
      exact ⟨rfl, rfl, rfl, by simp [hhead], fun id' hne => by simp [hne]⟩
  next => cases h

theorem runModuleChain_ok (h : t.runModuleChain D id = .ok t') : ChainEffect D id t t' := by
  unfold runModuleChain at h
  dsimp only at h
  split at h
  · cases h
  next migrated hmigrated =>
    split at h
    · cases h
    · obtain rfl := Except.ok.inj h
      have heffect := runChain_ok hmigrated
      exact ⟨heffect.states, heffect.settings, heffect.schedules, heffect.head, heffect.others⟩

/-- A payload is scheduled only for a module without a row, at the version its dispatcher
loads, with each required dependency recorded in the declared range. -/
theorem moduleInstallHandler_ok {testsResolve : Bool} {p : ModuleInstallPayload}
    (h : t.moduleInstallHandler D id testsResolve = .ok p) :
    D.version p.moduleId = some p.packageVersion ∧ t.states.lookup p.moduleId = none ∧
      ∀ d ∈ (pkgs.manifest p.moduleId p.packageVersion).dependencies, d.optional = false →
        ∃ present, t.states.lookup d.moduleId = some present ∧
          pkgs.contains d.versionRange present.packageVersion = true := by
  unfold moduleInstallHandler at h
  split at h
  · cases h
  next manifest hloaded =>
    split at h
    · cases h
    next hfresh =>
      split at h
      · cases h
      next hnone =>
        split at h
        · obtain rfl := Except.ok.inj h
          refine ⟨Deployment.version_of_loaded hloaded, by simpa using hfresh, ?_⟩
          intro d hd hrequired
          rw [Deployment.shipped_of_loaded hloaded] at hd
          have hpass := List.findSome?_eq_none_iff.mp hnone d hd
          unfold installDependencyRefusal at hpass
          cases hpresent : t.states.lookup d.moduleId with
          | none => simp [hpresent, hrequired] at hpass
          | some present =>
            refine ⟨present, rfl, ?_⟩
            by_contra hrange
            simp only [hpresent, hrequired, hrange] at hpass
            split at hpass <;> simp at hpass
        · cases h

/-- What a successful install job wrote. -/
structure InstallEffect (D : Deployment pkgs) (p : ModuleInstallPayload) (t t' : ModuleTables) :
    Prop where
  loaded : D.version p.moduleId = some p.packageVersion
  absent : t.states.lookup p.moduleId = none
  states : ∃ installedAt, t'.states =
    t.states.insert p.moduleId ⟨p.packageVersion, .installed, installedAt, none⟩
  settings : t'.settings = t.settings
  schedules : t'.schedules = t.schedules
  head : t'.revisions.lookup p.moduleId = D.expectedHead p.moduleId
  others : ∀ id', id' ≠ p.moduleId → t'.revisions.lookup id' = t.revisions.lookup id'

theorem runModuleInstallJob_ok {p : ModuleInstallPayload} {env : ModuleEnvironment}
    (h : t.runModuleInstallJob D p env = .ok t') : InstallEffect D p t t' := by
  unfold runModuleInstallJob at h
  split at h
  · cases h
  next manifest hloaded =>
    split at h
    · cases h
    next hversion =>
      split at h
      · cases h
      split at h
      · cases h
      split at h
      · cases h
      next migrated hmigrated =>
        have heffect := runModuleChain_ok hmigrated
        unfold insertModuleState at h
        split at h
        · cases h
        next written hwritten =>
          split at hwritten
          · cases hwritten
          next habsent =>
            obtain rfl := Except.ok.inj hwritten
            split at h
            · obtain rfl := Except.ok.inj h
              have hstates : migrated.states = t.states := heffect.states
              have hsame : manifest.packageVersion = p.packageVersion := by simpa using hversion
              refine ⟨?_, ?_, ⟨env.now, ?_⟩, heffect.settings, heffect.schedules, heffect.head,
                heffect.others⟩
              · rw [← hsame]
                exact Deployment.version_of_loaded hloaded
              · rw [← hstates]
                simpa using habsent
              · rw [← hstates, ← hsame]
            · cases h

/-- An enable is judged on an enableable row, under the manifest its deployment loads, with
each required dependency enabled. -/
theorem moduleEnableHandler_ok {locked : ModuleStateRow} {now : ℕ} {w : EnableWrites}
    (h : t.moduleEnableHandler D locked id now = .ok w) :
    ∃ manifest, D.loadedManifests.lookup id = some manifest ∧
      w.schedules = t.defaultSchedules id now manifest.schedules ∧
      ∀ d ∈ manifest.dependencies, d.optional = false →
        ∃ present, t.states.lookup d.moduleId = some present ∧ present.state = .enabled := by
  unfold moduleEnableHandler at h
  split at h
  · cases h
  split at h
  · cases h
  next manifest hloaded =>
    split at h
    · cases h
    next hnone =>
      obtain rfl := Except.ok.inj h
      refine ⟨manifest, hloaded, rfl, ?_⟩
      intro d hd hrequired
      have hpass := List.findSome?_eq_none_iff.mp hnone d hd
      cases hpresent : t.states.lookup d.moduleId with
      | none => simp [dependencyNotEnabled, hrequired, hpresent] at hpass
      | some present =>
        refine ⟨present, rfl, ?_⟩
        by_contra hstate
        simp [dependencyNotEnabled, hrequired, hpresent, hstate] at hpass

/-- What a committed enable wrote: its row moved to enabled, whatever else it held. -/
theorem enable_eq_some {w : EnableWrites} {ids : List Uuid} (h : t.enable id w ids = some t') :
    ∃ row, t.states.lookup id = some row ∧
      t'.states = t.states.insert id
        { row with state := .enabled, enabledAt := some w.enabledAt } ∧
      t'.schedules = (ids.zip w.schedules).foldl (fun s row => s.insert row.1 row.2)
        t.schedules ∧ t'.revisions = t.revisions := by
  unfold enable at h
  obtain ⟨states, hstates, rfl⟩ := Option.map_eq_some_iff.mp h
  obtain ⟨row, hrow, -, rfl⟩ := Table.updateRow_eq_some.mp hstates
  exact ⟨row, hrow, rfl, rfl, rfl⟩

/-- An upgrade that passed its checks targets the version its deployment loads, of a recorded
module, with each required dependency recorded in the declared range. -/
theorem planUpgrade_ok {input : UpgradeInput} {plan : UpgradePlan pkgs}
    (h : t.planUpgrade D input = .ok plan) :
    plan.moduleId = input.moduleId ∧
      plan.deployment.version plan.moduleId = some plan.packageVersion ∧
      (∃ row, t.states.lookup plan.moduleId = some row) ∧
      ∀ d ∈ (pkgs.manifest plan.moduleId plan.packageVersion).dependencies, d.optional = false →
        ∃ present, t.states.lookup d.moduleId = some present ∧
          pkgs.contains d.versionRange present.packageVersion = true := by
  unfold planUpgrade at h
  split at h
  · cases h
  next manifest hloaded =>
    split at h
    · cases h
    split at h
    · cases h
    split at h
    · cases h
    next row hrow =>
      split at h
      · cases h
      split at h
      · cases h
      split at h
      · cases h
      next hnone =>
        split at h
        · cases h
        split at h
        · cases h
        split at h
        · cases h
        split at h
        · cases h
        dsimp only at h
        split at h
        · cases h
        · obtain rfl := Except.ok.inj h
          refine ⟨rfl, Deployment.version_of_loaded hloaded, ⟨row, hrow⟩, ?_⟩
          intro d hd hrequired
          rw [Deployment.shipped_of_loaded hloaded] at hd
          have hpass := List.findSome?_eq_none_iff.mp hnone d hd
          unfold upgradeDependencyRefusal at hpass
          cases hpresent : t.states.lookup d.moduleId with
          | none => simp [hpresent, hrequired] at hpass
          | some present =>
            refine ⟨present, rfl, ?_⟩
            by_contra hrange
            simp only [hpresent, hrequired, hrange] at hpass
            split at hpass
            · simp at hpass
            · split at hpass <;> simp at hpass

/-- What a committed upgrade wrote when it changed anything. -/
structure UpgradeEffect (plan : UpgradePlan pkgs) (t t' : ModuleTables) : Prop where
  states : ∀ id, t'.states.lookup id =
    if id = plan.moduleId then (t.states.lookup id).map (setVersion plan.packageVersion).set
    else t.states.lookup id
  settings : t'.settings = t.settings
  schedules : t'.schedules = t.schedules
  head : t'.revisions.lookup plan.moduleId = plan.deployment.expectedHead plan.moduleId
  others : ∀ id', id' ≠ plan.moduleId → t'.revisions.lookup id' = t.revisions.lookup id'

theorem upgrade_ok {plan : UpgradePlan pkgs} {env : ModuleEnvironment}
    (h : t.upgrade plan env = .ok t') : t' = t ∨ UpgradeEffect plan t t' := by
  unfold upgrade at h
  split at h
  · exact Or.inl (Except.ok.inj h).symm
  split at h
  · cases h
  split at h
  · cases h
  split at h
  · cases h
  next migrated hmigrated =>
    have heffect := runModuleChain_ok hmigrated
    split at h
    · cases h
    split at h
    · next hnone =>
      obtain rfl := Except.ok.inj h
      have habsent : t.states.lookup plan.moduleId = none := by
        rw [Table.updateRow_eq_none, heffect.states] at hnone
        cases hrow : t.states.lookup plan.moduleId with
        | none => rfl
        | some row => exact absurd (hnone row hrow) (by simp [setVersion])
      refine Or.inr ⟨fun id => ?_, heffect.settings, heffect.schedules, heffect.head,
        heffect.others⟩
      rw [heffect.states]
      split
      · next hid => rw [hid, habsent, Option.map_none]
      · rfl
    · next states hstates =>
      obtain rfl := Except.ok.inj h
      obtain ⟨row, hrow, -, rfl⟩ := Table.updateRow_eq_some.mp hstates
      rw [heffect.states] at hrow
      refine Or.inr ⟨fun id => ?_, heffect.settings, heffect.schedules, heffect.head,
        heffect.others⟩
      dsimp only
      rw [heffect.states, Table.lookup_insert]
      split
      · next hid => rw [hid, hrow, Option.map_some]
      · rfl

end ModuleTables

namespace ModuleRun

variable {s s' : ModuleRun pkgs}

/-- Everything one step can do. -/
inductive StepCase (s : ModuleRun pkgs) : ModuleAction pkgs → ModuleRun pkgs → Prop where
  /-- A refused or failed attempt that had opened nothing. -/
  | unchanged (a : ModuleAction pkgs) : StepCase s a s
  | dispatched {D : Deployment pkgs} {id : String} {testsResolve : Bool}
      {p : ModuleInstallPayload} (hok : s.tables.moduleInstallHandler D id testsResolve = .ok p) :
      StepCase s (.dispatchInstall D id testsResolve) { s with dispatching := p :: s.dispatching }
  | scheduled {p : ModuleInstallPayload} (hp : p ∈ s.dispatching) :
      StepCase s (.commitDispatch p)
        { s with dispatching := s.dispatching.erase p, jobs := p :: s.jobs }
  | dispatchEnded (p : ModuleInstallPayload) :
      StepCase s (.abortDispatch p) { s with dispatching := s.dispatching.erase p }
  | installed {D : Deployment pkgs} {p : ModuleInstallPayload} {env : ModuleEnvironment}
      {tables : ModuleTables} (hp : p ∈ s.jobs) (heffect : InstallEffect D p s.tables tables) :
      StepCase s (.runInstallJob D p env)
        { s with tables := tables, jobs := s.jobs.erase p }
  | installDropped (p : ModuleInstallPayload) :
      StepCase s (.dropInstallJob p) { s with jobs := s.jobs.erase p }
  | rowLocked {id : String} {row : ModuleStateRow} (hfree : s.rowFree id = true)
      (hrow : s.tables.states.lookup id = some row) :
      StepCase s (.lockEnable id) { s with enabling := s.enabling.insert id ⟨row, none⟩ }
  | judged {D : Deployment pkgs} {id : String} {now : ℕ} {locked : ModuleStateRow}
      {w : EnableWrites} (htx : s.enabling.lookup id = some ⟨locked, none⟩)
      (hok : s.tables.moduleEnableHandler D locked id now = .ok w) :
      StepCase s (.judgeEnable D id now)
        { s with enabling := s.enabling.insert id ⟨locked, some w⟩ }
  | enableEnded (a : ModuleAction pkgs) (id : String) : StepCase s a (s.endEnable id)
  | enabled {id : String} {ids : List Uuid} {locked : ModuleStateRow} {w : EnableWrites}
      {tables : ModuleTables} (htx : s.enabling.lookup id = some ⟨locked, some w⟩)
      (hfresh : s.fresh ids w = true) (hok : s.tables.enable id w ids = some tables) :
      StepCase s (.commitEnable id ids) { s.endEnable id with tables := tables }
  | upgradeBegun {D : Deployment pkgs} {input : UpgradeInput} {plan : UpgradePlan pkgs}
      (hnone : s.upgrading = none) (hfree : s.rowFree input.moduleId = true)
      (hok : s.tables.planUpgrade D input = .ok plan) :
      StepCase s (.beginUpgrade D input) { s with upgrading := some plan }
  | upgraded {env : ModuleEnvironment} {plan : UpgradePlan pkgs} {tables : ModuleTables}
      (hplan : s.upgrading = some plan) (heffect : UpgradeEffect plan s.tables tables) :
      StepCase s (.commitUpgrade env) { s with tables := tables, upgrading := none }
  | upgradeEnded (a : ModuleAction pkgs) : StepCase s a { s with upgrading := none }

theorem step_cases {a : ModuleAction pkgs} (h : s.step a = some s') : StepCase s a s' := by
  cases a with
  | dispatchInstall D id testsResolve =>
    simp only [step] at h
    split at h
    · obtain rfl := Option.some.inj h
      exact .unchanged _
    · next hok =>
      obtain rfl := Option.some.inj h
      exact .dispatched hok
  | commitDispatch p =>
    simp only [step] at h
    split at h
    · next hp =>
      obtain rfl := Option.some.inj h
      exact .scheduled hp
    · cases h
  | abortDispatch p =>
    obtain rfl := Option.some.inj h
    exact .dispatchEnded p
  | runInstallJob D p env =>
    simp only [step] at h
    split at h
    · next hp =>
      split at h
      · obtain rfl := Option.some.inj h
        exact .unchanged _
      · next hok =>
        obtain rfl := Option.some.inj h
        exact .installed hp (runModuleInstallJob_ok hok)
    · cases h
  | dropInstallJob p =>
    obtain rfl := Option.some.inj h
    exact .installDropped p
  | lockEnable id =>
    simp only [step] at h
    split at h
    · next hfree =>
      split at h
      · obtain rfl := Option.some.inj h
        exact .unchanged _
      · next hrow =>
        obtain rfl := Option.some.inj h
        exact .rowLocked hfree hrow
    · cases h
  | judgeEnable D id now =>
    simp only [step] at h
    split at h
    · next htx =>
      split at h
      · obtain rfl := Option.some.inj h
        exact .enableEnded _ id
      · next hok =>
        obtain rfl := Option.some.inj h
        exact .judged htx hok
    · cases h
  | commitEnable id ids =>
    simp only [step] at h
    split at h
    · next htx =>
      split at h
      · next hfresh =>
        split at h
        · obtain rfl := Option.some.inj h
          exact .enableEnded _ id
        · next hok =>
          obtain rfl := Option.some.inj h
          exact .enabled htx hfresh hok
      · cases h
    · cases h
  | abortEnable id =>
    obtain rfl := Option.some.inj h
    exact .enableEnded _ id
  | beginUpgrade D input =>
    simp only [step] at h
    split at h
    · next hfree =>
      have hlocks : s.upgrading = none ∧ s.rowFree input.moduleId = true := by simpa using hfree
      split at h
      · obtain rfl := Option.some.inj h
        exact .unchanged _
      · next hok =>
        obtain rfl := Option.some.inj h
        exact .upgradeBegun hlocks.1 hlocks.2 hok
    · cases h
  | commitUpgrade env =>
    simp only [step] at h
    split at h
    · cases h
    · next plan hplan =>
      split at h
      · obtain rfl := Option.some.inj h
        exact .upgradeEnded _
      · next hok =>
        obtain rfl := Option.some.inj h
        obtain rfl | heffect := upgrade_ok hok
        · exact .upgradeEnded _
        · exact .upgraded hplan heffect
  | abortUpgrade =>
    obtain rfl := Option.some.inj h
    exact .upgradeEnded _

end ModuleRun

end Rheostream
