import Rheostream.Workspaces.Provisioning

/-!
# What a provisioning process does

A transaction of a process either writes nothing but its own progress, or it makes one of ten
writes to the registry row or the workspace's database. Every invariant of provisioning and
restore is derived from this list.
-/

namespace Rheostream

namespace WorkspaceRun

variable {α : Type} {artifact : List α} {owner : Uuid} {s t : WorkspaceRun α}

/-- How a process gets to where it is without a write. -/
inductive Proceeds (s : WorkspaceRun α) (p : ℕ) : WorkspaceProcess → Prop where
  | returned : Proceeds s p .returned
  | refused (code : String) : Proceeds s p (.refused code)
  | started (account : Uuid) (restoring : Bool) :
      Proceeds s p (.walk ⟨provisionSteps, account, restoring⟩)
  | resumed {row : RegistryRow} (hrow : s.registry = some row)
      (hstate : row.state = .provisioning) :
      Proceeds s p (Walk.mk (remainingAfter row.stateDetail) row.owner false).next
  | reran {row : RegistryRow} (hrow : s.registry = some row) (hstate : row.state = .unavailable) :
      Proceeds s p
        (.walk ⟨provisionSteps.dropWhile fun step => step ≠ .migrateCore, row.owner, false⟩)
  | found {row : RegistryRow} (hrow : s.registry = some row) : Proceeds s p (.found row.state)
  | listed (hstate : s.state = some .active) : Proceeds s p .migrating
  | agreed {w : Walk} {row : RegistryRow}
      (hwalk : s.processes p = some (.walk ⟨.insertRegistryRow :: w.steps, w.owner, w.restoring⟩))
      (hrow : s.registry = some row) : Proceeds s p w.next
  | databaseFound {w : Walk} {db : WorkspaceDatabase α}
      (hwalk : s.processes p = some (.walk ⟨.createDatabase :: w.steps, w.owner, w.restoring⟩))
      (hdb : s.database = some db) : Proceeds s p (.recheck w)
  | rechecked {w : Walk} (hcheck : s.processes p = some (.recheck w)) :
      Proceeds s p (.record .createDatabase w)
  | recordFound (hrestored : s.isRestored = true) : Proceeds s p .finishing
  | importing : Proceeds s p .importing

/-- The writes, each with the process that makes it, the error it met and where that process
goes. Only the migration pass writes when it meets an error. -/
inductive Writes (s : WorkspaceRun α) (artifact : List α) (p : ℕ) : Option String →
    WorkspaceProcess → Option RegistryRow → Option (WorkspaceDatabase α) → Prop where
  | inserted {w : Walk}
      (hwalk : s.processes p = some (.walk ⟨.insertRegistryRow :: w.steps, w.owner, w.restoring⟩))
      (hnone : s.registry = none) :
      Writes s artifact p none w.next
        (some ⟨.provisioning, some ProvisionStep.insertRegistryRow.name, w.owner⟩) s.database
  | created {w : Walk}
      (hwalk : s.processes p = some (.walk ⟨.createDatabase :: w.steps, w.owner, w.restoring⟩))
      (hnone : s.database = none) (hrow : s.registry.isSome = true) :
      Writes s artifact p none (.record .createDatabase w) s.registry
        (some ⟨false, false, false, []⟩)
  | migrated {w : Walk} {db : WorkspaceDatabase α}
      (hwalk : s.processes p = some (.walk ⟨.migrateCore :: w.steps, w.owner, w.restoring⟩))
      (hdb : s.database = some db) :
      Writes s artifact p none (.record .migrateCore w) s.registry
        (some { db with migrated := true })
  | defaulted {w : Walk} {db : WorkspaceDatabase α}
      (hwalk : s.processes p =
        some (.walk ⟨.writeDefaultSettings :: w.steps, w.owner, w.restoring⟩))
      (hdb : s.database = some db) :
      Writes s artifact p none (.record .writeDefaultSettings w) s.registry
        (some { db with settings := true })
  | recorded {step : ProvisionStep} {w : Walk} {row : RegistryRow}
      (hrecord : s.processes p = some (.record step w)) (hrow : s.registry = some row)
      (hstate : row.state = .provisioning ∨ row.state = .unavailable) :
      Writes s artifact p none w.next
        (some { row with state := .provisioning, stateDetail := some step.name }) s.database
  | activated {w : Walk} {row : RegistryRow}
      (hwalk : s.processes p = some (.walk ⟨.activate :: w.steps, w.owner, w.restoring⟩))
      (hrow : s.registry = some row) (hstate : row.state = .provisioning) :
      Writes s artifact p none w.next
        (some { row with state := .active, stateDetail := some ProvisionStep.activate.name })
        s.database
  | moved {row : RegistryRow} (hmove : s.processes p = some .move) (hrow : s.registry = some row)
      (hstate : row.state = .active) :
      Writes s artifact p none .importing
        (some { row with state := .restoring, stateDetail := some "importing_artifact" })
        s.database
  | imported {db : WorkspaceDatabase α} (himporting : s.processes p = some .importing)
      (hdb : s.database = some db) (hmigrated : db.migrated = true)
      (hnew : db.restored = false) :
      Writes s artifact p none .finishing s.registry
        (some { db with restored := true, imported := db.imported ++ artifact })
  | finished {row : RegistryRow} (hfinish : s.processes p = some .finishing)
      (hrow : s.registry = some row) (hstate : row.state = .restoring) :
      Writes s artifact p none .returned
        (some { row with state := .active, stateDetail := some "restore_complete" }) s.database
  | marked {row : RegistryRow} {error : String} (hmigrating : s.processes p = some .migrating)
      (hrow : s.registry = some row) :
      Writes s artifact p (some error) .returned
        (some { row with state := .unavailable, stateDetail := some error }) s.database

/-- Everything one step can do. -/
inductive StepCase (artifact : List α) (s : WorkspaceRun α) :
    WorkspaceAction → WorkspaceRun α → Prop where
  | crashed (p : ℕ) : StepCase artifact s (.crash p) (s.setProcess p none)
  | proceeded {p : ℕ} {process : WorkspaceProcess} (a : WorkspaceAction)
      (h : Proceeds s p process) : StepCase artifact s a (s.setProcess p (some process))
  | wrote {p : ℕ} {process : WorkspaceProcess} {registry : Option RegistryRow}
      {database : Option (WorkspaceDatabase α)} {error : Option String}
      (h : Writes s artifact p error process registry database) :
      StepCase artifact s (.advance p error)
        { s.setProcess p (some process) with registry := registry, database := database }

theorem compareAndSet_cases (s : WorkspaceRun α) (p : ℕ) (expected : List WorkspaceState)
    (new : WorkspaceState) (stateDetail : String) (next : WorkspaceProcess) :
    (∃ code, s.compareAndSet p expected new stateDetail next = s.refuse p code) ∨
      ∃ row, s.registry = some row ∧ row.state ∈ expected ∧
        s.compareAndSet p expected new stateDetail next =
          { s.setProcess p (some next) with
            registry := some { row with state := new, stateDetail := some stateDetail } } := by
  unfold compareAndSet
  split
  · exact Or.inl ⟨_, rfl⟩
  · next row hrow =>
    split
    · next hstate => exact Or.inr ⟨row, hrow, hstate, rfl⟩
    · exact Or.inl ⟨_, rfl⟩

private theorem refuse_cases {a : WorkspaceAction} (p : ℕ) (code : String) :
    StepCase artifact s a (s.refuse p code) := .proceeded a (.refused code)

theorem runStep_cases {p : ℕ} {w : Walk} {step : ProvisionStep}
    (hwalk : s.processes p = some (.walk ⟨step :: w.steps, w.owner, w.restoring⟩)) :
    StepCase artifact s (.advance p none) (s.runStep p w step) := by
  cases step with
  | insertRegistryRow =>
    simp only [runStep, insertRegistryRow]
    split
    · next hnone => exact .wrote (.inserted hwalk hnone)
    · next row hrow =>
      split
      · exact refuse_cases p _
      · split
        · exact refuse_cases p _
        · exact .proceeded _ (.agreed hwalk hrow)
  | createDatabase =>
    simp only [runStep]
    split
    · exact refuse_cases p _
    next hrow =>
      split
      · next hnone =>
        have hsome : s.registry.isSome = true := by
          simpa [Option.isSome_iff_ne_none] using hrow
        exact .wrote (.created hwalk hnone hsome)
      · next db hdb => exact .proceeded _ (.databaseFound hwalk hdb)
  | migrateCore =>
    simp only [runStep]
    split
    · exact refuse_cases p _
    · split
      · exact refuse_cases p _
      · next db hdb => exact .wrote (.migrated hwalk hdb)
  | writeDefaultSettings =>
    simp only [runStep]
    split
    · exact refuse_cases p _
    · split
      · exact refuse_cases p _
      · next db hdb =>
        split
        · exact .wrote (.defaulted hwalk hdb)
        · exact refuse_cases p _
  | activate =>
    simp only [runStep]
    obtain ⟨code, hset⟩ | ⟨row, hrow, hstate, hset⟩ := compareAndSet_cases s p [.provisioning]
      .active ProvisionStep.activate.name w.next
    · rw [hset]
      exact refuse_cases p code
    · rw [hset]
      exact .wrote (.activated hwalk hrow (by simpa using hstate))

theorem advance_cases {p : ℕ} {process : WorkspaceProcess}
    (hprocess : s.processes p = some process) (h : s.advance artifact p process = some t) :
    StepCase artifact s (.advance p none) t := by
  cases process with
  | walk w =>
    obtain ⟨steps, account, restoring⟩ := w
    cases steps with
    | nil => simp [advance] at h
    | cons step steps =>
      obtain rfl := Option.some.inj h
      exact runStep_cases hprocess
  | recheck w =>
    simp only [advance] at h
    split at h
    · obtain rfl := Option.some.inj h
      exact refuse_cases p _
    · split at h
      · obtain rfl := Option.some.inj h
        exact .proceeded _ (.rechecked hprocess)
      · obtain rfl := Option.some.inj h
        exact refuse_cases p _
  | record step w =>
    obtain rfl := Option.some.inj h
    obtain ⟨code, hset⟩ | ⟨row, hrow, hstate, hset⟩ := compareAndSet_cases s p
      [.provisioning, .unavailable] .provisioning step.name w.next
    · rw [hset]
      exact refuse_cases p code
    · rw [hset]
      exact .wrote (.recorded hprocess hrow (by simpa using hstate))
  | move =>
    obtain rfl := Option.some.inj h
    obtain ⟨code, hset⟩ | ⟨row, hrow, hstate, hset⟩ := compareAndSet_cases s p [.active]
      .restoring "importing_artifact" .importing
    · rw [hset]
      exact refuse_cases p code
    · rw [hset]
      exact .wrote (.moved hprocess hrow (by simpa using hstate))
  | found state =>
    obtain rfl := Option.some.inj h
    unfold lookForRecord
    split
    · exact refuse_cases p _
    · next db hdb =>
      split
      · exact refuse_cases p _
      · split
        · next hrestored =>
          split
          · exact .proceeded _ (.recordFound (by simpa [isRestored, hdb] using hrestored))
          · exact .proceeded _ .returned
        · split
          · exact .proceeded _ .importing
          · exact refuse_cases p _
  | importing =>
    obtain rfl := Option.some.inj h
    unfold importArtifact
    split
    · exact refuse_cases p _
    · next db hdb =>
      split
      · exact refuse_cases p _
      next hmigrated =>
        split
        · exact refuse_cases p _
        · next hnew =>
          exact .wrote (.imported hprocess hdb (by simpa using hmigrated) (by simpa using hnew))
  | finishing =>
    obtain rfl := Option.some.inj h
    obtain ⟨code, hset⟩ | ⟨row, hrow, hstate, hset⟩ := compareAndSet_cases s p [.restoring]
      .active "restore_complete" .returned
    · rw [hset]
      exact refuse_cases p code
    · rw [hset]
      exact .wrote (.finished hprocess hrow (by simpa using hstate))
  | migrating =>
    obtain rfl := Option.some.inj h
    exact .proceeded _ .returned
  | returned => cases h
  | refused code => cases h

theorem fail_cases {p : ℕ} {process : WorkspaceProcess} {code : String}
    (hprocess : s.processes p = some process) (h : s.fail p code process = some t) :
    StepCase artifact s (.advance p (some code)) t := by
  cases process with
  | migrating =>
    obtain rfl := Option.some.inj h
    cases hrow : s.registry with
    | none =>
      have hsame : { s.setProcess p (some .returned) with registry := none } =
          s.setProcess p (some .returned) := by simp [setProcess, hrow]
      simp only [Option.map_none, hsame]
      exact .proceeded _ .returned
    | some row => exact .wrote (.marked hprocess hrow)
  | returned => cases h
  | refused other => cases h
  | walk | recheck | record | move | found | importing | finishing =>
    obtain rfl := Option.some.inj h
    exact refuse_cases p code

theorem step_cases {a : WorkspaceAction} (h : s.step artifact owner a = some t) :
    StepCase artifact s a t := by
  cases a with
  | provision p account =>
    simp only [step] at h
    split at h
    · obtain rfl := Option.some.inj h
      exact .proceeded _ (.started account false)
    · cases h
  | repair p =>
    simp only [step] at h
    split at h
    · obtain rfl := Option.some.inj h
      unfold repair
      split
      · exact refuse_cases p _
      · next row hrow =>
        split
        · exact .proceeded _ .returned
        · next hstate => exact .proceeded _ (.resumed hrow hstate)
        · next hstate => exact .proceeded _ (.reran hrow hstate)
        · exact refuse_cases p _
        · exact refuse_cases p _
    · cases h
  | restore p =>
    simp only [step] at h
    split at h
    · obtain rfl := Option.some.inj h
      unfold restore
      split
      · exact .proceeded _ (.started owner true)
      · next row hrow => exact .proceeded _ (.found hrow)
    · cases h
  | listActive p =>
    simp only [step] at h
    split at h
    · next hlist =>
      obtain rfl := Option.some.inj h
      exact .proceeded _ (.listed (by simp at hlist; exact hlist.2))
    · cases h
  | advance p error =>
    simp only [step] at h
    split at h
    · cases h
    · next process hprocess =>
      cases error with
      | none => exact advance_cases hprocess h
      | some code => exact fail_cases hprocess h
  | crash p =>
    obtain rfl := Option.some.inj h
    exact .crashed p

end WorkspaceRun

end Rheostream
