import Rheostream.Work.CatchUpSteps

/-!
# The catch-up sweep is coalesced

At most one catch-up job is unfinished at any time, the worker leaves a disabled schedule as
it is, and a visit that takes the due row either finds an unfinished job or commits the job
and the row's next instant together. A visit that finds the row locked skips it.
-/

namespace Rheostream

/-- The action is a member's, not the worker's. -/
def CatchUpAction.isMember : CatchUpAction → Bool
  | .setEnabled .. => true
  | _ => false

/-- The action ends the visit's opening transaction. -/
def CatchUpAction.endsTick (owner : Uuid) : CatchUpAction → Bool
  | .tickCommit o => o = owner
  | .loop (.crash o) => o = owner
  | _ => false

namespace CatchUpState

variable {kinds : Uuid → JobKindRegistry} {declared : Declarations} {workspaceId : String}
  {s t : CatchUpState}

/-- The schedules of `t` are those of `s`, but for rows that were added and instants that were
moved on rows which are not disabled catch-up rows. -/
def KeepsDisabled (s t : CatchUpState) : Prop :=
  ∀ id row, s.schedules.lookup id = some row → ∃ row', t.schedules.lookup id = some row' ∧
    row'.enabled = row.enabled ∧
    (row.jobKind = catchUpJobKind → row.enabled = false → row' = row)

theorem KeepsDisabled.of_eq (h : t.schedules = s.schedules) : s.KeepsDisabled t := by
  intro id row hrow
  exact ⟨row, h ▸ hrow, rfl, fun _ _ => rfl⟩

/-- Rows change only where they are enabled or of another kind, and stay as enabled as they were. -/
theorem KeepsDisabled.of_update {f : Uuid → ScheduleRow → ScheduleRow}
    (h : t.schedules = s.schedules.updateAll f)
    (henabled : ∀ id row, s.schedules.lookup id = some row → (f id row).enabled = row.enabled)
    (hsame : ∀ id row, s.schedules.lookup id = some row → row.jobKind = catchUpJobKind →
      row.enabled = false → f id row = row) : s.KeepsDisabled t := by
  intro id row hrow
  exact ⟨f id row, by simp [h, hrow], henabled id row hrow, hsame id row hrow⟩

theorem KeepsDisabled.around (h : s.Coalesced) {a : LoopAction} {loop : LoopState}
    (ht : s.around a loop = some t) : s.KeepsDisabled t := by
  cases a with
  | enqueue id kind payload now maxAttempts nextRunAt operationId dedupe =>
    simp only [CatchUpState.around, Option.ite_none_left_eq_some, Option.some.injEq] at ht
    exact .of_eq (ht.2 ▸ rfl)
  | acquire owner id now =>
    simp only [CatchUpState.around, Option.ite_none_left_eq_some, Option.some.injEq] at ht
    exact .of_eq (ht.2 ▸ rfl)
  | visit owner now clock ready =>
    obtain rfl := Option.some.inj ht
    apply KeepsDisabled.of_eq
    unfold enterSweep
    split
    · split <;> rfl
    · rfl
  | handlerReturns owner now finishedAt =>
    simp only [CatchUpState.around, Option.ite_none_right_eq_some, Option.some.injEq] at ht
    obtain ⟨-, rfl⟩ := ht
    split
    case isFalse => exact .of_eq rfl
    case isTrue =>
      unfold rearmed
      split
      case h_2 => exact .of_eq rfl
      case h_1 id at_ hsweep =>
        -- The rearmed row is the sweep's own, and enabled as long as the sweep holds it.
        obtain ⟨-, held, hheld, hon⟩ := h.swept owner id (some at_) hsweep
        refine .of_update (f := fun k row => if k = id then
          { row with nextRunAt := at_ + catchUpGap } else row) rfl (fun k row _ => ?_)
            (fun k row hrow _ hoff => ?_)
        · split <;> rfl
        · rw [if_neg]
          rintro rfl
          obtain rfl : held = row := Option.some.inj (hheld.symm.trans hrow)
          rw [hon] at hoff
          cases hoff
  | handlerStops owner => exact .of_eq (Option.some.inj ht ▸ rfl)
  | handlerRaises owner error => exact .of_eq (Option.some.inj ht ▸ rfl)
  | crash owner => exact .of_eq (Option.some.inj ht ▸ rfl)
  | mint id name now => exact .of_eq (Option.some.inj ht ▸ rfl)
  | markRunning id now => exact .of_eq (Option.some.inj ht ▸ rfl)
  | writeRecord id row => exact .of_eq (Option.some.inj ht ▸ rfl)
  | checkpoint owner now => exact .of_eq (Option.some.inj ht ▸ rfl)
  | writeFailureOutcome owner now jitter => exact .of_eq (Option.some.inj ht ▸ rfl)
  | resolveZeroRowcount owner now => exact .of_eq (Option.some.inj ht ▸ rfl)
  | continuation owner mode result now jitter => exact .of_eq (Option.some.inj ht ▸ rfl)
  | continuationRaises owner now jitter error => exact .of_eq (Option.some.inj ht ▸ rfl)
  | requestCancellation id now => exact .of_eq (Option.some.inj ht ▸ rfl)

/-- The worker re-enables nothing and leaves a disabled catch-up row as it is. -/
theorem keepsDisabled (h : s.Coalesced) {a : CatchUpAction} (ha : a.isMember = false)
    (ht : s.step kinds declared workspaceId a = some t) : s.KeepsDisabled t := by
  cases a with
  | loop a =>
    obtain ⟨loop, -, haround⟩ := Option.bind_eq_some_iff.mp ht
    exact .around h haround
  | insertSchedule id d dueAt =>
    simp only [CatchUpState.step, Option.ite_none_right_eq_some] at ht
    obtain ⟨⟨-, hid⟩, ht⟩ := ht
    split at ht
    · exact .of_eq (Option.some.inj ht ▸ rfl)
    · obtain rfl := Option.some.inj ht
      intro k row hrow
      have hne : k ≠ id := by
        rintro rfl
        simp [hrow] at hid
      exact ⟨row, by simp [insertSchedule, hne, hrow], rfl, fun _ _ => rfl⟩
  | setEnabled id enabled dueAt => cases ha
  | setModule moduleId enabled => exact .of_eq (Option.some.inj ht ▸ rfl)
  | tickOpen owner now budget =>
    simp only [CatchUpState.step] at ht
    split at ht
    case h_1 => exact .of_eq (Option.some.inj ht ▸ rfl)
    case h_2 => cases ht
  | tickRow owner job gateOpen =>
    simp only [CatchUpState.step] at ht
    split at ht
    case h_1 => cases ht
    case h_2 tick htick =>
      simp only [Option.ite_none_left_eq_some] at ht
      obtain ⟨-, ht⟩ := ht
      unfold CatchUpState.tickRow at ht
      split at ht
      · cases ht
      · split at ht
        · cases ht
        · split at ht
          · split at ht <;> exact .of_eq (Option.some.inj ht ▸ rfl)
          · split at ht
            · exact .of_eq (Option.some.inj ht ▸ rfl)
            · cases ht
  | tickCheck owner job gateOpen =>
    obtain ⟨tick, -, ht⟩ := Option.bind_eq_some_iff.mp ht
    obtain ⟨id, row, -, -, ⟨-, rfl⟩ | ⟨-, -, rfl⟩⟩ := tickCheck_cases ht
    · exact .of_eq rfl
    · exact .of_eq rfl
  | tickCommit owner =>
    obtain ⟨tick, htick, ht⟩ := Option.bind_eq_some_iff.mp ht
    obtain ⟨-, rfl⟩ := by simpa [CatchUpState.tickCommit] using ht
    refine .of_update (foldl_advanceWrite tick tick.writes s.schedules)
      (fun id row _ => (advanced_keeps tick tick.writes id row).2.2.2)
      (fun id row hrow hkind hoff => ?_)
    apply advanced_of_not_mem
    rintro w hw rfl
    -- A pending write of the catch-up row is for a row that is held, due and so enabled.
    obtain ⟨-, held, hheld, -, hdue⟩ := (h.promised owner tick htick w hw ⟨row, hrow, hkind⟩).holds
    obtain rfl : held = row := Option.some.inj (hheld.symm.trans hrow)
    simp [ScheduleRow.isDue, hoff] at hdue
  | mint owner routed =>
    simp only [CatchUpState.step] at ht
    split at ht
    case h_1 =>
      obtain rfl := Option.some.inj ht
      apply KeepsDisabled.of_eq
      unfold CatchUpState.mint
      split
      · rfl
      · split <;> rfl
    case h_2 => cases ht
  | hold owner =>
    simp only [CatchUpState.step] at ht
    split at ht
    case h_1 =>
      simp only [Option.ite_none_left_eq_some, Option.some.injEq] at ht
      obtain ⟨-, rfl⟩ := ht
      apply KeepsDisabled.of_eq
      unfold CatchUpState.hold
      split <;> rfl
    case h_2 => cases ht
  | rearm owner finishedAt =>
    simp only [CatchUpState.step] at ht
    split at ht
    case h_1 =>
      obtain rfl := Option.some.inj ht
      apply KeepsDisabled.of_eq
      unfold CatchUpState.rearm
      split
      · rfl
      · split <;> rfl
    case h_2 => cases ht

variable {owner : Uuid} {tick : Tick}

/-- A visit that goes on keeps what it has written so far. -/
theorem tick_persists {a : CatchUpAction} (ha : a.endsTick owner = false)
    (ht : s.step kinds declared workspaceId a = some t) (htick : s.ticks owner = some tick) :
    ∃ tick', t.ticks owner = some tick' ∧ tick'.now = tick.now ∧
      ∀ w ∈ tick.writes, w ∈ tick'.writes := by
  have hsame (h : t.ticks = s.ticks) : ∃ tick', t.ticks owner = some tick' ∧
      tick'.now = tick.now ∧ ∀ w ∈ tick.writes, w ∈ tick'.writes :=
    ⟨tick, h ▸ htick, rfl, fun _ hw => hw⟩
  have hset (o : Uuid) (old next : Tick) (h : t.ticks = (s.setTick o (some next)).ticks)
      (hold : s.ticks o = some old) (hnow : next.now = old.now)
      (hwrites : ∀ w ∈ old.writes, w ∈ next.writes) : ∃ tick', t.ticks owner = some tick' ∧
      tick'.now = tick.now ∧ ∀ w ∈ tick.writes, w ∈ tick'.writes := by
    by_cases ho : owner = o
    · subst ho
      obtain rfl : old = tick := Option.some.inj (hold.symm.trans htick)
      exact ⟨next, by simp [h, setTick], hnow, hwrites⟩
    · exact ⟨tick, by simp [h, setTick, Function.update_of_ne ho, htick], rfl, fun _ hw => hw⟩
  cases a with
  | loop a =>
    obtain ⟨loop, -, haround⟩ := Option.bind_eq_some_iff.mp ht
    cases a with
    | enqueue id kind payload now maxAttempts nextRunAt operationId dedupe =>
      simp only [CatchUpState.around, Option.ite_none_left_eq_some, Option.some.injEq] at haround
      exact hsame (haround.2 ▸ rfl)
    | acquire o id now =>
      simp only [CatchUpState.around, Option.ite_none_left_eq_some, Option.some.injEq] at haround
      exact hsame (haround.2 ▸ rfl)
    | visit o now clock ready =>
      obtain rfl := Option.some.inj haround
      apply hsame
      unfold enterSweep
      split
      · split <;> rfl
      · rfl
    | handlerReturns o now finishedAt =>
      simp only [CatchUpState.around, Option.ite_none_right_eq_some, Option.some.injEq] at haround
      exact hsame (haround.2 ▸ rfl)
    | crash o =>
      have hne : owner ≠ o := by
        rintro rfl
        simp [CatchUpAction.endsTick] at ha
      obtain rfl := Option.some.inj haround
      refine ⟨tick, ?_, rfl, fun _ hw => hw⟩
      simpa [setTick, release, endSweep, setSweep, Function.update_of_ne hne] using htick
    | handlerStops o => exact hsame (Option.some.inj haround ▸ rfl)
    | handlerRaises o error => exact hsame (Option.some.inj haround ▸ rfl)
    | mint id name now => exact hsame (Option.some.inj haround ▸ rfl)
    | markRunning id now => exact hsame (Option.some.inj haround ▸ rfl)
    | writeRecord id row => exact hsame (Option.some.inj haround ▸ rfl)
    | checkpoint o now => exact hsame (Option.some.inj haround ▸ rfl)
    | writeFailureOutcome o now jitter => exact hsame (Option.some.inj haround ▸ rfl)
    | resolveZeroRowcount o now => exact hsame (Option.some.inj haround ▸ rfl)
    | continuation o mode result now jitter => exact hsame (Option.some.inj haround ▸ rfl)
    | continuationRaises o now jitter error => exact hsame (Option.some.inj haround ▸ rfl)
    | requestCancellation id now => exact hsame (Option.some.inj haround ▸ rfl)
  | insertSchedule id d dueAt =>
    simp only [CatchUpState.step, Option.ite_none_right_eq_some] at ht
    obtain ⟨-, ht⟩ := ht
    split at ht <;> exact hsame (Option.some.inj ht ▸ rfl)
  | setEnabled id enabled dueAt =>
    simp only [CatchUpState.step, Option.ite_none_left_eq_some, Option.some.injEq] at ht
    exact hsame (ht.2 ▸ rfl)
  | setModule moduleId enabled => exact hsame (Option.some.inj ht ▸ rfl)
  | tickOpen o now budget =>
    simp only [CatchUpState.step] at ht
    split at ht
    case h_1 hidle hnone =>
      obtain rfl := Option.some.inj ht
      have hne : owner ≠ o := by
        rintro rfl
        rw [hnone] at htick
        cases htick
      refine ⟨tick, ?_, rfl, fun _ hw => hw⟩
      simpa [setTick, Function.update_of_ne hne] using htick
    case h_2 => cases ht
  | tickRow o job gateOpen =>
    simp only [CatchUpState.step] at ht
    split at ht
    case h_1 => cases ht
    case h_2 old hold =>
      simp only [Option.ite_none_left_eq_some] at ht
      obtain ⟨-, ht⟩ := ht
      unfold CatchUpState.tickRow at ht
      split at ht
      · cases ht
      · split at ht
        · cases ht
        · split at ht
          · split at ht
            · obtain rfl := Option.some.inj ht
              exact hset o old _ rfl hold rfl fun _ hw => hw
            · obtain rfl := Option.some.inj ht
              exact hset o old _ rfl hold rfl fun _ hw => hw
          · simp only [Option.ite_none_right_eq_some, Option.some.injEq] at ht
            obtain ⟨-, rfl⟩ := ht
            exact hset o old _ rfl hold rfl fun _ hw => List.mem_append_left _ hw
  | tickCheck o job gateOpen =>
    obtain ⟨old, hold, ht⟩ := Option.bind_eq_some_iff.mp ht
    obtain ⟨id, row, -, -, ⟨-, rfl⟩ | ⟨-, -, rfl⟩⟩ := tickCheck_cases ht
    · exact hset o old _ rfl hold rfl fun _ hw => hw
    · exact hset o old _ rfl hold rfl fun _ hw => List.mem_append_left _ hw
  | tickCommit o =>
    have hne : owner ≠ o := by
      rintro rfl
      simp [CatchUpAction.endsTick] at ha
    obtain ⟨old, -, ht⟩ := Option.bind_eq_some_iff.mp ht
    obtain ⟨-, rfl⟩ := by simpa [CatchUpState.tickCommit] using ht
    refine ⟨tick, ?_, rfl, fun _ hw => hw⟩
    simpa [setTick, release, Function.update_of_ne hne] using htick
  | mint o routed =>
    simp only [CatchUpState.step] at ht
    split at ht
    case h_1 =>
      obtain rfl := Option.some.inj ht
      apply hsame
      unfold CatchUpState.mint
      split
      · rfl
      · split <;> rfl
    case h_2 => cases ht
  | hold o =>
    simp only [CatchUpState.step] at ht
    split at ht
    case h_1 =>
      simp only [Option.ite_none_left_eq_some, Option.some.injEq] at ht
      obtain ⟨-, rfl⟩ := ht
      apply hsame
      unfold CatchUpState.hold
      split <;> rfl
    case h_2 => cases ht
  | rearm o finishedAt =>
    simp only [CatchUpState.step] at ht
    split at ht
    case h_1 =>
      obtain rfl := Option.some.inj ht
      apply hsame
      unfold CatchUpState.rearm
      split
      · rfl
      · split <;> rfl
    case h_2 => cases ht

/-- The visit without its end. -/
abbrev visiting (kinds : Uuid → JobKindRegistry) (declared : Declarations) (workspaceId : String)
    (owner : Uuid) : Machine CatchUpState CatchUpAction :=
  (catchUp kinds declared workspaceId).restrict fun _ a => a.endsTick owner = false

theorem reaches_of_visiting (h : (visiting kinds declared workspaceId owner).Reaches s t) :
    (catchUp kinds declared workspaceId).Reaches s t := by
  refine Relation.ReflTransGen.mono ?_ _ _ h
  rintro a b ⟨act, hact⟩
  exact ⟨act, (Machine.restrict_step.mp hact).2⟩

theorem tick_persists_run (htick : s.ticks owner = some tick)
    (h : (visiting kinds declared workspaceId owner).Reaches s t) :
    ∃ tick', t.ticks owner = some tick' ∧ tick'.now = tick.now ∧
      ∀ w ∈ tick.writes, w ∈ tick'.writes := by
  induction h with
  | refl => exact ⟨tick, htick, rfl, fun _ hw => hw⟩
  | tail _ hnext ih =>
    obtain ⟨tick', htick', hnow', hwrites'⟩ := ih
    obtain ⟨a, ha⟩ := hnext
    obtain ⟨hends, hstep⟩ := Machine.restrict_step.mp ha
    obtain ⟨last, hlast, hnow, hwrites⟩ := tick_persists hends hstep htick'
    exact ⟨last, hlast, hnow.trans hnow', fun w hw => hwrites w (hwrites' w hw)⟩

/-- The commit of a pending run of the catch-up row: the job and the next instant together. -/
theorem Coalesced.commit_run (h : s.Coalesced) {job : Uuid} {w : TickWrite}
    (htick : s.ticks owner = some tick) (hw : w ∈ tick.writes)
    (hjob : w.job = some (job, catchUpJobKind)) (ht : s.tickCommit workspaceId owner tick = some t)
    :
    ∃ row, s.schedules.lookup w.schedule = some row ∧ row.isDue tick.now = true ∧
      tick.now < w.nextRunAt ∧ t.schedules.lookup w.schedule =
        some { row with lastRunAt := some tick.now, nextRunAt := w.nextRunAt } ∧
      t.Unfinished job := by
  have hid : s.IsSweep w.schedule := h.isSweep_of_kind htick hw hjob
  have hpromised := h.promised owner tick htick w hw hid
  obtain ⟨-, row, hrow, -, hdue⟩ := hpromised.holds
  obtain ⟨-, rfl⟩ := by simpa [CatchUpState.tickCommit] using ht
  refine ⟨row, hrow, hdue, hpromised.later, ?_, ?_⟩
  · have honly : ∀ w' ∈ tick.writes, w'.schedule = w.schedule → w' = w := fun w' hw' hsame =>
      h.once owner tick htick w' hw' w hw (hsame ▸ hid) hid
    have hadvanced : advanced tick tick.writes w.schedule row =
        { row with lastRunAt := some tick.now, nextRunAt := w.nextRunAt } :=
      advanced_of_mem hw (by simp [hjob]) honly row
    simp [release, CatchUpState.setTick, foldl_advanceWrite, hrow, hadvanced]
  · have hnew : (tick.writes.foldl (enqueueWrite workspaceId tick) s.loop.jobs).lookup job =
        some (enqueuedRow workspaceId tick catchUpJobKind) :=
      foldl_enqueueWrite_of_mem hw hjob (h.distinct owner tick htick)
    exact ⟨_, hnew, rfl, rfl⟩

/-- The catch-up sweep is coalesced. In every reachable state at most one of its jobs is
unfinished. No step but a member's enables a schedule or changes a disabled one of its kind.
A visit takes its row when the row is due and no transaction has it locked, and skips it when one
has, with everything left as it is; having taken it, the visit either sees an unfinished job or
commits a new one together with the row's next instant. -/
theorem catchUp_coalesced (kinds : Uuid → JobKindRegistry) (declared : Declarations)
    (workspaceId : String) (s : CatchUpState)
    (hs : (catchUp kinds declared workspaceId).Reachable s) :
    (∀ job job', s.Unfinished job → s.Unfinished job' → job = job') ∧
    (∀ a t, a.isMember = false → (catchUp kinds declared workspaceId).step s a = some t →
      ∀ id row, s.schedules.lookup id = some row → ∃ row', t.schedules.lookup id = some row' ∧
        row'.enabled = row.enabled ∧
        (row.jobKind = catchUpJobKind → row.enabled = false → row' = row)) ∧
    (∀ owner tick id rest row job gateOpen, s.ticks owner = some tick → tick.claimed = none →
      tick.remaining = id :: rest → s.schedules.lookup id = some row →
      row.jobKind = catchUpJobKind → row.isDue tick.now = true → s.locks id = none →
      ∃ t, (catchUp kinds declared workspaceId).step s (.tickRow owner job gateOpen) = some t ∧
        ∃ tick', t.ticks owner = some tick' ∧ tick'.claimed = some id) ∧
    (∀ owner tick id rest row job gateOpen, s.ticks owner = some tick → tick.claimed = none →
      tick.remaining = id :: rest → s.schedules.lookup id = some row →
      row.jobKind = catchUpJobKind → s.locks id ≠ none →
      (catchUp kinds declared workspaceId).step s (.tickRow owner job gateOpen) =
        some (s.setTick owner (some { tick with remaining := rest }))) ∧
    (∀ owner tick id job gateOpen t u v, s.ticks owner = some tick → tick.claimed = some id →
      (catchUp kinds declared workspaceId).step s (.tickCheck owner job gateOpen) = some t →
      (visiting kinds declared workspaceId owner).Reaches t u →
      (catchUp kinds declared workspaceId).step u (.tickCommit owner) = some v →
      (∃ covering, t.Unfinished covering) ∨
      ∃ row nextRunAt, u.schedules.lookup id = some row ∧ row.isDue tick.now = true ∧
        tick.now < nextRunAt ∧ v.schedules.lookup id =
          some { row with lastRunAt := some tick.now, nextRunAt := nextRunAt } ∧
        ∃ new, v.Unfinished new) := by
  have h : s.Coalesced := .of_reachable hs
  refine ⟨h.unique, fun a t ha ht => keepsDisabled h ha ht, ?_, ?_, ?_⟩
  · intro owner tick id rest row job gateOpen htick hclaimed hremaining hrow hkind hdue hfree
    let next : Tick := { tick with remaining := rest, claimed := some id }
    refine ⟨(s.lock id (.tick owner)).setTick owner (some next), ?_, next, ?_, rfl⟩
    · have hstep : s.step kinds declared workspaceId (.tickRow owner job gateOpen) =
          CatchUpState.tickRow declared s owner tick job gateOpen := by
        simp [CatchUpState.step, htick, hclaimed]
      refine hstep.trans ?_
      simp [CatchUpState.tickRow, hremaining, hrow, hkind, hdue, hfree, next]
    · simp [CatchUpState.setTick]
  · intro owner tick id rest row job gateOpen htick hclaimed hremaining hrow hkind hlocked
    have hheld : (s.locks id).isSome = true := Option.isSome_iff_ne_none.mpr hlocked
    have hstep : s.step kinds declared workspaceId (.tickRow owner job gateOpen) =
        CatchUpState.tickRow declared s owner tick job gateOpen := by
      simp [CatchUpState.step, htick, hclaimed]
    refine hstep.trans ?_
    simp [CatchUpState.tickRow, hremaining, hrow, hkind, hheld]
  · intro owner tick id job gateOpen t u v htick hclaimed hcheck hrun hcommit
    have ht : (catchUp kinds declared workspaceId).Reachable t := hs.step hcheck
    have hu : u.Coalesced := .of_reachable (ht.reaches (reaches_of_visiting hrun))
    obtain ⟨tick₀, htick₀, hcheck⟩ := Option.bind_eq_some_iff.mp hcheck
    obtain rfl : tick = tick₀ := Option.some.inj (htick.symm.trans htick₀)
    obtain ⟨id', row, hclaimed', hrow, hcases⟩ := tickCheck_cases hcheck
    obtain rfl : id = id' := Option.some.inj (hclaimed.symm.trans hclaimed')
    obtain ⟨-, held, hheld, hkind, -⟩ := h.claimed owner tick id htick hclaimed
    obtain rfl : row = held := Option.some.inj (hrow.symm.trans hheld)
    obtain ⟨last, hlast, hcommit⟩ := Option.bind_eq_some_iff.mp hcommit
    -- Where the visit goes on to write the row, the write is there at its commit.
    have hwritten (w : TickWrite) (k : Uuid) (next : Tick) (hnext : t.ticks owner = some next)
        (hnow : next.now = tick.now) (hw : w ∈ next.writes) (hid : w.schedule = id)
        (hjob : w.job = some (k, catchUpJobKind)) :
        ∃ row nextRunAt, u.schedules.lookup id = some row ∧ row.isDue tick.now = true ∧
          tick.now < nextRunAt ∧ v.schedules.lookup id =
            some { row with lastRunAt := some tick.now, nextRunAt := nextRunAt } ∧
          ∃ new, v.Unfinished new := by
      obtain ⟨tick', htick', hnow', hwrites⟩ := tick_persists_run hnext hrun
      obtain rfl : last = tick' := Option.some.inj (hlast.symm.trans htick')
      obtain ⟨found, hfound, hdue, hlater, hafter, hnew⟩ :=
        hu.commit_run hlast (hwrites w hw) hjob hcommit
      rw [hnow', hnow] at hdue hlater hafter
      rw [hid] at hfound hafter
      exact ⟨found, w.nextRunAt, hfound, hdue, hlater, hafter, k, hnew⟩
    obtain ⟨hsees, rfl⟩ | ⟨hsees, -, rfl⟩ := hcases
    · simp only [seesUnfinished, Bool.or_eq_true, List.any_eq_true, unfinishedJobExists,
        Table.existsRow_iff] at hsees
      obtain ⟨k, found, hfound, hunfinished⟩ | ⟨w, hw, hjob⟩ := hsees
      · left
        simp only [Bool.and_eq_true, decide_eq_true_eq] at hunfinished
        exact ⟨k, found, hfound, hunfinished.1.trans hkind, hunfinished.2⟩
      · right
        obtain ⟨⟨k, kind⟩, hjob, hsame⟩ := (Option.any_eq_true _ _).mp hjob
        have hsweep : w.job = some (k, catchUpJobKind) := by
          simp only [decide_eq_true_eq] at hsame
          rw [hjob, hsame, hkind]
        have hid := h.single _ _ (h.isSweep_of_kind htick hw hsweep) ⟨row, hrow, hkind⟩
        exact hwritten w k { tick with claimed := none } (by simp [CatchUpState.setTick]) rfl hw
          hid hsweep
    · right
      let w := tickWrite declared tick id row job gateOpen
      have hjob : w.job = some (job, catchUpJobKind) := by
        simp [w, tickWrite, isGated_sweep declared (h.named id row hrow hkind), hkind]
      apply hwritten w job { tick with claimed := none, writes := tick.writes ++ [w] }
        (by simp [CatchUpState.setTick, w]) rfl
      · simp
      · rfl
      · exact hjob

/-- The sweep's declaration alone. -/
def sweepOnly : Declarations where
  schedules := [memoryRetentionSweep]
  interval_pos := by
    intro d hd
    rw [List.mem_singleton.mp hd]
    simp [memoryRetentionSweep]
  sweep := fun d hd _ => List.mem_singleton.mp hd

def anyKind : Uuid → JobKindRegistry := fun _ => ⟨fun _ => some fun _ => .ok ()⟩

/-- A workspace without schedules. -/
def emptyWorkspace : CatchUpState :=
  ⟨⟨∅, ∅, fun _ => .idle, []⟩, ∅, fun _ => false, fun _ => none, fun _ => none, fun _ => none⟩

/-- The sweep's row is inserted due at instant 0, and the visit of worker 100 takes it. -/
def visitTakesRow : List CatchUpAction :=
  [.insertSchedule 1 memoryRetentionSweep 0, .tickOpen 100 5 8, .tickRow 100 50 true]

/-- The sweep's row as it was inserted. -/
def insertedSweep : ScheduleRow :=
  ⟨"recallatron", "memory_retention_sweep", catchUpJobKind, true, none, 0⟩

/-- A visit that reads the row as due may end with the row as it was and no job at all: while
worker 200 visits, worker 100 has the row locked, and it dies before its commit. -/
theorem lockedOut_visit :
    ∃ s tick t, (catchUp anyKind sweepOnly "w").run emptyWorkspace
        (visitTakesRow ++ [.tickOpen 200 5 8]) = some s ∧
      s.ticks 200 = some tick ∧ tick.remaining = [1] ∧
      s.schedules.lookup 1 = some insertedSweep ∧ insertedSweep.isDue tick.now = true ∧
      (catchUp anyKind sweepOnly "w").run s
        [.tickRow 200 60 true, .loop (.crash 100), .tickCommit 200] = some t ∧
      t.schedules.lookup 1 = some insertedSweep ∧ t.locks 1 = none ∧
      ∀ job, ¬t.Unfinished job := by
  refine ⟨_, _, _, rfl, rfl, rfl, rfl, rfl, rfl, rfl, rfl, ?_⟩
  rintro job ⟨row, hrow, -⟩
  cases hrow

/-- The workspace after that visit has taken the row. -/
def rowTaken : CatchUpState :=
  ((catchUp anyKind sweepOnly "w").run emptyWorkspace visitTakesRow).getD emptyWorkspace

/-- The visit that has the row finds no job of the sweep, and commits one with the next day. -/
theorem catchUp_coalesced_firstVisit :
    ∃ t u, (catchUp anyKind sweepOnly "w").step rowTaken (.tickCheck 100 50 true) = some t ∧
      (catchUp anyKind sweepOnly "w").step t (.tickCommit 100) = some u ∧
      ((∃ covering, t.Unfinished covering) ∨
        ∃ row nextRunAt, t.schedules.lookup 1 = some row ∧ row.isDue 5 = true ∧ 5 < nextRunAt ∧
          u.schedules.lookup 1 = some { row with lastRunAt := some 5, nextRunAt := nextRunAt } ∧
          ∃ new, u.Unfinished new) := by
  have hinit : (catchUp anyKind sweepOnly "w").init emptyWorkspace := by
    refine ⟨rfl, fun _ => rfl, fun _ => rfl, fun _ => rfl, ?_⟩
    intro id row hrow
    cases hrow
  have hrun : (catchUp anyKind sweepOnly "w").run emptyWorkspace visitTakesRow =
      some rowTaken := rfl
  have hreach := Machine.reachable_of_run hinit hrun
  refine ⟨_, _, rfl, rfl, ?_⟩
  exact (catchUp_coalesced anyKind sweepOnly "w" rowTaken hreach).2.2.2.2 100
    ⟨5, 8, [], some 1, []⟩ 1 50 true _ _ _ rfl rfl rfl (Machine.Reaches.refl _) rfl

end CatchUpState

end Rheostream
