import Rheostream.Work.CatchUpLaws

/-!
# The catch-up invariant, step by step

The commit of a visit publishes what it promised: the job of every row it ran and the row's
next instant, together. Every other step keeps the invariant because it writes no catch-up
row it does not hold and brings no catch-up job back.
-/

namespace Rheostream

namespace CatchUpState

variable {kinds : Uuid → JobKindRegistry} {declared : Declarations} {workspaceId : String}
  {s t : CatchUpState}

/-- The row after the writes of a tick. -/
def advanced (tick : Tick) (writes : List TickWrite) (id : Uuid) (row : ScheduleRow) :
    ScheduleRow :=
  writes.foldl (fun row w => if id = w.schedule then
    { row with
      lastRunAt := if w.job.isSome then some tick.now else row.lastRunAt
      nextRunAt := w.nextRunAt } else row) row

theorem foldl_advanceWrite (tick : Tick) (writes : List TickWrite) (schedules : Schedules) :
    writes.foldl (advanceWrite tick) schedules = schedules.updateAll (advanced tick writes) := by
  induction writes generalizing schedules with
  | nil =>
    apply AList.ext
    simp [advanced, Table.updateAll]
  | cons w writes ih =>
    rw [List.foldl_cons, ih]
    apply AList.ext
    simp [advanceWrite, Table.updateAll, advanced, Function.comp_def]

/-- A tick's writes touch a row's instants and nothing else of it. -/
theorem advanced_keeps (tick : Tick) (writes : List TickWrite) (id : Uuid) (row : ScheduleRow) :
    (advanced tick writes id row).moduleId = row.moduleId ∧
      (advanced tick writes id row).name = row.name ∧
      (advanced tick writes id row).jobKind = row.jobKind ∧
      (advanced tick writes id row).enabled = row.enabled := by
  induction writes generalizing row with
  | nil => exact ⟨rfl, rfl, rfl, rfl⟩
  | cons w writes ih =>
    rw [advanced, List.foldl_cons, ← advanced]
    split
    · exact ih _
    · exact ih row

variable {id : Uuid} {tick : Tick} {writes : List TickWrite}

theorem advanced_of_not_mem (h : ∀ w ∈ writes, w.schedule ≠ id) (row : ScheduleRow) :
    advanced tick writes id row = row := by
  induction writes generalizing row with
  | nil => rfl
  | cons w writes ih =>
    have hne : ¬id = w.schedule := Ne.symm (h w List.mem_cons_self)
    rw [advanced, List.foldl_cons, ← advanced, if_neg hne]
    exact ih (fun w' hw' => h w' (List.mem_cons_of_mem w hw')) row

variable {w : TickWrite}

/-- A row with one write to it has that write's instants. -/
theorem advanced_of_mem (hw : w ∈ writes) (hjob : w.job.isSome = true)
    (honly : ∀ w' ∈ writes, w'.schedule = w.schedule → w' = w) (row : ScheduleRow) :
    advanced tick writes w.schedule row =
      { row with lastRunAt := some tick.now, nextRunAt := w.nextRunAt } := by
  -- The same write twice is the same as once, so the induction only asks whether it is left.
  have hfold (writes : List TickWrite) (honly : ∀ w' ∈ writes, w'.schedule = w.schedule → w' = w)
      (row : ScheduleRow) : advanced tick writes w.schedule row = row ∨
        advanced tick writes w.schedule row =
          { row with lastRunAt := some tick.now, nextRunAt := w.nextRunAt } := by
    induction writes generalizing row with
    | nil => exact .inl rfl
    | cons w' writes ih =>
      have hrest := ih fun v hv => honly v (List.mem_cons_of_mem w' hv)
      rw [advanced, List.foldl_cons, ← advanced]
      split
      case isTrue hid =>
        obtain rfl := honly w' List.mem_cons_self hid.symm
        right
        rw [if_pos hjob]
        obtain hsame | hsame := hrest { row with
          lastRunAt := some tick.now, nextRunAt := w'.nextRunAt } <;> rw [hsame]
      case isFalse => exact hrest row
  induction writes generalizing row with
  | nil => cases hw
  | cons w' writes ih =>
    have honly' : ∀ v ∈ writes, v.schedule = w.schedule → v = w :=
      fun v hv => honly v (List.mem_cons_of_mem w' hv)
    rw [advanced, List.foldl_cons, ← advanced]
    split
    case isTrue hid =>
      obtain rfl := honly w' List.mem_cons_self hid.symm
      rw [if_pos hjob]
      obtain hsame | hsame := hfold writes honly' { row with
        lastRunAt := some tick.now, nextRunAt := w'.nextRunAt } <;> rw [hsame]
    case isFalse hid =>
      obtain rfl | hw := List.mem_cons.mp hw
      · exact absurd rfl hid
      · exact ih hw honly' row

/-- The job a tick's write enqueues. -/
def enqueuedRow (workspaceId : String) (tick : Tick) (kind : String) : JobRow :=
  .enqueued kind (sweepPayload workspaceId) tick.now tick.budget tick.now none

theorem enqueueWrite_of_none (tick : Tick) (jobs : Jobs) (h : w.job = none) :
    enqueueWrite workspaceId tick jobs w = jobs := by
  simp [enqueueWrite, h]

variable {job : Uuid}

theorem lookup_enqueueWrite (tick : Tick) (jobs : Jobs) {kind : String}
    (h : w.job = some (job, kind)) (id : Uuid) : (enqueueWrite workspaceId tick jobs w).lookup id =
      if id = job then some (enqueuedRow workspaceId tick kind) else jobs.lookup id := by
  simp [enqueueWrite, h, enqueueJob, enqueuedRow]

/-- Every job after the commit was there before or is one a write enqueued. -/
theorem foldl_enqueueWrite_cases {jobs : Jobs} {row : JobRow}
    (h : (writes.foldl (enqueueWrite workspaceId tick) jobs).lookup id = some row) :
    jobs.lookup id = some row ∨ ∃ w ∈ writes, ∃ kind, w.job = some (id, kind) ∧
      row = enqueuedRow workspaceId tick kind := by
  induction writes generalizing jobs with
  | nil => exact .inl h
  | cons w writes ih =>
    obtain hold | ⟨w', hw', hrest⟩ := ih h
    · cases hjob : w.job with
      | none => exact .inl (by rwa [enqueueWrite_of_none tick jobs hjob] at hold)
      | some enqueued =>
        obtain ⟨job, kind⟩ := enqueued
        rw [lookup_enqueueWrite tick jobs hjob] at hold
        split at hold
        case isTrue hid =>
          subst hid
          exact .inr ⟨w, List.mem_cons_self, kind, hjob, (Option.some.inj hold).symm⟩
        case isFalse => exact .inl hold
    · exact .inr ⟨w', List.mem_cons_of_mem w hw', hrest⟩

/-- A job that one write enqueues, and no other write does, is there after the commit. -/
theorem foldl_enqueueWrite_of_mem {jobs : Jobs} {kind : String} (hw : w ∈ writes)
    (hjob : w.job = some (id, kind))
    (hdistinct : writes.Pairwise fun w w' => ∀ enqueued ∈ w.job, ∀ enqueued' ∈ w'.job,
      enqueued.1 ≠ enqueued'.1)
    :
    (writes.foldl (enqueueWrite workspaceId tick) jobs).lookup id =
      some (enqueuedRow workspaceId tick kind) := by
  induction writes generalizing jobs with
  | nil => cases hw
  | cons w' writes ih =>
    obtain ⟨hhead, htail⟩ := List.pairwise_cons.mp hdistinct
    obtain rfl | hw := List.mem_cons.mp hw
    · rw [List.foldl_cons]
      have hkeep (rest : List TickWrite) (jobs : Jobs)
          (hrest : ∀ v ∈ rest, ∀ enqueued ∈ v.job, id ≠ enqueued.1) :
          (rest.foldl (enqueueWrite workspaceId tick) jobs).lookup id = jobs.lookup id := by
        induction rest generalizing jobs with
        | nil => rfl
        | cons v rest ih =>
          rw [List.foldl_cons, ih _ fun v' hv' => hrest v' (List.mem_cons_of_mem v hv')]
          cases hv : v.job with
          | none => rw [enqueueWrite_of_none tick jobs hv]
          | some enqueued =>
            rw [lookup_enqueueWrite tick jobs hv, if_neg (hrest v List.mem_cons_self _ hv)]
      rw [hkeep writes _ fun v hv enqueued he => hhead v hv (id, kind) hjob enqueued he,
        lookup_enqueueWrite tick jobs hjob, if_pos rfl]
    · rw [List.foldl_cons]
      exact ih hw htail

variable {owner : Uuid}

/-- A write of a sweep is the only one of its row, and the row is locked for its tick. -/
theorem Coalesced.locked (h : s.Coalesced) (htick : s.ticks owner = some tick)
    (hw : w ∈ tick.writes) (hid : s.IsSweep w.schedule) : s.locks w.schedule = some (.tick owner) :=
  (h.promised owner tick htick w hw hid).holds.1

/-- While one tick is about to write the sweep's row, no other tick is. -/
theorem Coalesced.alone (h : s.Coalesced) {owner' : Uuid} {tick' : Tick} {w' : TickWrite}
    (htick : s.ticks owner = some tick) (hw : w ∈ tick.writes) (hid : s.IsSweep w.schedule)
    (htick' : s.ticks owner' = some tick') (hw' : w' ∈ tick'.writes) (hid' : s.IsSweep w'.schedule)
    : owner' = owner := by
  have hsame : w.schedule = w'.schedule := h.single _ _ hid hid'
  have hlock := h.locked htick hw hid
  rw [hsame, h.locked htick' hw' hid'] at hlock
  simpa using hlock

/-- A job of a tick's write is a catch-up job only if its row is the sweep's. -/
theorem Coalesced.isSweep_of_kind (h : s.Coalesced) (htick : s.ticks owner = some tick)
    (hw : w ∈ tick.writes) (hjob : w.job = some (job, catchUpJobKind)) : s.IsSweep w.schedule := by
  obtain ⟨row, hrow, hkind⟩ := h.kinds owner tick htick w hw
  exact ⟨row, hrow, (hkind (job, catchUpJobKind) hjob).symm⟩

/-- The commit of a visit publishes at most one catch-up job, and only where there was none. -/
theorem Coalesced.commit (h : s.Coalesced) (htick : s.ticks owner = some tick)
    (ht : s.tickCommit workspaceId owner tick = some t) : t.Coalesced := by
  obtain ⟨-, rfl⟩ := by simpa [tickCommit] using ht
  let ended := (s.setTick owner none).release (.tick owner)
  have hended : ended.Coalesced := h.endTick owner
  rw [foldl_advanceWrite]
  have hadvanced : { ended with
      schedules := s.schedules.updateAll (advanced tick tick.writes) }.Coalesced := by
    apply hended.update
    · intro id row
      obtain ⟨hmodule, hname, hkind, -⟩ := advanced_keeps tick tick.writes id row
      exact ⟨hmodule, hname, hkind⟩
    · intro id row owner' now hholds hrow
      apply advanced_of_not_mem
      rintro w hw rfl
      -- The row would be locked by this tick and by another one.
      have hlock := hholds.1
      simp [ended, release, setTick, h.locked htick hw hholds.isSweep] at hlock
    · intro id row owner' _
      exact (advanced_keeps tick tick.writes id row).2.2.2
  have hnew (job : Uuid) (row : JobRow)
      (hrow : (tick.writes.foldl (enqueueWrite workspaceId tick) s.loop.jobs).lookup job = some row)
      (hkind : row.kind = catchUpJobKind) : s.loop.jobs.lookup job = some row ∨
        ∃ w ∈ tick.writes, w.job = some (job, catchUpJobKind) ∧ s.IsSweep w.schedule := by
    obtain hold | ⟨w, hw, kind, hjob, rfl⟩ := foldl_enqueueWrite_cases hrow
    · exact .inl hold
    · obtain rfl : kind = catchUpJobKind := hkind
      exact .inr ⟨w, hw, hjob, h.isSweep_of_kind htick hw hjob⟩
  by_cases hsweep : ∃ w ∈ tick.writes, s.IsSweep w.schedule
  · obtain ⟨w, hw, hid⟩ := hsweep
    have hpromised := h.promised owner tick htick w hw hid
    have hticks (o : Uuid) (other : Tick) (hother : ended.ticks o = some other) :
        o ≠ owner ∧ s.ticks o = some other := by
      obtain ⟨-, hnone⟩ | hold := setTick_cases hother
      · cases hnone
      · exact hold
    have hsame (id : Uuid) : { ended with
        schedules := s.schedules.updateAll (advanced tick tick.writes) }.IsSweep id ↔
        s.IsSweep id := by
      simp [IsSweep, (advanced_keeps tick tick.writes _ _).2.2.1]
    refine ⟨hadvanced.named, hadvanced.single, hadvanced.claimed, hadvanced.kinds, ?_,
      hadvanced.once, hadvanced.distinct, hadvanced.swept, ?_⟩
    · intro o other hother w' hw' hid'
      obtain ⟨hne, hold⟩ := hticks o other hother
      exact absurd (h.alone htick hw hid hold hw' ((hsame _).mp hid')) hne
    · rintro job job' ⟨row, hrow, hkind, hunfinished⟩ ⟨row', hrow', hkind', hunfinished'⟩
      obtain hold | ⟨w₁, hw₁, hjob₁, hid₁⟩ := hnew job row hrow hkind
      · exact absurd ⟨row, hold, hkind, hunfinished⟩ (hpromised.clear job)
      obtain hold | ⟨w₂, hw₂, hjob₂, hid₂⟩ := hnew job' row' hrow' hkind'
      · exact absurd ⟨row', hold, hkind', hunfinished'⟩ (hpromised.clear job')
      obtain rfl := h.once owner tick htick w₁ hw₁ w₂ hw₂ hid₁ hid₂
      simpa [hjob₁] using hjob₂
  · push Not at hsweep
    refine Coalesced.frame (s := { ended with
      schedules := s.schedules.updateAll (advanced tick tick.writes) }) hadvanced rfl ?_ ?_ ?_
    · intro o other hother
      exact .of_same hother fun id hid => hid
    · exact hadvanced.swept
    · intro job row hrow hkind hunfinished
      obtain hold | ⟨w, hw, -, hid⟩ := hnew job row hrow hkind
      · exact ⟨row, hold, hkind, hunfinished⟩
      · exact absurd hid (hsweep w hw)

/-- A module's enable inserts the sweep's row once. -/
theorem Coalesced.insert (h : s.Coalesced) {d : ScheduleDeclaration} {dueAt : ℕ}
    (hd : d ∈ declared.schedules) (hid : s.schedules.lookup id = none)
    (hfresh : ∀ k row, s.schedules.lookup k = some row → row.moduleId = d.moduleId →
      row.name ≠ d.name)
    : (s.insertSchedule id d dueAt).Coalesced := by
  have hlookup (k : Uuid) (row : ScheduleRow) (hrow : s.schedules.lookup k = some row) :
      (s.insertSchedule id d dueAt).schedules.lookup k = some row := by
    have hne : k ≠ id := by
      rintro rfl
      simp [hid] at hrow
    simp [insertSchedule, hne, hrow]
  have hsweep (k : Uuid) (hk : (s.insertSchedule id d dueAt).IsSweep k) :
      s.IsSweep k ∨ k = id ∧ d = memoryRetentionSweep := by
    obtain ⟨row, hrow, hkind⟩ := hk
    rw [insertSchedule, Table.lookup_insert] at hrow
    split at hrow
    case isTrue hk =>
      obtain rfl := Option.some.inj hrow
      exact .inr ⟨hk, declared.sweep d hd (.inl hkind)⟩
    case isFalse => exact .inl ⟨row, hrow, hkind⟩
  have hnone (hsweep : d = memoryRetentionSweep) (k : Uuid) : ¬s.IsSweep k := by
    rintro ⟨row, hrow, hkind⟩
    obtain ⟨hmodule, hname⟩ := h.named k row hrow hkind
    exact hfresh k row hrow (hsweep ▸ hmodule) (hsweep ▸ hname)
  have hold (k : Uuid) (w : TickWrite) (hk : w.schedule = k)
      (hrow : ∃ row, s.schedules.lookup k = some row) : k ≠ id := by
    rintro rfl
    obtain ⟨row, hrow⟩ := hrow
    simp [hid] at hrow
  have hkept (owner : Uuid) (tick : Tick) (htick : s.ticks owner = some tick) (w : TickWrite)
      (hw : w ∈ tick.writes) (hk : (s.insertSchedule id d dueAt).IsSweep w.schedule) :
      s.IsSweep w.schedule := by
    obtain hk | ⟨hk, -⟩ := hsweep _ hk
    · exact hk
    · obtain ⟨row, hrow, -⟩ := h.kinds owner tick htick w hw
      exact absurd hk (hold _ w rfl ⟨row, hrow⟩)
  have hdue (owner now k : Uuid) (hholds : s.HoldsDue owner now k) :
      (s.insertSchedule id d dueAt).HoldsDue owner now k := by
    obtain ⟨hlock, row, hrow, hkind⟩ := hholds
    exact ⟨hlock, row, hlookup k row hrow, hkind⟩
  refine ⟨?_, ?_, ?_, ?_, ?_, ?_, h.distinct, ?_, h.unique⟩
  · intro k row hrow hkind
    rw [insertSchedule, Table.lookup_insert] at hrow
    split at hrow
    · obtain rfl := Option.some.inj hrow
      rw [declared.sweep d hd (.inl hkind)]
      exact ⟨rfl, rfl⟩
    · exact h.named k row hrow hkind
  · intro k k' hk hk'
    obtain hs | ⟨rfl, hd⟩ := hsweep k hk <;> obtain hs' | ⟨rfl, hd'⟩ := hsweep k' hk'
    · exact h.single k k' hs hs'
    · exact absurd hs (hnone hd' k)
    · exact absurd hs' (hnone hd k')
    · rfl
  · intro owner tick k htick hk
    exact hdue owner tick.now k (h.claimed owner tick k htick hk)
  · intro owner tick htick w hw
    obtain ⟨row, hrow, hkind⟩ := h.kinds owner tick htick w hw
    exact ⟨row, hlookup _ row hrow, hkind⟩
  · intro owner tick htick w hw hk
    obtain ⟨hholds, henqueues, hlater, hclear⟩ :=
      h.promised owner tick htick w hw (hkept owner tick htick w hw hk)
    exact ⟨hdue owner tick.now _ hholds, henqueues, hlater, hclear⟩
  · intro owner tick htick w hw w' hw' hk hk'
    exact h.once owner tick htick w hw w' hw' (hkept owner tick htick w hw hk)
      (hkept owner tick htick w' hw' hk')
  · intro owner k finishedAt hrun
    obtain ⟨hlock, row, hrow, henabled⟩ := h.swept owner k finishedAt hrun
    exact ⟨hlock, row, hlookup k row hrow, henabled⟩

/-- A step of the job loop, and whatever transaction ends with it. -/
theorem Coalesced.around (h : s.Coalesced) {a : LoopAction} {loop : LoopState}
    (hjobs : NoNewUnfinished catchUpJobKind s.loop.jobs loop.jobs)
    (ht : s.around a loop = some t) : t.Coalesced := by
  have hnext : { s with loop := loop }.Coalesced := by
    refine Coalesced.frame (t := { s with loop := loop }) h rfl ?_ h.swept hjobs
    exact fun owner tick htick => .of_same htick fun id hid => hid
  cases a with
  | enqueue id kind payload now maxAttempts nextRunAt operationId dedupe =>
    simp only [CatchUpState.around, Option.ite_none_left_eq_some, Option.some.injEq] at ht
    obtain ⟨-, rfl⟩ := ht
    exact hnext
  | acquire owner id now =>
    simp only [CatchUpState.around, Option.ite_none_left_eq_some, Option.some.injEq] at ht
    obtain ⟨-, rfl⟩ := ht
    exact hnext
  | visit owner now clock ready =>
    obtain rfl := Option.some.inj ht
    unfold enterSweep
    split
    · split
      · refine Coalesced.frame (s := { s with loop := loop }) hnext rfl ?_ ?_ (.refl _ _)
        · exact fun o tick htick => .of_same htick fun id hid => hid
        · intro o id finishedAt hrun
          have hne : o ≠ owner := by
            rintro rfl
            simp [setSweep] at hrun
          have hrun' : s.sweeps o = some (.running (some id) finishedAt) := by
            simpa [setSweep, Function.update_of_ne hne] using hrun
          exact h.swept o id finishedAt hrun'
      · exact hnext
    · exact hnext
  | handlerReturns owner now finishedAt =>
    simp only [CatchUpState.around, Option.ite_none_right_eq_some, Option.some.injEq] at ht
    obtain ⟨-, rfl⟩ := ht
    split
    · -- The rearm commits with the run: its row is the sweep's own, and stays enabled.
      have hrearmed : { s with loop := loop, schedules := s.rearmed owner }.Coalesced := by
        unfold rearmed
        split
        case h_1 id at_ hsweep =>
          have hlock := (h.swept owner id (some at_) hsweep).1
          apply hnext.update
          · intro k row
            split <;> exact ⟨rfl, rfl, rfl⟩
          · intro k row o now hholds _
            rw [if_neg]
            rintro rfl
            have hheld : s.locks k = some (.tick o) := hholds.1
            rw [hlock] at hheld
            cases hheld
          · intro k row o _
            split <;> rfl
        case h_2 => exact hnext
      exact hrearmed.endSweep owner
    · exact hnext.endSweep owner
  | handlerStops owner =>
    obtain rfl := Option.some.inj ht
    exact hnext.endSweep owner
  | handlerRaises owner error =>
    obtain rfl := Option.some.inj ht
    exact hnext.endSweep owner
  | crash owner =>
    obtain rfl := Option.some.inj ht
    exact (hnext.endSweep owner).endTick owner
  | mint id name now => exact Option.some.inj ht ▸ hnext
  | markRunning id now => exact Option.some.inj ht ▸ hnext
  | writeRecord id row => exact Option.some.inj ht ▸ hnext
  | checkpoint owner now => exact Option.some.inj ht ▸ hnext
  | writeFailureOutcome owner now jitter => exact Option.some.inj ht ▸ hnext
  | resolveZeroRowcount owner now => exact Option.some.inj ht ▸ hnext
  | continuation owner mode result now jitter => exact Option.some.inj ht ▸ hnext
  | continuationRaises owner now jitter error => exact Option.some.inj ht ▸ hnext
  | requestCancellation id now => exact Option.some.inj ht ▸ hnext

/-- Nothing but a visit's commit brings an unfinished catch-up job. -/
theorem loop_noNew {a : LoopAction} {loop : LoopState} (hloop : s.loop.step kinds a = some loop)
    (ht : s.around a loop = some t) :
    NoNewUnfinished catchUpJobKind s.loop.jobs loop.jobs := by
  by_cases ha : ∃ id kind payload now maxAttempts nextRunAt operationId dedupe,
      a = .enqueue id kind payload now maxAttempts nextRunAt operationId dedupe
  · obtain ⟨id, kind, payload, now, maxAttempts, nextRunAt, operationId, dedupe, rfl⟩ := ha
    simp only [CatchUpState.around, Option.ite_none_left_eq_some] at ht
    obtain ⟨-, rfl⟩ := by simpa [LoopState.step] using hloop
    exact noNewUnfinished_enqueueJob ht.1 _ _ _ _ _ _ _ _
  · refine (loop_written hloop ?_).noNewUnfinished catchUpJobKind
    rintro id kind payload now maxAttempts nextRunAt operationId dedupe rfl
    exact ha ⟨id, kind, payload, now, maxAttempts, nextRunAt, operationId, dedupe, rfl⟩

theorem interval_pos (declared : Declarations) (row : ScheduleRow) : 0 < declared.interval row := by
  unfold Declarations.interval
  split
  · simp [day, seconds]
  case h_2 interval hinterval =>
    obtain ⟨d, hfind, hd⟩ := Option.bind_eq_some_iff.mp hinterval
    have hpos := declared.interval_pos d (List.mem_of_find?_eq_some hfind) interval hd
    simp [seconds]
    omega

variable {row : ScheduleRow}

/-- The sweep's declaration has no gate, and a row without a declaration has none either. -/
theorem isGated_sweep (declared : Declarations)
    (hname : row.moduleId = memoryRetentionSweep.moduleId ∧ row.name = memoryRetentionSweep.name) :
    declared.isGated row = false := by
  unfold Declarations.isGated
  cases hfind : declared.find row with
  | none => rfl
  | some d =>
    have hmem := List.mem_of_find?_eq_some hfind
    have hnamed := List.find?_some hfind
    simp only [Bool.and_eq_true, decide_eq_true_eq] at hnamed
    rw [declared.sweep d hmem (.inr ⟨hnamed.1.trans hname.1, hnamed.2.trans hname.2⟩)]
    rfl

theorem freshJob_iff : s.freshJob tick job = true ↔
    s.loop.jobs.lookup job = none ∧ ∀ w ∈ tick.writes, ∀ enqueued ∈ w.job, enqueued.1 ≠ job := by
  simp only [freshJob, Bool.and_eq_true, List.all_eq_true, Option.isNone_iff_eq_none,
    Option.all_eq_true, decide_eq_true_eq, Option.mem_def]

variable {gateOpen : Bool}

/-- What a write enqueues, if it enqueues anything. -/
theorem mem_tickWrite_job {enqueued : Uuid × String}
    (h : enqueued ∈ (tickWrite declared tick id row job gateOpen).job) :
    enqueued = (job, row.jobKind) := by
  simp only [tickWrite] at h
  split at h
  · cases h
  · exact (Option.some.inj h).symm

/-- Dropping the claim or a due row from a tick is nothing the invariant watches. -/
theorem Coalesced.skip (h : s.Coalesced) {next : Tick} (htick : s.ticks owner = some tick)
    (hnow : next.now = tick.now) (hclaimed : next.claimed = none ∨ next.claimed = tick.claimed)
    (hwrites : next.writes = tick.writes) : (s.setTick owner (some next)).Coalesced := by
  refine Coalesced.frame (t := s.setTick owner (some next)) h rfl ?_ h.swept (.refl _ _)
  intro o other hother
  obtain ⟨rfl, hnext⟩ | ⟨-, hold⟩ := setTick_cases hother
  · obtain rfl := Option.some.inj hnext
    exact .inr ⟨tick, htick, hnow.symm, hwrites.symm, hclaimed, fun id hid => hid⟩
  · exact .of_same hold fun id hid => hid

/-- One due row: skipped, claimed, or written. -/
theorem Coalesced.tickRow (h : s.Coalesced) (htick : s.ticks owner = some tick)
    (hclaimed : tick.claimed = none)
    (ht : CatchUpState.tickRow declared s owner tick job gateOpen = some t) : t.Coalesced := by
  unfold CatchUpState.tickRow at ht
  split at ht
  case h_1 => cases ht
  case h_2 id remaining hremaining =>
    split at ht
    case h_1 => cases ht
    case h_2 row hrow =>
      split at ht
      case isTrue hkind =>
        split at ht
        case isTrue =>
          obtain rfl := Option.some.inj ht
          exact h.skip htick rfl (.inl hclaimed) rfl
        case isFalse hfree =>
          obtain rfl := Option.some.inj ht
          simp only [Bool.or_eq_true, not_or, Bool.not_eq_true, Bool.not_eq_false',
            Option.isSome_eq_false_iff, Option.isNone_iff_eq_none] at hfree
          exact h.claim htick rfl rfl rfl hfree.1 hrow hkind hfree.2
      case isFalse hkind =>
        simp only [Option.ite_none_right_eq_some, Option.some.injEq, freshJob_iff] at ht
        obtain ⟨⟨-, hfresh⟩, rfl⟩ := ht
        refine h.append htick rfl hclaimed rfl ⟨row, hrow, ?_⟩ ?_ ?_
        · intro e he
          rw [mem_tickWrite_job he]
        · intro w' hw' e' he' e he
          rw [mem_tickWrite_job he]
          exact hfresh w' hw' e' he'
        · rintro ⟨row', hrow', hkind'⟩
          obtain rfl : row = row' := Option.some.inj (hrow.symm.trans hrow')
          exact absurd hkind' hkind

/-- What the look for an unfinished job leads to. -/
theorem tickCheck_cases (ht : CatchUpState.tickCheck declared s owner tick job gateOpen = some t) :
    ∃ id row, tick.claimed = some id ∧ s.schedules.lookup id = some row ∧
      (s.seesUnfinished tick row.jobKind = true ∧
          t = s.setTick owner (some { tick with claimed := none }) ∨
        s.seesUnfinished tick row.jobKind = false ∧ s.freshJob tick job = true ∧
          t = s.setTick owner (some { tick with
            claimed := none
            writes := tick.writes ++ [tickWrite declared tick id row job gateOpen] })) := by
  unfold CatchUpState.tickCheck at ht
  split at ht
  case h_1 => cases ht
  case h_2 id hclaimed =>
    split at ht
    case h_1 => cases ht
    case h_2 row hrow =>
      refine ⟨id, row, hclaimed, hrow, ?_⟩
      split at ht
      case isTrue hsees => exact .inl ⟨hsees, (Option.some.inj ht).symm⟩
      case isFalse hsees =>
        simp only [Option.ite_none_right_eq_some, Option.some.injEq] at ht
        exact .inr ⟨by simpa using hsees, ht.1, ht.2.symm⟩

/-- The write of a claimed row that no unfinished job covers is what a commit publishes. -/
theorem Coalesced.promise (h : s.Coalesced) (htick : s.ticks owner = some tick)
    (hclaimed : tick.claimed = some id) (hrow : s.schedules.lookup id = some row)
    (hsees : s.seesUnfinished tick row.jobKind = false) :
    s.Promised owner tick (tickWrite declared tick id row job gateOpen) ∧
      ∀ w ∈ tick.writes, ¬s.IsSweep w.schedule := by
  have hholds := h.claimed owner tick id htick hclaimed
  obtain ⟨-, row', hrow', hkind, -⟩ := hholds
  obtain rfl : row = row' := Option.some.inj (hrow.symm.trans hrow')
  simp only [seesUnfinished, Bool.or_eq_false_iff, unfinishedJobExists, Table.existsRow_eq_false,
    List.any_eq_false] at hsees
  refine ⟨⟨h.claimed owner tick id htick hclaimed, ⟨job, ?_⟩, ?_, ?_⟩, ?_⟩
  · simp [tickWrite, isGated_sweep declared (h.named id row hrow hkind), hkind]
  · have hpos := interval_pos declared row
    simp only [tickWrite]
    omega
  · rintro k ⟨other, hother, hotherKind, hunfinished⟩
    have hnone := hsees.1 k other hother
    simp [hotherKind, hkind, hunfinished] at hnone
  · intro w hw hid
    obtain ⟨k, hk⟩ := (h.promised owner tick htick w hw hid).enqueues
    have hnone := hsees.2 w hw
    simp [hk, hkind] at hnone

theorem Coalesced.tickCheck (h : s.Coalesced) (htick : s.ticks owner = some tick)
    (ht : CatchUpState.tickCheck declared s owner tick job gateOpen = some t) : t.Coalesced := by
  obtain ⟨id, row, hclaimed, hrow, ⟨-, rfl⟩ | ⟨hsees, hfresh, rfl⟩⟩ := tickCheck_cases ht
  · exact h.skip htick rfl (.inl rfl) rfl
  · obtain ⟨-, hdistinct⟩ := freshJob_iff.mp hfresh
    refine h.append htick rfl rfl rfl ⟨row, hrow, ?_⟩ ?_ ?_
    · intro e he
      rw [mem_tickWrite_job he]
    · intro w' hw' e' he' e he
      rw [mem_tickWrite_job he]
      exact hdistinct w' hw' e' he'
    · exact fun _ => h.promise htick hclaimed hrow hsees

/-- A sweep's own bookkeeping, where a capability it carries is for the row it holds. -/
theorem Coalesced.setSweep (h : s.Coalesced) (owner : Uuid) {run : SweepRun}
    (hrun : ∀ id finishedAt, run = .running (some id) finishedAt → s.HoldsEnabled owner id) :
    (s.setSweep owner (some run)).Coalesced := by
  refine Coalesced.frame (t := s.setSweep owner (some run)) h rfl ?_ ?_ (.refl _ _)
  · exact fun o tick htick => .of_same htick fun id hid => hid
  · intro o id finishedAt hsweep
    by_cases ho : o = owner
    · subst ho
      exact hrun id finishedAt (by simpa [CatchUpState.setSweep] using hsweep)
    · apply h.swept o id finishedAt
      simpa [CatchUpState.setSweep, Function.update_of_ne ho] using hsweep

theorem Coalesced.mint (h : s.Coalesced) (owner : Uuid) (job : LeasedJob) (routed : Bool) :
    (s.mint owner job routed).Coalesced := by
  unfold CatchUpState.mint
  split
  · exact h.setSweep owner (by simp)
  · split <;> exact h.setSweep owner (by simp)

/-- The row a sweep waits for is locked by it once it is free, while it is enabled. -/
theorem Coalesced.hold (h : s.Coalesced) (job : LeasedJob) (hfree : s.locks id = none) :
    (s.hold owner job id).Coalesced := by
  unfold CatchUpState.hold
  split
  case isTrue henabled =>
    have hlocks (k : Uuid) (holder : LockHolder) (hheld : s.locks k = some holder) :
        (s.lock id (.sweep owner)).locks k = some holder := by
      have hne : k ≠ id := by
        rintro rfl
        simp [hfree] at hheld
      simpa [lock, Function.update_of_ne hne] using hheld
    have hlocked : (s.lock id (.sweep owner)).Coalesced := by
      refine Coalesced.frame (t := s.lock id (.sweep owner)) h rfl ?_ ?_ (.refl _ _)
      · exact fun o tick htick => .of_same htick fun k hk => hlocks k _ hk
      · intro o k finishedAt hrun
        obtain ⟨hlock, hrow⟩ := h.swept o k finishedAt hrun
        exact ⟨hlocks k _ hlock, hrow⟩
    apply hlocked.setSweep
    intro k finishedAt hrun
    obtain ⟨row, hrow, hon⟩ := (Option.any_eq_true _ _).mp henabled
    have hk : k = id := by
      simp only [SweepRun.running.injEq] at hrun
      split at hrun <;> simp_all
    subst hk
    exact ⟨by simp [lock], row, hrow, hon⟩
  case isFalse => exact h.setSweep owner (by simp)

theorem Coalesced.rearm (h : s.Coalesced) (job : LeasedJob) {schedule : Option Uuid}
    {earlier : Option ℕ} (finishedAt : ℕ)
    (hsweep : s.sweeps owner = some (.running schedule earlier)) :
    (s.rearm owner job schedule earlier finishedAt).Coalesced := by
  unfold CatchUpState.rearm
  split
  · exact h
  case h_2 id =>
    have hheld : s.HoldsEnabled owner id := h.swept owner id earlier hsweep
    split
    · apply h.setSweep
      intro k at_ hrun
      obtain ⟨rfl, -⟩ := by simpa using hrun
      exact hheld
    · apply h.setSweep
      intro k at_ hrun
      obtain ⟨rfl, -⟩ := by simpa using hrun
      exact hheld

/-- Every step keeps the single-flight invariant. -/
theorem Coalesced.step (h : s.Coalesced) {a : CatchUpAction}
    (ht : s.step kinds declared workspaceId a = some t) : t.Coalesced := by
  cases a with
  | loop a =>
    obtain ⟨loop, hloop, haround⟩ := Option.bind_eq_some_iff.mp ht
    exact h.around (loop_noNew hloop haround) haround
  | insertSchedule id d dueAt =>
    simp only [CatchUpState.step, Option.ite_none_right_eq_some] at ht
    obtain ⟨⟨hd, hid⟩, ht⟩ := ht
    split at ht
    case isTrue => exact Option.some.inj ht ▸ h
    case isFalse hfresh =>
      obtain rfl := Option.some.inj ht
      rw [Bool.not_eq_true, Table.existsRow_eq_false] at hfresh
      apply h.insert hd (by simpa using hid)
      intro k row hrow hmodule
      have hne := hfresh k row hrow
      simpa [hmodule] using hne
  | setEnabled id enabled dueAt =>
    simp only [CatchUpState.step, Option.ite_none_left_eq_some, Option.some.injEq] at ht
    obtain ⟨hfree, rfl⟩ := ht
    apply h.update
    · intro k row
      split <;> exact ⟨rfl, rfl, rfl⟩
    · intro k row owner now hholds _
      rw [if_neg]
      rintro rfl
      simp [hholds.1] at hfree
    · intro k row owner hlock
      rw [if_neg]
      rintro rfl
      simp [hlock] at hfree
  | setModule moduleId enabled =>
    obtain rfl := Option.some.inj ht
    refine Coalesced.frame (s := s) h rfl ?_ h.swept (.refl _ _)
    exact fun o tick htick => .of_same htick fun id hid => hid
  | tickOpen owner now budget =>
    simp only [CatchUpState.step] at ht
    split at ht
    case h_1 =>
      obtain rfl := Option.some.inj ht
      refine Coalesced.frame (s := s) h rfl ?_ h.swept (.refl _ _)
      intro o other hother
      obtain ⟨-, hnext⟩ | ⟨-, hold⟩ := setTick_cases hother
      · obtain rfl := Option.some.inj hnext
        exact .inl ⟨rfl, rfl⟩
      · exact .of_same hold fun id hid => hid
    case h_2 => cases ht
  | tickRow owner job gateOpen =>
    simp only [CatchUpState.step] at ht
    split at ht
    case h_1 => cases ht
    case h_2 tick htick =>
      simp only [Option.ite_none_left_eq_some] at ht
      exact h.tickRow htick (by simpa using ht.1) ht.2
  | tickCheck owner job gateOpen =>
    obtain ⟨tick, htick, ht⟩ := Option.bind_eq_some_iff.mp ht
    exact h.tickCheck htick ht
  | tickCommit owner =>
    obtain ⟨tick, htick, ht⟩ := Option.bind_eq_some_iff.mp ht
    exact h.commit htick ht
  | mint owner routed =>
    simp only [CatchUpState.step] at ht
    split at ht
    case h_1 => exact Option.some.inj ht ▸ h.mint ..
    case h_2 => cases ht
  | hold owner =>
    simp only [CatchUpState.step] at ht
    split at ht
    case h_1 job id hrun hsweep =>
      simp only [Option.ite_none_left_eq_some, Option.some.injEq] at ht
      obtain ⟨hfree, rfl⟩ := ht
      exact h.hold job (by simpa using hfree)
    case h_2 => cases ht
  | rearm owner finishedAt =>
    simp only [CatchUpState.step] at ht
    split at ht
    case h_1 job schedule earlier hrun hsweep =>
      exact Option.some.inj ht ▸ h.rearm job finishedAt hsweep
    case h_2 => cases ht

theorem Coalesced.of_reachable (hs : (catchUp kinds declared workspaceId).Reachable s) :
    s.Coalesced := by
  refine Machine.Reachable.invariant (I := Coalesced) ?_ ?_ hs
  · rintro s ⟨hloop, hticks, hsweeps, -, hschedules⟩
    have hsweep (id : Uuid) : ¬s.IsSweep id := by
      rintro ⟨row, hrow, hkind⟩
      exact (hschedules id row hrow).1 hkind
    have hjobs (job : Uuid) : ¬s.Unfinished job := by
      rintro ⟨row, hrow, -⟩
      have hempty : s.loop = ⟨∅, ∅, fun _ => .idle, []⟩ := hloop
      simp [hempty] at hrow
    constructor
    · exact fun id row hrow hkind => absurd hkind (hschedules id row hrow).1
    · exact fun id _ hid => absurd hid (hsweep id)
    · simp [hticks]
    · simp [hticks]
    · simp [hticks]
    · simp [hticks]
    · simp [hticks]
    · simp [hsweeps]
    · exact fun job _ hjob => absurd hjob (hjobs job)
  · exact fun s a t _ h ht => h.step ht

end CatchUpState

end Rheostream
