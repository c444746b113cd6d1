import Rheostream.Work.CatchUp
import Rheostream.Work.LoopSteps

/-!
# What the transactions of the catch-up sweep keep

A transaction that has locked the catch-up row is the only one that writes it, and a visit
that is about to enqueue the sweep has seen that no job of its kind is unfinished. Since the
job loop only ends jobs, that stays true until the visit commits.
-/

namespace Rheostream

variable {kinds : Uuid → JobKindRegistry}

/-- The jobs of `t` are those of `s` but for one predicated write. -/
def JobsWritten (s t : LoopState) : Prop :=
  t.jobs = s.jobs ∨ ∃ id row, ∃ w : JobWrite, s.jobs.lookup id = some row ∧
    w.guard row = true ∧ t.jobs = s.jobs.insert id (w.set row)

/-- Everything the loop does to its jobs but an enqueue is a predicated write. -/
theorem loop_written {s t : LoopState} {a : LoopAction} (h : s.step kinds a = some t)
    (ha : ∀ id kind payload now maxAttempts nextRunAt operationId dedupe,
      a ≠ .enqueue id kind payload now maxAttempts nextRunAt operationId dedupe) :
    JobsWritten s t := by
  obtain rfl | hstep := step_cases h
  · exact .inl rfl
  cases hstep with
  | record | enter | move => exact .inl rfl
  | enqueue => exact absurd rfl (ha _ _ _ _ _ _ _ _)
  | @acquire owner id now row hidle hrow hdue =>
    exact .inr ⟨id, row, .acquireLease owner now leaseSeconds, hrow, hdue, rfl⟩
  | @checkpoint owner job now row hphase hrow hheld =>
    exact .inr ⟨job.id, row, .extendLease owner now leaseSeconds, hrow, hheld, rfl⟩
  | @finish _ owner job row write _ _ hjob hrow hguard =>
    exact .inr ⟨job.id, row, write, hrow, hguard, rfl⟩
  | @request id now row hrow hguard =>
    exact .inr ⟨id, row, .requestCancellation now, hrow, hguard, rfl⟩

/-- Queued and leased are what the job writes match. -/
theorem isUnfinished_of_guard {w : JobWrite} {row : JobRow} (h : w.guard row = true) :
    row.isUnfinished = true := by
  obtain hstate | hstate := JobWrite.guard_unfinished h <;>
    simp [JobRow.isUnfinished, hstate, JobState.isTerminal]

/-- Every unfinished job of the kind in `t` is one in `s`. -/
def NoNewUnfinished (kind : String) (s t : Jobs) : Prop :=
  ∀ id row, t.lookup id = some row → row.kind = kind → row.isUnfinished = true →
    ∃ old, s.lookup id = some old ∧ old.kind = kind ∧ old.isUnfinished = true

theorem NoNewUnfinished.refl (kind : String) (jobs : Jobs) : NoNewUnfinished kind jobs jobs :=
  fun _ row hrow hkind hunfinished => ⟨row, hrow, hkind, hunfinished⟩

/-- A predicated write finishes a job or leaves it unfinished; it never brings one back. -/
theorem JobsWritten.noNewUnfinished {s t : LoopState} (h : JobsWritten s t) (kind : String) :
    NoNewUnfinished kind s.jobs t.jobs := by
  obtain hsame | ⟨k, row, w, hrow, hguard, hjobs⟩ := h
  · rw [hsame]
    exact .refl kind s.jobs
  · intro id new hnew hkind hunfinished
    rw [hjobs, Table.lookup_insert] at hnew
    split at hnew
    case isTrue hid =>
      subst hid
      obtain rfl := Option.some.inj hnew
      refine ⟨row, hrow, ?_, isUnfinished_of_guard hguard⟩
      rw [← (JobWrite.set_identity w row).1]
      exact hkind
    case isFalse => exact ⟨new, hnew, hkind, hunfinished⟩

/-- A job of another kind is no new job of this one. -/
theorem noNewUnfinished_enqueueJob {kind kind' : String} (hne : kind' ≠ kind) (jobs : Jobs)
    (id : Uuid) (payload : Json) (now maxAttempts : ℕ) (nextRunAt : Option ℕ)
    (operationId : Option Uuid) (dedupe : Bool) :
    NoNewUnfinished kind jobs
      (enqueueJob jobs id kind' payload now maxAttempts nextRunAt operationId dedupe).1 := by
  unfold enqueueJob
  dsimp only
  split
  · exact .refl kind jobs
  · intro k row hrow hkind hunfinished
    rw [Table.lookup_insert] at hrow
    split at hrow
    · obtain rfl := Option.some.inj hrow
      exact absurd hkind hne
    · exact ⟨row, hrow, hkind, hunfinished⟩

/-- The job is an unfinished catch-up job. -/
def CatchUpState.Unfinished (s : CatchUpState) (job : Uuid) : Prop :=
  ∃ row, s.loop.jobs.lookup job = some row ∧ row.kind = catchUpJobKind ∧
    row.isUnfinished = true

/-- The row is a catch-up schedule. -/
def CatchUpState.IsSweep (s : CatchUpState) (id : Uuid) : Prop :=
  ∃ row, s.schedules.lookup id = some row ∧ row.jobKind = catchUpJobKind

/-- The sweep holds its schedule row, and the row is enabled. -/
def CatchUpState.HoldsEnabled (s : CatchUpState) (owner id : Uuid) : Prop :=
  s.locks id = some (.sweep owner) ∧ ∃ row, s.schedules.lookup id = some row ∧
    row.enabled = true

/-- The tick holds a catch-up row that was due when it was claimed. -/
def CatchUpState.HoldsDue (s : CatchUpState) (owner : Uuid) (now : ℕ) (id : Uuid) : Prop :=
  s.locks id = some (.tick owner) ∧ ∃ row, s.schedules.lookup id = some row ∧
    row.jobKind = catchUpJobKind ∧ row.isDue now = true

theorem CatchUpState.HoldsDue.isSweep {s : CatchUpState} {owner now id : ℕ}
    (h : s.HoldsDue owner now id) : s.IsSweep id := by
  obtain ⟨-, row, hrow, hkind, -⟩ := h
  exact ⟨row, hrow, hkind⟩

/-- What a pending write of the catch-up row promises. -/
structure CatchUpState.Promised (s : CatchUpState) (owner : Uuid) (tick : Tick) (w : TickWrite) :
    Prop where
  holds : s.HoldsDue owner tick.now w.schedule
  enqueues : ∃ job, w.job = some (job, catchUpJobKind)
  later : tick.now < w.nextRunAt
  clear : ∀ job, ¬s.Unfinished job

/-- The single-flight invariant of the catch-up schedule. -/
structure CatchUpState.Coalesced (s : CatchUpState) : Prop where
  /-- The sweep's row has the sweep's name, and is the only row that has its kind. -/
  named : ∀ id row, s.schedules.lookup id = some row → row.jobKind = catchUpJobKind →
    row.moduleId = memoryRetentionSweep.moduleId ∧ row.name = memoryRetentionSweep.name
  single : ∀ id id', s.IsSweep id → s.IsSweep id' → id = id'
  claimed : ∀ owner tick id, s.ticks owner = some tick → tick.claimed = some id →
    s.HoldsDue owner tick.now id
  /-- A pending write enqueues its row's kind. -/
  kinds : ∀ owner tick, s.ticks owner = some tick → ∀ w ∈ tick.writes,
    ∃ row, s.schedules.lookup w.schedule = some row ∧
      ∀ enqueued ∈ w.job, enqueued.2 = row.jobKind
  promised : ∀ owner tick, s.ticks owner = some tick → ∀ w ∈ tick.writes,
    s.IsSweep w.schedule → s.Promised owner tick w
  once : ∀ owner tick, s.ticks owner = some tick → ∀ w ∈ tick.writes, ∀ w' ∈ tick.writes,
    s.IsSweep w.schedule → s.IsSweep w'.schedule → w = w'
  /-- Its writes enqueue different jobs. -/
  distinct : ∀ owner tick, s.ticks owner = some tick → tick.writes.Pairwise fun w w' =>
    ∀ enqueued ∈ w.job, ∀ enqueued' ∈ w'.job, enqueued.1 ≠ enqueued'.1
  swept : ∀ owner id finishedAt, s.sweeps owner = some (.running (some id) finishedAt) →
    s.HoldsEnabled owner id
  unique : ∀ job job', s.Unfinished job → s.Unfinished job' → job = job'

namespace CatchUpState

variable {s t : CatchUpState}

theorem Unfinished.of_noNew {job : Uuid}
    (hjobs : NoNewUnfinished catchUpJobKind s.loop.jobs t.loop.jobs) (h : t.Unfinished job) :
    s.Unfinished job := by
  obtain ⟨row, hrow, hkind, hunfinished⟩ := h
  exact hjobs job row hrow hkind hunfinished

/-- The tick of `t` claims and writes nothing that a tick of `s` does not, under its locks. -/
def KeepsTick (s t : CatchUpState) (owner : Uuid) (tick : Tick) : Prop :=
  tick.claimed = none ∧ tick.writes = [] ∨ ∃ old, s.ticks owner = some old ∧
    old.now = tick.now ∧ old.writes = tick.writes ∧
    (tick.claimed = none ∨ tick.claimed = old.claimed) ∧
    ∀ id, s.locks id = some (.tick owner) → t.locks id = some (.tick owner)

/-- A step that claims and writes nothing, takes no lock from an open transaction, leaves the
schedules alone and brings no catch-up job back keeps the invariant. -/
theorem Coalesced.frame (h : s.Coalesced) (hschedules : t.schedules = s.schedules)
    (hticks : ∀ owner tick, t.ticks owner = some tick → s.KeepsTick t owner tick)
    (hsweeps : ∀ owner id finishedAt, t.sweeps owner = some (.running (some id) finishedAt) →
      t.HoldsEnabled owner id)
    (hjobs : NoNewUnfinished catchUpJobKind s.loop.jobs t.loop.jobs) : t.Coalesced := by
  have hsweep (id : Uuid) : t.IsSweep id ↔ s.IsSweep id := by
    rw [IsSweep, IsSweep, hschedules]
  have hdue (owner id now : Uuid) (hlocks : t.locks id = some (.tick owner))
      (hold : s.HoldsDue owner now id) : t.HoldsDue owner now id := by
    refine ⟨hlocks, ?_⟩
    rw [hschedules]
    exact hold.2
  refine ⟨?_, ?_, ?_, ?_, ?_, ?_, ?_, hsweeps, ?_⟩
  · rw [hschedules]
    exact h.named
  · intro id id' hid hid'
    exact h.single id id' ((hsweep id).mp hid) ((hsweep id').mp hid')
  · intro owner tick id htick hclaimed
    obtain ⟨hnone, -⟩ | ⟨old, hold, hnow, -, hclaim, hlocks⟩ := hticks owner tick htick
    · simp [hnone] at hclaimed
    · obtain hnone | hsame := hclaim
      · simp [hnone] at hclaimed
      · have hheld := h.claimed owner old id hold (hsame ▸ hclaimed)
        rw [hnow] at hheld
        exact hdue owner id tick.now (hlocks id hheld.1) hheld
  · intro owner tick htick w hw
    obtain ⟨-, hnil⟩ | ⟨old, hold, -, hwrites, -⟩ := hticks owner tick htick
    · simp [hnil] at hw
    · rw [hschedules]
      exact h.kinds owner old hold w (hwrites ▸ hw)
  · intro owner tick htick w hw hid
    obtain ⟨-, hnil⟩ | ⟨old, hold, hnow, hwrites, -, hlocks⟩ := hticks owner tick htick
    · simp [hnil] at hw
    · obtain ⟨hholds, henqueues, hlater, hclear⟩ :=
        h.promised owner old hold w (hwrites ▸ hw) ((hsweep _).mp hid)
      rw [hnow] at hholds hlater
      exact ⟨hdue owner _ tick.now (hlocks _ hholds.1) hholds, henqueues, hlater,
        fun job hjob => hclear job (hjob.of_noNew hjobs)⟩
  · intro owner tick htick w hw w' hw' hid hid'
    obtain ⟨-, hnil⟩ | ⟨old, hold, -, hwrites, -⟩ := hticks owner tick htick
    · simp [hnil] at hw
    · exact h.once owner old hold w (hwrites ▸ hw) w' (hwrites ▸ hw') ((hsweep _).mp hid)
        ((hsweep _).mp hid')
  · intro owner tick htick
    obtain ⟨-, hnil⟩ | ⟨old, hold, -, hwrites, -⟩ := hticks owner tick htick
    · simp [hnil]
    · exact hwrites ▸ h.distinct owner old hold
  · intro job job' hjob hjob'
    exact h.unique job job' (hjob.of_noNew hjobs) (hjob'.of_noNew hjobs)

/-- Ticks that are as they were, with their locks. -/
theorem KeepsTick.of_same {owner : Uuid} {tick : Tick} (htick : s.ticks owner = some tick)
    (hlocks : ∀ id, s.locks id = some (.tick owner) → t.locks id = some (.tick owner)) :
    s.KeepsTick t owner tick :=
  .inr ⟨tick, htick, rfl, rfl, .inr rfl, hlocks⟩

/-- A write to schedule rows that leaves a claimed row alone, and a swept one enabled. -/
theorem Coalesced.update (h : s.Coalesced) (f : Uuid → ScheduleRow → ScheduleRow)
    (hname : ∀ id row, (f id row).moduleId = row.moduleId ∧ (f id row).name = row.name ∧
      (f id row).jobKind = row.jobKind)
    (htick : ∀ id row owner now, s.HoldsDue owner now id →
      s.schedules.lookup id = some row → f id row = row)
    (hsweep : ∀ id row owner, s.locks id = some (.sweep owner) →
      (f id row).enabled = row.enabled) :
    { s with schedules := s.schedules.updateAll f }.Coalesced := by
  have hlookup (id : Uuid) (row : ScheduleRow)
      (hrow : (s.schedules.updateAll f).lookup id = some row) :
      ∃ old, s.schedules.lookup id = some old ∧ f id old = row := by
    simpa using hrow
  have hkind (id : Uuid) : { s with schedules := s.schedules.updateAll f }.IsSweep id ↔
      s.IsSweep id := by
    constructor
    · rintro ⟨row, hrow, hkind⟩
      obtain ⟨old, hold, rfl⟩ := hlookup id row hrow
      exact ⟨old, hold, (hname id old).2.2 ▸ hkind⟩
    · rintro ⟨row, hrow, hkind⟩
      refine ⟨f id row, by simp [hrow], ?_⟩
      rw [(hname id row).2.2]
      exact hkind
  have hdue (owner now id : Uuid) (hold : s.HoldsDue owner now id) :
      { s with schedules := s.schedules.updateAll f }.HoldsDue owner now id := by
    obtain ⟨hlock, row, hrow, hkind⟩ := hold
    have hsame : f id row = row := htick id row owner now ⟨hlock, row, hrow, hkind⟩ hrow
    exact ⟨hlock, row, by simp [hrow, hsame], hkind⟩
  constructor
  · intro id row hrow hkind
    obtain ⟨old, hold, rfl⟩ := hlookup id row hrow
    rw [(hname id old).1, (hname id old).2.1]
    rw [(hname id old).2.2] at hkind
    exact h.named id old hold hkind
  · intro id id' hid hid'
    exact h.single id id' ((hkind id).mp hid) ((hkind id').mp hid')
  · intro owner tick id hticks hclaimed
    exact hdue owner tick.now id (h.claimed owner tick id hticks hclaimed)
  · intro owner tick hticks w hw
    obtain ⟨row, hrow, hjob⟩ := h.kinds owner tick hticks w hw
    refine ⟨f w.schedule row, by simp [hrow], ?_⟩
    rw [(hname _ row).2.2]
    exact hjob
  · intro owner tick hticks w hw hid
    obtain ⟨hholds, henqueues, hlater, hclear⟩ :=
      h.promised owner tick hticks w hw ((hkind _).mp hid)
    exact ⟨hdue owner tick.now _ hholds, henqueues, hlater, hclear⟩
  · intro owner tick hticks w hw w' hw' hid hid'
    exact h.once owner tick hticks w hw w' hw' ((hkind _).mp hid) ((hkind _).mp hid')
  · exact h.distinct
  · intro owner id finishedAt hrun
    obtain ⟨hlock, row, hrow, henabled⟩ := h.swept owner id finishedAt hrun
    refine ⟨hlock, f id row, by simp [hrow], ?_⟩
    rw [hsweep id row owner hlock]
    exact henabled
  · exact h.unique

/-- Only the transaction that ends gives up its locks. -/
theorem release_locks (s : CatchUpState) {holder holder' : LockHolder} {id : Uuid}
    (hne : holder ≠ holder') (h : s.locks id = some holder) :
    (s.release holder').locks id = some holder := by
  simp [release, h, hne]

theorem setTick_cases {owner o : Uuid} {tick : Option Tick} {other : Tick}
    (h : (s.setTick owner tick).ticks o = some other) :
    o = owner ∧ tick = some other ∨ o ≠ owner ∧ s.ticks o = some other := by
  by_cases ho : o = owner
  · subst ho
    exact .inl ⟨rfl, by simpa [setTick] using h⟩
  · exact .inr ⟨ho, by simpa [setTick, Function.update_of_ne ho] using h⟩

/-- A tick writes one more row. For the catch-up row, what the write promises has to hold. -/
theorem Coalesced.append (h : s.Coalesced) {owner : Uuid} {tick next : Tick} {w : TickWrite}
    (htick : s.ticks owner = some tick) (hnow : next.now = tick.now)
    (hclaimed : next.claimed = none) (hwrites : next.writes = tick.writes ++ [w])
    (hkind : ∃ row, s.schedules.lookup w.schedule = some row ∧
      ∀ enqueued ∈ w.job, enqueued.2 = row.jobKind)
    (hfresh : ∀ w' ∈ tick.writes, ∀ enqueued' ∈ w'.job, ∀ enqueued ∈ w.job,
      enqueued'.1 ≠ enqueued.1)
    (hsweep : s.IsSweep w.schedule → s.Promised owner tick w ∧
      ∀ w' ∈ tick.writes, ¬s.IsSweep w'.schedule) :
    (s.setTick owner (some next)).Coalesced := by
  have hticks (o : Uuid) (other : Tick)
      (hother : (s.setTick owner (some next)).ticks o = some other) :
      o = owner ∧ other = next ∨ o ≠ owner ∧ s.ticks o = some other := by
    obtain ⟨rfl, hnext⟩ | hold := setTick_cases hother
    · exact .inl ⟨rfl, (Option.some.inj hnext).symm⟩
    · exact .inr hold
  have hmem (w' : TickWrite) : w' ∈ next.writes ↔ w' ∈ tick.writes ∨ w' = w := by
    simp [hwrites]
  refine ⟨h.named, h.single, ?_, ?_, ?_, ?_, ?_, h.swept, h.unique⟩
  · intro o other id hother hid
    obtain ⟨-, rfl⟩ | ⟨-, hold⟩ := hticks o other hother
    · simp [hclaimed] at hid
    · exact h.claimed o other id hold hid
  · intro o other hother w' hw'
    obtain ⟨rfl, rfl⟩ | ⟨-, hold⟩ := hticks o other hother
    · obtain hw' | rfl := (hmem w').mp hw'
      · exact h.kinds o tick htick w' hw'
      · exact hkind
    · exact h.kinds o other hold w' hw'
  · intro o other hother w' hw' hid
    obtain ⟨rfl, rfl⟩ | ⟨-, hold⟩ := hticks o other hother
    · have hpromised : s.Promised o tick w' := by
        obtain hw' | rfl := (hmem w').mp hw'
        · exact h.promised o tick htick w' hw' hid
        · exact (hsweep hid).1
      obtain ⟨hholds, henqueues, hlater, hclear⟩ := hpromised
      rw [← hnow] at hholds hlater
      exact ⟨hholds, henqueues, hlater, hclear⟩
    · obtain ⟨hholds, henqueues, hlater, hclear⟩ := h.promised o other hold w' hw' hid
      exact ⟨hholds, henqueues, hlater, hclear⟩
  · intro o other hother w₁ hw₁ w₂ hw₂ hid₁ hid₂
    obtain ⟨rfl, rfl⟩ | ⟨-, hold⟩ := hticks o other hother
    · obtain hw₁ | rfl := (hmem w₁).mp hw₁ <;> obtain hw₂ | rfl := (hmem w₂).mp hw₂
      · exact h.once o tick htick w₁ hw₁ w₂ hw₂ hid₁ hid₂
      · exact absurd hid₁ ((hsweep hid₂).2 w₁ hw₁)
      · exact absurd hid₂ ((hsweep hid₁).2 w₂ hw₂)
      · rfl
    · exact h.once o other hold w₁ hw₁ w₂ hw₂ hid₁ hid₂
  · intro o other hother
    obtain ⟨rfl, rfl⟩ | ⟨-, hold⟩ := hticks o other hother
    · rw [hwrites, List.pairwise_append]
      refine ⟨h.distinct o tick htick, List.pairwise_singleton _ _, ?_⟩
      intro w' hw' w'' hw''
      obtain rfl := List.mem_singleton.mp hw''
      exact fun e' he' e he => hfresh w' hw' e' he' e he
    · exact h.distinct o other hold

/-- A tick locks the catch-up row it found free, enabled and due. -/
theorem Coalesced.claim (h : s.Coalesced) {owner id : Uuid} {tick next : Tick} {row : ScheduleRow}
    (htick : s.ticks owner = some tick) (hnow : next.now = tick.now)
    (hclaimed : next.claimed = some id) (hwrites : next.writes = tick.writes)
    (hfree : s.locks id = none) (hrow : s.schedules.lookup id = some row)
    (hkind : row.jobKind = catchUpJobKind) (hdue : row.isDue tick.now = true) :
    ((s.lock id (.tick owner)).setTick owner (some next)).Coalesced := by
  have hlocks (k : Uuid) (holder : LockHolder) (hheld : s.locks k = some holder) :
      (s.lock id (.tick owner)).locks k = some holder := by
    have hne : k ≠ id := by
      rintro rfl
      simp [hfree] at hheld
    simpa [lock, Function.update_of_ne hne] using hheld
  have hticks (o : Uuid) (other : Tick)
      (hother : ((s.lock id (.tick owner)).setTick owner (some next)).ticks o = some other) :
      o = owner ∧ other = next ∨ s.ticks o = some other := by
    obtain ⟨rfl, hnext⟩ | ⟨-, hold⟩ := setTick_cases hother
    · exact .inl ⟨rfl, (Option.some.inj hnext).symm⟩
    · exact .inr hold
  have hheld (o now k : Uuid) (hold : s.HoldsDue o now k) :
      ((s.lock id (.tick owner)).setTick owner (some next)).HoldsDue o now k :=
    ⟨hlocks k _ hold.1, hold.2⟩
  refine ⟨h.named, h.single, ?_, ?_, ?_, ?_, ?_, ?_, h.unique⟩
  · intro o other k hother hk
    obtain ⟨rfl, rfl⟩ | hold := hticks o other hother
    · obtain rfl : id = k := Option.some.inj (hclaimed.symm.trans hk)
      rw [hnow]
      exact ⟨by simp [setTick, lock], row, hrow, hkind, hdue⟩
    · exact hheld o other.now k (h.claimed o other k hold hk)
  · intro o other hother
    obtain ⟨rfl, rfl⟩ | hold := hticks o other hother
    · rw [hwrites]
      exact h.kinds o tick htick
    · exact h.kinds o other hold
  · intro o other hother w hw hid
    obtain ⟨rfl, rfl⟩ | hold := hticks o other hother
    · obtain ⟨hholds, henqueues, hlater, hclear⟩ := h.promised o tick htick w (hwrites ▸ hw) hid
      rw [← hnow] at hholds hlater
      exact ⟨hheld _ _ _ hholds, henqueues, hlater, hclear⟩
    · obtain ⟨hholds, henqueues, hlater, hclear⟩ := h.promised o other hold w hw hid
      exact ⟨hheld _ _ _ hholds, henqueues, hlater, hclear⟩
  · intro o other hother
    obtain ⟨rfl, rfl⟩ | hold := hticks o other hother
    · rw [hwrites]
      exact h.once o tick htick
    · exact h.once o other hold
  · intro o other hother
    obtain ⟨rfl, rfl⟩ | hold := hticks o other hother
    · rw [hwrites]
      exact h.distinct o tick htick
    · exact h.distinct o other hold
  · intro o k finishedAt hrun
    obtain ⟨hlock, henabled⟩ := h.swept o k finishedAt hrun
    exact ⟨hlocks k _ hlock, henabled⟩

/-- A tick or a handler ends: the invariant asks nothing of it any more. -/
theorem Coalesced.endTick (h : s.Coalesced) (owner : Uuid) :
    ((s.setTick owner none).release (.tick owner)).Coalesced := by
  refine Coalesced.frame (t := (s.setTick owner none).release (.tick owner)) h rfl ?_ ?_ ?_
  · intro o tick htick
    have hne : o ≠ owner := by
      rintro rfl
      simp [setTick, release] at htick
    refine .of_same (by simpa [setTick, release, Function.update_of_ne hne] using htick) ?_
    exact fun id hid => release_locks _ (by simpa using hne) hid
  · intro o id finishedAt hrun
    obtain ⟨hlock, henabled⟩ := h.swept o id finishedAt hrun
    exact ⟨release_locks _ (by simp) hlock, henabled⟩
  · exact .refl _ _

theorem Coalesced.endSweep (h : s.Coalesced) (owner : Uuid) :
    (s.endSweep owner s.schedules).Coalesced := by
  refine Coalesced.frame (t := s.endSweep owner s.schedules) h rfl ?_ ?_ ?_
  · intro o tick htick
    exact .of_same htick fun id hid => release_locks _ (by simp) hid
  · intro o id finishedAt hrun
    have hne : o ≠ owner := by
      rintro rfl
      simp [CatchUpState.endSweep, setSweep, release] at hrun
    have hrun' : s.sweeps o = some (.running (some id) finishedAt) := by
      simpa [CatchUpState.endSweep, setSweep, release, Function.update_of_ne hne] using hrun
    obtain ⟨hlock, henabled⟩ := h.swept o id finishedAt hrun'
    exact ⟨release_locks _ (by simpa using hne) hlock, henabled⟩
  · exact .refl _ _

end CatchUpState

end Rheostream
