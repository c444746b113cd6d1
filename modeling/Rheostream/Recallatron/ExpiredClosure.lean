import Rheostream.Recallatron.RetentionSweepLaws

/-!
# The sweep removes the expired closures

From any memories, any sequence of batches, under any clocks and setting rows, removes what
expired at an instant at which a batch looked, with what depends on it, and nothing else.
-/

namespace Rheostream.Recallatron

variable {s : Memories} {b : Batch} {e : SweepEnd}

/-! ### One batch -/

/-- The gate is on, and the window is usable when the batch begins. -/
def Batch.Open (b : Batch) : Prop :=
  expireByAgeIn b.gate = true ∧ ∃ horizon, b.start.horizon = some (some horizon)

theorem finishSweep_ok {t : Memories} {removed : List Uuid} (h : finishSweep b t removed = .ok e) :
    e.memories = t ∧ e.removed = removed := by
  unfold finishSweep at h
  split at h
  · cases h
  · cases h
    exact ⟨rfl, rfl⟩
  · split_ifs at h
    · cases h
      exact ⟨rfl, rfl⟩
    · cases h
      exact ⟨rfl, rfl⟩

/-- A batch that commits did nothing, or swept its roots and finished. -/
theorem run_cases (h : runMemoryRetentionSweep b s = .ok e) : (e = ⟨s, [], none⟩ ∧ ¬ b.Open) ∨
    ∃ days horizon, b.Open ∧ finishSweep b
      (expireRoots b days (expiredRoots s horizon) s []).1
      (expireRoots b days (expiredRoots s horizon) s []).2 = .ok e := by
  unfold runMemoryRetentionSweep at h
  split_ifs at h with hauthority hgate
  · cases h
    refine Or.inl ⟨rfl, fun hopen => ?_⟩
    simp [hopen.1] at hgate
  · split at h
    · cases h
    · rename_i policy hpolicy
      have hhorizon : b.start.horizon = some (policy.horizon b.start.now) := by
        rw [Reading.horizon, hpolicy, Option.map_some]
      split at h
      · rename_i days horizon hdays hsome
        refine Or.inr ⟨days, horizon, ⟨by simpa using hgate, horizon, ?_⟩, h⟩
        rw [hhorizon, hsome]
      · rename_i hnone
        cases h
        refine Or.inl ⟨rfl, fun hopen => ?_⟩
        obtain ⟨horizon, hopen⟩ := hopen.2
        rw [hhorizon, Option.some.injEq] at hopen
        cases hdays : policy.days with
        | none =>
          rw [RetentionPolicy.horizon, hdays] at hopen
          cases hopen
        | some days => exact hnone days horizon hdays hopen

/-- What a batch that commits removed. -/
theorem run_swept (h : runMemoryRetentionSweep b s = .ok e) :
    Swept s e.memories e.removed ∧
      (∀ r ∈ e.removed, ∃ m, s.lookup r = some m ∧ ExpiredAt b r m) ∧
      e.removed.length + size e.memories ≤ size s := by
  rcases run_cases h with ⟨rfl, -⟩ | ⟨days, horizon, -, hfinish⟩
  · exact ⟨Swept.refl s, by simp, by simp⟩
  · obtain ⟨hmemories, hremoved⟩ := finishSweep_ok hfinish
    obtain ⟨hswept, hroots, hsize⟩ :=
      expireRoots_ok b days (expiredRoots s horizon) (Swept.refl s)
    rw [hmemories, hremoved]
    refine ⟨hswept, fun r hr => (hroots r hr).resolve_left (by simp), ?_⟩
    simpa using hsize

/-- What a batch that ran tells of what is left. -/
theorem run_finish (h : runMemoryRetentionSweep b s = .ok e) (hopen : b.Open) {horizon : ℤ}
    (hhorizon : b.finish.horizon = some (some horizon)) :
    (e.followUp = none ∧ ∀ id m, e.memories.lookup id = some m →
      ¬ (m.row.audienceKind = .workspace ∧ m.row.recordedAt < horizon)) ∨
    (e.followUp = some b.rearmed ∧ e.removed ≠ []) := by
  rcases run_cases h with ⟨-, hclosed⟩ | ⟨days, start, -, hfinish⟩
  · exact absurd hopen hclosed
  · obtain ⟨hmemories, hremoved⟩ := finishSweep_ok hfinish
    simp only [finishSweep, hhorizon] at hfinish
    split_ifs at hfinish with hexists hempty
    · cases hfinish
      refine Or.inl ⟨rfl, fun id m hm hexpired => ?_⟩
      have hnone :=
        Table.existsRow_eq_false.mp (by simpa [expiredMemoryExists] using hexists) id m hm
      rw [expiredWorkspaceMemory_iff.mpr hexpired] at hnone
      cases hnone
    · cases hfinish
      refine Or.inr ⟨rfl, fun hnil => hempty ?_⟩
      simpa using hnil

/-! ### A run of batches -/

/-- Every root expired at an instant at which one of the batches looked. -/
def Justified (s : Memories) (actions : List SweepAction) (roots : List Uuid) : Prop :=
  ∀ r ∈ roots, ∃ b m, .batch b ∈ actions ∧ s.lookup r = some m ∧ ExpiredAt b r m

/-- What a run keeps. -/
structure RunOk (s : Memories) (actions : List SweepAction) (t : SweepState) : Prop where
  swept : Swept s t.memories t.expired
  justified : Justified s actions t.expired
  shrinks : t.expired.length + size t.memories ≤ size s

variable {actions : List SweepAction} {t u : SweepState}

theorem RunOk.step {a : SweepAction} (h : RunOk s actions t) (ha : a ∈ actions)
    (hstep : sweepStep t a = some u) : RunOk s actions u := by
  cases a with
  | interrupted =>
    cases hstep
    exact h
  | batch b =>
    simp only [sweepStep] at hstep
    split at hstep
    · cases hstep
      exact h
    · rename_i e hrun
      cases hstep
      obtain ⟨hswept, hroots, hsize⟩ := run_swept hrun
      refine ⟨h.swept.trans hswept, fun r hr => ?_, ?_⟩
      · rcases List.mem_append.mp hr with hr | hr
        · obtain ⟨m, hm, hexpired⟩ := hroots r hr
          obtain ⟨old, hold, hexpired⟩ := hexpired.of_swept h.swept hm
          exact ⟨b, old, ha, hold, hexpired⟩
        · exact h.justified r hr
      · have hshrinks := h.shrinks
        simp only [List.length_append]
        omega

theorem RunOk.run {all actions : List SweepAction} (hsub : ∀ a ∈ actions, a ∈ all)
    (h : RunOk s all t) (hrun : sweeps.run t actions = some u) : RunOk s all u := by
  induction actions generalizing t with
  | nil =>
    cases hrun
    exact h
  | cons a actions ih =>
    obtain ⟨r, hstep, hrest⟩ := Option.bind_eq_some_iff.mp hrun
    have hnext := h.step (hsub a List.mem_cons_self) hstep
    exact ih (fun a' ha' => hsub a' (List.mem_cons_of_mem _ ha')) hnext hrest

/-- The batch asks for the next one. -/
def asksAgain (t : SweepState) : SweepAction → Bool
  | .batch b =>
    match runMemoryRetentionSweep b t.memories with
    | .error _ => false
    | .ok e => e.followUp.isSome
  | .interrupted => false

/-- The batches of a run that ask for the next one. -/
def followUps (t : SweepState) : List SweepAction → ℕ
  | [] => 0
  | a :: actions => (if asksAgain t a then 1 else 0) +
    match sweepStep t a with
    | none => 0
    | some u => followUps u actions

/-- A batch asks for the next one only when it removed a root. -/
theorem removed_of_followUp (h : runMemoryRetentionSweep b s = .ok e)
    (hsome : e.followUp.isSome = true) : e.removed ≠ [] := by
  rcases run_cases h with ⟨rfl, -⟩ | ⟨days, start, -, hfinish⟩
  · cases hsome
  · unfold finishSweep at hfinish
    split at hfinish
    · cases hfinish
    · cases hfinish
      cases hsome
    · split_ifs at hfinish with hexists hempty
      · cases hfinish
        cases hsome
      · cases hfinish
        intro hnil
        exact hempty (by simpa using hnil)

theorem size_of_asksAgain {a : SweepAction} (h : sweepStep t a = some u) :
    (if asksAgain t a then 1 else 0) + size u.memories ≤ size t.memories := by
  cases a with
  | interrupted =>
    cases h
    simp [asksAgain]
  | batch b =>
    cases hrun : runMemoryRetentionSweep b t.memories with
    | error code =>
      simp only [sweepStep, hrun, Option.some.injEq] at h
      subst h
      simp [asksAgain, hrun]
    | ok e =>
      simp only [sweepStep, hrun, Option.some.injEq] at h
      subst h
      have hsize := (run_swept hrun).2.2
      simp only [asksAgain, hrun]
      split_ifs with hasks
      · have hpos := List.length_pos_iff.mpr (removed_of_followUp hrun hasks)
        omega
      · omega

theorem followUps_add_size (hrun : sweeps.run t actions = some u) :
    followUps t actions + size u.memories ≤ size t.memories := by
  induction actions generalizing t with
  | nil =>
    cases hrun
    simp [followUps]
  | cons a actions ih =>
    obtain ⟨r, hstep, hrest⟩ := Option.bind_eq_some_iff.mp hrun
    have hfirst := size_of_asksAgain hstep
    have hlater := ih hrest
    have hnow : sweepStep t a = some r := hstep
    simp only [followUps, hnow]
    omega

/-! ### The law -/

/-- What the sweeps of a workspace do to its memories. -/
structure SweepLaw (s : Memories) : Prop where
  /-- With the gate off, a batch removes nothing. -/
  gate_off : ∀ b, b.authority = true → expireByAgeIn b.gate = false →
    runMemoryRetentionSweep b s = .ok ⟨s, [], none⟩
  /-- With the gate on, a window that is missing or does not decode stops a batch before any
  removal. -/
  unavailable : ∀ b, b.authority = true → expireByAgeIn b.gate = true →
    retentionIn b.start.rows = none →
    runMemoryRetentionSweep b s = .error "retention_unavailable"
  /-- A run removes its roots with what depends on them, and keeps every other memory as it was,
  but for a pointer to a removed one. -/
  removed : ∀ actions t, sweeps.run ⟨s, []⟩ actions = some t → ∃ gone : Finset Uuid,
    (∀ id, t.memories.lookup id =
      if id ∈ gone then none else (s.lookup id).map fun m => m.unpoint gone) ∧
    ∀ id, id ∈ gone ↔ ∃ r ∈ t.expired, id = r ∨ Dependent s r id
  /-- A root is a workspace memory recorded strictly before a horizon that was in force when its
  expiry was authorized. -/
  expired : ∀ actions t, sweeps.run ⟨s, []⟩ actions = some t → ∀ r ∈ t.expired,
    ∃ b m horizon, .batch b ∈ actions ∧ s.lookup r = some m ∧
      (b.attempt r).reading.horizon = some (some horizon) ∧
      m.row.audienceKind = .workspace ∧ m.row.recordedAt < horizon
  /-- A memory that names others in marked links alone is removed only as a root. -/
  lineage : ∀ actions t id m, sweeps.run ⟨s, []⟩ actions = some t → s.lookup id = some m →
    (∀ link ∈ m.links, link.supersessionLineage = false → ∀ x, link.ref ≠ memoryReference x) →
    id ∉ t.expired → (t.memories.lookup id).isSome = true
  /-- A batch that runs and asks for no other leaves no expired workspace memory. -/
  finished : ∀ b e horizon, runMemoryRetentionSweep b s = .ok e → b.Open →
    b.finish.horizon = some (some horizon) → e.followUp = none →
    ∀ id m, e.memories.lookup id = some m → m.row.audienceKind = .workspace →
      horizon ≤ m.row.recordedAt
  /-- A batch that runs and leaves work has removed a root, and asks for the next one. -/
  leaves_work : ∀ b e horizon id m, runMemoryRetentionSweep b s = .ok e → b.Open →
    b.finish.horizon = some (some horizon) → e.memories.lookup id = some m →
    m.row.audienceKind = .workspace → m.row.recordedAt < horizon →
    e.removed ≠ [] ∧ e.followUp = some b.rearmed
  /-- The batches that ask for another are no more than the memories that went. -/
  ends : ∀ actions t, sweeps.run ⟨s, []⟩ actions = some t →
    followUps ⟨s, []⟩ actions + size t.memories ≤ size s

theorem runOk_of_run {t : SweepState} (h : sweeps.run ⟨s, []⟩ actions = some t) :
    RunOk s actions t := by
  have hinit : RunOk s actions ⟨s, []⟩ := ⟨Swept.refl s, by simp [Justified], by simp⟩
  exact hinit.run (fun _ ha => ha) h

theorem not_dependent_of_marked {id target : Uuid} {m : StoredMemory} (hm : s.lookup id = some m)
    (hmarked : ∀ link ∈ m.links, link.supersessionLineage = false →
      ∀ x, link.ref ≠ memoryReference x) : ¬ Dependent s target id := by
  have hnone : ∀ (follows : Relation → Bool) (x : Uuid), id ∉ dependents s follows x := by
    intro follows x hmem
    obtain ⟨m', hm', link, hlink, href, hplain, -⟩ := mem_dependents.mp hmem
    obtain rfl : m = m' := Option.some.inj (hm.symm.trans hm')
    exact hmarked link hlink hplain x href
  rintro ⟨-, x, hx, hpath⟩
  rcases Relation.ReflTransGen.cases_tail hpath with rfl | ⟨_, -, hlast⟩
  · exact hnone _ _ hx
  · exact hnone _ _ hlast

/-- The law of the sweep holds for any memories. -/
theorem sweep_law (s : Memories) : SweepLaw s where
  gate_off b hauthority hgate := by
    simp [runMemoryRetentionSweep, hauthority, hgate]
  unavailable b hauthority hgate hwindow := by
    simp [runMemoryRetentionSweep, hauthority, hgate, hwindow]
  removed actions t hrun := by
    obtain ⟨gone, hwithout, hmem⟩ := (runOk_of_run hrun).swept
    exact ⟨gone, hwithout.rows, hmem⟩
  expired actions t hrun r hr := by
    obtain ⟨b, m, hb, hm, horizon, hhorizon, hexpired⟩ := (runOk_of_run hrun).justified r hr
    exact ⟨b, m, horizon, hb, hm, hhorizon, hexpired⟩
  lineage actions t id m hrun hm hmarked hout := by
    obtain ⟨gone, hwithout, hmem⟩ := (runOk_of_run hrun).swept
    refine hwithout.isSome.mpr ⟨fun hid => ?_, by rw [hm]; rfl⟩
    obtain ⟨r, hr, rfl | hdep⟩ := (hmem id).mp hid
    · exact hout hr
    · exact not_dependent_of_marked hm hmarked hdep
  finished b e horizon hrun hopen hfinish hnone id m hm haudience := by
    rcases run_finish hrun hopen hfinish with ⟨-, hkept⟩ | ⟨hasks, -⟩
    · by_contra hlate
      exact hkept id m hm ⟨haudience, not_le.mp hlate⟩
    · rw [hnone] at hasks
      cases hasks
  leaves_work b e horizon id m hrun hopen hfinish hm haudience hlate := by
    rcases run_finish hrun hopen hfinish with ⟨-, hkept⟩ | ⟨hasks, hremoved⟩
    · exact absurd ⟨haudience, hlate⟩ (hkept id m hm)
    · exact ⟨hremoved, hasks⟩
  ends actions t hrun := followUps_add_size hrun

section Sample

/-- The rows of a workspace that keeps a memory for thirty days. -/
def thirtyDays : Table String String :=
  ((∅ : Table String String).insert retentionExpireByAgeKey "true").insert retentionDaysKey "30"

def midyear : Reading := ⟨thirtyDays, 200 * microsecondsPerDay⟩

def nightly : Batch :=
  ⟨true, thirtyDays, midyear, fun _ => ⟨true, some ["recallatron"], midyear⟩, midyear, true⟩

/-- An old workspace memory, and a member's recent note about it. -/
def annotated : Memories :=
  ((∅ : Memories).insert 1
    ⟨⟨"Site visit", .workspace, none, 0, none, none, none⟩, ["planning"], []⟩).insert 2
    ⟨⟨"My note", .member, some 9, 199 * microsecondsPerDay, none, none, none⟩, ["planning"],
      [⟨memoryReference 1, .about, false⟩]⟩

/-- A member's memory that is derived from nothing goes with the expired memory it is about. -/
theorem note_removed :
    ∃ e m, runMemoryRetentionSweep nightly annotated = .ok e ∧ annotated.lookup 2 = some m ∧
      m.row.audienceKind = .member ∧ (∀ link ∈ m.links, link.relation ≠ .derivedFrom) ∧
      e.removed = [1] ∧ e.memories.lookup 2 = none := by
  exact ⟨_, _, rfl, rfl, rfl, by decide, rfl, rfl⟩

end Sample

end Rheostream.Recallatron
