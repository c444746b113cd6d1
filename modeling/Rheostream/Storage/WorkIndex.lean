import Mathlib.Data.List.Sort
import Rheostream.Foundation.Machine
import Rheostream.Foundation.Table
import Rheostream.Foundation.Values

/-!
# The due-work index

`storage/work_index.py`: one hint per workspace, lowered by marks and raised by visits. A
visit writes only over the value its reader observed, and what it writes is never later than
one reconcile interval. The machine below interleaves readers, marks and visits under a clock
that never goes back; each call reads the clock at or before the moment its statement runs.
-/

namespace Rheostream

/-- A `workspace_work_due` row. -/
structure WorkDueRow where
  dueAt : ℕ
  updatedAt : ℕ
deriving DecidableEq, Repr

/-- One workspace the index reports as possibly having work. `observedDueAt` is the token
that `record_visit` compares against. -/
structure DueWorkspace where
  workspaceId : Uuid
  observedDueAt : Option ℕ
deriving DecidableEq, Repr

/-- The index table. -/
abbrev WorkIndex := Table Uuid WorkDueRow

namespace WorkIndex

/-- Whether a workspace is reported, and with which token. -/
def dueWorkspace (index : WorkIndex) (now : ℕ) (workspace : Uuid) : Option DueWorkspace :=
  match index.lookup workspace with
  | none => some ⟨workspace, none⟩
  | some row => if row.dueAt ≤ now then some ⟨workspace, some row.dueAt⟩ else none

/-- `NULLS FIRST`, then by `due_at`. -/
def nullsFirst (a b : DueWorkspace) : Bool :=
  match a.observedDueAt, b.observedDueAt with
  | none, _ => true
  | some _, none => false
  | some a, some b => a ≤ b

/-- Active workspaces with no row or with `due_at ≤ now`, at most `limit` of them. `active` is
the order in which the database comes upon them, which decides ties. -/
def workspacesWithDueWork (index : WorkIndex) (active : List Uuid) (now limit : ℕ) :
    List DueWorkspace :=
  ((active.filterMap (index.dueWorkspace now)).insertionSort (nullsFirst · ·)).take limit

/-- Bring a workspace's `due_at` down to `due`, never up. -/
def markWorkDue (index : WorkIndex) (workspace : Uuid) (due now : ℕ) : WorkIndex :=
  match index.lookup workspace with
  | none => index.insert workspace ⟨due, now⟩
  | some row => index.insert workspace ⟨min row.dueAt due, now⟩

/-- What a visit writes: the next known due time, but never later than the floor. -/
def visitDueAt (nextDueAt : Option ℕ) (now reconcileSeconds : ℕ) : ℕ :=
  match nextDueAt with
  | none => now + seconds reconcileSeconds
  | some next => min next (now + seconds reconcileSeconds)

/-- Push `due_at` forward after a visit, but only over the value its reader observed. `none`
is a write that did not apply. -/
def recordVisit (index : WorkIndex) (workspace : Uuid) (observedDueAt nextDueAt : Option ℕ)
    (now reconcileSeconds : ℕ) : Option WorkIndex :=
  match observedDueAt with
  | none =>
    if (index.lookup workspace).isNone then
      some (index.insert workspace ⟨visitDueAt nextDueAt now reconcileSeconds, now⟩)
    else none
  | some observed => index.updateRow workspace
      { guard := fun row => row.dueAt = observed
        set := fun _ => ⟨visitDueAt nextDueAt now reconcileSeconds, now⟩ }

variable {index index' : WorkIndex} {workspace other : Uuid}

theorem visitDueAt_le (nextDueAt : Option ℕ) (now reconcileSeconds : ℕ) :
    visitDueAt nextDueAt now reconcileSeconds ≤ now + seconds reconcileSeconds := by
  cases nextDueAt with
  | none => exact le_rfl
  | some next => exact min_le_right _ _

/-- After a mark the row is there and due no later than the mark, nor than before. -/
theorem lookup_markWorkDue (index : WorkIndex) (workspace : Uuid) (due now : ℕ) :
    ∃ row, (index.markWorkDue workspace due now).lookup workspace = some row ∧
      row.updatedAt = now ∧ row.dueAt ≤ due ∧
      ∀ old, index.lookup workspace = some old → row.dueAt ≤ old.dueAt := by
  unfold markWorkDue
  cases hrow : index.lookup workspace with
  | none => exact ⟨_, AList.lookup_insert _, rfl, le_rfl, by simp⟩
  | some row =>
    refine ⟨_, AList.lookup_insert _, rfl, min_le_right _ _, fun old hold => ?_⟩
    obtain rfl := Option.some.inj hold
    exact min_le_left _ _

theorem lookup_markWorkDue_other {due now : ℕ} (h : other ≠ workspace) :
    (index.markWorkDue workspace due now).lookup other = index.lookup other := by
  unfold markWorkDue
  split <;> simp [h]

/-- A visit that applies found exactly what its reader observed, and wrote its own row. -/
theorem recordVisit_eq_some {observed next : Option ℕ} {now reconcileSeconds : ℕ}
    (h : index.recordVisit workspace observed next now reconcileSeconds = some index') :
    (index.lookup workspace).map WorkDueRow.dueAt = observed ∧
      index' = index.insert workspace ⟨visitDueAt next now reconcileSeconds, now⟩ := by
  unfold recordVisit at h
  cases observed with
  | none =>
    obtain ⟨hnone, rfl⟩ := by simpa using h
    simp [hnone]
  | some observed =>
    obtain ⟨row, hrow, hguard, rfl⟩ := Table.updateRow_eq_some.mp h
    simpa [hrow] using hguard

end WorkIndex

/-- One answer given to one visitor. -/
structure VisitorRead where
  visitor : Uuid
  found : DueWorkspace

/-- A mark that committed, and the read whose visit overwrote it with a later `due_at`, once
one has. -/
structure MarkRecord where
  workspace : Uuid
  due : ℕ
  overwrittenBy : Option ℕ

/-- The index, the registry's active workspaces and the clock. The rest is ghost: the clock at
each row's last write, the reads in the order they were answered, and the marks. -/
structure IndexState where
  clock : ℕ
  active : List Uuid
  index : WorkIndex
  writtenAt : Uuid → ℕ
  reads : List VisitorRead
  marks : List MarkRecord

/-- What can happen to the index. -/
inductive IndexAction where
  | tick (elapsed : ℕ)
  /-- Workspaces are created, suspended or resumed. -/
  | registry (active : List Uuid)
  | read (visitor : Uuid) (now limit : ℕ)
  | mark (workspace : Uuid) (due now : ℕ)
  /-- The visit that follows an earlier read, named by its place in the order of reads. -/
  | visit (read : ℕ) (nextDueAt : Option ℕ) (now : ℕ)

/-- Whether a visit that writes `due` puts a standing mark off. -/
def MarkRecord.overwrite (read : ℕ) (workspace : Uuid) (due : ℕ) (mark : MarkRecord) :
    MarkRecord :=
  if mark.workspace = workspace ∧ mark.overwrittenBy = none ∧ mark.due < due then
    { mark with overwrittenBy := some read }
  else mark

namespace IndexState

/-- One call. A clock reading is no later than the clock when the statement runs, and neither
is the instant a mark is for. -/
def step (reconcileSeconds : ℕ) (s : IndexState) : IndexAction → Option IndexState
  | .tick elapsed => some { s with clock := s.clock + elapsed }
  | .registry active => some { s with active := active }
  | .read visitor now limit =>
    if now ≤ s.clock ∧ 1 ≤ limit then
      some { s with
        reads := s.reads ++
          (s.index.workspacesWithDueWork s.active now limit).map (⟨visitor, ·⟩) }
    else none
  | .mark workspace due now =>
    if due ≤ s.clock ∧ now ≤ s.clock then
      some { s with
        index := s.index.markWorkDue workspace due now
        writtenAt := Function.update s.writtenAt workspace s.clock
        marks := ⟨workspace, due, none⟩ :: s.marks }
    else none
  | .visit read nextDueAt now =>
    match s.reads[read]? with
    | some ⟨_, workspace, observed⟩ =>
      if now ≤ s.clock ∧ 1 ≤ reconcileSeconds then
        match s.index.recordVisit workspace observed nextDueAt now reconcileSeconds with
        | none => some s
        | some index => some { s with
            index := index
            writtenAt := Function.update s.writtenAt workspace s.clock
            marks := s.marks.map (MarkRecord.overwrite read workspace
              (WorkIndex.visitDueAt nextDueAt now reconcileSeconds)) }
      else none
    | none => none

end IndexState

/-- The index under any number of visitors, from an empty table. -/
def workIndex (reconcileSeconds : ℕ) : Machine IndexState IndexAction where
  init s := s.index = ∅ ∧ s.reads = [] ∧ s.marks = []
  step := IndexState.step reconcileSeconds

/-- A row is due within one interval of its last write; a mark that no visit has overwritten
keeps its workspace due; and a visit that overwrote a mark had observed a `due_at` no later
than the mark. -/
structure IndexOk (reconcileSeconds : ℕ) (s : IndexState) : Prop where
  floor : ∀ workspace row, s.index.lookup workspace = some row →
    row.dueAt ≤ s.writtenAt workspace + seconds reconcileSeconds
  standing : ∀ mark ∈ s.marks, mark.overwrittenBy = none →
    ∃ row, s.index.lookup mark.workspace = some row ∧ row.dueAt ≤ mark.due
  overwritten : ∀ mark ∈ s.marks, ∀ i, mark.overwrittenBy = some i →
    ∃ read observed, s.reads[i]? = some read ∧ read.found.workspaceId = mark.workspace ∧
      read.found.observedDueAt = some observed ∧ observed ≤ mark.due

namespace IndexOk

variable {reconcileSeconds : ℕ} {s : IndexState}

/-- A later answer leaves the reads before it in their places. -/
theorem read (h : IndexOk reconcileSeconds s) (answers : List VisitorRead) :
    IndexOk reconcileSeconds { s with reads := s.reads ++ answers } where
  floor := h.floor
  standing := h.standing
  overwritten mark hmark i hi := by
    obtain ⟨read, observed, hread, hrest⟩ := h.overwritten mark hmark i hi
    obtain ⟨hlength, -⟩ := List.getElem?_eq_some_iff.mp hread
    exact ⟨read, observed, (List.getElem?_append_left hlength).trans hread, hrest⟩

/-- A mark only lowers, so every standing mark stands, and the new one with them. -/
theorem mark (h : IndexOk reconcileSeconds s) {workspace : Uuid} {due now : ℕ}
    (hdue : due ≤ s.clock) :
    IndexOk reconcileSeconds { s with
      index := s.index.markWorkDue workspace due now
      writtenAt := Function.update s.writtenAt workspace s.clock
      marks := ⟨workspace, due, none⟩ :: s.marks } := by
  obtain ⟨row, hrow, -, hle, hlower⟩ :=
    WorkIndex.lookup_markWorkDue s.index workspace due now
  refine ⟨fun other row' hlookup => ?_, fun mark hmark hnone => ?_, fun mark hmark i hi => ?_⟩
  · by_cases hother : other = workspace
    · subst hother
      obtain rfl := Option.some.inj (hrow.symm.trans hlookup)
      simp only [Function.update_self]
      omega
    · rw [WorkIndex.lookup_markWorkDue_other hother] at hlookup
      simpa [Function.update_of_ne hother] using h.floor other row' hlookup
  · rcases List.mem_cons.mp hmark with rfl | hmark
    · exact ⟨row, hrow, hle⟩
    · obtain ⟨old, hold, holdle⟩ := h.standing mark hmark hnone
      by_cases hother : mark.workspace = workspace
      · rw [hother] at hold ⊢
        exact ⟨row, hrow, (hlower old hold).trans holdle⟩
      · exact ⟨old, (WorkIndex.lookup_markWorkDue_other hother).trans hold, holdle⟩
  · rcases List.mem_cons.mp hmark with rfl | hmark
    · cases hi
    · exact h.overwritten mark hmark i hi

/-- A visit that applies found the very `due_at` its reader observed, so the standing marks
it puts off were all at or above that. -/
theorem visit (h : IndexOk reconcileSeconds s) {i : ℕ} {visitor workspace : Uuid}
    {observed next : Option ℕ} {now : ℕ} {index : WorkIndex}
    (hread : s.reads[i]? = some ⟨visitor, workspace, observed⟩) (hnow : now ≤ s.clock)
    (hvisit : s.index.recordVisit workspace observed next now reconcileSeconds = some index) :
    IndexOk reconcileSeconds { s with
      index := index
      writtenAt := Function.update s.writtenAt workspace s.clock
      marks := s.marks.map (MarkRecord.overwrite i workspace
        (WorkIndex.visitDueAt next now reconcileSeconds)) } := by
  obtain ⟨hobserved, rfl⟩ := WorkIndex.recordVisit_eq_some hvisit
  have hfloor := WorkIndex.visitDueAt_le next now reconcileSeconds
  refine ⟨fun other row hlookup => ?_, fun mark hmark hnone => ?_, fun mark hmark j hj => ?_⟩
  · by_cases hother : other = workspace
    · subst hother
      obtain rfl := Option.some.inj ((AList.lookup_insert _).symm.trans hlookup)
      simp only [Function.update_self]
      omega
    · rw [AList.lookup_insert_ne hother] at hlookup
      simpa [Function.update_of_ne hother] using h.floor other row hlookup
  · obtain ⟨old, hold, rfl⟩ := List.mem_map.mp hmark
    unfold MarkRecord.overwrite at hnone ⊢
    split at hnone
    case isTrue => cases hnone
    case isFalse hkept =>
      rw [if_neg hkept]
      obtain ⟨row, hrow, hle⟩ := h.standing old hold hnone
      by_cases hother : old.workspace = workspace
      · subst hother
        refine ⟨_, AList.lookup_insert _, ?_⟩
        exact not_lt.mp fun hlater => hkept ⟨rfl, hnone, hlater⟩
      · exact ⟨row, (AList.lookup_insert_ne hother).trans hrow, hle⟩
  · obtain ⟨old, hold, rfl⟩ := List.mem_map.mp hmark
    unfold MarkRecord.overwrite at hj ⊢
    split at hj
    case isTrue hput =>
      obtain rfl := Option.some.inj hj
      rw [if_pos hput]
      obtain ⟨rfl, hnone, -⟩ := hput
      obtain ⟨row, hrow, hle⟩ := h.standing old hold hnone
      exact ⟨_, row.dueAt, hread, rfl, by simpa [hrow] using hobserved.symm, hle⟩
    case isFalse hkept =>
      rw [if_neg hkept]
      exact h.overwritten old hold j hj

/-- Every call keeps the index. -/
theorem step {t : IndexState} {a : IndexAction} (h : IndexOk reconcileSeconds s)
    (hstep : s.step reconcileSeconds a = some t) : IndexOk reconcileSeconds t := by
  cases a with
  | tick elapsed =>
    obtain rfl := Option.some.inj hstep
    exact ⟨h.floor, h.standing, h.overwritten⟩
  | registry active =>
    obtain rfl := Option.some.inj hstep
    exact ⟨h.floor, h.standing, h.overwritten⟩
  | read visitor now limit =>
    obtain ⟨-, rfl⟩ := by simpa [IndexState.step] using hstep
    exact h.read _
  | mark workspace due now =>
    obtain ⟨⟨hdue, -⟩, rfl⟩ := by simpa [IndexState.step] using hstep
    exact h.mark hdue
  | visit i next now =>
    simp only [IndexState.step] at hstep
    split at hstep
    case h_1 hread =>
      obtain ⟨⟨hnow, -⟩, hstep⟩ := Option.ite_none_right_eq_some.mp hstep
      split at hstep
      case h_1 =>
        obtain rfl := Option.some.inj hstep
        exact h
      case h_2 hvisit =>
        obtain rfl := Option.some.inj hstep
        exact h.visit hread hnow hvisit
    case h_2 => cases hstep

end IndexOk

theorem workIndex_ok {reconcileSeconds : ℕ} {s : IndexState}
    (hs : (workIndex reconcileSeconds).Reachable s) : IndexOk reconcileSeconds s := by
  refine Machine.IsInvariant.of_reachable ⟨?_, fun _ _ _ hok hstep => hok.step hstep⟩ hs
  rintro s ⟨hindex, -, hmarks⟩
  exact ⟨by simp [hindex], by simp [hmarks], by simp [hmarks]⟩

/-- Work is hidden for one reconcile interval at most: an active workspace has no row, or is
due within the interval of its row's last write. A mark keeps its workspace due until a visit
overwrites it, and the visit of a reader who observed no row, or a later `due_at` than the
mark, never does, whichever of the mark and the read came first. -/
theorem due_work_never_hidden {reconcileSeconds : ℕ} {s : IndexState}
    (hs : (workIndex reconcileSeconds).Reachable s) :
    (∀ workspace ∈ s.active, s.index.lookup workspace = none ∨
      ∃ row, s.index.lookup workspace = some row ∧
        row.dueAt ≤ s.writtenAt workspace + seconds reconcileSeconds) ∧
    (∀ mark ∈ s.marks, mark.overwrittenBy = none →
      ∃ row, s.index.lookup mark.workspace = some row ∧ row.dueAt ≤ mark.due) ∧
    ∀ mark ∈ s.marks, ∀ i read, s.reads[i]? = some read →
      read.found.workspaceId = mark.workspace →
      (∀ observed, read.found.observedDueAt = some observed → mark.due < observed) →
      mark.overwrittenBy ≠ some i := by
  have hok := workIndex_ok hs
  refine ⟨fun workspace _ => ?_, hok.standing, fun mark hmark i read hread _ hbelow hi => ?_⟩
  · cases hrow : s.index.lookup workspace with
    | none => exact .inl rfl
    | some row => exact .inr ⟨row, rfl, hok.floor workspace row hrow⟩
  · obtain ⟨read', observed, hread', -, hobserved, hle⟩ := hok.overwritten mark hmark i hi
    obtain rfl := Option.some.inj (hread.symm.trans hread')
    exact absurd (hbelow observed hobserved) (not_lt.mpr hle)

/-- A workspace that was never visited is read, marked while its visit goes on, and visited;
it is read again and put off by the second visit. -/
def markedVisit : List IndexAction :=
  [.tick 5, .registry [7], .read 1 5 10, .mark 7 4 5, .visit 0 none 5, .read 2 5 10,
    .visit 1 (some 9) 5, .mark 7 3 5]

/-- The state `markedVisit` ends in. -/
def afterMarkedVisit : IndexState :=
  ((workIndex 60).run ⟨0, [], ∅, fun _ => 0, [], []⟩ markedVisit).getD
    ⟨0, [], ∅, fun _ => 0, [], []⟩

/-- A mark made during a visit stands after it. -/
theorem due_work_never_hidden_markedVisit :
    afterMarkedVisit.marks = [⟨7, 3, none⟩, ⟨7, 4, some 1⟩] ∧
    ∃ row, afterMarkedVisit.index.lookup 7 = some row ∧ row.dueAt ≤ 3 := by
  have hrun : (workIndex 60).run ⟨0, [], ∅, fun _ => 0, [], []⟩ markedVisit =
      some afterMarkedVisit := rfl
  have hmarks : afterMarkedVisit.marks = [⟨7, 3, none⟩, ⟨7, 4, some 1⟩] := rfl
  obtain ⟨-, hstanding, -⟩ :=
    due_work_never_hidden (Machine.reachable_of_run ⟨rfl, rfl, rfl⟩ hrun)
  exact ⟨hmarks, hstanding ⟨7, 3, none⟩ (by simp [hmarks]) rfl⟩

end Rheostream
