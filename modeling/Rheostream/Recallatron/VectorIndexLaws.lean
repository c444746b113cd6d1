import Rheostream.Recallatron.VectorIndex

/-!
# The vector-write handshake

A vector that is not committed belongs to a row its writer locks, so the row cannot change
under it, and a row that changes is locked until the vectors it had are deleted with it.
-/

namespace Rheostream.Recallatron.Embedding

/-! ### Rows -/

theorem isLiveMemory_iff {row : MemoryRow} :
    isLiveMemory row = true ↔ row.invalidatedAt = none ∧ row.supersededById = none := by
  simp [isLiveMemory, Option.isNone_iff_eq_none]

theorem lookup_writes_cons (id id' : Uuid) (change : Option MemoryRow)
    (writes : List (Uuid × Option MemoryRow)) : ((id, change) :: writes).lookup id' =
      if id' = id then some change else writes.lookup id' := by
  rw [List.lookup_cons]
  by_cases h : id' = id
  · simp [h]
  · have hne : (id' == id) = false := by simpa using h
    rw [hne, if_neg h]

theorem lookup_applyWrites (memories : Table Uuid MemoryRow)
    (writes : List (Uuid × Option MemoryRow)) (id : Uuid) :
    (applyWrites memories writes).lookup id =
      (writes.lookup id).getD (memories.lookup id) := by
  induction writes with
  | nil => rfl
  | cons w rest ih =>
    obtain ⟨id', change⟩ := w
    cases change with
    | some row =>
      have hstep : applyWrites memories ((id', some row) :: rest) =
          (applyWrites memories rest).insert id' row := rfl
      rw [hstep, Table.lookup_insert, lookup_writes_cons, ih]
      split_ifs <;> rfl
    | none =>
      have hstep : applyWrites memories ((id', none) :: rest) =
          (applyWrites memories rest).erase id' := rfl
      rw [hstep, lookup_writes_cons]
      split_ifs with hid
      · rw [hid, AList.lookup_erase, Option.getD_some]
      · rw [AList.lookup_erase_ne hid, ih]

@[simp] theorem unpoint_invalidatedAt (writes : List (Uuid × Option MemoryRow))
    (row : MemoryRow) : (unpoint writes row).invalidatedAt = row.invalidatedAt := by
  unfold unpoint
  split_ifs <;> rfl

/-- A row that is superseded is invalidated. -/
def Paired (row : MemoryRow) : Prop :=
  row.supersededById.isSome = true → row.invalidatedAt.isSome = true

theorem Paired.unpoint {row : MemoryRow} (h : Paired row)
    (writes : List (Uuid × Option MemoryRow)) : Paired (unpoint writes row) := by
  intro hsuper
  rw [unpoint_invalidatedAt]
  unfold Embedding.unpoint at hsuper
  split_ifs at hsuper with hpoints
  · cases hsuper
  · exact h hsuper

/-- Losing the pointer to its successor makes no row live. -/
theorem Paired.live_of_unpoint {row : MemoryRow} (h : Paired row)
    {writes : List (Uuid × Option MemoryRow)}
    (hlive : isLiveMemory (Embedding.unpoint writes row) = true) : isLiveMemory row = true := by
  have hat := (isLiveMemory_iff.mp hlive).1
  rw [unpoint_invalidatedAt] at hat
  have hsuper : row.supersededById = none := by
    by_contra hne
    have := h (Option.isSome_iff_ne_none.mpr hne)
    rw [hat] at this
    cases this
  exact isLiveMemory_iff.mpr ⟨hat, hsuper⟩

theorem unpoint_of_live {row : MemoryRow} (h : isLiveMemory row = true)
    (writes : List (Uuid × Option MemoryRow)) : unpoint writes row = row := by
  unfold unpoint
  rw [(isLiveMemory_iff.mp h).2]
  rfl

/-! ### What a flight keeps -/

/-- The memory is live and reads so. -/
def Holds (memories : Table Uuid MemoryRow) (id : Uuid) (item : IndexItem) : Prop :=
  ∃ row, memories.lookup id = some row ∧ isLiveMemory row = true ∧ row.item = item

/-- What a writer keeps between two statements: the rows it changed and did not delete lose
their vectors, and those that are live get a job. -/
structure WriterOk (embeddings : Table EmbeddingKey MemoryEmbeddingRow) (commits : ℕ)
    (w : Writer) : Prop where
  paired : ∀ id row, w.writes.lookup id = some (some row) → Paired row
  clears : ∀ id, .deleteMemoryEmbeddings id ∈ w.rest → (w.writes.lookup id).isSome = true
  cleared : ∀ id row, w.writes.lookup id = some (some row) →
    .deleteMemoryEmbeddings id ∈ w.rest ∨ ∀ model v, embeddings.lookup (id, model) = some v →
      ((id, model), v.writtenBy) ∈ w.pruned
  prunes : ∀ p ∈ w.pruned, (w.writes.lookup p.1.1).isSome = true ∧ p.2 < commits
  queues : ∀ id row, w.writes.lookup id = some (some row) → isLiveMemory row = true →
    .enqueueEmbedJob id ∈ w.rest ∨ id ∈ w.queued ∨ id ∈ w.skipped

/-- The row an embed job works on. -/
def JobPhase.row : JobPhase → Option MemoryRow
  | .locked row | .called row _ | .wrote row _ => some row
  | .claimed | .returned => none

/-- What an embed job keeps: the row it read is the row. -/
structure JobOk (memories : Table Uuid MemoryRow) (commits : ℕ) (j : JobRun) : Prop where
  queuedBy : j.job.queuedBy < commits
  row : ∀ row, j.phase.row = some row →
    memories.lookup j.job.memoryId = some row ∧ isLiveMemory row = true

/-- The rebuild inserted a vector for the memory, or queued a job for it. -/
def Rebuild.Covers (r : Rebuild) (id : Uuid) : Prop :=
  (∃ v ∈ r.vectors, v.1 = (id, r.model)) ∨ id ∈ r.queued

/-- What a rebuild keeps. -/
structure RebuildOk (memories : Table Uuid MemoryRow)
    (embeddings : Table EmbeddingKey MemoryEmbeddingRow) (commits : ℕ) (r : Rebuild) : Prop where
  items : ∀ items after, r.phase = .inserting items after → ∀ i ∈ items,
    i.1 ∈ r.shared ∧ Holds memories i.1 i.2
  vectors : ∀ v ∈ r.vectors, v.1.1 ∈ r.shared ∧ Holds memories v.1.1 v.2
  prunes : ∀ p ∈ r.pruned, p.2 < commits
  covers : r.phase = .handedOff → ∀ id v, embeddings.lookup (id, r.model) = some v →
    ((id, r.model), v.writtenBy) ∈ r.pruned → r.Covers id

/-- What a flight keeps. -/
def FlightOk (memories : Table Uuid MemoryRow)
    (embeddings : Table EmbeddingKey MemoryEmbeddingRow) (commits : ℕ) : Flight → Prop
  | .writing w => WriterOk embeddings commits w
  | .embedding j => JobOk memories commits j
  | .rebuilding r => RebuildOk memories embeddings commits r

/-- Nothing that the one flight changed is locked by the other. -/
def Apart (f g : Flight) : Prop :=
  ∀ id, f.owns id = true → g.owns id = false ∧ g.shares id = false

/-- What every reachable state satisfies. -/
structure Sound (s : IndexState) : Prop where
  paired : ∀ id row, s.memories.lookup id = some row → Paired row
  fresh : ∀ key v, s.embeddings.lookup key = some v → Holds s.memories key.1 v.madeFrom
  writtenBy : ∀ key v, s.embeddings.lookup key = some v → v.writtenBy < s.commits
  queuedBy : ∀ job ∈ s.jobs, job.queuedBy < s.commits
  flights : ∀ tx f, s.flights.lookup tx = some f →
    FlightOk s.memories s.embeddings s.commits f
  apart : ∀ tx tx' f g, tx ≠ tx' → s.flights.lookup tx = some f →
    s.flights.lookup tx' = some g → Apart f g

variable {s t : IndexState} {tx : ℕ}

theorem mem_embeddingsWhere {p : EmbeddingKey → Bool} {e : EmbeddingKey × ℕ} :
    e ∈ s.embeddingsWhere p ↔
      p e.1 = true ∧ ∃ v, s.embeddings.lookup e.1 = some v ∧ v.writtenBy = e.2 := by
  obtain ⟨key, n⟩ := e
  simp only [IndexState.embeddingsWhere, List.mem_map, Prod.mk.injEq]
  constructor
  · rintro ⟨⟨key', v⟩, hmem, rfl, rfl⟩
    have hlookup := AList.mem_lookup_iff.mpr hmem
    rw [Option.mem_def, Table.lookup_select, Option.filter_eq_some_iff] at hlookup
    exact ⟨hlookup.2, v, hlookup.1, rfl⟩
  · rintro ⟨hp, v, hlookup, rfl⟩
    refine ⟨⟨key, v⟩, AList.mem_lookup_iff.mp ?_, rfl, rfl⟩
    rw [Option.mem_def, Table.lookup_select, Option.filter_eq_some_iff]
    exact ⟨hlookup, hp⟩

variable {id : Uuid}

theorem not_owned_elsewhere (h : s.ownedElsewhere tx id = false) {tx' : ℕ}
    {g : Flight} (hne : tx' ≠ tx) (hg : s.flights.lookup tx' = some g) : g.owns id = false := by
  have hrow := Table.existsRow_eq_false.mp h tx' g hg
  simpa [hne] using hrow

theorem not_held_elsewhere (h : s.heldElsewhere tx id = false) {tx' : ℕ}
    {g : Flight} (hne : tx' ≠ tx) (hg : s.flights.lookup tx' = some g) :
    g.owns id = false ∧ g.shares id = false := by
  have hrow := Table.existsRow_eq_false.mp h tx' g hg
  simpa [hne] using hrow

variable {r : Rebuild}

/-- A live row that a rebuild takes for unembedded, and only such a row, is missing. -/
theorem mem_missing :
    id ∈ s.missing r ↔
      ∃ row, s.memories.lookup id = some row ∧ isLiveMemory row = true ∧
        s.hasEmbedding r id = false := by
  simp only [IndexState.missing, List.mem_map]
  constructor
  · rintro ⟨⟨id', row⟩, hmem, rfl⟩
    have hlookup := AList.mem_lookup_iff.mpr ((sortedBy_perm _ _).mem_iff.mp hmem)
    rw [Option.mem_def, Table.lookup_select, Option.filter_eq_some_iff] at hlookup
    obtain ⟨hrow, hcond⟩ := hlookup
    rw [Bool.and_eq_true, Bool.not_eq_true'] at hcond
    exact ⟨row, hrow, hcond.1, hcond.2⟩
  · rintro ⟨row, hrow, hlive, hlacks⟩
    refine ⟨⟨id, row⟩, (sortedBy_perm _ _).mem_iff.mpr (AList.mem_lookup_iff.mp ?_), rfl⟩
    rw [Option.mem_def, Table.lookup_select, Option.filter_eq_some_iff]
    exact ⟨hrow, by simp [hlive, hlacks]⟩

theorem hasEmbedding_iff :
    s.hasEmbedding r id = true ↔ (∃ v ∈ r.vectors, v.1 = (id, r.model)) ∨
      ∃ v, s.embeddings.lookup (id, r.model) = some v ∧
        ((id, r.model), v.writtenBy) ∉ r.pruned := by
  simp only [IndexState.hasEmbedding, Bool.or_eq_true, List.any_eq_true, decide_eq_true_eq,
    Option.any_eq_true, Bool.not_eq_true', List.contains_eq_mem, decide_eq_false_iff_not]

/-! ### Writers -/

/-- A statement that neither deletes vectors nor queues a job. -/
def Statement.Plain (statement : Statement) : Prop :=
  (∀ id, statement ≠ .deleteMemoryEmbeddings id) ∧ ∀ id, statement ≠ .enqueueEmbedJob id

namespace WriterOk

variable {embeddings : Table EmbeddingKey MemoryEmbeddingRow} {commits : ℕ} {w : Writer}
  {statement : Statement} {rest : List Statement}

/-- A plain statement may be left out. -/
theorem skip (h : WriterOk embeddings commits { w with rest := statement :: rest })
    (hplain : statement.Plain) : WriterOk embeddings commits { w with rest := rest } where
  paired := h.paired
  clears id hmem := h.clears id (List.mem_cons_of_mem _ hmem)
  cleared id row hrow := by
    refine (h.cleared id row hrow).imp_left fun hmem => ?_
    exact (List.mem_cons.mp hmem).resolve_left (hplain.1 id).symm
  prunes := h.prunes
  queues id row hrow hlive := by
    refine (h.queues id row hrow hlive).imp_left fun hmem => ?_
    exact (List.mem_cons.mp hmem).resolve_left (hplain.2 id).symm

/-- A plain statement may be put first. -/
theorem push (h : WriterOk embeddings commits { w with rest := rest })
    (hplain : statement.Plain) :
    WriterOk embeddings commits { w with rest := statement :: rest } where
  paired := h.paired
  clears id hmem := h.clears id ((List.mem_cons.mp hmem).resolve_left (hplain.1 id).symm)
  cleared id row hrow := (h.cleared id row hrow).imp_left (List.mem_cons_of_mem _)
  prunes := h.prunes
  queues id row hrow hlive := (h.queues id row hrow hlive).imp_left (List.mem_cons_of_mem _)

/-- A row is changed, and what the change calls for is put first. -/
theorem write (h : WriterOk embeddings commits { w with rest :=
      rest }) {row : MemoryRow} (before : List Statement) (hpaired : Paired row)
    (hbefore : ∀ id', .deleteMemoryEmbeddings id' ∈ before → id' = id)
    (hclears : .deleteMemoryEmbeddings id ∈ before ∨
      ∀ model, embeddings.lookup (id, model) = none)
    (hqueues : isLiveMemory row = true → .enqueueEmbedJob id ∈ before) :
    WriterOk embeddings commits
      { w with rest := before ++ rest, writes := (id, some row) :: w.writes } where
  paired id' row' hrow := by
    rw [lookup_writes_cons] at hrow
    split_ifs at hrow with hid
    · cases hrow
      exact hpaired
    · exact h.paired id' row' hrow
  clears id' hmem := by
    rw [lookup_writes_cons]
    split_ifs with hid
    · rfl
    · rcases List.mem_append.mp hmem with hmem | hmem
      · exact absurd (hbefore id' hmem) hid
      · exact h.clears id' hmem
  cleared id' row' hrow := by
    rw [lookup_writes_cons] at hrow
    split_ifs at hrow with hid
    · subst hid
      rcases hclears with hmem | hnone
      · exact Or.inl (List.mem_append_left _ hmem)
      · right
        intro model v hv
        rw [hnone model] at hv
        cases hv
    · exact (h.cleared id' row' hrow).imp_left (List.mem_append_right _)
  prunes p hp := by
    refine ⟨?_, (h.prunes p hp).2⟩
    rw [lookup_writes_cons]
    split_ifs
    · rfl
    · exact (h.prunes p hp).1
  queues id' row' hrow hlive := by
    rw [lookup_writes_cons] at hrow
    split_ifs at hrow with hid
    · cases hrow
      subst hid
      exact Or.inl (List.mem_append_left _ (hqueues hlive))
    · exact (h.queues id' row' hrow hlive).imp_left (List.mem_append_right _)

/-- A row is deleted. -/
theorem delete (h : WriterOk embeddings commits { w with rest := rest }) (id : Uuid) :
    WriterOk embeddings commits
      { w with rest := rest, writes := (id, none) :: w.writes } where
  paired id' row' hrow := by
    rw [lookup_writes_cons] at hrow
    split_ifs at hrow
    · cases hrow
    · exact h.paired id' row' hrow
  clears id' hmem := by
    rw [lookup_writes_cons]
    split_ifs
    · rfl
    · exact h.clears id' hmem
  cleared id' row' hrow := by
    rw [lookup_writes_cons] at hrow
    split_ifs at hrow
    · cases hrow
    · exact h.cleared id' row' hrow
  prunes p hp := by
    refine ⟨?_, (h.prunes p hp).2⟩
    rw [lookup_writes_cons]
    split_ifs
    · rfl
    · exact (h.prunes p hp).1
  queues id' row' hrow hlive := by
    rw [lookup_writes_cons] at hrow
    split_ifs at hrow
    · cases hrow
    · exact h.queues id' row' hrow hlive

end WriterOk

/-- A row that a writer sees is paired. -/
theorem paired_of_rowSeen (hs : Sound s) {w : Writer}
    (hok : WriterOk s.embeddings s.commits w) {row : MemoryRow}
    (h : s.rowSeen w id = some row) : Paired row := by
  unfold IndexState.rowSeen at h
  cases hw : w.writes.lookup id with
  | none =>
    rw [hw] at h
    exact hs.paired id row h
  | some change =>
    rw [hw] at h
    obtain rfl : change = some row := h
    exact hok.paired id row hw

/-- What a statement leaves, and the rows it locks. -/
theorem issue_ok (hs : Sound s) {w w' : Writer} {statement : Statement} {rest : List Statement}
    {strategyName : String} {provider : Option ModelId}
    (hok : WriterOk s.embeddings s.commits { w with rest := statement :: rest })
    (h : s.issue tx strategyName provider { w with rest := rest } statement = some w') :
    WriterOk s.embeddings s.commits w' ∧ ∀ id, (w'.writes.lookup id).isSome = true →
      (w.writes.lookup id).isSome = true ∨ s.heldElsewhere tx id = false := by
  -- a statement that locks one more row
  have hlocks : ∀ (id : Uuid) (change : Option MemoryRow), s.heldElsewhere tx id = false →
      ∀ id', (((id, change) :: w.writes).lookup id').isSome = true →
        (w.writes.lookup id').isSome = true ∨ s.heldElsewhere tx id' = false := by
    intro id change hfree id' hsome
    rw [lookup_writes_cons] at hsome
    split_ifs at hsome with hid
    · exact Or.inr (hid ▸ hfree)
    · exact Or.inl hsome
  have hrest : statement.Plain → WriterOk s.embeddings s.commits { w with rest := rest } :=
    fun hplain => hok.skip hplain
  cases statement with
  | target id expectedRevision =>
    have hskip := hrest ⟨by simp, by simp⟩
    simp only [IndexState.issue] at h
    split at h
    · cases h
    · split_ifs at h
      cases h
      exact ⟨hskip, fun _ hsome => Or.inl hsome⟩
  | insertMemory id title body =>
    have hskip := hrest ⟨by simp, by simp⟩
    simp only [IndexState.issue] at h
    split_ifs at h with hcond
    cases h
    simp only [Bool.or_eq_true, not_or, Bool.not_eq_true] at hcond
    obtain ⟨⟨hseen, hown⟩, hfree⟩ := hcond
    refine ⟨hskip.write [.enqueueEmbedJob id] ?_ (by simp) (Or.inr ?_) (by simp),
      hlocks id _ hfree⟩
    · intro hsuper
      cases hsuper
    · intro model
      cases hv : s.embeddings.lookup (id, model) with
      | none => rfl
      | some v =>
        obtain ⟨row, hrow, -⟩ := hs.fresh (id, model) v hv
        have hnone : w.writes.lookup id = none := by simpa using hown
        simp [IndexState.rowSeen, hnone, hrow] at hseen
  | correctMemory id title body expectedRevision =>
    have hskip := hrest ⟨by simp, by simp⟩
    simp only [IndexState.issue] at h
    split at h
    · cases h
    · rename_i row hrow
      split_ifs at h with hcond
      cases h
      simp only [Bool.or_eq_true, not_or, Bool.not_eq_true] at hcond
      refine ⟨hskip.write [.deleteMemoryEmbeddings id, .enqueueEmbedJob id] ?_
        (by simp) (Or.inl (by simp)) (by simp), hlocks id _ hcond.2⟩
      intro hsuper
      have hpaired : Paired row := paired_of_rowSeen hs hskip hrow
      exact hpaired hsuper
  | markInvalidated id now =>
    have hskip := hrest ⟨by simp, by simp⟩
    simp only [IndexState.issue] at h
    split at h
    · cases h
      exact ⟨hskip, fun _ hsome => Or.inl hsome⟩
    · split_ifs at h
      · cases h
        exact ⟨hskip, fun _ hsome => Or.inl hsome⟩
      · cases h
        exact ⟨hskip.push ⟨by simp, by simp⟩, fun _ hsome => Or.inl hsome⟩
  | retirePredecessor id expectedRevision successor now =>
    have hskip := hrest ⟨by simp, by simp⟩
    simp only [IndexState.issue] at h
    split at h
    · cases h
    · split_ifs at h
      cases h
      exact ⟨hskip.push ⟨by simp, by simp⟩, fun _ hsome => Or.inl hsome⟩
  | invalidateMemory id expectedRevision successor now =>
    have hskip := hrest ⟨by simp, by simp⟩
    simp only [IndexState.issue] at h
    split at h
    · cases h
    · rename_i row hrow
      split_ifs at h with hcond
      cases h
      simp only [Bool.or_eq_true, not_or, Bool.not_eq_true] at hcond
      refine ⟨hskip.write [.deleteMemoryEmbeddings id] ?_
        (by simp) (Or.inl (by simp)) ?_, hlocks id _ hcond.2⟩
      · intro _
        rfl
      · intro hlive
        cases (isLiveMemory_iff.mp hlive).1
  | deleteMemoryEmbeddings id =>
    simp only [IndexState.issue, Option.some.injEq] at h
    subst h
    refine ⟨⟨hok.paired, fun id' hmem => hok.clears id' (List.mem_cons_of_mem _ hmem), ?_, ?_, ?_⟩,
      fun _ hsome => Or.inl hsome⟩
    · intro id' row hrow
      by_cases hid : id' = id
      · right
        intro model v hv
        exact List.mem_append_left _ (mem_embeddingsWhere.mpr ⟨by simp [hid], v, hv, rfl⟩)
      · refine (hok.cleared id' row hrow).imp (fun hmem => ?_)
          fun hall model v hv => List.mem_append_right _ (hall model v hv)
        exact (List.mem_cons.mp hmem).resolve_left (by simp [hid])
    · intro p hp
      rcases List.mem_append.mp hp with hp | hp
      · obtain ⟨hkey, v, hv, hby⟩ := mem_embeddingsWhere.mp hp
        have hid : p.1.1 = id := by simpa using hkey
        exact ⟨hid ▸ hok.clears id List.mem_cons_self, hby ▸ hs.writtenBy _ v hv⟩
      · exact hok.prunes p hp
    · intro id' row hrow hlive
      refine (hok.queues id' row hrow hlive).imp_left fun hmem => ?_
      exact (List.mem_cons.mp hmem).resolve_left (by simp)
  | enqueueEmbedJob id =>
    have hclears := fun id' (hmem : .deleteMemoryEmbeddings id' ∈ rest) =>
      hok.clears id' (List.mem_cons_of_mem _ hmem)
    have hcleared := fun id' row hrow => (hok.cleared id' row hrow).imp_left fun hmem =>
      (List.mem_cons.mp hmem).resolve_left (by simp)
    have hqueues : ∀ id' row, w.writes.lookup id' = some (some row) → isLiveMemory row = true →
        id' = id ∨ .enqueueEmbedJob id' ∈ rest ∨ id' ∈ w.queued ∨ id' ∈ w.skipped := by
      intro id' row hrow hlive
      rcases hok.queues id' row hrow hlive with hmem | hdone
      · rcases List.mem_cons.mp hmem with heq | hmem
        · cases heq
          exact Or.inl rfl
        · exact Or.inr (Or.inl hmem)
      · exact Or.inr (Or.inr hdone)
    simp only [IndexState.issue] at h
    split_ifs at h
    · cases h
      refine ⟨⟨hok.paired, hclears, hcleared, hok.prunes, fun id' row hrow hlive => ?_⟩,
        fun _ hsome => Or.inl hsome⟩
      rcases hqueues id' row hrow hlive with rfl | hmem | hmem | hmem
      · exact Or.inr (Or.inl List.mem_cons_self)
      · exact Or.inl hmem
      · exact Or.inr (Or.inl (List.mem_cons_of_mem _ hmem))
      · exact Or.inr (Or.inr hmem)
    · cases h
      refine ⟨⟨hok.paired, hclears, hcleared, hok.prunes, fun id' row hrow hlive => ?_⟩,
        fun _ hsome => Or.inl hsome⟩
      rcases hqueues id' row hrow hlive with rfl | hmem | hmem | hmem
      · exact Or.inr (Or.inr List.mem_cons_self)
      · exact Or.inl hmem
      · exact Or.inr (Or.inl hmem)
      · exact Or.inr (Or.inr (List.mem_cons_of_mem _ hmem))
  | deleteMemory id expectedRevision =>
    have hskip := hrest ⟨by simp, by simp⟩
    simp only [IndexState.issue] at h
    split at h
    · split_ifs at h
      cases h
      exact ⟨hskip, fun _ hsome => Or.inl hsome⟩
    · split_ifs at h with hcond
      cases h
      simp only [Bool.or_eq_true, not_or, Bool.not_eq_true] at hcond
      exact ⟨hskip.delete id, hlocks id _ hcond.2⟩

/-! ### Jobs and rebuilds -/

variable {j : JobRun}

theorem lockMemory_ok {j' : JobRun} (hok : JobOk s.memories s.commits j)
    (h : s.lockMemory tx j = some j') :
    JobOk s.memories s.commits j' ∧ j'.job = j.job ∧
      s.ownedElsewhere tx j.job.memoryId = false := by
  unfold IndexState.lockMemory at h
  split_ifs at h with howned
  have hfree := Bool.eq_false_iff.mpr howned
  split at h
  · cases h
    exact ⟨⟨hok.queuedBy, fun _ hrow => by cases hrow⟩, rfl, hfree⟩
  · rename_i row hrow
    split_ifs at h with hlive
    · cases h
      refine ⟨⟨hok.queuedBy, ?_⟩, rfl, hfree⟩
      intro row' hrow'
      cases hrow'
      exact ⟨hrow, hlive⟩
    · cases h
      exact ⟨⟨hok.queuedBy, fun _ hrow => by cases hrow⟩, rfl, hfree⟩

theorem resolveProvider_ok {row : MemoryRow} (provider : Option ModelId)
    (hok : JobOk s.memories s.commits j) (hphase : j.phase = .locked row) :
    JobOk s.memories s.commits (s.resolveProvider provider j row) ∧
      (s.resolveProvider provider j row).job = j.job := by
  have hheld := hok.row row (by rw [hphase]; rfl)
  unfold IndexState.resolveProvider
  split
  · exact ⟨⟨hok.queuedBy, fun _ hrow => by cases hrow⟩, rfl⟩
  · split
    · exact ⟨⟨hok.queuedBy, fun _ hrow => by cases hrow⟩, rfl⟩
    · refine ⟨⟨hok.queuedBy, ?_⟩, rfl⟩
      intro row' hrow'
      cases hrow'
      exact hheld

theorem insertVector_ok {j' : JobRun} {row : MemoryRow} {model : ModelId}
    (hok : JobOk s.memories s.commits j) (hphase : j.phase = .called row model)
    (h : s.insertVector tx j row model = some j') :
    JobOk s.memories s.commits j' ∧ j'.job = j.job := by
  have hheld := hok.row row (by rw [hphase]; rfl)
  unfold IndexState.insertVector at h
  split_ifs at h
  split at h
  · cases h
    exact ⟨⟨hok.queuedBy, fun _ hrow => by cases hrow⟩, rfl⟩
  · cases h
    refine ⟨⟨hok.queuedBy, ?_⟩, rfl⟩
    intro row' hrow'
    cases hrow'
    exact hheld

/-- A batch is read of live memories that no other flight changed. -/
theorem readBatch_ok {after : Option Uuid}
    (hok : RebuildOk s.memories s.embeddings s.commits r) :
    RebuildOk s.memories s.embeddings s.commits (s.readBatch tx r after) ∧
      ∀ id ∈ (s.readBatch tx r after).shared, id ∈ r.shared ∨ s.ownedElsewhere tx id = false := by
  have hids : ∀ id ∈ ((s.missing r).filter fun id =>
      (after.all fun a => a < id) && !s.ownedElsewhere tx id).take r.batchSize,
      id ∈ s.missing r ∧ s.ownedElsewhere tx id = false := by
    intro id hid
    have hmem := List.mem_filter.mp (List.mem_of_mem_take hid)
    simp only [Bool.and_eq_true, Bool.not_eq_true'] at hmem
    exact ⟨hmem.1, hmem.2.2⟩
  refine ⟨⟨?_, ?_, hok.prunes, ?_⟩, ?_⟩
  · intro items next hphase i hi
    obtain ⟨rfl, -⟩ := RebuildPhase.inserting.inj hphase
    obtain ⟨id, hid, hrow⟩ := List.mem_filterMap.mp hi
    obtain ⟨row, hlookup, rfl⟩ := Option.map_eq_some_iff.mp hrow
    obtain ⟨row', hlookup', hlive, -⟩ := mem_missing.mp (hids id hid).1
    obtain rfl : row = row' := Option.some.inj (hlookup.symm.trans hlookup')
    exact ⟨List.mem_append_left _ hid, row, hlookup, hlive, rfl⟩
  · intro v hv
    obtain ⟨hshared, hholds⟩ := hok.vectors v hv
    exact ⟨List.mem_append_right _ hshared, hholds⟩
  · intro hphase
    cases hphase
  · intro id hid
    rcases List.mem_append.mp hid with hid | hid
    · exact Or.inr (hids id hid).2
    · exact Or.inl hid

/-- A rebuild that deletes vectors and reads no batch keeps what it keeps. -/
theorem RebuildOk.move {memories : Table Uuid MemoryRow}
    {embeddings : Table EmbeddingKey MemoryEmbeddingRow} {commits : ℕ} (hok : RebuildOk memories
      embeddings commits r) {phase : RebuildPhase}
    {pruned : List (EmbeddingKey × ℕ)} {stamp : Option ℕ} (hprunes : ∀ p ∈ pruned, p.2 < commits)
    (hitems : ∀ items after, phase ≠ .inserting items after) (hlast : phase ≠ .handedOff) :
    RebuildOk memories embeddings commits
      { r with pruned := pruned, phase := phase, stamp := stamp } where
  items items after hphase := absurd hphase (hitems items after)
  vectors := hok.vectors
  prunes := hprunes
  covers hphase := absurd hphase hlast

/-- A rebuild deletes committed vectors. -/
theorem Sound.prunes (hs : Sound s) (hok : RebuildOk s.memories s.embeddings s.commits r) (p :
      EmbeddingKey → Bool) :
    ∀ e ∈ s.embeddingsWhere p ++ r.pruned, e.2 < s.commits := by
  intro e he
  rcases List.mem_append.mp he with he | he
  · obtain ⟨-, v, hv, hby⟩ := mem_embeddingsWhere.mp he
    rw [← hby]
    exact hs.writtenBy _ v hv
  · exact hok.prunes e he

/-- The last look: a vector that the rebuild deleted is missing to it, unless it wrote
another one. -/
theorem handedOff_ok (hs : Sound s) (hok : RebuildOk s.memories s.embeddings s.commits r) :
    RebuildOk s.memories s.embeddings s.commits
      { r with queued := s.missing r ++ r.queued, phase := .handedOff } where
  items items after hphase := by cases hphase
  vectors := hok.vectors
  prunes := hok.prunes
  covers := by
    intro _ id v hv hpruned
    obtain ⟨row, hrow, hlive, -⟩ := hs.fresh _ v hv
    cases hhas : s.hasEmbedding r id with
    | false =>
      have hmissing := mem_missing.mpr ⟨row, hrow, hlive, hhas⟩
      exact Or.inr (List.mem_append_left _ hmissing)
    | true =>
      rcases hasEmbedding_iff.mp hhas with hown | ⟨v', hv', hkept⟩
      · exact Or.inl hown
      · obtain rfl : v = v' := Option.some.inj (hv.symm.trans hv')
        exact absurd hpruned hkept

/-- What the next statement of a rebuild leaves, and the rows it locks. -/
theorem rebuildStatement_ok (hs : Sound s) {r' : Rebuild}
    (hok : RebuildOk s.memories s.embeddings s.commits r) (h : s.rebuildStatement tx r = some r') :
    RebuildOk s.memories s.embeddings s.commits r' ∧
      ∀ id ∈ r'.shared, id ∈ r.shared ∨ s.ownedElsewhere tx id = false := by
  have hsame : ∀ id ∈ r.shared, id ∈ r.shared ∨ s.ownedElsewhere tx id = false :=
    fun _ hid => Or.inl hid
  unfold IndexState.rebuildStatement at h
  split at h
  · cases h
    exact ⟨hok.move (hs.prunes hok _) (by simp) (by simp), hsame⟩
  · split_ifs at h
    · cases h
      exact ⟨hok.move hok.prunes (by simp) (by simp), hsame⟩
    · cases h
      exact ⟨hok.move (hs.prunes hok _) (by simp) (by simp), hsame⟩
  · split_ifs at h
    · cases h
      exact ⟨hok.move hok.prunes (by simp) (by simp), hsame⟩
    · cases h
      exact ⟨hok.move hok.prunes (by simp) (by simp), hsame⟩
  · cases h
    exact readBatch_ok hok
  · cases h
    exact ⟨hok.move hok.prunes (by simp) (by simp), hsame⟩
  · cases h
    exact ⟨hok.move hok.prunes (by simp) (by simp), hsame⟩
  · rename_i item items after hphase
    have hitems : ∀ items' after', RebuildPhase.inserting items after = .inserting items' after' →
        ∀ i ∈ items', i.1 ∈ r.shared ∧ Holds s.memories i.1 i.2 := by
      intro items' after' heq i hi
      obtain ⟨rfl, -⟩ := RebuildPhase.inserting.inj heq
      exact hok.items _ _ hphase i (List.mem_cons_of_mem _ hi)
    split_ifs at h
    · cases h
      exact ⟨⟨hitems, hok.vectors, hok.prunes, by simp⟩, hsame⟩
    · cases h
      refine ⟨⟨hitems, ?_, hok.prunes, by simp⟩, hsame⟩
      intro v hv
      rcases List.mem_cons.mp hv with rfl | hv
      · exact hok.items _ _ hphase item List.mem_cons_self
      · exact hok.vectors v hv
  · cases h
    exact ⟨handedOff_ok hs hok, hsame⟩
  · cases h

/-! ### The flights -/

/-- A flight goes on when its locks are free. -/
theorem Sound.put (hs : Sound s) {f : Flight} (hok : FlightOk s.memories s.embeddings s.commits f)
    (howns : ∀ id, f.owns id = true →
      (∃ f₀, s.flights.lookup tx = some f₀ ∧ f₀.owns id = true) ∨ s.heldElsewhere tx id = false)
    (hshares : ∀ id, f.shares id = true →
      (∃ f₀, s.flights.lookup tx = some f₀ ∧ f₀.shares id = true) ∨
        s.ownedElsewhere tx id = false) : Sound (s.put tx f) := by
  have hleft : ∀ other g, other ≠ tx → s.flights.lookup other = some g → Apart f g := by
    intro other g hne hg id hid
    rcases howns id hid with ⟨f₀, hf₀, hid₀⟩ | hfree
    · exact hs.apart tx other f₀ g hne.symm hf₀ hg id hid₀
    · exact not_held_elsewhere hfree hne hg
  have hright : ∀ other g, other ≠ tx → s.flights.lookup other = some g → Apart g f := by
    intro other g hne hg id hid
    constructor
    · by_contra hown
      have := hleft other g hne hg id (by simpa using hown)
      rw [this.1] at hid
      cases hid
    · by_contra hshare
      rcases hshares id (by simpa using hshare) with ⟨f₀, hf₀, hid₀⟩ | hfree
      · have := (hs.apart other tx g f₀ hne hg hf₀ id hid).2
        rw [this] at hid₀
        cases hid₀
      · rw [not_owned_elsewhere hfree hne hg] at hid
        cases hid
  refine ⟨hs.paired, hs.fresh, hs.writtenBy, hs.queuedBy, ?_, ?_⟩
  · intro tx' g hg
    rw [IndexState.put, Table.lookup_insert] at hg
    split_ifs at hg
    · cases hg
      exact hok
    · exact hs.flights tx' g hg
  · intro tx₁ tx₂ f₁ f₂ hne h₁ h₂
    rw [IndexState.put, Table.lookup_insert] at h₁ h₂
    split_ifs at h₁ h₂ with htx₁ htx₂ htx₂
    · exact absurd (htx₁.trans htx₂.symm) hne
    · cases h₁
      exact hleft tx₂ f₂ htx₂ h₂
    · cases h₂
      exact hright tx₁ f₁ htx₁ h₁
    · exact hs.apart tx₁ tx₂ f₁ f₂ hne h₁ h₂

/-- A flight that locks nothing begins. -/
theorem Sound.start (hs : Sound s) {f : Flight}
    (hok : FlightOk s.memories s.embeddings s.commits f) (howns : ∀ id, f.owns id = false)
    (hshares : ∀ id, f.shares id = false) (h : s.start tx f = some t) : Sound t := by
  unfold IndexState.start at h
  split at h
  · cases h
  · cases h
    refine hs.put hok ?_ ?_
    · intro id hid
      rw [howns id] at hid
      cases hid
    · intro id hid
      rw [hshares id] at hid
      cases hid

theorem Sound.drop (hs : Sound s) (tx : ℕ) : Sound (s.drop tx) where
  paired := hs.paired
  fresh := hs.fresh
  writtenBy := hs.writtenBy
  queuedBy := hs.queuedBy
  flights tx' f hf := hs.flights tx' f (Table.lookup_erase_eq_some.mp hf).2
  apart tx₁ tx₂ f₁ f₂ hne h₁ h₂ := hs.apart tx₁ tx₂ f₁ f₂ hne
    (Table.lookup_erase_eq_some.mp h₁).2 (Table.lookup_erase_eq_some.mp h₂).2

/-! ### Commits -/

section Commit

variable {f : Flight}

theorem lookup_applied_memories (s : IndexState) (f : Flight) (id : Uuid) :
    (s.applied f).memories.lookup id =
      ((f.writes.lookup id).getD (s.memories.lookup id)).map (unpoint f.writes) := by
  rw [← lookup_applyWrites]
  exact Table.lookup_updateAll _ _ id

theorem lookup_writes_of_not_owns (h : f.owns id = false) :
    f.writes.lookup id = none := by
  simpa [Flight.owns] using h

/-- A live row that the flight did not change is as it was. -/
theorem live_row_applied {row : MemoryRow} (hrow : s.memories.lookup id = some row)
    (hlive : isLiveMemory row = true) (hown : f.owns id = false) :
    (s.applied f).memories.lookup id = some row := by
  rw [lookup_applied_memories, lookup_writes_of_not_owns hown, Option.getD_none, hrow,
    Option.map_some, unpoint_of_live hlive]

theorem Holds.applied {item : IndexItem} (h : Holds s.memories id item)
    (hown : f.owns id = false) : Holds (s.applied f).memories id item := by
  obtain ⟨row, hrow, hlive, hitem⟩ := h
  exact ⟨row, live_row_applied hrow hlive hown, hlive, hitem⟩

/-- A row that the flight did not change and is live was live. -/
theorem live_of_applied (hs : Sound s) {row : MemoryRow}
    (hrow : (s.applied f).memories.lookup id = some row) (hlive : isLiveMemory row = true)
    (hown : f.owns id = false) : s.memories.lookup id = some row := by
  rw [lookup_applied_memories, lookup_writes_of_not_owns hown, Option.getD_none] at hrow
  obtain ⟨old, hold, rfl⟩ := Option.map_eq_some_iff.mp hrow
  rw [unpoint_of_live ((hs.paired id old hold).live_of_unpoint hlive), hold]

/-- The vectors that the commit of a flight leaves. -/
theorem lookup_applied_embeddings (s : IndexState) (f : Flight) (key : EmbeddingKey) :
    (s.applied f).embeddings.lookup key =
      ((s.embeddings.lookup key).filter fun v =>
        !(f.pruned.contains (key, v.writtenBy) || f.writes.lookup key.1 = some none)).or
      (Table.rowOf (f.vectors.map fun v => (v.1, ⟨v.2, s.commits⟩)) key) := by
  simp only [IndexState.applied, Table.lookup_insertMissing, Table.lookup_deleteWhere]

variable {key : EmbeddingKey} {v : MemoryEmbeddingRow}

theorem embedding_of_applied (h : (s.applied f).embeddings.lookup key = some v) :
    (s.embeddings.lookup key = some v ∧ (key, v.writtenBy) ∉ f.pruned ∧
      f.writes.lookup key.1 ≠ some none) ∨
    ((key, v.madeFrom) ∈ f.vectors ∧ v.writtenBy = s.commits) := by
  rw [lookup_applied_embeddings, Option.or_eq_some_iff] at h
  rcases h with h | ⟨-, h⟩
  · obtain ⟨hv, hkept⟩ := Option.filter_eq_some_iff.mp h
    simp only [Bool.not_eq_true', Bool.or_eq_false_iff, List.contains_eq_mem,
      decide_eq_false_iff_not] at hkept
    exact Or.inl ⟨hv, hkept⟩
  · obtain ⟨e, hmem, heq⟩ := List.mem_map.mp (Table.mem_of_rowOf h)
    obtain ⟨rfl, rfl⟩ := Prod.mk.inj heq
    exact Or.inr ⟨hmem, rfl⟩

theorem embedding_kept (hv : s.embeddings.lookup key =
      some v) (hpruned : (key, v.writtenBy) ∉ f.pruned)
    (herased : f.writes.lookup key.1 ≠ some none) :
    (s.applied f).embeddings.lookup key = some v := by
  rw [lookup_applied_embeddings, Option.or_eq_some_iff]
  left
  rw [Option.filter_eq_some_iff]
  exact ⟨hv, by simp [hpruned, herased]⟩

theorem embedding_inserted (h : ∃ v ∈ f.vectors, v.1 = key) :
    ((s.applied f).embeddings.lookup key).isSome = true := by
  obtain ⟨⟨_, item⟩, hmem, rfl⟩ := h
  rw [lookup_applied_embeddings, Option.isSome_or, Bool.or_eq_true]
  exact Or.inr (Table.isSome_rowOf (List.mem_map_of_mem hmem))

theorem mem_jobs_applied {job : EmbedJob} :
    job ∈ (s.applied f).jobs ↔ (job ∈ s.jobs ∧ f.job ≠ some job) ∨
      (job.memoryId ∈ f.queued ∧ job.queuedBy = s.commits) := by
  simp only [IndexState.applied, List.mem_append, List.mem_filter, decide_eq_true_eq,
    List.mem_map]
  refine or_congr_right ?_
  constructor
  · rintro ⟨id, hid, rfl⟩
    exact ⟨hid, rfl⟩
  · rintro ⟨hid, hby⟩
    exact ⟨job.memoryId, hid, by rw [← hby]⟩

/-- What a flight inserted is of a row that it locked. -/
theorem vectors_held (hok : FlightOk s.memories s.embeddings s.commits f) {item : IndexItem} (h :
      (key, item) ∈ f.vectors) :
    Holds s.memories key.1 item ∧ f.shares key.1 = true ∧ ∀ id, f.owns id = false := by
  cases f with
  | writing w => cases h
  | embedding j =>
    simp only [Flight.vectors] at h
    split at h
    · rename_i row model hphase
      obtain ⟨rfl, rfl⟩ := Prod.mk.inj (List.mem_singleton.mp h)
      obtain ⟨hrow, hlive⟩ := hok.row row (by rw [hphase]; rfl)
      exact ⟨⟨row, hrow, hlive, rfl⟩, by simp [Flight.shares, hphase], fun _ => rfl⟩
    · cases h
  | rebuilding r =>
    obtain ⟨hshared, hholds⟩ := hok.vectors _ h
    exact ⟨hholds, by simpa [Flight.shares] using hshared, fun _ => rfl⟩

/-- A committed vector that outlives the commit of a flight is of a row that the flight did not
change. -/
theorem not_owns_of_kept (hok : FlightOk s.memories s.embeddings s.commits f)
    (hfinished : f.finished = true) (hv : s.embeddings.lookup key =
      some v) (hpruned : (key, v.writtenBy) ∉ f.pruned)
    (herased : f.writes.lookup key.1 ≠ some none) : f.owns key.1 = false := by
  cases f with
  | embedding _ | rebuilding _ => rfl
  | writing w =>
    have hrest : w.rest = [] := by simpa [Flight.finished] using hfinished
    cases hwrite : w.writes.lookup key.1 with
    | none => simp [Flight.owns, Flight.writes, hwrite]
    | some change =>
      cases change with
      | none => exact absurd hwrite herased
      | some row =>
        rcases hok.cleared _ row hwrite with hmem | hall
        · rw [hrest] at hmem
          cases hmem
        · exact absurd (hall key.2 v hv) hpruned

/-- The rows of a committed state are paired. -/
theorem paired_applied (hs : Sound s) (hok : FlightOk s.memories s.embeddings s.commits f)
    {row : MemoryRow} (h : (s.applied f).memories.lookup id = some row) :
    Paired row := by
  rw [lookup_applied_memories] at h
  obtain ⟨old, hold, rfl⟩ := Option.map_eq_some_iff.mp h
  apply Paired.unpoint
  cases hwrite : f.writes.lookup id with
  | none =>
    rw [hwrite] at hold
    exact hs.paired id old hold
  | some change =>
    rw [hwrite] at hold
    obtain rfl : change = some old := hold
    cases f with
    | embedding _ | rebuilding _ => cases hwrite
    | writing w => exact hok.paired id old hwrite

/-- A flight keeps what it keeps when another one commits. -/
theorem FlightOk.applied {g : Flight} (hok : FlightOk s.memories s.embeddings s.commits f)
    (hg : FlightOk s.memories s.embeddings s.commits g) (hfg : Apart f g) (hgf : Apart g f) :
    FlightOk (s.applied f).memories (s.applied f).embeddings (s.applied f).commits g := by
  have hshared : ∀ id, g.shares id = true → f.owns id = false := by
    intro id hid
    by_contra hown
    rw [(hfg id (by simpa using hown)).2] at hid
    cases hid
  cases g with
  | writing w =>
    refine ⟨hg.paired, hg.clears, ?_, fun p hp => ⟨(hg.prunes p hp).1, ?_⟩, hg.queues⟩
    · intro id row hrow
      refine (hg.cleared id row hrow).imp_right fun hall model v hv => ?_
      rcases embedding_of_applied hv with ⟨hold, -⟩ | ⟨hnew, -⟩
      · exact hall model v hold
      · have hown : (Flight.writing w).owns id = true := by
          simp [Flight.owns, Flight.writes, hrow]
        have hshares := (vectors_held hok hnew).2.1
        rw [(hgf id hown).2] at hshares
        cases hshares
    · exact Nat.lt_succ_of_lt (hg.prunes p hp).2
  | embedding j =>
    refine ⟨Nat.lt_succ_of_lt hg.queuedBy, fun row hrow => ?_⟩
    obtain ⟨hlookup, hlive⟩ := hg.row row hrow
    refine ⟨live_row_applied hlookup hlive (hshared _ ?_), hlive⟩
    have hphase : j.phase ≠ .claimed := by
      intro hclaimed
      rw [hclaimed] at hrow
      cases hrow
    simp [Flight.shares, hphase]
  | rebuilding r =>
    have hfree : ∀ id ∈ r.shared, f.owns id = false := by
      intro id hid
      exact hshared id (by simpa [Flight.shares] using hid)
    refine ⟨?_, ?_, fun p hp => Nat.lt_succ_of_lt (hg.prunes p hp), ?_⟩
    · intro items after hphase i hi
      obtain ⟨hmem, hholds⟩ := hg.items items after hphase i hi
      exact ⟨hmem, hholds.applied (hfree _ hmem)⟩
    · intro v hv
      obtain ⟨hmem, hholds⟩ := hg.vectors v hv
      exact ⟨hmem, hholds.applied (hfree _ hmem)⟩
    · intro hphase id v hv hpruned
      rcases embedding_of_applied hv with ⟨hold, -⟩ | ⟨-, hby⟩
      · exact hg.covers hphase id v hold hpruned
      · have hlt := hg.prunes _ hpruned
        omega

/-- The commit of a flight keeps what every reachable state satisfies. -/
theorem Sound.commit (hs : Sound s) (hf : s.flights.lookup tx = some f)
    (hfinished : f.finished = true) : Sound ((s.applied f).drop tx) := by
  have hok := hs.flights tx f hf
  refine ⟨fun id row h => paired_applied hs hok h, ?_, ?_, ?_, ?_, ?_⟩
  · intro key v hv
    rcases embedding_of_applied hv with ⟨hold, hpruned, herased⟩ | ⟨hnew, -⟩
    · have hown := not_owns_of_kept hok hfinished hold hpruned herased
      exact (hs.fresh key v hold).applied hown
    · obtain ⟨hholds, -, hown⟩ := vectors_held hok hnew
      exact hholds.applied (hown key.1)
  · intro key v hv
    rcases embedding_of_applied hv with ⟨hold, -⟩ | ⟨-, hby⟩
    · exact Nat.lt_succ_of_lt (hs.writtenBy key v hold)
    · exact hby ▸ Nat.lt_succ_self _
  · intro job hjob
    rcases mem_jobs_applied.mp hjob with ⟨hold, -⟩ | ⟨-, hby⟩
    · exact Nat.lt_succ_of_lt (hs.queuedBy job hold)
    · exact hby ▸ Nat.lt_succ_self _
  · intro tx' g hg
    obtain ⟨hne, hg⟩ := Table.lookup_erase_eq_some.mp hg
    exact FlightOk.applied hok (hs.flights tx' g hg) (hs.apart tx tx' f g hne.symm hf hg)
      (hs.apart tx' tx g f hne hg hf)
  · intro tx₁ tx₂ f₁ f₂ hne h₁ h₂
    exact hs.apart tx₁ tx₂ f₁ f₂ hne (Table.lookup_erase_eq_some.mp h₁).2
      (Table.lookup_erase_eq_some.mp h₂).2

end Commit

end Rheostream.Recallatron.Embedding
