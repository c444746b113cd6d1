import Rheostream.Recallatron.VectorIndexLaws

/-!
# Vectors are of the text their memory has

Every reachable state of the vector index has only vectors of live memories, made from the text
that the memory has. A rebuild that commits leaves each live memory with a vector of its model or
with an embed job, as long as what others commit after its last look leaves no memory behind.
-/

namespace Rheostream.Recallatron.Embedding

variable {s t : IndexState} {tx : ℕ}

/-! ### Every step -/

variable {rest : List Statement}

theorem newWriter_ok (h : ∀ id, .deleteMemoryEmbeddings id ∉ rest) :
    FlightOk s.memories s.embeddings s.commits (newWriter rest) where
  paired _ _ hrow := by cases hrow
  clears id hmem := absurd hmem (h id)
  cleared _ _ hrow := by cases hrow
  prunes _ hp := by cases hp
  queues _ _ hrow := by cases hrow

theorem Sound.newWriter (hs : Sound s) (hrest : ∀ id, .deleteMemoryEmbeddings id ∉ rest)
    (h : s.start tx (newWriter rest) = some t) : Sound t :=
  hs.start (newWriter_ok hrest) (fun _ => rfl) (fun _ => rfl) h

variable {provider : Option ModelId}

theorem Sound.advance (hs : Sound s) {strategyName : String}
    (h : s.advance tx strategyName provider = some t) : Sound t := by
  unfold IndexState.advance at h
  split at h
  · rename_i w hf
    split at h
    · cases h
    · rename_i statement rest hrest
      obtain ⟨w', hissue, rfl⟩ := Option.map_eq_some_iff.mp h
      have hok : WriterOk s.embeddings s.commits { w with rest := statement :: rest } := by
        have := hs.flights tx _ hf
        rw [← hrest]
        exact this
      obtain ⟨hok', hlocks⟩ := issue_ok hs hok hissue
      refine hs.put hok' (fun id hid => ?_) (fun id hid => by cases hid)
      rcases hlocks id hid with hold | hfree
      · exact Or.inl ⟨_, hf, hold⟩
      · exact Or.inr hfree
  · cases h

theorem Sound.claim (hs : Sound s) {job : EmbedJob} (h : s.claim tx job = some t) : Sound t := by
  unfold IndexState.claim at h
  split_ifs at h with hjob
  have hmem : job ∈ s.jobs := by simpa using hjob
  have hok : FlightOk s.memories s.embeddings s.commits (.embedding ⟨job, .claimed⟩) :=
    ⟨hs.queuedBy job hmem, fun _ hrow => by cases hrow⟩
  refine hs.start hok (fun _ => rfl) (fun id => ?_) h
  simp [Flight.shares]

variable {j j' : JobRun}

/-- An embed job goes on with the row it holds. -/
theorem Sound.putJob (hs : Sound s) (hf : s.flights.lookup tx = some (.embedding j))
    (hok : JobOk s.memories s.commits j') (hjob : j'.job = j.job)
    (hlocked : j.phase ≠ .claimed ∨ s.ownedElsewhere tx j.job.memoryId = false) :
    Sound (s.put tx (.embedding j')) := by
  refine hs.put hok (fun id hid => by cases hid) (fun id hid => ?_)
  simp only [Flight.shares, Bool.and_eq_true, decide_eq_true_eq, hjob] at hid
  rcases hlocked with hphase | hfree
  · refine Or.inl ⟨_, hf, ?_⟩
    simp [Flight.shares, hphase, hid.2]
  · exact Or.inr (hid.2 ▸ hfree)

theorem Sound.embed (hs : Sound s) (h : s.embed tx provider = some t) : Sound t := by
  unfold IndexState.embed at h
  split at h
  · rename_i j hf
    have hok : JobOk s.memories s.commits j := hs.flights tx _ hf
    split at h
    · obtain ⟨j', hlock, rfl⟩ := Option.map_eq_some_iff.mp h
      obtain ⟨hok', hjob, hfree⟩ := lockMemory_ok hok hlock
      exact hs.putJob hf hok' hjob (Or.inr hfree)
    · rename_i row hphase
      cases h
      obtain ⟨hok', hjob⟩ := resolveProvider_ok provider hok hphase
      exact hs.putJob hf hok' hjob (Or.inl (by simp [hphase]))
    · rename_i row model hphase
      obtain ⟨j', hinsert, rfl⟩ := Option.map_eq_some_iff.mp h
      obtain ⟨hok', hjob⟩ := insertVector_ok hok hphase hinsert
      exact hs.putJob hf hok' hjob (Or.inl (by simp [hphase]))
    · cases h
    · cases h
  · cases h

theorem Sound.rebuild (hs : Sound s) (h : s.rebuild tx = some t) : Sound t := by
  unfold IndexState.rebuild at h
  split at h
  · rename_i r hf
    obtain ⟨r', hstatement, rfl⟩ := Option.map_eq_some_iff.mp h
    obtain ⟨hok', hlocks⟩ := rebuildStatement_ok hs (hs.flights tx _ hf) hstatement
    refine hs.put hok' (fun id hid => by cases hid) (fun id hid => ?_)
    have hmem : id ∈ r'.shared := by simpa [Flight.shares] using hid
    refine (hlocks id hmem).imp_left fun hold => ⟨_, hf, ?_⟩
    simpa [Flight.shares] using hold
  · cases h

theorem Sound.exhaust (hs : Sound s) (h : s.exhaust tx = some t) : Sound t := by
  unfold IndexState.exhaust at h
  split at h
  · cases h
    have hdrop := hs.drop tx
    exact ⟨hdrop.paired, hdrop.fresh, hdrop.writtenBy,
      fun job hjob => hs.queuedBy job (List.mem_of_mem_filter hjob), hdrop.flights, hdrop.apart⟩
  · cases h

/-- Every step keeps what every reachable state satisfies. -/
theorem Sound.step (hs : Sound s) {a : Action} (h : step s a = some t) : Sound t := by
  cases a with
  | remember tx id title body => exact hs.newWriter (by simp) h
  | correct tx id title body expectedRevision affected now =>
    exact hs.newWriter (by simp [correct, invalidateClosure]) h
  | supersede tx id expectedRevision replacement title body affected now =>
    exact hs.newWriter (by simp [supersede, invalidateClosure]) h
  | erase tx expectedRevisions => exact hs.newWriter (by simp [erase]) h
  | advance tx strategyName provider => exact hs.advance h
  | claim tx job => exact hs.claim h
  | embed tx provider => exact hs.embed h
  | startRebuild tx provider batchSize =>
    simp only [Embedding.step] at h
    split at h
    · cases h
    · refine hs.start ?_ (fun _ => rfl) (fun _ => rfl) h
      exact ⟨by simp, by simp, by simp, by simp⟩
  | rebuild tx => exact hs.rebuild h
  | commit tx =>
    simp only [Embedding.step, IndexState.commit] at h
    split at h
    · cases h
    · rename_i f hf
      split_ifs at h with hfinished
      cases h
      exact hs.commit hf hfinished
  | rollback tx =>
    simp only [Embedding.step, IndexState.rollback] at h
    split at h
    · cases h
    · cases h
      exact hs.drop tx
  | exhaust tx => exact hs.exhaust h

theorem sound_of_reachable (hs : vectorIndex.Reachable s) : Sound s := by
  refine hs.invariant (I := Sound) ?_ ?_
  · rintro _ rfl
    refine ⟨?_, ?_, ?_, ?_, ?_, ?_⟩ <;> simp [empty]
  · intro s a t _ hs h
    exact hs.step h

/-! ### What a rebuild leaves -/

/-- A job of this phase leaves a vector of the model when it commits. -/
def JobPhase.Promising (model : ModelId) : JobPhase → Prop
  | .claimed | .locked _ => True
  | .called _ model' | .wrote _ model' => model' = model
  | .returned => False

/-- No transaction that runs the job will end it without a vector of the model. -/
def Pending (s : IndexState) (model : ModelId) (job : EmbedJob) : Prop :=
  job ∈ s.jobs ∧ ∀ tx j, s.flights.lookup tx = some (.embedding j) → j.job = job →
    j.phase.Promising model

/-- Every live memory has a vector of the model, or a job that will write one, or is covered by
the rebuild. -/
def Covered (s : IndexState) (model : ModelId) (r : Rebuild) : Prop :=
  ∀ id row, s.memories.lookup id = some row → isLiveMemory row = true →
    r.Covers id ∨ (s.embeddings.lookup (id, model)).isSome = true ∨
      ∃ job, job.memoryId = id ∧ Pending s model job

/-- A rebuild for the model that has taken its last look covers what it has to. -/
def LookedCovered (s : IndexState) (tx : ℕ) (model : ModelId) : Prop :=
  ∀ r, s.flights.lookup tx = some (.rebuilding r) → r.phase = .handedOff → r.model = model →
    Covered s model r

/-- What a step may not do to leave no memory behind: run an embed job without the provider of
the model, fail it for good, commit a memory that `enqueue_embed_job` queued nothing for, or
commit a rebuild for another model. -/
def keepsFilling (model : ModelId) (s : IndexState) : Action → Bool
  | .embed tx provider =>
    match s.flights.lookup tx with
    | some (.embedding ⟨_, .locked _⟩) => provider = some model
    | _ => true
  | .commit tx =>
    match s.flights.lookup tx with
    | some (.writing w) => w.skipped.isEmpty
    | some (.rebuilding r) => r.model = model
    | _ => true
  | .exhaust _ => false
  | _ => true

variable {model : ModelId} {r : Rebuild}

/-- What a flight's next statement does to a job it runs. -/
def KeepsJob (s : IndexState) (tx : ℕ) (model : ModelId) (j' : JobRun) : Prop :=
  j'.phase.Promising model ∨
  (∀ row, s.memories.lookup j'.job.memoryId = some row → isLiveMemory row = true →
    (s.embeddings.lookup (j'.job.memoryId, model)).isSome = true) ∨
  ∃ j, s.flights.lookup tx = some (.embedding j) ∧ j.job = j'.job ∧ ¬ j.phase.Promising model

variable {f : Flight}

theorem Covered.put (h : Covered s model r)
    (hjob : ∀ j', f = .embedding j' → KeepsJob s tx model j') : Covered (s.put tx f) model r := by
  intro id row hrow hlive
  rcases h id row hrow hlive with hcovers | hvector | ⟨job, rfl, hmem, hpending⟩
  · exact Or.inl hcovers
  · exact Or.inr (Or.inl hvector)
  by_cases hlost : ∃ j', f = .embedding j' ∧ j'.job = job ∧ ¬ j'.phase.Promising model
  · obtain ⟨j', hf, rfl, hnot⟩ := hlost
    rcases hjob j' hf with hpromising | hvector | ⟨j, hold, heq, hnotold⟩
    · exact absurd hpromising hnot
    · exact Or.inr (Or.inl (hvector row hrow hlive))
    · exact absurd (hpending tx j hold heq) hnotold
  · refine Or.inr (Or.inr ⟨job, rfl, hmem, fun tx' j' hj' heq => ?_⟩)
    rw [IndexState.put, Table.lookup_insert] at hj'
    split_ifs at hj' with htx
    · cases hj'
      by_contra hnot
      exact hlost ⟨j', rfl, heq, hnot⟩
    · exact hpending tx' j' hj' heq

theorem Covered.drop (h : Covered s model r) (tx : ℕ) : Covered (s.drop tx) model r := by
  intro id row hrow hlive
  refine (h id row hrow hlive).imp_right (Or.imp_right ?_)
  rintro ⟨job, rfl, hmem, hpending⟩
  exact ⟨job, rfl, hmem, fun tx' j hj heq =>
    hpending tx' j (Table.lookup_erase_eq_some.mp hj).2 heq⟩

/-- The last look leaves every live memory covered. -/
theorem covered_of_look (s : IndexState) (r : Rebuild) :
    Covered s r.model { r with queued := s.missing r ++ r.queued, phase := .handedOff } := by
  intro id row hrow hlive
  cases hhas : s.hasEmbedding r id with
  | false =>
    have hmissing := mem_missing.mpr ⟨row, hrow, hlive, hhas⟩
    exact Or.inl (Or.inr (List.mem_append_left _ hmissing))
  | true =>
    rcases hasEmbedding_iff.mp hhas with hown | ⟨v, hv, -⟩
    · exact Or.inl (Or.inl hown)
    · exact Or.inr (Or.inl (Option.isSome_iff_exists.mpr ⟨v, hv⟩))

/-- A job that a commit queues is run by nobody. -/
theorem pending_of_queued (hs : Sound s) {id : Uuid} (h : id ∈ f.queued) :
    ∃ job, job.memoryId = id ∧ Pending ((s.applied f).drop tx) model job := by
  refine ⟨⟨id, s.commits⟩, rfl, mem_jobs_applied.mpr (Or.inr ⟨h, rfl⟩), ?_⟩
  intro tx' j hj hjob
  have hok : JobOk s.memories s.commits j := hs.flights tx' _ (Table.lookup_erase_eq_some.mp hj).2
  have hlt := hok.queuedBy
  rw [hjob] at hlt
  exact absurd hlt (lt_irrefl s.commits)

/-- A job that the flight does not run stays pending. -/
theorem Pending.applied {job : EmbedJob} (h : Pending s model job) (hjob : f.job ≠ some job) :
    Pending ((s.applied f).drop tx) model job :=
  ⟨mem_jobs_applied.mpr (Or.inl ⟨h.1, hjob⟩), fun tx' j hj heq =>
    h.2 tx' j (Table.lookup_erase_eq_some.mp hj).2 heq⟩

/-- The commit of a rebuild leaves a vector of its model or a job wherever it covers a memory or
finds a vector. -/
theorem filled_by_rebuild (hs : Sound s) (hf : s.flights.lookup tx = some (.rebuilding r))
    (hphase : r.phase = .handedOff) (id : Uuid)
    (h : r.Covers id ∨ (s.embeddings.lookup (id, r.model)).isSome = true) :
    ((s.applied (.rebuilding r)).embeddings.lookup (id, r.model)).isSome = true ∨
      ∃ job, job.memoryId = id ∧
        Pending ((s.applied (.rebuilding r)).drop tx) r.model job := by
  have hcovers : r.Covers id →
      ((s.applied (.rebuilding r)).embeddings.lookup (id, r.model)).isSome = true ∨
      ∃ job, job.memoryId = id ∧
        Pending ((s.applied (.rebuilding r)).drop tx) r.model job := by
    rintro (hvector | hqueued)
    · exact Or.inl (embedding_inserted hvector)
    · exact Or.inr (pending_of_queued hs hqueued)
  rcases h with h | h
  · exact hcovers h
  · obtain ⟨v, hv⟩ := Option.isSome_iff_exists.mp h
    have hok : RebuildOk s.memories s.embeddings s.commits r := hs.flights tx _ hf
    by_cases hpruned : ((id, r.model), v.writtenBy) ∈ r.pruned
    · exact hcovers (hok.covers hphase id v hv hpruned)
    · left
      have hkept := embedding_kept (f := .rebuilding r) hv hpruned (by simp [Flight.writes])
      rw [hkept]
      rfl

/-- The commit of another flight leaves every live memory covered. -/
theorem Covered.commit (hs : Sound s) (hf : s.flights.lookup tx = some f)
    (hfinished : f.finished = true) (hkeeps : keepsFilling model s (.commit tx) = true)
    (h : Covered s model r) : Covered ((s.applied f).drop tx) model r := by
  intro id row hrow hlive
  have hok := hs.flights tx f hf
  simp only [keepsFilling, hf] at hkeeps
  cases f with
  | writing w =>
    have hrest : w.rest = [] := by simpa [Flight.finished] using hfinished
    have hskipped : w.skipped = [] := by simpa using hkeeps
    by_cases hown : (Flight.writing w).owns id = true
    · -- the writer changed the row, and a live row that it changed has its job
      obtain ⟨change, hwrite⟩ := Option.isSome_iff_exists.mp hown
      have hlookup := lookup_applied_memories s (.writing w) id
      rw [hwrite, Option.getD_some] at hlookup
      obtain ⟨new, hnew, rfl⟩ := Option.map_eq_some_iff.mp (hlookup.symm.trans hrow)
      subst hnew
      have hlivenew := (hok.paired id new hwrite).live_of_unpoint hlive
      rcases hok.queues id new hwrite hlivenew with hmem | hqueued | hmem
      · rw [hrest] at hmem
        cases hmem
      · exact Or.inr (Or.inr (pending_of_queued hs hqueued))
      · rw [hskipped] at hmem
        cases hmem
    · have hfree : (Flight.writing w).owns id = false := by simpa using hown
      have hwrite := lookup_writes_of_not_owns hfree
      rcases h id row (live_of_applied hs hrow hlive hfree) hlive with
        hcovers | hvector | ⟨job, hid, hpending⟩
      · exact Or.inl hcovers
      · obtain ⟨v, hv⟩ := Option.isSome_iff_exists.mp hvector
        have hpruned : ((id, model), v.writtenBy) ∉ w.pruned := by
          intro hmem
          have hsome := (hok.prunes _ hmem).1
          rw [show w.writes.lookup id = none from hwrite] at hsome
          cases hsome
        have hkept := embedding_kept (f := .writing w) hv hpruned (by simp [hwrite])
        exact Or.inr (Or.inl (Option.isSome_iff_exists.mpr ⟨v, hkept⟩))
      · exact Or.inr (Or.inr ⟨job, hid, hpending.applied (by simp [Flight.job])⟩)
  | embedding j =>
    rcases h id row (live_of_applied hs hrow hlive rfl) hlive with
      hcovers | hvector | ⟨job, hid, hpending⟩
    · exact Or.inl hcovers
    · obtain ⟨v, hv⟩ := Option.isSome_iff_exists.mp hvector
      have hkept := embedding_kept (f := .embedding j) hv (by simp [Flight.pruned])
        (by simp [Flight.writes])
      exact Or.inr (Or.inl (Option.isSome_iff_exists.mpr ⟨v, hkept⟩))
    · by_cases heq : j.job = job
      · -- the job ends with a vector of the model
        have hpromising := hpending.2 tx j hf heq
        simp only [Flight.finished] at hfinished
        split at hfinished
        · rename_i written model' hphase
          rw [hphase] at hpromising
          obtain rfl : model' = model := hpromising
          refine Or.inr (Or.inl (embedding_inserted (f := .embedding j) ?_))
          exact ⟨((id, model'), written.item), by simp [Flight.vectors, hphase, heq, hid], rfl⟩
        · rename_i hphase
          rw [hphase] at hpromising
          cases hpromising
        · cases hfinished
      · refine Or.inr (Or.inr ⟨job, hid, hpending.applied ?_⟩)
        simpa [Flight.job] using heq
  | rebuilding other =>
    have hphase : other.phase = .handedOff := by simpa [Flight.finished] using hfinished
    obtain rfl : other.model = model := by simpa using hkeeps
    rcases h id row (live_of_applied hs hrow hlive rfl) hlive with
      hcovers | hvector | ⟨job, hid, hpending⟩
    · exact Or.inl hcovers
    · exact Or.inr (filled_by_rebuild hs hf hphase id (Or.inr hvector))
    · exact Or.inr (Or.inr ⟨job, hid, hpending.applied (by simp [Flight.job])⟩)

/-! ### From the last look to the commit -/

variable {other : ℕ}

theorem LookedCovered.put (h : LookedCovered s tx model)
    (hjob : ∀ j', f = .embedding j' → KeepsJob s other model j')
    (hlook : ∀ r, f = .rebuilding r → r.phase = .handedOff → Covered s r.model r) :
    LookedCovered (s.put other f) tx model := by
  intro r hr hphase hmodel
  rw [IndexState.put, Table.lookup_insert] at hr
  split_ifs at hr
  · cases hr
    exact hmodel ▸ (hlook r rfl hphase).put (hmodel ▸ hjob)
  · exact (h r hr hphase hmodel).put hjob

theorem LookedCovered.drop (h : LookedCovered s tx model) (other : ℕ) :
    LookedCovered (s.drop other) tx model := by
  intro r hr hphase hmodel
  exact (h r (Table.lookup_erase_eq_some.mp hr).2 hphase hmodel).drop other

theorem LookedCovered.start (h : LookedCovered s tx model)
    (hjob : ∀ j', f = .embedding j' → j'.phase = .claimed)
    (hlook : ∀ r, f = .rebuilding r → r.phase ≠ .handedOff) (hstart : s.start other f = some t) :
    LookedCovered t tx model := by
  unfold IndexState.start at hstart
  split at hstart
  · cases hstart
  · cases hstart
    refine h.put (fun j' hf => Or.inl ?_) fun r hf hphase => absurd hphase (hlook r hf)
    rw [hjob j' hf]
    trivial

theorem LookedCovered.newWriter (h : LookedCovered s tx model)
    (hstart : s.start other (newWriter rest) = some t) : LookedCovered t tx model :=
  h.start (fun _ hf => by cases hf) (fun _ hf => by cases hf) hstart

/-- The statement after which a rebuild is ready to commit is its last look. -/
theorem covered_of_rebuildStatement {r' : Rebuild} (h : s.rebuildStatement other r = some r')
    (hphase : r'.phase = .handedOff) : Covered s r'.model r' := by
  unfold IndexState.rebuildStatement at h
  split at h
  · cases h
    cases hphase
  · split_ifs at h <;> cases h <;> cases hphase
  · split_ifs at h <;> cases h <;> cases hphase
  · cases h
    cases hphase
  · cases h
    cases hphase
  · cases h
    cases hphase
  · split_ifs at h <;> cases h <;> cases hphase
  · cases h
    exact covered_of_look s r
  · cases h

theorem keepsJob_of_lockMemory (h : s.lockMemory other j = some j') :
    KeepsJob s other model j' := by
  unfold IndexState.lockMemory at h
  split_ifs at h
  split at h
  · rename_i hnone
    cases h
    refine Or.inr (Or.inl fun row hrow => ?_)
    cases hnone.symm.trans hrow
  · rename_i row hrow
    split_ifs at h with hlive
    · cases h
      exact Or.inl trivial
    · cases h
      refine Or.inr (Or.inl fun row' hrow' hlive' => ?_)
      cases Option.some.inj (hrow.symm.trans hrow')
      exact absurd hlive' hlive

theorem keepsJob_of_resolveProvider (j : JobRun) (row : MemoryRow) :
    KeepsJob s other model (s.resolveProvider (some model) j row) := by
  simp only [IndexState.resolveProvider]
  split
  · rename_i v hv
    refine Or.inr (Or.inl fun _ _ _ => ?_)
    rw [hv]
    rfl
  · exact Or.inl rfl

theorem keepsJob_of_insertVector {row : MemoryRow} {model' : ModelId}
    (hf : s.flights.lookup other = some (.embedding j)) (hphase : j.phase = .called row model')
    (h : s.insertVector other j row model' = some j') : KeepsJob s other model j' := by
  by_cases hmodel : model' = model
  · subst hmodel
    unfold IndexState.insertVector at h
    split_ifs at h
    split at h
    · rename_i v hv
      cases h
      refine Or.inr (Or.inl fun _ _ _ => ?_)
      rw [hv]
      rfl
    · cases h
      exact Or.inl rfl
  · -- a job that calls another provider was not counted on
    have hjob : j'.job = j.job := by
      unfold IndexState.insertVector at h
      split_ifs at h
      split at h <;> cases h <;> rfl
    refine Or.inr (Or.inr ⟨j, hf, hjob.symm, ?_⟩)
    rw [hphase]
    exact hmodel

theorem LookedCovered.embed (h : LookedCovered s tx model)
    (hkeeps : keepsFilling model s (.embed other provider) = true)
    (hstep : s.embed other provider = some t) : LookedCovered t tx model := by
  unfold IndexState.embed at hstep
  split at hstep
  · rename_i j hf
    have hput : ∀ {j'}, KeepsJob s other model j' →
        LookedCovered (s.put other (.embedding j')) tx model := by
      intro j' hkept
      refine h.put (fun _ heq => ?_) (fun _ heq => by cases heq)
      cases heq
      exact hkept
    split at hstep
    · obtain ⟨j', hlock, rfl⟩ := Option.map_eq_some_iff.mp hstep
      exact hput (keepsJob_of_lockMemory hlock)
    · rename_i row hphase
      cases hstep
      obtain ⟨job, phase⟩ := j
      obtain rfl : phase = .locked row := hphase
      simp only [keepsFilling, hf, decide_eq_true_eq] at hkeeps
      subst hkeeps
      exact hput (keepsJob_of_resolveProvider _ row)
    · rename_i row model' hphase
      obtain ⟨j', hinsert, rfl⟩ := Option.map_eq_some_iff.mp hstep
      exact hput (keepsJob_of_insertVector hf hphase hinsert)
    · cases hstep
    · cases hstep
  · cases hstep

/-- A step that leaves no memory behind keeps every live memory covered. -/
theorem LookedCovered.step (hs : Sound s) (h : LookedCovered s tx model) {a : Action}
    (hkeeps : keepsFilling model s a = true) (hstep : step s a = some t) :
    LookedCovered t tx model := by
  cases a with
  | remember other id title body => exact h.newWriter hstep
  | correct other id title body expectedRevision affected now => exact h.newWriter hstep
  | supersede other id expectedRevision replacement title body affected now =>
    exact h.newWriter hstep
  | erase other expectedRevisions => exact h.newWriter hstep
  | advance other strategyName provider =>
    simp only [Embedding.step, IndexState.advance] at hstep
    split at hstep
    · split at hstep
      · cases hstep
      · obtain ⟨w', -, rfl⟩ := Option.map_eq_some_iff.mp hstep
        exact h.put (fun _ hf => by cases hf) (fun _ hf => by cases hf)
    · cases hstep
  | claim other job =>
    simp only [Embedding.step, IndexState.claim] at hstep
    split_ifs at hstep
    refine h.start (fun _ hf => ?_) (fun _ hf => by cases hf) hstep
    cases hf
    rfl
  | embed other provider => exact h.embed hkeeps hstep
  | startRebuild other provider batchSize =>
    simp only [Embedding.step] at hstep
    split at hstep
    · cases hstep
    · refine h.start (fun _ hf => by cases hf) (fun _ hf => ?_) hstep
      cases hf
      simp
  | rebuild other =>
    simp only [Embedding.step, IndexState.rebuild] at hstep
    split at hstep
    · obtain ⟨r', hstatement, rfl⟩ := Option.map_eq_some_iff.mp hstep
      refine h.put (fun _ hf => by cases hf) (fun _ hf hphase => ?_)
      cases hf
      exact covered_of_rebuildStatement hstatement hphase
    · cases hstep
  | commit other =>
    simp only [Embedding.step, IndexState.commit] at hstep
    split at hstep
    · cases hstep
    · rename_i f hf
      split_ifs at hstep with hfinished
      cases hstep
      intro r hr hphase hmodel
      have hold := (Table.lookup_erase_eq_some.mp hr).2
      exact (h r hold hphase hmodel).commit hs hf hfinished hkeeps
  | rollback other =>
    simp only [Embedding.step, IndexState.rollback] at hstep
    split at hstep
    · cases hstep
    · cases hstep
      exact h.drop other
  | exhaust other => cases hkeeps

/-- A run whose steps leave no memory behind keeps every live memory covered. -/
theorem LookedCovered.run (hs : vectorIndex.Reachable s) (h : LookedCovered s tx model)
    (hrun : (vectorIndex.restrict fun s a => keepsFilling model s a = true).Reaches s t) :
    vectorIndex.Reachable t ∧ LookedCovered t tx model := by
  induction hrun with
  | refl => exact ⟨hs, h⟩
  | tail _ hnext ih =>
    obtain ⟨a, hnext⟩ := hnext
    obtain ⟨hkeeps, hstep⟩ := Machine.restrict_step.mp hnext
    exact ⟨ih.1.step hstep, ih.2.step (sound_of_reachable ih.1) hkeeps hstep⟩

/-- The commit of a rebuild that covers what it has to leaves every live memory with a vector
of its model or an embed job. -/
theorem filled_of_covered (hs : Sound s) (h : LookedCovered s tx model)
    (hf : s.flights.lookup tx = some (.rebuilding r)) (hmodel : r.model = model)
    (hcommit : s.commit tx = some t) {id : Uuid} {row : MemoryRow}
    (hrow : t.memories.lookup id = some row) (hlive : isLiveMemory row = true) :
    (t.embeddings.lookup (id, model)).isSome = true ∨ ∃ job ∈ t.jobs, job.memoryId = id := by
  subst hmodel
  simp only [IndexState.commit, hf, Option.ite_none_right_eq_some, Option.some.injEq] at hcommit
  obtain ⟨hfinished, rfl⟩ := hcommit
  have hphase : r.phase = .handedOff := by simpa [Flight.finished] using hfinished
  have hfilled := filled_by_rebuild hs hf hphase id
  have hgiven : ∀ {model} {job : EmbedJob},
      Pending ((s.applied (.rebuilding r)).drop tx) model job →
      job ∈ (s.applied (.rebuilding r)).jobs := fun hpending => hpending.1
  rcases h r hf hphase rfl id row (live_of_applied hs hrow hlive rfl) hlive with
    hcovers | hvector | ⟨job, hid, hpending⟩
  · refine (hfilled (Or.inl hcovers)).imp_right ?_
    rintro ⟨job, hid, hpending⟩
    exact ⟨job, hgiven hpending, hid⟩
  · refine (hfilled (Or.inr hvector)).imp_right ?_
    rintro ⟨job, hid, hpending⟩
    exact ⟨job, hgiven hpending, hid⟩
  · have hkept : Pending ((s.applied (.rebuilding r)).drop tx) r.model job :=
      hpending.applied (by simp [Flight.job])
    exact Or.inr ⟨job, hgiven hkept, hid⟩

/-! ### The law -/

/-- What holds of the vectors in a reachable state. -/
structure VectorLaw (s : IndexState) : Prop where
  /-- A vector is of a memory that is there, and was made from the text that the memory has. -/
  made_from_text : ∀ id model v, s.embeddings.lookup (id, model) = some v →
    ∃ row, s.memories.lookup id = some row ∧ v.madeFrom = row.item
  /-- A memory that has a vector is live. -/
  of_live : ∀ id model row, (s.embeddings.lookup (id, model)).isSome = true →
    s.memories.lookup id = some row → isLiveMemory row = true
  /-- When a rebuild takes its last look and what is committed from there on leaves no memory
  behind, its commit leaves every live memory with a vector of its model or an embed job. -/
  filled : ∀ tx looked r t u, step s (.rebuild tx) = some looked →
    looked.flights.lookup tx = some (.rebuilding r) → r.phase = .handedOff →
    (vectorIndex.restrict fun s a => keepsFilling r.model s a = true).Reaches looked t →
    t.flights.lookup tx = some (.rebuilding r) → step t (.commit tx) = some u →
    ∀ id row, u.memories.lookup id = some row → isLiveMemory row = true →
      (u.embeddings.lookup (id, r.model)).isSome = true ∨ ∃ job ∈ u.jobs, job.memoryId = id

/-- A rebuild that goes on has not taken its last look. -/
theorem lookedCovered_of_rebuild (h : s.rebuild tx = some t) (model : ModelId) :
    LookedCovered s tx model := by
  intro r hr hphase
  simp only [IndexState.rebuild, hr, IndexState.rebuildStatement, hphase, Option.map_none] at h
  cases h

/-- The law of the vector index holds in every reachable state. -/
theorem vector_law (s : IndexState) (hs : vectorIndex.Reachable s) : VectorLaw s where
  made_from_text id model v hv := by
    obtain ⟨row, hrow, -, hitem⟩ := (sound_of_reachable hs).fresh (id, model) v hv
    exact ⟨row, hrow, hitem.symm⟩
  of_live id model row hsome hrow := by
    obtain ⟨v, hv⟩ := Option.isSome_iff_exists.mp hsome
    obtain ⟨row', hrow', hlive, -⟩ := (sound_of_reachable hs).fresh (id, model) v hv
    obtain rfl : row = row' := Option.some.inj (hrow.symm.trans hrow')
    exact hlive
  filled tx looked r t u hlook hlooked _ hrun ht hcommit id row hrow hlive := by
    have hbefore := lookedCovered_of_rebuild hlook r.model
    have hcovered := hbefore.step (sound_of_reachable hs) rfl hlook
    have hreach : vectorIndex.Reachable looked :=
      Machine.Reachable.step (M := vectorIndex) (a := .rebuild tx) hs hlook
    obtain ⟨hreach', hcovered'⟩ := hcovered.run hreach hrun
    exact filled_of_covered (sound_of_reachable hreach') hcovered' ht rfl hcommit hrow hlive

section Sample

/-- A rebuild of an empty workspace, up to its last look. -/
def walk : List Action :=
  [.startRebuild 0 (some "m") 10, .rebuild 0, .rebuild 0, .rebuild 0]

/-- A memory recorded by a workspace that reads the index, or does not. -/
def recording (strategyName : String) : List Action :=
  [.remember 1 7 "Site" "A new site", .advance 1 strategyName (some "m"),
    .advance 1 strategyName (some "m"), .commit 1]

def walked : IndexState := (vectorIndex.run empty walk).getD empty

def lookedAt : IndexState := (step walked (.rebuild 0)).getD empty

def recorded : IndexState := (vectorIndex.run lookedAt (recording "hybrid")).getD empty

def rebuilt : IndexState := (step recorded (.commit 0)).getD empty

/-- A memory is recorded while the rebuild is about to commit, and gets its job. -/
theorem vector_law_recorded :
    vectorIndex.Reachable walked ∧ step recorded (.commit 0) = some rebuilt ∧
      (∃ row, rebuilt.memories.lookup 7 = some row ∧ isLiveMemory row = true) ∧
      ((rebuilt.embeddings.lookup (7, "m")).isSome = true ∨
        ∃ job ∈ rebuilt.jobs, job.memoryId = 7) := by
  have hwalk : vectorIndex.run empty walk = some walked := rfl
  have hreach : vectorIndex.Reachable walked := Machine.reachable_of_run rfl hwalk
  have hrun : (vectorIndex.restrict fun s a => keepsFilling "m" s a = true).run lookedAt
      (recording "hybrid") = some recorded := rfl
  refine ⟨hreach, rfl, ⟨_, rfl, rfl⟩, ?_⟩
  exact (vector_law walked hreach).filled 0 lookedAt _ recorded rebuilt rfl rfl rfl
    (Machine.reaches_of_run hrun) rfl rfl 7 _ rfl rfl

def missed : IndexState := (vectorIndex.run lookedAt (recording "lexical")).getD empty

/-- The strategy of the workspace does not read the index: a memory recorded after the last look
has neither a vector nor a job when the rebuild has committed. -/
theorem recorded_without_vector :
    ∃ t, vectorIndex.Reachable missed ∧ step missed (.commit 0) = some t ∧
      (∃ r, missed.flights.lookup 0 = some (.rebuilding r) ∧ r.model = "m") ∧
      (∃ row, t.memories.lookup 7 = some row ∧ isLiveMemory row = true) ∧
      t.embeddings.lookup (7, "m") = none ∧ t.jobs = [] := by
  have hwalk : vectorIndex.run empty (walk ++ .rebuild 0 :: recording "lexical") = some missed :=
    rfl
  have hreach : vectorIndex.Reachable missed := Machine.reachable_of_run rfl hwalk
  exact ⟨_, hreach, rfl, ⟨_, rfl, rfl⟩, ⟨_, rfl, rfl⟩, rfl, rfl⟩

end Sample

end Rheostream.Recallatron.Embedding
