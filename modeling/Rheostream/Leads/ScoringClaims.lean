import Rheostream.Foundation.Selection
import Rheostream.Leads.ScoringLaws

/-!
# When a scoring result lands on its own claim

In every timely run a result lands on the claim that produced it, the counted failures end
at the limit, and a row that is still to be scored has a sweep to come. In a run that is not
timely, the answer of a claim marks a job scored that the profile had put back in line.
-/

namespace Rheostream.Leads

namespace ScoringState

variable {digest : ScoredJob → ℕ → String} {s t : ScoringState}

/-- A claim that does not hold its row any more writes nothing. -/
theorem Agrees.record_stale (h : s.Agrees) {n : ℕ} {c : ScoreClaim}
    (hclaim : s.claims.lookup n = some c) (hholder : s.log.holder c.id ≠ some n)
    (outcome : ScoreOutcome) (qualificationId : Uuid) (model : ScoringModel) (now : ℕ) :
    s.record n c outcome qualificationId model now = { s with claims := s.claims.erase n } := by
  have hstale : s.mayRecord c = false := by
    by_contra hmay
    exact hholder (h.current n c hclaim (by simpa using hmay))
  simp [ScoringState.record, hstale]

/-- A pending row of an open job has a follow-up, no later than its own wait. -/
theorem followUpAt_le {id : Uuid} {row : ScoreRow} (hrow : s.rows.lookup id = some row)
    (hpending : row.state = .pending) (hopen : s.isOpen id = true) (now : ℕ) :
    ∃ due, s.followUpAt now = some due ∧ due ≤ max now (row.retryAfter.getD now) := by
  unfold followUpAt
  split_ifs with hclaimable
  · exact ⟨now, rfl, le_max_left _ _⟩
  · rw [Bool.not_eq_true, Table.existsRow_eq_false] at hclaimable
    have hwaits := hclaimable id row hrow
    obtain ⟨u, hu, -⟩ : ∃ u, row.retryAfter = some u ∧ now < u := by
      simpa [hopen, ScoreRow.isClaimable, hpending, Option.all_eq_false] using hwaits
    have hmem : u ∈ (s.rows.entries.filter fun e =>
        e.2.state = .pending && s.isOpen e.1).filterMap fun e => e.2.retryAfter := by
      refine List.mem_filterMap.mpr ⟨⟨id, row⟩, List.mem_filter.mpr ⟨?_, ?_⟩, hu⟩
      · exact AList.mem_lookup_iff.mp hrow
      · simp [hpending, hopen]
    cases hmin : List.min? ((s.rows.entries.filter fun e =>
        e.2.state = .pending && s.isOpen e.1).filterMap fun e => e.2.retryAfter) with
    | none =>
      rw [List.min?_eq_none_iff.mp hmin] at hmem
      exact absurd hmem List.not_mem_nil
    | some due =>
      have hle := (List.min?_eq_some_iff.mp hmin).2 u hmem
      refine ⟨due, rfl, le_trans hle ?_⟩
      rw [hu]
      exact le_max_right _ _

/-- The end of a sweep queues the follow-up. -/
theorem mem_endSweep {now due : ℕ} (h : s.followUpAt now = some due) (k : ℕ) :
    scoreSweepDue (max due now) ∈ (s.endSweep k now).sweeps := by
  rw [ScoringState.endSweep, h]
  change scoreSweepDue (max due now) ∈ queueScoreSweep (max due now) s.sweeps
  unfold queueScoreSweep
  split_ifs with hshared
  · exact List.contains_iff_mem.mp hshared
  · exact List.mem_cons_self

section Progress

variable {v window now : ℕ} {skipped : Finset Uuid}

/-- The rows that may be taken. -/
def candidates (s : ScoringState) (skipped : Finset Uuid) (now : ℕ) : Finset Uuid :=
  s.rows.keys.toFinset.filter fun k =>
    (s.rows.lookup k).any fun row => s.mayTake skipped now k row

theorem mem_candidates {k : Uuid} :
    k ∈ s.candidates skipped now ↔
      ∃ row, s.rows.lookup k = some row ∧ s.mayTake skipped now k row = true := by
  simp only [candidates, Finset.mem_filter, List.mem_toFinset, Option.any_eq_true]
  constructor
  · rintro ⟨-, row, hrow, hmay⟩
    exact ⟨row, hrow, hmay⟩
  · rintro ⟨row, hrow, hmay⟩
    refine ⟨?_, row, hrow, hmay⟩
    rw [← AList.mem_keys, ← AList.lookup_isSome, hrow]
    rfl

/-- A claim takes one candidate and leaves the others. -/
theorem candidates_claim (hwindow : 0 < window) {id : Uuid} {row : ScoreRow}
    (hnewest : s.newest skipped now = some (id, row)) :
    (s.claim v skipped window now).candidates skipped now =
      (s.candidates skipped now).erase id := by
  have hmay (k : Uuid) (r : ScoreRow) :
      (s.claim v skipped window now).mayTake skipped now k r = s.mayTake skipped now k r := by
    rw [ScoringState.claim, hnewest]
    rfl
  have hrows : (s.claim v skipped window now).rows = s.rows.insert id (row.hold now window) := by
    rw [ScoringState.claim, hnewest]
  ext k
  rw [Finset.mem_erase, mem_candidates, mem_candidates, hrows]
  simp only [hmay, Table.lookup_insert]
  by_cases hk : k = id
  · subst hk
    have hlate : ¬(now + window ≤ now) := by omega
    simp [mayTake, ScoreRow.isClaimable, ScoreRow.hold, hlate]
  · simp [hk]

/-- A row that may be taken is taken by one of the claims that follow. -/
theorem taken_of_claims (hwindow : 0 < window) {id : Uuid} {row : ScoreRow}
    (hrow : s.rows.lookup id = some row) (hmay : s.mayTake skipped now id row = true) (v : ℕ) :
    ∃ n m, ((claim · v skipped window now)^[n + 1] s).log.head? = some (.claimed m id) := by
  obtain ⟨n, hn⟩ := taken_of_pick (fun s : ScoringState => (s.newest skipped now).map Prod.fst)
    (claim · v skipped window now) (fun s => s.candidates skipped now)
    (fun s hnone => by
      refine Finset.eq_empty_of_forall_notMem fun k hk => ?_
      obtain ⟨r, hr, hcan⟩ := mem_candidates.mp hk
      have hcannot := newest_eq_none (Option.map_eq_none_iff.mp hnone) hr
      simp [hcan] at hcannot)
    (fun s k hpick => by
      obtain ⟨⟨k', r⟩, hfound, rfl⟩ := Option.map_eq_some_iff.mp hpick
      obtain ⟨hr, hcan⟩ := newest_eq_some hfound
      exact ⟨mem_candidates.mpr ⟨r, hr, hcan⟩, candidates_claim hwindow hfound⟩)
    (mem_candidates.mpr ⟨row, hrow, hmay⟩)
  obtain ⟨⟨k, r⟩, hfound, rfl⟩ := Option.map_eq_some_iff.mp hn
  refine ⟨n, ((claim · v skipped window now)^[n] s).log.claims, ?_⟩
  rw [Function.iterate_succ_apply', ScoringState.claim, hfound]
  rfl

end Progress

/-- What the scoring claims promise, in one state. -/
structure ScoringLaw (s : ScoringState) : Prop where
  /-- A claim that does not hold its row any more writes nothing. -/
  stale : ∀ n c, s.claims.lookup n = some c → s.log.holder c.id ≠ some n →
    ∀ outcome qualificationId model now,
      s.record n c outcome qualificationId model now = { s with claims := s.claims.erase n }
  /-- An outcome was recorded on the claim that produced it: between the two the row did not
  become pending anew, and there is no other claim and no other outcome of it. -/
  own : ∀ later n id answer earlier, s.log = later ++ .answered n id answer :: earlier →
    ∃ between before, earlier = between ++ .claimed n id :: before ∧
      ∀ e ∈ between, e.touches id = false
  once : ∀ n, s.log.answers n ≤ 1
  /-- The claim that holds a row reads the profile under which the row became pending, or a
  later one. -/
  current : ∀ n c, s.claims.lookup n = some c → s.log.holder c.id = some n →
    (s.repended.lookup c.id).getD 0 ≤ c.profileVersion
  /-- Since a row became pending anew it failed at most five times, and the fifth is the last. -/
  failures : ∀ id row, s.rows.lookup id = some row → s.log.failures id ≤ scoreAttempts ∧
    (s.log.failures id = scoreAttempts → row.state = .failed)
  /-- A row that may be taken is taken by one of the next claims. -/
  taken : ∀ id row skipped now, s.rows.lookup id = some row → s.mayTake skipped now id row = true →
    ∀ v window, 0 < window →
      ∃ n m, ((claim · v skipped window now)^[n + 1] s).log.head? = some (.claimed m id)
  /-- A pending row of an open job has a follow-up, and the end of a sweep queues it. -/
  followed : ∀ id row, s.rows.lookup id = some row → row.state = .pending → s.isOpen id = true →
    ∀ now, ∃ due, s.followUpAt now = some due ∧ due ≤ max now (row.retryAfter.getD now) ∧
      ∀ k, scoreSweepDue (max due now) ∈ (s.endSweep k now).sweeps

theorem Agrees.law (h : s.Agrees) : s.ScoringLaw where
  stale _ _ hclaim hholder outcome qualificationId model now :=
    h.record_stale hclaim hholder outcome qualificationId model now
  own _ _ _ _ _ hlog := QueueLog.IsHonest.own_claim (hlog ▸ h.honest)
  once n := h.honest.answers_le_one n
  current n c hclaim hholder := (h.fresh n c hclaim hholder).2
  failures id row hrow := by
    have hsound := h.row id row hrow
    refine ⟨hsound.failures, fun hall => ?_⟩
    by_contra hnot
    have hlt := hsound.open_ hnot
    omega
  taken id row skipped now hrow hmay v window hwindow := taken_of_claims hwindow hrow hmay v
  followed id row hrow hpending hopen now := by
    obtain ⟨due, hdue, hle⟩ := followUpAt_le hrow hpending hopen now
    exact ⟨due, hdue, hle, mem_endSweep hdue⟩

theorem Agrees.of_isEmpty (h : s.IsEmpty) : s.Agrees := by
  obtain ⟨hprofile, hrows, hpromotions, hrunning, hclaims, hsweeps, hlog, hrepended⟩ := h
  constructor
  case honest => rw [hlog]; trivial
  case numbered =>
    rw [hclaims]
    exact fun n c hc => by cases hc
  case row =>
    rw [hrows]
    exact fun id row hrow => by cases hrow
  case holding =>
    rw [hlog]
    exact fun id hid => by cases hid
  case current =>
    rw [hclaims]
    exact fun n c hc => by cases hc
  case fresh =>
    rw [hclaims]
    exact fun n c hc => by cases hc
  case promoted =>
    rw [hclaims]
    exact fun n c hc => by cases hc
  case versions =>
    rw [hrepended]
    exact fun id v hv => by cases hv

end ScoringState

/-- The scoring tables, in timely runs. -/
def timelyScoring (digest : ScoredJob → ℕ → String) : Machine ScoringState ScoringAction :=
  (scoring digest).restrict fun s a => s.isTimely digest a = true

/-- In every timely run, every outcome lands on its own claim, failures are counted to five
between re-pends, and every row still to be scored has a sweep to come. -/
theorem scoring_law (digest : ScoredJob → ℕ → String) {s : ScoringState}
    (hs : (timelyScoring digest).Reachable s) : s.ScoringLaw := by
  have hagrees := Machine.Reachable.invariant (I := ScoringState.Agrees) ?_ ?_ hs
  · exact hagrees.law
  · exact fun s hempty => .of_isEmpty hempty
  · intro s a t _ hagrees hstep
    obtain ⟨htimely, hstep⟩ := Machine.restrict_step.mp hstep
    exact hagrees.step htimely hstep

section Runs

private def sampleJob : ScoredJob := ⟨"Backend work", [("message", "Build an API.")], true, 1, 1⟩

private def sampleDigest (job : ScoredJob) (_ : ℕ) : String := job.title

private def sampleScoring : ScoringState where
  profile := none
  jobs := (∅ : Table Uuid ScoredJob).insert 7 sampleJob
  rows := ∅
  promotions := ∅
  qualifications := ∅
  running := ∅
  claims := ∅
  sweeps := []
  log := []
  repended := ∅

private theorem sampleScoring_isEmpty : sampleScoring.IsEmpty :=
  ⟨rfl, rfl, rfl, rfl, rfl, rfl, rfl, rfl⟩

private def sampleStart : List ScoringAction :=
  [.setProfile 50 1, .startSweep 0 ⟨false, "off"⟩ 2, .claim 0 ∅ 10 3]

private def sampleScored : ScoringAction :=
  .record 0 { fit := some "high", score := some 80, model := true } 20
    ⟨"claude_cli:default", "jobscore.1"⟩ 5

/-- The laws while a claim holds its row. -/
theorem scoring_law_claimed :
    ∃ s, (timelyScoring sampleDigest).Reachable s ∧ s.log.holder 7 = some 0 ∧ s.ScoringLaw := by
  have hend : ((timelyScoring sampleDigest).run sampleScoring sampleStart).map
      (fun s => s.log.holder 7) = some (some 0) := by
    decide +kernel
  obtain ⟨s, hs, hholder⟩ := Option.map_eq_some_iff.mp hend
  have hreach := Machine.reachable_of_run sampleScoring_isEmpty hs
  exact ⟨s, hreach, hholder, scoring_law sampleDigest hreach⟩

/-- The profile is set while a claim is unanswered, and the job becomes pending anew. The
answer under the old profile marks it scored. -/
theorem scored_under_old_profile :
    ∃ s t, (scoring sampleDigest).Reachable s ∧ s.log.holder 7 = none ∧ s.version = 2 ∧
      s.step sampleDigest sampleScored = some t ∧
      (t.rows.lookup 7).map (·.state) = some .scored ∧
      (t.latest 7).bind (·.promptVersion) = some "jobscore.1/profile.1" := by
  have hend : ((scoring sampleDigest).run sampleScoring (sampleStart ++ [.setProfile 60 4])).map
      (fun s => (s.log.holder 7, s.version, (s.step sampleDigest sampleScored).map fun t =>
        ((t.rows.lookup 7).map (·.state), (t.latest 7).bind (·.promptVersion)))) =
        some (none, 2, some (some .scored, some "jobscore.1/profile.1")) := by
    decide +kernel
  obtain ⟨s, hs, hview⟩ := Option.map_eq_some_iff.mp hend
  obtain ⟨hholder, hview⟩ := Prod.mk.inj hview
  obtain ⟨hversion, hview⟩ := Prod.mk.inj hview
  obtain ⟨t, ht, hview⟩ := Option.map_eq_some_iff.mp hview
  obtain ⟨hstate, hprompt⟩ := Prod.mk.inj hview
  exact ⟨s, t, Machine.reachable_of_run sampleScoring_isEmpty hs, hholder, hversion, ht, hstate,
    hprompt⟩

end Runs

end Rheostream.Leads
