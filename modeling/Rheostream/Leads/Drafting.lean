import Rheostream.Foundation.ClaimQueueLaws
import Rheostream.Leads.Proposals

/-!
# Every draft lands on its own claim

The history of the proposals records every transaction that touches one. In every order of
the transactions of any number of sweeps, with requests, edits and deaths between them, no
request fails more than three times and work that is left gets a sweep. An outcome is recorded
only on the claim that produced it while the requests are apart: a claim is told by its
request's instant and its attempt, so a request must not carry the instant of an earlier one
whose claim is still unanswered.
-/

namespace Rheostream.Leads

namespace DraftingState

variable {s t : DraftingState} {apart : Prop}

/-- A request does not carry the instant of a request that a claim still answers. -/
def isFreshRequest (s : DraftingState) : DraftingAction → Bool
  | .request id _ now => !s.drafting.existsRow fun _ c => c.id = id && c.requestedAt = now
  | _ => true

variable {id : Uuid} {m : RequestInput} {now : ℕ}

theorem isFreshRequest_iff :
    s.isFreshRequest (.request id m now) = true ↔
      ∀ n c, s.drafting.lookup n = some c → c.id = id → c.requestedAt ≠ now := by
  rw [isFreshRequest, Bool.not_eq_true', Table.existsRow_eq_false]
  constructor
  · intro h n c hc hid heq
    have := h n c hc
    simp [hid, heq] at this
  · intro h n c hc
    by_cases hid : c.id = id
    · simp [hid, h n c hc hid]
    · simp [hid]

/-- The proposals agree with their history and, when the requests are apart, with the claims of
the sweeps. -/
abbrev Agrees (apart : Prop) (s : DraftingState) : Prop :=
  s.proposals.Sound apart draftAttempts s.drafting s.log

/-- What an accepted request wrote. -/
theorem request_ok (ht : s.request id m now = .ok t) :
    t = { s with
      proposals := s.proposals.insert id (requestedRow (s.proposals.lookup id) m now)
      sweeps := queueSweep now s.sweeps
      log := .reset [id] :: s.log } := by
  simp only [DraftingState.request] at ht
  split at ht
  · cases ht
  · split at ht
    · cases ht
    · split at ht
      · cases ht
      · split at ht
        · cases ht
        · split at ht
          · cases ht
          · exact (Except.ok.inj ht).symm

/-- What an accepted deletion wrote. -/
theorem deleteDraft_ok (ht : s.deleteDraft id now = .ok t) :
    t = s ∨ ∃ row, s.proposals.lookup id = some row ∧ t = { s with
      proposals := s.proposals.insert id (idleRow now row)
      sections := s.sections.erase id
      log := .reset [id] :: s.log } := by
  simp only [DraftingState.deleteDraft] at ht
  split at ht
  · cases ht
  · split at ht
    · exact .inl (Except.ok.inj ht).symm
    · next row hrow => exact .inr ⟨row, hrow, (Except.ok.inj ht).symm⟩

/-- The edits of a draft write sections only. -/
theorem setSection_ok {id sectionId : Uuid} {body : String}
    (ht : s.setSection id sectionId body now = .ok t) :
    ∃ sections, t = { s with sections := sections } := by
  simp only [DraftingState.setSection] at ht
  split at ht
  · cases ht
  · split at ht
    · cases ht
    · split_ifs at ht
      · exact ⟨s.sections, (Except.ok.inj ht).symm⟩
      · exact ⟨_, (Except.ok.inj ht).symm⟩

theorem useLibrary_ok {id sectionId : Uuid} {found : String → Option (Uuid × String)}
    (ht : s.useLibrary id sectionId found now = .ok t) :
    ∃ sections, t = { s with sections := sections } := by
  simp only [DraftingState.useLibrary] at ht
  split at ht
  · cases ht
  · split at ht
    · cases ht
    · split at ht
      · cases ht
      · exact ⟨_, (Except.ok.inj ht).symm⟩

theorem updateDraft_ok {letter : String} {answers : Option (List (String × String))}
    {ids : List Uuid} (ht : s.updateDraft id letter answers ids now = .ok t) :
    ∃ sections, t = { s with sections := sections } := by
  simp only [DraftingState.updateDraft] at ht
  split at ht
  · cases ht
  · split_ifs at ht
    exact ⟨_, (Except.ok.inj ht).symm⟩

/-- An accepted pricing request queues one row and a sweep. -/
theorem requestPricing_ok (ht : s.requestPricing id now = .ok t) :
    ∃ row, row.state = .queued ∧
      t = { s with pricing := s.pricing.insert id row, sweeps := queueSweep now s.sweeps } := by
  simp only [DraftingState.requestPricing] at ht
  split at ht
  · cases ht
  · split at ht
    · cases ht
    · split_ifs at ht
      exact ⟨_, rfl, (Except.ok.inj ht).symm⟩

theorem Agrees.request (h : s.Agrees apart)
    (hfresh : apart → s.isFreshRequest (.request id m now) = true) (ht : s.request id m now = .ok t)
    : t.Agrees apart := by
  obtain rfl := request_ok ht
  exact Queue.Sound.request h (by decide) rfl rfl fun happart n c hc hid heq =>
    isFreshRequest_iff.mp (hfresh happart) n c hc hid heq

theorem Agrees.deleteDraft (h : s.Agrees apart) (ht : s.deleteDraft id now = .ok t) :
    t.Agrees apart := by
  obtain rfl | ⟨row, hrow, rfl⟩ := deleteDraft_ok ht
  · exact h
  · refine Queue.Sound.remove h (fun k hk => ?_) (fun k r hk hr => ?_)
    · have hne : k ≠ id := by simpa using hk
      rw [Table.lookup_insert, if_neg hne]
    · obtain rfl : k = id := by simpa using hk
      rw [Table.lookup_insert, if_pos rfl] at hr
      obtain rfl := Option.some.inj hr
      rfl

theorem Agrees.eraseDerived (h : s.Agrees apart) (ids : List Uuid) :
    (s.eraseDerived ids).Agrees apart := by
  refine Queue.Sound.remove h (fun k hk => ?_) (fun k r hk hr => ?_)
  · have hnot : ids.contains k = false := by simpa using hk
    simp only [DraftingState.eraseDerived, Table.lookup_deleteWhere, hnot]
    cases s.proposals.lookup k <;> simp
  · have hgone := (Table.lookup_deleteWhere_eq_some.mp hr).2
    simp [hk] at hgone

theorem Agrees.failLapsed (h : s.Agrees apart) (now : ℕ) : (s.failLapsed now).Agrees apart :=
  Queue.Sound.failLapsed h claimLapsed now

variable {row : QueueRow ProposalText}

/-- After the first statement of a claim, no claim is spent any more. -/
theorem not_isSpent_failLapsed (hrow : (s.failLapsed now).proposals.lookup id = some row) :
    row.isSpent draftAttempts now = false := by
  change (s.proposals.failLapsed draftAttempts claimLapsed now).lookup id = some row at hrow
  rw [Queue.lookup_failLapsed] at hrow
  obtain ⟨old, -, rfl⟩ := Option.map_eq_some_iff.mp hrow
  split_ifs with hspent
  · simp [QueueRow.isSpent]
  · simpa using hspent

theorem Agrees.claim (h : s.Agrees apart) (skipped : Finset Uuid) (window now : ℕ) :
    (s.claim skipped window now).Agrees apart := by
  have hlapsed := h.failLapsed now
  unfold DraftingState.claim takeOldest
  split
  · exact hlapsed
  · next id row hold =>
    obtain ⟨hrow, -, hclaimable, -⟩ := Queue.oldest_eq_some hold
    exact Queue.Sound.take hlapsed hrow hclaimable (not_isSpent_failLapsed hrow) window _

/-- Writing a schedule leaves the proposals alone. -/
theorem writePriced_frame (c : Claim DraftInput) (schedule : Schedule) (now : ℕ) :
    (s.writePriced c schedule now).1.proposals = s.proposals ∧
      (s.writePriced c schedule now).1.drafting = s.drafting := by
  unfold writePriced
  split_ifs <;> exact ⟨rfl, rfl⟩

/-- A finished draft writes its own proposal and answers no other claim. -/
theorem writeDraft_proposals (c : Claim DraftInput) (result : DraftResult) (profileVersion : ℕ)
    (modelId : String) (ids : List Uuid) (now : ℕ) :
    (s.writeDraft c result profileVersion modelId ids now).drafting = s.drafting ∧
      ∃ stale, (s.writeDraft c result profileVersion modelId ids now).proposals =
        s.proposals.updateAll fun k row =>
          if k = c.id then draftedRow c result stale profileVersion modelId now row else row := by
  unfold writeDraft
  cases result.schedule with
  | none => exact ⟨rfl, _, rfl⟩
  | some schedule => exact ⟨(writePriced_frame c schedule now).2, _, rfl⟩

variable {c : Claim DraftInput} {n : ℕ}

theorem Agrees.record (h : s.Agrees apart) (hclaim : s.drafting.lookup n = some c)
    (outcome : DraftOutcome) (now : ℕ) : (s.record n c outcome now).Agrees apart := by
  unfold DraftingState.record
  split_ifs with hstale
  · exact Queue.Sound.forget h fun m d hd => (Table.lookup_erase_eq_some.mp hd).2
  · have hmine : s.proposals.isMine c = true := by simpa using hstale
    cases outcome with
    | drafted result profileVersion modelId ids =>
      obtain ⟨hdrafting, stale, hproposals⟩ := writeDraft_proposals
        (s := { s with drafting := s.drafting.erase n }) c result profileVersion modelId ids now
      simp only [Agrees, hdrafting, hproposals]
      refine Queue.Sound.answer h hclaim hmine (fun row hrow => ?_) (fun k hk => .inl ?_)
      · exact ⟨draftedRow c result stale profileVersion modelId now row, by simp [hrow], rfl, rfl,
          rfl⟩
      · cases hrow : s.proposals.lookup k <;> simp [hrow, hk]
    | deferred kind => exact Queue.Sound.giveBack h hclaim hmine _ now kind
    | failed kind => exact Queue.Sound.countFailure h hclaim hmine _ now kind

theorem Agrees.claimPricing (h : s.Agrees apart) (skipped : Finset Uuid) (window now : ℕ) :
    (s.claimPricing skipped window now).Agrees apart := by
  unfold DraftingState.claimPricing
  dsimp only
  split <;> exact h

theorem Agrees.recordPricing (h : s.Agrees apart) (n : ℕ) (c : Claim Unit)
    (outcome : PriceOutcome) (now : ℕ) : (s.recordPricing n c outcome now).Agrees apart := by
  unfold DraftingState.recordPricing
  split_ifs
  · exact h
  · cases outcome <;> exact h

theorem Agrees.endSweep (h : s.Agrees apart) (now : ℕ) : (s.endSweep now).Agrees apart := by
  unfold DraftingState.endSweep
  split
  · exact h
  · exact h

/-- Every step keeps the agreement, and the requests apart when its own is fresh. -/
theorem Agrees.step {a : DraftingAction} (h : s.Agrees apart)
    (hfresh : apart → s.isFreshRequest a = true) (ht : s.step a = some t) : t.Agrees apart := by
  cases a with
  | configure jobsearch profile =>
    obtain rfl := Option.some.inj ht
    exact h
  | create id record =>
    simp only [DraftingState.step, Option.ite_none_left_eq_some, Option.some.injEq] at ht
    obtain ⟨-, rfl⟩ := ht
    exact h
  | archive id stageId =>
    obtain ⟨record, -, rfl⟩ := Option.map_eq_some_iff.mp ht
    exact h
  | request id m now => exact h.request hfresh (accepted_iff.mp ht)
  | deleteDraft id now => exact h.deleteDraft (accepted_iff.mp ht)
  | setSection id sectionId body now =>
    obtain ⟨sections, rfl⟩ := setSection_ok (accepted_iff.mp ht)
    exact h
  | useLibrary id sectionId found now =>
    obtain ⟨sections, rfl⟩ := useLibrary_ok (accepted_iff.mp ht)
    exact h
  | updateDraft id letter answers ids now =>
    obtain ⟨sections, rfl⟩ := updateDraft_ok (accepted_iff.mp ht)
    exact h
  | eraseDerived ids =>
    obtain rfl := Option.some.inj ht
    exact h.eraseDerived ids
  | claim skipped window now =>
    obtain rfl := Option.some.inj ht
    exact h.claim skipped window now
  | renew n window now =>
    obtain ⟨c, -, rfl⟩ := Option.map_eq_some_iff.mp ht
    exact Queue.Sound.renew h c (now + window)
  | record n outcome now =>
    obtain ⟨c, hclaim, rfl⟩ := Option.map_eq_some_iff.mp ht
    exact h.record hclaim outcome now
  | crash n =>
    obtain rfl := Option.some.inj ht
    exact Queue.Sound.forget h fun m d hd => (Table.lookup_erase_eq_some.mp hd).2
  | requestPricing id now =>
    obtain ⟨row, -, rfl⟩ := requestPricing_ok (accepted_iff.mp ht)
    exact h
  | claimPricing skipped window now =>
    obtain rfl := Option.some.inj ht
    exact h.claimPricing skipped window now
  | renewPricing n window now =>
    obtain ⟨c, -, rfl⟩ := Option.map_eq_some_iff.mp ht
    exact h
  | recordPricing n outcome now =>
    obtain ⟨c, -, rfl⟩ := Option.map_eq_some_iff.mp ht
    exact h.recordPricing n c outcome now
  | crashPricing n =>
    obtain rfl := Option.some.inj ht
    exact h
  | startSweep due =>
    simp only [DraftingState.step, Option.ite_none_right_eq_some, Option.some.injEq] at ht
    obtain ⟨-, rfl⟩ := ht
    exact h
  | endSweep now =>
    obtain rfl := Option.some.inj ht
    exact h.endSweep now

/-- Every pricing request that is running says when its claim lapses. -/
abbrev PricingTimed (s : DraftingState) : Prop := s.pricing.Timed

theorem PricingTimed.writeSchedule (h : s.PricingTimed) (id : Uuid) (schedule : Schedule)
    (now : ℕ) : (s.writeSchedule id schedule now).PricingTimed := by
  refine Queue.Timed.insert h fun hheld => ?_
  simp [pricedRow] at hheld

theorem PricingTimed.writeDraft (h : s.PricingTimed) (c : Claim DraftInput) (result : DraftResult)
    (profileVersion : ℕ) (modelId : String) (ids : List Uuid) (now : ℕ) :
    (s.writeDraft c result profileVersion modelId ids now).PricingTimed := by
  cases hschedule : result.schedule with
  | none =>
    simp only [DraftingState.writeDraft, hschedule]
    exact h
  | some schedule =>
    simp only [DraftingState.writeDraft, hschedule, writePriced]
    split_ifs
    · exact PricingTimed.writeSchedule h c.id schedule now
    · exact h

theorem PricingTimed.record (h : s.PricingTimed) (n : ℕ) (c : Claim DraftInput)
    (outcome : DraftOutcome) (now : ℕ) : (s.record n c outcome now).PricingTimed := by
  unfold DraftingState.record
  split_ifs
  · exact h
  · cases outcome with
    | deferred kind => exact h
    | failed kind => exact h
    | drafted result profileVersion modelId ids =>
      exact PricingTimed.writeDraft (s := { s with drafting := s.drafting.erase n }) h c result
        profileVersion modelId ids now

theorem PricingTimed.claimPricing (h : s.PricingTimed) (skipped : Finset Uuid) (window now : ℕ) :
    (s.claimPricing skipped window now).PricingTimed := by
  have hlapsed := Queue.Timed.failLapsed h draftAttempts claimLapsed now
  unfold DraftingState.claimPricing
  dsimp only
  split
  · exact hlapsed
  · exact Queue.Timed.insert hlapsed fun _ => rfl

theorem PricingTimed.recordPricing (h : s.PricingTimed) (n : ℕ) (c : Claim Unit)
    (outcome : PriceOutcome) (now : ℕ) : (s.recordPricing n c outcome now).PricingTimed := by
  unfold DraftingState.recordPricing
  split_ifs
  · exact h
  · cases outcome with
    | priced schedule => exact PricingTimed.writeSchedule h c.id schedule now
    | deferred kind => exact Queue.Timed.giveBack h c _ now kind
    | failed kind => exact Queue.Timed.countFailure h draftAttempts c _ now kind

theorem PricingTimed.step {a : DraftingAction} (h : s.PricingTimed) (ht : s.step a = some t) :
    t.PricingTimed := by
  cases a with
  | request id m now =>
    obtain rfl := request_ok (accepted_iff.mp ht)
    exact h
  | deleteDraft id now =>
    obtain rfl | ⟨row, -, rfl⟩ := deleteDraft_ok (accepted_iff.mp ht)
    · exact h
    · exact h
  | setSection id sectionId body now =>
    obtain ⟨sections, rfl⟩ := setSection_ok (accepted_iff.mp ht)
    exact h
  | useLibrary id sectionId found now =>
    obtain ⟨sections, rfl⟩ := useLibrary_ok (accepted_iff.mp ht)
    exact h
  | updateDraft id letter answers ids now =>
    obtain ⟨sections, rfl⟩ := updateDraft_ok (accepted_iff.mp ht)
    exact h
  | configure jobsearch profile =>
    obtain rfl := Option.some.inj ht
    exact h
  | create id record =>
    simp only [DraftingState.step, Option.ite_none_left_eq_some, Option.some.injEq] at ht
    obtain ⟨-, rfl⟩ := ht
    exact h
  | archive id stageId =>
    obtain ⟨record, -, rfl⟩ := Option.map_eq_some_iff.mp ht
    exact h
  | eraseDerived ids =>
    obtain rfl := Option.some.inj ht
    exact fun k r hr => h k r (Table.lookup_deleteWhere_eq_some.mp hr).1
  | claim skipped window now =>
    obtain rfl := Option.some.inj ht
    unfold DraftingState.claim takeOldest
    split <;> exact h
  | renew n window now =>
    obtain ⟨c, -, rfl⟩ := Option.map_eq_some_iff.mp ht
    exact h
  | record n outcome now =>
    obtain ⟨c, -, rfl⟩ := Option.map_eq_some_iff.mp ht
    exact h.record n c outcome now
  | crash n =>
    obtain rfl := Option.some.inj ht
    exact h
  | requestPricing id now =>
    obtain ⟨row, hqueued, rfl⟩ := requestPricing_ok (accepted_iff.mp ht)
    exact Queue.Timed.insert h fun hheld => by simp [hqueued] at hheld
  | claimPricing skipped window now =>
    obtain rfl := Option.some.inj ht
    exact h.claimPricing skipped window now
  | renewPricing n window now =>
    obtain ⟨c, -, rfl⟩ := Option.map_eq_some_iff.mp ht
    exact Queue.Timed.renew h c (now + window)
  | recordPricing n outcome now =>
    obtain ⟨c, -, rfl⟩ := Option.map_eq_some_iff.mp ht
    exact h.recordPricing n c outcome now
  | crashPricing n =>
    obtain rfl := Option.some.inj ht
    exact h
  | startSweep due =>
    simp only [DraftingState.step, Option.ite_none_right_eq_some, Option.some.injEq] at ht
    obtain ⟨-, rfl⟩ := ht
    exact h
  | endSweep now =>
    obtain rfl := Option.some.inj ht
    unfold DraftingState.endSweep
    split <;> exact h

/-- While a queue has a row that is queued or held, it has a follow-up, unless the row is due
and may not be taken. -/
private theorem followUp_of_busy {D : Type} {rows : Queue D} {takes : Uuid → Bool}
    {row : QueueRow D} (htimed : rows.Timed) (hrow : rows.lookup id = some row)
    (hbusy : row.state = .queued ∨ row.state = .held) (htakes : takes id = true) (now : ℕ) :
    (rows.followUpAt takes now).isSome = true := by
  cases hretry : row.retryAfter with
  | some u =>
    obtain ⟨due, hdue, -⟩ := Queue.followUpAt_le takes hrow hbusy hretry now
    rw [hdue]
    rfl
  | none =>
    have hqueued : row.state = .queued := by
      refine hbusy.resolve_right fun hheld => ?_
      have hsome := htimed id row hrow hheld
      simp [hretry] at hsome
    have hclaimable : row.isClaimable now = true :=
      QueueRow.isClaimable_iff.mpr (.inl ⟨hqueued, by simp [QueueRow.isDue, hretry]⟩)
    rw [Queue.followUpAt_of_claimable hrow htakes hclaimable]
    rfl

/-- A proposal that is queued or being drafted has a follow-up, its own or its pricing's. -/
theorem followUp_of_agrees (h : s.Agrees apart) (htimed : s.PricingTimed)
    (hrow : s.proposals.lookup id = some row) (hbusy : row.state = .queued ∨ row.state = .held)
    (now : ℕ) : (s.isPricing id = false → (s.followUpAt now).isSome = true) ∧
      (s.isPricing id = true → (s.pricingFollowUpAt now).isSome = true) := by
  constructor
  · intro hfree
    exact followUp_of_busy (Queue.Sound.timed h) hrow hbusy (by simp [hfree]) now
  · intro hpricing
    obtain ⟨price, hprice, hstate⟩ := (Option.any_eq_true _ _).mp hpricing
    exact followUp_of_busy htimed hprice (by simpa using hstate) rfl now

theorem nextSweep_isSome
    (h : (s.followUpAt now).isSome = true ∨ (s.pricingFollowUpAt now).isSome = true) :
    ∃ due, s.nextSweep now = some due := by
  refine Option.ne_none_iff_exists'.mp fun hnone => ?_
  rw [nextSweep, List.min?_eq_none_iff] at hnone
  obtain hsome | hsome := h <;> obtain ⟨due, hdue⟩ := Option.isSome_iff_exists.mp hsome <;>
    have hmem : due ∈ [s.followUpAt now, s.pricingFollowUpAt now].reduceOption := by
      exact List.mem_filterMap.mpr ⟨some due, by simp [hdue], rfl⟩
  all_goals
    rw [hnone] at hmem
    exact absurd hmem List.not_mem_nil

/-- A queued sweep is due at the instant asked for, rounded up. -/
theorem mem_queueSweep (due : ℕ) (sweeps : List ℕ) : sweepDue due ∈ queueSweep due sweeps := by
  unfold queueSweep
  split_ifs with hshared
  · exact List.contains_iff_mem.mp hshared
  · exact List.mem_cons_self

/-- A claim that does not hold its proposal any more writes nothing. -/
theorem Agrees.record_stale (h : s.Agrees apart) (happart : apart)
    (hclaim : s.drafting.lookup n = some c) (hholder : s.log.holder c.id ≠ some n)
    (outcome : DraftOutcome) (now : ℕ) :
    s.record n c outcome now = { s with drafting := s.drafting.erase n } := by
  have hstale : s.proposals.isMine c = false := by
    by_contra hmine
    obtain ⟨-, -, -, hheld⟩ := Queue.Sound.holder_of_isMine h happart hclaim (by simpa using hmine)
    exact hholder hheld
  simp [DraftingState.record, hstale]

/-- A deferral gives the attempt back and counts no failure. -/
theorem Agrees.record_deferred (h : s.Agrees apart) (hrow : s.proposals.lookup c.id = some row)
    (hmine : s.proposals.isMine c = true) (kind : String) (now : ℕ) :
    (∃ row', (s.record n c (.deferred kind) now).proposals.lookup c.id = some row' ∧
        row'.state = .queued ∧ row'.attempts + 1 = row.attempts) ∧
      (s.record n c (.deferred kind) now).log.failures c.id = s.log.failures c.id := by
  obtain ⟨other, hother, hheld⟩ := Queue.isMine_iff.mp hmine
  obtain rfl : other = row := by simpa [hrow] using hother.symm
  obtain ⟨hstate, -, hattempts⟩ := QueueRow.isHeldBy_iff.mp hheld
  have htally := (h.row c.id other hrow).tally
  simp only [QueueRow.Tallies, hstate] at htally
  constructor
  · refine ⟨{ other with
      state := .queued
      attempts := c.attempts - 1
      retryAfter := some (now + usageDefer)
      failureKind := some kind
      updatedAt := now }, by simp [DraftingState.record, hmine, Queue.giveBack, hrow], rfl, ?_⟩
    change c.attempts - 1 + 1 = other.attempts
    omega
  · simp [DraftingState.record, hmine, QueueLog.failures]

/-- A claim that lapsed with its attempts spent fails at the next claim. -/
theorem lookup_claim_of_isSpent (hrow : s.proposals.lookup id = some row)
    (hspent : row.isSpent draftAttempts now = true) (skipped : Finset Uuid) (window : ℕ) :
    ∃ row', (s.claim skipped window now).proposals.lookup id = some row' ∧
      row'.state = .failed ∧ row'.failureKind = some claimLapsed := by
  have hfailed : (s.failLapsed now).proposals.lookup id = some
      { row with
        state := .failed
        retryAfter := none
        failureKind := some claimLapsed
        updatedAt := now } := by
    change (s.proposals.failLapsed draftAttempts claimLapsed now).lookup id = _
    rw [Queue.lookup_failLapsed, hrow, Option.map_some, if_pos hspent]
  unfold DraftingState.claim takeOldest
  split
  · exact ⟨_, hfailed, rfl, rfl⟩
  · next k r hold =>
    obtain ⟨hr, -, hclaimable, -⟩ := Queue.oldest_eq_some hold
    have hne : id ≠ k := by
      rintro rfl
      rw [hfailed] at hr
      obtain rfl := Option.some.inj hr
      simp [QueueRow.isClaimable] at hclaimable
    exact ⟨_, by rw [Table.lookup_insert, if_neg hne]; exact hfailed, rfl, rfl⟩

/-- What a claim does to the proposals. -/
theorem claim_proposals (skipped : Finset Uuid) (window now : ℕ) :
    (s.claim skipped window now).proposals =
      Queue.claimNext draftAttempts claimLapsed (s.takes skipped) window now s.proposals := by
  have hlapsed : (s.failLapsed now).proposals.oldest ((s.failLapsed now).takes skipped) now =
      (s.proposals.failLapsed draftAttempts claimLapsed now).oldest (s.takes skipped) now := rfl
  unfold Queue.claimNext
  rw [DraftingState.claim, takeOldest, hlapsed]
  cases (s.proposals.failLapsed draftAttempts claimLapsed now).oldest (s.takes skipped) now <;> rfl

/-- Claims leave alone what decides which rows they may take. -/
theorem claim_takes (skipped : Finset Uuid) (window now : ℕ) :
    (s.claim skipped window now).takes skipped = s.takes skipped := by
  unfold DraftingState.claim takeOldest
  split <;> rfl

/-- A claim that finds a row records that it took it. -/
theorem head?_claim_log {skipped : Finset Uuid} {window now : ℕ}
    (h : (s.failLapsed now).proposals.oldest ((s.failLapsed now).takes skipped) now =
      some (id, row))
    :
    (s.claim skipped window now).log.head? =
      some (.claimed (s.failLapsed now).log.claims id) := by
  rw [DraftingState.claim, takeOldest, h]
  rfl

/-- A run of claims claims the queue of proposals again and again. -/
theorem iterate_claim (skipped : Finset Uuid) (window now n : ℕ) :
    ((claim · skipped window now)^[n] s).proposals =
        (Queue.claimNext draftAttempts claimLapsed (s.takes skipped) window now)^[n] s.proposals ∧
      ((claim · skipped window now)^[n] s).takes skipped = s.takes skipped := by
  induction n generalizing s with
  | zero => exact ⟨rfl, rfl⟩
  | succ n ih =>
    obtain ⟨hproposals, hsame⟩ := ih (s := s.claim skipped window now)
    rw [Function.iterate_succ_apply, Function.iterate_succ_apply]
    rw [claim_proposals, claim_takes] at hproposals
    exact ⟨hproposals, hsame.trans (claim_takes skipped window now)⟩

/-- A proposal that can be taken is taken by one of the claims that follow. -/
theorem taken_of_claims {skipped : Finset Uuid} {window now : ℕ} (hwindow : 0 < window)
    (hrow : s.proposals.lookup id = some row) (htakes : s.takes skipped id = true)
    (hclaimable : row.isClaimable now = true) (hspent : row.isSpent draftAttempts now = false) :
    ∃ n m, ((claim · skipped window now)^[n + 1] s).log.head? = some (.claimed m id) := by
  obtain ⟨n, r, hn⟩ := Queue.taken_of_claimNext claimLapsed hwindow hrow htakes hclaimable hspent
  obtain ⟨hproposals, hsame⟩ := iterate_claim (s := s) skipped window now n
  have hold : (((claim · skipped window now)^[n] s).failLapsed now).proposals.oldest
      ((((claim · skipped window now)^[n] s).failLapsed now).takes skipped) now =
        some (id, r) := by
    change (Queue.failLapsed draftAttempts claimLapsed now
      ((claim · skipped window now)^[n] s).proposals).oldest
        (((claim · skipped window now)^[n] s).takes skipped) now = _
    rw [hproposals, hsame]
    exact hn
  refine ⟨n, (((claim · skipped window now)^[n] s).failLapsed now).log.claims, ?_⟩
  rw [Function.iterate_succ_apply']
  exact head?_claim_log hold

/-- What the drafting claims promise of their answers, in one state. -/
structure OwnClaims (s : DraftingState) : Prop where
  /-- A sweep whose claim does not hold its proposal any more writes nothing. -/
  stale : ∀ n c, s.drafting.lookup n = some c → s.log.holder c.id ≠ some n → ∀ outcome now,
    s.record n c outcome now = { s with drafting := s.drafting.erase n }
  /-- An outcome was recorded on the claim that produced it: between the two there is no
  request, no deletion, no other claim and no other outcome of the proposal. -/
  own : ∀ later n id answer earlier, s.log = later ++ .answered n id answer :: earlier →
    ∃ between before, earlier = between ++ .claimed n id :: before ∧
      ∀ e ∈ between, e.touches id = false
  once : ∀ n, s.log.answers n ≤ 1

/-- What the drafting queue promises of its work, in one state. -/
structure DraftingLaw (s : DraftingState) : Prop where
  /-- A request has at most three counted failures, and with the third it is failed. -/
  failures : ∀ id, s.log.failures id ≤ draftAttempts
  failed : ∀ id row, s.proposals.lookup id = some row → s.log.failures id = draftAttempts →
    row.state = .failed
  /-- The attempts are the counted failures and the lapsed claims, and the one that runs. -/
  counted : ∀ id row, s.proposals.lookup id = some row →
    (row.state = .queued → row.attempts = s.log.spent id) ∧
      (row.state = .held → row.attempts = s.log.spent id + 1)
  deferred : ∀ c row, s.proposals.lookup c.id = some row → s.proposals.isMine c = true →
    ∀ n kind now,
      (∃ row', (s.record n c (.deferred kind) now).proposals.lookup c.id = some row' ∧
          row'.state = .queued ∧ row'.attempts + 1 = row.attempts) ∧
        (s.record n c (.deferred kind) now).log.failures c.id = s.log.failures c.id
  /-- A claim that lapsed with its attempts spent fails at the next claim. -/
  lapsed : ∀ id row now, s.proposals.lookup id = some row → row.state = .held →
    row.hasLapsed now = true → draftAttempts ≤ row.attempts → ∀ skipped window,
      ∃ row', (s.claim skipped window now).proposals.lookup id = some row' ∧
        row'.state = .failed ∧ row'.failureKind = some claimLapsed
  /-- A claim that lapsed with attempts left is taken again by one of the next claims. -/
  retaken : ∀ id row now, s.proposals.lookup id = some row → row.state = .held →
    row.hasLapsed now = true → row.attempts < draftAttempts → ∀ skipped window, 0 < window →
      s.takes skipped id = true →
        ∃ n m, ((claim · skipped window now)^[n + 1] s).log.head? = some (.claimed m id)
  /-- While a proposal is queued or being drafted there is a follow-up: its own, or its
  pricing's while it waits for that. The end of a sweep queues the earlier one. -/
  followed : ∀ id row, s.proposals.lookup id = some row →
    row.state = .queued ∨ row.state = .held → ∀ now,
      (s.isPricing id = false → (s.followUpAt now).isSome = true) ∧
        (s.isPricing id = true → (s.pricingFollowUpAt now).isSome = true) ∧
        ∃ due, s.nextSweep now = some due ∧ sweepDue (max due now) ∈ (s.endSweep now).sweeps

theorem Agrees.ownClaims (h : s.Agrees apart) (happart : apart) : s.OwnClaims where
  stale _ _ hclaim hholder outcome now := h.record_stale happart hclaim hholder outcome now
  own _ _ _ _ _ hlog := QueueLog.IsHonest.own_claim (hlog ▸ h.honest happart)
  once n := (h.honest happart).answers_le_one n

theorem Agrees.law (h : s.Agrees apart) (htimed : s.PricingTimed) : s.DraftingLaw where
  failures id := le_trans (QueueLog.failures_le_spent id s.log) (Queue.Sound.spent_le h id)
  failed id row hrow hfailures := by
    have hle := QueueLog.failures_le_spent id s.log
    have htally := (h.row id row hrow).tally
    unfold QueueRow.Tallies at htally
    have hpositive : 0 < draftAttempts := by decide
    split at htally <;> first | assumption | omega
  counted id row hrow := by
    have htally := (h.row id row hrow).tally
    constructor <;>
    · intro hstate
      simp only [QueueRow.Tallies, hstate] at htally
      exact htally.1
  deferred _ _ hrow hmine _ kind now := h.record_deferred hrow hmine kind now
  lapsed _ _ _ hrow hstate hlapsed hle skipped window :=
    lookup_claim_of_isSpent hrow (QueueRow.isSpent_iff.mpr ⟨hstate, hlapsed, hle⟩) skipped window
  retaken _ row now hrow hstate hlapsed hlt skipped window hwindow htakes := by
    have hspent : row.isSpent draftAttempts now = false := by
      rw [Bool.eq_false_iff, ne_eq, QueueRow.isSpent_iff]
      rintro ⟨-, -, hle⟩
      omega
    exact taken_of_claims hwindow hrow htakes
      (QueueRow.isClaimable_iff.mpr (.inr ⟨hstate, hlapsed⟩)) hspent
  followed id row hrow hbusy now := by
    obtain ⟨hown, hpricing⟩ := followUp_of_agrees h htimed hrow hbusy now
    refine ⟨hown, hpricing, ?_⟩
    have hsome : (s.followUpAt now).isSome = true ∨ (s.pricingFollowUpAt now).isSome = true := by
      cases hwaits : s.isPricing id with
      | false => exact .inl (hown hwaits)
      | true => exact .inr (hpricing hwaits)
    obtain ⟨due, hdue⟩ := nextSweep_isSome hsome
    exact ⟨due, hdue, by rw [DraftingState.endSweep, hdue]; exact mem_queueSweep _ _⟩

end DraftingState

/-- The drafting tables, in runs whose requests carry instants of their own. -/
def freshProposals : Machine DraftingState DraftingAction :=
  proposals.restrict fun s a => s.isFreshRequest a = true

theorem DraftingState.Agrees.of_isEmpty {s : DraftingState} (h : s.IsEmpty) (apart : Prop) :
    s.Agrees apart := by
  obtain ⟨hproposals, -, -, -, hdrafting, -, -, hlog⟩ := h
  rw [DraftingState.Agrees, hproposals, hdrafting, hlog]
  exact Queue.Sound.empty apart draftAttempts

theorem agrees_of_fresh {s : DraftingState} (hs : freshProposals.Reachable s) : s.Agrees True := by
  refine Machine.Reachable.invariant (I := DraftingState.Agrees True) (fun _ h => .of_isEmpty h _)
    ?_ hs
  rintro s a t - hagrees hstep
  obtain ⟨hfresh, hstep⟩ := Machine.restrict_step.mp hstep
  exact hagrees.step (fun _ => hfresh) hstep

section Runs

private def sampleWorkspace : DraftingState where
  jobsearch := true
  profile := some ⟨1, true⟩
  opportunities := (∅ : Table Uuid DraftedJob).insert 7 ⟨jobsearchPresetId, "new"⟩
  proposals := ∅
  sections := ∅
  pricing := ∅
  milestones := ∅
  drafting := ∅
  running := ∅
  sweeps := []
  log := []
  priceClaims := 0

private theorem sampleWorkspace_isEmpty : sampleWorkspace.IsEmpty :=
  ⟨rfl, rfl, rfl, rfl, rfl, rfl, rfl, rfl⟩

private def sampleRequest (now : ℕ) : DraftingAction := .request 7 ⟨none, none, false⟩ now

end Runs

end Rheostream.Leads
