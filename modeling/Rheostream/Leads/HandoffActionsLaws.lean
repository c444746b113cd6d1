import Rheostream.Leads.HandoffActions

/-!
# What holds between a handoff and its external actions

The row of a handoff copies what core says of its latest attempt, so it allows a restage only
where core does, and an action that made an item has succeeded.
-/

namespace Rheostream.Leads

section Rows

variable {row row' : Handoff} {action : HandoffAction} {id k : Uuid} {s t : LinkState}

theorem restageAllowed_cases (h : restageAllowed row = true) :
    row.state = .failed ∨ row.state = .unavailable ∨
      row.state = .refused ∧ row.resultDetail = some "destination_unavailable_no_effect" := by
  unfold restageAllowed at h
  by_cases hdestination : row.destinationRef ≠ some "current"
  · rw [if_pos hdestination] at h
    cases h
  rw [if_neg hdestination] at h
  by_cases hunavailable : row.state = .unavailable
  · exact .inr (.inl hunavailable)
  rw [if_neg hunavailable] at h
  by_cases hrefused : row.state = .refused
  · rw [if_pos hrefused] at h
    exact .inr (.inr ⟨hrefused, of_decide_eq_true h⟩)
  · rw [if_neg hrefused] at h
    exact .inl (of_decide_eq_true h)

/-- A refused action leaves the detail of an unavailable destination only for its class. -/
theorem failureClass_of_detail (hrefused : action.state = .refused)
    (h : resultDetailOf action.published = some "destination_unavailable_no_effect") :
    action.failureClass = some .destinationUnavailableNoEffect := by
  obtain ⟨failure, hfailure⟩ := Option.isSome_iff_exists.mp (action.hasClass hrefused)
  have hstate : action.published.state = .refused := hrefused
  have hclass : action.published.failureClass = some failure.value := by
    rw [HandoffAction.published, hfailure]
    rfl
  unfold resultDetailOf at h
  rw [if_neg (by rw [hstate]; decide)] at h
  by_cases hresolved : action.published.errorCode.any fun code => pyStartsWith "resolved_" code
  · rw [if_pos hresolved] at h
    rw [h] at hresolved
    exact absurd hresolved (by decide)
  · rw [if_neg hresolved, hclass, Option.any_some,
      if_pos (by cases failure <;> decide)] at h
    have hvalue := Option.some.inj h
    rw [hfailure]
    cases failure <;> first | rfl | exact absurd hvalue (by decide)

variable {now : ℕ}

/-- The restage matrix of Leads is within what core marks eligible. -/
theorem restageEligible_of_copied {read : ActionRead} (hread : read.record = some action.published)
    (h : restageAllowed (outcomeValues row read now) = true) : action.restageEligible = true := by
  have hcases := restageAllowed_cases h
  unfold outcomeValues at hcases
  rw [hread] at hcases
  dsimp only at hcases
  have hstate : action.published.state = action.state := rfl
  rw [hstate] at hcases
  unfold HandoffAction.restageEligible
  split_ifs at hcases with hpending
  · obtain hfailed | hunavailable | ⟨hrefused, -⟩ := hcases
    · cases hfailed
    · cases hunavailable
    · cases hrefused
  all_goals
    dsimp only at hcases
    obtain hfailed | hunavailable | ⟨hrefused, hdetail⟩ := hcases
    · cases haction : action.state <;> rw [haction] at hfailed <;> first | rfl | cases hfailed
    · cases haction : action.state <;> rw [haction] at hunavailable <;> cases hunavailable
    · have haction : action.state = .refused := by
        cases haction : action.state <;> rw [haction] at hrefused <;> first | rfl | cases hrefused
      rw [haction, failureClass_of_detail haction hdetail]
      rfl

/-- A read that finds no record allows no restage that the row did not allow. -/
theorem restageAllowed_of_unread {missing : Bool}
    (h : restageAllowed (outcomeValues row ⟨none, missing⟩ now) = true) :
    restageAllowed row = true := by
  have hcases := restageAllowed_cases h
  unfold outcomeValues at h hcases
  dsimp only at h hcases
  split_ifs at h hcases with hmissing hpending hunresolved
  · obtain hfailed | hunavailable | ⟨hrefused, -⟩ := hcases
    · cases hfailed
    · cases hunavailable
    · cases hrefused
  · rw [Bool.and_eq_true, decide_eq_true_eq] at hunresolved
    dsimp only at hcases
    rw [hunresolved.1] at hcases
    obtain hfailed | hunavailable | ⟨hrefused, -⟩ := hcases
    · cases hfailed
    · cases hunavailable
    · cases hrefused
  · exact h
  · exact h

/-- `row'` is `row` after any number of links, with at most one outcome copied from `answers`. -/
structure Copies (answers : Uuid → ReadAnswer ActionRecord) (row row' : Handoff) : Prop where
  action : row'.externalActionId = row.externalActionId
  attempts : row'.attemptCount = row.attemptCount
  outcome : restageAllowed row' = restageAllowed row ∨ ∃ a now, row.externalActionId = some a ∧
    restageAllowed row' = restageAllowed (outcomeValues row (readAction (answers a)) now)

variable {answers : Uuid → ReadAnswer ActionRecord}

theorem Copies.refl (row : Handoff) : Copies answers row row := ⟨rfl, rfl, .inl rfl⟩

theorem Copies.withLink (h : Copies answers row row') (p : LinkProjection) :
    Copies answers row (row'.withLink p) := ⟨h.action, h.attempts, h.outcome⟩

theorem outcomeValues_identity (row : Handoff) (read : ActionRead) (now : ℕ) :
    (outcomeValues row read now).externalActionId = row.externalActionId ∧
      (outcomeValues row read now).attemptCount = row.attemptCount := by
  unfold outcomeValues
  split <;> split_ifs <;> exact ⟨rfl, rfl⟩

theorem Copies.outcomeValues {a : Uuid} (haction : row.externalActionId = some a) (now : ℕ) :
    Copies answers row (outcomeValues row (readAction (answers a)) now) := by
  obtain ⟨hid, hattempts⟩ := outcomeValues_identity row (readAction (answers a)) now
  exact ⟨hid, hattempts, .inr ⟨a, now, haction, rfl⟩⟩

theorem Copies.relinkedBy (h : Copies answers row row') (id : Uuid) (answer : ReadAnswer RawLink) :
    Copies answers row (row'.relinkedBy id answer) := by
  unfold Handoff.relinkedBy
  split
  · exact h
  · split_ifs
    · exact h
    · exact h.withLink _
    · exact h

theorem Copies.settledBy (row : Handoff) (id : Uuid) (repair : RepairAnswers) (now : ℕ) :
    Copies repair.action row (row.settledBy id repair now) := by
  unfold Handoff.settledBy
  cases haction : row.externalActionId with
  | none => exact .refl row
  | some a =>
    dsimp only
    split_ifs
    · exact .refl row
    · exact (Copies.outcomeValues haction now).relinkedBy id _
    · exact .outcomeValues haction now

/-- A delivered link writes a link into one row at most. -/
theorem deliver_copies {e : LinkEvent} (h : (s.onLinkChanged e).handoffs.lookup k = some row') :
    ∃ row, s.handoffs.lookup k = some row ∧ Copies answers row row' := by
  unfold LinkState.onLinkChanged at h
  by_cases hother : e.type ≠ "current.source_item_link.changed" ∨ e.schemaVersion ≠ 1 ∨
      e.source ≠ "urn:rheo:module:current"
  · rw [if_pos hother] at h
    exact ⟨row', h, .refl row'⟩
  rw [if_neg hother] at h
  split at h
  · exact ⟨row', h, .refl row'⟩
  next link _ =>
  unfold LinkState.applyLink at h
  split at h
  · exact ⟨row', h, .refl row'⟩
  next id _ =>
  simp only [LinkState.applyTo, Table.lookup_updateIf] at h
  split_ifs at h with hk
  · obtain ⟨row, hrow, rfl⟩ := Option.map_eq_some_iff.mp h
    rw [hk]
    refine ⟨row, hrow, ?_⟩
    split_ifs
    · exact (Copies.refl row).withLink _
    · exact .refl row
  · exact ⟨row', h, .refl row'⟩

/-- A repair copies one outcome into a row at most, and links. -/
theorem reconcile_copies {repair : RepairAnswers} {size now : ℕ}
    (h : s.step (.reconcile repair size now) = some t) (hrow : t.handoffs.lookup k = some row') :
    ∃ row, s.handoffs.lookup k = some row ∧ Copies repair.action row row' := by
  obtain ⟨-, rfl⟩ := LinkState.step_reconcile h
  have hsettle := LinkState.settleScan_ok (s := s) repair size now
  have hrelink := LinkState.relinkScan_ok (s := (s.settleScan repair size now).1) repair size now
  have hmid (mid : Handoff) (hmid : (s.settleScan repair size now).1.handoffs.lookup k = some mid) :
      ∃ row, s.handoffs.lookup k = some row ∧ Copies repair.action row mid := by
    by_cases hpage : ∃ e ∈ s.pageOf .nonterminal Handoff.isNonterminal size now, e.1 = k
    · obtain ⟨⟨i, row⟩, hmem, rfl⟩ := hpage
      have hstored := (LinkState.mem_of_mem_pageOf hmem).1
      have houtcome := hsettle.examined i row hmem
      rw [hmid] at houtcome
      refine ⟨row, hstored, ?_⟩
      rw [Option.some.inj houtcome]
      exact Copies.settledBy row i repair now
    · rw [hsettle.others k fun e he heq => hpage ⟨e, he, heq⟩] at hmid
      exact ⟨mid, hmid, .refl mid⟩
  by_cases hpage : ∃ e ∈ (s.settleScan repair size now).1.pageOf .succeeded Handoff.isSucceeded
      size now, e.1 = k
  · obtain ⟨⟨i, mid⟩, hmem, rfl⟩ := hpage
    have hstored := (LinkState.mem_of_mem_pageOf hmem).1
    have houtcome := hrelink.examined i mid hmem
    rw [hrow] at houtcome
    obtain ⟨row, hold, hcopies⟩ := hmid mid hstored
    refine ⟨row, hold, ?_⟩
    rw [Option.some.inj houtcome]
    exact hcopies.relinkedBy i _
  · rw [hrelink.others k fun e he heq => hpage ⟨e, he, heq⟩] at hrow
    exact hmid row' hrow

/-- A refresh copies one outcome into its row. -/
theorem refresh_copies {answer : ReadAnswer ActionRecord}
    (hstored : s.handoffs.lookup id = some row)
    (hanswer : ∀ a, row.externalActionId = some a → answers a = answer)
    (hrow : (s.refresh id row answer now).handoffs.lookup k = some row') :
    ∃ old, s.handoffs.lookup k = some old ∧ Copies answers old row' := by
  unfold LinkState.refresh Handoff.latestRead at hrow
  cases haction : row.externalActionId with
  | none =>
    rw [haction] at hrow
    exact ⟨row', hrow, .refl row'⟩
  | some a =>
    rw [haction] at hrow
    simp only [Option.isNone_some, Bool.false_eq_true, if_false, LinkState.writeHandoff,
      Table.lookup_updateIf, hstored, Option.map_some, if_true] at hrow
    split_ifs at hrow with hk
    · rw [hk]
      refine ⟨row, hstored, ?_⟩
      rw [← Option.some.inj hrow, ← hanswer a haction]
      exact .outcomeValues haction now
    · exact ⟨row', hrow, .refl row'⟩

/-- What a new attempt was staged from, and what it leaves. -/
theorem handoffRestage_cases {attemptCount : ℕ} {answer : ReadAnswer ActionRecord}
    {staged : Option StagedAttempt} (h : s.handoffRestage id attemptCount answer staged now = .ok t)
    (hrow : s.handoffs.lookup id = some row) :
    (row.attemptCount = attemptCount + 1 ∧ t = s.refresh id row answer now) ∨
      ∃ attempt next, staged = some attempt ∧ row.attemptCount = attemptCount ∧
        mayRestage (row.copied (row.latestRead answer) now) (row.latestRead answer) = true ∧
          stage (row.copied (row.latestRead answer) now)
            ((row.copied (row.latestRead answer) now).attemptCount + 1) attempt = .ok next ∧
              t = s.writeHandoff id next := by
  unfold LinkState.handoffRestage at h
  rw [hrow] at h
  dsimp only at h
  by_cases hagain : row.attemptCount = attemptCount + 1
  · rw [if_pos hagain] at h
    exact .inl ⟨hagain, (Except.ok.inj h).symm⟩
  rw [if_neg hagain] at h
  by_cases hstale : row.attemptCount ≠ attemptCount
  · rw [if_pos hstale] at h
    cases h
  rw [if_neg hstale] at h
  by_cases hmay : mayRestage (row.copied (row.latestRead answer) now) (row.latestRead answer) = true
  · rw [hmay, if_neg (by decide)] at h
    cases staged with
    | none => cases h
    | some attempt =>
      dsimp only at h
      cases hstage : stage (row.copied (row.latestRead answer) now)
        ((row.copied (row.latestRead answer) now).attemptCount + 1) attempt with
      | error refusal =>
        rw [hstage] at h
        cases h
      | ok next =>
        rw [hstage] at h
        exact .inr ⟨attempt, next, rfl, not_not.mp hstale, hmay, hstage, (Except.ok.inj h).symm⟩
  · rw [Bool.not_eq_true] at hmay
    rw [hmay, if_pos (by decide)] at h
    cases h

/-- The values of a staged attempt that is pending. -/
theorem stage_pending {attempt : ℕ} {approvalId actionId : Uuid}
    (h : stage row attempt ⟨approvalId, actionId, .pending⟩ = .ok row') :
    row'.externalActionId = some actionId ∧ row'.attemptCount = attempt ∧
      restageAllowed row' = false := by
  have hpending : coreState .pending ≠ .succeeded := by decide
  unfold stage at h
  rw [if_neg hpending] at h
  obtain rfl := Except.ok.inj h
  refine ⟨rfl, rfl, ?_⟩
  rw [← Bool.not_eq_true]
  intro hallowed
  obtain hfailed | hunavailable | ⟨hrefused, -⟩ := restageAllowed_cases hallowed
  · cases hfailed
  · cases hunavailable
  · cases hrefused

end Rows

namespace HandoffWorld

variable {handoffText : Uuid → String} {w v : HandoffWorld} {row row' : Handoff}
  {action : HandoffAction} {a id : Uuid}

/-- What the three writers agree on. -/
structure Sound (handoffText : Uuid → String) (w : HandoffWorld) : Prop where
  leads : LinkState.machine.Reachable w.leads
  current : Current.currentMachine.Reachable w.current
  known : ∀ id row, w.leads.handoffs.lookup id = some row → id ∈ w.drawn
  /-- An attempt is of a handoff that was made, and asks for its source. -/
  attempted : ∀ a action, w.actions.lookup a = some action → action.handoff ∈ w.drawn ∧
    action.request.sourceRef = handoffText action.handoff ∧ 1 ≤ action.attempt
  /-- A key names one action. -/
  keys : ∀ a action b other, w.actions.lookup a = some action → w.actions.lookup b = some other →
    action.handoff = other.handoff → action.attempt = other.attempt → a = b
  /-- The action of a handoff is its last attempt, and the row allows no more than core does. -/
  latest : ∀ id row a, w.leads.handoffs.lookup id = some row → row.externalActionId = some a →
    ∃ action, w.actions.lookup a = some action ∧ action.handoff = id ∧
      action.attempt = row.attemptCount ∧
        (restageAllowed row = true → action.restageEligible = true)
  /-- The attempts before the last one had no effect. -/
  older : ∀ a action row, w.actions.lookup a = some action →
    w.leads.handoffs.lookup action.handoff = some row → action.attempt ≤ row.attemptCount ∧
      (action.attempt < row.attemptCount → action.restageEligible = true)
  /-- An item was made by an action that succeeded, and its source is linked. -/
  made : ∀ m ∈ w.made, (∃ action, w.actions.lookup m.action = some action ∧
    action.state = .succeeded) ∧ (w.current.links.lookup (handoffText m.handoff)).isSome = true
  once : (w.made.map MadeItem.handoff).Nodup

variable {now : ℕ} {readable : Bool}

/-- A read of the latest attempt allows a restage only where core marks it eligible. -/
theorem restageEligible_of_answer (haction : w.actions.lookup a = some action)
    (hreflects : restageAllowed row = true → action.restageEligible = true)
    (h : restageAllowed (outcomeValues row (readAction (w.answer readable a)) now) = true) :
    action.restageEligible = true := by
  unfold answer at h
  rw [haction] at h
  dsimp only at h
  split_ifs at h
  · exact hreflects (restageAllowed_of_unread h)
  · exact hreflects (restageAllowed_of_unread h)
  · exact restageEligible_of_copied rfl h

variable {leads : LinkState}

/-- Leads copies outcomes and links, and nothing else moves. -/
theorem Sound.copies (readable : Uuid → Bool) (hw : w.Sound handoffText)
    (hleads : LinkState.machine.Reachable leads)
    (hrows : ∀ k row', leads.handoffs.lookup k = some row' →
      ∃ row, w.leads.handoffs.lookup k = some row ∧
      Copies (fun id => w.answer (readable id) id) row row')
    : ({ w with leads := leads } : HandoffWorld).Sound handoffText := by
  constructor
  case leads => exact hleads
  case current => exact hw.current
  case known =>
    intro k row' hrow'
    obtain ⟨row, hrow, -⟩ := hrows k row' hrow'
    exact hw.known k row hrow
  case attempted => exact hw.attempted
  case keys => exact hw.keys
  case latest =>
    intro k row' a hrow' ha
    obtain ⟨row, hrow, hcopies⟩ := hrows k row' hrow'
    rw [hcopies.action] at ha
    obtain ⟨action, haction, hhandoff, hattempt, hreflects⟩ := hw.latest k row a hrow ha
    refine ⟨action, haction, hhandoff, hattempt.trans hcopies.attempts.symm, fun hallowed => ?_⟩
    obtain hsame | ⟨b, now, hb, hsame⟩ := hcopies.outcome
    · exact hreflects (by rw [← hsame, hallowed])
    · rw [ha] at hb
      obtain rfl := Option.some.inj hb
      exact restageEligible_of_answer haction hreflects (by rw [← hsame, hallowed])
  case older =>
    intro a action row' haction hrow'
    obtain ⟨row, hrow, hcopies⟩ := hrows _ row' hrow'
    rw [hcopies.attempts]
    exact hw.older a action row haction hrow
  case made => exact hw.made
  case once => exact hw.once

/-- An action goes on, and what Leads and Current have stays as it is. -/
theorem Sound.settle {settled : HandoffAction} (hw : w.Sound handoffText)
    (haction : w.actions.lookup a = some action) (hhandoff : settled.handoff = action.handoff)
    (hattempt : settled.attempt = action.attempt) (hrequest : settled.request = action.request)
    (heligible : action.restageEligible = true → settled.restageEligible = true)
    (hsucceeded : action.state = .succeeded → settled.state = .succeeded) :
    (w.settleAction a settled).Sound handoffText := by
  have hlookup (b : Uuid) : (w.settleAction a settled).actions.lookup b =
      if b = a then some settled else w.actions.lookup b := Table.lookup_insert ..
  -- Every action is one that was there, perhaps further on.
  have hback (b : Uuid) (other : HandoffAction)
      (hother : (w.settleAction a settled).actions.lookup b = some other) :
      ∃ old, w.actions.lookup b = some old ∧ other.handoff = old.handoff ∧
        other.attempt = old.attempt ∧ other.request = old.request ∧
          (old.restageEligible = true → other.restageEligible = true) := by
    rw [hlookup] at hother
    split_ifs at hother with hb
    · subst hb
      rw [← Option.some.inj hother]
      exact ⟨action, haction, hhandoff, hattempt, hrequest, heligible⟩
    · exact ⟨other, hother, rfl, rfl, rfl, fun h => h⟩
  constructor
  case leads => exact hw.leads
  case current => exact hw.current
  case known => exact hw.known
  case attempted =>
    intro b other hother
    obtain ⟨old, hold, hsame, hcount, hasks, -⟩ := hback b other hother
    rw [hsame, hcount, hasks]
    exact hw.attempted b old hold
  case keys =>
    intro b other c third hother hthird heq hsame
    obtain ⟨old, hold, hhandoff', hattempt', -⟩ := hback b other hother
    obtain ⟨old', hold', hhandoff'', hattempt'', -⟩ := hback c third hthird
    refine hw.keys b old c old' hold hold' ?_ ?_
    · rw [← hhandoff', ← hhandoff'', heq]
    · rw [← hattempt', ← hattempt'', hsame]
  case latest =>
    intro k row b hrow hb
    obtain ⟨old, hold, hhandoff', hattempt', hreflects⟩ := hw.latest k row b hrow hb
    rw [hlookup]
    split_ifs with heq
    · subst heq
      rw [haction] at hold
      obtain rfl := Option.some.inj hold
      exact ⟨settled, rfl, hhandoff.trans hhandoff', hattempt.trans hattempt',
        fun h => heligible (hreflects h)⟩
    · exact ⟨old, hold, hhandoff', hattempt', hreflects⟩
  case older =>
    intro b other row hother hrow
    obtain ⟨old, hold, hsame, hcount, -, hkept⟩ := hback b other hother
    rw [hsame] at hrow
    obtain ⟨hle, hlt⟩ := hw.older b old row hold hrow
    rw [hcount]
    exact ⟨hle, fun h => hkept (hlt h)⟩
  case made =>
    intro m hm
    obtain ⟨⟨old, hold, hstate⟩, hlinked⟩ := hw.made m hm
    refine ⟨?_, hlinked⟩
    rw [hlookup]
    split_ifs with heq
    · rw [heq, haction] at hold
      obtain rfl := Option.some.inj hold
      exact ⟨settled, rfl, hsucceeded hstate⟩
    · exact ⟨old, hold, hstate⟩
  case once => exact hw.once

variable {request : Current.ExternalItemCreate}

/-- A key that no action has is held, when the destination is available. -/
theorem stageExternal_fresh {attempt : ℕ} {available : Bool} {actionId approvalId : Uuid}
    (hnone : ∀ a action, w.actions.lookup a = some action → action.handoff = id →
      action.attempt ≠ attempt)
    :
    w.stageExternal id attempt available actionId approvalId request =
      if available then (some ⟨approvalId, actionId, .pending⟩,
        w.actions.insert actionId (.staged id attempt approvalId request))
      else (none, w.actions) := by
  unfold stageExternal
  split
  next a action hfound =>
    obtain ⟨haction, hkey⟩ := Table.findRow_eq_some hfound
    simp only [Bool.and_eq_true, decide_eq_true_eq] at hkey
    exact absurd hkey.2 (hnone a action haction hkey.1)
  · rfl

/-- A new attempt of a handoff is held under a fresh action. -/
theorem Sound.stageNew {next : Handoff} {attempt : ℕ} {actionId approvalId : Uuid}
    (hw : w.Sound handoffText) (hleads : LinkState.machine.Reachable leads)
    (hfresh : w.actions.lookup actionId = none)
    (hrows : ∀ k, leads.handoffs.lookup k = if k = id then some next else w.leads.handoffs.lookup k)
    (haction : next.externalActionId = some actionId) (hattempt : next.attemptCount = attempt)
    (hallowed : restageAllowed next = false) (hpositive : 1 ≤ attempt)
    (hprior : ∀ a action, w.actions.lookup a = some action → action.handoff = id →
      action.attempt < attempt ∧ action.restageEligible = true)
    :
    ({ w with
      leads := leads
      actions := w.actions.insert actionId
        (.staged id attempt approvalId (routed handoffText id request))
      drawn := insert id w.drawn } : HandoffWorld).Sound handoffText := by
  have hlookup (b : Uuid) : (w.actions.insert actionId
      (.staged id attempt approvalId (routed handoffText id request))).lookup b =
        if b = actionId then some (.staged id attempt approvalId (routed handoffText id request))
        else w.actions.lookup b := Table.lookup_insert ..
  have hkept (b : Uuid) (other : HandoffAction) (hother : w.actions.lookup b = some other) :
      (w.actions.insert actionId
        (.staged id attempt approvalId (routed handoffText id request))).lookup b =
          some other := by
    rw [hlookup, if_neg, hother]
    rintro rfl
    rw [hfresh] at hother
    cases hother
  constructor
  case leads => exact hleads
  case current => exact hw.current
  case known =>
    intro k row hrow
    rw [hrows] at hrow
    split_ifs at hrow with hk
    · exact hk ▸ Finset.mem_insert_self _ _
    · exact Finset.mem_insert_of_mem (hw.known k row hrow)
  case attempted =>
    intro b other hother
    rw [hlookup] at hother
    split_ifs at hother with hb
    · rw [← Option.some.inj hother]
      exact ⟨Finset.mem_insert_self _ _, rfl, hpositive⟩
    · obtain ⟨hdrawn, hrest⟩ := hw.attempted b other hother
      exact ⟨Finset.mem_insert_of_mem hdrawn, hrest⟩
  case keys =>
    intro b other c third hother hthird heq hsame
    rw [hlookup] at hother hthird
    split_ifs at hother hthird with hb hc hc
    · rw [hb, hc]
    · rw [← Option.some.inj hother] at heq hsame
      have hlt := (hprior c third hthird heq.symm).1
      have hcount : attempt = third.attempt := hsame
      omega
    · rw [← Option.some.inj hthird] at heq hsame
      have hlt := (hprior b other hother heq).1
      have hcount : other.attempt = attempt := hsame
      omega
    · exact hw.keys b other c third hother hthird heq hsame
  case latest =>
    intro k row b hrow hb
    rw [hrows] at hrow
    split_ifs at hrow with hk
    · rw [← Option.some.inj hrow] at hb ⊢
      rw [haction] at hb
      obtain rfl := Option.some.inj hb
      refine ⟨.staged id attempt approvalId (routed handoffText id request), ?_, hk.symm,
        hattempt.symm, fun h => ?_⟩
      · rw [hlookup, if_pos rfl]
      · rw [hallowed] at h
        cases h
    · obtain ⟨old, hold, hrest⟩ := hw.latest k row b hrow hb
      exact ⟨old, hkept b old hold, hrest⟩
  case older =>
    intro b other row hother hrow
    rw [hlookup] at hother
    rw [hrows] at hrow
    split_ifs at hother with hb
    · have hself : (HandoffAction.staged id attempt approvalId
          (routed handoffText id request)).handoff = id := rfl
      rw [← Option.some.inj hother] at hrow ⊢
      rw [if_pos hself] at hrow
      rw [← Option.some.inj hrow, hattempt]
      exact ⟨le_refl _, fun h => absurd h (lt_irrefl attempt)⟩
    · split_ifs at hrow with hk
      · obtain ⟨hlt, heligible⟩ := hprior b other hother hk
        rw [← Option.some.inj hrow, hattempt]
        exact ⟨hlt.le, fun _ => heligible⟩
      · exact hw.older b other row hother hrow
  case made =>
    intro m hm
    obtain ⟨⟨old, hold, hstate⟩, hlinked⟩ := hw.made m hm
    exact ⟨⟨old, hkept m.action old hold, hstate⟩, hlinked⟩
  case once => exact hw.once

/-- A handoff that stages nothing is a row without an action. -/
theorem Sound.unstaged {next : Handoff} (hw : w.Sound handoffText)
    (hleads : LinkState.machine.Reachable leads) (hid : id ∉ w.drawn)
    (hrows : ∀ k, leads.handoffs.lookup k = if k = id then some next else w.leads.handoffs.lookup k)
    (haction : next.externalActionId = none) :
    ({ w with leads := leads, drawn := insert id w.drawn } : HandoffWorld).Sound handoffText := by
  constructor
  case leads => exact hleads
  case current => exact hw.current
  case known =>
    intro k row hrow
    rw [hrows] at hrow
    split_ifs at hrow with hk
    · exact hk ▸ Finset.mem_insert_self _ _
    · exact Finset.mem_insert_of_mem (hw.known k row hrow)
  case attempted =>
    intro b other hother
    obtain ⟨hdrawn, hrest⟩ := hw.attempted b other hother
    exact ⟨Finset.mem_insert_of_mem hdrawn, hrest⟩
  case keys => exact hw.keys
  case latest =>
    intro k row b hrow hb
    rw [hrows] at hrow
    split_ifs at hrow with hk
    · rw [← Option.some.inj hrow, haction] at hb
      cases hb
    · exact hw.latest k row b hrow hb
  case older =>
    intro b other row hother hrow
    rw [hrows, if_neg] at hrow
    · exact hw.older b other row hother hrow
    · intro heq
      exact hid (heq ▸ (hw.attempted b other hother).1)
  case made => exact hw.made
  case once => exact hw.once

/-- Current moves, and no link goes. -/
theorem Sound.moveCurrent {current : Current.CurrentState} (hw : w.Sound handoffText)
    (hcurrent : Current.currentMachine.Reaches w.current current) :
    ({ w with current := current } : HandoffWorld).Sound handoffText := by
  constructor
  case leads => exact hw.leads
  case current => exact hw.current.reaches hcurrent
  case known => exact hw.known
  case attempted => exact hw.attempted
  case keys => exact hw.keys
  case latest => exact hw.latest
  case older => exact hw.older
  case made =>
    intro m hm
    obtain ⟨haction, hlinked⟩ := hw.made m hm
    obtain ⟨link, hlink⟩ := Option.isSome_iff_exists.mp hlinked
    obtain ⟨later, hlater, -⟩ :=
      (Current.current_law hw.current).lasting _ link current hlink hcurrent
    refine ⟨haction, ?_⟩
    dsimp only
    rw [hlater]
    rfl
  case once => exact hw.once

theorem not_eligible_of_isOpen (h : action.isOpen = true) :
    action.restageEligible = false ∧ action.state ≠ .succeeded := by
  simp only [HandoffAction.isOpen, Bool.and_eq_true, Bool.or_eq_true, decide_eq_true_eq] at h
  obtain ⟨-, hstate | hstate⟩ := h <;> simp [HandoffAction.restageEligible, hstate]

/-- An open action is settled in any way. -/
theorem Sound.settleOpen {settled : HandoffAction} (hw : w.Sound handoffText)
    (haction : w.actions.lookup a = some action) (hopen : action.isOpen = true)
    (hhandoff : settled.handoff = action.handoff) (hattempt : settled.attempt = action.attempt)
    (hrequest : settled.request = action.request) :
    (w.settleAction a settled).Sound handoffText := by
  obtain ⟨hineligible, hunfinished⟩ := not_eligible_of_isOpen hopen
  refine hw.settle haction hhandoff hattempt hrequest (fun h => ?_) fun h => absurd h hunfinished
  rw [hineligible] at h
  cases h

theorem classified_frame (action : HandoffAction) (failure : FailureClass) (code : String)
    (attempts maxAttempts now : ℕ) :
    (action.classified failure code attempts maxAttempts now).handoff = action.handoff ∧
      (action.classified failure code attempts maxAttempts now).attempt = action.attempt ∧
        (action.classified failure code attempts maxAttempts now).request = action.request := by
  unfold HandoffAction.classified
  split
  case h_5 => split_ifs <;> exact ⟨rfl, rfl, rfl⟩
  all_goals exact ⟨rfl, rfl, rfl⟩

/-- Current makes an item only for a source that has no link, and links it. -/
theorem createExternal_made {current next : Current.CurrentState} {ref : RecordRef} {item : Uuid}
    (h : current.createExternal request item now = .ok (next, ref))
    (hnew : current.items.lookup ref.id = none) :
    current.links.lookup request.sourceRef = none ∧
      (next.links.lookup request.sourceRef).isSome = true := by
  unfold Current.CurrentState.createExternal at h
  split at h
  next link hlink =>
    split_ifs at h with hgone
    obtain ⟨-, rfl⟩ := Prod.mk.inj (Except.ok.inj h)
    rw [Bool.or_eq_true, not_or] at hgone
    rw [hnew] at hgone
    exact absurd rfl hgone.2
  next hlink =>
    refine ⟨hlink, ?_⟩
    split at h
    next existing row hholder =>
      split at h
      · cases h
      next made hinsert =>
        obtain ⟨-, rfl⟩ := Prod.mk.inj (Except.ok.inj h)
        have hrow := (Current.CurrentState.itemOfSource_ok hholder).1
        have hnone : current.items.lookup existing = none := hnew
        rw [hnone] at hrow
        cases hrow
    · split at h
      · cases h
      split at h
      · cases h
      next made hinsert =>
        obtain ⟨rfl, -⟩ := Prod.mk.inj (Except.ok.inj h)
        have hview := (Current.CurrentState.insertLink_ok hinsert).1
        have hlinked : made.links.lookup request.sourceRef = _ :=
          congrArg (fun view => view.link request.sourceRef) hview
        change (made.links.lookup request.sourceRef).isSome = true
        rw [hlinked]
        simp [Current.View.addLink]

/-- A continuation that reaches Current makes an item only where none was made before. -/
theorem Sound.execute {attempts maxAttempts item now : ℕ} (hw : w.Sound handoffText)
    (haction : w.actions.lookup a = some action) (hopen : action.isOpen = true)
    (hitem : item ∉ w.current.drawn) :
    (w.execute a action attempts maxAttempts item now).Sound handoffText := by
  unfold HandoffWorld.execute
  split
  next code _ =>
    obtain ⟨hhandoff, hattempt, hrequest⟩ := classified_frame action .permanentRefusalNoEffect code
      attempts maxAttempts now
    exact hw.settleOpen haction hopen hhandoff hattempt hrequest
  next current ref hcreate =>
    have hstep : Current.currentMachine.Reaches w.current current := by
      refine Machine.Reaches.single (a := .createExternal action.request item now) ?_
      change Current.CurrentState.step _ _ = _
      rw [Current.CurrentState.step, if_pos (by simpa [Current.CurrentAction.draws] using hitem),
        Current.CurrentState.after, Current.CurrentState.call, hcreate]
      rfl
    have hmoved : (settleAction { w with current := current } a (action.succeed
        (toString ref.moduleId ++ ":" ++ ref.recordType ++ ":" ++ toString ref.id) now)).Sound
          handoffText :=
      (hw.moveCurrent hstep).settleOpen haction hopen rfl rfl rfl
    refine ⟨hmoved.leads, hmoved.current, hmoved.known, hmoved.attempted, hmoved.keys,
      hmoved.latest, hmoved.older, fun m hm => ?_, ?_⟩
    · dsimp only at hm
      split_ifs at hm with hnew
      · obtain hm | hm := List.mem_append.mp hm
        · exact hmoved.made m hm
        · rw [List.mem_singleton.mp hm]
          rw [Option.isNone_iff_eq_none] at hnew
          refine ⟨⟨_, AList.lookup_insert _, rfl⟩, ?_⟩
          rw [← (hw.attempted a action haction).2.1]
          exact (createExternal_made hcreate hnew).2
      · exact hmoved.made m hm
    · dsimp only
      split_ifs with hnew
      · rw [Option.isNone_iff_eq_none] at hnew
        have hfree := (createExternal_made hcreate hnew).1
        rw [(hw.attempted a action haction).2.1] at hfree
        rw [List.map_append, List.nodup_append]
        refine ⟨hw.once, List.nodup_singleton _, fun x hx y hy heq => ?_⟩
        obtain ⟨m, hm, rfl⟩ := List.mem_map.mp hx
        have hlinked := (hw.made m hm).2
        rw [heq, List.mem_singleton.mp hy] at hlinked
        dsimp only at hlinked
        rw [hfree] at hlinked
        cases hlinked
      · exact hw.once

theorem Sound.continuation {lease : ContinuationLease} (hw : w.Sound handoffText)
    (haction : w.actions.lookup a = some action) (hopen : action.isOpen = true)
    (hitem : lease.item.all (fun item => item ∉ w.current.drawn) = true) :
    (w.continueExternal a action now lease).Sound handoffText := by
  cases lease with
  | cancelRequested attempts registered =>
    simp only [continueExternal]
    split_ifs <;> exact hw.settleOpen haction hopen rfl rfl rfl
  | exhausted registered =>
    simp only [continueExternal]
    split_ifs <;> exact hw.settleOpen haction hopen rfl rfl rfl
  | run attempts maxAttempts registered refusal raised item =>
    have hdrawn : item ∉ w.current.drawn := by simpa [ContinuationLease.item] using hitem
    simp only [continueExternal]
    by_cases hlost : 1 < attempts ∧ registered = false
    · rw [if_pos hlost]
      exact hw.settleOpen haction hopen rfl rfl rfl
    rw [if_neg hlost]
    split
    · exact hw.settleOpen haction hopen rfl rfl rfl
    by_cases hgone : (!registered) = true
    · rw [if_pos hgone]
      exact hw.settleOpen haction hopen rfl rfl rfl
    rw [if_neg hgone]
    split
    next failure code =>
      obtain ⟨hhandoff, hattempt, hrequest⟩ := classified_frame action
        (if failure = .outcomeUnknown then .retryableNoEffect else failure) code attempts
        maxAttempts now
      exact hw.settleOpen haction hopen hhandoff hattempt hrequest
    next => exact hw.execute haction hopen hdrawn

/-- A handoff that is made again copies the outcome of its latest attempt. -/
theorem latestAnswer_of_action (ha : row.externalActionId = some a) :
    w.answer readable a = w.latestAnswer readable row := by
  rw [latestAnswer, ha]

theorem Sound.refresh (hw : w.Sound handoffText) (hrow : w.leads.handoffs.lookup id = some row)
    (hleads : LinkState.machine.Reachable
      (w.leads.refresh id row (w.latestAnswer readable row) now))
    :
    ({ w with leads := w.leads.refresh id row (w.latestAnswer readable row) now } :
      HandoffWorld).Sound handoffText :=
  hw.copies (fun _ => readable) hleads fun _ _ hlater =>
    refresh_copies hrow (fun _ ha => latestAnswer_of_action ha) hlater

/-- The last attempt of a handoff that may be staged again had no effect. -/
theorem eligible_of_mayRestage (hw : w.Sound handoffText)
    (hrow : w.leads.handoffs.lookup id = some row) (ha : row.externalActionId = some a)
    (haction : w.actions.lookup a = some action)
    (h : mayRestage (row.copied (row.latestRead (w.latestAnswer readable row)) now)
      (row.latestRead (w.latestAnswer readable row)) = true)
    : action.restageEligible = true := by
  obtain ⟨latest, hlatest, -, -, hreflects⟩ := hw.latest id row a hrow ha
  rw [haction] at hlatest
  obtain rfl := Option.some.inj hlatest
  have hread : row.latestRead (w.latestAnswer readable row) =
      some (readAction (w.answer readable a)) := by
    rw [Handoff.latestRead, ha, ← latestAnswer_of_action ha]
    rfl
  rw [hread] at h
  unfold mayRestage at h
  by_cases hdestination :
      (row.copied (some (readAction (w.answer readable a))) now).destinationRef ≠ some "current"
  · rw [if_pos hdestination] at h
    cases h
  rw [if_neg hdestination, Option.bind_some] at h
  split at h
  next record hrecord =>
    unfold answer at hrecord
    rw [haction] at hrecord
    dsimp only at hrecord
    split_ifs at hrecord
    · cases hrecord
    · cases hrecord
    · rw [← Option.some.inj hrecord] at h
      exact h
  next => exact restageEligible_of_answer haction hreflects h

end HandoffWorld

end Rheostream.Leads
