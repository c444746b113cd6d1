import Rheostream.Leads.HandoffActionsLaws

/-!
# A handoff makes one item

Whatever the order of requests, approvals, continuations, restages, link events and repairs, one
handoff has at most one item made for it, and an attempt is staged only after the one before it is
known to have had no effect.
-/

namespace Rheostream.Leads

namespace HandoffWorld

variable {handoffText : Uuid → String} {w v : HandoffWorld} {row row' : Handoff}
  {action : HandoffAction} {a id : Uuid}

theorem Sound.leadsStep {leads : LinkState} {act : LinkAction} (hw : w.Sound handoffText)
    (h : w.leads.step act = some leads) : LinkState.machine.Reachable leads :=
  Machine.Reachable.step (M := LinkState.machine) (a := act) hw.leads h

theorem copied_attempts (row : Handoff) (answer : ReadAnswer ActionRecord) (now : ℕ) :
    (row.copied (row.latestRead answer) now).attemptCount = row.attemptCount := by
  unfold Handoff.copied
  split
  · rfl
  · exact (outcomeValues_identity row _ now).2

theorem writeHandoff_lookup {s : LinkState} (hrow : s.handoffs.lookup id = some row) (k : Uuid) :
    (s.writeHandoff id row').handoffs.lookup k =
      if k = id then some row' else s.handoffs.lookup k := by
  simp [LinkState.writeHandoff, Table.lookup_updateIf, hrow]

/-- A request is answered by the handoff that is there, refreshed, or makes a new one. -/
theorem handoffStep_cases {m : HandoffRequest} {request : Current.ExternalItemCreate}
    {available readable : Bool} {actionId approvalId : Uuid} {now : ℕ}
    (hw : w.Sound handoffText) (hid : id ∉ w.drawn)
    (h : w.handoffStep handoffText id m request available readable actionId approvalId now =
      some v) :
    (∃ k row, w.leads.handoffs.lookup k = some row ∧
      LinkState.machine.Reachable (w.leads.refresh k row (w.latestAnswer readable row) now) ∧
        v = { w with leads := w.leads.refresh k row (w.latestAnswer readable row) now }) ∨
      ∃ leads next, LinkState.machine.Reachable leads ∧
        (∀ k, leads.handoffs.lookup k =
          if k = id then some next else w.leads.handoffs.lookup k) ∧
        ((next.externalActionId = none ∧
            v = { w with leads := leads, drawn := insert id w.drawn }) ∨
          (next.externalActionId = some actionId ∧ next.attemptCount = 1 ∧
            restageAllowed next = false ∧ v = { w with
              leads := leads
              actions := w.actions.insert actionId
                (.staged id 1 approvalId (routed handoffText id request))
              drawn := insert id w.drawn })) := by
  unfold handoffStep at h
  split at h
  next existing row hfound =>
    obtain ⟨leads, hstep, rfl⟩ := Option.map_eq_some_iff.mp h
    have hleads := hw.leadsStep hstep
    obtain ⟨-, hanswer⟩ := Option.ite_none_left_eq_some.mp hstep
    have haccepted := accepted_iff.mp hanswer
    unfold LinkState.handoff at haccepted
    simp only [hfound] at haccepted
    split_ifs at haccepted
    obtain rfl := Except.ok.inj haccepted
    exact .inl ⟨existing, row, (Table.findRow_eq_some hfound).1, hleads, rfl⟩
  next hnone =>
    obtain ⟨leads, hstep, rfl⟩ := Option.map_eq_some_iff.mp h
    have hleads := hw.leadsStep hstep
    obtain ⟨-, hanswer⟩ := Option.ite_none_left_eq_some.mp hstep
    have haccepted := accepted_iff.mp hanswer
    have hfresh : w.stageExternal id 1 available actionId approvalId
        (routed handoffText id request) = _ :=
      stageExternal_fresh fun b other hother hsame =>
        absurd (hsame ▸ (hw.attempted b other hother).1) hid
    unfold LinkState.handoff at haccepted
    simp only [hnone] at haccepted
    split at haccepted
    · cases haccepted
    next next hfirst =>
    obtain rfl := Except.ok.inj haccepted
    refine .inr ⟨_, next, hleads, fun k => Table.lookup_insert .., ?_⟩
    unfold LinkState.firstAttempt at hfirst
    by_cases hcurrent : m.destinationRef = some "current"
    · rw [if_pos hcurrent, hfresh] at hfirst ⊢
      cases available with
      | true =>
        simp only [if_true, if_pos hcurrent] at hfirst ⊢
        obtain ⟨haction, hattempts, hallowed⟩ := stage_pending hfirst
        exact .inr ⟨haction, hattempts, hallowed, trivial⟩
      | false =>
        simp only [Bool.false_eq_true, if_false] at hfirst ⊢
        refine .inl ⟨?_, trivial⟩
        rw [← Except.ok.inj hfirst]
        rfl
    · rw [if_neg hcurrent] at hfirst ⊢
      refine .inl ⟨?_, rfl⟩
      rw [← Except.ok.inj hfirst]
      rfl

/-- A restage is answered by the handoff as it is, or stages the attempt after its last one. -/
theorem restageStep_cases {attemptCount : ℕ} {request : Current.ExternalItemCreate}
    {available readable : Bool} {actionId approvalId : Uuid} {now : ℕ} (hw : w.Sound handoffText)
    (h : w.restageStep handoffText id attemptCount request available readable actionId approvalId
      now = some v) :
    ∃ row, w.leads.handoffs.lookup id = some row ∧
      ((LinkState.machine.Reachable (w.leads.refresh id row (w.latestAnswer readable row) now) ∧
        v = { w with leads := w.leads.refresh id row (w.latestAnswer readable row) now }) ∨
        ∃ next, LinkState.machine.Reachable (w.leads.writeHandoff id next) ∧
          (∀ b, row.externalActionId = some b → ∀ last, w.actions.lookup b = some last →
            last.restageEligible = true) ∧
          next.externalActionId = some actionId ∧ next.attemptCount = row.attemptCount + 1 ∧
            restageAllowed next = false ∧ v = { w with
              leads := w.leads.writeHandoff id next
              actions := w.actions.insert actionId
                (.staged id (row.attemptCount + 1) approvalId (routed handoffText id request))
              drawn := insert id w.drawn }) := by
  unfold restageStep at h
  split at h
  · cases h
  next row hrow =>
  refine ⟨row, hrow, ?_⟩
  by_cases hagain : row.attemptCount = attemptCount + 1
  · rw [if_pos hagain] at h
    obtain ⟨leads, hstep, rfl⟩ := Option.map_eq_some_iff.mp h
    have hleads := hw.leadsStep hstep
    obtain ⟨-, rfl⟩ | ⟨_, _, hnone, -⟩ := handoffRestage_cases (accepted_iff.mp hstep) hrow
    · exact .inl ⟨hleads, rfl⟩
    · cases hnone
  · rw [if_neg hagain] at h
    obtain ⟨leads, hstep, rfl⟩ := Option.map_eq_some_iff.mp h
    have hleads := hw.leadsStep hstep
    have hfresh : w.stageExternal id (row.attemptCount + 1) available actionId approvalId
        (routed handoffText id request) = _ :=
      stageExternal_fresh fun b other hother hsame heq => by
        have hle := (hw.older b other row hother (by rw [hsame, hrow])).1
        omega
    obtain ⟨hnever, -⟩ | ⟨attempt, next, hstaged, -, hmay, hstage, rfl⟩ :=
      handoffRestage_cases (accepted_iff.mp hstep) hrow
    · exact absurd hnever hagain
    · refine .inr ⟨next, hleads,
        fun b hb last hlast => eligible_of_mayRestage hw hrow hb hlast hmay, ?_⟩
      rw [hfresh] at hstaged ⊢
      cases available with
      | false => cases hstaged
      | true =>
        simp only [if_true] at hstaged ⊢
        rw [← Option.some.inj hstaged, copied_attempts] at hstage
        obtain ⟨haction, hattempts, hallowed⟩ := stage_pending hstage
        refine ⟨haction, hattempts, hallowed, ?_⟩
        rw [Finset.insert_eq_of_mem (hw.known id row hrow)]

/-- Every transaction keeps what the three writers agree on. -/
theorem step_sound {act : HandoffStep} (hw : w.Sound handoffText)
    (h : w.step handoffText act = some v) : v.Sound handoffText := by
  cases act with
  | handoff id m request available readable actionId approvalId now =>
    obtain ⟨hfresh, hstep⟩ := Option.ite_none_left_eq_some.mp h
    obtain ⟨hid, hactionId⟩ := not_or.mp hfresh
    have hunused : w.actions.lookup actionId = none := by simpa using hactionId
    obtain ⟨k, row, hrow, hleads, rfl⟩ | ⟨leads, next, hleads, hrows,
      ⟨hnone, rfl⟩ | ⟨haction, hattempts, hallowed, rfl⟩⟩ := handoffStep_cases hw hid hstep
    · exact hw.refresh hrow hleads
    · exact hw.unstaged hleads hid hrows hnone
    · exact hw.stageNew hleads hunused hrows haction hattempts hallowed le_rfl
        fun b other hother hsame => absurd (hsame ▸ (hw.attempted b other hother).1) hid
  | restage id attemptCount request available readable actionId approvalId now =>
    obtain ⟨hactionId, hstep⟩ := Option.ite_none_left_eq_some.mp h
    have hunused : w.actions.lookup actionId = none := by simpa using hactionId
    obtain ⟨row, hrow, ⟨hleads, rfl⟩ | ⟨next, hleads, hlast, haction, hattempts, hallowed, rfl⟩⟩ :=
      restageStep_cases hw hstep
    · exact hw.refresh hrow hleads
    · refine hw.stageNew hleads hunused (writeHandoff_lookup hrow) haction hattempts hallowed
        (by omega) fun b other hother hsame => ?_
      obtain ⟨hle, hlt⟩ := hw.older b other row hother (by rw [hsame, hrow])
      refine ⟨by omega, ?_⟩
      obtain hbefore | hlatest := Nat.lt_or_eq_of_le hle
      · exact hlt hbefore
      · -- The last attempt is the action that the row names.
        have hpositive := (hw.attempted b other hother).2.2
        have hstaged : row.externalActionId ≠ none := fun hnone => by
          have hzero := ((LinkState.agrees_of_reachable hw.leads).checked id row hrow).attempts.mpr
            hnone
          omega
        obtain ⟨c, hc⟩ := Option.ne_none_iff_exists'.mp hstaged
        obtain ⟨third, hthird, hhandoff, hcount, -⟩ := hw.latest id row c hrow hc
        obtain rfl := hw.keys b other c third hother hthird (hsame.trans hhandoff.symm)
          (hlatest.trans hcount.symm)
        exact hlast b hc other hother
  | erase affected =>
    simp only [step, Option.map_eq_some_iff] at h
    obtain ⟨leads, hstep, rfl⟩ := h
    refine hw.copies (fun _ => false) (hw.leadsStep hstep) fun k row' hrow' => ?_
    obtain rfl := Option.some.inj hstep
    exact ⟨row', (Table.lookup_deleteWhere_eq_some.mp hrow').1, .refl row'⟩
  | deliver e =>
    simp only [step, Option.map_eq_some_iff] at h
    obtain ⟨leads, hstep, rfl⟩ := h
    refine hw.copies (fun _ => false) (hw.leadsStep hstep) fun k row' hrow' => ?_
    obtain rfl := Option.some.inj hstep
    exact deliver_copies hrow'
  | reconcile readable settledLink link size now =>
    obtain ⟨leads, hstep, rfl⟩ := Option.map_eq_some_iff.mp h
    exact hw.copies readable (hw.leadsStep hstep) fun k row' hrow' => reconcile_copies hstep hrow'
  | approve actionId refusal now =>
    simp only [step] at h
    split at h
    · cases h
    next action haction =>
    obtain ⟨hchecks, hstep⟩ := Option.ite_none_left_eq_some.mp h
    have hopen : action.isOpen = true := by
      simp only [Bool.or_eq_true, decide_eq_true_eq, not_or, not_not] at hchecks
      simp [HandoffAction.isOpen, hchecks.1.1, hchecks.2]
    split at hstep
    all_goals
      rw [← Option.some.inj hstep]
      exact hw.settleOpen haction hopen rfl rfl rfl
  | refuse actionId now =>
    simp only [step] at h
    split at h
    · cases h
    next action haction =>
    obtain ⟨hchecks, hstep⟩ := Option.ite_none_left_eq_some.mp h
    have hopen : action.isOpen = true := by
      simp only [Bool.or_eq_true, decide_eq_true_eq, not_or, not_not] at hchecks
      simp [HandoffAction.isOpen, hchecks.1.1, hchecks.2]
    rw [← Option.some.inj hstep]
    exact hw.settleOpen haction hopen rfl rfl rfl
  | continuation actionId lease now =>
    simp only [step] at h
    split at h
    · cases h
    next action haction =>
    obtain ⟨hchecks, hstep⟩ := Option.ite_none_right_eq_some.mp h
    rw [Bool.and_eq_true, Bool.and_eq_true] at hchecks
    rw [← Option.some.inj hstep]
    exact hw.continuation haction hchecks.1.1 hchecks.2
  | resolve actionId now =>
    simp only [step] at h
    split at h
    · cases h
    next action haction =>
    obtain ⟨hchecks, hstep⟩ := Option.ite_none_left_eq_some.mp h
    simp only [Bool.or_eq_true, decide_eq_true_eq, not_or, not_not] at hchecks
    rw [← Option.some.inj hstep]
    refine hw.settle haction rfl rfl rfl (fun heligible => ?_) fun hsucceeded => ?_
    · simp [HandoffAction.restageEligible, hchecks.2] at heligible
    · rw [hchecks.2] at hsucceeded
      cases hsucceeded
  | eraseAction actionId =>
    simp only [step] at h
    split at h
    · cases h
    next action haction =>
    rw [← Option.some.inj h]
    exact hw.settle haction rfl rfl rfl (fun h => h) fun h => h
  | current act =>
    obtain ⟨current, hstep, rfl⟩ := Option.map_eq_some_iff.mp h
    exact hw.moveCurrent (.single hstep)

theorem Begins.sound (h : w.Begins) : w.Sound handoffText := by
  have hnoRow (id : Uuid) : w.leads.handoffs.lookup id = none := by
    rw [h.handoffs]
    rfl
  have hnoAction (a : Uuid) : w.actions.lookup a = none := by
    rw [h.actions]
    rfl
  constructor
  case leads => exact ⟨w.leads, h.leads, .refl _⟩
  case current => exact ⟨w.current, h.current, .refl _⟩
  case known =>
    intro id row hrow
    rw [hnoRow] at hrow
    cases hrow
  case attempted =>
    intro a action haction
    rw [hnoAction] at haction
    cases haction
  case keys =>
    intro a action b other haction
    rw [hnoAction] at haction
    cases haction
  case latest =>
    intro id row a hrow
    rw [hnoRow] at hrow
    cases hrow
  case older =>
    intro a action row haction
    rw [hnoAction] at haction
    cases haction
  case made =>
    intro m hm
    rw [h.made] at hm
    cases hm
  case once =>
    rw [h.made]
    exact List.nodup_nil

theorem sound_of_reachable (hw : (machine handoffText).Reachable w) : w.Sound handoffText :=
  hw.invariant (fun _ => Begins.sound) fun _ _ _ _ => step_sound

/-- A continuation leaves the handoffs alone. -/
theorem continueExternal_frame (w : HandoffWorld) (a : Uuid) (action : HandoffAction) (now : ℕ)
    (lease : ContinuationLease) : (w.continueExternal a action now lease).leads = w.leads ∧
      (w.continueExternal a action now lease).drawn = w.drawn := by
  have hexecute (attempts maxAttempts item : ℕ) :
      (w.execute a action attempts maxAttempts item now).leads = w.leads ∧
        (w.execute a action attempts maxAttempts item now).drawn = w.drawn := by
    unfold execute
    split <;> exact ⟨rfl, rfl⟩
  cases lease with
  | cancelRequested attempts registered =>
    simp only [continueExternal]
    split_ifs <;> exact ⟨rfl, rfl⟩
  | exhausted registered =>
    simp only [continueExternal]
    split_ifs <;> exact ⟨rfl, rfl⟩
  | run attempts maxAttempts registered refusal raised item =>
    simp only [continueExternal]
    by_cases hlost : 1 < attempts ∧ registered = false
    · rw [if_pos hlost]
      exact ⟨rfl, rfl⟩
    rw [if_neg hlost]
    split
    · exact ⟨rfl, rfl⟩
    by_cases hgone : (!registered) = true
    · rw [if_pos hgone]
      exact ⟨rfl, rfl⟩
    rw [if_neg hgone]
    split
    · exact ⟨rfl, rfl⟩
    · exact hexecute attempts maxAttempts item

/-- A handoff after a step: it was there before, with as many attempts, or with one less and the
last of them without an effect. -/
def Progress (w : HandoffWorld) (id : Uuid) (row' : Handoff) : Prop :=
  ∃ row, w.leads.handoffs.lookup id = some row ∧
    (row'.attemptCount = row.attemptCount ∨ row'.attemptCount = row.attemptCount + 1 ∧
      ∀ a, row.externalActionId = some a → ∀ last, w.actions.lookup a = some last →
        last.restageEligible = true)

/-- A row that only copied outcomes and links has the attempts that it had. -/
theorem Progress.of_copies {leads : LinkState} (answers : Uuid → ReadAnswer ActionRecord)
    (hrows : ∀ k row', leads.handoffs.lookup k = some row' → ∃ row,
      w.leads.handoffs.lookup k = some row ∧ Copies answers row row')
    (hrow' : leads.handoffs.lookup id = some row') : Progress w id row' := by
  obtain ⟨row, hrow, hcopies⟩ := hrows id row' hrow'
  exact ⟨row, hrow, .inl hcopies.attempts⟩

theorem Progress.of_same (hrow' : w.leads.handoffs.lookup id = some row') : Progress w id row' :=
  ⟨row', hrow', .inl rfl⟩

theorem Progress.of_refresh {k : Uuid} {found : Handoff} {readable : Bool} {now : ℕ}
    (hfound : w.leads.handoffs.lookup k = some found)
    (hlater : (w.leads.refresh k found (w.latestAnswer readable found) now).handoffs.lookup id =
      some row') : Progress w id row' := by
  have hrows (j : Uuid) (next : Handoff)
      (hnext : (w.leads.refresh k found (w.latestAnswer readable found) now).handoffs.lookup j =
        some next) : ∃ old, w.leads.handoffs.lookup j = some old ∧
          Copies (w.answer readable) old next :=
    refresh_copies hfound (fun _ ha => latestAnswer_of_action ha) hnext
  exact .of_copies _ hrows hlater

/-- A step leaves the attempts of a handoff, or stages one more after an attempt that had no
effect. No identifier is forgotten. -/
theorem progress_of_step {act : HandoffStep} (hw : w.Sound handoffText)
    (h : w.step handoffText act = some v) (hid : id ∈ w.drawn) : id ∈ v.drawn ∧
      ∀ row', v.leads.handoffs.lookup id = some row' → Progress w id row' := by
  cases act with
  | handoff k m request available readable actionId approvalId now =>
    obtain ⟨hfresh, hstep⟩ := Option.ite_none_left_eq_some.mp h
    obtain ⟨hk, -⟩ := not_or.mp hfresh
    have hne : id ≠ k := by
      rintro rfl
      exact hk hid
    obtain ⟨j, found, hfound, -, rfl⟩ | ⟨leads, next, -, hrows, ⟨-, rfl⟩ | ⟨-, -, -, rfl⟩⟩ :=
      handoffStep_cases hw hk hstep
    · exact ⟨hid, fun row' hrow' => .of_refresh hfound hrow'⟩
    all_goals
      refine ⟨Finset.mem_insert_of_mem hid, fun row' hrow' => .of_same ?_⟩
      have hother : leads.handoffs.lookup id = some row' := hrow'
      rw [hrows, if_neg hne] at hother
      exact hother
  | restage k attemptCount request available readable actionId approvalId now =>
    obtain ⟨-, hstep⟩ := Option.ite_none_left_eq_some.mp h
    obtain ⟨found, hfound, ⟨-, rfl⟩ | ⟨next, -, hlast, -, hattempts, -, rfl⟩⟩ :=
      restageStep_cases hw hstep
    · exact ⟨hid, fun row' hrow' => .of_refresh hfound hrow'⟩
    · refine ⟨Finset.mem_insert_of_mem hid, fun row' hrow' => ?_⟩
      have hother : (w.leads.writeHandoff k next).handoffs.lookup id = some row' := hrow'
      rw [writeHandoff_lookup hfound] at hother
      split_ifs at hother with hk
      · subst hk
        rw [← Option.some.inj hother]
        exact ⟨found, hfound, .inr ⟨hattempts, hlast⟩⟩
      · exact .of_same hother
  | erase affected =>
    simp only [step, Option.map_eq_some_iff] at h
    obtain ⟨leads, hstep, rfl⟩ := h
    obtain rfl := Option.some.inj hstep
    exact ⟨hid, fun row' hrow' => .of_same (Table.lookup_deleteWhere_eq_some.mp hrow').1⟩
  | deliver e =>
    simp only [step, Option.map_eq_some_iff] at h
    obtain ⟨leads, hstep, rfl⟩ := h
    obtain rfl := Option.some.inj hstep
    exact ⟨hid, fun row' hrow' => .of_copies (w.answer false)
      (fun _ _ hnext => deliver_copies hnext) hrow'⟩
  | reconcile readable settledLink link size now =>
    obtain ⟨leads, hstep, rfl⟩ := Option.map_eq_some_iff.mp h
    exact ⟨hid, fun row' hrow' =>
      .of_copies _ (fun _ _ hnext => reconcile_copies hstep hnext) hrow'⟩
  | approve actionId refusal now =>
    simp only [step] at h
    split at h
    · cases h
    obtain ⟨-, hstep⟩ := Option.ite_none_left_eq_some.mp h
    split at hstep
    all_goals
      rw [← Option.some.inj hstep]
      exact ⟨hid, fun row' hrow' => .of_same hrow'⟩
  | refuse actionId now =>
    simp only [step] at h
    split at h
    · cases h
    obtain ⟨-, hstep⟩ := Option.ite_none_left_eq_some.mp h
    rw [← Option.some.inj hstep]
    exact ⟨hid, fun row' hrow' => .of_same hrow'⟩
  | continuation actionId lease now =>
    simp only [step] at h
    split at h
    · cases h
    next action haction =>
    obtain ⟨-, hstep⟩ := Option.ite_none_right_eq_some.mp h
    obtain ⟨hleads, hdrawn⟩ := continueExternal_frame w actionId action now lease
    rw [← Option.some.inj hstep, hleads, hdrawn]
    exact ⟨hid, fun row' hrow' => .of_same hrow'⟩
  | resolve actionId now =>
    simp only [step] at h
    split at h
    · cases h
    obtain ⟨-, hstep⟩ := Option.ite_none_left_eq_some.mp h
    rw [← Option.some.inj hstep]
    exact ⟨hid, fun row' hrow' => .of_same hrow'⟩
  | eraseAction actionId =>
    simp only [step] at h
    split at h
    · cases h
    rw [← Option.some.inj h]
    exact ⟨hid, fun row' hrow' => .of_same hrow'⟩
  | current act =>
    obtain ⟨current, hstep, rfl⟩ := Option.map_eq_some_iff.mp h
    exact ⟨hid, fun row' hrow' => .of_same hrow'⟩

end HandoffWorld

/-- What holds of the handoffs, their attempts and their items in every run. -/
structure OneItemLaw (handoffText : Uuid → String) (w : HandoffWorld) : Prop where
  /-- At most one item was ever made for a handoff. -/
  oneItem : (w.made.map MadeItem.handoff).Nodup
  /-- An item was made by an action that succeeded. -/
  effect : ∀ m ∈ w.made, ∃ action, w.actions.lookup m.action = some action ∧
    action.state = .succeeded
  /-- A new attempt is staged as the next one, when no attempt was staged or the last one failed
  or found its destination unavailable, and made no item. -/
  restaged : ∀ act v id row row', w.step handoffText act = some v →
    w.leads.handoffs.lookup id = some row → v.leads.handoffs.lookup id = some row' →
      row'.attemptCount ≠ row.attemptCount → row'.attemptCount = row.attemptCount + 1 ∧
        (row.externalActionId = none ∧ row.attemptCount = 0 ∨
          ∃ a last, row.externalActionId = some a ∧ w.actions.lookup a = some last ∧
            last.handoff = id ∧ last.attempt = row.attemptCount ∧
              (last.state = .failed ∨ last.state = .refused ∧
                last.failureClass = some .destinationUnavailableNoEffect) ∧
                  ∀ m ∈ w.made, m.action ≠ a)
  /-- The attempts before the last one had no effect either. -/
  older : ∀ a action row, w.actions.lookup a = some action →
    w.leads.handoffs.lookup action.handoff = some row → action.attempt < row.attemptCount →
      action.state ≠ .succeeded ∧ ∀ m ∈ w.made, m.action ≠ a
  /-- The number of attempts never goes down. -/
  monotone : ∀ v id row row', (HandoffWorld.machine handoffText).Reaches w v →
    w.leads.handoffs.lookup id = some row → v.leads.handoffs.lookup id = some row' →
      row.attemptCount ≤ row'.attemptCount
  /-- What Leads copies of an action allows a restage only where core marks it eligible. -/
  matrix : ∀ (action : HandoffAction) (row : Handoff) (now : ℕ),
    restageAllowed (outcomeValues row ⟨some action.published, false⟩ now) = true →
      action.published.restageEligible = true

namespace HandoffWorld

variable {handoffText : Uuid → String} {w : HandoffWorld} {action : HandoffAction} {a : Uuid}

theorem restageEligible_cases (h : action.restageEligible = true) :
    action.state = .failed ∨
      action.state = .refused ∧ action.failureClass = some .destinationUnavailableNoEffect := by
  simpa [HandoffAction.restageEligible] using h

/-- An action that may be staged again made no item. -/
theorem Sound.not_made (hw : w.Sound handoffText) (haction : w.actions.lookup a = some action)
    (h : action.restageEligible = true) :
    action.state ≠ .succeeded ∧ ∀ m ∈ w.made, m.action ≠ a := by
  have hstate : action.state ≠ .succeeded := by
    obtain hfailed | ⟨hrefused, -⟩ := restageEligible_cases h
    · rw [hfailed]
      decide
    · rw [hrefused]
      decide
  refine ⟨hstate, ?_⟩
  rintro m hm rfl
  obtain ⟨⟨found, hfound, hsucceeded⟩, -⟩ := hw.made m hm
  rw [haction] at hfound
  rw [Option.some.inj hfound] at hstate
  exact hstate hsucceeded

end HandoffWorld

open HandoffWorld in
/-- In every order of the transactions of Leads, core and Current, a handoff makes one item at
most, and is staged again only after an attempt without an effect. -/
theorem one_item_law {handoffText : Uuid → String} {w : HandoffWorld}
    (hw : (machine handoffText).Reachable w) : OneItemLaw handoffText w := by
  have hsound := sound_of_reachable hw
  constructor
  case oneItem => exact hsound.once
  case effect => exact fun m hm => (hsound.made m hm).1
  case restaged =>
    intro act v id row row' hstep hrow hrow' hne
    obtain ⟨old, hold, hsame | ⟨hnext, hlast⟩⟩ :=
      (progress_of_step hsound hstep (hsound.known id row hrow)).2 row' hrow'
    · rw [hrow] at hold
      rw [Option.some.inj hold] at hne
      exact absurd hsame hne
    · rw [hrow] at hold
      obtain rfl := Option.some.inj hold
      refine ⟨hnext, ?_⟩
      cases haction : row.externalActionId with
      | none =>
        have hchecked := (LinkState.agrees_of_reachable hsound.leads).checked id row hrow
        exact .inl ⟨rfl, hchecked.attempts.mpr haction⟩
      | some a =>
        obtain ⟨last, hstored, hhandoff, hattempt, -⟩ := hsound.latest id row a hrow haction
        have heligible := hlast a haction last hstored
        exact .inr ⟨a, last, rfl, hstored, hhandoff, hattempt, restageEligible_cases heligible,
          (hsound.not_made hstored heligible).2⟩
  case older =>
    intro a action row haction hrow hlt
    exact hsound.not_made haction ((hsound.older a action row haction hrow).2 hlt)
  case monotone =>
    intro v id row row' hrun hrow hrow'
    have hstable : id ∈ v.drawn ∧ ∀ later, v.leads.handoffs.lookup id = some later →
        row.attemptCount ≤ later.attemptCount := by
      refine hw.stable (P := fun u => id ∈ u.drawn ∧ ∀ later,
        u.leads.handoffs.lookup id = some later → row.attemptCount ≤ later.attemptCount)
        (fun u act u' hu hP hstep => ?_) ⟨hsound.known id row hrow, fun later hlater => ?_⟩ hrun
      · obtain ⟨hdrawn, hprogress⟩ := progress_of_step (sound_of_reachable hu) hstep hP.1
        refine ⟨hdrawn, fun later hlater => ?_⟩
        obtain ⟨old, hold, hcount⟩ := hprogress later hlater
        have hle := hP.2 old hold
        omega
      · rw [hrow] at hlater
        rw [Option.some.inj hlater]
    exact hstable.2 row' hrow'
  case matrix =>
    intro action row now h
    exact restageEligible_of_copied rfl h

section Sample

private def siteRequest : Current.ExternalItemCreate := ⟨"", "Site", "", .normal, none, none⟩

/-- The destination of the first attempt is gone when it runs, the second attempt makes the item,
and a repair copies its outcome. -/
private def restagedRun : List HandoffStep :=
  [.handoff 1 ⟨10, some "current", "key", "digest"⟩ siteRequest true true 100 101 5,
    .approve 100 none 6, .continuation 100 (.run 1 3 false none none 7) 8,
    .restage 1 1 siteRequest true true 200 201 9, .approve 200 none 10,
    .continuation 200 (.run 1 3 true none none 7) 11,
    .reconcile (fun _ => true) (fun _ => .refused "not_found") (fun _ => .refused "not_found") 5 12]

private def textOf (id : Uuid) : String := "leads:handoff:" ++ toString id

private def emptyWorld : HandoffWorld :=
  ⟨⟨∅, ∅, fun _ => [], fun _ => [], ∅⟩, ∅, ⟨∅, ∅, ∅, ∅, ∅, ∅, ∅, [], ∅⟩, ∅, []⟩

private theorem begins_emptyWorld : emptyWorld.Begins where
  leads := ⟨fun _ _ hrow => (by cases hrow), rfl, fun _ => rfl, fun _ => rfl,
    fun _ _ hrow => (by cases hrow)⟩
  handoffs := rfl
  actions := rfl
  current := by constructor <;> rfl
  drawn := rfl
  made := rfl

private def worldView (w : HandoffWorld) : List MadeItem × Option (HandoffState × ℕ) :=
  (w.made, (w.leads.handoffs.lookup 1).map fun row => (row.state, row.attemptCount))

/-- A handoff whose first attempt found its destination gone, and whose second one made its
item. -/
theorem one_item_law_restaged : ∃ w, (HandoffWorld.machine textOf).Reachable w ∧
    worldView w = ([⟨1, 200, Current.ref "item" 7⟩], some (.succeeded, 2)) ∧
      OneItemLaw textOf w := by
  have hrun : ((HandoffWorld.machine textOf).run emptyWorld restagedRun).map worldView =
      some ([⟨1, 200, Current.ref "item" 7⟩], some (.succeeded, 2)) := by decide +kernel
  obtain ⟨w, hw, hview⟩ := Option.map_eq_some_iff.mp hrun
  have hreach := Machine.reachable_of_run (M := HandoffWorld.machine textOf) begins_emptyWorld hw
  exact ⟨w, hreach, hview, one_item_law hreach⟩

end Sample

end Rheostream.Leads
