import Rheostream.Leads.IntakeLaws

/-!
# What a processing attempt writes

An attempt that returns found its receipt done, refused it, or made its observation and
routed it. Whatever the routing rules decide, the observation stays made and opportunities
rest on observations that are there.
-/

namespace Rheostream.Leads

namespace IntakeState

variable {lib : IntakeLibrary} {parse : Parsers} {s t : IntakeState} {id : Uuid}
  {receipt : DeliveryReceipt}

section Routing

variable {u v : IntakeState} {row : ObservationRow} {answers : ProcessAnswers}

/-- Routing may go on from an observation that was made. -/
theorem Observes.keeps {p : PipelineState} (h : Observes s u id row)
    (hkeeps : PipelineState.Keeps u.pipeline p) : Observes s { u with pipeline := p } id row where
  kept := by
    rw [h.kept]
  sound := hkeeps.sound
  evidenced := hkeeps.evidenced
  observations o := (hkeeps.observations o).trans (h.observations o)

theorem Observes.observed (h : Observes s u id row) (hs : s.Sound)
    (links : Table (Uuid × Uuid) String) (k : Uuid) :
    u.pipeline.Observed (u.linkedFacts links k) := by
  refine observed_linkedFacts (fun o ho => ?_) links k
  rw [h.kept] at ho
  dsimp only at ho
  rw [Table.lookup_insert] at ho
  rw [h.observations, ← hs.evidence]
  split_ifs at ho with hsame
  · exact .inl hsame
  · exact .inr ho

/-- The decision of a link is no part of the invariant. -/
theorem recordRoute_keeps (k obsId ruleId : Uuid) (hsound : u.pipeline.Sound)
    (hevidenced : u.pipeline.Evidenced) :
    PipelineState.Keeps u.pipeline (u.recordRoute k obsId ruleId).pipeline := by
  refine ⟨{ hsound with contacts := ?_ }, hevidenced.mono rfl rfl fun _ ho => ho, fun _ => Iff.rfl⟩
  intro j o hlink
  refine hsound.contacts j o ?_
  simpa [recordRoute] using hlink

theorem Observes.recordRoute (h : Observes s u id row) (k obsId ruleId : Uuid) :
    Observes s (u.recordRoute k obsId ruleId) id row :=
  h.keeps (recordRoute_keeps k obsId ruleId h.sound h.evidenced)

variable {obsId ruleId : Uuid}

theorem Observes.attachRoute (h : Observes s u id row) (hs : s.Sound)
    {target : Uuid × OpportunityRow}
    (hroute : u.attachRoute parse answers target obsId ruleId = .ok v) : Observes s v id row := by
  unfold IntakeState.attachRoute at hroute
  split at hroute
  · cases hroute
  next p hp =>
  obtain rfl := Except.ok.inj hroute
  have hkeeps := PipelineState.call_keeps (a := .attach answers.isReadable target.1
    target.2.revision obsId "manual" _ answers.now) h.sound h.evidenced rfl rfl
    (h.observed hs _ _) hp
  exact (h.keeps hkeeps).recordRoute _ _ _

theorem Observes.createRoute (h : Observes s u id row) (hs : s.Sound) {pipelineId : Uuid}
    (hfresh : u.pipeline.opportunities.lookup answers.opportunityId = none)
    (hroute : u.createRoute parse answers pipelineId obsId ruleId = .ok v) :
    Observes s v id row := by
  unfold IntakeState.createRoute at hroute
  split at hroute
  · cases hroute
  next p hp =>
  obtain rfl := Except.ok.inj hroute
  have hkeeps := PipelineState.call_keeps (a := .create answers.isReadable answers.opportunityId
    obsId pipelineId "manual" _ answers.now) h.sound h.evidenced rfl
    (by simpa [PipelineState.isFresh] using hfresh) (h.observed hs _ _) hp
  exact (h.keeps hkeeps).recordRoute _ _ _

theorem Observes.attachOrCreate (h : Observes s u id row) (hs : s.Sound)
    {target : Option (Uuid × OpportunityRow)} {pipelineId : Uuid}
    (hfresh : u.pipeline.opportunities.lookup answers.opportunityId = none)
    (hroute : u.attachOrCreate parse answers target pipelineId obsId ruleId = .ok v) :
    Observes s v id row := by
  cases target with
  | none => exact h.createRoute hs hfresh hroute
  | some found => exact h.attachRoute hs hroute

/-- Whatever the rules decide, the observation stays made. -/
theorem Observes.route (h : Observes s u id row) (hs : s.Sound) {facts : List MappedFact}
    (hfresh : u.pipeline.opportunities.lookup answers.opportunityId = none)
    {rules : List RoutingRule} (hroute : u.route parse answers facts obsId rules = .ok v) :
    Observes s v id row := by
  induction rules with
  | nil =>
    obtain rfl := Except.ok.inj hroute
    exact h
  | cons rule rest ih =>
    unfold IntakeState.route at hroute
    split at hroute
    · exact ih hroute
    · cases htarget : rule.target with
      | recordOnly =>
        rw [htarget] at hroute
        obtain rfl := Except.ok.inj hroute
        exact h
      | createOpportunity pipelineId =>
        rw [htarget] at hroute
        exact h.createRoute hs hfresh hroute
      | attachByField pipelineId field =>
        rw [htarget] at hroute
        dsimp only at hroute
        split at hroute
        · exact ih hroute
        · exact h.attachOrCreate hs hfresh hroute
      | attachToOpenOpportunity pipelineId =>
        rw [htarget] at hroute
        dsimp only at hroute
        split at hroute
        · exact h.createRoute hs hfresh hroute
        · split at hroute
          · cases hroute
          · exact h.attachOrCreate hs hfresh hroute

end Routing

theorem resolveParty_ok {u : IntakeState} {row : ObservationRow} {answer : Except String String}
    (hs : s.Sound) (hnone : s.pipeline.observations.lookup id = none)
    (h : (s.withObservation id receipt row).resolveParty id row answer = .ok u) :
    Observes s u id row ∧ u.pipeline.opportunities = s.pipeline.opportunities := by
  have hbase := PipelineState.observe_sound ⟨receipt.funnelId, receipt.campaignId, none⟩ hnone
    hs.pipeline
  have hgrow : ∀ o, (s.withObservation id receipt row).pipeline.hasObservation o ↔
      o = id ∨ s.pipeline.hasObservation o := by
    intro o
    simp only [PipelineState.hasObservation, withObservation, Table.lookup_insert]
    by_cases ho : o = id
    · simp [ho]
    · simp [ho]
  have hevidenced : (s.withObservation id receipt row).pipeline.Evidenced :=
    hs.evidenced.mono rfl rfl fun o ho => (hgrow o).mpr (.inr ho)
  unfold resolveParty at h
  split at h
  · obtain rfl := Except.ok.inj h
    exact ⟨⟨rfl, hbase, hevidenced, hgrow⟩, rfl⟩
  · split at h
    · cases h
    next party =>
    obtain rfl := Except.ok.inj h
    set base := s.withObservation id receipt row with hdef
    have hsame : ∀ o, PipelineState.hasObservation { base.pipeline with
        observations := base.pipeline.observations.updateAll fun k obs =>
          if k = id then { obs with partyRef := some party } else obs } o ↔
            base.pipeline.hasObservation o := by
      intro o
      simp [PipelineState.hasObservation]
    refine ⟨⟨rfl, { hbase with contacts := ?_ }, hevidenced.mono rfl rfl fun o => (hsame o).mpr,
      fun o => (hsame o).trans (hgrow o)⟩, rfl⟩
    -- No opportunity is linked to an observation that was not there.
    intro k o hlink
    obtain ⟨obs, hobs, hparty⟩ := hs.pipeline.contacts k o hlink
    have hne : o ≠ id := by
      rintro rfl
      rw [hnone] at hobs
      cases hobs
    refine ⟨obs, ?_, hparty⟩
    simp [hdef, withObservation, hne, hobs]

/-- What a processing attempt that returns did. -/
inductive Processes (s : IntakeState) (id : Uuid) : IntakeState → Prop where
  | nothing (hdone : ∀ receipt, s.receipts.lookup id = some receipt →
      receipt.state ≠ .pending ∨ receipt.isErased = true) : Processes s id s
  | refused (receipt : DeliveryReceipt) (detail : String) (now : ℕ)
      (hreceipt : s.receipts.lookup id = some receipt) (hpending : receipt.state = .pending)
      (hdetail : detail ≠ observationDeleted) :
      Processes s id (s.refuseReceipt id receipt detail now)
  | processed (receipt : DeliveryReceipt) (row : ObservationRow) (u : IntakeState) (now : ℕ)
      (hreceipt : s.receipts.lookup id = some receipt) (hpending : receipt.state = .pending)
      (hobserves : Observes s u id row) : Processes s id (u.finishReceipt id receipt now)

theorem ne_observationDeleted {text rest : String} (h : text.toList.head? ≠ some 'o')
    (hne : text ≠ "") : text ++ rest ≠ observationDeleted := by
  intro heq
  have hchars : (text ++ rest).toList.head? = some 'o' := by
    rw [heq]
    decide
  rw [String.toList_append] at hchars
  cases hlist : text.toList with
  | nil => exact hne (String.toList_injective hlist)
  | cons c cs =>
    rw [hlist] at hchars h
    exact h hchars

variable {detail : String}

theorem recheckConnection_detail {connection : IntakeConnection} {now : ℕ}
    (h : recheckConnection connection receipt now = some detail) : detail ≠ observationDeleted := by
  unfold recheckConnection at h
  split_ifs at h
  · obtain rfl := Option.some.inj h
    decide
  · obtain rfl := Option.some.inj h
    decide

theorem applyPinnedMapping_detail (h : s.applyPinnedMapping lib id receipt = .ok (.error detail)) :
    detail ≠ observationDeleted := by
  unfold applyPinnedMapping at h
  split at h
  · obtain rfl := Except.error.inj (Except.ok.inj h)
    decide
  · split at h
    · split at h
      · cases h
      · split at h
        · cases h
        · obtain rfl := Except.error.inj (Except.ok.inj h)
          exact ne_observationDeleted (by decide) (by decide)
        · split at h
          · cases h
          · obtain rfl := Except.error.inj (Except.ok.inj h)
            decide
          · cases Except.ok.inj h
    · obtain rfl := Except.error.inj (Except.ok.inj h)
      decide

theorem identityText_detail {key : String} {value : Option Json}
    (h : identityText lib key value = .error detail) : detail ≠ observationDeleted := by
  unfold identityText at h
  split at h
  · cases h
  · cases h
  · obtain rfl := Except.error.inj h
    exact ne_observationDeleted (by decide) (by decide)
  · split at h
    · obtain rfl := Except.error.inj h
      exact ne_observationDeleted (by decide) (by decide)
    · cases h

theorem observationRow_detail {connection : IntakeConnection} {facts : List MappedFact}
    {identity : Identity} {now : ℕ}
    (h : observationRow lib connection receipt facts identity now = .error detail) :
    detail ≠ observationDeleted := by
  have htrusted : ∀ isTrusted key value refusal,
      trustedText lib isTrusted key value = .error refusal → refusal ≠ observationDeleted := by
    intro isTrusted key value refusal hrefused
    unfold trustedText at hrefused
    split_ifs at hrefused
    exact identityText_detail hrefused
  unfold observationRow at h
  split at h
  · next refusal hoccurred =>
    obtain rfl := Except.error.inj h
    unfold occurredAt at hoccurred
    split at hoccurred
    · cases hoccurred
    · split at hoccurred
      · next text htext =>
        obtain rfl := Except.error.inj hoccurred
        exact identityText_detail htext
      · cases hoccurred
      · split at hoccurred
        · obtain rfl := Except.error.inj hoccurred
          decide
        · cases hoccurred
  · split at h
    · next refusal hsubject =>
      obtain rfl := Except.error.inj h
      exact htrusted _ _ _ _ hsubject
    · split at h
      · next refusal hemail =>
        obtain rfl := Except.error.inj h
        exact htrusted _ _ _ _ hemail
      · cases h

theorem process_ok {answers : ProcessAnswers} (hs : s.Sound)
    (hfresh : s.pipeline.opportunities.lookup answers.opportunityId = none)
    (h : s.process lib parse answers id = .ok t) : Processes s id t := by
  unfold process at h
  split at h
  · next hnone =>
    obtain rfl := Except.ok.inj h
    refine .nothing fun receipt hreceipt => ?_
    rw [hnone] at hreceipt
    cases hreceipt
  next receipt hreceipt =>
  split at h
  · next hdone =>
    obtain rfl := Except.ok.inj h
    refine .nothing fun found hfound => ?_
    obtain rfl := Option.some.inj (hreceipt.symm.trans hfound)
    simpa using hdone
  next hopen =>
  have hpending : receipt.state = .pending := by
    by_contra hnot
    exact hopen (by simp [hnot])
  split at h
  · cases h
  next connection hconnection =>
  split at h
  · next refusal hrefusal =>
    obtain rfl := Except.ok.inj h
    exact .refused receipt refusal _ hreceipt hpending (recheckConnection_detail hrefusal)
  split at h
  · cases h
  · next refusal hrefusal =>
    obtain rfl := Except.ok.inj h
    exact .refused receipt refusal _ hreceipt hpending (applyPinnedMapping_detail hrefusal)
  next facts identity hmapped =>
  split at h
  · next refusal hrefusal =>
    obtain rfl := Except.ok.inj h
    exact .refused receipt refusal _ hreceipt hpending (observationRow_detail hrefusal)
  next row hrow =>
  unfold observe at h
  split at h
  · cases h
  next hnone =>
  split at h
  · cases h
  next resolved hresolved =>
  split at h
  · cases h
  next routed hrouted =>
  obtain rfl := Except.ok.inj h
  obtain ⟨hobserves, hopportunities⟩ := resolveParty_ok hs
    (Option.not_isSome_iff_eq_none.mp hnone) hresolved
  exact .processed receipt row routed _ hreceipt hpending
    (hobserves.route hs (by rw [hopportunities]; exact hfresh) hrouted)

theorem Processes.sound (h : Processes s id t) (hs : s.Sound) : t.Sound := by
  cases h with
  | nothing => exact hs
  | refused receipt detail now hreceipt hpending hdetail =>
    exact hs.refuse hreceipt hpending hdetail
  | processed receipt row u now hreceipt hpending hobserves =>
    exact hobserves.finish hs hreceipt hpending

end IntakeState

end Rheostream.Leads
