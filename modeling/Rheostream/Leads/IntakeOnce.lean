import Rheostream.Leads.ProcessingLaws

/-!
# Intake is exactly-once

Acceptance, processing, erasure, configuration and calls on opportunities in any order, with
attempts that fail and are tried again. A receipt stands for its event, an observation for its
receipt, and an erased event leaves nothing but its receipt.
-/

namespace Rheostream.Leads

namespace IntakeState

variable {lib : IntakeLibrary} {parse : Parsers} {s t u : IntakeState} {id : Uuid}
  {receipt : DeliveryReceipt} {a : IntakeAction}

/-- Nothing is there of an observation: no row, no fact and no link of it, and no opportunity
or field that comes from it. -/
structure Absent (s : IntakeState) (id : Uuid) : Prop where
  observation : s.pipeline.observations.lookup id = none
  evidence : s.evidence.lookup id = none
  links : ∀ k, s.pipeline.links.lookup (k, id) = none
  sources : ∀ k row, s.pipeline.opportunities.lookup k = some row →
    row.sourceObservationId ≠ some id
  fields : ∀ k target f, (s.pipeline.fieldsOf k).lookup target = some f →
    f.observationId ≠ some id

theorem Sound.absent (hs : s.Sound) (h : ¬ s.pipeline.hasObservation id) : s.Absent id where
  observation := Option.not_isSome_iff_eq_none.mp h
  evidence := Option.not_isSome_iff_eq_none.mp fun hthere => h ((hs.evidence id).mp hthere)
  links k := by
    refine Option.not_isSome_iff_eq_none.mp fun hlink => h ?_
    obtain ⟨obs, hobs, -⟩ := hs.pipeline.contacts k id hlink
    rw [PipelineState.hasObservation, hobs]
    rfl
  sources k row hrow hsource := h (hs.evidenced.sources k row id hrow hsource)
  fields k target f hf hobs := h (hs.evidenced.fields k target f id hf hobs)

/-- A receipt keeps its event and its digest, and stays erased. -/
def KeepsReceipts (s t : IntakeState) : Prop :=
  ∀ k r, s.receipts.lookup k = some r → ∃ r', t.receipts.lookup k = some r' ∧
    r'.connectionId = r.connectionId ∧ r'.sourceEventId = r.sourceEventId ∧
      r'.contentDigest = r.contentDigest ∧ (r.isErased = true → r'.isErased = true)

theorem KeepsReceipts.of_eq (h : t.receipts = s.receipts) : KeepsReceipts s t := by
  intro k r hr
  rw [h]
  exact ⟨r, hr, rfl, rfl, rfl, fun herased => herased⟩

theorem KeepsReceipts.trans (h : KeepsReceipts s t) (h' : KeepsReceipts t u) :
    KeepsReceipts s u := by
  intro k r hr
  obtain ⟨r', hr', hc, he, hd, herased⟩ := h k r hr
  obtain ⟨r'', hr'', hc', he', hd', herased'⟩ := h' k r' hr'
  exact ⟨r'', hr'', hc'.trans hc, he'.trans he, hd'.trans hd, fun hwas => herased' (herased hwas)⟩

/-- A receipt was rewritten, for the same event. -/
theorem KeepsReceipts.of_rewrite {receipt' : DeliveryReceipt}
    (hreceipt : s.receipts.lookup id = some receipt)
    (hreceipts : t.receipts = s.receipts.insert id receipt')
    (hsame : receipt'.connectionId = receipt.connectionId ∧
      receipt'.sourceEventId = receipt.sourceEventId ∧
        receipt'.contentDigest = receipt.contentDigest)
    (herased : receipt.isErased = true → receipt'.isErased = true) : KeepsReceipts s t := by
  intro k r hr
  rw [hreceipts, lookup_rewrite]
  split_ifs with hk
  · rw [hk, hreceipt] at hr
    obtain rfl := Option.some.inj hr
    exact ⟨receipt', rfl, hsame.1, hsame.2.1, hsame.2.2, herased⟩
  · exact ⟨r, hr, rfl, rfl, rfl, fun herased => herased⟩

variable {m : AcceptInput} {now : ℕ} {outcome : AcceptOutcome} {receiptId conflictId : Uuid}

theorem Accepts.keepsReceipts (h : Accepts lib s m receiptId conflictId now t outcome)
    (hfresh : s.receipts.lookup receiptId = none) : KeepsReceipts s t := by
  cases h with
  | accepted row connection funnelId campaignId hnew hrow =>
    intro k r hr
    have hne : k ≠ receiptId := by
      rintro rfl
      rw [hfresh] at hr
      cases hr
    refine ⟨r, ?_, rfl, rfl, rfl, fun herased => herased⟩
    exact ((lookup_rewrite s receiptId row k).trans (if_neg hne)).trans hr
  | duplicate => exact .of_eq rfl
  | conflict existing receipt hfound hdigest => exact .of_eq rfl

theorem Processes.keepsReceipts (h : Processes s id t) (hs : s.Sound) : KeepsReceipts s t := by
  cases h with
  | nothing => exact .of_eq rfl
  | refused receipt detail now hreceipt hpending hdetail =>
    refine .of_rewrite hreceipt rfl ⟨rfl, rfl, rfl⟩ fun herased => ?_
    rw [hs.isErased_of_pending hreceipt hpending] at herased
    cases herased
  | processed receipt row u now hreceipt hpending hobserves =>
    have hreceipts : u.receipts = s.receipts := by rw [hobserves.kept]
    refine .of_rewrite hreceipt (congrArg (AList.insert id _) hreceipts) ⟨rfl, rfl, rfl⟩ ?_
    exact fun herased => herased

/-- The facts that `derive` reads are of observations that are there. -/
theorem Sound.observed_rows (hs : s.Sound) (a : PipelineAction) (helse : a.isElsewhere = true) :
    s.pipeline.Observed (a.withFacts s).rows := by
  have hlinked := fun links k => observed_linkedFacts (fun o => (hs.evidence o).mp) links k
  cases a with
  | create isReadable id obsId pipelineId decision rows now => exact hlinked _ id
  | attach isReadable id revision obsId decision rows now => exact hlinked _ id
  | observe => cases helse
  | deleteObservation => cases helse
  | deleteOpportunity => cases helse
  | _ =>
    intro fact hfact
    cases hfact

theorem withFacts_same (s : IntakeState) (a : PipelineAction) :
    (a.withFacts s).isElsewhere = a.isElsewhere ∧
      s.pipeline.isFresh (a.withFacts s) = s.pipeline.isFresh a := by
  cases a <;> exact ⟨rfl, rfl⟩

/-- A call that is answered keeps the invariant and the receipts. -/
theorem call_ok (hs : s.Sound) (hfresh : s.isFresh a = true) (h : s.call lib parse a = .ok t) :
    t.Sound ∧ KeepsReceipts s t := by
  cases a with
  | configure config =>
    obtain rfl := Except.ok.inj h
    exact ⟨⟨hs.pipeline, hs.evidenced, hs.unique, hs.payloads, hs.conflicts, hs.observations,
      hs.evidence, hs.erased, hs.made, hs.accepted, hs.received⟩, .of_eq rfl⟩
  | accept m caller receiptId conflictId now =>
    have hnone : s.receipts.lookup receiptId = none := by
      simpa using (Bool.and_eq_true_iff.mp hfresh).1
    cases hanswer : s.accept lib m caller receiptId conflictId now with
    | error refusal =>
      rw [call, hanswer] at h
      cases h
    | ok answer =>
      rw [call, hanswer] at h
      obtain rfl := Except.ok.inj h
      have haccepts := accept_ok hanswer
      exact ⟨haccepts.sound hs hnone, haccepts.keepsReceipts hnone⟩
  | process answers id =>
    have hprocesses := process_ok hs (by simpa [isFresh] using hfresh) h
    exact ⟨hprocesses.sound hs, hprocesses.keepsReceipts hs⟩
  | erase obsId now =>
    obtain ⟨hsound, receipt, hreceipt, hreceipts, -⟩ := deleteObservation_ok hs h
    exact ⟨hsound, .of_rewrite hreceipt hreceipts ⟨rfl, rfl, rfl⟩ fun _ => by
      simp [DeliveryReceipt.isErased]⟩
  | deleteOpportunity id revision =>
    obtain ⟨hsound, hreceipts, -⟩ := deleteOpportunity_ok hs h
    exact ⟨hsound, .of_eq hreceipts⟩
  | pipeline a =>
    obtain ⟨helse, hfree⟩ := Bool.and_eq_true_iff.mp hfresh
    obtain ⟨hsame, hsame'⟩ := withFacts_same s a
    cases hanswer : s.pipeline.call parse (a.withFacts s) with
    | error refusal =>
      rw [call, hanswer] at h
      cases h
    | ok p =>
      rw [call, hanswer] at h
      obtain rfl := Except.ok.inj h
      have hkeeps := PipelineState.call_keeps hs.pipeline hs.evidenced (hsame.trans helse)
        (hsame'.trans hfree) (hs.observed_rows a helse) hanswer
      exact ⟨hs.pipeline_keeps hkeeps, .of_eq rfl⟩

theorem after_of_error {refusal : String} (h : s.call lib parse a = .error refusal) :
    s.after lib parse a = s := by
  simp [after, h]

theorem step_ok (hs : s.Sound) (h : s.step lib parse a = some t) :
    t.Sound ∧ KeepsReceipts s t := by
  unfold step at h
  split_ifs at h with hfresh
  obtain rfl := Option.some.inj h
  unfold after
  split
  · next t hcall => exact call_ok hs hfresh hcall
  · exact ⟨hs, .of_eq rfl⟩

/-- A delivery of the content that an event has already is a duplicate. -/
theorem Sound.duplicate {caller : IntakeCaller} (hs : s.Sound)
    (hreceipt : s.receipts.lookup id = some receipt)
    (hconnection : receipt.connectionId = m.connectionId)
    (hevent : receipt.sourceEventId = m.sourceEventId) (hnot : receipt.isErased = false)
    (hdigest : receipt.contentDigest = lib.sha256 m.body)
    (h : s.accept lib m caller receiptId conflictId now = .ok (t, outcome)) :
    t = s ∧ outcome = .duplicate := by
  have hsame : ∀ k r, s.receiptOf m.connectionId m.sourceEventId = some (k, r) → r = receipt := by
    intro k r hfound
    obtain ⟨hr, hkey⟩ := Table.findRow_eq_some hfound
    obtain ⟨hc, he⟩ := Bool.and_eq_true_iff.mp hkey
    have hk := hs.unique k id r receipt hr hreceipt
      ((of_decide_eq_true hc).trans hconnection.symm) ((of_decide_eq_true he).trans hevent.symm)
    rw [hk, hreceipt] at hr
    exact (Option.some.inj hr).symm
  cases accept_ok h with
  | accepted row connection funnelId campaignId hnew hrow =>
    have hnot := Table.findRow_eq_none hnew hreceipt
    simp [hconnection, hevent] at hnot
  | duplicate existing found hfound => exact ⟨rfl, rfl⟩
  | conflict existing found hfound hdiffers =>
    obtain rfl := hsame existing found hfound
    exact absurd hdigest (hdiffers hnot)

/-- What a call of `accept_delivery` stored is the content that it was called with. -/
theorem Accepts.stored (h : Accepts lib s m receiptId conflictId now t outcome)
    (hkept : outcome ≠ .conflict) : ∃ k r, t.receipts.lookup k = some r ∧
      r.connectionId = m.connectionId ∧ r.sourceEventId = m.sourceEventId ∧
        r.isErased = false ∧ r.contentDigest = lib.sha256 m.body := by
  cases h with
  | accepted row connection funnelId campaignId hnew hrow =>
    subst hrow
    exact ⟨receiptId, _, (lookup_rewrite _ _ _ _).trans (if_pos rfl), rfl, rfl, rfl, rfl⟩
  | duplicate existing receipt hfound herased hdigest =>
    obtain ⟨hr, hkey⟩ := Table.findRow_eq_some hfound
    obtain ⟨hc, he⟩ := Bool.and_eq_true_iff.mp hkey
    exact ⟨existing, receipt, hr, of_decide_eq_true hc, of_decide_eq_true he, herased, hdigest⟩
  | conflict => exact absurd rfl hkept

/-- Processing a receipt that a processing attempt returned from does nothing. -/
theorem Processes.again (h : Processes s id t) (answers : ProcessAnswers) :
    t.process lib parse answers id = .ok t := by
  have hskip : ∀ u : IntakeState, (∀ receipt, u.receipts.lookup id = some receipt →
      receipt.state ≠ .pending ∨ receipt.isErased = true) →
        u.process lib parse answers id = .ok u := by
    intro u hdone
    unfold process
    split
    · rfl
    · next receipt hreceipt =>
      rw [if_pos (by simpa using hdone receipt hreceipt)]
  cases h with
  | nothing hdone => exact hskip _ hdone
  | refused receipt detail now hreceipt hpending hdetail =>
    refine hskip _ fun found hfound => .inl ?_
    have hrow := (lookup_rewrite _ _ _ _).symm.trans hfound
    rw [if_pos rfl] at hrow
    obtain rfl := Option.some.inj hrow
    intro hstill
    cases hstill
  | processed receipt row u now hreceipt hpending hobserves =>
    refine hskip _ fun found hfound => .inl ?_
    have hrow := (lookup_rewrite _ _ _ _).symm.trans hfound
    rw [if_pos rfl] at hrow
    obtain rfl := Option.some.inj hrow
    intro hstill
    cases hstill

end IntakeState

variable {lib : IntakeLibrary} {parse : Parsers} {s t : IntakeState}

theorem intake_sound (h : (intakeMachine lib parse).Reachable s) : s.Sound :=
  Machine.Reachable.invariant (I := IntakeState.Sound) (fun _ => IntakeState.Sound.of_begins)
    (fun _ _ _ _ hs hstep => (IntakeState.step_ok hs hstep).1) h

theorem intake_keepsReceipts (h : (intakeMachine lib parse).Reachable s)
    (hrun : (intakeMachine lib parse).Reaches s t) : IntakeState.KeepsReceipts s t := by
  refine Machine.Reachable.stable (P := IntakeState.KeepsReceipts s) ?_ h (.of_eq rfl) hrun
  intro u a v hu hkeeps hstep
  exact hkeeps.trans (IntakeState.step_ok (intake_sound hu) hstep).2

/-- What holds of intake in a state, and of every call in it. -/
structure IntakeLaw (lib : IntakeLibrary) (parse : Parsers) (s : IntakeState) : Prop where
  /-- An event of a connection has at most one receipt. -/
  oneReceipt : ∀ k k' r r', s.receipts.lookup k = some r → s.receipts.lookup k' = some r' →
    r.connectionId = r'.connectionId → r.sourceEventId = r'.sourceEventId → k = k'
  /-- A payload is the one of a receipt that is not erased. -/
  onePayload : ∀ k, (s.payloads.lookup k).isSome = true →
    ∃ r, s.receipts.lookup k = some r ∧ r.isErased = false
  /-- A receipt was published once. -/
  oneEvent : ∀ k, s.published.count (.deliveryReceived k) =
    if (s.receipts.lookup k).isSome then 1 else 0
  /-- At most one observation was made for a receipt, and published once. -/
  madeOnce : ∀ k, s.made.count k ≤ 1 ∧ s.published.count (.observationAccepted k) = s.made.count k
  /-- A receipt is processed exactly when its observation was made. -/
  processed : ∀ k r, s.receipts.lookup k = some r → (r.state = .processed ↔ s.made.count k = 1)
  /-- The observation of a processed receipt is there unless it is erased. -/
  there : ∀ k r, s.receipts.lookup k = some r → r.state = .processed → r.isErased = false →
    (s.pipeline.observations.lookup k).isSome = true ∧ (s.evidence.lookup k).isSome = true
  /-- A refused event, like a pending one, left nothing. -/
  refused : ∀ k r, s.receipts.lookup k = some r → r.state ≠ .processed → s.Absent k
  /-- A conflicting delivery writes a conflict and the health of its connection, with one more
  unresolved failure, and nothing else. -/
  conflicting : ∀ m caller receiptId conflictId now t,
    s.accept lib m caller receiptId conflictId now = .ok (t, .conflict) →
      ∃ conflict row, t = { s with
        conflicts := s.conflicts.insert conflictId conflict
        health := s.health.insert m.connectionId row } ∧
          row.unresolvedFailures = s.failuresOf m.connectionId + 1 ∧
            row.lastAcceptedAt =
              (s.health.lookup m.connectionId).bind ConnectionHealth.lastAcceptedAt ∧
            row.lastProcessedAt =
              (s.health.lookup m.connectionId).bind ConnectionHealth.lastProcessedAt
  /-- The conflict is one more, whatever the event had before: its identifier is drawn anew. -/
  oneConflict : ∀ m caller receiptId conflictId now t, s.conflicts.lookup conflictId = none →
    s.accept lib m caller receiptId conflictId now = .ok (t, .conflict) →
      t.conflicts.keys.length = s.conflicts.keys.length + 1
  /-- Accepting the content that an event has already does nothing. -/
  duplicate : ∀ k r m caller receiptId conflictId now t outcome,
    s.receipts.lookup k = some r → r.connectionId = m.connectionId →
      r.sourceEventId = m.sourceEventId → r.isErased = false →
        r.contentDigest = lib.sha256 m.body →
          s.accept lib m caller receiptId conflictId now = .ok (t, outcome) →
            t = s ∧ outcome = .duplicate
  /-- Accepting again what was accepted, by whatever caller, does nothing. -/
  acceptAgain : ∀ m caller receiptId conflictId now t outcome,
    s.receipts.lookup receiptId = none →
      s.accept lib m caller receiptId conflictId now = .ok (t, outcome) → outcome ≠ .conflict →
        ∀ m' caller' receiptId' conflictId' now' u outcome', m'.connectionId = m.connectionId →
          m'.sourceEventId = m.sourceEventId → lib.sha256 m'.body = lib.sha256 m.body →
            t.accept lib m' caller' receiptId' conflictId' now' = .ok (u, outcome') →
              u = t ∧ outcome' = .duplicate
  /-- Processing again what was processed or refused does nothing. -/
  processAgain : ∀ answers id t, s.pipeline.opportunities.lookup answers.opportunityId = none →
    s.process lib parse answers id = .ok t →
      ∀ answers', t.process lib parse answers' id = .ok t
  /-- A call that fails leaves everything as it was. -/
  failed : ∀ a refusal, s.call lib parse a = .error refusal → s.after lib parse a = s
  /-- An erased event has nothing left but its receipt. -/
  erased : ∀ k r, s.receipts.lookup k = some r → r.isErased = true →
    s.Absent k ∧ s.payloads.lookup k = none ∧
      ∀ j c, s.conflicts.lookup j = some c → c.receiptId = k → c.body = none
  /-- It stays erased, under the same receipt. -/
  staysErased : ∀ t, (intakeMachine lib parse).Reaches s t → ∀ k r,
    s.receipts.lookup k = some r → r.isErased = true → ∃ r', t.receipts.lookup k = some r' ∧
      r'.isErased = true ∧ r'.connectionId = r.connectionId ∧ r'.sourceEventId = r.sourceEventId

/-- In every run of deliveries, processing attempts, erasures and calls on opportunities, an
event has one receipt, a receipt one observation, and an erased event nothing else. -/
theorem intake_law (h : (intakeMachine lib parse).Reachable s) : IntakeLaw lib parse s where
  oneReceipt := (intake_sound h).unique
  onePayload := (intake_sound h).payloads
  oneEvent := (intake_sound h).received
  madeOnce k := by
    refine ⟨?_, (intake_sound h).accepted k⟩
    rw [(intake_sound h).made]
    split_ifs
    · exact le_rfl
    · exact Nat.zero_le 1
  processed k r hr := by
    rw [(intake_sound h).made, IntakeState.isProcessed, hr]
    simp
  there k r hr hprocessed hnot := by
    have hthere := ((intake_sound h).observations k).mpr ⟨r, hr, hprocessed, hnot⟩
    exact ⟨hthere, ((intake_sound h).evidence k).mpr hthere⟩
  refused k r hr hnot := by
    refine (intake_sound h).absent fun hthere => ?_
    obtain ⟨found, hfound, hprocessed, -⟩ := ((intake_sound h).observations k).mp hthere
    rw [hr] at hfound
    obtain rfl := Option.some.inj hfound
    exact hnot hprocessed
  conflicting m caller receiptId conflictId now t hanswer := by
    cases IntakeState.accept_ok hanswer with
    | conflict existing receipt hfound hdigest =>
      obtain ⟨row, hnoted, hrow⟩ := IntakeState.noteError_ok
        (s.addConflict conflictId (IntakeState.conflictOf lib existing receipt m now))
        m.connectionId (IntakeState.conflictOf lib existing receipt m now).kind.text now
      exact ⟨_, row, hnoted, hrow⟩
  oneConflict m caller receiptId conflictId now t hfresh hanswer := by
    cases IntakeState.accept_ok hanswer with
    | conflict existing receipt hfound hdigest =>
      have hnew : conflictId ∉ s.conflicts.keys := by
        rw [← AList.mem_keys, ← AList.lookup_isSome, hfresh]
        exact Bool.false_ne_true
      change (s.conflicts.insert conflictId _).keys.length = _
      rw [AList.keys_insert, List.erase_of_not_mem hnew, List.length_cons]
  duplicate k r m caller receiptId conflictId now t outcome hr hc he hnot hd hanswer :=
    (intake_sound h).duplicate hr hc he hnot hd hanswer
  acceptAgain m caller receiptId conflictId now t outcome hfresh hanswer houtcome m' caller'
      receiptId' conflictId' now' u outcome' hconnection hevent hbody hagain := by
    have haccepts := IntakeState.accept_ok hanswer
    obtain ⟨k, r, hr, hc, he, hnot, hd⟩ := haccepts.stored houtcome
    exact (haccepts.sound (intake_sound h) hfresh).duplicate hr (hc.trans hconnection.symm)
      (he.trans hevent.symm) hnot (hd.trans hbody.symm) hagain
  processAgain answers id t hfresh hanswer answers' :=
    (IntakeState.process_ok (intake_sound h) hfresh hanswer).again answers'
  failed a refusal := IntakeState.after_of_error
  erased k r hr herased := by
    refine ⟨(intake_sound h).absent fun hthere => ?_, ?_, fun j c hc hk => ?_⟩
    · obtain ⟨found, hfound, -, hnot⟩ := ((intake_sound h).observations k).mp hthere
      rw [hr] at hfound
      obtain rfl := Option.some.inj hfound
      rw [herased] at hnot
      cases hnot
    · refine Option.not_isSome_iff_eq_none.mp fun hthere => ?_
      obtain ⟨found, hfound, hnot⟩ := (intake_sound h).payloads k hthere
      rw [hr] at hfound
      obtain rfl := Option.some.inj hfound
      rw [herased] at hnot
      cases hnot
    · obtain ⟨found, hfound, hbody⟩ := (intake_sound h).conflicts j c hc
      rw [hk, hr] at hfound
      obtain rfl := Option.some.inj hfound
      exact hbody herased
  staysErased t hrun k r hr herased := by
    obtain ⟨r', hr', hc, he, -, hstays⟩ := intake_keepsReceipts h hrun k r hr
    exact ⟨r', hr', hstays herased, hc, he⟩

section Sample

/-- A payload is the text of its subject. -/
private def sampleLibrary : IntakeLibrary where
  loads text := some (.obj [("subject", .str text)])
  scalarText value := match value with
    | .str text => some text
    | _ => none
  lower text := text
  strptime _ _ := none
  fromIsoFormat _ := none
  sha256 text := text

private def sampleParsing : Parsers := ⟨fun _ => false, fun _ => false, fun _ => false⟩

private def sampleConnection : IntakeConnection where
  transport := .manual
  sourceNamespace := "manual_capture"
  mappingId := 3
  mappingVersion := 1
  funnelId := none
  campaignId := none
  priority := 0
  subjectAuthenticated := false
  emailVerified := false
  signingKeyGeneration := 1
  previousSecretRef := none
  previousValidUntil := none
  state := .active

private def sampleConfig : IntakeConfig where
  connections := (∅ : Table Uuid IntakeConnection).insert 1 sampleConnection
  funnels := (∅ : Table Uuid (Option ℕ)).insert 2 none
  campaigns := ∅
  mappings := (∅ : Table (Uuid × ℕ) FieldMapping).insert (3, 1)
    ⟨.json, ⟨none, none, none, none⟩, [⟨"subject", "/subject", some .trim, none, true, false⟩]⟩
  rules _ := []
  collectors := []
  leadsEnabled := true
  maxPayloadBytes := 262144

private def emptyPipeline : PipelineState := ⟨∅, ∅, ∅, ∅, ∅, ∅, ∅, ∅, ∅, ∅⟩

private def emptyIntake : IntakeState :=
  ⟨sampleConfig, ∅, ∅, ∅, ∅, ∅, ∅, emptyPipeline, [], []⟩

private theorem begins_emptyIntake : emptyIntake.Begins where
  receipts := rfl
  payloads := rfl
  conflicts := rfl
  evidence := rfl
  observations := rfl
  pipeline := ⟨nofun, nofun, nofun, rfl, rfl, rfl, rfl, rfl⟩
  fields := rfl
  published := rfl
  made := rfl

private def sampleDelivery (body : String) : AcceptInput :=
  ⟨1, "event", body, "application/json", none, none, some 2, none⟩

private def sampleCaller : IntakeCaller := ⟨none, false, false⟩

private def sampleAnswer : ProcessAnswers :=
  ⟨.error "module_unavailable", .error "module_unavailable", fun _ => false, 90, 20⟩

private def sampleDeliveries : List IntakeAction :=
  [.accept (sampleDelivery "hello") sampleCaller 10 50 15, .process sampleAnswer 10,
    .process sampleAnswer 10, .accept (sampleDelivery "hello") sampleCaller 11 51 16,
    .erase 10 17, .accept (sampleDelivery "hello") sampleCaller 12 52 18]

/-- What a run shows: whether there is an observation, a payload and a fact, how many receipts
and conflicts there are and how many observations were made. -/
private def sampleIntake (s : IntakeState) : (Bool × Bool × Bool) × ℕ × ℕ × ℕ :=
  (((s.pipeline.observations.lookup 10).isSome, (s.payloads.lookup 10).isSome,
    (s.evidence.lookup 10).isSome), s.receipts.keys.length, s.conflicts.keys.length, s.made.length)

/-- A delivery that came again after its observation was erased is a conflict and nothing
else. -/
theorem intake_law_erased : ∃ s, (intakeMachine sampleLibrary sampleParsing).Reachable s ∧
    sampleIntake s = ((false, false, false), 1, 1, 1) ∧
      IntakeLaw sampleLibrary sampleParsing s := by
  have hrun : ((intakeMachine sampleLibrary sampleParsing).run emptyIntake
      sampleDeliveries).map sampleIntake = some ((false, false, false), 1, 1, 1) := by
    decide +kernel
  obtain ⟨s, hs, hview⟩ := Option.map_eq_some_iff.mp hrun
  have hreach := Machine.reachable_of_run begins_emptyIntake hs
  exact ⟨s, hreach, hview, intake_law hreach⟩

private def sampleRetry (s : IntakeState) (n : Uuid) :
    Except String (IntakeState × AcceptOutcome) :=
  s.accept sampleLibrary (sampleDelivery "other") sampleCaller (11 + n) (51 + n) 16

/-- How many conflicts and failures of the connection there are, when a delivery was one. -/
private def sampleConflicts (answer : Except String (IntakeState × AcceptOutcome)) :
    Option (ℕ × ℕ) :=
  match answer with
  | .ok (t, .conflict) => some (t.conflicts.keys.length, t.failuresOf 1)
  | _ => none

private theorem exists_of_sampleConflicts {answer : Except String (IntakeState × AcceptOutcome)}
    {n : ℕ × ℕ} (h : sampleConflicts answer = some n) :
    ∃ t, answer = .ok (t, .conflict) ∧ (t.conflicts.keys.length, t.failuresOf 1) = n := by
  unfold sampleConflicts at h
  split at h
  · next t => exact ⟨t, rfl, Option.some.inj h⟩
  · cases h

/-- A conflicting delivery that is tried again is a second conflict and a second failure: the
state that two tries give is not the one that one try gives. -/
theorem conflicting_delivery_accumulates : ∃ s t u,
    (intakeMachine sampleLibrary sampleParsing).Reachable s ∧ sampleRetry s 0 = .ok (t, .conflict) ∧
      sampleRetry t 1 = .ok (u, .conflict) ∧ (t.conflicts.keys.length, t.failuresOf 1) = (1, 1) ∧
        (u.conflicts.keys.length, u.failuresOf 1) = (2, 2) := by
  have hrun : ((intakeMachine sampleLibrary sampleParsing).run emptyIntake
      [.accept (sampleDelivery "hello") sampleCaller 10 50 15]).map (fun s =>
        (sampleConflicts (sampleRetry s 0), (sampleRetry s 0).toOption.bind fun t =>
          sampleConflicts (sampleRetry t.1 1))) = some (some (1, 1), some (2, 2)) := by
    decide +kernel
  obtain ⟨s, hs, hview⟩ := Option.map_eq_some_iff.mp hrun
  obtain ⟨hfirst, hsecond⟩ := Prod.mk.inj hview
  obtain ⟨t, ht, hone⟩ := exists_of_sampleConflicts hfirst
  rw [ht] at hsecond
  obtain ⟨u, hu, htwo⟩ := exists_of_sampleConflicts hsecond
  exact ⟨s, t, u, Machine.reachable_of_run begins_emptyIntake hs, ht, hu, hone, htwo⟩

end Sample

end Rheostream.Leads
