import Rheostream.Leads.PipelineEvidence
import Rheostream.Leads.Processing
import Rheostream.Leads.Dispositions

/-!
# What acceptance, processing and erasure write

A receipt has a payload until it is erased, an observation exactly while it is processed and
not erased, and one event for each of its two publications. Each call keeps this.
-/

namespace Rheostream.Leads

namespace PipelineState

variable {parse : Parsers} {s t : PipelineState} {a : PipelineAction} {id : Uuid}

theorem Rests.mono {fields : Fields} (h : s.Rests fields)
    (hgrow : ∀ o, s.hasObservation o → t.hasObservation o) : t.Rests fields :=
  fun target f o hf ho => hgrow o (h target f o hf ho)

/-- Rows and fields stay, and no observation goes away. -/
theorem Evidenced.mono (h : s.Evidenced) (hrows : t.opportunities = s.opportunities)
    (hfields : t.fields = s.fields) (hgrow : ∀ o, s.hasObservation o → t.hasObservation o) :
    t.Evidenced where
  sources k row o hrow ho := by
    rw [hrows] at hrow
    exact hgrow o (h.sources k row o hrow ho)
  fields k := by
    have hsame : t.fieldsOf k = s.fieldsOf k := by rw [fieldsOf, hfields, fieldsOf]
    rw [hsame]
    exact (h.fields k).mono hgrow

/-- What a call on opportunities keeps of their observations. -/
structure Keeps (s t : PipelineState) : Prop where
  sound : t.Sound
  evidenced : t.Evidenced
  observations : ∀ o, t.hasObservation o ↔ s.hasObservation o

theorem WritesSoundly.keeps {row row' : OpportunityRow} (h : WritesSoundly s t id row row')
    (hs : s.Sound) (he : s.Evidenced) (hown : s.Rests (t.fieldsOf id)) : Keeps s t where
  sound := h.sound hs
  evidenced := h.toWritesOne.evidenced he hown
  observations o := by
    unfold hasObservation
    rw [h.observations]

theorem rests_of_fields (he : s.Evidenced) (h : t.fields = s.fields) : s.Rests (t.fieldsOf id) := by
  rw [fieldsOf, h]
  exact he.fields id

/-- A call that is no arrival and no erasure keeps the observations. -/
theorem call_keeps (hs : s.Sound) (he : s.Evidenced) (helse : a.isElsewhere = true)
    (hfresh : s.isFresh a = true) (hrows : s.Observed a.rows) (h : s.call parse a = .ok t) :
    Keeps s t := by
  cases a with
  | observe => cases helse
  | deleteObservation => cases helse
  | deleteOpportunity => cases helse
  | pipelineCreate pipelineId presetId ownerId =>
    obtain ⟨hsound, hkept, -⟩ := pipelineCreate_ok h
    rw [hkept] at hsound ⊢
    exact ⟨hsound hs, he.mono rfl rfl fun _ ho => ho, fun _ => Iff.rfl⟩
  | presetEdit m =>
    obtain ⟨hsound, hkept, -⟩ := presetEdit_ok h
    rw [hkept] at hsound ⊢
    exact ⟨hsound hs, he.mono rfl rfl fun _ ho => ho, fun _ => Iff.rfl⟩
  | create isReadable id obsId pipelineId decision rows now =>
    have hfree : s.opportunities.lookup id = none := by simpa [isFresh] using hfresh
    obtain ⟨-, hobservations, -⟩ := create_rests he hrows h
    refine ⟨(create_ok hfree h).1 hs, create_evidenced he hrows hfree h, fun o => ?_⟩
    rw [hasObservation, hobservations, hasObservation]
  | attach isReadable id revision obsId decision rows now =>
    obtain ⟨-, rfl, -⟩ | ⟨-, row, row', -, hwrites⟩ := attach_ok hs h
    · exact ⟨hs, he, fun _ => Iff.rfl⟩
    · exact hwrites.keeps hs he (attach_rests he hrows h)
  | edit id revision m now =>
    obtain ⟨row, row', -, hwrites⟩ := edit_ok h
    exact hwrites.keeps hs he (edit_rests he h)
  | transition id revision toStageId note noteId now =>
    obtain ⟨row, row', -, hwrites⟩ := transition_ok (by simpa [isFresh] using hfresh) h
    exact hwrites.keeps hs he (rests_of_fields he (transition_fields h))
  | addNote id revision body noteId now =>
    obtain ⟨row, row', -, hwrites⟩ := addNote_ok (by simpa [isFresh] using hfresh) h
    exact hwrites.keeps hs he (rests_of_fields he (addNote_fields h))
  | partyChange isReadable id revision party role remove now =>
    obtain ⟨row, row', -, hwrites⟩ := partyChange_ok h
    exact hwrites.keeps hs he (rests_of_fields he (partyChange_fields h))
  | schedule id revision action dueOn reminderId now =>
    obtain ⟨row, row', -, hwrites⟩ := schedule_ok (by simpa [isFresh] using hfresh) h
    exact hwrites.keeps hs he (rests_of_fields he (schedule_fields h))
  | resolve id revision reminderId completed now =>
    obtain ⟨row, row', -, hwrites⟩ := resolve_ok h
    exact hwrites.keeps hs he (rests_of_fields he (resolve_fields h))
  | migrate id revision toVersion stageMap now =>
    obtain ⟨row, row', -, hwrites⟩ := migrate_ok h
    exact hwrites.keeps hs he (migrate_rests he h)
  | deleteParty party now =>
    obtain rfl := Except.ok.inj h
    refine ⟨(s.deleteParty_ok party now).sound hs, deleteParty_evidenced he party now, fun o => ?_⟩
    simp [hasObservation, deleteParty, bumpErased]

end PipelineState

namespace IntakeState

variable {lib : IntakeLibrary} {parse : Parsers} {s t : IntakeState} {id : Uuid}
  {receipt : DeliveryReceipt}

/-- A receipt that is processed. -/
def isProcessed (s : IntakeState) (id : Uuid) : Bool :=
  (s.receipts.lookup id).any fun receipt => receipt.state = .processed

/-- The invariant of intake. -/
structure Sound (s : IntakeState) : Prop where
  pipeline : s.pipeline.Sound
  evidenced : s.pipeline.Evidenced
  unique : ∀ k k' r r', s.receipts.lookup k = some r → s.receipts.lookup k' = some r' →
    r.connectionId = r'.connectionId → r.sourceEventId = r'.sourceEventId → k = k'
  payloads : ∀ k, (s.payloads.lookup k).isSome = true →
    ∃ r, s.receipts.lookup k = some r ∧ r.isErased = false
  conflicts : ∀ k c, s.conflicts.lookup k = some c →
    ∃ r, s.receipts.lookup c.receiptId = some r ∧ (r.isErased = true → c.body = none)
  observations : ∀ k, s.pipeline.hasObservation k ↔
    ∃ r, s.receipts.lookup k = some r ∧ r.state = .processed ∧ r.isErased = false
  evidence : ∀ k, (s.evidence.lookup k).isSome = true ↔ s.pipeline.hasObservation k
  erased : ∀ k r, s.receipts.lookup k = some r → r.isErased = true → r.state = .processed
  made : ∀ k, s.made.count k = if s.isProcessed k then 1 else 0
  accepted : ∀ k, s.published.count (.observationAccepted k) = s.made.count k
  received : ∀ k, s.published.count (.deliveryReceived k) =
    if (s.receipts.lookup k).isSome then 1 else 0

theorem Sound.of_begins (h : s.Begins) : s.Sound where
  pipeline := .of_begins h.pipeline
  evidenced := .of_begins h.pipeline h.fields
  unique k _ r _ hr := by
    rw [h.receipts] at hr
    cases hr
  payloads k hk := by
    rw [h.payloads] at hk
    cases hk
  conflicts k c hc := by
    rw [h.conflicts] at hc
    cases hc
  observations k := by
    rw [PipelineState.hasObservation, h.observations, h.receipts]
    simp
  evidence k := by
    rw [PipelineState.hasObservation, h.observations, h.evidence]
    simp
  erased k r hr := by
    rw [h.receipts] at hr
    cases hr
  made k := by
    rw [h.made, isProcessed, h.receipts]
    rfl
  accepted k := by
    rw [h.made, h.published]
    rfl
  received k := by
    rw [h.published, h.receipts]
    rfl

variable {fact : Fact}

theorem observationId_of_factsOf {o : Uuid} (h : fact ∈ s.factsOf o) :
    fact.observationId = o ∧ (s.evidence.lookup o).isSome = true := by
  unfold factsOf at h
  split at h
  · cases h
  next row hrow =>
  split at h
  · cases h
  · obtain ⟨f, -, rfl⟩ := List.mem_map.mp h
    exact ⟨rfl, by rw [hrow]; rfl⟩

/-- The facts of linked observations are of observations that intake keeps. -/
theorem evidence_of_linkedFacts {links : Table (Uuid × Uuid) String}
    (h : fact ∈ s.linkedFacts links id) : (id, fact.observationId) ∈ links.keys ∧
      (s.evidence.lookup fact.observationId).isSome = true := by
  obtain ⟨key, hkey, hfact⟩ := List.mem_flatMap.mp h
  obtain ⟨hmem, hid⟩ := List.mem_filter.mp hkey
  obtain ⟨hobs, hthere⟩ := observationId_of_factsOf hfact
  have hid' : key.1 = id := of_decide_eq_true hid
  rw [hobs]
  refine ⟨?_, hthere⟩
  rw [← hid']
  exact hmem

theorem observed_linkedFacts (hevidence : ∀ k, (s.evidence.lookup k).isSome = true →
    s.pipeline.hasObservation k) (links : Table (Uuid × Uuid) String) (id : Uuid) :
    s.pipeline.Observed (s.linkedFacts links id) :=
  fun _ hfact => hevidence _ (evidence_of_linkedFacts hfact).2

/-- Nothing but the health of a connection changed. -/
structure SameButHealth (s t : IntakeState) : Prop where
  kept : t = { s with health := t.health }

theorem noteAccepted_same (s : IntakeState) (c : Uuid) (now : ℕ) :
    SameButHealth s (s.noteAccepted c now) := ⟨rfl⟩

theorem noteProcessed_same (s : IntakeState) (c : Uuid) (now : ℕ) :
    SameButHealth s (s.noteProcessed c now) := ⟨rfl⟩

/-- The unresolved failures of a connection. -/
def failuresOf (s : IntakeState) (c : Uuid) : ℕ :=
  ((s.health.lookup c).map ConnectionHealth.unresolvedFailures).getD 0

/-- A noted error is one more unresolved failure of its connection, and keeps when the
connection last accepted and processed. -/
theorem noteError_ok (s : IntakeState) (c : Uuid) (e : String) (now : ℕ) : ∃ row,
    s.noteError c e now = { s with health := s.health.insert c row } ∧
      row.unresolvedFailures = s.failuresOf c + 1 ∧
        row.lastAcceptedAt = (s.health.lookup c).bind ConnectionHealth.lastAcceptedAt ∧
          row.lastProcessedAt = (s.health.lookup c).bind ConnectionHealth.lastProcessedAt := by
  refine ⟨_, rfl, ?_⟩
  unfold failuresOf
  cases s.health.lookup c with
  | none => exact ⟨rfl, rfl, rfl⟩
  | some row => exact ⟨rfl, rfl, rfl⟩

theorem noteError_same (s : IntakeState) (c : Uuid) (e : String) (now : ℕ) :
    SameButHealth s (s.noteError c e now) := ⟨rfl⟩

theorem SameButHealth.sound (h : SameButHealth s t) (hs : s.Sound) : t.Sound := by
  rw [h.kept]
  exact ⟨hs.pipeline, hs.evidenced, hs.unique, hs.payloads, hs.conflicts, hs.observations,
    hs.evidence, hs.erased, hs.made, hs.accepted, hs.received⟩

variable (lib) in
/-- What an accepted delivery of an event with a receipt did. -/
theorem repeated_ok (s : IntakeState) (receiptId : Uuid) (receipt : DeliveryReceipt)
    (m : AcceptInput) (conflictId : Uuid) (now : ℕ) :
    (s.repeated lib receiptId receipt m conflictId now = (s, .duplicate) ∧
        receipt.isErased = false ∧ receipt.contentDigest = lib.sha256 m.body) ∨
      (s.repeated lib receiptId receipt m conflictId now).2 = .conflict ∧
        (receipt.isErased = false → receipt.contentDigest ≠ lib.sha256 m.body) ∧
        (s.repeated lib receiptId receipt m conflictId now).1 =
          (s.addConflict conflictId (conflictOf lib receiptId receipt m now)).noteError
            m.connectionId (conflictOf lib receiptId receipt m now).kind.text now := by
  unfold repeated
  split_ifs with hsame
  · simp only [Bool.and_eq_true, Bool.not_eq_true', decide_eq_true_eq] at hsame
    exact .inl ⟨rfl, hsame⟩
  · refine .inr ⟨rfl, fun herased hdigest => hsame ?_, rfl⟩
    simp [herased, hdigest]

variable {m : AcceptInput} {now : ℕ}

variable {conflictId receiptId : Uuid}

theorem Sound.addConflict (hs : s.Sound) (hreceipt : s.receipts.lookup receiptId = some receipt) :
    (s.addConflict conflictId (conflictOf lib receiptId receipt m now)).Sound :=
  { hs with
    conflicts := by
      intro k c hc
      rw [IntakeState.addConflict, Table.lookup_insert] at hc
      split_ifs at hc
      · obtain rfl := Option.some.inj hc
        exact ⟨receipt, hreceipt, fun herased => if_pos herased⟩
      · exact hs.conflicts k c hc }

/-- A receipt with an identifier that no receipt had. -/
theorem Sound.receive (hs : s.Sound) (hfresh : s.receipts.lookup receiptId = none)
    (hnew : s.receiptOf m.connectionId m.sourceEventId = none)
    (hconnection : receipt.connectionId = m.connectionId)
    (hevent : receipt.sourceEventId = m.sourceEventId) (hpending : receipt.state = .pending)
    (hdetail : receipt.stateDetail = none) : (s.received receiptId receipt m now).Sound := by
  have herased : receipt.isErased = false := by
    simp [DeliveryReceipt.isErased, hdetail]
  have hother : ∀ k r, s.receipts.lookup k = some r → r.connectionId = m.connectionId →
      r.sourceEventId ≠ m.sourceEventId := by
    intro k r hr hsame heq
    have hnot := Table.findRow_eq_none hnew hr
    simp [hsame, heq] at hnot
  have hnone : ¬ s.pipeline.hasObservation receiptId := by
    intro hthere
    obtain ⟨r, hr, -⟩ := (hs.observations receiptId).mp hthere
    rw [hfresh] at hr
    cases hr
  have hlookup : ∀ k, (s.receipts.insert receiptId receipt).lookup k =
      if k = receiptId then some receipt else s.receipts.lookup k :=
    fun k => Table.lookup_insert _ _ k _
  refine (noteAccepted_same _ _ _).sound { hs with
    unique := ?_, payloads := ?_, conflicts := ?_, observations := ?_, erased := ?_, made := ?_
    accepted := ?_, received := ?_ }
  · intro k k' r r' hr hr' hsame hsame'
    dsimp only at hr hr'
    rw [hlookup] at hr hr'
    split_ifs at hr with hk
    · obtain rfl := Option.some.inj hr
      split_ifs at hr' with hk'
      · rw [hk, hk']
      · exact absurd (hsame'.symm.trans hevent) (hother k' r' hr' (hsame.symm.trans hconnection))
    · split_ifs at hr' with hk'
      · obtain rfl := Option.some.inj hr'
        exact absurd (hsame'.trans hevent) (hother k r hr (hsame.trans hconnection))
      · exact hs.unique k k' r r' hr hr' hsame hsame'
  · intro k hk
    dsimp only at hk ⊢
    rw [Table.lookup_insert] at hk
    rw [hlookup]
    split_ifs at hk ⊢
    · exact ⟨receipt, rfl, herased⟩
    · exact hs.payloads k hk
  · intro k c hc
    obtain ⟨r, hr, hbody⟩ := hs.conflicts k c hc
    refine ⟨r, ?_, hbody⟩
    dsimp only
    rw [hlookup, if_neg fun heq => ?_]
    · exact hr
    · rw [heq, hfresh] at hr
      cases hr
  · intro k
    dsimp only
    rw [hs.observations, hlookup]
    by_cases hk : k = receiptId
    · rw [if_pos hk, hk, hfresh]
      constructor
      · rintro ⟨r, hr, -⟩
        cases hr
      · rintro ⟨r, hr, hprocessed, -⟩
        obtain rfl := Option.some.inj hr
        rw [hpending] at hprocessed
        cases hprocessed
    · rw [if_neg hk]
  · intro k r hr herased'
    dsimp only at hr
    rw [hlookup] at hr
    split_ifs at hr
    · obtain rfl := Option.some.inj hr
      rw [herased] at herased'
      cases herased'
    · exact hs.erased k r hr herased'
  · intro k
    have hmade := hs.made k
    unfold isProcessed at hmade ⊢
    dsimp only
    rw [hlookup]
    by_cases hk : k = receiptId
    · rw [hk, hfresh] at hmade
      rw [if_pos hk, hk, hmade]
      simp [hpending]
    · rw [if_neg hk]
      exact hmade
  · intro k
    dsimp only
    rw [List.count_append, hs.accepted]
    simp
  · intro k
    dsimp only
    rw [List.count_append, hs.received, hlookup]
    by_cases hk : k = receiptId
    · rw [if_pos hk, hk, hfresh]
      simp
    · have hne : receiptId ≠ k := Ne.symm hk
      simp [hk, hne]

/-- What an accepted call of `accept_delivery` did. -/
inductive Accepts (lib : IntakeLibrary) (s : IntakeState) (m : AcceptInput)
    (receiptId conflictId : Uuid) (now : ℕ) : IntakeState → AcceptOutcome → Prop where
  | accepted (row : DeliveryReceipt) (connection : IntakeConnection) (funnelId : Uuid)
      (campaignId : Option Uuid) (hnew : s.receiptOf m.connectionId m.sourceEventId = none)
      (hrow : row = receiptRow lib connection m funnelId campaignId now) :
      Accepts lib s m receiptId conflictId now (s.received receiptId row m now) .accepted
  | duplicate (existing : Uuid) (receipt : DeliveryReceipt)
      (hfound : s.receiptOf m.connectionId m.sourceEventId = some (existing, receipt))
      (herased : receipt.isErased = false) (hdigest : receipt.contentDigest = lib.sha256 m.body) :
      Accepts lib s m receiptId conflictId now s .duplicate
  | conflict (existing : Uuid) (receipt : DeliveryReceipt)
      (hfound : s.receiptOf m.connectionId m.sourceEventId = some (existing, receipt))
      (hdigest : receipt.isErased = false → receipt.contentDigest ≠ lib.sha256 m.body) :
      Accepts lib s m receiptId conflictId now
        ((s.addConflict conflictId (conflictOf lib existing receipt m now)).noteError
          m.connectionId (conflictOf lib existing receipt m now).kind.text now) .conflict

theorem accept_ok {caller : IntakeCaller} {outcome : AcceptOutcome}
    (h : s.accept lib m caller receiptId conflictId now = .ok (t, outcome)) :
    Accepts lib s m receiptId conflictId now t outcome := by
  unfold accept at h
  split at h
  · cases h
  next connection funnelId campaignId hadmitted =>
  split at h
  · next existing receipt hfound =>
    have heq := Except.ok.inj h
    obtain ⟨hsame, herased, hdigest⟩ | ⟨hconflict, hdigest, hnoted⟩ :=
      repeated_ok lib s existing receipt m conflictId now
    · rw [hsame] at heq
      obtain ⟨rfl, rfl⟩ := Prod.mk.inj heq
      exact .duplicate existing receipt hfound herased hdigest
    · rw [heq] at hconflict hnoted
      obtain rfl : outcome = .conflict := hconflict
      obtain rfl := hnoted
      exact .conflict existing receipt hfound hdigest
  · next hnew =>
    obtain ⟨rfl, rfl⟩ := Prod.mk.inj (Except.ok.inj h)
    exact .accepted _ connection funnelId campaignId hnew rfl

theorem Accepts.sound {outcome : AcceptOutcome}
    (h : Accepts lib s m receiptId conflictId now t outcome) (hs : s.Sound)
    (hfresh : s.receipts.lookup receiptId = none) : t.Sound := by
  cases h with
  | accepted row connection funnelId campaignId hnew hrow =>
    subst hrow
    exact hs.receive hfresh hnew rfl rfl rfl rfl
  | duplicate => exact hs
  | conflict existing receipt hfound hdigest =>
    exact (noteError_same _ _ _ _).sound (hs.addConflict (Table.findRow_eq_some hfound).1)

section Rewrite

variable {receipt' : DeliveryReceipt}

theorem lookup_rewrite (s : IntakeState) (id : Uuid) (receipt' : DeliveryReceipt) (k : Uuid) :
    (s.receipts.insert id receipt').lookup k =
      if k = id then some receipt' else s.receipts.lookup k := Table.lookup_insert _ _ _ _

/-- A row of a table where one receipt was rewritten has the event of the old row. -/
theorem event_of_rewrite (hreceipt : s.receipts.lookup id = some receipt)
    (hconnection : receipt'.connectionId = receipt.connectionId)
    (hevent : receipt'.sourceEventId = receipt.sourceEventId) {k : Uuid} {r : DeliveryReceipt}
    (hr : (s.receipts.insert id receipt').lookup k = some r) :
    ∃ q, s.receipts.lookup k = some q ∧ q.connectionId = r.connectionId ∧
      q.sourceEventId = r.sourceEventId := by
  rw [lookup_rewrite] at hr
  split_ifs at hr with hk
  · obtain rfl := Option.some.inj hr
    exact ⟨receipt, hk ▸ hreceipt, hconnection.symm, hevent.symm⟩
  · exact ⟨r, hr, rfl, rfl⟩

theorem Sound.unique_rewrite (hs : s.Sound) (hreceipt : s.receipts.lookup id = some receipt)
    (hconnection : receipt'.connectionId = receipt.connectionId)
    (hevent : receipt'.sourceEventId = receipt.sourceEventId) {k k' : Uuid}
    {r r' : DeliveryReceipt} (hr : (s.receipts.insert id receipt').lookup k = some r)
    (hr' : (s.receipts.insert id receipt').lookup k' = some r')
    (hsame : r.connectionId = r'.connectionId) (hsame' : r.sourceEventId = r'.sourceEventId) :
    k = k' := by
  obtain ⟨q, hq, hqc, hqe⟩ := event_of_rewrite hreceipt hconnection hevent hr
  obtain ⟨q', hq', hqc', hqe'⟩ := event_of_rewrite hreceipt hconnection hevent hr'
  exact hs.unique k k' q q' hq hq' ((hqc.trans hsame).trans hqc'.symm)
    ((hqe.trans hsame').trans hqe'.symm)

theorem Sound.received_rewrite (hs : s.Sound) (hreceipt : s.receipts.lookup id = some receipt)
    (k : Uuid) : s.published.count (.deliveryReceived k) =
      if ((s.receipts.insert id receipt').lookup k).isSome then 1 else 0 := by
  rw [hs.received, lookup_rewrite]
  by_cases hk : k = id
  · rw [hk, hreceipt]
    simp
  · rw [if_neg hk]

theorem Sound.isErased_of_pending (hs : s.Sound) (hreceipt : s.receipts.lookup id = some receipt)
    (hpending : receipt.state = .pending) : receipt.isErased = false := by
  cases hwas : receipt.isErased with
  | false => rfl
  | true =>
    have hprocessed := hs.erased id receipt hreceipt hwas
    rw [hpending] at hprocessed
    cases hprocessed

/-- Payloads and conflicts when one receipt was rewritten and is not erased. -/
theorem Sound.held_rewrite (hs : s.Sound) (hnot : receipt'.isErased = false) (k : Uuid)
    (hk : (s.payloads.lookup k).isSome = true) :
    ∃ r, (s.receipts.insert id receipt').lookup k = some r ∧ r.isErased = false := by
  obtain ⟨r, hr, herased⟩ := hs.payloads k hk
  rw [lookup_rewrite]
  split_ifs
  · exact ⟨receipt', rfl, hnot⟩
  · exact ⟨r, hr, herased⟩

theorem Sound.conflicts_rewrite (hs : s.Sound) (hnot : receipt'.isErased = false) (k : Uuid)
    (c : DeliveryConflict) (hc : s.conflicts.lookup k = some c) :
    ∃ r, (s.receipts.insert id receipt').lookup c.receiptId = some r ∧
      (r.isErased = true → c.body = none) := by
  obtain ⟨r, hr, hbody⟩ := hs.conflicts k c hc
  rw [lookup_rewrite]
  split_ifs with hk
  · refine ⟨receipt', rfl, fun hwas => ?_⟩
    rw [hnot] at hwas
    cases hwas
  · exact ⟨r, hr, hbody⟩

end Rewrite

/-- A pending receipt is refused. -/
theorem Sound.refuse {detail : String} (hs : s.Sound)
    (hreceipt : s.receipts.lookup id = some receipt) (hpending : receipt.state = .pending)
    (hdetail : detail ≠ observationDeleted) : (s.refuseReceipt id receipt detail now).Sound := by
  have hnot : DeliveryReceipt.isErased { receipt with
      state := .refused, stateDetail := some detail } = false := by
    simp [DeliveryReceipt.isErased, hdetail]
  refine (noteError_same _ _ _ _).sound { hs with
    unique := fun _ _ _ _ hr hr' => hs.unique_rewrite hreceipt (by rfl) (by rfl) hr hr'
    payloads := hs.held_rewrite hnot
    conflicts := hs.conflicts_rewrite hnot
    received := hs.received_rewrite hreceipt
    observations := ?_, erased := ?_, made := ?_ }
  · intro k
    dsimp only
    rw [hs.observations, lookup_rewrite]
    by_cases hk : k = id
    · rw [if_pos hk, hk, hreceipt]
      constructor
      · rintro ⟨r, hr, hprocessed, -⟩
        obtain rfl := Option.some.inj hr
        rw [hpending] at hprocessed
        cases hprocessed
      · rintro ⟨r, hr, hprocessed, -⟩
        obtain rfl := Option.some.inj hr
        cases hprocessed
    · rw [if_neg hk]
  · intro k r hr hwas
    dsimp only at hr
    rw [lookup_rewrite] at hr
    split_ifs at hr
    · obtain rfl := Option.some.inj hr
      rw [hnot] at hwas
      cases hwas
    · exact hs.erased k r hr hwas
  · intro k
    have hmade := hs.made k
    unfold isProcessed at hmade ⊢
    dsimp only
    rw [lookup_rewrite]
    by_cases hk : k = id
    · rw [hk, hreceipt] at hmade
      rw [if_pos hk, hk, hmade]
      simp [hpending]
    · rw [if_neg hk]
      exact hmade

/-- An observation was made, and what it led to was written. -/
structure Observes (s u : IntakeState) (id : Uuid) (row : ObservationRow) : Prop where
  kept : u = { s with
    pipeline := u.pipeline, evidence := s.evidence.insert id row, made := s.made ++ [id] }
  sound : u.pipeline.Sound
  evidenced : u.pipeline.Evidenced
  observations : ∀ o, u.pipeline.hasObservation o ↔ o = id ∨ s.pipeline.hasObservation o

/-- The receipt of an observation that was made is processed. -/
theorem Observes.finish {u : IntakeState} {row : ObservationRow} (h : Observes s u id row)
    (hs : s.Sound) (hreceipt : s.receipts.lookup id = some receipt)
    (hpending : receipt.state = .pending) : (u.finishReceipt id receipt now).Sound := by
  have hnot : DeliveryReceipt.isErased { receipt with
      state := .processed, processedAt := some now } = false := by
    have hwas := hs.isErased_of_pending hreceipt hpending
    exact hwas
  have hkept := h.kept
  have hreceipts : u.receipts = s.receipts := by rw [hkept]
  have hpayloads : u.payloads = s.payloads := by rw [hkept]
  have hconflicts : u.conflicts = s.conflicts := by rw [hkept]
  have hpublished : u.published = s.published := by rw [hkept]
  have hevidence : u.evidence = s.evidence.insert id row := by rw [hkept]
  have hmade : u.made = s.made ++ [id] := by rw [hkept]
  refine (noteProcessed_same _ _ _).sound
    { pipeline := h.sound, evidenced := h.evidenced, unique := ?_, payloads := ?_, conflicts := ?_
      received := ?_, observations := ?_, evidence := ?_, erased := ?_, made := ?_, accepted := ?_ }
  · dsimp only
    rw [hreceipts]
    exact fun _ _ _ _ hr hr' => hs.unique_rewrite hreceipt (by rfl) (by rfl) hr hr'
  · dsimp only
    rw [hreceipts, hpayloads]
    exact hs.held_rewrite hnot
  · dsimp only
    rw [hreceipts, hconflicts]
    exact hs.conflicts_rewrite hnot
  · intro k
    dsimp only
    rw [h.observations, hs.observations, hreceipts, lookup_rewrite]
    by_cases hk : k = id
    · rw [if_pos hk]
      exact ⟨fun _ => ⟨_, rfl, rfl, hnot⟩, fun _ => .inl hk⟩
    · rw [if_neg hk]
      exact ⟨fun hor => hor.resolve_left hk, .inr⟩
  · intro k
    dsimp only
    rw [h.observations, hevidence, Table.lookup_insert, ← hs.evidence]
    by_cases hk : k = id
    · simp [hk]
    · simp [hk]
  · intro k r hr hwas
    dsimp only at hr
    rw [hreceipts, lookup_rewrite] at hr
    split_ifs at hr
    · obtain rfl := Option.some.inj hr
      exact absurd hwas (by rw [hnot]; decide)
    · exact hs.erased k r hr hwas
  · intro k
    have hcount := hs.made k
    unfold isProcessed at hcount ⊢
    dsimp only
    rw [hreceipts, lookup_rewrite, hmade, List.count_append, hcount]
    by_cases hk : k = id
    · rw [hk, hreceipt]
      simp [hpending]
    · have hne : id ≠ k := Ne.symm hk
      simp [hk, hne]
  · intro k
    dsimp only
    rw [hpublished, hmade, List.count_append, List.count_append, hs.accepted]
    by_cases hk : k = id
    · simp [hk]
    · have hne : id ≠ k := Ne.symm hk
      simp [hne]
  · intro k
    dsimp only
    rw [hreceipts, hpublished, List.count_append, hs.received]
    rw [lookup_rewrite]
    by_cases hk : k = id
    · rw [if_pos hk, hk, hreceipt]
      simp
    · rw [if_neg hk]
      simp

/-- The facts that are left after an erasure are not of the erased observation. -/
theorem linkedFacts_linksWithout (hs : s.Sound) {obsId : Uuid}
    (h : fact ∈ s.linkedFacts (s.linksWithout obsId) id) :
    fact.observationId ≠ obsId ∧ s.pipeline.hasObservation fact.observationId := by
  obtain ⟨hkey, hthere⟩ := evidence_of_linkedFacts h
  refine ⟨?_, (hs.evidence _).mp hthere⟩
  have hlink := AList.lookup_isSome.mpr (AList.mem_keys.mpr hkey)
  obtain ⟨-, hne⟩ := (Table.isSome_deleteWhere (p := fun k : Uuid × Uuid => k.2 = obsId)).mp hlink
  exact of_decide_eq_false hne

/-- What an erasure did: the receipt is left, without anything that it brought. -/
theorem deleteObservation_ok {obsId : ℕ} (hs : s.Sound)
    (h : s.deleteObservation parse obsId now = .ok t) :
    t.Sound ∧ ∃ receipt, s.receipts.lookup obsId = some receipt ∧
      t.receipts = s.receipts.insert obsId { receipt with stateDetail := some observationDeleted } ∧
      t.published = s.published ∧ t.made = s.made := by
  unfold deleteObservation at h
  split at h
  · cases h
  next p hp =>
  have hthere : s.pipeline.hasObservation obsId := by
    unfold PipelineState.deleteObservation at hp
    split_ifs at hp with hnone
    simpa [PipelineState.hasObservation, Option.isSome_iff_ne_none] using hnone
  obtain ⟨hevidenced, hobservations⟩ := PipelineState.deleteObservation_evidenced hs.evidenced
    (fun k fact hfact => linkedFacts_linksWithout hs hfact) hp
  have hpipeline := (PipelineState.deleteObservation_ok hp).sound hs.pipeline
  obtain ⟨receipt, hreceipt, hprocessed, hnot⟩ := (hs.observations obsId).mp hthere
  have herased : DeliveryReceipt.isErased { receipt with
      stateDetail := some observationDeleted } = true := by
    simp [DeliveryReceipt.isErased]
  have hhas : ∀ o, p.hasObservation o ↔ o ≠ obsId ∧ s.pipeline.hasObservation o := by
    intro o
    unfold PipelineState.hasObservation
    rw [hobservations]
    by_cases ho : o = obsId
    · rw [ho, AList.lookup_erase]
      simp
    · rw [AList.lookup_erase_ne ho]
      simp [ho]
  obtain rfl := Except.ok.inj h
  have hkept : ∃ postings, onObservationDeleted { s with
      pipeline := p, evidence := s.evidence.erase obsId } obsId = { s with
        pipeline := p
        evidence := s.evidence.erase obsId
        postings := postings
        payloads := s.payloads.erase obsId
        conflicts := s.conflicts.updateAll fun _ conflict =>
          if conflict.receiptId = obsId then { conflict with body := none } else conflict
        receipts := s.receipts.insert obsId
          { receipt with stateDetail := some observationDeleted } } := by
    unfold onObservationDeleted
    dsimp only
    rw [hreceipt]
    dsimp only
    split_ifs
    · exact ⟨_, rfl⟩
    · exact ⟨_, rfl⟩
  obtain ⟨postings, hkept⟩ := hkept
  rw [hkept]
  refine ⟨{ pipeline := hpipeline, evidenced := hevidenced, accepted := hs.accepted
            unique := ?_, payloads := ?_, conflicts := ?_, observations := ?_, evidence := ?_
            erased := ?_, made := ?_, received := ?_ }, receipt, hreceipt, rfl, rfl, rfl⟩
  · exact fun _ _ _ _ hr hr' => hs.unique_rewrite hreceipt (by rfl) (by rfl) hr hr'
  · intro k hk
    dsimp only at hk ⊢
    rw [lookup_rewrite]
    by_cases hsame : k = obsId
    · rw [hsame, AList.lookup_erase] at hk
      cases hk
    · rw [AList.lookup_erase_ne hsame] at hk
      rw [if_neg hsame]
      exact hs.payloads k hk
  · intro k c hc
    dsimp only at hc ⊢
    rw [Table.lookup_updateAll] at hc
    obtain ⟨old, hold, rfl⟩ := Option.map_eq_some_iff.mp hc
    obtain ⟨r, hr, hbody⟩ := hs.conflicts k old hold
    rw [lookup_rewrite]
    by_cases hsame : old.receiptId = obsId
    · rw [if_pos hsame, if_pos hsame]
      exact ⟨_, rfl, fun _ => rfl⟩
    · rw [if_neg hsame, if_neg hsame]
      exact ⟨r, hr, hbody⟩
  · intro k
    dsimp only
    rw [hhas, hs.observations, lookup_rewrite]
    by_cases hk : k = obsId
    · rw [if_pos hk]
      constructor
      · rintro ⟨hne, -⟩
        exact absurd hk hne
      · rintro ⟨r, hr, -, hnot⟩
        obtain rfl := Option.some.inj hr
        rw [herased] at hnot
        cases hnot
    · rw [if_neg hk]
      exact ⟨And.right, fun hr => ⟨hk, hr⟩⟩
  · intro k
    dsimp only
    rw [hhas, ← hs.evidence]
    by_cases hk : k = obsId
    · rw [hk, AList.lookup_erase]
      simp
    · rw [AList.lookup_erase_ne hk]
      simp [hk]
  · intro k r hr hwas
    dsimp only at hr
    rw [lookup_rewrite] at hr
    split_ifs at hr
    · obtain rfl := Option.some.inj hr
      exact hprocessed
    · exact hs.erased k r hr hwas
  · intro k
    have hcount := hs.made k
    unfold isProcessed at hcount ⊢
    dsimp only
    rw [lookup_rewrite]
    by_cases hk : k = obsId
    · rw [hk, hreceipt] at hcount
      rw [if_pos hk, hk]
      exact hcount
    · rw [if_neg hk]
      exact hcount
  · exact fun k => hs.received_rewrite hreceipt k

/-- The opportunities changed, and what intake keeps did not. -/
theorem Sound.pipeline_keeps {p : PipelineState} (hs : s.Sound)
    (h : PipelineState.Keeps s.pipeline p) : Sound { s with pipeline := p } :=
  { hs with
    pipeline := h.sound
    evidenced := h.evidenced
    observations := fun k => (h.observations k).trans (hs.observations k)
    evidence := fun k => (hs.evidence k).trans (h.observations k).symm }

theorem deleteOpportunity_ok {revision : ℕ} (hs : s.Sound)
    (h : s.deleteOpportunity id revision = .ok t) :
    t.Sound ∧ t.receipts = s.receipts ∧ t.published = s.published ∧ t.made = s.made := by
  unfold deleteOpportunity at h
  split at h
  · cases h
  next p hp =>
  obtain ⟨hevidenced, hobservations⟩ := PipelineState.deleteOpportunity_evidenced hs.evidenced hp
  have hpipeline := (PipelineState.deleteOpportunity_ok hp).1.sound hs.pipeline
  have hkeeps : PipelineState.Keeps s.pipeline p := by
    refine ⟨hpipeline, hevidenced, fun o => ?_⟩
    rw [PipelineState.hasObservation, hobservations, PipelineState.hasObservation]
  have hsound := hs.pipeline_keeps hkeeps
  obtain rfl := Except.ok.inj h
  dsimp only
  split
  · exact ⟨hsound, rfl, rfl, rfl⟩
  · exact ⟨⟨hsound.pipeline, hsound.evidenced, hsound.unique, hsound.payloads, hsound.conflicts,
      hsound.observations, hsound.evidence, hsound.erased, hsound.made, hsound.accepted,
      hsound.received⟩, rfl, rfl, rfl⟩

end IntakeState

end Rheostream.Leads
