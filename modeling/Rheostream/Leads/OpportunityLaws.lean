import Rheostream.Leads.Opportunity
import Rheostream.Leads.Replay

/-!
# What every command keeps

The unique constraints on connections and receipts identify the evidence, and every
command leaves the fields showing it: a field the user does not own has the row a replay
of the linked observations gives it, and the title is the one those fields call for.
-/

namespace Rheostream.Leads

variable {preset : Preset} {s t : State} {a : Action}

variable {id : Uuid}

theorem mem_factsOf {connections : Table Uuid Connection} {observations : Table Uuid Observation}
    {fact : Fact} :
    fact ∈ factsOf connections observations id ↔
      ∃ observation connection target extracted, observations.lookup id = some observation ∧
        connections.lookup observation.connectionId = some connection ∧
        observation.facts.lookup target = some extracted ∧
        fact = factRow id observation connection target extracted := by
  unfold factsOf
  cases hobservation : observations.lookup id with
  | none => simp
  | some observation =>
    cases hconnection : connections.lookup observation.connectionId with
    | none => simp [hconnection]
    | some connection =>
      simp only [List.mem_map, Option.some.injEq, exists_and_left, exists_eq_left', hconnection]
      constructor
      · rintro ⟨⟨target, extracted⟩, hmem, rfl⟩
        exact ⟨target, extracted, AList.mem_lookup_iff.mpr hmem, rfl⟩
      · rintro ⟨target, extracted, hlookup, rfl⟩
        exact ⟨⟨target, extracted⟩, AList.mem_lookup_iff.mp hlookup, rfl⟩

theorem mem_evidence {fact : Fact} :
    fact ∈ s.evidence ↔ ∃ id ∈ s.linked, fact ∈ factsOf s.connections s.observations id := by
  simp [State.evidence]

/-- The evidence reads nothing but the linked observations and their connections. -/
theorem evidence_congr (hlinked : s.linked = t.linked)
    (hfacts : ∀ id ∈ s.linked,
      factsOf s.connections s.observations id = factsOf t.connections t.observations id) :
    s.evidence = t.evidence := by
  unfold State.evidence
  rw [← hlinked]
  apply Multiset.bind_congr
  intro id hid
  rw [hfacts id hid]

theorem factsOf_congr {connections connections' : Table Uuid Connection}
    {observations observations' : Table Uuid Observation}
    (hobservation : observations.lookup id = observations'.lookup id)
    (hconnection : ∀ observation, observations.lookup id = some observation →
      connections.lookup observation.connectionId = connections'.lookup observation.connectionId)
    : factsOf connections observations id = factsOf connections' observations' id := by
  unfold factsOf
  rw [← hobservation]
  cases hlookup : observations.lookup id with
  | none => rfl
  | some observation => simp only [hconnection observation hlookup]

/-- The keys the database keeps unique, and the rows they refer to. -/
structure State.WellFormed (s : State) : Prop where
  namespaces : ∀ id id' c c', s.connections.lookup id = some c →
    s.connections.lookup id' = some c' → c.sourceNamespace = c'.sourceNamespace → id = id'
  events : ∀ id id' r r', s.receipts.lookup id = some r → s.receipts.lookup id' = some r' →
    r.connectionId = r'.connectionId → r.sourceEventId = r'.sourceEventId → id = id'
  connected : ∀ id r, s.receipts.lookup id = some r →
    (s.connections.lookup r.connectionId).isSome = true
  received : ∀ id o, s.observations.lookup id = some o → ∃ r, s.receipts.lookup id = some r ∧
    r.isOpen = false ∧ r.connectionId = o.connectionId ∧ r.sourceEventId = o.sourceEventId
  observed : ∀ id ∈ s.linked, (s.observations.lookup id).isSome = true

variable {rows : List Fact}

/-- The evidence of a well-formed state is identified by observation and by event. -/
theorem State.WellFormed.identified (h : s.WellFormed) (hrows : (rows : Multiset Fact) = s.evidence)
    : Identified rows := by
  have hmem (fact : Fact) (hfact : fact ∈ rows) : ∃ id ∈ s.linked,
      fact ∈ factsOf s.connections s.observations id := by
    rw [← mem_evidence, ← hrows]
    exact hfact
  constructor
  · intro a ha b hb hkey
    obtain ⟨id, -, hid⟩ := hmem a ha
    obtain ⟨id', -, hid'⟩ := hmem b hb
    obtain ⟨o, c, target, e, ho, hc, he, rfl⟩ := mem_factsOf.mp hid
    obtain ⟨o', c', target', e', ho', hc', he', rfl⟩ := mem_factsOf.mp hid'
    obtain ⟨rfl, rfl⟩ : target = target' ∧ id = id' := by simpa [factRow] using hkey
    obtain rfl : o = o' := by simpa [ho] using ho'
    obtain rfl : c = c' := by simpa [hc] using hc'
    obtain rfl : e = e' := by simpa [he] using he'
    rfl
  · intro a ha b hb hkey
    obtain ⟨id, -, hid⟩ := hmem a ha
    obtain ⟨id', -, hid'⟩ := hmem b hb
    obtain ⟨o, c, target, e, ho, hc, he, rfl⟩ := mem_factsOf.mp hid
    obtain ⟨o', c', target', e', ho', hc', he', rfl⟩ := mem_factsOf.mp hid'
    obtain ⟨rfl, hnamespace, hevent⟩ : target = target' ∧ c.sourceNamespace = c'.sourceNamespace ∧
      o.sourceEventId = o'.sourceEventId := by simpa [factRow] using hkey
    -- The namespace names the connection, and the connection with the event the receipt.
    have hconnection := h.namespaces _ _ c c' hc hc' hnamespace
    obtain ⟨r, hr, -, hrconnection, hrevent⟩ := h.received id o ho
    obtain ⟨r', hr', -, hrconnection', hrevent'⟩ := h.received id' o' ho'
    obtain rfl : id = id' := h.events id id' r r' hr hr'
      (by rw [hrconnection, hrconnection', hconnection]) (by rw [hrevent, hrevent', hevent])
    obtain rfl : o = o' := by simpa [ho] using ho'
    obtain rfl : c = c' := by simpa [hc] using hc'
    obtain rfl : e = e' := by simpa [he] using he'
    rfl

/-- A linked observation's connection is there. -/
theorem State.WellFormed.connection_isSome (h : s.WellFormed) {o : Observation}
    (ho : s.observations.lookup id = some o) :
    (s.connections.lookup o.connectionId).isSome = true := by
  obtain ⟨r, hr, -, hconnection, -⟩ := h.received id o ho
  rw [← hconnection]
  exact h.connected id r hr

theorem rederive_eq_some :
    s.rederive preset rows = some t ↔ (rows : Multiset Fact) = s.evidence ∧
      t = { s with
        fields := (derive preset s.fields rows).1
        title := (derive preset s.fields rows).2 } := by
  simp only [State.rederive, Option.ite_none_right_eq_some, Option.some.injEq, @eq_comm _ t]

namespace State.WellFormed

theorem of_isInserted (h : s.IsInserted) : s.WellFormed := by
  obtain ⟨hconnections, hreceipts, hobservations, hlinked, -, -⟩ := h
  constructor <;> simp [hconnections, hreceipts, hobservations, hlinked]

/-- Nothing here reads the fields or the title. -/
theorem set_fields (h : s.WellFormed) (fields : Fields) (title : String) :
    { s with fields := fields, title := title }.WellFormed :=
  ⟨h.namespaces, h.events, h.connected, h.received, h.observed⟩

variable {id : Uuid}

theorem link (h : s.WellFormed) (hid : (s.observations.lookup id).isSome = true) :
    { s with linked := insert id s.linked }.WellFormed := by
  refine ⟨h.namespaces, h.events, h.connected, h.received, fun id' hid' => ?_⟩
  obtain rfl | hid' := Finset.mem_insert.mp hid'
  · exact hid
  · exact h.observed id' hid'

theorem rederive (h : s.WellFormed) (ht : s.rederive preset rows = some t) :
    t.WellFormed := by
  obtain ⟨-, rfl⟩ := rederive_eq_some.mp ht
  exact h.set_fields _ _

theorem removeObservation (h : s.WellFormed) (id : Uuid) : (s.removeObservation id).WellFormed := by
  have hreceipt (k : Uuid) (r : Receipt)
      (hr : (s.removeObservation id).receipts.lookup k = some r) :
      ∃ r', s.receipts.lookup k = some r' ∧ r'.connectionId = r.connectionId ∧
        r'.sourceEventId = r.sourceEventId := by
    simp only [State.removeObservation, Table.lookup_updateAll, Option.map_eq_some_iff] at hr
    obtain ⟨r', hr', rfl⟩ := hr
    refine ⟨r', hr', ?_⟩
    split <;> exact ⟨rfl, rfl⟩
  constructor
  · exact h.namespaces
  · intro k k' r r' hr hr' hconnection hevent
    obtain ⟨q, hq, hqc, hqe⟩ := hreceipt k r hr
    obtain ⟨q', hq', hqc', hqe'⟩ := hreceipt k' r' hr'
    exact h.events k k' q q' hq hq' (by rw [hqc, hqc', hconnection]) (by rw [hqe, hqe', hevent])
  · intro k r hr
    obtain ⟨q, hq, hqc, -⟩ := hreceipt k r hr
    rw [← hqc]
    exact h.connected k q hq
  · intro k o ho
    have hne : k ≠ id := by
      rintro rfl
      simp [State.removeObservation] at ho
    have ho' : s.observations.lookup k = some o := by
      simpa [State.removeObservation, AList.lookup_erase_ne hne] using ho
    obtain ⟨r, hr, hopen⟩ := h.received k o ho'
    refine ⟨r, ?_, hopen⟩
    simp [State.removeObservation, hr, hne]
  · intro k hk
    obtain ⟨hne, hk⟩ := Finset.mem_erase.mp hk
    simpa [State.removeObservation, AList.lookup_erase_ne hne] using h.observed k hk

theorem connect (h : s.WellFormed) {connection : Connection}
    (hfresh : ∀ k c, s.connections.lookup k = some c →
      c.sourceNamespace ≠ connection.sourceNamespace)
    : { s with connections := s.connections.insert id connection }.WellFormed := by
  refine ⟨?_, h.events, ?_, h.received, h.observed⟩
  · intro k k' c c' hc hc' hname
    simp only [Table.lookup_insert] at hc hc'
    split at hc <;> split at hc'
    case isTrue.isTrue hk hk' => rw [hk, hk']
    case isTrue.isFalse =>
      obtain rfl := Option.some.inj hc
      exact absurd hname.symm (hfresh k' c' hc')
    case isFalse.isTrue =>
      obtain rfl := Option.some.inj hc'
      exact absurd hname (hfresh k c hc)
    case isFalse.isFalse => exact h.namespaces k k' c c' hc hc' hname
  · intro k r hr
    have hold := h.connected k r hr
    simp only [Table.lookup_insert]
    split
    · rfl
    · exact hold

theorem accept (h : s.WellFormed) {connectionId : Uuid} {event : String}
    (hconnection : (s.connections.lookup connectionId).isSome = true)
    (hid : s.receipts.lookup id = none)
    (hfresh : ∀ k r, s.receipts.lookup k = some r → r.connectionId = connectionId →
      r.sourceEventId ≠ event) :
    { s with
      receipts := s.receipts.insert id ⟨connectionId, event, .pending, false⟩ }.WellFormed := by
  refine ⟨h.namespaces, ?_, ?_, ?_, h.observed⟩
  · intro k k' r r' hr hr' hconnection hevent
    simp only [Table.lookup_insert] at hr hr'
    split at hr <;> split at hr'
    case isTrue.isTrue hk hk' => rw [hk, hk']
    case isTrue.isFalse =>
      obtain rfl := Option.some.inj hr
      exact absurd hevent.symm (hfresh k' r' hr' hconnection.symm)
    case isFalse.isTrue =>
      obtain rfl := Option.some.inj hr'
      exact absurd hevent (hfresh k r hr hconnection)
    case isFalse.isFalse => exact h.events k k' r r' hr hr' hconnection hevent
  · intro k r hr
    simp only [Table.lookup_insert] at hr
    split at hr
    · obtain rfl := Option.some.inj hr
      exact hconnection
    · exact h.connected k r hr
  · intro k o ho
    obtain ⟨r, hr, hreceived⟩ := h.received k o ho
    have hne : k ≠ id := by
      rintro rfl
      simp [hid] at hr
    exact ⟨r, by simpa [hne] using hr, hreceived⟩

/-- A receipt is closed by a row that keeps its connection and its event. -/
theorem close (h : s.WellFormed) {receipt receipt' : Receipt}
    (hreceipt : s.receipts.lookup id = some receipt) (hclosed : receipt'.isOpen = false)
    (hconnection : receipt'.connectionId = receipt.connectionId)
    (hevent : receipt'.sourceEventId = receipt.sourceEventId) :
    { s with receipts := s.receipts.insert id receipt' }.WellFormed := by
  have hold (k : Uuid) (r : Receipt) (hr : (s.receipts.insert id receipt').lookup k = some r) :
      ∃ q, s.receipts.lookup k = some q ∧ q.connectionId = r.connectionId ∧
        q.sourceEventId = r.sourceEventId := by
    simp only [Table.lookup_insert] at hr
    split at hr
    case isTrue hk =>
      subst hk
      obtain rfl := Option.some.inj hr
      exact ⟨receipt, hreceipt, hconnection.symm, hevent.symm⟩
    case isFalse => exact ⟨r, hr, rfl, rfl⟩
  refine ⟨h.namespaces, ?_, ?_, ?_, h.observed⟩
  · intro k k' r r' hr hr' hconnection hevent
    obtain ⟨q, hq, hqc, hqe⟩ := hold k r hr
    obtain ⟨q', hq', hqc', hqe'⟩ := hold k' r' hr'
    exact h.events k k' q q' hq hq' (by rw [hqc, hqc', hconnection]) (by rw [hqe, hqe', hevent])
  · intro k r hr
    obtain ⟨q, hq, hqc, -⟩ := hold k r hr
    rw [← hqc]
    exact h.connected k q hq
  · intro k o ho
    obtain ⟨r, hr, hopen, hrc, hre⟩ := h.received k o ho
    by_cases hk : k = id
    · subst hk
      obtain rfl : receipt = r := by simpa [hreceipt] using hr
      exact ⟨receipt', by simp, hclosed, hconnection.trans hrc, hevent.trans hre⟩
    · exact ⟨r, by simpa [hk] using hr, hopen, hrc, hre⟩

theorem observe (h : s.WellFormed) {receipt : Receipt} {o : Observation}
    (hreceipt : s.receipts.lookup id = some receipt) (hclosed : receipt.isOpen = false)
    (hconnection : receipt.connectionId = o.connectionId)
    (hevent : receipt.sourceEventId = o.sourceEventId) :
    { s with observations := s.observations.insert id o }.WellFormed := by
  refine ⟨h.namespaces, h.events, h.connected, ?_, ?_⟩
  · intro k o' ho'
    simp only [Table.lookup_insert] at ho'
    split at ho'
    case isTrue hk =>
      subst hk
      obtain rfl := Option.some.inj ho'
      exact ⟨receipt, hreceipt, hclosed, hconnection, hevent⟩
    case isFalse => exact h.received k o' ho'
  · intro k hk
    have hold := h.observed k hk
    simp only [Table.lookup_insert]
    split
    · rfl
    · exact hold

end State.WellFormed

/-- A new link is derived, a known one changes nothing, and a missing observation is refused. -/
theorem attach_cases (h : s.attach preset id rows = some t) :
    (s.observations.lookup id).isSome = true ∧ (id ∈ s.linked ∧ t = s ∨
      id ∉ s.linked ∧ { s with linked := insert id s.linked }.rederive preset rows = some t) := by
  unfold State.attach at h
  split at h
  case isTrue => cases h
  case isFalse hobserved =>
    have hobserved : (s.observations.lookup id).isSome = true := by
      simpa [Option.isSome_iff_ne_none] using hobserved
    split at h
    case isTrue hlinked => exact ⟨hobserved, .inl ⟨hlinked, (Option.some.inj h).symm⟩⟩
    case isFalse hlinked => exact ⟨hobserved, .inr ⟨hlinked, h⟩⟩

theorem eraseObservation_cases (h : s.eraseObservation preset id rows = some t) :
    (s.observations.lookup id).isSome = true ∧
      (id ∈ s.linked ∧ (s.removeObservation id).rederive preset rows = some t ∨
        id ∉ s.linked ∧ t = s.removeObservation id) := by
  unfold State.eraseObservation at h
  split at h
  case isTrue => cases h
  case isFalse hobserved =>
    have hobserved : (s.observations.lookup id).isSome = true := by
      simpa [Option.isSome_iff_ne_none] using hobserved
    split at h
    case isTrue hlinked => exact ⟨hobserved, .inl ⟨hlinked, h⟩⟩
    case isFalse hlinked => exact ⟨hobserved, .inr ⟨hlinked, (Option.some.inj h).symm⟩⟩

/-- Processing observes an open receipt and closes it. -/
theorem process_eq_some {occurredAt : ℕ} {facts : Table String ExtractedFact} :
    step preset s (.process id occurredAt facts) = some t ↔
      ∃ receipt, s.receipts.lookup id = some receipt ∧ receipt.isOpen = true ∧
        { s with
          observations := s.observations.insert id (createObservation receipt occurredAt facts)
          receipts := s.receipts.insert id { receipt with state := .processed } } = t := by
  simp only [step]
  cases s.receipts.lookup id <;> simp

/-- Refusing closes an open receipt. -/
theorem refuse_eq_some :
    step preset s (.refuse id) = some t ↔
      ∃ receipt, s.receipts.lookup id = some receipt ∧ receipt.isOpen = true ∧
        { s with receipts := s.receipts.insert id { receipt with state := .refused } } = t := by
  simp only [step]
  cases s.receipts.lookup id <;> simp

/-- The intake of a delivery, from its connection to its observation. -/
def Action.IsIntake : Action → Prop
  | .connect .. | .accept .. | .process .. | .refuse .. => True
  | .attach .. | .erase .. | .derive .. | .edit .. => False

/-- Intake writes neither the links of the opportunity nor its fields. -/
theorem step_intake (ha : a.IsIntake) (h : step preset s a = some t) :
    t.linked = s.linked ∧ t.fields = s.fields ∧ t.title = s.title := by
  cases a with
  | connect id connection =>
    simp only [step, Option.ite_none_left_eq_some, Option.some.injEq] at h
    obtain ⟨-, rfl⟩ := h
    exact ⟨rfl, rfl, rfl⟩
  | accept id connectionId event =>
    simp only [step, Option.ite_none_left_eq_some] at h
    obtain ⟨-, h⟩ := h
    split at h <;> cases h <;> exact ⟨rfl, rfl, rfl⟩
  | process id occurredAt facts =>
    obtain ⟨_, -, -, rfl⟩ := process_eq_some.mp h
    exact ⟨rfl, rfl, rfl⟩
  | refuse id =>
    obtain ⟨_, -, -, rfl⟩ := refuse_eq_some.mp h
    exact ⟨rfl, rfl, rfl⟩
  | attach id rows => cases ha
  | erase id rows => cases ha
  | derive rows => cases ha
  | edit fields title => cases ha

theorem edit_eq_some {edits : List (String × Option String)} {title : Option String} :
    s.edit preset edits title = some t ↔
      ¬(edits.length > 100 ∨ ∃ text ∈ title, text.length = 0 ∨ text.length > 2000) ∧
        ∃ edited, editFields preset s.fields edits = some edited ∧
          t = s.storeEdit edited title := by
  simp only [State.edit, Option.ite_none_left_eq_some, Option.map_eq_some_iff, @eq_comm _ t]

/-- Every command keeps the unique keys and the references. -/
theorem State.WellFormed.step (h : s.WellFormed) (hstep : step preset s a = some t) :
    t.WellFormed := by
  cases a with
  | connect id connection =>
    simp only [Leads.step, Option.ite_none_left_eq_some, Option.some.injEq, Bool.or_eq_true,
      not_or, Bool.not_eq_true, Table.existsRow_eq_false, decide_eq_false_iff_not] at hstep
    obtain ⟨⟨-, hfresh⟩, rfl⟩ := hstep
    exact h.connect hfresh
  | accept id connectionId event =>
    simp only [Leads.step, Option.ite_none_left_eq_some, Bool.or_eq_true, not_or] at hstep
    obtain ⟨⟨hconnection, hid⟩, hstep⟩ := hstep
    split at hstep
    · exact Option.some.inj hstep ▸ h
    case isFalse hfresh =>
      obtain rfl := Option.some.inj hstep
      rw [Bool.not_eq_true, Table.existsRow_eq_false] at hfresh
      apply h.accept (by simpa [Option.isSome_iff_ne_none] using hconnection) (by simpa using hid)
      intro k r hr hrconnection
      have hne := hfresh k r hr
      simpa [hrconnection] using hne
  | process id occurredAt facts =>
    obtain ⟨receipt, hreceipt, -, rfl⟩ := process_eq_some.mp hstep
    let receipt' : Receipt := { receipt with state := .processed }
    have hopen : receipt'.isOpen = false := by simp [receipt', Receipt.isOpen]
    have hclosed : { s with receipts := s.receipts.insert id receipt' }.WellFormed :=
      h.close hreceipt hopen rfl rfl
    have hlookup : (s.receipts.insert id receipt').lookup id = some receipt' := by simp
    exact hclosed.observe hlookup hopen rfl rfl
  | refuse id =>
    obtain ⟨receipt, hreceipt, -, rfl⟩ := refuse_eq_some.mp hstep
    exact h.close hreceipt (by simp [Receipt.isOpen]) rfl rfl
  | attach id rows =>
    obtain ⟨hid, ⟨-, rfl⟩ | ⟨-, hderive⟩⟩ := attach_cases hstep
    · exact h
    · exact (h.link hid).rederive hderive
  | erase id rows =>
    obtain ⟨-, ⟨-, hderive⟩ | ⟨-, rfl⟩⟩ := eraseObservation_cases hstep
    · exact (h.removeObservation id).rederive hderive
    · exact h.removeObservation id
  | derive rows => exact h.rederive hstep
  | edit edits title =>
    obtain ⟨-, edited, -, rfl⟩ := edit_eq_some.mp hstep
    cases title <;> exact h.set_fields _ _

end Rheostream.Leads
