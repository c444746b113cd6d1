import Rheostream.Leads.OpportunityLaws

/-!
# The fields are a function of the linked set

In every reachable state a field the user does not own shows the replay of the linked
observations, so two histories that end with the same links end with the same fields,
deriving again changes nothing, and an erased observation leaves no trace.
-/

namespace Rheostream.Leads

variable {preset : Preset} {s t : State} {a : Action}

/-- Every row without a user shows the evidence, and the title follows from the rows. -/
structure State.Shows (preset : Preset) (s : State) : Prop where
  owned : ∀ target row, s.fields.lookup target = some row →
    row.orphaned = false ∧ (row.owner = .user → row.observationId = none)
  replayed : ∀ rows : List Fact, (rows : Multiset Fact) = s.evidence → ∀ target,
    replayedElsewhere (s.fields.lookup target) = false →
      s.fields.lookup target = shown preset rows target
  title : s.title = titleOf s.fields

variable {rows : List Fact} {target : String}

theorem shownFact_mem {fact : Fact} (h : shownFact preset rows target = some fact) :
    fact ∈ rows := by
  unfold shownFact at h
  split at h
  · unfold competitionFact at h
    split at h
    · cases h
    · obtain ⟨hown, -⟩ := Option.filter_eq_some_iff.mp h
      exact (Identified.mem_candidates (lastWith_mem hown).1).1
  · unfold replay at h
    split at h
    · cases h
    case h_2 first rest hsorted =>
      have hmem (best : Fact) (later : List Fact) : later.foldl prefer best ∈ best :: later := by
        induction later generalizing best with
        | nil => simp
        | cons next later ih =>
          have hnext := ih (prefer best next)
          rw [List.foldl_cons]
          rcases List.mem_cons.mp hnext with heq | hlater
          · rw [heq, prefer]
            split <;> simp
          · simp [hlater]
      have hfact : fact ∈ sortedBy replayKey ((candidates preset rows target).filter
          (isCurrent (clearCutoff (candidates preset rows target)))) := by
        rw [hsorted, ← Option.some.inj h]
        exact hmem first rest
      have hcandidate := (sortedBy_perm _ _).mem_iff.mp hfact
      exact (Identified.mem_candidates (List.mem_of_mem_filter hcandidate)).1

/-- All fields of the competition group come from one observation. -/
theorem competitionFact_one {target' : String} {fact fact' : Fact}
    (h : competitionFact preset rows target = some fact)
    (h' : competitionFact preset rows target' = some fact') :
    fact.observationId = fact'.observationId := by
  unfold competitionFact at h h'
  split at h
  · cases h
  case h_2 winner hwinner =>
    simp only [hwinner] at h'
    obtain ⟨hown, -⟩ := Option.filter_eq_some_iff.mp h
    obtain ⟨hown', -⟩ := Option.filter_eq_some_iff.mp h'
    exact (lastWith_mem hown).2.trans (lastWith_mem hown').2.symm

/-- A row `derive` leaves is the old user-owned one or comes from the evidence. -/
theorem derive_row {fields : Fields} {row : FieldState}
    (h : (derive preset fields rows).1.lookup target = some row) :
    fields.lookup target = some row ∨ ∃ fact ∈ rows, row = .ofFact fact := by
  rw [lookup_derive] at h
  split at h
  · exact .inl h
  · obtain ⟨fact, hfact, rfl⟩ := Option.map_eq_some_iff.mp h
    exact .inr ⟨fact, shownFact_mem hfact, rfl⟩

/-- Deriving makes the fields show the evidence, whatever unowned rows there were. -/
theorem State.WellFormed.shows_of_rederive (h : s.WellFormed)
    (howned : ∀ target row, s.fields.lookup target = some row →
      row.orphaned = false ∧ (row.owner = .user → row.observationId = none))
    (ht : s.rederive preset rows = some t) : t.Shows preset := by
  obtain ⟨hrows, rfl⟩ := rederive_eq_some.mp ht
  constructor
  · intro target row hrow
    obtain hold | ⟨fact, -, rfl⟩ := derive_row hrow
    · exact howned target row hold
    · exact ⟨rfl, fun h => by cases h⟩
  · intro rows' hrows' target hfield
    have hperm : rows.Perm rows' := Multiset.coe_eq_coe.mp (hrows.trans hrows'.symm)
    simp only [lookup_derive] at hfield ⊢
    split at hfield
    case isTrue helsewhere => simp [helsewhere] at hfield
    case isFalse helsewhere =>
      rw [if_neg helsewhere]
      exact shown_eq_of_perm (h.identified hrows) hperm target
  · exact derive_title preset s.fields rows

variable {edits : List (String × Option String)}

/-- An edit rewrites declared extension fields and leaves their rows to the user. -/
theorem lookup_editFields {fields edited : Fields}
    (h : editFields preset fields edits = some edited) (target : String) :
    edited.lookup target = fields.lookup target ∨
      isExtension target = true ∧ ∃ value, edited.lookup target = some (.ofUser value) := by
  induction edits generalizing fields with
  | nil =>
    obtain rfl := Option.some.inj h
    exact .inl rfl
  | cons edit edits ih =>
    obtain ⟨k, value⟩ := edit
    rw [editFields] at h
    split at h
    · cases h
    case h_2 spec hspec =>
      split at h
      case isFalse => cases h
      case isTrue =>
        obtain hrest | hrest := ih h
        · by_cases hk : target = k
          · subst hk
            right
            exact ⟨preset.extension target spec hspec, value, by simp [hrest, userField]⟩
          · left
            simp [hrest, userField, hk, AList.lookup_erase_ne hk]
        · exact .inr hrest

theorem lookup_userField (fields : Fields) (k target : String) (value : Option String) :
    (userField fields k value).lookup target =
      if target = k then some (.ofUser value) else fields.lookup target := by
  by_cases h : target = k
  · simp [userField, h]
  · simp [userField, h, AList.lookup_erase_ne h]

/-- An edit gives a field to the user or leaves it as it is. -/
theorem lookup_edit {title : Option String} (h : s.edit preset edits title = some t)
    (target : String) :
    t.fields.lookup target = s.fields.lookup target ∨
      ∃ value, t.fields.lookup target = some (.ofUser value) := by
  obtain ⟨-, edited, hedited, rfl⟩ := edit_eq_some.mp h
  have hfields := lookup_editFields hedited target
  cases title with
  | none =>
    obtain hsame | ⟨-, huser⟩ := hfields
    · exact .inl hsame
    · exact .inr huser
  | some text =>
    simp only [State.storeEdit, lookup_userField]
    split
    · exact .inr ⟨some text, rfl⟩
    · obtain hsame | ⟨-, huser⟩ := hfields
      · exact .inl hsame
      · exact .inr huser

theorem edit_title {title : Option String} (h : s.edit preset edits title = some t)
    (hs : s.title = titleOf s.fields) : t.title = titleOf t.fields := by
  obtain ⟨hbounds, edited, hedited, rfl⟩ := edit_eq_some.mp h
  cases title with
  | none =>
    -- `subject` is no extension field, so an edit of the fields leaves it alone.
    obtain hsame | ⟨hext, -⟩ := lookup_editFields hedited "subject"
    · exact hs.trans (titleOf_congr hsame.symm)
    · exact absurd hext (by decide)
  | some text =>
    have htext : text ≠ "" := by
      rintro rfl
      simp at hbounds
    simp [State.storeEdit, titleOf, lookup_userField, FieldState.ofUser, htext]

/-- Intake does not touch the evidence: what it writes is new. -/
theorem State.WellFormed.evidence_intake (h : s.WellFormed) (ha : a.IsIntake)
    (hstep : Leads.step preset s a = some t) : t.evidence = s.evidence := by
  obtain ⟨hlinked, -, -⟩ := step_intake ha hstep
  apply evidence_congr hlinked
  intro id hid
  rw [hlinked] at hid
  have hobserved := h.observed id hid
  cases a with
  | connect k connection =>
    simp only [Leads.step, Option.ite_none_left_eq_some, Option.some.injEq, Bool.or_eq_true,
      not_or, Bool.not_eq_true] at hstep
    obtain ⟨⟨hk, -⟩, rfl⟩ := hstep
    refine factsOf_congr rfl fun o ho => ?_
    have hconnection := h.connection_isSome ho
    have hne : o.connectionId ≠ k := by
      rintro rfl
      rw [hk] at hconnection
      cases hconnection
    simp [hne]
  | accept k connectionId event =>
    simp only [Leads.step, Option.ite_none_left_eq_some] at hstep
    obtain ⟨-, hstep⟩ := hstep
    split at hstep <;> cases hstep <;> rfl
  | process k occurredAt facts =>
    obtain ⟨receipt, hreceipt, hopen, rfl⟩ := process_eq_some.mp hstep
    obtain ⟨o, ho⟩ := Option.isSome_iff_exists.mp hobserved
    obtain ⟨r, hr, hclosed, -⟩ := h.received id o ho
    have hne : id ≠ k := by
      rintro rfl
      obtain rfl : r = receipt := by simpa [hr] using hreceipt
      rw [hopen] at hclosed
      cases hclosed
    exact factsOf_congr (by simp [hne]) fun _ _ => rfl
  | refuse k =>
    obtain ⟨_, -, -, rfl⟩ := refuse_eq_some.mp hstep
    rfl
  | attach k rows => cases ha
  | erase k rows => cases ha
  | derive rows => cases ha
  | edit fields title => cases ha

namespace State.Shows

theorem of_isInserted (h : s.IsInserted) : s.Shows preset := by
  obtain ⟨-, -, -, hlinked, hfields, htitle⟩ := h
  constructor
  · simp [hfields]
  · intro rows hrows target _
    have hnone : rows = [] := by simpa [State.evidence, hlinked] using hrows
    subst hnone
    simp only [hfields, AList.lookup_empty, shown, shownFact]
    split <;> rfl
  · rw [htitle, hfields]
    rfl

/-- The fields, the title and the evidence are all that is read here. -/
theorem congr (h : s.Shows preset) (hfields : t.fields = s.fields) (htitle : t.title = s.title)
    (hevidence : t.evidence = s.evidence) : t.Shows preset := by
  refine ⟨?_, ?_, ?_⟩
  · rw [hfields]
    exact h.owned
  · rw [hfields, hevidence]
    exact h.replayed
  · rw [hfields, htitle]
    exact h.title

theorem edit (h : s.Shows preset) {title : Option String} (ht : s.edit preset edits title = some t)
    : t.Shows preset := by
  have hevidence : t.evidence = s.evidence := by
    obtain ⟨-, edited, -, rfl⟩ := edit_eq_some.mp ht
    cases title <;> rfl
  constructor
  · intro target row hrow
    obtain hsame | ⟨value, huser⟩ := lookup_edit ht target
    · exact h.owned target row (hsame ▸ hrow)
    · obtain rfl := Option.some.inj (hrow.symm.trans huser)
      exact ⟨rfl, fun _ => rfl⟩
  · intro rows hrows target hfield
    obtain hsame | ⟨value, huser⟩ := lookup_edit ht target
    · rw [hsame] at hfield ⊢
      exact h.replayed rows (hrows.trans hevidence) target hfield
    · simp [huser, replayedElsewhere, FieldState.ofUser] at hfield
  · exact edit_title ht h.title

/-- An unlinked observation has no field to take away. -/
theorem removeObservation (h : s.Shows preset) {id : Uuid} (hid : id ∉ s.linked) :
    (s.removeObservation id).Shows preset := by
  have hlookup (target : String) :
      (s.removeObservation id).fields.lookup target = s.fields.lookup target := by
    simp only [State.removeObservation, Table.lookup_deleteWhere]
    cases hrow : s.fields.lookup target with
    | none => rfl
    | some row =>
      have hkeep : row.observationId ≠ some id := by
        intro hrowId
        cases howner : row.owner with
        | user =>
          have hnone := (h.owned target row hrow).2 howner
          rw [hrowId] at hnone
          cases hnone
        | source =>
          have hreplayed : replayedElsewhere (s.fields.lookup target) = false := by
            simp [replayedElsewhere, hrow, howner, (h.owned target row hrow).1]
          obtain ⟨rows, hrows⟩ := Quot.exists_rep s.evidence
          have hshown := h.replayed rows hrows target hreplayed
          rw [hrow] at hshown
          obtain ⟨fact, hfact, rfl⟩ := Option.map_eq_some_iff.mp hshown.symm
          have hevidence : fact ∈ s.evidence := by
            rw [← hrows]
            exact shownFact_mem hfact
          obtain ⟨k, hk, hmem⟩ := mem_evidence.mp hevidence
          obtain ⟨o, c, target', e, -, -, -, rfl⟩ := mem_factsOf.mp hmem
          obtain rfl : k = id := by simpa [FieldState.ofFact, factRow] using hrowId
          exact hid hk
      simp [hkeep]
  have hevidence : (s.removeObservation id).evidence = s.evidence := by
    apply evidence_congr (by simp [State.removeObservation, hid])
    intro k hk
    have hne : k ≠ id := by
      rintro rfl
      simp [State.removeObservation] at hk
    exact factsOf_congr (by simp [State.removeObservation, AList.lookup_erase_ne hne])
      fun _ _ => rfl
  constructor
  · intro target row hrow
    rw [hlookup] at hrow
    exact h.owned target row hrow
  · intro rows hrows target hfield
    rw [hlookup] at hfield ⊢
    exact h.replayed rows (hrows.trans hevidence) target hfield
  · exact h.title.trans (titleOf_congr (hlookup "subject").symm)

/-- Every command leaves the fields showing the evidence. -/
theorem step (hwf : s.WellFormed) (h : s.Shows preset) (hstep : Leads.step preset s a = some t) :
    t.Shows preset := by
  have hintake (ha : a.IsIntake) : t.Shows preset := by
    obtain ⟨-, hfields, htitle⟩ := step_intake ha hstep
    exact h.congr hfields htitle (hwf.evidence_intake ha hstep)
  cases a with
  | connect id connection => exact hintake trivial
  | accept id connectionId event => exact hintake trivial
  | process id occurredAt facts => exact hintake trivial
  | refuse id => exact hintake trivial
  | attach id rows =>
    obtain ⟨hid, ⟨-, rfl⟩ | ⟨-, hderive⟩⟩ := attach_cases hstep
    · exact h
    · exact (hwf.link hid).shows_of_rederive h.owned hderive
  | erase id rows =>
    obtain ⟨-, ⟨-, hderive⟩ | ⟨hid, rfl⟩⟩ := eraseObservation_cases hstep
    · refine (hwf.removeObservation id).shows_of_rederive (fun target row hrow => ?_) hderive
      exact h.owned target row (Table.lookup_deleteWhere_eq_some.mp hrow).1
    · exact h.removeObservation hid
  | derive rows => exact hwf.shows_of_rederive h.owned hstep
  | edit edits title => exact h.edit hstep

end State.Shows

theorem wellFormed_shows (hs : (opportunity preset).Reachable s) :
    s.WellFormed ∧ s.Shows preset := by
  refine Machine.Reachable.invariant (I := fun s => s.WellFormed ∧ s.Shows preset) ?_ ?_ hs
  · intro s hinserted
    exact ⟨.of_isInserted hinserted, .of_isInserted hinserted⟩
  · rintro s a t - ⟨hwf, hshows⟩ hstep
    exact ⟨hwf.step hstep, hshows.step hwf hstep⟩

/-- The row of a field while the user owns it. -/
def State.userRow (s : State) (target : String) : Option FieldState :=
  (s.fields.lookup target).filter fun row => row.owner = .user

theorem userRow_eq_some {row : FieldState} :
    s.userRow target = some row ↔ s.fields.lookup target = some row ∧ row.owner = .user := by
  simp [State.userRow, Option.filter_eq_some_iff]

/-- The derived state of the opportunity: its title and its fields. -/
def State.SameShown (s t : State) : Prop :=
  s.title = t.title ∧ ∀ target, s.fields.lookup target = t.fields.lookup target

theorem userRow_rederive (ht : s.rederive preset rows = some t) (target : String) :
    t.userRow target = s.userRow target := by
  obtain ⟨-, rfl⟩ := rederive_eq_some.mp ht
  simp only [State.userRow, lookup_derive]
  split
  · rfl
  case isFalse helsewhere =>
    have hnew : (shown preset rows target).filter (fun row => row.owner = .user) = none := by
      cases hshown : shownFact preset rows target <;> simp [shown, hshown, FieldState.ofFact]
    have hold : (s.fields.lookup target).filter (fun row => row.owner = .user) = none := by
      cases hrow : s.fields.lookup target with
      | none => rfl
      | some row =>
        have howner : row.owner ≠ .user := by simp_all [replayedElsewhere]
        simp [howner]
    rw [hnew, hold]

/-- No command but an edit touches a row the user owns, or gives one to the user. -/
theorem userRow_step (h : s.Shows preset) (ha : a.isEdit = false)
    (hstep : step preset s a = some t) (target : String) : t.userRow target = s.userRow target := by
  have hintake (ha : a.IsIntake) : t.userRow target = s.userRow target := by
    obtain ⟨-, hfields, -⟩ := step_intake ha hstep
    rw [State.userRow, State.userRow, hfields]
  have hremove (id : Uuid) : (s.removeObservation id).userRow target = s.userRow target := by
    apply Option.ext
    intro row
    rw [userRow_eq_some, userRow_eq_some]
    simp only [State.removeObservation, Table.lookup_deleteWhere_eq_some, decide_eq_false_iff_not]
    constructor
    · rintro ⟨⟨hrow, -⟩, howner⟩
      exact ⟨hrow, howner⟩
    · rintro ⟨hrow, howner⟩
      have hnone := (h.owned target row hrow).2 howner
      exact ⟨⟨hrow, by simp [hnone]⟩, howner⟩
  cases a with
  | connect id connection => exact hintake trivial
  | accept id connectionId event => exact hintake trivial
  | process id occurredAt facts => exact hintake trivial
  | refuse id => exact hintake trivial
  | attach id rows =>
    obtain ⟨-, ⟨-, rfl⟩ | ⟨-, hderive⟩⟩ := attach_cases hstep
    · rfl
    · exact userRow_rederive hderive target
  | erase id rows =>
    obtain ⟨-, ⟨-, hderive⟩ | ⟨-, rfl⟩⟩ := eraseObservation_cases hstep
    · exact (userRow_rederive hderive target).trans (hremove id)
    · exact hremove id
  | derive rows => exact userRow_rederive hstep target
  | edit edits title => cases ha

variable {acts : List Action}

theorem userRow_run (hs : (opportunity preset).Reachable s) (hacts : ∀ a ∈ acts, a.isEdit = false)
    (hrun : (opportunity preset).run s acts = some t) (target : String) :
    t.userRow target = s.userRow target := by
  induction acts generalizing s with
  | nil =>
    obtain rfl := Option.some.inj hrun
    rfl
  | cons a acts ih =>
    obtain ⟨r, hstep, hrest⟩ := Option.bind_eq_some_iff.mp hrun
    have hr := ih (hs.step hstep) (fun b hb => hacts b (List.mem_cons_of_mem a hb)) hrest
    rw [hr, userRow_step (wellFormed_shows hs).2 (hacts a List.mem_cons_self) hstep]

/-- States with the same evidence and the same user-owned rows show the same. -/
theorem sameShown_of_evidence (hs : (opportunity preset).Reachable s)
    (ht : (opportunity preset).Reachable t) (hevidence : s.evidence = t.evidence)
    (huser : ∀ target, s.userRow target = t.userRow target) : s.SameShown t := by
  obtain ⟨-, hshows⟩ := wellFormed_shows hs
  obtain ⟨-, hshows'⟩ := wellFormed_shows ht
  have helsewhere {s : State} (hs : s.Shows preset) (target : String) :
      replayedElsewhere (s.fields.lookup target) = (s.userRow target).isSome := by
    cases hrow : s.fields.lookup target with
    | none => simp [State.userRow, hrow, replayedElsewhere]
    | some row =>
      have horphaned := (hs.owned target row hrow).1
      by_cases howner : row.owner = .user <;>
        simp [State.userRow, hrow, replayedElsewhere, howner, horphaned]
  have hlookup (target : String) : s.fields.lookup target = t.fields.lookup target := by
    cases hrow : s.userRow target with
    | some row =>
      have hrow' : t.userRow target = some row := (huser target).symm.trans hrow
      rw [(userRow_eq_some.mp hrow).1, (userRow_eq_some.mp hrow').1]
    | none =>
      have hrow' : t.userRow target = none := (huser target).symm.trans hrow
      obtain ⟨rows, hrows⟩ := Quot.exists_rep s.evidence
      rw [hshows.replayed rows hrows target (by rw [helsewhere hshows, hrow]; rfl),
        hshows'.replayed rows (hrows.trans hevidence) target
          (by rw [helsewhere hshows', hrow']; rfl)]
  exact ⟨by rw [hshows.title, hshows'.title, titleOf_congr (hlookup "subject")], hlookup⟩

/-- The query of `derive` always answers. -/
theorem exists_rederive (preset : Preset) (s : State) :
    ∃ rows t, s.rederive preset rows = some t ∧ t.connections = s.connections ∧
      t.receipts = s.receipts ∧ t.observations = s.observations ∧ t.linked = s.linked := by
  obtain ⟨rows, hrows⟩ := Quot.exists_rep s.evidence
  exact ⟨rows, _, rederive_eq_some.mpr ⟨hrows, rfl⟩, rfl, rfl, rfl, rfl⟩

/-- `t` is `s` had it never linked the observation, as far as the evidence goes. -/
structure State.Unlinked (id : Uuid) (s t : State) : Prop where
  connections : t.connections = s.connections
  receipts : t.receipts = s.receipts
  observations : t.observations = s.observations
  linked : t.linked = s.linked.erase id

namespace State.Unlinked

variable {id : Uuid} {r r' : State}

theorem rederive (h : s.Unlinked id t) (hr : s.rederive preset rows = some r) :
    ∃ rows' r', t.rederive preset rows' = some r' ∧ r.Unlinked id r' := by
  obtain ⟨-, rfl⟩ := rederive_eq_some.mp hr
  obtain ⟨rows', r', hr', hconnections, hreceipts, hobservations, hlinked⟩ :=
    exists_rederive preset t
  exact ⟨rows', r', hr', hconnections.trans h.connections, hreceipts.trans h.receipts,
    hobservations.trans h.observations, hlinked.trans h.linked⟩

/-- Intake does not look at the opportunity, so it takes the same step beside it. -/
theorem intake (h : s.Unlinked id t) (ha : a.IsIntake) (hstep : Leads.step preset s a = some r) :
    Leads.step preset t a = some { r with
      linked := t.linked, fields := t.fields, title := t.title } ∧
      r.Unlinked id { r with linked := t.linked, fields := t.fields, title := t.title } := by
  obtain ⟨hlinked, -, -⟩ := step_intake ha hstep
  refine ⟨?_, ⟨rfl, rfl, rfl, by rw [hlinked]; exact h.linked⟩⟩
  obtain ⟨connections, receipts, observations, linked, fields, title⟩ := t
  obtain ⟨rfl, rfl, rfl, -⟩ := h
  cases a with
  | connect k connection =>
    simp only [Leads.step, Option.ite_none_left_eq_some, Option.some.injEq] at hstep ⊢
    obtain ⟨hfresh, rfl⟩ := hstep
    exact ⟨hfresh, rfl⟩
  | accept k connectionId event =>
    simp only [Leads.step, Option.ite_none_left_eq_some] at hstep ⊢
    obtain ⟨hknown, hstep⟩ := hstep
    refine ⟨hknown, ?_⟩
    split at hstep
    case isTrue hexists =>
      rw [if_pos hexists, ← Option.some.inj hstep]
    case isFalse hfresh =>
      rw [if_neg hfresh, ← Option.some.inj hstep]
  | process k occurredAt facts =>
    obtain ⟨receipt, hreceipt, hopen, rfl⟩ := process_eq_some.mp hstep
    exact process_eq_some.mpr ⟨receipt, hreceipt, hopen, rfl⟩
  | refuse k =>
    obtain ⟨receipt, hreceipt, hopen, rfl⟩ := refuse_eq_some.mp hstep
    exact refuse_eq_some.mpr ⟨receipt, hreceipt, hopen, rfl⟩
  | attach k rows => cases ha
  | erase k rows => cases ha
  | derive rows => cases ha
  | edit edits title => cases ha

/-- A link of the observation is skipped. -/
theorem link (h : s.Unlinked id t) (hlinks : a.links id = true)
    (hstep : Leads.step preset s a = some r) : r.Unlinked id t := by
  cases a with
  | attach k rows =>
    obtain rfl : k = id := by simpa [Action.links] using hlinks
    obtain ⟨-, ⟨-, rfl⟩ | ⟨hnew, hderive⟩⟩ := attach_cases hstep
    · exact h
    · obtain ⟨-, rfl⟩ := rederive_eq_some.mp hderive
      refine ⟨h.connections, h.receipts, h.observations, ?_⟩
      simp only [h.linked, Finset.erase_insert hnew, Finset.erase_eq_of_notMem hnew]
  | connect _ _ => cases hlinks
  | accept _ _ _ => cases hlinks
  | process _ _ _ => cases hlinks
  | refuse _ => cases hlinks
  | erase _ _ => cases hlinks
  | derive _ => cases hlinks
  | edit _ _ => cases hlinks

/-- Every command but the link itself has its counterpart where the link was never made. -/
theorem step (h : s.Unlinked id t) (ha : a.isEdit = false) (hlinks : a.links id = false)
    (hstep : Leads.step preset s a = some r) :
    ∃ a' r', a'.command = a.command ∧ Leads.step preset t a' = some r' ∧ r.Unlinked id r' := by
  cases a with
  | connect k connection => exact ⟨_, _, rfl, h.intake trivial hstep⟩
  | accept k connectionId event => exact ⟨_, _, rfl, h.intake trivial hstep⟩
  | process k occurredAt facts => exact ⟨_, _, rfl, h.intake trivial hstep⟩
  | refuse k => exact ⟨_, _, rfl, h.intake trivial hstep⟩
  | attach k rows =>
    have hne : k ≠ id := by simpa [Action.links] using hlinks
    have hmem : k ∈ t.linked ↔ k ∈ s.linked := by simp [h.linked, hne]
    obtain ⟨hobserved, ⟨hlinked, rfl⟩ | ⟨hlinked, hderive⟩⟩ := attach_cases hstep
    · have hobserved' : ¬(t.observations.lookup k).isNone := by
        simpa [h.observations, Option.isSome_iff_ne_none] using hobserved
      refine ⟨.attach k [], t, rfl, ?_, h⟩
      simp only [Leads.step, State.attach, if_neg hobserved', if_pos (hmem.mpr hlinked)]
    · have hlink : { s with linked := insert k s.linked }.Unlinked id
          { t with linked := insert k t.linked } :=
        ⟨h.connections, h.receipts, h.observations, by
          rw [h.linked]
          exact (Finset.erase_insert_of_ne hne).symm⟩
      obtain ⟨rows', r', hr', hr⟩ := hlink.rederive hderive
      refine ⟨.attach k rows', r', rfl, ?_, hr⟩
      have hobserved' : ¬(t.observations.lookup k).isNone := by
        simpa [h.observations, Option.isSome_iff_ne_none] using hobserved
      simp only [Leads.step, State.attach, if_neg hobserved', if_neg (mt hmem.mp hlinked), hr']
  | erase k rows =>
    obtain ⟨hobserved, herase⟩ := eraseObservation_cases hstep
    have hobserved' : ¬(t.observations.lookup k).isNone := by
      simpa [h.observations, Option.isSome_iff_ne_none] using hobserved
    have hremove : (s.removeObservation k).Unlinked id (t.removeObservation k) := by
      refine ⟨h.connections, ?_, ?_, ?_⟩
      · simp [State.removeObservation, h.receipts]
      · simp [State.removeObservation, h.observations]
      · simp [State.removeObservation, h.linked, Finset.erase_right_comm]
    by_cases hlinked' : k ∈ t.linked
    · have hlinked : k ∈ s.linked := Finset.mem_of_mem_erase (h.linked ▸ hlinked')
      obtain ⟨-, hderive⟩ | ⟨hnot, -⟩ := herase
      · obtain ⟨rows', r', hr', hr⟩ := hremove.rederive hderive
        refine ⟨.erase k rows', r', rfl, ?_, hr⟩
        simp only [Leads.step, State.eraseObservation, if_neg hobserved', if_pos hlinked', hr']
      · exact absurd hlinked hnot
    · refine ⟨.erase k [], t.removeObservation k, rfl, ?_, ?_⟩
      · simp only [Leads.step, State.eraseObservation, if_neg hobserved', if_neg hlinked']
      · obtain ⟨-, hderive⟩ | ⟨-, rfl⟩ := herase
        · obtain ⟨-, rfl⟩ := rederive_eq_some.mp hderive
          exact ⟨hremove.connections, hremove.receipts, hremove.observations, hremove.linked⟩
        · exact hremove
  | derive rows =>
    obtain ⟨rows', r', hr', hr⟩ := h.rederive hstep
    exact ⟨.derive rows', r', rfl, hr', hr⟩
  | edit edits title => cases ha

end State.Unlinked

/-- A run has a counterpart that leaves out every link of one observation. -/
theorem State.Unlinked.run {id : Uuid} {r : State} (h : s.Unlinked id t)
    (hacts : ∀ a ∈ acts, a.isEdit = false) (hrun : (opportunity preset).run s acts = some r) :
    ∃ acts' r', acts'.map Action.command =
        (acts.filter fun a => !a.links id).map Action.command ∧
      (opportunity preset).run t acts' = some r' ∧ r.Unlinked id r' := by
  induction acts generalizing s t with
  | nil =>
    obtain rfl := Option.some.inj hrun
    exact ⟨[], t, rfl, rfl, h⟩
  | cons a acts ih =>
    obtain ⟨s', hstep, hrest⟩ := Option.bind_eq_some_iff.mp hrun
    have ha := hacts a List.mem_cons_self
    have hacts' : ∀ b ∈ acts, b.isEdit = false := fun b hb => hacts b (List.mem_cons_of_mem a hb)
    cases hlinks : a.links id with
    | true =>
      obtain ⟨acts', r', hcommands, hrun', hr'⟩ := ih (h.link hlinks hstep) hacts' hrest
      exact ⟨acts', r', by simpa [hlinks] using hcommands, hrun', hr'⟩
    | false =>
      obtain ⟨a', t', hcommand, hstep', ht'⟩ := h.step ha hlinks hstep
      obtain ⟨acts', r', hcommands, hrun', hr'⟩ := ih ht' hacts' hrest
      refine ⟨a' :: acts', r', by simp [hlinks, hcommand, hcommands], ?_, hr'⟩
      exact Option.bind_eq_some_iff.mpr ⟨t', hstep', hrun'⟩

/-- Erasing an observation ends with the links and the evidence of never linking it. -/
theorem State.Unlinked.erase {id : Uuid} {u : State} (h : s.Unlinked id t)
    (herase : Leads.step preset s (.erase id rows) = some u) :
    t.linked = u.linked ∧ t.evidence = u.evidence := by
  have hu : u.connections = s.connections ∧ u.observations = s.observations.erase id ∧
      u.linked = s.linked.erase id := by
    obtain ⟨-, ⟨-, hderive⟩ | ⟨-, rfl⟩⟩ := eraseObservation_cases herase
    · obtain ⟨-, rfl⟩ := rederive_eq_some.mp hderive
      exact ⟨rfl, rfl, rfl⟩
    · exact ⟨rfl, rfl, rfl⟩
  obtain ⟨hconnections, hobservations, hlinked⟩ := hu
  have hsame : t.linked = u.linked := h.linked.trans hlinked.symm
  refine ⟨hsame, evidence_congr hsame fun k hk => ?_⟩
  have hne : k ≠ id := by
    rintro rfl
    simp [h.linked] at hk
  rw [h.connections, h.observations, hconnections, hobservations]
  exact factsOf_congr (AList.lookup_erase_ne hne).symm fun _ _ => rfl

theorem isEdit_command (a : Action) : a.command.isEdit = a.isEdit := by
  cases a <;> rfl

/-- The counterpart of a run without edits is without edits. -/
theorem noEdit_of_commands {id : Uuid} {acts' : List Action}
    (hcommands : acts'.map Action.command = (acts.filter fun a => !a.links id).map Action.command)
    (hacts : ∀ a ∈ acts, a.isEdit = false) : ∀ a ∈ acts', a.isEdit = false := by
  intro a ha
  have hcommand : a.command ∈ (acts.filter fun a => !a.links id).map Action.command :=
    hcommands ▸ List.mem_map_of_mem ha
  obtain ⟨b, hb, heq⟩ := List.mem_map.mp hcommand
  rw [← isEdit_command, ← heq, isEdit_command]
  exact hacts b (List.mem_of_mem_filter hb)

theorem reachable_run (hs : (opportunity preset).Reachable s)
    (hrun : (opportunity preset).run s acts = some t) : (opportunity preset).Reachable t :=
  hs.reaches (Machine.reaches_of_run hrun)

/-- What an opportunity shows is a function of its linked observations. Runs without edits
that end with the same linked evidence end with the same title and fields. Deriving twice is
deriving once. Erasing an observation shows what the same commands without its links show.
No command but an edit changes a row the user owns. -/
theorem shown_of_linked_set (preset : Preset) (s : State) (hs : (opportunity preset).Reachable s) :
    (∀ acts acts' t t', (∀ a ∈ acts, a.isEdit = false) → (∀ a ∈ acts', a.isEdit = false) →
      (opportunity preset).run s acts = some t → (opportunity preset).run s acts' = some t' →
      t.evidence = t'.evidence → t.SameShown t') ∧
    (∀ rows rows' t u, (opportunity preset).step s (.derive rows) = some t →
      (opportunity preset).step t (.derive rows') = some u → t.SameShown u) ∧
    (∀ id acts rows t u, id ∉ s.linked → (∀ a ∈ acts, a.isEdit = false) →
      (opportunity preset).run s acts = some t →
      (opportunity preset).step t (.erase id rows) = some u →
      ∃ acts' t', acts'.map Action.command =
          (acts.filter fun a => !a.links id).map Action.command ∧
        (opportunity preset).run s acts' = some t' ∧ t'.linked = u.linked ∧ t'.SameShown u) ∧
    (∀ a t, a.isEdit = false → (opportunity preset).step s a = some t → ∀ target row,
      s.fields.lookup target = some row → row.owner = .user →
        t.fields.lookup target = some row) := by
  refine ⟨?_, ?_, ?_, ?_⟩
  · intro acts acts' t t' hacts hacts' hrun hrun' hevidence
    apply sameShown_of_evidence (reachable_run hs hrun) (reachable_run hs hrun') hevidence
    intro target
    rw [userRow_run hs hacts hrun, userRow_run hs hacts' hrun']
  · intro rows rows' t u ht hu
    have hreach : (opportunity preset).Reachable t := hs.step ht
    have hevidence : t.evidence = u.evidence := by
      obtain ⟨-, rfl⟩ := rederive_eq_some.mp hu
      rfl
    apply sameShown_of_evidence hreach (hreach.step hu) hevidence
    intro target
    exact (userRow_rederive hu target).symm
  · intro id acts rows t u hid hacts hrun herase
    have hstart : s.Unlinked id s := ⟨rfl, rfl, rfl, (Finset.erase_eq_of_notMem hid).symm⟩
    obtain ⟨acts', t', hcommands, hrun', ht'⟩ := State.Unlinked.run hstart hacts hrun
    obtain ⟨hlinked, hevidence⟩ := ht'.erase herase
    refine ⟨acts', t', hcommands, hrun', hlinked, ?_⟩
    have ht : (opportunity preset).Reachable t := reachable_run hs hrun
    apply sameShown_of_evidence (reachable_run hs hrun') (ht.step herase) hevidence
    intro target
    rw [userRow_step (a := .erase id rows) (wellFormed_shows ht).2 rfl herase,
      userRow_run hs hacts hrun, userRow_run hs (noEdit_of_commands hcommands hacts) hrun']
  · intro a t ha hstep target row hrow howner
    have huser := userRow_step (wellFormed_shows hs).2 ha hstep target
    rw [userRow_eq_some.mpr ⟨hrow, howner⟩] at huser
    exact (userRow_eq_some.mp huser).1

private theorem extension_of_empty (target : String) (spec : FieldSpec)
    (h : (∅ : Table String FieldSpec).lookup target = some spec) : isExtension target = true := by
  rw [AList.lookup_empty] at h
  cases h

/-- A preset without extension fields. -/
def plainPreset : Preset :=
  ⟨⟨fun _ => false, fun _ => false, fun _ => false⟩, ∅, extension_of_empty⟩

def subjectFact (text : String) : Table String ExtractedFact :=
  (∅ : Table String ExtractedFact).insert "subject" ⟨.value, some text⟩

/-- One connection and two deliveries, each of them with a subject. -/
def twoDeliveries : List Action :=
  [.connect 1 ⟨"urn:form", 100⟩, .accept 10 1 "a", .process 10 5 (subjectFact "New site"),
    .accept 11 1 "b", .process 11 7 (subjectFact "New shop")]

def inserted : State := ⟨∅, ∅, ∅, ∅, ∅, "Untitled inquiry"⟩

def delivered : State := ((opportunity plainPreset).run inserted twoDeliveries).getD inserted

def siteFact : Fact := ⟨10, "subject", .value, some "New site", 5, 1, "a", 100, "urn:form"⟩
def shopFact : Fact := ⟨11, "subject", .value, some "New shop", 7, 1, "b", 100, "urn:form"⟩

/-- Attaching both deliveries and erasing the later one shows what attaching the earlier
one alone shows. -/
theorem shown_of_linked_set_twoDeliveries :
    ∃ t t', (opportunity plainPreset).run delivered [.attach 11 [shopFact],
        .attach 10 [shopFact, siteFact], .erase 11 [siteFact]] = some t ∧
      (opportunity plainPreset).run delivered [.attach 10 [siteFact], .derive [siteFact]] =
        some t' ∧
      t.SameShown t' ∧ t.title = "New site" := by
  have hinit : (opportunity plainPreset).init inserted := ⟨rfl, rfl, rfl, rfl, rfl, rfl⟩
  have hrun : (opportunity plainPreset).run inserted twoDeliveries = some delivered := rfl
  have hreach : (opportunity plainPreset).Reachable delivered :=
    Machine.reachable_of_run hinit hrun
  refine ⟨_, _, rfl, rfl, ?_, rfl⟩
  apply (shown_of_linked_set plainPreset delivered hreach).1
    [.attach 11 [shopFact], .attach 10 [shopFact, siteFact], .erase 11 [siteFact]]
    [.attach 10 [siteFact], .derive [siteFact]]
  · decide
  · decide
  · rfl
  · rfl
  · rfl

end Rheostream.Leads
