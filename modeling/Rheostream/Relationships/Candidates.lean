import Rheostream.Relationships.Normalization

/-!
# Candidates

What the candidates of a resolved party write, and that the candidates of a second call write
nothing where the organization of the first is found.
-/

namespace Rheostream.Relationships

open Handler

variable {m : Matching} {s t r u : PartyState} {party other id : Uuid} {hint : Hint}
  {data : ResolveInput}

/-! ### One pair -/

/-- The candidate is about the pair and the hint. -/
def CandidateRow.About (row : CandidateRow) (party other : Uuid) (hint : Hint) : Prop :=
  (row.partyId, row.candidatePartyId) = (candidatePair party other hint).2 ∧ row.hint = hint

/-- A candidate of the pair and the hint is open. -/
def PartyState.OpenPair (s : PartyState) (party other : Uuid) (hint : Hint) : Prop :=
  ∃ id row, s.candidates.lookup id = some row ∧ row.About party other hint ∧ row.state = .open

/-- A candidate of the pair and the hint was rejected. -/
def PartyState.RejectedPair (s : PartyState) (party other : Uuid) (hint : Hint) : Prop :=
  ∃ id row, s.candidates.lookup id = some row ∧ row.About party other hint ∧ row.state = .rejected

/-- The row of a new candidate. -/
def newCandidate (party other : Uuid) (hint : Hint) (data : ResolveInput) : CandidateRow :=
  ⟨(candidatePair party other hint).1, (candidatePair party other hint).2.1,
    (candidatePair party other hint).2.2, hint, data.evidenceRef, data.occurredAt, .open, none,
    none, none⟩

theorem about_newCandidate : (newCandidate party other hint data).About party other hint :=
  ⟨rfl, rfl⟩

/-- What `candidate` does. -/
inductive Proposal (s : PartyState) (party other : Uuid) (hint : Hint) (data : ResolveInput) :
    Option Uuid → PartyState → Prop
  | self : party = other → Proposal s party other hint data none s
  | rejected : party ≠ other → s.RejectedPair party other hint →
    Proposal s party other hint data none s
  | open {id : Uuid} {row : CandidateRow} : party ≠ other → ¬ s.RejectedPair party other hint →
    s.candidates.lookup id = some row → row.About party other hint → row.state = .open →
    Proposal s party other hint data (some id) s
  | new : party ≠ other → ¬ s.RejectedPair party other hint → ¬ s.OpenPair party other hint →
    Proposal s party other hint data (some s.nextId)
      { s with
        candidates := s.candidates.insert s.nextId (newCandidate party other hint data)
        nextId := s.nextId + 1 }

/-- The candidates that the query of `candidate` returns. -/
def PartyState.existing (s : PartyState) (party other : Uuid) (hint : Hint) :
    Table Uuid CandidateRow :=
  s.candidates.select fun _ row =>
    row.partyId = (candidatePair party other hint).2.1 &&
      row.candidatePartyId = (candidatePair party other hint).2.2 && row.hint = hint &&
        (row.state = .open || row.state = .rejected)

theorem lookup_existing {row : CandidateRow} :
    (s.existing party other hint).lookup id = some row ↔ s.candidates.lookup id = some row ∧
      row.About party other hint ∧ (row.state = .open ∨ row.state = .rejected) := by
  rw [PartyState.existing, Table.lookup_select, Option.filter_eq_some_iff]
  simp [CandidateRow.About, Prod.ext_iff, and_assoc]

theorem rejected_of_existing : (s.existing party other hint).existsRow
    (fun _ row => row.state = .rejected) = true ↔ s.RejectedPair party other hint := by
  rw [Table.existsRow_iff]
  constructor
  · rintro ⟨id, row, hrow, hstate⟩
    obtain ⟨hlookup, habout, -⟩ := lookup_existing.mp hrow
    exact ⟨id, row, hlookup, habout, of_decide_eq_true hstate⟩
  · rintro ⟨id, row, hlookup, habout, hstate⟩
    exact ⟨id, row, lookup_existing.mpr ⟨hlookup, habout, .inr hstate⟩, decide_eq_true hstate⟩

theorem candidate_eq : candidate party other hint data =
    if party = other then pure none
    else get >>= fun s =>
      if (s.existing party other hint).existsRow fun _ row => row.state = .rejected then pure none
      else match (s.existing party other hint).keys.head? with
        | some id => pure (some id)
        | none => uuid7 >>= fun id => (write fun s => { s with
            candidates := s.candidates.insert id (newCandidate party other hint data) }) >>=
              fun _ => pure (some id) :=
  rfl

theorem proposal_of_answers {answer : Option Uuid}
    (h : (candidate party other hint data).Answers s answer t) :
    Proposal s party other hint data answer t := by
  rw [candidate_eq] at h
  by_cases hself : party = other
  · rw [if_pos hself] at h
    obtain ⟨rfl, rfl⟩ := answers_pure.mp h
    exact .self hself
  · rw [if_neg hself, answers_bind_get] at h
    by_cases hrejected : (s.existing party other hint).existsRow
        (fun _ row => row.state = .rejected) = true
    · rw [if_pos hrejected] at h
      obtain ⟨rfl, rfl⟩ := answers_pure.mp h
      exact .rejected hself (rejected_of_existing.mp hrejected)
    · rw [if_neg hrejected] at h
      have hnone := mt rejected_of_existing.mpr hrejected
      cases hkeys : (s.existing party other hint).keys.head? with
      | some id =>
        rw [hkeys] at h
        obtain ⟨rfl, rfl⟩ := answers_pure.mp h
        have hid := List.mem_of_mem_head? hkeys
        obtain ⟨row, hrow⟩ := Option.isSome_iff_exists.mp (AList.lookup_isSome.mpr hid)
        obtain ⟨hlookup, habout, hstate⟩ := lookup_existing.mp hrow
        refine .open hself hnone hlookup habout (hstate.resolve_right fun hrej => ?_)
        exact hnone ⟨id, row, hlookup, habout, hrej⟩
      | none =>
        rw [hkeys] at h
        dsimp only at h
        rw [answers_bind_uuid7, answers_bind_write] at h
        obtain ⟨rfl, rfl⟩ := answers_pure.mp h
        refine .new hself hnone ?_
        rintro ⟨id, row, hlookup, habout, hstate⟩
        have hrow := lookup_existing.mpr ⟨hlookup, habout, .inl hstate⟩
        have hid : id ∈ (s.existing party other hint).keys :=
          AList.lookup_isSome.mp (Option.isSome_of_eq_some hrow)
        rw [List.head?_eq_none_iff.mp hkeys] at hid
        cases hid

/-- A pair that is proposed already is not written again. -/
theorem candidate_answers (h : party = other ∨ s.OpenPair party other hint ∨
    s.RejectedPair party other hint) :
    ∃ answer, (candidate party other hint data).Answers s answer s := by
  rw [candidate_eq]
  by_cases hself : party = other
  · rw [if_pos hself]
    exact ⟨none, answers_pure.mpr ⟨rfl, rfl⟩⟩
  · rw [if_neg hself]
    simp only [answers_bind_get]
    by_cases hrejected : (s.existing party other hint).existsRow
        (fun _ row => row.state = .rejected) = true
    · rw [if_pos hrejected]
      exact ⟨none, answers_pure.mpr ⟨rfl, rfl⟩⟩
    · rw [if_neg hrejected]
      obtain ⟨id, row, hlookup, habout, hstate⟩ :=
        (h.resolve_left hself).resolve_right (mt rejected_of_existing.mpr hrejected)
      have hrow := lookup_existing.mpr ⟨hlookup, habout, .inl hstate⟩
      have hid : id ∈ (s.existing party other hint).keys :=
        AList.lookup_isSome.mp (Option.isSome_of_eq_some hrow)
      cases hkeys : (s.existing party other hint).keys.head? with
      | some first => exact ⟨some first, answers_pure.mpr ⟨rfl, rfl⟩⟩
      | none =>
        rw [List.head?_eq_none_iff.mp hkeys] at hid
        cases hid

/-! ### All pairs -/

/-- Every candidate was drawn. -/
def PartyState.FreshCandidates (s : PartyState) : Prop :=
  ∀ id row, s.candidates.lookup id = some row → id < s.nextId

/-- Candidates were added, and nothing else. -/
structure Proposes (s t : PartyState) : Prop where
  parties : t.parties = s.parties
  contacts : t.contacts = s.contacts
  affiliations : t.affiliations = s.affiliations
  nextId : s.nextId ≤ t.nextId
  kept : ∀ id row, s.candidates.lookup id = some row → t.candidates.lookup id = some row
  fresh : t.FreshCandidates

theorem Proposes.refl (hfresh : s.FreshCandidates) : Proposes s s :=
  ⟨rfl, rfl, rfl, le_rfl, fun _ _ h => h, hfresh⟩

theorem Proposes.trans (hfirst : Proposes s t) (hrest : Proposes t u) : Proposes s u where
  parties := hrest.parties.trans hfirst.parties
  contacts := hrest.contacts.trans hfirst.contacts
  affiliations := hrest.affiliations.trans hfirst.affiliations
  nextId := hfirst.nextId.trans hrest.nextId
  kept id row h := hrest.kept id row (hfirst.kept id row h)
  fresh := hrest.fresh

/-- A pair that is settled: it is no pair, or it is open, or it was rejected. -/
def PartyState.Settled (s : PartyState) (party other : Uuid) (hint : Hint) : Prop :=
  party = other ∨ s.OpenPair party other hint ∨ s.RejectedPair party other hint

theorem Proposes.settled (h : Proposes s t) (hsettled : s.Settled party other hint) :
    t.Settled party other hint := by
  obtain hself | ⟨id, row, hrow, hrest⟩ | ⟨id, row, hrow, hrest⟩ := hsettled
  · exact .inl hself
  · exact .inr (.inl ⟨id, row, h.kept id row hrow, hrest⟩)
  · exact .inr (.inr ⟨id, row, h.kept id row hrow, hrest⟩)

theorem Proposal.proposes {answer : Option Uuid} (h : Proposal s party other hint data answer t)
    (hfresh : s.FreshCandidates) : Proposes s t ∧ t.Settled party other hint := by
  cases h with
  | self hself => exact ⟨.refl hfresh, .inl hself⟩
  | rejected _ hrejected => exact ⟨.refl hfresh, .inr (.inr hrejected)⟩
  | «open» _ _ hrow habout hstate =>
    exact ⟨.refl hfresh, .inr (.inl ⟨_, _, hrow, habout, hstate⟩)⟩
  | new _ _ _ =>
    refine ⟨⟨rfl, rfl, rfl, Nat.le_succ _, fun id row hrow => ?_, fun id row hrow => ?_⟩,
      .inr (.inl ⟨s.nextId, newCandidate party other hint data, ?_, about_newCandidate, rfl⟩)⟩
    · rw [Table.lookup_insert, if_neg (hfresh id row hrow).ne]
      exact hrow
    · rw [Table.lookup_insert] at hrow
      split at hrow
      · next hid => exact hid ▸ Nat.lt_succ_self _
      · exact (hfresh id row hrow).trans (Nat.lt_succ_self _)
    · rw [Table.lookup_insert, if_pos rfl]

variable {refs : List Uuid}

theorem proposes_of_proposeAll {pairs : List (Uuid × Hint)} (hfresh : s.FreshCandidates)
    (h : (proposeAll party data pairs).Answers s refs t) :
    Proposes s t ∧ ∀ pair ∈ pairs, t.Settled party pair.1 pair.2 := by
  induction pairs generalizing s refs with
  | nil =>
    obtain ⟨-, rfl⟩ := answers_pure.mp h
    exact ⟨.refl hfresh, fun _ hpair => by cases hpair⟩
  | cons pair pairs ih =>
    obtain ⟨first, r, hfirst, h⟩ := answers_bind.mp h
    obtain ⟨others, r', hothers, h⟩ := answers_bind.mp h
    obtain ⟨-, rfl⟩ := answers_pure.mp h
    obtain ⟨hproposes, hsettled⟩ := (proposal_of_answers hfirst).proposes hfresh
    obtain ⟨hrest, hall⟩ := ih hproposes.fresh hothers
    refine ⟨hproposes.trans hrest, fun p hp => ?_⟩
    obtain rfl | hp := List.mem_cons.mp hp
    · exact hrest.settled hsettled
    · exact hall p hp

theorem proposeAll_answers {pairs : List (Uuid × Hint)}
    (h : ∀ pair ∈ pairs, s.Settled party pair.1 pair.2) :
    ∃ refs, (proposeAll party data pairs).Answers s refs s := by
  induction pairs with
  | nil => exact ⟨[], answers_pure.mpr ⟨rfl, rfl⟩⟩
  | cons pair pairs ih =>
    obtain ⟨answer, hfirst⟩ :=
      @candidate_answers s party pair.1 pair.2 data (h pair List.mem_cons_self)
    obtain ⟨refs, hrest⟩ := ih fun p hp => h p (List.mem_cons_of_mem _ hp)
    refine ⟨answer.toList ++ refs, ?_⟩
    exact answers_bind.mpr ⟨answer, s, hfirst,
      answers_bind.mpr ⟨refs, s, hrest, answers_pure.mpr ⟨rfl, rfl⟩⟩⟩

/-! ### The pairs that are proposed -/

/-- What is matched on of a party: its kind, the party that it is merged into, and its name. -/
def PartyState.profile (s : PartyState) (id : Uuid) : Option (PartyKind × Option Uuid × String) :=
  (s.parties.lookup id).map fun row => (row.kind, row.mergedIntoId, row.displayName)

theorem profile_eq_some {x : PartyKind × Option Uuid × String} : s.profile id = some x ↔
    ∃ row, s.parties.lookup id = some row ∧ row.kind = x.1 ∧ row.mergedIntoId = x.2.1 ∧
      row.displayName = x.2.2 := by
  simp only [PartyState.profile, Option.map_eq_some_iff, Prod.ext_iff]

/-- The party is live and of the kind. -/
def PartyState.IsLive (s : PartyState) (kind : PartyKind) (id : Uuid) : Prop :=
  ∃ name, s.profile id = some (kind, none, name)

theorem any_live {kind : PartyKind} :
    ((s.parties.lookup id).any fun owner => owner.mergedIntoId = none && owner.kind = kind) = true ↔
      s.IsLive kind id := by
  cases hrow : s.parties.lookup id with
  | none => simp [PartyState.IsLive, PartyState.profile, hrow]
  | some row => simp [PartyState.IsLive, PartyState.profile, hrow, and_comm]

/-- The hint that a contact point of another person gives. -/
def contactHint (kind : ContactKind) (source : String) (row : ContactRow) : Hint :=
  if kind = .phone then .phone
  else if row.verification = .sourceVerified ∧ row.sourceNamespace ≠ some source then
    .emailVerifiedOtherSource
  else .emailUnverified

theorem mem_contactMatches {kind : ContactKind} {value source : String} :
    (other, hint) ∈ contactMatches s party kind value source ↔
      ∃ c row, s.contacts.lookup c = some row ∧ row.retiredAt = none ∧ row.kind = kind ∧
        row.normalizedValue = value ∧ row.partyId = other ∧ other ≠ party ∧
        s.IsLive .person other ∧ hint = contactHint kind source row := by
  rw [contactMatches, List.mem_map]
  constructor
  · rintro ⟨⟨c, row⟩, hmem, heq⟩
    have hlookup := AList.mem_lookup_iff.mpr hmem
    rw [Option.mem_def, Table.lookup_select, Option.filter_eq_some_iff] at hlookup
    obtain ⟨hrow, hrest⟩ := hlookup
    simp only [Bool.and_eq_true, decide_eq_true_eq] at hrest
    obtain ⟨⟨⟨⟨hretired, hkind⟩, hvalue⟩, hne⟩, hlive⟩ := hrest
    obtain ⟨rfl, rfl⟩ := Prod.mk.inj heq
    exact ⟨c, row, hrow, hretired, hkind, hvalue, rfl, hne, any_live.mp hlive, rfl⟩
  · rintro ⟨c, row, hrow, hretired, hkind, hvalue, rfl, hne, hlive, rfl⟩
    refine ⟨⟨c, row⟩, AList.mem_lookup_iff.mp ?_, rfl⟩
    rw [Option.mem_def, Table.lookup_select, Option.filter_eq_some_iff]
    refine ⟨hrow, ?_⟩
    simp only [Bool.and_eq_true, decide_eq_true_eq]
    exact ⟨⟨⟨⟨hretired, hkind⟩, hvalue⟩, hne⟩, any_live.mpr hlive⟩

/-- A live organization has the url. -/
def PartyState.HasDomain (s : PartyState) (domain : String) (id : Uuid) : Prop :=
  s.IsLive .organization id ∧ ∃ c row, s.contacts.lookup c = some row ∧ row.kind = .url ∧
    row.retiredAt = none ∧ row.normalizedValue = domain ∧ row.partyId = id

/-- A live organization has the name. -/
def PartyState.HasName (m : Matching) (s : PartyState) (key : String) (id : Uuid) : Prop :=
  ∃ name, s.profile id = some (.organization, none, name) ∧ m.displayKey name = key

theorem mem_organizationMatches {domain name : Option String} :
    (other, hint) ∈ organizationMatches m s domain name ↔
      (hint = .domain ∧ ∃ value ∈ domain, s.HasDomain value other) ∨
        (hint = .organizationName ∧ ∃ key ∈ name, s.HasName m key other) := by
  unfold organizationMatches
  rw [List.mem_append]
  refine or_congr ?_ ?_
  · cases domain with
    | none => simp
    | some value =>
      simp only [List.mem_map, Option.mem_def, Option.some.injEq, exists_eq_left']
      constructor
      · rintro ⟨⟨c, row⟩, hmem, heq⟩
        have hlookup := AList.mem_lookup_iff.mpr hmem
        rw [Option.mem_def, Table.lookup_select, Option.filter_eq_some_iff] at hlookup
        obtain ⟨hrow, hrest⟩ := hlookup
        simp only [Bool.and_eq_true, decide_eq_true_eq] at hrest
        obtain ⟨⟨⟨hkind, hretired⟩, hvalue⟩, hlive⟩ := hrest
        obtain ⟨rfl, rfl⟩ := Prod.mk.inj heq
        exact ⟨rfl, any_live.mp hlive, c, row, hrow, hkind, hretired, hvalue, rfl⟩
      · rintro ⟨rfl, hlive, c, row, hrow, hkind, hretired, hvalue, rfl⟩
        refine ⟨⟨c, row⟩, AList.mem_lookup_iff.mp ?_, rfl⟩
        rw [Option.mem_def, Table.lookup_select, Option.filter_eq_some_iff]
        refine ⟨hrow, ?_⟩
        simp only [Bool.and_eq_true, decide_eq_true_eq]
        exact ⟨⟨⟨hkind, hretired⟩, hvalue⟩, any_live.mpr hlive⟩
  · cases name with
    | none => simp
    | some key =>
      simp only [List.mem_map, Option.mem_def, Option.some.injEq, exists_eq_left',
        Table.mem_keys_select, Bool.and_eq_true, decide_eq_true_eq, any_live]
      constructor
      · rintro ⟨id, ⟨row, hrow, ⟨name, hprofile⟩, hkey⟩, heq⟩
        obtain ⟨rfl, rfl⟩ := Prod.mk.inj heq
        obtain ⟨row', hrow', -, -, hname⟩ := profile_eq_some.mp hprofile
        obtain rfl := Option.some.inj (hrow.symm.trans hrow')
        exact ⟨rfl, name, hprofile, (congrArg m.displayKey hname.symm).trans hkey⟩
      · rintro ⟨rfl, name, hprofile, hkey⟩
        obtain ⟨row, hrow, -, -, hname⟩ := profile_eq_some.mp hprofile
        exact ⟨other, ⟨row, hrow, ⟨name, hprofile⟩, by rw [hname]; exact hkey⟩, rfl⟩

/-! ### An organization that is made -/

/-- Names, kinds and survivors, contact points, affiliations and candidates are as before. -/
structure Revised (s t : PartyState) : Prop where
  profile : ∀ id, t.profile id = s.profile id
  contacts : t.contacts = s.contacts
  affiliations : t.affiliations = s.affiliations
  candidates : t.candidates = s.candidates
  nextId : t.nextId = s.nextId

theorem revised_of_bump {revision : Option ℕ} {n : ℕ} (h : (bump id revision).Answers s n t) :
    Revised s t := by
  obtain ⟨row, hrow, rfl⟩ := answers_bump h
  refine ⟨fun other => ?_, rfl, rfl, rfl, rfl⟩
  by_cases hother : other = id
  · subst hother
    simp [PartyState.profile, hrow]
  · simp [PartyState.profile, hother]

theorem Revised.trans (hfirst : Revised s t) (hrest : Revised t u) : Revised s u where
  profile id := (hrest.profile id).trans (hfirst.profile id)
  contacts := hrest.contacts.trans hfirst.contacts
  affiliations := hrest.affiliations.trans hfirst.affiliations
  candidates := hrest.candidates.trans hfirst.candidates
  nextId := hrest.nextId.trans hfirst.nextId

/-- The row that `add_contact` writes. -/
def NewContact.row (new : NewContact) (party : Uuid) (value : String) : ContactRow :=
  ⟨party, new.kind, new.value, value, new.sourceNamespace, new.verification, none⟩

theorem answers_addContact {new : NewContact} {c : Uuid}
    (h : (addContact m party new).Answers s c t) :
    ∃ value, m.normalize new.kind new.value = some value ∧ value ≠ "" ∧
      ((new.row party value).identity = none ∨ ∀ id other, s.contacts.lookup id = some other →
        other.identity ≠ (new.row party value).identity) ∧
      t = { s with
        contacts := s.contacts.insert s.nextId (new.row party value), nextId := s.nextId + 1 } := by
  simp only [addContact, normalized, answers_bind_found, answers_bind_require, answers_bind_uuid7,
    answers_bind_get, answers_bind_write, answers_pure] at h
  obtain ⟨value, hvalue, hne, hunique, -, rfl⟩ := h
  refine ⟨value, hvalue, hne, ?_, rfl⟩
  rw [Table.existsRow_eq_false] at hunique
  exact hunique.imp_right fun hfree id other hother => of_decide_eq_false (hfree id other hother)

/-- What is there once a party has an organization made for it. -/
structure OrganizationMade (m : Matching) (s : PartyState) (party : Uuid) (data : ResolveInput)
    (name : String) (t : PartyState) : Prop where
  profile : ∀ id, t.profile id =
    if id = s.nextId then some (.organization, none, name) else s.profile id
  contacts : ∀ c row, t.contacts.lookup c = some row → s.contacts.lookup c = some row ∨
    row.kind = .url ∧ row.partyId = s.nextId
  kept : ∀ c row, s.contacts.lookup c = some row → c < s.nextId → t.contacts.lookup c = some row
  domain : ∀ value ∈ data.hints.organizationDomain, ∀ form, m.normalize .url value = some form →
    t.HasDomain form s.nextId
  affiliated : ∃ a row, t.affiliations.lookup a = some row ∧ row.personId = party ∧
    row.organizationId = s.nextId ∧ row.validTo = none
  candidates : t.candidates = s.candidates
  nextId : s.nextId ≤ t.nextId

/-- The url of an organization is added to it. -/
theorem answers_addDomain {organization : Uuid} {domain : Option String}
    (h : (addContacts m organization
      (domain.toList.map fun value => ⟨.url, value, .unverified, none⟩)).Answers s () t) :
    Revised { s with contacts := t.contacts, nextId := t.nextId } t ∧ s.nextId ≤ t.nextId ∧
      (∀ c row, t.contacts.lookup c = some row → s.contacts.lookup c = some row ∨
        row.kind = .url ∧ row.partyId = organization) ∧
      (∀ c row, s.contacts.lookup c = some row → c < s.nextId →
        t.contacts.lookup c = some row) ∧
      ∀ value ∈ domain, ∀ form, m.normalize .url value = some form →
        ∃ c row, t.contacts.lookup c = some row ∧ row.kind = .url ∧ row.retiredAt = none ∧
          row.normalizedValue = form ∧ row.partyId = organization := by
  cases domain with
  | none =>
    obtain ⟨-, rfl⟩ := answers_pure.mp h
    exact ⟨⟨fun _ => rfl, rfl, rfl, rfl, rfl⟩, le_rfl, fun _ _ h => .inl h, fun _ _ h _ => h,
      fun _ hvalue => by cases hvalue⟩
  | some value =>
    obtain ⟨c, r, hcontact, h⟩ := answers_bind.mp h
    obtain ⟨-, rfl⟩ := answers_pure.mp h
    obtain ⟨form, hform, -, -, rfl⟩ := answers_addContact hcontact
    refine ⟨⟨fun _ => rfl, rfl, rfl, rfl, rfl⟩, Nat.le_succ _, fun c row hrow => ?_,
      fun c row hrow hc => ?_, ?_⟩
    · rw [Table.lookup_insert] at hrow
      split at hrow
      · obtain rfl := Option.some.inj hrow
        exact .inr ⟨rfl, rfl⟩
      · exact .inl hrow
    · exact (Table.lookup_insert _ _ _ _).trans ((if_neg hc.ne).trans hrow)
    · intro value' hvalue' form' hform'
      obtain rfl := Option.some.inj hvalue'
      obtain rfl := Option.some.inj (hform.symm.trans hform')
      refine ⟨s.nextId, NewContact.row ⟨.url, value, .unverified, none⟩ organization form, ?_, rfl,
        rfl, rfl, rfl⟩
      exact (Table.lookup_insert _ _ _ _).trans (if_pos rfl)

theorem organizationMade_of_answers {name : String}
    (h : (addOrganization m party data (some name)).Answers s () t) :
    OrganizationMade m s party data name t := by
  simp only [addOrganization, createRow, bind_assoc, answers_bind_uuid7, answers_bind_write,
    pure_bind] at h
  obtain ⟨⟨⟩, r, hcontacts, h⟩ := answers_bind.mp h
  obtain ⟨a, r', haffiliation, h⟩ := answers_bind.mp h
  obtain ⟨n, r'', hbump, h⟩ := answers_bind.mp h
  obtain ⟨-, rfl⟩ := answers_pure.mp h
  simp only [addAffiliation, answers_bind_getLive, answers_bind_require, answers_bind_get,
    answers_bind_uuid7, answers_bind_write] at haffiliation
  obtain ⟨personRow, -, -, -, organizationRow, -, -, -, -, -, haffiliation⟩ := haffiliation
  obtain ⟨n', r₂, howner, haffiliation⟩ := answers_bind.mp haffiliation
  obtain ⟨-, rfl⟩ := answers_pure.mp haffiliation
  have hrevised := (revised_of_bump howner).trans (revised_of_bump hbump)
  obtain ⟨hadded, hle, hsubset, hkept, hdomain⟩ := answers_addDomain hcontacts
  have hprofile (id : Uuid) : t.profile id =
      if id = s.nextId then some (.organization, none, name) else s.profile id := by
    rw [hrevised.profile]
    refine (hadded.profile id).trans ?_
    by_cases hid : id = s.nextId
    · simp [PartyState.profile, hid]
    · simp [PartyState.profile, hid]
  have hcontact : t.contacts = r.contacts := hrevised.contacts
  refine ⟨hprofile, fun c row hrow => ?_, fun c row hrow hc => ?_,
    fun value hvalue form hform => ?_, ?_, ?_, ?_⟩
  · rw [hcontact] at hrow
    exact hsubset c row hrow
  · rw [hcontact]
    exact hkept c row hrow (hc.trans (Nat.lt_succ_self _))
  · obtain ⟨c, row, hrow, hrest⟩ := hdomain value hvalue form hform
    refine ⟨⟨name, by rw [hprofile, if_pos rfl]⟩, c, row, ?_, hrest⟩
    rw [hcontact]
    exact hrow
  · refine ⟨r.nextId, ⟨party, s.nextId, some data.occurredAt, none⟩, ?_, rfl, rfl, rfl⟩
    rw [hrevised.affiliations]
    exact (Table.lookup_insert _ _ _ _).trans (if_pos rfl)
  · exact hrevised.candidates.trans hadded.candidates
  · rw [hrevised.nextId]
    exact ((Nat.le_succ s.nextId).trans hle).trans (Nat.le_succ r.nextId)

/-! ### A second call -/

/-- The form of a value that may be absent. -/
def FormOf (m : Matching) (kind : ContactKind) (value form : Option String) : Prop :=
  value.map (m.normalize kind) = form.map some

theorem answers_normalizedHint {kind : ContactKind} {value form : Option String} :
    (normalizedHint m kind value).Answers s form t ↔ FormOf m kind value form ∧ t = s := by
  cases value with
  | none =>
    rw [normalizedHint, answers_pure, FormOf]
    cases form <;> simp
  | some value =>
    simp only [normalizedHint, normalized, answers_bind_found, answers_pure, FormOf]
    cases form with
    | none => simp
    | some form => simp [and_comm, eq_comm]

/-- The organizations that the hints name, where `domain` is the form of the domain. -/
def organizationsOf (m : Matching) (s : PartyState) (data : ResolveInput) (domain : Option String) :
    List (Uuid × Hint) :=
  organizationMatches m s domain (data.hints.organizationName.map m.normalizeName)

/-- The organization that is made: where the hints name none, one of the name or of the domain. -/
def newOrganization (m : Matching) (s : PartyState) (data : ResolveInput) (domain : Option String) :
    Option String :=
  if (organizationsOf m s data domain).isEmpty then
    data.hints.organizationName.or data.hints.organizationDomain
  else none

/-- The other persons that own the email or the phone number. -/
def contactsOf (s : PartyState) (party : Uuid) (data : ResolveInput) (email phone : Option String) :
    List (Uuid × Hint) :=
  (email.toList.flatMap fun value => contactMatches s party .email value data.sourceNamespace) ++
    phone.toList.flatMap fun value => contactMatches s party .phone value data.sourceNamespace

/-- The persons of a similar name. -/
def namesOf (m : Matching) (s : PartyState) (party : Uuid) (data : ResolveInput) :
    List (Uuid × Hint) :=
  data.hints.name.toList.flatMap fun name =>
    (m.similarNames s (m.normalizeName name) party).map fun id => (id, Hint.name)

/-- The organizations that the party is not affiliated with. -/
def unlinkedOf (m : Matching) (s : PartyState) (party : Uuid) (data : ResolveInput)
    (domain : Option String) : List (Uuid × Hint) :=
  (organizationsOf m s data domain).filter fun o => !s.affiliations.existsRow fun _ row =>
    row.personId = party && row.organizationId = o.1 && row.validTo = none

theorem answers_candidates : (candidates m party data).Answers s refs t ↔
    ∃ email phone domain r, FormOf m .email (data.verifiedEmail.or data.hints.email) email ∧
      FormOf m .phone data.hints.phone phone ∧
      FormOf m .url data.hints.organizationDomain domain ∧
      (proposeAll party data (contactsOf s party data email phone ++ namesOf m s party data ++
        unlinkedOf m s party data domain)).Answers s refs r ∧
      (addOrganization m party data (newOrganization m s data domain)).Answers r () t := by
  unfold candidates
  constructor
  · intro h
    rw [answers_bind] at h
    obtain ⟨email, r₁, hemail, h⟩ := h
    obtain ⟨hemailForm, rfl⟩ := answers_normalizedHint.mp hemail
    rw [answers_bind] at h
    obtain ⟨phone, r₂, hphone, h⟩ := h
    obtain ⟨hphoneForm, rfl⟩ := answers_normalizedHint.mp hphone
    rw [answers_bind] at h
    obtain ⟨domain, r₃, hdomain, h⟩ := h
    obtain ⟨hdomainForm, rfl⟩ := answers_normalizedHint.mp hdomain
    rw [answers_bind_get, answers_bind] at h
    obtain ⟨result, r, hpropose, h⟩ := h
    rw [answers_bind] at h
    obtain ⟨⟨⟩, r', horganization, h⟩ := h
    obtain ⟨rfl, rfl⟩ := answers_pure.mp h
    exact ⟨email, phone, domain, r, hemailForm, hphoneForm, hdomainForm, hpropose, horganization⟩
  · rintro ⟨email, phone, domain, r, hemail, hphone, hdomain, hpropose, horganization⟩
    refine answers_bind.mpr ⟨email, s, answers_normalizedHint.mpr ⟨hemail, rfl⟩, ?_⟩
    refine answers_bind.mpr ⟨phone, s, answers_normalizedHint.mpr ⟨hphone, rfl⟩, ?_⟩
    refine answers_bind.mpr ⟨domain, s, answers_normalizedHint.mpr ⟨hdomain, rfl⟩, ?_⟩
    rw [answers_bind_get]
    refine answers_bind.mpr ⟨refs, r, hpropose, ?_⟩
    exact answers_bind.mpr ⟨(), t, horganization, answers_pure.mpr ⟨rfl, rfl⟩⟩

/-- The query of similar names reads the displayed names of live persons. -/
def NamesOnly (m : Matching) : Prop :=
  ∀ s t : PartyState, (∀ id, t.personName id = s.personName id) →
    m.similarNames t = m.similarNames s

/-- Where the hints have a name of an organization and no domain, an organization of that name is
there, or the two normal forms of the name agree. -/
def OrganizationFound (m : Matching) (s : PartyState) (hints : Hints) : Prop :=
  ∀ name, hints.organizationName = some name → hints.organizationDomain = none →
    (∃ id, s.HasName m (m.normalizeName name) id) ∨ m.displayKey name = m.normalizeName name

theorem profile_of_fresh (hs : Sound s) (hid : s.nextId ≤ id) : s.profile id = none := by
  rw [PartyState.profile, Option.map_eq_none_iff, Option.eq_none_iff_forall_ne_some]
  intro row hrow
  exact absurd (hs.links.fresh id _ (link_of_lookup hrow)) (not_lt.mpr hid)

theorem personName_eq {name : String} :
    s.personName id = some name ↔ s.profile id = some (.person, none, name) := by
  rw [profile_eq_some, PartyState.personName, Option.map_eq_some_iff]
  simp [Option.filter_eq_some_iff, and_assoc]

theorem personName_congr (h : ∀ name, t.profile id = some (.person, none, name) ↔
    s.profile id = some (.person, none, name)) : t.personName id = s.personName id := by
  refine Option.ext fun name => ?_
  rw [personName_eq, personName_eq, h]

theorem Proposes.profile (h : Proposes s t) (id : Uuid) : t.profile id = s.profile id := by
  rw [PartyState.profile, h.parties, PartyState.profile]

variable {email phone : Option String}

theorem Proposes.contactsOf (h : Proposes s t) :
    contactsOf t party data email phone = contactsOf s party data email phone := by
  unfold Relationships.contactsOf contactMatches
  rw [h.contacts, h.parties]

theorem Proposes.organizationsOf (h : Proposes s t) {domain : Option String} :
    organizationsOf m t data domain = organizationsOf m s data domain := by
  unfold Relationships.organizationsOf organizationMatches
  rw [h.contacts, h.parties]

theorem Proposes.unlinkedOf (h : Proposes s t) {domain : Option String} :
    unlinkedOf m t party data domain = unlinkedOf m s party data domain := by
  unfold Relationships.unlinkedOf
  rw [h.organizationsOf, h.affiliations]

theorem Proposes.namesOf (h : Proposes s t) (hnames : NamesOnly m) :
    namesOf m t party data = namesOf m s party data := by
  unfold Relationships.namesOf
  rw [hnames s t fun id => personName_congr fun name => by rw [h.profile]]

theorem organizationsOf_eq_nil {domain : Option String} :
    organizationsOf m s data domain = [] ↔ (∀ value ∈ domain, ∀ id, ¬ s.HasDomain value id) ∧
      ∀ name ∈ data.hints.organizationName, ∀ id, ¬ s.HasName m (m.normalizeName name) id := by
  rw [organizationsOf, List.eq_nil_iff_forall_not_mem]
  constructor
  · intro h
    refine ⟨fun value hvalue id hid => h (id, .domain) ?_, fun name hname id hid =>
      h (id, .organizationName) ?_⟩
    · exact mem_organizationMatches.mpr (.inl ⟨rfl, value, hvalue, hid⟩)
    · exact mem_organizationMatches.mpr
        (.inr ⟨rfl, _, Option.mem_map_of_mem m.normalizeName hname, hid⟩)
  · rintro ⟨hdomain, hname⟩ ⟨id, hint⟩ hmem
    obtain ⟨-, value, hvalue, hid⟩ | ⟨-, key, hkey, hid⟩ := mem_organizationMatches.mp hmem
    · exact hdomain value hvalue id hid
    · obtain ⟨name, hname', rfl⟩ := Option.mem_map.mp hkey
      exact hname name hname' id hid

/-- Where no organization was made, a second call finds what the first has found. -/
theorem candidates_again_of_none {domain : Option String} (hnames : NamesOnly m)
    (hfresh : s.FreshCandidates)
    (hemail : FormOf m .email (data.verifiedEmail.or data.hints.email) email)
    (hphone : FormOf m .phone data.hints.phone phone)
    (hdomain : FormOf m .url data.hints.organizationDomain domain)
    (hpropose : (proposeAll party data (contactsOf s party data email phone ++ namesOf m s party
      data ++ unlinkedOf m s party data domain)).Answers s refs t)
    (hnone : newOrganization m s data domain = none) :
    ∃ refs', (candidates m party data).Answers t refs' t := by
  obtain ⟨hproposes, hsettled⟩ := proposes_of_proposeAll hfresh hpropose
  have hsame : newOrganization m t data domain = none := by
    rw [← hnone, newOrganization, newOrganization, hproposes.organizationsOf]
  rw [← hproposes.contactsOf, ← hproposes.namesOf hnames, ← hproposes.unlinkedOf] at hsettled
  obtain ⟨refs', hagain⟩ := @proposeAll_answers t party data _ hsettled
  refine ⟨refs', answers_candidates.mpr
    ⟨email, phone, domain, t, hemail, hphone, hdomain, hagain, ?_⟩⟩
  rw [hsame]
  exact answers_pure.mpr ⟨rfl, rfl⟩

section Made

variable {name : String} {domain : Option String} (hmade : OrganizationMade m r party data name t)
include hmade

theorem OrganizationMade.personName (hfresh : r.profile r.nextId = none) (id : Uuid) :
    t.personName id = r.personName id := by
  refine personName_congr fun other => ?_
  rw [hmade.profile]
  by_cases hid : id = r.nextId
  · rw [if_pos hid, hid, hfresh]
    simp
  · rw [if_neg hid]

theorem OrganizationMade.contactMatches {kind : ContactKind} (hkind : kind ≠ .url)
    {value source : String} (hmem : (other, hint) ∈ contactMatches t party kind value source) :
    (other, hint) ∈ Relationships.contactMatches r party kind value source := by
  obtain ⟨c, row, hrow, hretired, hrowKind, hvalue, howner, hne, ⟨display, hlive⟩, hhint⟩ :=
    mem_contactMatches.mp hmem
  have hother : other ≠ r.nextId := by
    intro hid
    rw [hmade.profile, if_pos hid] at hlive
    cases hlive
  rw [hmade.profile, if_neg hother] at hlive
  obtain hold | ⟨hurl, -⟩ := hmade.contacts c row hrow
  · exact mem_contactMatches.mpr
      ⟨c, row, hold, hretired, hrowKind, hvalue, howner, hne, ⟨display, hlive⟩, hhint⟩
  · exact absurd (hrowKind.symm.trans hurl) hkind

/-- The organization that was made is the only one that is found. -/
theorem OrganizationMade.eq_nextId (hnone : organizationsOf m r data domain = [])
    (hmem : (other, hint) ∈ organizationsOf m t data domain) : other = r.nextId := by
  by_contra hother
  obtain ⟨hdomain, hname⟩ := organizationsOf_eq_nil.mp hnone
  obtain ⟨-, value, hvalue, ⟨display, hlive⟩, c, row, hrow, hkind, hretired, hform, howner⟩ |
    ⟨-, key, hkey, display, hlive, hdisplay⟩ := mem_organizationMatches.mp hmem
  · rw [hmade.profile, if_neg hother] at hlive
    obtain hold | ⟨-, hnew⟩ := hmade.contacts c row hrow
    · exact hdomain value hvalue other
        ⟨⟨display, hlive⟩, c, row, hold, hkind, hretired, hform, howner⟩
    · exact hother (howner.symm.trans hnew)
  · rw [hmade.profile, if_neg hother] at hlive
    obtain ⟨text, htext, rfl⟩ := Option.mem_map.mp hkey
    exact hname text htext other ⟨display, hlive, hdisplay⟩

/-- The organization that was made is affiliated. -/
theorem OrganizationMade.unlinkedOf (hnone : organizationsOf m r data domain = []) :
    unlinkedOf m t party data domain = [] := by
  rw [Relationships.unlinkedOf, List.filter_eq_nil_iff]
  rintro ⟨other, hint⟩ hmem
  obtain rfl := hmade.eq_nextId hnone hmem
  obtain ⟨a, row, hrow, hperson, horganization, hopen⟩ := hmade.affiliated
  rw [Bool.not_eq_true', Bool.not_eq_false, Table.existsRow_iff]
  exact ⟨a, row, hrow, by simp [hperson, horganization, hopen]⟩

end Made

theorem newOrganization_eq_some {name : String} {domain : Option String} :
    newOrganization m s data domain = some name ↔ organizationsOf m s data domain = [] ∧
      data.hints.organizationName.or data.hints.organizationDomain = some name := by
  rw [newOrganization, ← List.isEmpty_iff]
  split
  · next h => simp [h]
  · next h => simp [h]

/-- Where an organization was made and is found, a second call makes none. -/
theorem candidates_again_of_made {domain : Option String} {name : String} (hs : Sound s)
    (hnames : NamesOnly m) (hfresh : s.FreshCandidates)
    (hemail : FormOf m .email (data.verifiedEmail.or data.hints.email) email)
    (hphone : FormOf m .phone data.hints.phone phone)
    (hdomain : FormOf m .url data.hints.organizationDomain domain)
    (hpropose : (proposeAll party data (contactsOf s party data email phone ++ namesOf m s party
      data ++ unlinkedOf m s party data domain)).Answers s refs r)
    (hname : newOrganization m s data domain = some name)
    (hmade : OrganizationMade m r party data name t) (hfound : OrganizationFound m s data.hints) :
    ∃ refs', (candidates m party data).Answers t refs' t := by
  obtain ⟨hproposes, hsettled⟩ := proposes_of_proposeAll hfresh hpropose
  obtain ⟨hnone, hor⟩ := newOrganization_eq_some.mp hname
  rw [← hproposes.organizationsOf] at hnone
  have hnew : r.profile r.nextId = none := by
    rw [hproposes.profile]
    exact profile_of_fresh hs hproposes.nextId
  -- what the second call proposes was settled by the first
  have hagain : ∀ pair ∈ contactsOf t party data email phone ++ namesOf m t party data ++
      unlinkedOf m t party data domain, t.Settled party pair.1 pair.2 := by
    intro pair hpair
    have hkept (hold : pair ∈ contactsOf r party data email phone ++ namesOf m r party data) :
        t.Settled party pair.1 pair.2 := by
      rw [hproposes.contactsOf, hproposes.namesOf hnames] at hold
      have hpairSettled := hsettled pair (List.mem_append_left _ hold)
      simpa only [PartyState.Settled, PartyState.OpenPair, PartyState.RejectedPair,
        hmade.candidates] using hpairSettled
    rw [hmade.unlinkedOf hnone, List.append_nil] at hpair
    apply hkept
    obtain hcontact | hsimilar := List.mem_append.mp hpair
    · refine List.mem_append_left _ ?_
      obtain ⟨other, hint⟩ := pair
      obtain hmem | hmem := List.mem_append.mp hcontact
      · obtain ⟨value, hvalue, hmem⟩ := List.mem_flatMap.mp hmem
        exact List.mem_append_left _ (List.mem_flatMap.mpr
          ⟨value, hvalue, hmade.contactMatches (by decide) hmem⟩)
      · obtain ⟨value, hvalue, hmem⟩ := List.mem_flatMap.mp hmem
        exact List.mem_append_right _ (List.mem_flatMap.mpr
          ⟨value, hvalue, hmade.contactMatches (by decide) hmem⟩)
    · refine List.mem_append_right _ ?_
      rw [namesOf, hnames r t (hmade.personName hnew)] at hsimilar
      exact hsimilar
  have hthere : newOrganization m t data domain = none := by
    rw [Option.eq_none_iff_forall_ne_some]
    intro text htext
    obtain ⟨hempty, -⟩ := newOrganization_eq_some.mp htext
    obtain ⟨hnoDomain, hnoName⟩ := organizationsOf_eq_nil.mp hempty
    cases hvalue : data.hints.organizationDomain with
    | some value =>
      rw [FormOf, hvalue] at hdomain
      obtain ⟨form, rfl, hform⟩ := Option.map_eq_some_iff.mp hdomain.symm
      exact hnoDomain form rfl r.nextId (hmade.domain value hvalue form hform.symm)
    | none =>
      rw [hvalue, Option.or_none] at hor
      obtain ⟨id, hid⟩ | hkeys := hfound name hor hvalue
      · rw [hproposes.organizationsOf] at hnone
        exact (organizationsOf_eq_nil.mp hnone).2 name hor id hid
      · refine hnoName name hor r.nextId ⟨name, ?_, hkeys⟩
        rw [hmade.profile, if_pos rfl]
  obtain ⟨refs', hpropose'⟩ := @proposeAll_answers t party data _ hagain
  refine ⟨refs', answers_candidates.mpr
    ⟨email, phone, domain, t, hemail, hphone, hdomain, hpropose', ?_⟩⟩
  rw [hthere]
  exact answers_pure.mpr ⟨rfl, rfl⟩

/-- Where the name of the organization that is made has another normal form, a second call makes
another. -/
theorem candidates_again_of_lost {refs' : List Uuid} (ht : Sound t) (hfresh : s.FreshCandidates)
    (ht' : t.FreshCandidates) (hlost : ¬ OrganizationFound m s data.hints)
    (h : (candidates m party data).Answers s refs t)
    (hagain : (candidates m party data).Answers t refs' u) :
    ∃ id, t.parties.lookup id = none ∧ u.parties.lookup id ≠ none := by
  simp only [OrganizationFound, not_forall, not_or, not_exists] at hlost
  obtain ⟨name, hname, hdomain, hno, hkeys⟩ := hlost
  have hform {domain : Option String} (hdomainForm : FormOf m .url data.hints.organizationDomain
      domain) : domain = none := by
    rw [FormOf, hdomain] at hdomainForm
    exact Option.map_eq_none_iff.mp hdomainForm.symm
  have hmake {s : PartyState} (hnone : ∀ id, ¬ s.HasName m (m.normalizeName name) id) :
      newOrganization m s data none = some name := by
    refine newOrganization_eq_some.mpr ⟨organizationsOf_eq_nil.mpr ⟨?_, ?_⟩, ?_⟩
    · intro value hvalue
      cases hvalue
    · intro text htext
      obtain rfl := Option.some.inj (hname.symm.trans htext)
      exact hnone
    · rw [hname, Option.some_or]
  obtain ⟨email, phone, domain, r, -, -, hdomainForm, hpropose, horganization⟩ :=
    answers_candidates.mp h
  obtain rfl := hform hdomainForm
  rw [hmake hno] at horganization
  have hmade := organizationMade_of_answers horganization
  obtain ⟨hproposes, -⟩ := proposes_of_proposeAll hfresh hpropose
  have hlost' (id : Uuid) : ¬ t.HasName m (m.normalizeName name) id := by
    rintro ⟨display, hdisplay, hkey⟩
    rw [hmade.profile] at hdisplay
    by_cases hid : id = r.nextId
    · rw [if_pos hid] at hdisplay
      obtain rfl : name = display := congrArg (fun x => x.2.2) (Option.some.inj hdisplay)
      exact hkeys hkey
    · rw [if_neg hid, hproposes.profile] at hdisplay
      exact hno id ⟨display, hdisplay, hkey⟩
  obtain ⟨email', phone', domain', r', -, -, hdomainForm', hpropose', horganization'⟩ :=
    answers_candidates.mp hagain
  obtain rfl := hform hdomainForm'
  rw [hmake hlost'] at horganization'
  have hmade' := organizationMade_of_answers horganization'
  obtain ⟨hproposes', -⟩ := proposes_of_proposeAll ht' hpropose'
  refine ⟨r'.nextId, ?_, ?_⟩
  · have hnone := profile_of_fresh ht hproposes'.nextId
    exact Option.map_eq_none_iff.mp hnone
  · intro hnone
    have hsome := hmade'.profile r'.nextId
    rw [if_pos rfl, PartyState.profile, hnone] at hsome
    cases hsome

end Rheostream.Relationships
