import Rheostream.Relationships.ResolvedTwice

/-!
# Rejected pairs

A pair whose candidate was rejected for a hint is not proposed for it again, whatever calls come
between: the candidate stays rejected until a party of the pair is erased, and what is erased does
not come back.
-/

namespace Rheostream.Relationships

open Handler

variable {m : Matching} {s t r u : PartyState} {party id : Uuid} {data : ResolveInput}

/-- Two candidates are about one pair and one hint. -/
def CandidateRow.Same (row other : CandidateRow) : Prop :=
  row.partyId = other.partyId ∧ row.candidatePartyId = other.candidatePartyId ∧
    row.hint = other.hint

theorem CandidateRow.Same.refl (row : CandidateRow) : row.Same row := ⟨rfl, rfl, rfl⟩

theorem CandidateRow.Same.trans {a b c : CandidateRow} (h : a.Same b) (h' : b.Same c) : a.Same c :=
  ⟨h.1.trans h'.1, h.2.1.trans h'.2.1, h.2.2.trans h'.2.2⟩

/-! ### Calls that propose nothing -/

/-- Open candidates may be resolved. -/
def Advances (s t : PartyState) : Prop :=
  ∀ id, t.candidates.lookup id = s.candidates.lookup id ∨
    ∃ row row', s.candidates.lookup id = some row ∧ row.state = .open ∧
      t.candidates.lookup id = some row' ∧ row'.Same row

theorem advances_of_eq (h : t.candidates = s.candidates) : Advances s t := by
  intro id
  exact .inl (by rw [h])

theorem Advances.trans (hfirst : Advances s t) (hrest : Advances t u) : Advances s u := by
  intro id
  obtain hsame | ⟨row, row', hrow, hopen, hrow', hpair⟩ := hfirst id
  · obtain hsame' | ⟨row, row', hrow, hopen, hrow', hpair⟩ := hrest id
    · exact .inl (hsame'.trans hsame)
    · exact .inr ⟨row, row', hsame ▸ hrow, hopen, hrow', hpair⟩
  · right
    obtain hsame' | ⟨row₂, row₂', hrow₂, -, hrow₂', hpair₂⟩ := hrest id
    · exact ⟨row, row', hrow, hopen, hsame'.trans hrow', hpair⟩
    · obtain rfl := Option.some.inj (hrow'.symm.trans hrow₂)
      exact ⟨row, row₂', hrow, hopen, hrow₂', hpair₂.trans hpair⟩

theorem Advances.of_within (h : Relation.ReflTransGen Advances s t) : Advances s t := by
  induction h with
  | refl => exact advances_of_eq rfl
  | tail _ hone ih => exact ih.trans hone

theorem advances_write {f : PartyState → PartyState}
    (h : ∀ s, (f s).candidates = s.candidates) : Within Advances (write f) := by
  apply within_of_step
  intro s _ t hwrite
  obtain rfl := answers_write.mp hwrite
  exact advances_of_eq (h s)

theorem advances_then {α : Type} {f : PartyState → PartyState} {k : Unit → PartyHandler α}
    (h : ∀ s, (f s).candidates = s.candidates) (hrest : ∀ a, Within Advances (k a)) :
    Within Advances (write f >>= k) :=
  (advances_write h).bind hrest

theorem advances_getRow : Within Advances (getRow id) := within_get.bind fun _ => within_found

theorem advances_getLive : Within Advances (getLive id) :=
  advances_getRow.bind fun _ => within_require.bind fun _ => within_pure

variable {revision : ℕ}

theorem advances_checked : Within Advances (checked id revision) :=
  advances_getLive.bind fun _ => within_require.bind fun _ => within_pure

theorem advances_uuid7 : Within Advances uuid7 :=
  within_get.bind fun _ => advances_then (fun _ => rfl) fun _ => within_pure

theorem advances_bump {revision : Option ℕ} : Within Advances (bump id revision) :=
  within_get.bind fun _ => within_found.bind fun _ => within_require.bind fun _ =>
    advances_then (fun _ => rfl) fun _ => within_pure

theorem advances_bumpAll (ids : List Uuid) : Within Advances (bumpAll ids) := by
  induction ids with
  | nil => exact within_pure
  | cons id ids ih => exact advances_bump.bind fun _ => ih

variable {name : String}

theorem advances_createRow {kind : PartyKind} : Within Advances (createRow kind name) :=
  advances_uuid7.bind fun _ => advances_then (fun _ => rfl) fun _ => within_pure

theorem advances_addContact {new : NewContact} : Within Advances (addContact m party new) :=
  within_found.bind fun _ => within_require.bind fun _ => advances_uuid7.bind fun _ =>
    within_get.bind fun _ => within_require.bind fun _ =>
      advances_then (fun _ => rfl) fun _ => within_pure

theorem advances_addContacts (news : List NewContact) :
    Within Advances (addContacts m party news) := by
  induction news with
  | nil => exact within_pure
  | cons new news ih => exact advances_addContact.bind fun _ => ih

theorem advances_partyCreate {kind : PartyKind} {points : List NewContact} :
    Within Advances (partyCreate m kind name points) :=
  within_require.bind fun _ => advances_createRow.bind fun _ =>
    (advances_addContacts points).bind fun _ => within_pure

theorem advances_partyUpdate : Within Advances (partyUpdate id revision name) :=
  advances_checked.bind fun _ => advances_bump.bind fun _ => advances_write fun _ => rfl

theorem advances_contactAdd {kind : ContactKind} {value : String} :
    Within Advances (contactAdd m party revision kind value) :=
  advances_checked.bind fun _ => advances_addContact.bind fun _ => advances_bump.bind fun _ =>
    within_pure

theorem advances_contactChange {contact : Uuid} {retire : Bool} {now : ℕ} :
    Within Advances (contactChange party revision contact retire now) := by
  refine advances_checked.bind fun _ => within_get.bind fun _ => within_found.bind fun row => ?_
  split
  · exact within_pure
  · exact advances_then (fun _ => rfl) fun _ => advances_bump.bind fun _ => within_pure

theorem advances_addAffiliation {person organization : Uuid} {validFrom validTo : Option ℤ} :
    Within Advances (addAffiliation person organization validFrom validTo) :=
  advances_getLive.bind fun _ => within_require.bind fun _ => advances_getLive.bind fun _ =>
    within_require.bind fun _ => within_require.bind fun _ => within_get.bind fun _ =>
      within_require.bind fun _ => advances_uuid7.bind fun _ =>
        advances_then (fun _ => rfl) fun _ => advances_bump.bind fun _ => within_pure

theorem advances_affiliationAdd {person organization : Uuid} {validFrom validTo : Option ℤ} :
    Within Advances (affiliationAdd person organization revision validFrom validTo) :=
  advances_checked.bind fun _ => advances_addAffiliation.bind fun _ => advances_bump.bind fun _ =>
    within_pure

theorem advances_affiliationEnd {person affiliation : Uuid} {validTo : ℤ} :
    Within Advances (affiliationEnd person revision affiliation validTo) :=
  advances_checked.bind fun _ => within_get.bind fun _ => within_found.bind fun _ =>
    within_require.bind fun _ => advances_then (fun _ => rfl) fun _ =>
      advances_bump.bind fun _ => advances_bump.bind fun _ => within_pure

theorem advances_restoreItem {target : Uuid} {item : MergeItem} :
    Within Advances (restoreItem target item) := by
  refine within_get.bind fun s => ?_
  split
  · split
    · exact within_pure
    · exact within_require.bind fun _ => advances_write fun _ => rfl
  · split
    · exact within_pure
    · exact within_require.bind fun _ => within_require.bind fun _ => advances_write fun _ => rfl
  · split
    · exact within_pure
    · exact within_require.bind fun _ => advances_write fun _ => rfl

theorem advances_restoreItems {target : Uuid} (rows : List MergeItem) :
    Within Advances (restoreItems target rows) := by
  induction rows with
  | nil => exact within_pure
  | cons item rows ih => exact advances_restoreItem.bind fun _ => ih

variable {ctx : CallContext}

theorem advances_unmerge {record : Uuid} {note : Option String} {rows : List MergeItem} :
    Within Advances (unmerge ctx record note rows) :=
  within_require.bind fun _ => within_get.bind fun _ => within_found.bind fun _ =>
    within_require.bind fun _ => advances_getRow.bind fun _ => advances_getRow.bind fun _ =>
      within_require.bind fun _ => (advances_restoreItems rows).bind fun _ =>
        advances_then (fun _ => rfl) fun _ => (advances_bumpAll _).bind fun _ =>
          advances_write fun _ => rfl

/-- A merge withdraws open candidates only. -/
theorem advances_withdraw {ids : List Uuid} {now : ℕ} :
    Within Advances (write fun s => s.withdraw ids now) := by
  apply within_of_step
  intro s _ t hwrite
  obtain rfl := answers_write.mp hwrite
  intro id
  rw [PartyState.withdraw, Table.lookup_updateAll]
  cases hrow : s.candidates.lookup id with
  | none => exact .inl rfl
  | some row =>
    rw [Option.map_some]
    split
    · next hopen => exact .inr ⟨row, _, rfl, hopen.1, rfl, rfl, rfl, rfl⟩
    · exact .inl rfl

theorem advances_merge {data : MergeInput} : Within Advances (merge ctx data) :=
  within_require.bind fun _ => advances_checked.bind fun _ => advances_checked.bind fun _ =>
    within_require.bind fun _ => within_require.bind fun _ => within_get.bind fun _ =>
      within_require.bind fun _ => advances_uuid7.bind fun _ =>
        advances_then (fun _ => rfl) fun _ => advances_then (fun _ => rfl) fun _ =>
          advances_then (fun _ => rfl) fun _ => advances_then (fun _ => rfl) fun _ =>
            advances_then (fun _ => rfl) fun _ => advances_then (fun _ => rfl) fun _ =>
              advances_then (fun _ => rfl) fun _ => advances_then (fun _ => rfl) fun _ =>
                (advances_bumpAll _).bind fun _ => advances_withdraw.bind fun _ => within_pure

theorem same_of_acceptCandidate {data : ReviewInput} {row resolved : CandidateRow}
    (h : (acceptCandidate ctx data row).Answers s resolved t) : resolved.Same row := by
  rw [acceptCandidate, answers_bind_getLive] at h
  obtain ⟨left, -, -, h⟩ := h
  rw [answers_bind_getLive] at h
  obtain ⟨right, -, -, h⟩ := h
  cases hkind : row.kind with
  | sameParty =>
    rw [hkind] at h
    dsimp only at h
    rw [answers_bind_require] at h
    obtain ⟨-, h⟩ := h
    rw [answers_bind] at h
    obtain ⟨record, r, -, h⟩ := h
    obtain ⟨rfl, -⟩ := answers_pure.mp h
    exact ⟨rfl, rfl, rfl⟩
  | affiliation =>
    rw [hkind] at h
    dsimp only at h
    rw [answers_bind_require] at h
    obtain ⟨-, h⟩ := h
    rw [answers_bind] at h
    obtain ⟨affiliation, r, -, h⟩ := h
    rw [answers_bind] at h
    obtain ⟨revision, r', -, h⟩ := h
    obtain ⟨rfl, -⟩ := answers_pure.mp h
    exact ⟨rfl, rfl, rfl⟩

variable {row : CandidateRow}

theorem advances_acceptCandidate {data : ReviewInput} :
    Within Advances (acceptCandidate ctx data row) := by
  refine advances_getLive.bind fun left => advances_getLive.bind fun right => ?_
  cases row.kind with
  | sameParty => exact within_require.bind fun _ => advances_merge.bind fun _ => within_pure
  | affiliation =>
    exact within_require.bind fun _ => advances_addAffiliation.bind fun _ =>
      advances_bump.bind fun _ => within_pure

/-- A review resolves the open candidate that it is about. -/
theorem advances_resolveReview {data : ReviewInput} : Within Advances (resolveReview ctx data) := by
  apply within_of_step
  intro s answer t h
  rw [resolveReview, answers_bind_get, answers_bind_found] at h
  obtain ⟨row, hrow, h⟩ := h
  rw [answers_bind_require] at h
  obtain ⟨hopen, h⟩ := h
  rw [answers_bind] at h
  obtain ⟨resolved, r, hresolved, h⟩ := h
  obtain rfl := answers_write.mp h
  have hboth : Advances s r ∧ resolved.Same row := by
    rw [resolvedRow] at hresolved
    split at hresolved
    · exact ⟨.of_within (advances_acceptCandidate s resolved r hresolved),
        same_of_acceptCandidate hresolved⟩
    · obtain ⟨rfl, rfl⟩ := answers_pure.mp hresolved
      exact ⟨advances_of_eq rfl, rfl, rfl, rfl⟩
  intro id
  rw [Table.lookup_insert]
  by_cases hid : id = data.candidateId
  · rw [if_pos hid, hid]
    exact .inr ⟨row, resolved, hrow, hopen, rfl, hboth.2⟩
  · rw [if_neg hid]
    exact hboth.1 id

/-! ### What a call leaves of the candidates -/

/-- A candidate of the pair and the hint was rejected, or a party of the pair is gone. -/
def PartyState.Barred (s : PartyState) (c : CandidateRow) : Prop :=
  (∃ id row, s.candidates.lookup id = some row ∧ row.Same c ∧ row.state = .rejected) ∨
    (c.partyId < s.nextId ∧ s.link c.partyId = none) ∨
      (c.candidatePartyId < s.nextId ∧ s.link c.candidatePartyId = none)

/-- Candidates stay about their pairs, rejected ones stay rejected as long as their parties are
there, and no barred pair gets one. -/
structure CandidatesFollow (s t : PartyState) : Prop where
  kept : ∀ id row, s.candidates.lookup id = some row → ∃ row', t.candidates.lookup id = some row' ∧
    row'.Same row ∧ (row.state = .rejected → row'.state = .rejected ∨
      t.link row.partyId = none ∨ t.link row.candidatePartyId = none)
  added : ∀ id row', t.candidates.lookup id = some row' → s.candidates.lookup id = none →
    id < t.nextId ∧ row'.partyId < t.nextId ∧ row'.candidatePartyId < t.nextId ∧ ¬ s.Barred row'

/-- Candidates were drawn, and so were the parties of their pairs. -/
structure PartyState.Valid (s : PartyState) : Prop where
  sound : Sound s
  fresh : s.FreshCandidates
  drawn : ∀ id row, s.candidates.lookup id = some row →
    row.partyId < s.nextId ∧ row.candidatePartyId < s.nextId

theorem Advances.follow (h : Advances s t) : CandidatesFollow s t where
  kept id row hrow := by
    obtain hsame | ⟨row₀, row', hrow₀, hopen, hrow', hpair⟩ := h id
    · exact ⟨row, hsame.trans hrow, .refl row, fun hrejected => .inl hrejected⟩
    · obtain rfl := Option.some.inj (hrow.symm.trans hrow₀)
      refine ⟨row', hrow', hpair, fun hrejected => ?_⟩
      rw [hopen] at hrejected
      cases hrejected
  added id row' hrow' hnone := by
    obtain hsame | ⟨row₀, -, hrow₀, -⟩ := h id
    · rw [hsame, hnone] at hrow'
      cases hrow'
    · rw [hnone] at hrow₀
      cases hrow₀

theorem CandidatesFollow.valid (h : CandidatesFollow s t) (hs : s.Valid) (ht : Sound t)
    (hle : s.nextId ≤ t.nextId) : t.Valid := by
  have hrow (id : Uuid) (row' : CandidateRow) (hrow' : t.candidates.lookup id = some row') :
      id < t.nextId ∧ row'.partyId < t.nextId ∧ row'.candidatePartyId < t.nextId := by
    cases hold : s.candidates.lookup id with
    | none =>
      obtain ⟨hid, hleft, hright, -⟩ := h.added id row' hrow' hold
      exact ⟨hid, hleft, hright⟩
    | some row =>
      obtain ⟨row₀, hrow₀, ⟨hleft, hright, -⟩, -⟩ := h.kept id row hold
      obtain rfl := Option.some.inj (hrow'.symm.trans hrow₀)
      obtain ⟨hleft', hright'⟩ := hs.drawn id row hold
      rw [hleft, hright]
      exact ⟨(hs.fresh id row hold).trans_le hle, hleft'.trans_le hle, hright'.trans_le hle⟩
  exact ⟨ht, fun id row h => (hrow id row h).1, fun id row h => (hrow id row h).2⟩

/-- What is barred stays barred. -/
theorem CandidatesFollow.barred {c : CandidateRow} (h : CandidatesFollow s t) (hs : s.Valid)
    (hreturns : NoneReturns s t) (hbarred : s.Barred c) : t.Barred c := by
  obtain ⟨id, row, hrow, hpair, hrejected⟩ | ⟨hleft, hgone⟩ | ⟨hright, hgone⟩ := hbarred
  · obtain ⟨row', hrow', hpair', hstate⟩ := h.kept id row hrow
    obtain ⟨hleft, hright⟩ := hs.drawn id row hrow
    rw [hpair.1] at hleft
    rw [hpair.2.1] at hright
    obtain hkept | hgone | hgone := hstate hrejected
    · exact .inl ⟨id, row', hrow', hpair'.trans hpair, hkept⟩
    · exact .inr (.inl ⟨hleft.trans_le hreturns.nextId, hpair.1 ▸ hgone⟩)
    · exact .inr (.inr ⟨hright.trans_le hreturns.nextId, hpair.2.1 ▸ hgone⟩)
  · exact .inr (.inl ⟨hleft.trans_le hreturns.nextId, hreturns.parties _ hleft hgone⟩)
  · exact .inr (.inr ⟨hright.trans_le hreturns.nextId, hreturns.parties _ hright hgone⟩)

/-! ### Erasures -/

/-- The candidates of an erased party are withdrawn. -/
theorem follow_deleteOwned {removed : List Uuid}
    (h : (deleteOwned ctx id revision).Answers s removed t) : CandidatesFollow s t := by
  simp only [deleteOwned, answers_bind_get, answers_bind_found, answers_bind_require,
    answers_bind_write, answers_pure] at h
  obtain ⟨target, -, -, -, rfl⟩ := h
  have hgone (party : Uuid) (hparty : party ∈ id :: s.aliasIds id) (u : PartyState)
      (hu : u.parties = s.parties.deleteWhere fun other _ => other ∈ id :: s.aliasIds id) :
      u.link party = none := by
    rw [PartyState.link, hu, Table.lookup_deleteWhere, Option.map_eq_none_iff,
      Option.filter_eq_none_iff]
    simp [hparty]
  constructor
  case kept =>
    intro candidate row hrow
    by_cases hids : row.partyId ∈ id :: s.aliasIds id ∨ row.candidatePartyId ∈ id :: s.aliasIds id
    · refine ⟨{ row with state := .withdrawn, resolvedAt := some ctx.now }, ?_, ⟨rfl, rfl, rfl⟩,
        fun _ => .inr ?_⟩
      · rw [Table.lookup_updateAll, hrow, Option.map_some, if_pos hids]
      · exact hids.imp (fun hparty => hgone _ hparty _ rfl) fun hparty => hgone _ hparty _ rfl
    · refine ⟨row, ?_, .refl row, .inl⟩
      rw [Table.lookup_updateAll, hrow, Option.map_some, if_neg hids]
  case added =>
    intro candidate row' hrow' hnone
    rw [Table.lookup_updateAll, hnone] at hrow'
    cases hrow'

/-! ### Proposals -/

variable {other : Uuid} {hint : Hint} {pairs : List (Uuid × Hint)} {refs : List Uuid}

theorem CandidateRow.About.parties (h : row.About party other hint) :
    (row.partyId = party ∨ row.partyId = other) ∧
      (row.candidatePartyId = party ∨ row.candidatePartyId = other) := by
  obtain ⟨hleft, hright⟩ := Prod.mk.inj h.1
  rw [hleft, hright, candidatePair]
  split
  · exact ⟨.inl rfl, .inr rfl⟩
  · exact ⟨min_choice party other, max_choice party other⟩

/-- A pair of parties that are there is not barred, unless it was rejected. -/
theorem not_barred (habout : row.About party other hint) (hparty : s.link party ≠ none)
    (hother : s.link other ≠ none) (hrejected : ¬ s.RejectedPair party other hint) :
    ¬ s.Barred row := by
  have hthere (id : Uuid) (hid : id = party ∨ id = other) : s.link id ≠ none := by
    obtain rfl | rfl := hid
    · exact hparty
    · exact hother
  obtain ⟨hleft, hright⟩ := habout.parties
  rintro (⟨id, row', hrow', hsame, hstate⟩ | ⟨-, hnone⟩ | ⟨-, hnone⟩)
  · refine hrejected ⟨id, row', hrow', ⟨?_, hsame.2.2.trans habout.2⟩, hstate⟩
    rw [hsame.1, hsame.2.1]
    exact habout.1
  · exact hthere _ hleft hnone
  · exact hthere _ hright hnone

/-- The candidate is about one of the pairs, and the pair was not rejected. -/
def PartyState.Proposable (s : PartyState) (party : Uuid) (pairs : List (Uuid × Hint))
    (row : CandidateRow) : Prop :=
  ∃ pair ∈ pairs, row.About party pair.1 pair.2 ∧ ¬ s.RejectedPair party pair.1 pair.2

/-- What the proposals of pairs add, and what they answer. -/
structure Proposed (s : PartyState) (party : Uuid) (pairs : List (Uuid × Hint)) (refs : List Uuid)
    (t : PartyState) : Prop where
  added : ∀ id row, t.candidates.lookup id = some row →
    s.candidates.lookup id = some row ∨ s.Proposable party pairs row
  answers : ∀ id ∈ refs, ∃ row, t.candidates.lookup id = some row ∧ s.Proposable party pairs row

theorem Proposal.proposed {answer : Option Uuid} (h : Proposal s party other hint data answer t) :
    Proposed s party [(other, hint)] answer.toList t := by
  have hpair (row : CandidateRow) (habout : row.About party other hint)
      (hrejected : ¬ s.RejectedPair party other hint) :
      s.Proposable party [(other, hint)] row :=
    ⟨(other, hint), List.mem_singleton_self _, habout, hrejected⟩
  cases h with
  | self _ => exact ⟨fun _ _ hrow => .inl hrow, fun _ hid => by cases hid⟩
  | rejected _ _ => exact ⟨fun _ _ hrow => .inl hrow, fun _ hid => by cases hid⟩
  | «open» _ hrejected hrow habout _ =>
    refine ⟨fun _ _ h => .inl h, fun id hid => ?_⟩
    obtain rfl := List.mem_singleton.mp hid
    exact ⟨_, hrow, hpair _ habout hrejected⟩
  | new _ hrejected _ =>
    have hnew := hpair (newCandidate party other hint data) about_newCandidate hrejected
    constructor
    · intro id row hrow
      rw [Table.lookup_insert] at hrow
      split at hrow
      · exact .inr (Option.some.inj hrow ▸ hnew)
      · exact .inl hrow
    · intro id hid
      obtain rfl := List.mem_singleton.mp hid
      exact ⟨newCandidate party other hint data, by rw [Table.lookup_insert, if_pos rfl], hnew⟩

theorem proposed_of_proposeAll (hfresh : s.FreshCandidates)
    (h : (proposeAll party data pairs).Answers s refs t) : Proposed s party pairs refs t := by
  induction pairs generalizing s refs with
  | nil =>
    obtain ⟨rfl, rfl⟩ := answers_pure.mp h
    exact ⟨fun _ _ hrow => .inl hrow, fun _ hid => by cases hid⟩
  | cons pair pairs ih =>
    rw [proposeAll, answers_bind] at h
    obtain ⟨first, r, hfirst, h⟩ := h
    rw [answers_bind] at h
    obtain ⟨others, r', hothers, h⟩ := h
    obtain ⟨rfl, rfl⟩ := answers_pure.mp h
    have hproposal := proposal_of_answers hfirst
    have hone := hproposal.proposed
    obtain ⟨hproposes, -⟩ := hproposal.proposes hfresh
    obtain ⟨hkeep, -⟩ := proposes_of_proposeAll hproposes.fresh hothers
    have hrest := ih hproposes.fresh hothers
    have hhead (row : CandidateRow) (hrow : s.Proposable party [pair] row) :
        s.Proposable party (pair :: pairs) row := by
      obtain ⟨p, hp, hrow⟩ := hrow
      obtain rfl := List.mem_singleton.mp hp
      exact ⟨p, List.mem_cons_self, hrow⟩
    have htail (row : CandidateRow) (hrow : r.Proposable party pairs row) :
        s.Proposable party (pair :: pairs) row := by
      obtain ⟨p, hp, habout, hrejected⟩ := hrow
      refine ⟨p, List.mem_cons_of_mem _ hp, habout, fun hold => hrejected ?_⟩
      obtain ⟨id, old, hold, hstate⟩ := hold
      exact ⟨id, old, hproposes.kept id old hold, hstate⟩
    constructor
    · intro id row hrow
      obtain hold | hnew := hrest.added id row hrow
      · exact (hone.added id row hold).imp_right (hhead row)
      · exact .inr (htail row hnew)
    · intro id hid
      obtain hid | hid := List.mem_append.mp hid
      · obtain ⟨row, hrow, hnew⟩ := hone.answers id hid
        exact ⟨row, hkeep.kept id row hrow, hhead row hnew⟩
      · obtain ⟨row, hrow, hnew⟩ := hrest.answers id hid
        exact ⟨row, hrow, htail row hnew⟩

/-- The query of similar names answers live persons. -/
def NamesLive (m : Matching) : Prop :=
  ∀ (s : PartyState) (key : String) (party : Uuid), ∀ id ∈ m.similarNames s key party,
    (s.personName id).isSome = true

theorem link_ne_none {x : PartyKind × Option Uuid × String} (h : s.profile id = some x) :
    s.link id ≠ none := by
  obtain ⟨row, hrow, -⟩ := profile_eq_some.mp h
  rw [link_of_lookup hrow]
  exact Option.some_ne_none _

/-- The parties that are matched are there. -/
theorem link_of_mem {email phone domain : Option String} (hnames : NamesLive m)
    (hmem : (other, hint) ∈ contactsOf s party data email phone ++ namesOf m s party data ++
      unlinkedOf m s party data domain) : s.link other ≠ none := by
  have hcontact {kind : ContactKind} {value : Option String}
      (h : (other, hint) ∈ value.toList.flatMap fun value =>
        contactMatches s party kind value data.sourceNamespace) : s.link other ≠ none := by
    obtain ⟨value, -, h⟩ := List.mem_flatMap.mp h
    obtain ⟨c, row, -, -, -, -, -, -, ⟨name, hprofile⟩, -⟩ := mem_contactMatches.mp h
    exact link_ne_none hprofile
  obtain hmem | horganization := List.mem_append.mp hmem
  · obtain hcontacts | hname := List.mem_append.mp hmem
    · exact (List.mem_append.mp hcontacts).elim hcontact hcontact
    · obtain ⟨name, -, hname⟩ := List.mem_flatMap.mp hname
      obtain ⟨id, hid, heq⟩ := List.mem_map.mp hname
      obtain ⟨rfl, -⟩ := Prod.mk.inj heq
      obtain ⟨text, htext⟩ := Option.isSome_iff_exists.mp (hnames s _ party id hid)
      exact link_ne_none (personName_eq.mp htext)
  · obtain ⟨horganization, -⟩ := List.mem_filter.mp horganization
    obtain ⟨-, value, -, ⟨name, hprofile⟩, -⟩ | ⟨-, key, -, name, hprofile, -⟩ :=
      mem_organizationMatches.mp horganization
    · exact link_ne_none hprofile
    · exact link_ne_none hprofile

/-- The candidates of a live party are about pairs that are not barred. -/
theorem follow_candidates (hr : Sound r) (hfresh : r.FreshCandidates) (hnames : NamesLive m)
    (hlive : r.IsLive .person party) (h : (candidates m party data).Answers r refs t) :
    CandidatesFollow r t ∧
      ∀ id ∈ refs, ∃ row, t.candidates.lookup id = some row ∧ ¬ r.Barred row := by
  obtain ⟨email, phone, domain, r', -, -, -, hpropose, horganization⟩ := answers_candidates.mp h
  obtain ⟨hproposes, -⟩ := proposes_of_proposeAll hfresh hpropose
  have hproposed := proposed_of_proposeAll hfresh hpropose
  obtain ⟨hcandidates, hnext⟩ : t.candidates = r'.candidates ∧ r'.nextId ≤ t.nextId := by
    cases hname : newOrganization m r data domain with
    | none =>
      rw [hname] at horganization
      obtain ⟨-, rfl⟩ := answers_pure.mp horganization
      exact ⟨rfl, le_rfl⟩
    | some name =>
      rw [hname] at horganization
      have hmade := organizationMade_of_answers horganization
      exact ⟨hmade.candidates, hmade.nextId⟩
  obtain ⟨text, hprofile⟩ := hlive
  have hrow (row : CandidateRow) (hrow : r.Proposable party (contactsOf r party data email phone ++
      namesOf m r party data ++ unlinkedOf m r party data domain) row) :
      row.partyId < r.nextId ∧ row.candidatePartyId < r.nextId ∧ ¬ r.Barred row := by
    obtain ⟨⟨other, hint⟩, hmem, habout, hrejected⟩ := hrow
    have hother := link_of_mem hnames hmem
    have hparty := link_ne_none hprofile
    have hdrawn (id : Uuid) (hid : id = party ∨ id = other) : id < r.nextId := by
      have hthere : r.link id ≠ none := by
        obtain rfl | rfl := hid
        · exact hparty
        · exact hother
      obtain ⟨l, hl⟩ := Option.ne_none_iff_exists'.mp hthere
      exact hr.links.fresh id l hl
    obtain ⟨hleft, hright⟩ := habout.parties
    exact ⟨hdrawn _ hleft, hdrawn _ hright, not_barred habout hparty hother hrejected⟩
  refine ⟨⟨fun id row hold => ?_, fun id row' hrow' hnone => ?_⟩, fun id hid => ?_⟩
  · exact ⟨row, hcandidates ▸ hproposes.kept id row hold, .refl row, .inl⟩
  · rw [hcandidates] at hrow'
    obtain hold | hnew := hproposed.added id row' hrow'
    · rw [hnone] at hold
      cases hold
    · obtain ⟨hleft, hright, hbarred⟩ := hrow row' hnew
      have hle := hproposes.nextId.trans hnext
      exact ⟨(hproposes.fresh id row' hrow').trans_le hnext, hleft.trans_le hle,
        hright.trans_le hle, hbarred⟩
  · obtain ⟨row, hid, hnew⟩ := hproposed.answers id hid
    exact ⟨row, hcandidates ▸ hid, (hrow row hnew).2.2⟩

/-- A call that resolves a party proposes no pair that is barred. -/
theorem follow_resolveCleaned {isService : Bool} {outcome : String} (hs : s.Valid)
    (hnames : NamesLive m)
    (h : (resolveCleaned m isService data).Answers s (party, outcome, refs) t) :
    CandidatesFollow s t ∧
      ∀ id ∈ refs, ∃ row, t.candidates.lookup id = some row ∧ ¬ s.Barred row := by
  obtain ⟨-, -, r, hresolved, hcandidates⟩ := resolved_of_answers hs.sound h
  have hfresh : r.FreshCandidates := by
    intro id row hrow
    rw [hresolved.candidates] at hrow
    exact (hs.fresh id row hrow).trans_le hresolved.returns.nextId
  obtain ⟨hfollow, hrefs⟩ :=
    follow_candidates hresolved.sound hfresh hnames hresolved.live hcandidates
  have hbarred (row : CandidateRow) (hnot : ¬ r.Barred row) : ¬ s.Barred row := by
    rintro (hrejected | hgone)
    · refine hnot (.inl ?_)
      rw [hresolved.candidates]
      exact hrejected
    · have hnone (id : Uuid) (h : id < s.nextId ∧ s.link id = none) :
          id < r.nextId ∧ r.link id = none :=
        ⟨h.1.trans_le hresolved.returns.nextId, hresolved.returns.parties id h.1 h.2⟩
      exact hnot (.inr (hgone.imp (hnone _) (hnone _)))
  refine ⟨⟨fun id row hrow => ?_, fun id row' hrow' hnone => ?_⟩, fun id hid => ?_⟩
  · exact hfollow.kept id row (hresolved.candidates ▸ hrow)
  · obtain ⟨hid, hleft, hright, hnot⟩ := hfollow.added id row' hrow' (hresolved.candidates ▸ hnone)
    exact ⟨hid, hleft, hright, hbarred row' hnot⟩
  · obtain ⟨row, hrow, hnot⟩ := hrefs id hid
    exact ⟨row, hrow, hbarred row hnot⟩

end Rheostream.Relationships
