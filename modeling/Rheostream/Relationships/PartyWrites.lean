import Rheostream.Relationships.Merging

/-!
# What the handlers write

Every answering handler takes the tables through a few kinds of writes.
-/

namespace Rheostream.Relationships

open Handler

variable {m : Matching} {s t r u : PartyState} {id : Uuid}

/-! ### Statements -/

section Statements

variable {β : Type} {b : β}

variable {k : PartyRow → PartyHandler β}

theorem answers_bind_getRow : (getRow id >>= k).Answers s b t ↔
      ∃ row, s.parties.lookup id = some row ∧ (k row).Answers s b t := by
  simp only [getRow, bind_assoc, answers_bind_get, answers_bind_found]

theorem answers_bind_getLive :
    (getLive id >>= k).Answers s b t ↔ ∃ row, s.parties.lookup id = some row ∧
      row.mergedIntoId = none ∧ (k row).Answers s b t := by
  simp only [getLive, bind_assoc, answers_bind_getRow, answers_bind_require, pure_bind]

theorem answers_bind_checked {revision : ℕ} :
    (checked id revision >>= k).Answers s b t ↔ ∃ row, s.parties.lookup id = some row ∧
      row.mergedIntoId = none ∧ row.revision = revision ∧ (k row).Answers s b t := by
  simp only [checked, bind_assoc, answers_bind_getLive, answers_bind_require, pure_bind]

theorem answers_bind_uuid7 {k : Uuid → PartyHandler β} : (uuid7 >>= k).Answers s b t ↔
      (k s.nextId).Answers { s with nextId := s.nextId + 1 } b t := by
  simp only [uuid7, bind_assoc, answers_bind_get, answers_bind_write, pure_bind]

end Statements

theorem answers_bump {revision : Option ℕ} {n : ℕ} (h : (bump id revision).Answers s n t) :
    ∃ row, s.parties.lookup id = some row ∧
      t = { s with parties := s.parties.insert id { row with revision := row.revision + 1 } } := by
  simp only [bump, answers_bind_get, answers_bind_found, answers_bind_require, answers_bind_write,
    answers_pure] at h
  obtain ⟨row, hrow, -, -, rfl⟩ := h
  exact ⟨row, hrow, rfl⟩

/-! ### Kinds of writes -/

/-- The kind of a party, and the party that it is merged into. -/
def PartyState.link (s : PartyState) (id : Uuid) : Option (PartyKind × Option Uuid) :=
  (s.parties.lookup id).map fun row => (row.kind, row.mergedIntoId)

/-- Only names, revisions and candidates differ. -/
structure SameRows (s t : PartyState) : Prop where
  links : ∀ id, t.link id = s.link id
  contacts : t.contacts = s.contacts
  affiliations : t.affiliations = s.affiliations
  records : t.records = s.records
  items : t.items = s.items
  nextId : s.nextId ≤ t.nextId

/-- What a merge of `source` into `target`, both of the kind, has written. -/
structure Merged (s : PartyState) (kind : PartyKind) (source target record : Uuid)
    (t : PartyState) : Prop where
  links : ∀ id, t.link id = if id = source then some (kind, some target)
    else (s.link id).map fun l => if l.2 = some source then (l.1, some target) else l
  contacts : ∀ id, t.contacts.lookup id = (s.contacts.lookup id).map fun row =>
    if row.partyId = source ∧ row.retiredAt = none then { row with partyId := target } else row
  affiliations : ∀ id, t.affiliations.lookup id = (s.affiliations.lookup id).map fun row =>
    if row.owner kind = source then row.withOwner target kind else row
  records : ∃ evidence,
    t.records = s.records.insert record ⟨target, source, evidence, none, none⟩
  items : t.items = s.items ++
    ((s.contactIds source).map (⟨record, .contactPoint, ·, source⟩) ++
      ((s.affiliationsOf kind source).keys.map (⟨record, .affiliation kind, ·, source⟩) ++
        (s.aliasIds source).map (⟨record, .aliasOf, ·, source⟩)))
  nextId : s.nextId < t.nextId

/-- The items name a row. -/
def named (rows : List MergeItem) (kind : ItemKind) (id : Uuid) : Bool :=
  rows.any fun item => item.kind = kind && item.itemId = id

/-- An affiliation after the items that name it went back to `owner`. -/
def AffiliationRow.restored (row : AffiliationRow) (rows : List MergeItem) (owner id : Uuid) :
    AffiliationRow where
  personId := if named rows (.affiliation .person) id then owner else row.personId
  organizationId := if named rows (.affiliation .organization) id then owner else row.organizationId
  validFrom := row.validFrom
  validTo := row.validTo

/-- No two affiliations of a pair begin on one day. -/
def PartyState.Periods (s : PartyState) : Prop :=
  ∀ a b rowA rowB, s.affiliations.lookup a = some rowA → s.affiliations.lookup b = some rowB →
    rowA.period = rowB.period → a = b

/-- What the items have written on their way back from `target` to `owner`. -/
structure Restored (s : PartyState) (rows : List MergeItem) (target owner : Uuid)
    (t : PartyState) : Prop where
  links : ∀ id, t.link id =
    (s.link id).map fun l => if named rows .aliasOf id then (l.1, some owner) else l
  contacts : ∀ id, t.contacts.lookup id = (s.contacts.lookup id).map fun row =>
    if named rows .contactPoint id then { row with partyId := owner } else row
  affiliations : ∀ id, t.affiliations.lookup id =
    (s.affiliations.lookup id).map fun row => row.restored rows owner id
  aliased : ∀ id l, named rows .aliasOf id = true → s.link id = some l → l.2 = some target
  periods : s.Periods → t.Periods
  records : t.records = s.records
  items : t.items = s.items
  nextId : s.nextId ≤ t.nextId

/-- What an unmerge of a record of `source` and `target` has written. -/
structure Unmerged (s : PartyState) (rows : List MergeItem) (recordId source target : Uuid)
    (t : PartyState) : Prop where
  restored : ∃ u, Restored s rows target source u ∧ (∀ id, t.link id =
      (u.link id).map fun l => if id = source then (l.1, none) else l) ∧
    t.contacts = u.contacts ∧ t.affiliations = u.affiliations
  records : ∃ record, record.mergedId = source ∧ t.records = s.records.insert recordId record
  items : t.items = s.items
  nextId : s.nextId ≤ t.nextId

/-- What the erasure of a party has left. -/
structure Erased (s : PartyState) (party : Uuid) (t : PartyState) : Prop where
  links : ∀ id, t.link id =
    (s.link id).filter fun l => id ≠ party && l.2 ≠ some party
  contacts : ∀ id row, t.contacts.lookup id = some row → s.contacts.lookup id = some row
  affiliations : ∀ id row, t.affiliations.lookup id = some row → s.affiliations.lookup id = some row
  records : ∀ id, (t.records.lookup id).map MergeRecordRow.mergedId =
    (s.records.lookup id).map MergeRecordRow.mergedId
  items : t.items = s.items
  nextId : s.nextId ≤ t.nextId

/-- One kind of write. -/
inductive Writes (s : PartyState) : PartyState → Prop
  | same {t : PartyState} : SameRows s t → Writes s t
  | party (kind : PartyKind) (name : String) :
    Writes s { s with
      parties := s.parties.insert s.nextId ⟨kind, name, none, 1⟩, nextId := s.nextId + 1 }
  | contact {row : ContactRow} : (∀ id other, s.contacts.lookup id = some other →
      row.identity = none ∨ other.identity ≠ row.identity) →
    Writes s { s with
      contacts := s.contacts.insert s.nextId row, nextId := s.nextId + 1 }
  | changeContact {id : Uuid} {row row' : ContactRow} : s.contacts.lookup id = some row →
    row'.identity = none → Writes s { s with contacts := s.contacts.insert id row' }
  | affiliation {row : AffiliationRow} :
    (∀ id other, s.affiliations.lookup id = some other → other.period ≠ row.period) →
    Writes s { s with
      affiliations := s.affiliations.insert s.nextId row, nextId := s.nextId + 1 }
  | endAffiliation {id : Uuid} {row row' : AffiliationRow} :
    s.affiliations.lookup id = some row → row'.period = row.period →
    Writes s { s with affiliations := s.affiliations.insert id row' }
  | merge {kind : PartyKind} {source target : Uuid} {t : PartyState} : source ≠ target →
    s.link source = some (kind, none) → s.link target = some (kind, none) →
    s.collisionFree kind target (s.affiliationsOf kind source) = true →
    Merged s kind source target s.nextId t → Writes s t
  | unmerge {rows : List MergeItem} {recordId source target : Uuid} {kind : PartyKind}
    {t : PartyState} : (∃ record, s.records.lookup recordId = some record ∧
      record.mergedId = source) →
    s.link source = some (kind, some target) → Unmerged s rows recordId source target t →
    Writes s t
  | erase {party : Uuid} {kind : PartyKind} {t : PartyState} :
    s.link party = some (kind, none) → Erased s party t → Writes s t

/-! ### What the handlers write -/

theorem link_eq_some {l : PartyKind × Option Uuid} :
    s.link id = some l ↔
      ∃ row, s.parties.lookup id = some row ∧ row.kind = l.1 ∧ row.mergedIntoId = l.2 := by
  simp only [PartyState.link, Option.map_eq_some_iff, Prod.ext_iff]

theorem link_of_lookup {row : PartyRow} (hrow : s.parties.lookup id = some row) :
    s.link id = some (row.kind, row.mergedIntoId) := by
  rw [PartyState.link, hrow, Option.map_some]

theorem SameRows.trans (hfirst : SameRows s t) (hrest : SameRows t u) : SameRows s u where
  links id := (hrest.links id).trans (hfirst.links id)
  contacts := hrest.contacts.trans hfirst.contacts
  affiliations := hrest.affiliations.trans hfirst.affiliations
  records := hrest.records.trans hfirst.records
  items := hrest.items.trans hfirst.items
  nextId := hfirst.nextId.trans hrest.nextId

/-- A row whose kind and survivor stay may be written. -/
theorem sameRows_insert {row row' : PartyRow} (hrow : s.parties.lookup id = some row)
    (hkind : row'.kind = row.kind) (hmerged : row'.mergedIntoId = row.mergedIntoId) :
    SameRows s { s with parties := s.parties.insert id row' } where
  links other := by
    by_cases hother : other = id
    · subst hother
      simp [PartyState.link, hrow, hkind, hmerged]
    · simp [PartyState.link, hother]
  contacts := rfl
  affiliations := rfl
  records := rfl
  items := rfl
  nextId := le_rfl

/-- Candidates may be written. -/
theorem sameRows_candidates {candidates : Table Uuid CandidateRow} :
    SameRows s { s with candidates := candidates } where
  links _ := rfl
  contacts := rfl
  affiliations := rfl
  records := rfl
  items := rfl
  nextId := le_rfl

theorem sameRows_nextId : SameRows s { s with nextId := s.nextId + 1 } where
  links _ := rfl
  contacts := rfl
  affiliations := rfl
  records := rfl
  items := rfl
  nextId := Nat.le_succ _

theorem sameRows_of_bump {revision : Option ℕ} {n : ℕ} (h : (bump id revision).Answers s n t) :
    SameRows s t := by
  obtain ⟨row, hrow, rfl⟩ := answers_bump h
  exact sameRows_insert hrow rfl rfl

theorem sameRows_of_bumpAll {ids : List Uuid} {n : Unit} (h : (bumpAll ids).Answers s n t) :
    SameRows s t := by
  induction ids generalizing s with
  | nil =>
    obtain ⟨-, rfl⟩ := answers_pure.mp h
    exact ⟨fun _ => rfl, rfl, rfl, rfl, rfl, le_rfl⟩
  | cons id ids ih =>
    obtain ⟨revision, r, hbump, hrest⟩ := answers_bind.mp h
    exact (sameRows_of_bump hbump).trans (ih hrest)

theorem within_getRow : Within Writes (getRow id) := within_get.bind fun _ => within_found

theorem within_getLive : Within Writes (getLive id) :=
  within_getRow.bind fun _ => within_require.bind fun _ => within_pure

variable {revision : ℕ}

theorem within_checked : Within Writes (checked id revision) :=
  within_getLive.bind fun _ => within_require.bind fun _ => within_pure

theorem within_canonical : Within Writes (canonical id) := by
  refine within_getRow.bind fun row => ?_
  cases row.mergedIntoId with
  | none => exact within_pure
  | some survivor => exact within_getLive.bind fun _ => within_pure

theorem within_uuid7 : Within Writes uuid7 := by
  apply within_of_step
  intro s id t h
  simp only [uuid7, answers_bind_get, answers_bind_write, answers_pure] at h
  obtain ⟨-, rfl⟩ := h
  exact .same sameRows_nextId

theorem within_bump {revision : Option ℕ} : Within Writes (bump id revision) :=
  within_of_step fun _ _ _ h => .same (sameRows_of_bump h)

theorem within_writeCandidates {f : PartyState → Table Uuid CandidateRow} :
    Within Writes (write fun s => { s with candidates := f s }) := by
  apply within_of_step
  intro s _ t h
  obtain rfl := answers_write.mp h
  exact .same sameRows_candidates

variable {name : String}

theorem within_createRow {kind : PartyKind} : Within Writes (createRow kind name) := by
  apply within_of_step
  intro s id t h
  simp only [createRow, answers_bind_uuid7, answers_bind_write, answers_pure] at h
  obtain ⟨-, rfl⟩ := h
  exact .party kind name

variable {party : Uuid}

theorem within_addContact {new : NewContact} : Within Writes (addContact m party new) := by
  apply within_of_step
  intro s id t h
  simp only [addContact, normalized, answers_bind_found, answers_bind_require, answers_bind_uuid7,
    answers_bind_get, answers_bind_write, answers_pure] at h
  obtain ⟨value, -, -, hunique, -, rfl⟩ := h
  refine .contact fun id other hother => ?_
  rw [Table.existsRow_eq_false] at hunique
  exact hunique.imp_right fun hfree => of_decide_eq_false (hfree id other hother)

theorem within_addContacts (news : List NewContact) : Within Writes (addContacts m party news) := by
  induction news with
  | nil => exact within_pure
  | cons new news ih => exact within_addContact.bind fun _ => ih

theorem within_partyCreate {kind : PartyKind} {points : List NewContact} :
    Within Writes (partyCreate m kind name points) := by
  refine within_require.bind fun _ => within_createRow.bind fun _ => ?_
  exact (within_addContacts points).bind fun _ => within_pure

theorem within_partyUpdate : Within Writes (partyUpdate id revision name) := by
  refine within_checked.bind fun _ => within_bump.bind fun _ => ?_
  apply within_of_step
  intro s _ t h
  obtain rfl := answers_write.mp h
  refine .same ⟨fun other => ?_, rfl, rfl, rfl, rfl, le_rfl⟩
  by_cases hother : other = id
  · subst hother
    simp [PartyState.link, Table.lookup_updateIf, Function.comp_def]
  · simp [PartyState.link, Table.lookup_updateIf, hother]

variable {kind : ContactKind}

theorem within_contactAdd {value : String} :
    Within Writes (contactAdd m party revision kind value) := by
  refine within_checked.bind fun _ => within_addContact.bind fun _ => ?_
  exact within_bump.bind fun _ => within_pure

theorem within_contactChange {party contact : Uuid} {retire : Bool} {now : ℕ} :
    Within Writes (contactChange party revision contact retire now) := by
  refine within_checked.bind fun _ => ?_
  intro s a t h
  simp only [answers_bind_get, answers_bind_found, Option.filter_eq_some_iff] at h
  obtain ⟨row, ⟨hrow, -⟩, h⟩ := h
  by_cases hkeep : retire = false ∧
      (row.verification = .sourceVerified ∨ row.verification = .authenticated)
  · rw [if_pos hkeep] at h
    rw [(answers_pure.mp h).2]
  · rw [if_neg hkeep] at h
    rw [answers_bind_write] at h
    obtain ⟨_, r, hbump, h⟩ := answers_bind.mp h
    obtain ⟨-, rfl⟩ := answers_pure.mp h
    refine .head (.changeContact hrow ?_) (.single (.same (sameRows_of_bump hbump)))
    cases retire <;> simp [ContactRow.identity]

theorem within_addAffiliation {person organization : Uuid} {validFrom validTo : Option ℤ} :
    Within Writes (addAffiliation person organization validFrom validTo) := by
  refine within_getLive.bind fun _ => within_require.bind fun _ => within_getLive.bind fun _ =>
    within_require.bind fun _ => within_require.bind fun _ => ?_
  intro s id t h
  rw [answers_bind_get, answers_bind_require, answers_bind_uuid7, answers_bind_write] at h
  obtain ⟨hunique, h⟩ := h
  obtain ⟨_, r, hbump, h⟩ := answers_bind.mp h
  obtain ⟨-, rfl⟩ := answers_pure.mp h
  rw [Table.existsRow_eq_false] at hunique
  refine .head (.affiliation fun id other hother => ?_) (.single (.same (sameRows_of_bump hbump)))
  exact of_decide_eq_false (hunique id other hother)

theorem within_affiliationAdd {person organization : Uuid} {validFrom validTo : Option ℤ} :
    Within Writes (affiliationAdd person organization revision validFrom validTo) := by
  refine within_checked.bind fun _ => within_addAffiliation.bind fun _ => ?_
  exact within_bump.bind fun _ => within_pure

theorem within_affiliationEnd {person affiliation : Uuid} {validTo : ℤ} :
    Within Writes (affiliationEnd person revision affiliation validTo) := by
  refine within_checked.bind fun _ => ?_
  intro s a t h
  simp only [answers_bind_get, answers_bind_found, answers_bind_require, answers_bind_write,
    Option.filter_eq_some_iff] at h
  obtain ⟨row, ⟨hrow, -⟩, -, h⟩ := h
  obtain ⟨_, r, howner, h⟩ := answers_bind.mp h
  obtain ⟨_, r', hperson, h⟩ := answers_bind.mp h
  obtain ⟨-, rfl⟩ := answers_pure.mp h
  have hsame := (sameRows_of_bump howner).trans (sameRows_of_bump hperson)
  have hend : Writes s { s with
      affiliations := s.affiliations.insert affiliation { row with validTo := some validTo } } :=
    .endAffiliation hrow rfl
  exact .head hend (.single (.same hsame))

/-! ### Matching -/

theorem within_normalized {value : String} :
    Within Writes (normalized m kind value) := within_found

theorem within_identity {source value : String} : Within Writes (identity m source kind value) := by
  refine within_normalized.bind fun _ => within_get.bind fun s => ?_
  dsimp only
  split
  · exact within_canonical.bind fun _ => within_pure
  · exact within_pure

theorem within_identityOf {source : String} (value : Option String) :
    Within Writes (identityOf m source kind value) := by
  cases value with
  | none => exact within_pure
  | some value => exact within_identity

variable {data : ResolveInput}

theorem within_candidate {party other : Uuid} {hint : Hint} :
    Within Writes (candidate party other hint data) := by
  unfold candidate
  rcases candidatePair party other hint with ⟨kind, left, right⟩
  split
  · exact within_pure
  · refine within_get.bind fun s => ?_
    dsimp only
    split
    · exact within_pure
    · split
      · exact within_pure
      · exact within_uuid7.bind fun _ => within_writeCandidates.bind fun _ => within_pure

theorem within_proposeAll (pairs : List (Uuid × Hint)) :
    Within Writes (proposeAll party data pairs) := by
  induction pairs with
  | nil => exact within_pure
  | cons pair pairs ih => exact within_candidate.bind fun _ => ih.bind fun _ => within_pure

theorem within_normalizedHint (value : Option String) :
    Within Writes (normalizedHint m kind value) := by
  cases value with
  | none => exact within_pure
  | some value => exact within_normalized.bind fun _ => within_pure

theorem within_addOrganization (name : Option String) :
    Within Writes (addOrganization m party data name) := by
  cases name with
  | none => exact within_pure
  | some name =>
    refine within_createRow.bind fun _ => (within_addContacts _).bind fun _ => ?_
    exact within_addAffiliation.bind fun _ => within_bump.bind fun _ => within_pure

theorem within_candidates : Within Writes (candidates m party data) := by
  refine (within_normalizedHint _).bind fun _ => (within_normalizedHint _).bind fun _ =>
    (within_normalizedHint _).bind fun _ => within_get.bind fun _ => ?_
  exact (within_proposeAll _).bind fun _ => (within_addOrganization _).bind fun _ => within_pure

theorem within_addMissing (news : List NewContact) : Within Writes (addMissing m party news) := by
  induction news with
  | nil => exact within_pure
  | cons new news ih =>
    refine within_normalized.bind fun _ => within_get.bind fun s => ?_
    dsimp only
    split
    · exact ih
    · exact within_addContact.bind fun _ => ih.bind fun _ => within_pure

theorem within_bumpIf {changed : Bool} : Within Writes (bumpIf changed party) := by
  cases changed with
  | false => exact within_pure
  | true => exact within_bump.bind fun _ => within_pure

theorem within_partyFor {name : Option String} (known : Option Uuid) :
    Within Writes (partyFor known name) := by
  cases known with
  | none => exact within_createRow
  | some id => exact within_canonical.bind fun _ => within_require.bind fun _ => within_pure

theorem within_resolveCleaned {isService : Bool} :
    Within Writes (resolveCleaned m isService data) := by
  refine within_require.bind fun _ => within_require.bind fun _ =>
    (within_identityOf _).bind fun _ => (within_identityOf _).bind fun _ => ?_
  refine within_require.bind fun _ => (within_partyFor _).bind fun _ =>
    (within_addMissing _).bind fun _ => within_bumpIf.bind fun _ => ?_
  exact within_candidates.bind fun _ => within_pure

theorem within_resolveOrCreate {isService : Bool} {input : ResolveInput} :
    Within Writes (resolveOrCreate m isService input) := within_resolveCleaned

end Rheostream.Relationships
