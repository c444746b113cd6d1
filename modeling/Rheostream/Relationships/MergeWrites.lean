import Rheostream.Relationships.PartyWrites

/-!
# What merge, unmerge and erasure write

A merge, an unmerge and an erasure are read off their statements.
-/

namespace Rheostream.Relationships

open Handler

variable {s t u : PartyState} {ctx : CallContext} {kind : PartyKind}
  {source target record id : Uuid} {rows : List MergeItem}

/-! ### Merging -/

theorem Merged.of_same (hmerged : Merged s kind source target record t) (hsame : SameRows t u) :
    Merged s kind source target record u where
  links id := (hsame.links id).trans (hmerged.links id)
  contacts id := by rw [hsame.contacts, hmerged.contacts]
  affiliations id := by rw [hsame.affiliations, hmerged.affiliations]
  records := by rw [hsame.records]; exact hmerged.records
  items := hsame.items.trans hmerged.items
  nextId := hmerged.nextId.trans_le hsame.nextId

theorem link_moveAliases {ids : List Uuid} : (s.moveAliases ids target).link id =
    (s.link id).map fun l => if id ∈ ids then (l.1, some target) else l := by
  simp only [PartyState.link, PartyState.moveAliases, Table.lookup_updateAll, Option.map_map]
  congr 1
  funext row
  by_cases hid : id ∈ ids <;> simp [hid]

theorem link_setMergedInto {survivor : Option Uuid} : (s.setMergedInto source survivor).link id =
      (s.link id).map fun l => if id = source then (l.1, survivor) else l := by
  simp only [PartyState.link, PartyState.setMergedInto, Table.lookup_updateAll, Option.map_map]
  congr 1
  funext row
  by_cases hid : id = source <;> simp [hid]

variable {party : Uuid}

theorem mem_contactIds : id ∈ s.contactIds party ↔
    ∃ row, s.contacts.lookup id = some row ∧ row.partyId = party ∧ row.retiredAt = none := by
  simp only [PartyState.contactIds, Table.mem_keys_select, Bool.and_eq_true, decide_eq_true_eq]

theorem mem_affiliationsOf : id ∈ (s.affiliationsOf kind party).keys ↔
    ∃ row, s.affiliations.lookup id = some row ∧ row.owner kind = party := by
  simp only [PartyState.affiliationsOf, Table.mem_keys_select, decide_eq_true_eq]

theorem mem_aliasIds : id ∈ s.aliasIds party ↔ ∃ l, s.link id = some l ∧ l.2 = some party := by
  simp only [PartyState.aliasIds, Table.mem_keys_select, decide_eq_true_eq]
  constructor
  · rintro ⟨row, hrow, hmerged⟩
    exact ⟨_, link_of_lookup hrow, hmerged⟩
  · rintro ⟨l, hlink, hmerged⟩
    obtain ⟨row, hrow, -, hinto⟩ := link_eq_some.mp hlink
    exact ⟨row, hrow, hinto.trans hmerged⟩

/-- What an accepted merge checks and writes. -/
theorem answers_merge {data : MergeInput} (h : (merge ctx data).Answers s record t) :
    data.sourceId ≠ data.targetId ∧ record = s.nextId ∧
      ∃ kind, s.link data.sourceId = some (kind, none) ∧ s.link data.targetId = some (kind, none) ∧
        s.collisionFree kind data.targetId (s.affiliationsOf kind data.sourceId) = true ∧
        Merged s kind data.sourceId data.targetId record t := by
  simp only [merge, answers_bind_require, answers_bind_checked, answers_bind_get,
    answers_bind_uuid7, answers_bind_write] at h
  obtain ⟨hne, sourceRow, hsource, hlive, -, targetRow, htarget, htargetLive, -, hkind, -, hfree,
    h⟩ := h
  obtain ⟨_, r, hbumps, h⟩ := answers_bind.mp h
  obtain ⟨rfl, rfl⟩ := answers_bind_write.mp h
  have hlink : s.link data.sourceId = some (sourceRow.kind, none) := by
    rw [link_of_lookup hsource, hlive]
  refine ⟨hne, rfl, sourceRow.kind, hlink, ?_, hfree, ?_⟩
  · rw [link_of_lookup htarget, htargetLive, hkind]
  refine Merged.of_same ?_ ((sameRows_of_bumpAll hbumps).trans sameRows_candidates)
  constructor
  case links =>
    intro id
    rw [link_setMergedInto, link_moveAliases]
    by_cases hid : id = data.sourceId
    · subst hid
      change (((s.link data.sourceId).map _).map _) = _
      rw [hlink]
      by_cases halias : data.sourceId ∈ s.aliasIds data.sourceId <;> simp [halias]
    · change (((s.link id).map _).map _) = _
      rw [if_neg hid, Option.map_map]
      apply Option.map_congr
      intro l hl
      have halias : id ∈ s.aliasIds data.sourceId ↔ l.2 = some data.sourceId := by
        rw [mem_aliasIds, hl]
        simp
      simp [hid, halias]
  case contacts =>
    intro id
    refine (Table.lookup_updateAll s.contacts _ id).trans (Option.map_congr fun row hrow => ?_)
    have hmoved : id ∈ s.contactIds data.sourceId ↔
        row.partyId = data.sourceId ∧ row.retiredAt = none := by
      rw [mem_contactIds, hrow]
      simp
    simp only [hmoved]
  case affiliations =>
    intro id
    refine (Table.lookup_updateAll s.affiliations _ id).trans (Option.map_congr fun row hrow => ?_)
    have hmoved : id ∈ (s.affiliationsOf sourceRow.kind data.sourceId).keys ↔
        row.owner sourceRow.kind = data.sourceId := by
      rw [mem_affiliationsOf, hrow]
      simp
    simp only [hmoved]
  case records => exact ⟨data.evidence, rfl⟩
  case items => simp [PartyState.moveAliases, PartyState.recordItems, PartyState.setMergedInto,
    PartyState.moveAffiliations, PartyState.moveContacts]
  case nextId => exact Nat.lt_succ_self _

/-! ### Unmerging -/

theorem named_cons (item : MergeItem) (rows : List MergeItem) {k : ItemKind} :
    named (item :: rows) k id = (named [item] k id || named rows k id) := by
  simp [named]

variable {item : MergeItem}

theorem named_single {k : ItemKind} :
    named [item] k id = true ↔ item.kind = k ∧ item.itemId = id := by
  simp [named]

variable {owner : Uuid}

/-- The rows are restored one after the other. -/
theorem Restored.cons (hfirst : Restored s [item] target owner t)
    (hrest : Restored t rows target owner u) :
    Restored s (item :: rows) target owner u where
  links id := by
    rw [hrest.links, hfirst.links, Option.map_map, named_cons item rows]
    congr 1
    funext l
    cases named [item] .aliasOf id <;> cases named rows .aliasOf id <;> rfl
  contacts id := by
    rw [hrest.contacts, hfirst.contacts, Option.map_map, named_cons item rows]
    congr 1
    funext row
    cases named [item] .contactPoint id <;> cases named rows .contactPoint id <;> rfl
  affiliations id := by
    rw [hrest.affiliations, hfirst.affiliations, Option.map_map]
    congr 1
    funext row
    simp only [AffiliationRow.restored, Function.comp_apply, named_cons item rows]
    cases named [item] (.affiliation .person) id <;> cases named rows (.affiliation .person) id <;>
      cases named [item] (.affiliation .organization) id <;>
        cases named rows (.affiliation .organization) id <;> rfl
  aliased id l hnamed hlink := by
    rw [named_cons item rows] at hnamed
    cases hitem : named [item] .aliasOf id with
    | true => exact hfirst.aliased id l hitem hlink
    | false =>
      rw [hitem, Bool.false_or] at hnamed
      refine hrest.aliased id l hnamed ?_
      rw [hfirst.links, hlink, hitem]
      rfl
  periods hperiods := hrest.periods (hfirst.periods hperiods)
  records := hrest.records.trans hfirst.records
  items := hrest.items.trans hfirst.items
  nextId := hfirst.nextId.trans hrest.nextId

theorem Restored.nil : Restored s [] target owner s where
  links id := by simp [named]
  contacts id := by simp [named]
  affiliations id := by simp [named, AffiliationRow.restored]
  aliased id l hnamed := by simp [named] at hnamed
  periods hperiods := hperiods
  records := rfl
  items := rfl
  nextId := le_rfl

/-- An item whose row was erased restores nothing. -/
theorem Restored.absent
    (hcontact : item.kind = .contactPoint → s.contacts.lookup item.itemId = none)
    (haffiliation : ∀ k, item.kind = .affiliation k → s.affiliations.lookup item.itemId = none)
    (halias : item.kind = .aliasOf → s.link item.itemId = none) :
    Restored s [item] target owner s where
  links id := by
    cases hnamed : named [item] .aliasOf id with
    | false => simp
    | true =>
      obtain ⟨hkind, rfl⟩ := named_single.mp hnamed
      rw [halias hkind, Option.map_none]
  contacts id := by
    cases hnamed : named [item] .contactPoint id with
    | false => simp
    | true =>
      obtain ⟨hkind, rfl⟩ := named_single.mp hnamed
      rw [hcontact hkind, Option.map_none]
  affiliations id := by
    have hnone (k : PartyKind) (hnamed : named [item] (.affiliation k) id = true) :
        s.affiliations.lookup id = none := by
      obtain ⟨hkind, rfl⟩ := named_single.mp hnamed
      exact haffiliation k hkind
    cases hrow : s.affiliations.lookup id with
    | none => rfl
    | some row =>
      have hfree (k : PartyKind) : named [item] (.affiliation k) id = false := by
        rw [← Bool.not_eq_true]
        intro hnamed
        rw [hnone k hnamed] at hrow
        cases hrow
      simp [AffiliationRow.restored, hfree]
  aliased id l hnamed hlink := by
    obtain ⟨hkind, rfl⟩ := named_single.mp hnamed
    rw [halias hkind] at hlink
    cases hlink
  periods hperiods := hperiods
  records := rfl
  items := rfl
  nextId := le_rfl

theorem restored_contact {row : ContactRow} (hkind : item.kind = .contactPoint)
    (hrow : s.contacts.lookup item.itemId = some row) :
    Restored s [item] target owner
      { s with contacts := s.contacts.insert item.itemId { row with partyId := owner } } where
  links id := by simp [named, hkind, PartyState.link, Function.comp_def]
  contacts id := by
    by_cases hid : id = item.itemId
    · subst hid
      simp [named, hkind, hrow]
    · simp [named, hid, Ne.symm hid]
  affiliations id := by simp [named, hkind, AffiliationRow.restored]
  aliased id l hnamed := by simp [named, hkind] at hnamed
  periods hperiods := hperiods
  records := rfl
  items := rfl
  nextId := le_rfl

theorem restored_alias {row : PartyRow} (hkind : item.kind = .aliasOf)
    (hrow : s.parties.lookup item.itemId = some row) (hmerged : row.mergedIntoId = some target) :
    Restored s [item] target owner { s with
      parties := s.parties.insert item.itemId { row with mergedIntoId := some owner } } where
  links id := by
    by_cases hid : id = item.itemId
    · subst hid
      simp [named, hkind, PartyState.link, hrow]
    · simp [named, hid, Ne.symm hid, PartyState.link, Function.comp_def]
  contacts id := by simp [named, hkind]
  affiliations id := by simp [named, hkind, AffiliationRow.restored]
  aliased id l hnamed hlink := by
    obtain ⟨-, rfl⟩ := named_single.mp hnamed
    rw [link_of_lookup hrow] at hlink
    rw [← Option.some.inj hlink, hmerged]
  periods hperiods := hperiods
  records := rfl
  items := rfl
  nextId := le_rfl

/-- A row that collides with no other keeps the periods apart. -/
theorem Periods.insert {row : AffiliationRow} (hperiods : s.Periods)
    (hfree : ∀ other existing, s.affiliations.lookup other = some existing →
      existing.period = row.period → other = id) :
    PartyState.Periods { s with affiliations := s.affiliations.insert id row } := by
  intro a b rowA rowB ha hb hperiod
  simp only [Table.lookup_insert] at ha hb
  by_cases haid : a = id
  · by_cases hbid : b = id
    · rw [haid, hbid]
    · rw [if_pos haid, Option.some.injEq] at ha
      rw [if_neg hbid] at hb
      rw [haid]
      exact (hfree b rowB hb (by rw [ha, hperiod])).symm
  · rw [if_neg haid] at ha
    by_cases hbid : b = id
    · rw [if_pos hbid, Option.some.injEq] at hb
      rw [hbid]
      exact hfree a rowA ha (by rw [hb, hperiod])
    · rw [if_neg hbid] at hb
      exact hperiods a b rowA rowB ha hb hperiod

theorem restored_affiliation {row : AffiliationRow} (hkind : item.kind = .affiliation kind)
    (hrow : s.affiliations.lookup item.itemId = some row)
    (hfree : s.collides kind owner item.itemId row = false) :
    Restored s [item] target owner
      { s with affiliations := s.affiliations.insert item.itemId (row.withOwner owner kind) } where
  links id := by simp [named, hkind, PartyState.link, Function.comp_def]
  contacts id := by simp [named, hkind]
  affiliations id := by
    by_cases hid : id = item.itemId
    · subst hid
      cases kind <;> simp [named, hkind, hrow, AffiliationRow.restored, AffiliationRow.withOwner]
    · simp [named, hid, Ne.symm hid, AffiliationRow.restored]
  aliased id l hnamed := by simp [named, hkind] at hnamed
  periods hperiods := by
    refine Periods.insert hperiods fun other existing hexisting hperiod => ?_
    by_contra hother
    have hcollides := Table.existsRow_eq_false.mp hfree other existing hexisting
    simp [hperiod, hother] at hcollides
  records := rfl
  items := rfl
  nextId := le_rfl

variable {a : Unit}

theorem restored_of_restoreItem (h : (restoreItem target item).Answers s a t) :
    Restored s [item] target item.previousOwnerId t := by
  simp only [restoreItem, answers_bind_get] at h
  cases hkind : item.kind with
  | contactPoint =>
    rw [hkind] at h
    cases hrow : s.contacts.lookup item.itemId with
    | none =>
      rw [hrow] at h
      obtain ⟨-, rfl⟩ := answers_pure.mp h
      refine Restored.absent (fun _ => hrow) (fun k hk => ?_) fun hk => ?_
      · rw [hkind] at hk; cases hk
      · rw [hkind] at hk; cases hk
    | some row =>
      simp only [hrow, answers_bind_require, answers_write] at h
      obtain ⟨-, rfl⟩ := h
      exact restored_contact hkind hrow
  | affiliation kind =>
    rw [hkind] at h
    cases hrow : s.affiliations.lookup item.itemId with
    | none =>
      rw [hrow] at h
      obtain ⟨-, rfl⟩ := answers_pure.mp h
      refine Restored.absent (fun hk => ?_) (fun _ _ => hrow) fun hk => ?_
      · rw [hkind] at hk; cases hk
      · rw [hkind] at hk; cases hk
    | some row =>
      simp only [hrow, answers_bind_require, answers_write] at h
      obtain ⟨-, hfree, rfl⟩ := h
      exact restored_affiliation hkind hrow hfree
  | aliasOf =>
    rw [hkind] at h
    cases hrow : s.parties.lookup item.itemId with
    | none =>
      rw [hrow] at h
      obtain ⟨-, rfl⟩ := answers_pure.mp h
      refine Restored.absent (fun hk => ?_) (fun k hk => ?_) fun _ => by
        rw [PartyState.link, hrow, Option.map_none]
      · rw [hkind] at hk; cases hk
      · rw [hkind] at hk; cases hk
    | some row =>
      simp only [hrow, answers_bind_require, answers_write] at h
      obtain ⟨hmerged, rfl⟩ := h
      exact restored_alias hkind hrow hmerged

/-- The loop of an unmerge restores its rows, all to one owner. -/
theorem restored_of_restoreItems (howner : ∀ item ∈ rows, item.previousOwnerId = owner)
    (h : (restoreItems target rows).Answers s a t) : Restored s rows target owner t := by
  induction rows generalizing s with
  | nil =>
    obtain ⟨-, rfl⟩ := answers_pure.mp h
    exact Restored.nil
  | cons item rows ih =>
    obtain ⟨_, r, hitem, hrest⟩ := answers_bind.mp h
    have hfirst := restored_of_restoreItem hitem
    rw [howner item List.mem_cons_self] at hfirst
    exact hfirst.cons (ih (fun item hmem => howner item (List.mem_cons_of_mem _ hmem)) hrest)

/-- What an accepted unmerge checks and writes. -/
theorem answers_unmerge {note : Option String} (h : (unmerge ctx record note rows).Answers s a t) :
    ∃ row kind, s.records.lookup record = some row ∧
      s.link row.mergedId = some (kind, some row.survivorId) ∧
        ((∀ item ∈ rows, item.previousOwnerId = row.mergedId) →
          Unmerged s rows record row.mergedId row.survivorId t) := by
  simp only [unmerge, answers_bind_require, answers_bind_get, answers_bind_found,
    answers_bind_getRow] at h
  obtain ⟨-, row, hrecord, -, sourceRow, hsource, targetRow, -, ⟨-, hmerged⟩, h⟩ := h
  obtain ⟨_, r, hrestore, h⟩ := answers_bind.mp h
  rw [answers_bind_write] at h
  obtain ⟨_, r', hbumps, h⟩ := answers_bind.mp h
  obtain rfl := answers_write.mp h
  refine ⟨row, sourceRow.kind, hrecord, ?_, fun howner => ?_⟩
  · rw [link_of_lookup hsource, hmerged]
  have hrestored := restored_of_restoreItems howner hrestore
  have hsame := sameRows_of_bumpAll hbumps
  refine ⟨⟨r, hrestored, fun id => ?_, hsame.contacts, hsame.affiliations⟩, ?_, ?_, ?_⟩
  · exact (hsame.links id).trans link_setMergedInto
  · refine ⟨{ row with unmergedAt := some ctx.now, unmergeNote := note }, rfl, ?_⟩
    change r'.records.insert record _ = _
    rw [hsame.records]
    change r.records.insert record _ = _
    rw [hrestored.records]
  · exact hsame.items.trans hrestored.items
  · exact hrestored.nextId.trans hsame.nextId

/-! ### Erasure -/

/-- What an accepted erasure checks and leaves. -/
theorem answers_deleteOwned {revision : ℕ} {removed : List Uuid}
    (h : (deleteOwned ctx id revision).Answers s removed t) :
    ∃ kind, s.link id = some (kind, none) ∧ Erased s id t := by
  simp only [deleteOwned, answers_bind_get, answers_bind_found, answers_bind_require,
    answers_bind_write, answers_pure] at h
  obtain ⟨row, hrow, ⟨hlive, -⟩, -, rfl⟩ := h
  refine ⟨row.kind, ?_, ?_⟩
  · rw [link_of_lookup hrow, hlive]
  constructor
  case links =>
    intro other
    simp only [PartyState.link, Table.lookup_deleteWhere]
    cases hother : s.parties.lookup other with
    | none => simp
    | some row' =>
      have halias : other ∈ s.aliasIds id ↔ row'.mergedIntoId = some id := by
        rw [mem_aliasIds, link_of_lookup hother]
        simp
      by_cases hid : other = id
      · simp [hid]
      · by_cases hinto : row'.mergedIntoId = some id <;> simp [Option.filter, hid, halias, hinto]
  case contacts =>
    intro other row' hother
    exact (Table.lookup_deleteWhere_eq_some.mp hother).1
  case affiliations =>
    intro other row' hother
    exact (Table.lookup_deleteWhere_eq_some.mp hother).1
  case records =>
    intro other
    simp only [Table.lookup_updateAll, Option.map_map]
    congr 1
    funext record
    simp only [Function.comp_apply]
    split <;> rfl
  case items => rfl
  case nextId => exact le_rfl

end Rheostream.Relationships
