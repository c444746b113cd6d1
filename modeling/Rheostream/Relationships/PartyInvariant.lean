import Rheostream.Relationships.MergeWrites

/-!
# The invariant of the parties

Each kind of write keeps the aliases short, the verified identities and the periods apart, and the
items of a merge record with the party that was merged.
-/

namespace Rheostream.Relationships

open Handler

variable {s t : PartyState}

/-- A merged party points straight at a live one of its kind. -/
structure LinksSound (link : Uuid → Option (PartyKind × Option Uuid)) (next : Uuid) : Prop where
  aliases : ∀ id kind survivor, link id = some (kind, some survivor) →
    link survivor = some (kind, none)
  fresh : ∀ id l, link id = some l → id < next

/-- A verified identity has one contact point. -/
structure ContactsSound (contact : Uuid → Option ContactRow) (next : Uuid) : Prop where
  identities : ∀ a b rowA rowB key, contact a = some rowA → contact b = some rowB →
    rowA.identity = some key → rowB.identity = some key → a = b
  fresh : ∀ id row, contact id = some row → id < next

/-- The party that a record has merged. -/
def PartyState.mergedOf (s : PartyState) (record : Uuid) : Option Uuid :=
  (s.records.lookup record).map MergeRecordRow.mergedId

/-- An item goes back to the merged party of its record, which is no alias that it moved along. -/
structure ItemsSound (items : List MergeItem) (merged : Uuid → Option Uuid) (next : Uuid) :
    Prop where
  owners : ∀ item ∈ items, merged item.recordId = some item.previousOwnerId
  others : ∀ item ∈ items, item.kind = .aliasOf → item.itemId ≠ item.previousOwnerId
  fresh : ∀ id owner, merged id = some owner → id < next

/-- What every reachable state satisfies. -/
structure Sound (s : PartyState) : Prop where
  links : LinksSound s.link s.nextId
  contacts : ContactsSound s.contacts.lookup s.nextId
  periods : s.Periods
  affiliations : ∀ id row, s.affiliations.lookup id = some row → id < s.nextId
  items : ItemsSound s.items s.mergedOf s.nextId

section Tables

variable {link link' : Uuid → Option (PartyKind × Option Uuid)}
  {contact contact' : Uuid → Option ContactRow} {items : List MergeItem}
  {merged : Uuid → Option Uuid} {n n' : Uuid}

theorem LinksSound.mono (h : LinksSound link n) (hle : n ≤ n') : LinksSound link n' where
  aliases := h.aliases
  fresh id l hl := (h.fresh id l hl).trans_le hle

theorem ContactsSound.mono (h : ContactsSound contact n) (hle : n ≤ n') :
    ContactsSound contact n' where
  identities := h.identities
  fresh id row hrow := (h.fresh id row hrow).trans_le hle

theorem ItemsSound.mono (h : ItemsSound items merged n) (hle : n ≤ n') :
    ItemsSound items merged n' where
  owners := h.owners
  others := h.others
  fresh id owner howner := (h.fresh id owner howner).trans_le hle

/-- Contact points may move. -/
theorem ContactsSound.moved (h : ContactsSound contact n) (hle : n ≤ n')
    {f : Uuid → ContactRow → ContactRow} (hcontact : ∀ id, contact' id = (contact id).map (f id))
    (hidentity : ∀ id row, (f id row).identity = row.identity) : ContactsSound contact' n' where
  identities a b rowA rowB key ha hb hkeyA hkeyB := by
    rw [hcontact] at ha hb
    obtain ⟨oldA, holdA, rfl⟩ := Option.map_eq_some_iff.mp ha
    obtain ⟨oldB, holdB, rfl⟩ := Option.map_eq_some_iff.mp hb
    rw [hidentity] at hkeyA hkeyB
    exact h.identities a b oldA oldB key holdA holdB hkeyA hkeyB
  fresh id row hrow := by
    rw [hcontact] at hrow
    obtain ⟨old, hold, -⟩ := Option.map_eq_some_iff.mp hrow
    exact (h.fresh id old hold).trans_le hle

/-- Contact points may go. -/
theorem ContactsSound.subset (h : ContactsSound contact n) (hle : n ≤ n')
    (hcontact : ∀ id row, contact' id = some row → contact id = some row) :
    ContactsSound contact' n' where
  identities a b rowA rowB key ha hb :=
    h.identities a b rowA rowB key (hcontact a rowA ha) (hcontact b rowB hb)
  fresh id row hrow := (h.fresh id row (hcontact id row hrow)).trans_le hle

end Tables

theorem ContactsSound.insert {contacts : Table Uuid ContactRow} {n n' id : Uuid} {row : ContactRow}
    (h : ContactsSound contacts.lookup n) (hle : n ≤ n') (hid : id < n')
    (hunique : ∀ other row', contacts.lookup other = some row' → other ≠ id →
      row.identity = none ∨ row'.identity ≠ row.identity) :
    ContactsSound (contacts.insert id row).lookup n' where
  identities a b rowA rowB key ha hb hkeyA hkeyB := by
    rw [Table.lookup_insert] at ha hb
    by_cases haid : a = id
    · by_cases hbid : b = id
      · rw [haid, hbid]
      · rw [if_pos haid, Option.some.injEq] at ha
        rw [if_neg hbid] at hb
        subst ha
        obtain hnone | hne := hunique b rowB hb hbid
        · rw [hnone] at hkeyA; cases hkeyA
        · exact absurd (hkeyB.trans hkeyA.symm) hne
    · rw [if_neg haid] at ha
      by_cases hbid : b = id
      · rw [if_pos hbid, Option.some.injEq] at hb
        subst hb
        obtain hnone | hne := hunique a rowA ha haid
        · rw [hnone] at hkeyB; cases hkeyB
        · exact absurd (hkeyA.trans hkeyB.symm) hne
      · rw [if_neg hbid] at hb
        exact h.identities a b rowA rowB key ha hb hkeyA hkeyB
  fresh other row' hother := by
    rw [Table.lookup_insert] at hother
    by_cases hotherId : other = id
    · rw [hotherId]
      exact hid
    · rw [if_neg hotherId] at hother
      exact (h.fresh other row' hother).trans_le hle

/-! ### Merging -/

section Merging

variable {kind : PartyKind} {source target record : Uuid} {rows : List MergeItem}

theorem Merged.linksSound (hmerged : Merged s kind source target record t) (hs : Sound s)
    (hne : source ≠ target) (hsource : s.link source = some (kind, none))
    (htarget : s.link target = some (kind, none)) : LinksSound t.link t.nextId where
  aliases id k survivor hid := by
    have hlive (live : Uuid) (hne : live ≠ source) (hlink : s.link live = some (k, none)) :
        t.link live = some (k, none) := by
      rw [hmerged.links, if_neg hne, hlink]
      rfl
    rw [hmerged.links] at hid
    by_cases hsrc : id = source
    · rw [if_pos hsrc, Option.some.injEq, Prod.mk.injEq, Option.some.injEq] at hid
      obtain ⟨rfl, rfl⟩ := hid
      exact hlive target hne.symm htarget
    · rw [if_neg hsrc, Option.map_eq_some_iff] at hid
      obtain ⟨⟨k', into⟩, hold, hid⟩ := hid
      by_cases hinto : into = some source
      · rw [if_pos hinto, Prod.mk.injEq, Option.some.injEq] at hid
        obtain ⟨rfl, rfl⟩ := hid
        -- the alias is moved along: its kind is that of the merged party
        rw [hinto] at hold
        rw [hs.links.aliases id k' source hold] at hsource
        obtain ⟨rfl, -⟩ := Prod.mk.inj (Option.some.inj hsource)
        exact hlive target hne.symm htarget
      · rw [if_neg hinto, Prod.mk.injEq] at hid
        obtain ⟨rfl, rfl⟩ := hid
        refine hlive survivor (fun hsurvivor => hinto (by rw [hsurvivor])) ?_
        exact hs.links.aliases id k' survivor hold
  fresh id l hid := by
    refine lt_trans ?_ hmerged.nextId
    rw [hmerged.links] at hid
    by_cases hsrc : id = source
    · rw [hsrc]
      exact hs.links.fresh source _ hsource
    · rw [if_neg hsrc, Option.map_eq_some_iff] at hid
      obtain ⟨old, hold, -⟩ := hid
      exact hs.links.fresh id old hold

theorem Merged.contactsSound (hmerged : Merged s kind source target record t) (hs : Sound s) :
    ContactsSound t.contacts.lookup t.nextId := by
  refine hs.contacts.moved hmerged.nextId.le hmerged.contacts fun id row => ?_
  split <;> rfl

/-- Two affiliations that one party owned have one period exactly when another party has. -/
theorem period_of_withOwner {rowA rowB : AffiliationRow} {owner : Uuid}
    (howner : rowA.owner kind = rowB.owner kind)
    (hperiod : (rowA.withOwner owner kind).period = (rowB.withOwner owner kind).period) :
    rowA.period = rowB.period := by
  cases kind <;>
    simp_all [AffiliationRow.period, AffiliationRow.withOwner, AffiliationRow.owner]

/-- `collision_check` finds no other row with the period that a moved one gets. -/
theorem eq_of_collisionFree {a b : Uuid} {rowA rowB : AffiliationRow}
    (hfree : s.collisionFree kind target (s.affiliationsOf kind source) = true)
    (ha : s.affiliations.lookup a = some rowA) (howner : rowA.owner kind = source)
    (hb : s.affiliations.lookup b = some rowB)
    (hperiod : rowB.period = (rowA.withOwner target kind).period) : b = a := by
  rw [PartyState.collisionFree, Bool.not_eq_true', Table.existsRow_eq_false] at hfree
  have hselected : (s.affiliationsOf kind source).lookup a = some rowA := by
    simp [PartyState.affiliationsOf, ha, Option.filter, howner]
  have hcollides := Table.existsRow_eq_false.mp (hfree a rowA hselected) b rowB hb
  by_contra hne
  simp [hperiod, hne] at hcollides

theorem Merged.periods (hmerged : Merged s kind source target record t) (hs : Sound s)
    (hfree : s.collisionFree kind target (s.affiliationsOf kind source) = true) : t.Periods := by
  intro a b rowA rowB ha hb hperiod
  rw [hmerged.affiliations] at ha hb
  obtain ⟨oldA, holdA, rfl⟩ := Option.map_eq_some_iff.mp ha
  obtain ⟨oldB, holdB, rfl⟩ := Option.map_eq_some_iff.mp hb
  by_cases hA : oldA.owner kind = source
  · rw [if_pos hA] at hperiod
    by_cases hB : oldB.owner kind = source
    · rw [if_pos hB] at hperiod
      exact hs.periods a b oldA oldB holdA holdB
        (period_of_withOwner (hA.trans hB.symm) hperiod)
    · rw [if_neg hB] at hperiod
      exact (eq_of_collisionFree hfree holdA hA holdB hperiod.symm).symm
  · rw [if_neg hA] at hperiod
    by_cases hB : oldB.owner kind = source
    · rw [if_pos hB] at hperiod
      exact eq_of_collisionFree hfree holdB hB holdA hperiod
    · rw [if_neg hB] at hperiod
      exact hs.periods a b oldA oldB holdA holdB hperiod

theorem Merged.mergedOf (hmerged : Merged s kind source target record t) (id : Uuid) :
    t.mergedOf id = if id = record then some source else s.mergedOf id := by
  obtain ⟨evidence, hrecords⟩ := hmerged.records
  rw [PartyState.mergedOf, hrecords, Table.lookup_insert]
  split <;> rfl

/-- The item is one of those that a merge records. -/
theorem Merged.mem_items {item : MergeItem} (hmerged : Merged s kind source target record t) :
    item ∈ t.items ↔ item ∈ s.items ∨ item.recordId = record ∧ item.previousOwnerId = source ∧
      (item.kind = .contactPoint ∧ item.itemId ∈ s.contactIds source ∨
        item.kind = .affiliation kind ∧ item.itemId ∈ (s.affiliationsOf kind source).keys ∨
        item.kind = .aliasOf ∧ item.itemId ∈ s.aliasIds source) := by
  obtain ⟨recordId, itemKind, itemId, owner⟩ := item
  rw [hmerged.items]
  simp only [List.mem_append, List.mem_map, MergeItem.mk.injEq]
  constructor
  · rintro (hold | ⟨id, hid, rfl, rfl, rfl, rfl⟩ | ⟨id, hid, rfl, rfl, rfl, rfl⟩ |
      ⟨id, hid, rfl, rfl, rfl, rfl⟩)
    · exact .inl hold
    · exact .inr ⟨rfl, rfl, .inl ⟨rfl, hid⟩⟩
    · exact .inr ⟨rfl, rfl, .inr (.inl ⟨rfl, hid⟩)⟩
    · exact .inr ⟨rfl, rfl, .inr (.inr ⟨rfl, hid⟩)⟩
  · rintro (hold | ⟨rfl, rfl, ⟨rfl, hid⟩ | ⟨rfl, hid⟩ | ⟨rfl, hid⟩⟩)
    · exact .inl hold
    · exact .inr (.inl ⟨itemId, hid, rfl, rfl, rfl, rfl⟩)
    · exact .inr (.inr (.inl ⟨itemId, hid, rfl, rfl, rfl, rfl⟩))
    · exact .inr (.inr (.inr ⟨itemId, hid, rfl, rfl, rfl, rfl⟩))

theorem Merged.itemsSound (hmerged : Merged s kind source target s.nextId t) (hs : Sound s)
    (hsource : s.link source = some (kind, none)) : ItemsSound t.items t.mergedOf t.nextId where
  owners item hitem := by
    rw [hmerged.mergedOf]
    obtain hold | ⟨hrecord, howner, -⟩ := hmerged.mem_items.mp hitem
    · have howner := hs.items.owners item hold
      have hne : item.recordId ≠ s.nextId := (hs.items.fresh _ _ howner).ne
      rw [if_neg hne, howner]
    · rw [if_pos hrecord, howner]
  others item hitem hkind := by
    obtain hold | ⟨-, howner, hmoved⟩ := hmerged.mem_items.mp hitem
    · exact hs.items.others item hold hkind
    · obtain ⟨hcontact, -⟩ | ⟨haffiliation, -⟩ | ⟨-, halias⟩ := hmoved
      · rw [hkind] at hcontact; cases hcontact
      · rw [hkind] at haffiliation; cases haffiliation
      · obtain ⟨l, hl, hinto⟩ := mem_aliasIds.mp halias
        intro hself
        rw [hself, howner, hsource, Option.some.injEq] at hl
        rw [← hl] at hinto
        cases hinto
  fresh id owner hid := by
    rw [hmerged.mergedOf] at hid
    by_cases hrecord : id = s.nextId
    · rw [hrecord]
      exact hmerged.nextId
    · rw [if_neg hrecord] at hid
      exact (hs.items.fresh id owner hid).trans hmerged.nextId

theorem Merged.sound (hmerged : Merged s kind source target s.nextId t) (hs : Sound s)
    (hne : source ≠ target) (hsource : s.link source = some (kind, none))
    (htarget : s.link target = some (kind, none))
    (hfree : s.collisionFree kind target (s.affiliationsOf kind source) = true) : Sound t where
  links := hmerged.linksSound hs hne hsource htarget
  contacts := hmerged.contactsSound hs
  periods := hmerged.periods hs hfree
  affiliations id row hid := by
    rw [hmerged.affiliations] at hid
    obtain ⟨old, hold, -⟩ := Option.map_eq_some_iff.mp hid
    exact (hs.affiliations id old hold).trans hmerged.nextId
  items := hmerged.itemsSound hs hsource

/-! ### Unmerging -/

theorem Unmerged.linksSound (hunmerged : Unmerged s rows record source target t) (hs : Sound s)
    (hsource : s.link source = some (kind, some target)) : LinksSound t.link t.nextId := by
  obtain ⟨u, hrestored, hlinks, -, -⟩ := hunmerged.restored
  have hlink (id : Uuid) : t.link id = (s.link id).map fun l =>
      if id = source then (l.1, none) else if named rows .aliasOf id then (l.1, some source)
      else l := by
    rw [hlinks, hrestored.links, Option.map_map]
    congr 1
    funext l
    by_cases hid : id = source <;> cases named rows .aliasOf id <;> simp [hid]
  have htarget := hs.links.aliases source kind target hsource
  constructor
  case aliases =>
    intro id k survivor hid
    rw [hlink, Option.map_eq_some_iff] at hid
    obtain ⟨⟨k', into⟩, hold, hid⟩ := hid
    by_cases hsrc : id = source
    · simp [hsrc] at hid
    · rw [if_neg hsrc] at hid
      cases hnamed : named rows .aliasOf id with
      | true =>
        rw [hnamed, if_pos rfl, Prod.mk.injEq, Option.some.injEq] at hid
        obtain ⟨rfl, rfl⟩ := hid
        -- the alias goes back to the source, which has the kind of the target
        have hinto := hrestored.aliased id _ hnamed hold
        rw [hlink, hsource, Option.map_some, if_pos rfl]
        dsimp only at hinto
        rw [hinto] at hold
        rw [hs.links.aliases id k' target hold] at htarget
        obtain ⟨rfl, -⟩ := Prod.mk.inj (Option.some.inj htarget)
        rfl
      | false =>
        simp only [hnamed, Bool.false_eq_true, if_false, Prod.mk.injEq] at hid
        obtain ⟨rfl, rfl⟩ := hid
        have hlive := hs.links.aliases id k' survivor hold
        have hne : survivor ≠ source := by
          rintro rfl
          rw [hsource] at hlive
          cases hlive
        have hfree : named rows .aliasOf survivor = false := by
          rw [← Bool.not_eq_true]
          intro hnamed
          cases hrestored.aliased survivor _ hnamed hlive
        simp [hlink, hlive, hne, hfree]
  case fresh =>
    intro id l hid
    rw [hlink, Option.map_eq_some_iff] at hid
    obtain ⟨old, hold, -⟩ := hid
    exact (hs.links.fresh id old hold).trans_le hunmerged.nextId

theorem Unmerged.mergedOf (hunmerged : Unmerged s rows record source target t)
    (hrecord : ∃ row, s.records.lookup record = some row ∧ row.mergedId = source) (id : Uuid) :
    t.mergedOf id = s.mergedOf id := by
  obtain ⟨row, hrow, hmerged⟩ := hrecord
  obtain ⟨row', hmerged', hrecords⟩ := hunmerged.records
  rw [PartyState.mergedOf, hrecords, Table.lookup_insert]
  by_cases hid : id = record
  · rw [if_pos hid, PartyState.mergedOf, hid, hrow, Option.map_some, Option.map_some, hmerged,
      hmerged']
  · rw [if_neg hid]
    rfl

theorem Unmerged.sound (hunmerged : Unmerged s rows record source target t) (hs : Sound s)
    (hsource : s.link source = some (kind, some target))
    (hrecord : ∃ row, s.records.lookup record = some row ∧ row.mergedId = source) : Sound t := by
  obtain ⟨u, hrestored, -, hcontacts, haffiliations⟩ := hunmerged.restored
  constructor
  case links => exact hunmerged.linksSound hs hsource
  case contacts =>
    rw [hcontacts]
    refine hs.contacts.moved hunmerged.nextId hrestored.contacts fun id row => ?_
    split <;> rfl
  case periods =>
    intro a b rowA rowB ha hb
    rw [haffiliations] at ha hb
    exact hrestored.periods hs.periods a b rowA rowB ha hb
  case affiliations =>
    intro id row hid
    rw [haffiliations, hrestored.affiliations] at hid
    obtain ⟨old, hold, -⟩ := Option.map_eq_some_iff.mp hid
    exact (hs.affiliations id old hold).trans_le hunmerged.nextId
  case items =>
    have hmerged : t.mergedOf = s.mergedOf := funext (hunmerged.mergedOf hrecord)
    rw [hunmerged.items, hmerged]
    exact hs.items.mono hunmerged.nextId

end Merging

/-! ### Erasure -/

theorem Erased.sound {party : Uuid} (herased : Erased s party t) (hs : Sound s) : Sound t := by
  have hlink {id : Uuid} {l : PartyKind × Option Uuid} : t.link id = some l ↔
      s.link id = some l ∧ id ≠ party ∧ l.2 ≠ some party := by
    rw [herased.links, Option.filter_eq_some_iff]
    simp
  constructor
  case links =>
    constructor
    case aliases =>
      intro id kind survivor hid
      obtain ⟨hold, -, hinto⟩ := hlink.mp hid
      refine hlink.mpr ⟨hs.links.aliases id kind survivor hold, ?_, by simp⟩
      rintro rfl
      exact hinto rfl
    case fresh =>
      intro id l hid
      exact (hs.links.fresh id l (hlink.mp hid).1).trans_le herased.nextId
  case contacts => exact hs.contacts.subset herased.nextId herased.contacts
  case periods =>
    intro a b rowA rowB ha hb
    exact hs.periods a b rowA rowB (herased.affiliations a rowA ha) (herased.affiliations b rowB hb)
  case affiliations =>
    intro id row hid
    exact (hs.affiliations id row (herased.affiliations id row hid)).trans_le herased.nextId
  case items =>
    have hmerged : t.mergedOf = s.mergedOf := funext herased.records
    rw [herased.items, hmerged]
    exact hs.items.mono herased.nextId

/-! ### Writes -/

theorem SameRows.sound (hsame : SameRows s t) (hs : Sound s) : Sound t := by
  have hlinks : t.link = s.link := funext hsame.links
  constructor
  case links =>
    rw [hlinks]
    exact hs.links.mono hsame.nextId
  case contacts =>
    rw [hsame.contacts]
    exact hs.contacts.mono hsame.nextId
  case periods =>
    intro a b rowA rowB ha hb
    rw [hsame.affiliations] at ha hb
    exact hs.periods a b rowA rowB ha hb
  case affiliations =>
    intro id row hid
    rw [hsame.affiliations] at hid
    exact (hs.affiliations id row hid).trans_le hsame.nextId
  case items =>
    have hmerged : t.mergedOf = s.mergedOf := by
      funext id
      rw [PartyState.mergedOf, hsame.records]
      rfl
    rw [hsame.items, hmerged]
    exact hs.items.mono hsame.nextId

/-- A party that is created points nowhere, and nothing points at it yet. -/
theorem Sound.party (hs : Sound s) (kind : PartyKind) (name : String) :
    Sound { s with parties := s.parties.insert s.nextId ⟨kind, name, none, 1⟩
                   nextId := s.nextId + 1 } where
  links := by
    have hlink (id : Uuid) (hid : id ≠ s.nextId) :
        PartyState.link { s with parties := s.parties.insert s.nextId ⟨kind, name, none, 1⟩
                                 nextId := s.nextId + 1 } id = s.link id := by
      simp [PartyState.link, hid]
    constructor
    case aliases =>
      intro id k survivor hid
      by_cases hnew : id = s.nextId
      · simp [PartyState.link, hnew] at hid
      · rw [hlink id hnew] at hid
        have hlive := hs.links.aliases id k survivor hid
        rw [hlink survivor (hs.links.fresh survivor _ hlive).ne]
        exact hlive
    case fresh =>
      intro id l hid
      by_cases hnew : id = s.nextId
      · rw [hnew]
        exact Nat.lt_succ_self _
      · rw [hlink id hnew] at hid
        exact Nat.lt_succ_of_lt (hs.links.fresh id l hid)
  contacts := hs.contacts.mono (Nat.le_succ _)
  periods := hs.periods
  affiliations id row hid := Nat.lt_succ_of_lt (hs.affiliations id row hid)
  items := hs.items.mono (Nat.le_succ _)

/-- Every kind of write keeps the invariant. -/
theorem Writes.sound (hwrites : Writes s t) (hs : Sound s) : Sound t := by
  cases hwrites with
  | same hsame => exact hsame.sound hs
  | party kind name => exact hs.party kind name
  | contact hunique =>
    constructor
    case links => exact hs.links.mono (Nat.le_succ _)
    case contacts =>
      exact hs.contacts.insert (Nat.le_succ _) (Nat.lt_succ_self _) fun other row' hother _ =>
        hunique other row' hother
    case periods => exact hs.periods
    case affiliations => exact fun id row hid => Nat.lt_succ_of_lt (hs.affiliations id row hid)
    case items => exact hs.items.mono (Nat.le_succ _)
  | changeContact hrow hidentity =>
    constructor
    case links => exact hs.links
    case contacts =>
      exact hs.contacts.insert le_rfl (hs.contacts.fresh _ _ hrow) fun _ _ _ _ => .inl hidentity
    case periods => exact hs.periods
    case affiliations => exact hs.affiliations
    case items => exact hs.items
  | affiliation hunique =>
    constructor
    case links => exact hs.links.mono (Nat.le_succ _)
    case contacts => exact hs.contacts.mono (Nat.le_succ _)
    case periods =>
      exact Periods.insert hs.periods fun other row' hother hperiod =>
        absurd hperiod (hunique other row' hother)
    case affiliations =>
      intro id row hid
      rw [Table.lookup_insert] at hid
      by_cases hnew : id = s.nextId
      · rw [hnew]
        exact Nat.lt_succ_self _
      · rw [if_neg hnew] at hid
        exact Nat.lt_succ_of_lt (hs.affiliations id row hid)
    case items => exact hs.items.mono (Nat.le_succ _)
  | @endAffiliation id row row' hrow hperiod =>
    constructor
    case links => exact hs.links
    case contacts => exact hs.contacts
    case periods =>
      exact Periods.insert hs.periods fun other existing hother hsame =>
        hs.periods other id existing row hother hrow (hsame.trans hperiod)
    case affiliations =>
      intro other existing hother
      rw [Table.lookup_insert] at hother
      by_cases hid : other = id
      · rw [hid]
        exact hs.affiliations id row hrow
      · rw [if_neg hid] at hother
        exact hs.affiliations other existing hother
    case items => exact hs.items
  | merge hne hsource htarget hfree hmerged => exact hmerged.sound hs hne hsource htarget hfree
  | unmerge hrecord hsource hunmerged => exact hunmerged.sound hs hsource hrecord
  | erase _ herased => exact herased.sound hs

/-! ### Rows that are gone -/

/-- Rows under identifiers that were drawn before do not appear. -/
structure NoneReturns (s t : PartyState) : Prop where
  nextId : s.nextId ≤ t.nextId
  parties : ∀ id < s.nextId, s.link id = none → t.link id = none
  contacts : ∀ id < s.nextId, s.contacts.lookup id = none → t.contacts.lookup id = none
  affiliations : ∀ id < s.nextId, s.affiliations.lookup id = none → t.affiliations.lookup id = none

theorem NoneReturns.refl (s : PartyState) : NoneReturns s s :=
  ⟨le_rfl, fun _ _ h => h, fun _ _ h => h, fun _ _ h => h⟩

theorem NoneReturns.trans {u : PartyState} (hfirst : NoneReturns s t) (hrest : NoneReturns t u) :
    NoneReturns s u where
  nextId := hfirst.nextId.trans hrest.nextId
  parties id hid h :=
    hrest.parties id (hid.trans_le hfirst.nextId) (hfirst.parties id hid h)
  contacts id hid h :=
    hrest.contacts id (hid.trans_le hfirst.nextId) (hfirst.contacts id hid h)
  affiliations id hid h :=
    hrest.affiliations id (hid.trans_le hfirst.nextId) (hfirst.affiliations id hid h)

/-- An insertion of a new row, or of a row that is there. -/
theorem lookup_insert_none {V : Type} {table : Table Uuid V} {row : V} {id other n : Uuid}
    (hid : n ≤ id ∨ (table.lookup id).isSome = true) (hother : other < n)
    (hnone : table.lookup other = none) : (table.insert id row).lookup other = none := by
  have hne : other ≠ id := by
    rintro rfl
    obtain hle | hsome := hid
    · exact absurd hother (not_lt.mpr hle)
    · rw [hnone] at hsome
      cases hsome
  rw [Table.lookup_insert, if_neg hne, hnone]

theorem Writes.noneReturns (hwrites : Writes s t) : NoneReturns s t := by
  cases hwrites with
  | same hsame =>
    refine ⟨hsame.nextId, fun id _ h => ?_, fun id _ h => ?_, fun id _ h => ?_⟩
    · rw [hsame.links, h]
    · rw [hsame.contacts, h]
    · rw [hsame.affiliations, h]
  | party kind name =>
    refine ⟨Nat.le_succ _, fun id hid h => ?_, fun _ _ h => h, fun _ _ h => h⟩
    rw [PartyState.link, Option.map_eq_none_iff] at h ⊢
    exact lookup_insert_none (.inl le_rfl) hid h
  | contact _ =>
    exact ⟨Nat.le_succ _, fun _ _ h => h, fun id hid h => lookup_insert_none (.inl le_rfl) hid h,
      fun _ _ h => h⟩
  | changeContact hrow _ =>
    refine ⟨le_rfl, fun _ _ h => h, fun id hid h => ?_, fun _ _ h => h⟩
    exact lookup_insert_none (.inr (Option.isSome_of_eq_some hrow)) hid h
  | affiliation _ =>
    exact ⟨Nat.le_succ _, fun _ _ h => h, fun _ _ h => h,
      fun id hid h => lookup_insert_none (.inl le_rfl) hid h⟩
  | endAffiliation hrow _ =>
    refine ⟨le_rfl, fun _ _ h => h, fun _ _ h => h, fun id hid h => ?_⟩
    exact lookup_insert_none (.inr (Option.isSome_of_eq_some hrow)) hid h
  | @merge kind source target _ _ hsource _ _ hmerged =>
    refine ⟨hmerged.nextId.le, fun id _ h => ?_, fun id _ h => ?_, fun id _ h => ?_⟩
    · have hne : id ≠ source := by
        rintro rfl
        rw [h] at hsource
        cases hsource
      rw [hmerged.links, if_neg hne, h, Option.map_none]
    · rw [hmerged.contacts, h, Option.map_none]
    · rw [hmerged.affiliations, h, Option.map_none]
  | unmerge _ _ hunmerged =>
    obtain ⟨u, hrestored, hlinks, hcontacts, haffiliations⟩ := hunmerged.restored
    refine ⟨hunmerged.nextId, fun id _ h => ?_, fun id _ h => ?_, fun id _ h => ?_⟩
    · rw [hlinks, hrestored.links, h, Option.map_none, Option.map_none]
    · rw [hcontacts, hrestored.contacts, h, Option.map_none]
    · rw [haffiliations, hrestored.affiliations, h, Option.map_none]
  | erase _ herased =>
    refine ⟨herased.nextId, fun id _ h => ?_, fun id _ h => ?_, fun id _ h => ?_⟩
    · rw [herased.links, h, Option.filter_none]
    · rw [Option.eq_none_iff_forall_ne_some]
      intro row hrow
      rw [herased.contacts id row hrow] at h
      cases h
    · rw [Option.eq_none_iff_forall_ne_some]
      intro row hrow
      rw [herased.affiliations id row hrow] at h
      cases h

/-! ### Runs -/

section Runs

variable {m : Matching} {act : CallContext × PartyCall}

variable {ctx : CallContext}

theorem within_merge {data : MergeInput} : Within Writes (merge ctx data) := by
  apply within_of_step
  intro s record t h
  obtain ⟨hne, rfl, kind, hsource, htarget, hfree, hmerged⟩ := answers_merge h
  exact .merge hne hsource htarget hfree hmerged

theorem within_acceptCandidate {data : ReviewInput} {row : CandidateRow} :
    Within Writes (acceptCandidate ctx data row) := by
  refine within_getLive.bind fun left => within_getLive.bind fun right => ?_
  cases row.kind with
  | sameParty => exact within_require.bind fun _ => within_merge.bind fun _ => within_pure
  | affiliation =>
    refine within_require.bind fun _ => within_addAffiliation.bind fun _ => ?_
    exact within_bump.bind fun _ => within_pure

theorem within_resolveReview {data : ReviewInput} : Within Writes (resolveReview ctx data) := by
  refine within_get.bind fun _ => within_found.bind fun row => within_require.bind fun _ => ?_
  refine Within.bind ?_ fun _ => within_writeCandidates
  unfold resolvedRow
  split
  · exact within_acceptCandidate
  · exact within_pure

theorem within_deleteOwned {id : Uuid} {revision : ℕ} :
    Within Writes (deleteOwned ctx id revision) := by
  apply within_of_step
  intro s removed t h
  obtain ⟨kind, hlink, herased⟩ := answers_deleteOwned h
  exact .erase hlink herased

/-- The rows that an unmerge reads are items of its record, which go back to its merged party. -/
theorem owner_of_rowsRead {record : Uuid} {rows : List MergeItem} {row : MergeRecordRow}
    (hs : Sound s) (hrows : rows.Perm (s.itemsOf record))
    (hrecord : s.records.lookup record = some row) :
    ∀ item ∈ rows, item.previousOwnerId = row.mergedId := by
  intro item hitem
  obtain ⟨hitem, hof⟩ := List.mem_filter.mp (hrows.mem_iff.mp hitem)
  have howner := hs.items.owners item hitem
  rw [of_decide_eq_true hof, PartyState.mergedOf, hrecord, Option.map_some] at howner
  exact (Option.some.inj howner).symm

/-- An accepted unmerge of a reachable state is one kind of write. -/
theorem unmerged_of_answers {record : Uuid} {note : Option String} {rows : List MergeItem}
    {a : Unit} (hs : Sound s) (hrows : rows.Perm (s.itemsOf record))
    (h : (unmerge ctx record note rows).Answers s a t) :
    ∃ row kind, s.records.lookup record = some row ∧
      s.link row.mergedId = some (kind, some row.survivorId) ∧
        Unmerged s rows record row.mergedId row.survivorId t := by
  obtain ⟨row, kind, hrecord, hsource, hunmerged⟩ := answers_unmerge h
  exact ⟨row, kind, hrecord, hsource, hunmerged (owner_of_rowsRead hs hrows hrecord)⟩

/-- Every call writes in a few steps of the kinds. -/
theorem writes_of_step (hs : Sound s) (hstep : (partyMachine m).step s act = some t) :
    Relation.ReflTransGen Writes s t := by
  obtain ⟨ctx, call⟩ := act
  obtain ⟨hread, hrun⟩ := Option.ite_none_right_eq_some.mp hstep
  obtain rfl := Option.some.inj hrun
  cases call with
  | create kind name points => exact within_partyCreate.dispatch s
  | update id revision name => exact within_partyUpdate.dispatch s
  | addContact party revision kind value => exact within_contactAdd.dispatch s
  | changeContact party revision contact retire => exact within_contactChange.dispatch s
  | addAffiliation person organization revision validFrom validTo =>
    exact within_affiliationAdd.dispatch s
  | endAffiliation person revision affiliation validTo => exact within_affiliationEnd.dispatch s
  | resolve isService input => exact within_resolveOrCreate.dispatch s
  | merge data => exact within_merge.dispatch s
  | unmerge record note rows =>
    simp only [PartyCall.run]
    rcases hdispatch : (unmerge ctx record note rows).dispatch s with ⟨_ | a, t⟩
    · rw [dispatch_error hdispatch]
    · obtain ⟨row, kind, hrecord, hsource, hunmerged⟩ := unmerged_of_answers hs
        (List.isPerm_iff.mp hread) (dispatch_eq_ok.mp hdispatch)
      exact .single (.unmerge ⟨row, hrecord, rfl⟩ hsource hunmerged)
  | review data => exact within_resolveReview.dispatch s
  | erase party revision => exact within_deleteOwned.dispatch s

theorem Sound.of_writes (hs : Sound s) (hwrites : Relation.ReflTransGen Writes s t) : Sound t := by
  induction hwrites with
  | refl => exact hs
  | tail _ hone ih => exact hone.sound ih

theorem NoneReturns.of_writes (hwrites : Relation.ReflTransGen Writes s t) : NoneReturns s t := by
  induction hwrites with
  | refl => exact NoneReturns.refl s
  | tail _ hone ih => exact ih.trans hone.noneReturns

theorem sound_empty : Sound emptyState := by
  have hlink (id : Uuid) : emptyState.link id = none := rfl
  have hcontact (id : Uuid) : emptyState.contacts.lookup id = none := rfl
  have haffiliation (id : Uuid) : emptyState.affiliations.lookup id = none := rfl
  have hmerged (id : Uuid) : emptyState.mergedOf id = none := rfl
  have hitems : emptyState.items = [] := rfl
  refine ⟨⟨?_, ?_⟩, ⟨?_, ?_⟩, ?_, ?_, ⟨?_, ?_, ?_⟩⟩
  · simp [hlink]
  · simp [hlink]
  · simp [hcontact]
  · simp [hcontact]
  · simp [PartyState.Periods, haffiliation]
  · simp [haffiliation]
  · simp [hitems]
  · simp [hitems]
  · simp [hmerged]

/-- Every reachable state is sound. -/
theorem sound_of_reachable (hs : (partyMachine m).Reachable s) : Sound s := by
  have hinvariant : (partyMachine m).IsInvariant Sound := by
    constructor
    case init =>
      rintro s rfl
      exact sound_empty
    case step => exact fun s act t hs hstep => hs.of_writes (writes_of_step hs hstep)
  exact hinvariant.of_reachable hs

/-- What is gone stays gone on every run. -/
theorem noneReturns_of_reaches (hs : (partyMachine m).Reachable s)
    (hrun : (partyMachine m).Reaches s t) : NoneReturns s t := by
  refine hs.stable (P := NoneReturns s) ?_ (NoneReturns.refl s) hrun
  intro r act u hr hreturns hstep
  exact hreturns.trans (NoneReturns.of_writes (writes_of_step (sound_of_reachable hr) hstep))

end Runs

end Rheostream.Relationships
