import Mathlib.Data.List.Dedup
import Rheostream.Relationships.PartyInvariant

/-!
# A merge that is undone at once

The items that a merge has recorded all go back, in whatever order they are read, and every owner
is as before the merge.
-/

namespace Rheostream.Relationships

open Handler

variable {s t r u : PartyState} {kind : PartyKind} {source target record id : Uuid}
  {rows : List MergeItem} {item : MergeItem}

/-! ### Owners of an affiliation -/

variable {owner : Uuid} {row : AffiliationRow}

@[simp] theorem owner_withOwner : (row.withOwner owner kind).owner kind = owner := by
  cases kind <;> rfl

/-- An affiliation that comes back to its owner is as it was. -/
theorem withOwner_back (howner : row.owner kind = source) :
    (row.withOwner owner kind).withOwner source kind = row := by
  subst howner
  cases kind <;> rfl

theorem owner_of_period {rowA rowB : AffiliationRow} (kind : PartyKind)
    (hperiod : rowA.period = rowB.period) :
    rowA.owner kind = rowB.owner kind := by
  simp only [AffiliationRow.period, Prod.mk.injEq] at hperiod
  cases kind with
  | person => exact hperiod.1
  | organization => exact hperiod.2.1

/-- Items of one column restore that column. -/
theorem restored_of_column (hcolumn : ∀ k, named rows (.affiliation k) id = true → k = kind) :
    row.restored rows owner id =
      if named rows (.affiliation kind) id then row.withOwner owner kind else row := by
  have hother (k : PartyKind) (hk : k ≠ kind) : named rows (.affiliation k) id = false := by
    rw [← Bool.not_eq_true]
    exact fun hnamed => hk (hcolumn k hnamed)
  cases kind with
  | person =>
    rw [AffiliationRow.restored, hother .organization (by decide)]
    cases named rows (.affiliation .person) id <;> rfl
  | organization =>
    rw [AffiliationRow.restored, hother .person (by decide)]
    cases named rows (.affiliation .organization) id <;> rfl

/-! ### The loop -/

/-- The row that an item is about. -/
def MergeItem.key (item : MergeItem) : ItemKind × Uuid := (item.kind, item.itemId)

variable {k : ItemKind}

theorem named_iff : named rows k id = true ↔ ∃ item ∈ rows, item.key = (k, id) := by
  simp [named, MergeItem.key]

/-- What holds while the `rows` are still to be restored: they are with the target. -/
structure Undoing (s : PartyState) (kind : PartyKind) (source target : Uuid)
    (rows : List MergeItem) (r : PartyState) : Prop where
  contacts : ∀ item ∈ rows, item.kind = .contactPoint → ∀ row,
    r.contacts.lookup item.itemId = some row → row.partyId = target
  column : ∀ item ∈ rows, ∀ k, item.kind = .affiliation k → k = kind
  /-- An affiliation is as it was in `s`, or it is moved. -/
  affiliations : ∀ id row, r.affiliations.lookup id = some row → ∃ old,
    s.affiliations.lookup id = some old ∧
      (row = old ∧ named rows (.affiliation kind) id = false ∨
        old.owner kind = source ∧ row = old.withOwner target kind)
  aliases : ∀ item ∈ rows, item.kind = .aliasOf → ∀ l,
    r.link item.itemId = some l → l.2 = some target
  owners : ∀ item ∈ rows, item.previousOwnerId = source
  distinct : (rows.map MergeItem.key).Nodup

/-- The row of an item that is still to be restored is moved. -/
theorem Undoing.moved (hundoing : Undoing s kind source target rows r)
    (hnamed : named rows (.affiliation kind) id = true) (hrow : r.affiliations.lookup id = some row)
    : ∃ old, s.affiliations.lookup id = some old ∧
      old.owner kind = source ∧ row = old.withOwner target kind := by
  obtain ⟨old, hold, ⟨-, hfree⟩ | hmoved⟩ := hundoing.affiliations id row hrow
  · rw [hnamed] at hfree
    cases hfree
  · exact ⟨old, hold, hmoved⟩

/-- It collides with no other row: its earlier period was its own, and a moved row is not with the
source. -/
theorem Undoing.collides (hundoing : Undoing s kind source target rows r) (hperiods : s.Periods)
    (hne : source ≠ target) (hnamed : named rows (.affiliation kind) id = true)
    (hrow : r.affiliations.lookup id = some row) : r.collides kind source id row = false := by
  obtain ⟨old, hold, howner, rfl⟩ := hundoing.moved hnamed hrow
  rw [PartyState.collides, Table.existsRow_eq_false]
  intro other existing hother
  rw [withOwner_back howner, Bool.and_eq_false_iff, decide_eq_false_iff_not,
    decide_eq_false_iff_not, not_not]
  by_cases hperiod : existing.period = old.period
  · right
    obtain ⟨old', hold', ⟨rfl, -⟩ | ⟨-, rfl⟩⟩ := hundoing.affiliations other existing hother
    · exact hperiods other id existing old hold' hold hperiod
    · have htarget := owner_of_period kind hperiod
      rw [owner_withOwner, howner] at htarget
      exact absurd htarget.symm hne
  · exact .inl hperiod

/-- The next item is restored. -/
theorem Undoing.answers (hundoing : Undoing s kind source target (item :: rows) r)
    (hperiods : s.Periods) (hne : source ≠ target) :
    ∃ r', (restoreItem target item).Answers r () r' := by
  have hmem : item ∈ item :: rows := List.mem_cons_self
  simp only [restoreItem, answers_bind_get]
  cases hkind : item.kind with
  | contactPoint =>
    cases hrow : r.contacts.lookup item.itemId with
    | none => exact ⟨r, answers_pure.mpr ⟨rfl, rfl⟩⟩
    | some row =>
      simp only [answers_bind_require, answers_write]
      exact ⟨_, hundoing.contacts item hmem hkind row hrow, rfl⟩
  | affiliation k =>
    obtain rfl := hundoing.column item hmem k hkind
    cases hrow : r.affiliations.lookup item.itemId with
    | none => exact ⟨r, answers_pure.mpr ⟨rfl, rfl⟩⟩
    | some row =>
      have hnamed : named (item :: rows) (.affiliation k) item.itemId = true :=
        named_iff.mpr ⟨item, hmem, by rw [MergeItem.key, hkind]⟩
      obtain ⟨old, -, -, hmoved⟩ := hundoing.moved hnamed hrow
      simp only [answers_bind_require, answers_write]
      refine ⟨_, ?_, ?_, rfl⟩
      · rw [hmoved, owner_withOwner]
      · rw [hundoing.owners item hmem]
        exact hundoing.collides hperiods hne hnamed hrow
  | aliasOf =>
    cases hrow : r.parties.lookup item.itemId with
    | none => exact ⟨r, answers_pure.mpr ⟨rfl, rfl⟩⟩
    | some row =>
      simp only [answers_bind_require, answers_write]
      exact ⟨_, hundoing.aliases item hmem hkind _ (link_of_lookup hrow), rfl⟩

/-- The other items still are to be restored. -/
theorem Undoing.step {r' : PartyState} (hundoing : Undoing s kind source target (item :: rows) r)
    (hrestored : Restored r [item] target source r') : Undoing s kind source target rows r' := by
  have hdistinct := List.nodup_cons.mp hundoing.distinct
  have hfree {other : MergeItem} (hother : other ∈ rows) :
      named [item] other.kind other.itemId = false := by
    rw [← Bool.not_eq_true, named_single]
    rintro ⟨hkind, hid⟩
    refine hdistinct.1 (List.mem_map.mpr ⟨other, hother, ?_⟩)
    rw [MergeItem.key, MergeItem.key, hkind, hid]
  constructor
  case contacts =>
    intro other hother hkind row hrow
    have hsame := hfree hother
    rw [hkind] at hsame
    rw [hrestored.contacts, hsame] at hrow
    exact hundoing.contacts other (List.mem_cons_of_mem _ hother) hkind row (by simpa using hrow)
  case column => exact fun other hother => hundoing.column other (List.mem_cons_of_mem _ hother)
  case affiliations =>
    intro id row hrow
    rw [hrestored.affiliations, Option.map_eq_some_iff] at hrow
    obtain ⟨row, hrow, rfl⟩ := hrow
    have hcolumn (k : PartyKind) (hk : named [item] (.affiliation k) id = true) : k = kind :=
      hundoing.column item List.mem_cons_self k (named_single.mp hk).1
    rw [restored_of_column hcolumn]
    cases hnamed : named [item] (.affiliation kind) id with
    | true =>
      -- the row is restored, and no other item is about it
      obtain ⟨old, hold, howner, rfl⟩ := hundoing.moved (by rw [named_cons, hnamed]; rfl) hrow
      refine ⟨old, hold, .inl ⟨?_, ?_⟩⟩
      · rw [if_pos rfl, withOwner_back howner]
      · rw [← Bool.not_eq_true, named_iff]
        rintro ⟨other, hother, hkey⟩
        refine hdistinct.1 (List.mem_map.mpr ⟨other, hother, hkey.trans ?_⟩)
        obtain ⟨hkind, hid⟩ := named_single.mp hnamed
        rw [MergeItem.key, hkind, hid]
    | false =>
      obtain ⟨old, hold, ⟨hrow, hrest⟩ | hmoved⟩ := hundoing.affiliations id row hrow
      · rw [named_cons, hnamed, Bool.false_or] at hrest
        exact ⟨old, hold, .inl ⟨hrow, hrest⟩⟩
      · exact ⟨old, hold, .inr hmoved⟩
  case aliases =>
    intro other hother hkind l hl
    have hsame := hfree hother
    rw [hkind] at hsame
    rw [hrestored.links, hsame] at hl
    exact hundoing.aliases other (List.mem_cons_of_mem _ hother) hkind l (by simpa using hl)
  case owners => exact fun other hother => hundoing.owners other (List.mem_cons_of_mem _ hother)
  case distinct => exact hdistinct.2

/-- The loop restores every item. -/
theorem Undoing.restores (hundoing : Undoing s kind source target rows r) (hperiods : s.Periods)
    (hne : source ≠ target) : ∃ u, (restoreItems target rows).Answers r () u := by
  induction rows generalizing r with
  | nil => exact ⟨r, answers_pure.mpr ⟨rfl, rfl⟩⟩
  | cons item rows ih =>
    obtain ⟨r', hfirst⟩ := hundoing.answers hperiods hne
    have hrestored := restored_of_restoreItem hfirst
    rw [hundoing.owners item List.mem_cons_self] at hrestored
    obtain ⟨u, hrest⟩ := ih (hundoing.step hrestored)
    exact ⟨u, answers_bind.mpr ⟨(), r', hfirst, hrest⟩⟩

/-! ### After a merge -/

/-- The items of a merge are those that it has just written. -/
theorem Merged.itemsOf (hmerged : Merged s kind source target s.nextId t) (hs : Sound s) :
    t.itemsOf s.nextId =
      (s.contactIds source).map (⟨s.nextId, .contactPoint, ·, source⟩) ++
        ((s.affiliationsOf kind source).keys.map (⟨s.nextId, .affiliation kind, ·, source⟩) ++
          (s.aliasIds source).map (⟨s.nextId, .aliasOf, ·, source⟩)) := by
  rw [PartyState.itemsOf, hmerged.items, List.filter_append]
  have hold : s.items.filter (fun item => item.recordId = s.nextId) = [] := by
    rw [List.filter_eq_nil_iff]
    intro item hitem hrecord
    have howner := hs.items.owners item hitem
    exact (hs.items.fresh _ _ howner).ne (of_decide_eq_true hrecord)
  rw [hold, List.nil_append, List.filter_eq_self]
  intro item hitem
  simp only [List.mem_append, List.mem_map] at hitem
  obtain ⟨id, -, rfl⟩ | ⟨id, -, rfl⟩ | ⟨id, -, rfl⟩ := hitem
  · simp
  · simp
  · simp

theorem nodup_keys {ids : List Uuid} (hids : ids.Nodup) :
    ((ids.map (⟨record, k, ·, source⟩)).map MergeItem.key).Nodup := by
  rw [List.map_map]
  refine hids.map fun a b hab => ?_
  exact (Prod.mk.inj hab).2

/-- A merge records a row once. -/
theorem Merged.distinct (hmerged : Merged s kind source target s.nextId t) (hs : Sound s) :
    ((t.itemsOf s.nextId).map MergeItem.key).Nodup := by
  rw [hmerged.itemsOf hs, List.map_append, List.map_append, List.nodup_append, List.nodup_append]
  refine ⟨nodup_keys ?_, ⟨nodup_keys ?_, nodup_keys ?_, ?_⟩, ?_⟩
  · exact AList.keys_nodup _
  · exact AList.keys_nodup _
  · exact AList.keys_nodup _
  · intro a ha b hb
    simp only [List.map_map, List.mem_map, Function.comp_apply] at ha hb
    obtain ⟨idA, -, rfl⟩ := ha
    obtain ⟨idB, -, rfl⟩ := hb
    simp [MergeItem.key]
  · intro a ha b hb
    simp only [List.mem_append, List.map_map, List.mem_map, Function.comp_apply] at ha hb
    obtain ⟨idA, -, rfl⟩ := ha
    obtain ⟨idB, -, rfl⟩ | ⟨idB, -, rfl⟩ := hb
    · simp [MergeItem.key]
    · simp [MergeItem.key]

/-- The items that the unmerge of a merge reads. -/
theorem Merged.mem_rows (hmerged : Merged s kind source target s.nextId t) (hs : Sound s)
    (hrows : rows.Perm (t.itemsOf s.nextId)) : item ∈ rows ↔
      item.recordId = s.nextId ∧ item.previousOwnerId = source ∧
        (item.kind = .contactPoint ∧ item.itemId ∈ s.contactIds source ∨
          item.kind = .affiliation kind ∧ item.itemId ∈ (s.affiliationsOf kind source).keys ∨
          item.kind = .aliasOf ∧ item.itemId ∈ s.aliasIds source) := by
  rw [hrows.mem_iff, PartyState.itemsOf, List.mem_filter, hmerged.mem_items]
  constructor
  · rintro ⟨hold | hnew, hrecord⟩
    · have howner := hs.items.owners item hold
      exact absurd (of_decide_eq_true hrecord) (hs.items.fresh _ _ howner).ne
    · exact hnew
  · intro hnew
    exact ⟨.inr hnew, decide_eq_true hnew.1⟩

/-- The rows that the unmerge of a merge restores. -/
theorem Merged.named (hmerged : Merged s kind source target s.nextId t) (hs : Sound s)
    (hrows : rows.Perm (t.itemsOf s.nextId)) : named rows k id = true ↔
      k = .contactPoint ∧ id ∈ s.contactIds source ∨
        k = .affiliation kind ∧ id ∈ (s.affiliationsOf kind source).keys ∨
        k = .aliasOf ∧ id ∈ s.aliasIds source := by
  rw [named_iff]
  constructor
  · rintro ⟨item, hitem, hkey⟩
    obtain ⟨rfl, rfl⟩ := Prod.mk.inj hkey
    exact ((hmerged.mem_rows hs hrows).mp hitem).2.2
  · intro hmoved
    exact ⟨⟨s.nextId, k, id, source⟩, (hmerged.mem_rows hs hrows).mpr ⟨rfl, rfl, hmoved⟩, rfl⟩

/-- All rows of a merge are still to be restored. -/
theorem Merged.undoing (hmerged : Merged s kind source target s.nextId t) (hs : Sound s)
    (hrows : rows.Perm (t.itemsOf s.nextId)) (hsource : s.link source = some (kind, none)) :
    Undoing s kind source target rows t := by
  have hnamed {item : MergeItem} (hitem : item ∈ rows) :
      Relationships.named rows item.kind item.itemId = true := named_iff.mpr ⟨item, hitem, rfl⟩
  constructor
  case contacts =>
    intro item hitem hkind row hrow
    have hmoved := (hmerged.named hs hrows).mp (hnamed hitem)
    simp only [hkind, reduceCtorEq, true_and, false_and, or_false] at hmoved
    obtain ⟨old, hold, howned⟩ := mem_contactIds.mp hmoved
    rw [hmerged.contacts, hold, Option.map_some, if_pos howned, Option.some.injEq] at hrow
    rw [← hrow]
  case column =>
    intro item hitem k hkind
    have hmoved := (hmerged.named hs hrows).mp (hnamed hitem)
    simp only [hkind, reduceCtorEq, ItemKind.affiliation.injEq, false_and, or_false,
      false_or] at hmoved
    exact hmoved.1
  case affiliations =>
    intro id row hrow
    rw [hmerged.affiliations, Option.map_eq_some_iff] at hrow
    obtain ⟨old, hold, rfl⟩ := hrow
    refine ⟨old, hold, ?_⟩
    by_cases howner : old.owner kind = source
    · exact .inr ⟨howner, if_pos howner⟩
    · refine .inl ⟨if_neg howner, ?_⟩
      rw [← Bool.not_eq_true, hmerged.named hs hrows, mem_affiliationsOf, hold]
      simpa using howner
  case aliases =>
    intro item hitem hkind l hl
    have hmoved := (hmerged.named hs hrows).mp (hnamed hitem)
    simp only [hkind, reduceCtorEq, true_and, false_and, false_or] at hmoved
    obtain ⟨old, hold, hinto⟩ := mem_aliasIds.mp hmoved
    have hne : item.itemId ≠ source := by
      intro hself
      rw [hself, hsource, Option.some.injEq] at hold
      rw [← hold] at hinto
      cases hinto
    rw [hmerged.links, if_neg hne, hold, Option.map_some, if_pos hinto, Option.some.injEq] at hl
    rw [← hl]
  case owners => exact fun item hitem => ((hmerged.mem_rows hs hrows).mp hitem).2.1
  case distinct => exact (hrows.map MergeItem.key).nodup_iff.mpr (hmerged.distinct hs)

/-- Counting the revisions of parties that are there is answered. -/
theorem answers_bumpAll {ids : List Uuid} (hids : ∀ id ∈ ids, (s.link id).isSome = true) :
    ∃ t, (bumpAll ids).Answers s () t := by
  induction ids generalizing s with
  | nil => exact ⟨s, answers_pure.mpr ⟨rfl, rfl⟩⟩
  | cons id ids ih =>
    obtain ⟨l, hl⟩ := Option.isSome_iff_exists.mp (hids id List.mem_cons_self)
    obtain ⟨row, hrow, -, -⟩ := link_eq_some.mp hl
    have hbump : (bump id none).Answers s (row.revision + 1) { s with
        parties := s.parties.insert id { row with revision := row.revision + 1 } } := by
      simp only [bump, answers_bind_get, answers_bind_found, answers_bind_require,
        answers_bind_write, answers_pure]
      exact ⟨row, hrow, rfl, rfl, rfl⟩
    obtain ⟨t, hrest⟩ := ih fun other hother => by
      rw [(sameRows_of_bump hbump).links]
      exact hids other (List.mem_cons_of_mem _ hother)
    exact ⟨t, answers_bind.mpr ⟨_, _, hbump, hrest⟩⟩

/-- The rows of a state before a merge, once they are restored. -/
theorem Merged.restored (hmerged : Merged s kind source target s.nextId t) (hs : Sound s)
    (hrows : rows.Perm (t.itemsOf s.nextId)) (hsource : s.link source = some (kind, none))
    (hrestored : Restored t rows target source u) :
    (∀ id, ((u.link id).map fun l => if id = source then (l.1, none) else l) = s.link id) ∧
      (∀ id, u.contacts.lookup id = s.contacts.lookup id) ∧
      ∀ id, u.affiliations.lookup id = s.affiliations.lookup id := by
  refine ⟨fun id => ?_, fun id => ?_, fun id => ?_⟩
  · rw [hrestored.links, hmerged.links]
    by_cases hid : id = source
    · subst hid
      rw [if_pos rfl, hsource]
      cases Relationships.named rows .aliasOf id <;> simp
    · rw [if_neg hid]
      cases hlink : s.link id with
      | none => rfl
      | some l =>
        obtain ⟨k, into⟩ := l
        have halias : Relationships.named rows .aliasOf id = true ↔ into = some source := by
          rw [hmerged.named hs hrows, mem_aliasIds, hlink]
          simp
        by_cases hinto : into = some source
        · simp [halias.mpr hinto, hinto, hid]
        · have hfree := mt halias.mp hinto
          simp [hfree, hinto, hid]
  · rw [hrestored.contacts, hmerged.contacts]
    cases hrow : s.contacts.lookup id with
    | none => rfl
    | some row =>
      have hmoved : Relationships.named rows .contactPoint id = true ↔
          row.partyId = source ∧ row.retiredAt = none := by
        rw [hmerged.named hs hrows, mem_contactIds, hrow]
        simp
      by_cases howned : row.partyId = source ∧ row.retiredAt = none
      · have hback : ({ row with partyId := source } : ContactRow) = row := by rw [← howned.1]
        rw [Option.map_some, if_pos howned, Option.map_some, if_pos (hmoved.mpr howned)]
        exact congrArg some hback
      · simp [mt hmoved.mp howned, howned]
  · rw [hrestored.affiliations, hmerged.affiliations]
    cases hrow : s.affiliations.lookup id with
    | none => rfl
    | some row =>
      have hmoved {k : PartyKind} : Relationships.named rows (.affiliation k) id = true ↔
          k = kind ∧ row.owner kind = source := by
        rw [hmerged.named hs hrows, mem_affiliationsOf, hrow]
        simp
      rw [Option.map_some, Option.map_some, restored_of_column fun k hk => (hmoved.mp hk).1]
      by_cases howner : row.owner kind = source
      · rw [if_pos (hmoved.mpr ⟨rfl, howner⟩), if_pos howner, withOwner_back howner]
      · rw [if_neg fun hk => howner (hmoved.mp hk).2, if_neg howner]

/-- A merge that is undone at once leaves every owner as before. -/
theorem Merged.undone (hmerged : Merged s kind source target s.nextId t) (hs : Sound s)
    (hne : source ≠ target) (hsource : s.link source = some (kind, none))
    (htarget : s.link target = some (kind, none)) {ctx : CallContext}
    (hconsumers : ctx.consumers = true) (note : Option String)
    (hrows : rows.Perm (t.itemsOf s.nextId)) :
    ∃ u, (unmerge ctx s.nextId note rows).Answers t () u ∧ (∀ id, u.link id = s.link id) ∧
      (∀ id, u.contacts.lookup id = s.contacts.lookup id) ∧
      ∀ id, u.affiliations.lookup id = s.affiliations.lookup id := by
  obtain ⟨evidence, hrecords⟩ := hmerged.records
  have hrecord : t.records.lookup s.nextId = some ⟨target, source, evidence, none, none⟩ := by
    rw [hrecords, AList.lookup_insert]
  have hsourceLink : t.link source = some (kind, some target) := by
    rw [hmerged.links, if_pos rfl]
  have htargetLink : t.link target = some (kind, none) := by
    rw [hmerged.links, if_neg hne.symm, htarget]
    rfl
  obtain ⟨sourceRow, hsourceRow, -, hinto⟩ := link_eq_some.mp hsourceLink
  obtain ⟨targetRow, htargetRow, -, hlive⟩ := link_eq_some.mp htargetLink
  obtain ⟨r, hrestore⟩ := (hmerged.undoing hs hrows hsource).restores hs.periods hne
  have hrestored := restored_of_restoreItems
    (fun item hitem => ((hmerged.mem_rows hs hrows).mp hitem).2.1) hrestore
  -- the parties whose revisions are counted are all there
  have hthere : ∀ id ∈ t.changedParties ⟨target, source, evidence, none, none⟩ rows,
      ((r.setMergedInto source none).link id).isSome = true := by
    intro id hid
    rw [link_setMergedInto, Option.isSome_map, hrestored.links, Option.isSome_map]
    simp only [PartyState.changedParties, List.mem_dedup, List.mem_cons, List.mem_map,
      List.mem_filter, Bool.and_eq_true] at hid
    obtain rfl | rfl | ⟨item, ⟨-, -, hthere⟩, rfl⟩ := hid
    · rw [hsourceLink]
      rfl
    · rw [htargetLink]
      rfl
    · rw [PartyState.link, Option.isSome_map, hthere]
  obtain ⟨r', hbumps⟩ := answers_bumpAll hthere
  have hsame := sameRows_of_bumpAll hbumps
  obtain ⟨hlinks, hcontacts, haffiliations⟩ := hmerged.restored hs hrows hsource hrestored
  have hanswers : (unmerge ctx s.nextId note rows).Answers t () { r' with
      records := r'.records.insert s.nextId ⟨target, source, evidence, some ctx.now, note⟩ } := by
    simp only [unmerge, answers_bind_require, answers_bind_get, answers_bind_found,
      answers_bind_getRow]
    refine ⟨hconsumers, ⟨target, source, evidence, none, none⟩, hrecord, rfl, sourceRow,
      hsourceRow, targetRow, htargetRow, ⟨hlive, hinto⟩,
      answers_bind.mpr ⟨(), r, hrestore, ?_⟩⟩
    rw [answers_bind_write]
    exact answers_bind.mpr ⟨(), r', hbumps, answers_write.mpr rfl⟩
  refine ⟨_, hanswers, fun id => ?_, fun id => ?_, fun id => ?_⟩
  · exact (hsame.links id).trans (link_setMergedInto.trans (hlinks id))
  · exact (congrArg (AList.lookup id) hsame.contacts).trans (hcontacts id)
  · exact (congrArg (AList.lookup id) hsame.affiliations).trans (haffiliations id)

end Rheostream.Relationships
