import Rheostream.Relationships.MergeUndone

/-!
# Ownership over merges and unmerges

Over every run of the parties of a workspace: aliases are short, a verified identity is owned once,
an unmerge gives back what its merge has moved and what still exists, and nothing that was erased
comes back.
-/

namespace Rheostream.Relationships

open Handler

variable {m : Matching} {s t u : PartyState} {ctx : CallContext} {party record id : Uuid}
  {rows : List MergeItem}

/-! ### Owners -/

/-- The row that an item of the kind is about is there. -/
def PartyState.There (s : PartyState) : ItemKind → Uuid → Prop
  | .contactPoint, id => (s.contacts.lookup id).isSome
  | .affiliation _, id => (s.affiliations.lookup id).isSome
  | .aliasOf, id => (s.parties.lookup id).isSome

/-- The party owns the row that an item of the kind is about. -/
def PartyState.Owns (s : PartyState) (party : Uuid) : ItemKind → Uuid → Prop
  | .contactPoint, id => ∃ row, s.contacts.lookup id = some row ∧ row.partyId = party
  | .affiliation column, id =>
    ∃ row, s.affiliations.lookup id = some row ∧ row.owner column = party
  | .aliasOf, id => ∃ row, s.parties.lookup id = some row ∧ row.mergedIntoId = some party

/-- The party is live. -/
def PartyState.Live (s : PartyState) (party : Uuid) : Prop :=
  ∃ row, s.parties.lookup party = some row ∧ row.mergedIntoId = none

/-- What a merge of the party moves: its contact points that are not retired, the affiliations that
a party of its kind owns, and its aliases. -/
def PartyState.Moves (s : PartyState) (party : Uuid) : ItemKind → Uuid → Prop
  | .contactPoint, id =>
    ∃ row, s.contacts.lookup id = some row ∧ row.partyId = party ∧ row.retiredAt = none
  | .affiliation column, id => s.Owns party (.affiliation column) id ∧
    ∃ row, s.parties.lookup party = some row ∧ row.kind = column
  | .aliasOf, id => s.Owns party .aliasOf id

variable {source target : Uuid}

/-- What an accepted unmerge leaves of an item. -/
theorem Unmerged.owns {item : MergeItem} (hunmerged : Unmerged s rows record source target t)
    (hitem : item ∈ rows) (hother : item.kind = .aliasOf → item.itemId ≠ source)
    (hthere : s.There item.kind item.itemId) : t.Owns source item.kind item.itemId := by
  obtain ⟨u, hrestored, hlinks, hcontacts, haffiliations⟩ := hunmerged.restored
  have hnamed : named rows item.kind item.itemId = true := named_iff.mpr ⟨item, hitem, rfl⟩
  cases hkind : item.kind with
  | contactPoint =>
    rw [hkind] at hthere hnamed
    obtain ⟨row, hrow⟩ := Option.isSome_iff_exists.mp hthere
    refine ⟨{ row with partyId := source }, ?_, rfl⟩
    rw [hcontacts, hrestored.contacts, hrow, Option.map_some, if_pos hnamed]
  | affiliation column =>
    rw [hkind] at hthere hnamed
    obtain ⟨row, hrow⟩ := Option.isSome_iff_exists.mp hthere
    refine ⟨row.restored rows source item.itemId, ?_, ?_⟩
    · rw [haffiliations, hrestored.affiliations, hrow, Option.map_some]
    · cases column with
      | person => exact if_pos hnamed
      | organization => exact if_pos hnamed
  | aliasOf =>
    rw [hkind] at hthere hnamed
    obtain ⟨row, hrow⟩ := Option.isSome_iff_exists.mp hthere
    have hlink : t.link item.itemId = some (row.kind, some source) := by
      rw [hlinks, hrestored.links, link_of_lookup hrow, Option.map_some, if_pos hnamed,
        Option.map_some, if_neg (hother hkind)]
    obtain ⟨row', hrow', -, hinto⟩ := link_eq_some.mp hlink
    exact ⟨row', hrow', hinto⟩

variable {kind : PartyKind}

theorem Unmerged.live (hunmerged : Unmerged s rows record source target t)
    (hsource : s.link source = some (kind, some target)) : t.Live source := by
  obtain ⟨u, hrestored, hlinks, -, -⟩ := hunmerged.restored
  have hlink : ∃ k, t.link source = some (k, none) := by
    rw [hlinks, hrestored.links, hsource, Option.map_some, Option.map_some, if_pos rfl]
    exact ⟨_, rfl⟩
  obtain ⟨k, hlink⟩ := hlink
  obtain ⟨row, hrow, -, hlive⟩ := link_eq_some.mp hlink
  exact ⟨row, hrow, hlive⟩

/-- An accepted unmerge gives every item of its record that is there back, and its merged party is
live. -/
theorem owns_of_unmerge {note : Option String} (hs : Sound s) (hrows : rows.Perm (s.itemsOf record))
    (h : (unmerge ctx record note rows).Answers s () t) :
    (∀ item ∈ s.itemsOf record, s.There item.kind item.itemId →
      t.Owns item.previousOwnerId item.kind item.itemId) ∧
      ∀ row, s.records.lookup record = some row → t.Live row.mergedId := by
  obtain ⟨row, kind, hrecord, hsource, hunmerged⟩ := unmerged_of_answers hs hrows h
  constructor
  · intro item hitem hthere
    have howner := owner_of_rowsRead hs hrows hrecord item (hrows.mem_iff.mpr hitem)
    rw [howner]
    refine hunmerged.owns (hrows.mem_iff.mpr hitem) (fun hkind => ?_) hthere
    rw [← howner]
    exact hs.items.others item (List.mem_of_mem_filter hitem) hkind
  · intro row' hrow'
    obtain rfl := Option.some.inj (hrecord.symm.trans hrow')
    exact hunmerged.live hsource

/-! ### Items of a record -/

/-- A record keeps its items and its merged party. -/
def RecordKept (s t : PartyState) (record : Uuid) : Prop :=
  t.itemsOf record = s.itemsOf record ∧ t.mergedOf record = s.mergedOf record

theorem Merged.recordKept (hmerged : Merged s kind source target s.nextId t)
    (hrecord : record < s.nextId) : RecordKept s t record := by
  constructor
  · rw [PartyState.itemsOf, hmerged.items, List.filter_append, ← PartyState.itemsOf,
      List.append_right_eq_self, List.filter_eq_nil_iff]
    intro item hitem hof
    simp only [List.mem_append, List.mem_map] at hitem
    obtain ⟨id, -, rfl⟩ | ⟨id, -, rfl⟩ | ⟨id, -, rfl⟩ := hitem
    · exact hrecord.ne' (of_decide_eq_true hof)
    · exact hrecord.ne' (of_decide_eq_true hof)
    · exact hrecord.ne' (of_decide_eq_true hof)
  · rw [hmerged.mergedOf, if_neg hrecord.ne]

theorem Writes.recordKept (hwrites : Writes s t) (hrecord : record < s.nextId) :
    RecordKept s t record := by
  cases hwrites with
  | same hsame =>
    constructor
    · rw [PartyState.itemsOf, hsame.items, PartyState.itemsOf]
    · rw [PartyState.mergedOf, hsame.records, PartyState.mergedOf]
  | party kind name => exact ⟨rfl, rfl⟩
  | contact _ => exact ⟨rfl, rfl⟩
  | changeContact _ _ => exact ⟨rfl, rfl⟩
  | affiliation _ => exact ⟨rfl, rfl⟩
  | endAffiliation _ _ => exact ⟨rfl, rfl⟩
  | merge _ _ _ _ hmerged => exact hmerged.recordKept hrecord
  | unmerge hold _ hunmerged =>
    constructor
    · rw [PartyState.itemsOf, hunmerged.items, PartyState.itemsOf]
    · exact hunmerged.mergedOf hold record
  | erase _ herased =>
    constructor
    · rw [PartyState.itemsOf, herased.items, PartyState.itemsOf]
    · exact herased.records record

theorem recordKept_of_writes (hwrites : Relation.ReflTransGen Writes s t)
    (hrecord : record < s.nextId) : RecordKept s t record := by
  induction hwrites with
  | refl => exact ⟨rfl, rfl⟩
  | tail hprev hone ih =>
    have hkept := hone.recordKept (hrecord.trans_le (NoneReturns.of_writes hprev).nextId)
    exact ⟨hkept.1.trans ih.1, hkept.2.trans ih.2⟩

theorem recordKept_of_reaches (hs : (partyMachine m).Reachable s)
    (hrun : (partyMachine m).Reaches s t) (hrecord : record < s.nextId) :
    RecordKept s t record := by
  refine (hs.stable (P := fun r => RecordKept s r record ∧ s.nextId ≤ r.nextId)
    ?_ ⟨⟨rfl, rfl⟩, le_rfl⟩ hrun).1
  rintro r act u hr ⟨hkept, hle⟩ hstep
  have hwrites := writes_of_step (sound_of_reachable hr) hstep
  have hnext := recordKept_of_writes hwrites (hrecord.trans_le hle)
  exact ⟨⟨hnext.1.trans hkept.1, hnext.2.trans hkept.2⟩,
    hle.trans (NoneReturns.of_writes hwrites).nextId⟩

variable {k : ItemKind}

/-- Every row that a merge moves is recorded with its owner. -/
theorem Merged.records_moved (hmerged : Merged s kind source target record t)
    (hsource : s.link source = some (kind, none)) (hmoves : s.Moves source k id) :
    ⟨record, k, id, source⟩ ∈ t.itemsOf record := by
  rw [PartyState.itemsOf, List.mem_filter, hmerged.mem_items]
  refine ⟨.inr ⟨rfl, rfl, ?_⟩, decide_eq_true rfl⟩
  cases k with
  | contactPoint => exact .inl ⟨rfl, mem_contactIds.mpr hmoves⟩
  | affiliation column =>
    obtain ⟨howns, row, hrow, rfl⟩ := hmoves
    rw [link_of_lookup hrow, Option.some.injEq, Prod.mk.injEq] at hsource
    rw [← hsource.1]
    exact .inr (.inl ⟨rfl, mem_affiliationsOf.mpr howns⟩)
  | aliasOf =>
    obtain ⟨row, hrow, hinto⟩ := hmoves
    exact .inr (.inr ⟨rfl, mem_aliasIds.mpr ⟨_, link_of_lookup hrow, hinto⟩⟩)

/-! ### The law -/

/-- What holds of the ownership in a state. -/
structure OwnershipLaw (m : Matching) (s : PartyState) : Prop where
  /-- A merged party points straight at a live party of its own kind. -/
  aliases : ∀ id row survivor, s.parties.lookup id = some row →
    row.mergedIntoId = some survivor → ∃ live, s.parties.lookup survivor = some live ∧
      live.mergedIntoId = none ∧ live.kind = row.kind
  /-- A live verified identity is that of one contact point, so it has one owner. -/
  identities : ∀ a b rowA rowB key, s.contacts.lookup a = some rowA →
    s.contacts.lookup b = some rowB → rowA.identity = some key → rowB.identity = some key →
      a = b ∧ rowA.partyId = rowB.partyId
  /-- An accepted unmerge gives every item of its record that is still there back, and its merged
  party is live again. -/
  restored : ∀ ctx record note rows t, rows.Perm (s.itemsOf record) →
    (unmerge ctx record note rows).dispatch s = (.ok (), t) →
      (∀ item ∈ s.itemsOf record, s.There item.kind item.itemId →
        t.Owns item.previousOwnerId item.kind item.itemId) ∧
        ∀ row, s.records.lookup record = some row → t.Live row.mergedId
  /-- So it gives back what its merge has moved, whatever was called in between. -/
  returned : ∀ ctx data record t, (merge ctx data).dispatch s = (.ok record, t) →
    ∀ u, (partyMachine m).Reaches t u → ∀ ctx' note rows v, rows.Perm (u.itemsOf record) →
      (unmerge ctx' record note rows).dispatch u = (.ok (), v) → v.Live data.sourceId ∧
        ∀ kind id, s.Moves data.sourceId kind id → u.There kind id → v.Owns data.sourceId kind id
  /-- A merge that is unmerged at once leaves every owner as before. -/
  undone : ∀ ctx data record t, (merge ctx data).dispatch s = (.ok record, t) →
    ∀ ctx' note rows, ctx'.consumers = true → rows.Perm (t.itemsOf record) →
      ∃ u, (unmerge ctx' record note rows).dispatch t = (.ok (), u) ∧
        (∀ id, u.link id = s.link id) ∧ (∀ id, u.contacts.lookup id = s.contacts.lookup id) ∧
          ∀ id, u.affiliations.lookup id = s.affiliations.lookup id
  /-- What is erased does not come back. -/
  erased : ∀ t u, (partyMachine m).Reaches s t → (partyMachine m).Reaches t u → ∀ kind id,
    s.There kind id → ¬t.There kind id → ¬u.There kind id
  /-- A merge or an unmerge that is refused leaves every row. -/
  refused : (∀ ctx data refusal t, (merge ctx data).dispatch s = (.error refusal, t) → t = s) ∧
    ∀ ctx record note rows refusal t,
      (unmerge ctx record note rows).dispatch s = (.error refusal, t) → t = s

/-- A merge call is a step. -/
theorem reaches_of_merge {data : MergeInput} (h : (merge ctx data).dispatch s = (.ok record, t)) :
    (partyMachine m).Reaches s t := by
  have hstep : (partyMachine m).step s (ctx, .merge data) = some t := by
    simp [partyMachine, PartyCall.rowsRead, PartyCall.run, h]
  exact Machine.Reaches.single hstep

theorem There.lt (hs : Sound s) (hthere : s.There k id) : id < s.nextId := by
  cases k with
  | contactPoint =>
    obtain ⟨row, hrow⟩ := Option.isSome_iff_exists.mp hthere
    exact hs.contacts.fresh id row hrow
  | affiliation _ =>
    obtain ⟨row, hrow⟩ := Option.isSome_iff_exists.mp hthere
    exact hs.affiliations id row hrow
  | aliasOf =>
    obtain ⟨row, hrow⟩ := Option.isSome_iff_exists.mp hthere
    exact hs.links.fresh id _ (link_of_lookup hrow)

/-- What is gone stays gone. -/
theorem NoneReturns.there (hreturns : NoneReturns s t) (hid : id < s.nextId) (hgone : ¬s.There k id)
    : ¬t.There k id := by
  cases k with
  | contactPoint =>
    simp only [PartyState.There, Option.not_isSome_iff_eq_none] at hgone ⊢
    exact hreturns.contacts id hid hgone
  | affiliation _ =>
    simp only [PartyState.There, Option.not_isSome_iff_eq_none] at hgone ⊢
    exact hreturns.affiliations id hid hgone
  | aliasOf =>
    simp only [PartyState.There, Option.not_isSome_iff_eq_none] at hgone ⊢
    have hlink := hreturns.parties id hid (Option.map_eq_none_iff.mpr hgone)
    exact Option.map_eq_none_iff.mp hlink

/-- Over every run of the calls, an unmerge restores what its merge has moved. -/
theorem unmerge_restores (hs : (partyMachine m).Reachable s) : OwnershipLaw m s := by
  have hsound := sound_of_reachable hs
  constructor
  case aliases =>
    intro id row survivor hrow hinto
    have hlink := link_of_lookup hrow
    rw [hinto] at hlink
    obtain ⟨live, hlive, hkind, hnone⟩ :=
      link_eq_some.mp (hsound.links.aliases id row.kind survivor hlink)
    exact ⟨live, hlive, hnone, hkind⟩
  case identities =>
    intro a b rowA rowB key ha hb hkeyA hkeyB
    obtain rfl := hsound.contacts.identities a b rowA rowB key ha hb hkeyA hkeyB
    obtain rfl := Option.some.inj (ha.symm.trans hb)
    exact ⟨rfl, rfl⟩
  case restored =>
    intro ctx record note rows t hrows h
    exact owns_of_unmerge hsound hrows (dispatch_eq_ok.mp h)
  case returned =>
    intro ctx data record t hmerge u hrun ctx' note rows v hrows hunmerge
    have ht := hs.reaches (reaches_of_merge hmerge)
    obtain ⟨hne, rfl, kind, hsource, htarget, -, hmerged⟩ :=
      answers_merge (dispatch_eq_ok.mp hmerge)
    obtain ⟨hitems, hmergedOf⟩ := recordKept_of_reaches ht hrun hmerged.nextId
    rw [hmerged.mergedOf, if_pos rfl] at hmergedOf
    obtain ⟨howns, hlive⟩ := owns_of_unmerge (sound_of_reachable (ht.reaches hrun)) hrows
      (dispatch_eq_ok.mp hunmerge)
    constructor
    · obtain ⟨row, hrow, hof⟩ := Option.map_eq_some_iff.mp hmergedOf
      rw [← hof]
      exact hlive row hrow
    · intro k id hmoves hthere
      have hitem := hmerged.records_moved hsource hmoves
      rw [← hitems] at hitem
      exact howns _ hitem hthere
  case undone =>
    intro ctx data record t hmerge ctx' note rows hconsumers hrows
    obtain ⟨hne, rfl, kind, hsource, htarget, -, hmerged⟩ :=
      answers_merge (dispatch_eq_ok.mp hmerge)
    obtain ⟨u, hunmerge, hsame⟩ :=
      hmerged.undone hsound hne hsource htarget hconsumers note hrows
    exact ⟨u, dispatch_eq_ok.mpr hunmerge, hsame⟩
  case erased =>
    intro t u hfirst hrest k id hthere hgone
    have hid := (There.lt hsound hthere).trans_le (noneReturns_of_reaches hs hfirst).nextId
    exact (noneReturns_of_reaches (hs.reaches hfirst) hrest).there hid hgone
  case refused =>
    exact ⟨fun _ _ _ _ => dispatch_error, fun _ _ _ _ _ _ => dispatch_error⟩

/-! ### A sample -/

/-- Contact values and names as they are, where they are in normal form already. -/
def plainMatching : Matching where
  normalize _ value := some value
  normalizeName name := name
  displayKey name := name
  similarNames _ _ _ := []

/-- Two persons with an email address each, and the one merged into the other. -/
def sampleCalls : List (CallContext × PartyCall) :=
  [(⟨1, true⟩, .create .person "ada" [⟨.email, "ada@example.org", .unverified, none⟩]),
    (⟨2, true⟩, .create .person "ada l" [⟨.email, "ada@example.com", .unverified, none⟩]),
    (⟨3, true⟩, .merge ⟨0, 2, 1, 1, none⟩)]

def sampleState : PartyState :=
  ((partyMachine plainMatching).run emptyState sampleCalls).getD emptyState

/-- The law after a merge of two sample parties. -/
theorem unmerge_restores_sample : OwnershipLaw plainMatching sampleState := by
  have hrun : (partyMachine plainMatching).run emptyState sampleCalls = some sampleState := rfl
  exact unmerge_restores (Machine.reachable_of_run rfl hrun)

example : (sampleState.contacts.lookup 1).map ContactRow.partyId = some 2 := by decide

end Rheostream.Relationships
