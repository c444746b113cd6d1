import Rheostream.Current.SourceView

/-!
# What the calls do to the links

What one call makes of the items, the projects, the links and the dependencies, operation by
operation, and that each of them keeps the view sound.
-/

namespace Rheostream.Current

namespace CurrentState

variable {s t : CurrentState} {id : Uuid} {row : Item} {sourceRef : String}
  {link : SourceItemLink} {now : ℕ}

/-- The view of the tables. -/
def view (s : CurrentState) : View where
  held id := (s.items.lookup id).map fun row => (row.source, row.projectId)
  isProject p := (s.projects.lookup p).isSome
  link sourceRef := s.links.lookup sourceRef
  changes := s.changesOf
  blocks a b := (s.dependencies.lookup (a, b)).isSome = true

/-- What holds in every run. -/
def Sound (s : CurrentState) : Prop := s.view.Sound s.drawn

/-- A call keeps what holds, and makes one kind of change. -/
structure Moves (s t : CurrentState) : Prop where
  sound : t.Sound
  change : Change s.view t.view

theorem view_publish_item (s : CurrentState) (verb : Verb) (subject : RecordRef)
    (revision : ℕ) : (s.publish (.item verb subject revision)).view = s.view := by
  refine View.ext rfl rfl rfl ?_ rfl
  funext source
  simp [view, publish, changesOf]

theorem view_addSignal (s : CurrentState) (itemId : Uuid) (fingerprint : Option String)
    (now : ℕ) : (s.addSignal itemId fingerprint now).view = s.view := by
  cases fingerprint <;> rfl

theorem drawn_addSignal (s : CurrentState) (itemId : Uuid) (fingerprint : Option String)
    (now : ℕ) : (s.addSignal itemId fingerprint now).drawn = s.drawn := by
  cases fingerprint <;> rfl

theorem view_setItem (s : CurrentState) (id : Uuid) (row : Item) :
    (s.setItem id row).view = s.view.setHeld id (some (row.source, row.projectId)) := by
  refine View.ext ?_ rfl rfl rfl rfl
  funext a
  simp only [view, setItem, View.setHeld, Table.lookup_insert, Function.update_apply]
  split_ifs <;> rfl

theorem held_eq (h : s.items.lookup id = some row) :
    s.view.held id = some (row.source, row.projectId) := by
  simp [view, h]

theorem held_eq_none : s.view.held id = none ↔ s.items.lookup id = none :=
  Option.map_eq_none_iff

/-- A row that keeps its source and its project keeps the view. -/
theorem view_setItem_same {old : Item} (h : s.items.lookup id = some old)
    (hsource : row.source = old.source) (hproject : row.projectId = old.projectId) :
    (s.setItem id row).view = s.view := by
  have hheld : s.view.held id = some (row.source, row.projectId) := by
    rw [held_eq h, hsource, hproject]
  rw [view_setItem, View.setHeld, ← hheld, Function.update_eq_self]

/-- A call that keeps the view and draws identifiers. -/
theorem Moves.of_view (hs : s.Sound) (hview : t.view = s.view) (hdrawn : s.drawn ⊆ t.drawn) :
    s.Moves t := by
  constructor
  · rw [Sound, hview]
    exact hs.mono hdrawn
  · exact .none (by rw [hview]) (by rw [hview])

theorem Moves.refl (hs : s.Sound) : s.Moves s := .of_view hs rfl (Finset.Subset.refl _)

theorem itemOfSource_ok {pair : String × String} (h : s.itemOfSource pair = some (id, row)) :
    s.items.lookup id = some row ∧ row.source = some pair := by
  obtain ⟨hrow, hsource⟩ := Table.findRow_eq_some h
  exact ⟨hrow, by simpa using hsource⟩

/-- A source that no item holds. -/
theorem not_held_of_itemOfSource {pair : String × String} (h : s.itemOfSource pair = none)
    (a : Uuid) (p : Option Uuid) : s.view.held a ≠ some (some pair, p) := by
  intro hheld
  obtain ⟨row, hrow, heq⟩ := Option.map_eq_some_iff.mp hheld
  obtain ⟨hsource, -⟩ := Prod.mk.inj heq
  have hne := Table.findRow_eq_none h hrow
  simp [hsource] at hne

variable {revision : ℕ}

theorem checkedItem_ok (h : s.checkedItem id revision = .ok row) :
    s.items.lookup id = some row := by
  unfold checkedItem at h
  split at h
  · cases h
  next found hfound =>
  split_ifs at h
  rw [hfound, Except.ok.inj h]

/-- The rows besides the links are as they were. -/
structure SameRows (s t : CurrentState) : Prop where
  items : t.items = s.items
  projects : t.projects = s.projects
  dependencies : t.dependencies = s.dependencies
  drawn : t.drawn = s.drawn

theorem SameRows.refl (s : CurrentState) : s.SameRows s := ⟨rfl, rfl, rfl, rfl⟩

theorem SameRows.trans {u : CurrentState} (h : s.SameRows t) (h' : t.SameRows u) :
    s.SameRows u where
  items := h'.items.trans h.items
  projects := h'.projects.trans h.projects
  dependencies := h'.dependencies.trans h.dependencies
  drawn := h'.drawn.trans h.drawn

theorem SameRows.view (h : s.SameRows t) {w : View} (hlink : t.view.link = w.link)
    (hchanges : t.view.changes = w.changes) (hheld : w.held = s.view.held)
    (hproject : w.isProject = s.view.isProject) (hblocks : w.blocks = s.view.blocks) :
    t.view = w := by
  refine View.ext ?_ ?_ hlink hchanges ?_
  · rw [hheld]
    funext a
    simp [CurrentState.view, h.items]
  · rw [hproject]
    funext a
    simp [CurrentState.view, h.projects]
  · rw [hblocks]
    funext a b
    simp [CurrentState.view, h.dependencies]

/-- A change of one link, and its event. -/
theorem advance_ok {row changed : SourceItemLink}
    (h : s.advance sourceRef row changed now = .ok t) :
    s.SameRows t ∧
      t.view.link = Function.update s.view.link sourceRef (some (row.next changed now)) ∧
      t.view.changes = Function.update s.view.changes sourceRef
        (s.view.changes sourceRef ++ [row.next changed now]) := by
  unfold advance at h
  split at h
  · cases h
  next links hlinks =>
  obtain rfl := Except.ok.inj h
  obtain ⟨found, hfound, -, rfl⟩ := Table.updateRow_eq_some.mp hlinks
  refine ⟨⟨rfl, rfl, rfl, rfl⟩, ?_, ?_⟩
  · funext source
    simp only [view, publish, Table.lookup_insert, Function.update_apply]
  · funext source
    simp only [view, publish, changesOf, List.filterMap_append, Function.update_apply]
    by_cases heq : source = sourceRef
    · subst heq
      simp [SourceItemLink.next]
    · have hne : sourceRef ≠ source := fun hsame => heq hsame.symm
      simp [heq, hne]

/-- A change of the one link of an item, as a change of links. -/
theorem advance_changeLinks {f : SourceItemLink → Option SourceItemLink}
    {row changed : SourceItemLink} (hone : s.view.OneLink)
    (hlink : s.links.lookup sourceRef = some row) (hf : f row = some (row.next changed now))
    (hother : ∀ l m, f l = some m → l.itemRef = row.itemRef)
    (h : s.advance sourceRef row changed now = .ok t) :
    t.view = s.view.changeLinks f ∧ s.SameRows t := by
  obtain ⟨hsame, hlinks, hchanges⟩ := advance_ok h
  have hrest : ∀ source k, source ≠ sourceRef → s.view.link source = some k → f k = none := by
    intro source k hne hk
    cases hfk : f k with
    | none => rfl
    | some m => exact absurd (hone source sourceRef k row hk hlink (hother k m hfk)) hne
  have hupdate := View.changeLinks_eq_update hlink hf hrest
  refine ⟨hsame.view ?_ ?_ rfl rfl rfl, hsame⟩
  · rw [hlinks, hupdate]
  · rw [hchanges, hupdate]

variable {itemRef : RecordRef}

theorem linkOfItem_ok (h : s.linkOfItem itemRef = some (sourceRef, link)) :
    s.links.lookup sourceRef = some link ∧ link.itemRef = itemRef := by
  obtain ⟨hlink, hitem⟩ := Table.findRow_eq_some h
  exact ⟨hlink, by simpa using hitem⟩

theorem linkOfItem_none (h : s.linkOfItem itemRef = none)
    (hlink : s.links.lookup sourceRef = some link) : link.itemRef ≠ itemRef := by
  simpa using Table.findRow_eq_none h hlink

/-- Every link besides the one that was read is of another item. -/
theorem itemRef_ne (hone : s.view.OneLink) {row : SourceItemLink}
    (hrow : s.links.lookup sourceRef = some row) {source : String} (hne : source ≠ sourceRef)
    (hlink : s.links.lookup source = some link) : link.itemRef ≠ row.itemRef :=
  fun heq => hne (hone source sourceRef link row hlink hrow heq)

/-- A call that changes the link of an item, where it does not skip it. -/
theorem ofItem_ok {p : SourceItemLink → Prop} [DecidablePred p]
    {changed : SourceItemLink → SourceItemLink} (hone : s.view.OneLink)
    (hnone : s.linkOfItem itemRef = none → s = t)
    (hsome : ∀ source row, s.linkOfItem itemRef = some (source, row) →
      (if p row then .ok s else s.advance source row (changed row) now) = .ok t) :
    t.view = s.view.changeLinks (fun l =>
      if l.itemRef = itemRef ∧ ¬ p l then some (l.next (changed l) now) else none) ∧
      s.SameRows t := by
  cases hread : s.linkOfItem itemRef with
  | none =>
    obtain rfl := hnone hread
    refine ⟨(View.changeLinks_eq_self fun source l hl => ?_).symm, .refl s⟩
    rw [if_neg fun hchanged => linkOfItem_none hread hl hchanged.1]
  | some found =>
    obtain ⟨source, row⟩ := found
    obtain ⟨hlink, hitem⟩ := linkOfItem_ok hread
    have h := hsome source row hread
    by_cases hskips : p row
    · rw [if_pos hskips] at h
      obtain rfl := Except.ok.inj h
      refine ⟨(View.changeLinks_eq_self fun other l hl => ?_).symm, .refl s⟩
      by_cases heq : other = source
      · subst heq
        obtain rfl : row = l := Option.some.inj (hlink.symm.trans hl)
        rw [if_neg fun hchanged => hchanged.2 hskips]
      · have hne := itemRef_ne hone hlink heq hl
        rw [hitem] at hne
        rw [if_neg fun hchanged => hne hchanged.1]
    · rw [if_neg hskips] at h
      refine advance_changeLinks hone hlink ?_ ?_ h
      · rw [if_pos ⟨hitem, hskips⟩]
      · intro l m hl
        rw [hitem]
        exact (Option.ite_none_right_eq_some.mp hl).1.1

/-- The project of an item is set on its link. -/
theorem itemProjectSet_ok {project : Option RecordRef} (hone : s.view.OneLink)
    (h : s.itemProjectSet itemRef project now = .ok t) :
    t.view = s.view.changeLinks (onProjectSet itemRef project now) ∧ s.SameRows t := by
  unfold itemProjectSet at h
  refine ofItem_ok hone (fun hnone => ?_) fun source row hfound => ?_
  · rw [hnone] at h
    exact Except.ok.inj h
  · rw [hfound] at h
    exact h

/-- The deletion of an item is marked on its link. -/
theorem itemDeleted_ok (hone : s.view.OneLink) (h : s.itemDeleted itemRef now = .ok t) :
    t.view = s.view.changeLinks (onItemDeleted itemRef now) ∧ s.SameRows t := by
  unfold itemDeleted at h
  refine ofItem_ok hone (fun hnone => ?_) fun source row hfound => ?_
  · rw [hnone] at h
    exact Except.ok.inj h
  · rw [hfound] at h
    exact h

variable {project : RecordRef}

/-- The links that were read are moved to history one after another, each with its event. -/
theorem projectDeleted_ok {rows : List (String × SourceItemLink)}
    (hnodup : (rows.map Prod.fst).Nodup) (h : s.projectDeleted project rows now = .ok t) :
    s.SameRows t ∧ ∀ source,
      t.view.link source = ((rows.lookup source).map fun row =>
        row.next (row.withoutProject project) now).or (s.view.link source) ∧
      t.view.changes source = s.view.changes source ++ ((rows.lookup source).map fun row =>
        row.next (row.withoutProject project) now).toList := by
  induction rows generalizing s with
  | nil =>
    obtain rfl := Except.ok.inj h
    exact ⟨.refl s, fun source => by simp⟩
  | cons e rows ih =>
    obtain ⟨key, row⟩ := e
    obtain ⟨hnew, hrest⟩ := List.nodup_cons.mp hnodup
    rw [projectDeleted, List.foldlM_cons] at h
    cases hstep : s.advance key row (row.withoutProject project) now with
    | error refusal =>
      rw [hstep] at h
      cases h
    | ok r =>
      rw [hstep] at h
      obtain ⟨hsame, hlink, hchanges⟩ := advance_ok hstep
      obtain ⟨hlater, hall⟩ := ih hrest h
      refine ⟨hsame.trans hlater, fun source => ?_⟩
      obtain ⟨hlinkLater, hchangesLater⟩ := hall source
      rw [hlinkLater, hchangesLater, hlink, hchanges]
      by_cases heq : source = key
      · subst heq
        have hnone : rows.lookup source = none := by
          rw [List.lookup_eq_none_iff]
          intro other hmem
          have hne : source ≠ other.1 := fun hsource =>
            hnew (List.mem_map.mpr ⟨other, hmem, hsource.symm⟩)
          simpa using hne
        simp [hnone]
      · have hne : (source == key) = false := by simpa using heq
        simp [List.lookup_cons, hne, heq]

theorem mem_linksOfProject : (sourceRef, link) ∈ s.linksOfProject project ↔
      s.links.lookup sourceRef = some link ∧ link.projectRef = some project := by
  have hentry : (∃ e ∈ s.links.entries, (e.1, e.2) = (sourceRef, link)) ↔
      s.links.lookup sourceRef = some link := by
    constructor
    · rintro ⟨⟨k, l⟩, hmem, heq⟩
      obtain ⟨rfl, rfl⟩ := Prod.mk.inj heq
      exact AList.mem_lookup_iff.mpr hmem
    · intro hlookup
      exact ⟨⟨sourceRef, link⟩, AList.mem_lookup_iff.mp hlookup, rfl⟩
  rw [linksOfProject, (sortedBy_perm _ _).mem_iff, List.mem_filter, List.mem_map, hentry]
  simp

theorem nodup_linksOfProject (s : CurrentState) (project : RecordRef) :
    ((s.linksOfProject project).map Prod.fst).Nodup := by
  have hkeys : ((s.links.entries.map fun e => (e.1, e.2)).map Prod.fst).Nodup := by
    have hnodup := s.links.keys_nodup
    rw [List.map_map]
    exact hnodup
  have hperm := (sortedBy_perm Prod.fst ((s.links.entries.map fun e => (e.1, e.2)).filter
    fun e => e.2.projectRef = some project)).map Prod.fst
  exact hperm.nodup_iff.mpr (hkeys.sublist (List.filter_sublist.map Prod.fst))

/-- The deletion of a project is marked on every link that holds it. -/
theorem projectDeleted_links (h : s.projectDeleted project (s.linksOfProject project) now = .ok t) :
    t.view = s.view.changeLinks (onProjectDeleted project now) ∧ s.SameRows t := by
  obtain ⟨hsame, hall⟩ := projectDeleted_ok (s.nodup_linksOfProject project) h
  have hrow (source : String) : ((s.linksOfProject project).lookup source).map
      (fun row => row.next (row.withoutProject project) now) =
        (s.view.link source).bind (onProjectDeleted project now) := by
    cases hlookup : (s.linksOfProject project).lookup source with
    | none =>
      cases hlink : s.view.link source with
      | none => rfl
      | some l =>
        have hne : l.projectRef ≠ some project := by
          intro hproject
          have hmem := mem_linksOfProject.mpr ⟨hlink, hproject⟩
          have hkey := List.lookup_eq_none_iff.mp hlookup _ hmem
          simp at hkey
        simp [onProjectDeleted, hne]
    | some l =>
      obtain ⟨hlink, hproject⟩ := mem_linksOfProject.mp (Table.mem_of_rowOf hlookup)
      have hview : s.view.link source = some l := hlink
      simp [hview, onProjectDeleted, hproject]
  refine ⟨hsame.view ?_ ?_ rfl rfl rfl, hsame⟩
  · funext source
    rw [(hall source).1, hrow]
    cases hlink : s.view.link source with
    | none => simp [View.changeLinks, hlink]
    | some l => cases hl : onProjectDeleted project now l <;> simp [View.changeLinks, hlink, hl]
  · funext source
    rw [(hall source).2, hrow]
    rfl

/-- The first row of a link, which no link has for its item. -/
theorem insertLink_ok {project : Option RecordRef}
    (h : s.insertLink sourceRef itemRef project now = .ok t) :
    t.view = s.view.addLink sourceRef ⟨itemRef, 1, .available, project, none,
      if project.isNone then .neverAssigned else .linked, now⟩ ∧ t.drawn = s.drawn := by
  unfold insertLink at h
  by_cases htaken : (s.links.existsRow fun _ l => l.itemRef = itemRef) = true
  · rw [if_pos htaken] at h
    cases h
  rw [if_neg htaken] at h
  obtain rfl := Except.ok.inj h
  refine ⟨View.ext rfl rfl ?_ rfl rfl, rfl⟩
  funext source
  simp only [view, View.addLink, Table.lookup_insert, Function.update_apply]

theorem createExternal_ok {m : ExternalItemCreate} {r : RecordRef} (hs : s.Sound)
    (hfresh : id ∉ s.drawn) (h : s.createExternal m id now = .ok (t, r)) : s.Moves t := by
  unfold createExternal at h
  split at h
  · split_ifs at h
    obtain ⟨rfl, -⟩ := Prod.mk.inj (Except.ok.inj h)
    exact .refl hs
  next hlink =>
  have hfree : s.view.link m.sourceRef = none := hlink
  split at h
  · next existing row hholder =>
    -- An item of a handoff always has its link, so this branch is never taken.
    obtain ⟨hrow, hsource⟩ := itemOfSource_ok hholder
    have hheld := held_eq hrow
    rw [hsource] at hheld
    obtain ⟨l, hl, -⟩ := hs.linked existing m.sourceRef row.projectId hheld
    rw [hfree] at hl
    cases hl
  · split at h
    · cases h
    split at h
    · cases h
    next made hinsert =>
    obtain ⟨rfl, -⟩ := Prod.mk.inj (Except.ok.inj h)
    obtain ⟨hview, hdrawn⟩ := insertLink_ok hinsert
    rw [view_setItem] at hview
    have hsound := hs.addExternal (n := now) hfresh hfree
    constructor
    · rw [Sound, view_publish_item, hview]
      have hmade : made.drawn = insert id s.drawn := hdrawn
      change View.Sound _ made.drawn
      rw [hmade]
      exact hsound
    · rw [view_publish_item, hview]
      exact .first m.sourceRef _ hfree rfl rfl rfl

theorem repeated_same (row : Item) (priority : Priority) (now : ℕ) :
    (repeated row priority now).1.source = row.source ∧
      (repeated row priority now).1.projectId = row.projectId := by
  unfold repeated
  cases row.status <;> exact ⟨rfl, rfl⟩

/-- A repeat of a signal keeps the source and the project of its item. -/
theorem repeatSignal_ok (m : ItemCreate) (commentId : Uuid) (now : ℕ)
    (hrow : s.items.lookup id = some row) :
    (s.repeatSignal id row m commentId now).1.view = s.view ∧
      s.drawn ⊆ (s.repeatSignal id row m commentId now).1.drawn := by
  obtain ⟨hsource, hproject⟩ := repeated_same row m.priority now
  have hitems : (s.addSignal id m.fingerprint now).items = s.items := by
    cases m.fingerprint <;> rfl
  have hset : ((s.addSignal id m.fingerprint now).setItem id
      (repeated row m.priority now).1).view = s.view := by
    rw [view_setItem_same (by rw [hitems]; exact hrow) hsource hproject, view_addSignal]
  have hdrawn : s.drawn ⊆ insert commentId (s.addSignal id m.fingerprint now).drawn := by
    rw [drawn_addSignal]
    exact Finset.subset_insert _ _
  unfold repeatSignal
  by_cases hseen : (m.fingerprint.any fun text => (s.signals.lookup (id, text)).isSome) = true
  · rw [if_pos hseen]
    exact ⟨view_setItem_same hrow rfl rfl, Finset.Subset.refl _⟩
  · rw [if_neg hseen]
    dsimp only
    split_ifs
    · rw [view_publish_item]
      exact ⟨hset, hdrawn⟩
    · exact ⟨hset, hdrawn⟩

theorem insertItem_ok {m : ItemCreate} {action : CreateAction} {made : Uuid} (hs : s.Sound)
    (hfresh : id ∉ s.drawn) (hvalid : m.isValid = true)
    (hfree : ∀ pair, m.source = some pair → s.itemOfSource pair = none)
    (h : s.insertItem m id now = .ok (t, action, made)) : s.Moves t := by
  unfold insertItem at h
  split at h
  · cases h
  split_ifs at h with hproject
  obtain ⟨rfl, -⟩ := Prod.mk.inj (Except.ok.inj h)
  have hview : ((((s.draw id).setItem id (createdItem m now)).addSignal id m.fingerprint
      now).publish (.item .created (ref "item" id) 1)).view =
        s.view.setHeld id (some (m.source, m.projectRef)) := by
    rw [view_publish_item, view_addSignal, view_setItem]
    rfl
  have hdrawn : ((((s.draw id).setItem id (createdItem m now)).addSignal id m.fingerprint
      now).publish (.item .created (ref "item" id) 1)).drawn = insert id s.drawn := by
    rw [publish, drawn_addSignal]
    rfl
  have hordinary : ∀ sourceRef, m.source ≠ some (handoffSource sourceRef) := by
    intro sourceRef hsource
    simp [ItemCreate.isValid, hsource, handoffSource] at hvalid
  constructor
  · rw [Sound, hview, hdrawn]
    refine hs.addItem hfresh hordinary ?_ ?_
    · intro a pair p hsource
      exact not_held_of_itemOfSource (hfree pair hsource) a p
    · intro p hp
      have hthere := hproject
      rw [hasProject, hp] at hthere
      exact hthere
  · rw [hview]
    exact .none rfl rfl

theorem create_ok {m : ItemCreate} {commentId made : Uuid} {action : CreateAction} (hs : s.Sound)
    (hfresh : id ∉ s.drawn) (h : s.create m id commentId now = .ok (t, action, made)) :
    s.Moves t := by
  unfold create at h
  split_ifs at h with hvalid
  split at h
  · next existing row hholder =>
    obtain ⟨pair, -, hfound⟩ := Option.bind_eq_some_iff.mp hholder
    obtain ⟨hrow, -⟩ := itemOfSource_ok hfound
    obtain ⟨rfl, -⟩ := Prod.mk.inj (Except.ok.inj h)
    obtain ⟨hview, hdrawn⟩ := repeatSignal_ok m commentId now hrow
    exact .of_view hs hview hdrawn
  · next hnone =>
    refine insertItem_ok hs hfresh hvalid ?_ h
    intro pair hsource
    rw [hsource] at hnone
    exact hnone

/-- The project that an update writes is there. -/
theorem project_of_write {m : ItemUpdate} (hs : s.Sound) (hrow : s.items.lookup id = some row)
    (hproject : s.hasProject m.projectRef = true) :
    ∀ p, (m.write row now).projectId = some p → s.view.isProject p = true := by
  intro p hp
  simp only [ItemUpdate.write, ItemUpdate.cleared] at hp
  split_ifs at hp
  cases hset : m.projectRef with
  | none =>
    rw [hset] at hp
    exact hs.projectThere id row.source p (by rw [held_eq hrow, ← hp]; rfl)
  | some q =>
    rw [hset] at hp
    obtain rfl : q = p := Option.some.inj hp
    rw [hasProject, hset] at hproject
    exact hproject

theorem edit_ok {m : ItemUpdate} (hs : s.Sound) (h : s.edit id revision m now = .ok t) :
    s.Moves t := by
  unfold edit at h
  by_cases hvalid : m.isValid = true
  case neg =>
    rw [if_neg hvalid] at h
    cases h
  rw [if_pos hvalid] at h
  split at h
  · cases h
  next row hchecked =>
  have hrow := checkedItem_ok hchecked
  by_cases hproject : s.hasProject m.projectRef = true
  case neg =>
    rw [if_neg hproject] at h
    cases h
  rw [if_pos hproject] at h
  split at h
  · cases h
  by_cases hset : (m.projectRef.isSome || m.clear.contains .projectRef) = true
  · -- The project is among the changes, so the row is written and its link follows.
    have hchanges : m.hasChanges = true := by
      rw [Bool.or_eq_true] at hset
      obtain hsome | hcleared := hset
      · simp [ItemUpdate.hasChanges, hsome]
      · have hne : m.clear ≠ [] := by
          intro hnil
          simp [hnil] at hcleared
        simp [ItemUpdate.hasChanges, hne]
    have hwritten : (m.write row now).projectId = m.cleared .projectRef m.projectRef none := by
      rw [Bool.or_eq_true] at hset
      simp only [ItemUpdate.write, ItemUpdate.cleared]
      split_ifs with hmem
      · rfl
      · obtain hsome | hcleared := hset
        · obtain ⟨p, hp⟩ := Option.isSome_iff_exists.mp hsome
          simp [hp]
        · exact absurd (List.contains_iff_mem.mp hcleared) hmem
    dsimp only at h
    rw [if_pos hset, if_pos hchanges, ← hwritten] at h
    have hview : (s.setItem id (m.write row now)).view =
        s.view.setHeld id (some (row.source, (m.write row now).projectId)) := view_setItem ..
    have hone : (s.setItem id (m.write row now)).view.OneLink := by
      rw [hview]
      exact hs.oneLink
    obtain ⟨hchanged, hsame⟩ := itemProjectSet_ok hone h
    rw [hview] at hchanged
    have hdrawn : t.drawn = s.drawn := hsame.drawn
    constructor
    · rw [Sound, hchanged, hdrawn]
      exact hs.assign (held_eq hrow) (project_of_write hs hrow hproject) now
    · rw [hchanged]
      exact .some _ (raises_onProjectSet _ _ _) rfl rfl
  · have hkept : (m.write row now).projectId = row.projectId := by
      rw [Bool.or_eq_true, not_or] at hset
      have hnone : m.projectRef = none := by simpa using hset.1
      have hmem : ItemField.projectRef ∉ m.clear := by simpa using hset.2
      simp [ItemUpdate.write, ItemUpdate.cleared, hnone, hmem]
    dsimp only at h
    rw [if_neg hset] at h
    obtain rfl := Except.ok.inj h
    split_ifs
    · exact .of_view hs (view_setItem_same hrow rfl hkept) (Finset.Subset.refl _)
    · exact .refl hs

theorem setStatus_ok {status : Status} {snoozedUntil : Option ℕ} (hs : s.Sound)
    (h : s.setStatus id revision status snoozedUntil now = .ok t) : s.Moves t := by
  unfold setStatus at h
  split at h
  · cases h
  next row hchecked =>
  have hview : (s.setItem id (withStatus row status snoozedUntil now)).view = s.view :=
    view_setItem_same (checkedItem_ok hchecked) rfl rfl
  split_ifs at h
  · obtain rfl := Except.ok.inj h
    exact .refl hs
  · obtain rfl := Except.ok.inj h
    refine .of_view hs ?_ (Finset.Subset.refl _)
    rw [view_publish_item, hview]
  · obtain rfl := Except.ok.inj h
    refine .of_view hs ?_ (Finset.Subset.refl _)
    rw [view_publish_item, hview]
  · obtain rfl := Except.ok.inj h
    exact .of_view hs hview (Finset.Subset.refl _)

theorem closeBySource_ok (hs : s.Sound) (pair : String × String) (actor : String)
    (note : Option String) (commentId : Uuid) (now : ℕ) :
    s.Moves (s.closeBySource pair actor note commentId now).1 := by
  unfold closeBySource
  split
  · exact .refl hs
  next id row hholder =>
  obtain ⟨hrow, -⟩ := itemOfSource_ok hholder
  split_ifs
  · exact .of_view hs rfl (Finset.Subset.refl _)
  · refine .of_view hs ?_ (Finset.subset_insert _ _)
    rw [view_publish_item]
    exact view_setItem_same hrow rfl rfl

theorem comment_ok {body : String} {commentId : Uuid} (hs : s.Sound)
    (h : s.comment id body commentId now = .ok t) : s.Moves t := by
  unfold comment at h
  split at h
  · cases h
  next row hrow =>
  obtain rfl := Except.ok.inj h
  refine .of_view hs ?_ (Finset.subset_insert _ _)
  have hadded : (s.addComment commentId id .comment body now).items.lookup id = some row := hrow
  refine (view_setItem_same hadded ?_ ?_).trans ?_ <;> rfl

theorem mem_blockers {a b : Uuid} : b ∈ s.blockers a ↔ s.view.blocks a b := by
  simp only [blockers, List.mem_map, List.mem_filter, decide_eq_true_eq, view]
  rw [AList.lookup_isSome, AList.mem_keys]
  constructor
  · rintro ⟨⟨x, y⟩, ⟨hmem, rfl⟩, rfl⟩
    exact hmem
  · intro hmem
    exact ⟨(a, b), ⟨hmem, rfl⟩, rfl⟩

/-- The search finds what an item waits on, directly or through others. -/
theorem reaches_iff {a b : Uuid} :
    s.reaches a b = true ↔ Relation.TransGen s.view.blocks a b := by
  let nodes : Finset Uuid := (s.dependencies.keys.map Prod.snd).toFinset
  have hnodes : ∀ x y, y ∈ s.blockers x → y ∈ nodes := by
    intro x y hy
    obtain ⟨k, hk, rfl⟩ := List.mem_map.mp hy
    exact List.mem_toFinset.mpr (List.mem_map_of_mem (List.mem_of_mem_filter hk))
  have hcard : nodes.card ≤ s.dependencies.keys.length := by
    have hle := List.toFinset_card_le (s.dependencies.keys.map Prod.snd)
    rwa [List.length_map] at hle
  have hrel : (fun x y => y ∈ s.blockers x) = s.view.blocks := by
    funext x y
    exact propext mem_blockers
  rw [reaches, List.contains_iff_mem, Search.mem_closure_iff hnodes hcard, hrel]

theorem addDependency_ok {blocked blocker : Uuid} (hs : s.Sound)
    (h : s.addDependency blocked blocker now = .ok t) : s.Moves t := by
  unfold addDependency at h
  split_ifs at h with hself hblocked hblocker hthere hback
  · obtain rfl := Except.ok.inj h
    exact .refl hs
  · obtain rfl := Except.ok.inj h
    have hview : ({ s with dependencies := s.dependencies.insert (blocked, blocker) now } :
        CurrentState).view = { s.view with
          blocks := fun a b => s.view.blocks a b ∨ (a = blocked ∧ b = blocker) } := by
      refine View.ext rfl rfl rfl rfl ?_
      funext a b
      simp only [view, Table.lookup_insert, Prod.mk.injEq, eq_iff_iff]
      split_ifs with heq
      · simp [heq]
      · simp [heq]
    have hpath : ¬ Relation.ReflTransGen s.view.blocks blocker blocked := by
      intro hpath
      obtain heq | htrans := Relation.reflTransGen_iff_eq_or_transGen.mp hpath
      · exact hself heq
      · exact hback (reaches_iff.mpr htrans)
    constructor
    · rw [Sound, hview]
      refine hs.addBlock ?_ ?_ hpath
      · rw [ne_eq, held_eq_none]
        simpa using hblocked
      · rw [ne_eq, held_eq_none]
        simpa using hblocker
    · rw [hview]
      exact .none rfl rfl

theorem removeDependency_ok {blocked blocker : Uuid} (hs : s.Sound)
    (h : s.removeDependency blocked blocker = .ok t) : s.Moves t := by
  unfold removeDependency at h
  split_ifs at h
  obtain rfl := Except.ok.inj h
  constructor
  · refine hs.fewerBlocks fun a b hab => ?_
    obtain ⟨time, htime⟩ := Option.isSome_iff_exists.mp hab
    have hold := (Table.lookup_erase_eq_some.mp htime).2
    exact Option.isSome_iff_exists.mpr ⟨time, hold⟩
  · exact .none rfl rfl

/-- More projects keep the view sound. -/
theorem Moves.of_projects (hs : s.Sound) {projects : Table Uuid Project} {drawn : Finset Uuid}
    (hmore : ∀ p, (s.projects.lookup p).isSome = true → (projects.lookup p).isSome = true)
    (hdrawn : s.drawn ⊆ drawn) : s.Moves { s with projects := projects, drawn := drawn } :=
  ⟨(hs.addProject hmore).mono hdrawn, .none rfl rfl⟩

theorem isSome_insert {id : Uuid} {row : Project} {p : Uuid}
    (h : (s.projects.lookup p).isSome = true) :
    ((s.projects.insert id row).lookup p).isSome = true := by
  rw [Table.lookup_insert]
  split_ifs
  · rfl
  · exact h

theorem createProject_ok {m : ProjectCreate} (hs : s.Sound)
    (h : s.createProject m id now = .ok t) : s.Moves t := by
  unfold createProject at h
  split at h
  · cases h
  obtain rfl := Except.ok.inj h
  exact .of_projects hs (fun p hp => isSome_insert hp) (Finset.subset_insert _ _)

theorem editProject_ok {m : ProjectUpdate} (hs : s.Sound)
    (h : s.editProject id revision m now = .ok t) : s.Moves t := by
  unfold editProject at h
  by_cases hvalid : m.isValid = true
  case neg =>
    rw [if_neg hvalid] at h
    cases h
  rw [if_pos hvalid] at h
  split at h
  · cases h
  next row hrow =>
  by_cases hstale : row.revision ≠ revision
  · rw [if_pos hstale] at h
    cases h
  rw [if_neg hstale] at h
  split at h
  · cases h
  split_ifs at h
  · obtain rfl := Except.ok.inj h
    exact .of_projects hs (fun p hp => isSome_insert hp) (Finset.Subset.refl _)
  · obtain rfl := Except.ok.inj h
    exact .refl hs

theorem createArea_ok {key label : String} (hs : s.Sound)
    (h : s.createArea key label now = .ok t) : s.Moves t := by
  unfold createArea at h
  split_ifs at h
  obtain rfl := Except.ok.inj h
  exact .of_view hs rfl (Finset.Subset.refl _)

theorem editArea_ok {key : String} {label : Option String} {retired : Option Bool} (hs : s.Sound)
    (h : s.editArea key label retired now = .ok t) : s.Moves t := by
  unfold editArea at h
  split at h
  · cases h
  dsimp only at h
  split_ifs at h
  all_goals
    obtain rfl := Except.ok.inj h
    exact .of_view hs rfl (Finset.Subset.refl _)

theorem deleteItem_ok (hs : s.Sound) (h : s.deleteItem id revision now = .ok t) : s.Moves t := by
  unfold deleteItem at h
  split at h
  · cases h
  split_ifs at h
  split at h
  · cases h
  next marked hmarked =>
  obtain rfl := Except.ok.inj h
  have hdropped : (s.dropChildren id).view = s.view.unblock id := by
    refine View.ext rfl rfl rfl rfl ?_
    funext a b
    simp only [view, dropChildren, View.unblock, Table.isSome_deleteWhere, eq_iff_iff]
    simp
  obtain ⟨hchanged, hsame⟩ := itemDeleted_ok (by rw [hdropped]; exact hs.oneLink) hmarked
  rw [hdropped] at hchanged
  have hview : ({ marked with items := marked.items.erase id } : CurrentState).view =
      ((s.view.unblock id).setHeld id none).changeLinks (onItemDeleted (ref "item" id) now) := by
    have hlink := congrArg View.link hchanged
    have hchanges := congrArg View.changes hchanged
    have hblocks := congrArg View.blocks hchanged
    refine View.ext ?_ ?_ hlink hchanges hblocks
    · funext a
      have hitems : marked.items = s.items := hsame.items
      by_cases heq : a = id
      · subst heq
        simp [view, View.changeLinks, View.setHeld]
      · have hrow := AList.lookup_erase_ne (s := s.items) heq
        simp [view, View.changeLinks, View.setHeld, View.unblock, hitems, hrow, heq]
    · funext a
      exact congrFun (congrArg View.isProject hchanged) a
  have hdrawn : marked.drawn = s.drawn := hsame.drawn
  constructor
  · rw [Sound, hview]
    change View.Sound _ marked.drawn
    rw [hdrawn]
    exact hs.removeItem id now
  · rw [hview]
    exact .some _ (raises_onItemDeleted _ _) rfl rfl

theorem deleteProject_ok (hs : s.Sound) (h : s.deleteProject id revision now = .ok t) :
    s.Moves t := by
  unfold deleteProject at h
  split at h
  · cases h
  split_ifs at h
  split at h
  · cases h
  next marked hmarked =>
  obtain rfl := Except.ok.inj h
  obtain ⟨hchanged, hsame⟩ := projectDeleted_links hmarked
  have hview : ({ marked with projects := marked.projects.erase id } : CurrentState).view =
      (s.view.dropProject id).changeLinks (onProjectDeleted (ref "project" id) now) := by
    have hlink := congrArg View.link hchanged
    have hchanges := congrArg View.changes hchanged
    have hblocks := congrArg View.blocks hchanged
    refine View.ext ?_ ?_ hlink hchanges hblocks
    · funext a
      have hitems : marked.items = (s.detachItems id now).items := hsame.items
      simp only [view, View.changeLinks, View.dropProject, hitems, detachItems,
        Table.lookup_updateAll, Option.map_map]
      congr 1
      funext row
      simp only [Function.comp_apply]
      split_ifs with hheld
      · rfl
      · rfl
    · funext a
      have hprojects : marked.projects = s.projects := hsame.projects
      by_cases heq : a = id
      · subst heq
        simp [view, View.changeLinks, View.dropProject]
      · have hrow := AList.lookup_erase_ne (s := s.projects) heq
        simp [view, View.changeLinks, View.dropProject, hprojects, hrow, heq]
  have hdrawn : marked.drawn = s.drawn := hsame.drawn
  constructor
  · rw [Sound, hview]
    change View.Sound _ marked.drawn
    rw [hdrawn]
    exact hs.removeProject id now
  · rw [hview]
    exact .some _ (raises_onProjectDeleted _ _) rfl rfl

end CurrentState

end Rheostream.Current
