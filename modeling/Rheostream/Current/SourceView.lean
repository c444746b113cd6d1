import Rheostream.Current.Items

/-!
# What the source links are about

The items, the projects, the links and the dependencies of Current without the rest of their
rows: what a link mirrors, and what its events tell. A call changes this view in one of a few
ways, and each of them keeps it sound.
-/

namespace Rheostream.Current

/-- The source and the project of each item, the projects that there are, the link of each
source with the changes that were published for it, and what blocks what. -/
@[ext] structure View where
  held : Uuid → Option (Option (String × String) × Option Uuid)
  isProject : Uuid → Bool
  link : String → Option SourceItemLink
  changes : String → List SourceItemLink
  blocks : Uuid → Uuid → Prop

/-- The shape that the checks of the table demand of a link. -/
structure SourceItemLink.Shaped (l : SourceItemLink) : Prop where
  live : l.projectState = .linked ↔ l.projectRef.isSome = true
  history : l.projectState = .cleared ∨ l.projectState = .deleted →
    l.lastProjectRef.isSome = true
  never : l.projectState = .neverAssigned → l.lastProjectRef = none

/-- The link mirrors its item: it has the item's source and project while the item is there. -/
def View.Mirrors (v : View) (sourceRef : String) (l : SourceItemLink) (id : Uuid) : Prop :=
  (l.itemState = .available ∧ ∃ p, v.held id = some (some (handoffSource sourceRef), p) ∧
    l.projectRef = p.map (ref "project")) ∨ (l.itemState = .deleted ∧ v.held id = none)

/-- What the changes of a source tell of its link: one change for every revision after the
first, in order, and the last of them as the link is. -/
structure Tells (changes : List SourceItemLink) (l : SourceItemLink) : Prop where
  revision_pos : 1 ≤ l.revision
  revisions : changes.map SourceItemLink.revision = List.range' 2 (l.revision - 1)
  last : 1 < l.revision → changes.getLast? = some l

namespace View

/-- No two links are of the same item. -/
def OneLink (v : View) : Prop :=
  ∀ a b l m, v.link a = some l → v.link b = some m → l.itemRef = m.itemRef → a = b

/-- What holds of the view in every run. -/
structure Sound (v : View) (drawn : Finset Uuid) : Prop where
  oneHolder : ∀ a b pair p q, v.held a = some (some pair, p) → v.held b = some (some pair, q) →
    a = b
  heldDrawn : ∀ id, v.held id ≠ none → id ∈ drawn
  projectThere : ∀ id source p, v.held id = some (source, some p) → v.isProject p = true
  linked : ∀ id sourceRef p, v.held id = some (some (handoffSource sourceRef), p) →
    ∃ l, v.link sourceRef = some l ∧ l.itemRef = ref "item" id
  mirrors : ∀ sourceRef l, v.link sourceRef = some l →
    ∃ id ∈ drawn, l.itemRef = ref "item" id ∧ v.Mirrors sourceRef l id
  oneLink : v.OneLink
  liveProject : ∀ sourceRef l r, v.link sourceRef = some l → l.projectRef = some r →
    ∃ p, r = ref "project" p ∧ v.isProject p = true
  shaped : ∀ sourceRef l, v.link sourceRef = some l → l.Shaped
  untold : ∀ sourceRef, v.link sourceRef = none → v.changes sourceRef = []
  told : ∀ sourceRef l, v.link sourceRef = some l → Tells (v.changes sourceRef) l
  blocksHeld : ∀ a b, v.blocks a b → v.held a ≠ none ∧ v.held b ≠ none
  acyclic : ∀ a, ¬ Relation.TransGen v.blocks a a

/-- The view with an item set or removed. -/
def setHeld (v : View) (id : Uuid) (value : Option (Option (String × String) × Option Uuid)) :
    View :=
  { v with held := Function.update v.held id value }

/-- The view with a first link. -/
def addLink (v : View) (sourceRef : String) (l : SourceItemLink) : View :=
  { v with link := Function.update v.link sourceRef (some l) }

/-- The view with some links changed, each with its event. -/
def changeLinks (v : View) (f : SourceItemLink → Option SourceItemLink) : View :=
  { v with
    link := fun sourceRef => (v.link sourceRef).map fun l => (f l).getD l
    changes := fun sourceRef => v.changes sourceRef ++ ((v.link sourceRef).bind f).toList }

/-- The view without the dependencies of an item. -/
def unblock (v : View) (id : Uuid) : View :=
  { v with blocks := fun a b => v.blocks a b ∧ a ≠ id ∧ b ≠ id }

/-- The view without a project: its items have none. -/
def dropProject (v : View) (project : Uuid) : View :=
  { v with
    held := fun id => (v.held id).map fun x => (x.1, if x.2 = some project then none else x.2)
    isProject := Function.update v.isProject project false }

end View

/-- What setting the project of an item changes of a link. -/
def onProjectSet (itemRef : RecordRef) (project : Option RecordRef) (now : ℕ)
    (l : SourceItemLink) : Option SourceItemLink :=
  if l.itemRef = itemRef ∧ project ≠ l.projectRef then some (l.next (l.withProject project) now)
  else none

/-- What deleting an item changes of a link. -/
def onItemDeleted (itemRef : RecordRef) (now : ℕ) (l : SourceItemLink) : Option SourceItemLink :=
  if l.itemRef = itemRef ∧ l.itemState ≠ .deleted then
    some (l.next { l with itemState := .deleted } now)
  else none

/-- What deleting a project changes of a link. -/
def onProjectDeleted (project : RecordRef) (now : ℕ) (l : SourceItemLink) :
    Option SourceItemLink :=
  if l.projectRef = some project then some (l.next (l.withoutProject project) now) else none

/-- A change of links that raises the revision by one, keeps the item and the shape, and does
not bring a deleted item back. -/
structure Raises (f : SourceItemLink → Option SourceItemLink) : Prop where
  revision : ∀ l m, f l = some m → m.revision = l.revision + 1
  itemRef : ∀ l m, f l = some m → m.itemRef = l.itemRef
  deleted : ∀ l m, f l = some m → l.itemState = .deleted → m.itemState = .deleted
  shaped : ∀ l m, l.Shaped → f l = some m → m.Shaped

/-- What a call makes of the links: nothing, the first row of one source, or a change of some
links. -/
inductive Change (v w : View) : Prop where
  | none (link : w.link = v.link) (changes : w.changes = v.changes)
  | first (sourceRef : String) (l : SourceItemLink) (free : v.link sourceRef = .none)
      (revision : l.revision = 1) (link : w.link = Function.update v.link sourceRef (some l))
      (changes : w.changes = v.changes)
  | some (f : SourceItemLink → Option SourceItemLink) (raises : Raises f)
      (link : w.link = (v.changeLinks f).link) (changes : w.changes = (v.changeLinks f).changes)

theorem ref_inj {recordType : String} {a b : Uuid} :
    ref recordType a = ref recordType b ↔ a = b := by
  simp [ref]

theorem withProject_projectRef (l : SourceItemLink) (project : Option RecordRef) :
    (l.withProject project).projectRef = project := by
  cases project <;> rfl

/-- Links that a condition picks, each with its next revision. -/
theorem raises_next {p : SourceItemLink → Prop} [DecidablePred p]
    {f : SourceItemLink → SourceItemLink} {now : ℕ} (hitem : ∀ l, (f l).itemRef = l.itemRef)
    (hdeleted : ∀ l, l.itemState = .deleted → (f l).itemState = .deleted)
    (hshaped : ∀ l : SourceItemLink, l.Shaped → p l → (l.next (f l) now).Shaped) :
    Raises fun l => if p l then some (l.next (f l) now) else none := by
  have hpicked (l m : SourceItemLink)
      (h : (if p l then some (l.next (f l) now) else none) = some m) : p l ∧ l.next (f l) now = m :=
    ⟨(Option.ite_none_right_eq_some.mp h).1,
      Option.some.inj (Option.ite_none_right_eq_some.mp h).2⟩
  constructor
  · intro l m h
    obtain ⟨-, rfl⟩ := hpicked l m h
    rfl
  · intro l m h
    obtain ⟨-, rfl⟩ := hpicked l m h
    exact hitem l
  · intro l m h hl
    obtain ⟨-, rfl⟩ := hpicked l m h
    exact hdeleted l hl
  · intro l m hl h
    obtain ⟨hp, rfl⟩ := hpicked l m h
    exact hshaped l hl hp

theorem raises_onProjectSet (itemRef : RecordRef) (project : Option RecordRef) (now : ℕ) :
    Raises (onProjectSet itemRef project now) := by
  refine raises_next (fun l => ?_) (fun l hdeleted => ?_) fun l hshaped hpicked => ?_
  · cases project <;> rfl
  · cases project <;> exact hdeleted
  · cases project with
    | none =>
      have hlive : l.projectRef.isSome = true := by
        cases hproject : l.projectRef with
        | none => exact absurd hproject.symm hpicked.2
        | some r => rfl
      constructor <;> simp [SourceItemLink.next, SourceItemLink.withProject, hlive]
    | some r => constructor <;> simp [SourceItemLink.next, SourceItemLink.withProject]

theorem raises_onItemDeleted (itemRef : RecordRef) (now : ℕ) :
    Raises (onItemDeleted itemRef now) :=
  raises_next (fun _ => rfl) (fun _ _ => rfl) fun _ hshaped _ =>
    ⟨hshaped.live, hshaped.history, hshaped.never⟩

theorem raises_onProjectDeleted (project : RecordRef) (now : ℕ) :
    Raises (onProjectDeleted project now) := by
  refine raises_next (fun _ => rfl) (fun _ hdeleted => hdeleted) fun l hshaped _ => ?_
  constructor <;> simp [SourceItemLink.next, SourceItemLink.withoutProject]

/-- One more change, at the next revision, is told after the others. -/
theorem Tells.next {changes : List SourceItemLink} {l m : SourceItemLink} (h : Tells changes l)
    (hrevision : m.revision = l.revision + 1) : Tells (changes ++ [m]) m := by
  have hpos := h.revision_pos
  constructor
  · omega
  · have hlength : m.revision - 1 = l.revision - 1 + 1 := by omega
    have hlast : 2 + 1 * (l.revision - 1) = m.revision := by omega
    rw [List.map_append, h.revisions, hlength, List.range'_concat, hlast]
    rfl
  · intro _
    exact List.getLast?_concat

namespace View

variable {v : View} {drawn : Finset Uuid} {f : SourceItemLink → Option SourceItemLink}

/-- A link after a change of links comes from one before it. -/
theorem link_changeLinks {sourceRef : String} {m : SourceItemLink}
    (h : (v.changeLinks f).link sourceRef = some m) :
    ∃ l, v.link sourceRef = some l ∧ m = (f l).getD l := by
  obtain ⟨l, hl, heq⟩ := Option.map_eq_some_iff.mp h
  exact ⟨l, hl, heq.symm⟩

theorem held_setHeld (id a : Uuid) (x : Option (Option (String × String) × Option Uuid)) :
    (v.setHeld id x).held a = if a = id then x else v.held a :=
  Function.update_apply ..

theorem itemRef_getD (hf : Raises f) (l : SourceItemLink) : ((f l).getD l).itemRef = l.itemRef := by
  cases hl : f l with
  | none => rfl
  | some m => exact hf.itemRef l m hl

/-- A change that no link takes part in changes nothing. -/
theorem changeLinks_eq_self (h : ∀ sourceRef l, v.link sourceRef = some l → f l = none) :
    v.changeLinks f = v := by
  have hlink : (v.changeLinks f).link = v.link := by
    funext sourceRef
    cases hl : v.link sourceRef with
    | none => simp [changeLinks, hl]
    | some l => simp [changeLinks, hl, h sourceRef l hl]
  have hchanges : (v.changeLinks f).changes = v.changes := by
    funext sourceRef
    cases hl : v.link sourceRef with
    | none => simp [changeLinks, hl]
    | some l => simp [changeLinks, hl, h sourceRef l hl]
  exact View.ext rfl rfl hlink hchanges rfl

/-- A change that one link takes part in. -/
theorem changeLinks_eq_update {sourceRef : String} {l m : SourceItemLink}
    (hl : v.link sourceRef = some l) (hfl : f l = some m)
    (hother : ∀ source k, source ≠ sourceRef → v.link source = some k → f k = none) :
    v.changeLinks f = { v with
      link := Function.update v.link sourceRef (some m)
      changes := Function.update v.changes sourceRef (v.changes sourceRef ++ [m]) } := by
  refine View.ext rfl rfl ?_ ?_ rfl
  · funext source
    by_cases heq : source = sourceRef
    · subst heq
      simp [changeLinks, hl, hfl]
    · cases hk : v.link source with
      | none => simp [changeLinks, hk, heq]
      | some k => simp [changeLinks, hk, heq, hother source k heq hk]
  · funext source
    by_cases heq : source = sourceRef
    · subst heq
      simp [changeLinks, hl, hfl]
    · cases hk : v.link source with
      | none => simp [changeLinks, hk, heq]
      | some k => simp [changeLinks, hk, heq, hother source k heq hk]

namespace Sound

/-- More identifiers may be drawn. -/
theorem mono {more : Finset Uuid} (h : v.Sound drawn) (hsub : drawn ⊆ more) : v.Sound more :=
  { h with
    heldDrawn := fun id hid => hsub (h.heldDrawn id hid)
    mirrors := fun sourceRef l hl => by
      obtain ⟨id, hid, hrest⟩ := h.mirrors sourceRef l hl
      exact ⟨id, hsub hid, hrest⟩ }

/-- The links of a sound view are changed and told, and the changed links mirror the items as
they will be. -/
theorem change (h : v.Sound drawn) (hf : Raises f) {w : View} (hlink : w.link = v.link)
    (hchanges : w.changes = v.changes)
    (honeHolder : ∀ a b pair p q, w.held a = some (some pair, p) →
      w.held b = some (some pair, q) → a = b)
    (hproject : ∀ id source p, w.held id = some (source, some p) → w.isProject p = true)
    (hsource : ∀ id source p, w.held id = some (source, p) → ∃ q, v.held id = some (source, q))
    (hmirrors : ∀ sourceRef l id, v.link sourceRef = some l → l.itemRef = ref "item" id →
      v.Mirrors sourceRef l id → w.Mirrors sourceRef ((f l).getD l) id)
    (hlive : ∀ sourceRef l r, v.link sourceRef = some l → ((f l).getD l).projectRef = some r →
      ∃ p, r = ref "project" p ∧ w.isProject p = true)
    (hblocks : ∀ a b, w.blocks a b → v.blocks a b ∧ w.held a ≠ none ∧ w.held b ≠ none) :
    (w.changeLinks f).Sound drawn where
  oneHolder := honeHolder
  heldDrawn id hid := by
    obtain ⟨⟨source, p⟩, hp⟩ := Option.ne_none_iff_exists'.mp hid
    obtain ⟨q, hq⟩ := hsource id source p hp
    exact h.heldDrawn id (by simp [hq])
  projectThere := hproject
  linked id sourceRef p hheld := by
    obtain ⟨q, hq⟩ := hsource id _ p hheld
    obtain ⟨l, hl, hitem⟩ := h.linked id sourceRef q hq
    refine ⟨(f l).getD l, ?_, ?_⟩
    · simp [changeLinks, hlink, hl]
    · rw [itemRef_getD hf, hitem]
  mirrors sourceRef m hm := by
    obtain ⟨l, hl, rfl⟩ := link_changeLinks hm
    rw [hlink] at hl
    obtain ⟨id, hid, hitem, hmirror⟩ := h.mirrors sourceRef l hl
    refine ⟨id, hid, ?_, hmirrors sourceRef l id hl hitem hmirror⟩
    rw [itemRef_getD hf, hitem]
  oneLink a b m n hm hn heq := by
    obtain ⟨l, hl, rfl⟩ := link_changeLinks hm
    obtain ⟨k, hk, rfl⟩ := link_changeLinks hn
    rw [hlink] at hl hk
    rw [itemRef_getD hf, itemRef_getD hf] at heq
    exact h.oneLink a b l k hl hk heq
  liveProject sourceRef m r hm hr := by
    obtain ⟨l, hl, rfl⟩ := link_changeLinks hm
    rw [hlink] at hl
    exact hlive sourceRef l r hl hr
  shaped sourceRef m hm := by
    obtain ⟨l, hl, rfl⟩ := link_changeLinks hm
    rw [hlink] at hl
    have hshaped := h.shaped sourceRef l hl
    cases hfl : f l with
    | none => exact hshaped
    | some m => exact hf.shaped l m hshaped hfl
  untold sourceRef hnone := by
    have hlinkNone : w.link sourceRef = none := Option.map_eq_none_iff.mp hnone
    have htold := h.untold sourceRef (by rw [← hlink]; exact hlinkNone)
    simp [changeLinks, hlinkNone, hchanges, htold]
  told sourceRef m hm := by
    obtain ⟨l, hl, rfl⟩ := link_changeLinks hm
    have htold := h.told sourceRef l (by rw [← hlink]; exact hl)
    cases hfl : f l with
    | none => simpa [changeLinks, hl, hfl, hchanges] using htold
    | some m => simpa [changeLinks, hl, hfl, hchanges] using htold.next (hf.revision l m hfl)
  blocksHeld a b hab := (hblocks a b hab).2
  acyclic a hcycle :=
    h.acyclic a (Relation.TransGen.mono (fun a b hab => (hblocks a b hab).1) _ _ hcycle)

/-- A new item without a source of a handoff. -/
theorem addItem (h : v.Sound drawn) {id : Uuid} {source : Option (String × String)}
    {project : Option Uuid} (hid : id ∉ drawn)
    (hordinary : ∀ sourceRef, source ≠ some (handoffSource sourceRef))
    (hfree : ∀ a pair p, source = some pair → v.held a ≠ some (some pair, p))
    (hproject : ∀ p, project = some p → v.isProject p = true) :
    (v.setHeld id (some (source, project))).Sound (insert id drawn) := by
  have hnone : v.held id = none := by
    by_contra hne
    exact hid (h.heldDrawn id hne)
  have hheld (a : Uuid) : (v.setHeld id (some (source, project))).held a =
      if a = id then some (source, project) else v.held a := held_setHeld id a _
  have hold (a : Uuid) (ha : v.held a ≠ none) :
      (v.setHeld id (some (source, project))).held a ≠ none := by
    rw [hheld]
    split_ifs
    · simp
    · exact ha
  constructor
  case oneHolder =>
    intro a b pair p q ha hb
    rw [hheld] at ha hb
    split_ifs at ha hb with hia hib hib
    · rw [hia, hib]
    · obtain ⟨rfl, rfl⟩ := Prod.mk.inj (Option.some.inj ha)
      exact absurd hb (hfree b pair q rfl)
    · obtain ⟨rfl, rfl⟩ := Prod.mk.inj (Option.some.inj hb)
      exact absurd ha (hfree a pair p rfl)
    · exact h.oneHolder a b pair p q ha hb
  case heldDrawn =>
    intro a ha
    rw [hheld] at ha
    split_ifs at ha with hia
    · simp [hia]
    · exact Finset.mem_insert_of_mem (h.heldDrawn a ha)
  case projectThere =>
    intro a origin p ha
    rw [hheld] at ha
    split_ifs at ha with hia
    · obtain ⟨-, hp⟩ := Prod.mk.inj (Option.some.inj ha)
      exact hproject p hp
    · exact h.projectThere a origin p ha
  case linked =>
    intro a sourceRef p ha
    rw [hheld] at ha
    split_ifs at ha with hia
    · obtain ⟨hsource, -⟩ := Prod.mk.inj (Option.some.inj ha)
      exact absurd hsource (hordinary sourceRef)
    · exact h.linked a sourceRef p ha
  case mirrors =>
    intro sourceRef l hl
    obtain ⟨a, ha, hitem, hmirror⟩ := h.mirrors sourceRef l hl
    have hne : a ≠ id := fun heq => hid (heq ▸ ha)
    refine ⟨a, Finset.mem_insert_of_mem ha, hitem, ?_⟩
    rw [Mirrors, hheld, if_neg hne]
    exact hmirror
  case oneLink => exact h.oneLink
  case liveProject => exact h.liveProject
  case shaped => exact h.shaped
  case untold => exact h.untold
  case told => exact h.told
  case blocksHeld =>
    intro a b hab
    obtain ⟨ha, hb⟩ := h.blocksHeld a b hab
    exact ⟨hold a ha, hold b hb⟩
  case acyclic => exact h.acyclic

/-- The item of a handoff, with the first row of its link. -/
theorem addExternal (h : v.Sound drawn) {id : Uuid} {sourceRef : String} {n : ℕ}
    (hid : id ∉ drawn) (hfree : v.link sourceRef = none) :
    ((v.setHeld id (some (some (handoffSource sourceRef), none))).addLink sourceRef
      ⟨ref "item" id, 1, .available, none, none, .neverAssigned, n⟩).Sound
        (insert id drawn) := by
  set first : SourceItemLink := ⟨ref "item" id, 1, .available, none, none, .neverAssigned, n⟩
  set t := (v.setHeld id (some (some (handoffSource sourceRef), none))).addLink sourceRef first
  have hheld (a : Uuid) : t.held a =
      if a = id then some (some (handoffSource sourceRef), none) else v.held a := by
    simp [t, setHeld, addLink, Function.update_apply]
  have hlink (source : String) : t.link source =
      if source = sourceRef then some first else v.link source := by
    simp [t, setHeld, addLink, Function.update_apply]
  have hold (a : Uuid) (ha : v.held a ≠ none) : t.held a ≠ none := by
    rw [hheld]
    split_ifs
    · simp
    · exact ha
  have hunheld (a : Uuid) (p : Option Uuid) :
      v.held a ≠ some (some (handoffSource sourceRef), p) := by
    intro ha
    obtain ⟨l, hl, -⟩ := h.linked a sourceRef p ha
    rw [hfree] at hl
    cases hl
  have hfirst (source : String) (l : SourceItemLink) (hl : v.link source = some l) :
      l.itemRef ≠ ref "item" id := by
    obtain ⟨a, ha, hitem, -⟩ := h.mirrors source l hl
    rw [hitem, ne_eq, ref_inj]
    exact fun heq => hid (heq ▸ ha)
  constructor
  case oneHolder =>
    intro a b pair p q ha hb
    rw [hheld] at ha hb
    split_ifs at ha hb with hia hib hib
    · rw [hia, hib]
    · obtain ⟨hpair, -⟩ := Prod.mk.inj (Option.some.inj ha)
      obtain rfl := Option.some.inj hpair
      exact absurd hb (hunheld b q)
    · obtain ⟨hpair, -⟩ := Prod.mk.inj (Option.some.inj hb)
      obtain rfl := Option.some.inj hpair
      exact absurd ha (hunheld a p)
    · exact h.oneHolder a b pair p q ha hb
  case heldDrawn =>
    intro a ha
    rw [hheld] at ha
    split_ifs at ha with hia
    · simp [hia]
    · exact Finset.mem_insert_of_mem (h.heldDrawn a ha)
  case projectThere =>
    intro a origin p ha
    rw [hheld] at ha
    split_ifs at ha with hia
    · simp at ha
    · exact h.projectThere a origin p ha
  case linked =>
    intro a source p ha
    rw [hheld] at ha
    split_ifs at ha with hia
    · have hsource : source = sourceRef := by
        simp only [Option.some.injEq, Prod.mk.injEq, handoffSource, true_and] at ha
        exact ha.1.symm
      refine ⟨first, ?_, ?_⟩
      · rw [hlink, if_pos hsource]
      · rw [hia]
    · obtain ⟨l, hl, hitem⟩ := h.linked a source p ha
      have hne : source ≠ sourceRef := by
        rintro rfl
        exact absurd ha (hunheld a p)
      exact ⟨l, by rw [hlink, if_neg hne]; exact hl, hitem⟩
  case mirrors =>
    intro source l hl
    rw [hlink] at hl
    split_ifs at hl with hsource
    · obtain rfl := Option.some.inj hl
      refine ⟨id, Finset.mem_insert_self _ _, rfl, .inl ⟨rfl, none, ?_, rfl⟩⟩
      rw [hheld, if_pos rfl, hsource]
    · obtain ⟨a, ha, hitem, hmirror⟩ := h.mirrors source l hl
      have hne : a ≠ id := fun heq => hid (heq ▸ ha)
      refine ⟨a, Finset.mem_insert_of_mem ha, hitem, ?_⟩
      rw [Mirrors, hheld, if_neg hne]
      exact hmirror
  case oneLink =>
    intro a b l m hl hm heq
    rw [hlink] at hl hm
    split_ifs at hl hm with ha hb hb
    · rw [ha, hb]
    · obtain rfl := Option.some.inj hl
      exact absurd heq.symm (hfirst b m hm)
    · obtain rfl := Option.some.inj hm
      exact absurd heq (hfirst a l hl)
    · exact h.oneLink a b l m hl hm heq
  case liveProject =>
    intro source l r hl hr
    rw [hlink] at hl
    split_ifs at hl with hsource
    · obtain rfl := Option.some.inj hl
      cases hr
    · exact h.liveProject source l r hl hr
  case shaped =>
    intro source l hl
    rw [hlink] at hl
    split_ifs at hl with hsource
    · obtain rfl := Option.some.inj hl
      constructor <;> simp [first]
    · exact h.shaped source l hl
  case untold =>
    intro source hnone
    rw [hlink] at hnone
    split_ifs at hnone
    exact h.untold source hnone
  case told =>
    intro source l hl
    rw [hlink] at hl
    have hchanges : t.changes source = v.changes source := rfl
    split_ifs at hl with hsource
    · obtain rfl := Option.some.inj hl
      rw [hchanges, hsource, h.untold sourceRef hfree]
      constructor <;> simp [first]
    · rw [hchanges]
      exact h.told source l hl
  case blocksHeld =>
    intro a b hab
    obtain ⟨ha, hb⟩ := h.blocksHeld a b hab
    exact ⟨hold a ha, hold b hb⟩
  case acyclic => exact h.acyclic

/-- The project of an item is set, and its link with it. -/
theorem assign (h : v.Sound drawn) {id : Uuid} {source : Option (String × String)}
    {old project : Option Uuid} (hitem : v.held id = some (source, old))
    (hproject : ∀ p, project = some p → v.isProject p = true) (now : ℕ) :
    ((v.setHeld id (some (source, project))).changeLinks
      (onProjectSet (ref "item" id) (project.map (ref "project")) now)).Sound drawn := by
  have hheld (a : Uuid) : (v.setHeld id (some (source, project))).held a =
      if a = id then some (source, project) else v.held a := held_setHeld id a _
  have hsame (a : Uuid) (origin : Option (String × String)) (p : Option Uuid)
      (ha : (v.setHeld id (some (source, project))).held a = some (origin, p)) :
      ∃ q, v.held a = some (origin, q) := by
    rw [hheld] at ha
    split_ifs at ha with hia
    · obtain ⟨rfl, -⟩ := Prod.mk.inj (Option.some.inj ha)
      exact ⟨old, by rw [hia, hitem]⟩
    · exact ⟨p, ha⟩
  have hset (l : SourceItemLink) (hl : l.itemRef = ref "item" id) :
      ((onProjectSet (ref "item" id) (project.map (ref "project")) now l).getD l).projectRef =
        project.map (ref "project") := by
    rw [onProjectSet]
    split_ifs with hchanged
    · exact withProject_projectRef l _
    · have heq : project.map (ref "project") = l.projectRef := by
        by_contra hne
        exact hchanged ⟨hl, hne⟩
      exact heq.symm
  have hother (l : SourceItemLink) (hl : l.itemRef ≠ ref "item" id) :
      onProjectSet (ref "item" id) (project.map (ref "project")) now l = none := by
    rw [onProjectSet, if_neg fun hchanged => hl hchanged.1]
  have hstate (l : SourceItemLink) :
      ((onProjectSet (ref "item" id) (project.map (ref "project")) now l).getD l).itemState =
        l.itemState := by
    rw [onProjectSet]
    split_ifs
    · cases project <;> rfl
    · rfl
  refine h.change (raises_onProjectSet _ _ _) rfl rfl ?_ ?_ hsame ?_ ?_ ?_
  · intro a b pair p q ha hb
    obtain ⟨p', hp'⟩ := hsame a _ p ha
    obtain ⟨q', hq'⟩ := hsame b _ q hb
    exact h.oneHolder a b pair p' q' hp' hq'
  · intro a origin p ha
    rw [hheld] at ha
    split_ifs at ha with hia
    · obtain ⟨-, hp⟩ := Prod.mk.inj (Option.some.inj ha)
      exact hproject p hp
    · exact h.projectThere a origin p ha
  · intro sourceRef l a hl hla hmirror
    by_cases hia : a = id
    · subst hia
      obtain ⟨havailable, p, hp, -⟩ | ⟨-, hnone⟩ := hmirror
      · rw [hitem] at hp
        obtain ⟨rfl, -⟩ := Prod.mk.inj (Option.some.inj hp)
        refine .inl ⟨(hstate l).trans havailable, project, ?_, hset l hla⟩
        rw [hheld, if_pos rfl]
      · rw [hitem] at hnone
        cases hnone
    · have hne : l.itemRef ≠ ref "item" id := by
        rw [hla, ne_eq, ref_inj]
        exact hia
      rw [hother l hne, Option.getD_none, Mirrors, hheld, if_neg hia]
      exact hmirror
  · intro sourceRef l r hl hr
    by_cases hla : l.itemRef = ref "item" id
    · rw [hset l hla] at hr
      obtain ⟨p, hp, rfl⟩ := Option.map_eq_some_iff.mp hr
      exact ⟨p, rfl, hproject p hp⟩
    · rw [hother l hla] at hr
      exact h.liveProject sourceRef l r hl hr
  · intro a b hab
    obtain ⟨ha, hb⟩ := h.blocksHeld a b hab
    refine ⟨hab, ?_, ?_⟩
    · rw [hheld]
      split_ifs
      · simp
      · exact ha
    · rw [hheld]
      split_ifs
      · simp
      · exact hb

/-- An item is removed with its dependencies, and its link is marked. -/
theorem removeItem (h : v.Sound drawn) (id : Uuid) (now : ℕ) :
    (((v.unblock id).setHeld id none).changeLinks
      (onItemDeleted (ref "item" id) now)).Sound drawn := by
  have hheld (a : Uuid) : ((v.unblock id).setHeld id none).held a =
      if a = id then none else v.held a := held_setHeld id a none
  have hsome (a : Uuid) (x : Option (String × String) × Option Uuid)
      (ha : ((v.unblock id).setHeld id none).held a = some x) : v.held a = some x := by
    rw [hheld] at ha
    split_ifs at ha
    exact ha
  have hproject (l : SourceItemLink) :
      ((onItemDeleted (ref "item" id) now l).getD l).projectRef = l.projectRef := by
    rw [onItemDeleted]
    split_ifs <;> rfl
  refine h.change (raises_onItemDeleted _ _) rfl rfl ?_ ?_ ?_ ?_ ?_ ?_
  · intro a b pair p q ha hb
    exact h.oneHolder a b pair p q (hsome a _ ha) (hsome b _ hb)
  · intro a origin p ha
    exact h.projectThere a origin p (hsome a _ ha)
  · intro a origin p ha
    exact ⟨p, hsome a _ ha⟩
  · intro sourceRef l a hl hla hmirror
    by_cases hia : a = id
    · subst hia
      refine .inr ⟨?_, ?_⟩
      · rw [onItemDeleted]
        split_ifs with hchanged
        · rfl
        · by_contra hne
          exact hchanged ⟨hla, hne⟩
      · rw [hheld, if_pos rfl]
    · have hne : l.itemRef ≠ ref "item" id := by
        rw [hla, ne_eq, ref_inj]
        exact hia
      rw [onItemDeleted, if_neg fun hchanged => hne hchanged.1, Option.getD_none, Mirrors, hheld,
        if_neg hia]
      exact hmirror
  · intro sourceRef l r hl hr
    rw [hproject] at hr
    exact h.liveProject sourceRef l r hl hr
  · intro a b hab
    obtain ⟨hblocks, ha, hb⟩ := hab
    obtain ⟨hheldA, hheldB⟩ := h.blocksHeld a b hblocks
    refine ⟨hblocks, ?_, ?_⟩
    · rw [hheld, if_neg ha]
      exact hheldA
    · rw [hheld, if_neg hb]
      exact hheldB

/-- A project is removed: its items are detached, and its links keep it as history. -/
theorem removeProject (h : v.Sound drawn) (project : Uuid) (now : ℕ) :
    ((v.dropProject project).changeLinks
      (onProjectDeleted (ref "project" project) now)).Sound drawn := by
  have hheld (a : Uuid) (origin : Option (String × String)) (p : Option Uuid)
      (ha : (v.dropProject project).held a = some (origin, p)) :
      ∃ q, v.held a = some (origin, q) ∧ p = if q = some project then none else q := by
    obtain ⟨⟨source, q⟩, hq, heq⟩ := Option.map_eq_some_iff.mp ha
    obtain ⟨rfl, rfl⟩ := Prod.mk.inj heq
    exact ⟨q, hq, rfl⟩
  have hthere (p : Uuid) (hne : p ≠ project) (hp : v.isProject p = true) :
      (v.dropProject project).isProject p = true :=
    (Function.update_of_ne hne ..).trans hp
  have hsome (a : Uuid) (ha : v.held a ≠ none) : (v.dropProject project).held a ≠ none := by
    obtain ⟨x, hx⟩ := Option.ne_none_iff_exists'.mp ha
    simp [dropProject, hx]
  have hstate (l : SourceItemLink) :
      ((onProjectDeleted (ref "project" project) now l).getD l).itemState = l.itemState := by
    rw [onProjectDeleted]
    split_ifs <;> rfl
  have hset (l : SourceItemLink) (p : Option Uuid) (hl : l.projectRef = p.map (ref "project")) :
      ((onProjectDeleted (ref "project" project) now l).getD l).projectRef =
        (if p = some project then none else p).map (ref "project") := by
    have hiff : l.projectRef = some (ref "project" project) ↔ p = some project := by
      rw [hl]
      cases p with
      | none => simp
      | some q => simp [ref_inj]
    rw [onProjectDeleted]
    by_cases hp : p = some project
    · rw [if_pos (hiff.mpr hp), if_pos hp]
      rfl
    · rw [if_neg fun hlive => hp (hiff.mp hlive), if_neg hp]
      exact hl
  refine h.change (raises_onProjectDeleted _ _) rfl rfl ?_ ?_ ?_ ?_ ?_ ?_
  · intro a b pair p q ha hb
    obtain ⟨p', hp', -⟩ := hheld a _ p ha
    obtain ⟨q', hq', -⟩ := hheld b _ q hb
    exact h.oneHolder a b pair p' q' hp' hq'
  · intro a origin p ha
    obtain ⟨q, hq, hp⟩ := hheld a origin (some p) ha
    split_ifs at hp with hproject
    subst hp
    have hne : p ≠ project := fun heq => hproject (by rw [heq])
    exact hthere p hne (h.projectThere a origin p hq)
  · intro a origin p ha
    obtain ⟨q, hq, -⟩ := hheld a origin p ha
    exact ⟨q, hq⟩
  · intro sourceRef l a hl hla hmirror
    obtain ⟨havailable, p, hp, hproject⟩ | ⟨hdeleted, hnone⟩ := hmirror
    · refine .inl ⟨(hstate l).trans havailable, _, ?_, hset l p hproject⟩
      simp [dropProject, hp]
    · refine .inr ⟨(hstate l).trans hdeleted, ?_⟩
      simp [dropProject, hnone]
  · intro sourceRef l r hl hr
    cases hlive : l.projectRef with
    | none =>
      rw [onProjectDeleted, hlive, if_neg (by simp), Option.getD_none, hlive] at hr
      cases hr
    | some r' =>
      obtain ⟨p, rfl, hp⟩ := h.liveProject sourceRef l r' hl hlive
      rw [hset l (some p) hlive] at hr
      split_ifs at hr with hproject
      · cases hr
      · have hne : p ≠ project := fun heq => hproject (by rw [heq])
        exact ⟨p, (Option.some.inj hr).symm, hthere p hne hp⟩
  · intro a b hab
    obtain ⟨ha, hb⟩ := h.blocksHeld a b hab
    exact ⟨hab, hsome a ha, hsome b hb⟩

/-- More projects may be there. -/
theorem addProject (h : v.Sound drawn) {isProject : Uuid → Bool}
    (hmore : ∀ p, v.isProject p = true → isProject p = true) :
    View.Sound { v with isProject := isProject } drawn :=
  { h with
    projectThere := fun id source p hheld => hmore p (h.projectThere id source p hheld)
    liveProject := fun sourceRef l r hl hr => by
      obtain ⟨p, hp, hthere⟩ := h.liveProject sourceRef l r hl hr
      exact ⟨p, hp, hmore p hthere⟩ }

/-- An item is blocked by another one that does not wait on it. -/
theorem addBlock (h : v.Sound drawn) {blocked blocker : Uuid} (hblocked : v.held blocked ≠ none)
    (hblocker : v.held blocker ≠ none) (hback : ¬ Relation.ReflTransGen v.blocks blocker blocked) :
    View.Sound { v with blocks := fun a b => v.blocks a b ∨ (a = blocked ∧ b = blocker) } drawn :=
  { h with
    blocksHeld := fun a b hab => by
      obtain hold | ⟨rfl, rfl⟩ := hab
      · exact h.blocksHeld a b hold
      · exact ⟨hblocked, hblocker⟩
    acyclic := acyclic_insert h.acyclic hback }

/-- Fewer dependencies close no cycle. -/
theorem fewerBlocks (h : v.Sound drawn) {blocks : Uuid → Uuid → Prop}
    (hsub : ∀ a b, blocks a b → v.blocks a b) :
    View.Sound { v with blocks := blocks } drawn :=
  { h with
    blocksHeld := fun a b hab => h.blocksHeld a b (hsub a b hab)
    acyclic := fun a hcycle => h.acyclic a (Relation.TransGen.mono hsub _ _ hcycle) }

end Sound

end View

end Rheostream.Current
