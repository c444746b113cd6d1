import Rheostream.Current.ItemsLaws

/-!
# One item per source

In every run of calls on Current there is one item per source, the link of a handoff mirrors its
item and tells each of its changes once and in order, a deleted item of a handoff never comes
back, and the dependencies have no cycle.
-/

namespace Rheostream.Current

namespace CurrentState

variable {s t : CurrentState} {sourceRef : String}

/-- A call that answers more than its state. -/
theorem fst_of_map {α : Type} {answer : Except String (CurrentState × α)}
    (h : answer.map Prod.fst = .ok t) : ∃ x, answer = .ok (t, x) := by
  cases answer with
  | error refusal => cases h
  | ok pair =>
    obtain rfl := Except.ok.inj h
    exact ⟨pair.2, rfl⟩

variable {a : CurrentAction}

/-- Every call that is accepted keeps what holds. -/
theorem call_ok (hs : s.Sound) (hfresh : ∀ id ∈ a.draws, id ∉ s.drawn) (h : s.call a = .ok t) :
    s.Moves t := by
  cases a with
  | createExternal m id now =>
    obtain ⟨r, hcall⟩ := fst_of_map h
    exact createExternal_ok hs (hfresh id List.mem_cons_self) hcall
  | create m id commentId now =>
    obtain ⟨⟨action, made⟩, hcall⟩ := fst_of_map h
    exact create_ok hs (hfresh id List.mem_cons_self) hcall
  | edit id revision m now => exact edit_ok hs h
  | setStatus id revision status snoozedUntil now => exact setStatus_ok hs h
  | closeBySource pair actor note commentId now =>
    have hmoves := closeBySource_ok hs pair actor note commentId now
    rwa [Except.ok.inj h] at hmoves
  | comment id body commentId now => exact comment_ok hs h
  | addDependency blocked blocker now => exact addDependency_ok hs h
  | removeDependency blocked blocker => exact removeDependency_ok hs h
  | createProject m id now => exact createProject_ok hs h
  | editProject id revision m now => exact editProject_ok hs h
  | createArea key label now => exact createArea_ok hs h
  | editArea key label retired now => exact editArea_ok hs h
  | deleteItem id revision now => exact deleteItem_ok hs h
  | deleteProject id revision now => exact deleteProject_ok hs h

theorem step_ok (hs : s.Sound) (h : s.step a = some t) : s.Moves t := by
  unfold step at h
  split_ifs at h with hfresh
  obtain rfl := Option.some.inj h
  have hdraws : ∀ id ∈ a.draws, id ∉ s.drawn := by
    intro id hid
    exact of_decide_eq_true (List.all_eq_true.mp hfresh id hid)
  unfold after
  cases hcall : s.call a with
  | error refusal => exact .refl hs
  | ok t => exact call_ok hs hdraws hcall

theorem Begins.sound (h : s.Begins) : s.Sound := by
  have hheld (id : Uuid) : s.view.held id = none := by simp [view, h.items]
  have hlink (source : String) : s.view.link source = none := by simp [view, h.links]
  have hblocks (a b : Uuid) : ¬ s.view.blocks a b := by simp [view, h.dependencies]
  constructor
  case oneHolder => simp [hheld]
  case heldDrawn => simp [hheld]
  case projectThere => simp [hheld]
  case linked => simp [hheld]
  case mirrors => simp [hlink]
  case oneLink => simp [View.OneLink, hlink]
  case liveProject => simp [hlink]
  case shaped => simp [hlink]
  case untold => simp [view, changesOf, h.events]
  case told => simp [hlink]
  case blocksHeld => exact fun a b hab => absurd hab (hblocks a b)
  case acyclic =>
    intro a hcycle
    obtain ⟨b, hab, -⟩ := Relation.TransGen.head'_iff.mp hcycle
    exact hblocks a b hab

theorem sound_of_reachable (h : currentMachine.Reachable s) : s.Sound :=
  h.invariant (I := Sound) (fun _ hinit => Begins.sound hinit) fun _ _ _ _ hs hstep =>
    (step_ok hs hstep).sound

/-- What one call makes of the link of one source. -/
inductive LinkStep (s t : CurrentState) (sourceRef : String) : Prop where
  | kept (link : t.links.lookup sourceRef = s.links.lookup sourceRef)
      (changes : t.changesOf sourceRef = s.changesOf sourceRef)
  | first (l : SourceItemLink) (free : s.links.lookup sourceRef = none)
      (link : t.links.lookup sourceRef = some l) (revision : l.revision = 1)
      (changes : t.changesOf sourceRef = s.changesOf sourceRef)
  | changed (l m : SourceItemLink) (old : s.links.lookup sourceRef = some l)
      (link : t.links.lookup sourceRef = some m) (revision : m.revision = l.revision + 1)
      (itemRef : m.itemRef = l.itemRef)
      (deleted : l.itemState = .deleted → m.itemState = .deleted)
      (changes : t.changesOf sourceRef = s.changesOf sourceRef ++ [m])

theorem LinkStep.of_change (h : Change s.view t.view) (sourceRef : String) :
    s.LinkStep t sourceRef := by
  cases h with
  | none hlink hchanges => exact .kept (congrFun hlink sourceRef) (congrFun hchanges sourceRef)
  | first source l hfree hrevision hlink hchanges =>
    have hnew : t.links.lookup sourceRef =
        Function.update s.view.link source (some l) sourceRef := congrFun hlink sourceRef
    by_cases heq : sourceRef = source
    · subst heq
      rw [Function.update_self] at hnew
      exact .first l hfree hnew hrevision (congrFun hchanges sourceRef)
    · rw [Function.update_of_ne heq] at hnew
      exact .kept hnew (congrFun hchanges sourceRef)
  | some f hf hlink hchanges =>
    have hnew : t.links.lookup sourceRef =
        (s.links.lookup sourceRef).map fun l => (f l).getD l := congrFun hlink sourceRef
    have htold : t.changesOf sourceRef =
        s.changesOf sourceRef ++ ((s.links.lookup sourceRef).bind f).toList :=
      congrFun hchanges sourceRef
    cases hl : s.links.lookup sourceRef with
    | none =>
      rw [hl] at hnew htold
      exact .kept (hnew.trans hl.symm) (htold.trans (List.append_nil _))
    | some l =>
      rw [hl] at hnew htold
      cases hm : f l with
      | none =>
        rw [Option.bind_some, hm] at htold
        rw [Option.map_some, hm] at hnew
        exact .kept (hnew.trans hl.symm) (htold.trans (List.append_nil _))
      | some m =>
        rw [Option.bind_some, hm] at htold
        rw [Option.map_some, hm] at hnew
        exact .changed l m hl hnew (hf.revision l m hm) (hf.itemRef l m hm)
          (hf.deleted l m hm) htold

theorem linkStep_of_step (hs : s.Sound) (h : s.step a = some t) (sourceRef : String) :
    s.LinkStep t sourceRef :=
  .of_change (step_ok hs h).change sourceRef

/-- A link with this item, at this revision or a later one; deleted, if it was. -/
def Holds (s : CurrentState) (sourceRef : String) (l : SourceItemLink) : Prop :=
  ∃ m, s.links.lookup sourceRef = some m ∧ m.itemRef = l.itemRef ∧ l.revision ≤ m.revision ∧
    (l.itemState = .deleted → m.itemState = .deleted)

variable {l : SourceItemLink}

theorem LinkStep.holds (h : s.LinkStep t sourceRef) (hl : s.Holds sourceRef l) :
    t.Holds sourceRef l := by
  obtain ⟨m, hm, hitem, hle, hdeleted⟩ := hl
  cases h with
  | kept link changes => exact ⟨m, link.trans hm, hitem, hle, hdeleted⟩
  | first k free link revision changes =>
    rw [hm] at free
    cases free
  | changed old new hold link revision itemRef deleted changes =>
    obtain rfl : m = old := Option.some.inj (hm.symm.trans hold)
    refine ⟨new, link, itemRef.trans hitem, by omega, fun h => deleted (hdeleted h)⟩

/-- A link is there for ever, with its item. -/
theorem holds_of_reaches (h : currentMachine.Reachable s) (hl : s.links.lookup sourceRef = some l)
    (hrun : currentMachine.Reaches s t) : t.Holds sourceRef l := by
  refine h.stable (P := fun u => u.Holds sourceRef l) ?_ ⟨l, hl, rfl, le_refl _, id⟩ hrun
  intro u a v hu hheld hstep
  exact (linkStep_of_step (sound_of_reachable hu) hstep sourceRef).holds hheld

variable {id : Uuid}

/-- The link of an item that is gone is deleted. -/
theorem deleted_of_absent (hs : s.Sound) (hl : s.links.lookup sourceRef = some l)
    (hitem : l.itemRef = ref "item" id) (hgone : s.items.lookup id = none) :
    l.itemState = .deleted := by
  obtain ⟨a, -, hitem', hmirror⟩ := hs.mirrors sourceRef l hl
  rw [hitem, ref_inj] at hitem'
  subst hitem'
  obtain ⟨-, p, hheld, -⟩ | ⟨hdeleted, -⟩ := hmirror
  · rw [held_eq_none.mpr hgone] at hheld
    cases hheld
  · exact hdeleted

/-- No item holds the source of a deleted link. -/
theorem not_held_of_deleted {row : Item} (hs : s.Sound) (hl : s.links.lookup sourceRef = some l)
    (hdeleted : l.itemState = .deleted) (hrow : s.items.lookup id = some row) :
    row.source ≠ some (handoffSource sourceRef) := by
  intro hsource
  have hheld := held_eq hrow
  rw [hsource] at hheld
  obtain ⟨m, hm, hitem⟩ := hs.linked id sourceRef row.projectId hheld
  obtain rfl : l = m := Option.some.inj (hl.symm.trans hm)
  obtain ⟨a, -, hitem', ⟨havailable, -⟩ | ⟨-, hnone⟩⟩ := hs.mirrors sourceRef l hl
  · rw [hdeleted] at havailable
    cases havailable
  · rw [hitem, ref_inj] at hitem'
    rw [← hitem', held_eq hrow] at hnone
    cases hnone

/-- The external path refuses the source of a deleted link. -/
theorem createExternal_tombstoned {m : ExternalItemCreate} {now : ℕ}
    (hl : s.links.lookup m.sourceRef = some l) (hdeleted : l.itemState = .deleted) :
    s.createExternal m id now = .error "source_tombstoned" := by
  simp [createExternal, hl, hdeleted]

/-- The external path answers the item of an available link. -/
theorem createExternal_linked {m : ExternalItemCreate} {now : ℕ} (hs : s.Sound)
    (hl : s.links.lookup m.sourceRef = some l) (havailable : l.itemState = .available) :
    s.createExternal m id now = .ok (s, l.itemRef) := by
  obtain ⟨a, -, hitem, ⟨-, p, hheld, -⟩ | ⟨hdeleted, -⟩⟩ := hs.mirrors m.sourceRef l hl
  · obtain ⟨row, hrow, -⟩ := Option.map_eq_some_iff.mp hheld
    have hthere : s.items.lookup l.itemRef.id = some row := by
      rw [hitem]
      exact hrow
    simp [createExternal, hl, havailable, hthere]
  · rw [havailable] at hdeleted
    cases hdeleted

end CurrentState

open CurrentState in
/-- What holds of Current in a state that a run reaches. -/
structure CurrentLaw (s : CurrentState) : Prop where
  /-- No two items hold one source. -/
  oneItem : ∀ a b rowA rowB pair, s.items.lookup a = some rowA → s.items.lookup b = some rowB →
    rowA.source = some pair → rowB.source = some pair → a = b
  /-- A link is available exactly while its item is there, and then it has the item's source
  and project. -/
  mirrors : ∀ sourceRef l, s.links.lookup sourceRef = some l →
    ∃ id, l.itemRef = ref "item" id ∧
      (l.itemState = .available ↔ (s.items.lookup id).isSome = true) ∧
        ∀ row, s.items.lookup id = some row → row.source = some (handoffSource sourceRef) ∧
          l.projectRef = row.projectId.map (ref "project")
  /-- The live project of a link is there. -/
  liveProject : ∀ sourceRef l r, s.links.lookup sourceRef = some l → l.projectRef = some r →
    ∃ p, r = ref "project" p ∧ (s.projects.lookup p).isSome = true
  /-- A link never changes its item and never goes back. -/
  lasting : ∀ sourceRef l t, s.links.lookup sourceRef = some l → currentMachine.Reaches s t →
    t.Holds sourceRef l
  /-- A call leaves a link as it is, makes its first row, or changes it at the next revision
  with one event. -/
  stepwise : ∀ a t sourceRef, s.step a = some t → s.LinkStep t sourceRef
  /-- The events of a link tell its changes, each revision once and in order. -/
  told : ∀ sourceRef l, s.links.lookup sourceRef = some l → Tells (s.changesOf sourceRef) l
  /-- Another request for a source whose item is there answers that item. -/
  repeated : ∀ m l id now, s.links.lookup m.sourceRef = some l → l.itemState = .available →
    s.createExternal m id now = .ok (s, l.itemRef)
  /-- Once the item of a handoff was deleted, no item has its source again, and its source is
  refused. -/
  tombstoned : ∀ id row sourceRef t u, s.items.lookup id = some row →
    row.source = some (handoffSource sourceRef) → currentMachine.Reaches s t →
      t.items.lookup id = none → currentMachine.Reaches t u →
        (∀ other found, u.items.lookup other = some found →
          found.source ≠ some (handoffSource sourceRef)) ∧
            ∀ m made now, m.sourceRef = sourceRef →
              u.createExternal m made now = .error "source_tombstoned"
  /-- No item waits on itself, directly or through others. -/
  acyclic : ∀ a, ¬ Relation.TransGen
    (fun x y => (s.dependencies.lookup (x, y)).isSome = true) a a

open CurrentState in
/-- In every run of calls on Current there is one item per source, the links mirror their items
and tell their changes, and what a handoff made and a person deleted never comes back. -/
theorem current_law {s : CurrentState} (h : currentMachine.Reachable s) : CurrentLaw s where
  oneItem a b rowA rowB pair hrowA hrowB hsourceA hsourceB := by
    have hheldA := held_eq hrowA
    have hheldB := held_eq hrowB
    rw [hsourceA] at hheldA
    rw [hsourceB] at hheldB
    exact (sound_of_reachable h).oneHolder a b pair _ _ hheldA hheldB
  mirrors sourceRef l hl := by
    obtain ⟨id, -, hitem, hmirror⟩ := (sound_of_reachable h).mirrors sourceRef l hl
    refine ⟨id, hitem, ?_⟩
    obtain ⟨havailable, p, hheld, hproject⟩ | ⟨hdeleted, hnone⟩ := hmirror
    · obtain ⟨row, hrow, heq⟩ := Option.map_eq_some_iff.mp hheld
      obtain ⟨hsource, hprojectId⟩ := Prod.mk.inj heq
      constructor
      · simp [havailable, hrow]
      · intro found hfound
        obtain rfl : row = found := Option.some.inj (hrow.symm.trans hfound)
        exact ⟨hsource, by rw [hproject, hprojectId]⟩
    · have hgone := held_eq_none.mp hnone
      constructor
      · simp [hdeleted, hgone]
      · intro row hrow
        rw [hgone] at hrow
        cases hrow
  liveProject := (sound_of_reachable h).liveProject
  lasting sourceRef l t hl hrun := holds_of_reaches h hl hrun
  stepwise a t sourceRef hstep := linkStep_of_step (sound_of_reachable h) hstep sourceRef
  told := (sound_of_reachable h).told
  repeated m l id now hl havailable :=
    createExternal_linked (sound_of_reachable h) hl havailable
  tombstoned id row sourceRef t u hrow hsource hrun hgone hlater := by
    have hheld := held_eq hrow
    rw [hsource] at hheld
    obtain ⟨l, hl, hitem⟩ := (sound_of_reachable h).linked id sourceRef _ hheld
    have ht := h.reaches hrun
    obtain ⟨m, hm, hitemRef, -, -⟩ := holds_of_reaches h hl hrun
    have hdeleted := deleted_of_absent (sound_of_reachable ht) hm (hitemRef.trans hitem) hgone
    obtain ⟨k, hk, -, -, hstays⟩ := holds_of_reaches ht hm hlater
    have hu := sound_of_reachable (ht.reaches hlater)
    constructor
    · intro other found hfound
      exact not_held_of_deleted hu hk (hstays hdeleted) hfound
    · intro m made now hsame
      subst hsame
      exact createExternal_tombstoned hk (hstays hdeleted)
  acyclic := (sound_of_reachable h).acyclic

section Sample

private def emptyCurrent : CurrentState := ⟨∅, ∅, ∅, ∅, ∅, ∅, ∅, [], ∅⟩

private theorem begins_emptyCurrent : emptyCurrent.Begins := by
  constructor <;> rfl

/-- A handoff makes an item, which is put into a project and deleted. -/
private def handedOff : List CurrentAction :=
  [.createExternal ⟨"leads:handoff/1", "Site", "", .normal, none, none⟩ 1 10,
    .createProject ⟨"Web", "", .active, none, none⟩ 2 20,
    .edit 1 1 ⟨none, none, none, none, some 2, none, []⟩ 30,
    .deleteItem 1 2 40]

private def linkView (s : CurrentState) : Option ItemState × Option (Option RecordRef) × List ℕ :=
  ((s.links.lookup "leads:handoff/1").map SourceItemLink.itemState,
    (s.links.lookup "leads:handoff/1").map SourceItemLink.projectRef,
    (s.changesOf "leads:handoff/1").map SourceItemLink.revision)

/-- The run of a handoff whose item was deleted: its link keeps the project that is there, and
told its assignment and its deletion. -/
theorem current_law_deleted : ∃ s, linkView s =
    (some .deleted, some (some (ref "project" 2)), [2, 3]) ∧ CurrentLaw s := by
  have hrun : (currentMachine.run emptyCurrent handedOff).map linkView =
      some (some .deleted, some (some (ref "project" 2)), [2, 3]) := by decide +kernel
  obtain ⟨s, hreached, hview⟩ := Option.map_eq_some_iff.mp hrun
  exact ⟨s, hview, current_law (Machine.reachable_of_run begins_emptyCurrent hreached)⟩

private def fromEmail : ItemCreate :=
  ⟨"Invoice", "", .normal, none, none, none, .email, some ("email", "m-1"), none⟩

private def holdsEmail (s : CurrentState) (id : Uuid) : Bool :=
  (s.items.lookup id).any fun row => row.source = some ("email", "m-1")

private theorem row_of_holdsEmail {s : CurrentState} {id : Uuid} (h : holdsEmail s id = true) :
    ∃ row, s.items.lookup id = some row ∧ row.source = some ("email", "m-1") := by
  unfold holdsEmail at h
  cases hrow : s.items.lookup id with
  | none => simp [hrow] at h
  | some row => exact ⟨row, rfl, by simpa [hrow] using h⟩

/-- The source of an ordinary item is not refused once the item was deleted: another create
makes an item for it. -/
theorem ordinary_source_made_again : ∃ s t u,
    currentMachine.Reachable s ∧ currentMachine.Reaches s t ∧ currentMachine.Reaches t u ∧
      (∃ row, s.items.lookup 1 = some row ∧ row.source = some ("email", "m-1")) ∧
        t.items.lookup 1 = none ∧
          ∃ row, u.items.lookup 3 = some row ∧ row.source = some ("email", "m-1") := by
  have hmade : (currentMachine.run emptyCurrent [.create fromEmail 1 2 10]).map
      (fun s => (holdsEmail s 1, (currentMachine.run s [.deleteItem 1 1 20]).map fun t =>
        ((t.items.lookup 1).isNone, (currentMachine.run t [.create fromEmail 3 4 30]).map fun u =>
          holdsEmail u 3))) = some (true, some (true, some true)) := by
    decide +kernel
  obtain ⟨s, hs, hviews⟩ := Option.map_eq_some_iff.mp hmade
  obtain ⟨hrowS, hrest⟩ := Prod.mk.inj hviews
  obtain ⟨t, ht, hviewT⟩ := Option.map_eq_some_iff.mp hrest
  obtain ⟨hgone, hlast⟩ := Prod.mk.inj hviewT
  obtain ⟨u, hu, hrowU⟩ := Option.map_eq_some_iff.mp hlast
  refine ⟨s, t, u, Machine.reachable_of_run begins_emptyCurrent hs, Machine.reaches_of_run ht,
    Machine.reaches_of_run hu, row_of_holdsEmail hrowS, ?_, row_of_holdsEmail hrowU⟩
  simpa using hgone

end Sample

end Rheostream.Current
