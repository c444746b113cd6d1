import Rheostream.Current.OneItem

/-!
# Signals of a source

What an item heard from its source decides which signal is a repeat, and the events it counts. The
edits, moves and comments in between decide nothing.
-/

namespace Rheostream.Current

/-- What an item hears: it is made, a signal comes in, its source closes it. -/
inductive Heard where
  | made (fingerprint : Option String)
  | signal (fingerprint : Option String)
  | closed

/-- The fingerprints heard since the last close, and the signals that were no repeat. -/
structure Tally where
  seen : List String
  fresh : ℕ

/-- A signal whose fingerprint was heard since the last close. -/
def Tally.repeats (k : Tally) (fingerprint : Option String) : Bool :=
  fingerprint.any fun text => k.seen.contains text

def Tally.hears (k : Tally) : Heard → Tally
  | .made fingerprint => ⟨fingerprint.toList, 0⟩
  | .signal fingerprint =>
    if k.repeats fingerprint then k else ⟨fingerprint.toList ++ k.seen, k.fresh + 1⟩
  | .closed => ⟨[], k.fresh⟩

/-- The tally of all that an item heard. -/
def tallyOf (history : List Heard) : Tally := history.foldl Tally.hears ⟨[], 0⟩

def CurrentAction.fingerprint : CurrentAction → Option String
  | .create m _ _ _ => m.fingerprint
  | _ => none

/-- The calls that neither make nor delete an item nor come from a source. -/
def CurrentAction.isQuiet : CurrentAction → Bool
  | .create _ _ _ _ => false
  | .createExternal _ _ _ => false
  | .closeBySource _ _ _ _ _ => false
  | .deleteItem _ _ _ => false
  | _ => true

namespace CurrentState

/-- What an item hears of a call that leads from `s` to `t`. -/
def heard (s : CurrentState) (a : CurrentAction) (t : CurrentState) (id : Uuid) : Option Heard :=
  match s.items.lookup id with
  | none => if (t.items.lookup id).isSome then some (.made a.fingerprint) else none
  | some row =>
    match a with
    | .create m _ _ _ =>
      if m.isValid && row.source.isSome && m.source = row.source then some (.signal m.fingerprint)
      else none
    | .closeBySource pair _ _ _ _ => if row.source = some pair then some .closed else none
    | _ => none

/-- What an item hears of the calls of a run. -/
def hearings (s : CurrentState) : List CurrentAction → Uuid → List Heard
  | [], _ => []
  | a :: as, id =>
    match s.step a with
    | none => []
    | some t => (s.heard a t id).toList ++ t.hearings as id

/-- An item counts its signals, and remembers the fingerprints, of its tally. -/
def Agrees (s : CurrentState) (id : Uuid) (k : Tally) : Prop :=
  ∀ row, s.items.lookup id = some row → row.eventCount = 1 + k.fresh ∧
    ∀ text, (s.signals.lookup (id, text)).isSome = k.seen.contains text

/-- Every fingerprint is one of an item. -/
def SignalsHeld (s : CurrentState) : Prop :=
  ∀ id text, (s.signals.lookup (id, text)).isSome = true → (s.items.lookup id).isSome = true

variable {s t : CurrentState} {id : Uuid} {row : Item} {now : ℕ} {k : Tally}

/-! ### Calls that are no signals -/

/-- The items count what they counted, and the fingerprints are as they were. -/
structure Quiet (s t : CurrentState) : Prop where
  counts : ∀ id, (t.items.lookup id).map Item.eventCount = (s.items.lookup id).map Item.eventCount
  signals : t.signals = s.signals

theorem Quiet.refl (s : CurrentState) : s.Quiet s := ⟨fun _ => rfl, rfl⟩

theorem Quiet.of_eq (hitems : t.items = s.items) (hsignals : t.signals = s.signals) : s.Quiet t :=
  ⟨fun _ => by rw [hitems], hsignals⟩

theorem Quiet.trans {u : CurrentState} (h : s.Quiet t) (h' : t.Quiet u) : s.Quiet u :=
  ⟨fun id => (h'.counts id).trans (h.counts id), h'.signals.trans h.signals⟩

theorem Quiet.isSome (h : s.Quiet t) (id : Uuid) :
    (t.items.lookup id).isSome = (s.items.lookup id).isSome := by
  have hcounts := congrArg Option.isSome (h.counts id)
  rw [Option.isSome_map, Option.isSome_map] at hcounts
  exact hcounts

variable {new : Item}

/-- An item is written with the count that it has. -/
theorem quiet_setItem (hrow : s.items.lookup id = some row)
    (hcount : new.eventCount = row.eventCount) : s.Quiet (s.setItem id new) := by
  refine ⟨fun a => ?_, rfl⟩
  simp only [setItem, Table.lookup_insert]
  split_ifs with heq
  · subst heq
    rw [hrow, Option.map_some, Option.map_some, hcount]
  · rfl

theorem advance_quiet {sourceRef : String} {link changed : SourceItemLink}
    (h : s.advance sourceRef link changed now = .ok t) : s.Quiet t := by
  unfold advance at h
  split at h
  · cases h
  · obtain rfl := Except.ok.inj h
    exact .of_eq rfl rfl

variable {itemRef : RecordRef}

theorem itemProjectSet_quiet {project : Option RecordRef}
    (h : s.itemProjectSet itemRef project now = .ok t) : s.Quiet t := by
  unfold itemProjectSet at h
  split at h
  · obtain rfl := Except.ok.inj h
    exact .refl s
  · split_ifs at h
    · obtain rfl := Except.ok.inj h
      exact .refl s
    · exact advance_quiet h

theorem itemDeleted_quiet (h : s.itemDeleted itemRef now = .ok t) :
    s.Quiet t ∧ t.items = s.items := by
  unfold itemDeleted at h
  split at h
  · obtain rfl := Except.ok.inj h
    exact ⟨.refl s, rfl⟩
  · split_ifs at h
    · obtain rfl := Except.ok.inj h
      exact ⟨.refl s, rfl⟩
    · exact ⟨advance_quiet h, (advance_ok h).1.items⟩

theorem projectDeleted_quiet {project : RecordRef} {rows : List (String × SourceItemLink)}
    (h : s.projectDeleted project rows now = .ok t) : s.Quiet t := by
  induction rows generalizing s with
  | nil =>
    obtain rfl := Except.ok.inj h
    exact .refl s
  | cons e rows ih =>
    rw [projectDeleted, List.foldlM_cons] at h
    cases hstep : s.advance e.1 e.2 (e.2.withoutProject project) now with
    | error refusal =>
      rw [hstep] at h
      cases h
    | ok r =>
      rw [hstep] at h
      exact (advance_quiet hstep).trans (ih h)

variable {revision : ℕ}

theorem edit_quiet {m : ItemUpdate} (h : s.edit id revision m now = .ok t) : s.Quiet t := by
  unfold edit at h
  by_cases hvalid : m.isValid = true
  case neg =>
    rw [if_neg hvalid] at h
    cases h
  rw [if_pos hvalid] at h
  split at h
  · cases h
  next row hchecked =>
  have hrow := checkedItem_ok hchecked
  have hwrite : s.Quiet (if m.hasChanges then s.setItem id (m.write row now) else s) := by
    split_ifs
    · exact quiet_setItem hrow rfl
    · exact .refl s
  by_cases hproject : s.hasProject m.projectRef = true
  case neg =>
    rw [if_neg hproject] at h
    cases h
  rw [if_pos hproject] at h
  split at h
  · cases h
  dsimp only at h
  by_cases hset : (m.projectRef.isSome || m.clear.contains .projectRef) = true
  · rw [if_pos hset] at h
    exact hwrite.trans (itemProjectSet_quiet h)
  · rw [if_neg hset] at h
    obtain rfl := Except.ok.inj h
    exact hwrite

theorem setStatus_quiet {status : Status} {snoozedUntil : Option ℕ}
    (h : s.setStatus id revision status snoozedUntil now = .ok t) : s.Quiet t := by
  unfold setStatus at h
  split at h
  · cases h
  next row hchecked =>
  have hwrite : s.Quiet (s.setItem id (withStatus row status snoozedUntil now)) :=
    quiet_setItem (checkedItem_ok hchecked) rfl
  split_ifs at h
  · obtain rfl := Except.ok.inj h
    exact .refl s
  all_goals
    obtain rfl := Except.ok.inj h
    exact hwrite.trans (.of_eq rfl rfl)

theorem deleteProject_quiet (h : s.deleteProject id revision now = .ok t) : s.Quiet t := by
  unfold deleteProject at h
  split at h
  · cases h
  split_ifs at h
  split at h
  · cases h
  next marked hmarked =>
  obtain rfl := Except.ok.inj h
  have hdetach : s.Quiet (s.detachItems id now) := by
    refine ⟨fun a => ?_, rfl⟩
    simp only [detachItems, Table.lookup_updateAll, Option.map_map]
    congr 1
    funext row
    simp only [Function.comp_apply]
    split_ifs <;> rfl
  exact (hdetach.trans (projectDeleted_quiet hmarked)).trans (.of_eq rfl rfl)

variable {a : CurrentAction}

/-- The calls that are no signals. -/
theorem call_quiet (ha : a.isQuiet = true) (h : s.call a = .ok t) : s.Quiet t := by
  cases a with
  | createExternal m id now => cases ha
  | create m id commentId now => cases ha
  | closeBySource pair actor note commentId now => cases ha
  | deleteItem id revision now => cases ha
  | edit id revision m now => exact edit_quiet h
  | setStatus id revision status snoozedUntil now => exact setStatus_quiet h
  | deleteProject id revision now => exact deleteProject_quiet h
  | comment id body commentId now =>
    simp only [call, comment] at h
    split at h
    · cases h
    next row hrow =>
    obtain rfl := Except.ok.inj h
    have hadded : (s.addComment commentId id .comment body now).items.lookup id = some row := hrow
    exact (Quiet.of_eq rfl rfl : s.Quiet (s.addComment commentId id .comment body now)).trans
      (quiet_setItem hadded rfl)
  | addDependency blocked blocker now =>
    simp only [call, addDependency] at h
    split_ifs at h
    all_goals
      obtain rfl := Except.ok.inj h
      exact .of_eq rfl rfl
  | removeDependency blocked blocker =>
    simp only [call, removeDependency] at h
    split_ifs at h
    obtain rfl := Except.ok.inj h
    exact .of_eq rfl rfl
  | createProject m id now =>
    simp only [call, createProject] at h
    split at h
    · cases h
    · obtain rfl := Except.ok.inj h
      exact .of_eq rfl rfl
  | editProject id revision m now =>
    simp only [call, editProject] at h
    by_cases hvalid : m.isValid = true
    case neg =>
      rw [if_neg hvalid] at h
      cases h
    rw [if_pos hvalid] at h
    split at h
    · cases h
    next row hrow =>
    by_cases hstale : row.revision ≠ revision
    · rw [if_pos hstale] at h
      cases h
    rw [if_neg hstale] at h
    split at h
    · cases h
    split_ifs at h
    all_goals
      obtain rfl := Except.ok.inj h
      exact .of_eq rfl rfl
  | createArea key label now =>
    simp only [call, createArea] at h
    split_ifs at h
    obtain rfl := Except.ok.inj h
    exact .of_eq rfl rfl
  | editArea key label retired now =>
    simp only [call, editArea] at h
    split at h
    · cases h
    split_ifs at h
    all_goals
      obtain rfl := Except.ok.inj h
      exact .of_eq rfl rfl

/-! ### One call -/

theorem heard_quiet (ha : a.isQuiet = true)
    (hsame : (t.items.lookup id).isSome = (s.items.lookup id).isSome) : s.heard a t id = none := by
  unfold heard
  cases hrow : s.items.lookup id with
  | none =>
    rw [hrow] at hsame
    simp [hsame]
  | some row => cases a <;> first | rfl | cases ha

/-- An item agrees with its tally when it counts as before, and so do its fingerprints. -/
theorem Agrees.of_same {u : CurrentState} (h : s.Agrees id k)
    (hcount : (u.items.lookup id).map Item.eventCount = (s.items.lookup id).map Item.eventCount)
    (hseen : ∀ text, (u.signals.lookup (id, text)).isSome = (s.signals.lookup (id, text)).isSome) :
    u.Agrees id k := by
  intro row hrow
  rw [hrow, Option.map_some] at hcount
  obtain ⟨old, hold, hequal⟩ := Option.map_eq_some_iff.mp hcount.symm
  obtain ⟨hevents, hknown⟩ := h old hold
  refine ⟨?_, fun text => ?_⟩
  · rw [← hequal]
    exact hevents
  · rw [hseen text]
    exact hknown text

/-- What a call makes of the items, their fingerprints and their tallies. -/
structure Recorded (s : CurrentState) (a : CurrentAction) (t : CurrentState) : Prop where
  held : s.SignalsHeld → t.SignalsHeld
  agrees : s.SignalsHeld → ∀ id k, s.Agrees id k → t.Agrees id ((s.heard a t id).toList.foldl
    Tally.hears k)

theorem Quiet.recorded (h : s.Quiet t) (hheard : ∀ id, s.heard a t id = none) : s.Recorded a t where
  held hheld id text hsome := by
    rw [h.isSome]
    rw [h.signals] at hsome
    exact hheld id text hsome
  agrees _ id k hagrees := by
    rw [hheard id]
    exact hagrees.of_same (h.counts id) fun text => by rw [h.signals]

variable {fingerprint : Option String} {other : Uuid}

theorem isSome_addSignal {text : String} :
    ((s.addSignal id fingerprint now).signals.lookup (other, text)).isSome = true ↔
      (s.signals.lookup (other, text)).isSome = true ∨ other = id ∧ fingerprint = some text := by
  cases fingerprint with
  | none => simp [addSignal]
  | some f =>
    simp only [addSignal, Table.lookup_insert, Prod.mk.injEq, Option.some.injEq]
    split_ifs with heq
    · simp [heq]
    · have hne : ¬ (other = id ∧ f = text) := fun h => heq ⟨h.1, h.2.symm⟩
      simp [hne]

/-- The fingerprints of the other items stay. -/
theorem isSome_addSignal_other (hne : other ≠ id) (text : String) :
    ((s.addSignal id fingerprint now).signals.lookup (other, text)).isSome =
      (s.signals.lookup (other, text)).isSome := by
  rw [Bool.eq_iff_iff, isSome_addSignal]
  simp [hne]

/-- One item is written, with a fingerprint of its own or without. -/
theorem recorded_write (hitems : t.items = s.items.insert id new)
    (hsignals : t.signals = (s.addSignal id fingerprint now).signals)
    (hquiet : ∀ other, other ≠ id → s.heard a t other = none)
    (hagrees : s.SignalsHeld → ∀ k, s.Agrees id k →
      t.Agrees id ((s.heard a t id).toList.foldl Tally.hears k))
    : s.Recorded a t where
  held hheld other text hsome := by
    rw [hsignals, isSome_addSignal] at hsome
    rw [hitems, Table.lookup_insert]
    split_ifs with heq
    · rfl
    · obtain hold | ⟨hsame, -⟩ := hsome
      · exact hheld other text hold
      · exact absurd hsame heq
  agrees hheld other k hother := by
    by_cases heq : other = id
    · subst heq
      exact hagrees hheld k hother
    · rw [hquiet other heq]
      refine hother.of_same ?_ fun text => ?_
      · rw [hitems, Table.lookup_insert, if_neg heq]
      · rw [hsignals]
        exact isSome_addSignal_other heq text

/-- An item is made, with the fingerprint that came with it. -/
theorem recorded_made (hfresh : s.items.lookup id = none) (hcount : new.eventCount = 1)
    (hitems : t.items = s.items.insert id new)
    (hsignals : t.signals = (s.addSignal id a.fingerprint now).signals)
    (hquiet : ∀ other, other ≠ id → s.heard a t other = none) : s.Recorded a t := by
  have hrow : t.items.lookup id = some new := by
    rw [hitems, Table.lookup_insert, if_pos rfl]
  refine recorded_write hitems hsignals hquiet ?_
  intro hheld k _
  have hheard : s.heard a t id = some (.made a.fingerprint) := by
    unfold heard
    rw [hfresh, hrow]
    rfl
  rw [hheard]
  intro row hfound
  obtain rfl : new = row := Option.some.inj (hrow.symm.trans hfound)
  refine ⟨hcount, fun text => ?_⟩
  have hnone : ¬ (s.signals.lookup (id, text)).isSome = true := by
    intro hsome
    have hthere := hheld id text hsome
    rw [hfresh] at hthere
    cases hthere
  change _ = a.fingerprint.toList.contains text
  rw [hsignals, Bool.eq_iff_iff, isSome_addSignal, List.contains_iff_mem, Option.mem_toList]
  simp [hnone]

variable {m : ItemCreate} {commentId newId : Uuid}

/-- What an item that is there hears of a signal. -/
theorem heard_create (hrow : s.items.lookup id = some row) :
    s.heard (.create m newId commentId now) t id =
      if m.isValid && row.source.isSome && m.source = row.source then some (.signal m.fingerprint)
      else none := by
  simp only [heard, hrow]

variable {pair : String × String}

/-- A signal is of one item only. -/
theorem heard_create_other {found : Item} (hs : s.Sound) (hpair : m.source = some pair)
    (hfound : s.itemOfSource pair = some (id, found)) (hne : other ≠ id)
    (hsame : (t.items.lookup other).isSome = (s.items.lookup other).isSome) :
    s.heard (.create m newId commentId now) t other = none := by
  cases hrow : s.items.lookup other with
  | none =>
    rw [hrow] at hsame
    simp [heard, hrow, hsame]
  | some row =>
    rw [heard_create hrow, if_neg]
    intro hheard
    rw [Bool.and_eq_true, decide_eq_true_iff, hpair] at hheard
    obtain ⟨hitem, hsource⟩ := itemOfSource_ok hfound
    have hheldFound := held_eq hitem
    have hheldOther := held_eq hrow
    rw [hsource] at hheldFound
    rw [← hheard.2] at hheldOther
    exact hne (hs.oneHolder other id pair _ _ hheldOther hheldFound)

theorem heard_create_item (hvalid : m.isValid = true) (hpair : m.source = some pair)
    (hfound : s.itemOfSource pair = some (id, row)) :
    s.heard (.create m newId commentId now) t id = some (.signal m.fingerprint) := by
  obtain ⟨hrow, hsource⟩ := itemOfSource_ok hfound
  rw [heard_create hrow, if_pos]
  simp [hvalid, hpair, hsource]

/-- Whether a signal repeats is told by the tally. -/
theorem Agrees.repeats (h : s.Agrees id k) (hrow : s.items.lookup id = some row)
    (fingerprint : Option String) :
    (fingerprint.any fun text => (s.signals.lookup (id, text)).isSome) = k.repeats fingerprint := by
  cases fingerprint with
  | none => rfl
  | some text => exact (h row hrow).2 text

/-- A repeat changes nothing but the update time. -/
theorem repeatSignal_repeat
    (hseen : (m.fingerprint.any fun text => (s.signals.lookup (id, text)).isSome) = true) :
    s.repeatSignal id row m commentId now =
      (s.setItem id { row with updatedAt := now }, .grouped) := by
  rw [repeatSignal, if_pos hseen]

theorem repeatSignal_fresh
    (hnew : (m.fingerprint.any fun text => (s.signals.lookup (id, text)).isSome) = false) :
    (s.repeatSignal id row m commentId now).1.items =
        s.items.insert id (repeated row m.priority now).1 ∧
      (s.repeatSignal id row m commentId now).1.signals =
        (s.addSignal id m.fingerprint now).signals := by
  have hitems : (s.addSignal id m.fingerprint now).items = s.items := by
    cases m.fingerprint <;> rfl
  unfold repeatSignal
  rw [hnew]
  dsimp only
  split_ifs
  all_goals first | contradiction | skip
  · exact ⟨by rw [← hitems]; rfl, rfl⟩
  · exact ⟨by rw [← hitems]; rfl, rfl⟩

theorem eventCount_repeated (row : Item) (priority : Priority) (now : ℕ) :
    (repeated row priority now).1.eventCount = row.eventCount + 1 := by
  unfold repeated
  cases row.status <;> rfl

/-- A signal is recorded with the item that holds its source. -/
theorem recorded_signal (hs : s.Sound) (hvalid : m.isValid = true) (hpair : m.source = some pair)
    (hfound : s.itemOfSource pair = some (id, row)) :
    s.Recorded (.create m newId commentId now) (s.repeatSignal id row m commentId now).1 := by
  obtain ⟨hrow, -⟩ := itemOfSource_ok hfound
  have hheard : s.heard (.create m newId commentId now)
      (s.repeatSignal id row m commentId now).1 id = some (.signal m.fingerprint) :=
    heard_create_item hvalid hpair hfound
  have hquiet (items : Table Uuid Item) (new : Item) (hitems : items = s.items.insert id new)
      (hstate : (s.repeatSignal id row m commentId now).1.items = items) (other : Uuid)
      (hne : other ≠ id) : s.heard (.create m newId commentId now)
        (s.repeatSignal id row m commentId now).1 other = none := by
    refine heard_create_other hs hpair hfound hne ?_
    rw [hstate, hitems, Table.lookup_insert, if_neg hne]
  cases hseen : m.fingerprint.any fun text => (s.signals.lookup (id, text)).isSome with
  | true =>
    have hstate := @repeatSignal_repeat s id row now m commentId hseen
    have hitems : (s.repeatSignal id row m commentId now).1.items =
        s.items.insert id { row with updatedAt := now } := by rw [hstate]; rfl
    have hsignals : (s.repeatSignal id row m commentId now).1.signals =
        (s.addSignal id none now).signals := by rw [hstate]; rfl
    refine recorded_write hitems hsignals (hquiet _ _ rfl hitems) ?_
    intro _ k hagrees
    rw [hheard]
    have hkept : k.hears (.signal m.fingerprint) = k := by
      rw [Tally.hears, ← hagrees.repeats hrow, if_pos hseen]
    change Agrees _ id (k.hears (.signal m.fingerprint))
    rw [hkept]
    refine hagrees.of_same ?_ fun text => by rw [hsignals]; rfl
    rw [hitems, Table.lookup_insert, if_pos rfl, hrow]
    rfl
  | false =>
    obtain ⟨hitems, hsignals⟩ :=
      @repeatSignal_fresh s id row now m commentId hseen
    refine recorded_write hitems hsignals (hquiet _ _ rfl hitems) ?_
    intro _ k hagrees
    rw [hheard]
    have hcounted : k.hears (.signal m.fingerprint) =
        ⟨m.fingerprint.toList ++ k.seen, k.fresh + 1⟩ := by
      have hnew : ¬ k.repeats m.fingerprint = true := by
        rw [← hagrees.repeats hrow, hseen]
        decide
      rw [Tally.hears, if_neg hnew]
    change Agrees _ id (k.hears (.signal m.fingerprint))
    rw [hcounted]
    obtain ⟨hevents, hknown⟩ := hagrees row hrow
    intro new hnew
    rw [hitems, Table.lookup_insert, if_pos rfl, Option.some.injEq] at hnew
    constructor
    · rw [← hnew, eventCount_repeated, hevents]
      exact Nat.add_assoc 1 k.fresh 1
    · intro text
      rw [hsignals, Bool.eq_iff_iff, isSome_addSignal, hknown text]
      simp [or_comm]

/-- A close by the source forgets the fingerprints of its item. -/
theorem recorded_close (hs : s.Sound) (pair : String × String) (actor : String)
    (note : Option String) (commentId : Uuid) (now : ℕ) :
    s.Recorded (.closeBySource pair actor note commentId now)
      (s.closeBySource pair actor note commentId now).1 := by
  cases hfound : s.itemOfSource pair with
  | none =>
    have hstate : (s.closeBySource pair actor note commentId now).1 = s := by
      rw [closeBySource, hfound]
    rw [hstate]
    refine (Quiet.refl s).recorded fun id => ?_
    cases hrow : s.items.lookup id with
    | none => simp [heard, hrow]
    | some row =>
      have hne : row.source ≠ some pair := by
        intro hsource
        have hheld := held_eq hrow
        rw [hsource] at hheld
        exact not_held_of_itemOfSource hfound id row.projectId hheld
      simp [heard, hrow, hne]
  | some found =>
    obtain ⟨id, row⟩ := found
    obtain ⟨hrow, hsource⟩ := itemOfSource_ok hfound
    set t := (s.closeBySource pair actor note commentId now).1 with ht
    have hsignals : t.signals = s.signals.deleteWhere fun k _ => k.1 = id := by
      rw [ht, closeBySource, hfound]
      dsimp only
      split_ifs <;> rfl
    have hcounts (other : Uuid) : (t.items.lookup other).map Item.eventCount =
        (s.items.lookup other).map Item.eventCount := by
      rw [ht, closeBySource, hfound]
      dsimp only
      split_ifs
      · rfl
      · exact (@quiet_setItem s id row (withStatus row .done none now) hrow rfl).counts other
    have hthere (other : Uuid) :
        (t.items.lookup other).isSome = (s.items.lookup other).isSome := by
      have hsome := congrArg Option.isSome (hcounts other)
      rw [Option.isSome_map, Option.isSome_map] at hsome
      exact hsome
    have hkept (other : Uuid) (text : String) : (t.signals.lookup (other, text)).isSome = true ↔
        (s.signals.lookup (other, text)).isSome = true ∧ other ≠ id := by
      rw [hsignals, Table.isSome_deleteWhere]
      simp
    constructor
    · intro hheld other text hsome
      rw [hthere other]
      exact hheld other text ((hkept other text).mp hsome).1
    · intro _ other k hagrees
      by_cases heq : other = id
      · subst heq
        have hheard : s.heard (.closeBySource pair actor note commentId now) t other =
            some .closed := by simp [heard, hrow, hsource]
        rw [hheard]
        change t.Agrees other ⟨[], k.fresh⟩
        intro new hnew
        have hcount := hcounts other
        rw [hnew, hrow] at hcount
        refine ⟨(Option.some.inj hcount).trans (hagrees row hrow).1, fun text => ?_⟩
        rw [Bool.eq_iff_iff, hkept]
        simp
      · have hheard : s.heard (.closeBySource pair actor note commentId now) t other = none := by
          cases hother : s.items.lookup other with
          | none =>
            have hgone := hthere other
            rw [hother] at hgone
            simp [heard, hother, hgone]
          | some row' =>
            have hne : row'.source ≠ some pair := by
              intro hsame
              have hheldFound := held_eq hrow
              have hheldOther := held_eq hother
              rw [hsource] at hheldFound
              rw [hsame] at hheldOther
              exact heq (hs.oneHolder other id pair _ _ hheldOther hheldFound)
            simp [heard, hother, hne]
        rw [hheard]
        refine hagrees.of_same (hcounts other) fun text => ?_
        rw [Bool.eq_iff_iff, hkept]
        simp [heq]

/-- A link is first written beside the items and their fingerprints. -/
theorem insertLink_same {sourceRef : String} {project : Option RecordRef}
    (h : s.insertLink sourceRef itemRef project now = .ok t) :
    t.items = s.items ∧ t.signals = s.signals := by
  unfold insertLink at h
  by_cases htaken : (s.links.existsRow fun _ l => l.itemRef = itemRef) = true
  · rw [if_pos htaken] at h
    cases h
  · rw [if_neg htaken] at h
    obtain rfl := Except.ok.inj h
    exact ⟨rfl, rfl⟩

/-- A deleted item takes its fingerprints along. -/
theorem recorded_delete (h : s.deleteItem id revision now = .ok t) :
    s.Recorded (.deleteItem id revision now) t := by
  unfold deleteItem at h
  split at h
  · cases h
  split_ifs at h
  split at h
  · cases h
  next marked hmarked =>
  obtain rfl := Except.ok.inj h
  obtain ⟨hquiet, hitems⟩ := itemDeleted_quiet hmarked
  have hsignals : marked.signals = s.signals.deleteWhere fun k _ => k.1 = id := hquiet.signals
  have hrows : marked.items = s.items := hitems
  have hkept (other : Uuid) (text : String) : (marked.signals.lookup (other, text)).isSome = true ↔
      (s.signals.lookup (other, text)).isSome = true ∧ other ≠ id := by
    rw [hsignals, Table.isSome_deleteWhere]
    simp
  have hleft {other : Uuid} (hne : other ≠ id) :
      (marked.items.erase id).lookup other = s.items.lookup other := by
    rw [hrows, AList.lookup_erase_ne hne]
  constructor
  · intro hheld other text hsome
    obtain ⟨hold, hne⟩ := (hkept other text).mp hsome
    change ((marked.items.erase id).lookup other).isSome = true
    rw [hleft hne]
    exact hheld other text hold
  · intro _ other k hagrees
    have hheard : s.heard (.deleteItem id revision now)
        { marked with items := marked.items.erase id } other = none := by
      cases hother : s.items.lookup other with
      | none =>
        have hnone : (marked.items.erase id).lookup other = none := by
          by_cases heq : other = id
          · rw [heq, AList.lookup_erase]
          · rw [hleft heq, hother]
        simp [heard, hother, hnone]
      | some row => simp [heard, hother]
    rw [hheard]
    intro row hrow
    by_cases heq : other = id
    · subst heq
      change (marked.items.erase other).lookup other = some row at hrow
      rw [AList.lookup_erase] at hrow
      cases hrow
    · refine hagrees.of_same ?_ (fun text => ?_) row hrow
      · exact congrArg _ (hleft heq)
      · rw [Bool.eq_iff_iff]
        change (marked.signals.lookup (other, text)).isSome = true ↔ _
        rw [hkept]
        simp [heq]

/-- A call that is refused, or finds nothing to do, tells no item anything. -/
theorem recorded_same (hheard : ∀ id row, s.items.lookup id = some row → s.heard a s id = none) :
    s.Recorded a s := by
  refine (Quiet.refl s).recorded fun id => ?_
  cases hrow : s.items.lookup id with
  | none => simp [heard, hrow]
  | some row => exact hheard id row hrow

/-- A source that no item holds tells no item anything. -/
theorem heard_create_free (hfree : m.source.bind s.itemOfSource = none)
    (hrow : s.items.lookup id = some row) :
    s.heard (.create m newId commentId now) t id = none := by
  rw [heard_create hrow, if_neg]
  intro hheard
  rw [Bool.and_eq_true, Bool.and_eq_true, decide_eq_true_iff] at hheard
  obtain ⟨⟨-, hsome⟩, hsame⟩ := hheard
  obtain ⟨pair, hpair⟩ := Option.isSome_iff_exists.mp hsome
  rw [hsame, hpair] at hfree
  have hheld := held_eq hrow
  rw [hpair] at hheld
  exact not_held_of_itemOfSource hfree id row.projectId hheld

theorem recorded_create (hs : s.Sound) (hfresh : s.items.lookup newId = none) :
    s.Recorded (.create m newId commentId now) (s.after (.create m newId commentId now)) := by
  by_cases hvalid : m.isValid = true
  case neg =>
    have hstate : s.after (.create m newId commentId now) = s := by
      simp [after, call, create, hvalid, Except.map]
    rw [hstate]
    refine recorded_same fun id row hrow => ?_
    rw [heard_create hrow, if_neg]
    simp [hvalid]
  cases hfound : m.source.bind s.itemOfSource with
  | some found =>
    obtain ⟨id, row⟩ := found
    obtain ⟨pair, hpair, hholder⟩ := Option.bind_eq_some_iff.mp hfound
    have hstate : s.after (.create m newId commentId now) =
        (s.repeatSignal id row m commentId now).1 := by
      simp only [after, call, create, if_pos hvalid, hfound]
      rfl
    rw [hstate]
    exact recorded_signal hs hvalid hpair hholder
  | none =>
    cases hinsert : s.insertItem m newId now with
    | error refusal =>
      have hstate : s.after (.create m newId commentId now) = s := by
        simp only [after, call, create, if_pos hvalid, hfound, hinsert]
        rfl
      rw [hstate]
      exact recorded_same fun id row hrow => heard_create_free hfound hrow
    | ok made =>
      have hstate : s.after (.create m newId commentId now) = made.1 := by
        simp only [after, call, create, if_pos hvalid, hfound, hinsert]
        rfl
      rw [hstate]
      unfold insertItem at hinsert
      split at hinsert
      · cases hinsert
      split_ifs at hinsert
      obtain rfl := Except.ok.inj hinsert
      have hitems : ((((s.draw newId).setItem newId (createdItem m now)).addSignal newId
          m.fingerprint now).publish (.item .created (ref "item" newId) 1)).items =
            s.items.insert newId (createdItem m now) := by
        cases m.fingerprint <;> rfl
      refine @recorded_made _ _ _ now _ (.create m newId commentId now) hfresh rfl hitems ?_ ?_
      · change _ = (s.addSignal newId m.fingerprint now).signals
        cases m.fingerprint <;> rfl
      · intro other hne
        cases hrow : s.items.lookup other with
        | none =>
          have hleft := congrArg (fun items => (AList.lookup other items).isSome) hitems
          simp only [Table.lookup_insert, if_neg hne, hrow] at hleft
          simp [heard, hrow, hleft]
        | some row => exact heard_create_free hfound hrow

theorem recorded_external {m : ExternalItemCreate} (hfresh : s.items.lookup id = none) :
    s.Recorded (.createExternal m id now) (s.after (.createExternal m id now)) := by
  have hnone (other : Uuid) (row : Item) (u : CurrentState)
      (hrow : s.items.lookup other = some row) :
      s.heard (.createExternal m id now) u other = none := by simp [heard, hrow]
  cases hcall : s.createExternal m id now with
  | error refusal =>
    have hstate : s.after (.createExternal m id now) = s := by
      simp only [after, call, hcall]
      rfl
    rw [hstate]
    exact recorded_same fun other row hrow => hnone other row s hrow
  | ok made =>
    obtain ⟨t, r⟩ := made
    have hstate : s.after (.createExternal m id now) = t := by
      simp only [after, call, hcall]
      rfl
    rw [hstate]
    unfold createExternal at hcall
    split at hcall
    · split_ifs at hcall
      obtain ⟨rfl, -⟩ := Prod.mk.inj (Except.ok.inj hcall)
      exact recorded_same fun other row hrow => hnone other row s hrow
    split at hcall
    · split at hcall
      · cases hcall
      next linked hlinked =>
      obtain ⟨rfl, -⟩ := Prod.mk.inj (Except.ok.inj hcall)
      obtain ⟨hitems, hsignals⟩ := insertLink_same hlinked
      refine (Quiet.of_eq hitems hsignals).recorded fun other => ?_
      cases hrow : s.items.lookup other with
      | none => simp [heard, hrow, hitems]
      | some row => exact hnone other row _ hrow
    · split at hcall
      · cases hcall
      split at hcall
      · cases hcall
      next linked hlinked =>
      obtain ⟨rfl, -⟩ := Prod.mk.inj (Except.ok.inj hcall)
      obtain ⟨hitems, hsignals⟩ := insertLink_same hlinked
      have hmade : (linked.publish (.item .created (ref "item" id) 1)).items =
          s.items.insert id (externalItem m now) := hitems
      refine @recorded_made _ _ _ now _ _ hfresh (rfl : (externalItem m now).eventCount = 1) hmade
        hsignals ?_
      intro other hne
      cases hrow : s.items.lookup other with
      | none => simp [heard, hrow, hmade, hne]
      | some row => exact hnone other row _ hrow

/-- Every call records what its item heard. -/
theorem recorded_step (hs : s.Sound) (h : s.step a = some t) : s.Recorded a t := by
  unfold step at h
  split_ifs at h with hdrawn
  obtain rfl := Option.some.inj h
  rw [List.all_eq_true] at hdrawn
  have hfresh (id : Uuid) (hid : id ∈ a.draws) : s.items.lookup id = none := by
    have hnot : id ∉ s.drawn := by simpa using hdrawn id hid
    by_contra hthere
    exact hnot (hs.heldDrawn id fun hnone => hthere (held_eq_none.mp hnone))
  by_cases hquiet : a.isQuiet = true
  · cases hcall : s.call a with
    | error refusal =>
      have hstate : s.after a = s := by rw [after, hcall]
      rw [hstate]
      exact (Quiet.refl s).recorded fun id => heard_quiet hquiet rfl
    | ok t =>
      have hstate : s.after a = t := by rw [after, hcall]
      rw [hstate]
      have hkept := call_quiet hquiet hcall
      exact hkept.recorded fun id => heard_quiet hquiet (hkept.isSome id)
  cases a with
  | create m id commentId now => exact recorded_create hs (hfresh id List.mem_cons_self)
  | createExternal m id now => exact recorded_external (hfresh id List.mem_cons_self)
  | closeBySource pair actor note commentId now =>
    exact recorded_close hs pair actor note commentId now
  | deleteItem id revision now =>
    cases hcall : s.deleteItem id revision now with
    | error refusal =>
      have hstate : s.after (.deleteItem id revision now) = s := by simp only [after, call, hcall]
      rw [hstate]
      exact recorded_same fun other row hrow => by simp [heard, hrow]
    | ok t =>
      have hstate : s.after (.deleteItem id revision now) = t := by simp only [after, call, hcall]
      rw [hstate]
      exact recorded_delete hcall
  | _ => exact absurd rfl hquiet

/-! ### Runs -/

/-- What holds at the end of a run: the items agree with what they heard. -/
theorem agrees_of_run {acts : List CurrentAction} (hreach : currentMachine.Reachable s)
    (hheld : s.SignalsHeld) (history : Uuid → List Heard)
    (hagrees : ∀ id, s.Agrees id (tallyOf (history id)))
    (hrun : currentMachine.run s acts = some t) :
    ∀ id, t.Agrees id (tallyOf (history id ++ s.hearings acts id)) := by
  induction acts generalizing s history with
  | nil =>
    obtain rfl := Option.some.inj hrun
    intro id
    rw [hearings, List.append_nil]
    exact hagrees id
  | cons a acts ih =>
    obtain ⟨r, hstep, hrest⟩ := Option.bind_eq_some_iff.mp hrun
    have hrecorded := recorded_step (sound_of_reachable hreach) hstep
    have hnext (id : Uuid) : r.Agrees id (tallyOf (history id ++ (s.heard a r id).toList)) := by
      rw [tallyOf, List.foldl_append]
      exact hrecorded.agrees hheld id _ (hagrees id)
    have hend := ih (hreach.step hstep) (hrecorded.held hheld)
      (fun id => history id ++ (s.heard a r id).toList) hnext hrest
    intro id
    have hsplit : s.hearings (a :: acts) id = (s.heard a r id).toList ++ r.hearings acts id := by
      have hstate : s.step a = some r := hstep
      rw [hearings, hstate]
    rw [hsplit, ← List.append_assoc]
    exact hend id

end CurrentState

/-- What a signal makes of the row of its item. -/
structure Folded (row new : Item) : Prop where
  title : new.title = row.title
  body : new.body = row.body
  area : new.area = row.area
  projectId : new.projectId = row.projectId
  priority : priorityRank new.priority ≤ priorityRank row.priority

theorem priorityRank_higher (current offered : Priority) :
    priorityRank (higher current offered) ≤ priorityRank current := by
  unfold higher
  split_ifs with h
  · exact h.le
  · exact le_refl _

theorem folded_repeated (row : Item) (priority : Priority) (now : ℕ) :
    Folded row (CurrentState.repeated row priority now).1 := by
  have hpriority := priorityRank_higher row.priority priority
  unfold CurrentState.repeated
  cases row.status <;> exact ⟨rfl, rfl, rfl, rfl, hpriority⟩

theorem opened_repeated (row : Item) (priority : Priority) (now : ℕ) :
    (CurrentState.repeated row priority now).1.status ≠ .done ∧
      (CurrentState.repeated row priority now).1.status ≠ .snoozed := by
  unfold CurrentState.repeated
  cases row.status <;> simp

open CurrentState in
/-- What holds of the signals of a run. -/
structure SignalLaw (s₀ : CurrentState) (acts : List CurrentAction) (s : CurrentState) : Prop where
  /-- An item counts itself and its signals that were no repeats. -/
  counts : ∀ id row, s.items.lookup id = some row →
    row.eventCount = 1 + (tallyOf (s₀.hearings acts id)).fresh
  /-- A signal finds the item of its source: it changes no text and no place of it, and its
  priority is not lowered. A signal that is no repeat leaves the item open or waiting, and a
  repeat changes nothing but the update time. -/
  signals : ∀ id row m newId commentId now, s.items.lookup id = some row →
    m.isValid = true → m.source.isSome = true → m.source = row.source →
      ∃ new, (s.after (.create m newId commentId now)).items.lookup id = some new ∧
        Folded row new ∧
        if (tallyOf (s₀.hearings acts id)).repeats m.fingerprint then
          s.after (.create m newId commentId now) = s.setItem id { row with updatedAt := now }
        else new.status ≠ .done ∧ new.status ≠ .snoozed

open CurrentState in
/-- In every run of calls on Current, the signals of a source are folded into its item. -/
theorem signals_folded {s₀ s : CurrentState} {acts : List CurrentAction} (hbegins : s₀.Begins)
    (hrun : currentMachine.run s₀ acts = some s) : SignalLaw s₀ acts s := by
  have hagrees : ∀ id, s.Agrees id (tallyOf (s₀.hearings acts id)) := by
    have hempty : ∀ id, s₀.items.lookup id = none := by
      intro id
      rw [hbegins.items]
      rfl
    have hheld : s₀.SignalsHeld := by
      intro id text hsome
      rw [hbegins.signals] at hsome
      cases hsome
    have hstart : ∀ id, s₀.Agrees id (tallyOf []) := by
      intro id row hrow
      rw [hempty id] at hrow
      cases hrow
    exact agrees_of_run ⟨s₀, hbegins, Machine.Reaches.refl s₀⟩ hheld (fun _ => []) hstart hrun
  have hsound := sound_of_reachable (Machine.reachable_of_run hbegins hrun)
  constructor
  case counts =>
    intro id row hrow
    exact (hagrees id row hrow).1
  case signals =>
    intro id row m newId commentId now hrow hvalid hsome hsource
    obtain ⟨pair, hpair⟩ := Option.isSome_iff_exists.mp hsome
    have hfound : m.source.bind s.itemOfSource = some (id, row) := by
      rw [hpair, Option.bind_some]
      cases hholder : s.itemOfSource pair with
      | none =>
        have hheld := held_eq hrow
        rw [← hsource, hpair] at hheld
        exact absurd hheld (not_held_of_itemOfSource hholder id row.projectId)
      | some found =>
        obtain ⟨other, held⟩ := found
        obtain ⟨hother, hotherSource⟩ := itemOfSource_ok hholder
        have hheldRow := held_eq hrow
        have hheldOther := held_eq hother
        rw [← hsource, hpair] at hheldRow
        rw [hotherSource] at hheldOther
        obtain rfl := hsound.oneHolder id other pair _ _ hheldRow hheldOther
        rw [Option.some.inj (hrow.symm.trans hother)]
    have hstate : s.after (.create m newId commentId now) =
        (s.repeatSignal id row m commentId now).1 := by
      simp only [after, call, create, if_pos hvalid, hfound]
      rfl
    have hrepeats := (hagrees id).repeats hrow m.fingerprint
    rw [hstate, ← hrepeats]
    cases hseen : m.fingerprint.any fun text => (s.signals.lookup (id, text)).isSome with
    | true =>
      refine ⟨{ row with updatedAt := now }, ?_, ⟨rfl, rfl, rfl, rfl, le_refl _⟩, ?_⟩
      · rw [repeatSignal_repeat hseen]
        simp [setItem]
      · rw [if_pos rfl, repeatSignal_repeat hseen]
    | false =>
      refine ⟨(repeated row m.priority now).1, ?_, folded_repeated row m.priority now, ?_⟩
      · rw [(repeatSignal_fresh hseen).1, Table.lookup_insert, if_pos rfl]
      · exact opened_repeated row m.priority now

section Sample

private def alert (fingerprint : String) : ItemCreate :=
  ⟨"Disk full", "", .normal, none, none, none, .alert, some ("alert", "disk"), some fingerprint⟩

private def beforeAlerts : CurrentState := ⟨∅, ∅, ∅, ∅, ∅, ∅, ∅, [], ∅⟩

/-- An alert comes twice, its source closes the item, and the same alert comes again. -/
private def alerts : List CurrentAction :=
  [.create (alert "a") 1 2 10, .create (alert "a") 3 4 20,
    .closeBySource ("alert", "disk") "service" none 5 30, .create (alert "a") 6 7 40]

/-- Two alerts with one fingerprint are two events of one item. -/
theorem signals_folded_sample : ∃ s,
    (s.items.lookup 1).map Item.eventCount = some 2 ∧ SignalLaw beforeAlerts alerts s := by
  have hrun : (currentMachine.run beforeAlerts alerts).map
      (fun s => (s.items.lookup 1).map Item.eventCount) = some (some 2) := by decide +kernel
  obtain ⟨s, hreached, hcount⟩ := Option.map_eq_some_iff.mp hrun
  have hbegins : beforeAlerts.Begins := by constructor <;> rfl
  exact ⟨s, hcount, signals_folded hbegins hreached⟩

end Sample

end Rheostream.Current
