import Rheostream.Recallatron.MemoryInvariant

/-!
# What becomes of a memory

Along every run a memory keeps what it is and who may see it, its revision names its content, and
each revision is acted on once. It is announced once when it is recorded and once when it is
invalidated, and its successor is newer than it.
-/

namespace Rheostream.Recallatron

open Handler

/-! ### Rows over a run -/

/-- What a row may become. The revision names the content, up to a successor that is removed. -/
structure KeptMemory.Became (m m' : KeptMemory) : Prop where
  kind : m'.kind = m.kind
  audience : m'.audience = m.audience
  purposes : m'.stored.purposes = m.stored.purposes
  links : m'.stored.links = m.stored.links
  mentions : m'.mentions = m.mentions
  recordedAt : m'.stored.row.recordedAt = m.stored.row.recordedAt
  revision : m.revision ≤ m'.revision
  content : m'.revision = m.revision →
    m'.stored.row.title = m.stored.row.title ∧ m'.body = m.body ∧ m'.correctedAt = m.correctedAt ∧
      m'.stored.row.invalidatedAt = m.stored.row.invalidatedAt ∧
      m'.stored.row.invalidationReason = m.stored.row.invalidationReason
  successor : m'.revision = m.revision → ∀ successor,
    m'.stored.row.supersededById = some successor → m.stored.row.supersededById = some successor
  ended : m.stored.row.invalidationReason ≠ none → m'.revision = m.revision

section Rows

variable {b b₁ b' : MemoryBooks} {id j : Uuid} {m m' m'' : KeptMemory}

theorem KeptMemory.became_refl (m : KeptMemory) : m.Became m :=
  ⟨rfl, rfl, rfl, rfl, rfl, rfl, le_refl _, fun _ => ⟨rfl, rfl, rfl, rfl, rfl⟩, fun _ _ h => h,
    fun _ => rfl⟩

theorem KeptMemory.Became.trans (h : m.Became m') (h' : m'.Became m'') : m.Became m'' := by
  have hsame (heq : m''.revision = m.revision) :
      m'.revision = m.revision ∧ m''.revision = m'.revision := by
    have hle := h.revision
    have hle' := h'.revision
    omega
  constructor
  case kind => exact h'.kind.trans h.kind
  case audience => exact h'.audience.trans h.audience
  case purposes => exact h'.purposes.trans h.purposes
  case links => exact h'.links.trans h.links
  case mentions => exact h'.mentions.trans h.mentions
  case recordedAt => exact h'.recordedAt.trans h.recordedAt
  case revision => exact h.revision.trans h'.revision
  case content =>
    intro heq
    obtain ⟨hfirst, hlast⟩ := hsame heq
    obtain ⟨htitle, hbody, hcorrected, hat, hreason⟩ := h.content hfirst
    obtain ⟨htitle', hbody', hcorrected', hat', hreason'⟩ := h'.content hlast
    exact ⟨htitle'.trans htitle, hbody'.trans hbody, hcorrected'.trans hcorrected, hat'.trans hat,
      hreason'.trans hreason⟩
  case successor =>
    intro heq successor hsuccessor
    obtain ⟨hfirst, hlast⟩ := hsame heq
    exact h.successor hfirst successor (h'.successor hlast successor hsuccessor)
  case ended =>
    intro hreason
    have hfirst := h.ended hreason
    have hkept := (h.content hfirst).2.2.2.2
    exact (h'.ended (by rwa [hkept])).trans hfirst

/-- A row at its next revision, where it has no reason yet. -/
theorem KeptMemory.became_advanced {set : KeptMemory → KeptMemory}
    (hkind : (set m).kind = m.kind) (haudience : (set m).audience = m.audience)
    (hpurposes : (set m).stored.purposes = m.stored.purposes)
    (hlinks : (set m).stored.links = m.stored.links) (hmentions : (set m).mentions = m.mentions)
    (hrecorded : (set m).stored.row.recordedAt = m.stored.row.recordedAt)
    (hreason : m.stored.row.invalidationReason = none) : m.Became (m.advanced set) := by
  have hnext : (m.advanced set).revision = m.revision + 1 := rfl
  refine ⟨hkind, haudience, hpurposes, hlinks, hmentions, hrecorded, by omega, fun heq => ?_,
    fun heq => ?_, fun hsome => absurd hreason hsome⟩
  · omega
  · omega

theorem KeptMemory.became_marked (reason : InvalidationReason) (now : ℤ) (m : KeptMemory) :
    m.Became (m.marked reason now) := by
  unfold KeptMemory.marked
  split_ifs with hreason
  · exact KeptMemory.became_advanced rfl rfl rfl rfl rfl rfl hreason
  · exact m.became_refl

theorem KeptMemory.became_unpoint (gone : Finset Uuid) (m : KeptMemory) :
    m.Became (m.unpoint gone) := by
  have hrow : (m.unpoint gone).stored.row = { m.stored.row with
      supersededById := (m.unpoint gone).stored.row.supersededById } := by
    simp only [KeptMemory.unpoint, StoredMemory.unpoint]
    split_ifs <;> rfl
  have hpurposes : (m.unpoint gone).stored.purposes = m.stored.purposes := by
    simp only [KeptMemory.unpoint, StoredMemory.unpoint]
    split_ifs <;> rfl
  refine ⟨rfl, ?_, hpurposes, KeptMemory.unpoint_links gone m, rfl, ?_, le_refl _, fun _ => ?_,
    fun _ successor hsuccessor => (m.unpoint_successor gone hsuccessor).1, fun _ => rfl⟩
  · rw [KeptMemory.audience, hrow]
    rfl
  · rw [hrow]
  · rw [hrow]
    exact ⟨rfl, rfl, rfl, rfl, rfl⟩

/-- What is there and is not new was there. -/
structure Carried (b b' : MemoryBooks) : Prop where
  nextId : b.nextId ≤ b'.nextId
  rows : ∀ j m', b'.memories.lookup j = some m' → j < b.nextId →
    ∃ m, b.memories.lookup j = some m ∧ m.Became m'

theorem Carried.refl (b : MemoryBooks) : Carried b b :=
  ⟨le_refl _, fun _ m' hm' _ => ⟨m', hm', m'.became_refl⟩⟩

theorem Carried.trans (h : Carried b b₁) (h' : Carried b₁ b') : Carried b b' where
  nextId := h.nextId.trans h'.nextId
  rows j m'' hm'' hj := by
    obtain ⟨m', hm', hbecame'⟩ := h'.rows j m'' hm'' (hj.trans_le h.nextId)
    obtain ⟨m, hm, hbecame⟩ := h.rows j m' hm' hj
    exact ⟨m, hm, hbecame.trans hbecame'⟩

theorem Wrote.carried {N : KeptMemory → KeptMemory → Prop} (h : Wrote N b b' id m) :
    Carried b b' where
  nextId := h.fresh.trans h.next.le
  rows j m' hm' hj := by
    rcases h.lookup hm' with ⟨rfl, -⟩ | ⟨-, hold⟩
    · exact absurd hj (not_lt.mpr h.fresh)
    · exact ⟨m', hold, m'.became_refl⟩

theorem Struck.carried {set : KeptMemory → KeptMemory} {events : List MemoryEvent}
    {reason : InvalidationReason} {now : ℤ} {affected : List Uuid}
    (hset : ∀ m, b.memories.lookup id = some m → m.Became (m.advanced set))
    (h : Struck set events reason now id affected b b') : Carried b b' where
  nextId := h.nextId.ge
  rows j m' hm' _ := by
    rw [h.rows] at hm'
    obtain ⟨m, hm, rfl⟩ := Option.map_eq_some_iff.mp hm'
    refine ⟨m, hm, ?_⟩
    split_ifs with hj hmarked
    · subst hj
      exact hset m hm
    · exact m.became_marked reason now
    · exact m.became_refl

theorem Erased.carried {gone : Finset Uuid} (h : Erased b b' gone) : Carried b b' where
  nextId := h.nextId.ge
  rows j m' hm' _ := by
    obtain ⟨-, m, hm, rfl⟩ := h.old hm'
    exact ⟨m, hm, m.became_unpoint gone⟩

/-- A current memory of a sound table has no reason. -/
theorem MemoryBooks.Sound.reason_none (hsound : b.Sound) (hm : b.memories.lookup id = some m)
    (hcurrent : m.IsCurrent) : m.stored.row.invalidationReason = none :=
  (hsound.paired id m hm).isCurrent_iff.mp hcurrent

theorem BooksStep.carried {a : MemoryAction} (hsound : b.Sound) (h : BooksStep b a b') :
    Carried b b' := by
  cases h with
  | refused => exact .refl b
  | remembered input refs _ id m hwrote => exact hwrote.carried
  | derived input sources _ id m hwrote => exact hwrote.carried
  | accepted kind unit _ id m hwrote => exact hwrote.carried
  | corrected id expected title body _ m now hm hrevision hcurrent hstruck =>
    refine hstruck.carried fun own hown => ?_
    obtain rfl : own = m := Option.some.inj (hown.symm.trans hm)
    exact KeptMemory.became_advanced rfl rfl rfl rfl rfl rfl (hsound.reason_none hm hcurrent)
  | superseded id expected r _ m now hm hrevision hcurrent hstruck =>
    have hwrote := wrote_replaced r now hsound.toDrawn hm hcurrent
    refine hwrote.carried.trans (hstruck.carried fun own hown => ?_)
    obtain rfl : own = m :=
      Option.some.inj (hown.symm.trans (hwrote.kept hsound.toDrawn hm))
    exact KeptMemory.became_advanced rfl rfl rfl rfl rfl rfl (hsound.reason_none hm hcurrent)
  | deleted id approved _ m gone hm hrevision huprooted hid => exact huprooted.toErased.carried
  | expired id _ gone huprooted hid => exact huprooted.toErased.carried
  | withdrawn target _ gone herased hclosed => exact herased.carried

/-- What a run carries from one state to another. -/
theorem carried_of_reaches {s t : MemoryBooks} (hs : memoryMachine.Reachable s)
    (hrun : memoryMachine.Reaches s t) : Carried s t := by
  refine hs.stable (P := fun t => Carried s t) (fun u a v hu hcarried hstep => ?_) (.refl s) hrun
  obtain rfl := Option.some.inj hstep
  have hsound := sound_of_reachable hu
  exact hcarried.trans ((booksStep_of_run hsound.toDrawn a.1 a.2).carried hsound)

/-- A memory that is there at two times of a run. -/
theorem became_of_reaches {s t : MemoryBooks} (hs : memoryMachine.Reachable s)
    (hrun : memoryMachine.Reaches s t) (hm : s.memories.lookup id = some m)
    (hm' : t.memories.lookup id = some m') : m.Became m' := by
  have hold := (sound_of_reachable hs).ids id m hm
  obtain ⟨own, hown, hbecame⟩ := (carried_of_reaches hs hrun).rows id m' hm' hold
  obtain rfl : own = m := Option.some.inj (hown.symm.trans hm)
  exact hbecame

/-- An owner of a workspace in which nothing expires. -/
def ownerCall : MemoryCall :=
  ⟨["recallatron"], .owner, some 7, none, 100, some ⟨none⟩, fun _ => .unavailable, none⟩

/-- A note for the whole workspace that mentions one new entity. -/
def noteInput (title : String) : WriteInput :=
  ⟨"note", title, "", none, some {.respond}, [], [.create none none]⟩

/-- A note, with another one that is derived from it. -/
def derivedBooks : MemoryBooks :=
  (MemoryAction.derive (noteInput "second") [memoryReference 1]).run ownerCall
    ((MemoryAction.remember (noteInput "first") []).run ownerCall emptyBooks)

/-- The first note is superseded. -/
def supersededBooks : MemoryBooks :=
  (MemoryAction.supersede 1 1 ⟨"note", "third", ""⟩).run ownerCall derivedBooks

theorem reachable_derivedBooks : memoryMachine.Reachable derivedBooks := by
  have hinit : memoryMachine.Reachable emptyBooks := ⟨emptyBooks, rfl, .refl _⟩
  have hfirst := hinit.step (a := (ownerCall, .remember (noteInput "first") [])) rfl
  exact hfirst.step (a := (ownerCall, .derive (noteInput "second") [memoryReference 1])) rfl

theorem reaches_supersededBooks : memoryMachine.Reaches derivedBooks supersededBooks :=
  .single (a := (ownerCall, .supersede 1 1 ⟨"note", "third", ""⟩)) rfl

theorem first_derivedBooks : (derivedBooks.memories.lookup 1).isSome = true := by decide +kernel

theorem first_supersededBooks : (supersededBooks.memories.lookup 1).isSome = true := by
  decide +kernel

/-- The first memory of the sample, before and after its supersession. -/
theorem became_superseded : ((derivedBooks.memories.lookup 1).get first_derivedBooks).Became
    ((supersededBooks.memories.lookup 1).get first_supersededBooks) :=
  became_of_reaches reachable_derivedBooks reaches_supersededBooks (Option.some_get _).symm
    (Option.some_get _).symm

end Rows

/-! ### One call for each revision -/

/-- The memory and the revision that a call names. -/
def MemoryAction.names : MemoryAction → Option (Uuid × ℕ)
  | .correct id expected _ _ => some (id, expected)
  | .supersede id expected _ => some (id, expected)
  | .delete id approved => some (id, approved)
  | _ => none

section Revisions

variable {b b' : MemoryBooks} {id : Uuid} {expected : ℕ}

/-- A call that names a revision finds it, and leaves none of that number or an earlier one. -/
theorem BooksStep.spends {a : MemoryAction} (hdrawn : b.Drawn) (h : BooksStep b a b')
    (hnames : a.names = some (id, expected)) :
    b' = b ∨ (∃ m, b.memories.lookup id = some m ∧ m.revision = expected) ∧
      ∀ m', b'.memories.lookup id = some m' → expected < m'.revision := by
  have hset {b₁ : MemoryBooks} {set : KeptMemory → KeptMemory} {events : List MemoryEvent}
      {reason : InvalidationReason} {now : ℤ} {affected : List Uuid} {m : KeptMemory}
      (hm : b₁.memories.lookup id = some m) (hrevision : m.revision = expected)
      (hstruck : Struck set events reason now id affected b₁ b') :
      ∀ m', b'.memories.lookup id = some m' → expected < m'.revision := by
    intro m' hm'
    rw [hstruck.rows, hm, Option.map_some, if_pos rfl] at hm'
    obtain rfl := Option.some.inj hm'
    change expected < m.revision + 1
    omega
  cases h with
  | refused => exact .inl rfl
  | remembered => cases hnames
  | derived => cases hnames
  | accepted => cases hnames
  | corrected id' expected' title body _ m now hm hrevision hcurrent hstruck =>
    obtain ⟨rfl, rfl⟩ := Prod.mk.inj (Option.some.inj hnames)
    exact .inr ⟨⟨m, hm, hrevision⟩, hset hm hrevision hstruck⟩
  | superseded id' expected' r _ m now hm hrevision hcurrent hstruck =>
    obtain ⟨rfl, rfl⟩ := Prod.mk.inj (Option.some.inj hnames)
    have hkept := (wrote_replaced r now hdrawn hm hcurrent).kept hdrawn hm
    exact .inr ⟨⟨m, hm, hrevision⟩, hset hkept hrevision hstruck⟩
  | deleted id' approved _ m gone hm hrevision huprooted hid =>
    obtain ⟨rfl, rfl⟩ := Prod.mk.inj (Option.some.inj hnames)
    refine .inr ⟨⟨m, hm, hrevision⟩, fun m' hm' => ?_⟩
    rw [huprooted.rows, if_pos hid] at hm'
    cases hm'
  | expired => cases hnames
  | withdrawn => cases hnames

/-- A call that names a revision and is answered found it. -/
theorem MemoryAction.found_of_answers {a : MemoryAction} {c : MemoryCall} {u : MemoryWork}
    (hdrawn : b.Drawn) (hnames : a.names = some (id, expected))
    (h : (a.handler c).Answers ⟨b, .fresh⟩ () u) :
    ∃ m, b.memories.lookup id = some m ∧ m.revision = expected := by
  cases a with
  | correct id' expected' title body =>
    obtain ⟨rfl, rfl⟩ := Prod.mk.inj (Option.some.inj hnames)
    simp only [MemoryAction.handler, answers_bind, answers_pure] at h
    obtain ⟨_, _, hcorrect, -, rfl⟩ := h
    obtain ⟨m, now, hm, hrevision, -⟩ := correctMemory_answers hcorrect
    exact ⟨m, hm, hrevision⟩
  | supersede id' expected' r =>
    obtain ⟨rfl, rfl⟩ := Prod.mk.inj (Option.some.inj hnames)
    simp only [MemoryAction.handler, answers_bind, answers_pure] at h
    obtain ⟨_, _, hsupersede, -, rfl⟩ := h
    obtain ⟨m, now, hm, hrevision, -⟩ := supersedeMemory_answers hdrawn.ids hsupersede
    exact ⟨m, hm, hrevision⟩
  | delete id' approved =>
    obtain ⟨rfl, rfl⟩ := Prod.mk.inj (Option.some.inj hnames)
    obtain ⟨m, gone, hm, hrevision, -⟩ := deleteApproved_answers h
    exact ⟨m, hm, hrevision⟩
  | remember | derive | accept | expire | recordDeleted => cases hnames

/-- A revision is acted on once: after a call that named it changed something, every call that
names it is refused and leaves the books alone. -/
theorem one_call_for_revision {s t : MemoryBooks} {c c' : MemoryCall} {a a' : MemoryAction}
    (hs : memoryMachine.Reachable s) (hnames : a.names = some (id, expected))
    (hchanged : a.run c s ≠ s) (hrun : memoryMachine.Reaches (a.run c s) t)
    (hnames' : a'.names = some (id, expected)) :
    ∃ refusal, (a'.handler c').dispatch ⟨t, .fresh⟩ = (.error refusal, ⟨t, .fresh⟩) := by
  have hdrawn := (sound_of_reachable hs).toDrawn
  have hnext : memoryMachine.Reachable (a.run c s) := hs.step (a := (c, a)) rfl
  have hlater := (sound_of_reachable (hnext.reaches hrun)).toDrawn
  obtain ⟨⟨m, hm, -⟩, hspent⟩ :=
    ((booksStep_of_run hdrawn c a).spends hdrawn hnames).resolve_left hchanged
  rcases hexec : (a'.handler c').dispatch ⟨t, .fresh⟩ with ⟨refusal | answer, u⟩
  · exact ⟨refusal, by rw [dispatch_error hexec]⟩
  exfalso
  obtain ⟨m', hm', hrevision⟩ :=
    MemoryAction.found_of_answers hlater hnames' (dispatch_eq_ok.mp hexec)
  -- what is left of the memory has a later revision
  have hold : id < (a.run c s).nextId :=
    (hdrawn.ids id m hm).trans_le (carried_of_reaches hs (.single (a := (c, a)) rfl)).nextId
  obtain ⟨m₁, hm₁, hbecame⟩ := (carried_of_reaches hnext hrun).rows id m' hm' hold
  have hlt := hspent m₁ hm₁
  have hle := hbecame.revision
  omega

/-- A note is remembered after the first one was superseded. -/
def laterBooks : MemoryBooks := (MemoryAction.remember (noteInput "fourth") []).run ownerCall
  supersededBooks

/-- The revision that was superseded is refused to a correction, also after another call. -/
theorem one_call_for_superseded : laterBooks.nextId = supersededBooks.nextId + 2 ∧
    ∃ refusal, ((MemoryAction.correct 1 1 "title" "body").handler ownerCall).dispatch
      ⟨laterBooks, .fresh⟩ = (.error refusal, ⟨laterBooks, .fresh⟩) := by
  refine ⟨by decide +kernel, ?_⟩
  have hchanged : supersededBooks ≠ derivedBooks := by
    intro heq
    have hnext : supersededBooks.nextId = derivedBooks.nextId + 1 := by decide +kernel
    rw [heq] at hnext
    exact absurd hnext (Nat.lt_succ_self _).ne
  have hrun : memoryMachine.Reaches supersededBooks laterBooks :=
    .single (a := (ownerCall, .remember (noteInput "fourth") [])) rfl
  exact one_call_for_revision (a := .supersede 1 1 ⟨"note", "third", ""⟩) (c := ownerCall)
    reachable_derivedBooks rfl hchanged hrun rfl

end Revisions

/-! ### Announcements -/

/-- What a row has published, the latest first: that it was recorded, and why it is invalid. -/
def KeptMemory.published (id : Uuid) (m : KeptMemory) : List MemoryEvent :=
  (match m.stored.row.invalidationReason with
    | none => []
    | some reason => [⟨.invalidated, id, m.kind, some reason, m.revision⟩]) ++
      [⟨.recorded, id, m.kind, none, 1⟩]

/-- A memory has published what its row says, and one that is removed what some row said. -/
structure MemoryBooks.Announced (b : MemoryBooks) : Prop where
  stored : ∀ j m, b.memories.lookup j = some m → b.history j = m.published j
  fresh : ∀ j, b.nextId ≤ j → b.history j = []
  removed : ∀ j, b.memories.lookup j = none →
    b.history j = [] ∨ ∃ m : KeptMemory, b.history j = m.published j

section Announcements

variable {b b₁ b' : MemoryBooks} {id : Uuid} {m : KeptMemory}

theorem announced_emptyBooks : emptyBooks.Announced := by
  constructor
  · intro j m hm
    simp [emptyBooks] at hm
  · exact fun j _ => rfl
  · exact fun j _ => .inl rfl

theorem Wrote.announced {N : KeptMemory → KeptMemory → Prop} (hann : b.Announced)
    (h : Wrote N b b' id m) : b'.Announced := by
  have hself : b'.history id = [⟨.recorded, id, m.kind, none, 1⟩] := by
    have hold := hann.fresh id h.fresh
    rw [MemoryBooks.history] at hold
    rw [MemoryBooks.history, h.events, List.filter_cons_of_pos (by simp), hold]
  have hother : ∀ j, j ≠ id → b'.history j = b.history j := by
    intro j hj
    rw [MemoryBooks.history, h.events, List.filter_cons_of_neg (by simpa using Ne.symm hj),
      MemoryBooks.history]
  constructor
  case stored =>
    intro j m' hm'
    rcases h.lookup hm' with ⟨rfl, rfl⟩ | ⟨hj, hold⟩
    · rw [hself, KeptMemory.published, h.live.2.2]
      rfl
    · rw [hother j hj]
      exact hann.stored j m' hold
  case fresh =>
    intro j hj
    rw [hother j (h.next.trans_le hj).ne']
    exact hann.fresh j (h.fresh.trans (h.next.le.trans hj))
  case removed =>
    intro j hnone
    rw [h.memories, Table.lookup_insert] at hnone
    split_ifs at hnone with hj
    rw [hother j hj]
    exact hann.removed j hnone

/-- A row without a reason that is given one publishes it. -/
theorem KeptMemory.published_marked (reason : InvalidationReason) (now : ℤ) (m : KeptMemory) :
    (m.marked reason now).published id = m.markEvents reason id ++ m.published id := by
  by_cases hreason : m.stored.row.invalidationReason = none
  · simp [KeptMemory.marked, KeptMemory.markEvents, KeptMemory.published, hreason,
      KeptMemory.advanced, KeptMemory.invalidated]
  · simp [KeptMemory.marked, KeptMemory.markEvents, hreason]

theorem Struck.announced {set : KeptMemory → KeptMemory} {events : List MemoryEvent}
    {reason : InvalidationReason} {now : ℤ} {affected : List Uuid} (hann : b.Announced)
    (hm : b.memories.lookup id = some m)
    (hset : (m.advanced set).published id = events ++ m.published id)
    (hdrawn : b.Drawn) (h : Struck set events reason now id affected b b') : b'.Announced := by
  constructor
  case stored =>
    intro j m' hm'
    rw [h.rows] at hm'
    obtain ⟨own, hown, rfl⟩ := Option.map_eq_some_iff.mp hm'
    rw [h.history, hown, hann.stored j own hown]
    split_ifs with hj hmarked
    · subst hj
      obtain rfl : own = m := Option.some.inj (hown.symm.trans hm)
      exact hset.symm
    · exact (own.published_marked reason now).symm
    · rfl
  case fresh =>
    intro j hj
    rw [h.nextId] at hj
    have hnone : b.memories.lookup j = none :=
      Option.eq_none_iff_forall_ne_some.mpr fun own hown => (hdrawn.ids j own hown).not_ge hj
    have hne : j ≠ id := fun heq => (hdrawn.ids id m hm).not_ge (heq ▸ hj)
    rw [h.history, if_neg hne, hnone, hann.fresh j hj]
    rfl
  case removed =>
    intro j hnone
    rw [h.rows, Option.map_eq_none_iff] at hnone
    have hne : j ≠ id := by
      rintro rfl
      rw [hnone] at hm
      cases hm
    rw [h.history, if_neg hne, hnone]
    exact hann.removed j hnone

theorem KeptMemory.published_unpoint (gone : Finset Uuid) (m : KeptMemory) :
    (m.unpoint gone).published id = m.published id := by
  simp only [KeptMemory.published, KeptMemory.unpoint_reason]
  rfl

theorem Erased.announced {gone : Finset Uuid} (hann : b.Announced) (h : Erased b b' gone) :
    b'.Announced := by
  have hhistory : ∀ j, b'.history j = b.history j := by
    intro j
    rw [MemoryBooks.history, h.events, MemoryBooks.history]
  constructor
  case stored =>
    intro j m' hm'
    obtain ⟨-, own, hown, rfl⟩ := h.old hm'
    rw [hhistory, own.published_unpoint, hann.stored j own hown]
  case fresh =>
    intro j hj
    rw [hhistory, hann.fresh j (h.nextId ▸ hj)]
  case removed =>
    intro j hnone
    rw [hhistory]
    cases hown : b.memories.lookup j with
    | none => exact hann.removed j hown
    | some own => exact .inr ⟨own, hann.stored j own hown⟩

theorem BooksStep.announced {a : MemoryAction} (hsound : b.Sound) (hann : b.Announced)
    (h : BooksStep b a b') : b'.Announced := by
  cases h with
  | refused => exact hann
  | remembered input refs _ id m hwrote => exact hwrote.announced hann
  | derived input sources _ id m hwrote => exact hwrote.announced hann
  | accepted kind unit _ id m hwrote => exact hwrote.announced hann
  | corrected id expected title body _ m now hm hrevision hcurrent hstruck =>
    have hnone := hsound.reason_none hm hcurrent
    refine hstruck.announced hann hm ?_ hsound.toDrawn
    simp [KeptMemory.published, KeptMemory.advanced, KeptMemory.corrected, hnone]
  | superseded id expected r _ m now hm hrevision hcurrent hstruck =>
    have hnone := hsound.reason_none hm hcurrent
    have hwrote := wrote_replaced r now hsound.toDrawn hm hcurrent
    have hnext := sound_of_wrote hsound hwrote
    refine hstruck.announced (hwrote.announced hann) (hwrote.kept hsound.toDrawn hm) ?_
      hnext.toDrawn
    simp [KeptMemory.published, KeptMemory.advanced, KeptMemory.invalidated, hnone]
  | deleted id approved _ m gone hm hrevision huprooted hid => exact huprooted.announced hann
  | expired id _ gone huprooted hid => exact huprooted.announced hann
  | withdrawn target _ gone herased hclosed => exact herased.announced hann

theorem Wrote.history {N : KeptMemory → KeptMemory → Prop} (h : Wrote N b b' id m) (j : Uuid) :
    b.history j <:+ b'.history j := by
  rw [MemoryBooks.history, MemoryBooks.history, h.events]
  exact (List.suffix_cons _ _).filter _

theorem Struck.history_suffix {set : KeptMemory → KeptMemory} {events : List MemoryEvent}
    {reason : InvalidationReason} {now : ℤ} {affected : List Uuid}
    (h : Struck set events reason now id affected b b') (j : Uuid) :
    b.history j <:+ b'.history j := by
  rw [h.history j]
  exact List.suffix_append _ _

theorem Erased.history {gone : Finset Uuid} (h : Erased b b' gone) (j : Uuid) :
    b.history j <:+ b'.history j := by
  rw [MemoryBooks.history, MemoryBooks.history, h.events]

/-- Nothing that was announced is taken back. -/
theorem BooksStep.history {a : MemoryAction} (hdrawn : b.Drawn) (h : BooksStep b a b') (j : Uuid) :
    b.history j <:+ b'.history j := by
  cases h with
  | refused => exact List.suffix_rfl
  | remembered input refs _ id m hwrote => exact hwrote.history j
  | derived input sources _ id m hwrote => exact hwrote.history j
  | accepted kind unit _ id m hwrote => exact hwrote.history j
  | corrected id expected title body _ m now hm hrevision hcurrent hstruck =>
    exact hstruck.history_suffix j
  | superseded id expected r _ m now hm hrevision hcurrent hstruck =>
    exact ((wrote_replaced r now hdrawn hm hcurrent).history j).trans (hstruck.history_suffix j)
  | deleted id approved _ m gone hm hrevision huprooted hid => exact huprooted.toErased.history j
  | expired id _ gone huprooted hid => exact huprooted.toErased.history j
  | withdrawn target _ gone herased hclosed => exact herased.history j

theorem history_of_reaches {t : MemoryBooks} (hb : memoryMachine.Reachable b)
    (hrun : memoryMachine.Reaches b t) (j : Uuid) : b.history j <:+ t.history j := by
  refine hb.stable (P := fun t => b.history j <:+ t.history j) (fun u a v hu hkept hstep => ?_)
    List.suffix_rfl hrun
  obtain rfl := Option.some.inj hstep
  have hdrawn := (sound_of_reachable hu).toDrawn
  exact hkept.trans ((booksStep_of_run hdrawn a.1 a.2).history hdrawn j)

theorem MemoryBooks.announced (hb : memoryMachine.Reachable b) : b.Announced := by
  refine Machine.Reachable.invariant (fun s hs => ?_) (fun s a t hs hann hstep => ?_) hb
  · rw [hs]
    exact announced_emptyBooks
  · obtain rfl := Option.some.inj hstep
    have hsound := sound_of_reachable hs
    exact (booksStep_of_run hsound.toDrawn a.1 a.2).announced hsound hann

/-- A memory is announced once when it is recorded and once, under its last revision, when it
becomes invalid. What was announced of it stays, also when it is erased. -/
theorem announced_of_reachable (hb : memoryMachine.Reachable b) : b.Announced ∧
    ∀ t, memoryMachine.Reaches b t → ∀ j m, b.memories.lookup j = some m →
      b.history j <:+ t.history j ∧ ∃ m' : KeptMemory, t.history j = m'.published j := by
  have hann := MemoryBooks.announced hb
  refine ⟨hann, fun t hrun j m hm => ?_⟩
  have hkept := history_of_reaches hb hrun j
  have hlater := MemoryBooks.announced (hb.reaches hrun)
  refine ⟨hkept, ?_⟩
  cases hm' : t.memories.lookup j with
  | some m' => exact ⟨m', hlater.stored j m' hm'⟩
  | none =>
    refine (hlater.removed j hm').resolve_left fun hempty => ?_
    rw [hempty, hann.stored j m hm, List.suffix_nil, KeptMemory.published] at hkept
    simp at hkept

/-- The superseded note is deleted. -/
private def deletedBooks : MemoryBooks :=
  (MemoryAction.delete 1 2).run ownerCall supersededBooks

/-- What was announced of the superseded note stays after its deletion. -/
theorem announced_supersededBooks : supersededBooks.Announced ∧
    deletedBooks.memories.lookup 1 = none ∧
      ∃ m : KeptMemory, deletedBooks.history 1 = m.published 1 := by
  obtain ⟨hann, hlater⟩ :=
    announced_of_reachable (reachable_derivedBooks.reaches reaches_supersededBooks)
  have hgone : (deletedBooks.memories.lookup 1).isNone = true := by decide +kernel
  have hrun : memoryMachine.Reaches supersededBooks deletedBooks :=
    .single (a := (ownerCall, .delete 1 2)) rfl
  obtain ⟨-, hpublished⟩ :=
    hlater deletedBooks hrun 1 _ (Option.some_get first_supersededBooks).symm
  exact ⟨hann, Option.isNone_iff_eq_none.mp hgone, hpublished⟩

end Announcements

end Rheostream.Recallatron
