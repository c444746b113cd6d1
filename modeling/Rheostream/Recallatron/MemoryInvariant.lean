import Rheostream.Recallatron.MemoryLifecycleLaws

/-!
# The invariant of the memories

Links are to older memories, the entities and their mentions belong together, a superseded memory
is an invalidated one, and what is current is derived from what is current.
-/

namespace Rheostream.Recallatron

open Handler

/-! ### What one call does -/

theorem Wrote.mono {N N' : KeptMemory → KeptMemory → Prop} {b b' : MemoryBooks} {id : Uuid}
    {m : KeptMemory} (h : Wrote N b b' id m) (hmono : ∀ other, N m other → N' m other) :
    Wrote N' b b' id m :=
  { h with links := fun link hlink => (h.links link hlink).mono hmono }

/-- What an accepted call leaves, by the call. -/
inductive BooksStep (b : MemoryBooks) : MemoryAction → MemoryBooks → Prop where
  | refused (a : MemoryAction) : BooksStep b a b
  | remembered (input : WriteInput) (refs : List RefText) (b' : MemoryBooks) (id : Uuid)
      (m : KeptMemory) (hwrote : Wrote (fun _ _ => False) b b' id m) :
      BooksStep b (.remember input refs) b'
  | derived (input : WriteInput) (sources : List RefText) (b' : MemoryBooks) (id : Uuid)
      (m : KeptMemory) (hwrote : Wrote KeptMemory.Narrows b b' id m) :
      BooksStep b (.derive input sources) b'
  | accepted (kind : String) (unit : SourceUnits.TrustedSourceUnit) (b' : MemoryBooks) (id : Uuid)
      (m : KeptMemory) (hwrote : Wrote (fun _ _ => unit.evidence.links ≠ []) b b' id m) :
      BooksStep b (.accept kind unit) b'
  | corrected (id : Uuid) (expected : ℕ) (title body : String) (b' : MemoryBooks) (m : KeptMemory)
      (now : ℤ) (hm : b.memories.lookup id = some m) (hrevision : m.revision = expected)
      (hcurrent : m.IsCurrent)
      (hstruck : Struck (.corrected title body now) [] .sourceCorrected now id (b.affected id) b
        b') :
      BooksStep b (.correct id expected title body) b'
  | superseded (id : Uuid) (expected : ℕ) (r : Replacement) (b' : MemoryBooks) (m : KeptMemory)
      (now : ℤ) (hm : b.memories.lookup id = some m) (hrevision : m.revision = expected)
      (hcurrent : m.IsCurrent)
      (hstruck : Struck (.invalidated .sourceSuperseded now (some b.nextId))
        [⟨.invalidated, id, m.kind, some .sourceSuperseded, m.revision + 1⟩] .sourceSuperseded now
        id (b.affected id) (b.replaced id m r now) b') :
      BooksStep b (.supersede id expected r) b'
  | deleted (id : Uuid) (approved : ℕ) (b' : MemoryBooks) (m : KeptMemory) (gone : Finset Uuid)
      (hm : b.memories.lookup id = some m) (hrevision : m.revision = approved)
      (huprooted : Uprooted true (memoryRecord id) b b' gone) (hid : id ∈ gone) :
      BooksStep b (.delete id approved) b'
  | expired (id : Uuid) (b' : MemoryBooks) (gone : Finset Uuid)
      (huprooted : Uprooted false (memoryRecord id) b b' gone) (hid : id ∈ gone) :
      BooksStep b (.expire id) b'
  | withdrawn (target : RecordRef) (b' : MemoryBooks) (gone : Finset Uuid)
      (herased : Erased b b' gone)
      (hclosed : ∀ j m link, b.memories.lookup j = some m → link ∈ m.stored.links →
        link.relation = .derivedFrom → (∃ x ∈ gone, link.ref = memoryReference x) → j ∈ gone) :
      BooksStep b (.recordDeleted target) b'

/-- Identifiers that are in use have been drawn. -/
structure MemoryBooks.Drawn (b : MemoryBooks) : Prop where
  ids : ∀ j m, b.memories.lookup j = some m → j < b.nextId
  entityIds : ∀ e row, b.entities.lookup e = some row → e < b.nextId

/-- Every call takes one of these steps. -/
theorem booksStep_of_run {b : MemoryBooks} (hdrawn : b.Drawn) (c : MemoryCall) (a : MemoryAction) :
    BooksStep b a (a.run c b) := by
  rcases hexec : (a.handler c).dispatch ⟨b, .fresh⟩ with ⟨refusal | answer, u⟩
  · have hsame : u = ⟨b, .fresh⟩ := dispatch_error hexec
    rw [MemoryAction.run, hexec, hsame]
    exact .refused a
  have h := dispatch_eq_ok.mp hexec
  rw [MemoryAction.run, hexec]
  cases a with
  | remember input refs =>
    simp only [MemoryAction.handler, answers_bind, answers_pure] at h
    obtain ⟨id, _, hwrite, -, rfl⟩ := h
    obtain ⟨m, hwrote⟩ := wrote_of_remember hdrawn.entityIds hwrite
    exact .remembered input refs _ id m hwrote
  | derive input sources =>
    simp only [MemoryAction.handler, answers_bind, answers_pure] at h
    obtain ⟨id, _, hwrite, -, rfl⟩ := h
    obtain ⟨m, hwrote⟩ := wrote_of_derive hdrawn.entityIds hwrite
    exact .derived input sources _ id m hwrote
  | accept kind unit =>
    simp only [MemoryAction.handler, answers_bind, answers_pure] at h
    obtain ⟨id, _, hwrite, -, rfl⟩ := h
    obtain ⟨m, hwrote⟩ := wrote_of_acceptUnit hdrawn.entityIds hwrite
    exact .accepted kind unit _ id m hwrote
  | correct id expected title body =>
    simp only [MemoryAction.handler, answers_bind, answers_pure] at h
    obtain ⟨_, _, hcorrect, -, rfl⟩ := h
    obtain ⟨m, now, hm, hrevision, hcurrent, hstruck⟩ := correctMemory_answers hcorrect
    exact .corrected id expected title body _ m now hm hrevision hcurrent hstruck
  | supersede id expected r =>
    simp only [MemoryAction.handler, answers_bind, answers_pure] at h
    obtain ⟨_, _, hsupersede, -, rfl⟩ := h
    obtain ⟨m, now, hm, hrevision, hcurrent, hstruck⟩ :=
      supersedeMemory_answers hdrawn.ids hsupersede
    exact .superseded id expected r _ m now hm hrevision hcurrent hstruck
  | delete id approved =>
    obtain ⟨m, gone, hm, hrevision, -, huprooted, hid⟩ := deleteApproved_answers h
    exact .deleted id approved _ m gone hm hrevision huprooted hid
  | expire id =>
    obtain ⟨m, gone, -, huprooted, hid⟩ := expireScheduled_answers h
    exact .expired id _ gone huprooted hid
  | recordDeleted target =>
    simp only [MemoryAction.handler, answers_bind, answers_require] at h
    obtain ⟨_, _, ⟨hother, rfl⟩, h⟩ := h
    obtain ⟨gone, herased, hclosed⟩ := onRecordDeleted_answers hother h
    exact .withdrawn target _ gone herased hclosed

/-! ### The invariant -/

/-- The invalidation columns of a row belong together. -/
structure KeptMemory.Paired (m : KeptMemory) : Prop where
  reason : m.stored.row.invalidatedAt = none ↔ m.stored.row.invalidationReason = none
  successor : ∀ successor, m.stored.row.supersededById = some successor →
    m.stored.row.invalidationReason = some .sourceSuperseded

theorem KeptMemory.Paired.isCurrent_iff {m : KeptMemory} (h : m.Paired) :
    m.IsCurrent ↔ m.stored.row.invalidationReason = none := by
  constructor
  · exact fun hcurrent => h.reason.mp hcurrent.1
  · intro hnone
    refine ⟨h.reason.mpr hnone, ?_⟩
    cases hsuccessor : m.stored.row.supersededById with
    | none => rfl
    | some successor =>
      have hreason := h.successor successor hsuccessor
      rw [hnone] at hreason
      cases hreason

/-- What is current is derived from what is current. -/
def MemoryBooks.Rests (b : MemoryBooks) : Prop :=
  ∀ j m link r, b.memories.lookup j = some m → m.IsCurrent → link ∈ m.stored.links →
    link.Derives → link.ref = memoryReference r → ∃ n, b.memories.lookup r = some n ∧ n.IsCurrent

/-- The invariant of the memories. -/
structure MemoryBooks.Sound (b : MemoryBooks) : Prop extends b.Drawn where
  older : ∀ j m link r, b.memories.lookup j = some m → link ∈ m.stored.links →
    link.ref = memoryReference r → r < j
  mentioned : ∀ j m e, b.memories.lookup j = some m → e ∈ m.mentions →
    ∃ row, b.entities.lookup e = some row
  linked : ∀ j m e row reference, b.memories.lookup j = some m → e ∈ m.mentions →
    b.entities.lookup e = some row → row.ref = some reference →
      ∃ link ∈ m.stored.links, link.ref = reference
  alive : ∀ e row, b.entities.lookup e = some row → row.ref = none → b.Mentions e
  paired : ∀ j m, b.memories.lookup j = some m → m.Paired
  rests : b.Rests

section Preservation

variable {b b₁ b' : MemoryBooks} {id j : Uuid} {m m' : KeptMemory}

theorem sound_emptyBooks : emptyBooks.Sound := by
  constructor
  case toDrawn => constructor <;> simp [emptyBooks]
  case rests =>
    intro j m link r hm
    simp [emptyBooks] at hm
  all_goals simp [emptyBooks]

variable {N : KeptMemory → KeptMemory → Prop}

/-- The row of a table with one more row is the new one or an old one. -/
theorem Wrote.lookup (h : Wrote N b b' id m) (hm : b'.memories.lookup j = some m') :
    (j = id ∧ m' = m) ∨ (j ≠ id ∧ b.memories.lookup j = some m') := by
  rw [h.memories, Table.lookup_insert] at hm
  split_ifs at hm with hj
  · exact .inl ⟨hj, (Option.some.inj hm).symm⟩
  · exact .inr ⟨hj, hm⟩

/-- What was there is there. -/
theorem Wrote.kept (h : Wrote N b b' id m) (hdrawn : b.Drawn) (hm : b.memories.lookup j = some m') :
    b'.memories.lookup j = some m' := by
  have hne : j ≠ id := ((hdrawn.ids j m' hm).trans_le h.fresh).ne
  rw [h.memories, Table.lookup_insert, if_neg hne, hm]

theorem Wrote.mentionsKept (h : Wrote N b b' id m) (hdrawn : b.Drawn) {e : Uuid} (he : b.Mentions e)
    : b'.Mentions e := by
  obtain ⟨k, other, hother, hmem⟩ := he
  exact ⟨k, other, h.kept hdrawn hother, hmem⟩

variable {link : MemoryLinkRow} {r : Uuid}

/-- A link that is written is to an older memory. -/
theorem LinkOrigin.older {N : KeptMemory → Prop} (h : LinkOrigin b N link) (hsound : b.Sound)
    (href : link.ref = memoryReference r) : r < b.nextId := by
  have hinj : ∀ {x : Uuid}, link.ref = memoryReference x → x = r := by
    intro x hx
    have heq := RefText.ref.inj (hx.symm.trans href)
    exact congrArg RecordRef.id heq
  cases h with
  | other hother => exact absurd href (hother r)
  | source k m hsame hm hcurrent hbound =>
    rw [← hinj hsame]
    exact hsound.ids k m hm
  | copied k m old hm hcurrent hold hsame hderives hbound =>
    exact (hsound.older k m old r hm hold (hsame.trans href)).trans (hsound.ids k m hm)
  | named k entity m row hm hmentions hentity hsame habout =>
    obtain ⟨old, hold, heq⟩ := hsound.linked k m entity row link.ref hm hmentions hentity hsame
    exact (hsound.older k m old r hm hold (heq.trans href)).trans (hsound.ids k m hm)

/-- A link of derivation that is written is to a current memory. -/
theorem LinkOrigin.current {N : KeptMemory → Prop} (h : LinkOrigin b N link) (hsound : b.Sound)
    (href : link.ref = memoryReference r) (hderives : link.Derives) :
    ∃ n, b.memories.lookup r = some n ∧ n.IsCurrent := by
  cases h with
  | other hother => exact absurd href (hother r)
  | source k m hsame hm hcurrent hbound =>
    obtain rfl : k = r := congrArg RecordRef.id (RefText.ref.inj (hsame.symm.trans href))
    exact ⟨m, hm, hcurrent⟩
  | copied k m old hm hcurrent hold hsame hcopies hbound =>
    exact hsound.rests k m old r hm hcurrent hold (hcopies hderives) (hsame.trans href)
  | named k entity m row hm hmentions hentity hsame habout =>
    rw [hderives.1] at habout
    cases habout

theorem sound_of_wrote (hsound : b.Sound) (h : Wrote N b b' id m) : b'.Sound := by
  have hdrawn := hsound.toDrawn
  have hnext : b.nextId ≤ b'.nextId := h.fresh.trans h.next.le
  constructor
  case toDrawn =>
    refine ⟨fun j m' hm' => ?_, fun e row hrow => ?_⟩
    · rcases h.lookup hm' with ⟨rfl, -⟩ | ⟨-, hold⟩
      · exact h.next
      · exact (hsound.ids j m' hold).trans_le hnext
    · by_cases he : e < b.nextId
      · exact he.trans_le hnext
      · exact (h.only e row (not_lt.mp he) hrow).1
  case older =>
    intro j m' link r hm' hlink href
    rcases h.lookup hm' with ⟨rfl, rfl⟩ | ⟨-, hold⟩
    · exact ((h.links link hlink).older hsound href).trans_le h.fresh
    · exact hsound.older j m' link r hold hlink href
  case mentioned =>
    intro j m' e hm' he
    rcases h.lookup hm' with ⟨rfl, rfl⟩ | ⟨-, hold⟩
    · obtain ⟨row, hrow, -⟩ := h.mentions e he
      exact ⟨row, hrow⟩
    · obtain ⟨row, hrow⟩ := hsound.mentioned j m' e hold he
      exact ⟨row, (h.old e (hsound.entityIds e row hrow)).trans hrow⟩
  case linked =>
    intro j m' e row reference hm' he hrow href
    rcases h.lookup hm' with ⟨rfl, rfl⟩ | ⟨-, hold⟩
    · obtain ⟨own, hown, hbacked⟩ := h.mentions e he
      obtain rfl : own = row := Option.some.inj (hown.symm.trans hrow)
      exact hbacked reference href
    · obtain ⟨own, hown⟩ := hsound.mentioned j m' e hold he
      rw [h.old e (hsound.entityIds e own hown)] at hrow
      exact hsound.linked j m' e row reference hold he hrow href
  case alive =>
    intro e row hrow href
    by_cases he : e < b.nextId
    · rw [h.old e he] at hrow
      exact h.mentionsKept hdrawn (hsound.alive e row hrow href)
    · obtain ⟨-, hmem, -⟩ := h.only e row (not_lt.mp he) hrow
      refine ⟨id, m, ?_, hmem⟩
      rw [h.memories, Table.lookup_insert, if_pos rfl]
  case paired =>
    intro j m' hm'
    rcases h.lookup hm' with ⟨rfl, rfl⟩ | ⟨-, hold⟩
    · obtain ⟨hat, hsuccessor, hreason⟩ := h.live
      refine ⟨by simp [hat, hreason], fun successor hsome => ?_⟩
      rw [hsuccessor] at hsome
      cases hsome
    · exact hsound.paired j m' hold
  case rests =>
    intro j m' link r hm' hcurrent hlink hderives href
    have hfound : ∃ n, b.memories.lookup r = some n ∧ n.IsCurrent := by
      rcases h.lookup hm' with ⟨rfl, rfl⟩ | ⟨-, hold⟩
      · exact (h.links link hlink).current hsound href hderives
      · exact hsound.rests j m' link r hold hcurrent hlink hderives href
    obtain ⟨n, hn, hncurrent⟩ := hfound
    exact ⟨n, h.kept hdrawn hn, hncurrent⟩

/-! ### Replacing -/

theorem KeptMemory.narrows_refl (m : KeptMemory) : m.Narrows m :=
  ⟨WriteAudience.within_refl _, fun _ hpurpose => hpurpose⟩

/-- A replacement is a memory that is written. -/
theorem wrote_replaced (r : Replacement) (now : ℤ) (hdrawn : b.Drawn)
    (hm : b.memories.lookup id = some m) (hcurrent : m.IsCurrent) :
    Wrote KeptMemory.Narrows b (b.replaced id m r now) b.nextId (r.of id m now).row := by
  constructor
  case fresh => exact le_refl _
  case next => exact Nat.lt_succ_self _
  case memories => rfl
  case events => rfl
  case revision => rfl
  case live => exact ⟨rfl, rfl, rfl⟩
  case links =>
    intro link hlink
    rcases List.mem_append.mp (mem_of_mem_deduplicated hlink) with hlink | hlink
    · rcases List.mem_append.mp hlink with hlink | hlink
      · exact .copied id m link hm hcurrent hlink rfl (fun h => h) fun _ => m.narrows_refl
      · obtain rfl := List.mem_singleton.mp hlink
        exact .source id m rfl hm hcurrent fun hderives => by cases hderives.2
    · cases hlink
  case old => exact fun _ _ => rfl
  case mentions => exact fun e he => absurd he List.not_mem_nil
  case only => exact fun e row he hrow => absurd (hdrawn.entityIds e row hrow) (not_lt.mpr he)

variable {now : ℤ}

/-- What a replacement is derived from, its predecessor is derived from. -/
theorem derives_of_replacement {r : Replacement} (hlink : link ∈ (r.of id m now).row.stored.links)
    (hderives : link.Derives) : link ∈ m.stored.links := by
  rcases List.mem_append.mp (mem_of_mem_deduplicated hlink) with hlink | hlink
  · rcases List.mem_append.mp hlink with hlink | hlink
    · exact hlink
    · obtain rfl := List.mem_singleton.mp hlink
      cases hderives.2
  · cases hlink

/-! ### Marking -/

/-- What depends on a memory is newer. -/
theorem newer_of_affected (hsound : b.Sound) (h : j ∈ b.affected id) : id < j := by
  obtain ⟨-, x, hx, hpath⟩ := mem_referenceClosure.mp (mem_affected.mp h)
  have holder : ∀ {y r : Uuid} {follows : Relation → Bool},
      y ∈ linkedTo b.stored true follows (memoryReference r) → r < y := by
    intro y r follows hy
    obtain ⟨_, hstored, link, hlink, href, -, -⟩ := mem_linkedTo.mp hy
    obtain ⟨m, hm, rfl⟩ := lookup_stored.mp hstored
    exact hsound.older y m link r hm hlink href
  clear h
  induction hpath with
  | refl => exact holder hx
  | tail _ hlast ih => exact ih.trans (holder hlast)

/-- What is derived from a memory, or from what depends on it, depends on it. -/
theorem affected_of_derives (hsound : b.Sound) (hm : b.memories.lookup j = some m)
    (hlink : link ∈ m.stored.links) (hderives : link.Derives) (href : link.ref = memoryReference r)
    (hr : r = id ∨ r ∈ b.affected id) : j ≠ id ∧ j ∈ b.affected id := by
  have hnewer : id < j := by
    have holder := hsound.older j m link r hm hlink href
    rcases hr with rfl | hr
    · exact holder
    · exact (newer_of_affected hsound hr).trans holder
  have hstored : b.stored.lookup j = some m.stored := lookup_stored.mpr ⟨m, hm, rfl⟩
  have hout : ¬(isMemoryRef (memoryRecord id) = true ∧ j = (memoryRecord id).id) :=
    fun hself => hnewer.ne' hself.2
  refine ⟨hnewer.ne', mem_affected.mpr ?_⟩
  rcases hr with rfl | hr
  · have hlinked : j ∈ linkedTo b.stored true (fun _ => true) (.ref (memoryRecord r)) :=
      mem_linkedTo.mpr ⟨_, hstored, link, hlink, href, .inl rfl, rfl⟩
    exact (mem_closure_of_linked hlinked).resolve_right hout
  · have hderived : j ∈ derivedOf b.stored true r :=
      mem_linkedTo.mpr ⟨_, hstored, link, hlink, href, .inl rfl, by simp [hderives.1]⟩
    exact (mem_closure_of_derived (mem_affected.mp hr) hderived).resolve_right hout

/-- A row that is set or marked keeps its links and its mentions, and does not become current. -/
structure KeptMemory.SameShape (m m' : KeptMemory) : Prop where
  links : m'.stored.links = m.stored.links
  mentions : m'.mentions = m.mentions
  paired : m'.Paired
  current : m'.IsCurrent → m.IsCurrent

/-- A marked row is not current. -/
theorem KeptMemory.not_current_marked (reason : InvalidationReason) (now : ℤ) (h : m.Paired) :
    ¬(m.marked reason now).IsCurrent := by
  unfold KeptMemory.marked
  split_ifs with hreason
  · rintro ⟨hat, -⟩
    cases hat
  · exact fun hcurrent => hreason (h.isCurrent_iff.mp hcurrent)

theorem KeptMemory.marked_shape {reason : InvalidationReason} (h : m.Paired) :
    m.SameShape (m.marked reason now) := by
  have hcurrent := KeptMemory.not_current_marked reason now h
  unfold KeptMemory.marked at hcurrent ⊢
  split_ifs with hreason
  · rw [if_pos hreason] at hcurrent
    refine ⟨rfl, rfl, ⟨by simp [KeptMemory.advanced, KeptMemory.invalidated], ?_⟩,
      fun hsame => absurd hsame hcurrent⟩
    intro successor hsuccessor
    have hold := h.successor successor hsuccessor
    rw [hreason] at hold
    cases hold
  · exact ⟨rfl, rfl, h, fun hsame => hsame⟩

/-- Marking what depends on a memory keeps the invariant. -/
theorem sound_of_struck {set : KeptMemory → KeptMemory} {events : List MemoryEvent}
    {reason : InvalidationReason} (hsound : b₁.Sound)
    (hset : ∀ m, b₁.memories.lookup id = some m → m.SameShape (m.advanced set))
    (hclosed : ∀ j m link r, b₁.memories.lookup j = some m → link ∈ m.stored.links → link.Derives →
      link.ref = memoryReference r → (r = id ∨ r ∈ b.affected id) → j ≠ id ∧ j ∈ b.affected id)
    (h : Struck set events reason now id (b.affected id) b₁ b') : b'.Sound := by
  have hrow : ∀ {j m'}, b'.memories.lookup j = some m' →
      ∃ m, b₁.memories.lookup j = some m ∧ m.SameShape m' ∧ m' =
        if j = id then m.advanced set
        else if j ∈ b.affected id then m.marked reason now else m := by
    intro j m' hm'
    rw [h.rows] at hm'
    obtain ⟨m, hm, heq⟩ := Option.map_eq_some_iff.mp hm'
    refine ⟨m, hm, ?_, heq.symm⟩
    rw [← heq]
    split_ifs with hj hmarked
    · subst hj
      exact hset m hm
    · exact KeptMemory.marked_shape (hsound.paired j m hm)
    · exact ⟨rfl, rfl, hsound.paired j m hm, fun hsame => hsame⟩
  constructor
  case toDrawn =>
    refine ⟨fun j m' hm' => ?_, fun e row he => ?_⟩
    · obtain ⟨m, hm, -⟩ := hrow hm'
      rw [h.nextId]
      exact hsound.ids j m hm
    · rw [h.entities] at he
      rw [h.nextId]
      exact hsound.entityIds e row he
  case older =>
    intro j m' link r hm' hlink href
    obtain ⟨m, hm, hshape, -⟩ := hrow hm'
    rw [hshape.links] at hlink
    exact hsound.older j m link r hm hlink href
  case mentioned =>
    intro j m' e hm' he
    obtain ⟨m, hm, hshape, -⟩ := hrow hm'
    rw [hshape.mentions] at he
    rw [h.entities]
    exact hsound.mentioned j m e hm he
  case linked =>
    intro j m' e row reference hm' he hentity href
    obtain ⟨m, hm, hshape, -⟩ := hrow hm'
    rw [hshape.mentions] at he
    rw [h.entities] at hentity
    rw [hshape.links]
    exact hsound.linked j m e row reference hm he hentity href
  case alive =>
    intro e row hentity href
    rw [h.entities] at hentity
    obtain ⟨j, m, hm, hmem⟩ := hsound.alive e row hentity href
    have hset' := h.rows j
    rw [hm, Option.map_some] at hset'
    obtain ⟨m₁, hm₁, hshape, -⟩ := hrow hset'
    obtain rfl : m₁ = m := Option.some.inj (hm₁.symm.trans hm)
    exact ⟨j, _, hset', by rwa [hshape.mentions]⟩
  case paired =>
    intro j m' hm'
    obtain ⟨m, -, hshape, -⟩ := hrow hm'
    exact hshape.paired
  case rests =>
    intro j m' link r hm' hcurrent hlink hderives href
    obtain ⟨m, hm, hshape, heq⟩ := hrow hm'
    rw [hshape.links] at hlink
    have hspared : ¬(r = id ∨ r ∈ b.affected id) := by
      intro hr
      obtain ⟨hj, hmarked⟩ := hclosed j m link r hm hlink hderives href hr
      rw [if_neg hj, if_pos hmarked] at heq
      rw [heq] at hcurrent
      exact KeptMemory.not_current_marked reason now (hsound.paired j m hm) hcurrent
    obtain ⟨n, hn, hncurrent⟩ :=
      hsound.rests j m link r hm (hshape.current hcurrent) hlink hderives href
    rw [not_or] at hspared
    refine ⟨n, ?_, hncurrent⟩
    rw [h.rows, hn, Option.map_some, if_neg hspared.1, if_neg hspared.2]

section Unpoint

variable (gone : Finset Uuid) (m)

@[simp] theorem KeptMemory.unpoint_invalidatedAt :
    (m.unpoint gone).stored.row.invalidatedAt = m.stored.row.invalidatedAt := by
  simp only [KeptMemory.unpoint, StoredMemory.unpoint]
  split_ifs <;> rfl

@[simp] theorem KeptMemory.unpoint_reason :
    (m.unpoint gone).stored.row.invalidationReason = m.stored.row.invalidationReason := by
  simp only [KeptMemory.unpoint, StoredMemory.unpoint]
  split_ifs <;> rfl

/-- A pointer that is left pointed to a memory that is left. -/
theorem KeptMemory.unpoint_successor {successor : Uuid}
    (h : (m.unpoint gone).stored.row.supersededById = some successor) :
    m.stored.row.supersededById = some successor ∧ successor ∉ gone := by
  simp only [KeptMemory.unpoint, StoredMemory.unpoint] at h
  split_ifs at h with hgone
  exact ⟨h, by simpa [h] using hgone⟩

theorem KeptMemory.Paired.unpoint {m : KeptMemory} (h : m.Paired) : (m.unpoint gone).Paired where
  reason := by simpa using h.reason
  successor successor hsuccessor := by
    rw [KeptMemory.unpoint_reason]
    exact h.successor successor (m.unpoint_successor gone hsuccessor).1

theorem KeptMemory.Paired.isCurrent_unpoint {m : KeptMemory} (h : m.Paired) :
    (m.unpoint gone).IsCurrent ↔ m.IsCurrent := by
  rw [(h.unpoint gone).isCurrent_iff, h.isCurrent_iff, KeptMemory.unpoint_reason]

end Unpoint

/-- Removing a closed set of memories keeps the invariant. -/
theorem sound_of_erased {gone : Finset Uuid} (hsound : b.Sound) (h : Erased b b' gone)
    (hclosed : ∀ j m link, b.memories.lookup j = some m → link ∈ m.stored.links →
      link.Derives → (∃ x ∈ gone, link.ref = memoryReference x) → j ∈ gone) : b'.Sound := by
  constructor
  case toDrawn =>
    refine ⟨fun j m' hm' => ?_, fun e row he => ?_⟩
    · obtain ⟨-, m, hm, -⟩ := h.old hm'
      rw [h.nextId]
      exact hsound.ids j m hm
    · rw [h.nextId]
      exact hsound.entityIds e row (h.entities e row he)
  case older =>
    intro j m' link r hm' hlink href
    obtain ⟨-, m, hm, rfl⟩ := h.old hm'
    rw [KeptMemory.unpoint_links] at hlink
    exact hsound.older j m link r hm hlink href
  case mentioned =>
    intro j m' e hm' he
    obtain ⟨-, m, hm, rfl⟩ := h.old hm'
    obtain ⟨row, hrow⟩ := hsound.mentioned j m e hm he
    exact ⟨row, h.kept e row hrow ⟨j, _, hm', he⟩⟩
  case linked =>
    intro j m' e row reference hm' he hrow href
    obtain ⟨-, m, hm, rfl⟩ := h.old hm'
    rw [KeptMemory.unpoint_links]
    exact hsound.linked j m e row reference hm he (h.entities e row hrow) href
  case alive =>
    intro e row hrow href
    exact h.pruned e row hrow href (hsound.alive e row (h.entities e row hrow) href)
  case paired =>
    intro j m' hm'
    obtain ⟨-, m, hm, rfl⟩ := h.old hm'
    exact (hsound.paired j m hm).unpoint gone
  case rests =>
    intro j m' link r hm' hcurrent hlink hderives href
    obtain ⟨hj, m, hm, rfl⟩ := h.old hm'
    rw [(hsound.paired j m hm).isCurrent_unpoint] at hcurrent
    rw [KeptMemory.unpoint_links] at hlink
    obtain ⟨n, hn, hncurrent⟩ := hsound.rests j m link r hm hcurrent hlink hderives href
    have hr : r ∉ gone := fun hr => hj (hclosed j m link hm hlink hderives ⟨r, hr, href⟩)
    refine ⟨n.unpoint gone, ?_, ((hsound.paired r n hn).isCurrent_unpoint gone).mpr hncurrent⟩
    rw [h.rows, if_neg hr, hn, Option.map_some]

/-! ### Every step, and every run -/

theorem KeptMemory.corrected_shape {title body : String} (h : m.Paired) :
    m.SameShape (m.advanced (.corrected title body now)) :=
  ⟨rfl, rfl, ⟨h.reason, h.successor⟩, fun hsame => hsame⟩

theorem KeptMemory.retired_shape {successor : Uuid} (m : KeptMemory) :
    m.SameShape (m.advanced (.invalidated .sourceSuperseded now (some successor))) := by
  refine ⟨rfl, rfl, ⟨by simp [KeptMemory.advanced, KeptMemory.invalidated], fun _ _ => rfl⟩, ?_⟩
  rintro ⟨hat, -⟩
  cases hat

/-- In the tables with a replacement, nothing new is affected. -/
theorem closed_of_replaced {r : Replacement} (hsound : b.Sound) (hm : b.memories.lookup id = some m)
    (hcurrent : m.IsCurrent) :
    ∀ j m' link target, (b.replaced id m r now).memories.lookup j = some m' →
      link ∈ m'.stored.links → link.Derives → link.ref = memoryReference target →
        (target = id ∨ target ∈ b.affected id) → j ≠ id ∧ j ∈ b.affected id := by
  intro j m' link target hm' hlink hderives href htarget
  rcases (wrote_replaced r now hsound.toDrawn hm hcurrent).lookup hm' with ⟨rfl, rfl⟩ | ⟨-, hold⟩
  · obtain ⟨hself, -⟩ := affected_of_derives hsound hm (derives_of_replacement hlink hderives)
      hderives href htarget
    exact absurd rfl hself
  · exact affected_of_derives hsound hold hlink hderives href htarget

theorem BooksStep.sound {a : MemoryAction} (hsound : b.Sound) (h : BooksStep b a b') :
    b'.Sound := by
  cases h with
  | refused => exact hsound
  | remembered input refs _ id m hwrote => exact sound_of_wrote hsound hwrote
  | derived input sources _ id m hwrote => exact sound_of_wrote hsound hwrote
  | accepted kind unit _ id m hwrote => exact sound_of_wrote hsound hwrote
  | corrected id expected title body _ m now hm hrevision hcurrent hstruck =>
    refine sound_of_struck hsound (fun m hm => KeptMemory.corrected_shape (hsound.paired id m hm))
      (fun j m link r hm hlink hderives href hr => ?_) hstruck
    exact affected_of_derives hsound hm hlink hderives href hr
  | superseded id expected r _ m now hm hrevision hcurrent hstruck =>
    exact sound_of_struck (sound_of_wrote hsound (wrote_replaced r now hsound.toDrawn hm hcurrent))
      (fun m _ => m.retired_shape) (closed_of_replaced hsound hm hcurrent) hstruck
  | deleted id approved _ m gone hm hrevision huprooted hid =>
    exact sound_of_erased hsound huprooted.toErased fun j m link hm hlink hderives hto =>
      huprooted.closed j m link hm hlink (.inl rfl) (.inr ⟨hderives.1, hto⟩)
  | expired id _ gone huprooted hid =>
    exact sound_of_erased hsound huprooted.toErased fun j m link hm hlink hderives hto =>
      huprooted.closed j m link hm hlink (.inr hderives.2) (.inr ⟨hderives.1, hto⟩)
  | withdrawn target _ gone herased hclosed =>
    exact sound_of_erased hsound herased fun j m link hm hlink hderives hto =>
      hclosed j m link hm hlink hderives.1 hto

theorem sound_of_reachable (h : memoryMachine.Reachable b) : b.Sound := by
  refine Machine.Reachable.invariant (fun s hs => ?_) (fun s a t _ hsound hstep => ?_) h
  · rw [hs]
    exact sound_emptyBooks
  · obtain rfl := Option.some.inj hstep
    exact (booksStep_of_run hsound.toDrawn a.1 a.2).sound hsound

end Preservation

end Rheostream.Recallatron
