import Rheostream.Recallatron.MemoryLifecycle
import Rheostream.Recallatron.MemoryWritesLaws
import Rheostream.Recallatron.RetentionSweepLaws

/-!
# What the lifecycle calls do

A correction rewrites its target and a supersession retires it for a replacement; both mark what
depended on it. A removal takes a closed set of memories. Whatever else a row carries, it keeps.
-/

namespace Rheostream.Recallatron

open Handler

/-! ### The closure walk -/

section Closure

variable {s : Memories} {marked : Bool} {follows : Relation → Bool} {reference : RefText}
  {target : RecordRef} {x y id : Uuid}

theorem mem_linkedTo : y ∈ linkedTo s marked follows reference ↔ ∃ m, s.lookup y = some m ∧
    ∃ link ∈ m.links, link.ref = reference ∧
      (marked = true ∨ link.supersessionLineage = false) ∧ follows link.relation = true := by
  simp only [linkedTo, mem_sorted_select, List.any_eq_true, Bool.and_eq_true, Bool.or_eq_true,
    decide_eq_true_eq, Bool.not_eq_true', and_assoc]

theorem memoryReference_of_isMemoryRef (h : isMemoryRef target = true) :
    memoryReference target.id = .ref target := by
  obtain ⟨moduleId, recordType, id⟩ := target
  obtain ⟨rfl, rfl⟩ : moduleId = "recallatron" ∧ recordType = "memory" := by
    simpa [isMemoryRef] using h
  rfl

/-- What the walk finds: a link to the target in either relation, and derivations after it. -/
theorem mem_referenceClosure : y ∈ referenceClosure s marked target ↔
    (isMemoryRef target = true → y ≠ target.id) ∧
      ∃ x ∈ linkedTo s marked (fun _ => true) (.ref target),
        Relation.ReflTransGen (fun a b => b ∈ derivedOf s marked a) x y := by
  have hmem (follows : Relation → Bool) (reference : RefText) (y : Uuid)
      (h : y ∈ linkedTo s marked follows reference) : y ∈ s.keys.toFinset := by
    obtain ⟨m, hm, -⟩ := mem_linkedTo.mp h
    rw [mem_keys_iff, hm]
    rfl
  have hnext : ∀ x y, y ∈ derivedOf s marked x → y ∈ s.keys.toFinset :=
    fun x y h => hmem _ (memoryReference x) y h
  have hstart : ∀ x ∈ (if isMemoryRef target then [target.id] else []),
      ∀ y ∈ derivedOf s marked x, y ∈ linkedTo s marked (fun _ => true) (.ref target) := by
    intro x hx y hy
    split_ifs at hx with hmemory
    · obtain rfl := List.mem_singleton.mp hx
      obtain ⟨m, hm, link, hlink, href, hmarked, -⟩ := mem_linkedTo.mp hy
      rw [memoryReference_of_isMemoryRef hmemory] at href
      exact mem_linkedTo.mpr ⟨m, hm, link, hlink, href, hmarked, rfl⟩
    · cases hx
  rw [referenceClosure, Search.mem_closureFrom_iff hnext (size_eq_length s).le
    (fun x h => hmem _ _ x h) hstart]
  split_ifs with hmemory
  · simp [hmemory]
  · simp [hmemory]

/-- What links to the target is found. -/
theorem mem_closure_of_linked (h : y ∈ linkedTo s marked (fun _ => true) (.ref target)) :
    y ∈ referenceClosure s marked target ∨ (isMemoryRef target = true ∧ y = target.id) := by
  by_cases hself : isMemoryRef target = true ∧ y = target.id
  · exact .inr hself
  · exact .inl (mem_referenceClosure.mpr ⟨fun hmemory heq => hself ⟨hmemory, heq⟩, y, h, .refl⟩)

/-- What is derived from what is found is found. -/
theorem mem_closure_of_derived (hx : x ∈ referenceClosure s marked target)
    (h : y ∈ derivedOf s marked x) :
    y ∈ referenceClosure s marked target ∨ (isMemoryRef target = true ∧ y = target.id) := by
  obtain ⟨-, first, hfirst, hpath⟩ := mem_referenceClosure.mp hx
  by_cases hself : isMemoryRef target = true ∧ y = target.id
  · exact .inr hself
  · exact .inl (mem_referenceClosure.mpr ⟨fun hmemory heq => hself ⟨hmemory, heq⟩, first, hfirst,
      hpath.tail h⟩)

end Closure

/-! ### Marking what is affected -/

section Marking

variable {c : MemoryCall} {q : MemoryRequest} {b b' : MemoryBooks} {t u : MemoryWork}
  {id j : Uuid} {m : KeptMemory} {reason : InvalidationReason} {now : ℤ} {revision expected : ℕ}

/-- A row at its next revision. -/
def KeptMemory.advanced (m : KeptMemory) (set : KeptMemory → KeptMemory) : KeptMemory :=
  { set m with revision := m.revision + 1 }

/-- A row as the closure of a call leaves it: one with a reason is left alone. -/
def KeptMemory.marked (reason : InvalidationReason) (now : ℤ) (m : KeptMemory) : KeptMemory :=
  if m.stored.row.invalidationReason = none then m.advanced (.invalidated reason now none) else m

/-- What was published about a memory, the latest first. -/
def MemoryBooks.history (b : MemoryBooks) (id : Uuid) : List MemoryEvent :=
  b.events.filter fun event => event.memoryId = id

/-- The event of a row that the closure of a call marks. -/
def KeptMemory.markEvents (reason : InvalidationReason) (id : Uuid) (m : KeptMemory) :
    List MemoryEvent :=
  if m.stored.row.invalidationReason = none then
    [⟨.invalidated, id, m.kind, some reason, m.revision + 1⟩]
  else []

/-- The memories `affected` are marked, and nothing else changes. -/
structure Marks (reason : InvalidationReason) (now : ℤ) (affected : List Uuid)
    (b b' : MemoryBooks) : Prop where
  rows : ∀ j, b'.memories.lookup j = (b.memories.lookup j).map fun m =>
    if j ∈ affected then m.marked reason now else m
  history : ∀ j, b'.history j = (match b.memories.lookup j with
    | none => []
    | some m => if j ∈ affected then m.markEvents reason j else []) ++ b.history j
  entities : b'.entities = b.entities
  nextId : b'.nextId = b.nextId

variable {a : ℕ}

theorem compareAndSet_answers {set : KeptMemory → KeptMemory}
    (h : (compareAndSet id expected set).Answers t a u) :
    ∃ m, t.books.memories.lookup id = some m ∧ m.revision = expected ∧ a = m.revision + 1 ∧
      u.books = { t.books with memories := t.books.memories.insert id (m.advanced set) } := by
  simp only [compareAndSet, answers_bind, answers_get, answers_found, answers_write,
    answers_pure] at h
  obtain ⟨_, _, ⟨rfl, rfl⟩, memories, _, ⟨hupdate, rfl⟩, _, _, rfl, rfl, rfl⟩ := h
  obtain ⟨m, hm, hguard, rfl⟩ := Table.updateRow_eq_some.mp hupdate
  obtain rfl : m.revision = expected := by simpa using hguard
  exact ⟨m, hm, rfl, rfl, rfl⟩

theorem invalidateRow_answers {row : KeptMemory} {successor : Option Uuid}
    (h : (invalidateRow id row expected reason now successor).Answers t a u) :
    ∃ m, t.books.memories.lookup id = some m ∧ m.revision = expected ∧
      u.books = { t.books with
        memories := t.books.memories.insert id (m.advanced (.invalidated reason now successor))
        events :=
          ⟨.invalidated, id, row.kind, some reason, m.revision + 1⟩ :: t.books.events } := by
  unfold invalidateRow at h
  rw [answers_bind] at h
  obtain ⟨revision, t₁, hset, h⟩ := h
  obtain ⟨m, hm, hrevision, rfl, hbooks⟩ := compareAndSet_answers hset
  simp only [answers_bind, answers_write, answers_pure] at h
  obtain ⟨_, _, rfl, rfl, rfl⟩ := h
  refine ⟨m, hm, hrevision, ?_⟩
  simp only [MemoryWork.setBooks, hbooks]

theorem Marks.refl (reason : InvalidationReason) (now : ℤ) (b : MemoryBooks) :
    Marks reason now [] b b where
  rows j := by simp
  history j := by cases b.memories.lookup j <;> simp
  entities := rfl
  nextId := rfl

/-- A row that is marked is not marked again. -/
theorem KeptMemory.marked_marked (m : KeptMemory) :
    (m.marked reason now).marked reason now = m.marked reason now := by
  by_cases hreason : m.stored.row.invalidationReason = none
  · simp [KeptMemory.marked, hreason, KeptMemory.advanced, KeptMemory.invalidated]
  · simp [KeptMemory.marked, hreason]

theorem KeptMemory.markEvents_marked (m : KeptMemory) :
    (m.marked reason now).markEvents reason id = [] := by
  by_cases hreason : m.stored.row.invalidationReason = none
  · simp [KeptMemory.marked, KeptMemory.markEvents, hreason, KeptMemory.advanced,
      KeptMemory.invalidated]
  · simp [KeptMemory.marked, KeptMemory.markEvents, hreason]

theorem markInvalidated_answers {a : Unit} (h : (markInvalidated id reason now).Answers t a u) :
    Marks reason now [id] t.books u.books := by
  unfold markInvalidated at h
  rw [answers_bind] at h
  obtain ⟨_, _, hget, h⟩ := h
  obtain ⟨rfl, rfl⟩ := answers_get.mp hget
  split at h
  · next hopen =>
    obtain ⟨-, rfl⟩ := answers_pure.mp h
    have hkept : ∀ m, u.books.memories.lookup id = some m →
        m.stored.row.invalidationReason ≠ none := by
      intro m hm hnone
      rw [hm, Option.filter_some_pos (by simp [hnone])] at hopen
      cases hopen
    refine ⟨fun j => ?_, fun j => ?_, rfl, rfl⟩
    · by_cases hj : j = id
      · subst hj
        cases hm : u.books.memories.lookup j with
        | none => rfl
        | some m => simp [KeptMemory.marked, hkept m hm]
      · simp [hj]
    · by_cases hj : j = id
      · subst hj
        cases hm : u.books.memories.lookup j with
        | none => rfl
        | some m => simp [KeptMemory.markEvents, hkept m hm]
      · cases u.books.memories.lookup j <;> simp [hj]
  · next m hopen =>
    obtain ⟨hm, hnone⟩ := Option.filter_eq_some_iff.mp hopen
    rw [Option.isNone_iff_eq_none] at hnone
    simp only [answers_bind, answers_pure] at h
    obtain ⟨_, _, hrow, -, rfl⟩ := h
    obtain ⟨m', hm', -, hbooks⟩ := invalidateRow_answers hrow
    obtain rfl : m' = m := Option.some.inj (hm'.symm.trans hm)
    refine ⟨fun j => ?_, fun j => ?_, by rw [hbooks], by rw [hbooks]⟩
    · rw [hbooks, Table.lookup_insert]
      by_cases hj : j = id
      · subst hj
        simp [hm, KeptMemory.marked, hnone]
      · simp [hj]
    · rw [hbooks]
      by_cases hj : j = id
      · subst hj
        simp [MemoryBooks.history, hm, KeptMemory.markEvents, hnone]
      · have hne : (id = j) = False := eq_false (Ne.symm hj)
        simp only [MemoryBooks.history, List.filter_cons, hne, decide_false,
          Bool.false_eq_true, if_false, List.mem_singleton, hj]
        split <;> rfl

theorem Marks.cons {b₁ : MemoryBooks} {affected : List Uuid} (h : Marks reason now [id] b b₁)
    (h' : Marks reason now affected b₁ b') : Marks reason now (id :: affected) b b' where
  rows j := by
    rw [h'.rows, h.rows, Option.map_map]
    congr 1
    funext m
    by_cases hj : j = id
    · subst hj
      by_cases hmem : j ∈ affected
      · simp [hmem, KeptMemory.marked_marked]
      · simp [hmem]
    · simp [hj]
  history j := by
    rw [h'.history, h.history, h.rows]
    cases b.memories.lookup j with
    | none => simp
    | some m =>
      by_cases hj : j = id
      · subst hj
        by_cases hmem : j ∈ affected
        · simp [hmem, KeptMemory.markEvents_marked]
        · simp [hmem]
      · simp [hj]
  entities := h'.entities.trans h.entities
  nextId := h'.nextId.trans h.nextId

theorem invalidateEach_answers {affected : List Uuid} {a : Unit}
    (h : (invalidateEach reason now affected).Answers t a u) :
    Marks reason now affected t.books u.books := by
  induction affected generalizing t with
  | nil =>
    obtain ⟨-, rfl⟩ := answers_pure.mp h
    exact .refl reason now _
  | cons id rest ih =>
    unfold invalidateEach at h
    rw [answers_bind] at h
    obtain ⟨_, t₁, hmark, hrest⟩ := h
    exact (markInvalidated_answers hmark).cons (ih hrest)

/-! ### Correction and supersession -/

/-- The columns that `correct_memory` writes. -/
def KeptMemory.corrected (title body : String) (now : ℤ) (m : KeptMemory) : KeptMemory :=
  { m with
    stored := { m.stored with row := { m.stored.row with title := title } }
    body := body
    correctedAt := some now }

/-- One memory is set at its next revision, with `events` about it, and the `affected` are
marked. -/
structure Struck (set : KeptMemory → KeptMemory) (events : List MemoryEvent)
    (reason : InvalidationReason) (now : ℤ) (id : Uuid) (affected : List Uuid)
    (b b' : MemoryBooks) : Prop where
  rows : ∀ j, b'.memories.lookup j = (b.memories.lookup j).map fun m =>
    if j = id then m.advanced set else if j ∈ affected then m.marked reason now else m
  history : ∀ j, b'.history j = (if j = id then events else
    match b.memories.lookup j with
      | none => []
      | some m => if j ∈ affected then m.markEvents reason j else []) ++ b.history j
  entities : b'.entities = b.entities
  nextId : b'.nextId = b.nextId

theorem yields_lifecycleTarget :
    Yields (Asking c q b) (lifecycleTarget c q id expected) fun m =>
      b.memories.lookup id = some m ∧ m.revision = expected ∧ m.IsCurrent := by
  unfold lifecycleTarget
  refine (yields_eligibleRow .history id).bind fun m hm => ?_
  refine Yields.bind (Q := fun _ => m.revision = expected) (yields_require fun h => h)
    fun _ hrevision => ?_
  refine Yields.bind (Q := fun _ => m.IsCurrent) (yields_require fun h => h)
    fun _ hcurrent => yields_pure ⟨hm.1, hrevision, hcurrent⟩

theorem notMem_closure (b : MemoryBooks) (id : Uuid) :
    id ∉ referenceClosure b.stored true (memoryRecord id) := by
  intro hmem
  have hmemory : isMemoryRef (memoryRecord id) = true := by simp [isMemoryRef, memoryRecord]
  exact (mem_referenceClosure.mp hmem).1 hmemory rfl

/-- The dependents of a memory, in the order in which they are marked. -/
def MemoryBooks.affected (b : MemoryBooks) (id : Uuid) : List Uuid :=
  sortedBy (fun affectedId => affectedId) (referenceClosure b.stored true (memoryRecord id))

theorem mem_affected : j ∈ b.affected id ↔ j ∈ referenceClosure b.stored true (memoryRecord id) :=
  (sortedBy_perm _ _).mem_iff

theorem correctMemory_answers {title body : String}
    (h : (correctMemory c id expected title body).Answers ⟨b, .fresh⟩ a u) :
    ∃ m now, b.memories.lookup id = some m ∧ m.revision = expected ∧ m.IsCurrent ∧
      Struck (.corrected title body now) [] .sourceCorrected now id (b.affected id) b u.books := by
  unfold correctMemory at h
  obtain ⟨q, hasking, h⟩ := answers_opened h
  rw [answers_bind] at h
  obtain ⟨m, t₁, htarget, h⟩ := h
  obtain ⟨hasking, hm, hrevision, hcurrent⟩ := yields_lifecycleTarget hasking htarget
  have hb := hasking.books
  rw [answers_bind] at h
  obtain ⟨_, _, hget, h⟩ := h
  obtain ⟨rfl, rfl⟩ := answers_get.mp hget
  rw [hb] at h
  rw [answers_bind] at h
  obtain ⟨revision, t₂, hset, h⟩ := h
  obtain ⟨m', hm', -, -, hbooks⟩ := compareAndSet_answers hset
  rw [hb] at hm' hbooks
  obtain rfl : m' = m := Option.some.inj (hm'.symm.trans hm)
  rw [answers_bind] at h
  obtain ⟨_, t₃, hmarks, h⟩ := h
  obtain ⟨-, rfl⟩ := answers_pure.mp h
  have hmarked := invalidateEach_answers hmarks
  change Marks _ _ (b.affected id) _ _ at hmarked
  rw [hbooks] at hmarked
  refine ⟨m', q.now, hm, hrevision, hcurrent, fun j => ?_, fun j => ?_, hmarked.entities,
    hmarked.nextId⟩
  · rw [hmarked.rows, Table.lookup_insert]
    by_cases hj : j = id
    · subst hj
      have hout : j ∉ b.affected j := fun hmem => notMem_closure _ _ (mem_affected.mp hmem)
      simp only [if_true, hm, Option.map_some, hout, if_false]
      rfl
    · simp only [hj, if_false]
  · rw [hmarked.history, Table.lookup_insert]
    by_cases hj : j = id
    · subst hj
      have hout : j ∉ b.affected j := fun hmem => notMem_closure _ _ (mem_affected.mp hmem)
      simp only [if_true, hout, if_false]
      rfl
    · simp only [hj, if_false]
      rfl

/-- The tables with a replacement of a memory, before anything else is written. -/
def MemoryBooks.replaced (b : MemoryBooks) (id : Uuid) (m : KeptMemory) (r : Replacement)
    (now : ℤ) : MemoryBooks :=
  { b with
    memories := b.memories.insert b.nextId (r.of id m now).row
    events := ⟨.recorded, b.nextId, r.kind, none, 1⟩ :: b.events
    nextId := b.nextId + 1 }

theorem supersedeMemory_answers {r : Replacement} {a : Uuid}
    (hids : ∀ j m, b.memories.lookup j = some m → j < b.nextId)
    (h : (supersedeMemory c id expected r).Answers ⟨b, .fresh⟩ a u) :
    ∃ m now, b.memories.lookup id = some m ∧ m.revision = expected ∧ m.IsCurrent ∧
      Struck (.invalidated .sourceSuperseded now (some b.nextId))
        [⟨.invalidated, id, m.kind, some .sourceSuperseded, m.revision + 1⟩] .sourceSuperseded now
        id (b.affected id) (b.replaced id m r now) u.books := by
  unfold supersedeMemory at h
  obtain ⟨q, hasking, h⟩ := answers_opened h
  rw [answers_bind] at h
  obtain ⟨m, t₁, htarget, h⟩ := h
  obtain ⟨hasking, hm, hrevision, hcurrent⟩ := yields_lifecycleTarget hasking htarget
  have hb := hasking.books
  rw [answers_bind] at h
  obtain ⟨_, _, hget, h⟩ := h
  obtain ⟨rfl, rfl⟩ := answers_get.mp hget
  rw [hb] at h
  rw [answers_bind] at h
  obtain ⟨replacement, t₂, hwrite, h⟩ := h
  obtain ⟨rfl, hbooks⟩ := writeMemory_answers hwrite
  rw [answers_bind] at h
  obtain ⟨_, t₃, hmarks, h⟩ := h
  have hmarked := invalidateEach_answers hmarks
  change Marks _ _ (b.affected id) _ _ at hmarked
  rw [hb] at hbooks
  change t₂.books = b.replaced id m r q.now at hbooks
  rw [hbooks] at hmarked
  rw [answers_bind] at h
  obtain ⟨_, t₄, hretire, h⟩ := h
  obtain ⟨-, rfl⟩ := answers_pure.mp h
  have hold : (b.replaced id m r q.now).memories.lookup id = some m := by
    simp only [MemoryBooks.replaced, Table.lookup_insert, if_neg (hids id m hm).ne, hm]
  have hout : id ∉ b.affected id := fun hmem => notMem_closure _ _ (mem_affected.mp hmem)
  have hkept : t₃.books.memories.lookup id = some m := by
    rw [hmarked.rows, hold, Option.map_some, if_neg hout]
  simp only [retirePredecessor, answers_bind, answers_get, answers_found, answers_require]
    at hretire
  obtain ⟨_, _, ⟨rfl, rfl⟩, row, _, ⟨hrow, rfl⟩, _, _, ⟨-, rfl⟩, hretire⟩ := hretire
  obtain rfl : row = m := Option.some.inj (hrow.symm.trans hkept)
  obtain ⟨m', hm', -, hbooks'⟩ := invalidateRow_answers hretire
  obtain rfl : m' = row := Option.some.inj (hm'.symm.trans hkept)
  refine ⟨m', q.now, hm, hrevision, hcurrent, fun j => ?_, fun j => ?_, ?_, ?_⟩
  · rw [hbooks', Table.lookup_insert]
    by_cases hj : j = id
    · subst hj
      simp only [if_true, hold, Option.map_some, hb]
    · simp only [hj, if_false, hmarked.rows]
  · rw [hbooks']
    by_cases hj : j = id
    · subst hj
      have hhistory := hmarked.history j
      simp only [hold, hout, if_false, List.nil_append] at hhistory
      simp only [MemoryBooks.history, List.filter_cons, decide_true, if_true, List.singleton_append]
      exact congrArg _ hhistory
    · have hne : (id = j) = False := eq_false (Ne.symm hj)
      simp only [hj, if_false]
      rw [MemoryBooks.history, List.filter_cons]
      simp only [hne, decide_false, Bool.false_eq_true, if_false]
      exact hmarked.history j
  · rw [hbooks']
    exact hmarked.entities
  · rw [hbooks']
    exact hmarked.nextId

end Marking

/-! ### Removal -/

section Removal

variable {c : MemoryCall} {b b₁ b' : MemoryBooks} {t u : MemoryWork} {id j : Uuid}
  {m : KeptMemory} {gone gone' : Finset Uuid} {marked : Bool} {target : RecordRef}

@[simp] theorem KeptMemory.unpoint_mentions (gone : Finset Uuid) (m : KeptMemory) :
    (m.unpoint gone).mentions = m.mentions := rfl

@[simp] theorem KeptMemory.unpoint_links (gone : Finset Uuid) (m : KeptMemory) :
    (m.unpoint gone).stored.links = m.stored.links := StoredMemory.unpoint_links _ gone

/-- The memories of `gone` are removed, with the pointers to them, and with the entities that no
memory mentions any more and no record backs. -/
structure Erased (b b' : MemoryBooks) (gone : Finset Uuid) : Prop where
  there : ∀ j ∈ gone, (b.memories.lookup j).isSome = true
  rows : ∀ j, b'.memories.lookup j =
    if j ∈ gone then none else (b.memories.lookup j).map fun m => m.unpoint gone
  entities : ∀ e row, b'.entities.lookup e = some row → b.entities.lookup e = some row
  kept : ∀ e row, b.entities.lookup e = some row → b'.Mentions e →
    b'.entities.lookup e = some row
  pruned : ∀ e row, b'.entities.lookup e = some row → row.ref = none → b.Mentions e →
    b'.Mentions e
  events : b'.events = b.events
  nextId : b'.nextId = b.nextId

theorem KeptMemory.unpoint_empty (m : KeptMemory) : m.unpoint ∅ = m := by
  rw [KeptMemory.unpoint, StoredMemory.unpoint_empty]

theorem KeptMemory.unpoint_unpoint (m : KeptMemory) (gone gone' : Finset Uuid) :
    (m.unpoint gone).unpoint gone' = m.unpoint (gone ∪ gone') := by
  simp only [KeptMemory.unpoint, StoredMemory.unpoint_unpoint]

theorem Erased.refl (b : MemoryBooks) : Erased b b ∅ where
  there j hj := absurd hj (Finset.notMem_empty j)
  rows j := by simp only [Finset.notMem_empty, if_false, KeptMemory.unpoint_empty, Option.map_id']
  entities _ _ hrow := hrow
  kept _ _ hrow _ := hrow
  pruned _ _ _ _ hmentions := hmentions
  events := rfl
  nextId := rfl

/-- A memory that is left was there. -/
theorem Erased.old (h : Erased b b' gone) {m' : KeptMemory}
    (hm : b'.memories.lookup j = some m') : j ∉ gone ∧
      ∃ m, b.memories.lookup j = some m ∧ m' = m.unpoint gone := by
  rw [h.rows] at hm
  split_ifs at hm with hj
  obtain ⟨m, hold, heq⟩ := Option.map_eq_some_iff.mp hm
  exact ⟨hj, m, hold, heq.symm⟩

theorem Erased.mentions (h : Erased b b' gone) {e : Uuid} (he : b'.Mentions e) : b.Mentions e := by
  obtain ⟨j, m', hm', hmem⟩ := he
  obtain ⟨-, m, hm, rfl⟩ := h.old hm'
  exact ⟨j, m, hm, hmem⟩

theorem Erased.trans (h : Erased b b₁ gone) (h' : Erased b₁ b' gone') :
    Erased b b' (gone ∪ gone') where
  there j hj := by
    rcases Finset.mem_union.mp hj with hj | hj
    · exact h.there j hj
    · obtain ⟨m', hm'⟩ := Option.isSome_iff_exists.mp (h'.there j hj)
      obtain ⟨-, m, hm, -⟩ := h.old hm'
      rw [hm]
      rfl
  rows j := by
    rw [h'.rows, h.rows]
    by_cases hj : j ∈ gone
    · simp [hj]
    · by_cases hj' : j ∈ gone'
      · simp [hj']
      · rw [if_neg hj', if_neg hj, if_neg (by simp [hj, hj']), Option.map_map]
        congr 1
        funext m
        exact m.unpoint_unpoint gone gone'
  entities e row hrow := h.entities e row (h'.entities e row hrow)
  kept e row hrow hmentions := h'.kept e row (h.kept e row hrow (h'.mentions hmentions)) hmentions
  pruned e row hrow href hmentions :=
    h'.pruned e row hrow href (h.pruned e row (h'.entities e row hrow) href hmentions)
  events := h'.events.trans h.events
  nextId := h'.nextId.trans h.nextId

/-- One memory is removed. -/
theorem erased_remove (hm : b.memories.lookup id = some m) : Erased b (b.remove id m) {id} := by
  have hrows : ∀ j, (b.remove id m).memories.lookup j =
      if j ∈ ({id} : Finset Uuid) then none
      else (b.memories.lookup j).map fun m => m.unpoint {id} := by
    intro j
    rw [MemoryBooks.remove, Table.lookup_updateAll]
    by_cases hj : j = id
    · subst hj
      simp
    · rw [if_neg (by simpa using hj), AList.lookup_erase_ne hj]
  have hothers : ∀ e, (Table.existsRow (b.memories.erase id)
      fun _ other => other.mentions.contains e) = true ↔ (b.remove id m).Mentions e := by
    intro e
    rw [Table.existsRow_iff]
    constructor
    · rintro ⟨j, other, hother, hmem⟩
      obtain ⟨hj, hother⟩ := Table.lookup_erase_eq_some.mp hother
      refine ⟨j, other.unpoint {id}, ?_, by simpa using hmem⟩
      rw [hrows, if_neg (by simpa using hj), hother, Option.map_some]
    · rintro ⟨j, other, hother, hmem⟩
      rw [hrows] at hother
      split_ifs at hother with hj
      obtain ⟨old, hold, rfl⟩ := Option.map_eq_some_iff.mp hother
      exact ⟨j, old, Table.lookup_erase_eq_some.mpr ⟨by simpa using hj, hold⟩, by simpa using hmem⟩
  have hentity : ∀ e row, (b.remove id m).entities.lookup e = some row ↔
      b.entities.lookup e = some row ∧
        ¬(e ∈ m.mentions ∧ row.ref = none ∧ ¬(b.remove id m).Mentions e) := by
    intro e row
    rw [← hothers]
    simp only [MemoryBooks.remove, Table.lookup_deleteWhere_eq_some, Bool.and_eq_false_iff,
      Bool.not_eq_false', List.contains_eq_mem, decide_eq_false_iff_not, Option.isNone_eq_false_iff,
      Option.isSome_iff_ne_none, ne_eq]
    tauto
  constructor
  case there =>
    intro j hj
    obtain rfl := Finset.mem_singleton.mp hj
    rw [hm]
    rfl
  case rows => exact hrows
  case entities => exact fun e row hrow => ((hentity e row).mp hrow).1
  case kept =>
    exact fun e row hrow hmentions => (hentity e row).mpr ⟨hrow, fun h => h.2.2 hmentions⟩
  case pruned =>
    rintro e row hrow href ⟨j, other, hother, hmem⟩
    obtain ⟨-, hkept⟩ := (hentity e row).mp hrow
    by_contra hnone
    by_cases hj : j = id
    · subst hj
      obtain rfl : other = m := Option.some.inj (hother.symm.trans hm)
      exact hkept ⟨hmem, href, hnone⟩
    · refine hnone ⟨j, other.unpoint {id}, ?_, hmem⟩
      rw [hrows, if_neg (by simpa using hj), hother, Option.map_some]
  case events => rfl
  case nextId => rfl

variable {a : Unit}

theorem eraseRow_answers {expected : Option ℕ} (h : (eraseRow id expected).Answers t a u) :
    (t.books.memories.lookup id = none ∧ u = t) ∨
      (∃ m, t.books.memories.lookup id = some m ∧ u.books = t.books.remove id m) := by
  unfold eraseRow at h
  rw [answers_bind] at h
  obtain ⟨_, _, hget, h⟩ := h
  obtain ⟨rfl, rfl⟩ := answers_get.mp hget
  split at h
  · next hnone =>
    obtain ⟨-, rfl⟩ := answers_require.mp h
    exact .inl ⟨hnone, rfl⟩
  · next m hm =>
    simp only [answers_bind, answers_require, answers_write] at h
    obtain ⟨_, _, ⟨-, rfl⟩, rfl⟩ := h
    exact .inr ⟨m, hm, rfl⟩

theorem eraseEach_answers {ids : List Uuid} (h : (eraseEach ids).Answers t a u) :
    ∃ gone, Erased t.books u.books gone ∧
      ∀ j, j ∈ gone ↔ j ∈ ids ∧ (t.books.memories.lookup j).isSome = true := by
  induction ids generalizing t with
  | nil =>
    obtain ⟨-, rfl⟩ := answers_pure.mp h
    exact ⟨∅, .refl _, by simp⟩
  | cons id rest ih =>
    unfold eraseEach at h
    rw [answers_bind] at h
    obtain ⟨_, t₁, hrow, hrest⟩ := h
    obtain ⟨gone, herased, hmem⟩ := ih hrest
    rcases eraseRow_answers hrow with ⟨hnone, rfl⟩ | ⟨m, hm, hbooks⟩
    · refine ⟨gone, herased, fun j => ?_⟩
      rw [hmem, List.mem_cons]
      constructor
      · exact fun ⟨hj, hthere⟩ => ⟨.inr hj, hthere⟩
      · rintro ⟨rfl | hj, hthere⟩
        · rw [hnone] at hthere
          cases hthere
        · exact ⟨hj, hthere⟩
    · have hfirst := erased_remove hm
      rw [← hbooks] at hfirst
      refine ⟨{id} ∪ gone, hfirst.trans herased, fun j => ?_⟩
      rw [Finset.mem_union, Finset.mem_singleton, hmem, List.mem_cons, hfirst.rows]
      by_cases hj : j = id
      · subst hj
        simp [hm]
      · simp [hj]

/-- What is removed is closed: what links to the target, and what is derived from what is removed,
is removed. -/
structure Uprooted (marked : Bool) (target : RecordRef) (b b' : MemoryBooks) (gone : Finset Uuid) :
    Prop extends Erased b b' gone where
  closed : ∀ j m link, b.memories.lookup j = some m → link ∈ m.stored.links →
    (marked = true ∨ link.supersessionLineage = false) →
    (link.ref = .ref target ∨
      link.relation = .derivedFrom ∧ ∃ x ∈ gone, link.ref = memoryReference x) → j ∈ gone

/-- A participant takes the closure of a record in what is left of the tables. -/
theorem uprooted_of_closure {ids : List Uuid} (hfirst : Erased b t.books gone)
    (hroot : gone = (if isMemoryRef target then {target.id} else ∅))
    (hids : ∀ j, j ∈ ids ↔ j ∈ referenceClosure t.books.stored marked target)
    (h : (eraseEach ids).Answers t a u) : ∃ all, Uprooted marked target b u.books all ∧
      gone ⊆ all := by
  obtain ⟨later, hlater, hmem⟩ := eraseEach_answers h
  refine ⟨gone ∪ later, ⟨hfirst.trans hlater, ?_⟩, Finset.subset_union_left⟩
  intro j m link hm hlink hmarked hto
  by_cases hj : j ∈ gone
  · exact Finset.mem_union_left _ hj
  have hrow : t.books.memories.lookup j = some (m.unpoint gone) := by
    rw [hfirst.rows, if_neg hj, hm, Option.map_some]
  have hstored : t.books.stored.lookup j = some (m.unpoint gone).stored :=
    lookup_stored.mpr ⟨_, hrow, rfl⟩
  have hlink' : link ∈ (m.unpoint gone).stored.links := by
    rw [KeptMemory.unpoint_links]
    exact hlink
  have htarget : isMemoryRef target = true → j ≠ target.id := by
    rintro hmemory rfl
    rw [hroot, if_pos hmemory] at hj
    exact hj (Finset.mem_singleton_self _)
  have hfound : j ∈ referenceClosure t.books.stored marked target := by
    have hfrom : link.ref = .ref target → j ∈ referenceClosure t.books.stored marked target := by
      intro href
      have hlinked : j ∈ linkedTo t.books.stored marked (fun _ => true) (.ref target) :=
        mem_linkedTo.mpr ⟨_, hstored, link, hlink', href, hmarked, rfl⟩
      exact (mem_closure_of_linked hlinked).resolve_right fun hself => htarget hself.1 hself.2
    rcases hto with href | ⟨hderived, x, hx, href⟩
    · exact hfrom href
    rcases Finset.mem_union.mp hx with hx | hx
    · rw [hroot] at hx
      split_ifs at hx with hmemory
      · obtain rfl := Finset.mem_singleton.mp hx
        rw [memoryReference_of_isMemoryRef hmemory] at href
        exact hfrom href
      · exact absurd hx (Finset.notMem_empty _)
    · have hderives : j ∈ derivedOf t.books.stored marked x :=
        mem_linkedTo.mpr ⟨_, hstored, link, hlink', href, hmarked, by simpa using hderived⟩
      have hclosure := (hids x).mp ((hmem x).mp hx).1
      exact (mem_closure_of_derived hclosure hderives).resolve_right
        fun hself => htarget hself.1 hself.2
  refine Finset.mem_union_right _ ((hmem j).mpr ⟨(hids j).mpr hfound, ?_⟩)
  rw [hrow]
  rfl

/-- The participant, after the owner removed the memory. -/
theorem uprooted_of_deleted {erasure : Bool} {revision : ℕ} {a' : Unit}
    (hm : t.books.memories.lookup id = some m) {t₁ : MemoryWork}
    (hrow : (eraseRow id (some revision)).Answers t a t₁)
    (h : (onRecordDeleted (memoryRecord id) erasure).Answers t₁ a' u) :
    ∃ gone, Uprooted erasure (memoryRecord id) t.books u.books gone ∧ id ∈ gone := by
  have hmemory : isMemoryRef (memoryRecord id) = true := by simp [isMemoryRef, memoryRecord]
  rcases eraseRow_answers hrow with ⟨hnone, -⟩ | ⟨m', hm', hbooks⟩
  · rw [hm] at hnone
    cases hnone
  have hfirst := erased_remove hm'
  rw [← hbooks] at hfirst
  unfold onRecordDeleted at h
  rw [if_neg (by simp [memoryRecord, deletionParticipantTypes]), if_neg (by simp [hmemory]),
    answers_bind] at h
  obtain ⟨_, _, hget, h⟩ := h
  obtain ⟨rfl, rfl⟩ := answers_get.mp hget
  have hroot : ({id} : Finset Uuid) = if isMemoryRef (memoryRecord id) then
      {(memoryRecord id).id} else ∅ := by rw [if_pos hmemory, memoryRecord]
  obtain ⟨gone, huprooted, hsubset⟩ := uprooted_of_closure hfirst hroot
    (fun j => (sortedBy_perm _ _).mem_iff) h
  exact ⟨gone, huprooted, hsubset (Finset.mem_singleton_self id)⟩

theorem deleteApproved_answers {approved : ℕ} (h : (deleteApproved c id approved).Answers t a u) :
    ∃ m gone, t.books.memories.lookup id = some m ∧ m.revision = approved ∧
      deletionAdmits c m = true ∧ Uprooted true (memoryRecord id) t.books u.books gone ∧
        id ∈ gone := by
  unfold deleteApproved at h
  rw [answers_bind] at h
  obtain ⟨_, _, hget, h⟩ := h
  obtain ⟨rfl, rfl⟩ := answers_get.mp hget
  rw [answers_bind] at h
  obtain ⟨m, _, hfound, h⟩ := h
  obtain ⟨hm, rfl⟩ := answers_found.mp hfound
  rw [answers_bind] at h
  obtain ⟨_, _, hallowed, h⟩ := h
  obtain ⟨hadmits, rfl⟩ := answers_require.mp hallowed
  rw [answers_bind] at h
  obtain ⟨_, _, hcompared, h⟩ := h
  obtain ⟨hrevision, rfl⟩ := answers_require.mp hcompared
  rw [answers_bind] at h
  obtain ⟨_, t₁, hrow, h⟩ := h
  obtain ⟨gone, huprooted, hid⟩ := uprooted_of_deleted hm hrow h
  exact ⟨m, gone, hm, hrevision, hadmits, huprooted, hid⟩

theorem expireScheduled_answers (h : (expireScheduled c id).Answers t a u) :
    ∃ m gone, t.books.memories.lookup id = some m ∧
      Uprooted false (memoryRecord id) t.books u.books gone ∧ id ∈ gone := by
  unfold expireScheduled at h
  rw [answers_bind] at h
  obtain ⟨_, _, hget, h⟩ := h
  obtain ⟨rfl, rfl⟩ := answers_get.mp hget
  rw [answers_bind] at h
  obtain ⟨m, _, hfound, h⟩ := h
  obtain ⟨hm, rfl⟩ := answers_found.mp hfound
  rw [answers_bind] at h
  obtain ⟨_, t₁, hallowed, h⟩ := h
  simp only [expiryAllowed, opened, answers_bind, answers_require, answers_found] at hallowed
  obtain ⟨_, _, ⟨-, rfl⟩, _, _, ⟨-, rfl⟩, -, rfl⟩ := hallowed
  rw [answers_bind] at h
  obtain ⟨_, t₂, hrow, h⟩ := h
  obtain ⟨gone, huprooted, hid⟩ := uprooted_of_deleted hm hrow h
  exact ⟨m, gone, hm, huprooted, hid⟩

/-- The participant, for a record of another module. -/
theorem onRecordDeleted_answers (hother : isMemoryRef target = false)
    (h : (onRecordDeleted target true).Answers t a u) :
    ∃ gone, Erased t.books u.books gone ∧ ∀ j m link, t.books.memories.lookup j = some m →
      link ∈ m.stored.links → link.relation = .derivedFrom →
        (∃ x ∈ gone, link.ref = memoryReference x) → j ∈ gone := by
  unfold onRecordDeleted at h
  by_cases htypes :
      deletionParticipantTypes.contains (target.moduleId, target.recordType) = false
  · rw [if_pos htypes] at h
    obtain ⟨-, rfl⟩ := answers_pure.mp h
    exact ⟨∅, .refl _, fun _ _ _ _ _ _ ⟨x, hx, _⟩ => absurd hx (Finset.notMem_empty x)⟩
  rw [if_neg htypes, if_neg (by simp), answers_bind] at h
  obtain ⟨_, _, hget, h⟩ := h
  obtain ⟨rfl, rfl⟩ := answers_get.mp hget
  obtain ⟨gone, huprooted, -⟩ := uprooted_of_closure (.refl _) (by rw [hother]; rfl)
    (fun j => (sortedBy_perm _ _).mem_iff) h
  exact ⟨gone, huprooted.toErased, fun j m link hm hlink hderived hto =>
    huprooted.closed j m link hm hlink (.inl rfl) (.inr ⟨hderived, hto⟩)⟩

end Removal

end Rheostream.Recallatron
