import Rheostream.Recallatron.MemoryWrites

/-!
# The lifecycle of a memory

`lifecycle.py`: one closure walk and what a correction, a supersession, an erasure and an expiry
do with what it finds, over the writes of a memory. Every operation runs under the lifecycle lock
of its workspace, so they run one after the other.
-/

namespace Rheostream.Recallatron

open Handler

/-! ### The closure of a record -/

/-- `list_memory_dependents`, as the walk follows them. -/
def linkedTo (memories : Memories) (marked : Bool) (follows : Relation → Bool)
    (reference : RefText) : List Uuid :=
  (sortedBy Sigma.fst ((memories.select fun _ m => m.links.any fun link =>
    decide (link.ref = reference) && (marked || !link.supersessionLineage) &&
      follows link.relation).entries)).map Sigma.fst

/-- What a memory of the closure leads to: `derived_from` only. -/
def derivedOf (memories : Memories) (marked : Bool) (id : Uuid) : List Uuid :=
  linkedTo memories marked (fun relation => relation = .derivedFrom) (memoryReference id)

/-- `_reference_closure`: the first hop takes either relation. -/
def referenceClosure (memories : Memories) (marked : Bool) (target : RecordRef) : List Uuid :=
  Search.closureFrom (derivedOf memories marked) memories.entries.length
    (linkedTo memories marked (fun _ => true) (.ref target))
    (if isMemoryRef target then [target.id] else [])

/-- The reference of a memory, as a record. -/
def memoryRecord (id : Uuid) : RecordRef := ⟨"recallatron", "memory", id⟩

/-! ### Writes under a revision -/

/-- `StaleRecord`, as the dispatcher answers it. -/
def recordStale : String := "record_stale"

/-- `_compare_and_set`. -/
def compareAndSet (id : Uuid) (expected : ℕ) (set : KeptMemory → KeptMemory) :
    MemoryHandler ℕ := do
  let t ← get
  let memories ← found (t.books.memories.updateRow id
    ⟨fun m => m.revision = expected, fun m => { set m with revision := expected + 1 }⟩) recordStale
  write fun t => t.setBooks fun b => { b with memories := memories }
  pure (expected + 1)

/-- The columns that `invalidate_memory` writes. -/
def KeptMemory.invalidated (reason : InvalidationReason) (now : ℤ) (successor : Option Uuid)
    (m : KeptMemory) : KeptMemory :=
  { m with stored := { m.stored with
      row := { m.stored.row with
        invalidatedAt := some now
        invalidationReason := some reason
        supersededById := successor.or m.stored.row.supersededById } } }

/-- `_invalidate_row`. -/
def invalidateRow (id : Uuid) (m : KeptMemory) (expected : ℕ) (reason : InvalidationReason)
    (now : ℤ) (successor : Option Uuid) : MemoryHandler ℕ := do
  let revision ← compareAndSet id expected (KeptMemory.invalidated reason now successor)
  write fun t => t.setBooks fun b =>
    { b with events := ⟨.invalidated, id, m.kind, some reason, revision⟩ :: b.events }
  pure revision

/-- `_mark_invalidated`: a row with a reason is left as it is. -/
def markInvalidated (id : Uuid) (reason : InvalidationReason) (now : ℤ) : MemoryHandler Unit := do
  let t ← get
  match (t.books.memories.lookup id).filter fun m => m.stored.row.invalidationReason.isNone with
  | none => pure ()
  | some m => do
    let _ ← invalidateRow id m m.revision reason now none
    pure ()

/-- `_invalidate_closure`, after its sorting. -/
def invalidateEach (reason : InvalidationReason) (now : ℤ) : List Uuid → MemoryHandler Unit
  | [] => pure ()
  | id :: rest => do
    markInvalidated id reason now
    invalidateEach reason now rest

/-- `_retire_predecessor`. -/
def retirePredecessor (id : Uuid) (predecessor : KeptMemory) (successor : Uuid) (now : ℤ) :
    MemoryHandler ℕ := do
  let t ← get
  let m ← found (t.books.memories.lookup id) recordStale
  require (m.stored.row.invalidationReason = none ∧ m.stored.row.supersededById = none) recordStale
  invalidateRow id m predecessor.revision .sourceSuperseded now (some successor)

/-- `_target`: authorized as history, compared, and only then asked to be current. -/
def lifecycleTarget (c : MemoryCall) (q : MemoryRequest) (id : Uuid) (expected : ℕ) :
    MemoryHandler KeptMemory := do
  let m ← eligibleRow c q .history id
  require (m.revision = expected) recordStale
  require (m.stored.row.invalidatedAt = none ∧ m.stored.row.supersededById = none) notFound
  pure m

/-! ### Correction and supersession -/

/-- `correct`. -/
def correctMemory (c : MemoryCall) (id : Uuid) (expected : ℕ) (title body : String) :
    MemoryHandler ℕ := do
  let q ← opened c
  let m ← lifecycleTarget c q id expected
  let t ← get
  let affected := referenceClosure t.books.stored true (memoryRecord id)
  let revision ← compareAndSet id m.revision fun m =>
    { m with
      stored := { m.stored with row := { m.stored.row with title := title } }
      body := body
      correctedAt := some q.now }
  invalidateEach .sourceCorrected q.now (sortedBy (fun affectedId => affectedId) affected)
  pure revision

/-- The content of a replacement. -/
structure Replacement where
  kind : String
  title : String
  body : String

/-- The replacement of a predecessor: its audience, its purposes and its links, and one marked link
to it. -/
def Replacement.of (r : Replacement) (id : Uuid) (predecessor : KeptMemory) (now : ℤ) :
    NewMemory where
  kind := r.kind
  title := r.title
  body := r.body
  audience := predecessor.audience
  purposes := predecessor.stored.purposes
  recordedAt := now
  links := predecessor.stored.links ++ [⟨memoryReference id, .derivedFrom, true⟩]
  mentions := []

/-- `supersede`: the closure is captured before there is a replacement. -/
def supersedeMemory (c : MemoryCall) (id : Uuid) (expected : ℕ) (r : Replacement) :
    MemoryHandler Uuid := do
  let q ← opened c
  let predecessor ← lifecycleTarget c q id expected
  let t ← get
  let affected := referenceClosure t.books.stored true (memoryRecord id)
  let replacement ← writeMemory (r.of id predecessor q.now)
  invalidateEach .sourceSuperseded q.now (sortedBy (fun affectedId => affectedId) affected)
  let _ ← retirePredecessor id predecessor replacement q.now
  pure replacement

/-! ### Removal -/

/-- `ON DELETE SET NULL` of `superseded_by_id`. -/
def KeptMemory.unpoint (gone : Finset Uuid) (m : KeptMemory) : KeptMemory :=
  { m with stored := m.stored.unpoint gone }

/-- The removal of one memory: its mentions, with each entity that loses its last one and has no
backing reference, and then the row. -/
def MemoryBooks.remove (b : MemoryBooks) (id : Uuid) (m : KeptMemory) : MemoryBooks :=
  { b with
    memories := Table.updateAll (b.memories.erase id) fun _ other => other.unpoint {id}
    entities := b.entities.deleteWhere fun entity row =>
      m.mentions.contains entity && row.ref.isNone &&
        !Table.existsRow (b.memories.erase id) fun _ other => other.mentions.contains entity }

/-- One row of `_erase`. -/
def eraseRow (id : Uuid) (expected : Option ℕ) : MemoryHandler Unit := do
  let t ← get
  match t.books.memories.lookup id with
  | none => require (expected = none) recordStale
  | some m => do
    require (∀ revision ∈ expected, m.revision = revision) recordStale
    write fun t => t.setBooks fun b => b.remove id m

/-- `_erase` of a closure. -/
def eraseEach : List Uuid → MemoryHandler Unit
  | [] => pure ()
  | id :: rest => do
    eraseRow id none
    eraseEach rest

/-- `DELETION_PARTICIPANT_TYPES`. -/
def deletionParticipantTypes : List (String × String) :=
  [("recallatron", "memory"), ("leads", "observation"), ("leads", "opportunity"),
    ("relationships", "party")]

/-- `on_record_deleted`, for an erasure by a user or for a scheduled expiry. -/
def onRecordDeleted (target : RecordRef) (erasure : Bool) : MemoryHandler Unit :=
  if deletionParticipantTypes.contains (target.moduleId, target.recordType) = false then pure ()
  else if isMemoryRef target = false ∧ erasure = false then pure ()
  else do
    let t ← get
    eraseEach (sortedBy (fun id => id) (referenceClosure t.books.stored erasure target))

/-- `LIFECYCLE_ROLES`. -/
def lifecycleRoles : List Role := [.owner, .member]

/-- `deletion_admits`. -/
def deletionAdmits (c : MemoryCall) (m : KeptMemory) : Bool :=
  c.enabledModules.contains "recallatron" && lifecycleRoles.contains c.role &&
    (c.role = .owner || m.stored.row.audienceKind = .workspace ||
      (c.accountId.isSome && m.stored.row.audienceId = c.accountId)) &&
    c.boundPurpose.all fun purpose => m.stored.purposes.contains purpose.value

/-- `delete_owned` of a memory, under an approval at a revision, with the participant after it. -/
def deleteApproved (c : MemoryCall) (id : Uuid) (approved : ℕ) : MemoryHandler Unit := do
  let t ← get
  let m ← found (t.books.memories.lookup id) notFound
  require (deletionAdmits c m = true) notFound
  require (m.revision = approved) recordStale
  eraseRow id (some m.revision)
  onRecordDeleted (memoryRecord id) true

/-- `expiry_admits`. -/
def expiryAllowed (c : MemoryCall) (m : KeptMemory) : MemoryHandler Unit := do
  require (c.enabledModules.contains "recallatron" = true ∧ m.stored.row.audienceKind = .workspace)
    notFound
  let q ← opened c
  require (q.ageExpired m.stored.row = true) notFound

/-- A scheduled expiry: the owner's half and the participant's, over the unmarked links. -/
def expireScheduled (c : MemoryCall) (id : Uuid) : MemoryHandler Unit := do
  let t ← get
  let m ← found (t.books.memories.lookup id) notFound
  expiryAllowed c m
  eraseRow id (some m.revision)
  onRecordDeleted (memoryRecord id) false

/-! ### The calls -/

inductive MemoryAction where
  | remember (input : WriteInput) (provenanceRefs : List RefText)
  | derive (input : WriteInput) (sources : List RefText)
  | accept (kind : String) (unit : SourceUnits.TrustedSourceUnit)
  | correct (id : Uuid) (expected : ℕ) (title body : String)
  | supersede (id : Uuid) (expected : ℕ) (r : Replacement)
  | delete (id : Uuid) (approved : ℕ)
  | expire (id : Uuid)
  /-- The erasure of a record of another module that the participant subscribes to. -/
  | recordDeleted (target : RecordRef)

/-- The handler of a call. -/
def MemoryAction.handler (c : MemoryCall) : MemoryAction → MemoryHandler Unit
  | .remember input provenanceRefs => do
    let _ ← Recallatron.remember c input provenanceRefs
    pure ()
  | .derive input sources => do
    let _ ← Recallatron.derive c input sources
    pure ()
  | .accept kind unit => do
    let _ ← acceptUnit c kind unit
    pure ()
  | .correct id expected title body => do
    let _ ← correctMemory c id expected title body
    pure ()
  | .supersede id expected r => do
    let _ ← supersedeMemory c id expected r
    pure ()
  | .delete id approved => deleteApproved c id approved
  | .expire id => expireScheduled c id
  | .recordDeleted target => do
    require (isMemoryRef target = false) notFound
    onRecordDeleted target true

/-- A call on its own transaction, with a request that has decided nothing. -/
def MemoryAction.run (c : MemoryCall) (a : MemoryAction) (b : MemoryBooks) : MemoryBooks :=
  ((a.handler c).dispatch ⟨b, .fresh⟩).2.books

/-- A workspace without memories. -/
def emptyBooks : MemoryBooks := ⟨∅, ∅, [], 0⟩

/-- The calls on the memories of a workspace, one after the other. A restore of the workspace and
the retention sweep are not among them. -/
def memoryMachine : Machine MemoryBooks (MemoryCall × MemoryAction) where
  init b := b = emptyBooks
  step b a := some (a.2.run a.1 b)

end Rheostream.Recallatron
