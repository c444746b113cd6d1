import Rheostream.Foundation.Machine
import Rheostream.Foundation.Selection
import Rheostream.Foundation.Table
import Rheostream.Foundation.Values

/-!
# The vector index

The vectors of Recallatron's memories and everything that writes them: the statements of
`lifecycle.py` and `writes.py` that change a memory's text or retire it, the embed job, and the
rebuild. Each transaction is a flight that issues one statement at a time. What it wrote is its
own until it commits, another flight's statement waits for the rows it locks, and a crash, a
refusal and a provider that raises all drop it.
-/

namespace Rheostream.Recallatron.Embedding

/-- The `model_id` of a provider. -/
abbrev ModelId := String

/-- The columns of `memory` that its vectors depend on. -/
structure MemoryRow where
  title : String
  body : String
  revision : ℕ
  invalidatedAt : Option ℤ
  supersededById : Option Uuid
  deriving DecidableEq

/-- `is_live_memory`, which is `_live_memory` asked of a row already read. -/
def isLiveMemory (row : MemoryRow) : Bool :=
  row.invalidatedAt.isNone && row.supersededById.isNone

/-- A title and a body handed to a provider. -/
structure IndexItem where
  title : String
  body : String
  deriving DecidableEq

/-- The text of a memory row. -/
def MemoryRow.item (row : MemoryRow) : IndexItem := ⟨row.title, row.body⟩

/-- A row of `memory_embedding`: what its vector was made from, and the number of the commit
that wrote the row. -/
structure MemoryEmbeddingRow where
  madeFrom : IndexItem
  writtenBy : ℕ
  deriving DecidableEq

/-- The primary key of `memory_embedding`. -/
abbrev EmbeddingKey := Uuid × ModelId

/-- A queued embed job, with the number of the commit that queued it. -/
structure EmbedJob where
  memoryId : Uuid
  queuedBy : ℕ
  deriving DecidableEq

/-- `EMBED_INPUT_VERSION`. -/
def embedInputVersion : ℕ := 1

/-- `should_enqueue_embed`. -/
def shouldEnqueueEmbed (strategyName : String) (provider : Option ModelId) : Bool :=
  provider.isSome && (strategyName = "dense" || strategyName = "hybrid")

/-- The statements of a lifecycle writer that its vectors depend on. -/
inductive Statement where
  /-- `_target`. -/
  | target (id : Uuid) (expectedRevision : ℕ)
  /-- The insert of `write_memory`. -/
  | insertMemory (id : Uuid) (title body : String)
  /-- `correct_memory`. -/
  | correctMemory (id : Uuid) (title body : String) (expectedRevision : ℕ)
  /-- The read of `_mark_invalidated`. -/
  | markInvalidated (id : Uuid) (now : ℤ)
  /-- The read of `_retire_predecessor`. -/
  | retirePredecessor (id : Uuid) (expectedRevision : ℕ) (successor : Uuid) (now : ℤ)
  /-- `invalidate_memory`, the first statement of `_invalidate_row`. -/
  | invalidateMemory (id : Uuid) (expectedRevision : ℕ) (successor : Option Uuid) (now : ℤ)
  /-- `delete_memory_embeddings`. -/
  | deleteMemoryEmbeddings (id : Uuid)
  /-- `enqueue_embed_job`. -/
  | enqueueEmbedJob (id : Uuid)
  /-- `delete_memory`. -/
  | deleteMemory (id : Uuid) (expectedRevision : Option ℕ)
  deriving DecidableEq

/-- `_invalidate_closure`. -/
def invalidateClosure (affected : List Uuid) (now : ℤ) : List Statement :=
  (sortedBy id affected).map (Statement.markInvalidated · now)

/-- `correct`. -/
def correct (id : Uuid) (title body : String) (expectedRevision : ℕ) (affected : List Uuid)
    (now : ℤ) : List Statement :=
  .target id expectedRevision :: .correctMemory id title body expectedRevision ::
    invalidateClosure affected now

/-- `supersede`. -/
def supersede (id : Uuid) (expectedRevision : ℕ) (replacement : Uuid) (title body : String)
    (affected : List Uuid) (now : ℤ) : List Statement :=
  .target id expectedRevision :: .insertMemory replacement title body ::
    (invalidateClosure affected now ++ [.retirePredecessor id expectedRevision replacement now])

/-- `_erase`. -/
def erase (expectedRevisions : List (Uuid × Option ℕ)) : List Statement :=
  (sortedBy Prod.fst expectedRevisions).map fun row => .deleteMemory row.1 row.2

/-- A lifecycle writer, with the statements it has not issued. -/
structure Writer where
  rest : List Statement
  /-- Its versions of the memory rows it locks, newest first; a deleted row has none. -/
  writes : List (Uuid × Option MemoryRow)
  /-- The vectors it deleted, each with the commit that wrote it. -/
  pruned : List (EmbeddingKey × ℕ)
  queued : List Uuid
  /-- The memories for which `enqueue_embed_job` answered `False`. -/
  skipped : List Uuid

/-- Where an embed job is. -/
inductive JobPhase where
  | claimed
  /-- The memory's row is locked `FOR SHARE` and live. -/
  | locked (row : MemoryRow)
  /-- The model has no vector for the memory, and its provider is called. -/
  | called (row : MemoryRow) (model : ModelId)
  | wrote (row : MemoryRow) (model : ModelId)
  /-- There was nothing to do. -/
  | returned
  deriving DecidableEq

structure JobRun where
  job : EmbedJob
  phase : JobPhase

/-- Where a rebuild is. -/
inductive RebuildPhase where
  | resolved
  /-- The vectors of other models are deleted. -/
  | prunedModels
  | prunedVersions
  /-- The next batch is read after this identifier. -/
  | walking (after : Option Uuid)
  /-- The provider is called for these rows, and the vectors of these are not inserted. -/
  | inserting (items : List (Uuid × IndexItem)) (after : Option Uuid)
  | walked
  /-- What the walk left is handed to jobs. -/
  | handedOff
  deriving DecidableEq

structure Rebuild where
  model : ModelId
  batchSize : ℕ
  phase : RebuildPhase
  /-- The rows it locked `FOR SHARE`. -/
  shared : List Uuid
  pruned : List (EmbeddingKey × ℕ)
  vectors : List (EmbeddingKey × IndexItem)
  queued : List Uuid
  stamp : Option ℕ

/-- A transaction that has not ended. -/
inductive Flight where
  | writing (w : Writer)
  | embedding (j : JobRun)
  | rebuilding (r : Rebuild)

namespace Flight

/-- The flight's own versions of memory rows. -/
def writes : Flight → List (Uuid × Option MemoryRow)
  | writing w => w.writes
  | _ => []

/-- The flight changed the row, and keeps it locked for itself. -/
def owns (f : Flight) (id : Uuid) : Bool := (f.writes.lookup id).isSome

/-- The flight locked the row `FOR SHARE`. -/
def shares (f : Flight) (id : Uuid) : Bool :=
  match f with
  | writing _ => false
  | embedding j => j.phase ≠ .claimed && j.job.memoryId = id
  | rebuilding r => r.shared.contains id

/-- The vectors the flight deleted. -/
def pruned : Flight → List (EmbeddingKey × ℕ)
  | writing w => w.pruned
  | embedding _ => []
  | rebuilding r => r.pruned

/-- The vectors the flight inserted, each with what it was made from. -/
def vectors : Flight → List (EmbeddingKey × IndexItem)
  | writing _ => []
  | embedding j =>
    match j.phase with
    | .wrote row model => [((j.job.memoryId, model), row.item)]
    | _ => []
  | rebuilding r => r.vectors

/-- The memories the flight queued an embed job for. -/
def queued : Flight → List Uuid
  | writing w => w.queued
  | embedding _ => []
  | rebuilding r => r.queued

/-- The job that ends with the flight. -/
def job : Flight → Option EmbedJob
  | embedding j => some j.job
  | _ => none

def stamp : Flight → Option ℕ
  | rebuilding r => r.stamp
  | _ => none

/-- The flight has issued all its statements. -/
def finished : Flight → Bool
  | writing w => w.rest.isEmpty
  | embedding j =>
    match j.phase with
    | .wrote _ _ | .returned => true
    | _ => false
  | rebuilding r => r.phase = .handedOff

end Flight

/-- The tables of one workspace, with the transactions under way. -/
structure IndexState where
  memories : Table Uuid MemoryRow
  embeddings : Table EmbeddingKey MemoryEmbeddingRow
  /-- The embed jobs that have not ended. -/
  jobs : List EmbedJob
  /-- The row of `embedding_state`. -/
  version : Option ℕ
  commits : ℕ
  flights : Table ℕ Flight

/-- The changes of a flight to `memory`, the newest of each row last. -/
def applyWrites (memories : Table Uuid MemoryRow) (writes : List (Uuid × Option MemoryRow)) :
    Table Uuid MemoryRow :=
  writes.foldr (fun w t => match w.2 with
    | some row => t.insert w.1 row
    | none => t.erase w.1) memories

/-- `ON DELETE SET NULL` of `superseded_by_id`. -/
def unpoint (writes : List (Uuid × Option MemoryRow)) (row : MemoryRow) : MemoryRow :=
  if row.supersededById.any fun id => writes.lookup id = some none then
    { row with supersededById := none }
  else row

namespace IndexState

variable (s : IndexState)

/-- Some other flight changed the row. -/
def ownedElsewhere (tx : ℕ) (id : Uuid) : Bool :=
  s.flights.existsRow fun other f => other ≠ tx && f.owns id

/-- Some other flight holds a lock on the row. -/
def heldElsewhere (tx : ℕ) (id : Uuid) : Bool :=
  s.flights.existsRow fun other f => other ≠ tx && (f.owns id || f.shares id)

/-- Some other flight inserted a vector under the key. -/
def insertedElsewhere (tx : ℕ) (key : EmbeddingKey) : Bool :=
  s.flights.existsRow fun other f => other ≠ tx && f.vectors.any fun v => v.1 = key

/-- The memory row that a writer sees. -/
def rowSeen (w : Writer) (id : Uuid) : Option MemoryRow :=
  (w.writes.lookup id).getD (s.memories.lookup id)

/-- The committed vectors under a condition on their key. -/
def embeddingsWhere (p : EmbeddingKey → Bool) : List (EmbeddingKey × ℕ) :=
  (s.embeddings.select fun key _ => p key).entries.map fun e => (e.1, e.2.writtenBy)

def put (tx : ℕ) (f : Flight) : IndexState := { s with flights := s.flights.insert tx f }

def drop (tx : ℕ) : IndexState := { s with flights := s.flights.erase tx }

/-- A new transaction. -/
def start (tx : ℕ) (f : Flight) : Option IndexState :=
  match s.flights.lookup tx with
  | some _ => none
  | none => some (s.put tx f)

/-- The next statement of a writer. One that raises, or waits for another transaction, is not
enabled: what is left to the first is to roll back. -/
def issue (tx : ℕ) (strategyName : String) (provider : Option ModelId) (w : Writer)
    (statement : Statement) : Option Writer :=
  match statement with
  | .target id expectedRevision =>
    match s.rowSeen w id with
    | none => none
    | some row =>
      if row.revision = expectedRevision && isLiveMemory row then some w else none
  | .insertMemory id title body =>
    if (s.rowSeen w id).isSome || (w.writes.lookup id).isSome || s.heldElsewhere tx id then none
    else some { w with
      rest := .enqueueEmbedJob id :: w.rest
      writes := (id, some ⟨title, body, 1, none, none⟩) :: w.writes }
  | .correctMemory id title body expectedRevision =>
    match s.rowSeen w id with
    | none => none
    | some row =>
      if row.revision ≠ expectedRevision || s.heldElsewhere tx id then none
      else some { w with
        rest := .deleteMemoryEmbeddings id :: .enqueueEmbedJob id :: w.rest
        writes := (id, some { row with
          title := title, body := body, revision := expectedRevision + 1 }) :: w.writes }
  | .markInvalidated id now =>
    match s.rowSeen w id with
    | none => some w
    | some row =>
      if row.invalidatedAt.isSome then some w
      else some { w with rest := .invalidateMemory id row.revision none now :: w.rest }
  | .retirePredecessor id expectedRevision successor now =>
    match s.rowSeen w id with
    | none => none
    | some row =>
      if row.invalidatedAt.isSome || row.supersededById.isSome then none
      else some { w with
        rest := .invalidateMemory id expectedRevision (some successor) now :: w.rest }
  | .invalidateMemory id expectedRevision successor now =>
    match s.rowSeen w id with
    | none => none
    | some row =>
      if row.revision ≠ expectedRevision || s.heldElsewhere tx id then none
      else some { w with
        rest := .deleteMemoryEmbeddings id :: w.rest
        writes := (id, some { row with
          invalidatedAt := some now, revision := expectedRevision + 1,
          supersededById := successor.or row.supersededById }) :: w.writes }
  | .deleteMemoryEmbeddings id =>
    some { w with pruned := s.embeddingsWhere (fun key => key.1 = id) ++ w.pruned }
  | .enqueueEmbedJob id =>
    if shouldEnqueueEmbed strategyName provider then some { w with queued := id :: w.queued }
    else some { w with skipped := id :: w.skipped }
  | .deleteMemory id expectedRevision =>
    match s.rowSeen w id with
    | none => if expectedRevision.isSome then none else some w
    | some row =>
      if expectedRevision.any (· ≠ row.revision) || s.heldElsewhere tx id then none
      else some { w with writes := (id, none) :: w.writes }

/-- A writer issues its next statement. -/
def advance (tx : ℕ) (strategyName : String) (provider : Option ModelId) : Option IndexState :=
  match s.flights.lookup tx with
  | some (.writing w) =>
    match w.rest with
    | [] => none
    | statement :: rest =>
      (s.issue tx strategyName provider { w with rest := rest } statement).map fun w' =>
        s.put tx (.writing w')
  | _ => none

/-- A worker takes an embed job. -/
def claim (tx : ℕ) (job : EmbedJob) : Option IndexState :=
  if s.jobs.contains job then s.start tx (.embedding ⟨job, .claimed⟩) else none

/-- The read of `run_embed_job`, `lock_memory_for_embedding`. -/
def lockMemory (tx : ℕ) (j : JobRun) : Option JobRun :=
  if s.ownedElsewhere tx j.job.memoryId then none
  else match s.memories.lookup j.job.memoryId with
    | none => some { j with phase := .returned }
    | some row =>
      if isLiveMemory row then some { j with phase := .locked row }
      else some { j with phase := .returned }

/-- `resolve_provider` and `get_memory_embedding`. -/
def resolveProvider (provider : Option ModelId) (j : JobRun) (row : MemoryRow) : JobRun :=
  match provider with
  | none => { j with phase := .returned }
  | some model =>
    match s.embeddings.lookup (j.job.memoryId, model) with
    | some _ => { j with phase := .returned }
    | none => { j with phase := .called row model }

/-- The insert of `index_many` in an embed job, after its provider answered. -/
def insertVector (tx : ℕ) (j : JobRun) (row : MemoryRow) (model : ModelId) : Option JobRun :=
  if s.insertedElsewhere tx (j.job.memoryId, model) then none
  else match s.embeddings.lookup (j.job.memoryId, model) with
    | some _ => some { j with phase := .returned }
    | none => some { j with phase := .wrote row model }

/-- An embed job goes on. -/
def embed (tx : ℕ) (provider : Option ModelId) : Option IndexState :=
  match s.flights.lookup tx with
  | some (.embedding j) =>
    match j.phase with
    | .claimed => (s.lockMemory tx j).map fun j' => s.put tx (.embedding j')
    | .locked row => some (s.put tx (.embedding (s.resolveProvider provider j row)))
    | .called row model => (s.insertVector tx j row model).map fun j' => s.put tx (.embedding j')
    | .wrote _ _ | .returned => none
  | _ => none

/-- `_has_embedding`, as a rebuild sees it. -/
def hasEmbedding (r : Rebuild) (id : Uuid) : Bool :=
  (r.vectors.any fun v => v.1 = (id, r.model)) ||
    (s.embeddings.lookup (id, r.model)).any fun v => !r.pruned.contains ((id, r.model), v.writtenBy)

/-- `list_memory_ids_missing_embedding`. -/
def missing (r : Rebuild) : List Uuid :=
  (sortedBy Sigma.fst ((s.memories.select fun id row =>
    isLiveMemory row && !s.hasEmbedding r id).entries)).map Sigma.fst

/-- The read of `fill_batch`, `list_memories_missing_embedding`. -/
def readBatch (tx : ℕ) (r : Rebuild) (after : Option Uuid) : Rebuild :=
  let ids := ((s.missing r).filter fun id =>
    (after.all fun a => a < id) && !s.ownedElsewhere tx id).take r.batchSize
  { r with
    shared := ids ++ r.shared
    phase := .inserting (ids.filterMap fun id => (s.memories.lookup id).map fun row =>
      (id, row.item)) (if ids.length = r.batchSize then ids.getLast? else none) }

/-- The next statement of `run_embedding_rebuild_job`. -/
def rebuildStatement (tx : ℕ) (r : Rebuild) : Option Rebuild :=
  match r.phase with
  | .resolved => some { r with
      pruned := s.embeddingsWhere (fun key => key.2 ≠ r.model) ++ r.pruned
      phase := .prunedModels }
  | .prunedModels =>
    if s.version = some embedInputVersion then some { r with phase := .prunedVersions }
    else some { r with
      pruned := s.embeddingsWhere (fun _ => true) ++ r.pruned
      stamp := some embedInputVersion
      phase := .prunedVersions }
  | .prunedVersions =>
    if (s.missing r).isEmpty then some { r with phase := .walked }
    else some { r with phase := .walking none }
  | .walking after => some (s.readBatch tx r after)
  | .inserting [] none => some { r with phase := .walked }
  | .inserting [] (some after) => some { r with phase := .walking (some after) }
  | .inserting (item :: items) after =>
    if s.insertedElsewhere tx (item.1, r.model) then none
    else if s.hasEmbedding r item.1 then some { r with phase := .inserting items after }
    else some { r with
      vectors := ((item.1, r.model), item.2) :: r.vectors
      phase := .inserting items after }
  | .walked => some { r with queued := s.missing r ++ r.queued, phase := .handedOff }
  | .handedOff => none

/-- A rebuild goes on. -/
def rebuild (tx : ℕ) : Option IndexState :=
  match s.flights.lookup tx with
  | some (.rebuilding r) => (s.rebuildStatement tx r).map fun r' => s.put tx (.rebuilding r')
  | _ => none

/-- The committed state with the changes of a flight. -/
def applied (f : Flight) : IndexState :=
  { s with
    memories := (applyWrites s.memories f.writes).updateAll fun _ => unpoint f.writes
    embeddings := (s.embeddings.deleteWhere fun key v =>
      f.pruned.contains (key, v.writtenBy) || f.writes.lookup key.1 = some none).insertMissing
        (f.vectors.map fun v => (v.1, ⟨v.2, s.commits⟩))
    jobs := s.jobs.filter (fun job => f.job ≠ some job) ++ f.queued.map (⟨·, s.commits⟩)
    version := f.stamp.or s.version
    commits := s.commits + 1 }

def commit (tx : ℕ) : Option IndexState :=
  match s.flights.lookup tx with
  | none => none
  | some f => if f.finished then some ((s.applied f).drop tx) else none

/-- Whatever ends a transaction without a commit. The job of an embed job stays queued. -/
def rollback (tx : ℕ) : Option IndexState :=
  match s.flights.lookup tx with
  | none => none
  | some _ => some (s.drop tx)

/-- The last attempt of an embed job fails, and the job with it. -/
def exhaust (tx : ℕ) : Option IndexState :=
  match s.flights.lookup tx with
  | some (.embedding j) => some { s.drop tx with jobs := s.jobs.filter (· ≠ j.job) }
  | _ => none

end IndexState

/-- What happens next. -/
inductive Action where
  | remember (tx : ℕ) (id : Uuid) (title body : String)
  | correct (tx : ℕ) (id : Uuid) (title body : String) (expectedRevision : ℕ)
      (affected : List Uuid) (now : ℤ)
  | supersede (tx : ℕ) (id : Uuid) (expectedRevision : ℕ) (replacement : Uuid)
      (title body : String) (affected : List Uuid) (now : ℤ)
  | erase (tx : ℕ) (expectedRevisions : List (Uuid × Option ℕ))
  | advance (tx : ℕ) (strategyName : String) (provider : Option ModelId)
  | claim (tx : ℕ) (job : EmbedJob)
  | embed (tx : ℕ) (provider : Option ModelId)
  | startRebuild (tx : ℕ) (provider : Option ModelId) (batchSize : ℕ)
  | rebuild (tx : ℕ)
  | commit (tx : ℕ)
  | rollback (tx : ℕ)
  | exhaust (tx : ℕ)

/-- A writer before its first statement. -/
def newWriter (rest : List Statement) : Flight := .writing ⟨rest, [], [], [], []⟩

def step (s : IndexState) : Action → Option IndexState
  | .remember tx id title body => s.start tx (newWriter [.insertMemory id title body])
  | .correct tx id title body expectedRevision affected now =>
    s.start tx (newWriter (correct id title body expectedRevision affected now))
  | .supersede tx id expectedRevision replacement title body affected now =>
    s.start tx (newWriter (supersede id expectedRevision replacement title body affected now))
  | .erase tx expectedRevisions => s.start tx (newWriter (erase expectedRevisions))
  | .advance tx strategyName provider => s.advance tx strategyName provider
  | .claim tx job => s.claim tx job
  | .embed tx provider => s.embed tx provider
  | .startRebuild tx provider batchSize =>
    match provider with
    | none => none
    | some model => s.start tx (.rebuilding ⟨model, batchSize, .resolved, [], [], [], [], none⟩)
  | .rebuild tx => s.rebuild tx
  | .commit tx => s.commit tx
  | .rollback tx => s.rollback tx
  | .exhaust tx => s.exhaust tx

/-- A workspace without a memory. -/
def empty : IndexState := ⟨∅, ∅, [], none, 0, ∅⟩

/-- The vector index under any order of its transactions' statements. -/
def vectorIndex : Machine IndexState Action := ⟨fun s => s = empty, step⟩

end Rheostream.Recallatron.Embedding
