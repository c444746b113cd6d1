import Rheostream.Foundation.Machine
import Rheostream.Foundation.PyText
import Rheostream.Foundation.Search
import Rheostream.Foundation.Selection
import Rheostream.Recallatron.Eligibility

/-!
# The retention sweep

`retention.py`, the retention half of `eligibility.py`, the closure walk of `lifecycle.py` and
the expiry entry of core: a batch expires up to a hundred memories that are past the window of
their workspace, each with what depends on it, and asks for the next batch when some are left.
The clock and the setting rows are read again at each point where the code reads them.
-/

namespace Rheostream.Recallatron

/-- The tables `memory` and `memory_link` of a workspace. -/
abbrev Memories := Table Uuid StoredMemory

/-! ### The setting rows -/

/-- `RETENTION_EXPIRE_BY_AGE_KEY`. -/
def retentionExpireByAgeKey : String := "recallatron.retention.expire_by_age"

/-- `RETENTION_DAYS_KEY`. -/
def retentionDaysKey : String := "recallatron.retention.days"

/-- `RETENTION_DAYS_DEFAULT`. -/
def retentionDaysDefault : ℕ := 365

/-- `decode_text` of a boolean. -/
def decodeBool (text : String) : Option Bool :=
  let word := pyLower (pyStrip text)
  if ["1", "true", "yes", "on"].contains word then some true
  else if ["0", "false", "no", "off"].contains word then some false
  else none

/-- `decode_text` of `RETENTION_DAYS_SPEC`, with its bounds. -/
def decodeDays (text : String) : Option ℕ :=
  (pyInt (pyStrip text)).bind fun days =>
    if 1 ≤ days ∧ days ≤ 3650 then some days.toNat else none

/-- `expire_by_age_in`. -/
def expireByAgeIn (rows : Table String String) : Bool :=
  (rows.lookup retentionExpireByAgeKey).bind decodeBool = some true

/-- `retention_in`. -/
def retentionIn (rows : Table String String) : Option RetentionPolicy :=
  if expireByAgeIn rows then
    (rows.lookup retentionDaysKey).bind fun text => (decodeDays text).map fun days => ⟨some days⟩
  else some ⟨none⟩

/-- `settings.get_int(retention_key)`: a row that does not decode is dropped. -/
def settledDays (rows : Table String String) : ℕ :=
  ((rows.lookup retentionDaysKey).bind decodeDays).getD retentionDaysDefault

/-! ### The closure of a memory -/

/-- `list_memory_dependents`, the links that scheduled expiry follows: those that name the memory
and are no supersession lineage. -/
def dependents (memories : Memories) (follows : Relation → Bool) (id : Uuid) : List Uuid :=
  (sortedBy Sigma.fst ((memories.select fun _ m => m.links.any fun link =>
    decide (link.ref = memoryReference id) && !link.supersessionLineage &&
      follows link.relation).entries)).map Sigma.fst

/-- The first hop takes either relation. -/
def firstHop (memories : Memories) : Uuid → List Uuid := dependents memories fun _ => true

/-- Every later hop takes `derived_from`. -/
def laterHop (memories : Memories) : Uuid → List Uuid :=
  dependents memories fun relation => relation = .derivedFrom

/-- `_reference_closure` of a memory without marked links. -/
def dependentClosure (memories : Memories) (target : Uuid) : List Uuid :=
  let first := Search.unseen (firstHop memories target) [target]
  first ++ Search.search (laterHop memories) memories.entries.length first (first ++ [target])

/-! ### Removal -/

/-- `ON DELETE SET NULL` of `superseded_by_id`. -/
def StoredMemory.unpoint (gone : Finset Uuid) (m : StoredMemory) : StoredMemory :=
  if m.row.supersededById.any fun id => id ∈ gone then
    { m with row := { m.row with supersededById := none } }
  else m

/-- `delete_memory`. -/
def deleteMemory (memories : Memories) (id : Uuid) : Memories :=
  match memories.lookup id with
  | none => memories
  | some _ => Table.updateAll (memories.erase id) fun _ m => m.unpoint {id}

/-- `_erase`. -/
def eraseMemories (memories : Memories) (ids : List Uuid) : Memories :=
  (sortedBy id ids).foldl deleteMemory memories

/-- The effect of an expiry: `delete_owned_memory`, and `on_record_deleted` after it. -/
def expireMemory (memories : Memories) (root : Uuid) : Memories :=
  let without := eraseMemories memories [root]
  eraseMemories without (dependentClosure without root)

/-! ### A batch -/

/-- The setting rows and the clock, where both are read. -/
structure Reading where
  rows : Table String String
  now : ℤ

/-- `begin_request`, as its horizon: none when the window is not usable, and no horizon when the
gate is off. -/
def Reading.horizon (reading : Reading) : Option (Option ℤ) :=
  (retentionIn reading.rows).map fun policy => policy.horizon reading.now

/-- What `dispatch_memory_expiry_in` finds for one root. -/
structure ExpiryAttempt where
  /-- The capability is the worker's own and its facts still hold. -/
  sealed : Bool
  /-- The modules of the context, unless its factory refuses. -/
  enabledModules : Option (List String)
  reading : Reading

/-- What a batch finds where it looks. -/
structure Batch where
  /-- The unit of work carries a verified execution, and its context is minted. -/
  authority : Bool
  /-- The rows from which the gate is first read. -/
  gate : Table String String
  start : Reading
  attempt : Uuid → ExpiryAttempt
  finish : Reading
  /-- The answer of `rearm_catch_up_schedule`. -/
  rearmed : Bool

/-- How a committed batch ends. -/
structure SweepEnd where
  memories : Memories
  /-- The roots that it expired, latest first. -/
  removed : List Uuid
  /-- The answer of the rearm, when there was one. -/
  followUp : Option Bool

/-- `sweep_batch_limit`. -/
def sweepBatchLimit : ℕ := 100

/-- `_expired_workspace_memory`. -/
def expiredWorkspaceMemory (horizon : ℤ) (m : StoredMemory) : Bool :=
  m.row.audienceKind = .workspace && m.row.recordedAt < horizon

/-- `list_expired_memory_roots`. -/
def expiredRoots (memories : Memories) (horizon : ℤ) : List Uuid :=
  ((sortedBy (fun e : Sigma fun _ : Uuid => StoredMemory => toLex (e.2.row.recordedAt, e.1))
    (memories.select fun _ m => expiredWorkspaceMemory horizon m).entries).map Sigma.fst).take
      sweepBatchLimit

/-- `expired_memory_exists`. -/
def expiredMemoryExists (memories : Memories) (horizon : ℤ) : Bool :=
  memories.existsRow fun _ m => expiredWorkspaceMemory horizon m

/-- `authorize_memory_delete` for scheduled expiry, with `expiry_admits`. -/
def expiryAdmits (a : ExpiryAttempt) (m : StoredMemory) : Bool :=
  (a.enabledModules.any fun modules => modules.contains "recallatron") &&
    (a.reading.horizon.any fun horizon =>
      horizon.any fun horizon => expiredWorkspaceMemory horizon m)

/-- `dispatch_memory_expiry_in`: every refusal leaves the record alone. -/
def dispatchMemoryExpiry (a : ExpiryAttempt) (days : ℕ) (memories : Memories) (root : Uuid) :
    Option Memories :=
  if a.sealed && a.enabledModules.isSome && expireByAgeIn a.reading.rows &&
      settledDays a.reading.rows = days then
    match memories.lookup root with
    | none => none
    | some m => if expiryAdmits a m then some (expireMemory memories root) else none
  else none

/-- The loop over the roots, with the roots that it expired. -/
def expireRoots (b : Batch) (days : ℕ) : List Uuid → Memories → List Uuid → Memories × List Uuid
  | [], memories, removed => (memories, removed)
  | root :: roots, memories, removed =>
    match dispatchMemoryExpiry (b.attempt root) days memories root with
    | none => expireRoots b days roots memories removed
    | some memories' => expireRoots b days roots memories' (root :: removed)

/-- `_finish`. -/
def finishSweep (b : Batch) (memories : Memories) (removed : List Uuid) :
    Except String SweepEnd :=
  match b.finish.horizon with
  | none => .error "retention_unavailable"
  | some none => .ok ⟨memories, removed, none⟩
  | some (some horizon) =>
    if !expiredMemoryExists memories horizon then .ok ⟨memories, removed, none⟩
    else if removed.isEmpty then .error "sweep_no_progress"
    else .ok ⟨memories, removed, some b.rearmed⟩

/-- `run_memory_retention_sweep`. An error rolls the batch back. -/
def runMemoryRetentionSweep (b : Batch) (memories : Memories) : Except String SweepEnd :=
  if !b.authority then .error "sweep_authority_missing"
  else if !expireByAgeIn b.gate then .ok ⟨memories, [], none⟩
  else match retentionIn b.start.rows with
    | none => .error "retention_unavailable"
    | some policy =>
      match policy.days, policy.horizon b.start.now with
      | some days, some horizon =>
        let swept := expireRoots b days (expiredRoots memories horizon) memories []
        finishSweep b swept.1 swept.2
      | _, _ => .ok ⟨memories, [], none⟩

/-- What happens next: a batch, to its end or interrupted before it commits. -/
inductive SweepAction where
  | batch (b : Batch)
  | interrupted

/-- The memories of a workspace, with every root that a sweep expired. -/
structure SweepState where
  memories : Memories
  expired : List Uuid

def sweepStep (s : SweepState) : SweepAction → Option SweepState
  | .batch b =>
    match runMemoryRetentionSweep b s.memories with
    | .error _ => some s
    | .ok e => some ⟨e.memories, e.removed ++ s.expired⟩
  | .interrupted => some s

/-- The sweeps of a workspace, from any memories. -/
def sweeps : Machine SweepState SweepAction := ⟨fun s => s.expired = [], sweepStep⟩

end Rheostream.Recallatron
