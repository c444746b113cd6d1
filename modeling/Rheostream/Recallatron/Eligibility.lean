import Mathlib.Data.Finset.Card
import Rheostream.Boundary.Context

/-!
# Which memories a read may show

`eligibility.py`: the one function that decides whether a memory may be read, with what one
request carries from decision to decision (the references it has checked, the answers it has
given and the memories it is deciding), and the conditions of the candidate query.
-/

namespace Rheostream.Recallatron

inductive AudienceKind where
  | workspace
  | member
  deriving DecidableEq

inductive InvalidationReason where
  | sourceDeleted
  | sourceCorrected
  | sourceSuperseded
  deriving DecidableEq

inductive Relation where
  | derivedFrom
  | about
  deriving DecidableEq

/-- A row of `memory`. Times are in microseconds. -/
structure MemoryRow where
  title : String
  audienceKind : AudienceKind
  audienceId : Option Uuid
  recordedAt : ℤ
  invalidatedAt : Option ℤ
  supersededById : Option Uuid
  invalidationReason : Option InvalidationReason
  deriving DecidableEq

/-- A row of `memory_link`. -/
structure MemoryLinkRow where
  ref : RefText
  relation : Relation
  supersessionLineage : Bool

/-- A memory with its purposes and its links, in the order in which they are read. -/
structure StoredMemory where
  row : MemoryRow
  purposes : List String
  links : List MemoryLinkRow

/-- What the record resolver of core answers. -/
inductive Resolved where
  | unavailable
  | head (readable : Bool) (state : String) (display : String)

/-- A registered contact operation: its module, and the state that it answers for a party and a
purpose. A call that raises, or answers no text, answers none. -/
structure ContactOperation where
  moduleId : String
  answer : RecordRef → String → Option String

/-- What the transaction of a request reads. -/
structure MemoryStore where
  memories : Table Uuid StoredMemory
  resolve : RecordRef → Resolved
  contact : Option ContactOperation

inductive ReadMode where
  | current
  | history
  deriving DecidableEq

/-- `RetentionPolicy`: the days of the window, none when nothing expires by age. -/
structure RetentionPolicy where
  days : Option ℕ

def microsecondsPerDay : ℤ := 86400000000

/-- `RetentionPolicy.horizon`. -/
def RetentionPolicy.horizon (policy : RetentionPolicy) (now : ℤ) : Option ℤ :=
  policy.days.map fun days => now - microsecondsPerDay * days

/-- What `MemoryRequest` freezes, with the limits of its budget. -/
structure MemoryRequest where
  enabledModules : List String
  role : Role
  accountId : Option Uuid
  boundPurpose : Option String
  now : ℤ
  retention : RetentionPolicy
  limit : ℕ
  depthLimit : ℕ

/-- `MAX_DISTINCT_REFERENCES`. -/
def maxDistinctReferences : ℕ := 4096

/-- `MAX_REFERENCE_DEPTH`. -/
def maxReferenceDepth : ℕ := 64

/-- `LinkHead`. -/
structure LinkHead where
  ref : RefText
  relation : Relation
  supersessionLineage : Bool
  display : Option String
  deriving DecidableEq

/-- `Eligible` and `Denied`. -/
inductive Decision where
  | eligible (row : MemoryRow) (links : List LinkHead)
  | denied (state : String)
  deriving DecidableEq

/-- What a request carries from decision to decision. -/
structure RequestState where
  /-- The references that were charged. -/
  seen : Finset RefText
  decisions : Table (Uuid × ReadMode) Decision
  active : Finset Uuid
  /-- Whether a reference was not charged because the allowance was spent. -/
  exhausted : Bool

/-- A request that has decided nothing. -/
def RequestState.fresh : RequestState := ⟨∅, ∅, ∅, false⟩

/-- `ReferenceBudget.charge`. -/
def MemoryRequest.charge (q : MemoryRequest) (st : RequestState) (reference : RefText) :
    Bool × RequestState :=
  if reference ∈ st.seen then (true, st)
  else if q.limit ≤ st.seen.card then (false, { st with exhausted := true })
  else (true, { st with seen := insert reference st.seen })

/-- `memory_reference`. -/
def memoryReference (id : Uuid) : RefText := .ref ⟨"recallatron", "memory", id⟩

/-- `is_memory_ref`. -/
def isMemoryRef (r : RecordRef) : Bool := r.moduleId = "recallatron" && r.recordType = "memory"

def notFound : String := "not_found"

def referenceScanLimit : String := "reference_scan_limit"

/-- `READ_ROLES`. -/
def readRoles : List Role := [.owner, .member, .service]

/-- `RETAINED_INVALIDATION_REASONS`. -/
def retainedInvalidationReasons : List InvalidationReason := [.sourceCorrected, .sourceSuperseded]

namespace MemoryRequest

variable (q : MemoryRequest)

/-- The module and role check of a read. -/
def isReader : Bool := q.enabledModules.contains "recallatron" && readRoles.contains q.role

def horizon : Option ℤ := q.retention.horizon q.now

/-- `audience_admits`. -/
def audienceAdmits (row : MemoryRow) : Bool :=
  row.audienceKind = .workspace || (q.accountId.isSome && row.audienceId = q.accountId)

/-- `subject_to_age`. -/
def subjectToAge (row : MemoryRow) : Bool := row.audienceKind = .workspace

/-- `age_expired`. -/
def ageExpired (row : MemoryRow) : Bool :=
  match q.horizon with
  | none => false
  | some horizon => subjectToAge row && row.recordedAt < horizon

/-- `_mode_admits`. -/
def modeAdmits (row : MemoryRow) : ReadMode → Bool
  | .current => row.invalidatedAt.isNone && row.supersededById.isNone
  | .history => row.invalidationReason.all fun reason =>
    retainedInvalidationReasons.contains reason

/-- The checks of `_decide` on the memory itself, in their order. -/
def admits (mode : ReadMode) (m : StoredMemory) : Bool :=
  q.audienceAdmits m.row && (q.boundPurpose.all fun purpose => m.purposes.contains purpose) &&
    !q.ageExpired m.row && modeAdmits m.row mode

end MemoryRequest

/-- `contact_permitted`. -/
def contactPermitted (w : MemoryStore) (q : MemoryRequest) (r : RecordRef) (relation : Relation) :
    Bool :=
  match q.boundPurpose with
  | none => true
  | some purpose =>
    if relation ≠ .about then true
    else if r.moduleId ≠ "relationships" ∨ r.recordType ≠ "party" then true
    else match w.contact with
      | none => true
      | some operation =>
        if q.enabledModules.contains operation.moduleId then
          operation.answer r purpose = some "permitted"
        else true

/-- The head of a link to a record that is no memory. -/
def resolvedHead (w : MemoryStore) (q : MemoryRequest) (r : RecordRef) (link : MemoryLinkRow) :
    Except String LinkHead :=
  match w.resolve r with
  | .unavailable => .error notFound
  | .head readable state display =>
    if readable && state = "live" then
      if contactPermitted w q r link.relation then
        .ok ⟨link.ref, link.relation, false, some display⟩
      else .error notFound
    else .error notFound

section Walk

variable (w : MemoryStore) (q : MemoryRequest)

/-- One link, where `visit` decides a memory that it names. -/
def readLink (visit : Uuid → RequestState → Decision × RequestState) (link : MemoryLinkRow)
    (st : RequestState) : Except String LinkHead × RequestState :=
  if link.supersessionLineage then (.ok ⟨link.ref, link.relation, true, none⟩, st)
  else match link.ref.parse with
    -- A stored reference that nobody can check.
    | none => (.error notFound, st)
    | some r =>
      if isMemoryRef r then
        match visit r.id st with
        | (.denied state, t) => (.error state, t)
        | (.eligible row _, t) => (.ok ⟨link.ref, link.relation, false, some row.title⟩, t)
      else match q.charge st link.ref with
        | (false, t) => (.error referenceScanLimit, t)
        | (true, t) => (resolvedHead w q r link, t)

/-- `_links`: every link in its order, up to the first that denies. -/
def readLinks (visit : Uuid → RequestState → Decision × RequestState) :
    List MemoryLinkRow → RequestState → Except String (List LinkHead) × RequestState
  | [], st => (.ok [], st)
  | link :: rest, st =>
    match readLink w q visit link st with
    | (.error state, t) => (.error state, t)
    | (.ok head, t) =>
      match readLinks visit rest t with
      | (.error state, u) => (.error state, u)
      | (.ok heads, u) => (.ok (head :: heads), u)

/-- `_decide`. -/
def decideMemory (mode : ReadMode) (visit : Uuid → RequestState → Decision × RequestState)
    (id : Uuid) (st : RequestState) : Decision × RequestState :=
  if q.isReader then
    match w.memories.lookup id with
    | none => (.denied notFound, st)
    | some m =>
      if q.admits mode m then
        match readLinks w q visit m.links st with
        | (.error state, t) => (.denied state, t)
        | (.ok heads, t) => (.eligible m.row heads, t)
      else (.denied notFound, st)
  else (.denied notFound, st)

/-- The start of a decision: the memory is being decided. -/
def RequestState.start (st : RequestState) (id : Uuid) : RequestState :=
  { st with active := insert id st.active }

/-- The end of a decision: it is kept, and the memory is no longer being decided. -/
def RequestState.settle (st : RequestState) (id : Uuid) (mode : ReadMode) (d : Decision) :
    RequestState :=
  { st with
    active := st.active.erase id
    decisions := st.decisions.insert (id, mode) d }

/-- `eligible_memory`, with `room` levels left: at the asked memory there is one more than the
depth limit. -/
def eligibleMemory (mode : ReadMode) : ℕ → Uuid → RequestState → Decision × RequestState
  | 0, _, st => (.denied referenceScanLimit, st)
  | room + 1, id, st =>
    match q.charge st (memoryReference id) with
    | (false, t) => (.denied referenceScanLimit, t)
    | (true, t) =>
      match t.decisions.lookup (id, mode) with
      | some d => (d, t)
      | none =>
        -- A cycle denies, and this denial is not kept.
        if id ∈ t.active then (.denied notFound, t)
        else
          let (d, u) := decideMemory w q mode (eligibleMemory mode room) id (t.start id)
          (d, u.settle id mode d)

/-- A memory is asked in a mode. -/
def ask (st : RequestState) (a : Uuid × ReadMode) : Decision × RequestState :=
  eligibleMemory w q a.2 (q.depthLimit + 1) a.1 st

/-- The answers that one request gives to one memory after another. -/
def answers : List (Uuid × ReadMode) → RequestState → List Decision × RequestState
  | [], st => ([], st)
  | a :: rest, st =>
    let (d, t) := ask w q st a
    let (ds, u) := answers rest t
    (d :: ds, u)

/-- The answer that a memory gets alone, on a fresh request. -/
def answerAlone (a : Uuid × ReadMode) : Decision := (ask w q .fresh a).1

end Walk

/-- `row_local_conditions`, on one memory. -/
def rowLocalConditions (q : MemoryRequest) (mode : ReadMode) (m : StoredMemory) : Bool :=
  (m.row.audienceKind = .workspace || (q.accountId.isSome && m.row.audienceKind = .member &&
    m.row.audienceId = q.accountId)) &&
  (q.horizon.all fun horizon =>
    m.row.audienceKind ≠ .workspace || decide (horizon ≤ m.row.recordedAt)) &&
  (q.boundPurpose.all fun purpose => m.purposes.contains purpose) &&
  match mode with
  | .current => m.row.invalidatedAt.isNone && m.row.supersededById.isNone
  | .history => m.row.invalidationReason.isNone ||
    m.row.invalidationReason.any fun reason => retainedInvalidationReasons.contains reason

end Rheostream.Recallatron
