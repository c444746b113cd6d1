import Rheostream.Foundation.Handler
import Rheostream.Recallatron.RetentionSweep
import Rheostream.Recallatron.SourceUnits

/-!
# Writing memories

`writes.py`, the writing half of `entities.py`, and the three callers: `remember`, `derive` and
the write of `accept_source_unit`. A memory is written with its audience, its purposes, its links
and its mentions, and what it is derived from bounds the first two.
-/

namespace Rheostream.Recallatron

open Handler

/-- A row of `memory`, with its purposes, links and mentions. -/
structure KeptMemory where
  /-- What a read decides on. -/
  stored : StoredMemory
  kind : String
  body : String
  revision : ℕ
  correctedAt : Option ℤ
  /-- The entities that it mentions. -/
  mentions : List Uuid

/-- A row of `memory_entity`, as far as it is read here: its backing reference. -/
structure EntityRow where
  ref : Option RefText

inductive MemoryEventType where
  | recorded
  | invalidated
  deriving DecidableEq

/-- What `publish_memory_event` publishes. -/
structure MemoryEvent where
  eventType : MemoryEventType
  memoryId : Uuid
  kind : String
  reason : Option InvalidationReason
  revision : ℕ

/-- The tables of Recallatron, what it has published, the latest first, and the identifier that is
drawn next: `uuid7` draws them in order. -/
structure MemoryBooks where
  memories : Table Uuid KeptMemory
  entities : Table Uuid EntityRow
  events : List MemoryEvent
  nextId : Uuid

/-- The transaction of a call: the tables, and what its request has charged and decided. -/
structure MemoryWork where
  books : MemoryBooks
  request : RequestState

abbrev MemoryHandler := Handler MemoryWork

/-- What a call finds: its context, the clock, the retention policy, which may be unusable, and
the records of the other modules. -/
structure MemoryCall where
  enabledModules : List String
  role : Role
  accountId : Option Uuid
  boundPurpose : Option ContextPurpose
  now : ℤ
  retention : Option RetentionPolicy
  resolve : RecordRef → Resolved
  contact : Option ContactOperation

/-- The rows as a read sees them. -/
def MemoryBooks.stored (b : MemoryBooks) : Memories := b.memories.mapRows KeptMemory.stored

def MemoryCall.store (c : MemoryCall) (b : MemoryBooks) : MemoryStore :=
  ⟨b.stored, c.resolve, c.contact⟩

/-- `begin_request`. -/
def MemoryCall.request (c : MemoryCall) : Option MemoryRequest :=
  c.retention.map fun policy =>
    ⟨c.enabledModules, c.role, c.accountId, c.boundPurpose.map ContextPurpose.value, c.now, policy,
      maxDistinctReferences, maxReferenceDepth⟩

def MemoryWork.setBooks (t : MemoryWork) (f : MemoryBooks → MemoryBooks) : MemoryWork :=
  { t with books := f t.books }

/-- `opened`. -/
def opened (c : MemoryCall) : MemoryHandler MemoryRequest := found c.request "retention_unavailable"

/-! ### What the request decides -/

/-- `_charge`. -/
def chargeReference (q : MemoryRequest) (reference : RefText) : MemoryHandler Unit := do
  let t ← get
  write fun t => { t with request := (q.charge t.request reference).2 }
  require ((q.charge t.request reference).1 = true) referenceScanLimit

/-- `eligible_memory` on the request of the call. -/
def decideOn (c : MemoryCall) (q : MemoryRequest) (mode : ReadMode) (id : Uuid) :
    MemoryHandler Decision := do
  let t ← get
  write fun t => { t with request := (ask (c.store t.books) q t.request (id, mode)).2 }
  pure (ask (c.store t.books) q t.request (id, mode)).1

/-- `eligible_memory`, or the refusal of its denial. -/
def eligibleRow (c : MemoryCall) (q : MemoryRequest) (mode : ReadMode) (id : Uuid) :
    MemoryHandler KeptMemory := do
  let decision ← decideOn c q mode id
  match decision with
  | .denied state =>
    refuse (if state = referenceScanLimit then referenceScanLimit else notFound)
  | .eligible _ _ => do
    let t ← get
    found (t.books.memories.lookup id) notFound

/-- `readable_ref`: `resolve_in`, which for a memory is `resolve_memory`. -/
def readableRef (c : MemoryCall) (b : MemoryBooks) (reference : RefText) : Bool :=
  match reference.parse with
  | none => false
  | some r =>
    if isMemoryRef r then
      c.request.any fun q =>
        match answerAlone (c.store b) q (r.id, .current) with
        | .eligible _ _ => true
        | .denied _ => false
    else match c.resolve r with
      | .unavailable => false
      | .head readable state _ => readable && state = "live"

/-! ### Audience -/

/-- `WriteAudience`. -/
structure WriteAudience where
  kind : AudienceKind
  id : Option Uuid
  deriving DecidableEq

/-- The audience of a row. -/
def KeptMemory.audience (m : KeptMemory) : WriteAudience :=
  ⟨m.stored.row.audienceKind, m.stored.row.audienceId⟩

/-- `WORKSPACE_AUDIENCE`. -/
def workspaceAudience : WriteAudience := ⟨.workspace, none⟩

/-- `_meet`. -/
def meetAudience (left right : WriteAudience) : Option WriteAudience :=
  if left.kind = .workspace then some right
  else if right.kind = .workspace then some left
  else if left.id = right.id then some left
  else none

/-- `_allowed`. -/
def allowedAudiences (c : MemoryCall) : List AudienceKind × AudienceKind :=
  if c.accountId.isNone then ([.workspace], .workspace)
  else if c.boundPurpose.isSome then ([.member], .member)
  else ([.workspace, .member], .workspace)

/-- `resolve_audience`. -/
def resolveAudience (c : MemoryCall) (requested : Option AudienceKind)
    (met : Option WriteAudience) : MemoryHandler WriteAudience := do
  let chosen := requested.getD (allowedAudiences c).2
  require (chosen ∈ (allowedAudiences c).1) "audience_unavailable"
  let candidate : WriteAudience := ⟨chosen, if chosen = .member then c.accountId else none⟩
  match met with
  | none => pure candidate
  | some met => do
    let narrowed ← found (meetAudience candidate met) "audience_empty"
    require (requested = none ∨ narrowed = candidate) "audience_unavailable"
    pure narrowed

/-! ### Purposes -/

/-- `ALL_PURPOSES`. -/
def allPurposes : Finset ContextPurpose := {.respond, .followUp, .shareWithReferral,
  .internalAnalysis}

/-- The values of a set of purposes, sorted. -/
def purposeValues (purposes : Finset ContextPurpose) : List String :=
  sortedBy id (([.respond, .followUp, .shareWithReferral, .internalAnalysis].filter
    fun purpose : ContextPurpose => purpose ∈ purposes).map ContextPurpose.value)

/-- `resolve_purposes`. -/
def resolvePurposes (c : MemoryCall) (requested available : Option (Finset ContextPurpose)) :
    MemoryHandler (List String) := do
  require (requested ≠ some ∅) "purposes_empty"
  match c.boundPurpose with
  | some bound => do
    require (∀ stated ∈ requested, stated = {bound}) "purpose_mismatch"
    require (∀ purposes ∈ available, bound ∈ purposes) "purposes_empty"
    pure [bound.value]
  | none => do
    let chosen ← found (requested.or available) "purposes_empty"
    require (∀ purposes ∈ available, chosen ⊆ purposes) "purposes_empty"
    require (chosen ≠ ∅) "purposes_empty"
    pure (purposeValues chosen)

/-! ### References -/

/-- `MAX_REFS_PER_WRITE`. -/
def maxRefsPerWrite : ℕ := 64

/-- The references of a write that must not name memories: each is charged and resolved. -/
def statedLinks (c : MemoryCall) (q : MemoryRequest) :
    List (RefText × Relation) → MemoryHandler (List MemoryLinkRow)
  | [] => pure []
  | (reference, relation) :: rest => do
    let parsed ← found reference.parse "input_invalid"
    require (isMemoryRef parsed = false) "use_derive"
    chargeReference q reference
    let t ← get
    require (readableRef c t.books reference = true) notFound
    let proposed ← statedLinks c q rest
    pure (⟨reference, relation, false⟩ :: proposed)

/-- `DerivedSources`. -/
structure DerivedSources where
  audience : WriteAudience
  purposes : Finset ContextPurpose
  links : List MemoryLinkRow

/-- The links of a source that carry permission, each charged. -/
def copiedLinks (q : MemoryRequest) : List MemoryLinkRow → MemoryHandler (List MemoryLinkRow)
  | [] => pure []
  | link :: rest =>
    if link.supersessionLineage then copiedLinks q rest
    else do
      chargeReference q link.ref
      let proposed ← copiedLinks q rest
      pure (⟨link.ref, link.relation, false⟩ :: proposed)

/-- One source of a derivation. -/
def resolveSource (c : MemoryCall) (q : MemoryRequest) (sources : DerivedSources)
    (reference : RefText) (parsed : RecordRef) : MemoryHandler DerivedSources :=
  if isMemoryRef parsed then do
    let m ← eligibleRow c q .current parsed.id
    let met ← found (meetAudience sources.audience m.audience) "audience_empty"
    let copied ← copiedLinks q m.stored.links
    pure ⟨met, sources.purposes.filter fun purpose => purpose.value ∈ m.stored.purposes,
      sources.links ++ ⟨reference, .derivedFrom, false⟩ :: copied⟩
  else do
    let t ← get
    require (readableRef c t.books reference = true) notFound
    pure { sources with links := sources.links ++ [⟨reference, .derivedFrom, false⟩] }

/-- The sources of a derivation, each once. -/
def resolveEach (c : MemoryCall) (q : MemoryRequest) :
    List RefText → List RefText → DerivedSources → MemoryHandler DerivedSources
  | [], _, sources => pure sources
  | reference :: rest, seen, sources => do
    let parsed ← found reference.parse "input_invalid"
    if reference ∈ seen then resolveEach c q rest seen sources
    else do
      chargeReference q reference
      let next ← resolveSource c q sources reference parsed
      resolveEach c q rest (reference :: seen) next

/-- `resolve_sources`. -/
def resolveSources (c : MemoryCall) (q : MemoryRequest) (sources aboutRefs : List RefText) :
    MemoryHandler DerivedSources := do
  let resolved ← resolveEach c q sources [] ⟨workspaceAudience, allPurposes, []⟩
  let about ← statedLinks c q (aboutRefs.map fun reference => (reference, .about))
  pure { resolved with links := resolved.links ++ about }

/-- `_deduplicated`, where the links under the seen keys are there already. -/
def deduplicated : List (RefText × Relation) → List MemoryLinkRow → List MemoryLinkRow
  | _, [] => []
  | seen, link :: rest =>
    if (link.ref, link.relation) ∈ seen then deduplicated seen rest
    else link :: deduplicated ((link.ref, link.relation) :: seen) rest

/-! ### Mentions -/

inductive MentionInput where
  | select (entity : RefText) (role : Option String)
  | create (backing : Option RefText) (role : Option String)

structure ResolvedMention where
  entityId : Uuid
  role : Option String
  backingRef : Option RefText

/-- `CANDIDATE_SCAN_LIMIT`. -/
def candidateScanLimit : ℕ := 500

/-- `_mentioning_memories`. -/
def mentioningMemories (b : MemoryBooks) (q : MemoryRequest) (entity : Uuid) : List Uuid :=
  ((sortedBy (fun e : Sigma fun _ : Uuid => KeptMemory => toLex (e.2.stored.row.recordedAt, e.1))
    (b.memories.select fun _ m => m.mentions.contains entity &&
      rowLocalConditions q .current m.stored).entries).map Sigma.fst).take candidateScanLimit

/-- How many of the memories are eligible, unless the allowance is spent. -/
def countEligible (c : MemoryCall) (q : MemoryRequest) : List Uuid → MemoryHandler ℕ
  | [] => pure 0
  | id :: rest => do
    let decision ← decideOn c q .current id
    match decision with
    | .eligible _ _ => do
      let count ← countEligible c q rest
      pure (count + 1)
    | .denied state => do
      require (state ≠ referenceScanLimit) referenceScanLimit
      countEligible c q rest

/-- `visible_entity`: through an eligible memory that mentions it, or through its backing
reference. -/
def visibleEntity (c : MemoryCall) (q : MemoryRequest) (entity : Uuid) :
    MemoryHandler EntityRow := do
  let t ← get
  let row ← found (t.books.entities.lookup entity) notFound
  let count ← countEligible c q (mentioningMemories t.books q entity)
  require (count ≠ 0 ∨ row.ref.any (readableRef c t.books) = true) notFound
  pure row

/-- `entity_target`. -/
def entityTarget (reference : RefText) : Option Uuid :=
  (reference.parse.filter fun r => r.moduleId = "recallatron" && r.recordType = "entity").map
    RecordRef.id

/-- The selections of `resolve_mentions`, each entity once. -/
def selectMentions (c : MemoryCall) (q : MemoryRequest) :
    List MentionInput → List ResolvedMention → MemoryHandler (List ResolvedMention)
  | [], selected => pure selected
  | .create _ _ :: rest, selected => selectMentions c q rest selected
  | .select reference role :: rest, selected => do
    let entity ← found (entityTarget reference) "input_invalid"
    let row ← visibleEntity c q entity
    match selected.find? fun mention => mention.entityId = entity with
    | some already => do
      require (already.role = role) "input_invalid"
      selectMentions c q rest selected
    | none => selectMentions c q rest (selected ++ [⟨entity, role, row.ref⟩])

/-- `uuid7`. -/
def drawId : MemoryHandler Uuid := do
  let t ← get
  write fun t => t.setBooks fun b => { b with nextId := b.nextId + 1 }
  pure t.books.nextId

/-- `create_entity`. -/
def createEntity (backing : Option RefText) : MemoryHandler Uuid := do
  let id ← drawId
  write fun t => t.setBooks fun b => { b with entities := b.entities.insert id ⟨backing⟩ }
  pure id

/-- A backing reference resolves before there is an entity. -/
def checkBacking (c : MemoryCall) : Option RefText → MemoryHandler Unit
  | none => pure ()
  | some reference => do
    let _ ← found reference.parse "input_invalid"
    let t ← get
    require (readableRef c t.books reference = true) notFound

/-- The creations of `resolve_mentions`. -/
def createMentions (c : MemoryCall) : List MentionInput → MemoryHandler (List ResolvedMention)
  | [] => pure []
  | .select _ _ :: rest => createMentions c rest
  | .create backing role :: rest => do
    checkBacking c backing
    let id ← createEntity backing
    let others ← createMentions c rest
    pure (⟨id, role, backing⟩ :: others)

/-- `resolve_mentions`. -/
def resolveMentions (c : MemoryCall) (q : MemoryRequest) (mentions : List MentionInput) :
    MemoryHandler (List ResolvedMention) := do
  let selected ← selectMentions c q mentions []
  let created ← createMentions c mentions
  pure (selected ++ created)

/-! ### The one row insert -/

structure NewMemory where
  kind : String
  title : String
  body : String
  audience : WriteAudience
  purposes : List String
  recordedAt : ℤ
  links : List MemoryLinkRow
  mentions : List ResolvedMention

/-- The links that are stored: the proposed ones, and one to what backs a mention. -/
def NewMemory.storedLinks (new : NewMemory) : List MemoryLinkRow :=
  deduplicated [] (new.links ++ new.mentions.filterMap fun mention =>
    mention.backingRef.map fun reference => ⟨reference, .about, false⟩)

/-- The row of a new memory. -/
def NewMemory.row (new : NewMemory) : KeptMemory where
  stored :=
    { row := ⟨new.title, new.audience.kind, new.audience.id, new.recordedAt, none, none, none⟩
      purposes := new.purposes
      links := new.storedLinks }
  kind := new.kind
  body := new.body
  revision := 1
  correctedAt := none
  mentions := new.mentions.map ResolvedMention.entityId

/-- `write_memory`. -/
def writeMemory (new : NewMemory) : MemoryHandler Uuid := do
  let id ← drawId
  write fun t => t.setBooks fun b =>
    { b with memories := b.memories.insert id new.row }
  write fun t => t.setBooks fun b =>
    { b with events := ⟨.recorded, id, new.kind, none, 1⟩ :: b.events }
  pure id

/-! ### The three callers -/

/-- What `RememberInput` and `DeriveInput` have in common. -/
structure WriteInput where
  kind : String
  title : String
  body : String
  audience : Option AudienceKind
  purposes : Option (Finset ContextPurpose)
  aboutRefs : List RefText
  mentions : List MentionInput

/-- `remember`. -/
def remember (c : MemoryCall) (input : WriteInput) (provenanceRefs : List RefText) :
    MemoryHandler Uuid := do
  let q ← opened c
  let audience ← resolveAudience c input.audience none
  let purposes ← resolvePurposes c input.purposes none
  let links ← statedLinks c q (provenanceRefs.map (fun reference => (reference, .derivedFrom)) ++
    input.aboutRefs.map fun reference => (reference, .about))
  require (links.length ≤ maxRefsPerWrite) "input_invalid"
  let mentions ← resolveMentions c q input.mentions
  writeMemory ⟨input.kind, input.title, input.body, audience, purposes, q.now, links, mentions⟩

/-- `derive`. -/
def derive (c : MemoryCall) (input : WriteInput) (sources : List RefText) :
    MemoryHandler Uuid := do
  let q ← opened c
  let resolved ← resolveSources c q sources input.aboutRefs
  let audience ← resolveAudience c input.audience (some resolved.audience)
  let purposes ← resolvePurposes c input.purposes (some resolved.purposes)
  let mentions ← resolveMentions c q input.mentions
  writeMemory ⟨input.kind, input.title, input.body, audience, purposes, q.now, resolved.links,
    mentions⟩

/-- `_verified_links`. -/
def verifiedLinks (c : MemoryCall) (q : MemoryRequest) :
    List SourceUnits.SourceLink → MemoryHandler (List MemoryLinkRow)
  | [] => pure []
  | link :: rest => do
    let parsed ← found link.ref.parse "denied"
    if isMemoryRef parsed then do
      let _ ← eligibleRow c q .current parsed.id
      let proposed ← verifiedLinks c q rest
      pure (⟨link.ref, link.relation, false⟩ :: proposed)
    else do
      let t ← get
      require (readableRef c t.books link.ref = true) "denied"
      let proposed ← verifiedLinks c q rest
      pure (⟨link.ref, link.relation, false⟩ :: proposed)

/-- The write of `accept_source_unit`, for a unit that its policy lets through. Every mention of a
unit is a creation. -/
def acceptUnit (c : MemoryCall) (kind : String) (unit : SourceUnits.TrustedSourceUnit) :
    MemoryHandler Uuid := do
  let q ← opened c
  let recorded ← found (SourceUnits.recordedAt unit) "denied"
  let links ← verifiedLinks c q unit.evidence.links
  let purposes ← found (SourceUnits.acceptedPurposes unit) "denied"
  let mentions ← createMentions c (unit.evidence.mentions.map fun backing => .create backing none)
  writeMemory ⟨kind, pyStrip unit.evidence.title, unit.evidence.body,
    ⟨unit.audienceKind, unit.audienceId⟩, purposes.map ContextPurpose.value, recorded, links,
    mentions⟩

end Rheostream.Recallatron
