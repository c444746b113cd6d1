import Mathlib.Data.String.Basic
import Rheostream.Foundation.Machine
import Rheostream.Foundation.Search
import Rheostream.Foundation.Selection
import Rheostream.Foundation.Table
import Rheostream.Foundation.Values

/-!
# Items, projects and source links of Current

`items.py`, `external.py`, `links.py`, `projects.py`, `areas.py` and the deletion hooks of
`lifecycle.py`. Every writer takes the workspace lifecycle lock first, so each call is one step,
and a call that refuses leaves everything as it was.
-/

namespace Rheostream.Current

inductive Status where
  | opened
  | waiting
  | snoozed
  | done
  deriving DecidableEq

inductive Priority where
  | critical
  | high
  | normal
  | low
  deriving DecidableEq

inductive Provenance where
  | manual
  | agent
  | email
  | alert
  | handoff
  deriving DecidableEq

inductive ProjectStatus where
  | active
  | paused
  | done
  deriving DecidableEq

/-- A row of `area`. -/
structure Area where
  label : String
  position : ℕ
  createdAt : ℕ
  updatedAt : ℕ
  retiredAt : Option ℕ

/-- A row of `project`. -/
structure Project where
  title : String
  description : String
  status : ProjectStatus
  area : Option String
  dueOn : Option ℕ
  revision : ℕ
  createdAt : ℕ
  updatedAt : ℕ

/-- A row of `item`. The two columns of a source are there together or not at all. -/
structure Item where
  title : String
  body : String
  status : Status
  priority : Priority
  area : Option String
  projectId : Option Uuid
  dueOn : Option ℕ
  snoozedUntil : Option ℕ
  provenance : Provenance
  source : Option (String × String)
  eventCount : ℕ
  revision : ℕ
  createdAt : ℕ
  updatedAt : ℕ
  closedAt : Option ℕ

inductive CommentKind where
  | comment
  | system
  deriving DecidableEq

/-- A row of `comment`. -/
structure Comment where
  itemId : Uuid
  kind : CommentKind
  body : String
  createdAt : ℕ

inductive ItemState where
  | available
  | deleted
  deriving DecidableEq

inductive ProjectState where
  | neverAssigned
  | linked
  | cleared
  | deleted
  deriving DecidableEq

/-- A row of `source_item_link`, under the source it is for. -/
structure SourceItemLink where
  itemRef : RecordRef
  revision : ℕ
  itemState : ItemState
  projectRef : Option RecordRef
  lastProjectRef : Option RecordRef
  projectState : ProjectState
  changedAt : ℕ
  deriving DecidableEq

/-- A link as it is written: at the next revision of the row that was read. -/
def SourceItemLink.next (row changed : SourceItemLink) (now : ℕ) : SourceItemLink :=
  { changed with revision := row.revision + 1, changedAt := now }

/-- The link with its project set. A clear and a move record the project that is left, an
assignment keeps the history that is there. -/
def SourceItemLink.withProject (l : SourceItemLink) (project : Option RecordRef) :
    SourceItemLink :=
  if project.isNone then
    { l with projectRef := none, lastProjectRef := l.projectRef, projectState := .cleared }
  else
    { l with
      projectRef := project
      lastProjectRef := l.projectRef.or l.lastProjectRef
      projectState := .linked }

/-- What the deletion of its project makes of a link. -/
def SourceItemLink.withoutProject (l : SourceItemLink) (project : RecordRef) : SourceItemLink :=
  { l with projectRef := none, lastProjectRef := some project, projectState := .deleted }

inductive Verb where
  | created
  | completed
  | reopened
  deriving DecidableEq

/-- The events that Current publishes: about an item, and about the link of a source. -/
inductive Event where
  | item (verb : Verb) (subject : RecordRef) (revision : ℕ)
  | linkChanged (sourceRef : String) (link : SourceItemLink)

/-- The reference of a record of Current. -/
def ref (recordType : String) (id : Uuid) : RecordRef := ⟨"current", recordType, id⟩

/-- `HANDOFF_SOURCE_KIND`. -/
def handoffSourceKind : String := "handoff"

/-- The source pair of the item that an approved handoff makes. -/
def handoffSource (sourceRef : String) : String × String := (handoffSourceKind, sourceRef)

/-- The tables of Current in one workspace. -/
structure CurrentState where
  areas : Table String Area
  projects : Table Uuid Project
  items : Table Uuid Item
  comments : Table Uuid Comment
  /-- The fingerprints seen for an item, with when each was seen. -/
  signals : Table (Uuid × String) ℕ
  /-- The blockers of an item: the item first, then what blocks it. -/
  dependencies : Table (Uuid × Uuid) ℕ
  links : Table String SourceItemLink
  /-- The events published so far, in order. -/
  events : List Event
  /-- Every identifier that was drawn for a row. -/
  drawn : Finset Uuid

/-- `TRANSITIONS`. -/
def transitions : Status → List Status
  | .opened => [.waiting, .snoozed, .done]
  | .waiting => [.opened, .snoozed, .done]
  | .snoozed => [.opened, .waiting, .done]
  | .done => [.opened]

/-- `PRIORITY_RANK`. -/
def priorityRank : Priority → ℕ
  | .critical => 0
  | .high => 1
  | .normal => 2
  | .low => 3

/-- `higher`. -/
def higher (current offered : Priority) : Priority :=
  if priorityRank offered < priorityRank current then offered else current

/-- `ExternalItemCreate`. -/
structure ExternalItemCreate where
  sourceRef : String
  title : String
  body : String
  priority : Priority
  area : Option String
  dueOn : Option ℕ

/-- `ItemCreate`. -/
structure ItemCreate where
  title : String
  body : String
  priority : Priority
  area : Option String
  projectRef : Option Uuid
  dueOn : Option ℕ
  provenance : Provenance
  source : Option (String × String)
  fingerprint : Option String

/-- The rules of `_source_pair` that the type does not carry. -/
def ItemCreate.isValid (m : ItemCreate) : Bool :=
  (m.source.all fun pair => pair.1 ≠ handoffSourceKind) &&
    (m.fingerprint.isNone || m.source.isSome)

inductive ItemField where
  | area
  | projectRef
  | dueOn
  deriving DecidableEq

/-- `ItemUpdate`. -/
structure ItemUpdate where
  title : Option String
  body : Option String
  priority : Option Priority
  area : Option String
  projectRef : Option Uuid
  dueOn : Option ℕ
  clear : List ItemField

/-- Whether an update sets a field that can be cleared. -/
def ItemUpdate.sets (m : ItemUpdate) : ItemField → Bool
  | .area => m.area.isSome
  | .projectRef => m.projectRef.isSome
  | .dueOn => m.dueOn.isSome

/-- `_no_overlap`. -/
def ItemUpdate.isValid (m : ItemUpdate) : Bool := m.clear.Nodup && !m.clear.any m.sets

/-- Whether an update has changes to write. -/
def ItemUpdate.hasChanges (m : ItemUpdate) : Bool :=
  m.title.isSome || m.body.isSome || m.priority.isSome || m.area.isSome ||
    m.projectRef.isSome || m.dueOn.isSome || !m.clear.isEmpty

/-- What an update leaves of a field that can be cleared. -/
def ItemUpdate.cleared {α : Type} (m : ItemUpdate) (field : ItemField) (value old : Option α) :
    Option α :=
  if field ∈ m.clear then none else value.or old

/-- The row with the changes of an update written at the next revision. -/
def ItemUpdate.write (m : ItemUpdate) (row : Item) (now : ℕ) : Item :=
  { row with
    title := m.title.getD row.title
    body := m.body.getD row.body
    priority := m.priority.getD row.priority
    area := m.cleared .area m.area row.area
    projectId := m.cleared .projectRef m.projectRef row.projectId
    dueOn := m.cleared .dueOn m.dueOn row.dueOn
    revision := row.revision + 1
    updatedAt := now }

/-- What a create came to. -/
inductive CreateAction where
  | created
  | grouped
  | reopened
  | woke
  deriving DecidableEq

namespace CurrentState

/-- `usable_area`: a new value must be an area in use, the value already held may stay. -/
def usableArea (s : CurrentState) (key current : Option String) : Except String Unit :=
  match key with
  | none => .ok ()
  | some area =>
    if key = current then .ok ()
    else match s.areas.lookup area with
      | none => .error "area_unknown"
      | some row => if row.retiredAt.isSome then .error "area_retired" else .ok ()

/-- `checked`, on an item. -/
def checkedItem (s : CurrentState) (id : Uuid) (revision : ℕ) : Except String Item :=
  match s.items.lookup id with
  | none => .error "not_found"
  | some row => if row.revision ≠ revision then .error "record_stale" else .ok row

/-- `project_id`: a project that is named must be there. -/
def hasProject (s : CurrentState) (project : Option Uuid) : Bool :=
  project.all fun id => (s.projects.lookup id).isSome

/-- The item that holds a source pair. -/
def itemOfSource (s : CurrentState) (pair : String × String) : Option (Uuid × Item) :=
  s.items.findRow fun _ row => row.source = some pair

def publish (s : CurrentState) (e : Event) : CurrentState := { s with events := s.events ++ [e] }

def draw (s : CurrentState) (id : Uuid) : CurrentState := { s with drawn := insert id s.drawn }

def setItem (s : CurrentState) (id : Uuid) (row : Item) : CurrentState :=
  { s with items := s.items.insert id row }

/-- `add_comment`. -/
def addComment (s : CurrentState) (id itemId : Uuid) (kind : CommentKind) (body : String)
    (now : ℕ) : CurrentState :=
  { s.draw id with comments := s.comments.insert id ⟨itemId, kind, body, now⟩ }

/-- The signal of an item, when it came with a fingerprint. -/
def addSignal (s : CurrentState) (itemId : Uuid) (fingerprint : Option String) (now : ℕ) :
    CurrentState :=
  match fingerprint with
  | none => s
  | some text => { s with signals := s.signals.insert (itemId, text) now }

/-- `_advance`: a change of a link at its next revision, and its event. The revision of the row
that was read is compared in the write. -/
def advance (s : CurrentState) (sourceRef : String) (row changed : SourceItemLink) (now : ℕ) :
    Except String CurrentState :=
  match s.links.updateRow sourceRef
      ⟨fun l => l.revision = row.revision, fun _ => row.next changed now⟩ with
  | none => .error "record_stale"
  | some links =>
    .ok ({ s with links := links }.publish (.linkChanged sourceRef (row.next changed now)))

/-- `_for_item`. -/
def linkOfItem (s : CurrentState) (itemRef : RecordRef) : Option (String × SourceItemLink) :=
  s.links.findRow fun _ l => l.itemRef = itemRef

/-- `item_project_set`. -/
def itemProjectSet (s : CurrentState) (itemRef : RecordRef) (project : Option RecordRef)
    (now : ℕ) : Except String CurrentState :=
  match s.linkOfItem itemRef with
  | none => .ok s
  | some (sourceRef, row) =>
    -- The same assignment, or a clear of a project that is not there, changes nothing.
    if project = row.projectRef then .ok s
    else s.advance sourceRef row (row.withProject project) now

/-- `item_deleted`. -/
def itemDeleted (s : CurrentState) (itemRef : RecordRef) (now : ℕ) : Except String CurrentState :=
  match s.linkOfItem itemRef with
  | none => .ok s
  | some (sourceRef, row) =>
    if row.itemState = .deleted then .ok s
    else s.advance sourceRef row { row with itemState := .deleted } now

/-- The links that hold a project, by their sources. -/
def linksOfProject (s : CurrentState) (project : RecordRef) : List (String × SourceItemLink) :=
  sortedBy Prod.fst ((s.links.entries.map fun e => (e.1, e.2)).filter fun e =>
    e.2.projectRef = some project)

/-- `project_deleted`, on the rows that were read. -/
def projectDeleted (s : CurrentState) (project : RecordRef)
    (rows : List (String × SourceItemLink)) (now : ℕ) : Except String CurrentState :=
  rows.foldlM (fun s e => s.advance e.1 e.2 (e.2.withoutProject project) now) s

/-- `_insert_link`. The references to items are unique. -/
def insertLink (s : CurrentState) (sourceRef : String) (itemRef : RecordRef)
    (project : Option RecordRef) (now : ℕ) : Except String CurrentState :=
  if s.links.existsRow fun _ l => l.itemRef = itemRef then .error "uq_source_item_link_item"
  else .ok { s with
    links := s.links.insert sourceRef
      ⟨itemRef, 1, .available, project, none,
        if project.isNone then .neverAssigned else .linked, now⟩ }

/-- The item that an approved handoff makes. -/
def externalItem (m : ExternalItemCreate) (now : ℕ) : Item :=
  ⟨m.title, m.body, .opened, m.priority, m.area, none, m.dueOn, none, .handoff,
    some (handoffSource m.sourceRef), 1, 1, now, now, none⟩

/-- `external.create`, with the reference it answers. -/
def createExternal (s : CurrentState) (m : ExternalItemCreate) (id : Uuid) (now : ℕ) :
    Except String (CurrentState × RecordRef) :=
  match s.links.lookup m.sourceRef with
  | some link =>
    if link.itemState = .deleted || (s.items.lookup link.itemRef.id).isNone then
      .error "source_tombstoned"
    else .ok (s, link.itemRef)
  | none =>
    match s.itemOfSource (handoffSource m.sourceRef) with
    | some (existing, row) =>
      -- An item that this path did not link: it is linked rather than made twice.
      match s.insertLink m.sourceRef (ref "item" existing) (row.projectId.map (ref "project"))
          now with
      | .error refusal => .error refusal
      | .ok t => .ok (t, ref "item" existing)
    | none =>
      match s.usableArea m.area none with
      | .error refusal => .error refusal
      | .ok () =>
        match ((s.draw id).setItem id (externalItem m now)).insertLink m.sourceRef
            (ref "item" id) none now with
        | .error refusal => .error refusal
        | .ok t => .ok (t.publish (.item .created (ref "item" id) 1), ref "item" id)

/-- The row of an item after a repeat of its signal, and what that came to. -/
def repeated (row : Item) (priority : Priority) (now : ℕ) : Item × CreateAction :=
  let counted := { row with
    eventCount := row.eventCount + 1
    priority := higher row.priority priority
    revision := row.revision + 1
    updatedAt := now }
  match row.status with
  | .done => ({ counted with status := .opened, closedAt := none }, .reopened)
  | .snoozed => ({ counted with status := .opened, snoozedUntil := none }, .woke)
  | _ => (counted, .grouped)

/-- The text of the comment that a repeat leaves. -/
def repeatText (action : CreateAction) (sourceKind : String) (count : ℕ) : String :=
  let wording := match action with
    | .reopened => "Reopened by"
    | .woke => "Woken by"
    | _ => "Grouped"
  wording ++ " a repeat " ++ sourceKind ++ " signal (event " ++ toString count ++ ")."

/-- `repeat_signal`. -/
def repeatSignal (s : CurrentState) (id : Uuid) (row : Item) (m : ItemCreate) (commentId : Uuid)
    (now : ℕ) : CurrentState × CreateAction :=
  if m.fingerprint.any fun text => (s.signals.lookup (id, text)).isSome then
    (s.setItem id { row with updatedAt := now }, .grouped)
  else
    let (updated, action) := repeated row m.priority now
    let text := repeatText action ((row.source.map Prod.fst).getD "") (row.eventCount + 1)
    let t := ((s.addSignal id m.fingerprint now).setItem id updated).addComment commentId id
      .system text now
    if action = .reopened then
      (t.publish (.item .reopened (ref "item" id) updated.revision), action)
    else (t, action)

/-- The item that a create makes. -/
def createdItem (m : ItemCreate) (now : ℕ) : Item :=
  ⟨m.title, m.body, .opened, m.priority, m.area, m.projectRef, m.dueOn, none, m.provenance,
    m.source, 1, 1, now, now, none⟩

/-- The insertion of `create`, when no item holds the source. -/
def insertItem (s : CurrentState) (m : ItemCreate) (id : Uuid) (now : ℕ) :
    Except String (CurrentState × CreateAction × Uuid) :=
  match s.usableArea m.area none with
  | .error refusal => .error refusal
  | .ok () =>
    if s.hasProject m.projectRef then
      let made := ((s.draw id).setItem id (createdItem m now)).addSignal id m.fingerprint now
      .ok (made.publish (.item .created (ref "item" id) 1), .created, id)
    else .error "not_found"

/-- `items.create`, with what it came to and the item. -/
def create (s : CurrentState) (m : ItemCreate) (id commentId : Uuid) (now : ℕ) :
    Except String (CurrentState × CreateAction × Uuid) :=
  if m.isValid then
    match m.source.bind s.itemOfSource with
    | some (existing, row) =>
      let (t, action) := s.repeatSignal existing row m commentId now
      .ok (t, action, existing)
    | none => s.insertItem m id now
  else .error "input_invalid"

/-- `items.edit`. -/
def edit (s : CurrentState) (id : Uuid) (revision : ℕ) (m : ItemUpdate) (now : ℕ) :
    Except String CurrentState :=
  if m.isValid then
    match s.checkedItem id revision with
    | .error refusal => .error refusal
    | .ok row =>
      if s.hasProject m.projectRef then
        match s.usableArea m.area row.area with
        | .error refusal => .error refusal
        | .ok () =>
          let t := if m.hasChanges then s.setItem id (m.write row now) else s
          if m.projectRef.isSome || m.clear.contains .projectRef then
            let project := m.cleared .projectRef m.projectRef none
            t.itemProjectSet (ref "item" id) (project.map (ref "project")) now
          else .ok t
      else .error "not_found"
  else .error "input_invalid"

/-- The checks of `set_status` on the snooze time. -/
def snoozeIsValid (status : Status) (snoozedUntil : Option ℕ) (now : ℕ) : Bool :=
  if status = .snoozed then snoozedUntil.any fun time => now < time else snoozedUntil.isNone

/-- The row of an item in another status. -/
def withStatus (row : Item) (status : Status) (snoozedUntil : Option ℕ) (now : ℕ) : Item :=
  { row with
    status := status
    snoozedUntil := snoozedUntil
    closedAt := if status = .done then some now else none
    revision := row.revision + 1
    updatedAt := now }

/-- `set_status`. -/
def setStatus (s : CurrentState) (id : Uuid) (revision : ℕ) (status : Status)
    (snoozedUntil : Option ℕ) (now : ℕ) : Except String CurrentState :=
  match s.checkedItem id revision with
  | .error refusal => .error refusal
  | .ok row =>
    if snoozeIsValid status snoozedUntil now then
      if status = row.status && row.status ≠ .snoozed then .ok s
      else if status ≠ row.status && !(transitions row.status).contains status then
        .error "transition_not_allowed"
      else
        let updated := withStatus row status snoozedUntil now
        let t := s.setItem id updated
        if status = .done then .ok (t.publish (.item .completed (ref "item" id) updated.revision))
        else if row.status = .done then
          .ok (t.publish (.item .reopened (ref "item" id) updated.revision))
        else .ok t
    else .error "snooze_invalid"

/-- The text of the comment that a close by its source leaves. -/
def closeText (actor : String) (note : Option String) : String :=
  let body := "Closed by a source signal (" ++ actor ++ ")."
  match note with
  | none => body
  | some text => body ++ "\n\n" ++ text

/-- `close_by_source`, with the item it closed. -/
def closeBySource (s : CurrentState) (pair : String × String) (actor : String)
    (note : Option String) (commentId : Uuid) (now : ℕ) : CurrentState × Option Uuid :=
  match s.itemOfSource pair with
  | none => (s, none)
  | some (id, row) =>
    let t := { s with signals := s.signals.deleteWhere fun k _ => k.1 = id }
    if row.status = .done then (t, none)
    else
      let updated := withStatus row .done none now
      let commented := (t.setItem id updated).addComment commentId id .system
        (closeText actor note) now
      (commented.publish (.item .completed (ref "item" id) updated.revision), some id)

/-- `comment`. -/
def comment (s : CurrentState) (id : Uuid) (body : String) (commentId : Uuid) (now : ℕ) :
    Except String CurrentState :=
  match s.items.lookup id with
  | none => .error "not_found"
  | some row =>
    .ok ((s.addComment commentId id .comment body now).setItem id { row with updatedAt := now })

/-- The items that block an item. -/
def blockers (s : CurrentState) (id : Uuid) : List Uuid :=
  (s.dependencies.keys.filter fun k => k.1 = id).map Prod.snd

/-- `reaches`. -/
def reaches (s : CurrentState) (start target : Uuid) : Bool :=
  (Search.closure s.blockers s.dependencies.keys.length start).contains target

/-- `add_dependency`. -/
def addDependency (s : CurrentState) (blocked blocker : Uuid) (now : ℕ) :
    Except String CurrentState :=
  if blocked = blocker then .error "dependency_cycle"
  else if (s.items.lookup blocked).isNone then .error "not_found"
  else if (s.items.lookup blocker).isNone then .error "not_found"
  else if (s.dependencies.lookup (blocked, blocker)).isSome then .ok s
  else if s.reaches blocker blocked then .error "dependency_cycle"
  else .ok { s with dependencies := s.dependencies.insert (blocked, blocker) now }

/-- `remove_dependency`. -/
def removeDependency (s : CurrentState) (blocked blocker : Uuid) : Except String CurrentState :=
  if (s.dependencies.lookup (blocked, blocker)).isNone then .error "not_found"
  else .ok { s with dependencies := s.dependencies.erase (blocked, blocker) }

end CurrentState

/-- `ProjectCreate`. -/
structure ProjectCreate where
  title : String
  description : String
  status : ProjectStatus
  area : Option String
  dueOn : Option ℕ

inductive ProjectField where
  | area
  | dueOn
  deriving DecidableEq

/-- `ProjectUpdate`. -/
structure ProjectUpdate where
  title : Option String
  description : Option String
  status : Option ProjectStatus
  area : Option String
  dueOn : Option ℕ
  clear : List ProjectField

/-- Whether an update sets a field that can be cleared. -/
def ProjectUpdate.sets (m : ProjectUpdate) : ProjectField → Bool
  | .area => m.area.isSome
  | .dueOn => m.dueOn.isSome

/-- `_no_overlap`. -/
def ProjectUpdate.isValid (m : ProjectUpdate) : Bool := m.clear.Nodup && !m.clear.any m.sets

/-- Whether an update has changes to write. -/
def ProjectUpdate.hasChanges (m : ProjectUpdate) : Bool :=
  m.title.isSome || m.description.isSome || m.status.isSome || m.area.isSome ||
    m.dueOn.isSome || !m.clear.isEmpty

/-- The row with the changes of an update written at the next revision. -/
def ProjectUpdate.write (m : ProjectUpdate) (row : Project) (now : ℕ) : Project :=
  { row with
    title := m.title.getD row.title
    description := m.description.getD row.description
    status := m.status.getD row.status
    area := if .area ∈ m.clear then none else m.area.or row.area
    dueOn := if .dueOn ∈ m.clear then none else m.dueOn.or row.dueOn
    revision := row.revision + 1
    updatedAt := now }

namespace CurrentState

/-- `projects.create`. -/
def createProject (s : CurrentState) (m : ProjectCreate) (id : Uuid) (now : ℕ) :
    Except String CurrentState :=
  match s.usableArea m.area none with
  | .error refusal => .error refusal
  | .ok () =>
    .ok { s.draw id with
      projects := s.projects.insert id
        ⟨m.title, m.description, m.status, m.area, m.dueOn, 1, now, now⟩ }

/-- `projects.edit`. -/
def editProject (s : CurrentState) (id : Uuid) (revision : ℕ) (m : ProjectUpdate) (now : ℕ) :
    Except String CurrentState :=
  if m.isValid then
    match s.projects.lookup id with
    | none => .error "not_found"
    | some row =>
      if row.revision ≠ revision then .error "record_stale"
      else match s.usableArea m.area row.area with
        | .error refusal => .error refusal
        | .ok () =>
          if m.hasChanges then .ok { s with projects := s.projects.insert id (m.write row now) }
          else .ok s
  else .error "input_invalid"

/-- The last position of an area, zero when there is none. -/
def lastPosition (s : CurrentState) : ℕ := (s.areas.entries.map fun e => e.2.position).foldl max 0

/-- `areas.create`. -/
def createArea (s : CurrentState) (key label : String) (now : ℕ) : Except String CurrentState :=
  if (s.areas.lookup key).isSome then .error "area_exists"
  else .ok { s with areas := s.areas.insert key ⟨label, s.lastPosition + 1, now, now, none⟩ }

/-- `areas.edit`. -/
def editArea (s : CurrentState) (key : String) (label : Option String) (retired : Option Bool)
    (now : ℕ) : Except String CurrentState :=
  match s.areas.lookup key with
  | none => .error "not_found"
  | some row =>
    let moves := retired.any fun value => value ≠ row.retiredAt.isSome
    if label.isSome || moves then
      let edited := { row with
        label := label.getD row.label
        retiredAt := if moves then (if retired = some true then some now else none)
          else row.retiredAt
        updatedAt := now }
      .ok { s with areas := s.areas.insert key edited }
    else .ok s

/-- What goes with an item: its comments, its signals and the dependencies of either side. -/
def dropChildren (s : CurrentState) (id : Uuid) : CurrentState :=
  { s with
    comments := s.comments.deleteWhere fun _ row => row.itemId = id
    signals := s.signals.deleteWhere fun k _ => k.1 = id
    dependencies := s.dependencies.deleteWhere fun k _ => k.1 = id || k.2 = id }

/-- `delete_owned`, of an item at the revision that was approved. -/
def deleteItem (s : CurrentState) (id : Uuid) (revision : ℕ) (now : ℕ) :
    Except String CurrentState :=
  match s.items.lookup id with
  | none => .error "record_stale"
  | some row =>
    if row.revision ≠ revision then .error "record_stale"
    else match (s.dropChildren id).itemDeleted (ref "item" id) now with
      | .error refusal => .error refusal
      | .ok t => .ok { t with items := t.items.erase id }

/-- The items without a project, each that held it at its next revision. -/
def detachItems (s : CurrentState) (project : Uuid) (now : ℕ) : CurrentState :=
  let detach (row : Item) : Item :=
    if row.projectId = some project then
      { row with projectId := none, revision := row.revision + 1, updatedAt := now }
    else row
  { s with items := s.items.updateAll fun _ row => detach row }

/-- `delete_owned`, of a project at the revision that was approved. -/
def deleteProject (s : CurrentState) (id : Uuid) (revision : ℕ) (now : ℕ) :
    Except String CurrentState :=
  match s.projects.lookup id with
  | none => .error "record_stale"
  | some row =>
    if row.revision ≠ revision then .error "record_stale"
    else
      match (s.detachItems id now).projectDeleted (ref "project" id)
          ((s.detachItems id now).linksOfProject (ref "project" id)) now with
      | .error refusal => .error refusal
      | .ok t => .ok { t with projects := t.projects.erase id }

end CurrentState

/-- A call on Current, with the identifiers it draws and the time. -/
inductive CurrentAction where
  | createExternal (m : ExternalItemCreate) (id : Uuid) (now : ℕ)
  | create (m : ItemCreate) (id commentId : Uuid) (now : ℕ)
  | edit (id : Uuid) (revision : ℕ) (m : ItemUpdate) (now : ℕ)
  | setStatus (id : Uuid) (revision : ℕ) (status : Status) (snoozedUntil : Option ℕ) (now : ℕ)
  | closeBySource (pair : String × String) (actor : String) (note : Option String)
      (commentId : Uuid) (now : ℕ)
  | comment (id : Uuid) (body : String) (commentId : Uuid) (now : ℕ)
  | addDependency (blocked blocker : Uuid) (now : ℕ)
  | removeDependency (blocked blocker : Uuid)
  | createProject (m : ProjectCreate) (id : Uuid) (now : ℕ)
  | editProject (id : Uuid) (revision : ℕ) (m : ProjectUpdate) (now : ℕ)
  | createArea (key label : String) (now : ℕ)
  | editArea (key : String) (label : Option String) (retired : Option Bool) (now : ℕ)
  | deleteItem (id : Uuid) (revision : ℕ) (now : ℕ)
  | deleteProject (id : Uuid) (revision : ℕ) (now : ℕ)

/-- The identifiers that a call may draw. -/
def CurrentAction.draws : CurrentAction → List Uuid
  | .createExternal _ id _ => [id]
  | .create _ id commentId _ => [id, commentId]
  | .closeBySource _ _ _ commentId _ => [commentId]
  | .comment _ _ commentId _ => [commentId]
  | .createProject _ id _ => [id]
  | _ => []

namespace CurrentState

/-- The state that a call leaves, or its refusal. -/
def call (s : CurrentState) : CurrentAction → Except String CurrentState
  | .createExternal m id now => (s.createExternal m id now).map Prod.fst
  | .create m id commentId now => (s.create m id commentId now).map Prod.fst
  | .edit id revision m now => s.edit id revision m now
  | .setStatus id revision status snoozedUntil now =>
    s.setStatus id revision status snoozedUntil now
  | .closeBySource pair actor note commentId now =>
    .ok (s.closeBySource pair actor note commentId now).1
  | .comment id body commentId now => s.comment id body commentId now
  | .addDependency blocked blocker now => s.addDependency blocked blocker now
  | .removeDependency blocked blocker => s.removeDependency blocked blocker
  | .createProject m id now => s.createProject m id now
  | .editProject id revision m now => s.editProject id revision m now
  | .createArea key label now => s.createArea key label now
  | .editArea key label retired now => s.editArea key label retired now
  | .deleteItem id revision now => s.deleteItem id revision now
  | .deleteProject id revision now => s.deleteProject id revision now

/-- The state after a call: a refused call leaves everything as it was. -/
def after (s : CurrentState) (a : CurrentAction) : CurrentState :=
  match s.call a with
  | .ok t => t
  | .error _ => s

/-- One call. The identifiers that it draws were never drawn before. -/
def step (s : CurrentState) (a : CurrentAction) : Option CurrentState :=
  if a.draws.all fun id => id ∉ s.drawn then some (s.after a) else none

/-- A workspace before any item: it may have its areas. -/
structure Begins (s : CurrentState) : Prop where
  projects : s.projects = ∅
  items : s.items = ∅
  comments : s.comments = ∅
  signals : s.signals = ∅
  dependencies : s.dependencies = ∅
  links : s.links = ∅
  events : s.events = []

/-- The links that the published events carry for one source, in order. -/
def changesOf (s : CurrentState) (sourceRef : String) : List SourceItemLink :=
  s.events.filterMap fun e => match e with
    | .linkChanged source link => if source = sourceRef then some link else none
    | .item _ _ _ => none

end CurrentState

/-- The runs of calls on Current in one workspace. -/
def currentMachine : Machine CurrentState CurrentAction := ⟨CurrentState.Begins, CurrentState.step⟩

end Rheostream.Current
