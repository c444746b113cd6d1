import Rheostream.Foundation.Handler
import Rheostream.Foundation.PyText
import Rheostream.Foundation.Table
import Rheostream.Foundation.Values

/-!
# Parties

`rheo_relationships`: the tables of `storage/tables.py` and the handlers of `service.py`. Every
handler that writes takes the lifecycle lock of the workspace first, so handlers run one after the
other.
-/

namespace Rheostream.Relationships

/-! ### Tables -/

inductive PartyKind where
  | person
  | organization
  deriving DecidableEq

/-- A row of `party`. -/
structure PartyRow where
  kind : PartyKind
  displayName : String
  mergedIntoId : Option Uuid
  revision : ℕ

inductive ContactKind where
  | email
  | phone
  | address
  | url
  | externalSubject
  deriving DecidableEq

inductive Verification where
  | unverified
  | sourceVerified
  | authenticated
  | confirmed
  deriving DecidableEq

/-- A row of `contact_point`. -/
structure ContactRow where
  partyId : Uuid
  kind : ContactKind
  value : String
  normalizedValue : String
  sourceNamespace : Option String
  verification : Verification
  retiredAt : Option ℕ

/-- What `uq_contact_identity` keeps apart: the verified identity of a contact point that is not
retired. -/
def ContactRow.identity (row : ContactRow) : Option (ContactKind × String × String) :=
  if (row.verification = .sourceVerified ∨ row.verification = .authenticated) ∧
      row.retiredAt = none then
    row.sourceNamespace.map fun source => (row.kind, source, row.normalizedValue)
  else none

/-- A row of `affiliation`. Dates are days. -/
structure AffiliationRow where
  personId : Uuid
  organizationId : Uuid
  validFrom : Option ℤ
  validTo : Option ℤ

/-- What `uq_affiliation_period` keeps apart. -/
def AffiliationRow.period (row : AffiliationRow) : Uuid × Uuid × Option ℤ :=
  (row.personId, row.organizationId, row.validFrom)

/-- The column that a party of the kind owns an affiliation by. -/
def AffiliationRow.owner (row : AffiliationRow) : PartyKind → Uuid
  | .person => row.personId
  | .organization => row.organizationId

/-- Sets the column. -/
def AffiliationRow.withOwner (row : AffiliationRow) (owner : Uuid) : PartyKind → AffiliationRow
  | .person => { row with personId := owner }
  | .organization => { row with organizationId := owner }

/-- A row of `merge_record`. -/
structure MergeRecordRow where
  survivorId : Uuid
  mergedId : Uuid
  evidence : Option String
  unmergedAt : Option ℕ
  unmergeNote : Option String

/-- The kinds of a merged item: `affiliation_person` and `affiliation_organization` are those of an
affiliation, and `aliasOf` is `alias`. -/
inductive ItemKind where
  | contactPoint
  | affiliation (column : PartyKind)
  | aliasOf
  deriving DecidableEq

/-- A row of `merge_record_item`. -/
structure MergeItem where
  recordId : Uuid
  kind : ItemKind
  itemId : Uuid
  previousOwnerId : Uuid
  deriving DecidableEq

inductive Hint where
  | name
  | emailUnverified
  | emailVerifiedOtherSource
  | phone
  | domain
  | organizationName
  deriving DecidableEq

inductive CandidateKind where
  | sameParty
  | affiliation
  deriving DecidableEq

inductive CandidateState where
  | open
  | accepted
  | rejected
  | withdrawn
  deriving DecidableEq

/-- A row of `review_candidate`. -/
structure CandidateRow where
  kind : CandidateKind
  partyId : Uuid
  candidatePartyId : Uuid
  hint : Hint
  evidenceRef : RefText
  occurredAt : ℤ
  state : CandidateState
  resolvedAt : Option ℕ
  mergeRecordId : Option Uuid
  affiliationId : Option Uuid

/-- The tables of a workspace, and the identifier that is drawn next. -/
structure PartyState where
  parties : Table Uuid PartyRow
  contacts : Table Uuid ContactRow
  affiliations : Table Uuid AffiliationRow
  records : Table Uuid MergeRecordRow
  items : List MergeItem
  candidates : Table Uuid CandidateRow
  nextId : Uuid

abbrev PartyHandler := Handler PartyState

open Handler

/-! ### Rows -/

/-- `StaleRecord`. -/
def staleRevision : String := "party revision changed"

/-- `get_row`. -/
def getRow (id : Uuid) : PartyHandler PartyRow := do
  let s ← get
  found (s.parties.lookup id) "not_found"

/-- `get_row(live=True)`. -/
def getLive (id : Uuid) : PartyHandler PartyRow := do
  let row ← getRow id
  require (row.mergedIntoId = none) "party_is_alias"
  pure row

/-- `canonical`. -/
def canonical (id : Uuid) : PartyHandler (Uuid × PartyRow) := do
  let row ← getRow id
  match row.mergedIntoId with
  | some survivor => do
    let found ← getLive survivor
    pure (survivor, found)
  | none => pure (id, row)

/-- `bump`. -/
def bump (id : Uuid) (revision : Option ℕ) : PartyHandler ℕ := do
  let s ← get
  let row ← found (s.parties.lookup id) staleRevision
  require (revision.getD row.revision = row.revision) staleRevision
  write fun s => { s with parties := s.parties.insert id { row with revision := row.revision + 1 } }
  pure (row.revision + 1)

/-- `checked`. -/
def checked (id : Uuid) (revision : ℕ) : PartyHandler PartyRow := do
  let row ← getLive id
  require (row.revision = revision) staleRevision
  pure row

/-- `uuid7`: identifiers are numbered in the order in which they are drawn. -/
def uuid7 : PartyHandler Uuid := do
  let s ← get
  write fun s => { s with nextId := s.nextId + 1 }
  pure s.nextId

/-- `create_row`. -/
def createRow (kind : PartyKind) (name : String) : PartyHandler Uuid := do
  let id ← uuid7
  write fun s => { s with parties := s.parties.insert id ⟨kind, name, none, 1⟩ }
  pure id

/-! ### Contact points -/

/-- What the matching code asks outside the tables: `normalize` of a contact value, which refuses a
url without a host, and of a name, the comparison key of a displayed name, and the persons whose
name is similar. -/
structure Matching where
  normalize : ContactKind → String → Option String
  normalizeName : String → String
  displayKey : String → String
  similarNames : PartyState → String → Uuid → List Uuid

variable (m : Matching)

/-- `normalize` of a contact value. -/
def normalized (kind : ContactKind) (value : String) : PartyHandler String :=
  found (m.normalize kind value) "input_invalid"

/-- A new contact point of `add_contact`. -/
structure NewContact where
  kind : ContactKind
  value : String
  verification : Verification
  sourceNamespace : Option String

/-- `add_contact`. The index on identities refuses a second row. -/
def addContact (partyId : Uuid) (new : NewContact) : PartyHandler Uuid := do
  let value ← normalized m new.kind new.value
  require (value ≠ "") "input_invalid"
  let row : ContactRow :=
    ⟨partyId, new.kind, new.value, value, new.sourceNamespace, new.verification, none⟩
  let id ← uuid7
  let s ← get
  require (row.identity = none ∨
    s.contacts.existsRow (fun _ other => other.identity = row.identity) = false) "unique_violation"
  write fun s => { s with contacts := s.contacts.insert id row }
  pure id

/-- The contact points of a party, one after the other. -/
def addContacts (partyId : Uuid) : List NewContact → PartyHandler Unit
  | [] => pure ()
  | new :: rest => do
    let _ ← addContact m partyId new
    addContacts partyId rest

/-- `party_create`. -/
def partyCreate (kind : PartyKind) (displayName : String) (points : List NewContact) :
    PartyHandler Uuid := do
  require (pyStrip displayName ≠ "") "input_invalid"
  let id ← createRow kind (pyStrip displayName)
  addContacts m id points
  pure id

/-- `party_update`. -/
def partyUpdate (id : Uuid) (revision : ℕ) (displayName : String) : PartyHandler Unit := do
  let _ ← checked id revision
  let _ ← bump id (some revision)
  write fun s => { s with
    parties := s.parties.updateIf id
      ⟨fun _ => true, fun row => { row with displayName := displayName }⟩ }

/-- `contact_add`. -/
def contactAdd (partyId : Uuid) (revision : ℕ) (kind : ContactKind) (value : String) :
    PartyHandler Uuid := do
  let _ ← checked partyId revision
  let id ← addContact m partyId ⟨kind, value, .unverified, none⟩
  let _ ← bump partyId (some revision)
  pure id

/-- `contact_change`: `contact_confirm`, or with `retire` `contact_retire`. A confirmation does not
discard the stronger identity. -/
def contactChange (partyId : Uuid) (revision : ℕ) (contactId : Uuid) (retire : Bool) (now : ℕ) :
    PartyHandler Unit := do
  let _ ← checked partyId revision
  let s ← get
  let row ← found ((s.contacts.lookup contactId).filter fun row =>
    row.partyId = partyId && row.retiredAt = none) "not_found"
  if retire = false ∧ (row.verification = .sourceVerified ∨ row.verification = .authenticated) then
    pure ()
  else do
    let changed := if retire then { row with retiredAt := some now }
      else { row with verification := .confirmed }
    write fun s => { s with contacts := s.contacts.insert contactId changed }
    let _ ← bump partyId (some revision)
    pure ()

/-! ### Affiliations -/

/-- `add_affiliation`. -/
def addAffiliation (person organization : Uuid) (validFrom validTo : Option ℤ) :
    PartyHandler Uuid := do
  let personRow ← getLive person
  require (personRow.kind = .person) "party_kind_mismatch"
  let organizationRow ← getLive organization
  require (organizationRow.kind = .organization) "party_kind_mismatch"
  require (∀ a ∈ validFrom, ∀ b ∈ validTo, a ≤ b) "input_invalid"
  let row : AffiliationRow := ⟨person, organization, validFrom, validTo⟩
  let s ← get
  require (s.affiliations.existsRow (fun _ other => other.period = row.period) = false)
    "affiliation_conflict"
  let id ← uuid7
  write fun s => { s with affiliations := s.affiliations.insert id row }
  let _ ← bump organization none
  pure id

/-- `affiliation_add`. -/
def affiliationAdd (person organization : Uuid) (revision : ℕ) (validFrom validTo : Option ℤ) :
    PartyHandler Uuid := do
  let _ ← checked person revision
  let id ← addAffiliation person organization validFrom validTo
  let _ ← bump person (some revision)
  pure id

/-- `affiliation_end`. -/
def affiliationEnd (person : Uuid) (revision : ℕ) (affiliationId : Uuid) (validTo : ℤ) :
    PartyHandler Unit := do
  let _ ← checked person revision
  let s ← get
  let row ← found ((s.affiliations.lookup affiliationId).filter fun row => row.personId = person)
    "not_found"
  require (row.validTo = none ∧ ∀ a ∈ row.validFrom, a ≤ validTo) "input_invalid"
  let ended := { row with validTo := some validTo }
  write fun s => { s with affiliations := s.affiliations.insert affiliationId ended }
  let _ ← bump row.organizationId none
  let _ ← bump person (some revision)
  pure ()

end Rheostream.Relationships
