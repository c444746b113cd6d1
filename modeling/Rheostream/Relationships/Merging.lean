import Rheostream.Foundation.Machine
import Rheostream.Relationships.Parties

/-!
# Matching, merging and erasure

`rheo_relationships`: the handlers of `matching.py`, `merge.py` and `lifecycle.py`, and the machine
of all calls.
-/

namespace Rheostream.Relationships

open Handler

/-! ### Matching -/

section Matching

variable (m : Matching)

/-- `identity`: the party that owns a verified identity. -/
def identity (source : String) (kind : ContactKind) (value : String) :
    PartyHandler (Option Uuid) := do
  let value ← normalized m kind value
  let s ← get
  let verification : Verification :=
    if kind = .externalSubject then .authenticated else .sourceVerified
  match s.contacts.findRow fun _ row =>
      row.sourceNamespace = some source && row.kind = kind && row.verification = verification &&
        row.normalizedValue = value && row.retiredAt = none with
  | some (_, row) => do
    let survivor ← canonical row.partyId
    pure (some survivor.1)
  | none => pure none

structure Hints where
  name : Option String
  email : Option String
  phone : Option String
  organizationName : Option String
  organizationDomain : Option String

structure ResolveInput where
  sourceNamespace : String
  externalSubjectId : Option String
  verifiedEmail : Option String
  hints : Hints
  evidenceRef : RefText
  occurredAt : ℤ

/-- A hint that is usable, without whitespace around it. -/
def cleanHint (kind : Option ContactKind) (value : Option String) : Option String :=
  (value.filter fun text =>
    match kind with
    | none => m.normalizeName text ≠ ""
    | some kind => (m.normalize kind text).any (· ≠ "")).map pyStrip

/-- `clean_hints`. -/
def cleanHints (hints : Hints) : Hints where
  name := cleanHint m none hints.name
  email := cleanHint m (some .email) hints.email
  phone := cleanHint m (some .phone) hints.phone
  organizationName := cleanHint m none hints.organizationName
  organizationDomain := cleanHint m (some .url) hints.organizationDomain

/-- The kind of a candidate and its pair, which is in one order for the same party. -/
def candidatePair (party other : Uuid) (hint : Hint) : CandidateKind × Uuid × Uuid :=
  if hint = .domain ∨ hint = .organizationName then (.affiliation, party, other)
  else (.sameParty, min party other, max party other)

/-- `candidate`: one open candidate for a pair and a hint, and none where it was rejected. -/
def candidate (party other : Uuid) (hint : Hint) (data : ResolveInput) :
    PartyHandler (Option Uuid) :=
  if party = other then pure none
  else do
    let (kind, left, right) := candidatePair party other hint
    let s ← get
    let existing := s.candidates.select fun _ row =>
      row.partyId = left && row.candidatePartyId = right && row.hint = hint &&
        (row.state = .open || row.state = .rejected)
    if existing.existsRow fun _ row => row.state = .rejected then pure none
    else match existing.keys.head? with
      | some id => pure (some id)
      | none => do
        let id ← uuid7
        let row : CandidateRow :=
          ⟨kind, left, right, hint, data.evidenceRef, data.occurredAt, .open, none, none, none⟩
        write fun s => { s with candidates := s.candidates.insert id row }
        pure (some id)

/-- The candidates of the proposed pairs. -/
def proposeAll (party : Uuid) (data : ResolveInput) : List (Uuid × Hint) → PartyHandler (List Uuid)
  | [] => pure []
  | (other, hint) :: rest => do
    let first ← candidate party other hint data
    let others ← proposeAll party data rest
    pure (first.toList ++ others)

/-- The other persons that own a contact value, and the hint that it is. -/
def contactMatches (s : PartyState) (party : Uuid) (kind : ContactKind) (value : String)
    (source : String) : List (Uuid × Hint) :=
  (s.contacts.select fun _ row =>
      row.retiredAt = none && row.kind = kind && row.normalizedValue = value &&
        row.partyId ≠ party && (s.parties.lookup row.partyId).any fun owner =>
          owner.mergedIntoId = none && owner.kind = .person).entries.map fun e =>
    (e.2.partyId,
      if kind = .phone then .phone
      else if e.2.verification = .sourceVerified ∧ e.2.sourceNamespace ≠ some source then
        .emailVerifiedOtherSource
      else .emailUnverified)

/-- The organizations of a domain and of a name. -/
def organizationMatches (s : PartyState) (domain name : Option String) : List (Uuid × Hint) :=
  let isLive (id : Uuid) : Bool := (s.parties.lookup id).any fun owner =>
    owner.mergedIntoId = none && owner.kind = .organization
  (match domain with
    | none => []
    | some domain =>
      (s.contacts.select fun _ row => row.kind = .url && row.retiredAt = none &&
        row.normalizedValue = domain && isLive row.partyId).entries.map fun e =>
          (e.2.partyId, .domain)) ++
  match name with
    | none => []
    | some name =>
      (s.parties.select fun id row => isLive id && m.displayKey row.displayName = name).keys.map
        fun id => (id, .organizationName)

/-- `normalize`, of a hint that may be absent. -/
def normalizedHint (kind : ContactKind) : Option String → PartyHandler (Option String)
  | none => pure none
  | some value => do
    let value ← normalized m kind value
    pure (some value)

/-- The organization that a party is affiliated with, where one is to be created. -/
def addOrganization (party : Uuid) (data : ResolveInput) : Option String → PartyHandler Unit
  | none => pure ()
  | some name => do
    let organization ← createRow .organization name
    addContacts m organization
      (data.hints.organizationDomain.toList.map fun value => ⟨.url, value, .unverified, none⟩)
    let _ ← addAffiliation party organization (some data.occurredAt) none
    let _ ← bump party none
    pure ()

/-- `candidates`: a pair that is affiliated already is not proposed, and where no organization is
found one is created. -/
def candidates (party : Uuid) (data : ResolveInput) : PartyHandler (List Uuid) := do
  let email ← normalizedHint m .email (data.verifiedEmail.or data.hints.email)
  let phone ← normalizedHint m .phone data.hints.phone
  let domain ← normalizedHint m .url data.hints.organizationDomain
  let s ← get
  let contacts :=
    (email.toList.flatMap fun value => contactMatches s party .email value data.sourceNamespace) ++
      phone.toList.flatMap fun value => contactMatches s party .phone value data.sourceNamespace
  let names := data.hints.name.toList.flatMap fun name =>
    (m.similarNames s (m.normalizeName name) party).map fun id => (id, Hint.name)
  let organizations := organizationMatches m s domain
    (data.hints.organizationName.map m.normalizeName)
  let unlinked := organizations.filter fun o => !s.affiliations.existsRow fun _ row =>
    row.personId = party && row.organizationId = o.1 && row.validTo = none
  let result ← proposeAll party data (contacts ++ names ++ unlinked)
  addOrganization m party data
    (if organizations.isEmpty then data.hints.organizationName.or data.hints.organizationDomain
      else none)
  pure result

/-- Adds what the party does not have yet, and says whether it did. -/
def addMissing (party : Uuid) : List NewContact → PartyHandler Bool
  | [] => pure false
  | new :: rest => do
    let value ← normalized m new.kind new.value
    let s ← get
    let owned := s.contacts.existsRow fun _ row =>
      row.partyId = party && row.kind = new.kind && row.normalizedValue = value &&
        row.verification = new.verification && row.sourceNamespace = new.sourceNamespace &&
        row.retiredAt = none
    if owned then addMissing party rest
    else do
      let _ ← addContact m party new
      let _ ← addMissing party rest
      pure true

/-- `bump`, where something has changed. -/
def bumpIf (changed : Bool) (party : Uuid) : PartyHandler Unit :=
  if changed then discard (bump party none) else pure ()

/-- The identity of an optional value. -/
def identityOf (source : String) (kind : ContactKind) : Option String → PartyHandler (Option Uuid)
  | none => pure none
  | some value => identity m source kind value

/-- The party of an identity, or a new person. -/
def partyFor (known : Option Uuid) (name : Option String) : PartyHandler Uuid :=
  match known with
  | none => createRow .person (name.getD "unnamed")
  | some id => do
    let survivor ← canonical id
    require (survivor.2.kind = .person) "party_kind_mismatch"
    pure id

/-- The two identities are those of two parties. -/
def conflicting : Option Uuid → Option Uuid → Bool
  | some subject, some email => subject != email
  | _, _ => false

/-- What `resolve_or_create` does with the cleaned hints. -/
def resolveCleaned (isService : Bool) (data : ResolveInput) :
    PartyHandler (Uuid × String × List Uuid) := do
  require (isService = true) "role_not_permitted"
  require (data.evidenceRef.parse.isSome = true) "input_invalid"
  let subject ← identityOf m data.sourceNamespace .externalSubject data.externalSubjectId
  let email ← identityOf m data.sourceNamespace .email data.verifiedEmail
  require (conflicting subject email = false) "identity_conflict"
  let party ← partyFor (subject.or email)
    (((data.hints.name.or data.hints.email).or data.verifiedEmail).or data.hints.phone)
  let changed ← addMissing m party
    ((data.externalSubjectId.toList.map fun value =>
        ⟨.externalSubject, value, .authenticated, some data.sourceNamespace⟩) ++
      (data.verifiedEmail.toList.map fun value =>
        ⟨.email, value, .sourceVerified, some data.sourceNamespace⟩) ++
      (data.hints.email.toList.map fun value => ⟨.email, value, .unverified, none⟩) ++
      data.hints.phone.toList.map fun value => ⟨.phone, value, .unverified, none⟩)
  bumpIf changed party
  let result ← candidates m party data
  pure (party, if subject.isSome then "linked_subject" else if email.isSome then "linked_email"
    else "created", result)

/-- `resolve_or_create`, called by a service. -/
def resolveOrCreate (isService : Bool) (input : ResolveInput) :
    PartyHandler (Uuid × String × List Uuid) :=
  resolveCleaned m isService { input with hints := cleanHints m input.hints }

end Matching

/-! ### Merging -/

namespace PartyState

variable (s : PartyState)

/-- The affiliations that a party owns by a column. -/
def affiliationsOf (column : PartyKind) (party : Uuid) : Table Uuid AffiliationRow :=
  s.affiliations.select fun _ row => row.owner column = party

/-- Another affiliation has the period that the row would have under the owner. -/
def collides (column : PartyKind) (owner id : Uuid) (row : AffiliationRow) : Bool :=
  s.affiliations.existsRow fun other existing =>
    existing.period = (row.withOwner owner column).period && other ≠ id

/-- `collision_check`. -/
def collisionFree (column : PartyKind) (owner : Uuid) (rows : Table Uuid AffiliationRow) : Bool :=
  !rows.existsRow (s.collides column owner)

/-- `INSERT INTO merge_record_item`, one row for each item. -/
def recordItems (recordId : Uuid) (kind : ItemKind) (owner : Uuid) (ids : List Uuid) : PartyState :=
  { s with items := s.items ++ ids.map fun id => ⟨recordId, kind, id, owner⟩ }

/-- The contact points of a party that are not retired. -/
def contactIds (party : Uuid) : List Uuid :=
  (s.contacts.select fun _ row => row.partyId = party && row.retiredAt = none).keys

/-- The aliases of a party. -/
def aliasIds (party : Uuid) : List Uuid :=
  (s.parties.select fun _ row => row.mergedIntoId = some party).keys

def moveContacts (ids : List Uuid) (owner : Uuid) : PartyState :=
  { s with contacts := s.contacts.updateAll fun id row =>
      if id ∈ ids then { row with partyId := owner } else row }

def moveAffiliations (column : PartyKind) (ids : List Uuid) (owner : Uuid) : PartyState :=
  { s with affiliations := s.affiliations.updateAll fun id row =>
      if id ∈ ids then row.withOwner owner column else row }

def moveAliases (ids : List Uuid) (survivor : Uuid) : PartyState :=
  { s with parties := s.parties.updateAll fun id row =>
      if id ∈ ids then { row with mergedIntoId := some survivor } else row }

/-- `UPDATE party SET merged_into_id` of one party. -/
def setMergedInto (id : Uuid) (survivor : Option Uuid) : PartyState :=
  { s with parties := s.parties.updateAll fun other row =>
      if other = id then { row with mergedIntoId := survivor } else row }

/-- The open candidates of the parties are withdrawn. -/
def withdraw (ids : List Uuid) (now : ℕ) : PartyState :=
  { s with candidates := s.candidates.updateAll fun _ row =>
      if row.state = .open ∧ (row.partyId ∈ ids ∨ row.candidatePartyId ∈ ids) then
        { row with state := .withdrawn, resolvedAt := some now }
      else row }

end PartyState

/-- What a call finds beside the rows: the clock, and whether events have consumers. -/
structure CallContext where
  now : ℕ
  consumers : Bool

structure MergeInput where
  sourceId : Uuid
  targetId : Uuid
  sourceRevision : ℕ
  targetRevision : ℕ
  evidence : Option String

/-- `bump` of each party. -/
def bumpAll : List Uuid → PartyHandler Unit
  | [] => pure ()
  | id :: rest => do
    let _ ← bump id none
    bumpAll rest

/-- `merge`. -/
def merge (ctx : CallContext) (data : MergeInput) : PartyHandler Uuid := do
  require (data.sourceId ≠ data.targetId) "party_self_merge"
  let source ← checked data.sourceId data.sourceRevision
  let target ← checked data.targetId data.targetRevision
  require (source.kind = target.kind) "party_kind_mismatch"
  require (ctx.consumers = true) "consumers_missing"
  let s ← get
  let affiliations := s.affiliationsOf source.kind data.sourceId
  require (s.collisionFree source.kind data.targetId affiliations = true) "affiliation_conflict"
  let id ← uuid7
  let record : MergeRecordRow := ⟨data.targetId, data.sourceId, data.evidence, none, none⟩
  write fun s => { s with records := s.records.insert id record }
  let contactIds := s.contactIds data.sourceId
  write fun s => s.recordItems id .contactPoint data.sourceId contactIds
  write fun s => s.moveContacts contactIds data.targetId
  write fun s => s.recordItems id (.affiliation source.kind) data.sourceId affiliations.keys
  write fun s => s.moveAffiliations source.kind affiliations.keys data.targetId
  let aliasIds := s.aliasIds data.sourceId
  write fun s => s.recordItems id .aliasOf data.sourceId aliasIds
  write fun s => s.moveAliases aliasIds data.targetId
  write fun s => s.setMergedInto data.sourceId (some data.targetId)
  bumpAll (data.sourceId :: data.targetId :: aliasIds)
  write fun s => s.withdraw (data.sourceId :: aliasIds) ctx.now
  pure id

/-- The item goes back to its previous owner. An erased child is not recreated. -/
def restoreItem (target : Uuid) (item : MergeItem) : PartyHandler Unit := do
  let s ← get
  match item.kind with
  | .contactPoint =>
    match s.contacts.lookup item.itemId with
    | none => pure ()
    | some row => do
      require (row.partyId = target) "merge_item_changed"
      let restored := { row with partyId := item.previousOwnerId }
      write fun s => { s with contacts := s.contacts.insert item.itemId restored }
  | .affiliation column =>
    match s.affiliations.lookup item.itemId with
    | none => pure ()
    | some row => do
      require (row.owner column = target) "merge_item_changed"
      require (s.collides column item.previousOwnerId item.itemId row = false)
        "affiliation_conflict"
      let restored := row.withOwner item.previousOwnerId column
      write fun s => { s with affiliations := s.affiliations.insert item.itemId restored }
  | .aliasOf =>
    match s.parties.lookup item.itemId with
    | none => pure ()
    | some row => do
      require (row.mergedIntoId = some target) "merge_item_changed"
      let restored := { row with mergedIntoId := some item.previousOwnerId }
      write fun s => { s with parties := s.parties.insert item.itemId restored }

/-- The items one after the other. -/
def restoreItems (target : Uuid) : List MergeItem → PartyHandler Unit
  | [] => pure ()
  | item :: rest => do
    restoreItem target item
    restoreItems target rest

/-- The items of a record. -/
def PartyState.itemsOf (s : PartyState) (recordId : Uuid) : List MergeItem :=
  s.items.filter fun item => item.recordId = recordId

/-- The parties that an unmerge has changed: those of the record and the aliases that there are. -/
def PartyState.changedParties (s : PartyState) (record : MergeRecordRow) (items : List MergeItem) :
    List Uuid :=
  (record.mergedId :: record.survivorId ::
    (items.filter fun item => item.kind = .aliasOf && (s.parties.lookup item.itemId).isSome).map
      MergeItem.itemId).dedup

/-- `unmerge`, where the query returns the items of the record in the order of `rows`. -/
def unmerge (ctx : CallContext) (recordId : Uuid) (note : Option String) (rows : List MergeItem) :
    PartyHandler Unit := do
  require (ctx.consumers = true) "consumers_missing"
  let s ← get
  let record ← found (s.records.lookup recordId) "not_found"
  require (record.unmergedAt = none) "merge_already_unmerged"
  let source ← getRow record.mergedId
  let target ← getRow record.survivorId
  require (target.mergedIntoId = none ∧ source.mergedIntoId = some record.survivorId)
    "survivor_merged_onward"
  restoreItems record.survivorId rows
  write fun s => s.setMergedInto record.mergedId none
  bumpAll (s.changedParties record rows)
  let unmerged := { record with unmergedAt := some ctx.now, unmergeNote := note }
  write fun s => { s with records := s.records.insert recordId unmerged }

/-! ### Review -/

structure ReviewInput where
  candidateId : Uuid
  accept : Bool
  survivor : Option Uuid
  note : Option String

/-- What an accepted candidate is accepted with. -/
def acceptCandidate (ctx : CallContext) (data : ReviewInput) (row : CandidateRow) :
    PartyHandler CandidateRow := do
  let left ← getLive row.partyId
  let right ← getLive row.candidatePartyId
  match row.kind with
  | .sameParty => do
    require (∀ survivor ∈ data.survivor, survivor = row.partyId ∨ survivor = row.candidatePartyId)
      "input_invalid"
    let input : MergeInput :=
      if data.survivor = some row.candidatePartyId then
        ⟨row.partyId, row.candidatePartyId, left.revision, right.revision, data.note⟩
      else ⟨row.candidatePartyId, row.partyId, right.revision, left.revision, data.note⟩
    let record ← merge ctx input
    pure { row with state := .accepted, resolvedAt := some ctx.now, mergeRecordId := some record }
  | .affiliation => do
    require (data.survivor = none) "input_invalid"
    let id ← addAffiliation row.partyId row.candidatePartyId (some row.occurredAt) none
    let _ ← bump row.partyId none
    pure { row with state := .accepted, resolvedAt := some ctx.now, affiliationId := some id }

/-- What a decision leaves of an open candidate. -/
def resolvedRow (ctx : CallContext) (data : ReviewInput) (row : CandidateRow) :
    PartyHandler CandidateRow :=
  if data.accept then acceptCandidate ctx data row
  else pure { row with state := .rejected, resolvedAt := some ctx.now }

/-- `resolve_review`. -/
def resolveReview (ctx : CallContext) (data : ReviewInput) : PartyHandler Unit := do
  let s ← get
  let row ← found (s.candidates.lookup data.candidateId) "not_found"
  require (row.state = .open) "candidate_not_open"
  let resolved ← resolvedRow ctx data row
  write fun s => { s with candidates := s.candidates.insert data.candidateId resolved }

/-! ### Erasure -/

/-- `delete_owned`, under an approval of the party at a revision: the party goes with its aliases,
their contact points and affiliations. The merge records stay, without their texts. -/
def deleteOwned (ctx : CallContext) (id : Uuid) (revision : ℕ) : PartyHandler (List Uuid) := do
  let s ← get
  let target ← found (s.parties.lookup id) staleRevision
  require (target.mergedIntoId = none ∧ target.revision = revision) staleRevision
  let ids := id :: s.aliasIds id
  write fun s => { s with contacts := s.contacts.deleteWhere fun _ row => row.partyId ∈ ids }
  write fun s => { s with affiliations := s.affiliations.deleteWhere fun _ row =>
    row.personId ∈ ids || row.organizationId ∈ ids }
  write fun s => { s with records := s.records.updateAll fun _ row =>
    if row.survivorId ∈ ids ∨ row.mergedId ∈ ids then
      { row with evidence := none, unmergeNote := none }
    else row }
  write fun s => { s with candidates := s.candidates.updateAll fun _ row =>
    if row.partyId ∈ ids ∨ row.candidatePartyId ∈ ids then
      { row with state := .withdrawn, resolvedAt := some ctx.now }
    else row }
  write fun s => { s with parties := s.parties.deleteWhere fun other _ => other ∈ ids }
  pure ids

/-! ### Calls -/

inductive PartyCall where
  | create (kind : PartyKind) (displayName : String) (points : List NewContact)
  | update (id : Uuid) (revision : ℕ) (displayName : String)
  | addContact (party : Uuid) (revision : ℕ) (kind : ContactKind) (value : String)
  | changeContact (party : Uuid) (revision : ℕ) (contact : Uuid) (retire : Bool)
  | addAffiliation (person organization : Uuid) (revision : ℕ) (validFrom validTo : Option ℤ)
  | endAffiliation (person : Uuid) (revision : ℕ) (affiliation : Uuid) (validTo : ℤ)
  | resolve (isService : Bool) (input : ResolveInput)
  | merge (data : MergeInput)
  | unmerge (record : Uuid) (note : Option String) (rows : List MergeItem)
  | review (data : ReviewInput)
  | erase (party : Uuid) (revision : ℕ)

/-- The handler of a call, and what it leaves. -/
def PartyCall.run (m : Matching) (ctx : CallContext) : PartyCall → PartyState → PartyState
  | .create kind name points, s => ((partyCreate m kind name points).dispatch s).2
  | .update id revision name, s => ((partyUpdate id revision name).dispatch s).2
  | .addContact party revision kind value, s =>
    ((contactAdd m party revision kind value).dispatch s).2
  | .changeContact party revision contact retire, s =>
    ((contactChange party revision contact retire ctx.now).dispatch s).2
  | .addAffiliation person organization revision validFrom validTo, s =>
    ((affiliationAdd person organization revision validFrom validTo).dispatch s).2
  | .endAffiliation person revision affiliation validTo, s =>
    ((affiliationEnd person revision affiliation validTo).dispatch s).2
  | .resolve isService input, s => ((resolveOrCreate m isService input).dispatch s).2
  | .merge data, s => ((Relationships.merge ctx data).dispatch s).2
  | .unmerge record note rows, s => ((Relationships.unmerge ctx record note rows).dispatch s).2
  | .review data, s => ((resolveReview ctx data).dispatch s).2
  | .erase party revision, s => ((deleteOwned ctx party revision).dispatch s).2

/-- The query of an unmerge returns the items of its record, in some order. -/
def PartyCall.rowsRead (s : PartyState) : PartyCall → Bool
  | .unmerge record _ rows => rows.isPerm (s.itemsOf record)
  | _ => true

/-- The empty tables. -/
def emptyState : PartyState := ⟨∅, ∅, ∅, ∅, [], ∅, 0⟩

/-- Calls one after the other, as the lifecycle lock has them. -/
def partyMachine (m : Matching) : Machine PartyState (CallContext × PartyCall) where
  init s := s = emptyState
  step s a := if a.2.rowsRead s then some (a.2.run m a.1 s) else none

end Rheostream.Relationships
