import Rheostream.Boundary.Context
import Rheostream.Foundation.Machine
import Rheostream.Leads.Evidence

/-!
# Contact permission

`permissions.py`: grants and withdrawals are rows of one table, each for one channel or for all,
under the party that the call named. Relationships answers which parties a call is about. `check`
reads the rows of all of them and goes by the newest.
-/

namespace Rheostream.Leads.ContactPermission

/-- A reference to a party. -/
abbrev PartyRef := String

inductive Channel where
  | email
  | phone
  | message
deriving DecidableEq

inductive RecipientScope where
  | workspace
  | namedReferral
deriving DecidableEq

/-- A row of `contact_permission`. Times are in microseconds. -/
structure PermissionRow where
  id : Uuid
  partyRef : PartyRef
  purpose : ContextPurpose
  channel : Option Channel
  recipientScope : RecipientScope
  disclosureVersion : Option String
  evidenceObservationId : Option Uuid
  grantedAt : Option ℤ
  withdrawnAt : Option ℤ
  withdrawnReason : Option String
deriving DecidableEq

attribute [local instance] integerOrder integerPreorder

/-- What rows are compared by: the time of the withdrawal, or of the grant, and the identifier. -/
def PermissionRow.key (row : PermissionRow) : ℤ ×ₗ ℕ :=
  toLex ((row.withdrawnAt.or row.grantedAt).getD 0, row.id)

/-- A row of `contact_suppression`. -/
structure SuppressionRow where
  suppressedAt : ℤ
  reason : Option String
deriving DecidableEq

inductive PermissionState where
  | permitted
  | absent
  | withdrawn
  | suppressed
deriving DecidableEq

/-- An accepted grant or withdrawal. -/
structure Entered where
  withdrawal : Bool
  partyRef : PartyRef
  purpose : ContextPurpose
  channel : Option Channel
  now : ℤ
  id : Uuid

/-- The tables, with every grant and withdrawal there has been, oldest first. -/
structure PermissionTables where
  permissions : List PermissionRow
  suppressions : Table PartyRef SuppressionRow
  entered : List Entered

/-- The rows that a channel is decided by: its own, and those for all channels. -/
def applicable (rows : List PermissionRow) (channel : Option Channel) : List PermissionRow :=
  rows.filter fun row => row.channel = none || row.channel = channel

/-- The newest row. -/
def latest (rows : List PermissionRow) : Option PermissionRow := rows.argmax PermissionRow.key

/-- The newest row that a channel is decided by is a withdrawal. -/
def latestWithdrawn (rows : List PermissionRow) (channel : Option Channel) : Bool :=
  (latest (applicable rows channel)).any fun row => row.withdrawnAt.isSome

/-- The channels that a read without a channel asks for. -/
def channelsOf (rows : List PermissionRow) : List (Option Channel) :=
  let named := (rows.filterMap PermissionRow.channel).dedup
  if named.isEmpty then [none] else named.map some

namespace PermissionTables

variable (s : PermissionTables)

/-- Some of the parties is suppressed. -/
def anySuppressed (refs : List PartyRef) : Bool :=
  refs.any fun party => (s.suppressions.lookup party).isSome

/-- The rows of the parties for a purpose. -/
def entries (refs : List PartyRef) (purpose : ContextPurpose) : List PermissionRow :=
  s.permissions.filter fun row => refs.contains row.partyRef && row.purpose = purpose

/-- `check`. -/
def check (refs : List PartyRef) (purpose : ContextPurpose) (channel : Option Channel) :
    PermissionState :=
  if s.anySuppressed refs then .suppressed
  else match channel with
    | none =>
      let rows := s.entries refs purpose
      if rows.isEmpty then .absent
      else if (channelsOf rows).any (latestWithdrawn rows) then .withdrawn
      else .permitted
    | some channel =>
      let rows := applicable (s.entries refs purpose) (some channel)
      if rows.isEmpty then .absent
      else if (latest rows).any fun row => row.withdrawnAt.isSome then .withdrawn
      else .permitted

end PermissionTables

/-- What a call finds: the parties its reference stands for, the party of an observation, the
clock and an identifier. -/
structure CallContext where
  refs : List PartyRef
  observed : Uuid → Option (Option PartyRef)
  now : ℤ
  newId : Uuid

structure PermissionRecord where
  partyRef : PartyRef
  purpose : ContextPurpose
  channel : Option Channel
  recipientScope : RecipientScope
  disclosureVersion : String
  evidenceObservation : Option Uuid

structure WithdrawInput where
  partyRef : PartyRef
  purpose : ContextPurpose
  channel : Option Channel
  reason : Option String

structure SuppressInput where
  partyRef : PartyRef
  reason : Option String

namespace PermissionTables

variable (s : PermissionTables)

/-- The refusal of evidence that is not there, or is of another party. -/
def evidenceRefused (c : CallContext) (evidence : Option Uuid) : Option String :=
  match evidence with
  | none => none
  | some observation =>
    match c.observed observation with
    | none => some "not_found"
    | some party => if party.any c.refs.contains then none else some "evidence_mismatch"

/-- `record`. -/
def record (c : CallContext) (m : PermissionRecord) :
    Except String (PermissionTables × PermissionState) :=
  match evidenceRefused c m.evidenceObservation with
  | some refusal => .error refusal
  | none =>
    let row : PermissionRow :=
      ⟨c.newId, m.partyRef, m.purpose, m.channel, m.recipientScope, some m.disclosureVersion,
        m.evidenceObservation, some c.now, none, none⟩
    let t : PermissionTables :=
      { s with
        permissions := s.permissions ++ [row]
        entered := s.entered ++ [⟨false, m.partyRef, m.purpose, m.channel, c.now, c.newId⟩] }
    .ok (t, t.check c.refs m.purpose m.channel)

/-- The rows that a withdrawal is about. -/
def withdraws (c : CallContext) (m : WithdrawInput) (row : PermissionRow) : Bool :=
  c.refs.contains row.partyRef && row.purpose = m.purpose && row.withdrawnAt.isNone &&
    m.channel.all fun channel => row.channel = some channel

/-- `withdraw`. A marker is kept beside the rows that are withdrawn. -/
def withdraw (c : CallContext) (m : WithdrawInput) : PermissionTables × PermissionState :=
  let marker : PermissionRow :=
    ⟨c.newId, m.partyRef, m.purpose, m.channel, .workspace, none, none, none, some c.now, m.reason⟩
  ({ s with
      permissions := (s.permissions.map fun row =>
        if withdraws c m row then
          { row with withdrawnAt := some c.now, withdrawnReason := m.reason }
        else row) ++ [marker]
      entered := s.entered ++ [⟨true, m.partyRef, m.purpose, m.channel, c.now, c.newId⟩] },
    .withdrawn)

/-- `suppress`. -/
def suppress (c : CallContext) (m : SuppressInput) : PermissionTables × PermissionState :=
  ({ s with suppressions := s.suppressions.insert m.partyRef ⟨c.now, m.reason⟩ }, .suppressed)

end PermissionTables

inductive PermissionAction where
  | record (c : CallContext) (m : PermissionRecord)
  | withdraw (c : CallContext) (m : WithdrawInput)
  | suppress (c : CallContext) (m : SuppressInput)

/-- The rows have other identifiers than a new one. -/
def fresh (s : PermissionTables) (id : Uuid) : Bool := s.permissions.all fun row => row.id ≠ id

/-- A refused call changes nothing. The parties of a call include the one it names. -/
def permissionStep (s : PermissionTables) : PermissionAction → Option PermissionTables
  | .record c m =>
    if m.partyRef ∈ c.refs ∧ fresh s c.newId = true then
      match s.record c m with
      | .error _ => some s
      | .ok answer => some answer.1
    else none
  | .withdraw c m =>
    if m.partyRef ∈ c.refs ∧ fresh s c.newId = true then some (s.withdraw c m).1 else none
  | .suppress c m => if m.partyRef ∈ c.refs then some (s.suppress c m).1 else none

/-- A workspace without permissions. -/
def contactPermission : Machine PermissionTables PermissionAction :=
  ⟨fun s => s = ⟨[], ∅, []⟩, permissionStep⟩

end Rheostream.Leads.ContactPermission
