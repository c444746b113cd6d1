import Rheostream.Foundation.Machine
import Rheostream.Tokens.Presentation

/-!
# Bridge enrollments

`enrollment.py` and the authority check of `ingest.py`: an enrollment binds one account, on one
machine and one directory, to a bridge token. The token is a row of the control plane and the
enrollment is a row of the workspace, and the two commit apart. A call is modelled as the
statements between its commits, any of which may be its last.
-/

namespace Rheostream.Evidence

inductive EnrollmentStatus where
  | active
  | revoked
  deriving DecidableEq

/-- A row of `evidence_enrollment`. -/
structure EnrollmentRow where
  accountId : Uuid
  tokenId : Uuid
  machineFingerprint : String
  projectFingerprint : String
  purpose : String
  state : EnrollmentStatus
  deriving DecidableEq

/-- The pair of `evidence_enrollment_active_pair`. -/
def EnrollmentRow.pair (row : EnrollmentRow) : String × String :=
  (row.machineFingerprint, row.projectFingerprint)

/-- What is asked of an enrollment. -/
inductive EnrollmentRequest where
  | create (machineFingerprint projectFingerprint : String) (accountId : Option Uuid)
  | rotate (enrollmentId : Uuid) (accountId : Option Uuid)
  | revoke (enrollmentId : Uuid) (accountId : Option Uuid)

/-- An ingest call, with what the boundary resolved its token to. -/
structure IngestCall where
  token : ResolvedToken
  machineFingerprint : String
  projectFingerprint : String

/-- A call between two of its statements. A row beside an enrollment id is the row as it was
read under its lock. -/
inductive Flight where
  /-- No active enrollment holds the pair, and no token is minted. -/
  | creating (ctx : WorkspaceContext) (account : Uuid) (pair : String × String)
  | minted (account : Uuid) (pair : String × String) (token : Uuid)
  /-- The insert violated the index. -/
  | contended (token : Uuid)
  | inserted (id : Uuid) (row : EnrollmentRow)
  | rotating (ctx : WorkspaceContext) (id : Uuid) (row : EnrollmentRow)
  /-- The row is pointed at a new token, and the old one is not revoked. -/
  | repointed (id : Uuid) (row : EnrollmentRow) (token : Uuid)
  | rotated (id : Uuid) (row : EnrollmentRow) (token : Uuid)
  | revoking (id : Uuid) (row : EnrollmentRow)
  /-- The token of the enrollment is revoked. -/
  | ended (id : Uuid) (row : EnrollmentRow)
  /-- The boundary resolved the token, and the enrollment is not read. -/
  | ingesting (call : IngestCall)
  /-- Every check passed. -/
  | admitted (call : IngestCall) (id : Uuid) (row : EnrollmentRow)

namespace Flight

/-- The token that the call minted and no committed enrollment holds. -/
def token : Flight → Option Uuid
  | minted _ _ token | contended token | repointed _ _ token | rotated _ _ token => some token
  | inserted _ row => some row.tokenId
  | _ => none

/-- The row that the call inserted. -/
def newRow : Flight → Option (Uuid × EnrollmentRow)
  | inserted id row => some (id, row)
  | _ => none

/-- The row that the call locked `FOR UPDATE`. -/
def owned : Flight → Option (Uuid × EnrollmentRow)
  | rotating _ id row | repointed id row _ | rotated id row _ | revoking id row | ended id row =>
    some (id, row)
  | _ => none

/-- The row that the call locked `FOR SHARE`. -/
def shared : Flight → Option (Uuid × EnrollmentRow)
  | admitted _ id row => some (id, row)
  | _ => none

/-- Whether the call keeps others from locking a row for update. -/
def holds (f : Flight) (id : Uuid) : Bool :=
  f.owned.any (fun r => r.1 = id) || f.shared.any fun r => r.1 = id

end Flight

/-- The two databases, with the calls that are being made. -/
structure EnrollmentState where
  control : ControlTables
  enrollments : Table Uuid EnrollmentRow
  flights : Table ℕ Flight
  /-- The ingests that were accepted, each with the enrollment whose rows it wrote. -/
  accepted : List (IngestCall × Uuid)
  now : ℕ

/-- `_target_account`. -/
def targetAccount (ctx : WorkspaceContext) (payload : Option Uuid) : Except String Uuid :=
  match ctx.actor.kind with
  | .account =>
    match ctx.actor.id with
    | none => .error "AssertionError"
    | some id => .ok id
  | .token =>
    match ctx.accountId with
    | none => .error "account_required"
    | some id => .ok id
  | .operator =>
    match payload with
    | none => .error "account_required"
    | some id => .ok id
  | _ => .error "account_required"

/-- `BRIDGE_PURPOSE`. -/
def bridgePurpose : String := ContextPurpose.internalAnalysis.value

/-- `core.evidence.ingest`. -/
def evidenceIngest : String := "core.evidence.ingest"

/-- The roles that `core.evidence.ingest` is declared for. -/
def ingestRoles : List Role := [.owner, .member]

namespace EnrollmentState

variable (s : EnrollmentState)

/-- The active enrollment that holds a pair. -/
def holder (pair : String × String) : Option (Uuid × EnrollmentRow) :=
  s.enrollments.findRow fun _ row => row.pair = pair && row.state = .active

/-- `_refuse_held_pair`. -/
def refuseHeldPair (pair : String × String) (account : Uuid) : Except String Unit :=
  match s.holder pair with
  | none => .ok ()
  | some (_, row) =>
    if row.accountId = account then .error "enrollment_exists" else .error "not_found"

/-- `_require_membership`. -/
def requireMembership (account workspace : Uuid) : Except String Unit :=
  match s.control.memberships.lookup (account, workspace) with
  | none => .error "membership_missing"
  | some _ => .ok ()

/-- `_owned_enrollment`, with the state that both of its callers check. -/
def ownedEnrollment (id account : Uuid) : Except String EnrollmentRow :=
  match s.enrollments.lookup id with
  | none => .error "not_found"
  | some row =>
    if row.accountId ≠ account then .error "not_found"
    else if row.state ≠ .active then .error "enrollment_inactive"
    else .ok row

/-- `create_handler`, up to the mint. -/
def openCreate (ctx : WorkspaceContext) (pair : String × String) (payload : Option Uuid) :
    Except String Flight :=
  if ctx.actor.kind = .token then .error "operation_not_permitted"
  else do
    let account ← targetAccount ctx payload
    s.requireMembership account ctx.workspaceId
    s.refuseHeldPair pair account
    return .creating ctx account pair

/-- `rotate_handler`, up to the mint. -/
def openRotate (ctx : WorkspaceContext) (id : Uuid) (payload : Option Uuid) :
    Except String Flight :=
  if ctx.actor.kind = .token then .error "operation_not_permitted"
  else do
    let account ← targetAccount ctx payload
    s.requireMembership account ctx.workspaceId
    let row ← s.ownedEnrollment id account
    return .rotating ctx id row

/-- `revoke_handler`, up to the revocation of the token. -/
def openRevoke (ctx : WorkspaceContext) (id : Uuid) (payload : Option Uuid) :
    Except String Flight := do
  let account ← targetAccount ctx payload
  let row ← s.ownedEnrollment id account
  return .revoking id row

/-- Whether a call holds the lock of an enrollment, so that a lock for update waits. -/
def isLocked (id : Uuid) : Bool := s.flights.existsRow fun _ f => f.holds id

/-- The first statements of a call; none while it waits for the lock of its row. -/
def opens (ctx : WorkspaceContext) : EnrollmentRequest → Option (Except String Flight)
  | .create machine project payload => some (s.openCreate ctx (machine, project) payload)
  | .rotate id payload => if s.isLocked id then none else some (s.openRotate ctx id payload)
  | .revoke id payload => if s.isLocked id then none else some (s.openRevoke ctx id payload)

/-- A token that nobody has drawn. -/
def isFresh (token : Uuid) (hash : Digest) : Bool :=
  (s.control.accessTokens.lookup token).isNone && (s.control.accessTokenByHash hash).isNone

/-- One row of `access_token` is written. -/
def withToken (token : Uuid) (row : AccessTokenRow) : EnrollmentState :=
  { s with control.accessTokens := s.control.accessTokens.insert token row }

/-- The row of `issue_bridge_token`. -/
def bridgeToken (ctx : WorkspaceContext) (account : Uuid) (purpose : String) (hash : Digest)
    (expiresAt : ℕ) : AccessTokenRow where
  tokenHash := hash
  accountId := account
  workspaceId := ctx.workspaceId
  kind := .cli
  issuedFrom := if ctx.actor.kind = .account then .session else .operator
  setName := none
  purpose := some purpose
  expiresAt := expiresAt
  revokedAt := none
  operations := bridgeTokenOperations

/-- `_revoke_token_if_live`. -/
def revokeIfLive (token : Uuid) : EnrollmentState :=
  match s.control.accessTokens.lookup token with
  | none => s
  | some row =>
    if row.revokedAt.isSome then s else s.withToken token { row with revokedAt := some s.now }

/-- A call has made its next statement. -/
def fly (p : ℕ) (f : Flight) : EnrollmentState := { s with flights := s.flights.insert p f }

/-- A call is over, and what it wrote in the workspace is not. -/
def land (p : ℕ) : EnrollmentState := { s with flights := s.flights.erase p }

/-- A call commits one row of the workspace. -/
def commitRow (p : ℕ) (id : Uuid) (row : EnrollmentRow) : EnrollmentState :=
  { s with
    enrollments := s.enrollments.insert id row
    flights := s.flights.erase p }

/-- `_active_enrollment`. -/
def activeEnrollment (token : Uuid) : Option (Uuid × EnrollmentRow) :=
  s.enrollments.findRow fun _ row => row.tokenId = token && row.state = .active

end EnrollmentState

/-- The second check of `ingest_handler`. -/
def IngestCall.fits (call : IngestCall) (row : EnrollmentRow) : Bool :=
  (call.machineFingerprint, call.projectFingerprint) = row.pair &&
    call.token.accountId = row.accountId &&
      call.token.boundPurpose.any fun purpose => purpose.value = row.purpose

inductive EnrollmentAction where
  | start (p : ℕ) (ctx : WorkspaceContext) (request : EnrollmentRequest)
  /-- `_mint` draws a token, and a rotate points its row at it. -/
  | mint (p : ℕ) (token : Uuid) (hash : Digest) (expiresAt : ℕ)
  | insert (p : ℕ) (id : Uuid)
  /-- The token that a call has to end, where the control plane works or does not. -/
  | endToken (p : ℕ) (works : Bool)
  | commit (p : ℕ)
  /-- The process dies, or a statement raises: the transaction of the workspace is undone. -/
  | crash (p : ℕ)
  /-- A request presents a token, and the boundary resolves it. -/
  | present (p : ℕ) (value machineFingerprint projectFingerprint : String)
  /-- An ingest reads its enrollment, and its recording gate answers. -/
  | read (p : ℕ) (allowed : Bool)
  /-- `core.token.revoke`. -/
  | revokeToken (token : Uuid)
  /-- A token is issued for something else. -/
  | issue (token : Uuid) (row : AccessTokenRow)
  | member (account workspace : Uuid) (role : Option Role)
  | tick (now : ℕ)

section Step

variable (D : Digests) (workspace : Uuid)

/-- The mint of a call that has not minted. -/
def mintStep (s : EnrollmentState) (p : ℕ) (token : Uuid) (hash : Digest) (expiresAt : ℕ) :
    Flight → Option EnrollmentState
  | .creating ctx account pair =>
    some ((s.withToken token (EnrollmentState.bridgeToken ctx account bridgePurpose hash
      expiresAt)).fly p (.minted account pair token))
  | .rotating ctx id row =>
    some ((s.withToken token (EnrollmentState.bridgeToken ctx row.accountId row.purpose hash
      expiresAt)).fly p (.repointed id row token))
  | _ => none

/-- The insert of a create. It waits while another call has inserted the pair and is not over. -/
def insertStep (s : EnrollmentState) (p : ℕ) (id : Uuid) : Flight → Option EnrollmentState
  | .minted account pair token =>
    if s.flights.existsRow (fun _ f => f.newRow.any fun r => r.2.pair = pair) then none
    else if (s.holder pair).isSome then some (s.fly p (.contended token))
    else if (s.enrollments.lookup id).isSome ||
        s.flights.existsRow (fun _ f => f.newRow.any fun r => r.1 = id) then none
    else some (s.fly p (.inserted id ⟨account, token, pair.1, pair.2, bridgePurpose, .active⟩))
  | _ => none

/-- The end of a token, by the call that has to end one. -/
def endTokenStep (s : EnrollmentState) (p : ℕ) (works : Bool) : Flight → Option EnrollmentState
  | .contended token => some ((if works then s.revokeIfLive token else s).land p)
  | .repointed id row token =>
    some ((if works then s.revokeIfLive row.tokenId else s).fly p (.rotated id row token))
  | .revoking id row =>
    -- A revoke raises where a rotate only logs.
    if works then some ((s.revokeIfLive row.tokenId).fly p (.ended id row)) else some (s.land p)
  | _ => none

/-- The commit of a call in the workspace. -/
def commitStep (s : EnrollmentState) (p : ℕ) : Flight → Option EnrollmentState
  | .inserted id row => some (s.commitRow p id row)
  | .rotated id row token => some (s.commitRow p id { row with tokenId := token })
  | .ended id row => some (s.commitRow p id { row with state := .revoked })
  | .admitted call id _ => some { s.land p with accepted := s.accepted ++ [(call, id)] }
  | _ => none

/-- `ingest_handler`, up to its commit. It waits while a call has locked the row for update. -/
def readStep (s : EnrollmentState) (p : ℕ) (allowed : Bool) : Flight → Option EnrollmentState
  | .ingesting call =>
    match s.activeEnrollment call.token.tokenId with
    | none => some (s.land p)
    | some (id, row) =>
      if s.flights.existsRow (fun _ f => f.owned.any fun r => r.1 = id) then none
      else if call.fits row && allowed then some (s.fly p (.admitted call id row))
      else some (s.land p)
  | _ => none

/-- The boundary of an ingest. -/
def presentStep (s : EnrollmentState) (p : ℕ) (value machine project : String) :
    Option EnrollmentState :=
  match s.control.resolveToken D value "api" s.now with
  | .error _ => none
  | .ok resolved =>
    if resolved.workspaceId = workspace ∧ evidenceIngest ∈ resolved.operationSet ∧
        resolved.role ∈ ingestRoles then
      some (s.fly p (.ingesting ⟨resolved, machine, project⟩))
    else none

def step (s : EnrollmentState) : EnrollmentAction → Option EnrollmentState
  | .start p ctx request =>
    if (s.flights.lookup p).isSome then none
    else match s.opens ctx request with
      | some (.ok f) => some (s.fly p f)
      | _ => none
  | .mint p token hash expiresAt =>
    if s.isFresh token hash then
      (s.flights.lookup p).bind (mintStep s p token hash expiresAt)
    else none
  | .insert p id => (s.flights.lookup p).bind (insertStep s p id)
  | .endToken p works => (s.flights.lookup p).bind (endTokenStep s p works)
  | .commit p => (s.flights.lookup p).bind (commitStep s p)
  | .crash p => (s.flights.lookup p).map fun _ => s.land p
  | .present p value machine project =>
    if (s.flights.lookup p).isSome then none else presentStep D workspace s p value machine project
  | .read p allowed => (s.flights.lookup p).bind (readStep s p allowed)
  | .revokeToken token => some (s.revokeIfLive token)
  | .issue token row => if s.isFresh token row.tokenHash then some (s.withToken token row) else none
  | .member account home role =>
    some { s with
      control.memberships := match role with
        | none => s.control.memberships.erase (account, home)
        | some role => s.control.memberships.insert (account, home) role }
  | .tick now => if s.now ≤ now then some { s with now := now } else none

/-- A workspace that has enrolled nobody, beside any control plane. -/
def Initial (s : EnrollmentState) : Prop :=
  s.enrollments = ∅ ∧ s.flights = ∅ ∧ s.accepted = []

/-- The calls of one workspace, in any order. -/
def machine : Machine EnrollmentState EnrollmentAction where
  init := Initial
  step := step D workspace

end Step

/-- The statements of one call that nothing interrupts. -/
def EnrollmentRequest.statements (p : ℕ) (ctx : WorkspaceContext) (token : Uuid) (hash : Digest)
    (expiresAt : ℕ) (id : Uuid) : EnrollmentRequest → List EnrollmentAction
  | .create machine project payload =>
    [.start p ctx (.create machine project payload), .mint p token hash expiresAt, .insert p id,
      .commit p]
  | .rotate enrollment payload =>
    [.start p ctx (.rotate enrollment payload), .mint p token hash expiresAt, .endToken p true,
      .commit p]
  | .revoke enrollment payload =>
    [.start p ctx (.revoke enrollment payload), .endToken p true, .commit p]

end Rheostream.Evidence
