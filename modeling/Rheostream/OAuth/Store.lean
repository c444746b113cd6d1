import Rheostream.Tokens.Issue
import Rheostream.Workspaces.Provisioning

/-!
# The rows of the connector sign-in

Clients, authorization requests, grants, refresh values and the audit trail, in the control
plane beside the access tokens, and the statements of `oauth_store.py` over them. A grant is
the `access_token` row it is keyed on.
-/

namespace Rheostream

/-- An `oauth_client` row with its redirect URIs. -/
structure OAuthClientRow where
  registeredFrom : String
  createdAt : ℕ
  redirectUris : List String

structure OAuthAuthorizationRow where
  requestHash : Digest
  clientId : String
  redirectUri : String
  codeChallenge : String
  state : Option String
  expiresAt : ℕ
  accountId : Option Uuid
  workspaceId : Option Uuid
  decidedAt : Option ℕ
  codeHash : Option Digest
  codeExpiresAt : Option ℕ
  codeUsedAt : Option ℕ
  tokenId : Option Uuid

structure OAuthGrantRow where
  clientId : String
  grantExpiresAt : ℕ

structure OAuthRefreshTokenRow where
  tokenId : Uuid
  rotatedAt : Option ℕ

/-- `OAUTH_EVENTS`. -/
inductive OAuthEvent where
  | clientRegistered
  | authorizationGranted
  | authorizationDenied
  | codeRedeemed
  | refreshUsed
  | refreshReuseRevoked
  | grantRevoked
deriving DecidableEq, Repr

/-- `OAUTH_OUTCOMES`. -/
inductive OAuthOutcome where
  | succeeded
  | refused
deriving DecidableEq, Repr

structure OAuthEventRow where
  event : OAuthEvent
  outcome : OAuthOutcome
  occurredAt : ℕ
  clientId : Option String
  accountId : Option Uuid
  workspaceId : Option Uuid
  tokenId : Option Uuid
deriving DecidableEq

/-- The control-plane rows of the connector sign-in. -/
structure OAuthTables where
  clients : Table String OAuthClientRow
  authorizations : Table Uuid OAuthAuthorizationRow
  /-- Keyed on the access token. -/
  grants : Table Uuid OAuthGrantRow
  refreshTokens : Table Digest OAuthRefreshTokenRow
  control : ControlTables
  workspaces : Table Uuid WorkspaceState
  events : List OAuthEventRow

/-- An authorization request or a code that can still be used at `now`. -/
def OAuthAuthorizationRow.inFlight (row : OAuthAuthorizationRow) (now : ℕ) : Bool :=
  now < row.expiresAt || row.codeExpiresAt.any fun expires => now < expires

/-- `record_authorization_decision`. -/
def OAuthAuthorizationRow.decision (decidedAt : ℕ) (account workspace : Option Uuid)
    (code : Option (Digest × ℕ)) : RowUpdate OAuthAuthorizationRow where
  guard row := row.decidedAt.isNone
  set row := { row with
    decidedAt := some decidedAt, accountId := account, workspaceId := workspace,
    codeHash := code.map Prod.fst, codeExpiresAt := code.map Prod.snd }

/-- `mark_code_used`. -/
def OAuthAuthorizationRow.burn (usedAt : ℕ) : RowUpdate OAuthAuthorizationRow where
  guard row := row.codeUsedAt.isNone
  set row := { row with codeUsedAt := some usedAt }

/-- `set_authorization_token`. -/
def OAuthAuthorizationRow.redemption (token : Uuid) : RowUpdate OAuthAuthorizationRow where
  guard _ := true
  set row := { row with tokenId := some token }

/-- `mark_refresh_rotated`. -/
def OAuthRefreshTokenRow.rotation (rotatedAt : ℕ) : RowUpdate OAuthRefreshTokenRow where
  guard row := row.rotatedAt.isNone
  set row := { row with rotatedAt := some rotatedAt }

/-- `revoke_access_token_if_live`. -/
def AccessTokenRow.revocationIfLive (now : ℕ) : RowUpdate AccessTokenRow where
  guard row := row.revokedAt.isNone
  set row := { row with revokedAt := some now }

/-- `revoke_access_token`. -/
def AccessTokenRow.revocation (now : ℕ) : RowUpdate AccessTokenRow where
  guard _ := true
  set row := { row with revokedAt := some now }

/-- `rotate_access_token`. -/
def AccessTokenRow.rotation (tokenHash : Digest) (expiresAt : ℕ) : RowUpdate AccessTokenRow where
  guard row := row.revokedAt.isNone
  set row := { row with tokenHash := tokenHash, expiresAt := expiresAt }

namespace OAuthTables

variable (s : OAuthTables)

def accessTokens : Table Uuid AccessTokenRow := s.control.accessTokens

/-- `_has_any_grant`. -/
def hasAnyGrant (client : String) : Bool :=
  s.grants.existsRow fun _ grant => grant.clientId = client

/-- Some authorization of the client is in flight. -/
def hasInFlight (client : String) (now : ℕ) : Bool :=
  s.authorizations.existsRow fun _ row => row.clientId = client && row.inFlight now

/-- `_abandoned`. -/
def isAbandoned (now abandonedBefore : ℕ) (client : String) (row : OAuthClientRow) : Bool :=
  !s.hasAnyGrant client && decide (row.createdAt < abandonedBefore) && !s.hasInFlight client now

/-- `_holds_live_grant`. -/
def holdsLiveGrant (now : ℕ) (client : String) : Bool :=
  s.grants.existsRow fun token grant =>
    grant.clientId = client && decide (now < grant.grantExpiresAt) &&
      (s.accessTokens.lookup token).any fun row => row.revokedAt.isNone

/-- `count_counted_clients`. -/
def countCountedClients (now abandonedBefore : ℕ) : ℕ :=
  s.clients.entries.countP fun e => !s.isAbandoned now abandonedBefore e.1 e.2 &&
    (!s.hasAnyGrant e.1 || s.holdsLiveGrant now e.1)

/-- `count_registrations_from`. -/
def countRegistrationsFrom (source : String) (since : ℕ) : ℕ :=
  s.clients.entries.countP fun e => e.2.registeredFrom = source && decide (since ≤ e.2.createdAt)

/-- The clients that the `DELETE` of `delete_abandoned_clients` selects. -/
def abandonedClients (now abandonedBefore : ℕ) : List String :=
  (s.clients.select fun client row => s.isAbandoned now abandonedBefore client row).keys

/-- The rows that `delete_expired_authorizations` deletes. -/
def isExpired (before : ℕ) (row : OAuthAuthorizationRow) : Bool :=
  row.tokenId.isNone && decide (row.expiresAt < before) &&
    row.codeExpiresAt.all fun expires => expires < before

/-- The selected clients and, by cascade, their authorizations; then the expired rows. -/
def clean (victims : List String) (before : ℕ) : OAuthTables :=
  { s with
    clients := s.clients.deleteWhere fun client _ => victims.contains client
    authorizations := s.authorizations.deleteWhere fun _ row =>
      victims.contains row.clientId || isExpired before row }

/-- `insert_event`. -/
def insertEvent (row : OAuthEventRow) : OAuthTables := { s with events := s.events ++ [row] }

/-- `_revoke_if_live`, and whether it ended the grant. -/
def revokeIfLive (token : Uuid) (now : ℕ) : OAuthTables × Bool :=
  match s.accessTokens.updateRow token (AccessTokenRow.revocationIfLive now) with
  | none => (s, false)
  | some rows => ({ s with control := { s.control with accessTokens := rows } }, true)

/-- A conditional revocation of a token with its events: `before` in any case, and `ended` when
this ended the grant. -/
def endGrant (token : Option Uuid) (now : ℕ)
    (before : List OAuthEventRow) (ended : OAuthEventRow) : OAuthTables :=
  match token.elim (s, false) fun token => s.revokeIfLive token now with
  | (tables, true) => { tables with events := s.events ++ before ++ [ended] }
  | (_, false) => { s with events := s.events ++ before }

end OAuthTables

end Rheostream
