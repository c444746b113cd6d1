import Rheostream.OAuth.Store

/-!
# The connector sign-in

`oauth/service.py` and the revocation of a token, as transactions in flight. A transaction stands
between two of its statements, with the rows it has read and the row it has locked; another
one that needs a locked row is not enabled. The last statements of a transaction and its commit
are one step. A `DELETE` selects its rows at one instant and deletes them at another, as it does
under `READ COMMITTED`. Every transaction brings its own `now`.
-/

namespace Rheostream

structure OAuthLifetimes where
  accessTokenMinutes : ℕ
  grantDays : ℕ
  refreshGraceSeconds : ℕ
  maxClients : ℕ
  registrationsPerSourcePerHour : ℕ
  abandonedClientMinutes : ℕ

/-- What the flow reads of the configured surface. -/
structure OAuthSurface where
  resource : String
  issuer : String
  redirectUris : List String
  lifetimes : OAuthLifetimes
  acceptsEmptyPath : Bool

/-- `resource_matches`. -/
def OAuthSurface.resourceMatches (surface : OAuthSurface) (value : String) : Bool :=
  value = surface.resource || surface.acceptsEmptyPath && value = surface.issuer

/-- The parameters of a request. -/
abbrev OAuthForm := List (String × String)

/-- A refusal, and whether it may be sent to the client's redirect URI. -/
structure OAuthError where
  error : String
  status : ℕ
  redirect : Bool
  redirectUri : Option String
  state : Option String
  iss : Option String

/-- `_page`. -/
def page (error : String) (status : ℕ) : OAuthError := ⟨error, status, false, none, none, none⟩

/-- `_token_error`. -/
def tokenError (error : String) : OAuthError :=
  page error (if error = "invalid_client" then 401 else 400)

/-- What a step answered. A secret stands as its digest. -/
inductive OAuthAnswer where
  | registered (client : String)
  | held (request : Uuid)
  | approved (request : Uuid) (code : Digest)
  | denied (request : Uuid)
  /-- The account had no workspace to choose: the request is decided without a code. -/
  | unselected (request : Uuid)
  | redeemed (code : Digest) (token : Uuid) (access : Digest) (expiresIn : ℕ) (refresh : Digest)
  | codeRefused (code : Digest) (error : OAuthError)
  | refreshed (value : Digest) (token : Uuid) (access : Digest) (expiresIn : ℕ) (refresh : Digest)
  | revoked (token : Uuid)
  | refused (error : OAuthError)

namespace OAuthAnswer

/-- The answer decides a request. -/
def decides (request : Uuid) : OAuthAnswer → Bool
  | approved id _ | denied id | unselected id => id = request
  | _ => false

/-- The answer is to a presentation of a code. -/
def presents (code : Digest) : OAuthAnswer → Bool
  | redeemed presented _ _ _ _ | codeRefused presented _ => presented = code
  | _ => false

/-- The answer hands out a grant for a code. -/
def redeems (code : Digest) : OAuthAnswer → Bool
  | redeemed presented _ _ _ _ => presented = code
  | _ => false

/-- The refresh value that the answer accepts. -/
def accepts : OAuthAnswer → Option Digest
  | refreshed value _ _ _ _ => some value
  | _ => none

/-- The grant and the access value that the answer hands out. -/
def handsOut : OAuthAnswer → Option (Uuid × Digest)
  | redeemed _ token access _ _ | refreshed _ token access _ _ => some (token, access)
  | _ => none

end OAuthAnswer

/-- A registration request. -/
structure Registration where
  surface : OAuthSurface
  source : String
  metadata : Json
  now : ℕ

namespace Registration

variable (r : Registration)

/-- The start of the window in which a source's registrations count. -/
def windowStart : ℕ := r.now - seconds 3600

def abandonedBefore : ℕ := r.now - seconds (60 * r.surface.lifetimes.abandonedClientMinutes)

/-- The end of `EXPIRED_AUTHORIZATION_RETENTION`. -/
def expiredBefore : ℕ := r.now - days 1

/-- The redirect URIs asked for, when the server allows them all. -/
def redirectUris : Except String (List String) :=
  match r.metadata with
  | .obj members =>
    match members.lookup "redirect_uris" with
    | some (.arr items) =>
      let uris := items.filterMap fun item => match item with
        | .str uri => if r.surface.redirectUris.contains uri then some uri else none
        | _ => none
      if items.isEmpty || uris.length ≠ items.length then .error "invalid_redirect_uri"
      else .ok uris
    | _ => .error "invalid_redirect_uri"
  | _ => .error "invalid_client_metadata"

end Registration

/-- An `/authorize` request that was validated against its client. -/
structure HeldRequest where
  clientId : String
  redirectUri : String
  codeChallenge : String
  state : Option String
  now : ℕ

/-- A decision on a locked authorization row. -/
structure Decision where
  id : Uuid
  row : OAuthAuthorizationRow
  accountId : Uuid
  workspaceId : Option Uuid
  now : ℕ

/-- A code exchange with its locked authorization row. -/
structure CodeExchange where
  id : Uuid
  row : OAuthAuthorizationRow
  code : Digest
  surface : OAuthSurface
  form : OAuthForm
  now : ℕ

/-- A refresh with its locked refresh row. -/
structure RefreshUse where
  value : Digest
  row : OAuthRefreshTokenRow
  surface : OAuthSurface
  form : OAuthForm
  now : ℕ

/-- A transaction between two of its statements. -/
inductive OAuthFlight where
  /-- `register_client` is about to count its source's registrations. -/
  | counting (r : Registration)
  | cleaning (r : Registration) (recent : ℕ)
  /-- The `DELETE` has selected the abandoned clients. -/
  | deleting (r : Registration) (recent : ℕ) (selected : List String)
  /-- `begin_authorization` has read the client. -/
  | holding (h : HeldRequest)
  /-- `approve` is about to list the memberships. -/
  | listing (d : Decision)
  /-- `approve` reads one workspace after another. -/
  | choosing (d : Decision) (rest chosen : List Uuid)
  | denying (d : Decision)
  /-- `exchange_code` with a code that was not used. -/
  | redeeming (e : CodeExchange)
  /-- The code passed every check but the membership. -/
  | issuing (e : CodeExchange) (account workspace : Uuid)
  /-- `exchange_code` with a used code. -/
  | replaying (e : CodeExchange)
  /-- `refresh` with a live value. -/
  | validating (r : RefreshUse)
  | joining (r : RefreshUse) (grant : OAuthGrantRow) (token : AccessTokenRow)
  | housing (r : RefreshUse) (grant : OAuthGrantRow) (token : AccessTokenRow)
  | rotating (r : RefreshUse) (grant : OAuthGrantRow) (token : AccessTokenRow)
  /-- `refresh` with a value that was rotated before the grace period. -/
  | reusing (r : RefreshUse)
  /-- `revoke_handler` has read the token. -/
  | revoking (id : Uuid) (row : AccessTokenRow) (now : ℕ)

/-- The authorization row that a transaction holds locked. -/
def OAuthFlight.authorization : OAuthFlight → Option Uuid
  | listing d | choosing d _ _ | denying d => some d.id
  | redeeming e | issuing e _ _ | replaying e => some e.id
  | _ => none

/-- The refresh row that a transaction holds locked. -/
def OAuthFlight.refreshValue : OAuthFlight → Option Digest
  | validating r | joining r _ _ | housing r _ _ | rotating r _ _ | reusing r => some r.value
  | _ => none

/-- Whether a transaction's `DELETE` has selected a client. -/
def OAuthFlight.selects (client : String) : OAuthFlight → Bool
  | deleting _ _ selected => selected.contains client
  | _ => false

/-- What a step draws: the digests of fresh secrets, fresh identifiers, and the resolved
`identity.token_max_days.mcp`, which an exchange reads twice. -/
structure Draw where
  secret : Digest
  access : Digest
  id : Uuid
  clientId : String
  grantDays : ℕ
  clampDays : ℕ

/-- Who revokes a token: a person within one account, or the operator. -/
structure Revoker where
  workspaceId : Uuid
  ownerScoped : Bool
  accountId : Option Uuid

structure OAuthState where
  tables : OAuthTables
  flights : Table ℕ OAuthFlight
  /-- Every answer given so far. -/
  answers : List OAuthAnswer
  /-- The digests of the secrets drawn so far. -/
  drawn : List Digest
  /-- The identifiers drawn so far. -/
  ids : List Uuid

inductive OAuthAction where
  | registerClient (p : ℕ) (r : Registration)
  | beginAuthorization (p : ℕ) (surface : OAuthSurface) (params : OAuthForm) (now : ℕ)
  | approve (p : ℕ) (row : Uuid) (nonce : Option String) (account : Uuid)
      (workspace : Option Uuid) (now : ℕ)
  | deny (p : ℕ) (row : Uuid) (nonce : Option String) (account : Uuid) (now : ℕ)
  | exchangeCode (p : ℕ) (surface : OAuthSurface) (form : OAuthForm) (now : ℕ)
  | refresh (p : ℕ) (surface : OAuthSurface) (form : OAuthForm) (now : ℕ)
  | revoke (p : ℕ) (token : Uuid) (caller : Revoker) (now : ℕ)
  /-- The next statement of a transaction, to its commit if it is the last. -/
  | advance (p : ℕ) (draw : Draw)
  /-- A transaction is rolled back. -/
  | abort (p : ℕ)
  | setMembership (account workspace : Uuid) (role : Role)
  | removeMembership (account workspace : Uuid)
  | setWorkspace (workspace : Uuid) (state : WorkspaceState)
  /-- Another authority issues a token. -/
  | issue (id : Uuid) (row : AccessTokenRow)

/-- 43 to 128 letters, digits and characters of `extra`. -/
def isUnreserved (extra : List Char) (value : String) : Bool :=
  43 ≤ value.length && value.length ≤ 128 &&
    value.toList.all fun c => c.isAlphanum || extra.contains c

/-- The refusals that need no other row than the locked one. -/
def CodeExchange.check (challenge : String → String) (e : CodeExchange) :
    Except String (Uuid × Uuid) :=
  if e.form.lookup "client_id" ≠ some e.row.clientId then .error "invalid_client"
  else if e.form.lookup "redirect_uri" ≠ some e.row.redirectUri ||
      e.row.codeExpiresAt.all (fun expires => expires ≤ e.now) ||
      !(e.form.lookup "code_verifier").any fun verifier =>
        isUnreserved ['.', '_', '~', '-'] verifier && challenge verifier = e.row.codeChallenge then
    .error "invalid_grant"
  else if (e.form.lookup "resource").any fun value => !e.surface.resourceMatches value then
    .error "invalid_target"
  else match e.row.accountId, e.row.workspaceId with
    | some account, some workspace => .ok (account, workspace)
    | _, _ => .error "invalid_grant"

namespace OAuthState

variable (D : Digests) (R : Registry) (challenge : String → String) (s : OAuthState)

def proceed (p : ℕ) (flight : OAuthFlight) : OAuthState :=
  { s with flights := s.flights.insert p flight }

def rollback (p : ℕ) : OAuthState := { s with flights := s.flights.erase p }

/-- The transaction commits the tables and answers. -/
def settle (p : ℕ) (tables : OAuthTables) (answer : OAuthAnswer) : OAuthState :=
  { s with tables := tables, flights := s.flights.erase p, answers := s.answers ++ [answer] }

/-- The answer of a transaction that wrote nothing. -/
def refuse (p : ℕ) (error : OAuthError) : OAuthState := s.settle p s.tables (.refused error)

def locksAuthorization (id : Uuid) : Bool :=
  s.flights.existsRow fun _ flight => flight.authorization = some id

def locksRefresh (value : Digest) : Bool :=
  s.flights.existsRow fun _ flight => flight.refreshValue = some value

/-- A registration's cleanup has selected the client. -/
def selects (client : String) : Bool := s.flights.existsRow fun _ flight => flight.selects client

/-! ### Registration -/

/-- The selected clients that are still there. -/
def victims (selected : List String) : List String :=
  selected.filter fun client => (s.tables.clients.lookup client).isSome

/-- The cleanup, the limits and the insert, when no row to delete is locked. A client with a
grant fails the transaction. -/
def finishRegistration (p : ℕ) (draw : Draw) (r : Registration) (recent : ℕ)
    (selected : List String) : Option OAuthState :=
  let victims := s.victims selected
  let tables := s.tables.clean victims r.expiredBefore
  let refuse (error : String) (status : ℕ) := s.settle p
    (tables.insertEvent ⟨.clientRegistered, .refused, r.now, none, none, none, none⟩)
    (.refused (page error status))
  if s.tables.authorizations.existsRow fun id row => (victims.contains row.clientId ||
      OAuthTables.isExpired r.expiredBefore row) && s.locksAuthorization id then none
  else if victims.any fun client => s.tables.hasAnyGrant client then some (s.rollback p)
  else if r.surface.lifetimes.registrationsPerSourcePerHour ≤ recent then
    some (refuse "temporarily_unavailable" 429)
  else if r.surface.lifetimes.maxClients ≤ tables.countCountedClients r.now r.abandonedBefore then
    some (refuse "temporarily_unavailable" 429)
  else match r.redirectUris with
    | .error error => some (refuse error 400)
    | .ok uris =>
      if (tables.clients.lookup draw.clientId).isSome then some (s.rollback p)
      else
        let tables := { tables with
          clients := tables.clients.insert draw.clientId ⟨r.source, r.now, uris.eraseDups⟩ }
        some (s.settle p
          (tables.insertEvent
            ⟨.clientRegistered, .succeeded, r.now, some draw.clientId, none, none, none⟩)
          (.registered draw.clientId))

/-! ### The authorization request -/

/-- `begin_authorization` up to its insert. -/
def beginAuthorization (p : ℕ) (surface : OAuthSurface) (params : OAuthForm) (now : ℕ) :
    OAuthState :=
  let clientId := (params.lookup "client_id").getD ""
  match s.tables.clients.lookup clientId with
  | none => s.refuse p (page "invalid_client" 400)
  | some client =>
    match params.lookup "redirect_uri" with
    | none => s.refuse p (page "invalid_redirect_uri" 400)
    | some uri =>
      let state := params.lookup "state"
      let redirected (error : String) (state : Option String) :=
        s.refuse p ⟨error, 302, true, some uri, state, some surface.issuer⟩
      if !client.redirectUris.contains uri then s.refuse p (page "invalid_redirect_uri" 400)
      else if params.lookup "response_type" ≠ some "code" then
        redirected "unsupported_response_type" state
      else match params.lookup "code_challenge" with
        | none => redirected "invalid_request" state
        | some codeChallenge =>
          if !isUnreserved ['_', '-'] codeChallenge ||
              params.lookup "code_challenge_method" ≠ some "S256" then
            redirected "invalid_request" state
          else if !(params.lookup "resource").any surface.resourceMatches then
            redirected "invalid_target" state
          else if state.any fun value => 1024 < value.length then
            redirected "invalid_request" none
          else s.proceed p (.holding ⟨clientId, uri, codeChallenge, state, now⟩)

/-- The insert of a held request. A client that is gone fails the transaction. -/
def insertAuthorization (p : ℕ) (draw : Draw) (h : HeldRequest) : OAuthState :=
  if (s.tables.clients.lookup h.clientId).isNone then s.rollback p
  else
    let row : OAuthAuthorizationRow :=
      { requestHash := draw.secret
        clientId := h.clientId
        redirectUri := h.redirectUri
        codeChallenge := h.codeChallenge
        state := h.state
        expiresAt := h.now + seconds 600
        accountId := none
        workspaceId := none
        decidedAt := none
        codeHash := none
        codeExpiresAt := none
        codeUsedAt := none
        tokenId := none }
    s.settle p { s.tables with authorizations := s.tables.authorizations.insert draw.id row }
      (.held draw.id)

/-! ### Consent -/

/-- The row that `_pending` reads for update, with its id. -/
def requestRow (nonce : Option String) : Option (Uuid × OAuthAuthorizationRow) :=
  match nonce with
  | none | some "" => none
  | some nonce => s.tables.authorizations.findRow fun _ row => row.requestHash = D.sha256 nonce

/-- The start of `approve` and of `deny`: the row is locked and, when it is pending and the one
that was shown, goes on to `next`. -/
def openDecision (p : ℕ) (rowId : Uuid) (nonce : Option String) (account : Uuid)
    (workspace : Option Uuid) (now : ℕ) (next : Decision → OAuthFlight) : Option OAuthState :=
  match s.requestRow D nonce with
  | none => some (s.refuse p (page "authorization_expired" 400))
  | some (id, row) =>
    if s.locksAuthorization id then none
    else if row.decidedAt.isSome || decide (row.expiresAt ≤ now) || id ≠ rowId then
      some (s.refuse p (page "authorization_expired" 400))
    else some (s.proceed p (next ⟨id, row, account, workspace, now⟩))

/-- A decision with its event and answer. -/
def recordDecision (p : ℕ) (d : Decision) (workspace : Option Uuid) (code : Option (Digest × ℕ))
    (event : OAuthEvent) (outcome : OAuthOutcome) (answer : OAuthAnswer) : OAuthState :=
  match s.tables.authorizations.updateRow d.id
      (OAuthAuthorizationRow.decision d.now (some d.accountId) workspace code) with
  | none => s.rollback p
  | some rows =>
    let tables := { s.tables with authorizations := rows }
    s.settle p (tables.insertEvent
      ⟨event, outcome, d.now, some d.row.clientId, some d.accountId, workspace, none⟩) answer

/-- `approve` once it knows the active workspaces of the account. -/
def finishApproval (p : ℕ) (draw : Draw) (d : Decision) (chosen : List Uuid) : OAuthState :=
  if chosen.isEmpty then
    s.recordDecision p d none none .authorizationGranted .refused (.unselected d.id)
  else if !d.workspaceId.any chosen.contains then s.refuse p (page "not_a_member" 403)
  else s.recordDecision p d d.workspaceId (some (draw.secret, d.now + seconds 60))
    .authorizationGranted .succeeded (.approved d.id draw.secret)

/-- `list_memberships` of an account. -/
def memberships (account : Uuid) : List Uuid :=
  (s.tables.control.memberships.keys.filter fun key => key.1 = account).map Prod.snd

def isActive (workspace : Uuid) : Bool := s.tables.workspaces.lookup workspace = some .active

/-! ### Code exchange -/

/-- The start of `exchange_code`: the row of the code is locked. -/
def exchangeCode (p : ℕ) (surface : OAuthSurface) (form : OAuthForm) (now : ℕ) :
    Option OAuthState :=
  match form.lookup "code" with
  | none | some "" => some (s.refuse p (tokenError "invalid_grant"))
  | some code =>
    match s.tables.authorizations.findRow fun _ row => row.codeHash = some (D.sha256 code) with
    | none => some (s.refuse p (tokenError "invalid_grant"))
    | some (id, row) =>
      let exchange : CodeExchange := ⟨id, row, D.sha256 code, surface, form, now⟩
      if s.locksAuthorization id then none
      else if row.codeUsedAt.isSome then some (s.proceed p (.replaying exchange))
      else some (s.proceed p (.redeeming exchange))

/-- The answer to a code that is burned with it. -/
def burn (p : ℕ) (e : CodeExchange) (error : String) : OAuthState :=
  s.settle p
    { s.tables with
      authorizations := s.tables.authorizations.updateIf e.id (OAuthAuthorizationRow.burn e.now) }
    (.codeRefused e.code (tokenError error))

/-- The checks of an unused code, up to the workspace. -/
def checkExchange (p : ℕ) (e : CodeExchange) : OAuthState :=
  match e.check challenge with
  | .error error => s.burn p e error
  | .ok (account, workspace) =>
    if !s.isActive workspace then s.burn p e "invalid_grant"
    else s.proceed p (.issuing e account workspace)

/-- The burn, the access token, the grant, its first refresh value and the event. A client
that is gone fails the transaction. -/
def issueGrant (p : ℕ) (draw : Draw) (e : CodeExchange) (account workspace : Uuid) : OAuthState :=
  let grantExpiresAt := e.now + days (min e.surface.lifetimes.grantDays draw.grantDays)
  let expiresAt := min (e.now + seconds (60 * e.surface.lifetimes.accessTokenMinutes))
    grantExpiresAt
  match s.tables.control.issueConnectorToken R account workspace draw.access expiresAt e.now
      draw.clampDays with
  | .error _ => s.burn p e "invalid_grant"
  | .ok token =>
    if (s.tables.clients.lookup e.row.clientId).isNone then s.rollback p
    else
      let control := { s.tables.control with
        accessTokens := s.tables.accessTokens.insert draw.id token }
      let tables := { s.tables with
        authorizations :=
          (s.tables.authorizations.updateIf e.id (OAuthAuthorizationRow.burn e.now)).updateIf e.id
            (OAuthAuthorizationRow.redemption draw.id)
        grants := s.tables.grants.insert draw.id ⟨e.row.clientId, grantExpiresAt⟩
        refreshTokens := s.tables.refreshTokens.insert draw.secret ⟨draw.id, none⟩
        control := control }
      s.settle p
        (tables.insertEvent ⟨.codeRedeemed, .succeeded, e.now, some e.row.clientId,
          e.row.accountId, e.row.workspaceId, some draw.id⟩)
        (.redeemed e.code draw.id draw.access ((expiresAt - e.now) / seconds 1) draw.secret)

/-- `_refuse_code_replay`. -/
def refuseCodeReplay (p : ℕ) (e : CodeExchange) : OAuthState :=
  let event (event : OAuthEvent) (outcome : OAuthOutcome) : OAuthEventRow :=
    ⟨event, outcome, e.now, some e.row.clientId, e.row.accountId, e.row.workspaceId,
      e.row.tokenId⟩
  s.settle p
    (s.tables.endGrant e.row.tokenId e.now [event .codeRedeemed .refused]
      (event .grantRevoked .succeeded))
    (.codeRefused e.code (tokenError "invalid_grant"))

/-! ### Refresh -/

/-- The start of `refresh`: the row of the value is locked. -/
def refresh (p : ℕ) (surface : OAuthSurface) (form : OAuthForm) (now : ℕ) : Option OAuthState :=
  match form.lookup "refresh_token" with
  | none | some "" => some (s.refuse p (tokenError "invalid_grant"))
  | some presented =>
    match s.tables.refreshTokens.lookup (D.sha256 presented) with
    | none => some (s.refuse p (tokenError "invalid_grant"))
    | some row =>
      if s.locksRefresh (D.sha256 presented) then none
      else
        let use : RefreshUse := ⟨D.sha256 presented, row, surface, form, now⟩
        match row.rotatedAt with
        | none => some (s.proceed p (.validating use))
        | some rotatedAt =>
          if now < rotatedAt + seconds surface.lifetimes.refreshGraceSeconds then
            some (s.refuse p (tokenError "invalid_grant"))
          else some (s.proceed p (.reusing use))

/-- The reuse of a rotated value revokes the grant. -/
def refuseReuse (p : ℕ) (r : RefreshUse) : OAuthState :=
  let token := s.tables.accessTokens.lookup r.row.tokenId
  let event (event : OAuthEvent) (outcome : OAuthOutcome) : OAuthEventRow :=
    ⟨event, outcome, r.now,
      (s.tables.grants.lookup r.row.tokenId).map OAuthGrantRow.clientId,
      token.map AccessTokenRow.accountId, token.map AccessTokenRow.workspaceId,
      some r.row.tokenId⟩
  s.settle p
    (s.tables.endGrant (some r.row.tokenId) r.now [event .refreshReuseRevoked .refused]
      (event .grantRevoked .succeeded))
    (.refused (tokenError "invalid_grant"))

/-- The grant and its access token, and the client that presents the value. -/
def validateRefresh (p : ℕ) (r : RefreshUse) : OAuthState :=
  match s.tables.grants.lookup r.row.tokenId, s.tables.accessTokens.lookup r.row.tokenId with
  | some grant, some token =>
    if r.form.lookup "client_id" ≠ some grant.clientId then
      s.refuse p (tokenError "invalid_client")
    else if token.revokedAt.isSome || decide (grant.grantExpiresAt ≤ r.now) then
      s.refuse p (tokenError "invalid_grant")
    else s.proceed p (.joining r grant token)
  | _, _ => s.refuse p (tokenError "invalid_grant")

def checkMembership (p : ℕ) (r : RefreshUse) (grant : OAuthGrantRow) (token : AccessTokenRow) :
    OAuthState :=
  if (s.tables.control.memberships.lookup (token.accountId, token.workspaceId)).isNone then
    s.refuse p (tokenError "invalid_grant")
  else s.proceed p (.housing r grant token)

def checkWorkspace (p : ℕ) (r : RefreshUse) (grant : OAuthGrantRow) (token : AccessTokenRow) :
    OAuthState :=
  if !s.isActive token.workspaceId then s.refuse p (tokenError "invalid_grant")
  else if (r.form.lookup "resource").any fun value => !r.surface.resourceMatches value then
    s.refuse p (tokenError "invalid_target")
  else s.proceed p (.rotating r grant token)

/-- The rotation of the access value, of the refresh value, and the event. A token that was
revoked since it was read refuses the first write; one that is gone fails the transaction. -/
def rotate (p : ℕ) (draw : Draw) (r : RefreshUse) (grant : OAuthGrantRow)
    (token : AccessTokenRow) : OAuthState :=
  let expiresAt := min (r.now + seconds (60 * r.surface.lifetimes.accessTokenMinutes))
    grant.grantExpiresAt
  match s.tables.accessTokens.updateRow r.row.tokenId
      (AccessTokenRow.rotation draw.access expiresAt) with
  | none =>
    if (s.tables.accessTokens.lookup r.row.tokenId).isNone then s.rollback p
    else s.refuse p (tokenError "invalid_grant")
  | some accessTokens =>
    match s.tables.refreshTokens.updateRow r.value (OAuthRefreshTokenRow.rotation r.now) with
    | none => s.rollback p
    | some refreshTokens =>
      let tables := { s.tables with
        control := { s.tables.control with accessTokens := accessTokens }
        refreshTokens := refreshTokens.insert draw.secret ⟨r.row.tokenId, none⟩ }
      s.settle p
        (tables.insertEvent ⟨.refreshUsed, .succeeded, r.now, some grant.clientId,
          some token.accountId, some token.workspaceId, some r.row.tokenId⟩)
        (.refreshed r.value r.row.tokenId draw.access ((expiresAt - r.now) / seconds 1)
          draw.secret)

/-! ### Revocation -/

/-- The start of `revoke_handler`. -/
def revoke (p : ℕ) (id : Uuid) (caller : Revoker) (now : ℕ) : OAuthState :=
  match s.tables.accessTokens.lookup id with
  | none => s.refuse p (page "not_found" 404)
  | some row =>
    if row.workspaceId ≠ caller.workspaceId ||
        caller.ownerScoped && caller.accountId ≠ some row.accountId then
      s.refuse p (page "not_found" 404)
    else s.proceed p (.revoking id row now)

/-- The event of a revocation that ended its grant. -/
def revocationEvent (id : Uuid) (row : AccessTokenRow) (now : ℕ) : OAuthEventRow :=
  ⟨.grantRevoked, .succeeded, now, (s.tables.grants.lookup id).map OAuthGrantRow.clientId,
    some row.accountId, some row.workspaceId, some id⟩

/-- A connector token is revoked at most once, with its event; any other token anyhow. -/
def finishRevocation (p : ℕ) (id : Uuid) (row : AccessTokenRow) (now : ℕ) : OAuthState :=
  if row.issuedFrom ≠ .connector then
    match s.tables.accessTokens.updateRow id (AccessTokenRow.revocation now) with
    | none => s.rollback p
    | some rows =>
      s.settle p { s.tables with control := { s.tables.control with accessTokens := rows } }
        (.revoked id)
  else
    s.settle p (s.tables.endGrant (some id) now [] (s.revocationEvent id row now)) (.revoked id)

/-! ### Steps -/

/-- The next statement of a transaction. -/
def advance (p : ℕ) (draw : Draw) : OAuthFlight → Option OAuthState
  | .counting r =>
    some (s.proceed p (.cleaning r (s.tables.countRegistrationsFrom r.source r.windowStart)))
  | .cleaning r recent =>
    some (s.proceed p (.deleting r recent
      (s.tables.abandonedClients r.now (min r.abandonedBefore r.windowStart))))
  | .deleting r recent selected => s.finishRegistration p draw r recent selected
  | .holding h => some (s.insertAuthorization p draw h)
  | .listing d => some (s.proceed p (.choosing d (s.memberships d.accountId) []))
  | .choosing d (workspace :: rest) chosen =>
    some (s.proceed p (.choosing d rest
      (if s.isActive workspace then chosen ++ [workspace] else chosen)))
  | .choosing d [] chosen => some (s.finishApproval p draw d chosen)
  | .denying d =>
    some (s.recordDecision p d none none .authorizationDenied .refused (.denied d.id))
  | .redeeming e => some (s.checkExchange challenge p e)
  | .issuing e account workspace => some (s.issueGrant R p draw e account workspace)
  | .replaying e => some (s.refuseCodeReplay p e)
  | .validating r => some (s.validateRefresh p r)
  | .joining r grant token => some (s.checkMembership p r grant token)
  | .housing r grant token => some (s.checkWorkspace p r grant token)
  | .rotating r grant token => some (s.rotate p draw r grant token)
  | .reusing r => some (s.refuseReuse p r)
  | .revoking id row now => some (s.finishRevocation p id row now)

/-- Secrets and identifiers are new whenever they are drawn. -/
def isFresh (draw : Draw) : Bool :=
  !s.drawn.contains draw.secret && !s.drawn.contains draw.access && draw.secret ≠ draw.access &&
    !s.ids.contains draw.id

def record (draw : Draw) : OAuthState :=
  { s with drawn := draw.secret :: draw.access :: s.drawn, ids := draw.id :: s.ids }

def setControl (control : ControlTables) : OAuthState :=
  { s with tables := { s.tables with control := control } }

def step : OAuthAction → Option OAuthState
  | .registerClient p r =>
    if (s.flights.lookup p).isSome then none else some (s.proceed p (.counting r))
  | .beginAuthorization p surface params now =>
    if (s.flights.lookup p).isSome then none
    else some (s.beginAuthorization p surface params now)
  | .approve p rowId nonce account workspace now =>
    if (s.flights.lookup p).isSome then none
    else s.openDecision D p rowId nonce account workspace now .listing
  | .deny p rowId nonce account now =>
    if (s.flights.lookup p).isSome then none
    else s.openDecision D p rowId nonce account none now .denying
  | .exchangeCode p surface form now =>
    if (s.flights.lookup p).isSome then none else s.exchangeCode D p surface form now
  | .refresh p surface form now =>
    if (s.flights.lookup p).isSome then none else s.refresh D p surface form now
  | .revoke p id caller now =>
    if (s.flights.lookup p).isSome then none else some (s.revoke p id caller now)
  | .advance p draw =>
    match s.flights.lookup p with
    | none => none
    | some flight =>
      if s.isFresh draw then (s.record draw).advance R challenge p draw flight else none
  | .abort p => some (s.rollback p)
  | .setMembership account workspace role =>
    some (s.setControl { s.tables.control with
      memberships := s.tables.control.memberships.insert (account, workspace) role })
  | .removeMembership account workspace =>
    some (s.setControl { s.tables.control with
      memberships := s.tables.control.memberships.erase (account, workspace) })
  | .setWorkspace workspace state =>
    some { s with tables := { s.tables with
      workspaces := s.tables.workspaces.insert workspace state } }
  | .issue id row =>
    if row.issuedFrom ≠ .connector && !s.ids.contains id && !s.drawn.contains row.tokenHash then
      some { s.setControl { s.tables.control with
          accessTokens := s.tables.accessTokens.insert id row } with
        ids := id :: s.ids, drawn := row.tokenHash :: s.drawn }
    else none

/-- No client has registered and nothing is in flight. -/
structure Initial (s : OAuthState) : Prop where
  clients : s.tables.clients = ∅
  authorizations : s.tables.authorizations = ∅
  grants : s.tables.grants = ∅
  refreshTokens : s.tables.refreshTokens = ∅
  accessTokens : s.tables.accessTokens = ∅
  events : s.tables.events = []
  flights : s.flights = ∅
  answers : s.answers = []
  drawn : s.drawn = []
  ids : s.ids = []

/-- The connector sign-in: any number of its transactions, in flight with each other and with
revocations and changes of memberships and workspaces. -/
def machine : Machine OAuthState OAuthAction where
  init := Initial
  step s := step D R challenge s

end OAuthState

end Rheostream
