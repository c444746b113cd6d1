import Rheostream.OAuth.Flow

/-!
# What a sign-in transaction does

A statement either moves a transaction on, with what it has read and locked, or commits one of
ten writes together with an answer. The invariants of the sign-in are derived from this list.
-/

namespace Rheostream

/-- The tables with a token revoked. -/
def OAuthTables.withRevoked (s : OAuthTables) (token : Uuid) (row : AccessTokenRow) (now : ℕ) :
    OAuthTables :=
  { s with control := { s.control with
    accessTokens := s.accessTokens.insert token ((AccessTokenRow.revocationIfLive now).set row) } }

theorem OAuthTables.revokeIfLive_cases (s : OAuthTables) (token : Uuid) (now : ℕ) :
    (s.revokeIfLive token now = (s, false) ∧
        ∀ row, s.accessTokens.lookup token = some row → row.revokedAt.isSome = true) ∨
      ∃ row, s.accessTokens.lookup token = some row ∧ row.revokedAt = none ∧
        s.revokeIfLive token now = (s.withRevoked token row now, true) := by
  unfold revokeIfLive
  split
  · next hupdate =>
    refine .inl ⟨rfl, fun row hrow => ?_⟩
    have hguard := Table.updateRow_eq_none.mp hupdate row hrow
    simpa [AccessTokenRow.revocationIfLive] using hguard
  · next rows hupdate =>
    obtain ⟨row, hrow, hguard, rfl⟩ := Table.updateRow_eq_some.mp hupdate
    have hlive : row.revokedAt = none := by
      simpa [AccessTokenRow.revocationIfLive] using hguard
    exact .inr ⟨row, hrow, hlive, rfl⟩

/-- A conditional revocation either finds no live row or revokes one. -/
theorem OAuthTables.endGrant_cases (s : OAuthTables) (token : Option Uuid) (now : ℕ)
    (before : List OAuthEventRow) (ended : OAuthEventRow) :
    (s.endGrant token now before ended = { s with events := s.events ++ before } ∧
        ∀ id row, token = some id → s.accessTokens.lookup id = some row →
          row.revokedAt.isSome = true) ∨
      ∃ id row, token = some id ∧ s.accessTokens.lookup id = some row ∧ row.revokedAt = none ∧
        s.endGrant token now before ended =
          { s.withRevoked id row now with events := s.events ++ before ++ [ended] } := by
  cases token with
  | none => exact .inl ⟨rfl, by simp⟩
  | some id =>
    simp only [endGrant, Option.elim_some]
    obtain ⟨hnone, hrevoked⟩ | ⟨row, hrow, hlive, hsome⟩ := s.revokeIfLive_cases id now
    · rw [hnone]
      exact .inl ⟨rfl, fun id' row hid hrow => hrevoked row (Option.some.inj hid ▸ hrow)⟩
    · rw [hsome]
      exact .inr ⟨id, row, rfl, hrow, hlive, rfl⟩

/-- What a transaction relies on: the rows it has locked are as it read them, and what it read
of rows that keep their identity is still true. -/
def OAuthFlight.Held (tables : OAuthTables) : OAuthFlight → Prop
  | listing d | choosing d _ _ | denying d =>
    tables.authorizations.lookup d.id = some d.row ∧ d.row.decidedAt = none
  | redeeming e | issuing e _ _ =>
    tables.authorizations.lookup e.id = some e.row ∧ e.row.codeHash = some e.code ∧
      e.row.codeUsedAt = none
  | replaying e =>
    tables.authorizations.lookup e.id = some e.row ∧ e.row.codeHash = some e.code ∧
      e.row.codeUsedAt.isSome = true
  | validating r => tables.refreshTokens.lookup r.value = some r.row ∧ r.row.rotatedAt = none
  | joining r grant _ | housing r grant _ | rotating r grant _ =>
    tables.refreshTokens.lookup r.value = some r.row ∧ r.row.rotatedAt = none ∧
      tables.grants.lookup r.row.tokenId = some grant
  | reusing r =>
    tables.refreshTokens.lookup r.value = some r.row ∧ r.row.rotatedAt.isSome = true
  | revoking id row _ =>
    ∃ current, tables.accessTokens.lookup id = some current ∧ current.issuedFrom = row.issuedFrom
  | _ => True

namespace OAuthState

variable {D : Digests} {R : Registry} {challenge : String → String} {s t : OAuthState}
  {a : OAuthAction}

/-- The row that a pending request is decided to. -/
def decidedRow (d : Decision) (workspace : Option Uuid) (code : Option (Digest × ℕ)) :
    OAuthAuthorizationRow :=
  (OAuthAuthorizationRow.decision d.now (some d.accountId) workspace code).set d.row

/-- The row whose code is burned. -/
def burnedRow (e : CodeExchange) : OAuthAuthorizationRow :=
  (OAuthAuthorizationRow.burn e.now).set e.row

/-- The row whose code was redeemed. -/
def redeemedRow (e : CodeExchange) (token : Uuid) : OAuthAuthorizationRow :=
  (OAuthAuthorizationRow.redemption token).set (burnedRow e)

/-- A transaction begins, with the rows it has locked. -/
inductive Opens (s : OAuthState) : OAuthFlight → Prop where
  | counting (r : Registration) : Opens s (.counting r)
  | holding (h : HeldRequest) : Opens s (.holding h)
  | listing {d : Decision} (hrow : s.tables.authorizations.lookup d.id = some d.row)
      (hpending : d.row.decidedAt = none) (hfree : s.locksAuthorization d.id = false) :
      Opens s (.listing d)
  | denying {d : Decision} (hrow : s.tables.authorizations.lookup d.id = some d.row)
      (hpending : d.row.decidedAt = none) (hfree : s.locksAuthorization d.id = false) :
      Opens s (.denying d)
  | redeeming {e : CodeExchange} (hrow : s.tables.authorizations.lookup e.id = some e.row)
      (hcode : e.row.codeHash = some e.code) (hunused : e.row.codeUsedAt = none)
      (hfree : s.locksAuthorization e.id = false) : Opens s (.redeeming e)
  | replaying {e : CodeExchange} (hrow : s.tables.authorizations.lookup e.id = some e.row)
      (hcode : e.row.codeHash = some e.code) (hused : e.row.codeUsedAt.isSome = true)
      (hfree : s.locksAuthorization e.id = false) : Opens s (.replaying e)
  | validating {r : RefreshUse} (hrow : s.tables.refreshTokens.lookup r.value = some r.row)
      (hlive : r.row.rotatedAt = none) (hfree : s.locksRefresh r.value = false) :
      Opens s (.validating r)
  | reusing {r : RefreshUse} {rotatedAt : ℕ}
      (hrow : s.tables.refreshTokens.lookup r.value = some r.row)
      (hrotated : r.row.rotatedAt = some rotatedAt)
      (hgrace : rotatedAt + seconds r.surface.lifetimes.refreshGraceSeconds ≤ r.now)
      (hfree : s.locksRefresh r.value = false) : Opens s (.reusing r)
  | revoking {id : Uuid} {row : AccessTokenRow} (now : ℕ)
      (hrow : s.tables.accessTokens.lookup id = some row) : Opens s (.revoking id row now)

/-- A transaction moves on without a write. -/
inductive Moves (s : OAuthState) : OAuthFlight → OAuthFlight → Prop where
  | counted (r : Registration) (recent : ℕ) : Moves s (.counting r) (.cleaning r recent)
  | selected (r : Registration) (recent : ℕ) :
      Moves s (.cleaning r recent) (.deleting r recent
        (s.tables.abandonedClients r.now (min r.abandonedBefore r.windowStart)))
  | listed (d : Decision) (rest : List Uuid) : Moves s (.listing d) (.choosing d rest [])
  | chose (d : Decision) (workspace : Uuid) (rest chosen chosen' : List Uuid) :
      Moves s (.choosing d (workspace :: rest) chosen) (.choosing d rest chosen')
  | checked (e : CodeExchange) {account workspace : Uuid}
      (haccount : e.row.accountId = some account)
      (hworkspace : e.row.workspaceId = some workspace) :
      Moves s (.redeeming e) (.issuing e account workspace)
  | validated {r : RefreshUse} {grant : OAuthGrantRow} {token : AccessTokenRow}
      (hgrant : s.tables.grants.lookup r.row.tokenId = some grant)
      (htoken : s.tables.accessTokens.lookup r.row.tokenId = some token) :
      Moves s (.validating r) (.joining r grant token)
  | joined (r : RefreshUse) (grant : OAuthGrantRow) (token : AccessTokenRow) :
      Moves s (.joining r grant token) (.housing r grant token)
  | housed (r : RefreshUse) (grant : OAuthGrantRow) (token : AccessTokenRow) :
      Moves s (.housing r grant token) (.rotating r grant token)

/-- The transactions that revoke a grant if it is live: a second presentation of its code, the
reuse of a rotated value and the revocation of its token. -/
inductive Ends : OAuthFlight → Option Uuid → OAuthAnswer → Prop where
  | replayed (e : CodeExchange) :
      Ends (.replaying e) e.row.tokenId (.codeRefused e.code (tokenError "invalid_grant"))
  | reused (r : RefreshUse) (error : OAuthError) :
      Ends (.reusing r) (some r.row.tokenId) (.refused error)
  | revoked (id : Uuid) {row : AccessTokenRow} (now : ℕ) (hissued : row.issuedFrom = .connector) :
      Ends (.revoking id row now) (some id) (.revoked id)

/-- A transaction commits the tables and answers. -/
inductive Writes (s : OAuthState) (draw : Draw) :
    OAuthFlight → OAuthTables → OAuthAnswer → Prop where
  | refused (flight : OAuthFlight) (error : OAuthError) :
      Writes s draw flight s.tables (.refused error)
  | cleaned {r : Registration} {recent : ℕ} {selected : List String} {tables : OAuthTables}
      {answer : OAuthAnswer} (event : OAuthEventRow) (clients : Table String OAuthClientRow)
      (hevent : event.event = .clientRegistered)
      (hanswer : answer = .registered draw.clientId ∨ ∃ error, answer = .refused error)
      (hclients : clients = (s.tables.clean (s.victims selected) r.expiredBefore).clients ∨
        ∃ row, (s.tables.clean (s.victims selected) r.expiredBefore).clients.lookup
          draw.clientId = none ∧ clients = (s.tables.clean (s.victims selected)
            r.expiredBefore).clients.insert draw.clientId row)
      (hfree : ∀ id row, s.tables.authorizations.lookup id = some row →
        (s.victims selected).contains row.clientId = true ∨
          OAuthTables.isExpired r.expiredBefore row = true → s.locksAuthorization id = false)
      (hgrants : ∀ client ∈ s.victims selected, s.tables.hasAnyGrant client = false)
      (htables : tables = { s.tables.clean (s.victims selected) r.expiredBefore with
        clients := clients, events := s.tables.events ++ [event] }) :
      Writes s draw (.deleting r recent selected) tables answer
  | held {h : HeldRequest} {row : OAuthAuthorizationRow} (hclient : row.clientId = h.clientId)
      (hpending : row.decidedAt = none) (hcode : row.codeHash = none)
      (hused : row.codeUsedAt = none) (htoken : row.tokenId = none) :
      Writes s draw (.holding h)
        { s.tables with authorizations := s.tables.authorizations.insert draw.id row }
        (.held draw.id)
  | approved {d : Decision} {chosen : List Uuid} (event : OAuthEventRow)
      (hevent : event.event = .authorizationGranted)
      (hchosen : d.workspaceId.any chosen.contains = true)
      (hrow : s.tables.authorizations.lookup d.id = some d.row) :
      Writes s draw (.choosing d [] chosen)
        { s.tables with
          authorizations := s.tables.authorizations.insert d.id
            (decidedRow d d.workspaceId (some (draw.secret, d.now + seconds 60)))
          events := s.tables.events ++ [event] }
        (.approved d.id draw.secret)
  | declined {d : Decision} {flight : OAuthFlight} {answer : OAuthAnswer} (event : OAuthEventRow)
      (hflight : (flight = .choosing d [] [] ∧ answer = .unselected d.id) ∨
        (flight = .denying d ∧ answer = .denied d.id))
      (hevent : event.event ≠ .grantRevoked)
      (hrow : s.tables.authorizations.lookup d.id = some d.row) :
      Writes s draw flight
        { s.tables with
          authorizations := s.tables.authorizations.insert d.id (decidedRow d none none)
          events := s.tables.events ++ [event] }
        answer
  | burned {e : CodeExchange} {flight : OAuthFlight} (error : String)
      (hflight : flight = .redeeming e ∨
        ∃ account workspace, flight = .issuing e account workspace)
      (hrow : s.tables.authorizations.lookup e.id = some e.row) :
      Writes s draw flight
        { s.tables with authorizations := s.tables.authorizations.insert e.id (burnedRow e) }
        (.codeRefused e.code (tokenError error))
  | redeemed {e : CodeExchange} {account workspace : Uuid} {token : AccessTokenRow}
      {grant : OAuthGrantRow} (expiresIn : ℕ) (event : OAuthEventRow)
      (hevent : event.event = .codeRedeemed)
      (hrow : s.tables.authorizations.lookup e.id = some e.row)
      (hclient : grant.clientId = e.row.clientId)
      (hhash : token.tokenHash = draw.access) (hissued : token.issuedFrom = .connector)
      (hlive : token.revokedAt = none) (hexpires : token.expiresAt ≤ grant.grantExpiresAt) :
      Writes s draw (.issuing e account workspace)
        { s.tables with
          authorizations := s.tables.authorizations.insert e.id (redeemedRow e draw.id)
          grants := s.tables.grants.insert draw.id grant
          refreshTokens := s.tables.refreshTokens.insert draw.secret ⟨draw.id, none⟩
          control := { s.tables.control with
            accessTokens := s.tables.accessTokens.insert draw.id token }
          events := s.tables.events ++ [event] }
        (.redeemed e.code draw.id draw.access expiresIn draw.secret)
  | rotated {r : RefreshUse} {grant : OAuthGrantRow} {token row : AccessTokenRow}
      (expiresAt expiresIn : ℕ) (event : OAuthEventRow) (hevent : event.event = .refreshUsed)
      (hrow : s.tables.accessTokens.lookup r.row.tokenId = some row)
      (hlive : row.revokedAt = none) (hexpires : expiresAt ≤ grant.grantExpiresAt)
      (hvalue : s.tables.refreshTokens.lookup r.value = some r.row) :
      Writes s draw (.rotating r grant token)
        { s.tables with
          control := { s.tables.control with
            accessTokens := s.tables.accessTokens.insert r.row.tokenId
              ((AccessTokenRow.rotation draw.access expiresAt).set row) }
          refreshTokens := (s.tables.refreshTokens.insert r.value
            ((OAuthRefreshTokenRow.rotation r.now).set r.row)).insert draw.secret
              ⟨r.row.tokenId, none⟩
          events := s.tables.events ++ [event] }
        (.refreshed r.value r.row.tokenId draw.access expiresIn draw.secret)
  | ended {flight : OAuthFlight} {token : Option Uuid} {answer : OAuthAnswer} (now : ℕ)
      (before : List OAuthEventRow) (ended : OAuthEventRow) (hends : Ends flight token answer)
      (hbefore : ∀ event ∈ before, event.event ≠ .grantRevoked)
      (hended : ended.event = .grantRevoked) (htoken : ended.tokenId = token) :
      Writes s draw flight (s.tables.endGrant token now before ended) answer
  | revoked {id : Uuid} {row current : AccessTokenRow} {now : ℕ}
      (hissued : row.issuedFrom ≠ .connector)
      (hrow : s.tables.accessTokens.lookup id = some current) :
      Writes s draw (.revoking id row now)
        { s.tables with
          control := { s.tables.control with
            accessTokens := s.tables.accessTokens.insert id
              ((AccessTokenRow.revocation now).set current) } }
        (.revoked id)

/-- Every transaction in flight holds what it relies on. -/
def Held (s : OAuthState) : Prop :=
  ∀ p flight, s.flights.lookup p = some flight → flight.Held s.tables

/-- Everything one step can do. -/
inductive StepCase (s : OAuthState) : OAuthAction → OAuthState → Prop where
  | began {p : ℕ} {flight : OAuthFlight} (a : OAuthAction) (hfree : s.flights.lookup p = none)
      (hopens : Opens s flight) : StepCase s a (s.proceed p flight)
  | answered {p : ℕ} {error : OAuthError} (a : OAuthAction) (hfree : s.flights.lookup p = none) :
      StepCase s a (s.refuse p error)
  | moved {p : ℕ} {draw : Draw} {flight next : OAuthFlight}
      (hflight : s.flights.lookup p = some flight) (hfresh : s.isFresh draw = true)
      (hmoves : Moves s flight next) :
      StepCase s (.advance p draw) ((s.record draw).proceed p next)
  | wrote {p : ℕ} {draw : Draw} {flight : OAuthFlight} {tables : OAuthTables}
      {answer : OAuthAnswer} (hflight : s.flights.lookup p = some flight)
      (hfresh : s.isFresh draw = true) (hwrites : Writes s draw flight tables answer) :
      StepCase s (.advance p draw) ((s.record draw).settle p tables answer)
  | failed {p : ℕ} {draw : Draw} (hfresh : s.isFresh draw = true) :
      StepCase s (.advance p draw) ((s.record draw).rollback p)
  | aborted (p : ℕ) : StepCase s (.abort p) (s.rollback p)
  | changed {memberships : Table (Uuid × Uuid) Role} (a : OAuthAction) :
      StepCase s a (s.setControl { s.tables.control with memberships := memberships })
  | activated {workspaces : Table Uuid WorkspaceState} (a : OAuthAction) :
      StepCase s a { s with tables := { s.tables with workspaces := workspaces } }
  | issued {id : Uuid} {row : AccessTokenRow} (hissued : row.issuedFrom ≠ .connector)
      (hid : id ∉ s.ids) (hhash : row.tokenHash ∉ s.drawn) :
      StepCase s (.issue id row)
        { s.setControl { s.tables.control with
            accessTokens := s.tables.accessTokens.insert id row } with
          ids := id :: s.ids, drawn := row.tokenHash :: s.drawn }

theorem record_tables (s : OAuthState) (draw : Draw) : (s.record draw).tables = s.tables := rfl

variable {now : ℕ} {surface : OAuthSurface}

private theorem beginAuthorization_cases {p : ℕ} {params : OAuthForm}
    (hfree : s.flights.lookup p = none) :
    StepCase s a (s.beginAuthorization p surface params now) := by
  simp only [beginAuthorization]
  split
  · exact .answered a hfree
  · split
    · exact .answered a hfree
    · split
      · exact .answered a hfree
      · split
        · exact .answered a hfree
        · split
          · exact .answered a hfree
          · split_ifs
            · exact .answered a hfree
            · exact .answered a hfree
            · exact .answered a hfree
            · exact .began a hfree (.holding _)

private theorem openDecision_cases {p : ℕ} {rowId account : Uuid} {nonce : Option String}
    {workspace : Option Uuid} {next : Decision → OAuthFlight}
    (hnext : next = .listing ∨ next = .denying) (hfree : s.flights.lookup p = none)
    (h : s.openDecision D p rowId nonce account workspace now next = some t) : StepCase s a t := by
  unfold openDecision at h
  split at h
  · obtain rfl := Option.some.inj h
    exact .answered a hfree
  · next id row hrow =>
    have hlookup : s.tables.authorizations.lookup id = some row := by
      unfold requestRow at hrow
      split at hrow
      · cases hrow
      · cases hrow
      · exact (Table.findRow_eq_some hrow).1
    split_ifs at h with hlock hpending
    · obtain rfl := Option.some.inj h
      exact .answered a hfree
    · obtain rfl := Option.some.inj h
      have hdecided : row.decidedAt = none := by
        simp only [Bool.or_eq_true, Option.isSome_iff_ne_none] at hpending
        by_contra hne
        exact hpending (.inl (.inl hne))
      have hlocked : s.locksAuthorization id = false := by simpa using hlock
      obtain rfl | rfl := hnext
      · exact .began a hfree (.listing hlookup hdecided hlocked)
      · exact .began a hfree (.denying hlookup hdecided hlocked)

private theorem exchangeCode_cases {p : ℕ} {form : OAuthForm} (hfree : s.flights.lookup p = none)
    (h : s.exchangeCode D p surface form now = some t) : StepCase s a t := by
  unfold exchangeCode at h
  split at h
  · obtain rfl := Option.some.inj h
    exact .answered a hfree
  · obtain rfl := Option.some.inj h
    exact .answered a hfree
  · next code _ _ =>
    split at h
    · obtain rfl := Option.some.inj h
      exact .answered a hfree
    · next id row hrow =>
      obtain ⟨hlookup, hcode⟩ := Table.findRow_eq_some hrow
      have hcode : row.codeHash = some (D.sha256 code) := by simpa using hcode
      split_ifs at h with hlock hused
      · obtain rfl := Option.some.inj h
        exact .began a hfree (.replaying hlookup hcode hused (by simpa using hlock))
      · obtain rfl := Option.some.inj h
        exact .began a hfree
          (.redeeming hlookup hcode (by simpa using hused) (by simpa using hlock))

private theorem refresh_cases {p : ℕ} {form : OAuthForm} (hfree : s.flights.lookup p = none)
    (h : s.refresh D p surface form now = some t) : StepCase s a t := by
  unfold refresh at h
  split at h
  · obtain rfl := Option.some.inj h
    exact .answered a hfree
  · obtain rfl := Option.some.inj h
    exact .answered a hfree
  · next presented _ _ =>
    split at h
    · obtain rfl := Option.some.inj h
      exact .answered a hfree
    · next row hlookup =>
      split_ifs at h with hlock
      have hlock : s.locksRefresh (D.sha256 presented) = false := by simpa using hlock
      dsimp only at h
      split at h
      · next hlive =>
        obtain rfl := Option.some.inj h
        exact .began a hfree (.validating hlookup hlive hlock)
      · next rotatedAt hrotated =>
        split_ifs at h with hgrace
        · obtain rfl := Option.some.inj h
          exact .answered a hfree
        · obtain rfl := Option.some.inj h
          exact .began a hfree (.reusing hlookup hrotated (not_lt.mp hgrace) hlock)

private theorem revoke_cases {p : ℕ} {id : Uuid} {caller : Revoker}
    (hfree : s.flights.lookup p = none) : StepCase s a (s.revoke p id caller now) := by
  unfold revoke
  split
  · exact .answered a hfree
  · next row hrow =>
    split_ifs
    · exact .answered a hfree
    · exact .began a hfree (.revoking now hrow)

section Advance

variable {p : ℕ} {draw : Draw}

private theorem finishRegistration_cases {r : Registration} {recent : ℕ} {selected : List String}
    (hflight : s.flights.lookup p = some (.deleting r recent selected))
    (hfresh : s.isFresh draw = true)
    (h : (s.record draw).finishRegistration p draw r recent selected = some t) :
    StepCase s (.advance p draw) t := by
  simp only [finishRegistration] at h
  split at h
  · cases h
  · next hlock =>
    have hfree : ∀ id row, s.tables.authorizations.lookup id = some row →
        (s.victims selected).contains row.clientId = true ∨
          OAuthTables.isExpired r.expiredBefore row = true → s.locksAuthorization id = false := by
      intro id row hrow hdeleted
      have hnone := Table.existsRow_eq_false.mp (Bool.not_eq_true _ ▸ hlock) id row hrow
      rw [Bool.and_eq_false_iff, Bool.or_eq_false_iff] at hnone
      obtain ⟨hvictim, hexpired⟩ | hfree := hnone
      · obtain hselected | hold := hdeleted
        · exact absurd hselected (Bool.eq_false_iff.mp hvictim)
        · exact absurd hold (Bool.eq_false_iff.mp hexpired)
      · exact hfree
    split at h
    · obtain rfl := Option.some.inj h
      exact .failed hfresh
    · next hany =>
      have hgrants : ∀ client ∈ s.victims selected, s.tables.hasAnyGrant client = false := by
        intro client hclient
        rw [← Bool.not_eq_true]
        intro hgrant
        exact hany (List.any_eq_true.mpr ⟨client, hclient, hgrant⟩)
      have refused (error : String) (status : ℕ) : StepCase s (.advance p draw)
          ((s.record draw).settle p
            ((s.tables.clean (s.victims selected) r.expiredBefore).insertEvent
              ⟨.clientRegistered, .refused, r.now, none, none, none, none⟩)
            (.refused (page error status))) :=
        .wrote hflight hfresh (.cleaned _ _ rfl (.inr ⟨_, rfl⟩) (.inl rfl) hfree hgrants rfl)
      split at h
      · obtain rfl := Option.some.inj h
        exact refused _ _
      · split at h
        · obtain rfl := Option.some.inj h
          exact refused _ _
        · split at h
          · obtain rfl := Option.some.inj h
            exact refused _ _
          · split at h
            · obtain rfl := Option.some.inj h
              exact .failed hfresh
            · next hclient =>
              obtain rfl := Option.some.inj h
              exact .wrote hflight hfresh (.cleaned _ _ rfl (.inl rfl)
                (.inr ⟨_, Option.not_isSome_iff_eq_none.mp hclient, rfl⟩) hfree hgrants rfl)

private theorem recordDecision_eq {d : Decision} {workspace : Option Uuid}
    {code : Option (Digest × ℕ)} {event : OAuthEvent} {outcome : OAuthOutcome}
    {answer : OAuthAnswer} (hrow : s.tables.authorizations.lookup d.id = some d.row)
    (hpending : d.row.decidedAt = none) :
    s.recordDecision p d workspace code event outcome answer =
      s.settle p { s.tables with
        authorizations := s.tables.authorizations.insert d.id (decidedRow d workspace code)
        events := s.tables.events ++
          [⟨event, outcome, d.now, some d.row.clientId, some d.accountId, workspace, none⟩] }
        answer := by
  have hupdate : s.tables.authorizations.updateRow d.id
      (OAuthAuthorizationRow.decision d.now (some d.accountId) workspace code) =
        some (s.tables.authorizations.insert d.id (decidedRow d workspace code)) :=
    Table.updateRow_eq_some.mpr ⟨d.row, hrow, by simp [OAuthAuthorizationRow.decision, hpending],
      rfl⟩
  simp only [recordDecision, hupdate]
  rfl

private theorem finishApproval_cases {d : Decision} {chosen : List Uuid}
    (hflight : s.flights.lookup p = some (.choosing d [] chosen)) (hfresh : s.isFresh draw = true)
    (hrow : s.tables.authorizations.lookup d.id = some d.row) (hpending : d.row.decidedAt = none) :
    StepCase s (.advance p draw) ((s.record draw).finishApproval p draw d chosen) := by
  unfold finishApproval
  split_ifs with hempty hchosen
  · rw [recordDecision_eq (s := s.record draw) hrow hpending]
    obtain rfl : chosen = [] := by simpa using hempty
    exact .wrote hflight hfresh (.declined _ (.inl ⟨rfl, rfl⟩) (by simp) hrow)
  · exact .wrote hflight hfresh (.refused _ _)
  · rw [recordDecision_eq (s := s.record draw) hrow hpending]
    exact .wrote hflight hfresh (.approved _ rfl (by simpa using hchosen) hrow)

variable {e : CodeExchange}

private theorem burn_cases {flight : OAuthFlight} {error : String}
    (hflight : s.flights.lookup p = some flight)
    (hexchange : flight = .redeeming e ∨ ∃ account workspace, flight = .issuing e account workspace)
    (hfresh : s.isFresh draw = true) (hrow : s.tables.authorizations.lookup e.id = some e.row)
    (hunused : e.row.codeUsedAt = none) :
    StepCase s (.advance p draw) ((s.record draw).burn p e error) := by
  have hburn : s.tables.authorizations.updateIf e.id (OAuthAuthorizationRow.burn e.now) =
      s.tables.authorizations.insert e.id (burnedRow e) :=
    Table.updateIf_of_guard hrow (by simp [OAuthAuthorizationRow.burn, hunused])
  have hstate : (s.record draw).burn p e error = (s.record draw).settle p
      { s.tables with authorizations := s.tables.authorizations.insert e.id (burnedRow e) }
      (.codeRefused e.code (tokenError error)) := by
    rw [burn, ← hburn]
    rfl
  rw [hstate]
  exact .wrote hflight hfresh (.burned error hexchange hrow)

private theorem checkExchange_cases (hflight : s.flights.lookup p = some (.redeeming e))
    (hfresh : s.isFresh draw = true) (hrow : s.tables.authorizations.lookup e.id = some e.row)
    (hunused : e.row.codeUsedAt = none) :
    StepCase s (.advance p draw) ((s.record draw).checkExchange challenge p e) := by
  unfold checkExchange
  split
  · exact burn_cases hflight (.inl rfl) hfresh hrow hunused
  · next account workspace hcheck =>
    split_ifs
    · exact burn_cases hflight (.inl rfl) hfresh hrow hunused
    · unfold CodeExchange.check at hcheck
      split_ifs at hcheck
      split at hcheck
      · next account' workspace' haccount hworkspace =>
        obtain ⟨rfl, rfl⟩ := Prod.mk.inj (Except.ok.inj hcheck)
        exact .moved hflight hfresh (.checked e haccount hworkspace)
      · cases hcheck

private theorem issueGrant_cases {account workspace : Uuid}
    (hflight : s.flights.lookup p = some (.issuing e account workspace))
    (hfresh : s.isFresh draw = true) (hrow : s.tables.authorizations.lookup e.id = some e.row)
    (hunused : e.row.codeUsedAt = none) :
    StepCase s (.advance p draw) ((s.record draw).issueGrant R p draw e account workspace) := by
  simp only [issueGrant]
  split
  · exact burn_cases hflight (.inr ⟨_, _, rfl⟩) hfresh hrow hunused
  · next token htoken =>
    obtain ⟨role, -, -, hhash, -, -, hissued, hlive, hexpires⟩ :=
      ControlTables.issueConnectorToken_ok htoken
    have hgrant := hexpires.trans (min_le_right _ _)
    split_ifs
    · exact .failed hfresh
    · have hburn : s.tables.authorizations.updateIf e.id (OAuthAuthorizationRow.burn e.now) =
          s.tables.authorizations.insert e.id (burnedRow e) :=
        Table.updateIf_of_guard hrow (by simp [OAuthAuthorizationRow.burn, hunused])
      have hlookup : (s.tables.authorizations.insert e.id (burnedRow e)).lookup e.id =
          some (burnedRow e) := AList.lookup_insert _
      have hredeem : Table.updateIf (s.tables.authorizations.insert e.id (burnedRow e)) e.id
          (OAuthAuthorizationRow.redemption draw.id) =
            s.tables.authorizations.insert e.id (redeemedRow e draw.id) := by
        rw [Table.updateIf_of_guard hlookup rfl, AList.insert_insert]
        rfl
      rw [record_tables, hburn, hredeem]
      exact .wrote hflight hfresh (.redeemed _ _ rfl hrow rfl hhash hissued hlive hgrant)

private theorem rotate_cases {r : RefreshUse} {grant : OAuthGrantRow} {token : AccessTokenRow}
    (hflight : s.flights.lookup p = some (.rotating r grant token)) (hfresh : s.isFresh draw = true)
    (hvalue : s.tables.refreshTokens.lookup r.value = some r.row) (hlive : r.row.rotatedAt = none) :
    StepCase s (.advance p draw) ((s.record draw).rotate p draw r grant token) := by
  simp only [rotate]
  split
  · split_ifs
    · exact .failed hfresh
    · exact .wrote hflight hfresh (.refused _ _)
  · next accessTokens haccess =>
    obtain ⟨row, hrow, hguard, rfl⟩ := Table.updateRow_eq_some.mp haccess
    have hrotation : s.tables.refreshTokens.updateRow r.value
        (OAuthRefreshTokenRow.rotation r.now) = some (s.tables.refreshTokens.insert r.value
          ((OAuthRefreshTokenRow.rotation r.now).set r.row)) :=
      Table.updateRow_eq_some.mpr
        ⟨r.row, hvalue, by simp [OAuthRefreshTokenRow.rotation, hlive], rfl⟩
    rw [record_tables, hrotation]
    exact .wrote hflight hfresh (.rotated _ _ _ rfl hrow
      (by simpa [AccessTokenRow.rotation] using hguard) (min_le_right _ _) hvalue)

private theorem finishRevocation_cases {id : Uuid} {row : AccessTokenRow} {now : ℕ}
    (hflight : s.flights.lookup p = some (.revoking id row now)) (hfresh : s.isFresh draw = true) :
    StepCase s (.advance p draw) ((s.record draw).finishRevocation p id row now) := by
  simp only [finishRevocation]
  split
  · next hissued =>
    split
    · exact .failed hfresh
    · next rows hrows =>
      obtain ⟨current, hcurrent, -, rfl⟩ := Table.updateRow_eq_some.mp hrows
      exact .wrote hflight hfresh (.revoked hissued hcurrent)
  · next hissued =>
    exact .wrote hflight hfresh
      (.ended _ _ _ (.revoked id now (not_not.mp hissued)) (by simp) rfl rfl)

theorem advance_cases {flight : OAuthFlight} (hflight : s.flights.lookup p = some flight)
    (hfresh : s.isFresh draw = true) (hheld : flight.Held s.tables)
    (h : (s.record draw).advance R challenge p draw flight = some t) :
    StepCase s (.advance p draw) t := by
  cases flight with
  | counting r =>
    obtain rfl := Option.some.inj h
    exact .moved hflight hfresh (.counted r _)
  | cleaning r recent =>
    obtain rfl := Option.some.inj h
    exact .moved hflight hfresh (.selected r recent)
  | deleting r recent selected => exact finishRegistration_cases hflight hfresh h
  | holding held =>
    obtain rfl := Option.some.inj h
    simp only [insertAuthorization]
    split_ifs
    · exact .failed hfresh
    · exact .wrote hflight hfresh (.held rfl rfl rfl rfl rfl)
  | listing d =>
    obtain rfl := Option.some.inj h
    exact .moved hflight hfresh (.listed d _)
  | choosing d rest chosen =>
    cases rest with
    | cons workspace rest =>
      obtain rfl := Option.some.inj h
      exact .moved hflight hfresh (.chose d workspace rest chosen _)
    | nil =>
      obtain rfl := Option.some.inj h
      exact finishApproval_cases hflight hfresh hheld.1 hheld.2
  | denying d =>
    obtain rfl := Option.some.inj h
    rw [recordDecision_eq (s := s.record draw) hheld.1 hheld.2]
    exact .wrote hflight hfresh (.declined _ (.inr ⟨rfl, rfl⟩) (by simp) hheld.1)
  | redeeming e =>
    obtain rfl := Option.some.inj h
    exact checkExchange_cases hflight hfresh hheld.1 hheld.2.2
  | issuing e account workspace =>
    obtain rfl := Option.some.inj h
    exact issueGrant_cases hflight hfresh hheld.1 hheld.2.2
  | replaying e =>
    obtain rfl := Option.some.inj h
    exact .wrote hflight hfresh (.ended _ _ _ (.replayed e) (by simp) rfl rfl)
  | validating r =>
    obtain rfl := Option.some.inj h
    simp only [validateRefresh]
    split
    · next grant token hgrant htoken =>
      split_ifs
      · exact .wrote hflight hfresh (.refused _ _)
      · exact .wrote hflight hfresh (.refused _ _)
      · exact .moved hflight hfresh (.validated hgrant htoken)
    · exact .wrote hflight hfresh (.refused _ _)
  | joining r grant token =>
    obtain rfl := Option.some.inj h
    simp only [checkMembership]
    split_ifs
    · exact .wrote hflight hfresh (.refused _ _)
    · exact .moved hflight hfresh (.joined r grant token)
  | housing r grant token =>
    obtain rfl := Option.some.inj h
    simp only [checkWorkspace]
    split_ifs
    · exact .wrote hflight hfresh (.refused _ _)
    · exact .wrote hflight hfresh (.refused _ _)
    · exact .moved hflight hfresh (.housed r grant token)
  | rotating r grant token =>
    obtain rfl := Option.some.inj h
    exact rotate_cases hflight hfresh hheld.1 hheld.2.1
  | reusing r =>
    obtain rfl := Option.some.inj h
    exact .wrote hflight hfresh (.ended _ _ _ (.reused r _) (by simp) rfl rfl)
  | revoking id row now =>
    obtain rfl := Option.some.inj h
    exact finishRevocation_cases hflight hfresh

end Advance

/-- Every step of a state whose transactions hold what they rely on is one of the cases. -/
theorem step_cases (hs : s.Held) (h : s.step D R challenge a = some t) : StepCase s a t := by
  cases a with
  | registerClient p r =>
    simp only [step] at h
    split_ifs at h with hfree
    obtain rfl := Option.some.inj h
    exact .began _ (by simpa using hfree) (.counting r)
  | beginAuthorization p surface params now =>
    simp only [step] at h
    split_ifs at h with hfree
    obtain rfl := Option.some.inj h
    exact beginAuthorization_cases (by simpa using hfree)
  | approve p rowId nonce account workspace now =>
    simp only [step] at h
    split_ifs at h with hfree
    exact openDecision_cases (.inl rfl) (by simpa using hfree) h
  | deny p rowId nonce account now =>
    simp only [step] at h
    split_ifs at h with hfree
    exact openDecision_cases (.inr rfl) (by simpa using hfree) h
  | exchangeCode p surface form now =>
    simp only [step] at h
    split_ifs at h with hfree
    exact exchangeCode_cases (by simpa using hfree) h
  | refresh p surface form now =>
    simp only [step] at h
    split_ifs at h with hfree
    exact refresh_cases (by simpa using hfree) h
  | revoke p id caller now =>
    simp only [step] at h
    split_ifs at h with hfree
    obtain rfl := Option.some.inj h
    exact revoke_cases (by simpa using hfree)
  | advance p draw =>
    simp only [step] at h
    split at h
    · cases h
    · next flight hflight =>
      split_ifs at h with hfresh
      exact advance_cases hflight hfresh (hs p flight hflight) h
  | abort p =>
    obtain rfl := Option.some.inj h
    exact .aborted p
  | setMembership account workspace role | removeMembership account workspace =>
    obtain rfl := Option.some.inj h
    exact .changed _
  | setWorkspace workspace state =>
    obtain rfl := Option.some.inj h
    exact .activated _
  | issue id row =>
    simp only [step] at h
    split_ifs at h with hissue
    obtain rfl := Option.some.inj h
    simp only [Bool.and_eq_true, Bool.not_eq_true', decide_eq_true_eq] at hissue
    exact .issued hissue.1.1 (by simpa using hissue.1.2) (by simpa using hissue.2)

end OAuthState

end Rheostream
