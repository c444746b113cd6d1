import Rheostream.OAuth.HandedOut
import Rheostream.OAuth.Cleanup

/-!
# Grant safety

Requests and codes are used once, grants end once and stay ended, and a cleanup deletes only
abandoned clients while none of them gets an authorization behind its back.
-/

namespace Rheostream

namespace OAuthState

/-- What the rows and the answers agree on in one state. -/
structure GrantSafe (D : Digests) (s : OAuthState) : Prop where
  decidedOnce : ∀ request, s.answers.countP (OAuthAnswer.decides request) ≤ 1
  redeemedOnce : ∀ code, s.answers.countP (OAuthAnswer.redeems code) ≤ 1
  replayRevokes : ∀ code token access expiresIn refresh,
    .redeemed code token access expiresIn refresh ∈ s.answers →
      2 ≤ s.answers.countP (OAuthAnswer.presents code) → s.tables.Revoked token
  fromCode : ∀ token grant, s.tables.grants.lookup token = some grant →
    ∃ code access expiresIn refresh, .redeemed code token access expiresIn refresh ∈ s.answers
  oneRefresh : ∀ token grant, s.tables.grants.lookup token = some grant →
    ∃! value, s.tables.Current token value
  oneAccess : ∀ value value' surface surface' now now' first second,
    s.tables.control.resolveToken D value surface now = .ok first →
      s.tables.control.resolveToken D value' surface' now' = .ok second →
        first.tokenId = second.tokenId → D.token value = D.token value'
  expiry : ∀ token grant row, s.tables.grants.lookup token = some grant →
    s.tables.accessTokens.lookup token = some row → row.expiresAt ≤ grant.grantExpiresAt
  endedOnce : ∀ token grant, s.tables.grants.lookup token = some grant →
    s.tables.Revoked token → s.tables.ends token = 1

/-- What a step ends and what it does not delete. -/
structure StepSafe (s : OAuthState) (a : OAuthAction) (t : OAuthState) : Prop where
  /-- A rotated value that was presented after the grace period revokes its grant. -/
  reused : ∀ p draw r, a = .advance p draw → s.flights.lookup p = some (.reusing r) →
    t.tables.Revoked r.row.tokenId
  revoked : ∀ p draw id row now, a = .advance p draw →
    s.flights.lookup p = some (.revoking id row now) → t.tables.Revoked id
  granted : ∀ client, (s.tables.clients.lookup client).isSome = true →
    t.tables.clients.lookup client = none → s.tables.hasAnyGrant client = false

/-- A deleted client had no authorization in flight for the registration that deletes it. -/
def CleansIdle (s : OAuthState) (a : OAuthAction) (t : OAuthState) : Prop :=
  ∀ client, (s.tables.clients.lookup client).isSome = true →
    t.tables.clients.lookup client = none → ∃ p draw r recent selected, a = .advance p draw ∧
      s.flights.lookup p = some (.deleting r recent selected) ∧
        s.tables.hasInFlight client r.now = false

variable {D : Digests} {R : Registry} {challenge : String → String} {s t : OAuthState}
  {a : OAuthAction}

theorem grantSafe (hs : (machine D R challenge).Reachable s) : s.GrantSafe D := by
  have hgranted := granted hs
  have hcodes := codesOnce hs
  refine ⟨(decidedOnce hs).once, hcodes.once, hcodes.replayed, (handedOut hs).grants,
    hgranted.current, ?_, ?_, fun token grant hgrant => (hgranted.recorded token grant hgrant).1⟩
  · intro value value' surface surface' now now' first second hfirst hsecond heq
    obtain ⟨row, hrow, hvalue, -⟩ := ControlTables.resolveToken_ok D hfirst
    obtain ⟨row', hrow', hvalue', -⟩ := ControlTables.resolveToken_ok D hsecond
    obtain rfl := Option.some.inj (hrow.symm.trans (heq ▸ hrow'))
    exact hvalue.trans hvalue'.symm
  · intro token grant row hgrant hrow
    obtain ⟨row', hrow', -, hexpires⟩ := hgranted.backed token grant hgrant
    obtain rfl := Option.some.inj (hrow.symm.trans hrow')
    exact hexpires

theorem stepSafe (hs : (machine D R challenge).Reachable s)
    (h : (machine D R challenge).step s a = some t) : StepSafe s a t := by
  have hheld := (locked hs).held
  have advanced {p : ℕ} {draw : Draw} {flight : OAuthFlight} (ha : a = .advance p draw)
      (hflight : s.flights.lookup p = some flight) :
      (s.record draw).advance R challenge p draw flight = some t := by
    subst ha
    simp only [machine, step, hflight] at h
    split_ifs at h
    exact h
  refine ⟨fun p draw r ha hflight => ?_, fun p draw id row now ha hflight => ?_,
    fun client hrow hdeleted => (deleted_of_step (stepCase hs h) hrow hdeleted).1⟩
  · obtain rfl := Option.some.inj (advanced ha hflight)
    obtain ⟨hrow, -⟩ := hheld p _ hflight
    obtain ⟨grant, hgrant⟩ := (granted hs).values r.value r.row hrow
    obtain ⟨token, htoken, -⟩ := (granted hs).backed r.row.tokenId grant hgrant
    exact endGrant_revoked htoken _ _ _
  · obtain rfl := Option.some.inj (advanced ha hflight)
    obtain ⟨current, hcurrent, -⟩ := hheld p _ hflight
    simp only [finishRevocation]
    split
    · split
      · next hnone => simpa [AccessTokenRow.revocation] using
          Table.updateRow_eq_none.mp hnone current hcurrent
      · next rows hrows =>
        obtain ⟨old, hold, -, rfl⟩ := Table.updateRow_eq_some.mp hrows
        exact ⟨_, AList.lookup_insert _, rfl⟩
    · exact endGrant_revoked hcurrent _ _ _

theorem cleansIdle (hs : (sparing D R challenge).Reachable s)
    (h : (sparing D R challenge).step s a = some t) : CleansIdle s a t := by
  intro client hrow hdeleted
  have hstep := (Machine.restrict_step.mp h).2
  obtain ⟨-, p, draw, r, recent, selected, ha, hflight, hmem⟩ :=
    deleted_of_step (stepCase hs.of_restrict hstep) hrow hdeleted
  exact ⟨p, draw, r, recent, selected, ha, hflight,
    spared hs p r recent selected hflight client hmem⟩

/-- Grants are safe in every run. In a run where no client gets an authorization in flight while
a cleanup that has selected it is still to delete it, no cleanup deletes a client with one. -/
theorem grant_safety (D : Digests) (R : Registry) (challenge : String → String) :
    (∀ s, (machine D R challenge).Reachable s → s.GrantSafe D ∧
      (∀ t token, s.tables.Revoked token → (machine D R challenge).Reaches s t →
        Over D s t token) ∧
      ∀ a t, (machine D R challenge).step s a = some t → StepSafe s a t) ∧
    ∀ s, (sparing D R challenge).Reachable s → ∀ a t,
      (sparing D R challenge).step s a = some t → CleansIdle s a t :=
  ⟨fun _ hs => ⟨grantSafe hs, fun _ _ hrevoked hrun => over_of_revoked hs hrevoked hrun,
    fun _ _ hstep => stepSafe hs hstep⟩, fun _ hs _ _ hstep => cleansIdle hs hstep⟩

section Runs

/-- A secret whose digest is its length. -/
def sampleSecret (n : ℕ) : String := String.ofList (List.replicate n 'x')

def sampleDigests : Digests := ⟨fun value => some value.length, String.length⟩

/-- One operation, which every role may run. -/
def sampleRegistry : Registry where
  operations := (∅ : Table String Declaration).insert "notes.read" ⟨[.owner], "core"⟩
  tools := (∅ : Table String String).insert "notes" "notes.read"

def sampleSurface : OAuthSurface where
  resource := "resource"
  issuer := "issuer"
  redirectUris := ["uri"]
  lifetimes := ⟨60, 30, 30, 10, 10, 60⟩
  acceptsEmptyPath := false

/-- The account 1 owns the active workspace 1. -/
def sampleState : OAuthState where
  tables :=
    { clients := ∅
      authorizations := ∅
      grants := ∅
      refreshTokens := ∅
      control := ⟨∅, (∅ : Table (Uuid × Uuid) Role).insert (1, 1) .owner⟩
      workspaces := (∅ : Table Uuid WorkspaceState).insert 1 .active
      events := [] }
  flights := ∅
  answers := []
  drawn := []
  ids := []

theorem sampleState_initial : Initial sampleState := by
  constructor <;> rfl

/-- The `n`th draw. -/
def sampleDraw (n : ℕ) (client : String) : Draw := ⟨2 * n + 1, 2 * n + 2, n, client, 30, 30⟩

def sampleAdvance (p n : ℕ) : OAuthAction := .advance p (sampleDraw n "")

def sampleRegistration (now : ℕ) : Registration :=
  ⟨sampleSurface, "source", .obj [("redirect_uris", .arr [.str "uri"])], now⟩

/-- The registration of a client with three draws from `n` on. -/
def sampleRegister (n : ℕ) (client : String) (now : ℕ) : List OAuthAction :=
  [.registerClient 0 (sampleRegistration now), sampleAdvance 0 n, sampleAdvance 0 (n + 1),
    .advance 0 (sampleDraw (n + 2) client)]

/-- An authorization request of the client. -/
def sampleBegin (p : ℕ) (client : String) (now : ℕ) : OAuthAction :=
  .beginAuthorization p sampleSurface
    [("client_id", client), ("redirect_uri", "uri"), ("response_type", "code"),
      ("code_challenge", sampleSecret 43), ("code_challenge_method", "S256"),
      ("resource", "resource")] now

/-- Two clients; the first one's code is redeemed, its refresh value rotated, and the rotated
value presented again after the grace period. -/
def sampleRevoked : List OAuthAction :=
  sampleRegister 1 "first" (days 2) ++ sampleRegister 4 "second" (days 2) ++
    [sampleBegin 0 "first" (days 2), sampleAdvance 0 7,
      .approve 0 7 (some (sampleSecret 15)) 1 (some 1) (days 2), sampleAdvance 0 8,
      sampleAdvance 0 9, sampleAdvance 0 10,
      .exchangeCode 0 sampleSurface [("code", sampleSecret 21), ("client_id", "first"),
        ("redirect_uri", "uri"), ("code_verifier", sampleSecret 43)] (days 2),
      sampleAdvance 0 11, sampleAdvance 0 12,
      .refresh 0 sampleSurface [("refresh_token", sampleSecret 25), ("client_id", "first")]
        (days 2), sampleAdvance 0 13, sampleAdvance 0 14, sampleAdvance 0 15, sampleAdvance 0 16,
      .refresh 0 sampleSurface [("refresh_token", sampleSecret 25), ("client_id", "first")]
        (days 3), sampleAdvance 0 17]

/-- A later registration up to the instant at which its `DELETE` has selected the client that
has no grant. -/
def sampleSelected : List OAuthAction :=
  sampleRevoked ++ [.registerClient 1 (sampleRegistration (days 4)), sampleAdvance 1 18,
    sampleAdvance 1 19]

/-- Whether the grant is revoked, whether the second client is there and has an authorization
in flight, and the instant of the cleanup in flight. -/
structure SampleView where
  revoked : Bool
  registered : Bool
  inFlight : Bool
  cleaningAt : Option ℕ
deriving DecidableEq

def sampleView (s : OAuthState) : SampleView where
  revoked := (s.tables.accessTokens.lookup 12).any fun row => row.revokedAt.isSome
  registered := (s.tables.clients.lookup "second").isSome
  inFlight := s.tables.hasInFlight "second" (days 4)
  cleaningAt := (s.flights.lookup 1).bind fun flight => match flight with
    | .deleting r _ _ => some r.now
    | _ => none

/-- The laws after a grant ended by reuse, and at the cleanup of an abandoned client. -/
theorem grant_safety_reused :
    ∃ s t, (sparing sampleDigests sampleRegistry id).Reachable s ∧
      (sparing sampleDigests sampleRegistry id).step s (sampleAdvance 1 20) = some t ∧
      s.tables.Revoked 12 ∧ (s.tables.clients.lookup "second").isSome = true ∧
      t.tables.clients.lookup "second" = none ∧ s.GrantSafe sampleDigests ∧
      StepSafe s (sampleAdvance 1 20) t ∧ Over sampleDigests s t 12 ∧
      CleansIdle s (sampleAdvance 1 20) t := by
  have hend : ((sparing sampleDigests sampleRegistry id).run sampleState sampleSelected).map
      (fun s => (s.sampleView,
        ((sparing sampleDigests sampleRegistry id).step s (sampleAdvance 1 20)).map
          sampleView)) =
        some (⟨true, true, false, some (days 4)⟩, some ⟨true, false, false, none⟩) := by
    decide +kernel
  obtain ⟨s, hs, hobserved⟩ := Option.map_eq_some_iff.mp hend
  obtain ⟨hobserved, hnext⟩ := Prod.mk.inj hobserved
  obtain ⟨t, hstep, hdeleted⟩ := Option.map_eq_some_iff.mp hnext
  simp only [sampleView, SampleView.mk.injEq] at hobserved hdeleted
  have hreach := Machine.reachable_of_run sampleState_initial hs
  have hrevoked : s.tables.Revoked 12 := by
    obtain ⟨row, hrow, hsome⟩ := (Option.any_eq_true _ _).mp hobserved.1
    exact ⟨row, hrow, hsome⟩
  have hgone : t.tables.clients.lookup "second" = none := by simpa using hdeleted.2.1
  have hlaws := grant_safety sampleDigests sampleRegistry id
  have hmachine := (Machine.restrict_step.mp hstep).2
  obtain ⟨hsafe, hover, hsteps⟩ := hlaws.1 s hreach.of_restrict
  exact ⟨s, t, hreach, hstep, hrevoked, hobserved.2.1, hgone, hsafe, hsteps _ t hmachine,
    hover t 12 hrevoked (.single hmachine), hlaws.2 s hreach _ t hstep⟩

/-- A cleanup has selected a client, its next authorization is held, and the cleanup deletes
the client with it. -/
theorem cleanup_deletes_in_flight :
    ¬ ∀ s, (machine sampleDigests sampleRegistry id).Reachable s → ∀ a t,
      (machine sampleDigests sampleRegistry id).step s a = some t → CleansIdle s a t := by
  intro hlaw
  have hend : ((machine sampleDigests sampleRegistry id).run sampleState
      (sampleSelected ++ [sampleBegin 0 "second" (days 4), sampleAdvance 0 20])).map
      (fun s => (s.sampleView,
        ((machine sampleDigests sampleRegistry id).step s (sampleAdvance 1 21)).map
          sampleView)) =
        some (⟨true, true, true, some (days 4)⟩, some ⟨true, false, false, none⟩) := by
    decide +kernel
  obtain ⟨s, hs, hobserved⟩ := Option.map_eq_some_iff.mp hend
  obtain ⟨hobserved, hnext⟩ := Prod.mk.inj hobserved
  obtain ⟨t, hstep, hdeleted⟩ := Option.map_eq_some_iff.mp hnext
  simp only [sampleView, SampleView.mk.injEq] at hobserved hdeleted
  obtain ⟨-, hclient, hin, hnow⟩ := hobserved
  have hreach := Machine.reachable_of_run sampleState_initial hs
  obtain ⟨p, draw, r, recent, selected, ha, hflight, hidle⟩ :=
    hlaw s hreach _ t hstep "second" hclient (by simpa using hdeleted.2.1)
  obtain ⟨rfl, -⟩ : 1 = p ∧ sampleDraw 21 "" = draw := by simpa [sampleAdvance] using ha
  have hnow : r.now = days 4 := by simpa [hflight] using hnow
  rw [hnow, hin] at hidle
  cases hidle

end Runs

end OAuthState

end Rheostream
