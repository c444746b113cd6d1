import Rheostream.Tokens.Sets

/-!
# Presented tokens

The `control.access_token` rows with their snapshots, the memberships beside them, and the
refusal chain that a presented token goes through. A value is known to the rows by its digest
only; parsing a value and hashing what it holds is a parameter.
-/

namespace Rheostream

/-- A SHA-256, compared for equality only. -/
abbrev Digest := ℕ

/-- The members of the `access_token_kind` check constraint. -/
inductive TokenKind where
  | cli
  | mcp
  | runtime
deriving DecidableEq, Repr

/-- The members of the `access_token_issued_from` check constraint. -/
inductive TokenIssuer where
  | session
  | operator
  | runtime
  | connector
deriving DecidableEq, Repr

/-- An `access_token` row with its `access_token_operation` rows. -/
structure AccessTokenRow where
  tokenHash : Digest
  accountId : Uuid
  workspaceId : Uuid
  kind : TokenKind
  issuedFrom : TokenIssuer
  setName : Option String
  purpose : Option String
  expiresAt : ℕ
  revokedAt : Option ℕ
  /-- The snapshot. -/
  operations : Finset String

/-- The control-plane rows that a presentation reads. -/
structure ControlTables where
  accessTokens : Table Uuid AccessTokenRow
  /-- The role of an account in a workspace. -/
  memberships : Table (Uuid × Uuid) Role

/-- What the hash of a secret is: of a presented token, after parsing, and of any other. -/
structure Digests where
  /-- `parse`, then the digest of the raw value; none for a malformed token. -/
  token : String → Option Digest
  sha256 : String → Digest

/-- What a presented token resolves to. -/
structure ResolvedToken where
  tokenId : Uuid
  accountId : Uuid
  workspaceId : Uuid
  role : Role
  operationSet : Finset String
  boundPurpose : Option ContextPurpose

/-- `_SURFACE_ACCEPTS`. -/
def surfaceAccepts : String → List TokenKind
  | "api" => [.cli]
  | "mcp" => [.mcp, .runtime]
  | _ => []

/-- `_bound_purpose`. -/
def boundPurpose (kind : TokenKind) : Option String → Except String (Option ContextPurpose)
  | none => if kind = .runtime then .error "token_purpose_invalid" else .ok none
  | some purpose =>
    match ContextPurpose.ofValue purpose with
    | none => .error "token_purpose_invalid"
    | some p => .ok (some p)

namespace ControlTables

variable (D : Digests) (tables : ControlTables)

/-- `get_access_token_by_hash`. -/
def accessTokenByHash (hash : Digest) : Option (Uuid × AccessTokenRow) :=
  tables.accessTokens.findRow fun _ row => row.tokenHash = hash

/-- `resolve_token`. -/
def resolveToken (value surface : String) (now : ℕ) : Except String ResolvedToken :=
  match D.token value with
  | none => .error "token_malformed"
  | some hash =>
    match tables.accessTokenByHash hash with
    | none => .error "token_malformed"
    | some (id, row) =>
      if row.kind ∉ surfaceAccepts surface then .error "token_wrong_kind"
      else if row.expiresAt ≤ now then .error "token_expired"
      else if row.revokedAt.isSome then .error "token_revoked"
      else if (row.operations ∩ nonTokenIssuable).Nonempty then .error "token_scope_invalid"
      else match boundPurpose row.kind row.purpose with
        | .error refusal => .error refusal
        | .ok purpose =>
          match tables.memberships.lookup (row.accountId, row.workspaceId) with
          | none => .error "membership_missing"
          | some role => .ok ⟨id, row.accountId, row.workspaceId, role, row.operations, purpose⟩

/-- A token is accepted only for a live row with its hash and a membership of its account. -/
theorem resolveToken_ok {tables : ControlTables} {value surface : String} {now : ℕ}
    {resolved : ResolvedToken} (h : tables.resolveToken D value surface now = .ok resolved) :
    ∃ row, tables.accessTokens.lookup resolved.tokenId = some row ∧
      D.token value = some row.tokenHash ∧ now < row.expiresAt ∧ row.revokedAt = none ∧
      Disjoint row.operations nonTokenIssuable ∧
      boundPurpose row.kind row.purpose = .ok resolved.boundPurpose ∧
      tables.memberships.lookup (row.accountId, row.workspaceId) = some resolved.role ∧
      resolved.accountId = row.accountId ∧ resolved.workspaceId = row.workspaceId ∧
      resolved.operationSet = row.operations := by
  unfold resolveToken at h
  split at h
  · cases h
  · next hash hhash =>
    split at h
    · cases h
    · next id row hfound =>
      obtain ⟨hlookup, hrow⟩ := Table.findRow_eq_some hfound
      have hrow : row.tokenHash = hash := by simpa using hrow
      split_ifs at h with hkind hexpired hrevoked hscope
      split at h
      · cases h
      · next purpose hpurpose =>
        split at h
        · cases h
        · next role hrole =>
          obtain rfl := Except.ok.inj h
          have hdisjoint : Disjoint row.operations nonTokenIssuable := by
            rw [Finset.disjoint_left]
            intro name hname hissuable
            exact hscope ⟨name, Finset.mem_inter.mpr ⟨hname, hissuable⟩⟩
          exact ⟨row, hlookup, hrow ▸ hhash, by omega, by simpa using hrevoked, hdisjoint,
            hpurpose, hrole, rfl, rfl, rfl⟩

end ControlTables

end Rheostream
