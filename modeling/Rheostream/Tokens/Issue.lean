import Rheostream.Tokens.Presentation

/-!
# Issuing tokens

The row that the connector flow inserts, or its refusal: it issues within `agent_default` and
the member's role.
-/

namespace Rheostream

/-- `timedelta(days=d)`. -/
def days (d : ℕ) : ℕ := seconds (86400 * d)

namespace ControlTables

variable (R : Registry) (tables : ControlTables)

/-- The row that `issue_connector_token` inserts. -/
def issueConnectorToken (account workspace : Uuid) (hash : Digest) (expiresAt now maxDays : ℕ) :
    Except String AccessTokenRow :=
  match tables.memberships.lookup (account, workspace) with
  | none => .error "membership_missing"
  | some role =>
    if R.connectorOperations role = ∅ then .error "set_empty"
    else .ok
      { tokenHash := hash
        accountId := account
        workspaceId := workspace
        kind := .mcp
        issuedFrom := .connector
        setName := some "agent_default"
        purpose := none
        expiresAt := min expiresAt (now + days maxDays)
        revokedAt := none
        operations := R.connectorOperations role }

variable {R tables} {row : AccessTokenRow}

/-- A connector token is a live row of its member, within the member's role. -/
theorem issueConnectorToken_ok {account workspace : Uuid} {hash : Digest}
    {expiresAt now maxDays : ℕ}
    (h : tables.issueConnectorToken R account workspace hash expiresAt now maxDays = .ok row) :
    ∃ role, tables.memberships.lookup (account, workspace) = some role ∧
      row.operations = R.connectorOperations role ∧ row.tokenHash = hash ∧
      row.accountId = account ∧ row.workspaceId = workspace ∧ row.issuedFrom = .connector ∧
      row.revokedAt = none ∧ row.expiresAt ≤ expiresAt := by
  unfold issueConnectorToken at h
  split at h
  · cases h
  · next role hrole =>
    split_ifs at h
    obtain rfl := Except.ok.inj h
    exact ⟨role, hrole, rfl, rfl, rfl, rfl, rfl, rfl, min_le_left _ _⟩

end ControlTables

end Rheostream
