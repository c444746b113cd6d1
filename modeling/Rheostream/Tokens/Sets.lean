import Rheostream.Boundary.Context

/-!
# The operations a token may carry

The names that no token may ever carry, the default set of an agent and the bound that a role
puts on a snapshot. Every set is evaluated against the registries at issuance.
-/

namespace Rheostream

/-- `NON_TOKEN_ISSUABLE`. -/
def nonTokenIssuable : Finset String :=
  {"core.approval.approve", "core.approval.preview", "core.approval.refuse",
    "core.evidence_enrollment.create", "core.evidence_enrollment.rotate",
    "core.operation.resolve", "core.standing_grant.create", "core.standing_grant.revoke",
    "core.token.issue", "core.token.revoke"}

/-- `DISCOVER_THEN_CALL_OPERATION`. -/
def discoverThenCallOperation : String := "core.tool.call"

/-- `BRIDGE_TOKEN_OPERATIONS`. -/
def bridgeTokenOperations : Finset String := {"core.evidence.ingest"}

namespace Registry

variable (R : Registry)

/-- `_role_permitted_set`. -/
def rolePermittedSet (role : Role) : Finset String :=
  R.names.filter fun name => (R.operations.lookup name).any fun d => d.roles.contains role

/-- `agent_default`. -/
def agentDefault : Finset String :=
  ((R.tools.entries.map fun e => e.2).toFinset ∩ R.names) \ {discoverThenCallOperation}

/-- `connector_operations`. -/
def connectorOperations (role : Role) : Finset String :=
  ((R.agentDefault ∩ R.rolePermittedSet role) \ nonTokenIssuable) \ {discoverThenCallOperation}

end Registry

end Rheostream
