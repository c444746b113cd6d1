import Mathlib.Data.Finset.Basic
import Rheostream.Foundation.Table
import Rheostream.Foundation.Values

/-!
# The workspace context and what it may run

Who is acting, in which workspace, with which role and under which operation set, and the
registry's check of one operation name against it.
-/

namespace Rheostream

/-- Who the actor is to a workspace. -/
inductive Role where
  | owner
  | member
  | operator
  | service
deriving DecidableEq, Repr

inductive ActorKind where
  | account
  | token
  | operator
  | system
  | connection
deriving DecidableEq, Repr

/-- The closed set of purposes that a token or a run is bound to. -/
inductive ContextPurpose where
  | respond
  | followUp
  | shareWithReferral
  | internalAnalysis
deriving DecidableEq, Repr

namespace ContextPurpose

def value : ContextPurpose → String
  | respond => "respond"
  | followUp => "follow_up"
  | shareWithReferral => "share_with_referral"
  | internalAnalysis => "internal_analysis"

/-- `ContextPurpose(purpose)`, `none` for a string outside the set. -/
def ofValue (purpose : String) : Option ContextPurpose :=
  [respond, followUp, shareWithReferral, internalAnalysis].find? fun p => p.value = purpose

end ContextPurpose

/-- `operation_set`: the sentinel for every operation, or a snapshot. -/
inductive OperationSet where
  | all
  | only (names : Finset String)

/-- Whether an operation set holds a name. -/
def OperationSet.contains : OperationSet → String → Bool
  | all, _ => true
  | only names, name => name ∈ names

structure Actor where
  kind : ActorKind
  id : Option Uuid
deriving DecidableEq

/-- The resolved answer to who is acting, in which workspace, through what. -/
structure WorkspaceContext where
  workspaceId : Uuid
  actor : Actor
  role : Role
  operationSet : OperationSet
  enabledModules : Finset String
  /-- The account that the boundary verified. -/
  accountId : Option Uuid
  /-- The purpose that the boundary is bound to. -/
  boundPurpose : Option ContextPurpose

/-- What the registry holds of one operation. -/
structure Declaration where
  roles : List Role
  moduleId : String

/-- The operation registry and the tool registry of one process. A tool names an operation. -/
structure Registry where
  operations : Table String Declaration
  tools : Table String String

namespace Registry

variable (R : Registry)

/-- `REGISTRY.names()`. -/
def names : Finset String := R.operations.keys.toFinset

/-- `authorize`: the refusal, or none when the context may run the operation. -/
def authorize (ctx : WorkspaceContext) (name : String) : Except String Declaration :=
  match R.operations.lookup name with
  | none => .error "operation_unknown"
  | some declaration =>
    if !ctx.operationSet.contains name then .error "operation_not_permitted"
    else if declaration.moduleId ≠ "core" ∧ declaration.moduleId ∉ ctx.enabledModules then
      .error "module_disabled"
    else if ctx.role ∉ declaration.roles then .error "role_not_permitted"
    else .ok declaration

end Registry

end Rheostream
