import Rheostream.Approvals.Records
import Rheostream.Tools.ToolRegistry

/-!
# Declared operations, destinations and guards

What the approval path reads of a deployment: the registered operations, the registered exact
destinations, and the guards that are rechecked before an effect. A deployment may change between
any two calls, so each call is given the one that it reads.
-/

namespace Rheostream.Approvals

open Tools (SafetyClass)

/-- What `getattr(model_input, subject_field, None)` gives. -/
inductive SubjectValue where
  | none
  | ref (target : RecordRef)
  | other

/-- `ExternalSpec`, with the fields that it names. -/
structure ExternalSpec (Input Output : Type) where
  destinationRef : RefText
  destination : Input → Option RefText
  resultRef : Output → Option String

/-- What is read of an `OperationDeclaration`. -/
structure Declaration (Input Output : Type) where
  name : String
  moduleId : String
  safetyClass : SafetyClass
  keyed : Option KeyedSpec
  external : Option (ExternalSpec Input Output)
  /-- The subject field of the `AuditSpec`. -/
  subject : Option (Input → SubjectValue)
  guards : List String
  /-- `model_validate` of a stored body. -/
  validate : Json → Option Input
  /-- `executable_payload`. -/
  executablePayload : Input → Json
  /-- `model_dump` of an output. -/
  result : Output → Json

/-- `_STAGED_CLASSES`. -/
def isExternal : SafetyClass → Bool
  | .external | .financial => true
  | _ => false

/-- `GUARDED_CLASSES`. -/
def isGuarded : SafetyClass → Bool
  | .destructive | .external | .financial => true
  | _ => false

namespace Declaration

variable {Input Output : Type}

/-- Calls of this operation are staged: they run only through the continuation. -/
def isStaged (d : Declaration Input Output) : Bool := isExternal d.safetyClass && d.keyed.isSome

end Declaration

/-- `DestinationMode`. -/
inductive DestinationMode where
  | inProcess
  | provider
  deriving DecidableEq

/-- A registered destination. -/
structure Destination where
  destinationRef : RefText
  operationName : String
  mode : DestinationMode
  /-- Why it is not installed, enabled or ready, or has no credentials. -/
  problem : Option String
  /-- It offers `reconcile`. -/
  reconciles : Bool

/-- A registered guard of a module. -/
structure DeclaredGuard (Input : Type) where
  name : String
  check : Input → Option String

/-- `RecordHead`, as far as a guard reads it. -/
structure RecordHead where
  live : Bool
  revision : ℕ

/-- What a call reads of the deployment around it. -/
structure Deployment (Input Output : Type) where
  operations : List (Declaration Input Output)
  destinations : List Destination
  guards : List (DeclaredGuard Input)
  /-- `ActorPermissionGuard`: why either actor no longer permits the operation. -/
  permission : Option String
  /-- `resolve_in` for the held caller, or why the reference is unavailable. -/
  resolveIn : RecordRef → Except String RecordHead
  /-- Why the held caller's context cannot be rebuilt. -/
  heldCaller : Option String
  /-- Why the rebuilt caller is not authorized. -/
  authorized : Option String
  /-- Why the module is not ready. -/
  moduleNotReady : Option String
  hasAuditSink : Bool
  windowSeconds : ℕ
  maxAttempts : ℕ

section Guards

variable {Input Output : Type}

namespace Deployment

/-- `OperationRegistry.lookup`. -/
def operation (w : Deployment Input Output) (name : String) : Option (Declaration Input Output) :=
  w.operations.find? fun d => d.name = name

/-- `DestinationRegistry.lookup`. -/
def destination (w : Deployment Input Output) (reference : RefText) : Option Destination :=
  w.destinations.find? fun d => d.destinationRef = reference

/-- `GuardRegistry.lookup`. -/
def guard (w : Deployment Input Output) (name : String) : Option (DeclaredGuard Input) :=
  w.guards.find? fun g => g.name = name

/-- `availability_problem`. -/
def availabilityProblem (w : Deployment Input Output) (reference : RefText)
    (operationName : String) : Option String :=
  match w.destination reference with
  | none => some "destination is not registered"
  | some found =>
    if found.operationName ≠ operationName then
      some "destination is registered for another operation"
    else found.problem

theorem destination_ref {w : Deployment Input Output} {reference : RefText} {d : Destination}
    (h : w.destination reference = some d) : d.destinationRef = reference := by
  simpa using List.find?_some h

end Deployment

/-- A guard that refused, and why. -/
structure GuardRefusal where
  guard : String
  detail : String

/-- The check of `WindowGuard`. -/
def windowGuard (approval : ApprovalRow) (now : ℕ) : Option String :=
  if approval.windowStart ≤ now ∧ now ≤ approval.windowEnd then none
  else some "this execution is outside the approval's window"

/-- The check of `RecordStateGuard`. -/
def recordStateGuard (w : Deployment Input Output) (approval : ApprovalRow)
    (subject : SubjectValue) : Option String :=
  match subject with
  | .ref target =>
    match w.resolveIn target with
    | .error _ => some "the record no longer resolves"
    | .ok head =>
      if !head.live then some "the record is not live"
      else if some head.revision ≠ approval.subjectRevision then
        some "the record is not at the revision that was approved"
      else none
  | _ => some "the input field carries no record reference"

/-- The check of `DestinationGuard`. -/
def destinationGuard (w : Deployment Input Output) (operationName : String)
    (external : ExternalSpec Input Output) (approval : ApprovalRow) (input : Input) :
    Option String :=
  if external.destination input ≠ some external.destinationRef then
    some "the validated destination is not the declared exact destination"
  else if approval.destinationRef ≠ some external.destinationRef then
    some "the approval is not bound to the validated exact destination"
  else w.availabilityProblem external.destinationRef operationName

/-- `core_guards_for`, with what each guard answers. -/
def coreGuardsFor (w : Deployment Input Output) (d : Declaration Input Output)
    (approval : ApprovalRow) (input : Input) (now : ℕ) : List (String × Option String) :=
  if isGuarded d.safetyClass then
    [("ActorPermissionGuard", w.permission), ("WindowGuard", windowGuard approval now)] ++
      match d.subject with
      | none => []
      | some field => [("RecordStateGuard", recordStateGuard w approval (field input))]
  else []

/-- `effective_guards_for`, with what each guard answers. -/
def effectiveGuardsFor (w : Deployment Input Output) (d : Declaration Input Output)
    (approval : ApprovalRow) (input : Input) (now : ℕ) : List (String × Option String) :=
  coreGuardsFor w d approval input now ++
    (if isExternal d.safetyClass then
      [("DestinationGuard",
        match d.external with
        | none => some "declared guard is not registered"
        | some external => destinationGuard w d.name external approval input)]
    else []) ++
    d.guards.map fun name => (name,
      match w.guard name with
      | none => some "declared guard is not registered"
      | some registered => registered.check input)

/-- `run_guards`: the first refusal. -/
def runGuards (answers : List (String × Option String)) : Option GuardRefusal :=
  answers.findSome? fun answer => answer.2.map fun detail => ⟨answer.1, detail⟩

end Guards

end Rheostream.Approvals
