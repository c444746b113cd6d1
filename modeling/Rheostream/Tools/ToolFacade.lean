import Rheostream.Foundation.PyText
import Rheostream.Foundation.Selection
import Rheostream.Tools.ToolRegistry

/-!
# The tool facade

`tool_facade.py`: which tools a context is listed, which it may call, and a call. A context whose
snapshot holds the grant is listed five tools, and calls the others through `operations_call`.
-/

namespace Rheostream.Tools

/-! ### Outcomes -/

structure CatalogEntry where
  name : String
  safetyClass : String
  description : String
deriving DecidableEq

/-- The output of an operation, or what the facade answers itself. -/
inductive OperationResult where
  | output (value : Json)
  | catalog (tools : List CatalogEntry) (truncated : Bool)
  | description (entry : CatalogEntry) (inputSchema : Json)

/-- An outcome. Its error is a code with a text. -/
structure OperationOutcome where
  state : String
  result : Option OperationResult
  error : Option (String × String)
  operationId : Option Uuid
  approvalId : Option Uuid
  modelView : Option Json

/-- `_refused`. -/
def refused (state detail : String) : OperationOutcome :=
  ⟨state, none, some (state, detail), none, none, none⟩

/-- An outcome that succeeded. -/
def succeeded (result : OperationResult) : OperationOutcome :=
  ⟨"succeeded", some result, none, none, none, none⟩

/-- A row of tool telemetry, without the time that the call took. -/
structure TelemetryRow where
  toolName : String
  safetyClass : SafetyClass
  mode : String
  resultCount : ℕ
  outcome : String
  queryLength : Option ℕ
  argumentNames : Finset String
deriving DecidableEq

/-- `_telemetry_mode`. -/
def telemetryMode (validated : Option Validated) : String :=
  match validated.bind fun v => v.field "include_invalidated" with
  | some (.bool true) => "history"
  | some (.bool false) => "current"
  | _ => "none"

/-- `_telemetry_query_length`. -/
def telemetryQueryLength (decl : ToolDeclaration) (validated : Option Validated) : Option ℕ :=
  if decl.safetyClass = .read then
    match validated.bind fun v => v.field "query" with
    | some (.str query) => some query.length
    | _ => none
  else none

/-- `_telemetry_outcome`. -/
def telemetryOutcome (state : String) : String :=
  if state = "succeeded" ∨ state = "pending" then "success"
  else if state = "failed" then "error"
  else "refused"

/-- `_telemetry_result_count`. -/
def telemetryResultCount (outcome : OperationOutcome) : ℕ :=
  match outcome.result with
  | none => 0
  | some (.output (.obj members)) =>
    match members.lookup "items" with
    | some (.arr items) => items.length
    | _ => 1
  | some _ => 1

/-! ### The input models of the core's tools -/

/-- A name of 1 to 200 characters. -/
def nameField (arguments : Arguments) : Option String :=
  match arguments.lookup "name" with
  | some (.str name) => if 1 ≤ name.length ∧ name.length ≤ 200 then some name else none
  | _ => none

/-- What the facade is deployed with: the registries, the input models of the declared tools,
dispatch behind its authorization with the audit row of a refused one, the telemetry sink, the
rendering for a model under the workspace's policy for a purpose, the search for mask tokens, and
what Python and pydantic print and coerce. -/
structure Facade (World : Type) where
  registry : Registry
  tools : ToolRegistry
  declared : String → InputModel
  coreSchema : ModelClass → Json
  describeInvalid : ModelClass → Arguments → String
  coerceInt : Json → Option ℤ
  perform : WorkspaceContext → String → Arguments → World → OperationOutcome × World
  auditRefused : WorkspaceContext → String → Arguments → World → World
  record : Uuid → TelemetryRow → World → World
  renderOutput : Uuid → Option ContextPurpose → OperationResult → Json
  maskForModel : Uuid → Option ContextPurpose → String → String
  maskTokensIn : Arguments → Finset String
  casefold : String → String
  reprName : String → String
  reprNames : Finset String → String

namespace Facade

variable {World : Type} (F : Facade World)

/-- `_OperationsCatalogToolInput`. -/
def catalogInput : InputModel where
  aliasNames := {"query", "limit"}
  allowsExtra := false
  validate _ arguments :=
    let query := (arguments.lookup "query").getD .null
    let limit := ((arguments.lookup "limit").map F.coerceInt).getD (some 100)
    let usable : Bool := match query with
      | .null => true
      | .str text => text.length ≤ 200
      | _ => false
    match limit with
    | some limit =>
      if usable ∧ 1 ≤ limit ∧ limit ≤ 500 then
        .ok ⟨fun name => [("query", query), ("limit", Json.int limit)].lookup name,
          [("query", query), ("limit", .int limit)]⟩
      else .error (F.describeInvalid .catalogInput arguments)
    | none => .error (F.describeInvalid .catalogInput arguments)
  schema := F.coreSchema .catalogInput

/-- `_OperationsDescribeToolInput`. -/
def describeInput : InputModel where
  aliasNames := {"name"}
  allowsExtra := false
  validate _ arguments :=
    match nameField arguments with
    | some name => .ok ⟨fun field => [("name", Json.str name)].lookup field, [("name", .str name)]⟩
    | none => .error (F.describeInvalid .describeInput arguments)
  schema := F.coreSchema .describeInput

/-- An instance of `_OperationsCallToolInput`. -/
def callEnvelope (name : String) (input : Arguments) : Validated where
  field field := [("name", Json.str name), ("input", .obj input)].lookup field
  dump := [("name", .str name), ("input", .obj input)]

/-- `_OperationsCallToolInput`. -/
def callInput : InputModel where
  aliasNames := {"name", "input"}
  allowsExtra := false
  validate _ arguments :=
    match nameField arguments, arguments.lookup "input" with
    | some name, none => .ok (callEnvelope name [])
    | some name, some (.obj input) => .ok (callEnvelope name input)
    | _, _ => .error (F.describeInvalid .callInput arguments)
  schema := F.coreSchema .callInput

def inputModel : ModelClass → InputModel
  | .catalogInput => F.catalogInput
  | .describeInput => F.describeInput
  | .callInput => F.callInput
  | .declared name => F.declared name

/-! ### Which tools a context may call -/

variable (ctx : WorkspaceContext) (tool : RegisteredTool)

/-- `_available`: the origin's module is enabled, the operation is registered, in the operation set
and of an enabled module, and the role may run it. -/
def available : Bool :=
  enabled (moduleIdForOrigin tool.origin) &&
    (F.registry.operations.lookup tool.declaration.operation).any fun operation =>
      ctx.operationSet.contains tool.declaration.operation && enabled operation.moduleId &&
        operation.roles.contains ctx.role
where
  /-- `_enabled`. -/
  enabled (moduleId : String) : Bool := moduleId = "core" || moduleId ∈ ctx.enabledModules

/-- `discover_then_call`. -/
def discoverThenCall : Bool :=
  match ctx.operationSet with
  | .all => false
  | .only names => discoverThenCallOperation ∈ names

/-- `_is_core`. -/
def isCore (declaration : ToolDeclaration) : Bool :=
  tool.origin = coreOrigin && tool.declaration = declaration

/-- `_meta`. -/
def isMeta : Bool := tool.declaration.operation = discoverThenCallOperation

/-- `_reachable`. -/
def reachable : Bool := !isMeta tool && F.available ctx tool

/-- `_listed`. -/
def listed : Bool :=
  if !discoverThenCall ctx then F.reachable ctx tool
  else if tool.origin ≠ coreOrigin ∨ tool.declaration.name ∉ discoverThenCallToolNames then false
  else if isMeta tool then F.available ctx tool
  else F.reachable ctx tool

/-- `_registered`. -/
def registered : List RegisteredTool := (sortedBy id F.tools.keys).filterMap F.tools.lookup

/-- `_callable_through_generic`. -/
def callableThroughGeneric : List RegisteredTool := F.registered.filter (F.reachable ctx)

/-! ### A call -/

/-- `tool_description`. -/
def toolDescription (declaration : ToolDeclaration) : String :=
  if declaration.description = "" then "Calls the " ++ declaration.operation ++ " operation."
  else declaration.description

def catalogEntry (declaration : ToolDeclaration) : CatalogEntry :=
  ⟨declaration.name, declaration.safetyClass.value, toolDescription declaration⟩

/-- The refusal of every tool that is not available. -/
def notAvailable (name : String) : OperationOutcome :=
  refused "not_found" (F.reprName name ++ " is not a tool available here")

/-- `_validated`. -/
def validated (declaration : ToolDeclaration) (arguments : Arguments) :
    Except OperationOutcome Validated :=
  let unknown :=
    (arguments.map Prod.fst).toFinset \ (F.inputModel declaration.inputModel).aliasNames
  if unknown.Nonempty then
    .error (refused "input_invalid"
      (declaration.name ++ " does not accept argument(s) " ++ F.reprNames unknown))
  else
    ((F.inputModel declaration.inputModel).validate ctx.workspaceId arguments).mapError
      (refused "input_invalid")

/-- `_mask_token_write`. -/
def maskTokenWrite (declaration : ToolDeclaration) (arguments : Arguments) :
    Option OperationOutcome :=
  if declaration.safetyClass = .read then none
  else if F.maskTokensIn arguments = ∅ then none
  else some (refused "input_invalid" (declaration.name ++ " input carries the redaction mask " ++
    "token(s) " ++ F.reprNames (F.maskTokensIn arguments) ++ ". The record holds a value the " ++
    "model was not shown, so a model cannot correct, supersede or restate it without losing " ++
    "that value: ask a person to make this change, or have the workspace enable " ++
    "redaction.contact_points_to_model so the model sees the real value"))

/-- The input of a call, screened. -/
def screened (declaration : ToolDeclaration) (arguments : Arguments) :
    Except OperationOutcome Validated :=
  match F.validated ctx declaration arguments with
  | .error outcome => .error outcome
  | .ok input =>
    match F.maskTokenWrite declaration arguments with
    | some outcome => .error outcome
    | none => .ok input

/-- `dispatch`. -/
def dispatch (operation : String) (payload : Arguments) (w : World) : OperationOutcome × World :=
  match F.registry.authorize ctx operation with
  | .error state => (refused state state, F.auditRefused ctx operation payload w)
  | .ok _ => F.perform ctx operation payload w

/-- `for_model`. -/
def forModel (outcome : OperationOutcome) : OperationOutcome :=
  { outcome with
    modelView := outcome.result.map (F.renderOutput ctx.workspaceId ctx.boundPurpose)
    error := outcome.error.map fun e =>
      (e.1, F.maskForModel ctx.workspaceId ctx.boundPurpose e.2) }

/-- `_catalog`. -/
def catalog (input : Validated) : OperationOutcome :=
  let entries := (F.callableThroughGeneric ctx).map fun tool => catalogEntry tool.declaration
  let found := match input.field "query" with
    | some (.str query) =>
      if query = "" then entries
      else entries.filter fun entry => pyContains (F.casefold query) (F.casefold entry.name) ||
        pyContains (F.casefold query) (F.casefold entry.description)
    | _ => entries
  let limit := match input.field "limit" with
    | some (.int limit) => limit.toNat
    | _ => 0
  succeeded (.catalog (found.take limit) (limit < found.length))

/-- `_describe`. -/
def describe (input : Validated) : OperationOutcome :=
  match input.field "name" with
  | some (.str name) =>
    match F.tools.lookup name with
    | some tool =>
      if F.reachable ctx tool then
        succeeded (.description (catalogEntry tool.declaration)
          (F.inputModel tool.declaration.inputModel).schema)
      else F.notAvailable name
    | none => F.notAvailable name
  | _ => refused "failed" ""

/-- The end of a call: its telemetry row, and its outcome for a model. -/
def answered (declaration : ToolDeclaration) (arguments : Arguments) (outcome : OperationOutcome)
    (validated : Option Validated) (w : World) : OperationOutcome × World :=
  (F.forModel ctx outcome, F.record ctx.workspaceId
    { toolName := declaration.name
      safetyClass := declaration.safetyClass
      mode := telemetryMode validated
      resultCount := telemetryResultCount outcome
      outcome := telemetryOutcome outcome.state
      queryLength := telemetryQueryLength declaration validated
      argumentNames :=
        if declaration.safetyClass = .read then ∅
        else (arguments.map Prod.fst).toFinset ∩
          (F.inputModel declaration.inputModel).aliasNames } w)

/-- `_call`, nested at most so deep. A direct call must be listed, one that `operations_call` makes
must be reachable. -/
def call : ℕ → Bool → WorkspaceContext → String → Arguments → World →
    Option (OperationOutcome × World)
  | 0, _, _, _, _, _ => none
  | depth + 1, viaGeneric, ctx, name, arguments, w =>
    match F.tools.lookup name with
    | none => some (F.forModel ctx (F.notAvailable name), w)
    | some tool =>
      if (if viaGeneric then F.reachable ctx tool else F.listed ctx tool) = false then
        some (F.forModel ctx (F.notAvailable name), w)
      else match F.screened ctx tool.declaration arguments with
        | .error outcome => some (F.answered ctx tool.declaration arguments outcome none w)
        | .ok input =>
          if isCore tool operationsCallTool then
            match input.field "name", input.field "input" with
            | some (.str target), some (.obj targetInput) =>
              call depth true ctx target targetInput w
            | _, _ => none
          else if isCore tool operationsCatalogTool then
            some (F.answered ctx tool.declaration arguments (F.catalog ctx input) (some input) w)
          else if isCore tool operationsDescribeTool then
            some (F.answered ctx tool.declaration arguments (F.describe ctx input) (some input) w)
          else
            let result := F.dispatch ctx tool.declaration.operation input.dump w
            some (F.answered ctx tool.declaration arguments result.1 (some input) result.2)

end Facade

end Rheostream.Tools
