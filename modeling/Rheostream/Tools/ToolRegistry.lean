import Rheostream.Tokens.Sets

/-!
# The tool registry

`ToolRegistry` of `tokens/sets.py`. A tool names an operation and narrows its input, and only the
core's own three tools may name the grant for discover-then-call.
-/

namespace Rheostream.Tools

/-- The safety class of a tool. -/
inductive SafetyClass where
  | read
  | draft
  | mutate
  | destructive
  | external
  | financial
deriving DecidableEq

namespace SafetyClass

def value : SafetyClass → String
  | read => "read"
  | draft => "draft"
  | mutate => "mutate"
  | destructive => "destructive"
  | external => "external"
  | financial => "financial"

end SafetyClass

/-- The members of a JSON object. -/
abbrev Arguments := List (String × Json)

/-- An instance of an input model: its attributes and its dump. -/
structure Validated where
  field : String → Option Json
  dump : Arguments

/-- What is asked of an input model. Its validation expands short references of a workspace. -/
structure InputModel where
  /-- The names that a payload key could bind to. -/
  aliasNames : Finset String
  /-- It sets `extra = "allow"`. -/
  allowsExtra : Bool
  /-- `model_validate`, or the described validation error. -/
  validate : Uuid → Arguments → Except String Validated
  /-- `model_json_schema`. -/
  schema : Json

/-- The classes of input models: those of the core's three tools, and any other. -/
inductive ModelClass where
  | catalogInput
  | describeInput
  | callInput
  | declared (name : String)
deriving DecidableEq

structure ToolDeclaration where
  name : String
  safetyClass : SafetyClass
  operation : String
  inputModel : ModelClass
  description : String
deriving DecidableEq

/-- A declaration with the origin that registered it. -/
structure RegisteredTool where
  declaration : ToolDeclaration
  origin : String
deriving DecidableEq

/-- `CORE_ORIGIN`. -/
def coreOrigin : String := "core"

/-- `TEST_HARNESS_ORIGIN`. -/
def testHarnessOrigin : String := "test_harness"

/-- `module_id_for_origin`. -/
def moduleIdForOrigin (origin : String) : String :=
  if origin = testHarnessOrigin then "harness" else origin

def operationsCatalogTool : ToolDeclaration where
  name := "operations_catalog"
  safetyClass := .read
  operation := discoverThenCallOperation
  inputModel := .catalogInput
  description := "Lists the tools this token may call through operations_call: name, safety " ++
    "class and a one-line description, sorted by name. query filters by a case-insensitive " ++
    "substring of the name or description (limit 1 to 500, default 100). Read a tool's input " ++
    "schema with operations_describe before calling it."

def operationsDescribeTool : ToolDeclaration where
  name := "operations_describe"
  safetyClass := .read
  operation := discoverThenCallOperation
  inputModel := .describeInput
  description := "Describes one tool from operations_catalog: its description, safety class and " ++
    "the JSON schema its input must match. A name this token may not call is not_found."

def operationsCallTool : ToolDeclaration where
  name := "operations_call"
  safetyClass := .read
  operation := discoverThenCallOperation
  inputModel := .callInput
  description := "Calls one tool from operations_catalog by name with input matching its " ++
    "schema, and returns exactly what calling that tool directly would: the same result, the " ++
    "same refusals (not_found, input_invalid and the rest) and approval_required with an " ++
    "approval_id for a destructive call. The tool's own safety class and roles apply, not this " ++
    "one's."

/-- `DISCOVER_THEN_CALL_TOOLS`. -/
def discoverThenCallTools : List ToolDeclaration :=
  [operationsCatalogTool, operationsDescribeTool, operationsCallTool]

/-- `DISCOVER_THEN_CALL_TOOL_NAMES`. -/
def discoverThenCallToolNames : Finset String :=
  {"operations_catalog", "operations_describe", "operations_call", "operations_list",
    "operations_get"}

/-- `RESERVED_INPUT_FIELDS`. -/
def reservedInputFields : Finset String :=
  {"workspace_id", "workspace", "actor_id", "actor", "tenant_id", "database", "schema",
    "connection_string", "dsn", "sql", "table_name", "statement", "principal"}

/-! ### Registration -/

/-- The tool table, by name. -/
abbrev ToolRegistry := Table String RegisteredTool

variable {models : ModelClass → InputModel} {isTest : Bool}

/-- `register`, with what it refuses. -/
def ToolRegistry.register (models : ModelClass → InputModel) (isTest : Bool) (tools : ToolRegistry)
    (decl : ToolDeclaration) (origin : String) : Except String ToolRegistry :=
  if decl.name = "" then .error "a tool needs a non-empty name"
  else if origin = "" then .error "a registration needs a non-empty origin"
  else if origin = testHarnessOrigin ∧ isTest = false then
    .error "the origin is accepted only under profile = test"
  else if decl.operation ∈ nonTokenIssuable then .error "names a non-token-issuable operation"
  else if decl.operation = discoverThenCallOperation ∧
      ¬ (origin = coreOrigin ∧ decl ∈ discoverThenCallTools) then
    .error "names the discover-then-call grant"
  else if ((models decl.inputModel).aliasNames ∩ reservedInputFields).Nonempty then
    .error "input model declares reserved field(s)"
  else if (models decl.inputModel).allowsExtra then .error "input model sets extra = 'allow'"
  else match tools.lookup decl.name with
    | some existing =>
      if existing = ⟨decl, origin⟩ then .ok tools else .error "already registered"
    | none => .ok (tools.insert decl.name ⟨decl, origin⟩)

/-- A registry that calls of `register` make. -/
inductive Built (models : ModelClass → InputModel) (isTest : Bool) : ToolRegistry → Prop
  | empty : Built models isTest ∅
  | register {tools tools' : ToolRegistry} {decl : ToolDeclaration} {origin : String} :
    Built models isTest tools → tools.register models isTest decl origin = .ok tools' →
    Built models isTest tools'

/-- A tool that names the grant is one of the core's own three. -/
def RegisteredTool.OwnsGrant (tool : RegisteredTool) : Prop :=
  tool.declaration.operation = discoverThenCallOperation →
    tool.origin = coreOrigin ∧ tool.declaration ∈ discoverThenCallTools

/-- What `register` accepts is new under its name, or was there. -/
theorem register_ok {tools tools' : ToolRegistry} {decl : ToolDeclaration} {origin : String}
    (h : tools.register models isTest decl origin = .ok tools') :
    RegisteredTool.OwnsGrant ⟨decl, origin⟩ ∧
      (tools' = tools ∨ tools' = tools.insert decl.name ⟨decl, origin⟩) := by
  unfold ToolRegistry.register at h
  split_ifs at h with hname horigin hprofile hissuable hgrant hreserved hextra
  refine ⟨fun hoperation => ?_, ?_⟩
  · by_contra hown
    exact hgrant ⟨hoperation, hown⟩
  · cases hexisting : tools.lookup decl.name with
    | none =>
      rw [hexisting] at h
      exact .inr (Except.ok.inj h).symm
    | some existing =>
      rw [hexisting] at h
      dsimp only at h
      split_ifs at h
      exact .inl (Except.ok.inj h).symm

/-- A registered tool has its own name, and the grant is the core's. -/
theorem Built.lookup {tools : ToolRegistry} (h : Built models isTest tools) :
    ∀ name tool, tools.lookup name = some tool →
      tool.declaration.name = name ∧ tool.OwnsGrant := by
  induction h with
  | empty =>
    intro name tool htool
    cases htool
  | register _ hregister ih =>
    intro name tool htool
    obtain ⟨hgrant, rfl | rfl⟩ := register_ok hregister
    · exact ih name tool htool
    · rw [Table.lookup_insert] at htool
      split at htool
      · next hname =>
        obtain rfl := Option.some.inj htool
        exact ⟨hname.symm, hgrant⟩
      · exact ih name tool htool

end Rheostream.Tools
