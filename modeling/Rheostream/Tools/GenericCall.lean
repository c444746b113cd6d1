import Rheostream.Tools.ToolFacade

/-!
# A call through `operations_call`

A context that holds the grant calls through `operations_call` what the same context without the
grant calls directly, and the catalogue lists what it may call so.
-/

namespace Rheostream.Tools

open Facade

variable {World : Type} {F : Facade World} {ctx : WorkspaceContext} {tool : RegisteredTool}
  {models : ModelClass → InputModel} {isTest : Bool}

/-- The same context without the grant. -/
def withoutGrant (ctx : WorkspaceContext) : WorkspaceContext :=
  { ctx with operationSet := match ctx.operationSet with
      | .all => .all
      | .only names => .only (names.erase discoverThenCallOperation) }

variable {name : String}

theorem contains_withoutGrant (hname : name ≠ discoverThenCallOperation) :
    (withoutGrant ctx).operationSet.contains name = ctx.operationSet.contains name := by
  unfold withoutGrant
  cases hset : ctx.operationSet with
  | all => rfl
  | only names => simp [OperationSet.contains, hname]

/-- A snapshot that lost the grant is not in the mode. -/
theorem discoverThenCall_withoutGrant : discoverThenCall (withoutGrant ctx) = false := by
  unfold discoverThenCall withoutGrant
  cases ctx.operationSet with
  | all => rfl
  | only names => simp

/-! ### What may be called -/

/-- The grant decides about the three tools only. -/
theorem reachable_withoutGrant : F.reachable (withoutGrant ctx) tool = F.reachable ctx tool := by
  by_cases hmeta : tool.declaration.operation = discoverThenCallOperation
  · simp [reachable, isMeta, hmeta]
  · have havailable : F.available (withoutGrant ctx) tool = F.available ctx tool := by
      unfold available available.enabled
      rw [contains_withoutGrant hmeta]
      rfl
    rw [reachable, reachable, havailable]

theorem listed_withoutGrant : F.listed (withoutGrant ctx) tool = F.reachable ctx tool := by
  rw [listed, discoverThenCall_withoutGrant, reachable_withoutGrant]
  rfl

/-- Dispatch authorizes what is available. -/
theorem authorize_of_available (h : F.available ctx tool = true) :
    ∃ operation, F.registry.authorize ctx tool.declaration.operation = .ok operation := by
  unfold available available.enabled at h
  obtain ⟨-, h⟩ := Bool.and_eq_true_iff.mp h
  obtain ⟨operation, hoperation, h⟩ := (Option.any_eq_true _ _).mp h
  obtain ⟨h, hrole⟩ := Bool.and_eq_true_iff.mp h
  obtain ⟨hset, hmodule⟩ := Bool.and_eq_true_iff.mp h
  refine ⟨operation, ?_⟩
  have hmodule' : ¬ (operation.moduleId ≠ "core" ∧ operation.moduleId ∉ ctx.enabledModules) := by
    rw [Bool.or_eq_true_iff, decide_eq_true_eq, decide_eq_true_eq] at hmodule
    tauto
  have hrole' : ctx.role ∈ operation.roles := List.contains_iff_mem.mp hrole
  simp [Registry.authorize, hoperation, hset, hmodule', hrole']

/-- What is behind dispatch's authorization asks for operations, and never for the grant. -/
def AsksNoGrant (F : Facade World) : Prop :=
  ∀ ctx operation payload w, operation ≠ discoverThenCallOperation →
    F.perform (withoutGrant ctx) operation payload w = F.perform ctx operation payload w

theorem reachable_iff : F.reachable ctx tool = true ↔
    tool.declaration.operation ≠ discoverThenCallOperation ∧ F.available ctx tool = true := by
  simp [reachable, isMeta]

theorem dispatch_withoutGrant (hasks : AsksNoGrant F) (h : F.reachable ctx tool = true)
    (payload : Arguments) (w : World) :
    F.dispatch (withoutGrant ctx) tool.declaration.operation payload w =
      F.dispatch ctx tool.declaration.operation payload w := by
  obtain ⟨hgrant, havailable⟩ := reachable_iff.mp h
  obtain ⟨-, havailable'⟩ := reachable_iff.mp (reachable_withoutGrant.trans h)
  obtain ⟨operation, hauthorize⟩ := authorize_of_available havailable
  obtain ⟨operation', hauthorize'⟩ := authorize_of_available havailable'
  rw [Facade.dispatch, hauthorize', Facade.dispatch, hauthorize]
  exact hasks ctx _ payload w hgrant

/-! ### One call -/

/-- A call of a tool that dispatches. -/
def performed (F : Facade World) (ctx : WorkspaceContext) (tool : RegisteredTool)
    (arguments : Arguments) (w : World) : OperationOutcome × World :=
  match F.screened ctx tool.declaration arguments with
  | .error outcome => F.answered ctx tool.declaration arguments outcome none w
  | .ok input =>
    let result := F.dispatch ctx tool.declaration.operation input.dump w
    F.answered ctx tool.declaration arguments result.1 (some input) result.2

theorem isCore_of_reachable (h : F.reachable ctx tool = true) (declaration : ToolDeclaration)
    (hdeclaration : declaration.operation = discoverThenCallOperation) :
    isCore tool declaration = false := by
  obtain ⟨hgrant, -⟩ := reachable_iff.mp h
  rw [isCore, Bool.and_eq_false_iff]
  right
  rw [decide_eq_false_iff_not]
  rintro rfl
  exact hgrant hdeclaration

variable {arguments : Arguments} {w : World}

/-- A tool that is reachable dispatches, whichever way it is called. -/
theorem call_of_reachable {viaGeneric : Bool} {depth : ℕ} (htool : F.tools.lookup name = some tool)
    (hcheck : (if viaGeneric then F.reachable ctx tool else F.listed ctx tool) = true)
    (h : F.reachable ctx tool = true) :
    F.call (depth + 1) viaGeneric ctx name arguments w =
      some (performed F ctx tool arguments w) := by
  unfold Facade.call performed
  rw [htool]
  dsimp only
  rw [if_neg (by rw [hcheck]; decide)]
  cases hscreened : F.screened ctx tool.declaration arguments with
  | error outcome => rfl
  | ok input =>
    dsimp only
    rw [isCore_of_reachable h operationsCallTool rfl,
      isCore_of_reachable h operationsCatalogTool rfl,
      isCore_of_reachable h operationsDescribeTool rfl]
    rfl

/-- A name that the context may call through `operations_call`. -/
def Callable (F : Facade World) (ctx : WorkspaceContext) (name : String) : Prop :=
  ∃ tool, F.tools.lookup name = some tool ∧ F.reachable ctx tool = true

/-- Any other name is refused, whichever way it is called. -/
theorem call_of_not_callable {depth : ℕ} (h : ¬ Callable F ctx name) :
    F.call (depth + 1) true ctx name arguments w =
        some (F.forModel ctx (F.notAvailable name), w) ∧
      F.call (depth + 1) false (withoutGrant ctx) name arguments w =
        some (F.forModel ctx (F.notAvailable name), w) := by
  cases htool : F.tools.lookup name with
  | none =>
    rw [Facade.call, Facade.call, htool]
    exact ⟨rfl, rfl⟩
  | some tool =>
    have hunreachable : F.reachable ctx tool = false := by
      rw [← Bool.not_eq_true]
      exact fun hreachable => h ⟨tool, htool, hreachable⟩
    have hunlisted : F.listed (withoutGrant ctx) tool = false :=
      listed_withoutGrant.trans hunreachable
    rw [Facade.call, Facade.call, htool]
    exact ⟨if_pos hunreachable, if_pos hunlisted⟩

theorem performed_withoutGrant (hasks : AsksNoGrant F) (h : F.reachable ctx tool = true) :
    performed F (withoutGrant ctx) tool arguments w = performed F ctx tool arguments w := by
  have hscreened : F.screened (withoutGrant ctx) tool.declaration arguments =
      F.screened ctx tool.declaration arguments := rfl
  rw [performed, hscreened, performed]
  cases F.screened ctx tool.declaration arguments with
  | error outcome => rfl
  | ok input =>
    dsimp only
    rw [dispatch_withoutGrant hasks h]
    rfl

/-- A generic call is a direct call without the grant. -/
theorem generic_eq_direct (hasks : AsksNoGrant F) (depth : ℕ) (name : String)
    (arguments : Arguments) (w : World) :
    ∃ result, F.call (depth + 1) true ctx name arguments w = some result ∧
      F.call (depth + 1) false (withoutGrant ctx) name arguments w = some result := by
  by_cases h : Callable F ctx name
  · obtain ⟨tool, htool, hreachable⟩ := h
    refine ⟨performed F ctx tool arguments w, call_of_reachable htool hreachable hreachable, ?_⟩
    have hlisted : (if false = true then F.reachable (withoutGrant ctx) tool
        else F.listed (withoutGrant ctx) tool) = true := listed_withoutGrant.trans hreachable
    rw [call_of_reachable htool hlisted (reachable_withoutGrant.trans hreachable),
      performed_withoutGrant hasks hreachable]
  · exact ⟨_, call_of_not_callable h⟩

/-! ### The core's tools -/

/-- The core has registered its three tools and the operation that they name, and the snapshot of
the context holds the grant. -/
structure DiscoversTools (F : Facade World) (ctx : WorkspaceContext) : Prop where
  tools : ∀ declaration ∈ discoverThenCallTools,
    F.tools.lookup declaration.name = some ⟨declaration, coreOrigin⟩
  operation : ∃ operation, F.registry.operations.lookup discoverThenCallOperation = some operation ∧
    operation.moduleId = "core" ∧ ctx.role ∈ operation.roles
  grant : discoverThenCall ctx = true

variable {declaration : ToolDeclaration}

theorem isCore_self : isCore ⟨declaration, coreOrigin⟩ declaration = true := by
  simp [isCore]

/-- The input models tell the three tools apart. -/
theorem isCore_of_inputModel {other : ToolDeclaration}
    (h : declaration.inputModel ≠ other.inputModel) :
    isCore ⟨declaration, coreOrigin⟩ other = false := by
  rw [isCore, Bool.and_eq_false_iff]
  right
  rw [decide_eq_false_iff_not]
  exact fun heq => h (congrArg ToolDeclaration.inputModel heq)

theorem DiscoversTools.listed (h : DiscoversTools F ctx)
    (hdeclaration : declaration ∈ discoverThenCallTools) :
    F.listed ctx ⟨declaration, coreOrigin⟩ = true := by
  have hmeta : declaration.operation = discoverThenCallOperation ∧
      declaration.name ∈ discoverThenCallToolNames := by
    simp only [discoverThenCallTools, List.mem_cons, List.not_mem_nil, or_false] at hdeclaration
    obtain rfl | rfl | rfl := hdeclaration <;> exact ⟨rfl, by decide⟩
  obtain ⟨operation, hoperation, hmodule, hrole⟩ := h.operation
  have hset : ctx.operationSet.contains discoverThenCallOperation = true := by
    have hgrant := h.grant
    unfold discoverThenCall at hgrant
    cases hset : ctx.operationSet with
    | all => rfl
    | only names =>
      rw [hset] at hgrant
      exact hgrant
  have havailable : F.available ctx ⟨declaration, coreOrigin⟩ = true := by
    unfold available available.enabled
    dsimp only
    rw [hmeta.1, hoperation, Option.any_some, hset, hmodule]
    simp [moduleIdForOrigin, coreOrigin, testHarnessOrigin, hrole]
  simp [Facade.listed, h.grant, hmeta.2, isMeta, hmeta.1, havailable]

/-- What `operations_call` is called with: a name, and the input, which may be left out. -/
structure Envelope (arguments : Arguments) (name : String) (input : Arguments) : Prop where
  named : arguments.lookup "name" = some (.str name)
  short : 1 ≤ name.length ∧ name.length ≤ 200
  given : arguments.lookup "input" = some (.obj input) ∨
    arguments.lookup "input" = none ∧ input = []
  known : (arguments.map Prod.fst).toFinset ⊆ {"name", "input"}

/-- Without an unknown name, the input model validates. -/
theorem validated_of_known
    (h : (arguments.map Prod.fst).toFinset ⊆ (F.inputModel declaration.inputModel).aliasNames) :
    F.validated ctx declaration arguments =
      ((F.inputModel declaration.inputModel).validate ctx.workspaceId arguments).mapError
        (refused "input_invalid") := by
  refine if_neg ?_
  rw [Finset.not_nonempty_iff_eq_empty, Finset.sdiff_eq_empty_iff_subset]
  exact h

variable {input : Arguments}

theorem Envelope.nameField (h : Envelope arguments name input) :
    nameField arguments = some name := by
  rw [Tools.nameField, h.named]
  exact if_pos h.short

theorem Envelope.screened (h : Envelope arguments name input) :
    F.screened ctx operationsCallTool arguments = .ok (callEnvelope name input) := by
  have hvalidated : F.validated ctx operationsCallTool arguments =
      .ok (callEnvelope name input) := by
    rw [validated_of_known h.known]
    dsimp only [operationsCallTool, inputModel, callInput]
    rw [h.nameField]
    obtain hinput | ⟨hinput, rfl⟩ := h.given
    · rw [hinput]
      rfl
    · rw [hinput]
      rfl
  rw [Facade.screened, hvalidated]
  rfl

theorem field_callEnvelope (name : String) (input : Arguments) :
    (callEnvelope name input).field "name" = some (.str name) ∧
      (callEnvelope name input).field "input" = some (.obj input) := by
  constructor <;> simp [callEnvelope, List.lookup_cons]

/-- `operations_call` hands its input on to the tool that it names. -/
theorem call_operationsCall (h : DiscoversTools F ctx) (henvelope : Envelope arguments name input)
    (depth : ℕ) (w : World) :
    F.call (depth + 1) false ctx "operations_call" arguments w =
      F.call depth true ctx name input w := by
  have hmem : operationsCallTool ∈ discoverThenCallTools := by simp [discoverThenCallTools]
  have hlookup : F.tools.lookup "operations_call" = some ⟨operationsCallTool, coreOrigin⟩ :=
    h.tools operationsCallTool hmem
  rw [Facade.call, hlookup]
  dsimp only
  rw [if_neg (by rw [if_neg (by decide), h.listed hmem]; decide), henvelope.screened]
  dsimp only
  rw [if_pos isCore_self, (field_callEnvelope name input).1, (field_callEnvelope name input).2]

/-- The facade answers the two others itself. -/
theorem call_answered (h : DiscoversTools F ctx) {input : Validated} {outcome : OperationOutcome}
    (htool : declaration = operationsCatalogTool ∧ outcome = F.catalog ctx input ∨
      declaration = operationsDescribeTool ∧ outcome = F.describe ctx input)
    (hscreened : F.screened ctx declaration arguments = .ok input) (depth : ℕ) (w : World) :
    F.call (depth + 1) false ctx declaration.name arguments w =
      some (F.answered ctx declaration arguments outcome (some input) w) := by
  have hmem : declaration ∈ discoverThenCallTools := by
    obtain ⟨rfl, -⟩ | ⟨rfl, -⟩ := htool <;> simp [discoverThenCallTools]
  rw [Facade.call, h.tools declaration hmem]
  dsimp only
  rw [if_neg (by rw [if_neg (by decide), h.listed hmem]; decide), hscreened]
  dsimp only
  obtain ⟨rfl, rfl⟩ | ⟨rfl, rfl⟩ := htool
  · have hcall : isCore ⟨operationsCatalogTool, coreOrigin⟩ operationsCallTool = false :=
      isCore_of_inputModel (by decide)
    rw [hcall, if_neg (by decide), if_pos isCore_self]
  · have hcall : isCore ⟨operationsDescribeTool, coreOrigin⟩ operationsCallTool = false :=
      isCore_of_inputModel (by decide)
    have hcatalog : isCore ⟨operationsDescribeTool, coreOrigin⟩ operationsCatalogTool = false :=
      isCore_of_inputModel (by decide)
    rw [hcall, if_neg (by decide), hcatalog, if_neg (by decide), if_pos isCore_self]

theorem screened_describe (hname : 1 ≤ name.length ∧ name.length ≤ 200) :
    F.screened ctx operationsDescribeTool [("name", .str name)] =
      .ok ⟨fun field => [("name", Json.str name)].lookup field, [("name", .str name)]⟩ := by
  have hvalidated : F.validated ctx operationsDescribeTool [("name", .str name)] =
      .ok ⟨fun field => [("name", Json.str name)].lookup field, [("name", .str name)]⟩ := by
    rw [validated_of_known (by simp [operationsDescribeTool, inputModel, describeInput])]
    have hfield : nameField [("name", .str name)] = some name := by
      simp [nameField, hname]
    simp [operationsDescribeTool, inputModel, describeInput, hfield, Except.mapError]
  rw [Facade.screened, hvalidated]
  rfl

theorem screened_catalog {limit : Json} {k : ℤ} (hlimit : F.coerceInt limit = some k)
    (hk : 1 ≤ k ∧ k ≤ 500) :
    F.screened ctx operationsCatalogTool [("limit", limit)] =
      .ok ⟨fun name => [("query", Json.null), ("limit", Json.int k)].lookup name,
        [("query", .null), ("limit", .int k)]⟩ := by
  have hvalidated : F.validated ctx operationsCatalogTool [("limit", limit)] =
      .ok ⟨fun name => [("query", Json.null), ("limit", Json.int k)].lookup name,
        [("query", .null), ("limit", .int k)]⟩ := by
    rw [validated_of_known (by simp [operationsCatalogTool, inputModel, catalogInput])]
    have hquery : [("limit", limit)].lookup "query" = none := by simp [List.lookup_cons]
    have hgiven : [("limit", limit)].lookup "limit" = some limit := by simp
    simp [operationsCatalogTool, inputModel, catalogInput, hquery, hgiven, hlimit, hk,
      Except.mapError]
  rw [Facade.screened, hvalidated]
  rfl

/-! ### The catalogue -/

/-- The registry is walked by name. -/
theorem map_registered (hbuilt : Built models isTest F.tools) :
    F.registered.map (fun tool => tool.declaration.name) = sortedBy id F.tools.keys := by
  rw [registered, List.map_filterMap]
  have hname : ∀ name ∈ sortedBy id F.tools.keys,
      (F.tools.lookup name).map (fun tool => tool.declaration.name) = some name := by
    intro name hname
    have hkey := (sortedBy_perm id F.tools.keys).mem_iff.mp hname
    obtain ⟨tool, htool⟩ := Option.isSome_iff_exists.mp (AList.lookup_isSome.mpr hkey)
    rw [htool, Option.map_some, (hbuilt.lookup name tool htool).1]
  rw [List.filterMap_congr hname, List.filterMap_some]

theorem mem_callableThroughGeneric (hbuilt : Built models isTest F.tools) :
    name ∈ (F.callableThroughGeneric ctx).map (fun tool => tool.declaration.name) ↔
      Callable F ctx name := by
  rw [callableThroughGeneric, registered]
  simp only [List.mem_map, List.mem_filter, List.mem_filterMap]
  constructor
  · rintro ⟨tool, ⟨⟨key, -, htool⟩, hreachable⟩, rfl⟩
    rw [(hbuilt.lookup key tool htool).1]
    exact ⟨tool, htool, hreachable⟩
  · rintro ⟨tool, htool, hreachable⟩
    have hkey : name ∈ sortedBy id F.tools.keys :=
      (sortedBy_perm id _).mem_iff.mpr (AList.lookup_isSome.mp (by rw [htool]; rfl))
    exact ⟨tool, ⟨⟨name, hkey, htool⟩, hreachable⟩, (hbuilt.lookup name tool htool).1⟩

theorem pairwise_callableThroughGeneric (hbuilt : Built models isTest F.tools) :
    ((F.callableThroughGeneric ctx).map fun tool => tool.declaration.name).Pairwise (· < ·) := by
  have hsub : ((F.callableThroughGeneric ctx).map fun tool => tool.declaration.name).Sublist
      (sortedBy id F.tools.keys) := by
    rw [← map_registered hbuilt]
    exact List.filter_sublist.map _
  have hle := sortedBy_pairwise id F.tools.keys
  have hne : (sortedBy id F.tools.keys).Nodup :=
    (sortedBy_perm id _).nodup_iff.mpr (AList.keys_nodup _)
  exact ((hle.and hne).imp fun h => lt_of_le_of_ne h.1 h.2).sublist hsub

/-- The three tools are never called through `operations_call`. -/
theorem not_callable_core (h : DiscoversTools F ctx)
    (hdeclaration : declaration ∈ discoverThenCallTools) : ¬ Callable F ctx declaration.name := by
  rintro ⟨tool, htool, hreachable⟩
  obtain rfl := Option.some.inj ((h.tools declaration hdeclaration).symm.trans htool)
  refine (reachable_iff.mp hreachable).1 ?_
  simp only [discoverThenCallTools, List.mem_cons, List.not_mem_nil, or_false] at hdeclaration
  obtain rfl | rfl | rfl := hdeclaration <;> rfl

/-! ### The law -/

/-- What a context that holds the grant calls, lists and describes. -/
structure GenericLaw (F : Facade World) (ctx : WorkspaceContext) : Prop where
  /-- A call through `operations_call` is the direct call of the same context without the grant. -/
  called : ∀ depth name input arguments w, Envelope arguments name input →
    ∃ result, F.call (depth + 2) false ctx "operations_call" arguments w = some result ∧
      F.call (depth + 1) false (withoutGrant ctx) name input w = some result
  /-- The catalogue lists what may be called, in order. -/
  catalogued : ∀ depth limit k w, F.coerceInt limit = some k → 1 ≤ k ∧ k ≤ 500 →
    (F.callableThroughGeneric ctx).length ≤ k →
    ∃ entries w', F.call (depth + 1) false ctx "operations_catalog" [("limit", limit)] w =
        some (F.forModel ctx (succeeded (.catalog entries false)), w') ∧
      (entries.map CatalogEntry.name).Pairwise (· < ·) ∧
      ∀ name, name ∈ entries.map CatalogEntry.name ↔ Callable F ctx name
  /-- What may be called is answered by its tool, with a telemetry row under its name. -/
  reached : ∀ depth name input arguments w, Callable F ctx name → Envelope arguments name input →
    ∃ outcome row w', F.call (depth + 2) false ctx "operations_call" arguments w =
      some (outcome, F.record ctx.workspaceId row w') ∧ row.toolName = name
  /-- Any other name is not found, and nothing is written. -/
  others : ∀ depth name input arguments w, ¬ Callable F ctx name → Envelope arguments name input →
    F.call (depth + 2) false ctx "operations_call" arguments w =
      some (F.forModel ctx (F.notAvailable name), w)
  /-- A description is not found for the other names exactly. -/
  described : ∀ depth name w, 1 ≤ name.length ∧ name.length ≤ 200 →
    ∃ outcome w', F.call (depth + 1) false ctx "operations_describe" [("name", .str name)] w =
      some (outcome, w') ∧ (outcome.state = "not_found" ↔ ¬ Callable F ctx name)
  /-- None of the three tools is called through `operations_call`, itself included. -/
  notItself : ∀ declaration ∈ discoverThenCallTools, ¬ Callable F ctx declaration.name

/-- A call through `operations_call` is the direct call without the grant, what may be called so is
what the catalogue lists and what is described, and it is none of the three tools. -/
theorem generic_call_law (hbuilt : Built F.inputModel isTest F.tools) (h : DiscoversTools F ctx)
    (hasks : AsksNoGrant F) : GenericLaw F ctx := by
  constructor
  case called =>
    intro depth name input arguments w henvelope
    rw [call_operationsCall h henvelope]
    exact generic_eq_direct hasks depth name input w
  case catalogued =>
    intro depth limit k w hlimit hk hlength
    have hentries : ((F.callableThroughGeneric ctx).map fun tool =>
        catalogEntry tool.declaration).map CatalogEntry.name =
          (F.callableThroughGeneric ctx).map fun tool => tool.declaration.name := by
      rw [List.map_map]
      rfl
    have hcatalog := @screened_catalog World F ctx limit k hlimit hk
    have hall : F.catalog ctx
        ⟨fun name => [("query", Json.null), ("limit", Json.int k)].lookup name,
          [("query", .null), ("limit", .int k)]⟩ = succeeded (.catalog
            ((F.callableThroughGeneric ctx).map fun tool => catalogEntry tool.declaration)
              false) := by
      have hlong : (F.callableThroughGeneric ctx).length ≤ k.toNat := by omega
      have hend : decide (k.toNat < (F.callableThroughGeneric ctx).length) = false :=
        decide_eq_false (by omega)
      simp [catalog, List.lookup_cons, List.take_of_length_le, hlong, hend]
    have hcall := call_answered h (.inl ⟨rfl, rfl⟩) hcatalog depth w
    rw [hall] at hcall
    refine ⟨_, _, hcall, ?_, ?_⟩
    · rw [hentries]
      exact pairwise_callableThroughGeneric hbuilt
    · intro name
      rw [hentries]
      exact mem_callableThroughGeneric hbuilt
  case reached =>
    rintro depth name input arguments w ⟨tool, htool, hreachable⟩ henvelope
    have hcalled : F.call (depth + 1) true ctx name input w =
        some (performed F ctx tool input w) := call_of_reachable htool hreachable hreachable
    rw [call_operationsCall h henvelope, hcalled]
    have hname := (hbuilt.lookup name tool htool).1
    unfold performed
    cases F.screened ctx tool.declaration input with
    | error outcome => exact ⟨_, _, _, rfl, hname⟩
    | ok validated => exact ⟨_, _, _, rfl, hname⟩
  case others =>
    intro depth name input arguments w hother henvelope
    rw [call_operationsCall h henvelope]
    exact (call_of_not_callable hother).1
  case described =>
    intro depth name w hname
    refine ⟨_, _, call_answered h (.inr ⟨rfl, rfl⟩) (screened_describe hname) depth w, ?_⟩
    by_cases hcallable : Callable F ctx name
    · obtain ⟨tool, htool, hreachable⟩ := id hcallable
      simp [describe, htool, hreachable, forModel, succeeded, hcallable]
    · have hnone : F.describe ctx
          ⟨fun field => [("name", Json.str name)].lookup field, [("name", .str name)]⟩ =
            F.notAvailable name := by
        cases htool : F.tools.lookup name with
        | none => simp [describe, htool]
        | some tool =>
          have hunreachable : F.reachable ctx tool ≠ true :=
            fun hreachable => hcallable ⟨tool, htool, hreachable⟩
          simp [describe, htool, hunreachable]
      rw [hnone]
      exact iff_of_true rfl hcallable
  case notItself => exact fun declaration hdeclaration => not_callable_core h hdeclaration

/-! ### A sample -/

/-- An input model of no fields. -/
def noFields : InputModel := ⟨∅, false, fun _ _ => .ok ⟨fun _ => none, []⟩, .null⟩

/-- A deployment whose operations answer null, but for the reading of an operation record, which
finds none. The world is the telemetry. -/
def sampleFacade (tools : ToolRegistry) : Facade (List TelemetryRow) where
  registry :=
    { operations := ((∅ : Table String Declaration).insert "core.tool.call"
          ⟨[.owner, .member, .operator, .service], "core"⟩).insert "core.operation.get"
          ⟨[.owner], "core"⟩
      tools := ∅ }
  tools := tools
  declared _ := noFields
  coreSchema _ := .null
  describeInvalid _ _ := "name: Field required"
  coerceInt
    | .int n => some n
    | _ => none
  perform _ operation _ w :=
    (if operation = "core.operation.get" then refused "not_found" "no such operation"
      else succeeded (.output .null), w)
  auditRefused _ _ _ w := w
  record _ row w := row :: w
  renderOutput _ _ _ := .null
  maskForModel _ _ text := text
  maskTokensIn _ := ∅
  casefold text := text
  reprName name := name
  reprNames _ := ""

def operationsGetTool : ToolDeclaration where
  name := "operations_get"
  safetyClass := .read
  operation := "core.operation.get"
  inputModel := .declared "_OperationRefToolInput"
  description := ""

def sampleContext : WorkspaceContext where
  workspaceId := 1
  actor := ⟨.token, some 2⟩
  role := .owner
  operationSet := .only {"core.tool.call", "core.operation.get"}
  enabledModules := ∅
  accountId := none
  boundPurpose := none

/-- The registry with the tools of the core. -/
def sampleTools : ToolRegistry :=
  (((∅ : ToolRegistry).insert "operations_catalog" ⟨operationsCatalogTool, coreOrigin⟩).insert
    "operations_describe" ⟨operationsDescribeTool, coreOrigin⟩).insert
    "operations_call" ⟨operationsCallTool, coreOrigin⟩

variable {tools : ToolRegistry}

/-- What passes every check of `register` is recorded. -/
theorem register_new (hname : declaration.name ≠ "")
    (hissuable : declaration.operation ∉ nonTokenIssuable)
    (hgrant : declaration.operation = discoverThenCallOperation →
      declaration ∈ discoverThenCallTools)
    (hreserved : (models declaration.inputModel).aliasNames ∩ reservedInputFields = ∅)
    (hextra : (models declaration.inputModel).allowsExtra = false)
    (hnew : tools.lookup declaration.name = none) :
    tools.register models isTest declaration coreOrigin =
      .ok (tools.insert declaration.name ⟨declaration, coreOrigin⟩) := by
  have horigin : coreOrigin ≠ "" ∧ coreOrigin ≠ testHarnessOrigin := by decide
  unfold ToolRegistry.register
  rw [if_neg hname, if_neg horigin.1, if_neg fun h => horigin.2 h.1, if_neg hissuable,
    if_neg fun h => h.2 ⟨rfl, hgrant h.1⟩,
    if_neg (Finset.not_nonempty_iff_eq_empty.mpr hreserved), hextra, if_neg (by decide), hnew]

theorem register_core (declaration : ToolDeclaration)
    (hdeclaration : declaration ∈ discoverThenCallTools)
    (hnew : tools.lookup declaration.name = none) :
    tools.register F.inputModel isTest declaration coreOrigin =
      .ok (tools.insert declaration.name ⟨declaration, coreOrigin⟩) := by
  have hissuable : discoverThenCallOperation ∉ nonTokenIssuable := by decide
  have hquery : ({"query", "limit"} : Finset String) ∩ reservedInputFields = ∅ := by decide
  have hname : ({"name"} : Finset String) ∩ reservedInputFields = ∅ := by decide
  have hinput : ({"name", "input"} : Finset String) ∩ reservedInputFields = ∅ := by decide
  have hmem := hdeclaration
  simp only [discoverThenCallTools, List.mem_cons, List.not_mem_nil, or_false] at hdeclaration
  obtain rfl | rfl | rfl := hdeclaration
  · exact register_new (by decide) hissuable (fun _ => hmem) hquery rfl hnew
  · exact register_new (by decide) hissuable (fun _ => hmem) hname rfl hnew
  · exact register_new (by decide) hissuable (fun _ => hmem) hinput rfl hnew

theorem built_core : Built F.inputModel isTest sampleTools :=
  .register (.register (.register .empty
    (register_core operationsCatalogTool (by simp [discoverThenCallTools]) rfl))
    (register_core operationsDescribeTool (by simp [discoverThenCallTools]) rfl))
    (register_core operationsCallTool (by simp [discoverThenCallTools]) rfl)

theorem register_get {tools' : ToolRegistry} (hnew : tools'.lookup "operations_get" = none) :
    tools'.register (sampleFacade tools).inputModel isTest operationsGetTool coreOrigin =
      .ok (tools'.insert "operations_get" ⟨operationsGetTool, coreOrigin⟩) := by
  have hissuable : "core.operation.get" ∉ nonTokenIssuable := by decide
  have hgrant : "core.operation.get" ≠ discoverThenCallOperation := by decide
  exact register_new (by decide) hissuable (fun h => absurd h hgrant) rfl rfl hnew

/-- The registry with the reading of an operation record beside the tools of the core. -/
def sampleGetTools : ToolRegistry :=
  sampleTools.insert "operations_get" ⟨operationsGetTool, coreOrigin⟩

theorem built_get : Built (sampleFacade tools).inputModel isTest sampleGetTools :=
  .register built_core (register_get rfl)

theorem discovers_sample : DiscoversTools (sampleFacade sampleGetTools) sampleContext where
  tools declaration hdeclaration := by
    simp only [discoverThenCallTools, List.mem_cons, List.not_mem_nil, or_false] at hdeclaration
    obtain rfl | rfl | rfl := hdeclaration <;> rfl
  operation := ⟨⟨[.owner, .member, .operator, .service], "core"⟩, rfl, rfl, by decide⟩
  grant := by decide

theorem callable_sample : Callable (sampleFacade sampleGetTools) sampleContext "operations_get" :=
  ⟨⟨operationsGetTool, coreOrigin⟩, rfl, by decide +kernel⟩

/-- A call of `operations_get` over the sample facade. -/
theorem generic_call_sample :
    Callable (sampleFacade sampleGetTools) sampleContext "operations_get" ∧
      GenericLaw (sampleFacade sampleGetTools) sampleContext :=
  ⟨callable_sample, generic_call_law (@built_get false _) discovers_sample fun _ _ _ _ _ => rfl⟩

/-- Where the core has not registered `operations_call`, what is called directly is not called
through it; and where it has, a listed name can be not found by its own operation. -/
theorem generic_call_lost :
    (∃ tools, Built (sampleFacade tools).inputModel false tools ∧
      (((sampleFacade tools).call 2 false (withoutGrant sampleContext) "operations_get" [] []).map
        fun result => result.2.length) = some 1 ∧
      (((sampleFacade tools).call 2 false sampleContext "operations_call"
        [("name", .str "operations_get"), ("input", .obj [])] []).map
          fun result => result.2.length) = some 0) ∧
    ∃ tools, Built (sampleFacade tools).inputModel false tools ∧
      Callable (sampleFacade tools) sampleContext "operations_get" ∧
      (((sampleFacade tools).call 2 false sampleContext "operations_call"
        [("name", .str "operations_get"), ("input", .obj [])] []).map
          fun result => result.1.state) = some "not_found" := by
  refine ⟨⟨(∅ : ToolRegistry).insert "operations_get" ⟨operationsGetTool, coreOrigin⟩,
    .register .empty (register_get rfl), ?_, ?_⟩,
    sampleGetTools, built_get, callable_sample, ?_⟩
  · decide +kernel
  · decide +kernel
  · decide +kernel

end Rheostream.Tools
