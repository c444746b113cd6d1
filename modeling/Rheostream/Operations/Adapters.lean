import Rheostream.Foundation.Machine
import Rheostream.Foundation.Selection
import Rheostream.Foundation.Walk
import Rheostream.Operations.Idempotency

/-!
# The adapters of retained values

`KeyedCompatibilityRegistry`: adapters are registered one at a time, each from one version of an
operation to another, and are read back by `adapt`. An adapter is known by its identity, and what
it does is a parameter.
-/

namespace Rheostream.Adapters

variable {Adapter : Type} [DecidableEq Adapter] (call : Adapter → Json → Option Json)

/-- The adapters of one kind, under the operation and the version they take a value from. -/
abbrev Registered (Adapter : Type) := Table (String × ℕ) (ℕ × Adapter)

/-- The registered adapters as what they do to a value. -/
def Registered.calls (table : Registered Adapter) : AdapterTable :=
  table.mapRows fun edge => (edge.1, call edge.2)

/-- The version an operation's adapter takes a value to. -/
def Registered.next (table : Registered Adapter) (operationName : String) (version : ℕ) :
    Option ℕ := (table.lookup (operationName, version)).map Prod.fst

/-- `_register`. -/
def register (table : Registered Adapter) (operationName : String) (fromVersion toVersion : ℕ)
    (adapter : Adapter) : Except String (Registered Adapter) :=
  if operationName.isEmpty || fromVersion = 0 || toVersion = 0 then
    .error "adapter operation and versions must be positive/nonblank"
  else if fromVersion = toVersion then
    .error "an adapter must advance to a different version"
  else match table.lookup (operationName, fromVersion) with
    | some existing =>
      if existing = (toVersion, adapter) then .ok table
      else .error (operationName ++ " version " ++ toString fromVersion ++
        " has more than one path")
    | none =>
      match walk (table.next operationName) (fun _ => false) (table.entries.length + 1) toVersion
          [fromVersion] with
      | some (.stuck _) => .ok (table.insert (operationName, fromVersion) (toVersion, adapter))
      | _ => .error (operationName ++ " adapter graph contains a cycle")

/-- `repr` of an operation's name, in which nothing has to be escaped. -/
def quoted (operationName : String) : String := "'" ++ operationName ++ "'"

/-- `_require_path`. -/
def requirePath (table : Registered Adapter) (operationName : String) (fromVersion toVersion : ℕ)
    (kind : String) : Except String Unit :=
  match walk (table.next operationName) (· = toVersion) (table.entries.length + 1) fromVersion
      [] with
  | some .arrived => .ok ()
  | some (.stuck _) => .error (quoted operationName ++ " retained " ++ kind ++ " schema " ++
      toString fromVersion ++ " has no adapter path to current version " ++ toString toVersion)
  | some (.cycle version) => .error (quoted operationName ++ " " ++ kind ++
      " adapter graph contains a cycle at version " ++ toString version)
  | none => .error (quoted operationName ++ " " ++ kind ++ " adapter graph contains a cycle")

/-- The loop of `_adapt`, `none` when the rounds run out. -/
def adaptLoop (table : Registered Adapter) (operationName : String) (toVersion : ℕ) :
    ℕ → ℕ → List ℕ → Json → Option (Except String Json)
  | 0, _, _, _ => none
  | rounds + 1, current, visited, adapted =>
    if current = toVersion then some (.ok adapted)
    else if visited.contains current then some (.error "adapter graph contains a cycle")
    else match table.lookup (operationName, current) with
      | none => some (.error ("no adapter from " ++ operationName ++ " schema " ++
          toString current ++ " to " ++ toString toVersion))
      | some (nextVersion, adapter) =>
        match call adapter adapted with
        | none => some (.error ("adapter from " ++ toString current ++ " to " ++
            toString nextVersion ++ " failed"))
        | some value =>
          match jsonObject value "adapted keyed value" with
          | .error detail => some (.error detail)
          | .ok value => adaptLoop table operationName toVersion rounds nextVersion
              (current :: visited) value

/-- The two tables of a registry. -/
structure Registry (Adapter : Type) where
  request : Registered Adapter
  result : Registered Adapter

/-- The graphs of one kind in `validate_graphs`, where `spec` finds the keyed declaration of an
operation and `version` the current version of this kind. -/
def validateTable (spec : String → Option KeyedSpec) (version : KeyedSpec → ℕ) (kind : String)
    (table : Registered Adapter) : List (String × ℕ) → Except String Unit
  | [] => .ok ()
  | (operationName, fromVersion) :: rest =>
    match spec operationName with
    | none => .error (kind ++ " adapter for " ++ quoted operationName ++
        " has no registered KEYED operation")
    | some keyed =>
      if (table.lookup (operationName, version keyed)).isSome then
        .error (quoted operationName ++ " " ++ kind ++
          " adapter graph continues past current version " ++ toString (version keyed))
      else match requirePath table operationName fromVersion (version keyed) kind with
        | .error detail => .error detail
        | .ok () => validateTable spec version kind table rest

/-- The keys of a table, sorted. -/
def sortedKeys (table : Registered Adapter) : List (String × ℕ) :=
  sortedBy (fun key => toLex (key.1, key.2)) (table.entries.map Sigma.fst)

/-- `validate_graphs`. -/
def validateGraphs (spec : String → Option KeyedSpec) (registry : Registry Adapter) :
    Except String Unit :=
  match validateTable spec (·.requestSchemaVersion) "request" registry.request
      (sortedKeys registry.request) with
  | .error detail => .error detail
  | .ok () => validateTable spec (·.resultSchemaVersion) "result" registry.result
      (sortedKeys registry.result)

/-- What the startup check reads of a retained row. -/
structure RetainedVersions where
  operationName : String
  requestVersion : ℕ
  resultVersion : Option ℕ
deriving DecidableEq

/-- One retained row in `check_keyed_replay_compatibility`. `lookup` finds a registered operation,
keyed or not. -/
def checkRetained (lookup : String → Option (Option KeyedSpec)) (registry : Registry Adapter)
    (row : RetainedVersions) : Except String Unit :=
  match lookup row.operationName with
  | none => .ok ()
  | some none => .error ("retains " ++ quoted row.operationName ++
      ", but the registered operation is no longer KEYED")
  | some (some keyed) =>
    match requirePath registry.request row.operationName row.requestVersion
        keyed.requestSchemaVersion "request" with
    | .error detail => .error detail
    | .ok () =>
      match row.resultVersion with
      | none => .ok ()
      | some version =>
        requirePath registry.result row.operationName version keyed.resultSchemaVersion "result"

/-- `check_keyed_replay_compatibility`, over the retained rows of every active workspace that have
not expired. -/
def checkKeyedReplayCompatibility (lookup : String → Option (Option KeyedSpec))
    (registry : Registry Adapter) (retained : List RetainedVersions) : Except String Unit :=
  match validateGraphs (fun name => (lookup name).join) registry with
  | .error detail => .error detail
  | .ok () => retained.dedup.forM (checkRetained lookup registry)

/-- What a composition does to the registry. -/
inductive RegistryAction (Adapter : Type) where
  | registerRequest (operationName : String) (fromVersion toVersion : ℕ) (adapter : Adapter)
  | registerResult (operationName : String) (fromVersion toVersion : ℕ) (adapter : Adapter)

/-- A refused registration raises before it writes. -/
def registryStep (s : Registry Adapter) : RegistryAction Adapter → Option (Registry Adapter)
  | .registerRequest operationName fromVersion toVersion adapter =>
    match register s.request operationName fromVersion toVersion adapter with
    | .error _ => some s
    | .ok table => some { s with request := table }
  | .registerResult operationName fromVersion toVersion adapter =>
    match register s.result operationName fromVersion toVersion adapter with
    | .error _ => some s
    | .ok table => some { s with result := table }

/-- A registry that nothing was registered with. -/
def registry (Adapter : Type) [DecidableEq Adapter] :
    Machine (Registry Adapter) (RegistryAction Adapter) :=
  ⟨fun s => s = ⟨∅, ∅⟩, registryStep⟩

end Rheostream.Adapters
