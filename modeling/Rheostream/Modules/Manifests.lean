import Rheostream.Work.CatchUp

/-!
# Manifests and deployments

What a deployment loads: the manifests of `modules/manifest.py` as far as install, enable and
upgrade read them, and the loader's `_dependency_order`, which decides whether a set of
manifests may be loaded together. Version arithmetic is the `packaging` library's and is a
parameter.
-/

namespace Rheostream

/-- Another module a manifest needs, and the versions that satisfy it. -/
structure Dependency where
  moduleId : String
  versionRange : String
  optional : Bool
deriving DecidableEq

/-- A settings key of a module's `configuration_schema`, its default already encoded. -/
structure KeySpec where
  key : String
  default : String
  type : String
  explicitPerWorkspace : Bool
deriving DecidableEq

/-- What one version of a module declares. -/
structure ModuleManifest where
  moduleId : String
  packageVersion : String
  coreContractVersions : List ℕ
  dependencies : List Dependency
  requiredExtensions : List String
  configurationSchema : List KeySpec
  schedules : List ScheduleDeclaration
deriving DecidableEq

/-- One migration of a module's chain, with the two markers an upgrade reads. -/
structure Revision where
  id : String
  nonDestructiveUpgrade : Option Bool
  destructive : Option Bool
deriving DecidableEq

/-- The version arithmetic, and the manifest that each version of a module ships. -/
structure Packages where
  /-- `SpecifierSet(range).contains(version)`. -/
  contains : String → String → Bool
  /-- `Version(a) > Version(b)`. -/
  newer : String → String → Bool
  manifest : String → String → ModuleManifest

/-- The manifests by module id; a later one of the same id replaces an earlier one. -/
def manifestsById (manifests : List ModuleManifest) : Table String ModuleManifest :=
  manifests.foldl (fun t m => t.insert m.moduleId m) ∅

private theorem mem_of_lookup_foldl {manifests : List ModuleManifest}
    {t : Table String ModuleManifest} {id : String} {m : ModuleManifest}
    (h : (manifests.foldl (fun t m => t.insert m.moduleId m) t).lookup id = some m) :
    m ∈ manifests ∧ m.moduleId = id ∨ t.lookup id = some m := by
  induction manifests generalizing t with
  | nil => exact Or.inr h
  | cons first rest ih =>
    obtain ⟨hmem, hid⟩ | hlookup := ih h
    · exact Or.inl ⟨List.mem_cons_of_mem _ hmem, hid⟩
    · rw [Table.lookup_insert] at hlookup
      split at hlookup
      · next hid =>
        obtain rfl := Option.some.inj hlookup
        exact Or.inl ⟨List.mem_cons_self, hid.symm⟩
      · exact Or.inr hlookup

/-- What is found under an id is one of the manifests, and it has that id. -/
theorem mem_of_manifestsById {manifests : List ModuleManifest} {id : String} {m : ModuleManifest}
    (h : (manifestsById manifests).lookup id = some m) : m ∈ manifests ∧ m.moduleId = id := by
  obtain hmem | hempty := mem_of_lookup_foldl h
  · exact hmem
  · simp at hempty

/-- Why a set of manifests is refused. -/
inductive ManifestInvalid where
  /-- A required dependency that this deployment did not load. -/
  | notLoaded (moduleId dependency versionRange : String)
  /-- A loaded dependency, required or optional, at a version outside the declared range. -/
  | outOfRange (moduleId dependency versionRange version : String)
  /-- The modules that wait for one another. -/
  | cycle (modules : List String)
deriving DecidableEq

section Loading

variable (pkgs : Packages)

/-- The body of the inner loop: what one declared dependency refuses. -/
def dependencyProblem (byId : Table String ModuleManifest) (m : ModuleManifest)
    (d : Dependency) : Option ManifestInvalid :=
  match byId.lookup d.moduleId with
  | none => if d.optional then none else some (.notLoaded m.moduleId d.moduleId d.versionRange)
  | some required =>
    if pkgs.contains d.versionRange required.packageVersion then none
    else some (.outOfRange m.moduleId d.moduleId d.versionRange required.packageVersion)

/-- The loaded predecessors of a module id, over every manifest published under it. -/
def predecessors (manifests : List ModuleManifest) (id : String) : List String :=
  ((manifests.filter fun m => m.moduleId = id).flatMap ModuleManifest.dependencies).filterMap
    fun d => ((manifestsById manifests).lookup d.moduleId).map fun _ => d.moduleId

/-- `TopologicalSorter(graph).static_order()`: in each round, every node whose predecessors are
all done. The rounds are bounded by the number of nodes, since each emits one. -/
def staticOrder (before : String → List String) :
    ℕ → List String → List String → Except ManifestInvalid (List String)
  | _, done, [] => .ok done
  | 0, _, waiting => .error (.cycle waiting)
  | rounds + 1, done, waiting =>
    let ready := waiting.filter fun id => (before id).all fun p => p ∈ done
    if ready.isEmpty then .error (.cycle waiting)
    else staticOrder before rounds (done ++ ready) (waiting.filter fun id => !(id ∈ ready))

/-- `_dependency_order`. -/
def dependencyOrder (manifests : List ModuleManifest) :
    Except ManifestInvalid (List ModuleManifest) :=
  let byId := manifestsById manifests
  match manifests.findSome? fun m => m.dependencies.findSome? (dependencyProblem pkgs byId m) with
  | some problem => .error problem
  | none => do
    let ids := (manifests.map ModuleManifest.moduleId).dedup
    let order ← staticOrder (predecessors manifests) ids.length [] ids
    return order.flatMap fun id => manifests.filter fun m => m.moduleId = id

/-- In an accepted set every declared dependency is loaded at a version in its range, or is
optional and not loaded at all. -/
theorem dependency_of_accepted {manifests order : List ModuleManifest}
    (hok : dependencyOrder pkgs manifests = .ok order) {m : ModuleManifest} (hm : m ∈ manifests)
    {d : Dependency} (hd : d ∈ m.dependencies) :
    dependencyProblem pkgs (manifestsById manifests) m d = none := by
  unfold dependencyOrder at hok
  dsimp only at hok
  split at hok
  · cases hok
  · next hnone =>
    have hpass := List.findSome?_eq_none_iff.mp hnone m hm
    exact List.findSome?_eq_none_iff.mp hpass d hd

end Loading

/-- A deployment: the manifests it loads, which the loader accepts together, and the migration
chain that its code has for each module, oldest revision first. -/
structure Deployment (pkgs : Packages) where
  manifests : List ModuleManifest
  accepted : (dependencyOrder pkgs manifests).isOk = true
  /-- A version of a module ships one manifest. -/
  shipped : ∀ m ∈ manifests, pkgs.manifest m.moduleId m.packageVersion = m
  chain : String → List Revision

namespace Deployment

variable {pkgs : Packages} (D : Deployment pkgs)

/-- `loaded_manifests()`. -/
def loadedManifests : Table String ModuleManifest := manifestsById D.manifests

/-- The version of a module that this deployment loads, if it loads the module. -/
def version (id : String) : Option String :=
  (D.loadedManifests.lookup id).map ModuleManifest.packageVersion

/-- `expected_heads`: the last revision of the chain. -/
def expectedHead (id : String) : Option String := (D.chain id).getLast?.map Revision.id

variable {D}

theorem shipped_of_loaded {id : String} {m : ModuleManifest}
    (h : D.loadedManifests.lookup id = some m) : pkgs.manifest id m.packageVersion = m := by
  obtain ⟨hmem, rfl⟩ := mem_of_manifestsById h
  exact D.shipped m hmem

theorem version_eq_some {id version : String} :
    D.version id = some version ↔
      ∃ m, D.loadedManifests.lookup id = some m ∧ m.packageVersion = version :=
  Option.map_eq_some_iff

theorem version_of_loaded {id : String} {m : ModuleManifest}
    (h : D.loadedManifests.lookup id = some m) : D.version id = some m.packageVersion := by
  rw [version, h, Option.map_some]

/-- A deployment that loads a module loads each of its dependencies at a version in the range
the module declares, unless it does not load the dependency at all. -/
theorem contains_of_loaded {id version version' : String} (hid : D.version id = some version)
    {d : Dependency} (hd : d ∈ (pkgs.manifest id version).dependencies)
    (hdep : D.version d.moduleId = some version') :
    pkgs.contains d.versionRange version' = true := by
  obtain ⟨m, hlookup, rfl⟩ := version_eq_some.mp hid
  obtain ⟨required, hrequired, rfl⟩ := version_eq_some.mp hdep
  rw [shipped_of_loaded hlookup] at hd
  obtain ⟨order, hok⟩ : ∃ order, dependencyOrder pkgs D.manifests = .ok order := by
    have haccepted := D.accepted
    cases hresult : dependencyOrder pkgs D.manifests with
    | error problem => simp [hresult, Except.isOk, Except.toBool] at haccepted
    | ok order => exact ⟨order, rfl⟩
  have hnone := dependency_of_accepted pkgs hok (mem_of_manifestsById hlookup).1 hd
  unfold dependencyProblem at hnone
  rw [show (manifestsById D.manifests).lookup d.moduleId = some required from hrequired] at hnone
  by_contra hcontains
  simp [hcontains] at hnone

end Deployment

end Rheostream
