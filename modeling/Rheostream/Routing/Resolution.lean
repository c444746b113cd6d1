import Rheostream.Routing.Paths

/-!
# Requests for a link

The web tier answers a request for a link with the surface and the path of the link, where no other
surface claims the request.
-/

namespace Rheostream.Routing

open Web (ResolvedRequest resolveRequest urlHost urlPathname normalizePath hostName subPathOf
  isHostOf)

variable {config : RoutingConfig} {name path host pathname sub : Text} {spec : SurfaceConfig}
  {toLowerCase : Text → Text} {segments before : List Text}

/-- Hosts in lower case whose links have the host that requests are matched by, and paths of
segments: those of the modules are not the root, which the web tier never matches. -/
structure Plain (config : RoutingConfig) : Prop where
  baseHost : HostText config.baseHost
  publicHost : Ported config.baseHost config.publicHost
  shellHost : HostText config.surfaces.shell.host
  shellPath : ∃ before, PrefixOf before config.surfaces.shell.path
  hosts : ∀ m ∈ config.surfaces.modules, HostText m.2.host
  paths : config.mode = .path → ∀ m ∈ config.surfaces.modules,
    ∃ before, before ≠ [] ∧ PrefixOf before m.2.path

/-- A surface claims the request: the path is the surface's or continues it, or the host is the
surface's. -/
def Claims (toLowerCase : Text → Text) (config : RoutingConfig) (host pathname : Text)
    (spec : Web.SurfaceConfig) : Prop :=
  match config.mode with
  | .path => (subPathOf (normalizePath pathname) spec).isSome = true
  | .subdomain => isHostOf toLowerCase (Web.dump config) (hostName toLowerCase host) spec = true

/-- The request is for the one route of the shell that is reserved below its root. -/
def Reserved (config : RoutingConfig) (pathname : Text) : Prop :=
  config.mode = .path ∧ normalizePath pathname = Web.approvalPath (Web.dump config)

/-- The path inside a surface that claims the request. -/
def claimedPath (config : RoutingConfig) (pathname : Text) (spec : Web.SurfaceConfig) : Text :=
  match config.mode with
  | .path => (subPathOf (normalizePath pathname) spec).getD ROOT
  | .subdomain => normalizePath pathname

/-! ### The surface of a request -/

theorem entry_unique {spec' : Web.SurfaceConfig}
    (hnodup : (config.surfaces.modules.map Prod.fst).Nodup)
    (hmem : (name, spec) ∈ config.surfaces.modules)
    (hmem' : (name, spec') ∈ (Web.dump config).modules) : spec' = Web.dumpSurface spec := by
  obtain ⟨other, hother, rfl⟩ := mem_dump_modules.mp hmem'
  have hlookup := (lookup_eq_some_iff hnodup).mpr hmem
  rw [(lookup_eq_some_iff hnodup).mpr hother] at hlookup
  rw [Option.some.inj hlookup]

/-- A request that one module surface claims is answered by it. -/
theorem resolve_of_claims (hnodup : (config.surfaces.modules.map Prod.fst).Nodup)
    (hmem : (name, spec) ∈ config.surfaces.modules)
    (hclaims : Claims toLowerCase config host pathname (Web.dumpSurface spec))
    (honly : ∀ m ∈ (Web.dump config).modules,
      Claims toLowerCase config host pathname m.2 → m.1 = name)
    (hreserved : ¬Reserved config pathname) :
    resolveRequest toLowerCase (Web.dump config) host pathname =
      .module name (claimedPath config pathname (Web.dumpSurface spec)) := by
  have hentry : (name, Web.dumpSurface spec) ∈ (Web.dump config).modules :=
    mem_dump_modules.mpr ⟨spec, hmem, rfl⟩
  have hmode : (Web.dump config).mode = config.mode := rfl
  unfold resolveRequest claimedPath
  unfold Claims at hclaims honly
  unfold Reserved at hreserved
  rw [hmode]
  cases hcase : config.mode with
  | path =>
    simp only [hcase, true_and] at hclaims honly hreserved ⊢
    unfold Web.resolvePath
    simp only [hreserved, if_false]
    obtain ⟨sub, hsub⟩ := Option.isSome_iff_exists.mp hclaims
    have hfound : (Web.dump config).modules.findSome? (fun m =>
        (subPathOf (normalizePath pathname) m.2).map (ResolvedRequest.module m.1)) =
          some (.module name sub) := by
      cases hfind : (Web.dump config).modules.findSome? fun m =>
          (subPathOf (normalizePath pathname) m.2).map (ResolvedRequest.module m.1) with
      | none =>
        have hnone := List.findSome?_eq_none_iff.mp hfind _ hentry
        rw [hsub] at hnone
        cases hnone
      | some found =>
        obtain ⟨m, hm, hfound⟩ := List.exists_of_findSome?_eq_some hfind
        obtain ⟨sub', hsub', rfl⟩ := Option.map_eq_some_iff.mp hfound
        obtain ⟨name', spec'⟩ := m
        obtain rfl := honly _ hm (Option.isSome_of_eq_some hsub')
        obtain rfl := entry_unique hnodup hmem hm
        rw [Option.some.inj (hsub'.symm.trans hsub)]
    rw [hfound, hsub]
    rfl
  | subdomain =>
    simp only [hcase] at hclaims honly ⊢
    unfold Web.resolveHost
    cases hfind : (Web.dump config).modules.find? fun m =>
        isHostOf toLowerCase (Web.dump config) (hostName toLowerCase host) m.2 with
    | none => exact absurd hclaims (List.find?_eq_none.mp hfind _ hentry)
    | some m =>
      have hm := List.find?_some hfind
      have hname := honly m (List.mem_of_find?_eq_some hfind) hm
      simp only [hfind, hname]

/-- A request that no module surface claims is answered by the shell at its root. -/
theorem resolve_shell
    (hnone : ∀ m ∈ (Web.dump config).modules, ¬Claims toLowerCase config host pathname m.2)
    (hroot : config.mode = .path → normalizePath pathname = Web.shellRoot (Web.dump config))
    (hhost : config.mode = .subdomain → normalizePath pathname = ROOT ∧
      isHostOf toLowerCase (Web.dump config) (hostName toLowerCase host)
        (Web.dump config).shell = true) :
    resolveRequest toLowerCase (Web.dump config) host pathname = .shell := by
  have hmode : (Web.dump config).mode = config.mode := rfl
  unfold resolveRequest
  unfold Claims at hnone
  rw [hmode]
  cases hcase : config.mode with
  | path =>
    simp only [hcase] at hnone ⊢
    unfold Web.resolvePath
    have happroval : normalizePath pathname ≠ Web.approvalPath (Web.dump config) := by
      rw [hroot hcase, Web.approvalPath]
      split
      · rename_i hshell
        rw [hshell]
        decide
      · intro hself
        have hlength := congrArg List.length hself
        rw [List.length_append] at hlength
        have hpositive : 0 < Web.APPROVAL_DETAIL.length := by decide
        omega
    have hfound : (Web.dump config).modules.findSome? (fun m =>
        (subPathOf (normalizePath pathname) m.2).map (ResolvedRequest.module m.1)) = none := by
      rw [List.findSome?_eq_none_iff]
      intro m hm
      rw [Option.map_eq_none_iff, ← Option.not_isSome_iff_eq_none]
      exact hnone m hm
    dsimp only
    rw [if_neg happroval, hfound]
    exact if_pos (hroot hcase)
  | subdomain =>
    simp only [hcase] at hnone ⊢
    unfold Web.resolveHost
    have hfound : (Web.dump config).modules.find? (fun m =>
        isHostOf toLowerCase (Web.dump config) (hostName toLowerCase host) m.2) = none := by
      rw [List.find?_eq_none]
      exact hnone
    obtain ⟨hpath, hshell⟩ := hhost hcase
    simp only [hfound, hshell, hpath, if_true]

/-- A module surface that answers a request claims it. -/
theorem claims_of_resolve
    (hresolve : resolveRequest toLowerCase (Web.dump config) host pathname = .module name sub) :
    ∃ spec, (name, spec) ∈ config.surfaces.modules ∧
      Claims toLowerCase config host pathname (Web.dumpSurface spec) ∧
        sub = claimedPath config pathname (Web.dumpSurface spec) := by
  have hmode : (Web.dump config).mode = config.mode := rfl
  unfold resolveRequest at hresolve
  unfold Claims claimedPath
  rw [hmode] at hresolve
  cases hcase : config.mode with
  | path =>
    simp only [hcase] at hresolve ⊢
    unfold Web.resolvePath at hresolve
    simp only at hresolve
    split at hresolve
    · cases hresolve
    · cases hfind : (Web.dump config).modules.findSome? fun m =>
          (subPathOf (normalizePath pathname) m.2).map (ResolvedRequest.module m.1) with
      | none =>
        rw [hfind] at hresolve
        simp only at hresolve
        split at hresolve <;> cases hresolve
      | some found =>
        rw [hfind] at hresolve
        obtain ⟨m, hm, hfound⟩ := List.exists_of_findSome?_eq_some hfind
        obtain ⟨sub', hsub', rfl⟩ := Option.map_eq_some_iff.mp hfound
        obtain ⟨rfl, rfl⟩ := ResolvedRequest.module.inj hresolve
        obtain ⟨spec, hmem, hspec⟩ := mem_dump_modules.mp hm
        rw [hspec] at hsub'
        refine ⟨spec, hmem, Option.isSome_of_eq_some hsub', ?_⟩
        rw [hsub', Option.getD_some]
  | subdomain =>
    simp only [hcase] at hresolve ⊢
    unfold Web.resolveHost at hresolve
    simp only at hresolve
    cases hfind : (Web.dump config).modules.find? fun m =>
        isHostOf toLowerCase (Web.dump config) (hostName toLowerCase host) m.2 with
    | none =>
      rw [hfind] at hresolve
      simp only at hresolve
      split at hresolve
      · split at hresolve
        · cases hresolve
        · split at hresolve <;> cases hresolve
      · cases hresolve
    | some m =>
      rw [hfind] at hresolve
      obtain ⟨rfl, rfl⟩ := ResolvedRequest.module.inj hresolve
      obtain ⟨spec, hmem, hspec⟩ := mem_dump_modules.mp (List.mem_of_find?_eq_some hfind)
      have hm := List.find?_some hfind
      rw [hspec] at hm
      exact ⟨spec, hmem, hm, rfl⟩

/-- A request that the shell answers is for its root. -/
theorem root_of_resolve
    (hresolve : resolveRequest toLowerCase (Web.dump config) host pathname = .shell) :
    (config.mode = .path → normalizePath pathname = Web.shellRoot (Web.dump config)) ∧
      (config.mode = .subdomain → normalizePath pathname = ROOT ∧
        isHostOf toLowerCase (Web.dump config) (hostName toLowerCase host)
          (Web.dump config).shell = true) := by
  have hmode : (Web.dump config).mode = config.mode := rfl
  unfold resolveRequest at hresolve
  rw [hmode] at hresolve
  cases hcase : config.mode with
  | path =>
    simp only [hcase] at hresolve
    unfold Web.resolvePath at hresolve
    dsimp only at hresolve
    split at hresolve
    · cases hresolve
    · split at hresolve
      · rename_i found hfind
        obtain ⟨m, -, hfound⟩ := List.exists_of_findSome?_eq_some hfind
        obtain ⟨sub, -, rfl⟩ := Option.map_eq_some_iff.mp hfound
        cases hresolve
      · split at hresolve
        · rename_i hroot
          exact ⟨fun _ => hroot, fun h => by cases h⟩
        · cases hresolve
  | subdomain =>
    simp only [hcase] at hresolve
    unfold Web.resolveHost at hresolve
    dsimp only at hresolve
    split at hresolve
    · cases hresolve
    · split at hresolve
      · rename_i hshell
        split at hresolve
        · rename_i hroot
          exact ⟨fun h => (by cases h), fun _ => ⟨hroot, hshell⟩⟩
        · split at hresolve <;> cases hresolve
      · cases hresolve

end Rheostream.Routing
