import Rheostream.Routing.Resolution

/-!
# Links resolve

Links of both implementations, and the requests that they make.
-/

namespace Rheostream.Routing

open Web (ResolvedRequest resolveRequest urlHost urlPathname normalizePath hostName subPathOf
  isHostOf)

variable {settings : RoutingSettings} {manifests : List ModuleManifest} {config : RoutingConfig}
  {name path host pathname sub : Text} {spec : SurfaceConfig} {toLowerCase : Text → Text}
  {segments before : List Text}

/-! ### The link of a surface -/

/-- What `from_settings` makes of the shell and of module surfaces. -/
structure Built (config : RoutingConfig) : Prop where
  nodup : (config.surfaces.modules.map Prod.fst).Nodup
  shell : ∃ host path, config.surfaces.shell = surfaceConfig host path
  modules : ∀ m ∈ config.surfaces.modules, ∃ host path, m.2 = surfaceConfig host path

theorem built_of_routingConfig (hbuilt : routingConfig settings manifests = some config) :
    Built config := by
  have hnodup := nodup_modules hbuilt
  obtain ⟨-, hsettings⟩ := Option.ite_none_right_eq_some.mp hbuilt
  obtain ⟨-, hsettings⟩ := Option.ite_none_right_eq_some.mp hsettings
  obtain ⟨hosts, -, rfl⟩ := Option.map_eq_some_iff.mp hsettings
  refine ⟨hnodup, ⟨_, _, rfl⟩, ?_⟩
  rintro ⟨name, spec⟩ hmem
  obtain ⟨manifest, -, hweb⟩ := List.mem_filterMap.mp hmem
  obtain ⟨web, -, hspec⟩ := Option.map_eq_some_iff.mp hweb
  exact ⟨web.host, web.path, (Prod.mk.inj hspec).2.symm⟩

/-- The authority of the links of a surface. -/
def linkAuthority (config : RoutingConfig) (spec : SurfaceConfig) : Text :=
  match config.mode with
  | .path => config.publicHost
  | .subdomain => spec.host ++ '.' :: config.publicHost

/-- The prefix of the links of a surface that has no fixed path. -/
def linkPrefix (config : RoutingConfig) (spec : SurfaceConfig) : Text :=
  match config.mode with
  | .path => spec.path
  | .subdomain => []

theorem urlFor_of_get (hget : config.surfaces.get name = some spec)
    (hspec : ∃ host path, spec = surfaceConfig host path) : urlFor config name path =
      some (config.scheme.text ++ "://".toList ++
        (linkAuthority config spec ++ joinPrefix (linkPrefix config spec) path)) := by
  obtain ⟨host, specPath, rfl⟩ := hspec
  unfold urlFor linkAuthority linkPrefix
  rw [hget]
  cases config.mode <;> rfl

theorem get_module (hbuilt : Built config) (hmem : (name, spec) ∈ config.surfaces.modules)
    (hname : name ∉ namedSurfaces) : config.surfaces.get name = some spec := by
  have hnamed : config.surfaces.named.lookup name = none := by
    rw [List.lookup_eq_none_iff]
    intro m hm
    have hne : m.1 ∈ namedSurfaces := by
      simp only [Surfaces.named, List.mem_cons, List.not_mem_nil, or_false] at hm
      obtain rfl | rfl | rfl | rfl | rfl | rfl := hm <;> simp [namedSurfaces]
    rw [bne_iff_ne]
    rintro rfl
    exact hname hne
  rw [Surfaces.get, hnamed, Option.none_or]
  exact (lookup_eq_some_iff hbuilt.nodup).mpr hmem

theorem Plain.linkAuthority (hplain : Plain config) (hhost : HostText spec.host) :
    ∀ c ∈ linkAuthority config spec, Web.isDelimiter c = false := by
  intro c hc
  apply delimiter_of_chars
  unfold Routing.linkAuthority at hc
  cases hmode : config.mode with
  | path =>
    rw [hmode] at hc
    exact hplain.publicHost.chars hplain.baseHost c hc
  | subdomain =>
    rw [hmode] at hc
    obtain hc | hc := List.mem_append.mp hc
    · exact .inl (hhost c hc)
    · obtain rfl | hc := List.mem_cons.mp hc
      · exact .inl (by decide)
      · exact hplain.publicHost.chars hplain.baseHost c hc

/-- The name of a link's host is that of the surface. -/
theorem hostName_link (hlower : LowersAscii toLowerCase) (hplain : Plain config)
    (hhost : HostText spec.host) (hmode : config.mode = .subdomain) :
    hostName toLowerCase (linkAuthority config spec) = spec.host ++ '.' :: config.baseHost := by
  unfold linkAuthority
  rw [hmode]
  apply hostName_of hlower
  · intro c hc
    obtain hc | hc := List.mem_append.mp hc
    · exact hhost c hc
    · obtain rfl | hc := List.mem_cons.mp hc
      · decide
      · exact hplain.baseHost c hc
  · obtain ⟨port, hpublic, hport⟩ := hplain.publicHost
    exact ⟨port, by rw [hpublic, List.append_assoc, List.cons_append], hport⟩

theorem lower_host (hlower : LowersAscii toLowerCase) (hhost : HostText host) :
    toLowerCase host = host := by
  refine hlower host fun c hc => ?_
  have hn := toNat_of_isHostChar (hhost c hc)
  omega

theorem isHostOf_iff (hlower : LowersAscii toLowerCase) (hplain : Plain config)
    (hhost : HostText spec.host) :
    isHostOf toLowerCase (Web.dump config) name (Web.dumpSurface spec) = true ↔
      name = spec.host ++ '.' :: config.baseHost := by
  unfold isHostOf
  rw [decide_eq_true_iff]
  change name = toLowerCase spec.host ++ '.' :: toLowerCase config.baseHost ↔ _
  rw [lower_host hlower hhost, lower_host hlower hplain.baseHost]

/-- The path inside a surface, of a link of the surface. -/
theorem subPathOf_tidy (hne : before ≠ []) (hstart : PrefixOf before spec.path)
    (hsegments : ∀ segment ∈ segments, UrlSegment segment) :
    subPathOf (tidy (before ++ segments)) (Web.dumpSurface spec) = some (tidy segments) := by
  obtain ⟨hempty, -⟩ | ⟨-, hbefore, hpath⟩ := hstart
  · exact absurd hempty hne
  have hroot := slashed_ne_root hne hbefore
  have hjoined : tidy (before ++ segments) = slashed before ++ slashed segments := by
    rw [tidy, if_neg (by simp [hne]), slashed_append]
  have hnormal : normalizePath spec.path = slashed before := by
    rw [normalizePath_start (.inr ⟨hne, hbefore, hpath⟩), tidy, if_neg hne]
  rw [hjoined]
  unfold subPathOf
  simp only [Web.dumpSurface]
  rw [hnormal, if_neg fun h => hroot (.inr h)]
  by_cases hempty : segments = []
  · subst hempty
    rw [if_pos (by simp [slashed])]
    rfl
  · obtain ⟨rest, hrest⟩ := slashed_lead hempty
    have hcontinues :
        (slashed before ++ ROOT).isPrefixOf (slashed before ++ '/' :: rest) = true := by
      rw [List.isPrefixOf_iff_prefix]
      exact ⟨rest, by simp [ROOT]⟩
    rw [tidy, if_neg hempty, hrest, if_neg (by simp), if_pos hcontinues, List.drop_left]

/-- A link comes apart into its authority and its path. -/
theorem link_split (path : Text) (hplain : Plain config) (hhost : HostText spec.host)
    (hstart : PrefixOf before (linkPrefix config spec))
    (hquery : ∀ c ∈ joinPrefix (linkPrefix config spec) path, c ≠ '?' ∧ c ≠ '#') :
    urlHost (config.scheme.text ++ "://".toList ++
        (linkAuthority config spec ++ joinPrefix (linkPrefix config spec) path)) =
        linkAuthority config spec ∧
      urlPathname (config.scheme.text ++ "://".toList ++
        (linkAuthority config spec ++ joinPrefix (linkPrefix config spec) path)) =
        joinPrefix (linkPrefix config spec) path := by
  obtain ⟨rest, hrest⟩ := joinPrefix_lead path hstart
  rw [hrest] at hquery ⊢
  exact url_split (hplain.linkAuthority hhost) hquery

theorem linkPrefix_module (hplain : Plain config) (hmem : (name, spec) ∈ config.surfaces.modules) :
    ∃ before, (config.mode = .path → before ≠ []) ∧ PrefixOf before (linkPrefix config spec) := by
  unfold linkPrefix
  cases hmode : config.mode with
  | path =>
    obtain ⟨before, hne, hstart⟩ := hplain.paths hmode _ hmem
    exact ⟨before, fun _ => hne, hstart⟩
  | subdomain => exact ⟨[], fun h => (by cases h), .inl ⟨rfl, .inl rfl⟩⟩

/-- The surface of a link claims the request that the link makes, with the path of the link. -/
theorem claims_link (hlower : LowersAscii toLowerCase) (hplain : Plain config)
    (hhost : HostText spec.host) (hne : config.mode = .path → before ≠ [])
    (hstart : PrefixOf before (linkPrefix config spec)) (hpath : PathOf segments path)
    (hurlHost : host = linkAuthority config spec)
    (hurlPath : pathname = joinPrefix (linkPrefix config spec) path) :
    Claims toLowerCase config host pathname (Web.dumpSurface spec) ∧
      claimedPath config pathname (Web.dumpSurface spec) = normalizePath path := by
  have hnormal : normalizePath pathname = tidy (before ++ segments) := by
    rw [hurlPath]
    exact normalizePath_of (pathOf_join hstart hpath)
  rw [normalizePath_of hpath]
  unfold Claims claimedPath
  unfold linkPrefix at hstart
  cases hmode : config.mode with
  | path =>
    rw [hmode] at hstart
    have hsub := subPathOf_tidy (hne hmode) hstart hpath.1
    simp only
    rw [hnormal, hsub]
    exact ⟨rfl, rfl⟩
  | subdomain =>
    simp only
    constructor
    · rw [isHostOf_iff hlower hplain hhost, hurlHost]
      exact hostName_link hlower hplain hhost hmode
    · rw [hmode] at hstart
      obtain ⟨rfl, -⟩ | ⟨hbefore, hsegments, hempty⟩ := hstart
      · exact hnormal
      · exact absurd (.inl hempty.symm) (slashed_ne_root hbefore hsegments)

/-- The link of the shell's root. -/
theorem shell_link (hbuilt : Built config) (hplain : Plain config)
    (hpath : path = [] ∨ path = ROOT) : ∃ url, urlFor config SHELL path = some url ∧
      urlHost url = linkAuthority config config.surfaces.shell ∧
      (config.mode = .path → normalizePath (urlPathname url) = Web.shellRoot (Web.dump config)) ∧
      (config.mode = .subdomain → normalizePath (urlPathname url) = ROOT) := by
  have hpathOf : PathOf [] path := by
    refine ⟨by simp, .inr ?_⟩
    obtain rfl | rfl := hpath <;> rfl
  have hstart : ∃ before, PrefixOf before (linkPrefix config config.surfaces.shell) ∧
      (config.mode = .path → PrefixOf before config.surfaces.shell.path) ∧
      (config.mode = .subdomain → before = []) := by
    unfold linkPrefix
    cases config.mode with
    | path =>
      obtain ⟨before, hstart⟩ := hplain.shellPath
      exact ⟨before, hstart, fun _ => hstart, fun h => by cases h⟩
    | subdomain => exact ⟨[], .inl ⟨rfl, .inl rfl⟩, fun h => (by cases h), fun _ => rfl⟩
  obtain ⟨before, hstart, hshellStart, hempty⟩ := hstart
  have hjoined := pathOf_join hstart hpathOf
  obtain ⟨rest, hrest⟩ := joinPrefix_lead path hstart
  obtain ⟨hurlHost, hurlPath⟩ := link_split path hplain hplain.shellHost hstart (by
    rw [hrest] at hjoined ⊢
    exact no_query_of_pathOf hjoined)
  have hnormal := normalizePath_of hjoined
  rw [List.append_nil] at hnormal
  refine ⟨_, urlFor_of_get rfl hbuilt.shell, hurlHost, fun hmode => ?_, fun hmode => ?_⟩
  · rw [hurlPath, hnormal, ← normalizePath_start (hshellStart hmode)]
    rfl
  · rw [hurlPath, hnormal, hempty hmode]
    rfl

/-! ### The law -/

/-- What holds of the links of a configuration and the requests that they make. -/
structure RoutingLaw (toLowerCase : Text → Text) (config : RoutingConfig) : Prop where
  /-- The two implementations give one URL or refuse both, for a name that objects do not
  inherit. -/
  agree : ∀ name path, name ∉ Web.inheritedNames →
    Web.urlFor (Web.dump config) name path = urlFor config name path
  hosts : ∀ host, host ∈ Web.applicationHosts (Web.dump config) ↔ host ∈ applicationHosts config
  /-- The link of the shell's root is answered by the shell, unless a module surface claims it. -/
  shell : Plain config → ∀ path, path = [] ∨ path = ROOT →
    ∃ url, urlFor config SHELL path = some url ∧
      ((∀ m ∈ (Web.dump config).modules,
          ¬Claims toLowerCase config (urlHost url) (urlPathname url) m.2) →
        resolveRequest toLowerCase (Web.dump config) (urlHost url) (urlPathname url) = .shell)
  /-- A link of a module surface is answered by the surface, with its path, unless another one
  claims it, or it is the reserved route. -/
  modules : Plain config → ∀ name spec, (name, spec) ∈ config.surfaces.modules →
    name ∉ namedSurfaces → ∀ segments path, PathOf segments path →
      ∃ url, urlFor config name path = some url ∧
        ((∀ m ∈ (Web.dump config).modules,
            Claims toLowerCase config (urlHost url) (urlPathname url) m.2 → m.1 = name) →
          ¬Reserved config (urlPathname url) →
            resolveRequest toLowerCase (Web.dump config) (urlHost url) (urlPathname url) =
              .module name (normalizePath path))
  /-- A request that one surface claims resolves to that one, unless it is the reserved route. -/
  single : ∀ host pathname name spec, (name, spec) ∈ config.surfaces.modules →
    Claims toLowerCase config host pathname (Web.dumpSurface spec) →
      (∀ m ∈ (Web.dump config).modules, Claims toLowerCase config host pathname m.2 →
        m.1 = name) → ¬Reserved config pathname →
      ∃ sub, resolveRequest toLowerCase (Web.dump config) host pathname = .module name sub
  /-- The surface of a request has it as a link: the path is the same up to a trailing slash, and in
  subdomain mode the host is. -/
  linked : Plain config → ∀ host pathname name sub, (∀ c ∈ pathname, c ≠ '?' ∧ c ≠ '#') →
    resolveRequest toLowerCase (Web.dump config) host pathname = .module name sub →
      name ∉ namedSurfaces → ∃ url, urlFor config name sub = some url ∧
        (urlPathname url = normalizePath pathname ∨
          urlPathname url = normalizePath pathname ++ ROOT) ∧
        (config.mode = .subdomain →
          hostName toLowerCase (urlHost url) = hostName toLowerCase host)
  /-- A request that the shell answers has the shell's root as its link. -/
  shellLinked : Plain config → ∀ host pathname,
    resolveRequest toLowerCase (Web.dump config) host pathname = .shell →
      ∃ url, urlFor config SHELL ROOT = some url ∧
        normalizePath (urlPathname url) = normalizePath pathname ∧
        (config.mode = .subdomain →
          hostName toLowerCase (urlHost url) = hostName toLowerCase host)

theorem normalizePath_lead (path : Text) : ∃ rest, normalizePath path = '/' :: rest := by
  rw [normalizePath_eq]
  obtain ⟨rest, hrest⟩ := withLead_lead path
  by_cases hroot : withLead path = ROOT
  · rw [if_pos hroot]
    exact ⟨[], rfl⟩
  · rw [if_neg hroot]
    by_cases hlast : ROOT.isSuffixOf (withLead path) = true
    · rw [if_pos hlast, hrest]
      cases rest with
      | nil => exact absurd hrest hroot
      | cons c rest => exact ⟨(c :: rest).dropLast, by rw [List.dropLast_cons_cons]⟩
    · rw [if_neg hlast]
      exact ⟨rest, hrest⟩

/-- A normal path has no other characters. -/
theorem mem_normalizePath {c : Char} (hc : c ∈ normalizePath path) : c ∈ path ∨ c = '/' := by
  have hlead : ∀ c ∈ withLead path, c ∈ path ∨ c = '/' := by
    intro c hc
    unfold withLead at hc
    split at hc
    · exact .inl hc
    · obtain rfl | hc := List.mem_cons.mp hc
      · exact .inr rfl
      · exact .inl hc
  rw [normalizePath_eq] at hc
  split at hc
  · exact .inr (List.mem_singleton.mp hc)
  · split at hc
    · exact hlead c ((List.dropLast_sublist _).subset hc)
    · exact hlead c hc

/-- The link of a surface for the path inside it, of a request that it claims. -/
theorem link_of_claims (hplain : Plain config) (hmem : (name, spec) ∈ config.surfaces.modules)
    (hclaims : Claims toLowerCase config host pathname (Web.dumpSurface spec)) :
    joinPrefix (linkPrefix config spec) (claimedPath config pathname (Web.dumpSurface spec)) =
        normalizePath pathname ∨
      joinPrefix (linkPrefix config spec) (claimedPath config pathname (Web.dumpSurface spec)) =
        normalizePath pathname ++ ROOT := by
  unfold Claims at hclaims
  unfold linkPrefix claimedPath
  cases hmode : config.mode with
  | path =>
    simp only [hmode] at hclaims ⊢
    obtain ⟨before, hne, hstart⟩ := hplain.paths hmode _ hmem
    obtain ⟨hempty, -⟩ | ⟨-, hbefore, hpath⟩ := hstart
    · exact absurd hempty hne
    dsimp only at hpath
    have hroot := slashed_ne_root hne hbefore
    have hnormal : normalizePath spec.path = spec.path := by
      rw [normalizePath_start (.inr ⟨hne, hbefore, hpath⟩), tidy, if_neg hne, hpath]
    rw [← hpath] at hroot
    have hnotRoot : spec.path ≠ ROOT := fun h => hroot (.inr h)
    rw [joinPrefix_eq, if_neg hroot]
    unfold subPathOf at hclaims ⊢
    simp only [Web.dumpSurface, hnormal, if_neg hnotRoot] at hclaims ⊢
    by_cases hsame : normalizePath pathname = spec.path
    · rw [if_pos hsame, hsame]
      exact .inr rfl
    · rw [if_neg hsame] at hclaims ⊢
      by_cases hcontinues : (spec.path ++ ROOT).isPrefixOf (normalizePath pathname) = true
      · obtain ⟨rest, hrest⟩ := List.isPrefixOf_iff_prefix.mp hcontinues
        rw [if_pos hcontinues, Option.getD_some, ← hrest, List.append_assoc, List.drop_left]
        exact .inl (congrArg (spec.path ++ ·) withLead_of_lead)
      · rw [if_neg hcontinues] at hclaims
        cases hclaims
  | subdomain =>
    obtain ⟨rest, hrest⟩ := normalizePath_lead pathname
    simp only [hrest]
    exact .inl withLead_of_lead

/-- The links resolve to the surfaces that they name, and the two implementations agree. -/
theorem links_resolve (hlower : LowersAscii toLowerCase)
    (hconfig : routingConfig settings manifests = some config) : RoutingLaw toLowerCase config := by
  have hbuilt := built_of_routingConfig hconfig
  constructor
  case agree => exact fun name path hname => urlFor_dump hbuilt.nodup hname
  case hosts => exact fun host => mem_applicationHosts
  case shell =>
    intro hplain path hpath
    obtain ⟨url, hurl, hhost, hroot, hempty⟩ := shell_link hbuilt hplain hpath
    refine ⟨url, hurl, fun hnone => ?_⟩
    refine resolve_shell hnone hroot fun hmode => ⟨hempty hmode, ?_⟩
    rw [hhost]
    exact (isHostOf_iff hlower hplain hplain.shellHost).mpr
      (hostName_link hlower hplain hplain.shellHost hmode)
  case modules =>
    intro hplain name spec hmem hname segments path hpath
    obtain ⟨before, hne, hstart⟩ := linkPrefix_module hplain hmem
    have hhost := hplain.hosts _ hmem
    have hjoined := pathOf_join hstart hpath
    obtain ⟨rest, hrest⟩ := joinPrefix_lead path hstart
    obtain ⟨hurlHost, hurlPath⟩ := link_split path hplain hhost hstart (by
      rw [hrest] at hjoined ⊢
      exact no_query_of_pathOf hjoined)
    refine ⟨_, urlFor_of_get (get_module hbuilt hmem hname) (hbuilt.modules _ hmem),
      fun honly hreserved => ?_⟩
    obtain ⟨hclaims, hclaimed⟩ :=
      claims_link hlower hplain hhost hne hstart hpath hurlHost hurlPath
    rw [resolve_of_claims hbuilt.nodup hmem hclaims honly hreserved, hclaimed]
  case single =>
    intro host pathname name spec hmem hclaims honly hreserved
    exact ⟨_, resolve_of_claims hbuilt.nodup hmem hclaims honly hreserved⟩
  case linked =>
    intro hplain host pathname name sub hquery hresolve hname
    obtain ⟨spec, hmem, hclaims, rfl⟩ := claims_of_resolve hresolve
    obtain ⟨before, hne, hstart⟩ := linkPrefix_module hplain hmem
    have hhost := hplain.hosts _ hmem
    have hjoined := link_of_claims hplain hmem hclaims
    have hnormal : ∀ c ∈ normalizePath pathname ++ ROOT, c ≠ '?' ∧ c ≠ '#' := by
      intro c hc
      obtain hc | hc := List.mem_append.mp hc
      · obtain hc | rfl := mem_normalizePath hc
        · exact hquery c hc
        · decide
      · obtain rfl := List.mem_singleton.mp hc
        decide
    obtain ⟨hurlHost, hurlPath⟩ := link_split
      (claimedPath config pathname (Web.dumpSurface spec)) hplain hhost hstart (by
        intro c hc
        obtain hjoined | hjoined := hjoined
        · rw [hjoined] at hc
          exact hnormal c (List.mem_append_left _ hc)
        · rw [hjoined] at hc
          exact hnormal c hc)
    refine ⟨_, urlFor_of_get (get_module hbuilt hmem hname) (hbuilt.modules _ hmem), ?_, ?_⟩
    · rw [hurlPath]
      exact hjoined
    · intro hmode
      rw [hurlHost, hostName_link hlower hplain hhost hmode]
      unfold Claims at hclaims
      rw [hmode] at hclaims
      exact ((isHostOf_iff hlower hplain hhost).mp hclaims).symm
  case shellLinked =>
    intro hplain host pathname hresolve
    obtain ⟨url, hurl, hhost, hroot, hempty⟩ := shell_link hbuilt hplain (.inr rfl)
    obtain ⟨hpath, hname⟩ := root_of_resolve hresolve
    refine ⟨url, hurl, ?_, fun hmode => ?_⟩
    · cases hmode : config.mode with
      | path => rw [hroot hmode, (hpath hmode)]
      | subdomain => rw [hempty hmode, (hname hmode).1]
    · rw [hhost, hostName_link hlower hplain hplain.shellHost hmode]
      exact ((isHostOf_iff hlower hplain hplain.shellHost).mp (hname hmode).2).symm

/-! ### Samples -/

/-- `toLowerCase` of ASCII. -/
def asciiLower (text : Text) : Text := text.map Char.toLower

theorem lowersAscii_asciiLower : LowersAscii asciiLower := by
  intro text htext
  rw [asciiLower, List.map_congr_left, List.map_id']
  intro c hc
  unfold Char.toLower
  rw [dif_neg]
  rintro ⟨hlow, hhigh⟩
  rw [ge_iff_le, UInt32.le_iff_toNat_le] at hlow
  rw [UInt32.le_iff_toNat_le] at hhigh
  exact (htext c hc).2 ⟨hlow, hhigh⟩

/-- The defaults over one host. -/
def sampleSettings (mode : Mode) : RoutingSettings where
  mode := mode
  scheme := .https
  baseHost := "example.test".toList
  publicHost := []
  shellHost := "circuit".toList
  shellPath := ROOT
  identityHost := "auth".toList
  identityPath := "/auth".toList
  apiHost := "api".toList
  apiPath := "/api".toList
  mcpHost := "mcp".toList
  mcpPath := "/mcp".toList
  docsHost := "docs".toList
  docsExternal := true
  integrationHost := "tuttle".toList
  integrationExternal := true
  integrationReserved := true

/-- Two modules, one with a path below that of the other. -/
def sampleManifests : List ModuleManifest :=
  [⟨"leads".toList, some ⟨"leads".toList, "leads".toList, "/leads".toList⟩⟩,
    ⟨"intake".toList, some ⟨"intake".toList, "intake".toList, "/leads/intake".toList⟩⟩]

def sampleConfig (mode : Mode) : RoutingConfig where
  mode := mode
  scheme := .https
  baseHost := "example.test".toList
  publicHost := "example.test".toList
  surfaces :=
    { shell := surfaceConfig "circuit".toList ROOT
      identity := ⟨"auth".toList, "/auth".toList, false, false, true⟩
      api := surfaceConfig "api".toList "/api".toList
      mcp := surfaceConfig "mcp".toList "/mcp".toList
      docs := ⟨"docs".toList, [], true, false, false⟩
      integration := ⟨"tuttle".toList, [], true, true, false⟩
      modules := [("leads".toList, surfaceConfig "leads".toList "/leads".toList),
        ("intake".toList, surfaceConfig "intake".toList "/leads/intake".toList)] }

private theorem urlSegment_leads : UrlSegment "leads".toList := by
  have hall : ("leads".toList.all isPathChar) = true := by decide
  exact ⟨by decide, List.all_eq_true.mp hall, by decide⟩

private theorem urlSegment_intake : UrlSegment "intake".toList := by
  have hall : ("intake".toList.all isPathChar) = true := by decide
  exact ⟨by decide, List.all_eq_true.mp hall, by decide⟩

theorem plain_sample (mode : Mode) : Plain (sampleConfig mode) where
  baseHost := by
    have hall : ("example.test".toList.all isHostChar) = true := by decide
    exact List.all_eq_true.mp hall
  publicHost := ⟨[], (List.append_nil _).symm, .inl rfl⟩
  shellHost := by
    have hall : ("circuit".toList.all isHostChar) = true := by decide
    exact List.all_eq_true.mp hall
  shellPath := ⟨[], .inl ⟨rfl, .inr rfl⟩⟩
  hosts m hm := by
    simp only [sampleConfig, List.mem_cons, List.not_mem_nil, or_false] at hm
    obtain rfl | rfl := hm
    · have hall : ("leads".toList.all isHostChar) = true := by decide
      exact List.all_eq_true.mp hall
    · have hall : ("intake".toList.all isHostChar) = true := by decide
      exact List.all_eq_true.mp hall
  paths _ m hm := by
    simp only [sampleConfig, List.mem_cons, List.not_mem_nil, or_false] at hm
    obtain rfl | rfl := hm
    · refine ⟨["leads".toList], List.cons_ne_nil _ _, .inr ⟨List.cons_ne_nil _ _, ?_, rfl⟩⟩
      intro segment hsegment
      rw [List.mem_singleton.mp hsegment]
      exact urlSegment_leads
    · refine ⟨["leads".toList, "intake".toList], List.cons_ne_nil _ _,
        .inr ⟨List.cons_ne_nil _ _, ?_, rfl⟩⟩
      intro segment hsegment
      obtain rfl | hsegment := List.mem_cons.mp hsegment
      · exact urlSegment_leads
      · rw [List.mem_singleton.mp hsegment]
        exact urlSegment_intake

/-- The sample web tier, with subdomains. -/
theorem links_resolve_sample :
    routingConfig (sampleSettings .subdomain) sampleManifests = some (sampleConfig .subdomain) ∧
      Plain (sampleConfig .subdomain) ∧ RoutingLaw asciiLower (sampleConfig .subdomain) := by
  have hconfig : routingConfig (sampleSettings .subdomain) sampleManifests =
      some (sampleConfig .subdomain) := rfl
  exact ⟨hconfig, plain_sample .subdomain, links_resolve lowersAscii_asciiLower hconfig⟩

/-- A link of the module below is answered by the one above, and the web tier has a link for a name
that no surface has. -/
theorem links_cross :
    routingConfig (sampleSettings .path) sampleManifests = some (sampleConfig .path) ∧
      urlFor (sampleConfig .path) "intake".toList "new".toList =
        some "https://example.test/leads/intake/new".toList ∧
      resolveRequest asciiLower (Web.dump (sampleConfig .path)) "example.test".toList
        "/leads/intake/new".toList = .module "leads".toList "/intake/new".toList ∧
      urlFor (sampleConfig .path) "constructor".toList "new".toList = none ∧
      Web.urlFor (Web.dump (sampleConfig .path)) "constructor".toList "new".toList =
        some "https://example.test/new".toList := by
  have hconfig : routingConfig (sampleSettings .path) sampleManifests =
      some (sampleConfig .path) := rfl
  refine ⟨hconfig, ?_, ?_, ?_, ?_⟩
  · decide
  · decide
  · decide
  · decide

end Rheostream.Routing
