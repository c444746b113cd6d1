import Mathlib.Data.List.SplitOn
import Mathlib.Data.List.Basic

/-!
# Routing

`rheo_core.routing` and `check_web_surfaces`: the configuration of a deployment, and the URLs of its
surfaces. A text is the list of its characters.
-/

namespace Rheostream.Routing

abbrev Text := List Char

/-- `RoutingMode`. -/
inductive Mode where
  | path
  | subdomain
  deriving DecidableEq

/-- The choices of `routing.scheme`. -/
inductive Scheme where
  | https
  | http
  deriving DecidableEq

def Scheme.text : Scheme → Text
  | .https => "https".toList
  | .http => "http".toList

structure SurfaceConfig where
  host : Text
  path : Text
  external : Bool
  reserved : Bool
  fixedPath : Bool

/-- The six surfaces that there always are, and those of the modules in the order of the mapping. -/
structure Surfaces where
  shell : SurfaceConfig
  identity : SurfaceConfig
  api : SurfaceConfig
  mcp : SurfaceConfig
  docs : SurfaceConfig
  integration : SurfaceConfig
  modules : List (Text × SurfaceConfig)

structure RoutingConfig where
  mode : Mode
  scheme : Scheme
  baseHost : Text
  publicHost : Text
  surfaces : Surfaces

def SHELL : Text := "shell".toList
def IDENTITY : Text := "identity".toList
def API : Text := "api".toList
def MCP : Text := "mcp".toList
def DOCS : Text := "docs".toList
def INTEGRATION : Text := "integration".toList

/-- `NAMED_SURFACES`. -/
def namedSurfaces : List Text := [SHELL, IDENTITY, API, MCP, DOCS, INTEGRATION]

/-- `Surfaces.named`. -/
def Surfaces.named (s : Surfaces) : List (Text × SurfaceConfig) :=
  [(SHELL, s.shell), (IDENTITY, s.identity), (API, s.api), (MCP, s.mcp), (DOCS, s.docs),
    (INTEGRATION, s.integration)]

/-- `Surfaces.get`: a named surface wins over a module of its name. -/
def Surfaces.get (s : Surfaces) (name : Text) : Option SurfaceConfig :=
  (s.named.lookup name).or (s.modules.lookup name)

/-! ### Building the configuration -/

/-- A character that is unreserved in a URL. -/
def isUnreserved (c : Char) : Bool := c.isAlphanum || c = '.' || c = '_' || c = '~' || c = '-'

def ROOT : Text := ['/']

/-- `check_identity_path`: one segment or more, each of unreserved characters and no `.` or `..`. -/
def checkIdentityPath (value : Text) : Bool :=
  match value.splitOn '/' with
  | [] :: segments => !segments.isEmpty && segments.all fun segment =>
    !segment.isEmpty && segment.all isUnreserved && segment != ['.'] && segment != ['.', '.']
  | _ => false

/-- The seventeen `routing.*` settings. -/
structure RoutingSettings where
  mode : Mode
  scheme : Scheme
  baseHost : Text
  publicHost : Text
  shellHost : Text
  shellPath : Text
  identityHost : Text
  identityPath : Text
  apiHost : Text
  apiPath : Text
  mcpHost : Text
  mcpPath : Text
  docsHost : Text
  docsExternal : Bool
  integrationHost : Text
  integrationExternal : Bool
  integrationReserved : Bool

/-- `_resolve_hosts`: the base host has no port, and an empty public host is the base host. -/
def resolveHosts (baseHost publicHost : Text) : Option (Text × Text) :=
  if ':' ∈ baseHost then none
  else some (baseHost, if publicHost = [] then baseHost else publicHost)

/-- A surface with its host and its path. -/
def surfaceConfig (host path : Text) : SurfaceConfig := ⟨host, path, false, false, false⟩

/-- `RoutingConfig.from_settings`. -/
def fromSettings (settings : RoutingSettings) (modules : List (Text × SurfaceConfig)) :
    Option RoutingConfig :=
  if checkIdentityPath settings.identityPath then
    (resolveHosts settings.baseHost settings.publicHost).map fun hosts =>
      { mode := settings.mode
        scheme := settings.scheme
        baseHost := hosts.1
        publicHost := hosts.2
        surfaces :=
          { shell := surfaceConfig settings.shellHost settings.shellPath
            identity := ⟨settings.identityHost, settings.identityPath, false, false, true⟩
            api := surfaceConfig settings.apiHost settings.apiPath
            mcp := surfaceConfig settings.mcpHost settings.mcpPath
            docs := ⟨settings.docsHost, [], settings.docsExternal, false, false⟩
            integration := ⟨settings.integrationHost, [], settings.integrationExternal,
              settings.integrationReserved, false⟩
            modules := modules } }
  else none

structure WebSurface where
  surface : Text
  host : Text
  path : Text

/-- A manifest, and the surface of its web contribution. -/
structure ModuleManifest where
  moduleId : Text
  web : Option WebSurface

/-- `check_web_surfaces`, with the surfaces that are claimed so far. -/
def checkWebSurfaces : List Text → List ModuleManifest → Bool
  | _, [] => true
  | claimed, manifest :: rest =>
    match manifest.web with
    | none => checkWebSurfaces claimed rest
    | some web =>
      if web.surface ∈ claimed then false else checkWebSurfaces (web.surface :: claimed) rest

/-- `module_surfaces`, as the surfaces that `routing_config` makes of them. -/
def moduleSurfaces (manifests : List ModuleManifest) : List (Text × SurfaceConfig) :=
  manifests.filterMap fun manifest =>
    manifest.web.map fun web => (web.surface, surfaceConfig web.host web.path)

/-- `routing_config`, of manifests that were loaded. -/
def routingConfig (settings : RoutingSettings) (manifests : List ModuleManifest) :
    Option RoutingConfig :=
  if checkWebSurfaces [] manifests then fromSettings settings (moduleSurfaces manifests) else none

/-! ### URLs -/

/-- `_join_prefix`. -/
def joinPrefix (pathPrefix path : Text) : Text :=
  let path := if ROOT.isPrefixOf path then path else '/' :: path
  if pathPrefix = [] ∨ pathPrefix = ROOT then path else pathPrefix ++ path

/-- `url_for`. -/
def urlFor (config : RoutingConfig) (surface path : Text) : Option Text :=
  match config.surfaces.get surface with
  | none => none
  | some spec =>
    if spec.external || spec.reserved then none
    else
      let start := config.scheme.text ++ "://".toList
      match config.mode with
      | .path => some (start ++ (config.publicHost ++ joinPrefix spec.path path))
      | .subdomain =>
        let pathPrefix := if spec.fixedPath then spec.path else []
        let host := spec.host ++ '.' :: config.publicHost
        some (start ++ (host ++ joinPrefix pathPrefix path))

/-- `application_hosts`. -/
def applicationHosts (config : RoutingConfig) : List Text :=
  match config.mode with
  | .path => [config.baseHost]
  | .subdomain =>
    let labels := [config.surfaces.shell.host, config.surfaces.identity.host] ++
      config.surfaces.modules.map fun m => m.2.host
    labels.map fun label => label ++ '.' :: config.baseHost

end Rheostream.Routing
