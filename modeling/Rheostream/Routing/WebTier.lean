import Mathlib.Data.List.Dedup
import Mathlib.Data.List.Sort
import Rheostream.Routing.Config

/-!
# The web tier's routing

`lib/routing` of the web application: `url-for.ts` and `resolve.ts`, over the JSON of the
configuration.
-/

namespace Rheostream.Routing.Web

/-! ### The configuration as JSON -/

/-- A surface as an object reads it: a property that is missing is `undefined`. -/
structure SurfaceConfig where
  host : Option Text
  path : Option Text
  external : Option Bool
  reserved : Option Bool
  fixedPath : Option Bool

structure RoutingConfig where
  mode : Mode
  scheme : Text
  baseHost : Text
  publicHost : Text
  shell : SurfaceConfig
  identity : SurfaceConfig
  api : SurfaceConfig
  mcp : SurfaceConfig
  docs : SurfaceConfig
  integration : SurfaceConfig
  modules : List (Text × SurfaceConfig)

/-- The number that a text of digits is. -/
def digitsValue (text : Text) : ℕ := text.foldl (fun n c => 10 * n + (c.toNat - '0'.toNat)) 0

/-- A property name that is an array index. -/
def isIndex (name : Text) : Bool :=
  !name.isEmpty && name.all Char.isDigit && (name = ['0'] || name.head? ≠ some '0') &&
    digitsValue name < 4294967295

/-- The entries of an object: array indices come first, in their order. -/
def objectEntries {α : Type} (properties : List (Text × α)) : List (Text × α) :=
  (properties.filter fun p => isIndex p.1).insertionSort
      (fun p q => digitsValue p.1 ≤ digitsValue q.1) ++
    properties.filter fun p => !isIndex p.1

/-- `model_dump` of a surface. -/
def dumpSurface (spec : Routing.SurfaceConfig) : SurfaceConfig :=
  ⟨some spec.host, some spec.path, some spec.external, some spec.reserved, some spec.fixedPath⟩

/-- `model_dump` of the configuration, as the web tier parses it. -/
def dump (config : Routing.RoutingConfig) : RoutingConfig where
  mode := config.mode
  scheme := config.scheme.text
  baseHost := config.baseHost
  publicHost := config.publicHost
  shell := dumpSurface config.surfaces.shell
  identity := dumpSurface config.surfaces.identity
  api := dumpSurface config.surfaces.api
  mcp := dumpSurface config.surfaces.mcp
  docs := dumpSurface config.surfaces.docs
  integration := dumpSurface config.surfaces.integration
  modules := objectEntries (config.surfaces.modules.map fun m => (m.1, dumpSurface m.2))

/-! ### Links -/

/-- `joinPrefix`. -/
def joinPrefix (pathPrefix path : Text) : Text :=
  let normalized := if ROOT.isPrefixOf path then path else '/' :: path
  if pathPrefix = [] ∨ pathPrefix = ROOT then normalized else pathPrefix ++ normalized

/-- The properties that every object inherits. -/
def inheritedNames : List Text :=
  ["constructor".toList, "__defineGetter__".toList, "__defineSetter__".toList,
    "hasOwnProperty".toList, "__lookupGetter__".toList, "__lookupSetter__".toList,
    "isPrototypeOf".toList, "propertyIsEnumerable".toList, "toString".toList, "valueOf".toList,
    "__proto__".toList, "toLocaleString".toList]

/-- An inherited property is a function or the prototype: it has none of the fields. -/
def inherited : SurfaceConfig := ⟨none, none, none, none, none⟩

/-- The named surfaces. -/
def RoutingConfig.named (config : RoutingConfig) : List (Text × SurfaceConfig) :=
  [(SHELL, config.shell), (IDENTITY, config.identity), (API, config.api), (MCP, config.mcp),
    (DOCS, config.docs), (INTEGRATION, config.integration)]

/-- `surfaceFor`: the object of the named surfaces also has what every object inherits. -/
def surfaceFor (config : RoutingConfig) (surface : Text) : Option SurfaceConfig :=
  match config.named.lookup surface with
  | some spec => some spec
  | none =>
    if inheritedNames.contains surface then some inherited else config.modules.lookup surface

/-- A host in a template: `undefined` is spelled out. -/
def hostText (host : Option Text) : Text := host.getD "undefined".toList

/-- `urlFor`. -/
def urlFor (config : RoutingConfig) (surface path : Text) : Option Text :=
  match surfaceFor config surface with
  | none => none
  | some spec =>
    if spec.external = some true ∨ spec.reserved = some true then none
    else
      let surfacePath := spec.path.getD []
      let start := config.scheme ++ "://".toList
      match config.mode with
      | .path => some (start ++ (config.publicHost ++ joinPrefix surfacePath path))
      | .subdomain =>
        let pathPrefix := if spec.fixedPath = some true then surfacePath else []
        let host := hostText spec.host ++ '.' :: config.publicHost
        some (start ++ (host ++ joinPrefix pathPrefix path))

/-- `applicationHosts`, before they are sorted. -/
def applicationHosts (config : RoutingConfig) : List Text :=
  match config.mode with
  | .path => [config.baseHost]
  | .subdomain =>
    let labels := [config.shell.host, config.identity.host] ++ config.modules.map fun m => m.2.host
    (labels.map fun label => hostText label ++ '.' :: config.baseHost).dedup

/-! ### URLs -/

/-- What follows the scheme of a URL. -/
def afterScheme (url : Text) : Text := (url.dropWhile (· ≠ ':')).drop 3

/-- The characters that end the authority of a URL. -/
def isDelimiter (c : Char) : Bool := c = '/' || c = '?' || c = '#'

/-- `host` of a URL. -/
def urlHost (url : Text) : Text := (afterScheme url).takeWhile fun c => !isDelimiter c

/-- `pathname` of a URL whose path needs no encoding and has no dot segments. -/
def urlPathname (url : Text) : Text :=
  ((afterScheme url).dropWhile fun c => !isDelimiter c).takeWhile fun c => c ≠ '?' && c ≠ '#'

/-! ### Requests -/

/-- `ResolvedRequest`. -/
inductive ResolvedRequest where
  | shell
  | approval
  | module (surface subPath : Text)
  | notFound
  deriving DecidableEq

def APPROVAL_DETAIL : Text := "/approvals/detail".toList

/-- `normalizePath`. -/
def normalizePath (path : Text) : Text :=
  if path = [] ∨ path = ROOT then ROOT
  else
    let withLead := if ROOT.isPrefixOf path then path else '/' :: path
    if ROOT.isSuffixOf withLead then withLead.dropLast else withLead

/-- The characters that `trim` removes. -/
def isSpace (c : Char) : Bool :=
  let n := c.toNat
  (9 ≤ n && n ≤ 13) || n == 32 || n == 0xa0 || n == 0x1680 || (0x2000 ≤ n && n ≤ 0x200a) ||
    n == 0x2028 || n == 0x2029 || n == 0x202f || n == 0x205f || n == 0x3000 || n == 0xfeff

/-- `trim`. -/
def trim (text : Text) : Text := ((text.dropWhile isSpace).reverse.dropWhile isSpace).reverse

section Requests

-- `toLowerCase` of the language
variable (toLowerCase : Text → Text)

/-- `hostName`. -/
def hostName (host : Text) : Text :=
  let lower := toLowerCase (trim host)
  if ['['].isPrefixOf lower then
    if ']' ∈ lower then lower.takeWhile (· ≠ ']') ++ [']'] else lower
  else lower.takeWhile (· ≠ ':')

/-- The path inside a module surface, where the path is the surface's or continues it. -/
def subPathOf (path : Text) (spec : SurfaceConfig) : Option Text :=
  match spec.path with
  | none => none
  | some specPath =>
    let pathPrefix := normalizePath specPath
    if pathPrefix = ROOT then none
    else if path = pathPrefix then some ROOT
    else if (pathPrefix ++ ROOT).isPrefixOf path then some (path.drop pathPrefix.length)
    else none

/-- The shell's root, and the approval route below it. -/
def shellRoot (config : RoutingConfig) : Text := normalizePath (config.shell.path.getD ROOT)

def approvalPath (config : RoutingConfig) : Text :=
  if shellRoot config = ROOT then APPROVAL_DETAIL else shellRoot config ++ APPROVAL_DETAIL

/-- `resolvePath`. -/
def resolvePath (config : RoutingConfig) (pathname : Text) : ResolvedRequest :=
  let path := normalizePath pathname
  if path = approvalPath config then .approval
  else
    match config.modules.findSome? fun m =>
      (subPathOf path m.2).map (ResolvedRequest.module m.1) with
    | some found => found
    | none => if path = shellRoot config then .shell else .notFound

/-- The name is that of the surface's host. -/
def isHostOf (config : RoutingConfig) (name : Text) (spec : SurfaceConfig) : Bool :=
  name = toLowerCase (hostText spec.host) ++ '.' :: toLowerCase config.baseHost

/-- `resolveHost`. -/
def resolveHost (config : RoutingConfig) (host pathname : Text) : ResolvedRequest :=
  let name := hostName toLowerCase host
  match config.modules.find? fun m => isHostOf toLowerCase config name m.2 with
  | some m => .module m.1 (normalizePath pathname)
  | none =>
    if isHostOf toLowerCase config name config.shell then
      let path := normalizePath pathname
      if path = ROOT then .shell
      else if path = APPROVAL_DETAIL then .approval else .notFound
    else .notFound

/-- `resolveRequest`. -/
def resolveRequest (config : RoutingConfig) (host pathname : Text) : ResolvedRequest :=
  match config.mode with
  | .path => resolvePath config pathname
  | .subdomain => resolveHost toLowerCase config host pathname

end Requests

end Rheostream.Routing.Web
