import Rheostream.Foundation.OrderedDict
import Rheostream.Foundation.PyText
import Rheostream.Foundation.Values

/-!
# The settings file of the bridge

`settings_file.py`: the hooks of the bridge are merged into a document that other tools write too,
and taken out of it again.
-/

namespace Rheostream.Bridge

open OrderedDict

/-- `HOOK_MARKER`. -/
def hookMarker : String := ".rheo-bridge/hook.py"

/-- `RECALL_MARKER`. -/
def recallMarker : String := ".rheo-bridge/recall_hook.py"

/-- `RECALL_EVENT`. -/
def recallEvent : String := "UserPromptSubmit"

/-- `RECALL_TIMEOUT_SECONDS`. -/
def recallTimeoutSeconds : ℤ := 10

/-- The members of an object, whose keys are distinct. -/
abbrev Document : Type := List (String × Json)

/-- `names_bridge_hook`. -/
def namesBridgeHook (command : String) : Bool :=
  pyContains hookMarker command || pyContains recallMarker command

/-- The entries of a matcher group, when it has the shape of one. -/
def entriesOf : Json → Option (List Json)
  | .obj members =>
    match members.lookup "hooks" with
    | some (.arr entries) => some entries
    | _ => none
  | _ => none

/-- The command of an entry. -/
def commandOf : Json → Option String
  | .obj members =>
    match members.lookup "command" with
    | some (.str command) => some command
    | _ => none
  | _ => none

/-- `_commands`. -/
def commandsOf (groups : List Json) : List String :=
  groups.flatMap fun group => ((entriesOf group).getD []).filterMap commandOf

/-- `bridge_commands`: every command of the document, under any event. -/
def bridgeCommands (document : Document) : List String :=
  match document.lookup "hooks" with
  | some (.obj hooks) => hooks.flatMap fun e =>
    match e.2 with
    | .arr groups => commandsOf groups
    | _ => []
  | _ => []

/-- `{**group, "hooks": kept}`. -/
def withEntries (group : Json) (kept : List Json) : Json :=
  match group with
  | .obj members => .obj (set members "hooks" (.arr kept))
  | group => group

/-- `_strip`: the groups without the entries that are ours, and whether there were any. -/
def strip (isOurs : String → Bool) : List Json → List Json × Bool
  | [] => ([], false)
  | group :: groups =>
    let rest := strip isOurs groups
    match entriesOf group with
    | none => (group :: rest.1, rest.2)
    | some entries =>
      let kept := entries.filter fun entry => !(commandOf entry).any isOurs
      if kept.length = entries.length then (group :: rest.1, rest.2)
      else if kept.isEmpty then (rest.1, true)
      else (withEntries group kept :: rest.1, true)

/-- `_hooks_table`. -/
def hooksTable (document : Document) : Except String (Option Document) :=
  match document.lookup "hooks" with
  | none => .ok none
  | some .null => .ok none
  | some (.obj hooks) => .ok (some hooks)
  | some _ => .error "the settings file's \"hooks\" value is not an object"

/-- The matcher group of one hook. -/
def hookGroup (timeout : ℤ) (event command : String) : Json :=
  .obj [("hooks", .arr [.obj [("type", .str "command"), ("command", .str command),
    ("timeout", .int (if event = recallEvent then recallTimeoutSeconds else timeout))]])]

/-- The groups under an event. -/
def groupsOf (hooks : Option Document) (event : String) : Except String (Option (List Json)) :=
  match (hooks.getD []).lookup event with
  | none => .ok none
  | some .null => .ok none
  | some (.arr groups) => .ok (some groups)
  | some _ => .error ("the settings file's \"hooks." ++ event ++ "\" is not a list")

/-- `Merged`, while the hooks table is beside its document: the containers that were created. -/
structure Merging where
  hooks : Option Document
  created : List String

/-- One event of `merge`. -/
def mergeEvent (timeout : ℤ) (state : Merging) (named : String × String) :
    Except String Merging :=
  match groupsOf state.hooks named.1 with
  | .error refusal => .error refusal
  | .ok (some groups) =>
    if (commandsOf groups).filter namesBridgeHook = [named.2] then .ok state
    else
      let kept := (strip namesBridgeHook groups).1 ++ [hookGroup timeout named.1 named.2]
      .ok { state with hooks := some (set (state.hooks.getD []) named.1 (.arr kept)) }
  | .ok none =>
    let table := if state.hooks.isNone then ["hooks"] else []
    .ok ⟨some (set (state.hooks.getD []) named.1 (.arr [hookGroup timeout named.1 named.2])),
      state.created ++ table ++ ["hooks." ++ named.1]⟩

/-- `Merged`. -/
structure Merged where
  document : Document
  created : List String

/-- The document with its hooks table. -/
def withHooks (document : Document) (hooks : Option Document) : Document :=
  match hooks with
  | none => document
  | some hooks => set document "hooks" (.obj hooks)

/-- `merge`. -/
def merge (timeout : ℤ) (document : Document) (commands : List (String × String)) :
    Except String Merged :=
  match hooksTable document with
  | .error refusal => .error refusal
  | .ok hooks =>
    match commands.foldlM (mergeEvent timeout) ⟨hooks, []⟩ with
    | .error refusal => .error refusal
    | .ok merged => .ok ⟨withHooks document merged.hooks, merged.created⟩

/-- One event of `remove`: nothing, when its list was emptied and the install had made it. -/
def removeEvent (isOurs : String → Bool) (created : List String) (e : String × Json) :
    Option (String × Json) :=
  match e.2 with
  | .arr groups =>
    let stripped := strip isOurs groups
    if !stripped.2 then some e
    else if stripped.1.isEmpty && created.contains ("hooks." ++ e.1) then none
    else some (e.1, .arr stripped.1)
  | _ => some e

/-- `remove`. -/
def remove (document : Document) (isOurs : String → Bool) (created : List String) : Document :=
  match document.lookup "hooks" with
  | some (.obj hooks) =>
    let kept := hooks.filterMap (removeEvent isOurs created)
    let emptied := hooks.any fun e => (removeEvent isOurs created e).isNone
    if emptied && kept.isEmpty && created.contains "hooks" then del document "hooks"
    else set document "hooks" (.obj kept)
  | _ => document

end Rheostream.Bridge
