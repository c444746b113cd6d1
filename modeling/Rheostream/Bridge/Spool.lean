import Rheostream.Foundation.OrderedDict
import Rheostream.Foundation.PyBytes
import Rheostream.Foundation.Table

/-!
# Folding the spool

The worker reads the complete lines of a spool file behind its offset, merges the lines of each
session into one sighting, and writes the sightings, the count of malformed lines and the new
offset in one transaction. A pass that raises writes nothing.

A string is the list of its code points, so that it may hold a lone surrogate, which cannot be
stored. What `json.loads` makes of a line is a parameter.
-/

namespace Rheostream.Bridge

/-- A Python string. -/
structure PyStr where
  codePoints : List ℕ
  deriving DecidableEq

/-- The string of a literal. -/
def pyStr (text : String) : PyStr := ⟨text.toList.map Char.toNat⟩

/-- A member of a loaded object, as far as the fold tells them apart. -/
inductive SpoolValue where
  | str (text : PyStr)
  | int (value : ℤ)
  | scalar
  /-- A list or an object, which is not hashable. -/
  | container

/-- `json.loads`, which gives nothing where it raises, and the members of what it gives when
that is an object. -/
structure SpoolLoads (D : Type) where
  loads : List UInt8 → Option D
  members : D → Option (String → Option SpoolValue)

/-- A spool line that says where a session is. -/
structure Locator where
  isEnd : Bool
  sessionHash : PyStr
  transcriptPath : PyStr
  lineAt : Option ℤ

/-- What becomes of a line. -/
inductive Located where
  | raised
  | malformed
  | sighted (locator : Locator)

section Locator

variable {D : Type} (py : SpoolLoads D)

/-- `event not in SPOOL_EVENTS` is asked of a set. -/
def spoolEvent : Option SpoolValue → Option (Option Bool)
  | some (.str text) =>
    if text = pyStr "Stop" then some (some false)
    else if text = pyStr "SessionEnd" then some (some true)
    else some none
  | some .container => none
  | _ => some none

/-- `_spool_locator`. -/
def spoolLocator (raw : List UInt8) : Located :=
  match py.loads raw with
  | none => .malformed
  | some document =>
    match py.members document with
    | none => .malformed
    | some get =>
      if (get "malformed").isSome then .malformed
      else match spoolEvent (get "event") with
        | none => .raised
        | some none => .malformed
        | some (some isEnd) =>
          match get "session_hash", get "transcript_path" with
          | some (.str sessionHash), some (.str transcriptPath) =>
            if sessionHash.codePoints.isEmpty || transcriptPath.codePoints.isEmpty then .malformed
            else
              let lineAt := match get "at" with
                | some (.int value) => some value
                | _ => none
              .sighted { isEnd, sessionHash, transcriptPath, lineAt }
          | _, _ => .malformed

end Locator

/-- `_Sighting`. -/
structure Sighting where
  transcriptPath : PyStr
  seenAt : ℤ
  endedAt : Option ℤ

/-- A line at `seenAt` joins what was sighted of its session. -/
def Sighting.join (isEnd : Bool) (transcriptPath : PyStr) (seenAt : ℤ)
    (sighting : Option Sighting) :
    Sighting :=
  let joined := match sighting with
    | none => ⟨transcriptPath, seenAt, none⟩
    | some sighting => ⟨transcriptPath, max sighting.seenAt seenAt, sighting.endedAt⟩
  if isEnd then { joined with endedAt := some (max (joined.endedAt.getD 0) seenAt) } else joined

/-- The loop over the lines: the sightings and the number of malformed lines. -/
def sightings {D : Type} (py : SpoolLoads D) (passAt : ℤ) :
    List (List UInt8) → List (PyStr × Sighting) × ℕ → Option (List (PyStr × Sighting) × ℕ)
  | [], found => some found
  | raw :: lines, found =>
    match spoolLocator py raw with
    | .raised => none
    | .malformed => sightings py passAt lines (found.1, found.2 + 1)
    | .sighted locator =>
      let sighting := Sighting.join locator.isEnd locator.transcriptPath
        (locator.lineAt.getD passAt) (found.1.lookup locator.sessionHash)
      sightings py passAt lines (OrderedDict.set found.1 locator.sessionHash sighting, found.2)

/-- A row of `session`. -/
structure SessionRow where
  transcriptPath : Option PyStr
  firstSeenAt : Option ℤ
  lastSeenAt : Option ℤ
  endedAt : Option ℤ
  cursorOffset : ℤ
  cursorInode : Option ℤ
  pendingGapKey : Option PyStr
  closedAt : Option ℤ

/-- An integer SQLite can store. -/
def fits (n : ℤ) : Bool := -9223372036854775808 ≤ n && n ≤ 9223372036854775807

/-- A string SQLite can store: no lone surrogate. -/
def bindable (text : PyStr) : Bool := text.codePoints.all fun c => c < 0xd800 || 0xdfff < c

/-- The values of a sighting can be bound. -/
def Sighting.storable (sighting : Sighting) : Bool :=
  bindable sighting.transcriptPath && fits sighting.seenAt && sighting.endedAt.all fits

/-- `upsert_session`. -/
def upsertSession (sessions : Table PyStr SessionRow) (sessionHash : PyStr) (sighting : Sighting) :
    Option (Table PyStr SessionRow) :=
  if bindable sessionHash && sighting.storable then
    let row : SessionRow := match sessions.lookup sessionHash with
      | none =>
        { transcriptPath := some sighting.transcriptPath, firstSeenAt := some sighting.seenAt,
          lastSeenAt := some sighting.seenAt, endedAt := sighting.endedAt, cursorOffset := 0,
          cursorInode := none, pendingGapKey := none, closedAt := none }
      | some row =>
        { row with
          transcriptPath := some sighting.transcriptPath
          lastSeenAt := some sighting.seenAt
          endedAt := sighting.endedAt.or row.endedAt }
    some (sessions.insert sessionHash row)
  else none

/-- `reopen_session`. -/
def reopenSession (sessions : Table PyStr SessionRow) (sessionHash : PyStr) (sighting : Sighting) :
    Option (Table PyStr SessionRow) :=
  if bindable sessionHash && sighting.storable then
    some (sessions.updateIf sessionHash
      { guard := fun _ => true
        set := fun row =>
          { row with
            closedAt := none
            transcriptPath := some sighting.transcriptPath
            lastSeenAt := some sighting.seenAt
            endedAt := sighting.endedAt } })
  else none

/-- `_reopen`: a sighting from before the close is stale and changes nothing. -/
def reopen (sessions : Table PyStr SessionRow) (sessionHash : PyStr) (closedAt : ℤ)
    (sighting : Sighting) : Option (Table PyStr SessionRow) :=
  if sighting.seenAt < closedAt then some sessions
  else
    let endedAt := sighting.endedAt.filter fun endedAt => !decide (endedAt < closedAt)
    reopenSession sessions sessionHash { sighting with endedAt }

/-- The writes for one session. -/
def foldSighting (sessions : Table PyStr SessionRow) (sessionHash : PyStr) (sighting : Sighting) :
    Option (Table PyStr SessionRow) :=
  if bindable sessionHash then
    match sessions.lookup sessionHash with
    | none => upsertSession sessions sessionHash sighting
    | some existing =>
      match existing.closedAt with
      | some closedAt => reopen sessions sessionHash closedAt sighting
      | none =>
        -- never move last_seen_at backwards for a late-read old line
        let seenAt := existing.lastSeenAt.elim sighting.seenAt (max sighting.seenAt ·)
        upsertSession sessions sessionHash { sighting with seenAt }
  else none

/-- The writes for every session. -/
def foldSightings :
    List (PyStr × Sighting) → Table PyStr SessionRow → Option (Table PyStr SessionRow)
  | [], sessions => some sessions
  | (sessionHash, sighting) :: rest, sessions =>
    (foldSighting sessions sessionHash sighting).bind (foldSightings rest)

/-- The tables, as far as folding one file reads and writes them. -/
structure SpoolState where
  sessions : Table PyStr SessionRow
  /-- The ledger's count of `hook_malformed`. -/
  malformed : ℕ
  /-- The file's row of `spool_offset`. -/
  offset : Option ℕ

/-- Up to the last line feed: a trailing partial line is the hook mid-write. -/
def complete (data : List UInt8) : List UInt8 := (data.reverse.dropWhile (· != 10)).reverse

/-- `_read_spool_file`: the offset, and what stands behind it. -/
def readSpoolFile (offset : Option ℕ) (file : List UInt8) : ℕ × List UInt8 :=
  let offset := offset.getD 0
  if file.length < offset then (0, file) else (offset, file.drop offset)

/-- `_fold_file`. A file of a past day is deleted once it is consumed, and its offset with it. -/
def foldFile {D : Type} (py : SpoolLoads D) (past : Bool) (passAt : ℤ) (file : List UInt8)
    (s : SpoolState) : Option SpoolState :=
  let read := readSpoolFile s.offset file
  let data := complete read.2
  (sightings py passAt (bytesLines data) ([], 0)).bind fun found =>
    (foldSightings found.1 s.sessions).map fun sessions =>
      let consumed := past && data.length == read.2.length
      { sessions, malformed := s.malformed + found.2,
        offset := if consumed then none else some (read.1 + data.length) }

/-- A pass: when it runs, and what was appended to the file since the pass before. -/
structure SpoolPass where
  passAt : ℤ
  appended : List UInt8

/-- Successive passes over a growing file; only the last one may find the file to be of a past
day. -/
def foldPasses {D : Type} (py : SpoolLoads D) (past : Bool) :
    List UInt8 → SpoolPass → List SpoolPass → SpoolState → Option SpoolState
  | file, pass, [], s => foldFile py past pass.passAt (file ++ pass.appended) s
  | file, pass, next :: passes, s =>
    (foldFile py false pass.passAt (file ++ pass.appended) s).bind
      (foldPasses py past (file ++ pass.appended) next passes)

end Rheostream.Bridge
