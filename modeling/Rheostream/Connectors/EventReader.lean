import Rheostream.Foundation.PyBytes

/-!
# The event-stream reader

`_EventReader` looks for one JSON-RPC response in a `text/event-stream` body while the body
arrives. What `json.loads` makes of a text is a parameter, and of what it gives the reader only
asks whether it is an object and what some of its members are.
-/

namespace Rheostream.Connectors

variable {D : Type}

/-- A member of a loaded object, as far as the reader tells them apart. -/
inductive Member where
  | int (value : ℤ)
  | str (value : String)
  | other
  deriving DecidableEq

/-- `json.loads`, which gives nothing where it raises, and the members of what it gives when
that is an object. -/
structure Loads (D : Type) where
  loads : List Char → Option D
  members : D → Option (String → Option Member)

/-- `_is_response`. -/
def isResponse (get : String → Option Member) (requestId : ℤ) : Bool :=
  decide (get "jsonrpc" = some (.str "2.0")) && decide (get "id" = some (.int requestId)) &&
    ((get "result").isSome != (get "error").isSome)

/-- `_EventReader.found`: nothing yet, `False`, or the response. -/
inductive Found (D : Type) where
  | searching
  | malformed
  | response (document : D)

/-- Nothing has been found yet. -/
def Found.isSearching : Found D → Bool
  | .searching => true
  | _ => false

/-- What the lines read so far have left behind. -/
structure Reading (D : Type) where
  event : List Char
  data : List (List Char)
  events : ℕ
  found : Found D

/-- `_EventReader.done`. -/
def Reading.done (r : Reading D) : Bool := !r.found.isSearching

variable (py : Loads D) (requestId : ℤ)

/-- What the data of a message event makes of the search. -/
def answer (data : List Char) : Found D :=
  match py.loads data with
  | none => .malformed
  | some document =>
    match py.members document with
    | none => .searching
    | some get =>
      -- a server request or notification: not ours to answer
      if (get "method").isSome then .searching
      else if get "id" = some (.int requestId) then
        if isResponse get requestId then .response document else .malformed
      else .searching

/-- Whether an event is one that may carry a message. -/
def isMessage (event : List Char) : Bool := event.isEmpty || event == "message".toList

/-- `_EventReader._dispatch`. -/
def dispatch (r : Reading D) : Reading D :=
  let data := ['\n'].intercalate r.data
  let cleared := { r with data := [], event := [] }
  if data.isEmpty then cleared
  else
    let counted := { cleared with events := r.events + 1 }
    if isMessage r.event then
      match answer py requestId data with
      | .searching => counted
      | found => { counted with found := found }
    else counted

/-- The name of a line's field: what stands before the first colon. -/
def fieldName (line : List Char) : List Char := line.takeWhile (· != ':')

/-- The value of a line's field: what follows the colon, less one space. -/
def fieldValue (line : List Char) : List Char :=
  match (line.dropWhile (· != ':')).drop 1 with
  | ' ' :: value => value
  | value => value

/-- `_EventReader._line`. -/
def readLine (r : Reading D) (raw : List UInt8) : Reading D :=
  match decodeUtf8 raw with
  | none => { r with found := .malformed }
  | some line =>
    if line.isEmpty then dispatch py requestId r
    else if line.head? = some ':' then r
    else if fieldName line = "event".toList then { r with event := fieldValue line }
    else if fieldName line = "data".toList then { r with data := r.data ++ [fieldValue line] }
    else r

/-- What follows a line that a carriage return ends. At the very end of the buffer it may be the
first half of a pair, unless nothing more will come. -/
def afterReturn (final : Bool) : List UInt8 → Option (List UInt8)
  | [] => if final then some [] else none
  | c :: after => some (if c = 10 then after else c :: after)

/-- `_LINE_END.search`: the first line of a buffer, and what follows its end. -/
def splitLine (final : Bool) : List UInt8 → Option (List UInt8 × List UInt8)
  | [] => none
  | b :: rest =>
    if b = 10 then some ([], rest)
    else if b = 13 then (afterReturn final rest).map fun after => ([], after)
    else (splitLine final rest).map fun split => (b :: split.1, split.2)

theorem afterReturn_shorter {final : Bool} {l r : List UInt8} (h : afterReturn final l = some r) :
    r.length ≤ l.length := by
  cases l with
  | nil =>
    cases final with
    | true => cases h; exact Nat.le_refl _
    | false => cases h
  | cons c after =>
    cases h
    by_cases hpair : c = 10
    · rw [if_pos hpair, List.length_cons]
      omega
    · rw [if_neg hpair]

theorem afterReturn_resumes {a r : List UInt8} (h : afterReturn false a = some r) (final : Bool)
    (b : List UInt8) : afterReturn final (a ++ b) = some (r ++ b) := by
  cases a with
  | nil => cases h
  | cons c after =>
    cases h
    rw [List.cons_append, afterReturn]
    by_cases hpair : c = 10
    · rw [if_pos hpair, if_pos hpair]
    · rw [if_neg hpair, if_neg hpair, List.cons_append]

theorem splitLine_shorter {final : Bool} {l t r : List UInt8}
    (h : splitLine final l = some (t, r)) : r.length < l.length := by
  induction l generalizing t with
  | nil => cases h
  | cons b l ih =>
    rw [List.length_cons]
    rw [splitLine] at h
    by_cases hlf : b = 10
    · rw [if_pos hlf] at h
      cases h
      omega
    · rw [if_neg hlf] at h
      by_cases hcr : b = 13
      · rw [if_pos hcr] at h
        obtain ⟨after, hafter, heq⟩ := Option.map_eq_some_iff.mp h
        cases heq
        have hshorter := afterReturn_shorter hafter
        omega
      · rw [if_neg hcr] at h
        obtain ⟨split, hsplit, heq⟩ := Option.map_eq_some_iff.mp h
        cases heq
        have hshorter := ih hsplit
        omega

/-- A line that was complete before more came is the same line afterwards. -/
theorem splitLine_resumes {a t r : List UInt8} (h : splitLine false a = some (t, r))
    (final : Bool) (b : List UInt8) : splitLine final (a ++ b) = some (t, r ++ b) := by
  induction a generalizing t with
  | nil => cases h
  | cons x a ih =>
    rw [splitLine] at h
    rw [List.cons_append, splitLine]
    by_cases hlf : x = 10
    · rw [if_pos hlf] at h ⊢
      cases h
      rfl
    · rw [if_neg hlf] at h ⊢
      by_cases hcr : x = 13
      · rw [if_pos hcr] at h ⊢
        obtain ⟨after, hafter, heq⟩ := Option.map_eq_some_iff.mp h
        cases heq
        rw [afterReturn_resumes hafter]
        rfl
      · rw [if_neg hcr] at h ⊢
        obtain ⟨split, hsplit, heq⟩ := Option.map_eq_some_iff.mp h
        cases heq
        rw [ih hsplit]
        rfl

/-- The lines of a body. -/
def lineSplitter : Splitter UInt8 (List UInt8) where
  next := splitLine
  shorter := splitLine_shorter
  resumes := fun h final b => splitLine_resumes h final b

/-- The reader of the lines. -/
def lineReader : Consumer (List UInt8) (Reading D) where
  done := Reading.done
  step := readLine py requestId

/-- `_EventReader`. -/
structure EventReader (D : Type) where
  pending : List UInt8
  started : Bool
  reading : Reading D

/-- A new reader. -/
def EventReader.new : EventReader D := ⟨[], false, ⟨[], [], 0, .searching⟩⟩

/-- `_BOM`. -/
def bom : List UInt8 := [0xef, 0xbb, 0xbf]

/-- The byte order mark may still be coming. -/
def awaitsBom (buffer : List UInt8) : Bool := buffer.length < bom.length && buffer.isPrefixOf bom

/-- A body without its byte order mark. -/
def dropBom (buffer : List UInt8) : List UInt8 :=
  if bom.isPrefixOf buffer then buffer.drop bom.length else buffer

namespace EventReader

/-- `_EventReader._lines`. -/
def lines (final : Bool) (r : EventReader D) : EventReader D :=
  if !r.started && (!final && awaitsBom r.pending) then r
  else
    let buffer := if r.started then r.pending else dropBom r.pending
    let read := lineSplitter.drain (lineReader py requestId) final r.reading buffer
    { pending := read.2, started := true, reading := read.1 }

/-- `_EventReader.feed`. -/
def feed (r : EventReader D) (chunk : List UInt8) : EventReader D :=
  if r.reading.done then r
  else lines py requestId false { r with pending := r.pending ++ chunk }

/-- `_EventReader.finish`. -/
def finish (r : EventReader D) : EventReader D :=
  if r.reading.done then r else lines py requestId true r

/-- The chunks of a body, until the reader is done. -/
def feedAll : EventReader D → List (List UInt8) → EventReader D
  | r, [] => r
  | r, chunk :: chunks =>
    if (feed py requestId r chunk).reading.done then feed py requestId r chunk
    else feedAll (feed py requestId r chunk) chunks

end EventReader

/-- `McpSession._exchange` on a body that arrives in these chunks: what was found, and how many
events were dispatched. -/
def exchange (chunks : List (List UInt8)) : Found D × ℕ :=
  let r := ((EventReader.new.feedAll py requestId chunks).finish py requestId).reading
  (r.found, r.events)

end Rheostream.Connectors
