import Rheostream.Connectors.EventReader

/-!
# Reading an event stream in chunks

However its bytes arrive, a body is read as what it says as a whole: its lines, the events
that empty lines close, and the first event that settles the search.
-/

namespace Rheostream.Connectors

variable {D : Type}

/-! ## What a body says -/

/-- The lines of a body that end; a last one that does not is dropped. -/
def bodyLines (body : List UInt8) : List (List UInt8) :=
  (sections (· == 10) (unifyEnds body)).1

/-- The values of one field, in order. -/
def fieldValues (name : String) (lines : List (List Char)) : List (List Char) :=
  (lines.filter fun line => fieldName line == name.toList).map fieldValue

/-- The type and the data of the event on these lines, unless one of them is undecodable. -/
def eventOf (lines : List (List UInt8)) : Option (List Char × List Char) :=
  (lines.mapM decodeUtf8).map fun lines =>
    ((fieldValues "event" lines).getLast?.getD [], ['\n'].intercalate (fieldValues "data" lines))

/-- The events of a body in order; an unterminated one only counts when it is undecodable. -/
def bodyEvents (lines : List (List UInt8)) : List (Option (List Char × List Char)) :=
  (sections List.isEmpty lines).1.map eventOf ++
    if (eventOf (sections List.isEmpty lines).2).isNone then [none] else []

/-- The first event that `verdict` settles, the events with no data passed over, and how many
others were seen. -/
def search (verdict : List Char → Found D) :
    List (Option (List Char × List Char)) → ℕ → Found D × ℕ
  | [], n => (.searching, n)
  | none :: _, n => (.malformed, n)
  | some (event, data) :: rest, n =>
    if data.isEmpty then search verdict rest n
    else if isMessage event then
      match verdict data with
      | .searching => search verdict rest (n + 1)
      | found => (found, n + 1)
    else search verdict rest (n + 1)

/-- What the body of an answer says, when `verdict` reads its messages. -/
def reference (verdict : List Char → Found D) (body : List UInt8) : Found D × ℕ :=
  search verdict (bodyEvents (bodyLines (dropBom body))) 0

variable (py : Loads D) (requestId : ℤ)

/-! ## The lines -/

theorem sections_lf_cons {b : UInt8} (h : ¬b = 10) (l : List UInt8) :
    (sections (· == 10) (b :: l)).1 =
      match (sections (· == 10) l).1 with
      | [] => []
      | first :: more => (b :: first) :: more := by
  have hb : (b == 10) = false := beq_eq_false_iff_ne.mpr h
  rw [sections, hb, if_neg Bool.false_ne_true]
  rcases sections (· == 10) l with ⟨_ | ⟨first, more⟩, rest⟩
  · rfl
  · rfl

theorem bodyLines_lf (l : List UInt8) : bodyLines (10 :: l) = [] :: bodyLines l := by
  cases l with
  | nil => rfl
  | cons c l => rfl

theorem bodyLines_cons {b : UInt8} (hlf : ¬b = 10) (hcr : ¬b = 13) (l : List UInt8) :
    bodyLines (b :: l) =
      match bodyLines l with
      | [] => []
      | first :: more => (b :: first) :: more := by
  have hunify : unifyEnds (b :: l) = b :: unifyEnds l := by
    cases l with
    | nil =>
      change [if b = 13 then 10 else b] = [b]
      rw [if_neg hcr]
    | cons c l => rw [unifyEnds, if_neg hcr]
  rw [bodyLines, hunify, sections_lf_cons hlf]
  rfl

theorem bodyLines_cr {l after : List UInt8} (h : afterReturn true l = some after) :
    bodyLines (13 :: l) = [] :: bodyLines after := by
  cases l with
  | nil => cases h; rfl
  | cons c l =>
    cases h
    by_cases hpair : c = 10
    · rw [if_pos hpair, bodyLines, unifyEnds, if_pos rfl, if_pos hpair]
      rfl
    · rw [if_neg hpair, bodyLines, unifyEnds, if_pos rfl, if_neg hpair]
      rfl

/-- The first line is what the search for a line end finds. -/
theorem bodyLines_split (l : List UInt8) :
    bodyLines l = match splitLine true l with
      | none => []
      | some (line, rest) => line :: bodyLines rest := by
  induction l with
  | nil => rfl
  | cons b l ih =>
    rw [splitLine]
    by_cases hlf : b = 10
    · rw [if_pos hlf, hlf, bodyLines_lf]
    · rw [if_neg hlf]
      by_cases hcr : b = 13
      · obtain ⟨after, hafter⟩ : ∃ after, afterReturn true l = some after := by
          cases l with
          | nil => exact ⟨[], rfl⟩
          | cons c l => exact ⟨_, rfl⟩
        rw [if_pos hcr, hcr, bodyLines_cr hafter, hafter]
        rfl
      · rw [if_neg hcr, bodyLines_cons hlf hcr, ih]
        cases splitLine true l with
        | none => rfl
        | some split => rfl

/-- The reader's lines are the lines of the body. -/
theorem tokens_bodyLines (l : List UInt8) : lineSplitter.Tokens true l (bodyLines l) := by
  induction hn : l.length using Nat.strongRecOn generalizing l with
  | ind n ih =>
    subst hn
    rw [bodyLines_split]
    cases hsplit : splitLine true l with
    | none => exact Splitter.Tokens.nil hsplit
    | some split =>
      exact Splitter.Tokens.cons hsplit (ih _ (splitLine_shorter hsplit) _ rfl)

/-! ## The events -/

/-- A line that is not empty sets a field, or is undecodable. -/
theorem readLine_field {raw : List UInt8} (hraw : raw.isEmpty = false) (r : Reading D) :
    readLine py requestId r raw =
      match decodeUtf8 raw with
      | none => { r with found := .malformed }
      | some line =>
        { r with
          event := (fieldValues "event" [line]).getLast?.getD r.event
          data := r.data ++ fieldValues "data" [line] } := by
  rw [readLine]
  cases hdecoded : decodeUtf8 raw with
  | none => rfl
  | some line =>
    have hline : line.isEmpty = false := by
      cases line with
      | nil =>
        rw [decodeUtf8_eq_nil.mp hdecoded] at hraw
        cases hraw
      | cons c line => rfl
    have hvalues : ∀ name, fieldValues name [line] =
        if fieldName line = name.toList then [fieldValue line] else [] := by
      intro name
      by_cases h : fieldName line = name.toList
      · rw [if_pos h, fieldValues, List.filter_cons_of_pos (by rw [h, beq_self_eq_true])]
        rfl
      · rw [if_neg h, fieldValues, List.filter_cons_of_neg (by simpa using h)]
        rfl
    dsimp only
    rw [hline, if_neg Bool.false_ne_true, hvalues, hvalues]
    by_cases hcomment : line.head? = some ':'
    · have hname : fieldName line = [] := by
        cases line with
        | nil => rfl
        | cons c line =>
          obtain rfl : c = ':' := Option.some.inj hcomment
          rfl
      have hevent : ¬fieldName line = "event".toList := by rw [hname]; decide
      have hdata : ¬fieldName line = "data".toList := by rw [hname]; decide
      rw [if_pos hcomment, if_neg hevent, if_neg hdata, List.append_nil]
      rfl
    · rw [if_neg hcomment]
      by_cases hevent : fieldName line = "event".toList
      · have hdata : ¬fieldName line = "data".toList := by rw [hevent]; decide
        rw [if_pos hevent, if_pos hevent, if_neg hdata, List.append_nil]
        rfl
      · rw [if_neg hevent, if_neg hevent]
        by_cases hdata : fieldName line = "data".toList
        · rw [if_pos hdata, if_pos hdata]
          rfl
        · rw [if_neg hdata, if_neg hdata, List.append_nil]
          rfl

theorem fieldValues_cons (name : String) (line : List Char) (lines : List (List Char)) :
    fieldValues name (line :: lines) = fieldValues name [line] ++ fieldValues name lines := by
  rw [fieldValues, fieldValues, fieldValues, ← List.map_append, ← List.filter_append]
  rfl

variable {r : Reading D}

theorem read_line (hr : r.found = .searching) (raw : List UInt8)
    (lines : List (List UInt8)) : (lineReader py requestId).read r (raw :: lines) =
      (lineReader py requestId).read (readLine py requestId r raw) lines := by
  have hdone : ¬(lineReader py requestId).done r = true := by
    simp [lineReader, Reading.done, hr, Found.isSearching]
  rw [Consumer.read, if_neg hdone]
  rfl

/-- The lines of one event: their fields are gathered. -/
theorem read_fields {raws : List (List UInt8)} (hraws : ∀ raw ∈ raws, raw.isEmpty = false)
    (hr : r.found = .searching) {lines : List (List Char)}
    (hlines : raws.mapM decodeUtf8 = some lines) : (lineReader py requestId).read r raws =
      { r with
        event := (fieldValues "event" lines).getLast?.getD r.event
        data := r.data ++ fieldValues "data" lines } := by
  induction raws generalizing r lines with
  | nil =>
    cases hlines
    change r = { r with event := r.event, data := r.data ++ [] }
    rw [List.append_nil]
  | cons raw raws ih =>
    rw [List.mapM_cons] at hlines
    obtain ⟨line, hline, hlines⟩ := Option.bind_eq_some_iff.mp hlines
    obtain ⟨rest, hrest, heq⟩ := Option.bind_eq_some_iff.mp hlines
    cases heq
    rw [read_line py requestId hr, readLine_field py requestId (hraws raw List.mem_cons_self),
      hline, fieldValues_cons "event" line, fieldValues_cons "data" line, ← List.append_assoc,
      List.getLast?_append, Option.getD_or]
    let next : Reading D :=
      { r with
        event := (fieldValues "event" [line]).getLast?.getD r.event
        data := r.data ++ fieldValues "data" [line] }
    exact @ih next (fun b hb => hraws b (List.mem_cons_of_mem _ hb)) hr rest hrest

/-- The lines of an event one of which is undecodable: the search ends there. -/
theorem read_undecodable {raws : List (List UInt8)} (hraws : ∀ raw ∈ raws, raw.isEmpty = false)
    (hr : r.found = .searching) (hlines : raws.mapM decodeUtf8 = none) :
    ((lineReader py requestId).read r raws).found = .malformed ∧
      ((lineReader py requestId).read r raws).events = r.events := by
  induction raws generalizing r with
  | nil => cases hlines
  | cons raw raws ih =>
    rw [List.mapM_cons] at hlines
    rw [read_line py requestId hr, readLine_field py requestId (hraws raw List.mem_cons_self)]
    cases hline : decodeUtf8 raw with
    | none =>
      dsimp only
      rw [Consumer.read_done _ (by rfl)]
      exact ⟨rfl, rfl⟩
    | some line =>
      have hrest : raws.mapM decodeUtf8 = none := by
        cases hrest : raws.mapM decodeUtf8 with
        | none => rfl
        | some rest =>
          rw [hline, hrest] at hlines
          cases hlines
      exact ih (fun b hb => hraws b (List.mem_cons_of_mem _ hb)) hr hrest

/-- A reading between two events. -/
def between (n : ℕ) : Reading D := ⟨[], [], n, .searching⟩

/-- An empty line closes the event whose fields were gathered. -/
theorem dispatch_fields (event : List Char) (data : List (List Char)) (n : ℕ) :
    dispatch py requestId ⟨event, data, n, .searching⟩ =
      if (['\n'].intercalate data).isEmpty then (between n : Reading D)
      else if isMessage event then
        ⟨[], [], n + 1, answer py requestId (['\n'].intercalate data)⟩
      else between (n + 1) := by
  rw [dispatch]
  split_ifs
  · rfl
  · dsimp only
    cases answer py requestId (['\n'].intercalate data) with
    | searching => rfl
    | malformed => rfl
    | response document => rfl
  · rfl

theorem readLine_empty (r : Reading D) : readLine py requestId r [] = dispatch py requestId r :=
  rfl

/-- The reader of a body's lines finds what its events say. -/
theorem read_events (lines : List (List UInt8)) (n : ℕ) :
    (((lineReader py requestId).read (between n) lines).found,
      ((lineReader py requestId).read (between n) lines).events) =
      search (answer py requestId) (bodyEvents lines) n := by
  induction hn : lines.length using Nat.strongRecOn generalizing lines n with
  | ind k ih =>
    subst hn
    rcases sections_cases List.isEmpty lines with hopen | ⟨a, x, rest, rfl, ha, hx⟩
    · rw [bodyEvents, sections_open hopen, List.map_nil, List.nil_append, eventOf]
      cases hlines : lines.mapM decodeUtf8 with
      | none =>
        obtain ⟨hfound, hevents⟩ := read_undecodable py requestId (r := between n) hopen rfl hlines
        rw [hfound, hevents]
        rfl
      | some decoded =>
        rw [read_fields py requestId (r := between n) hopen rfl hlines]
        rfl
    · obtain rfl : x = [] := List.isEmpty_iff.mp hx
      have hevents : bodyEvents (a ++ [] :: rest) = eventOf a :: bodyEvents rest := by
        rw [bodyEvents, sections_append ha hx]
        rfl
      rw [hevents, Consumer.read_append]
      cases hlines : a.mapM decodeUtf8 with
      | none =>
        obtain ⟨hfound, hcount⟩ := read_undecodable py requestId (r := between n) ha rfl hlines
        have hdone : (lineReader py requestId).done
            ((lineReader py requestId).read (between n) a) = true := by
          simp [lineReader, Reading.done, hfound, Found.isSearching] at hfound ⊢
        rw [Consumer.read_done _ hdone, hfound, hcount, eventOf, hlines]
        rfl
      | some decoded =>
        have hshorter : rest.length < (a ++ [] :: rest).length := by
          rw [List.length_append, List.length_cons]
          omega
        rw [read_fields py requestId (r := between n) ha rfl hlines, read_line _ _ rfl,
          readLine_empty, eventOf, hlines, Option.map_some, search]
        rw [between, List.nil_append, dispatch_fields]
        split_ifs
        · exact ih _ hshorter rest n rfl
        · cases hanswer : answer py requestId (['\n'].intercalate (fieldValues "data" decoded)) with
          | searching => exact ih _ hshorter rest (n + 1) rfl
          | malformed => rw [Consumer.read_done _ (by rfl)]
          | response document => rw [Consumer.read_done _ (by rfl)]
        · exact ih _ hshorter rest (n + 1) rfl

/-! ## The chunks -/

theorem awaitsBom_iff {buffer : List UInt8} :
    awaitsBom buffer = true ↔ buffer.length < bom.length ∧ buffer <+: bom := by
  simp [awaitsBom]

variable {a : List UInt8}

/-- More bytes do not bring a byte order mark back into question. -/
theorem awaitsBom_append {b : List UInt8} (h : awaitsBom a = false) :
    awaitsBom (a ++ b) = false := by
  rw [← Bool.not_eq_true, awaitsBom_iff] at h ⊢
  rintro ⟨hlength, hprefix⟩
  rw [List.length_append] at hlength
  exact h ⟨by omega, (List.prefix_append a b).trans hprefix⟩

/-- Where the byte order mark is not in question, what follows does not touch it. -/
theorem dropBom_append (h : awaitsBom a = false) (b : List UInt8) :
    dropBom (a ++ b) = dropBom a ++ b := by
  by_cases hbom : bom <+: a
  · have hlonger : bom <+: a ++ b := hbom.trans (List.prefix_append a b)
    rw [dropBom, if_pos (List.isPrefixOf_iff_prefix.mpr hlonger), dropBom,
      if_pos (List.isPrefixOf_iff_prefix.mpr hbom), List.drop_append_of_le_length hbom.length_le]
  · have hlonger : ¬bom <+: a ++ b := by
      intro hlonger
      rw [← Bool.not_eq_true, awaitsBom_iff] at h
      by_cases hlength : a.length < bom.length
      · have hshort : a <+: bom :=
          List.prefix_of_prefix_length_le (List.prefix_append a b) hlonger (by omega)
        exact h ⟨hlength, hshort⟩
      · have hlong : bom <+: a :=
          List.prefix_of_prefix_length_le hlonger (List.prefix_append a b) (by omega)
        exact hbom hlong
    rw [dropBom, if_neg (mt List.isPrefixOf_iff_prefix.mp hlonger), dropBom,
      if_neg (mt List.isPrefixOf_iff_prefix.mp hbom)]

/-- What is read of the bytes `a` while more may come. -/
def readSoFar (a : List UInt8) : Reading D × List UInt8 :=
  lineSplitter.drain (lineReader py requestId) false (between 0) (dropBom a)

/-- The reader that was fed the bytes `a`. -/
def fed (a : List UInt8) : EventReader D :=
  if awaitsBom a then ⟨a, false, between 0⟩
  else ⟨(readSoFar py requestId a).2, true, (readSoFar py requestId a).1⟩

/-- What is read of the bytes `a` when nothing more comes. -/
def readWhole (a : List UInt8) : Reading D :=
  (lineSplitter.drain (lineReader py requestId) true (between 0) (dropBom a)).1

/-- A reader that is not done takes the next chunk as if it had come at once. -/
theorem feed_fed (hdone : (fed py requestId a).reading.done = false)
    (chunk : List UInt8) : (fed py requestId a).feed py requestId chunk =
      fed py requestId (a ++ chunk) := by
  rw [EventReader.feed, hdone, if_neg Bool.false_ne_true]
  cases hbom : awaitsBom a with
  | true =>
    rw [fed, hbom, if_pos rfl, EventReader.lines, fed]
    cases awaitsBom (a ++ chunk) with
    | true => rfl
    | false => rfl
  | false =>
    rw [fed, hbom, if_neg Bool.false_ne_true, fed, awaitsBom_append hbom,
      if_neg Bool.false_ne_true, EventReader.lines]
    have hread : readSoFar py requestId (a ++ chunk) =
        lineSplitter.drain (lineReader py requestId) false (readSoFar py requestId a).1
          ((readSoFar py requestId a).2 ++ chunk) := by
      rw [readSoFar, dropBom_append hbom, Splitter.drain_append]
      rfl
    rw [hread]
    rfl

/-- Once the reader is done, nothing that follows changes what it found. -/
theorem fed_done (hdone : (fed py requestId a).reading.done = true)
    (b : List UInt8) : readWhole py requestId (a ++ b) = (fed py requestId a).reading := by
  cases hbom : awaitsBom a with
  | true =>
    rw [fed, hbom, if_pos rfl] at hdone
    cases hdone
  | false =>
    rw [fed, hbom, if_neg Bool.false_ne_true] at hdone ⊢
    rw [readWhole, dropBom_append hbom]
    exact Splitter.drain_of_done lineSplitter (lineReader py requestId) hdone b

/-- Finishing reads what is left as the end of the body. -/
theorem finish_fed (hdone : (fed py requestId a).reading.done = false) :
    ((fed py requestId a).finish py requestId).reading = readWhole py requestId a := by
  rw [EventReader.finish, hdone, if_neg Bool.false_ne_true]
  cases hbom : awaitsBom a with
  | true =>
    rw [fed, hbom, if_pos rfl]
    rfl
  | false =>
    rw [fed, hbom, if_neg Bool.false_ne_true, readWhole]
    conv_rhs => rw [← List.append_nil (dropBom a), Splitter.drain_append, List.append_nil]
    rfl

/-- However the rest arrives, the reader reads the whole. -/
theorem finish_feedAll (hdone : (fed py requestId a).reading.done = false)
    (chunks : List (List UInt8)) :
    (((fed py requestId a).feedAll py requestId chunks).finish py requestId).reading =
      readWhole py requestId (a ++ chunks.flatten) := by
  induction chunks generalizing a with
  | nil =>
    rw [List.flatten_nil, List.append_nil]
    exact finish_fed py requestId hdone
  | cons chunk chunks ih =>
    rw [EventReader.feedAll, feed_fed py requestId hdone, List.flatten_cons, ← List.append_assoc]
    cases hnext : (fed py requestId (a ++ chunk)).reading.done with
    | true =>
      rw [if_pos rfl, EventReader.finish, if_pos hnext]
      exact (fed_done py requestId hnext _).symm
    | false =>
      rw [if_neg Bool.false_ne_true]
      exact ih hnext

/-- A body read at once is what it says. -/
theorem readWhole_eq (body : List UInt8) :
    ((readWhole py requestId body).found, (readWhole py requestId body).events) =
      reference (answer py requestId) body := by
  rw [readWhole, (tokens_bodyLines (dropBom body)).drain_eq]
  exact read_events py requestId _ 0

/-- Reading chunks is reading what they say together. -/
theorem exchange_eq (chunks : List (List UInt8)) :
    exchange py requestId chunks = reference (answer py requestId) chunks.flatten := by
  have hnew : (EventReader.new : EventReader D) = fed py requestId [] := rfl
  have hread := finish_feedAll py requestId (a := []) rfl chunks
  rw [List.nil_append] at hread
  rw [exchange, hnew, hread]
  exact readWhole_eq py requestId _

/-! ## One response -/

/-- An event that ends the read with nothing: its data does not load, or is an object with the
request's identifier that is neither a request itself nor a response. -/
theorem answer_malformed_iff {data : List Char} :
    answer py requestId data = .malformed ↔
      py.loads data = none ∨ ∃ document get, py.loads data = some document ∧
        py.members document = some get ∧ get "method" = none ∧
        get "id" = some (.int requestId) ∧ isResponse get requestId = false := by
  rw [answer]
  cases hloads : py.loads data with
  | none => simp
  | some document =>
    dsimp only
    cases hmembers : py.members document with
    | none => simp [hmembers]
    | some get =>
      dsimp only
      by_cases hmethod : (get "method").isSome
      · simp [hmethod, hmembers, Option.isSome_iff_ne_none.mp hmethod]
      · rw [Option.not_isSome_iff_eq_none] at hmethod
        by_cases hid : get "id" = some (.int requestId)
        · by_cases hresponse : isResponse get requestId = true
          · simp [hmethod, hmembers, hid, hresponse]
          · simp [hmethod, hmembers, hid, hresponse]
        · simp [hmethod, hmembers, hid]

/-- An event that is the response. -/
theorem answer_response_iff {data : List Char} {document : D} :
    answer py requestId data = .response document ↔
      py.loads data = some document ∧ ∃ get, py.members document = some get ∧
        get "method" = none ∧ isResponse get requestId = true := by
  rw [answer]
  cases hloads : py.loads data with
  | none => simp
  | some loaded =>
    dsimp only
    have hidOf : ∀ {get : String → Option Member}, isResponse get requestId = true →
        get "id" = some (.int requestId) := by
      intro get h
      simp only [isResponse, Bool.and_eq_true, decide_eq_true_eq] at h
      exact h.1.2
    cases hmembers : py.members loaded with
    | none =>
      constructor
      · intro h
        cases h
      · rintro ⟨hsame, get, hget, _⟩
        rw [← Option.some.inj hsame, hmembers] at hget
        cases hget
    | some get =>
      dsimp only
      constructor
      · intro h
        split_ifs at h with hmethod hid hresponse
        cases h
        exact ⟨rfl, get, hmembers, Option.not_isSome_iff_eq_none.mp hmethod, hresponse⟩
      · rintro ⟨hsame, get', hget, hmethod, hresponse⟩
        obtain rfl := Option.some.inj hsame
        obtain rfl : get = get' := Option.some.inj (hmembers.symm.trans hget)
        simp [hmethod, hidOf hresponse, hresponse]

/-- The event-stream reader: the chunks a body arrives in make no difference to what is found or
to the events counted, and it is what the first event that settles the search says. -/
theorem event_stream_read (chunks : List (List UInt8)) :
    exchange py requestId chunks = exchange py requestId [chunks.flatten] ∧
      exchange py requestId chunks = reference (answer py requestId) chunks.flatten ∧
      (∀ data document, answer py requestId data = .response document ↔
        py.loads data = some document ∧ ∃ get, py.members document = some get ∧
          get "method" = none ∧ isResponse get requestId = true) ∧
      ∀ data, answer py requestId data = .malformed ↔
        py.loads data = none ∨ ∃ document get, py.loads data = some document ∧
          py.members document = some get ∧ get "method" = none ∧
          get "id" = some (.int requestId) ∧ isResponse get requestId = false := by
  refine ⟨?_, exchange_eq py requestId chunks, fun _ _ => answer_response_iff py requestId,
    fun _ => answer_malformed_iff py requestId⟩
  rw [exchange_eq, exchange_eq, List.flatten_singleton]

/-- A message's verdict when only unparsable data ends the search without a response. -/
def firstResponse (data : List Char) : Found D :=
  match py.loads data with
  | none => .malformed
  | some document =>
    match py.members document with
    | none => .searching
    | some get => if isResponse get requestId then .response document else .searching

/-- `json.loads` on two texts: a response that has neither a result nor an error, and one that
has a result. -/
def sampleLoads : Loads (List (String × Member)) where
  loads text :=
    if text = "\x7b\"jsonrpc\":\"2.0\",\"id\":1\x7d".toList then
      some [("jsonrpc", .str "2.0"), ("id", .int 1)]
    else if text = "\x7b\"jsonrpc\":\"2.0\",\"id\":1,\"result\":\x7b\x7d\x7d".toList then
      some [("jsonrpc", .str "2.0"), ("id", .int 1), ("result", .other)]
    else none
  members document := some fun name => document.lookup name

/-- The two texts as the data of two events. -/
def sampleBody : List UInt8 :=
  ("data:\x7b\"jsonrpc\":\"2.0\",\"id\":1\x7d\n\n" ++
    "data:\x7b\"jsonrpc\":\"2.0\",\"id\":1,\"result\":\x7b\x7d\x7d\n\n").toList.map
      fun c => UInt8.ofNat c.toNat

/-- A message with the request's identifier that is no valid response is not passed over. -/
theorem invalid_response_ends : ¬∀ chunks,
    exchange sampleLoads 1 chunks = reference (firstResponse sampleLoads 1) chunks.flatten := by
  intro h
  have hread : (exchange sampleLoads 1 [sampleBody]).2 = 1 := by decide
  have hclaimed : (reference (firstResponse sampleLoads 1) [sampleBody].flatten).2 = 2 := by decide
  rw [h, hclaimed] at hread
  exact absurd hread (by decide)

end Rheostream.Connectors
