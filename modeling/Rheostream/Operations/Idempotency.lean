import Rheostream.Foundation.Table
import Rheostream.Storage.Jsonb

/-!
# Keyed requests and their envelopes

The canonical identity of a keyed request, the `core.idempotency_result` row that retains its
outcome, and what a later call with the same key is answered from it. Every document in a row
is what its `jsonb` column gives back. The digest, the adapters and the declared output model
are parameters.
-/

namespace Rheostream

/-- The members of the `idempotency_result_state` check constraint. -/
inductive IdempotencyState where
  | pending
  | succeeded
  | failed
  | refused
  | unresolved
  | cancelled
deriving DecidableEq, Repr

namespace IdempotencyState

/-- The state as the column holds it. -/
def name : IdempotencyState → String
  | pending => "pending"
  | succeeded => "succeeded"
  | failed => "failed"
  | refused => "refused"
  | unresolved => "unresolved"
  | cancelled => "cancelled"

/-- The terminal error states. -/
def isError : IdempotencyState → Bool
  | failed | refused | unresolved | cancelled => true
  | pending | succeeded => false

end IdempotencyState

def idempotencyKeyReused : String := "idempotency_key_reused"

def idempotencySchemaIncompatible : String := "idempotency_schema_incompatible"

def maxKeyBytes : ℕ := 256

/-- A keyed declaration's versions. -/
structure KeyedSpec where
  requestSchemaVersion : ℕ
  resultSchemaVersion : ℕ
deriving DecidableEq

/-- What the keyed path reads of an operation's declaration; `output` validates a document
against the output model. -/
structure OperationDeclaration (Output : Type) where
  name : String
  keyed : Option KeyedSpec
  output : Json → Option Output

/-- A request in its canonical form. -/
structure CanonicalRequest where
  identity : Json
  encoded : ByteArray
  digest : ByteArray
  key : String

/-- The characters that `str.isspace` accepts. -/
def isSpace (c : Char) : Bool :=
  let n := c.toNat
  (9 ≤ n && n ≤ 13) || (28 ≤ n && n ≤ 32) || n = 0x85 || n = 0xa0 || n = 0x1680 ||
    (0x2000 ≤ n && n ≤ 0x200a) || n = 0x2028 || n = 0x2029 || n = 0x202f || n = 0x205f ||
    n = 0x3000

/-- A key, if the field holds a string, is not blank and not too long. -/
def validateIdempotencyKey (value : Option String) : Except String String :=
  match value with
  | none => .error "idempotency key must be a string"
  | some value =>
    if value.toList.all isSpace then .error "idempotency key must be nonblank"
    else if value.utf8ByteSize > maxKeyBytes then
      .error "idempotency key must be at most 256 UTF-8 bytes"
    else .ok value

/-- The bytes of a document's canonical text. -/
def canonicalBytes (value : Json) : ByteArray := (String.ofList value.text).toUTF8

/-- What identifies a request: the operation and its whole input. -/
def requestIdentity (name : String) (projected : Json) : Json :=
  .obj [("operation_name", .str name), ("input", projected)]

section Requests

variable (sha256 : ByteArray → ByteArray) {Output : Type}

/-- `key` is the model's key field, if it is a string, and `projected` the model's dump. -/
def canonicalRequest (declaration : OperationDeclaration Output) (key : Option String)
    (projected : Json) : Except String CanonicalRequest :=
  match declaration.keyed with
  | none => .error "operation has no keyed declaration"
  | some _ =>
    match validateIdempotencyKey key with
    | .error detail => .error detail
    | .ok key =>
      let identity := requestIdentity declaration.name projected
      let encoded := canonicalBytes identity
      .ok ⟨identity, encoded, sha256 encoded, key⟩

/-- An accepted request is the canonical form of its input. -/
theorem canonicalRequest_eq_ok {declaration : OperationDeclaration Output} {key : Option String}
    {projected : Json} {request : CanonicalRequest}
    (h : canonicalRequest sha256 declaration key projected = .ok request) :
    request.identity = requestIdentity declaration.name projected ∧
      request.encoded = canonicalBytes request.identity ∧
      request.digest = sha256 request.encoded := by
  unfold canonicalRequest at h
  split at h
  · cases h
  · split at h
    · cases h
    · obtain rfl := Except.ok.inj h
      exact ⟨rfl, rfl, rfl⟩

end Requests

/-- One kind of registered adapters: from a version of an operation to the next version. -/
abbrev AdapterTable := Table (String × ℕ) (ℕ × (Json → Option Json))

/-- The adapters of requests and of results. -/
structure KeyedCompatibilityRegistry where
  request : AdapterTable
  result : AdapterTable

/-- A value that must be an object. -/
def jsonObject (value : Json) (label : String) : Except String Json :=
  match value with
  | .obj members => .ok (.obj members)
  | _ => .error (label ++ " is not a JSON object")

/-- The versions to go through, one adapter at a time. A path longer than there are adapters
comes back to a version it has visited. -/
def adaptFrom (table : AdapterTable) (operationName : String) (toVersion : ℕ) :
    ℕ → ℕ → List ℕ → Json → Except String Json
  | fuel, current, visited, adapted =>
    if current = toVersion then .ok adapted
    else if visited.contains current then .error "adapter graph contains a cycle"
    else match table.lookup (operationName, current), fuel with
      | none, _ => .error ("no adapter from " ++ operationName ++ " schema " ++
          toString current ++ " to " ++ toString toVersion)
      | some _, 0 => .error "adapter graph contains a cycle"
      | some (nextVersion, adapter), fuel + 1 =>
        match adapter adapted with
        | none => .error ("adapter from " ++ toString current ++ " to " ++
            toString nextVersion ++ " failed")
        | some value =>
          match jsonObject value "adapted keyed value" with
          | .error detail => .error detail
          | .ok value =>
            adaptFrom table operationName toVersion fuel nextVersion (current :: visited) value

/-- A value taken from one version to another. -/
def adapt (table : AdapterTable) (operationName : String) (value : Json)
    (fromVersion toVersion : ℕ) : Except String Json :=
  adaptFrom table operationName toVersion table.entries.length fromVersion [] value

/-- A value of the current version stays as it is. -/
@[simp] theorem adapt_same (table : AdapterTable) (operationName : String) (value : Json)
    (version : ℕ) : adapt table operationName value version version = .ok value := by
  rw [adapt, adaptFrom.eq_def]
  exact if_pos rfl

/-- A `core.idempotency_result` row. -/
structure IdempotencyRow where
  requestIdentity : Json
  requestDigest : ByteArray
  requestSchemaVersion : ℕ
  state : IdempotencyState
  operationId : Option Uuid
  result : Option Json
  resultSchemaVersion : Option ℕ
  errorCode : Option String
  errorDetail : Option String
  retainedUntil : ℕ

namespace IdempotencyRow

/-- The row `reserve` inserts; `none` when the column does not take the identity. -/
def reserved (spec : KeyedSpec) (request : CanonicalRequest) (operationId : Option Uuid)
    (retainedUntil : ℕ) : Option IdempotencyRow :=
  request.identity.jsonb.map fun identity =>
    { requestIdentity := identity
      requestDigest := request.digest
      requestSchemaVersion := spec.requestSchemaVersion
      state := .pending
      operationId := operationId
      result := none
      resultSchemaVersion := none
      errorCode := none
      errorDetail := none
      retainedUntil := retainedUntil }

/-- Advance a pending row to `succeeded`. `body` is the result as its column gives it back. -/
def finishSuccess (spec : KeyedSpec) (body : Json) : RowUpdate IdempotencyRow where
  guard row := row.state = .pending
  set row :=
    { row with
      state := .succeeded
      result := some body
      resultSchemaVersion := some spec.resultSchemaVersion
      errorCode := none
      errorDetail := none }

/-- Advance a pending row to a terminal error state. -/
def finishError (state : IdempotencyState) (errorCode errorDetail : String) :
    RowUpdate IdempotencyRow where
  guard row := row.state = .pending
  set row :=
    { row with
      state := state
      result := none
      resultSchemaVersion := none
      errorCode := some errorCode
      errorDetail := some errorDetail }

/-- A row as it is read: its documents must be objects. A JSON `null` reads as no result. -/
def read (raw : IdempotencyRow) : Except String IdempotencyRow :=
  match jsonObject raw.requestIdentity "stored request identity" with
  | .error detail => .error detail
  | .ok identity =>
    match raw.result with
    | none | some .null => .ok { raw with requestIdentity := identity, result := none }
    | some result =>
      match jsonObject result "stored result" with
      | .error detail => .error detail
      | .ok result => .ok { raw with requestIdentity := identity, result := some result }

end IdempotencyRow

/-- What a retained envelope answers. -/
structure RetainedReplay (Output : Type) where
  state : String
  result : Option Output
  errorCode : Option String
  errorDetail : Option String
  operationId : Option Uuid

/-- The answer to a request whose key is bound to another one. -/
def RetainedReplay.reused {Output : Type} (operationId : Option Uuid) : RetainedReplay Output where
  state := "refused"
  result := none
  errorCode := some idempotencyKeyReused
  errorDetail := some "the idempotency key is already bound to a different request"
  operationId := operationId

/-- Python's `detail or code`. -/
def detailOr (detail : Option String) (code : String) : String :=
  match detail with
  | some detail => if detail = "" then code else detail
  | none => code

section Replay

/-- The comparison of stored bytes. -/
abbrev bytesEq : DecidableEq ByteArray := ByteArray.instDecidableEq

attribute [local instance] bytesEq

variable (sha256 : ByteArray → ByteArray) (adapters : KeyedCompatibilityRegistry)
  {Output : Type} (declaration : OperationDeclaration Output)

/-- The answer once the request was recognised. -/
def IdempotencyRow.answer (spec : KeyedSpec) (row : IdempotencyRow) :
    Except String (RetainedReplay Output) :=
  match row.state with
  | .succeeded =>
    match row.result, row.resultSchemaVersion with
    | some result, some version =>
      match adapt adapters.result declaration.name result version spec.resultSchemaVersion with
      | .error detail => .error detail
      | .ok adapted =>
        match declaration.output adapted with
        | none => .error "adapted stored result does not validate against current output"
        | some model => .ok ⟨"succeeded", some model, none, none, row.operationId⟩
    | _, _ => .error "stored success has no result/version"
  | .pending => .ok ⟨"pending", none, none, none, row.operationId⟩
  | state =>
    match row.errorCode with
    | none => .error "stored terminal error has no code"
    | some code => .ok
        { state := if state = .refused then code else state.name
          result := none
          errorCode := some code
          errorDetail := some (detailOr row.errorDetail code)
          operationId := row.operationId }

/-- The stored identity is encoded again and compared, digest and bytes, with the request. -/
def replay (request : CanonicalRequest) (row : IdempotencyRow) :
    Except String (RetainedReplay Output) :=
  match declaration.keyed with
  | none => .error "operation has no keyed declaration"
  | some spec =>
    if sha256 (canonicalBytes row.requestIdentity) ≠ row.requestDigest then
      .error "stored keyed request identity does not match its digest"
    else match adapt adapters.request declaration.name row.requestIdentity
        row.requestSchemaVersion spec.requestSchemaVersion with
      | .error detail => .error detail
      | .ok storedIdentity =>
        if canonicalBytes storedIdentity ≠ request.encoded then
          .ok (.reused row.operationId)
        else row.answer adapters declaration spec

end Replay

end Rheostream
