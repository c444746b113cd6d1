import Rheostream.Operations.Idempotency

/-!
# A retained request recognises itself

`replay` encodes the identity it reads back and compares bytes that were taken before the
identity went into its column. The two agree exactly when the column gives every number of the
request back as itself, which it does not of a float of `1e16` or more, nor of a negative zero.
-/

namespace Rheostream

/-- What a key is retained with. -/
inductive RetainedOutcome where
  | pending
  | succeeded (body : Json)
  | error (state : IdempotencyState) (errorCode errorDetail : String)

namespace RetainedOutcome

/-- The row that a reservation becomes with the outcome, if the columns take it. -/
def retain (spec : KeyedSpec) (row : IdempotencyRow) : RetainedOutcome → Option IdempotencyRow
  | pending => some row
  | succeeded body => body.jsonb.bind fun body => (IdempotencyRow.finishSuccess spec body).apply row
  | error state errorCode errorDetail =>
    if state.isError then (IdempotencyRow.finishError state errorCode errorDetail).apply row
    else none

/-- The state a later call is answered. A retained refusal answers its code. -/
def answerState : RetainedOutcome → String
  | pending => "pending"
  | succeeded _ => "succeeded"
  | error state errorCode _ => if state = .refused then errorCode else state.name

/-- The code a later call is answered. -/
def errorCode : RetainedOutcome → Option String
  | pending | succeeded _ => none
  | error _ errorCode _ => some errorCode

/-- Whether the output model takes what the column gives back of a result. -/
def isReadable {Output : Type} (declaration : OperationDeclaration Output) :
    RetainedOutcome → Bool
  | succeeded body => body.jsonb.any fun stored =>
      (jsonObject stored "stored result").toOption.any fun stored =>
        (declaration.output stored).isSome
  | pending | error _ _ _ => true

end RetainedOutcome

section Replay

variable {sha256 : ByteArray → ByteArray} {adapters : KeyedCompatibilityRegistry}
  {Output : Type} {declaration : OperationDeclaration Output} {spec : KeyedSpec}
  {key : Option String} {projected : Json} {request : CanonicalRequest}
  {operationId : Option Uuid} {retainedUntil : ℕ} {reserved row : IdempotencyRow}
  {outcome : RetainedOutcome}

private theorem canonicalBytes_inj {a b : Json} :
    canonicalBytes a = canonicalBytes b ↔ a.text = b.text :=
  String.toByteArray_inj.trans String.ofList_inj

/-- What identifies a request is a document, with the numbers of its input. -/
private theorem requestIdentity_all {p : Json → Bool} {name : String}
    (hp : p (requestIdentity name projected) = true) (hname : (Json.str name).all p = true) :
    (requestIdentity name projected).all p = true ↔ projected.all p = true := by
  refine Json.all_obj.trans ((and_iff_right hp).trans ?_)
  simp [hname]

/-- The identity as its column gives it back is an object, and prints as before exactly if the
input's numbers are given back as themselves. -/
private theorem identity_stored {identity : Json} (hprojected : projected.isDocument = true)
    (hidentity : (requestIdentity declaration.name projected).jsonb = some identity) :
    jsonObject identity "stored request identity" = .ok identity ∧
      (canonicalBytes identity = canonicalBytes (requestIdentity declaration.name projected) ↔
        projected.isStable = true) := by
  obtain ⟨-, hidentity⟩ := Option.ite_none_right_eq_some.mp hidentity
  obtain rfl := Option.some.inj hidentity
  refine ⟨rfl, ?_⟩
  have hdocument : (requestIdentity declaration.name projected).isDocument = true :=
    (requestIdentity_all (by simp [requestIdentity, Json.keysDiffer]) rfl).mpr hprojected
  rw [canonicalBytes_inj, text_stored _ hdocument]
  exact requestIdentity_all rfl rfl

/-- What is read of a retained row, but for its result, is what was reserved. -/
private theorem retain_keeps (hrow : outcome.retain spec reserved = some row) :
    row.requestIdentity = reserved.requestIdentity ∧
      row.requestDigest = reserved.requestDigest ∧
      row.requestSchemaVersion = reserved.requestSchemaVersion := by
  cases outcome with
  | pending =>
    obtain rfl := Option.some.inj hrow
    exact ⟨rfl, rfl, rfl⟩
  | succeeded body =>
    obtain ⟨stored, -, hrow⟩ := Option.bind_eq_some_iff.mp hrow
    obtain ⟨-, rfl⟩ := RowUpdate.apply_eq_some.mp hrow
    exact ⟨rfl, rfl, rfl⟩
  | error state errorCode errorDetail =>
    obtain ⟨-, hrow⟩ := Option.ite_none_right_eq_some.mp hrow
    obtain ⟨-, rfl⟩ := RowUpdate.apply_eq_some.mp hrow
    exact ⟨rfl, rfl, rfl⟩

/-- What a later call is answered from the row its reservation found. -/
def replayRetained (sha256 : ByteArray → ByteArray) (adapters : KeyedCompatibilityRegistry)
    (declaration : OperationDeclaration Output) (request : CanonicalRequest)
    (row : IdempotencyRow) : Except String (RetainedReplay Output) :=
  match row.read with
  | .error detail => .error detail
  | .ok row => replay sha256 adapters declaration request row

/-- A row whose identity is an object is read as it is, but for a result that is no object. -/
private theorem read_eq_ok {raw read : IdempotencyRow} (h : raw.read = .ok read)
    (hidentity : jsonObject raw.requestIdentity "stored request identity" =
      .ok raw.requestIdentity) :
    read.requestIdentity = raw.requestIdentity ∧ read.requestDigest = raw.requestDigest ∧
      read.requestSchemaVersion = raw.requestSchemaVersion := by
  unfold IdempotencyRow.read at h
  rw [hidentity] at h
  dsimp only at h
  split at h
  · obtain rfl := Except.ok.inj h
    exact ⟨rfl, rfl, rfl⟩
  · obtain rfl := Except.ok.inj h
    exact ⟨rfl, rfl, rfl⟩
  · split at h
    · cases h
    · obtain rfl := Except.ok.inj h
      exact ⟨rfl, rfl, rfl⟩

/-- A request that is not recognised is answered nothing, or that its key is reused. -/
private theorem replay_unrecognised (hkeyed : declaration.keyed = some spec)
    (hversion : row.requestSchemaVersion = spec.requestSchemaVersion)
    (hbytes : canonicalBytes row.requestIdentity ≠ request.encoded) {answer : RetainedReplay Output}
    (h : replay sha256 adapters declaration request row = .ok answer) :
    answer = .reused row.operationId := by
  simp only [replay, hkeyed, hversion, adapt_same, hbytes, ne_eq, not_false_eq_true, if_true] at h
  split at h
  · cases h
  · exact (Except.ok.inj h).symm

/-- A request that is recognised is answered from the row. -/
private theorem replay_recognised (hkeyed : declaration.keyed = some spec)
    (hversion : row.requestSchemaVersion = spec.requestSchemaVersion)
    (hdigest : row.requestDigest = sha256 request.encoded)
    (hbytes : canonicalBytes row.requestIdentity = request.encoded) :
    replay sha256 adapters declaration request row = row.answer adapters declaration spec := by
  simp [replay, hkeyed, hversion, hdigest, hbytes]

/-- No outcome is answered as a reused key is. -/
private theorem not_reused (hrow : outcome.retain spec reserved = some row)
    (hstate : (RetainedReplay.reused operationId : RetainedReplay Output).state =
      outcome.answerState)
    (hcode : (RetainedReplay.reused operationId : RetainedReplay Output).errorCode =
      outcome.errorCode) : False := by
  cases outcome with
  | pending | succeeded => cases hcode
  | error state errorCode errorDetail =>
    obtain ⟨herror, -⟩ := Option.ite_none_right_eq_some.mp hrow
    obtain rfl : idempotencyKeyReused = errorCode := Option.some.inj hcode
    cases state <;> simp_all [RetainedReplay.reused, RetainedOutcome.answerState,
      IdempotencyState.name, IdempotencyState.isError, idempotencyKeyReused]

private theorem read_of_result_none (hresult : row.result = none)
    (hidentity : jsonObject row.requestIdentity "stored request identity" =
      .ok row.requestIdentity) : row.read = .ok row := by
  cases row
  simp_all [IdempotencyRow.read]

/-- A result that is no object is not read, or read as none. -/
private theorem read_of_not_object {stored : Json} {detail : String}
    (hstored : row.result = some stored)
    (hidentity : jsonObject row.requestIdentity "stored request identity" =
      .ok row.requestIdentity)
    (hobject : jsonObject stored "stored result" = .error detail) :
    row.read = .error detail ∨ row.read = .ok { row with result := none } := by
  cases row
  simp only at hstored
  subst hstored
  cases stored <;> simp_all [IdempotencyRow.read, jsonObject]

private theorem read_of_object {stored : Json} (hstored : row.result = some stored)
    (hidentity : jsonObject row.requestIdentity "stored request identity" =
      .ok row.requestIdentity)
    (hobject : jsonObject stored "stored result" = .ok stored) : row.read = .ok row := by
  cases row
  simp only at hstored
  subst hstored
  cases stored <;> simp_all [IdempotencyRow.read, jsonObject]

/-- What a recognised request is answered: the outcome, if its result can be read. -/
private theorem answers_iff (hkeyed : declaration.keyed = some spec)
    (hreserved : reserved.state = .pending ∧ reserved.result = none ∧
      reserved.requestSchemaVersion = spec.requestSchemaVersion)
    (hrow : outcome.retain spec reserved = some row)
    (hidentity : jsonObject reserved.requestIdentity "stored request identity" =
      .ok reserved.requestIdentity)
    (hdigest : reserved.requestDigest = sha256 request.encoded)
    (hbytes : canonicalBytes reserved.requestIdentity = request.encoded) :
    (∃ answer, replayRetained sha256 adapters declaration request row = .ok answer ∧
        answer.state = outcome.answerState ∧ answer.errorCode = outcome.errorCode) ↔
      outcome.isReadable declaration = true := by
  obtain ⟨hpending, hnone, hversion⟩ := hreserved
  obtain ⟨hsame, hsameDigest, hsameVersion⟩ := retain_keeps hrow
  rw [← hsame] at hidentity hbytes
  rw [← hsameDigest] at hdigest
  rw [← hsameVersion] at hversion
  have hrecognised : replay sha256 adapters declaration request row =
      row.answer adapters declaration spec := replay_recognised hkeyed hversion hdigest hbytes
  cases outcome with
  | pending =>
    obtain rfl := Option.some.inj hrow
    refine iff_of_true ⟨⟨"pending", none, none, none, reserved.operationId⟩, ?_, rfl, rfl⟩ rfl
    rw [replayRetained, read_of_result_none hnone hidentity]
    simp only [hrecognised, IdempotencyRow.answer, hpending]
  | error state errorCode errorDetail =>
    obtain ⟨herror, hrow⟩ := Option.ite_none_right_eq_some.mp hrow
    obtain ⟨-, rfl⟩ := RowUpdate.apply_eq_some.mp hrow
    refine iff_of_true ⟨⟨if state = .refused then errorCode else state.name, none, some errorCode,
      some (detailOr (some errorDetail) errorCode), reserved.operationId⟩, ?_, rfl, rfl⟩ rfl
    rw [replayRetained, read_of_result_none rfl hidentity]
    cases state
    case pending => cases herror
    case succeeded => cases herror
    all_goals exact hrecognised
  | succeeded body =>
    obtain ⟨stored, hstored, hrow⟩ := Option.bind_eq_some_iff.mp hrow
    obtain ⟨-, rfl⟩ := RowUpdate.apply_eq_some.mp hrow
    simp only [RetainedOutcome.isReadable, hstored, Option.any_some]
    cases hobject : jsonObject stored "stored result" with
    | error detail =>
      refine iff_of_false (fun ⟨answer, hanswer, _⟩ => ?_) (by simp [Except.toOption])
      rw [replayRetained] at hanswer
      rcases read_of_not_object rfl hidentity hobject with hread | hread
      · rw [hread] at hanswer
        cases hanswer
      · rw [hread] at hanswer
        have hnone := hanswer.symm.trans (replay_recognised hkeyed hversion hdigest hbytes)
        cases hnone
    | ok value =>
      obtain rfl : stored = value := by cases stored <;> simp_all [jsonObject]
      rw [replayRetained, read_of_object rfl hidentity hobject]
      simp only [hrecognised, Except.toOption, Option.any_some]
      simp only [IdempotencyRow.answer, IdempotencyRow.finishSuccess, adapt_same]
      cases declaration.output stored with
      | none => exact iff_of_false (fun ⟨_, h, _⟩ => by cases h) (by simp)
      | some model => exact iff_of_true ⟨_, rfl, rfl, rfl⟩ rfl

/-- A retained request is answered its outcome, by a call with the same input, exactly if the
column gives every number of the input back as itself and, of a success, the output model takes
what the column gives back of the result. -/
theorem retained_request_recognises_itself (hkeyed : declaration.keyed = some spec)
    (hprojected : projected.isDocument = true)
    (hrequest : canonicalRequest sha256 declaration key projected = .ok request)
    (hreserved : IdempotencyRow.reserved spec request operationId retainedUntil = some reserved)
    (hrow : outcome.retain spec reserved = some row) :
    (∃ answer, replayRetained sha256 adapters declaration request row = .ok answer ∧
        answer.state = outcome.answerState ∧ answer.errorCode = outcome.errorCode) ↔
      projected.isStable = true ∧ outcome.isReadable declaration = true := by
  obtain ⟨hidentity, hencoded, hdigest⟩ := canonicalRequest_eq_ok sha256 hrequest
  obtain ⟨identity, hstored, rfl⟩ := Option.map_eq_some_iff.mp hreserved
  rw [hidentity] at hstored
  obtain ⟨hobject, hbytes⟩ := identity_stored hprojected hstored
  rw [← hidentity, ← hencoded] at hbytes
  obtain ⟨hsame, -, hversion⟩ := retain_keeps hrow
  by_cases hstable : projected.isStable = true
  · rw [and_iff_right hstable]
    exact answers_iff hkeyed ⟨rfl, rfl, rfl⟩ hrow hobject hdigest (hbytes.mpr hstable)
  · refine iff_of_false (fun ⟨answer, hanswer, hstate, hcode⟩ => ?_) (fun h => hstable h.1)
    rw [replayRetained] at hanswer
    cases hread : row.read with
    | error detail =>
      rw [hread] at hanswer
      cases hanswer
    | ok read =>
      rw [hread] at hanswer
      obtain ⟨hreadIdentity, -, hreadVersion⟩ := read_eq_ok hread (hsame ▸ hobject)
      have hdiffer : canonicalBytes read.requestIdentity ≠ request.encoded := by
        rw [hreadIdentity, hsame]
        exact mt hbytes.mp hstable
      obtain rfl := replay_unrecognised hkeyed (hreadVersion.trans hversion) hdiffer hanswer
      exact not_reused hrow hstate hcode

end Replay

/-- An operation whose output model takes every document. -/
def keyedImport : OperationDeclaration Json := ⟨"leads.import", some ⟨1, 1⟩, some⟩

/-- An input with one number, and a key. -/
def amountInput (amount : PyFloat) : Json := .obj [("key", .str "a"), ("amount", .float amount)]

/-- The float `1e+16`. -/
def largeAmount : PyFloat := ⟨false, 1, 17, by decide, by decide⟩

/-- The float `1.5`. -/
def smallAmount : PyFloat := ⟨false, 15, 1, by decide, by decide⟩

/-- The SHA-256 of the canonical request with `smallAmount`. -/
def smallDigest : ByteArray :=
  ⟨#[187, 241, 61, 153, 11, 186, 216, 199, 211, 182, 10, 244, 59, 121, 170, 235,
    204, 142, 181, 251, 109, 162, 121, 131, 203, 122, 100, 49, 147, 13, 144, 229]⟩

/-- A key, retained as failed, is replayed with `smallAmount`. -/
theorem retained_request_recognises_itself_smallAmount :
    ∃ request reserved row answer,
      canonicalRequest (fun _ => smallDigest) keyedImport (some "a") (amountInput smallAmount) =
        .ok request ∧
      IdempotencyRow.reserved ⟨1, 1⟩ request none 0 = some reserved ∧
      (RetainedOutcome.error .failed "handler_failed" "KeyError").retain ⟨1, 1⟩ reserved =
        some row ∧
      replayRetained (fun _ => smallDigest) ⟨∅, ∅⟩ keyedImport request row = .ok answer ∧
      answer.state = "failed" ∧ answer.errorCode = some "handler_failed" := by
  obtain ⟨request, hrequest, reserved, hreserved, row, hrow⟩ : ∃ request,
      canonicalRequest (fun _ => smallDigest) keyedImport (some "a") (amountInput smallAmount) =
        .ok request ∧
      ∃ reserved, IdempotencyRow.reserved ⟨1, 1⟩ request none 0 = some reserved ∧
      ∃ row, (RetainedOutcome.error .failed "handler_failed" "KeyError").retain ⟨1, 1⟩ reserved =
        some row := ⟨_, rfl, _, rfl, _, rfl⟩
  obtain ⟨answer, hanswer⟩ := (retained_request_recognises_itself rfl (by decide) hrequest
    hreserved hrow).mpr ⟨by decide, rfl⟩
  exact ⟨request, reserved, row, answer, hrequest, hreserved, hrow, hanswer⟩

/-- The SHA-256 of the canonical request with `largeAmount`. -/
def largeDigest : ByteArray :=
  ⟨#[247, 97, 140, 79, 135, 11, 153, 228, 105, 240, 144, 180, 167, 7, 199, 207,
    185, 175, 130, 158, 167, 161, 89, 147, 134, 21, 164, 68, 218, 133, 185, 155]⟩

/-- The SHA-256 of what the column gives back of it: the amount is an integer. -/
def largeStoredDigest : ByteArray :=
  ⟨#[185, 226, 78, 236, 115, 28, 185, 196, 85, 241, 129, 147, 207, 65, 4, 175,
    237, 90, 67, 253, 210, 196, 59, 72, 68, 53, 20, 194, 41, 39, 116, 76]⟩

/-- A reserved request with a float of `1e16` is not answered `pending` when it is repeated. -/
theorem large_amount_unrecognised :
    ¬∀ (sha256 : ByteArray → ByteArray) (adapters : KeyedCompatibilityRegistry)
      (declaration : OperationDeclaration Json) (spec : KeyedSpec) (key : Option String)
      (projected : Json) (request : CanonicalRequest) (reserved : IdempotencyRow),
      declaration.keyed = some spec → projected.isDocument = true →
      projected.all Json.hasNoNul = true →
      canonicalRequest sha256 declaration key projected = .ok request →
      IdempotencyRow.reserved spec request none 0 = some reserved →
      ∃ answer, replayRetained sha256 adapters declaration request reserved = .ok answer ∧
        answer.state = "pending" := by
  intro h
  obtain ⟨request, hrequest, reserved, hreserved, hread⟩ : ∃ request,
      canonicalRequest (fun bytes => if bytes = canonicalBytes
        (requestIdentity "leads.import" (amountInput largeAmount)) then largeDigest
        else largeStoredDigest) keyedImport (some "a") (amountInput largeAmount) = .ok request ∧
      ∃ reserved, IdempotencyRow.reserved ⟨1, 1⟩ request none 0 = some reserved ∧
        reserved.read = .ok reserved := ⟨_, rfl, _, rfl, rfl⟩
  obtain ⟨answer, hanswer, hpending⟩ := h _ ⟨∅, ∅⟩ _ _ _ _ request reserved rfl (by decide)
    (by decide) hrequest hreserved
  obtain ⟨hidentity, hencoded, -⟩ := canonicalRequest_eq_ok _ hrequest
  obtain ⟨identity, hstored, rfl⟩ := Option.map_eq_some_iff.mp hreserved
  rw [hidentity] at hstored
  have hdiffer : canonicalBytes identity ≠ request.encoded := by
    rw [hencoded, hidentity]
    have hdocument : (amountInput largeAmount).isDocument = true := by decide
    exact mt (identity_stored hdocument hstored).2.mp (by decide)
  rw [replayRetained, hread] at hanswer
  obtain rfl := replay_unrecognised rfl rfl hdiffer hanswer
  simp [RetainedReplay.reused] at hpending

end Rheostream
