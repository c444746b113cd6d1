import Rheostream.Foundation.Table
import Rheostream.Foundation.Values

/-!
# Operation records

The `core.operation` row and the predicated writes of `operations/records.py`. A write
answers the new row when its predicate matches and `none` for a rowcount of zero. Every
terminal write of the ordinary path shares the predicate `isOpen`; the four writes that
end or release a record waiting for an approval share `isHeld`.
-/

namespace Rheostream

/-- The members of the `operation_state` check constraint. -/
inductive OperationState where
  | pending
  | running
  | approvalRequired
  | succeeded
  | failed
  | cancelled
  | unresolved
deriving DecidableEq, Repr

namespace OperationState

/-- `pending` or `running`: the states of work that has not ended. -/
def isOpen : OperationState → Bool
  | pending | running => true
  | _ => false

end OperationState

/-- The check that a `succeeded` record carries. -/
inductive TerminalCheckKind where
  | recordExists
  | providerStatus
  | sinkRecorded
  | handlerReturned
deriving DecidableEq, Repr

/-- A `core.operation` row. -/
structure OperationRow where
  name : String
  state : OperationState
  approvalId : Option Uuid
  resultRef : Option String
  errorCode : Option String
  errorText : Option String
  terminalCheckKind : Option TerminalCheckKind
  terminalCheckAt : Option ℕ
  createdAt : ℕ
  startedAt : Option ℕ
  terminalAt : Option ℕ
deriving DecidableEq, Repr

namespace OperationRow

/-- The predicate every terminal write shares: this record, still not terminal. -/
def isOpen (row : OperationRow) : Bool := row.state.isOpen

/-- This record, still waiting for a decision on its approval. -/
def isHeld (row : OperationRow) : Bool := row.state = .approvalRequired

/-- The row that `mint` inserts. -/
def mint (name : String) (now : ℕ) : OperationRow where
  name := name
  state := .pending
  approvalId := none
  resultRef := none
  errorCode := none
  errorText := none
  terminalCheckKind := none
  terminalCheckAt := none
  createdAt := now
  startedAt := none
  terminalAt := none

/-- Move an open record to `running`. -/
def markRunning (now : ℕ) : RowUpdate OperationRow where
  guard := isOpen
  set row := { row with state := .running, startedAt := some now }

/-- Hold an open record for an approval. -/
def markApprovalRequired (approvalId : Uuid) : RowUpdate OperationRow where
  guard := isOpen
  set row :=
    { row with state := .approvalRequired, approvalId := some approvalId }

/-- End a held record `succeeded` once its approval has executed. -/
def finishHeldSucceeded (now : ℕ) (checkKind : TerminalCheckKind) (checkAt : ℕ) :
    RowUpdate OperationRow where
  guard := isHeld
  set row :=
    { row with
      state := .succeeded
      terminalCheckKind := some checkKind
      terminalCheckAt := some checkAt
      terminalAt := some now }

/-- Move a held record to `running` because its external action was queued. -/
def startHeld (now : ℕ) : RowUpdate OperationRow where
  guard := isHeld
  set row := { row with state := .running, startedAt := some now }

/-- End a held record `cancelled` because its approval was refused. -/
def finishHeldCancelled (now : ℕ) : RowUpdate OperationRow where
  guard := isHeld
  set row := { row with state := .cancelled, terminalAt := some now }

/-- End a held record `failed` because an execution guard refused it. -/
def finishHeldFailed (now : ℕ) (errorCode errorText : String) : RowUpdate OperationRow where
  guard := isHeld
  set row :=
    { row with
      state := .failed
      errorCode := some errorCode
      errorText := some errorText
      terminalAt := some now }

/-- End the record `succeeded`, recording the terminal check. -/
def finishSucceeded (now : ℕ) (checkKind : TerminalCheckKind) (checkAt : ℕ)
    (resultRef : Option String) : RowUpdate OperationRow where
  guard := isOpen
  set row :=
    { row with
      state := .succeeded
      resultRef := resultRef
      terminalCheckKind := some checkKind
      terminalCheckAt := some checkAt
      terminalAt := some now }

/-- End the record `failed` with a code and a showable text. -/
def finishFailed (now : ℕ) (errorCode errorText : String) : RowUpdate OperationRow where
  guard := isOpen
  set row :=
    { row with
      state := .failed
      errorCode := some errorCode
      errorText := some errorText
      terminalAt := some now }

/-- End the record `cancelled`. -/
def finishCancelled (now : ℕ) : RowUpdate OperationRow where
  guard := isOpen
  set row := { row with state := .cancelled, terminalAt := some now }

/-- End the record `unresolved`: terminal for the record, open for the person. -/
def markUnresolved (now : ℕ) : RowUpdate OperationRow where
  guard := isOpen
  set row := { row with state := .unresolved, terminalAt := some now }

/-- Move an `unresolved` record to a named outcome. The note lands in `errorText`. -/
def resolve (outcome : OperationState) (note : String) (now : ℕ)
    (checkKind : Option TerminalCheckKind) (resultRef : Option String) :
    RowUpdate OperationRow where
  guard := (fun row => row.state = .unresolved)
  set row :=
    { row with
      state := outcome
      errorText := some note
      terminalAt := some now
      terminalCheckKind := if outcome = .succeeded then checkKind else row.terminalCheckKind
      terminalCheckAt := if outcome = .succeeded then some now else row.terminalCheckAt
      resultRef := if resultRef.isSome then resultRef else row.resultRef }

end OperationRow

/-- A workspace's operation records. -/
abbrev Operations := Table Uuid OperationRow

end Rheostream
