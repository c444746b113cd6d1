import Mathlib.Algebra.Order.Ring.Int

/-!
# Column values

Identifiers and instants are natural numbers: nothing here reads more of an identifier
than equality, or more of an instant, a number of microseconds, than order and addition.
A JSON document is what a Python program holds between `json.loads` and `json.dumps`:
integers and floats are different values, and a float is the shortest decimal that reads
back as itself.
-/

namespace Rheostream

/-- A row identifier. -/
abbrev Uuid := ℕ

/-- `s` seconds in microseconds, the unit of every instant. -/
def seconds (s : ℕ) : ℕ := s * 1000000

/-- A record reference, `<module>.<record_type>:<uuid>`. -/
structure RecordRef where
  moduleId : String
  recordType : String
  id : Uuid
  deriving DecidableEq

/-- A string where a reference is expected. A reference has one spelling, so a string is the
spelling of one reference, or malformed. -/
inductive RefText where
  | ref (target : RecordRef)
  | malformed (text : String)
  deriving DecidableEq

/-- `RecordRef.parse`. -/
def RefText.parse : RefText → Option RecordRef
  | .ref target => some target
  | .malformed _ => none

/-- A finite float as its shortest decimal: the digits of `significand` with the decimal
point after the first `point` of them. At most seventeen digits are ever needed, the last
one is not zero, and zero itself is the single digit `0`. -/
structure PyFloat where
  negative : Bool
  significand : ℕ
  point : ℤ
  digits_le : significand < 10 ^ 17
  shortest : significand % 10 ≠ 0 ∨ significand = 0 ∧ point = 1

/-- A JSON document. -/
inductive Json where
  | null
  | bool (value : Bool)
  | int (value : ℤ)
  | float (value : PyFloat)
  | str (value : String)
  | arr (items : List Json)
  | obj (members : List (String × Json))

end Rheostream
