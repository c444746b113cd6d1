import Rheostream.Foundation.Incremental
import Rheostream.Foundation.JsonText
import Rheostream.Foundation.OrderedDict
import Rheostream.Foundation.PyText

/-!
# Declared settings

The declaration of a settings key, the checks of a native and of a text value against it, and
the text form a row stores. A check that raises gives nothing.
-/

namespace Rheostream.Settings

/-- `Scope`. -/
inductive Scope where
  | deployment
  | workspace
  | member
  deriving DecidableEq

/-- `Floor`. -/
inductive Floor where
  | min
  | union
  | subset
  | and
  deriving DecidableEq

/-- `ValueType`. -/
inductive ValueType where
  | str
  | int
  | bool
  | strList
  deriving DecidableEq

/-- A settings value. A value of any other shape is of no declared type. -/
inductive SettingValue where
  | str (text : List Char)
  | int (n : ℤ)
  | bool (b : Bool)
  | list (items : List (List Char))
  deriving DecidableEq

/-- `matches_type`. -/
def matchesType : ValueType → SettingValue → Bool
  | .str, .str _ => true
  | .int, .int _ => true
  | .bool, .bool _ => true
  | .strList, .list _ => true
  | _, _ => false

/-- `_FLOOR_TYPES`. -/
def floorType : Floor → ValueType
  | .min => .int
  | .union => .strList
  | .subset => .strList
  | .and => .bool

/-- Whether a value is one of the choices, where there are any. -/
def inChoices (choices : Option (List (List Char))) : SettingValue → Bool
  | .str text => choices.all fun choices => choices.contains text
  | _ => choices.isNone

/-- `_out_of_bounds`. -/
def outOfBounds (minimum maximum : Option ℤ) : SettingValue → Bool
  | .int n => (minimum.any fun bound => decide (n < bound)) ||
      maximum.any fun bound => decide (bound < n)
  | _ => false

/-- `KeySpec`, with what its construction checks. -/
structure KeySpec where
  key : String
  type : ValueType
  scope : Scope
  floor : Option Floor
  default : SettingValue
  choices : Option (List (List Char))
  minimum : Option ℤ
  maximum : Option ℤ
  typed : matchesType type default = true
  floored : ∀ f ∈ floor, floorType f = type
  chosen : choices ≠ none → type = .str
  bounded : minimum ≠ none ∨ maximum ≠ none → type = .int
  inRange : inChoices choices default = true ∧ outOfBounds minimum maximum default = false

/-- `check_value`. -/
def checkValue (spec : KeySpec) (value : SettingValue) : Option SettingValue :=
  if !matchesType spec.type value then none
  else if !inChoices spec.choices value then none
  else if outOfBounds spec.minimum spec.maximum value then none
  else some value

/-- `text.split(",")`. -/
def splitCommas (text : List Char) : List (List Char) :=
  (sections (· == ',') text).1 ++ [(sections (· == ',') text).2]

/-- The items of a list's text: stripped, and none of them empty. -/
def itemsOf (text : List Char) : List (List Char) :=
  ((splitCommas text).map stripChars).filter fun item => !item.isEmpty

/-- `_TRUE_WORDS`. -/
def trueWords : List String := ["1", "true", "yes", "on"]

/-- `_FALSE_WORDS`. -/
def falseWords : List String := ["0", "false", "no", "off"]

/-- A word read as a boolean. -/
def readWord (word : String) : Option SettingValue :=
  if trueWords.contains word then some (.bool true)
  else if falseWords.contains word then some (.bool false)
  else none

/-- A text read as a value of a type. -/
def readAs (type : ValueType) (text : List Char) : Option SettingValue :=
  match type with
  | .str => some (.str text)
  | .int => (pyInt (pyStrip (String.ofList text))).map .int
  | .bool => readWord (pyLower (pyStrip (String.ofList text)))
  | .strList => some (.list (itemsOf text))

/-- `decode_text`. -/
def decodeText (spec : KeySpec) (text : List Char) : Option SettingValue :=
  (readAs spec.type text).bind fun value =>
    if !inChoices spec.choices value then none
    else if outOfBounds spec.minimum spec.maximum value then none
    else some value

/-- `encode_text`. An integer of more than 4300 digits is not written. -/
def encodeText (spec : KeySpec) (value : SettingValue) : Option (List Char) :=
  match spec.type, value with
  | .str, .str text => some text
  | .int, .int n => if (Nat.toDigits 10 n.natAbs).length ≤ 4300 then some (intText n) else none
  | .bool, .bool b => some (if b then "true".toList else "false".toList)
  | .strList, .list items => some ([','].intercalate items)
  | _, _ => none

/-- `SettingsRegistry`: a key is declared once. -/
structure SettingsRegistry where
  specs : List KeySpec
  distinct : (specs.map KeySpec.key).Nodup

/-- `SettingsRegistry.lookup`. -/
def SettingsRegistry.lookup (registry : SettingsRegistry) (key : String) : Option KeySpec :=
  registry.specs.find? fun spec => spec.key == key

end Rheostream.Settings
