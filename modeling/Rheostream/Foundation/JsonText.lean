import Mathlib.Data.List.Sort
import Mathlib.Data.String.Basic
import Rheostream.Foundation.Delimited
import Rheostream.Foundation.Values

/-!
# JSON documents as Python prints them

`json.dumps` with sorted keys, compact separators and `ensure_ascii=False`, on documents whose
numbers are finite and whose strings hold no lone surrogate. Integers and floats print as their
`repr`: a float in positional notation while its decimal point lies among or near its digits,
and in exponent notation from `1e+16` up and below `0.0001`.
-/

namespace Rheostream

namespace PyFloat

/-- The significand's digits. -/
def digits (x : PyFloat) : List Char := Nat.toDigits 10 x.significand

/-- Whether `repr` chooses exponent notation. -/
def usesExponent (x : PyFloat) : Bool := x.point ≤ -4 || 16 < x.point

/-- An exponent: its sign and at least two digits. -/
def exponentText (e : ℤ) : List Char :=
  (if e < 0 then '-' else '+') ::
    (if e.natAbs < 10 then '0' :: Nat.toDigits 10 e.natAbs else Nat.toDigits 10 e.natAbs)

/-- The digits in exponent notation. -/
def scientific (digits : List Char) (point : ℤ) : List Char :=
  (match digits with
    | [] => []
    | [d] => [d]
    | d :: rest => d :: '.' :: rest) ++ 'e' :: exponentText (point - 1)

/-- The digits in positional notation, with at least one of them behind the point. -/
def positional (digits : List Char) (point : ℤ) : List Char :=
  if point ≤ 0 then '0' :: '.' :: (List.replicate point.natAbs '0' ++ digits)
  else if point.toNat < digits.length then
    digits.take point.toNat ++ '.' :: digits.drop point.toNat
  else digits ++ (List.replicate (point.toNat - digits.length) '0' ++ ['.', '0'])

/-- `float.__repr__`. -/
def repr (x : PyFloat) : List Char :=
  (if x.negative then ['-'] else []) ++
    if x.usesExponent then scientific x.digits x.point else positional x.digits x.point

end PyFloat

/-- `int.__repr__`. -/
def intText (n : ℤ) : List Char :=
  (if n < 0 then ['-'] else []) ++ Nat.toDigits 10 n.natAbs

/-- Four hexadecimal digits. -/
def hex4 (n : ℕ) : List Char :=
  [n / 4096 % 16, n / 256 % 16, n / 16 % 16, n % 16].map Nat.digitChar

/-- The escape of one character; most stand for themselves. -/
def escapeChar (c : Char) : List Char :=
  if c = '"' then ['\\', '"']
  else if c = '\\' then ['\\', '\\']
  else if c = '\n' then ['\\', 'n']
  else if c = '\r' then ['\\', 'r']
  else if c = '\t' then ['\\', 't']
  else if c.toNat = 0x08 then ['\\', 'b']
  else if c.toNat = 0x0c then ['\\', 'f']
  else if c.toNat < 0x20 then '\\' :: 'u' :: hex4 c.toNat
  else [c]

/-- A string in quotes. -/
def stringText (s : String) : List Char := '"' :: (s.toList.flatMap escapeChar ++ ['"'])

/-- One member of an object, its value already printed. -/
def memberText (member : String × List Char) : List Char :=
  stringText member.1 ++ ':' :: member.2

/-- The members in the order of their keys, which is by code points. -/
def sortKeys {V : Type} (members : List (String × V)) : List (String × V) :=
  members.insertionSort fun m m' => m.1 ≤ m'.1

namespace Json

mutual

/-- `json.dumps(value, ensure_ascii=False, allow_nan=False, sort_keys=True,
separators=(",", ":"))`. -/
def text : Json → List Char
  | null => ['n', 'u', 'l', 'l']
  | bool value => if value then ['t', 'r', 'u', 'e'] else ['f', 'a', 'l', 's', 'e']
  | int value => intText value
  | float value => value.repr
  | str value => stringText value
  | arr items => '[' :: separated ',' ']' (itemTexts items)
  | obj members => '{' :: separated ',' '}' ((sortKeys (memberTexts members)).map memberText)

def itemTexts : List Json → List (List Char)
  | [] => []
  | item :: items => item.text :: itemTexts items

def memberTexts : List (String × Json) → List (String × List Char)
  | [] => []
  | (key, value) :: members => (key, value.text) :: memberTexts members

end

theorem itemTexts_eq (items : List Json) : itemTexts items = items.map text := by
  induction items with
  | nil => rfl
  | cons item items ih => rw [itemTexts, ih, List.map_cons]

theorem memberTexts_eq (members : List (String × Json)) :
    memberTexts members = members.map fun m => (m.1, m.2.text) := by
  induction members with
  | nil => rfl
  | cons member members ih => rw [memberTexts, ih, List.map_cons]

/-- A document holds if it does of its items and its members' values. -/
@[elab_as_elim]
theorem induct {P : Json → Prop} (null : P null) (bool : ∀ value, P (bool value))
    (int : ∀ value, P (int value)) (float : ∀ value, P (float value))
    (str : ∀ value, P (str value)) (arr : ∀ items, (∀ item ∈ items, P item) → P (arr items))
    (obj : ∀ members, (∀ member ∈ members, P member.2) → P (obj members)) :
    ∀ document, P document :=
  @Json.rec P (fun items => ∀ item ∈ items, P item) (fun members => ∀ m ∈ members, P m.2)
    (fun member => P member.2) null bool int float str arr obj (by simp)
    (fun _ _ hitem hitems => List.forall_mem_cons.mpr ⟨hitem, hitems⟩) (by simp)
    (fun _ _ hmember hmembers => List.forall_mem_cons.mpr ⟨hmember, hmembers⟩)
    fun _ _ hvalue => hvalue

mutual

/-- Whether every value in a document, the document among them, passes a check. -/
def all (p : Json → Bool) : Json → Bool
  | arr items => p (arr items) && allItems p items
  | obj members => p (obj members) && allMembers p members
  | value => p value

def allItems (p : Json → Bool) : List Json → Bool
  | [] => true
  | item :: items => item.all p && allItems p items

def allMembers (p : Json → Bool) : List (String × Json) → Bool
  | [] => true
  | (_, value) :: members => value.all p && allMembers p members

end

section All

variable {p : Json → Bool}

private theorem allItems_iff {items : List Json} :
    allItems p items = true ↔ ∀ item ∈ items, item.all p = true := by
  induction items with
  | nil => simp [allItems]
  | cons item items ih => simp [allItems, ih]

private theorem allMembers_iff {members : List (String × Json)} :
    allMembers p members = true ↔ ∀ member ∈ members, member.2.all p = true := by
  induction members with
  | nil => simp [allMembers]
  | cons member members ih =>
    obtain ⟨key, value⟩ := member
    simp [allMembers, ih]

theorem all_arr {items : List Json} :
    (arr items).all p = true ↔ p (arr items) = true ∧ ∀ item ∈ items, item.all p = true := by
  rw [all, Bool.and_eq_true, allItems_iff]

theorem all_obj {members : List (String × Json)} : (obj members).all p = true ↔
      p (obj members) = true ∧ ∀ member ∈ members, member.2.all p = true := by
  rw [all, Bool.and_eq_true, allMembers_iff]

end All

/-- Whether the keys of a value differ, as those of a Python dictionary do. -/
def keysDiffer : Json → Bool
  | obj members => (members.map Prod.fst).Nodup
  | _ => true

/-- The documents a Python program can hold. -/
def isDocument (document : Json) : Bool := document.all keysDiffer

end Json

/-- The characters of numbers. -/
def IsNumberChar (c : Char) : Prop := c.isDigit = true ∨ c ∈ ['-', '+', '.', 'e']

instance : DecidablePred IsNumberChar := fun _ => inferInstanceAs (Decidable (_ ∨ _))

section Numbers

variable {c : Char}

private theorem isNumberChar_of_digits {n : ℕ} (h : c ∈ Nat.toDigits 10 n) :
    IsNumberChar c :=
  .inl (Nat.isDigit_of_mem_toDigits (by decide) (by decide) h)

theorem isNumberChar_intText {n : ℤ} (h : c ∈ intText n) : IsNumberChar c := by
  unfold intText at h
  rcases List.mem_append.mp h with hsign | hdigits
  · split at hsign
    · exact .inr (by simp_all)
    · cases hsign
  · exact isNumberChar_of_digits hdigits

private theorem isNumberChar_exponentText {e : ℤ} (h : c ∈ PyFloat.exponentText e) :
    IsNumberChar c := by
  unfold PyFloat.exponentText at h
  rcases List.mem_cons.mp h with rfl | hdigits
  · split <;> decide
  · split at hdigits
    · rcases List.mem_cons.mp hdigits with rfl | hdigits
      · decide
      · exact isNumberChar_of_digits hdigits
    · exact isNumberChar_of_digits hdigits

private theorem isNumberChar_scientific {digits : List Char} {point : ℤ} (hdigits : ∀ d ∈ digits,
      IsNumberChar d) (h : c ∈ PyFloat.scientific digits point) :
    IsNumberChar c := by
  unfold PyFloat.scientific at h
  rcases List.mem_append.mp h with hmantissa | hexponent
  · split at hmantissa
    · cases hmantissa
    · exact hdigits c hmantissa
    · simp only [List.mem_cons] at hmantissa hdigits
      rcases hmantissa with rfl | rfl | hrest
      · exact hdigits c (.inl rfl)
      · decide
      · exact hdigits c (.inr hrest)
  · rcases List.mem_cons.mp hexponent with rfl | hexponent
    · decide
    · exact isNumberChar_exponentText hexponent

private theorem isNumberChar_positional {digits : List Char} {point : ℤ} (hdigits : ∀ d ∈ digits,
      IsNumberChar d) (h : c ∈ PyFloat.positional digits point) :
    IsNumberChar c := by
  have hzero : IsNumberChar '0' := by decide
  have hpoint : IsNumberChar '.' := by decide
  unfold PyFloat.positional at h
  split at h
  · simp only [List.mem_cons, List.mem_append, List.mem_replicate] at h
    rcases h with rfl | rfl | ⟨-, rfl⟩ | h
    · exact hzero
    · exact hpoint
    · exact hzero
    · exact hdigits c h
  · split at h
    · simp only [List.mem_cons, List.mem_append] at h
      rcases h with h | rfl | h
      · exact hdigits c (List.mem_of_mem_take h)
      · exact hpoint
      · exact hdigits c (List.mem_of_mem_drop h)
    · simp only [List.mem_cons, List.mem_append, List.mem_replicate, List.not_mem_nil,
        or_false] at h
      rcases h with h | ⟨-, rfl⟩ | rfl | rfl
      · exact hdigits c h
      · exact hzero
      · exact hpoint
      · exact hzero

theorem isNumberChar_repr {x : PyFloat} (h : c ∈ x.repr) : IsNumberChar c := by
  have hdigits : ∀ d ∈ x.digits, IsNumberChar d := fun _ => isNumberChar_of_digits
  unfold PyFloat.repr at h
  rcases List.mem_append.mp h with hsign | hbody
  · split at hsign
    · exact .inr (by simp_all)
    · cases hsign
  · split at hbody
    · exact isNumberChar_scientific hdigits hbody
    · exact isNumberChar_positional hdigits hbody

end Numbers

end Rheostream
