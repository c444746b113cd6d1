import Mathlib.Algebra.Order.Ring.Int
import Mathlib.Data.String.Basic

/-!
# Python text

The string methods of Python that the modelled code calls.
-/

namespace Rheostream

/-- `str.isspace` of one character. -/
def isPySpace (c : Char) : Bool :=
  let n := c.toNat
  (9 ≤ n && n ≤ 13) || (28 ≤ n && n ≤ 32) || n == 0x85 || n == 0xa0 || n == 0x1680 ||
    (0x2000 ≤ n && n ≤ 0x200a) || n == 0x2028 || n == 0x2029 || n == 0x202f || n == 0x205f ||
    n == 0x3000

/-- `str.strip()`. -/
def pyStrip (text : String) : String :=
  String.ofList (((text.toList.dropWhile isPySpace).reverse.dropWhile isPySpace).reverse)

/-- `str.lstrip()` of characters. -/
def lstripChars (text : List Char) : List Char := text.dropWhile isPySpace

/-- `str.strip()` of characters. -/
def stripChars (text : List Char) : List Char :=
  ((lstripChars text).reverse.dropWhile isPySpace).reverse

/-- The characters that `str.splitlines` breaks a line at. -/
def isLineBreak (c : Char) : Bool :=
  let n := c.toNat
  (10 ≤ n && n ≤ 13) || (28 ≤ n && n ≤ 30) || n == 0x85 || n == 0x2028 || n == 0x2029

/-- `str.splitlines()`, with the line that is being read. -/
def splitlinesFrom : List Char → List Char → List (List Char)
  | line, [] => if line.isEmpty then [] else [line]
  | line, '\r' :: '\n' :: rest => line :: splitlinesFrom [] rest
  | line, c :: rest =>
    if isLineBreak c then line :: splitlinesFrom [] rest else splitlinesFrom (line ++ [c]) rest

/-- `str.splitlines()`. -/
def splitlines (text : List Char) : List (List Char) := splitlinesFrom [] text

/-- `text.strip() or None`. -/
def strippedOrNone (text : String) : Option String :=
  if (pyStrip text).isEmpty then none else some (pyStrip text)

/-- `text.startswith(start)`. -/
def pyStartsWith (start text : String) : Bool := start.toList.isPrefixOf text.toList

/-- `text.endswith(tail)`. -/
def pyEndsWith (tail text : String) : Bool := tail.toList.isSuffixOf text.toList

/-- `part in text`. -/
def pyContains (part text : String) : Bool :=
  text.toList.tails.any fun tail => part.toList.isPrefixOf tail

/-- `text.lower()` where it is compared with a word of `a` to `z` and digits other than `k`: no
other character becomes one of these. -/
def pyLower (text : String) : String := String.ofList (text.toList.map Char.toLower)

/-- The zeros of the decimal digits. -/
def decimalZeros : List ℕ :=
  [0x30, 0x660, 0x6f0, 0x7c0, 0x966, 0x9e6, 0xa66, 0xae6, 0xb66, 0xbe6, 0xc66, 0xce6, 0xd66, 0xde6,
    0xe50, 0xed0, 0xf20, 0x1040, 0x1090, 0x17e0, 0x1810, 0x1946, 0x19d0, 0x1a80, 0x1a90, 0x1b50,
    0x1bb0, 0x1c40, 0x1c50, 0xa620, 0xa8d0, 0xa900, 0xa9d0, 0xa9f0, 0xaa50, 0xabf0, 0xff10, 0x104a0,
    0x10d30, 0x11066, 0x110f0, 0x11136, 0x111d0, 0x112f0, 0x11450, 0x114d0, 0x11650, 0x116c0,
    0x11730, 0x118e0, 0x11950, 0x11c50, 0x11d50, 0x11da0, 0x11f50, 0x16a60, 0x16ac0, 0x16b50,
    0x1d7ce, 0x1d7d8, 0x1d7e2, 0x1d7ec, 0x1d7f6, 0x1e140, 0x1e2f0, 0x1e4f0, 0x1e950, 0x1fbf0]

/-- The value of a decimal digit. -/
def pyDigit (c : Char) : Option ℕ :=
  (decimalZeros.find? fun base => base ≤ c.toNat && c.toNat < base + 10).map fun base =>
    c.toNat - base

/-- Digits with at most one underscore between two of them. -/
def pyDigits : List Char → Option (List ℕ)
  | [] => none
  | [c] => (pyDigit c).map ([·])
  | c :: '_' :: rest => (pyDigit c).bind fun d => (pyDigits rest).map (d :: ·)
  | c :: c' :: rest => (pyDigit c).bind fun d => (pyDigits (c' :: rest)).map (d :: ·)

/-- Decimal digits, of which `int` reads no more than 4300. -/
def pyNat (text : List Char) : Option ℕ :=
  (pyDigits text).bind fun digits =>
    if digits.length ≤ 4300 then some (digits.foldl (fun n d => 10 * n + d) 0) else none

/-- `int(text)`, where it does not raise. -/
def pyInt (text : String) : Option ℤ :=
  match (pyStrip text).toList with
  | '-' :: rest => (pyNat rest).map fun n => -(n : ℤ)
  | '+' :: rest => (pyNat rest).map fun n => (n : ℤ)
  | rest => (pyNat rest).map fun n => (n : ℤ)

end Rheostream
