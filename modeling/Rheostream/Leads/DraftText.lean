import Rheostream.Foundation.Lines
import Rheostream.Foundation.PyText

/-!
# The text form of a draft

`proposals/render.py`: a draft is written out as its letter, a divider line and a bold question
line for each answer, and read back from such a text.
-/

namespace Rheostream.Leads.DraftText

open Lines

structure Answer where
  question : String
  answer : String
  deriving DecidableEq

structure Draft where
  letter : String
  answers : List Answer
  deriving DecidableEq

/-- The line of the divider. -/
def dashes : List Char := ['-', '-', '-']

/-- `DIVIDER`. -/
def divider : List Char := '\n' :: dashes ++ ['\n']

/-- What opens and closes a question. -/
def bold : List Char := ['*', '*']

/-- `_ESC_DASH`. -/
def escDash : List Char := ['\x00', 'E', 'S', 'C', '\x00', 'D', 'A', 'S', 'H', '\x00']

/-- `_ESC_BOLD`. -/
def escBold : List Char := ['\x00', 'E', 'S', 'C', '\x00', 'B', 'O', 'L', 'D', '\x00']

/-- `UNLABELLED`. -/
def unlabelled : String := "Answers"

/-- `_COVER_LETTER`. -/
def isCoverLetter (question : String) : Bool :=
  pyLower question = "cover letter" || pyLower question = "cover letter:"

/-! ### Escaping -/

/-- `^---$` in a line. -/
def escapeDash (line : List Char) : List Char := if line = dashes then escDash else line

/-- `^\*\*` in a line. -/
def escapeBold (line : List Char) : List Char :=
  if bold.isPrefixOf line then escBold ++ line.drop 2 else line

/-- `_escape`. -/
def escape (text : List Char) : List Char :=
  mapLines '\n' escapeBold (mapLines '\n' escapeDash text)

/-- `_unescape`. -/
def unescape (text : List Char) : List Char := replace escBold bold (replace escDash dashes text)

/-! ### Questions and answers -/

/-- `(.+?)\*\*\n` after the part of the question that is taken: the shortest question, and what
follows it. -/
def matchQuestion : List Char → List Char → Option (List Char × List Char)
  | _, [] => none
  | taken, c :: rest =>
    if !taken.isEmpty && (bold ++ ['\n']).isPrefixOf (c :: rest) then some (taken, rest.drop 2)
    else if c = '\n' then none
    else matchQuestion (taken ++ [c]) rest

/-- `(?=\n\s*\*\*|$)`. A heading is one behind whitespace too. -/
def answerEnds : List Char → Bool
  | [] => true
  | c :: rest => c = '\n' && (rest.isEmpty || bold.isPrefixOf (rest.dropWhile isPySpace))

/-- `([\s\S]*?)` up to where an answer ends, and what follows it. -/
def takeAnswer : List Char → List Char × List Char
  | [] => ([], [])
  | c :: rest =>
    if answerEnds (c :: rest) then ([], c :: rest) else (takeAnswer rest).map (c :: ·) id

/-- `_QA_RE` at the start of a text: the groups of the match, and what follows it. -/
def matchQa (text : List Char) : Option (List Char × List Char × List Char) :=
  if bold.isPrefixOf text then
    (matchQuestion [] (text.drop 2)).map fun m => (m.1, takeAnswer m.2)
  else none

/-- `_QA_RE.finditer`, in as many steps at most. A match is not empty, so every step passes a
character at least. -/
def findMatches : ℕ → List Char → List (List Char × List Char)
  | 0, _ => []
  | _ + 1, [] => []
  | steps + 1, c :: rest =>
    match matchQa (c :: rest) with
    | some (question, answer, after) => (question, answer) :: findMatches steps after
    | none => findMatches steps rest

/-! ### Both ways -/

/-- The answer of a match. -/
def readAnswer (groups : List Char × List Char) : Answer :=
  ⟨String.ofList (stripChars groups.1), String.ofList (unescape (stripChars groups.2))⟩

/-- The answers of the text after the divider. A tail without headings is one answer. -/
def parseAnswers (rest : List Char) : List Answer :=
  let answers := (findMatches rest.length rest).map readAnswer
  if answers.isEmpty && !(stripChars rest).isEmpty then
    [⟨unlabelled, String.ofList (unescape (stripChars rest))⟩]
  else answers

/-- "Cover Letter" is a form's field label, not a question: the letter answers it. -/
def foldLabel (letter : String) : List Answer → Draft
  | [] => ⟨letter, []⟩
  | first :: others =>
    if isCoverLetter first.question then
      ⟨if letter = "" then first.answer else letter, others⟩
    else ⟨letter, first :: others⟩

/-- `parse_draft`. -/
def parseDraft (blob : String) : Draft :=
  match find divider blob.toList with
  | none => ⟨String.ofList (unescape (stripChars blob.toList)), []⟩
  | some i =>
    foldLabel (String.ofList (unescape (stripChars (blob.toList.take i))))
      (parseAnswers (blob.toList.drop (i + divider.length)))

/-- The block of an answer. -/
def block (a : Answer) : List Char :=
  bold ++ a.question.toList ++ bold ++ '\n' :: escape a.answer.toList

/-- `render_draft`. -/
def renderDraft (draft : Draft) : String :=
  if draft.answers.isEmpty then String.ofList (escape draft.letter.toList)
  else String.ofList (escape draft.letter.toList ++ '\n' :: divider ++ '\n' ::
    ['\n', '\n'].intercalate (draft.answers.map block))

end Rheostream.Leads.DraftText
