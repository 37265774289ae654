import ModelScoring.Size
import ModelScoring.Text.Cut
import ModelScoring.Xml.Name

/-!
# References and line ends

Text and attribute values may hold references, which stand for a character by its code or by one
of five names.  `pieces?` finds them, and keeps apart the characters that come from a reference
and those that stand in the document themselves.

Of the latter, line ends become single line feeds in text and spaces in attribute values.  A
carriage return in text ends a line, together with a line feed behind it.  There are two places
where it stays what it is: directly before a reference, and between a reference and the end of
the text.
-/

namespace ModelScoring.Xml

/-- A character of a text or a value. -/
inductive Piece
  /-- It stands in the document. -/
  | plain (c : Char)
  /-- A reference stands for it. -/
  | referred (c : Char)
  deriving DecidableEq, Repr

/-- The value of a hexadecimal digit. -/
def hexValue (c : Char) : Nat :=
  if c.isDigit then c.toNat - '0'.toNat else c.toLower.toNat - 'a'.toNat + 10

/-- Whether a character is a hexadecimal digit. -/
def isHexDigit (c : Char) : Bool :=
  c.isDigit || (decide ('a' ≤ c.toLower) && decide (c.toLower ≤ 'f'))

/-- The value of a text of hexadecimal digits. -/
def hexDigitsValue (digits : List Char) : Nat :=
  digits.foldl (fun value c => 16 * value + hexValue c) 0

/-- The character with a code that fits in thirty-two bits.  A code of no character stands for
the replacement character. -/
def charOfCode? (code : Nat) : Option Char :=
  if 4294967296 ≤ code then none
  else
    let c := if code.isValidChar then Char.ofNat code else Char.ofNat 0xFFFD
    if isXmlChar c then some c else none

/-- The character that a reference stands for, given what is between its marks. -/
def referredChar? (body : List Char) : Option Char :=
  match body with
  | '#' :: 'x' :: digits =>
    if !digits.isEmpty && digits.all isHexDigit then charOfCode? (hexDigitsValue digits) else none
  | '#' :: digits => if isNumber digits then charOfCode? (digitsValue digits) else none
  | _ =>
    if body = "quot".toList then some '"'
    else if body = "amp".toList then some '&'
    else if body = "apos".toList then some '\''
    else if body = "lt".toList then some '<'
    else if body = "gt".toList then some '>'
    else none

theorem length_lt_of_cut {mark : Char} {cs before after : List Char}
    (h : Text.cut mark cs = some (before, after)) : after.length < cs.length := by
  obtain ⟨rfl, _⟩ := Text.cut_eq_some_iff.1 h
  simp only [List.length_append, List.length_cons]
  omega

/-- Adds the characters of a text to those found so far, from the last.  There are none if a
reference stands for no character. -/
def collectPieces (found : List Piece) (cs : List Char) : Option (List Piece) :=
  match cs with
  | [] => some found.reverse
  | c :: rest =>
    if c = '&' then
      match _hcut : Text.cut ';' rest with
      | none => none
      | some (body, after) =>
        match referredChar? body with
        | none => none
        | some r => collectPieces (.referred r :: found) after
    else collectPieces (.plain c :: found) rest
termination_by cs.length
decreasing_by
  · exact Nat.lt_succ_of_lt (length_lt_of_cut _hcut)
  · exact Nat.lt_succ_self _

/-- The characters of a text, those from references marked. -/
def pieces? (cs : List Char) : Option (List Piece) := collectPieces [] cs

/-- The text of pieces with its line ends made single, put before what was found so far, from the
last.  The flag says whether the piece before comes from a reference. -/
def joinText (referredBefore : Bool) (found : List Char) : List Piece → List Char
  | [] => found.reverse
  | .referred c :: rest => joinText true (c :: found) rest
  | .plain '\r' :: .plain '\n' :: rest => joinText false ('\n' :: found) rest
  | .plain '\r' :: .referred c :: rest => joinText true (c :: '\r' :: found) rest
  | [.plain '\r'] => ((if referredBefore then '\r' else '\n') :: found).reverse
  | .plain c :: rest => joinText false ((if c = '\r' then '\n' else c) :: found) rest

/-- Whether a text holds the end mark of a literal section. -/
def holdsLiteralEnd : List Char → Bool
  | [] => false
  | ']' :: ']' :: '>' :: _ => true
  | _ :: cs => holdsLiteralEnd cs

/-- The text that a chunk of text stands for. -/
def textContent? (cs : List Char) : Option (List Char) :=
  if holdsLiteralEnd cs then none else (pieces? cs).map (joinText false [])

/-- The text that a literal section stands for. -/
def literalContent (cs : List Char) : List Char := joinText false [] (cs.map .plain)

/-- The value of pieces with line ends and tabs made spaces. -/
def joinValue : List Piece → List Char
  | [] => []
  | .referred c :: rest => c :: joinValue rest
  | .plain '\r' :: .plain '\n' :: rest => ' ' :: joinValue rest
  | .plain c :: rest => (if isSpace c then ' ' else c) :: joinValue rest

/-- The value that the text between quotes stands for. -/
def valueContent? (cs : List Char) : Option (List Char) :=
  if cs.contains '<' then none else (pieces? cs).map joinValue

example : textContent? "a\r\nb\rc&#x41;\r\r&lt;\r".toList = some "a\nb\ncA\n\r<\r".toList := by
  decide +kernel
example : valueContent? "a\r\n\tb&#10;".toList = some "a  b\n".toList := by decide +kernel

end ModelScoring.Xml
