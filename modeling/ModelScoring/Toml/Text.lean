/-!
# Texts in TOML

A text is written in four ways.  Between quotation marks a backslash escapes, and between
apostrophes every character stands for itself.  Three marks instead of one let the text run over
several lines, and a line break directly behind the opening marks does not count.

`readText?` reads a text in any of the four ways.  `writeText` prefers a way without escapes, on as
few lines as can be.
-/

namespace ModelScoring.Toml

/-- Whether a character may stand in a text or a comment, line ends aside. -/
def isPrintable (c : Char) : Bool := c == '\t' || (0x20 ≤ c.toNat && c.toNat != 0x7F)

/-- The value of a text of hexadecimal digits. -/
def hexCode? (digits : List Char) : Option Nat :=
  digits.foldl (fun value c => value.bind fun n =>
    if c.isDigit then some (16 * n + (c.toNat - '0'.toNat))
    else if 'a' ≤ c.toLower && c.toLower ≤ 'f' then
      some (16 * n + (c.toLower.toNat - 'a'.toNat + 10))
    else none) (some 0)

/-- The character with a code given by hexadecimal digits. -/
def charOfDigits? (digits : List Char) : Option Char :=
  (hexCode? digits).bind fun code => if code.isValidChar then some (Char.ofNat code) else none

/-- The character that one behind a backslash stands for. -/
def escaped? (c : Char) : Option Char :=
  match c with
  | 'b' => some (Char.ofNat 0x08)
  | 't' => some '\t'
  | 'n' => some '\n'
  | 'f' => some (Char.ofNat 0x0C)
  | 'r' => some '\r'
  | '"' => some '"'
  | '\\' => some '\\'
  | _ => none

/-- A text that was read, and what is behind it. -/
abbrev ReadText := Option (List Char × List Char)

/-- Goes on with a text between quotation marks; what was found is given from the last. -/
def readBasic (found : List Char) : List Char → ReadText
  | [] => none
  | '"' :: rest => some (found.reverse, rest)
  | '\\' :: 'u' :: a :: b :: c :: d :: rest =>
    match charOfDigits? [a, b, c, d] with
    | none => none
    | some r => readBasic (r :: found) rest
  | '\\' :: 'U' :: a :: b :: c :: d :: e :: f :: g :: h :: rest =>
    match charOfDigits? [a, b, c, d, e, f, g, h] with
    | none => none
    | some r => readBasic (r :: found) rest
  | '\\' :: e :: rest =>
    match escaped? e with
    | none => none
    | some r => readBasic (r :: found) rest
  | c :: rest => if c != '\\' && isPrintable c then readBasic (c :: found) rest else none

/-- Goes on with a text between apostrophes. -/
def readLiteral (found : List Char) : List Char → ReadText
  | [] => none
  | '\'' :: rest => some (found.reverse, rest)
  | c :: rest => if isPrintable c then readLiteral (c :: found) rest else none

/-- Where the reading of a text over several lines stands. -/
inductive Fold
  /-- In the text. -/
  | inside
  /-- Behind a backslash, before the line break that it joins. -/
  | joining
  /-- Behind a joined line break, before the text goes on. -/
  | joined
  deriving DecidableEq

/-- Goes on with a text between three quotation marks.  Up to two of them may stand in the text,
also at its end. -/
def readLongBasic (fold : Fold) (found : List Char) : List Char → ReadText
  | [] => none
  | c :: rest =>
    match fold, c, rest with
    | .joining, '\r', '\n' :: rest => readLongBasic .joined found rest
    | .joining, '\n', rest => readLongBasic .joined found rest
    | .joining, ' ', rest => readLongBasic .joining found rest
    | .joining, '\t', rest => readLongBasic .joining found rest
    | .joining, _, _ => none
    | .joined, '\r', '\n' :: rest => readLongBasic .joined found rest
    | .joined, '\n', rest => readLongBasic .joined found rest
    | .joined, ' ', rest => readLongBasic .joined found rest
    | .joined, '\t', rest => readLongBasic .joined found rest
    | _, '"', '"' :: '"' :: '"' :: '"' :: rest => some (('"' :: '"' :: found).reverse, rest)
    | _, '"', '"' :: '"' :: '"' :: rest => some (('"' :: found).reverse, rest)
    | _, '"', '"' :: '"' :: rest => some (found.reverse, rest)
    | _, '\r', '\n' :: rest => readLongBasic .inside ('\n' :: found) rest
    | _, '\n', rest => readLongBasic .inside ('\n' :: found) rest
    | _, '\\', 'u' :: a :: b :: c :: d :: rest =>
      match charOfDigits? [a, b, c, d] with
      | none => none
      | some r => readLongBasic .inside (r :: found) rest
    | _, '\\', 'U' :: a :: b :: c :: d :: e :: f :: g :: h :: rest =>
      match charOfDigits? [a, b, c, d, e, f, g, h] with
      | none => none
      | some r => readLongBasic .inside (r :: found) rest
    | _, '\\', e :: rest =>
      match escaped? e with
      | some r => readLongBasic .inside (r :: found) rest
      | none =>
        if e == '\n' then readLongBasic .joined found rest
        else if e == ' ' || e == '\t' then readLongBasic .joining found rest
        else if e == '\r' then
          match rest with
          | '\n' :: rest => readLongBasic .joined found rest
          | _ => none
        else none
    | _, c, rest =>
      if c != '\\' && isPrintable c then readLongBasic .inside (c :: found) rest else none

/-- Goes on with a text between three apostrophes.  Up to two of them may stand in the text, also
at its end. -/
def readLongLiteral (found : List Char) : List Char → ReadText
  | [] => none
  | '\'' :: '\'' :: '\'' :: '\'' :: '\'' :: rest =>
    some (('\'' :: '\'' :: found).reverse, rest)
  | '\'' :: '\'' :: '\'' :: '\'' :: rest => some (('\'' :: found).reverse, rest)
  | '\'' :: '\'' :: '\'' :: rest => some (found.reverse, rest)
  | '\r' :: '\n' :: rest => readLongLiteral ('\n' :: found) rest
  | '\n' :: rest => readLongLiteral ('\n' :: found) rest
  | c :: rest => if isPrintable c then readLongLiteral (c :: found) rest else none

/-- The text without the line break it may begin with. -/
def dropLineBreak : List Char → List Char
  | '\r' :: '\n' :: rest => rest
  | '\n' :: rest => rest
  | cs => cs

/-- Reads a text on one line. -/
def readShort? : List Char → ReadText
  | '"' :: rest => readBasic [] rest
  | '\'' :: rest => readLiteral [] rest
  | _ => none

def readText? : List Char → ReadText
  | '"' :: '"' :: '"' :: rest => readLongBasic .inside [] (dropLineBreak rest)
  | '\'' :: '\'' :: '\'' :: rest => readLongLiteral [] (dropLineBreak rest)
  | cs => readShort? cs

/-! ## Writing -/

/-- The greatest number of times a character stands in a row; the one given counts the characters
directly before. -/
def longestRun (mark : Char) (run : Nat) : List Char → Nat
  | [] => run
  | c :: cs => if c = mark then longestRun mark (run + 1) cs else max run (longestRun mark 0 cs)

/-- Whether a character has to be escaped in any text, line feeds and tabs aside. -/
def needsEscape (c : Char) : Bool := !isPrintable c && c != '\n'

/-- A character between quotation marks, as an escape. -/
def escapeText (c : Char) : List Char :=
  if c = '"' then ['\\', '"']
  else if c = '\\' then ['\\', '\\']
  else if c = '\t' then ['\\', 't']
  else if c = '\n' then ['\\', 'n']
  else if c = '\r' then ['\\', 'r']
  else if c.toNat = 0x08 then ['\\', 'b']
  else if c.toNat = 0x0C then ['\\', 'f']
  else
    let hex := (Nat.toDigits 16 c.toNat).map Char.toUpper
    '\\' :: 'u' :: (List.replicate (4 - hex.length) '0' ++ hex)

/-- The characters of a text between quotation marks.  At most so many marks in a row stand for
themselves, and line feeds do if the flag is set; the number given counts the marks directly
before. -/
def escapeAll (marks : Nat) (lines : Bool) (run : Nat) : List Char → List Char
  | [] => []
  | c :: cs =>
    if c = '"' then
      if run < marks then '"' :: escapeAll marks lines (run + 1) cs
      else escapeText c ++ escapeAll marks lines 0 cs
    else if c = '\n' && lines then c :: escapeAll marks lines 0 cs
    else if c = '\\' || c = '\t' || c = '\n' || needsEscape c then
      escapeText c ++ escapeAll marks lines 0 cs
    else c :: escapeAll marks lines 0 cs

/-- Writes a text.  The first of these ways is taken that shows it without escapes: between one
quotation mark, one apostrophe, three quotation marks and three apostrophes.  If there is none it
stands between quotation marks with escapes, three of them if it has line feeds.  A text with line
feeds begins on a line of its own. -/
def writeText (cs : List Char) : List Char :=
  let controls := cs.any needsEscape
  let backslash := cs.contains '\\'
  let lines := cs.contains '\n'
  let quotes := longestRun '"' 0 cs
  let apostrophes := longestRun '\'' 0 cs
  let start := if lines then ['\n'] else []
  let basic := '"' :: (escapeAll 0 false 0 cs ++ ['"'])
  let longBasic := ['"', '"', '"'] ++ start ++ escapeAll 2 true 0 cs ++ ['"', '"', '"']
  if !controls && !backslash && quotes = 0 && !lines then basic
  else if !controls && apostrophes = 0 && !lines then '\'' :: (cs ++ ['\''])
  else if !controls && !backslash && quotes ≤ 2 then longBasic
  else if !controls && apostrophes ≤ 2 then
    ['\'', '\'', '\''] ++ start ++ cs ++ ['\'', '\'', '\'']
  else if lines then longBasic
  else basic

example : writeText "a\\b".toList = "'a\\b'".toList := by decide +kernel
example : writeText "a'\"".toList = "\"\"\"a'\"\"\"\"".toList := by decide +kernel

end ModelScoring.Toml
