import ModelScoring.Toml.Listed
import ModelScoring.Toml.Text

/-!
# Names in TOML

A name is one part or more with dots between them.  A part is bare, made of letters, digits,
underscores and hyphens, or a text on one line in quotation marks or apostrophes.
-/

namespace ModelScoring.Toml

/-- A name by its parts: those that lead to a table, and the one in that table. -/
structure Name where
  /-- The parts before the last one. -/
  path : List String
  /-- The last part. -/
  last : String
  deriving DecidableEq, Repr

/-- The first number of parts that a name may not have. -/
def maxParts : Nat := 80

/-- Whether a character may stand in a bare part. -/
def isBare (c : Char) : Bool := c.isAlphanum || c == '_' || c == '-'

/-- Reads a part of a name. -/
def readPart? (cs : List Char) : Option (String × List Char) :=
  match cs.takeWhile isBare with
  | [] => (readShort? cs).map fun (part, rest) => (String.ofList part, rest)
  | part => some (String.ofList part, cs.dropWhile isBare)

/-- The name with some parts, if there are any and not too many. -/
def Name.ofParts? (parts : List String) : Option Name :=
  if parts.length < maxParts then parts.getLast?.map fun last => ⟨parts.dropLast, last⟩ else none

/-- Reads a name.  Blanks may stand around its parts. -/
def readName? (cs : List Char) : Option (Name × List Char) := do
  let (parts, rest) ← readListed '.' skipGaps (fun _ => false) readPart? [] cs
  pure (← Name.ofParts? parts, rest)

example : readName? "a . \"b c\".d = 1".toList = some (⟨["a", "b c"], "d"⟩, "= 1".toList) := by
  decide +kernel

end ModelScoring.Toml
