/-!
# Things with a mark between them

The parts of a name, the items of an array and the entries of a table on one line all stand in a
row with a mark between them, and gaps may surround each.  `readListed` reads such a row and hands
over the text from the first character that is neither part of a thing nor a mark.
-/

namespace ModelScoring.Toml

/-- Reads one thing from the start of a text: the thing, and the text behind it. -/
abbrev Reads (α : Type) := List Char → Option (α × List Char)

/-- Whether a character is a blank within a line. -/
def isGap (c : Char) : Bool := c == ' ' || c == '\t'

/-- The text without the blanks it starts with. -/
def skipGaps (cs : List Char) : List Char := cs.dropWhile isGap

/-- Reads things with a mark between them, after some that were found before, the last first.
After a mark the row may end if the text that follows says so. -/
def readListed {α : Type} (mark : Char) (skip : List Char → List Char)
    (ends : List Char → Bool) (item : Reads α) (found : List α) (cs : List Char) :
    Option (List α × List Char) :=
  match item (skip cs) with
  | none => none
  | some (x, rest) =>
    match skip rest with
    | [] => some ((x :: found).reverse, [])
    | c :: more =>
      if c ≠ mark then some ((x :: found).reverse, c :: more)
      else if ends (skip more) then some ((x :: found).reverse, skip more)
      else if more.length < cs.length then readListed mark skip ends item (x :: found) more
      else none
termination_by cs.length

end ModelScoring.Toml
