import ModelScoring.Decimal.Notation
import ModelScoring.Text.Quoted

/-!
# JSON documents

Results are also written as JSON.  A document is a tree, whose fields keep their order.  It has
two written forms.  `Json.compact` uses no blanks at all.  `Json.pretty` puts each item and each
field on a line of its own, indented by two spaces a level, and leaves an empty array or object on
one line.
-/

namespace ModelScoring

inductive Json
  | null
  | natural (n : Nat)
  | float (x : Float)
  | text (s : String)
  | array (items : List Json)
  | object (fields : List (String × Json))

namespace Json

def floatText (x : Float) : String := Decimal.Layout.json.text x

/-- An opening and a closing bracket around items, with commas between them. -/
def bracketed (opening closing : String) (items : List String) : String :=
  opening ++ String.intercalate "," items ++ closing

/-- Items on lines of their own between brackets, the closing one as far in as given. -/
def bracketedLines (opening closing : String) (depth : Nat) (items : List String) : String :=
  let margin := "\n" ++ String.ofList (List.replicate (2 * depth) ' ')
  if items.isEmpty then opening ++ closing
  else opening ++ String.intercalate "," (items.map fun item => margin ++ "  " ++ item) ++
    margin ++ closing

mutual

def compact : Json → String
  | null => "null"
  | natural n => n.repr
  | float x => floatText x
  | text s => Text.quoted s
  | array items => bracketed "[" "]" (compactItems items)
  | object fields => bracketed "\x7b" "\x7d" (compactFields fields)

/-- The items of an array without blanks. -/
def compactItems : List Json → List String
  | [] => []
  | item :: items => compact item :: compactItems items

/-- The fields of an object without blanks. -/
def compactFields : List (String × Json) → List String
  | [] => []
  | (name, value) :: fields => (Text.quoted name ++ ":" ++ compact value) :: compactFields fields

end

mutual

/-- The form with lines, at a depth. -/
def prettyAt (depth : Nat) : Json → String
  | null => "null"
  | natural n => n.repr
  | float x => floatText x
  | text s => Text.quoted s
  | array items => bracketedLines "[" "]" depth (prettyItems (depth + 1) items)
  | object fields => bracketedLines "\x7b" "\x7d" depth (prettyFields (depth + 1) fields)

/-- The items of an array with lines. -/
def prettyItems (depth : Nat) : List Json → List String
  | [] => []
  | item :: items => prettyAt depth item :: prettyItems depth items

/-- The fields of an object with lines. -/
def prettyFields (depth : Nat) : List (String × Json) → List String
  | [] => []
  | (name, value) :: fields =>
    (Text.quoted name ++ ": " ++ prettyAt depth value) :: prettyFields depth fields

end

def pretty (document : Json) : String := prettyAt 0 document

end Json

end ModelScoring
