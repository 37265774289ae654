import ModelScoring.Toml.Name
import ModelScoring.Toml.Scalar

/-!
# Reading TOML

A document is read line by line.  A line names a value, opens a table by its name in brackets, or
opens the next table of a list by its name in double brackets; names of values are then taken
relative to the table that was opened last.  Texts and arrays may run over several lines.

`Document.read?` gives the entries of the document's outermost table.
-/

namespace ModelScoring.Toml

/-! ## Values -/

/-- The text without the blanks, line breaks and comments it starts with.  The flag says whether
it starts inside a comment. -/
def skipLines (comment : Bool) : List Char → List Char
  | [] => []
  | '\n' :: cs => skipLines false cs
  | '\r' :: '\n' :: cs => skipLines false cs
  | c :: cs =>
    if comment then if isPrintable c then skipLines true cs else c :: cs
    else if c = '#' then skipLines true cs
    else if isGap c then skipLines false cs
    else c :: cs

/-- Whether a text starts with a character. -/
def startsWith (c : Char) (cs : List Char) : Bool := cs.head? == some c

/-- Reads what follows an opening bracket: things with commas between them, and the closing
bracket. -/
def readEnclosed {α : Type} (close : Char) (skip : List Char → List Char)
    (ends : List Char → Bool) (item : Reads α) (cs : List Char) :
    Option (List α × List Char) :=
  if startsWith close (skip cs) then some ([], (skip cs).tail)
  else do
    let (items, rest) ← readListed ',' skip ends item [] cs
    if startsWith close rest then some (items, rest.tail) else none

/-- Reads a name, an equals sign and a value. -/
def readAssignment? (value : Reads Value) (cs : List Char) :
    Option ((Name × Value) × List Char) := do
  let (name, rest) ← readName? cs
  match rest with
  | '=' :: rest =>
    let (v, rest) ← value (skipGaps rest)
    pure ((name, v), rest)
  | _ => none

/-- The table with some entries, each under a name with dots. -/
def Value.ofEntries? (entries : List (Name × Value)) : Option Value := do
  let table ← entries.foldlM (fun (table : Entries) (name, value) =>
    table.add? name.path name.last value .header) []
  pure (.table (Item.entriesToValues table))

/-- Reads a value in which brackets stand inside brackets at most so many times. -/
def readValue? (nesting : Nat) (cs : List Char) : Option (Value × List Char) :=
  match nesting, cs with
  | _, '"' :: _ => (readText? cs).map fun (text, rest) => (.text (String.ofList text), rest)
  | _, '\'' :: _ => (readText? cs).map fun (text, rest) => (.text (String.ofList text), rest)
  | 0, '[' :: _ => none
  | nesting + 1, '[' :: cs =>
    (readEnclosed ']' (skipLines false) (startsWith ']') (readValue? nesting) cs).map
      fun (items, rest) => (.array items, rest)
  | 0, '\x7b' :: _ => none
  | nesting + 1, '\x7b' :: cs => do
    let (entries, rest) ←
      readEnclosed '\x7d' skipGaps (fun _ => false) (readAssignment? (readValue? nesting)) cs
    pure (← Value.ofEntries? entries, rest)
  | _, _ => do
    let (word, rest) := splitWord cs
    pure (← Value.ofWord? word, rest)

/-- How many brackets may be open at a time. -/
def maxNesting : Nat := 79

/-! ## Lines -/

/-- The text behind the end of a line; blanks and a comment may stand before the end. -/
def endLine? (cs : List Char) : Option (List Char) :=
  let rest :=
    match skipGaps cs with
    | '#' :: rest => rest.dropWhile isPrintable
    | rest => rest
  match rest with
  | [] => some []
  | '\n' :: rest => some rest
  | '\r' :: '\n' :: rest => some rest
  | _ => none

/-- What a line does. -/
inductive Line
  | blank
  /-- Names a value. -/
  | entry (name : Name) (value : Value)
  /-- Opens a table. -/
  | table (name : Name)
  /-- Opens the next table of a list. -/
  | element (name : Name)

/-- Reads a line that is not blank, up to where its end should be. -/
def readStatement? (cs : List Char) : Option (Line × List Char) :=
  match cs with
  | '[' :: '[' :: cs => do
    match ← readName? cs with
    | (name, ']' :: ']' :: rest) => pure (.element name, rest)
    | _ => none
  | '[' :: cs => do
    match ← readName? cs with
    | (name, ']' :: rest) => pure (.table name, rest)
    | _ => none
  | _ => do
    let ((name, v), rest) ← readAssignment? (readValue? maxNesting) cs
    pure (.entry name v, rest)

/-- Reads a line, its end included. -/
def readLine? (cs : List Char) : Option (Line × List Char) :=
  match endLine? cs with
  | some rest => some (.blank, rest)
  | none => do
    let (line, rest) ← readStatement? (skipGaps cs)
    pure (line, ← endLine? rest)

/-- Reads the lines of a text, after some that were found before, the last first. -/
def readLines (found : List Line) (cs : List Char) : Option (List Line) :=
  match readLine? cs with
  | none => none
  | some (line, []) => some (line :: found).reverse
  | some (line, rest) =>
    if rest.length < cs.length then readLines (line :: found) rest else none
termination_by cs.length

/-! ## Documents -/

/-- A document while it is read. -/
structure Draft where
  /-- The outermost table. -/
  entries : Entries
  /-- The names that lead to the table opened last. -/
  current : List String

def Draft.apply? (draft : Draft) : Line → Option Draft
  | .blank => some draft
  | .entry name value => do
    let entries ← Entries.extend? false
      (fun origin table => table.add? name.path name.last value origin)
      draft.current .header draft.entries
    pure ⟨entries, draft.current⟩
  | .table name => do
    pure ⟨← draft.entries.openTable? name.path name.last, name.path ++ [name.last]⟩
  | .element name => do
    pure ⟨← draft.entries.openElement? name.path name.last, name.path ++ [name.last]⟩

/-- The text without the byte order mark it may start with. -/
def dropMark : List Char → List Char
  | '\uFEFF' :: cs => cs
  | cs => cs

/-- The entries of the document that a text is. -/
def Document.read? (text : String) : Option (List (String × Value)) := do
  let lines ← readLines [] (dropMark text.toList)
  let draft ← lines.foldlM Draft.apply? ⟨[], []⟩
  pure (Item.entriesToValues draft.entries)

end ModelScoring.Toml
