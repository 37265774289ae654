/-!
# TOML documents

A document is a table: names with values.  Tables come into being in several ways, and the way
decides what may still be added to them.  While a document is read its tables are therefore kept
as `Item`s, each with its origin.

`Entries.extend?` follows a path of names into a table, makes the tables that are missing, and
changes the table at the end of the path.
-/

namespace ModelScoring.Toml

/-- A value. -/
inductive Value
  | text (s : String)
  | integer (n : Int)
  /-- A number with a fraction or an exponent. -/
  | float (x : Float)
  | boolean (b : Bool)
  /-- A date, a time, or both, as written. -/
  | moment (s : String)
  | array (items : List Value)
  | table (entries : List (String × Value))

/-- How a table came into being. -/
inductive Origin
  /-- A header of its own. -/
  | header
  /-- The header of a table inside it. -/
  | implied
  /-- A name with dots. -/
  | dotted
  deriving DecidableEq, Repr

/-- What a name stands for while a document is read. -/
inductive Item
  | value (v : Value)
  | table (origin : Origin) (entries : List (String × Item))
  /-- Tables under one header, the last first. -/
  | tables (elements : List (List (String × Item)))

/-- The entries of a table while a document is read. -/
abbrev Entries := List (String × Item)

mutual

/-- The value that an item ends up as. -/
def Item.toValue : Item → Value
  | .value v => v
  | .table _ entries => .table (Item.entriesToValues entries)
  | .tables elements => .array (Item.tablesToValues elements).reverse

/-- The values that entries end up as. -/
def Item.entriesToValues : List (String × Item) → List (String × Value)
  | [] => []
  | (name, item) :: rest => (name, item.toValue) :: Item.entriesToValues rest

/-- The values that tables end up as. -/
def Item.tablesToValues : List (List (String × Item)) → List Value
  | [] => []
  | entries :: rest => .table (Item.entriesToValues entries) :: Item.tablesToValues rest

end

/-- The value of a name in a table. -/
def Value.field? (name : String) (entries : List (String × Value)) : Option Value :=
  entries.lookup name

namespace Entries

/-- The entries with another item for a name. -/
def put (entries : Entries) (name : String) (item : Item) : Entries :=
  match entries with
  | [] => [(name, item)]
  | (other, found) :: rest =>
    if other = name then (name, item) :: rest else (other, found) :: put rest name item

/-- Changes the table at the end of a path.  Missing tables on the way are made.  A path of a
dotted name does not lead through a table that has a header, and no path leads through a value. -/
def extend? (dotted : Bool) (change : Origin → Entries → Option Entries) :
    List String → Origin → Entries → Option Entries
  | [], origin, entries => change origin entries
  | name :: path, _, entries =>
    match entries.lookup name with
    | none => do
      let origin := if dotted then .dotted else .implied
      pure (entries.put name (.table origin (← extend? dotted change path origin [])))
    | some (.value _) => none
    | some (.table origin inner) =>
      if dotted && origin = .header then none
      else do pure (entries.put name (.table origin (← extend? dotted change path origin inner)))
    | some (.tables []) => none
    | some (.tables (last :: before)) => do
      pure (entries.put name (.tables ((← extend? dotted change path .header last) :: before)))

/-- Adds a value under a name with dots, given by the path before its last part and that part.
Only tables that dotted names have made take values this way, and no name is taken twice. -/
def add? (path : List String) (name : String) (value : Value) (origin : Origin)
    (entries : Entries) : Option Entries :=
  extend? true (fun origin entries =>
    if (origin == .dotted) == path.isEmpty then none
    else if (entries.lookup name).isSome then none
    else some (entries ++ [(name, .value value)])) path origin entries

/-- Opens the table with a header: a new one, or one that was implied so far. -/
def openTable? (path : List String) (name : String) (entries : Entries) : Option Entries :=
  extend? false (fun _ entries =>
    match entries.lookup name with
    | none => some (entries ++ [(name, .table .header [])])
    | some (.table .implied inner) => some (entries.put name (.table .header inner))
    | some _ => none) path .header entries

/-- Opens the next table of a list of tables under one header. -/
def openElement? (path : List String) (name : String) (entries : Entries) : Option Entries :=
  extend? false (fun _ entries =>
    match entries.lookup name with
    | none => some (entries ++ [(name, .tables [[]])])
    | some (.tables elements) => some (entries.put name (.tables ([] :: elements)))
    | some _ => none) path .header entries

end Entries

end ModelScoring.Toml
