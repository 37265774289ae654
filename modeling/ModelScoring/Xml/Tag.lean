import ModelScoring.Xml.Content

/-!
# Tags

A tag opens an element, closes one, or does both.  An opening tag has a name and attributes, each
with spaces before it.  A closing tag has a name alone.  `Tag.ofChars?` reads what stands between
the angle brackets.
-/

namespace ModelScoring.Xml

/-- An attribute as it was written. -/
structure Attribute where
  name : QName
  value : String
  deriving DecidableEq, Repr

inductive Tag
  /-- Opens an element, and also closes it if the flag is set. -/
  | opening (name : QName) (attributes : List Attribute) (closed : Bool)
  /-- Closes an element. -/
  | closing (name : QName)
  deriving DecidableEq, Repr

/-- Reads what is between quotes: the characters, and the text behind the closing quote. -/
def readQuoted? (cs : List Char) : Option (List Char × List Char) :=
  match cs with
  | '"' :: rest => Text.cut '"' rest
  | '\'' :: rest => Text.cut '\'' rest
  | _ => none

/-- Reads a name, an equals sign and what is between quotes: the name, the characters between the
quotes, and the text behind them. -/
def readPair? (cs : List Char) : Option (QName × List Char × List Char) :=
  match readQName? cs with
  | none => none
  | some (name, rest) =>
    match skipSpaces rest with
    | '=' :: rest =>
      match readQuoted? (skipSpaces rest) with
      | none => none
      | some (between, rest) => some (name, between, rest)
    | _ => none

theorem length_lt_of_readQuoted? {cs between rest : List Char}
    (h : readQuoted? cs = some (between, rest)) : rest.length < cs.length := by
  unfold readQuoted? at h
  split at h
  · exact Nat.lt_succ_of_lt (length_lt_of_cut h)
  · exact Nat.lt_succ_of_lt (length_lt_of_cut h)
  · cases h

theorem length_lt_of_readPair? {cs between rest : List Char} {name : QName}
    (h : readPair? cs = some (name, between, rest)) : rest.length < cs.length := by
  unfold readPair? at h
  split at h
  · cases h
  · next behindName hname =>
    split at h
    · next behindSign hsign =>
      split at h
      · cases h
      · next hquoted =>
        cases h
        have h1 := length_le_of_readQName? hname
        have h2 := length_dropWhile_le isSpace behindName
        have h3 := length_dropWhile_le isSpace behindSign
        have h4 := length_lt_of_readQuoted? hquoted
        have h5 := congrArg List.length hsign
        simp only [skipSpaces, List.length_cons] at h4 h5
        omega
    · cases h

/-- Reads the attributes of an opening tag and whether it also closes its element. -/
def readAttributes? (cs : List Char) : Option (List Attribute × Bool) :=
  match _hspace : skipSpaces cs with
  | [] => some ([], false)
  | ['/'] => some ([], true)
  | rest =>
    if rest.length = cs.length then none
    else
      match _hpair : readPair? rest with
      | none => none
      | some (name, between, behind) =>
        match valueContent? between with
        | none => none
        | some value =>
          (readAttributes? behind).map fun (attributes, closed) =>
            (⟨name, String.ofList value⟩ :: attributes, closed)
termination_by cs.length
decreasing_by
  have h1 := length_lt_of_readPair? _hpair
  have h2 := length_dropWhile_le isSpace cs
  rw [← _hspace] at h1
  exact Nat.lt_of_lt_of_le h1 h2

/-- Reads what stands between the angle brackets of a tag. -/
def Tag.ofChars? (cs : List Char) : Option Tag :=
  match cs with
  | '/' :: rest =>
    match readQName? rest with
    | none => none
    | some (name, behind) => if (skipSpaces behind).isEmpty then some (.closing name) else none
  | _ =>
    match readQName? cs with
    | none => none
    | some (name, behind) =>
      (readAttributes? behind).map fun (attributes, closed) => .opening name attributes closed

/-! ## The declaration -/

/-- Reads an attribute of the declaration, whose name begins as given: the text behind it. -/
def readDeclared? (start : List Char) (cs : List Char) : Option (List Char) :=
  if start.isPrefixOf cs then
    match readPair? cs with
    | some (_, between, rest) => if between.contains '<' then none else some rest
    | none => none
  else none

/-- The text behind spaces, which may be missing only where the declaration ends. -/
def separated? (cs : List Char) : Option (List Char) :=
  let rest := skipSpaces cs
  if rest.length < cs.length || "?>".toList.isPrefixOf rest || rest.isEmpty then some rest else none

/-- The text behind the declaration, given the text behind its opening mark.  A version comes
first, then an encoding or not, then whether the document stands alone or not. -/
def behindDeclaration? (cs : List Char) : Option (List Char) := do
  let afterVersion ← readDeclared? "version".toList (← separated? cs)
  let beforeEncoding ← separated? afterVersion
  let beforeAlone ←
    if "encoding".toList.isPrefixOf beforeEncoding then
      separated? (← readDeclared? "encoding".toList beforeEncoding)
    else some beforeEncoding
  let last ←
    if "standalone".toList.isPrefixOf beforeAlone then
      readDeclared? "standalone".toList beforeAlone
    else some beforeAlone
  match skipSpaces last with
  | '?' :: '>' :: rest => some rest
  | _ => none

end ModelScoring.Xml
