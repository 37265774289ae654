import ModelScoring.Xml.Chunk
import ModelScoring.Xml.Node

/-!
# Reading documents

A document is read in three passes.  The first cuts it into chunks.  The second reads the tags
among them.  The third puts elements into one another, with a stack of the elements that are open.
A document type is not accepted, and there is no further declaration behind the first.

Every prefix has to be declared, by the element that uses it or by one around it, and no two
attributes of an element may have the same name in the same name space.  The prefix `xml` needs no
declaration in front of an attribute.
-/

namespace ModelScoring.Xml

/-- The name space that the prefix `xml` stands for. -/
def xmlSpace : String := "http://www.w3.org/XML/1998/namespace"

/-- The name space of the declarations themselves. -/
def declarationSpace : String := "http://www.w3.org/2000/xmlns/"

/-- Declared prefixes with their name spaces, the innermost declaration first. -/
abbrev Spaces := List (String × String)

/-- Adds what the attributes of an element declare to the prefixes it declared so far; the empty
prefix stands for elements without one.  There is nothing if a declaration is not allowed. -/
def declare? (declared : Spaces) : List Attribute → Option Spaces
  | [] => some declared
  | a :: rest =>
    if a.name.space = "xmlns" then
      if a.value = declarationSpace || (a.name.name == "xml") != (a.value == xmlSpace) ||
          declared.any (fun d => d.1 = a.name.name) then
        none
      else if a.name.name = "xml" then declare? declared rest
      else declare? (declared ++ [(a.name.name, a.value)]) rest
    else if a.name.name = "xmlns" then
      if a.value = declarationSpace || a.value = xmlSpace then none
      else declare? (declared ++ [("", a.value)]) rest
    else declare? declared rest

/-- Whether an attribute declares a prefix. -/
def Attribute.isDeclaration (a : Attribute) : Bool :=
  a.name.space == "xmlns" || a.name.name == "xmlns"

/-- The name space of an attribute; without a prefix it has none.  There is nothing if the prefix
is not declared. -/
def Attribute.space? (spaces : Spaces) (a : Attribute) : Option (Option String) :=
  if a.name.space = "" then some none
  else if a.name.space = "xml" then some (some xmlSpace)
  else (spaces.lookup a.name.space).map some

/-- Whether the attributes have declared prefixes and no two of them the same name. -/
def distinctAttributes (spaces : Spaces) (seen : List (Option String × String)) :
    List Attribute → Bool
  | [] => true
  | a :: rest =>
    match a.space? spaces with
    | none => false
    | some space =>
      !seen.contains (space, a.name.name) &&
        distinctAttributes spaces ((space, a.name.name) :: seen) rest

structure OpenElement where
  /-- Its name, as written. -/
  name : QName
  /-- Its attributes, declarations aside. -/
  attributes : List Attribute
  /-- The prefixes declared inside it. -/
  spaces : Spaces
  /-- The text of its tag. -/
  opening : List Char
  /-- What it contains so far, the last first. -/
  contents : List Node

def OpenElement.ofTag? (name : QName) (attributes : List Attribute) (opening : List Char)
    (around : Spaces) : Option OpenElement := do
  let declared ← declare? [] attributes
  let spaces := declared ++ around
  let proper := attributes.filter fun a => !a.isDeclaration
  if name.space = "xmlns" || !distinctAttributes spaces [] proper ||
      (name.space ≠ "" && (spaces.lookup name.space).isNone) then
    none
  else some ⟨name, proper, spaces, opening, []⟩

/-- The element that an open one becomes, given the text of its closing tag. -/
def OpenElement.close (e : OpenElement) (closing : List Char) : Node :=
  let children := e.contents.reverse
  .element e.name.name e.attributes children
    (e.opening ++ children.flatMap Node.source ++ closing)

/-- Adds a node to what an element contains.  Texts side by side become one. -/
def OpenElement.add (e : OpenElement) (node : Node) : OpenElement :=
  match node, e.contents with
  | .text content source, .text content' source' :: before =>
    { e with contents := .text (content' ++ content) (source' ++ source) :: before }
  | node, contents => { e with contents := node :: contents }

/-- How far a document has been read: the open elements, the innermost first, and the outermost
element once it is closed. -/
structure Reading where
  /-- The open elements. -/
  stack : List OpenElement
  /-- The outermost element. -/
  root : Option Node

namespace Reading

/-- Adds a node where the reading stands.  Outside the outermost element stand only that element
and asides. -/
def add? (r : Reading) (node : Node) : Option Reading :=
  match r.stack with
  | inner :: around => some { r with stack := inner.add node :: around }
  | [] =>
    match node with
    | .aside _ => some r
    | .text _ _ => none
    | .element .. => if r.root.isNone then some { r with root := some node } else none

def tag? (r : Reading) (source : List Char) : Tag → Option Reading
  | .opening name attributes closed => do
    let around := (r.stack.head?.map OpenElement.spaces).getD []
    let e ← OpenElement.ofTag? name attributes source around
    if closed then r.add? (e.close [])
    else if r.stack.isEmpty && r.root.isSome then none
    else some { r with stack := e :: r.stack }
  | .closing name =>
    match r.stack with
    | [] => none
    | inner :: around =>
      if inner.name = name then Reading.add? { r with stack := around } (inner.close source)
      else none

/-- Whether a comment may say this. -/
def isComment (cs : List Char) : Bool :=
  cs.getLast? != some '-' && !(cs.zip (cs.drop 1)).contains ('-', '-')

/-- Whether a processing instruction may say this: it begins with a name, and is no declaration of
the document. -/
def isInstruction (cs : List Char) : Bool :=
  (cs.head?.map isNameStart).getD false && !"xml ".toList.isPrefixOf cs

def chunk? (r : Reading) (chunk : Chunk) : Option Reading :=
  match chunk with
  | .comment cs => if isComment cs then r.add? (.aside chunk.source) else none
  | .instruction cs => if isInstruction cs then r.add? (.aside chunk.source) else none
  | .tag cs => do r.tag? chunk.source (← Tag.ofChars? cs)
  | .literal cs => r.add? (.text (literalContent cs) chunk.source)
  | .text cs =>
    if r.stack.isEmpty then if cs.all isSpace then some r else none
    else do r.add? (.text (← textContent? cs) chunk.source)

def chunks? (r : Reading) : List Chunk → Option Reading
  | [] => some r
  | chunk :: rest =>
    match r.chunk? chunk with
    | none => none
    | some r => chunks? r rest

end Reading

/-- The text without the byte order mark it may begin with. -/
def dropMark : List Char → List Char
  | c :: cs => if c = Char.ofNat 0xFEFF then cs else c :: cs
  | [] => []

/-- Reads a document from characters: its outermost element. -/
def readChars? (cs : List Char) : Option Node := do
  let cs := dropMark cs
  if !cs.all isXmlChar then none
  else
    let body ←
      if "<?xml ".toList.isPrefixOf cs then behindDeclaration? (cs.drop 5) else some cs
    let chunks ← Chunk.ofChars? body
    let reading ← Reading.chunks? ⟨[], none⟩ chunks
    if reading.stack.isEmpty then reading.root else none

/-- Reads a document: its outermost element. -/
def read? (text : String) : Option Node := readChars? text.toList

end ModelScoring.Xml
