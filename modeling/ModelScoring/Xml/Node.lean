import ModelScoring.Xml.Tag

/-!
# The element tree

A document is a tree of elements.  Between the tags of an element stand further elements, texts,
and asides, which are comments and processing instructions.  Two texts never stand side by side.
Every node also keeps the text it was read from.

Elements are looked up by name, and prefixes do not count.
-/

namespace ModelScoring.Xml

inductive Node
  /-- An element: its name without a prefix, its attributes, what it contains, and the text it was
  read from. -/
  | element (name : String) (attributes : List Attribute) (children : List Node)
    (source : List Char)
  /-- A text, and the text it was read from. -/
  | text (content source : List Char)
  /-- A comment or a processing instruction. -/
  | aside (source : List Char)

namespace Node

/-- The text that a node was read from. -/
def source : Node → List Char
  | element _ _ _ source => source
  | text _ source => source
  | aside source => source

def name? : Node → Option String
  | element name _ _ _ => some name
  | _ => none

def children : Node → List Node
  | element _ _ children _ => children
  | _ => []

/-- Whether a node is an element of that name. -/
def isNamed (name : String) (node : Node) : Bool := node.name? == some name

/-- Whether a node is an element. -/
def isElement (node : Node) : Bool := node.name?.isSome

/-- The value of an attribute without a prefix. -/
def attribute? (name : String) : Node → Option String
  | element _ attributes _ _ =>
    (attributes.find? fun a => a.name = ⟨"", name⟩).map Attribute.value
  | _ => none

/-- The elements that an element contains. -/
def elements (node : Node) : List Node := node.children.filter isElement

/-- The elements of that name that an element contains. -/
def childrenNamed (name : String) (node : Node) : List Node :=
  node.children.filter (isNamed name)

/-- The first element of that name that an element contains. -/
def child? (name : String) (node : Node) : Option Node := node.children.find? (isNamed name)

mutual

/-- A node and everything below it, in document order. -/
def descendants : Node → List Node
  | element name attributes children source =>
    element name attributes children source :: descendantsOf children
  | text content source => [text content source]
  | aside source => [aside source]

/-- Nodes and everything below them, in document order. -/
def descendantsOf : List Node → List Node
  | [] => []
  | node :: nodes => descendants node ++ descendantsOf nodes

end

def content? : Node → Option (List Char)
  | text content _ => some content
  | _ => none

/-- The texts below a node, in document order. -/
def texts (node : Node) : List (List Char) := node.descendants.filterMap content?

/-- The texts below a node, joined. -/
def innerText (node : Node) : List Char := node.texts.flatten

/-- The text below a node, trimmed. -/
def trimmedText (node : Node) : String := String.ofList (Text.trim node.innerText)

/-- The elements of that name at and below a node, in document order. -/
def named (name : String) (node : Node) : List Node := node.descendants.filter (isNamed name)

/-- The only element of that name in a document. -/
def only? (document : Node) (name : String) : Option Node :=
  match document.named name with
  | [node] => some node
  | _ => none

end Node

end ModelScoring.Xml
