/-!
# Names in XML

A name begins with a character of one class and goes on with characters of a wider one.  A
qualified name has at most one colon in it, and the part before the colon is its prefix.  A name
without a prefix has the empty one.
-/

namespace ModelScoring.Xml

/-- The characters that separate the parts of a tag. -/
def isSpace (c : Char) : Bool := c == ' ' || c == '\t' || c == '\n' || c == '\r'

/-- The text without the spaces it starts with. -/
def skipSpaces (cs : List Char) : List Char := cs.dropWhile isSpace

/-- The characters that a document may hold. -/
def isXmlChar (c : Char) : Bool :=
  if c.toNat < 0x20 then isSpace c else c.toNat != 0xFFFE && c.toNat != 0xFFFF

/-- The code points that begin a name, as closed ranges in ascending order. -/
def nameStartRanges : List (Nat × Nat) :=
  [(0x3A, 0x3A), (0x41, 0x5A), (0x5F, 0x5F), (0x61, 0x7A), (0xC0, 0xD6), (0xD8, 0xF6),
    (0xF8, 0x2FF), (0x370, 0x37D), (0x37F, 0x1FFF), (0x200C, 0x200D), (0x2070, 0x218F),
    (0x2C00, 0x2FEF), (0x3001, 0xD7FF), (0xF900, 0xFDCF), (0xFDF0, 0xFFFD), (0x10000, 0xEFFFF)]

/-- The further code points that a name goes on with, as closed ranges in ascending order. -/
def nameFurtherRanges : List (Nat × Nat) :=
  [(0x2D, 0x2E), (0x30, 0x39), (0xB7, 0xB7), (0x300, 0x36F), (0x203F, 0x2040)]

/-- Whether a code point is in one of the ranges. -/
def inRanges (ranges : List (Nat × Nat)) (c : Char) : Bool :=
  ranges.any fun range => range.1 ≤ c.toNat && c.toNat ≤ range.2

/-- Whether a name may begin with the character. -/
def isNameStart (c : Char) : Bool := inRanges nameStartRanges c

/-- Whether a name may go on with the character. -/
def isNameChar (c : Char) : Bool := isNameStart c || inRanges nameFurtherRanges c

/-- A name with a prefix, which may be empty. -/
structure QName where
  /-- The part before the colon. -/
  space : String
  /-- The part behind the colon. -/
  name : String
  deriving DecidableEq, Repr

/-- Whether the first character of a text, if there is one, begins a name. -/
def startsName (cs : List Char) : Bool := (cs.head?.map isNameStart).getD true

/-- The qualified name that a run of name characters is. -/
def QName.ofChars? (cs : List Char) : Option QName :=
  match cs.splitOnP (· == ':') with
  | [name] => if !name.isEmpty && startsName name then some ⟨"", String.ofList name⟩ else none
  | [space, name] =>
    if !name.isEmpty && startsName name && startsName space then
      some ⟨String.ofList space, String.ofList name⟩
    else none
  | _ => none

/-- Reads a qualified name: the name, and the text behind it. -/
def readQName? (cs : List Char) : Option (QName × List Char) :=
  (QName.ofChars? (cs.takeWhile isNameChar)).map fun name => (name, cs.dropWhile isNameChar)

theorem length_dropWhile_le (p : Char → Bool) (cs : List Char) :
    (cs.dropWhile p).length ≤ cs.length := by
  induction cs with
  | nil => exact Nat.le_refl _
  | cons c cs ih =>
    rw [List.dropWhile_cons]
    split
    · exact Nat.le_succ_of_le ih
    · exact Nat.le_refl _

theorem length_le_of_readQName? {cs rest : List Char} {name : QName}
    (h : readQName? cs = some (name, rest)) : rest.length ≤ cs.length := by
  simp only [readQName?, Option.map_eq_some_iff, Prod.mk.injEq] at h
  obtain ⟨_, _, _, rfl⟩ := h
  exact length_dropWhile_le _ _

end ModelScoring.Xml
