/-!
# Markup and text

A document is a sequence of chunks: tags, comments, processing instructions, literal sections and
the text between them.  Each chunk but text is known by its first characters and runs to the first
place where it can end.  A tag ends at an angle bracket that stands in no quoted value.

`Chunk.source` is the text of a chunk as it stands in the document.  The chunks of a document are
found in one pass, character by character, which is why nothing is read here that needs a closer
look: a tag may still turn out to be none.
-/

namespace ModelScoring.Xml

/-- A piece of a document. -/
inductive Chunk
  /-- Text between markup. -/
  | text (content : List Char)
  /-- What stands between the angle brackets of a tag. -/
  | tag (content : List Char)
  /-- What a comment says. -/
  | comment (content : List Char)
  /-- What a processing instruction says, its target included. -/
  | instruction (content : List Char)
  /-- Text that is taken as it stands. -/
  | literal (content : List Char)
  deriving DecidableEq, Repr

/-- What an ending chunk would become, and the characters it has so far, the last one first. -/
inductive Scan
  /-- Between markup. -/
  | text (content : List Char)
  /-- In a tag. -/
  | tag (content : List Char)
  /-- In a quoted value of a tag. -/
  | quoted (quote : Char) (content : List Char)
  /-- In a comment. -/
  | comment (content : List Char)
  /-- In a processing instruction. -/
  | instruction (content : List Char)
  /-- In a literal section. -/
  | literal (content : List Char)

namespace Chunk

/-- The chunk as it stands in the document. -/
def source : Chunk → List Char
  | text content => content
  | tag content => '<' :: (content ++ ['>'])
  | comment content => "<!--".toList ++ content ++ "-->".toList
  | instruction content => "<?".toList ++ content ++ "?>".toList
  | literal content => "<![CDATA[".toList ++ content ++ "]]>".toList

/-- Adds a text, given from its end, to chunks, given from the last; an empty text is no chunk. -/
def addText (content : List Char) (before : List Chunk) : List Chunk :=
  if content.isEmpty then before else text content.reverse :: before

/-- Goes on with a chunk, and with the chunks before it, from the last.  There are none if the
document ends inside markup. -/
def scan : Scan → List Chunk → List Char → Option (List Chunk)
  | .text content, before, [] => some (addText content before).reverse
  | .text content, before, '<' :: '!' :: '-' :: '-' :: cs =>
    scan (.comment []) (addText content before) cs
  | .text content, before, '<' :: '!' :: '[' :: 'C' :: 'D' :: 'A' :: 'T' :: 'A' :: '[' :: cs =>
    scan (.literal []) (addText content before) cs
  | .text content, before, '<' :: '?' :: cs => scan (.instruction []) (addText content before) cs
  | .text content, before, '<' :: cs => scan (.tag []) (addText content before) cs
  | .text content, before, c :: cs => scan (.text (c :: content)) before cs
  | .tag content, before, '>' :: cs => scan (.text []) (tag content.reverse :: before) cs
  | .tag content, before, c :: cs =>
    if c = '"' ∨ c = '\'' then scan (.quoted c (c :: content)) before cs
    else scan (.tag (c :: content)) before cs
  | .quoted quote content, before, c :: cs =>
    if c = quote then scan (.tag (c :: content)) before cs
    else scan (.quoted quote (c :: content)) before cs
  | .comment content, before, '-' :: '-' :: '>' :: cs =>
    scan (.text []) (comment content.reverse :: before) cs
  | .comment content, before, c :: cs => scan (.comment (c :: content)) before cs
  | .instruction content, before, '?' :: '>' :: cs =>
    scan (.text []) (instruction content.reverse :: before) cs
  | .instruction content, before, c :: cs => scan (.instruction (c :: content)) before cs
  | .literal content, before, ']' :: ']' :: '>' :: cs =>
    scan (.text []) (literal content.reverse :: before) cs
  | .literal content, before, c :: cs => scan (.literal (c :: content)) before cs
  | .tag _, _, [] => none
  | .quoted _ _, _, [] => none
  | .comment _, _, [] => none
  | .instruction _, _, [] => none
  | .literal _, _, [] => none

def ofChars? (cs : List Char) : Option (List Chunk) := scan (.text []) [] cs

end Chunk

example : Chunk.ofChars? "a<b c='>'><!--d-->".toList =
    some [.text ['a'], .tag "b c='>'".toList, .comment ['d']] := by decide +kernel

end ModelScoring.Xml
