import ModelScoring.Model.Document
import ModelScoring.Proofs.Matrix.ShapeText
import ModelScoring.Proofs.Xml.DocumentOrder

/-!
# The width and the information of a document

Two elements are in a document once: one for the input data, whose first size has the width of the
input, and one for the information, whose elements are the entries.  They may stand anywhere.

`WidthOutcome` and `InformationOutcome` say what comes of reading them, with one rule for each thing
that can be wrong and one for the case that nothing is.  The rules do not mention the readers.
`readWidth_eq_iff` and `readInformation_eq_iff` say that the readers follow them.
-/

namespace ModelScoring

open Xml (Node)
open Xml.Node

namespace Model

/-! ## The width of the input -/

/-- The first size of the only element for input data. -/
def InputSize (document size : Node) : Prop :=
  ∃ input, Listed document (HasName "inputdata") [input] ∧ FirstChild input "size" size

/-- What comes of reading the width of the input. -/
inductive WidthOutcome (document : Node) : Except ModelError Nat → Prop
  /-- There are no elements for input data, or several. -/
  | uncounted {nodes : List Node} (listed : Listed document (HasName "inputdata") nodes)
      (count : nodes.length ≠ 1) : WidthOutcome document (.error .inputdataNotFound)
  /-- There is no size. -/
  | unsized {input : Node} (only : Listed document (HasName "inputdata") [input])
      (missing : ∀ child ∈ input.children, ¬HasName "size" child) :
      WidthOutcome document (.error .inputSizeNotFound)
  /-- The size is no shape. -/
  | misshapen {size : Node} {cs : List Char} {text : String} (first : InputSize document size)
      (below : TextBelow size cs) (shape : ∀ s : Shape, ¬s.WrittenAs cs)
      (written : HasText size text) : WidthOutcome document (.error (.inputSizeInvalid text))
  /-- There are no columns. -/
  | empty {size : Node} {cs : List Char} {s : Shape} (first : InputSize document size)
      (below : TextBelow size cs) (shape : s.WrittenAs cs) (cols : s.cols = 0) :
      WidthOutcome document (.error .inputSizeNotFound)
  | width {size : Node} {cs : List Char} {s : Shape} (first : InputSize document size)
      (below : TextBelow size cs) (shape : s.WrittenAs cs) (cols : s.cols ≠ 0) :
      WidthOutcome document (.ok s.cols)

theorem outcome_readWidth (document : Node) : WidthOutcome document (readWidth document) := by
  unfold readWidth
  cases honly : document.only? "inputdata" with
  | none =>
    obtain ⟨nodes, hlisted, hcount⟩ := only?_eq_none_iff.1 honly
    exact .uncounted hlisted hcount
  | some input =>
    have hlisted := only?_eq_some_iff.1 honly
    dsimp only
    cases hchild : input.child? "size" with
    | none => exact .unsized hlisted (child?_eq_none_iff.1 hchild)
    | some size =>
      have hfirst : InputSize document size := ⟨input, hlisted, child?_eq_some_iff.1 hchild⟩
      have hbelow : TextBelow size size.innerText := innerText_eq_iff.1 rfl
      dsimp only
      cases hshape : Shape.readChars? size.innerText with
      | none =>
        exact .misshapen hfirst hbelow (Shape.readChars?_eq_none_iff.1 hshape)
          (hasText_trimmedText size)
      | some s =>
        have hwritten := Shape.readChars?_eq_some_iff.1 hshape
        dsimp only
        split
        · next hcols => exact .empty hfirst hbelow hwritten hcols
        · next hcols => exact .width hfirst hbelow hwritten hcols

theorem WidthOutcome.readWidth_eq {document : Node} {r : Except ModelError Nat}
    (h : WidthOutcome document r) : readWidth document = r := by
  cases h with
  | uncounted listed count => rw [readWidth, only?_eq_none_iff.2 ⟨_, listed, count⟩]
  | unsized only missing =>
    simp only [readWidth, only?_eq_some_iff.2 only, child?_eq_none_iff.2 missing]
  | misshapen size below shape written =>
    obtain ⟨input, only, first⟩ := size
    obtain rfl := innerText_eq_iff.2 below
    simp only [readWidth, only?_eq_some_iff.2 only, child?_eq_some_iff.2 first,
      Shape.readChars?_eq_none_iff.2 shape, trimmedText_eq_iff.2 written]
  | empty size below shape cols =>
    obtain ⟨input, only, first⟩ := size
    obtain rfl := innerText_eq_iff.2 below
    simp only [readWidth, only?_eq_some_iff.2 only, child?_eq_some_iff.2 first,
      Shape.readChars?_eq_some_iff.2 shape, if_pos cols]
  | width size below shape cols =>
    obtain ⟨input, only, first⟩ := size
    obtain rfl := innerText_eq_iff.2 below
    simp only [readWidth, only?_eq_some_iff.2 only, child?_eq_some_iff.2 first,
      Shape.readChars?_eq_some_iff.2 shape, if_neg cols]

theorem readWidth_eq_iff {document : Node} {r : Except ModelError Nat} :
    readWidth document = r ↔ WidthOutcome document r := by
  constructor
  · rintro rfl
    exact outcome_readWidth document
  · exact WidthOutcome.readWidth_eq

/-! ## The information -/

/-- An entry is the name and the text of an element. -/
structure EntryOf (node : Node) (entry : String × String) : Prop where
  name : HasName entry.1 node
  text : HasText node entry.2

/-- The information is what the elements of a node hold, and the model type is what one of them
holds. -/
structure InformationFrom (node type : Node) (info : Information) : Prop where
  modelType : HasText type info.modelType
  entries : List.Forall₂ EntryOf node.elementChildren info.entries
  source : info.source = String.ofList node.source

/-- What comes of reading the information. -/
inductive InformationOutcome (document : Node) : Except ModelError Information → Prop
  /-- There are no elements for information, or several. -/
  | uncounted {nodes : List Node} (listed : Listed document (HasName "information") nodes)
      (count : nodes.length ≠ 1) : InformationOutcome document (.error .informationNotFound)
  /-- There is no model type. -/
  | untyped {node : Node} (only : Listed document (HasName "information") [node])
      (missing : ∀ child ∈ node.children, ¬HasName "modeltype" child) :
      InformationOutcome document (.error .modelTypeNotFound)
  /-- The first model type is blank. -/
  | blank {node type : Node} (only : Listed document (HasName "information") [node])
      (first : FirstChild node "modeltype" type) (written : HasText type "") :
      InformationOutcome document (.error .modelTypeNotFound)
  | information {node type : Node} {info : Information}
      (only : Listed document (HasName "information") [node])
      (first : FirstChild node "modeltype" type) (holds : InformationFrom node type info)
      (filled : info.modelType ≠ "") : InformationOutcome document (.ok info)

/-- What is read of an element is an entry. -/
def entryOf (child : Node) : String × String := ((child.name?).getD "", child.trimmedText)

theorem entryOf_eq_iff {node : Node} {entry : String × String} (h : node.name?.isSome) :
    entryOf node = entry ↔ EntryOf node entry := by
  obtain ⟨name, hname⟩ := Option.isSome_iff_exists.1 h
  obtain ⟨first, second⟩ := entry
  rw [entryOf, Prod.mk.injEq, trimmedText_eq_iff, hname, Option.getD_some]
  constructor
  · rintro ⟨rfl, htext⟩
    exact ⟨hname, htext⟩
  · rintro ⟨hname', htext⟩
    exact ⟨Option.some.inj (hname.symm.trans hname'), htext⟩

theorem map_entryOf_eq_iff {nodes : List Node} {entries : List (String × String)}
    (h : ∀ node ∈ nodes, node.name?.isSome) :
    nodes.map entryOf = entries ↔ List.Forall₂ EntryOf nodes entries := by
  induction nodes generalizing entries with
  | nil => cases entries <;> simp
  | cons node nodes ih =>
    obtain ⟨hnode, hnodes⟩ := List.forall_mem_cons.1 h
    cases entries with
    | nil => simp
    | cons entry entries =>
      have hrest := @ih entries hnodes
      rw [List.map_cons, List.cons.injEq, List.forall₂_cons, entryOf_eq_iff hnode, hrest]

/-- The first entry of a name is that of the first child of the name. -/
theorem find?_map_entryOf (node : Node) (name : String) :
    (node.elements.map entryOf).find? (fun entry => entry.1 = name) =
      (node.child? name).map fun child => (name, child.trimmedText) := by
  unfold Node.elements Node.child?
  induction node.children with
  | nil => rfl
  | cons child children ih =>
    cases child with
    | element tag attributes inner source =>
      by_cases htag : tag = name
      · simp [Node.isElement, Node.isNamed, Node.name?, entryOf, htag]
      · simpa [Node.isElement, Node.isNamed, Node.name?, entryOf, htag] using ih
    | text content source => simpa [Node.isElement, Node.isNamed, Node.name?] using ih
    | aside source => simpa [Node.isElement, Node.isNamed, Node.name?] using ih

theorem informationFrom_iff {node type : Node} {info : Information} :
    InformationFrom node type info ↔
      (⟨type.trimmedText, String.ofList node.source, node.elements.map entryOf⟩ : Information) =
        info := by
  have hentries : node.elements.map entryOf = info.entries ↔
      List.Forall₂ EntryOf node.elementChildren info.entries :=
    map_entryOf_eq_iff fun child hchild => (List.mem_filter.1 hchild).2
  obtain ⟨modelType, source, entries⟩ := info
  rw [Information.mk.injEq, trimmedText_eq_iff, hentries]
  exact ⟨fun h => ⟨h.modelType, h.source.symm, h.entries⟩, fun h => ⟨h.1, h.2.2, h.2.1.symm⟩⟩

section

variable {document node : Node} {r : Except ModelError Information}

theorem find?_entries (node : Node) :
    (node.elements.map fun child => ((child.name?).getD "", child.trimmedText)).find?
        (fun entry => entry.1 = "modeltype") =
      (node.child? "modeltype").map fun child => ("modeltype", child.trimmedText) :=
  find?_map_entryOf node "modeltype"

theorem readInformation_of_untyped (only : Listed document (HasName "information") [node])
    (missing : node.child? "modeltype" = none) :
    readInformation document = .error .modelTypeNotFound := by
  simp only [readInformation, only?_eq_some_iff.2 only, find?_entries, missing, Option.map_none]

theorem readInformation_of_blank {type : Node}
    (only : Listed document (HasName "information") [node])
    (first : node.child? "modeltype" = some type) (blank : type.trimmedText = "") :
    readInformation document = .error .modelTypeNotFound := by
  simp only [readInformation, only?_eq_some_iff.2 only, find?_entries, first, Option.map_some,
    if_pos blank]

theorem readInformation_of_filled {type : Node}
    (only : Listed document (HasName "information") [node])
    (first : node.child? "modeltype" = some type) (filled : type.trimmedText ≠ "") :
    readInformation document =
      .ok ⟨type.trimmedText, String.ofList node.source, node.elements.map entryOf⟩ := by
  simp only [readInformation, only?_eq_some_iff.2 only, find?_entries, first, Option.map_some,
    if_neg filled]
  rfl

theorem outcome_readInformation (document : Node) :
    InformationOutcome document (readInformation document) := by
  cases honly : document.only? "information" with
  | none =>
    obtain ⟨nodes, hlisted, hcount⟩ := only?_eq_none_iff.1 honly
    rw [readInformation, honly]
    exact .uncounted hlisted hcount
  | some node =>
    have hlisted := only?_eq_some_iff.1 honly
    cases htype : node.child? "modeltype" with
    | none =>
      rw [readInformation_of_untyped hlisted htype]
      exact .untyped hlisted (child?_eq_none_iff.1 htype)
    | some type =>
      have hfirst := child?_eq_some_iff.1 htype
      by_cases hblank : type.trimmedText = ""
      · rw [readInformation_of_blank hlisted htype hblank]
        exact .blank hlisted hfirst (trimmedText_eq_iff.1 hblank)
      · rw [readInformation_of_filled hlisted htype hblank]
        exact .information hlisted hfirst (informationFrom_iff.2 rfl) hblank

theorem readInformation_eq_iff :
    readInformation document = r ↔ InformationOutcome document r := by
  constructor
  · rintro rfl
    exact outcome_readInformation document
  · intro h
    cases h with
    | uncounted listed count => rw [readInformation, only?_eq_none_iff.2 ⟨_, listed, count⟩]
    | untyped only missing => exact readInformation_of_untyped only (child?_eq_none_iff.2 missing)
    | blank only first written =>
      exact readInformation_of_blank only (child?_eq_some_iff.2 first)
        (trimmedText_eq_iff.2 written)
    | information only first holds filled =>
      obtain rfl := informationFrom_iff.1 holds
      exact readInformation_of_filled only (child?_eq_some_iff.2 first) filled

end

end Model

end ModelScoring
