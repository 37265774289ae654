import Mathlib.Data.List.Sort
import ModelScoring.Proofs.Text.Trimmed
import ModelScoring.Xml.Node

/-!
# Document order

A *place* in a tree is the list of the numbers of the children on the way down to it.  `At` says
which node stands at a place.  In document order places ascend number by number: a node comes before
what is below it, and that before the later siblings of the node.

`Listed` says that a list has the nodes of a tree for which something holds, in document order.  It
has a node as often as the node is there, and there is one such list (`Listed.unique`).  The nodes
that are looked up by name, anywhere in a document, are such a list (`named_eq_iff`), and the text
below a node is that of another one (`innerText_eq_iff`).  Children are looked up by the first that
has a name.
-/

namespace ModelScoring.Xml.Node

/-! ## Places -/

/-- A node stands at a place in a tree. -/
inductive At : Node → List Nat → Node → Prop
  | here (node : Node) : At node [] node
  | under {node child found : Node} {k : Nat} {place : List Nat}
      (child_eq : node.children[k]? = some child) (rest : At child place found) :
      At node (k :: place) found

/-- The nodes of a tree for which something holds, with their places, in document order. -/
structure Placed (root : Node) (P : Node → Prop) (places : List (List Nat × Node)) : Prop where
  ascending : places.Pairwise fun p q => p.1 < q.1
  mem_iff : ∀ place node, (place, node) ∈ places ↔ At root place node ∧ P node

/-- The nodes of a tree for which something holds, in document order. -/
def Listed (root : Node) (P : Node → Prop) (nodes : List Node) : Prop :=
  ∃ places, Placed root P places ∧ places.map Prod.snd = nodes

variable {root node : Node} {P : Node → Prop}

theorem Placed.unique {places others : List (List Nat × Node)} (h : Placed root P places)
    (h' : Placed root P others) : places = others := by
  have hirrefl : Std.Irrefl fun p q : List Nat × Node => p.1 < q.1 := ⟨fun p => List.lt_irrefl p.1⟩
  have hantisymm : Std.Antisymm fun p q : List Nat × Node => p.1 < q.1 :=
    ⟨fun p q hpq hqp => absurd hqp (List.lt_asymm hpq)⟩
  refine h.ascending.eq_of_mem_iff h'.ascending fun ⟨place, node⟩ => ?_
  rw [h.mem_iff, h'.mem_iff]

theorem Listed.unique {nodes others : List Node} (h : Listed root P nodes)
    (h' : Listed root P others) : nodes = others := by
  obtain ⟨places, hplaces, rfl⟩ := h
  obtain ⟨places', hplaces', rfl⟩ := h'
  rw [hplaces.unique hplaces']

/-! ## Everything below a node -/

/-- Only a node itself stands where the way down ends at once. -/
theorem at_nil_iff {found : Node} : At node [] found ↔ found = node := by
  constructor
  · rintro ⟨⟩
    rfl
  · rintro rfl
    exact .here found

theorem at_cons_iff {found : Node} {k : Nat} {place : List Nat} :
    At node (k :: place) found ↔
      ∃ child, node.children[k]? = some child ∧ At child place found := by
  constructor
  · rintro (_ | ⟨hchild, hrest⟩)
    exact ⟨_, hchild, hrest⟩
  · rintro ⟨child, hchild, hrest⟩
    exact .under hchild hrest

/-- The nodes at and below some siblings, of which the first has the number given, with their places
below the parent. -/
structure PlacedFrom (first : Nat) (siblings : List Node) (places : List (List Nat × Node)) :
    Prop where
  ascending : places.Pairwise fun p q => p.1 < q.1
  mem_iff : ∀ place node, (place, node) ∈ places ↔
    ∃ k child rest, place = (first + k) :: rest ∧ siblings[k]? = some child ∧ At child rest node

/-- A sibling comes first with everything below it. -/
theorem PlacedFrom.cons {first : Nat} {siblings : List Node} {own places : List (List Nat × Node)}
    (hown : Placed node (fun _ => True) own) (h : PlacedFrom (first + 1) siblings places) :
    PlacedFrom first (node :: siblings)
      (own.map (fun p => (first :: p.1, p.2)) ++ places) where
  ascending := by
    refine List.pairwise_append.2 ⟨List.pairwise_map.2 ?_, h.ascending, ?_⟩
    · exact hown.ascending.imp fun hpq => List.cons_lt_cons_iff.2 (.inr ⟨rfl, hpq⟩)
    · rintro p hp ⟨place, found⟩ hq
      obtain ⟨q, -, rfl⟩ := List.mem_map.1 hp
      obtain ⟨k, child, rest, rfl, -, -⟩ := (h.mem_iff place found).1 hq
      exact List.cons_lt_cons_iff.2 (.inl (by omega))
  mem_iff := by
    intro place found
    rw [List.mem_append, List.mem_map, h.mem_iff]
    constructor
    · rintro (⟨⟨rest, _⟩, hmem, heq⟩ | ⟨k, child, rest, rfl, hchild, hat⟩)
      · cases heq
        exact ⟨0, node, rest, rfl, rfl, ((hown.mem_iff rest _).1 hmem).1⟩
      · exact ⟨k + 1, child, rest, by rw [Nat.add_assoc, Nat.add_comm 1], hchild, hat⟩
    · rintro ⟨k, child, rest, rfl, hchild, hat⟩
      cases k with
      | zero =>
        cases hchild
        exact .inl ⟨(rest, found), (hown.mem_iff rest found).2 ⟨hat, trivial⟩, rfl⟩
      | succ k =>
        exact .inr ⟨k, child, rest, by rw [Nat.add_assoc, Nat.add_comm 1], hchild, hat⟩

/-- A node comes before everything below it. -/
theorem Placed.of_children {places : List (List Nat × Node)}
    (h : PlacedFrom 0 node.children places) :
    Placed node (fun _ => True) (([], node) :: places) where
  ascending := by
    refine List.pairwise_cons.2 ⟨?_, h.ascending⟩
    rintro ⟨place, found⟩ hmem
    obtain ⟨k, child, rest, rfl, -, -⟩ := (h.mem_iff place found).1 hmem
    exact List.nil_lt_cons _ _
  mem_iff := by
    intro place found
    rw [List.mem_cons, h.mem_iff, and_true]
    cases place with
    | nil => simp [at_nil_iff]
    | cons k rest => simp [at_cons_iff]

mutual

theorem exists_placed_descendants : ∀ node : Node, ∃ places,
    Placed node (fun _ => True) places ∧ places.map Prod.snd = node.descendants
  | element name attributes children source => by
    obtain ⟨places, hplaces, hnodes⟩ := exists_placedFrom_descendantsOf 0 children
    refine ⟨([], element name attributes children source) :: places, .of_children hplaces, ?_⟩
    rw [List.map_cons, hnodes, descendants]
  | text content source =>
    ⟨[([], text content source)], .of_children ⟨.nil, by simp [children]⟩, rfl⟩
  | aside source => ⟨[([], aside source)], .of_children ⟨.nil, by simp [children]⟩, rfl⟩

theorem exists_placedFrom_descendantsOf : ∀ (first : Nat) (siblings : List Node), ∃ places,
    PlacedFrom first siblings places ∧ places.map Prod.snd = descendantsOf siblings
  | first, [] => ⟨[], ⟨.nil, by simp⟩, rfl⟩
  | first, node :: siblings => by
    obtain ⟨own, hown, hnode⟩ := exists_placed_descendants node
    obtain ⟨places, hplaces, hnodes⟩ := exists_placedFrom_descendantsOf (first + 1) siblings
    refine ⟨_, .cons hown hplaces, ?_⟩
    rw [List.map_append, List.map_map, hnodes, descendantsOf, ← hnode]
    rfl

end

/-! ## Looking elements up -/

theorem listed_filter_descendants (root : Node) (p : Node → Bool) :
    Listed root (fun node => p node = true) (root.descendants.filter p) := by
  obtain ⟨places, hplaces, hnodes⟩ := exists_placed_descendants root
  refine ⟨places.filter fun entry => p entry.2, ⟨hplaces.ascending.filter _, ?_⟩, ?_⟩
  · intro place node
    rw [List.mem_filter, hplaces.mem_iff, and_true]
  · rw [← hnodes, List.filter_map]
    rfl

/-- A node is an element of that name. -/
def HasName (name : String) (node : Node) : Prop := node.name? = some name

/-- Elements are looked up by name in the whole document, and in document order. -/
theorem named_eq_iff {document : Node} {name : String} {nodes : List Node} :
    document.named name = nodes ↔ Listed document (HasName name) nodes := by
  have hlisted : Listed document (HasName name) (document.named name) := by
    have hname : HasName name = fun node => isNamed name node = true := by
      funext node
      simp [HasName, isNamed]
    rw [hname]
    exact listed_filter_descendants document (isNamed name)
  constructor
  · rintro rfl
    exact hlisted
  · exact hlisted.unique

theorem only?_eq_some_iff {document : Node} {name : String} :
    document.only? name = some node ↔ Listed document (HasName name) [node] := by
  rw [← named_eq_iff]
  unfold only?
  split
  · next found hfound => simp [hfound]
  · next hnot => exact ⟨nofun, fun h => absurd h (hnot node)⟩

theorem only?_eq_none_iff {document : Node} {name : String} :
    document.only? name = none ↔
      ∃ nodes, Listed document (HasName name) nodes ∧ nodes.length ≠ 1 := by
  simp only [← named_eq_iff, exists_eq_left']
  unfold only?
  split
  · next found hfound => simp [hfound]
  · next hnot =>
    refine ⟨fun _ hlength => ?_, fun _ => rfl⟩
    obtain ⟨found, hfound⟩ := List.length_eq_one_iff.1 hlength
    exact hnot found hfound

/-! ## Looking texts up -/

/-- The texts below a node, in document order. -/
def TextsBelow (node : Node) (texts : List (List Char)) : Prop :=
  ∃ nodes, Listed node (fun found => found.content?.isSome) nodes ∧
    nodes.map content? = texts.map some

/-- The text below a node: the texts there, one after the other. -/
def TextBelow (node : Node) (cs : List Char) : Prop :=
  ∃ texts, TextsBelow node texts ∧ texts.flatten = cs

theorem texts_eq_iff {texts : List (List Char)} : node.texts = texts ↔ TextsBelow node texts := by
  have hlisted := listed_filter_descendants node fun found => found.content?.isSome
  have hcontents (nodes : List Node) :
      (nodes.filter fun found => found.content?.isSome).map content? =
        (nodes.filterMap content?).map some := by
    induction nodes with
    | nil => rfl
    | cons found nodes ih =>
      cases hcontent : found.content? <;> simp [hcontent, ih]
  constructor
  · rintro rfl
    exact ⟨_, hlisted, hcontents _⟩
  · rintro ⟨nodes, hnodes, hmap⟩
    rw [← hlisted.unique hnodes, hcontents] at hmap
    exact List.map_injective_iff.2 (Option.some_injective _) hmap

theorem innerText_eq_iff {cs : List Char} : node.innerText = cs ↔ TextBelow node cs := by
  simp only [TextBelow, ← texts_eq_iff, exists_eq_left']
  rfl

/-- The text below a node is this one, with blanks around it or without. -/
def HasText (node : Node) (text : String) : Prop :=
  ∃ cs, TextBelow node cs ∧ Text.TrimsTo cs text.toList

theorem trimmedText_eq_iff {text : String} : node.trimmedText = text ↔ HasText node text := by
  simp only [HasText, ← innerText_eq_iff, exists_eq_left', ← Text.trim_eq_iff, trimmedText]
  rw [← String.toList_inj, String.toList_ofList]

theorem hasText_trimmedText (node : Node) : HasText node node.trimmedText :=
  trimmedText_eq_iff.1 rfl

/-! ## Looking children up -/

/-- The children that are elements, in order. -/
abbrev elementChildren (node : Node) : List Node :=
  node.children.filter fun child => child.name?.isSome

/-- The children of a name, in order. -/
abbrev childrenOf (node : Node) (name : String) : List Node :=
  node.children.filter fun child => child.name? = some name

theorem childrenNamed_eq (node : Node) (name : String) :
    node.childrenNamed name = node.childrenOf name :=
  List.filter_congr fun child _ => by simp [isNamed, Bool.beq_eq_decide_eq]

/-- The first child of a name. -/
def FirstChild (node : Node) (name : String) (child : Node) : Prop :=
  ∃ before after, node.children = before ++ child :: after ∧ HasName name child ∧
    ∀ sibling ∈ before, ¬HasName name sibling

theorem child?_eq_some_iff {name : String} {child : Node} :
    node.child? name = some child ↔ FirstChild node name child := by
  rw [child?, List.find?_eq_some_iff_append]
  simp [FirstChild, isNamed, HasName, and_left_comm]

theorem child?_eq_none_iff {name : String} :
    node.child? name = none ↔ ∀ child ∈ node.children, ¬HasName name child := by
  simp [child?, isNamed, HasName]

end ModelScoring.Xml.Node
