import ModelScoring.Proofs.Model.Described
import ModelScoring.Proofs.Model.Sequence
import ModelScoring.Proofs.Script.RoundTrip
import ModelScoring.Proofs.Workspace.History

/-!
# Models that were loaded

Reading a document and bringing its steps in order both look at the width of the input, at the model
type and at the number of steps.  They do not look at them in the same way, but the second never
finds what the first has not.  So a model that was read is brought in order, or a step does not fit
in the sequence (`Model.inOrder_of_complete`).

A model that was loaded is *well formed*: its steps carry their numbers, its model type is the entry
of that name, its constants fill their shapes and its instructions have names where they need them.
`Model.read_wellFormed` says both.
-/

namespace ModelScoring

open Xml (Node)
open Xml.Node (FirstChild HasText)
open Text (Filled)

namespace Model

/-! ## Bringing steps in order -/

/-- Only the numbers of the steps keep a model that misses nothing from being brought in order. -/
theorem inOrder_of_complete {m : Model} (hwidth : m.width ≠ 0)
    (htype : Text.allBlank m.information.modelType.toList = false) (hsteps : m.steps ≠ []) :
    (∃ n, m.inOrder = .ok n) ∨ ∃ detail, m.inOrder = .error (.invalidSequence detail) := by
  rw [inOrder_eq hwidth htype hsteps]
  split
  · exact .inr ⟨_, rfl⟩
  · exact .inl ⟨_, rfl⟩

/-! ## Models that were read -/

theorem width_pos_of_outcome {document : Node} {n : Nat} (h : WidthOutcome document (.ok n)) :
    1 ≤ n := by
  cases h with
  | width size below shape cols => exact Nat.one_le_iff_ne_zero.2 cols

theorem filled_of_hasText {node : Node} {text : String} (h : HasText node text)
    (hne : text ≠ "") : Filled text := by
  obtain ⟨cs, -, htrims⟩ := h
  have htrim := Text.trim_eq_iff.2 htrims
  have htext : String.ofList (Text.trim cs) = text := by rw [htrim, String.ofList_toList]
  rw [← htext]
  refine Text.filled_ofList_trim fun hnil => hne ?_
  rw [← htext, hnil]

theorem filled_of_outcome {document : Node} {info : Information}
    (h : InformationOutcome document (.ok info)) : Filled info.modelType := by
  cases h with
  | information only first holds filled => exact filled_of_hasText holds.modelType filled

/-- The model type is the first entry of that name. -/
theorem get?_modelType_of_outcome {document : Node} {info : Information}
    (h : InformationOutcome document (.ok info)) :
    info.get? "modeltype" = some info.modelType := by
  cases h with
  | information only first holds filled =>
    obtain rfl := informationFrom_iff.1 holds
    rw [Information.get?, find?_map_entryOf, Node.child?_eq_some_iff.2 first]
    rfl

/-- The parts of a model that was read are each an outcome. -/
theorem outcomes_of_ofElement {document : Node} {m : Model} (h : ofElement document = .ok m) :
    WidthOutcome document (.ok m.width) ∧ InformationOutcome document (.ok m.information) ∧
      m.steps ≠ [] := by
  have houtcome := outcome_ofElement document
  rw [h] at houtcome
  cases houtcome with
  | model width information steps steps_ne_nil read =>
    refine ⟨width, information, ?_⟩
    cases read with
    | all read =>
      intro hnil
      rw [hnil] at read
      exact steps_ne_nil (List.forall₂_nil_right_iff.1 read)

/-- A matrix is that of an element in the constants of a step of the document. -/
def ConstantWritten (document : Node) (A : Matrix) : Prop :=
  ∃ nodes, StepsIn document nodes ∧ ∃ step ∈ nodes, ∃ block, FirstChild step "constants" block ∧
    ∃ node ∈ block.elementChildren, ∃ description, ConstantOutcome description node (.ok A)

theorem constantWritten_of_outcome {document node : Node} {nodes : List Node} {s : Step}
    (hsteps : StepsIn document nodes) (hnode : node ∈ nodes) (h : StepOutcome node (.ok s)) :
    ∀ v ∈ s.constants.toList, ConstantWritten document v.value := by
  intro v hv
  have hconstants : ConstantsOutcome node s.description (.ok s.constants) := by
    cases h with
    | step described number constants script => exact constants
  generalize hW : s.constants = W at hconstants hv
  cases hconstants with
  | unblocked missing => cases hv
  | block first outcome =>
    cases outcome with
    | loaded constants holds =>
      rw [holds.mem_iff] at hv
      obtain ⟨first', last, -, ⟨-, before, after, hsplit, -⟩, rfl⟩ := hv
      obtain ⟨constant, hconstant, hgives⟩ := exists_of_mem_forall₂ constants
        (show last ∈ _ by simp [hsplit])
      exact ⟨nodes, hsteps, node, hnode, _, first, constant, hconstant, _, hgives.outcome⟩

/-- A model that can be scored with: nothing is missing, and all its parts fit. -/
structure WellFormed (m : Model) : Prop where
  width : 1 ≤ m.width
  steps_ne_nil : m.steps ≠ []
  /-- The steps carry the numbers one, two, three and so on. -/
  numbered : ∀ (i : Nat) (h : i < m.steps.length), m.steps[i].sequence = i + 1
  modelType : Filled m.information.modelType
  /-- The model type is what the entries say. -/
  entry : m.information.get? "modeltype" = some m.information.modelType
  /-- Constants have as many values as their shapes count. -/
  constants : ∀ s ∈ m.steps, ∀ v ∈ s.constants.toList,
    v.value.data.size = v.value.rows * v.value.cols
  script : ∀ s ∈ m.steps, ∀ i ∈ s.script, i.WellFormed

theorem wellFormed_of_loadedFrom {document : Node} {m : OrderedModel}
    (h : m.LoadedFrom document) : m.model.WellFormed := by
  obtain ⟨loaded, hloaded, hmodel⟩ := h.exists_ofElement
  obtain ⟨hwidth, hinformation, -⟩ := outcomes_of_ofElement hloaded
  have hwidth_eq : m.model.width = loaded.width := by rw [hmodel]
  have hinformation_eq : m.model.information = loaded.information := by rw [hmodel]
  refine ⟨?_, m.ordered.steps_ne_nil, ?_, ?_, ?_, ?_, ?_⟩
  · rw [hwidth_eq]
    exact width_pos_of_outcome hwidth
  · intro i hi
    rw [numbered_iff.1 (misplaced?_eq_none_iff.1 m.ordered.numbered) i hi, Nat.add_comm]
  · rw [hinformation_eq]
    exact filled_of_outcome hinformation
  · rw [hinformation_eq]
    exact get?_modelType_of_outcome hinformation
  · exact fun s _ v _ => v.value.size_data
  · intro s hs i hi
    obtain ⟨nodes, -, node, -, hstep⟩ := h.exists_outcome_of_mem_steps hs
    obtain ⟨line, hline, -⟩ := hstep.exists_line hi
    exact (Instruction.legible_of_read hline).toWellFormed

theorem constantWritten_of_loadedFrom {document : Node} {m : OrderedModel}
    (h : m.LoadedFrom document) :
    ∀ s ∈ m.model.steps, ∀ v ∈ s.constants.toList, ConstantWritten document v.value := by
  intro s hs
  obtain ⟨nodes, hsteps, node, hnode, hstep⟩ := h.exists_outcome_of_mem_steps hs
  exact constantWritten_of_outcome hsteps hnode hstep

theorem inOrder_of_ofElement {document : Node} {m : Model} (h : ofElement document = .ok m) :
    (∃ n, m.inOrder = .ok n) ∨ ∃ detail, m.inOrder = .error (.invalidSequence detail) := by
  obtain ⟨hwidth, hinformation, hsteps⟩ := outcomes_of_ofElement h
  exact inOrder_of_complete (Nat.one_le_iff_ne_zero.1 (width_pos_of_outcome hwidth))
    (filled_of_outcome hinformation).allBlank_eq_false hsteps

/-- A model that is read from an element tree is brought in order, unless a step does not fit in the
sequence: nothing else is found missing then.  A model that is loaded is well formed, and its
constants are those that stand in the document.  So it is with models that are read from texts. -/
theorem read_wellFormed :
    (∀ document m, ofElement document = .ok m →
      (∃ n, m.inOrder = .ok n) ∨ ∃ detail, m.inOrder = .error (.invalidSequence detail)) ∧
    (∀ (document : Node) (m : OrderedModel), m.LoadedFrom document →
      m.model.WellFormed ∧
        ∀ s ∈ m.model.steps, ∀ v ∈ s.constants.toList, ConstantWritten document v.value) ∧
    ∀ text : String,
      (∀ m, read text = .ok m →
        (∃ n, m.inOrder = .ok n) ∨ ∃ detail, m.inOrder = .error (.invalidSequence detail)) ∧
      ∀ m : OrderedModel, OrderedModel.read text = .ok m →
        m.model.WellFormed ∧ ∃ document, Xml.read? text = some document ∧
          ∀ s ∈ m.model.steps, ∀ v ∈ s.constants.toList, ConstantWritten document v.value := by
  refine ⟨fun document m => inOrder_of_ofElement, fun document m h => ?_, fun text => ⟨?_, ?_⟩⟩
  · exact ⟨wellFormed_of_loadedFrom h, constantWritten_of_loadedFrom h⟩
  · intro m hm
    unfold read at hm
    split at hm
    · cases hm
    · exact inOrder_of_ofElement hm
  · intro m hm
    obtain ⟨document, hdocument, hloaded⟩ := OrderedModel.exists_loadedFrom_of_read hm
    exact ⟨wellFormed_of_loadedFrom hloaded, document, hdocument,
      constantWritten_of_loadedFrom hloaded⟩

/-- A document with blanks around its names, and a constant that is separated in two ways. -/
def spacedDocument : String :=
  "<m><inputdata><size>1,2</size></inputdata><information><modeltype> a </modeltype></information>" ++
    "<step><sequence> 1 </sequence><constants><k size=\"[1, 3]\"> 3, 4;5 </k></constants>" ++
    "<script> y = cols( k , x ) ; ; z=abs(y)</script></step></m>"

theorem read_wellFormed_spacedDocument :
    ∃ m : OrderedModel, OrderedModel.read spacedDocument = .ok m ∧ m.model.WellFormed := by
  have hread : (OrderedModel.read spacedDocument).toOption.isSome = true := by decide +kernel
  cases hm : OrderedModel.read spacedDocument with
  | error e =>
    rw [hm] at hread
    cases hread
  | ok m => exact ⟨m, rfl, ((read_wellFormed.2.2 spacedDocument).2 m hm).1⟩

end Model

end ModelScoring
