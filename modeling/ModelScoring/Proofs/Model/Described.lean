import ModelScoring.Proofs.Model.Header
import ModelScoring.Proofs.Model.StepElement

/-!
# What a model document has to hold

A model document is taken apart by functions that call one another, and each stops where something
is not as it should be.  `DocumentOutcome` says what comes of it without them: the width of the
input is looked at first, then the information, then the number of steps, then each step before the
next, wherever in the document it is.

`Model.ofElement_eq_iff_outcome` says that these are the outcomes of reading any element tree, and
so of reading any text that is a document.  The first thing that is wrong is what is reported, and a
document is read if there is none.  The model is then what the document says.

It follows that each instruction of a model that was loaded has the operands that its operation
takes (`OrderedModel.LoadedFrom.complete`).
-/

namespace ModelScoring

open Xml (Node)
open Xml.Node (HasName Listed named_eq_iff)

namespace Model

/-! ## Documents -/

/-- The steps of a document, wherever they are. -/
def StepsIn (document : Node) (nodes : List Node) : Prop := Listed document (HasName "step") nodes

/-- What comes of reading a document. -/
inductive DocumentOutcome (document : Node) : Except ModelError Model → Prop
  /-- The width of the input is looked at first. -/
  | width {e : ModelError} (refusal : WidthOutcome document (.error e)) :
      DocumentOutcome document (.error e)
  /-- The information is looked at next. -/
  | information {n : Nat} {e : ModelError} (width : WidthOutcome document (.ok n))
      (refusal : InformationOutcome document (.error e)) : DocumentOutcome document (.error e)
  /-- There are no steps. -/
  | stepless {n : Nat} {info : Information} (width : WidthOutcome document (.ok n))
      (information : InformationOutcome document (.ok info)) (steps : StepsIn document []) :
      DocumentOutcome document (.error .noSteps)
  /-- The first step that is refused decides. -/
  | steps {n : Nat} {info : Information} {nodes : List Node} {e : ModelError}
      (width : WidthOutcome document (.ok n)) (information : InformationOutcome document (.ok info))
      (steps : StepsIn document nodes) (refusal : InTurn StepOutcome nodes (.error e)) :
      DocumentOutcome document (.error e)
  | model {m : Model} {nodes : List Node} (width : WidthOutcome document (.ok m.width))
      (information : InformationOutcome document (.ok m.information))
      (steps : StepsIn document nodes) (steps_ne_nil : nodes ≠ [])
      (read : InTurn StepOutcome nodes (.ok m.steps)) : DocumentOutcome document (.ok m)

theorem readSteps_eq_iff {nodes : List Node} {r : Except ModelError (List Step)} :
    readSteps nodes = r ↔ InTurn StepOutcome nodes r := by
  have hmapM : readSteps nodes = nodes.mapM readStep := by
    induction nodes with
    | nil => rfl
    | cons node nodes ih =>
      rw [readSteps, ih]
      cases hnode : readStep node with
      | error e => rw [mapM_cons_of_error hnode]
      | ok s =>
        rw [mapM_cons_of_ok hnode]
        cases nodes.mapM readStep <;> rfl
  rw [hmapM]
  exact mapM_eq_iff_inTurn fun _ _ => readStep_eq_iff

/-- No steps are none that is refused. -/
theorem ne_nil_of_inTurn_error {nodes : List Node} {e : ModelError}
    (h : InTurn StepOutcome nodes (.error e)) : nodes ≠ [] := by
  rintro rfl
  cases h with
  | refused split => cases List.append_eq_nil_iff.1 split.symm |>.2

section

variable {document : Node} {n : Nat} {info : Information} {nodes : List Node}

theorem ofElement_of_stepless (width : readWidth document = .ok n)
    (information : readInformation document = .ok info) (steps : document.named "step" = []) :
    ofElement document = .error .noSteps := by
  unfold ofElement
  rw [width, information, steps]
  rfl

theorem ofElement_of_steps (width : readWidth document = .ok n)
    (information : readInformation document = .ok info) (steps : document.named "step" = nodes)
    (steps_ne_nil : nodes ≠ []) :
    ofElement document = (readSteps nodes).map fun steps => ⟨n, info, steps⟩ := by
  obtain ⟨node, rest, rfl⟩ := List.exists_cons_of_ne_nil steps_ne_nil
  unfold ofElement
  rw [width, information, steps]
  change (readSteps (node :: rest) >>= fun steps => Except.ok (Model.mk n info steps)) = _
  cases readSteps (node :: rest) <;> rfl

end

theorem outcome_ofElement (document : Node) : DocumentOutcome document (ofElement document) := by
  cases hwidth : readWidth document with
  | error e =>
    rw [ofElement, hwidth]
    exact .width (readWidth_eq_iff.1 hwidth)
  | ok n =>
    have hwidth' := readWidth_eq_iff.1 hwidth
    cases hinfo : readInformation document with
    | error e =>
      rw [ofElement, hwidth, hinfo]
      exact .information hwidth' (readInformation_eq_iff.1 hinfo)
    | ok info =>
      have hinfo' := readInformation_eq_iff.1 hinfo
      have hlisted : StepsIn document (document.named "step") := named_eq_iff.1 rfl
      by_cases hnil : document.named "step" = []
      · rw [ofElement_of_stepless hwidth hinfo hnil]
        exact .stepless hwidth' hinfo' (hnil ▸ hlisted)
      · rw [ofElement_of_steps hwidth hinfo rfl hnil]
        cases hsteps : readSteps (document.named "step") with
        | error e => exact .steps hwidth' hinfo' hlisted (readSteps_eq_iff.1 hsteps)
        | ok steps => exact .model hwidth' hinfo' hlisted hnil (readSteps_eq_iff.1 hsteps)

theorem DocumentOutcome.ofElement_eq {document : Node} {out : Except ModelError Model}
    (h : DocumentOutcome document out) : ofElement document = out := by
  cases h with
  | width refusal =>
    rw [ofElement, readWidth_eq_iff.2 refusal]
    rfl
  | information width refusal =>
    rw [ofElement, readWidth_eq_iff.2 width, readInformation_eq_iff.2 refusal]
    rfl
  | stepless width information steps =>
    exact ofElement_of_stepless (readWidth_eq_iff.2 width) (readInformation_eq_iff.2 information)
      (named_eq_iff.2 steps)
  | steps width information steps refusal =>
    rw [ofElement_of_steps (readWidth_eq_iff.2 width) (readInformation_eq_iff.2 information)
      (named_eq_iff.2 steps) (ne_nil_of_inTurn_error refusal), readSteps_eq_iff.2 refusal]
    rfl
  | model width information steps steps_ne_nil read =>
    rw [ofElement_of_steps (readWidth_eq_iff.2 width) (readInformation_eq_iff.2 information)
      (named_eq_iff.2 steps) steps_ne_nil, readSteps_eq_iff.2 read]
    rfl

/-- Reading an element tree comes to what the rules say, and to nothing else.  A text that is a
document is read as its element tree is. -/
theorem ofElement_eq_iff_outcome (document : Node) :
    (∀ out, ofElement document = out ↔ DocumentOutcome document out) ∧
      ∀ text, Xml.read? text = some document →
        ∀ out, read text = out ↔ DocumentOutcome document out := by
  have houtcome : ∀ out, ofElement document = out ↔ DocumentOutcome document out := by
    intro out
    constructor
    · rintro rfl
      exact outcome_ofElement document
    · exact DocumentOutcome.ofElement_eq
  refine ⟨houtcome, fun text htext => ?_⟩
  rw [read, htext]
  exact houtcome

/-- A document of some model type, with the steps given. -/
def documentText (modelType steps : String) : String :=
  "<m><inputdata><size>1,2</size></inputdata><information><modeltype>" ++ modelType ++
    "</modeltype></information>" ++ steps ++ "</m>"

def blankType : String := documentText " " "<step/>"

def garbledLine : String :=
  documentText "a" "<step><sequence>1</sequence><script>y = abs(x); garbage</script></step><step/>"

def oneConstant : String :=
  documentText "a"
    ("<step><sequence> +1 </sequence><constants><k size=\"1,2\">3;;4</k></constants>" ++
      "<script><l>y = plus(x, k);</l></script></step>")

/-- A blank model type is reported before a step without a number, and a line that is no instruction
before the next step.  A document in which all is well is read. -/
theorem ofElement_eq_iff_outcome_twoDefects :
    (∃ document, Xml.read? blankType = some document ∧
      DocumentOutcome document (.error .modelTypeNotFound)) ∧
    (∃ document, Xml.read? garbledLine = some document ∧
      DocumentOutcome document (.error (.script (.poorlyFormed "garbage") "unknown"))) ∧
    ∃ document m, Xml.read? oneConstant = some document ∧ DocumentOutcome document (.ok m) ∧
      (m.width, m.steps.map Step.summary) = (2, ["[1] unknown: 1 constants, 1 instructions"]) := by
  have houtcome {text : String} {out : Except ModelError Model} (h : read text = out)
      (hout : out ≠ .error .malformed) :
      ∃ document, Xml.read? text = some document ∧ DocumentOutcome document out := by
    cases hdocument : Xml.read? text with
    | none =>
      rw [read, hdocument] at h
      exact absurd h.symm hout
    | some document =>
      exact ⟨document, rfl, ((ofElement_eq_iff_outcome document).2 text hdocument out).1 h⟩
  have hblank : read blankType = .error .modelTypeNotFound :=
    refusal?_eq_some_iff.1 (by decide +kernel)
  have hgarbled : read garbledLine = .error (.script (.poorlyFormed "garbage") "unknown") :=
    refusal?_eq_some_iff.1 (by decide +kernel)
  have hsummary : (read oneConstant).toOption.map (fun m => (m.width, m.steps.map Step.summary)) =
      some (2, ["[1] unknown: 1 constants, 1 instructions"]) := by decide +kernel
  refine ⟨houtcome hblank nofun, houtcome hgarbled nofun, ?_⟩
  cases hread : read oneConstant with
  | error e =>
    rw [hread] at hsummary
    cases hsummary
  | ok m =>
    rw [hread] at hsummary
    obtain ⟨document, hdocument, hmodel⟩ := houtcome hread nofun
    exact ⟨document, m, hdocument, hmodel, Option.some.inj hsummary⟩

/-! ## Operands -/

/-- Every instruction has as many operands as its operation takes. -/
def Complete (m : Model) : Prop :=
  ∀ s ∈ m.steps, ∀ i ∈ s.script, i.operands.length = i.op.arity

/-- A step of a model stands in its document. -/
theorem exists_outcome_of_mem_steps {document : Node} {m : Model} (h : ofElement document = .ok m)
    {s : Step} (hs : s ∈ m.steps) :
    ∃ nodes, StepsIn document nodes ∧ ∃ node ∈ nodes, StepOutcome node (.ok s) := by
  have houtcome := outcome_ofElement document
  rw [h] at houtcome
  cases houtcome with
  | model width information steps steps_ne_nil read =>
    cases read with
    | all read =>
      obtain ⟨node, hnode, hstep⟩ := exists_of_mem_forall₂ read hs
      exact ⟨_, steps, node, hnode, hstep⟩

end Model

namespace OrderedModel

/-- The model is loaded from the outermost element of a document. -/
def LoadedFrom (m : OrderedModel) (document : Node) : Prop :=
  ∃ loaded, Model.ofElement document = .ok loaded ∧ ofModel loaded = .ok m

theorem exists_loadedFrom_of_read {text : String} {m : OrderedModel} (h : read text = .ok m) :
    ∃ document, Xml.read? text = some document ∧ m.LoadedFrom document := by
  unfold read at h
  split at h
  · cases h
  · next loaded hloaded =>
    unfold Model.read at hloaded
    split at hloaded
    · cases hloaded
    · next document hdocument => exact ⟨document, hdocument, loaded, hloaded, h⟩

variable {document : Node} {m : OrderedModel}

/-- A loaded model is the one that was read, with its steps in order. -/
theorem LoadedFrom.exists_ofElement (h : m.LoadedFrom document) :
    ∃ loaded, Model.ofElement document = .ok loaded ∧
      m.model = { loaded with steps := Model.sortSteps loaded.steps } := by
  obtain ⟨loaded, hloaded, hm⟩ := h
  exact ⟨loaded, hloaded, Model.eq_of_inOrder (inOrder_of_ofModel hm)⟩

theorem LoadedFrom.exists_outcome_of_mem_steps (h : m.LoadedFrom document) {s : Step}
    (hs : s ∈ m.model.steps) :
    ∃ nodes, Model.StepsIn document nodes ∧ ∃ node ∈ nodes, Model.StepOutcome node (.ok s) := by
  obtain ⟨loaded, hloaded, hm⟩ := h.exists_ofElement
  rw [hm, Model.mem_sortSteps_iff] at hs
  exact Model.exists_outcome_of_mem_steps hloaded hs

theorem LoadedFrom.complete (h : m.LoadedFrom document) : m.model.Complete := by
  intro s hs i hi
  obtain ⟨nodes, -, node, -, hstep⟩ := h.exists_outcome_of_mem_steps hs
  obtain ⟨line, hline, -⟩ := hstep.exists_line hi
  exact Instruction.length_operands_of_read hline

end OrderedModel

end ModelScoring
