import ModelScoring.Proofs.Model.Constants
import ModelScoring.Proofs.Script.Grammar

/-!
# What a step element has to hold

A step has a number, perhaps a description, perhaps constants, and one script.  For each of them
there is a relation between the element and what comes of reading it, with one rule for each thing
that can be wrong and one for the case that nothing is.  The lines of a script are what the texts
below it lay out, each a whole piece, and the first that is no instruction decides.

`StepOutcome` puts them together.  The number is looked at before the constants, and these before
the script.  `readStep_eq_iff` says that the reader follows the rules.
-/

namespace ModelScoring

open Xml (Node)
open Xml.Node
open Text (LaidOutIn Whole KeepsBlanks)

namespace Model

/-! ## The number and the description of a step -/

/-- A number that is not zero and a size, as it is written. -/
def IsPositive (cs : List Char) (n : Nat) : Prop :=
  IsNumeral cs n ∧ 1 ≤ n ∧ n ≤ 18446744073709551615

theorem isPositive_iff {cs : List Char} {n : Nat} :
    IsPositive cs n ↔ readSize? cs = some n ∧ n ≠ 0 := by
  rw [readSize?_eq_some_iff, IsPositive]
  constructor
  · rintro ⟨h, hpos, hle⟩
    exact ⟨⟨h, Nat.lt_succ_of_le hle⟩, Nat.ne_of_gt hpos⟩
  · rintro ⟨⟨h, hlt⟩, hne⟩
    exact ⟨h, Nat.pos_of_ne_zero hne, Nat.le_of_lt_succ hlt⟩

/-- What comes of reading the number of a step with some description. -/
inductive NumberOutcome (step : Node) (description : String) : Except ModelError Nat → Prop
  /-- There is no number. -/
  | unnumbered (missing : ∀ child ∈ step.children, ¬HasName "sequence" child) :
      NumberOutcome step description
        (.error (.invalidSequence s!"step \"{description}\" has no sequence"))
  /-- The number is no numeral, or it is zero, or it is too large. -/
  | misnumbered {node : Node} {text : String} (first : FirstChild step "sequence" node)
      (written : HasText node text) (number : ∀ n, ¬IsPositive text.toList n) :
      NumberOutcome step description
        (.error (.invalidSequence (s!"step \"{description}\" has sequence \"{text}\", " ++
          "expected a positive integer")))
  | number {node : Node} {text : String} {n : Nat} (first : FirstChild step "sequence" node)
      (written : HasText node text) (number : IsPositive text.toList n) :
      NumberOutcome step description (.ok n)

section

variable {step node : Node} {text description : String} {r : Except ModelError Nat}

theorem readSequence_of_isPositive {n : Nat} (first : FirstChild step "sequence" node)
    (written : HasText node text) (number : IsPositive text.toList n) :
    readSequence step description = .ok n := by
  obtain rfl := trimmedText_eq_iff.2 written
  rw [Node.trimmedText, String.toList_ofList] at number
  obtain ⟨hread, hne⟩ := isPositive_iff.1 number
  simp only [readSequence, child?_eq_some_iff.2 first, hread, if_neg hne]

theorem readSequence_of_not_isPositive (first : FirstChild step "sequence" node)
    (written : HasText node text) (number : ∀ n, ¬IsPositive text.toList n) :
    readSequence step description =
      .error (.invalidSequence (s!"step \"{description}\" has sequence \"{text}\", " ++
        "expected a positive integer")) := by
  obtain rfl := trimmedText_eq_iff.2 written
  rw [Node.trimmedText, String.toList_ofList] at number
  simp only [readSequence, child?_eq_some_iff.2 first]
  cases hread : readSize? (Text.trim node.innerText) with
  | none => rfl
  | some n =>
    exact if_pos (Decidable.not_not.1 fun hne => number n (isPositive_iff.2 ⟨hread, hne⟩))

theorem readSequence_eq_iff :
    readSequence step description = r ↔ NumberOutcome step description r := by
  constructor
  · rintro rfl
    cases hchild : step.child? "sequence" with
    | none =>
      rw [readSequence, hchild]
      exact .unnumbered (child?_eq_none_iff.1 hchild)
    | some node =>
      have hfirst := child?_eq_some_iff.1 hchild
      have htext := hasText_trimmedText node
      by_cases hnumber : ∃ n, IsPositive node.trimmedText.toList n
      · obtain ⟨n, hn⟩ := hnumber
        rw [readSequence_of_isPositive hfirst htext hn]
        exact .number hfirst htext hn
      · rw [not_exists] at hnumber
        rw [readSequence_of_not_isPositive hfirst htext hnumber]
        exact .misnumbered hfirst htext hnumber
  · intro h
    cases h with
    | unnumbered missing => rw [readSequence, child?_eq_none_iff.2 missing]
    | misnumbered first written number => exact readSequence_of_not_isPositive first written number
    | number first written number => exact readSequence_of_isPositive first written number

end

/-- The description of a step. -/
inductive DescribedAs (step : Node) : String → Prop
  | given {node : Node} {text : String} (first : FirstChild step "description" node)
      (written : HasText node text) : DescribedAs step text
  | unknown (missing : ∀ child ∈ step.children, ¬HasName "description" child) :
      DescribedAs step "unknown"

theorem readDescription_eq_iff {step : Node} {description : String} :
    readDescription step = description ↔ DescribedAs step description := by
  constructor
  · rintro rfl
    unfold readDescription
    split
    · next node hchild => exact .given (child?_eq_some_iff.1 hchild) (hasText_trimmedText node)
    · next hchild => exact .unknown (child?_eq_none_iff.1 hchild)
  · intro h
    cases h with
    | given first written =>
      rw [readDescription, child?_eq_some_iff.2 first]
      exact trimmedText_eq_iff.2 written
    | unknown missing =>
      rw [readDescription, child?_eq_none_iff.2 missing]
      rfl

/-! ## The constants of a step -/

/-- What comes of reading the constants of a step with some description. -/
inductive ConstantsOutcome (step : Node) (description : String) : Except ModelError Workspace → Prop
  /-- There are no constants. -/
  | unblocked (missing : ∀ child ∈ step.children, ¬HasName "constants" child) :
      ConstantsOutcome step description (.ok .empty)
  /-- The elements in the first block of constants are read in turn. -/
  | block {block : Node} {r : Except ModelError Workspace}
      (first : FirstChild step "constants" block)
      (outcome : BlockOutcome description block.elementChildren r) :
      ConstantsOutcome step description r

/-- What the constants of a step are read from. -/
def constantNodes (step : Node) : List Node :=
  ((step.child? "constants").map Node.elements).getD []

theorem readConstants_constantNodes_eq_iff {step : Node} {description : String}
    {r : Except ModelError Workspace} :
    readConstants description (constantNodes step) .empty = r ↔
      ConstantsOutcome step description r := by
  constructor
  · rintro rfl
    unfold constantNodes
    cases hchild : step.child? "constants" with
    | none => exact .unblocked (child?_eq_none_iff.1 hchild)
    | some block =>
      exact .block (child?_eq_some_iff.1 hchild) (readConstants_eq_iff_blockOutcome.1 rfl)
  · intro h
    cases h with
    | unblocked missing =>
      rw [constantNodes, child?_eq_none_iff.2 missing]
      rfl
    | block first outcome =>
      rw [constantNodes, child?_eq_some_iff.2 first]
      exact readConstants_eq_iff_blockOutcome.2 outcome

/-! ## The script of a step -/

/-- The texts below a script lay out these lines. -/
structure LinesWritten (script : Node) (lines : List (List Char)) : Prop where
  laidOut : ∃ texts, TextsBelow script texts ∧ LaidOutIn (· == ';') lines texts
  whole : ∀ line ∈ lines, Whole (· == ';') line

theorem keepsBlanks_semicolon : KeepsBlanks (· == ';') := by
  intro c hblank
  refine beq_false_of_ne ?_
  rintro rfl
  exact absurd hblank (by decide)

theorem linesWritten_iff {script : Node} {lines : List (List Char)} :
    LinesWritten script lines ↔ script.texts.flatMap (Text.fullPieces (· == ';')) = lines := by
  rw [Text.flatMap_fullPieces_eq_iff keepsBlanks_semicolon]
  constructor
  · rintro ⟨⟨texts, hbelow, hlaid⟩, hwhole⟩
    rw [Node.texts_eq_iff.2 hbelow]
    exact ⟨hlaid, hwhole⟩
  · rintro ⟨hlaid, hwhole⟩
    exact ⟨⟨_, Node.texts_eq_iff.1 rfl, hlaid⟩, hwhole⟩

/-- What comes of reading the script of a step with some description. -/
inductive ScriptOutcome (step : Node) (description : String) :
    Except ModelError (List Instruction) → Prop
  /-- There are no scripts, or several. -/
  | uncounted (count : (step.childrenOf "script").length ≠ 1) :
      ScriptOutcome step description (.error (.scriptMissing description))
  /-- The first line that is no instruction decides. -/
  | misread {script : Node} {lines : List (List Char)} {reason : ScriptError}
      (only : step.childrenOf "script" = [script]) (written : LinesWritten script lines)
      (outcome : InTurn Instruction.Outcome (lines.map String.ofList) (.error reason)) :
      ScriptOutcome step description (.error (.script reason description))
  | script {script : Node} {lines : List (List Char)} {is : List Instruction}
      (only : step.childrenOf "script" = [script]) (written : LinesWritten script lines)
      (outcome : InTurn Instruction.Outcome (lines.map String.ofList) (.ok is)) :
      ScriptOutcome step description (.ok is)

theorem readLines_eq_mapM (step : String) (lines : List String) :
    readLines step lines =
      (lines.mapM Instruction.read).mapError (ModelError.script · step) := by
  induction lines with
  | nil => rfl
  | cons line lines ih =>
    rw [readLines, ih]
    cases hread : Instruction.read line with
    | error reason =>
      rw [mapM_cons_of_error hread]
      rfl
    | ok i =>
      rw [mapM_cons_of_ok hread]
      cases lines.mapM Instruction.read <;> rfl

theorem readScript_of_uncounted {step : Node} {description : String}
    (count : (step.childrenOf "script").length ≠ 1) :
    readScript step description = .error (.scriptMissing description) := by
  unfold readScript
  rw [Node.childrenNamed_eq]
  split
  · next script honly => exact absurd (congrArg List.length honly) count
  · rfl

/-- Reading a script goes by its lines. -/
theorem readScript_of_linesWritten {step script : Node} {lines : List (List Char)}
    (description : String) (only : step.childrenOf "script" = [script])
    (written : LinesWritten script lines) :
    readScript step description =
      ((lines.map String.ofList).mapM Instruction.read).mapError
        (ModelError.script · description) := by
  rw [readScript, Node.childrenNamed_eq, only]
  dsimp only
  rw [readLines_eq_mapM, scriptLines, linesWritten_iff.1 written]

theorem mapM_read_eq_iff {lines : List String} {r : Except ScriptError (List Instruction)} :
    lines.mapM Instruction.read = r ↔ InTurn Instruction.Outcome lines r :=
  mapM_eq_iff_inTurn Instruction.read_eq_iff_outcome

theorem outcome_readScript (step : Node) (description : String) :
    ScriptOutcome step description (readScript step description) := by
  by_cases hcount : (step.childrenOf "script").length = 1
  · obtain ⟨script, honly⟩ := List.length_eq_one_iff.1 hcount
    have hwritten := linesWritten_iff.2 (Eq.refl (script.texts.flatMap _))
    rw [readScript_of_linesWritten description honly hwritten]
    generalize hread : List.mapM Instruction.read _ = r
    cases r with
    | error reason => exact .misread honly hwritten (mapM_read_eq_iff.1 hread)
    | ok is => exact .script honly hwritten (mapM_read_eq_iff.1 hread)
  · rw [readScript_of_uncounted hcount]
    exact .uncounted hcount

theorem readScript_eq_iff {step : Node} {description : String}
    {r : Except ModelError (List Instruction)} :
    readScript step description = r ↔ ScriptOutcome step description r := by
  constructor
  · rintro rfl
    exact outcome_readScript step description
  · intro h
    cases h with
    | uncounted count => exact readScript_of_uncounted count
    | misread only written outcome =>
      rw [readScript_of_linesWritten description only written, mapM_read_eq_iff.2 outcome]
      rfl
    | script only written outcome =>
      rw [readScript_of_linesWritten description only written, mapM_read_eq_iff.2 outcome]
      rfl

/-! ## Steps -/

/-- What comes of reading a step. -/
inductive StepOutcome (step : Node) : Except ModelError Step → Prop
  /-- The number is looked at first. -/
  | number {description : String} {e : ModelError} (described : DescribedAs step description)
      (refusal : NumberOutcome step description (.error e)) : StepOutcome step (.error e)
  /-- The constants are looked at next. -/
  | constants {description : String} {n : Nat} {e : ModelError}
      (described : DescribedAs step description)
      (number : NumberOutcome step description (.ok n))
      (refusal : ConstantsOutcome step description (.error e)) : StepOutcome step (.error e)
  /-- The script is looked at last. -/
  | script {description : String} {n : Nat} {W : Workspace} {e : ModelError}
      (described : DescribedAs step description)
      (number : NumberOutcome step description (.ok n))
      (constants : ConstantsOutcome step description (.ok W))
      (refusal : ScriptOutcome step description (.error e)) : StepOutcome step (.error e)
  | step {s : Step} (described : DescribedAs step s.description)
      (number : NumberOutcome step s.description (.ok s.sequence))
      (constants : ConstantsOutcome step s.description (.ok s.constants))
      (script : ScriptOutcome step s.description (.ok s.script)) : StepOutcome step (.ok s)

theorem readStep_eq (step : Node) {description : String} (h : readDescription step = description) :
    readStep step = (readSequence step description >>= fun n =>
      readConstants description (constantNodes step) .empty >>= fun W =>
        readScript step description >>= fun script => .ok ⟨n, description, W, script⟩) := by
  subst h
  rfl

theorem outcome_readStep (step : Node) : StepOutcome step (readStep step) := by
  have hdescribed := readDescription_eq_iff.1 (Eq.refl (readDescription step))
  rw [readStep_eq step rfl]
  cases hnumber : readSequence step (readDescription step) with
  | error e => exact .number hdescribed (readSequence_eq_iff.1 hnumber)
  | ok n =>
    have hnumber := readSequence_eq_iff.1 hnumber
    cases hconstants : readConstants (readDescription step) (constantNodes step) .empty with
    | error e =>
      exact .constants hdescribed hnumber (readConstants_constantNodes_eq_iff.1 hconstants)
    | ok W =>
      have hconstants := readConstants_constantNodes_eq_iff.1 hconstants
      cases hscript : readScript step (readDescription step) with
      | error e => exact .script hdescribed hnumber hconstants (readScript_eq_iff.1 hscript)
      | ok script =>
        exact .step hdescribed hnumber hconstants (readScript_eq_iff.1 hscript)

theorem readStep_eq_iff {step : Node} {r : Except ModelError Step} :
    readStep step = r ↔ StepOutcome step r := by
  constructor
  · rintro rfl
    exact outcome_readStep step
  · intro h
    cases h with
    | number described refusal =>
      rw [readStep_eq step (readDescription_eq_iff.2 described), readSequence_eq_iff.2 refusal]
      rfl
    | constants described number refusal =>
      rw [readStep_eq step (readDescription_eq_iff.2 described), readSequence_eq_iff.2 number,
        readConstants_constantNodes_eq_iff.2 refusal]
      rfl
    | script described number constants refusal =>
      rw [readStep_eq step (readDescription_eq_iff.2 described), readSequence_eq_iff.2 number,
        readConstants_constantNodes_eq_iff.2 constants, readScript_eq_iff.2 refusal]
      rfl
    | step described number constants script =>
      rw [readStep_eq step (readDescription_eq_iff.2 described), readSequence_eq_iff.2 number,
        readConstants_constantNodes_eq_iff.2 constants, readScript_eq_iff.2 script]
      rfl

/-- An instruction of a step was read from a line, and there is no semicolon in it. -/
theorem StepOutcome.exists_line {step : Node} {s : Step} (h : StepOutcome step (.ok s))
    {i : Instruction} (hi : i ∈ s.script) :
    ∃ line, Instruction.read line = .ok i ∧ ';' ∉ line.toList := by
  have hscript : ScriptOutcome step s.description (.ok s.script) := by
    cases h with
    | step described number constants script => exact script
  cases hscript with
  | script only written outcome =>
    cases outcome with
    | all read =>
      obtain ⟨line, hline, houtcome⟩ := exists_of_mem_forall₂ read hi
      obtain ⟨piece, hpiece, rfl⟩ := List.mem_map.1 hline
      refine ⟨_, houtcome.read_eq, fun hsemicolon => ?_⟩
      rw [String.toList_ofList] at hsemicolon
      simpa using (written.whole piece hpiece).unseparated _ hsemicolon

end Model

end ModelScoring
