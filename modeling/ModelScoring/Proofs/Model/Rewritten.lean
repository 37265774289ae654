import Mathlib.Data.List.Find
import ModelScoring.Proofs.Model.StepElement
import ModelScoring.Proofs.Script.RoundTrip
import ModelScoring.Proofs.Text.Layout

/-!
# Scripts that are written back

The script of a step that was read can be written again, instruction by instruction.  There are many
ways to do so: the texts of the instructions may be laid out in any number of texts, with semicolons
or the end of a text between them and blanks around them.

`readStep_of_laysOut` says that the step is read again, with the same script, from whichever of
them.  What carries this is that the text of an instruction that was read is a whole piece
(`Instruction.whole_text_of_read`).  It starts with the destination and ends with a parenthesis, and
no name in it holds a semicolon since the line it was read from did not.  So the reader neither
trims nor cuts it.
-/

namespace ModelScoring

open Xml (Node)
open Text (LaidOut LaidOutIn Whole KeepsBlanks fullPieces)

/-! ## Instructions as pieces -/

namespace Instruction

/-- A character that is not a mark is in a line only if it is in a part of it. -/
theorem Sections.not_mem_line_iff {s : Sections} {c : Char} (h : c ∉ ['=', '(', ',', ')']) :
    c ∉ s.line ↔ c ∉ s.dest ∧ c ∉ s.name ∧ (∀ piece ∈ s.operands, c ∉ piece) ∧ c ∉ s.trailing := by
  simp only [List.mem_cons, List.not_mem_nil, or_false, not_or] at h
  obtain ⟨hequals, hopen, hcomma, hclose⟩ := h
  simp only [Sections.line, List.mem_append, List.mem_cons, not_or, Sections.list,
    Text.not_mem_intercalate_iff hcomma]
  tauto

theorem semicolon_not_mem_text_of_read {line : String} {i : Instruction} (h : read line = .ok i)
    (hline : ';' ∉ line.toList) : ';' ∉ i.text.toList := by
  have hmark : ';' ∉ ['=', '(', ',', ')'] := by decide
  have houtcome := outcome_read line
  rw [h] at houtcome
  cases houtcome with
  | @instruction s _ _ hs _ _ hdest hoperands =>
    rw [← hs, Sections.not_mem_line_iff hmark] at hline
    obtain ⟨hline_dest, -, hline_operands, -⟩ := hline
    have hname : ';' ∉ i.op.name.toList := by cases i.op <;> decide
    have hoperand : ∀ name ∈ i.operands, ';' ∉ name.toList := by
      intro name hmem
      rw [hoperands] at hmem
      obtain ⟨piece, hpiece, rfl⟩ := List.mem_map.1 hmem
      exact not_mem_ofList_trim (hline_operands piece hpiece)
    rw [← i.line_sections, Sections.not_mem_line_iff hmark]
    refine ⟨?_, ?_, ?_, List.not_mem_nil⟩
    · have hdest' : ';' ∉ i.dest.toList := hdest ▸ not_mem_ofList_trim hline_dest
      simpa [sections] using hdest'
    · simpa [sections] using hname
    · intro piece hpiece
      obtain ⟨name, hmem, rfl | rfl⟩ := exists_of_mem_sections hpiece
      · exact hoperand name hmem
      · simpa using hoperand name hmem

/-- The text of an instruction starts with its destination and ends with a parenthesis. -/
theorem exists_text_eq {i : Instruction} (h : Text.Filled i.dest) :
    ∃ c cs, Text.isBlank c = false ∧ i.text.toList = c :: (cs ++ [')']) := by
  cases hdest : i.dest.toList with
  | nil => exact absurd (String.toList_eq_nil_iff.1 hdest) h.ne_empty
  | cons c rest =>
    refine ⟨c, rest ++ ' ' :: '=' :: (i.sections.name ++ '(' :: i.sections.list), ?_, ?_⟩
    · exact Text.isBlank_head_trim (h.trim_toList.trans hdest)
    · rw [← i.line_sections]
      simp [Sections.line, sections, hdest]

/-- The text of an instruction that was read from a piece is a piece again. -/
theorem whole_text_of_read {line : String} {i : Instruction} (h : read line = .ok i)
    (hline : ';' ∉ line.toList) : Whole (· == ';') i.text.toList := by
  obtain ⟨c, cs, hc, htext⟩ := exists_text_eq (legible_of_read h).dest
  refine { ne_nil := ?_, trim_eq := ?_, unseparated := ?_ }
  · rw [htext]
    exact List.cons_ne_nil _ _
  · rw [htext]
    exact Text.trim_of_ends hc (by decide) cs
  · rintro d hd
    refine beq_false_of_ne ?_
    rintro rfl
    exact semicolon_not_mem_text_of_read h hline hd

end Instruction

namespace Model

/-! ## Lines -/

/-- What is written of a script. -/
def writtenLines (script : List Instruction) : List (List Char) :=
  script.map fun i => i.text.toList

theorem scriptLines_eq {script : Node} {ps : List (List Char)}
    (h : LaidOutIn (· == ';') ps script.texts) :
    scriptLines script = (ps.flatMap (fullPieces (· == ';'))).map String.ofList := by
  rw [scriptLines, h.flatMap_fullPieces keepsBlanks_semicolon]

/-- Instructions that were read are read again from their texts. -/
theorem readLines_text {script : List Instruction} (h : ∀ i ∈ script, i.Legible) (step : String) :
    readLines step (script.map Instruction.text) = .ok script := by
  induction script with
  | nil => rfl
  | cons i script ih =>
    obtain ⟨hi, hrest⟩ := List.forall_mem_cons.1 h
    rw [List.map_cons, readLines, Instruction.read_text hi, ih hrest]

/-! ## Steps with other scripts -/

/-- What a step element contains besides scripts. -/
def besideScripts (step : Node) : List Node :=
  step.children.filter fun child => !child.isNamed "script"

/-- The only script of a step element lays out pieces. -/
def LaysOut (step : Node) (ps : List (List Char)) : Prop :=
  ∃ script, step.childrenNamed "script" = [script] ∧ LaidOutIn (· == ';') ps script.texts

theorem child?_eq_find?_besideScripts {name : String} (h : name ≠ "script") (step : Node) :
    step.child? name = (besideScripts step).find? (Node.isNamed name) := by
  rw [besideScripts, List.find?_filter, Node.child?]
  refine List.find?_congr fun child _ => ?_
  rw [Bool.eq_iff_iff, decide_eq_true_iff]
  refine ⟨fun hname => ⟨?_, hname⟩, And.right⟩
  rw [Bool.not_eq_true', Bool.eq_false_iff]
  intro hscript
  exact h (Option.some.inj ((beq_iff_eq.1 hname).symm.trans (beq_iff_eq.1 hscript)))

theorem readScript_of_laysOut {step : Node} {ps : List (List Char)} (h : LaysOut step ps)
    (description : String) :
    readScript step description =
      readLines description ((ps.flatMap (fullPieces (· == ';'))).map String.ofList) := by
  obtain ⟨script, hscript, hlaid⟩ := h
  rw [readScript, hscript, ← scriptLines_eq hlaid]

theorem child?_of_besideScripts {step step' : Node} (h : besideScripts step' = besideScripts step)
    {name : String} (hname : name ≠ "script") : step'.child? name = step.child? name := by
  rw [child?_eq_find?_besideScripts hname, h, child?_eq_find?_besideScripts hname]

/-- A step goes by its script and by what it contains besides. -/
theorem readStep_congr {step step' : Node} (h : besideScripts step' = besideScripts step)
    (hscript : readScript step' (readDescription step) = readScript step (readDescription step)) :
    readStep step' = readStep step := by
  have hdescription : readDescription step' = readDescription step := by
    rw [readDescription, child?_of_besideScripts h (by decide), readDescription]
  have hsequence : readSequence step' (readDescription step) =
      readSequence step (readDescription step) := by
    rw [readSequence, child?_of_besideScripts h (by decide), readSequence]
  rw [readStep, readStep, hdescription, hsequence, child?_of_besideScripts h (by decide), hscript]

theorem readScript_of_readStep {step : Node} {s : Step} (h : readStep step = .ok s) :
    readScript step (readDescription step) = .ok s.script := by
  revert h
  unfold readStep
  dsimp only
  cases readSequence step (readDescription step) with
  | error e => nofun
  | ok n =>
    cases readConstants (readDescription step) _ .empty with
    | error e => nofun
    | ok W =>
      cases readScript step (readDescription step) with
      | error e => nofun
      | ok script =>
        intro h
        cases h
        rfl

theorem whole_of_mem_writtenLines {step : Node} {s : Step} (h : readStep step = .ok s)
    {p : List Char} (hp : p ∈ writtenLines s.script) : Whole (· == ';') p := by
  obtain ⟨i, hi, rfl⟩ := List.mem_map.1 hp
  obtain ⟨line, hread, hline⟩ := (readStep_eq_iff.1 h).exists_line hi
  exact Instruction.whole_text_of_read hread hline

theorem legible_of_readStep {step : Node} {s : Step} (h : readStep step = .ok s) :
    ∀ i ∈ s.script, i.Legible := by
  intro i hi
  obtain ⟨line, hread, -⟩ := (readStep_eq_iff.1 h).exists_line hi
  exact Instruction.legible_of_read hread

/-- A script that was read is read again from what is written of it, in whichever step. -/
theorem readScript_of_written {step step' : Node} {s : Step} (h : readStep step = .ok s)
    (hlaid : LaysOut step' (writtenLines s.script)) (description : String) :
    readScript step' description = .ok s.script := by
  have htexts : (writtenLines s.script).map String.ofList = s.script.map Instruction.text := by
    simp [writtenLines]
  rw [readScript_of_laysOut hlaid,
    Text.flatMap_fullPieces_of_whole fun p => whole_of_mem_writtenLines h, htexts,
    readLines_text (legible_of_readStep h)]

/-- A step whose script is written back is read as it was.  How lines are shared among the texts of
a script makes no difference to any step. -/
theorem readStep_of_laysOut :
    (∀ (step step' : Node) (s : Step), readStep step = .ok s →
      besideScripts step' = besideScripts step → LaysOut step' (writtenLines s.script) →
        readStep step' = .ok s) ∧
    ∀ (step step' : Node) (ps : List (List Char)), besideScripts step' = besideScripts step →
      LaysOut step ps → LaysOut step' ps → readStep step' = readStep step := by
  constructor
  · intro step step' s h hbeside hlaid
    have hscript := readScript_of_written h hlaid (readDescription step)
    rw [readStep_congr hbeside (hscript.trans (readScript_of_readStep h).symm), h]
  · intro step step' ps hbeside hlaid hlaid'
    refine readStep_congr hbeside ?_
    rw [readScript_of_laysOut hlaid, readScript_of_laysOut hlaid']

/-- A script with a text in each of some elements. -/
def scriptOf (texts : List (List Char)) : Node :=
  .element "script" [] (texts.map fun text => .element "line" [] [.text text []] []) []

def stepOf (texts : List (List Char)) : Node :=
  .element "step" [] [.element "sequence" [] [.text ['1'] []] [], scriptOf texts] []

theorem texts_scriptOf (texts : List (List Char)) : (scriptOf texts).texts = texts := by
  have hbelow : (Node.descendantsOf (texts.map fun text =>
      .element "line" [] [.text text []] [])).filterMap Node.content? = texts := by
    induction texts with
    | nil => rfl
    | cons text texts ih =>
      rw [List.map_cons, Node.descendantsOf, List.filterMap_append, ih]
      rfl
  exact hbelow

theorem laysOut_stepOf {ps texts : List (List Char)} (h : LaidOutIn (· == ';') ps texts) :
    LaysOut (stepOf texts) ps := by
  refine ⟨scriptOf texts, rfl, ?_⟩
  rwa [texts_scriptOf]

/-- Names may hold marks, and lines may be put together or apart. -/
theorem readStep_of_laysOut_strayMarks :
    ∃ s, readStep (stepOf [" a(b) =Plus( c=d ,(e );;x=abs(y)".toList]) = .ok s ∧
      s.script.map Instruction.text = ["a(b) = plus(c=d, (e)", "x = abs(y)"] ∧
      LaysOut (stepOf (writtenLines s.script)) (writtenLines s.script) ∧
      readStep (stepOf (writtenLines s.script)) = .ok s ∧
      readStep (stepOf [[';'].intercalate (writtenLines s.script)]) =
        readStep (stepOf (writtenLines s.script)) := by
  have htexts : (readStep (stepOf [" a(b) =Plus( c=d ,(e );;x=abs(y)".toList])).toOption.map
      (fun s => s.script.map Instruction.text) = some ["a(b) = plus(c=d, (e)", "x = abs(y)"] := by
    decide +kernel
  cases h : readStep (stepOf [" a(b) =Plus( c=d ,(e );;x=abs(y)".toList]) with
  | error e =>
    rw [h] at htexts
    cases htexts
  | ok s =>
    rw [h] at htexts
    have hspread : LaysOut (stepOf (writtenLines s.script)) (writtenLines s.script) :=
      laysOut_stepOf (Text.laidOutIn_spread _ _)
    have hgrouped : LaysOut (stepOf [[';'].intercalate (writtenLines s.script)])
        (writtenLines s.script) := laysOut_stepOf (Text.laidOutIn_grouped rfl _)
    exact ⟨s, rfl, Option.some.inj htexts, hspread, readStep_of_laysOut.1 _ _ s h rfl hspread,
      readStep_of_laysOut.2 _ _ _ rfl hspread hgrouped⟩

end Model

end ModelScoring
