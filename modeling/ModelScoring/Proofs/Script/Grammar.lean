import ModelScoring.Proofs.Text.Names
import ModelScoring.Proofs.Text.Trimmed
import ModelScoring.Script.Instruction

/-!
# The form of an instruction

A line has the form `dest = name(operands)` if it can be taken apart at the first equals sign, the
first opening parenthesis behind it and the first closing one behind that, such that nothing but the
text behind the last mark is blank.  `Sections` are the parts of a line with the blanks still in
them, and `Sections.WellShaped` says that they are cut at the right marks and filled.  The reader
finds them exactly if they are there (`parts?_eq_some_iff`).

`Outcome` says what a line is read as, with one rule for each thing that can be wrong.  A line that
has not the form is refused as a whole.  In a line that has it the name is looked at before the
number of operands.  `read_eq_iff_outcome` says that this is what the reader does with any line.
-/

namespace ModelScoring

open Text (SameName fold_eq_fold_iff allBlank trim trim_eq_nil_iff cut_eq_some_iff)

namespace Operation

/-! ## Names -/

theorem fold_name (op : Operation) : Text.fold op.name = op.name := by cases op <;> decide

/-- A text means the operation that has this name, up to the case of ASCII letters. -/
theorem ofName?_eq_some_iff_sameName {text : String} {op : Operation} :
    ofName? text = some op ↔ SameName op.name text := by
  rw [ofName?_eq_some_iff, ← fold_eq_fold_iff, fold_name]

theorem ofName?_eq_none_iff {text : String} :
    ofName? text = none ↔ ∀ op : Operation, ¬SameName op.name text := by
  rw [Option.eq_none_iff_forall_ne_some]
  exact forall_congr' fun op => not_congr ofName?_eq_some_iff_sameName

end Operation

namespace Instruction

/-! ## The parts of a line -/

/-- The parts of a line, with the blanks that are in them. -/
structure Sections where
  /-- What stands before the equals sign. -/
  dest : List Char
  /-- What stands between the equals sign and the opening parenthesis. -/
  name : List Char
  /-- What stands between commas, within the parentheses. -/
  operands : List (List Char)
  /-- What stands behind the closing parenthesis. -/
  trailing : List Char

namespace Sections

/-- What stands within the parentheses. -/
def list (s : Sections) : List Char := [','].intercalate s.operands

def line (s : Sections) : List Char :=
  s.dest ++ '=' :: (s.name ++ '(' :: (s.list ++ ')' :: s.trailing))

def trimmed (s : Sections) : Parts := ⟨trim s.dest, trim s.name, s.operands.map trim⟩

def destText (s : Sections) : String := String.ofList (trim s.dest)

/-- The name of the operation, as it is written. -/
def nameText (s : Sections) : String := String.ofList (trim s.name)

def operandTexts (s : Sections) : List String :=
  s.operands.map fun piece => String.ofList (trim piece)

theorem length_operandTexts (s : Sections) : s.operandTexts.length = s.operands.length :=
  List.length_map _

/-- The parts are cut at the first mark of each kind, and have something in them. -/
structure WellShaped (s : Sections) : Prop where
  dest_cut : '=' ∉ s.dest
  name_cut : '(' ∉ s.name
  list_cut : ')' ∉ s.list
  operands_cut : ∀ piece ∈ s.operands, ',' ∉ piece
  operands_ne_nil : s.operands ≠ []
  dest : allBlank s.dest = false
  name : allBlank s.name = false
  operands : ∀ piece ∈ s.operands, allBlank piece = false
  trailing : allBlank s.trailing = true

end Sections

theorem isEmpty_trim_eq_false_iff {cs : List Char} :
    (trim cs).isEmpty = false ↔ allBlank cs = false := by
  rw [← Bool.not_eq_true, ← Bool.not_eq_true, List.isEmpty_iff, trim_eq_nil_iff]

/-- What is refused of parts that were cut at the right marks. -/
theorem refuses_eq_false_iff {dest name trailing : List Char} {operands : List (List Char)} :
    ((trim dest).isEmpty || (trim name).isEmpty || !allBlank trailing ||
        (operands.map trim).any List.isEmpty) = false ↔
      allBlank dest = false ∧ allBlank name = false ∧ allBlank trailing = true ∧
        ∀ piece ∈ operands, allBlank piece = false := by
  simp only [Bool.or_eq_false_iff, isEmpty_trim_eq_false_iff, Bool.not_eq_false', List.any_map,
    List.any_eq_false, Function.comp_apply, Bool.not_eq_true, and_assoc]

/-- The parts of a line are found exactly if it has the form of an instruction. -/
theorem parts?_eq_some_iff {line : List Char} {parts : Parts} :
    parts? line = some parts ↔
      ∃ s : Sections, s.WellShaped ∧ s.line = line ∧ s.trimmed = parts := by
  simp only [parts?, Option.bind_eq_bind, Option.bind_eq_some_iff, Prod.exists, cut_eq_some_iff]
  constructor
  · rintro ⟨dest, call, ⟨rfl, hdest⟩, name, rest, ⟨rfl, hname⟩, list, trailing, ⟨rfl, hlist⟩, h⟩
    split at h
    · cases h
    · next hfull =>
      cases h
      -- The pieces between commas are never none, so joining them gives the list back.
      obtain ⟨hjoin, hne, hcut⟩ := Text.splitOn_eq_iff.1 (rfl : list.splitOn ',' = _)
      obtain ⟨hdest', hname', htrailing, hoperands⟩ :=
        refuses_eq_false_iff.1 (Bool.eq_false_iff.2 hfull)
      exact ⟨⟨dest, name, list.splitOn ',', trailing⟩,
        { dest_cut := hdest
          name_cut := hname
          list_cut := by rwa [Sections.list, hjoin]
          operands_cut := hcut
          operands_ne_nil := hne
          dest := hdest'
          name := hname'
          operands := hoperands
          trailing := htrailing },
        by rw [Sections.line, Sections.list, hjoin], rfl⟩
  · rintro ⟨s, hs, rfl, rfl⟩
    refine ⟨s.dest, _, ⟨rfl, hs.dest_cut⟩, s.name, _, ⟨rfl, hs.name_cut⟩, s.list, s.trailing,
      ⟨rfl, hs.list_cut⟩, ?_⟩
    have hpieces : s.list.splitOn ',' = s.operands :=
      Text.splitOn_eq_iff.2 ⟨rfl, hs.operands_ne_nil, hs.operands_cut⟩
    have hoperands : Text.pieces (· == ',') s.list = s.operands.map trim :=
      congrArg (List.map trim) hpieces
    have hfull := refuses_eq_false_iff.2 ⟨hs.dest, hs.name, hs.trailing, hs.operands⟩
    rw [hoperands, if_neg (Bool.eq_false_iff.1 hfull)]
    rfl

/-! ## Putting an instruction together -/

/-- An instruction is put together of a destination, an operation and as many operands as that
takes. -/
theorem assemble?_eq_some_iff {dest : String} {op : Operation} {names : List String}
    {i : Instruction} :
    assemble? dest op names = some i ↔
      names.length = op.arity ∧ i.dest = dest ∧ i.op = op ∧ i.operands = names := by
  constructor
  · intro h
    unfold assemble? at h
    split at h
    · split at h
      · next harity =>
        cases h
        exact ⟨harity.symm, rfl, rfl, rfl⟩
      · cases h
    · split at h
      · next harity =>
        cases h
        exact ⟨harity.symm, rfl, rfl, rfl⟩
      · cases h
    · cases h
  · obtain ⟨dest', op', arg1, arg2⟩ := i
    rintro ⟨harity, rfl, rfl, rfl⟩
    cases arg2 with
    | none => exact if_pos harity.symm
    | some arg2 => exact if_pos harity.symm

theorem exists_assemble? (dest : String) {op : Operation} {names : List String}
    (h : names.length = op.arity) : ∃ i, assemble? dest op names = some i := by
  match names, h with
  | [a], h => exact ⟨_, if_pos h.symm⟩
  | [a, b], h => exact ⟨_, if_pos h.symm⟩
  | [], h => cases op <;> cases h
  | _ :: _ :: _ :: _, h => cases op <;> cases h

/-! ## What a line is read as -/

/-- What a line is read as. -/
inductive Outcome (line : String) : Except ScriptError Instruction → Prop
  /-- The line has not the form of an instruction. -/
  | misshapen (h : ∀ s : Sections, s.WellShaped → s.line ≠ line.toList) :
      Outcome line (.error (.poorlyFormed line))
  /-- There is no operation of the name. -/
  | unknown {s : Sections} (shape : s.WellShaped) (line_eq : s.line = line.toList)
      (name : ∀ op : Operation, ¬SameName op.name s.nameText) :
      Outcome line (.error (.unrecognized s.nameText))
  /-- The operation takes another number of operands. -/
  | miscounted {s : Sections} {op : Operation} (shape : s.WellShaped)
      (line_eq : s.line = line.toList) (name : SameName op.name s.nameText)
      (count : s.operands.length ≠ op.arity) : Outcome line (.error (.poorlyFormed line))
  | instruction {s : Sections} {i : Instruction} (shape : s.WellShaped)
      (line_eq : s.line = line.toList) (name : SameName i.op.name s.nameText)
      (count : s.operands.length = i.op.arity) (dest : i.dest = s.destText)
      (operands : i.operands = s.operandTexts) : Outcome line (.ok i)

section read

variable {line : String} {s : Sections}

theorem read_of_misshapen (h : ∀ s : Sections, s.WellShaped → s.line ≠ line.toList) :
    read line = .error (.poorlyFormed line) := by
  have hparts : parts? line.toList = none := by
    refine Option.eq_none_iff_forall_ne_some.2 fun parts hparts => ?_
    obtain ⟨s, hs, hline, -⟩ := parts?_eq_some_iff.1 hparts
    exact h s hs hline
  rw [read, hparts]

/-- In a line of the form of an instruction the name is looked at first. -/
theorem read_of_unknown (hs : s.WellShaped) (hline : s.line = line.toList)
    (hname : ∀ op : Operation, ¬SameName op.name s.nameText) :
    read line = .error (.unrecognized s.nameText) := by
  have hop : Operation.ofName? (String.ofList s.trimmed.name) = none :=
    Operation.ofName?_eq_none_iff.2 hname
  rw [read, parts?_eq_some_iff.2 ⟨s, hs, hline, rfl⟩]
  dsimp only
  rw [hop]
  rfl

/-- A line of the form of an instruction whose operation there is goes by the operands. -/
theorem read_of_sameName {op : Operation} (hs : s.WellShaped) (hline : s.line = line.toList)
    (hname : SameName op.name s.nameText) :
    read line = match assemble? s.destText op s.operandTexts with
      | none => .error (.poorlyFormed line)
      | some i => .ok i := by
  have hop : Operation.ofName? (String.ofList s.trimmed.name) = some op :=
    Operation.ofName?_eq_some_iff_sameName.2 hname
  have hoperands : s.trimmed.operands.map String.ofList = s.operandTexts := List.map_map
  rw [read, parts?_eq_some_iff.2 ⟨s, hs, hline, rfl⟩]
  dsimp only
  rw [hop, hoperands]
  rfl

theorem read_of_miscounted {op : Operation} (hs : s.WellShaped) (hline : s.line = line.toList)
    (hname : SameName op.name s.nameText) (hcount : s.operands.length ≠ op.arity) :
    read line = .error (.poorlyFormed line) := by
  rw [read_of_sameName hs hline hname]
  cases hi : assemble? s.destText op s.operandTexts with
  | none => rfl
  | some i =>
    obtain ⟨harity, -⟩ := assemble?_eq_some_iff.1 hi
    exact absurd (s.length_operandTexts.symm.trans harity) hcount

/-- What a line is read as is an outcome: one of the rules applies to any line. -/
theorem outcome_read (line : String) : Outcome line (read line) := by
  by_cases hshape : ∃ s : Sections, s.WellShaped ∧ s.line = line.toList
  · obtain ⟨s, hs, hline⟩ := hshape
    by_cases hname : ∃ op : Operation, SameName op.name s.nameText
    · obtain ⟨op, hop⟩ := hname
      by_cases hcount : s.operands.length = op.arity
      · obtain ⟨i, hi⟩ := exists_assemble? s.destText (s.length_operandTexts.trans hcount)
        obtain ⟨-, hdest, rfl, hoperands⟩ := assemble?_eq_some_iff.1 hi
        rw [read_of_sameName hs hline hop, hi]
        exact .instruction hs hline hop hcount hdest hoperands
      · rw [read_of_miscounted hs hline hop hcount]
        exact .miscounted hs hline hop hcount
    · rw [not_exists] at hname
      rw [read_of_unknown hs hline hname]
      exact .unknown hs hline hname
  · simp only [not_exists, not_and] at hshape
    rw [read_of_misshapen hshape]
    exact .misshapen hshape

/-- A line has one outcome. -/
theorem Outcome.read_eq {r : Except ScriptError Instruction} (h : Outcome line r) :
    read line = r := by
  cases h with
  | misshapen h => exact read_of_misshapen h
  | unknown hs hline hname => exact read_of_unknown hs hline hname
  | miscounted hs hline hname hcount => exact read_of_miscounted hs hline hname hcount
  | @instruction s i hs hline hname hcount hdest hoperands =>
    have hi : assemble? s.destText i.op s.operandTexts = some i :=
      assemble?_eq_some_iff.2 ⟨s.length_operandTexts.trans hcount, hdest, rfl, hoperands⟩
    rw [read_of_sameName hs hline hname, hi]

/-- A line is read as the rules say, and as nothing else.  It is an instruction if it has the form
of one, with the name of an operation and as many operands as that takes.  If the name is at fault
the error has the name, and otherwise it has the line. -/
theorem read_eq_iff_outcome (line : String) (r : Except ScriptError Instruction) :
    read line = r ↔ Outcome line r := by
  constructor
  · rintro rfl
    exact outcome_read line
  · exact Outcome.read_eq

-- No operation has three operands, but the name is what is reported.
example : read "y = sqrt(a, b, c)" = .error (.unrecognized "sqrt") := by decide +kernel

end read

end Instruction

end ModelScoring
