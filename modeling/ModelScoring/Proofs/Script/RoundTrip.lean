import ModelScoring.Proofs.Script.Grammar

/-!
# Instructions and their text

The text of an instruction puts its names between the marks that a line is cut at.  So it is read as
the same instruction, unless a name holds a mark that cuts it in two, or has blanks around it, or is
empty.  An instruction for which none of this is so is *legible*.

`legible_of_read` says that whatever is read is legible, and `read_text` that a legible instruction
is read from its text.  So reading and writing undo each other on legible instructions and on no
others, which is `read_text_eq_iff_legible`.
-/

namespace ModelScoring

open Text (Filled SameName fold_eq_fold_iff allBlank allBlank_space_cons trim trim_space_cons)

/-- An instruction has names, and as many operands as its operation takes. -/
structure Instruction.WellFormed (i : Instruction) : Prop where
  dest : Filled i.dest
  operands : ∀ name ∈ i.operands, Filled name
  arg2 : i.arg2.isSome = true ↔ i.op.arity = 2

namespace Instruction

/-- An instruction whose names do not hold the marks that would cut them. -/
structure Legible (i : Instruction) : Prop extends i.WellFormed where
  dest_mark : '=' ∉ i.dest.toList
  operand_marks : ∀ name ∈ i.operands, ',' ∉ name.toList ∧ ')' ∉ name.toList

theorem length_operands_eq_arity_iff (i : Instruction) :
    i.operands.length = i.op.arity ↔ (i.arg2.isSome = true ↔ i.op.arity = 2) := by
  obtain ⟨dest, op, arg1, arg2⟩ := i
  cases arg2 <;> cases op <;> simp [operands, Operation.arity]

/-! ## What is read -/

/-- Trimming keeps no mark that was not there. -/
theorem not_mem_ofList_trim {mark : Char} {cs : List Char} (h : mark ∉ cs) :
    mark ∉ (String.ofList (trim cs)).toList := by
  rw [String.toList_ofList]
  exact fun hmem => h (Text.mem_of_mem_trim hmem)

theorem legible_of_read {line : String} {i : Instruction} (h : read line = .ok i) :
    i.Legible := by
  have houtcome := outcome_read line
  rw [h] at houtcome
  cases houtcome with
  | @instruction s _ hs _ _ hcount hdest hoperands =>
    have hlist := (Text.not_mem_intercalate_iff (by decide)).1 hs.list_cut
    have hpiece : ∀ name ∈ i.operands, ∃ piece ∈ s.operands, String.ofList (trim piece) = name := by
      rw [hoperands]
      exact fun _ => List.mem_map.1
    refine { dest := ?_, operands := ?_, arg2 := ?_, dest_mark := ?_, operand_marks := ?_ }
    · rw [hdest]
      exact Text.filled_of_allBlank_eq_false hs.dest
    · intro name hname
      obtain ⟨piece, hmem, rfl⟩ := hpiece name hname
      exact Text.filled_of_allBlank_eq_false (hs.operands piece hmem)
    · rw [← length_operands_eq_arity_iff, hoperands, s.length_operandTexts, hcount]
    · rw [hdest]
      exact not_mem_ofList_trim hs.dest_cut
    · intro name hname
      obtain ⟨piece, hmem, rfl⟩ := hpiece name hname
      exact ⟨not_mem_ofList_trim (hs.operands_cut piece hmem),
        not_mem_ofList_trim (hlist piece hmem)⟩

/-! ## What is written -/

/-- The parts of the text of an instruction.  There is a blank on each side of the equals sign, and
one behind a comma. -/
def sections (i : Instruction) : Sections where
  dest := i.dest.toList ++ [' ']
  name := ' ' :: i.op.name.toList
  operands := i.arg1.toList :: i.arg2.toList.map fun name => ' ' :: name.toList
  trailing := []

theorem line_sections (i : Instruction) : i.sections.line = i.text.toList := by
  obtain ⟨dest, op, arg1, arg2⟩ := i
  cases arg2 <;>
    simp [sections, Sections.line, Sections.list, text, operands, List.intercalate_cons_cons]

theorem not_mem_name (op : Operation) : '(' ∉ op.name.toList := by cases op <;> decide

theorem filled_name (op : Operation) : Filled op.name := by
  cases op <;> exact ⟨by decide, by decide⟩

variable {i : Instruction}

theorem exists_of_mem_sections {piece : List Char} (h : piece ∈ i.sections.operands) :
    ∃ name ∈ i.operands, piece = name.toList ∨ piece = ' ' :: name.toList := by
  rcases List.mem_cons.1 h with rfl | h
  · exact ⟨i.arg1, List.mem_cons_self, .inl rfl⟩
  · obtain ⟨name, hname, rfl⟩ := List.mem_map.1 h
    exact ⟨name, List.mem_cons_of_mem _ hname, .inr rfl⟩

theorem wellShaped_sections (h : i.Legible) : i.sections.WellShaped where
  dest_cut := by simpa [sections] using h.dest_mark
  name_cut := by simpa [sections] using not_mem_name i.op
  list_cut := by
    refine (Text.not_mem_intercalate_iff (by decide)).2 fun piece hpiece => ?_
    obtain ⟨name, hname, rfl | rfl⟩ := exists_of_mem_sections hpiece
    · exact (h.operand_marks name hname).2
    · simpa using (h.operand_marks name hname).2
  operands_cut := by
    intro piece hpiece
    obtain ⟨name, hname, rfl | rfl⟩ := exists_of_mem_sections hpiece
    · exact (h.operand_marks name hname).1
    · simpa using (h.operand_marks name hname).1
  operands_ne_nil := List.cons_ne_nil _ _
  dest := by
    rw [sections, allBlank, List.all_append, ← allBlank, h.dest.allBlank_eq_false, Bool.false_and]
  name := by rw [sections, allBlank_space_cons, (filled_name i.op).allBlank_eq_false]
  operands := by
    intro piece hpiece
    obtain ⟨name, hname, rfl | rfl⟩ := exists_of_mem_sections hpiece
    · exact (h.operands name hname).allBlank_eq_false
    · rw [allBlank_space_cons, (h.operands name hname).allBlank_eq_false]
  trailing := rfl

theorem destText_sections (h : Filled i.dest) : i.sections.destText = i.dest := by
  rw [Sections.destText, sections, Text.trim_append (show allBlank [' '] = true by decide)]
  exact h.trimmed

theorem nameText_sections (i : Instruction) : i.sections.nameText = i.op.name := by
  rw [Sections.nameText, sections, trim_space_cons]
  exact (filled_name i.op).trimmed

theorem operandTexts_sections (h : ∀ name ∈ i.operands, Filled name) :
    i.sections.operandTexts = i.operands := by
  have hsecond : i.arg2.toList.map (fun name => String.ofList (trim (' ' :: name.toList))) =
      i.arg2.toList := by
    refine (List.map_congr_left fun name hname => ?_).trans (List.map_id _)
    rw [trim_space_cons]
    exact (h name (List.mem_cons_of_mem _ hname)).trimmed
  have hfirst : String.ofList (trim i.arg1.toList) = i.arg1 := (h _ List.mem_cons_self).trimmed
  rw [Sections.operandTexts, sections, List.map_cons, List.map_map, hfirst]
  exact congrArg (i.arg1 :: ·) hsecond

/-- A legible instruction is read from its text. -/
theorem read_text (h : i.Legible) : read i.text = .ok i := by
  have hname : SameName i.op.name i.sections.nameText := by
    rw [nameText_sections]
    exact (fold_eq_fold_iff _ _).1 rfl
  have hoperands := operandTexts_sections h.operands
  have hcount : i.sections.operands.length = i.op.arity := by
    rw [← i.sections.length_operandTexts, hoperands]
    exact i.length_operands_eq_arity_iff.2 h.arg2
  exact (Outcome.instruction (wellShaped_sections h) i.line_sections hname hcount
    (destText_sections h.dest).symm hoperands.symm).read_eq

/-- An instruction is read from its text exactly if it is legible.  Whatever is read from a line is
legible, so writing it and reading it again changes nothing. -/
theorem read_text_eq_iff_legible :
    (∀ i : Instruction, read i.text = .ok i ↔ i.Legible) ∧
    (∀ line i, read line = .ok i → i.Legible) ∧
    ∀ line, (read line >>= fun i => read i.text) = read line := by
  refine ⟨fun i => ⟨legible_of_read, read_text⟩, fun _ _ => legible_of_read, fun line => ?_⟩
  cases h : read line with
  | error e => rfl
  | ok i => exact read_text (legible_of_read h)

/-- Marks may stand in names where no line is cut at them any more. -/
theorem read_text_eq_iff_legible_strayMarks :
    ∃ i, read " a(b) =Plus( c=d ,(e ) " = .ok i ∧ i.Legible ∧ i.text = "a(b) = plus(c=d, (e)" := by
  have htext : (read " a(b) =Plus( c=d ,(e ) ").toOption.map text =
      some "a(b) = plus(c=d, (e)" := by decide +kernel
  cases h : read " a(b) =Plus( c=d ,(e ) " with
  | error e =>
    rw [h] at htext
    cases htext
  | ok i =>
    rw [h] at htext
    exact ⟨i, rfl, read_text_eq_iff_legible.2.1 _ i h, Option.some.inj htext⟩

end Instruction

end ModelScoring
