import ModelScoring.Proofs.Workspace.History
import ModelScoring.Scoring.Execution

/-!
# The stages of a step

A step goes from workspace to workspace.  The first is the one it was started in, with the constants
merged into it.  Each instruction that has a result leads to the next, where its destination is set
to the result.  `Step.Stage` relates the number of a workspace to the workspace, one rule for each of
these two.

A stage settles the rest of the run (`Stage.run_eq`).  So a run that succeeds has come to the stage
behind its last instruction, and a run that fails stands at the one stage whose instruction fails
(`Step.FailsAt.number_unique`).

What a stage has kept of the workspace before the step is `Workspace.Kept`.  Setting one variable
keeps all the others, and keeping composes.

`Step.run_stops_at_stage` is the statement for any step and any workspace.
-/

namespace ModelScoring

open Text (SameName fold_eq_fold_iff)

namespace Workspace

/-! ## What is kept -/

/-- What is kept of a workspace while variables of some names are written. -/
structure Kept (written : List String) (W V : Workspace) : Prop where
  /-- No variable disappears, and none changes its spelling. -/
  spelling : ∀ v ∈ W.toList, ∃ value, ⟨v.name, value⟩ ∈ V.toList
  /-- A name that is not written stands for what it stood for, if for anything. -/
  unwritten : ∀ query, (∀ name ∈ written, ¬SameName name query) → V.named? query = W.named? query

variable {U V W : Workspace} {written others : List String}

theorem Kept.refl (W : Workspace) : Kept [] W W where
  spelling v hv := ⟨v.value, hv⟩
  unwritten _ _ := rfl

theorem Kept.trans (hWV : Kept written W V) (hVU : Kept others V U) :
    Kept (written ++ others) W U where
  spelling v hv := by
    obtain ⟨value, hvalue⟩ := hWV.spelling v hv
    exact hVU.spelling ⟨v.name, value⟩ hvalue
  unwritten query h := by
    obtain ⟨hwritten, hothers⟩ := List.forall_mem_append.1 h
    rw [hVU.unwritten query hothers, hWV.unwritten query hwritten]

/-- Setting a variable keeps the spelling of all and the value of the others. -/
theorem kept_set (W : Workspace) (name : String) (value : Matrix) :
    Kept [name] W (W.set name value) where
  spelling v hv := by
    obtain ⟨hspelling, hfind⟩ := named?_eq_some_iff.1 (mem_toList_iff.1 hv)
    by_cases hname : Text.fold v.name = Text.fold name
    · refine ⟨value, mem_toList_iff.2 (named?_eq_some_iff.2 ⟨?_, ?_⟩)⟩
      · rw [spelling?_set, if_pos hname, hspelling, Option.getD_some]
      · rw [find?_set, if_pos hname]
    · refine ⟨v.value, mem_toList_iff.2 (named?_eq_some_iff.2 ⟨?_, ?_⟩)⟩
      · rw [spelling?_set, if_neg hname, hspelling]
      · rw [find?_set, if_neg hname, hfind]
  unwritten query h := by
    have hname : ¬Text.fold query = Text.fold name := fun heq =>
      h name List.mem_cons_self ((fold_eq_fold_iff _ _).1 heq.symm)
    refine Option.ext fun v => ?_
    rw [named?_eq_some_iff, named?_eq_some_iff, spelling?_set, if_neg hname, find?_set,
      if_neg hname]

theorem kept_setAll (W : Workspace) (vs : List Variable) :
    Kept (vs.map Variable.name) W (W.setAll vs) := by
  induction vs generalizing W with
  | nil => exact .refl W
  | cons v vs ih => exact (kept_set W v.name v.value).trans (ih _)

end Workspace

open Workspace (Kept)

namespace Step

/-! ## Stages -/

/-- The workspaces of a run of a step, by the number of the instruction that comes next. -/
inductive Stage (s : Step) (W : Workspace) : Nat → Workspace → Prop
  /-- The constants are merged first. -/
  | start : Stage s W 0 (W.merge s.constants)
  /-- A result is set under the destination of its instruction. -/
  | next {j : Nat} {V : Workspace} {i : Instruction} {result : Matrix} (stage : Stage s W j V)
      (instruction : s.script[j]? = some i) (value : i.evaluate s.description V = .ok result) :
      Stage s W (j + 1) (V.set i.dest result)

/-- A stage whose instruction fails. -/
structure FailsAt (s : Step) (W : Workspace) (j : Nat) (V : Workspace) (e : ScoringError) :
    Prop where
  stage : s.Stage W j V
  fails : ∃ i, s.script[j]? = some i ∧ i.evaluate s.description V = .error e

/-- The names that are written before an instruction is carried out. -/
def writtenTo (s : Step) (j : Nat) : List String :=
  s.constants.names ++ (s.script.take j).map Instruction.dest

variable {s : Step} {W U V : Workspace} {j k : Nat} {d e : ScoringError}

/-- An instruction that is there stands before those behind it. -/
theorem lt_and_drop_eq {i : Instruction} (h : s.script[j]? = some i) :
    j < s.script.length ∧ s.script.drop j = i :: s.script.drop (j + 1) := by
  obtain ⟨hj, rfl⟩ := List.getElem?_eq_some_iff.1 h
  exact ⟨hj, List.drop_eq_getElem_cons hj⟩

theorem Stage.le_length (h : s.Stage W j V) : j ≤ s.script.length := by
  cases h with
  | start => exact Nat.zero_le _
  | next _ hi _ => exact (lt_and_drop_eq hi).1

/-- A stage has one workspace. -/
theorem Stage.unique (h : s.Stage W j V) (h' : s.Stage W j U) : V = U := by
  induction h generalizing U with
  | start =>
    cases h'
    rfl
  | next _ hi hvalue ih =>
    cases h' with
    | next h' hi' hvalue' =>
      obtain rfl := ih h'
      cases hi.symm.trans hi'
      cases hvalue.symm.trans hvalue'
      rfl

/-- At the stages before a stage the instruction has a result. -/
theorem Stage.earlier (h : s.Stage W j V) (hk : k < j) :
    ∃ U i result, s.Stage W k U ∧ s.script[k]? = some i ∧
      i.evaluate s.description U = .ok result := by
  induction h with
  | start => cases hk
  | @next j V i result hstage hi hvalue ih =>
    rcases Nat.lt_succ_iff_lt_or_eq.1 hk with hlt | rfl
    · exact ih hlt
    · exact ⟨V, i, result, hstage, hi, hvalue⟩

/-- No instruction behind one that fails has a stage, and so only one can fail. -/
theorem FailsAt.not_lt (h : s.FailsAt W j V e) (h' : s.Stage W k U) : ¬j < k := by
  intro hlt
  obtain ⟨V', i', result, hstage, hi', hvalue⟩ := h'.earlier hlt
  obtain ⟨i, hi, hfails⟩ := h.fails
  obtain rfl := hstage.unique h.stage
  cases hi.symm.trans hi'
  cases hvalue.symm.trans hfails

theorem FailsAt.number_unique (h : s.FailsAt W j V e) (h' : s.FailsAt W k U d) : j = k :=
  Nat.le_antisymm (Nat.not_lt.1 (h'.not_lt h.stage)) (Nat.not_lt.1 (h.not_lt h'.stage))

/-! ## Runs -/

/-- A run goes on from a stage with the instructions that are left. -/
theorem Stage.run_eq (h : s.Stage W j V) :
    s.run W = runScript s.description (s.script.drop j) V := by
  induction h with
  | start => rfl
  | next _ hi hvalue ih => rw [ih, (lt_and_drop_eq hi).2, runScript, hvalue]

theorem FailsAt.run_eq (h : s.FailsAt W j V e) : s.run W = ⟨V, some e⟩ := by
  obtain ⟨i, hi, hfails⟩ := h.fails
  rw [h.stage.run_eq, (lt_and_drop_eq hi).2, runScript, hfails]

/-- From any stage a run gets to the last one, or to one that fails. -/
theorem Stage.runs_on {rest : List Instruction} (h : s.Stage W j V)
    (hrest : s.script.drop j = rest) :
    (∃ U, s.Stage W s.script.length U) ∨ ∃ k U e, s.FailsAt W k U e := by
  -- By the instructions that are left, since each result moves the stage on by one.
  induction rest generalizing j V with
  | nil =>
    have hlength := Nat.le_antisymm h.le_length (List.drop_eq_nil_iff.1 hrest)
    exact .inl ⟨V, hlength ▸ h⟩
  | cons i rest ih =>
    have hi : s.script[j]? = some i := by
      rw [← List.head?_drop, hrest, List.head?_cons]
    cases hvalue : i.evaluate s.description V with
    | error e => exact .inr ⟨j, V, e, h, i, hi, hvalue⟩
    | ok result =>
      refine ih (.next h hi hvalue) ?_
      rw [← List.tail_drop, hrest, List.tail_cons]

theorem run_eq_ok_iff : s.run W = ⟨V, none⟩ ↔ s.Stage W s.script.length V := by
  have hlast {U : Workspace} (h : s.Stage W s.script.length U) : s.run W = ⟨U, none⟩ := by
    rw [h.run_eq, List.drop_length]
    rfl
  constructor
  · intro hrun
    rcases (Stage.start (s := s) (W := W)).runs_on rfl with ⟨U, hU⟩ | ⟨k, U, e, hfails⟩
    · cases (hlast hU).symm.trans hrun
      exact hU
    · cases hfails.run_eq.symm.trans hrun
  · exact hlast

theorem run_eq_error_iff : s.run W = ⟨V, some e⟩ ↔ ∃! j, s.FailsAt W j V e := by
  constructor
  · intro hrun
    rcases (Stage.start (s := s) (W := W)).runs_on rfl with ⟨U, hU⟩ | ⟨k, U, d, hfails⟩
    · cases (run_eq_ok_iff.2 hU).symm.trans hrun
    · cases hfails.run_eq.symm.trans hrun
      exact ⟨k, hfails, fun _ h => h.number_unique hfails⟩
  · rintro ⟨j, hfails, -⟩
    exact hfails.run_eq

/-! ## What a step keeps -/

theorem writtenTo_succ {i : Instruction} (h : s.script[j]? = some i) :
    s.writtenTo (j + 1) = s.writtenTo j ++ [i.dest] := by
  obtain ⟨hj, rfl⟩ := List.getElem?_eq_some_iff.1 h
  rw [writtenTo, List.take_succ_eq_append_getElem hj, List.map_append, ← List.append_assoc]
  rfl

theorem Stage.kept (h : s.Stage W j V) : Kept (s.writtenTo j) W V := by
  induction h with
  | start =>
    have hnone : s.writtenTo 0 = s.constants.toList.map Variable.name := List.append_nil _
    rw [hnone]
    exact Workspace.kept_setAll W _
  | @next j V i result _ hi _ ih =>
    rw [writtenTo_succ hi]
    exact ih.trans (Workspace.kept_set V i.dest result)

/-- A run of a step that succeeds ends at the stage behind the last instruction.  A run that fails
ends at a stage whose instruction fails, with the reason of that instruction, and there is only one
such stage.  At every stage the variables from before the step are still there in their spellings,
and those that neither a constant nor an instruction so far has written are as they were. -/
theorem run_stops_at_stage (s : Step) (W : Workspace) :
    (∀ V, s.run W = ⟨V, none⟩ ↔ s.Stage W s.script.length V) ∧
    (∀ V e, s.run W = ⟨V, some e⟩ ↔ ∃! j, s.FailsAt W j V e) ∧
    ∀ j V, s.Stage W j V → Kept (s.writtenTo j) W V :=
  ⟨fun _ => run_eq_ok_iff, fun _ _ => run_eq_error_iff, fun _ _ h => h.kept⟩

/-- A step that sets a variable behind the instruction that needs it. -/
def interrupted : Step where
  sequence := 1
  description := "late"
  constants := Workspace.empty.set "X" (Matrix.scalar 2.0)
  script := [⟨"Y", .plus, "x", some "x"⟩, ⟨"x", .abs, "z", none⟩, ⟨"z", .abs, "y", none⟩]

theorem run_stops_at_stage_interrupted :
    ∃ V e j, interrupted.run (Workspace.empty.set "x" (Matrix.scalar 3.0)) = ⟨V, some e⟩ ∧
      e.message = "value for workspace variable \"z\" has not been set" ∧
      interrupted.FailsAt (Workspace.empty.set "x" (Matrix.scalar 3.0)) j V e ∧
      Kept (interrupted.writtenTo j) (Workspace.empty.set "x" (Matrix.scalar 3.0)) V := by
  have hmessage : (interrupted.run (Workspace.empty.set "x" (Matrix.scalar 3.0))).failure.map
      ScoringError.message = some "value for workspace variable \"z\" has not been set" := by
    decide +kernel
  obtain ⟨e, hfailure, hunset⟩ := Option.map_eq_some_iff.1 hmessage
  have hrun : interrupted.run (Workspace.empty.set "x" (Matrix.scalar 3.0)) = ⟨_, some e⟩ :=
    congrArg (Progress.mk _) hfailure
  obtain ⟨-, herror, hkept⟩ :=
    run_stops_at_stage interrupted (Workspace.empty.set "x" (Matrix.scalar 3.0))
  obtain ⟨j, hfails, -⟩ := (herror _ e).1 hrun
  exact ⟨_, e, j, hrun, hunset, hfails, hkept j _ hfails.stage⟩

end Step

end ModelScoring
