import ModelScoring.Proofs.Matrix.ResultShape
import ModelScoring.Proofs.Scoring.Calls
import ModelScoring.Proofs.Scoring.Places

/-!
# Runs by outline

The *outline* of a workspace has the names as they are spelled, in order, and the shapes of their
values.  A run does not look at values but to add, multiply and so on, and to select rows and
columns.  So two runs of a model on rows of the same shape stay at the same outline and end in the
same way, unless one of them stops at a number that is to select a row or column.

`Action.value_alike` says this of one action and `runActions_alike` of any actions.  Stopping at a
number means that it is refused, or that the run halts on it.  `Instruction.SelectsBehind` tells the
instructions that a run halts on so: they select rows or columns of a matrix of `2 ^ 53` elements or
more.
-/

namespace ModelScoring

open Text (fold)

/-! ## Outlines -/

namespace Variable

/-- The name and the shape of the value. -/
def outline (v : Variable) : String × Shape := (v.name, v.value.shape)

theorem outline_insert {name : String} {A B : Matrix} {vs ws : List Variable}
    (h : vs.map outline = ws.map outline) (hshape : A.shape = B.shape) :
    (insert name A vs).map outline = (insert name B ws).map outline := by
  have hvalue (n : String) : outline ⟨n, A⟩ = outline ⟨n, B⟩ := congrArg (Prod.mk n) hshape
  induction vs generalizing ws with
  | nil =>
    obtain rfl : ws = [] := List.map_eq_nil_iff.1 h.symm
    exact List.cons_eq_cons.2 ⟨hvalue name, rfl⟩
  | cons v vs ih =>
    cases ws with
    | nil => cases h
    | cons w ws =>
      obtain ⟨hvw, hrest⟩ := List.cons.inj h
      have hname : v.name = w.name := congrArg Prod.fst hvw
      unfold insert
      rw [← hname]
      by_cases hlt : fold name < fold v.name
      · rw [if_pos hlt, if_pos hlt]
        exact List.cons_eq_cons.2 ⟨hvalue name, h⟩
      · rw [if_neg hlt, if_neg hlt]
        by_cases heq : fold name = fold v.name
        · rw [if_pos heq, if_pos heq]
          exact List.cons_eq_cons.2 ⟨hvalue v.name, hrest⟩
        · rw [if_neg heq, if_neg heq]
          exact List.cons_eq_cons.2 ⟨hvw, ih hrest⟩

theorem outline_lookup? {key : String} {vs ws : List Variable}
    (h : vs.map outline = ws.map outline) :
    (lookup? key vs).map outline = (lookup? key ws).map outline := by
  induction vs generalizing ws with
  | nil =>
    obtain rfl : ws = [] := List.map_eq_nil_iff.1 h.symm
    rfl
  | cons v vs ih =>
    cases ws with
    | nil => cases h
    | cons w ws =>
      obtain ⟨hvw, hrest⟩ := List.cons.inj h
      have hname : v.name = w.name := congrArg Prod.fst hvw
      unfold lookup?
      by_cases hkey : fold v.name = key
      · have hkey' : fold w.name = key := hname ▸ hkey
        simp [hkey, hkey', hvw]
      · have hkey' : ¬fold w.name = key := hname ▸ hkey
        simpa [lookup?, hkey, hkey'] using ih hrest

end Variable

namespace Workspace

/-- The names of a workspace, in order, with the shapes of their values. -/
def outline (W : Workspace) : List (String × Shape) := W.toList.map Variable.outline

variable {W V : Workspace}

theorem outline_set (h : W.outline = V.outline) {A B : Matrix} (hshape : A.shape = B.shape)
    (name : String) : (W.set name A).outline = (V.set name B).outline :=
  Variable.outline_insert h hshape

/-- Names are set in both of two workspaces of one outline, and to values of one shape. -/
theorem shape_get (h : W.outline = V.outline) (name : String) :
    (W.get name).map Matrix.shape = (V.get name).map Matrix.shape := by
  have hfind := @Variable.outline_lookup? (fold name) _ _ h
  unfold get find? named?
  cases hW : Variable.lookup? (fold name) W.toList with
  | none =>
    rw [hW] at hfind
    rw [Option.map_eq_none_iff.1 hfind.symm]
  | some v =>
    rw [hW] at hfind
    obtain ⟨w, hw, hvw⟩ := Option.map_eq_some_iff.1 hfind.symm
    have hshape : w.value.shape = v.value.shape := congrArg Prod.snd hvw
    rw [hw]
    exact congrArg Except.ok hshape.symm

end Workspace

/-! ## Operations -/

/-- The shape of the result of an operation, if numbers that select all pass. -/
def Operation.resultShape (op : Operation) (s : Shape) (t : Option Shape) :
    Option (Except MatrixError Shape) :=
  match op with
  | abs | log10 => some (.ok s)
  | transpose => some (.ok s.transposed)
  | plus | minus | times | rdivide | power => t.map (s.pointwise op)
  | mtimes => t.map s.mtimes
  | cols => t.map (s.select .cols)
  | rows => t.map (s.select .rows)

/-- An operation goes by shapes, or refuses a number, or halts at one. -/
theorem Operation.shape_apply? (op : Operation) (a : Matrix) (b : Option Matrix) :
    ( op.apply? a b).map (Except.map Matrix.shape) =
        op.resultShape a.shape (b.map Matrix.shape) ∨
      (∃ axis value bound, op.apply? a b = some (.error (.invalidIndex axis value bound))) ∨
      op.apply? a b = some (.error .halted) ∧
        ∃ axis indices, op = Axis.operation axis ∧ b = some indices ∧
          a.PicksBehind axis indices := by
  cases op with
  | abs | log10 | transpose => exact .inl rfl
  | plus | minus | times | rdivide | power =>
    left
    cases b with
    | none => rfl
    | some b => exact congrArg some (Matrix.shape_broadcast _ a b)
  | mtimes =>
    left
    cases b with
    | none => rfl
    | some b => exact congrArg some (Matrix.shape_mtimes a b)
  | cols | rows =>
    cases b with
    | none => exact .inl rfl
    | some indices =>
      rcases Matrix.shape_select _ a indices with h | ⟨value, h⟩ | ⟨hbehind, h⟩
      · exact .inl (congrArg some h)
      · exact .inr (.inl ⟨_, value, _, congrArg some h⟩)
      · exact .inr (.inr ⟨congrArg some h, _, indices, rfl, rfl, hbehind⟩)

/-! ## Instructions -/

namespace Instruction

/-- The shapes of the operands of an instruction. -/
def operandShapes (i : Instruction) (W : Workspace) : Except NotSet (Shape × Option Shape) :=
  match (W.get i.arg1).map Matrix.shape with
  | .error e => .error e
  | .ok s =>
    match i.arg2 with
    | none => .ok (s, none)
    | some name =>
      match (W.get name).map Matrix.shape with
      | .error e => .error e
      | .ok t => .ok (s, some t)

/-- The shape of the result of an instruction of a step, if numbers that select all pass. -/
def outcome (i : Instruction) (step : String) :
    Except NotSet (Shape × Option Shape) → Except ScoringError Shape
  | .error e => .error (.notSet e)
  | .ok (s, t) =>
    match i.op.resultShape s t with
    | none => .error (.missingOperand i.text)
    | some (.error e) => .error (.ofMatrixError step i e)
    | some (.ok shape) => .ok shape

theorem shape_operandValues (i : Instruction) (W : Workspace) :
    (i.operandValues W).map (fun values => (values.1.shape, values.2.map Matrix.shape)) =
      i.operandShapes W := by
  unfold operandValues operandShapes
  cases W.get i.arg1 with
  | error e => rfl
  | ok A =>
    cases i.arg2 with
    | none => rfl
    | some name => cases hB : W.get name <;> simp [hB, Except.map]

theorem operandShapes_eq {W V : Workspace} (h : W.outline = V.outline) (i : Instruction) :
    i.operandShapes W = i.operandShapes V := by
  unfold operandShapes
  simp only [Workspace.shape_get h]

/-- An instruction selects rows or columns by numbers that all pass, and one of them picks what is
behind the last.  The matrix that it selects from has `2 ^ 53` elements or more. -/
def SelectsBehind (i : Instruction) (W : Workspace) : Prop :=
  ∃ (axis : Axis) (name : String) (source indices : Matrix),
    i.op = axis.operation ∧ W.get i.arg1 = .ok source ∧
      i.arg2 = some name ∧ W.get name = .ok indices ∧
      Decimal.twoTo 53 ≤ source.size ∧ source.PicksBehind axis indices

/-- Two operands have values if each of them has. -/
theorem get_of_operandValues_ok {i : Instruction} {W : Workspace} {A B : Matrix}
    (h : i.operandValues W = .ok (A, some B)) :
    W.get i.arg1 = .ok A ∧ ∃ name, i.arg2 = some name ∧ W.get name = .ok B := by
  rcases i.operandValues_cases W with ⟨e, -, he⟩ | ⟨A', -, -, hok⟩ | ⟨_, _, e, -, -, -, he⟩ |
    ⟨A', name, B', h1, h2, h3, hok⟩
  · rw [he] at h
    cases h
  · rw [hok] at h
    cases h
  · rw [he] at h
    cases h
  · rw [hok] at h
    cases h
    exact ⟨h1, name, h2, h3⟩

end Instruction

/-- An action ends a run because of a number that is to select. -/
inductive Action.StopsAtIndex (W : Workspace) : Action → ScoringError → Prop
  /-- The number is refused. -/
  | refused (step : String) (i : Instruction) (axis : Axis) (value : Float) (bound : Nat) :
    StopsAtIndex W (.execute step i) (.execution step i.text (.invalidIndex axis value bound))
  /-- The run halts at the number. -/
  | halted (step : String) (i : Instruction) (h : i.SelectsBehind W) :
    StopsAtIndex W (.execute step i) .halted

/-- An instruction goes by shapes, or ends the run because of a number that is to select. -/
theorem Instruction.shape_evaluate (i : Instruction) (step : String) (W : Workspace) :
    (i.evaluate step W).map Matrix.shape = i.outcome step (i.operandShapes W) ∨
      ∃ e, i.evaluate step W = .error e ∧ Action.StopsAtIndex W (.execute step i) e := by
  unfold evaluate
  rw [← shape_operandValues]
  cases hvalues : i.operandValues W with
  | error e => exact .inl rfl
  | ok values =>
    obtain ⟨A, b⟩ := values
    dsimp only [Except.map, outcome]
    rcases i.op.shape_apply? A b with h | ⟨axis, value, bound, h⟩ |
      ⟨h, axis, indices, hop, rfl, hbehind⟩
    · left
      rw [← h]
      cases i.op.apply? A b with
      | none => rfl
      | some result =>
        cases result with
        | error e => rfl
        | ok C => rfl
    · right
      rw [h]
      exact ⟨_, rfl, .refused step i axis value bound⟩
    · right
      rw [h]
      obtain ⟨hsource, name, hname, hindices⟩ := get_of_operandValues_ok hvalues
      exact ⟨_, rfl, .halted step i ⟨axis, name, A, indices, hop, hsource, hname, hindices,
        Matrix.le_size_of_picksBehind hbehind, hbehind⟩⟩

/-! ## Runs -/

/-- A run does some of the actions and ends at the next because of a number that is to select. -/
def StopsAtIndex (actions : List Action) (W : Workspace) : Prop :=
  ∃ before a after V e, actions = before ++ a :: after ∧ runActions before W = ⟨V, none⟩ ∧
    a.value V = .error e ∧ a.StopsAtIndex V e

theorem stopsAtIndex_of_head {a : Action} {W : Workspace} {e : ScoringError}
    (he : a.value W = .error e) (hstop : a.StopsAtIndex W e) (actions : List Action) :
    StopsAtIndex (a :: actions) W :=
  ⟨[], a, actions, W, e, rfl, rfl, he, hstop⟩

theorem StopsAtIndex.cons {a : Action} {actions : List Action} {W : Workspace} {result : Matrix}
    (h : StopsAtIndex actions (W.set a.target result)) (ha : a.value W = .ok result) :
    StopsAtIndex (a :: actions) W := by
  obtain ⟨before, b, after, V, e, rfl, hbefore, he, hstop⟩ := h
  refine ⟨a :: before, b, after, V, e, rfl, ?_, he, hstop⟩
  rw [runActions_cons_ok ha]
  exact hbefore

/-- The results of an action have the same shape in two workspaces of the same outline. -/
theorem Action.value_alike {W V : Workspace} (h : W.outline = V.outline) (a : Action) :
    (a.value W).map Matrix.shape = (a.value V).map Matrix.shape ∨
      (∃ e, a.value W = .error e ∧ a.StopsAtIndex W e) ∨
      ∃ e, a.value V = .error e ∧ a.StopsAtIndex V e := by
  cases a with
  | assign v => exact .inl rfl
  | execute step i =>
    rcases i.shape_evaluate step W with hW | hW
    · rcases i.shape_evaluate step V with hV | hV
      · left
        exact hW.trans ((congrArg (i.outcome step) (i.operandShapes_eq h)).trans hV.symm)
      · exact .inr (.inr hV)
    · exact .inr (.inl hW)

/-- Actions lead from one outline to one outline and fail in the same way, or one of the runs ends
because of a number that is to select. -/
theorem runActions_alike {W V : Workspace} (h : W.outline = V.outline) (actions : List Action) :
    ((runActions actions W).failure = (runActions actions V).failure ∧
      (runActions actions W).workspace.outline = (runActions actions V).workspace.outline) ∨
    StopsAtIndex actions W ∨ StopsAtIndex actions V := by
  induction actions generalizing W V with
  | nil => exact .inl ⟨rfl, h⟩
  | cons a actions ih =>
    rcases a.value_alike h with hshape | ⟨e, he, hstop⟩ | ⟨e, he, hstop⟩
    · cases hW : a.value W with
      | error e =>
        cases hV : a.value V with
        | error e' =>
          rw [hW, hV] at hshape
          cases hshape
          rw [runActions_cons_error hW, runActions_cons_error hV]
          exact .inl ⟨rfl, h⟩
        | ok B =>
          rw [hW, hV] at hshape
          cases hshape
      | ok A =>
        cases hV : a.value V with
        | error e' =>
          rw [hW, hV] at hshape
          cases hshape
        | ok B =>
          rw [hW, hV] at hshape
          rw [runActions_cons_ok hW, runActions_cons_ok hV]
          exact (ih (Workspace.outline_set h (Except.ok.inj hshape) a.target)).imp_right
            (Or.imp (fun hstop => hstop.cons hW) (fun hstop => hstop.cons hV))
    · exact .inr (.inl (stopsAtIndex_of_head he hstop actions))
    · exact .inr (.inr (stopsAtIndex_of_head he hstop actions))

theorem runModel_alike (m : OrderedModel) {v w : Matrix} (h : v.shape = w.shape) :
    ((runModel m v).failure = (runModel m w).failure ∧
      (runModel m v).workspace.outline = (runModel m w).workspace.outline) ∨
    StopsAtIndex m.model.actions (.ofInput v) ∨ StopsAtIndex m.model.actions (.ofInput w) := by
  rw [runModel_eq, runModel_eq]
  exact runActions_alike (Workspace.outline_set rfl h inputName) _

/-! ## Engines -/

namespace Engine

/-- A fresh engine after it was given an input and applied, and why that failed if it did. -/
def score (m : OrderedModel) (profiling : Bool) (input : Matrix) (clock : Clock) :
    Engine × Option ScoringError :=
  (after m profiling [.setInput input]).apply clock

theorem input_after_setInput {m : OrderedModel} {input : Matrix} (profiling : Bool)
    (hrows : input.rows = 1) (hcols : input.cols = m.model.width) :
    (after m profiling [.setInput input]).input = input := by
  have hfault : inputFault? m.model input = none := by
    unfold inputFault?
    rw [if_neg (by omega), if_neg (fun hne => hne hcols)]
  have hset := @setInput_of_fits (ofModel m profiling) input hfault
  exact congrArg (fun next => (Answer.moving (ofModel m profiling) next).1.input) hset

theorem runModel_eq_score {m : OrderedModel} {input : Matrix} (profiling : Bool)
    (hrows : input.rows = 1) (hcols : input.cols = m.model.width) (clock : Clock) :
    runModel m input =
      ⟨(score m profiling input clock).1.workspace, (score m profiling input clock).2⟩ := by
  have hinput := input_after_setInput profiling hrows hcols
  have hrun := (fromScratch_after m profiling [.setInput input]).runModel_eq_apply
    (by rw [hinput]; omega) clock
  rw [hinput] at hrun
  exact hrun

end Engine

/-- A number that is to select is refused. -/
def RefusesIndex (failure : Option ScoringError) : Prop :=
  ∃ step instruction axis value bound,
    failure = some (.execution step instruction (.invalidIndex axis value bound))

/-- The run of a model on an input halts, without a report, at a `cols` or `rows` instruction that
gets behind the last row or column of its source. -/
def HaltsSelecting (m : OrderedModel) (input : Matrix) (W : Workspace)
    (failure : Option ScoringError) : Prop :=
  failure = some .halted ∧ ∃ p : Place m.model, p.Reached input W ∧ p.instruction.SelectsBehind W

theorem StopsAtIndex.haltsSelecting {m : OrderedModel} {input : Matrix} {W : Workspace}
    {failure : Option ScoringError} (h : StopsAtIndex m.model.actions (.ofInput input))
    (hrun : runModel m input = ⟨W, failure⟩) (hindex : ¬RefusesIndex failure) :
    HaltsSelecting m input W failure := by
  obtain ⟨before, a, after, V, e, hactions, hbefore, he, hstop⟩ := h
  have hends : runModel m input = ⟨V, some e⟩ := by
    rw [runModel_eq]
    exact runActions_eq_error_iff.2 ⟨before, a, after, hactions, hbefore, he⟩
  rw [hends] at hrun
  cases hrun
  cases hstop with
  | refused step i axis value bound =>
    exact absurd ⟨step, i.text, axis, value, bound, rfl⟩ hindex
  | halted step i hbehind =>
    obtain ⟨p, hp, rfl⟩ := Place.exists_of_actions_eq hactions
    cases hp
    exact ⟨rfl, p, Place.reached_iff.2 hbefore, hbehind⟩

/-- Two fresh engines that are applied to rows of the width of the model end in the same way, at
workspaces of the same outline, if neither refuses a number that is to select.  The one way out is
an index behind the last row or column that passes nevertheless.  It takes a matrix of `2 ^ 53`
elements, and the run halts at the instruction that selects from it. -/
theorem score_alike (m : OrderedModel) (profiling profiling' : Bool) (v w : Matrix)
    (clock clock' : Clock)
    (hv : v.rows = 1 ∧ v.cols = m.model.width) (hw : w.rows = 1 ∧ w.cols = m.model.width)
    (hvindex : ¬RefusesIndex (Engine.score m profiling v clock).2)
    (hwindex : ¬RefusesIndex (Engine.score m profiling' w clock').2) :
    ((Engine.score m profiling v clock).2 = (Engine.score m profiling' w clock').2 ∧
      (Engine.score m profiling v clock).1.workspace.outline =
        (Engine.score m profiling' w clock').1.workspace.outline) ∨
    HaltsSelecting m v (Engine.score m profiling v clock).1.workspace
      (Engine.score m profiling v clock).2 ∨
    HaltsSelecting m w (Engine.score m profiling' w clock').1.workspace
      (Engine.score m profiling' w clock').2 := by
  have hshape : v.shape = w.shape :=
    Shape.ext (hv.1.trans hw.1.symm) (hv.2.trans hw.2.symm)
  have hvrun := Engine.runModel_eq_score profiling hv.1 hv.2 clock
  have hwrun := Engine.runModel_eq_score profiling' hw.1 hw.2 clock'
  have halike := runModel_alike m hshape
  rw [hvrun, hwrun] at halike
  rcases halike with hsame | hstop | hstop
  · exact .inl hsame
  · exact .inr (.inl (hstop.haltsSelecting hvrun hvindex))
  · exact .inr (.inr (hstop.haltsSelecting hwrun hwindex))

/-- A model of one step, which doubles a value and then selects it. -/
def selectedDouble : OrderedModel where
  model :=
    { width := 1
      information := ⟨"sample", "", []⟩
      steps :=
        [{ sequence := 1
           description := "double"
           constants :=
            (Workspace.empty.set "first" (Matrix.scalar 1.0)).set "two" (Matrix.scalar 2.0)
           script := [⟨"y", .times, "x", some "two"⟩, ⟨"z", .cols, "y", some "first"⟩] }] }
  ordered :=
    { width_pos := by decide
      modelType := by decide +kernel
      steps_ne_nil := List.cons_ne_nil _ _
      numbered := by decide }

/-- Two runs that select succeed, and leave workspaces of the same outline. -/
theorem score_alike_selectedDouble :
    (Engine.score selectedDouble true (Matrix.scalar 1.5) .still).2.isNone = true ∧
      (Engine.score selectedDouble true (Matrix.scalar 1.5) .still).2 =
        (Engine.score selectedDouble true (Matrix.scalar (-4.0)) .still).2 ∧
      (Engine.score selectedDouble true (Matrix.scalar 1.5) .still).1.workspace.outline =
        (Engine.score selectedDouble true (Matrix.scalar (-4.0)) .still).1.workspace.outline := by
  have hv : (Engine.score selectedDouble true (Matrix.scalar 1.5) .still).2 = none :=
    Option.isNone_iff_eq_none.1 (by decide +kernel)
  have hw : (Engine.score selectedDouble true (Matrix.scalar (-4.0)) .still).2 = none :=
    Option.isNone_iff_eq_none.1 (by decide +kernel)
  have hpasses : ¬RefusesIndex none := by
    rintro ⟨_, _, _, _, _, hsome⟩
    cases hsome
  have hstays (input : Matrix) (W : Workspace) :
      ¬HaltsSelecting selectedDouble input W none := by
    rintro ⟨hhalted, -⟩
    cases hhalted
  refine ⟨Option.isNone_iff_eq_none.2 hv, ?_⟩
  rcases score_alike selectedDouble true true (Matrix.scalar 1.5) (Matrix.scalar (-4.0)) .still
    .still ⟨rfl, rfl⟩ ⟨rfl, rfl⟩ (hv ▸ hpasses) (hw ▸ hpasses) with hsame | hhalts | hhalts
  · exact hsame
  · rw [hv] at hhalts
    exact absurd hhalts (hstays _ _)
  · rw [hw] at hhalts
    exact absurd hhalts (hstays _ _)

end ModelScoring
