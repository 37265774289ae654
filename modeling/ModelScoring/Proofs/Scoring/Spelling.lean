import ModelScoring.Proofs.Scoring.Calls
import ModelScoring.Proofs.Scoring.Places

/-!
# Models that are spelled differently

Two models may differ in the case of ASCII letters in the names of constants, destinations and
operands and in nothing else.  They are the same model then once their names are *folded*, which
leaves every capital small.

Folding commutes with a run.  `runActions_folded` says that folded actions do to a folded workspace
what the actions do to the workspace, and that they fail with the folded error.  So two models that
are the same once folded run alike on the same input.  `Engine.apply_alike_of_respelled` says that
engines for them end alike: both succeed, or both fail at instructions in the same position of the
same step, for the same reason, and what they leave behind is the same up to the case of letters.
-/

namespace ModelScoring

open Text (fold fold_fold toList_fold)

namespace Text

theorem fold_append (s t : String) : fold (s ++ t) = fold s ++ fold t := by
  rw [← String.toList_inj, String.toList_append, toList_fold, toList_fold, toList_fold,
    String.toList_append, List.map_append]

end Text

open Text (fold_append)

/-! ## Workspaces -/

namespace Variable

/-- The variable with its name folded. -/
def folded (v : Variable) : Variable := ⟨fold v.name, v.value⟩

theorem before_folded_iff {v w : Variable} : v.folded.Before w.folded ↔ v.Before w := by
  simp only [Before, folded, fold_fold]

theorem map_folded_insert (name : String) (A : Matrix) (vs : List Variable) :
    (insert name A vs).map folded = insert (fold name) A (vs.map folded) := by
  induction vs with
  | nil => rfl
  | cons v vs ih =>
    have hname : fold v.folded.name = fold v.name := fold_fold v.name
    rw [List.map_cons, insert, insert, fold_fold, hname]
    by_cases hlt : fold name < fold v.name
    · rw [if_pos hlt, if_pos hlt]
      rfl
    · rw [if_neg hlt, if_neg hlt]
      by_cases heq : fold name = fold v.name
      · rw [if_pos heq, if_pos heq]
        rfl
      · rw [if_neg heq, if_neg heq, List.map_cons, ih]

theorem lookup?_map_folded (key : String) (vs : List Variable) :
    lookup? key (vs.map folded) = (lookup? key vs).map folded := by
  rw [lookup?, List.find?_map]
  have hname : (fun v : Variable => decide (fold v.name = key)) ∘ folded =
      fun v => decide (fold v.name = key) := by
    funext v
    simp [folded, fold_fold]
  rw [hname, lookup?]

end Variable

namespace NotSet

def folded (e : NotSet) : NotSet := ⟨fold e.name⟩

end NotSet

namespace Workspace

/-- The workspace with every name folded. -/
def folded (W : Workspace) : Workspace where
  toList := W.toList.map Variable.folded
  sorted := W.sorted.map Variable.folded fun _ _ h => Variable.before_folded_iff.2 h

theorem folded_set (W : Workspace) (name : String) (A : Matrix) :
    (W.set name A).folded = W.folded.set (fold name) A :=
  ext (Variable.map_folded_insert name A W.toList)

/-- A folded name stands for the same value in the folded workspace. -/
theorem get_folded (W : Workspace) (name : String) :
    W.folded.get (fold name) = (W.get name).mapError NotSet.folded := by
  have hfind : W.folded.find? (fold name) = W.find? name := by
    rw [find?, named?, fold_fold, folded, Variable.lookup?_map_folded, Option.map_map]
    rfl
  rw [get, hfind, get]
  cases W.find? name <;> rfl

theorem folded_ofInput (input : Matrix) : (ofInput input).folded = ofInput input := by
  rw [ofInput, folded_set]
  exact congrArg (empty.set · input) (by decide +kernel)

end Workspace

/-! ## Instructions -/

/-- The error with the names in it folded. -/
def ScoringError.folded : ScoringError → ScoringError
  | notSet reason => notSet reason.folded
  | execution step instruction reason => execution step (fold instruction) reason
  | missingOperand instruction => missingOperand (fold instruction)
  | tooManyRows rows => tooManyRows rows
  | columnMismatch expected actual => columnMismatch expected actual
  | inputMissing => inputMissing
  | notApplied => notApplied
  | halted => halted

namespace Instruction

/-- The instruction with its names folded. -/
def folded (i : Instruction) : Instruction where
  dest := fold i.dest
  op := i.op
  arg1 := fold i.arg1
  arg2 := i.arg2.map fold

theorem text_folded (i : Instruction) : i.folded.text = fold i.text := by
  have hop : fold i.op.name = i.op.name := by cases i.op <;> decide +kernel
  have hequals : fold " = " = " = " := by decide +kernel
  have hopen : fold "(" = "(" := by decide +kernel
  have hcomma : fold ", " = ", " := by decide +kernel
  have hclose : fold ")" = ")" := by decide +kernel
  have hoperands : String.intercalate ", " i.folded.operands =
      fold (String.intercalate ", " i.operands) := by
    unfold operands folded
    cases i.arg2 with
    | none => simp
    | some name => simp [fold_append, hcomma]
  simp only [text, hoperands, fold_append, hop, hequals, hopen, hclose]
  rfl

theorem operandValues_folded (i : Instruction) (W : Workspace) :
    i.folded.operandValues W.folded = (i.operandValues W).mapError NotSet.folded := by
  unfold operandValues folded
  rw [W.get_folded]
  cases W.get i.arg1 with
  | error e => rfl
  | ok A =>
    cases i.arg2 with
    | none => rfl
    | some name =>
      dsimp only [Except.mapError, Option.map_some]
      rw [W.get_folded]
      cases W.get name <;> rfl

theorem ofMatrixError_folded (step : String) (i : Instruction) (reason : MatrixError) :
    ScoringError.ofMatrixError step i.folded reason =
      (ScoringError.ofMatrixError step i reason).folded := by
  cases reason with
  | halted => rfl
  | _ => exact congrArg (ScoringError.execution step · _) i.text_folded

/-- A folded instruction has the same result in the folded workspace, or fails with the folded
error. -/
theorem evaluate_folded (i : Instruction) (step : String) (W : Workspace) :
    i.folded.evaluate step W.folded = (i.evaluate step W).mapError ScoringError.folded := by
  unfold evaluate
  rw [operandValues_folded]
  cases i.operandValues W with
  | error e => rfl
  | ok values =>
    obtain ⟨a, b⟩ := values
    dsimp only [Except.mapError]
    have hop : i.folded.op = i.op := rfl
    rw [hop]
    match i.op.apply? a b with
    | none => exact congrArg (Except.error <| ScoringError.missingOperand ·) i.text_folded
    | some (.error reason) => exact congrArg Except.error (ofMatrixError_folded step i reason)
    | some (.ok result) => rfl

end Instruction

/-! ## Runs -/

/-- The run with the names in it folded. -/
def Progress.folded (P : Progress) : Progress := ⟨P.workspace.folded, P.failure.map .folded⟩

namespace Action

/-- The action with its names folded. -/
def folded : Action → Action
  | assign v => assign v.folded
  | execute step i => execute step i.folded

theorem target_folded (a : Action) : a.folded.target = fold a.target := by
  cases a <;> rfl

theorem value_folded (a : Action) (W : Workspace) :
    a.folded.value W.folded = (a.value W).mapError .folded := by
  cases a with
  | assign v => rfl
  | execute step i => exact i.evaluate_folded step W

end Action

/-- Folded actions do to a folded workspace what the actions do to the workspace. -/
theorem runActions_folded (actions : List Action) (W : Workspace) :
    runActions (actions.map .folded) W.folded = (runActions actions W).folded := by
  induction actions generalizing W with
  | nil => rfl
  | cons a actions ih =>
    have hvalue := a.value_folded W
    cases ha : a.value W with
    | error e =>
      rw [ha] at hvalue
      rw [List.map_cons, runActions_cons_error hvalue, runActions_cons_error ha]
      rfl
    | ok result =>
      rw [ha] at hvalue
      rw [List.map_cons, runActions_cons_ok hvalue, runActions_cons_ok ha, a.target_folded,
        ← W.folded_set]
      exact ih (W.set a.target result)

/-! ## Models -/

/-- The step with its names folded. -/
def Step.folded (s : Step) : Step :=
  { s with constants := s.constants.folded, script := s.script.map .folded }

/-- Two models are for inputs of the same width and have the same steps, but for the case of ASCII
letters in the names of constants, destinations and operands. -/
structure Model.Respelled (m m' : Model) : Prop where
  width : m.width = m'.width
  steps : m.steps.map Step.folded = m'.steps.map Step.folded

theorem Step.actions_folded (s : Step) : s.folded.actions = s.actions.map .folded := by
  simp only [actions, folded, Workspace.folded, List.map_append, List.map_map]
  rfl

theorem flatMap_actions_folded (steps : List Step) :
    (steps.map Step.folded).flatMap Step.actions = (steps.flatMap Step.actions).map .folded := by
  rw [List.flatMap_map, List.map_flatMap]
  exact congrArg (List.flatMap · steps) (funext Step.actions_folded)

section respelled

variable {m m' : OrderedModel} {input : Matrix}

theorem runModel_folded (m : OrderedModel) (input : Matrix) :
    (runModel m input).folded =
      runActions ((m.model.steps.map Step.folded).flatMap Step.actions) (.ofInput input) := by
  rw [runModel_eq, ← runActions_folded, Workspace.folded_ofInput, flatMap_actions_folded]
  rfl

theorem runModel_alike_of_respelled (h : m.model.Respelled m'.model) (input : Matrix) :
    (runModel m input).folded = (runModel m' input).folded := by
  rw [runModel_folded, runModel_folded, h.steps]

/-! ## Places -/

/-- Lists that have the same images are split at a member in the same way. -/
theorem split_of_map_eq {α β : Type} {f : α → β} {xs ys before after : List α} {x : α}
    (h : xs.map f = ys.map f) (hxs : xs = before ++ x :: after) :
    ∃ before' y after', ys = before' ++ y :: after' ∧ before.map f = before'.map f ∧ f x = f y := by
  rw [hxs, List.map_append, List.map_cons] at h
  obtain ⟨before', rest, rfl, hbefore, hrest⟩ := List.map_eq_append_iff.1 h.symm
  obtain ⟨y, after', rfl, hy, -⟩ := List.map_eq_cons_iff.1 hrest
  exact ⟨before', y, after', rfl, hbefore.symm, hy.symm⟩

namespace Place

/-- Two places are the same but for the case of letters in names. -/
structure Respelled {m m' : Model} (p : Place m) (q : Place m') : Prop where
  earlier : p.earlier.map Step.folded = q.earlier.map Step.folded
  step : p.step.folded = q.step.folded
  done : p.done.map Instruction.folded = q.done.map Instruction.folded
  instruction : p.instruction.folded = q.instruction.folded

theorem exists_respelled {m m' : Model} (h : m.Respelled m') (p : Place m) :
    ∃ q : Place m', p.Respelled q := by
  obtain ⟨earlier, s, later, hsteps, hearlier, hs⟩ := split_of_map_eq h.steps p.steps_eq
  have hscript : p.step.script.map Instruction.folded = s.script.map Instruction.folded :=
    congrArg Step.script hs
  obtain ⟨done, i, rest, hsplit, hdone, hi⟩ := split_of_map_eq hscript p.script_eq
  exact ⟨⟨earlier, s, later, hsteps, done, i, rest, hsplit⟩, hearlier, hs, hdone, hi⟩

/-- A run on an input gets to the instruction and fails there. -/
def Fails {m : Model} (p : Place m) (input : Matrix) (e : ScoringError) : Prop :=
  ∃ V, p.Reached input V ∧ p.evaluate V = .error e

theorem map_folded_before {m : Model} (p : Place m) :
    p.before.map Action.folded =
      (p.earlier.map Step.folded).flatMap Step.actions ++
        (p.step.folded.constants.toList.map .assign ++
          (p.done.map Instruction.folded).map (.execute p.step.folded.description)) := by
  rw [before, flatMap_actions_folded]
  simp only [Step.folded, Workspace.folded, List.map_append, List.map_map]
  rfl

namespace Respelled

variable {m m' : Model} {p : Place m} {q : Place m'}

/-- Both are in the same position of the same step. -/
theorem length_eq (h : p.Respelled q) :
    p.earlier.length = q.earlier.length ∧ p.done.length = q.done.length := by
  have hearlier := congrArg List.length h.earlier
  have hdone := congrArg List.length h.done
  rw [List.length_map, List.length_map] at hearlier hdone
  exact ⟨hearlier, hdone⟩

theorem runActions_before (h : p.Respelled q) (input : Matrix) :
    (runActions p.before (.ofInput input)).folded =
      (runActions q.before (.ofInput input)).folded := by
  rw [← runActions_folded, ← runActions_folded, p.map_folded_before, q.map_folded_before,
    h.earlier, h.step, h.done]

/-- If a run fails at the one place, a run on the same input fails at the other, for the same
reason. -/
theorem fails (h : p.Respelled q) {e : ScoringError} (hp : p.Fails input e) :
    ∃ e', q.Fails input e' ∧ e'.folded = e.folded := by
  obtain ⟨V, hV, he⟩ := hp
  have hrun := h.runActions_before input
  rw [Place.reached_iff.1 hV] at hrun
  match hq : runActions q.before (.ofInput input) with
  | ⟨V', some e'⟩ =>
    rw [hq] at hrun
    cases congrArg Progress.failure hrun
  | ⟨V', none⟩ =>
    rw [hq] at hrun
    have hworkspace : V.folded = V'.folded := congrArg Progress.workspace hrun
    have hdescription : p.step.folded.description = q.step.folded.description :=
      congrArg Step.description h.step
    have hvalue : (p.evaluate V).mapError ScoringError.folded =
        (q.evaluate V').mapError ScoringError.folded := by
      rw [evaluate, evaluate, ← Instruction.evaluate_folded, ← Instruction.evaluate_folded,
        h.instruction, hworkspace]
      exact congrArg (q.instruction.folded.evaluate · _) hdescription
    rw [he] at hvalue
    cases he' : q.evaluate V' with
    | ok result =>
      rw [he'] at hvalue
      cases hvalue
    | error e' =>
      rw [he'] at hvalue
      exact ⟨e', ⟨V', Place.reached_iff.2 hq, he'⟩, (Except.error.inj hvalue).symm⟩

end Respelled

end Place

end respelled

/-! ## Engines -/

namespace Engine

theorem apply_keeps_input (e : Engine) (clock : Clock) :
    (e.apply clock).1.model = e.model ∧ (e.apply clock).1.input = e.input := by
  unfold apply
  split
  · exact ⟨rfl, rfl⟩
  · split
    · exact ⟨rfl, rfl⟩
    · split <;> exact ⟨rfl, rfl⟩

/-- Engines for models of the same width take the same inputs. -/
structure SameInput (e e' : Engine) : Prop where
  width : e.model.model.width = e'.model.model.width
  input : e.input = e'.input

namespace SameInput

variable {e e' : Engine}

theorem moving_setInput (h : e.SameInput e') (input : Matrix) :
    (Answer.moving e (e.setInput input)).1.SameInput (Answer.moving e' (e'.setInput input)).1 := by
  have hfault : inputFault? e'.model.model input = inputFault? e.model.model input := by
    rw [inputFault?, inputFault?, h.width]
  cases hf : inputFault? e.model.model input with
  | some fault =>
    rw [setInput_of_fault hf, setInput_of_fault (hfault.trans hf)]
    exact h
  | none =>
    rw [setInput_of_fits hf, setInput_of_fits (hfault.trans hf)]
    exact ⟨h.width, rfl⟩

theorem call (h : e.SameInput e') (c : Call) : (e.call c).1.SameInput (e'.call c).1 := by
  cases c with
  | setInput input => exact h.moving_setInput input
  | setInputRow values =>
    show (Answer.moving e (e.setInputRow values)).1.SameInput
      (Answer.moving e' (e'.setInputRow values)).1
    unfold setInputRow
    cases Matrix.ofRow values with
    | error _ => exact h
    | ok input => exact h.moving_setInput input
  | apply clock =>
    obtain ⟨hmodel, hinput⟩ := e.apply_keeps_input clock
    obtain ⟨hmodel', hinput'⟩ := e'.apply_keeps_input clock
    refine ⟨?_, hinput.trans (h.input.trans hinput'.symm)⟩
    show (e.apply clock).1.model.model.width = (e'.apply clock).1.model.model.width
    rw [hmodel, hmodel', h.width]
  | results | resultWorkspace | getVar | workspace | input => exact h

theorem calls (h : e.SameInput e') (cs : List Call) : (e.calls cs).1.SameInput (e'.calls cs).1 := by
  induction cs generalizing e e' with
  | nil => exact h
  | cons c cs ih => exact ih (h.call c)

end SameInput

theorem input_after_eq {m m' : OrderedModel} (h : m.model.width = m'.model.width)
    (profiling profiling' : Bool) (cs : List Call) :
    (after m profiling cs).input = (after m' profiling' cs).input := by
  have hfresh : (ofModel m profiling).SameInput (ofModel m' profiling') := ⟨h, rfl⟩
  exact (hfresh.calls cs).input

/-- Without an input row an engine holds nothing, and applying its model changes nothing. -/
theorem FromScratch.apply_of_rows_eq_zero {m : OrderedModel} {e : Engine} (h : e.FromScratch m)
    (hrows : e.input.rows = 0) (clock : Clock) :
    (e.apply clock).1.workspace = Workspace.empty ∧ (e.apply clock).2 = some .inputMissing := by
  cases hp : e.phase with
  | applied =>
    have hone := (h.applied hp).1
    omega
  | idle =>
    rw [apply_of_missing hp hrows]
    refine ⟨(h.idle hp).resolve_right ?_, rfl⟩
    rintro ⟨hone, -⟩
    omega

/-- Engines for models that differ in the case of letters in names, after the same calls, end alike.
Both succeed, or both have no input row, or both fail at an instruction in the same position of the
same step, with errors that differ in the case of letters only.  What they leave behind is the same
once names are folded. -/
theorem apply_alike_of_respelled {m m' : OrderedModel} (h : m.model.Respelled m'.model)
    (profiling profiling' : Bool) (cs : List Call) (clock clock' : Clock) :
    ((after m profiling cs).apply clock).1.workspace.folded =
        ((after m' profiling' cs).apply clock').1.workspace.folded ∧
      (((after m profiling cs).apply clock).2 = none ∧
          ((after m' profiling' cs).apply clock').2 = none ∨
        ((after m profiling cs).apply clock).2 = some .inputMissing ∧
          ((after m' profiling' cs).apply clock').2 = some .inputMissing ∨
        ∃ (p : Place m.model) (q : Place m'.model) (e e' : ScoringError),
          p.earlier.length = q.earlier.length ∧ p.done.length = q.done.length ∧
          p.Fails (after m profiling cs).input e ∧
          ((after m profiling cs).apply clock).2 = some e ∧
          q.Fails (after m' profiling' cs).input e' ∧
          ((after m' profiling' cs).apply clock').2 = some e' ∧ e.folded = e'.folded) := by
  have hinput := input_after_eq h.width profiling profiling' cs
  have hscratch := fromScratch_after m profiling cs
  have hscratch' := fromScratch_after m' profiling' cs
  by_cases hrows : (after m profiling cs).input.rows = 0
  · obtain ⟨hW, hmissing⟩ := hscratch.apply_of_rows_eq_zero hrows clock
    obtain ⟨hW', hmissing'⟩ := hscratch'.apply_of_rows_eq_zero (hinput ▸ hrows) clock'
    exact ⟨by rw [hW, hW'], .inr (.inl ⟨hmissing, hmissing'⟩)⟩
  · have hrun := hscratch.runModel_eq_apply hrows clock
    have hrun' := hscratch'.runModel_eq_apply (hinput ▸ hrows) clock'
    have halike := runModel_alike_of_respelled h (after m profiling cs).input
    rw [hrun, hinput, hrun'] at halike
    refine ⟨congrArg Progress.workspace halike, ?_⟩
    cases hfailure : ((after m profiling cs).apply clock).2 with
    | none =>
      rw [hfailure] at halike
      exact .inl ⟨rfl, Option.map_eq_none_iff.1 (congrArg Progress.failure halike).symm⟩
    | some e =>
      right
      right
      rw [hfailure] at hrun
      obtain ⟨p, hp⟩ := runModel_eq_error_iff.1 hrun
      obtain ⟨q, hpq⟩ := p.exists_respelled h
      obtain ⟨e', hfails, hfolded⟩ := hpq.fails ⟨_, hp⟩
      rw [hinput] at hfails
      obtain ⟨V', hq⟩ := hfails
      have hsome : ((after m' profiling' cs).apply clock').2 = some e' := by
        rw [runModel_eq_error_iff.2 ⟨q, hq⟩] at hrun'
        exact (congrArg Progress.failure hrun').symm
      exact ⟨p, q, e, e', hpq.length_eq.1, hpq.length_eq.2, ⟨_, hp⟩, rfl, ⟨V', hq⟩, hsome,
        hfolded.symm⟩

theorem two_lt_sizeLimit : 2 < sizeLimit := by decide

def twoValues : Matrix :=
  ⟨⟨1, 2, Shape.scalar.rows_lt, two_lt_sizeLimit⟩, #[1.0, 2.0], rfl, two_lt_sizeLimit⟩

/-- A model that scales a row and multiplies it with another row, which no two rows allow.  The
constant is spelled in two ways, and so is the first result. -/
def rowProduct (row row' scaled scaled' : String) : OrderedModel where
  model :=
    { width := 1
      information := ⟨"sample", "", []⟩
      steps :=
        [{ sequence := 1
           description := "scale"
           constants := Workspace.empty.set row twoValues
           script := [⟨scaled, .times, "x", some row'⟩, ⟨"y", .mtimes, scaled', some row⟩] }] }
  ordered :=
    { width_pos := Nat.one_ne_zero
      modelType := by
        show Text.allBlank "sample".toList = false
        decide +kernel
      steps_ne_nil := List.cons_ne_nil _ _
      numbered := rfl }

theorem respelled_rowProduct :
    (rowProduct "row" "ROW" "Scaled" "scaled").model.Respelled
      (rowProduct "Row" "row" "SCALED" "sCaLeD").model where
  width := rfl
  steps := by
    have hdest : fold "Scaled" = fold "SCALED" := by decide +kernel
    have harg : fold "scaled" = fold "sCaLeD" := by decide +kernel
    have hrow : fold "row" = fold "Row" := by decide +kernel
    have hrow' : fold "ROW" = fold "row" := by decide +kernel
    have hset (name : String) (A : Matrix) :
        (Workspace.empty.set name A).folded = Workspace.empty.set (fold name) A :=
      Workspace.empty.folded_set name A
    simp [rowProduct, Step.folded, Instruction.folded, hset, hdest, harg, hrow, hrow']

/-- Whether a failure is that of an instruction. -/
def isExecution : Option ScoringError → Bool
  | some (.execution ..) => true
  | _ => false

/-- Both fail at the product. -/
theorem apply_alike_of_respelled_rowProduct :
    ∃ (p : Place (rowProduct "row" "ROW" "Scaled" "scaled").model)
      (q : Place (rowProduct "Row" "row" "SCALED" "sCaLeD").model) (e e' : ScoringError),
      p.earlier.length = q.earlier.length ∧ p.done.length = q.done.length ∧
        p.Fails (Matrix.scalar 3.0) e ∧ q.Fails (Matrix.scalar 3.0) e' ∧ e.folded = e'.folded := by
  have hfailure : isExecution ((after (rowProduct "row" "ROW" "Scaled" "scaled") true
      [.setInput (Matrix.scalar 3.0)]).apply .still).2 = true := by decide +kernel
  obtain ⟨-, hnone | hmissing | ⟨p, q, e, e', hstep, hline, hp, -, hq, -, hfolded⟩⟩ :=
    apply_alike_of_respelled respelled_rowProduct true true [.setInput (Matrix.scalar 3.0)] .still
      .still
  · rw [hnone.1] at hfailure
    cases hfailure
  · rw [hmissing.1] at hfailure
    cases hfailure
  · exact ⟨p, q, e, e', hstep, hline, hp, hq, hfolded⟩

end Engine

end ModelScoring
