import ModelScoring.Scoring.Engine

/-!
# A run as one list of actions

The run of a model is nested.  It goes through the steps, and in each step through the constants
and then the script.  Here the same run is one list of *actions*.  An action gives one variable a
value, which is that of a constant or the result of an instruction.

`runModel_eq` says that both are the same run.  A statement about all runs is then one induction
over a list.  `runActions_append_ok` and `runActions_append_error` cut a run in two, and
`runActions_eq_error_iff` says where a run that ends early ends: at one action, in the workspace that
the actions before it leave behind.
-/

namespace ModelScoring

/-- What a run does next. -/
inductive Action
  /-- A constant is set. -/
  | assign (constant : Variable)
  /-- An instruction of a step, given by its description, is carried out. -/
  | execute (step : String) (instruction : Instruction)

namespace Action

/-- The variable that an action sets. -/
def target : Action → String
  | assign v => v.name
  | execute _ i => i.dest

/-- The value that an action gives it. -/
def value (W : Workspace) : Action → Except ScoringError Matrix
  | assign v => .ok v.value
  | execute step i => i.evaluate step W

end Action

/-- Carries out actions, up to the first that fails. -/
def runActions : List Action → Workspace → Progress
  | [], W => ⟨W, none⟩
  | a :: rest, W =>
    match a.value W with
    | .error e => ⟨W, some e⟩
    | .ok result => runActions rest (W.set a.target result)

def Step.actions (s : Step) : List Action :=
  s.constants.toList.map .assign ++ s.script.map (.execute s.description)

def Model.actions (m : Model) : List Action := m.steps.flatMap Step.actions

/-- The workspace that a run starts from. -/
def Workspace.ofInput (input : Matrix) : Workspace := Workspace.empty.set inputName input

/-! ## Cutting a run -/

theorem Progress.eq_of_failure_eq {P : Progress} {failure : Option ScoringError}
    (h : P.failure = failure) : P = ⟨P.workspace, failure⟩ := by
  rw [← h]

theorem runActions_cons_ok {a : Action} {W : Workspace} {result : Matrix}
    (h : a.value W = .ok result) (rest : List Action) :
    runActions (a :: rest) W = runActions rest (W.set a.target result) := by
  rw [runActions, h]

theorem runActions_cons_error {a : Action} {W : Workspace} {e : ScoringError}
    (h : a.value W = .error e) (rest : List Action) : runActions (a :: rest) W = ⟨W, some e⟩ := by
  rw [runActions, h]

/-- Actions that succeed are followed by the others, from where they have come to. -/
theorem runActions_append_ok {before : List Action} {W V : Workspace}
    (h : runActions before W = ⟨V, none⟩) (after : List Action) :
    runActions (before ++ after) W = runActions after V := by
  induction before generalizing W with
  | nil =>
    cases h
    rfl
  | cons a before ih =>
    cases ha : a.value W with
    | error e =>
      rw [runActions_cons_error ha] at h
      cases h
    | ok result =>
      rw [runActions_cons_ok ha] at h
      rw [List.cons_append, runActions_cons_ok ha]
      exact ih h

/-- After actions that fail there are no others. -/
theorem runActions_append_error {before : List Action} {W V : Workspace} {e : ScoringError}
    (h : runActions before W = ⟨V, some e⟩) (after : List Action) :
    runActions (before ++ after) W = ⟨V, some e⟩ := by
  induction before generalizing W with
  | nil => cases h
  | cons a before ih =>
    cases ha : a.value W with
    | error e =>
      rw [runActions_cons_error ha] at h
      rw [List.cons_append, runActions_cons_error ha, h]
    | ok result =>
      rw [runActions_cons_ok ha] at h
      rw [List.cons_append, runActions_cons_ok ha]
      exact ih h

/-- A run up to some action of a run that succeeds has succeeded, and so does that action. -/
theorem value_of_runActions_ok {before after : List Action} {a : Action} {W U : Workspace}
    (h : runActions (before ++ a :: after) W = ⟨U, none⟩) :
    ∃ V result, runActions before W = ⟨V, none⟩ ∧ a.value V = .ok result := by
  match hb : runActions before W with
  | ⟨V, some e⟩ =>
    rw [runActions_append_error hb] at h
    cases h
  | ⟨V, none⟩ =>
    rw [runActions_append_ok hb] at h
    cases ha : a.value V with
    | error e =>
      rw [runActions_cons_error ha] at h
      cases h
    | ok result => exact ⟨V, result, rfl, ha⟩

/-- A run ends early at one action, in the workspace that the actions before it leave. -/
theorem runActions_eq_error_iff {actions : List Action} {W V : Workspace} {e : ScoringError} :
    runActions actions W = ⟨V, some e⟩ ↔
      ∃ before a after, actions = before ++ a :: after ∧
        runActions before W = ⟨V, none⟩ ∧ a.value V = .error e := by
  constructor
  · intro h
    induction actions generalizing W with
    | nil => cases h
    | cons a rest ih =>
      cases ha : a.value W with
      | error e' =>
        rw [runActions_cons_error ha] at h
        cases h
        exact ⟨[], a, rest, rfl, rfl, ha⟩
      | ok result =>
        rw [runActions_cons_ok ha] at h
        obtain ⟨before, b, after, hsplit, hbefore, hb⟩ := ih h
        refine ⟨a :: before, b, after, by rw [hsplit, List.cons_append], ?_, hb⟩
        rw [runActions_cons_ok ha]
        exact hbefore
  · rintro ⟨before, a, after, rfl, hbefore, ha⟩
    rw [runActions_append_ok hbefore, runActions_cons_error ha]

/-! ## The run of a model -/

theorem runActions_assign (constants : List Variable) (W : Workspace) :
    runActions (constants.map .assign) W = ⟨W.setAll constants, none⟩ := by
  induction constants generalizing W with
  | nil => rfl
  | cons v constants ih => exact ih (W.set v.name v.value)

theorem runActions_execute (step : String) (script : List Instruction) (W : Workspace) :
    runActions (script.map (.execute step)) W = runScript step script W := by
  induction script generalizing W with
  | nil => rfl
  | cons i script ih =>
    have hvalue : (Action.execute step i).value W = i.evaluate step W := rfl
    rw [List.map_cons, runScript]
    cases hi : i.evaluate step W with
    | error e => exact runActions_cons_error (hvalue.trans hi) _
    | ok result => exact (runActions_cons_ok (hvalue.trans hi) _).trans (ih _)

theorem Step.run_eq (s : Step) (W : Workspace) : s.run W = runActions s.actions W := by
  rw [Step.actions, runActions_append_ok (runActions_assign _ W), runActions_execute]
  rfl

theorem runSteps_eq (steps : List Step) (W : Workspace) :
    runSteps steps W = runActions (steps.flatMap Step.actions) W := by
  induction steps generalizing W with
  | nil => rfl
  | cons s steps ih =>
    rw [List.flatMap_cons, runSteps, Step.run_eq]
    match hs : runActions s.actions W with
    | ⟨V, none⟩ => exact (ih V).trans (runActions_append_ok hs _).symm
    | ⟨V, some e⟩ => exact (runActions_append_error hs _).symm

/-- A run of a model does its actions. -/
theorem runModel_eq (m : OrderedModel) (input : Matrix) :
    runModel m input = runActions m.model.actions (.ofInput input) := runSteps_eq _ _

end ModelScoring
