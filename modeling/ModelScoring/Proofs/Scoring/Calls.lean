import ModelScoring.Scoring.Engine

/-!
# Engines and running from scratch

An engine keeps the variables of its last run, so that it need not run the model again for every
question.  A *rescorer* keeps nothing but the current input and whether the model was asked for
since.  It runs the model anew for every answer that depends on a run.  Both understand the same
calls.

`Rescorer.Represents` relates a rescorer to an engine in the same situation.  `Represents.call` says
that a call keeps them in the same situation and gets the same answer from both, and
`Represents.calls` says it of any sequence of calls.  `Engine.FromScratch` is what this means for the
engine alone.
-/

namespace ModelScoring

inductive Call
  | setInput (input : Matrix)
  | setInputRow (values : Array Float)
  | apply (clock : Clock)
  | results
  | resultWorkspace
  | getVar (name : String)
  /-- The workspace is asked for, whether the model has been applied or not. -/
  | workspace
  | input

/-- Whether a call only asks for something. -/
def Call.IsQuestion : Call → Prop
  | .setInput _ | .setInputRow _ | .apply _ => False
  | .results | .resultWorkspace | .getVar _ | .workspace | .input => True

/-- What a call is answered with. -/
inductive Answer
  | done
  | refused (reason : ScoringError)
  | listing (entries : List (String × Matrix))
  | workspace (W : Workspace)
  | matrix (A : Matrix)

namespace Answer

/-- What was asked for, or why it cannot be had. -/
def ofExcept {α : Type} (answer : α → Answer) : Except ScoringError α → Answer
  | .ok x => answer x
  | .error reason => refused reason

/-- Nothing but whether something went wrong. -/
def ofFailure : Option ScoringError → Answer
  | none => done
  | some reason => refused reason

/-- The names and values of a workspace. -/
def ofWorkspace (W : Workspace) : Answer := listing (W.toList.map fun v => (v.name, v.value))

/-- The next state and that it is done, or the old state and why it is kept. -/
def moving {α : Type} (old : α) : Except ScoringError α → α × Answer
  | .ok next => (next, done)
  | .error reason => (old, refused reason)

end Answer

namespace Engine

/-- An engine after a call, and the answer. -/
def call (e : Engine) : Call → Engine × Answer
  | .setInput input => Answer.moving e (e.setInput input)
  | .setInputRow values => Answer.moving e (e.setInputRow values)
  | .apply clock => ((e.apply clock).1, Answer.ofFailure (e.apply clock).2)
  | .results => (e, Answer.ofExcept Answer.ofWorkspace e.results)
  | .resultWorkspace => (e, Answer.ofExcept Answer.workspace e.results)
  | .getVar name => (e, Answer.ofExcept Answer.matrix (e.get name))
  | .workspace => (e, .workspace e.workspace)
  | .input => (e, .matrix e.input)

/-- An engine after some calls, and the answers. -/
def calls (e : Engine) : List Call → Engine × List Answer
  | [] => (e, [])
  | c :: cs => (((e.call c).1.calls cs).1, (e.call c).2 :: ((e.call c).1.calls cs).2)

/-! ## What an input does -/

/-- An engine that has just been given an input. -/
def given (e : Engine) (input : Matrix) : Engine :=
  { e with input := input, workspace := Workspace.empty, phase := .idle, timing := none }

theorem setInput_of_fault {e : Engine} {input : Matrix} {fault : ScoringError}
    (h : inputFault? e.model.model input = some fault) : e.setInput input = .error fault := by
  rw [setInput, h]

theorem setInput_of_fits {e : Engine} {input : Matrix}
    (h : inputFault? e.model.model input = none) : e.setInput input = .ok (e.given input) := by
  rw [setInput, h]
  rfl

theorem setInput_cases (e : Engine) (input : Matrix) :
    (∃ reason, e.setInput input = .error reason) ∨ e.setInput input = .ok (e.given input) := by
  cases h : inputFault? e.model.model input with
  | some fault => exact .inl ⟨fault, setInput_of_fault h⟩
  | none => exact .inr (setInput_of_fits h)

theorem setInputRow_cases (e : Engine) (values : Array Float) :
    (∃ reason, e.setInputRow values = .error reason) ∨
      ∃ input, e.setInputRow values = .ok (e.given input) := by
  unfold setInputRow
  cases Matrix.ofRow values with
  | error fault => exact .inl ⟨.halted, rfl⟩
  | ok input => exact (e.setInput_cases input).imp_right fun h => ⟨input, h⟩

/-! ## What applying the model does -/

theorem results_of_applied {e : Engine} (h : e.phase = .applied) :
    e.results = .ok e.workspace := by
  rw [results, h]

theorem apply_of_applied {e : Engine} (h : e.phase = .applied) (clock : Clock) :
    e.apply clock = (e, none) := by
  rw [apply, h]

theorem apply_of_missing {e : Engine} (h : e.phase = .idle) (hrows : e.input.rows = 0)
    (clock : Clock) : e.apply clock = (e, some .inputMissing) := by
  rw [apply, h]
  exact if_pos hrows

theorem apply_of_error {e : Engine} {W : Workspace} {reason : ScoringError}
    (h : e.phase = .idle) (hrows : e.input.rows ≠ 0)
    (hrun : runModel e.model e.input = ⟨W, some reason⟩) (clock : Clock) :
    e.apply clock = ({ e with workspace := W }, some reason) := by
  rw [apply, h, run_eq_runModel, hrun]
  exact if_neg hrows

/-- The timing of a run that succeeds, if the engine takes timings. -/
def timing? (e : Engine) (clock : Clock) (W : Workspace) : Option Timing :=
  if e.profiling then some (timingOf e.model.model clock W.size) else none

theorem apply_of_ok {e : Engine} {W : Workspace} (h : e.phase = .idle)
    (hrows : e.input.rows ≠ 0) (hrun : runModel e.model e.input = ⟨W, none⟩) (clock : Clock) :
    e.apply clock =
      ({ e with workspace := W, phase := .applied, timing := e.timing? clock W }, none) := by
  rw [apply, h, run_eq_runModel, hrun]
  exact if_neg hrows

theorem apply_cases (e : Engine) (clock : Clock) :
    (e.phase = .applied ∧ e.apply clock = (e, none)) ∨
    (e.phase = .idle ∧ e.input.rows = 0 ∧ e.apply clock = (e, some .inputMissing)) ∨
    (∃ W reason, e.phase = .idle ∧ e.input.rows ≠ 0 ∧
      runModel e.model e.input = ⟨W, some reason⟩ ∧
      e.apply clock = ({ e with workspace := W }, some reason)) ∨
    ∃ W, e.phase = .idle ∧ e.input.rows ≠ 0 ∧ runModel e.model e.input = ⟨W, none⟩ ∧
      e.apply clock =
        ({ e with workspace := W, phase := .applied, timing := e.timing? clock W }, none) := by
  have hphase : e.phase = .applied ∨ e.phase = .idle := by cases e.phase <;> simp
  rcases hphase with hp | hp
  · exact .inl ⟨hp, apply_of_applied hp clock⟩
  · by_cases hrows : e.input.rows = 0
    · exact .inr (.inl ⟨hp, hrows, apply_of_missing hp hrows clock⟩)
    · match hrun : runModel e.model e.input with
      | ⟨W, some reason⟩ =>
        exact .inr (.inr (.inl ⟨W, reason, hp, hrows, rfl, apply_of_error hp hrows hrun clock⟩))
      | ⟨W, none⟩ =>
        exact .inr (.inr (.inr ⟨W, hp, hrows, rfl, apply_of_ok hp hrows hrun clock⟩))

/-- A call leaves an engine as it is, gives it an input, or applies its model. -/
theorem call_cases (e : Engine) (c : Call) :
    (e.call c).1 = e ∨ (∃ input, (e.call c).1 = e.given input) ∨
      ∃ clock, (e.call c).1 = (e.apply clock).1 := by
  cases c with
  | setInput input =>
    rcases e.setInput_cases input with ⟨reason, h⟩ | h
    · exact .inl (congrArg (fun next => (Answer.moving e next).1) h)
    · exact .inr (.inl ⟨input, congrArg (fun next => (Answer.moving e next).1) h⟩)
  | setInputRow values =>
    rcases e.setInputRow_cases values with ⟨reason, h⟩ | ⟨input, h⟩
    · exact .inl (congrArg (fun next => (Answer.moving e next).1) h)
    · exact .inr (.inl ⟨input, congrArg (fun next => (Answer.moving e next).1) h⟩)
  | apply clock => exact .inr (.inr ⟨clock, rfl⟩)
  | results | resultWorkspace | getVar | workspace | input => exact .inl rfl

end Engine

/-! ## Rescorers -/

/-- A machine that answers the calls on an engine for a model and keeps no variables. -/
structure Rescorer (m : OrderedModel) where
  input : Matrix
  /-- Whether the model has been asked for since that input was given. -/
  asked : Bool

namespace Rescorer

variable {m : OrderedModel}

/-- A rescorer that has no input yet. -/
def ofModel (m : OrderedModel) : Rescorer m := ⟨Matrix.empty, false⟩

/-- The run on the current input. -/
def outcome (r : Rescorer m) : Progress := runModel m r.input

/-- What the run leaves behind, if the model has been asked for. -/
def workspace (r : Rescorer m) : Workspace :=
  if r.asked then r.outcome.workspace else Workspace.empty

/-- Whether there are results: the model has been asked for, and its run succeeds. -/
def phase (r : Rescorer m) : Phase :=
  if r.asked && r.outcome.failure.isNone then .applied else .idle

def results (r : Rescorer m) : Except ScoringError Workspace :=
  match r.phase with
  | .applied => .ok r.outcome.workspace
  | .idle => .error .notApplied

/-- The value of a variable of the run. -/
def get (r : Rescorer m) (name : String) : Except ScoringError Matrix :=
  match r.results with
  | .error reason => .error reason
  | .ok W => (W.get name).mapError .notSet

/-- Takes an input of at most one row and of the width of the model. -/
def setInput (_ : Rescorer m) (input : Matrix) : Except ScoringError (Rescorer m) :=
  if 1 < input.rows then .error (.tooManyRows input.rows)
  else if input.cols ≠ m.model.width then
    .error (.columnMismatch m.model.width input.cols)
  else .ok ⟨input, false⟩

/-- Takes a row of values. -/
def setInputRow (r : Rescorer m) (values : Array Float) : Except ScoringError (Rescorer m) :=
  match Matrix.ofRow values with
  | .ok input => r.setInput input
  | .error _ => .error .halted

/-- Asks for the model, unless there is no input row. -/
def apply (r : Rescorer m) : Rescorer m × Option ScoringError :=
  if r.input.rows = 0 then (r, some .inputMissing) else ({ r with asked := true }, r.outcome.failure)

/-- A rescorer after a call, and the answer. -/
def call (r : Rescorer m) : Call → Rescorer m × Answer
  | .setInput input => Answer.moving r (r.setInput input)
  | .setInputRow values => Answer.moving r (r.setInputRow values)
  | .apply _ => (r.apply.1, Answer.ofFailure r.apply.2)
  | .results => (r, Answer.ofExcept Answer.ofWorkspace r.results)
  | .resultWorkspace => (r, Answer.ofExcept Answer.workspace r.results)
  | .getVar name => (r, Answer.ofExcept Answer.matrix (r.get name))
  | .workspace => (r, .workspace r.workspace)
  | .input => (r, .matrix r.input)

/-- A rescorer after some calls, and the answers. -/
def calls (r : Rescorer m) : List Call → Rescorer m × List Answer
  | [] => (r, [])
  | c :: cs => (((r.call c).1.calls cs).1, (r.call c).2 :: ((r.call c).1.calls cs).2)

/-! ## The same situation -/

/-- A rescorer and an engine are in the same situation. -/
structure Represents (r : Rescorer m) (e : Engine) : Prop where
  model : e.model = m
  input : e.input = r.input
  rows_le : r.input.rows ≤ 1
  /-- The model is never asked for without an input row. -/
  rows_of_asked : r.asked = true → r.input.rows ≠ 0
  workspace : e.workspace = r.workspace
  phase : e.phase = r.phase

theorem represents_ofModel (m : OrderedModel) (profiling : Bool) :
    (ofModel m).Represents (Engine.ofModel m profiling) where
  model := rfl
  input := rfl
  rows_le := Nat.zero_le 1
  rows_of_asked := fun h => nomatch h
  workspace := rfl
  phase := rfl

theorem phase_eq_applied_iff {r : Rescorer m} :
    r.phase = .applied ↔ r.asked = true ∧ r.outcome.failure = none := by
  simp [phase]

theorem phase_eq_idle_iff {r : Rescorer m} :
    r.phase = .idle ↔ r.asked = false ∨ r.outcome.failure ≠ none := by
  unfold phase
  split
  next h =>
    rw [Bool.and_eq_true, Option.isNone_iff_eq_none] at h
    simp [h.1, h.2]
  next h =>
    rw [Bool.and_eq_true, Option.isNone_iff_eq_none, not_and] at h
    simpa [← Bool.not_eq_true, Decidable.imp_iff_not_or] using h

namespace Represents

variable {r : Rescorer m} {e : Engine}

theorem results_eq (h : r.Represents e) : e.results = r.results := by
  unfold Engine.results results
  rw [h.phase]
  cases hp : r.phase with
  | idle => rfl
  | applied =>
    have hw : e.workspace = r.outcome.workspace := by
      rw [h.workspace, Rescorer.workspace, if_pos (phase_eq_applied_iff.1 hp).1]
    rw [hw]

theorem get_eq (h : r.Represents e) (name : String) : e.get name = r.get name := by
  unfold Engine.get get
  rw [h.results_eq]
  cases r.results with
  | error reason => rfl
  | ok W =>
    dsimp only
    cases W.get name with
    | error fault => rfl
    | ok value => rfl

/-- Both take the same inputs and refuse the same inputs, for the same reason. -/
theorem setInput (h : r.Represents e) (input : Matrix) :
    (∃ reason, e.setInput input = .error reason ∧ r.setInput input = .error reason) ∨
      ∃ e' r', e.setInput input = .ok e' ∧ r.setInput input = .ok r' ∧ r'.Represents e' := by
  unfold Engine.setInput Engine.inputFault? Rescorer.setInput
  rw [h.model]
  by_cases hrows : 1 < input.rows
  · rw [if_pos hrows, if_pos hrows]
    exact .inl ⟨_, rfl, rfl⟩
  · rw [if_neg hrows, if_neg hrows]
    by_cases hcols : input.cols ≠ m.model.width
    · rw [if_pos hcols, if_pos hcols]
      exact .inl ⟨_, rfl, rfl⟩
    · rw [if_neg hcols, if_neg hcols]
      refine .inr ⟨_, _, rfl, rfl, ?_⟩
      exact
        { model := rfl
          input := rfl
          rows_le := Nat.le_of_not_lt hrows
          rows_of_asked := fun hasked => nomatch hasked
          workspace := rfl
          phase := rfl }

/-- A move that both make, or that both refuse, keeps them in the same situation. -/
theorem moving {next : Except ScoringError Engine} {next' : Except ScoringError (Rescorer m)}
    (h : r.Represents e)
    (hnext : (∃ reason, next = .error reason ∧ next' = .error reason) ∨
      ∃ e' r', next = .ok e' ∧ next' = .ok r' ∧ r'.Represents e') :
    (Answer.moving r next').1.Represents (Answer.moving e next).1 ∧
      (Answer.moving e next).2 = (Answer.moving r next').2 := by
  rcases hnext with ⟨reason, rfl, rfl⟩ | ⟨e', r', rfl, rfl, h'⟩
  · exact ⟨h, rfl⟩
  · exact ⟨h', rfl⟩

/-- The engine runs the model only if it is idle, and the rescorer every time. -/
theorem apply (h : r.Represents e) (clock : Clock) :
    r.apply.1.Represents (e.apply clock).1 ∧ (e.apply clock).2 = r.apply.2 := by
  have hrun : runModel e.model e.input = r.outcome := by rw [h.model, h.input, outcome]
  unfold Rescorer.apply
  cases hp : e.phase with
  | applied =>
    obtain ⟨hasked, hnone⟩ := phase_eq_applied_iff.1 (h.phase.symm.trans hp)
    have hsame : { r with asked := true } = r := by rw [← hasked]
    rw [Engine.apply_of_applied hp, if_neg (h.rows_of_asked hasked), hnone, hsame]
    exact ⟨h, rfl⟩
  | idle =>
    by_cases hrows : r.input.rows = 0
    · rw [Engine.apply_of_missing hp (by rw [h.input, hrows]), if_pos hrows]
      exact ⟨h, rfl⟩
    · have hrows' : e.input.rows ≠ 0 := by rw [h.input]; exact hrows
      rw [if_neg hrows]
      match hout : r.outcome with
      | ⟨W, some reason⟩ =>
        rw [Engine.apply_of_error hp hrows' (hrun.trans hout)]
        have hphase : Rescorer.phase { r with asked := true } = .idle :=
          phase_eq_idle_iff.2 (.inr fun hnone => by
            cases (congrArg Progress.failure hout).symm.trans hnone)
        exact ⟨⟨h.model, h.input, h.rows_le, fun _ => hrows,
          (congrArg Progress.workspace hout).symm, hp.trans hphase.symm⟩, rfl⟩
      | ⟨W, none⟩ =>
        rw [Engine.apply_of_ok hp hrows' (hrun.trans hout)]
        have hphase : Rescorer.phase { r with asked := true } = .applied :=
          phase_eq_applied_iff.2 ⟨rfl, congrArg Progress.failure hout⟩
        exact ⟨⟨h.model, h.input, h.rows_le, fun _ => hrows,
          (congrArg Progress.workspace hout).symm, hphase.symm⟩, rfl⟩

/-- A call keeps a rescorer and an engine in the same situation, and both answer the same. -/
theorem call (h : r.Represents e) (c : Call) :
    (r.call c).1.Represents (e.call c).1 ∧ (e.call c).2 = (r.call c).2 := by
  cases c with
  | setInput input => exact h.moving (h.setInput input)
  | setInputRow values =>
    refine h.moving ?_
    unfold Engine.setInputRow Rescorer.setInputRow
    cases Matrix.ofRow values with
    | error _ => exact .inl ⟨_, rfl, rfl⟩
    | ok input => exact h.setInput input
  | apply clock =>
    obtain ⟨hnext, hfailure⟩ := h.apply clock
    exact ⟨hnext, congrArg Answer.ofFailure hfailure⟩
  | results => exact ⟨h, congrArg (Answer.ofExcept Answer.ofWorkspace) h.results_eq⟩
  | resultWorkspace => exact ⟨h, congrArg (Answer.ofExcept Answer.workspace) h.results_eq⟩
  | getVar name => exact ⟨h, congrArg (Answer.ofExcept Answer.matrix) (h.get_eq name)⟩
  | workspace => exact ⟨h, congrArg Answer.workspace h.workspace⟩
  | input => exact ⟨h, congrArg Answer.matrix h.input⟩

/-- The same for any sequence of calls. -/
theorem calls (h : r.Represents e) (cs : List Call) :
    (r.calls cs).1.Represents (e.calls cs).1 ∧ (e.calls cs).2 = (r.calls cs).2 := by
  induction cs generalizing r e with
  | nil => exact ⟨h, rfl⟩
  | cons c cs ih =>
    obtain ⟨hnext, hanswer⟩ := h.call c
    obtain ⟨hlast, hanswers⟩ := ih hnext
    exact ⟨hlast, by rw [Engine.calls, Rescorer.calls, hanswer, hanswers]⟩

end Represents

end Rescorer

/-! ## The engine alone -/

namespace Engine

/-- What an engine for a model holds, said by runs of the model from scratch. -/
structure FromScratch (m : OrderedModel) (e : Engine) : Prop where
  model : e.model = m
  rows_le : e.input.rows ≤ 1
  /-- Once the model has been applied, there is the workspace of a run that succeeds. -/
  applied : e.phase = .applied → e.input.rows = 1 ∧ runModel m e.input = ⟨e.workspace, none⟩
  /-- Before, there is nothing or what a run that fails leaves behind. -/
  idle : e.phase = .idle → e.workspace = Workspace.empty ∨
    e.input.rows = 1 ∧ ∃ reason, runModel m e.input = ⟨e.workspace, some reason⟩

theorem fromScratch_of_represents {m : OrderedModel} {r : Rescorer m} {e : Engine}
    (h : r.Represents e) : e.FromScratch m where
  model := h.model
  rows_le := h.input ▸ h.rows_le
  applied := by
    intro hp
    obtain ⟨hasked, hnone⟩ := Rescorer.phase_eq_applied_iff.1 (h.phase.symm.trans hp)
    have hrows := h.rows_of_asked hasked
    have hle := h.rows_le
    rw [h.input, h.workspace, Rescorer.workspace, if_pos hasked, ← hnone]
    exact ⟨by omega, rfl⟩
  idle := by
    intro hp
    rw [h.input, h.workspace, Rescorer.workspace]
    cases hasked : r.asked with
    | false => exact .inl rfl
    | true =>
      have hfailure := (Rescorer.phase_eq_idle_iff.1 (h.phase.symm.trans hp)).resolve_left
        fun hno => nomatch hasked.symm.trans hno
      obtain ⟨reason, hreason⟩ := Option.ne_none_iff_exists'.1 hfailure
      have hrows := h.rows_of_asked hasked
      have hle := h.rows_le
      rw [if_pos rfl]
      exact .inr ⟨by omega, reason, by rw [← hreason]; rfl⟩

/-- The engine for a model after some calls. -/
def after (m : OrderedModel) (profiling : Bool) (cs : List Call) : Engine :=
  ((ofModel m profiling).calls cs).1

/-- Whatever is called, an engine holds what runs from scratch say. -/
theorem fromScratch_after (m : OrderedModel) (profiling : Bool) (cs : List Call) :
    (after m profiling cs).FromScratch m :=
  fromScratch_of_represents ((Rescorer.represents_ofModel m profiling).calls cs).1

namespace FromScratch

variable {m : OrderedModel} {e : Engine}

/-- With an input row, applying the model does what a run from scratch does. -/
theorem runModel_eq_apply (h : e.FromScratch m) (hrows : e.input.rows ≠ 0) (clock : Clock) :
    runModel m e.input = ⟨(e.apply clock).1.workspace, (e.apply clock).2⟩ := by
  cases hp : e.phase with
  | applied =>
    rw [apply_of_applied hp]
    exact (h.applied hp).2
  | idle =>
    match hrun : runModel m e.input with
    | ⟨W, some reason⟩ => rw [apply_of_error hp hrows (by rw [h.model, hrun])]
    | ⟨W, none⟩ => rw [apply_of_ok hp hrows (by rw [h.model, hrun])]

/-- Why applying the model fails, if it does. -/
theorem failure_apply (h : e.FromScratch m) (clock : Clock) :
    (e.apply clock).2 =
      if e.input.rows = 0 then some .inputMissing else (runModel m e.input).failure := by
  by_cases hrows : e.input.rows = 0
  · rw [if_pos hrows]
    cases hp : e.phase with
    | applied =>
      have hone := (h.applied hp).1
      omega
    | idle => rw [apply_of_missing hp hrows]
  · rw [if_neg hrows, h.runModel_eq_apply hrows clock]

/-- Applying the model leaves the input, and there are results exactly if it does not fail. -/
theorem apply_keeps (h : e.FromScratch m) (clock : Clock) :
    (e.apply clock).1.input = e.input ∧
      ((e.apply clock).1.phase = .applied ↔ (e.apply clock).2 = none) := by
  cases hp : e.phase with
  | applied =>
    rw [apply_of_applied hp]
    exact ⟨rfl, fun _ => rfl, fun _ => hp⟩
  | idle =>
    by_cases hrows : e.input.rows = 0
    · rw [apply_of_missing hp hrows]
      exact ⟨rfl, by simp [hp]⟩
    · match hrun : runModel m e.input with
      | ⟨W, some reason⟩ =>
        rw [apply_of_error hp hrows (by rw [h.model, hrun])]
        exact ⟨rfl, by simp [hp]⟩
      | ⟨W, none⟩ =>
        rw [apply_of_ok hp hrows (by rw [h.model, hrun])]
        exact ⟨rfl, fun _ => rfl, fun _ => rfl⟩

/-- Applying the model once more after a failure fails in the same way and changes nothing. -/
theorem apply_apply_of_error (h : e.FromScratch m) {clock : Clock} {reason : ScoringError}
    (hfail : (e.apply clock).2 = some reason) (clock' : Clock) :
    (e.apply clock).1.apply clock' = ((e.apply clock).1, some reason) := by
  cases hp : e.phase with
  | applied =>
    rw [apply_of_applied hp] at hfail
    cases hfail
  | idle =>
    by_cases hrows : e.input.rows = 0
    · rw [apply_of_missing hp hrows] at hfail ⊢
      cases hfail
      exact apply_of_missing hp hrows clock'
    · match hrun : runModel m e.input with
      | ⟨W, some reason'⟩ =>
        have hrun' : runModel e.model e.input = ⟨W, some reason'⟩ := by rw [h.model, hrun]
        rw [apply_of_error hp hrows hrun'] at hfail ⊢
        cases hfail
        exact apply_of_error (e := { e with workspace := W }) hp hrows hrun' clock'
      | ⟨W, none⟩ =>
        rw [apply_of_ok hp hrows (by rw [h.model, hrun])] at hfail
        cases hfail

end FromScratch

/-- A refused input leaves the engine as it is. -/
theorem call_of_refused {e : Engine} {next : Except ScoringError Engine} {reason : ScoringError}
    (h : (Answer.moving e next).2 = .refused reason) : (Answer.moving e next).1 = e := by
  cases next with
  | error _ => rfl
  | ok e' => cases h

theorem call_of_isQuestion {e : Engine} {c : Call} (h : c.IsQuestion) : (e.call c).1 = e := by
  cases c with
  | setInput | setInputRow | apply => cases h
  | results | resultWorkspace | getVar | workspace | input => rfl

/-- An engine answers any sequence of calls as a rescorer does.  It holds what runs from scratch
say, and so: refused inputs and questions change nothing; applying an applied model changes nothing
and succeeds; without an input row, applying it fails and changes nothing; with one, applying it
does what a run from scratch does, and after a failure does it again. -/
theorem calls_eq_from_scratch (m : OrderedModel) (profiling : Bool) (cs : List Call) :
    ((ofModel m profiling).calls cs).2 = ((Rescorer.ofModel m).calls cs).2 ∧
      (after m profiling cs).FromScratch m ∧
      (∀ input reason, ((after m profiling cs).call (.setInput input)).2 = .refused reason →
        ((after m profiling cs).call (.setInput input)).1 = after m profiling cs) ∧
      (∀ values reason, ((after m profiling cs).call (.setInputRow values)).2 = .refused reason →
        ((after m profiling cs).call (.setInputRow values)).1 = after m profiling cs) ∧
      (∀ c : Call, c.IsQuestion → ((after m profiling cs).call c).1 = after m profiling cs) ∧
      (∀ clock, (after m profiling cs).phase = .applied →
        (after m profiling cs).apply clock = (after m profiling cs, none)) ∧
      (∀ clock, (after m profiling cs).phase = .idle → (after m profiling cs).input.rows = 0 →
        (after m profiling cs).apply clock = (after m profiling cs, some .inputMissing)) ∧
      (∀ clock, (after m profiling cs).phase = .idle → (after m profiling cs).input.rows = 1 →
        runModel m (after m profiling cs).input =
          ⟨((after m profiling cs).apply clock).1.workspace,
            ((after m profiling cs).apply clock).2⟩ ∧
        ((after m profiling cs).apply clock).1.input = (after m profiling cs).input ∧
        (((after m profiling cs).apply clock).1.phase = .applied ↔
          ((after m profiling cs).apply clock).2 = none)) ∧
      ∀ clock clock' reason, ((after m profiling cs).apply clock).2 = some reason →
        ((after m profiling cs).apply clock).1.apply clock' =
          (((after m profiling cs).apply clock).1, some reason) := by
  have h := fromScratch_after m profiling cs
  refine ⟨((Rescorer.represents_ofModel m profiling).calls cs).2, h, ?_, ?_, ?_, ?_, ?_, ?_, ?_⟩
  · intro input reason hrefused
    exact call_of_refused hrefused
  · intro values reason hrefused
    exact call_of_refused hrefused
  · intro c hc
    exact call_of_isQuestion hc
  · intro clock hp
    exact apply_of_applied hp clock
  · intro clock hp hrows
    exact apply_of_missing hp hrows clock
  · intro clock _ hrows
    exact ⟨h.runModel_eq_apply (by omega) clock, h.apply_keeps clock⟩
  · intro clock clock' reason hfail
    exact h.apply_apply_of_error hfail clock'

end Engine

end ModelScoring
