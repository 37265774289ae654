import ModelScoring.Proofs.Scoring.Actions

/-!
# Places of a model

A *place* is an instruction of a model together with what comes before and after it.  A run gets to
a place, in some workspace, if everything before it succeeds and leaves that workspace.

`runModel_eq_error_iff` says that a run ends early exactly if it gets to a place whose instruction
fails.  `Place.Reached.earlier` says that a run that gets to a place has carried out every
instruction before it.
-/

namespace ModelScoring

/-- The instruction that an action carries out, if it carries out one. -/
def Action.instruction? : Action → Option Instruction
  | assign _ => none
  | execute _ i => some i

/-- An instruction of a model, and what comes before and after it. -/
structure Place (m : Model) where
  /-- The steps before that of the instruction. -/
  earlier : List Step
  step : Step
  /-- The steps after it. -/
  later : List Step
  steps_eq : m.steps = earlier ++ step :: later
  /-- The instructions of the same step that come first. -/
  done : List Instruction
  instruction : Instruction
  /-- The instructions of the same step that come after it. -/
  rest : List Instruction
  script_eq : step.script = done ++ instruction :: rest

namespace Place

variable {m : Model}

/-- The instructions that come before, in the order in which they are carried out. -/
def prior (p : Place m) : List Instruction := p.earlier.flatMap Step.script ++ p.done

def position (p : Place m) : Nat := p.prior.length

def action (p : Place m) : Action := .execute p.step.description p.instruction

def before (p : Place m) : List Action :=
  p.earlier.flatMap Step.actions ++
    (p.step.constants.toList.map .assign ++ p.done.map (.execute p.step.description))

def behind (p : Place m) : List Action :=
  p.rest.map (.execute p.step.description) ++ p.later.flatMap Step.actions

/-- The result of the instruction in a workspace. -/
def evaluate (p : Place m) (W : Workspace) : Except ScoringError Matrix :=
  p.instruction.evaluate p.step.description W

/-- A run on an input gets to the instruction, in a workspace. -/
def Reached (p : Place m) (input : Matrix) (V : Workspace) : Prop :=
  ∃ U, runSteps p.earlier (.ofInput input) = ⟨U, none⟩ ∧
    runScript p.step.description p.done (U.merge p.step.constants) = ⟨V, none⟩

theorem instruction_mem (p : Place m) :
    p.step ∈ m.steps ∧ p.instruction ∈ p.step.script := by
  rw [p.steps_eq, p.script_eq]
  simp

/-! ## Places among actions -/

theorem actions_eq (p : Place m) : m.actions = p.before ++ p.action :: p.behind := by
  rw [Model.actions, p.steps_eq, List.flatMap_append, List.flatMap_cons, Step.actions, p.script_eq,
    List.map_append, List.map_cons, before, behind, action]
  simp only [List.append_assoc, List.cons_append]

/-- A member of a list made of lists is a member of one of them. -/
theorem split_of_flatMap_eq {α β : Type} {f : α → List β} {xs : List α} {before after : List β}
    {b : β} (h : xs.flatMap f = before ++ b :: after) :
    ∃ earlier x later first last, xs = earlier ++ x :: later ∧ f x = first ++ b :: last ∧
      before = earlier.flatMap f ++ first := by
  induction xs generalizing before with
  | nil => exact absurd h (by simp)
  | cons x xs ih =>
    rw [List.flatMap_cons] at h
    rcases List.append_eq_append_iff.1 h with ⟨front, rfl, hrest⟩ | ⟨back, hx, hback⟩
    · obtain ⟨earlier, y, later, first, last, rfl, hy, rfl⟩ := ih hrest
      exact ⟨x :: earlier, y, later, first, last, rfl, hy, by simp⟩
    · cases back with
      | nil =>
        obtain ⟨earlier, y, later, first, last, rfl, hy, hnil⟩ := @ih [] (by simpa using hback.symm)
        refine ⟨x :: earlier, y, later, first, last, rfl, hy, ?_⟩
        rw [List.append_nil] at hx
        rw [List.flatMap_cons, List.append_assoc, ← hnil, List.append_nil, hx]
      | cons c back =>
        obtain ⟨rfl, -⟩ := List.cons.inj hback
        exact ⟨[], x, xs, before, back, rfl, hx, rfl⟩

/-- The instructions of a step stand behind its constants. -/
theorem split_of_step_actions_eq {s : Step} {first last : List Action} {step : String}
    {i : Instruction} (h : s.actions = first ++ .execute step i :: last) :
    ∃ done rest, s.script = done ++ i :: rest ∧ step = s.description ∧
      first = s.constants.toList.map .assign ++ done.map (.execute s.description) := by
  rcases List.append_eq_append_iff.1 h with ⟨front, hfirst, hscript⟩ | ⟨back, hconstants, hback⟩
  · obtain ⟨done, tail, hsplit, hdone, htail⟩ := List.map_eq_append_iff.1 hscript
    obtain ⟨j, rest, rfl, hj, -⟩ := List.map_eq_cons_iff.1 htail
    cases hj
    exact ⟨done, rest, hsplit, rfl, by rw [hfirst, hdone]⟩
  · cases back with
    | nil =>
      obtain ⟨j, rest, hsplit, hj, -⟩ := List.map_eq_cons_iff.1 hback.symm
      cases hj
      exact ⟨[], rest, hsplit, rfl, by simpa using hconstants.symm⟩
    | cons a back =>
      obtain ⟨rfl, -⟩ := List.cons.inj hback
      have hmem : Action.execute step i ∈ s.constants.toList.map Action.assign := by
        rw [hconstants]
        exact List.mem_append_right _ List.mem_cons_self
      obtain ⟨_, -, hne⟩ := List.mem_map.1 hmem
      cases hne

/-- An instruction among the actions of a model is one at a place. -/
theorem exists_of_actions_eq {before after : List Action} {step : String} {i : Instruction}
    (h : m.actions = before ++ .execute step i :: after) :
    ∃ p : Place m, p.action = .execute step i ∧ p.before = before := by
  obtain ⟨earlier, s, later, first, last, hsteps, hs, rfl⟩ := split_of_flatMap_eq h
  obtain ⟨done, rest, hscript, rfl, rfl⟩ := split_of_step_actions_eq hs
  exact ⟨⟨earlier, s, later, hsteps, done, i, rest, hscript⟩, rfl, rfl⟩

/-! ## The order of places -/

theorem filterMap_assign (constants : List Variable) :
    (constants.map Action.assign).filterMap Action.instruction? = [] := by
  rw [List.filterMap_map]
  exact List.filterMap_eq_nil_iff.2 fun _ _ => rfl

theorem filterMap_execute (step : String) (script : List Instruction) :
    (script.map (Action.execute step)).filterMap Action.instruction? = script := by
  rw [List.filterMap_map]
  exact List.filterMap_some

theorem filterMap_actions (s : Step) : s.actions.filterMap Action.instruction? = s.script := by
  rw [Step.actions, List.filterMap_append, filterMap_assign, filterMap_execute, List.nil_append]

/-- The instructions among the actions that come before are those that come before. -/
theorem filterMap_before (p : Place m) : p.before.filterMap Action.instruction? = p.prior := by
  have hearlier : (p.earlier.flatMap Step.actions).filterMap Action.instruction? =
      p.earlier.flatMap Step.script := by
    rw [List.filterMap_flatMap]
    exact congrArg (List.flatMap · p.earlier) (funext filterMap_actions)
  rw [before, List.filterMap_append, List.filterMap_append, hearlier, filterMap_assign,
    filterMap_execute, List.nil_append, prior]

/-- Of two places one comes first. -/
theorem before_of_position_lt {p q : Place m} (h : q.position < p.position) :
    ∃ between, p.before = q.before ++ q.action :: between := by
  have hpos : (q.before.filterMap Action.instruction?).length <
      (p.before.filterMap Action.instruction?).length := by
    rw [filterMap_before, filterMap_before]
    exact h
  rcases List.append_eq_append_iff.1 (q.actions_eq.symm.trans p.actions_eq) with
    ⟨back, hp, hback⟩ | ⟨front, hq, -⟩
  · cases back with
    | nil =>
      rw [hp, List.append_nil] at hpos
      exact absurd hpos (Nat.lt_irrefl _)
    | cons a between =>
      obtain ⟨rfl, -⟩ := List.cons.inj hback
      exact ⟨between, hp⟩
  · rw [hq, List.filterMap_append, List.length_append] at hpos
    omega

/-! ## Runs and places -/

theorem reached_iff {p : Place m} {input : Matrix} {V : Workspace} :
    p.Reached input V ↔ runActions p.before (.ofInput input) = ⟨V, none⟩ := by
  have hstep (U : Workspace) :
      runActions (p.step.constants.toList.map .assign ++
        p.done.map (.execute p.step.description)) U =
        runScript p.step.description p.done (U.merge p.step.constants) := by
    rw [runActions_append_ok (runActions_assign _ U), runActions_execute]
    rfl
  unfold Reached
  rw [before, runSteps_eq]
  match he : runActions (p.earlier.flatMap Step.actions) (.ofInput input) with
  | ⟨U, none⟩ =>
    rw [runActions_append_ok he, hstep]
    constructor
    · rintro ⟨_, hU, hV⟩
      cases hU
      exact hV
    · intro hV
      exact ⟨U, rfl, hV⟩
  | ⟨U, some e⟩ =>
    rw [runActions_append_error he]
    constructor
    · rintro ⟨_, hU, -⟩
      cases hU
    · intro hV
      cases hV

/-- A run that gets to a place has carried out the instructions before it. -/
theorem Reached.earlier {p q : Place m} {input : Matrix} {V : Workspace}
    (hp : p.Reached input V) (h : q.position < p.position) :
    ∃ U result, q.Reached input U ∧ q.evaluate U = .ok result := by
  obtain ⟨between, hbefore⟩ := before_of_position_lt h
  rw [reached_iff, hbefore] at hp
  obtain ⟨U, result, hU, hresult⟩ := value_of_runActions_ok hp
  exact ⟨U, result, reached_iff.2 hU, hresult⟩

end Place

/-- A run that succeeds gets to every place and carries out its instruction. -/
theorem Place.reached_of_runModel_ok {m : OrderedModel} {input : Matrix} {U : Workspace}
    (h : runModel m input = ⟨U, none⟩) (p : Place m.model) :
    ∃ V result, p.Reached input V ∧ p.evaluate V = .ok result := by
  rw [runModel_eq, p.actions_eq] at h
  obtain ⟨V, result, hV, hresult⟩ := value_of_runActions_ok h
  exact ⟨V, result, Place.reached_iff.2 hV, hresult⟩

/-- A run ends early exactly if it gets to a place whose instruction fails. -/
theorem runModel_eq_error_iff {m : OrderedModel} {input : Matrix} {V : Workspace}
    {e : ScoringError} :
    runModel m input = ⟨V, some e⟩ ↔
      ∃ p : Place m.model, p.Reached input V ∧ p.evaluate V = .error e := by
  rw [runModel_eq, runActions_eq_error_iff]
  constructor
  · rintro ⟨before, a, after, hactions, hbefore, ha⟩
    cases a with
    | assign v => cases ha
    | execute step i =>
      obtain ⟨p, hp, rfl⟩ := Place.exists_of_actions_eq hactions
      cases hp
      exact ⟨p, Place.reached_iff.2 hbefore, ha⟩
  · rintro ⟨p, hp, he⟩
    exact ⟨p.before, p.action, p.behind, p.actions_eq, Place.reached_iff.1 hp, he⟩

end ModelScoring
