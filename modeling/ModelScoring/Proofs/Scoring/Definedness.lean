import ModelScoring.Proofs.Scoring.Calls
import ModelScoring.Proofs.Scoring.Places

/-!
# Names that are defined

Whether an operand has a value when a run gets to its instruction can be read off the model.  It
has one exactly if its name is that of the input, of a constant of the same or an earlier step, or
of the destination of an instruction that comes before, the case of ASCII letters aside.  The
operand is *defined* then.

`Place.Reached.isSet_iff` says so of any run that gets to the instruction, and
`Place.Reached.evaluate_eq_notSet_iff` that an instruction fails for a missing value exactly if one
of its operands is undefined, and that the first of these is named.
-/

namespace ModelScoring

open Text (fold)

/-! ## Set names -/

theorem Workspace.isSet_set (W : Workspace) (name query : String) (value : Matrix) :
    (W.set name value).isSet query = true ↔ fold name = fold query ∨ W.isSet query = true := by
  unfold isSet
  rw [find?_set]
  by_cases h : fold query = fold name
  · simp [h]
  · have hne : ¬fold name = fold query := fun heq => h heq.symm
    simp [h, hne]

/-- Some action sets a variable of that name. -/
def Sets (actions : List Action) (name : String) : Prop :=
  ∃ a ∈ actions, fold a.target = fold name

theorem sets_cons {a : Action} {actions : List Action} {name : String} :
    Sets (a :: actions) name ↔ fold a.target = fold name ∨ Sets actions name := by
  simp [Sets]

theorem sets_append {actions others : List Action} {name : String} :
    Sets (actions ++ others) name ↔ Sets actions name ∨ Sets others name := by
  simp [Sets, or_and_right, exists_or]

theorem sets_assign {constants : List Variable} {name : String} :
    Sets (constants.map .assign) name ↔ ∃ v ∈ constants, fold v.name = fold name := by
  constructor
  · rintro ⟨a, ha, hname⟩
    obtain ⟨v, hv, rfl⟩ := List.mem_map.1 ha
    exact ⟨v, hv, hname⟩
  · rintro ⟨v, hv, hname⟩
    exact ⟨.assign v, List.mem_map_of_mem hv, hname⟩

theorem sets_execute {step : String} {script : List Instruction} {name : String} :
    Sets (script.map (.execute step)) name ↔ ∃ i ∈ script, fold i.dest = fold name := by
  constructor
  · rintro ⟨a, ha, hname⟩
    obtain ⟨i, hi, rfl⟩ := List.mem_map.1 ha
    exact ⟨i, hi, hname⟩
  · rintro ⟨i, hi, hname⟩
    exact ⟨.execute step i, List.mem_map_of_mem hi, hname⟩

theorem sets_flatMap {steps : List Step} {name : String} :
    Sets (steps.flatMap Step.actions) name ↔
      ∃ s ∈ steps, (∃ v ∈ s.constants.toList, fold v.name = fold name) ∨
        ∃ i ∈ s.script, fold i.dest = fold name := by
  induction steps with
  | nil => simp [Sets]
  | cons s steps ih =>
    rw [List.flatMap_cons, sets_append, ih, Step.actions, sets_append, sets_assign, sets_execute]
    simp only [List.mem_cons, or_and_right, exists_or, exists_eq_left]

/-- A run sets what its actions set and nothing else. -/
theorem isSet_of_runActions_ok {actions : List Action} {W V : Workspace}
    (h : runActions actions W = ⟨V, none⟩) (name : String) :
    V.isSet name = true ↔ Sets actions name ∨ W.isSet name = true := by
  induction actions generalizing W with
  | nil =>
    cases h
    simp [Sets]
  | cons a actions ih =>
    cases ha : a.value W with
    | error e =>
      rw [runActions_cons_error ha] at h
      cases h
    | ok result =>
      rw [runActions_cons_ok ha] at h
      rw [ih h, Workspace.isSet_set, sets_cons, or_left_comm, or_assoc]

theorem Workspace.isSet_ofInput (input : Matrix) (name : String) :
    (ofInput input).isSet name = true ↔ fold name = fold inputName := by
  rw [ofInput, isSet_set]
  constructor
  · rintro (h | h)
    · exact h.symm
    · cases h
  · exact fun h => .inl h.symm

/-! ## Operands -/

theorem Workspace.isSet_of_get_ok {W : Workspace} {name : String} {A : Matrix}
    (h : W.get name = .ok A) : W.isSet name = true := by
  unfold get at h
  unfold isSet
  cases hf : W.find? name with
  | none =>
    rw [hf] at h
    cases h
  | some _ => rfl

theorem Workspace.isSet_of_get_error {W : Workspace} {name : String} {e : NotSet}
    (h : W.get name = .error e) : W.isSet name = false ∧ e = ⟨name⟩ := by
  unfold get at h
  unfold isSet
  cases hf : W.find? name with
  | none =>
    rw [hf] at h
    cases h
    exact ⟨rfl, rfl⟩
  | some _ =>
    rw [hf] at h
    cases h

namespace Instruction

variable {i : Instruction} {W : Workspace}

/-- The first operand without a value. -/
def unset? (i : Instruction) (W : Workspace) : Option String :=
  i.operands.find? fun name => !W.isSet name

/-- Looking up the operands fails exactly if one has no value, and reports the first of them. -/
theorem unset?_eq (i : Instruction) (W : Workspace) :
    i.unset? W =
      match i.operandValues W with
      | .error e => some e.name
      | .ok _ => none := by
  unfold unset? operands
  rcases i.operandValues_cases W with ⟨e, h1, h⟩ | ⟨A, h1, h2, h⟩ | ⟨A, name, e, h1, h2, h3, h⟩ |
    ⟨A, name, B, h1, h2, h3, h⟩
  · obtain ⟨hset1, rfl⟩ := Workspace.isSet_of_get_error h1
    simp [h, hset1]
  · have hset1 := Workspace.isSet_of_get_ok h1
    simp [h, h2, hset1]
  · have hset1 := Workspace.isSet_of_get_ok h1
    obtain ⟨hset2, rfl⟩ := Workspace.isSet_of_get_error h3
    simp [h, h2, hset1, hset2]
  · have hset1 := Workspace.isSet_of_get_ok h1
    have hset2 := Workspace.isSet_of_get_ok h3
    simp [h, h2, hset1, hset2]

theorem ofMatrixError_ne_notSet (step : String) (i : Instruction) (reason : MatrixError)
    (e : NotSet) : ScoringError.ofMatrixError step i reason ≠ .notSet e := by
  cases reason <;> exact fun h => nomatch h

/-- An instruction fails for a missing value exactly if an operand has none, and names it. -/
theorem evaluate_eq_notSet_iff {step name : String} :
    i.evaluate step W = .error (.notSet ⟨name⟩) ↔ i.unset? W = some name := by
  unfold evaluate
  rw [unset?_eq]
  cases i.operandValues W with
  | error e =>
    constructor
    · intro h
      cases h
      rfl
    · intro h
      cases h
      rfl
  | ok values =>
    constructor
    · intro h
      obtain ⟨a, b⟩ := values
      match hop : i.op.apply? a b with
      | none =>
        simp only [hop] at h
        cases h
      | some (.error reason) =>
        simp only [hop] at h
        exact absurd (Except.error.inj h) (ofMatrixError_ne_notSet _ _ _ _)
      | some (.ok result) =>
        simp only [hop] at h
        cases h
    · intro h
      cases h

end Instruction

/-! ## Defined names -/

namespace Place

variable {m : Model}

/-- A name is that of something which is set before a place. -/
def Defined (p : Place m) (name : String) : Prop :=
  fold name = fold inputName ∨
    (∃ s ∈ p.earlier ++ [p.step], ∃ v ∈ s.constants.toList, fold v.name = fold name) ∨
    ∃ i ∈ p.prior, fold i.dest = fold name

instance (p : Place m) (name : String) : Decidable (p.Defined name) :=
  inferInstanceAs (Decidable (_ ∨ _ ∨ _))

/-- The first operand at a place that is undefined, as it is spelled there. -/
def undefined? (p : Place m) : Option String :=
  p.instruction.operands.find? fun name => ¬p.Defined name

/-- The defined names are that of the input and those that the actions before set. -/
theorem defined_iff {p : Place m} {name : String} :
    p.Defined name ↔ Sets p.before name ∨ fold name = fold inputName := by
  rw [before, sets_append, sets_append, sets_flatMap, sets_assign, sets_execute, Defined, prior,
    or_comm]
  refine or_congr_left ?_
  constructor
  · rintro (⟨s, hs, hv⟩ | ⟨i, hi, hname⟩)
    · rcases List.mem_append.1 hs with hs | hs
      · exact .inl ⟨s, hs, .inl hv⟩
      · rw [List.mem_singleton.1 hs] at hv
        exact .inr (.inl hv)
    · rcases List.mem_append.1 hi with hi | hi
      · obtain ⟨s, hs, hi⟩ := List.mem_flatMap.1 hi
        exact .inl ⟨s, hs, .inr ⟨i, hi, hname⟩⟩
      · exact .inr (.inr ⟨i, hi, hname⟩)
  · rintro (⟨s, hs, hv | ⟨i, hi, hname⟩⟩ | hv | ⟨i, hi, hname⟩)
    · exact .inl ⟨s, List.mem_append_left _ hs, hv⟩
    · exact .inr ⟨i, List.mem_append_left _ (List.mem_flatMap.2 ⟨s, hs, hi⟩), hname⟩
    · exact .inl ⟨p.step, List.mem_append_right _ (List.mem_singleton.2 rfl), hv⟩
    · exact .inr ⟨i, List.mem_append_right _ hi, hname⟩

variable {p : Place m} {input : Matrix} {V : Workspace}

/-- A name has a value when a run gets to a place exactly if it is defined there. -/
theorem Reached.isSet_iff (h : p.Reached input V) (name : String) :
    V.isSet name = true ↔ p.Defined name := by
  rw [isSet_of_runActions_ok (reached_iff.1 h), Workspace.isSet_ofInput, defined_iff]

theorem Reached.unset?_eq (h : p.Reached input V) :
    p.instruction.unset? V = p.undefined? := by
  unfold Instruction.unset? undefined?
  congr 1
  funext name
  rw [Bool.eq_iff_iff]
  simp [← h.isSet_iff name]

theorem Reached.evaluate_eq_notSet_iff (h : p.Reached input V) {name : String} :
    p.evaluate V = .error (.notSet ⟨name⟩) ↔ p.undefined? = some name := by
  rw [evaluate, Instruction.evaluate_eq_notSet_iff, h.unset?_eq]

/-- An instruction that is carried out has no undefined operands. -/
theorem Reached.undefined?_eq_none (h : p.Reached input V) {result : Matrix}
    (hresult : p.evaluate V = .ok result) : p.undefined? = none := by
  cases hu : p.undefined? with
  | none => rfl
  | some name =>
    rw [h.evaluate_eq_notSet_iff.2 hu] at hresult
    cases hresult

theorem undefined?_eq_none_iff {p : Place m} :
    p.undefined? = none ↔ ∀ name ∈ p.instruction.operands, p.Defined name := by
  unfold undefined?
  rw [List.find?_eq_none]
  simp

end Place

/-! ## Runs and engines -/

/-- A run that succeeds comes past no undefined operand. -/
theorem undefined?_eq_none_of_runModel_ok {m : OrderedModel} {input : Matrix} {U : Workspace}
    (h : runModel m input = ⟨U, none⟩) (p : Place m.model) : p.undefined? = none := by
  obtain ⟨V, result, hV, hresult⟩ := Place.reached_of_runModel_ok h p
  exact hV.undefined?_eq_none hresult

/-- A run that fails for a missing value names the first undefined operand of the model. -/
theorem exists_undefined_of_runModel_notSet {m : OrderedModel} {input : Matrix} {V : Workspace}
    {e : NotSet} (h : runModel m input = ⟨V, some (.notSet e)⟩) :
    ∃ p : Place m.model, p.undefined? = some e.name ∧
      ∀ q : Place m.model, q.position < p.position → q.undefined? = none := by
  obtain ⟨p, hp, he⟩ := runModel_eq_error_iff.1 h
  refine ⟨p, hp.evaluate_eq_notSet_iff.1 he, ?_⟩
  intro q hq
  obtain ⟨U, result, hU, hresult⟩ := hp.earlier hq
  exact hU.undefined?_eq_none hresult

namespace Engine

/-- In whatever state an engine is, applying its model fails for a missing value only if the model
has an undefined operand, and then names the first operand that is undefined at the first place
with one.  A model with an undefined operand is never applied with success. -/
theorem apply_notSet_undefined (m : OrderedModel) (profiling : Bool) (cs : List Call)
    (clock : Clock) :
    ((∀ p : Place m.model, ∀ name ∈ p.instruction.operands, p.Defined name) →
      ∀ e, ((after m profiling cs).apply clock).2 ≠ some (.notSet e)) ∧
    ((∃ p : Place m.model, ∃ name ∈ p.instruction.operands, ¬p.Defined name) →
      ((after m profiling cs).apply clock).2 ≠ none) ∧
    ∀ e, ((after m profiling cs).apply clock).2 = some (.notSet e) →
      ∃ p : Place m.model, p.undefined? = some e.name ∧
        ∀ q : Place m.model, q.position < p.position → q.undefined? = none := by
  have hfailure := (fromScratch_after m profiling cs).failure_apply clock
  have hfirst : ∀ e, ((after m profiling cs).apply clock).2 = some (.notSet e) →
      ∃ p : Place m.model, p.undefined? = some e.name ∧
        ∀ q : Place m.model, q.position < p.position → q.undefined? = none := by
    intro e he
    rw [hfailure] at he
    split at he
    · cases he
    · exact exists_undefined_of_runModel_notSet (Progress.eq_of_failure_eq he)
  refine ⟨?_, ?_, hfirst⟩
  · intro hdefined e he
    obtain ⟨p, hp, -⟩ := hfirst e he
    have hnone := Place.undefined?_eq_none_iff.2 (hdefined p)
    rw [hnone] at hp
    cases hp
  · rintro ⟨p, name, hname, hundefined⟩ hnone
    rw [hfailure] at hnone
    split at hnone
    · cases hnone
    · have hdefined := undefined?_eq_none_of_runModel_ok (Progress.eq_of_failure_eq hnone) p
      exact hundefined (Place.undefined?_eq_none_iff.1 hdefined name hname)

end Engine

/-! ## A sum with a given variable -/

/-- A model of one step, which doubles a value and adds the variable of a given name. -/
def doubledPlus (name : String) : OrderedModel where
  model :=
    { width := 1
      information := ⟨"sum", "", []⟩
      steps :=
        [{ sequence := 1
           description := "double"
           constants := Workspace.empty.set "two" (Matrix.scalar 2.0)
           script := [⟨"y", .times, "X", some "Two"⟩, ⟨"z", .plus, "Y", some name⟩] }] }
  ordered :=
    { width_pos := Nat.one_ne_zero
      modelType := by
        show Text.allBlank "sum".toList = false
        decide +kernel
      steps_ne_nil := List.cons_ne_nil _ _
      numbered := rfl }

namespace doubledPlus

def firstPlace (name : String) : Place (doubledPlus name).model where
  earlier := []
  step := (doubledPlus name).model.steps.head (List.cons_ne_nil _ _)
  later := []
  steps_eq := rfl
  done := []
  instruction := ⟨"y", .times, "X", some "Two"⟩
  rest := [⟨"z", .plus, "Y", some name⟩]
  script_eq := rfl

def secondPlace (name : String) : Place (doubledPlus name).model where
  earlier := []
  step := (doubledPlus name).model.steps.head (List.cons_ne_nil _ _)
  later := []
  steps_eq := rfl
  done := [⟨"y", .times, "X", some "Two"⟩]
  instruction := ⟨"z", .plus, "Y", some name⟩
  rest := []
  script_eq := rfl

theorem eq_firstPlace_or_secondPlace {name : String} (p : Place (doubledPlus name).model) :
    p = firstPlace name ∨ p = secondPlace name := by
  obtain ⟨earlier, step, later, hsteps, done, i, rest, hscript⟩ := p
  rcases List.append_eq_singleton_iff.1 hsteps.symm with ⟨rfl, hstep⟩ | ⟨-, hnil⟩
  · cases hstep
    rcases done with _ | ⟨j, _ | ⟨k, done⟩⟩
    · cases hscript
      exact .inl rfl
    · cases hscript
      exact .inr rfl
    · have hlength := congrArg List.length hscript
      simp at hlength
  · cases hnil

end doubledPlus

/-- All operands are defined in a model that adds a constant, in whatever spelling.  In one that
adds a variable that is set nowhere, this operand is named. -/
theorem Engine.apply_notSet_undefined_doubledPlus :
    ((∀ p : Place (doubledPlus "TWO").model, ∀ name ∈ p.instruction.operands, p.Defined name) ∧
      ∀ e, ((after (doubledPlus "TWO") true [.setInput (Matrix.scalar 1.5)]).apply .still).2 ≠
        some (.notSet e)) ∧
    (¬(doubledPlus.secondPlace "lost").Defined "lost" ∧
      ((after (doubledPlus "lost") true [.setInput (Matrix.scalar 1.5)]).apply .still).2 ≠
        none) ∧
    ((after (doubledPlus "lost") true [.setInput (Matrix.scalar 1.5)]).apply .still).2 =
        some (.notSet ⟨"lost"⟩) ∧
      ∃ p : Place (doubledPlus "lost").model, p.undefined? = some "lost" ∧
        ∀ q : Place (doubledPlus "lost").model, q.position < p.position →
          q.undefined? = none := by
  have hdefined (p : Place (doubledPlus "TWO").model) :
      ∀ name ∈ p.instruction.operands, p.Defined name := by
    rcases doubledPlus.eq_firstPlace_or_secondPlace p with rfl | rfl <;> decide +kernel
  have hundefined : ¬(doubledPlus.secondPlace "lost").Defined "lost" := by decide +kernel
  have hlost : ((after (doubledPlus "lost") true [.setInput (Matrix.scalar 1.5)]).apply .still).2 =
      some (.notSet ⟨"lost"⟩) := rfl
  obtain ⟨hnever, -, -⟩ :=
    apply_notSet_undefined (doubledPlus "TWO") true [.setInput (Matrix.scalar 1.5)] .still
  obtain ⟨-, hfails, hfirst⟩ :=
    apply_notSet_undefined (doubledPlus "lost") true [.setInput (Matrix.scalar 1.5)] .still
  have hoperand : "lost" ∈ (doubledPlus.secondPlace "lost").instruction.operands := by decide
  exact ⟨⟨hdefined, hnever hdefined⟩,
    ⟨hundefined, hfails ⟨doubledPlus.secondPlace "lost", "lost", hoperand, hundefined⟩⟩,
    hlost, hfirst ⟨"lost"⟩ hlost⟩

end ModelScoring
