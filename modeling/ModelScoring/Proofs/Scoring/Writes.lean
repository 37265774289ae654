import ModelScoring.Proofs.Scoring.Places
import ModelScoring.Proofs.Scoring.Calls
import ModelScoring.Proofs.Workspace.History

/-!
# What a run writes

A run writes the input, then for each step its constants and the results of its script.  `Writes`
keeps all of it, in one list.  It has no workspace of its own: an operand has the value that the
list says was written last under its name.

`runActions_eq_ok_iff` says that a run which succeeds is one that writes some list, and that it
leaves the workspace that refines the list.  So a result has the last value that was written under
its name and the first of its spellings.

`Engine.results_refine_writes` says this of the results of an engine.  In particular a constant
replaces what was written before under its name, and so does the result of an instruction.
-/

namespace ModelScoring

open Text (fold SameName fold_eq_fold_iff)

/-! ## Writing -/

/-- Actions go on from a list of what was written, and write more to it. -/
inductive Writes : List Action → List Variable → List Variable → Prop
  | nil (log : List Variable) : Writes [] log log
  | cons {a : Action} {as : List Action} {log written : List Variable} {W : Workspace}
      {result : Matrix} (refines : W.Refines log) (value : a.value W = .ok result)
      (rest : Writes as (log ++ [⟨a.target, result⟩]) written) : Writes (a :: as) log written

namespace Writes

variable {as : List Action} {log written : List Variable}

/-- A list is only added to, and each action adds a variable of its name. -/
theorem exists_append (h : Writes as log written) :
    ∃ added, written = log ++ added ∧ added.map Variable.name = as.map Action.target := by
  induction h with
  | nil log => exact ⟨[], (List.append_nil log).symm, rfl⟩
  | @cons a as log written W result _ _ _ ih =>
    obtain ⟨added, hwritten, hnames⟩ := ih
    refine ⟨⟨a.target, result⟩ :: added, ?_, ?_⟩
    · rw [hwritten, List.append_assoc, List.singleton_append]
    · rw [List.map_cons, List.map_cons, hnames]

/-- What an action writes is the last of its name if no later one writes that name. -/
theorem lastOf {a : Action} {before after : List Action}
    (h : Writes (before ++ a :: after) log written)
    (hlast : ∀ b ∈ after, ¬SameName b.target a.target) :
    ∃ mid V result, Writes before log mid ∧ V.Refines mid ∧ a.value V = .ok result ∧
      Variable.LastOf a.target written ⟨a.target, result⟩ := by
  induction before generalizing log with
  | nil =>
    cases h with
    | @cons _ _ _ _ V result hV ha hrest =>
      obtain ⟨added, rfl, hnames⟩ := hrest.exists_append
      refine ⟨log, V, result, .nil log, hV, ha, (fold_eq_fold_iff _ _).1 rfl, log, added, ?_, ?_⟩
      · rw [List.append_assoc, List.singleton_append]
      · intro v hv
        obtain ⟨b, hb, hname⟩ := List.mem_map.1 (hnames ▸ List.mem_map_of_mem hv)
        exact hname ▸ hlast b hb
  | cons b before ih =>
    cases h with
    | cons hW hb hrest =>
      obtain ⟨mid, V, result, hbefore, hV, ha, hlastOf⟩ := ih hrest
      exact ⟨mid, V, result, .cons hW hb hbefore, hV, ha, hlastOf⟩

end Writes

/-- A run that succeeds writes a list, and leaves the workspace that refines it. -/
theorem runActions_eq_ok_iff {actions : List Action} {log : List Variable} {V : Workspace} :
    runActions actions (Workspace.empty.setAll log) = ⟨V, none⟩ ↔
      ∃ written, Writes actions log written ∧ V.Refines written := by
  constructor
  · intro h
    induction actions generalizing log with
    | nil =>
      cases h
      exact ⟨log, .nil log, Workspace.refines_setAll log⟩
    | cons a actions ih =>
      cases ha : a.value (Workspace.empty.setAll log) with
      | error e =>
        rw [runActions_cons_error ha] at h
        cases h
      | ok result =>
        have hset : Workspace.empty.setAll (log ++ [⟨a.target, result⟩]) =
            (Workspace.empty.setAll log).set a.target result := Workspace.setAll_append _ log _
        rw [runActions_cons_ok ha, ← hset] at h
        obtain ⟨written, hwrites, hV⟩ := ih h
        exact ⟨written, .cons (Workspace.refines_setAll log) ha hwrites, hV⟩
  · rintro ⟨written, hwrites, hV⟩
    induction hwrites with
    | nil log =>
      rw [hV.eq_setAll]
      rfl
    | cons hW ha _ ih =>
      rw [hW.eq_setAll] at ha
      rw [Workspace.setAll_append] at ih
      exact (runActions_cons_ok ha _).trans (ih hV)

/-! ## Models -/

/-- The names that a step writes, in order. -/
def Step.writtenNames (s : Step) : List String :=
  s.constants.names ++ s.script.map Instruction.dest

/-- The names that the steps of a model write, in order. -/
def Model.writtenNames (m : Model) : List String := m.steps.flatMap Step.writtenNames

theorem map_target_actions (steps : List Step) :
    (steps.flatMap Step.actions).map Action.target = steps.flatMap Step.writtenNames := by
  rw [List.map_flatMap]
  refine congrArg (List.flatMap · steps) (funext fun s => ?_)
  rw [Step.actions, List.map_append, List.map_map, List.map_map]
  rfl

section runs

variable {m : OrderedModel} {input : Matrix} {W : Workspace}

theorem writes_of_runModel_ok (h : runModel m input = ⟨W, none⟩) :
    ∃ written, Writes m.model.actions [⟨inputName, input⟩] written ∧ W.Refines written :=
  runActions_eq_ok_iff.1 ((runModel_eq m input).symm.trans h)

/-- What an action writes is what a run leaves under its name, if no later action writes it. -/
theorem get_of_runModel_ok (h : runModel m input = ⟨W, none⟩) {a : Action}
    {before after : List Action} (hactions : m.model.actions = before ++ a :: after)
    (hlast : ∀ name ∈ after.map Action.target, ¬SameName name a.target) :
    ∃ V result, runActions before (.ofInput input) = ⟨V, none⟩ ∧ a.value V = .ok result ∧
      W.get a.target = .ok result := by
  obtain ⟨written, hwrites, hW⟩ := writes_of_runModel_ok h
  rw [hactions] at hwrites
  obtain ⟨mid, V, result, hbefore, hV, ha, hlastOf⟩ :=
    hwrites.lastOf fun b hb => hlast b.target (List.mem_map_of_mem hb)
  exact ⟨V, result, runActions_eq_ok_iff.2 ⟨mid, hbefore, hV⟩, ha,
    (hW.get_eq_ok_iff _ _).2 ⟨_, hlastOf, rfl⟩⟩

/-- A constant replaces what was written before under its name. -/
theorem get_constant_of_runModel_ok (h : runModel m input = ⟨W, none⟩) {earlier later : List Step}
    {s : Step} (hsteps : m.model.steps = earlier ++ s :: later) {v : Variable}
    (hv : v ∈ s.constants.toList)
    (hlast : ∀ name ∈ s.script.map Instruction.dest ++ later.flatMap Step.writtenNames,
      ¬SameName name v.name) :
    W.get v.name = .ok v.value := by
  obtain ⟨front, back, hsplit⟩ := List.append_of_mem hv
  have hactions : m.model.actions =
      (earlier.flatMap Step.actions ++ front.map .assign) ++ .assign v ::
        (back.map .assign ++ (s.script.map (.execute s.description) ++
          later.flatMap Step.actions)) := by
    rw [Model.actions, hsteps, List.flatMap_append, List.flatMap_cons, Step.actions, hsplit,
      List.map_append, List.map_cons]
    simp only [List.append_assoc, List.cons_append]
  have hnext : ∀ name ∈ (back.map Action.assign ++ (s.script.map (Action.execute s.description) ++
      later.flatMap Step.actions)).map Action.target, ¬SameName name v.name := by
    intro name hname
    rw [List.map_append, List.map_append, map_target_actions, List.map_map, List.map_map] at hname
    rcases List.mem_append.1 hname with hback | hrest
    · -- the other constants of the step have other names
      obtain ⟨w, hw, rfl⟩ := List.mem_map.1 hback
      have hsorted := s.constants.sorted
      rw [hsplit] at hsorted
      have hlt := (List.pairwise_cons.1 (List.pairwise_append.1 hsorted).2.1).1 w hw
      exact fun hsame => String.ne_of_lt hlt ((fold_eq_fold_iff _ _).2 hsame).symm
    · exact hlast name hrest
  obtain ⟨V, result, -, hvalue, hget⟩ := get_of_runModel_ok h hactions hnext
  cases hvalue
  exact hget

/-- The result of an instruction replaces what was written before under its name. -/
theorem get_result_of_runModel_ok (h : runModel m input = ⟨W, none⟩) (p : Place m.model)
    (hlast : ∀ name ∈ p.rest.map Instruction.dest ++ p.later.flatMap Step.writtenNames,
      ¬SameName name p.instruction.dest) :
    ∃ V result, p.Reached input V ∧ p.evaluate V = .ok result ∧
      W.get p.instruction.dest = .ok result := by
  have hnext : ∀ name ∈ p.behind.map Action.target, ¬SameName name p.action.target := by
    rw [Place.behind, List.map_append, map_target_actions, List.map_map]
    exact hlast
  obtain ⟨V, result, hV, hvalue, hget⟩ := get_of_runModel_ok h p.actions_eq hnext
  exact ⟨V, result, Place.reached_iff.2 hV, hvalue, hget⟩

end runs

/-! ## Engines -/

namespace Engine

/-- After an engine has applied its model with success, its results are the variables of a workspace
that refines what the run wrote: the input, then for each step its constants and the results of its
script.  Unless something is written later under the same name, a constant has the value that its
step gives it, and the destination of an instruction the value that the instruction had. -/
theorem results_refine_writes (m : OrderedModel) (profiling : Bool) (cs : List Call) (clock : Clock)
    (h : ((after m profiling cs).apply clock).2 = none) :
    ∃ (W : Workspace) (written : List Variable),
      (((after m profiling cs).apply clock).1.call .results).2 =
        .listing (W.toList.map fun v => (v.name, v.value)) ∧
      Writes m.model.actions [⟨inputName, (after m profiling cs).input⟩] written ∧
      written.map Variable.name = inputName :: m.model.writtenNames ∧
      W.Refines written ∧
      (∀ earlier s later, m.model.steps = earlier ++ s :: later →
        ∀ v ∈ s.constants.toList,
          (∀ name ∈ s.script.map Instruction.dest ++ later.flatMap Step.writtenNames,
            ¬SameName name v.name) →
          W.get v.name = .ok v.value) ∧
      ∀ p : Place m.model,
        (∀ name ∈ p.rest.map Instruction.dest ++ p.later.flatMap Step.writtenNames,
          ¬SameName name p.instruction.dest) →
        ∃ V result, p.Reached (after m profiling cs).input V ∧ p.evaluate V = .ok result ∧
          W.get p.instruction.dest = .ok result := by
  have hscratch := fromScratch_after m profiling cs
  have hrows : (after m profiling cs).input.rows ≠ 0 := by
    intro hzero
    rw [hscratch.failure_apply clock, if_pos hzero] at h
    cases h
  have hrun := hscratch.runModel_eq_apply hrows clock
  rw [h] at hrun
  have hphase := (hscratch.apply_keeps clock).2.2 h
  obtain ⟨written, hwrites, hW⟩ := writes_of_runModel_ok hrun
  obtain ⟨added, hadded, hnames⟩ := hwrites.exists_append
  refine ⟨_, written, ?_, hwrites, ?_, hW, ?_, ?_⟩
  · show Answer.ofExcept Answer.ofWorkspace (results _) = _
    rw [results, hphase]
    rfl
  · rw [hadded, List.map_append, hnames]
    exact congrArg (List.cons inputName) (map_target_actions _)
  · intro earlier s later hsteps v hv hlast
    exact get_constant_of_runModel_ok hrun hsteps hv hlast
  · intro p hlast
    exact get_result_of_runModel_ok hrun p hlast

/-- A model of two steps.  The second gives the input another value, and the result of the first. -/
def overriding : OrderedModel where
  model :=
    { width := 1
      information := ⟨"sample", "", []⟩
      steps :=
        [{ sequence := 1
           description := "shift"
           constants := Workspace.empty.set "K" (Matrix.scalar 2.0)
           script := [⟨"Shifted", .plus, "x", some "k"⟩] },
          { sequence := 2
            description := "restart"
            constants := Workspace.empty.set "X" (Matrix.scalar 5.0)
            script := [⟨"SHIFTED", .times, "X", some "shifted"⟩] }] }
  ordered :=
    { width_pos := by decide
      modelType := by decide +kernel
      steps_ne_nil := List.cons_ne_nil _ _
      numbered := by decide }

/-- The constant of the second step replaces the input, which keeps its spelling. -/
theorem results_refine_writes_overriding :
    ((after overriding true [.setInput (Matrix.scalar 3.0)]).apply .still).2 = none ∧
      ∃ (W : Workspace) (written : List Variable),
        (((after overriding true [.setInput (Matrix.scalar 3.0)]).apply .still).1.call
          .results).2 = .listing (W.toList.map fun v => (v.name, v.value)) ∧
        written.map Variable.name = ["x", "K", "Shifted", "X", "SHIFTED"] ∧
        W.Refines written ∧ W.get "X" = .ok (Matrix.scalar 5.0) := by
  have hnone : ((after overriding true [.setInput (Matrix.scalar 3.0)]).apply .still).2 = none :=
    Option.isNone_iff_eq_none.1 (by decide +kernel)
  obtain ⟨W, written, hlisting, -, hnames, hW, hconstant, -⟩ :=
    results_refine_writes overriding true [.setInput (Matrix.scalar 3.0)] .still hnone
  have hlast : ∀ name ∈ ["SHIFTED"], ¬SameName name "X" := by
    simp only [List.forall_mem_singleton, ← fold_eq_fold_iff]
    decide +kernel
  exact ⟨hnone, W, written, hlisting, hnames, hW,
    hconstant [_] _ [] rfl ⟨"X", Matrix.scalar 5.0⟩ List.mem_cons_self hlast⟩

end Engine

end ModelScoring
