import ModelScoring.Proofs.Scoring.Writes
import ModelScoring.Scoring.Batch

/-!
# The variables that are reported

Settings ask for variables by name.  Two things look at the names.  One goes through the workspace
and keeps the variables whose name is asked for.  The other goes through the names and looks each of
them up.  `Requested` says what is reported in the end, without either: the variables of the
workspace that have one of the names, in the order of the workspace, and so one for each name.

A name that stands for no variable is the error, and of several the first one as it was asked for
(`FirstMissing`).  So nothing that was asked for is left out.

`Engine.scoreRow_reports_requested` says this of a row to which the model could be applied.
-/

namespace ModelScoring

open Text (SameName fold_eq_fold_iff)

/-- A workspace has a variable of the name, the case of ASCII letters aside. -/
def Workspace.Holds (W : Workspace) (name : String) : Prop := ∃ v ∈ W.toList, SameName v.name name

/-- What is reported of a workspace when variables are asked for by name. -/
structure Requested (outputs : List String) (W : Workspace) (results : List Variable) : Prop where
  /-- They are in the order of the workspace. -/
  sublist : results.Sublist W.toList
  /-- They are the variables that are asked for under some spelling. -/
  mem_iff : ∀ v, v ∈ results ↔ v ∈ W.toList ∧ ∃ output ∈ outputs, SameName output v.name
  /-- Each name has one of them, which is the variable that the name stands for. -/
  once : ∀ output ∈ outputs, ∃ before v after, results = before ++ v :: after ∧
    W.named? output = some v ∧ ∀ w ∈ before ++ after, ¬SameName w.name output

/-- The first of the names for which a workspace has no variable. -/
def FirstMissing (outputs : List String) (W : Workspace) (output : String) : Prop :=
  ∃ before after, outputs = before ++ output :: after ∧ (∀ earlier ∈ before, W.Holds earlier) ∧
    ¬W.Holds output

/-! ## Names -/

/-- Of the members of a list without some property one is the first. -/
theorem exists_first_of_not_forall {α : Type} {P : α → Prop} {xs : List α} (h : ¬∀ x ∈ xs, P x) :
    ∃ before x after, xs = before ++ x :: after ∧ (∀ y ∈ before, P y) ∧ ¬P x := by
  induction xs with
  | nil => exact absurd (List.forall_mem_nil P) h
  | cons x xs ih =>
    by_cases hx : P x
    · obtain ⟨before, y, after, rfl, hbefore, hy⟩ :=
        ih fun hall => h (List.forall_mem_cons.2 ⟨hx, hall⟩)
      exact ⟨x :: before, y, after, rfl, List.forall_mem_cons.2 ⟨hx, hbefore⟩, hy⟩
    · exact ⟨[], x, xs, rfl, List.forall_mem_nil P, hx⟩

theorem exists_firstMissing {outputs : List String} {W : Workspace}
    (h : ¬∀ output ∈ outputs, W.Holds output) : ∃ output, FirstMissing outputs W output := by
  obtain ⟨before, output, after, hsplit, hbefore, hno⟩ := exists_first_of_not_forall h
  exact ⟨output, before, after, hsplit, hbefore, hno⟩

theorem Workspace.holds_iff {W : Workspace} {name : String} :
    W.Holds name ↔ ∃ v, W.named? name = some v := by
  simp only [Holds, named?_eq_some_iff_mem]

/-- The variables with one of some names, if all the names have one. -/
theorem requested_filter {settings : Settings} {W : Workspace} (hne : settings.outputs ≠ [])
    (hholds : ∀ output ∈ settings.outputs, W.Holds output) :
    Requested settings.outputs W (W.toList.filter fun v => settings.wants v.name) := by
  have hmem (v : Variable) : v ∈ W.toList.filter (fun v => settings.wants v.name) ↔
      v ∈ W.toList ∧ ∃ output ∈ settings.outputs, SameName output v.name := by
    rw [List.mem_filter, Settings.wants_iff hne]
    simp only [fold_eq_fold_iff]
  have hsublist : (W.toList.filter fun v => settings.wants v.name).Sublist W.toList :=
    List.filter_sublist
  refine ⟨hsublist, hmem, fun output houtput => ?_⟩
  obtain ⟨v, hv⟩ := Workspace.holds_iff.1 (hholds output houtput)
  obtain ⟨hin, hname⟩ := Workspace.named?_eq_some_iff_mem.1 hv
  obtain ⟨before, after, hsplit⟩ :=
    List.append_of_mem ((hmem v).2 ⟨hin, output, houtput, hname.symm⟩)
  refine ⟨before, v, after, hsplit, hv, fun w hw hsame => ?_⟩
  -- another variable of that name would be the same variable, and it is there once
  have hnodup : (before ++ v :: after).Nodup := hsplit ▸ W.nodup_toList.sublist hsublist
  have hwin : w ∈ W.toList := by
    refine ((hmem w).1 ?_).1
    rw [hsplit]
    exact List.perm_middle.symm.subset (List.mem_cons_of_mem v hw)
  cases hv.symm.trans (Workspace.named?_eq_some_iff_mem.2 ⟨hwin, hsame⟩)
  exact (List.nodup_cons.1 (List.perm_middle.nodup_iff.1 hnodup)).1 hw

namespace Engine

variable {e : Engine} {W : Workspace} {settings : Settings}

/-! ## Reports -/

theorem getFault?_eq_some_iff (h : e.results = .ok W) {name : String} {reason : ScoringError} :
    e.getFault? name = some reason ↔ ¬W.Holds name ∧ reason = .notSet ⟨name⟩ := by
  rw [Workspace.holds_iff]
  simp only [getFault?, get, h, Workspace.get, Workspace.find?]
  cases W.named? name with
  | none => simp [eq_comm]
  | some v => simp

theorem getFault?_eq_none_iff (h : e.results = .ok W) {name : String} :
    e.getFault? name = none ↔ W.Holds name := by
  rw [Option.eq_none_iff_forall_ne_some]
  simp only [ne_eq, getFault?_eq_some_iff h]
  constructor
  · intro hnone
    by_contra hholds
    exact hnone _ ⟨hholds, rfl⟩
  · rintro hholds reason ⟨hno, -⟩
    exact hno hholds

/-- If every name is there, what is wanted is reported. -/
theorem report_of_holds (h : e.results = .ok W)
    (hholds : ∀ output ∈ settings.outputs, W.Holds output) :
    e.report settings = .ok (W.toList.filter fun v => settings.wants v.name) := by
  have hnone : settings.outputs.findSome? e.getFault? = none :=
    List.findSome?_eq_none_iff.2 fun output houtput =>
      (getFault?_eq_none_iff h).2 (hholds output houtput)
  simp only [report, h, hnone]

/-- The first name that is not there is the error. -/
theorem report_of_firstMissing (h : e.results = .ok W) {output : String}
    (hmissing : FirstMissing settings.outputs W output) :
    e.report settings = .error (.notSet ⟨output⟩) := by
  obtain ⟨before, after, hsplit, hbefore, hno⟩ := hmissing
  have hfault : settings.outputs.findSome? e.getFault? = some (.notSet ⟨output⟩) := by
    rw [List.findSome?_eq_some_iff]
    refine ⟨before, output, after, hsplit, (getFault?_eq_some_iff h).2 ⟨hno, rfl⟩, ?_⟩
    intro earlier hearlier
    exact (getFault?_eq_none_iff h).2 (hbefore earlier hearlier)
  simp only [report, h, hfault]

/-! ## Rows -/

/-- An engine that could apply its model has results. -/
theorem results_of_apply {e' : Engine} {clock : Clock} (h : e.apply clock = (e', none)) :
    e'.results = .ok e'.workspace := by
  rcases e.apply_cases clock with ⟨hp, heq⟩ | ⟨-, -, heq⟩ | ⟨W, reason, -, -, -, heq⟩ |
    ⟨W, -, -, -, heq⟩
  · cases heq.symm.trans h
    exact results_of_applied hp
  · cases heq.symm.trans h
  · cases heq.symm.trans h
  · cases heq.symm.trans h
    rfl

/-- Of a row to which the model could be applied every variable is reported if none is asked for.
Otherwise it is the variables that are asked for, if all of them are there, and if not the row fails
at the first name that is not. -/
theorem scoreRow_reports_requested (e : Engine) (settings : Settings) (clock : Clock) (number : Nat)
    (row : Row) {ready applied : Engine} (hinput : e.setInputRow row = .ok ready)
    (happly : ready.apply clock = (applied, none)) :
    ∃ W, applied.results = .ok W ∧
      (settings.outputs = [] →
        e.scoreRow settings clock number row = .ok (applied, ⟨row, W.toList, applied.timing⟩)) ∧
      (settings.outputs ≠ [] → (∀ output ∈ settings.outputs, W.Holds output) →
        ∃ results, Requested settings.outputs W results ∧
          e.scoreRow settings clock number row = .ok (applied, ⟨row, results, applied.timing⟩)) ∧
      (¬(∀ output ∈ settings.outputs, W.Holds output) →
        ∃ output, FirstMissing settings.outputs W output ∧
          e.scoreRow settings clock number row = .error (.output (.notSet ⟨output⟩))) := by
  have hresults := results_of_apply happly
  refine ⟨applied.workspace, hresults, ?_, ?_, ?_⟩
  · intro hnil
    have hreport : applied.report settings = .ok _ := report_of_holds hresults (by simp [hnil])
    simp only [scoreRow, hinput, happly, hreport]
    simp [Settings.wants, hnil]
  · intro hne hholds
    refine ⟨_, requested_filter hne hholds, ?_⟩
    simp only [scoreRow, hinput, happly, report_of_holds hresults hholds]
  · intro hmissing
    obtain ⟨output, hfirst⟩ := exists_firstMissing hmissing
    refine ⟨output, hfirst, ?_⟩
    simp only [scoreRow, hinput, happly, report_of_firstMissing hresults hfirst]

/-- Settings that ask for one variable twice. -/
def askingTwice : Settings where
  modelPath := "sample.xml"
  outputs := ["SHIFTED", "k", "shifted"]

/-- An engine with one input row that is not applied yet. -/
def givenThree : Engine := { ofModel overriding true with input := Matrix.scalar 3.0 }

/-- Three names, and the two variables that they stand for. -/
theorem scoreRow_reports_requested_twice :
    (ofModel overriding true).setInputRow #[3.0] = .ok givenThree ∧
      ∃ applied W results, givenThree.apply .still = (applied, none) ∧ applied.results = .ok W ∧
        (∀ output ∈ askingTwice.outputs, W.Holds output) ∧
        Requested askingTwice.outputs W results ∧ results.map Variable.name = ["K", "Shifted"] ∧
        (ofModel overriding true).scoreRow askingTwice .still 1 #[3.0] =
          .ok (applied, ⟨#[3.0], results, applied.timing⟩) := by
  have hinput : (ofModel overriding true).setInputRow #[3.0] = .ok givenThree := rfl
  have happly : givenThree.apply .still = (_, none) :=
    Prod.ext rfl (Option.isNone_iff_eq_none.1 (by decide +kernel))
  have hnamed : ∀ output ∈ askingTwice.outputs,
      ((givenThree.apply .still).1.workspace.named? output).isSome := by decide +kernel
  have hnames : ((ofModel overriding true).scoreRow askingTwice .still 1 #[3.0]).toOption.map
      (fun scored => scored.2.results.map Variable.name) = some ["K", "Shifted"] := by
    decide +kernel
  obtain ⟨W, hresults, -, hrequested, -⟩ := scoreRow_reports_requested
    (ofModel overriding true) askingTwice .still 1 #[3.0] hinput happly
  cases (results_of_apply happly).symm.trans hresults
  have hholds (output : String) (houtput : output ∈ askingTwice.outputs) :
      (givenThree.apply .still).1.workspace.Holds output :=
    Workspace.holds_iff.2 (Option.isSome_iff_exists.1 (hnamed output houtput))
  obtain ⟨results, hreported, hscored⟩ := hrequested (List.cons_ne_nil _ _) hholds
  rw [hscored] at hnames
  exact ⟨hinput, _, _, results, happly, hresults, hholds, hreported, Option.some.inj hnames,
    hscored⟩

end Engine

end ModelScoring
