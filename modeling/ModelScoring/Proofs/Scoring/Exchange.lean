import ModelScoring.Proofs.Workspace.History
import ModelScoring.Scoring.Execution

/-!
# Instructions that can change places

Two instructions are *independent* if neither writes what the other writes or reads.  Reading is
looking up an operand, whether the operation needs it or not.

The result of an instruction depends on its operands alone (`evaluate_congr`), so it is not changed
by an instruction that it is independent of.  Results that are set under different names can be set
in any order (`Workspace.set_comm`), and the workspace does not tell in which.  `runScript_exchange`
puts the two together, with the rest of the script behind them, and `Step.run_exchange` is the
statement for a step.

Of two instructions that fail the first one in order gives the error.  So it is only the success of
a run, and the workspace it leaves, that does not depend on the order.
-/

namespace ModelScoring

open Text (SameName)

namespace Instruction

/-- Neither instruction writes what the other writes or reads. -/
structure Independent (a b : Instruction) : Prop where
  dests_differ : ¬SameName a.dest b.dest
  /-- The second does not read what the first writes. -/
  not_read_by_second : ∀ operand ∈ b.operands, ¬SameName a.dest operand
  /-- The first does not read what the second writes. -/
  not_read_by_first : ∀ operand ∈ a.operands, ¬SameName b.dest operand

variable {a b i : Instruction} {step : String} {W V : Workspace}

theorem Independent.symm (h : a.Independent b) : b.Independent a where
  dests_differ hsame := h.dests_differ hsame.symm
  not_read_by_second := h.not_read_by_first
  not_read_by_first := h.not_read_by_second

/-! ## Results -/

/-- The operands are all that is looked up. -/
theorem operandValues_congr (h : ∀ operand ∈ i.operands, W.get operand = V.get operand) :
    i.operandValues W = i.operandValues V := by
  unfold operandValues
  rw [h i.arg1 List.mem_cons_self]
  cases harg : i.arg2 with
  | none => rfl
  | some name =>
    dsimp only
    rw [h name (by simp [operands, harg])]

theorem evaluate_congr (h : ∀ operand ∈ i.operands, W.get operand = V.get operand) :
    i.evaluate step W = i.evaluate step V := by
  rw [evaluate, operandValues_congr h, evaluate]

/-- A variable that is not read can be set before or after. -/
theorem evaluate_set {name : String} {value : Matrix}
    (h : ∀ operand ∈ i.operands, ¬SameName name operand) :
    i.evaluate step (W.set name value) = i.evaluate step W :=
  evaluate_congr fun operand hoperand => W.get_set_of_not_sameName (h operand hoperand) value

end Instruction

open Instruction (Independent evaluate_set)

/-! ## Scripts -/

section scripts

variable {a b i : Instruction} {step : String} {before after script rest : List Instruction}
  {W V : Workspace}

/-- A script succeeds if its first instruction has a result and the rest succeeds from there. -/
theorem runScript_cons_eq_ok_iff :
    runScript step (i :: rest) W = ⟨V, none⟩ ↔
      ∃ result, i.evaluate step W = .ok result ∧
        runScript step rest (W.set i.dest result) = ⟨V, none⟩ := by
  rw [runScript]
  cases i.evaluate step W with
  | error e => simp
  | ok result => simp

/-- A script that is in two parts succeeds if both succeed, one from where the other has come to. -/
theorem runScript_append_eq_ok_iff :
    runScript step (before ++ rest) W = ⟨V, none⟩ ↔
      ∃ U, runScript step before W = ⟨U, none⟩ ∧ runScript step rest U = ⟨V, none⟩ := by
  induction before generalizing W with
  | nil => simp [runScript]
  | cons i before ih =>
    simp only [List.cons_append, runScript_cons_eq_ok_iff, ih]
    constructor
    · rintro ⟨result, hi, U, hbefore, hrest⟩
      exact ⟨U, ⟨result, hi, hbefore⟩, hrest⟩
    · rintro ⟨U, ⟨result, hi, hbefore⟩, hrest⟩
      exact ⟨result, hi, U, hbefore, hrest⟩

/-- Two independent instructions that succeed in one order succeed in the other, and the rest goes
on from the same workspace. -/
theorem runScript_exchange_of_ok (h : a.Independent b)
    (hrun : runScript step (a :: b :: rest) W = ⟨V, none⟩) :
    runScript step (b :: a :: rest) W = ⟨V, none⟩ := by
  obtain ⟨x, ha, hrun⟩ := runScript_cons_eq_ok_iff.1 hrun
  obtain ⟨y, hb, hrun⟩ := runScript_cons_eq_ok_iff.1 hrun
  rw [evaluate_set h.not_read_by_second] at hb
  rw [W.set_comm h.dests_differ] at hrun
  refine runScript_cons_eq_ok_iff.2 ⟨y, hb, runScript_cons_eq_ok_iff.2 ⟨x, ?_, hrun⟩⟩
  rw [evaluate_set h.not_read_by_first, ha]

theorem runScript_exchange (h : a.Independent b) :
    runScript step (before ++ a :: b :: after) W = ⟨V, none⟩ ↔
      runScript step (before ++ b :: a :: after) W = ⟨V, none⟩ := by
  rw [runScript_append_eq_ok_iff, runScript_append_eq_ok_iff]
  refine exists_congr fun U => and_congr_right fun _ => ?_
  exact ⟨runScript_exchange_of_ok h, runScript_exchange_of_ok h.symm⟩

end scripts

namespace Step

/-- A step with two independent instructions next to each other succeeds exactly if it succeeds with
the two in the other order, and then leaves the same workspace: the same variables in the same
order, with the same spellings and values. -/
theorem run_exchange (s : Step) {a b : Instruction} {before after : List Instruction}
    (hscript : s.script = before ++ a :: b :: after) (h : a.Independent b) (W V : Workspace) :
    s.run W = ⟨V, none⟩ ↔ { s with script := before ++ b :: a :: after }.run W = ⟨V, none⟩ := by
  unfold run
  rw [hscript]
  exact runScript_exchange h

def doubled : Instruction := ⟨"Y", .plus, "x", some "X"⟩

def scaled : Instruction := ⟨"a", .times, "k", some "x"⟩

def combined : Instruction := ⟨"x", .minus, "y", some "A"⟩

theorem independent_doubled_scaled : doubled.Independent scaled where
  dests_differ := by
    rw [← Text.fold_eq_fold_iff]
    decide +kernel
  not_read_by_second := by
    simp only [← Text.fold_eq_fold_iff]
    decide +kernel
  not_read_by_first := by
    simp only [← Text.fold_eq_fold_iff]
    decide +kernel

/-- A step whose first instruction overwrites a variable. -/
def doubleAndScale : Step where
  sequence := 1
  description := "both"
  constants := Workspace.empty.set "K" (Matrix.scalar 2.0)
  script := [doubled, scaled, combined]

def preset : Workspace := (Workspace.empty.set "x" (Matrix.scalar 3.0)).set "y" Matrix.empty

/-- Two instructions change places, and the third reads what both have written. -/
theorem run_exchange_overwriting :
    ∃ V, doubleAndScale.run preset = ⟨V, none⟩ ∧
      { doubleAndScale with script := [scaled, doubled, combined] }.run preset = ⟨V, none⟩ ∧
      V.names = ["a", "K", "x", "y"] := by
  have hnames : (doubleAndScale.run preset).workspace.names = ["a", "K", "x", "y"] := by
    decide +kernel
  have hsuccess : (doubleAndScale.run preset).failure = none :=
    Option.isNone_iff_eq_none.1 (by decide +kernel)
  have hrun : doubleAndScale.run preset = ⟨_, none⟩ := congrArg (Progress.mk _) hsuccess
  have hscript : doubleAndScale.script = [] ++ doubled :: scaled :: [combined] := rfl
  exact ⟨_, hrun, (run_exchange doubleAndScale hscript independent_doubled_scaled _ _).1 hrun,
    hnames⟩

end Step

end ModelScoring
