import ModelScoring.Proofs.Model.Sequence
import ModelScoring.Proofs.Scoring.Writes

/-!
# Timings and runs

An engine that takes timings has one exactly while it is applied.  A run that fails leaves none
behind, an accepted input takes the last one away, and a refused input and a second application
leave it as it is.  `Engine.Timed` is the invariant.  A timing is that of the run that left the
workspace which is there.

What a timing says is settled by the model, the readings of the clock aside (`accounts_timingOf`).
So it goes by the steps of the model in their order, and it counts the instructions of the model and
the variables of the results.  `Engine.timing_accounts_for_results` says it of any sequence of calls.
-/

namespace ModelScoring

namespace Timing

/-- A timing goes by the steps of a model. -/
structure Accounts (t : Timing) (m : Model) : Prop where
  /-- There is an entry for each step, in the order of the steps. -/
  entries : t.steps.map (fun s => (s.sequence, s.description, s.instructions)) =
    m.steps.map fun s => (s.sequence, s.description, s.script.length)
  /-- The numbers of the entries are one, two, three and so on. -/
  sequences : t.steps.map StepTiming.sequence = List.range' 1 m.steps.length
  instructionCount_eq : t.instructionCount = m.instructionCount

theorem foldl_record (t : Timing) (steps : List StepTiming) :
    steps.foldl record t = { t with steps := t.steps ++ steps } := by
  induction steps generalizing t with
  | nil => simp
  | cons s steps ih => simp [ih, record]

end Timing

namespace Engine

/-! ## The timing of a run -/

theorem steps_timingOf (m : Model) (clock : Clock) (variableCount : Nat) :
    (timingOf m clock variableCount).steps =
      m.steps.mapIdx fun k s =>
        StepTiming.mk s.sequence s.description s.script.length (clock.step k) := by
  simp [timingOf, Timing.finish, Timing.foldl_record, Timing.start]

theorem variableCount_timingOf (m : Model) (clock : Clock) (variableCount : Nat) :
    (timingOf m clock variableCount).variableCount = variableCount := rfl

/-- Whatever a timing says of a step but its duration is said by the step. -/
theorem map_steps_timingOf {α : Type} (m : Model) (clock : Clock) (variableCount : Nat)
    (f : Nat → String → Nat → α) :
    (timingOf m clock variableCount).steps.map
        (fun s => f s.sequence s.description s.instructions) =
      m.steps.map fun s => f s.sequence s.description s.script.length := by
  rw [steps_timingOf]
  refine List.ext_getElem (by simp) fun k hk _ => ?_
  simp

theorem accounts_timingOf (m : OrderedModel) (clock : Clock) (variableCount : Nat) :
    (timingOf m.model clock variableCount).Accounts m.model where
  entries := map_steps_timingOf m.model clock variableCount fun n text count => (n, text, count)
  sequences := by
    have hnumbered : Model.Numbered 1 m.model.steps :=
      Model.misplaced?_eq_none_iff.1 m.ordered.numbered
    rw [← hnumbered]
    exact map_steps_timingOf m.model clock variableCount fun n _ _ => n
  instructionCount_eq := by
    have hcounts := map_steps_timingOf m.model clock variableCount fun _ _ count => count
    rw [Timing.instructionCount, Model.instructionCount, ← hcounts]

/-! ## Calls -/

/-- An engine for a model takes timings or not, and has one of its last run if it should. -/
structure Timed (m : OrderedModel) (profiling : Bool) (e : Engine) : Prop where
  model : e.model = m
  profiling : e.profiling = profiling
  /-- Before the model is applied there is no timing. -/
  idle : e.phase = .idle → e.timing = none
  /-- Then there is that of the run which left the workspace, if timings are taken. -/
  applied : e.phase = .applied → ∃ clock, e.timing = e.timing? clock e.workspace

theorem timed_ofModel (m : OrderedModel) (profiling : Bool) :
    (ofModel m profiling).Timed m profiling where
  model := rfl
  profiling := rfl
  idle := fun _ => rfl
  applied := fun h => nomatch h

namespace Timed

variable {m : OrderedModel} {profiling : Bool} {e : Engine}

theorem given (h : e.Timed m profiling) (input : Matrix) : (e.given input).Timed m profiling where
  model := h.model
  profiling := h.profiling
  idle := fun _ => rfl
  applied := fun hp => nomatch hp

theorem apply (h : e.Timed m profiling) (clock : Clock) :
    (e.apply clock).1.Timed m profiling := by
  rcases e.apply_cases clock with ⟨-, heq⟩ | ⟨-, -, heq⟩ | ⟨W, reason, hp, -, -, heq⟩ |
    ⟨W, -, -, -, heq⟩
  · rw [heq]
    exact h
  · rw [heq]
    exact h
  · rw [heq]
    exact
      { model := h.model
        profiling := h.profiling
        idle := h.idle
        applied := fun hp' => nomatch hp.symm.trans hp' }
  · rw [heq]
    exact
      { model := h.model
        profiling := h.profiling
        idle := fun hp => nomatch hp
        applied := fun _ => ⟨clock, rfl⟩ }

/-- A call keeps what is said of the timing. -/
theorem call (h : e.Timed m profiling) (c : Call) : (e.call c).1.Timed m profiling := by
  rcases e.call_cases c with heq | ⟨input, heq⟩ | ⟨clock, heq⟩
  · rw [heq]
    exact h
  · rw [heq]
    exact h.given input
  · rw [heq]
    exact h.apply clock

/-- The same for any sequence of calls. -/
theorem calls (h : e.Timed m profiling) (cs : List Call) :
    (e.calls cs).1.Timed m profiling := by
  induction cs generalizing e with
  | nil => exact h
  | cons c cs ih => exact ih (h.call c)

/-- There is a timing exactly if the model has been applied and timings are taken. -/
theorem isSome_timing_iff (h : e.Timed m profiling) :
    e.timing.isSome = true ↔ e.phase = .applied ∧ profiling = true := by
  cases hp : e.phase with
  | idle => simp [h.idle hp]
  | applied =>
    obtain ⟨clock, htiming⟩ := h.applied hp
    simp [htiming, timing?, h.profiling]

/-- A timing is that of the run which left the workspace. -/
theorem exists_timingOf (h : e.Timed m profiling) {t : Timing} (ht : e.timing = some t) :
    e.phase = .applied ∧ ∃ clock, t = timingOf m.model clock e.workspace.size := by
  have happlied := h.isSome_timing_iff.1 (Option.isSome_iff_exists.2 ⟨t, ht⟩)
  obtain ⟨clock, htiming⟩ := h.applied happlied.1
  rw [ht, timing?, h.profiling, happlied.2, h.model] at htiming
  exact ⟨happlied.1, clock, Option.some.inj htiming⟩

end Timed

theorem call_results_of_applied {e : Engine} (h : e.phase = .applied) :
    (e.call .results).2 = .listing (e.workspace.toList.map fun v => (v.name, v.value)) :=
  congrArg (Answer.ofExcept Answer.ofWorkspace) (results_of_applied h)

/-- Whatever is called, there is a timing exactly if the model has been applied to the current input
and timings are taken.  It has an entry for each step of the model, in order and with the numbers
from one on, as many instructions as the model has, and as many variables as are listed in the
results. -/
theorem timing_accounts_for_results (m : OrderedModel) (profiling : Bool) (cs : List Call) :
    ((after m profiling cs).timing.isSome = true ↔
      (after m profiling cs).phase = .applied ∧ profiling = true) ∧
    ∀ t, (after m profiling cs).timing = some t → t.Accounts m.model ∧
      ∃ entries, ((after m profiling cs).call .results).2 = .listing entries ∧
        t.variableCount = entries.length := by
  have h : (after m profiling cs).Timed m profiling := (timed_ofModel m profiling).calls cs
  refine ⟨h.isSome_timing_iff, fun t ht => ?_⟩
  obtain ⟨hp, clock, rfl⟩ := h.exists_timingOf ht
  refine ⟨accounts_timingOf m clock _, _, call_results_of_applied hp, ?_⟩
  rw [variableCount_timingOf, List.length_map, Workspace.size]

/-- An input row is applied twice, and an input of two columns is refused in between. -/
def refusedBetween : List Call :=
  [.setInput (Matrix.scalar 3.0), .apply .still, .setInput Matrix.empty, .apply .still]

theorem timing_accounts_for_results_overriding :
    ∃ t, (after overriding true refusedBetween).timing = some t ∧
      t.steps.map StepTiming.sequence = [1, 2] ∧ t.instructionCount = 2 ∧
      ∃ entries, ((after overriding true refusedBetween).call .results).2 = .listing entries ∧
        t.variableCount = entries.length ∧ t.variableCount = 3 := by
  have hsome : (after overriding true refusedBetween).timing.isSome = true := by decide +kernel
  have hcount : (after overriding true refusedBetween).timing.map Timing.variableCount = some 3 := by
    decide +kernel
  obtain ⟨t, ht⟩ := Option.isSome_iff_exists.1 hsome
  obtain ⟨haccounts, entries, hlisting, hvariables⟩ :=
    (timing_accounts_for_results overriding true refusedBetween).2 t ht
  rw [ht] at hcount
  exact ⟨t, ht, haccounts.sequences, haccounts.instructionCount_eq, entries, hlisting, hvariables,
    Option.some.inj hcount⟩

end Engine

end ModelScoring
