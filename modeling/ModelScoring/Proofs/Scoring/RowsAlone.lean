import ModelScoring.Proofs.Scoring.Requested

/-!
# Rows on their own

One engine scores the rows of a batch, one after the other.  What comes of a row depends neither on
the rows before it nor on the clock nor on its number: an engine that is given its next input keeps
nothing of the last run, and the clock is only read into the timing.  `Fails` and `Reports` are the
two ways a row can come out, for any engine for the model whatsoever, and `fails_or_reports` says
that it is always one of them.

So a batch goes as its rows go on their own, each with a new engine.  It ends at the first row that
fails, with the error of this row under the number that the row has in the batch.
`Engine.scoreRows_eq_alone` is the statement.
-/

namespace ModelScoring

/-- The same error, for the row of a number. -/
def BatchError.forRow (number : Nat) : BatchError → BatchError
  | input _ reason => input number reason
  | run _ reason => run number reason
  | output reason => output reason

theorem BatchError.forRow_forRow (e : BatchError) (number other : Nat) :
    (e.forRow other).forRow number = e.forRow number := by
  cases e <;> rfl

namespace Engine

/-- Scores one row with a new engine for a model. -/
def scoreAlone (m : OrderedModel) (settings : Settings) (clock : Clock) (row : Row) :
    Except BatchError (List ScoredRow) :=
  (ofModel m settings.profiling).scoreRows settings (fun _ => clock) 1 [row]

/-- Scores a batch of rows with a new engine for a model. -/
def scoreBatch (m : OrderedModel) (settings : Settings) (clocks : Nat → Clock) (rows : List Row) :
    Except BatchError (List ScoredRow) :=
  (ofModel m settings.profiling).scoreRows settings clocks 1 rows

/-! ## One row -/

/-- A row fails with an error on every engine for a model. -/
def Fails (m : OrderedModel) (settings : Settings) (row : Row) (reason : BatchError) : Prop :=
  ∀ e : Engine, e.model = m → ∀ clock number,
    e.scoreRow settings clock number row = .error (reason.forRow number)

/-- Variables are reported of a row on every engine for a model. -/
def Reports (m : OrderedModel) (settings : Settings) (row : Row) (results : List Variable) : Prop :=
  ∀ e : Engine, e.model = m → ∀ clock number, ∃ next timing,
    e.scoreRow settings clock number row = .ok (next, ⟨row, results, timing⟩) ∧ next.model = m

variable {m : OrderedModel} {settings : Settings} {clocks : Nat → Clock} {clock : Clock}
  {row : Row} {rows before after : List Row} {results : List Variable} {reason : BatchError}

theorem setInputRow_of_fits {e : Engine} {input : Matrix} (hrow : Matrix.ofRow row = .ok input)
    (hfits : inputFault? e.model.model input = none) :
    e.setInputRow row = .ok (e.given input) := by
  simp only [setInputRow, hrow, setInput_of_fits hfits]

/-- A row that an engine can be given fails if no engine can apply the model to it. -/
theorem fails_of_run {input : Matrix} {cause : ScoringError} (hrow : Matrix.ofRow row = .ok input)
    (hfits : inputFault? m.model input = none)
    (hrun : ∀ e : Engine, e.model = m → ∀ clock,
      ∃ applied, (e.given input).apply clock = (applied, some cause)) :
    Fails m settings row (.run 0 cause) := by
  intro e he clock number
  obtain ⟨applied, happly⟩ := hrun e he clock
  simp only [scoreRow, setInputRow_of_fits hrow (he ▸ hfits), happly]
  rfl

/-- A row to which the model can be applied comes out as the names that are asked for do. -/
theorem fails_or_reports_of_run {input : Matrix} {W : Workspace}
    (hrow : Matrix.ofRow row = .ok input) (hfits : inputFault? m.model input = none)
    (hrows : input.rows ≠ 0) (hrun : runModel m input = ⟨W, none⟩) :
    (∃ reason, Fails m settings row reason) ∨ ∃ results, Reports m settings row results := by
  have happly (e : Engine) (he : e.model = m) (clock : Clock) : ∃ applied,
      (e.given input).apply clock = (applied, none) ∧ applied.results = .ok W ∧
        applied.model = m :=
    ⟨_, apply_of_ok (e := e.given input) rfl hrows (he ▸ hrun) clock, rfl, he⟩
  by_cases hholds : ∀ output ∈ settings.outputs, W.Holds output
  · refine .inr ⟨W.toList.filter fun v => settings.wants v.name, fun e he clock number => ?_⟩
    obtain ⟨applied, hdone, hresults, hmodel⟩ := happly e he clock
    refine ⟨applied, applied.timing, ?_, hmodel⟩
    simp only [scoreRow, setInputRow_of_fits hrow (he ▸ hfits), hdone,
      report_of_holds hresults hholds]
  · obtain ⟨output, hfirst⟩ := exists_firstMissing hholds
    refine .inl ⟨.output (.notSet ⟨output⟩), fun e he clock number => ?_⟩
    obtain ⟨applied, hdone, hresults, -⟩ := happly e he clock
    simp only [scoreRow, setInputRow_of_fits hrow (he ▸ hfits), hdone,
      report_of_firstMissing hresults hfirst]
    rfl

/-- The model and the settings settle what comes of a row. -/
theorem fails_or_reports (m : OrderedModel) (settings : Settings) (row : Row) :
    (∃ reason, Fails m settings row reason) ∨ ∃ results, Reports m settings row results := by
  cases hrow : Matrix.ofRow row with
  | error fault =>
    refine .inl ⟨.input 0 .halted, fun e he clock number => ?_⟩
    simp only [scoreRow, setInputRow, hrow]
    rfl
  | ok input =>
    cases hfits : inputFault? m.model input with
    | some fault =>
      refine .inl ⟨.input 0 fault, fun e he clock number => ?_⟩
      simp only [scoreRow, setInputRow, hrow, setInput, he, hfits]
      rfl
    | none =>
      by_cases hrows : input.rows = 0
      · refine .inl ⟨.run 0 .inputMissing, fails_of_run hrow hfits fun e he clock => ?_⟩
        exact ⟨_, apply_of_missing (e := e.given input) rfl hrows clock⟩
      · rcases hrun : runModel m input with ⟨W, _ | cause⟩
        · exact fails_or_reports_of_run hrow hfits hrows hrun
        · refine .inl ⟨.run 0 cause, fails_of_run hrow hfits fun e he clock => ?_⟩
          exact ⟨_, apply_of_error (e := e.given input) rfl hrows (he ▸ hrun) clock⟩

/-! ## A row on its own -/

theorem scoreAlone_of_fails (h : Fails m settings row reason) (clock : Clock) :
    scoreAlone m settings clock row = .error (reason.forRow 1) := by
  have hscored := h (ofModel m settings.profiling) rfl clock 1
  simp only [scoreAlone, scoreRows, hscored]

theorem scoreAlone_of_reports (h : Reports m settings row results) (clock : Clock) :
    ∃ timing, scoreAlone m settings clock row = .ok [⟨row, results, timing⟩] := by
  obtain ⟨next, timing, hscored, -⟩ := h (ofModel m settings.profiling) rfl clock 1
  exact ⟨timing, by simp only [scoreAlone, scoreRows, hscored]⟩

/-- A row on its own is scored exactly if variables are reported of it. -/
theorem scoreAlone_eq_ok_iff :
    (∃ one, scoreAlone m settings clock row = .ok one) ↔
      ∃ results, Reports m settings row results := by
  constructor
  · rintro ⟨one, hone⟩
    refine (fails_or_reports m settings row).resolve_left ?_
    rintro ⟨reason, hfails⟩
    cases hone.symm.trans (scoreAlone_of_fails hfails clock)
  · rintro ⟨results, hreports⟩
    obtain ⟨timing, hone⟩ := scoreAlone_of_reports hreports clock
    exact ⟨_, hone⟩

/-- A row that is not scored on its own fails on every engine, with the same error. -/
theorem exists_fails_of_scoreAlone {cause : BatchError}
    (h : scoreAlone m settings clock row = .error cause) :
    ∃ reason, Fails m settings row reason ∧ cause = reason.forRow 1 := by
  rcases fails_or_reports m settings row with ⟨reason, hfails⟩ | ⟨results, hreports⟩
  · exact ⟨reason, hfails, Except.error.inj (h.symm.trans (scoreAlone_of_fails hfails clock))⟩
  · obtain ⟨timing, hone⟩ := scoreAlone_of_reports hreports clock
    cases h.symm.trans hone

/-! ## Batches -/

/-- A batch of rows that can all be scored. -/
theorem scoreRows_of_reports (clocks : Nat → Clock)
    (hrows : ∀ row ∈ rows, ∃ results, Reports m settings row results) {e : Engine}
    (he : e.model = m) (number : Nat) :
    ∃ scored, scoreRows settings clocks number e rows = .ok scored ∧
      List.Forall₂ (fun row s => s.input = row ∧ Reports m settings row s.results) rows scored := by
  induction rows generalizing e number with
  | nil => exact ⟨[], rfl, .nil⟩
  | cons row rows ih =>
    obtain ⟨⟨results, hreports⟩, hrest⟩ := List.forall_mem_cons.1 hrows
    obtain ⟨next, timing, hscored, hnext⟩ := hreports e he (clocks number) number
    obtain ⟨scored, hbatch, hall⟩ := ih hrest hnext (number + 1)
    refine ⟨⟨row, results, timing⟩ :: scored, ?_, .cons ⟨rfl, hreports⟩ hall⟩
    simp only [scoreRows, hscored, hbatch]

/-- The first row that fails ends a batch. -/
theorem scoreRows_of_fails (hbefore : ∀ row ∈ before, ∃ results, Reports m settings row results)
    (hfails : Fails m settings row reason) {e : Engine} (he : e.model = m) (number : Nat) :
    scoreRows settings clocks number e (before ++ row :: after) =
      .error (reason.forRow (number + before.length)) := by
  induction before generalizing e number with
  | nil =>
    rw [List.nil_append, scoreRows, hfails e he (clocks number) number]
    rfl
  | cons earlier before ih =>
    obtain ⟨⟨results, hreports⟩, hrest⟩ := List.forall_mem_cons.1 hbefore
    obtain ⟨next, timing, hscored, hnext⟩ := hreports e he (clocks number) number
    have hlength : number + (earlier :: before).length = number + 1 + before.length := by
      rw [List.length_cons]
      omega
    simp only [List.cons_append, scoreRows, hscored, ih hrest hnext (number + 1), hlength]

/-- A batch of rows that are scored on their own is scored, with the same variables reported. -/
theorem scoreBatch_of_scored (clocks : Nat → Clock) (clock : Clock)
    (hrows : ∀ row ∈ rows, ∃ one, scoreAlone m settings clock row = .ok one) :
    ∃ scored, scoreBatch m settings clocks rows = .ok scored ∧
      List.Forall₂ (fun row s => s.input = row ∧
        ∃ one, scoreAlone m settings clock row = .ok [one] ∧ one.input = row ∧
          one.results = s.results) rows scored := by
  have hreports (row : Row) (hrow : row ∈ rows) := scoreAlone_eq_ok_iff.1 (hrows row hrow)
  have hmodel : (ofModel m settings.profiling).model = m := rfl
  obtain ⟨scored, hbatch, hall⟩ := scoreRows_of_reports clocks hreports hmodel 1
  refine ⟨scored, hbatch, hall.imp fun row s hs => ⟨hs.1, ?_⟩⟩
  obtain ⟨timing, hone⟩ := scoreAlone_of_reports hs.2 clock
  exact ⟨_, hone, rfl, rfl⟩

/-- A batch ends with the error of the first row that is not scored on its own. -/
theorem scoreBatch_of_refused {cause : BatchError}
    (hbefore : ∀ earlier ∈ before, ∃ one, scoreAlone m settings clock earlier = .ok one)
    (hrow : scoreAlone m settings clock row = .error cause) :
    scoreBatch m settings clocks (before ++ row :: after) =
      .error (cause.forRow (before.length + 1)) := by
  obtain ⟨reason, hfails, rfl⟩ := exists_fails_of_scoreAlone hrow
  rw [BatchError.forRow_forRow, Nat.add_comm]
  have hreports (earlier : Row) (hearlier : earlier ∈ before) :=
    scoreAlone_eq_ok_iff.1 (hbefore earlier hearlier)
  exact scoreRows_of_fails hreports hfails rfl 1

theorem exists_refused
    (h : ¬∀ row ∈ rows, ∃ one, scoreAlone m settings clock row = .ok one) :
    ∃ before row after cause, rows = before ++ row :: after ∧
      (∀ earlier ∈ before, ∃ one, scoreAlone m settings clock earlier = .ok one) ∧
      scoreAlone m settings clock row = .error cause := by
  obtain ⟨before, row, after, hsplit, hbefore, hrow⟩ := exists_first_of_not_forall h
  cases halone : scoreAlone m settings clock row with
  | error cause => exact ⟨before, row, after, cause, hsplit, hbefore, halone⟩
  | ok one => exact absurd ⟨one, halone⟩ hrow

/-- A batch is scored exactly if each of its rows is scored on its own, and then with the same
variables reported of each.  Otherwise the error is that of the first row that is not. -/
theorem scoreRows_eq_alone (m : OrderedModel) (settings : Settings) (clocks : Nat → Clock)
    (clock : Clock) (rows : List Row) :
    ((∃ scored, scoreBatch m settings clocks rows = .ok scored) ↔
      ∀ row ∈ rows, ∃ one, scoreAlone m settings clock row = .ok one) ∧
    (∀ scored, scoreBatch m settings clocks rows = .ok scored →
      List.Forall₂ (fun row s => s.input = row ∧
        ∃ one, scoreAlone m settings clock row = .ok [one] ∧ one.input = row ∧
          one.results = s.results) rows scored) ∧
    ∀ error, scoreBatch m settings clocks rows = .error error ↔
      ∃ before row after cause, rows = before ++ row :: after ∧
        (∀ earlier ∈ before, ∃ one, scoreAlone m settings clock earlier = .ok one) ∧
        scoreAlone m settings clock row = .error cause ∧
        error = cause.forRow (before.length + 1) := by
  by_cases hall : ∀ row ∈ rows, ∃ one, scoreAlone m settings clock row = .ok one
  · obtain ⟨scored, hbatch, hscored⟩ := scoreBatch_of_scored clocks clock hall
    refine ⟨⟨fun _ => hall, fun _ => ⟨scored, hbatch⟩⟩, fun scored' h => ?_, fun error => ⟨?_, ?_⟩⟩
    · cases hbatch.symm.trans h
      exact hscored
    · intro h
      cases hbatch.symm.trans h
    · rintro ⟨before, row, after, cause, rfl, -, hrow, -⟩
      obtain ⟨one, hone⟩ := hall row List.mem_append_cons_self
      cases hone.symm.trans hrow
  · obtain ⟨before, row, after, cause, rfl, hbefore, hrow⟩ := exists_refused hall
    have hbatch : scoreBatch m settings clocks (before ++ row :: after) = .error _ :=
      scoreBatch_of_refused hbefore hrow
    refine ⟨⟨?_, fun h => absurd h hall⟩, fun scored h => ?_, fun error => ⟨?_, ?_⟩⟩
    · rintro ⟨scored, h⟩
      cases hbatch.symm.trans h
    · cases hbatch.symm.trans h
    · intro h
      exact ⟨before, row, after, cause, rfl, hbefore, hrow,
        Except.error.inj (h.symm.trans hbatch)⟩
    · rintro ⟨before', row', after', cause', hsplit, hbefore', hrow', rfl⟩
      rw [hsplit]
      exact scoreBatch_of_refused hbefore' hrow'

/-- A row that is too wide, between two that fit. -/
theorem scoreRows_eq_alone_tooWide :
    (∃ scored, scoreBatch overriding askingTwice (fun _ => .still) [#[3.0], #[4.0]] = .ok scored) ∧
      scoreAlone overriding askingTwice .still #[1.0, 2.0] =
        .error (.input 1 (.columnMismatch 1 2)) ∧
      scoreBatch overriding askingTwice (fun _ => .still) [#[3.0], #[1.0, 2.0], #[4.0]] =
        .error (.input 2 (.columnMismatch 1 2)) := by
  have hok : ∀ row ∈ [#[3.0], #[4.0]],
      (scoreAlone overriding askingTwice .still row).isOk := by decide +kernel
  have hscored (row : Row) (hrow : row ∈ [#[3.0], #[4.0]]) :
      ∃ one, scoreAlone overriding askingTwice .still row = .ok one := by
    have hrowOk := hok row hrow
    cases halone : scoreAlone overriding askingTwice .still row with
    | ok one => exact ⟨one, rfl⟩
    | error cause =>
      rw [halone] at hrowOk
      cases hrowOk
  have hwide : scoreAlone overriding askingTwice .still #[1.0, 2.0] =
      .error (.input 1 (.columnMismatch 1 2)) := rfl
  have hpair := scoreRows_eq_alone overriding askingTwice (fun _ => .still) .still [#[3.0], #[4.0]]
  have htriple := scoreRows_eq_alone overriding askingTwice (fun _ => .still) .still
    [#[3.0], #[1.0, 2.0], #[4.0]]
  refine ⟨hpair.1.2 hscored, hwide, (htriple.2.2 _).2 ?_⟩
  exact ⟨[#[3.0]], #[1.0, 2.0], [#[4.0]], _, rfl,
    List.forall_mem_singleton.2 (hscored _ List.mem_cons_self), hwide, rfl⟩

end Engine

end ModelScoring
