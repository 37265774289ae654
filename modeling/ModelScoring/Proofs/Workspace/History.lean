import ModelScoring.Proofs.Text.Names
import ModelScoring.Workspace

/-!
# Workspaces and what was set

A workspace is filled by setting variables, by merging another workspace into it and by clearing
it.  The plainest record of such *edits* is the list of the variables that were set since the last
clearing, in order.  It keeps every value and every spelling.

`Workspace.edited_refines_log` says that a workspace holds of this list what it should.  There is
one variable for each name, the case of ASCII letters aside.  It has the value that was set last and
the spelling that was used first, and the variables are in ascending order of their folded names.

The main step is `edited_eq_setAll_log`: the workspace is what setting the variables of the list one
after the other makes of nothing.  `find?_setAll` and `spelling?_setAll` say what that is.
-/

namespace ModelScoring

open Text (fold SameName fold_eq_fold_iff bytes bytes_lt_bytes_iff DifferOutsideAscii)

/-- A change of a workspace. -/
inductive Edit
  | set (name : String) (value : Matrix)
  | merge (other : Workspace)
  | clear

namespace Edit

def apply (W : Workspace) : Edit → Workspace
  | set name value => W.set name value
  | merge other => W.merge other
  | clear => W.clear

/-- What was set after one more edit, given what was set before. -/
def record (log : List Variable) : Edit → List Variable
  | set name value => log ++ [⟨name, value⟩]
  | merge other => log ++ other.toList
  | clear => []

/-- What was set since the last clearing, in order. -/
def log (edits : List Edit) : List Variable := edits.foldl record []

end Edit

namespace Variable

/-- The first variable of a name in a list. -/
def FirstOf (name : String) (vs : List Variable) (v : Variable) : Prop :=
  SameName v.name name ∧
    ∃ before after, vs = before ++ v :: after ∧ ∀ w ∈ before, ¬SameName w.name name

/-- The last variable of a name in a list. -/
def LastOf (name : String) (vs : List Variable) (v : Variable) : Prop :=
  SameName v.name name ∧
    ∃ before after, vs = before ++ v :: after ∧ ∀ w ∈ after, ¬SameName w.name name

theorem lookup?_eq_some_iff {name : String} {vs : List Variable} {v : Variable} :
    lookup? (fold name) vs = some v ↔ FirstOf name vs v := by
  simp [lookup?, FirstOf, List.find?_eq_some_iff_append, fold_eq_fold_iff]

theorem firstOf_reverse_iff {name : String} {vs : List Variable} {v : Variable} :
    FirstOf name vs.reverse v ↔ LastOf name vs v := by
  constructor
  · rintro ⟨hname, before, after, hsplit, hbefore⟩
    refine ⟨hname, after.reverse, before.reverse, ?_, by simpa using hbefore⟩
    rw [← @List.reverse_reverse _ vs, hsplit]
    simp
  · rintro ⟨hname, before, after, rfl, hafter⟩
    exact ⟨hname, after.reverse, before.reverse, by simp, by simpa using hafter⟩

theorem lookup?_eq_none_iff {name : String} {vs : List Variable} :
    lookup? (fold name) vs = none ↔ ∀ v ∈ vs, ¬SameName v.name name := by
  simp [lookup?, List.find?_eq_none, fold_eq_fold_iff]

end Variable

namespace Workspace

/-! ## Setting many variables -/

theorem setAll_cons (W : Workspace) (v : Variable) (vs : List Variable) :
    W.setAll (v :: vs) = (W.set v.name v.value).setAll vs := rfl

theorem setAll_append (W : Workspace) (vs ws : List Variable) :
    W.setAll (vs ++ ws) = (W.setAll vs).setAll ws := by
  simp [setAll]

/-- A value is that of the last variable of its name, or what it was. -/
theorem find?_setAll (W : Workspace) (vs : List Variable) (query : String) :
    (W.setAll vs).find? query =
      ((Variable.lookup? (fold query) vs.reverse).map Variable.value).or (W.find? query) := by
  induction vs generalizing W with
  | nil => simp [setAll, Variable.lookup?]
  | cons v vs ih =>
    rw [setAll_cons, ih, find?_set]
    unfold Variable.lookup?
    rw [List.reverse_cons, List.find?_append]
    cases vs.reverse.find? fun w => fold w.name = fold query with
    | some w => simp
    | none =>
      by_cases h : fold query = fold v.name
      · simp [h]
      · simp [h, Ne.symm h]

/-- A spelling is what it was, or that of the first variable of its name. -/
theorem spelling?_setAll (W : Workspace) (vs : List Variable) (query : String) :
    (W.setAll vs).spelling? query =
      (W.spelling? query).or ((Variable.lookup? (fold query) vs).map Variable.name) := by
  induction vs generalizing W with
  | nil => simp [setAll, Variable.lookup?]
  | cons v vs ih =>
    rw [setAll_cons, ih, spelling?_set]
    unfold Variable.lookup?
    by_cases h : fold query = fold v.name
    · cases hW : W.spelling? query <;> simp [h]
    · simp [h, Ne.symm h]

/-! ## The list of variables -/

theorem named?_eq_some_iff {W : Workspace} {query : String} {v : Variable} :
    W.named? query = some v ↔
      W.spelling? query = some v.name ∧ W.find? query = some v.value := by
  unfold spelling? find?
  cases W.named? query with
  | none => simp
  | some w =>
    constructor
    · rintro h
      cases h
      exact ⟨rfl, rfl⟩
    · rintro ⟨hname, hvalue⟩
      obtain ⟨name, value⟩ := w
      cases hname
      cases hvalue
      rfl

/-- A name stands for at most one variable. -/
theorem eq_of_fold_eq {W : Workspace} {v w : Variable} (hv : v ∈ W.toList) (hw : w ∈ W.toList)
    (h : fold v.name = fold w.name) : v = w := by
  obtain ⟨i, hi, rfl⟩ := List.getElem_of_mem hv
  obtain ⟨j, hj, rfl⟩ := List.getElem_of_mem hw
  have hbefore := List.pairwise_iff_getElem.1 W.sorted
  rcases Nat.lt_trichotomy i j with hij | rfl | hji
  · exact absurd h (String.ne_of_lt (hbefore i j hi hj hij))
  · rfl
  · exact absurd h.symm (String.ne_of_lt (hbefore j i hj hi hji))

/-- The variables of a workspace are those that are found under their names. -/
theorem mem_toList_iff {W : Workspace} {v : Variable} :
    v ∈ W.toList ↔ W.named? v.name = some v := by
  constructor
  · intro hv
    cases hw : W.named? v.name with
    | none =>
      have hno := List.find?_eq_none.1 hw v hv
      simp at hno
    | some w =>
      have hmem := List.mem_of_find?_eq_some hw
      have hname := List.find?_some hw
      rw [eq_of_fold_eq hmem hv (by simpa using hname)]
  · exact List.mem_of_find?_eq_some

/-- A name stands for the variable that has it, the case of ASCII letters aside. -/
theorem named?_eq_some_iff_mem {W : Workspace} {query : String} {v : Variable} :
    W.named? query = some v ↔ v ∈ W.toList ∧ SameName v.name query := by
  constructor
  · intro h
    have hname := List.find?_some h
    exact ⟨List.mem_of_find?_eq_some h, (fold_eq_fold_iff _ _).1 (by simpa using hname)⟩
  · rintro ⟨hv, hname⟩
    rw [named?, ← (fold_eq_fold_iff _ _).2 hname]
    exact mem_toList_iff.1 hv

/-- No variable is there twice. -/
theorem nodup_toList (W : Workspace) : W.toList.Nodup := W.sorted.imp fun {v w} hvw heq => by
  subst heq
  exact String.lt_irrefl _ hvw

/-- Workspaces with the same variables are equal, since the order is settled. -/
theorem eq_of_mem_iff {W V : Workspace} (h : ∀ v, v ∈ W.toList ↔ v ∈ V.toList) : W = V := by
  have hperm := (List.perm_ext_iff_of_nodup W.nodup_toList V.nodup_toList).2 h
  refine ext (hperm.eq_of_pairwise (fun v w _ _ hvw hwv => ?_) W.sorted V.sorted)
  exact absurd (String.lt_trans hvw hwv) (String.lt_irrefl _)

/-- Setting a variable does not change what other names stand for. -/
theorem get_set_of_not_sameName (W : Workspace) {name query : String} (h : ¬SameName name query)
    (value : Matrix) : (W.set name value).get query = W.get query := by
  have hne : ¬fold query = fold name := fun heq => h ((fold_eq_fold_iff _ _).1 heq.symm)
  rw [get, find?_set, if_neg hne, get]

/-- Variables of different names can be set in any order. -/
theorem set_comm (W : Workspace) {name other : String} (h : ¬SameName name other)
    (value otherValue : Matrix) :
    (W.set name value).set other otherValue = (W.set other otherValue).set name value := by
  have hne : ¬fold name = fold other := fun heq => h ((fold_eq_fold_iff _ _).1 heq)
  refine eq_of_mem_iff fun v => ?_
  simp only [mem_toList_iff, named?_eq_some_iff, spelling?_set, find?_set]
  by_cases hname : fold v.name = fold name
  · simp [hname, hne]
  · simp [hname]

theorem toList_ne_nil_of_isSet {W : Workspace} {query : String} (h : W.isSet query = true) :
    W.toList ≠ [] := by
  intro hnil
  simp [isSet, find?, named?, hnil, Variable.lookup?] at h

/-! ## Edits -/

/-- What edits make of nothing. -/
def edited (edits : List Edit) : Workspace := edits.foldl Edit.apply .empty

/-- One more edit does to a workspace what it does to the list of what was set. -/
theorem apply_setAll (vs : List Variable) (e : Edit) :
    e.apply (empty.setAll vs) = empty.setAll (e.record vs) := by
  cases e with
  | set name value => exact (setAll_append empty vs [⟨name, value⟩]).symm
  | merge other => exact (setAll_append empty vs other.toList).symm
  | clear => rfl

/-- A workspace is what setting the variables that were set makes of nothing. -/
theorem edited_eq_setAll_log (edits : List Edit) :
    edited edits = empty.setAll (Edit.log edits) := by
  have hfold (vs : List Variable) :
      edits.foldl Edit.apply (empty.setAll vs) = empty.setAll (edits.foldl Edit.record vs) := by
    induction edits generalizing vs with
    | nil => rfl
    | cons e edits ih =>
      rw [List.foldl_cons, List.foldl_cons, apply_setAll]
      exact ih _
  exact hfold []

/-- A workspace holds, of variables that were set in some order, the last value of each name under
its first spelling. -/
structure Refines (W : Workspace) (log : List Variable) : Prop where
  /-- A name is set exactly if it was set, under whatever spelling. -/
  isSet_iff : ∀ query, W.isSet query = true ↔ ∃ v ∈ log, SameName v.name query
  /-- Its value is the last one. -/
  get_eq_ok_iff : ∀ query value, W.get query = .ok value ↔
    ∃ v, Variable.LastOf query log v ∧ v.value = value
  /-- A name that is not set is named as it was asked for. -/
  get_eq_error_iff : ∀ query e, W.get query = .error e ↔
    e = ⟨query⟩ ∧ ∀ v ∈ log, ¬SameName v.name query
  /-- The variables are the names that were set, with their first spellings and last values. -/
  mem_iff : ∀ v, v ∈ W.toList ↔ ∃ first last,
    Variable.FirstOf v.name log first ∧ Variable.LastOf v.name log last ∧
      v = ⟨first.name, last.value⟩
  /-- They are in ascending order of the bytes of their folded names, and so none is there twice. -/
  ascending : W.toList.Pairwise fun v w => bytes (fold v.name) < bytes (fold w.name)
  names_eq : W.names = W.toList.map Variable.name
  size_eq : W.size = W.names.length
  isEmpty_iff : (W.isEmpty = true ↔ W.names = []) ∧ (W.names = [] ↔ log = [])

section setAll

variable (vs : List Variable)

theorem find?_empty_setAll (query : String) :
    (empty.setAll vs).find? query =
      (Variable.lookup? (fold query) vs.reverse).map Variable.value := by
  rw [find?_setAll, find?_empty, Option.or_none]

theorem named?_setAll_eq_some_iff {query : String} {v : Variable} :
    (empty.setAll vs).named? query = some v ↔ ∃ first last,
      Variable.FirstOf query vs first ∧ Variable.LastOf query vs last ∧
        v = ⟨first.name, last.value⟩ := by
  have hempty : empty.spelling? query = none := rfl
  rw [named?_eq_some_iff, find?_empty_setAll, spelling?_setAll, hempty, Option.none_or,
    Option.map_eq_some_iff, Option.map_eq_some_iff]
  simp only [Variable.lookup?_eq_some_iff, Variable.firstOf_reverse_iff]
  constructor
  · rintro ⟨⟨first, hfirst, hname⟩, last, hlast, hvalue⟩
    refine ⟨first, last, hfirst, hlast, ?_⟩
    rw [hname, hvalue]
  · rintro ⟨first, last, hfirst, hlast, rfl⟩
    exact ⟨⟨first, hfirst, rfl⟩, last, hlast, rfl⟩

theorem isSet_setAll_iff (query : String) :
    (empty.setAll vs).isSet query = true ↔ ∃ v ∈ vs, SameName v.name query := by
  unfold isSet
  rw [find?_empty_setAll, Option.isSome_map]
  simp [Variable.lookup?, fold_eq_fold_iff]

theorem get_setAll_eq_error_iff (query : String) (e : NotSet) :
    (empty.setAll vs).get query = .error e ↔
      e = ⟨query⟩ ∧ ∀ v ∈ vs, ¬SameName v.name query := by
  have hnone := @Variable.lookup?_eq_none_iff query vs.reverse
  simp only [List.mem_reverse] at hnone
  rw [← hnone, get, find?_empty_setAll]
  cases Variable.lookup? (fold query) vs.reverse with
  | none => simp [eq_comm]
  | some v => simp

theorem refines_setAll : (empty.setAll vs).Refines vs where
  isSet_iff := isSet_setAll_iff vs
  get_eq_ok_iff := by
    intro query value
    unfold get
    rw [find?_empty_setAll]
    simp only [← Variable.firstOf_reverse_iff, ← Variable.lookup?_eq_some_iff]
    cases Variable.lookup? (fold query) vs.reverse with
    | none => simp
    | some v => simp
  get_eq_error_iff := get_setAll_eq_error_iff vs
  mem_iff := by
    intro v
    rw [mem_toList_iff, named?_setAll_eq_some_iff]
  ascending := (empty.setAll vs).sorted.imp fun hlt => (bytes_lt_bytes_iff _ _).2 hlt
  names_eq := rfl
  size_eq := by simp [size, names]
  isEmpty_iff := by
    refine ⟨by simp [isEmpty, names], ?_⟩
    constructor
    · intro hnil
      by_contra hne
      obtain ⟨v, hv⟩ := List.exists_mem_of_ne_nil vs hne
      have hset := (isSet_setAll_iff vs v.name).2 ⟨v, hv, (fold_eq_fold_iff _ _).1 rfl⟩
      exact toList_ne_nil_of_isSet hset (List.map_eq_nil_iff.1 hnil)
    · rintro rfl
      rfl

end setAll

/-- What was set settles what a workspace holds. -/
theorem Refines.eq_setAll {W : Workspace} {log : List Variable} (h : W.Refines log) :
    W = empty.setAll log :=
  eq_of_mem_iff fun v => by rw [h.mem_iff, (refines_setAll log).mem_iff]

/-- Names that differ outside ASCII do not stand for one variable. -/
theorem get_set_of_differOutsideAscii (W : Workspace) {name query : String}
    (h : DifferOutsideAscii name query) (value : Matrix) :
    (W.set name value).get query = W.get query :=
  get_set_of_not_sameName W (Text.not_sameName_of_differOutsideAscii h) value

/-- A workspace holds of whatever was set, merged and cleared what the record of it says.  Names
that differ in a letter outside ASCII stay apart. -/
theorem edited_refines_log (edits : List Edit) :
    (edited edits).Refines (Edit.log edits) ∧
      ∀ name query value, DifferOutsideAscii name query →
        ((edited edits).set name value).get query = (edited edits).get query := by
  constructor
  · rw [edited_eq_setAll_log]
    exact refines_setAll _
  · intro name query value h
    exact get_set_of_differOutsideAscii _ h value

/-- A small and a capital accented letter are two names. -/
theorem edited_refines_log_accented :
    DifferOutsideAscii "é" "É" ∧
      (edited [.set "É" (Matrix.scalar 1.0)]).get "É" = .ok (Matrix.scalar 1.0) ∧
      ((edited [.set "É" (Matrix.scalar 1.0)]).set "é" (Matrix.scalar 2.0)).get "É" =
        .ok (Matrix.scalar 1.0) := by
  have hdiffer : DifferOutsideAscii "é" "É" :=
    ⟨0, 'é', 'É', by decide, by decide, by decide, by decide⟩
  have hkept := (edited_refines_log [.set "É" (Matrix.scalar 1.0)]).2 "é" "É" (Matrix.scalar 2.0)
    hdiffer
  have hget : (edited [.set "É" (Matrix.scalar 1.0)]).get "É" = .ok (Matrix.scalar 1.0) := rfl
  exact ⟨hdiffer, hget, hkept.trans hget⟩

end Workspace

end ModelScoring
