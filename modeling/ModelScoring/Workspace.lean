import ModelScoring.Matrix.Written
import ModelScoring.Text.Fold

/-!
# Workspaces

A workspace holds the variables of a run.  Names count up to the case of ASCII letters, so there
is at most one variable for each folded name.  A variable keeps the spelling it was first set
under, and later settings replace only its value.  The variables stand in ascending order of
their folded names, which is part of the type.

`Workspace.find?` is the view of a workspace.  `find?_set` says that setting a variable changes
the view at that name and nowhere else, and `spelling?_set` that it never changes a spelling.
-/

namespace ModelScoring

open Text (fold fold_fold)

/-- A variable: the spelling of its name, and its value. -/
structure Variable where
  /-- The name, as first spelled. -/
  name : String
  value : Matrix

namespace Variable

/-- Whether the folded name of one variable is before that of another. -/
def Before (v w : Variable) : Prop := fold v.name < fold w.name

/-- Puts a variable into a list in ascending order.  A variable of the same folded name keeps its
spelling and takes the new value. -/
def insert (name : String) (value : Matrix) : List Variable → List Variable
  | [] => [⟨name, value⟩]
  | v :: vs =>
    if fold name < fold v.name then ⟨name, value⟩ :: v :: vs
    else if fold name = fold v.name then ⟨v.name, value⟩ :: vs
    else v :: insert name value vs

/-- The folded names after putting a variable in are the new one and the old ones. -/
theorem fold_mem_insert {name : String} {value : Matrix} {vs : List Variable} {w : Variable}
    (h : w ∈ insert name value vs) : fold w.name = fold name ∨ ∃ v ∈ vs, v.name = w.name := by
  induction vs with
  | nil =>
    simp only [insert, List.mem_singleton] at h
    exact .inl (by rw [h])
  | cons v vs ih =>
    simp only [insert] at h
    split at h
    · rcases List.mem_cons.1 h with rfl | h
      · exact .inl rfl
      · exact .inr ⟨w, h, rfl⟩
    · split at h
      · next heq =>
        rcases List.mem_cons.1 h with rfl | h
        · exact .inl heq.symm
        · exact .inr ⟨w, List.mem_cons_of_mem _ h, rfl⟩
      · rcases List.mem_cons.1 h with rfl | h
        · exact .inr ⟨w, List.mem_cons_self, rfl⟩
        · rcases ih h with h | ⟨u, hu, hname⟩
          · exact .inl h
          · exact .inr ⟨u, List.mem_cons_of_mem _ hu, hname⟩

/-- The order is kept. -/
theorem sorted_insert {name : String} {value : Matrix} {vs : List Variable}
    (h : vs.Pairwise Before) : (insert name value vs).Pairwise Before := by
  induction vs with
  | nil => simp [insert]
  | cons v vs ih =>
    obtain ⟨hv, hvs⟩ := List.pairwise_cons.1 h
    simp only [insert]
    split
    · next hlt =>
      refine List.pairwise_cons.2 ⟨fun w hw => ?_, h⟩
      rcases List.mem_cons.1 hw with rfl | hw
      · exact hlt
      · exact String.lt_trans hlt (hv w hw)
    · next hnlt =>
      split
      · exact List.pairwise_cons.2 ⟨fun w hw => hv w hw, hvs⟩
      · next hne =>
        refine List.pairwise_cons.2 ⟨fun w hw => ?_, ih hvs⟩
        have hgt : fold v.name < fold name := by
          by_cases hgt : fold v.name < fold name
          · exact hgt
          · exact absurd (String.le_antisymm (String.not_lt.1 hgt) (String.not_lt.1 hnlt)) hne
        rcases fold_mem_insert hw with heq | ⟨u, hu, hname⟩
        · rw [Before, heq]
          exact hgt
        · have huv := hv u hu
          rw [Before, hname] at huv
          exact huv

/-- The first variable of a folded name. -/
def lookup? (key : String) (vs : List Variable) : Option Variable :=
  vs.find? fun v => fold v.name = key

/-- What is found after putting a variable in. -/
theorem lookup?_insert {name key : String} {value : Matrix} {vs : List Variable}
    (h : vs.Pairwise Before) :
    lookup? key (insert name value vs) =
      if key = fold name then
        some ⟨((lookup? key vs).map Variable.name).getD name, value⟩
      else lookup? key vs := by
  induction vs with
  | nil =>
    by_cases hkey : key = fold name
    · simp [insert, lookup?, hkey]
    · simp [insert, lookup?, hkey, eq_comm]
  | cons v vs ih =>
    obtain ⟨hv, hvs⟩ := List.pairwise_cons.1 h
    simp only [insert]
    split
    · next hlt =>
      by_cases hkey : key = fold name
      · have hnone : lookup? key (v :: vs) = none := by
          refine List.find?_eq_none.2 fun w hw => ?_
          have hgt : fold name < fold w.name := by
            rcases List.mem_cons.1 hw with rfl | hw
            · exact hlt
            · exact String.lt_trans hlt (hv w hw)
          simp only [decide_eq_true_eq]
          intro heq
          rw [heq, hkey] at hgt
          exact String.lt_irrefl _ hgt
        rw [if_pos hkey, hnone]
        simp [lookup?, hkey]
      · rw [if_neg hkey]
        exact List.find?_cons_of_neg (by simpa using fun heq => hkey heq.symm)
    · split
      · next heq =>
        by_cases hkey : key = fold name
        · simp [lookup?, hkey, heq]
        · have hne : ¬fold v.name = key := fun hvk => hkey (hvk ▸ heq.symm)
          simp [lookup?, hkey, hne]
      · next hne =>
        by_cases hvk : fold v.name = key
        · have hkey : ¬key = fold name := fun hk => hne (hvk.trans hk).symm
          simp [lookup?, hvk, hkey]
        · have hstep : ∀ us, lookup? key (v :: us) = lookup? key us :=
            fun us => List.find?_cons_of_neg (by simpa using hvk)
          rw [hstep, hstep]
          exact ih hvs

end Variable

/-- The variables of a run. -/
structure Workspace where
  /-- The variables, in ascending order of their folded names. -/
  toList : List Variable
  /-- The order is kept, without repetition. -/
  sorted : toList.Pairwise Variable.Before

/-- There is no variable of that name. -/
structure NotSet where
  /-- The name, as it was asked for. -/
  name : String
  deriving DecidableEq, Repr

def NotSet.message (e : NotSet) : String :=
  s!"value for workspace variable \"{e.name}\" has not been set"

namespace Workspace

def empty : Workspace := ⟨[], .nil⟩

/-- Removes every variable. -/
def clear (_ : Workspace) : Workspace := empty

/-- Sets a variable. -/
def set (W : Workspace) (name : String) (value : Matrix) : Workspace :=
  ⟨Variable.insert name value W.toList, Variable.sorted_insert W.sorted⟩

/-- Sets variables, one after the other. -/
def setAll (W : Workspace) (vs : List Variable) : Workspace :=
  vs.foldl (fun W v => W.set v.name v.value) W

/-- Sets every variable of another workspace. -/
def merge (W other : Workspace) : Workspace := W.setAll other.toList

def named? (W : Workspace) (name : String) : Option Variable :=
  Variable.lookup? (fold name) W.toList

def find? (W : Workspace) (name : String) : Option Matrix := (W.named? name).map Variable.value

/-- How the variable of a name is spelled. -/
def spelling? (W : Workspace) (name : String) : Option String :=
  (W.named? name).map Variable.name

/-- The value of a name, or that there is none. -/
def get (W : Workspace) (name : String) : Except NotSet Matrix :=
  match W.find? name with
  | some value => .ok value
  | none => .error ⟨name⟩

/-- Whether a name has a value. -/
def isSet (W : Workspace) (name : String) : Bool := (W.find? name).isSome

def names (W : Workspace) : List String := W.toList.map Variable.name

def size (W : Workspace) : Nat := W.toList.length

def isEmpty (W : Workspace) : Bool := W.toList.isEmpty

/-- Whether two workspaces have the same spellings and equal values. -/
instance : BEq Workspace :=
  ⟨fun W V => W.toList.map (fun v => (v.name, v.value)) ==
    V.toList.map (fun v => (v.name, v.value))⟩

def json (W : Workspace) : Json := .object (W.toList.map fun v => (v.name, v.value.json))

theorem ext {W V : Workspace} (h : W.toList = V.toList) : W = V := by
  cases W
  cases V
  simp_all

/-- Nothing is left of what a workspace held. -/
@[simp] theorem clear_eq_empty (W : Workspace) : W.clear = empty := rfl

@[simp] theorem find?_empty (name : String) : empty.find? name = none := rfl

/-- What is found after setting a variable. -/
theorem find?_set (W : Workspace) (name query : String) (value : Matrix) :
    (W.set name value).find? query =
      if fold query = fold name then some value else W.find? query := by
  simp only [find?, named?, set, Variable.lookup?_insert W.sorted]
  split <;> rfl

/-- Spellings after setting a variable. -/
theorem spelling?_set (W : Workspace) (name query : String) (value : Matrix) :
    (W.set name value).spelling? query =
      if fold query = fold name then some ((W.spelling? query).getD name)
      else W.spelling? query := by
  simp only [spelling?, named?, set, Variable.lookup?_insert W.sorted]
  split <;> rfl

end Workspace

end ModelScoring
