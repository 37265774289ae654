import ModelScoring.Text.Fold

/-!
# The operations of a script

There are eleven operations.  Three take one operand and eight take two.  Each has one name,
and a script may write that name in any case of the ASCII letters.  `Operation.ofName?_eq_some_iff`
says which operation a name means.
-/

namespace ModelScoring

/-- An operation of a script. -/
inductive Operation
  /-- Absolute values. -/
  | abs
  /-- Logarithms to the base ten. -/
  | log10
  /-- Rows and columns exchanged. -/
  | transpose
  /-- Sums, element by element. -/
  | plus
  /-- Differences, element by element. -/
  | minus
  /-- Products, element by element. -/
  | times
  /-- Quotients, element by element. -/
  | rdivide
  /-- Powers, element by element. -/
  | power
  /-- The matrix product, or the multiple by a scalar. -/
  | mtimes
  /-- The columns with the given numbers. -/
  | cols
  /-- The rows with the given numbers. -/
  | rows
  deriving DecidableEq, Repr

namespace Operation

/-- Every operation, in the order of their numbers. -/
def all : List Operation :=
  [abs, log10, transpose, plus, minus, times, rdivide, power, mtimes, cols, rows]

def name : Operation → String
  | abs => "abs"
  | log10 => "log10"
  | transpose => "transpose"
  | plus => "plus"
  | minus => "minus"
  | times => "times"
  | rdivide => "rdivide"
  | power => "power"
  | mtimes => "mtimes"
  | cols => "cols"
  | rows => "rows"

/-- How many operands an operation takes. -/
def arity : Operation → Nat
  | abs | log10 | transpose => 1
  | plus | minus | times | rdivide | power | mtimes | cols | rows => 2

/-- The operation with a name, the case of ASCII letters aside. -/
def ofName? (text : String) : Option Operation :=
  all.find? fun op => op.name = Text.fold text

theorem mem_all (op : Operation) : op ∈ all := by cases op <;> decide

theorem name_injective {a b : Operation} (h : a.name = b.name) : a = b := by
  cases a <;> cases b <;> first | rfl | (exact absurd h (by decide))

/-- A name means the operation whose name it is once its capitals are small. -/
theorem ofName?_eq_some_iff {text : String} {op : Operation} :
    ofName? text = some op ↔ op.name = Text.fold text := by
  constructor
  · intro h
    simpa using List.find?_some h
  · intro h
    cases hf : ofName? text with
    | none =>
      have := List.find?_eq_none.1 hf op (mem_all op)
      simp [h] at this
    | some found =>
      have hn : found.name = Text.fold text := by simpa using List.find?_some hf
      rw [name_injective (hn.trans h.symm)]

end Operation

end ModelScoring
