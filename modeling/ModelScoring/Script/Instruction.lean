import ModelScoring.Json
import ModelScoring.Operation
import ModelScoring.Text.Cut

/-!
# Instructions

An instruction names a destination, an operation and one or two operands.  It is written
`dest = op(a, b)`.  `Instruction.read` takes a line apart at the first equals sign, then at the
first opening parenthesis behind it, then at the first closing one behind that.  Blanks around the
parts do not count.

A line that has not this form is refused as a whole.  The form is looked at before the name of
the operation, and the name before the number of operands.
-/

namespace ModelScoring

/-- A line of a script. -/
structure Instruction where
  /-- The variable that takes the result. -/
  dest : String
  /-- What is done. -/
  op : Operation
  /-- The first operand. -/
  arg1 : String
  /-- The second operand, if there is one. -/
  arg2 : Option String
  deriving DecidableEq

/-- Why a line is no instruction. -/
inductive ScriptError
  /-- The line has not the form of an instruction, or not as many operands as its operation
  takes. -/
  | poorlyFormed (line : String)
  /-- There is no operation of that name. -/
  | unrecognized (name : String)
  deriving DecidableEq, Repr

def ScriptError.message : ScriptError → String
  | poorlyFormed line => s!"poorly formatted script command \"{line}\""
  | unrecognized name => s!"unrecognized script command \"{name}\""

namespace Instruction

def operands (i : Instruction) : List String := i.arg1 :: i.arg2.toList

def text (i : Instruction) : String :=
  i.dest ++ " = " ++ i.op.name ++ "(" ++ String.intercalate ", " i.operands ++ ")"

def json (i : Instruction) : Json :=
  .object
    [("dest", .text i.dest), ("op", .text i.op.name), ("arg1", .text i.arg1),
      ("arg2", match i.arg2 with
        | some arg => .text arg
        | none => .null)]

/-- The parts of a line in the form of an instruction: the destination, the name of the operation
and the operands. -/
structure Parts where
  dest : List Char
  name : List Char
  operands : List (List Char)

/-- The parts of a line, if it has the form of an instruction. -/
def parts? (line : List Char) : Option Parts := do
  let (dest, call) ← Text.cut '=' line
  let (name, rest) ← Text.cut '(' call
  let (operands, trailing) ← Text.cut ')' rest
  let parts : Parts := ⟨Text.trim dest, Text.trim name, Text.pieces (· == ',') operands⟩
  if parts.dest.isEmpty || parts.name.isEmpty || !Text.allBlank trailing ||
      parts.operands.any List.isEmpty then
    none
  else some parts

/-- The instruction with a destination, an operation and as many operands as that takes. -/
def assemble? (dest : String) (op : Operation) : List String → Option Instruction
  | [a] => if op.arity = 1 then some ⟨dest, op, a, none⟩ else none
  | [a, b] => if op.arity = 2 then some ⟨dest, op, a, some b⟩ else none
  | _ => none

def read (line : String) : Except ScriptError Instruction :=
  match parts? line.toList with
  | none => .error (.poorlyFormed line)
  | some parts =>
    match Operation.ofName? (String.ofList parts.name) with
    | none => .error (.unrecognized (String.ofList parts.name))
    | some op =>
      match assemble? (String.ofList parts.dest) op (parts.operands.map String.ofList) with
      | none => .error (.poorlyFormed line)
      | some instruction => .ok instruction

/-- An assembled instruction has as many operands as its operation takes. -/
theorem length_operands_of_assemble? {dest : String} {op : Operation} {names : List String}
    {i : Instruction} (h : assemble? dest op names = some i) : i.operands.length = i.op.arity := by
  unfold assemble? at h
  split at h
  · split at h
    · next harity =>
      cases h
      exact harity.symm
    · cases h
  · split at h
    · next harity =>
      cases h
      exact harity.symm
    · cases h
  · cases h

theorem length_operands_of_read {line : String} {i : Instruction} (h : read line = .ok i) :
    i.operands.length = i.op.arity := by
  unfold read at h
  split at h
  · cases h
  · split at h
    · cases h
    · split at h
      · cases h
      · next hassemble =>
        cases h
        exact length_operands_of_assemble? hassemble

end Instruction

example : (Instruction.read " T2 =MTimes( t,tsq ) ").toOption.map Instruction.text =
    some "T2 = mtimes(t, tsq)" := by decide +kernel

end ModelScoring
