/-!
# Programs that read files

A program that reads files is kept as a value: it is done, or it says which file it wants next and
how it goes on with the answer.  The files themselves stay outside, and `Reading.run` is told where
they come from.

`run_bind` says that two programs in a row ask for their files one after the other.
-/

namespace ModelScoring

/-- What a file holds, or why it cannot be read. -/
abbrev FileAnswer := Except String ByteArray

/-- A program that may read files on the way to its result. -/
inductive Reading (α : Type)
  /-- It has its result. -/
  | done (value : α)
  /-- It wants a file, and goes on with the answer. -/
  | file (path : String) (next : FileAnswer → Reading α)

namespace Reading

/-- Goes on with the result of a program. -/
def bind {α β : Type} : Reading α → (α → Reading β) → Reading β
  | done value, f => f value
  | file path next, f => file path fun answer => (next answer).bind f

instance : Monad Reading where
  pure := done
  bind := bind

/-- Runs a program with files from a given place. -/
def run {m : Type → Type} [Monad m] (files : String → m FileAnswer) {α : Type} :
    Reading α → m α
  | done value => pure value
  | file path next => files path >>= fun answer => (next answer).run files

/-- A program that goes on with another runs the one and then the other. -/
theorem run_bind {m : Type → Type} [Monad m] [LawfulMonad m] (files : String → m FileAnswer)
    {α β : Type} (r : Reading α) (f : α → Reading β) :
    (r >>= f).run files = r.run files >>= fun value => (f value).run files := by
  induction r with
  | done value => exact (pure_bind value fun v => (f v).run files).symm
  | file path next ih =>
    change (file path fun answer => (next answer) >>= f).run files = _
    simp only [run, ih, bind_assoc]

/-- The text that bytes are. -/
def decode (bytes : ByteArray) : Except String String :=
  match String.fromUTF8? bytes with
  | some text => .ok text
  | none => .error "stream did not contain valid UTF-8"

/-- Reads a file of text: the text, or why it cannot be read. -/
def text (path : String) : Reading (Except String String) :=
  file path fun answer => done (answer.bind decode)

end Reading

end ModelScoring
