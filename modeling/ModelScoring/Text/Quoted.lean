/-!
# Quoted text

Text is quoted the way JSON wants it.  A quotation mark, a backslash and the control characters
below the space are escaped, and every other character stands for itself.
-/

namespace ModelScoring.Text

/-- The hexadecimal digits of a code below 256, two of them. -/
def hexPair (code : Nat) : List Char := [Nat.digitChar (code / 16), Nat.digitChar (code % 16)]

def escape (c : Char) : List Char :=
  if c = '"' then ['\\', '"']
  else if c = '\\' then ['\\', '\\']
  else if c.toNat = 0x08 then ['\\', 'b']
  else if c.toNat = 0x09 then ['\\', 't']
  else if c.toNat = 0x0A then ['\\', 'n']
  else if c.toNat = 0x0C then ['\\', 'f']
  else if c.toNat = 0x0D then ['\\', 'r']
  else if c.toNat < 0x20 then ['\\', 'u', '0', '0'] ++ hexPair c.toNat
  else [c]

def quoted (s : String) : String := String.ofList ('"' :: (s.toList.flatMap escape ++ ['"']))

example : quoted "a\"b\n\x01é" = "\"a\\\"b\\n\\u0001é\"" := by decide +kernel

end ModelScoring.Text
