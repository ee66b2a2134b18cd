import ScriptNumbers.Text.Printable

/-! Text in double quotes, with escapes for quotes, backslashes and characters that are not printable. -/

namespace ScriptNumbers.Text

/-- A code point in hexadecimal braces. -/
def codePoint (c : Char) : List Char := ['\\', 'u', '{'] ++ Nat.toDigits 16 c.toNat ++ ['}']

def escape (c : Char) : List Char :=
  if c = '"' ∨ c = '\\' then ['\\', c]
  else if c = '\n' then ['\\', 'n']
  else if c = '\r' then ['\\', 'r']
  else if c = '\t' then ['\\', 't']
  else if c.toNat = 0 then ['\\', '0']
  else if isPrintable c then [c]
  else codePoint c

def quoted (text : String) : String := String.ofList ('"' :: text.toList.flatMap escape ++ ['"'])

end ScriptNumbers.Text
