import ClientGen.Text.Letter
import ClientGen.Number.Hexadecimal

/-!
# Texts shown in messages

A text inside a message stands between quotes with everything escaped that cannot be seen.

* `shown`: the text with its quotes. Double quotes are used only where they save the escaping of
  single ones.
-/

namespace ClientGen.Text

/-- The escape of a character by its code point, as short as it can be. -/
def codeEscape (c : Char) : List Char :=
  let n := c.toNat
  if n < 0x100 then '\\' :: 'x' :: Hexadecimal.digits 2 n
  else if n < 0x10000 then '\\' :: 'u' :: Hexadecimal.digits 4 n
  else '\\' :: 'U' :: Hexadecimal.digits 8 n

/-- A character between the given quotes. -/
def shownChar (quote c : Char) : List Char :=
  if c = quote ∨ c = '\\' then ['\\', c]
  else if c = '\t' then ['\\', 't']
  else if c = '\n' then ['\\', 'n']
  else if c = '\r' then ['\\', 'r']
  else if isPrintable c then [c]
  else codeEscape c

/-- A text between quotes. -/
def shown (s : String) : String :=
  let cs := s.toList
  let quote := if cs.contains '\'' && !cs.contains '"' then '"' else '\''
  String.ofList (quote :: cs.flatMap (shownChar quote) ++ [quote])

end ClientGen.Text
