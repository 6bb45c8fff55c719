import DocTable.Text.Combining
import DocTable.Text.Integer
import DocTable.Text.Printable

/-!
# Quoted text in messages

A name or a character that a message quotes is written so that it can be told from any other: quotes
and backslashes are escaped, and a character that would not show is written as its code point.
-/

set_option autoImplicit false

namespace DocTable.Quoted

/-- A character inside the given quotes. -/
def inside (quote c : Char) : List Char :=
  if c = '\x00' then ['\\', '0']
  else if c = '\t' then ['\\', 't']
  else if c = '\n' then ['\\', 'n']
  else if c = '\r' then ['\\', 'r']
  else if c = quote ∨ c = '\\' then ['\\', c]
  else if combining.has c || shapeless.has c || fillers.has c then
    '\\' :: 'u' :: '\x7b' :: ((hexText c.toNat).toList ++ ['\x7d'])
  else [c]

/-- A text in double quotes. -/
def text (s : String) : String :=
  String.ofList ('\x22' :: (s.toList.flatMap (inside '\x22') ++ ['\x22']))

/-- A character in single quotes. -/
def char (c : Char) : String :=
  String.ofList ('\'' :: (inside '\'' c ++ ['\'']))

end DocTable.Quoted
