/-
Quoted text, as messages show names: between double quotes, with an escape for every character that
would be invisible or would end the text.

Quotes and backslashes are escaped by a backslash, the characters NUL, tab, carriage return and line
feed have letters of their own, and a character that is unprintable, a filler or extends its
grapheme is written by its number. A single quote stands for itself.
-/
import Graft.Text.Hex
import Graft.Text.Printable

set_option autoImplicit false

namespace Graft.Text

/-- A character as it stands between quotes. -/
def quoteChar (c : Char) : List Char :=
  if c = '"' then ['\\', '"']
  else if c = '\\' then ['\\', '\\']
  else if c = '\n' then ['\\', 'n']
  else if c = '\r' then ['\\', 'r']
  else if c = '\t' then ['\\', 't']
  else if c.toNat = 0 then ['\\', '0']
  else if 0x20 ≤ c.toNat ∧ c.toNat < 0x7f then [c]
  else if isPrintable c && !isFiller c && !extendsGrapheme c then [c]
  else ['\\', 'u', '\x7b'] ++ (Hex.ofNat c.toNat).toList ++ ['\x7d']

/-- A text between double quotes. -/
def quoted (text : String) : String :=
  String.ofList ('"' :: text.toList.flatMap quoteChar ++ ['"'])

end Graft.Text
