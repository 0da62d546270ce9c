import TypedSheets.Number.Digits
import TypedSheets.Text.Basic
import TypedSheets.Text.Table.Mark
import TypedSheets.Text.Table.Unprintable

/-!
# Escaped texts

A text in double quotes that shows every character: quotes and backslashes are escaped, and what
does not print, or would join the character before it, is shown as a code point.

* `Text.shown` — how one character is shown
* `Text.quoted` — a whole text
-/

namespace TypedSheets.Text

open Number

/-- A code point in braces. -/
def codePoint (c : Char) : List Char :=
  ['\\', 'u', Char.ofNat 0x7B] ++ hexNat c.toNat ++ [Char.ofNat 0x7D]

/-- Whether a character is shown as it is. -/
def isPrintable (c : Char) : Bool :=
  !inRanges Table.extending c.toNat && !inRanges Table.unprintable c.toNat

/-- How a character is shown in quotes. -/
def shown (c : Char) : List Char :=
  if c == '"' then ['\\', '"']
  else if c == '\\' then ['\\', '\\']
  else if c == '\n' then ['\\', 'n']
  else if c == '\r' then ['\\', 'r']
  else if c == '\t' then ['\\', 't']
  else if c.toNat == 0 then ['\\', '0']
  else if isPrintable c then [c]
  else codePoint c

/-- A text in quotes, every character shown. -/
def quoted (s : String) : String :=
  String.ofList ('"' :: s.toList.flatMap shown ++ ['"'])

end TypedSheets.Text
