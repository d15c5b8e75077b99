import SourceScout.Text.Basic
import SourceScout.Text.Printable

/-!
# Quoted text

How a text is shown inside a message: between single quotes, or between double quotes if it has a
single quote and no double one. The backslash, the quote in use and everything that is not printable
are escaped.
-/

namespace SourceScout.Text

def quoteMark (t : Text) : Char := if t.contains '\'' && !t.contains '"' then '"' else '\''

def codeEscape (c : Char) : Text :=
  if c.toNat ≤ 0xff then '\\' :: 'x' :: ofHex 2 c.toNat
  else if c.toNat ≤ 0xffff then '\\' :: 'u' :: ofHex 4 c.toNat
  else '\\' :: 'U' :: ofHex 8 c.toNat

def quoteChar (mark c : Char) : Text :=
  if c = mark ∨ c = '\\' then ['\\', c]
  else if c = '\n' then ['\\', 'n']
  else if c = '\r' then ['\\', 'r']
  else if c = '\t' then ['\\', 't']
  else if isPrintable c then [c]
  else codeEscape c

def quoted (t : Text) : Text := quoteMark t :: t.flatMap (quoteChar (quoteMark t)) ++ [quoteMark t]

def quotedList (ts : List Text) : Text := '[' :: join ", " (ts.map quoted) ++ [']']

end SourceScout.Text
