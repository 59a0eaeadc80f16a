import GrammarNotation.Text.Decimal
import GrammarNotation.Text.Printable

/-!
# Quoted text

The form in which a message shows a string: in single quotes, or in double quotes if the string
holds a single quote and no double quote. The backslash and the quote in use are escaped, and so
is every character that cannot be shown as it is.

## Main definitions

- `escaped` — one character as it stands between quotes
- `quoted` — a string with its quotes
-/

namespace GrammarNotation.Text

/-- A code point in hexadecimal, behind a letter that tells how many digits follow. -/
def escapedCodePoint (n : Nat) : List Char :=
  if n < 0x100 then '\\' :: 'x' :: hexDigits 2 n
  else if n < 0x10000 then '\\' :: 'u' :: hexDigits 4 n
  else '\\' :: 'U' :: hexDigits 8 n

/-- One character as it stands between the quotes. -/
def escaped (quote c : Char) : List Char :=
  if c = '\\' ∨ c = quote then ['\\', c]
  else if c = '\n' then ['\\', 'n']
  else if c = '\r' then ['\\', 'r']
  else if c = '\t' then ['\\', 't']
  else if isPrintable c then [c]
  else escapedCodePoint c.toNat

/-- The quote that stands around a string. -/
def quoteFor (cs : List Char) : Char :=
  if '\'' ∈ cs ∧ '"' ∉ cs then '"' else '\''

/-- A string in quotes, with what cannot be shown escaped. -/
def quoted (s : String) : String :=
  let quote := quoteFor s.toList
  String.ofList (quote :: s.toList.flatMap (escaped quote) ++ [quote])

example : quoted "it's" = "\"it's\"" := by decide +kernel

example : quoted "it's \"so\"\n" = "'it\\'s \"so\"\\n'" := by decide +kernel

example : quoted "\x00é\u200b" = "'\\x00é\\u200b'" := by decide +kernel

end GrammarNotation.Text
