import Brainfuck.Text.Printable

/-!
Text in quotes, as file names and option values are shown in messages.

The text stands between single quotes, or between double quotes when it holds a single quote and
no double one. The quote itself and the backslash are escaped by a backslash, the tab, newline and
return characters by their letters, and every other character that is not printable by its code in
lower-case hexadecimal digits: two after `\x`, four after `\u`, eight after `\U`, whichever is the
first to hold it.
-/

namespace Brainfuck.Text

def hexDigit (n : Nat) : Char :=
  if n < 10 then Char.ofNat (48 + n) else Char.ofNat (87 + n)

/-- The low `width` hexadecimal digits of a number, most significant first. -/
def hex : Nat → Nat → List Char
  | 0, _ => []
  | width + 1, n => hex width (n / 16) ++ [hexDigit (n % 16)]

/-- A code point written as a backslash escape of the shortest form that holds it. -/
def codeEscape (code : Nat) : List Char :=
  if code < 0x100 then '\\' :: 'x' :: hex 2 code
  else if code < 0x10000 then '\\' :: 'u' :: hex 4 code
  else '\\' :: 'U' :: hex 8 code

/-- The quote put around a text. -/
def quoteFor (text : List Char) : Char :=
  if text.contains '\'' && !text.contains '"' then '"' else '\''

def escape (quote c : Char) : List Char :=
  if c = quote ∨ c = '\\' then ['\\', c]
  else if c = '\t' then ['\\', 't']
  else if c = '\n' then ['\\', 'n']
  else if c = '\r' then ['\\', 'r']
  else if isPrintable c then [c]
  else codeEscape c.toNat

/-- A text in quotes, with the characters escaped that cannot stand there as themselves. -/
def quoted (text : String) : String :=
  let chars := text.toList
  let quote := quoteFor chars
  String.ofList (quote :: chars.flatMap (escape quote) ++ [quote])

end Brainfuck.Text
