/-!
Line ends.

A text may end its lines by a newline, by a return, or by a return and a newline together. Read as
program text it has newlines only.
-/

namespace Brainfuck.Text

/-- A text with every line end written as one newline. -/
def unifyNewlines : List Char → List Char
  | '\r' :: '\n' :: rest => '\n' :: unifyNewlines rest
  | '\r' :: rest => '\n' :: unifyNewlines rest
  | c :: rest => c :: unifyNewlines rest
  | [] => []

end Brainfuck.Text
