/-!
The eight operators of the language and the characters that write them.

`Token.ofChar?` reads one character; every other character of a source is a comment. The two
functions are inverse on the operators (`ofChar?_eq_some_iff`), so a list of tokens and the text
of its characters are the same thing.
-/

namespace Brainfuck

/-- One operator of the language. -/
inductive Token where
  | right
  | left
  | increment
  | decrement
  | loopStart
  | loopEnd
  | input
  | output
  deriving DecidableEq, Repr

namespace Token

/-- The operators in the order in which the language is usually listed. -/
def all : List Token :=
  [.right, .left, .increment, .decrement, .loopStart, .loopEnd, .input, .output]

/-- The character that writes the operator. -/
def char : Token → Char
  | .right => '>'
  | .left => '<'
  | .increment => '+'
  | .decrement => '-'
  | .loopStart => '['
  | .loopEnd => ']'
  | .input => ','
  | .output => '.'

/-- The operator a character writes; `none` for a comment character. -/
def ofChar? : Char → Option Token
  | '>' => some .right
  | '<' => some .left
  | '+' => some .increment
  | '-' => some .decrement
  | '[' => some .loopStart
  | ']' => some .loopEnd
  | ',' => some .input
  | '.' => some .output
  | _ => none

@[simp] theorem ofChar?_char (t : Token) : ofChar? t.char = some t := by
  cases t <;> rfl

theorem ofChar?_eq_some_iff {c : Char} {t : Token} : ofChar? c = some t ↔ c = t.char := by
  constructor
  · intro h
    unfold ofChar? at h
    split at h <;> first | (injection h with h; subst h; rfl) | contradiction
  · rintro rfl
    exact ofChar?_char t

theorem mem_all (t : Token) : t ∈ all := by
  cases t <;> decide

end Token

end Brainfuck
