import Brainfuck.Offset

/-!
Program text and the line and column of a position in it.

A source is a list of code points. Lines are ended by a newline character, and both lines and
columns count from one. A position is an offset in code points; one that lies outside the source
is still given a line and a column, by counting the newlines in front of it as a limit
(`Offset.cut`) and measuring the column from the raw offset.
-/

namespace Brainfuck

/-- Program text, as its code points. -/
abbrev Source := List Char

namespace Source

/-- A line and a column, both counted from one when the position lies inside the source. -/
structure Place where
  line : Nat
  column : Int
  deriving DecidableEq, Repr

/-- The length of the text after the last newline. -/
def tailLength (text : List Char) : Nat :=
  (text.reverse.takeWhile (· != '\n')).length

/-- Where the last line of a text begins: after its last newline, or at its start. -/
def lastLineStart (text : List Char) : Nat :=
  text.length - tailLength text

def locate (source : Source) (position : Int) : Place :=
  let front := source.take (Offset.cut source.length position)
  ⟨front.count '\n' + 1, position - lastLineStart front + 1⟩

/-- The lines of a text; a text of `n` newlines has `n + 1` of them. -/
def lines : Source → List (List Char)
  | [] => [[]]
  | c :: rest =>
    if c = '\n' then [] :: lines rest
    else
      match lines rest with
      | [] => [[c]]
      | first :: others => (c :: first) :: others

theorem lines_ne_nil (source : Source) : lines source ≠ [] := by
  cases source with
  | nil => simp [lines]
  | cons c rest =>
    simp only [lines]
    split
    · simp
    · split <;> simp

theorem length_lines (source : Source) : (lines source).length = source.count '\n' + 1 := by
  induction source with
  | nil => rfl
  | cons c rest ih =>
    simp only [lines]
    split
    · next h => subst h; simp [ih]
    · next h =>
      have hne := lines_ne_nil rest
      cases hl : lines rest with
      | nil => contradiction
      | cons first others =>
        rw [hl] at ih
        simpa [List.count_cons, h] using ih

end Source

end Brainfuck
