import Brainfuck.Source.Place

/-!
The excerpt of a source that is shown with a diagnosis.

An excerpt is a window of lines around one line, each with its number, the line in question marked
in the margin and followed by a row that holds a caret under one column. `Row` says what a row
is and `Row.render` how it is written: the margin of a source line is nine characters wide for
every number below ten thousand, and so is the margin of the caret row.
-/

namespace Brainfuck.Excerpt

inductive Row where
  /-- A line of the source with its number, marked when it is the one in question. -/
  | line (marked : Bool) (number : Nat) (text : String)
  /-- The caret that stands under a column of the row above. -/
  | caret (column : Int)
  deriving DecidableEq, Repr

def blank (width : Nat) : String :=
  String.ofList (List.replicate width ' ')

/-- A decimal numeral, set flush right in a field four characters wide. -/
def numeral (number : Nat) : String :=
  let digits := toString number
  blank (4 - digits.length) ++ digits

namespace Row

/-- The text of a row. A column below one leaves the caret at the margin. -/
def render : Row → String
  | .line marked number text =>
    (if marked then ">" else " ") ++ " " ++ numeral number ++ " | " ++ text
  | .caret column => "       | " ++ blank (column - 1).toNat ++ "^"

end Row

/-- The line an excerpt is centred on: a number below one stands for the first line. -/
def centre (line : Int) : Nat :=
  (max 1 line).toNat

def first (line context : Int) : Nat :=
  (max 1 (max 1 line - context)).toNat

def last (total : Nat) (line context : Int) : Int :=
  min total (max 1 line + context)

/-- The rows of the lines numbered from `number` on, with the caret after the line marked. -/
def rowsFrom (centre : Nat) (column : Int) (number : Nat) : List String → List Row
  | [] => []
  | text :: rest =>
    if number = centre then
      .line true number text :: .caret column :: rowsFrom centre column (number + 1) rest
    else .line false number text :: rowsFrom centre column (number + 1) rest

/-- The rows of the window of `context` lines on either side of a line. -/
def rows (lines : List String) (line column context : Int) : List Row :=
  let start := first line context
  let stop := (last lines.length line context).toNat
  rowsFrom (centre line) column start ((lines.take stop).drop (start - 1))

def render (lines : List String) (line column context : Int) : String :=
  "\n".intercalate ((rows lines line column context).map Row.render)

/-- The number of lines shown on either side where nothing else is asked for. -/
def defaultContext : Int := 2

def ofSource (source : Source) (place : Source.Place) : String :=
  render ((Source.lines source).map String.ofList) place.line place.column defaultContext

end Brainfuck.Excerpt
