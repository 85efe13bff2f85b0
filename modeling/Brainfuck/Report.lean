import Brainfuck.Report.Kind
import Brainfuck.Source.Excerpt
import Brainfuck.Text.Quoted

/-!
Reports: what the interpreter says about a failure.

A report has a kind, a message, and for some kinds particulars: where a bracket stands, or from
which cell how far the pointer was to be moved. Two reports are equal when all of these are.
-/

namespace Brainfuck

inductive Report.Detail where
  | plain
  /-- A bracket: its position in the source, its line and column, and the lines around it. -/
  | loop (position line column : Int) (context : String)
  /-- A move of the pointer: the cell it was to leave, and how far it was to go. -/
  | move (pointer count : Int)
  deriving DecidableEq, Repr

structure Report where
  kind : Kind
  message : String
  detail : Report.Detail := .plain
  deriving DecidableEq, Repr

namespace Report

/-- The fields of a report, in order, with their values as they are listed. -/
def fields (report : Report) : List (String × String) :=
  ("message", Text.quoted report.message) ::
    match report.detail with
    | .plain => []
    | .loop position line column context =>
      [("position", toString position), ("line", toString line), ("column", toString column),
       ("context", Text.quoted context)]
    | .move pointer count => [("pointer", toString pointer), ("count", toString count)]

/-- A report listed field by field, under a name. -/
def listing (name : String) (report : Report) : String :=
  name ++ "(" ++ ", ".intercalate (report.fields.map fun (field, value) => field ++ "=" ++ value)
    ++ ")"

/-- The report on a bracket: the summary, the place, the lines around it, and the hint. -/
def ofBracket (kind : Kind) (summary : String) (source : Source) (position : Int) : Report :=
  let place := source.locate position
  let context := Excerpt.ofSource source place
  let hint := kind.hint?.elim "" ("\nHint: " ++ ·)
  { kind
    message := kind.tag ++ ": " ++ summary ++ " (line " ++ toString place.line ++ ", column "
      ++ toString place.column ++ ")\n" ++ context ++ hint
    detail := .loop position place.line place.column context }

end Report

end Brainfuck
