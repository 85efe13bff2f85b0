/-!
The kinds of failure the interpreter reports.

Some kinds are general and others particular. A kind decides the exit code of the command line, the
word a message starts with, the hint that goes with it, and the label the command line shows. The
label and the exit code are all that the command line looks at (`Notice`).
-/

namespace Brainfuck

/-- What the command line shows of a failure, and the exit code it gives. -/
structure Notice where
  label : String
  exitCode : Int
  deriving DecidableEq, Repr

/-- A kind of failure, general or particular. -/
inductive Kind where
  | any
  | malformed
  | emptyCode
  | noOperations
  /-- The brackets of the source are not balanced. -/
  | loop
  | unmatchedStart
  | unmatchedEnd
  | stuck
  | negativePointer
  | stream
  | input
  | output
  deriving DecidableEq, Repr

namespace Kind

/-- The word a message of this kind starts with. -/
def tag : Kind → String
  | .emptyCode => "EmptyCode"
  | .noOperations => "NoValidTokens"
  | .unmatchedStart => "UnmatchedLoopStart"
  | .unmatchedEnd => "UnmatchedLoopEnd"
  | .negativePointer => "NegativePointer"
  | .input => "Input"
  | .output => "Output"
  | .any | .malformed | .loop | .stuck | .stream => "Error"

/-- The exit code of a command that failed in this way. -/
def exitCode : Kind → Int
  | .input => 3
  | .output => 4
  | _ => 2

/-- What the command line says of a failure of this kind, where it has words of its own for it. -/
def label? : Kind → Option String
  | .unmatchedStart => some "Unmatched loop start"
  | .unmatchedEnd => some "Unmatched loop end"
  | .emptyCode => some "Empty code"
  | .noOperations => some "No valid operations in input stream"
  | .negativePointer => some "Data pointer negative"
  | .input => some "Cannot read from input stream"
  | .output => some "Cannot write to output stream"
  | .any | .malformed | .loop | .stuck | .stream => none

def label (k : Kind) : String :=
  k.label?.getD k.tag

def notice (k : Kind) : Notice :=
  ⟨k.label, k.exitCode⟩

def hint? : Kind → Option String
  | .unmatchedStart =>
    some "Every \"[\" needs a \"]\" later in the program. Check for a missing \"]\"."
  | .unmatchedEnd =>
    some "This \"]\" closes no loop. Check for an extra \"]\" or a missing \"[\" before it."
  | _ => none

end Kind

end Brainfuck
