import Brainfuck.Log
import Brainfuck.Machine

/-!
The execution of a source from its text to its end.

An execution refuses the empty text, makes the program of the source and runs it on a fresh tape.
It leaves the streams as the run left them, a log, and the failure if there was one. The log has a
record for the program once there is one, and two more when the run succeeds. Since a run need not
end, `execute?` is given a number of turns and has no answer if they do not suffice.
-/

namespace Brainfuck

inductive Failure where
  | source (fault : SyntaxFault)
  | run (fault : RunFault)
  deriving DecidableEq, Repr

def SyntaxFault.report (source : Source) : SyntaxFault → Report
  | .emptyCode =>
    { kind := .emptyCode, message := Kind.emptyCode.tag ++ ": no code to execute" }
  | .noOperations =>
    { kind := .noOperations
      message := Kind.noOperations.tag ++ ": no valid operations in input stream" }
  | .unmatched .closing position =>
    Report.ofBracket .unmatchedEnd "']' without a matching '['" source position
  | .unmatched .opening position =>
    Report.ofBracket .unmatchedStart "'[' without a matching ']'" source position

/-- The report on a failed execution of a source, if it is one to report on. -/
def Failure.report? (source : Source) : Failure → Option Report
  | .source fault => some (fault.report source)
  | .run fault => fault.report?

structure Execution (σ : Type) where
  failure : Option Failure
  log : List Log.Record
  streams : σ

namespace Execution

def shownCells : Nat := 16

/-- A debug record of a run. -/
def debugRecord (message : String) : Log.Record :=
  ⟨.debug, .interpreter, message⟩

/-- The debug record of a program that is about to run. -/
def programRecord (program : Program) : Log.Record :=
  debugRecord ("tokenized " ++ toString program.length ++ " operations ("
    ++ toString program.jumps.size ++ " loops)")

def listing (bytes : List UInt8) : String :=
  "[" ++ ", ".intercalate (bytes.map fun byte => toString byte.toNat) ++ "]"

/-- The debug records of a run that has succeeded. -/
def endRecords (turns : Nat) (tape : Tape) : List Log.Record :=
  [debugRecord ("finished after " ++ toString turns ++ " steps, tape length " ++ toString tape.size),
   debugRecord ("tape head: " ++ listing (tape.snapshot (some shownCells)))]

/-- The program of a text that is to be executed. -/
def program (source : Source) : Except SyntaxFault Program :=
  if source.isEmpty then .error .emptyCode else Program.ofSource source

/-- The execution that ends where a run of its program stands, if the run has ended. -/
def ofProgress? {σ : Type} (program : Program) : Machine.Progress σ → Option (Execution σ)
  | .succeeded turns machine =>
    some ⟨none, programRecord program :: endRecords turns machine.state.tape, machine.streams⟩
  | .failed why machine => some ⟨some (.run why), [programRecord program], machine.streams⟩
  | .running _ => none

/-- The execution of a text in at most `bound` turns. -/
def execute? {σ : Type} (console : Console σ) (bound : Nat) (source : Source) (streams : σ) :
    Option (Execution σ) :=
  match program source with
  | .error fault => some ⟨some (.source fault), [], streams⟩
  | .ok program => ofProgress? program (Machine.runFor console program bound (Machine.start streams))

end Execution

end Brainfuck
