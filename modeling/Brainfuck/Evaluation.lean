import Brainfuck.Execution
import Brainfuck.Files
import Brainfuck.Script

/-!
Evaluation: running a source on an input that is given, for the output.

The input is a sequence of bytes or a text in Latin-1, and the streams never refuse a call. The
source is given as a text or read from a file, however files are read; a file that cannot be read is
a fault before the input is looked at.
-/

namespace Brainfuck

inductive Evaluation.Input where
  | bytes (content : List UInt8)
  /-- A text, whose bytes are those of Latin-1. -/
  | text (content : String)
  deriving DecidableEq, Repr

/-- Why an evaluation has no output. -/
inductive Evaluation.Fault where
  | reading (fault : ReadFault)
  | encoding (fault : Text.EncodeFault)
  | execution (source : Source) (failure : Failure)

namespace Evaluation

def Input.toBytes : Input → Except Text.EncodeFault (List UInt8)
  | .bytes content => .ok content
  | .text content => Text.SingleByte.encodeLatin content.toList

/-- The output of a source on an input, in at most `bound` turns. -/
def ofSource? (bound : Nat) (source : Source) (input : Input) :
    Option (Except Fault (List UInt8)) :=
  match input.toBytes with
  | .error fault => some (.error (.encoding fault))
  | .ok bytes =>
    (Execution.execute? Script.console bound source (Script.ofInput bytes)).map fun execution =>
      match execution.failure with
      | some failure => .error (.execution source failure)
      | none => .ok execution.streams.written.toList

/-- The output of the source in a file on an input, in at most `bound` turns. -/
def ofFile? (bound : Nat) (read : String → String → Except ReadFault Source)
    (path encoding : String) (input : Input) : Option (Except Fault (List UInt8)) :=
  match read path encoding with
  | .error fault => some (.error (.reading fault))
  | .ok source => ofSource? bound source input

def text (output : List UInt8) : String :=
  String.ofList (Text.SingleByte.decodeLatin output)

end Evaluation

end Brainfuck
