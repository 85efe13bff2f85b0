import Brainfuck.Console
import Brainfuck.Program
import Brainfuck.Report
import Brainfuck.Tape

/-!
The machine: a program at work on a tape and a console.

A state is an index into the program and a tape. `State.turn` says what one turn does as far as it
can be said without the streams: it stops at the end of the program, it fails, it goes on with a
new state, or it asks to read or to write. A run of equal moves or equal edits is one turn. The
turn that reads or writes is finished by `step`, which makes the call on the console and turns a
stream fault into a failure of the run. A failed turn leaves the index and the tape as they were.

`runFor` takes a number of turns and counts them. A program need not stop, so a run is judged by
the runs of every length: it succeeds or fails if one of them does, and the longer ones then say
the same.
-/

namespace Brainfuck

/-- Why a run ends before the end of its program. The last two ends need a jump table that does
not belong to the tokens. -/
inductive RunFault where
  | tape (fault : Tape.Fault)
  | input (cause : Fault)
  | output (cause : Fault)
  /-- A stream refused with a fault the interpreter does not answer for. -/
  | foreign (cause : Fault)
  | noOperator
  /-- The jump table has no entry for the bracket at an index. -/
  | noPartner (index : Int)
  deriving DecidableEq, Repr

namespace RunFault

def ofRead (cause : Fault) : RunFault :=
  if cause.isStreamFault then .input cause else .foreign cause

def ofWrite (cause : Fault) : RunFault :=
  if cause.isStreamFault then .output cause else .foreign cause

/-- The report on a failed run; a foreign fault speaks for itself, and the failures that need a
hand-made state or table are not reported on. -/
def report? : RunFault → Option Report
  | .tape (.negativePointer pointer count) =>
    some
      { kind := .negativePointer
        message := Kind.negativePointer.tag ++ ": cannot move " ++ toString count
          ++ " left from cell " ++ toString pointer
        detail := .move pointer count }
  | .input cause =>
    some
      { kind := .input
        message := Kind.input.tag ++ ": cannot read from input stream (" ++ cause.text ++ ")" }
  | .output cause =>
    some
      { kind := .output
        message := Kind.output.tag ++ ": cannot write to output stream (" ++ cause.text ++ ")" }
  | .tape (.outside ..) | .tape (.notAByte _) | .foreign _ | .noOperator | .noPartner _ => none

end RunFault

/-- Where a run stands: at an index of the program, with a tape. -/
structure State where
  index : Int
  tape : Tape
  deriving DecidableEq

/-- The state a turn leads to, or why it failed and the state it left untouched. -/
abbrev State.Effect := Except (RunFault × State) State

/-- What a turn comes to before the streams are asked. -/
inductive Turn where
  /-- The index is past the last operator. -/
  | stop (here : State)
  | settled (effect : State.Effect)
  /-- A byte is to be read into the cell under the pointer. -/
  | read (here : State)
  | write (byte : UInt8) (here : State)

namespace State

def start (tape : Tape) : State :=
  ⟨0, tape⟩

def advance (state : State) : State :=
  match state with
  | ⟨index, tape⟩ => ⟨index + 1, tape⟩

/-- One operation on the tape, for the `count` operators from the index on. -/
def operate (state : State) (count : Nat) (op : Tape.Op) : Effect :=
  match state with
  | ⟨index, tape⟩ =>
    match tape.fault? op with
    | some fault => .error (.tape fault, ⟨index, tape⟩)
    | none => .ok ⟨index + count, tape.apply op⟩

/-- The turn at a bracket: the run goes on behind the partner if the cell asks for the jump, and
behind the bracket itself if not. -/
def branch (state : State) (jumps : UInt8 → Bool) (partner : Option Int) : Effect :=
  match state.tape.current? with
  | none => .error (.tape (.outside state.tape.pointer state.tape.size), state)
  | some cell =>
    if jumps cell then
      match partner with
      | some index => .ok ⟨index + 1, state.tape⟩
      | none => .error (.noPartner state.index, state)
    else .ok state.advance

def receive (state : State) (byte : UInt8) : Effect :=
  state.operate 1 (.set byte.toNat)

def emit (state : State) : Turn :=
  match state.tape.current? with
  | none => .settled (.error (.tape (.outside state.tape.pointer state.tape.size), state))
  | some cell => .write cell state

/-- What one turn of a program comes to before the streams are asked. -/
def turn (program : Program) (state : State) : Turn :=
  if program.length ≤ state.index then .stop state
  else
    match Program.token? program.tokens state.index with
    | none => .settled (.error (.noOperator, state))
    | some token =>
      let count := (Program.runLength? program.tokens state.index).getD 1
      match token with
      | .right => .settled (state.operate count (.moveRight count))
      | .left => .settled (state.operate count (.moveLeft count))
      | .increment => .settled (state.operate count (.add count))
      | .decrement => .settled (state.operate count (.sub count))
      | .loopStart => .settled (state.branch (· == 0) (program.jumps.endOf? state.index))
      | .loopEnd => .settled (state.branch (· != 0) (program.jumps.startOf? state.index))
      | .input => .read state
      | .output => state.emit

end State

structure Machine (σ : Type) where
  state : State
  streams : σ

inductive Step (σ : Type) where
  | stopped (machine : Machine σ)
  | failed (why : RunFault) (machine : Machine σ)
  | running (machine : Machine σ)

namespace Machine

variable {σ : Type}

def settle (streams : σ) : State.Effect → Step σ
  | .ok next => .running ⟨next, streams⟩
  | .error (why, here) => .failed why ⟨here, streams⟩

/-- One turn, with the call it makes on the console. -/
def step (console : Console σ) (program : Program) (machine : Machine σ) : Step σ :=
  match machine with
  | ⟨state, streams⟩ =>
    match state.turn program with
    | .stop here => .stopped ⟨here, streams⟩
    | .settled effect => settle streams effect
    | .read here =>
      match console.read streams with
      | (.error cause, streams) => .failed (.ofRead cause) ⟨here, streams⟩
      | (.ok answer, streams) => settle streams (here.receive (Console.byteOf answer))
    | .write byte here =>
      match console.write byte streams with
      | (.error cause, streams) => .failed (.ofWrite cause) ⟨here, streams⟩
      | (.ok (), streams) => .running ⟨here.advance, streams⟩

/-- Where a run stands after a number of turns: at an end, or still running. -/
inductive Progress (σ : Type) where
  /-- The end of the program was reached in so many turns. -/
  | succeeded (turns : Nat) (machine : Machine σ)
  | failed (why : RunFault) (machine : Machine σ)
  | running (machine : Machine σ)

/-- A run of at most `bound` turns, after `turns` turns made before. -/
def runFrom (console : Console σ) (program : Program) : Nat → Nat → Machine σ → Progress σ
  | 0, _, machine => .running machine
  | bound + 1, turns, machine =>
    match machine.step console program with
    | .stopped machine => .succeeded turns machine
    | .failed why machine => .failed why machine
    | .running machine => runFrom console program bound (turns + 1) machine

def runFor (console : Console σ) (program : Program) (bound : Nat) (machine : Machine σ) : Progress σ :=
  runFrom console program bound 0 machine

/-- The machine at the start of a program, on the tape every program starts on. -/
def start (streams : σ) : Machine σ :=
  ⟨State.start (Tape.blank Tape.initialSize), streams⟩

end Machine

end Brainfuck
