import Brainfuck.Machine

/-!
The trace of a run: the tape calls it makes, one for each turn at most.

A move or an edit is one call for the whole run of operators; a bracket and a write look at the
cell, and a read sets it. A call is listed with the pointer and the length of the tape after it. A
call that is refused is not listed; the look at the cell is listed even if what follows it in the
same turn fails.
-/

namespace Brainfuck.Trace

/-- A tape call that was carried out, and the tape's pointer and length after it. -/
structure Call where
  op : Tape.Op
  /-- The argument of the call, or the value of the cell that was looked at. -/
  value : Int
  pointer : Int
  size : Nat
  deriving DecidableEq, Repr

def Call.on (op : Tape.Op) (value : Int) (tape : Tape) : Call :=
  ⟨op, value, tape.pointer, tape.size⟩

/-- The look at the cell under the pointer. -/
def look (tape : Tape) : Option Call :=
  tape.current?.map fun cell => .on .get cell.toNat tape

/-- The tape call of the turn from a state, given the state after the turn if it did not fail. -/
def callAt (program : Program) (here : State) (after : Option State) : Option Call := do
  let token ← Program.token? program.tokens here.index
  let count ← Program.runLength? program.tokens here.index
  match token with
  | .loopStart | .loopEnd | .output => look here.tape
  | .right => after.map fun next => .on (.moveRight count) count next.tape
  | .left => after.map fun next => .on (.moveLeft count) count next.tape
  | .increment => after.map fun next => .on (.add count) count next.tape
  | .decrement => after.map fun next => .on (.sub count) count next.tape
  | .input =>
    let next ← after
    let cell ← next.tape.current?
    some (.on (.set cell.toNat) cell.toNat next.tape)

/-- The state a step leads to, unless it stopped or failed. -/
def next? {σ : Type} : Step σ → Option State
  | .running machine => some machine.state
  | .stopped _ | .failed .. => none

/-- A run of at most `bound` turns that lists the calls of its first `room` turns: the calls, and
where the run stands. -/
def record {σ : Type} (console : Console σ) (program : Program) :
    Nat → Nat → Nat → Array Call → Machine σ → Array Call × Machine.Progress σ
  | 0, _, _, calls, machine => (calls, .running machine)
  -- with no room left the run goes on unlisted, since its end is asked for all the same
  | bound + 1, 0, turns, calls, machine =>
    (calls, Machine.runFrom console program (bound + 1) turns machine)
  | bound + 1, room + 1, turns, calls, machine =>
    let here := machine.state
    let step := machine.step console program
    let calls := (callAt program here (next? step)).elim calls calls.push
    match step with
    | .stopped machine => (calls, .succeeded turns machine)
    | .failed why machine => (calls, .failed why machine)
    | .running machine => record console program bound room (turns + 1) calls machine

end Brainfuck.Trace
