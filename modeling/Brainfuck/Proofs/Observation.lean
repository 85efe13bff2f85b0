import Mathlib.Data.Set.Image
import Brainfuck.Machine
import Brainfuck.Tape.Lemmas

/-!
What a run shows.

A `View` is what can be told from outside after some turns: the state of the streams and, if the
run has ended, how. A run that succeeded shows where it left the pointer and what the cells hold,
those past the last one held being zero; a run that failed shows the kind of failure. How far the
pointer was to move at once, and where the run stands in its program, do not show.

Over a console that records (`Console.recording`) the state of the streams has the list of all
calls made so far, with what they answered. Two runs are `Alike` when they show the same views:
then both end or neither does, they make the same calls in the same order, and they end in the same
way.
-/

namespace Brainfuck

/-! ## Calls -/

/-- A call on a console, and what it answered. -/
inductive Call where
  | read (answer : Except Fault (Option (List UInt8)))
  | write (byte : UInt8) (answer : Except Fault Unit)
  | flush (answer : Except Fault Unit)

/-- The state of streams, with the calls made on them, the latest last. -/
structure Recorded (σ : Type) where
  streams : σ
  calls : List Call

/-- The console that answers as another one does and records the calls. -/
def Console.recording {σ : Type} (console : Console σ) : Console (Recorded σ) where
  read := fun ⟨streams, calls⟩ =>
    let (answer, streams) := console.read streams
    (answer, ⟨streams, calls ++ [.read answer]⟩)
  write := fun byte ⟨streams, calls⟩ =>
    let (answer, streams) := console.write byte streams
    (answer, ⟨streams, calls ++ [.write byte answer]⟩)
  flush := fun ⟨streams, calls⟩ =>
    let (answer, streams) := console.flush streams
    (answer, ⟨streams, calls ++ [.flush answer]⟩)

/-! ## Views -/

/-- How a run ends, as far as it shows. -/
inductive Outcome where
  | success (pointer : Int) (cells : Nat → UInt8)
  | negativePointer
  | input (cause : Fault)
  | output (cause : Fault)
  | foreign (cause : Fault)
  /-- An end that needs a tape or a jump table made by hand. -/
  | broken

/-- The kind of a failure. -/
def RunFault.outcome : RunFault → Outcome
  | .tape (.negativePointer _ _) => .negativePointer
  | .input cause => .input cause
  | .output cause => .output cause
  | .foreign cause => .foreign cause
  | .tape (.outside _ _) | .tape (.notAByte _) | .noOperator | .noPartner _ => .broken

/-- What a run shows after some turns. -/
inductive View (σ : Type) where
  | running (streams : σ)
  | ended (outcome : Outcome) (streams : σ)

/-- The run has come to the end of its program. -/
def View.Succeeded {σ : Type} : View σ → Prop
  | .ended (.success _ _) _ => True
  | _ => False

theorem RunFault.not_succeeded {σ : Type} (why : RunFault) (streams : σ) :
    ¬ (View.ended why.outcome streams).Succeeded := by
  cases why with
  | tape fault => cases fault <;> exact id
  | _ => exact id

/-- What a run of the machine shows where it stands. -/
def Machine.Progress.view {σ : Type} : Progress σ → View σ
  | .running machine => .running machine.streams
  | .succeeded _ machine =>
    .ended (.success machine.state.tape.pointer machine.state.tape.cellAt) machine.streams
  | .failed why machine => .ended why.outcome machine.streams

/-- Two runs, given by their views after so many turns, show the same. -/
def Alike {σ : Type} (first second : Nat → View σ) : Prop :=
  Set.range first = Set.range second

theorem Alike.exists_second {σ : Type} {first second : Nat → View σ} (h : Alike first second)
    (turns : Nat) : ∃ turns', second turns' = first turns :=
  h.subset ⟨turns, rfl⟩

theorem Alike.exists_first {σ : Type} {first second : Nat → View σ} (h : Alike first second)
    (turns : Nat) : ∃ turns', first turns' = second turns :=
  h.superset ⟨turns, rfl⟩

end Brainfuck
