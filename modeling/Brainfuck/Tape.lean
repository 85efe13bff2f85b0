import Brainfuck.Offset

/-!
The tape: a row of bytes, and a pointer to one of them.

A tape holds the cells written so far and grows when the pointer goes past the last of them: to
the length it needs, or to twice its length, whichever is more. New cells are zero. Arithmetic on
a cell is modulo 256. The pointer is a signed offset (`Offset.place?`), so a tape whose pointer
has been put outside its cells refuses to read or change one.

`Op` names the operations. `fault?` says when an operation is refused and why, `apply` says what
it does to the tape, and `reply` what it answers; a refused operation changes nothing.
-/

namespace Brainfuck

/-- A row of byte cells and a pointer. -/
structure Tape where
  cells : Array UInt8
  pointer : Int
  deriving DecidableEq

namespace Tape

def initialSize : Nat := 1

/-- The factor by which a tape grows at least. -/
def growthFactor : Nat := 2

def modulus : Nat := 256

/-- A tape of so many zero cells, with the pointer on the first. -/
def blank (size : Nat) : Tape :=
  ⟨Array.replicate size 0, 0⟩

/-- A tape of `size` zero cells; there is none of a negative size. -/
def ofSize? (size : Int) : Option Tape :=
  if 0 ≤ size then some (blank size.toNat) else none

def size (tape : Tape) : Nat :=
  tape.cells.size

/-- Why the tape refuses an operation. -/
inductive Fault where
  /-- A move to the left by `count` cells from the cell `pointer`, where there are too few. -/
  | negativePointer (pointer count : Int)
  /-- The pointer is outside the `size` cells. -/
  | outside (pointer : Int) (size : Nat)
  | notAByte (value : Int)
  deriving DecidableEq, Repr

inductive Op where
  | moveRight (count : Int)
  | moveLeft (count : Int)
  | add (count : Int)
  | sub (count : Int)
  | get
  | set (value : Int)
  | snapshot (limit : Option Int)
  deriving DecidableEq, Repr

inductive Reply where
  | done
  | byte (value : UInt8)
  | cells (values : List UInt8)
  deriving DecidableEq, Repr

def cell? (tape : Tape) : Option Nat :=
  Offset.place? tape.size tape.pointer

def current? (tape : Tape) : Option UInt8 :=
  match tape.cell? with
  | some i => tape.cells[i]?
  | none => none

def snapshot (tape : Tape) (limit : Option Int) : List UInt8 :=
  match limit with
  | none => tape.cells.toList
  | some limit => tape.cells.toList.take (Offset.cut tape.size limit)

/-- The cells, with zeros appended up to a length. -/
def extend (cells : Array UInt8) (length : Nat) : Array UInt8 :=
  cells ++ Array.replicate (length - cells.size) 0

/-- The pointer moved to the right, and the tape grown if that is past its end. -/
def moveRight (tape : Tape) (count : Int) : Tape :=
  match tape with
  | ⟨cells, pointer⟩ =>
    let target := pointer + count
    if cells.size ≤ target then
      ⟨extend cells (max (target + 1).toNat (cells.size * growthFactor)), target⟩
    else ⟨cells, target⟩

def moveLeft (tape : Tape) (count : Int) : Tape :=
  match tape with
  | ⟨cells, pointer⟩ => ⟨cells, pointer - count⟩

/-- The cell under the pointer changed, if there is one. -/
def modify (tape : Tape) (f : UInt8 → UInt8) : Tape :=
  match tape with
  | ⟨cells, pointer⟩ =>
    match Offset.place? cells.size pointer with
    | some i => ⟨cells.modify i f, pointer⟩
    | none => ⟨cells, pointer⟩

/-- Why an operation is refused; `none` if it is carried out. -/
def fault? (tape : Tape) : Op → Option Fault
  | .moveRight _ | .snapshot _ => none
  | .moveLeft count =>
    if tape.pointer - count < 0 then some (.negativePointer tape.pointer count) else none
  | .add _ | .sub _ | .get =>
    if tape.cell?.isNone then some (.outside tape.pointer tape.size) else none
  | .set value =>
    if tape.cell?.isNone then some (.outside tape.pointer tape.size)
    else if value < 0 ∨ modulus ≤ value then some (.notAByte value)
    else none

/-- The tape after an operation that is not refused. -/
def apply (tape : Tape) : Op → Tape
  | .moveRight count => tape.moveRight count
  | .moveLeft count => tape.moveLeft count
  | .add count => tape.modify fun cell => UInt8.ofInt (cell.toNat + count)
  | .sub count => tape.modify fun cell => UInt8.ofInt (cell.toNat - count)
  | .set value => tape.modify fun _ => UInt8.ofInt value
  | .get | .snapshot _ => tape

/-- What an operation that is not refused answers. -/
def reply (tape : Tape) : Op → Reply
  | .get => tape.current?.elim .done .byte
  | .snapshot limit => .cells (tape.snapshot limit)
  | .moveRight _ | .moveLeft _ | .add _ | .sub _ | .set _ => .done

/-- One operation: what it answers and the tape it leaves, or the refusal. -/
def perform (tape : Tape) (op : Op) : Except Fault (Reply × Tape) :=
  match tape.fault? op with
  | some fault => .error fault
  | none => .ok (tape.reply op, tape.apply op)

/-- The tape after an operation, refused or not. -/
def after (tape : Tape) (op : Op) : Tape :=
  match tape.fault? op with
  | some _ => tape
  | none => tape.apply op

theorem size_blank (size : Nat) : (blank size).size = size := by
  simp [blank, Tape.size]

theorem size_extend (cells : Array UInt8) (length : Nat) :
    (extend cells length).size = max cells.size length := by
  simp only [extend, Array.size_append, Array.size_replicate]
  omega

theorem size_modify (tape : Tape) (f : UInt8 → UInt8) : (tape.modify f).size = tape.size := by
  simp only [modify, Tape.size]
  split <;> simp

end Tape

end Brainfuck
