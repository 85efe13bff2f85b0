import Mathlib.Logic.Function.Basic
import Brainfuck.Tape.Lemmas

/-!
The tape without an end.

An endless tape has a cell for every natural number, all zero at first, and a pointer to one of
them. It need not grow, so its operations are the plain ones: a move, which is refused when it would
leave the first cell to the left, and an edit of the cell under the pointer. `Tape.endless` is how a
tape is seen as an endless one; from a tape with its pointer inside, each operation on the tape is
the operation of that name on the endless one.
-/

namespace Brainfuck

/-- A byte for every natural number, and a pointer. -/
@[ext]
structure EndlessTape where
  pointer : Nat
  cells : Nat → UInt8

namespace EndlessTape

/-- All cells zero, with the pointer on the first. -/
def blank : EndlessTape :=
  ⟨0, fun _ => 0⟩

/-- The cell under the pointer. -/
def current (tape : EndlessTape) : UInt8 :=
  tape.cells tape.pointer

def moveRight (tape : EndlessTape) (count : Nat) : EndlessTape :=
  { tape with pointer := tape.pointer + count }

/-- The pointer moved to the left; `none` if there are too few cells. -/
def moveLeft? (tape : EndlessTape) (count : Nat) : Option EndlessTape :=
  if count ≤ tape.pointer then some { tape with pointer := tape.pointer - count } else none

/-- The cell under the pointer changed. -/
def edit (tape : EndlessTape) (f : UInt8 → UInt8) : EndlessTape :=
  { tape with cells := Function.update tape.cells tape.pointer (f tape.current) }

theorem moveRight_moveRight (tape : EndlessTape) (a b : Nat) :
    (tape.moveRight a).moveRight b = tape.moveRight (a + b) := by
  simp only [moveRight, Nat.add_assoc]

theorem moveLeft?_zero (tape : EndlessTape) : tape.moveLeft? 0 = some tape := rfl

theorem moveLeft?_add (tape : EndlessTape) (a b : Nat) :
    tape.moveLeft? (a + b) = (tape.moveLeft? a).bind (·.moveLeft? b) := by
  unfold moveLeft?
  by_cases ha : a ≤ tape.pointer
  · rw [if_pos ha, Option.bind_some]
    by_cases hb : a + b ≤ tape.pointer
    · rw [if_pos hb, if_pos (by dsimp only; omega), Nat.sub_sub]
    · rw [if_neg hb, if_neg (by dsimp only; omega)]
  · rw [if_neg ha, Option.bind_none, if_neg (by omega)]

theorem current_edit (tape : EndlessTape) (f : UInt8 → UInt8) :
    (tape.edit f).current = f tape.current :=
  Function.update_self ..

theorem edit_edit (tape : EndlessTape) (f g : UInt8 → UInt8) :
    (tape.edit f).edit g = tape.edit (g ∘ f) := by
  have hcurrent := current_edit tape f
  simp only [edit] at hcurrent ⊢
  rw [hcurrent, Function.update_idem]
  rfl

theorem edit_id (tape : EndlessTape) : tape.edit id = tape := by
  simp only [edit, current, id, Function.update_eq_self]

end EndlessTape

namespace Tape

/-- A tape seen as an endless one. -/
def endless (tape : Tape) : EndlessTape :=
  ⟨tape.pointer.toNat, tape.cellAt⟩

theorem endless_blank (size : Nat) : (blank size).endless = .blank := by
  rw [endless, EndlessTape.blank, funext (cellAt_blank size)]
  rfl

theorem Inside.current?_eq_endless {tape : Tape} (h : tape.Inside) :
    tape.current? = some tape.endless.current :=
  h.current?_eq

theorem Inside.pointer_eq {tape : Tape} (h : tape.Inside) :
    tape.pointer = tape.endless.pointer :=
  (Int.toNat_of_nonneg h.1).symm

theorem Inside.endless_moveRight {tape : Tape} (h : tape.Inside) (count : Nat) :
    (tape.moveRight count).endless = tape.endless.moveRight count := by
  have h₁ := h.1
  simp only [endless, EndlessTape.moveRight, pointer_moveRight,
    funext (cellAt_moveRight tape count)]
  congr 1
  omega

theorem endless_moveLeft {tape : Tape} {count : Nat} (hc : (count : Int) ≤ tape.pointer) :
    tape.endless.moveLeft? count = some (tape.moveLeft count).endless := by
  rw [EndlessTape.moveLeft?, if_pos (by simp only [endless]; omega)]
  simp only [endless, pointer_moveLeft, funext (cellAt_moveLeft tape count)]
  congr 2
  omega

theorem Inside.endless_moveLeft_eq_none {tape : Tape} (h : tape.Inside) {count : Nat}
    (hc : tape.pointer < count) : tape.endless.moveLeft? count = none := by
  have h₁ := h.1
  rw [EndlessTape.moveLeft?, if_neg]
  simp only [endless]
  omega

theorem Inside.endless_modify {tape : Tape} (h : tape.Inside) (f : UInt8 → UInt8) :
    (tape.modify f).endless = tape.endless.edit f := by
  ext i
  · simp only [endless, EndlessTape.edit, pointer_modify]
  · simp only [endless, EndlessTape.edit, EndlessTape.current, cellAt_modify h, Function.update_apply]
    split
    · next hi => rw [hi]
    · rfl

end Tape

end Brainfuck
