import Brainfuck.Tape

/-!
The tape as it is seen by a program: a row of bytes without an end.

`cellAt` is the value of a cell by its index, a cell past the last one held being zero, and
`Inside` says that the pointer is on a cell that is held. From a tape with its pointer inside, a
move to the right by a count that is not negative leads to a tape with its pointer inside
(`inside_moveRight`) and changes no cell (`cellAt_moveRight`), however much the tape grows; an edit
changes the cell under the pointer and no other (`cellAt_modify`).
-/

namespace Brainfuck.Tape

/-- The value of the cell at an index; cells past the last one held are zero. -/
def cellAt (tape : Tape) (i : Nat) : UInt8 :=
  tape.cells[i]?.getD 0

/-- The pointer is on one of the cells held. -/
def Inside (tape : Tape) : Prop :=
  0 ≤ tape.pointer ∧ tape.pointer < tape.size

theorem inside_blank {size : Nat} (h : 0 < size) : (blank size).Inside := by
  refine ⟨Int.le_refl 0, ?_⟩
  rw [size_blank]
  exact Int.natCast_pos.mpr h

theorem Inside.cell?_eq {tape : Tape} (h : tape.Inside) :
    tape.cell? = some tape.pointer.toNat := by
  have hp : ((tape.pointer.toNat : Nat) : Int) = tape.pointer := Int.toNat_of_nonneg h.1
  have hlt : tape.pointer.toNat < tape.size := by
    have := h.2
    omega
  rw [cell?, ← hp, Offset.place?_ofNat hlt, Int.toNat_natCast]

theorem Inside.current?_eq {tape : Tape} (h : tape.Inside) :
    tape.current? = some (tape.cellAt tape.pointer.toNat) := by
  have hlt : tape.pointer.toNat < tape.cells.size := by
    have h₁ := h.1
    have h₂ : tape.pointer < (tape.cells.size : Int) := h.2
    omega
  rw [current?, h.cell?_eq]
  simp only [cellAt, Array.getElem?_eq_getElem hlt, Option.getD_some]

theorem inside_of_current? {tape : Tape} {cell : UInt8} (h : tape.current? = some cell)
    (hpointer : 0 ≤ tape.pointer) : tape.Inside := by
  rw [current?] at h
  cases hcell : tape.cell? with
  | none =>
    rw [hcell] at h
    contradiction
  | some i =>
    have hplace := Offset.place?_isSome_iff.mp (Option.isSome_of_eq_some hcell)
    exact ⟨hpointer, hplace.2⟩

/-! ## What each operation does to the cells -/

theorem cellAt_blank (size i : Nat) : (blank size).cellAt i = 0 := by
  simp only [cellAt, blank, Array.getElem?_replicate]
  split <;> rfl

theorem getD_extend (cells : Array UInt8) (length i : Nat) :
    (extend cells length)[i]?.getD 0 = cells[i]?.getD 0 := by
  rw [extend, Array.getElem?_append]
  split
  · rfl
  · next h =>
    have hnone : cells[i]? = none := Array.getElem?_eq_none (by omega)
    rw [hnone, Array.getElem?_replicate]
    split <;> rfl

theorem cellAt_moveRight (tape : Tape) (count : Int) (i : Nat) :
    (tape.moveRight count).cellAt i = tape.cellAt i := by
  simp only [moveRight, cellAt]
  split
  · exact getD_extend _ _ _
  · rfl

theorem cellAt_moveLeft (tape : Tape) (count : Int) (i : Nat) :
    (tape.moveLeft count).cellAt i = tape.cellAt i := rfl

theorem cellAt_modify {tape : Tape} (h : tape.Inside) (f : UInt8 → UInt8) (i : Nat) :
    (tape.modify f).cellAt i =
      if i = tape.pointer.toNat then f (tape.cellAt i) else tape.cellAt i := by
  have hcell : Offset.place? tape.cells.size tape.pointer = some tape.pointer.toNat := h.cell?_eq
  have hlt : tape.pointer.toNat < tape.cells.size := Offset.place?_lt hcell
  simp only [modify, hcell, cellAt, Array.getElem?_modify]
  by_cases hi : i = tape.pointer.toNat
  · subst hi
    simp [Array.getElem?_eq_getElem hlt]
  · rw [if_neg (Ne.symm hi), if_neg hi]

/-! ## Where each operation leaves the pointer -/

theorem pointer_moveRight (tape : Tape) (count : Int) :
    (tape.moveRight count).pointer = tape.pointer + count := by
  simp only [moveRight]
  split <;> rfl

theorem pointer_moveLeft (tape : Tape) (count : Int) :
    (tape.moveLeft count).pointer = tape.pointer - count := rfl

theorem pointer_modify (tape : Tape) (f : UInt8 → UInt8) :
    (tape.modify f).pointer = tape.pointer := by
  simp only [modify]
  split <;> rfl

theorem size_moveRight (tape : Tape) (count : Int) :
    (tape.moveRight count).size =
      if tape.size ≤ tape.pointer + count then
        max (tape.pointer + count + 1).toNat (tape.size * growthFactor)
      else tape.size := by
  by_cases h : (tape.size : Int) ≤ tape.pointer + count
  · have grown : tape.moveRight count =
        ⟨extend tape.cells (max (tape.pointer + count + 1).toNat (tape.size * growthFactor)),
          tape.pointer + count⟩ := if_pos h
    rw [if_pos h, grown, size, size_extend]
    -- doubling never shrinks a tape, so the length asked for is the length it has
    simp only [size, growthFactor]
    omega
  · have kept : tape.moveRight count = ⟨tape.cells, tape.pointer + count⟩ := if_neg h
    rw [if_neg h, kept, size, size]

theorem size_moveLeft (tape : Tape) (count : Int) : (tape.moveLeft count).size = tape.size := rfl

/-- A move to the right stays inside, because the tape grows under it. -/
theorem inside_moveRight {tape : Tape} (h : tape.Inside) {count : Int} (hc : 0 ≤ count) :
    (tape.moveRight count).Inside := by
  have h₁ := h.1
  rw [Inside, pointer_moveRight, size_moveRight]
  refine ⟨by omega, ?_⟩
  split <;> omega

theorem inside_moveLeft {tape : Tape} (h : tape.Inside) {count : Int} (hc : 0 ≤ count)
    (hf : tape.fault? (.moveLeft count) = none) : (tape.moveLeft count).Inside := by
  have h₂ := h.2
  simp only [fault?] at hf
  split at hf
  · contradiction
  · rw [Inside, pointer_moveLeft, size_moveLeft]
    exact ⟨by omega, by omega⟩

theorem inside_modify {tape : Tape} (h : tape.Inside) (f : UInt8 → UInt8) :
    (tape.modify f).Inside := by
  rw [Inside, pointer_modify, size_modify]
  exact h

end Brainfuck.Tape
