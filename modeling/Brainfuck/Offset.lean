/-!
Signed offsets into a sequence.

A sequence of `size` items can be addressed from either end: an offset that is not negative counts
from the front, a negative one counts back from the end, so `-1` names the last item. `place?`
gives the item an offset names, and `cut` gives the number of items in front of an offset when it
is used as a limit; a limit never fails, it is moved to the nearer end instead.
-/

namespace Brainfuck.Offset

/-- The item an offset names, or `none` when it lies outside the sequence on either side. -/
def place? (size : Nat) (offset : Int) : Option Nat :=
  if 0 ≤ offset then
    if offset < size then some offset.toNat else none
  else if -(size : Int) ≤ offset then some (offset + size).toNat
  else none

/-- The number of items in front of a limit, between none and all of them. -/
def cut (size : Nat) (limit : Int) : Nat :=
  if 0 ≤ limit then min limit.toNat size else (limit + size).toNat

theorem place?_ofNat {size i : Nat} (h : i < size) : place? size i = some i := by
  simp [place?, h]

theorem place?_ofNat_eq_none {size i : Nat} (h : size ≤ i) : place? size i = none := by
  simp only [place?]
  split
  · split
    · omega
    · rfl
  · omega

theorem place?_lt {size i : Nat} {offset : Int} (h : place? size offset = some i) : i < size := by
  simp only [place?] at h
  split at h
  · split at h
    · injection h; omega
    · contradiction
  · split at h
    · injection h; omega
    · contradiction

/-- An offset names an item exactly when it is within `size` of the front or of the end. -/
theorem place?_isSome_iff {size : Nat} {offset : Int} :
    (place? size offset).isSome ↔ -(size : Int) ≤ offset ∧ offset < size := by
  simp only [place?]
  split <;> split <;> simp <;> omega

theorem cut_ofNat (size limit : Nat) : cut size limit = min limit size := by
  simp [cut]

end Brainfuck.Offset
