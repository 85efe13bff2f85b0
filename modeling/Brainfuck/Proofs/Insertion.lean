import Brainfuck.Proofs.Completion

/-!
A balanced stretch put into a token sequence.

The tokens `front ++ rest` are taken apart at some place, perhaps inside a loop or a block of equal
operators, and a balanced stretch is put there. It moves the tokens behind it (`moved`) and leaves
the brackets as they were: the new sequence is balanced just if the old one is
(`balanced_insert_iff`), can be completed just if the old one can (`viable_insert_iff`), and
brackets that belong together still do (`Matches.insert`).

A run that has come to an index stands at `arrived` in the new sequence: at the place itself it
stands in front of the stretch, and has yet to pass it.
-/

namespace Brainfuck

/-- Where the token at an index stands when `count` tokens are put in at `place`. -/
def moved (place count i : Nat) : Nat :=
  if i < place then i else i + count

/-- Where a run that has come to an index stands when `count` tokens are put in at `place`. -/
def arrived (place count i : Nat) : Nat :=
  if i ≤ place then i else i + count

section

variable {place count i : Nat}

theorem moved_of_lt (h : i < place) : moved place count i = i :=
  if_pos h

theorem moved_of_le (h : place ≤ i) : moved place count i = i + count :=
  if_neg (Nat.not_lt.mpr h)

theorem arrived_of_le (h : i ≤ place) : arrived place count i = i :=
  if_pos h

theorem moved_succ (place count i : Nat) : moved place count i + 1 = arrived place count (i + 1) := by
  simp only [moved, arrived]
  split <;> split <;> omega

theorem arrived_of_ne (h : i ≠ place) : arrived place count i = moved place count i := by
  simp only [moved, arrived]
  split <;> split <;> omega

end

section

variable {front stretch rest : List Token} {i j : Nat}

theorem getElem?_moved (front stretch rest : List Token) (i : Nat) :
    (front ++ stretch ++ rest)[moved front.length stretch.length i]? = (front ++ rest)[i]? := by
  rcases Nat.lt_or_ge i front.length with hi | hi
  · rw [moved_of_lt hi, List.append_assoc, List.getElem?_append_left hi,
      List.getElem?_append_left hi]
  · have hlen : (front ++ stretch).length ≤ i + stretch.length := by
      rw [List.length_append]
      omega
    have hindex : i + stretch.length - (front ++ stretch).length = i - front.length := by
      rw [List.length_append]
      omega
    rw [moved_of_le hi, List.getElem?_append_right hlen, List.getElem?_append_right hi, hindex]

/-! ## Balance -/

theorem viable_insert_iff (h : Balanced stretch) :
    Viable (front ++ stretch ++ rest) ↔ Viable (front ++ rest) := by
  have hzero : depth stretch = 0 := (balanced_iff_depth.mp h).2
  rw [viable_append_iff, viable_append_iff, viable_append_iff, depth_append, hzero, Int.add_zero]
  -- the stretch never takes the depth below what it is in front of it
  have hstretch : Viable front → ∀ n, 0 ≤ depth front + depth (stretch.take n) := by
    intro hfront n
    have h₁ := hfront.depth_nonneg
    have h₂ := h.viable n
    omega
  constructor
  · rintro ⟨⟨hfront, -⟩, hrest⟩
    exact ⟨hfront, hrest⟩
  · rintro ⟨hfront, hrest⟩
    exact ⟨⟨hfront, hstretch hfront⟩, hrest⟩

theorem balanced_iff_viable {tokens : List Token} :
    Balanced tokens ↔ Viable tokens ∧ depth tokens = 0 :=
  balanced_iff_depth

theorem balanced_insert_iff (h : Balanced stretch) :
    Balanced (front ++ stretch ++ rest) ↔ Balanced (front ++ rest) := by
  have hzero : depth stretch = 0 := (balanced_iff_depth.mp h).2
  rw [balanced_iff_viable, balanced_iff_viable, viable_insert_iff h, depth_append, depth_append,
    depth_append, hzero, Int.add_zero]

/-! ## Brackets that belong together -/

theorem between_across (front rest : List Token) (hi : i < front.length) (hj : front.length ≤ j) :
    between (front ++ rest) i j = front.drop (i + 1) ++ rest.take (j - front.length) := by
  rw [between, List.take_append, List.take_of_length_le hj, List.drop_append_of_le_length hi]

theorem between_behind (front rest : List Token) (i j : Nat) :
    between (front ++ rest) (front.length + i) (front.length + j) = between rest i j := by
  rw [between, between, List.take_length_add_append, Nat.add_assoc, List.drop_length_add_append]

/-- Brackets belong together where they have been moved to. -/
theorem Matches.insert (h : Matches (front ++ rest) i j) (hs : Balanced stretch) :
    Matches (front ++ stretch ++ rest) (moved front.length stretch.length i)
      (moved front.length stretch.length j) := by
  have hlt := h.lt
  refine ⟨?_, ?_, ?_, ?_⟩
  · rw [getElem?_moved]
    exact h.opening
  · rw [getElem?_moved]
    exact h.closing
  · simp only [moved]
    split <;> split <;> omega
  · have hbalanced := h.balanced
    -- the two brackets stand on the same side of the stretch, or it comes between them
    rcases Nat.lt_or_ge j front.length with hj | hj
    · have hi : i < front.length := Nat.lt_trans hlt hj
      have hm : Matches front i j := (matches_append_iff rest hj).mp h
      rw [moved_of_lt hi, moved_of_lt hj, List.append_assoc]
      exact ((matches_append_iff (stretch ++ rest) hj).mpr hm).balanced
    · rcases Nat.lt_or_ge i front.length with hi | hi
      · have hsub : j + stretch.length - front.length = stretch.length + (j - front.length) := by
          omega
        rw [between_across front rest hi hj] at hbalanced
        rw [moved_of_lt hi, moved_of_le hj, List.append_assoc,
          between_across front (stretch ++ rest) hi (Nat.le_add_right_of_le hj), hsub,
          List.take_length_add_append, ← List.append_assoc]
        exact (balanced_insert_iff hs).mpr hbalanced
      · obtain ⟨k, rfl⟩ := Nat.exists_eq_add_of_le hi
        obtain ⟨l, rfl⟩ := Nat.exists_eq_add_of_le hj
        have hlen : ∀ n, front.length + n + stretch.length = (front ++ stretch).length + n := by
          intro n
          rw [List.length_append]
          omega
        rw [between_behind] at hbalanced
        rw [moved_of_le hi, moved_of_le hj, hlen, hlen, between_behind]
        exact hbalanced

end

end Brainfuck
