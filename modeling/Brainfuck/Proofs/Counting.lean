import Brainfuck.Program

/-!
The count of equal operators, without a bound.

`Program.runLength?` looks at so many operators at most. `CountsTo` is the same count with no bound to
it: it goes on as long as the next operator is there and is equal, wherever the index is, and ends
with the first one that is not. The bound is never what ends the count (`countsTo_countEqual`), so the
count ends at every index that names an operator, and the run length is what it ends with
(`exists_countsTo`).
-/

namespace Brainfuck.Program

/-- The operator so many places behind an index is there, and is counted too. -/
def GoesOn (tokens : Array Token) (t : Token) (index : Int) (count : Nat) : Prop :=
  index + count < tokens.size ∧ token? tokens (index + count) = some t

/-- A count that has come to `count` operators ends with `total` of them. -/
inductive CountsTo (tokens : Array Token) (t : Token) (index : Int) : Nat → Nat → Prop
  | stop {count : Nat} (ends : ¬ GoesOn tokens t index count) : CountsTo tokens t index count count
  | next {count total : Nat} (goesOn : GoesOn tokens t index count)
      (more : CountsTo tokens t index (count + 1) total) : CountsTo tokens t index count total

variable {tokens : Array Token} {t : Token} {index : Int} {count total : Nat}

namespace CountsTo

theorem le (h : CountsTo tokens t index count total) : count ≤ total := by
  induction h with
  | stop _ => exact Nat.le_refl _
  | next _ _ ih => exact Nat.le_of_succ_le ih

theorem goesOn (h : CountsTo tokens t index count total) {k : Nat} (hle : count ≤ k)
    (hlt : k < total) : GoesOn tokens t index k := by
  induction h with
  | stop _ => exact absurd hlt (Nat.not_lt.mpr hle)
  | next goesOn _ ih =>
    rcases Nat.eq_or_lt_of_le hle with rfl | hlt'
    · exact goesOn
    · exact ih hlt' hlt

theorem ends (h : CountsTo tokens t index count total) : ¬ GoesOn tokens t index total := by
  induction h with
  | stop ends => exact ends
  | next _ _ ih => exact ih

theorem unique {other : Nat} (h : CountsTo tokens t index count total)
    (h' : CountsTo tokens t index count other) : other = total := by
  rcases Nat.lt_trichotomy other total with hlt | heq | hgt
  · exact absurd (h.goesOn h'.le hlt) h'.ends
  · exact heq
  · exact absurd (h'.goesOn h.le hgt) h.ends

end CountsTo

/-- A bound that reaches the end of the operators is never used up before the count ends. -/
theorem countsTo_countEqual {bound : Nat} (h : tokens.size ≤ index + count + bound) :
    CountsTo tokens t index count (countEqual tokens t bound (index + count) count) := by
  induction bound generalizing count with
  | zero =>
    apply CountsTo.stop
    rintro ⟨hlt, -⟩
    omega
  | succ bound ih =>
    have hindex : index + count + 1 = index + (count + 1 : Nat) := by omega
    rw [countEqual, hindex]
    split
    · next goesOn => exact .next goesOn (ih (by omega))
    · next ends => exact .stop ends

theorem token?_isSome_iff :
    (token? tokens index).isSome ↔ -(tokens.size : Int) ≤ index ∧ index < tokens.size := by
  rw [← Offset.place?_isSome_iff, token?]
  cases hplace : Offset.place? tokens.size index with
  | none => simp
  | some i => simp [Offset.place?_lt hplace]

theorem goesOn_zero (h : token? tokens index = some t) : GoesOn tokens t index 0 := by
  have hinside := token?_isSome_iff.mp (Option.isSome_of_eq_some h)
  rw [GoesOn, Int.natCast_zero, Int.add_zero]
  exact ⟨hinside.2, h⟩

/-- The count from the operator that an index names ends, and with the run length. -/
theorem exists_countsTo (h : token? tokens index = some t) :
    ∃ total, runLength? tokens index = some total ∧ CountsTo tokens t index 1 total := by
  obtain ⟨total, htotal⟩ : ∃ total, runLength? tokens index = some total :=
    ⟨_, by rw [runLength?, h, Option.map_some]⟩
  have hcounts : CountsTo tokens t index 0 total := by
    have hbound : (tokens.size : Int) ≤ index + (0 : Nat) + (tokens.size - index).toNat := by omega
    have hcount := countsTo_countEqual (t := t) hbound
    rw [Int.natCast_zero, Int.add_zero] at hcount
    rw [runLength?, h, Option.map_some] at htotal
    rwa [Option.some.inj htotal] at hcount
  refine ⟨total, htotal, ?_⟩
  cases hcounts with
  | stop ends => exact absurd (goesOn_zero h) ends
  | next _ more => exact more

end Brainfuck.Program
