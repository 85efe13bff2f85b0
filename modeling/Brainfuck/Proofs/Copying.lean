import Mathlib.Data.List.TakeWhile
import Brainfuck.Proofs.LinearLoop
import Brainfuck.Proofs.PaddedInput
import Brainfuck.Proofs.Showing

/-!
A program that copies its input.

The operators are a read, and a loop that writes and reads again (`copying`). At the loop end the
cell holds the byte read last, which is the next one of the input, or a zero past its end; the bytes
in front of it have been written, and one read more has been made than bytes have been written
(`Machine.copier`). A pass through the loop takes this to the same for one byte more, as long as the
byte is not zero (`path_pass`). So the loop is left at the first zero, be it in the input or behind
it, and what has been written is the part of the input in front of the first zero.

This holds of every source with these operators, whatever else stands between them
(`copies_of_tokens`).
-/

namespace Brainfuck

/-- A read, and a loop of a write and a read. -/
def copying : List Token :=
  [.input, .loopStart, .output, .input, .loopEnd]

/-- A source for it that says what it does. -/
def Source.copyExample : Source :=
  "Echo stdin to stdout until end of input (end of input reads as 0)\n,[.,]\n".toList

/-- The part of an input in front of its first zero. -/
def nonzeroFront (input : List UInt8) : List UInt8 :=
  input.takeWhile (· != 0)

/-- Executing the source on the input copies the longest front part without a zero. -/
structure Execution.Copies (source : Source) (input output : List UInt8) : Prop where
  front : output <+: input
  nonzero : 0 ∉ output
  longest : ∀ other, other <+: input → 0 ∉ other → other.length ≤ output.length
  /-- Each byte takes three turns. -/
  executed : ∀ bound, 3 * output.length + 2 < bound → ∃ execution,
    execute? Script.console bound source (Script.ofInput input) = some execution ∧
      execution.failure = none ∧ execution.streams.written.toList = output ∧
      execution.streams.reads = output.length + 1
  evaluated : ∀ bound, 3 * output.length + 2 < bound →
    Evaluation.ofSource? bound source (.bytes input) = some (.ok output)

/-! ## The front part without zeros -/

section

variable (byte : UInt8) (input : List UInt8)

theorem nonzeroFront_zero : nonzeroFront (0 :: input) = [] := rfl

theorem nonzeroFront_cons (h : byte ≠ 0) :
    nonzeroFront (byte :: input) = byte :: nonzeroFront input := by
  apply List.takeWhile_cons_of_pos
  exact bne_iff_ne.mpr h

theorem nonzeroFront_front : nonzeroFront input <+: input :=
  List.takeWhile_prefix _

theorem zero_not_mem_nonzeroFront : 0 ∉ nonzeroFront input := by
  intro hmem
  have hne := List.mem_takeWhile_imp hmem
  exact absurd rfl (bne_iff_ne.mp hne)

theorem length_le_nonzeroFront {other : List UInt8} (hfront : other <+: input)
    (hzero : 0 ∉ other) : other.length ≤ (nonzeroFront input).length := by
  obtain ⟨rest, rfl⟩ := hfront
  have hwhole : nonzeroFront (other ++ rest) = other ++ nonzeroFront rest := by
    apply List.takeWhile_append_of_pos
    intro byte hbyte
    apply bne_iff_ne.mpr
    intro hc
    exact hzero (hc ▸ hbyte)
  rw [hwhole, List.length_append]
  exact Nat.le_add_right _ _

/-- The byte behind the front part is zero, be it in the input or past its end. -/
theorem padded_nonzeroFront : padded input (nonzeroFront input).length = 0 := by
  induction input with
  | nil => rfl
  | cons byte rest ih =>
    by_cases h : byte = 0
    · rw [h, nonzeroFront_zero]
      rfl
    · rw [nonzeroFront_cons byte rest h]
      exact ih

theorem padded_ne_zero {r : Nat} (hr : r < (nonzeroFront input).length) : padded input r ≠ 0 := by
  obtain ⟨rest, hrest⟩ := nonzeroFront_front input
  have hget : input[r]? = some (nonzeroFront input)[r] := by
    calc input[r]? = (nonzeroFront input ++ rest)[r]? := by rw [hrest]
      _ = (nonzeroFront input)[r]? := List.getElem?_append_left hr
      _ = some (nonzeroFront input)[r] := List.getElem?_eq_getElem hr
  intro hzero
  apply zero_not_mem_nonzeroFront input
  rw [← hzero, padded, hget]
  exact List.getElem_mem hr

theorem take_nonzeroFront : input.take (nonzeroFront input).length = nonzeroFront input :=
  (List.prefix_iff_eq_take.mp (nonzeroFront_front input)).symm

theorem take_succ_of_padded {r : Nat} (h : padded input r ≠ 0) :
    input.take (r + 1) = input.take r ++ [padded input r] := by
  rw [padded] at h ⊢
  rw [List.take_add_one]
  cases hget : input[r]? with
  | none =>
    rw [hget] at h
    exact absurd rfl h
  | some byte => rfl

end

/-! ## The loop -/

/-- The tape of one cell. -/
def Tape.single (cell : UInt8) : Tape :=
  ⟨#[cell], 0⟩

namespace Tape

theorem inside_single (cell : UInt8) : (single cell).Inside :=
  ⟨Int.le_refl 0, Int.zero_lt_one⟩

theorem apply_set_single (cell byte : UInt8) :
    (single cell).apply (.set byte.toNat) = single byte := by
  have hbyte : UInt8.ofInt byte.toNat = byte := by
    rw [byte_ofInt_natCast, UInt8.ofNat_toNat]
  rw [apply, hbyte]
  rfl

end Tape

/-- The script of an input of which so many bytes have been written, after so many reads. -/
def Script.amid (input : List UInt8) (written reads : Nat) : Script :=
  { input := input.drop reads
    written := (input.take written).toArray
    reads }

theorem Script.over_amid (input : List UInt8) (written reads : Nat) :
    Over input (amid input written reads) :=
  ⟨⟨rfl, rfl, rfl, rfl⟩, rfl⟩

namespace Machine

open Script (console amid over_amid)

variable {program : Program}

/-- A machine that has copied so many bytes, with the byte read last in its cell. -/
def copier (index : Nat) (input : List UInt8) (count : Nat) : Machine Script :=
  standing index (Tape.single (padded input count)) (amid input count (count + 1))

section

variable (htokens : program.tokens.toList = copying) (input : List UInt8)

include htokens

theorem getElem?_copying (i : Nat) : program.tokens[i]? = copying[i]? := by
  rw [← Array.getElem?_toList, htokens]

theorem step_read {index : Nat} (hindex : copying[index]? = some .input) (cell : UInt8)
    (written reads : Nat) :
    (standing index (Tape.single cell) (amid input written reads)).step console program =
      .running (standing (index + 1) (Tape.single (padded input reads))
        (amid input written (reads + 1))) := by
  have ht : program.tokens[index]? = some .input := by
    rw [getElem?_copying htokens, hindex]
  have hread := (over_amid input written reads).read_eq
  have hcall : console.read (amid input written reads) =
      (.ok (some ((input.drop reads).take 1)), amid input written (reads + 1)) := hread
  rw [step_input ht (Tape.inside_single cell) hcall, byteOf_take_drop, Tape.apply_set_single]

theorem step_write {index : Nat} (hindex : copying[index]? = some .output) {written : Nat}
    (h : padded input written ≠ 0) (reads : Nat) :
    (standing index (Tape.single (padded input written)) (amid input written reads)).step console
        program =
      .running (standing (index + 1) (Tape.single (padded input written))
        (amid input (written + 1) reads)) := by
  have ht : program.tokens[index]? = some .output := by
    rw [getElem?_copying htokens, hindex]
  have hcell : (Tape.single (padded input written)).current? = some (padded input written) := rfl
  have hwrite := (over_amid input written reads).write_eq (padded input written)
  have hafter : amid input (written + 1) reads = { amid input written reads with
      written := (amid input written reads).written.push (padded input written) } := by
    simp only [amid, take_succ_of_padded input h, List.push_toArray]
  have hcall : console.write (padded input written) (amid input written reads) =
      (.ok (), amid input (written + 1) reads) := by
    rw [hafter]
    exact hwrite
  exact step_output ht hcell hcall

theorem step_bracket (hp : program.Paired) {index : Nat} (hindex : index = 1 ∨ index = 4)
    (count : Nat) :
    (copier index input count).step console program =
      .running (copier (if padded input count = 0 then 5 else 2) input count) := by
  have hm : Matches program.tokens.toList 1 4 := by
    rw [htokens]
    exact ⟨rfl, rfl, by decide, by decide⟩
  have hcell : (Tape.single (padded input count)).current? = some (padded input count) := rfl
  rcases hindex with rfl | rfl
  · rw [copier, step_loopStart console hp hm hcell]
    split <;> rfl
  · rw [copier, step_loopEnd console hp hm hcell]
    split <;> rfl

/-- A pass through the loop copies the byte in the cell and reads another. -/
theorem path_pass {count : Nat} (h : padded input count ≠ 0) :
    Path console program (copier 2 input count) [2, 3] (copier 4 input (count + 1)) :=
  .step (step_write htokens input rfl h _) (.single (step_read htokens input rfl _ _ _))

/-- From either bracket the loop is run to its end: what has been copied then is all that stands in
front of the first zero. -/
theorem exists_path_behind (hp : program.Paired) (left : Nat) {index count : Nat}
    (hindex : index = 1 ∨ index = 4) (hleft : count + left = (nonzeroFront input).length) :
    ∃ indices, indices.length = 3 * left + 1 ∧
      Path console program (copier index input count) indices
        (copier 5 input (nonzeroFront input).length) := by
  induction left generalizing index count with
  | zero =>
    have hstep := step_bracket htokens input hp hindex count
    rw [Nat.add_zero] at hleft
    rw [hleft, padded_nonzeroFront, if_pos rfl] at hstep
    rw [hleft]
    exact ⟨_, rfl, .single hstep⟩
  | succ left ih =>
    have hne : padded input count ≠ 0 := padded_ne_zero input (by omega)
    have hstep := step_bracket htokens input hp hindex count
    rw [if_neg hne] at hstep
    obtain ⟨indices, hlength, hpath⟩ := ih (.inr rfl) (by omega : count + 1 + left = _)
    refine ⟨_, ?_, .step hstep ((path_pass htokens input hne).append hpath)⟩
    simp only [List.length_cons, List.length_append, List.length_nil, hlength]
    omega

theorem runFor_copying (hp : program.Paired) {bound : Nat}
    (hbound : 3 * (nonzeroFront input).length + 2 < bound) :
    runFor console program bound (start (Script.ofInput input)) =
      .succeeded (3 * (nonzeroFront input).length + 2)
        (copier 5 input (nonzeroFront input).length) := by
  have hfirst : (start (Script.ofInput input)).step console program =
      .running (copier 1 input 0) := step_read htokens input rfl 0 0 0
  obtain ⟨indices, hlength, hpath⟩ :=
    exists_path_behind htokens input hp (nonzeroFront input).length (.inl rfl) (Nat.zero_add _)
  have hwhole := Path.step hfirst hpath
  have hturns : 3 * (nonzeroFront input).length + 2 = (indices.length + 1) := by
    omega
  have hend : (copier 5 input (nonzeroFront input).length).step console program =
      .stopped (copier 5 input (nonzeroFront input).length) := by
    have hsize : program.length = 5 := by
      rw [Program.length, ← Array.length_toList, htokens]
      rfl
    have hstop := step_end console program
      (Tape.single (padded input (nonzeroFront input).length))
      (amid input (nonzeroFront input).length ((nonzeroFront input).length + 1))
    rw [hsize] at hstop
    exact hstop
  rw [hturns] at hbound ⊢
  exact hwhole.runFor_eq hend hbound

end

end Machine

namespace Execution

theorem copies_of_tokens {source : Source} (h : source.tokens = copying) (input : List UInt8) :
    Copies source input (nonzeroFront input) := by
  have hne : source.tokens ≠ [] := by
    rw [h]
    decide
  have hbalanced : Balanced source.tokens := by
    rw [h]
    decide
  obtain ⟨prog, hprog⟩ := Program.exists_program hne hbalanced
  rw [← program_eq_ofSource hne] at hprog
  obtain ⟨hp, htokens⟩ := program_eq_ok hprog
  rw [h] at htokens
  have hexecuted : ∀ bound, 3 * (nonzeroFront input).length + 2 < bound → ∃ execution,
      execute? Script.console bound source (Script.ofInput input) = some execution ∧
        execution.failure = none ∧ execution.streams.written.toList = nonzeroFront input ∧
        execution.streams.reads = (nonzeroFront input).length + 1 := by
    intro bound hbound
    have hrun := Machine.runFor_copying htokens input hp hbound
    have hexecution : execute? Script.console bound source (Script.ofInput input) =
        ofProgress? prog (.succeeded (3 * (nonzeroFront input).length + 2)
          (Machine.copier 5 input (nonzeroFront input).length)) := by
      simp only [execute?, hprog, hrun]
    exact ⟨_, hexecution, rfl, take_nonzeroFront input, rfl⟩
  refine ⟨nonzeroFront_front input, zero_not_mem_nonzeroFront input, ?_, hexecuted, ?_⟩
  · intro other hfront hzero
    exact length_le_nonzeroFront input hfront hzero
  · intro bound hbound
    obtain ⟨execution, hexecution, hfailure, hwritten, -⟩ := hexecuted bound hbound
    simp only [Evaluation.ofSource?, Evaluation.Input.toBytes, hexecution, Option.map_some,
      hfailure, hwritten]

/-- The example and its bare operators copy every input up to its first zero. -/
theorem copies_up_to_zero (input : List UInt8) :
    Copies Source.copyExample input (nonzeroFront input) ∧
      Copies ",[.,]".toList input (nonzeroFront input) :=
  ⟨copies_of_tokens rfl input, copies_of_tokens rfl input⟩

end Execution

end Brainfuck
