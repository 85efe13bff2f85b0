import Mathlib.Algebra.Ring.Int.Defs
import Mathlib.Data.List.Induction
import Mathlib.Order.Bounds.Basic
import Mathlib.Order.Interval.Set.Defs
import Mathlib.Order.MinMax
import Brainfuck.Proofs.Turn
import Brainfuck.Script

/-!
A tape grows by few steps, and never far past the largest pointer.

`Tape.History` follows a tape through operations: the largest pointer so far, how often the tape has
been made anew because the pointer went past its end, and how many cells have been copied for that. A
tape made anew is long enough for its pointer and at least twice as long as before, so what has been
copied is less than its length, and so is the first length doubled once for each time (`Amortized`).
A tape that has been made anew has less than twice the cells that were needed. One operation keeps
all this, a refused one too (`Amortized.after`), so any number of them does.

Each turn of a run is one operation on its tape (`StepCase.exists_op`), so the bound by the largest
pointer holds of the tape of every run (`growth_amortized`).
-/

namespace Brainfuck

namespace Tape

/-- The count of a move is not negative. -/
def Op.Forward : Op → Prop
  | .moveRight count | .moveLeft count => 0 ≤ count
  | .add _ | .sub _ | .get | .set _ | .snapshot _ => True

/-- The operation takes the pointer past the last cell, so that the tape has to be made anew. -/
def grows (tape : Tape) : Op → Bool
  | .moveRight count => decide (tape.size ≤ tape.pointer + count)
  | .moveLeft _ | .add _ | .sub _ | .get | .set _ | .snapshot _ => false

/-- The tape after the first `n` of some operations. -/
def past (start : Tape) (ops : List Op) (n : Nat) : Tape :=
  (ops.take n).foldl after start

/-- A tape and what has been done to it. -/
structure History where
  tape : Tape
  /-- The largest pointer so far. -/
  reach : Int
  /-- How often the tape has been made anew. -/
  growths : Nat
  /-- How many cells have been copied from a tape to the one made in its place. -/
  copied : Nat

namespace History

def start (tape : Tape) : History :=
  ⟨tape, tape.pointer, 0, 0⟩

/-- One operation more, refused or not. A tape made anew begins with a copy of all cells. -/
def after (history : History) (op : Op) : History :=
  let next := history.tape.after op
  let reach := max history.reach next.pointer
  if history.tape.grows op then
    ⟨next, reach, history.growths + 1, history.copied + history.tape.size⟩
  else ⟨next, reach, history.growths, history.copied⟩

def ofOps (tape : Tape) (ops : List Op) : History :=
  ops.foldl History.after (.start tape)

/-- The growth of a tape that began with `size` cells is paid for by its length. -/
structure Amortized (size : Int) (history : History) : Prop where
  inside : history.tape.Inside
  reach_lt : history.reach + 1 ≤ history.tape.size
  size_le : history.tape.size ≤ max size (2 * history.reach)
  doubled : size * 2 ^ history.growths ≤ history.tape.size
  copied_lt : history.copied < history.tape.size

end History

/-- What becomes of a tape of `size` cells under operations. -/
structure GrowthAccounted (size : Int) (start : Tape) (ops : List Op) : Prop where
  tape_eq : (History.ofOps start ops).tape = ops.foldl after start
  reach_isGreatest : IsGreatest ((fun n => (start.past ops n).pointer) '' Set.Iic ops.length)
    (History.ofOps start ops).reach
  /-- A tape is made anew just when it becomes longer. -/
  grows_iff : ∀ op, op.Forward → ((ops.foldl after start).grows op = true ↔
    (ops.foldl after start).size < ((ops.foldl after start).after op).size)
  amortized : (History.ofOps start ops).Amortized size

/-! ## One operation -/

variable {tape : Tape} {op : Op}

theorem after_of_none (hf : tape.fault? op = none) : tape.after op = tape.apply op := by
  simp only [after, hf]

theorem after_of_some {fault : Fault} (hf : tape.fault? op = some fault) :
    tape.after op = tape := by
  simp only [after, hf]

theorem Inside.after_modify (h : tape.Inside) {f : UInt8 → UInt8}
    (ha : tape.apply op = tape.modify f) :
    (tape.after op).Inside ∧ (tape.after op).size = tape.size := by
  cases hf : tape.fault? op with
  | some fault =>
    rw [after_of_some hf]
    exact ⟨h, rfl⟩
  | none =>
    rw [after_of_none hf, ha]
    exact ⟨inside_modify h f, size_modify tape f⟩

theorem after_look (ha : tape.apply op = tape) : tape.after op = tape := by
  cases hf : tape.fault? op with
  | some fault => exact after_of_some hf
  | none => rw [after_of_none hf, ha]

theorem Inside.after_moveRight (h : tape.Inside) {count : Int} (hc : 0 ≤ count) :
    (tape.after (.moveRight count)).Inside ∧
      (tape.after (.moveRight count)).pointer = tape.pointer + count ∧
      (tape.after (.moveRight count)).size =
        if tape.size ≤ tape.pointer + count then
          max (tape.pointer + count + 1).toNat (tape.size * growthFactor)
        else tape.size :=
  ⟨inside_moveRight h hc, pointer_moveRight tape count, size_moveRight tape count⟩

theorem Inside.after_of_not_grows (h : tape.Inside) (hop : op.Forward)
    (hg : tape.grows op = false) :
    (tape.after op).Inside ∧ (tape.after op).size = tape.size := by
  cases op with
  | moveRight count =>
    obtain ⟨hin, -, hsize⟩ := h.after_moveRight hop
    rw [if_neg (of_decide_eq_false hg)] at hsize
    exact ⟨hin, hsize⟩
  | moveLeft count =>
    cases hf : tape.fault? (.moveLeft count) with
    | some fault =>
      rw [after_of_some hf]
      exact ⟨h, rfl⟩
    | none =>
      rw [after_of_none hf]
      exact ⟨inside_moveLeft h hop hf, size_moveLeft tape count⟩
  | add _ | sub _ | set _ => exact h.after_modify rfl
  | get | snapshot _ =>
    rw [after_look rfl]
    exact ⟨h, rfl⟩

/-- An operation that makes the tape anew makes it long enough, and at least twice as long. -/
theorem Inside.after_of_grows (h : tape.Inside) (hop : op.Forward) (hg : tape.grows op = true) :
    (tape.after op).Inside ∧ tape.size ≤ (tape.after op).pointer ∧
      ((tape.after op).size : Int) = max ((tape.after op).pointer + 1) (2 * tape.size) := by
  cases op with
  | moveRight count =>
    obtain ⟨hin, hpointer, hsize⟩ := h.after_moveRight hop
    have hpast := of_decide_eq_true hg
    rw [if_pos hpast, growthFactor] at hsize
    refine ⟨hin, ?_, ?_⟩
    · rwa [hpointer]
    · have hnonneg := h.1
      rw [hsize, hpointer]
      omega
  | moveLeft _ | add _ | sub _ | get | set _ | snapshot _ => contradiction

theorem Inside.grows_iff (h : tape.Inside) (hop : op.Forward) :
    tape.grows op = true ↔ tape.size < (tape.after op).size := by
  have hpointer := h.1
  have hlt := h.2
  cases hg : tape.grows op with
  | false =>
    obtain ⟨-, hsize⟩ := h.after_of_not_grows hop hg
    simp [hsize]
  | true =>
    obtain ⟨-, -, hsize⟩ := h.after_of_grows hop hg
    refine iff_of_true rfl ?_
    omega

/-! ## Any number of operations -/

theorem past_concat_of_le {ops : List Op} {n : Nat} (hn : n ≤ ops.length) :
    tape.past (ops ++ [op]) n = tape.past ops n := by
  rw [past, List.take_append_of_le_length hn, past]

theorem past_concat (ops : List Op) :
    tape.past (ops ++ [op]) (ops.length + 1) = (tape.past ops ops.length).after op := by
  have hwhole : (ops ++ [op]).take (ops.length + 1) = ops ++ [op] :=
    List.take_of_length_le (by rw [List.length_append, List.length_singleton])
  rw [past, hwhole, List.foldl_append, past, List.take_length]
  rfl

namespace History

variable {size : Int} {history : History}

theorem amortized_start (hin : tape.Inside) (hpointer : tape.pointer = 0)
    (hsize : tape.size = size) : (start tape).Amortized size where
  inside := hin
  reach_lt := hin.2
  size_le := by
    rw [start, hsize]
    exact le_max_left _ _
  doubled := by
    simp [start, hsize]
  copied_lt := by
    have hlt := hin.2
    simp only [start]
    omega

theorem after_of_grows (hg : history.tape.grows op = true) :
    history.after op = ⟨history.tape.after op,
      max history.reach (history.tape.after op).pointer, history.growths + 1,
      history.copied + history.tape.size⟩ :=
  if_pos hg

theorem after_of_not_grows (hg : history.tape.grows op = false) :
    history.after op = ⟨history.tape.after op,
      max history.reach (history.tape.after op).pointer, history.growths, history.copied⟩ :=
  if_neg (Bool.eq_false_iff.mp hg)

theorem Amortized.after (h : history.Amortized size) (hop : op.Forward) :
    (history.after op).Amortized size := by
  obtain ⟨hin, hreach, hsize, hdoubled, hcopied⟩ := h
  have hnonneg := hin.1
  have hlt := hin.2
  cases hg : history.tape.grows op with
  | false =>
    obtain ⟨hin', hsize'⟩ := hin.after_of_not_grows hop hg
    have hlt' := hin'.2
    rw [after_of_not_grows hg]
    refine ⟨hin', ?_, ?_, ?_, ?_⟩
    · simp only
      omega
    · simp only
      omega
    · simpa only [hsize'] using hdoubled
    · simpa only [hsize'] using hcopied
  | true =>
    -- the pointer is past the old end, so the new length is at most twice the pointer
    obtain ⟨hin', hpast, hsize'⟩ := hin.after_of_grows hop hg
    rw [after_of_grows hg]
    refine ⟨hin', ?_, ?_, ?_, ?_⟩
    · simp only
      omega
    · simp only
      omega
    · simp only [Int.pow_succ, ← Int.mul_assoc]
      omega
    · simp only
      omega

theorem Amortized.foldl (h : history.Amortized size) {ops : List Op}
    (hops : ∀ op ∈ ops, op.Forward) : (ops.foldl History.after history).Amortized size := by
  induction ops generalizing history with
  | nil => exact h
  | cons op rest ih =>
    have hrest : ∀ op ∈ rest, op.Forward := fun op hop => hops op (List.mem_cons_of_mem _ hop)
    exact ih (h.after (hops op List.mem_cons_self)) hrest

theorem reach_after (history : History) (op : Op) :
    (history.after op).reach = max history.reach (history.tape.after op).pointer := by
  rw [History.after]
  split <;> rfl

theorem tape_after (history : History) (op : Op) :
    (history.after op).tape = history.tape.after op := by
  rw [History.after]
  split <;> rfl

theorem tape_ofOps (tape : Tape) (ops : List Op) :
    (ofOps tape ops).tape = tape.past ops ops.length := by
  induction ops using List.reverseRecOn with
  | nil => rfl
  | append_singleton ops op ih =>
    rw [List.length_append, List.length_singleton, past_concat, ← ih, ofOps, List.foldl_append]
    exact tape_after _ op

theorem reach_isGreatest (tape : Tape) (ops : List Op) :
    IsGreatest ((fun n => (tape.past ops n).pointer) '' Set.Iic ops.length)
      (ofOps tape ops).reach := by
  -- the induction is on the last operation, since the reach grows with what comes last
  induction ops using List.reverseRecOn with
  | nil =>
    refine ⟨⟨0, Nat.le_refl 0, rfl⟩, ?_⟩
    intro pointer hpointer
    obtain ⟨n, -, rfl⟩ := hpointer
    simp [past, ofOps, start]
  | append_singleton ops op ih =>
    obtain ⟨⟨m, hm, hreach⟩, hupper⟩ := ih
    have hmax : (ofOps tape (ops ++ [op])).reach = max (ofOps tape ops).reach
        (tape.past (ops ++ [op]) (ops.length + 1)).pointer := by
      rw [past_concat, ← tape_ofOps, ofOps, List.foldl_append]
      exact reach_after _ op
    rw [hmax, List.length_append, List.length_singleton]
    refine ⟨?_, ?_⟩
    · rcases max_choice (ofOps tape ops).reach
        (tape.past (ops ++ [op]) (ops.length + 1)).pointer with hchoice | hchoice
      · rw [hchoice]
        refine ⟨m, Nat.le_succ_of_le hm, ?_⟩
        simp only [past_concat_of_le hm]
        exact hreach
      · rw [hchoice]
        exact ⟨ops.length + 1, Nat.le_refl _, rfl⟩
    · intro pointer hpointer
      obtain ⟨n, hn, rfl⟩ := hpointer
      rcases Nat.lt_or_eq_of_le hn with hlt | rfl
      · have hle := Nat.le_of_lt_succ hlt
        simp only [past_concat_of_le hle]
        exact le_max_of_le_left (hupper ⟨n, hle, rfl⟩)
      · exact le_max_right _ _

end History

theorem growthAccounted_blank {size : Nat} (hsize : 0 < size) {ops : List Op}
    (hops : ∀ op ∈ ops, op.Forward) : GrowthAccounted size (blank size) ops := by
  have hlength : ((blank size).size : Int) = size := by rw [size_blank]
  have hamortized : (History.ofOps (blank size) ops).Amortized size :=
    (History.amortized_start (inside_blank hsize) rfl hlength).foldl hops
  have htape : (History.ofOps (blank size) ops).tape = ops.foldl after (blank size) := by
    rw [History.tape_ofOps, past, List.take_length]
  refine ⟨htape, History.reach_isGreatest (blank size) ops, ?_, hamortized⟩
  intro op hop
  rw [← htape]
  exact hamortized.inside.grows_iff hop

end Tape

/-! ## Runs -/

namespace Machine

variable {σ : Type} {program : Program} {console : Console σ}

/-- Each turn is an operation on the tape, which a turn without one looks at. -/
theorem StepCase.exists_op {tokens : List Token} {i : Nat} {tape : Tape} {streams : σ}
    {step : Step σ} (h : StepCase console tokens i tape streams step) (hin : tape.Inside) :
    ∃ op : Tape.Op, op.Forward ∧ step.machine.state.tape = tape.after op := by
  have hlook : tape = tape.after .get := (Tape.after_look rfl).symm
  cases h with
  | stop _ | skip _ _ | enter _ _ | again _ _ | leave _ _ | unread _ _ | write _ _ _
    | unwritten _ _ _ => exact ⟨.get, trivial, hlook⟩
  | @right n _ => exact ⟨.moveRight n, Int.natCast_nonneg n, rfl⟩
  | @left n _ hn =>
    have hf : tape.fault? (.moveLeft n) = none := if_neg (by omega)
    exact ⟨.moveLeft n, Int.natCast_nonneg n, (Tape.after_of_none hf).symm⟩
  | @refused n _ hn =>
    have hf : tape.fault? (.moveLeft n) = some (.negativePointer tape.pointer n) :=
      if_pos (by omega)
    exact ⟨.moveLeft n, Int.natCast_nonneg n, (Tape.after_of_some hf).symm⟩
  | @increment n _ => exact ⟨.add n, trivial, (Tape.after_of_none (hin.fault?_add n)).symm⟩
  | @decrement n _ => exact ⟨.sub n, trivial, (Tape.after_of_none (hin.fault?_sub n)).symm⟩
  | @read answer _ _ _ =>
    exact ⟨.set (Console.byteOf answer).toNat, trivial,
      (Tape.after_of_none (hin.fault?_set _)).symm⟩

theorem Sound.exists_op {machine : Machine σ} (h : machine.Sound program) (hp : program.Paired)
    (console : Console σ) (n : Nat) :
    ∃ op : Tape.Op, op.Forward ∧ (runFor console program (n + 1) machine).machine.state.tape =
      (runFor console program n machine).machine.state.tape.after op := by
  have hsound := h.runFrom hp console n 0
  rw [runFor, runFor, runFrom_add]
  cases hrun : Machine.runFrom console program n 0 machine with
  | succeeded _ _ => exact ⟨.get, trivial, (Tape.after_look rfl).symm⟩
  | failed _ _ => exact ⟨.get, trivial, (Tape.after_look rfl).symm⟩
  | running here =>
    rw [hrun] at hsound
    have hhere : here.Sound program := hsound
    obtain ⟨op, hop, htape⟩ := (hhere.stepCase hp console).exists_op hhere.inside
    refine ⟨op, hop, ?_⟩
    rw [Progress.resume, Machine.runFrom]
    cases hs : here.step console program <;> rw [hs] at htape <;> exact htape

/-- The tape of a run is what some operations have made of it, one for each turn. -/
theorem Sound.exists_ops {machine : Machine σ} (h : machine.Sound program) (hp : program.Paired)
    (console : Console σ) (bound : Nat) :
    ∃ ops : List Tape.Op, ops.length = bound ∧ (∀ op ∈ ops, op.Forward) ∧ ∀ n, n ≤ bound →
      (runFor console program n machine).machine.state.tape = machine.state.tape.past ops n := by
  induction bound with
  | zero =>
    refine ⟨[], rfl, by simp, ?_⟩
    intro n hn
    obtain rfl := Nat.le_zero.mp hn
    rfl
  | succ bound ih =>
    obtain ⟨ops, hlength, hops, htapes⟩ := ih
    obtain ⟨op, hop, hafter⟩ := h.exists_op hp console bound
    refine ⟨ops ++ [op], by rw [List.length_append, hlength]; rfl, ?_, ?_⟩
    · intro o ho
      rcases List.mem_append.mp ho with ho | ho
      · exact hops o ho
      · rwa [List.mem_singleton.mp ho]
    · intro n hn
      rcases Nat.lt_or_eq_of_le hn with hlt | rfl
      · have hle := Nat.le_of_lt_succ hlt
        rw [htapes n hle, Tape.past_concat_of_le (hlength ▸ hle)]
      · subst hlength
        rw [hafter, htapes _ (Nat.le_refl _), Tape.past_concat]

/-- After so many turns the tape of a run has less than twice the cells that its pointer has
needed. -/
structure GrowsWithReach (console : Console σ) (program : Program) (streams : σ)
    (bound : Nat) (reach : Int) : Prop where
  /-- The reach is the largest pointer after any of these turns, the end of the run included. -/
  isGreatest : IsGreatest ((fun n =>
    (runFor console program n (start streams)).machine.state.tape.pointer) '' Set.Iic bound) reach
  size_le : ((runFor console program bound (start streams)).machine.state.tape.size : Int) ≤
    max 1 (2 * reach)

theorem exists_growsWithReach (console : Console σ) (hp : program.Paired) (streams : σ)
    (bound : Nat) : ∃ reach, GrowsWithReach console program streams bound reach := by
  obtain ⟨ops, rfl, hops, htapes⟩ := (sound_start streams).exists_ops hp console bound
  have haccounted := Tape.growthAccounted_blank Nat.one_pos hops
  refine ⟨(Tape.History.ofOps (Tape.blank 1) ops).reach, ?_, ?_⟩
  · have hpointers :
        (fun n => (runFor console program n (start streams)).machine.state.tape.pointer) ''
          Set.Iic ops.length =
        (fun n => ((Tape.blank 1).past ops n).pointer) '' Set.Iic ops.length := by
      apply Set.image_congr
      intro n hn
      exact congrArg Tape.pointer (htapes n hn)
    rw [hpointers]
    exact haccounted.reach_isGreatest
  · have hsize := haccounted.amortized.size_le
    rw [Tape.History.tape_ofOps] at hsize
    rw [htapes _ (Nat.le_refl _)]
    exact hsize

end Machine

/-- Whatever is done to a tape, growing is paid for by its length, and the length by the largest
pointer. So it is with the tape of every execution, which begins with one cell. -/
theorem growth_amortized {size : Int} (hsize : 1 ≤ size) {ops : List Tape.Op}
    (hops : ∀ op ∈ ops, op.Forward) :
    (∃ start, Tape.ofSize? size = some start ∧ Tape.GrowthAccounted size start ops) ∧
      ∀ (σ : Type) (console : Console σ) (source : Source) (streams : σ) (program : Program)
        (bound : Nat), Execution.program source = .ok program →
          ∃ reach, Machine.GrowsWithReach console program streams bound reach := by
  constructor
  · have haccounted := @Tape.growthAccounted_blank size.toNat (by omega) ops hops
    rw [Int.toNat_of_nonneg (by omega)] at haccounted
    exact ⟨Tape.blank size.toNat, if_pos (by omega), haccounted⟩
  · intro σ console source streams program bound hprogram
    exact Machine.exists_growsWithReach console (Execution.program_eq_ok hprogram).1 streams bound

/-- Two cells become six and then twelve, the latter by doubling, with a move and a value refused in
between; and the run of a program that grows its tape twice. -/
theorem growth_amortized_twice :
    ∃ start program reach, Tape.ofSize? 2 = some start ∧
      (∀ op ∈ [.moveRight 5, .moveLeft 9, .set 300, .moveRight 1], Tape.Op.Forward op) ∧
      Tape.History.ofOps start [.moveRight 5, .moveLeft 9, .set 300, .moveRight 1] =
        ⟨⟨Array.replicate 12 0, 6⟩, 6, 2, 8⟩ ∧
      12 ≤ max (2 : Int) (2 * 6) ∧ (2 : Int) * 2 ^ 2 ≤ 12 ∧ 8 < 12 ∧
      Execution.program ">+>>+<".toList = .ok program ∧
      Machine.GrowsWithReach Script.console program (Script.ofInput []) 6 reach := by
  have hops : ∀ op ∈ [.moveRight 5, .moveLeft 9, .set 300, .moveRight 1],
      Tape.Op.Forward op := by
    simp [Tape.Op.Forward]
  obtain ⟨⟨start, hstart, haccounted⟩, hruns⟩ := growth_amortized (by decide : (1 : Int) ≤ 2) hops
  obtain ⟨reach, hreach⟩ := hruns _ Script.console ">+>>+<".toList (Script.ofInput []) _ 6 rfl
  obtain rfl := Option.some.inj hstart
  have hamortized := haccounted.amortized
  exact ⟨_, _, reach, rfl, hops, rfl, hamortized.size_le, hamortized.doubled, hamortized.copied_lt,
    rfl, hreach⟩

end Brainfuck
