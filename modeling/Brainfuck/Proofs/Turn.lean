import Brainfuck.Machine.Lemmas
import Brainfuck.Proofs.Counting
import Brainfuck.Proofs.Tokenizing
import Brainfuck.Tape.Lemmas

/-!
What one turn of the machine can be.

A machine is `Sound` for a program when its index is in the program or at its end and its pointer
is on a cell. From there a turn is one of a few things, which `StepCase` lists: the end of the
program, a block of equal moves or edits applied at once, a move to the left that is refused, a
bracket passed or a jump to the partner, or a call on the console that is answered or refused. The
cases name the bracket that belongs to another one by `Matches` and not by the table, so what
follows from them speaks of the tokens alone.

What holds of every turn is proved from `step_cases`, so a turn need not be taken apart for it.
-/

namespace Brainfuck

/-! ## Blocks of equal operators -/

/-- From index `i` on there are just `count` tokens `t`. -/
structure Block (tokens : List Token) (t : Token) (i count : Nat) : Prop where
  pos : 0 < count
  get : ∀ k, k < count → tokens[i + k]? = some t
  stop : tokens[i + count]? ≠ some t

theorem Block.le_length {tokens : List Token} {t : Token} {i count : Nat}
    (h : Block tokens t i count) : i + count ≤ tokens.length := by
  have hpos := h.pos
  obtain ⟨hlast, -⟩ := List.getElem?_eq_some_iff.mp (h.get (count - 1) (by omega))
  omega

theorem Block.exists_last {tokens : List Token} {t : Token} {i count : Nat}
    (h : Block tokens t i count) : ∃ k, k + 1 = i + count ∧ tokens[k]? = some t := by
  obtain ⟨m, rfl⟩ := Nat.exists_eq_add_of_le' h.pos
  exact ⟨i + m, rfl, h.get m (Nat.lt_succ_self m)⟩

theorem Block.unique {tokens : List Token} {t : Token} {i n m : Nat} (h : Block tokens t i n)
    (h' : Block tokens t i m) : n = m := by
  rcases Nat.lt_trichotomy n m with hlt | rfl | hgt
  · exact absurd (h'.get n hlt) h.stop
  · rfl
  · exact absurd (h.get m hgt) h'.stop

namespace Program

theorem CountsTo.block {tokens : Array Token} {t : Token} {index : Int} {text : List Token} {i n : Nat}
    (h : CountsTo tokens t index 1 n) (ht : token? tokens index = some t)
    (hread : ∀ k : Nat, text[i + k]? = token? tokens (index + k)) : Block text t i n := by
  constructor
  case pos => exact h.le
  case get =>
    intro k hk
    rw [hread]
    cases k with
    | zero => exact (goesOn_zero ht).2
    | succ k => exact (h.goesOn (Nat.le_add_left 1 k) hk).2
  case stop =>
    rw [hread]
    intro hnext
    have hinside := token?_isSome_iff.mp (Option.isSome_of_eq_some hnext)
    exact h.ends ⟨hinside.2, hnext⟩

/-- The run length at an index of the program is the length of the block that begins there. -/
theorem runLength?_eq {tokens : Array Token} {t : Token} {i : Nat} (h : tokens[i]? = some t) :
    ∃ n, runLength? tokens i = some n ∧ Block tokens.toList t i n := by
  have ht : token? tokens i = some t := by rw [token?_ofNat, h]
  obtain ⟨n, hn, hcounts⟩ := exists_countsTo ht
  refine ⟨n, hn, hcounts.block ht fun k => ?_⟩
  rw [Array.getElem?_toList]
  exact (token?_ofNat tokens (i + k)).symm

end Program

/-! ## Operations that are not refused -/

namespace Tape

variable {tape : Tape}

theorem Inside.cell?_isNone (h : tape.Inside) : tape.cell?.isNone = false := by
  rw [h.cell?_eq]
  rfl

theorem Inside.fault?_add (h : tape.Inside) (count : Int) : tape.fault? (.add count) = none := by
  rw [fault?, h.cell?_isNone]
  rfl

theorem Inside.fault?_sub (h : tape.Inside) (count : Int) : tape.fault? (.sub count) = none := by
  rw [fault?, h.cell?_isNone]
  rfl

theorem Inside.fault?_set (h : tape.Inside) (byte : UInt8) :
    tape.fault? (.set byte.toNat) = none := by
  have hlt : byte.toNat < 256 := byte.toNat_lt
  rw [fault?, h.cell?_isNone, if_neg Bool.false_ne_true, if_neg]
  simp only [modulus]
  omega

end Tape

namespace State

theorem operate_of_none {i count : Nat} {tape : Tape} {op : Tape.Op} (hf : tape.fault? op = none) :
    operate ⟨i, tape⟩ count op = .ok ⟨(i + count : Nat), tape.apply op⟩ := by
  simp only [operate, hf]
  rfl

end State

/-! ## The cases of a turn -/

namespace Machine

variable {σ : Type}

/-- The machine at an index, with a tape and streams. -/
def standing (index : Nat) (tape : Tape) (streams : σ) : Machine σ :=
  ⟨⟨index, tape⟩, streams⟩

/-- What the turn at index `i` can be, with the pointer on a cell of the tape. -/
inductive StepCase (console : Console σ) (tokens : List Token) (i : Nat) (tape : Tape)
    (streams : σ) : Step σ → Prop
  | stop (h : tokens[i]? = none) :
    StepCase console tokens i tape streams (.stopped (standing i tape streams))
  | right {n : Nat} (block : Block tokens .right i n) :
    StepCase console tokens i tape streams
      (.running (standing (i + n) (tape.moveRight n) streams))
  | left {n : Nat} (block : Block tokens .left i n) (hn : (n : Int) ≤ tape.pointer) :
    StepCase console tokens i tape streams
      (.running (standing (i + n) (tape.moveLeft n) streams))
  | refused {n : Nat} (block : Block tokens .left i n) (hn : tape.pointer < n) :
    StepCase console tokens i tape streams
      (.failed (.tape (.negativePointer tape.pointer n)) (standing i tape streams))
  | increment {n : Nat} (block : Block tokens .increment i n) :
    StepCase console tokens i tape streams
      (.running (standing (i + n) (tape.apply (.add n)) streams))
  | decrement {n : Nat} (block : Block tokens .decrement i n) :
    StepCase console tokens i tape streams
      (.running (standing (i + n) (tape.apply (.sub n)) streams))
  | skip {j : Nat} (h : Matches tokens i j) (zero : tape.current? = some 0) :
    StepCase console tokens i tape streams (.running (standing (j + 1) tape streams))
  | enter (h : tokens[i]? = some .loopStart) (nonzero : tape.current? ≠ some 0) :
    StepCase console tokens i tape streams (.running (standing (i + 1) tape streams))
  | again {j : Nat} (h : Matches tokens j i) (nonzero : tape.current? ≠ some 0) :
    StepCase console tokens i tape streams (.running (standing (j + 1) tape streams))
  | leave (h : tokens[i]? = some .loopEnd) (zero : tape.current? = some 0) :
    StepCase console tokens i tape streams (.running (standing (i + 1) tape streams))
  | read {answer : Option (List UInt8)} {after : σ} (h : tokens[i]? = some .input)
      (call : console.read streams = (.ok answer, after)) :
    StepCase console tokens i tape streams
      (.running (standing (i + 1) (tape.apply (.set (Console.byteOf answer).toNat)) after))
  | unread {cause : Fault} {after : σ} (h : tokens[i]? = some .input)
      (call : console.read streams = (.error cause, after)) :
    StepCase console tokens i tape streams (.failed (.ofRead cause) (standing i tape after))
  | write {byte : UInt8} {after : σ} (h : tokens[i]? = some .output)
      (hb : tape.current? = some byte) (call : console.write byte streams = (.ok (), after)) :
    StepCase console tokens i tape streams (.running (standing (i + 1) tape after))
  | unwritten {byte : UInt8} {cause : Fault} {after : σ} (h : tokens[i]? = some .output)
      (hb : tape.current? = some byte) (call : console.write byte streams = (.error cause, after)) :
    StepCase console tokens i tape streams (.failed (.ofWrite cause) (standing i tape after))

/-- A turn is one of its cases. -/
theorem step_cases (console : Console σ) {program : Program} (hp : program.Paired) (i : Nat)
    {tape : Tape} (h : tape.Inside) (streams : σ) :
    StepCase console program.tokens.toList i tape streams
      ((standing i tape streams).step console program) := by
  have hpass : Pass program.tokens.toList [] program.jumps := pass_of_ofTokens hp
  have hcurrent := h.current?_eq
  cases ht : program.tokens[i]? with
  | none =>
    have hlen : (program.length : Int) ≤ i := by
      have := Array.getElem?_eq_none_iff.mp ht
      exact Int.ofNat_le.mpr this
    have hturn : State.turn program ⟨i, tape⟩ = .stop ⟨i, tape⟩ := if_pos hlen
    simp only [standing, step, hturn]
    exact .stop (by rw [Array.getElem?_toList, ht])
  | some t =>
    have hlen : ¬ (program.length : Int) ≤ i := by
      obtain ⟨hi, -⟩ := Array.getElem?_eq_some_iff.mp ht
      exact Int.not_le.mpr (Int.ofNat_lt.mpr hi)
    obtain ⟨n, hn, block⟩ := Program.runLength?_eq ht
    -- what is left of the turn depends on the operator alone
    have hget : program.tokens.toList[i]? = some t := by
      rw [Array.getElem?_toList, ht]
    simp only [standing, step, State.turn, if_neg hlen, Program.token?_ofNat, ht, hn,
      Option.getD_some]
    cases t with
    | right =>
      rw [State.operate_of_none rfl]
      exact .right block
    | left =>
      by_cases hle : (n : Int) ≤ tape.pointer
      · have hf : tape.fault? (.moveLeft n) = none := if_neg (by omega)
        rw [State.operate_of_none hf]
        exact .left block hle
      · have hf : tape.fault? (.moveLeft n) = some (.negativePointer tape.pointer n) :=
          if_pos (by omega)
        simp only [State.operate, hf]
        exact .refused block (by omega)
    | increment =>
      rw [State.operate_of_none (h.fault?_add n)]
      exact .increment block
    | decrement =>
      rw [State.operate_of_none (h.fault?_sub n)]
      exact .decrement block
    | loopStart =>
      -- the table has the partner, since it was made for these tokens
      obtain ⟨j, hij⟩ := hpass.balanced.exists_close hget
      have hj : program.jumps.endOf? i = some (j : Int) := (hpass.closes i j).mpr ⟨i, j, rfl, rfl, hij⟩
      simp only [State.branch, hcurrent, hj, beq_iff_eq]
      split
      · next hzero => exact .skip hij (by rw [hcurrent, hzero])
      · next hzero => exact .enter hget (by rw [hcurrent]; exact fun hc => hzero (Option.some.inj hc))
    | loopEnd =>
      obtain ⟨j, hji⟩ := hpass.balanced.exists_open hget
      have hj : program.jumps.startOf? i = some (j : Int) := (hpass.opens i j).mpr ⟨i, j, rfl, rfl, hji⟩
      simp only [State.branch, hcurrent, hj, bne_iff_ne]
      split
      · next hzero => exact .again hji (by rw [hcurrent]; exact fun hc => hzero (Option.some.inj hc))
      · next hzero => exact .leave hget (by rw [hcurrent, Classical.not_not.mp hzero])
    | input =>
      dsimp only
      rcases hread : console.read streams with ⟨cause | answer, after⟩
      · exact .unread hget hread
      · simp only [State.receive]
        rw [State.operate_of_none (h.fault?_set _)]
        exact .read hget hread
    | output =>
      simp only [State.emit, hcurrent]
      rcases hwrite : console.write (tape.cellAt tape.pointer.toNat) streams with ⟨cause | _, after⟩
      · exact .unwritten hget hcurrent hwrite
      · exact .write hget hcurrent hwrite

theorem step_end (console : Console σ) (program : Program) (tape : Tape) (streams : σ) :
    (standing program.length tape streams).step console program =
      .stopped (standing program.length tape streams) := by
  have hturn : State.turn program ⟨program.length, tape⟩ = .stop ⟨program.length, tape⟩ :=
    if_pos (Int.le_refl _)
  simp only [standing, step, hturn]

theorem step_loopStart (console : Console σ) {program : Program} (hp : program.Paired) {i j : Nat}
    (hm : Matches program.tokens.toList i j) {tape : Tape} {cell : UInt8}
    (hcell : tape.current? = some cell) (streams : σ) :
    (standing i tape streams).step console program =
      .running (standing (if cell = 0 then j + 1 else i + 1) tape streams) := by
  have hpass : Pass program.tokens.toList [] program.jumps := pass_of_ofTokens hp
  have hj : program.jumps.endOf? i = some (j : Int) := (hpass.closes i j).mpr ⟨i, j, rfl, rfl, hm⟩
  have ht : program.tokens[i]? = some .loopStart := by
    rw [← Array.getElem?_toList]
    exact hm.opening
  have hlen : ¬ (program.length : Int) ≤ i :=
    Int.not_le.mpr (Int.ofNat_lt.mpr (Array.getElem?_eq_some_iff.mp ht).1)
  simp only [standing, step, State.turn, if_neg hlen, Program.token?_ofNat, ht, State.branch, hcell,
    hj, beq_iff_eq]
  split
  · rfl
  · rfl

theorem step_loopEnd (console : Console σ) {program : Program} (hp : program.Paired) {i j : Nat}
    (hm : Matches program.tokens.toList i j) {tape : Tape} {cell : UInt8}
    (hcell : tape.current? = some cell) (streams : σ) :
    (standing j tape streams).step console program =
      .running (standing (if cell = 0 then j + 1 else i + 1) tape streams) := by
  have hpass : Pass program.tokens.toList [] program.jumps := pass_of_ofTokens hp
  have hi : program.jumps.startOf? j = some (i : Int) := (hpass.opens j i).mpr ⟨j, i, rfl, rfl, hm⟩
  have ht : program.tokens[j]? = some .loopEnd := by
    rw [← Array.getElem?_toList]
    exact hm.closing
  have hlen : ¬ (program.length : Int) ≤ j :=
    Int.not_le.mpr (Int.ofNat_lt.mpr (Array.getElem?_eq_some_iff.mp ht).1)
  by_cases hzero : cell = 0
  · simp only [standing, step, State.turn, if_neg hlen, Program.token?_ofNat, ht, State.branch,
      hcell, bne_iff_ne, hzero, ne_eq, not_true_eq_false, if_false, if_true]
    rfl
  · simp only [standing, step, State.turn, if_neg hlen, Program.token?_ofNat, ht, State.branch,
      hcell, bne_iff_ne, hi, ne_eq, hzero, not_false_eq_true, if_true, if_false]
    rfl

theorem step_input {console : Console σ} {program : Program} {i : Nat}
    (ht : program.tokens[i]? = some .input) {tape : Tape} (h : tape.Inside) {streams after : σ}
    {answer : Option (List UInt8)} (call : console.read streams = (.ok answer, after)) :
    (standing i tape streams).step console program =
      .running (standing (i + 1) (tape.apply (.set (Console.byteOf answer).toNat)) after) := by
  have hlen : ¬ (program.length : Int) ≤ i :=
    Int.not_le.mpr (Int.ofNat_lt.mpr (Array.getElem?_eq_some_iff.mp ht).1)
  simp only [standing, step, State.turn, if_neg hlen, Program.token?_ofNat, ht, call,
    State.receive]
  rw [State.operate_of_none (h.fault?_set _)]
  rfl

theorem step_output {console : Console σ} {program : Program} {i : Nat}
    (ht : program.tokens[i]? = some .output) {tape : Tape} {byte : UInt8}
    (hb : tape.current? = some byte) {streams after : σ}
    (call : console.write byte streams = (.ok (), after)) :
    (standing i tape streams).step console program = .running (standing (i + 1) tape after) := by
  have hlen : ¬ (program.length : Int) ≤ i :=
    Int.not_le.mpr (Int.ofNat_lt.mpr (Array.getElem?_eq_some_iff.mp ht).1)
  simp only [standing, step, State.turn, if_neg hlen, Program.token?_ofNat, ht, State.emit, hb,
    call]
  rfl

end Machine

/-! ## Sound machines -/

/-- The machine a turn leaves, whatever the turn was. -/
def Step.machine {σ : Type} : Step σ → Machine σ
  | .stopped machine | .failed _ machine | .running machine => machine

/-- The machine a run has come to. -/
def Machine.Progress.machine {σ : Type} : Progress σ → Machine σ
  | .succeeded _ machine | .failed _ machine | .running machine => machine

/-! ## The streams of a run -/

namespace Machine

variable {σ : Type} {program : Program} {console : Console σ} {P : σ → Prop}

theorem streams_settle (streams : σ) (effect : State.Effect) :
    (settle streams effect).machine.streams = streams := by
  cases effect with
  | ok _ => rfl
  | error _ => rfl

theorem streams_step (hread : ∀ streams, P streams → P (console.read streams).2)
    (hwrite : ∀ byte streams, P streams → P (console.write byte streams).2) {machine : Machine σ}
    (h : P machine.streams) : P (machine.step console program).machine.streams := by
  obtain ⟨state, streams⟩ := machine
  simp only [step]
  cases state.turn program with
  | stop here => exact h
  | settled effect =>
    rw [streams_settle]
    exact h
  | read here =>
    have hafter := hread streams h
    rcases hcall : console.read streams with ⟨cause | answer, after⟩
    · rw [hcall] at hafter
      exact hafter
    · rw [hcall] at hafter
      dsimp only
      rw [streams_settle]
      exact hafter
  | write byte here =>
    have hafter := hwrite byte streams h
    rcases hcall : console.write byte streams with ⟨cause | _, after⟩
    · rw [hcall] at hafter
      simp only [hcall]
      exact hafter
    · rw [hcall] at hafter
      simp only [hcall]
      exact hafter

theorem streams_runFrom (hread : ∀ streams, P streams → P (console.read streams).2)
    (hwrite : ∀ byte streams, P streams → P (console.write byte streams).2) {machine : Machine σ}
    (h : P machine.streams) (bound turns : Nat) :
    P (runFrom console program bound turns machine).machine.streams := by
  induction bound generalizing machine turns with
  | zero => exact h
  | succ bound ih =>
    have hstep : P (machine.step console program).machine.streams := streams_step hread hwrite h
    rw [runFrom]
    cases hs : machine.step console program with
    | stopped last => rwa [hs] at hstep
    | failed why last => rwa [hs] at hstep
    | running next =>
      rw [hs] at hstep
      exact ih hstep (turns + 1)

end Machine

/-- The index is in the program or at its end, and the pointer is on a cell. -/
structure Machine.Sound {σ : Type} (program : Program) (machine : Machine σ) : Prop where
  index_nonneg : 0 ≤ machine.state.index
  index_le : machine.state.index ≤ program.length
  inside : machine.state.tape.Inside

namespace Machine

variable {σ : Type} {program : Program}

theorem sound_standing {i : Nat} {tape : Tape} (hi : i ≤ program.tokens.toList.length)
    (h : tape.Inside) (streams : σ) : (standing i tape streams).Sound program :=
  ⟨Int.natCast_nonneg i, Int.ofNat_le.mpr hi, h⟩

theorem Sound.eq_standing {machine : Machine σ} (h : machine.Sound program) :
    machine = standing machine.state.index.toNat machine.state.tape machine.streams := by
  rw [standing, Int.toNat_of_nonneg h.index_nonneg]

theorem sound_on {tape : Tape} (h : tape.Inside) (streams : σ) :
    Sound program ⟨State.start tape, streams⟩ :=
  ⟨Int.le_refl 0, Int.natCast_nonneg _, h⟩

theorem sound_start (streams : σ) : (start streams).Sound program :=
  sound_on (Tape.inside_blank Nat.one_pos) streams

theorem StepCase.sound {console : Console σ} {i : Nat} {tape : Tape} {streams : σ} {step : Step σ}
    (h : StepCase console program.tokens.toList i tape streams step)
    (hi : i ≤ program.tokens.toList.length) (hin : tape.Inside) : step.machine.Sound program := by
  have hsucc : ∀ {t : Token}, program.tokens.toList[i]? = some t →
      i + 1 ≤ program.tokens.toList.length :=
    fun ht => (List.getElem?_eq_some_iff.mp ht).1
  cases h with
  | stop _ => exact sound_standing hi hin _
  | right block =>
    exact sound_standing block.le_length (Tape.inside_moveRight hin (Int.natCast_nonneg _)) _
  | @left n block hn =>
    have hf : tape.fault? (.moveLeft n) = none := if_neg (by omega)
    exact sound_standing block.le_length (Tape.inside_moveLeft hin (Int.natCast_nonneg _) hf) _
  | refused _ _ => exact sound_standing hi hin _
  | increment block => exact sound_standing block.le_length (Tape.inside_modify hin _) _
  | decrement block => exact sound_standing block.le_length (Tape.inside_modify hin _) _
  | skip hm _ => exact sound_standing hm.lt_length hin _
  | enter ht _ => exact sound_standing (hsucc ht) hin _
  | again hm _ => exact sound_standing (Nat.le_trans hm.lt hi) hin _
  | leave ht _ => exact sound_standing (hsucc ht) hin _
  | read ht _ => exact sound_standing (hsucc ht) (Tape.inside_modify hin _) _
  | unread _ _ => exact sound_standing hi hin _
  | write ht _ _ => exact sound_standing (hsucc ht) hin _
  | unwritten _ _ _ => exact sound_standing hi hin _

theorem Sound.index_toNat_le {machine : Machine σ} (h : machine.Sound program) :
    machine.state.index.toNat ≤ program.tokens.toList.length := by
  have hle := h.index_le
  rw [Program.length] at hle
  rw [Array.length_toList]
  omega

/-- The turn of a sound machine is one of the cases. -/
theorem Sound.stepCase {machine : Machine σ} (h : machine.Sound program) (hp : program.Paired)
    (console : Console σ) :
    StepCase console program.tokens.toList machine.state.index.toNat machine.state.tape
      machine.streams (machine.step console program) := by
  have hcase := step_cases console hp machine.state.index.toNat h.inside machine.streams
  rwa [← h.eq_standing] at hcase

theorem Sound.step {machine : Machine σ} (h : machine.Sound program) (hp : program.Paired)
    (console : Console σ) : (machine.step console program).machine.Sound program :=
  (h.stepCase hp console).sound h.index_toNat_le h.inside

/-- A run of a sound machine comes to a sound machine. -/
theorem Sound.runFrom {machine : Machine σ} (h : machine.Sound program) (hp : program.Paired)
    (console : Console σ) (bound turns : Nat) :
    (runFrom console program bound turns machine).machine.Sound program := by
  induction bound generalizing machine turns with
  | zero => exact h
  | succ bound ih =>
    have hstep := h.step hp console
    rw [Machine.runFrom]
    cases hs : machine.step console program with
    | stopped last => rwa [hs] at hstep
    | failed why last => rwa [hs] at hstep
    | running next =>
      rw [hs] at hstep
      exact ih hstep (turns + 1)

theorem Sound.exists_failed_step {machine last : Machine σ} (h : machine.Sound program)
    (hp : program.Paired) {console : Console σ} {bound turns : Nat} {why : RunFault}
    (hrun : Machine.runFrom console program bound turns machine = .failed why last) :
    ∃ here : Machine σ, here.Sound program ∧ here.step console program = .failed why last := by
  obtain ⟨n, here, hhere, hstep⟩ := exists_step_of_failed hrun
  have hsound := h.runFrom hp console n turns
  rw [hhere] at hsound
  exact ⟨here, hsound, hstep⟩

end Machine

end Brainfuck
