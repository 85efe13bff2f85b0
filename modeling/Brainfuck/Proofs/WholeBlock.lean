import Brainfuck.Proofs.Refinement

/-!
Blocks of equal operators are applied whole.

A run comes to an index in one of three ways: it begins there, it has passed the block that ends in
front of it, or an operator stands in front of it that is not applied in a block, a bracket most of
all. In none of them is there an equal operator in front of one that is applied in a block
(`AtFront`), and this is kept by every turn, on any tape (`front_of_step`), so by every run
(`front_of_runFrom`). The operation of a turn is therefore made for a whole block of the tokens, from
its first one on (`AppliesWhole`).

So a move to the left that is refused has the length of a whole block, and the tape is left as it was
in front of the block. The plain machine comes to the first operator of the block with the same
pointer, and goes on through as many of its operators as there are cells (`Refusal`).
-/

namespace Brainfuck

/-- The operation that so many equal operators make together, if they can be applied at once. -/
def Token.operation? : Token → Nat → Option Tape.Op
  | .right, count => some (.moveRight count)
  | .left, count => some (.moveLeft count)
  | .increment, count => some (.add count)
  | .decrement, count => some (.sub count)
  | .loopStart, _ | .loopEnd, _ | .input, _ | .output, _ => none

theorem Token.exists_operation {t : Token} (h : t.isBatched = true) (count : Nat) :
    ∃ op, t.operation? count = some op := by
  cases t with
  | right | left | increment | decrement => exact ⟨_, rfl⟩
  | loopStart | loopEnd | input | output => contradiction

/-- A stretch of equal tokens, with no further one in front of it or behind it. -/
structure WholeBlock (tokens : List Token) (t : Token) (i count : Nat) : Prop
    extends Block tokens t i count where
  first : i = 0 ∨ tokens[i - 1]? ≠ tokens[i]?

/-! ## Where blocks are entered -/

/-- No block is entered in its middle at this index. -/
def AtFront (tokens : List Token) (i : Nat) : Prop :=
  ∀ t, tokens[i]? = some t → t.isBatched = true → i = 0 ∨ tokens[i - 1]? ≠ some t

theorem atFront_zero (tokens : List Token) : AtFront tokens 0 :=
  fun _ _ _ => .inl rfl

section

variable {tokens : List Token} {t : Token} {i n : Nat}

theorem atFront_behind (h : tokens[i]? = some t) (ht : t.isBatched = false) :
    AtFront tokens (i + 1) := by
  intro t' _ ht'
  right
  rw [Nat.add_sub_cancel, h]
  intro heq
  rw [Option.some.inj heq, ht'] at ht
  contradiction

theorem Block.atFront (h : Block tokens t i n) : AtFront tokens (i + n) := by
  intro t' ht' _
  right
  obtain ⟨k, hk, hlast⟩ := h.exists_last
  rw [← hk, Nat.add_sub_cancel, hlast]
  intro heq
  have hstop := h.stop
  rw [ht', ← heq] at hstop
  exact hstop rfl

theorem AtFront.wholeBlock (h : AtFront tokens i) (ht : t.isBatched = true)
    (block : Block tokens t i n) : WholeBlock tokens t i n := by
  have hget : tokens[i]? = some t := block.get 0 block.pos
  refine ⟨block, ?_⟩
  rw [hget]
  exact h t hget ht

end

/-! ## One turn -/

namespace State

variable {program : Program} {t : Token} {i n : Nat}

theorem turn_block (block : Block program.tokens.toList t i n) (tape : Tape) {op : Tape.Op}
    (hop : t.operation? n = some op) :
    turn program ⟨i, tape⟩ = .settled (operate ⟨i, tape⟩ n op) := by
  have ht : program.tokens[i]? = some t := by
    rw [← Array.getElem?_toList]
    exact block.get 0 block.pos
  have hlen : ¬ (program.length : Int) ≤ i :=
    Int.not_le.mpr (Int.ofNat_lt.mpr (Array.getElem?_eq_some_iff.mp ht).1)
  obtain ⟨m, hm, block'⟩ := Program.runLength?_eq ht
  obtain rfl := block.unique block'
  cases t with
  | right | left | increment | decrement =>
    obtain rfl := Option.some.inj hop
    simp only [turn, if_neg hlen, Program.token?_ofNat, ht, hm, Option.getD_some]
  | loopStart | loopEnd | input | output => contradiction

/-- The operation leads to the front of a block, or it is refused. -/
def Effect.ToFront (tokens : List Token) : Effect → Prop
  | .ok next => ∃ k : Nat, next.index = k ∧ AtFront tokens k
  | .error _ => True

theorem toFront_operate {tokens : List Token} (h : AtFront tokens (i + n)) (tape : Tape)
    (op : Tape.Op) : (operate ⟨i, tape⟩ n op).ToFront tokens := by
  simp only [operate]
  cases tape.fault? op with
  | some fault => trivial
  | none => exact ⟨i + n, rfl, h⟩

theorem toFront_branch {tokens : List Token} {j : Nat} (h : AtFront tokens (i + 1))
    (hj : AtFront tokens (j + 1)) (tape : Tape) (jumps : UInt8 → Bool) :
    (branch ⟨i, tape⟩ jumps (some (j : Int))).ToFront tokens := by
  simp only [branch]
  cases tape.current? with
  | none => trivial
  | some cell =>
    simp only
    split
    · exact ⟨j + 1, rfl, hj⟩
    · exact ⟨i + 1, rfl, h⟩

end State

namespace Machine

variable {σ : Type} {program : Program}

/-- The machine stands at the front of a block, if at one at all. -/
def Front (program : Program) (machine : Machine σ) : Prop :=
  ∃ i : Nat, machine.state.index = i ∧ AtFront program.tokens.toList i

theorem front_of_settle {effect : State.Effect} (h : effect.ToFront program.tokens.toList)
    {streams : σ} {next : Machine σ} (hs : settle streams effect = .running next) :
    next.Front program := by
  cases effect with
  | error ending => contradiction
  | ok state =>
    obtain rfl := Step.running.inj hs
    exact h

/-- A turn leads to the front of a block, whatever the tape is. -/
theorem front_of_step {console : Console σ} (hp : program.Paired) {machine next : Machine σ}
    (h : machine.Front program) (hs : machine.step console program = .running next) :
    next.Front program := by
  obtain ⟨⟨index, tape⟩, streams⟩ := machine
  obtain ⟨i, rfl, -⟩ := h
  have hpass : Pass program.tokens.toList [] program.jumps := pass_of_ofTokens hp
  cases ht : program.tokens[i]? with
  | none =>
    have hturn : State.turn program ⟨i, tape⟩ = .stop ⟨i, tape⟩ :=
      if_pos (Int.ofNat_le.mpr (Array.getElem?_eq_none_iff.mp ht))
    simp only [step, hturn] at hs
    contradiction
  | some t =>
    have hget : program.tokens.toList[i]? = some t := by
      rw [Array.getElem?_toList, ht]
    have hlen : ¬ (program.length : Int) ≤ i :=
      Int.not_le.mpr (Int.ofNat_lt.mpr (Array.getElem?_eq_some_iff.mp ht).1)
    obtain ⟨n, hn, block⟩ := Program.runLength?_eq ht
    simp only [step, State.turn, if_neg hlen, Program.token?_ofNat, ht, hn, Option.getD_some] at hs
    cases t with
    | right | left | increment | decrement =>
      exact front_of_settle (State.toFront_operate block.atFront tape _) hs
    | loopStart =>
      obtain ⟨j, hij⟩ := hpass.balanced.exists_close hget
      have hj : program.jumps.endOf? i = some (j : Int) :=
        (hpass.closes i j).mpr ⟨i, j, rfl, rfl, hij⟩
      rw [hj] at hs
      exact front_of_settle (State.toFront_branch (atFront_behind hget rfl)
        (atFront_behind hij.closing rfl) tape _) hs
    | loopEnd =>
      obtain ⟨j, hji⟩ := hpass.balanced.exists_open hget
      have hj : program.jumps.startOf? i = some (j : Int) :=
        (hpass.opens i j).mpr ⟨i, j, rfl, rfl, hji⟩
      rw [hj] at hs
      exact front_of_settle (State.toFront_branch (atFront_behind hget rfl)
        (atFront_behind hji.opening rfl) tape _) hs
    | input =>
      simp only at hs
      rcases hread : console.read streams with ⟨cause | answer, after⟩
      · rw [hread] at hs
        contradiction
      · rw [hread] at hs
        exact front_of_settle (State.toFront_operate (n := 1) (atFront_behind hget rfl) tape _) hs
    | output =>
      simp only [State.emit] at hs
      cases hcell : tape.current? with
      | none =>
        rw [hcell] at hs
        contradiction
      | some cell =>
        rw [hcell] at hs
        simp only at hs
        rcases hwrite : console.write cell streams with ⟨cause | _, after⟩
        · rw [hwrite] at hs
          contradiction
        · rw [hwrite] at hs
          obtain rfl := Step.running.inj hs
          exact ⟨i + 1, rfl, atFront_behind hget rfl⟩

theorem front_of_runFrom {console : Console σ} (hp : program.Paired) {bound turns : Nat}
    {machine next : Machine σ} (h : machine.Front program)
    (hrun : runFrom console program bound turns machine = .running next) :
    next.Front program := by
  induction bound generalizing machine turns with
  | zero =>
    obtain rfl := Progress.running.inj hrun
    exact h
  | succ bound ih =>
    rw [runFrom] at hrun
    cases hs : machine.step console program with
    | stopped last =>
      rw [hs] at hrun
      contradiction
    | failed why last =>
      rw [hs] at hrun
      contradiction
    | running between =>
      rw [hs] at hrun
      exact ih (front_of_step hp h hs) hrun

end Machine

/-! ## Whole runs -/

namespace Machine

variable {σ : Type} {program : Program}

/-- If an operator that is applied in a block stands at the index, the turn makes the operation of
all the operators of a whole block, from its first one on. -/
def AppliesWhole (program : Program) (machine : Machine σ) : Prop :=
  ∀ t, Program.token? program.tokens machine.state.index = some t → t.isBatched = true →
    ∃ (i n : Nat) (op : Tape.Op), machine.state.index = i ∧
      WholeBlock program.tokens.toList t i n ∧ t.operation? n = some op ∧
        machine.state.turn program = .settled (machine.state.operate n op)

theorem Front.appliesWhole {machine : Machine σ} (h : machine.Front program) :
    machine.AppliesWhole program := by
  obtain ⟨⟨index, tape⟩, streams⟩ := machine
  obtain ⟨i, rfl, hfront⟩ := h
  intro t ht hbatched
  rw [Program.token?_ofNat] at ht
  obtain ⟨n, -, block⟩ := Program.runLength?_eq ht
  obtain ⟨op, hop⟩ := Token.exists_operation hbatched n
  exact ⟨i, n, op, rfl, hfront.wholeBlock hbatched block, hop, State.turn_block block tape hop⟩

theorem Sound.reaches_plain {console : Console σ} {machine next : Machine σ}
    (h : machine.Sound program) (hp : program.Paired) {bound turns : Nat}
    (hrun : Machine.runFrom console program bound turns machine = .running next) :
    (Plain.process console program.tokens.toList).Reaches machine.plain next.plain := by
  induction bound generalizing machine turns with
  | zero =>
    obtain rfl := Progress.running.inj hrun
    exact .refl
  | succ bound ih =>
    obtain ⟨c, hsilent, hturn⟩ := (h.stepCase hp console).followed h.inside
    have hstep := h.step hp console
    rw [Machine.runFrom] at hrun
    cases hs : machine.step console program with
    | stopped last =>
      rw [hs] at hrun
      contradiction
    | failed why last =>
      rw [hs] at hrun
      contradiction
    | running between =>
      rw [hs] at hrun hturn hstep
      exact (hsilent.reaches.tail hturn).trans (ih hstep hrun)

/-- Why a move to the left is refused: the machine `here` has come to the first of `count` operators,
with fewer cells to its left. -/
structure Refusal (console : Console σ) (program : Program) (streams : σ) (here : Machine σ)
    (i count : Nat) : Prop where
  block : WholeBlock program.tokens.toList .left i count
  index_eq : here.state.index = i
  pointer_nonneg : 0 ≤ here.state.tape.pointer
  pointer_lt : here.state.tape.pointer < count
  /-- The run has come here, and the turn that fails changes nothing. -/
  reached : ∃ turns, runFor console program turns (start streams) = .running here
  fails : here.step console program =
    .failed (.tape (.negativePointer here.state.tape.pointer count)) here
  /-- The plain machine comes to the block with the same pointer and the same cells. -/
  entered : (Plain.process console program.tokens.toList).Reaches (Plain.start streams)
    ⟨i, here.state.tape.endless, here.streams⟩
  /-- It goes on in the block for as many operators as there are cells, and fails at the next. -/
  gone_through : (Plain.process console program.tokens.toList).Silent
    ⟨i, here.state.tape.endless, here.streams⟩
    ⟨i + here.state.tape.endless.pointer, { here.state.tape.endless with pointer := 0 },
      here.streams⟩
  fails_plainly : Plain.step console program.tokens.toList
      ⟨i + here.state.tape.endless.pointer, { here.state.tape.endless with pointer := 0 },
        here.streams⟩ = .error (.negativePointer, here.streams)

theorem plain_refused (console : Console σ) {tokens : List Token} {i count : Nat}
    (block : Block tokens .left i count) {tape : EndlessTape} (hlt : tape.pointer < count)
    (streams : σ) :
    (Plain.process console tokens).Silent ⟨i, tape, streams⟩
        ⟨i + tape.pointer, { tape with pointer := 0 }, streams⟩ ∧
      Plain.step console tokens ⟨i + tape.pointer, { tape with pointer := 0 }, streams⟩ =
        .error (.negativePointer, streams) := by
  constructor
  · have hmove : Plain.actMany? .left tape.pointer tape = some { tape with pointer := 0 } := by
      rw [Plain.actMany?_left, EndlessTape.moveLeft?, if_pos (Nat.le_refl _), Nat.sub_self]
    exact Plain.silent_stretch console rfl (fun k hk => block.get k (Nat.lt_trans hk hlt)) hmove
      streams
  · have hstep := Plain.step_of_isBatched console (t := .left) rfl
      ⟨i + tape.pointer, { tape with pointer := 0 }, streams⟩ (block.get _ hlt)
    rw [hstep]
    rfl

theorem StepCase.exists_refused {console : Console σ} {tokens : List Token} {i : Nat} {tape : Tape}
    {streams : σ} {why : RunFault} {last : Machine σ} {pointer count : Int}
    (h : StepCase console tokens i tape streams (.failed why last))
    (hwhy : why = .tape (.negativePointer pointer count)) :
    ∃ n : Nat, Block tokens .left i n ∧ tape.pointer < n ∧ pointer = tape.pointer ∧ count = n ∧
      last = standing i tape streams := by
  cases h with
  | @refused n block hn =>
    obtain ⟨rfl, rfl⟩ := Tape.Fault.negativePointer.inj (RunFault.tape.inj hwhy)
    exact ⟨n, block, hn, rfl, rfl, rfl⟩
  | unread _ _ =>
    unfold RunFault.ofRead at hwhy
    split at hwhy <;> contradiction
  | unwritten _ _ _ =>
    unfold RunFault.ofWrite at hwhy
    split at hwhy <;> contradiction

/-- A run that fails by a move to the left has come to a block that is refused as a whole. -/
theorem refusal_of_failed {console : Console σ} (hp : program.Paired) {streams : σ} {bound : Nat}
    {pointer count : Int} {last : Machine σ}
    (hrun : runFor console program bound (start streams) =
      .failed (.tape (.negativePointer pointer count)) last) :
    ∃ i n : Nat, pointer = last.state.tape.pointer ∧ count = n ∧
      Refusal console program streams last i n := by
  obtain ⟨turns, here, hhere, hstep⟩ := exists_step_of_failed hrun
  have hstart : (start streams).Sound program := sound_start streams
  have hsound : here.Sound program := by
    have hruns := hstart.runFrom hp console turns 0
    rwa [hhere] at hruns
  have hfront : here.Front program := front_of_runFrom hp ⟨0, rfl, atFront_zero _⟩ hhere
  have hentered := hstart.reaches_plain hp hhere
  obtain ⟨i, tape, after, rfl⟩ : ∃ i tape after, here = standing i tape after :=
    ⟨_, _, _, hsound.eq_standing⟩
  have hinside : tape.Inside := hsound.inside
  have hcase := step_cases console hp i hinside after
  rw [hstep] at hcase
  obtain ⟨n, block, hn, rfl, rfl, rfl⟩ := hcase.exists_refused rfl
  obtain ⟨i', hi', hatFront⟩ := hfront
  obtain rfl : i = i' := Int.ofNat.inj hi'
  have hlt : tape.endless.pointer < n := by
    have hpointer : tape.pointer = tape.endless.pointer := hinside.pointer_eq
    omega
  obtain ⟨hthrough, hfails⟩ := plain_refused console block hlt after
  rw [plain_start] at hentered
  refine ⟨i, n, rfl, rfl, ?_⟩
  constructor
  case block => exact hatFront.wholeBlock rfl block
  case index_eq => rfl
  case pointer_nonneg => exact hinside.1
  case pointer_lt => exact hn
  case reached => exact ⟨turns, hhere⟩
  case fails => exact hstep
  case entered => exact hentered
  case gone_through => exact hthrough
  case fails_plainly => exact hfails

end Machine

namespace Execution

variable {σ : Type} {source : Source} {prog : Program}

theorem exists_of_negativePointer {failure : Failure} {report : Report}
    (hreport : failure.report? source = some report) (hkind : report.kind = .negativePointer) :
    ∃ pointer count, failure = .run (.tape (.negativePointer pointer count)) ∧
      report.detail = .move pointer count := by
  cases failure with
  | source fault =>
    obtain rfl := Option.some.inj hreport
    cases fault with
    | unmatched bracket position => cases bracket <;> contradiction
    | _ => contradiction
  | run why =>
    have hwhy : why.report? = some report := hreport
    cases why with
    | tape fault =>
      cases fault with
      | negativePointer pointer count =>
        obtain rfl := Option.some.inj hwhy
        exact ⟨pointer, count, rfl, rfl⟩
      | _ => contradiction
    | input cause =>
      obtain rfl := Option.some.inj hwhy
      contradiction
    | output cause =>
      obtain rfl := Option.some.inj hwhy
      contradiction
    | _ => contradiction

/-- Every turn of a run makes the operation of a whole block, if it makes one for a block at all;
and an execution that is refused a move to the left reports the length of a whole block and the
pointer that the plain machine has in front of it. -/
theorem blocks_applied_whole (console : Console σ) (h : program source = .ok prog) (streams : σ) :
    (∀ tape bound machine, Machine.runFor console.recording prog bound
        ⟨State.start tape, ⟨streams, []⟩⟩ = .running machine → machine.AppliesWhole prog) ∧
      ∀ bound execution failure report,
        execute? console.recording bound source ⟨streams, []⟩ = some execution →
        execution.failure = some failure → failure.report? source = some report →
        report.kind = .negativePointer →
          ∃ (last : Machine (Recorded σ)) (i n : Nat), prog.tokens.toList = source.tokens ∧
            report.detail = .move last.state.tape.pointer n ∧
            Machine.runFor console.recording prog bound (Machine.start ⟨streams, []⟩) =
              .failed (.tape (.negativePointer last.state.tape.pointer n)) last ∧
            execution.streams = last.streams ∧
            Machine.Refusal console.recording prog ⟨streams, []⟩ last i n := by
  obtain ⟨hp, htokens⟩ := program_eq_ok h
  constructor
  · intro tape bound machine hrun
    have hstart : Machine.Front prog (⟨State.start tape, ⟨streams, []⟩⟩ : Machine (Recorded σ)) :=
      ⟨0, rfl, atFront_zero _⟩
    exact (Machine.front_of_runFrom hp hstart hrun).appliesWhole
  · intro bound execution failure report hexecution hfailure hreport hkind
    obtain ⟨pointer, count, rfl, hdetail⟩ := exists_of_negativePointer hreport hkind
    cases end_cases hexecution with
    | refused _ => nomatch Option.some.inj hfailure
    | succeeded _ _ => contradiction
    | @failed prog' why last hprog hrun =>
      obtain rfl := Except.ok.inj (h.symm.trans hprog)
      obtain rfl := Failure.run.inj (Option.some.inj hfailure)
      obtain ⟨i, n, rfl, rfl, hrefusal⟩ := Machine.refusal_of_failed hp hrun
      exact ⟨last, i, n, htokens, hdetail, hrun, rfl, hrefusal⟩

/-- A block of three moves to the left with comments in it, one cell from the left end, behind a loop
that is gone through twice. -/
theorem blocks_applied_whole_commented :
    ∃ prog machine execution failure report,
      program "++[->+<]>one<two<three<".toList = .ok prog ∧
      Machine.runFor Script.console.recording prog 3
          ⟨State.start ⟨#[0, 7], 1⟩, ⟨Script.ofInput [], []⟩⟩ = .running machine ∧
      machine.AppliesWhole prog ∧
      execute? Script.console.recording 20 "++[->+<]>one<two<three<".toList
        ⟨Script.ofInput [], []⟩ = some execution ∧
      execution.failure = some failure ∧
      failure.report? "++[->+<]>one<two<three<".toList = some report ∧
      report.kind = .negativePointer ∧ report.detail = .move 1 3 ∧
      ∃ (last : Machine (Recorded Script)) (i n : Nat),
        report.detail = .move last.state.tape.pointer n ∧
        Machine.Refusal Script.console.recording prog ⟨Script.ofInput [], []⟩ last i n := by
  obtain ⟨happlies, hrefusal⟩ := @blocks_applied_whole _ "++[->+<]>one<two<three<".toList _
    Script.console rfl (Script.ofInput [])
  obtain ⟨last, i, n, -, hdetail, -, -, hlast⟩ := hrefusal 20 _ _ _ rfl rfl rfl rfl
  have hwhole := happlies ⟨#[0, 7], 1⟩ 3 _ rfl
  exact ⟨_, _, _, _, _, rfl, rfl, hwhole, rfl, rfl, rfl, rfl, rfl, last, i, n, hdetail, hlast⟩

end Execution

end Brainfuck
