import Brainfuck.Proofs.Plain
import Brainfuck.Proofs.Turn
import Brainfuck.Script

/-!
The machine does what the plain machine does.

The machine applies a block of equal operators at once, on a tape that grows, and takes its jumps
from a table; the plain machine takes one operator a turn, on a tape without an end, and looks for
brackets. At related points both have the same index, the same streams, and tapes that look the same
(`Machine.plain`). A turn of the machine is followed by as many turns of the plain machine as the
block is long, all but the last of them silent (`StepCase.followed`), so both show the same views,
also when they run for ever (`views_process`).

For the executions of a source this is `Execution.ActsPlainly`.
-/

namespace Brainfuck

/-- What a turn leads to, or the end it shows. -/
def Step.next {σ : Type} : Step σ → Except (Outcome × σ) (Machine σ)
  | .stopped last =>
    .error (.success last.state.tape.pointer last.state.tape.cellAt, last.streams)
  | .failed why last => .error (why.outcome, last.streams)
  | .running next => .ok next

namespace Machine

variable {σ : Type}

/-- The machine as a process. -/
def process (console : Console σ) (program : Program) : Process σ (Machine σ) where
  streams := Machine.streams
  step machine := (machine.step console program).next

theorem view_runFrom (console : Console σ) (program : Program) (bound turns : Nat)
    (machine : Machine σ) :
    (runFrom console program bound turns machine).view =
      (process console program).viewAfter bound machine := by
  induction bound generalizing turns machine with
  | zero => rfl
  | succ bound ih =>
    cases hs : machine.step console program with
    | stopped last => simp only [runFrom, Process.viewAfter, process, hs, Step.next, Progress.view]
    | failed why last => simp only [runFrom, Process.viewAfter, process, hs, Step.next, Progress.view]
    | running next =>
      have hnext := ih (turns + 1) next
      simp only [runFrom, Process.viewAfter, process, hs, Step.next] at hnext ⊢
      exact hnext

/-- The plain machine stands where the machine stands, with the tape and the streams it has. -/
def plain (machine : Machine σ) : Plain σ :=
  ⟨machine.state.index.toNat, machine.state.tape.endless, machine.streams⟩

theorem plain_start (streams : σ) : (start streams).plain = Plain.start streams := by
  rw [plain, start, State.start, Tape.endless_blank]
  rfl

end Machine

/-! ## Operations on the cells -/

theorem byte_ofInt_natCast (n : Nat) : UInt8.ofInt n = UInt8.ofNat n := by
  have h : ((n : Int) % 2 ^ 8).toNat = n % 2 ^ 8 := by omega
  rw [UInt8.ofInt, h]
  exact UInt8.ofNat_mod_size

namespace Tape

variable {tape : Tape}

theorem Inside.endless_add (h : tape.Inside) (count : Nat) :
    (tape.apply (.add count)).endless = tape.endless.edit (· + UInt8.ofNat count) := by
  rw [apply, h.endless_modify]
  congr 1
  funext cell
  rw [UInt8.ofInt_add, byte_ofInt_natCast, byte_ofInt_natCast, UInt8.ofNat_toNat]

theorem Inside.endless_sub (h : tape.Inside) (count : Nat) :
    (tape.apply (.sub count)).endless = tape.endless.edit (· - UInt8.ofNat count) := by
  rw [apply, h.endless_modify]
  congr 1
  funext cell
  rw [Int.sub_eq_add_neg, UInt8.ofInt_add, UInt8.ofInt_neg, byte_ofInt_natCast, byte_ofInt_natCast,
    UInt8.ofNat_toNat, UInt8.sub_eq_add_neg]

theorem Inside.endless_set (h : tape.Inside) (byte : UInt8) :
    (tape.apply (.set byte.toNat)).endless = tape.endless.edit fun _ => byte := by
  rw [apply, h.endless_modify]
  congr 1
  funext cell
  rw [byte_ofInt_natCast, UInt8.ofNat_toNat]

end Tape

/-! ## One turn -/

namespace Machine

variable {σ : Type}

/-- The plain machine keeps up with each case of a turn. -/
theorem StepCase.followed {console : Console σ} {tokens : List Token} {i : Nat} {tape : Tape}
    {streams : σ} {step : Step σ} (h : StepCase console tokens i tape streams step)
    (hin : tape.Inside) :
    ∃ c, (Plain.process console tokens).Silent ⟨i, tape.endless, streams⟩ c ∧
      Plain.step console tokens c = step.next.map plain := by
  have hcurrent := hin.current?_eq_endless
  -- only a block takes the plain machine more than one turn
  cases h with
  | stop ht =>
    refine ⟨_, .refl, ?_⟩
    simp only [Plain.step, ht, Step.next, standing, Except.map, hin.pointer_eq]
    rfl
  | right block =>
    refine Plain.stretch_step console rfl block.pos block.get ?_ streams
    rw [Plain.actMany?_right, ← hin.endless_moveRight]
    rfl
  | left block hn =>
    refine Plain.stretch_step console rfl block.pos block.get ?_ streams
    rw [Plain.actMany?_left, Tape.endless_moveLeft hn]
    rfl
  | refused block hn =>
    -- the plain machine first takes the moves there are cells for
    refine Plain.stretch_refused console rfl block.get ?_ streams
    rw [Plain.actMany?_left, hin.endless_moveLeft_eq_none hn]
  | increment block =>
    refine Plain.stretch_step console rfl block.pos block.get ?_ streams
    rw [Plain.actMany?_increment, ← hin.endless_add]
    rfl
  | decrement block =>
    refine Plain.stretch_step console rfl block.pos block.get ?_ streams
    rw [Plain.actMany?_decrement, ← hin.endless_sub]
    rfl
  | skip hm zero =>
    refine ⟨_, .refl, ?_⟩
    have hzero : tape.endless.current = 0 := Option.some.inj (hcurrent.symm.trans zero)
    rw [Plain.step, hm.opening]
    simp only [hzero, if_true, hm.closeOf?_eq, Plain.jump]
    rfl
  | enter ht nonzero =>
    refine ⟨_, .refl, ?_⟩
    have hnonzero : tape.endless.current ≠ 0 := fun hz => nonzero (hz ▸ hcurrent)
    rw [Plain.step, ht]
    simp only [hnonzero, if_false]
    rfl
  | again hm nonzero =>
    refine ⟨_, .refl, ?_⟩
    have hnonzero : tape.endless.current ≠ 0 := fun hz => nonzero (hz ▸ hcurrent)
    rw [Plain.step, hm.closing]
    simp only [hnonzero, if_false, hm.openOf?_eq, Plain.jump]
    rfl
  | leave ht zero =>
    refine ⟨_, .refl, ?_⟩
    have hzero : tape.endless.current = 0 := Option.some.inj (hcurrent.symm.trans zero)
    rw [Plain.step, ht]
    simp only [hzero, if_true]
    rfl
  | read ht call =>
    refine ⟨_, .refl, ?_⟩
    rw [Plain.step, ht]
    simp only [call, ← hin.endless_set]
    rfl
  | unread ht call =>
    refine ⟨_, .refl, ?_⟩
    rw [Plain.step, ht]
    simp only [call]
    rfl
  | write ht hb call =>
    refine ⟨_, .refl, ?_⟩
    obtain rfl := Option.some.inj (hcurrent.symm.trans hb)
    rw [Plain.step, ht]
    simp only [call]
    rfl
  | unwritten ht hb call =>
    refine ⟨_, .refl, ?_⟩
    obtain rfl := Option.some.inj (hcurrent.symm.trans hb)
    rw [Plain.step, ht]
    simp only [call]
    rfl

/-- A sound machine shows what the plain machine shows from where it stands. -/
theorem views_process (console : Console σ) {program : Program} (hp : program.Paired)
    {machine : Machine σ} (h : machine.Sound program) :
    (process console program).views machine =
      (Plain.process console program.tokens.toList).views machine.plain := by
  have hfollows : ∀ (a : Machine σ) (b : Plain σ), a.Sound program ∧ b = a.plain →
      Process.Follows (process console program) (Plain.process console program.tokens.toList)
        (fun a b => a.Sound program ∧ b = a.plain) a b := by
    intro a b hab
    obtain ⟨ha, rfl⟩ := hab
    obtain ⟨c, hsilent, hturn⟩ := (ha.stepCase hp console).followed ha.inside
    have hsound := ha.step hp console
    refine ⟨rfl, c, hsilent, ?_⟩
    simp only [process, Plain.process]
    cases hs : a.step console program with
    | stopped last =>
      rw [hs] at hturn
      exact hturn
    | failed why last =>
      rw [hs] at hturn
      exact hturn
    | running next =>
      rw [hs] at hturn hsound
      exact ⟨next.plain, hturn, hsound, rfl⟩
  exact Process.views_eq_of_follows hfollows ⟨h, rfl⟩

end Machine

/-! ## Executions -/

/-- A run that ends like this is reported by an execution with this failure. -/
def Outcome.ReportedAs : Outcome → Option Failure → Prop
  | .success _ _, failure => failure = none
  | outcome, failure => ∃ why : RunFault, why.outcome = outcome ∧ failure = some (.run why)

theorem RunFault.reportedAs (why : RunFault) : why.outcome.ReportedAs (some (.run why)) := by
  have h : ∃ why' : RunFault, why'.outcome = why.outcome ∧
      some (Failure.run why) = some (Failure.run why') := ⟨why, rfl, rfl⟩
  cases hout : why.outcome with
  | success pointer cells =>
    have hnot := why.not_succeeded ()
    rw [hout] at hnot
    exact (hnot trivial).elim
  | _ => rwa [hout] at h

namespace Execution

variable {σ : Type} {source : Source} {prog : Program}

/-- The executions of a source do what the plain machine does with its tokens. -/
structure ActsPlainly (console : Console σ) (source : Source) (prog : Program) (streams : σ) :
    Prop where
  /-- At each point and at the end, the machine and the plain machine show the same. -/
  alike : Alike
    (fun bound =>
      (Machine.runFor console.recording prog bound (Machine.start ⟨streams, []⟩)).view)
    (fun turns => (Plain.process console.recording source.tokens).viewAfter turns
      (Plain.start ⟨streams, []⟩))
  /-- An execution that has an answer tells how the plain machine ends. -/
  answer_shown : ∀ bound execution,
    execute? console.recording bound source ⟨streams, []⟩ = some execution →
      ∃ turns outcome, outcome.ReportedAs execution.failure ∧
        (Plain.process console.recording source.tokens).viewAfter turns
          (Plain.start ⟨streams, []⟩) = .ended outcome execution.streams
  /-- If the plain machine ends, there is an execution that has an answer. -/
  end_answered : ∀ turns outcome ending,
    (Plain.process console.recording source.tokens).viewAfter turns
        (Plain.start ⟨streams, []⟩) = .ended outcome ending →
      ∃ bound execution,
        execute? console.recording bound source ⟨streams, []⟩ = some execution ∧
          outcome.ReportedAs execution.failure ∧ execution.streams = ending

theorem alike_plain (console : Console σ) (h : program source = .ok prog) (streams : σ) :
    Alike (fun bound => (Machine.runFor console prog bound (Machine.start streams)).view)
      (fun turns => (Plain.process console source.tokens).viewAfter turns
        (Plain.start streams)) := by
  obtain ⟨hp, htokens⟩ := program_eq_ok h
  have hviews := Machine.views_process console hp (Machine.sound_start streams)
  rw [Machine.plain_start, htokens] at hviews
  simp only [Alike, Machine.runFor, Machine.view_runFrom]
  exact hviews

theorem exists_view_of_ofProgress? {progress : Machine.Progress σ} {execution : Execution σ}
    (h : ofProgress? prog progress = some execution) :
    ∃ outcome, outcome.ReportedAs execution.failure ∧
      progress.view = .ended outcome execution.streams := by
  cases progress with
  | running machine => contradiction
  | succeeded turns machine =>
    obtain rfl := Option.some.inj h
    exact ⟨.success machine.state.tape.pointer machine.state.tape.cellAt, rfl, rfl⟩
  | failed why machine =>
    obtain rfl := Option.some.inj h
    exact ⟨_, why.reportedAs, rfl⟩

theorem exists_ofProgress? {progress : Machine.Progress σ} {outcome : Outcome} {ending : σ}
    (h : progress.view = .ended outcome ending) :
    ∃ execution, ofProgress? prog progress = some execution ∧
      outcome.ReportedAs execution.failure ∧ execution.streams = ending := by
  cases progress with
  | running machine => contradiction
  | succeeded turns machine =>
    obtain ⟨rfl, rfl⟩ := View.ended.inj h
    exact ⟨_, rfl, rfl, rfl⟩
  | failed why machine =>
    obtain ⟨rfl, rfl⟩ := View.ended.inj h
    exact ⟨_, rfl, why.reportedAs, rfl⟩

/-- Every source that has a program is executed as the plain machine would go through its tokens,
whatever the streams answer. -/
theorem execution_acts_plainly (console : Console σ) (h : program source = .ok prog)
    (streams : σ) : ActsPlainly console source prog streams := by
  have halike := alike_plain console.recording h (⟨streams, []⟩ : Recorded σ)
  have hexecute : ∀ bound, execute? console.recording bound source ⟨streams, []⟩ =
      ofProgress? prog (Machine.runFor console.recording prog bound
        (Machine.start ⟨streams, []⟩)) := by
    intro bound
    simp only [execute?, h]
  refine ⟨halike, fun bound execution hsome => ?_, fun turns outcome ending hended => ?_⟩
  · rw [hexecute] at hsome
    obtain ⟨outcome, hreported, hview⟩ := exists_view_of_ofProgress? hsome
    obtain ⟨turns, hturns⟩ := halike.exists_second bound
    exact ⟨turns, outcome, hreported, hturns.trans hview⟩
  · obtain ⟨bound, hbound⟩ := halike.exists_first turns
    obtain ⟨execution, hsome, hreported, hending⟩ :=
      exists_ofProgress? (hbound.trans hended)
    exact ⟨bound, execution, (hexecute bound).trans hsome, hreported, hending⟩

/-- Two times three, counted down in a loop and written. -/
theorem execution_acts_plainly_product :
    ∃ prog, program "+++[>++<-]>.".toList = .ok prog ∧
      ActsPlainly Script.console "+++[>++<-]>.".toList prog (Script.ofInput []) :=
  ⟨_, rfl, execution_acts_plainly Script.console rfl _⟩

end Execution

end Brainfuck
