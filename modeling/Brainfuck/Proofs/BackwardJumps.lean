import Mathlib.Data.Nat.Count
import Brainfuck.Proofs.Turn
import Brainfuck.Script

/-!
Only jumps back keep a run going.

A turn at a loop end whose cell is not zero jumps back, and every other turn leads to a larger index
(`Sound.jumpsBack_iff`), a jump behind a loop end and a block of equal operators included. An index
is smaller than the length of the program, so when a run is told by the jumps back it has made and
the index it is at, the number of its turns is at most the one, times the length of the program, and
the other together (`Sound.turns_le`). The invariant is kept by both kinds of turn.

So a run makes no more turns than the program has operators without a jump back between them. A run
that succeeds is bounded by its jumps back, a program without loops always comes to an end, and a run
without an end jumps back again and again (`GoesOnByJumps`).
-/

namespace Brainfuck

namespace Machine

variable {σ : Type}

/-- The next turn is one at a loop end, and the cell asks for another pass. -/
def JumpsBack (program : Program) (machine : Machine σ) : Prop :=
  Program.token? program.tokens machine.state.index = some .loopEnd ∧
    machine.state.tape.current? ≠ some 0

instance (program : Program) : DecidablePred (@JumpsBack σ program) :=
  fun machine => inferInstanceAs
    (Decidable (Program.token? program.tokens machine.state.index = some .loopEnd ∧
      machine.state.tape.current? ≠ some 0))

/-- A run that has come so far goes on with a jump back. -/
def Progress.JumpsBack (program : Program) : Progress σ → Prop
  | .running machine => machine.JumpsBack program
  | .succeeded .. | .failed .. => False

instance (program : Program) : DecidablePred (@Progress.JumpsBack σ program)
  | .running machine => inferInstanceAs (Decidable (machine.JumpsBack program))
  | .succeeded .. => .isFalse id
  | .failed .. => .isFalse id

/-- How many of so many turns of a run, from its turn `first` on, are jumps back. -/
def jumpsBack (console : Console σ) (program : Program) (machine : Machine σ)
    (first count : Nat) : Nat :=
  Nat.count (fun k => (runFor console program (first + k) machine).JumpsBack program) count

/-- A run makes so many turns from its turn `first` on, the last of which may fail, and none of them
is a jump back. -/
def Stretch (console : Console σ) (program : Program) (machine : Machine σ)
    (first count : Nat) : Prop :=
  ∀ k, k < count → ∃ here, runFor console program (first + k) machine = .running here ∧
    here.state.index < program.length ∧ ¬ here.JumpsBack program

/-- What keeps a run from a machine going is its jumps back. -/
structure GoesOnByJumps (console : Console σ) (program : Program) (machine : Machine σ) : Prop where
  /-- A jump back leads to a smaller index or to the same one, and every other turn to a larger. -/
  jumpsBack_iff : ∀ n here next, runFor console program n machine = .running here →
    here.step console program = .running next →
      (here.JumpsBack program ↔ next.state.index ≤ here.state.index)
  stretch_le : ∀ first count, Stretch console program machine first count → count ≤ program.length
  turns_le : ∀ bound turns last, runFor console program bound machine = .succeeded turns last →
    turns ≤ (jumpsBack console program machine 0 turns + 1) * program.length
  /-- Without loops the program comes to its end, or fails before. -/
  ended : Token.loopStart ∉ program.tokens.toList →
    (runFor console program (program.length + 1) machine).Ended
  /-- A run without an end never goes on for long without a jump back. -/
  endless : (∀ bound, ¬ (runFor console program bound machine).Ended) →
    ∀ n, ∃ m, n ≤ m ∧ m ≤ n + program.length ∧
      (runFor console program m machine).JumpsBack program

/-! ## One turn -/

/-- A turn that goes on leads back just if it is a jump back. -/
theorem StepCase.jumpsBack_iff {console : Console σ} {tokens : List Token} {i : Nat} {tape : Tape}
    {streams : σ} {next : Machine σ} (h : StepCase console tokens i tape streams (.running next)) :
    (tokens[i]? = some .loopEnd ∧ tape.current? ≠ some 0) ↔ next.state.index ≤ i := by
  -- at any other operator than a loop end the turn leads on
  have honward : ∀ {t : Token} {k : Nat}, tokens[i]? = some t → t ≠ .loopEnd → i < k →
      ((tokens[i]? = some .loopEnd ∧ tape.current? ≠ some 0) ↔ (k : Int) ≤ i) := by
    intro t k ht hne hlt
    refine iff_of_false ?_ (by omega)
    intro hback
    exact hne (Option.some.inj (ht.symm.trans hback.1))
  cases h with
  | right block | left block _ | increment block | decrement block =>
    have hpos := block.pos
    exact honward (block.get 0 hpos) (by decide) (by omega)
  | skip hm _ => exact honward hm.opening (by decide) (Nat.lt_succ_of_lt hm.lt)
  | enter ht _ | read ht _ | write ht _ _ => exact honward ht (by decide) (Nat.lt_succ_self i)
  | again hm nonzero =>
    refine iff_of_true ⟨hm.closing, nonzero⟩ ?_
    exact Int.ofNat_le.mpr hm.lt
  | leave ht zero =>
    refine iff_of_false (fun hback => hback.2 zero) ?_
    exact Int.not_le.mpr (Int.lt_succ i)

theorem StepCase.lt_length {console : Console σ} {tokens : List Token} {i : Nat} {tape : Tape}
    {streams : σ} {step : Step σ} (h : StepCase console tokens i tape streams step)
    (hstep : ∀ last, step ≠ .stopped last) : i < tokens.length := by
  have hlt : ∀ {t : Token}, tokens[i]? = some t → i < tokens.length :=
    fun ht => (List.getElem?_eq_some_iff.mp ht).1
  cases h with
  | stop _ => exact absurd rfl (hstep _)
  | right block | left block _ | refused block _ | increment block | decrement block =>
    exact hlt (block.get 0 block.pos)
  | skip hm _ => exact hlt hm.opening
  | again hm _ => exact hlt hm.closing
  | enter ht _ | leave ht _ | read ht _ | unread ht _ | write ht _ _ | unwritten ht _ _ =>
    exact hlt ht

section

variable {console : Console σ} {program : Program} {machine next last : Machine σ}

theorem Sound.jumpsBack_iff (h : machine.Sound program) (hp : program.Paired)
    (hs : machine.step console program = .running next) :
    machine.JumpsBack program ↔ next.state.index ≤ machine.state.index := by
  have hindex : ((machine.state.index.toNat : Nat) : Int) = machine.state.index :=
    Int.toNat_of_nonneg h.index_nonneg
  have hcase := h.stepCase hp console
  rw [hs] at hcase
  have hiff := hcase.jumpsBack_iff
  rw [hindex] at hiff
  rw [JumpsBack, ← hindex, Program.token?_ofNat, ← Array.getElem?_toList, hindex]
  exact hiff

theorem Sound.index_lt (h : machine.Sound program) (hp : program.Paired)
    (hs : machine.step console program = .running next) :
    machine.state.index < program.length := by
  have hcase := h.stepCase hp console
  rw [hs] at hcase
  have hlt := hcase.lt_length (fun _ hstop => nomatch hstop)
  rw [Array.length_toList] at hlt
  have hnonneg := h.index_nonneg
  rw [Program.length]
  omega

theorem JumpsBack.loopStart_mem (h : machine.JumpsBack program) (hsound : machine.Sound program)
    (hp : program.Paired) : Token.loopStart ∈ program.tokens.toList := by
  have hend := h.1
  rw [← Int.toNat_of_nonneg hsound.index_nonneg, Program.token?_ofNat, ← Array.getElem?_toList]
    at hend
  obtain ⟨a, hm⟩ := (pass_of_ofTokens hp).balanced.exists_open hend
  exact List.mem_of_getElem? hm.opening

/-! ## Runs -/

theorem exists_step_of_running {n : Nat}
    (h : runFor console program (n + 1) machine = .running next) :
    ∃ here, runFor console program n machine = .running here ∧
      here.step console program = .running next := by
  rw [runFor, runFrom_add] at h
  rw [runFor]
  cases hrun : runFrom console program n 0 machine with
  | succeeded _ _ =>
    rw [hrun] at h
    contradiction
  | failed _ _ =>
    rw [hrun] at h
    contradiction
  | running here =>
    refine ⟨here, rfl, ?_⟩
    rw [hrun, Progress.resume, runFrom] at h
    cases hs : here.step console program with
    | stopped _ =>
      rw [hs] at h
      contradiction
    | failed _ _ =>
      rw [hs] at h
      contradiction
    | running between =>
      rw [hs] at h
      exact congrArg Step.running (Progress.running.inj h)

theorem exists_running_of_succeeded {bound turns total : Nat}
    (h : runFrom console program bound turns machine = .succeeded total last) :
    ∃ n here, total = turns + n ∧ runFrom console program n turns machine = .running here := by
  induction bound generalizing machine turns with
  | zero => contradiction
  | succ bound ih =>
    rw [runFrom] at h
    cases hs : machine.step console program with
    | failed _ _ =>
      rw [hs] at h
      contradiction
    | stopped _ =>
      rw [hs] at h
      exact ⟨0, machine, (Progress.succeeded.inj h).1.symm, rfl⟩
    | running between =>
      rw [hs] at h
      obtain ⟨n, here, htotal, hrun⟩ := ih h
      refine ⟨n + 1, here, by omega, ?_⟩
      rw [runFrom, hs]
      exact hrun

theorem exists_running_of_not_ended {progress : Progress σ} (h : ¬ progress.Ended) :
    ∃ here, progress = .running here := by
  cases progress with
  | running here => exact ⟨here, rfl⟩
  | succeeded _ _ => exact absurd trivial h
  | failed _ _ => exact absurd trivial h

theorem Sound.of_running {n : Nat} (h : machine.Sound program) (hp : program.Paired)
    (hrun : runFor console program n machine = .running next) : next.Sound program := by
  have hsound := h.runFrom hp console n 0
  rw [runFor] at hrun
  rwa [hrun] at hsound

/-- The invariant of a run: its turns are told by its jumps back and by the index it is at. -/
theorem Sound.turns_le (h : machine.Sound program) (hp : program.Paired) {first n : Nat}
    {here : Machine σ} (hrun : runFor console program (first + n) machine = .running here) :
    n ≤ jumpsBack console program machine first n * program.length + here.state.index.toNat := by
  induction n generalizing here with
  | zero => exact Nat.zero_le _
  | succ n ih =>
    rw [← Nat.add_assoc] at hrun
    obtain ⟨before, hbefore, hstep⟩ := exists_step_of_running hrun
    have hle := ih hbefore
    have hsound := h.of_running hp hbefore
    have hnonneg := hsound.index_nonneg
    have hlt := hsound.index_lt hp hstep
    have hjump := hsound.jumpsBack_iff hp hstep
    have hcount : jumpsBack console program machine first (n + 1) =
        jumpsBack console program machine first n + if before.JumpsBack program then 1 else 0 := by
      rw [jumpsBack, Nat.count_succ, hbefore]
      rfl
    by_cases hback : before.JumpsBack program
    · -- what the index loses is what one more jump back is counted for
      rw [hcount, if_pos hback, Nat.add_mul]
      omega
    · simp only [hcount, if_neg hback, Nat.add_zero]
      rw [hjump] at hback
      omega

theorem Sound.turns_le_index (h : machine.Sound program) (hp : program.Paired) {first n : Nat}
    {here : Machine σ} (hrun : runFor console program (first + n) machine = .running here)
    (hnone : ∀ k, k < n → ¬ (runFor console program (first + k) machine).JumpsBack program) :
    (n : Int) ≤ here.state.index := by
  have hle := h.turns_le hp hrun
  have hzero : jumpsBack console program machine first n = 0 := Nat.count_iff_forall_not.mpr hnone
  have hnonneg := (h.of_running hp hrun).index_nonneg
  rw [hzero, Nat.zero_mul] at hle
  omega

theorem Sound.stretch_le (h : machine.Sound program) (hp : program.Paired) {first count : Nat}
    (hstretch : Stretch console program machine first count) : count ≤ program.length := by
  cases count with
  | zero => exact Nat.zero_le _
  | succ count =>
    obtain ⟨here, hrun, hlt, -⟩ := hstretch count (Nat.lt_succ_self count)
    have hle : (count : Int) ≤ here.state.index := by
      apply h.turns_le_index hp hrun
      intro k hk
      obtain ⟨there, hthere, -, hnot⟩ := hstretch k (Nat.lt_succ_of_lt hk)
      rw [hthere]
      exact hnot
    omega

theorem Sound.succeeded_le (h : machine.Sound program) (hp : program.Paired) {bound turns : Nat}
    (hrun : runFor console program bound machine = .succeeded turns last) :
    turns ≤ (jumpsBack console program machine 0 turns + 1) * program.length := by
  obtain ⟨n, here, hturns, hhere⟩ := exists_running_of_succeeded hrun
  rw [Nat.zero_add] at hturns
  subst hturns
  have hzero : runFor console program (0 + turns) machine = .running here := by
    rw [Nat.zero_add]
    exact hhere
  have hle := h.turns_le hp hzero
  have hindex := (h.of_running hp hhere).index_le
  rw [Nat.add_mul]
  omega

theorem exists_of_jumpsBack {progress : Progress σ} (h : progress.JumpsBack program) :
    ∃ here, progress = .running here ∧ here.JumpsBack program := by
  cases progress with
  | running here => exact ⟨here, rfl, h⟩
  | succeeded _ _ => exact h.elim
  | failed _ _ => exact h.elim

theorem Sound.ended (h : machine.Sound program) (hp : program.Paired)
    (hloop : Token.loopStart ∉ program.tokens.toList) :
    (runFor console program (program.length + 1) machine).Ended := by
  by_contra hend
  obtain ⟨here, hrun⟩ := exists_running_of_not_ended hend
  rw [← Nat.zero_add (program.length + 1)] at hrun
  have hle : ((program.length + 1 : Nat) : Int) ≤ here.state.index := by
    apply h.turns_le_index hp hrun
    intro k _ hjump
    obtain ⟨there, hthere, hback⟩ := exists_of_jumpsBack hjump
    exact hloop (hback.loopStart_mem (h.of_running hp hthere) hp)
  have hindex := (h.of_running hp hrun).index_le
  omega

theorem Sound.endless (h : machine.Sound program) (hp : program.Paired)
    (hrun : ∀ bound, ¬ (runFor console program bound machine).Ended) (n : Nat) :
    ∃ m, n ≤ m ∧ m ≤ n + program.length ∧
      (runFor console program m machine).JumpsBack program := by
  by_contra hnever
  have hstretch : Stretch console program machine n (program.length + 1) := by
    intro k hk
    obtain ⟨next, hnext⟩ := exists_running_of_not_ended (hrun (n + k + 1))
    obtain ⟨here, hhere, hstep⟩ := exists_step_of_running hnext
    refine ⟨here, hhere, (h.of_running hp hhere).index_lt hp hstep, ?_⟩
    intro hback
    refine hnever ⟨n + k, Nat.le_add_right n k, by omega, ?_⟩
    rw [hhere]
    exact hback
  have hle := h.stretch_le hp hstretch
  omega

end

/-- On any tape and any streams, what keeps the run of a source going is its jumps back. -/
theorem goes_on_by_jumps (console : Console σ) {source : Source} {program : Program}
    (hprogram : Program.ofSource source = .ok program) {tape : Tape} (hin : tape.Inside)
    (streams : σ) : GoesOnByJumps console program ⟨State.start tape, streams⟩ := by
  obtain ⟨hp, -⟩ := Program.paired_of_ofSource hprogram
  have hsound : Sound program ⟨State.start tape, streams⟩ := sound_on hin streams
  constructor
  · intro n here next hrun hstep
    exact (hsound.of_running hp hrun).jumpsBack_iff hp hstep
  · intro first count hstretch
    exact hsound.stretch_le hp hstretch
  · intro bound turns last hrun
    exact hsound.succeeded_le hp hrun
  · exact hsound.ended hp
  · exact hsound.endless hp

/-- Two passes through a loop, with one jump back between them. -/
theorem goes_on_by_jumps_two_passes :
    ∃ program last, Program.ofSource "+[- twice -]".toList = .ok program ∧
      (⟨#[7, 3], 1⟩ : Tape).Inside ∧
      runFor Script.console program 7 ⟨State.start ⟨#[7, 3], 1⟩, Script.ofInput []⟩ =
        .succeeded 6 last ∧
      jumpsBack Script.console program ⟨State.start ⟨#[7, 3], 1⟩, Script.ofInput []⟩ 0 6 = 1 ∧
      6 ≤ (1 + 1) * program.length := by
  have hin : (⟨#[7, 3], 1⟩ : Tape).Inside := ⟨by decide, by decide⟩
  have hruns := @goes_on_by_jumps _ Script.console "+[- twice -]".toList _ rfl _ hin
    (Script.ofInput [])
  exact ⟨_, _, rfl, hin, rfl, rfl, hruns.turns_le 7 6 _ rfl⟩

end Machine

end Brainfuck
