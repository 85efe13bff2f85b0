import Brainfuck.Execution

/-!
Runs of different lengths.

A run of `a + b` turns is a run of `a` turns that is taken up for `b` more if it has not ended
(`runFrom_add`). So a run that has ended stays as it is when it is given more turns, and of two
lengths at which an execution has an answer both give the same one (`execute?_eq_of_le`). A run that
has failed is a shorter one, still going on, and one turn that fails (`exists_step_of_failed`).
-/

namespace Brainfuck

namespace Machine

variable {σ : Type}

/-- A run that has not ended is taken up where it stands, for more turns. -/
def Progress.resume (console : Console σ) (program : Program) (bound turns : Nat) :
    Progress σ → Progress σ
  | .running machine => runFrom console program bound turns machine
  | ended => ended

/-- The run has come to an end. -/
def Progress.Ended : Progress σ → Prop
  | .running _ => False
  | .succeeded .. | .failed .. => True

theorem runFrom_add (console : Console σ) (program : Program) (a b turns : Nat)
    (machine : Machine σ) :
    runFrom console program (a + b) turns machine =
      (runFrom console program a turns machine).resume console program b (turns + a) := by
  induction a generalizing turns machine with
  | zero => simp [runFrom, Progress.resume]
  | succ a ih =>
    rw [Nat.add_right_comm]
    simp only [runFrom]
    cases machine.step console program with
    | stopped _ => rfl
    | failed _ _ => rfl
    | running next =>
      have hturns : turns + (a + 1) = turns + 1 + a := by omega
      rw [hturns]
      exact ih (turns + 1) next

/-- More turns do not change a run that has ended. -/
theorem runFor_eq_of_le {console : Console σ} {program : Program} {a b : Nat}
    {machine : Machine σ} (hab : a ≤ b) (h : (runFor console program a machine).Ended) :
    runFor console program b machine = runFor console program a machine := by
  obtain ⟨c, rfl⟩ := Nat.exists_eq_add_of_le hab
  have hadd := runFrom_add console program a c 0 machine
  rw [runFor, hadd]
  rw [runFor] at h ⊢
  cases hr : runFrom console program a 0 machine with
  | running next => rw [hr] at h; exact h.elim
  | succeeded _ _ => rfl
  | failed _ _ => rfl

theorem exists_step_of_failed {console : Console σ} {program : Program} {bound turns : Nat}
    {why : RunFault} {machine last : Machine σ}
    (h : runFrom console program bound turns machine = .failed why last) :
    ∃ n here, runFrom console program n turns machine = .running here ∧
      here.step console program = .failed why last := by
  induction bound generalizing machine turns with
  | zero => contradiction
  | succ bound ih =>
    rw [runFrom] at h
    cases hs : machine.step console program with
    | stopped _ =>
      rw [hs] at h
      contradiction
    | failed why' last' =>
      rw [hs] at h
      obtain ⟨rfl, rfl⟩ := Progress.failed.inj h
      exact ⟨0, machine, rfl, hs⟩
    | running next =>
      rw [hs] at h
      obtain ⟨n, here, hrun, hstep⟩ := ih h
      refine ⟨n + 1, here, ?_, hstep⟩
      rw [runFrom, hs]
      exact hrun

end Machine

namespace Execution

theorem ended_of_ofProgress?_eq_some {σ : Type} {program : Program} {progress : Machine.Progress σ}
    {execution : Execution σ} (h : ofProgress? program progress = some execution) :
    progress.Ended := by
  cases progress with
  | running _ => contradiction
  | succeeded _ _ => trivial
  | failed _ _ => trivial

/-- An execution that has an answer keeps it when it is given more turns. -/
theorem execute?_eq_of_le {σ : Type} {console : Console σ} {a b : Nat} {source : Source}
    {streams : σ} {execution : Execution σ} (hab : a ≤ b)
    (h : execute? console a source streams = some execution) :
    execute? console b source streams = some execution := by
  cases hp : program source with
  | error fault => simp only [execute?, hp] at h ⊢; exact h
  | ok program =>
    simp only [execute?, hp] at h ⊢
    rw [Machine.runFor_eq_of_le hab (ended_of_ofProgress?_eq_some h)]
    exact h

end Execution

end Brainfuck
