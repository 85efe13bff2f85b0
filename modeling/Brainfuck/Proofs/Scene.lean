import Brainfuck.Proofs.Refinement

/-!
Runs seen in full.

A `View` leaves out how long the tape has become, and by how much a move to the left was too far. A
`Scene` has both: why the run failed, if it has, the tape with all its cells, and the streams. The
machine is a process in this sense too (`Machine.inFull`), so what is known of processes holds of it.

Two sources run alike when both have programs and the runs of these come to the same scenes, so that
only the number of turns and the indexes can differ (`Execution.RunAlike`).
-/

namespace Brainfuck

/-- What a run has come to. -/
structure Scene (σ : Type) where
  /-- Why the run failed, if it has. -/
  fault : Option RunFault
  tape : Tape
  streams : σ

/-- What a run of the machine has come to, and whether it has ended. -/
def Machine.Progress.scene {σ : Type} : Progress σ → View (Scene σ)
  | .running machine => .running ⟨none, machine.state.tape, machine.streams⟩
  | .succeeded _ machine =>
    .ended (.success machine.state.tape.pointer machine.state.tape.cellAt)
      ⟨none, machine.state.tape, machine.streams⟩
  | .failed why machine => .ended why.outcome ⟨some why, machine.state.tape, machine.streams⟩

/-- What a turn leads to, or the end it comes to. -/
def Step.onward {σ : Type} : Step σ → Except (Outcome × Scene σ) (Machine σ)
  | .stopped last =>
    .error (.success last.state.tape.pointer last.state.tape.cellAt,
      ⟨none, last.state.tape, last.streams⟩)
  | .failed why last => .error (why.outcome, ⟨some why, last.state.tape, last.streams⟩)
  | .running next => .ok next

namespace Machine

variable {σ : Type}

/-- The machine as a process that shows its tape. -/
def inFull (console : Console σ) (program : Program) : Process (Scene σ) (Machine σ) where
  streams machine := ⟨none, machine.state.tape, machine.streams⟩
  step machine := (machine.step console program).onward

theorem scene_runFrom (console : Console σ) (program : Program) (bound turns : Nat)
    (machine : Machine σ) :
    (runFrom console program bound turns machine).scene =
      (inFull console program).viewAfter bound machine := by
  induction bound generalizing turns machine with
  | zero => rfl
  | succ bound ih =>
    cases hs : machine.step console program with
    | stopped last => simp only [runFrom, Process.viewAfter, inFull, hs, Step.onward, Progress.scene]
    | failed why last =>
      simp only [runFrom, Process.viewAfter, inFull, hs, Step.onward, Progress.scene]
    | running next =>
      have hnext := ih (turns + 1) next
      simp only [runFrom, Process.viewAfter, inFull, hs, Step.onward] at hnext ⊢
      exact hnext

/-- All that the runs of a program from its start come to. -/
def scenes (console : Console σ) (program : Program) (streams : σ) : Set (View (Scene σ)) :=
  Set.range fun bound => (runFor console program bound (start streams)).scene

theorem scenes_eq_views (console : Console σ) (program : Program) (streams : σ) :
    scenes console program streams = (inFull console program).views (start streams) := by
  simp only [scenes, runFor, scene_runFrom, Process.views]

end Machine

namespace Execution

variable {σ : Type}

/-- There is an execution of the source that has an answer, with this failure or with none, and
leaves these streams. -/
def Ends (console : Console σ) (source : Source) (streams : σ) (failure : Option Failure)
    (ending : σ) : Prop :=
  ∃ bound execution, execute? console bound source streams = some execution ∧
    execution.failure = failure ∧ execution.streams = ending

/-- Two sources have programs whose runs differ in nothing but their turns. -/
structure RunAlike (console : Console σ) (first second : Source) (streams : σ) : Prop where
  first_program : ∃ prog, program first = .ok prog
  second_program : ∃ prog, program second = .ok prog
  scenes_eq : ∀ p q, program first = .ok p → program second = .ok q →
    Machine.scenes console p streams = Machine.scenes console q streams
  ends_iff : ∀ failure ending,
    Ends console first streams failure ending ↔ Ends console second streams failure ending

theorem ends_iff_scene {console : Console σ} {source : Source} {streams ending : σ} {prog : Program}
    {failure : Option Failure} (h : program source = .ok prog) :
    Ends console source streams failure ending ↔
      ∃ outcome fault tape, fault.map .run = failure ∧
        .ended outcome ⟨fault, tape, ending⟩ ∈ Machine.scenes console prog streams := by
  simp only [Ends, execute?, h, Machine.scenes]
  constructor
  · rintro ⟨bound, execution, hexecution, rfl, rfl⟩
    cases hrun : Machine.runFor console prog bound (Machine.start streams) with
    | running machine =>
      rw [hrun] at hexecution
      contradiction
    | succeeded turns last =>
      rw [hrun] at hexecution
      obtain rfl := Option.some.inj hexecution
      exact ⟨_, none, last.state.tape, rfl, bound, congrArg Machine.Progress.scene hrun⟩
    | failed why last =>
      rw [hrun] at hexecution
      obtain rfl := Option.some.inj hexecution
      exact ⟨_, some why, last.state.tape, rfl, bound, congrArg Machine.Progress.scene hrun⟩
  · rintro ⟨outcome, fault, tape, rfl, bound, hscene⟩
    refine ⟨bound, ?_⟩
    simp only at hscene
    cases hrun : Machine.runFor console prog bound (Machine.start streams) with
    | running machine =>
      rw [hrun] at hscene
      contradiction
    | succeeded turns last =>
      rw [hrun] at hscene
      obtain ⟨-, hlast⟩ := View.ended.inj hscene
      obtain ⟨rfl, rfl, rfl⟩ := Scene.mk.inj hlast
      exact ⟨_, rfl, rfl, rfl⟩
    | failed why last =>
      rw [hrun] at hscene
      obtain ⟨-, hlast⟩ := View.ended.inj hscene
      obtain ⟨rfl, rfl, rfl⟩ := Scene.mk.inj hlast
      exact ⟨_, rfl, rfl, rfl⟩

/-- Sources with programs that come to the same scenes run alike. -/
theorem runAlike_of_scenes {console : Console σ} {first second : Source} {streams : σ}
    {p q : Program} (hp : program first = .ok p) (hq : program second = .ok q)
    (h : Machine.scenes console p streams = Machine.scenes console q streams) :
    RunAlike console first second streams where
  first_program := ⟨p, hp⟩
  second_program := ⟨q, hq⟩
  scenes_eq := by
    intro p' q' hp' hq'
    obtain rfl := Except.ok.inj (hp.symm.trans hp')
    obtain rfl := Except.ok.inj (hq.symm.trans hq')
    exact h
  ends_iff := by
    intro failure ending
    rw [ends_iff_scene hp, ends_iff_scene hq, h]

end Execution

end Brainfuck
