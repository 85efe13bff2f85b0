import Brainfuck.Proofs.Fragment
import Brainfuck.Proofs.Refinement
import Brainfuck.Script

/-!
Programs put together.

A `Code` is a token sequence with balanced brackets, perhaps empty, and so it has a jump table. Two
codes can be put one behind the other, and a code can be made the body of a loop. Both change the
indexes of the brackets, and equal operators may meet where two codes do; nothing of this shows.
The run of two codes is the run of the first, followed by the run of the second if the first
succeeds (`alike_append`), and a loop is nothing if the cell is zero (`run_loop_of_zero`) and
otherwise its body followed by the loop again (`alike_loop`). The runs start on any tape with its
pointer on a cell.
-/

namespace Brainfuck

/-- Tokens with balanced brackets. -/
structure Code where
  tokens : List Token
  balanced : Balanced tokens

namespace Code

/-- One code behind another. -/
def append (first second : Code) : Code :=
  ⟨first.tokens ++ second.tokens, first.balanced.append second.balanced⟩

/-- The loop with a code as its body. -/
def loop (body : Code) : Code :=
  ⟨.loopStart :: (body.tokens ++ [.loopEnd]), body.balanced.loop⟩

/-- The code with its jump table. -/
def program (code : Code) : Program :=
  match JumpTable.ofTokens code.tokens with
  | .ok jumps => ⟨code.tokens.toArray, jumps⟩
  -- the brackets are balanced, so there is a table
  | .error _ => ⟨code.tokens.toArray, .empty⟩

theorem toList_program (code : Code) : code.program.tokens.toList = code.tokens := by
  rw [program]
  split <;> rfl

theorem paired_program (code : Code) : code.program.Paired := by
  obtain ⟨jumps, hjumps⟩ := code.balanced.exists_table
  rw [Program.Paired, program, hjumps]
  exact hjumps

theorem length_program (code : Code) : code.program.length = code.tokens.length := by
  rw [Program.length, ← Array.length_toList, toList_program]

variable {σ : Type}

/-- A run of at most `bound` turns on a tape. -/
def run (console : Console σ) (code : Code) (tape : Tape) (streams : σ) (bound : Nat) :
    Machine.Progress σ :=
  Machine.runFor console code.program bound ⟨State.start tape, streams⟩

end Code

namespace Machine

variable {σ : Type}

/-- A run that is followed, if it succeeds, by a run on the tape and the streams it leaves. The turn
that finds the end of the first program is counted too. -/
def followedBy (first : Nat → Progress σ) (next : Tape → σ → Nat → Progress σ) (bound : Nat) :
    Progress σ :=
  match first bound with
  | .succeeded turns last => next last.state.tape last.streams (bound - (turns + 1))
  | progress => progress

theorem runFrom_of_succeeded {console : Console σ} {program : Program} {bound turns count : Nat}
    {machine last : Machine σ}
    (h : runFrom console program bound turns machine = .succeeded count last) :
    ∃ n, count = turns + n ∧
      ∀ extra, runFrom console program (n + 1 + extra) turns machine = .succeeded count last := by
  induction bound generalizing turns machine with
  | zero => contradiction
  | succ bound ih =>
    cases hs : machine.step console program with
    | stopped last' =>
      simp only [runFrom, hs] at h
      obtain ⟨rfl, rfl⟩ := Progress.succeeded.inj h
      refine ⟨0, rfl, fun extra => ?_⟩
      rw [Nat.zero_add, Nat.add_comm]
      simp only [runFrom, hs]
    | failed why last' =>
      simp only [runFrom, hs] at h
      contradiction
    | running next =>
      simp only [runFrom, hs] at h
      obtain ⟨n, hcount, hrun⟩ := ih h
      refine ⟨n + 1, by omega, fun extra => ?_⟩
      rw [Nat.add_right_comm (n + 1) 1 extra]
      simp only [runFrom, hs]
      exact hrun extra

end Machine

namespace Code

variable {σ : Type} (console : Console σ) (code : Code) {tape : Tape}

/-- A run of a code shows what the plain machine shows. -/
theorem range_run (h : tape.Inside) (streams : σ) :
    Set.range (fun bound => (code.run console tape streams bound).view) =
      (Plain.process console code.tokens).views ⟨0, tape.endless, streams⟩ := by
  have hviews := Machine.views_process console code.paired_program (Machine.sound_on h streams)
  rw [toList_program] at hviews
  simp only [run, Machine.runFor, Machine.view_runFrom]
  exact hviews

theorem inside_of_succeeded (h : tape.Inside) {streams : σ} {bound turns : Nat} {last : Machine σ}
    (hr : code.run console tape streams bound = .succeeded turns last) :
    last.state.tape.Inside := by
  have hsound := (Machine.sound_on h streams).runFrom code.paired_program console bound 0
  rw [run, Machine.runFor] at hr
  rw [hr] at hsound
  exact hsound.inside

theorem view_succeeded {turns : Nat} {last : Machine σ} (h : last.state.tape.Inside) :
    (Machine.Progress.succeeded turns last).view =
      .ended (.success last.state.tape.endless.pointer last.state.tape.endless.cells)
        last.streams := by
  rw [Machine.Progress.view, h.pointer_eq]
  rfl

theorem view_followedBy_mem (first second : Code) (h : tape.Inside) (streams : σ) (bound : Nat) :
    (Machine.followedBy (first.run console tape streams) (second.run console) bound).view ∈
      sequel (Set.range fun bound => (first.run console tape streams bound).view)
        fun tape streams => (Plain.process console second.tokens).views ⟨0, tape, streams⟩ := by
  cases hr : first.run console tape streams bound with
  | running machine =>
    simp only [Machine.followedBy, hr]
    exact .inl ⟨⟨bound, congrArg _ hr⟩, id⟩
  | failed why last =>
    simp only [Machine.followedBy, hr]
    exact .inl ⟨⟨bound, congrArg _ hr⟩, why.not_succeeded _⟩
  | succeeded turns last =>
    have hin := first.inside_of_succeeded console h hr
    have hview := congrArg Machine.Progress.view hr
    rw [view_succeeded hin] at hview
    simp only [Machine.followedBy, hr]
    refine .inr ⟨last.state.tape.endless, last.streams, ⟨bound, hview⟩, ?_⟩
    exact (second.range_run console hin last.streams).subset ⟨_, rfl⟩

theorem exists_view_followedBy (first second : Code) (h : tape.Inside) (streams : σ) {v : View σ}
    (hv : v ∈ sequel (Set.range fun bound => (first.run console tape streams bound).view)
      fun tape streams => (Plain.process console second.tokens).views ⟨0, tape, streams⟩) :
    ∃ bound, (Machine.followedBy (first.run console tape streams) (second.run console)
      bound).view = v := by
  rcases hv with ⟨⟨bound, rfl⟩, hnot⟩ | ⟨endless, after, ⟨bound, hend⟩, hv⟩
  · refine ⟨bound, ?_⟩
    cases hr : first.run console tape streams bound with
    | running machine => simp only [Machine.followedBy, hr]
    | failed why last => simp only [Machine.followedBy, hr]
    | succeeded turns last =>
      simp only [hr] at hnot
      exact (hnot trivial).elim
  · dsimp only at hend
    cases hr : first.run console tape streams bound with
    | running machine =>
      rw [hr] at hend
      contradiction
    | failed why last =>
      have hnot := why.not_succeeded last.streams
      rw [hr, Machine.Progress.view] at hend
      rw [hend] at hnot
      exact (hnot trivial).elim
    | succeeded turns last =>
      have hin := first.inside_of_succeeded console h hr
      rw [hr, view_succeeded hin] at hend
      obtain ⟨rfl, rfl⟩ := ended_success_inj hend
      obtain ⟨extra, rfl⟩ := (second.range_run console hin last.streams).superset hv
      -- the first run is given its own turns, one to find its end, and those of the second
      obtain ⟨n, hturns, hlong⟩ := Machine.runFrom_of_succeeded hr
      refine ⟨n + 1 + extra, ?_⟩
      have hrest : n + 1 + extra - (turns + 1) = extra := by omega
      rw [Machine.followedBy, run, Machine.runFor, hlong extra]
      dsimp only
      rw [hrest]

/-- What shows of the run of a code that is followed by the run of another. -/
theorem range_followedBy (first second : Code) (h : tape.Inside) (streams : σ) :
    Set.range (fun bound => (Machine.followedBy (first.run console tape streams)
        (second.run console) bound).view) =
      sequel ((Plain.process console first.tokens).views ⟨0, tape.endless, streams⟩)
        fun tape streams => (Plain.process console second.tokens).views ⟨0, tape, streams⟩ := by
  rw [← first.range_run console h]
  apply Set.Subset.antisymm
  · apply Set.range_subset_iff.mpr
    intro bound
    exact view_followedBy_mem console first second h streams bound
  · intro v hv
    exact exists_view_followedBy console first second h streams hv

/-! ## The laws -/

theorem alike_append (first second : Code) (h : tape.Inside) (streams : σ) :
    Alike (fun bound => ((first.append second).run console tape streams bound).view)
      (fun bound => (Machine.followedBy (first.run console tape streams)
        (second.run console) bound).view) := by
  calc Set.range (fun bound => ((first.append second).run console tape streams bound).view)
      = (Plain.process console (first.append second).tokens).views ⟨0, tape.endless, streams⟩ :=
        range_run console _ h streams
    _ = sequel ((Plain.process console first.tokens).views ⟨0, tape.endless, streams⟩)
          (fun tape streams => (Plain.process console second.tokens).views ⟨0, tape, streams⟩) :=
        Plain.views_append console first.balanced second.balanced tape.endless streams
    _ = _ := (range_followedBy console first second h streams).symm

theorem alike_loop (body : Code) (h : tape.Inside) (hcell : tape.current? ≠ some 0)
    (streams : σ) :
    Alike (fun bound => (body.loop.run console tape streams bound).view)
      (fun bound => (Machine.followedBy (body.run console tape streams)
        (body.loop.run console) bound).view) := by
  have hcurrent : tape.endless.current ≠ 0 := by
    intro hzero
    rw [h.current?_eq_endless, hzero] at hcell
    exact hcell rfl
  calc Set.range (fun bound => (body.loop.run console tape streams bound).view)
      = (Plain.process console body.loop.tokens).views ⟨0, tape.endless, streams⟩ :=
        range_run console _ h streams
    _ = sequel ((Plain.process console body.tokens).views ⟨0, tape.endless, streams⟩)
          (fun tape streams => (Plain.process console body.loop.tokens).views ⟨0, tape, streams⟩) :=
        Plain.views_loop console body.balanced hcurrent streams
    _ = _ := (range_followedBy console body body.loop h streams).symm

theorem run_loop_of_zero (body : Code) (hcell : tape.current? = some 0) (streams : σ)
    {bound : Nat} (hbound : 2 ≤ bound) :
    body.loop.run console tape streams bound =
      .succeeded 1 ⟨⟨body.tokens.length + 2, tape⟩, streams⟩ := by
  obtain ⟨extra, rfl⟩ := Nat.exists_eq_add_of_le hbound
  have hmatches : Matches body.loop.program.tokens.toList 0 (body.tokens.length + 1) := by
    rw [toList_program]
    exact body.balanced.matches_loop
  have hlength : body.loop.program.length = body.tokens.length + 2 := by
    rw [length_program, loop, List.length_cons, List.length_append]
    rfl
  have hjump : Machine.step console body.loop.program ⟨State.start tape, streams⟩ =
      .running (Machine.standing (body.tokens.length + 2) tape streams) := by
    have hstep := Machine.step_loopStart console body.loop.paired_program hmatches hcell streams
    rwa [if_pos rfl] at hstep
  have hstop := Machine.step_end console body.loop.program tape streams
  rw [hlength] at hstop
  rw [run, Machine.runFor, Nat.add_comm]
  simp only [Machine.runFrom, hjump, hstop]
  rfl

/-- The run of two codes is the run of the first followed by that of the second; a loop leaves all
as it is if the cell is zero, and is otherwise its body followed by the loop. -/
theorem code_is_structured (first second : Code) (h : tape.Inside) (streams : Recorded σ) :
    Alike (fun bound => ((first.append second).run console.recording tape streams bound).view)
        (fun bound => (Machine.followedBy (first.run console.recording tape streams)
          (second.run console.recording) bound).view) ∧
      (tape.current? = some 0 → ∀ bound, 2 ≤ bound →
        first.loop.run console.recording tape streams bound =
          .succeeded 1 ⟨⟨first.tokens.length + 2, tape⟩, streams⟩) ∧
      (tape.current? ≠ some 0 →
        Alike (fun bound => (first.loop.run console.recording tape streams bound).view)
          (fun bound => (Machine.followedBy (first.run console.recording tape streams)
            (first.loop.run console.recording) bound).view)) := by
  refine ⟨?_, fun hzero bound hbound => ?_, fun hcell => ?_⟩
  · exact alike_append console.recording first second h streams
  · exact run_loop_of_zero console.recording first hzero streams hbound
  · exact alike_loop console.recording first h hcell streams

/-- A loop that writes and counts down is entered at a cell with two in it and passed at the cell
in front of it. Its body is followed by a code that goes to that cell and reads into it. -/
theorem code_is_structured_countdown :
    ∃ body next : Code, body.tokens = [.output, .decrement] ∧ next.tokens = [.left, .input] ∧
      Alike
        (fun bound => ((body.append next).run Script.console.recording ⟨#[0, 2], 1⟩
          ⟨Script.ofInput [7], []⟩ bound).view)
        (fun bound => (Machine.followedBy
          (body.run Script.console.recording ⟨#[0, 2], 1⟩ ⟨Script.ofInput [7], []⟩)
          (next.run Script.console.recording) bound).view) ∧
      Alike
        (fun bound => (body.loop.run Script.console.recording ⟨#[0, 2], 1⟩
          ⟨Script.ofInput [7], []⟩ bound).view)
        (fun bound => (Machine.followedBy
          (body.run Script.console.recording ⟨#[0, 2], 1⟩ ⟨Script.ofInput [7], []⟩)
          (body.loop.run Script.console.recording) bound).view) ∧
      body.loop.run Script.console.recording ⟨#[0, 2], 0⟩ ⟨Script.ofInput [7], []⟩ 2 =
        .succeeded 1 ⟨⟨4, ⟨#[0, 2], 0⟩⟩, ⟨Script.ofInput [7], []⟩⟩ := by
  have hin₁ : Tape.Inside ⟨#[0, 2], 1⟩ := ⟨by decide, by decide⟩
  have hin₀ : Tape.Inside ⟨#[0, 2], 0⟩ := ⟨by decide, by decide⟩
  let body : Code := ⟨[.output, .decrement], by decide⟩
  let next : Code := ⟨[.left, .input], by decide⟩
  have hentered := code_is_structured Script.console body next hin₁ ⟨Script.ofInput [7], []⟩
  have hpassed := code_is_structured Script.console body next hin₀ ⟨Script.ofInput [7], []⟩
  refine ⟨body, next, rfl, rfl, hentered.1, hentered.2.2 (by decide), ?_⟩
  exact hpassed.2.1 rfl 2 (Nat.le_refl 2)

end Code

end Brainfuck
