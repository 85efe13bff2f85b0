import Brainfuck.Proofs.Completion
import Brainfuck.Proofs.Refinement

/-!
What the execution of a source shows.

A text that is no program shows the kind of failure it is refused with, and another text shows what
the run of its program shows (`Execution.shown`). Two sources look alike on streams when their
executions show the same, whether they end or not, and have the same answers: an execution that has
an answer tells how it ended, up to what does not show (`Failure.shown`), and leaves its streams.

The answers follow from what is shown (`lookAlike_of_shown`).
-/

namespace Brainfuck

/-- What shows of a failure: the kind for a text that is no program, or how the run ended. -/
def Failure.shown (source : Source) : Failure → Except Kind Outcome
  | .source fault => .error (fault.report source).kind
  | .run why => .ok why.outcome

namespace Execution

variable {σ : Type}

/-- What the execution of a source shows after so many turns. -/
def shown (console : Console σ) (source : Source) (streams : σ) (bound : Nat) :
    Except Kind (View σ) :=
  match program source with
  | .error fault => .error (fault.report source).kind
  | .ok prog => .ok (Machine.runFor console prog bound (Machine.start streams)).view

/-- There is an execution of the source that has an answer, with a failure that shows like this or
with none, and leaves these streams. -/
def Answers (console : Console σ) (source : Source) (streams : σ)
    (failure : Option (Except Kind Outcome)) (ending : σ) : Prop :=
  ∃ bound execution, execute? console bound source streams = some execution ∧
    execution.failure.map (Failure.shown source) = failure ∧ execution.streams = ending

/-- Two sources cannot be told apart by what their executions show. -/
structure LookAlike (console : Console σ) (first second : Source) (streams : σ) : Prop where
  shown_eq : Set.range (shown console first streams) = Set.range (shown console second streams)
  answers_iff : ∀ failure ending,
    Answers console first streams failure ending ↔ Answers console second streams failure ending

/-- What an execution shows tells that it has an answer, given the streams it began with. -/
def Tells (streams : σ) : Except Kind (View σ) → Option (Except Kind Outcome) → σ → Prop
  | .error kind, failure, ending => some (.error kind) = failure ∧ streams = ending
  | .ok (.running _), _, _ => False
  | .ok (.ended (.success _ _) after), failure, ending => none = failure ∧ after = ending
  | .ok (.ended outcome after), failure, ending => some (.ok outcome) = failure ∧ after = ending

variable {console : Console σ} {source : Source} {streams ending : σ}
  {failure : Option (Except Kind Outcome)}

theorem tells_of_failed (why : RunFault) (after : σ) :
    Tells streams (.ok (.ended why.outcome after)) failure ending ↔
      some (.ok why.outcome) = failure ∧ after = ending := by
  have hnot := why.not_succeeded after
  cases hout : why.outcome with
  | success pointer cells =>
    rw [hout] at hnot
    exact (hnot trivial).elim
  | _ => rfl

theorem answers_iff_tells :
    Answers console source streams failure ending ↔
      ∃ bound, Tells streams (shown console source streams bound) failure ending := by
  refine exists_congr fun bound => ?_
  cases hprog : program source with
  | error fault =>
    simp only [execute?, shown, hprog, Tells, Option.some.injEq, exists_eq_left', Option.map_some,
      Failure.shown]
  | ok prog =>
    simp only [execute?, shown, hprog]
    cases Machine.runFor console prog bound (Machine.start streams) with
    | running here => simp [ofProgress?, Machine.Progress.view, Tells]
    | succeeded turns last =>
      simp only [ofProgress?, Machine.Progress.view, Tells, Option.some.injEq, exists_eq_left',
        Option.map_none]
    | failed why last =>
      simp only [ofProgress?, Machine.Progress.view, tells_of_failed, Option.some.injEq,
        exists_eq_left', Option.map_some, Failure.shown]

theorem lookAlike_of_shown {first second : Source}
    (h : Set.range (shown console first streams) = Set.range (shown console second streams)) :
    LookAlike console first second streams := by
  have hexists : ∀ tells : Except Kind (View σ) → Prop,
      (∃ bound, tells (shown console first streams bound)) ↔
        ∃ bound, tells (shown console second streams bound) := by
    intro tells
    rw [← Set.exists_range_iff, ← Set.exists_range_iff, h]
  refine ⟨h, ?_⟩
  intro failure ending
  rw [answers_iff_tells, answers_iff_tells]
  exact hexists fun view => Tells streams view failure ending

/-! ## What is shown by the tokens -/

/-- What becomes of a source that has operators, by what its brackets are like. -/
inductive ProgramCase (source : Source) : Except SyntaxFault Program → Prop
  | accepted {prog : Program} (balanced : Balanced source.tokens) : ProgramCase source (.ok prog)
  | unclosed {position : Int} (viable : Viable source.tokens)
      (unbalanced : ¬ Balanced source.tokens) :
    ProgramCase source (.error (.unmatched .opening position))
  | unopened {position : Int} (lost : ¬ Viable source.tokens) :
    ProgramCase source (.error (.unmatched .closing position))

theorem program_eq_ofSource (h : source.tokens ≠ []) : program source = Program.ofSource source := by
  have hne : ¬ source.isEmpty = true := by
    intro hempty
    rw [List.isEmpty_iff.mp hempty] at h
    exact h rfl
  rw [program, if_neg hne]

theorem exists_program_of_isProgram (h : source.IsProgram) :
    ∃ prog, program source = .ok prog := by
  obtain ⟨prog, hprog⟩ := h
  refine ⟨prog, ?_⟩
  rw [program_eq_ofSource (Source.isProgram_iff.mp ⟨prog, hprog⟩).1, hprog]

theorem programCase (h : source.tokens ≠ []) : ProgramCase source (program source) := by
  rw [program_eq_ofSource h]
  rcases Source.program_or_unmatched h with ⟨prog, hprog⟩ | ⟨bracket, position, herror⟩
  · rw [hprog]
    exact .accepted (Source.isProgram_iff.mp ⟨prog, hprog⟩).2
  · have hnot := Source.not_isProgram_of_error herror
    rw [herror]
    cases bracket with
    | opening =>
      refine .unclosed ?_ fun hbalanced => hnot (Source.isProgram_iff.mpr ⟨h, hbalanced⟩)
      exact Source.completable_iff.mp (Source.closed_at_opening herror).2.1
    | closing =>
      refine .unopened fun hviable => (Source.lost_at_closing herror).2.2 ?_
      exact (Source.completable_iff.mpr hviable).take _

theorem range_shown_of_program {prog : Program} (h : program source = .ok prog)
    (console : Console σ) (streams : σ) :
    Set.range (shown console source streams) =
      Except.ok '' (Plain.process console source.tokens).views (Plain.start streams) := by
  have hviews : Set.range (fun bound =>
      (Machine.runFor console prog bound (Machine.start streams)).view) =
      (Plain.process console source.tokens).views (Plain.start streams) :=
    alike_plain console h streams
  rw [← hviews, ← Set.range_comp]
  congr 1
  funext bound
  simp only [shown, h, Function.comp_apply]

theorem range_shown_of_error {fault : SyntaxFault} (h : program source = .error fault)
    (console : Console σ) (streams : σ) :
    Set.range (shown console source streams) = {.error (fault.report source).kind} := by
  have hconst : shown console source streams = fun _ => .error (fault.report source).kind := by
    funext bound
    simp only [shown, h]
  rw [hconst, Set.range_const]

open Classical in
theorem range_shown (h : source.tokens ≠ []) (console : Console σ) (streams : σ) :
    Set.range (shown console source streams) =
      if Viable source.tokens then
        if Balanced source.tokens then
          Except.ok '' (Plain.process console source.tokens).views (Plain.start streams)
        else {.error .unmatchedStart}
      else {.error .unmatchedEnd} := by
  have hcase := programCase h
  cases hprog : program source with
  | ok prog =>
    rw [hprog] at hcase
    cases hcase with
    | accepted balanced =>
      rw [if_pos balanced.viable, if_pos balanced, range_shown_of_program hprog]
  | error fault =>
    rw [hprog] at hcase
    rw [range_shown_of_error hprog]
    cases hcase with
    | unclosed viable unbalanced =>
      rw [if_pos viable, if_neg unbalanced]
      rfl
    | unopened lost =>
      rw [if_neg lost]
      rfl

/-- Two sources look alike if their brackets are alike and, where they have programs, the plain
machine shows the same for their tokens. -/
theorem lookAlike_of_tokens {first second : Source} (first_operators : first.tokens ≠ [])
    (second_operators : second.tokens ≠ [])
    (viable_iff : Viable first.tokens ↔ Viable second.tokens)
    (balanced_iff : Balanced first.tokens ↔ Balanced second.tokens)
    (views_eq : Balanced second.tokens →
      (Plain.process console first.tokens).views (Plain.start streams) =
        (Plain.process console second.tokens).views (Plain.start streams)) :
    LookAlike console first second streams := by
  apply lookAlike_of_shown
  rw [range_shown first_operators, range_shown second_operators]
  by_cases hviable : Viable second.tokens
  · rw [if_pos (viable_iff.mpr hviable), if_pos hviable]
    by_cases hbalanced : Balanced second.tokens
    · rw [if_pos (balanced_iff.mpr hbalanced), if_pos hbalanced, views_eq hbalanced]
    · rw [if_neg (mt balanced_iff.mp hbalanced), if_neg hbalanced]
  · rw [if_neg (mt viable_iff.mp hviable), if_neg hviable]

end Execution

end Brainfuck
