import Brainfuck.Proofs.Cancelling
import Brainfuck.Proofs.Fragment
import Brainfuck.Proofs.Interruption

/-!
The tape is the same everywhere to the right.

A program that begins with moves to the right does in the cells behind them what it would do from the
first cell on (`EndlessTape.shifted`). There is one way to tell: a move to the left that the tape
refuses is not refused when there are more cells on the left. Up to there each turn is the same
(`Plain.step_rightward`) and so is a run (`Plain.viewAfter_rightward`). A run that comes to no such
move therefore shows the same when it starts further to the right, but for the final pointer and
cells, which are shifted, and another one has been followed in all its calls when it fails.
`Execution.Homogeneous` says so of a source.
-/

namespace Brainfuck

/-! ## Shifted tapes -/

namespace EndlessTape

/-- The tape with so many zero cells put in on the left. -/
def shifted (tape : EndlessTape) (count : Nat) : EndlessTape where
  pointer := tape.pointer + count
  cells i := if i < count then 0 else tape.cells (i - count)

variable (tape : EndlessTape) (count : Nat)

theorem shifted_blank : blank.shifted count = blank.moveRight count := by
  ext i
  · rfl
  · simp only [shifted, blank, moveRight, ite_self]

theorem current_shifted : (tape.shifted count).current = tape.current := by
  have hpointer : ¬ tape.pointer + count < count := by omega
  simp only [current, shifted, if_neg hpointer, Nat.add_sub_cancel]

theorem moveRight_shifted (n : Nat) :
    (tape.shifted count).moveRight n = (tape.moveRight n).shifted count := by
  ext i
  · simp only [shifted, moveRight]
    omega
  · rfl

theorem edit_shifted (f : UInt8 → UInt8) :
    (tape.shifted count).edit f = (tape.edit f).shifted count := by
  ext i
  · rfl
  · simp only [edit, current_shifted]
    simp only [shifted, Function.update_apply]
    by_cases hi : i < count
    · -- the pointer is behind the zero cells
      rw [if_neg (by omega), if_pos hi, if_pos hi]
    · have hpointer : i = tape.pointer + count ↔ i - count = tape.pointer := by omega
      simp only [if_neg hi, hpointer]

theorem moveLeft?_shifted {tape' : EndlessTape} {n : Nat} (h : tape.moveLeft? n = some tape') :
    (tape.shifted count).moveLeft? n = some (tape'.shifted count) := by
  unfold moveLeft? at h ⊢
  by_cases hn : n ≤ tape.pointer
  · rw [if_pos hn] at h
    obtain rfl := Option.some.inj h
    have hshifted : n ≤ (tape.shifted count).pointer := Nat.le_add_right_of_le hn
    have hpointer : tape.pointer + count - n = tape.pointer - n + count := by omega
    rw [if_pos hshifted]
    simp only [shifted, hpointer]
  · rw [if_neg hn] at h
    contradiction

end EndlessTape

/-! ## Shifted views -/

/-- The end of a run that started so many cells further to the right. -/
def Outcome.shifted (count : Nat) : Outcome → Outcome
  | .success pointer cells =>
    .success (pointer + count) fun i => if i < count then 0 else cells (i - count)
  | outcome => outcome

/-- What is shown by a run that started so many cells further to the right. -/
def View.shifted {σ : Type} (count : Nat) : View σ → View σ
  | .running streams => .running streams
  | .ended outcome streams => .ended (outcome.shifted count) streams

/-- The streams that are shown. -/
def View.streams {σ : Type} : View σ → σ
  | .running streams | .ended _ streams => streams

theorem View.streams_shifted {σ : Type} (count : Nat) (view : View σ) :
    (view.shifted count).streams = view.streams := by
  cases view <;> rfl

theorem RunFault.shifted_outcome (why : RunFault) (count : Nat) :
    why.outcome.shifted count = why.outcome := by
  cases why with
  | tape fault => cases fault <;> rfl
  | _ => rfl

/-! ## Turns and runs further to the right -/

namespace Plain

variable {σ : Type}

/-- The same place, so many cells further to the right. -/
def rightward (count : Nat) (here : Plain σ) : Plain σ :=
  { here with tape := here.tape.shifted count }

/-- What a turn comes to further to the right. -/
def turnedRightward (count : Nat) :
    Except (Outcome × σ) (Plain σ) → Except (Outcome × σ) (Plain σ)
  | .ok next => .ok (next.rightward count)
  | .error (outcome, streams) => .error (outcome.shifted count, streams)

section

variable (console : Console σ) (tokens : List Token) (count : Nat)

theorem turnedRightward_jump (here : Plain σ) (partner : Option Nat) :
    (here.rightward count).jump partner = turnedRightward count (here.jump partner) := by
  cases partner <;> rfl

/-- A turn that is not refused at the left end is the same further to the right. -/
theorem step_rightward (here : Plain σ) :
    step console tokens here = .error (.negativePointer, here.streams) ∨
      step console tokens (here.rightward count) =
        turnedRightward count (step console tokens here) := by
  obtain ⟨i, tape, streams⟩ := here
  have hcurrent := tape.current_shifted count
  cases ht : tokens[i]? with
  | none =>
    right
    simp only [step, rightward, ht]
    rfl
  | some t =>
    cases t with
    | left =>
      cases hmove : tape.moveLeft? 1 with
      | none =>
        left
        simp only [step, ht, act?, hmove]
      | some tape' =>
        right
        simp only [step, rightward, ht, act?, hmove, tape.moveLeft?_shifted count hmove]
        rfl
    | right =>
      right
      simp only [step, rightward, ht, act?, EndlessTape.moveRight_shifted]
      rfl
    | increment | decrement =>
      right
      simp only [step, rightward, ht, act?, EndlessTape.edit_shifted]
      rfl
    | loopStart =>
      right
      simp only [step, rightward, ht, hcurrent]
      by_cases hzero : tape.current = 0
      · simp only [if_pos hzero]
        exact turnedRightward_jump count ⟨i, tape, streams⟩ _
      · simp only [if_neg hzero]
        rfl
    | loopEnd =>
      right
      simp only [step, rightward, ht, hcurrent]
      by_cases hzero : tape.current = 0
      · simp only [if_pos hzero]
        rfl
      · simp only [if_neg hzero]
        exact turnedRightward_jump count ⟨i, tape, streams⟩ _
    | input =>
      right
      simp only [step, rightward, ht, EndlessTape.edit_shifted]
      rcases console.read streams with ⟨cause | answer, after⟩
      · simp only [turnedRightward, RunFault.shifted_outcome]
      · rfl
    | output =>
      right
      simp only [step, rightward, ht, hcurrent]
      rcases console.write tape.current streams with ⟨cause | _, after⟩
      · simp only [turnedRightward, RunFault.shifted_outcome]
      · rfl

/-- A run shows the same further to the right, unless a move at the left end is refused; then it has
shown the streams that the failure leaves. -/
theorem viewAfter_rightward (turns : Nat) (here : Plain σ) :
    (process console tokens).viewAfter turns (here.rightward count) =
        ((process console tokens).viewAfter turns here).shifted count ∨
      ∃ streams, (process console tokens).viewAfter turns here = .ended .negativePointer streams ∧
        .running streams ∈ (process console tokens).views (here.rightward count) := by
  induction turns generalizing here with
  | zero => exact .inl rfl
  | succ turns ih =>
    rcases step_rightward console tokens count here with hrefused | hsame
    · right
      refine ⟨here.streams, ?_, Process.running_mem_views _ _⟩
      simp only [Process.viewAfter, process, hrefused]
    · cases hs : step console tokens here with
      | ok next =>
        rw [hs] at hsame
        have hviews : (process console tokens).views (here.rightward count) =
            insert _ ((process console tokens).views (next.rightward count)) :=
          Process.views_of_ok hsame
        rcases ih next with hview | ⟨streams, hended, hshown⟩
        · left
          simp only [Process.viewAfter, process, hs, hsame, turnedRightward] at hview ⊢
          exact hview
        · right
          refine ⟨streams, ?_, ?_⟩
          · simp only [Process.viewAfter, process, hs] at hended ⊢
            exact hended
          · rw [hviews]
            exact .inr hshown
      | error ending =>
        left
        rw [hs] at hsame
        simp only [Process.viewAfter, process, hs, hsame]
        rfl

theorem exists_streams_rightward {here : Plain σ} {view : View σ}
    (h : view ∈ (process console tokens).views here) :
    ∃ view' ∈ (process console tokens).views (here.rightward count),
      view'.streams = view.streams := by
  obtain ⟨turns, rfl⟩ := h
  rcases viewAfter_rightward console tokens count turns here with hview | ⟨streams, hended, hshown⟩
  · exact ⟨_, ⟨turns, hview⟩, View.streams_shifted count _⟩
  · refine ⟨_, hshown, ?_⟩
    simp only [hended]
    rfl

theorem views_rightward {here : Plain σ}
    (h : ∀ streams, .ended .negativePointer streams ∉ (process console tokens).views here) :
    (process console tokens).views (here.rightward count) =
      View.shifted count '' (process console tokens).views here := by
  have hview : ∀ turns, (process console tokens).viewAfter turns (here.rightward count) =
      ((process console tokens).viewAfter turns here).shifted count := by
    intro turns
    rcases viewAfter_rightward console tokens count turns here with hview | ⟨streams, hended, -⟩
    · exact hview
    · exact absurd ⟨turns, hended⟩ (h streams)
  rw [Process.views, Process.views, ← Set.range_comp]
  exact congrArg Set.range (funext hview)

end

theorem views_replicate_right (console : Console σ) {tokens : List Token} (h : Balanced tokens)
    (count : Nat) (streams : σ) :
    (process console (List.replicate count .right ++ tokens)).views (start streams) =
      (process console tokens).views ((start streams).rightward count) := by
  have hget : ∀ k, k < count → (List.replicate count .right ++ tokens)[0 + k]? = some .right := by
    intro k hk
    rw [Nat.zero_add, List.getElem?_append_left (by simpa using hk), List.getElem?_replicate,
      if_pos hk]
  have hsilent := silent_stretch console rfl hget (actMany?_right count .blank) streams
  have hbehind := views_behind console (List.replicate count .right) h (Nat.zero_le _)
    (EndlessTape.blank.moveRight count) streams
  have hmoves := Process.views_eq_of_silent hsilent
  rw [Nat.zero_add] at hmoves
  rw [List.length_replicate, Nat.add_zero] at hbehind
  rw [start, hmoves, hbehind, rightward, EndlessTape.shifted_blank]

end Plain

/-! ## Sources -/

namespace Execution

variable {σ : Type}

/-- The execution of the source never fails for a move to the left of the first cell. -/
def KeepsRight (console : Console σ) (source : Source) (streams : σ) : Prop :=
  ∀ bound ending, shown console source streams bound ≠ .ok (.ended .negativePointer ending)

/-- A source does the same when it starts so many cells further to the right. -/
structure Homogeneous (console : Console σ) (source : Source) (count : Nat) (streams : σ) : Prop where
  /-- The calls that the source makes are the first that are made further to the right. -/
  calls_first : ∀ bound, ∃ bound', ∀ later, bound' ≤ later →
    ∃ view view', shown console.recording source ⟨streams, []⟩ bound = .ok view ∧
      shown console.recording (List.replicate count '>' ++ source) ⟨streams, []⟩ later = .ok view' ∧
      view.streams.calls <+: view'.streams.calls
  /-- What it shows is the same but for the shift of the tape it leaves. -/
  shown_eq : KeepsRight console.recording source ⟨streams, []⟩ →
    Set.range (shown console.recording (List.replicate count '>' ++ source) ⟨streams, []⟩) =
      Except.map (View.shifted count) '' Set.range (shown console.recording source ⟨streams, []⟩)
  /-- It has the same answers. -/
  answers_iff : KeepsRight console.recording source ⟨streams, []⟩ → ∀ failure ending,
    Answers console.recording (List.replicate count '>' ++ source) ⟨streams, []⟩ failure ending ↔
      Answers console.recording source ⟨streams, []⟩ failure ending

variable {console : Console σ} {source : Source} {streams : σ}

theorem tells_map_shifted (count : Nat) {seen : Except Kind (View σ)}
    {failure : Option (Except Kind Outcome)} {ending : σ} :
    Tells streams (seen.map (View.shifted count)) failure ending ↔ Tells streams seen failure ending := by
  cases seen with
  | error kind => rfl
  | ok view =>
    cases view with
    | running here => rfl
    | ended outcome after => cases outcome <;> rfl

theorem calls_shown_of_le {prog : Program} (h : program source = .ok prog) (streams : Recorded σ)
    {short long : Nat} (hle : short ≤ long) {view : View (Recorded σ)}
    (hview : shown console.recording source streams short = .ok view) :
    ∃ view', shown console.recording source streams long = .ok view' ∧
      view.streams.calls <+: view'.streams.calls := by
  have hmachine : ∀ progress : Machine.Progress (Recorded σ),
      progress.view.streams = progress.machine.streams := by
    intro progress
    cases progress <;> rfl
  simp only [shown, h] at hview ⊢
  obtain rfl := Except.ok.inj hview
  obtain ⟨later, hlater⟩ :=
    Machine.calls_runFrom_of_le console (Machine.start streams) prog 0 hle
  refine ⟨_, rfl, later, ?_⟩
  rw [hmachine, hmachine]
  exact hlater.symm

theorem tokens_rightward (count : Nat) (source : Source) :
    Source.tokens (List.replicate count '>' ++ source) =
      List.replicate count .right ++ source.tokens := by
  rw [Source.tokens_append]
  congr 1
  exact Source.tokens_replicate .right count

theorem isProgram_rightward (h : source.IsProgram) (count : Nat) :
    Source.IsProgram (List.replicate count '>' ++ source) := by
  obtain ⟨hne, hbalanced⟩ := Source.isProgram_iff.mp h
  apply Source.isProgram_iff.mpr
  rw [tokens_rightward]
  constructor
  · exact List.append_ne_nil_of_right_ne_nil _ hne
  · exact (balanced_replicate (by decide) (by decide) count).append hbalanced

theorem range_shown_rightward (h : source.IsProgram) (console : Console σ) (count : Nat)
    (streams : σ) :
    Set.range (shown console (List.replicate count '>' ++ source) streams) =
      Except.ok '' (Plain.process console source.tokens).views
        ((Plain.start streams).rightward count) := by
  obtain ⟨prog, hprog⟩ := exists_program_of_isProgram (isProgram_rightward h count)
  rw [range_shown_of_program hprog, tokens_rightward,
    Plain.views_replicate_right console (Source.isProgram_iff.mp h).2]

theorem calls_first_rightward (console : Console σ) (h : source.IsProgram) (count : Nat)
    (streams : Recorded σ) (bound : Nat) :
    ∃ bound', ∀ later, bound' ≤ later → ∃ view view',
      shown console.recording source streams bound = .ok view ∧
        shown console.recording (List.replicate count '>' ++ source) streams later = .ok view' ∧
        view.streams.calls <+: view'.streams.calls := by
  obtain ⟨prog, hprog⟩ := exists_program_of_isProgram h
  obtain ⟨prog', hprog'⟩ := exists_program_of_isProgram (isProgram_rightward h count)
  have hrange := range_shown_of_program hprog console.recording streams
  have hrange' := range_shown_rightward h console.recording count streams
  obtain ⟨view, hview, hbound⟩ := hrange.subset ⟨bound, rfl⟩
  obtain ⟨same, hsame, hstreams⟩ :=
    Plain.exists_streams_rightward console.recording source.tokens count hview
  obtain ⟨bound', hbound'⟩ := hrange'.superset ⟨same, hsame, rfl⟩
  refine ⟨bound', ?_⟩
  intro later hlater
  obtain ⟨view', hview', hcalls⟩ := calls_shown_of_le hprog' streams hlater hbound'
  rw [hstreams] at hcalls
  exact ⟨view, view', hbound.symm, hview', hcalls⟩

theorem range_shown_of_keepsRight (h : source.IsProgram)
    (hkeeps : KeepsRight console source streams) (count : Nat) :
    Set.range (shown console (List.replicate count '>' ++ source) streams) =
      Except.map (View.shifted count) '' Set.range (shown console source streams) := by
  obtain ⟨prog, hprog⟩ := exists_program_of_isProgram h
  have hrange := range_shown_of_program hprog console streams
  have hnever : ∀ ending, .ended .negativePointer ending ∉
      (Plain.process console source.tokens).views (Plain.start streams) := by
    intro ending hended
    obtain ⟨bound, hbound⟩ := hrange.superset ⟨_, hended, rfl⟩
    exact hkeeps bound ending hbound
  rw [range_shown_rightward h, hrange, Plain.views_rightward console source.tokens count hnever,
    Set.image_image, Set.image_image]
  rfl

theorem answers_iff_of_keepsRight (h : source.IsProgram)
    (hkeeps : KeepsRight console source streams) (count : Nat) (failure : Option (Except Kind Outcome))
    (ending : σ) :
    Answers console (List.replicate count '>' ++ source) streams failure ending ↔
      Answers console source streams failure ending := by
  have hrange := range_shown_of_keepsRight h hkeeps count
  rw [answers_iff_tells, answers_iff_tells]
  constructor
  · rintro ⟨bound, htells⟩
    obtain ⟨-, ⟨bound', rfl⟩, hsame⟩ := hrange.subset ⟨bound, rfl⟩
    refine ⟨bound', ?_⟩
    rw [← tells_map_shifted count, hsame]
    exact htells
  · rintro ⟨bound, htells⟩
    obtain ⟨bound', hsame⟩ := hrange.superset ⟨_, ⟨bound, rfl⟩, rfl⟩
    refine ⟨bound', ?_⟩
    rw [hsame, tells_map_shifted]
    exact htells

/-- An execution that has an answer, and has not failed for a move to the left, never does. -/
theorem keepsRight_of_execute? {bound : Nat} {execution : Execution σ}
    (h : execute? console bound source streams = some execution)
    (hfailure : execution.failure.map (Failure.shown source) ≠ some (.ok .negativePointer)) :
    KeepsRight console source streams := by
  intro other ending hshown
  have hanswers : Answers console source streams (some (.ok .negativePointer)) ending := by
    rw [answers_iff_tells]
    refine ⟨other, ?_⟩
    rw [hshown]
    exact ⟨rfl, rfl⟩
  obtain ⟨other, execution', h', hshows, -⟩ := hanswers
  have hsame := (execute?_eq_of_le (Nat.le_max_left bound other) h).symm.trans
    (execute?_eq_of_le (Nat.le_max_right bound other) h')
  rw [Option.some.inj hsame] at hfailure
  exact hfailure hshows

/-- The tape is homogeneous to the right for every source that has a program. -/
theorem homogeneous_to_the_right (console : Console σ) (h : source.IsProgram) (count : Nat)
    (streams : σ) : Homogeneous console source count streams where
  calls_first := calls_first_rightward console h count _
  shown_eq hkeeps := range_shown_of_keepsRight h hkeeps count
  answers_iff hkeeps := answers_iff_of_keepsRight h hkeeps count

/-- A loop that moves to the right as far as it reads something, and then writes what it read last.
It does not come to the left of the first cell, so it writes the same from the sixth cell on. -/
theorem homogeneous_to_the_right_reading :
    ∃ streams ending : Recorded Script, streams = ⟨Script.ofInput [7, 8], []⟩ ∧
      Source.IsProgram ",[>,]<.".toList ∧
      Homogeneous Script.console ",[>,]<.".toList 5 (Script.ofInput [7, 8]) ∧
      KeepsRight Script.console.recording ",[>,]<.".toList streams ∧
      Set.range (shown Script.console.recording ">>>>>,[>,]<.".toList streams) =
        Except.map (View.shifted 5) ''
          Set.range (shown Script.console.recording ",[>,]<.".toList streams) ∧
      Answers Script.console.recording ">>>>>,[>,]<.".toList streams none ending ∧
      ending.streams.written = #[8] := by
  have hprogram : Source.IsProgram ",[>,]<.".toList := ⟨_, rfl⟩
  have hhomogeneous := homogeneous_to_the_right Script.console hprogram 5 (Script.ofInput [7, 8])
  obtain ⟨execution, hexecution, hfailure, hwritten⟩ : ∃ execution,
      execute? Script.console.recording 12 ",[>,]<.".toList ⟨Script.ofInput [7, 8], []⟩ =
        some execution ∧ execution.failure = none ∧
      execution.streams.streams.written = #[8] := ⟨_, rfl, rfl, rfl⟩
  have hkeeps : KeepsRight Script.console.recording ",[>,]<.".toList
      ⟨Script.ofInput [7, 8], []⟩ := by
    apply keepsRight_of_execute? hexecution
    rw [hfailure, Option.map_none]
    exact (Option.some_ne_none _).symm
  have hanswers : Answers Script.console.recording ",[>,]<.".toList ⟨Script.ofInput [7, 8], []⟩ none
      execution.streams := ⟨12, execution, hexecution, by rw [hfailure, Option.map_none], rfl⟩
  refine ⟨_, execution.streams, rfl, hprogram, hhomogeneous, hkeeps, ?_, ?_, hwritten⟩
  · exact hhomogeneous.shown_eq hkeeps
  · exact (hhomogeneous.answers_iff hkeeps _ _).mpr hanswers

end Execution

end Brainfuck
