import Brainfuck.Proofs.CommandEnd

/-!
One source or nothing.

A command executes a text just if its options are in order, there is one source, and the source has
the text (`one_source_or_nothing`). What it is to execute a text is said by putting other ways of
executing in the place of `execute?`. A command that executes a text asks for it, once, and answers
with what is concluded from the execution. A command that executes nothing has its answer whatever
is put in. Two texts are told apart by an execution that ends for one of them only.

A command that ends in the exit code of bad arguments has made no call and has executed nothing. The
one exception is a stream that refuses with a failure that has this very exit code.
-/

namespace Brainfuck

namespace CommandLine

/-- The command executes the text: whatever executes texts is asked for this one, and once, and the
answer is what is concluded from the execution. -/
def Executes (around : Environment) (words : List String) (text : Source) : Prop :=
  ∃ settings, ∀ {σ : Type} (console : Console σ) (execute : Source → σ → Option (Execution σ))
    (streams : σ), mainBy console execute around words streams =
      (execute text streams).map (concluded console settings around.clock text)

/-- The command executes nothing: it has an answer, the same whatever executes texts. -/
def Idle (around : Environment) (words : List String) : Prop :=
  ∀ {σ : Type} (console : Console σ) (streams : σ), ∃ answer,
    ∀ execute, mainBy console execute around words streams = some answer

section

variable {around : Environment} {words : List String} {text other : Source}

theorem Names.executes (h : Names around words text) : Executes around words text := by
  obtain ⟨origin, settings, hplan, hload⟩ := names_iff.mp h
  refine ⟨settings, fun console execute streams => ?_⟩
  simp only [mainBy, hplan, hload]

theorem idle_of_not_names (h : ∀ text, ¬ Names around words text) : Idle around words := by
  intro σ console streams
  cases hplan : plan around.edition words with
  | run origin settings =>
    cases hload : load around.read origin with
    | ok text => exact absurd (names_iff.mpr ⟨origin, settings, hplan, hload⟩) (h text)
    | error fault =>
      simp only [mainBy, hplan, hload]
      cases fault <;> exact ⟨_, fun _ => rfl⟩
  | _ =>
    simp only [mainBy, hplan]
    exact ⟨_, fun _ => rfl⟩

theorem Idle.not_executes (h : Idle around words) : ¬ Executes around words text := by
  intro ⟨settings, hexecutes⟩
  obtain ⟨answer, hanswer⟩ := h Script.console default
  have hnone := hexecutes Script.console (fun _ _ => none) default
  rw [hanswer] at hnone
  contradiction

theorem Executes.unique (h : Executes around words text) (ho : Executes around words other) :
    text = other := by
  obtain ⟨settings, htext⟩ := h
  obtain ⟨settings', hother⟩ := ho
  -- an execution that ends for the one text and for no other
  let execute : Source → Script → Option (Execution Script) :=
    fun source streams => if source = text then some ⟨none, [], streams⟩ else none
  have hsame := (htext Script.console execute default).symm.trans
    (hother Script.console execute default)
  by_contra hne
  simp [execute, Ne.symm hne] at hsame

theorem executes_iff_names : Executes around words text ↔ Names around words text := by
  refine ⟨fun h => ?_, Names.executes⟩
  by_cases hnames : ∃ text, Names around words text
  · obtain ⟨other, hother⟩ := hnames
    rwa [h.unique hother.executes]
  · have hidle : Idle around words := idle_of_not_names (not_exists.mp hnames)
    exact absurd h hidle.not_executes

/-! ## The exit code of bad arguments -/

theorem Halt.not_names {ending : Ending} (h : Halt around words ending) :
    ¬ Names around words text := by
  intro hnames
  obtain ⟨origin, settings, hplan, hload⟩ := names_iff.mp hnames
  cases h with
  | rejected planned => exact Plan.noConfusion (planned.symm.trans hplan)
  | refused planned => exact Plan.noConfusion (planned.symm.trans hplan)
  | unreadable planned unread inFile =>
    obtain ⟨rfl, -⟩ := Plan.run.inj (planned.symm.trans hplan)
    simp [load, unread, inFile] at hload
  | unanswered planned unread notInFile =>
    obtain ⟨rfl, -⟩ := Plan.run.inj (planned.symm.trans hplan)
    simp [load, unread, notInFile] at hload
  | droppedPath planned =>
    obtain ⟨rfl, -⟩ := Plan.run.inj (planned.symm.trans hplan)
    contradiction
  | droppedEncoding planned =>
    obtain ⟨rfl, -⟩ := Plan.run.inj (planned.symm.trans hplan)
    contradiction

theorem showEnding_ne_argumentError (answer : Except Fault Unit) :
    showEnding answer ≠ .returned argumentError ∧ showEnding answer ≠ .exited argumentError := by
  cases answer with
  | ok _ => simp [showEnding, success, argumentError]
  | error cause =>
    rw [showEnding]
    cases cause.isOverlooked <;> simp [success, argumentError]

/-- The exit code of bad arguments comes before any call, or from a stream that refuses with it. -/
theorem Close.of_argumentError {ending : Ending} {calls : List Call}
    (h : Close around words ending calls)
    (hending : ending = .returned argumentError ∨ ending = .exited argumentError)
    (hown : ∀ notice, OwnRefusal calls notice → notice.exitCode ≠ argumentError) :
    calls = [] ∧ ∀ text, ¬ Names around words text := by
  cases h with
  | halted halt => exact ⟨rfl, fun _ => halt.not_names⟩
  | shown _ _ => simp [argumentError] at hending
  | @unshown _ _ _ cause _ _ =>
    have hne := showEnding_ne_argumentError (.error cause)
    exact absurd hending (not_or.mpr hne)
  | executed _ code _ => rcases code with rfl | rfl <;> simp [argumentError] at hending
  | @refused text before call cause named _ refusal =>
    have hmade : call ∈ before ++ [call] := List.mem_concat_self
    exfalso
    rcases refusalEnding_cases named.plan_ne_show hmade refusal with
      ⟨code, hcode, hknown⟩ | ⟨hescaped, -⟩
    · rw [hcode] at hending
      obtain rfl : code = argumentError := by simpa using hending
      rcases hknown with hstream | ⟨notice, hrefusal, hexit⟩
      · exact absurd hstream (by decide)
      · exact hown notice hrefusal hexit
    · rw [hescaped] at hending
      simp at hending

end

/-- A command has one text to execute, and then it does what it does by executing it, or it executes
nothing. -/
structure OneSource (around : Environment) (words : List String) : Prop where
  /-- The executions of a command are made by `execute?`. -/
  main_eq : ∀ {σ : Type} (console : Console σ) (bound : Nat) (streams : σ),
    main? console around bound words streams =
      mainBy console (Execution.execute? console bound) around words streams
  executes_iff : ∀ text, Executes around words text ↔ Names around words text
  unique : ∀ text other, Names around words text → Names around words other → text = other
  idle : (∀ text, ¬ Names around words text) → Idle around words
  /-- Bad arguments and files that cannot be read are found out before any call. -/
  refused : ∀ {σ : Type} (console : Console σ) (bound : Nat) (streams : σ)
    (answer : Answer (Recorded σ)),
    main? console.recording around bound words ⟨streams, []⟩ = some answer →
    answer.ending = .returned argumentError ∨ answer.ending = .exited argumentError →
    (∀ notice, OwnRefusal answer.streams.calls notice → notice.exitCode ≠ argumentError) →
    answer.streams.calls = [] ∧ ∀ text, ¬ Executes around words text

/-- A command executes a text just if one source of a text is there and no other, and then it
executes the text of the source. -/
theorem one_source_or_nothing (around : Environment) (words : List String) :
    OneSource around words where
  main_eq console bound streams := main?_eq_mainBy console around bound words streams
  executes_iff _ := executes_iff_names
  unique _ _ h ho := h.executes.unique ho.executes
  idle := idle_of_not_names
  refused console bound streams answer h hending hown := by
    have hclose := close_of_main? h
    obtain ⟨hcalls, hnames⟩ := hclose.of_argumentError hending hown
    exact ⟨hcalls, fun text hexecutes => hnames text (executes_iff_names.mp hexecutes)⟩

/-- A text that the search takes for an option, and the reader of the options for a text. -/
theorem one_source_or_nothing_found :
    Options.splitCode ["-a b", "-q"] = (none, ["-a b", "-q"]) ∧
      Executes (.ofFiles .later [] (0, 0)) ["-a b", "-q"] "-a b".toList := by
  have hsplit : Options.splitCode ["-a b", "-q"] = (none, ["-a b", "-q"]) := by decide
  have hsettings : Options.settings .later ["-a b", "-q"] =
      .ok { code := some "-a b", quiet := true } := by rfl
  refine ⟨hsplit, ((one_source_or_nothing _ ["-a b", "-q"]).executes_iff _).mpr ?_⟩
  exact ⟨none, _, _, .text "-a b", hsplit, hsettings, rfl, .text "-a b"⟩

end CommandLine

end Brainfuck
