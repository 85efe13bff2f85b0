import Brainfuck.Proofs.CommandRun
import Brainfuck.Proofs.Observation

/-!
What a command executes.

A program text can come to a command on three ways: the search takes it out of the words, the reader
of the options finds it among the words that are left, or it stands in a file that is named. A
command has a text to execute just if one of these ways leads to a source, no other does, and the
source has a text (`Names`).

What it does with the text is said apart from how texts are executed. `mainBy` is the command with
any way of executing put in, `mainBy_cases` lists what a command can do, and `conclusion_concluded`
how it ends after an execution.
-/

namespace Brainfuck

namespace CommandLine

variable {σ : Type}

/-! ## What a command can do -/

/-- The command, given how texts are executed. -/
def mainBy (console : Console σ) (execute : Source → σ → Option (Execution σ))
    (around : Environment) (words : List String) (streams : σ) : Option (Answer σ) :=
  match plan around.edition words with
  | .show text =>
    some ⟨showEnding (writeAll console text.toUTF8.toList streams).1, "",
      (writeAll console text.toUTF8.toList streams).2⟩
  | .reject fault => some ⟨.exited argumentError, fault.text, streams⟩
  | .refuse reason settings =>
    some ⟨.returned argumentError, diagnostics settings [say .error reason], streams⟩
  | .run origin settings =>
    match load around.read origin with
    | .error (.reported record) =>
      some ⟨.returned argumentError, diagnostics settings [record], streams⟩
    | .error (.escaped why) => some ⟨.escaped why, "", streams⟩
    | .ok text => (execute text streams).map (concluded console settings around.clock text)

theorem main?_eq_mainBy (console : Console σ) (around : Environment) (bound : Nat)
    (words : List String) (streams : σ) : main? console around bound words streams =
      mainBy console (Execution.execute? console bound) around words streams := by
  cases hplan : plan around.edition words with
  | run origin settings =>
    cases hload : load around.read origin with
    | ok text =>
      rw [main?_of_load hplan hload]
      simp only [mainBy, hplan, hload]
    | error fault =>
      simp only [main?, mainBy, hplan, hload]
      cases fault <;> rfl
  | _ => simp only [main?, mainBy, hplan]

/-- Why a command that shows nothing and executes nothing ends, and how. -/
inductive Halt (around : Environment) (words : List String) : Ending → Prop
  | rejected {fault : Options.UsageFault} (planned : plan around.edition words = .reject fault) :
    Halt around words (.exited argumentError)
  | refused {reason : String} {settings : Options.Settings}
      (planned : plan around.edition words = .refuse reason settings) :
    Halt around words (.returned argumentError)
  | unreadable {path encoding : String} {settings : Options.Settings} {fault : ReadFault}
      (planned : plan around.edition words = .run (.file (.text path) (.text encoding)) settings)
      (unread : around.read path encoding = .error fault) (inFile : fault.isFileFault = true) :
    Halt around words (.returned argumentError)
  | unanswered {path encoding : String} {settings : Options.Settings} {fault : ReadFault}
      (planned : plan around.edition words = .run (.file (.text path) (.text encoding)) settings)
      (unread : around.read path encoding = .error fault)
      (notInFile : fault.isFileFault = false) : Halt around words (.escaped (.reading fault))
  | droppedPath {encoding : Options.Value} {settings : Options.Settings}
      (planned : plan around.edition words = .run (.file .dropped encoding) settings) :
    Halt around words (.escaped .droppedPath)
  | droppedEncoding {path : String} {settings : Options.Settings}
      (planned : plan around.edition words = .run (.file (.text path) .dropped) settings) :
    Halt around words (.escaped .droppedEncoding)

/-- What a command can do. -/
inductive MainCase (console : Console σ) (execute : Source → σ → Option (Execution σ))
    (around : Environment) (words : List String) (streams : σ) : Option (Answer σ) → Prop
  | shown {text : String} (planned : plan around.edition words = .show text) :
    MainCase console execute around words streams
      (some ⟨showEnding (writeAll console text.toUTF8.toList streams).1, "",
        (writeAll console text.toUTF8.toList streams).2⟩)
  | halted {ending : Ending} {diagnostics : String} (why : Halt around words ending) :
    MainCase console execute around words streams (some ⟨ending, diagnostics, streams⟩)
  | executed {origin : Origin} {settings : Options.Settings} {text : Source}
      (planned : plan around.edition words = .run origin settings)
      (loaded : load around.read origin = .ok text) :
    MainCase console execute around words streams
      ((execute text streams).map (concluded console settings around.clock text))

theorem mainBy_cases (console : Console σ) (execute : Source → σ → Option (Execution σ))
    (around : Environment) (words : List String) (streams : σ) :
    MainCase console execute around words streams
      (mainBy console execute around words streams) := by
  cases hplan : plan around.edition words with
  | «show» text =>
    simp only [mainBy, hplan]
    exact .shown hplan
  | reject fault =>
    simp only [mainBy, hplan]
    exact .halted (.rejected hplan)
  | refuse reason settings =>
    simp only [mainBy, hplan]
    exact .halted (.refused hplan)
  | run origin settings =>
    cases hload : load around.read origin with
    | ok text =>
      simp only [mainBy, hplan, hload]
      exact .executed hplan hload
    | error fault =>
      -- only a file can be without a text
      cases origin with
      | text code => exact absurd hload (by simp [load])
      | file path encoding =>
        simp only [mainBy, hplan]
        cases path with
        | dropped => exact .halted (.droppedPath hplan)
        | text path =>
          cases encoding with
          | dropped => exact .halted (.droppedEncoding hplan)
          | text encoding =>
            cases hread : around.read path encoding with
            | ok text => exact absurd hload (by simp [load, hread])
            | error why =>
              cases hfile : why.isFileFault with
              | true =>
                simp only [load, hread, hfile, if_true]
                exact .halted (.unreadable hplan hread hfile)
              | false =>
                simp only [load, hread, hfile, Bool.false_eq_true, if_false]
                exact .halted (.unanswered hplan hread hfile)

theorem Halt.main?_eq {around : Environment} {words : List String} {ending : Ending}
    (h : Halt around words ending) (console : Console σ) (bound : Nat) (streams : σ) : ∃ diagnostics,
      main? console around bound words streams = some ⟨ending, diagnostics, streams⟩ := by
  cases h with
  | rejected hplan =>
    simp only [main?, hplan]
    exact ⟨_, rfl⟩
  | refused hplan =>
    simp only [main?, hplan]
    exact ⟨_, rfl⟩
  | unreadable hplan hread hfile =>
    simp only [main?, hplan, load, hread, hfile, if_true]
    exact ⟨_, rfl⟩
  | unanswered hplan hread hfile =>
    simp only [main?, hplan, load, hread, hfile, Bool.false_eq_true, if_false]
    exact ⟨_, rfl⟩
  | droppedPath hplan =>
    simp only [main?, hplan, load]
    exact ⟨_, rfl⟩
  | droppedEncoding hplan =>
    simp only [main?, hplan, load]
    exact ⟨_, rfl⟩

/-! ## How a command ends after an execution -/

/-- What is concluded from an execution: an ending and the streams. -/
inductive Conclusion (console : Console σ) (source : Source) (execution : Execution σ) :
    Ending → σ → Prop
  | flushed {after : σ} (succeeded : execution.failure = none)
      (call : console.flush execution.streams = (.ok (), after)) :
    Conclusion console source execution (.returned success) after
  | unflushed {cause : Fault} {notice : Notice} {message : String} {after : σ}
      (succeeded : execution.failure = none)
      (call : console.flush execution.streams = (.error cause, after))
      (answered : answerFlush? cause = some (notice, message)) :
    Conclusion console source execution (.returned notice.exitCode) after
  | flushEscaped {cause : Fault} {after : σ} (succeeded : execution.failure = none)
      (call : console.flush execution.streams = (.error cause, after))
      (unanswered : answerFlush? cause = none) :
    Conclusion console source execution (.escaped (.run (.foreign cause))) after
  | malformed {fault : SyntaxFault} (failed : execution.failure = some (.source fault)) :
    Conclusion console source execution (.returned (fault.report source).kind.exitCode)
      execution.streams
  | answered {fault : RunFault} {notice : Notice} {message : String}
      (failed : execution.failure = some (.run fault))
      (answered : answerRun? fault = some (notice, message)) :
    Conclusion console source execution (.returned notice.exitCode) execution.streams
  | unanswered {fault : RunFault} (failed : execution.failure = some (.run fault))
      (unanswered : answerRun? fault = none) :
    Conclusion console source execution (.escaped (.run fault)) execution.streams

theorem conclusion_concluded (console : Console σ) (settings : Options.Settings)
    (clock : Float × Float) (source : Source) (execution : Execution σ) :
    Conclusion console source execution (concluded console settings clock source execution).ending
      (concluded console settings clock source execution).streams := by
  cases hf : execution.failure with
  | some failure =>
    simp only [concluded, conclude, hf]
    cases failure with
    | source fault => exact .malformed hf
    | run fault =>
      rw [Verdict.ofFailure]
      cases hanswer : answerRun? fault with
      | some answer => exact .answered hf hanswer
      | none => exact .unanswered hf hanswer
  | none =>
    rcases hflush : console.flush execution.streams with ⟨cause | _, after⟩
    · simp only [concluded, conclude, hf, hflush, Verdict.ofFlush]
      cases hanswer : answerFlush? cause with
      | some answer => exact .unflushed hf hflush hanswer
      | none => exact .flushEscaped hf hflush hanswer
    · simp only [concluded, conclude, hf, hflush]
      exact .flushed hf hflush

/-! ## The three ways to a text -/

/-- The sources that are there: the text that was taken out of the words, the one that was found
among the words left, and the file that is named. -/
def sources (code : Option String) (settings : Options.Settings) : List Origin :=
  code.toList.map .text ++ settings.code.toList.map .text ++
    settings.file.toList.map fun path => .file path settings.encoding

/-- A source has a text: it is one, or it is a file that can be read. -/
inductive Origin.Holds (read : String → String → Except ReadFault Source) : Origin → Source → Prop
  | text (code : String) : Holds read (.text code) code.toList
  | file {path encoding : String} {text : Source} (found : read path encoding = .ok text) :
    Holds read (.file (.text path) (.text encoding)) text

/-- The options of a command are settings, there is just one source, and it has the text. -/
def Names (around : Environment) (words : List String) (text : Source) : Prop :=
  ∃ code rest settings origin, Options.splitCode words = (code, rest) ∧
    Options.settings around.edition rest = .ok settings ∧ sources code settings = [origin] ∧
    origin.Holds around.read text

theorem Origin.holds_iff {read : String → String → Except ReadFault Source} {origin : Origin}
    {text : Source} : origin.Holds read text ↔ load read origin = .ok text := by
  constructor
  · intro h
    cases h with
    | text code => rfl
    | file hread => simp only [load, hread]
  · intro h
    cases origin with
    | text code =>
      obtain rfl := Except.ok.inj h
      exact .text code
    | file path encoding =>
      cases path with
      | dropped => contradiction
      | text path =>
        cases encoding with
        | dropped => contradiction
        | text encoding =>
          rw [load] at h
          cases hread : read path encoding with
          | ok source =>
            simp only [hread, Except.ok.injEq] at h
            exact .file (by rw [hread, h])
          | error fault =>
            simp only [hread] at h
            split at h <;> contradiction

/-- A command is to run a source just if its options are settings and there is no other source. -/
theorem exists_plan_run_iff {edition : Options.Edition} {words rest : List String}
    {code : Option String} {origin : Origin} (hsplit : Options.splitCode words = (code, rest)) :
    (∃ settings, plan edition words = .run origin settings) ↔
      ∃ settings, Options.settings edition rest = .ok settings ∧
        sources code settings = [origin] := by
  simp only [plan, hsplit]
  cases hsettings : Options.settings edition rest with
  | error stop => cases stop <;> simp
  | ok settings =>
    simp only [Except.ok.injEq, exists_eq_left', sources]
    cases code with
    | some taken =>
      cases hcode : settings.code with
      | some found => simp
      | none => cases settings.file <;> simp [planOf]
    | none =>
      cases hcode : settings.code <;> cases hfile : settings.file <;> simp [planOf, hcode, hfile]

theorem names_iff {around : Environment} {words : List String} {text : Source} :
    Names around words text ↔ ∃ origin settings,
      plan around.edition words = .run origin settings ∧ load around.read origin = .ok text := by
  rcases hsplit : Options.splitCode words with ⟨code, rest⟩
  constructor
  · rintro ⟨code', rest', settings, origin, hsplit', hsettings, hsources, hholds⟩
    rw [hsplit'] at hsplit
    obtain ⟨rfl, rfl⟩ := Prod.mk.inj hsplit
    obtain ⟨settings', hplan⟩ := (exists_plan_run_iff hsplit').mpr ⟨settings, hsettings, hsources⟩
    exact ⟨origin, settings', hplan, Origin.holds_iff.mp hholds⟩
  · rintro ⟨origin, settings', hplan, hload⟩
    obtain ⟨settings, hsettings, hsources⟩ := (exists_plan_run_iff hsplit).mp ⟨settings', hplan⟩
    exact ⟨code, rest, settings, origin, hsplit, hsettings, hsources, Origin.holds_iff.mpr hload⟩

end CommandLine

end Brainfuck
