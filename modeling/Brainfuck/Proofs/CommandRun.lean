import Brainfuck.CommandLine
import Brainfuck.Evaluation
import Brainfuck.Proofs.OptionWords
import Brainfuck.Proofs.Working

/-!
A command that runs a source does what an evaluation of the source does.

On working streams the two make the same run, since both do what is done to transcripts. `Matching`
says what this comes to for each way in which the evaluation can end, and that the command goes on
for as long as the evaluation does. It is proved for every command that has a source to run
(`matching_of_load`), and a command has one when a program text stands among complete options,
wherever it stands (`text_among_options`).
-/

namespace Brainfuck.CommandLine

variable {σ : Type}

/-- A command on working streams, with an input in front of it and nothing written, does what the
evaluation of a source on the input does. -/
structure Matching (working : Working σ) (around : Environment) (words : List String)
    (source : Source) (input : List UInt8) (streams : σ) : Prop where
  /-- Where the evaluation has an output, the command succeeds and has written it. -/
  returned : ∀ bound output, Evaluation.ofSource? bound source (.bytes input) = some (.ok output) →
    ∃ answer, main? working.console around bound words streams = some answer ∧
      answer.ending = .returned success ∧ (working.transcript answer.streams).written = output
  /-- Where the evaluation fails there is a report. The command returns the exit code of its kind,
  and has written what had been written when the evaluation failed. -/
  failed : ∀ bound fault, Evaluation.ofSource? bound source (.bytes input) = some (.error fault) →
    ∃ execution failure report answer,
      Execution.execute? Script.console bound source (Script.ofInput input) = some execution ∧
      execution.failure = some failure ∧ fault = .execution source failure ∧
      failure.report? source = some report ∧
      main? working.console around bound words streams = some answer ∧
      answer.ending = .returned report.kind.exitCode ∧
      (working.transcript answer.streams).written = execution.streams.written.toList
  /-- Neither ends before the other. -/
  unended : ∀ bound, Evaluation.ofSource? bound source (.bytes input) = none →
    main? working.console around bound words streams = none

/-- The answer of a command whose execution has ended. -/
def concluded (console : Console σ) (settings : Options.Settings) (clock : Float × Float)
    (source : Source) (execution : Execution σ) : Answer σ :=
  let elapsed := if settings.timed then some (milliseconds clock.1 clock.2) else none
  let (verdict, streams) := conclude console source execution elapsed
  ⟨verdict.ending, diagnostics settings verdict.log, streams⟩

/-! ## Conclusions on working streams -/

theorem answerRun?_of_report {fault : RunFault} {report : Report} (h : fault.report? = some report) :
    answerRun? fault = some (report.kind.notice, report.message) := by
  cases fault with
  | «foreign» cause => contradiction
  | _ => simp only [answerRun?, h, Option.map_some]

theorem concluded_of_report {console : Console σ} {source : Source} {execution : Execution σ}
    {failure : Failure} {report : Report} (hf : execution.failure = some failure)
    (hr : failure.report? source = some report) (settings : Options.Settings)
    (clock : Float × Float) :
    (concluded console settings clock source execution).ending = .returned report.kind.exitCode ∧
      (concluded console settings clock source execution).streams = execution.streams := by
  simp only [concluded, conclude, hf, and_true]
  cases failure with
  | source fault =>
    obtain rfl := Option.some.inj hr
    rfl
  | run fault =>
    simp only [Verdict.ofFailure, answerRun?_of_report hr]
    rfl

theorem concluded_of_success (working : Working σ) {source : Source} {execution : Execution σ}
    (hs : working.Serves execution.streams) (hf : execution.failure = none)
    (settings : Options.Settings) (clock : Float × Float) :
    (concluded working.console settings clock source execution).ending = .returned success ∧
      working.transcript (concluded working.console settings clock source execution).streams =
        working.transcript execution.streams := by
  have hflush := working.flush_eq hs
  have hanswer : (working.console.flush execution.streams).1 = .ok () := congrArg Prod.fst hflush
  simp only [concluded, conclude, hf]
  constructor
  · show ((Verdict.ofFlush execution.log (working.console.flush execution.streams).1).timed _).ending
      = .returned success
    rw [hanswer]
    rfl
  · exact congrArg Prod.snd hflush

/-! ## Commands that have a source to run -/

theorem main?_of_load {console : Console σ} {around : Environment} {words : List String}
    {origin : Origin} {settings : Options.Settings} {source : Source}
    (hplan : plan around.edition words = .run origin settings)
    (hload : load around.read origin = .ok source) (bound : Nat) (streams : σ) :
    main? console around bound words streams =
      (Execution.execute? console bound source streams).map
        (concluded console settings around.clock source) := by
  simp only [main?, hplan, hload, run?, Option.map_map]
  rfl

theorem exists_execution_of_output {bound : Nat} {source : Source} {input output : List UInt8}
    (h : Evaluation.ofSource? bound source (.bytes input) = some (.ok output)) :
    ∃ execution, Execution.execute? Script.console bound source (Script.ofInput input) =
        some execution ∧ execution.failure = none ∧ execution.streams.written.toList = output := by
  obtain ⟨execution, hexecution, hresult⟩ := Option.map_eq_some_iff.mp h
  refine ⟨execution, hexecution, ?_⟩
  cases hf : execution.failure with
  | none =>
    rw [hf] at hresult
    exact ⟨rfl, Except.ok.inj hresult⟩
  | some failure =>
    rw [hf] at hresult
    contradiction

theorem exists_execution_of_fault {bound : Nat} {source : Source} {input : List UInt8}
    {fault : Evaluation.Fault}
    (h : Evaluation.ofSource? bound source (.bytes input) = some (.error fault)) :
    ∃ execution failure, Execution.execute? Script.console bound source (Script.ofInput input) =
        some execution ∧ execution.failure = some failure ∧ fault = .execution source failure := by
  obtain ⟨execution, hexecution, hresult⟩ := Option.map_eq_some_iff.mp h
  cases hf : execution.failure with
  | none =>
    rw [hf] at hresult
    contradiction
  | some failure =>
    rw [hf] at hresult
    exact ⟨execution, failure, hexecution, hf, (Except.error.inj hresult).symm⟩

theorem matching_of_load (working : Working σ) {around : Environment} {words : List String}
    {origin : Origin} {settings : Options.Settings} {source : Source}
    (hplan : plan around.edition words = .run origin settings)
    (hload : load around.read origin = .ok source) {input : List UInt8} {streams : σ}
    (hs : working.Serves streams) (ht : working.transcript streams = ⟨input, []⟩) :
    Matching working around words source input streams where
  returned bound output houtput := by
    obtain ⟨execution, hexecution, hf, hwritten⟩ := exists_execution_of_output houtput
    obtain ⟨beside, hbeside, hserves, hfailure, htranscript⟩ :=
      Script.working.exists_execution_beside working (Script.serves_ofInput input) hs ht hexecution
    rw [hf] at hfailure
    obtain ⟨hending, hafter⟩ := concluded_of_success working hserves hfailure settings around.clock
    refine ⟨_, ?_, hending, ?_⟩
    · rw [main?_of_load hplan hload, hbeside]
      rfl
    · rw [hafter, htranscript]
      exact hwritten
  failed bound fault hfault := by
    obtain ⟨execution, failure, hexecution, hf, rfl⟩ := exists_execution_of_fault hfault
    obtain ⟨report, hreport⟩ :=
      Script.working.exists_report (Script.serves_ofInput input) hexecution hf
    obtain ⟨beside, hbeside, -, hfailure, htranscript⟩ :=
      Script.working.exists_execution_beside working (Script.serves_ofInput input) hs ht hexecution
    rw [hf] at hfailure
    obtain ⟨hending, hafter⟩ := concluded_of_report hfailure hreport settings around.clock
    refine ⟨execution, failure, report, _, hexecution, hf, rfl, hreport, ?_, hending, ?_⟩
    · rw [main?_of_load hplan hload, hbeside]
      rfl
    · rw [hafter, htranscript]
      rfl
  unended bound hnone := by
    have hexecution := Option.map_eq_none_iff.mp hnone
    rw [main?_of_load hplan hload, Script.working.execute?_eq_none_beside working
      (Script.serves_ofInput input) hs ht hexecution]
    rfl

/-! ## A program text among options -/

/-- The plan is to run the text, with the settings of the options around it. -/
theorem exists_plan_of_complete (edition : Options.Edition) {front rest : List String}
    {code : String} (hfront : Options.Complete front) (hcode : Options.isOption code = false)
    (hrest : Options.Complete rest) : ∃ settings,
      Options.settings edition (front ++ rest) = .ok settings ∧
      plan edition (front ++ code :: rest) = .run (.text code) { settings with code := some code } := by
  obtain ⟨settings, hsettings, hnone, hfile⟩ := (hfront.append hrest).exists_settings edition
  refine ⟨settings, hsettings, ?_⟩
  simp only [plan, hfront.splitCode_eq hcode, hsettings, hnone, planOf, hfile]

/-- A program text among complete options is run as it is evaluated, and where it stands among them
does not matter. -/
theorem text_among_options (working : Working σ) (around : Environment) {front rest : List String}
    {code : String} {input : List UInt8} {streams : σ} (hfront : Options.Complete front)
    (hcode : Options.isOption code = false) (hrest : Options.Complete rest)
    (hs : working.Serves streams) (ht : working.transcript streams = ⟨input, []⟩) :
    Matching working around (front ++ code :: rest) code.toList input streams ∧
      ∀ front' rest', Options.Complete front' → Options.Complete rest' →
        front' ++ rest' = front ++ rest → ∀ bound,
          main? working.console around bound (front' ++ code :: rest') streams =
            main? working.console around bound (front ++ code :: rest) streams := by
  obtain ⟨settings, hsettings, hplan⟩ := exists_plan_of_complete around.edition hfront hcode hrest
  constructor
  · exact matching_of_load working hplan rfl hs ht
  · intro front' rest' hfront' hrest' hwords bound
    obtain ⟨settings', hsettings', hplan'⟩ :=
      exists_plan_of_complete around.edition hfront' hcode hrest'
    rw [hwords, hsettings] at hsettings'
    obtain rfl := Except.ok.inj hsettings'
    rw [main?, main?, hplan, hplan']

/-- A text that begins with dashes, between a cluster with an encoding and an option cut short. -/
theorem text_among_options_dashes :
    Options.Complete ["-vq", "--encoding", "latin-1"] ∧ Options.Complete ["--ti"] ∧
      Options.isOption "--." = false ∧
      ∃ answer, main? Script.console (.ofFiles .later [] (0, 0)) 10
          (["-vq", "--encoding", "latin-1"] ++ "--." :: ["--ti"]) (Script.ofInput []) = some answer ∧
        answer.ending = .returned 0 ∧ answer.streams.written.toList = [254] := by
  have hletters : ∀ letter ∈ ['v', 'q'], letter = 'v' ∨ letter = 'q' := by simp
  have hfront : Options.Complete ["-vq", "--encoding", "latin-1"] :=
    .letters (List.cons_ne_nil _ _) hletters (.separate (by decide) .nil)
  have hspells : Options.Spells "--ti".toList .time := by
    refine ⟨by decide, ?_⟩
    intro other hother
    cases other <;> revert hother <;> decide
  have hrest : Options.Complete ["--ti"] := .long .time hspells .nil
  have hcode : Options.isOption "--." = false := by decide
  obtain ⟨hmatching, -⟩ := text_among_options Script.working (.ofFiles .later [] (0, 0)) hfront hcode
    hrest (Script.serves_ofInput []) rfl
  exact ⟨hfront, hrest, hcode, hmatching.returned 10 [254] (by rfl)⟩

end Brainfuck.CommandLine
