import Brainfuck.Proofs.CommandRun
import Brainfuck.Proofs.OptionValues

/-!
A command that names a file does what an evaluation of the file does.

A file and an encoding can be named among switches in any order, and the file in four spellings
(`Naming`). The search for the program text passes over all of these words, and the reader of the
options finds the file and the encoding and no text (`Naming.splitCode_eq`,
`Naming.exists_settings`). So the command is to run the file, and it reads it as the evaluation
does. What follows is `FileMatching`: a source that is read is run as it is evaluated, a file that
cannot be read is answered for before any call on the streams, and a fault of reading that does not
lie in the file escapes the command as it escapes the evaluation.
-/

namespace Brainfuck

namespace Options

/-- The text can be attached to the letter of an option, and can stand alone. -/
structure Nameable (text : String) : Prop where
  nonempty : text ≠ ""
  noDash : text.toList.head? ≠ some '-'
  noSign : text.toList.head? ≠ some '='

/-- The ways to name a file: by the letter or by the word, the path attached or behind it. -/
def fileSpellings (path : String) : List (List String) :=
  [["-f", path], ["-f" ++ path], ["--file", path], ["--file=" ++ path]]

/-- Words that name a file and an encoding, at most once each, among switches. The flags say which
of the two are there. -/
inductive Naming (path encoding : String) : Bool → Bool → List String → Prop
  | nil : Naming path encoding false false []
  | switch {file coded : Bool} {word : String} {rest : List String}
      (known : word = "-v" ∨ word = "-q" ∨ word = "--time")
      (more : Naming path encoding file coded rest) : Naming path encoding file coded (word :: rest)
  | encoding {file : Bool} {rest : List String} (more : Naming path encoding file false rest) :
      Naming path encoding file true ("--encoding" :: encoding :: rest)
  | file {coded : Bool} {spelling rest : List String} (known : spelling ∈ fileSpellings path)
      (more : Naming path encoding false coded rest) :
      Naming path encoding true coded (spelling ++ rest)

/-! ## The marks of the words -/

theorem exists_mark_switch {word : String} (h : word = "-v" ∨ word = "-q" ∨ word = "--time") :
    ∃ name byLetter, mark word = .ok (.option name byLetter none) ∧ name.IsSwitch := by
  rcases h with rfl | rfl | rfl
  · exact ⟨.verbose, true, rfl, .verbose⟩
  · exact ⟨.quiet, true, rfl, .quiet⟩
  · exact ⟨.time, false, rfl, .time⟩

theorem mark_file_letter {path : String} (h : Nameable path) :
    mark ("-f" ++ path) = .ok (.option .file true (some path)) := by
  have hword : ("-f" ++ path).toList = '-' :: 'f' :: path.toList := String.toList_append
  have hne : path.toList ≠ [] := fun hnil => h.nonempty (String.toList_eq_nil_iff.mp hnil)
  have hshort : markShort ("-f" ++ path) 'f' path.toList =
      .option .file true (some (String.ofList path.toList)) := markShort_attached rfl hne
  rw [String.ofList_toList] at hshort
  rw [← hshort, mark, hword]
  rfl

theorem mark_file_word (path : String) :
    mark ("--file=" ++ path) = .ok (.option .file false (some path)) := by
  have hword : ("--file=" ++ path).toList = ("--" ++ Name.file.word).toList ++ '=' :: path.toList :=
    String.toList_append
  obtain ⟨htake, hdrop⟩ := Name.file.spells_word.takeWhile_eq path.toList
  rw [← hword] at htake hdrop
  have hlong := Name.file.spells_word.markLong_eq htake
  rw [hdrop] at hlong
  simp only [attachedBy, String.ofList_toList] at hlong
  rw [← hlong, mark, hword]
  rfl

/-! ## The search for the text -/

theorem splitCode_of_spelling {path : String} (hpath : Nameable path) {spelling : List String}
    (h : spelling ∈ fileSpellings path) (rest : List String) :
    splitCode (spelling ++ rest) = ((splitCode rest).1, spelling ++ (splitCode rest).2) := by
  have hattached : ¬ (Name.file.hasValue = true ∧ some path = none) := by simp
  simp only [fileSpellings, List.mem_cons, List.not_mem_nil, or_false] at h
  rcases h with rfl | rfl | rfl | rfl
  · exact splitCode_of_mark_followed rfl rfl path rest
  · exact splitCode_of_mark_alone (mark_file_letter hpath) hattached rest
  · exact splitCode_of_mark_followed rfl rfl path rest
  · exact splitCode_of_mark_alone (mark_file_word path) hattached rest

/-- The search finds no text among words that name a file and an encoding. -/
theorem Naming.splitCode_eq {path encoding : String} {file coded : Bool} {words : List String}
    (hpath : Nameable path) (h : Naming path encoding file coded words) :
    splitCode words = (none, words) := by
  induction h with
  | nil => rfl
  | switch known _ ih =>
    obtain ⟨name, byLetter, hmark, hswitch⟩ := exists_mark_switch known
    rw [splitCode_of_mark_alone hmark (by simp [hswitch.hasValue_eq]), ih]
  | encoding _ ih => rw [splitCode_of_mark_followed rfl rfl, ih]
  | file known _ ih => rw [splitCode_of_spelling hpath known, ih]

/-! ## Reading the options -/

section

variable {edition : Edition}

/-- The marks set the file and the encoding, those of the two that are there, and nothing else that
decides what is run. -/
def Sets (edition : Edition) (path encoding : String) (file coded : Bool) (read : List Mark) :
    Prop :=
  ∀ settings, ∃ after, follow edition true settings read = .ok (after, []) ∧
    after.code = settings.code ∧
    after.file = (if file then some (.text path) else settings.file) ∧
    after.encoding = (if coded then .text encoding else settings.encoding)

theorem ofAttached_eq {text : String} (h : text.toList.head? ≠ some '-') :
    Value.ofAttached edition text = .text text := by
  rw [Value.ofAttached, if_neg]
  rintro ⟨-, rfl⟩
  exact h rfl

theorem cluster_file {path : String} (h : Nameable path) (byLetter : Bool) :
    cluster edition .file byLetter (some path) = .ok ⟨[], some (.file, some (.text path)), []⟩ := by
  have hvalue : (if byLetter then String.ofList (undivided path.toList) else path) = path := by
    rw [undivided_eq h.noSign, String.ofList_toList, ite_self]
  have hfile : Name.file.hasValue = true := rfl
  rw [cluster, if_pos hfile]
  simp only [hvalue, ofAttached_eq h.noDash]

theorem follow_file {path : String} (h : Nameable path) (byLetter : Bool) (settings : Settings)
    (read : List Mark) : follow edition true settings (.option .file byLetter (some path) :: read) =
      follow edition true (settings.assign .file (.text path)) read := by
  rw [follow, cluster_file h]
  exact leave_nil _

theorem exists_marks_of_spelling {path : String} (hpath : Nameable path) {spelling : List String}
    (h : spelling ∈ fileSpellings path) {rest : List String} {read : List Mark}
    (hread : marks rest = .ok read) : ∃ front, marks (spelling ++ rest) = .ok (front ++ read) ∧
      ∀ settings, follow edition true settings (front ++ read) =
        follow edition true (settings.assign .file (.text path)) read := by
  have hplain := marks_cons (mark_of_plain hpath.noDash) (by simp) hread
  simp only [fileSpellings, List.mem_cons, List.not_mem_nil, or_false] at h
  rcases h with rfl | rfl | rfl | rfl
  · exact ⟨[.option .file true none, .plain path], marks_cons rfl (by simp) hplain,
      fun _ => leave_nil _⟩
  · exact ⟨[.option .file true (some path)], marks_cons (mark_file_letter hpath) (by simp) hread,
      fun settings => follow_file hpath true settings read⟩
  · exact ⟨[.option .file false none, .plain path], marks_cons rfl (by simp) hplain,
      fun _ => leave_nil _⟩
  · exact ⟨[.option .file false (some path)], marks_cons (mark_file_word path) (by simp) hread,
      fun settings => follow_file hpath false settings read⟩

theorem Settings.exists_switch {name : Name} (h : name.IsSwitch) (settings : Settings) :
    ∃ after, settings.switchAll [name] = .ok after ∧ after.code = settings.code ∧
      after.file = settings.file ∧ after.encoding = settings.encoding := by
  cases h <;> exact ⟨_, rfl, rfl, rfl, rfl⟩

theorem Naming.exists_marks {path encoding : String} {file coded : Bool} {words : List String}
    (hpath : Nameable path) (hencoding : encoding.toList.head? ≠ some '-')
    (h : Naming path encoding file coded words) :
    ∃ read, marks words = .ok read ∧ Sets edition path encoding file coded read := by
  induction h with
  | nil => exact ⟨[], rfl, fun settings => ⟨settings, rfl, rfl, rfl, rfl⟩⟩
  | switch known _ ih =>
    obtain ⟨read, hread, hsets⟩ := ih
    obtain ⟨name, byLetter, hmark, hswitch⟩ := exists_mark_switch known
    refine ⟨_, marks_cons hmark (by simp) hread, fun settings => ?_⟩
    obtain ⟨switched, hswitched, hcode, hfile, hcoded⟩ := settings.exists_switch hswitch
    have hcluster : cluster edition name byLetter none = .ok ⟨[name], none, []⟩ := by
      rw [cluster, hswitch.hasValue_eq]
      rfl
    have hfollow : follow edition true settings (.option name byLetter none :: read) =
        follow edition true switched read := by
      simp only [follow, hcluster, hswitched, leave_nil]
    rw [hfollow, ← hcode, ← hfile, ← hcoded]
    exact hsets switched
  | encoding _ ih =>
    obtain ⟨read, hread, hsets⟩ := ih
    have hvalue := marks_cons (mark_of_plain hencoding) (by simp) hread
    refine ⟨.option .encoding false none :: .plain encoding :: read,
      marks_cons rfl (by simp) hvalue, fun settings => ?_⟩
    have hfollow : follow edition true settings
          (.option .encoding false none :: .plain encoding :: read) =
        follow edition true (settings.assign .encoding (.text encoding)) read := leave_nil _
    rw [hfollow]
    exact hsets (settings.assign .encoding (.text encoding))
  | file known _ ih =>
    obtain ⟨read, hread, hsets⟩ := ih
    obtain ⟨front, hmarks, hfollow⟩ := exists_marks_of_spelling hpath known hread
    refine ⟨_, hmarks, fun settings => ?_⟩
    rw [hfollow]
    exact hsets (settings.assign .file (.text path))

/-- The reader of the options finds the file and the encoding that the words name, and no text. -/
theorem Naming.exists_settings (edition : Edition) {path encoding : String} {words : List String}
    (hpath : Nameable path) (hencoding : encoding.toList.head? ≠ some '-')
    (h : Naming path encoding true true words) : ∃ after, settings edition words = .ok after ∧
      after.code = none ∧ after.file = some (.text path) ∧ after.encoding = .text encoding := by
  obtain ⟨read, hread, hsets⟩ :
      ∃ read, marks words = .ok read ∧ Sets edition path encoding true true read :=
    h.exists_marks hpath hencoding
  obtain ⟨after, hafter, hcode, hfile, hcoded⟩ := hsets {}
  refine ⟨after, ?_, hcode, hfile, hcoded⟩
  simp only [settings, hread, hafter]

end

end Options

namespace CommandLine

variable {σ : Type}

/-- A command on working streams, with an input in front of it and nothing written, does what the
evaluation of a file on the input does. The input is bytes, so it is read without fault. -/
structure FileMatching (working : Working σ) (around : Environment) (words : List String)
    (path encoding : String) (input : List UInt8) (streams : σ) : Prop where
  /-- Where the evaluation has an output, the command succeeds and has written it. -/
  returned : ∀ bound output,
    Evaluation.ofFile? bound around.read path encoding (.bytes input) = some (.ok output) →
    ∃ answer, main? working.console around bound words streams = some answer ∧
      answer.ending = .returned success ∧ (working.transcript answer.streams).written = output
  /-- Where the run of the file fails there is a report. The command returns the exit code of its
  kind, and has written what had been written when the run failed. -/
  failed : ∀ bound source failure,
    Evaluation.ofFile? bound around.read path encoding (.bytes input) =
      some (.error (.execution source failure)) →
    ∃ execution report answer, around.read path encoding = .ok source ∧
      Execution.execute? Script.console bound source (Script.ofInput input) = some execution ∧
      execution.failure = some failure ∧ failure.report? source = some report ∧
      main? working.console around bound words streams = some answer ∧
      answer.ending = .returned report.kind.exitCode ∧
      (working.transcript answer.streams).written = execution.streams.written.toList
  /-- Where the file cannot be read, the command says so by its exit code, and has made no call. -/
  unreadable : ∀ bound fault,
    Evaluation.ofFile? bound around.read path encoding (.bytes input) = some (.error (.reading fault)) →
    fault.isFileFault = true →
    ∃ answer, main? working.console around bound words streams = some answer ∧
      answer.ending = .returned argumentError ∧ answer.streams = streams
  /-- Any other fault of the evaluation escapes the command as it is. -/
  escaped : ∀ bound fault,
    Evaluation.ofFile? bound around.read path encoding (.bytes input) = some (.error (.reading fault)) →
    fault.isFileFault = false →
    ∃ answer, main? working.console around bound words streams = some answer ∧
      answer.ending = .escaped (.reading fault) ∧ answer.streams = streams
  /-- Neither ends before the other. -/
  unended : ∀ bound, Evaluation.ofFile? bound around.read path encoding (.bytes input) = none →
    main? working.console around bound words streams = none

theorem exists_plan_of_naming (edition : Options.Edition) {path encoding : String}
    {words : List String}
    (hpath : Options.Nameable path) (hencoding : encoding.toList.head? ≠ some '-')
    (h : Options.Naming path encoding true true words) :
    ∃ settings, plan edition words = .run (.file (.text path) (.text encoding)) settings := by
  obtain ⟨settings, hsettings, hcode, hfile, hcoded⟩ :=
    h.exists_settings edition hpath hencoding
  refine ⟨settings, ?_⟩
  simp only [plan, h.splitCode_eq hpath, hsettings, planOf, hcode, hfile, hcoded]

theorem exists_answer_of_unread {console : Console σ} {around : Environment} {words : List String}
    {path encoding : String} {settings : Options.Settings} {fault : ReadFault}
    (hplan : plan around.edition words = .run (.file (.text path) (.text encoding)) settings)
    (hread : around.read path encoding = .error fault) (bound : Nat)
    (streams : σ) :
    ∃ answer, main? console around bound words streams = some answer ∧
      answer.streams = streams ∧ answer.ending =
        if fault.isFileFault then .returned argumentError else .escaped (.reading fault) := by
  cases hfile : fault.isFileFault with
  | true =>
    simp only [main?, hplan, load, hread, hfile, if_true]
    exact ⟨_, rfl, rfl, rfl⟩
  | false =>
    simp only [main?, hplan, load, hread, hfile, Bool.false_eq_true, if_false]
    exact ⟨_, rfl, rfl, rfl⟩

theorem ofSource?_ne_reading {bound : Nat} {source : Source} {input : List UInt8}
    {fault : ReadFault} :
    Evaluation.ofSource? bound source (.bytes input) ≠ some (.error (.reading fault)) := by
  intro h
  obtain ⟨_, _, _, _, hfault⟩ := exists_execution_of_fault h
  simp at hfault

theorem fileMatching_of_plan (working : Working σ) {around : Environment} {words : List String}
    {path encoding : String} {settings : Options.Settings}
    (hplan : plan around.edition words = .run (.file (.text path) (.text encoding)) settings)
    {input : List UInt8} {streams : σ} (hs : working.Serves streams)
    (ht : working.transcript streams = ⟨input, []⟩) :
    FileMatching working around words path encoding input streams := by
  cases hread : around.read path encoding with
  | ok source =>
    have heval : ∀ bound, Evaluation.ofFile? bound around.read path encoding (.bytes input) =
        Evaluation.ofSource? bound source (.bytes input) := by
      intro bound
      rw [Evaluation.ofFile?, hread]
    have hload : load around.read (.file (.text path) (.text encoding)) = .ok source := by
      simp only [load, hread]
    have hmatching := matching_of_load working hplan hload hs ht
    constructor
    · intro bound output houtput
      exact hmatching.returned bound output (by rw [← heval, houtput])
    · intro bound source' failure hfailure
      rw [heval] at hfailure
      obtain ⟨execution, failure', report, answer, hexecution, hfailed, hfault, hreport, hanswer⟩ :=
        hmatching.failed bound _ hfailure
      obtain ⟨rfl, rfl⟩ := Evaluation.Fault.execution.inj hfault
      exact ⟨execution, report, answer, hread, hexecution, hfailed, hreport, hanswer⟩
    · intro bound fault hfault
      rw [heval] at hfault
      exact absurd hfault ofSource?_ne_reading
    · intro bound fault hfault
      rw [heval] at hfault
      exact absurd hfault ofSource?_ne_reading
    · intro bound hnone
      exact hmatching.unended bound (by rw [← heval, hnone])
  | error fault =>
    have heval : ∀ bound, Evaluation.ofFile? bound around.read path encoding (.bytes input) =
        some (.error (.reading fault)) := by
      intro bound
      rw [Evaluation.ofFile?, hread]
    have hanswer : ∀ bound, ∃ answer,
        main? working.console around bound words streams = some answer ∧
          answer.streams = streams ∧ answer.ending =
            if fault.isFileFault then .returned argumentError else .escaped (.reading fault) :=
      fun bound => exists_answer_of_unread hplan hread bound streams
    constructor
    · intro bound output houtput
      rw [heval] at houtput
      simp at houtput
    · intro bound source failure hfailure
      rw [heval] at hfailure
      simp at hfailure
    · intro bound other hother hfile
      rw [heval] at hother
      obtain rfl := Evaluation.Fault.reading.inj (Except.error.inj (Option.some.inj hother))
      obtain ⟨answer, hmain, hstreams, hending⟩ := hanswer bound
      rw [if_pos hfile] at hending
      exact ⟨answer, hmain, hending, hstreams⟩
    · intro bound other hother hfile
      rw [heval] at hother
      obtain rfl := Evaluation.Fault.reading.inj (Except.error.inj (Option.some.inj hother))
      obtain ⟨answer, hmain, hstreams, hending⟩ := hanswer bound
      rw [hfile] at hending
      exact ⟨answer, hmain, hending, hstreams⟩
    · intro bound hnone
      rw [heval] at hnone
      contradiction

/-- A file that is named with its encoding, in any spelling and among any switches, is run as it is
evaluated, however files are read. -/
theorem file_among_switches (working : Working σ) (around : Environment) {path encoding : String}
    {words : List String} {input : List UInt8} {streams : σ} (hpath : Options.Nameable path)
    (hencoding : encoding.toList.head? ≠ some '-')
    (hwords : Options.Naming path encoding true true words) (hs : working.Serves streams)
    (ht : working.transcript streams = ⟨input, []⟩) :
    FileMatching working around words path encoding input streams := by
  obtain ⟨settings, hplan⟩ := exists_plan_of_naming around.edition hpath hencoding hwords
  exact fileMatching_of_plan working hplan hs ht

/-- A file with its path attached to the letter, in front of its encoding and a switch. -/
theorem file_among_switches_echo :
    Options.Nameable "echo.bf" ∧ "latin-1".toList.head? ≠ some '-' ∧
      Options.Naming "echo.bf" "latin-1" true true ["-v", "-fecho.bf", "--encoding", "latin-1", "--time"] ∧
      ∃ answer, main? Script.console (.ofFiles .later [("echo.bf", some [233, 44, 46])] (0, 0)) 10
          ["-v", "-fecho.bf", "--encoding", "latin-1", "--time"] (Script.ofInput [65]) = some answer ∧
        answer.ending = .returned 0 ∧ answer.streams.written.toList = [65] := by
  have hpath : Options.Nameable "echo.bf" := ⟨by decide, by decide, by decide⟩
  have hwords : Options.Naming "echo.bf" "latin-1" true true
      ["-v", "-fecho.bf", "--encoding", "latin-1", "--time"] := by
    have hrest : Options.Naming "echo.bf" "latin-1" false true ["--encoding", "latin-1", "--time"] :=
      .encoding (.switch (by decide) .nil)
    have hknown : ["-fecho.bf"] ∈ Options.fileSpellings "echo.bf" := by decide
    exact .switch (by decide) (.file hknown hrest)
  have hmatching := file_among_switches Script.working
    (.ofFiles .later [("echo.bf", some [233, 44, 46])] (0, 0)) hpath (by decide) hwords
    (Script.serves_ofInput [65]) rfl
  exact ⟨hpath, by decide, hwords, hmatching.returned 10 [65] (by rfl)⟩

end CommandLine

end Brainfuck
