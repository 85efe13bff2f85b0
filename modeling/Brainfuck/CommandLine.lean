import Brainfuck.Decimal.Fixed
import Brainfuck.Execution
import Brainfuck.Files
import Brainfuck.Options.Settings
import Brainfuck.Options.Word

/-!
The command line: from the words of a command to an exit code.

A command is read in steps. The program text is taken out of its words, the options are read from
the rest, and together they make a `Plan`: to say something and stop, to refuse, or to run a text
that is given or stands in a file. A run ends with an exit code and log records, which are shown
from the level in force on. Faults the command does not answer for escape it.

A plan is made without looking at files or streams, and what is done with it is said apart from how
it is done: `conclude` gives the records and the exit code of an execution that has ended. What a
command finds where it is carried out is its `Environment`: the edition of the rules for options,
the way files are read, and a clock. No more is asked of reading than that it gives a source or a
fault.
-/

namespace Brainfuck.CommandLine

/-- The exit code of a command that did what it was asked. -/
def success : Int := 0

/-- The exit code of a command with bad arguments or a source file that cannot be read. -/
def argumentError : Int := 1

/-- Why an exit code is missing: a fault the command does not answer for. -/
inductive Escape where
  /-- The source file cannot be read, for a reason outside the file. -/
  | reading (fault : ReadFault)
  /-- The file was to be read from no path at all. -/
  | droppedPath
  /-- The file was to be read in no encoding at all. -/
  | droppedEncoding
  | run (fault : RunFault)
  deriving DecidableEq, Repr

inductive Ending where
  | returned (code : Int)
  /-- On the spot, with an exit code. -/
  | exited (code : Int)
  | escaped (why : Escape)
  deriving DecidableEq, Repr

/-- The ending of the process that runs the command: an exit code is always an exit. -/
def Ending.ofProcess : Ending → Ending
  | .returned code => .exited code
  | ending => ending

/-! ## Running a text -/

def say (level : Log.Level) (message : String) : Log.Record :=
  ⟨level, .commandLine, message⟩

/-- The time between two readings of a clock in seconds, in milliseconds. -/
def milliseconds (start stop : Float) : Float :=
  (stop - start) * 1000

/-- The info record of the time a run took. -/
def timeRecord (elapsed : Float) : Log.Record :=
  say .info ("Execution took " ++ (Decimal.Double.ofBits elapsed.toBits).fixed 2 ++ " ms")

/-- What a run came to: its exit code or the fault that escapes, and the log. -/
structure Verdict where
  result : Except RunFault Int
  log : List Log.Record

/-- The verdict on a failure the command line answers for, with an error record of its label and
a debug record of its message. -/
def Verdict.ofNotice (log : List Log.Record) (notice : Notice) (message : String) : Verdict :=
  ⟨.ok notice.exitCode, log ++ [say .error notice.label, say .debug message]⟩

/-- What the command line answers to a failed run. A fault that has come through the interpreter
unchanged is answered for where it is a failure of the interpreter itself. -/
def answerRun? : RunFault → Option (Notice × String)
  | .foreign cause => cause.notice?.map fun notice => (notice, cause.text)
  | fault => fault.report?.map fun report => (report.kind.notice, report.message)

/-- What the command line answers to a flush that is refused. -/
def answerFlush? (cause : Fault) : Option (Notice × String) :=
  match cause.notice? with
  | some notice => some (notice, cause.text)
  | none =>
    if cause.isSystemFault then some (Kind.output.notice, "flush failed: " ++ cause.text) else none

def Verdict.ofFailure (source : Source) (log : List Log.Record) : Failure → Verdict
  | .source fault => .ofNotice log (fault.report source).kind.notice (fault.report source).message
  | .run fault =>
    match answerRun? fault with
    | some (notice, message) => .ofNotice log notice message
    | none => ⟨.error fault, log⟩

/-- The verdict on an execution that succeeded, by the flush of the output after it. -/
def Verdict.ofFlush (log : List Log.Record) : Except Fault Unit → Verdict
  | .ok () => ⟨.ok success, log⟩
  | .error cause =>
    match answerFlush? cause with
    | some (notice, message) => .ofNotice log notice message
    | none => ⟨.error (.foreign cause), log⟩

/-- The verdict with the record of the time the run took, if it was timed. -/
def Verdict.timed (verdict : Verdict) (elapsed : Option Float) : Verdict :=
  { verdict with log := verdict.log ++ (elapsed.map timeRecord).toList }

/-- The verdict on an execution that has ended, and the streams after it. The output is flushed if
the execution succeeded, and only then. -/
def conclude {σ : Type} (console : Console σ) (source : Source) (execution : Execution σ)
    (elapsed : Option Float) : Verdict × σ :=
  match execution.failure with
  | some failure =>
    ((Verdict.ofFailure source execution.log failure).timed elapsed, execution.streams)
  | none =>
    let (answer, streams) := console.flush execution.streams
    ((Verdict.ofFlush execution.log answer).timed elapsed, streams)

def run? {σ : Type} (console : Console σ) (bound : Nat) (source : Source) (elapsed : Option Float)
    (streams : σ) : Option (Verdict × σ) :=
  (Execution.execute? console bound source streams).map fun execution =>
    conclude console source execution elapsed

/-! ## Planning a command -/

inductive Origin where
  | text (code : String)
  | file (path encoding : Options.Value)
  deriving DecidableEq, Repr

inductive Plan where
  | show (text : String)
  /-- Nothing that can be done: the mistake is shown with the usage. -/
  | reject (fault : Options.UsageFault)
  /-- Nothing that can be done: the log says why. -/
  | refuse (reason : String) (settings : Options.Settings)
  | run (origin : Origin) (settings : Options.Settings)
  deriving DecidableEq, Repr

/-- The plan of a command with given settings, the program text being among them. -/
def planOf (settings : Options.Settings) : Plan :=
  match settings.code, settings.file with
  | some _, some _ => .refuse "Too many arguments (expected code or --file, not both)" settings
  | none, some path => .run (.file path settings.encoding) settings
  | none, none => .refuse "Expected code as argument" settings
  | some code, none => .run (.text code) settings

def plan (edition : Options.Edition) (words : List String) : Plan :=
  let (code, rest) := Options.splitCode words
  match Options.settings edition rest with
  | .error .help => .show Options.help
  | .error .version => .show Options.versionText
  | .error (.mistake fault) => .reject fault
  | .ok settings =>
    match code, settings.code with
    | some _, some _ => .refuse "Too many arguments (expected 1)" settings
    | some code, none => planOf { settings with code := some code }
    | none, _ => planOf settings

def level (settings : Options.Settings) : Log.Level :=
  if settings.quiet then .error else if settings.verbose then .debug else .info

def diagnostics (settings : Options.Settings) (log : List Log.Record) : String :=
  String.join ((log.filter (Log.Record.isShown (level settings))).map Log.Record.line)

/-! ## Carrying out a plan -/

inductive LoadFault where
  | reported (record : Log.Record)
  | escaped (why : Escape)
  deriving DecidableEq, Repr

/-- The source a plan runs, given how files are read. -/
def load (read : String → String → Except ReadFault Source) : Origin → Except LoadFault Source
  | .text code => .ok code.toList
  | .file .dropped _ => .error (.escaped .droppedPath)
  | .file (.text _) .dropped => .error (.escaped .droppedEncoding)
  | .file (.text path) (.text encoding) =>
    match read path encoding with
    | .ok source => .ok source
    | .error fault =>
      if fault.isFileFault then
        .error (.reported (say .error ("Couldn't read " ++ path ++ ": " ++ fault.message)))
      else .error (.escaped (.reading fault))

def Verdict.ending (verdict : Verdict) : Ending :=
  match verdict.result with
  | .ok code => .returned code
  | .error fault => .escaped (.run fault)

/-- A command that has ended: how, what it showed, and the streams after it. -/
structure Answer (σ : Type) where
  ending : Ending
  diagnostics : String
  streams : σ

/-- A text written to the output at once, byte by byte. -/
def writeAll {σ : Type} (console : Console σ) : List UInt8 → σ → Except Fault Unit × σ
  | [], streams => (.ok (), streams)
  | byte :: rest, streams =>
    match console.write byte streams with
    | (.ok (), streams) => writeAll console rest streams
    | (.error cause, streams) => (.error cause, streams)

/-- The ending of a command that showed a text; some refusals do not matter. -/
def showEnding : Except Fault Unit → Ending
  | .ok () => .exited success
  | .error cause =>
    if cause.isOverlooked then .exited success else .escaped (.run (.foreign cause))

/-- What a command finds where it is carried out. -/
structure Environment where
  /-- The edition of the rules for options. -/
  edition : Options.Edition
  /-- The source in the file at a path, read in an encoding. -/
  read : String → String → Except ReadFault Source
  /-- The clock, read at the start of a run and at its end. -/
  clock : Float × Float

/-- An environment whose files are written down. -/
def Environment.ofFiles (edition : Options.Edition) (files : List (String × Option (List UInt8)))
    (clock : Float × Float) : Environment :=
  ⟨edition, (Files.Host.ofTree (.ofNames files)).read, clock⟩

/-- A command carried out in an environment and on given streams, in at most `bound` turns. -/
def main? {σ : Type} (console : Console σ) (around : Environment) (bound : Nat)
    (words : List String) (streams : σ) : Option (Answer σ) :=
  match plan around.edition words with
  | .show text =>
    let (answer, streams) := writeAll console text.toUTF8.toList streams
    some ⟨showEnding answer, "", streams⟩
  | .reject fault => some ⟨.exited argumentError, fault.text, streams⟩
  | .refuse reason settings =>
    some ⟨.returned argumentError, diagnostics settings [say .error reason], streams⟩
  | .run origin settings =>
    match load around.read origin with
    | .error (.reported record) =>
      some ⟨.returned argumentError, diagnostics settings [record], streams⟩
    | .error (.escaped why) => some ⟨.escaped why, "", streams⟩
    | .ok source =>
      let elapsed :=
        if settings.timed then some (milliseconds around.clock.1 around.clock.2) else none
      (run? console bound source elapsed streams).map fun (verdict, streams) =>
        ⟨verdict.ending, diagnostics settings verdict.log, streams⟩

end Brainfuck.CommandLine
