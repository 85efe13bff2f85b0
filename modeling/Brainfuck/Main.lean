import Brainfuck.CommandLine

/-!
The command itself: the plan of its words carried out on the real files, streams and clock.

Everything that is decided is decided elsewhere. This module makes the calls that `Machine.step`
makes on a console, on the standard input and output, and shows the log on the standard error.
-/

namespace Brainfuck.Command

/-- The edition of the rules for options that is followed. -/
def edition : Options.Edition := .earlier

/-- The fault of a stream call that the system refused. -/
def faultOf (error : IO.Error) : Fault :=
  ⟨"system", toString error, .system⟩

def readByte : IO (Except Fault (Option (List UInt8))) := do
  try
    let bytes ← (← IO.getStdin).read 1
    return .ok (some bytes.toList)
  catch error => return .error (faultOf error)

def writeByte (byte : UInt8) : IO (Except Fault Unit) := do
  try
    (← IO.getStdout).write (ByteArray.empty.push byte)
    return .ok ()
  catch error => return .error (faultOf error)

def flush : IO (Except Fault Unit) := do
  try
    (← IO.getStdout).flush
    return .ok ()
  catch error => return .error (faultOf error)

/-- The run of a program to its end. -/
partial def play (program : Program) (turns : Nat) (state : State) :
    IO (Machine.Progress Unit) := do
  match state.turn program with
  | .stop here => return .succeeded turns ⟨here, ()⟩
  | .settled (.error (why, here)) => return .failed why ⟨here, ()⟩
  | .settled (.ok next) => play program (turns + 1) next
  | .read here =>
    match ← readByte with
    | .error cause => return .failed (.ofRead cause) ⟨here, ()⟩
    | .ok answer =>
      match here.receive (Console.byteOf answer) with
      | .error (why, here) => return .failed why ⟨here, ()⟩
      | .ok next => play program (turns + 1) next
  | .write byte here =>
    match ← writeByte byte with
    | .error cause => return .failed (.ofWrite cause) ⟨here, ()⟩
    | .ok () => play program (turns + 1) here.advance

/-- The bytes of the file at a path. -/
def contents (path : Files.Path) : IO (Except Files.SystemFault (List UInt8)) := do
  try
    return .ok (← IO.FS.readBinFile path.text).toList
  catch error =>
    return .error <|
      match error with
      | .noFileOrDirectory .. => .notFound
      | .inappropriateType .. => .isDirectory
      | _ => .other (toString error)

/-- The source of a plan. No encodings are known but those of `Text.Encoding`. -/
def load (origin : CommandLine.Origin) : IO (Except CommandLine.LoadFault Source) := do
  let answer ←
    match origin with
    | .file (.text path) _ => contents (Files.Path.ofString path)
    | _ => pure (.error .notFound)
  let host : Files.Host := ⟨fun _ => answer, fun _ => none⟩
  return CommandLine.load host.read origin

/-- The log records, on the standard error. -/
def tell (settings : Options.Settings) (log : List Log.Record) : IO Unit := do
  IO.eprint (CommandLine.diagnostics settings log)

/-- A fault that the command does not answer for. -/
def escape (words : String) : IO UInt32 := do
  IO.eprintln words
  return 1

def verdict (source : Source) (log : List Log.Record) :
    Option Failure → IO CommandLine.Verdict
  | some failure => return .ofFailure source log failure
  | none => return .ofFlush log (← flush)

/-- What the system is told of an exit code: its last byte. -/
def exitStatus (code : Int) : UInt32 :=
  UInt32.ofNat (code % 256).toNat

/-- The run of a source, from its start to its exit code. -/
def run (settings : Options.Settings) (source : Source) : IO UInt32 := do
  let start ← IO.monoNanosNow
  let (shown, failure, log) ←
    match Execution.program source with
    | .error fault => pure ([], some (.source fault), [])
    | .ok program => do
      let opening := [Execution.programRecord program]
      tell settings opening
      let progress ← play program 0 (State.start (Tape.blank Tape.initialSize))
      match Execution.ofProgress? program progress with
      | some execution => pure (opening, execution.failure, execution.log)
      | none => pure (opening, none, opening)
  let verdict ← verdict source log failure
  let stop ← IO.monoNanosNow
  let elapsed := if settings.timed then some ((stop - start).toFloat / 1000000) else none
  let verdict := verdict.timed elapsed
  tell settings (verdict.log.drop shown.length)
  match verdict.result with
  | .ok code => return exitStatus code
  | .error (.foreign cause) => escape cause.text
  | .error _ => escape "the machine cannot go on"

def command (words : List String) : IO UInt32 := do
  let failed := exitStatus CommandLine.argumentError
  match CommandLine.plan edition words with
  | .show text =>
    IO.print text
    return 0
  | .reject fault =>
    IO.eprint fault.text
    return failed
  | .refuse reason settings =>
    tell settings [CommandLine.say .error reason]
    return failed
  | .run origin settings =>
    match ← load origin with
    | .ok source => run settings source
    | .error (.reported record) =>
      tell settings [record]
      return failed
    | .error (.escaped (.reading fault)) => escape fault.message
    | .error (.escaped _) => escape "no path or encoding is left of an option's value"

end Brainfuck.Command

def main (words : List String) : IO UInt32 :=
  Brainfuck.Command.command words
