/-!
Log records: a level, the part of the program that speaks, and a message.
-/

namespace Brainfuck.Log

/-- The level of a record, or the least level that is shown. -/
inductive Level where
  | debug
  | info
  | warning
  | error
  | critical
  deriving DecidableEq, Repr

namespace Level

def rank : Level → Nat
  | .debug => 10
  | .info => 20
  | .warning => 30
  | .error => 40
  | .critical => 50

def name : Level → String
  | .debug => "DEBUG"
  | .info => "INFO"
  | .warning => "WARNING"
  | .error => "ERROR"
  | .critical => "CRITICAL"

end Level

/-- The part of the program that speaks. -/
inductive Origin where
  | interpreter
  | commandLine
  deriving DecidableEq, Repr

structure Record where
  level : Level
  origin : Origin
  message : String
  deriving DecidableEq, Repr

namespace Record

/-- Whether a record is shown when a level is in force. -/
def isShown (least : Level) (record : Record) : Bool :=
  least.rank ≤ record.level.rank

/-- A record as a line of the command line's diagnostics. -/
def line (record : Record) : String :=
  record.level.name ++ ": " ++ record.message ++ "\n"

end Record

end Brainfuck.Log
