import Brainfuck.Options.Name
import Brainfuck.Text.Quoted

/-!
What the command line says about its own use: the usage, the help, the version, and the mistakes in
a command.
-/

namespace Brainfuck.Options

def commandName : String := "bfi"

def version : String := "0.1.0"

/-- The encoding of a source file where none is given. -/
def defaultEncoding : String := "utf-8"

def usage : String :=
  "usage: bfi [-h] [-f FILE] [--encoding ENCODING] [--time] [-v] [-q] [--version]\n"
    ++ "           [code]\n"

def versionText : String :=
  commandName ++ " " ++ version ++ "\n"

def help : String :=
  usage
    ++ "\n"
    ++ "Brainfuck interpreter\n"
    ++ "\n"
    ++ "positional arguments:\n"
    ++ "  code                  program source\n"
    ++ "\n"
    ++ "options:\n"
    ++ "  -h, --help            show this help message and exit\n"
    ++ "  -f FILE, --file FILE  read program source from FILE\n"
    ++ "  --encoding ENCODING   source file encoding (default: utf-8)\n"
    ++ "  --time                log how long the program ran\n"
    ++ "  -v, --verbose         debug logging\n"
    ++ "  -q, --quiet           only log errors\n"
    ++ "  --version             show program's version number and exit\n"
    ++ "\n"
    ++ "Exit codes:\n"
    ++ "    0  success\n"
    ++ "    1  bad arguments or unreadable source file\n"
    ++ "    2  syntax error (empty code, no operations, unmatched loop, negative pointer)\n"
    ++ "    3  cannot read from input stream\n"
    ++ "    4  cannot write to output stream\n"

inductive UsageFault where
  /-- A word that several options begin with. -/
  | ambiguous (word : String) (matching : List String)
  | missingValue (name : Name)
  /-- A value attached to an option that has none. -/
  | unexpectedValue (name : Name) (value : String)
  /-- Words that are no options, and more texts than one. -/
  | unrecognized (words : List String)
  deriving DecidableEq, Repr

namespace UsageFault

def message : UsageFault → String
  | .ambiguous word matching =>
    "ambiguous option: " ++ word ++ " could match " ++ ", ".intercalate matching
  | .missingValue name => "argument " ++ name.title ++ ": expected one argument"
  | .unexpectedValue name value =>
    "argument " ++ name.title ++ ": ignored explicit argument " ++ Text.quoted value
  | .unrecognized words => "unrecognized arguments: " ++ " ".intercalate words

/-- What is said about a mistake: the usage, and the message. -/
def text (fault : UsageFault) : String :=
  usage ++ commandName ++ ": error: " ++ fault.message ++ "\n"

end UsageFault

end Brainfuck.Options
