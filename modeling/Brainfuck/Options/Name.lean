/-!
The options of the command line and how they are spelled.

Every option has a long spelling of two dashes and a word, and some have a short one of a dash and
a letter. A long spelling may be cut short as long as one option only begins with what is left.
-/

namespace Brainfuck.Options

inductive Name where
  | help
  | file
  | encoding
  | time
  | verbose
  | quiet
  | version
  deriving DecidableEq, Repr

namespace Name

/-- The options in the order of the help text. -/
def all : List Name :=
  [.help, .file, .encoding, .time, .verbose, .quiet, .version]

def letter? : Name → Option Char
  | .help => some 'h'
  | .file => some 'f'
  | .verbose => some 'v'
  | .quiet => some 'q'
  | .encoding | .time | .version => none

def word : Name → String
  | .help => "help"
  | .file => "file"
  | .encoding => "encoding"
  | .time => "time"
  | .verbose => "verbose"
  | .quiet => "quiet"
  | .version => "version"

/-- The short spelling, where there is one, and the long one. -/
def spellings (name : Name) : List String :=
  (name.letter?.map fun letter => String.ofList ['-', letter]).toList ++ ["--" ++ name.word]

/-- The option as it is called in messages. -/
def title (name : Name) : String :=
  "/".intercalate name.spellings

def hasValue : Name → Bool
  | .file | .encoding => true
  | .help | .time | .verbose | .quiet | .version => false

def ofLetter? (letter : Char) : Option Name :=
  all.find? fun name => name.letter? == some letter

/-- The options whose long spelling begins with a text. -/
def beginningWith (text : List Char) : List Name :=
  all.filter fun name => text.isPrefixOf ("--" ++ name.word).toList

end Name

end Brainfuck.Options
