import Brainfuck.Text.Letter

/-!
Finding the program text among the words of a command.

Program text often begins with dashes, so it is taken out of the command before the options are
read. A word is taken for an option when a letter follows its one or two dashes. Some options are
followed by a value, which is skipped with them; the first word that is then neither an option nor
such a value is the program text. `splitCode` gives it and the words that are left, in their order.
-/

namespace Brainfuck.Options

/-- Whether a word is taken for an option: a letter follows its one or two dashes. -/
def isOption (word : String) : Bool :=
  match word.toList with
  | '-' :: '-' :: c :: _ => Text.isLetter c
  | '-' :: c :: _ => Text.isLetter c
  | _ => false

def valueOptions : List String := ["--file", "--encoding"]

/-- Whether the next word is the value of this one. A long option may be cut short here, and is not
followed by a value when it has one attached. -/
def takesValue (word : String) : Bool :=
  word == "-f" ||
    ("--".toList.isPrefixOf word.toList && !word.toList.contains '=' &&
      valueOptions.any fun option => word.toList.isPrefixOf option.toList)

/-- The program text, and the words of the command without it. -/
def splitCode : List String → Option String × List String
  | [] => (none, [])
  | [word] => if isOption word then (none, [word]) else (some word, [])
  | word :: value :: rest =>
    if isOption word then
      if takesValue word then
        let (code, others) := splitCode rest
        (code, word :: value :: others)
      else
        let (code, others) := splitCode (value :: rest)
        (code, word :: others)
    else (some word, value :: rest)

end Brainfuck.Options
