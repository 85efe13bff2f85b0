import Brainfuck.Options.Usage
import Brainfuck.Text.DecimalDigit

/-!
Reading the options of a command.

The words are read in two passes. The first marks each word: as an option, with the value attached
to it if there is one; as a plain word, which may be a value or the program text; or as the double
dash, after which every word is plain. A word that begins with a dash is plain if it is the dash
alone, a number, or holds a space, and otherwise an option, known or not. A mistake in the marking
is reported before anything else.

The second pass goes through the marked words in their order. An option with a value takes the one
attached to it or else the plain word behind it; letters of options without a value may share a
dash. The first plain word left is the program text, a double dash next to it is dropped, and all
other words are left over. Words left over are a mistake, and so are a value that is missing and
one that is not wanted. A call for help or for the version ends the pass where it stands.

The rules come in two editions, which part where something is attached to an option (`Edition`). A
command does not choose the edition, so what is said of commands is said of both.
-/

namespace Brainfuck.Options

/-- The editions of the rules. They differ in what may be attached to an option. -/
inductive Edition where
  /-- An equals sign divides the first letter of a word from what is attached to it, and no other
  letter. Letters behind an option without a value are options, or a mistake. A double dash is no
  value. -/
  | earlier
  /-- An equals sign divides any letter from what is attached to it, which is then a value. Letters
  behind an option without a value are options, or they are left over. -/
  | later
  deriving DecidableEq, Repr

inductive Value where
  | text (text : String)
  /-- A double dash attached to an option is dropped in the earlier edition, and nothing is left for
  its value. -/
  | dropped
  deriving DecidableEq, Repr

/-- The value a text attached to an option stands for. -/
def Value.ofAttached (edition : Edition) (text : String) : Value :=
  if edition = .earlier ∧ text = "--" then .dropped else .text text

/-- What the options of a command say. -/
structure Settings where
  code : Option String := none
  file : Option Value := none
  encoding : Value := .text defaultEncoding
  timed : Bool := false
  verbose : Bool := false
  quiet : Bool := false
  deriving DecidableEq, Repr

/-- Why the options of a command are not settings. -/
inductive Stop where
  | help
  | version
  | mistake (fault : UsageFault)
  deriving DecidableEq, Repr

/-! ## Marking the words -/

/-- An option as it was written: the name, if it is known, whether by its letter, and what was
attached to it. What is attached to a letter is the rest of the word, with the equals sign if there
is one. -/
inductive Mark where
  | plain (word : String)
  | doubleDash
  | option (name : Name) (byLetter : Bool) (attached : Option String)
  | unknown (word : String)
  deriving DecidableEq, Repr

/-- Whether digits with at most one point among them spell a number. -/
def isNumeral (text : List Char) : Bool :=
  match text.dropWhile Text.isDecimalDigit with
  | [] => !text.isEmpty
  | '.' :: places => !places.isEmpty && places.all Text.isDecimalDigit
  | _ => false

/-- Whether what follows a dash makes the word a negative number; a newline may end it. -/
def isNegative (text : List Char) : Bool :=
  isNumeral text || (text.getLast? == some '\n' && isNumeral text.dropLast)

/-- The mark of a word with one dash: the letter of an option, with the rest of the word attached to
it. -/
def markShort (word : String) (letter : Char) (rest : List Char) : Mark :=
  match Name.ofLetter? letter with
  | some name => .option name true (if rest.isEmpty then none else some (String.ofList rest))
  | none =>
    if isNegative (letter :: rest) ∨ ' ' ∈ letter :: rest then .plain word else .unknown word

/-- The mark of a word with two dashes: what stands before the first equals sign is the long
spelling of an option or the beginning of just one, and what stands after it is attached. -/
def markLong (word : String) : Except UsageFault Mark :=
  let chars := word.toList
  let spelling := chars.takeWhile (· ≠ '=')
  let attached :=
    match chars.dropWhile (· ≠ '=') with
    | [] => none
    | _ :: value => some (String.ofList value)
  match Name.all.find? fun name => ("--" ++ name.word).toList = spelling with
  | some name => .ok (.option name false attached)
  | none =>
    match Name.beginningWith spelling with
    | [] => .ok (if ' ' ∈ chars then .plain word else .unknown word)
    | [name] => .ok (.option name false attached)
    | names => .error (.ambiguous word (names.map fun name => "--" ++ name.word))

def mark (word : String) : Except UsageFault Mark :=
  match word.toList with
  | ['-', '-'] => .ok .doubleDash
  | '-' :: '-' :: _ => markLong word
  | '-' :: letter :: rest => .ok (markShort word letter rest)
  | _ => .ok (.plain word)

def marks : List String → Except UsageFault (List Mark)
  | [] => .ok []
  | word :: rest => do
    match ← mark word with
    | .doubleDash => .ok (.doubleDash :: rest.map .plain)
    | first => .ok (first :: (← marks rest))

/-! ## Following the options -/

def Settings.assign (settings : Settings) (name : Name) (value : Value) : Settings :=
  match name with
  | .file => { settings with file := some value }
  | .encoding => { settings with encoding := value }
  | .help | .time | .verbose | .quiet | .version => settings

def Settings.switch (settings : Settings) : Name → Except Stop Settings
  | .help => .error .help
  | .version => .error .version
  | .time => .ok { settings with timed := true }
  | .verbose => .ok { settings with verbose := true }
  | .quiet => .ok { settings with quiet := true }
  | .file | .encoding => .ok settings

/-- A word of options: those without a value, in order, the one with a value that may end them, with
the value if it is attached, and what is left over of the word. -/
structure Cluster where
  switches : List Name
  assigned : Option (Name × Option Value)
  leftover : List String
  deriving DecidableEq, Repr

def Cluster.cons (name : Name) (cluster : Cluster) : Cluster :=
  { cluster with switches := name :: cluster.switches }

/-- What is attached, without the equals sign in front of it. -/
def undivided : List Char → List Char
  | '=' :: rest => rest
  | rest => rest

/-- What becomes of a text behind the letter of an option without a value, where the text does not
begin with a letter of an option. -/
def strayLetters (edition : Edition) (name : Name) (text : List Char) : Except UsageFault Cluster :=
  match edition, text with
  | .later, '=' :: value => .error (.unexpectedValue name (String.ofList value))
  | .later, '-' :: _ => .error (.unexpectedValue name (String.ofList text))
  | .later, _ => .ok ⟨[name], none, [String.ofList ('-' :: text)]⟩
  | .earlier, _ => .error (.unexpectedValue name (String.ofList text))

/-- The options whose letters follow that of an option without a value. -/
def clusterFrom (edition : Edition) (name : Name) : List Char → Except UsageFault Cluster
  | [] => .ok ⟨[name], none, []⟩
  | letter :: rest =>
    match Name.ofLetter? letter with
    | none => strayLetters edition name (letter :: rest)
    | some next =>
      if next.hasValue then
        let value := String.ofList (if edition = .earlier then rest else undivided rest)
        .ok ⟨[name], some (next, if rest.isEmpty then none else some (.ofAttached edition value)), []⟩
      else (clusterFrom edition next rest).map (Cluster.cons name)

/-- The options of a word that begins with the letter of one without a value, given what is attached
to the letter. -/
def clusterBehind (edition : Edition) (name : Name) (text : List Char) :
    Except UsageFault Cluster :=
  match edition with
  | .earlier =>
    if undivided text = [] then .error (.unexpectedValue name "")
    else clusterFrom .earlier name (undivided text)
  | .later => clusterFrom .later name text

def cluster (edition : Edition) (name : Name) (byLetter : Bool) :
    Option String → Except UsageFault Cluster
  | none => .ok (if name.hasValue then ⟨[], some (name, none), []⟩ else ⟨[name], none, []⟩)
  | some text =>
    if name.hasValue then
      let value := if byLetter then String.ofList (undivided text.toList) else text
      .ok ⟨[], some (name, some (.ofAttached edition value)), []⟩
    else if byLetter then clusterBehind edition name text.toList
    else .error (.unexpectedValue name text)

/-- The settings after the options of one word that have no value. -/
def Settings.switchAll (settings : Settings) (names : List Name) : Except Stop Settings :=
  names.foldlM Settings.switch settings

/-- The word a mark was made from, where it may be left over. -/
def Mark.leftover : Mark → List String
  | .plain word | .unknown word => [word]
  | .doubleDash => ["--"]
  | .option .. => []

/-- The settings that are read, where some words in front are left over too. -/
def leave (words : List String) (result : Except Stop (Settings × List String)) :
    Except Stop (Settings × List String) :=
  result.map fun (settings, others) => (settings, words ++ others)

/-- The settings after the marked words, and the words left over. The program text is looked for
as long as `wanted` holds. -/
def follow (edition : Edition) (wanted : Bool) (settings : Settings) :
    List Mark → Except Stop (Settings × List String)
  | [] => .ok (settings, [])
  -- a double dash next to the program text goes with it, and only plain words come after one
  | .plain word :: .doubleDash :: rest =>
    if wanted then .ok ({ settings with code := some word }, rest.flatMap Mark.leftover)
    else .ok (settings, word :: "--" :: rest.flatMap Mark.leftover)
  | .plain word :: rest =>
    if wanted then follow edition false { settings with code := some word } rest
    else leave [word] (follow edition false settings rest)
  | .doubleDash :: .plain word :: rest =>
    if wanted then .ok ({ settings with code := some word }, rest.flatMap Mark.leftover)
    else .ok (settings, "--" :: word :: rest.flatMap Mark.leftover)
  | .doubleDash :: rest =>
    .ok (settings, (if wanted then [] else ["--"]) ++ rest.flatMap Mark.leftover)
  | .unknown word :: rest => leave [word] (follow edition wanted settings rest)
  | .option name byLetter attached :: rest =>
    match cluster edition name byLetter attached with
    | .error fault => .error (.mistake fault)
    | .ok ⟨switches, none, words⟩ =>
      match settings.switchAll switches with
      | .error stop => .error stop
      | .ok settings => leave words (follow edition wanted settings rest)
    | .ok ⟨switches, some (name, some value), words⟩ =>
      match settings.switchAll switches with
      | .error stop => .error stop
      | .ok settings => leave words (follow edition wanted (settings.assign name value) rest)
    | .ok ⟨switches, some (name, none), words⟩ =>
      match rest with
      -- the options in front of this one in the same word count only once its value is there
      | .plain word :: rest =>
        match settings.switchAll switches with
        | .error stop => .error stop
        | .ok settings => leave words (follow edition wanted (settings.assign name (.text word)) rest)
      | _ => .error (.mistake (.missingValue name))

/-- The settings of a command, from which the program text may have been taken before. -/
def settings (edition : Edition) (words : List String) : Except Stop Settings :=
  match marks words with
  | .error fault => .error (.mistake fault)
  | .ok marks =>
    match follow edition true {} marks with
    | .error stop => .error stop
    | .ok (settings, []) => .ok settings
    | .ok (_, words) => .error (.mistake (.unrecognized words))

end Brainfuck.Options
