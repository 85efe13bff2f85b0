import Brainfuck.Source.Place
import Brainfuck.Text.Encoding
import Brainfuck.Text.Newlines

/-!
Reading a source from a file.

A file is read in three stages, each with its own faults: the path is brought into its normal form
and followed to the bytes of a file, the encoding is looked up, and the bytes are decoded; last, the
line ends are made newlines. What lies at a path, and what encodings are known besides those of
`Text.Encoding`, is for the host to say (`Host`), so a statement about every host holds of any files,
any refusal and any encoding. In the normal form of a path the empty parts and those that are
a single point are dropped.

`Host.ofTree` is a host whose files are a tree that is written down, with a directory in it that
relative paths start from. It has no links, and it knows no other encodings.
-/

namespace Brainfuck

namespace Files

/-- A path in normal form: what it starts from, and the parts that follow. -/
structure Path where
  /-- The slashes in front: none for a relative path. -/
  root : String
  parts : List String
  deriving DecidableEq, Repr

def split : List Char → List (List Char)
  | [] => [[]]
  | c :: rest =>
    if c = '/' then [] :: split rest
    else
      match split rest with
      | [] => [[c]]
      | first :: others => (c :: first) :: others

/-- The parts of a path that lead somewhere. -/
def partsOf (text : List Char) : List String :=
  ((split text).map String.ofList).filter fun part => part ≠ "" ∧ part ≠ "."

/-- The normal form of a path. Two slashes in front are kept apart from one, three are not. -/
def Path.ofString (text : String) : Path :=
  match text.toList with
  | '/' :: '/' :: '/' :: rest => ⟨"/", partsOf rest⟩
  | '/' :: '/' :: rest => ⟨"//", partsOf rest⟩
  | '/' :: rest => ⟨"/", partsOf rest⟩
  | rest => ⟨"", partsOf rest⟩

def Path.text (path : Path) : String :=
  if path.root = "" ∧ path.parts.isEmpty then "."
  else path.root ++ "/".intercalate path.parts

/-- Why the system does not open the file at a path. -/
inductive SystemFault where
  | notFound
  | isDirectory
  | notDirectory
  /-- Any other refusal, with all that is said of it. -/
  | other (words : String)
  deriving DecidableEq, Repr

/-- What is said of a file at a path that is not opened. -/
def SystemFault.message (path : String) : SystemFault → String
  | .notFound => "[Errno 2] No such file or directory: " ++ Text.quoted path
  | .isDirectory => "[Errno 21] Is a directory: " ++ Text.quoted path
  | .notDirectory => "[Errno 20] Not a directory: " ++ Text.quoted path
  | .other words => words

end Files

inductive ReadFault where
  /-- The system does not open the file at a path. -/
  | system (fault : Files.SystemFault) (path : String)
  | decoding (fault : Text.DecodeFault)
  | unknownEncoding (name : String)
  /-- The path holds a character that no path can hold. -/
  | nullInPath
  /-- The name of the encoding holds a character that no name can hold. -/
  | nullInEncoding
  /-- Any other fault of the system or of a decoder, by its name, with all that is said of it. -/
  | foreign (name words : String)
  deriving DecidableEq, Repr

namespace ReadFault

def message : ReadFault → String
  | .system fault path => fault.message path
  | .decoding fault => fault.message
  | .unknownEncoding name => "unknown encoding: " ++ name
  | .nullInPath => "embedded null byte"
  | .nullInEncoding => "embedded null character"
  | .foreign _ words => words

/-- Whether the fault lies in the file: the system does not open it, or its bytes are not text. -/
def isFileFault : ReadFault → Bool
  | .system .. | .decoding _ => true
  | .unknownEncoding _ | .nullInPath | .nullInEncoding | .foreign .. => false

end ReadFault

namespace Files

/-- What reading a file asks of the host it is read on. -/
structure Host where
  contents : Path → Except SystemFault (List UInt8)
  /-- How bytes are decoded in an encoding that goes by a name and is not one of `Text.Encoding`, if
  the host knows it. -/
  decoder? : String → Option (List UInt8 → Except ReadFault (List Char))

/-- The text of the bytes of a file, in an encoding given by name. -/
def Host.decode (host : Host) (encoding : String) (bytes : List UInt8) :
    Except ReadFault (List Char) :=
  match Text.Encoding.ofName? encoding with
  | some encoding => (encoding.decode bytes).mapError .decoding
  | none =>
    match host.decoder? encoding with
    | some decoder => decoder bytes
    | none => .error (.unknownEncoding encoding)

/-- The source in the file at a path. The file is opened before its encoding is looked up. -/
def Host.read (host : Host) (path encoding : String) : Except ReadFault Source :=
  if encoding.toList.contains '\x00' then .error .nullInEncoding
  else if path.toList.contains '\x00' then .error .nullInPath
  else
    let path := Path.ofString path
    match host.contents path with
    | .error fault => .error (.system fault path.text)
    | .ok bytes => (host.decode encoding bytes).map Text.unifyNewlines

/-! ## Files that are written down -/

/-- What stands at a place of a tree. -/
inductive Node where
  | missing
  | directory
  | file (bytes : List UInt8)
  | refused (fault : SystemFault)
  deriving DecidableEq, Repr

/-- The files and directories of a tree, by the parts of their paths from its root; what leads to
one of them is a directory too. -/
structure Tree where
  entries : List (List String × Node)
  /-- The directory that relative paths start from. -/
  here : List String
  deriving DecidableEq, Repr

/-- A tree of files and directories by their names in the directory that relative paths start from,
which itself goes by no name; a directory has no bytes. -/
def Tree.ofNames (names : List (String × Option (List UInt8))) : Tree where
  entries := names.map fun (name, bytes) => ("" :: partsOf name.toList, bytes.elim .directory .file)
  here := [""]

def Tree.node (tree : Tree) (place : List String) : Node :=
  match tree.entries.find? fun (path, _) => path = place with
  | some (_, node) => node
  | none =>
    if place.isPrefixOf tree.here ∨ tree.entries.any fun (path, _) => place.isPrefixOf path then
      .directory
    else .missing

/-- The bytes at the end of a path that is followed from a directory. -/
def Tree.follow (tree : Tree) (place : List String) : List String → Except SystemFault (List UInt8)
  | [] => .error .isDirectory
  | part :: rest =>
    if part = ".." then tree.follow place.dropLast rest
    else
      match tree.node (place ++ [part]) with
      | .missing => .error .notFound
      | .directory => tree.follow (place ++ [part]) rest
      | .file bytes => if rest.isEmpty then .ok bytes else .error .notDirectory
      | .refused fault => .error fault

def Tree.bytesAt (tree : Tree) (path : Path) : Except SystemFault (List UInt8) :=
  tree.follow (if path.root = "" then tree.here else []) path.parts

def Host.ofTree (tree : Tree) : Host :=
  ⟨tree.bytesAt, fun _ => none⟩

end Files

end Brainfuck
