import Brainfuck.Text.Encoding.SingleByte
import Brainfuck.Text.Encoding.Utf16
import Brainfuck.Text.Encoding.Utf8

/-!
Encodings of program text, by name.

A name is looked up without regard to case and to how its parts are separated: it is reduced to its
letters, digits and points, with one underscore for whatever stands between two of them
(`Encoding.key`). Most encodings go by several names.

Only encodings that need nothing but the bytes are defined here. Many others are known, by tables or
by a mark of the byte order in front of the text; those are left to the host that files are read on
(`Files.Host`).
-/

namespace Brainfuck.Text

/-- An encoding a source can be read in. -/
inductive Encoding where
  | utf8
  /-- UTF-8 with a signature in front, which is dropped. -/
  | utf8Signed
  | latin
  | ascii
  | utf16 (order : Utf16.Order)
  deriving DecidableEq, Repr

namespace Encoding

/-- The letters, digits and points of a name, in lower case, with one underscore between two of
them that have anything else between them. `gap` says whether something stood in between. -/
def keyFrom (gap started : Bool) : List Char → List Char
  | [] => []
  | c :: rest =>
    if c.isAlphanum || c = '.' then
      if gap && started then '_' :: c.toLower :: keyFrom false true rest
      else c.toLower :: keyFrom false true rest
    else keyFrom true started rest

def key (name : String) : String :=
  String.ofList (keyFrom false false name.toList)

def names : List (String × Encoding) :=
  [("utf_8", .utf8), ("utf_8_sig", .utf8Signed), ("latin_1", .latin), ("ascii", .ascii),
   ("utf_16_le", .utf16 .littleEndian), ("utf_16_be", .utf16 .bigEndian)]

def aliases : List (Encoding × List String) :=
  [(.utf8, ["u8", "utf", "utf8", "utf8_ucs2", "utf8_ucs4", "cp65001"]),
   (.latin, ["8859", "cp819", "csisolatin1", "ibm819", "iso8859", "iso8859_1", "iso_8859_1",
     "iso_8859_1_1987", "iso_ir_100", "l1", "latin", "latin1"]),
   (.ascii, ["646", "ansi_x3.4_1968", "ansi_x3_4_1968", "ansi_x3.4_1986", "cp367", "csascii",
     "ibm367", "iso646_us", "iso_646.irv_1991", "iso_ir_6", "us", "us_ascii"]),
   (.utf16 .littleEndian, ["unicodelittleunmarked", "utf_16le"]),
   (.utf16 .bigEndian, ["unicodebigunmarked", "utf_16be"])]

def ofAlias? (key : String) : Option Encoding :=
  (aliases.find? fun (_, others) => others.contains key).map Prod.fst

/-- The encoding a name stands for. A point in another name may also be written as an underscore,
one in an encoding's own name may not. -/
def ofName? (name : String) : Option Encoding :=
  let key := key name
  let spaced := String.ofList (key.toList.map fun c => if c = '.' then '_' else c)
  (ofAlias? key).or ((ofAlias? spaced).or (names.lookup key))

def decode (encoding : Encoding) (bytes : List UInt8) : Except DecodeFault (List Char) :=
  match encoding with
  | .utf8 => Utf8.decode bytes
  | .utf8Signed => Utf8.decodeSigned bytes
  | .latin => .ok (SingleByte.decodeLatin bytes)
  | .ascii => SingleByte.decodeAscii bytes
  | .utf16 order => Utf16.decode order bytes

end Encoding

end Brainfuck.Text
