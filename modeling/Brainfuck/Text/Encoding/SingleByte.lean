import Brainfuck.Text.Encoding.Fault

/-!
The encodings of one byte for one character.

In Latin-1 the byte is the code point, so every sequence of bytes is a text, and a text has bytes
when all of its code points are below 256. Plain ASCII has the code points below 128 only.
-/

namespace Brainfuck.Text.SingleByte

def decodeLatin (bytes : List UInt8) : List Char :=
  bytes.map fun byte => Char.ofNat byte.toNat

def decodeAscii (bytes : List UInt8) : Except DecodeFault (List Char) :=
  match bytes.zipIdx.find? fun (byte, _) => 0x80 ≤ byte with
  | none => .ok (decodeLatin bytes)
  | some (byte, position) => .error ⟨"ascii", byte, position, position + 1, .notSevenBit⟩

/-- Whether a character has a byte in Latin-1. -/
def hasByte (c : Char) : Bool :=
  c.toNat < 256

/-- The bytes of a text in Latin-1. -/
def encodeLatin (text : List Char) : Except EncodeFault (List UInt8) :=
  let front := text.takeWhile hasByte
  match text.dropWhile hasByte with
  | [] => .ok (front.map fun c => UInt8.ofNat c.toNat)
  | c :: rest =>
    let faulty := (rest.takeWhile (!hasByte ·)).length + 1
    .error ⟨c, front.length, front.length + faulty⟩

end Brainfuck.Text.SingleByte
