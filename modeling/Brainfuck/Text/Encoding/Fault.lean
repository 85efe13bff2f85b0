import Brainfuck.Text.Quoted

/-!
Faults of encoded text: bytes that are not text in an encoding, and text that has no bytes in it.

Either fault names the first stretch that is at fault and why. A stretch of one byte or one
character is shown; of a longer one only the ends are given.
-/

namespace Brainfuck.Text

/-- Why bytes are not text. -/
inductive DecodeFault.Reason where
  | invalidStart
  /-- The byte after the stretch cannot go on the character it begins. -/
  | invalidContinuation
  | unexpectedEnd
  | truncated
  /-- The second half of a pair without the first. -/
  | loneLowSurrogate
  /-- The first half of a pair without the second. -/
  | loneHighSurrogate
  | notSevenBit
  /-- Any other reason, in the words of the decoder. -/
  | other (words : String)
  deriving DecidableEq, Repr

def DecodeFault.Reason.text : DecodeFault.Reason → String
  | .invalidStart => "invalid start byte"
  | .invalidContinuation => "invalid continuation byte"
  | .unexpectedEnd => "unexpected end of data"
  | .truncated => "truncated data"
  | .loneLowSurrogate => "illegal encoding"
  | .loneHighSurrogate => "illegal UTF-16 surrogate"
  | .notSevenBit => "ordinal not in range(128)"
  | .other words => words

/-- The bytes from `start` up to `stop` are not text; `byte` is the first of them. -/
structure DecodeFault where
  codec : String
  byte : UInt8
  start : Nat
  stop : Nat
  reason : DecodeFault.Reason
  deriving DecidableEq, Repr

namespace DecodeFault

def message (fault : DecodeFault) : String :=
  let stretch :=
    if fault.stop = fault.start + 1 then
      "byte 0x" ++ String.ofList (hex 2 fault.byte.toNat) ++ " in position " ++ toString fault.start
    else "bytes in position " ++ toString fault.start ++ "-" ++ toString (fault.stop - 1)
  "'" ++ fault.codec ++ "' codec can't decode " ++ stretch ++ ": " ++ fault.reason.text

end DecodeFault

/-- The characters from `start` up to `stop` have no byte; `char` is the first of them. -/
structure EncodeFault where
  char : Char
  start : Nat
  stop : Nat
  deriving DecidableEq, Repr

namespace EncodeFault

def message (fault : EncodeFault) : String :=
  let stretch :=
    if fault.stop = fault.start + 1 then
      "character '" ++ String.ofList (codeEscape fault.char.toNat) ++ "' in position "
        ++ toString fault.start
    else "characters in position " ++ toString fault.start ++ "-" ++ toString (fault.stop - 1)
  "'latin-1' codec can't encode " ++ stretch ++ ": ordinal not in range(256)"

end EncodeFault

end Brainfuck.Text
