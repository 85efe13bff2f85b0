import Brainfuck.Text.Encoding.Fault

/-!
UTF-16 of a given byte order, read unit by unit.

A unit outside the surrogates is a character; a high surrogate and the low one after it are one
character together. Bytes that end in the middle of a unit or of a pair are at fault through their
end, and a surrogate without its other half is at fault alone.
-/

namespace Brainfuck.Text.Utf16

/-- The order of the two bytes of a unit. -/
inductive Order where
  | littleEndian
  | bigEndian
  deriving DecidableEq, Repr

def Order.codec : Order → String
  | .littleEndian => "utf-16-le"
  | .bigEndian => "utf-16-be"

def Order.unit (order : Order) (a b : UInt8) : Nat :=
  match order with
  | .littleEndian => a.toNat + 256 * b.toNat
  | .bigEndian => 256 * a.toNat + b.toNat

/-- Whether a unit is the first half of a pair. -/
def isHigh (unit : Nat) : Bool :=
  decide (0xD800 ≤ unit) && decide (unit < 0xDC00)

/-- Whether a unit is the second half of a pair. -/
def isLow (unit : Nat) : Bool :=
  decide (0xDC00 ≤ unit) && decide (unit < 0xE000)

def ofPair (high low : Nat) : Nat :=
  0x10000 + (high - 0xD800) * 0x400 + (low - 0xDC00)

/-- The characters of the bytes from `position` on, after those read already, the last first, and
perhaps the first half of a pair with its first byte. -/
def decodeFrom (order : Order) (position : Nat) (half : Option (UInt8 × Nat)) (read : List Char) :
    List UInt8 → Except DecodeFault (List Char)
  | [] =>
    match half with
    | none => .ok read.reverse
    | some (byte, _) => .error ⟨order.codec, byte, position - 2, position, .unexpectedEnd⟩
  | [last] =>
    match half with
    | none => .error ⟨order.codec, last, position, position + 1, .truncated⟩
    | some (byte, _) => .error ⟨order.codec, byte, position - 2, position + 1, .unexpectedEnd⟩
  | a :: b :: rest =>
    let unit := order.unit a b
    match half with
    | some (byte, high) =>
      if isLow unit then
        decodeFrom order (position + 2) none (Char.ofNat (ofPair high unit) :: read) rest
      else .error ⟨order.codec, byte, position - 2, position, .loneHighSurrogate⟩
    | none =>
      if isHigh unit then decodeFrom order (position + 2) (some (a, unit)) read rest
      else if isLow unit then
        .error ⟨order.codec, a, position, position + 2, .loneLowSurrogate⟩
      else decodeFrom order (position + 2) none (Char.ofNat unit :: read) rest

def decode (order : Order) (bytes : List UInt8) : Except DecodeFault (List Char) :=
  decodeFrom order 0 none [] bytes

end Brainfuck.Text.Utf16
