import Brainfuck.Text.Encoding.Fault

/-!
UTF-8, read byte by byte.

Between characters the decoder looks at a first byte, which says how many bytes are to follow and
what range the next one must lie in; the later ones are `0x80` to `0xBF`. The ranges leave out
overlong forms, surrogates and everything past the last code point, so a byte is refused as soon as
no character begins with the bytes up to it, and the fault names those before it.
-/

namespace Brainfuck.Text.Utf8

inductive State where
  | between
  /-- Inside the character that began at `start` with `first`: `owed` bytes are to follow, the next
  between `low` and `high`, and `code` is what the bytes so far spell. -/
  | inside (start : Nat) (first : UInt8) (owed low high code : Nat)
  deriving DecidableEq, Repr

/-- What a byte between characters begins: a character of its own, or one of several bytes. -/
inductive First where
  | single (code : Nat)
  | several (owed low high code : Nat)
  | invalid
  deriving DecidableEq, Repr

def first (byte : Nat) : First :=
  if byte < 0x80 then .single byte
  else if byte < 0xC2 then .invalid
  else if byte < 0xE0 then .several 1 0x80 0xBF (byte - 0xC0)
  else if byte < 0xF0 then
    .several 2 (if byte = 0xE0 then 0xA0 else 0x80) (if byte = 0xED then 0x9F else 0xBF)
      (byte - 0xE0)
  else if byte < 0xF5 then
    .several 3 (if byte = 0xF0 then 0x90 else 0x80) (if byte = 0xF4 then 0x8F else 0xBF)
      (byte - 0xF0)
  else .invalid

def fault (byte : UInt8) (start stop : Nat) (reason : DecodeFault.Reason) : DecodeFault :=
  ⟨"utf-8", byte, start, stop, reason⟩

/-- The characters of the bytes from `position` on, after those read already, the last first. -/
def decodeFrom (position : Nat) (state : State) (read : List Char) :
    List UInt8 → Except DecodeFault (List Char)
  | [] =>
    match state with
    | .between => .ok read.reverse
    | .inside start byte .. => .error (fault byte start position .unexpectedEnd)
  | byte :: rest =>
    match state with
    | .between =>
      match first byte.toNat with
      | .single code => decodeFrom (position + 1) .between (Char.ofNat code :: read) rest
      | .several owed low high code =>
        decodeFrom (position + 1) (.inside position byte owed low high code) read rest
      | .invalid => .error (fault byte position (position + 1) .invalidStart)
    | .inside start lead owed low high code =>
      if low ≤ byte.toNat ∧ byte.toNat ≤ high then
        let code := code * 64 + (byte.toNat - 0x80)
        if owed ≤ 1 then decodeFrom (position + 1) .between (Char.ofNat code :: read) rest
        else decodeFrom (position + 1) (.inside start lead (owed - 1) 0x80 0xBF code) read rest
      else .error (fault lead start position .invalidContinuation)

def decode (bytes : List UInt8) : Except DecodeFault (List Char) :=
  decodeFrom 0 .between [] bytes

/-- The signature some writers put in front of a text. -/
def signature : List UInt8 := [0xEF, 0xBB, 0xBF]

/-- The text of bytes that may begin with the signature. The signature is no part of the text, a
text that is nothing but the beginning of one is empty, and positions count from behind it. -/
def decodeSigned (bytes : List UInt8) : Except DecodeFault (List Char) :=
  if bytes.isPrefixOf signature then .ok []
  else if signature.isPrefixOf bytes then decode (bytes.drop signature.length)
  else decode bytes

end Brainfuck.Text.Utf8
