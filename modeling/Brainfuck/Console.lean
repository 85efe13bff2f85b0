import Brainfuck.Fault

/-!
The console of a program: the stream it reads from and the stream it writes to.

A console is three calls on a state of the caller's choosing. The state holds whatever the streams
are; what a call answers may depend on it in any way, so a statement about every console is a
statement about every behaviour of the streams. A read is asked for one byte and may answer with
any number of bytes, or with nothing at all.
-/

namespace Brainfuck

/-- The calls of a reader and a writer, over a state that holds both. -/
structure Console (σ : Type) where
  read : σ → Except Fault (Option (List UInt8)) × σ
  write : UInt8 → σ → Except Fault Unit × σ
  flush : σ → Except Fault Unit × σ

namespace Console

/-- The byte a read stands for: the first it answered with, or zero if there is none. -/
def byteOf : Option (List UInt8) → UInt8
  | some (byte :: _) => byte
  | some [] => 0
  | none => 0

end Console

end Brainfuck
