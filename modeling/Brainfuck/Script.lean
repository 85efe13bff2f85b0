import Brainfuck.Console

/-!
Scripted streams: a console whose behaviour is written down in advance.

The reader answers its first calls from a list of replies and later ones with the bytes of the
input, one at a time, and with no bytes once the input is used up. The writer keeps what is
written and refuses every write after a given number of them. Both count the calls made on them.
-/

namespace Brainfuck

/-- What a scripted reader answers to one call. -/
inductive Script.Reply where
  | answer (bytes : Option (List UInt8))
  | refuse (fault : Fault)
  deriving DecidableEq, Repr

structure Script where
  /-- The replies to the next reads. -/
  replies : List Script.Reply := []
  /-- The bytes read one by one when the replies are used up. -/
  input : List UInt8 := []
  readFault : Option Fault := none
  /-- How many writes are accepted, and what the next one is refused with. -/
  writeFault : Option (Nat × Fault) := none
  flushFault : Option Fault := none
  written : Array UInt8 := #[]
  /-- The number of reads, refused or not. -/
  reads : Nat := 0
  /-- The number of flushes, refused or not. -/
  flushes : Nat := 0
  deriving Inhabited

namespace Script

/-- Streams that never refuse a call, over an input. -/
def ofInput (input : List UInt8) : Script :=
  { input }

def read (script : Script) : Except Fault (Option (List UInt8)) × Script :=
  let script := { script with reads := script.reads + 1 }
  match script.readFault with
  | some fault => (.error fault, script)
  | none =>
    match script.replies with
    | .answer bytes :: replies => (.ok bytes, { script with replies })
    | .refuse fault :: replies => (.error fault, { script with replies })
    | [] =>
      match script.input with
      | byte :: input => (.ok (some [byte]), { script with input })
      | [] => (.ok (some []), script)

/-- Whether the writer refuses the next write, and with what. -/
def refusal? (script : Script) : Option Fault :=
  match script.writeFault with
  | some (accepted, fault) => if accepted ≤ script.written.size then some fault else none
  | none => none

def write (byte : UInt8) (script : Script) : Except Fault Unit × Script :=
  match script.refusal? with
  | some fault => (.error fault, script)
  | none => (.ok (), { script with written := script.written.push byte })

def flush (script : Script) : Except Fault Unit × Script :=
  let script := { script with flushes := script.flushes + 1 }
  match script.flushFault with
  | some fault => (.error fault, script)
  | none => (.ok (), script)

def console : Console Script :=
  ⟨read, write, flush⟩

end Script

end Brainfuck
