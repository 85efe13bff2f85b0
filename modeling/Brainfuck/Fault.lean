import Brainfuck.Report.Kind

/-!
Faults of the streams a program reads from and writes to.

A stream refuses a call with a fault: the name it goes by, the text that describes it, and the
families it belongs to. The families decide who answers for it. The interpreter takes faults of the
system and of the value family as failures of its own input or output; every other fault passes
through it unchanged. A stream may also raise a failure of the interpreter itself, or one derived
from it: the command line answers for those by their notice, wherever they come from. When the
output is flushed after a run, it answers for faults of the system too.

A fault may belong to any number of the families. More than that is not kept of it: neither where it
was raised nor what else it carries.
-/

namespace Brainfuck

/-- The families a fault belongs to. -/
structure Fault.Family where
  ofSystem : Bool := false
  /-- The call was not acceptable to the stream, which may be closed. -/
  ofValue : Bool := false
  /-- The stream has no such call at all. -/
  ofLack : Bool := false
  /-- The notice of a failure of the interpreter itself. -/
  notice? : Option Notice := none
  deriving DecidableEq, Repr

namespace Fault.Family

def system : Family := { ofSystem := true }

def value : Family := { ofValue := true }

/-- Both at once: the stream does not support the call. -/
def systemAndValue : Family := { ofSystem := true, ofValue := true }

/-- A failure of the interpreter itself. -/
def own (notice : Notice) : Family := { notice? := some notice }

def other : Family := {}

end Fault.Family

/-- The refusal of a stream call. -/
structure Fault where
  name : String
  text : String
  family : Fault.Family
  deriving DecidableEq, Repr

namespace Fault

/-- Whether the interpreter answers for the fault as a failure of its input or output. -/
def isStreamFault (fault : Fault) : Bool :=
  fault.family.ofSystem || fault.family.ofValue

def isSystemFault (fault : Fault) : Bool :=
  fault.family.ofSystem

/-- Whether it does not matter that a text which is only shown was refused with the fault. -/
def isOverlooked (fault : Fault) : Bool :=
  fault.family.ofSystem || fault.family.ofLack

def notice? (fault : Fault) : Option Notice :=
  fault.family.notice?

theorem isStreamFault_of_isSystemFault {fault : Fault} (h : fault.isSystemFault = true) :
    fault.isStreamFault = true :=
  Bool.or_eq_true_iff.mpr (.inl h)

end Fault

end Brainfuck
