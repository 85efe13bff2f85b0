import Std.Data.TreeMap
import Brainfuck.Token

/-!
The pairing of loop starts with loop ends.

A jump table gives for each loop start the index of its loop end and for each loop end the index
of its loop start. It is made in one pass over the tokens that keeps the open loop starts on a
stack, the innermost on top: a loop end closes the one on top. The pass fails at a loop end that
finds the stack empty, and at the end of the tokens if the stack is not empty; it is then the
innermost open loop start that is reported.
-/

namespace Brainfuck

/-- The two brackets of a loop. -/
inductive Bracket where
  | opening
  | closing
  deriving DecidableEq, Repr

/-- A bracket without a partner, and its index among the tokens. -/
structure Unmatched where
  bracket : Bracket
  index : Nat
  deriving DecidableEq, Repr

/-- The partner of every loop start and of every loop end, by token index. -/
structure JumpTable where
  closes : Std.TreeMap Int Int
  opens : Std.TreeMap Int Int

namespace JumpTable

def empty : JumpTable :=
  ⟨∅, ∅⟩

/-- The loop end that belongs to the loop start at an index. -/
def endOf? (table : JumpTable) (start : Int) : Option Int :=
  table.closes[start]?

/-- The loop start that belongs to the loop end at an index. -/
def startOf? (table : JumpTable) (stop : Int) : Option Int :=
  table.opens[stop]?

def pair (table : JumpTable) (start stop : Int) : JumpTable :=
  ⟨table.closes.insert start stop, table.opens.insert stop start⟩

def size (table : JumpTable) : Nat :=
  table.closes.size

/-- The table of given pairs: starts with their ends, and ends with their starts. Nothing makes
the two lists agree, and of two entries for one index the later counts. -/
def ofPairs (closes opens : List (Int × Int)) : JumpTable :=
  ⟨closes.foldl (fun m (start, stop) => m.insert start stop) ∅,
   opens.foldl (fun m (stop, start) => m.insert stop start) ∅⟩

/-- The pass from the token at `index` on, with the open loop starts found so far on a stack. -/
def pairFrom (index : Nat) (stack : List Nat) (table : JumpTable) :
    List Token → Except Unmatched JumpTable
  | [] =>
    match stack with
    | [] => .ok table
    -- the outer ones have no partner either; the innermost is the one to mend first
    | innermost :: _ => .error ⟨.opening, innermost⟩
  | .loopStart :: rest => pairFrom (index + 1) (index :: stack) table rest
  | .loopEnd :: rest =>
    match stack with
    | [] => .error ⟨.closing, index⟩
    | start :: outer => pairFrom (index + 1) outer (table.pair start index) rest
  | _ :: rest => pairFrom (index + 1) stack table rest

/-- The jump table of a token sequence, or the bracket that has no partner. -/
def ofTokens (tokens : List Token) : Except Unmatched JumpTable :=
  pairFrom 0 [] empty tokens

@[simp] theorem endOf?_empty (start : Int) : empty.endOf? start = none := by
  simp [empty, endOf?]

@[simp] theorem startOf?_empty (stop : Int) : empty.startOf? stop = none := by
  simp [empty, startOf?]

theorem endOf?_pair (table : JumpTable) (start stop i : Int) :
    (table.pair start stop).endOf? i = if start = i then some stop else table.endOf? i := by
  simp [endOf?, pair, Std.TreeMap.getElem?_insert]

theorem startOf?_pair (table : JumpTable) (start stop i : Int) :
    (table.pair start stop).startOf? i = if stop = i then some start else table.startOf? i := by
  simp [startOf?, pair, Std.TreeMap.getElem?_insert]

end JumpTable

namespace Unmatched

/-- The position to report for a bracket without a partner: the one listed for its index, or the
index itself when no positions are listed. It is `none` when the list is too short. -/
def position? (u : Unmatched) (positions : List Int) : Option Int :=
  if positions.isEmpty then some u.index else positions[u.index]?

end Unmatched

end Brainfuck
