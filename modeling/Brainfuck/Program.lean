import Brainfuck.Offset
import Brainfuck.Program.JumpTable
import Brainfuck.Source.Place

/-!
Programs: the operators of a source and the table of its loops.

`Program.ofSource` drops every comment character, refuses a source without operators, and pairs
the brackets. A bracket without a partner is reported by its position in the source, where the
comments count.

`runLength?` counts the equal operators from an index on; the machine applies such a run at once.
The index may be negative, and is then counted from the end; the count goes on by index, so a run
that starts behind the front may go on from there.
-/

namespace Brainfuck

inductive SyntaxFault where
  | emptyCode
  | noOperations
  /-- The bracket at a position of the source has no partner. -/
  | unmatched (bracket : Bracket) (position : Int)
  deriving DecidableEq, Repr

namespace Source

/-- The operators of a source, each with its position. -/
def operators (source : Source) : List (Token × Nat) :=
  source.zipIdx.filterMap fun (c, position) => (Token.ofChar? c).map (·, position)

def tokens (source : Source) : List Token :=
  source.filterMap Token.ofChar?

theorem map_fst_operators (source : Source) : (operators source).map Prod.fst = tokens source := by
  have h : ∀ (n : Nat), ((source.zipIdx n).filterMap fun (c, position) =>
      (Token.ofChar? c).map (·, position)).map Prod.fst = source.filterMap Token.ofChar? := by
    induction source with
    | nil => simp
    | cons c rest ih =>
      intro n
      cases hc : Token.ofChar? c with
      | none => simp [List.zipIdx_cons, hc, ih]
      | some t => simp [List.zipIdx_cons, hc, ih]
  exact h 0

end Source

/-- A token sequence with a jump table. -/
structure Program where
  tokens : Array Token
  jumps : JumpTable

namespace Program

def length (program : Program) : Nat :=
  program.tokens.size

/-- The operator at a signed index. -/
def token? (tokens : Array Token) (index : Int) : Option Token :=
  match Offset.place? tokens.size index with
  | some i => tokens[i]?
  | none => none

@[simp] theorem token?_ofNat (tokens : Array Token) (i : Nat) : token? tokens i = tokens[i]? := by
  rcases Nat.lt_or_ge i tokens.size with h | h
  · simp [token?, Offset.place?_ofNat h]
  · simp [token?, Offset.place?_ofNat_eq_none h, Array.getElem?_eq_none h]

/-- The number of operators equal to `token` from `index` on, added to those counted already. At
most `bound` of them are looked at. -/
def countEqual (tokens : Array Token) (token : Token) : Nat → Int → Nat → Nat
  | 0, _, count => count
  | bound + 1, index, count =>
    if index < tokens.size ∧ token? tokens index = some token then
      countEqual tokens token bound (index + 1) (count + 1)
    else count

/-- The length of the run of equal operators that begins at an index, or `none` if the index names
no operator. -/
def runLength? (tokens : Array Token) (index : Int) : Option Nat :=
  (token? tokens index).map fun token =>
    countEqual tokens token (tokens.size - index).toNat index 0

/-- The program a source writes. Only its operators count, and there must be at least one. -/
def ofSource (source : Source) : Except SyntaxFault Program :=
  let operators := source.operators
  if operators.isEmpty then .error .noOperations
  else
    let tokens := operators.map Prod.fst
    match JumpTable.ofTokens tokens with
    | .ok jumps => .ok ⟨tokens.toArray, jumps⟩
    | .error u => .error (.unmatched u.bracket ((operators.map Prod.snd).getD u.index 0))

end Program

end Brainfuck
