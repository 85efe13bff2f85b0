import Brainfuck.Evaluation
import Brainfuck.Proofs.Interruption
import Brainfuck.Proofs.Working

/-!
An input is as good as one that goes on with zeros without end, and only what is read of it matters.

A read past the end of the input counts as a zero, so what a program is given is the sequence
`padded input`. Two inputs that begin with the same bytes in this sense (`AgreeUpTo`) cannot be told
apart by a program that has not read further: a turn makes the same of both (`step_withInput`), although
the one reader may be at the end of its input while the other still has zeros to give, and so does a
run (`runFrom_withInput`), whether it ends or not.

`Execution.SameOn` says that a source comes to the same on two inputs, in the run, in the execution
and in the output it is evaluated for, and `Execution.ReadsPadded` when it does.
-/

namespace Brainfuck

/-- The byte at an index of an input that goes on with zeros. -/
def padded (input : List UInt8) (i : Nat) : UInt8 :=
  input[i]?.getD 0

/-- The inputs begin with the same `count` bytes, with zeros behind an input that is shorter. -/
def AgreeUpTo (count : Nat) (first second : List UInt8) : Prop :=
  ∀ i, i < count → padded first i = padded second i

instance (count : Nat) (first second : List UInt8) : Decidable (AgreeUpTo count first second) :=
  inferInstanceAs (Decidable (∀ i, i < count → padded first i = padded second i))

/-! ## Inputs that agree -/

theorem AgreeUpTo.of_le {small large : Nat} {first second : List UInt8}
    (h : AgreeUpTo large first second) (hle : small ≤ large) : AgreeUpTo small first second :=
  fun i hi => h i (Nat.lt_of_lt_of_le hi hle)

theorem padded_append_zeros (input : List UInt8) (zeros i : Nat) :
    padded (input ++ List.replicate zeros 0) i = padded input i := by
  rw [padded, padded, List.getElem?_append]
  split
  · rfl
  · next h =>
    rw [List.getElem?_eq_none (Nat.le_of_not_lt h), List.getElem?_replicate]
    split <;> rfl

theorem agreeUpTo_of_take {count : Nat} {first second : List UInt8}
    (h : second.take count = first.take count) : AgreeUpTo count first second := by
  intro i hi
  have hget := congrArg (·[i]?) h
  simp only [List.getElem?_take, if_pos hi] at hget
  rw [padded, padded, hget]

theorem byteOf_take_drop (input : List UInt8) (n : Nat) :
    Console.byteOf (some ((input.drop n).take 1)) = padded input n := by
  rw [padded, ← List.head?_drop]
  cases input.drop n <;> rfl

/-! ## Scripts over an input -/

namespace Script

/-- The script refuses nothing, and what has been read of the input is gone from it. -/
structure Over (input : List UInt8) (script : Script) : Prop where
  serves : Script.working.Serves script
  input_eq : script.input = input.drop script.reads

/-- The script with another input, of which as much has been read. -/
def withInput (input : List UInt8) (script : Script) : Script :=
  { script with input := input.drop script.reads }

/-- The script after one more read of an input. -/
def afterRead (input : List UInt8) (script : Script) : Script :=
  { script with reads := script.reads + 1, input := input.drop (script.reads + 1) }

namespace Over

variable {input : List UInt8} {script : Script}

theorem ofInput (input : List UInt8) : Over input (Script.ofInput input) :=
  ⟨serves_ofInput input, rfl⟩

theorem withInput (h : Over input script) (other : List UInt8) :
    Over other (script.withInput other) :=
  ⟨h.serves, rfl⟩

theorem read_eq (h : Over input script) :
    script.read = (.ok (some ((input.drop script.reads).take 1)), script.afterRead input) := by
  obtain ⟨⟨hreplies, hread, -, -⟩, hinput⟩ := h
  have htail : input.drop (script.reads + 1) = script.input.tail := by
    rw [hinput, List.tail_drop]
  rw [afterRead, htail, ← hinput]
  simp only [read, hreplies, hread]
  cases hs : script.input with
  | nil => simp
  | cons byte rest => simp

theorem write_eq (h : Over input script) (byte : UInt8) :
    script.write byte = (.ok (), { script with written := script.written.push byte }) := by
  obtain ⟨-, -, hwrite, -⟩ := h.serves
  simp only [write, refusal?, hwrite]

end Over

end Script

/-! ## Runs on inputs that agree -/

namespace Machine

open Script (Over)

variable {first second : List UInt8} {machine : Machine Script}

theorem over_step (h : Over first machine.streams) (program : Program) :
    Over first (machine.step Script.console program).machine.streams ∧
      machine.streams.reads ≤ (machine.step Script.console program).machine.streams.reads := by
  obtain ⟨state, script⟩ := machine
  cases ht : state.turn program with
  | stop here =>
    simp only [step, ht]
    exact ⟨h, Nat.le_refl _⟩
  | settled effect =>
    simp only [step, ht, streams_settle]
    exact ⟨h, Nat.le_refl _⟩
  | read here =>
    simp only [step, ht, Script.console, h.read_eq, streams_settle]
    exact ⟨⟨h.serves, rfl⟩, Nat.le_succ _⟩
  | write byte here =>
    simp only [step, ht, Script.console, h.write_eq]
    exact ⟨⟨h.serves, h.input_eq⟩, Nat.le_refl _⟩

/-- A turn is the same on two inputs that agree on what has been read after it. -/
theorem step_withInput (h : Over first machine.streams) (program : Program)
    (hagree : AgreeUpTo (machine.step Script.console program).machine.streams.reads first second) :
    (machine.map (Script.withInput second)).step Script.console program =
      (machine.step Script.console program).map (Script.withInput second) := by
  obtain ⟨state, script⟩ := machine
  cases ht : state.turn program with
  | stop here => simp only [step, ht, Machine.map, Step.map]
  | settled effect => simp only [step, ht, Machine.map, settle_map]
  | read here =>
    -- the answers may differ, a zero from the one reader and nothing from the other
    simp only [step, ht, Script.console, h.read_eq, streams_settle] at hagree
    have hbyte := hagree script.reads (Nat.lt_succ_self _)
    simp only [step, ht, Machine.map, Script.console, h.read_eq, (h.withInput second).read_eq,
      settle_map, byteOf_take_drop, hbyte]
    rfl
  | write byte here =>
    simp only [step, ht, Machine.map, Script.console, h.write_eq, (h.withInput second).write_eq]
    rfl

theorem reads_runFrom_le (h : Over first machine.streams) (program : Program) (bound turns : Nat) :
    machine.streams.reads ≤
      (runFrom Script.console program bound turns machine).machine.streams.reads := by
  induction bound generalizing machine turns with
  | zero => exact Nat.le_refl _
  | succ bound ih =>
    obtain ⟨hover, hreads⟩ := over_step h program
    rw [runFrom]
    cases hs : machine.step Script.console program with
    | stopped last =>
      rw [hs] at hreads
      exact hreads
    | failed why last =>
      rw [hs] at hreads
      exact hreads
    | running next =>
      rw [hs] at hover hreads
      exact Nat.le_trans hreads (ih hover (turns + 1))

/-- A run is the same on two inputs that agree on what it has read. -/
theorem runFrom_withInput (h : Over first machine.streams) (program : Program) (bound turns : Nat)
    (hagree : AgreeUpTo
      (runFrom Script.console program bound turns machine).machine.streams.reads first second) :
    runFrom Script.console program bound turns (machine.map (Script.withInput second)) =
      (runFrom Script.console program bound turns machine).map (Script.withInput second) := by
  induction bound generalizing machine turns with
  | zero => rfl
  | succ bound ih =>
    obtain ⟨hover, -⟩ := over_step h program
    -- what the first turn has read is read by the whole run
    have hfirst : AgreeUpTo (machine.step Script.console program).machine.streams.reads
        first second := by
      apply hagree.of_le
      rw [runFrom]
      cases hs : machine.step Script.console program with
      | stopped last => exact Nat.le_refl _
      | failed why last => exact Nat.le_refl _
      | running next =>
        rw [hs] at hover
        exact reads_runFrom_le hover program bound (turns + 1)
    rw [runFrom, runFrom, step_withInput h program hfirst]
    rw [runFrom] at hagree
    cases hs : machine.step Script.console program with
    | stopped last => rfl
    | failed why last => rfl
    | running next =>
      rw [hs] at hover hagree
      exact ih hover (turns + 1) hagree

end Machine

/-! ## Executions -/

namespace Execution

/-- The number of reads that the execution of a source on an input has made after so many turns. -/
def readsAfter (source : Source) (input : List UInt8) (bound : Nat) : Nat :=
  match program source with
  | .error _ => 0
  | .ok prog =>
    (Machine.runFor Script.console prog bound
      (Machine.start (Script.ofInput input))).machine.streams.reads

/-- After so many turns a source has come to the same on two inputs. -/
structure SameOn (source : Source) (first second : List UInt8) (bound : Nat) : Prop where
  /-- The runs stand at the same index with the same tape, output and number of reads, and if one
  has ended, both have in the same way. Only what is left of the input is another. -/
  run : ∀ prog, program source = .ok prog →
    Machine.runFor Script.console prog bound (Machine.start (Script.ofInput second)) =
      (Machine.runFor Script.console prog bound (Machine.start (Script.ofInput first))).map
        (Script.withInput second)
  /-- So are the executions, with their failures and logs. -/
  execution : execute? Script.console bound source (Script.ofInput second) =
    (execute? Script.console bound source (Script.ofInput first)).map
      (map (Script.withInput second))
  evaluation : Evaluation.ofSource? bound source (.bytes second) =
    Evaluation.ofSource? bound source (.bytes first)

/-- A source reads its input as one that goes on with zeros, and depends on what it reads alone. -/
structure ReadsPadded (source : Source) (input : List UInt8) : Prop where
  /-- Another input comes to the same as long as it agrees on what has been read. -/
  agreeing : ∀ other bound, AgreeUpTo (readsAfter source input bound) input other →
    SameOn source input other bound
  /-- So zeros may be put behind the input, -/
  appended : ∀ zeros bound, SameOn source input (input ++ List.replicate zeros 0) bound
  /-- and zeros at its end may be cut. -/
  cut : ∀ front zeros, input = front ++ List.replicate zeros 0 →
    ∀ bound, SameOn source input front bound
  /-- If no more than `total` bytes are ever read, those that follow may be any. -/
  unread : ∀ other total, (∀ bound, readsAfter source input bound ≤ total) →
    other.take total = input.take total → ∀ bound, SameOn source input other bound

variable {source : Source} {first second : List UInt8} {bound : Nat}

theorem runFor_ofInput {prog : Program}
    (h : AgreeUpTo (Machine.runFor Script.console prog bound
      (Machine.start (Script.ofInput first))).machine.streams.reads first second) :
    Machine.runFor Script.console prog bound (Machine.start (Script.ofInput second)) =
      (Machine.runFor Script.console prog bound (Machine.start (Script.ofInput first))).map
        (Script.withInput second) := by
  have hover : Script.Over first (Machine.start (Script.ofInput first)).streams := .ofInput first
  exact Machine.runFrom_withInput hover prog bound 0 h

theorem sameOn_of_agree (h : AgreeUpTo (readsAfter source first bound) first second) :
    SameOn source first second bound := by
  have hrun : ∀ prog, program source = .ok prog →
      Machine.runFor Script.console prog bound (Machine.start (Script.ofInput second)) =
        (Machine.runFor Script.console prog bound (Machine.start (Script.ofInput first))).map
          (Script.withInput second) := by
    intro prog hprog
    simp only [readsAfter, hprog] at h
    exact runFor_ofInput h
  have hexecution : execute? Script.console bound source (Script.ofInput second) =
      (execute? Script.console bound source (Script.ofInput first)).map
        (map (Script.withInput second)) := by
    simp only [execute?]
    cases hprog : program source with
    | error fault => rfl
    | ok prog =>
      simp only [hrun prog hprog, ofProgress?_map]
  refine ⟨hrun, hexecution, ?_⟩
  simp only [Evaluation.ofSource?, Evaluation.Input.toBytes, hexecution, Option.map_map]
  rfl

/-- Every source reads every input as one that goes on with zeros, of which only what it reads
matters. -/
theorem input_read_as_padded (source : Source) (input : List UInt8) :
    ReadsPadded source input where
  agreeing _ _ := sameOn_of_agree
  appended zeros bound := by
    apply sameOn_of_agree
    intro i _
    exact (padded_append_zeros input zeros i).symm
  cut front zeros hinput bound := by
    apply sameOn_of_agree
    intro i _
    rw [hinput]
    exact padded_append_zeros front zeros i
  unread other total hreads htake bound :=
    sameOn_of_agree ((agreeUpTo_of_take htake).of_le (hreads bound))

/-- A copying loop stops at a zero, so it comes to the same if the zero and all behind it is cut. -/
theorem input_read_as_padded_copy :
    readsAfter ",[.,]".toList [65, 0, 66] 9 = 2 ∧ AgreeUpTo 2 [65, 0, 66] [65] ∧
      SameOn ",[.,]".toList [65, 0, 66] [65] 9 := by
  have hreads : readsAfter ",[.,]".toList [65, 0, 66] 9 = 2 := by decide
  have hagree : AgreeUpTo 2 [65, 0, 66] [65] := by decide
  refine ⟨hreads, hagree, ?_⟩
  exact (input_read_as_padded ",[.,]".toList [65, 0, 66]).agreeing [65] 9 (hreads ▸ hagree)

end Execution

end Brainfuck
