import Brainfuck.Execution
import Brainfuck.Proofs.Turn
import Brainfuck.Script

/-!
Streams that work, and runs on them.

What can be told of streams that refuse nothing is a `Transcript`: the input that is not yet read
and the output so far. `Transcript.console` reads and writes on transcripts, and `Working` is a
console whose calls do to the transcript of its streams what that console does. So a run on working
streams is, seen by its transcripts, the run on transcripts (`Working.runFrom_map`,
`Working.execute?_map`), and what one kind of working streams shows another one shows too.

A run on working streams fails only when the pointer is to go left of the first cell, and there is
a report on every failure (`Working.exists_report`).
-/

namespace Brainfuck

/-! ## The same run on other streams -/

section Map

variable {σ τ : Type}

def Machine.map (f : σ → τ) (machine : Machine σ) : Machine τ :=
  ⟨machine.state, f machine.streams⟩

def Step.map (f : σ → τ) : Step σ → Step τ
  | .stopped machine => .stopped (machine.map f)
  | .failed why machine => .failed why (machine.map f)
  | .running machine => .running (machine.map f)

def Machine.Progress.map (f : σ → τ) : Progress σ → Progress τ
  | .succeeded turns machine => .succeeded turns (machine.map f)
  | .failed why machine => .failed why (machine.map f)
  | .running machine => .running (machine.map f)

def Execution.map (f : σ → τ) (execution : Execution σ) : Execution τ :=
  ⟨execution.failure, execution.log, f execution.streams⟩

theorem Machine.settle_map (f : σ → τ) (streams : σ) (effect : State.Effect) :
    (settle streams effect).map f = settle (f streams) effect := by
  cases effect <;> rfl

theorem Execution.ofProgress?_map (f : σ → τ) (program : Program) (progress : Machine.Progress σ) :
    (ofProgress? program progress).map (map f) = ofProgress? program (progress.map f) := by
  cases progress <;> rfl

end Map

/-! ## Working streams -/

/-- The input that is not yet read, and the output so far. -/
structure Transcript where
  unread : List UInt8
  written : List UInt8

/-- A read gives the next byte, or none at the end of the input, and every write is taken. -/
def Transcript.console : Console Transcript where
  read := fun ⟨unread, written⟩ => (.ok (some (unread.take 1)), ⟨unread.drop 1, written⟩)
  write := fun byte ⟨unread, written⟩ => (.ok (), ⟨unread, written ++ [byte]⟩)
  flush := fun transcript => (.ok (), transcript)

/-- Streams that work as transcripts do, as long as they serve. -/
structure Working (σ : Type) where
  console : Console σ
  Serves : σ → Prop
  transcript : σ → Transcript
  read_eq : ∀ {streams}, Serves streams →
    (console.read streams).map id transcript = Transcript.console.read (transcript streams)
  write_eq : ∀ {streams}, Serves streams → ∀ byte,
    (console.write byte streams).map id transcript =
      Transcript.console.write byte (transcript streams)
  flush_eq : ∀ {streams}, Serves streams →
    (console.flush streams).map id transcript = Transcript.console.flush (transcript streams)
  serves_read : ∀ {streams}, Serves streams → Serves (console.read streams).2
  serves_write : ∀ {streams}, Serves streams → ∀ byte, Serves (console.write byte streams).2

/-- Scripts with nothing prepared but an input. -/
def Script.working : Working Script where
  console := Script.console
  Serves := fun script => script.replies = [] ∧ script.readFault = none ∧
    script.writeFault = none ∧ script.flushFault = none
  transcript := fun script => ⟨script.input, script.written.toList⟩
  read_eq := by
    rintro ⟨replies, input, readFault, writeFault, flushFault, written, reads, flushes⟩
      ⟨rfl, rfl, rfl, rfl⟩
    cases input <;> rfl
  write_eq := by
    rintro script ⟨-, -, hwrite, -⟩ byte
    simp [console, write, refusal?, hwrite, Transcript.console]
  flush_eq := by
    rintro script ⟨-, -, -, hflush⟩
    simp [console, flush, hflush, Transcript.console]
  serves_read := by
    rintro ⟨replies, input, readFault, writeFault, flushFault, written, reads, flushes⟩
      ⟨rfl, rfl, rfl, rfl⟩
    cases input <;> exact ⟨rfl, rfl, rfl, rfl⟩
  serves_write := by
    rintro ⟨replies, input, readFault, writeFault, flushFault, written, reads, flushes⟩
      ⟨rfl, rfl, rfl, rfl⟩ byte
    exact ⟨rfl, rfl, rfl, rfl⟩

theorem Script.serves_ofInput (input : List UInt8) : Script.working.Serves (Script.ofInput input) :=
  ⟨rfl, rfl, rfl, rfl⟩

namespace Working

variable {σ : Type} (working : Working σ)

open Machine in
theorem step_map {machine : Machine σ} (h : working.Serves machine.streams) (program : Program) :
    (machine.step working.console program).map working.transcript =
      (machine.map working.transcript).step Transcript.console program := by
  obtain ⟨state, streams⟩ := machine
  cases ht : state.turn program with
  | stop here => simp only [step, ht, Machine.map, Step.map]
  | settled effect => simp only [step, ht, Machine.map, settle_map]
  | read here =>
    simp only [step, ht, Machine.map, ← working.read_eq h]
    rcases working.console.read streams with ⟨cause | answer, after⟩
    · rfl
    · exact settle_map _ _ _
  | write byte here =>
    simp only [step, ht, Machine.map, ← working.write_eq h]
    rcases working.console.write byte streams with ⟨cause | _, after⟩ <;> rfl

open Machine in
theorem serves_step {machine : Machine σ} (h : working.Serves machine.streams)
    (program : Program) :
    working.Serves (machine.step working.console program).machine.streams := by
  obtain ⟨state, streams⟩ := machine
  cases ht : state.turn program with
  | stop here =>
    simp only [step, ht]
    exact h
  | settled effect =>
    simp only [step, ht]
    cases effect <;> exact h
  | read here =>
    have hserves := working.serves_read h
    simp only [step, ht]
    rcases hread : working.console.read streams with ⟨cause | answer, after⟩
    · rwa [hread] at hserves
    · rw [hread] at hserves
      simp only
      cases here.receive (Console.byteOf answer) <;> exact hserves
  | write byte here =>
    have hserves := working.serves_write h byte
    simp only [step, ht]
    rcases hwrite : working.console.write byte streams with ⟨cause | _, after⟩ <;>
      rwa [hwrite] at hserves

open Machine in
/-- A run on working streams is the run on their transcript, and the streams serve to its end. -/
theorem runFrom_map {machine : Machine σ} (h : working.Serves machine.streams) (program : Program)
    (bound turns : Nat) :
    (runFrom working.console program bound turns machine).map working.transcript =
        runFrom Transcript.console program bound turns (machine.map working.transcript) ∧
      working.Serves (runFrom working.console program bound turns machine).machine.streams := by
  induction bound generalizing machine turns with
  | zero => exact ⟨rfl, h⟩
  | succ bound ih =>
    have hstep := working.step_map h program
    have hserves := working.serves_step h program
    rw [runFrom, runFrom, ← hstep]
    cases hs : machine.step working.console program with
    | stopped last =>
      rw [hs] at hserves
      exact ⟨rfl, hserves⟩
    | failed why last =>
      rw [hs] at hserves
      exact ⟨rfl, hserves⟩
    | running next =>
      rw [hs] at hserves
      exact ih hserves (turns + 1)

theorem execute?_map {streams : σ} (h : working.Serves streams) (bound : Nat) (source : Source) :
    (Execution.execute? working.console bound source streams).map (.map working.transcript) =
      Execution.execute? Transcript.console bound source (working.transcript streams) := by
  simp only [Execution.execute?]
  cases Execution.program source with
  | error fault => rfl
  | ok program =>
    have hstart : working.Serves (Machine.start streams).streams := h
    have hrun := (working.runFrom_map hstart program bound 0).1
    simp only [Execution.ofProgress?_map, Machine.runFor, hrun]
    rfl

theorem serves_execute? {streams : σ} (h : working.Serves streams) {bound : Nat} {source : Source}
    {execution : Execution σ}
    (he : Execution.execute? working.console bound source streams = some execution) :
    working.Serves execution.streams := by
  have hstart : working.Serves (Machine.start streams).streams := h
  have hserves := fun program => (working.runFrom_map hstart program bound 0).2
  cases Execution.end_cases he with
  | refused _ => exact h
  | @succeeded program _ _ _ hrun =>
    have hlast := hserves program
    rw [← Machine.runFor, hrun] at hlast
    exact hlast
  | @failed program _ _ _ hrun =>
    have hlast := hserves program
    rw [← Machine.runFor, hrun] at hlast
    exact hlast

/-- Where an execution on working streams ends, the one on other working streams ends in the same
way. -/
theorem exists_execution_beside {τ : Type} (other : Working τ) {streams : σ} {others : τ}
    (hs : working.Serves streams) (ho : other.Serves others)
    (ht : other.transcript others = working.transcript streams) {bound : Nat} {source : Source}
    {execution : Execution σ}
    (he : Execution.execute? working.console bound source streams = some execution) :
    ∃ beside, Execution.execute? other.console bound source others = some beside ∧
      other.Serves beside.streams ∧ beside.failure = execution.failure ∧
      other.transcript beside.streams = working.transcript execution.streams := by
  have hmap := working.execute?_map hs bound source
  rw [he, ← ht, ← other.execute?_map ho bound source] at hmap
  obtain ⟨beside, hbeside, hsame⟩ := Option.map_eq_some_iff.mp hmap.symm
  exact ⟨beside, hbeside, other.serves_execute? ho hbeside, congrArg Execution.failure hsame,
    congrArg Execution.streams hsame⟩

theorem execute?_eq_none_beside {τ : Type} (other : Working τ) {streams : σ} {others : τ}
    (hs : working.Serves streams) (ho : other.Serves others)
    (ht : other.transcript others = working.transcript streams) {bound : Nat} {source : Source}
    (he : Execution.execute? working.console bound source streams = none) :
    Execution.execute? other.console bound source others = none := by
  have hmap := working.execute?_map hs bound source
  rw [he, ← ht, ← other.execute?_map ho bound source] at hmap
  exact Option.map_eq_none_iff.mp hmap.symm

end Working

/-! ## Failures on working streams -/

theorem Machine.StepCase.negativePointer {tokens : List Token} {i : Nat} {tape : Tape}
    {transcript : Transcript} {why : RunFault} {last : Machine Transcript}
    (h : StepCase Transcript.console tokens i tape transcript (.failed why last)) :
    ∃ pointer count, why = .tape (.negativePointer pointer count) := by
  cases h with
  | refused _ _ => exact ⟨_, _, rfl⟩
  | unread _ call => nomatch (Prod.mk.inj call).1
  | unwritten _ _ call => nomatch (Prod.mk.inj call).1

theorem Execution.exists_report {bound : Nat} {source : Source} {transcript : Transcript}
    {execution : Execution Transcript} {failure : Failure}
    (h : execute? Transcript.console bound source transcript = some execution)
    (hf : execution.failure = some failure) : ∃ report, failure.report? source = some report := by
  cases end_cases h with
  | refused _ =>
    obtain rfl := Option.some.inj hf
    exact ⟨_, rfl⟩
  | succeeded _ _ => contradiction
  | failed hprog hrun =>
    obtain rfl := Option.some.inj hf
    have hp := (program_eq_ok hprog).1
    obtain ⟨here, hsound, hstep⟩ := (Machine.sound_start transcript).exists_failed_step hp hrun
    have hcase := hsound.stepCase hp Transcript.console
    rw [hstep] at hcase
    obtain ⟨pointer, count, rfl⟩ := hcase.negativePointer
    exact ⟨_, rfl⟩

theorem Working.exists_report {σ : Type} (working : Working σ) {streams : σ}
    (hs : working.Serves streams) {bound : Nat} {source : Source} {execution : Execution σ}
    {failure : Failure}
    (he : Execution.execute? working.console bound source streams = some execution)
    (hf : execution.failure = some failure) : ∃ report, failure.report? source = some report := by
  have hmap := working.execute?_map hs bound source
  rw [he] at hmap
  exact Execution.exists_report hmap.symm hf

end Brainfuck
