import Brainfuck.Proofs.Observation
import Brainfuck.Proofs.Turn
import Brainfuck.Script

/-!
A run never fails of itself.

Every machine that a run comes to is sound, so its tape can be read and changed, its index names an
operator or the end, and its table has the partner of the bracket it stands at (`Machine.Safe`).
The ways out of an execution are therefore few (`Exit`): the end of the program, a source that is no
program, in which case no call was made, a move to the left of the first cell, and a call that a
stream refused. In the last case that call is the latest one, and the failure has its fault, as a
failure of the input or the output if the interpreter answers for the fault and as it is otherwise.

Both are stated over all consoles, with the calls recorded.
-/

namespace Brainfuck

/-- What holds of a machine at the start of each turn. -/
structure Machine.Safe {σ : Type} (program : Program) (machine : Machine σ) : Prop where
  index_nonneg : 0 ≤ machine.state.index
  index_le : machine.state.index ≤ program.length
  inside : machine.state.tape.Inside
  cell_le : ∀ cell ∈ machine.state.tape.cells, cell.toNat ≤ 255
  endOf?_isSome : Program.token? program.tokens machine.state.index = some .loopStart →
    (program.jumps.endOf? machine.state.index).isSome
  startOf?_isSome : Program.token? program.tokens machine.state.index = some .loopEnd →
    (program.jumps.startOf? machine.state.index).isSome

/-- The ways a run can fail, with the calls made until then. -/
inductive RunExit : RunFault → List Call → Prop
  | negativePointer {pointer count : Int} (calls : List Call) (nonneg : 0 ≤ pointer)
      (short : pointer < count) : RunExit (.tape (.negativePointer pointer count)) calls
  | input {cause : Fault} (calls : List Call) (answered : cause.isStreamFault = true) :
    RunExit (.input cause) (calls ++ [.read (.error cause)])
  | output {cause : Fault} (calls : List Call) (byte : UInt8)
      (answered : cause.isStreamFault = true) :
    RunExit (.output cause) (calls ++ [.write byte (.error cause)])
  | foreignRead {cause : Fault} (calls : List Call) (foreign : cause.isStreamFault = false) :
    RunExit (.foreign cause) (calls ++ [.read (.error cause)])
  | foreignWrite {cause : Fault} (calls : List Call) (byte : UInt8)
      (foreign : cause.isStreamFault = false) :
    RunExit (.foreign cause) (calls ++ [.write byte (.error cause)])

/-- The ways out of the execution of a source, with the calls made until then. -/
inductive Exit (source : Source) : Option Failure → List Call → Prop
  | returned (calls : List Call) : Exit source none calls
  | emptyCode (empty : source = []) : Exit source (some (.source .emptyCode)) []
  | noOperations (nonempty : source ≠ []) (blank : source.tokens = []) :
    Exit source (some (.source .noOperations)) []
  | unmatched {bracket : Bracket} {position : Nat}
      (stands : source[position]? = some bracket.token.char) :
    Exit source (some (.source (.unmatched bracket position))) []
  | run {why : RunFault} {calls : List Call} (exit : RunExit why calls) :
    Exit source (some (.run why)) calls

namespace Machine

variable {σ : Type} {program : Program}

theorem Sound.safe {machine : Machine σ} (h : machine.Sound program) (hp : program.Paired) :
    machine.Safe program := by
  have hpass : Pass program.tokens.toList [] program.jumps := pass_of_ofTokens hp
  have hindex : ((machine.state.index.toNat : Nat) : Int) = machine.state.index :=
    Int.toNat_of_nonneg h.index_nonneg
  refine ⟨h.index_nonneg, h.index_le, h.inside, fun cell _ => ?_, fun ht => ?_, fun ht => ?_⟩
  · have hlt : cell.toNat < 256 := cell.toNat_lt
    omega
  · rw [← hindex, Program.token?_ofNat, ← Array.getElem?_toList] at ht
    obtain ⟨j, hij⟩ := hpass.balanced.exists_close ht
    exact (hpass.closes.isSome_iff _).mpr ⟨_, j, hindex.symm, hij⟩
  · rw [← hindex, Program.token?_ofNat, ← Array.getElem?_toList] at ht
    obtain ⟨j, hji⟩ := hpass.balanced.exists_open ht
    exact (hpass.opens.isSome_iff _).mpr ⟨_, j, hindex.symm, hji⟩

/-! ## How a turn can fail -/

theorem runExit_ofRead {cause : Fault} (calls : List Call) :
    RunExit (.ofRead cause) (calls ++ [.read (.error cause)]) := by
  rw [RunFault.ofRead]
  split
  · next h => exact .input calls h
  · next h => exact .foreignRead calls (Bool.eq_false_iff.mpr h)

theorem runExit_ofWrite {cause : Fault} (calls : List Call) (byte : UInt8) :
    RunExit (.ofWrite cause) (calls ++ [.write byte (.error cause)]) := by
  rw [RunFault.ofWrite]
  split
  · next h => exact .output calls byte h
  · next h => exact .foreignWrite calls byte (Bool.eq_false_iff.mpr h)

theorem StepCase.runExit {console : Console σ} {tokens : List Token} {i : Nat} {tape : Tape}
    {streams : Recorded σ} {why : RunFault} {last : Machine (Recorded σ)} (hin : tape.Inside)
    (h : StepCase console.recording tokens i tape streams (.failed why last)) :
    RunExit why last.streams.calls := by
  -- the other cases of a turn do not fail
  cases h with
  | refused block hn => exact .negativePointer streams.calls hin.1 hn
  | unread ht call =>
    obtain ⟨hanswer, rfl⟩ := Prod.mk.inj call
    rw [standing, hanswer]
    exact runExit_ofRead streams.calls
  | unwritten ht hb call =>
    obtain ⟨hanswer, rfl⟩ := Prod.mk.inj call
    rw [standing, hanswer]
    exact runExit_ofWrite streams.calls _

/-- A run fails in one of the ways in which a turn can. -/
theorem Sound.runExit {console : Console σ} {machine last : Machine (Recorded σ)}
    (h : machine.Sound program) (hp : program.Paired) {bound turns : Nat} {why : RunFault}
    (hrun : Machine.runFrom console.recording program bound turns machine = .failed why last) :
    RunExit why last.streams.calls := by
  obtain ⟨here, hsound, hstep⟩ := h.exists_failed_step hp hrun
  have hcase := hsound.stepCase hp console.recording
  rw [hstep] at hcase
  exact hcase.runExit hsound.inside

end Machine

namespace Execution

variable {σ : Type} {source : Source}

theorem exit_of_program_eq_error {fault : SyntaxFault} (h : program source = .error fault) :
    Exit source (some (.source fault)) [] := by
  rw [program] at h
  split at h
  · next hempty =>
    obtain rfl := Except.error.inj h
    exact .emptyCode (List.isEmpty_iff.mp hempty)
  · next hempty =>
    rcases Program.ofSource_eq_error h with ⟨rfl, htokens⟩ | ⟨bracket, position, rfl, hstands⟩
    · exact .noOperations (fun hnil => hempty (List.isEmpty_iff.mpr hnil)) htokens
    · exact .unmatched hstands

theorem exit_of_execute? {console : Console σ} {bound : Nat} {streams : σ}
    {execution : Execution (Recorded σ)}
    (h : execute? console.recording bound source ⟨streams, []⟩ = some execution) :
    Exit source execution.failure execution.streams.calls := by
  cases end_cases h with
  | refused hprog => exact exit_of_program_eq_error hprog
  | succeeded _ _ => exact .returned _
  | failed hprog hrun =>
    exact .run ((Machine.sound_start _).runExit (program_eq_ok hprog).1 hrun)

/-- Every machine a run comes to is safe, and there are no ways out but those of `Exit`. -/
theorem execution_never_fails_of_itself (console : Console σ) (source : Source) (streams : σ) :
    (∀ prog bound machine, program source = .ok prog →
        Machine.runFor console.recording prog bound (Machine.start ⟨streams, []⟩) =
          .running machine → machine.Safe prog) ∧
      ∀ bound execution, execute? console.recording bound source ⟨streams, []⟩ = some execution →
        Exit source execution.failure execution.streams.calls := by
  refine ⟨fun prog bound machine hprog hrun => ?_, fun bound execution h => exit_of_execute? h⟩
  obtain ⟨hp, -⟩ := program_eq_ok hprog
  have hsound := (Machine.sound_start (⟨streams, []⟩ : Recorded σ)).runFrom hp console.recording bound 0
  rw [Machine.runFor] at hrun
  rw [hrun] at hsound
  exact hsound.safe hp

/-- A loop that writes until the writer refuses. -/
theorem execution_never_fails_of_itself_refused :
    (∃ prog machine, program "+[.]".toList = .ok prog ∧
      Machine.runFor Script.console.recording prog 4 (Machine.start
        ⟨{ writeFault := some (1, ⟨"OSError", "closed", .system⟩) }, []⟩) = .running machine ∧
      machine.Safe prog) ∧
    ∃ execution, execute? Script.console.recording 6 "+[.]".toList
        ⟨{ writeFault := some (1, ⟨"OSError", "closed", .system⟩) }, []⟩ = some execution ∧
      execution.failure = some (.run (.output ⟨"OSError", "closed", .system⟩)) ∧
      Exit "+[.]".toList execution.failure execution.streams.calls := by
  obtain ⟨hsafe, hexit⟩ := execution_never_fails_of_itself Script.console "+[.]".toList
    { writeFault := some (1, ⟨"OSError", "closed", .system⟩) }
  exact ⟨⟨_, _, rfl, rfl, hsafe _ 4 _ rfl rfl⟩, ⟨_, rfl, rfl, hexit 6 _ rfl⟩⟩

end Execution

end Brainfuck
