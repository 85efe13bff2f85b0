import Brainfuck.Machine.Lemmas
import Brainfuck.Proofs.Observation
import Brainfuck.Proofs.Turn
import Brainfuck.Script

/-!
A stream that begins to refuse cuts a run short and changes nothing else.

`Console.refusing` answers as another console does until so many calls of one direction have been
made, and refuses the later calls of that direction with a fault. A run on it makes the same turns
as a run on the other console as long as no turn makes one call too many (`step_refusing_eq`), and
the turn that does makes it fails where it stands (`step_refusing_of_spent`).

So there are two cases, and `CutShort` says what each comes to. If the run on the other console
never makes that call, the two runs are the same, whether they end or not. If it does, then at the
operator that makes it the run on the refusing console has made the same calls, it stands at the
same index with the same tape, and there it fails.

The console is any, so a read may have failed before, and a writer that never refuses is a case.
-/

namespace Brainfuck

/-! ## The two directions -/

/-- The directions in which a program calls its console. -/
inductive Direction where
  | reading
  | writing
  deriving DecidableEq

namespace Direction

/-- The operator that calls the console in a direction. -/
def token : Direction → Token
  | .reading => .input
  | .writing => .output

/-- The failure of a run whose call in a direction is refused with a fault the interpreter answers
for. -/
def answered : Direction → Fault → RunFault
  | .reading, cause => .input cause
  | .writing, cause => .output cause

/-- The failure of a run whose call in a direction is refused. -/
def failure : Direction → Fault → RunFault
  | .reading, cause => .ofRead cause
  | .writing, cause => .ofWrite cause

theorem failure_of_isStreamFault (direction : Direction) {cause : Fault}
    (h : cause.isStreamFault = true) : direction.failure cause = direction.answered cause := by
  cases direction <;> simp [failure, answered, RunFault.ofRead, RunFault.ofWrite, h]

theorem failure_of_foreign (direction : Direction) {cause : Fault}
    (h : cause.isStreamFault = false) : direction.failure cause = .foreign cause := by
  cases direction <;> simp [failure, RunFault.ofRead, RunFault.ofWrite, h]

end Direction

namespace Call

/-- The direction in which a call was made; a flush is no call of the program. -/
def direction? : Call → Option Direction
  | .read _ => some .reading
  | .write _ _ => some .writing
  | .flush _ => none

/-- The same call, refused. -/
def refused (cause : Fault) : Call → Call
  | .read _ => .read (.error cause)
  | .write byte _ => .write byte (.error cause)
  | .flush _ => .flush (.error cause)

/-- The byte that a call has written. -/
def written? : Call → Option UInt8
  | .write byte (.ok ()) => some byte
  | _ => none

theorem written?_refused (cause : Fault) (call : Call) : (call.refused cause).written? = none := by
  cases call <;> rfl

end Call

namespace Recorded

variable {σ : Type}

/-- The number of calls made in a direction, refused or not. -/
def made (streams : Recorded σ) (direction : Direction) : Nat :=
  streams.calls.countP (·.direction? = some direction)

/-- The bytes written. -/
def output (streams : Recorded σ) : List UInt8 :=
  streams.calls.filterMap Call.written?

/-- The streams after a call that left them as they were. -/
def record (streams : Recorded σ) (call : Call) : Recorded σ :=
  { streams with calls := streams.calls ++ [call] }

end Recorded

/-- The console that answers and records as another one does, and refuses every call in a direction
once `limit` of them have been made. -/
def Console.refusing {σ : Type} (console : Console σ) (direction : Direction) (limit : Nat)
    (cause : Fault) : Console (Recorded σ) where
  read := fun streams =>
    if direction = .reading ∧ limit ≤ streams.made .reading then
      (.error cause, streams.record (.read (.error cause)))
    else console.recording.read streams
  write := fun byte streams =>
    if direction = .writing ∧ limit ≤ streams.made .writing then
      (.error cause, streams.record (.write byte (.error cause)))
    else console.recording.write byte streams
  flush := console.recording.flush

/-! ## The call of a turn -/

/-- The call that a turn makes on a console, with the answer, if it makes one. -/
def Turn.call? {σ : Type} (console : Console σ) (streams : σ) : Turn → Option Call
  | .read _ => some (.read (console.read streams).1)
  | .write byte _ => some (.write byte (console.write byte streams).1)
  | .stop _ | .settled _ => none

namespace State

variable {program : Program} {state here : State}

theorem turn_eq_read (h : state.turn program = .read here) :
    here = state ∧ Program.token? program.tokens state.index = some .input := by
  unfold turn at h
  split at h
  · contradiction
  · split at h
    · contradiction
    · next t ht =>
      cases t with
      | input => exact ⟨(Turn.read.inj h).symm, ht⟩
      | output =>
        simp only [emit] at h
        split at h <;> contradiction
      | _ => contradiction

theorem turn_eq_write {byte : UInt8} (h : state.turn program = .write byte here) :
    here = state ∧ Program.token? program.tokens state.index = some .output := by
  unfold turn at h
  split at h
  · contradiction
  · split at h
    · contradiction
    · next t ht =>
      cases t with
      | output =>
        simp only [emit] at h
        split at h
        · contradiction
        · exact ⟨(Turn.write.inj h).2.symm, ht⟩
      | _ => contradiction

theorem token?_of_call? {σ : Type} {console : Console σ} {streams : σ} {call : Call}
    {direction : Direction} (h : (state.turn program).call? console streams = some call)
    (hd : call.direction? = some direction) :
    Program.token? program.tokens state.index = some direction.token := by
  cases ht : state.turn program with
  | read here =>
    rw [ht] at h
    obtain rfl := Option.some.inj h
    obtain rfl := Option.some.inj hd
    exact (turn_eq_read ht).2
  | write byte here =>
    rw [ht] at h
    obtain rfl := Option.some.inj h
    obtain rfl := Option.some.inj hd
    exact (turn_eq_write ht).2
  | stop here =>
    rw [ht] at h
    contradiction
  | settled effect =>
    rw [ht] at h
    contradiction

end State

namespace Machine

variable {σ : Type} (console : Console σ) {program : Program} {machine : Machine (Recorded σ)}
  {direction : Direction} {limit : Nat} {cause : Fault}

theorem calls_step (machine : Machine (Recorded σ)) (program : Program) :
    (machine.step console.recording program).machine.streams.calls =
      machine.streams.calls ++
        ((machine.state.turn program).call? console machine.streams.streams).toList := by
  obtain ⟨state, streams⟩ := machine
  cases ht : state.turn program with
  | stop here => simp [step, ht, Step.machine, Turn.call?]
  | settled effect => simp [step, ht, streams_settle, Turn.call?]
  | read here =>
    simp only [step, ht, Console.recording, Turn.call?, Option.toList_some]
    cases (console.read streams.streams).1 with
    | error cause => rfl
    | ok answer => simp only [streams_settle]
  | write byte here =>
    simp only [step, ht, Console.recording, Turn.call?, Option.toList_some]
    cases (console.write byte streams.streams).1 with
    | error cause => rfl
    | ok _ => rfl

theorem made_step (direction : Direction) :
    (machine.step console.recording program).machine.streams.made direction =
      machine.streams.made direction +
        ((machine.state.turn program).call? console machine.streams.streams).toList.countP
          (·.direction? = some direction) := by
  rw [Recorded.made, calls_step, List.countP_append]
  rfl

theorem output_step {next : Machine (Recorded σ)}
    (h : machine.step console.recording program = .running next)
    (hall : machine.streams.output.length = machine.streams.made .writing) :
    next.streams.output.length = next.streams.made .writing := by
  have hcalls := calls_step console machine program
  rw [h] at hcalls
  simp only [Step.machine] at hcalls
  simp only [Recorded.output, Recorded.made, hcalls, List.filterMap_append, List.length_append,
    List.countP_append] at hall ⊢
  rw [hall]
  congr 1
  obtain ⟨state, streams⟩ := machine
  cases ht : state.turn program with
  | stop here => rfl
  | settled effect => rfl
  | read here => rfl
  | write byte here =>
    simp only [step, ht, Console.recording] at h
    simp only [Turn.call?]
    cases hw : (console.write byte streams.streams).1 with
    | error cause =>
      rw [hw] at h
      contradiction
    | ok _ => rfl

/-! ## One turn on the refusing console -/

/-- A turn is the same on the refusing console unless it makes a call that is refused there. -/
theorem step_refusing_eq
    (h : ∀ call, (machine.state.turn program).call? console machine.streams.streams = some call →
      call.direction? = some direction → machine.streams.made direction < limit) :
    machine.step (console.refusing direction limit cause) program =
      machine.step console.recording program := by
  obtain ⟨state, streams⟩ := machine
  cases ht : state.turn program with
  | stop here => simp only [step, ht]
  | settled effect => simp only [step, ht]
  | read here =>
    have hread : ¬ (direction = .reading ∧ limit ≤ streams.made .reading) := by
      rintro ⟨rfl, hle⟩
      rw [ht] at h
      exact Nat.not_lt.mpr hle (h _ rfl rfl)
    simp only [step, ht, Console.refusing, if_neg hread]
  | write byte here =>
    have hwrite : ¬ (direction = .writing ∧ limit ≤ streams.made .writing) := by
      rintro ⟨rfl, hle⟩
      rw [ht] at h
      exact Nat.not_lt.mpr hle (h _ rfl rfl)
    simp only [step, ht, Console.refusing, if_neg hwrite]

theorem step_refusing_of_spent {call : Call}
    (h : (machine.state.turn program).call? console machine.streams.streams = some call)
    (hd : call.direction? = some direction) (hspent : limit ≤ machine.streams.made direction) :
    machine.step (console.refusing direction limit cause) program =
      .failed (direction.failure cause)
        ⟨machine.state, machine.streams.record (call.refused cause)⟩ := by
  obtain ⟨state, streams⟩ := machine
  cases ht : state.turn program with
  | read here =>
    obtain ⟨rfl, -⟩ := State.turn_eq_read ht
    rw [ht] at h
    obtain rfl := Option.some.inj h
    obtain rfl := Option.some.inj hd
    simp only [step, ht, Console.refusing, true_and, if_pos hspent]
    rfl
  | write byte here =>
    obtain ⟨rfl, -⟩ := State.turn_eq_write ht
    rw [ht] at h
    obtain rfl := Option.some.inj h
    obtain rfl := Option.some.inj hd
    simp only [step, ht, Console.refusing, true_and, if_pos hspent]
    rfl
  | stop here =>
    rw [ht] at h
    contradiction
  | settled effect =>
    rw [ht] at h
    contradiction

/-! ## What a run has called -/

theorem calls_runFrom (machine : Machine (Recorded σ)) (program : Program) (bound turns : Nat) :
    ∃ later, (runFrom console.recording program bound turns machine).machine.streams.calls =
      machine.streams.calls ++ later := by
  induction bound generalizing machine turns with
  | zero => exact ⟨[], (List.append_nil _).symm⟩
  | succ bound ih =>
    have hcalls := calls_step console machine program
    rw [runFrom]
    cases hs : machine.step console.recording program with
    | stopped last =>
      rw [hs] at hcalls
      exact ⟨_, hcalls⟩
    | failed why last =>
      rw [hs] at hcalls
      exact ⟨_, hcalls⟩
    | running next =>
      rw [hs, Step.machine] at hcalls
      obtain ⟨later, hlater⟩ := ih next (turns + 1)
      rw [hcalls, List.append_assoc] at hlater
      exact ⟨_, hlater⟩

theorem calls_runFrom_of_le (machine : Machine (Recorded σ)) (program : Program) (turns : Nat)
    {short long : Nat} (h : short ≤ long) :
    ∃ later, (runFrom console.recording program long turns machine).machine.streams.calls =
      (runFrom console.recording program short turns machine).machine.streams.calls ++ later := by
  obtain ⟨more, rfl⟩ := Nat.exists_eq_add_of_le h
  rw [runFrom_add]
  cases runFrom console.recording program short turns machine with
  | running next => exact calls_runFrom console next program more _
  | succeeded turns last => exact ⟨[], (List.append_nil _).symm⟩
  | failed why last => exact ⟨[], (List.append_nil _).symm⟩

theorem made_runFrom_le (machine : Machine (Recorded σ)) (program : Program) (turns : Nat)
    (direction : Direction) {short long : Nat} (h : short ≤ long) :
    (runFrom console.recording program short turns machine).machine.streams.made direction ≤
      (runFrom console.recording program long turns machine).machine.streams.made direction := by
  obtain ⟨later, hlater⟩ := calls_runFrom_of_le console machine program turns h
  rw [Recorded.made, Recorded.made, hlater, List.countP_append]
  exact Nat.le_add_right _ _

theorem machine_runFrom_one (turns : Nat) :
    (runFrom console.recording program 1 turns machine).machine =
      (machine.step console.recording program).machine := by
  simp only [runFrom]
  cases machine.step console.recording program <;> rfl

theorem output_runFrom {bound turns : Nat} {here : Machine (Recorded σ)}
    (h : runFrom console.recording program bound turns machine = .running here)
    (hall : machine.streams.output.length = machine.streams.made .writing) :
    here.streams.output.length = here.streams.made .writing := by
  induction bound generalizing machine turns with
  | zero =>
    obtain rfl := Progress.running.inj h
    exact hall
  | succ bound ih =>
    rw [runFrom] at h
    cases hs : machine.step console.recording program with
    | stopped last =>
      rw [hs] at h
      contradiction
    | failed why last =>
      rw [hs] at h
      contradiction
    | running next =>
      rw [hs] at h
      exact ih h (output_step console hs hall)

/-! ## Runs on the refusing console -/

/-- A run that does not make too many calls is the same on the refusing console. -/
theorem runFrom_refusing_eq {bound turns : Nat}
    (h : (runFrom console.recording program bound turns machine).machine.streams.made direction ≤
      limit) :
    runFrom (console.refusing direction limit cause) program bound turns machine =
      runFrom console.recording program bound turns machine := by
  induction bound generalizing machine turns with
  | zero => rfl
  | succ bound ih =>
    have hone : 1 ≤ bound + 1 := Nat.le_add_left 1 bound
    have hfirst := Nat.le_trans (made_runFrom_le console machine program turns direction hone) h
    rw [machine_runFrom_one, made_step] at hfirst
    have hstep : machine.step (console.refusing direction limit cause) program =
        machine.step console.recording program := by
      apply step_refusing_eq
      intro call hcall hd
      simp [hcall, hd] at hfirst
      omega
    rw [runFrom, runFrom, hstep]
    cases hs : machine.step console.recording program with
    | stopped last => rfl
    | failed why last => rfl
    | running next =>
      simp only [runFrom, hs] at h
      exact ih h

/-- A run that makes too many calls comes to the turn that makes the first of them. -/
theorem exists_spent {long turns : Nat} (hmade : machine.streams.made direction ≤ limit)
    (h : limit < (runFrom console.recording program long turns machine).machine.streams.made
      direction) :
    ∃ n here call, runFrom console.recording program n turns machine = .running here ∧
      (here.state.turn program).call? console here.streams.streams = some call ∧
      call.direction? = some direction ∧ here.streams.made direction = limit := by
  induction long generalizing machine turns with
  | zero => exact absurd hmade (Nat.not_le.mpr h)
  | succ long ih =>
    by_cases hfirst : (machine.step console.recording program).machine.streams.made direction ≤ limit
    · rw [runFrom] at h
      cases hs : machine.step console.recording program with
      | stopped last =>
        rw [hs] at h hfirst
        exact absurd hfirst (Nat.not_le.mpr h)
      | failed why last =>
        rw [hs] at h hfirst
        exact absurd hfirst (Nat.not_le.mpr h)
      | running next =>
        rw [hs] at h hfirst
        obtain ⟨n, here, call, hrun, hcall⟩ := ih hfirst h
        refine ⟨n + 1, here, call, ?_, hcall⟩
        rw [runFrom, hs]
        exact hrun
    · -- the first turn makes the call
      rw [made_step] at hfirst
      cases hcall : (machine.state.turn program).call? console machine.streams.streams with
      | none =>
        rw [hcall] at hfirst
        exact absurd hmade hfirst
      | some call =>
        rw [hcall] at hfirst
        by_cases hd : call.direction? = some direction
        · refine ⟨0, machine, call, rfl, hcall, hd, ?_⟩
          simp [hd] at hfirst
          omega
        · simp [hd] at hfirst
          omega

/-- How the run `cut`, in which the calls of a direction are refused from number `limit + 1` on,
ends where the run `whole`, in which they are not, makes that call: after so many turns, at the
machine `here`, with the call `call`. -/
structure CutAt (program : Program) (direction : Direction) (limit : Nat) (cause : Fault)
    (whole cut : Nat → Progress (Recorded σ)) (turns : Nat) (here : Machine (Recorded σ))
    (call : Call) : Prop where
  /-- Until then the two runs are the same. -/
  same : ∀ bound, bound ≤ turns → cut bound = whole bound
  /-- Both stand at the operator that makes the call, with `limit` calls made before. -/
  reached : whole turns = .running here
  operator : Program.token? program.tokens here.state.index = some direction.token
  made_eq : here.streams.made direction = limit
  /-- The whole run goes on with the call. -/
  direction_eq : call.direction? = some direction
  goes_on : ∀ bound, turns < bound →
    ∃ later, (whole bound).machine.streams.calls = here.streams.calls ++ call :: later
  /-- The other run makes the call too and fails, with the index and the tape as they were. -/
  fails : ∀ bound, turns < bound → cut bound =
    .failed (direction.failure cause) ⟨here.state, here.streams.record (call.refused cause)⟩
  /-- If it was a write, just the first `limit` bytes of the whole run have been written. -/
  output_eq : direction = .writing → here.streams.output.length = limit ∧
    ∀ bound, turns < bound →
      (cut bound).machine.streams.output = (whole bound).machine.streams.output.take limit

/-! ## The turn that makes one call too many -/

section Spent

variable {turns : Nat} {streams : σ} {here : Machine (Recorded σ)} {call : Call}

theorem runFor_refusing_eq_of_le (cause : Fault) {bound : Nat} (hbound : bound ≤ turns)
    (hrun : runFor console.recording program turns (start ⟨streams, []⟩) = .running here)
    (hmade : here.streams.made direction = limit) :
    runFor (console.refusing direction limit cause) program bound (start ⟨streams, []⟩) =
      runFor console.recording program bound (start ⟨streams, []⟩) := by
  apply runFrom_refusing_eq
  have hle := made_runFrom_le console (start ⟨streams, []⟩) program 0 direction hbound
  rw [← runFor, ← runFor, hrun] at hle
  exact Nat.le_trans hle (Nat.le_of_eq hmade)

theorem calls_runFor_of_lt {bound : Nat} (hbound : turns < bound)
    (hrun : runFor console.recording program turns (start ⟨streams, []⟩) = .running here)
    (hcall : (here.state.turn program).call? console here.streams.streams = some call) :
    ∃ later, (runFor console.recording program bound (start ⟨streams, []⟩)).machine.streams.calls =
      here.streams.calls ++ call :: later := by
  obtain ⟨later, hlater⟩ :=
    calls_runFrom_of_le console (start ⟨streams, []⟩) program 0 (Nat.succ_le_of_lt hbound)
  refine ⟨later, ?_⟩
  rw [runFor] at hrun ⊢
  rw [hlater, Nat.succ_eq_add_one, runFrom_add, hrun]
  simp only [Progress.resume]
  rw [machine_runFrom_one, calls_step, hcall, List.append_assoc]
  rfl

theorem runFor_refusing_of_lt (cause : Fault) {bound : Nat} (hbound : turns < bound)
    (hrun : runFor console.recording program turns (start ⟨streams, []⟩) = .running here)
    (hcall : (here.state.turn program).call? console here.streams.streams = some call)
    (hd : call.direction? = some direction) (hmade : here.streams.made direction = limit) :
    runFor (console.refusing direction limit cause) program bound (start ⟨streams, []⟩) =
      .failed (direction.failure cause) ⟨here.state, here.streams.record (call.refused cause)⟩ := by
  obtain ⟨more, rfl⟩ := Nat.exists_eq_add_of_lt hbound
  have hturns := runFor_refusing_eq_of_le console cause (Nat.le_refl turns) hrun hmade
  rw [hrun, runFor] at hturns
  rw [runFor, Nat.add_assoc, runFrom_add, hturns]
  simp only [Progress.resume, runFrom]
  rw [step_refusing_of_spent console hcall hd (Nat.le_of_eq hmade.symm)]

end Spent

/-- A run that makes too many calls is cut at the first of them. -/
theorem exists_cutAt (cause : Fault) {long : Nat} {streams : σ}
    (h : limit < (runFor console.recording program long (start ⟨streams, []⟩)).machine.streams.made
      direction) :
    ∃ turns here call, CutAt program direction limit cause
      (runFor console.recording program · (start ⟨streams, []⟩))
      (runFor (console.refusing direction limit cause) program · (start ⟨streams, []⟩))
      turns here call := by
  obtain ⟨turns, here, call, hrun, hcall, hd, hmade⟩ :=
    exists_spent console (Nat.zero_le limit) h
  refine ⟨turns, here, call, ?_⟩
  constructor
  case same =>
    intro bound hbound
    exact runFor_refusing_eq_of_le console cause hbound hrun hmade
  case reached => exact hrun
  case operator => exact State.token?_of_call? hcall hd
  case made_eq => exact hmade
  case direction_eq => exact hd
  case goes_on =>
    intro bound hbound
    exact calls_runFor_of_lt console hbound hrun hcall
  case fails =>
    intro bound hbound
    exact runFor_refusing_of_lt console cause hbound hrun hcall hd hmade
  case output_eq =>
    rintro rfl
    have hlength : here.streams.output.length = limit := by
      rw [output_runFrom console hrun rfl, hmade]
    refine ⟨hlength, ?_⟩
    intro bound hbound
    obtain ⟨later, hlater⟩ := calls_runFor_of_lt console hbound hrun hcall
    have hwhole : (runFor console.recording program bound (start ⟨streams, []⟩)).machine.streams.output
        = here.streams.output ++ (call :: later).filterMap Call.written? := by
      rw [Recorded.output, hlater, List.filterMap_append]
      rfl
    have hcut : (here.streams.record (call.refused cause)).output = here.streams.output := by
      simp [Recorded.output, Recorded.record, Call.written?_refused]
    rw [runFor_refusing_of_lt console cause hbound hrun hcall hd hmade, hwhole,
      List.take_append_of_le_length (Nat.le_of_eq hlength.symm),
      List.take_of_length_le (Nat.le_of_eq hlength)]
    exact hcut

end Machine

namespace Execution

variable {σ : Type}

/-- What becomes of the execution of a source when the streams refuse the calls of a direction from
number `limit + 1` on. -/
structure CutShort (console : Console σ) (direction : Direction) (limit : Nat) (cause : Fault)
    (source : Source) (prog : Program) (streams : σ) : Prop where
  /-- A run that makes no such call stays as it is, whether it ends or not. -/
  kept : (∀ bound, (Machine.runFor console.recording prog bound
        (Machine.start ⟨streams, []⟩)).machine.streams.made direction ≤ limit) →
    ∀ bound, Machine.runFor (console.refusing direction limit cause) prog bound
          (Machine.start ⟨streams, []⟩) =
        Machine.runFor console.recording prog bound (Machine.start ⟨streams, []⟩) ∧
      execute? (console.refusing direction limit cause) bound source ⟨streams, []⟩ =
        execute? console.recording bound source ⟨streams, []⟩
  /-- A run that makes such a call fails there. -/
  cut : (∃ bound, limit < (Machine.runFor console.recording prog bound
        (Machine.start ⟨streams, []⟩)).machine.streams.made direction) →
    ∃ turns here call, Machine.CutAt prog direction limit cause
        (Machine.runFor console.recording prog · (Machine.start ⟨streams, []⟩))
        (Machine.runFor (console.refusing direction limit cause) prog ·
          (Machine.start ⟨streams, []⟩)) turns here call ∧
      ∀ bound, turns < bound →
        execute? (console.refusing direction limit cause) bound source ⟨streams, []⟩ =
          some ⟨some (.run (direction.failure cause)), [programRecord prog],
            here.streams.record (call.refused cause)⟩
  /-- The failure is one of the input or the output if the interpreter answers for the fault, and
  otherwise the fault itself. -/
  answered : cause.isStreamFault = true → direction.failure cause = direction.answered cause
  foreign : cause.isStreamFault = false → direction.failure cause = .foreign cause

/-- Streams that begin to refuse cut an execution short and change nothing else. -/
theorem refusal_cuts_short (console : Console σ) (direction : Direction) (limit : Nat)
    (cause : Fault) {source : Source} {prog : Program} (h : program source = .ok prog)
    (streams : σ) : CutShort console direction limit cause source prog streams where
  kept hfew bound := by
    have hrun : Machine.runFor (console.refusing direction limit cause) prog bound
        (Machine.start ⟨streams, []⟩) =
        Machine.runFor console.recording prog bound (Machine.start ⟨streams, []⟩) :=
      Machine.runFrom_refusing_eq console (hfew bound)
    refine ⟨hrun, ?_⟩
    simp only [execute?, h, hrun]
  cut hmany := by
    obtain ⟨long, hlong⟩ := hmany
    obtain ⟨turns, here, call, hcut⟩ := Machine.exists_cutAt console cause hlong
    refine ⟨turns, here, call, hcut, ?_⟩
    intro bound hbound
    have hfails := hcut.fails bound hbound
    simp only [execute?, h, hfails]
    rfl
  answered := direction.failure_of_isStreamFault
  foreign := direction.failure_of_foreign

/-- A loop that reads and writes, on an input that does not end, with a writer that takes two
bytes. -/
theorem refusal_cuts_short_echo :
    ∃ prog, program ",[.,]".toList = .ok prog ∧
      ∃ turns here call, Machine.CutAt prog .writing 2 ⟨"OSError", "full", .system⟩
        (Machine.runFor Script.console.recording prog ·
          (Machine.start ⟨Script.ofInput [65, 66, 67, 68], []⟩))
        (Machine.runFor (Script.console.refusing .writing 2 ⟨"OSError", "full", .system⟩) prog ·
          (Machine.start ⟨Script.ofInput [65, 66, 67, 68], []⟩)) turns here call ∧
        Direction.writing.failure ⟨"OSError", "full", .system⟩ =
          .output ⟨"OSError", "full", .system⟩ := by
  have hprog : ∃ prog, program ",[.,]".toList = .ok prog := ⟨_, rfl⟩
  obtain ⟨prog, hprog⟩ := hprog
  have hcut := refusal_cuts_short Script.console .writing 2 ⟨"OSError", "full", .system⟩ hprog
    (Script.ofInput [65, 66, 67, 68])
  obtain ⟨turns, here, call, hat, -⟩ := hcut.cut ⟨20, by obtain rfl := Except.ok.inj hprog; decide⟩
  exact ⟨prog, hprog, turns, here, call, hat, hcut.answered rfl⟩

end Execution

end Brainfuck
