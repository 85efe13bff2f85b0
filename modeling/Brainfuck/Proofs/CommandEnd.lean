import Brainfuck.Proofs.CommandSource
import Brainfuck.Proofs.Safety

/-!
How a command ends.

The streams of a command may refuse any call. A call that is refused is the last one, and the call
and the fault decide the ending (`refusalNotice?`). A read or a write that a program is refused gives
the exit code of its direction if the fault is a stream fault, and a refused flush gives that of the
output if the fault is one of the system. A stream may also refuse with a failure of the interpreter
itself; where the fault is not one of those already named, the command returns its exit code.

`Close` lists the ways to end together with the calls that were made. For a run this is an invariant
of its turns: each call it goes on from was taken (`StepCase.kept`), so a run that fails has at most
its last call refused (`RunEnd`). What a command answers for, and what escapes it, is read off the
list (`Accounted`). Besides faults of no family, two things escape: a flush refused by a fault that
is not one of the system, and a source file that cannot be read for a reason outside the file. Its
encoding is unknown, its path or encoding holds a null character, one of the two was dropped, or
the fault is neither one of the system nor one of decoding.
-/

namespace Brainfuck

/-! ## Refused calls -/

/-- Whether a call flushes the output. -/
def Call.isFlush : Call → Bool
  | .flush _ => true
  | .read _ | .write _ _ => false

/-- The fault that a call was refused with. -/
def Call.refusal? : Call → Option Fault
  | .read (.error cause) | .write _ (.error cause) | .flush (.error cause) => some cause
  | .read (.ok _) | .write _ (.ok _) | .flush (.ok _) => none

theorem Call.exists_of_isFlush {call : Call} (h : call.isFlush = true) :
    ∃ answer, call = .flush answer := by
  cases call with
  | flush answer => exact ⟨answer, rfl⟩
  | _ => contradiction

theorem Call.flush_of_refused {answer : Except Fault Unit} {cause : Fault}
    (h : (Call.flush answer).refusal? = some cause) : answer = .error cause := by
  cases answer with
  | ok _ => contradiction
  | error fault => rw [Option.some.inj h]

/-- None of the calls was refused. -/
def Taken (calls : List Call) : Prop :=
  ∀ call ∈ calls, call.refusal? = none

theorem taken_nil : Taken [] := fun _ h => absurd h List.not_mem_nil

theorem Taken.concat {calls : List Call} (h : Taken calls) {call : Call}
    (hcall : call.refusal? = none) : Taken (calls ++ [call]) := by
  intro made hmade
  rcases List.mem_append.mp hmade with hmade | hmade
  · exact h made hmade
  · rwa [List.mem_singleton.mp hmade]

theorem Taken.not_refused {calls : List Call} (h : Taken calls) {call : Call} {cause : Fault}
    (hcall : call ∈ calls) (hrefused : call.refusal? = some cause) : False := by
  rw [h call hcall] at hrefused
  contradiction

theorem Taken.eq_of_refused {before : List Call} (h : Taken before) {last call : Call}
    {cause : Fault} (hcall : call ∈ before ++ [last]) (hrefused : call.refusal? = some cause) :
    call = last := by
  rcases List.mem_append.mp hcall with hcall | hcall
  · exact (h.not_refused hcall hrefused).elim
  · exact List.mem_singleton.mp hcall

/-! ## The calls of a run -/

/-- The ways in which a run fails: by itself, with all calls taken, or of its last call. -/
inductive RunEnd : RunFault → List Call → Prop
  | negativePointer {pointer count : Int} {calls : List Call} (taken : Taken calls) :
    RunEnd (.tape (.negativePointer pointer count)) calls
  | read {cause : Fault} {before : List Call} (taken : Taken before) :
    RunEnd (.ofRead cause) (before ++ [.read (.error cause)])
  | write {byte : UInt8} {cause : Fault} {before : List Call} (taken : Taken before) :
    RunEnd (.ofWrite cause) (before ++ [.write byte (.error cause)])

/-- No call of the turn was refused that the turn did not fail of. -/
def Step.Kept {σ : Type} : Step (Recorded σ) → Prop
  | .stopped machine | .running machine => Taken machine.streams.calls
  | .failed why machine => RunEnd why machine.streams.calls

namespace Machine

variable {σ : Type} {program : Program}

theorem StepCase.kept {console : Console σ} {tokens : List Token} {i : Nat} {tape : Tape}
    {streams : Recorded σ} {step : Step (Recorded σ)}
    (h : StepCase console.recording tokens i tape streams step) (htaken : Taken streams.calls) :
    step.Kept := by
  cases h with
  | refused _ _ => exact .negativePointer htaken
  | read _ call =>
    obtain ⟨hanswer, rfl⟩ := Prod.mk.inj call
    exact htaken.concat (by rw [hanswer]; rfl)
  | unread _ call =>
    obtain ⟨hanswer, rfl⟩ := Prod.mk.inj call
    simp only [Step.Kept, standing, hanswer]
    exact .read htaken
  | write _ _ call =>
    obtain ⟨hanswer, rfl⟩ := Prod.mk.inj call
    exact htaken.concat (by rw [hanswer]; rfl)
  | unwritten _ _ call =>
    obtain ⟨hanswer, rfl⟩ := Prod.mk.inj call
    simp only [Step.Kept, standing, hanswer]
    exact .write htaken
  | _ => exact htaken

/-- No call of the run was refused that the run did not fail of. -/
def Progress.Kept : Progress (Recorded σ) → Prop
  | .succeeded _ machine | .running machine => Taken machine.streams.calls
  | .failed why machine => RunEnd why machine.streams.calls

theorem Sound.kept_runFrom {machine : Machine (Recorded σ)} (h : machine.Sound program)
    (hp : program.Paired) (htaken : Taken machine.streams.calls) (console : Console σ)
    (bound turns : Nat) : (Machine.runFrom console.recording program bound turns machine).Kept := by
  induction bound generalizing machine turns with
  | zero => exact htaken
  | succ bound ih =>
    have hkept := (h.stepCase hp console.recording).kept htaken
    have hstep := h.step hp console.recording
    rw [Machine.runFrom]
    cases hs : machine.step console.recording program with
    | stopped last => rwa [hs] at hkept
    | failed why last => rwa [hs] at hkept
    | running next =>
      rw [hs] at hkept hstep
      exact ih hstep hkept (turns + 1)

end Machine

/-- How an execution ends, with the calls it has made. -/
inductive ExecutionEnd : Option Failure → List Call → Prop
  | returned {calls : List Call} (taken : Taken calls) : ExecutionEnd none calls
  | source (fault : SyntaxFault) : ExecutionEnd (some (.source fault)) []
  | run {why : RunFault} {calls : List Call} (ends : RunEnd why calls) :
    ExecutionEnd (some (.run why)) calls

theorem Execution.executionEnd {σ : Type} {console : Console σ} {bound : Nat} {source : Source}
    {streams : σ} {execution : Execution (Recorded σ)}
    (h : execute? console.recording bound source ⟨streams, []⟩ = some execution) :
    ExecutionEnd execution.failure execution.streams.calls := by
  have hkept : ∀ prog : Program, program source = .ok prog →
      (Machine.runFor console.recording prog bound (Machine.start ⟨streams, []⟩)).Kept := by
    intro prog hprog
    have hsound : (Machine.start (⟨streams, []⟩ : Recorded σ)).Sound prog := Machine.sound_start _
    exact hsound.kept_runFrom (program_eq_ok hprog).1 taken_nil console bound 0
  cases end_cases h with
  | @refused fault _ => exact .source fault
  | @succeeded prog turns last hprog hrun =>
    have htaken := hkept prog hprog
    rw [hrun] at htaken
    exact .returned htaken
  | @failed prog why last hprog hrun =>
    have hends := hkept prog hprog
    rw [hrun] at hends
    exact .run hends

theorem Fault.isSystemFault_eq_false {cause : Fault} (h : cause.isStreamFault = false) :
    cause.isSystemFault = false := by
  apply eq_false_of_ne_true
  intro hsystem
  rw [isStreamFault_of_isSystemFault hsystem] at h
  contradiction

theorem SyntaxFault.exitCode_report (fault : SyntaxFault) (source : Source) :
    (fault.report source).kind.exitCode = 2 := by
  cases fault with
  | unmatched bracket position => cases bracket <;> rfl
  | _ => rfl

namespace CommandLine

variable {σ : Type}

/-! ## The ending and the calls of a command -/

/-- The notice that a command which executes a text answers with for a refused call. -/
def refusalNotice? (cause : Fault) : Call → Option Notice
  | .read _ => if cause.isStreamFault then some Kind.input.notice else cause.notice?
  | .write _ _ => if cause.isStreamFault then some Kind.output.notice else cause.notice?
  | .flush _ =>
    if cause.notice? = none ∧ cause.isSystemFault = true then some Kind.output.notice
    else cause.notice?

def noticeEnding (cause : Fault) : Option Notice → Ending
  | some notice => .returned notice.exitCode
  | none => .escaped (.run (.foreign cause))

/-- How a command ends that executes a text and whose call is refused. -/
def refusalEnding (cause : Fault) (call : Call) : Ending :=
  noticeEnding cause (refusalNotice? cause call)

theorem refusalEnding_of_notice {cause : Fault} {call : Call} {notice : Notice}
    (h : refusalNotice? cause call = some notice) :
    refusalEnding cause call = .returned notice.exitCode := by
  rw [refusalEnding, h, noticeEnding]

theorem refusalEnding_of_none {cause : Fault} {call : Call} (h : refusalNotice? cause call = none) :
    refusalEnding cause call = .escaped (.run (.foreign cause)) := by
  rw [refusalEnding, h, noticeEnding]

/-- The ways in which a command ends, with the calls it has made. -/
inductive Close (around : Environment) (words : List String) : Ending → List Call → Prop
  | halted {ending : Ending} (why : Halt around words ending) : Close around words ending []
  | shown {text : String} {calls : List Call} (planned : plan around.edition words = .show text)
      (taken : Taken calls) : Close around words (.exited 0) calls
  | unshown {text : String} {before : List Call} {byte : UInt8} {cause : Fault}
      (planned : plan around.edition words = .show text) (taken : Taken before) :
    Close around words (showEnding (.error cause)) (before ++ [.write byte (.error cause)])
  | executed {text : Source} {ending : Ending} {calls : List Call} (named : Names around words text)
      (code : ending = .returned 0 ∨ ending = .returned 2) (taken : Taken calls) :
    Close around words ending calls
  | refused {text : Source} {before : List Call} {call : Call} {cause : Fault}
      (named : Names around words text) (taken : Taken before)
      (refusal : call.refusal? = some cause) :
    Close around words (refusalEnding cause call) (before ++ [call])

theorem writeAll_recording (console : Console σ) (bytes : List UInt8) {streams : Recorded σ}
    (h : Taken streams.calls) :
    ((writeAll console.recording bytes streams).1 = .ok () ∧
        Taken (writeAll console.recording bytes streams).2.calls) ∨
      ∃ cause byte before, (writeAll console.recording bytes streams).1 = .error cause ∧
        Taken before ∧ (writeAll console.recording bytes streams).2.calls =
          before ++ [.write byte (.error cause)] := by
  induction bytes generalizing streams with
  | nil => exact .inl ⟨rfl, h⟩
  | cons byte rest ih =>
    rw [writeAll]
    rcases hwrite : console.recording.write byte streams with ⟨cause | _, after⟩
    · obtain ⟨hanswer, rfl⟩ := Prod.mk.inj hwrite
      exact .inr ⟨cause, byte, streams.calls, rfl, h, by simp only [hanswer]⟩
    · obtain ⟨hanswer, rfl⟩ := Prod.mk.inj hwrite
      exact ih (h.concat (by rw [hanswer]; rfl))

/-- How a command ends whose run has failed. -/
def runEnding (why : RunFault) : Ending :=
  match answerRun? why with
  | some (notice, _) => .returned notice.exitCode
  | none => .escaped (.run why)

theorem runEnding_foreign (cause : Fault) :
    runEnding (.foreign cause) = noticeEnding cause cause.notice? := by
  rw [runEnding, answerRun?]
  cases cause.notice? <;> rfl

theorem refusalEnding_read (cause : Fault) (answer : Except Fault (Option (List UInt8))) :
    refusalEnding cause (.read answer) = runEnding (.ofRead cause) := by
  rw [refusalEnding, refusalNotice?, RunFault.ofRead]
  split
  · rfl
  · exact (runEnding_foreign cause).symm

theorem refusalEnding_write (cause : Fault) (byte : UInt8) (answer : Except Fault Unit) :
    refusalEnding cause (.write byte answer) = runEnding (.ofWrite cause) := by
  rw [refusalEnding, refusalNotice?, RunFault.ofWrite]
  split
  · rfl
  · exact (runEnding_foreign cause).symm

theorem refusalNotice?_flush (cause : Fault) (answer : Except Fault Unit) :
    refusalNotice? cause (.flush answer) = (answerFlush? cause).map Prod.fst := by
  rw [refusalNotice?, answerFlush?]
  cases cause.notice? with
  | some notice => simp
  | none => cases cause.isSystemFault <;> rfl

section

variable {around : Environment} {words : List String} {text : Source}

theorem Names.plan_ne_show (h : Names around words text) (shown : String) :
    plan around.edition words ≠ .show shown := by
  obtain ⟨origin, settings, hplan, -⟩ := names_iff.mp h
  rw [hplan]
  exact Plan.noConfusion

theorem close_of_run (named : Names around words text) {why : RunFault} {calls : List Call}
    (h : RunEnd why calls) : Close around words (runEnding why) calls := by
  cases h with
  | negativePointer taken => exact .executed named (.inr rfl) taken
  | @read cause before taken =>
    rw [← refusalEnding_read cause (.error cause)]
    exact .refused named taken rfl
  | @write byte cause before taken =>
    rw [← refusalEnding_write cause byte (.error cause)]
    exact .refused named taken rfl

theorem close_of_flush (named : Names around words text) {console : Console σ}
    {streams after : Recorded σ} {cause : Fault} (h : Taken streams.calls)
    (call : console.recording.flush streams = (.error cause, after)) :
    Close around words (refusalEnding cause (.flush (.error cause))) after.calls := by
  obtain ⟨hanswer, rfl⟩ := Prod.mk.inj call
  simp only [hanswer]
  exact .refused named h rfl

/-- After an execution the command flushes the output at most, and that may be refused. -/
theorem Conclusion.close {console : Console σ} {execution : Execution (Recorded σ)}
    {ending : Ending} {after : Recorded σ} {failure : Option Failure} {calls : List Call}
    (named : Names around words text) (hfailure : execution.failure = failure)
    (hcalls : execution.streams.calls = calls) (hends : ExecutionEnd failure calls)
    (h : Conclusion console.recording text execution ending after) :
    Close around words ending after.calls := by
  cases h with
  | flushed succeeded call =>
    obtain rfl := hfailure.symm.trans succeeded
    obtain ⟨hanswer, rfl⟩ := Prod.mk.inj call
    cases hends with
    | returned taken =>
      rw [← hcalls] at taken
      exact .executed named (.inl rfl) (taken.concat (by rw [hanswer]; rfl))
  | unflushed succeeded call answered =>
    obtain rfl := hfailure.symm.trans succeeded
    cases hends with
    | returned taken =>
      rw [← hcalls] at taken
      have hclose := close_of_flush named taken call
      rwa [refusalEnding, refusalNotice?_flush, answered] at hclose
  | flushEscaped succeeded call unanswered =>
    obtain rfl := hfailure.symm.trans succeeded
    cases hends with
    | returned taken =>
      rw [← hcalls] at taken
      have hclose := close_of_flush named taken call
      rwa [refusalEnding, refusalNotice?_flush, unanswered] at hclose
  | @malformed fault failed =>
    obtain rfl := hfailure.symm.trans failed
    rw [hcalls]
    cases hends with
    | source _ =>
      exact .executed named (.inr (congrArg Ending.returned (fault.exitCode_report text))) taken_nil
  | answered failed answered =>
    obtain rfl := hfailure.symm.trans failed
    rw [hcalls]
    cases hends with
    | run hrun =>
      have hclose := close_of_run named hrun
      rwa [runEnding, answered] at hclose
  | unanswered failed unanswered =>
    obtain rfl := hfailure.symm.trans failed
    rw [hcalls]
    cases hends with
    | run hrun =>
      have hclose := close_of_run named hrun
      rwa [runEnding, unanswered] at hclose

theorem close_of_main? {console : Console σ} {bound : Nat} {streams : σ}
    {answer : Answer (Recorded σ)}
    (h : main? console.recording around bound words ⟨streams, []⟩ = some answer) :
    Close around words answer.ending answer.streams.calls := by
  have hcase := mainBy_cases console.recording (Execution.execute? console.recording bound) around
    words ⟨streams, []⟩
  rw [← main?_eq_mainBy, h] at hcase
  generalize hcame : some answer = came at hcase
  cases hcase with
  | @shown shown hplan =>
    obtain rfl := Option.some.inj hcame
    rcases @writeAll_recording σ console shown.toUTF8.toList ⟨streams, []⟩ taken_nil with
      ⟨hanswer, htaken⟩ | ⟨cause, byte, before, hanswer, htaken, hcalls⟩
    · rw [hanswer]
      exact .shown hplan htaken
    · rw [hanswer, hcalls]
      exact .unshown hplan htaken
  | halted why =>
    obtain rfl := Option.some.inj hcame
    exact .halted why
  | @executed origin settings text hplan hload =>
    obtain ⟨execution, hexecution, rfl⟩ := Option.map_eq_some_iff.mp hcame.symm
    exact Conclusion.close (names_iff.mpr ⟨origin, settings, hplan, hload⟩) rfl rfl
      (Execution.executionEnd hexecution)
      (conclusion_concluded _ settings around.clock text execution)

/-! ## What a command answers for -/

/-- A call was refused with a failure of the interpreter itself that has this notice, and if it was
a read or a write, the interpreter did not take the fault for a failure of the stream. -/
def OwnRefusal (calls : List Call) (notice : Notice) : Prop :=
  ∃ call ∈ calls, ∃ cause, call.refusal? = some cause ∧ cause.notice? = some notice ∧
    (call.isFlush = true ∨ cause.isStreamFault = false)

/-- What a command does not answer for: a source file that cannot be read for a reason outside the
file, and a call that is refused with a fault of none of the families that are answered for. -/
inductive Unanswered (around : Environment) (words : List String) (calls : List Call) :
    Escape → Prop
  | source {why : Escape} (halt : Halt around words (.escaped why)) :
    Unanswered around words calls why
  | call {call : Call} {cause : Fault} (executed : ∀ text, plan around.edition words ≠ .show text)
      (made : call ∈ calls) (refused : call.refusal? = some cause)
      (foreign : cause.isStreamFault = false) (notOwn : cause.notice? = none) :
    Unanswered around words calls (.run (.foreign cause))
  | flush {cause : Fault} (made : .flush (.error cause) ∈ calls)
      (foreign : cause.isSystemFault = false) (notOwn : cause.notice? = none) :
    Unanswered around words calls (.run (.foreign cause))
  | text {text : String} {byte : UInt8} {cause : Fault}
      (planned : plan around.edition words = .show text) (made : .write byte (.error cause) ∈ calls)
      (minded : cause.isOverlooked = false) : Unanswered around words calls (.run (.foreign cause))

variable {calls : List Call} {ending : Ending}

/-- A call that was refused decides the ending, and only a write can be refused where a text is
shown. -/
theorem Close.ending_eq (h : Close around words ending calls) {call : Call} {cause : Fault}
    (hcall : call ∈ calls) (hrefused : call.refusal? = some cause) :
    ((∀ text, plan around.edition words ≠ .show text) ∧ ending = refusalEnding cause call) ∨
      ∃ text byte, plan around.edition words = .show text ∧ call = .write byte (.error cause) ∧
        ending = showEnding (.error cause) := by
  cases h with
  | halted _ => exact absurd hcall List.not_mem_nil
  | shown _ taken => exact (taken.not_refused hcall hrefused).elim
  | executed _ _ taken => exact (taken.not_refused hcall hrefused).elim
  | unshown planned taken =>
    obtain rfl := taken.eq_of_refused hcall hrefused
    obtain rfl := Option.some.inj hrefused
    exact .inr ⟨_, _, planned, rfl, rfl⟩
  | refused named taken refusal =>
    obtain rfl := taken.eq_of_refused hcall hrefused
    obtain rfl := Option.some.inj (hrefused.symm.trans refusal)
    exact .inl ⟨named.plan_ne_show, rfl⟩

theorem Close.ending_of_executed (h : Close around words ending calls) {call : Call}
    {cause : Fault} (hcall : call ∈ calls) (hrefused : call.refusal? = some cause)
    (hplan : ∀ text, plan around.edition words ≠ .show text) :
    ending = refusalEnding cause call := by
  rcases h.ending_eq hcall hrefused with ⟨-, hending⟩ | ⟨text, -, hshown, -⟩
  · exact hending
  · exact absurd hshown (hplan text)

/-- No command that shows a text reads or flushes. -/
theorem Close.ending_of_not_write (h : Close around words ending calls) {call : Call}
    {cause : Fault} (hcall : call ∈ calls) (hrefused : call.refusal? = some cause)
    (hnot : ∀ byte, call ≠ .write byte (.error cause)) : ending = refusalEnding cause call := by
  rcases h.ending_eq hcall hrefused with ⟨-, hending⟩ | ⟨_, byte, -, hwrite, -⟩
  · exact hending
  · exact absurd hwrite (hnot byte)

theorem Close.ending_of_shown (h : Close around words ending calls) {text : String} {byte : UInt8}
    {cause : Fault} (hplan : plan around.edition words = .show text)
    (hcall : .write byte (.error cause) ∈ calls) : ending = showEnding (.error cause) := by
  rcases h.ending_eq hcall rfl with ⟨hnot, -⟩ | ⟨_, _, -, -, hending⟩
  · exact absurd hplan (hnot text)
  · exact hending

/-- The interpreter lets a fault pass, and if it comes of a flush it is not one of the system. -/
theorem refusalNotice?_of_passed {call : Call} {cause : Fault}
    (h : call.isFlush = true ∨ cause.isStreamFault = false)
    (hsystem : cause.notice? = none → cause.isSystemFault = false) :
    refusalNotice? cause call = cause.notice? := by
  cases call with
  | read answer => exact if_neg (Bool.eq_false_iff.mp (h.resolve_left Bool.false_ne_true))
  | write byte answer => exact if_neg (Bool.eq_false_iff.mp (h.resolve_left Bool.false_ne_true))
  | flush answer =>
    refine if_neg fun ⟨hnone, htrue⟩ => ?_
    rw [hsystem hnone] at htrue
    contradiction

theorem refusalNotice?_of_foreign {call : Call} {cause : Fault} (h : cause.isStreamFault = false) :
    refusalNotice? cause call = cause.notice? :=
  refusalNotice?_of_passed (.inr h) fun _ => Fault.isSystemFault_eq_false h

theorem refusalNotice?_of_notice {call : Call} {cause : Fault} {notice : Notice}
    (hnotice : cause.notice? = some notice)
    (hpassed : call.isFlush = true ∨ cause.isStreamFault = false) :
    refusalNotice? cause call = some notice := by
  have hsystem : cause.notice? = none → cause.isSystemFault = false := by
    intro hnone
    exact nomatch hnotice.symm.trans hnone
  rw [refusalNotice?_of_passed hpassed hsystem, hnotice]

theorem refusalNotice?_of_streamFault {cause : Fault} (h : cause.isStreamFault = true) :
    (∀ answer, refusalNotice? cause (.read answer) = some Kind.input.notice) ∧
      ∀ byte answer, refusalNotice? cause (.write byte answer) = some Kind.output.notice :=
  ⟨fun _ => if_pos h, fun _ _ => if_pos h⟩

theorem refusalNotice?_of_systemFault {cause : Fault} (hnone : cause.notice? = none)
    (hsystem : cause.isSystemFault = true) (answer : Except Fault Unit) :
    refusalNotice? cause (.flush answer) = some Kind.output.notice :=
  if_pos ⟨hnone, hsystem⟩

/-- A refusal is answered for by an exit code, one of the five or that of a failure of the
interpreter, or it escapes. -/
theorem refusalEnding_cases (hplan : ∀ text, plan around.edition words ≠ .show text) {call : Call}
    {cause : Fault} (hmade : call ∈ calls) (hrefused : call.refusal? = some cause) :
    (∃ code, refusalEnding cause call = .returned code ∧
        ((code = 3 ∨ code = 4) ∨ ∃ notice, OwnRefusal calls notice ∧ notice.exitCode = code)) ∨
      refusalEnding cause call = .escaped (.run (.foreign cause)) ∧
        Unanswered around words calls (.run (.foreign cause)) := by
  by_cases hpassed : call.isFlush = true ∨ cause.isStreamFault = false
  · cases hnotice : cause.notice? with
    | some notice =>
      have hown : OwnRefusal calls notice := ⟨call, hmade, cause, hrefused, hnotice, hpassed⟩
      have hending := refusalEnding_of_notice (refusalNotice?_of_notice hnotice hpassed)
      exact .inl ⟨notice.exitCode, hending, .inr ⟨notice, hown, rfl⟩⟩
    | none =>
      cases hforeign : cause.isStreamFault with
      | false =>
        refine .inr ⟨refusalEnding_of_none ?_, .call hplan hmade hrefused hforeign hnotice⟩
        rw [refusalNotice?_of_foreign hforeign, hnotice]
      | true =>
        -- a stream fault that passes is one of a flush
        obtain ⟨answer, rfl⟩ := Call.exists_of_isFlush (hpassed.resolve_right (by simp [hforeign]))
        obtain rfl := Call.flush_of_refused hrefused
        cases hsystem : cause.isSystemFault with
        | true =>
          have hanswered := refusalNotice?_of_systemFault hnotice hsystem (.error cause)
          exact .inl ⟨4, refusalEnding_of_notice hanswered, .inl (.inr rfl)⟩
        | false =>
          refine .inr ⟨refusalEnding_of_none ?_, .flush hmade hsystem hnotice⟩
          rw [refusalNotice?_of_passed hpassed fun _ => hsystem, hnotice]
  · obtain ⟨hunflushed, hforeign⟩ := not_or.mp hpassed
    obtain ⟨hread, hwrite⟩ := refusalNotice?_of_streamFault (eq_true_of_ne_false hforeign)
    cases call with
    | read answer => exact .inl ⟨3, refusalEnding_of_notice (hread answer), .inl (.inl rfl)⟩
    | write byte answer =>
      exact .inl ⟨4, refusalEnding_of_notice (hwrite byte answer), .inl (.inr rfl)⟩
    | flush answer => exact absurd rfl hunflushed

theorem Close.exits (h : Close around words ending calls) :
    (∃ code, (ending = .returned code ∨ ending = .exited code) ∧
        ((0 ≤ code ∧ code ≤ 4) ∨ ∃ notice, OwnRefusal calls notice ∧ notice.exitCode = code)) ∨
      ∃ why, ending = .escaped why ∧ Unanswered around words calls why := by
  cases h with
  | halted halt =>
    cases halt with
    | rejected _ => exact .inl ⟨1, .inr rfl, .inl (by decide)⟩
    | refused _ => exact .inl ⟨1, .inl rfl, .inl (by decide)⟩
    | unreadable _ _ _ => exact .inl ⟨1, .inl rfl, .inl (by decide)⟩
    | unanswered hplan hread hfile => exact .inr ⟨_, rfl, .source (.unanswered hplan hread hfile)⟩
    | droppedPath hplan => exact .inr ⟨_, rfl, .source (.droppedPath hplan)⟩
    | droppedEncoding hplan => exact .inr ⟨_, rfl, .source (.droppedEncoding hplan)⟩
  | shown _ _ => exact .inl ⟨0, .inr rfl, .inl (by decide)⟩
  | @unshown text before byte cause planned _ =>
    rw [showEnding]
    cases hminded : cause.isOverlooked with
    | true => exact .inl ⟨0, .inr rfl, .inl (by decide)⟩
    | false => exact .inr ⟨_, rfl, .text planned List.mem_concat_self hminded⟩
  | executed _ code _ =>
    rcases code with rfl | rfl
    · exact .inl ⟨0, .inl rfl, .inl (by decide)⟩
    · exact .inl ⟨2, .inl rfl, .inl (by decide)⟩
  | @refused text before call cause named _ refusal =>
    have hmade : call ∈ before ++ [call] := List.mem_concat_self
    rcases refusalEnding_cases named.plan_ne_show hmade refusal with
      ⟨code, hcode, hknown⟩ | ⟨hescaped, hunanswered⟩
    · exact .inl ⟨code, .inl hcode, hknown.imp_left fun hstream => by omega⟩
    · exact .inr ⟨_, hescaped, hunanswered⟩

section

variable {console : Console σ} {bound : Nat} {streams : σ} {answer : Answer (Recorded σ)}

/-- A command that halts has no more calls and no other ending, whatever the streams are. -/
theorem Halt.answer_eq {ending : Ending} (h : Halt around words ending)
    (hmain : main? console.recording around bound words ⟨streams, []⟩ = some answer) :
    answer.ending = ending ∧ answer.streams.calls = [] := by
  obtain ⟨diagnostics, hhalted⟩ := h.main?_eq console.recording bound ⟨streams, []⟩
  obtain rfl := Option.some.inj (hmain.symm.trans hhalted)
  exact ⟨rfl, rfl⟩

theorem escaped_of_unanswered {why : Escape}
    (h : main? console.recording around bound words ⟨streams, []⟩ = some answer)
    (hwhy : Unanswered around words answer.streams.calls why) : answer.ending = .escaped why := by
  have hclose := close_of_main? h
  cases hwhy with
  | source halt => exact (halt.answer_eq h).1
  | call hplan hcall hcause hforeign hnone =>
    rw [hclose.ending_of_executed hcall hcause hplan]
    exact refusalEnding_of_none ((refusalNotice?_of_foreign hforeign).trans hnone)
  | flush hcall hforeign hnone =>
    rw [hclose.ending_of_not_write hcall rfl (fun _ => Call.noConfusion)]
    exact refusalEnding_of_none ((refusalNotice?_of_passed (.inl rfl) fun _ => hforeign).trans hnone)
  | text hplan hcall hminded =>
    rw [hclose.ending_of_shown hplan hcall]
    exact if_neg (Bool.eq_false_iff.mp hminded)

end

end

/-- What has become of a command that has ended, by what it answers for. -/
structure Accounted (around : Environment) (words : List String) (answer : Answer (Recorded σ)) :
    Prop where
  /-- What it does not answer for escapes, and nothing else does. -/
  escaped_iff : ∀ why,
    answer.ending = .escaped why ↔ Unanswered around words answer.streams.calls why
  /-- In all other cases there is an exit code, one of the five, or that of a failure of the
  interpreter which a stream refused with. -/
  exits : (∀ why, ¬ Unanswered around words answer.streams.calls why) →
    ∃ code, (answer.ending = .returned code ∨ answer.ending = .exited code) ∧
      ((0 ≤ code ∧ code ≤ 4) ∨ ∃ notice, OwnRefusal answer.streams.calls notice ∧ notice.exitCode = code)
  /-- A file that the system does not open, or that is not text, is found out before any call. -/
  unreadable : ∀ path encoding settings fault,
    plan around.edition words = .run (.file (.text path) (.text encoding)) settings →
    around.read path encoding = .error fault → fault.isFileFault = true →
    answer.ending = .returned 1 ∧ answer.streams.calls = []
  read : ∀ cause, .read (.error cause) ∈ answer.streams.calls → cause.isStreamFault = true →
    answer.ending = .returned 3
  write : ∀ byte cause, .write byte (.error cause) ∈ answer.streams.calls →
    cause.isStreamFault = true → (∀ text, plan around.edition words ≠ .show text) →
    answer.ending = .returned 4
  flush : ∀ cause, .flush (.error cause) ∈ answer.streams.calls → cause.isSystemFault = true →
    cause.notice? = none → answer.ending = .returned 4
  own : ∀ notice, OwnRefusal answer.streams.calls notice →
    (∀ text, plan around.edition words ≠ .show text) → answer.ending = .returned notice.exitCode
  /-- That a text which is only shown is refused does not matter if the fault is overlooked. -/
  shown : ∀ text byte cause, plan around.edition words = .show text →
    .write byte (.error cause) ∈ answer.streams.calls → cause.isOverlooked = true →
    answer.ending = .exited 0

/-- A command that ends is accounted for, whatever the words and the streams are and however files
are read. -/
theorem ends_accounted_for (console : Console σ) (around : Environment) (bound : Nat)
    (words : List String) (streams : σ) {answer : Answer (Recorded σ)}
    (h : main? console.recording around bound words ⟨streams, []⟩ = some answer) :
    Accounted around words answer := by
  have hclose := close_of_main? h
  constructor
  case escaped_iff =>
    intro why
    refine ⟨fun hescaped => ?_, escaped_of_unanswered h⟩
    rcases hclose.exits with ⟨code, hcode, -⟩ | ⟨why', hending, hunanswered⟩
    · rw [hescaped] at hcode
      rcases hcode with hcode | hcode <;> contradiction
    · obtain rfl := Ending.escaped.inj (hescaped.symm.trans hending)
      exact hunanswered
  case exits =>
    intro hnone
    rcases hclose.exits with hcode | ⟨why, -, hwhy⟩
    · exact hcode
    · exact absurd hwhy (hnone why)
  case unreadable =>
    intro path encoding settings fault hplan hread hfile
    have halt : Halt around words (.returned argumentError) := .unreadable hplan hread hfile
    exact halt.answer_eq h
  case read =>
    intro cause hcall hstream
    rw [hclose.ending_of_not_write hcall rfl (fun _ => Call.noConfusion)]
    exact refusalEnding_of_notice ((refusalNotice?_of_streamFault hstream).1 _)
  case write =>
    intro byte cause hcall hstream hplan
    rw [hclose.ending_of_executed hcall rfl hplan]
    exact refusalEnding_of_notice ((refusalNotice?_of_streamFault hstream).2 _ _)
  case flush =>
    intro cause hcall hsystem hnone
    rw [hclose.ending_of_not_write hcall rfl (fun _ => Call.noConfusion)]
    exact refusalEnding_of_notice (refusalNotice?_of_systemFault hnone hsystem _)
  case own =>
    intro notice hown hplan
    obtain ⟨call, hcall, cause, hcause, hnotice, hpassed⟩ := hown
    rw [hclose.ending_of_executed hcall hcause hplan]
    exact refusalEnding_of_notice (refusalNotice?_of_notice hnotice hpassed)
  case shown =>
    intro text byte cause hplan hcall hoverlooked
    rw [hclose.ending_of_shown hplan hcall]
    exact if_pos hoverlooked

/-- A program that has ended, with an output that cannot be flushed: the system refuses. -/
theorem ends_accounted_for_flush :
    ∃ answer, main? Script.console.recording (.ofFiles .later [] (0, 0)) 2 ["+"]
        ⟨{ flushFault := some ⟨"OSError", "full", .system⟩ }, []⟩ = some answer ∧
      Accounted (.ofFiles .later [] (0, 0)) ["+"] answer ∧ answer.ending = .returned 4 := by
  obtain ⟨answer, hanswer⟩ : ∃ answer,
      main? Script.console.recording (.ofFiles .later [] (0, 0)) 2 ["+"]
        ⟨{ flushFault := some ⟨"OSError", "full", .system⟩ }, []⟩ = some answer := ⟨_, rfl⟩
  have haccounted := ends_accounted_for Script.console (.ofFiles .later [] (0, 0)) 2 ["+"] _ hanswer
  have hcalls : Call.flush (.error ⟨"OSError", "full", .system⟩) ∈ answer.streams.calls := by
    obtain rfl := Option.some.inj hanswer
    exact List.mem_singleton.mpr rfl
  exact ⟨answer, hanswer, haccounted, haccounted.flush _ hcalls rfl rfl⟩

/-- Two ways to escape, in either edition: by an encoding that is not known, and by a closed stream
when the output is flushed, although a write to it is answered for. -/
theorem unknown_encoding_and_closed_flush_escape :
    (⟨"ValueError", "closed", .value⟩ : Fault).isStreamFault = true ∧
    ∀ edition,
      (main? Script.console (.ofFiles edition [("p.bf", some [43])] (0, 0)) 0
          ["--encoding", "nope", "-f", "p.bf"] default).map Answer.ending =
        some (.escaped (.reading (.unknownEncoding "nope"))) ∧
      (main? Script.console (.ofFiles edition [] (0, 0)) 2 ["+"]
          { flushFault := some ⟨"ValueError", "closed", .value⟩ }).map Answer.ending =
        some (.escaped (.run (.foreign ⟨"ValueError", "closed", .value⟩))) := by
  refine ⟨rfl, fun edition => ?_⟩
  cases edition <;> exact ⟨rfl, rfl⟩

end CommandLine

end Brainfuck
