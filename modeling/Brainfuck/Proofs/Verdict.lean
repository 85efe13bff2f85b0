import Brainfuck.Proofs.CommandEnd

/-!
The verdict on a run: what it returns or lets escape, what it flushes and what it logs.

A run that fails in a way the command line answers for has a notice: it returns the exit code of the
notice and logs one error, its label. `FailsAs` lists the ways with the calls made until then; the
failures of the interpreter have the notice of their kind, and a stream may refuse a call with
a notice of its own. Otherwise the run has succeeded, or a fault that is not answered for escapes it,
and no error is logged (`Judgement`). Each run comes to one of these (`exists_judgement`), since a
call that was refused is the last one, the output is flushed behind the execution and nowhere in it,
and the interpreter logs debug records only.

`Judged` says the same from the side of what can be seen: which exit code is returned exactly when,
and which records are shown at a level.
-/

namespace Brainfuck

theorem SyntaxFault.label?_report (fault : SyntaxFault) (source : Source) :
    (fault.report source).kind.label? = some (fault.report source).kind.label := by
  cases fault with
  | unmatched bracket position => cases bracket <;> rfl
  | _ => rfl

namespace Execution

variable {σ : Type} {console : Console σ} {bound : Nat} {source : Source}

theorem isFlush_eq_false {streams : σ} {execution : Execution (Recorded σ)}
    (h : execute? console.recording bound source ⟨streams, []⟩ = some execution) {call : Call}
    (hcall : call ∈ execution.streams.calls) : call.isFlush = false := by
  let Unflushed (streams : Recorded σ) : Prop := ∀ call ∈ streams.calls, call.isFlush = false
  have hconcat : ∀ {calls : List Call} {last : Call},
      (∀ call ∈ calls, call.isFlush = false) → last.isFlush = false →
        ∀ call ∈ calls ++ [last], call.isFlush = false := by
    intro calls last hcalls hlast call hcall
    rcases List.mem_append.mp hcall with hcall | hcall
    · exact hcalls call hcall
    · rwa [List.mem_singleton.mp hcall]
  have hread : ∀ streams, Unflushed streams → Unflushed (console.recording.read streams).2 :=
    fun _ hstreams => hconcat hstreams rfl
  have hwrite : ∀ byte streams, Unflushed streams →
      Unflushed (console.recording.write byte streams).2 :=
    fun _ _ hstreams => hconcat hstreams rfl
  have hstart : Unflushed ⟨streams, []⟩ := fun _ hnone => absurd hnone List.not_mem_nil
  have hrun : ∀ prog, Unflushed
      (Machine.runFor console.recording prog bound (Machine.start ⟨streams, []⟩)).machine.streams :=
    fun _ => Machine.streams_runFrom hread hwrite hstart bound 0
  cases end_cases h with
  | refused _ => exact hstart call hcall
  | @succeeded prog _ _ _ hruns =>
    have hstreams := hrun prog
    rw [hruns] at hstreams
    exact hstreams call hcall
  | @failed prog _ _ _ hruns =>
    have hstreams := hrun prog
    rw [hruns] at hstreams
    exact hstreams call hcall

theorem isDebugRecord_of_mem_log {streams : σ} {execution : Execution σ}
    (h : execute? console bound source streams = some execution) {record : Log.Record}
    (hrecord : record ∈ execution.log) : ∃ message, record = debugRecord message := by
  cases end_cases h with
  | refused _ => exact absurd hrecord List.not_mem_nil
  | succeeded _ _ =>
    rcases List.mem_cons.mp hrecord with rfl | hrecord
    · exact ⟨_, rfl⟩
    · rcases List.mem_cons.mp hrecord with rfl | hrecord
      · exact ⟨_, rfl⟩
      · exact ⟨_, List.mem_singleton.mp hrecord⟩
  | failed _ _ => exact ⟨_, List.mem_singleton.mp hrecord⟩

end Execution

namespace CommandLine

variable {σ : Type} {source : Source} {execution : Execution (Recorded σ)}

/-! ## What a run comes to -/

/-- The ways in which a run fails that the command line answers for, with the notice and with the
calls made. -/
inductive FailsAs (source : Source) (execution : Execution (Recorded σ)) :
    Notice → List Call → Prop
  | malformed {fault : SyntaxFault} (failed : execution.failure = some (.source fault)) :
    FailsAs source execution (fault.report source).kind.notice []
  | negativePointer {pointer count : Int} {calls : List Call}
      (failed : execution.failure = some (.run (.tape (.negativePointer pointer count))))
      (taken : Taken calls) : FailsAs source execution Kind.negativePointer.notice calls
  | input {cause : Fault} {before : List Call}
      (failed : execution.failure = some (.run (.input cause))) (taken : Taken before)
      (answered : cause.isStreamFault = true) :
    FailsAs source execution Kind.input.notice (before ++ [.read (.error cause)])
  | output {byte : UInt8} {cause : Fault} {before : List Call}
      (failed : execution.failure = some (.run (.output cause))) (taken : Taken before)
      (answered : cause.isStreamFault = true) :
    FailsAs source execution Kind.output.notice (before ++ [.write byte (.error cause)])
  | flush {cause : Fault} (returned : execution.failure = none)
      (taken : Taken execution.streams.calls) (answered : cause.isSystemFault = true)
      (notOwn : cause.notice? = none) :
    FailsAs source execution Kind.output.notice
      (execution.streams.calls ++ [.flush (.error cause)])
  | own {cause : Fault} {notice : Notice} {before : List Call} {call : Call}
      (failed : execution.failure = some (.run (.foreign cause))) (taken : Taken before)
      (refused : call.refusal? = some cause) (unflushed : call.isFlush = false)
      (foreign : cause.isStreamFault = false) (noticed : cause.notice? = some notice) :
    FailsAs source execution notice (before ++ [call])
  | ownFlush {cause : Fault} {notice : Notice} (returned : execution.failure = none)
      (taken : Taken execution.streams.calls) (noticed : cause.notice? = some notice) :
    FailsAs source execution notice (execution.streams.calls ++ [.flush (.error cause)])

/-- The verdicts on a run before the time is told, with the calls it has made. -/
inductive Judgement (source : Source) (execution : Execution (Recorded σ)) :
    Verdict → List Call → Prop
  | succeeded (returned : execution.failure = none) (taken : Taken execution.streams.calls) :
    Judgement source execution ⟨.ok success, execution.log⟩
      (execution.streams.calls ++ [.flush (.ok ())])
  | failed {notice : Notice} {message : String} {calls : List Call}
      (fails : FailsAs source execution notice calls) :
    Judgement source execution (.ofNotice execution.log notice message) calls
  | escaped {cause : Fault} {before : List Call} {call : Call}
      (failed : execution.failure = some (.run (.foreign cause))) (taken : Taken before)
      (refused : call.refusal? = some cause) (unflushed : call.isFlush = false)
      (foreign : cause.isStreamFault = false) (notOwn : cause.notice? = none) :
    Judgement source execution ⟨.error (.foreign cause), execution.log⟩ (before ++ [call])

theorem judgement_of_foreign {cause : Fault} {before : List Call} {call : Call}
    (failed : execution.failure = some (.run (.foreign cause))) (taken : Taken before)
    (refused : call.refusal? = some cause) (unflushed : call.isFlush = false)
    (foreign : cause.isStreamFault = false) :
    Judgement source execution (.ofFailure source execution.log (.run (.foreign cause)))
      (before ++ [call]) := by
  cases hnotice : cause.notice? with
  | some notice =>
    simp only [Verdict.ofFailure, answerRun?, hnotice, Option.map_some]
    exact .failed (.own failed taken refused unflushed foreign hnotice)
  | none =>
    simp only [Verdict.ofFailure, answerRun?, hnotice, Option.map_none]
    exact .escaped failed taken refused unflushed foreign hnotice

theorem judgement_of_runEnd {why : RunFault} {calls : List Call}
    (hfailure : execution.failure = some (.run why)) (h : RunEnd why calls) :
    Judgement source execution (.ofFailure source execution.log (.run why)) calls := by
  cases h with
  | negativePointer taken => exact .failed (.negativePointer hfailure taken)
  | @read cause before taken =>
    rw [RunFault.ofRead] at hfailure ⊢
    cases hstream : cause.isStreamFault with
    | true =>
      rw [hstream, if_pos rfl] at hfailure
      exact .failed (.input hfailure taken hstream)
    | false =>
      rw [hstream, if_neg Bool.false_ne_true] at hfailure
      exact judgement_of_foreign hfailure taken rfl rfl hstream
  | @write byte cause before taken =>
    rw [RunFault.ofWrite] at hfailure ⊢
    cases hstream : cause.isStreamFault with
    | true =>
      rw [hstream, if_pos rfl] at hfailure
      exact .failed (.output hfailure taken hstream)
    | false =>
      rw [hstream, if_neg Bool.false_ne_true] at hfailure
      exact judgement_of_foreign hfailure taken rfl rfl hstream

theorem judgement_of_flush {answer : Except Fault Unit} (returned : execution.failure = none)
    (taken : Taken execution.streams.calls)
    (hsystem : ∀ cause, answer = .error cause → cause.isSystemFault = true) :
    Judgement source execution (.ofFlush execution.log answer)
      (execution.streams.calls ++ [.flush answer]) := by
  cases answer with
  | ok _ => exact .succeeded returned taken
  | error cause =>
    cases hnotice : cause.notice? with
    | some notice =>
      simp only [Verdict.ofFlush, answerFlush?, hnotice]
      exact .failed (.ownFlush returned taken hnotice)
    | none =>
      simp only [Verdict.ofFlush, answerFlush?, hnotice, hsystem cause rfl, if_true]
      exact .failed (.flush returned taken (hsystem cause rfl) hnotice)

/-- Every run that ends comes to a judgement, to which the time is added. -/
theorem exists_judgement {console : Console σ} {bound : Nat} {elapsed : Option Float} {streams : σ}
    {verdict : Verdict} {after : Recorded σ}
    (h : run? console.recording bound source elapsed ⟨streams, []⟩ = some (verdict, after))
    (hflush : ∀ cause, .flush (.error cause) ∈ after.calls → cause.isSystemFault = true) :
    ∃ execution judged, Execution.execute? console.recording bound source ⟨streams, []⟩ =
        some execution ∧
      Judgement source execution judged after.calls ∧ verdict = judged.timed elapsed := by
  obtain ⟨execution, hexecution, hconclude⟩ := Option.map_eq_some_iff.mp h
  have hends := Execution.executionEnd hexecution
  refine ⟨execution, ?_⟩
  generalize hcalls : execution.streams.calls = calls at hends
  cases hfailure : execution.failure with
  | none =>
    rw [hfailure] at hends
    cases hends with
    | returned taken =>
      rw [← hcalls] at taken
      simp only [conclude, hfailure] at hconclude
      obtain ⟨rfl, rfl⟩ := Prod.mk.inj hconclude
      refine ⟨_, hexecution, judgement_of_flush hfailure taken fun cause hanswer => ?_, rfl⟩
      exact hflush cause (List.mem_append_right _ (List.mem_singleton.mpr (hanswer ▸ rfl)))
  | some failure =>
    rw [hfailure] at hends
    simp only [conclude, hfailure] at hconclude
    obtain ⟨rfl, rfl⟩ := Prod.mk.inj hconclude
    rw [hcalls]
    cases hends with
    | source fault => exact ⟨_, hexecution, .failed (.malformed hfailure), rfl⟩
    | run ends => exact ⟨_, hexecution, judgement_of_runEnd hfailure ends, rfl⟩

/-! ## Exit codes -/

/-- What can be seen of an execution and its calls where the verdict on it has a result. -/
inductive Seen (execution : Execution (Recorded σ)) (calls : List Call) :
    Except RunFault Int → Prop
  | success (returned : execution.failure = none) (flushed : .flush (.ok ()) ∈ calls) :
    Seen execution calls (.ok 0)
  | refusal (failed : (∃ fault, execution.failure = some (.source fault)) ∨
      ∃ pointer count, execution.failure = some (.run (.tape (.negativePointer pointer count)))) :
    Seen execution calls (.ok 2)
  | input {cause : Fault} (made : .read (.error cause) ∈ calls)
      (answered : cause.isStreamFault = true) : Seen execution calls (.ok 3)
  | output {byte : UInt8} {cause : Fault} (made : .write byte (.error cause) ∈ calls)
      (answered : cause.isStreamFault = true) : Seen execution calls (.ok 4)
  | flush {cause : Fault} (returned : execution.failure = none)
      (made : .flush (.error cause) ∈ calls) (answered : cause.isSystemFault = true)
      (notOwn : cause.notice? = none) : Seen execution calls (.ok 4)
  | own {notice : Notice} {code : Int} (made : OwnRefusal calls notice)
      (exit : notice.exitCode = code) : Seen execution calls (.ok code)
  | escape {cause : Fault} {call : Call} (made : call ∈ calls)
      (refused : call.refusal? = some cause) (unflushed : call.isFlush = false)
      (foreign : cause.isStreamFault = false) (notOwn : cause.notice? = none) :
    Seen execution calls (.error (.foreign cause))

namespace Judgement

variable {judged : Verdict} {calls : List Call}

theorem seen (h : Judgement source execution judged calls) :
    Seen execution calls judged.result := by
  cases h with
  | succeeded returned _ => exact .success returned List.mem_concat_self
  | failed fails =>
    cases fails with
    | @malformed fault failed =>
      have hcode : (fault.report source).kind.notice.exitCode = 2 := fault.exitCode_report source
      rw [Verdict.ofNotice, hcode]
      exact .refusal (.inl ⟨fault, failed⟩)
    | negativePointer failed _ => exact .refusal (.inr ⟨_, _, failed⟩)
    | input _ _ answered => exact .input List.mem_concat_self answered
    | output _ _ answered => exact .output List.mem_concat_self answered
    | flush returned _ answered notOwn =>
      exact .flush returned List.mem_concat_self answered notOwn
    | own _ _ refused _ foreign noticed =>
      exact .own ⟨_, List.mem_concat_self, _, refused, noticed, .inr foreign⟩ rfl
    | ownFlush _ _ noticed => exact .own ⟨_, List.mem_concat_self, _, rfl, noticed, .inl rfl⟩ rfl
  | escaped _ _ refused unflushed foreign notOwn =>
    exact .escape List.mem_concat_self refused unflushed foreign notOwn

/-- A call that was refused decides the verdict, but for what the debug record of it says. -/
theorem eq_of_refused (h : Judgement source execution judged calls) {call : Call}
    {cause : Fault} (hcall : call ∈ calls) (hrefused : call.refusal? = some cause) :
    ∃ message, judged = match refusalNotice? cause call with
      | some notice => .ofNotice execution.log notice message
      | none => ⟨.error (.foreign cause), execution.log⟩ := by
  cases h with
  | succeeded _ taken => exact ((taken.concat rfl).not_refused hcall hrefused).elim
  | @failed notice message _ fails =>
    refine ⟨message, ?_⟩
    cases fails with
    | malformed _ => exact (taken_nil.not_refused hcall hrefused).elim
    | negativePointer _ taken => exact (taken.not_refused hcall hrefused).elim
    | input _ taken answered =>
      obtain rfl := taken.eq_of_refused hcall hrefused
      obtain rfl := Option.some.inj hrefused
      rw [refusalNotice?, if_pos answered]
    | output _ taken answered =>
      obtain rfl := taken.eq_of_refused hcall hrefused
      obtain rfl := Option.some.inj hrefused
      rw [refusalNotice?, if_pos answered]
    | flush _ taken answered notOwn =>
      obtain rfl := taken.eq_of_refused hcall hrefused
      obtain rfl := Option.some.inj hrefused
      rw [refusalNotice?, if_pos ⟨notOwn, answered⟩]
    | own _ taken refused unflushed foreign noticed =>
      obtain rfl := taken.eq_of_refused hcall hrefused
      obtain rfl := Option.some.inj (hrefused.symm.trans refused)
      rw [refusalNotice?_of_notice noticed (.inr foreign)]
    | ownFlush _ taken noticed =>
      obtain rfl := taken.eq_of_refused hcall hrefused
      obtain rfl := Option.some.inj hrefused
      rw [refusalNotice?_of_notice noticed (.inl rfl)]
  | escaped _ taken refused unflushed foreign notOwn =>
    obtain rfl := taken.eq_of_refused hcall hrefused
    obtain rfl := Option.some.inj (hrefused.symm.trans refused)
    exact ⟨"", by rw [refusalNotice?_of_foreign foreign, notOwn]⟩

theorem eq_ofNotice (h : Judgement source execution judged calls) {call : Call} {cause : Fault}
    {notice : Notice} (hcall : call ∈ calls) (hrefused : call.refusal? = some cause)
    (hnotice : refusalNotice? cause call = some notice) :
    ∃ message, judged = .ofNotice execution.log notice message := by
  obtain ⟨message, hjudged⟩ := h.eq_of_refused hcall hrefused
  rw [hnotice] at hjudged
  exact ⟨message, hjudged⟩

theorem eq_of_own (h : Judgement source execution judged calls) {notice : Notice}
    (hown : OwnRefusal calls notice) :
    ∃ message, judged = .ofNotice execution.log notice message := by
  obtain ⟨call, hcall, cause, hrefused, hnotice, hpassed⟩ := hown
  exact h.eq_ofNotice hcall hrefused (refusalNotice?_of_notice hnotice hpassed)

theorem result_of_failure (h : Judgement source execution judged calls) {failure : Failure}
    (hfailure : execution.failure = some failure) :
    judged.result = (Verdict.ofFailure source execution.log failure).result := by
  cases h with
  | succeeded returned _ => exact nomatch returned.symm.trans hfailure
  | failed fails =>
    cases fails with
    | malformed failed =>
      obtain rfl := Option.some.inj (failed.symm.trans hfailure)
      rfl
    | negativePointer failed _ =>
      obtain rfl := Option.some.inj (failed.symm.trans hfailure)
      rfl
    | input failed _ _ =>
      obtain rfl := Option.some.inj (failed.symm.trans hfailure)
      rfl
    | output failed _ _ =>
      obtain rfl := Option.some.inj (failed.symm.trans hfailure)
      rfl
    | own failed _ _ _ _ noticed =>
      obtain rfl := Option.some.inj (failed.symm.trans hfailure)
      simp only [Verdict.ofFailure, answerRun?, noticed, Option.map_some, Verdict.ofNotice]
    | flush returned _ _ _ => exact nomatch returned.symm.trans hfailure
    | ownFlush returned _ _ => exact nomatch returned.symm.trans hfailure
  | escaped failed _ _ _ _ notOwn =>
    obtain rfl := Option.some.inj (failed.symm.trans hfailure)
    simp only [Verdict.ofFailure, answerRun?, notOwn, Option.map_none]

theorem result_of_flushed (h : Judgement source execution judged calls)
    (hunflushed : ∀ call ∈ execution.streams.calls, call.isFlush = false)
    (returned : execution.failure = none) (flushed : .flush (.ok ()) ∈ calls) :
    judged.result = .ok 0 := by
  have hlast : ∀ cause, .flush (.ok ()) ∉ execution.streams.calls ++ [.flush (.error cause)] := by
    intro cause hmade
    rcases List.mem_append.mp hmade with hbefore | hlast
    · exact absurd (hunflushed _ hbefore) (by decide)
    · exact nomatch List.mem_singleton.mp hlast
  cases h with
  | succeeded _ _ => rfl
  | failed fails =>
    cases fails with
    | flush _ _ _ _ => exact absurd flushed (hlast _)
    | ownFlush _ _ _ => exact absurd flushed (hlast _)
    | malformed failed => exact nomatch returned.symm.trans failed
    | negativePointer failed _ => exact nomatch returned.symm.trans failed
    | input failed _ _ => exact nomatch returned.symm.trans failed
    | output failed _ _ => exact nomatch returned.symm.trans failed
    | own failed _ _ _ _ _ => exact nomatch returned.symm.trans failed
  | escaped failed _ _ _ _ _ => exact nomatch returned.symm.trans failed

/-- What can be seen decides the result, where the execution itself does not flush. -/
theorem result_of_seen (h : Judgement source execution judged calls)
    (hunflushed : ∀ call ∈ execution.streams.calls, call.isFlush = false)
    {result : Except RunFault Int} (hseen : Seen execution calls result) :
    judged.result = result := by
  cases hseen with
  | success returned flushed => exact h.result_of_flushed hunflushed returned flushed
  | refusal failed =>
    rcases failed with ⟨fault, failed⟩ | ⟨pointer, count, failed⟩
    · rw [h.result_of_failure failed]
      exact congrArg Except.ok (fault.exitCode_report source)
    · exact h.result_of_failure failed
  | input made answered =>
    obtain ⟨hread, -⟩ := refusalNotice?_of_streamFault answered
    obtain ⟨message, rfl⟩ := h.eq_ofNotice made rfl (hread _)
    rfl
  | output made answered =>
    obtain ⟨-, hwrite⟩ := refusalNotice?_of_streamFault answered
    obtain ⟨message, rfl⟩ := h.eq_ofNotice made rfl (hwrite _ _)
    rfl
  | flush _ made answered notOwn =>
    have hnotice := refusalNotice?_of_systemFault notOwn answered
    obtain ⟨message, rfl⟩ := h.eq_ofNotice made rfl (hnotice _)
    rfl
  | own made hexit =>
    obtain ⟨message, rfl⟩ := h.eq_of_own made
    exact congrArg Except.ok hexit
  | escape made refused unflushed foreign notOwn =>
    obtain ⟨message, hjudged⟩ := h.eq_of_refused made refused
    rw [hjudged, refusalNotice?_of_foreign foreign, notOwn]

theorem result_iff (h : Judgement source execution judged calls)
    (hunflushed : ∀ call ∈ execution.streams.calls, call.isFlush = false)
    (result : Except RunFault Int) : judged.result = result ↔ Seen execution calls result := by
  constructor
  · intro hresult
    rw [← hresult]
    exact h.seen
  · exact h.result_of_seen hunflushed

end Judgement

namespace Seen

variable {calls : List Call}

theorem success_iff : Seen execution calls (.ok 0) ↔
    (execution.failure = none ∧ .flush (.ok ()) ∈ calls) ∨
      ∃ notice, OwnRefusal calls notice ∧ notice.exitCode = 0 := by
  constructor
  · intro h
    cases h with
    | success returned flushed => exact .inl ⟨returned, flushed⟩
    | own made hexit => exact .inr ⟨_, made, hexit⟩
  · intro hseen
    rcases hseen with ⟨returned, flushed⟩ | ⟨notice, made, hexit⟩
    · exact .success returned flushed
    · exact .own made hexit

theorem refusal_iff : Seen execution calls (.ok 2) ↔
    (∃ fault, execution.failure = some (.source fault)) ∨
      (∃ pointer count,
        execution.failure = some (.run (.tape (.negativePointer pointer count)))) ∨
      ∃ notice, OwnRefusal calls notice ∧ notice.exitCode = 2 := by
  constructor
  · intro h
    cases h with
    | refusal failed => exact failed.imp_right .inl
    | own made hexit => exact .inr (.inr ⟨_, made, hexit⟩)
  · intro hseen
    rcases hseen with failed | failed | ⟨notice, made, hexit⟩
    · exact .refusal (.inl failed)
    · exact .refusal (.inr failed)
    · exact .own made hexit

theorem input_iff : Seen execution calls (.ok 3) ↔
    (∃ cause, .read (.error cause) ∈ calls ∧ cause.isStreamFault = true) ∨
      ∃ notice, OwnRefusal calls notice ∧ notice.exitCode = 3 := by
  constructor
  · intro h
    cases h with
    | input made answered => exact .inl ⟨_, made, answered⟩
    | own made hexit => exact .inr ⟨_, made, hexit⟩
  · intro hseen
    rcases hseen with ⟨cause, made, answered⟩ | ⟨notice, made, hexit⟩
    · exact .input made answered
    · exact .own made hexit

theorem output_iff (hflush : ∀ cause, .flush (.error cause) ∈ calls → cause.isSystemFault = true) :
    Seen execution calls (.ok 4) ↔
    (∃ byte cause, .write byte (.error cause) ∈ calls ∧ cause.isStreamFault = true) ∨
      (execution.failure = none ∧ ∃ cause, .flush (.error cause) ∈ calls ∧ cause.notice? = none) ∨
      ∃ notice, OwnRefusal calls notice ∧ notice.exitCode = 4 := by
  constructor
  · intro h
    cases h with
    | output made answered => exact .inl ⟨_, _, made, answered⟩
    | flush returned made _ notOwn => exact .inr (.inl ⟨returned, _, made, notOwn⟩)
    | own made hexit => exact .inr (.inr ⟨_, made, hexit⟩)
  · intro hseen
    rcases hseen with ⟨byte, cause, made, answered⟩ | ⟨returned, cause, made, notOwn⟩ |
      ⟨notice, made, hexit⟩
    · exact .output made answered
    · exact .flush returned made (hflush cause made) notOwn
    · exact .own made hexit

theorem escape_iff (hflush : ∀ cause, .flush (.error cause) ∈ calls → cause.isSystemFault = true)
    (why : RunFault) : Seen execution calls (.error why) ↔
      ∃ cause call, why = .foreign cause ∧ call ∈ calls ∧ call.refusal? = some cause ∧
        cause.isStreamFault = false ∧ cause.notice? = none := by
  constructor
  · intro h
    cases h with
    | escape made refused _ foreign notOwn => exact ⟨_, _, rfl, made, refused, foreign, notOwn⟩
  · rintro ⟨cause, call, rfl, made, refused, foreign, notOwn⟩
    refine .escape made refused ?_ foreign notOwn
    cases call with
    | read _ => rfl
    | write _ _ => rfl
    | flush answer =>
      -- a fault of the system is a stream fault
      cases answer with
      | ok _ => contradiction
      | error fault =>
        obtain rfl := Option.some.inj refused
        have hstream := Fault.isStreamFault_of_isSystemFault (hflush fault made)
        rw [hstream] at foreign
        contradiction

theorem code_eq {code : Int} (h : Seen execution calls (.ok code)) :
    (code = 0 ∨ code = 2 ∨ code = 3 ∨ code = 4) ∨
      ∃ notice, OwnRefusal calls notice ∧ notice.exitCode = code := by
  cases h with
  | success _ _ => exact .inl (.inl rfl)
  | refusal _ => exact .inl (.inr (.inl rfl))
  | input _ _ => exact .inl (.inr (.inr (.inl rfl)))
  | output _ _ => exact .inl (.inr (.inr (.inr rfl)))
  | flush _ _ _ _ => exact .inl (.inr (.inr (.inr rfl)))
  | own made hexit => exact .inr ⟨_, made, hexit⟩

end Seen

/-! ## The log -/

/-- The records that are shown when a level is in force. -/
def Verdict.shown (verdict : Verdict) (least : Log.Level) : List Log.Record :=
  verdict.log.filter (Log.Record.isShown least)

/-- The error records of the command line that are shown. -/
def Verdict.errors (verdict : Verdict) (least : Log.Level) : List Log.Record :=
  (verdict.shown least).filter fun record => record.level = .error ∧ record.origin = .commandLine

theorem FailsAs.labelled {notice : Notice} {calls : List Call}
    (h : FailsAs source execution notice calls) :
    (∃ kind : Kind, notice = kind.notice ∧ kind.label? = some notice.label) ∨
      OwnRefusal calls notice := by
  cases h with
  | @malformed fault _ => exact .inl ⟨_, rfl, fault.label?_report source⟩
  | negativePointer _ _ => exact .inl ⟨.negativePointer, rfl, rfl⟩
  | input _ _ _ => exact .inl ⟨.input, rfl, rfl⟩
  | output _ _ _ => exact .inl ⟨.output, rfl, rfl⟩
  | flush _ _ _ _ => exact .inl ⟨.output, rfl, rfl⟩
  | own _ _ refused _ foreign noticed =>
    exact .inr ⟨_, List.mem_concat_self, _, refused, noticed, .inr foreign⟩
  | ownFlush _ _ noticed => exact .inr ⟨_, List.mem_concat_self, _, rfl, noticed, .inl rfl⟩

theorem exitCode_ne_zero (kind : Kind) : kind.exitCode ≠ 0 := by
  cases kind <;> decide

namespace Judgement

variable {judged : Verdict} {calls : List Call}

theorem exists_notice (h : Judgement source execution judged calls) {code : Int}
    (hcode : judged.result = .ok code) (hne : code ≠ 0) :
    ∃ notice message, FailsAs source execution notice calls ∧ notice.exitCode = code ∧
      judged = .ofNotice execution.log notice message := by
  cases h with
  | succeeded _ _ => exact absurd (Except.ok.inj hcode).symm hne
  | failed fails => exact ⟨_, _, fails, Except.ok.inj hcode, rfl⟩
  | escaped _ _ _ _ _ _ => contradiction

theorem log_of_zero (h : Judgement source execution judged calls)
    (hzero : ∀ code, judged.result = .ok code → code = 0)
    (hown : ∀ notice, OwnRefusal calls notice → notice.exitCode ≠ 0) :
    judged.log = execution.log := by
  cases h with
  | succeeded _ _ => rfl
  | failed fails =>
    have hexit := hzero _ rfl
    rcases fails.labelled with ⟨kind, rfl, -⟩ | hrefusal
    · exact absurd hexit (exitCode_ne_zero kind)
    · exact absurd hexit (hown _ hrefusal)
  | escaped _ _ _ _ _ _ => rfl

theorem exists_behind (h : Judgement source execution judged calls) :
    ∃ behind, judged.log = execution.log ++ behind ∧ ∀ record ∈ behind, record.level ≠ .info := by
  cases h with
  | succeeded _ _ => exact ⟨[], (List.append_nil _).symm, fun _ hnone => nomatch hnone⟩
  | failed _ =>
    refine ⟨_, rfl, fun record hrecord => ?_⟩
    rcases List.mem_cons.mp hrecord with rfl | hrecord
    · exact Log.Level.noConfusion
    · rw [List.mem_singleton.mp hrecord]
      exact Log.Level.noConfusion
  | escaped _ _ _ _ _ _ => exact ⟨[], (List.append_nil _).symm, fun _ hnone => nomatch hnone⟩

end Judgement

section

variable {log : List Log.Record}

theorem errors_timed (hlog : ∀ record ∈ log, ∃ message, record = Execution.debugRecord message)
    {verdict : Verdict} {behind : List Log.Record} (h : verdict.log = log ++ behind)
    (elapsed : Option Float) (least : Log.Level) : (verdict.timed elapsed).errors least =
      (behind.filter (Log.Record.isShown least)).filter
        fun record => record.level = .error ∧ record.origin = .commandLine := by
  have hfront : (log.filter (Log.Record.isShown least)).filter
      (fun record => record.level = .error ∧ record.origin = .commandLine) = [] := by
    rw [List.filter_eq_nil_iff]
    intro record hrecord
    obtain ⟨message, rfl⟩ := hlog record (List.mem_filter.mp hrecord).1
    exact Bool.false_ne_true
  have htime : ((elapsed.map timeRecord).toList.filter (Log.Record.isShown least)).filter
      (fun record => record.level = .error ∧ record.origin = .commandLine) = [] := by
    cases elapsed <;> cases least <;> rfl
  rw [Verdict.errors, Verdict.shown, Verdict.timed, h]
  simp only [List.filter_append, hfront, htime, List.nil_append, List.append_nil]

theorem errors_ofNotice (hlog : ∀ record ∈ log, ∃ message, record = Execution.debugRecord message)
    (notice : Notice) (message : String) (elapsed : Option Float) (least : Log.Level) :
    ((Verdict.ofNotice log notice message).timed elapsed).errors least =
      if least = .critical then [] else [say .error notice.label] := by
  rw [errors_timed hlog rfl]
  cases least <;> rfl

end

/-! ## Every run -/

/-- What can be told of the verdict on an execution that has made its calls and may have been
timed. -/
structure Judged (source : Source) (elapsed : Option Float) (execution : Execution (Recorded σ))
    (verdict : Verdict) (calls : List Call) : Prop where
  success_iff : verdict.result = .ok 0 ↔
    (execution.failure = none ∧ .flush (.ok ()) ∈ calls) ∨
      ∃ notice, OwnRefusal calls notice ∧ notice.exitCode = 0
  /-- The source is no program, or the pointer was to move to the left of the first cell. -/
  refusal_iff : verdict.result = .ok 2 ↔
    (∃ fault, execution.failure = some (.source fault)) ∨
      (∃ pointer count,
        execution.failure = some (.run (.tape (.negativePointer pointer count)))) ∨
      ∃ notice, OwnRefusal calls notice ∧ notice.exitCode = 2
  input_iff : verdict.result = .ok 3 ↔
    (∃ cause, .read (.error cause) ∈ calls ∧ cause.isStreamFault = true) ∨
      ∃ notice, OwnRefusal calls notice ∧ notice.exitCode = 3
  output_iff : verdict.result = .ok 4 ↔
    (∃ byte cause, .write byte (.error cause) ∈ calls ∧ cause.isStreamFault = true) ∨
      (execution.failure = none ∧ ∃ cause, .flush (.error cause) ∈ calls ∧ cause.notice? = none) ∨
      ∃ notice, OwnRefusal calls notice ∧ notice.exitCode = 4
  codes : ∀ code, verdict.result = .ok code → (code = 0 ∨ code = 2 ∨ code = 3 ∨ code = 4) ∨
    ∃ notice, OwnRefusal calls notice ∧ notice.exitCode = code
  /-- A stream that refuses with a failure of the interpreter is answered for by it. -/
  own : ∀ notice, OwnRefusal calls notice → verdict.result = .ok notice.exitCode ∧
    ∀ least, verdict.errors least = if least = .critical then [] else [say .error notice.label]
  /-- Any other fault comes out as itself. -/
  escape_iff : ∀ why, verdict.result = .error why ↔
    ∃ cause call, why = .foreign cause ∧ call ∈ calls ∧ call.refusal? = some cause ∧
      cause.isStreamFault = false ∧ cause.notice? = none
  flush_iff : (∃ answer, .flush answer ∈ calls) ↔ execution.failure = none
  flush_once : calls.countP Call.isFlush ≤ 1
  /-- The error has the label the table has for its kind, or that of the stream's refusal, and is
  shown unless the level is above that of errors. -/
  one_error : ∀ code, verdict.result = .ok code → code ≠ 0 →
    ∃ notice, FailsAs source execution notice calls ∧ notice.exitCode = code ∧
      ((∃ kind : Kind, notice = kind.notice ∧ kind.label? = some notice.label) ∨
        OwnRefusal calls notice) ∧
      ∀ least, verdict.errors least = if least = .critical then [] else [say .error notice.label]
  no_error : (∀ code, verdict.result = .ok code → code = 0) →
    (∀ notice, OwnRefusal calls notice → notice.exitCode ≠ 0) → ∀ least, verdict.errors least = []
  /-- The time is the last record and the only info record, and it is shown at the levels of debug and
  info records. -/
  timing : ∀ least, ∃ front, (∀ record ∈ front, record.level ≠ .info) ∧
    verdict.shown least = front ++
      if least = .debug ∨ least = .info then
        (elapsed.map fun time => (⟨.info, .commandLine,
          "Execution took " ++ (Decimal.Double.ofBits time.toBits).fixed 2 ++ " ms"⟩ :
            Log.Record)).toList
      else []

theorem calls_conclude (console : Console σ) (source : Source)
    (execution : Execution (Recorded σ)) (elapsed : Option Float) :
    (execution.failure = none ∧ ∃ answer,
        (conclude console.recording source execution elapsed).2.calls =
          execution.streams.calls ++ [.flush answer]) ∨
      (execution.failure ≠ none ∧
        (conclude console.recording source execution elapsed).2.calls =
          execution.streams.calls) := by
  cases hfailure : execution.failure with
  | none =>
    refine .inl ⟨rfl, (console.recording.flush execution.streams).1, ?_⟩
    simp only [conclude, hfailure]
    rfl
  | some failure =>
    refine .inr ⟨Option.some_ne_none failure, ?_⟩
    simp only [conclude, hfailure]

theorem flushes_of_calls {calls : List Call}
    (hunflushed : ∀ call ∈ execution.streams.calls, call.isFlush = false)
    (hcalls : (execution.failure = none ∧
        ∃ answer, calls = execution.streams.calls ++ [.flush answer]) ∨
      (execution.failure ≠ none ∧ calls = execution.streams.calls)) :
    ((∃ answer, .flush answer ∈ calls) ↔ execution.failure = none) ∧
      calls.countP Call.isFlush ≤ 1 := by
  have hcount : execution.streams.calls.countP Call.isFlush = 0 := by
    rw [List.countP_eq_zero]
    intro call hcall
    rw [hunflushed call hcall]
    exact Bool.false_ne_true
  rcases hcalls with ⟨returned, answer, rfl⟩ | ⟨failed, rfl⟩
  · refine ⟨⟨fun _ => returned, fun _ => ?_⟩, ?_⟩
    · exact ⟨answer, List.mem_append_right _ List.mem_cons_self⟩
    · rw [List.countP_append, hcount]
      exact Nat.le_refl 1
  · refine ⟨⟨fun hmade => ?_, fun returned => absurd returned failed⟩, ?_⟩
    · obtain ⟨answer, made⟩ := hmade
      exact nomatch hunflushed _ made
    · rw [hcount]
      exact Nat.zero_le 1

/-- Whatever the program, the streams and their faults are, a run that ends is judged by what has
been refused, if the output is refused a flush by the system only. -/
theorem every_run_judged (console : Console σ) (bound : Nat) (source : Source)
    (elapsed : Option Float) (streams : σ) {verdict : Verdict} {after : Recorded σ}
    (h : run? console.recording bound source elapsed ⟨streams, []⟩ = some (verdict, after))
    (hflush : ∀ cause, .flush (.error cause) ∈ after.calls → cause.isSystemFault = true) :
    ∃ execution,
      Execution.execute? console.recording bound source ⟨streams, []⟩ = some execution ∧
        Judged source elapsed execution verdict after.calls := by
  obtain ⟨execution, judged, hexecution, hjudgement, rfl⟩ := exists_judgement h hflush
  have hunflushed : ∀ call ∈ execution.streams.calls, call.isFlush = false :=
    fun _ hcall => Execution.isFlush_eq_false hexecution hcall
  have hlog : ∀ record ∈ execution.log, ∃ message, record = Execution.debugRecord message :=
    fun _ hrecord => Execution.isDebugRecord_of_mem_log hexecution hrecord
  have hresult := hjudgement.result_iff hunflushed
  have hflushes : ((∃ answer, .flush answer ∈ after.calls) ↔ execution.failure = none) ∧
      after.calls.countP Call.isFlush ≤ 1 := by
    rw [run?, hexecution, Option.map_some] at h
    have hcalls := calls_conclude console source execution elapsed
    rw [Option.some.inj h] at hcalls
    exact flushes_of_calls hunflushed hcalls
  refine ⟨execution, hexecution, ?_⟩
  constructor
  case success_iff => exact (hresult _).trans Seen.success_iff
  case refusal_iff => exact (hresult _).trans Seen.refusal_iff
  case input_iff => exact (hresult _).trans Seen.input_iff
  case output_iff => exact (hresult _).trans (Seen.output_iff hflush)
  case codes => exact fun code hcode => ((hresult _).mp hcode).code_eq
  case own =>
    intro notice hown
    obtain ⟨message, rfl⟩ := hjudgement.eq_of_own hown
    exact ⟨rfl, errors_ofNotice hlog notice message elapsed⟩
  case escape_iff => exact fun why => (hresult _).trans (Seen.escape_iff hflush why)
  case flush_iff => exact hflushes.1
  case flush_once => exact hflushes.2
  case one_error =>
    intro code hcode hne
    obtain ⟨notice, message, hfails, hexit, rfl⟩ := hjudgement.exists_notice hcode hne
    exact ⟨notice, hfails, hexit, hfails.labelled, errors_ofNotice hlog notice message elapsed⟩
  case no_error =>
    intro hzero hown least
    have hsame := (hjudgement.log_of_zero hzero hown).trans (List.append_nil _).symm
    exact errors_timed hlog hsame elapsed least
  case timing =>
    intro least
    obtain ⟨behind, hbehind, hlevel⟩ := hjudgement.exists_behind
    refine ⟨(execution.log ++ behind).filter (Log.Record.isShown least), ?_, ?_⟩
    · intro record hrecord
      rcases List.mem_append.mp (List.mem_filter.mp hrecord).1 with hrecord | hrecord
      · obtain ⟨message, rfl⟩ := hlog record hrecord
        exact Log.Level.noConfusion
      · exact hlevel record hrecord
    · rw [Verdict.shown, Verdict.timed, hbehind, List.filter_append]
      congr 1
      cases elapsed <;> cases least <;> rfl

/-- A timed run that writes a byte to an output that cannot be flushed. -/
theorem every_run_judged_broken :
    ∃ (verdict : Verdict) (after : Recorded Script) (execution : Execution (Recorded Script)),
      run? Script.console.recording 9 "+.".toList (some 0.5)
          ⟨{ flushFault := some ⟨"BrokenPipeError", "broken", .system⟩ }, []⟩ =
        some (verdict, after) ∧
      (∀ cause, .flush (.error cause) ∈ after.calls → cause.isSystemFault = true) ∧
      Judged "+.".toList (some 0.5) execution verdict after.calls ∧
      verdict.result = .ok 4 ∧
      verdict.errors .error = [say .error "Cannot write to output stream"] := by
  obtain ⟨verdict, after, hrun, hcalls⟩ : ∃ (verdict : Verdict) (after : Recorded Script),
      run? Script.console.recording 9 "+.".toList (some 0.5)
          ⟨{ flushFault := some ⟨"BrokenPipeError", "broken", .system⟩ }, []⟩ =
        some (verdict, after) ∧
      after.calls = [.write 1 (.ok ()),
        .flush (.error ⟨"BrokenPipeError", "broken", .system⟩)] := ⟨_, _, rfl, rfl⟩
  have hflush : ∀ cause, .flush (.error cause) ∈ after.calls → cause.isSystemFault = true := by
    intro cause hmade
    rw [hcalls] at hmade
    obtain rfl : cause = ⟨"BrokenPipeError", "broken", .system⟩ := by simpa using hmade
    rfl
  obtain ⟨execution, -, hjudged⟩ := every_run_judged Script.console 9 _ _ _ hrun hflush
  have hmade : .flush (.error ⟨"BrokenPipeError", "broken", .system⟩) ∈ after.calls := by
    rw [hcalls]
    exact List.mem_cons_of_mem _ List.mem_cons_self
  have hreturned := hjudged.flush_iff.mp ⟨_, hmade⟩
  have hcode := hjudged.output_iff.mpr (.inr (.inl ⟨hreturned, _, hmade, rfl⟩))
  obtain ⟨notice, -, hexit, hlabel, herrors⟩ := hjudged.one_error 4 hcode (by decide)
  refine ⟨verdict, after, execution, hrun, hflush, hjudged, hcode, (herrors .error).trans ?_⟩
  rcases hlabel with ⟨kind, rfl, -⟩ | ⟨call, hcall, cause, hcause, hnotice, -⟩
  · cases kind with
    | output => rfl
    | _ => exact absurd hexit (by decide)
  · rw [hcalls] at hcall
    rcases List.mem_cons.mp hcall with rfl | hcall
    · contradiction
    · obtain rfl := List.mem_singleton.mp hcall
      obtain rfl := Option.some.inj hcause
      contradiction

/-- A read that is refused with a failure of the interpreter is answered for although the fault is no
stream fault, and a timed run shows no record of the time where only errors are shown. -/
theorem own_refusal_answered_and_time_not_shown :
    (∃ (verdict : Verdict) (after : Recorded Script) (cause : Fault),
      run? Script.console.recording 1 ",".toList none
          ⟨{ readFault := some cause }, []⟩ = some (verdict, after) ∧
        after.calls = [.read (.error cause)] ∧ cause.isStreamFault = false ∧
        verdict.result = .ok 3 ∧
        verdict.errors .debug = [say .error "Cannot read from input stream"]) ∧
    ∃ (verdict : Verdict) (after : Recorded Script),
      run? Script.console.recording 2 "+".toList (some 0) ⟨{}, []⟩ = some (verdict, after) ∧
        verdict.result = .ok 0 ∧ verdict.shown .error = [] := by
  refine ⟨⟨_, _, ⟨"InputError", "no input", .own Kind.input.notice⟩, rfl, rfl, rfl, rfl, rfl⟩, ?_⟩
  exact ⟨_, _, rfl, rfl, rfl⟩

end CommandLine

end Brainfuck
