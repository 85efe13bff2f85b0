import Brainfuck.Proofs.Plain

/-!
Balanced tokens inside a longer sequence.

A balanced stretch of tokens that stands in a longer sequence is gone through as it would be on its
own: the brackets of the stretch have their partners in it (`step_framed`), so the plain machine
leaves it only at its end or by failing (`step_inner`). What it shows from a place in the stretch is
therefore what the stretch shows on its own and, where that succeeds, what comes after it
(`views_framed`).

For two sequences put together and for a loop this gives the laws `views_append` and `views_loop`.
-/

namespace Brainfuck

/-! ## Views that go on where a run succeeds -/

/-- The views in `first`, with those in `next` in place of a success. -/
def sequel {σ : Type} (first : Set (View σ)) (next : EndlessTape → σ → Set (View σ)) :
    Set (View σ) :=
  {v | (v ∈ first ∧ ¬ v.Succeeded) ∨ ∃ (tape : EndlessTape) (streams : σ),
    .ended (.success tape.pointer tape.cells) streams ∈ first ∧ v ∈ next tape streams}

theorem ended_success_inj {σ : Type} {tape tape' : EndlessTape} {streams streams' : σ}
    (h : View.ended (.success tape.pointer tape.cells) streams =
      .ended (.success tape'.pointer tape'.cells) streams') : tape = tape' ∧ streams = streams' := by
  obtain ⟨houtcome, hstreams⟩ := View.ended.inj h
  obtain ⟨hpointer, hcells⟩ := Outcome.success.inj houtcome
  exact ⟨EndlessTape.ext (Int.ofNat.inj hpointer) hcells, hstreams⟩

section

variable {σ : Type} {first : Set (View σ)} {next : EndlessTape → σ → Set (View σ)}

theorem sequel_insert_running (streams : σ) :
    sequel (insert (.running streams) first) next =
      insert (.running streams) (sequel first next) := by
  ext v
  refine ⟨fun hsequel => ?_, fun hinsert => ?_⟩
  · rcases hsequel with ⟨rfl | hv, hnot⟩ | ⟨tape, after, hfirst | hfirst, hv⟩
    · exact .inl rfl
    · exact .inr (.inl ⟨hv, hnot⟩)
    · contradiction
    · exact .inr (.inr ⟨tape, after, hfirst, hv⟩)
  · rcases hinsert with rfl | ⟨hv, hnot⟩ | ⟨tape, after, hfirst, hv⟩
    · exact .inl ⟨.inl rfl, id⟩
    · exact .inl ⟨.inr hv, hnot⟩
    · exact .inr ⟨tape, after, .inr hfirst, hv⟩

theorem sequel_success (tape : EndlessTape) (streams : σ) :
    sequel {.ended (.success tape.pointer tape.cells) streams} next = next tape streams := by
  ext v
  refine ⟨fun hsequel => ?_, fun hv => .inr ⟨tape, streams, rfl, hv⟩⟩
  rcases hsequel with ⟨rfl, hnot⟩ | ⟨tape', after, hfirst, hv⟩
  · exact (hnot trivial).elim
  · obtain ⟨rfl, rfl⟩ := ended_success_inj hfirst
    exact hv

theorem sequel_failure {v : View σ} (h : ¬ v.Succeeded) : sequel {v} next = {v} := by
  ext w
  refine ⟨fun hsequel => ?_, fun hw => .inl ⟨hw, Set.mem_singleton_iff.mp hw ▸ h⟩⟩
  rcases hsequel with ⟨hw, -⟩ | ⟨tape, after, rfl, -⟩
  · exact hw
  · exact (h trivial).elim

end

/-! ## Turns in a balanced stretch -/

namespace Plain

variable {σ : Type}

/-- The same place, with so many tokens in front. -/
def shift (count : Nat) (here : Plain σ) : Plain σ :=
  { here with index := count + here.index }

/-- A turn in a balanced stretch is the turn that the stretch makes on its own. -/
theorem step_framed (console : Console σ) (front rest : List Token) {body : List Token}
    (hbody : Balanced body) {j : Nat} (hj : j < body.length) (tape : EndlessTape) (streams : σ) :
    step console (front ++ body ++ rest) ⟨front.length + j, tape, streams⟩ =
      (step console body ⟨j, tape, streams⟩).map (shift front.length) := by
  -- the partner of a bracket stands in the stretch, so the scan ends before it leaves it
  refine step_reindexed console (front.length + ·) (getElem?_framed front rest hj) rfl ?_ ?_ tape
    streams
  · intro ht
    obtain ⟨k, hk⟩ := hbody.exists_close ht
    exact ⟨k, _, hk, hk.frame front rest, rfl⟩
  · intro ht
    obtain ⟨k, hk⟩ := hbody.exists_open ht
    exact ⟨k, _, hk, hk.frame front rest, rfl⟩

/-- The turn leads to a place in the first `length` tokens or at their end, or it fails. -/
def Inner (length : Nat) : Except (Outcome × σ) (Plain σ) → Prop
  | .ok next => next.index ≤ length
  | .error (outcome, streams) => ¬ (View.ended outcome streams).Succeeded

theorem step_inner (console : Console σ) {body : List Token} (hbody : Balanced body) {j : Nat}
    (hj : j < body.length) (tape : EndlessTape) (streams : σ) :
    Inner body.length (step console body ⟨j, tape, streams⟩) := by
  cases ht : body[j]? with
  | none => exact absurd (List.getElem?_eq_none_iff.mp ht) (Nat.not_le.mpr hj)
  | some t =>
    cases t with
    | loopStart =>
      obtain ⟨k, hk⟩ := hbody.exists_close ht
      simp only [step, ht, hk.closeOf?_eq, jump]
      split
      · exact hk.lt_length
      · exact hj
    | loopEnd =>
      obtain ⟨k, hk⟩ := hbody.exists_open ht
      simp only [step, ht, hk.openOf?_eq, jump]
      split
      · exact hj
      · exact Nat.le_trans hk.lt (Nat.le_of_lt hj)
    | input =>
      simp only [step, ht]
      rcases console.read streams with ⟨cause | answer, after⟩
      · exact (RunFault.ofRead cause).not_succeeded after
      · exact hj
    | output =>
      simp only [step, ht]
      rcases console.write tape.current streams with ⟨cause | _, after⟩
      · exact (RunFault.ofWrite cause).not_succeeded after
      · exact hj
    | left =>
      simp only [step, ht, act?]
      cases tape.moveLeft? 1 with
      | some tape => exact hj
      | none => exact id
    | right | increment | decrement =>
      simp only [step, ht, act?]
      exact hj

/-! ## Views in a balanced stretch -/

theorem views_at_end (console : Console σ) {tokens : List Token} {i : Nat}
    (hi : tokens[i]? = none) (tape : EndlessTape) (streams : σ) :
    (process console tokens).views ⟨i, tape, streams⟩ =
      {.running streams, .ended (.success tape.pointer tape.cells) streams} := by
  refine Process.views_of_error ?_
  simp only [process, step, hi]

section

variable (console : Console σ) (front rest : List Token) {body : List Token}
  (hbody : Balanced body)

include hbody

theorem viewAfter_mem_sequel (turns : Nat) {j : Nat} (hj : j ≤ body.length) (tape : EndlessTape)
    (streams : σ) :
    (process console (front ++ body ++ rest)).viewAfter turns ⟨front.length + j, tape, streams⟩ ∈
      sequel ((process console body).views ⟨j, tape, streams⟩) fun tape streams =>
        (process console (front ++ body ++ rest)).views
          ⟨front.length + body.length, tape, streams⟩ := by
  induction turns generalizing j tape streams with
  | zero => exact .inl ⟨Process.running_mem_views _ _, id⟩
  | succ turns ih =>
    rcases Nat.lt_or_eq_of_le hj with hj | rfl
    · have hframed := step_framed console front rest hbody hj tape streams
      have hinner := step_inner console hbody hj tape streams
      cases hs : step console body ⟨j, tape, streams⟩ with
      | ok next =>
        rw [hs] at hframed hinner
        rw [Process.views_of_ok hs, sequel_insert_running]
        refine .inr ?_
        have hnext := ih hinner next.tape next.streams
        simp only [Process.viewAfter, process, hframed]
        exact hnext
      | error ending =>
        obtain ⟨outcome, after⟩ := ending
        rw [hs] at hframed hinner
        rw [Process.views_of_error hs, sequel_insert_running, sequel_failure hinner]
        refine .inr ?_
        simp only [Process.viewAfter, process, hframed]
        rfl
    · -- on its own the stretch would succeed here
      have hnone : body[body.length]? = none := List.getElem?_eq_none (Nat.le_refl _)
      rw [views_at_end console hnone, sequel_insert_running, sequel_success]
      exact .inr (Process.mem_views _)

theorem mem_views_of_sequel (turns : Nat) {j : Nat} (hj : j ≤ body.length) (tape : EndlessTape)
    (streams : σ) {v : View σ}
    (hv : v ∈ sequel {(process console body).viewAfter turns ⟨j, tape, streams⟩}
      fun tape streams => (process console (front ++ body ++ rest)).views
        ⟨front.length + body.length, tape, streams⟩) :
    v ∈ (process console (front ++ body ++ rest)).views ⟨front.length + j, tape, streams⟩ := by
  induction turns generalizing j tape streams with
  | zero =>
    rw [Process.viewAfter, sequel_failure id] at hv
    rw [Set.mem_singleton_iff.mp hv]
    exact Process.running_mem_views _ _
  | succ turns ih =>
    rcases Nat.lt_or_eq_of_le hj with hj | rfl
    · have hframed := step_framed console front rest hbody hj tape streams
      have hinner := step_inner console hbody hj tape streams
      cases hs : step console body ⟨j, tape, streams⟩ with
      | ok next =>
        rw [hs] at hframed hinner
        simp only [Process.viewAfter, process, hs] at hv
        rw [Process.views_of_ok hframed]
        exact .inr (ih hinner next.tape next.streams hv)
      | error ending =>
        obtain ⟨outcome, after⟩ := ending
        rw [hs] at hframed hinner
        simp only [Process.viewAfter, process, hs] at hv
        rw [sequel_failure hinner] at hv
        rw [Process.views_of_error hframed]
        exact .inr hv
    · have hnone : body[body.length]? = none := List.getElem?_eq_none (Nat.le_refl _)
      simp only [Process.viewAfter, process, step, hnone] at hv
      rw [sequel_success] at hv
      exact hv

/-- From a place in a balanced stretch the plain machine shows what the stretch shows on its own
and, where that succeeds, what it shows from the end of the stretch. -/
theorem views_framed {j : Nat} (hj : j ≤ body.length) (tape : EndlessTape) (streams : σ) :
    (process console (front ++ body ++ rest)).views ⟨front.length + j, tape, streams⟩ =
      sequel ((process console body).views ⟨j, tape, streams⟩) fun tape streams =>
        (process console (front ++ body ++ rest)).views
          ⟨front.length + body.length, tape, streams⟩ := by
  apply Set.Subset.antisymm
  · apply Set.range_subset_iff.mpr
    intro turns
    exact viewAfter_mem_sequel console front rest hbody turns hj tape streams
  · intro v hsequel
    rcases hsequel with ⟨⟨turns, rfl⟩, hnot⟩ | ⟨tape', after, ⟨turns, hend⟩, hv⟩
    · exact mem_views_of_sequel console front rest hbody turns hj tape streams (.inl ⟨rfl, hnot⟩)
    · exact mem_views_of_sequel console front rest hbody turns hj tape streams
        (.inr ⟨tape', after, hend.symm, hv⟩)

end

/-! ## Two sequences put together -/

theorem views_behind (console : Console σ) (front : List Token) {body : List Token}
    (hbody : Balanced body) {j : Nat} (hj : j ≤ body.length) (tape : EndlessTape) (streams : σ) :
    (process console (front ++ body)).views ⟨front.length + j, tape, streams⟩ =
      (process console body).views ⟨j, tape, streams⟩ := by
  have hfollows : ∀ a b : Plain σ, a = b.shift front.length ∧ b.index ≤ body.length →
      Process.Follows (process console (front ++ body)) (process console body)
        (fun a b => a = b.shift front.length ∧ b.index ≤ body.length) a b := by
    intro a b hab
    obtain ⟨j, tape, streams⟩ := b
    obtain ⟨rfl, hj⟩ := hab
    refine ⟨rfl, _, .refl, ?_⟩
    rcases Nat.lt_or_eq_of_le hj with hj | rfl
    · have hframed := step_framed console front [] hbody hj tape streams
      have hinner := step_inner console hbody hj tape streams
      rw [List.append_nil] at hframed
      simp only [process, shift, hframed]
      cases hs : step console body ⟨j, tape, streams⟩ with
      | ok next =>
        rw [hs] at hinner
        exact ⟨next, rfl, rfl, hinner⟩
      | error ending => rfl
    · have hnone : body[body.length]? = none := List.getElem?_eq_none (Nat.le_refl _)
      have hnone' : (front ++ body)[front.length + body.length]? = none := by
        rw [← List.length_append]
        exact List.getElem?_eq_none (Nat.le_refl _)
      simp only [process, shift, step, hnone, hnone']
  exact Process.views_eq_of_follows hfollows ⟨rfl, hj⟩

theorem views_append (console : Console σ) {first second : List Token} (hfirst : Balanced first)
    (hsecond : Balanced second) (tape : EndlessTape) (streams : σ) :
    (process console (first ++ second)).views ⟨0, tape, streams⟩ =
      sequel ((process console first).views ⟨0, tape, streams⟩) fun tape streams =>
        (process console second).views ⟨0, tape, streams⟩ := by
  have hframed := views_framed console [] second hfirst (Nat.zero_le _) tape streams
  rw [List.nil_append, List.length_nil, Nat.zero_add, Nat.zero_add] at hframed
  rw [hframed]
  congr 1
  funext tape streams
  exact views_behind console first hsecond (Nat.zero_le _) tape streams

/-! ## Loops -/

section

variable (console : Console σ) {body : List Token} (hbody : Balanced body)

include hbody

theorem step_loop_start (tape : EndlessTape) (streams : σ) :
    step console (.loopStart :: (body ++ [.loopEnd])) ⟨0, tape, streams⟩ =
      .ok ⟨if tape.current = 0 then body.length + 2 else 1, tape, streams⟩ := by
  have hm := hbody.matches_loop
  simp only [step, hm.opening, hm.closeOf?_eq, jump]
  split <;> rfl

theorem step_loop_end (tape : EndlessTape) (streams : σ) :
    step console (.loopStart :: (body ++ [.loopEnd])) ⟨body.length + 1, tape, streams⟩ =
      .ok ⟨if tape.current = 0 then body.length + 2 else 1, tape, streams⟩ := by
  have hm := hbody.matches_loop
  simp only [step, hm.closing, hm.openOf?_eq, jump]
  split <;> rfl

/-- At its end a loop goes on as it does at its start. -/
theorem views_loop_end (tape : EndlessTape) (streams : σ) :
    (process console (.loopStart :: (body ++ [.loopEnd]))).views
        ⟨body.length + 1, tape, streams⟩ =
      (process console (.loopStart :: (body ++ [.loopEnd]))).views ⟨0, tape, streams⟩ := by
  have hend := step_loop_end console hbody tape streams
  have hstart := step_loop_start console hbody tape streams
  exact Process.views_eq_of_step_eq (hend.trans hstart.symm) rfl

theorem views_loop {tape : EndlessTape} (htape : tape.current ≠ 0) (streams : σ) :
    (process console (.loopStart :: (body ++ [.loopEnd]))).views ⟨0, tape, streams⟩ =
      sequel ((process console body).views ⟨0, tape, streams⟩) fun tape streams =>
        (process console (.loopStart :: (body ++ [.loopEnd]))).views ⟨0, tape, streams⟩ := by
  have henter := step_loop_start console hbody tape streams
  rw [if_neg htape] at henter
  have hsilent : (process console (.loopStart :: (body ++ [.loopEnd]))).Silent
      ⟨0, tape, streams⟩ ⟨1, tape, streams⟩ := .single ⟨henter, rfl⟩
  have hframed := views_framed console [.loopStart] [.loopEnd] hbody (Nat.zero_le _) tape streams
  rw [Process.views_eq_of_silent hsilent]
  refine hframed.trans ?_
  congr 1
  funext tape streams
  have hplace : [Token.loopStart].length + body.length = body.length + 1 := Nat.add_comm 1 _
  rw [hplace]
  exact views_loop_end console hbody tape streams

end

end Plain

end Brainfuck
