import Brainfuck.Proofs.Insertion
import Brainfuck.Proofs.Showing

/-!
Edits that cancel themselves do not show.

Increments followed by as many decrements, decrements followed by as many increments, and moves to
the right followed by as many to the left change nothing, so they may be put anywhere into a source
(`cancelling_edit_unseen`). The machine itself does notice: the new operators join the blocks they
are put into, all indexes behind them change, and a tape may grow. The plain machine passes them in
silence (`CancellingPair.silent`), wherever they stand and as often as it comes by, and makes the
same turns besides (`step_inserted`). So with a stretch that is passed in silence the same shows as
without it (`views_inserted`).
-/

namespace Brainfuck

/-! ## A stretch that is passed in silence -/

namespace Plain

variable {σ : Type}

/-- Where the plain machine stands when tokens are put in. -/
def arrive (place count : Nat) (here : Plain σ) : Plain σ :=
  { here with index := arrived place count here.index }

section

variable (console : Console σ) {front stretch rest : List Token}

/-- A turn is the same in a sequence with a balanced stretch put in. -/
theorem step_inserted (htokens : Balanced (front ++ rest)) (hs : Balanced stretch) (i : Nat)
    (tape : EndlessTape) (streams : σ) :
    step console (front ++ stretch ++ rest)
        ⟨moved front.length stretch.length i, tape, streams⟩ =
      (step console (front ++ rest) ⟨i, tape, streams⟩).map
        (arrive front.length stretch.length) := by
  refine step_reindexed console (arrived front.length stretch.length)
    (getElem?_moved front stretch rest i) (moved_succ _ _ i) ?_ ?_ tape streams
  · intro ht
    obtain ⟨j, hj⟩ := htokens.exists_close ht
    exact ⟨j, _, hj, hj.insert hs, moved_succ _ _ j⟩
  · intro ht
    obtain ⟨j, hj⟩ := htokens.exists_open ht
    exact ⟨j, _, hj, hj.insert hs, moved_succ _ _ j⟩

theorem views_inserted (htokens : Balanced (front ++ rest)) (hs : Balanced stretch)
    (hpass : ∀ tape streams, (process console (front ++ stretch ++ rest)).Silent
      ⟨front.length, tape, streams⟩ ⟨front.length + stretch.length, tape, streams⟩)
    (here : Plain σ) :
    (process console (front ++ rest)).views here =
      (process console (front ++ stretch ++ rest)).views
        (here.arrive front.length stretch.length) := by
  have hfollows : ∀ a b : Plain σ, b = a.arrive front.length stretch.length →
      Process.Follows (process console (front ++ rest)) (process console (front ++ stretch ++ rest))
        (fun a b => b = a.arrive front.length stretch.length) a b := by
    rintro ⟨i, tape, streams⟩ b rfl
    refine ⟨rfl, ⟨moved front.length stretch.length i, tape, streams⟩, ?_, ?_⟩
    · -- only at the place itself is there a stretch to be passed before the turn
      by_cases hi : i = front.length
      · subst hi
        rw [arrive, arrived_of_le (Nat.le_refl _), moved_of_le (Nat.le_refl _)]
        exact hpass tape streams
      · rw [arrive, arrived_of_ne hi]
        exact .refl
    · have hstep := step_inserted console htokens hs i tape streams
      simp only [process, hstep]
      cases step console (front ++ rest) ⟨i, tape, streams⟩ with
      | ok next => exact ⟨_, rfl, rfl⟩
      | error ending => rfl
  exact Process.views_eq_of_follows hfollows rfl

end

end Plain

/-! ## Operators that cancel each other -/

/-- As many of the second operator undo what some of the first have done. -/
inductive CancellingPair : Token → Token → Prop
  | incrementDecrement : CancellingPair .increment .decrement
  | decrementIncrement : CancellingPair .decrement .increment
  | rightLeft : CancellingPair .right .left

namespace CancellingPair

variable {first second : Token}

theorem isBatched (h : CancellingPair first second) :
    first.isBatched = true ∧ second.isBatched = true := by
  cases h <;> exact ⟨rfl, rfl⟩

theorem actMany?_bind (h : CancellingPair first second) (n : Nat) (tape : EndlessTape) :
    ∃ between, Plain.actMany? first n tape = some between ∧
      Plain.actMany? second n between = some tape := by
  cases h with
  | incrementDecrement =>
    refine ⟨_, Plain.actMany?_increment n tape, ?_⟩
    have hcancel : (· - UInt8.ofNat n) ∘ (· + UInt8.ofNat n) = id :=
      funext fun cell => UInt8.add_sub_cancel cell _
    rw [Plain.actMany?_decrement, EndlessTape.edit_edit, hcancel, EndlessTape.edit_id]
  | decrementIncrement =>
    refine ⟨_, Plain.actMany?_decrement n tape, ?_⟩
    have hcancel : (· + UInt8.ofNat n) ∘ (· - UInt8.ofNat n) = id :=
      funext fun cell => UInt8.sub_add_cancel cell _
    rw [Plain.actMany?_increment, EndlessTape.edit_edit, hcancel, EndlessTape.edit_id]
  | rightLeft =>
    refine ⟨_, Plain.actMany?_right n tape, ?_⟩
    rw [Plain.actMany?_left, EndlessTape.moveLeft?, EndlessTape.moveRight,
      if_pos (Nat.le_add_left n _), Nat.add_sub_cancel]

end CancellingPair

/-- So many operators `first` and as many operators `second`. -/
def cancelling (first second : Token) (n : Nat) : List Token :=
  List.replicate n first ++ List.replicate n second

theorem balanced_replicate {t : Token} (hs : t ≠ .loopStart) (he : t ≠ .loopEnd) (n : Nat) :
    Balanced (List.replicate n t) := by
  apply balanced_of_no_bracket
  intro u hu
  rw [List.eq_of_mem_replicate hu]
  exact ⟨hs, he⟩

namespace CancellingPair

variable {first second : Token}

theorem balanced (h : CancellingPair first second) (n : Nat) :
    Balanced (cancelling first second n) := by
  cases h <;>
    exact (balanced_replicate (by decide) (by decide) n).append
      (balanced_replicate (by decide) (by decide) n)

theorem length_cancelling (first second : Token) (n : Nat) :
    (cancelling first second n).length = n + n := by
  rw [cancelling, List.length_append, List.length_replicate, List.length_replicate]

/-- The plain machine passes operators that cancel each other in silence. -/
theorem silent {σ : Type} (h : CancellingPair first second) (console : Console σ) (n : Nat)
    (front rest : List Token) (tape : EndlessTape) (streams : σ) :
    (Plain.process console (front ++ cancelling first second n ++ rest)).Silent
      ⟨front.length, tape, streams⟩
      ⟨front.length + (cancelling first second n).length, tape, streams⟩ := by
  have hget : ∀ k, k < n + n →
      (front ++ cancelling first second n ++ rest)[front.length + k]? =
        (cancelling first second n)[k]? := by
    intro k hk
    rw [← length_cancelling first second n] at hk
    exact getElem?_framed front rest hk
  have hfirst : ∀ k, k < n →
      (front ++ cancelling first second n ++ rest)[front.length + k]? = some first := by
    intro k hk
    rw [hget k (by omega), cancelling, List.getElem?_append_left (by simpa using hk),
      List.getElem?_replicate, if_pos hk]
  have hsecond : ∀ k, k < n →
      (front ++ cancelling first second n ++ rest)[front.length + n + k]? = some second := by
    intro k hk
    rw [Nat.add_assoc, hget (n + k) (by omega), cancelling,
      List.getElem?_append_right (by simp), List.length_replicate, Nat.add_sub_cancel_left,
      List.getElem?_replicate, if_pos hk]
  obtain ⟨between, hdo, hundo⟩ := h.actMany?_bind n tape
  rw [length_cancelling, ← Nat.add_assoc]
  exact (Plain.silent_stretch console h.isBatched.1 hfirst hdo streams).trans
    (Plain.silent_stretch console h.isBatched.2 hsecond hundo streams)

end CancellingPair

/-! ## Edits of a source -/

/-- Texts that undo what they do. -/
inductive CancellingEdit : Source → Prop
  | incrementDecrement (n : Nat) : CancellingEdit (List.replicate n '+' ++ List.replicate n '-')
  | decrementIncrement (n : Nat) : CancellingEdit (List.replicate n '-' ++ List.replicate n '+')
  | rightLeft (n : Nat) : CancellingEdit (List.replicate n '>' ++ List.replicate n '<')

namespace Source

theorem tokens_replicate (t : Token) (n : Nat) :
    tokens (List.replicate n t.char) = List.replicate n t := by
  induction n with
  | zero => rfl
  | succ n ih =>
    rw [List.replicate_succ, List.replicate_succ, ← ih]
    simp only [tokens, List.filterMap_cons, Token.ofChar?_char]

theorem tokens_cancelling (first second : Token) (n : Nat) :
    tokens (List.replicate n first.char ++ List.replicate n second.char) =
      cancelling first second n := by
  rw [tokens_append, tokens_replicate, tokens_replicate, cancelling]

end Source

theorem CancellingEdit.exists_pair {edit : Source} (h : CancellingEdit edit) :
    ∃ first second n, CancellingPair first second ∧ edit.tokens = cancelling first second n := by
  cases h with
  | incrementDecrement n =>
    exact ⟨_, _, n, .incrementDecrement, Source.tokens_cancelling .increment .decrement n⟩
  | decrementIncrement n =>
    exact ⟨_, _, n, .decrementIncrement, Source.tokens_cancelling .decrement .increment n⟩
  | rightLeft n => exact ⟨_, _, n, .rightLeft, Source.tokens_cancelling .right .left n⟩

namespace Execution

variable {σ : Type}

/-- An edit that cancels itself does not show, wherever in a source it is made. -/
theorem cancelling_edit_unseen (console : Console σ) {front edit rest : Source}
    (hne : (front ++ rest).tokens ≠ []) (hedit : CancellingEdit edit) (streams : σ) :
    LookAlike console.recording (front ++ edit ++ rest) (front ++ rest) ⟨streams, []⟩ := by
  obtain ⟨first, second, n, hpair, htokens⟩ := hedit.exists_pair
  have hedited : (front ++ edit ++ rest).tokens =
      front.tokens ++ cancelling first second n ++ rest.tokens := by
    rw [Source.tokens_append, Source.tokens_append, htokens]
  have hplain : (front ++ rest).tokens = front.tokens ++ rest.tokens :=
    Source.tokens_append front rest
  have hstretch := hpair.balanced n
  apply lookAlike_of_tokens
  case first_operators =>
    intro hnone
    rw [hedited, List.append_eq_nil_iff, List.append_eq_nil_iff] at hnone
    obtain ⟨⟨hfront, -⟩, hrest⟩ := hnone
    rw [hplain, hfront, hrest] at hne
    exact hne rfl
  case second_operators => exact hne
  case viable_iff =>
    rw [hedited, hplain]
    exact viable_insert_iff hstretch
  case balanced_iff =>
    rw [hedited, hplain]
    exact balanced_insert_iff hstretch
  case views_eq =>
    intro hbalanced
    rw [hplain] at hbalanced
    rw [hedited, hplain]
    have hsilent := hpair.silent console.recording n front.tokens rest.tokens
    exact (Plain.views_inserted console.recording hbalanced hstretch hsilent (Plain.start _)).symm

/-- Decrements and increments in the middle of a block in a loop, which the loop comes by three
times. -/
theorem cancelling_edit_unseen_in_loop :
    Source.tokens ("+++[.-".toList ++ "]".toList) ≠ [] ∧
      LookAlike Script.console.recording
        ("+++[.-".toList ++ (List.replicate 300 '-' ++ List.replicate 300 '+') ++ "]".toList)
        ("+++[.-".toList ++ "]".toList) ⟨Script.ofInput [], []⟩ := by
  have hne : Source.tokens ("+++[.-".toList ++ "]".toList) ≠ [] := by decide
  exact ⟨hne, cancelling_edit_unseen Script.console hne (.decrementIncrement 300) _⟩

end Execution

end Brainfuck
