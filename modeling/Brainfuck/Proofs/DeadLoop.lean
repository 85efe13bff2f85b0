import Brainfuck.Proofs.Insertion
import Brainfuck.Proofs.Scene
import Brainfuck.Proofs.Showing

/-!
Loops that are never entered can be removed.

Behind a loop the cell is zero, however the run got there: it left the loop at its end or jumped over
it (`StepCase.zero_behind`). At the start of a program the cell is zero too, since the tape is blank.
So a loop that stands in one of these places is passed in one turn whenever the run comes by, and its
body may be anything that is balanced.

The rest of the program is the same but for its indexes. No block of equal operators is cut in two,
as a loop end or nothing at all stands in front of the place (`EndsLoop`), so each turn with the loop
is a turn without it (`Machine.step_inserted`), with the same tape to the last cell.
-/

namespace Brainfuck

/-- The tokens are empty or a loop end stands last. -/
def EndsLoop (tokens : List Token) : Prop :=
  ∀ k, k + 1 = tokens.length → tokens[k]? = some .loopEnd

theorem endsLoop_nil : EndsLoop [] :=
  fun k hk => absurd hk (Nat.succ_ne_zero k)

theorem endsLoop_concat (tokens : List Token) : EndsLoop (tokens ++ [.loopEnd]) := by
  intro k hk
  rw [List.length_append, List.length_singleton] at hk
  obtain rfl := Nat.succ.inj hk
  exact List.getElem?_concat_length

/-! ## Blocks -/

namespace Block

variable {front stretch rest : List Token} {t : Token} {i n : Nat}

theorem lt_of_endsLoop (h : Block (front ++ rest) t i n) (hfront : EndsLoop front)
    (ht : t ≠ .loopEnd) (hi : i < front.length) : i + n < front.length := by
  apply Classical.byContradiction
  intro hge
  obtain ⟨last, hlast⟩ := Nat.exists_eq_add_of_lt hi
  have hend := hfront (i + last) hlast.symm
  have hblock := h.get last (by omega)
  rw [List.getElem?_append_left (by omega), hend] at hblock
  exact ht (Option.some.inj hblock).symm

theorem moved_add (h : Block (front ++ rest) t i n) (hfront : EndsLoop front) (ht : t ≠ .loopEnd)
    (count : Nat) {k : Nat} (hk : k ≤ n) :
    moved front.length count (i + k) = moved front.length count i + k := by
  rcases Nat.lt_or_ge i front.length with hi | hi
  · have hlt := h.lt_of_endsLoop hfront ht hi
    rw [moved_of_lt hi, moved_of_lt (by omega)]
  · rw [moved_of_le hi, moved_of_le (by omega)]
    omega

theorem insert (h : Block (front ++ rest) t i n) (hfront : EndsLoop front) (ht : t ≠ .loopEnd) :
    Block (front ++ stretch ++ rest) t (moved front.length stretch.length i) n := by
  refine ⟨h.pos, ?_, ?_⟩
  · intro k hk
    rw [← h.moved_add hfront ht _ (Nat.le_of_lt hk), getElem?_moved]
    exact h.get k hk
  · rw [← h.moved_add hfront ht _ (Nat.le_refl n), getElem?_moved]
    exact h.stop

theorem arrived_add (h : Block (front ++ rest) t i n) (hfront : EndsLoop front) (ht : t ≠ .loopEnd)
    (count : Nat) : arrived front.length count (i + n) = moved front.length count i + n := by
  obtain ⟨m, rfl⟩ := Nat.exists_eq_add_of_le' h.pos
  rw [← Nat.add_assoc, ← moved_succ, h.moved_add hfront ht count (Nat.le_succ m)]
  rfl

end Block

/-! ## Two programs -/

/-- The second program has a balanced stretch more than the first, behind a loop or in front of
everything. -/
structure Program.Inserted (p q : Program) (front stretch rest : List Token) : Prop where
  first_paired : p.Paired
  first_tokens : p.tokens.toList = front ++ rest
  second_paired : q.Paired
  second_tokens : q.tokens.toList = front ++ stretch ++ rest
  balanced : Balanced stretch
  behind : EndsLoop front

namespace Program.Inserted

variable {p q : Program} {front stretch rest : List Token} {i : Nat} {t : Token}
  (h : Program.Inserted p q front stretch rest)

include h

theorem getElem?_eq (i : Nat) :
    q.tokens[moved front.length stretch.length i]? = p.tokens[i]? := by
  rw [← Array.getElem?_toList, ← Array.getElem?_toList, h.first_tokens, h.second_tokens]
  exact getElem?_moved front stretch rest i

theorem exists_runLength? (ht : p.tokens[i]? = some t) (hne : t ≠ .loopEnd) :
    ∃ n, runLength? p.tokens i = some n ∧
      runLength? q.tokens (moved front.length stretch.length i : Nat) = some n ∧
      arrived front.length stretch.length (i + n) = moved front.length stretch.length i + n := by
  obtain ⟨n, hn, block⟩ := runLength?_eq ht
  obtain ⟨m, hm, block'⟩ := runLength?_eq ((h.getElem?_eq i).trans ht)
  rw [h.first_tokens] at block
  rw [h.second_tokens] at block'
  obtain rfl := (block.insert h.behind hne).unique block'
  exact ⟨n, hn, hm, block.arrived_add h.behind hne _⟩

theorem exists_endOf? (ht : p.tokens[i]? = some .loopStart) :
    ∃ j : Nat, p.jumps.endOf? i = some (j : Int) ∧
      q.jumps.endOf? (moved front.length stretch.length i : Nat) =
        some (moved front.length stretch.length j : Nat) := by
  have hp : Pass p.tokens.toList [] p.jumps := pass_of_ofTokens h.first_paired
  have hq : Pass q.tokens.toList [] q.jumps := pass_of_ofTokens h.second_paired
  rw [← Array.getElem?_toList] at ht
  obtain ⟨j, hj⟩ := hp.balanced.exists_close ht
  refine ⟨j, (hp.closes i j).mpr ⟨i, j, rfl, rfl, hj⟩, (hq.closes _ _).mpr ⟨_, _, rfl, rfl, ?_⟩⟩
  rw [h.first_tokens] at hj
  rw [h.second_tokens]
  exact hj.insert h.balanced

theorem exists_startOf? (ht : p.tokens[i]? = some .loopEnd) :
    ∃ j : Nat, p.jumps.startOf? i = some (j : Int) ∧
      q.jumps.startOf? (moved front.length stretch.length i : Nat) =
        some (moved front.length stretch.length j : Nat) := by
  have hp : Pass p.tokens.toList [] p.jumps := pass_of_ofTokens h.first_paired
  have hq : Pass q.tokens.toList [] q.jumps := pass_of_ofTokens h.second_paired
  rw [← Array.getElem?_toList] at ht
  obtain ⟨j, hj⟩ := hp.balanced.exists_open ht
  refine ⟨j, (hp.opens i j).mpr ⟨i, j, rfl, rfl, hj⟩, (hq.opens _ _).mpr ⟨_, _, rfl, rfl, ?_⟩⟩
  rw [h.first_tokens] at hj
  rw [h.second_tokens]
  exact hj.insert h.balanced

end Program.Inserted

/-! ## One turn -/

/-- The machine with its index moved. -/
def Machine.reindex {σ : Type} (f : Nat → Nat) (machine : Machine σ) : Machine σ :=
  .standing (f machine.state.index.toNat) machine.state.tape machine.streams

/-- The same turn with tokens put in: an end is where the turn began, and a machine that goes on
stands where it has come to. -/
def Step.inserted {σ : Type} (place count : Nat) : Step σ → Step σ
  | .stopped last => .stopped (last.reindex (moved place count))
  | .failed why last => .failed why (last.reindex (moved place count))
  | .running next => .running (next.reindex (arrived place count))

namespace Machine

variable {σ : Type}

section

variable {p q : Program} {front stretch rest : List Token}
  (h : Program.Inserted p q front stretch rest)

theorem settle_operate {place count i n : Nat} (tape : Tape) (streams : σ) (op : Tape.Op)
    (hn : arrived place count (i + n) = moved place count i + n) :
    settle streams (State.operate ⟨(moved place count i : Nat), tape⟩ n op) =
      (settle streams (State.operate ⟨i, tape⟩ n op)).inserted place count := by
  simp only [State.operate]
  cases tape.fault? op with
  | some fault => rfl
  | none =>
    have hindex : ((i : Int) + n).toNat = i + n := rfl
    simp only [settle, Step.inserted, reindex, standing, hindex, hn, Int.natCast_add]

theorem settle_branch {place count i j : Nat} (tape : Tape) (streams : σ) (jumps : UInt8 → Bool) :
    settle streams (State.branch ⟨(moved place count i : Nat), tape⟩ jumps
        (some ((moved place count j : Nat) : Int))) =
      (settle streams (State.branch ⟨i, tape⟩ jumps (some (j : Int)))).inserted place count := by
  have hnext : ∀ k : Nat, ((moved place count k : Nat) : Int) + 1 =
      (arrived place count ((k : Int) + 1).toNat : Nat) := by
    intro k
    have hindex : ((k : Int) + 1).toNat = k + 1 := rfl
    rw [hindex, ← moved_succ]
    rfl
  simp only [State.branch]
  cases tape.current? with
  | none => rfl
  | some cell =>
    simp only [State.advance, hnext]
    split <;> rfl

include h

/-- A turn is the same with a balanced stretch put in behind a loop. -/
theorem step_inserted (console : Console σ) (i : Nat) (tape : Tape) (streams : σ) :
    (standing (moved front.length stretch.length i) tape streams).step console q =
      ((standing i tape streams).step console p).inserted front.length stretch.length := by
  have hget := h.getElem?_eq i
  have hsucc : arrived front.length stretch.length (i + 1) =
      moved front.length stretch.length i + 1 := (moved_succ _ _ i).symm
  cases ht : p.tokens[i]? with
  | none =>
    rw [ht] at hget
    have hp : State.turn p ⟨i, tape⟩ = .stop ⟨i, tape⟩ :=
      if_pos (Int.ofNat_le.mpr (Array.getElem?_eq_none_iff.mp ht))
    have hq : State.turn q ⟨(moved front.length stretch.length i : Nat), tape⟩ = .stop ⟨_, tape⟩ :=
      if_pos (Int.ofNat_le.mpr (Array.getElem?_eq_none_iff.mp hget))
    simp only [standing, step, hp, hq]
    rfl
  | some t =>
    rw [ht] at hget
    have hp : ¬ (p.length : Int) ≤ i :=
      Int.not_le.mpr (Int.ofNat_lt.mpr (Array.getElem?_eq_some_iff.mp ht).1)
    have hq : ¬ (q.length : Int) ≤ (moved front.length stretch.length i : Nat) :=
      Int.not_le.mpr (Int.ofNat_lt.mpr (Array.getElem?_eq_some_iff.mp hget).1)
    simp only [standing, step, State.turn, if_neg hp, if_neg hq, Program.token?_ofNat, ht, hget]
    cases t with
    | right | left | increment | decrement =>
      obtain ⟨n, hn, hm, harrived⟩ := h.exists_runLength? ht (by decide)
      simp only [hn, hm, Option.getD_some]
      exact settle_operate tape streams _ harrived
    | loopStart =>
      obtain ⟨j, hj, hk⟩ := h.exists_endOf? ht
      simp only [hj, hk]
      exact settle_branch tape streams _
    | loopEnd =>
      obtain ⟨j, hj, hk⟩ := h.exists_startOf? ht
      simp only [hj, hk]
      exact settle_branch tape streams _
    | input =>
      simp only
      rcases console.read streams with ⟨cause | answer, after⟩
      · rfl
      · exact settle_operate tape after _ hsucc
    | output =>
      simp only [State.emit]
      cases tape.current? with
      | none => rfl
      | some byte =>
        simp only
        rcases console.write byte streams with ⟨cause | answer, after⟩
        · rfl
        · have hindex : ((i : Int) + 1).toNat = i + 1 := rfl
          simp only [State.advance, Step.inserted, reindex, standing, hindex, hsucc,
            Int.natCast_add]
          rfl

end

/-- A run comes to a place behind a loop only with a zero in the cell. -/
theorem StepCase.zero_behind {console : Console σ} {tokens : List Token} {i place : Nat} {tape : Tape}
    {streams : σ} {next : Machine σ} (h : StepCase console tokens i tape streams (.running next))
    (hend : ∀ k, k + 1 = place → tokens[k]? = some .loopEnd) (hnext : next.state.index = place) :
    next.state.tape.current? = some 0 := by
  have hother : ∀ {k : Nat} {t : Token}, t ≠ .loopEnd → tokens[k]? = some t → (k + 1 : Nat) ≠ place := by
    intro k t ht hk hplace
    exact ht (Option.some.inj (hk.symm.trans (hend k hplace)))
  have hblock : ∀ {t : Token} {n : Nat}, t ≠ .loopEnd → Block tokens t i n → i + n ≠ place := by
    intro t n ht block
    obtain ⟨k, hk, hlast⟩ := block.exists_last
    rw [← hk]
    exact hother ht hlast
  -- the index that a turn leads to is never that of the place but behind a loop end
  cases h with
  | right block => exact absurd (Int.ofNat.inj hnext) (hblock (by decide) block)
  | left block _ => exact absurd (Int.ofNat.inj hnext) (hblock (by decide) block)
  | increment block => exact absurd (Int.ofNat.inj hnext) (hblock (by decide) block)
  | decrement block => exact absurd (Int.ofNat.inj hnext) (hblock (by decide) block)
  | skip _ zero => exact zero
  | enter ht _ => exact absurd (Int.ofNat.inj hnext) (hother (by decide) ht)
  | again hm _ => exact absurd (Int.ofNat.inj hnext) (hother (by decide) hm.opening)
  | leave _ zero => exact zero
  | read ht _ => exact absurd (Int.ofNat.inj hnext) (hother (by decide) ht)
  | write ht _ _ => exact absurd (Int.ofNat.inj hnext) (hother (by decide) ht)

/-! ## Whole runs -/

section

variable {p q : Program} {front body rest : List Token}

theorem reindex_start (place count : Nat) (streams : σ) :
    (start streams).reindex (arrived place count) = start streams := by
  have harrived : arrived place count 0 = 0 := arrived_of_le (Nat.zero_le _)
  show standing (arrived place count 0) _ _ = _
  rw [harrived]
  rfl

variable (h : Program.Inserted p q front (.loopStart :: (body ++ [.loopEnd])) rest)
  (hbody : Balanced body)

include h hbody

/-- A machine that has come to the loop passes over it, if it comes there with a zero in the cell. -/
theorem silent_arrived (console : Console σ) {machine : Machine σ} (hsound : machine.Sound p)
    (hzero : machine.state.index = front.length → machine.state.tape.current? = some 0) :
    (inFull console q).Silent (machine.reindex (arrived front.length (body.length + 2)))
      (machine.reindex (moved front.length (body.length + 2))) := by
  by_cases hi : machine.state.index.toNat = front.length
  · have hindex : machine.state.index = front.length := by
      rw [← hi, Int.toNat_of_nonneg hsound.index_nonneg]
    have hloop : Matches q.tokens.toList front.length (front.length + (body.length + 1)) := by
      rw [h.second_tokens]
      exact hbody.matches_loop.frame front rest
    have hskip := step_loopStart console h.second_paired hloop (hzero hindex) machine.streams
    rw [if_pos rfl] at hskip
    rw [reindex, reindex, hi, arrived_of_le (Nat.le_refl _), moved_of_le (Nat.le_refl _)]
    apply Relation.ReflTransGen.single
    refine ⟨?_, rfl⟩
    simp only [inFull, hskip]
    rfl
  · rw [reindex, reindex, arrived_of_ne hi]
    exact .refl

theorem views_inserted (console : Console σ) {machine : Machine σ} (hsound : machine.Sound p)
    (hzero : machine.state.index = front.length → machine.state.tape.current? = some 0) :
    (inFull console p).views machine =
      (inFull console q).views (machine.reindex (arrived front.length (body.length + 2))) := by
  have hlength : (Token.loopStart :: (body ++ [.loopEnd])).length = body.length + 2 := by
    rw [List.length_cons, List.length_append, List.length_singleton]
  have hend : ∀ k, k + 1 = front.length → p.tokens.toList[k]? = some .loopEnd := by
    intro k hk
    rw [h.first_tokens, List.getElem?_append_left (by omega)]
    exact h.behind k hk
  let related (a b : Machine σ) : Prop :=
    a.Sound p ∧ (a.state.index = front.length → a.state.tape.current? = some 0) ∧
      b = a.reindex (arrived front.length (body.length + 2))
  have hfollows : ∀ a b : Machine σ, related a b →
      Process.Follows (inFull console p) (inFull console q) related a b := by
    rintro a b ⟨ha, hcell, rfl⟩
    refine ⟨rfl, _, silent_arrived h hbody console ha hcell, ?_⟩
    have hstep := step_inserted h console a.state.index.toNat a.state.tape a.streams
    have hcase := ha.stepCase h.first_paired console
    have hnext := ha.step h.first_paired console
    rw [hlength, ← ha.eq_standing] at hstep
    simp only [inFull, reindex, hstep]
    cases hs : a.step console p with
    | stopped last => rfl
    | failed why last => rfl
    | running next =>
      rw [hs] at hcase hnext
      exact ⟨_, rfl, hnext, fun hplace => hcase.zero_behind hend hplace, rfl⟩
  exact Process.views_eq_of_follows hfollows ⟨hsound, hzero, rfl⟩

end

end Machine

/-! ## Sources -/

namespace Source

/-- A loop around a text. -/
def looped (body : Source) : Source :=
  '[' :: (body ++ [']'])

theorem tokens_looped (body : Source) :
    body.looped.tokens = .loopStart :: (body.tokens ++ [.loopEnd]) := by
  show .loopStart :: tokens (body ++ [']']) = _
  rw [tokens_append]
  rfl

end Source

namespace Execution

variable {σ : Type} {front body rest : Source}

/-- A loop behind a loop, or in front of everything, can be removed. -/
theorem runAlike_inserted (console : Console σ) (hfront : EndsLoop front.tokens)
    (hbody : Balanced body.tokens) (h : (front ++ rest).IsProgram) (streams : σ) :
    RunAlike console (front ++ body.looped ++ rest) (front ++ rest) streams := by
  have hfirst : (front ++ rest).tokens = front.tokens ++ rest.tokens := Source.tokens_append _ _
  have hsecond : (front ++ body.looped ++ rest).tokens =
      front.tokens ++ (.loopStart :: (body.tokens ++ [.loopEnd])) ++ rest.tokens := by
    rw [Source.tokens_append, Source.tokens_append, Source.tokens_looped]
  have hbalanced := (Source.isProgram_iff.mp h).2
  have hinserted : (front ++ body.looped ++ rest).IsProgram := by
    apply Source.isProgram_iff.mpr
    rw [hsecond, balanced_insert_iff hbody.loop, ← hfirst]
    exact ⟨by simp, hbalanced⟩
  obtain ⟨p, hp⟩ := exists_program_of_isProgram h
  obtain ⟨q, hq⟩ := exists_program_of_isProgram hinserted
  obtain ⟨hpaired, htokens⟩ := program_eq_ok hp
  obtain ⟨hpaired', htokens'⟩ := program_eq_ok hq
  have hprograms : Program.Inserted p q front.tokens
      (.loopStart :: (body.tokens ++ [.loopEnd])) rest.tokens :=
    ⟨hpaired, htokens.trans hfirst, hpaired', htokens'.trans hsecond, hbody.loop, hfront⟩
  have hblank : (Tape.blank Tape.initialSize).current? = some 0 := rfl
  have hviews := Machine.views_inserted hprograms hbody console (Machine.sound_start streams)
    fun _ => hblank
  apply runAlike_of_scenes hq hp
  rw [Machine.scenes_eq_views, Machine.scenes_eq_views, hviews]
  rw [Machine.reindex_start]

/-- A loop in front of a program, or right behind another loop, can be removed: the runs make the same
calls, end in the same way or not at all, and leave the same tape. -/
theorem dead_loops_removable (console : Console σ) {b : Source} (hb : Balanced b.tokens)
    (streams : σ) :
    (∀ p : Source, p.IsProgram →
        RunAlike console.recording (b.looped ++ p) p ⟨streams, []⟩) ∧
      ∀ u a v : Source, (u ++ a.looped ++ v).IsProgram →
        RunAlike console.recording (u ++ a.looped ++ b.looped ++ v) (u ++ a.looped ++ v)
          ⟨streams, []⟩ := by
  constructor
  · intro p hp
    have hfront : EndsLoop (Source.tokens []) := endsLoop_nil
    exact runAlike_inserted console.recording hfront hb hp _
  · intro u a v huav
    have hfront : EndsLoop (u ++ a.looped).tokens := by
      rw [Source.tokens_append, Source.tokens_looped, ← List.cons_append, ← List.append_assoc]
      exact endsLoop_concat _
    exact runAlike_inserted console.recording hfront hb huav _

/-- A loop that would read, write and move to the left, removed in front of a program and behind a
loop in another one; the run that is left fails at the left end. -/
theorem dead_loops_removable_failing :
    Balanced (Source.tokens "<[.,]".toList) ∧ Source.IsProgram ",.".toList ∧
      Source.IsProgram ("+>".toList ++ Source.looped ",.<-".toList ++ "<<".toList) ∧
      RunAlike Script.console.recording (Source.looped "<[.,]".toList ++ ",.".toList) ",.".toList
        ⟨Script.ofInput [7], []⟩ ∧
      RunAlike Script.console.recording
        ("+>".toList ++ Source.looped ",.<-".toList ++ Source.looped "<[.,]".toList ++ "<<".toList)
        ("+>".toList ++ Source.looped ",.<-".toList ++ "<<".toList) ⟨Script.ofInput [7], []⟩ := by
  have hbalanced : Balanced (Source.tokens "<[.,]".toList) := by decide
  have hread : Source.IsProgram ",.".toList := ⟨_, rfl⟩
  have hleft : Source.IsProgram ("+>".toList ++ Source.looped ",.<-".toList ++ "<<".toList) :=
    ⟨_, rfl⟩
  obtain ⟨hfront, hbehind⟩ :=
    dead_loops_removable Script.console hbalanced (Script.ofInput [7])
  exact ⟨hbalanced, hread, hleft, hfront _ hread, hbehind _ _ _ hleft⟩

end Execution

end Brainfuck
