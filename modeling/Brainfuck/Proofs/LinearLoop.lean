import Mathlib.Algebra.Ring.Int.Defs
import Brainfuck.Proofs.WholeBlock

/-!
Loops that multiply.

A stretch of moves and edits takes the pointer so far (`drift`) and adds so much to every cell,
counted from where it starts (`change`). What the machine makes of a tape in such a stretch is told
by these two (`Tape.Becomes`): a block does (`becomes_block`), one stretch behind another does
(`Becomes.append`), and so the run through a whole stretch does, if the pointer has the room
(`exists_pass`).

A loop is linear when the moves of its body cancel and the body takes one from the cell it starts
from, modulo 256. Each pass through the body then takes one from that cell, so the loop comes to its
end after as many passes as the cell said at first, and to every other cell it has added as often
what the body adds to it.
-/

namespace Brainfuck

/-- How far an operator takes the pointer to the right. -/
def Token.stride : Token → Int
  | .right => 1
  | .left => -1
  | .increment | .decrement | .loopStart | .loopEnd | .input | .output => 0

/-- What an operator adds to the cell under the pointer. -/
def Token.amount : Token → Int
  | .increment => 1
  | .decrement => -1
  | .right | .left | .loopStart | .loopEnd | .input | .output => 0

/-- How far a stretch of operators takes the pointer to the right in all. -/
def drift (stretch : List Token) : Int :=
  (stretch.map Token.stride).sum

/-- What a stretch of operators adds in all to the cell at an offset from where it starts. -/
def change : List Token → Int → Int
  | [], _ => 0
  | t :: rest, offset => (if offset = 0 then t.amount else 0) + change rest (offset - t.stride)

/-! ## Stretches put together -/

section

variable (t : Token) (first second : List Token) (offset : Int)

theorem drift_cons : drift (t :: first) = t.stride + drift first := by
  rw [drift, List.map_cons, List.sum_cons, drift]

theorem drift_append : drift (first ++ second) = drift first + drift second := by
  rw [drift, List.map_append, List.sum_append, drift, drift]

theorem change_append :
    change (first ++ second) offset =
      change first offset + change second (offset - drift first) := by
  induction first generalizing offset with
  | nil => simp [change, drift]
  | cons t first ih =>
    rw [List.cons_append, change, change, ih, drift_cons, Int.sub_sub, Int.add_assoc]

theorem drift_replicate (n : Nat) : drift (List.replicate n t) = n * t.stride := by
  rw [drift, List.map_replicate, List.sum_replicate_int]

theorem change_replicate (n : Nat) :
    change (List.replicate n t) offset = if offset = 0 then n * t.amount else 0 := by
  induction n generalizing offset with
  | zero => simp [change]
  | succ n ih =>
    rw [List.replicate_succ, change, ih]
    cases t <;> simp [Token.stride, Token.amount] <;> split <;> omega

theorem change_flatten {body : List Token} (h : drift body = 0) (passes : Nat) :
    change (List.replicate passes body).flatten offset = passes * change body offset := by
  induction passes with
  | zero => simp [change]
  | succ passes ih =>
    rw [List.replicate_succ, List.flatten_cons, change_append, h, Int.sub_zero, ih,
      Int.natCast_succ, Int.add_mul, Int.one_mul, Int.add_comm]

theorem drift_flatten {body : List Token} (h : drift body = 0) (passes : Nat) :
    drift (List.replicate passes body).flatten = 0 := by
  induction passes with
  | zero => rfl
  | succ passes ih => rw [List.replicate_succ, List.flatten_cons, drift_append, h, ih, Int.add_zero]

end

/-! ## What a stretch makes of a tape -/

/-- The tape `after` is what a stretch of moves and edits makes of a tape. -/
structure Tape.Becomes (tape : Tape) (stretch : List Token) (after : Tape) : Prop where
  inside : after.Inside
  pointer_eq : after.pointer = tape.pointer + drift stretch
  cellAt_eq : ∀ i : Nat, ((after.cellAt i).toNat : Int) =
    ((tape.cellAt i).toNat + change stretch (i - tape.pointer)) % 256

namespace Tape

variable {tape : Tape}

theorem Becomes.refl (h : tape.Inside) : tape.Becomes [] tape where
  inside := h
  pointer_eq := (Int.add_zero _).symm
  cellAt_eq i := by
    have hlt := (tape.cellAt i).toNat_lt
    rw [change]
    omega

theorem Becomes.append {first second : List Token} {between after : Tape}
    (h : tape.Becomes first between) (h' : between.Becomes second after) :
    tape.Becomes (first ++ second) after where
  inside := h'.inside
  pointer_eq := by rw [h'.pointer_eq, h.pointer_eq, drift_append, Int.add_assoc]
  cellAt_eq i := by
    rw [h'.cellAt_eq, h.cellAt_eq, h.pointer_eq, change_append, Int.emod_add_emod, Int.add_assoc,
      Int.sub_sub]

theorem toNat_ofInt (z : Int) : ((UInt8.ofInt z).toNat : Int) = z % 256 := by
  rw [UInt8.ofInt, UInt8.toNat_ofNat']
  omega

theorem becomes_modify (h : tape.Inside) (amount : Int) {stretch : List Token}
    (hdrift : drift stretch = 0)
    (hchange : ∀ offset, change stretch offset = if offset = 0 then amount else 0) :
    tape.Becomes stretch (tape.modify fun cell => UInt8.ofInt (cell.toNat + amount)) where
  inside := inside_modify h _
  pointer_eq := by rw [pointer_modify, hdrift, Int.add_zero]
  cellAt_eq i := by
    have hpointer := h.1
    rw [cellAt_modify h, hchange]
    by_cases hi : i = tape.pointer.toNat
    · have hoffset : (i : Int) - tape.pointer = 0 := by
        omega
      rw [if_pos hi, if_pos hoffset, toNat_ofInt]
    · have hoffset : ¬ (i : Int) - tape.pointer = 0 := by
        omega
      have hlt := (tape.cellAt i).toNat_lt
      rw [if_neg hi, if_neg hoffset]
      omega

theorem becomes_move {after : Tape} (hin : after.Inside) {stretch : List Token}
    (hpointer : after.pointer = tape.pointer + drift stretch)
    (hcells : ∀ i, after.cellAt i = tape.cellAt i) (hchange : ∀ offset, change stretch offset = 0) :
    tape.Becomes stretch after where
  inside := hin
  pointer_eq := hpointer
  cellAt_eq i := by
    have hlt := (tape.cellAt i).toNat_lt
    rw [hcells, hchange]
    omega

/-- The operation of equal operators is not refused where there is room, and makes of the tape what
the operators make of it. -/
theorem becomes_block (h : tape.Inside) {t : Token} {n : Nat} {op : Op}
    (hop : t.operation? n = some op) (hroom : 0 ≤ tape.pointer + drift (List.replicate n t)) :
    tape.fault? op = none ∧ tape.Becomes (List.replicate n t) (tape.apply op) := by
  rw [drift_replicate] at hroom
  have hdrift := drift_replicate t n
  have hchange := fun offset => change_replicate t offset n
  cases t with
  | right =>
    obtain rfl := Option.some.inj hop
    refine ⟨rfl, becomes_move (inside_moveRight h (Int.natCast_nonneg n)) ?_ ?_ ?_⟩
    · rw [pointer_moveRight, hdrift, Token.stride, Int.mul_one]
    · exact cellAt_moveRight tape n
    · intro offset
      rw [hchange, Token.amount, Int.mul_zero, ite_self]
  | left =>
    obtain rfl := Option.some.inj hop
    rw [Token.stride] at hroom
    have hfault : tape.fault? (.moveLeft n) = none := if_neg (by omega)
    refine ⟨hfault, becomes_move (inside_moveLeft h (Int.natCast_nonneg n) hfault) ?_ ?_ ?_⟩
    · rw [pointer_moveLeft, hdrift, Token.stride]
      omega
    · exact cellAt_moveLeft tape n
    · intro offset
      rw [hchange, Token.amount, Int.mul_zero, ite_self]
  | increment =>
    obtain rfl := Option.some.inj hop
    refine ⟨h.fault?_add n, becomes_modify h n ?_ ?_⟩
    · rw [hdrift, Token.stride, Int.mul_zero]
    · intro offset
      rw [hchange, Token.amount, Int.mul_one]
  | decrement =>
    obtain rfl := Option.some.inj hop
    refine ⟨h.fault?_sub n, becomes_modify h (-n) ?_ ?_⟩
    · rw [hdrift, Token.stride, Int.mul_zero]
    · intro offset
      rw [hchange, Token.amount, Int.mul_neg_one]
  | loopStart | loopEnd | input | output => contradiction

end Tape

/-! ## The run through a stretch -/

namespace Machine

variable {σ : Type}

/-- The turns that lead from one machine to another, each by the index it is made at. -/
inductive Path (console : Console σ) (program : Program) :
    Machine σ → List Int → Machine σ → Prop
  | refl (machine : Machine σ) : Path console program machine [] machine
  | step {machine next last : Machine σ} {indices : List Int}
      (h : machine.step console program = .running next)
      (rest : Path console program next indices last) :
    Path console program machine (machine.state.index :: indices) last

namespace Path

variable {console : Console σ} {program : Program} {machine between last : Machine σ}
  {indices more : List Int}

theorem append (h : Path console program machine indices between)
    (h' : Path console program between more last) :
    Path console program machine (indices ++ more) last := by
  induction h with
  | refl _ => exact h'
  | step hstep _ ih => exact .step hstep (ih h')

theorem single {next : Machine σ} (h : machine.step console program = .running next) :
    Path console program machine [machine.state.index] next :=
  .step h (.refl next)

theorem runFrom_eq (h : Path console program machine indices last) (bound turns : Nat) :
    runFrom console program (indices.length + bound) turns machine =
      runFrom console program bound (turns + indices.length) last := by
  induction h generalizing turns with
  | refl _ => rw [List.length_nil, Nat.zero_add, Nat.add_zero]
  | step hstep _ ih =>
    rw [List.length_cons, Nat.add_right_comm, runFrom, hstep]
    dsimp only
    rw [ih, Nat.add_assoc, Nat.add_comm 1]

theorem runFor_eq (h : Path console program machine indices last)
    (hstop : last.step console program = .stopped last) {bound : Nat}
    (hbound : indices.length < bound) :
    runFor console program bound machine = .succeeded indices.length last := by
  obtain ⟨extra, rfl⟩ := Nat.exists_eq_add_of_lt hbound
  rw [runFor, Nat.add_assoc, h.runFrom_eq, runFrom, hstop, Nat.zero_add]

end Path

/-- Indices that go on from the first of a stretch and stay in front of its end. -/
structure Onward (first last : Nat) (indices : List Int) : Prop where
  head_eq : first < last → indices.head? = some (first : Int)
  increasing : indices.Pairwise (· < ·)
  range : ∀ i ∈ indices, first ≤ i ∧ i < last

theorem Onward.cons {first next last : Nat} {indices : List Int} (h : Onward next last indices)
    (hfirst : first < next) (hnext : next ≤ last) : Onward first last (first :: indices) where
  head_eq _ := rfl
  increasing := by
    refine List.Pairwise.cons ?_ h.increasing
    intro i hi
    have hi := h.range i hi
    omega
  range i hi := by
    rcases List.mem_cons.mp hi with rfl | hi
    · omega
    · have hi := h.range i hi
      omega

end Machine

theorem exists_leading (t : Token) (rest : List Token) :
    ∃ n more, t :: rest = List.replicate (n + 1) t ++ more ∧ more.head? ≠ some t := by
  induction rest with
  | nil => exact ⟨0, [], rfl, (Option.some_ne_none t).symm⟩
  | cons u rest ih =>
    by_cases hu : u = t
    · obtain ⟨n, more, hsplit, hmore⟩ := ih
      refine ⟨n + 1, more, ?_, hmore⟩
      rw [hu, hsplit, ← List.cons_append, ← List.replicate_succ]
    · refine ⟨0, u :: rest, rfl, ?_⟩
      intro h
      exact hu (Option.some.inj h)

theorem block_of_leading {t u : Token} (front more behind : List Token) (n : Nat)
    (hmore : more.head? ≠ some t) (hu : u ≠ t) :
    Block (front ++ (List.replicate (n + 1) t ++ more ++ u :: behind)) t front.length (n + 1) where
  pos := Nat.succ_pos n
  get k hk := by
    have hlt : k < (List.replicate (n + 1) t).length := by
      rw [List.length_replicate]
      exact hk
    rw [List.getElem?_append_right (Nat.le_add_right _ _), Nat.add_sub_cancel_left,
      List.append_assoc, List.getElem?_append_left hlt, List.getElem?_replicate, if_pos hk]
  stop := by
    have hle : (List.replicate (n + 1) t).length ≤ n + 1 := Nat.le_of_eq List.length_replicate
    rw [List.getElem?_append_right (Nat.le_add_right _ _), Nat.add_sub_cancel_left,
      List.append_assoc, List.getElem?_append_right hle, List.length_replicate, Nat.sub_self]
    cases more with
    | nil =>
      intro h
      exact hu (Option.some.inj h)
    | cons v more => exact hmore

namespace Machine

variable {σ : Type}

theorem step_block (console : Console σ) {program : Program} {t : Token} {i n : Nat}
    (block : Block program.tokens.toList t i n) (ht : t.isBatched = true) {tape : Tape}
    (h : tape.Inside) (hroom : 0 ≤ tape.pointer + drift (List.replicate n t)) :
    ∃ after, tape.Becomes (List.replicate n t) after ∧
      ∀ streams, (standing i tape streams).step console program =
        .running (standing (i + n) after streams) := by
  obtain ⟨op, hop⟩ := t.exists_operation ht n
  obtain ⟨hfault, hbecomes⟩ := Tape.becomes_block h hop hroom
  refine ⟨tape.apply op, hbecomes, ?_⟩
  intro streams
  have hturn := State.turn_block block tape hop
  simp only [standing, step, hturn]
  rw [State.operate_of_none hfault]
  rfl

/-- The run through a stretch of moves and edits: it makes the same turns on every tape with enough
room, and makes of the tape what the stretch makes of it. -/
theorem exists_pass (console : Console σ) {program : Program} {front rest behind : List Token}
    (htokens : program.tokens.toList = front ++ (rest ++ .loopEnd :: behind))
    (hrest : ∀ t ∈ rest, t.isBatched = true) :
    ∃ pass, Onward front.length (front.length + rest.length) pass ∧
      ∀ (tape : Tape) (streams : σ), tape.Inside →
        (∀ n, 0 ≤ tape.pointer + drift (rest.take n)) →
          ∃ after, tape.Becomes rest after ∧ Path console program
            (standing front.length tape streams) pass
            (standing (front.length + rest.length) after streams) := by
  -- a block is shorter than the stretch that it begins, so the induction is on the length
  induction hlength : rest.length using Nat.strongRecOn generalizing front rest with
  | ind length ih =>
    subst hlength
    cases rest with
    | nil =>
      refine ⟨[], ?_, ?_⟩
      · exact ⟨fun h => absurd h (Nat.lt_irrefl _), List.Pairwise.nil, fun i hi => nomatch hi⟩
      · intro tape streams hin _
        exact ⟨tape, .refl hin, .refl _⟩
    | cons t rest =>
      have ht : t.isBatched = true := hrest t List.mem_cons_self
      obtain ⟨n, more, hsplit, hmore⟩ := exists_leading t rest
      rw [hsplit] at htokens hrest ih ⊢
      have hend : Token.loopEnd ≠ t := by
        intro heq
        rw [← heq] at ht
        contradiction
      have block := block_of_leading front more behind n hmore hend
      rw [← htokens] at block
      have hfront : (front ++ List.replicate (n + 1) t).length = front.length + (n + 1) := by
        rw [List.length_append, List.length_replicate]
      have hwhole : (List.replicate (n + 1) t ++ more).length = n + 1 + more.length := by
        rw [List.length_append, List.length_replicate]
      have hshorter : more.length < (List.replicate (n + 1) t ++ more).length := by
        omega
      have hmoretokens : program.tokens.toList =
          front ++ List.replicate (n + 1) t ++ (more ++ .loopEnd :: behind) := by
        rw [htokens, List.append_assoc, List.append_assoc]
      have hmorebatched : ∀ u ∈ more, u.isBatched = true := by
        intro u hu
        exact hrest u (List.mem_append_right _ hu)
      obtain ⟨pass, honward, hpass⟩ := ih more.length hshorter hmoretokens hmorebatched rfl
      rw [hfront, Nat.add_assoc] at honward hpass
      rw [hwhole]
      refine ⟨front.length :: pass, honward.cons (by omega) (by omega), ?_⟩
      intro tape streams hin hroom
      have hfirst := hroom (n + 1)
      rw [List.take_left' List.length_replicate] at hfirst
      obtain ⟨between, hbecomes, hstep⟩ := step_block console block ht hin hfirst
      have hlater : ∀ k, 0 ≤ between.pointer + drift (more.take k) := by
        intro k
        have hk := hroom (n + 1 + k)
        have htake : (List.replicate (n + 1) t ++ more).take (n + 1 + k) =
            List.replicate (n + 1) t ++ more.take k := by
          have htake := @List.take_length_add_append _ (List.replicate (n + 1) t) more k
          rwa [List.length_replicate] at htake
        rw [htake, drift_append] at hk
        rw [hbecomes.pointer_eq]
        omega
      obtain ⟨after, hafter, hpath⟩ := hpass between streams hbecomes.inside hlater
      exact ⟨after, hbecomes.append hafter, .step (hstep streams) hpath⟩

end Machine

/-! ## The loop -/

/-- The body of a loop that multiplies: its moves cancel, and it takes one from the cell it starts
from. -/
structure LinearBody (body : List Token) : Prop where
  batched : ∀ t ∈ body, t.isBatched = true
  drift_eq : drift body = 0
  change_eq : change body 0 % 256 = -1 % 256

/-- The tape `after` has a zero under the same pointer, and to every other cell has been added so
many times what the body adds to it. -/
structure Tape.Multiplied (tape : Tape) (body : List Token) (times : Nat) (after : Tape) : Prop where
  pointer_eq : after.pointer = tape.pointer
  current_eq : after.current? = some 0
  cellAt_eq : ∀ i : Nat, (i : Int) ≠ tape.pointer → ((after.cellAt i).toNat : Int) =
    ((tape.cellAt i).toNat + times * change body (i - tape.pointer)) % 256

namespace LinearBody

variable {body : List Token}

theorem balanced (h : LinearBody body) : Balanced body := by
  apply balanced_of_no_bracket
  intro t ht
  have hbatched := h.batched t ht
  constructor
  · intro heq
    rw [heq] at hbatched
    contradiction
  · intro heq
    rw [heq] at hbatched
    contradiction

theorem toNat_after (h : LinearBody body) {tape after : Tape} (hin : tape.Inside)
    (hafter : tape.Becomes body after) {count : Nat}
    (hcount : (tape.cellAt tape.pointer.toNat).toNat = count + 1) :
    (after.cellAt after.pointer.toNat).toNat = count := by
  have hpointer : after.pointer = tape.pointer := by
    rw [hafter.pointer_eq, h.drift_eq, Int.add_zero]
  have hcell := hafter.cellAt_eq tape.pointer.toNat
  have hlt := (tape.cellAt tape.pointer.toNat).toNat_lt
  have hchange := h.change_eq
  rw [Int.toNat_of_nonneg hin.1, Int.sub_self, hcount] at hcell
  rw [hpointer]
  omega

end LinearBody

namespace Machine

variable {σ : Type}

/-- From its first operator on, the body is gone through as often as the cell says, and the loop is
left. -/
theorem exists_passes {console : Console σ} {program : Program} (hp : program.Paired)
    {body : List Token} (hbody : LinearBody body)
    (htokens : program.tokens.toList = .loopStart :: (body ++ [.loopEnd])) {pass : List Int}
    (hpass : ∀ (tape : Tape) (streams : σ), tape.Inside →
      (∀ n, 0 ≤ tape.pointer + drift (body.take n)) →
        ∃ after, tape.Becomes body after ∧
          Path console program (standing 1 tape streams) pass
            (standing (body.length + 1) after streams)) (streams : σ) {tape : Tape}
    (hin : tape.Inside) (hroom : ∀ n, 0 ≤ tape.pointer + drift (body.take n)) {count : Nat}
    (hcount : (tape.cellAt tape.pointer.toNat).toNat = count + 1) :
    ∃ after, tape.Becomes (List.replicate (count + 1) body).flatten after ∧
      Path console program (standing 1 tape streams)
        (List.replicate (count + 1) (pass ++ [((body.length + 1 : Nat) : Int)])).flatten
        (standing (body.length + 2) after streams) := by
  have hmatches : Matches program.tokens.toList 0 (body.length + 1) := by
    rw [htokens]
    exact hbody.balanced.matches_loop
  induction count generalizing tape with
  | zero =>
    obtain ⟨after, hafter, hpath⟩ := hpass tape streams hin hroom
    have hzero : after.cellAt after.pointer.toNat = 0 := by
      apply UInt8.toNat_inj.mp
      exact hbody.toNat_after hin hafter hcount
    have hleave := step_loopEnd console hp hmatches hafter.inside.current?_eq streams
    rw [hzero, if_pos rfl] at hleave
    refine ⟨after, ?_, ?_⟩
    · rw [Nat.zero_add, List.replicate_one, List.flatten_singleton]
      exact hafter
    · rw [Nat.zero_add, List.replicate_one, List.flatten_singleton]
      exact hpath.append (.single hleave)
  | succ count ih =>
    obtain ⟨between, hbetween, hpath⟩ := hpass tape streams hin hroom
    have hcell := hbody.toNat_after hin hbetween hcount
    have hnonzero : between.cellAt between.pointer.toNat ≠ 0 := by
      intro hzero
      rw [hzero] at hcell
      contradiction
    have hpointer : between.pointer = tape.pointer := by
      rw [hbetween.pointer_eq, hbody.drift_eq, Int.add_zero]
    have hagain := step_loopEnd console hp hmatches hbetween.inside.current?_eq streams
    rw [if_neg hnonzero] at hagain
    obtain ⟨after, hafter, hrest⟩ := ih hbetween.inside (hpointer ▸ hroom) hcell
    refine ⟨after, ?_, ?_⟩
    · rw [List.replicate_succ, List.flatten_cons]
      exact hbetween.append hafter
    · rw [List.replicate_succ, List.flatten_cons]
      exact (hpath.append (.single hagain)).append hrest

end Machine

/-- What the loop has made of the tape: the cell that counts is at zero, since it was gone through as
often as it said. -/
theorem LinearBody.multiplied {body : List Token} (h : LinearBody body) {tape after : Tape}
    (hin : tape.Inside) {times : Nat} (htimes : (tape.cellAt tape.pointer.toNat).toNat = times)
    (hafter : tape.Becomes (List.replicate times body).flatten after) :
    tape.Multiplied body times after := by
  have hpointer : after.pointer = tape.pointer := by
    rw [hafter.pointer_eq, drift_flatten h.drift_eq, Int.add_zero]
  have hcells : ∀ i : Nat, ((after.cellAt i).toNat : Int) =
      ((tape.cellAt i).toNat + times * change body (i - tape.pointer)) % 256 := by
    intro i
    rw [hafter.cellAt_eq, change_flatten _ h.drift_eq]
  constructor
  case pointer_eq => exact hpointer
  case current_eq =>
    have hcell := hcells tape.pointer.toNat
    rw [Int.toNat_of_nonneg hin.1, Int.sub_self, htimes] at hcell
    -- so many times one less than nothing takes the cell to zero
    have hmod : ((times : Int) + times * change body 0) % 256 = 0 := by
      have hone : ((times : Int) + times * change body 0) = times * (1 + change body 0) := by
        rw [Int.mul_add, Int.mul_one]
      have hchange := h.change_eq
      have hdvd : (256 : Int) ∣ 1 + change body 0 := by
        omega
      rw [hone]
      exact Int.emod_eq_zero_of_dvd (Int.dvd_mul_of_dvd_right hdvd)
    have hzero : after.cellAt after.pointer.toNat = 0 := by
      apply UInt8.toNat_inj.mp
      rw [hpointer]
      rw [hmod] at hcell
      exact Int.ofNat.inj hcell
    rw [hafter.inside.current?_eq, hzero]
  case cellAt_eq => exact fun i _ => hcells i

namespace Machine

variable {σ : Type}

/-- A loop whose body moves back and forth and takes one from the cell it starts from comes to its
end without a call on the streams. The body is gone through, from its first operator to its last, as
often as the cell says; the cell is then zero, and to every other cell has been added as often what
the body adds to it. -/
theorem linear_loop_multiplies (console : Console σ) {source : Source} {body : List Token}
    (hsource : source.tokens = .loopStart :: (body ++ [.loopEnd])) (hbody : LinearBody body)
    {tape : Tape} {cell : UInt8} (hcell : tape.current? = some cell)
    (hroom : ∀ n, n ≤ body.length → 0 ≤ tape.pointer + drift (body.take n))
    (streams : Recorded σ) :
    ∃ (program : Program) (pass : List Int) (after : Tape),
      Program.ofSource source = .ok program ∧
      tape.Multiplied body cell.toNat after ∧
      Onward 1 (body.length + 1) pass ∧
      Path console.recording program ⟨State.start tape, streams⟩
        (0 :: (List.replicate cell.toNat (pass ++ [((body.length + 1 : Nat) : Int)])).flatten)
        (standing (body.length + 2) after streams) ∧
      ∀ bound, 1 + cell.toNat * (pass.length + 1) < bound →
        runFor console.recording program bound ⟨State.start tape, streams⟩ =
          .succeeded (1 + cell.toNat * (pass.length + 1))
            (standing (body.length + 2) after streams) := by
  have hbalanced : Balanced source.tokens := hsource ▸ hbody.balanced.loop
  have hne : source.tokens ≠ [] := hsource ▸ List.cons_ne_nil _ _
  obtain ⟨program, hprogram⟩ := Program.exists_program hne hbalanced
  obtain ⟨hp, htokens⟩ := Program.paired_of_ofSource hprogram
  rw [hsource] at htokens
  have hin : tape.Inside := Tape.inside_of_current? hcell (by simpa [drift] using hroom 0)
  have hcount : tape.cellAt tape.pointer.toNat = cell :=
    Option.some.inj (hin.current?_eq.symm.trans hcell)
  have hanywhere : ∀ n, 0 ≤ tape.pointer + drift (body.take n) := by
    intro n
    rcases Nat.le_total n body.length with hn | hn
    · exact hroom n hn
    · have hall := hroom body.length (Nat.le_refl _)
      rwa [List.take_length, ← List.take_of_length_le hn] at hall
  have hbehind : program.tokens.toList = [.loopStart] ++ (body ++ .loopEnd :: []) := htokens
  obtain ⟨pass, honward, hpass⟩ := exists_pass console.recording hbehind hbody.batched
  rw [List.length_singleton, Nat.add_comm] at honward hpass
  have hmatches : Matches program.tokens.toList 0 (body.length + 1) :=
    htokens ▸ hbody.balanced.matches_loop
  have hfirst := step_loopStart console.recording hp hmatches hcell streams
  -- the loop is passed over, or its body is gone through at least once
  have hloop : ∃ after, tape.Becomes (List.replicate cell.toNat body).flatten after ∧
      Path console.recording program (standing 0 tape streams)
        (0 :: (List.replicate cell.toNat (pass ++ [((body.length + 1 : Nat) : Int)])).flatten)
        (standing (body.length + 2) after streams) := by
    cases htimes : cell.toNat with
    | zero =>
      have hzero : cell = 0 := UInt8.toNat_inj.mp htimes
      rw [if_pos hzero] at hfirst
      exact ⟨tape, .refl hin, .single hfirst⟩
    | succ count =>
      have hnonzero : cell ≠ 0 := by
        intro hzero
        rw [hzero] at htimes
        contradiction
      rw [if_neg hnonzero] at hfirst
      have hpasses : (tape.cellAt tape.pointer.toNat).toNat = count + 1 := by
        rw [hcount, htimes]
      obtain ⟨after, hafter, hpath⟩ :=
        exists_passes hp hbody htokens hpass streams hin hanywhere hpasses
      exact ⟨after, hafter, .step hfirst hpath⟩
  obtain ⟨after, hafter, hpath⟩ := hloop
  have hlength : program.length = body.length + 2 := by
    rw [Program.length, ← Array.length_toList, htokens, List.length_cons, List.length_append,
      List.length_singleton]
  have hstop := step_end console.recording program after streams
  rw [hlength] at hstop
  refine ⟨program, pass, after, hprogram, hbody.multiplied hin (congrArg _ hcount) hafter, honward,
    hpath, ?_⟩
  intro bound hbound
  have hturns : (0 :: (List.replicate cell.toNat
      (pass ++ [((body.length + 1 : Nat) : Int)])).flatten).length =
        1 + cell.toNat * (pass.length + 1) := by
    rw [List.length_cons, List.length_flatten, List.map_replicate, List.sum_replicate_nat,
      List.length_append, List.length_singleton, Nat.add_comm]
  rw [← hturns] at hbound ⊢
  exact hpath.runFor_eq hstop hbound

/-- A cell with five in it is added twice to the next one and once to a cell that the tape does not
hold yet. -/
theorem linear_loop_multiplies_copy :
    LinearBody [.decrement, .right, .increment, .increment, .right, .increment, .left, .left] ∧
    ∃ (program : Program) (turns : Nat) (after : Tape),
      Program.ofSource "[- copy >++>+<<]".toList = .ok program ∧
      (∀ bound, turns < bound → runFor Script.console.recording program bound
          ⟨State.start ⟨#[0, 5, 250], 1⟩, ⟨Script.ofInput [], []⟩⟩ =
        .succeeded turns (standing 10 after ⟨Script.ofInput [], []⟩)) ∧
      after.pointer = 1 ∧ after.current? = some 0 ∧ (after.cellAt 2).toNat = 4 ∧
      (after.cellAt 3).toNat = 5 := by
  have hbody : LinearBody
      [.decrement, .right, .increment, .increment, .right, .increment, .left, .left] :=
    ⟨by decide, rfl, rfl⟩
  obtain ⟨program, pass, after, hprogram, hmultiplied, -, -, hruns⟩ :=
    @linear_loop_multiplies _ Script.console "[- copy >++>+<<]".toList _ rfl hbody
      ⟨#[0, 5, 250], 1⟩ 5 rfl (by decide) ⟨Script.ofInput [], []⟩
  refine ⟨hbody, program, _, after, hprogram, hruns, hmultiplied.pointer_eq,
    hmultiplied.current_eq, ?_, ?_⟩
  · have hcell := hmultiplied.cellAt_eq 2 (by decide)
    exact Int.ofNat.inj hcell
  · have hcell := hmultiplied.cellAt_eq 3 (by decide)
    exact Int.ofNat.inj hcell

end Machine

end Brainfuck
