import Mathlib.Data.List.Chain
import Mathlib.Order.Bounds.Basic
import Brainfuck.Proofs.Turn

/-!
Run lengths and the maximal blocks of a token sequence.

The block at an index is the longest stretch of equal tokens from there (`Block.isGreatest`), so the
run length is its length. From an index that is counted from the end the run may go past the end and on
at the front: it is then the block at the front of what is read in this way, the operators up to the
end and all of them after these (`around`).

Whoever begins at the front and steps on by the run length (`Visits`) comes to the end, and in one way.
What is passed on the way are blocks with unlike neighbours, and together they are the whole sequence
(`Visits.covers`).
-/

namespace Brainfuck

/-- Tokens that are all the same. -/
def Uniform (part : List Token) : Prop :=
  ∀ s ∈ part, ∀ t ∈ part, s = t

section

variable {tokens : List Token} {t : Token} {i count : Nat}

theorem Block.take_eq (h : Block tokens t i count) :
    (tokens.drop i).take count = List.replicate count t := by
  have hle := h.le_length
  apply List.eq_replicate_iff.mpr
  constructor
  · rw [List.length_take, List.length_drop]
    omega
  · intro s hs
    obtain ⟨k, hk⟩ := List.mem_iff_getElem?.mp hs
    have hlt : k < count := by
      obtain ⟨hlt, -⟩ := List.getElem?_eq_some_iff.mp hk
      exact Nat.lt_of_lt_of_le hlt (List.length_take_le _ _)
    rw [List.getElem?_take_of_lt hlt, List.getElem?_drop, h.get k hlt] at hk
    exact (Option.some.inj hk).symm

/-- No longer stretch of equal tokens begins where a block does. -/
theorem Block.isGreatest (h : Block tokens t i count) :
    IsGreatest {r | i + r ≤ tokens.length ∧ Uniform ((tokens.drop i).take r)} count := by
  constructor
  · refine ⟨h.le_length, fun s hs s' hs' => ?_⟩
    rw [h.take_eq] at hs hs'
    rw [List.eq_of_mem_replicate hs, List.eq_of_mem_replicate hs']
  · rintro r ⟨hle, huniform⟩
    by_contra hgt
    have hlt : count < r := Nat.not_le.mp hgt
    have hmem : ∀ k s, k < r → tokens[i + k]? = some s → s ∈ (tokens.drop i).take r := by
      intro k s hk hs
      apply List.mem_iff_getElem?.mpr
      refine ⟨k, ?_⟩
      rw [List.getElem?_take_of_lt hk, List.getElem?_drop, hs]
    -- the token that ends the block would be one more of the same
    obtain ⟨s, hs⟩ : ∃ s, tokens[i + count]? = some s :=
      ⟨_, List.getElem?_eq_getElem (by omega)⟩
    have hfirst := hmem 0 t (by omega) (h.get 0 h.pos)
    have hnext := hmem count s hlt hs
    rw [huniform s hnext t hfirst] at hs
    exact h.stop hs

end

namespace Program

variable {tokens : Array Token} {index : Int}

/-! ## Indexes counted from the end -/

/-- What a count reads from an index that is counted from the end: the operators up to the end, and
then all of them from the front. -/
def around (tokens : Array Token) (index : Int) : List Token :=
  tokens.toList.drop (Offset.cut tokens.size index) ++ tokens.toList

theorem getElem?_around (hle : -(tokens.size : Int) ≤ index) (hneg : index < 0) (k : Nat) :
    (around tokens index)[k]? = token? tokens (index + k) := by
  obtain ⟨front, hfront⟩ : ∃ front : Nat, (front : Int) = index + tokens.size :=
    ⟨(index + tokens.size).toNat, by omega⟩
  have hcut : Offset.cut tokens.size index = front := by
    rw [Offset.cut, if_neg (by omega)]
    omega
  have hlength : (tokens.toList.drop front).length = tokens.size - front := by
    rw [List.length_drop, Array.length_toList]
  rw [around, hcut]
  rcases lt_or_ge (index + k) 0 with hback | hahead
  · have hplace : Offset.place? tokens.size (index + k) = some (front + k) := by
      rw [Offset.place?, if_neg (by omega), if_pos (by omega)]
      exact congrArg some (by omega)
    rw [List.getElem?_append_left (by omega), List.getElem?_drop, token?, hplace,
      Array.getElem?_toList]
  · obtain ⟨m, hm⟩ := Int.eq_ofNat_of_zero_le hahead
    have hindex : k - (tokens.size - front) = m := by omega
    rw [List.getElem?_append_right (by omega), hlength, hindex, hm, token?_ofNat,
      Array.getElem?_toList]

theorem length_around (hle : -(tokens.size : Int) ≤ index) (hneg : index < 0) :
    ((around tokens index).length : Int) = tokens.size - index := by
  rw [around, List.length_append, List.length_drop, Array.length_toList, Offset.cut,
    if_neg (by omega)]
  omega

theorem runLength?_around (hle : -(tokens.size : Int) ≤ index) (hneg : index < 0) :
    ∃ t n, runLength? tokens index = some n ∧ Block (around tokens index) t 0 n := by
  have hsome : (token? tokens index).isSome := token?_isSome_iff.mpr ⟨hle, by omega⟩
  obtain ⟨t, ht⟩ := Option.isSome_iff_exists.mp hsome
  obtain ⟨n, hn, hcounts⟩ := exists_countsTo ht
  refine ⟨t, n, hn, hcounts.block ht fun k => ?_⟩
  rw [Nat.zero_add]
  exact getElem?_around hle hneg k

/-! ## Stepping by the run length -/

/-- One stop on the way through the operators: the index, the operator there, and the run length. -/
structure Visit where
  start : Nat
  token : Token
  length : Nat

def Visit.block (tokens : Array Token) (visit : Visit) : List Token :=
  (tokens.toList.drop visit.start).take visit.length

/-- The stops from an index on to the end, each by the run length behind the one before. -/
inductive Visits (tokens : Array Token) : Nat → List Visit → Prop
  | done {i : Nat} (behind : tokens.size ≤ i) : Visits tokens i []
  | next {i n : Nat} {t : Token} {visits : List Visit} (token : tokens[i]? = some t)
      (run : runLength? tokens i = some n) (more : Visits tokens (i + n) visits) :
      Visits tokens i (⟨i, t, n⟩ :: visits)

/-- The tokens that pairs of a token and a number stand for. -/
def decode (pairs : List (Token × Nat)) : List Token :=
  pairs.flatMap fun (t, n) => List.replicate n t

/-- Stops that go over the operators from an index on, block by block. -/
structure Covers (tokens : Array Token) (i : Nat) (visits : List Visit) : Prop where
  block_eq : ∀ visit ∈ visits, 0 < visit.length ∧
    visit.block tokens = List.replicate visit.length visit.token
  flatten_eq : (visits.map (Visit.block tokens)).flatten = tokens.toList.drop i
  neighbours : visits.IsChain fun visit next => visit.token ≠ next.token

variable {i : Nat} {visits : List Visit}

theorem Visits.unique {others : List Visit} (h : Visits tokens i visits)
    (h' : Visits tokens i others) : others = visits := by
  induction h generalizing others with
  | done behind =>
    cases h' with
    | done _ => rfl
    | next token _ _ =>
      rw [Array.getElem?_eq_none behind] at token
      contradiction
  | next token run _ ih =>
    cases h' with
    | done behind =>
      rw [Array.getElem?_eq_none behind] at token
      contradiction
    | next token' run' more' =>
      obtain rfl := Option.some.inj (token.symm.trans token')
      obtain rfl := Option.some.inj (run.symm.trans run')
      rw [ih more']

theorem exists_visits (tokens : Array Token) (i : Nat) : ∃ visits, Visits tokens i visits := by
  induction hk : tokens.size - i using Nat.strong_induction_on generalizing i with
  | _ k ih =>
    rcases Nat.lt_or_ge i tokens.size with hlt | hge
    · have ht : tokens[i]? = some tokens[i] := Array.getElem?_eq_getElem hlt
      obtain ⟨n, hn, block⟩ := runLength?_eq ht
      have hpos := block.pos
      obtain ⟨visits, hvisits⟩ := ih (tokens.size - (i + n)) (by omega) (i + n) rfl
      exact ⟨_, .next ht hn hvisits⟩
    · exact ⟨[], .done hge⟩

/-- What is passed on the way to the end is all that stands there, in blocks with unlike neighbours. -/
theorem Visits.covers (h : Visits tokens i visits) : Covers tokens i visits := by
  induction h with
  | @done i behind =>
    constructor
    case block_eq => exact List.forall_mem_nil _
    case flatten_eq => exact (List.drop_of_length_le behind).symm
    case neighbours => exact .nil
  | @next i n t visits token run more ih =>
    obtain ⟨n', hn', block⟩ := runLength?_eq token
    obtain rfl := Option.some.inj (run.symm.trans hn')
    constructor
    case block_eq => exact List.forall_mem_cons.mpr ⟨⟨block.pos, block.take_eq⟩, ih.block_eq⟩
    case flatten_eq =>
      calc (((⟨i, t, n⟩ :: visits : List Visit).map (Visit.block tokens)).flatten)
          = (tokens.toList.drop i).take n ++ (visits.map (Visit.block tokens)).flatten := rfl
        _ = (tokens.toList.drop i).take n ++ (tokens.toList.drop i).drop n := by
            rw [ih.flatten_eq, List.drop_drop]
        _ = tokens.toList.drop i := List.take_append_drop n _
    case neighbours =>
      cases more with
      | done _ => exact .singleton _
      | @next _ _ t' _ token' _ _ =>
        have hne : t ≠ t' := by
          rintro rfl
          exact block.stop ((Array.getElem?_toList).trans token')
        exact .cons_cons hne ih.neighbours

theorem Covers.decode_eq (h : Covers tokens 0 visits) :
    decode (visits.map fun visit => (visit.token, visit.length)) = tokens.toList := by
  have hblocks : ∀ visit ∈ visits,
      List.replicate visit.length visit.token = visit.block tokens :=
    fun visit hvisit => (h.block_eq visit hvisit).2.symm
  rw [decode, List.flatMap_map, List.flatMap_def, List.map_congr_left hblocks, h.flatten_eq,
    List.drop_zero]

/-- At an index in the sequence the run length is the longest stretch of equal operators from there, and
steps by the run length go over the sequence in blocks with unlike neighbours. At an index counted from
the end it is the longest front part of equal operators in what is read from there and then from the
front on. Other indexes name no operator, and from each that does the count comes to its end. -/
theorem run_lengths_make_blocks (tokens : Array Token) :
    (∀ i : Nat, i < tokens.size → ∃ n, runLength? tokens i = some n ∧
      IsGreatest {r | i + r ≤ tokens.size ∧ Uniform ((tokens.toList.drop i).take r)} n) ∧
    (∃ visits, Visits tokens 0 visits ∧
      (∀ others, Visits tokens 0 others → others = visits) ∧ Covers tokens 0 visits ∧
      decode (visits.map fun visit => (visit.token, visit.length)) = tokens.toList) ∧
    (∀ index : Int, -(tokens.size : Int) ≤ index → index < 0 →
      ∃ n : Nat, runLength? tokens index = some n ∧ n ≤ tokens.size - index ∧
        IsGreatest {r | r ≤ (around tokens index).length ∧ Uniform ((around tokens index).take r)} n) ∧
    (∀ index : Int, index < -(tokens.size : Int) ∨ tokens.size ≤ index →
      token? tokens index = none ∧ runLength? tokens index = none) ∧
    ∀ index t, token? tokens index = some t →
      ∃ n, CountsTo tokens t index 1 n ∧ runLength? tokens index = some n := by
  refine ⟨fun i hi => ?_, ?_, fun index hle hneg => ?_, fun index houtside => ?_, fun index t ht => ?_⟩
  · obtain ⟨n, hn, block⟩ := runLength?_eq (Array.getElem?_eq_getElem hi)
    refine ⟨n, hn, ?_⟩
    rw [← Array.length_toList]
    exact block.isGreatest
  · obtain ⟨visits, hvisits⟩ := exists_visits tokens 0
    have hcovers := hvisits.covers
    exact ⟨visits, hvisits, fun others hothers => hvisits.unique hothers, hcovers, hcovers.decode_eq⟩
  · obtain ⟨t, n, hn, block⟩ := runLength?_around hle hneg
    have hlength := length_around hle hneg
    have hblock := block.le_length
    have hgreatest := block.isGreatest
    simp only [Nat.zero_add, List.drop_zero] at hgreatest
    exact ⟨n, hn, by omega, hgreatest⟩
  · have hnone : token? tokens index = none := by
      rw [← Option.not_isSome_iff_eq_none, token?_isSome_iff]
      omega
    exact ⟨hnone, by rw [runLength?, hnone, Option.map_none]⟩
  · obtain ⟨n, hn, hcounts⟩ := exists_countsTo ht
    exact ⟨n, hcounts, hn⟩

/-- The last operator is the same as the first two, so the run that begins at the end goes on over
these, while the sequence has three blocks. -/
theorem run_lengths_make_blocks_around :
    runLength? #[.increment, .increment, .right, .increment] (-1) = some 3 ∧
      IsGreatest {r | r ≤ (around #[.increment, .increment, .right, .increment] (-1)).length ∧
        Uniform ((around #[.increment, .increment, .right, .increment] (-1)).take r)} 3 ∧
      Visits #[.increment, .increment, .right, .increment] 0
        [⟨0, .increment, 2⟩, ⟨2, .right, 1⟩, ⟨3, .increment, 1⟩] ∧
      Covers #[.increment, .increment, .right, .increment] 0
        [⟨0, .increment, 2⟩, ⟨2, .right, 1⟩, ⟨3, .increment, 1⟩] := by
  obtain ⟨-, ⟨visits, -, hunique, hcovers, -⟩, haround, -, -⟩ :=
    run_lengths_make_blocks #[.increment, .increment, .right, .increment]
  have hrun : runLength? #[.increment, .increment, .right, .increment] (-1) = some 3 := by decide
  have hvisits : Visits #[.increment, .increment, .right, .increment] 0
      [⟨0, .increment, 2⟩, ⟨2, .right, 1⟩, ⟨3, .increment, 1⟩] :=
    .next (by decide) (by decide) (.next (by decide) (by decide)
      (.next (by decide) (by decide) (.done (by decide))))
  obtain ⟨n, hn, -, hgreatest⟩ := haround (-1) (by decide) (by decide)
  obtain rfl := Option.some.inj (hrun.symm.trans hn)
  obtain rfl := hunique _ hvisits
  exact ⟨hrun, hgreatest, hvisits, hcovers⟩

end Program

end Brainfuck
