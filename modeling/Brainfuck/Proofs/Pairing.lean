import Brainfuck.Program.JumpTable
import Brainfuck.Proofs.Balance

/-!
The jump table pairs the brackets, and there is only one way to do it.

The pass over the tokens keeps an invariant (`Pass`). The stack tells where the tokens read so far
open a loop that they do not close: each entry is the index of a loop start behind which a balanced
stretch follows, up to the next entry or the end (`Opened`). The two halves of the table hold the
pairs of `Matches` and no others, and every bracket read is on the stack or in a pair. One token
takes the invariant to the invariant (`Pass.push`, `Pass.pop`, `Pass.skip`), so it holds at the
end of the pass, where the stack is empty exactly if the brackets are balanced.

Put together, this says that there is a table exactly for balanced tokens, that it is a pairing in
the sense of `IsPairing`, and that no other pair of maps is.
-/

namespace Brainfuck

/-- The token of a bracket. -/
def Bracket.token : Bracket → Token
  | .opening => .loopStart
  | .closing => .loopEnd

/-- The loops that a front part of the tokens opens and does not close, the innermost first. -/
inductive Opened : List Token → List Nat → Prop
  | outside {front : List Token} (balanced : Balanced front) : Opened front []
  | inside {front body : List Token} {outer : List Nat} (opened : Opened front outer)
      (balanced : Balanced body) : Opened (front ++ .loopStart :: body) (front.length :: outer)

/-- Two maps, from loop starts to loop ends and back, that pair the brackets of a sequence. -/
structure IsPairing (tokens : List Token) (closes opens : Int → Option Int) : Prop where
  closes_isSome_iff : ∀ i, (closes i).isSome ↔ ∃ a : Nat, i = a ∧ tokens[a]? = some .loopStart
  opens_isSome_iff : ∀ j, (opens j).isSome ↔ ∃ b : Nat, j = b ∧ tokens[b]? = some .loopEnd
  inverse : ∀ i j, closes i = some j ↔ opens j = some i
  lt : ∀ i j, closes i = some j → i < j
  balanced : ∀ i j, closes i = some j → Balanced (between tokens i.toNat j.toNat)
  nested_or_apart : ∀ i j k l, closes i = some j → closes k = some l → i < k → l < j ∨ j < k

/-! ## Loops that are open -/

namespace Opened

theorem depth_eq {front : List Token} {stack : List Nat} (h : Opened front stack) :
    depth front = stack.length := by
  induction h with
  | outside balanced => exact (balanced_iff_depth.mp balanced).2
  | inside _ balanced ih =>
    rw [depth_append, depth_cons, depth_start, ih, (balanced_iff_depth.mp balanced).2]
    simp

theorem append {front : List Token} {stack : List Nat} (h : Opened front stack)
    {more : List Token} (hm : Balanced more) : Opened (front ++ more) stack := by
  cases h with
  | outside balanced => exact .outside (balanced.append hm)
  | inside opened balanced =>
    rw [List.append_assoc, List.cons_append]
    exact .inside opened (balanced.append hm)

theorem push {front : List Token} {stack : List Nat} (h : Opened front stack) :
    Opened (front ++ [.loopStart]) (front.length :: stack) :=
  .inside h balanced_nil

theorem getElem?_head {front : List Token} {s : Nat} {outer : List Nat}
    (h : Opened front (s :: outer)) : front[s]? = some .loopStart := by
  cases h with
  | inside _ _ => rw [List.getElem?_append_right (Nat.le_refl _), Nat.sub_self, List.getElem?_cons_zero]

/-- A loop end closes the innermost loop that is open, and belongs to its loop start. -/
theorem pop {front : List Token} {s : Nat} {outer : List Nat} (h : Opened front (s :: outer)) :
    Opened (front ++ [.loopEnd]) outer ∧ Matches (front ++ [.loopEnd]) s front.length := by
  cases h with
  | @inside front body outer opened balanced =>
    have hclosed : front ++ .loopStart :: body ++ [.loopEnd] =
        front ++ (.loopStart :: (body ++ [.loopEnd])) := by
      rw [List.append_assoc, List.cons_append]
    rw [hclosed]
    refine ⟨opened.append balanced.loop, ?_⟩
    have hframe := balanced.matches_loop.frame front []
    simpa using hframe

end Opened

theorem matches_concat_iff {front : List Token} {t : Token} (ht : t ≠ .loopEnd) {i j : Nat} :
    Matches (front ++ [t]) i j ↔ Matches front i j := by
  refine ⟨fun h => ?_, fun h => (matches_append_iff [t] h.lt_length).mpr h⟩
  · have hj := h.lt_length
    rw [List.length_append, List.length_singleton] at hj
    rcases Nat.lt_or_ge j front.length with hlt | hge
    · exact (matches_append_iff [t] hlt).mp h
    · have hlast : j = front.length := by omega
      have hclosing := h.closing
      rw [hlast, List.getElem?_concat_length] at hclosing
      exact absurd (Option.some.inj hclosing) ht

theorem matches_close_iff {front : List Token} {s : Nat} {outer : List Nat}
    (h : Opened front (s :: outer)) {i j : Nat} :
    Matches (front ++ [.loopEnd]) i j ↔ Matches front i j ∨ (i = s ∧ j = front.length) := by
  refine ⟨fun hm => ?_, fun hm => ?_⟩
  · have hj := hm.lt_length
    rw [List.length_append, List.length_singleton] at hj
    rcases Nat.lt_or_ge j front.length with hlt | hge
    · exact .inl ((matches_append_iff _ hlt).mp hm)
    · have hlast : j = front.length := by omega
      subst hlast
      exact .inr ⟨hm.left_unique h.pop.2, rfl⟩
  · rcases hm with hm | ⟨rfl, rfl⟩
    · exact (matches_append_iff _ hm.lt_length).mpr hm
    · exact h.pop.2

/-! ## The invariant of the pass -/

/-- The entries of a map are the pairs of a relation. -/
def Lists (map : Int → Option Int) (related : Nat → Nat → Prop) : Prop :=
  ∀ i j : Int, map i = some j ↔ ∃ a b : Nat, i = a ∧ j = b ∧ related a b

theorem entry_comm {i j : Int} {related : Nat → Nat → Prop} :
    (∃ a b : Nat, i = a ∧ j = b ∧ related a b) ↔
      ∃ b a : Nat, j = b ∧ i = a ∧ related a b := by
  rw [exists_comm]
  exact exists_congr fun b => exists_congr fun a => and_left_comm

namespace Lists

variable {map : Int → Option Int} {related related' : Nat → Nat → Prop}

theorem empty (h : ∀ a b, ¬ related a b) : Lists (fun _ => none) related := by
  intro i j
  refine ⟨fun hij => ?_, fun hij => ?_⟩
  · contradiction
  · obtain ⟨a, b, -, -, hab⟩ := hij
    exact absurd hab (h a b)

theorem congr (h : Lists map related) (hr : ∀ a b, related' a b ↔ related a b) :
    Lists map related' := by
  intro i j
  simp only [hr]
  exact h i j

theorem insert {s e : Nat} (h : Lists map related)
    (hr : ∀ a b, related' a b ↔ related a b ∨ (a = s ∧ b = e)) (hs : ∀ b, related' s b → b = e) :
    Lists (fun i => if (s : Int) = i then some (e : Int) else map i) related' := by
  intro i j
  dsimp only
  split
  · next hi =>
    subst hi
    refine ⟨fun hj => ?_, fun hj => ?_⟩
    · exact ⟨s, e, rfl, (Option.some.inj hj).symm, (hr s e).mpr (.inr ⟨rfl, rfl⟩)⟩
    · obtain ⟨a, b, ha, rfl, hab⟩ := hj
      obtain rfl : s = a := Int.ofNat.inj ha
      rw [hs b hab]
  · next hi =>
    rw [h i j]
    refine ⟨fun hj => ?_, fun hj => ?_⟩
    · obtain ⟨a, b, rfl, rfl, hab⟩ := hj
      exact ⟨a, b, rfl, rfl, (hr a b).mpr (.inl hab)⟩
    · obtain ⟨a, b, rfl, rfl, hab⟩ := hj
      rcases (hr a b).mp hab with hab | ⟨rfl, -⟩
      · exact ⟨a, b, rfl, rfl, hab⟩
      · exact absurd rfl hi

theorem isSome_iff (h : Lists map related) (i : Int) :
    (map i).isSome ↔ ∃ a b : Nat, i = a ∧ related a b := by
  rw [Option.isSome_iff_exists]
  refine ⟨fun hsome => ?_, fun hsome => ?_⟩
  · obtain ⟨j, hj⟩ := hsome
    obtain ⟨a, b, hi, -, hab⟩ := (h i j).mp hj
    exact ⟨a, b, hi, hab⟩
  · obtain ⟨a, b, hi, hab⟩ := hsome
    exact ⟨b, (h i b).mpr ⟨a, b, hi, rfl, hab⟩⟩

theorem unique {map' : Int → Option Int} (h : Lists map related) (h' : Lists map' related) :
    map' = map := by
  funext i
  exact Option.ext fun j => (h' i j).trans (h i j).symm

end Lists

/-- What the stack and the table say about the tokens read so far. -/
structure Pass (front : List Token) (stack : List Nat) (table : JumpTable) : Prop where
  opened : Opened front stack
  closes : Lists table.endOf? (Matches front)
  opens : Lists table.startOf? fun b a => Matches front a b
  start_covered : ∀ a, front[a]? = some .loopStart → a ∈ stack ∨ ∃ b, Matches front a b
  end_covered : ∀ b, front[b]? = some .loopEnd → ∃ a, Matches front a b

namespace Pass

variable {front : List Token} {stack : List Nat} {table : JumpTable}

theorem start : Pass [] [] .empty where
  opened := .outside balanced_nil
  closes := by
    rw [funext JumpTable.endOf?_empty]
    exact .empty fun a b h => Nat.not_lt_zero b h.lt_length
  opens := by
    rw [funext JumpTable.startOf?_empty]
    exact .empty fun b a h => Nat.not_lt_zero b h.lt_length
  start_covered a h := by contradiction
  end_covered b h := by contradiction

theorem extend (h : Pass front stack table) {t : Token} (ht : t ≠ .loopEnd) {stack' : List Nat}
    (ho : Opened (front ++ [t]) stack') (hsub : ∀ a ∈ stack, a ∈ stack')
    (hnew : t = .loopStart → front.length ∈ stack') : Pass (front ++ [t]) stack' table where
  opened := ho
  closes := h.closes.congr fun _ _ => matches_concat_iff ht
  opens := h.opens.congr fun _ _ => matches_concat_iff ht
  start_covered a ha := by
    simp only [matches_concat_iff ht]
    rw [List.getElem?_append] at ha
    split at ha
    · exact (h.start_covered a ha).imp (hsub a) id
    · obtain ⟨hlen, ht'⟩ := List.getElem?_eq_some_iff.mp ha
      rw [List.length_singleton] at hlen
      rw [List.getElem_singleton] at ht'
      have hlast : a = front.length := by omega
      exact .inl (hlast ▸ hnew ht')
  end_covered b hb := by
    simp only [matches_concat_iff ht]
    rw [List.getElem?_append] at hb
    split at hb
    · exact h.end_covered b hb
    · obtain ⟨hlen, ht'⟩ := List.getElem?_eq_some_iff.mp hb
      rw [List.getElem_singleton] at ht'
      exact absurd ht' ht

theorem skip (h : Pass front stack table) {t : Token} (hs : t ≠ .loopStart) (he : t ≠ .loopEnd) :
    Pass (front ++ [t]) stack table :=
  h.extend he (h.opened.append (balanced_singleton hs he)) (fun _ ha => ha) (fun ht => absurd ht hs)

theorem push (h : Pass front stack table) :
    Pass (front ++ [.loopStart]) (front.length :: stack) table :=
  h.extend (by decide) h.opened.push (fun _ ha => List.mem_cons_of_mem _ ha)
    (fun _ => List.mem_cons_self)

/-- A loop end takes the innermost open loop from the stack into the table. -/
theorem pop {s : Nat} {outer : List Nat} (h : Pass front (s :: outer) table) :
    Pass (front ++ [.loopEnd]) outer (table.pair s front.length) where
  opened := h.opened.pop.1
  closes := by
    rw [funext (table.endOf?_pair s front.length)]
    exact h.closes.insert (fun _ _ => matches_close_iff h.opened)
      (fun _ hb => hb.right_unique h.opened.pop.2)
  opens := by
    rw [funext (table.startOf?_pair s front.length)]
    exact h.opens.insert (fun _ _ => (matches_close_iff h.opened).trans (or_congr_right and_comm))
      (fun _ ha => ha.left_unique h.opened.pop.2)
  start_covered a ha := by
    simp only [matches_close_iff h.opened]
    rw [List.getElem?_append] at ha
    split at ha
    · rcases h.start_covered a ha with hmem | ⟨b, hab⟩
      · rcases List.mem_cons.mp hmem with rfl | hmem
        · exact .inr ⟨front.length, .inr ⟨rfl, rfl⟩⟩
        · exact .inl hmem
      · exact .inr ⟨b, .inl hab⟩
    · obtain ⟨hlen, ht⟩ := List.getElem?_eq_some_iff.mp ha
      rw [List.getElem_singleton] at ht
      contradiction
  end_covered b hb := by
    simp only [matches_close_iff h.opened]
    rw [List.getElem?_append] at hb
    split at hb
    · obtain ⟨a, hab⟩ := h.end_covered b hb
      exact ⟨a, .inl hab⟩
    · obtain ⟨hlen, -⟩ := List.getElem?_eq_some_iff.mp hb
      rw [List.length_singleton] at hlen
      exact ⟨s, .inr ⟨rfl, by omega⟩⟩

end Pass

/-! ## The whole pass -/

/-- What has been read where the pass fails. At a loop end it is balanced, so the loop end closes
nothing; at the end of the tokens there are open loops, and the innermost is reported. -/
def Unmatched.Stands (tokens : List Token) : Unmatched → Prop
  | ⟨.closing, i⟩ => Balanced (tokens.take i) ∧ tokens[i]? = some .loopEnd
  | ⟨.opening, s⟩ => ∃ outer, Opened tokens (s :: outer)

namespace Unmatched.Stands

variable {tokens : List Token} {u : Unmatched}

theorem getElem?_eq (h : u.Stands tokens) : tokens[u.index]? = some u.bracket.token := by
  obtain ⟨bracket, i⟩ := u
  cases bracket with
  | closing => exact h.2
  | opening =>
    obtain ⟨outer, hopened⟩ := h
    exact hopened.getElem?_head

theorem not_balanced (h : u.Stands tokens) : ¬ Balanced tokens := by
  intro hb
  obtain ⟨hle, heq⟩ := balanced_iff_depth.mp hb
  obtain ⟨bracket, i⟩ := u
  cases bracket with
  | closing =>
    -- the front part that ends with this loop end has one loop end too many
    have hfront := hle (i + 1)
    have hdepth := (balanced_iff_depth.mp h.1).2
    rw [depth_take_succ h.2, hdepth, depth_end] at hfront
    contradiction
  | opening =>
    -- the open loops make the depth at the end positive
    obtain ⟨outer, hopened⟩ := h
    have hdepth := hopened.depth_eq
    rw [heq, List.length_cons] at hdepth
    omega

end Unmatched.Stands

/-- The pass keeps its invariant to the end, or fails at a bracket that stands without a partner. -/
theorem pairFrom_spec (rest : List Token) {front : List Token} {stack : List Nat}
    {table : JumpTable} (h : Pass front stack table) :
    match JumpTable.pairFrom front.length stack table rest with
    | .ok table' => Pass (front ++ rest) [] table'
    | .error u => u.Stands (front ++ rest) := by
  induction rest generalizing front stack table with
  | nil =>
    rw [List.append_nil]
    cases stack with
    | nil => exact h
    | cons s outer => exact ⟨outer, h.opened⟩
  | cons t rest ih =>
    have hassoc : front ++ t :: rest = front ++ [t] ++ rest := by
      rw [List.append_assoc, List.singleton_append]
    have hlen : front.length + 1 = (front ++ [t]).length := by
      rw [List.length_append, List.length_singleton]
    cases t with
    | loopStart =>
      rw [JumpTable.pairFrom, hassoc, hlen]
      exact ih h.push
    | loopEnd =>
      cases stack with
      | nil =>
        rw [JumpTable.pairFrom]
        refine ⟨?_, ?_⟩
        · rw [List.take_left]
          cases h.opened with
          | outside balanced => exact balanced
        · rw [List.getElem?_append_right (Nat.le_refl _), Nat.sub_self, List.getElem?_cons_zero]
      | cons s outer =>
        rw [JumpTable.pairFrom, hassoc, hlen]
        exact ih h.pop
    | right | left | increment | decrement | input | output =>
      rw [JumpTable.pairFrom, hassoc, hlen]
      · exact ih (h.skip (by decide) (by decide))
      all_goals intro _; contradiction

theorem ofTokens_spec (tokens : List Token) :
    match JumpTable.ofTokens tokens with
    | .ok table => Pass tokens [] table
    | .error u => u.Stands tokens :=
  pairFrom_spec tokens Pass.start

theorem pass_of_ofTokens {tokens : List Token} {table : JumpTable}
    (h : JumpTable.ofTokens tokens = .ok table) : Pass tokens [] table := by
  have hspec := ofTokens_spec tokens
  rw [h] at hspec
  exact hspec

theorem Pass.balanced {tokens : List Token} {table : JumpTable} (h : Pass tokens [] table) :
    Balanced tokens := by
  cases h.opened with
  | outside balanced => exact balanced

theorem Balanced.exists_table {tokens : List Token} (h : Balanced tokens) :
    ∃ table, JumpTable.ofTokens tokens = .ok table := by
  have hspec := ofTokens_spec tokens
  cases ht : JumpTable.ofTokens tokens with
  | ok table => exact ⟨table, rfl⟩
  | error u =>
    rw [ht] at hspec
    exact absurd h hspec.not_balanced

theorem Balanced.exists_close {tokens : List Token} (h : Balanced tokens) {a : Nat}
    (ha : tokens[a]? = some .loopStart) : ∃ b, Matches tokens a b := by
  obtain ⟨table, ht⟩ := h.exists_table
  rcases (pass_of_ofTokens ht).start_covered a ha with hmem | hb
  · contradiction
  · exact hb

theorem Balanced.exists_open {tokens : List Token} (h : Balanced tokens) {b : Nat}
    (hb : tokens[b]? = some .loopEnd) : ∃ a, Matches tokens a b := by
  obtain ⟨table, ht⟩ := h.exists_table
  exact (pass_of_ofTokens ht).end_covered b hb

/-! ## The table is the only pairing -/

theorem Pass.isPairing {tokens : List Token} {table : JumpTable} (h : Pass tokens [] table) :
    IsPairing tokens table.endOf? table.startOf? where
  closes_isSome_iff i := by
    rw [h.closes.isSome_iff]
    refine exists_congr fun a => ⟨fun hpair => ?_, fun hstart => ?_⟩
    · obtain ⟨b, hi, hab⟩ := hpair
      exact ⟨hi, hab.opening⟩
    · obtain ⟨b, hab⟩ := h.balanced.exists_close hstart.2
      exact ⟨b, hstart.1, hab⟩
  opens_isSome_iff j := by
    rw [h.opens.isSome_iff]
    refine exists_congr fun b => ⟨fun hpair => ?_, fun hend => ?_⟩
    · obtain ⟨a, hj, hab⟩ := hpair
      exact ⟨hj, hab.closing⟩
    · obtain ⟨a, hab⟩ := h.balanced.exists_open hend.2
      exact ⟨a, hend.1, hab⟩
  inverse i j := by
    rw [h.closes i j, h.opens j i]
    exact entry_comm
  lt i j hij := by
    obtain ⟨a, b, rfl, rfl, hab⟩ := (h.closes i j).mp hij
    exact Int.ofNat_lt.mpr hab.lt
  balanced i j hij := by
    obtain ⟨a, b, rfl, rfl, hab⟩ := (h.closes i j).mp hij
    exact hab.balanced
  nested_or_apart i j k l hij hkl hik := by
    obtain ⟨a, b, rfl, rfl, hab⟩ := (h.closes i j).mp hij
    obtain ⟨c, d, rfl, rfl, hcd⟩ := (h.closes k l).mp hkl
    exact (hab.nested_or_apart hcd (Int.ofNat_lt.mp hik)).imp Int.ofNat_lt.mpr Int.ofNat_lt.mpr

namespace IsPairing

variable {tokens : List Token} {closes opens : Int → Option Int}

/-- The two indexes of an entry are those of brackets that belong together. -/
theorem matches_of_closes (h : IsPairing tokens closes opens) {i j : Int}
    (hij : closes i = some j) : ∃ a b : Nat, i = a ∧ j = b ∧ Matches tokens a b := by
  have hji : opens j = some i := (h.inverse i j).mp hij
  obtain ⟨a, rfl, ha⟩ := (h.closes_isSome_iff i).mp (Option.isSome_iff_exists.mpr ⟨j, hij⟩)
  obtain ⟨b, rfl, hb⟩ := (h.opens_isSome_iff j).mp (Option.isSome_iff_exists.mpr ⟨a, hji⟩)
  exact ⟨a, b, rfl, rfl, ha, hb, Int.ofNat_lt.mp (h.lt _ _ hij), h.balanced _ _ hij⟩

theorem lists_closes (h : IsPairing tokens closes opens) : Lists closes (Matches tokens) := by
  intro i j
  refine ⟨h.matches_of_closes, fun hentry => ?_⟩
  obtain ⟨a, b, rfl, rfl, hab⟩ := hentry
  obtain ⟨j, hj⟩ := Option.isSome_iff_exists.mp ((h.closes_isSome_iff a).mpr ⟨a, rfl, hab.opening⟩)
  obtain ⟨a', b', ha, rfl, hab'⟩ := h.matches_of_closes hj
  obtain rfl : a = a' := Int.ofNat.inj ha
  rw [hj, hab'.right_unique hab]

theorem lists_opens (h : IsPairing tokens closes opens) :
    Lists opens fun b a => Matches tokens a b := by
  intro j i
  rw [← h.inverse i j, h.lists_closes i j]
  exact entry_comm

end IsPairing

/-- There is a jump table exactly for balanced tokens, and it is the only pairing of them. -/
theorem ofTokens_pairs_uniquely (tokens : List Token) :
    ((∃ table, JumpTable.ofTokens tokens = .ok table) ↔ Balanced tokens) ∧
      ∀ table, JumpTable.ofTokens tokens = .ok table →
        IsPairing tokens table.endOf? table.startOf? ∧
          ∀ closes opens, IsPairing tokens closes opens →
            closes = table.endOf? ∧ opens = table.startOf? := by
  refine ⟨⟨fun htable => ?_, Balanced.exists_table⟩, fun table ht => ?_⟩
  · obtain ⟨table, ht⟩ := htable
    exact (pass_of_ofTokens ht).balanced
  · have hpass := pass_of_ofTokens ht
    refine ⟨hpass.isPairing, fun closes opens h => ⟨?_, ?_⟩⟩
    · exact hpass.closes.unique h.lists_closes
    · exact hpass.opens.unique h.lists_opens

/-- A loop with two loops in it: the outer brackets are paired with each other. -/
theorem ofTokens_pairs_outer_loop :
    ∃ table, JumpTable.ofTokens
        [.loopStart, .loopStart, .loopEnd, .increment, .loopStart, .loopEnd, .loopEnd] = .ok table ∧
      IsPairing [.loopStart, .loopStart, .loopEnd, .increment, .loopStart, .loopEnd, .loopEnd]
        table.endOf? table.startOf? ∧ table.endOf? 0 = some 6 := by
  obtain ⟨hiff, hpairs⟩ := ofTokens_pairs_uniquely
    [.loopStart, .loopStart, .loopEnd, .increment, .loopStart, .loopEnd, .loopEnd]
  obtain ⟨table, ht⟩ := hiff.mpr (by decide)
  have hpairing := (hpairs table ht).1
  refine ⟨table, ht, hpairing, ?_⟩
  exact (hpairing.lists_closes 0 6).mpr ⟨0, 6, rfl, rfl, rfl, rfl, by decide, by decide⟩

end Brainfuck
