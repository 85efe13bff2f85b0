import Brainfuck.Token

/-!
Balanced brackets.

A token sequence is balanced when every front part of it has at least as many loop starts as loop
ends, and the whole has as many of the one as of the other. Both are told by the `depth`, the loop
starts less the loop ends: it never falls below its value at the start of a balanced stretch and is
back at that value at its end (`balanced_slice_iff`).

`Matches tokens i j` says that the brackets at `i` and `j` belong together: a loop start, a loop
end behind it, and between them a balanced stretch. A bracket has at most one partner
(`Matches.right_unique`, `Matches.left_unique`), and two loops are nested or apart
(`Matches.nested_or_apart`).
-/

namespace Brainfuck

/-- The loop starts of a token sequence less its loop ends. -/
def depth (tokens : List Token) : Int :=
  tokens.count .loopStart - tokens.count .loopEnd

/-- Every front part has at least as many loop starts as loop ends, and the whole as many. -/
structure Balanced (tokens : List Token) : Prop where
  count_take_le : ∀ n, (tokens.take n).count .loopEnd ≤ (tokens.take n).count .loopStart
  count_eq : tokens.count .loopStart = tokens.count .loopEnd

/-- The tokens strictly between two indexes. -/
def between (tokens : List Token) (i j : Nat) : List Token :=
  (tokens.take j).drop (i + 1)

/-- The loop start at `i` and the loop end at `j` belong together. -/
structure Matches (tokens : List Token) (i j : Nat) : Prop where
  opening : tokens[i]? = some .loopStart
  closing : tokens[j]? = some .loopEnd
  lt : i < j
  balanced : Balanced (between tokens i j)

/-! ## Arithmetic of the depth -/

@[simp] theorem depth_nil : depth [] = 0 := rfl

@[simp] theorem depth_append (front rest : List Token) :
    depth (front ++ rest) = depth front + depth rest := by
  simp only [depth, List.count_append]
  omega

@[simp] theorem depth_start : depth [.loopStart] = 1 := rfl

@[simp] theorem depth_end : depth [.loopEnd] = -1 := rfl

theorem depth_cons (t : Token) (rest : List Token) : depth (t :: rest) = depth [t] + depth rest :=
  depth_append [t] rest

theorem depth_take_succ {tokens : List Token} {i : Nat} {t : Token} (h : tokens[i]? = some t) :
    depth (tokens.take (i + 1)) = depth (tokens.take i) + depth [t] := by
  rw [List.take_add_one, h, depth_append]
  rfl

theorem depth_slice (tokens : List Token) {i j : Nat} (h : i ≤ j) :
    depth ((tokens.take j).drop i) = depth (tokens.take j) - depth (tokens.take i) := by
  have hsplit : tokens.take i ++ (tokens.take j).drop i = tokens.take j := by
    have htake : (tokens.take j).take i = tokens.take i := by
      rw [List.take_take, Nat.min_eq_left h]
    rw [← htake, List.take_append_drop]
  have hdepth := congrArg depth hsplit
  rw [depth_append] at hdepth
  omega

theorem balanced_iff_depth {tokens : List Token} :
    Balanced tokens ↔ (∀ n, 0 ≤ depth (tokens.take n)) ∧ depth tokens = 0 := by
  refine ⟨fun h => ⟨fun n => ?_, ?_⟩, fun h => ?_⟩
  · have := h.count_take_le n
    simp only [depth]
    omega
  · have := h.count_eq
    simp only [depth]
    omega
  · obtain ⟨hle, heq⟩ := h
    simp only [depth] at hle heq
    refine ⟨fun n => ?_, ?_⟩
    · have := hle n
      omega
    · omega

/-- A stretch is balanced when the depth does not fall below its first value and comes back. -/
theorem balanced_slice_iff (tokens : List Token) {i j : Nat} (h : i ≤ j) :
    Balanced ((tokens.take j).drop i) ↔
      (∀ n, i ≤ n → n ≤ j → depth (tokens.take i) ≤ depth (tokens.take n)) ∧
        depth (tokens.take j) = depth (tokens.take i) := by
  have hfront : ∀ n, n ≤ j - i →
      depth (((tokens.take j).drop i).take n) = depth (tokens.take (i + n)) - depth (tokens.take i) := by
    intro n hn
    have hmin : min (i + n) j = i + n := by omega
    rw [List.take_drop, List.take_take, hmin, depth_slice tokens (Nat.le_add_right i n)]
  rw [balanced_iff_depth, depth_slice tokens h]
  refine ⟨fun hslice => ?_, fun hslice => ?_⟩
  · obtain ⟨hle, heq⟩ := hslice
    refine ⟨fun n hi hj => ?_, by omega⟩
    have hn := hle (n - i)
    rw [hfront (n - i) (by omega), Nat.add_sub_cancel' hi] at hn
    omega
  · obtain ⟨hle, heq⟩ := hslice
    refine ⟨fun n => ?_, by omega⟩
    rcases Nat.le_total n (j - i) with hn | hn
    · have hd := hle (i + n) (by omega) (by omega)
      rw [hfront n hn]
      omega
    · -- past the end of the stretch its front part is the whole of it
      have hlen : ((tokens.take j).drop i).length ≤ n := by
        rw [List.length_drop, List.length_take]
        omega
      rw [List.take_of_length_le hlen, depth_slice tokens h]
      omega

instance (tokens : List Token) : Decidable (Balanced tokens) :=
  decidable_of_iff
    ((∀ n, n < tokens.length → 0 ≤ depth (tokens.take n)) ∧ depth tokens = 0) (by
      rw [balanced_iff_depth]
      refine and_congr_left fun htotal => ⟨fun h n => ?_, fun h n _ => h n⟩
      rcases Nat.lt_or_ge n tokens.length with hn | hn
      · exact h n hn
      · have hwhole : depth (tokens.take n) = 0 := by
          rw [List.take_of_length_le hn]
          exact htotal
        exact Int.le_of_eq hwhole.symm)

/-! ## Balanced sequences put together -/

theorem balanced_nil : Balanced [] := by
  decide

theorem balanced_singleton {t : Token} (hs : t ≠ .loopStart) (he : t ≠ .loopEnd) :
    Balanced [t] := by
  cases t <;> first | contradiction | decide

theorem Balanced.append {front rest : List Token} (hf : Balanced front) (hr : Balanced rest) :
    Balanced (front ++ rest) := by
  rw [balanced_iff_depth] at hf hr ⊢
  refine ⟨fun n => ?_, ?_⟩
  · have h₁ := hf.1 n
    have h₂ := hr.1 (n - front.length)
    rw [List.take_append, depth_append]
    omega
  · rw [depth_append, hf.2, hr.2]
    rfl

theorem balanced_of_no_bracket {tokens : List Token}
    (h : ∀ t ∈ tokens, t ≠ .loopStart ∧ t ≠ .loopEnd) : Balanced tokens := by
  induction tokens with
  | nil => exact balanced_nil
  | cons t tokens ih =>
    obtain ⟨hs, he⟩ := h t List.mem_cons_self
    exact (balanced_singleton hs he).append (ih fun u hu => h u (List.mem_cons_of_mem t hu))

theorem Balanced.loop {body : List Token} (h : Balanced body) :
    Balanced (.loopStart :: (body ++ [.loopEnd])) := by
  rw [balanced_iff_depth] at h ⊢
  obtain ⟨hle, heq⟩ := h
  refine ⟨fun n => ?_, ?_⟩
  · cases n with
    | zero => simp
    | succ n =>
      rw [List.take_succ_cons, depth_cons, depth_start, List.take_append, depth_append]
      have hbody := hle n
      have hlast : -1 ≤ depth (List.take (n - body.length) [Token.loopEnd]) := by
        rcases Nat.eq_zero_or_pos (n - body.length) with hz | hp
        · rw [hz]
          decide
        · rw [List.take_of_length_le (by exact hp)]
          decide
      omega
  · rw [depth_cons, depth_append, heq, depth_start, depth_end]
    rfl

/-! ## Brackets that belong together -/

theorem Balanced.matches_loop {body : List Token} (h : Balanced body) :
    Matches (.loopStart :: (body ++ [.loopEnd])) 0 (body.length + 1) := by
  refine ⟨rfl, ?_, Nat.succ_pos _, ?_⟩
  · rw [List.getElem?_cons_succ, List.getElem?_append_right (Nat.le_refl _), Nat.sub_self]
    rfl
  · rw [between, List.take_succ_cons, List.drop_succ_cons, List.take_left, List.drop_zero]
    exact h

theorem getElem?_framed (front rest : List Token) {tokens : List Token} {i : Nat}
    (hi : i < tokens.length) : (front ++ tokens ++ rest)[front.length + i]? = tokens[i]? := by
  rw [List.append_assoc, List.getElem?_append_right (Nat.le_add_right _ _),
    Nat.add_sub_cancel_left, List.getElem?_append_left hi]

namespace Matches

variable {tokens : List Token} {i j k l : Nat}

theorem lt_length (h : Matches tokens i j) : j < tokens.length :=
  (List.getElem?_eq_some_iff.mp h.closing).1

theorem depth_opening (h : Matches tokens i j) :
    depth (tokens.take (i + 1)) = depth (tokens.take i) + 1 :=
  depth_take_succ h.opening

theorem depth_closing (h : Matches tokens i j) :
    depth (tokens.take (j + 1)) = depth (tokens.take j) - 1 :=
  depth_take_succ h.closing

theorem depth_le (h : Matches tokens i j) {n : Nat} (hi : i < n) (hj : n ≤ j) :
    depth (tokens.take (i + 1)) ≤ depth (tokens.take n) :=
  ((balanced_slice_iff tokens h.lt).mp h.balanced).1 n hi hj

theorem depth_eq (h : Matches tokens i j) :
    depth (tokens.take j) = depth (tokens.take (i + 1)) :=
  ((balanced_slice_iff tokens h.lt).mp h.balanced).2

/-- A loop that begins inside another one ends inside it. -/
theorem nested (h : Matches tokens i j) (h' : Matches tokens k l) (hik : i < k) (hkj : k < j) :
    l < j := by
  apply Classical.byContradiction
  intro hlj
  -- the end of the outer loop would stand inside the inner one, at too low a depth
  have houter := h.depth_le hik (Nat.le_of_lt hkj)
  have hinner := h'.depth_le (n := j + 1) (by omega)
  have h₁ := h.depth_eq
  have h₂ := h.depth_closing
  have h₃ := h'.depth_opening
  rcases Nat.lt_or_ge j l with hjl | hjl
  · have := hinner hjl
    omega
  · have hlj : l = j := by omega
    have := h'.depth_eq
    rw [hlj] at this
    omega

theorem nested_or_apart (h : Matches tokens i j) (h' : Matches tokens k l) (hik : i < k) :
    l < j ∨ j < k := by
  rcases Nat.lt_trichotomy k j with hkj | rfl | hjk
  · exact .inl (h.nested h' hik hkj)
  · have := h.closing.symm.trans h'.opening
    contradiction
  · exact .inr hjk

theorem left_unique (h : Matches tokens i j) (h' : Matches tokens k j) : i = k := by
  rcases Nat.lt_trichotomy i k with hlt | heq | hgt
  · exact absurd (h.nested h' hlt h'.lt) (Nat.lt_irrefl j)
  · exact heq
  · exact absurd (h'.nested h hgt h.lt) (Nat.lt_irrefl j)

theorem right_unique (h : Matches tokens i j) (h' : Matches tokens i k) : j = k := by
  have h₁ := h.depth_eq
  have h₂ := h.depth_closing
  have h₃ := h'.depth_eq
  have h₄ := h'.depth_closing
  rcases Nat.lt_trichotomy j k with hlt | heq | hgt
  · have := h'.depth_le (n := j + 1) (Nat.lt_succ_of_lt h.lt) hlt
    rw [h₂, h₁] at this
    omega
  · exact heq
  · have := h.depth_le (n := k + 1) (Nat.lt_succ_of_lt h'.lt) hgt
    rw [h₄, h₃] at this
    omega

theorem length_between (h : Matches tokens i j) : (between tokens i j).length = j - (i + 1) := by
  have hj := h.lt_length
  rw [between, List.length_drop, List.length_take]
  omega

theorem take_eq (h : Matches tokens i j) :
    tokens.take j = tokens.take i ++ .loopStart :: between tokens i j := by
  have hstart : tokens.take (i + 1) = tokens.take i ++ [.loopStart] := by
    rw [List.take_add_one, h.opening]
    rfl
  have htake : (tokens.take j).take (i + 1) = tokens.take (i + 1) := by
    rw [List.take_take, Nat.min_eq_left h.lt]
  have hfront := List.take_append_drop (i + 1) (tokens.take j)
  rw [htake, hstart, List.append_assoc] at hfront
  exact hfront.symm

theorem drop_eq (h : Matches tokens i j) :
    tokens.drop (i + 1) = between tokens i j ++ .loopEnd :: tokens.drop (j + 1) := by
  have hend : tokens.drop j = .loopEnd :: tokens.drop (j + 1) := by
    obtain ⟨hj, hget⟩ := List.getElem?_eq_some_iff.mp h.closing
    rw [List.drop_eq_getElem_cons hj, hget]
  have hle : i + 1 ≤ (tokens.take j).length := by
    have hj := h.lt_length
    have hlt := h.lt
    rw [List.length_take]
    omega
  have hfront := congrArg (List.drop (i + 1)) (List.take_append_drop j tokens)
  rw [List.drop_append_of_le_length hle, hend] at hfront
  exact hfront.symm

theorem frame (h : Matches tokens i j) (front rest : List Token) :
    Matches (front ++ tokens ++ rest) (front.length + i) (front.length + j) := by
  have hj := h.lt_length
  have hbetween : between (front ++ tokens ++ rest) (front.length + i) (front.length + j) =
      between tokens i j := by
    simp only [between, Nat.add_assoc]
    rw [List.append_assoc, List.take_length_add_append, List.drop_length_add_append,
      List.take_append_of_le_length (Nat.le_of_lt hj)]
  refine ⟨?_, ?_, Nat.add_lt_add_left h.lt _, ?_⟩
  · rw [getElem?_framed front rest (Nat.lt_trans h.lt hj)]
    exact h.opening
  · rw [getElem?_framed front rest hj]
    exact h.closing
  · rw [hbetween]
    exact h.balanced

end Matches

/-- Tokens that follow do not change which of the earlier brackets belong together. -/
theorem matches_append_iff {front : List Token} (rest : List Token) {i j : Nat}
    (hj : j < front.length) : Matches (front ++ rest) i j ↔ Matches front i j := by
  have hbetween : between (front ++ rest) i j = between front i j := by
    rw [between, between, List.take_append_of_le_length (Nat.le_of_lt hj)]
  refine ⟨fun h => ?_, fun h => ?_⟩
  · have hi : i < front.length := Nat.lt_trans h.lt hj
    refine ⟨?_, ?_, h.lt, hbetween ▸ h.balanced⟩
    · rw [← List.getElem?_append_left hi]
      exact h.opening
    · rw [← List.getElem?_append_left hj]
      exact h.closing
  · have hframe := h.frame [] rest
    simpa using hframe

end Brainfuck
