import Mathlib.Data.List.Induction
import Brainfuck.Source.Place

/-!
The lines of a text and the place of a position.

A text that is put behind another one goes on in the last line of the first (`lines_append`), so a
position cuts one line in two: the text in front of it ends in the left part, and the text from it on
begins with the right part. The number of the line and the column are the number of the lines of the
front part, and the length of the left part and one more (`exists_cut`).

Lines that are joined by newlines are found again (`lines_intercalate`).
-/

namespace Brainfuck.Source

/-! ## Lines, one character at a time -/

theorem exists_first_line (source : Source) : ∃ first others, lines source = first :: others := by
  cases h : lines source with
  | nil => exact absurd h (lines_ne_nil source)
  | cons first others => exact ⟨first, others, rfl⟩

theorem lines_newline_cons (source : Source) : lines ('\n' :: source) = [] :: lines source := by
  simp [lines]

theorem lines_cons_of_ne {c : Char} (hc : c ≠ '\n') {source : Source} {first : List Char}
    {others : List (List Char)} (h : lines source = first :: others) :
    lines (c :: source) = (c :: first) :: others := by
  simp [lines, hc, h]

theorem exists_behind_first {source : Source} {first : List Char} {others : List (List Char)}
    (h : lines source = first :: others) : ∃ behind, source = first ++ behind := by
  induction source generalizing first others with
  | nil =>
    obtain ⟨rfl, -⟩ := List.cons.inj h
    exact ⟨[], rfl⟩
  | cons c source ih =>
    by_cases hc : c = '\n'
    · rw [hc, lines_newline_cons] at h
      obtain ⟨rfl, -⟩ := List.cons.inj h
      exact ⟨c :: source, rfl⟩
    · obtain ⟨first', others', hlines⟩ := exists_first_line source
      rw [lines_cons_of_ne hc hlines] at h
      obtain ⟨rfl, -⟩ := List.cons.inj h
      obtain ⟨behind, hbehind⟩ := ih hlines
      exact ⟨behind, by rw [List.cons_append, ← hbehind]⟩

theorem newline_not_mem_lines {source : Source} {line : List Char} (h : line ∈ lines source) :
    '\n' ∉ line := by
  induction source generalizing line with
  | nil =>
    rw [lines, List.mem_singleton] at h
    rw [h]
    exact List.not_mem_nil
  | cons c source ih =>
    by_cases hc : c = '\n'
    · rw [hc, lines_newline_cons] at h
      rcases List.mem_cons.mp h with rfl | h
      · exact List.not_mem_nil
      · exact ih h
    · obtain ⟨first, others, hlines⟩ := exists_first_line source
      rw [lines_cons_of_ne hc hlines] at h
      rw [hlines] at ih
      rcases List.mem_cons.mp h with rfl | h
      · intro hmem
        rcases List.mem_cons.mp hmem with heq | hmem
        · exact hc heq.symm
        · exact ih List.mem_cons_self hmem
      · exact ih (List.mem_cons_of_mem _ h)

/-! ## Two texts put together -/

/-- The second of two texts goes on in the last line of the first. -/
theorem lines_append {front rest : Source} {init others : List (List Char)}
    {last first : List Char} (hfront : lines front = init ++ [last])
    (hrest : lines rest = first :: others) :
    lines (front ++ rest) = init ++ (last ++ first) :: others := by
  induction front generalizing init last with
  | nil =>
    have hnil : [[]] = init ++ [last] := hfront
    cases init with
    | nil =>
      obtain ⟨rfl, -⟩ := List.cons.inj hnil
      exact hrest
    | cons line init => simp at hnil
  | cons c front ih =>
    by_cases hc : c = '\n'
    · rw [hc, lines_newline_cons] at hfront
      cases init with
      | nil => exact absurd (List.cons.inj hfront).2 (lines_ne_nil front)
      | cons line init =>
        obtain ⟨rfl, htail⟩ := List.cons.inj hfront
        rw [hc, List.cons_append, lines_newline_cons, ih htail]
        rfl
    · obtain ⟨line, more, hlines⟩ := exists_first_line front
      rw [lines_cons_of_ne hc hlines] at hfront
      -- the character belongs to the first line, which may be the last one too
      cases init with
      | nil =>
        obtain ⟨rfl, rfl⟩ := List.cons.inj hfront
        have hline : lines front = [] ++ [line] := hlines
        exact lines_cons_of_ne hc (ih hline)
      | cons line' init =>
        obtain ⟨rfl, rfl⟩ := List.cons.inj hfront
        have hline : lines front = (line :: init) ++ [last] := hlines
        exact lines_cons_of_ne hc (ih hline)

theorem lines_of_not_mem {line : List Char} (h : '\n' ∉ line) : lines line = [line] := by
  induction line with
  | nil => rfl
  | cons c line ih =>
    have hc : c ≠ '\n' := fun heq => h (heq ▸ List.mem_cons_self)
    exact lines_cons_of_ne hc (ih fun hmem => h (List.mem_cons_of_mem c hmem))

theorem lines_intercalate {rows : List (List Char)} (hne : rows ≠ [])
    (h : ∀ row ∈ rows, '\n' ∉ row) : lines (['\n'].intercalate rows) = rows := by
  induction rows with
  | nil => exact absurd rfl hne
  | cons row rows ih =>
    have hrow : lines row = [] ++ [row] := lines_of_not_mem (h row List.mem_cons_self)
    cases rows with
    | nil =>
      simp [List.intercalate]
      exact hrow
    | cons next rows =>
      have hrest := ih (List.cons_ne_nil _ _) fun line hline => h line (List.mem_cons_of_mem _ hline)
      have hjoined : ['\n'].intercalate (row :: next :: rows) =
          row ++ ('\n' :: ['\n'].intercalate (next :: rows)) := by
        simp [List.intercalate]
      have hbreak := lines_newline_cons (['\n'].intercalate (next :: rows))
      rw [hjoined, lines_append hrow hbreak, hrest, List.append_nil]
      rfl

/-! ## The line of a position -/

theorem exists_last_line (text : Source) :
    ∃ init before last, lines text = init ++ [last] ∧ text = before ++ last ∧
      tailLength text = last.length := by
  induction text using List.reverseRecOn with
  | nil => exact ⟨[], [], [], rfl, rfl, rfl⟩
  | append_singleton text c ih =>
    obtain ⟨init, before, last, hlines, rfl, htail⟩ := ih
    have hlength : tailLength (before ++ last ++ [c]) =
        if c = '\n' then 0 else tailLength (before ++ last) + 1 := by
      by_cases hc : c = '\n'
      · simp [tailLength, hc]
      · simp [tailLength, hc]
    by_cases hc : c = '\n'
    · subst hc
      refine ⟨init ++ [last], before ++ last ++ ['\n'], [], ?_, (List.append_nil _).symm, hlength⟩
      rw [lines_append hlines (lines_newline_cons []), List.append_nil, List.append_assoc]
      rfl
    · have hline : '\n' ∉ [c] := by
        rw [List.mem_singleton]
        exact fun heq => hc heq.symm
      refine ⟨init, before, last ++ [c], ?_, List.append_assoc _ _ _, ?_⟩
      · exact lines_append hlines (lines_of_not_mem hline)
      · rw [hlength, if_neg hc, htail, List.length_append, List.length_singleton]

/-- A position cuts a source in one of its lines: `left` stands in front of it, `right` behind. -/
structure Cut (source : Source) (position : Nat) (above : List (List Char))
    (left right : List Char) (below : List (List Char)) : Prop where
  lines_eq : lines source = above ++ (left ++ right) :: below
  text_eq : ∃ before behind, source = before ++ (left ++ right) ++ behind ∧
    before.count '\n' = above.length ∧ before.length + left.length = position
  lines_drop : lines (source.drop position) = right :: below
  locate_eq : source.locate position = ⟨above.length + 1, left.length + 1⟩

theorem exists_cut {source : Source} {position : Nat} (h : position ≤ source.length) :
    ∃ above left right below, Cut source position above left right below := by
  obtain ⟨above, before, left, hfront, htake, htail⟩ := exists_last_line (source.take position)
  obtain ⟨right, below, hrest⟩ := exists_first_line (source.drop position)
  obtain ⟨behind, hdrop⟩ := exists_behind_first hrest
  have hlength : before.length + left.length = position := by
    rw [← List.length_append, ← htake, List.length_take, Nat.min_eq_left h]
  have hcount : (source.take position).count '\n' = above.length := by
    have hlines := length_lines (source.take position)
    rw [hfront, List.length_append, List.length_singleton] at hlines
    omega
  refine ⟨above, left, right, below, ?_⟩
  constructor
  case lines_eq =>
    rw [← List.take_append_drop position source]
    exact lines_append hfront hrest
  case text_eq =>
    have hleft : left.count '\n' = 0 := by
      apply List.count_eq_zero_of_not_mem
      exact newline_not_mem_lines (hfront ▸ List.mem_append_right above List.mem_cons_self)
    refine ⟨before, behind, ?_, ?_, hlength⟩
    · have hsource := List.take_append_drop position source
      rw [htake, hdrop] at hsource
      simp only [List.append_assoc] at hsource ⊢
      exact hsource.symm
    · rw [← hcount, htake, List.count_append, hleft, Nat.add_zero]
  case lines_drop => exact hrest
  case locate_eq =>
    have hcut : Offset.cut source.length position = position := by
      rw [Offset.cut_ofNat, Nat.min_eq_left h]
    have hstart : lastLineStart (source.take position) = before.length := by
      rw [lastLineStart, htail, htake, List.length_append, Nat.add_sub_cancel]
    have hcolumn : (position : Int) - before.length + 1 = left.length + 1 := by
      omega
    rw [locate, hcut, hcount, hstart, hcolumn]

end Brainfuck.Source
