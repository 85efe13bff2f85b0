import Mathlib.Data.Prod.Lex
import Brainfuck.Proofs.Lines

/-!
Positions of a source and places in it, one for one.

The places of a source are its lines, and in each line a column for every character and one more for
the newline behind them, or for the end of the source. They are numbered in their order: the number of
a place is the length of the lines above it, with their newlines, and of what stands in front of it in
its own line (`offset`). From one place to a later one the number grows (`offset_lt`), and the place
of a position has that position for its number (`Cut.offset_eq`). So positions and places belong
together one for one, in the same order (`places_numbered_in_order`). A position outside the source
has no place in it (`locate_within_iff`).
-/

namespace Brainfuck.Source

/-- The number of characters in some lines, each counted with its newline. -/
def extent : List (List Char) → Nat
  | [] => 0
  | row :: rows => row.length + 1 + extent rows

/-- The number of characters in front of a place. -/
def offset (source : Source) (place : Place) : Int :=
  extent ((lines source).take (place.line - 1)) + (place.column - 1)

/-- A place in one of the lines of a source, or behind the last character of the line. -/
structure Place.Within (source : Source) (place : Place) : Prop where
  one_le_line : 1 ≤ place.line
  line_le : place.line ≤ (lines source).length
  one_le_column : 1 ≤ place.column
  column_le : place.column ≤ ((lines source).getD (place.line - 1) []).length + 1

/-- Line and column, in the order in which a text is read. -/
def Place.order (place : Place) : Nat ×ₗ Int :=
  toLex (place.line, place.column)

theorem Place.order_injective : Function.Injective Place.order := by
  rintro ⟨line, column⟩ ⟨line', column'⟩ h
  obtain ⟨rfl, rfl⟩ := Prod.mk.inj (toLex_inj.mp h)
  rfl

/-! ## The extent of lines -/

theorem extent_append (rows below : List (List Char)) :
    extent (rows ++ below) = extent rows + extent below := by
  induction rows with
  | nil => exact (Nat.zero_add _).symm
  | cons row rows ih =>
    show row.length + 1 + extent (rows ++ below) = row.length + 1 + extent rows + extent below
    omega

/-- Up to a line further below there is at least that line more. -/
theorem extent_take_lt (rows : List (List Char)) {i j : Nat} (hij : i < j) (hi : i < rows.length) :
    extent (rows.take i) + (rows.getD i []).length + 1 ≤ extent (rows.take j) := by
  obtain ⟨k, rfl⟩ := Nat.exists_eq_add_of_lt hij
  have hrow : rows.take (i + 1) = rows.take i ++ [rows.getD i []] := by
    rw [List.take_add_one, List.getD_eq_getElem?_getD, List.getElem?_eq_getElem hi]
    rfl
  have htake : rows.take (i + k + 1) = rows.take (i + 1) ++ (rows.drop (i + 1)).take k := by
    rw [Nat.add_right_comm, List.take_add]
  rw [htake, hrow]
  simp only [extent_append, extent]
  omega

theorem extent_lines (source : Source) : extent (lines source) = source.length + 1 := by
  induction source with
  | nil => rfl
  | cons c source ih =>
    by_cases hc : c = '\n'
    · rw [hc, lines_newline_cons, extent, ih, List.length_nil, List.length_cons]
      omega
    · obtain ⟨first, others, hlines⟩ := exists_first_line source
      rw [hlines, extent] at ih
      rw [lines_cons_of_ne hc hlines, extent, List.length_cons, List.length_cons]
      omega

/-! ## The place of a position -/

section

variable {source : Source} {position : Nat} {above below : List (List Char)} {left right : List Char}

theorem Cut.within (h : Cut source position above left right below) :
    (source.locate position).Within source := by
  have hline : (lines source).getD above.length [] = left ++ right := by
    rw [h.lines_eq]
    simp
  rw [h.locate_eq]
  constructor
  case one_le_line => exact Nat.le_add_left 1 above.length
  case line_le =>
    show above.length + 1 ≤ (lines source).length
    rw [h.lines_eq, List.length_append, List.length_cons]
    omega
  case one_le_column =>
    show (1 : Int) ≤ left.length + 1
    omega
  case column_le =>
    show (left.length : Int) + 1 ≤ ((lines source).getD above.length []).length + 1
    rw [hline, List.length_append]
    omega

theorem Cut.offset_eq (h : Cut source position above left right below)
    (hp : position ≤ source.length) : offset source (source.locate position) = position := by
  have habove : (lines source).take above.length = above := by
    rw [h.lines_eq]
    exact List.take_left
  -- counted from the cut on and counted all together
  have hrest := extent_lines (source.drop position)
  have hall := extent_lines source
  rw [h.lines_drop, extent, List.length_drop] at hrest
  rw [h.lines_eq, extent_append, extent, List.length_append] at hall
  rw [h.locate_eq]
  show (extent ((lines source).take above.length) : Int) + ((left.length + 1 : Int) - 1) = position
  rw [habove]
  omega

end

theorem locate_within {source : Source} {position : Nat} (h : position ≤ source.length) :
    (source.locate position).Within source ∧ offset source (source.locate position) = position := by
  obtain ⟨above, left, right, below, hcut⟩ := exists_cut h
  exact ⟨hcut.within, hcut.offset_eq h⟩

theorem column_lt_one {source : Source} {position : Int} (h : position < 0) :
    (source.locate position).column < 1 := by
  simp only [locate]
  omega

theorem column_behind {source : Source} {position : Int} (h : source.length < position) :
    ((lines source).getD ((source.locate position).line - 1) []).length + 1 <
      (source.locate position).column := by
  obtain ⟨init, before, last, hlines, htext, htail⟩ := exists_last_line source
  have hcut : Offset.cut source.length position = source.length := by
    rw [Offset.cut, if_pos (by omega)]
    omega
  have hcount : source.count '\n' = init.length := by
    have hlength := length_lines source
    rw [hlines, List.length_append, List.length_singleton] at hlength
    omega
  have hline : (lines source).getD init.length [] = last := by
    rw [hlines]
    simp
  have hlength : source.length = before.length + last.length := by
    rw [← List.length_append, ← htext]
  rw [locate, hcut, List.take_length, hcount, lastLineStart, htail]
  show (((lines source).getD init.length []).length : Int) + 1 <
    position - (source.length - last.length : Nat) + 1
  rw [hline]
  omega

theorem locate_within_iff {source : Source} {position : Int} :
    (source.locate position).Within source ↔ 0 ≤ position ∧ position ≤ source.length := by
  constructor
  · intro h
    constructor
    · by_contra hneg
      have hcolumn : (source.locate position).column < 1 := column_lt_one (not_le.mp hneg)
      exact absurd h.one_le_column (not_le.mpr hcolumn)
    · by_contra hlarge
      exact absurd h.column_le (not_le.mpr (column_behind (not_le.mp hlarge)))
  · rintro ⟨hnonneg, hle⟩
    obtain ⟨n, rfl⟩ := Int.eq_ofNat_of_zero_le hnonneg
    exact (locate_within (Int.ofNat_le.mp hle)).1

/-! ## The number of a place -/

section

variable {source : Source} {place other : Place}

theorem offset_lt (h : place.Within source) (h' : other.Within source)
    (hlt : place.order < other.order) : offset source place < offset source other := by
  have hpos := h.one_le_line
  have hle := h.line_le
  have hcolumn := h.column_le
  have hcolumn' := h'.one_le_column
  simp only [offset]
  rcases Prod.Lex.toLex_lt_toLex.mp hlt with hline | ⟨hline, hlt⟩
  · have hextent := extent_take_lt (lines source) (i := place.line - 1) (j := other.line - 1)
      (by omega) (by omega)
    omega
  · have hline : place.line = other.line := hline
    have hlt : place.column < other.column := hlt
    rw [hline]
    omega

/-- The places of a source are in the order of their numbers. -/
theorem order_lt_iff (h : place.Within source) (h' : other.Within source) :
    place.order < other.order ↔ offset source place < offset source other := by
  constructor
  · exact offset_lt h h'
  · intro hlt
    rcases lt_trichotomy place.order other.order with hbefore | heq | hbehind
    · exact hbefore
    · rw [Place.order_injective heq] at hlt
      exact absurd hlt (lt_irrefl _)
    · exact absurd (offset_lt h' h hbehind) (lt_asymm hlt)

theorem eq_of_offset_eq (h : place.Within source) (h' : other.Within source)
    (heq : offset source place = offset source other) : place = other := by
  apply Place.order_injective
  apply le_antisymm
  · exact not_lt.mp fun hlt => absurd (offset_lt h' h hlt) (not_lt.mpr heq.le)
  · exact not_lt.mp fun hlt => absurd (offset_lt h h' hlt) (not_lt.mpr heq.ge)

theorem exists_offset_eq (h : place.Within source) :
    ∃ position : Nat, position ≤ source.length ∧ offset source place = position := by
  have hpos := h.one_le_line
  have hle := h.line_le
  have hcolumn := h.one_le_column
  have hwidth := h.column_le
  have hall := extent_lines source
  have hextent := extent_take_lt (lines source) (i := place.line - 1) (j := (lines source).length)
    (by omega) (by omega)
  rw [List.take_length] at hextent
  refine ⟨(offset source place).toNat, ?_, ?_⟩ <;> simp only [offset] <;> omega

end

/-- Each position of a source, and its end, has a place in the source, from which it can be computed.
Each place in the source is the one of just one position, and later positions have later places. -/
theorem places_numbered_in_order (source : Source) :
    (∀ position : Nat, position ≤ source.length →
      (source.locate position).Within source ∧
        (position : Int) = offset source (source.locate position)) ∧
    (∀ place : Place, place.Within source → ∃ position : Nat, position ≤ source.length ∧
      source.locate position = place ∧
        ∀ other : Int, source.locate other = place → other = position) ∧
    ∀ position later : Nat, position < later → later ≤ source.length →
      (source.locate position).order < (source.locate later).order := by
  refine ⟨fun position hle => ?_, fun place hplace => ?_, fun position later hlt hle => ?_⟩
  · obtain ⟨hwithin, hoffset⟩ := locate_within hle
    exact ⟨hwithin, hoffset.symm⟩
  · obtain ⟨position, hle, hposition⟩ := exists_offset_eq hplace
    obtain ⟨hwithin, hoffset⟩ := locate_within hle
    have hlocate : source.locate position = place :=
      eq_of_offset_eq hwithin hplace (hoffset.trans hposition.symm)
    refine ⟨position, hle, hlocate, fun other hother => ?_⟩
    have hinside : (source.locate other).Within source := hother ▸ hplace
    obtain ⟨hnonneg, hle'⟩ := locate_within_iff.mp hinside
    obtain ⟨n, rfl⟩ := Int.eq_ofNat_of_zero_le hnonneg
    have hother' := (locate_within (Int.ofNat_le.mp hle')).2
    calc (n : Int) = offset source (source.locate n) := hother'.symm
      _ = offset source place := congrArg (offset source) hother
      _ = position := hposition
  · obtain ⟨hwithin, hoffset⟩ := locate_within (Nat.le_trans (Nat.le_of_lt hlt) hle)
    obtain ⟨hwithin', hoffset'⟩ := locate_within hle
    rw [order_lt_iff hwithin hwithin', hoffset, hoffset']
    exact Int.ofNat_lt.mpr hlt

/-- A source that begins with two newlines and ends with one. The newline at its end stands in the
third line, and the end of the source is the start of a fourth one. -/
theorem places_numbered_in_order_newlines :
    Place.Within "\n\n+\n".toList ⟨3, 2⟩ ∧
      (∀ other : Int, locate "\n\n+\n".toList other = ⟨3, 2⟩ → other = 3) ∧
      offset "\n\n+\n".toList ⟨4, 1⟩ = 4 ∧
      Place.order ⟨3, 2⟩ < Place.order ⟨4, 1⟩ := by
  obtain ⟨hplaces, honly, horder⟩ := places_numbered_in_order "\n\n+\n".toList
  have hthird : locate "\n\n+\n".toList (3 : Nat) = ⟨3, 2⟩ := by rfl
  have hlast : locate "\n\n+\n".toList (4 : Nat) = ⟨4, 1⟩ := by rfl
  have hwithin := (hplaces 3 (by decide)).1
  have hoffset := (hplaces 4 (by decide)).2
  have hlt := horder 3 4 (by decide) (by decide)
  rw [hthird] at hwithin hlt
  rw [hlast] at hoffset hlt
  obtain ⟨position, -, -, hunique⟩ := honly _ hwithin
  refine ⟨hwithin, fun other hother => ?_, hoffset.symm, hlt⟩
  rw [hunique other hother, ← hunique (3 : Nat) hthird]
  rfl

end Brainfuck.Source
