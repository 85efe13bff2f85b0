import Mathlib.Data.List.Basic
import Mathlib.Data.List.GetD
import Brainfuck.Proofs.Lines
import Brainfuck.Proofs.Tokenizing

/-!
The excerpt in the report on a bracket, and the column of its caret.

The rows of an excerpt are found again as the lines of its text, since no row holds a newline
(`lines_ofSource`): the lines of the source around the one of the bracket, each behind its margin,
and the row of the caret. What is said of them is put together in `Shown`, with the column of the
caret in its row and the column of the bracket in the row above.

The two columns need not agree. The margin of a line is as wide as the number of the line asks for
and at least nine characters, while the margin of the caret is nine characters always. So the caret
stands under the bracket exactly for the lines with fewer than five digits
(`Report.caret_under_bracket_iff`), and too far to the left for the others.
-/

namespace Brainfuck

namespace Excerpt

open Source (lines)

/-- What stands in front of a line in its row: the mark, the number and a bar. -/
def margin (mark : Char) (number : Nat) : List Char :=
  mark :: ' ' :: (List.replicate (4 - (toString number).length) ' ' ++ (toString number).toList ++
    [' ', '|', ' '])

/-- The row of the line with a number. -/
def lineRow (source : Source) (mark : Char) (number : Nat) : List Char :=
  margin mark number ++ (lines source).getD (number - 1) []

/-- The rows of `count` lines that are not marked, the first of them with the number `first`. -/
def lineRows (source : Source) (first count : Nat) : List (List Char) :=
  (List.range' first count).map (lineRow source ' ')

/-- The row of the caret below the column with a number. -/
def caretRow (column : Nat) : List Char :=
  List.replicate 7 ' ' ++ ['|', ' '] ++ List.replicate (column - 1) ' ' ++ ['^']

/-- The rows around a line of a source, with the caret below a column of the line. -/
def rowsAround (source : Source) (line column : Nat) : List (List Char) :=
  let first := max 1 (line - 2)
  let last := min (lines source).length (line + 2)
  lineRows source first (line - first) ++
    lineRow source '>' line :: caretRow column :: lineRows source (line + 1) (last - line)

/-! ## Rows as they are written -/

theorem toList_render_line (marked : Bool) (number : Nat) (text : List Char) :
    (Row.render (.line marked number (String.ofList text))).toList =
      margin (if marked then '>' else ' ') number ++ text := by
  cases marked <;> simp [Row.render, numeral, blank, margin]

theorem toList_render_caret (column : Nat) :
    (Row.render (.caret column)).toList = caretRow column := by
  have hcolumn : ((column : Int) - 1).toNat = column - 1 := by
    omega
  simp [Row.render, blank, caretRow, hcolumn, List.replicate]

/-- The texts of `count` lines, the first of them with the number `first`. -/
def window (source : Source) (first count : Nat) : List String :=
  (((lines source).drop (first - 1)).take count).map String.ofList

theorem window_add (source : Source) {first : Nat} (hfirst : 1 ≤ first) (count more : Nat) :
    window source first (count + more) =
      window source first count ++ window source (first + count) more := by
  have hnext : first + count - 1 = first - 1 + count := by
    omega
  rw [window, window, window, List.take_add, List.map_append, List.drop_drop, hnext]

theorem window_succ (source : Source) {first : Nat} (hfirst : 1 ≤ first)
    (h : first ≤ (lines source).length) (count : Nat) :
    window source first (count + 1) =
      String.ofList ((lines source).getD (first - 1) []) :: window source (first + 1) count := by
  have hlt : first - 1 < (lines source).length := by
    omega
  have hnext : first - 1 + 1 = first + 1 - 1 := by
    omega
  rw [window, window, List.drop_eq_getElem_cons hlt, List.take_succ_cons, List.map_cons, hnext,
    List.getD_eq_getElem _ _ hlt]

theorem render_rowsFrom_window {source : Source} {centre first count : Nat} {column : Int}
    (hfirst : 1 ≤ first) (hlast : first + count ≤ (lines source).length + 1)
    (hcentre : centre < first ∨ first + count ≤ centre) :
    (rowsFrom centre column first (window source first count)).map
      (fun row => row.render.toList) = lineRows source first count := by
  induction count generalizing first with
  | zero => simp [window, lineRows, rowsFrom]
  | succ count ih =>
    have hne : first ≠ centre := by
      omega
    have hrest := @ih (first + 1) (by omega) (by omega) (by omega)
    rw [window_succ source hfirst (by omega), rowsFrom, if_neg hne, List.map_cons, hrest,
      toList_render_line, lineRows, lineRows, List.range'_succ, List.map_cons]
    rfl

theorem rowsFrom_append (centre : Nat) (column : Int) (front rest : List String) (number : Nat) :
    rowsFrom centre column number (front ++ rest) =
      rowsFrom centre column number front ++
        rowsFrom centre column (number + front.length) rest := by
  induction front generalizing number with
  | nil => rfl
  | cons text front ih =>
    have hnext : number + (front.length + 1) = number + 1 + front.length := by
      omega
    simp only [List.cons_append, rowsFrom, ih, List.length_cons, hnext]
    split
    · rfl
    · rfl

theorem render_rows {source : Source} {line : Nat} (column : Nat) (hline : 1 ≤ line)
    (hlast : line ≤ (lines source).length) :
    (rows ((lines source).map String.ofList) line column defaultContext).map
        (fun row => row.render.toList) = rowsAround source line column := by
  let start := max 1 (line - 2)
  let stop := min (lines source).length (line + 2)
  have hcentre : centre line = line := by
    simp only [centre]
    omega
  have hfirst : first line defaultContext = start := by
    simp only [first, defaultContext, start]
    omega
  have hstop :
      (last ((lines source).map String.ofList).length line defaultContext).toNat = stop := by
    rw [List.length_map]
    simp only [last, defaultContext, stop]
    omega
  -- the window falls into the lines above the centre, the centre, and the lines below it
  have hwindow : (((lines source).map String.ofList).take stop).drop (start - 1) =
      window source start (line - start) ++
        String.ofList ((lines source).getD (line - 1) []) ::
          window source (line + 1) (stop - line) := by
    have hcount : stop - (start - 1) = line - start + (stop - line + 1) := by
      omega
    have hat : start + (line - start) = line := by
      omega
    have hjoin := window_add source (Nat.le_max_left 1 (line - 2)) (line - start) (stop - line + 1)
    rw [hat] at hjoin
    rw [← window_succ source hline hlast, ← hjoin, window, List.map_take, List.map_drop,
      List.drop_take, hcount]
  have hlength : start + (window source start (line - start)).length = line := by
    rw [window, List.length_map, List.length_take, List.length_drop]
    omega
  rw [rows, hcentre, hfirst, hstop, hwindow, rowsFrom_append, hlength, rowsFrom, if_pos rfl,
    List.map_append, List.map_cons, List.map_cons, toList_render_line, toList_render_caret,
    render_rowsFrom_window (by omega) (by omega) (by omega),
    render_rowsFrom_window (by omega) (by omega) (by omega)]
  rfl

/-! ## Rows read from the text -/

theorem newline_not_mem_margin {mark : Char} (hmark : mark ≠ '\n') (number : Nat) :
    '\n' ∉ margin mark number := by
  have hdigits : '\n' ∉ Nat.toDigits 10 number := by
    intro hmem
    have hdigit := Nat.isDigit_of_mem_toDigits (by decide) (by decide) hmem
    contradiction
  simp [margin, hmark.symm, hdigits]

theorem newline_not_mem_lineRow {mark : Char} (hmark : mark ≠ '\n') (source : Source)
    (number : Nat) : '\n' ∉ lineRow source mark number := by
  intro hmem
  rcases List.mem_append.mp hmem with hmem | hmem
  · exact newline_not_mem_margin hmark number hmem
  · rw [List.getD_eq_getElem?_getD] at hmem
    cases hline : (lines source)[number - 1]? with
    | none =>
      rw [hline] at hmem
      exact absurd hmem List.not_mem_nil
    | some line =>
      rw [hline] at hmem
      exact Source.newline_not_mem_lines (List.mem_of_getElem? hline) hmem

theorem newline_not_mem_rowsAround {source : Source} {line column : Nat} {row : List Char}
    (h : row ∈ rowsAround source line column) : '\n' ∉ row := by
  have hplain : ∀ {first count}, row ∈ lineRows source first count → '\n' ∉ row := by
    intro first count hrow
    obtain ⟨number, -, rfl⟩ := List.mem_map.mp hrow
    exact newline_not_mem_lineRow (by decide) source number
  rcases List.mem_append.mp h with h | h
  · exact hplain h
  · rcases List.mem_cons.mp h with rfl | h
    · exact newline_not_mem_lineRow (by decide) source line
    · rcases List.mem_cons.mp h with rfl | h
      · simp [caretRow]
      · exact hplain h

/-- The lines of an excerpt are the rows around its place. -/
theorem lines_ofSource {source : Source} {line : Nat} (column : Nat) (hline : 1 ≤ line)
    (hlast : line ≤ (lines source).length) :
    lines (ofSource source ⟨line, column⟩).toList = rowsAround source line column := by
  have hrows := render_rows column hline hlast
  have htext : (ofSource source ⟨line, column⟩).toList =
      ['\n'].intercalate (rowsAround source line column) := by
    rw [ofSource, render, String.toList_intercalate, List.map_map, ← hrows]
    rfl
  rw [htext]
  apply Source.lines_intercalate
  · simp [rowsAround]
  · intro row hrow
    exact newline_not_mem_rowsAround hrow

/-! ## The two columns -/

theorem length_margin (mark : Char) (number : Nat) :
    (margin mark number).length = 9 + ((toString number).length - 4) := by
  simp only [margin, List.length_cons, List.length_append, List.length_replicate,
    String.length_toList, List.length_nil]
  omega

theorem idxOf_caretRow (column : Nat) : (caretRow column).idxOf '^' = 9 + (column - 1) := by
  have hblank : '^' ∉ List.replicate 7 ' ' ++ ['|', ' '] ++ List.replicate (column - 1) ' ' := by
    simp
  rw [caretRow, List.idxOf_append_of_notMem hblank, List.idxOf_cons_self]
  simp
  omega

theorem count_caretRow (column : Nat) : (caretRow column).count '^' = 1 := by
  simp [caretRow, List.count_replicate]

/-- What an excerpt shows of the bracket at a position, which is that of a line and a column: the
lines around it and one row for the caret, with the columns, in their rows, of the caret and of the
bracket. -/
structure Shown (source : Source) (position line column : Nat) (context : String)
    (caretAt bracketAt : Nat) : Prop where
  line_pos : 1 ≤ line
  line_le : line ≤ (lines source).length
  column_pos : 1 ≤ column
  /-- The line as it is in the source, cut where the bracket stands in it. -/
  place : ∃ before behind, source = before ++ (lines source).getD (line - 1) [] ++ behind ∧
    before.count '\n' + 1 = line ∧ before.length + (column - 1) = position
  rows : ∃ caret, lines context.toList =
      lineRows source (max 1 (line - 2)) (line - max 1 (line - 2)) ++
        lineRow source '>' line :: caret ::
          lineRows source (line + 1) (min (lines source).length (line + 2) - line) ∧
    caret.head? = some ' ' ∧ caret.count '^' = 1 ∧ caret.idxOf '^' = caretAt
  one_marked : (lines context.toList).countP (fun row => row.head? = some '>') = 1
  bracketAt_eq : bracketAt = (margin '>' line).length + (column - 1)
  bracket : (lineRow source '>' line)[bracketAt]? = source[position]?

namespace Shown

variable {source : Source} {position line column : Nat} {context : String}

theorem unique {caretAt bracketAt caretAt' bracketAt' : Nat}
    (h : Shown source position line column context caretAt bracketAt)
    (h' : Shown source position line column context caretAt' bracketAt') :
    caretAt = caretAt' ∧ bracketAt = bracketAt' := by
  obtain ⟨caret, hrows, -, -, hcaret⟩ := h.rows
  obtain ⟨caret', hrows', -, -, hcaret'⟩ := h'.rows
  have htail := List.append_cancel_left (hrows.symm.trans hrows')
  have heq : caret = caret' := (List.cons.inj (List.cons.inj htail).2).1
  refine ⟨?_, ?_⟩
  · rw [← hcaret, ← hcaret', heq]
  · rw [h.bracketAt_eq, h'.bracketAt_eq]

end Shown

theorem countP_marked_rowsAround (source : Source) (line column : Nat) :
    (rowsAround source line column).countP (fun row => row.head? = some '>') = 1 := by
  have hplain : ∀ first count,
      (lineRows source first count).countP (fun row => row.head? = some '>') = 0 := by
    intro first count
    rw [List.countP_eq_zero]
    intro row hrow
    obtain ⟨number, -, rfl⟩ := List.mem_map.mp hrow
    simp [lineRow, margin]
  rw [rowsAround, List.countP_append, List.countP_cons, List.countP_cons, hplain, hplain]
  simp [lineRow, margin, caretRow, List.replicate]

/-- The excerpt around a position shows the character there, wherever its line is broken. -/
theorem shown_ofSource {source : Source} {position : Nat} {c : Char}
    (hget : source[position]? = some c) (hc : c ≠ '\n') :
    ∃ line column : Nat, source.locate position = ⟨line, column⟩ ∧
      Shown source position line column (ofSource source ⟨line, column⟩) (9 + (column - 1))
        ((margin '>' line).length + (column - 1)) := by
  have hlt : position < source.length := (List.getElem?_eq_some_iff.mp hget).1
  obtain ⟨above, left, right, below, hcut⟩ := Source.exists_cut (Nat.le_of_lt hlt)
  obtain ⟨before, behind, htext, hcount, hposition⟩ := hcut.text_eq
  -- the right part of the line begins with the character
  have hdrop : source.drop position = c :: source.drop (position + 1) := by
    rw [List.drop_eq_getElem_cons hlt, (List.getElem?_eq_some_iff.mp hget).2]
  obtain ⟨first, others, hothers⟩ := Source.exists_first_line (source.drop (position + 1))
  have hright : right = c :: first := by
    have hlines := hcut.lines_drop
    rw [hdrop, Source.lines_cons_of_ne hc hothers] at hlines
    exact (List.cons.inj hlines).1.symm
  have hline : (lines source).getD above.length [] = left ++ right := by
    rw [hcut.lines_eq, List.getD_append_right _ _ _ _ (Nat.le_refl _), Nat.sub_self,
      List.getD_cons_zero]
  have hle : above.length + 1 ≤ (lines source).length := by
    rw [hcut.lines_eq, List.length_append, List.length_cons]
    omega
  have hlines := lines_ofSource (left.length + 1) (Nat.le_add_left 1 above.length) hle
  refine ⟨above.length + 1, left.length + 1, hcut.locate_eq, ?_⟩
  constructor
  case line_pos => exact Nat.le_add_left 1 above.length
  case line_le => exact hle
  case column_pos => exact Nat.le_add_left 1 left.length
  case place => exact ⟨before, behind, hline ▸ htext, by rw [hcount], hposition⟩
  case rows =>
    exact ⟨caretRow (left.length + 1), hlines, rfl, count_caretRow _, idxOf_caretRow _⟩
  case one_marked =>
    rw [hlines]
    exact countP_marked_rowsAround source _ _
  case bracketAt_eq => rfl
  case bracket =>
    rw [lineRow, Nat.add_sub_cancel, Nat.add_sub_cancel, hline, hright, hget,
      List.getElem?_append_right (Nat.le_add_right _ _), Nat.add_sub_cancel_left,
      List.getElem?_append_right (Nat.le_refl _), Nat.sub_self, List.getElem?_cons_zero]

end Excerpt

namespace Report

open Excerpt (Shown margin)

theorem bracket_char_ne_newline (bracket : Bracket) : bracket.token.char ≠ '\n' := by
  cases bracket <;> decide

/-- The report on a bracket shows it; the caret is short of it by the digits that the number of its
line has beyond four. -/
theorem exists_shown {source : Source} {bracket : Bracket} {position : Int}
    (h : Program.ofSource source = .error (.unmatched bracket position)) :
    ∃ (offset line column : Nat) (context : String) (caretAt bracketAt : Nat),
      position = offset ∧ source[offset]? = some bracket.token.char ∧
      ((SyntaxFault.unmatched bracket position).report source).detail =
        .loop position line column context ∧
      Shown source offset line column context caretAt bracketAt ∧
      bracketAt = caretAt + ((toString line).length - 4) := by
  rcases Program.ofSource_eq_error h with ⟨hfault, -⟩ | ⟨bracket', offset, hfault, hget⟩
  · contradiction
  · obtain ⟨rfl, rfl⟩ := SyntaxFault.unmatched.inj hfault
    obtain ⟨line, column, hlocate, hshown⟩ :=
      Excerpt.shown_ofSource hget (bracket_char_ne_newline bracket)
    refine ⟨offset, line, column, _, _, _, rfl, hget, ?_, hshown, ?_⟩
    · cases bracket with
      | opening => rw [SyntaxFault.report, ofBracket, hlocate]
      | closing => rw [SyntaxFault.report, ofBracket, hlocate]
    · rw [Excerpt.length_margin]
      omega

theorem length_numeral_le_four_iff (line : Nat) : (toString line).length ≤ 4 ↔ line < 10000 :=
  Nat.length_repr_le_iff (by decide)

/-- The report on a bracket without a partner shows the lines around it as they are in the source,
each with its number, and one caret. The caret stands under the bracket exactly if the number of its
line has no more than four digits; for every digit more it stands one column further to the left. -/
theorem caret_under_bracket_iff {source : Source} {bracket : Bracket} {position : Int}
    (h : Program.ofSource source = .error (.unmatched bracket position)) :
    ∃ (offset line column : Nat) (context : String) (caretAt bracketAt : Nat),
      position = offset ∧ source[offset]? = some bracket.token.char ∧
      ((SyntaxFault.unmatched bracket position).report source).detail =
        .loop position line column context ∧
      Shown source offset line column context caretAt bracketAt ∧
      bracketAt = caretAt + ((toString line).length - 4) ∧
      (caretAt = bracketAt ↔ line < 10000) := by
  obtain ⟨offset, line, column, context, caretAt, bracketAt, hoffset, hget, hdetail, hshown,
    hcolumns⟩ := exists_shown h
  refine ⟨offset, line, column, context, caretAt, bracketAt, hoffset, hget, hdetail, hshown,
    hcolumns, ?_⟩
  rw [← length_numeral_le_four_iff]
  omega

/-- A loop that is opened in the second line and never closed. -/
theorem caret_under_bracket_iff_second_line :
    Program.ofSource ['+', '\n', '>', '['] = .error (.unmatched .opening 3) ∧
    ∃ (offset line column : Nat) (context : String) (caretAt bracketAt : Nat),
      (3 : Int) = offset ∧ ['+', '\n', '>', '['][offset]? = some Bracket.opening.token.char ∧
      ((SyntaxFault.unmatched .opening 3).report ['+', '\n', '>', '[']).detail =
        .loop 3 line column context ∧
      Shown ['+', '\n', '>', '['] offset line column context caretAt bracketAt ∧
      bracketAt = caretAt + ((toString line).length - 4) ∧
      (caretAt = bracketAt ↔ line < 10000) :=
  ⟨rfl, caret_under_bracket_iff rfl⟩

theorem ofSource_behind_newlines (count : Nat) :
    Program.ofSource (List.replicate count '\n' ++ ['[']) = .error (.unmatched .opening count) := by
  have hoperators : Source.operators (List.replicate count '\n' ++ ['[']) =
      [(.loopStart, count)] := by
    rw [Source.operators, List.zipIdx_append, List.filterMap_append, List.filterMap_eq_nil_iff.mpr,
      List.length_replicate]
    · simp [Token.ofChar?]
    · intro item hitem
      obtain ⟨c, position⟩ := item
      obtain rfl : c = '\n' := List.eq_of_mem_replicate (List.fst_mem_of_mem_zipIdx hitem)
      rfl
  rw [Program.ofSource, hoperators]
  rfl

theorem locate_behind_newlines (count : Nat) :
    Source.locate (List.replicate count '\n' ++ ['[']) count = ⟨count + 1, 1⟩ := by
  have htake : (List.replicate count '\n' ++ ['[']).take
      (Offset.cut (List.replicate count '\n' ++ ['[']).length count) =
        List.replicate count '\n' := by
    rw [Offset.cut_ofNat, List.length_append, List.length_replicate,
      Nat.min_eq_left (Nat.le_add_right _ _), List.take_left' (List.length_replicate)]
  have hstart : Source.lastLineStart (List.replicate count '\n') = count := by
    simp [Source.lastLineStart, Source.tailLength]
  rw [Source.locate, htake, hstart, List.count_replicate_self]
  simp

/-- In line ten thousand the caret stands beside the bracket and not under it. -/
theorem caret_beside_bracket :
    Program.ofSource (List.replicate 9999 '\n' ++ ['[']) = .error (.unmatched .opening 9999) ∧
      (∃ context,
        ((SyntaxFault.unmatched .opening 9999).report
            (List.replicate 9999 '\n' ++ ['['])).detail = .loop 9999 10000 1 context ∧
          Shown (List.replicate 9999 '\n' ++ ['[']) 9999 10000 1 context 9 10) ∧
      ¬ ∃ (line column : Nat) (context : String) (caretAt : Nat),
        ((SyntaxFault.unmatched .opening 9999).report
            (List.replicate 9999 '\n' ++ ['['])).detail = .loop 9999 line column context ∧
          Shown (List.replicate 9999 '\n' ++ ['[']) 9999 line column context caretAt caretAt := by
  have hsource := ofSource_behind_newlines 9999
  have hlocate := locate_behind_newlines 9999
  have hdetail : ((SyntaxFault.unmatched .opening 9999).report
      (List.replicate 9999 '\n' ++ ['['])).detail = .loop 9999 10000 1
        (Excerpt.ofSource (List.replicate 9999 '\n' ++ ['[']) ⟨10000, 1⟩) := by
    rw [SyntaxFault.report, ofBracket]
    exact congrArg (fun place => Detail.loop 9999 place.line place.column
      (Excerpt.ofSource (List.replicate 9999 '\n' ++ ['[']) place)) hlocate
  have hget : (List.replicate 9999 '\n' ++ ['['])[9999]? = some '[' := by
    rw [List.getElem?_append_right (Nat.le_of_eq List.length_replicate), List.length_replicate,
      Nat.sub_self, List.getElem?_cons_zero]
  obtain ⟨line, column, hplace, hshown⟩ := Excerpt.shown_ofSource hget (by decide)
  obtain ⟨hline, hcolumn⟩ := Source.Place.mk.inj (hplace.symm.trans hlocate)
  obtain rfl : line = 10000 := hline
  obtain rfl : column = 1 := Int.ofNat.inj hcolumn
  have hwidth : (margin '>' 10000).length = 10 := by
    rw [Excerpt.length_margin]
    rfl
  rw [hwidth] at hshown
  refine ⟨hsource, ⟨_, hdetail, hshown⟩, ?_⟩
  intro ⟨line, column, context, caretAt, hdetail', hshown'⟩
  obtain ⟨-, hline, hcolumn, rfl⟩ := Detail.loop.inj (hdetail.symm.trans hdetail')
  obtain rfl : 10000 = line := Int.ofNat.inj hline
  obtain rfl : 1 = column := Int.ofNat.inj hcolumn
  obtain ⟨hcaret, hbracket⟩ := hshown.unique hshown'
  omega

end Report

end Brainfuck
