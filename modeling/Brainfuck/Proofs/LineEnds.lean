import Brainfuck.Evaluation
import Brainfuck.Proofs.EncodedText

/-!
A file is run as the text that was written to it, whatever its line ends and its encoding.

A text can be written with its newlines as they are, or with each of them as a return or as a return
and a newline. Where it holds no return of its own, reading undoes all three
(`unifyNewlines_write`). With the encodings undone as well, what is read is the text again
(`Files.Holds.read_eq`), and it is the text that is evaluated, so a fault of the run has the text as
its source and is reported at the places of the text, not of the file.
-/

namespace Brainfuck

namespace Text

/-- What a line ends with in a file. -/
inductive LineEnd where
  | newline
  | carriageReturn
  | both
  deriving DecidableEq, Repr

namespace LineEnd

def spelling : LineEnd → List Char
  | .newline => ['\n']
  | .carriageReturn => ['\r']
  | .both => ['\r', '\n']

/-- A text with every newline written as the line end. -/
def write (lineEnd : LineEnd) (text : List Char) : List Char :=
  text.flatMap fun c => if c = '\n' then lineEnd.spelling else [c]

theorem write_newline (lineEnd : LineEnd) (rest : List Char) :
    lineEnd.write ('\n' :: rest) = lineEnd.spelling ++ lineEnd.write rest :=
  List.flatMap_cons

theorem write_cons {c : Char} (h : c ≠ '\n') (lineEnd : LineEnd) (rest : List Char) :
    lineEnd.write (c :: rest) = c :: lineEnd.write rest := by
  rw [write, List.flatMap_cons, if_neg h, List.singleton_append]
  rfl

theorem mem_write {lineEnd : LineEnd} {text : List Char} {c : Char} (h : c ∈ lineEnd.write text) :
    c ∈ text ∨ c ∈ lineEnd.spelling := by
  obtain ⟨d, hd, hc⟩ := List.mem_flatMap.mp h
  split at hc
  · exact .inr hc
  · exact .inl (List.mem_singleton.mp hc ▸ hd)

/-- Written with returns, no text begins with a newline, so that no return is taken for the front of
a longer line end. -/
theorem write_carriageReturn_ne (text rest : List Char) :
    LineEnd.carriageReturn.write text ≠ '\n' :: rest := by
  intro h
  have hmem : '\n' ∈ LineEnd.carriageReturn.write text := h ▸ List.mem_cons_self
  obtain ⟨d, _, hd⟩ := List.mem_flatMap.mp hmem
  split at hd
  · exact absurd hd (by decide)
  · next hne => exact hne (List.mem_singleton.mp hd).symm

theorem ascii_of_mem_spelling {lineEnd : LineEnd} {c : Char} (h : c ∈ lineEnd.spelling) :
    c.toNat < 0x80 := by
  have hascii : (lineEnd.spelling.all fun c => c.toNat < 0x80) = true := by
    cases lineEnd <;> rfl
  exact of_decide_eq_true (List.all_eq_true.mp hascii c h)

end LineEnd

theorem unifyNewlines_cons {c : Char} (h : c ≠ '\r') (rest : List Char) :
    unifyNewlines (c :: rest) = c :: unifyNewlines rest := by
  rw [unifyNewlines]
  · intro _ hc
    exact absurd hc h
  · exact h

theorem unifyNewlines_return {rest : List Char} (h : ∀ more, rest ≠ '\n' :: more) :
    unifyNewlines ('\r' :: rest) = '\n' :: unifyNewlines rest := by
  rw [unifyNewlines]
  exact h

/-- Reading gives the newlines of a text back, whichever line end they were written as. -/
theorem unifyNewlines_write (lineEnd : LineEnd) {text : List Char} (h : '\r' ∉ text) :
    unifyNewlines (lineEnd.write text) = text := by
  induction text with
  | nil => rfl
  | cons c text ih =>
    have hc : c ≠ '\r' := Ne.symm (List.ne_of_not_mem_cons h)
    have htext : '\r' ∉ text := List.not_mem_of_not_mem_cons h
    by_cases hnewline : c = '\n'
    · subst hnewline
      rw [LineEnd.write_newline]
      cases lineEnd with
      | newline => exact congrArg (List.cons '\n') (ih htext)
      | carriageReturn =>
        refine (unifyNewlines_return ?_).trans (congrArg (List.cons '\n') (ih htext))
        exact LineEnd.write_carriageReturn_ne text
      | both => exact congrArg (List.cons '\n') (ih htext)
    · rw [LineEnd.write_cons hnewline, unifyNewlines_cons hc, ih htext]

namespace Encoding

theorem covers_of_ascii (encoding : Encoding) {c : Char} (h : c.toNat < 0x80) :
    encoding.covers c := by
  cases encoding with
  | utf8 | utf8Signed | utf16 => trivial
  | latin => exact Nat.lt_trans h (by decide)
  | ascii => exact h

theorem covers_write {encoding : Encoding} {text : List Char}
    (h : ∀ c ∈ text, encoding.covers c) (lineEnd : LineEnd) :
    ∀ c ∈ lineEnd.write text, encoding.covers c := by
  intro c hc
  rcases LineEnd.mem_write hc with htext | hspelling
  · exact h c htext
  · exact encoding.covers_of_ascii (LineEnd.ascii_of_mem_spelling hspelling)

/-- The encodings, by the names they usually go by. -/
def usualNames : List (String × Encoding) :=
  [("utf-8", .utf8), ("utf-8-sig", .utf8Signed), ("latin-1", .latin), ("ascii", .ascii),
   ("utf-16-le", .utf16 .littleEndian), ("utf-16-be", .utf16 .bigEndian)]

theorem ofName?_of_mem_usualNames : ∀ entry ∈ usualNames,
    ofName? entry.1 = some entry.2 ∧ '\x00' ∉ entry.1.toList := by
  decide

end Encoding

end Text

namespace Files

/-- There is a file at the path, and these are its bytes. -/
structure Holds (host : Host) (path : String) (bytes : List UInt8) : Prop where
  noNull : '\x00' ∉ path.toList
  found : host.contents (Path.ofString path) = .ok bytes

theorem Holds.read_eq {host : Host} {path name : String} {encoding : Text.Encoding}
    {text : List Char} (h : Holds host path (encoding.encode text))
    (hname : Text.Encoding.ofName? name = some encoding) (hnull : '\x00' ∉ name.toList)
    (hcovers : ∀ c ∈ text, encoding.covers c) :
    host.read path name = .ok (Text.unifyNewlines text) := by
  have hpath : path.toList.contains '\x00' = false := by simpa using h.noNull
  have hcodec : name.toList.contains '\x00' = false := by simpa using hnull
  have hdecode : host.decode name (encoding.encode text) = .ok text := by
    rw [Host.decode, hname]
    show (encoding.decode (encoding.encode text)).mapError ReadFault.decoding = .ok text
    rw [encoding.decode_encode hcovers]
    rfl
  simp only [Host.read, hcodec, hpath, Bool.false_eq_true, if_false, h.found, hdecode]
  rfl

end Files

namespace Evaluation

/-- A text without returns is written to a file, with any line ends and in any encoding that has
bytes for it. The file is run as the text is: in as many turns, with the same output or the same
fault, and so with the same report. -/
theorem written_file_as_text {host : Files.Host} {path name : String} {encoding : Text.Encoding}
    {text : List Char} {lineEnd : Text.LineEnd}
    (hname : (name, encoding) ∈ Text.Encoding.usualNames)
    (hcovers : ∀ c ∈ text, encoding.covers c) (hreturn : '\r' ∉ text)
    (hfile : Files.Holds host path (encoding.encode (lineEnd.write text))) (bound : Nat)
    (input : Input) : ofFile? bound host.read path name input = ofSource? bound text input := by
  obtain ⟨hknown, hnull⟩ := Text.Encoding.ofName?_of_mem_usualNames _ hname
  have hread : host.read path name = .ok text := by
    rw [hfile.read_eq hknown hnull (Text.Encoding.covers_write hcovers lineEnd),
      Text.unifyNewlines_write lineEnd hreturn]
  rw [ofFile?, hread]

/-- A bracket on the second line, behind a character of two bytes and a line end of four, is at
fault where it stands in the text. -/
theorem written_file_as_text_bracket :
    ("utf-16-le", Text.Encoding.utf16 .littleEndian) ∈ Text.Encoding.usualNames ∧
      (∀ c ∈ ['é', '\n', ']'], (Text.Encoding.utf16 .littleEndian).covers c) ∧
      '\r' ∉ ['é', '\n', ']'] ∧
      Files.Holds (.ofTree (.ofNames [("p.bf", some [233, 0, 13, 0, 10, 0, 93, 0])])) "p.bf"
        ((Text.Encoding.utf16 .littleEndian).encode (Text.LineEnd.both.write ['é', '\n', ']'])) ∧
      ofFile? 1 (Files.Host.ofTree (.ofNames [("p.bf", some [233, 0, 13, 0, 10, 0, 93, 0])])).read
        "p.bf" "utf-16-le" (.text "") =
        some (.error (.execution ['é', '\n', ']'] (.source (.unmatched .closing 2)))) := by
  have hname : ("utf-16-le", Text.Encoding.utf16 .littleEndian) ∈ Text.Encoding.usualNames := by
    decide
  have hcovers : ∀ c ∈ ['é', '\n', ']'], (Text.Encoding.utf16 .littleEndian).covers c :=
    fun _ _ => trivial
  have hreturn : '\r' ∉ ['é', '\n', ']'] := by decide
  have hfile : Files.Holds (.ofTree (.ofNames [("p.bf", some [233, 0, 13, 0, 10, 0, 93, 0])]))
      "p.bf" ((Text.Encoding.utf16 .littleEndian).encode
        (Text.LineEnd.both.write ['é', '\n', ']'])) := ⟨by decide, rfl⟩
  exact ⟨hname, hcovers, hreturn, hfile,
    (written_file_as_text hname hcovers hreturn hfile 1 (.text "")).trans rfl⟩

end Evaluation

end Brainfuck
