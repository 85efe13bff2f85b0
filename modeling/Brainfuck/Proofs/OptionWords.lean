import Mathlib.Data.List.Infix
import Mathlib.Data.List.TakeWhile
import Brainfuck.Options.Settings
import Brainfuck.Options.Word

/-!
Words of a command that are options and nothing else.

`Complete` lists of words hold switches, alone, in a cluster of letters or cut short, and encodings
with their values. Two readers go over them. The one that looks for the program text takes all of
them for options and values, so the text is found behind them (`Complete.splitCode_eq`). The one
that reads the options finds no fault and no text in them (`Complete.exists_settings`). What each of
the two makes of one word is stated for the word alone, and the lists follow by induction.
-/

namespace Brainfuck.Options

/-- The options without a value that let a command go on. -/
inductive Name.IsSwitch : Name → Prop
  | time : IsSwitch .time
  | verbose : IsSwitch .verbose
  | quiet : IsSwitch .quiet

/-- The text begins the long spelling of an option and of no other one. -/
structure Spells (text : List Char) (name : Name) : Prop where
  begins : text <+: ("--" ++ name.word).toList
  only : ∀ other : Name, text <+: ("--" ++ other.word).toList → other = name

/-- Lists of words in which each is a switch, an encoding, or the value of an encoding. -/
inductive Complete : List String → Prop
  | nil : Complete []
  | letters {letters : List Char} {rest : List String} (nonempty : letters ≠ [])
      (each : ∀ letter ∈ letters, letter = 'v' ∨ letter = 'q') (more : Complete rest) :
      Complete (String.ofList ('-' :: letters) :: rest)
  | long {word : String} {name : Name} {rest : List String} (switch : name.IsSwitch)
      (spells : Spells word.toList name) (more : Complete rest) : Complete (word :: rest)
  | attached (value : String) {rest : List String} (more : Complete rest) :
      Complete (("--encoding=" ++ value) :: rest)
  | separate {value : String} {rest : List String} (plain : value.toList.head? ≠ some '-')
      (more : Complete rest) : Complete ("--encoding" :: value :: rest)

theorem Complete.append {front rest : List String} (hf : Complete front) (hr : Complete rest) :
    Complete (front ++ rest) := by
  induction hf with
  | nil => exact hr
  | letters nonempty each _ ih => exact .letters nonempty each ih
  | long switch spells _ ih => exact .long switch spells ih
  | attached value _ ih => exact .attached value ih
  | separate plain _ ih => exact .separate plain ih

/-! ## The characters of a long spelling -/

theorem Name.exists_letter (name : Name) : ∃ letter more,
    ("--" ++ name.word).toList = '-' :: '-' :: letter :: more ∧ Text.isLetter letter = true := by
  cases name <;> exact ⟨_, _, rfl, by decide⟩

/-- What is attached to a long spelling, by the equals sign and what stands after it. -/
def attachedBy : List Char → Option String
  | [] => none
  | _ :: value => some (String.ofList value)

namespace Spells

variable {text : List Char} {name : Name}

theorem two_lt_length (h : Spells text name) : 2 < text.length := by
  by_contra hle
  have hdashes : ∀ other : Name, text <+: ("--" ++ other.word).toList := by
    intro other
    have hfront : text <+: "--".toList := by
      apply List.prefix_of_prefix_length_le h.begins
      · rw [String.toList_append]
        exact List.prefix_append _ _
      · exact Nat.not_lt.mp hle
    rw [String.toList_append]
    exact hfront.trans (List.prefix_append _ _)
  have hhelp := h.only .help (hdashes .help)
  have hfile := h.only .file (hdashes .file)
  rw [← hhelp] at hfile
  contradiction

theorem exists_letter (h : Spells text name) :
    (∃ letter more, text = '-' :: '-' :: letter :: more ∧ Text.isLetter letter = true) ∧
      '=' ∉ text := by
  constructor
  · obtain ⟨letter, spelled, hname, hletter⟩ := name.exists_letter
    have hbegins := h.begins
    have hlen := h.two_lt_length
    match text, hlen with
    | first :: second :: third :: more, _ =>
      rw [hname] at hbegins
      simp only [List.cons_prefix_cons] at hbegins
      obtain ⟨rfl, rfl, rfl, -⟩ := hbegins
      exact ⟨third, more, rfl, hletter⟩
  · intro hmem
    have hword := h.begins.subset hmem
    cases name <;> revert hword <;> decide

theorem beginningWith_eq (h : Spells text name) : Name.beginningWith text = [name] := by
  have hfilter : Name.beginningWith text = Name.all.filter (· = name) := by
    apply List.filter_congr
    intro other _
    rw [Bool.eq_iff_iff, List.isPrefixOf_iff_prefix, decide_eq_true_iff]
    constructor
    · exact h.only other
    · rintro rfl
      exact h.begins
  rw [hfilter]
  cases name <;> rfl

/-- What stands before the first equals sign says which option a long spelling is of, in full or cut
short, and what stands after it is attached. -/
theorem markLong_eq {word : String} (h : Spells text name)
    (hspelling : word.toList.takeWhile (· ≠ '=') = text) :
    markLong word = .ok (.option name false (attachedBy (word.toList.dropWhile (· ≠ '=')))) := by
  cases hfind : Name.all.find? fun name => ("--" ++ name.word).toList = text with
  | none =>
    cases hrest : word.toList.dropWhile (· ≠ '=') <;>
      simp only [markLong, hspelling, hfind, hrest, h.beginningWith_eq, attachedBy]
  | some other =>
    have hother := List.find?_some hfind
    obtain rfl := h.only other (by rw [of_decide_eq_true hother])
    cases hrest : word.toList.dropWhile (· ≠ '=') <;>
      simp only [markLong, hspelling, hfind, hrest, attachedBy]

theorem takeWhile_eq (h : Spells text name) (rest : List Char) :
    (text ++ '=' :: rest).takeWhile (· ≠ '=') = text ∧
      (text ++ '=' :: rest).dropWhile (· ≠ '=') = '=' :: rest := by
  have hne : ∀ c ∈ text, decide (c ≠ '=') = true := by
    intro c hc
    apply decide_eq_true
    rintro rfl
    exact h.exists_letter.2 hc
  rw [List.takeWhile_append_of_pos hne, List.dropWhile_append_of_pos hne]
  simp

theorem mark_eq {word : String} (h : Spells word.toList name) :
    mark word = .ok (.option name false none) := by
  obtain ⟨⟨letter, more, hword, -⟩, hno⟩ := h.exists_letter
  have hne : ∀ c ∈ word.toList, decide (c ≠ '=') = true := by
    intro c hc
    apply decide_eq_true
    rintro rfl
    exact hno hc
  have hlong := h.markLong_eq (List.takeWhile_eq_self_iff.mpr hne)
  rw [List.dropWhile_eq_nil_iff.mpr hne] at hlong
  rw [mark, hword]
  exact hlong

end Spells

/-! ## Switches -/

theorem Name.IsSwitch.hasValue_eq {name : Name} (h : name.IsSwitch) : name.hasValue = false := by
  cases h <;> rfl

theorem Name.exists_switch_of_letter {letter : Char} (h : letter = 'v' ∨ letter = 'q') :
    ∃ name, Name.ofLetter? letter = some name ∧ name.IsSwitch := by
  rcases h with rfl | rfl
  · exact ⟨.verbose, rfl, .verbose⟩
  · exact ⟨.quiet, rfl, .quiet⟩

theorem undivided_eq {text : List Char} (h : text.head? ≠ some '=') : undivided text = text := by
  unfold undivided
  split
  · exact absurd rfl h
  · rfl

theorem clusterBehind_eq {text : List Char} (hne : text ≠ []) (hsign : text.head? ≠ some '=')
    (edition : Edition) (name : Name) :
    clusterBehind edition name text = clusterFrom edition name text := by
  cases edition with
  | earlier => rw [clusterBehind, undivided_eq hsign, if_neg hne]
  | later => rfl

theorem head?_ne_sign {letters : List Char}
    (h : ∀ letter ∈ letters, letter = 'v' ∨ letter = 'q') : letters.head? ≠ some '=' := by
  intro hhead
  have hsign := h '=' (List.mem_of_mem_head? hhead)
  revert hsign
  decide

theorem exists_clusterFrom {letters : List Char}
    (h : ∀ letter ∈ letters, letter = 'v' ∨ letter = 'q') (edition : Edition) {name : Name}
    (hname : name.IsSwitch) :
    ∃ names, clusterFrom edition name letters = .ok ⟨names, none, []⟩ ∧
      ∀ other ∈ names, other.IsSwitch := by
  induction letters generalizing name with
  | nil => exact ⟨[name], rfl, List.forall_mem_singleton.mpr hname⟩
  | cons letter rest ih =>
    obtain ⟨hfirst, hothers⟩ := List.forall_mem_cons.mp h
    obtain ⟨next, hletter, hnext⟩ := Name.exists_switch_of_letter hfirst
    obtain ⟨names, hnames, hall⟩ := ih hothers hnext
    refine ⟨name :: names, ?_, List.forall_mem_cons.mpr ⟨hname, hall⟩⟩
    simp only [clusterFrom, hletter, hnext.hasValue_eq, Bool.false_eq_true, if_false, hnames]
    rfl

theorem Settings.exists_switchAll {names : List Name} (h : ∀ name ∈ names, name.IsSwitch)
    (settings : Settings) : ∃ after, settings.switchAll names = .ok after ∧
      after.code = settings.code ∧ after.file = settings.file := by
  induction names generalizing settings with
  | nil => exact ⟨settings, rfl, rfl, rfl⟩
  | cons name rest ih =>
    obtain ⟨hname, hrest⟩ := List.forall_mem_cons.mp h
    cases hname with
    | time => exact ih hrest { settings with timed := true }
    | verbose => exact ih hrest { settings with verbose := true }
    | quiet => exact ih hrest { settings with quiet := true }

/-! ## The marks of the words -/

theorem mark_of_plain {word : String} (h : word.toList.head? ≠ some '-') :
    mark word = .ok (.plain word) := by
  unfold mark
  split
  · next hword => exact absurd (by rw [hword]; rfl) h
  · next hword => exact absurd (by rw [hword]; rfl) h
  · next hword => exact absurd (by rw [hword]; rfl) h
  · rfl

theorem mark_attached (value : String) :
    mark ("--encoding=" ++ value) = .ok (.option .encoding false (some value)) := by
  have hword : ("--encoding=" ++ value).toList = "--encoding=".toList ++ value.toList :=
    String.toList_append
  have hlong : markLong ("--encoding=" ++ value) = .ok (.option .encoding false (some value)) := by
    have hvalue : some (String.ofList value.toList) = some value := by
      rw [String.ofList_toList]
    rw [← hvalue, markLong, hword]
    rfl
  rw [mark, hword]
  exact hlong

theorem exists_mark_letters {letters : List Char} (hne : letters ≠ [])
    (h : ∀ letter ∈ letters, letter = 'v' ∨ letter = 'q') (edition : Edition) :
    ∃ name attached names, mark (String.ofList ('-' :: letters)) = .ok (.option name true attached) ∧
      cluster edition name true attached = .ok ⟨names, none, []⟩ ∧
      ∀ other ∈ names, other.IsSwitch := by
  obtain ⟨letter, rest, rfl⟩ := List.exists_cons_of_ne_nil hne
  obtain ⟨hfirst, hothers⟩ := List.forall_mem_cons.mp h
  have hmark : mark (String.ofList ('-' :: letter :: rest)) =
      .ok (markShort (String.ofList ('-' :: letter :: rest)) letter rest) := by
    rw [mark, String.toList_ofList]
    rcases hfirst with rfl | rfl <;> rfl
  obtain ⟨name, hletter, hswitch⟩ := Name.exists_switch_of_letter hfirst
  cases rest with
  | nil =>
    refine ⟨name, none, [name], ?_, ?_, List.forall_mem_singleton.mpr hswitch⟩
    · rw [hmark, markShort, hletter]
      rfl
    · rw [cluster, hswitch.hasValue_eq]
      rfl
  | cons next rest =>
    obtain ⟨names, hnames, hall⟩ := exists_clusterFrom hothers edition hswitch
    refine ⟨name, some (String.ofList (next :: rest)), names, ?_, ?_, hall⟩
    · rw [hmark, markShort, hletter]
      rfl
    · rw [cluster, hswitch.hasValue_eq, if_neg Bool.false_ne_true, if_pos rfl,
        String.toList_ofList, clusterBehind_eq (List.cons_ne_nil next rest) (head?_ne_sign hothers),
        hnames]

theorem marks_cons {word : String} {first : Mark} {rest : List String} {others : List Mark}
    (hfirst : mark word = .ok first) (hne : first ≠ .doubleDash) (hrest : marks rest = .ok others) :
    marks (word :: rest) = .ok (first :: others) := by
  rw [marks, hfirst, hrest]
  cases first with
  | doubleDash => contradiction
  | _ => rfl

/-! ## Following the marks -/

theorem leave_nil (result : Except Stop (Settings × List String)) : leave [] result = result := by
  cases result <;> rfl

section

variable {edition : Edition}

/-- Marks that leave no word over, and neither a text nor a file in the settings. -/
def Harmless (edition : Edition) (marks : List Mark) : Prop :=
  ∀ settings, ∃ after, follow edition true settings marks = .ok (after, []) ∧
    after.code = settings.code ∧ after.file = settings.file

theorem Harmless.switches {name : Name} {byLetter : Bool} {attached : Option String}
    {names : List Name} {rest : List Mark}
    (hcluster : cluster edition name byLetter attached = .ok ⟨names, none, []⟩)
    (hnames : ∀ other ∈ names, other.IsSwitch) (hrest : Harmless edition rest) :
    Harmless edition (.option name byLetter attached :: rest) := by
  intro settings
  obtain ⟨switched, hswitched, hcode, hfile⟩ := settings.exists_switchAll hnames
  obtain ⟨after, hafter, hcode', hfile'⟩ := hrest switched
  refine ⟨after, ?_, hcode'.trans hcode, hfile'.trans hfile⟩
  simp only [follow, hcluster, hswitched, hafter, leave_nil]

theorem Harmless.attached {value : String} {rest : List Mark} (hrest : Harmless edition rest) :
    Harmless edition (.option .encoding false (some value) :: rest) := by
  intro settings
  obtain ⟨after, hafter, hsame⟩ := hrest (settings.assign .encoding (.ofAttached edition value))
  refine ⟨after, ?_, hsame⟩
  rw [← leave_nil (.ok (after, [])), ← hafter]
  rfl

theorem Harmless.separate {value : String} {rest : List Mark} (hrest : Harmless edition rest) :
    Harmless edition (.option .encoding false none :: .plain value :: rest) := by
  intro settings
  obtain ⟨after, hafter, hsame⟩ := hrest (settings.assign .encoding (.text value))
  refine ⟨after, ?_, hsame⟩
  rw [← leave_nil (.ok (after, [])), ← hafter]
  rfl

/-- Complete options are read without fault, and neither a text nor a file comes of them. -/
theorem Complete.exists_settings {words : List String} (h : Complete words) (edition : Edition) :
    ∃ after, settings edition words = .ok after ∧ after.code = none ∧ after.file = none := by
  have hmarks : ∃ read, marks words = .ok read ∧ Harmless edition read := by
    induction h with
    | nil => exact ⟨[], rfl, fun settings => ⟨settings, rfl, rfl, rfl⟩⟩
    | letters nonempty each _ ih =>
      obtain ⟨read, hread, hharmless⟩ := ih
      obtain ⟨name, attached, names, hmark, hcluster, hnames⟩ :=
        exists_mark_letters nonempty each edition
      exact ⟨_, marks_cons hmark (by simp) hread, hharmless.switches hcluster hnames⟩
    | @long word name rest switch spells _ ih =>
      obtain ⟨read, hread, hharmless⟩ := ih
      have hcluster : cluster edition name false none = .ok ⟨[name], none, []⟩ := by
        cases switch <;> rfl
      have hnames := List.forall_mem_singleton.mpr switch
      exact ⟨_, marks_cons spells.mark_eq (by simp) hread, hharmless.switches hcluster hnames⟩
    | attached value _ ih =>
      obtain ⟨read, hread, hharmless⟩ := ih
      exact ⟨_, marks_cons (mark_attached value) (by simp) hread, hharmless.attached⟩
    | separate plain _ ih =>
      obtain ⟨read, hread, hharmless⟩ := ih
      have hvalue := marks_cons (mark_of_plain plain) (by simp) hread
      exact ⟨_, marks_cons rfl (by simp) hvalue, hharmless.separate⟩
  obtain ⟨read, hread, hharmless⟩ := hmarks
  obtain ⟨after, hafter, hcode, hfile⟩ := hharmless {}
  refine ⟨after, ?_, hcode, hfile⟩
  simp only [settings, hread, hafter]

end

/-! ## Finding the text behind the words -/

theorem splitCode_of_text {word : String} (h : isOption word = false) (rest : List String) :
    splitCode (word :: rest) = (some word, rest) := by
  cases rest with
  | nil => simp [splitCode, h]
  | cons next rest => simp [splitCode, h]

theorem splitCode_of_option {word : String} (h : isOption word = true)
    (hv : takesValue word = false) (rest : List String) :
    splitCode (word :: rest) = ((splitCode rest).1, word :: (splitCode rest).2) := by
  cases rest with
  | nil => simp [splitCode, h]
  | cons next rest => simp [splitCode, h, hv]

theorem splitCode_of_value {word : String} (h : isOption word = true) (hv : takesValue word = true)
    (value : String) (rest : List String) :
    splitCode (word :: value :: rest) = ((splitCode rest).1, word :: value :: (splitCode rest).2) := by
  simp [splitCode, h, hv]

theorem takesValue_iff {word : String} : takesValue word = true ↔ word = "-f" ∨
    ("--".toList <+: word.toList ∧ '=' ∉ word.toList ∧
      ∃ option ∈ valueOptions, word.toList <+: option.toList) := by
  rw [takesValue, Bool.or_eq_true, beq_iff_eq, Bool.and_eq_true, Bool.and_eq_true,
    List.isPrefixOf_iff_prefix, Bool.not_eq_true', List.any_eq_true]
  simp only [List.isPrefixOf_iff_prefix, List.contains_eq_mem, decide_eq_false_iff_not, and_assoc]

theorem isOption_letters {letters : List Char} (hne : letters ≠ [])
    (h : ∀ letter ∈ letters, letter = 'v' ∨ letter = 'q') :
    isOption (String.ofList ('-' :: letters)) = true := by
  obtain ⟨letter, rest, rfl⟩ := List.exists_cons_of_ne_nil hne
  rw [isOption, String.toList_ofList]
  rcases h letter List.mem_cons_self with rfl | rfl <;> rfl

theorem takesValue_letters {letters : List Char}
    (h : ∀ letter ∈ letters, letter = 'v' ∨ letter = 'q') :
    takesValue (String.ofList ('-' :: letters)) = false := by
  have hword : (String.ofList ('-' :: letters)).toList = '-' :: letters := String.toList_ofList
  apply eq_false_of_ne_true
  rw [takesValue_iff, hword]
  rintro (hfile | ⟨hlong, -⟩)
  · have hchars := congrArg String.toList hfile
    rw [hword] at hchars
    have hf : 'f' ∈ letters := by
      rw [(List.cons.inj hchars).2]
      exact List.mem_cons_self
    have hletter := h 'f' hf
    revert hletter
    decide
  · have hdash : '-' ∈ letters := (List.cons_prefix_cons.mp hlong).2.subset List.mem_cons_self
    have hletter := h '-' hdash
    revert hletter
    decide

theorem Spells.isOption_eq {word : String} {name : Name} (h : Spells word.toList name) :
    isOption word = true := by
  obtain ⟨⟨letter, more, hword, hletter⟩, -⟩ := h.exists_letter
  rw [isOption, hword]
  exact hletter

theorem Spells.takesValue_eq {word : String} {name : Name} (h : Spells word.toList name)
    (hswitch : name.IsSwitch) : takesValue word = false := by
  apply eq_false_of_ne_true
  rw [takesValue_iff]
  rintro (rfl | ⟨-, -, option, hoption, hbegins⟩)
  · exact absurd h.two_lt_length (by decide)
  · -- the word would begin the spelling of another option
    rcases List.mem_pair.mp hoption with rfl | rfl
    · obtain rfl := h.only .file hbegins
      contradiction
    · obtain rfl := h.only .encoding hbegins
      contradiction

theorem isOption_attached (value : String) : isOption ("--encoding=" ++ value) = true := by
  rw [isOption, String.toList_append]
  rfl

theorem takesValue_attached (value : String) : takesValue ("--encoding=" ++ value) = false := by
  apply eq_false_of_ne_true
  rw [takesValue_iff, String.toList_append]
  rintro (hfile | ⟨-, hno, -⟩)
  · have hchars := congrArg String.toList hfile
    rw [String.toList_append] at hchars
    have hsecond := (List.cons.inj (List.cons.inj hchars).2).1
    revert hsecond
    decide
  · exact hno (List.mem_append_left _ (by decide))

/-- The text behind complete options is found, whatever words follow it. -/
theorem Complete.splitCode_eq {front : List String} (h : Complete front) {code : String}
    (hcode : isOption code = false) (rest : List String) :
    splitCode (front ++ code :: rest) = (some code, front ++ rest) := by
  induction h with
  | nil => exact splitCode_of_text hcode rest
  | letters nonempty each _ ih =>
    rw [List.cons_append,
      splitCode_of_option (isOption_letters nonempty each) (takesValue_letters each), ih]
    rfl
  | long switch spells _ ih =>
    rw [List.cons_append, splitCode_of_option spells.isOption_eq (spells.takesValue_eq switch), ih]
    rfl
  | attached value _ ih =>
    rw [List.cons_append,
      splitCode_of_option (isOption_attached value) (takesValue_attached value), ih]
    rfl
  | separate _ _ ih =>
    rw [List.cons_append, List.cons_append, splitCode_of_value (by decide) (by decide), ih]
    rfl

end Brainfuck.Options
