import Brainfuck.Proofs.OptionWords

/-!
Values of options, and the search for the program text.

When the options of a command are read to the end and no text is found among its words, every word
is an option or the value of one (`OptionsOnly`, `optionsOnly_of_settings`). The search for the
text, which comes first and looks at the words alone, is to pass over all of them. It takes the same
words for options as the reader of the options does (`Written.isOption_eq`), and an option that
stands alone is followed by a value for the one as for the other (`Written.takesValue_iff_hasValue`).

They part in one spelling. When letters share a dash and the last is that of the file, the value
is the next word, and the search does not skip it. So the values are all passed over just if each
value of this kind looks like an option itself (`values_passed_over_iff`).
-/

namespace Brainfuck.Options

namespace Name

theorem mem_all (name : Name) : name ∈ all := by
  cases name <;> decide

theorem letter?_of_ofLetter? {letter : Char} {name : Name} (h : ofLetter? letter = some name) :
    name.letter? = some letter := by
  have hfound := List.find?_some h
  exact eq_of_beq hfound

theorem isLetter_of_letter? {name : Name} {letter : Char} (h : name.letter? = some letter) :
    Text.isLetter letter = true ∧ letter ≠ '-' := by
  cases name <;> simp only [letter?, Option.some.injEq, reduceCtorEq] at h <;> subst h <;> decide

theorem spells_word (name : Name) : Spells ("--" ++ name.word).toList name := by
  have hall : ∀ a ∈ all, ∀ b ∈ all, ("--" ++ a.word).toList <+: ("--" ++ b.word).toList → b = a := by
    decide
  exact ⟨List.prefix_rfl, fun other => hall name name.mem_all other other.mem_all⟩

theorem mem_beginningWith {text : List Char} {name : Name} :
    name ∈ beginningWith text ↔ text <+: ("--" ++ name.word).toList := by
  simp [beginningWith, name.mem_all]

theorem spells_of_beginningWith {text : List Char} {name : Name} (h : beginningWith text = [name]) :
    Spells text name := by
  have hmem : ∀ other : Name, text <+: ("--" ++ other.word).toList ↔ other = name := by
    intro other
    rw [← mem_beginningWith, h, List.mem_singleton]
  exact ⟨(hmem name).mpr rfl, fun other hother => (hmem other).mp hother⟩

end Name

/-! ## How a marked option was written -/

/-- The ways of writing the word of an option, by what its mark says. -/
inductive Written (word : String) : Name → Bool → Option String → Prop
  | letter {letter : Char} {name : Name} (known : name.letter? = some letter)
      (spelled : word.toList = ['-', letter]) : Written word name true none
  | letters {letter : Char} {value : List Char} {name : Name} (known : name.letter? = some letter)
      (more : value ≠ []) (spelled : word.toList = '-' :: letter :: value) :
      Written word name true (some (String.ofList value))
  | long {name : Name} (spells : Spells word.toList name) : Written word name false none
  | attached {spelling value : List Char} {name : Name} (spells : Spells spelling name)
      (spelled : word.toList = spelling ++ '=' :: value) :
      Written word name false (some (String.ofList value))

/-- What is marked of a word, with what it says of the word. -/
inductive Marked (word : String) : Except UsageFault Mark → Prop
  | plain (noValue : takesValue word = false) : Marked word (.ok (.plain word))
  | doubleDash (spelled : word = "--") : Marked word (.ok .doubleDash)
  | option {name : Name} {byLetter : Bool} {attached : Option String}
      (written : Written word name byLetter attached) :
      Marked word (.ok (.option name byLetter attached))
  | unknown : Marked word (.ok (.unknown word))
  | ambiguous (matching : List String) : Marked word (.error (.ambiguous word matching))

theorem marked_short {word : String} {letter : Char} {rest : List Char}
    (hword : word.toList = '-' :: letter :: rest) (hdash : letter ≠ '-') :
    Marked word (.ok (markShort word letter rest)) := by
  unfold markShort
  split
  · next name hletter =>
    have hknown := Name.letter?_of_ofLetter? hletter
    cases rest with
    | nil => exact .option (.letter hknown hword)
    | cons c value => exact .option (.letters hknown (List.cons_ne_nil c value) hword)
  · next hletter =>
    split
    · refine .plain (eq_false_of_ne_true ?_)
      rw [takesValue_iff, hword]
      rintro (hfile | ⟨hlong, -⟩)
      · rw [hfile] at hword
        obtain rfl := (List.cons.inj (List.cons.inj hword).2).1
        contradiction
      · exact hdash (List.cons_prefix_cons.mp (List.cons_prefix_cons.mp hlong).2).1.symm
    · exact .unknown

theorem Spells.marked_long {word : String} {name : Name}
    (h : Spells (word.toList.takeWhile (· ≠ '=')) name) : Marked word (markLong word) := by
  have hsplit : word.toList.takeWhile (· ≠ '=') ++ word.toList.dropWhile (· ≠ '=') = word.toList :=
    List.takeWhile_append_dropWhile
  rw [h.markLong_eq rfl]
  cases hrest : word.toList.dropWhile (· ≠ '=') with
  | nil =>
    rw [hrest, List.append_nil] at hsplit
    rw [hsplit] at h
    exact .option (.long h)
  | cons c value =>
    have hsign := List.head?_dropWhile_not (· ≠ '=') word.toList
    rw [hrest] at hsplit hsign
    have hc : c = '=' := by
      simpa using hsign
    rw [hc] at hsplit
    exact .option (.attached h hsplit.symm)

theorem takesValue_of_beginningWith_eq_nil {word : String} (hspace : ' ' ∈ word.toList)
    (h : Name.beginningWith (word.toList.takeWhile (· ≠ '=')) = []) : takesValue word = false := by
  refine eq_false_of_ne_true ?_
  rw [takesValue_iff]
  rintro (rfl | ⟨-, hno, option, hoption, hbegins⟩)
  · exact absurd hspace (by decide)
  · -- without an equals sign the spelling is the word, and an option with a value begins with it
    have hself : word.toList.takeWhile (· ≠ '=') = word.toList := by
      apply List.takeWhile_eq_self_iff.mpr
      intro c hc
      apply decide_eq_true
      rintro rfl
      exact hno hc
    rw [hself] at h
    have hnone : ∀ name : Name, ¬ word.toList <+: ("--" ++ name.word).toList := by
      intro name hname
      have hmem : name ∈ Name.beginningWith word.toList := Name.mem_beginningWith.mpr hname
      rw [h] at hmem
      contradiction
    rcases List.mem_pair.mp hoption with rfl | rfl
    · exact hnone .file hbegins
    · exact hnone .encoding hbegins

theorem marked_long (word : String) : Marked word (markLong word) := by
  cases hfind : Name.all.find? fun name =>
      ("--" ++ name.word).toList = word.toList.takeWhile (· ≠ '=') with
  | some name =>
    have hfound := List.find?_some hfind
    apply Spells.marked_long
    rw [← of_decide_eq_true hfound]
    exact name.spells_word
  | none =>
    cases hbegin : Name.beginningWith (word.toList.takeWhile (· ≠ '=')) with
    | nil =>
      simp only [markLong, hfind, hbegin]
      split
      · next hspace => exact .plain (takesValue_of_beginningWith_eq_nil hspace hbegin)
      · exact .unknown
    | cons name others =>
      cases others with
      | nil => exact (Name.spells_of_beginningWith hbegin).marked_long
      | cons other others =>
        simp only [markLong, hfind, hbegin]
        exact .ambiguous _

theorem marked (word : String) : Marked word (mark word) := by
  unfold mark
  split
  · next hword => exact .doubleDash (by rw [← String.ofList_toList (s := word), hword])
  · exact marked_long word
  · next letter rest _ hdash hword => exact marked_short hword hdash
  · next hshort =>
    refine .plain (eq_false_of_ne_true ?_)
    rw [takesValue_iff]
    rintro (rfl | ⟨⟨more, hlong⟩, -⟩)
    · exact hshort 'f' [] rfl
    · exact hshort '-' more hlong.symm

theorem written_of_mark {word : String} {name : Name} {byLetter : Bool} {attached : Option String}
    (h : mark word = .ok (.option name byLetter attached)) : Written word name byLetter attached := by
  have hmarked := marked word
  rw [h] at hmarked
  cases hmarked with
  | option written => exact written

theorem mark_eq_plain {word other : String} (h : mark word = .ok (.plain other)) :
    other = word ∧ takesValue word = false := by
  have hmarked := marked word
  rw [h] at hmarked
  cases hmarked with
  | plain noValue => exact ⟨rfl, noValue⟩

theorem mark_eq_doubleDash {word : String} (h : mark word = .ok .doubleDash) : word = "--" := by
  have hmarked := marked word
  rw [h] at hmarked
  cases hmarked with
  | doubleDash spelled => exact spelled

/-! ## What the search makes of it -/

theorem isOption_of_letter {word : String} {letter : Char} {rest : List Char}
    (hword : word.toList = '-' :: letter :: rest) (hletter : Text.isLetter letter = true)
    (hdash : letter ≠ '-') : isOption word = true := by
  rw [isOption, hword]
  split
  · next hlong => exact absurd (List.cons.inj (List.cons.inj hlong).2).1 hdash
  · next hshort => rwa [← (List.cons.inj (List.cons.inj hshort).2).1]
  · next hother => exact absurd rfl (hother letter rest)

namespace Written

variable {word : String} {name : Name} {byLetter : Bool} {attached : Option String}

theorem isOption_eq (h : Written word name byLetter attached) : isOption word = true := by
  cases h with
  | letter known spelled =>
    obtain ⟨hletter, hdash⟩ := Name.isLetter_of_letter? known
    exact isOption_of_letter spelled hletter hdash
  | letters known _ spelled =>
    obtain ⟨hletter, hdash⟩ := Name.isLetter_of_letter? known
    exact isOption_of_letter spelled hletter hdash
  | long spells => exact spells.isOption_eq
  | attached spells spelled =>
    obtain ⟨⟨letter, more, hspelling, hletter⟩, -⟩ := spells.exists_letter
    rw [isOption, spelled, hspelling]
    exact hletter

/-- The search passes over the next word with the options that take it for their value, as long as
no other option shares the dash. -/
theorem takesValue_iff_hasValue (h : Written word name byLetter attached) :
    takesValue word = true ↔ name.hasValue = true ∧ attached = none := by
  cases h with
  | letter known spelled =>
    have hword := String.ofList_toList.symm.trans (congrArg String.ofList spelled)
    cases name <;> simp only [Name.letter?, Option.some.injEq, reduceCtorEq] at known <;>
      subst known hword <;> decide
  | letters known more spelled =>
    simp only [reduceCtorEq, and_false, iff_false, Bool.not_eq_true]
    apply eq_false_of_ne_true
    rw [takesValue_iff, spelled]
    rintro (hfile | ⟨hlong, -⟩)
    · -- the word is longer than the letter of the file alone
      have hchars := congrArg String.toList hfile
      rw [spelled] at hchars
      exact more (List.cons.inj (List.cons.inj hchars).2).2
    · have hdash := (List.cons_prefix_cons.mp (List.cons_prefix_cons.mp hlong).2).1
      exact (Name.isLetter_of_letter? known).2 hdash.symm
  | long spells =>
    simp only [and_true]
    rw [takesValue_iff]
    constructor
    · rintro (rfl | ⟨-, -, option, hoption, hbegins⟩)
      · exact absurd spells.two_lt_length (by decide)
      · rcases List.mem_pair.mp hoption with rfl | rfl
        · rw [← spells.only .file hbegins]
          rfl
        · rw [← spells.only .encoding hbegins]
          rfl
    · intro hvalue
      obtain ⟨⟨letter, more, hword, -⟩, hno⟩ := spells.exists_letter
      refine .inr ⟨⟨letter :: more, hword.symm⟩, hno, "--" ++ name.word, ?_, spells.begins⟩
      cases name <;> simp only [Name.hasValue, Bool.false_eq_true] at hvalue <;> decide
  | attached spells spelled =>
    simp only [reduceCtorEq, and_false, iff_false, Bool.not_eq_true]
    apply eq_false_of_ne_true
    rw [takesValue_iff]
    rintro (rfl | ⟨-, hno, -⟩)
    · have hlen := congrArg List.length spelled
      have hspelling := spells.two_lt_length
      simp at hlen
      omega
    · exact hno (by simp [spelled])

end Written

theorem splitCode_of_mark_alone {word : String} {name : Name} {byLetter : Bool}
    {attached : Option String} (h : mark word = .ok (.option name byLetter attached))
    (halone : ¬ (name.hasValue = true ∧ attached = none)) (rest : List String) :
    splitCode (word :: rest) = ((splitCode rest).1, word :: (splitCode rest).2) := by
  have hwritten := written_of_mark h
  apply splitCode_of_option hwritten.isOption_eq
  exact eq_false_of_ne_true fun hv => halone (hwritten.takesValue_iff_hasValue.mp hv)

theorem splitCode_of_mark_followed {word : String} {name : Name} {byLetter : Bool}
    (h : mark word = .ok (.option name byLetter none)) (hvalue : name.hasValue = true)
    (value : String) (rest : List String) :
    splitCode (word :: value :: rest) =
      ((splitCode rest).1, word :: value :: (splitCode rest).2) := by
  have hwritten := written_of_mark h
  exact splitCode_of_value hwritten.isOption_eq
    (hwritten.takesValue_iff_hasValue.mpr ⟨hvalue, rfl⟩) value rest

/-! ## Letters that share a dash with that of the file -/

/-- Letters of switches share a dash, and behind them, as the last, stands that of the file. An
equals sign may follow the first. -/
def HidesFile (word : String) : Prop :=
  ∃ (letter : Char) (sign more : List Char), (∀ c ∈ letter :: more, c = 'v' ∨ c = 'q') ∧
    (sign = [] ∨ sign = ['=']) ∧ word.toList = '-' :: letter :: (sign ++ (more ++ ['f']))

section

variable {edition : Edition}

theorem mem_of_strayLetters {name : Name} {text : List Char} {group : Cluster}
    (h : strayLetters edition name text = .ok group) : name ∈ group.switches := by
  unfold strayLetters at h
  split at h
  · contradiction
  · contradiction
  · obtain rfl := Except.ok.inj h
    exact List.mem_singleton_self name
  · contradiction

theorem mem_of_clusterFrom {name : Name} {letters : List Char} {group : Cluster}
    (h : clusterFrom edition name letters = .ok group) : name ∈ group.switches := by
  cases letters with
  | nil =>
    obtain rfl := Except.ok.inj h
    exact List.mem_singleton_self name
  | cons letter rest =>
    simp only [clusterFrom] at h
    split at h
    · exact mem_of_strayLetters h
    · split at h
      · obtain rfl := Except.ok.inj h
        exact List.mem_singleton_self name
      · next next _ _ =>
        cases hrest : clusterFrom edition next rest with
        | error fault => simp [hrest, Except.map] at h
        | ok others =>
          rw [hrest] at h
          obtain rfl := Except.ok.inj h
          exact List.mem_cons_self

theorem mem_of_clusterBehind {name : Name} {text : List Char} {group : Cluster}
    (h : clusterBehind edition name text = .ok group) : name ∈ group.switches := by
  cases edition with
  | earlier =>
    rw [clusterBehind] at h
    split at h
    · contradiction
    · exact mem_of_clusterFrom h
  | later => exact mem_of_clusterFrom h

theorem Name.switch_letter {name : Name} {letter : Char} (h : name.letter? = some letter)
    (hvalue : name.hasValue = false) (hhelp : name ≠ .help) : letter = 'v' ∨ letter = 'q' := by
  cases name <;> simp_all [letter?, hasValue, eq_comm]

theorem Name.file_letter {name : Name} {letter : Char} (h : name.letter? = some letter)
    (hvalue : name.hasValue = true) : letter = 'f' := by
  cases name <;> simp_all [letter?, hasValue, eq_comm]

theorem assigned_of_strayLetters {name : Name} {text : List Char} {group : Cluster}
    (h : strayLetters edition name text = .ok group) : group.assigned = none := by
  unfold strayLetters at h
  split at h
  · contradiction
  · contradiction
  · obtain rfl := Except.ok.inj h
    rfl
  · contradiction

theorem letters_of_clusterFrom {name last : Name} {letters : List Char} {group : Cluster}
    (h : clusterFrom edition name letters = .ok group)
    (hpending : group.assigned = some (last, none)) (hhelp : .help ∉ group.switches) :
    ∃ more, letters = more ++ ['f'] ∧ ∀ c ∈ more, c = 'v' ∨ c = 'q' := by
  induction letters generalizing name group with
  | nil =>
    obtain rfl := Except.ok.inj h
    contradiction
  | cons letter rest ih =>
    simp only [clusterFrom] at h
    split at h
    · rw [assigned_of_strayLetters h] at hpending
      contradiction
    · next next hletter =>
      have hknown := Name.letter?_of_ofLetter? hletter
      split at h
      · next hvalue =>
        obtain rfl := Except.ok.inj h
        have hrest : rest = [] := by
          cases rest with
          | nil => rfl
          | cons c value => simp at hpending
        rw [Name.file_letter hknown hvalue, hrest]
        exact ⟨[], rfl, List.forall_mem_nil _⟩
      · next hvalue =>
        cases hrest : clusterFrom edition next rest with
        | error fault => simp [hrest, Except.map] at h
        | ok others =>
          rw [hrest] at h
          obtain rfl := Except.ok.inj h
          have hnot : .help ∉ others.switches := fun hmem => hhelp (List.mem_cons_of_mem _ hmem)
          obtain ⟨more, rfl, hmore⟩ := ih hrest hpending hnot
          have hfirst : letter = 'v' ∨ letter = 'q' := by
            apply Name.switch_letter hknown (Bool.eq_false_iff.mpr hvalue)
            rintro rfl
            exact hnot (mem_of_clusterFrom hrest)
          exact ⟨letter :: more, rfl, List.forall_mem_cons.mpr ⟨hfirst, hmore⟩⟩

theorem exists_sign (text : List Char) :
    ∃ sign, (sign = [] ∨ sign = ['=']) ∧ text = sign ++ undivided text := by
  unfold undivided
  split
  · exact ⟨['='], .inr rfl, rfl⟩
  · exact ⟨[], .inl rfl, rfl⟩

theorem letters_of_clusterBehind {name last : Name} {text : List Char} {group : Cluster}
    (h : clusterBehind edition name text = .ok group)
    (hpending : group.assigned = some (last, none)) (hhelp : .help ∉ group.switches) :
    ∃ sign more, (sign = [] ∨ sign = ['=']) ∧ text = sign ++ (more ++ ['f']) ∧
      ∀ c ∈ more, c = 'v' ∨ c = 'q' := by
  cases edition with
  | earlier =>
    rw [clusterBehind] at h
    split at h
    · contradiction
    · obtain ⟨more, hletters, hmore⟩ := letters_of_clusterFrom h hpending hhelp
      obtain ⟨sign, hsign, htext⟩ := exists_sign text
      rw [hletters] at htext
      exact ⟨sign, more, hsign, htext, hmore⟩
  | later =>
    obtain ⟨more, hletters, hmore⟩ := letters_of_clusterFrom h hpending hhelp
    exact ⟨[], more, .inl rfl, hletters, hmore⟩

theorem exists_clusterFrom_file {more : List Char} (h : ∀ c ∈ more, c = 'v' ∨ c = 'q')
    (name : Name) : ∃ switches,
      clusterFrom edition name (more ++ ['f']) = .ok ⟨switches, some (.file, none), []⟩ := by
  induction more generalizing name with
  | nil => exact ⟨[name], rfl⟩
  | cons letter rest ih =>
    obtain ⟨hfirst, hothers⟩ := List.forall_mem_cons.mp h
    obtain ⟨next, hletter, hnext⟩ := Name.exists_switch_of_letter hfirst
    obtain ⟨switches, hswitches⟩ := ih hothers next
    refine ⟨name :: switches, ?_⟩
    simp only [List.cons_append, clusterFrom, hletter, hnext.hasValue_eq, Bool.false_eq_true,
      if_false, hswitches]
    rfl

/-- An option that leaves a value to the next word stands alone, or its word goes on with letters. -/
theorem cluster_eq_pending {name last : Name} {byLetter : Bool} {attached : Option String}
    {group : Cluster} (h : cluster edition name byLetter attached = .ok group)
    (hpending : group.assigned = some (last, none)) :
    (name.hasValue = true ∧ attached = none) ∨ (name.hasValue = false ∧ byLetter = true ∧
      ∃ text, attached = some text ∧ clusterBehind edition name text.toList = .ok group) := by
  unfold cluster at h
  split at h
  · obtain rfl := Except.ok.inj h
    cases hvalue : name.hasValue with
    | true => exact .inl ⟨rfl, rfl⟩
    | false => simp [hvalue] at hpending
  · next text =>
    split at h
    · obtain rfl := Except.ok.inj h
      simp at hpending
    · next hvalue =>
      split at h
      · next hletter => exact .inr ⟨Bool.eq_false_iff.mpr hvalue, hletter, text, rfl, h⟩
      · contradiction

theorem Written.hidesFile {word text : String} {name last : Name} {byLetter : Bool}
    {group : Cluster} (hw : Written word name byLetter (some text)) (hvalue : name.hasValue = false)
    (h : cluster edition name byLetter (some text) = .ok group)
    (hpending : group.assigned = some (last, none)) (hhelp : .help ∉ group.switches) :
    HidesFile word := by
  rcases cluster_eq_pending h hpending with ⟨-, hnone⟩ | ⟨-, hletter, text', htext, hbehind⟩
  · contradiction
  · obtain rfl := Option.some.inj htext
    have hname : name ≠ .help := by
      rintro rfl
      exact hhelp (mem_of_clusterBehind hbehind)
    obtain ⟨sign, more, hsign, hmore, hletters⟩ := letters_of_clusterBehind hbehind hpending hhelp
    cases hw with
    | letters known _ spelled =>
      rw [String.toList_ofList] at hmore
      rw [hmore] at spelled
      have hfirst := Name.switch_letter known hvalue hname
      exact ⟨_, sign, more, List.forall_mem_cons.mpr ⟨hfirst, hletters⟩, hsign, spelled⟩
    | attached _ _ => contradiction

theorem markShort_attached {word : String} {letter : Char} {name : Name} {value : List Char}
    (h : Name.ofLetter? letter = some name) (hne : value ≠ []) :
    markShort word letter value = .option name true (some (String.ofList value)) := by
  obtain ⟨c, rest, rfl⟩ := List.exists_cons_of_ne_nil hne
  rw [markShort, h]
  rfl

/-- What stands behind the first letter leaves a value to the next word, or it is a mistake. -/
theorem exists_clusterBehind_file {sign more : List Char} (hsign : sign = [] ∨ sign = ['='])
    (hmore : ∀ c ∈ more, c = 'v' ∨ c = 'q') (edition : Edition) (name : Name) :
    (∃ fault, clusterBehind edition name (sign ++ (more ++ ['f'])) = .error fault) ∨
      ∃ switches, clusterBehind edition name (sign ++ (more ++ ['f'])) =
        .ok ⟨switches, some (.file, none), []⟩ := by
  have hne : more ++ ['f'] ≠ [] := List.append_ne_nil_of_right_ne_nil more (List.cons_ne_nil 'f' [])
  rcases hsign with rfl | rfl
  · have hhead : (more ++ ['f']).head? ≠ some '=' := by
      cases more with
      | nil => decide
      | cons c rest =>
        rcases hmore c List.mem_cons_self with rfl | rfl <;> simp
    rw [List.nil_append, clusterBehind_eq hne hhead]
    exact .inr (exists_clusterFrom_file hmore name)
  · cases edition with
    | earlier =>
      obtain ⟨switches, hswitches⟩ := @exists_clusterFrom_file .earlier more hmore name
      refine .inr ⟨switches, ?_⟩
      show (if more ++ ['f'] = [] then _ else clusterFrom .earlier name (more ++ ['f'])) = _
      rw [if_neg hne, hswitches]
    | later => exact .inl ⟨_, rfl⟩

theorem HidesFile.exists_mark {word : String} (h : HidesFile word) (edition : Edition) :
    ∃ name text, mark word = .ok (.option name true (some text)) ∧ name.hasValue = false ∧
      ((∃ fault, cluster edition name true (some text) = .error fault) ∨
        ∃ switches, cluster edition name true (some text) =
          .ok ⟨switches, some (.file, none), []⟩) := by
  obtain ⟨letter, sign, more, hletters, hsign, hword⟩ := h
  obtain ⟨hfirst, hmore⟩ := List.forall_mem_cons.mp hletters
  obtain ⟨name, hletter, hswitch⟩ := Name.exists_switch_of_letter hfirst
  have hne : sign ++ (more ++ ['f']) ≠ [] := by simp
  have hshort : markShort word letter (sign ++ (more ++ ['f'])) =
      .option name true (some (String.ofList (sign ++ (more ++ ['f'])))) :=
    markShort_attached hletter hne
  refine ⟨name, String.ofList (sign ++ (more ++ ['f'])), ?_, hswitch.hasValue_eq, ?_⟩
  · rw [← hshort, mark, hword]
    rcases hfirst with rfl | rfl <;> rfl
  · rw [cluster, hswitch.hasValue_eq, if_neg Bool.false_ne_true, if_pos rfl, String.toList_ofList]
    exact exists_clusterBehind_file hsign hmore edition name

/-! ## Words that are options and values -/

/-- Lists in which every word is an option or the value of the option before it. -/
inductive OptionsOnly (edition : Edition) : List String → Prop
  | nil : OptionsOnly edition []
  | alone {word : String} {name : Name} {byLetter : Bool} {attached : Option String}
      {group : Cluster} {rest : List String}
      (marked : mark word = .ok (.option name byLetter attached))
      (read : cluster edition name byLetter attached = .ok group)
      (full : ∀ last, group.assigned ≠ some (last, none)) (more : OptionsOnly edition rest) :
      OptionsOnly edition (word :: rest)
  | followed {word value : String} {name last : Name} {byLetter : Bool} {attached : Option String}
      {group : Cluster} {rest : List String}
      (marked : mark word = .ok (.option name byLetter attached))
      (read : cluster edition name byLetter attached = .ok group)
      (pending : group.assigned = some (last, none)) (unhelped : .help ∉ group.switches)
      (plain : mark value = .ok (.plain value)) (more : OptionsOnly edition rest) :
      OptionsOnly edition (word :: value :: rest)

theorem exists_marks_of_cons {word : String} {rest : List String} {read : List Mark}
    (hword : word ≠ "--") (h : marks (word :: rest) = .ok read) :
    ∃ first others, mark word = .ok first ∧ marks rest = .ok others ∧ read = first :: others := by
  cases hfirst : mark word with
  | error fault =>
    rw [marks, hfirst] at h
    simp [bind, Except.bind] at h
  | ok first =>
    have hdash : first ≠ .doubleDash := by
      rintro rfl
      exact hword (mark_eq_doubleDash hfirst)
    cases hothers : marks rest with
    | error fault =>
      rw [marks, hfirst, hothers] at h
      cases first <;> simp_all [bind, Except.bind]
    | ok others =>
      rw [marks_cons hfirst hdash hothers] at h
      exact ⟨first, others, rfl, rfl, (Except.ok.inj h).symm⟩

theorem Settings.switchAll_cons {settings after : Settings} {name : Name} {rest : List Name}
    (h : settings.switchAll (name :: rest) = .ok after) :
    ∃ next, settings.switch name = .ok next ∧ next.switchAll rest = .ok after := by
  simp only [switchAll, List.foldlM_cons] at h
  cases hs : settings.switch name with
  | error stop => simp [hs, bind, Except.bind] at h
  | ok next =>
    rw [hs] at h
    exact ⟨next, rfl, h⟩

theorem Settings.switchAll_eq_ok {settings after : Settings} {names : List Name}
    (h : settings.switchAll names = .ok after) :
    after.code = settings.code ∧ .help ∉ names := by
  induction names generalizing settings with
  | nil =>
    obtain rfl := Except.ok.inj h
    exact ⟨rfl, List.not_mem_nil⟩
  | cons name rest ih =>
    obtain ⟨next, hnext, hrest⟩ := switchAll_cons h
    obtain ⟨hcode, hhelp⟩ := ih hrest
    have hswitch : next.code = settings.code ∧ .help ≠ name := by
      cases name <;> simp only [switch, Except.ok.injEq, reduceCtorEq] at hnext <;> subst hnext <;>
        exact ⟨rfl, by decide⟩
    rw [hcode, hswitch.1]
    exact ⟨rfl, fun hmem => (List.mem_cons.mp hmem).elim hswitch.2 hhelp⟩

theorem Settings.code_assign (settings : Settings) (name : Name) (value : Value) :
    (settings.assign name value).code = settings.code := by
  cases name <;> rfl

theorem exists_left_of_leave {words : List String}
    {result : Except Stop (Settings × List String)} {after : Settings} {left : List String}
    (h : leave words result = .ok (after, left)) :
    ∃ others, result = .ok (after, others) ∧ left = words ++ others := by
  cases result with
  | error stop => contradiction
  | ok found =>
    obtain ⟨rfl, rfl⟩ := Prod.mk.inj (Except.ok.inj h)
    exact ⟨found.2, rfl, rfl⟩

theorem eq_of_leave_eq_nil {words : List String} {result : Except Stop (Settings × List String)}
    {after : Settings} (h : leave words result = .ok (after, [])) :
    words = [] ∧ result = .ok (after, []) := by
  obtain ⟨others, hothers, hnil⟩ := exists_left_of_leave h
  obtain ⟨hwords, rfl⟩ := List.append_eq_nil_iff.mp hnil.symm
  exact ⟨hwords, hothers⟩

theorem isSome_code_of_follow {wanted : Bool} {settings after : Settings} {read : List Mark}
    {left : List String} (h : follow edition wanted settings read = .ok (after, left))
    (hcode : settings.code.isSome = true) : after.code.isSome = true := by
  fun_induction follow edition wanted settings read generalizing after left with
  | case1 | case3 | case7 | case8 =>
    obtain ⟨rfl, -⟩ := Prod.mk.inj (Except.ok.inj h)
    exact hcode
  | case2 | case6 =>
    obtain ⟨rfl, -⟩ := Prod.mk.inj (Except.ok.inj h)
    rfl
  | case4 _ _ _ _ ih => exact ih h rfl
  | case5 _ _ _ _ _ _ ih =>
    obtain ⟨others, hothers, -⟩ := exists_left_of_leave h
    exact ih hothers hcode
  | case9 _ _ _ _ ih =>
    obtain ⟨others, hothers, -⟩ := exists_left_of_leave h
    exact ih hothers hcode
  | case10 | case11 | case13 | case15 | case17 => simp at h
  | case12 _ _ _ _ _ _ _ _ _ _ hswitched ih =>
    obtain ⟨others, hothers, -⟩ := exists_left_of_leave h
    rw [← (Settings.switchAll_eq_ok hswitched).1] at hcode
    exact ih hothers hcode
  | case14 _ _ _ _ _ _ _ _ _ _ _ _ hswitched ih =>
    obtain ⟨others, hothers, -⟩ := exists_left_of_leave h
    rw [← (Settings.switchAll_eq_ok hswitched).1] at hcode
    exact ih hothers (by rw [Settings.code_assign, hcode])
  | case16 _ _ _ _ _ _ _ _ _ _ _ _ hswitched ih =>
    obtain ⟨others, hothers, -⟩ := exists_left_of_leave h
    rw [← (Settings.switchAll_eq_ok hswitched).1] at hcode
    exact ih hothers (by rw [Settings.code_assign, hcode])

theorem isSome_code_of_plain {settings after : Settings} {word : String} {read : List Mark}
    {left : List String} (h : follow edition true settings (.plain word :: read) = .ok (after, left)) :
    after.code.isSome = true := by
  by_cases hdash : ∃ rest, read = .doubleDash :: rest
  · obtain ⟨rest, rfl⟩ := hdash
    rw [follow, if_pos rfl] at h
    obtain ⟨rfl, -⟩ := Prod.mk.inj (Except.ok.inj h)
    rfl
  · rw [follow, if_pos rfl] at h
    · exact isSome_code_of_follow h rfl
    · intro rest hrest
      exact hdash ⟨rest, hrest⟩

/-- Where no word is left over, reading goes on behind the word of an option, or behind the value
that the word asks for. -/
theorem follow_option {wanted : Bool} {settings after : Settings} {name : Name} {byLetter : Bool}
    {attached : Option String} {others : List Mark}
    (h : follow edition wanted settings (.option name byLetter attached :: others) = .ok (after, [])) :
    ∃ group, cluster edition name byLetter attached = .ok group ∧
      (((∀ last, group.assigned ≠ some (last, none)) ∧
          ∃ next, follow edition wanted next others = .ok (after, [])) ∨
        ∃ last word rest next, group.assigned = some (last, none) ∧ .help ∉ group.switches ∧
          others = .plain word :: rest ∧ follow edition wanted next rest = .ok (after, [])) := by
  rw [follow] at h
  split at h
  · contradiction
  · next hcluster =>
    split at h
    · contradiction
    · exact ⟨_, hcluster, .inl ⟨by simp, _, (eq_of_leave_eq_nil h).2⟩⟩
  · next hcluster =>
    split at h
    · contradiction
    · exact ⟨_, hcluster, .inl ⟨by simp, _, (eq_of_leave_eq_nil h).2⟩⟩
  · next hcluster =>
    split at h
    · split at h
      · contradiction
      · next hswitched =>
        exact ⟨_, hcluster, .inr ⟨_, _, _, _, rfl, (Settings.switchAll_eq_ok hswitched).2, rfl,
          (eq_of_leave_eq_nil h).2⟩⟩
    · contradiction

theorem optionsOnly_of_follow {words : List String} (hdash : "--" ∉ words) {read : List Mark}
    (hread : marks words = .ok read) {settings after : Settings}
    (h : follow edition true settings read = .ok (after, [])) (hcode : after.code = none) :
    OptionsOnly edition words := by
  -- an option may take two words, so the induction is on the number of words left
  induction hlength : words.length using Nat.strong_induction_on
    generalizing words read settings with
  | _ length ih =>
    cases words with
    | nil => exact .nil
    | cons word rest =>
      obtain ⟨hword, hrest⟩ := not_or.mp (mt List.mem_cons.mpr hdash)
      obtain ⟨first, others, hfirst, hothers, rfl⟩ := exists_marks_of_cons (Ne.symm hword) hread
      rw [List.length_cons] at hlength
      cases first with
      | plain other =>
        have hsome := isSome_code_of_plain h
        rw [hcode] at hsome
        contradiction
      | doubleDash => exact absurd (mark_eq_doubleDash hfirst).symm hword
      | unknown other =>
        rw [follow] at h
        exact absurd (eq_of_leave_eq_nil h).1 (List.cons_ne_nil other [])
      | option name byLetter attached =>
        obtain ⟨group, hcluster, ⟨hfull, next, hnext⟩ |
          ⟨last, plain, behind, next, hpending, hhelp, rfl, hnext⟩⟩ := follow_option h
        · exact .alone hfirst hcluster hfull (ih rest.length (by omega) hrest hothers hnext rfl)
        · cases rest with
          | nil => simp [marks] at hothers
          | cons value rest =>
            obtain ⟨hvalue, hrest⟩ := not_or.mp (mt List.mem_cons.mpr hrest)
            obtain ⟨second, others, hsecond, hothers, hbehind⟩ :=
              exists_marks_of_cons (Ne.symm hvalue) hothers
            obtain ⟨rfl, rfl⟩ := List.cons.inj hbehind
            rw [(mark_eq_plain hsecond).1] at hsecond
            rw [List.length_cons] at hlength
            exact .followed hfirst hcluster hpending hhelp hsecond
              (ih rest.length (by omega) hrest hothers hnext rfl)

/-- The options of a command are read to the end, and no text is found, only where every word is an
option or a value. -/
theorem optionsOnly_of_settings {words : List String} (hdash : "--" ∉ words) {after : Settings}
    (h : settings edition words = .ok after) (hcode : after.code = none) :
    OptionsOnly edition words := by
  unfold settings at h
  split at h
  · simp at h
  · next read hread =>
    split at h
    · simp at h
    · next hfollow =>
      obtain rfl := Except.ok.inj h
      exact optionsOnly_of_follow hdash hread hfollow hcode
    · simp at h

/-! ## Values and the search -/

/-- Each value of a file that hides behind switches looks like an option itself. -/
def HiddenLookLikeOptions (words : List String) : Prop :=
  ∀ word value, [word, value] <:+: words → HidesFile word → isOption value = true

theorem hiddenLookLikeOptions_cons {first : String} (h : ¬ HidesFile first) (rest : List String) :
    HiddenLookLikeOptions (first :: rest) ↔ HiddenLookLikeOptions rest := by
  constructor
  · intro hall word value hpair
    exact hall word value (List.infix_cons hpair)
  · intro hall word value hpair hhides
    rcases List.infix_cons_iff.mp hpair with hfront | hpair
    · obtain ⟨rfl, -⟩ := List.cons_prefix_cons.mp hfront
      contradiction
    · exact hall word value hpair hhides

theorem hiddenLookLikeOptions_cons_cons {first second : String} (h : HidesFile first)
    (rest : List String) : HiddenLookLikeOptions (first :: second :: rest) ↔
      isOption second = true ∧ HiddenLookLikeOptions (second :: rest) := by
  constructor
  · intro hall
    refine ⟨hall first second ⟨[], rest, rfl⟩ h, fun word value hpair => ?_⟩
    exact hall word value (List.infix_cons hpair)
  · rintro ⟨hsecond, hall⟩ word value hpair hhides
    rcases List.infix_cons_iff.mp hpair with hfront | hpair
    · obtain ⟨-, hfront⟩ := List.cons_prefix_cons.mp hfront
      obtain ⟨rfl, -⟩ := List.cons_prefix_cons.mp hfront
      exact hsecond
    · exact hall word value hpair hhides

theorem not_hidesFile_of_plain {word : String} (h : mark word = .ok (.plain word)) :
    ¬ HidesFile word := by
  intro hhides
  obtain ⟨name, text, hmark, -⟩ := hhides.exists_mark .later
  rw [h] at hmark
  simp at hmark

theorem not_hidesFile_of_full {word : String} {name : Name} {byLetter : Bool}
    {attached : Option String} {group : Cluster}
    (marked : mark word = .ok (.option name byLetter attached))
    (read : cluster edition name byLetter attached = .ok group)
    (full : ∀ last, group.assigned ≠ some (last, none)) : ¬ HidesFile word := by
  intro hhides
  obtain ⟨_, _, hmark, -, hcluster⟩ := hhides.exists_mark edition
  rw [marked] at hmark
  obtain ⟨rfl, rfl, rfl⟩ := Mark.option.inj (Except.ok.inj hmark)
  rw [read] at hcluster
  rcases hcluster with ⟨_, hfault⟩ | ⟨_, hpending⟩
  · contradiction
  · obtain rfl := Except.ok.inj hpending
    exact full .file rfl

theorem not_hidesFile_of_alone {word : String} {name : Name} {byLetter : Bool}
    (marked : mark word = .ok (.option name byLetter none)) : ¬ HidesFile word := by
  intro hhides
  obtain ⟨_, _, hmark, -⟩ := hhides.exists_mark .later
  rw [marked] at hmark
  simp at hmark

theorem splitCode_eq_iff_of_passed {word : String} {rest : List String}
    (h : splitCode (word :: rest) = ((splitCode rest).1, word :: (splitCode rest).2)) :
    splitCode (word :: rest) = (none, word :: rest) ↔ splitCode rest = (none, rest) := by
  rw [h, Prod.mk.injEq, List.cons.injEq, Prod.ext_iff]
  simp

/-- Where every word is an option or a value, the search passes over all of them just if the values
that it does not take for such look like options. -/
theorem OptionsOnly.splitCode_eq_iff {words : List String} (h : OptionsOnly edition words) :
    splitCode words = (none, words) ↔ HiddenLookLikeOptions words := by
  induction h with
  | nil => simp [splitCode, HiddenLookLikeOptions]
  | @alone word name byLetter attached group rest marked read full _ ih =>
    have halone : ¬ (name.hasValue = true ∧ attached = none) := by
      rintro ⟨hvalue, rfl⟩
      rw [cluster, if_pos hvalue] at read
      obtain rfl := Except.ok.inj read
      exact full name rfl
    rw [splitCode_eq_iff_of_passed (splitCode_of_mark_alone marked halone rest),
      hiddenLookLikeOptions_cons (not_hidesFile_of_full marked read full), ih]
  | @followed word value name last byLetter attached group rest marked read pending unhelped plain _
      ih =>
    have hplain := not_hidesFile_of_plain plain
    rcases cluster_eq_pending read pending with ⟨hvalue, rfl⟩ | ⟨hvalue, -, text, rfl, -⟩
    · -- the option stands alone, and the search skips its value
      rw [splitCode_of_mark_followed marked hvalue, Prod.mk.injEq, List.cons.injEq, List.cons.injEq,
        hiddenLookLikeOptions_cons (not_hidesFile_of_alone marked),
        hiddenLookLikeOptions_cons hplain, ← ih, Prod.ext_iff]
      simp
    · -- the option hides behind switches, and the search goes on at its value
      have hhides := (written_of_mark marked).hidesFile hvalue read pending unhelped
      have halone : ¬ (name.hasValue = true ∧ some text = none) := by simp
      rw [splitCode_eq_iff_of_passed (splitCode_of_mark_alone marked halone _),
        hiddenLookLikeOptions_cons_cons hhides, hiddenLookLikeOptions_cons hplain, ← ih]
      cases hoption : isOption value with
      | true =>
        rw [splitCode_eq_iff_of_passed
          (splitCode_of_option hoption (mark_eq_plain plain).2 rest)]
        simp
      | false => simp [splitCode_of_text hoption]

end

/-- Where the options of a command are read to the end and no text is found, the search passes over
all words just if the values of files that hide behind switches look like options. This is so in
both editions. -/
theorem values_passed_over_iff (edition : Edition) {words : List String} (hdash : "--" ∉ words)
    {after : Settings} (h : settings edition words = .ok after) (hcode : after.code = none) :
    splitCode words = (none, words) ↔ ∀ word value,
      [word, value] <:+: words → HidesFile word → isOption value = true :=
  (optionsOnly_of_settings hdash h hcode).splitCode_eq_iff

/-- A file behind a switch whose name looks like an option, and a file whose name is a number. -/
theorem values_passed_over_iff_looking :
    "--" ∉ ["-qf", "-a b", "--fi", "-5"] ∧
      settings .later ["-qf", "-a b", "--fi", "-5"] =
        .ok { file := some (.text "-5"), quiet := true } ∧
      (splitCode ["-qf", "-a b", "--fi", "-5"] = (none, ["-qf", "-a b", "--fi", "-5"]) ↔
        ∀ word value, [word, value] <:+: ["-qf", "-a b", "--fi", "-5"] → HidesFile word →
          isOption value = true) ∧
      splitCode ["-qf", "-a b", "--fi", "-5"] = (none, ["-qf", "-a b", "--fi", "-5"]) :=
  ⟨by decide, by rfl, values_passed_over_iff .later (by decide) (by rfl) rfl, by decide⟩

/-- The name of a file that shares its dash with a switch is taken for the program text, although
the reader of the options takes it for the value, whatever its edition. -/
theorem hidden_value_taken_for_text :
    "--" ∉ ["-vf", "x"] ∧
      (∀ edition, settings edition ["-vf", "x"] =
        .ok { file := some (.text "x"), verbose := true }) ∧
      splitCode ["-vf", "x"] = (some "x", ["-vf"]) := by
  refine ⟨by decide, fun edition => ?_, by decide⟩
  cases edition <;> rfl

end Brainfuck.Options
