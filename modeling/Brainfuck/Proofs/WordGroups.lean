import Mathlib.Data.List.InsertIdx
import Brainfuck.Proofs.OptionWords

/-!
The grammar by which the program text is found.

The words of a command divide into groups and what is left over. A group is an option alone, or an
option with the word behind it as its value, whatever that word is. What is left over is nothing, an
option whose value is missing, or a list of words that begins with a text. No group begins where
another one does and ends elsewhere (`Group.append_inj`), and none begins what is left over
(`Remainder.ne_append`), so the words divide in one way only (`Divides.unique`).

The search passes over the groups (`Group.splitCode_append`) and stops at what is left over. It takes
out one word or none (`text_found_behind_groups`), and the words that stay can be told from the
answer (`TakenAt`).
-/

namespace Brainfuck.Options

/-- An option together with the words that are passed over with it. -/
inductive Group : List String → Prop
  | alone {word : String} (option : isOption word = true) (bare : takesValue word = false) :
      Group [word]
  | valued {word : String} (option : isOption word = true) (valued : takesValue word = true)
      (value : String) : Group [word, value]

/-- Words that begin with no group. -/
inductive Remainder : List String → Prop
  | nothing : Remainder []
  /-- The value of an option is missing. -/
  | valueless {word : String} (option : isOption word = true) (valued : takesValue word = true) :
      Remainder [word]
  | text {word : String} (plain : isOption word = false) (others : List String) :
      Remainder (word :: others)

structure Divides (words : List String) (groups : List (List String)) (remainder : List String) :
    Prop where
  words_eq : words = groups.flatten ++ remainder
  groups : ∀ group ∈ groups, Group group
  remainder : Remainder remainder

/-! ## One way to divide -/

section

variable {group group' rest rest' : List String}

/-- The first word of a group says how long it is. -/
theorem Group.append_inj (h : Group group) (h' : Group group') (heq : group ++ rest = group' ++ rest') :
    group = group' ∧ rest = rest' := by
  cases h with
  | alone option bare =>
    cases h' with
    | alone option' bare' =>
      obtain ⟨rfl, rfl⟩ := List.cons.inj heq
      exact ⟨rfl, rfl⟩
    | valued option' valued' value' =>
      obtain ⟨rfl, -⟩ := List.cons.inj heq
      rw [bare] at valued'
      contradiction
  | valued option valued value =>
    cases h' with
    | alone option' bare' =>
      obtain ⟨rfl, -⟩ := List.cons.inj heq
      rw [valued] at bare'
      contradiction
    | valued option' valued' value' =>
      obtain ⟨rfl, htail⟩ := List.cons.inj heq
      obtain ⟨rfl, rfl⟩ := List.cons.inj htail
      exact ⟨rfl, rfl⟩

theorem Remainder.ne_append {remainder : List String} (h : Remainder remainder) (hg : Group group) :
    remainder ≠ group ++ rest := by
  intro heq
  cases h with
  | nothing => cases hg <;> contradiction
  | valueless option valued =>
    cases hg with
    | alone option' bare =>
      obtain ⟨rfl, -⟩ := List.cons.inj heq
      rw [valued] at bare
      contradiction
    | valued option' valued' value =>
      have htail := (List.cons.inj heq).2
      contradiction
  | text plain others =>
    cases hg with
    | alone option bare =>
      obtain ⟨rfl, -⟩ := List.cons.inj heq
      rw [plain] at option
      contradiction
    | valued option valued value =>
      obtain ⟨rfl, -⟩ := List.cons.inj heq
      rw [plain] at option
      contradiction

end

section

variable {words remainder remainder' : List String} {groups groups' : List (List String)}

theorem Divides.cons {group : List String} (hg : Group group) (h : Divides words groups remainder) :
    Divides (group ++ words) (group :: groups) remainder := by
  constructor
  case words_eq => rw [h.words_eq, List.flatten_cons, List.append_assoc]
  case groups => exact List.forall_mem_cons.mpr ⟨hg, h.groups⟩
  case remainder => exact h.remainder

theorem Divides.unique (h : Divides words groups remainder) (h' : Divides words groups' remainder') :
    groups' = groups ∧ remainder' = remainder := by
  obtain ⟨rfl, hgroups, hremainder⟩ := h
  obtain ⟨heq, hgroups', hremainder'⟩ := h'
  -- group by group: where one division goes on with a group, the other does so too
  induction groups generalizing groups' with
  | nil =>
    cases groups' with
    | nil => exact ⟨rfl, heq.symm⟩
    | cons group' groups' =>
      rw [List.flatten_cons, List.append_assoc] at heq
      exact absurd heq (hremainder.ne_append (hgroups' group' List.mem_cons_self))
  | cons group groups ih =>
    obtain ⟨hgroup, hothers⟩ := List.forall_mem_cons.mp hgroups
    rw [List.flatten_cons, List.append_assoc] at heq
    cases groups' with
    | nil => exact absurd heq.symm (hremainder'.ne_append hgroup)
    | cons group' groups' =>
      obtain ⟨hgroup', hothers'⟩ := List.forall_mem_cons.mp hgroups'
      rw [List.flatten_cons, List.append_assoc] at heq
      obtain ⟨rfl, hrest⟩ := hgroup.append_inj hgroup' heq
      obtain ⟨rfl, rfl⟩ := ih hothers hrest hothers'
      exact ⟨rfl, rfl⟩

end

/-- Words can always be divided, as the search goes over them. -/
theorem exists_divides (words : List String) : ∃ groups remainder, Divides words groups remainder := by
  induction words using splitCode.induct with
  | case1 => exact ⟨[], [], rfl, List.forall_mem_nil _, .nothing⟩
  | case2 word option =>
    cases hvalue : takesValue word with
    | true => exact ⟨[], [word], rfl, List.forall_mem_nil _, .valueless option hvalue⟩
    | false => exact ⟨[[word]], [], rfl, List.forall_mem_singleton.mpr (.alone option hvalue), .nothing⟩
  | case3 word plain =>
    exact ⟨[], [word], rfl, List.forall_mem_nil _, .text (eq_false_of_ne_true plain) []⟩
  | case4 word value rest option valued code others hrest ih =>
    obtain ⟨groups, remainder, h⟩ := ih
    exact ⟨[word, value] :: groups, remainder, h.cons (.valued option valued value)⟩
  | case5 word value rest option bare code others hrest ih =>
    obtain ⟨groups, remainder, h⟩ := ih
    exact ⟨[word] :: groups, remainder, h.cons (.alone option (eq_false_of_ne_true bare))⟩
  | case6 word value rest plain =>
    exact ⟨[], word :: value :: rest, rfl, List.forall_mem_nil _,
      .text (eq_false_of_ne_true plain) (value :: rest)⟩

/-! ## What the search takes out -/

theorem Group.splitCode_append {group : List String} (h : Group group) (rest : List String) :
    splitCode (group ++ rest) = ((splitCode rest).1, group ++ (splitCode rest).2) := by
  cases h with
  | alone option bare => exact splitCode_of_option option bare rest
  | valued option valued value => exact splitCode_of_value option valued value rest

theorem splitCode_flatten_append {groups : List (List String)} (h : ∀ group ∈ groups, Group group)
    (rest : List String) : splitCode (groups.flatten ++ rest) =
      ((splitCode rest).1, groups.flatten ++ (splitCode rest).2) := by
  induction groups with
  | nil => rfl
  | cons group groups ih =>
    obtain ⟨hgroup, hgroups⟩ := List.forall_mem_cons.mp h
    calc splitCode ((group :: groups).flatten ++ rest)
        = splitCode (group ++ (groups.flatten ++ rest)) := by
          rw [List.flatten_cons, List.append_assoc]
      _ = ((splitCode (groups.flatten ++ rest)).1, group ++ (splitCode (groups.flatten ++ rest)).2) :=
          hgroup.splitCode_append _
      _ = ((splitCode rest).1, (group :: groups).flatten ++ (splitCode rest).2) := by
          rw [ih hgroups, List.flatten_cons, List.append_assoc]

theorem Divides.splitCode_eq {words remainder : List String} {groups : List (List String)}
    (h : Divides words groups remainder) :
    splitCode words = ((splitCode remainder).1, groups.flatten ++ (splitCode remainder).2) := by
  rw [h.words_eq]
  exact splitCode_flatten_append h.groups remainder

/-- An answer with the word at a place of the words taken out, and nothing else changed. -/
structure TakenAt (words : List String) (place : Nat) (code : String)
    (answer : Option String × List String) : Prop where
  code_eq : answer.1 = some code
  stands : words[place]? = some code
  others_eq : answer.2 = words.eraseIdx place
  /-- The other words keep their order and their number. -/
  sublist : answer.2.Sublist words
  length_eq : answer.2.length + 1 = words.length
  /-- Put back at its place, the text makes the words again. -/
  insert_eq : answer.2.insertIdx place code = words

theorem takenAt_eraseIdx {words : List String} {place : Nat} {code : String}
    (h : words[place]? = some code) :
    TakenAt words place code (some code, words.eraseIdx place) := by
  obtain ⟨hlt, hcode⟩ := List.getElem?_eq_some_iff.mp h
  constructor
  case code_eq => rfl
  case stands => exact h
  case others_eq => rfl
  case sublist => exact List.eraseIdx_sublist words place
  case length_eq => rw [List.length_eraseIdx_of_lt hlt, Nat.sub_add_cancel (Nat.zero_lt_of_lt hlt)]
  case insert_eq => rw [← hcode, List.insertIdx_eraseIdx_getElem hlt]

/-- The words of a command divide into groups and what is left over in just one way. The search finds
nothing and leaves the words as they are if nothing is left over, or an option without its value; it
takes out the first word left over if that is a text. -/
theorem text_found_behind_groups (words : List String) :
    ∃ groups remainder, Divides words groups remainder ∧
      (∀ groups' remainder', Divides words groups' remainder' →
        groups' = groups ∧ remainder' = remainder) ∧
      ((remainder = [] ∨ ∃ word, remainder = [word] ∧ isOption word = true ∧
          takesValue word = true) → splitCode words = (none, words)) ∧
      ∀ code others, remainder = code :: others → isOption code = false →
        splitCode words = (some code, groups.flatten ++ others) ∧
          TakenAt words groups.flatten.length code (splitCode words) := by
  obtain ⟨groups, remainder, h⟩ := exists_divides words
  refine ⟨groups, remainder, h, fun _ _ h' => h.unique h', ?_, ?_⟩
  · intro hremainder
    have hnone : splitCode remainder = (none, remainder) := by
      rcases hremainder with rfl | ⟨word, rfl, option, -⟩
      · rfl
      · simp [splitCode, option]
    rw [h.splitCode_eq, hnone, ← h.words_eq]
  · rintro code others rfl plain
    have hcode : splitCode words = (some code, groups.flatten ++ others) := by
      rw [h.splitCode_eq, splitCode_of_text plain]
    have hstands : words[groups.flatten.length]? = some code := by
      rw [h.words_eq, List.getElem?_append_right (Nat.le_refl _), Nat.sub_self]
      rfl
    have hothers : words.eraseIdx groups.flatten.length = groups.flatten ++ others := by
      rw [h.words_eq, List.eraseIdx_append_of_length_le (Nat.le_refl _), Nat.sub_self]
      rfl
    refine ⟨hcode, ?_⟩
    rw [hcode, ← hothers]
    exact takenAt_eraseIdx hstands

/-- A file and an encoding that look like a text and like an option, and a text behind them. -/
theorem text_found_behind_groups_values :
    Divides ["-v", "-f", "+.", "--enc", "--time", "--.", "-q", "x"]
        [["-v"], ["-f", "+."], ["--enc", "--time"]] ["--.", "-q", "x"] ∧
      TakenAt ["-v", "-f", "+.", "--enc", "--time", "--.", "-q", "x"] 5 "--."
        (splitCode ["-v", "-f", "+.", "--enc", "--time", "--.", "-q", "x"]) := by
  have hdivides : Divides ["-v", "-f", "+.", "--enc", "--time", "--.", "-q", "x"]
      [["-v"], ["-f", "+."], ["--enc", "--time"]] ["--.", "-q", "x"] := by
    refine ⟨rfl, ?_, .text (by decide) _⟩
    simp only [List.forall_mem_cons]
    exact ⟨.alone (by decide) (by decide), .valued (by decide) (by decide) _,
      .valued (by decide) (by decide) _, List.forall_mem_nil _⟩
  obtain ⟨groups, remainder, -, hunique, -, htext⟩ := text_found_behind_groups
    ["-v", "-f", "+.", "--enc", "--time", "--.", "-q", "x"]
  obtain ⟨rfl, rfl⟩ := hunique _ _ hdivides
  exact ⟨hdivides, (htext _ _ rfl (by decide)).2⟩

end Brainfuck.Options
