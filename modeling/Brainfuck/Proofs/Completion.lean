import Brainfuck.Proofs.Tokenizing

/-!
What the report on an unbalanced source says about the texts that could follow it.

A front part of a source can still be completed to a program when none of its own front parts has
more loop ends than loop starts (`completable_iff`). A loop end without a partner is where this is
lost: the text in front of it can be completed, and with it the text cannot. When the source can be
completed but is no program, its last loops are open, and as many loop ends as there are open loops
complete it; the loop start that is reported is the one that the first of them closes.

`Diagnosis` says this of a source, and `diagnosed_by_completions` proves it of every source that has
operators.
-/

namespace Brainfuck

/-- No front part of the tokens has more loop ends than loop starts. -/
def Viable (tokens : List Token) : Prop :=
  ∀ n, 0 ≤ depth (tokens.take n)

/-- The kind of failure that a bracket without a partner is. -/
def Bracket.kind : Bracket → Kind
  | .opening => .unmatchedStart
  | .closing => .unmatchedEnd

/-! ## Tokens that can be completed -/

theorem Balanced.viable {tokens : List Token} (h : Balanced tokens) : Viable tokens :=
  (balanced_iff_depth.mp h).1

theorem Viable.depth_nonneg {tokens : List Token} (h : Viable tokens) : 0 ≤ depth tokens := by
  have hall := h tokens.length
  rwa [List.take_length] at hall

theorem viable_append_iff {front rest : List Token} :
    Viable (front ++ rest) ↔ Viable front ∧ ∀ n, 0 ≤ depth front + depth (rest.take n) := by
  constructor
  · intro h
    constructor
    · intro n
      have hn := h (min n front.length)
      rw [List.take_append_of_le_length (Nat.min_le_right _ _)] at hn
      rwa [← List.take_take, List.take_length] at hn
    · intro n
      have hn := h (front.length + n)
      rwa [List.take_length_add_append, depth_append] at hn
  · rintro ⟨hfront, hrest⟩ n
    rw [List.take_append, depth_append]
    by_cases hn : n ≤ front.length
    · rw [Nat.sub_eq_zero_of_le hn, List.take_zero, depth_nil, Int.add_zero]
      exact hfront n
    · rw [List.take_of_length_le (Nat.le_of_not_le hn)]
      exact hrest (n - front.length)

theorem Opened.viable {front : List Token} {stack : List Nat} (h : Opened front stack) :
    Viable front := by
  induction h with
  | outside balanced => exact balanced.viable
  | @inside front body outer opened balanced ih =>
    refine viable_append_iff.mpr ⟨ih, ?_⟩
    intro n
    have hdepth := opened.depth_eq
    cases n with
    | zero => simp [hdepth]
    | succ n =>
      have hbody := balanced.viable n
      rw [List.take_succ_cons, depth_cons, depth_start]
      omega

theorem depth_replicate_end (k : Nat) : depth (List.replicate k .loopEnd) = -(k : Int) := by
  simp [depth, List.count_replicate]

/-- Loop ends complete the tokens when there are as many of them as there are open loops. -/
theorem Viable.balanced_close_iff {tokens : List Token} (h : Viable tokens) {k : Nat} :
    Balanced (tokens ++ List.replicate k .loopEnd) ↔ depth tokens = k := by
  rw [balanced_iff_depth, depth_append, depth_replicate_end]
  constructor
  · rintro ⟨-, hzero⟩
    omega
  · intro hk
    refine ⟨viable_append_iff.mpr ⟨h, ?_⟩, by omega⟩
    intro n
    rw [List.take_replicate, depth_replicate_end]
    omega

namespace Source

/-! ## Sources that can be completed -/

/-- The source writes a program. -/
def IsProgram (source : Source) : Prop :=
  ∃ prog, Program.ofSource source = .ok prog

/-- Some text behind the source makes it a program. -/
def Completable (front : Source) : Prop :=
  ∃ more : Source, IsProgram (front ++ more)

/-- The source with so many loop ends behind it. -/
def closed (source : Source) (k : Nat) : Source :=
  source ++ List.replicate k ']'

theorem isProgram_iff {source : Source} :
    source.IsProgram ↔ source.tokens ≠ [] ∧ Balanced source.tokens := by
  constructor
  · rintro ⟨prog, hprog⟩
    constructor
    · intro hnone
      rw [Program.ofSource_of_no_tokens hnone] at hprog
      contradiction
    · obtain ⟨hpaired, htokens⟩ := Program.paired_of_ofSource hprog
      rw [← htokens]
      exact (pass_of_ofTokens hpaired).balanced
  · rintro ⟨hne, hbalanced⟩
    exact Program.exists_program hne hbalanced

theorem tokens_closed (source : Source) (k : Nat) :
    (source.closed k).tokens = source.tokens ++ List.replicate k .loopEnd := by
  rw [closed, tokens_append]
  congr 1
  simp [tokens, Token.ofChar?]

theorem completable_iff {front : Source} : front.Completable ↔ Viable front.tokens := by
  constructor
  · rintro ⟨more, hprog⟩
    have hbalanced := (isProgram_iff.mp hprog).2
    rw [tokens_append] at hbalanced
    exact (viable_append_iff.mp hbalanced.viable).1
  · intro h
    -- an operator of its own makes the completed source one that has operators
    have hplus : Viable (front.tokens ++ [.increment]) := by
      refine viable_append_iff.mpr ⟨h, ?_⟩
      intro n
      have hzero := (balanced_singleton (t := .increment) (by decide) (by decide)).viable n
      have hdepth := h.depth_nonneg
      omega
    obtain ⟨k, hk⟩ := Int.eq_ofNat_of_zero_le hplus.depth_nonneg
    refine ⟨closed ['+'] k, isProgram_iff.mpr ?_⟩
    have htokens : tokens (front ++ closed ['+'] k) =
        front.tokens ++ [.increment] ++ List.replicate k .loopEnd := by
      rw [tokens_append, tokens_closed, List.append_assoc]
      rfl
    rw [htokens]
    exact ⟨by simp, hplus.balanced_close_iff.mpr hk⟩

theorem Completable.of_append {front rest : Source} (h : Completable (front ++ rest)) :
    front.Completable := by
  obtain ⟨more, hprog⟩ := h
  rw [List.append_assoc] at hprog
  exact ⟨rest ++ more, hprog⟩

theorem IsProgram.completable {source : Source} (h : source.IsProgram) : source.Completable :=
  ⟨[], by rwa [List.append_nil]⟩

theorem Completable.take_of_le {source : Source} {m n : Nat}
    (h : Completable (source.take n)) (hmn : m ≤ n) : Completable (source.take m) := by
  rw [← List.take_append_drop m (source.take n), List.take_take, Nat.min_eq_left hmn] at h
  exact h.of_append

theorem Completable.take {source : Source} (h : source.Completable) (n : Nat) :
    Completable (source.take n) := by
  rw [← List.take_append_drop n source] at h
  exact h.of_append

/-! ## Brackets of a source -/

/-- In the program of a source the loop start at one position belongs to the loop end at another. -/
def Pairs (source : Source) (prog : Program) (start stop : Nat) : Prop :=
  ∃ i j : Nat, source.operators[i]? = some (.loopStart, start) ∧
    source.operators[j]? = some (.loopEnd, stop) ∧ prog.jumps.endOf? i = some (j : Int)

/-- When loop ends are put behind the source so that it becomes a program, the first of them closes
the loop start at a position. -/
def ClosedFirst (source : Source) (position : Nat) : Prop :=
  ∃ k prog, 1 ≤ k ∧ Program.ofSource (source.closed k) = .ok prog ∧
    (source.closed k).Pairs prog position source.length

theorem Pairs.start_unique {source : Source} {prog : Program} {start start' stop : Nat}
    (hprog : Program.ofSource source = .ok prog) (h : source.Pairs prog start stop)
    (h' : source.Pairs prog start' stop) : start = start' := by
  obtain ⟨i, j, hstart, hstop, hend⟩ := h
  obtain ⟨i', j', hstart', hstop', hend'⟩ := h'
  have hj : j = j' := by
    rw [← (getElem?_operators_iff.mp hstop).2, (getElem?_operators_iff.mp hstop').2]
  have hpass := pass_of_ofTokens (Program.paired_of_ofSource hprog).1
  obtain ⟨a, b, ha, hb, hab⟩ := (hpass.closes i j).mp hend
  obtain ⟨a', b', ha', hb', hab'⟩ := (hpass.closes i' j').mp hend'
  obtain rfl : b = b' := by omega
  have haa := hab.left_unique hab'
  have hi : i = i' := by omega
  rw [hi, hstart'] at hstart
  exact (Prod.mk.inj (Option.some.inj hstart)).2.symm

theorem ClosedFirst.unique {source : Source} {k position position' : Nat}
    (honly : ∀ n, IsProgram (source.closed n) ↔ n = k) (h : source.ClosedFirst position)
    (h' : source.ClosedFirst position') : position = position' := by
  obtain ⟨n, prog, -, hprog, hpair⟩ := h
  obtain ⟨n', prog', -, hprog', hpair'⟩ := h'
  obtain rfl := (honly n).mp ⟨prog, hprog⟩
  obtain rfl := (honly n').mp ⟨prog', hprog'⟩
  obtain rfl := Except.ok.inj (hprog.symm.trans hprog')
  exact hpair.start_unique hprog hpair'

theorem getElem?_operators_of_append {source rest : Source} {t : Token} {position index : Nat}
    (h : source.operators[index]? = some (t, position)) :
    (operators (source ++ rest))[index]? = some (t, position) := by
  obtain ⟨hchar, hindex⟩ := getElem?_operators_iff.mp h
  have hlt : position < source.length := (List.getElem?_eq_some_iff.mp hchar).1
  apply getElem?_operators_iff.mpr
  rw [List.getElem?_append_left hlt, List.take_append_of_le_length (Nat.le_of_lt hlt)]
  exact ⟨hchar, hindex⟩

theorem pairs_closed {source : Source} {prog : Program} {k index position : Nat} {outer : List Nat}
    (hprog : Program.ofSource (source.closed k) = .ok prog) (hk : 1 ≤ k)
    (hopened : Opened source.tokens (index :: outer))
    (hop : source.operators[index]? = some (.loopStart, position)) :
    (source.closed k).Pairs prog position source.length := by
  obtain ⟨k, rfl⟩ := Nat.exists_eq_add_of_le' hk
  obtain ⟨hpaired, htokens⟩ := Program.paired_of_ofSource hprog
  refine ⟨index, source.tokens.length, getElem?_operators_of_append hop, ?_, ?_⟩
  · exact getElem?_operators_append source (List.replicate k ']') .loopEnd
  · apply ((pass_of_ofTokens hpaired).closes index source.tokens.length).mpr
    refine ⟨index, source.tokens.length, rfl, rfl, ?_⟩
    have hpair := hopened.pop.2.frame [] (List.replicate k .loopEnd)
    rw [htokens, tokens_closed, List.replicate_succ, List.append_cons]
    simpa using hpair

/-! ## What is reported -/

/-- The source is refused with a failure of a kind. -/
def Refused (source : Source) (kind : Kind) : Prop :=
  ∃ fault, Program.ofSource source = .error fault ∧ (fault.report source).kind = kind

/-- The source is refused with a failure of a kind, and the report names a position. -/
def Reports (source : Source) (kind : Kind) (position : Nat) : Prop :=
  ∃ fault line column context, Program.ofSource source = .error fault ∧
    (fault.report source).kind = kind ∧
    (fault.report source).detail = .loop position line column context

theorem reports_iff {source : Source} (bracket : Bracket) {position : Nat} :
    source.Reports bracket.kind position ↔
      Program.ofSource source = .error (.unmatched bracket position) := by
  constructor
  · rintro ⟨fault, line, column, context, hfault, hkind, hdetail⟩
    cases fault with
    | emptyCode => contradiction
    | noOperations => contradiction
    | unmatched bracket' position' =>
      rw [hfault]
      cases bracket <;> cases bracket' <;> first
        | contradiction
        | rw [← (Report.Detail.loop.inj hdetail).1]
  · intro h
    cases bracket <;> exact ⟨_, _, _, _, h, rfl, rfl⟩

theorem not_isProgram_of_error {source : Source} {fault : SyntaxFault}
    (h : Program.ofSource source = .error fault) : ¬ source.IsProgram := by
  rintro ⟨prog, hprog⟩
  rw [h] at hprog
  contradiction

theorem refused_iff_of_error {source : Source} {bracket : Bracket} {position : Nat} {kind : Kind}
    (h : Program.ofSource source = .error (.unmatched bracket position)) :
    source.Refused kind ↔ bracket.kind = kind := by
  constructor
  · rintro ⟨fault, hfault, hkind⟩
    obtain rfl := Except.error.inj (h.symm.trans hfault)
    rw [← hkind]
    cases bracket <;> rfl
  · intro hkind
    refine ⟨_, h, ?_⟩
    rw [← hkind]
    cases bracket <;> rfl

theorem stands_of_unmatched {source : Source} {bracket : Bracket} {position : Nat}
    (h : Program.ofSource source = .error (.unmatched bracket position)) :
    ∃ index, Unmatched.Stands source.tokens ⟨bracket, index⟩ ∧
      source.operators[index]? = some (bracket.token, position) := by
  have hne : source.tokens ≠ [] := by
    intro hnone
    rw [Program.ofSource_of_no_tokens hnone] at h
    have hfault := Except.error.inj h
    contradiction
  obtain ⟨⟨bracket', index⟩, position', hfault, hstands, hop⟩ := Program.exists_unmatched hne h
  obtain ⟨rfl, hposition⟩ := SyntaxFault.unmatched.inj hfault
  obtain rfl := Int.ofNat.inj hposition
  exact ⟨index, hstands, hop⟩

theorem lost_at_closing {source : Source} {position : Nat}
    (h : Program.ofSource source = .error (.unmatched .closing position)) :
    source[position]? = some ']' ∧ Completable (source.take position) ∧
      ¬ Completable (source.take (position + 1)) := by
  obtain ⟨index, ⟨hbalanced, hend⟩, hop⟩ := stands_of_unmatched h
  obtain ⟨hchar, hindex⟩ := getElem?_operators_iff.mp hop
  have hfront : tokens (source.take position) = source.tokens.take index := by
    have hsplit := tokens_append (source.take position) (source.drop position)
    rw [List.take_append_drop] at hsplit
    rw [hsplit, ← hindex, List.take_left]
  have hnext : tokens (source.take (position + 1)) = source.tokens.take index ++ [.loopEnd] := by
    rw [List.take_add_one, hchar, tokens_append, hfront]
    rfl
  refine ⟨hchar, ?_, ?_⟩
  · rw [completable_iff, hfront]
    exact hbalanced.viable
  · rw [completable_iff, hnext]
    intro hviable
    have hdepth := hviable.depth_nonneg
    rw [depth_append, (balanced_iff_depth.mp hbalanced).2] at hdepth
    contradiction

/-- With as many loop ends as there are open loops a source becomes a program whose first new pair
has the loop start that is reported. -/
theorem closed_at_opening {source : Source} {position : Nat}
    (h : Program.ofSource source = .error (.unmatched .opening position)) :
    source[position]? = some '[' ∧ source.Completable ∧
      (∃ k, 1 ≤ k ∧ ∀ n, IsProgram (source.closed n) ↔ n = k) ∧ source.ClosedFirst position := by
  obtain ⟨index, ⟨outer, hopened⟩, hop⟩ := stands_of_unmatched h
  have hviable := hopened.viable
  have hdepth := hopened.depth_eq
  have hne : source.tokens ≠ [] := by
    intro hnone
    have hhead := hopened.getElem?_head
    rw [hnone] at hhead
    contradiction
  have hprogram : ∀ n, IsProgram (source.closed n) ↔ n = (index :: outer).length := by
    intro n
    have hclosed : source.tokens ++ List.replicate n .loopEnd ≠ [] :=
      List.append_ne_nil_of_left_ne_nil hne _
    rw [isProgram_iff, tokens_closed, hviable.balanced_close_iff, hdepth, Int.natCast_inj]
    exact ⟨fun hn => hn.2.symm, fun hn => ⟨hclosed, hn.symm⟩⟩
  have hpositive : 1 ≤ (index :: outer).length := Nat.succ_pos _
  obtain ⟨prog, hprog⟩ := (hprogram _).mpr rfl
  exact ⟨(getElem?_operators_iff.mp hop).1, completable_iff.mpr hviable, ⟨_, hpositive, hprogram⟩,
    ⟨_, prog, hpositive, hprog, pairs_closed hprog hpositive hopened hop⟩⟩

theorem program_or_unmatched {source : Source} (hne : source.tokens ≠ []) :
    source.IsProgram ∨ ∃ (bracket : Bracket) (position : Nat),
      Program.ofSource source = .error (.unmatched bracket position) := by
  cases h : Program.ofSource source with
  | ok prog => exact .inl ⟨prog, h⟩
  | error fault =>
    obtain ⟨u, position, rfl, -⟩ := Program.exists_unmatched hne h
    exact .inr ⟨u.bracket, position, rfl⟩

/-! ## The diagnosis -/

theorem exists_reports {source : Source} (hne : source.tokens ≠ []) {kind : Kind}
    (h : source.Refused kind) : ∃ position, source.Reports kind position := by
  obtain ⟨fault, hfault, hkind⟩ := h
  obtain ⟨u, position, rfl, -⟩ := Program.exists_unmatched hne hfault
  obtain rfl := (refused_iff_of_error hfault).mp ⟨_, hfault, hkind⟩
  exact ⟨position, (reports_iff u.bracket).mpr hfault⟩

/-- What the outcome for a source says about the texts that could follow it and its front parts. -/
structure Diagnosis (source : Source) : Prop where
  /-- The source is a program or is refused for one of two reasons, and only one of these. -/
  outcome : (source.IsProgram ∧ ¬ source.Refused .unmatchedEnd ∧ ¬ source.Refused .unmatchedStart) ∨
    (¬ source.IsProgram ∧ source.Refused .unmatchedEnd ∧ ¬ source.Refused .unmatchedStart) ∨
    (¬ source.IsProgram ∧ ¬ source.Refused .unmatchedEnd ∧ source.Refused .unmatchedStart)
  /-- A refusal names a position. -/
  named : ∀ kind, source.Refused kind → ∃ position, source.Reports kind position
  /-- A loop end is reported just where the source can no longer be completed. -/
  end_iff : ∀ position, source.Reports .unmatchedEnd position ↔
    Completable (source.take position) ∧ ¬ Completable (source.take (position + 1))
  end_char : ∀ position, source.Reports .unmatchedEnd position → source[position]? = some ']'
  /-- A loop start is reported just when the source is no program but can be completed, and it is
  the one that the first loop end put behind the source closes. -/
  start_iff : source.Refused .unmatchedStart ↔ ¬ source.IsProgram ∧ source.Completable
  start_at_iff : ∀ position, source.Reports .unmatchedStart position ↔
    ¬ source.IsProgram ∧ source.Completable ∧ source.ClosedFirst position
  start_char : ∀ position, source.Reports .unmatchedStart position → source[position]? = some '['
  /-- Then loop ends complete the source, and there is only one number of them that does. -/
  start_closed : source.Refused .unmatchedStart →
    ∃ k, 1 ≤ k ∧ ∀ n, IsProgram (source.closed n) ↔ n = k

theorem outcome_unique {source : Source} (hne : source.tokens ≠ []) :
    (source.IsProgram ∧ ¬ source.Refused .unmatchedEnd ∧ ¬ source.Refused .unmatchedStart) ∨
      (¬ source.IsProgram ∧ source.Refused .unmatchedEnd ∧ ¬ source.Refused .unmatchedStart) ∨
      (¬ source.IsProgram ∧ ¬ source.Refused .unmatchedEnd ∧ source.Refused .unmatchedStart) := by
  rcases program_or_unmatched hne with hprog | ⟨bracket, position, herror⟩
  · have hnever : ∀ kind, ¬ source.Refused kind := by
      rintro kind ⟨fault, hfault, -⟩
      exact not_isProgram_of_error hfault hprog
    exact .inl ⟨hprog, hnever _, hnever _⟩
  · have hnot := not_isProgram_of_error herror
    simp only [refused_iff_of_error herror]
    cases bracket with
    | opening => exact .inr (.inr ⟨hnot, by decide, rfl⟩)
    | closing => exact .inr (.inl ⟨hnot, rfl, by decide⟩)

theorem reports_end {source : Source} (hne : source.tokens ≠ []) {position : Nat}
    (hfront : Completable (source.take position))
    (hlost : ¬ Completable (source.take (position + 1))) :
    source.Reports .unmatchedEnd position := by
  rcases program_or_unmatched hne with hprog | ⟨bracket, found, herror⟩
  · exact absurd (hprog.completable.take _) hlost
  · cases bracket with
    | opening => exact absurd ((closed_at_opening herror).2.1.take _) hlost
    | closing =>
      obtain ⟨-, hbefore, hbehind⟩ := lost_at_closing herror
      rcases Nat.lt_trichotomy position found with hlt | rfl | hgt
      · exact absurd (hbefore.take_of_le hlt) hlost
      · exact (reports_iff .closing).mpr herror
      · exact absurd (hfront.take_of_le hgt) hbehind

/-- A source that is no program but can be completed is refused for the loop start that the first
loop end behind it closes. -/
theorem reports_start {source : Source} (hne : source.tokens ≠ []) (hnot : ¬ source.IsProgram)
    (hcompletable : source.Completable) :
    ∃ position, source.Reports .unmatchedStart position ∧
      ∀ other, source.ClosedFirst other → other = position := by
  rcases program_or_unmatched hne with hprog | ⟨bracket, position, herror⟩
  · exact absurd hprog hnot
  · cases bracket with
    | closing => exact absurd (hcompletable.take _) (lost_at_closing herror).2.2
    | opening =>
      obtain ⟨-, -, ⟨k, -, honly⟩, hclosed⟩ := closed_at_opening herror
      refine ⟨position, (reports_iff .opening).mpr herror, ?_⟩
      intro other hother
      exact hother.unique honly hclosed

/-- A source that has operators is diagnosed by the texts that could follow it. -/
theorem diagnosed_by_completions {source : Source} (hne : source.tokens ≠ []) : source.Diagnosis where
  outcome := outcome_unique hne
  named kind := exists_reports hne
  end_iff position := by
    constructor
    · intro h
      exact (lost_at_closing ((reports_iff .closing).mp h)).2
    · rintro ⟨hfront, hlost⟩
      exact reports_end hne hfront hlost
  end_char position h := (lost_at_closing ((reports_iff .closing).mp h)).1
  start_iff := by
    constructor
    · intro h
      obtain ⟨position, hposition⟩ := exists_reports hne h
      have herror := (reports_iff .opening).mp hposition
      exact ⟨not_isProgram_of_error herror, (closed_at_opening herror).2.1⟩
    · rintro ⟨hnot, hcompletable⟩
      obtain ⟨position, ⟨fault, _, _, _, hfault, hkind, -⟩, -⟩ :=
        reports_start hne hnot hcompletable
      exact ⟨fault, hfault, hkind⟩
  start_at_iff position := by
    constructor
    · intro h
      have herror := (reports_iff .opening).mp h
      obtain ⟨-, hcompletable, -, hclosed⟩ := closed_at_opening herror
      exact ⟨not_isProgram_of_error herror, hcompletable, hclosed⟩
    · rintro ⟨hnot, hcompletable, hclosed⟩
      obtain ⟨found, hfound, hunique⟩ := reports_start hne hnot hcompletable
      rwa [hunique position hclosed]
  start_char position h := (closed_at_opening ((reports_iff .opening).mp h)).1
  start_closed h := by
    obtain ⟨position, hposition⟩ := exists_reports hne h
    exact (closed_at_opening ((reports_iff .opening).mp hposition)).2.2.1

/-- Two open loops with comments around them: the inner one is reported, by its position in the
text, and the first of two loop ends closes it. -/
theorem diagnosed_by_completions_open_loops :
    tokens "a[b+[c".toList ≠ [] ∧ Diagnosis "a[b+[c".toList ∧
      Reports "a[b+[c".toList .unmatchedStart 4 ∧ ClosedFirst "a[b+[c".toList 4 ∧
      IsProgram (closed "a[b+[c".toList 2) := by
  have hne : tokens "a[b+[c".toList ≠ [] := by decide
  have hdiagnosis := diagnosed_by_completions hne
  have hreports : Reports "a[b+[c".toList .unmatchedStart 4 := ⟨_, _, _, _, rfl, rfl, rfl⟩
  obtain ⟨-, -, hclosed⟩ := (hdiagnosis.start_at_iff 4).mp hreports
  exact ⟨hne, hdiagnosis, hreports, hclosed, ⟨_, rfl⟩⟩

end Source

end Brainfuck
