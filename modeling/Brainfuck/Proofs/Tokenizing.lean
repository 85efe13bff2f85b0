import Brainfuck.Execution
import Brainfuck.Proofs.Pairing

/-!
From a source to its program.

The operators of a source are listed with their positions, and an operator that is listed stands at
its position behind as many others as its index says (`getElem?_operators_iff`). A source with
balanced operators has a program, whose tokens are the operators and whose table is the one made
for them (`paired_of_ofSource`). A source that has no program is reported by what it lacks: it has
no operators, or the bracket at the position that is named is without a partner, and it stands
there in the source (`ofSource_eq_error`).

So an execution that ends is one of three things (`Execution.end_cases`).
-/

namespace Brainfuck

/-- The jump table is the one made for the tokens. -/
def Program.Paired (program : Program) : Prop :=
  JumpTable.ofTokens program.tokens.toList = .ok program.jumps

namespace Source

theorem length_operators (source : Source) : source.operators.length = source.tokens.length := by
  rw [← map_fst_operators, List.length_map]

theorem tokens_append (front rest : Source) :
    tokens (front ++ rest) = tokens front ++ tokens rest :=
  List.filterMap_append

theorem nodup_positions (source : Source) : (source.operators.map Prod.snd).Nodup := by
  have hzip : source.zipIdx.Pairwise fun a b => a.2 ≠ b.2 := by
    rw [← List.pairwise_map, List.zipIdx_map_snd]
    exact List.nodup_range'
  rw [List.Nodup, List.pairwise_map, operators]
  apply hzip.filterMap
  intro a b hab x hx y hy
  obtain ⟨t, -, rfl⟩ := Option.map_eq_some_iff.mp hx
  obtain ⟨t', -, rfl⟩ := Option.map_eq_some_iff.mp hy
  exact hab

theorem getElem?_operators_append (front rest : Source) (t : Token) :
    (operators (front ++ t.char :: rest))[(tokens front).length]? = some (t, front.length) := by
  have hsplit : ∃ later, operators (front ++ t.char :: rest) =
      operators front ++ (t, front.length) :: later := by
    simp only [operators, List.zipIdx_append, List.zipIdx_cons, List.filterMap_append,
      Token.ofChar?_char, List.filterMap_cons, Option.map_some, Nat.zero_add]
    exact ⟨_, rfl⟩
  obtain ⟨later, hsplit⟩ := hsplit
  rw [hsplit, ← length_operators, List.getElem?_append_right (Nat.le_refl _), Nat.sub_self,
    List.getElem?_cons_zero]

/-- The operator listed with a position stands there in the source, behind as many operators as its
index says. -/
theorem getElem?_operators_iff {source : Source} {t : Token} {position index : Nat} :
    source.operators[index]? = some (t, position) ↔
      source[position]? = some t.char ∧ (tokens (source.take position)).length = index := by
  have hlisted : source[position]? = some t.char →
      source.operators[(tokens (source.take position)).length]? = some (t, position) := by
    intro hchar
    obtain ⟨hlt, hget⟩ := List.getElem?_eq_some_iff.mp hchar
    have hat := getElem?_operators_append (source.take position) (source.drop (position + 1)) t
    rw [← hget, ← List.drop_eq_getElem_cons hlt, List.take_append_drop, List.length_take_of_le
      (Nat.le_of_lt hlt)] at hat
    exact hat
  constructor
  · intro h
    obtain ⟨⟨c, p⟩, hmem, hc⟩ := List.mem_filterMap.mp (List.mem_of_getElem? h)
    obtain ⟨t', ht', heq⟩ := Option.map_eq_some_iff.mp hc
    obtain ⟨rfl, rfl⟩ := Prod.mk.inj heq
    have hchar : source[p]? = some t'.char := by
      rw [List.mem_zipIdx_iff_getElem?.mp hmem, Token.ofChar?_eq_some_iff.mp ht']
    refine ⟨hchar, ?_⟩
    -- no position is listed twice, so the two indexes are one
    have hlt : index < (source.operators.map Prod.snd).length := by
      rw [List.length_map]
      exact (List.getElem?_eq_some_iff.mp h).1
    apply ((List.getElem?_inj hlt source.nodup_positions).mp _).symm
    rw [List.getElem?_map, List.getElem?_map, h, hlisted hchar]
  · rintro ⟨hchar, rfl⟩
    exact hlisted hchar

theorem exists_position {source : Source} {t : Token} {index : Nat}
    (h : source.tokens[index]? = some t) :
    ∃ position, source.operators[index]? = some (t, position) := by
  rw [← map_fst_operators, List.getElem?_map] at h
  obtain ⟨⟨t', position⟩, hop, rfl⟩ := Option.map_eq_some_iff.mp h
  exact ⟨position, hop⟩

theorem operators_isEmpty_iff (source : Source) :
    source.operators.isEmpty = true ↔ source.tokens = [] := by
  rw [List.isEmpty_iff, ← map_fst_operators, List.map_eq_nil_iff]

end Source

namespace Program

theorem paired_of_ofSource {source : Source} {program : Program}
    (h : ofSource source = .ok program) :
    program.Paired ∧ program.tokens.toList = source.tokens := by
  simp only [ofSource, Source.map_fst_operators] at h
  split at h
  · contradiction
  · split at h
    · next jumps hj =>
      obtain rfl := Except.ok.inj h
      exact ⟨hj, rfl⟩
    · contradiction

theorem ofSource_of_no_tokens {source : Source} (h : source.tokens = []) :
    ofSource source = .error .noOperations := by
  rw [ofSource]
  exact if_pos (source.operators_isEmpty_iff.mpr h)

theorem exists_program {source : Source} (hne : source.tokens ≠ []) (h : Balanced source.tokens) :
    ∃ program, ofSource source = .ok program := by
  obtain ⟨jumps, hj⟩ := h.exists_table
  have hoperators : ¬ source.operators.isEmpty = true := by
    intro hempty
    exact hne (source.operators_isEmpty_iff.mp hempty)
  simp only [ofSource, Source.map_fst_operators, if_neg hoperators, hj]
  exact ⟨_, rfl⟩

theorem exists_unmatched {source : Source} {fault : SyntaxFault} (hne : source.tokens ≠ [])
    (h : ofSource source = .error fault) :
    ∃ (u : Unmatched) (position : Nat), fault = .unmatched u.bracket position ∧
      u.Stands source.tokens ∧
        source.operators[u.index]? = some (u.bracket.token, position) := by
  simp only [ofSource, Source.map_fst_operators] at h
  split at h
  · next hempty => exact absurd (source.operators_isEmpty_iff.mp hempty) hne
  · split at h
    · contradiction
    · next u hu =>
      have hspec := ofTokens_spec source.tokens
      rw [hu] at hspec
      obtain ⟨position, hop⟩ := Source.exists_position hspec.getElem?_eq
      refine ⟨u, position, ?_, hspec, hop⟩
      rw [← Except.error.inj h, List.getD_eq_getElem?_getD, List.getElem?_map, hop]
      rfl

/-- A source without a program has no operators, or a bracket without a partner where the report
says. -/
theorem ofSource_eq_error {source : Source} {fault : SyntaxFault}
    (h : ofSource source = .error fault) :
    (fault = .noOperations ∧ source.tokens = []) ∨
      ∃ (bracket : Bracket) (position : Nat), fault = .unmatched bracket position ∧
        source[position]? = some bracket.token.char := by
  by_cases htokens : source.tokens = []
  · rw [ofSource_of_no_tokens htokens] at h
    exact .inl ⟨(Except.error.inj h).symm, htokens⟩
  · obtain ⟨u, position, hfault, -, hop⟩ := exists_unmatched htokens h
    exact .inr ⟨u.bracket, position, hfault, (Source.getElem?_operators_iff.mp hop).1⟩

end Program

namespace Execution

theorem program_eq_ok {source : Source} {prog : Program} (h : program source = .ok prog) :
    prog.Paired ∧ prog.tokens.toList = source.tokens := by
  rw [program] at h
  split at h
  · contradiction
  · exact Program.paired_of_ofSource h

variable {σ : Type}

/-- How an execution in at most `bound` turns can have ended. -/
inductive EndCase (console : Console σ) (bound : Nat) (source : Source) (streams : σ) :
    Execution σ → Prop
  | refused {fault : SyntaxFault} (h : program source = .error fault) :
    EndCase console bound source streams ⟨some (.source fault), [], streams⟩
  | succeeded {prog : Program} {turns : Nat} {last : Machine σ} (h : program source = .ok prog)
      (run : Machine.runFor console prog bound (Machine.start streams) = .succeeded turns last) :
    EndCase console bound source streams
      ⟨none, programRecord prog :: endRecords turns last.state.tape, last.streams⟩
  | failed {prog : Program} {why : RunFault} {last : Machine σ} (h : program source = .ok prog)
      (run : Machine.runFor console prog bound (Machine.start streams) = .failed why last) :
    EndCase console bound source streams ⟨some (.run why), [programRecord prog], last.streams⟩

theorem end_cases {console : Console σ} {bound : Nat} {source : Source} {streams : σ}
    {execution : Execution σ} (h : execute? console bound source streams = some execution) :
    EndCase console bound source streams execution := by
  cases hprog : program source with
  | error fault =>
    simp only [execute?, hprog] at h
    obtain rfl := Option.some.inj h
    exact .refused hprog
  | ok prog =>
    simp only [execute?, hprog] at h
    cases hrun : Machine.runFor console prog bound (Machine.start streams) with
    | running _ =>
      rw [hrun] at h
      contradiction
    | succeeded turns last =>
      rw [hrun] at h
      obtain rfl := Option.some.inj h
      exact .succeeded hprog hrun
    | failed why last =>
      rw [hrun] at h
      obtain rfl := Option.some.inj h
      exact .failed hprog hrun

end Execution

end Brainfuck
