import Brainfuck.Proofs.EndlessTape
import Brainfuck.Proofs.Pairing
import Brainfuck.Proofs.Process

/-!
The plain machine: one operator a turn, on a tape without an end, with no table.

The plain machine says what the language means. It moves by one cell and changes a cell by one, and
at a bracket whose jump is taken it looks for the partner by going through the tokens, forwards or
backwards, and counting the brackets that open and close on the way (`scan`). From a bracket of a
pair it finds the other one (`Matches.closeOf?_eq`, `Matches.openOf?_eq`). A stretch of equal
operators takes the machine silently to its end (`silent_stretch`).
-/

namespace Brainfuck

/-! ## Looking for the partner of a bracket -/

/-- How many tokens stand in front of the bracket `leave` that closes a bracket in front of them,
when `depth` brackets `enter` are open besides. -/
def scan (enter leave : Token) : Nat → List Token → Option Nat
  | _, [] => none
  | depth, t :: rest =>
    if t = leave then
      match depth with
      | 0 => some 0
      | depth + 1 => (scan enter leave depth rest).map (· + 1)
    else if t = enter then (scan enter leave (depth + 1) rest).map (· + 1)
    else (scan enter leave depth rest).map (· + 1)

/-- The index of the loop end that belongs to the loop start at `i`. -/
def closeOf? (tokens : List Token) (i : Nat) : Option Nat :=
  (scan .loopStart .loopEnd 0 (tokens.drop (i + 1))).map (i + 1 + ·)

/-- The index of the loop start that belongs to the loop end at `j`. -/
def openOf? (tokens : List Token) (j : Nat) : Option Nat :=
  (scan .loopEnd .loopStart 0 (tokens.take j).reverse).map (j - 1 - ·)

section

variable {enter leave : Token} {depth : Nat} {rest : List Token}

theorem scan_found : scan enter leave 0 (leave :: rest) = some 0 := by
  simp [scan]

theorem scan_leave :
    scan enter leave (depth + 1) (leave :: rest) = (scan enter leave depth rest).map (· + 1) := by
  simp [scan]

theorem scan_enter (h : enter ≠ leave) :
    scan enter leave depth (enter :: rest) = (scan enter leave (depth + 1) rest).map (· + 1) := by
  cases depth <;> simp [scan, h]

theorem scan_other {t : Token} (hl : t ≠ leave) (he : t ≠ enter) :
    scan enter leave depth (t :: rest) = (scan enter leave depth rest).map (· + 1) := by
  cases depth <;> simp [scan, hl, he]

theorem scan_append (hne : enter ≠ leave) (stretch : List Token) {depth' : Nat}
    (hle : ∀ n, (stretch.take n).count leave ≤ depth + (stretch.take n).count enter)
    (hdepth : depth' + stretch.count leave = depth + stretch.count enter) :
    scan enter leave depth (stretch ++ rest) =
      (scan enter leave depth' rest).map (· + stretch.length) := by
  induction stretch generalizing depth with
  | nil =>
    obtain rfl : depth' = depth := hdepth
    simp
  | cons t stretch ih =>
    have htail : ∀ n, (t :: stretch.take n).count leave ≤ depth + (t :: stretch.take n).count enter :=
      fun n => hle (n + 1)
    have hmap : ((scan enter leave depth' rest).map (· + stretch.length)).map (· + 1) =
        (scan enter leave depth' rest).map (· + (t :: stretch).length) := by
      rw [Option.map_map]
      rfl
    rw [List.cons_append, ← hmap]
    by_cases hl : t = leave
    · subst hl
      simp only [List.count_cons_self, List.count_cons_of_ne (Ne.symm hne)] at htail hdepth
      cases depth with
      | zero =>
        -- a bracket that closes while none is open would be one too many
        have := htail 0
        simp at this
      | succ depth =>
        rw [scan_leave, ih (fun n => by have := htail n; omega) (by omega)]
    · by_cases he : t = enter
      · subst he
        simp only [List.count_cons_self, List.count_cons_of_ne hne] at htail hdepth
        rw [scan_enter hne, ih (fun n => by have := htail n; omega) (by omega)]
      · simp only [List.count_cons_of_ne hl, List.count_cons_of_ne he] at htail hdepth
        rw [scan_other hl he, ih htail hdepth]

end

theorem Matches.closeOf?_eq {tokens : List Token} {i j : Nat} (h : Matches tokens i j) :
    closeOf? tokens i = some j := by
  have hlt := h.lt
  have hle : ∀ n, ((between tokens i j).take n).count .loopEnd ≤
      0 + ((between tokens i j).take n).count .loopStart := by
    intro n
    rw [Nat.zero_add]
    exact h.balanced.count_take_le n
  have hcount : 0 + (between tokens i j).count .loopEnd = 0 + (between tokens i j).count .loopStart := by
    rw [h.balanced.count_eq]
  rw [closeOf?, h.drop_eq, scan_append (by decide) _ hle hcount, scan_found, h.length_between,
    Option.map_some, Option.map_some]
  congr 1
  omega

theorem Matches.openOf?_eq {tokens : List Token} {i j : Nat} (h : Matches tokens i j) :
    openOf? tokens j = some i := by
  have hlt := h.lt
  -- read backwards, a balanced stretch never has more loop starts than loop ends
  have hle : ∀ n, ((between tokens i j).reverse.take n).count .loopStart ≤
      0 + ((between tokens i j).reverse.take n).count .loopEnd := by
    intro n
    rw [List.take_reverse, List.count_reverse, List.count_reverse]
    have hfront := h.balanced.count_take_le ((between tokens i j).length - n)
    have htotal := h.balanced.count_eq
    have hstarts := congrArg (List.count .loopStart)
      (List.take_append_drop ((between tokens i j).length - n) (between tokens i j))
    have hends := congrArg (List.count .loopEnd)
      (List.take_append_drop ((between tokens i j).length - n) (between tokens i j))
    rw [List.count_append] at hstarts hends
    omega
  have hcount : 0 + (between tokens i j).reverse.count .loopStart =
      0 + (between tokens i j).reverse.count .loopEnd := by
    rw [List.count_reverse, List.count_reverse, h.balanced.count_eq]
  have hsplit : (tokens.take j).reverse =
      (between tokens i j).reverse ++ .loopStart :: (tokens.take i).reverse := by
    rw [h.take_eq, List.reverse_append, List.reverse_cons, List.append_assoc, List.singleton_append]
  rw [openOf?, hsplit, scan_append (by decide) _ hle hcount, scan_found, List.length_reverse,
    h.length_between, Option.map_some, Option.map_some]
  congr 1
  omega

/-! ## The machine -/

/-- Whether equal operators of this kind that follow one another can be applied at once: the
operator moves the pointer or changes a cell by one. -/
def Token.isBatched : Token → Bool
  | .right | .left | .increment | .decrement => true
  | .loopStart | .loopEnd | .input | .output => false

/-- Where the plain machine stands: at an index of the tokens, with a tape and streams. -/
structure Plain (σ : Type) where
  index : Nat
  tape : EndlessTape
  streams : σ

namespace Plain

variable {σ : Type}

/-- The tape after one operator that moves the pointer or changes a cell; `none` if it is refused.
The other operators leave the tape as it is. -/
def act? : Token → EndlessTape → Option EndlessTape
  | .right, tape => some (tape.moveRight 1)
  | .left, tape => tape.moveLeft? 1
  | .increment, tape => some (tape.edit (· + 1))
  | .decrement, tape => some (tape.edit (· - 1))
  | _, tape => some tape

/-- The turn at a bracket whose jump is taken: the machine goes on behind the partner. -/
def jump (here : Plain σ) (partner : Option Nat) : Except (Outcome × σ) (Plain σ) :=
  match partner with
  | some index => .ok { here with index := index + 1 }
  | none => .error (.broken, here.streams)

/-- One turn: one operator. -/
def step (console : Console σ) (tokens : List Token) (here : Plain σ) :
    Except (Outcome × σ) (Plain σ) :=
  match tokens[here.index]? with
  | none => .error (.success here.tape.pointer here.tape.cells, here.streams)
  | some .loopStart =>
    if here.tape.current = 0 then here.jump (closeOf? tokens here.index)
    else .ok { here with index := here.index + 1 }
  | some .loopEnd =>
    if here.tape.current = 0 then .ok { here with index := here.index + 1 }
    else here.jump (openOf? tokens here.index)
  | some .input =>
    match console.read here.streams with
    | (.error cause, streams) => .error ((RunFault.ofRead cause).outcome, streams)
    | (.ok answer, streams) =>
      .ok ⟨here.index + 1, here.tape.edit fun _ => Console.byteOf answer, streams⟩
  | some .output =>
    match console.write here.tape.current here.streams with
    | (.error cause, streams) => .error ((RunFault.ofWrite cause).outcome, streams)
    | (.ok (), streams) => .ok ⟨here.index + 1, here.tape, streams⟩
  | some token =>
    match act? token here.tape with
    | some tape => .ok ⟨here.index + 1, tape, here.streams⟩
    | none => .error (.negativePointer, here.streams)

/-- The plain machine on a token sequence. -/
def process (console : Console σ) (tokens : List Token) : Process σ (Plain σ) where
  streams := Plain.streams
  step := step console tokens

/-- The start of a run. -/
def start (streams : σ) : Plain σ :=
  ⟨0, .blank, streams⟩

/-! ## The same turn elsewhere -/

/-- The same place with its index changed. -/
def reindex (f : Nat → Nat) (here : Plain σ) : Plain σ :=
  { here with index := f here.index }

/-- A turn is the same in another sequence, where the same operator stands and, if it is a bracket,
its partner goes on to the same place. -/
theorem step_reindexed (console : Console σ) {tokens tokens' : List Token} {i i' : Nat}
    (f : Nat → Nat) (hget : tokens'[i']? = tokens[i]?) (hnext : i' + 1 = f (i + 1))
    (hclose : tokens[i]? = some .loopStart →
      ∃ j j', Matches tokens i j ∧ Matches tokens' i' j' ∧ j' + 1 = f (j + 1))
    (hopen : tokens[i]? = some .loopEnd →
      ∃ j j', Matches tokens j i ∧ Matches tokens' j' i' ∧ j' + 1 = f (j + 1))
    (tape : EndlessTape) (streams : σ) :
    step console tokens' ⟨i', tape, streams⟩ =
      (step console tokens ⟨i, tape, streams⟩).map (reindex f) := by
  cases ht : tokens[i]? with
  | none =>
    rw [ht] at hget
    simp only [step, ht, hget]
    rfl
  | some t =>
    rw [ht] at hget
    cases t with
    | loopStart =>
      obtain ⟨j, j', hj, hj', hpartner⟩ := hclose ht
      simp only [step, ht, hget, hj.closeOf?_eq, hj'.closeOf?_eq, jump, hnext, hpartner]
      split <;> rfl
    | loopEnd =>
      obtain ⟨j, j', hj, hj', hpartner⟩ := hopen ht
      simp only [step, ht, hget, hj.openOf?_eq, hj'.openOf?_eq, jump, hnext, hpartner]
      split <;> rfl
    | input =>
      simp only [step, ht, hget, hnext]
      rcases console.read streams with ⟨cause | answer, after⟩ <;> rfl
    | output =>
      simp only [step, ht, hget, hnext]
      rcases console.write tape.current streams with ⟨cause | _, after⟩ <;> rfl
    | left =>
      simp only [step, ht, hget, act?, hnext]
      cases tape.moveLeft? 1 <;> rfl
    | right | increment | decrement =>
      simp only [step, ht, hget, act?, hnext]
      rfl

/-! ## Stretches of equal operators -/

/-- The tape after `count` equal operators. -/
def actMany? (token : Token) : Nat → EndlessTape → Option EndlessTape
  | 0, tape => some tape
  | count + 1, tape => (actMany? token count tape).bind (act? token)

theorem actMany?_right (count : Nat) (tape : EndlessTape) :
    actMany? .right count tape = some (tape.moveRight count) := by
  induction count with
  | zero => rfl
  | succ count ih =>
    rw [actMany?, ih, Option.bind_some, act?, EndlessTape.moveRight_moveRight]

theorem actMany?_left (count : Nat) (tape : EndlessTape) :
    actMany? .left count tape = tape.moveLeft? count := by
  induction count with
  | zero => rw [actMany?, EndlessTape.moveLeft?_zero]
  | succ count ih =>
    rw [actMany?, ih, EndlessTape.moveLeft?_add]
    rfl

theorem actMany?_increment (count : Nat) (tape : EndlessTape) :
    actMany? .increment count tape = some (tape.edit (· + UInt8.ofNat count)) := by
  induction count with
  | zero =>
    have hzero : (fun cell : UInt8 => cell + UInt8.ofNat 0) = id := funext UInt8.add_zero
    rw [actMany?, hzero, EndlessTape.edit_id]
  | succ count ih =>
    rw [actMany?, ih, Option.bind_some, act?, EndlessTape.edit_edit]
    congr 2
    funext cell
    rw [Function.comp_apply, UInt8.ofNat_add, ← UInt8.add_assoc]
    rfl

theorem actMany?_decrement (count : Nat) (tape : EndlessTape) :
    actMany? .decrement count tape = some (tape.edit (· - UInt8.ofNat count)) := by
  induction count with
  | zero =>
    have hzero : (fun cell : UInt8 => cell - UInt8.ofNat 0) = id := funext UInt8.sub_zero
    rw [actMany?, hzero, EndlessTape.edit_id]
  | succ count ih =>
    rw [actMany?, ih, Option.bind_some, act?, EndlessTape.edit_edit]
    congr 2
    funext cell
    rw [Function.comp_apply, UInt8.ofNat_add, UInt8.sub_eq_iff_eq_add, UInt8.sub_eq_iff_eq_add,
      UInt8.add_assoc, UInt8.add_comm 1]
    exact (UInt8.sub_add_cancel cell _).symm

theorem step_of_isBatched (console : Console σ) {tokens : List Token} {t : Token}
    (ht : t.isBatched = true) (here : Plain σ) (h : tokens[here.index]? = some t) :
    step console tokens here =
      match act? t here.tape with
      | some tape => .ok ⟨here.index + 1, tape, here.streams⟩
      | none => .error (.negativePointer, here.streams) := by
  rw [step, h]
  cases t <;> first | contradiction | rfl

/-- A stretch of equal moves or edits is passed silently. -/
theorem silent_stretch (console : Console σ) {tokens : List Token} {t : Token}
    (ht : t.isBatched = true) {i count : Nat} (h : ∀ k, k < count → tokens[i + k]? = some t)
    {tape tape' : EndlessTape} (ha : actMany? t count tape = some tape') (streams : σ) :
    (process console tokens).Silent ⟨i, tape, streams⟩ ⟨i + count, tape', streams⟩ := by
  induction count generalizing tape' with
  | zero =>
    obtain rfl : tape = tape' := Option.some.inj ha
    exact .refl
  | succ count ih =>
    obtain ⟨between, hfront, hlast⟩ := Option.bind_eq_some_iff.mp ha
    refine .tail (ih (fun k hk => h k (Nat.lt_succ_of_lt hk)) hfront) ⟨?_, rfl⟩
    have hstep := step_of_isBatched console ht ⟨i + count, between, streams⟩
      (h count (Nat.lt_succ_self count))
    rw [hlast] at hstep
    exact hstep

theorem stretch_step (console : Console σ) {tokens : List Token} {t : Token}
    (ht : t.isBatched = true) {i count : Nat} (hpos : 0 < count)
    (h : ∀ k, k < count → tokens[i + k]? = some t) {tape tape' : EndlessTape}
    (ha : actMany? t count tape = some tape') (streams : σ) :
    ∃ c, (process console tokens).Silent ⟨i, tape, streams⟩ c ∧
      step console tokens c = .ok ⟨i + count, tape', streams⟩ := by
  obtain ⟨count, rfl⟩ := Nat.exists_eq_succ_of_ne_zero (Nat.ne_of_gt hpos)
  obtain ⟨between, hfront, hlast⟩ := Option.bind_eq_some_iff.mp ha
  refine ⟨⟨i + count, between, streams⟩,
    silent_stretch console ht (fun k hk => h k (Nat.lt_succ_of_lt hk)) hfront streams, ?_⟩
  rw [step_of_isBatched console ht _ (h count (Nat.lt_succ_self count)), hlast]
  rfl

/-- A stretch that is refused is refused at one of its operators, after silent turns. -/
theorem stretch_refused (console : Console σ) {tokens : List Token} {t : Token}
    (ht : t.isBatched = true) {i count : Nat} (h : ∀ k, k < count → tokens[i + k]? = some t)
    {tape : EndlessTape} (ha : actMany? t count tape = none) (streams : σ) :
    ∃ c, (process console tokens).Silent ⟨i, tape, streams⟩ c ∧
      step console tokens c = .error (.negativePointer, streams) := by
  induction count with
  | zero => contradiction
  | succ count ih =>
    have hfirst : ∀ k, k < count → tokens[i + k]? = some t :=
      fun k hk => h k (Nat.lt_succ_of_lt hk)
    -- the stretch is refused before its last operator, or there
    cases hfront : actMany? t count tape with
    | none => exact ih hfirst hfront
    | some between =>
      rw [actMany?, hfront, Option.bind_some] at ha
      refine ⟨⟨i + count, between, streams⟩,
        silent_stretch console ht hfirst hfront streams, ?_⟩
      rw [step_of_isBatched console ht _ (h count (Nat.lt_succ_self count)), ha]

end Plain

end Brainfuck
