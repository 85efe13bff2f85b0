import Brainfuck.Proofs.EndlessTape
import Brainfuck.Proofs.Turn

/-!
A tape behaves as an endless one does, whatever is done to it.

`EndlessTape.perform` says what each operation does to an endless tape and when it is refused, with
the counts of the operations taken as they are given and all arithmetic on cells modulo 256.
`Tape.Holds` ties a tape to an endless one: the pointer is the same and on a cell that is held, the
cells held are the first ones of the endless tape, and all others are zero there.

One operation takes tapes that are tied to tapes that are tied, with the same answer or the same
refusal (`Tape.Holds.agrees`). So this is true of a tape of any size after any operations, refused
ones among them (`operations_act_endlessly`), as long as no move goes by a negative count.
-/

namespace Brainfuck

/-- Neither the count of a move nor the limit of a listing is negative. -/
def Tape.Op.Regular : Tape.Op → Prop
  | .moveRight count | .moveLeft count => 0 ≤ count
  | .snapshot (some limit) => 0 ≤ limit
  | .snapshot none | .add _ | .sub _ | .get | .set _ => True

/-! ## Operations on an endless tape -/

namespace EndlessTape

/-- The first cells. -/
def front (tape : EndlessTape) (length : Nat) : List UInt8 :=
  (List.range length).map tape.cells

/-- The byte a number is congruent to modulo 256. -/
def byteOf (value : Int) : UInt8 :=
  UInt8.ofNat (value % 256).toNat

/-- The tape after an operation, or why the operation is refused. -/
def perform (tape : EndlessTape) : Tape.Op → Except Tape.Fault EndlessTape
  | .moveRight count => .ok (tape.moveRight count.toNat)
  | .moveLeft count =>
    match tape.moveLeft? count.toNat with
    | some moved => .ok moved
    | none => .error (.negativePointer tape.pointer count)
  | .add count => .ok (tape.edit fun cell => byteOf (cell.toNat + count))
  | .sub count => .ok (tape.edit fun cell => byteOf (cell.toNat - count))
  | .set value =>
    if 0 ≤ value ∧ value < 256 then .ok (tape.edit fun _ => byteOf value)
    else .error (.notAByte value)
  | .get | .snapshot _ => .ok tape

/-- What an operation that is carried out answers. An endless tape cannot be listed to its end, so
a listing goes as far as the `held` cells and its limit allow. -/
def reply (tape : EndlessTape) (held : Nat) : Tape.Op → Tape.Reply
  | .get => .byte tape.current
  | .snapshot none => .cells (tape.front held)
  | .snapshot (some limit) => .cells (tape.front (min limit.toNat held))
  | .moveRight _ | .moveLeft _ | .add _ | .sub _ | .set _ => .done

/-- The tape after an operation, refused or not. -/
def after (tape : EndlessTape) (op : Tape.Op) : EndlessTape :=
  match tape.perform op with
  | .ok next => next
  | .error _ => tape

theorem take_front (tape : EndlessTape) (limit length : Nat) :
    (tape.front length).take limit = tape.front (min limit length) := by
  rw [front, front, ← List.map_take, List.take_range]

end EndlessTape

/-! ## Tapes that are tied -/

namespace Tape

/-- The tape holds the front part of an endless one. -/
structure Holds (tape : Tape) (whole : EndlessTape) : Prop where
  pointer_eq : tape.pointer = whole.pointer
  /-- The pointer is on a cell that is held. -/
  pointer_lt : whole.pointer < tape.size
  /-- The cells held are the first of all, and a listing with a limit shows the first of these. -/
  snapshot_all : tape.snapshot none = whole.front tape.size
  snapshot_some : ∀ limit : Nat,
    tape.snapshot (some limit) = whole.front (min limit tape.size)
  /-- The cells that are not held are zero. -/
  beyond : ∀ i, tape.size ≤ i → whole.cells i = 0

theorem front_endless (tape : Tape) : tape.endless.front tape.size = tape.cells.toList := by
  apply List.ext_getElem
  · simp [EndlessTape.front, size]
  · intro i _ hi
    simp [EndlessTape.front, endless, cellAt, Array.getElem?_eq_getElem (by simpa using hi)]

theorem Inside.holds {tape : Tape} (h : tape.Inside) : tape.Holds tape.endless where
  pointer_eq := h.pointer_eq
  pointer_lt := by
    have hlt := h.2
    rw [h.pointer_eq] at hlt
    exact Int.ofNat_lt.mp hlt
  snapshot_all := tape.front_endless.symm
  snapshot_some := by
    intro limit
    rw [← EndlessTape.take_front, front_endless, snapshot, Offset.cut_ofNat]
    apply List.take_eq_take_iff.mpr
    simp [size]
  beyond := by
    intro i hi
    simp only [endless, cellAt]
    rw [Array.getElem?_eq_none hi]
    rfl

namespace Holds

variable {tape : Tape} {whole : EndlessTape}

theorem inside (h : tape.Holds whole) : tape.Inside := by
  have hp := h.pointer_eq
  have hlt := h.pointer_lt
  constructor <;> omega

theorem endless_eq (h : tape.Holds whole) : tape.endless = whole := by
  apply EndlessTape.ext
  · have hp := h.pointer_eq
    simp [endless, hp]
  · funext i
    have hcells : tape.endless.front tape.size = whole.front tape.size := by
      rw [front_endless]
      exact h.snapshot_all
    by_cases hi : i < tape.size
    · have hat := congrArg (fun cells : List UInt8 => cells[i]?) hcells
      simpa [EndlessTape.front, hi] using hat
    · rw [h.beyond i (Nat.not_lt.mp hi), h.inside.holds.beyond i (Nat.not_lt.mp hi)]

end Holds

/-! ## Operations that are refused -/

/-- The operations that a tape refuses, with the reason it gives. -/
inductive Refuses (tape : Tape) : Op → Fault → Prop
  | moveLeft {count : Int} (few : tape.pointer < count) :
    Refuses tape (.moveLeft count) (.negativePointer tape.pointer count)
  | set {value : Int} (large : ¬ (0 ≤ value ∧ value < 256)) :
    Refuses tape (.set value) (.notAByte value)

variable {tape : Tape} {whole : EndlessTape} {op : Op}

theorem Inside.fault?_setValue (h : tape.Inside) (value : Int) :
    tape.fault? (.set value) =
      if 0 ≤ value ∧ value < 256 then none else some (.notAByte value) := by
  rw [fault?, h.cell?_isNone, if_neg Bool.false_ne_true]
  by_cases hbyte : 0 ≤ value ∧ value < 256
  · rw [if_pos hbyte, if_neg]
    simp only [modulus]
    omega
  · rw [if_neg hbyte, if_pos]
    simp only [modulus]
    omega

theorem Inside.fault?_eq_some_iff (h : tape.Inside) {fault : Fault} :
    tape.fault? op = some fault ↔ tape.Refuses op fault := by
  have hcell := h.cell?_isNone
  constructor
  · intro hf
    cases op with
    | moveLeft count =>
      simp only [fault?] at hf
      split at hf
      · next hfew =>
        obtain rfl := Option.some.inj hf
        exact .moveLeft (by omega)
      · contradiction
    | set value =>
      rw [h.fault?_setValue] at hf
      split at hf
      · contradiction
      · next hlarge =>
        obtain rfl := Option.some.inj hf
        exact .set hlarge
    | moveRight _ | add _ | sub _ | get | snapshot _ => simp [fault?, hcell] at hf
  · intro hr
    cases hr with
    | moveLeft hfew => exact if_pos (by omega)
    | set hlarge => rw [h.fault?_setValue, if_neg hlarge]

theorem perform_eq_error_iff {fault : Fault} :
    tape.perform op = .error fault ↔ tape.fault? op = some fault := by
  rw [perform]
  split
  · next fault' hf => simp [hf]
  · next hf => simp [hf]

theorem Refuses.perform_endless (h : tape.Inside) {fault : Fault} (hr : tape.Refuses op fault) :
    tape.endless.perform op = .error fault := by
  cases hr with
  | @moveLeft count hfew =>
    have hnonneg := h.1
    have hnone : tape.endless.moveLeft? count.toNat = none := by
      apply h.endless_moveLeft_eq_none
      omega
    simp only [EndlessTape.perform, hnone, ← h.pointer_eq]
  | set hlarge => simp only [EndlessTape.perform, if_neg hlarge]

/-! ## Operations that are carried out -/

/-- What an operation that is not refused does to a tape and to the endless one it is seen as. -/
structure CarriedOut (tape : Tape) (op : Op) : Prop where
  perform_endless : tape.endless.perform op = .ok (tape.apply op).endless
  reply_eq : tape.reply op = tape.endless.reply tape.size op
  inside : (tape.apply op).Inside
  size_le : tape.size ≤ (tape.apply op).size
  others : ∀ i, i ≠ tape.endless.pointer → (tape.apply op).cellAt i = tape.cellAt i

theorem Inside.carriedOut_modify (h : tape.Inside) {f : UInt8 → UInt8}
    (hp : tape.endless.perform op = .ok (tape.endless.edit f)) (ha : tape.apply op = tape.modify f)
    (hr : tape.reply op = tape.endless.reply tape.size op) : tape.CarriedOut op where
  perform_endless := by rw [hp, ha, h.endless_modify]
  reply_eq := hr
  inside := by
    rw [ha]
    exact inside_modify h f
  size_le := by
    have hsize : tape.size = (tape.apply op).size := by rw [ha, size_modify]
    exact Nat.le_of_eq hsize
  others := by
    intro i hi
    rw [ha, cellAt_modify h]
    exact if_neg hi

theorem Inside.carriedOut_look (h : tape.Inside) (hp : tape.endless.perform op = .ok tape.endless)
    (ha : tape.apply op = tape) (hr : tape.reply op = tape.endless.reply tape.size op) :
    tape.CarriedOut op where
  perform_endless := by rw [hp, ha]
  reply_eq := hr
  inside := by rwa [ha]
  size_le := by
    have hsize : tape.size = (tape.apply op).size := by rw [ha]
    exact Nat.le_of_eq hsize
  others := by
    intro i _
    rw [ha]

theorem Inside.carriedOut_moveRight (h : tape.Inside) {count : Int} (hc : 0 ≤ count) :
    tape.CarriedOut (.moveRight count) where
  perform_endless := by
    rw [EndlessTape.perform, ← h.endless_moveRight, Int.toNat_of_nonneg hc]
    rfl
  reply_eq := rfl
  inside := inside_moveRight h hc
  size_le := by
    show tape.size ≤ (tape.moveRight count).size
    rw [size_moveRight]
    simp only [growthFactor]
    split <;> omega
  others := by
    intro i _
    exact cellAt_moveRight tape count i

theorem Inside.carriedOut_moveLeft (h : tape.Inside) {count : Int} (hc : 0 ≤ count)
    (hf : tape.fault? (.moveLeft count) = none) : tape.CarriedOut (.moveLeft count) where
  perform_endless := by
    have hle : (count.toNat : Int) ≤ tape.pointer := by
      simp only [fault?] at hf
      split at hf
      · contradiction
      · omega
    simp only [EndlessTape.perform, endless_moveLeft hle, Int.toNat_of_nonneg hc]
    rfl
  reply_eq := rfl
  inside := inside_moveLeft h hc hf
  size_le := Nat.le_refl _
  others := by
    intro i _
    rfl

theorem Inside.carriedOut (h : tape.Inside) (hop : op.Regular) (hf : tape.fault? op = none) :
    tape.CarriedOut op := by
  cases op with
  | moveRight count => exact h.carriedOut_moveRight hop
  | moveLeft count => exact h.carriedOut_moveLeft hop hf
  | add count => exact h.carriedOut_modify rfl rfl rfl
  | sub count => exact h.carriedOut_modify rfl rfl rfl
  | set value =>
    have hbyte : 0 ≤ value ∧ value < 256 := by
      by_contra hlarge
      rw [h.fault?_eq_some_iff.mpr (.set hlarge)] at hf
      contradiction
    exact h.carriedOut_modify (if_pos hbyte) rfl rfl
  | get =>
    apply h.carriedOut_look rfl rfl
    simp [reply, EndlessTape.reply, h.current?_eq_endless]
  | snapshot limit =>
    apply h.carriedOut_look rfl rfl
    cases limit with
    | none => exact congrArg Reply.cells h.holds.snapshot_all
    | some limit =>
      have hlimit := h.holds.snapshot_some limit.toNat
      rw [Int.toNat_of_nonneg hop] at hlimit
      exact congrArg Reply.cells hlimit

/-! ## One operation, and many -/

/-- What an operation does to a tape it does to an endless one that the tape holds the front of. -/
structure Agrees (tape : Tape) (whole : EndlessTape) (op : Op) : Prop where
  /-- The answer is the same, and the tape left looks the same, or the refusal is the same. -/
  perform_eq : (tape.perform op).map (Prod.map id endless) =
    (whole.perform op).map fun next => (whole.reply tape.size op, next)
  /-- The tapes left are tied again. -/
  holds : (tape.after op).Holds (whole.after op)
  size_le : tape.size ≤ (tape.after op).size
  /-- Only the cell under the pointer can have changed. -/
  others : ∀ i, i ≠ whole.pointer → (tape.after op).cellAt i = tape.cellAt i
  /-- What is refused is known, and a refusal leaves the tape as it was. -/
  refused_iff : ∀ fault, tape.perform op = .error fault ↔ tape.Refuses op fault
  kept : ∀ fault, tape.perform op = .error fault → tape.after op = tape

theorem Holds.agrees (h : tape.Holds whole) (hop : op.Regular) : tape.Agrees whole op := by
  have hin := h.inside
  obtain rfl := h.endless_eq
  have hrefused : ∀ fault, tape.perform op = .error fault ↔ tape.Refuses op fault := by
    intro fault
    rw [perform_eq_error_iff, hin.fault?_eq_some_iff]
  cases hf : tape.fault? op with
  | some fault =>
    have hwhole := (hin.fault?_eq_some_iff.mp hf).perform_endless hin
    have hafter : tape.after op = tape := by simp [after, hf]
    refine ⟨?_, ?_, ?_, ?_, hrefused, fun _ _ => hafter⟩
    · rw [perform_eq_error_iff.mpr hf, hwhole]
      rfl
    · simp only [hafter, EndlessTape.after, hwhole]
      exact h
    · exact Nat.le_of_eq (congrArg size hafter.symm)
    · intro i _
      rw [hafter]
  | none =>
    have hout := hin.carriedOut hop hf
    have hperform : tape.perform op = .ok (tape.reply op, tape.apply op) := by simp [perform, hf]
    have hafter : tape.after op = tape.apply op := by simp [after, hf]
    refine ⟨?_, ?_, ?_, ?_, hrefused, ?_⟩
    · rw [hperform, hout.perform_endless, ← hout.reply_eq]
      rfl
    · simp only [hafter, EndlessTape.after, hout.perform_endless]
      exact hout.inside.holds
    · rw [hafter]
      exact hout.size_le
    · intro i hi
      rw [hafter]
      exact hout.others i hi
    · intro fault herror
      rw [hperform] at herror
      contradiction

/-- Tapes that are tied stay so, whatever is done to them. -/
theorem Holds.foldl (h : tape.Holds whole) {ops : List Op} (hops : ∀ op ∈ ops, op.Regular) :
    (ops.foldl after tape).Holds (ops.foldl EndlessTape.after whole) := by
  induction ops generalizing tape whole with
  | nil => exact h
  | cons op rest ih =>
    have hnext := (h.agrees (hops op List.mem_cons_self)).holds
    exact ih hnext fun op hop => hops op (List.mem_cons_of_mem _ hop)

/-- From a tape of any size, after any operations, the next operation does what it does to an
endless tape that began with zeros. -/
theorem operations_act_endlessly {size : Int} (hsize : 1 ≤ size) {ops : List Op}
    (hops : ∀ op ∈ ops, op.Regular) (hop : op.Regular) :
    ∃ start, ofSize? size = some start ∧ start.size = size ∧ start.Holds .blank ∧
      (ops.foldl after start).Holds (ops.foldl EndlessTape.after .blank) ∧
      (ops.foldl after start).Agrees (ops.foldl EndlessTape.after .blank) op := by
  have hnonneg : 0 ≤ size := by omega
  have hstart : (blank size.toNat).Holds .blank := by
    rw [← endless_blank size.toNat]
    exact (inside_blank (by omega)).holds
  refine ⟨blank size.toNat, if_pos hnonneg, ?_, hstart, hstart.foldl hops,
    (hstart.foldl hops).agrees hop⟩
  rw [size_blank, Int.toNat_of_nonneg hnonneg]

/-- A cell is counted down from zero, the tape grows from two cells to six, and a value and a move
are refused. -/
theorem operations_act_endlessly_refused :
    ∃ start, ofSize? 2 = some start ∧
      ([.sub 1, .moveRight 5, .set 300, .add 300].foldl after start).Agrees
        ([.sub 1, .moveRight 5, .set 300, .add 300].foldl EndlessTape.after .blank) (.moveLeft 6) ∧
      ([.sub 1, .moveRight 5, .set 300, .add 300].foldl after start).perform (.moveLeft 6) =
        .error (.negativePointer 5 6) ∧
      [.sub 1, .moveRight 5, .set 300, .add 300].foldl after start = ⟨#[255, 0, 0, 0, 0, 44], 5⟩ := by
  have hops : ∀ op ∈ [Op.sub 1, .moveRight 5, .set 300, .add 300], op.Regular := by
    simp [Op.Regular]
  have hop : (Op.moveLeft 6).Regular := by simp [Op.Regular]
  have hsize : (1 : Int) ≤ 2 := by decide
  obtain ⟨start, hstart, -, -, -, hagrees⟩ := operations_act_endlessly hsize hops hop
  refine ⟨start, hstart, hagrees, ?_⟩
  obtain rfl := Option.some.inj hstart
  exact ⟨by rfl, by rfl⟩

end Tape

end Brainfuck
