import Mathlib.Logic.Relation
import Brainfuck.Proofs.Observation

/-!
Processes: what moves by turns and is seen through its views.

A turn leads to a next point or to an end. The views from a point are the one it shows itself and
those from the next point (`views_of_ok`), so a turn that leaves the streams as they were does not
change them (`views_eq_of_silent`). When each turn of one process is followed by another with some
silent turns and one more, both show the same views, whether they end or not
(`views_eq_of_follows`).
-/

namespace Brainfuck

/-- A deterministic process over streams, with its turns between points. -/
structure Process (σ Point : Type) where
  streams : Point → σ
  step : Point → Except (Outcome × σ) Point

namespace Process

variable {σ Point : Type}

/-- What the process shows after so many turns. -/
def viewAfter (p : Process σ Point) : Nat → Point → View σ
  | 0, here => .running (p.streams here)
  | turns + 1, here =>
    match p.step here with
    | .ok next => p.viewAfter turns next
    | .error (outcome, streams) => .ended outcome streams

/-- All that the process shows from a point on. -/
def views (p : Process σ Point) (here : Point) : Set (View σ) :=
  Set.range fun turns => p.viewAfter turns here

theorem mem_views {p : Process σ Point} {here : Point} (turns : Nat) :
    p.viewAfter turns here ∈ p.views here :=
  ⟨turns, rfl⟩

theorem views_of_ok {p : Process σ Point} {here next : Point} (h : p.step here = .ok next) :
    p.views here = insert (.running (p.streams here)) (p.views next) := by
  ext v
  refine ⟨fun hv => ?_, fun hv => ?_⟩
  · obtain ⟨turns, rfl⟩ := hv
    cases turns with
    | zero => exact .inl rfl
    | succ turns =>
      refine .inr ⟨turns, ?_⟩
      simp only [viewAfter, h]
  · rcases hv with rfl | ⟨turns, rfl⟩
    · exact mem_views 0
    · refine ⟨turns + 1, ?_⟩
      simp only [viewAfter, h]

theorem views_of_error {p : Process σ Point} {here : Point} {outcome : Outcome} {streams : σ}
    (h : p.step here = .error (outcome, streams)) :
    p.views here = {.running (p.streams here), .ended outcome streams} := by
  ext v
  refine ⟨fun hv => ?_, fun hv => ?_⟩
  · obtain ⟨turns, rfl⟩ := hv
    cases turns with
    | zero => exact .inl rfl
    | succ turns =>
      refine .inr ?_
      simp only [viewAfter, h, Set.mem_singleton_iff]
  · rcases hv with rfl | rfl
    · exact mem_views 0
    · refine ⟨1, ?_⟩
      simp only [viewAfter, h]

theorem views_eq_of_step_eq {p : Process σ Point} {a b : Point} (hstep : p.step a = p.step b)
    (hstreams : p.streams a = p.streams b) : p.views a = p.views b := by
  have hview : ∀ turns, p.viewAfter turns a = p.viewAfter turns b := by
    intro turns
    cases turns with
    | zero => rw [viewAfter, viewAfter, hstreams]
    | succ turns => rw [viewAfter, viewAfter, hstep]
  rw [views, views, funext hview]

theorem running_mem_views (p : Process σ Point) (here : Point) :
    .running (p.streams here) ∈ p.views here :=
  mem_views 0

/-! ## Silent turns -/

/-- Some turns, perhaps none, that leave the streams as they were. -/
def Silent (p : Process σ Point) : Point → Point → Prop :=
  Relation.ReflTransGen fun a b => p.step a = .ok b ∧ p.streams b = p.streams a

theorem views_eq_of_silent {p : Process σ Point} {a b : Point} (h : p.Silent a b) :
    p.views a = p.views b := by
  induction h with
  | refl => rfl
  | @tail b c _ hbc ih =>
    obtain ⟨hstep, hstreams⟩ := hbc
    rw [ih, views_of_ok hstep, ← hstreams]
    exact Set.insert_eq_of_mem (p.running_mem_views c)

/-- Some turns, perhaps none, lead from the one point to the other. -/
def Reaches (p : Process σ Point) : Point → Point → Prop :=
  Relation.ReflTransGen fun a b => p.step a = .ok b

theorem Silent.reaches {p : Process σ Point} {a b : Point} (h : p.Silent a b) : p.Reaches a b := by
  induction h with
  | refl => exact .refl
  | tail _ hstep ih => exact ih.tail hstep.1

/-! ## Following another process -/

/-- From `b` the process `q` keeps up with the turn of `p` at `a`: after some silent turns it makes
one that leads to a related point, or to the same end. -/
def Follows {Follower : Type} (p : Process σ Point) (q : Process σ Follower)
    (related : Point → Follower → Prop) (a : Point) (b : Follower) : Prop :=
  p.streams a = q.streams b ∧ ∃ c, q.Silent b c ∧
    match p.step a with
    | .ok a' => ∃ b', q.step c = .ok b' ∧ related a' b'
    | .error ending => q.step c = .error ending

section

variable {Follower : Type} {p : Process σ Point} {q : Process σ Follower} {related : Point → Follower → Prop}
  (h : ∀ a b, related a b → Follows p q related a b)

include h

theorem viewAfter_mem_of_follows (turns : Nat) {a : Point} {b : Follower}
    (hab : Follows p q related a b) : p.viewAfter turns a ∈ q.views b := by
  induction turns generalizing a b with
  | zero =>
    obtain ⟨hstreams, -⟩ := hab
    rw [viewAfter, hstreams]
    exact q.running_mem_views b
  | succ turns ih =>
    obtain ⟨-, c, hsilent, hturn⟩ := hab
    rw [views_eq_of_silent hsilent]
    cases ha : p.step a with
    | ok a' =>
      rw [ha] at hturn
      obtain ⟨b', hc, hrel⟩ := hturn
      rw [views_of_ok hc, viewAfter, ha]
      exact .inr (ih (h a' b' hrel))
    | error ending =>
      rw [ha] at hturn
      rw [views_of_error hturn, viewAfter, ha]
      exact .inr rfl

/-- The induction is on the turns of the follower, so that its silent turns are used up one by one
while the process that is followed waits. -/
theorem viewAfter_follower_mem (turns : Nat) {a : Point} {b : Follower}
    (hab : Follows p q related a b) : q.viewAfter turns b ∈ p.views a := by
  induction turns generalizing a b with
  | zero =>
    obtain ⟨hstreams, -⟩ := hab
    rw [viewAfter, ← hstreams]
    exact p.running_mem_views a
  | succ turns ih =>
    obtain ⟨hstreams, c, hsilent, hturn⟩ := hab
    -- either the follower is to make its turn now, or there is a silent turn to be made first
    rcases Relation.ReflTransGen.cases_head hsilent with rfl | ⟨b', ⟨hstep, hkept⟩, hrest⟩
    · cases ha : p.step a with
      | ok a' =>
        rw [ha] at hturn
        obtain ⟨b', hb, hrel⟩ := hturn
        rw [views_of_ok ha, viewAfter, hb]
        exact .inr (ih (h a' b' hrel))
      | error ending =>
        rw [ha] at hturn
        rw [views_of_error ha, viewAfter, hturn]
        exact .inr rfl
    · rw [viewAfter, hstep]
      exact ih ⟨hstreams.trans hkept.symm, c, hrest, hturn⟩

/-- A process that follows another one shows the same views. -/
theorem views_eq_of_follows {a : Point} {b : Follower} (hab : related a b) :
    p.views a = q.views b := by
  apply Set.Subset.antisymm
  · apply Set.range_subset_iff.mpr
    intro turns
    exact viewAfter_mem_of_follows h turns (h a b hab)
  · apply Set.range_subset_iff.mpr
    intro turns
    exact viewAfter_follower_mem h turns (h a b hab)

end

end Process

end Brainfuck
