import Wyostat.Lib.Run
import Mathlib.Algebra.BigOperators.Group.List.Basic
import Mathlib.Tactic.Abel

/-! A counter whose values come back to it, in order, and replace the value it holds by then. -/
namespace Loopback
open Machine

variable {α : Type*}

/-- The value held, and the values on their way back, oldest first. -/
structure Counter (α : Type*) where
  held : α
  returning : List α

inductive Act (α : Type*) where
  | moved (d : α)
  | returned
  deriving DecidableEq, Repr

/-- How far an act is meant to move the counter. -/
def Act.shift [Zero α] : Act α → α
  | .moved d => d
  | .returned => 0

/-- The value the counter will hold once everything on its way has come back. -/
def settled (c : Counter α) : α := c.returning.getLast?.getD c.held

theorem settled_of_drained {c : Counter α} (h : c.returning = []) : settled c = c.held := by
  rw [settled, h]
  rfl

variable [AddCommGroup α]

/-- A move sends the new value out; what it is read as on its return is `back` of it. -/
def step (back : α → α) (c : Counter α) : Act α → Counter α
  | .moved d => ⟨c.held + d, c.returning ++ [back (c.held + d)]⟩
  | .returned =>
    match c.returning with
    | [] => c
    | v :: vs => ⟨v, vs⟩

/-- What a move falls short of: it starts from the value held, not from the one that is going
to settle. -/
def gap (back : α → α) (c : Counter α) : Act α → List α
  | .moved d => [settled c + d - back (c.held + d)]
  | .returned => []

def gaps (back : α → α) (c : Counter α) (acts : List (Act α)) : List α :=
  outputs (step back) (gap back) c acts

theorem settled_step (back : α → α) (c : Counter α) (a : Act α) :
    settled (step back c a) = settled c + a.shift - (gap back c a).sum := by
  cases a with
  | moved d =>
    simp only [step, settled, List.getLast?_concat, Option.getD_some, Act.shift, gap,
      List.sum_singleton]
    abel
  | returned =>
    obtain ⟨a, vs⟩ := c
    cases vs with
    | nil => simp [step, settled, Act.shift, gap]
    | cons v vs => simp [step, settled, Act.shift, gap, List.getLast?_cons]

/-- The counter settles at its initial value and all its moves, less what they fall short of. -/
theorem settled_run (back : α → α) (c : Counter α) (acts : List (Act α)) :
    settled (run (step back) c acts) =
      settled c + (acts.map Act.shift).sum - (gaps back c acts).sum := by
  induction acts generalizing c with
  | nil => simp [gaps, outputs]
  | cons a acts ih =>
    have hrest : gaps back c (a :: acts) = gap back c a ++ gaps back (step back c a) acts := rfl
    rw [run_cons, ih, settled_step, hrest, List.map_cons, List.sum_cons, List.sum_append]
    abel

/-- A move falls short of nothing when the counter holds its newest value and the value it sends
comes back unchanged. -/
def Prompt (back : α → α) (c : Counter α) (a : Act α) : Prop :=
  a = .returned ∨ settled c = c.held ∧ back (c.held + a.shift) = c.held + a.shift

instance [DecidableEq α] (back : α → α) (c : Counter α) (a : Act α) :
    Decidable (Prompt back c a) := inferInstanceAs (Decidable (_ ∨ _))

theorem gap_of_prompt {back : α → α} {c : Counter α} {a : Act α} (h : Prompt back c a) :
    (gap back c a).sum = 0 := by
  cases a with
  | moved d =>
    obtain ⟨hheld, hback⟩ := h.resolve_left (by simp)
    simp only [gap, List.sum_singleton, hheld]
    exact sub_eq_zero.mpr hback.symm
  | returned => rfl

theorem gaps_of_prompt {back : α → α} {c : Counter α} {acts : List (Act α)}
    (h : Along (step back) (Prompt back) c acts) : (gaps back c acts).sum = 0 := by
  induction acts generalizing c with
  | nil => rfl
  | cons a acts ih =>
    have hrest : gaps back c (a :: acts) = gap back c a ++ gaps back (step back c a) acts := rfl
    rw [hrest, List.sum_append, gap_of_prompt h.1, ih h.2, add_zero]

end Loopback
