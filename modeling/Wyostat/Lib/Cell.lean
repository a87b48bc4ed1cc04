import Wyostat.Lib.Run
import Mathlib.Algebra.Group.Defs

/-! A value and the cell that backs it up: storing writes both, adjusting changes the value
alone and leaves the cell behind. -/
namespace Cell
open Machine

variable {β γ : Type*}

inductive Edit (β : Type*) where
  | stored (b : β)
  | adjusted (d : β)
  deriving DecidableEq, Repr

structure Backed (β γ : Type*) where
  value : β
  cell : γ

def Edit.stored? : Edit β → Option β
  | .stored b => some b
  | .adjusted _ => none

/-- What was stored last. -/
def lastStored (es : List (Edit β)) : Option β := (es.filterMap Edit.stored?).getLast?

@[simp] theorem lastStored_nil : lastStored ([] : List (Edit β)) = none := rfl

@[simp] theorem lastStored_stored (b : β) (es : List (Edit β)) :
    lastStored (.stored b :: es) = some ((lastStored es).getD b) := by
  have hstored : (Edit.stored b).stored? = some b := rfl
  rw [lastStored, List.filterMap_cons_some hstored, List.getLast?_cons]
  rfl

@[simp] theorem lastStored_adjusted (d : β) (es : List (Edit β)) :
    lastStored (.adjusted d :: es) = lastStored es := rfl

variable [AddMonoid β]

def step (encode : β → γ) (b : Backed β γ) : Edit β → Backed β γ
  | .stored v => ⟨v, encode v⟩
  | .adjusted d => { b with value := b.value + d }

/-- The adjustments made since a value was stored last. -/
def drift : List (Edit β) → β
  | [] => 0
  | .stored _ :: es => drift es
  | .adjusted d :: es => if (lastStored es).isSome then drift es else d + drift es

theorem drift_of_stored {es : List (Edit β)} (h : ∀ e ∈ es, e.stored?.isSome) :
    drift es = 0 := by
  induction es with
  | nil => rfl
  | cons e es ih =>
    have hrest : drift es = 0 := ih fun e he => h e (List.mem_cons_of_mem _ he)
    cases e with
    | stored b => exact hrest
    | adjusted d => cases h (.adjusted d) List.mem_cons_self

/-- After a run the value is the one stored last and what it drifted since, and the cell still
holds the one stored last. -/
theorem run_step (encode : β → γ) (b : Backed β γ) (es : List (Edit β)) :
    run (step encode) b es =
      ⟨(lastStored es).getD b.value + drift es, ((lastStored es).map encode).getD b.cell⟩ := by
  induction es generalizing b with
  | nil => simp [drift]
  | cons e es ih =>
    rw [run_cons, ih]
    cases e with
    | stored v => cases h : lastStored es <;> simp [step, drift, h]
    | adjusted d => cases h : lastStored es <;> simp [step, drift, h, add_assoc]

end Cell
