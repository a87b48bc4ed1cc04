import Mathlib.Order.Lattice
import Mathlib.Tactic.Common

/-! Readings that may be missing: arithmetic passes a missing operand on, and every
comparison with a missing operand is false. -/

inductive Reading (α : Type*) where
  | nan
  | num (a : α)
  deriving DecidableEq, Repr

namespace Reading

variable {α : Type*}

def map₂ (f : α → α → α) : Reading α → Reading α → Reading α
  | num a, num b => num (f a b)
  | _, _ => nan

@[simp] theorem map₂_num (f : α → α → α) (a b : α) : map₂ f (num a) (num b) = num (f a b) := rfl

@[simp] theorem map₂_nan_left (f : α → α → α) (y : Reading α) : map₂ f nan y = nan := rfl

@[simp] theorem map₂_nan_right (f : α → α → α) (x : Reading α) : map₂ f x nan = nan := by
  cases x <;> rfl

theorem map₂_eq_nan_iff {f : α → α → α} {x y : Reading α} :
    map₂ f x y = nan ↔ x = nan ∨ y = nan := by
  cases x <;> cases y <;> simp

section Comparisons
variable [LinearOrder α]

def Below (x : Reading α) (c : α) : Prop :=
  match x with
  | nan => False
  | num a => a < c

def Above (x : Reading α) (c : α) : Prop :=
  match x with
  | nan => False
  | num a => c < a

def AtMost (x : Reading α) (c : α) : Prop :=
  match x with
  | nan => False
  | num a => a ≤ c

def AtLeast (x : Reading α) (c : α) : Prop :=
  match x with
  | nan => False
  | num a => c ≤ a

instance (x : Reading α) (c : α) : Decidable (x.Below c) :=
  match x with
  | nan => inferInstanceAs (Decidable False)
  | num a => inferInstanceAs (Decidable (a < c))

instance (x : Reading α) (c : α) : Decidable (x.Above c) :=
  match x with
  | nan => inferInstanceAs (Decidable False)
  | num a => inferInstanceAs (Decidable (c < a))

instance (x : Reading α) (c : α) : Decidable (x.AtMost c) :=
  match x with
  | nan => inferInstanceAs (Decidable False)
  | num a => inferInstanceAs (Decidable (a ≤ c))

instance (x : Reading α) (c : α) : Decidable (x.AtLeast c) :=
  match x with
  | nan => inferInstanceAs (Decidable False)
  | num a => inferInstanceAs (Decidable (c ≤ a))

@[simp] theorem not_below_nan (c : α) : ¬ (nan : Reading α).Below c := id
@[simp] theorem not_above_nan (c : α) : ¬ (nan : Reading α).Above c := id
@[simp] theorem not_atMost_nan (c : α) : ¬ (nan : Reading α).AtMost c := id
@[simp] theorem not_atLeast_nan (c : α) : ¬ (nan : Reading α).AtLeast c := id
@[simp] theorem below_num {a c : α} : (num a).Below c ↔ a < c := Iff.rfl
@[simp] theorem above_num {a c : α} : (num a).Above c ↔ c < a := Iff.rfl
@[simp] theorem atMost_num {a c : α} : (num a).AtMost c ↔ a ≤ c := Iff.rfl
@[simp] theorem atLeast_num {a c : α} : (num a).AtLeast c ↔ c ≤ a := Iff.rfl

variable {x : Reading α} {c : α}

theorem Below.exists_num (h : x.Below c) : ∃ a < c, x = num a := by
  cases x with
  | nan => exact h.elim
  | num a => exact ⟨a, h, rfl⟩

theorem Above.exists_num (h : x.Above c) : ∃ a > c, x = num a := by
  cases x with
  | nan => exact h.elim
  | num a => exact ⟨a, h, rfl⟩

theorem AtMost.exists_num (h : x.AtMost c) : ∃ a ≤ c, x = num a := by
  cases x with
  | nan => exact h.elim
  | num a => exact ⟨a, h, rfl⟩

theorem AtLeast.exists_num (h : x.AtLeast c) : ∃ a ≥ c, x = num a := by
  cases x with
  | nan => exact h.elim
  | num a => exact ⟨a, h, rfl⟩

theorem Below.atMost (h : x.Below c) : x.AtMost c := by
  obtain ⟨a, ha, rfl⟩ := h.exists_num
  exact ha.le

theorem Above.atLeast (h : x.Above c) : x.AtLeast c := by
  obtain ⟨a, ha, rfl⟩ := h.exists_num
  exact le_of_lt ha

theorem Below.not_above {d : α} (h : x.Below c) (hcd : c ≤ d) : ¬ x.Above d := by
  obtain ⟨a, ha, rfl⟩ := h.exists_num
  exact not_lt.mpr (ha.le.trans hcd)

end Comparisons

end Reading
