import Mathlib.Data.List.Chain
import Mathlib.Logic.Function.Basic
import Mathlib.Tactic.Common

/-! Writes to digital outputs, newest first: the level an output holds, what is true
at every point between two writes, and when an output switched. -/
namespace Output

/-- A level driven on an output at a moment of logical time. -/
structure Write (π : Type*) where
  pin : π
  level : Bool
  tick : ℕ
  deriving DecidableEq, Repr

variable {π : Type*} [DecidableEq π]

/-- The level an output holds once the writes have been made; outputs start LOW. -/
def level (p : π) : List (Write π) → Bool
  | [] => false
  | w :: ws => if w.pin = p then w.level else level p ws

/-- `P` holds now and held at every earlier point between two writes. -/
def Throughout (P : List (Write π) → Prop) (ws : List (Write π)) : Prop :=
  ∀ vs, vs <:+ ws → P vs

/-- The moments at which an output changed its level, newest first. -/
def switches (p : π) : List (Write π) → List ℕ
  | [] => []
  | w :: ws =>
    if w.pin = p ∧ w.level ≠ level p ws then w.tick :: switches p ws else switches p ws

@[simp] theorem level_nil (p : π) : level p ([] : List (Write π)) = false := rfl

@[simp] theorem level_cons_self (p : π) (b : Bool) (t : ℕ) (ws : List (Write π)) :
    level p (⟨p, b, t⟩ :: ws) = b := by simp [level]

theorem level_cons_of_ne {p q : π} (h : q ≠ p) (b : Bool) (t : ℕ) (ws : List (Write π)) :
    level p (⟨q, b, t⟩ :: ws) = level p ws := by simp [level, h]

theorem level_cons (p : π) (b : Bool) (t : ℕ) (ws : List (Write π)) (q : π) :
    level q (⟨p, b, t⟩ :: ws) = Function.update (fun q => level q ws) p b q := by
  by_cases h : q = p
  · subst h
    rw [level_cons_self, Function.update_self]
  · rw [level_cons_of_ne (Ne.symm h), Function.update_of_ne h]

omit [DecidableEq π] in
theorem Throughout.now {P : List (Write π) → Prop} {ws : List (Write π)}
    (h : Throughout P ws) : P ws := h ws List.suffix_rfl

omit [DecidableEq π] in
@[simp] theorem throughout_nil {P : List (Write π) → Prop} :
    Throughout P [] ↔ P [] := by simp [Throughout]

omit [DecidableEq π] in
theorem throughout_cons {P : List (Write π) → Prop} {w : Write π} {ws : List (Write π)} :
    Throughout P (w :: ws) ↔ P (w :: ws) ∧ Throughout P ws := by
  constructor
  · intro h
    exact ⟨h.now, fun vs hvs => h vs (hvs.trans (List.suffix_cons w ws))⟩
  · rintro ⟨hw, h⟩ vs hvs
    rcases List.suffix_cons_iff.mp hvs with rfl | hvs
    · exact hw
    · exact h vs hvs

/-- Two outputs are never HIGH together. -/
def NeverBoth (p q : π) : List (Write π) → Prop :=
  Throughout fun ws => ¬ (level p ws = true ∧ level q ws = true)

theorem neverBoth_cons {p q : π} {w : Write π} {ws : List (Write π)} :
    NeverBoth p q (w :: ws) ↔
      ¬ (level p (w :: ws) = true ∧ level q (w :: ws) = true) ∧ NeverBoth p q ws :=
  throughout_cons

instance decidableNeverBoth (p q : π) : (ws : List (Write π)) → Decidable (NeverBoth p q ws)
  | [] => .isTrue (by simp [NeverBoth])
  | _ :: ws =>
    have := decidableNeverBoth p q ws
    decidable_of_iff _ neverBoth_cons.symm

theorem NeverBoth.cons_of_low {p q : π} {w : Write π} {ws : List (Write π)}
    (h : NeverBoth p q ws) (hlow : level p (w :: ws) = false ∨ level q (w :: ws) = false) :
    NeverBoth p q (w :: ws) := by
  refine neverBoth_cons.mpr ⟨?_, h⟩
  rintro ⟨hp, hq⟩
  rcases hlow with hl | hl <;> simp_all

theorem switches_cons_self (p : π) {b : Bool} (t : ℕ) {ws : List (Write π)}
    (h : b ≠ level p ws) : switches p (⟨p, b, t⟩ :: ws) = t :: switches p ws := by
  simp [switches, h]

theorem switches_cons_of_ne {p q : π} (h : q ≠ p) (b : Bool) (t : ℕ) (ws : List (Write π)) :
    switches p (⟨q, b, t⟩ :: ws) = switches p ws := by simp [switches, h]

theorem switches_ne_nil {p : π} {ws : List (Write π)} (h : level p ws = true) :
    switches p ws ≠ [] := by
  induction ws with
  | nil => cases h
  | cons w ws ih =>
    unfold switches
    split_ifs with hw
    · exact List.cons_ne_nil _ _
    · apply ih
      by_cases hpin : w.pin = p
      · rw [level, if_pos hpin] at h
        by_contra hlow
        exact hw ⟨hpin, fun heq => hlow (heq ▸ h)⟩
      · rwa [level, if_neg hpin] at h

end Output
