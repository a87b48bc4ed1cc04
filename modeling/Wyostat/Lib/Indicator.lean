import Mathlib.Logic.Function.Basic
import Mathlib.Tactic.Common

/-! Devices that share one indicator: each draws its sign when it is switched on and clears the
indicator when it is switched off, without a look at the others. -/
namespace Indicator

variable {δ ι : Type*}

/-- Which devices are on, the signs shown, and whether a device has been switched yet. -/
@[ext]
structure Panel (δ ι : Type*) where
  on : δ → Bool
  shown : List ι
  used : Bool

variable (sign : δ → ι)

/-- The sign of a device that is on alone is shown, and none when all are off. -/
structure Fits (p : Panel δ ι) : Prop where
  alone : ∀ d, p.on d = true → (∀ e, e ≠ d → p.on e = false) → p.shown = [sign d]
  off : (∀ d, p.on d = false) → p.shown = []

/-- The indicator fits from the first switch on. -/
structure Sound (p : Panel δ ι) : Prop where
  unused : p.used = false → ∀ d, p.on d = false
  fits : p.used = true → Fits sign p

variable [DecidableEq δ]

/-- A device that is set to the state it is in draws nothing. -/
def switch (d : δ) (b : Bool) (p : Panel δ ι) : Panel δ ι :=
  if b = p.on d then p else ⟨Function.update p.on d b, if b then [sign d] else [], true⟩

section Switches
variable (d : δ) (b : Bool) (p : Panel δ ι)

theorem switch_self : switch sign d (p.on d) p = p := if_pos rfl

variable {b p}

theorem switch_of_ne (h : b ≠ p.on d) :
    switch sign d b p = ⟨Function.update p.on d b, if b then [sign d] else [], true⟩ := if_neg h

variable {sign d} in
theorem eq_switch {q : Panel δ ι} (h : b ≠ p.on d) (hd : q.on d = b)
    (he : ∀ e, e ≠ d → q.on e = p.on e) (hshown : q.shown = if b then [sign d] else [])
    (hused : q.used = true) : q = switch sign d b p := by
  rw [switch_of_ne sign d h]
  refine Panel.ext (funext fun e => ?_) hshown hused
  by_cases hed : e = d
  · rw [hed, hd]
    exact (Function.update_self d b p.on).symm
  · rw [he e hed]
    exact (Function.update_of_ne hed b p.on).symm

variable (b p)

theorem switch_on : (switch sign d b p).on = Function.update p.on d b := by
  by_cases h : b = p.on d
  · rw [h, switch_self, Function.update_eq_self]
  · rw [switch_of_ne sign d h]

@[simp] theorem switch_on_self : (switch sign d b p).on d = b := by
  rw [switch_on, Function.update_self]

variable {d} in
theorem switch_on_of_ne {e : δ} (h : e ≠ d) : (switch sign d b p).on e = p.on e := by
  rw [switch_on, Function.update_of_ne h]

variable {sign d b p} in
theorem used_of_switch (h : (switch sign d b p).used = false) : p.used = false := by
  unfold switch at h
  split_ifs at h
  exact h

end Switches

section Pair
variable {sign} {d e : δ} {p : Panel δ ι} {b c : Bool}

theorem sound_switch_iff (hde : d ≠ e) (hall : ∀ x, x = d ∨ x = e) (h : b ≠ p.on d) :
    Sound sign (switch sign d b p) ↔ (p.on e = true → b = true) := by
  have hd : (switch sign d b p).on d = b := switch_on_self ..
  have he : (switch sign d b p).on e = p.on e := switch_on_of_ne _ _ _ hde.symm
  have hshown : (switch sign d b p).shown = if b then [sign d] else [] := by
    rw [switch_of_ne sign d h]
  have hused : (switch sign d b p).used = true := by rw [switch_of_ne sign d h]
  generalize switch sign d b p = q at hd he hshown hused
  constructor
  · intro hs hon
    by_contra hb
    rw [Bool.not_eq_true] at hb
    have halone : ∀ x, x ≠ e → q.on x = false := by
      intro x hx
      rw [(hall x).resolve_right hx, hd, hb]
    have hsign := (hs.fits hused).alone e (he.trans hon) halone
    rw [hshown, hb] at hsign
    cases hsign
  · intro hb
    refine ⟨fun hu => absurd (hused.symm.trans hu) (by decide), fun _ => ⟨?_, ?_⟩⟩
    · intro x hx halone
      rcases hall x with rfl | rfl
      · rw [hshown, ← hd, hx, if_pos rfl]
      · rw [hd.symm.trans (halone d hde)] at hb
        exact absurd (hb (he.symm.trans hx)) (by decide)
    · intro hoff
      rw [hshown, ← hd, hoff d]
      rfl

/-- Of two devices, one is stopped or left alone, and then the other one is set: the indicator
gets out of step only if both were on and one of them goes on alone. -/
theorem sound_stop_set_iff (hde : d ≠ e) (hall : ∀ x, x = d ∨ x = e) (h : Sound sign p)
    (hb : b = true → p.on d = true) :
    Sound sign (switch sign e c (switch sign d b p)) ↔
      ¬ (p.on d = true ∧ p.on e = true ∧ b ≠ c) := by
  have he : (switch sign d b p).on e = p.on e := switch_on_of_ne _ _ _ hde.symm
  by_cases hc : c = p.on e
  · have hself : switch sign e c (switch sign d b p) = switch sign d b p := by
      rw [hc, ← he, switch_self]
    rw [hself]
    by_cases hd : b = p.on d
    · rw [hd, switch_self]
      simp only [h, true_iff]
      rintro ⟨hd', he', hne⟩
      exact hne (hd'.trans (hc.trans he').symm)
    · have hboth : b = false ∧ p.on d = true := by
        cases b <;> simp_all
      rw [sound_switch_iff hde hall hd, hboth.1, hboth.2, hc]
      simp
  · rw [sound_switch_iff hde.symm (fun x => (hall x).symm) (by rwa [he]), switch_on_self]
    cases b <;> cases c <;> simp_all

end Pair

end Indicator
