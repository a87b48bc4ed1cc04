import Wyostat.Lib.Run
import Mathlib.Data.List.Chain

/-! Switches with a dead band: where switching on and switching off are always apart, so are
any two consecutive changes of a run. -/
namespace Hysteresis
open Machine

variable {σ ι α : Type*} {step : σ → ι → σ} {out : σ → Bool} {point : σ → ι → α}

/-- The point at which a step changes the output, if it does. -/
def changes (step : σ → ι → σ) (out : σ → Bool) (point : σ → ι → α) (s : σ) (i : ι) : List α :=
  if out (step s i) ≠ out s then [point s i] else []

/-- A step that changes the output switches it on at a point of `On` or off at one of `Off`. -/
def Switches (step : σ → ι → σ) (out : σ → Bool) (point : σ → ι → α) (On Off : α → Prop)
    (s : σ) (i : ι) : Prop :=
  out (step s i) ≠ out s → if out (step s i) then On (point s i) else Off (point s i)

/-- A switch with two thresholds: on, it stays on until a point of `Off`; off, it stays off until
a point of `On`. -/
theorem switches_of_iff {On Off : α → Prop} {s : σ} {i : ι}
    (h : out (step s i) = true ↔ if out s then ¬ Off (point s i) else On (point s i)) :
    Switches step out point On Off s i := by
  intro hne
  cases hs : out s with
  | true =>
    have hoff : out (step s i) = false := by simpa [hs] using hne
    simpa [hs, hoff] using h
  | false =>
    have hon : out (step s i) = true := by simpa [hs] using hne
    simpa [hs, hon] using h

/-- The points of consecutive changes are related as any point of `On` and any point of `Off`
are; the first change is a switch-off exactly when the output was on. -/
theorem isChain_changes {On Off : α → Prop} {R : α → α → Prop}
    (hR : ∀ x y, On x → Off y → R x y ∧ R y x) {s : σ} {is : List ι}
    (h : Along step (Switches step out point On Off) s is) :
    (outputs step (changes step out point) s is).IsChain R ∧
      ∀ x ∈ (outputs step (changes step out point) s is).head?,
        if out s then Off x else On x := by
  induction is generalizing s with
  | nil => exact ⟨.nil, by simp [outputs]⟩
  | cons i is ih =>
    obtain ⟨hchain, hhead⟩ := ih h.2
    have hswitch := h.1
    unfold Switches at hswitch
    rw [outputs, changes]
    by_cases hc : out (step s i) = out s
    · rw [if_neg (not_not.mpr hc), List.nil_append, ← hc]
      exact ⟨hchain, hhead⟩
    · have hpoint := hswitch hc
      rw [if_pos hc, List.singleton_append]
      constructor
      · refine List.isChain_cons.mpr ⟨fun y hy => ?_, hchain⟩
        have hy := hhead y hy
        cases ho : out (step s i) with
        | true =>
          simp only [ho, if_true] at hpoint hy
          exact (hR _ _ hpoint hy).1
        | false =>
          simp only [ho, Bool.false_eq_true, if_false] at hpoint hy
          exact (hR _ _ hy hpoint).2
      · rintro x hx
        obtain rfl : point s i = x := by simpa using hx
        have hs : out s = !out (step s i) := by
          cases hn : out (step s i) <;> cases ho : out s <;> simp_all
        rw [hs]
        cases ho : out (step s i) <;> simpa [ho] using hpoint

end Hysteresis
