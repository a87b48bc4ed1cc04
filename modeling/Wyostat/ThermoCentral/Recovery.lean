import Wyostat.ThermoCentral.Control

/-! A failed read enters the filter for good: the branch that would take a fresh reading
over is chosen by a comparison that a missing temperature never passes. -/
namespace Wyostat.ThermoCentral
open Machine

/-- The reading an iteration takes, if it takes one. -/
def taken (w : World) (s : Stat) (it : Iteration) : List (Reading ℚ) :=
  if Due w (ioRun it.data s) then [it.reading] else []

/-- An iteration that takes a successful reading ends with a temperature. -/
def Recovers (w : World) (s : Stat) (it : Iteration) : Prop :=
  Due w (ioRun it.data s) → it.reading ≠ .nan → (loop w s it).localtemperature ≠ .nan

instance (w : World) (s : Stat) (it : Iteration) : Decidable (Recovers w s it) :=
  inferInstanceAs (Decidable (_ → _ → _))

section Temperature

@[simp] theorem ioRun_localtemperature (data : List Data) (s : Stat) :
    (ioRun data s).localtemperature = s.localtemperature :=
  ioRun_frame (fun _ _ => rfl) (fun _ _ => rfl) (fun _ _ => rfl) (fun _ _ _ => rfl) data s

@[simp] theorem record_localtemperature (w : World) (s : Stat) :
    (record w s).localtemperature = s.localtemperature := by
  unfold record
  split_ifs <;> rfl

@[simp] theorem heaterControl_localtemperature (s : Stat) :
    (heaterControl s).localtemperature = s.localtemperature := by
  rw [heaterControl_eq]
  split_ifs <;> rfl

@[simp] theorem acControl_localtemperature (s : Stat) :
    (acControl s).localtemperature = s.localtemperature := by
  rw [acControl_eq]
  split_ifs <;> rfl

@[simp] theorem finish_localtemperature (it : Iteration) (s : Stat) :
    (finish it s).localtemperature = s.localtemperature := by
  unfold finish handleButtons
  dsimp only
  split_ifs <;> rfl

theorem loop_localtemperature (w : World) (s : Stat) (it : Iteration) :
    (loop w s it).localtemperature =
      if Due w (ioRun it.data s) then filter it.reading s.localtemperature
      else s.localtemperature := by
  simp only [loop, finish_localtemperature, acControl_localtemperature,
    heaterControl_localtemperature, sense, sampling]
  split_ifs <;> simp

theorem filter_eq_nan_iff {r x : Reading ℚ} : filter r x = .nan ↔ x = .nan ∨ r = .nan := by
  unfold filter
  split_ifs with h
  · cases x with
    | nan => exact absurd h (Reading.not_below_nan 45)
    | num a => simp
  · rw [Reading.map₂_eq_nan_iff, or_comm]

end Temperature

section Lost
variable {w : World} {s : Stat}

theorem loop_of_lost (it : Iteration) (h : s.localtemperature = .nan) :
    (loop w s it).localtemperature = .nan := by
  rw [loop_localtemperature]
  split_ifs
  · exact filter_eq_nan_iff.mpr (.inl h)
  · exact h

theorem recovers_of_lost_iff (h : s.localtemperature = .nan) (its : List Iteration) :
    Along (loop w) (Recovers w) s its ↔ ∀ r ∈ outputs (loop w) (taken w) s its, r = .nan := by
  induction its generalizing s with
  | nil => simp [Along, outputs]
  | cons it its ih =>
    have hnext := loop_of_lost (w := w) it h
    simp only [Along, outputs, List.mem_append, ih hnext, Recovers, hnext, ne_eq, not_true_eq_false,
      taken]
    by_cases hdue : Due w (ioRun it.data s)
    · simp [hdue, or_imp, forall_and]
    · simp [hdue]

/-- As long as there is a temperature, all that matters is what follows the first failure. -/
theorem recovers_of_num_iff (h : s.localtemperature ≠ .nan) (its : List Iteration) :
    Along (loop w) (Recovers w) s its ↔
      (outputs (loop w) (taken w) s its).Pairwise fun a b => a = .nan → b = .nan := by
  induction its generalizing s with
  | nil => simp [Along, outputs]
  | cons it its ih =>
    have hnext := loop_localtemperature w s it
    by_cases hdue : Due w (ioRun it.data s)
    · rw [if_pos hdue] at hnext
      simp only [Along, outputs, taken, hdue, if_true, List.cons_append, List.nil_append,
        List.pairwise_cons]
      by_cases hr : it.reading = .nan
      · have hlost : (loop w s it).localtemperature = .nan := by
          rw [hnext, filter_eq_nan_iff]
          exact .inr hr
        rw [recovers_of_lost_iff hlost]
        constructor
        · rintro ⟨-, hall⟩
          exact ⟨fun b hb _ => hall b hb,
            List.pairwise_of_forall_mem_list fun _ _ b hb _ => hall b hb⟩
        · rintro ⟨hall, -⟩
          exact ⟨fun _ hne => absurd hr hne, fun b hb => hall b hb hr⟩
      · have hnum : (loop w s it).localtemperature ≠ .nan := by
          rw [hnext, Ne, filter_eq_nan_iff]
          exact fun hx => hx.elim h hr
        rw [ih hnum]
        simp [Recovers, hnum, hr]
    · rw [if_neg hdue] at hnext
      rw [Along, outputs, taken, if_neg hdue, List.nil_append, ih (hnext ▸ h)]
      simp [Recovers, hdue]

end Lost

/-- In a run from `setup()` every iteration that takes a successful reading ends with a
temperature, exactly when no reading taken after a failed one succeeds. -/
theorem recovers_iff (w : World) (eeprom : Eeprom) (its : List Iteration) :
    Along (loop w) (Recovers w) (setup eeprom) its ↔
      (outputs (loop w) (taken w) (setup eeprom) its).Pairwise fun a b => a = .nan → b = .nan :=
  recovers_of_num_iff (by simp [setup, loadSettings]) its

/-- The furnace starts at 50 degrees; after one failed read it is still on at 90 degrees. -/
def lostRun : List Iteration :=
  [⟨0, [], .num 50, true, true⟩, ⟨0, [], .nan, true, true⟩, ⟨0, [], .num 90, true, true⟩,
   ⟨0, [], .num 90, true, true⟩]

theorem lostRun_not_recovered :
    ¬ Along (loop everySecond) (Recovers everySecond) (setup Eeprom.erased) lostRun ∧
      (run (loop everySecond) (setup Eeprom.erased) lostRun).furnacestate = true := by
  decide +kernel

end Wyostat.ThermoCentral
