import Wyostat.OpenThermostat.Setters
import Mathlib.Tactic.Linarith

/-! The furnace never runs without the fan, except where a mode other than heating stops
the fan although its request to stop the furnace was refused. -/
namespace Wyostat.OpenThermostat
open Machine

/-- The cooling branch stops the fan. At home the target is read twice. -/
def TooCold (w : World) (s : Stat) : Prop :=
  if s.away then s.localtemp.Below (awaymax - hilogap : ℤ)
  else truncate w.intOfNan s.localtemp ≤ (getTargettemp w s).toNat ∧
    truncate w.intOfNan s.localtemp ≤ (getTargettemp w s.tock).toNat - hilogap

instance (w : World) (s : Stat) : Decidable (TooCold w s) := by
  unfold TooCold
  infer_instance

/-- The control section starts with the furnace running, does not heat, cannot stop the
furnace because of its timer, and stops the fan. -/
def Starves (w : World) (s : Stat) : Prop :=
  s.furnaceState = true ∧ s.mode ≠ 'h' ∧
    if s.mode = 'c' then Refuses w s ∧ TooCold w s.tock
    else Refuses w (setAc w false s)

instance (w : World) (s : Stat) : Decidable (Starves w s) := by
  unfold Starves
  infer_instance

/-- Heat only with air flow. -/
def Stat.Aired (s : Stat) : Prop := s.furnaceState = true → s.fanState = true

instance (s : Stat) : Decidable s.Aired := inferInstanceAs (Decidable (_ → _))

theorem aired_setFan_furnaceState (w : World) (s : Stat) : (setFan w s.furnaceState s).Aired := by
  simp [Stat.Aired]

theorem aired_setFan_true (w : World) (s : Stat) : (setFan w true s).Aired := by
  simp [Stat.Aired]

theorem aired_setFan_false_iff {w : World} {s : Stat} :
    (setFan w false s).Aired ↔ s.furnaceState = false := by
  simp [Stat.Aired]

theorem aired_setAc_iff {w : World} {b : Bool} {s : Stat} : (setAc w b s).Aired ↔ s.Aired := by
  simp [Stat.Aired]

theorem aired_heating (w : World) (s : Stat) : (heating w s).Aired := by
  unfold heating
  dsimp only
  split_ifs <;> exact aired_setFan_furnaceState _ _

/-- Cooling mode takes the air away exactly when it stops the fan of a furnace that its
request has left running. -/
theorem aired_cooling_iff {w : World} {s : Stat} (h : s.Aired) :
    (cooling w s).Aired ↔
      ¬ ((setFurnace w false s).furnaceState = true ∧ TooCold w (setFurnace w false s)) := by
  have h₁ : (setFurnace w false s).Aired := by
    intro hon
    rw [setFurnace_fanState]
    exact h ((setFurnace_false_furnaceState w s).mp hon).1
  unfold cooling TooCold
  dsimp only
  generalize setFurnace w false s = t at h₁ ⊢
  by_cases haway : t.away = true
  · simp only [haway, if_true]
    split_ifs with hhot hcold
    · have hwarm : ¬ t.localtemp.Below (awaymax - hilogap : ℤ) := by
        cases hx : t.localtemp with
        | nan => simp
        | num q =>
          rw [hx] at hhot
          simp only [Reading.above_num, Reading.below_num, awaymax, hilogap] at hhot ⊢
          push_cast at hhot ⊢
          linarith
      simp only [hwarm, and_false, not_false_eq_true, iff_true]
      exact aired_setAc_iff.mpr (aired_setFan_true _ _)
    · rw [aired_setAc_iff, aired_setFan_false_iff]
      simp only [hcold, and_true, Bool.not_eq_true]
    · simp only [hcold, and_false, not_false_eq_true, iff_true]
      exact h₁
  · simp only [haway, if_false, Bool.false_eq_true]
    split_ifs with hhot hcold
    · simp [aired_setFan_true, not_le.mpr hhot]
    · rw [aired_setFan_false_iff, setAc_furnaceState]
      have hle : truncate w.intOfNan t.localtemp ≤ (getTargettemp w t).toNat := not_lt.mp hhot
      have hcold' : truncate w.intOfNan t.localtemp ≤
          ((getTargettemp w t.tock).toNat : ℤ) - hilogap := hcold
      simp [hle, hcold']
    · have hwarm : ¬ truncate w.intOfNan t.localtemp ≤
          ((getTargettemp w t.tock).toNat : ℤ) - hilogap := hcold
      simp only [hwarm, and_false, not_false_eq_true, iff_true]
      exact h₁

theorem aired_control_iff {w : World} {s : Stat} (h : s.Aired) :
    (control w s).Aired ↔ ¬ Starves w s := by
  unfold control Starves
  by_cases hheat : s.mode = 'h'
  · simp [aired_heating, hheat]
  by_cases hcool : s.mode = 'c'
  · rw [if_neg hheat, if_pos hcool, if_pos hcool, aired_cooling_iff h,
      setFurnace_false_furnaceState]
    by_cases hon : s.furnaceState = true ∧ Refuses w s
    · rw [setFurnace_refused (by simp [hon.1]) hon.2]
      simp [hheat, hon]
    · simp only [hon, false_and, not_false_eq_true, true_iff]
      intro hs
      exact hon ⟨hs.1, hs.2.2.1⟩
  · rw [if_neg hheat, if_neg hcool, if_neg hcool, aired_setFan_false_iff, ← Bool.not_eq_true,
      setFurnace_false_furnaceState, setAc_furnaceState]
    simp [hheat]

theorem aired_iterate_iff {w : World} (s : Stat) (it : Iteration) (h : s.Aired) :
    (iterate w s it).Aired ↔ ¬ Starves w (receive w it s) := by
  have hr := Stat.relays_eq (receive_relays w s it)
  have hf := Stat.relays_eq
    (finish_relays w (control w (receive w it s)) s.localtemp it.millis)
  rw [← aired_control_iff (by simpa only [Stat.Aired, hr.1, hr.2.2.1] using h)]
  simp only [Stat.Aired, iterate, hf.1, hf.2.2.1]

/-- At the end of every iteration of a run from `setup()` a running furnace has its fan,
exactly when no control section of the run starves it. -/
theorem furnace_aired_iff (w : World) (sensor : Reading ℚ) (eeprom : Eeprom) (rounds : ℕ)
    (its : List Iteration) :
    Always (iterate w) Stat.Aired (setup w sensor eeprom rounds) its ↔
      Along (iterate w) (fun s it => ¬ Starves w (receive w it s))
        (setup w sensor eeprom rounds) its := by
  refine always_iff_along aired_iterate_iff ?_ its
  have hs : (setup w sensor eeprom rounds).furnaceState = false :=
    congrArg Relays.furnaceState (setup_relays w sensor eeprom rounds)
  simp [Stat.Aired, hs]

/-- The furnace starts at 60 degrees for a target of 68, then the thermostat is switched off. -/
def stifledRun : List Iteration :=
  [⟨.num 60, none, 0⟩, ⟨.num 60, some ⟨"wyostat.hvacmode", ['o', 'f', 'f']⟩, 0⟩]

theorem stifledRun_not_aired :
    stillWorld.Nondecreasing ∧
      ¬ Always (iterate stillWorld) Stat.Aired (setup stillWorld (.num 60) Eeprom.erased 1)
          stifledRun :=
  ⟨stillWorld_nondecreasing, by decide +kernel⟩

end Wyostat.OpenThermostat
