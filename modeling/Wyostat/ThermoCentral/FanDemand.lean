import Wyostat.ThermoCentral.Control

/-! The fan runs exactly when furnace or AC does, except after one of them stopped the fan
under the other. -/
namespace Wyostat.ThermoCentral
open Machine Output

/-- One of furnace and AC is about to stop while the other runs on. -/
def Stalls (s : Stat) : Prop :=
  s.acstate = true ∧
    if CoolWanted s then s.furnacestate = true ∧ ¬ HeatWanted s else HeatWanted s

instance (s : Stat) : Decidable (Stalls s) := inferInstanceAs (Decidable (_ ∧ ite _ _ _))

/-- The fan runs if and only if furnace or AC runs. -/
def Stat.Supplied (s : Stat) : Prop := s.fanstate = (s.furnacestate || s.acstate)

instance (s : Stat) : Decidable s.Supplied := inferInstanceAs (Decidable (_ = _))

/-- The fan follows whichever section switched last. -/
theorem heaterControl_fanstate (s : Stat) :
    (heaterControl s).fanstate =
      if s.furnacestate = decide (HeatWanted s) then s.fanstate else decide (HeatWanted s) := by
  rw [heaterControl_eq]
  split_ifs <;> rfl

theorem acControl_fanstate (s : Stat) :
    (acControl s).fanstate =
      if s.acstate = decide (CoolWanted s) then s.fanstate else decide (CoolWanted s) := by
  rw [acControl_eq]
  split_ifs <;> rfl

theorem supplied_control_iff {s : Stat} (h : s.Supplied) :
    (acControl (heaterControl s)).Supplied ↔ ¬ Stalls s := by
  simp only [Stat.Supplied, acControl_fanstate, heaterControl_fanstate, acControl_furnacestate,
    heaterControl_furnacestate, acControl_acstate, heaterControl_acstate,
    coolWanted_heaterControl, Stalls] at h ⊢
  rw [h]
  by_cases hheat : HeatWanted s <;> by_cases hcool : CoolWanted s <;>
    cases s.furnacestate <;> cases s.acstate <;> simp [hheat, hcool]

theorem supplied_loop_iff (w : World) (s : Stat) (it : Iteration) (h : s.Supplied) :
    (loop w s it).Supplied ↔ ¬ Stalls (sense w it s) := by
  obtain ⟨hf, ha, hn, -⟩ := Stat.relays_eq (sense_relays w it s)
  obtain ⟨hf', ha', hn', -⟩ :=
    Stat.relays_eq (finish_relays it (acControl (heaterControl (sense w it s))))
  rw [← supplied_control_iff (by simpa only [Stat.Supplied, hf, ha, hn] using h)]
  simp only [Stat.Supplied, loop, hf', ha', hn']

/-- At the end of every iteration of a run from `setup()` the fan runs if and only if furnace
or AC does, and its output shows it, exactly when no iteration stops one of the two while the
other runs on. -/
theorem fan_follows_demand_iff (w : World) (eeprom : Eeprom) (its : List Iteration) :
    Always (loop w)
        (fun s => s.Supplied ∧ level .fanSCR (writes s.log) = s.fanstate) (setup eeprom) its ↔
      Along (loop w) (fun s it => ¬ Stalls (sense w it s)) (setup eeprom) its := by
  have hshown (s : Stat) (h : s.relays.Tracked) :
      s.Supplied ∧ level .fanSCR (writes s.log) = s.fanstate ↔ s.Supplied := and_iff_left h.fan
  have hsetup : (setup eeprom).Supplied := rfl
  rw [always_congr_of_step (tracked_loop w) hshown (tracked_setup eeprom)]
  exact always_iff_along (supplied_loop_iff w) hsetup its

/-- At 50 degrees the furnace starts; the upper set-point drops to 20, which starts the AC as
well, and is raised to 100 again. -/
def stalledRun : List Iteration :=
  [⟨0, [], .num 50, true, true⟩,
   ⟨0, [⟨.setTempHi, ['2', '0']⟩], .num 50, true, true⟩,
   ⟨0, [⟨.setTempHi, ['1', '0', '0']⟩], .num 50, true, true⟩]

theorem stalledRun_without_fan :
    ¬ Always (loop everySecond)
      (fun s => s.Supplied ∧ level .fanSCR (writes s.log) = s.fanstate)
      (setup Eeprom.erased) stalledRun := by
  decide +kernel

end Wyostat.ThermoCentral
