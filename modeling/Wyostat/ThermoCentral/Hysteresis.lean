import Wyostat.ThermoCentral.Control
import Wyostat.Lib.Hysteresis
import Mathlib.Algebra.Order.Ring.Cast
import Mathlib.Tactic.Linarith

/-! Both relays of the ThermoCentral sketch keep the gap between their thresholds. -/
namespace Wyostat.ThermoCentral
open Machine Hysteresis

/-- The temperature the control sections of an iteration see. -/
def controlTemp (w : World) (s : Stat) (it : Iteration) : Reading ℚ :=
  (sense w it s).localtemperature

/-- The control sections of an iteration see these set-points. -/
def Steady (w : World) (lo hi : ℤ) (s : Stat) (it : Iteration) : Prop :=
  (sense w it s).settemperatureLo = lo ∧ (sense w it s).settemperatureHi = hi

instance (w : World) (lo hi : ℤ) (s : Stat) (it : Iteration) : Decidable (Steady w lo hi s it) :=
  inferInstanceAs (Decidable (_ ∧ _))

/-- Two temperatures that differ by more than `tempgap`. -/
def Apart (x y : Reading ℚ) : Prop := ∃ a b, x = .num a ∧ y = .num b ∧ tempgap < |a - b|

theorem Apart.symm {x y : Reading ℚ} (h : Apart x y) : Apart y x := by
  obtain ⟨a, b, hx, hy, hgap⟩ := h
  exact ⟨b, a, hy, hx, abs_sub_comm a b ▸ hgap⟩

section Thresholds
variable {x y : Reading ℚ} {c : ℤ}

theorem apart_of_below (hx : x.Below (c - tempgap)) (hy : y.AtLeast c) : Apart x y := by
  obtain ⟨a, ha, rfl⟩ := hx.exists_num
  obtain ⟨b, hb, rfl⟩ := hy.exists_num
  have hgap : tempgap < b - a := by linarith
  refine ⟨a, b, rfl, rfl, ?_⟩
  rw [abs_sub_comm]
  exact hgap.trans_le (le_abs_self _)

theorem apart_of_above (hx : x.Above (c + tempgap)) (hy : y.AtMost c) : Apart x y := by
  obtain ⟨a, ha, rfl⟩ := hx.exists_num
  obtain ⟨b, hb, rfl⟩ := hy.exists_num
  have hgap : tempgap < a - b := by linarith
  exact ⟨a, b, rfl, rfl, hgap.trans_le (le_abs_self _)⟩

end Thresholds

section Switching
variable {w : World} {lo hi : ℤ} {s : Stat} {it : Iteration}

theorem loop_states (w : World) (s : Stat) (it : Iteration) :
    (loop w s it).furnacestate = decide (HeatWanted (sense w it s)) ∧
      (loop w s it).acstate = decide (CoolWanted (sense w it s)) := by
  obtain ⟨hf, ha, -⟩ :=
    Stat.relays_eq (finish_relays it (acControl (heaterControl (sense w it s))))
  constructor
  · rw [loop, hf, acControl_furnacestate, heaterControl_furnacestate]
  · rw [loop, ha, acControl_acstate]
    simp only [coolWanted_heaterControl]

theorem switches_furnacestate (h : Steady w lo hi s it) :
    Switches (loop w) Stat.furnacestate (controlTemp w) (fun x => x.Below (lo - tempgap))
      (fun x => x.AtLeast lo) s it := by
  have hbefore := (Stat.relays_eq (sense_relays w it s)).1
  apply switches_of_iff
  rw [(loop_states w s it).1, decide_eq_true_iff, HeatWanted, hbefore, h.1]
  rfl

theorem switches_acstate (h : Steady w lo hi s it) :
    Switches (loop w) Stat.acstate (controlTemp w) (fun x => x.Above (hi + tempgap))
      (fun x => x.AtMost hi) s it := by
  have hbefore := (Stat.relays_eq (sense_relays w it s)).2.1
  apply switches_of_iff
  rw [(loop_states w s it).2, decide_eq_true_iff, CoolWanted, hbefore, h.2]
  rfl

end Switching

/-- In every segment during which both set-points stay constant, from any state and through any
temperatures, consecutive changes of the furnace happen more than `tempgap` apart, and so do
consecutive changes of the AC. -/
theorem relay_changes_apart {w : World} {lo hi : ℤ} {s : Stat} {its : List Iteration}
    (h : Along (loop w) (Steady w lo hi) s its) :
    (outputs (loop w) (changes (loop w) Stat.furnacestate (controlTemp w)) s its).IsChain Apart ∧
      (outputs (loop w) (changes (loop w) Stat.acstate (controlTemp w)) s its).IsChain Apart := by
  constructor
  · apply (isChain_changes (fun x y hx hy => ?_) (h.mono fun _ _ => switches_furnacestate)).1
    have hapart := apart_of_below hx hy
    exact ⟨hapart, hapart.symm⟩
  · apply (isChain_changes (fun x y hx hy => ?_) (h.mono fun _ _ => switches_acstate)).1
    have hapart := apart_of_above hx hy
    exact ⟨hapart, hapart.symm⟩

section Cycle

/-- The furnace starts at 50 degrees and stops once the filter has passed 55. -/
def heatCycle : List Iteration :=
  [⟨0, [], .num 50, true, true⟩, ⟨0, [], .num 90, true, true⟩, ⟨0, [], .num 90, true, true⟩]

theorem relay_changes_apart_heatCycle :
    (outputs (loop everySecond) (changes (loop everySecond) Stat.furnacestate
        (controlTemp everySecond)) (setup Eeprom.erased) heatCycle).length = 2 ∧
    (outputs (loop everySecond) (changes (loop everySecond) Stat.furnacestate
        (controlTemp everySecond)) (setup Eeprom.erased) heatCycle).IsChain Apart := by
  have hsteady : Along (loop everySecond) (Steady everySecond 55 80) (setup Eeprom.erased)
      heatCycle := by
    decide +kernel
  exact ⟨by decide +kernel, (relay_changes_apart hsteady).1⟩

end Cycle

end Wyostat.ThermoCentral
