import Wyostat.ThermoCentral.Control

/-! Furnace and AC run together exactly when the set-points ask for both: the two control
sections do not look at each other. -/
namespace Wyostat.ThermoCentral
open Machine Output

/-- The furnace is about to run while the AC still runs or is about to start. -/
def Overlaps (s : Stat) : Prop := HeatWanted s ∧ (s.acstate = true ∨ CoolWanted s)

instance (s : Stat) : Decidable (Overlaps s) := inferInstanceAs (Decidable (_ ∧ _))

/-- The outputs show the relay states and heat and cool were never on together. -/
structure Relays.Interlocked (r : Relays) : Prop extends r.Tracked where
  apart : NeverBoth .furnaceSCR .acSCR r.writes

theorem Relays.Interlocked.not_both {r : Relays} (h : r.Interlocked) :
    ¬ (r.furnacestate = true ∧ r.acstate = true) := by
  rw [← h.furnace, ← h.ac]
  exact h.apart.now

theorem apart_of_switch {ws : List (Output.Write Pin)} {pin : Pin} {b : Bool} {t : ℕ}
    (h : NeverBoth .furnaceSCR .acSCR ws)
    (hlow : level .furnaceSCR (⟨pin, b, t⟩ :: ws) = false ∨
      level .acSCR (⟨pin, b, t⟩ :: ws) = false) :
    NeverBoth .furnaceSCR .acSCR (⟨.fanSCR, b, t⟩ :: ⟨pin, b, t⟩ :: ws) := by
  apply (h.cons_of_low hlow).cons_of_low
  rwa [level_cons_of_ne (p := Pin.furnaceSCR) (q := .fanSCR) (by decide),
    level_cons_of_ne (p := Pin.acSCR) (q := .fanSCR) (by decide)]

theorem interlocked_heaterControl_iff {s : Stat} (h : s.relays.Interlocked) :
    (heaterControl s).relays.Interlocked ↔ ¬ (HeatWanted s ∧ s.acstate = true) := by
  constructor
  · rintro hi ⟨hheat, hac⟩
    exact hi.not_both ⟨by simp [Stat.relays, hheat], by simp [Stat.relays, hac]⟩
  · intro hn
    refine ⟨tracked_heaterControl h.toTracked, ?_⟩
    rw [heaterControl_eq]
    split_ifs
    · exact h.apart
    · rw [switchFurnace_relays]
      apply apart_of_switch h.apart
      rw [level_cons_self, level_cons_of_ne (by decide), h.ac]
      by_cases hheat : HeatWanted s
      · right
        simpa [Stat.relays, hheat] using hn
      · left
        simp [hheat]

theorem interlocked_acControl_iff {s : Stat} (h : s.relays.Interlocked) :
    (acControl s).relays.Interlocked ↔ ¬ (s.furnacestate = true ∧ CoolWanted s) := by
  constructor
  · rintro hi ⟨hf, hcool⟩
    exact hi.not_both ⟨by simp [Stat.relays, hf], by simp [Stat.relays, hcool]⟩
  · intro hn
    refine ⟨tracked_acControl h.toTracked, ?_⟩
    rw [acControl_eq]
    split_ifs
    · exact h.apart
    · rw [switchAc_relays]
      apply apart_of_switch h.apart
      rw [level_cons_self, level_cons_of_ne (by decide), h.furnace]
      by_cases hcool : CoolWanted s
      · left
        simpa [Stat.relays, hcool] using hn
      · right
        simp [hcool]

/-- A write never repairs the past. -/
theorem Relays.Interlocked.before_acControl {s : Stat} (hs : s.relays.Tracked)
    (h : (acControl s).relays.Interlocked) : s.relays.Interlocked := by
  refine ⟨hs, ?_⟩
  have ha := h.apart
  rw [acControl_eq] at ha
  split_ifs at ha
  · exact ha
  · exact (neverBoth_cons.mp (neverBoth_cons.mp ha).2).2

theorem interlocked_control_iff {s : Stat} (h : s.relays.Interlocked) :
    (acControl (heaterControl s)).relays.Interlocked ↔ ¬ Overlaps s := by
  constructor
  · rintro hi ⟨hheat, hac⟩
    have hmid := hi.before_acControl (tracked_heaterControl h.toTracked)
    rcases hac with hac | hcool
    · exact (interlocked_heaterControl_iff h).mp hmid ⟨hheat, hac⟩
    · exact (interlocked_acControl_iff hmid).mp hi ⟨by simp [hheat], by simp [hcool]⟩
  · intro hn
    have hmid := (interlocked_heaterControl_iff h).mpr fun hc => hn ⟨hc.1, .inl hc.2⟩
    refine (interlocked_acControl_iff hmid).mpr fun hc => hn ⟨?_, .inr ?_⟩
    · simpa using hc.1
    · simpa using hc.2

theorem interlocked_loop_iff (w : World) (s : Stat) (it : Iteration)
    (h : s.relays.Interlocked) :
    (loop w s it).relays.Interlocked ↔ ¬ Overlaps (sense w it s) := by
  rw [loop, finish_relays]
  exact interlocked_control_iff (by rwa [sense_relays])

theorem interlocked_setup (eeprom : Eeprom) : (setup eeprom).relays.Interlocked := by
  refine ⟨tracked_setup eeprom, ?_⟩
  rw [setup_relays]
  decide

/-- At no point between two relay writes of a run from `setup()` are furnace and AC both HIGH,
exactly when in no iteration the furnace is to run while the AC runs or is to start. -/
theorem furnace_ac_apart_iff (w : World) (eeprom : Eeprom) (its : List Iteration) :
    Always (loop w) (fun s => NeverBoth .furnaceSCR .acSCR (writes s.log)) (setup eeprom) its ↔
      Along (loop w) (fun s it => ¬ Overlaps (sense w it s)) (setup eeprom) its := by
  have hsplit (s : Stat) (h : s.relays.Tracked) :
      NeverBoth .furnaceSCR .acSCR (writes s.log) ↔ s.relays.Interlocked :=
    ⟨fun hapart => ⟨h, hapart⟩, fun hi => hi.apart⟩
  rw [always_congr_of_step (tracked_loop w) hsplit (tracked_setup eeprom)]
  exact always_iff_along (interlocked_loop_iff w) (interlocked_setup eeprom) its

/-- At a constant 50 degrees the furnace runs for a lower set-point of 55; then the upper
set-point is changed to 20. -/
def clashRun : List Iteration :=
  [⟨0, [], .num 50, true, true⟩, ⟨0, [⟨.setTempHi, ['2', '0']⟩], .num 50, true, true⟩]

theorem clashRun_both_high :
    ¬ Always (loop everySecond) (fun s => NeverBoth .furnaceSCR .acSCR (writes s.log))
      (setup Eeprom.erased) clashRun := by
  decide +kernel

end Wyostat.ThermoCentral
