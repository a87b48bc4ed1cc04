import Wyostat.OpenThermostat.Setters
import Mathlib.Tactic.Linarith

/-! The furnace keeps each state for more than `minChangeDuration` seconds. -/
namespace Wyostat.OpenThermostat
open Machine Output

/-- More than `minChangeDuration` seconds pass from the reading stored at one switch to the
reading on which the next one was decided. -/
def Spaced (w : World) (later earlier : ℕ) : Prop :=
  (w.rtc earlier).toNat + minChangeDuration.toNat < (w.rtc (later - 1)).toNat

/-- The timer knows when the furnace was last switched, and all switches were spaced. -/
structure Dwells (w : World) (s : Stat) : Prop where
  shown : level .furnaceSCR (writes s.log) = s.furnaceState
  spaced : (switches .furnaceSCR (writes s.log)).IsChain (Spaced w)
  last : ∀ t ∈ (switches .furnaceSCR (writes s.log)).head?,
    s.lastFurnaceStateChange = w.rtc t ∧ t < s.tick

theorem Dwells.frame {w : World} {s t : Stat} (h : Dwells w s)
    (hf : t.furnaceState = s.furnaceState)
    (hl : t.lastFurnaceStateChange = s.lastFurnaceStateChange)
    (hlevel : level .furnaceSCR (writes t.log) = level .furnaceSCR (writes s.log))
    (hsw : switches .furnaceSCR (writes t.log) = switches .furnaceSCR (writes s.log))
    (htick : s.tick ≤ t.tick) : Dwells w t := by
  refine ⟨?_, hsw ▸ h.spaced, ?_⟩
  · rw [hlevel, h.shown, hf]
  · intro k hk
    rw [hsw] at hk
    exact ⟨hl.trans (h.last k hk).1, (h.last k hk).2.trans_le htick⟩

theorem Dwells.of_relays {w : World} {s t : Stat} (h : Dwells w s)
    (hr : t.relays = s.relays) (htick : s.tick ≤ t.tick) : Dwells w t := by
  obtain ⟨hf, -, -, hl, hw⟩ := Stat.relays_eq hr
  exact h.frame hf hl (by rw [hw]) (by rw [hw]) htick

theorem dwells_setAc {w : World} (b : Bool) (s : Stat) (h : Dwells w s) :
    Dwells w (setAc w b s) := by
  by_cases hb : b = s.acState
  · subst hb; rwa [setAc_self]
  · obtain ⟨hr, htick⟩ := setAc_changed (w := w) hb
    have hw : writes (setAc w b s).log = ⟨.acSCR, b, s.tick⟩ :: writes s.log :=
      congrArg Relays.writes hr
    refine h.frame (by simp) (congrArg Relays.lastFurnaceStateChange hr) ?_ ?_ (by omega)
    · rw [hw, level_cons_of_ne (by decide)]
    · rw [hw, switches_cons_of_ne (by decide)]

theorem dwells_setFan {w : World} (b : Bool) (s : Stat) (h : Dwells w s) :
    Dwells w (setFan w b s) := by
  by_cases hb : b = s.fanState
  · subst hb; rwa [setFan_self]
  · obtain ⟨hr, htick⟩ := setFan_changed (w := w) hb
    have hw : writes (setFan w b s).log = ⟨.fanSCR, b, s.tick + 1⟩ :: writes s.log :=
      congrArg Relays.writes hr
    refine h.frame (by simp) (congrArg Relays.lastFurnaceStateChange hr) ?_ ?_ (by omega)
    · rw [hw, level_cons_of_ne (by decide)]
    · rw [hw, switches_cons_of_ne (by decide)]

/-- On a clock that does not run backwards, a timer that lets a change through measures the
whole distance to the reading it stored last. -/
theorem spaced_of_accepted {w : World} (hw : w.Nondecreasing) {s : Stat} {t : ℕ}
    (hlast : s.lastFurnaceStateChange = w.rtc t) (ht : t < s.tick) (hr : ¬ Refuses w s) :
    Spaced w (s.tick + 1) t := by
  have hle : w.rtc t ≤ w.rtc s.tick := hw ht.le
  have hgap : minChangeDuration < w.rtc s.tick - w.rtc t := by
    rw [← hlast]
    exact UInt32.not_le.mp hr
  rw [UInt32.lt_iff_toNat_lt, UInt32.toNat_sub_of_le _ _ hle] at hgap
  simp only [Spaced, Nat.add_sub_cancel]
  omega

theorem dwells_setFurnace {w : World} (hw : w.Nondecreasing) (b : Bool) (s : Stat)
    (h : Dwells w s) : Dwells w (setFurnace w b s) := by
  by_cases hb : b = s.furnaceState
  · subst hb; rwa [setFurnace_self]
  by_cases hr : Refuses w s
  · rw [setFurnace_refused hb hr]
    exact h.of_relays rfl (Nat.le_succ _)
  obtain ⟨hrel, htick⟩ := setFurnace_accepted hb hr
  have hwr : writes (setFurnace w b s).log = ⟨.furnaceSCR, b, s.tick + 1⟩ :: writes s.log :=
    congrArg Relays.writes hrel
  have hsw : switches .furnaceSCR (writes (setFurnace w b s).log) =
      (s.tick + 1) :: switches .furnaceSCR (writes s.log) := by
    rw [hwr, switches_cons_self _ _ (h.shown ▸ hb)]
  refine ⟨?_, ?_, ?_⟩
  · rw [hwr, level_cons_self]
    exact (congrArg Relays.furnaceState hrel).symm
  · rw [hsw, List.isChain_cons]
    refine ⟨fun t ht => ?_, h.spaced⟩
    obtain ⟨hlast, hlt⟩ := h.last t ht
    exact spaced_of_accepted hw hlast hlt hr
  · intro t ht
    obtain rfl : s.tick + 1 = t := by simpa [hsw] using ht
    exact ⟨congrArg Relays.lastFurnaceStateChange hrel, by omega⟩

theorem dwells_iterate {w : World} (hw : w.Nondecreasing) (s : Stat) (it : Iteration)
    (h : Dwells w s) : Dwells w (iterate w s it) := by
  have hreceive := h.of_relays (receive_relays w s it) (tick_le_receive w s it)
  have hcontrol : Dwells w (control w (receive w it s)) :=
    control_preserves (fun s h => h.of_relays rfl (Nat.le_succ _)) (dwells_setFurnace hw)
      dwells_setAc dwells_setFan hreceive
  exact hcontrol.of_relays (finish_relays ..) (tick_le_finish ..)

theorem dwells_setup (w : World) (sensor : Reading ℚ) (eeprom : Eeprom) (rounds : ℕ) :
    Dwells w (setup w sensor eeprom rounds) := by
  have h := setup_relays w sensor eeprom rounds
  have hf : (setup w sensor eeprom rounds).furnaceState = false := congrArg Relays.furnaceState h
  have hw : writes (setup w sensor eeprom rounds).log =
      [⟨.acSCR, false, 0⟩, ⟨.fanSCR, false, 0⟩, ⟨.furnaceSCR, false, 0⟩] :=
    congrArg Relays.writes h
  refine ⟨?_, ?_, ?_⟩ <;> rw [hw] <;> simp [level, switches, hf]

/-- In every run between two boots on a clock that does not run backwards, the output shows
the furnace state, and any two successive switches are more than `minChangeDuration` seconds
apart, from the later reading at the first to the earlier reading at the second. -/
theorem furnace_minimum_dwell {w : World} (hw : w.Nondecreasing) (sensor : Reading ℚ)
    (eeprom : Eeprom) (rounds : ℕ) (its : List Iteration) :
    Always (iterate w)
      (fun s => level .furnaceSCR (writes s.log) = s.furnaceState ∧
        (switches .furnaceSCR (writes s.log)).IsChain fun later earlier =>
          (w.rtc earlier).toNat + minChangeDuration.toNat < (w.rtc (later - 1)).toNat)
      (setup w sensor eeprom rounds) its :=
  (always_of_step (dwells_iterate hw) (dwells_setup w sensor eeprom rounds) its).mono
    fun _ h => ⟨h.shown, h.spaced⟩

section Cycle

/-- A clock that advances while the device works. -/
def tickingWorld : World :=
  ⟨fun t => UInt32.ofNat (min (20 * t) 100000), fun _ => 12, fun _ => true, 0⟩

theorem tickingWorld_nondecreasing : tickingWorld.Nondecreasing := by
  intro i j hij
  have hbound (t : ℕ) : min (20 * t) 100000 < 2 ^ 32 := by omega
  rw [UInt32.le_iff_toNat_le, tickingWorld, UInt32.toNat_ofNat_of_lt' (hbound i),
    UInt32.toNat_ofNat_of_lt' (hbound j)]
  omega

/-- A house that cools down, warms up and cools down again. -/
def cycleRun : List Iteration := [⟨.num 60, none, 0⟩, ⟨.num 75, none, 0⟩, ⟨.num 60, none, 0⟩]

theorem furnace_minimum_dwell_cycleRun :
    (switches .furnaceSCR
        (writes (run (iterate tickingWorld)
          (setup tickingWorld (.num 60) Eeprom.erased 1) cycleRun).log)).length = 3 ∧
      Always (iterate tickingWorld)
        (fun s => level .furnaceSCR (writes s.log) = s.furnaceState ∧
          (switches .furnaceSCR (writes s.log)).IsChain fun later earlier =>
            (tickingWorld.rtc earlier).toNat + minChangeDuration.toNat <
              (tickingWorld.rtc (later - 1)).toNat)
        (setup tickingWorld (.num 60) Eeprom.erased 1) cycleRun :=
  ⟨by decide +kernel, furnace_minimum_dwell tickingWorld_nondecreasing ..⟩

end Cycle

end Wyostat.OpenThermostat
