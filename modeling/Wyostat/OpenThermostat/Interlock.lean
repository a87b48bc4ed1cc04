import Wyostat.OpenThermostat.Setters

/-! Heating and cooling never overlap, except where the cooling branch goes on after its
request to stop the furnace was refused. -/
namespace Wyostat.OpenThermostat
open Machine Output

/-- The cooling branch asks for the AC. -/
def TooHot (w : World) (s : Stat) : Prop :=
  if s.away then s.localtemp.Above (awaymax : ℤ)
  else (getTargettemp w s).toNat < truncate w.intOfNan s.localtemp

instance (w : World) (s : Stat) : Decidable (TooHot w s) := by
  unfold TooHot
  infer_instance

/-- The control section starts in cooling mode with the furnace running, the timer still
refuses to stop it, and the AC is wanted. -/
def Collides (w : World) (s : Stat) : Prop :=
  s.mode = 'c' ∧ s.furnaceState = true ∧ Refuses w s ∧ TooHot w s.tock

instance (w : World) (s : Stat) : Decidable (Collides w s) :=
  inferInstanceAs (Decidable (_ ∧ _))

/-- The outputs show the state variables and heat and cool were never on together. -/
structure Relays.Interlocked (r : Relays) : Prop extends r.Tracked where
  apart : NeverBoth .furnaceSCR .acSCR r.writes

theorem Relays.Interlocked.not_both {r : Relays} (h : r.Interlocked) :
    ¬ (r.furnaceState = true ∧ r.acState = true) := by
  rw [← h.furnace, ← h.ac]
  exact h.apart.now

section Setters
variable {w : World}

theorem interlocked_setFan (b : Bool) {s : Stat} (h : s.relays.Interlocked) :
    (setFan w b s).relays.Interlocked := by
  refine ⟨tracked_setFan b s h.toTracked, ?_⟩
  by_cases hb : b = s.fanState
  · subst hb; rw [setFan_self]; exact h.apart
  · rw [(setFan_changed hb).1]
    apply h.apart.cons_of_low
    rw [level_cons_of_ne (by decide), level_cons_of_ne (by decide), h.furnace, h.ac]
    simpa [Bool.not_eq_true, imp_iff_not_or] using h.not_both

theorem interlocked_setFurnace {b : Bool} {s : Stat} (h : s.relays.Interlocked)
    (hb : b = false ∨ s.acState = false) : (setFurnace w b s).relays.Interlocked := by
  refine ⟨tracked_setFurnace b s h.toTracked, ?_⟩
  by_cases he : b = s.furnaceState
  · subst he; rw [setFurnace_self]; exact h.apart
  · by_cases hr : Refuses w s
    · rw [setFurnace_refused he hr]; exact h.apart
    · rw [(setFurnace_accepted he hr).1]
      apply h.apart.cons_of_low
      rw [level_cons_self, level_cons_of_ne (by decide), h.ac]
      exact hb

theorem interlocked_setAc_iff {b : Bool} {s : Stat} (h : s.relays.Interlocked) :
    (setAc w b s).relays.Interlocked ↔ b = false ∨ s.furnaceState = false := by
  constructor
  · intro ha
    have hn := ha.not_both
    simp only [Stat.relays, setAc_furnaceState, setAc_acState] at hn
    cases b <;> simp_all
  · intro hb
    refine ⟨tracked_setAc b s h.toTracked, ?_⟩
    by_cases he : b = s.acState
    · subst he; rw [setAc_self]; exact h.apart
    · rw [(setAc_changed he).1]
      apply h.apart.cons_of_low
      rw [level_cons_self, level_cons_of_ne (by decide), h.furnace]
      exact hb.symm

end Setters

theorem interlocked_heating {w : World} {s : Stat} (h : s.relays.Interlocked) :
    (heating w s).relays.Interlocked := by
  have ha : (setAc w false s).relays.Interlocked := (interlocked_setAc_iff h).mpr (.inl rfl)
  have hoff : (setAc w false s).acState = false := setAc_acState ..
  have hset (b : Bool) (t : Stat) (ht : t.relays = (setAc w false s).relays) :
      (setFurnace w b t).relays.Interlocked := by
    refine interlocked_setFurnace (ht ▸ ha) (.inr ?_)
    exact (Stat.relays_eq ht).2.1.trans hoff
  unfold heating
  dsimp only
  split_ifs <;> apply interlocked_setFan <;> first
    | exact hset _ _ rfl
    | exact ha

/-- What cooling mode does after its request to stop the furnace keeps the interlock exactly
when the furnace is off or the AC is not wanted. -/
theorem interlocked_cooling_iff_of_request {w : World} {s : Stat}
    (h : s.relays.Interlocked) :
    (cooling w s).relays.Interlocked ↔
      ¬ ((setFurnace w false s).furnaceState = true ∧ TooHot w (setFurnace w false s)) := by
  have h₁ := interlocked_setFurnace (w := w) h (b := false) (.inl rfl)
  unfold cooling
  dsimp only
  generalize setFurnace w false s = t at h₁ ⊢
  -- both ways of switching the AC on end with the AC on and the furnace as it was
  have hclash {u : Stat} (hf : u.furnaceState = t.furnaceState) (ha : u.acState = true)
      (hu : t.furnaceState = false → u.relays.Interlocked) :
      u.relays.Interlocked ↔ ¬ t.furnaceState = true := by
    constructor
    · intro hi hon
      exact hi.not_both ⟨hf.trans hon, ha⟩
    · intro hoff
      exact hu (by simpa using hoff)
  have hoff {u : Stat} (hu : u.relays = t.relays) : (setAc w false u).relays.Interlocked :=
    (interlocked_setAc_iff (hu ▸ h₁)).mpr (.inl rfl)
  by_cases haway : t.away = true
  · by_cases hhot : t.localtemp.Above (awaymax : ℤ)
    · simp only [haway, hhot, TooHot, if_true, and_true]
      apply hclash (by simp) (by simp)
      intro hf
      exact (interlocked_setAc_iff (interlocked_setFan true h₁)).mpr (.inr (by simpa using hf))
    · simp only [haway, hhot, TooHot, if_true, if_false, and_false, not_false_eq_true, iff_true]
      split_ifs
      · exact (interlocked_setAc_iff (interlocked_setFan false h₁)).mpr (.inl rfl)
      · exact h₁
  · by_cases hhot : (getTargettemp w t).toNat < truncate w.intOfNan t.localtemp
    · simp only [haway, hhot, TooHot, if_true, if_false, and_true, Bool.false_eq_true]
      apply hclash (by simp) (by simp)
      intro hf
      exact interlocked_setFan true ((interlocked_setAc_iff (s := t.tock) h₁).mpr (.inr hf))
    · simp only [haway, hhot, TooHot, if_false, and_false, not_false_eq_true, iff_true,
        Bool.false_eq_true]
      split_ifs
      · exact interlocked_setFan false (hoff (u := t.tock.tock) rfl)
      · exact h₁

theorem interlocked_control_iff {w : World} {s : Stat} (h : s.relays.Interlocked) :
    (control w s).relays.Interlocked ↔ ¬ Collides w s := by
  have hoff : (setAc w false s).relays.Interlocked := (interlocked_setAc_iff h).mpr (.inl rfl)
  unfold control Collides
  split_ifs with hheat hcool
  · have hne : ¬ s.mode = 'c' := by rw [hheat]; decide
    simp [interlocked_heating h, hne]
  · rw [interlocked_cooling_iff_of_request h, setFurnace_false_furnaceState]
    by_cases hon : s.furnaceState = true ∧ Refuses w s
    · rw [setFurnace_refused (by simp [hon.1]) hon.2]
      simp [hcool, hon]
    · simp only [hon, false_and, not_false_eq_true, true_iff]
      intro hc
      exact hon ⟨hc.2.1, hc.2.2.1⟩
  · simp only [hcool, false_and, not_false_eq_true, iff_true]
    exact interlocked_setFan false (interlocked_setFurnace hoff (.inl rfl))

theorem interlocked_iterate_iff {w : World} {s : Stat} (it : Iteration)
    (h : s.relays.Interlocked) :
    (iterate w s it).relays.Interlocked ↔ ¬ Collides w (receive w it s) := by
  rw [iterate, finish_relays]
  exact interlocked_control_iff (by rwa [receive_relays])

theorem interlocked_setup (w : World) (sensor : Reading ℚ) (eeprom : Eeprom) (rounds : ℕ) :
    (setup w sensor eeprom rounds).relays.Interlocked := by
  refine ⟨tracked_setup .., ?_⟩
  rw [setup_relays]
  decide

/-- At no point between two relay writes of a run from `setup()` are furnace and AC both HIGH,
exactly when no control section of the run collides. -/
theorem heat_cool_apart_iff (w : World) (sensor : Reading ℚ) (eeprom : Eeprom) (rounds : ℕ)
    (its : List Iteration) :
    Always (iterate w) (fun s => NeverBoth .furnaceSCR .acSCR (writes s.log))
        (setup w sensor eeprom rounds) its ↔
      Along (iterate w) (fun s it => ¬ Collides w (receive w it s))
        (setup w sensor eeprom rounds) its := by
  have hsplit (s : Stat) (h : s.relays.Tracked) :
      NeverBoth .furnaceSCR .acSCR (writes s.log) ↔ s.relays.Interlocked :=
    ⟨fun hapart => ⟨h, hapart⟩, fun hi => hi.apart⟩
  rw [always_congr_of_step tracked_iterate hsplit (tracked_setup ..)]
  exact always_iff_along (P := fun s : Stat => s.relays.Interlocked)
    (fun _ it h => interlocked_iterate_iff it h) (interlocked_setup ..) its

section Collision

/-- At a constant 66 degrees: the furnace starts for a target of 68, then the mode and the
target are changed from the dashboard. -/
def overlapRun : List Iteration :=
  [⟨.num 66, none, 0⟩,
   ⟨.num 66, some ⟨"wyostat.hvacmode", ['c', 'o', 'o', 'l', 'i', 'n', 'g']⟩, 0⟩,
   ⟨.num 66, some ⟨"wyostat.targettemp", ['6', '0']⟩, 0⟩]

theorem overlapRun_both_high :
    stillWorld.Nondecreasing ∧
      ¬ Always (iterate stillWorld) (fun s => NeverBoth .furnaceSCR .acSCR (writes s.log))
          (setup stillWorld (.num 66) Eeprom.erased 1) overlapRun :=
  ⟨stillWorld_nondecreasing, by decide +kernel⟩

end Collision

end Wyostat.OpenThermostat
