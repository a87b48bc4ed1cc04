import Wyostat.OpenThermostat.AirFlow
import Wyostat.OpenThermostat.Dwell
import Wyostat.OpenThermostat.Interlock

/-! What each mode leaves behind. The relay a mode forbids is off or waits for its timer; the fan
that heating leaves on stays on when cooling starts with nothing to do. -/
namespace Wyostat.OpenThermostat
open Machine Output

/-- Cooling finds the house neither too hot nor too cold. -/
def Content (w : World) (s : Stat) : Prop := ¬ TooHot w s ∧ ¬ TooCold w s

instance (w : World) (s : Stat) : Decidable (Content w s) := inferInstanceAs (Decidable (_ ∧ _))

section Branches
variable (w : World) (s : Stat)

@[simp] theorem setAc_lastFurnaceStateChange (b : Bool) :
    (setAc w b s).lastFurnaceStateChange = s.lastFurnaceStateChange := by
  by_cases h : b = s.acState
  · subst h; rw [setAc_self]
  · exact congrArg Relays.lastFurnaceStateChange (setAc_changed (w := w) h).1

@[simp] theorem setFan_lastFurnaceStateChange (b : Bool) :
    (setFan w b s).lastFurnaceStateChange = s.lastFurnaceStateChange := by
  by_cases h : b = s.fanState
  · subst h; rw [setFan_self]
  · exact congrArg Relays.lastFurnaceStateChange (setFan_changed (w := w) h).1

theorem heating_leaves :
    (heating w s).acState = false ∧ (heating w s).fanState = (heating w s).furnaceState := by
  unfold heating
  dsimp only
  split_ifs <;> simp

theorem off_leaves :
    (setFan w false (setFurnace w false (setAc w false s))).acState = false ∧
      (setFan w false (setFurnace w false (setAc w false s))).fanState = false := by simp

theorem cooling_leaves :
    (cooling w s).fanState = (cooling w s).acState ↔
      ¬ Content w (setFurnace w false s) ∨ s.fanState = s.acState := by
  have hfan : (setFurnace w false s).fanState = s.fanState := setFurnace_fanState ..
  have hac : (setFurnace w false s).acState = s.acState := setFurnace_acState ..
  unfold cooling Content TooHot TooCold
  dsimp only
  generalize setFurnace w false s = t at hfan hac ⊢
  by_cases haway : t.away = true
  · simp only [haway, if_true]
    split_ifs with hhot hcold <;> simp_all
  · simp only [haway, if_false, Bool.false_eq_true, Stat.tock_localtemp]
    split_ifs with hhot hcold
    · simp [hhot]
    · simp [not_lt.mp hhot, hcold]
    · simp [hhot, hcold, hfan, hac]

end Branches

/-- What the end of an iteration shows of its mode. -/
structure Stat.Settled (s : Stat) : Prop where
  ac : s.mode ≠ 'c' → s.acState = false
  heat : s.mode = 'h' → s.fanState = s.furnaceState
  off : s.mode ≠ 'h' → s.mode ≠ 'c' → s.fanState = false

theorem Stat.mode_eq {s t : Stat} (h : s.settings = t.settings) : s.mode = t.mode :=
  congrArg (·[0]) (Stat.settings_eq h).2.2.2

theorem Stat.Settled.of_eq {s t : Stat} (h : s.Settled) (hr : t.relays = s.relays)
    (hm : t.mode = s.mode) : t.Settled := by
  obtain ⟨hf, ha, hn, -⟩ := Stat.relays_eq hr
  exact ⟨fun hc => ha.trans (h.ac (hm ▸ hc)), fun hc => by rw [hn, hf, h.heat (hm ▸ hc)],
    fun hh hc => hn.trans (h.off (hm ▸ hh) (hm ▸ hc))⟩

theorem settled_control (w : World) (s : Stat) : (control w s).Settled := by
  have hmode : (control w s).mode = s.mode := Stat.mode_eq (control_settings w s)
  unfold control at hmode ⊢
  split_ifs at hmode ⊢ with hheat hcool
  · obtain ⟨hac, hfan⟩ := heating_leaves w s
    exact ⟨fun _ => hac, fun _ => hfan, fun hne => absurd (hmode.trans hheat) hne⟩
  · have hcooling := hmode.trans hcool
    refine ⟨fun hne => absurd hcooling hne, fun h => ?_, fun _ hne => absurd hcooling hne⟩
    rw [hcooling] at h
    exact absurd h (by decide)
  · obtain ⟨hac, hfan⟩ := off_leaves w s
    exact ⟨fun _ => hac, fun h => absurd (hmode.symm.trans h) hheat, fun _ _ => hfan⟩

theorem iterate_mode (w : World) (s : Stat) (it : Iteration) :
    (iterate w s it).mode = (receive w it s).mode := Stat.mode_eq (iterate_settings w s it)

theorem settled_iterate (w : World) (s : Stat) (it : Iteration) : (iterate w s it).Settled :=
  (settled_control w (receive w it s)).of_eq (finish_relays ..) (Stat.mode_eq (finish_settings ..))

theorem settled_setup (w : World) (sensor : Reading ℚ) (eeprom : Eeprom) (rounds : ℕ) :
    (setup w sensor eeprom rounds).Settled := by
  have h := setup_relays w sensor eeprom rounds
  have hf : (setup w sensor eeprom rounds).furnaceState = false := congrArg Relays.furnaceState h
  have ha : (setup w sensor eeprom rounds).acState = false := congrArg Relays.acState h
  have hn : (setup w sensor eeprom rounds).fanState = false := congrArg Relays.fanState h
  exact ⟨fun _ => ha, fun _ => hn.trans hf.symm, fun _ _ => hn⟩

section CoolingFan
variable {w : World} {s : Stat}

/-- Cooling is entered from heating while the furnace runs, and is content. -/
def Enters (w : World) (s : Stat) (it : Iteration) : Prop :=
  s.mode = 'h' ∧ s.furnaceState = true ∧ (receive w it s).mode = 'c' ∧
    Content w (setFurnace w false (receive w it s))

instance (w : World) (s : Stat) (it : Iteration) : Decidable (Enters w s it) :=
  inferInstanceAs (Decidable (_ ∧ _ ∧ _ ∧ _))

/-- While cooling, the fan runs if and only if the AC does. -/
def Stat.Matched (s : Stat) : Prop := s.mode = 'c' → s.fanState = s.acState

instance (s : Stat) : Decidable s.Matched := inferInstanceAs (Decidable (_ → _))

/-- Only heating with the furnace on ends with a fan that does not match the AC. -/
theorem fanState_eq_acState_iff (hs : s.Settled) (hm : s.Matched) :
    s.fanState = s.acState ↔ ¬ (s.mode = 'h' ∧ s.furnaceState = true) := by
  by_cases hheat : s.mode = 'h'
  · have hne : s.mode ≠ 'c' := by
      rw [hheat]
      decide
    rw [hs.heat hheat, hs.ac hne]
    simp [hheat]
  · simp only [hheat, false_and, not_false_eq_true, iff_true]
    by_cases hcool : s.mode = 'c'
    · exact hm hcool
    · rw [hs.off hheat hcool, hs.ac hcool]

theorem matched_iterate_iff (it : Iteration) (hs : s.Settled) (hm : s.Matched) :
    (iterate w s it).Matched ↔ ¬ Enters w s it := by
  obtain ⟨-, ha, hn, -⟩ := Stat.relays_eq (receive_relays w s it)
  obtain ⟨-, ha', hn', -⟩ :=
    Stat.relays_eq (finish_relays w (control w (receive w it s)) s.localtemp it.millis)
  have hfinish : (iterate w s it).fanState = (iterate w s it).acState ↔
      (control w (receive w it s)).fanState = (control w (receive w it s)).acState := by
    rw [iterate, ha', hn']
  rw [Stat.Matched, iterate_mode, hfinish]
  by_cases hcool : (receive w it s).mode = 'c'
  · have hheat : (receive w it s).mode ≠ 'h' := by
      rw [hcool]
      decide
    rw [control, if_neg hheat, if_pos hcool, cooling_leaves, hn, ha, fanState_eq_acState_iff hs hm]
    simp only [Enters, hcool, forall_true_left, true_and]
    rw [← not_and_or, and_comm, and_assoc]
  · simp [Enters, hcool]

/-- At the end of every iteration of a run from `setup()` that ends in cooling mode the fan
matches the AC, exactly when no iteration of the run enters cooling content, from heating with
the furnace on. -/
theorem cooling_fan_matches_iff (w : World) (sensor : Reading ℚ) (eeprom : Eeprom) (rounds : ℕ)
    (its : List Iteration) :
    Always (iterate w) (fun s => s.mode = 'c' → s.fanState = s.acState)
        (setup w sensor eeprom rounds) its ↔
      Along (iterate w) (fun s it => ¬ Enters w s it) (setup w sensor eeprom rounds) its := by
  have hsetup := settled_setup w sensor eeprom rounds
  have hmatched : (setup w sensor eeprom rounds).Matched := by
    have h := setup_relays w sensor eeprom rounds
    exact fun _ => (congrArg Relays.fanState h).trans (congrArg Relays.acState h).symm
  have hboth (s : Stat) (hs : s.Settled) : s.Matched ↔ s.Settled ∧ s.Matched :=
    (and_iff_right hs).symm
  change Always (iterate w) Stat.Matched _ _ ↔ _
  rw [always_congr_of_step (fun s it _ => settled_iterate w s it) hboth hsetup]
  apply always_iff_along _ ⟨hsetup, hmatched⟩
  intro s it h
  rw [and_iff_right (settled_iterate w s it)]
  exact matched_iterate_iff it h.1 h.2

/-- The furnace starts at 60 degrees for a target of 68; cooling starts at 66 degrees. -/
def contentRun : List Iteration :=
  [⟨.num 60, none, 0⟩, ⟨.num 66, some ⟨"wyostat.hvacmode", ['c', 'o', 'o', 'l']⟩, 0⟩]

theorem contentRun_mismatched :
    tickingWorld.Nondecreasing ∧
      ¬ Always (iterate tickingWorld) (fun s => s.mode = 'c' → s.fanState = s.acState)
        (setup tickingWorld (.num 60) Eeprom.erased 1) contentRun :=
  ⟨tickingWorld_nondecreasing, by decide +kernel⟩

end CoolingFan

section Forbidden
variable {w : World} {s : Stat}

/-- The state in which a control section that does not heat asks the furnace to stop. -/
def atStop (w : World) (s : Stat) : Stat := if s.mode = 'c' then s else setAc w false s

theorem dwells_atStop (h : Dwells w s) : Dwells w (atStop w s) := by
  unfold atStop
  split_ifs
  · exact h
  · exact dwells_setAc false s h

theorem control_furnace (hheat : s.mode ≠ 'h') :
    (control w s).furnaceState = (setFurnace w false (atStop w s)).furnaceState ∧
      (control w s).lastFurnaceStateChange =
        (setFurnace w false (atStop w s)).lastFurnaceStateChange := by
  rw [control, if_neg hheat, atStop]
  by_cases hcool : s.mode = 'c'
  · rw [if_pos hcool, if_pos hcool, cooling]
    dsimp only
    split_ifs <;> simp
  · rw [if_neg hcool, if_neg hcool]
    simp

/-- When the furnace was last switched. -/
def furnaceSwitched (s : Stat) : Option ℕ := (switches .furnaceSCR (writes s.log)).head?

theorem furnaceSwitched_of_on (h : Dwells w s) (hon : s.furnaceState = true) :
    ∃ t ∈ furnaceSwitched s, s.lastFurnaceStateChange = w.rtc t ∧ t < s.tick := by
  have hne := switches_ne_nil (h.shown.trans hon)
  have hhead : _ ∈ furnaceSwitched s := List.head_mem_head? hne
  exact ⟨_, hhead, h.last _ hhead⟩

/-- A furnace that runs on without heating has been refused its stop within the minute. -/
theorem stop_refused (hw : w.Nondecreasing) {t : Stat} (hs : Dwells w s) (ht : Dwells w t)
    (hheat : s.mode ≠ 'h') (hr : t.relays = (control w s).relays) (hon : t.furnaceState = true) :
    ∃ k ∈ furnaceSwitched t, w.rtc k ≤ w.rtc (atStop w s).tick ∧
      (w.rtc (atStop w s).tick).toNat ≤ (w.rtc k).toNat + minChangeDuration.toNat := by
  obtain ⟨hf, -, -, hl, -⟩ := Stat.relays_eq hr
  obtain ⟨hfurnace, hlast⟩ := control_furnace (w := w) hheat
  have hstop : (atStop w s).furnaceState = true ∧ Refuses w (atStop w s) := by
    rw [← setFurnace_false_furnaceState, ← hfurnace, ← hf]
    exact hon
  rw [setFurnace_refused (by simp [hstop.1]) hstop.2] at hlast
  obtain ⟨k, hk, hkt, -⟩ := furnaceSwitched_of_on ht hon
  obtain ⟨j, -, hj, hlt⟩ := furnaceSwitched_of_on (dwells_atStop hs) hstop.1
  have hkj : w.rtc k = w.rtc j := by
    rw [← hkt, ← hj]
    exact hl.trans hlast
  have hle : w.rtc k ≤ w.rtc (atStop w s).tick := hkj ▸ hw hlt.le
  refine ⟨k, hk, hle, ?_⟩
  have hrefuses : w.rtc (atStop w s).tick - w.rtc k ≤ minChangeDuration := by
    rw [hkj, ← hj]
    exact hstop.2
  rw [UInt32.le_iff_toNat_le, UInt32.toNat_sub_of_le _ _ hle] at hrefuses
  omega

/-- In every run between two boots on a clock that does not run backwards, every iteration that
does not end in cooling mode ends with the AC off, and one that does not end in heating mode
ends with the furnace off or has asked it to stop no more than `minChangeDuration` seconds after
it was last switched. -/
theorem forbidden_relay_off_or_timed {w : World} (hw : w.Nondecreasing) (sensor : Reading ℚ)
    (eeprom : Eeprom) (rounds : ℕ) (its : List Iteration) :
    Along (iterate w)
      (fun s it =>
        ((iterate w s it).mode ≠ 'c' → (iterate w s it).acState = false ∧
          level .acSCR (writes (iterate w s it).log) = false) ∧
        ((iterate w s it).mode ≠ 'h' → (iterate w s it).furnaceState = true →
          ∃ k ∈ furnaceSwitched (iterate w s it),
            w.rtc k ≤ w.rtc (atStop w (receive w it s)).tick ∧
            (w.rtc (atStop w (receive w it s)).tick).toNat ≤
              (w.rtc k).toNat + minChangeDuration.toNat))
      (setup w sensor eeprom rounds) its := by
  apply along_of_step (P := fun s => s.relays.Tracked ∧ Dwells w s)
  · intro s it h
    exact ⟨tracked_iterate s it h.1, dwells_iterate hw s it h.2⟩
  · rintro s it ⟨htracked, hdwells⟩
    constructor
    · intro hcool
      have hac := (settled_iterate w s it).ac hcool
      exact ⟨hac, (tracked_iterate s it htracked).ac.trans hac⟩
    · intro hheat hon
      rw [iterate_mode] at hheat
      have hreceive := hdwells.of_relays (receive_relays w s it) (tick_le_receive w s it)
      exact stop_refused hw hreceive (dwells_iterate hw s it hdwells) hheat (finish_relays ..) hon
  · exact ⟨tracked_setup .., dwells_setup ..⟩

/-- The furnace starts at 60 degrees and is refused its stop when the thermostat is switched
off. -/
theorem forbidden_relay_off_or_timed_stifledRun :
    (run (iterate stillWorld) (setup stillWorld (.num 60) Eeprom.erased 1)
      stifledRun).furnaceState = true ∧
    Along (iterate stillWorld)
      (fun s it =>
        ((iterate stillWorld s it).mode ≠ 'c' → (iterate stillWorld s it).acState = false ∧
          level .acSCR (writes (iterate stillWorld s it).log) = false) ∧
        ((iterate stillWorld s it).mode ≠ 'h' → (iterate stillWorld s it).furnaceState = true →
          ∃ k ∈ furnaceSwitched (iterate stillWorld s it),
            stillWorld.rtc k ≤ stillWorld.rtc (atStop stillWorld (receive stillWorld it s)).tick ∧
            (stillWorld.rtc (atStop stillWorld (receive stillWorld it s)).tick).toNat ≤
              (stillWorld.rtc k).toNat + minChangeDuration.toNat))
      (setup stillWorld (.num 60) Eeprom.erased 1) stifledRun :=
  ⟨by decide +kernel, forbidden_relay_off_or_timed stillWorld_nondecreasing ..⟩

end Forbidden

end Wyostat.OpenThermostat
