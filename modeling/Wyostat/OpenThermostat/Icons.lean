import Wyostat.OpenThermostat.Drawings
import Wyostat.OpenThermostat.Modes
import Wyostat.Lib.Indicator

/-! The icon area. Furnace and AC share it as an indicator: whichever of them is switched off
wipes the icon of the other one, should both be on. -/
namespace Wyostat.OpenThermostat
open Machine Output Indicator

/-- The devices that have an icon. -/
inductive Plant where
  | furnace | ac
  deriving DecidableEq

def Plant.icon : Plant → Icon
  | .furnace => .fire
  | .ac => .flake

theorem Plant.cases : ∀ d : Plant, d = .furnace ∨ d = .ac
  | .furnace => .inl rfl
  | .ac => .inr rfl

/-- Furnace and AC as users of the icon area, which shows them from their first switch on. -/
def Stat.panel (s : Stat) : Panel Plant Icon where
  on
    | .furnace => s.furnaceState
    | .ac => s.acState
  shown := iconArea s.drawn
  used := switches .furnaceSCR (writes s.log) ≠ [] ∨ switches .acSCR (writes s.log) ≠ []

section Setters
variable {w : World} {s : Stat}

theorem iconArea_setFurnace {b : Bool} (hne : b ≠ s.furnaceState) (hr : ¬ Refuses w s) :
    iconArea (setFurnace w b s).drawn = if b then [.fire] else [] := by
  have ha : minChangeDuration < w.rtc s.tick - s.lastFurnaceStateChange := UInt32.not_le.mp hr
  have hstate (u : Stat) : (publishHvacState w u).furnaceState = u.furnaceState :=
    congrArg Relays.furnaceState (publishHvacState_relays w u)
  simp only [setFurnace, hne, ne_eq, not_false_eq_true, if_true, ha, iconArea_drawIcon, hstate]
  cases b <;> rfl

theorem iconArea_setAc {b : Bool} (hne : b ≠ s.acState) :
    iconArea (setAc w b s).drawn = if b then [.flake] else [] := by
  have hstate (u : Stat) : (publishHvacState w u).acState = u.acState :=
    congrArg Relays.acState (publishHvacState_relays w u)
  simp only [setAc, hne, ne_eq, not_false_eq_true, if_true, iconArea_drawIcon, hstate]
  cases b <;> rfl

theorem panel_setFurnace (h : s.relays.Tracked) (b : Bool) :
    (setFurnace w b s).panel =
      switch Plant.icon .furnace (setFurnace w b s).furnaceState s.panel := by
  by_cases hb : b = s.furnaceState
  · subst hb
    rw [setFurnace_self]
    exact (switch_self _ _ _).symm
  by_cases hr : Refuses w s
  · rw [setFurnace_refused hb hr]
    exact (switch_self _ _ s.panel).symm
  have hrel := (setFurnace_accepted hb hr).1
  have hf : (setFurnace w b s).furnaceState = b := congrArg Relays.furnaceState hrel
  have hw : writes (setFurnace w b s).log = ⟨.furnaceSCR, b, s.tick + 1⟩ :: writes s.log :=
    congrArg Relays.writes hrel
  have hlevel : b ≠ level .furnaceSCR (writes s.log) := fun he => hb (he.trans h.furnace)
  have hsw := switches_cons_self Pin.furnaceSCR (s.tick + 1) hlevel
  rw [hf]
  apply eq_switch hb hf
  · rintro (_ | _) he
    · exact absurd rfl he
    · exact setFurnace_acState ..
  · exact iconArea_setFurnace hb hr
  · simp [Stat.panel, hw, hsw]

theorem panel_setAc (h : s.relays.Tracked) (b : Bool) :
    (setAc w b s).panel = switch Plant.icon .ac b s.panel := by
  by_cases hb : b = s.acState
  · subst hb
    rw [setAc_self]
    exact (switch_self _ _ _).symm
  have hw : writes (setAc w b s).log = ⟨.acSCR, b, s.tick⟩ :: writes s.log :=
    congrArg Relays.writes (setAc_changed hb).1
  have hlevel : b ≠ level .acSCR (writes s.log) := fun he => hb (he.trans h.ac)
  have hsw := switches_cons_self Pin.acSCR s.tick hlevel
  apply eq_switch hb (setAc_acState ..)
  · rintro (_ | _) he
    · exact setAc_furnaceState ..
    · exact absurd rfl he
  · exact iconArea_setAc hb
  · simp [Stat.panel, hw, hsw]

theorem panel_setFan (b : Bool) : (setFan w b s).panel = s.panel := by
  by_cases hb : b = s.fanState
  · subst hb
    rw [setFan_self]
  have hw : writes (setFan w b s).log = ⟨.fanSCR, b, s.tick + 1⟩ :: writes s.log :=
    congrArg Relays.writes (setFan_changed hb).1
  refine Panel.ext (funext fun d => ?_) ?_ ?_
  · cases d with
    | furnace => exact setFan_furnaceState ..
    | ac => exact setFan_acState ..
  · exact congrArg iconArea (setFan_drawn w s b)
  · simp only [Stat.panel, hw]
    rw [switches_cons_of_ne (by decide), switches_cons_of_ne (by decide)]

end Setters

section Control
variable {w : World} {s : Stat}

theorem panel_heating (h : s.relays.Tracked) :
    (heating w s).panel =
      switch Plant.icon .furnace (heating w s).furnaceState
          (switch Plant.icon .ac false s.panel) := by
  have htracked := tracked_setAc (w := w) false s h
  have hpanel := panel_setAc (w := w) h false
  unfold heating
  dsimp only
  generalize setAc w false s = t at htracked hpanel ⊢
  rw [← hpanel]
  have hkeep (u : Stat) (hu : u.panel = t.panel) (c : Bool) :
      (setFan w c u).panel = switch Plant.icon .furnace (setFan w c u).furnaceState t.panel := by
    rw [panel_setFan, setFan_furnaceState, ← hu]
    exact (switch_self _ _ u.panel).symm
  have hset (u : Stat) (hr : u.relays.Tracked) (hu : u.panel = t.panel) (b c : Bool) :
      (setFan w c (setFurnace w b u)).panel =
        switch Plant.icon .furnace (setFan w c (setFurnace w b u)).furnaceState t.panel := by
    rw [panel_setFan, setFan_furnaceState, panel_setFurnace hr, hu]
  split_ifs
  · exact hset t htracked rfl true _
  · exact hset t htracked rfl false _
  · exact hkeep t rfl _
  · exact hset t.tock htracked rfl false _
  · exact hset t.tock.tock htracked rfl true _
  · exact hkeep t.tock.tock rfl _

theorem panel_cooling (h : s.relays.Tracked) :
    (cooling w s).panel =
      switch Plant.icon .ac (cooling w s).acState (setFurnace w false s).panel := by
  have hfurnace := tracked_setFurnace (w := w) false s h
  unfold cooling
  dsimp only
  generalize setFurnace w false s = t at hfurnace ⊢
  split_ifs
  · rw [panel_setAc (tracked_setFan true t hfurnace), panel_setFan, setAc_acState]
  · rw [panel_setAc (tracked_setFan false t hfurnace), panel_setFan, setAc_acState]
  · exact (switch_self _ _ t.panel).symm
  · rw [panel_setFan, setFan_acState, setAc_acState]
    exact panel_setAc (s := t.tock) hfurnace true
  · rw [panel_setFan, setFan_acState, setAc_acState]
    exact panel_setAc (s := t.tock.tock) hfurnace false
  · exact (switch_self _ _ t.tock.tock.panel).symm

theorem cooling_furnaceState (w : World) (s : Stat) :
    (cooling w s).furnaceState = (setFurnace w false s).furnaceState := by
  unfold cooling
  dsimp only
  split_ifs <;> simp

/-- The icon area goes wrong in a control section that starts with furnace and AC both on and
ends with one of them on. -/
theorem sound_control_iff (h : s.relays.Tracked) (hs : Sound Plant.icon s.panel) :
    Sound Plant.icon (control w s).panel ↔
      ¬ (s.furnaceState = true ∧ s.acState = true ∧
        (control w s).furnaceState ≠ (control w s).acState) := by
  have hstop (t : Stat) (hac : t.acState = false) (ht : t.panel =
      switch Plant.icon .furnace t.furnaceState (switch Plant.icon .ac false s.panel)) :
      Sound Plant.icon t.panel ↔
        ¬ (s.furnaceState = true ∧ s.acState = true ∧ t.furnaceState ≠ t.acState) := by
    rw [ht, sound_stop_set_iff (by decide) (fun d => (Plant.cases d).symm) hs (by simp), hac]
    change ¬ (s.acState = true ∧ s.furnaceState = true ∧ _) ↔ _
    rw [and_left_comm, ne_comm]
  unfold control
  split_ifs
  · exact hstop _ (heating_leaves w s).1 (panel_heating h)
  · rw [panel_cooling h, panel_setFurnace h, cooling_furnaceState]
    refine sound_stop_set_iff (by decide) Plant.cases hs fun hon => ?_
    exact (setFurnace_false_furnaceState w s).mp hon |>.1
  · apply hstop _ (off_leaves w s).1
    rw [panel_setFan, setFan_furnaceState, panel_setFurnace (tracked_setAc false s h),
      panel_setAc h]

end Control

/-- Heating, from the state in which the AC has been stopped, stops the furnace if the timer lets
it: at home the hour is read first. -/
def StopsFurnace (w : World) (s : Stat) : Prop :=
  if s.away then s.localtemp.Above (awaymin + hilogap / 2 : ℤ) ∧ ¬ Refuses w s
  else (getTargettemp w s).toNat - hilogap / 2 < truncate w.intOfNan s.localtemp ∧
    ¬ Refuses w s.tock

instance (w : World) (s : Stat) : Decidable (StopsFurnace w s) := by
  unfold StopsFurnace
  infer_instance

/-- The control section starts with furnace and AC on and stops exactly one of them. -/
def StopsOne (w : World) (s : Stat) : Prop :=
  s.furnaceState = true ∧ s.acState = true ∧
    if s.mode = 'h' then ¬ StopsFurnace w (setAc w false s)
    else if s.mode = 'c' then (Refuses w s ↔ TooCold w (setFurnace w false s))
    else Refuses w (setAc w false s)

instance (w : World) (s : Stat) : Decidable (StopsOne w s) := by
  unfold StopsOne
  infer_instance

section Stops
variable {w : World} {s : Stat}

theorem heating_furnaceState (hon : s.furnaceState = true) :
    (heating w s).furnaceState = true ↔ ¬ StopsFurnace w (setAc w false s) := by
  have hf : (setAc w false s).furnaceState = true := (setAc_furnaceState ..).trans hon
  unfold heating StopsFurnace
  dsimp only
  generalize setAc w false s = t at hf ⊢
  have hstop (u : Stat) (hu : u.furnaceState = true) :
      (setFurnace w false u).furnaceState = true ↔ Refuses w u := by
    rw [setFurnace_false_furnaceState, hu]
    simp
  have hstart (u : Stat) (hu : u.furnaceState = true) :
      (setFurnace w true u).furnaceState = true := by
    rw [← hu, setFurnace_self]
  by_cases haway : t.away = true
  · simp only [haway, if_true]
    split_ifs with hlow hhigh
    · have hne := hlow.not_above (d := ((awaymin + hilogap / 2 : ℤ) : ℚ))
        (by norm_num [awaymin, hilogap])
      simp only [setFan_furnaceState, hstart t hf, hne, false_and, not_false_eq_true]
    · simp only [setFan_furnaceState, hstop t hf, hhigh, true_and, not_not]
    · simp only [setFan_furnaceState, hf, hhigh, false_and, not_false_eq_true]
  · simp only [haway, if_false, Bool.false_eq_true, Stat.tock_localtemp]
    split_ifs with hhigh hlow
    · simp [hstop t.tock hf, hhigh]
    · simp [hstart t.tock.tock hf, hhigh]
    · simp [hf, hhigh]

theorem cooling_acState (hon : s.acState = true) :
    (cooling w s).acState = false ↔ TooCold w (setFurnace w false s) := by
  have ha : (setFurnace w false s).acState = true := (setFurnace_acState ..).trans hon
  unfold cooling TooCold
  dsimp only
  generalize setFurnace w false s = t at ha ⊢
  by_cases haway : t.away = true
  · simp only [haway, if_true]
    split_ifs with hhot hcold
    · have hne : ¬ t.localtemp.Below ((awaymax - hilogap : ℤ) : ℚ) := fun hlow =>
        hlow.not_above (by norm_num [awaymax, hilogap]) hhot
      simp only [setAc_acState, hne, Bool.true_eq_false]
    · simp only [setAc_acState, hcold]
    · simp only [ha, hcold, Bool.true_eq_false]
  · simp only [haway, if_false, Bool.false_eq_true, Stat.tock_localtemp]
    split_ifs with hhot hcold
    · simp [hhot]
    · simp [not_lt.mp hhot, hcold]
    · simp [ha, hcold]

theorem stopsOne_iff :
    (s.furnaceState = true ∧ s.acState = true ∧
      (control w s).furnaceState ≠ (control w s).acState) ↔ StopsOne w s := by
  refine and_congr_right fun hf => and_congr_right fun ha => ?_
  unfold control
  split_ifs with hheat hcool
  · rw [(heating_leaves w s).1, ← heating_furnaceState hf]
    simp
  · have hstop : (cooling w s).furnaceState = true ↔ Refuses w s := by
      rw [cooling_furnaceState, setFurnace_false_furnaceState, hf]
      simp
    rw [← hstop, ← cooling_acState ha]
    cases (cooling w s).furnaceState <;> cases (cooling w s).acState <;> simp
  · rw [(off_leaves w s).1, setFan_furnaceState, ne_eq, Bool.not_eq_false,
      setFurnace_false_furnaceState, setAc_furnaceState, hf]
    simp

end Stops

/-- A relay has been switched. -/
def Stat.Switched (s : Stat) : Prop := ∃ pin, switches pin (writes s.log) ≠ []

/-- The fire if only the furnace is on, the flake if only the AC is, and nothing if both are
off. -/
structure Stat.ShowsIcon (s : Stat) : Prop where
  fire : s.furnaceState = true → s.acState = false → iconArea s.drawn = [.fire]
  flake : s.furnaceState = false → s.acState = true → iconArea s.drawn = [.flake]
  off : s.furnaceState = false → s.acState = false → iconArea s.drawn = []

theorem fits_panel_iff (s : Stat) : Fits Plant.icon s.panel ↔ s.ShowsIcon := by
  constructor
  · intro h
    refine ⟨fun hf ha => ?_, fun hf ha => ?_, fun hf ha => ?_⟩
    · apply h.alone .furnace hf
      rintro (_ | _) hd
      · exact absurd rfl hd
      · exact ha
    · apply h.alone .ac ha
      rintro (_ | _) hd
      · exact hf
      · exact absurd rfl hd
    · apply h.off
      rintro (_ | _)
      · exact hf
      · exact ha
  · intro h
    refine ⟨?_, fun hoff => h.off (hoff .furnace) (hoff .ac)⟩
    rintro (_ | _) hon halone
    · exact h.fire hon (halone .ac (by decide))
    · exact h.flake (halone .furnace (by decide)) hon

section Fan
variable {w : World} {s : Stat}

/-- The state of the fan and when it was switched. -/
def Stat.fan (s : Stat) : Bool × List ℕ := (s.fanState, switches .fanSCR (writes s.log))

@[simp] theorem tock_fan : s.tock.fan = s.fan := rfl

@[simp] theorem setFurnace_fan (b : Bool) : (setFurnace w b s).fan = s.fan := by
  refine Prod.ext (setFurnace_fanState ..) ?_
  by_cases hb : b = s.furnaceState
  · rw [hb, setFurnace_self]
  by_cases hr : Refuses w s
  · rw [setFurnace_refused hb hr]
    rfl
  have hw := congrArg Relays.writes (setFurnace_accepted hb hr).1
  exact (congrArg (switches .fanSCR) hw).trans (switches_cons_of_ne (by decide) ..)

@[simp] theorem setAc_fan (b : Bool) : (setAc w b s).fan = s.fan := by
  refine Prod.ext (setAc_fanState ..) ?_
  by_cases hb : b = s.acState
  · rw [hb, setAc_self]
  have hw := congrArg Relays.writes (setAc_changed (w := w) hb).1
  exact (congrArg (switches .fanSCR) hw).trans (switches_cons_of_ne (by decide) ..)

/-- A control section that leaves the fan as it was has not switched it: it sets the fan no more
than once. -/
theorem control_fan (h : (control w s).fanState = s.fanState) : (control w s).fan = s.fan := by
  have hset (u : Stat) (b : Bool) (hu : u.fan = s.fan) (hb : (setFan w b u).fanState = s.fanState) :
      (setFan w b u).fan = s.fan := by
    have hself : b = u.fanState := by
      rw [← setFan_fanState w b u, hb]
      exact (congrArg Prod.fst hu).symm
    rw [hself, setFan_self, hu]
  unfold control at h ⊢
  split_ifs at h ⊢
  · unfold heating at h ⊢
    dsimp only at h ⊢
    split_ifs at h ⊢ <;> exact hset _ _ (by simp) h
  · unfold cooling at h ⊢
    dsimp only at h ⊢
    split_ifs at h ⊢
    · rw [setAc_fanState] at h
      exact (setAc_fan _).trans (hset _ _ (by simp) h)
    · rw [setAc_fanState] at h
      exact (setAc_fan _).trans (hset _ _ (by simp) h)
    · exact setFurnace_fan _
    · exact hset _ _ (by simp) h
    · exact hset _ _ (by simp) h
    · exact setFurnace_fan _
  · exact hset _ _ (by simp) h

theorem control_fanState (hfan : s.fanState = false) (ha : s.acState = false)
    (hf' : (control w s).furnaceState = false) (ha' : (control w s).acState = false) :
    (control w s).fanState = false := by
  unfold control at hf' ha' ⊢
  split_ifs at hf' ha' ⊢
  · rw [(heating_leaves w s).2, hf']
  · rw [(cooling_leaves w s).mpr (.inr (hfan.trans ha.symm)), ha']
  · exact (off_leaves w s).2

end Fan

/-- At the end of an iteration: no relay is switched before furnace or AC, and the icon area shows
which of them is on. -/
structure Lit (s : Stat) : Prop where
  tracked : s.relays.Tracked
  fan : s.panel.used = false → switches .fanSCR (writes s.log) = []
  sound : Sound Plant.icon s.panel

section Runs
variable {w : World} {s : Stat}

theorem panel_congr {t : Stat} (hr : t.relays = s.relays)
    (hicons : iconArea t.drawn = iconArea s.drawn) : t.panel = s.panel := by
  obtain ⟨hf, ha, -, -, hw⟩ := Stat.relays_eq hr
  rw [Stat.panel, Stat.panel, hf, ha, hw, hicons]

theorem panel_receive (it : Iteration) : (receive w it s).panel = s.panel :=
  panel_congr (receive_relays w s it) (iconArea_receive w s it)

theorem panel_finish (temp : Reading ℚ) (now : BitVec 32) : (finish w temp now s).panel = s.panel :=
  panel_congr (finish_relays w s temp now) (iconArea_finish w s temp now)

theorem off_of_unused (h : s.relays.Tracked) (hu : s.panel.used = false) :
    s.furnaceState = false ∧ s.acState = false := by
  have hswitches := of_decide_eq_false hu
  simp only [not_or, not_not] at hswitches
  constructor
  · by_contra hon
    rw [Bool.not_eq_false] at hon
    exact switches_ne_nil (h.furnace.trans hon) hswitches.1
  · by_contra hon
    rw [Bool.not_eq_false] at hon
    exact switches_ne_nil (h.ac.trans hon) hswitches.2

theorem sound_panel_iff (h : s.relays.Tracked)
    (hfan : s.panel.used = false → switches .fanSCR (writes s.log) = []) :
    Sound Plant.icon s.panel ↔ (s.Switched → s.ShowsIcon) := by
  rw [← fits_panel_iff]
  constructor
  · rintro hs ⟨pin, hpin⟩
    apply hs.fits
    by_contra hu
    rw [Bool.not_eq_true] at hu
    have hswitches := of_decide_eq_false hu
    simp only [not_or, not_not] at hswitches
    cases pin with
    | furnaceSCR => exact hpin hswitches.1
    | acSCR => exact hpin hswitches.2
    | fanSCR => exact hpin (hfan hu)
  · intro hshows
    refine ⟨fun hu => ?_, fun hu => hshows ?_⟩
    · rintro (_ | _)
      · exact (off_of_unused h hu).1
      · exact (off_of_unused h hu).2
    · rcases of_decide_eq_true hu with hf | ha
      · exact ⟨_, hf⟩
      · exact ⟨_, ha⟩

theorem used_control (h : s.relays.Tracked) (hu : (control w s).panel.used = false) :
    s.panel.used = false := by
  unfold control at hu
  split_ifs at hu
  · rw [panel_heating h] at hu
    exact used_of_switch (used_of_switch hu)
  · rw [panel_cooling h, panel_setFurnace h] at hu
    exact used_of_switch (used_of_switch hu)
  · rw [panel_setFan, panel_setFurnace (tracked_setAc false s h), panel_setAc h] at hu
    exact used_of_switch (used_of_switch hu)

theorem fan_control (h : s.relays.Tracked)
    (hfan : s.panel.used = false → switches .fanSCR (writes s.log) = [])
    (hu : (control w s).panel.used = false) : switches .fanSCR (writes (control w s).log) = [] := by
  have hunused := used_control h hu
  obtain ⟨-, ha⟩ := off_of_unused h hunused
  obtain ⟨hf', ha'⟩ := off_of_unused (tracked_control h) hu
  have hoff : s.fanState = false := by
    by_contra hon
    rw [Bool.not_eq_false] at hon
    exact switches_ne_nil (h.fan.trans hon) (hfan hunused)
  have hsame := control_fan ((control_fanState hoff ha hf' ha').trans hoff.symm)
  exact (congrArg Prod.snd hsame).trans (hfan hunused)

theorem lit_control_iff (h : Lit s) : Lit (control w s) ↔ ¬ StopsOne w s := by
  rw [← stopsOne_iff, ← sound_control_iff h.tracked h.sound]
  constructor
  · exact Lit.sound
  · exact fun hs => ⟨tracked_control h.tracked, fan_control h.tracked h.fan, hs⟩

theorem Lit.congr {t : Stat} (h : Lit s) (hr : t.relays = s.relays) (hp : t.panel = s.panel) :
    Lit t := by
  obtain ⟨-, -, -, -, hw⟩ := Stat.relays_eq hr
  exact ⟨hr ▸ h.tracked, by rw [hp, hw]; exact h.fan, hp ▸ h.sound⟩

/-- An iteration spoils the icon area exactly when its control section starts with furnace and AC
on and stops one of them. -/
theorem lit_iterate_iff (h : Lit s) (it : Iteration) :
    Lit (iterate w s it) ↔ ¬ StopsOne w (receive w it s) := by
  rw [← lit_control_iff (h.congr (receive_relays w s it) (panel_receive it))]
  constructor
  · exact fun h' => h'.congr (finish_relays ..).symm (panel_finish ..).symm
  · exact fun h' => h'.congr (finish_relays ..) (panel_finish ..)

theorem showsIcon_iterate_iff (h : Lit s) (it : Iteration) :
    ((iterate w s it).Switched → (iterate w s it).ShowsIcon) ↔ Lit (iterate w s it) := by
  have hreceive := h.congr (receive_relays w s it) (panel_receive it)
  have htracked : (iterate w s it).relays.Tracked := tracked_iterate s it h.tracked
  have hfan : (iterate w s it).panel.used = false →
      switches .fanSCR (writes (iterate w s it).log) = [] := by
    obtain ⟨-, -, -, -, hw⟩ := Stat.relays_eq (finish_relays w (control w (receive w it s))
      s.localtemp it.millis)
    rw [iterate, panel_finish, hw]
    exact fan_control hreceive.tracked hreceive.fan
  rw [← sound_panel_iff htracked hfan]
  exact ⟨fun hs => ⟨htracked, hfan, hs⟩, Lit.sound⟩

theorem lit_setup (w : World) (sensor : Reading ℚ) (eeprom : Eeprom) (rounds : ℕ) :
    Lit (setup w sensor eeprom rounds) := by
  have hrelays := setup_relays w sensor eeprom rounds
  have hw : writes (setup w sensor eeprom rounds).log =
      [⟨.acSCR, false, 0⟩, ⟨.fanSCR, false, 0⟩, ⟨.furnaceSCR, false, 0⟩] :=
    congrArg Relays.writes hrelays
  have hused : (setup w sensor eeprom rounds).panel.used = false := by
    simp only [Stat.panel, hw]
    decide
  have htracked := tracked_setup w sensor eeprom rounds
  obtain ⟨hf, ha⟩ := off_of_unused htracked hused
  refine ⟨htracked, fun _ => ?_, ⟨fun _ => ?_, fun hu => ?_⟩⟩
  · rw [hw]
    decide
  · rintro (_ | _)
    · exact hf
    · exact ha
  · rw [hused] at hu
    cases hu

end Runs

end Wyostat.OpenThermostat
