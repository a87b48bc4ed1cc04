import Wyostat.OpenThermostat.Frame
import Wyostat.OpenThermostat.Requests

/-! What each relay setter does to the relays, in full, and how far it advances time. -/
namespace Wyostat.OpenThermostat

section Effects
variable (w : World) (s : Stat)

@[simp] theorem setFurnaceState_relays (b : Bool) :
    (s.setFurnaceState b).relays = { s.relays with furnaceState := b } := rfl

@[simp] theorem setAcState_relays (b : Bool) :
    (s.setAcState b).relays = { s.relays with acState := b } := rfl

@[simp] theorem setFanState_relays (b : Bool) :
    (s.setFanState b).relays = { s.relays with fanState := b } := rfl

@[simp] theorem setLastFurnaceStateChange_relays (t : UInt32) :
    (s.setLastFurnaceStateChange t).relays = { s.relays with lastFurnaceStateChange := t } := rfl

@[simp] theorem digitalWrite_relays (pin : Pin) (level : Bool) :
    (digitalWrite pin level s).relays =
      { s.relays with writes := ⟨pin, level, s.tick⟩ :: s.relays.writes } := rfl

@[simp] theorem publishOffOn_tick (topic : String) (val : Bool) :
    (publishOffOn w topic val s).tick = s.tick + 1 := rfl

@[simp] theorem publishHvacState_tick : (publishHvacState w s).tick = s.tick + 5 := by
  simp [publishHvacState, publishBool, publishInt]

@[simp] theorem displayTemp_tick : (displayTemp w s).tick = s.tick + 2 := by
  simp [displayTemp]

@[simp] theorem drawIcon_tick (icon : Option Icon) : (drawIcon icon s).tick = s.tick := by
  cases icon <;> rfl

end Effects

section Time
variable (w : World) (s : Stat)

theorem tick_le_targettemp (temp : ℤ) : s.tick ≤ (targettemp w temp s).tick := by
  unfold targettemp
  split_ifs <;> simp
  omega

theorem tick_le_awayCb (payload : List Char) : s.tick ≤ (awayCb w payload s).tick := by
  unfold awayCb
  split_ifs <;> simp

theorem tick_le_mqttCallback (m : Msg) : s.tick ≤ (mqttCallback w m s).tick := by
  rw [mqttCallback_eq]
  split_ifs
  · exact tick_le_targettemp w s _
  · exact tick_le_awayCb w s _
  · simp [requesttempCb]
  · simp [requesttargettempCb]
  · simp [requestmodeCb]; omega
  · exact le_rfl
  · exact le_rfl

theorem tick_le_receive (it : Iteration) : s.tick ≤ (receive w it s).tick := by
  apply receive_preserves (P := fun t => s.tick ≤ t.tick)
  · intro t h
    exact h.trans (Nat.le_succ _)
  · intro t h
    exact h
  · intro t m h
    exact h.trans (tick_le_mqttCallback w t m)
  · exact le_rfl

theorem tick_le_finish (temp : Reading ℚ) (now : BitVec 32) :
    s.tick ≤ (finish w temp now s).tick := by
  have htimed (t : Stat) : t.tick ≤ (timedPublish w temp now t).tick := by
    unfold timedPublish
    dsimp only
    split_ifs <;> simp
  unfold finish
  split_ifs
  · exact le_trans (by simp) (htimed (displayTemp w s))
  · exact htimed s

end Time

/-- The minimum-change timer refuses a change asked for now. -/
def Refuses (w : World) (s : Stat) : Prop :=
  w.rtc s.tick - s.lastFurnaceStateChange ≤ minChangeDuration

instance (w : World) (s : Stat) : Decidable (Refuses w s) :=
  inferInstanceAs (Decidable (_ ≤ _))

theorem setFurnace_self (w : World) (s : Stat) : setFurnace w s.furnaceState s = s := by
  simp [setFurnace]

theorem setFurnace_refused {w : World} {state : Bool} {s : Stat} (hne : state ≠ s.furnaceState)
    (hr : Refuses w s) : setFurnace w state s = s.tock := by
  simp [setFurnace, hne, UInt32.not_lt.mpr hr]

theorem setFurnace_accepted {w : World} {state : Bool} {s : Stat}
    (hne : state ≠ s.furnaceState) (hr : ¬ Refuses w s) :
    (setFurnace w state s).relays =
        { s.relays with
          furnaceState := state
          lastFurnaceStateChange := w.rtc (s.tick + 1)
          writes := ⟨.furnaceSCR, state, s.tick + 1⟩ :: s.relays.writes } ∧
      (setFurnace w state s).tick = s.tick + 8 := by
  have ha : minChangeDuration < w.rtc s.tick - s.lastFurnaceStateChange := UInt32.not_le.mp hr
  simp only [setFurnace, hne, ne_eq, not_false_eq_true, if_true, ha]
  constructor <;> simp

theorem setAc_self (w : World) (s : Stat) : setAc w s.acState s = s := by simp [setAc]

theorem setAc_changed {w : World} {state : Bool} {s : Stat} (hne : state ≠ s.acState) :
    (setAc w state s).relays =
        { s.relays with
          acState := state
          writes := ⟨.acSCR, state, s.tick⟩ :: s.relays.writes } ∧
      (setAc w state s).tick = s.tick + 6 := by
  simp only [setAc, hne, ne_eq, not_false_eq_true, if_true]
  constructor <;> simp

theorem setFan_self (w : World) (s : Stat) : setFan w s.fanState s = s := by simp [setFan]

theorem setFan_changed {w : World} {state : Bool} {s : Stat} (hne : state ≠ s.fanState) :
    (setFan w state s).relays =
        { s.relays with
          fanState := state
          writes := ⟨.fanSCR, state, s.tick + 1⟩ :: s.relays.writes } ∧
      (setFan w state s).tick = s.tick + 1 := by
  simp only [setFan, hne, ne_eq, not_false_eq_true, if_true]
  constructor <;> simp

section States
variable (w : World) (state : Bool) (s : Stat)

@[simp] theorem setAc_acState : (setAc w state s).acState = state := by
  by_cases h : state = s.acState
  · subst h; rw [setAc_self]
  · exact congrArg Relays.acState (setAc_changed (w := w) h).1

@[simp] theorem setAc_furnaceState : (setAc w state s).furnaceState = s.furnaceState := by
  by_cases h : state = s.acState
  · subst h; rw [setAc_self]
  · exact congrArg Relays.furnaceState (setAc_changed (w := w) h).1

@[simp] theorem setAc_fanState : (setAc w state s).fanState = s.fanState := by
  by_cases h : state = s.acState
  · subst h; rw [setAc_self]
  · exact congrArg Relays.fanState (setAc_changed (w := w) h).1

@[simp] theorem setFan_fanState : (setFan w state s).fanState = state := by
  by_cases h : state = s.fanState
  · subst h; rw [setFan_self]
  · exact congrArg Relays.fanState (setFan_changed (w := w) h).1

@[simp] theorem setFan_furnaceState : (setFan w state s).furnaceState = s.furnaceState := by
  by_cases h : state = s.fanState
  · subst h; rw [setFan_self]
  · exact congrArg Relays.furnaceState (setFan_changed (w := w) h).1

@[simp] theorem setFan_acState : (setFan w state s).acState = s.acState := by
  by_cases h : state = s.fanState
  · subst h; rw [setFan_self]
  · exact congrArg Relays.acState (setFan_changed (w := w) h).1

@[simp] theorem setFurnace_acState : (setFurnace w state s).acState = s.acState := by
  by_cases h : state = s.furnaceState
  · subst h; rw [setFurnace_self]
  · by_cases hr : Refuses w s
    · rw [setFurnace_refused h hr]; rfl
    · exact congrArg Relays.acState (setFurnace_accepted h hr).1

@[simp] theorem setFurnace_fanState : (setFurnace w state s).fanState = s.fanState := by
  by_cases h : state = s.furnaceState
  · subst h; rw [setFurnace_self]
  · by_cases hr : Refuses w s
    · rw [setFurnace_refused h hr]; rfl
    · exact congrArg Relays.fanState (setFurnace_accepted h hr).1

/-- After a switch-off the furnace runs on exactly when it ran and the timer refused. -/
theorem setFurnace_false_furnaceState :
    (setFurnace w false s).furnaceState = true ↔ s.furnaceState = true ∧ Refuses w s := by
  by_cases h : false = s.furnaceState
  · rw [h, setFurnace_self, ← h]; simp
  · have hon : s.furnaceState = true := by simpa using Ne.symm h
    by_cases hr : Refuses w s
    · rw [setFurnace_refused h hr]; simp [hon, hr]
    · have he := congrArg Relays.furnaceState (setFurnace_accepted h hr).1
      change (setFurnace w false s).furnaceState = false at he
      simp [he, hr]

end States

theorem control_preserves {w : World} {P : Stat → Prop} (htock : ∀ s, P s → P s.tock)
    (hfurnace : ∀ b s, P s → P (setFurnace w b s)) (hac : ∀ b s, P s → P (setAc w b s))
    (hfan : ∀ b s, P s → P (setFan w b s)) {s : Stat} (hs : P s) : P (control w s) := by
  have hstep (s : Stat) (r : Request) (h : P s) : P (perform w s r) := by
    cases r with
    | hour => exact htock s h
    | furnace b => exact hfurnace b s h
    | ac b => exact hac b s h
    | fan b => exact hfan b s h
    | fanAsFurnace => exact hfan s.furnaceState s h
  rw [control_eq_run]
  exact (Machine.always_of_step hstep hs _).last

@[simp] theorem control_settings (w : World) (s : Stat) :
    (control w s).settings = s.settings :=
  control_preserves (P := fun t => t.settings = s.settings) (fun _ h => h)
    (fun b t h => (setFurnace_settings w t b).trans h) (fun b t h => (setAc_settings w t b).trans h)
    (fun b t h => (setFan_settings w t b).trans h) rfl

theorem iterate_settings (w : World) (s : Stat) (it : Iteration) :
    (iterate w s it).settings = (receive w it s).settings := by
  rw [iterate, finish_settings, control_settings]

section Outputs
open Output

/-- Every output shows its state variable. -/
structure Relays.Tracked (r : Relays) : Prop where
  furnace : level .furnaceSCR r.writes = r.furnaceState
  ac : level .acSCR r.writes = r.acState
  fan : level .fanSCR r.writes = r.fanState

variable {w : World}

theorem tracked_setFurnace (b : Bool) (s : Stat) (h : s.relays.Tracked) :
    (setFurnace w b s).relays.Tracked := by
  by_cases hb : b = s.furnaceState
  · subst hb; rwa [setFurnace_self]
  · by_cases hr : Refuses w s
    · rwa [setFurnace_refused hb hr]
    · rw [(setFurnace_accepted hb hr).1]
      exact ⟨level_cons_self .., (level_cons_of_ne (by decide) ..).trans h.ac,
        (level_cons_of_ne (by decide) ..).trans h.fan⟩

theorem tracked_setAc (b : Bool) (s : Stat) (h : s.relays.Tracked) :
    (setAc w b s).relays.Tracked := by
  by_cases hb : b = s.acState
  · subst hb; rwa [setAc_self]
  · rw [(setAc_changed hb).1]
    exact ⟨(level_cons_of_ne (by decide) ..).trans h.furnace, level_cons_self ..,
      (level_cons_of_ne (by decide) ..).trans h.fan⟩

theorem tracked_setFan (b : Bool) (s : Stat) (h : s.relays.Tracked) :
    (setFan w b s).relays.Tracked := by
  by_cases hb : b = s.fanState
  · subst hb; rwa [setFan_self]
  · rw [(setFan_changed hb).1]
    exact ⟨(level_cons_of_ne (by decide) ..).trans h.furnace,
      (level_cons_of_ne (by decide) ..).trans h.ac, level_cons_self ..⟩

theorem tracked_control {s : Stat} (h : s.relays.Tracked) : (control w s).relays.Tracked :=
  control_preserves (P := fun s => s.relays.Tracked) (fun _ h => h) tracked_setFurnace
    tracked_setAc tracked_setFan h

theorem tracked_iterate (s : Stat) (it : Iteration) (h : s.relays.Tracked) :
    (iterate w s it).relays.Tracked := by
  rw [iterate, finish_relays]
  exact tracked_control (by rwa [receive_relays])

@[simp] theorem announce_relays (w : World) (s : Stat) : (announce w s).relays = s.relays := by
  simp [announce]

@[simp] theorem mqttConnect_relays (w : World) (rounds : ℕ) (s : Stat) :
    (mqttConnect w rounds s).relays = s.relays :=
  mqttConnect_preserves (P := fun t => t.relays = s.relays)
    (fun t h => (announce_relays w (t.setConnected true)).trans h) rfl rounds

@[simp] theorem setup_relays (w : World) (sensor : Reading ℚ) (eeprom : Eeprom) (rounds : ℕ) :
    (setup w sensor eeprom rounds).relays =
      ⟨false, false, false, 0,
        [⟨.acSCR, false, 0⟩, ⟨.fanSCR, false, 0⟩, ⟨.furnaceSCR, false, 0⟩]⟩ := by
  have hinit : (powerUp eeprom).relays = ⟨false, false, false, 0, []⟩ := rfl
  have htick : (powerUp eeprom).tick = 0 := rfl
  simp [setup, testIcons, setupDisplay, loadSettings, setupPins, hinit, htick]

theorem tracked_setup (w : World) (sensor : Reading ℚ) (eeprom : Eeprom) (rounds : ℕ) :
    (setup w sensor eeprom rounds).relays.Tracked := by
  rw [setup_relays]
  exact ⟨by decide, by decide, by decide⟩

end Outputs

end Wyostat.OpenThermostat
