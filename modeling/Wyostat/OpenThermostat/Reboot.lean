import Wyostat.OpenThermostat.Reports

/-! A reboot of the OpenThermostat sketch: `away` is loaded again, the targets are stored but
never loaded. -/
namespace Wyostat.OpenThermostat
open Machine Replica

/-- The globals go back to their initial values, the EEPROM is kept, `loadSettings()` runs. -/
def reboot (s : Stat) : Stat := loadSettings (powerUp s.eeprom)

/-- The settings of `s` are found again after a reboot, the target at the same hour. -/
structure Survives (s : Stat) : Prop where
  away : (reboot s).away = s.away
  target : ∀ w w' : World, w'.hours (reboot s).tick = w.hours s.tick →
    getTargettemp w' (reboot s) = getTargettemp w s

def message (w : World) (s : Stat) (m : Msg) : Stat := mqttCallback w m s

/-- The slot a message stores a target in, if it stores one, and that target. -/
def stored (w : World) (s : Stat) (m : Msg) : List (Fin 2 × UInt8) :=
  match acceptedTarget m with
  | some v => if v = getTargettemp w s then [] else [(getTargetIndex w s.tock, v)]
  | none => []

/-- The targets at power-up. -/
def initialTargettemps : Fin 2 → UInt8 := (powerUp Eeprom.erased).targettemps

section Targets

theorem reboot_targettemps (s : Stat) : (reboot s).targettemps = initialTargettemps := rfl

theorem message_targettemps (w : World) (s : Stat) (m : Msg) (i : Fin 2) :
    (message w s m).targettemps i = (latest i (stored w s m)).getD (s.targettemps i) := by
  rw [message, mqttCallback_targettemps, stored]
  cases acceptedTarget m with
  | none => rfl
  | some v => exact editTarget_eq_latest w v s i

theorem exists_slotOf : ∀ i : Fin 2, ∃ hh, slotOf hh = i
  | 0 => ⟨0, rfl⟩
  | 1 => ⟨12, rfl⟩

theorem target_survives_iff (s : Stat) :
    (∀ w w' : World, w'.hours (reboot s).tick = w.hours s.tick →
      getTargettemp w' (reboot s) = getTargettemp w s) ↔
      ∀ i, s.targettemps i = initialTargettemps i := by
  constructor
  · intro h i
    obtain ⟨hh, rfl⟩ := exists_slotOf i
    exact (h ⟨0, fun _ => hh, fun _ => true, 0⟩ ⟨0, fun _ => hh, fun _ => true, 0⟩ rfl).symm
  · intro h w w' hhours
    rw [getTargettemp, getTargettemp, getTargetIndex, getTargetIndex, hhours, reboot_targettemps]
    exact (h _).symm

end Targets

section Away

/-- The cell of `away` holds its value, in the encoding in which it is loaded. -/
def AwayStored (s : Stat) : Prop := (reboot s).away = s.away

theorem AwayStored.frame {s t : Stat} (h : AwayStored s) (haway : t.away = s.away)
    (hcell : t.eeprom awayAddr = s.eeprom awayAddr) : AwayStored t := by
  change (t.eeprom awayAddr ≠ 255 && t.eeprom awayAddr ≠ 0 : Bool) = t.away
  rw [hcell, haway]
  exact h

theorem awayStored_targettemp (w : World) (temp : ℤ) {s : Stat} (h : AwayStored s) :
    AwayStored (targettemp w temp s) := by
  apply h.frame (targettemp_away w temp s)
  have haddr : awayAddr ≠ targettempAddr := by decide
  unfold targettemp
  split_ifs
  · simp [displayTemp, Eeprom.write, Function.update_of_ne haddr]
  · rfl
  · rfl

theorem awayStored_awayCb (w : World) (payload : List Char) {s : Stat} (h : AwayStored s) :
    AwayStored (awayCb w payload s) := by
  unfold awayCb
  split_ifs
  · have hcell : ∀ b : Bool, AwayStored (eepromWrite awayAddr (if b then 1 else 0)
        (s.setAway b)) := by
      intro b
      change (Function.update s.eeprom awayAddr _ awayAddr ≠ 255 &&
        Function.update s.eeprom awayAddr _ awayAddr ≠ 0 : Bool) = b
      rw [Function.update_self]
      cases b <;> rfl
    exact (hcell (bytes2bool payload)).frame (by simp [displayTemp]) (by simp [displayTemp])
  · exact h

theorem awayStored_publishHvacState (w : World) {s : Stat} (h : AwayStored s) :
    AwayStored (publishHvacState w s) :=
  h.frame (congrArg Settings.away (publishHvacState_settings w s))
    (by simp [publishHvacState, publishBool, publishInt])

theorem awayStored_message (w : World) (s : Stat) (m : Msg) (h : AwayStored s) :
    AwayStored (message w s m) := by
  rw [message, mqttCallback_eq]
  split_ifs
  · exact awayStored_targettemp w _ h
  · exact awayStored_awayCb w _ h
  · exact awayStored_publishHvacState w h
  · exact awayStored_publishHvacState w h
  · exact awayStored_publishHvacState w (h.frame rfl rfl)
  · exact h
  · exact h

end Away

/-- After any messages from an erased EEPROM the settings survive a reboot exactly when in
every slot the last target stored, if there is one, is the one the slot had at power-up. -/
theorem settings_survive_reboot_iff (w : World) (ms : List Msg) :
    Survives (run (message w) (loadSettings (powerUp Eeprom.erased)) ms) ↔
      ∀ i, (latest i (outputs (message w) (stored w)
        (loadSettings (powerUp Eeprom.erased)) ms)).getD (initialTargettemps i) =
          initialTargettemps i := by
  have hboot : AwayStored (loadSettings (powerUp Eeprom.erased)) := rfl
  have haway := (always_of_step (awayStored_message w) hboot ms).last
  have htargets (i : Fin 2) :
      (run (message w) (loadSettings (powerUp Eeprom.erased)) ms).targettemps i =
        (latest i (outputs (message w) (stored w)
          (loadSettings (powerUp Eeprom.erased)) ms)).getD (initialTargettemps i) :=
    latest_run Stat.targettemps (stored w) (I := fun _ => True) (fun _ _ _ => trivial)
      (fun s m k _ => message_targettemps w s m k) trivial ms i
  constructor
  · intro h i
    rw [← htargets]
    exact (target_survives_iff _).mp h.target i
  · intro h
    refine ⟨haway, (target_survives_iff _).mpr fun i => ?_⟩
    rw [htargets]
    exact h i

/-- A target of 70 set at noon is 68 again after a reboot. -/
theorem target_70_forgotten :
    ¬ Survives (run (message stillWorld) (loadSettings (powerUp Eeprom.erased))
      [⟨"wyostat.targettemp", ['7', '0']⟩]) := by
  intro h
  have hslots := (target_survives_iff _).mp h.target
  revert hslots
  decide +kernel

end Wyostat.OpenThermostat
