import Wyostat.MqttStat.SetPoints

/-! The cells of the mqtt_stat sketch always give its set-points back: a cell that was never
written stands for the default, and whatever is written fits a byte other than 255. -/
namespace Wyostat.MqttStat
open Machine

/-- The globals go back to their initial values, the EEPROM is kept, `loadSettings()` runs. -/
def reboot (s : Stat) : Stat := loadSettings (powerUp s.eeprom)

/-- The cells stand for the set-points. -/
structure Stat.Saved (s : Stat) : Prop where
  lo : loadSetting s.eeprom settemploAddr defaultSettemplo = s.settemplo
  hi : loadSetting s.eeprom settemphiAddr defaultSettemphi = s.settemphi

/-- Besides, both set-points are in range. -/
structure Stat.Stored (s : Stat) : Prop extends s.Saved where
  loInRange : InRange s.settemplo
  hiInRange : InRange s.settemphi

section Cells
variable {e : Eeprom} {addr : ℕ} {temp default : ℤ}

theorem loadSetting_write_self (h : InRange temp) :
    loadSetting (e.write addr temp) addr default = temp := by
  obtain ⟨hlo, hhi⟩ := h
  simp only [lowestTemp, highestTemp] at hlo hhi
  have hfit : ((UInt8.ofInt temp).toNat : ℤ) = temp := toNat_ofInt_of_mem (by omega) (by omega)
  have hwritten : UInt8.ofInt temp ≠ 255 := by
    intro h
    rw [h] at hfit
    have h255 : ((255 : UInt8).toNat : ℤ) = 255 := rfl
    omega
  rw [loadSetting, Eeprom.write, Function.update_self, if_neg hwritten, hfit]

theorem loadSetting_write_of_ne {other : ℕ} (h : addr ≠ other) :
    loadSetting (e.write other temp) addr default = loadSetting e addr default := by
  rw [loadSetting, Eeprom.write, Function.update_of_ne h]
  rfl

end Cells

section Messages
variable {s : Stat}

theorem saved_settemplo (temp : ℤ) (h : s.Saved) : (settemplo temp s).Saved :=
  setTemp_preserves (P := Stat.Saved) h fun hr =>
    ⟨loadSetting_write_self hr, (loadSetting_write_of_ne (by decide)).trans h.hi⟩

theorem saved_settemphi (temp : ℤ) (h : s.Saved) : (settemphi temp s).Saved :=
  setTemp_preserves (P := Stat.Saved) h fun hr =>
    ⟨(loadSetting_write_of_ne (by decide)).trans h.lo, loadSetting_write_self hr⟩

theorem saved_mqttCallback (w : World) (h : s.Saved) (m : Msg) : (mqttCallback w s m).Saved :=
  mqttCallback_preserves w s (fun temp _ => saved_settemplo temp)
    (fun temp _ => saved_settemphi temp) (fun _ _ _ ht => ⟨ht.lo, ht.hi⟩) m h

theorem inRange_mqttCallback (w : World) (m : Msg)
    (h : InRange s.settemplo ∧ InRange s.settemphi) :
    InRange (mqttCallback w s m).settemplo ∧ InRange (mqttCallback w s m).settemphi := by
  rw [mqttCallback_settemplo, mqttCallback_settemphi]
  constructor
  · split_ifs with hlo
    · exact hlo.2
    · exact h.1
  · split_ifs with hhi
    · exact hhi.2
    · exact h.2

theorem stored_mqttCallback (w : World) (s : Stat) (m : Msg) (h : s.Stored) :
    (mqttCallback w s m).Stored := by
  have hrange := inRange_mqttCallback w m ⟨h.loInRange, h.hiInRange⟩
  exact ⟨saved_mqttCallback w h.toSaved m, hrange.1, hrange.2⟩

theorem stored_loadSettings_erased : (loadSettings (powerUp Eeprom.erased)).Stored :=
  ⟨⟨rfl, rfl⟩, by decide, by decide⟩

end Messages

/-- From `loadSettings()` on erased EEPROM and through any messages both set-points stay strictly
between the bounds, and a reboot restores exactly them. -/
theorem setpoints_in_range_and_survive (w : World) (msgs : List Msg) :
    Always (mqttCallback w)
      (fun s => (lowestTemp < s.settemplo ∧ s.settemplo < highestTemp) ∧
        (lowestTemp < s.settemphi ∧ s.settemphi < highestTemp) ∧
        (reboot s).settemplo = s.settemplo ∧ (reboot s).settemphi = s.settemphi)
      (loadSettings (powerUp Eeprom.erased)) msgs :=
  (always_of_step (stored_mqttCallback w) stored_loadSettings_erased msgs).mono
    fun _ h => ⟨h.loInRange, h.hiInRange, h.lo, h.hi⟩

/-- A lower set-point of 85 makes the callback ask for the upper bound, which is refused. -/
example : (reboot (run (mqttCallback ⟨fun _ => true, 0⟩) (loadSettings (powerUp Eeprom.erased))
    [⟨"wyostat.settemplo", ['8', '5']⟩])).settings = (85, 80) := by
  decide +kernel

end Wyostat.MqttStat
