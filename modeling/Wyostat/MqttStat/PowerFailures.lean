import Wyostat.MqttStat.Reboot
import Wyostat.Eeprom.Keeping

/-! The set-points of the mqtt_stat sketch over power failures: kept, unless the power fails in the
middle of storing one of them, which loses both. -/
namespace Wyostat.MqttStat
open Machine EEPROMClass

/-- `EEPROM.begin(512)` -/
def eepromSize : ℕ := 512

/-- The calls a setter makes of the EEPROM. -/
def setTempCalls (value : Stat → ℤ) (addr : ℕ) (outcome : Outcome) (temp : ℤ) (s : Stat) :
    List Call :=
  if InRange temp ∧ temp ≠ value s then saveCalls outcome addr (UInt8.ofInt temp) else []

def settemploCalls : Outcome → ℤ → Stat → List Call := setTempCalls Stat.settemplo settemploAddr
def settemphiCalls : Outcome → ℤ → Stat → List Call := setTempCalls Stat.settemphi settemphiAddr

/-- The calls a message causes; every commit in it ends the same way. -/
def messageCalls (outcome : Outcome) (s : Stat) (m : Msg) : List Call :=
  if m.topic = "wyostat.settemplo" then
    let t := settemplo (bytes2int m.payload) s
    settemploCalls outcome (bytes2int m.payload) s ++
      if t.settemphi < t.settemplo then settemphiCalls outcome highestTemp t else []
  else if m.topic = "wyostat.settemphi" then
    let t := settemphi (bytes2int m.payload) s
    settemphiCalls outcome (bytes2int m.payload) s ++
      if t.settemphi ≤ t.settemplo then settemploCalls outcome lowestTemp t else []
  else []

/-- A message is handled, or the power fails: between two messages, or in the middle of storing
what a message changes, when the sector is erased and not yet written. -/
inductive Incident where
  | message (m : Msg)
  | powerFails (during : Option Msg)

/-- The sketch, and the EEPROM it stores its settings in. -/
structure Device where
  stat : Stat
  rom : EEPROMClass

/-- Power-up: `EEPROM.begin` and `loadSettings()`. -/
def Device.start (rom : EEPROMClass) : Device := ⟨loadSettings (powerUp fun i => rom.read i), rom⟩

def Device.boot (flash : ℕ → UInt8) : Device :=
  .start (run EEPROMClass.step (EEPROMClass.powerUp flash) (rebootCalls eepromSize))

def Device.step (w : World) (d : Device) : Incident → Device
  | .message m =>
    ⟨mqttCallback w d.stat m, run EEPROMClass.step d.rom (messageCalls .written d.stat m)⟩
  | .powerFails none => .start (run EEPROMClass.step d.rom (rebootCalls eepromSize))
  | .powerFails (some m) => .start (run EEPROMClass.step d.rom
      (messageCalls .invalidSize d.stat m ++ rebootCalls eepromSize))

/-- The two set-points as a message leaves them. -/
def accept (settings : ℤ × ℤ) (m : Msg) : ℤ × ℤ :=
  if InRange (bytes2int m.payload) then
    if m.topic = "wyostat.settemplo" then (bytes2int m.payload, settings.2)
    else if m.topic = "wyostat.settemphi" then (settings.1, bytes2int m.payload)
    else settings
  else settings

/-- What is to be expected of the set-points. -/
def expect (settings : ℤ × ℤ) : Incident → ℤ × ℤ
  | .message m => accept settings m
  | .powerFails none => settings
  | .powerFails (some m) =>
    if accept settings m = settings then settings else (defaultSettemplo, defaultSettemphi)

/-- The EEPROM holds the cells, and the cells stand for the set-points. -/
structure Device.Sound (d : Device) : Prop where
  backs : Backs eepromSize d.rom d.stat.eeprom
  saved : d.stat.Saved

variable {w : World} {d : Device}

theorem setTempCalls_of_not_inRange {value : Stat → ℤ} {addr : ℕ} {temp : ℤ}
    (h : ¬ InRange temp) (outcome : Outcome) (s : Stat) :
    setTempCalls value addr outcome temp s = [] :=
  if_neg fun hset => h hset.1

theorem messageCalls_eq (outcome : Outcome) (s : Stat) (m : Msg) :
    messageCalls outcome s m =
      if m.topic = "wyostat.settemplo" then settemploCalls outcome (bytes2int m.payload) s
      else if m.topic = "wyostat.settemphi" then settemphiCalls outcome (bytes2int m.payload) s
      else [] := by
  simp [messageCalls, settemploCalls, settemphiCalls,
    setTempCalls_of_not_inRange not_inRange_lowestTemp,
    setTempCalls_of_not_inRange not_inRange_highestTemp]

theorem mqttCallback_settings (s : Stat) (m : Msg) :
    (mqttCallback w s m).settings = accept s.settings m := by
  rw [Stat.settings, mqttCallback_settemplo, mqttCallback_settemphi, accept]
  by_cases hr : InRange (bytes2int m.payload)
  · by_cases hlo : m.topic = "wyostat.settemplo"
    · simp [hr, hlo, Stat.settings]
    · by_cases hhi : m.topic = "wyostat.settemphi" <;> simp [hr, hlo, hhi, Stat.settings]
  · simp [hr, Stat.settings]

section Saves
variable {s : Stat} {rom : EEPROMClass}

theorem backs_setTemp {value : Stat → ℤ} {put : ℤ → Stat → Stat} {addr : ℕ} {temp : ℤ}
    (h : Backs eepromSize rom s.eeprom) (hput : ∀ n t, (put n t).eeprom = t.eeprom) :
    Backs eepromSize (run EEPROMClass.step rom (setTempCalls value addr .written temp s))
      (setTemp value put addr temp s).eeprom := by
  unfold setTempCalls setTemp
  rw [← ite_and]
  split_ifs
  · have hsaved := h.save (show 0 < eepromSize by decide) addr (UInt8.ofInt temp)
    rwa [← hput temp s] at hsaved
  · exact h

theorem settemploCb_eeprom (payload : List Char) :
    (settemploCb w payload s).eeprom = (settemplo (bytes2int payload) s).eeprom := by
  unfold settemploCb
  dsimp only
  split_ifs
  · rw [settemphi_highestTemp]
    rfl
  · rfl

theorem backs_mqttCallback (h : Backs eepromSize rom s.eeprom) (m : Msg) :
    Backs eepromSize (run EEPROMClass.step rom (messageCalls .written s m))
      (mqttCallback w s m).eeprom := by
  rw [messageCalls_eq, mqttCallback_eq]
  split_ifs
  · rw [settemploCb_eeprom]
    exact backs_setTemp h fun _ _ => rfl
  · rw [settemphiCb_eq]
    exact backs_setTemp h fun _ _ => rfl
  · exact h

/-- What is interrupted while it is stored is lost with everything else; where a message changes
nothing there is nothing to interrupt. -/
theorem backs_interrupted (hrom : Backs eepromSize rom s.eeprom) (hs : s.Saved) (m : Msg) :
    Backs eepromSize (run EEPROMClass.step rom
        (messageCalls .invalidSize s m ++ rebootCalls eepromSize))
      (if accept s.settings m = s.settings then s.eeprom else Eeprom.erased) := by
  have hchanges {temp default held : ℤ} {addr : ℕ} (hr : InRange temp) (hne : temp ≠ held)
      (hheld : loadSetting s.eeprom addr default = held) : UInt8.ofInt temp ≠ s.eeprom addr := by
    intro hsame
    have hload : loadSetting (s.eeprom.write addr temp) addr default = temp :=
      loadSetting_write_self hr
    rw [Eeprom.write, hsame, Function.update_eq_self] at hload
    exact hne (hload.symm.trans hheld)
  have hnothing : Backs eepromSize (run EEPROMClass.step rom ([] ++ rebootCalls eepromSize))
      s.eeprom := hrom.reboot (by decide)
  rw [messageCalls_eq, accept, Stat.settings]
  by_cases hr : InRange (bytes2int m.payload)
  · rw [if_pos hr]
    split_ifs with hlo hsame hhi hsame
    · have hheld : bytes2int m.payload = s.settemplo := congrArg Prod.fst hsame
      rw [settemploCalls, setTempCalls, if_neg (by simp [hheld])]
      exact hnothing
    · have hne : bytes2int m.payload ≠ s.settemplo := fun h => hsame (by rw [h])
      rw [settemploCalls, setTempCalls, if_pos ⟨hr, hne⟩]
      exact hrom.interrupted (by decide) (by decide) (hchanges hr hne hs.lo)
    · have hheld : bytes2int m.payload = s.settemphi := congrArg Prod.snd hsame
      rw [settemphiCalls, setTempCalls, if_neg (by simp [hheld])]
      exact hnothing
    · have hne : bytes2int m.payload ≠ s.settemphi := fun h => hsame (by rw [h])
      rw [settemphiCalls, setTempCalls, if_pos ⟨hr, hne⟩]
      exact hrom.interrupted (by decide) (by decide) (hchanges hr hne hs.hi)
    · exact hnothing
    · contradiction
  · rw [if_neg hr, if_pos rfl]
    simpa [settemploCalls, settemphiCalls, setTempCalls, hr] using hnothing

end Saves

theorem loadSetting_eq {e e' : Eeprom} {addr : ℕ} (h : e addr = e' addr) (default : ℤ) :
    loadSetting e addr default = loadSetting e' addr default := by
  unfold loadSetting
  rw [h]

theorem sound_start {rom : EEPROMClass} {eeprom : Eeprom} (h : Backs eepromSize rom eeprom) :
    (Device.start rom).Sound ∧
      (Device.start rom).stat.settings = (loadSettings (powerUp eeprom)).settings := by
  refine ⟨⟨h.reads, rfl, rfl⟩, ?_⟩
  have hlo : rom.read settemploAddr = eeprom settemploAddr := h.read_eq (by decide)
  have hhi : rom.read settemphiAddr = eeprom settemphiAddr := h.read_eq (by decide)
  exact Prod.ext (loadSetting_eq hlo _) (loadSetting_eq hhi _)

theorem sound_boot (flash : ℕ → UInt8) : (Device.boot flash).Sound := by
  have hbacks : Backs eepromSize
      (run EEPROMClass.step (EEPROMClass.powerUp flash) (rebootCalls eepromSize)) flash := by
    refine ⟨sized_run (by simp [rebootCalls, Call.Fits]) (sized_powerUp flash), ?_⟩
    rw [copy_run (by simp [rebootCalls, Call.Fits]) (by decide) (sized_powerUp flash)]
    rfl
  exact (sound_start hbacks).1

theorem sound_step_settings (h : d.Sound) (i : Incident) :
    (d.step w i).Sound ∧ (d.step w i).stat.settings = expect d.stat.settings i := by
  have hload : (loadSettings (powerUp d.stat.eeprom)).settings = d.stat.settings :=
    Prod.ext h.saved.lo h.saved.hi
  cases i with
  | message m =>
    exact ⟨⟨backs_mqttCallback h.backs m, saved_mqttCallback w h.saved m⟩,
      mqttCallback_settings _ m⟩
  | powerFails during =>
    cases during with
    | none =>
      obtain ⟨hsound, hsettings⟩ := sound_start (h.backs.reboot (by decide))
      exact ⟨hsound, hsettings.trans hload⟩
    | some m =>
      obtain ⟨hsound, hsettings⟩ := sound_start (backs_interrupted h.backs h.saved m)
      refine ⟨hsound, hsettings.trans ?_⟩
      by_cases hsame : accept d.stat.settings m = d.stat.settings
      · rw [if_pos hsame, expect, if_pos hsame, hload]
      · rw [if_neg hsame, expect, if_neg hsame]
        rfl

/-- Whatever the flash holds at first, in every run of messages and power failures: a failure
between two messages makes no difference to the set-points, and one in the middle of storing a
changed set-point brings both of them back to their defaults. -/
theorem run_settings_expected (w : World) (flash : ℕ → UInt8) (incidents : List Incident) :
    (run (Device.step w) (Device.boot flash) incidents).stat.settings =
      run expect (Device.boot flash).stat.settings incidents := by
  have hall (d : Device) (h : d.Sound) :
      (run (Device.step w) d incidents).stat.settings = run expect d.stat.settings incidents := by
    induction incidents generalizing d with
    | nil => rfl
    | cons i incidents ih =>
      obtain ⟨hsound, hsettings⟩ := sound_step_settings (w := w) h i
      rw [run_cons, run_cons, ih _ hsound, hsettings]
  exact hall _ (sound_boot flash)

end Wyostat.MqttStat
