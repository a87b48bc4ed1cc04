import Wyostat.MqttStat.Loop
import Wyostat.Lib.Run

/-! The set-points keep their order until a message crosses them: the repair asks for a bound
of the range, which the setters reject. -/
namespace Wyostat.MqttStat
open Machine

/-- The value a payload carries moves a set-point beyond the other one. -/
def Crosses (s : Stat) (m : Msg) : Prop :=
  InRange (bytes2int m.payload) ∧
    (m.topic = "wyostat.settemplo" ∧ s.settemphi < bytes2int m.payload ∨
      m.topic = "wyostat.settemphi" ∧ bytes2int m.payload < s.settemplo)

instance (s : Stat) (m : Msg) : Decidable (Crosses s m) :=
  inferInstanceAs (Decidable (_ ∧ (_ ∨ _)))

section Setting
variable {value : Stat → ℤ} {put : ℤ → Stat → Stat} {addr : ℕ} {temp : ℤ} {s : Stat}

theorem setTemp_of_not_inRange (h : ¬ InRange temp) : setTemp value put addr temp s = s := if_neg h

theorem setTemp_preserves {P : Stat → Prop} (h : P s)
    (hstore : InRange temp → P (eepromWrite addr temp (put temp s))) :
    P (setTemp value put addr temp s) := by
  unfold setTemp
  split_ifs with hr
  · exact hstore hr
  · exact h
  · exact h

theorem setTemp_frame {α : Type*} {f : Stat → α} (hput : ∀ n t, f (put n t) = f t)
    (heeprom : ∀ addr n t, f (eepromWrite addr n t) = f t) :
    f (setTemp value put addr temp s) = f s :=
  setTemp_preserves (P := fun t => f t = f s) rfl fun _ => (heeprom ..).trans (hput ..)

theorem setTemp_value (hvalue : ∀ n t, value (eepromWrite addr n (put n t)) = n) :
    value (setTemp value put addr temp s) = if InRange temp then temp else value s := by
  unfold setTemp
  split_ifs with hr hne
  · exact hvalue temp s
  · exact (not_not.mp hne).symm
  · rfl

end Setting

section Setters
variable (temp : ℤ) (s : Stat)

@[simp] theorem settemplo_settemplo :
    (settemplo temp s).settemplo = if InRange temp then temp else s.settemplo :=
  setTemp_value fun _ _ => rfl

@[simp] theorem settemplo_settemphi : (settemplo temp s).settemphi = s.settemphi :=
  setTemp_frame (f := Stat.settemphi) (fun _ _ => rfl) fun _ _ _ => rfl

@[simp] theorem settemphi_settemphi :
    (settemphi temp s).settemphi = if InRange temp then temp else s.settemphi :=
  setTemp_value fun _ _ => rfl

@[simp] theorem settemphi_settemplo : (settemphi temp s).settemplo = s.settemplo :=
  setTemp_frame (f := Stat.settemplo) (fun _ _ => rfl) fun _ _ _ => rfl

theorem not_inRange_lowestTemp : ¬ InRange lowestTemp := by decide

theorem not_inRange_highestTemp : ¬ InRange highestTemp := by decide

/-- The repairs never change anything. -/
@[simp] theorem settemplo_lowestTemp : settemplo lowestTemp s = s :=
  setTemp_of_not_inRange not_inRange_lowestTemp

@[simp] theorem settemphi_highestTemp : settemphi highestTemp s = s :=
  setTemp_of_not_inRange not_inRange_highestTemp

end Setters

section Callbacks
variable (w : World) (s : Stat)

theorem settemploCb_settemplo (payload : List Char) :
    (settemploCb w payload s).settemplo =
      if InRange (bytes2int payload) then bytes2int payload else s.settemplo := by
  rw [← settemplo_settemplo]
  unfold settemploCb
  dsimp only
  split_ifs
  · rw [settemphi_highestTemp, publishInt, publish_settemplo]
  · rfl

theorem settemploCb_settemphi (payload : List Char) :
    (settemploCb w payload s).settemphi = s.settemphi := by
  unfold settemploCb
  dsimp only
  split_ifs
  · rw [settemphi_highestTemp, publishInt, publish_settemphi, settemplo_settemphi]
  · exact settemplo_settemphi ..

theorem settemphiCb_eq (payload : List Char) :
    settemphiCb w payload s = settemphi (bytes2int payload) s := by
  unfold settemphiCb
  dsimp only
  split_ifs
  · rw [settemplo_lowestTemp]
  · rfl

theorem mqttCallback_eq (m : Msg) :
    mqttCallback w s m =
      if m.topic = "wyostat.settemplo" then settemploCb w m.payload s
      else if m.topic = "wyostat.settemphi" then settemphiCb w m.payload s
      else s := by
  simp only [mqttCallback, topicListeners, List.find?_cons, List.find?_nil,
    eq_comm (b := m.topic)]
  split_ifs <;> simp_all

theorem mqttCallback_preserves {P : Stat → Prop} (hlo : ∀ temp t, P t → P (settemplo temp t))
    (hhi : ∀ temp t, P t → P (settemphi temp t))
    (hpublish : ∀ topic temp t, P t → P (publishInt w topic temp t)) (m : Msg) (h : P s) :
    P (mqttCallback w s m) := by
  rw [mqttCallback_eq]
  split_ifs
  · unfold settemploCb
    dsimp only
    split_ifs
    · exact hpublish _ _ _ (hhi _ _ (hlo _ _ h))
    · exact hlo _ _ h
  · rw [settemphiCb_eq]
    exact hhi _ _ h
  · exact h

/-- What the set-points, their cells and a publication leave alone, every message leaves alone. -/
theorem mqttCallback_frame {α : Type*} {f : Stat → α}
    (hlo : ∀ n t, f (Stat.setSettemplo n t) = f t)
    (hhi : ∀ n t, f (Stat.setSettemphi n t) = f t)
    (heeprom : ∀ addr n t, f (eepromWrite addr n t) = f t)
    (hpublish : ∀ topic payload t, f (publish w topic payload t) = f t) (m : Msg) :
    f (mqttCallback w s m) = f s :=
  mqttCallback_preserves w s (P := fun t => f t = f s)
    (fun _ _ h => (setTemp_frame hlo heeprom).trans h)
    (fun _ _ h => (setTemp_frame hhi heeprom).trans h)
    (fun _ _ _ h => (hpublish ..).trans h) m rfl

theorem mqttCallback_settemplo (m : Msg) :
    (mqttCallback w s m).settemplo =
      if m.topic = "wyostat.settemplo" ∧ InRange (bytes2int m.payload) then bytes2int m.payload
      else s.settemplo := by
  rw [mqttCallback_eq]
  by_cases hlo : m.topic = "wyostat.settemplo"
  · rw [if_pos hlo, settemploCb_settemplo]
    simp [hlo]
  · by_cases hhi : m.topic = "wyostat.settemphi"
    · rw [if_neg hlo, if_pos hhi, settemphiCb_eq, settemphi_settemplo]
      simp [hlo]
    · simp [hlo, hhi]

theorem mqttCallback_settemphi (m : Msg) :
    (mqttCallback w s m).settemphi =
      if m.topic = "wyostat.settemphi" ∧ InRange (bytes2int m.payload) then bytes2int m.payload
      else s.settemphi := by
  rw [mqttCallback_eq]
  by_cases hlo : m.topic = "wyostat.settemplo"
  · rw [if_pos hlo, settemploCb_settemphi]
    simp [hlo]
  · rw [if_neg hlo]
    by_cases hhi : m.topic = "wyostat.settemphi"
    · rw [if_pos hhi, settemphiCb_eq, settemphi_settemphi]
      simp [hhi]
    · simp [hhi]

theorem ordered_mqttCallback_iff (m : Msg) (h : s.settemplo ≤ s.settemphi) :
    (mqttCallback w s m).settemplo ≤ (mqttCallback w s m).settemphi ↔ ¬ Crosses s m := by
  rw [mqttCallback_settemplo, mqttCallback_settemphi, Crosses]
  by_cases hr : InRange (bytes2int m.payload)
  · by_cases hlo : m.topic = "wyostat.settemplo"
    · simp [hr, hlo]
    · by_cases hhi : m.topic = "wyostat.settemphi" <;> simp [hr, hlo, hhi, h]
  · simp [hr, h]

end Callbacks

section Iterations
variable (w : World)

theorem receive_preserves {w : World} {P : Stat → Prop} (hcheck : ∀ t, P t → P (checkLink w t))
    (hreconnect : ∀ t, P t → P (reconnect t)) (hcallback : ∀ t m, P t → P (mqttCallback w t m))
    {s : Stat} {it : Iteration} (h : P (sample it.reading s)) : P (receive w it s) := by
  have hloop (t : Stat) (ht : P t) : P (mqttLoop w it.msg t) := by
    unfold mqttLoop
    dsimp only
    split
    · exact hcallback _ _ (hcheck t ht)
    · exact hcheck t ht
  unfold receive
  dsimp only
  apply hloop
  split_ifs
  · exact hcheck _ h
  · exact hreconnect _ (hcheck _ h)

/-- The two set-points of a state. -/
def Stat.settings (s : Stat) : ℤ × ℤ := (s.settemplo, s.settemphi)

@[simp] theorem setFurnace_settings (state : Bool) (s : Stat) :
    (setFurnace w state s).settings = s.settings := by
  unfold setFurnace
  split_ifs <;> rfl

@[simp] theorem setAc_settings (state : Bool) (s : Stat) :
    (setAc w state s).settings = s.settings := by
  unfold setAc
  split_ifs <;> rfl

@[simp] theorem setFan_settings (state : Bool) (s : Stat) :
    (setFan w state s).settings = s.settings := by
  unfold setFan
  split_ifs <;> rfl

theorem control_settings (s : Stat) : (control w s).settings = s.settings := by
  unfold control
  split_ifs <;> simp

theorem timedPublish_settings (temp : ℤ) (now : BitVec 32) (s : Stat) :
    (timedPublish w temp now s).settings = s.settings := by
  unfold timedPublish
  dsimp only
  split_ifs <;> rfl

end Iterations

/-- From `loadSettings()` on erased EEPROM the lower set-point stays at most the upper one,
exactly when no message crosses them. -/
theorem settemplo_le_settemphi_iff (w : World) (msgs : List Msg) :
    Always (mqttCallback w) (fun s => s.settemplo ≤ s.settemphi)
        (loadSettings (powerUp Eeprom.erased)) msgs ↔
      Along (mqttCallback w) (fun s m => ¬ Crosses s m)
        (loadSettings (powerUp Eeprom.erased)) msgs :=
  always_iff_along (ordered_mqttCallback_iff w) (by decide) msgs

/-- A lower set-point of 85 stays above the default upper one. -/
theorem settemplo_85_crosses :
    ¬ Always (mqttCallback ⟨fun _ => true, 0⟩) (fun s => s.settemplo ≤ s.settemphi)
      (loadSettings (powerUp Eeprom.erased)) [⟨"wyostat.settemplo", ['8', '5']⟩] := by
  decide +kernel

end Wyostat.MqttStat
