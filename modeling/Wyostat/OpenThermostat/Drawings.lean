import Wyostat.OpenThermostat.Setters

/-! What is drawn on the screen: the two texts of `displayTemp` and the icon area, which the
setters of furnace and AC share. -/
namespace Wyostat.OpenThermostat
open Machine

/-- What has been drawn so far, newest first. -/
def Stat.drawn (s : Stat) : List Draw := drawings s.log

/-- The last text drawn around the middle of the dial, in a row of the kind. -/
def lastText (row : ℕ → Bool) : List Draw → Option (List Char)
  | [] => none
  | .drawString x y text :: ds => if x = 95 ∧ row y then some text else lastText row ds
  | .clear :: ds | .fillBlack .. :: ds | .drawXbm .. :: ds => lastText row ds

/-- The target stands in the middle of the dial. -/
def targetText : List Draw → Option (List Char) := lastText (· = 20)

/-- The room temperature stands above or below the target. -/
def roomText : List Draw → Option (List Char) := lastText (· ≠ 20)

/-- The icons drawn in the area (16,16)-(48,48) since it was last cleared. -/
def iconArea : List Draw → List Icon
  | [] => []
  | .clear :: _ => []
  | .fillBlack x y width height :: ds =>
    if x ≤ 16 ∧ 48 ≤ x + width ∧ y ≤ 16 ∧ 48 ≤ y + height then [] else iconArea ds
  | .drawXbm x y icon :: ds => if x = 16 ∧ y = 16 then icon :: iconArea ds else iconArea ds
  | .drawString .. :: ds => iconArea ds

section Frames
variable (w : World) (s : Stat)

@[simp] theorem tock_drawn : s.tock.drawn = s.drawn := rfl
@[simp] theorem setAway_drawn (b : Bool) : (s.setAway b).drawn = s.drawn := rfl
@[simp] theorem setFurnaceState_drawn (b : Bool) : (s.setFurnaceState b).drawn = s.drawn := rfl
@[simp] theorem setAcState_drawn (b : Bool) : (s.setAcState b).drawn = s.drawn := rfl
@[simp] theorem setFanState_drawn (b : Bool) : (s.setFanState b).drawn = s.drawn := rfl
@[simp] theorem setLastMsg_drawn (t : BitVec 32) : (s.setLastMsg t).drawn = s.drawn := rfl
@[simp] theorem setLastTemp_drawn (n : ℤ) : (s.setLastTemp n).drawn = s.drawn := rfl

@[simp] theorem setHvacmode_drawn (m : Vector Char 50) : (s.setHvacmode m).drawn = s.drawn := rfl

@[simp] theorem setLastFurnaceStateChange_drawn (t : UInt32) :
    (s.setLastFurnaceStateChange t).drawn = s.drawn := rfl

@[simp] theorem setTargettemp_drawn (t : UInt8) : (setTargettemp w t s).drawn = s.drawn := rfl

@[simp] theorem eepromWrite_drawn (addr : ℕ) (value : ℤ) :
    (eepromWrite addr value s).drawn = s.drawn := rfl

@[simp] theorem digitalWrite_drawn (pin : Pin) (level : Bool) :
    (digitalWrite pin level s).drawn = s.drawn := rfl

@[simp] theorem draw_drawn (d : Draw) : (draw d s).drawn = d :: s.drawn := rfl

@[simp] theorem publish_drawn (topic : String) (payload : List Char) :
    (publish w topic payload s).drawn = s.drawn := by
  simp only [Stat.drawn, publish_log]
  split_ifs <;> rfl

theorem announce_drawn : (announce w s).drawn = s.drawn := by simp [announce, publishInt]

@[simp] theorem publishHvacState_drawn : (publishHvacState w s).drawn = s.drawn := by
  simp [publishHvacState, publishBool, publishInt]

theorem drawIcon_drawn (icon : Option Icon) :
    (drawIcon icon s).drawn =
      (icon.toList.map (.drawXbm 16 16)) ++ .fillBlack 16 16 32 32 :: s.drawn := by
  cases icon <;> rfl

@[simp] theorem timedPublish_drawn (temp : Reading ℚ) (now : BitVec 32) :
    (timedPublish w temp now s).drawn = s.drawn := by
  unfold timedPublish
  dsimp only
  split_ifs <;> simp

end Frames

section Texts
variable (w : World) (s : Stat)

/-- The target as a text, by the hour read at interaction `k`. -/
def Stat.targetShown (w : World) (k : ℕ) (s : Stat) : List Char :=
  if s.away then ['A', 'W', 'A', 'Y']
  else Decimal.itoa (s.targettemps (slotOf (w.hours k))).toNat

def Stat.roomShown (w : World) (s : Stat) : List Char :=
  Decimal.itoa (truncate w.intOfNan s.localtemp)

theorem targetText_displayTemp :
    targetText (displayTemp w s).drawn = some (s.targetShown w s.tick) := by
  simp only [displayTemp, targetText, lastText, draw_drawn, tock_drawn]
  split_ifs <;> simp_all [Stat.targetShown, getTargettemp, getTargetIndex]

theorem roomText_displayTemp :
    roomText (displayTemp w s).drawn = some (s.roomShown w) := by
  simp only [displayTemp, roomText, lastText, draw_drawn, tock_drawn]
  split_ifs <;> simp_all [Stat.roomShown]

theorem lastText_drawIcon (row : ℕ → Bool) (icon : Option Icon) :
    lastText row (drawIcon icon s).drawn = lastText row s.drawn := by
  cases icon <;> rfl

theorem lastText_setFurnace (row : ℕ → Bool) (b : Bool) :
    lastText row (setFurnace w b s).drawn = lastText row s.drawn := by
  unfold setFurnace
  split_ifs <;> simp [lastText_drawIcon, publishOffOn]

theorem lastText_setAc (row : ℕ → Bool) (b : Bool) :
    lastText row (setAc w b s).drawn = lastText row s.drawn := by
  unfold setAc
  split_ifs <;> simp [lastText_drawIcon, publishOffOn]

theorem setFan_drawn (b : Bool) : (setFan w b s).drawn = s.drawn := by
  unfold setFan
  split_ifs <;> simp

theorem lastText_control (row : ℕ → Bool) :
    lastText row (control w s).drawn = lastText row s.drawn :=
  control_preserves (P := fun t => lastText row t.drawn = lastText row s.drawn) (fun _ h => h)
    (fun b t h => (lastText_setFurnace w t row b).trans h)
    (fun b t h => (lastText_setAc w t row b).trans h)
    (fun b t h => (congrArg (lastText row) (setFan_drawn w t b)).trans h) rfl

end Texts

section Icons
variable (w : World) (s : Stat)

theorem iconArea_drawIcon (icon : Option Icon) :
    iconArea (drawIcon icon s).drawn = icon.toList := by
  cases icon <;> simp [drawIcon_drawn, iconArea]

theorem iconArea_displayTemp : iconArea (displayTemp w s).drawn = iconArea s.drawn := by
  simp [displayTemp, iconArea]

theorem iconArea_mqttCallback (m : Msg) :
    iconArea (mqttCallback w m s).drawn = iconArea s.drawn := by
  rw [mqttCallback_eq]
  split_ifs
  · unfold targettempCb targettemp
    split_ifs <;> simp [iconArea_displayTemp]
  · unfold awayCb
    split_ifs <;> simp [iconArea_displayTemp]
  all_goals simp [requesttempCb, requesttargettempCb, requestmodeCb, hvacmodeCb]

theorem iconArea_receive (it : Iteration) :
    iconArea (receive w it s).drawn = iconArea s.drawn :=
  receive_preserves (P := fun t => iconArea t.drawn = iconArea s.drawn) (fun _ h => h)
    (fun _ h => h) (fun t m h => (iconArea_mqttCallback w t m).trans h) rfl

theorem iconArea_finish (temp : Reading ℚ) (now : BitVec 32) :
    iconArea (finish w temp now s).drawn = iconArea s.drawn := by
  unfold finish
  split_ifs <;> simp [iconArea_displayTemp]

end Icons

end Wyostat.OpenThermostat
