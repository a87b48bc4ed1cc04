import Wyostat.OpenThermostat.Loop

/-! What the functions of the sketch leave alone: handling a message never touches the
relays, switching a relay never touches a setting, and time never runs backwards. -/
namespace Wyostat.OpenThermostat

/-- The relays, the furnace timer and everything ever written to the outputs. -/
structure Relays where
  furnaceState : Bool
  acState : Bool
  fanState : Bool
  lastFurnaceStateChange : UInt32
  writes : List (Output.Write Pin)

/-- The temperature and everything a message can set. -/
structure Settings where
  localtemp : Reading ℚ
  away : Bool
  targettemps : Fin 2 → UInt8
  hvacmode : Vector Char 50

def Stat.relays (s : Stat) : Relays :=
  ⟨s.furnaceState, s.acState, s.fanState, s.lastFurnaceStateChange, writes s.log⟩

def Stat.settings (s : Stat) : Settings := ⟨s.localtemp, s.away, s.targettemps, s.hvacmode⟩

theorem Stat.relays_eq {s t : Stat} (h : s.relays = t.relays) :
    s.furnaceState = t.furnaceState ∧ s.acState = t.acState ∧ s.fanState = t.fanState ∧
      s.lastFurnaceStateChange = t.lastFurnaceStateChange ∧ writes s.log = writes t.log := by
  simpa only [Stat.relays, Relays.mk.injEq] using h

theorem Stat.settings_eq {s t : Stat} (h : s.settings = t.settings) :
    s.localtemp = t.localtemp ∧ s.away = t.away ∧ s.targettemps = t.targettemps ∧
      s.hvacmode = t.hvacmode := by
  simpa only [Stat.settings, Settings.mk.injEq] using h

section Preservation
variable {w : World} {P : Stat → Prop}

theorem receive_preserves (hcheck : ∀ t, P t → P (checkLink w t))
    (hreconnect : ∀ t, P t → P (mqttReconnect t))
    (hcallback : ∀ t m, P t → P (mqttCallback w m t)) {s : Stat} {it : Iteration}
    (h : P (s.setLocaltemp it.localtemp)) : P (receive w it s) := by
  have hloop (t : Stat) (ht : P t) : P (mqttLoop w it.msg t) := by
    unfold mqttLoop
    dsimp only
    split
    · exact hcallback _ _ (hcheck t ht)
    · exact hcheck t ht
  unfold receive
  dsimp only
  apply hloop
  split_ifs
  · exact hcheck _ h
  · exact hreconnect _ (hcheck _ h)

theorem mqttConnect_preserves (hround : ∀ t, P t → P (announce w (t.setConnected true))) {s : Stat}
    (h : P s) (rounds : ℕ) : P (mqttConnect w rounds s) := by
  induction rounds generalizing s with
  | zero => exact h
  | succ rounds ih =>
    unfold mqttConnect
    split_ifs
    · exact h
    · exact ih (hround s h)

end Preservation

section Relays
variable (w : World) (s : Stat)

@[simp] theorem tock_relays : s.tock.relays = s.relays := rfl
@[simp] theorem setLocaltemp_relays (x : Reading ℚ) : (s.setLocaltemp x).relays = s.relays := rfl
@[simp] theorem setLastTemp_relays (n : ℤ) : (s.setLastTemp n).relays = s.relays := rfl
@[simp] theorem setLastMsg_relays (t : BitVec 32) : (s.setLastMsg t).relays = s.relays := rfl
@[simp] theorem setAway_relays (b : Bool) : (s.setAway b).relays = s.relays := rfl
@[simp] theorem setConnected_relays (b : Bool) : (s.setConnected b).relays = s.relays := rfl

@[simp] theorem draw_relays (d : Draw) : (draw d s).relays = s.relays := rfl

@[simp] theorem publish_relays (topic : String) (payload : List Char) :
    (publish w topic payload s).relays = s.relays := by
  simp only [Stat.relays, publish_furnaceState, publish_acState, publish_fanState,
    publish_lastFurnaceStateChange, publish_log]
  split <;> rfl

@[simp] theorem publishOffOn_relays (topic : String) (val : Bool) :
    (publishOffOn w topic val s).relays = s.relays := publish_relays ..

@[simp] theorem publishBool_relays (topic : String) (val : Bool) :
    (publishBool w topic val s).relays = s.relays := publish_relays ..

@[simp] theorem publishInt_relays (topic : String) (val : ℤ) :
    (publishInt w topic val s).relays = s.relays := publish_relays ..

@[simp] theorem displayTemp_relays : (displayTemp w s).relays = s.relays := by
  simp [displayTemp]

@[simp] theorem publishHvacState_relays : (publishHvacState w s).relays = s.relays := by
  simp [publishHvacState]

@[simp] theorem drawIcon_relays (icon : Option Icon) : (drawIcon icon s).relays = s.relays := by
  cases icon <;> simp [drawIcon]

theorem mqttCallback_eq (m : Msg) :
    mqttCallback w m s =
      if m.topic = "wyostat.targettemp" then targettempCb w m.payload s
      else if m.topic = "wyostat.away" then awayCb w m.payload s
      else if m.topic = "wyostat.requesttemp" then requesttempCb w m.payload s
      else if m.topic = "wyostat.requesttargettemp" then requesttargettempCb w m.payload s
      else if m.topic = "wyostat.requeststate" then requestmodeCb w m.payload s
      else if m.topic = "wyostat.hvacmode" then hvacmodeCb w m.payload s
      else s := by
  simp only [mqttCallback, topicListeners, nTopicListeners, List.take_succ_cons, List.take_zero,
    List.find?_cons, List.find?_nil, eq_comm (b := m.topic)]
  split_ifs <;> simp_all

/-- A message publishes, draws, saves and changes a setting, and leaves everything else alone. -/
theorem mqttCallback_frame {α : Type*} {view : Stat → α} (htock : ∀ t, view t.tock = view t)
    (hpublish : ∀ topic payload t, view (publish w topic payload t) = view t)
    (hdraw : ∀ d t, view (draw d t) = view t)
    (heeprom : ∀ addr value t, view (eepromWrite addr value t) = view t)
    (htarget : ∀ temp t, view (setTargettemp w temp t) = view t)
    (haway : ∀ b t, view (t.setAway b) = view t)
    (hmode : ∀ mode t, view (t.setHvacmode mode) = view t) (m : Msg) :
    view (mqttCallback w m s) = view s := by
  have hdisplay (t : Stat) : view (displayTemp w t) = view t := by
    simp only [displayTemp, hdraw, htock]
  have hstate (t : Stat) : view (publishHvacState w t) = view t := by
    simp only [publishHvacState, publishBool, publishInt, hpublish, htock]
  have htargettemp (temp : ℤ) : view (targettemp w temp s) = view s := by
    unfold targettemp
    split_ifs
    · exact (heeprom _ _ _).trans <| (hdisplay _).trans <| (htarget _ _).trans (htock s)
    · exact htock s
    · rfl
  have hawayCb (payload : List Char) : view (awayCb w payload s) = view s := by
    unfold awayCb
    split_ifs
    · exact (hdisplay _).trans <| (heeprom _ _ _).trans (haway _ s)
    · rfl
  rw [mqttCallback_eq]
  split_ifs
  · exact htargettemp _
  · exact hawayCb _
  · exact hstate s
  · exact hstate s
  · exact (hstate _).trans (hpublish _ _ s)
  · exact hmode _ s
  · rfl

@[simp] theorem mqttCallback_relays (m : Msg) : (mqttCallback w m s).relays = s.relays :=
  mqttCallback_frame w s (fun _ => rfl) (fun topic payload t => publish_relays w t topic payload)
    (fun _ _ => rfl) (fun _ _ _ => rfl) (fun _ _ => rfl) (fun _ _ => rfl) (fun _ _ => rfl) m

@[simp] theorem checkLink_relays : (checkLink w s).relays = s.relays := by simp [checkLink]

@[simp] theorem receive_relays (it : Iteration) : (receive w it s).relays = s.relays :=
  receive_preserves (P := fun t => t.relays = s.relays) (fun t h => (checkLink_relays w t).trans h)
    (fun _ h => h) (fun t m h => (mqttCallback_relays w t m).trans h) rfl

@[simp] theorem timedPublish_relays (temp : Reading ℚ) (now : BitVec 32) :
    (timedPublish w temp now s).relays = s.relays := by
  unfold timedPublish
  dsimp only
  split_ifs <;> simp

@[simp] theorem finish_relays (temp : Reading ℚ) (now : BitVec 32) :
    (finish w temp now s).relays = s.relays := by
  unfold finish
  split_ifs <;> simp

end Relays

section Settings
variable (w : World) (s : Stat)

@[simp] theorem tock_settings : s.tock.settings = s.settings := rfl

@[simp] theorem publish_settings (topic : String) (payload : List Char) :
    (publish w topic payload s).settings = s.settings := rfl

@[simp] theorem draw_settings (d : Draw) : (draw d s).settings = s.settings := rfl

@[simp] theorem displayTemp_settings : (displayTemp w s).settings = s.settings := by
  simp [displayTemp]

@[simp] theorem publishHvacState_settings :
    (publishHvacState w s).settings = s.settings := by
  simp [publishHvacState, publishBool, publishInt]

@[simp] theorem drawIcon_settings (icon : Option Icon) :
    (drawIcon icon s).settings = s.settings := by
  cases icon <;> rfl

@[simp] theorem digitalWrite_settings (pin : Pin) (level : Bool) :
    (digitalWrite pin level s).settings = s.settings := rfl

@[simp] theorem setFurnaceState_settings (b : Bool) :
    (s.setFurnaceState b).settings = s.settings := rfl

@[simp] theorem setAcState_settings (b : Bool) : (s.setAcState b).settings = s.settings := rfl
@[simp] theorem setFanState_settings (b : Bool) : (s.setFanState b).settings = s.settings := rfl

@[simp] theorem setLastFurnaceStateChange_settings (t : UInt32) :
    (s.setLastFurnaceStateChange t).settings = s.settings := rfl

@[simp] theorem setFurnace_settings (state : Bool) :
    (setFurnace w state s).settings = s.settings := by
  unfold setFurnace
  split_ifs <;> simp [publishOffOn]

@[simp] theorem setAc_settings (state : Bool) : (setAc w state s).settings = s.settings := by
  unfold setAc
  split_ifs <;> simp [publishOffOn]

@[simp] theorem setFan_settings (state : Bool) : (setFan w state s).settings = s.settings := by
  unfold setFan
  split_ifs <;> simp

@[simp] theorem timedPublish_settings (temp : Reading ℚ) (now : BitVec 32) :
    (timedPublish w temp now s).settings = s.settings := by
  unfold timedPublish
  dsimp only
  split_ifs <;> rfl

@[simp] theorem finish_settings (temp : Reading ℚ) (now : BitVec 32) :
    (finish w temp now s).settings = s.settings := by
  unfold finish
  split_ifs <;> simp

end Settings

end Wyostat.OpenThermostat
