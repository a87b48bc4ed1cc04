import Wyostat.OpenThermostat.Messages
import Wyostat.OpenThermostat.Relays
import Wyostat.Lib.Run

/-! `setup()` and `loop()` of the OpenThermostat sketch. -/
namespace Wyostat.OpenThermostat

/-- What one iteration meets: the value its sampling section leaves in `localtemp`, the
message that has arrived, if any, and the time. -/
structure Iteration where
  localtemp : Reading ℚ
  msg : Option Msg
  millis : BitVec 32

/-- `mqtt_reconnect` blocks until the broker accepts the connection; it announces nothing. -/
def mqttReconnect (s : Stat) : Stat := s.setConnected true

/-- `mqtt_client.connected()`. -/
def checkLink (w : World) (s : Stat) : Stat :=
  (s.setConnected (s.connected && w.link s.tick)).tock

/-- `mqtt_client.loop()` hands over at most one message. -/
def mqttLoop (w : World) (msg : Option Msg) (s : Stat) : Stat :=
  let s := checkLink w s
  match s.connected, msg with
  | true, some m => mqttCallback w m s
  | _, _ => s

/-- The iteration up to the control section. -/
def receive (w : World) (it : Iteration) (s : Stat) : Stat :=
  let s := checkLink w (s.setLocaltemp it.localtemp)
  let s := if s.connected then s else mqttReconnect s
  mqttLoop w it.msg s

def heating (w : World) (s : Stat) : Stat :=
  let s := setAc w false s
  if s.away then
    let s :=
      if s.localtemp.Below (awaymin - hilogap / 2 : ℤ) then setFurnace w true s
      else if s.localtemp.Above (awaymin + hilogap / 2 : ℤ) then setFurnace w false s
      else s
    setFan w s.furnaceState s
  else
    let s :=
      if (getTargettemp w s).toNat - hilogap / 2 < truncate w.intOfNan s.localtemp then
        setFurnace w false s.tock
      else
        let s := s.tock
        if truncate w.intOfNan s.localtemp < (getTargettemp w s).toNat + hilogap / 2 then
          setFurnace w true s.tock
        else s.tock
    setFan w s.furnaceState s

def cooling (w : World) (s : Stat) : Stat :=
  let s := setFurnace w false s
  if s.away then
    if s.localtemp.Above (awaymax : ℤ) then setAc w true (setFan w true s)
    else if s.localtemp.Below (awaymax - hilogap : ℤ) then setAc w false (setFan w false s)
    else s
  else if (getTargettemp w s).toNat < truncate w.intOfNan s.localtemp then
    setFan w true (setAc w true s.tock)
  else
    let s := s.tock
    if truncate w.intOfNan s.localtemp ≤ (getTargettemp w s).toNat - hilogap then
      setFan w false (setAc w false s.tock)
    else s.tock

def control (w : World) (s : Stat) : Stat :=
  if s.mode = 'h' then heating w s
  else if s.mode = 'c' then cooling w s
  else setFan w false (setFurnace w false (setAc w false s))

/-- The timed report. `now` and `lastMsg` are signed 32-bit, and the comparison of the float
`temp` with the int `lastTemp` holds of NaN. -/
def timedPublish (w : World) (temp : Reading ℚ) (now : BitVec 32) (s : Stat) : Stat :=
  if 2000 < (now - s.lastMsg).toInt then
    let s := s.setLastMsg now
    if temp ≠ .num s.lastTemp then
      publish w "wyostat.temp" (floatText temp) (s.setLastTemp (truncate w.intOfNan temp))
    else s
  else s

/-- The iteration after the control section; `temp` is `localtemp` as the iteration found it. -/
def finish (w : World) (temp : Reading ℚ) (now : BitVec 32) (s : Stat) : Stat :=
  timedPublish w temp now
    (if truncate w.intOfNan temp ≠ truncate w.intOfNan s.localtemp then displayTemp w s else s)

/-- `loop()` once its sampling section has left `it.localtemp` in `localtemp`. -/
def iterate (w : World) (s : Stat) (it : Iteration) : Stat :=
  finish w s.localtemp it.millis (control w (receive w it s))

/-- The sampling section: every thousandth iteration, a plausible reading enters the filter. -/
def sample (w : World) (sensor : Reading ℚ) (s : Stat) : Reading ℚ :=
  let sensorTemp := truncate w.intOfNan sensor
  if s.loopCounter % 1000 = 0 ∧ 0 < sensorTemp ∧ sensorTemp < 200 then
    s.localtemp.map₂ (fun x r => 9999 / 10000 * x + 1 / 10000 * r) (.num sensorTemp)
  else s.localtemp

def loop (w : World) (sensor : Reading ℚ) (msg : Option Msg) (millis : BitVec 32)
    (s : Stat) : Stat :=
  iterate w (s.setLoopCounter (s.loopCounter + 1)) ⟨sample w sensor s, msg, millis⟩

/-- The globals at power-up. -/
def powerUp (eeprom : Eeprom) : Stat := { eeprom := eeprom }

def setupPins (s : Stat) : Stat :=
  digitalWrite .acSCR false (digitalWrite .fanSCR false (digitalWrite .furnaceSCR false s))

def loadSettings (s : Stat) : Stat :=
  s.setAway (s.eeprom awayAddr ≠ 255 && s.eeprom awayAddr ≠ 0)

def setupDisplay (w : World) (s : Stat) : Stat := displayTemp w (draw .clear s)

def testIcons (s : Stat) : Stat :=
  let s := draw (.drawXbm 16 16 .fire) (draw .clear s)
  let s := draw (.drawXbm 16 16 .flake) (draw .clear s)
  draw (.drawXbm 16 16 .leaf) (draw .clear s)

/-- What `mqtt_connect` publishes after it has subscribed. -/
def announce (w : World) (s : Stat) : Stat :=
  let s := publishInt w "wyostat.fan_state" (if s.fanState then 1 else 0) s
  let s := publishInt w "wyostat.ac_state" (if s.acState then 1 else 0) s
  let s := publishInt w "wyostat.furnace_state" (if s.furnaceState then 1 else 0) s
  publishInt w "wyostat.targettemp" (getTargettemp w s).toNat s.tock

/-- `mqtt_connect` starts over when the connection is lost while it announces; `rounds`
bounds the number of successful connects. -/
def mqttConnect (w : World) : ℕ → Stat → Stat
  | 0, s => s
  | rounds + 1, s =>
    if s.connected then s else mqttConnect w rounds (announce w (s.setConnected true))

/-- `setup()`; the time lookup changes the clock only, which belongs to the environment. -/
def setup (w : World) (sensor : Reading ℚ) (eeprom : Eeprom) (rounds : ℕ) : Stat :=
  let s := setupPins (powerUp eeprom)
  let s := loadSettings (s.setLocaltemp sensor)
  mqttConnect w rounds (testIcons (setupDisplay w s))

/-- A clock that stands still, so that no change of the furnace ever gets a minute old. -/
def stillWorld : World := ⟨fun _ => 1000, fun _ => 12, fun _ => true, 0⟩

theorem stillWorld_nondecreasing : stillWorld.Nondecreasing := fun _ _ _ => UInt32.le_refl _

end Wyostat.OpenThermostat
