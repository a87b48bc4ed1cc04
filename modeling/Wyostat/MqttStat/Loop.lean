import Wyostat.MqttStat.State

/-! `loop()` of the mqtt_stat sketch. -/
namespace Wyostat.MqttStat

/-- What one iteration meets: the reading of the sensor, the message that has arrived, if any,
and the time. -/
structure Iteration where
  reading : Reading ℚ
  msg : Option Msg
  millis : BitVec 32

def oneZero (state : Bool) : List Char := if state then ['1'] else ['0']

def setFurnace (w : World) (state : Bool) (s : Stat) : Stat :=
  if state ≠ s.furnaceState then
    let s := publish w "wyostat.furnace_state" (oneZero state) s
    digitalWrite .furnaceSCR state (s.setFurnaceState state)
  else s

def setAc (w : World) (state : Bool) (s : Stat) : Stat :=
  if state ≠ s.acState then
    let s := publish w "wyostat.ac_state" (oneZero state) s
    digitalWrite .acSCR state (s.setAcState state)
  else s

def setFan (w : World) (state : Bool) (s : Stat) : Stat :=
  if state ≠ s.fanState then
    let s := publish w "wyostat.fan_state" (oneZero state) s
    digitalWrite .fanSCR state (s.setFanState state)
  else s

/-- `reconnect` blocks until the broker accepts the connection; it announces nothing. -/
def reconnect (s : Stat) : Stat := s.setConnected true

/-- `mqtt_client.connected()`. -/
def checkLink (w : World) (s : Stat) : Stat :=
  (s.setConnected (s.connected && w.link s.tick)).tock

/-- `mqtt_client.loop()` hands over at most one message. -/
def mqttLoop (w : World) (msg : Option Msg) (s : Stat) : Stat :=
  let s := checkLink w s
  match s.connected, msg with
  | true, some m => mqttCallback w s m
  | _, _ => s

/-- The filter takes every reading as it comes. -/
def sample (reading : Reading ℚ) (s : Stat) : Stat :=
  s.setLocaltemperature
    (s.localtemperature.map₂ (fun x r => 99 / 100 * x + 1 / 100 * r) reading)

/-- The iteration up to the control section. -/
def receive (w : World) (it : Iteration) (s : Stat) : Stat :=
  let s := checkLink w (sample it.reading s)
  let s := if s.connected then s else reconnect s
  mqttLoop w it.msg s

def control (w : World) (s : Stat) : Stat :=
  if s.localtemperature.Below s.settemplo then
    setFan w true (setFurnace w true (setAc w false s))
  else if s.localtemperature.Above s.settemphi then
    setFan w true (setAc w true (setFurnace w false s))
  else setFan w false (setFurnace w false (setAc w false s))

/-- The timed report; `now` and `lastMsg` are signed 32-bit. -/
def timedPublish (w : World) (temp : ℤ) (now : BitVec 32) (s : Stat) : Stat :=
  if 200 < (now - s.lastMsg).toInt then
    let s := s.setLastMsg now
    if temp ≠ s.lastTemp then publishInt w "wyostat.temp" temp (s.setLastTemp temp) else s
  else s

/-- `temp` is the temperature the iteration found. -/
def loop (w : World) (s : Stat) (it : Iteration) : Stat :=
  timedPublish w (truncate w.intOfNan s.localtemperature) it.millis
    (control w (receive w it s))

/-- `setup()`, which leaves the connection to `loop()`. -/
def setup (eeprom : Eeprom) : Stat := loadSettings (powerUp eeprom)

end Wyostat.MqttStat
