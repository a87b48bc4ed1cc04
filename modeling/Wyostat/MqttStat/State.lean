import Wyostat.Device
import Mathlib.Tactic.Simps.Basic

/-! The globals of the mqtt_stat sketch, its set-point callbacks and the dispatch of an MQTT
message to them. -/
namespace Wyostat.MqttStat

def lowestTemp : ℤ := 40
def highestTemp : ℤ := 99
def defaultSettemplo : ℤ := 50
def defaultSettemphi : ℤ := 80
def settemploAddr : ℕ := 40
def settemphiAddr : ℕ := 41

/-- Whether a broker connection survives up to an interaction, indexed by the count of
interactions so far. -/
structure World where
  link : ℕ → Bool
  intOfNan : ℤ

/-- The globals, with their initial values. `tick` counts the interactions with the
environment and `log` records the visible effects, newest first. -/
structure Stat where
  settemplo : ℤ := 0
  settemphi : ℤ := 0
  furnaceState : Bool := false
  acState : Bool := false
  fanState : Bool := false
  localtemperature : Reading ℚ := .num 0
  lastTemp : ℤ := 0
  lastMsg : BitVec 32 := 0
  eeprom : Eeprom := Eeprom.erased
  connected : Bool := false
  tick : ℕ := 0
  log : List Event := []

namespace Stat

@[simps] def setSettemplo (n : ℤ) (s : Stat) : Stat := { s with settemplo := n }
@[simps] def setSettemphi (n : ℤ) (s : Stat) : Stat := { s with settemphi := n }
@[simps] def setFurnaceState (b : Bool) (s : Stat) : Stat := { s with furnaceState := b }
@[simps] def setAcState (b : Bool) (s : Stat) : Stat := { s with acState := b }
@[simps] def setFanState (b : Bool) (s : Stat) : Stat := { s with fanState := b }
@[simps] def setLastTemp (n : ℤ) (s : Stat) : Stat := { s with lastTemp := n }
@[simps] def setLastMsg (t : BitVec 32) (s : Stat) : Stat := { s with lastMsg := t }
@[simps] def setConnected (b : Bool) (s : Stat) : Stat := { s with connected := b }
@[simps] def tock (s : Stat) : Stat := { s with tick := s.tick + 1 }

@[simps] def setLocaltemperature (x : Reading ℚ) (s : Stat) : Stat :=
  { s with localtemperature := x }

end Stat

/-- `mqtt_client.publish`; a publish over a lost connection is lost. -/
@[simps] def publish (w : World) (topic : String) (payload : List Char) (s : Stat) : Stat :=
  { s with
    connected := s.connected && w.link s.tick
    tick := s.tick + 1
    log := if s.connected && w.link s.tick then .publish topic payload :: s.log else s.log }

@[simps] def digitalWrite (pin : Pin) (level : Bool) (s : Stat) : Stat :=
  { s with log := .digitalWrite pin level s.tick :: s.log }

@[simps] def eepromWrite (addr : ℕ) (value : ℤ) (s : Stat) : Stat :=
  { s with eeprom := s.eeprom.write addr value }

def publishInt (w : World) (topic : String) (val : ℤ) : Stat → Stat :=
  publish w topic (Decimal.itoa val)

/-- What both setters accept: the bounds themselves are out. -/
def InRange (temp : ℤ) : Prop := lowestTemp < temp ∧ temp < highestTemp

instance (temp : ℤ) : Decidable (InRange temp) := inferInstanceAs (Decidable (_ ∧ _))

/-- What both setters do: a new value in range goes to the field and the cell of the set-point. -/
def setTemp (value : Stat → ℤ) (put : ℤ → Stat → Stat) (addr : ℕ) (temp : ℤ) (s : Stat) : Stat :=
  if InRange temp then
    if temp ≠ value s then eepromWrite addr temp (put temp s) else s
  else s

/-- `_settemplo` -/
def settemplo : ℤ → Stat → Stat := setTemp Stat.settemplo Stat.setSettemplo settemploAddr

/-- `_settemphi` -/
def settemphi : ℤ → Stat → Stat := setTemp Stat.settemphi Stat.setSettemphi settemphiAddr

/-- The upper set-point is to give way to a lower one above it, and is reported. -/
def settemploCb (w : World) (payload : List Char) (s : Stat) : Stat :=
  let s := settemplo (bytes2int payload) s
  if s.settemphi < s.settemplo then
    let s := settemphi highestTemp s
    publishInt w "wyostat.settemphi" s.settemphi s
  else s

/-- The lower set-point is to give way to an upper one not above it; its report is disabled. -/
def settemphiCb (_w : World) (payload : List Char) (s : Stat) : Stat :=
  let s := settemphi (bytes2int payload) s
  if s.settemphi ≤ s.settemplo then settemplo lowestTemp s else s

structure TopicListener where
  topic : String
  callback : World → List Char → Stat → Stat

def topicListeners : List TopicListener :=
  [⟨"wyostat.settemplo", settemploCb⟩, ⟨"wyostat.settemphi", settemphiCb⟩]

/-- The first listener of the topic runs; other topics are only printed. -/
def mqttCallback (w : World) (s : Stat) (m : Msg) : Stat :=
  match topicListeners.find? (·.topic = m.topic) with
  | some l => l.callback w m.payload s
  | none => s

/-- A cell that was never written stands for the default. -/
def loadSetting (e : Eeprom) (addr : ℕ) (default : ℤ) : ℤ :=
  if e addr = 255 then default else (e addr).toNat

def loadSettings (s : Stat) : Stat :=
  (s.setSettemplo (loadSetting s.eeprom settemploAddr defaultSettemplo)).setSettemphi
    (loadSetting s.eeprom settemphiAddr defaultSettemphi)

/-- The globals at power-up. -/
def powerUp (eeprom : Eeprom) : Stat := { eeprom := eeprom }

end Wyostat.MqttStat
