import Wyostat.Device
import Mathlib.Data.Fin.VecNotation
import Mathlib.Tactic.Simps.Basic

/-! The globals of the OpenThermostat sketch, the environment it reads, and the
primitive effects from which its functions are built. -/
namespace Wyostat.OpenThermostat

def lowestTemp : ℤ := 40
def highestTemp : ℤ := 90
def hilogap : ℤ := 4
def awaymin : ℤ := 50
def awaymax : ℤ := 90
def minChangeDuration : UInt32 := 1 * 60
def targettempAddr : ℕ := 40
def awayAddr : ℕ := 41

/-- What the sketch cannot determine itself, indexed by the count of interactions so far:
the seconds `ds3231_clock.now()` returns, the hour `ds3231_clock.hours()` returns (as stored
in a byte), and whether a broker connection survives up to this interaction. -/
structure World where
  rtc : ℕ → UInt32
  hours : ℕ → UInt8
  link : ℕ → Bool
  intOfNan : ℤ

/-- The clock never runs backwards; its readings do not wrap. -/
def World.Nondecreasing (w : World) : Prop := ∀ ⦃i j⦄, i ≤ j → w.rtc i ≤ w.rtc j

/-- `char hvacmode[50] = "heating"`. -/
def heatingMode : Vector Char 50 :=
  Vector.ofFn fun i => ['h', 'e', 'a', 't', 'i', 'n', 'g'].getD i nul

/-- The globals, with their initial values. `tick` counts the interactions with the
environment and `log` records the visible effects, newest first. -/
structure Stat where
  localtemp : Reading ℚ := .num 50
  lastTemp : ℤ := 0
  lastMsg : BitVec 32 := 0
  furnaceState : Bool := false
  acState : Bool := false
  fanState : Bool := false
  away : Bool := false
  targettemps : Fin 2 → UInt8 := ![60, 68]
  hvacmode : Vector Char 50 := heatingMode
  lastFurnaceStateChange : UInt32 := 0
  loopCounter : UInt32 := 0
  eeprom : Eeprom := Eeprom.erased
  connected : Bool := false
  tick : ℕ := 0
  log : List Event := []

namespace Stat

/-! One assignment each, so that longer functions never spell out the whole state. -/

@[simps] def setLocaltemp (x : Reading ℚ) (s : Stat) : Stat := { s with localtemp := x }
@[simps] def setLastTemp (n : ℤ) (s : Stat) : Stat := { s with lastTemp := n }
@[simps] def setLastMsg (t : BitVec 32) (s : Stat) : Stat := { s with lastMsg := t }
@[simps] def setFurnaceState (b : Bool) (s : Stat) : Stat := { s with furnaceState := b }
@[simps] def setAcState (b : Bool) (s : Stat) : Stat := { s with acState := b }
@[simps] def setFanState (b : Bool) (s : Stat) : Stat := { s with fanState := b }
@[simps] def setAway (b : Bool) (s : Stat) : Stat := { s with away := b }
@[simps] def setHvacmode (m : Vector Char 50) (s : Stat) : Stat := { s with hvacmode := m }
@[simps] def setConnected (b : Bool) (s : Stat) : Stat := { s with connected := b }
@[simps] def setLoopCounter (n : UInt32) (s : Stat) : Stat := { s with loopCounter := n }
@[simps] def setLastFurnaceStateChange (t : UInt32) (s : Stat) : Stat :=
  { s with lastFurnaceStateChange := t }

/-- `hvacmode[0]`, all that `loop()` looks at. -/
def mode (s : Stat) : Char := s.hvacmode[0]

/-- One interaction with the environment has taken place. -/
@[simps] def tock (s : Stat) : Stat := { s with tick := s.tick + 1 }

end Stat

/-- `mqtt_client.publish`; a publish over a lost connection is lost. Every topic and
payload of the sketch fits a packet. -/
@[simps] def publish (w : World) (topic : String) (payload : List Char) (s : Stat) : Stat :=
  { s with
    connected := s.connected && w.link s.tick
    tick := s.tick + 1
    log := if s.connected && w.link s.tick then .publish topic payload :: s.log else s.log }

@[simps] def digitalWrite (pin : Pin) (level : Bool) (s : Stat) : Stat :=
  { s with log := .digitalWrite pin level s.tick :: s.log }

@[simps] def draw (d : Draw) (s : Stat) : Stat := { s with log := .draw d :: s.log }

def publishOffOn (w : World) (topic : String) (val : Bool) : Stat → Stat :=
  publish w topic (if val then ['o', 'n'] else ['o', 'f', 'f'])

def publishBool (w : World) (topic : String) (val : Bool) : Stat → Stat :=
  publish w topic (boolText val)

def publishInt (w : World) (topic : String) (val : ℤ) : Stat → Stat :=
  publish w topic (Decimal.itoa val)

/-- The schedule slot of an hour: `targettimes` is `{6, 22}`. -/
def slotOf (hh : UInt8) : Fin 2 :=
  if hh < 6 then 0 else if hh < 22 then 1 else 0

def getTargetIndex (w : World) (s : Stat) : Fin 2 := slotOf (w.hours s.tick)

/-- The value `get_targettemp()` returns; the call itself is one interaction. -/
def getTargettemp (w : World) (s : Stat) : UInt8 := s.targettemps (getTargetIndex w s)

@[simps] def setTargettemp (w : World) (t : UInt8) (s : Stat) : Stat :=
  { s with
    targettemps := Function.update s.targettemps (getTargetIndex w s) t
    tick := s.tick + 1 }

@[simps] def eepromWrite (addr : ℕ) (value : ℤ) (s : Stat) : Stat :=
  { s with eeprom := s.eeprom.write addr value }

/-- The texts drawn by `displayTemp`: the arcs of the dial are left out. The target is
read twice, for its text and for the height of the room temperature. -/
def displayTemp (w : World) (s : Stat) : Stat :=
  let s := draw (.fillBlack 64 0 64 64) s
  let text := if s.away then ['A', 'W', 'A', 'Y'] else Decimal.itoa (getTargettemp w s).toNat
  let s := draw (.drawString 95 20 text) s.tock
  let y := if s.localtemp.Below (getTargettemp w s).toNat then 8 else 44
  draw (.drawString 95 y (Decimal.itoa (truncate w.intOfNan s.localtemp))) s.tock

/-- The icon area is cleared and, with `some icon`, drawn again. -/
def drawIcon (icon : Option Icon) (s : Stat) : Stat :=
  let s := draw (.fillBlack 16 16 32 32) s
  match icon with
  | some icon => draw (.drawXbm 16 16 icon) s
  | none => s

/-- The state topic, then every setting on the topic that also commands it. -/
def publishHvacState (w : World) (s : Stat) : Stat :=
  let state :=
    if s.acState then ['c', 'o', 'o', 'l', 'i', 'n', 'g']
    else if s.furnaceState then ['h', 'e', 'a', 't', 'i', 'n', 'g']
    else ['o', 'f', 'f']
  let s := publish w "wyostat.hvac_state" state s
  let s := publishBool w "wyostat.away" s.away s
  let s := publishInt w "wyostat.temp" (truncate w.intOfNan s.localtemp) s
  publishInt w "wyostat.targettemp" (getTargettemp w s).toNat s.tock

end Wyostat.OpenThermostat
