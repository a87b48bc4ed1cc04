import Wyostat.Device
import Mathlib.Tactic.Simps.Basic

/-! The globals of the ThermoCentral sketch and the handlers of its feeds. -/
namespace Wyostat.ThermoCentral

def tempgap : ℚ := 2
def tempInterval : UInt32 := 1000
def recordUpdate : UInt32 := 10000
def defaultSetTempLo : ℤ := 55
def defaultSetTempHi : ℤ := 80
def setTempLoAddr : ℕ := 0
def setTempHiAddr : ℕ := 1

/-- What the sketch cannot determine itself: the milliseconds `millis()` returns, indexed by
the count of interactions so far. -/
structure World where
  millis : ℕ → UInt32
  intOfNan : ℤ

/-- The globals, with their initial values; the relay states only ever hold 0 and 1. `tick`
counts the readings of the clock and `log` records the visible effects, newest first. -/
structure Stat where
  living : ℤ := 0
  settemperatureLo : ℤ := 55
  settemperatureHi : ℤ := 80
  furnacestate : Bool := false
  acstate : Bool := false
  fanstate : Bool := false
  localtemperature : Reading ℚ := .num 0
  lastUpdate : UInt32 := 0
  lastrecord : UInt32 := 0
  lastInc : Bool := false
  lastDec : Bool := false
  eeprom : Eeprom := Eeprom.erased
  tick : ℕ := 0
  log : List Event := []

namespace Stat

@[simps] def setLiving (n : ℤ) (s : Stat) : Stat := { s with living := n }
@[simps] def setSettemperatureLo (n : ℤ) (s : Stat) : Stat := { s with settemperatureLo := n }
@[simps] def setSettemperatureHi (n : ℤ) (s : Stat) : Stat := { s with settemperatureHi := n }
@[simps] def setFurnacestate (b : Bool) (s : Stat) : Stat := { s with furnacestate := b }
@[simps] def setAcstate (b : Bool) (s : Stat) : Stat := { s with acstate := b }
@[simps] def setFanstate (b : Bool) (s : Stat) : Stat := { s with fanstate := b }
@[simps] def setLastUpdate (t : UInt32) (s : Stat) : Stat := { s with lastUpdate := t }
@[simps] def setLastrecord (t : UInt32) (s : Stat) : Stat := { s with lastrecord := t }
@[simps] def setLastInc (b : Bool) (s : Stat) : Stat := { s with lastInc := b }
@[simps] def setLastDec (b : Bool) (s : Stat) : Stat := { s with lastDec := b }
@[simps] def tock (s : Stat) : Stat := { s with tick := s.tick + 1 }

@[simps] def setLocaltemperature (x : Reading ℚ) (s : Stat) : Stat :=
  { s with localtemperature := x }

end Stat

@[simps] def digitalWrite (pin : Pin) (level : Bool) (s : Stat) : Stat :=
  { s with log := .digitalWrite pin level s.tick :: s.log }

@[simps] def save (feed : Feed) (value : ℤ) (s : Stat) : Stat :=
  { s with log := .save feed value :: s.log }

@[simps] def eepromWrite (addr : ℕ) (value : ℤ) (s : Stat) : Stat :=
  { s with eeprom := s.eeprom.write addr value }

/-- A value that has arrived on a feed. -/
structure Data where
  feed : Feed
  value : List Char
  deriving DecidableEq, Repr

def handleLivingroom (data : List Char) (s : Stat) : Stat :=
  if data.length < 1 then s else s.setLiving (Decimal.atol data)

/-- What both set-points have in common: a new value goes to the cell and the field. -/
def handleSetTemp (value : Stat → ℤ) (put : ℤ → Stat → Stat) (addr : ℕ) (data : List Char)
    (s : Stat) : Stat :=
  if data.length < 1 then s
  else if Decimal.atol data ≠ value s then
    put (Decimal.atol data) (eepromWrite addr (Decimal.atol data) s)
  else s

def handleSetTempLo : List Char → Stat → Stat :=
  handleSetTemp Stat.settemperatureLo Stat.setSettemperatureLo setTempLoAddr

def handleSetTempHi : List Char → Stat → Stat :=
  handleSetTemp Stat.settemperatureHi Stat.setSettemperatureHi setTempHiAddr

/-- The handlers passed to `onMessage`; the two state feeds have none. -/
def handle (s : Stat) (d : Data) : Stat :=
  match d.feed with
  | .livingroomtemp => handleLivingroom (cString d.value) s
  | .setTempLo => handleSetTempLo (cString d.value) s
  | .setTempHi => handleSetTempHi (cString d.value) s
  | .furnaceState | .acState => s

/-- A cell that was never written stands for the default. -/
def loadSetting (e : Eeprom) (addr : ℕ) (default : ℤ) : ℤ :=
  if e addr = 255 then default else (e addr).toNat

def loadSettings (s : Stat) : Stat :=
  (s.setSettemperatureLo (loadSetting s.eeprom setTempLoAddr defaultSetTempLo)).setSettemperatureHi
    (loadSetting s.eeprom setTempHiAddr defaultSetTempHi)

end Wyostat.ThermoCentral
