import Wyostat.ThermoCentral.State
import Wyostat.Lib.Run

/-! `setup()` and `loop()` of the ThermoCentral sketch. -/
namespace Wyostat.ThermoCentral

/-- What one iteration meets: the time budget `ui.update()` leaves, the values `io.run()`
hands over, what `sensor0.readTempF()` returns if it is called, and the levels of the
buttons (pressed is LOW). -/
structure Iteration where
  budget : ℤ
  data : List Data
  reading : Reading ℚ
  inc : Bool
  dec : Bool

def ioRun (data : List Data) (s : Stat) : Stat := data.foldl handle s

/-- A reading is due. -/
def Due (w : World) (s : Stat) : Prop := tempInterval < w.millis s.tick - s.lastUpdate

instance (w : World) (s : Stat) : Decidable (Due w s) := inferInstanceAs (Decidable (_ < _))

/-- Below 45 degrees a reading is taken over, else it enters the filter. -/
def filter (reading localtemperature : Reading ℚ) : Reading ℚ :=
  if localtemperature.Below 45 then reading
  else reading.map₂ (fun r x => r * (1 / 10) + x * (9 / 10)) localtemperature

def record (w : World) (s : Stat) : Stat :=
  if recordUpdate < w.millis s.tick - s.lastrecord then
    let s := save .livingroomtemp (truncate w.intOfNan s.localtemperature) s.tock
    (s.setLastrecord (w.millis s.tick)).tock
  else s.tock

def sampling (w : World) (reading : Reading ℚ) (s : Stat) : Stat :=
  if Due w s then
    let s := s.tock.setLocaltemperature (filter reading s.localtemperature)
    let s := record w (s.setLiving (truncate w.intOfNan s.localtemperature))
    (s.setLastUpdate (w.millis s.tick)).tock
  else s.tock

/-- The furnace is switched and the fan with it. -/
def switchFurnace (b : Bool) (s : Stat) : Stat :=
  let s := (s.setFurnacestate b).setFanstate b
  save .furnaceState (if b then 1 else 0) (digitalWrite .fanSCR b (digitalWrite .furnaceSCR b s))

/-- The AC is switched and the fan with it. -/
def switchAc (b : Bool) (s : Stat) : Stat :=
  let s := (s.setAcstate b).setFanstate b
  save .acState (if b then 1 else 0) (digitalWrite .fanSCR b (digitalWrite .acSCR b s))

def heaterControl (s : Stat) : Stat :=
  if s.furnacestate = false then
    if s.localtemperature.Below (s.settemperatureLo - tempgap) then switchFurnace true s else s
  else if s.localtemperature.AtLeast s.settemperatureLo then switchFurnace false s else s

def acControl (s : Stat) : Stat :=
  if s.acstate = false then
    if s.localtemperature.Above (s.settemperatureHi + tempgap) then switchAc true s else s
  else if s.localtemperature.AtMost s.settemperatureHi then switchAc false s else s

/-- A falling edge moves the lower set-point, which is saved to its feed. -/
def handleButtons (inc dec : Bool) (s : Stat) : Stat :=
  let s :=
    if inc ≠ s.lastInc then
      let s := s.setLastInc inc
      if inc = false then
        save .setTempLo (s.settemperatureLo + 1) (s.setSettemperatureLo (s.settemperatureLo + 1))
      else s
    else s
  if dec ≠ s.lastDec then
    let s := s.setLastDec dec
    if dec = false then
      save .setTempLo (s.settemperatureLo - 1) (s.setSettemperatureLo (s.settemperatureLo - 1))
    else s
  else s

/-- The steps by which the buttons move the lower set-point. -/
def pressSteps (inc dec : Bool) (s : Stat) : List ℤ :=
  (if inc ≠ s.lastInc ∧ inc = false then [1] else []) ++
    (if dec ≠ s.lastDec ∧ dec = false then [-1] else [])

/-- What each of them does. -/
def Stat.adjust (s : Stat) (d : ℤ) : Stat :=
  save .setTempLo (s.settemperatureLo + d) (s.setSettemperatureLo (s.settemperatureLo + d))

theorem handleButtons_eq (inc dec : Bool) (s : Stat) :
    handleButtons inc dec s =
      (((pressSteps inc dec s).foldl Stat.adjust s).setLastInc inc).setLastDec dec := by
  obtain ⟨_, _, _, _, _, _, _, _, _, lastInc, lastDec, _, _, _⟩ := s
  cases lastInc <;> cases lastDec <;> cases inc <;> cases dec <;> rfl

/-- The iteration up to the heater control. -/
def sense (w : World) (it : Iteration) (s : Stat) : Stat :=
  sampling w it.reading (ioRun it.data s)

def finish (it : Iteration) (s : Stat) : Stat :=
  if 0 < it.budget then handleButtons it.inc it.dec s else s

def loop (w : World) (s : Stat) (it : Iteration) : Stat :=
  finish it (acControl (heaterControl (sense w it s)))

def setup (eeprom : Eeprom) : Stat :=
  let s : Stat := { eeprom := eeprom }
  loadSettings (digitalWrite .acSCR false (digitalWrite .fanSCR false
    (digitalWrite .furnaceSCR false s)))

/-- A clock by which every iteration takes a reading. -/
def everySecond : World := ⟨fun t => UInt32.ofNat (2000 * (t + 1)), 0⟩

end Wyostat.ThermoCentral
