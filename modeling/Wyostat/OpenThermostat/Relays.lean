import Wyostat.OpenThermostat.State

/-! The three relay setters. -/
namespace Wyostat.OpenThermostat

/-- A change is refused, without notice to the caller, until the last one is more than
`minChangeDuration` seconds old. The clock is read once to decide and once to store. -/
def setFurnace (w : World) (state : Bool) (s : Stat) : Stat :=
  if state ≠ s.furnaceState then
    if minChangeDuration < w.rtc s.tick - s.lastFurnaceStateChange then
      let s := digitalWrite .furnaceSCR state (s.tock.setFurnaceState state)
      let s := (s.setLastFurnaceStateChange (w.rtc s.tick)).tock
      let s := publishOffOn w "wyostat.furnace_state" s.furnaceState s
      let s := publishHvacState w s
      drawIcon (if s.furnaceState then some .fire else none) s
    else s.tock
  else s

def setAc (w : World) (state : Bool) (s : Stat) : Stat :=
  if state ≠ s.acState then
    let s := digitalWrite .acSCR state (s.setAcState state)
    let s := publishOffOn w "wyostat.furnace_state" s.acState s
    let s := publishHvacState w s
    drawIcon (if s.acState then some .flake else none) s
  else s

def setFan (w : World) (state : Bool) (s : Stat) : Stat :=
  if state ≠ s.fanState then
    let s := publish w "wyostat.fan_state" (if state then ['1'] else ['0']) s
    digitalWrite .fanSCR state (s.setFanState state)
  else s

end Wyostat.OpenThermostat
