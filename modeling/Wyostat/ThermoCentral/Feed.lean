import Wyostat.ThermoCentral.Loop

/-! The ThermoCentral sketch behind its feeds: the broker returns to the device, in order, what
the device saved to the feed of the lower set-point. -/
namespace Wyostat.ThermoCentral

/-- A value saved to the feed of the lower set-point. -/
def savedLo? : Event → Option Data
  | .save .setTempLo value => some ⟨.setTempLo, Decimal.itoa value⟩
  | _ => none

/-- What the device saved to that feed, in order. -/
def saved (log : List Event) : List Data := (log.filterMap savedLo?).reverse

/-- One iteration with the values `io.run()` hands over in it: `some` value of another
publisher, or `none` for the oldest of the device's own that is on its way. -/
structure Round where
  budget : ℤ
  feeds : List (Option Data)
  reading : Reading ℚ
  inc : Bool
  dec : Bool

/-- The device and its own values on their way back to it, oldest first. -/
structure Net where
  stat : Stat
  returning : List Data

/-- The values handed over, and those that stay on their way. -/
def deliver : List (Option Data) → List Data → List Data × List Data
  | [], own => ([], own)
  | some d :: feeds, own => (d :: (deliver feeds own).1, (deliver feeds own).2)
  | none :: feeds, [] => deliver feeds []
  | none :: feeds, d :: own => (d :: (deliver feeds own).1, (deliver feeds own).2)

def Net.iteration (n : Net) (r : Round) : Iteration :=
  ⟨r.budget, (deliver r.feeds n.returning).1, r.reading, r.inc, r.dec⟩

/-- What the device saved between two of its states. -/
def savings (s t : Stat) : List Data := (saved t.log).drop (saved s.log).length

def Net.step (w : World) (n : Net) (r : Round) : Net :=
  let t := loop w n.stat (n.iteration r)
  ⟨t, (deliver r.feeds n.returning).2 ++ savings n.stat t⟩

/-- Nothing has been saved yet. -/
def Net.boot (eeprom : Eeprom) : Net := ⟨setup eeprom, []⟩

end Wyostat.ThermoCentral
