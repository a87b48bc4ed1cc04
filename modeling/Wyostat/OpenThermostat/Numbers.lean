import Wyostat.OpenThermostat.Messages

/-! Numbers on the wire: what `publish_int` sends `bytes2int` reads back, and what is no number
reads as zero. -/
namespace Wyostat.OpenThermostat
open Decimal

/-- Every 32-bit number that the device publishes is read back, and a payload that does not start
with a number leaves the targets alone. -/
theorem numbers_survive_wire (w : World) (s : Stat) :
    (∀ (topic : String) (n : Int32), s.connected = true → w.link s.tick = true →
      ∃ payload, published (publishInt w topic n.toInt s).log =
        published s.log ++ [⟨topic, payload⟩] ∧ bytes2int payload = n.toInt) ∧
    ∀ payload : List Char, ¬ StartsNumber payload →
      bytes2int payload = 0 ∧ targettempCb w payload s = s := by
  constructor
  · intro topic n hconnected hlink
    refine ⟨itoa n.toInt, ?_, bytes2int_itoa n.le_toInt n.toInt_lt⟩
    rw [publishInt, publish_log, hconnected, hlink]
    exact published_publish ..
  · intro payload h
    have hzero : bytes2int payload = 0 := (bytes2int_eq payload).trans (atol_eq_zero h)
    refine ⟨hzero, ?_⟩
    rw [targettempCb, hzero, targettemp, if_neg (by decide)]

end Wyostat.OpenThermostat
