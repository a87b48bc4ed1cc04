import Wyostat.OpenThermostat.Loop
import Wyostat.Lib.Replica

/-! The OpenThermostat sketch behind a broker: messages of other clients and the publishes
of the device itself reach the device in the order in which the broker received them. -/
namespace Wyostat.OpenThermostat
open Machine Replica

/-- One iteration of the device with everything the broker receives around it: client
messages since the last iteration, whether the oldest message in flight is handed over, and
the client messages that arrive just before each publish of the iteration. -/
structure Round where
  before : List Msg
  deliver : Bool
  localtemp : Reading ℚ
  millis : BitVec 32
  during : List (List Msg)

/-- The client messages of a round, in order. -/
def Round.clients (r : Round) : List Msg := r.before ++ r.during.flatten

/-- The device and the messages in flight to it, oldest first. -/
structure Net where
  stat : Stat
  inflight : List (Packet Msg)

def fromClient (m : Msg) : Packet Msg := ⟨false, m⟩

def fromDevice (m : Msg) : Packet Msg := ⟨true, m⟩

/-- The broker forwards to the device what it receives on a subscribed topic. -/
def forwarded (ps : List (Packet Msg)) : List (Packet Msg) :=
  ps.filter (·.value.topic ∈ subscribe)

/-- What the device published between two of its states. -/
def news (s t : Stat) : List Msg := (published t.log).drop (published s.log).length

/-- The messages in flight when the iteration starts. -/
def Net.queue (n : Net) (r : Round) : List (Packet Msg) :=
  n.inflight ++ forwarded (r.before.map fromClient)

/-- The message the iteration hands over. -/
def Net.head (n : Net) (r : Round) : Option (Packet Msg) :=
  if r.deliver then (n.queue r).head? else none

def Net.iteration (n : Net) (r : Round) : Iteration :=
  ⟨r.localtemp, (n.head r).map Packet.value, r.millis⟩

def Net.next (w : World) (n : Net) (r : Round) : Stat := iterate w n.stat (n.iteration r)

/-- What the broker receives for the device during the iteration. -/
def Net.arrivals (w : World) (n : Net) (r : Round) : List (Packet Msg) :=
  forwarded (interleave ((news n.stat (n.next w r)).map fromDevice)
    (r.during.map (·.map fromClient)))

/-- The messages in flight once the oldest one has been handed over. -/
def Net.rest (n : Net) (r : Round) : List (Packet Msg) :=
  if r.deliver then (n.queue r).tail else n.queue r

def Net.step (w : World) (n : Net) (r : Round) : Net :=
  ⟨n.next w r, n.rest r ++ n.arrivals w r⟩

/-- After `setup()` what `mqtt_connect` has announced is in flight. -/
def Net.boot (w : World) (sensor : Reading ℚ) (eeprom : Eeprom) : Net :=
  let s := setup w sensor eeprom 1
  ⟨s, forwarded ((published s.log).map fromDevice)⟩

/-- No connection is ever lost. -/
def World.Online (w : World) : Prop := ∀ t, w.link t = true

end Wyostat.OpenThermostat
