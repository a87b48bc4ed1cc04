import Wyostat.OpenThermostat.State

/-! The topic listeners and the dispatch of an MQTT message to them. -/
namespace Wyostat.OpenThermostat

/-- `_targettemp`: a value out of range is ignored, and so is the value already held. -/
def targettemp (w : World) (temp : ℤ) (s : Stat) : Stat :=
  if lowestTemp ≤ temp ∧ temp ≤ highestTemp then
    if temp ≠ (getTargettemp w s).toNat then
      let s := setTargettemp w (UInt8.ofInt temp) s.tock
      let s := displayTemp w s
      eepromWrite targettempAddr temp s
    else s.tock
  else s

def targettempCb (w : World) (payload : List Char) : Stat → Stat :=
  targettemp w (bytes2int payload)

def awayCb (w : World) (payload : List Char) (s : Stat) : Stat :=
  if bytes2bool payload ≠ s.away then
    let s := s.setAway (bytes2bool payload)
    let s := eepromWrite awayAddr (if s.away then 1 else 0) s
    displayTemp w s
  else s

def requesttempCb (w : World) (_payload : List Char) : Stat → Stat := publishHvacState w

def requesttargettempCb (w : World) (_payload : List Char) : Stat → Stat := publishHvacState w

def requestmodeCb (w : World) (_payload : List Char) (s : Stat) : Stat :=
  publishHvacState w (publish w "wyostat.hvacmode" (cString s.hvacmode.toList) s)

def requeststateCb (w : World) (_payload : List Char) : Stat → Stat := publishHvacState w

/-- The array after `hvacmode[i] = payload[i]` for every `i`, from index `i` on. A store
past the end of the array does not reach any of the modelled globals. -/
def copyMode (mode : Vector Char 50) : ℕ → List Char → Vector Char 50
  | _, [] => mode
  | i, c :: rest => copyMode (mode.setIfInBounds i c) (i + 1) rest

def hvacmodeCb (_w : World) (payload : List Char) (s : Stat) : Stat :=
  s.setHvacmode ((copyMode s.hvacmode 0 payload).setIfInBounds payload.length nul)

structure TopicListener where
  topic : String
  callback : World → List Char → Stat → Stat

/-- The count is kept apart from the table and is one short of it. -/
def nTopicListeners : ℕ := 6

def topicListeners : List TopicListener :=
  [⟨"wyostat.targettemp", targettempCb⟩,
   ⟨"wyostat.away", awayCb⟩,
   ⟨"wyostat.requesttemp", requesttempCb⟩,
   ⟨"wyostat.requesttargettemp", requesttargettempCb⟩,
   ⟨"wyostat.requeststate", requestmodeCb⟩,
   ⟨"wyostat.hvacmode", hvacmodeCb⟩,
   ⟨"wyostat.requeststate", requeststateCb⟩]

/-- The first listener of the topic runs; other topics are only printed. -/
def mqttCallback (w : World) (m : Msg) (s : Stat) : Stat :=
  match (topicListeners.take nTopicListeners).find? (·.topic = m.topic) with
  | some l => l.callback w m.payload s
  | none => s

/-- The topics passed to `mqtt_client.subscribe`. -/
def subscribe : List String := (topicListeners.take nTopicListeners).map (·.topic)

end Wyostat.OpenThermostat
