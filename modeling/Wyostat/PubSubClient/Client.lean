import Wyostat.PubSubClient.BreakingOff

/-! The object of the PubSubClient library: how it puts packets together, and `loop()` with its
timers. -/
namespace Wyostat.PubSubClient

def mqttConnectionTimeout : ℤ := -4
def mqttConnectionLost : ℤ := -3
def mqttConnectFailed : ℤ := -2
def mqttDisconnected : ℤ := -1
def mqttConnected : ℤ := 0

/-- Seconds. -/
def mqttKeepalive : UInt32 := 15

structure Client where
  state : ℤ
  nextMsgId : UInt16
  lastOutActivity : UInt32
  lastInActivity : UInt32
  pingOutstanding : Bool
  buffer : Memory

/-- What the client does to its network connection, and the calls of the sketch's callback. -/
inductive Effect
  | write (bytes : List UInt8)
  | flush
  | stop
  | callback (h : Handed)

/-- What a call finds on the network: whether the connection stands, and the bytes that arrive in
time. -/
structure Link where
  up : Bool
  input : List UInt8

section Behind

/-- The bytes of a member in memory, lowest first. -/
def bytes16 (n : UInt16) : List UInt8 := [UInt8.ofNat n.toNat, UInt8.ofNat (n.toNat / 256)]

def bytes32 (n : UInt32) : List UInt8 :=
  [UInt8.ofNat n.toNat, UInt8.ofNat (n.toNat / 256), UInt8.ofNat (n.toNat / 65536),
    UInt8.ofNat (n.toNat / 16777216)]

def uint16At (m : Memory) (i : ℕ) : UInt16 := UInt16.ofNat ((m i).toNat + 256 * (m (i + 1)).toNat)

def uint32At (m : Memory) (i : ℕ) : UInt32 :=
  UInt32.ofNat ((m i).toNat + 256 * (m (i + 1)).toNat + 65536 * (m (i + 2)).toNat +
    16777216 * (m (i + 3)).toNat)

/-- The memory of the object from the buffer on: the members declared behind it, with two bytes of
padding where 32 bits are aligned. -/
def Client.memory (c : Client) : Memory :=
  store c.buffer 128 (bytes16 c.nextMsgId ++ [c.buffer 130, c.buffer 131] ++
    bytes32 c.lastOutActivity ++ bytes32 c.lastInActivity ++ [if c.pingOutstanding then 1 else 0])

/-- The members behind the buffer as they are found in a memory. -/
def Client.overlaid (c : Client) (m : Memory) : Client :=
  { c with
    nextMsgId := uint16At m 128
    lastOutActivity := uint32At m 132
    lastInActivity := uint32At m 136
    pingOutstanding := m 140 ≠ 0 }

end Behind

/-- `connected()`, for a client whose network connection stands or not. -/
def Client.connected (c : Client) (up : Bool) : Client × List Effect :=
  if up = false ∧ c.state = mqttConnected then
    ({ c with state := mqttConnectionLost }, [.flush, .stop])
  else (c, [])

section Writing

/-- `buf[pos++]` for one byte after the other. -/
def copy : List UInt8 → Memory → UInt16 → Memory × UInt16
  | [], buf, pos => (buf, pos)
  | b :: bytes, buf, pos => copy bytes (Function.update buf pos.toNat b) (pos + 1)

def writeString (string : List UInt8) (buf : Memory) (pos : UInt16) : Memory × UInt16 :=
  let (buf, pos) := copy string buf (pos + 2)
  let i := UInt16.ofNat string.length
  let buf := Function.update buf (pos - i - 2).toNat (i >>> 8).toUInt8
  (Function.update buf (pos - i - 1).toNat (i &&& 0xFF).toUInt8, pos)

/-- What `write` collects in `lenBuf`. -/
def lenBuf (len : UInt16) : List UInt8 :=
  let digit := (len % 128).toUInt8
  if 0 < len / 128 then (digit ||| 0x80) :: lenBuf (len / 128) else [digit]
termination_by len.toNat
decreasing_by
  rename_i h
  have hpos : 0 < (len / 128).toNat := UInt16.lt_iff_toNat_lt.mp h
  rw [UInt16.toNat_div] at hpos ⊢
  change 0 < len.toNat / 128 at hpos
  exact Nat.div_lt_self (by omega) (by decide)

/-- `write(header, buf, length)` for a body that stands in the buffer from index 5 on: the buffer
afterwards, and the bytes that go out. -/
def write (header : UInt8) (buf : Memory) (length : UInt16) : Memory × List UInt8 :=
  let llen := (lenBuf length).length
  let buf := Function.update buf (4 - llen) header
  let buf := store buf (5 - llen) (lenBuf length)
  (buf, (List.range (length.toNat + 1 + llen)).map fun i => buf (4 - llen + i))

def Client.write (c : Client) (time : UInt32) (header : UInt8) (buf : Memory) (length : UInt16) :
    Client × List Effect :=
  let (buffer, sent) := PubSubClient.write header buf length
  ({ c with buffer, lastOutActivity := time }, [.write sent])

/-- Two bytes, or four, written to the front of the buffer and sent from there. -/
def Client.send (c : Client) (bytes : List UInt8) : Client × List Effect :=
  ({ c with buffer := store c.buffer 0 bytes }, [.write bytes])

def Client.publish (c : Client) (time : UInt32) (up : Bool) (topic payload : List UInt8)
    (retained : Bool) : Client × List Effect :=
  let (c, es) := c.connected up
  if up then
    if 128 < 5 + 2 + topic.length + payload.length then (c, es)
    else
      let (buffer, length) := writeString topic c.buffer 5
      let (buffer, length) := copy payload buffer length
      c.write time (if retained then 0x30 ||| 1 else 0x30) buffer (length - 5)
  else (c, es)

/-- The id of the next message, which is never 0. -/
def nextId (id : UInt16) : UInt16 := if id + 1 = 0 then 1 else id + 1

def Client.drawId (c : Client) : Client := { c with nextMsgId := nextId c.nextMsgId }

/-- The part that `subscribe` and `unsubscribe` share: the buffer with a new message id, and the
topic behind it. -/
def Client.writeTopic (c : Client) (topic : List UInt8) : Client × Memory × UInt16 :=
  let c := c.drawId
  let (buffer, length) := copy [(c.nextMsgId >>> 8).toUInt8, (c.nextMsgId &&& 0xFF).toUInt8]
    c.buffer 5
  (c, writeString topic buffer length)

def Client.subscribe (c : Client) (time : UInt32) (up : Bool) (topic : List UInt8) (qos : UInt8) :
    Client × List Effect :=
  if qos < 0 ∨ 1 < qos then (c, [])
  else if 128 < 9 + topic.length then (c, [])
  else
    let (c, es) := c.connected up
    if up then
      let (c, buffer, length) := c.writeTopic topic
      -- the longest topic leaves no room for this byte
      let c := c.overlaid (copy [qos] c.memory length).1
      let (buffer, length) := copy [qos] buffer length
      c.write time (0x80 ||| 0x02) buffer (length - 5)
    else (c, es)

def Client.unsubscribe (c : Client) (time : UInt32) (up : Bool) (topic : List UInt8) :
    Client × List Effect :=
  if 128 < 9 + topic.length then (c, [])
  else
    let (c, es) := c.connected up
    if up then
      let (c, buffer, length) := c.writeTopic topic
      c.write time (0xA0 ||| 0x02) buffer (length - 5)
    else (c, es)

def Client.disconnect (c : Client) (time : UInt32) : Client × List Effect :=
  let (c, es) := c.send [0xE0, 0]
  ({ c with state := mqttDisconnected, lastInActivity := time, lastOutActivity := time },
    es ++ [.stop])

end Writing

section Connecting

structure Will where
  topic : List UInt8
  qos : UInt8
  retain : Bool
  message : List UInt8

/-- The arguments of `connect`; without a user the password is ignored. -/
structure Login where
  id : List UInt8
  user : Option (List UInt8)
  pass : Option (List UInt8)
  will : Option Will

def Login.flags (l : Login) : UInt8 :=
  let v : UInt8 := match l.will with
    | some w => (0x06 : UInt8) ||| w.qos <<< 3 ||| (if w.retain then (1 : UInt8) else 0) <<< 5
    | none => 0x02
  match l.user, l.pass with
  | some _, some _ => v ||| 0x80 ||| 0x40
  | some _, none => v ||| 0x80
  | none, _ => v

/-- The strings that follow the fixed part of a CONNECT packet. -/
def Login.strings (l : Login) : List (List UInt8) :=
  l.id :: ((match l.will with | some w => [w.topic, w.message] | none => []) ++
    match l.user, l.pass with
    | some user, some pass => [user, pass]
    | some user, none => [user]
    | none, _ => [])

def writeStrings : List (List UInt8) → Memory → UInt16 → Memory × UInt16
  | [], buf, pos => (buf, pos)
  | string :: strings, buf, pos =>
    let (buf, pos) := writeString string buf pos
    writeStrings strings buf pos

/-- The protocol's name and version, the flags and the keep-alive time. -/
def Login.fixed (l : Login) : List UInt8 :=
  [0x00, 0x04, 0x4D, 0x51, 0x54, 0x54, 4, l.flags, (mqttKeepalive >>> 8).toUInt8,
    (mqttKeepalive &&& 0xFF).toUInt8]

/-- What happens while `connect` waits: whether the network connection comes about, when the
request goes out, and the time and the bytes of the answer if one comes in time. -/
structure Dial where
  opened : Bool
  time : UInt32
  answer : Option (UInt32 × List UInt8)

/-- The CONNECT packet. -/
def Client.request (c : Client) (time : UInt32) (l : Login) : Client × List Effect :=
  let (buffer, length) := copy l.fixed c.buffer 5
  -- nothing checks that the strings fit
  let c := c.overlaid (writeStrings l.strings (copy l.fixed c.memory 5).1 length).1
  let (buffer, length) := writeStrings l.strings buffer length
  c.write time 0x10 buffer (length - 5)

/-- Reading a packet stores as many bytes of its length as arrive. -/
def Client.reads (c : Client) (input : List UInt8) : Client :=
  c.overlaid (leftBuffer (fun x => x.1.buffer) (tryPacket c.memory input))

/-- The wait for the answer, which is to be a packet of four bytes with a 0 at its end. -/
def Client.await (c : Client) : Option (UInt32 × List UInt8) → Client × List Effect × Bool
  | none => ({ c with state := mqttConnectionTimeout }, [.stop], false)
  | some (time, input) =>
    let c := c.reads input
    match tryPacket c.buffer input with
    | .error buffer => ({ c with buffer }, [.stop], false)
    | .ok (r, _) =>
      let c : Client := { c with buffer := r.buffer }
      if r.len = 4 then
        if c.buffer 3 = 0 then
          ({ c with lastInActivity := time, pingOutstanding := false, state := mqttConnected }, [],
            true)
        else ({ c with state := (c.buffer 3).toNat }, [.stop], false)
      else (c, [.stop], false)

def Client.connect (c : Client) (up : Bool) (l : Login) (d : Dial) : Client × List Effect × Bool :=
  let (c, es) := c.connected up
  if up then (c, es, true)
  else if d.opened then
    let (c, es') := { c with nextMsgId := 1 }.request d.time l
    let (c, es'', connected) := { c with
      lastInActivity := d.time, lastOutActivity := d.time }.await d.answer
    (c, es ++ es' ++ es'', connected)
  else ({ c with state := mqttConnectFailed }, es, false)

end Connecting

section Looping

/-- One of the two timers has run out. -/
def Client.overdue (c : Client) (t : UInt32) : Prop :=
  mqttKeepalive * 1000 < t - c.lastInActivity ∨ mqttKeepalive * 1000 < t - c.lastOutActivity

instance (c : Client) (t : UInt32) : Decidable (c.overdue t) := inferInstanceAs (Decidable (_ ∨ _))

/-- The ping is sent; it counts as activity in both directions. -/
def Client.ping (c : Client) (t : UInt32) : Client × List Effect :=
  let (c, es) := c.send [0xC0, 0]
  ({ c with lastOutActivity := t, lastInActivity := t, pingOutstanding := true }, es)

/-- What `loop()` does with a packet of length `len` in its buffer. -/
def Client.handle (c : Client) (t : UInt32) (len llen : ℕ) : Client × List Effect :=
  let c : Client := { c with lastInActivity := t }
  let type := c.buffer 0 &&& 0xF0
  if type = 0x30 then
    -- a topic longer than the packet is read on behind the buffer
    let m := c.memory
    let h := dispatch m len llen
    if c.buffer 0 &&& 0x06 = 0x02 then
      let tl := (m (llen + 1)).toNat * 256 + (m (llen + 2)).toNat
      let msgId := ((m (llen + 3 + tl)).toUInt16 <<< 8) + (m (llen + 3 + tl + 1)).toUInt16
      let (c, es) := c.send [0x40, 2, (msgId >>> 8).toUInt8, (msgId &&& 0xFF).toUInt8]
      ({ c with lastOutActivity := t }, .callback h :: es)
    else (c, [.callback h])
  else if type = 0xC0 then c.send [0xD0, 0]
  else if type = 0xD0 then ({ c with pingOutstanding := false }, [])
  else (c, [])

/-- A waiting packet is read and handled; the bytes behind it are left. -/
def Client.receive (c : Client) (t : UInt32) (link : Link) : Client × List Effect × List UInt8 :=
  if link.input = [] then (c, [], [])
  else
    let c := c.reads link.input
    match tryPacket c.buffer link.input with
    | .error buffer => ({ c with buffer }, [], [])
    | .ok (r, llen) =>
      let c : Client := { c with buffer := r.buffer }
      if 0 < r.len then
        let (c, es) := c.handle t r.len.toNat llen.toNat
        (c, es, r.input)
      else (c, [], r.input)

/-- `loop()` at clock `t`: the client afterwards, what it does, and the bytes that are left. -/
def Client.loop (c : Client) (t : UInt32) (link : Link) : Client × List Effect × List UInt8 :=
  let (c, es) := c.connected link.up
  if link.up then
    if c.overdue t then
      if c.pingOutstanding then
        ({ c with state := mqttConnectionTimeout }, es ++ [.stop], link.input)
      else
        let (c, es') := c.ping t
        let (c, es'', rest) := c.receive t link
        (c, es ++ es' ++ es'', rest)
    else
      let (c, es'', rest) := c.receive t link
      (c, es ++ es'', rest)
  else (c, es, link.input)

end Looping

/-- The calls a sketch makes, each with what it finds on the network and the clock at the time. -/
inductive Call
  | connect (up : Bool) (login : Login) (dial : Dial)
  | publish (time : UInt32) (up : Bool) (topic payload : List UInt8) (retained : Bool)
  | subscribe (time : UInt32) (up : Bool) (topic : List UInt8) (qos : UInt8)
  | unsubscribe (time : UInt32) (up : Bool) (topic : List UInt8)
  | loop (time : UInt32) (link : Link)
  | disconnect (time : UInt32)

def Client.call (c : Client) : Call → Client × List Effect
  | .connect up login dial =>
    let (c, es, _) := c.connect up login dial
    (c, es)
  | .publish time up topic payload retained => c.publish time up topic payload retained
  | .subscribe time up topic qos => c.subscribe time up topic qos
  | .unsubscribe time up topic => c.unsubscribe time up topic
  | .loop time link =>
    let (c, es, _) := c.loop time link
    (c, es)
  | .disconnect time => c.disconnect time

end Wyostat.PubSubClient
