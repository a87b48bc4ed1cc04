import Wyostat.AdafruitMqtt.Reading
import Mathlib.Data.Fin.Basic
import Mathlib.Data.List.FinRange
import Mathlib.Logic.Function.Basic

/-! The MQTT client of Adafruit: the packets it sends, the table of its subscriptions and what it
makes of the packets that arrive. -/
namespace Wyostat.AdafruitMqtt
open PubSubClient (Memory Packet store)

/-- `MAXSUBSCRIPTIONS` -/
def maxSubscriptions : ℕ := 5

instance : NeZero maxSubscriptions := ⟨by decide⟩

/-- `SUBSCRIPTIONDATALEN` -/
def subscriptionDataLen : ℕ := 100

/-- `Adafruit_MQTT_Subscribe`: `lastread` are its 100 bytes. -/
structure Subscription where
  topic : List UInt8
  qos : UInt8
  lastread : List UInt8
  datalen : ℕ
  deriving DecidableEq, Repr

/-- What a callback finds at `lastread`, if there is a NUL to end it. -/
def Subscription.text (sub : Subscription) : Option (List UInt8) :=
  if 0 ∈ sub.lastread then some (sub.lastread.takeWhile (· ≠ 0)) else none

structure Client where
  buffer : Memory
  packetIdCounter : UInt16
  subscriptions : Fin maxSubscriptions → Option Subscription

section Sending

/-- A string behind its length. -/
def stringprint (s : List UInt8) : List UInt8 :=
  UInt8.ofNat (s.length / 256) :: UInt8.ofNat s.length :: s

/-- The loop of `publishPacket` that encodes the length. -/
def encodeLength (len : ℕ) : List UInt8 :=
  if 0 < len / 128 then (UInt8.ofNat (len % 128) ||| 0x80) :: encodeLength (len / 128)
  else [UInt8.ofNat (len % 128)]
termination_by len
decreasing_by omega

def idBytes (id : UInt16) : List UInt8 := [UInt8.ofNat (id.toNat / 256), UInt8.ofNat id.toNat]

/-- `publishPacket`: the length is kept in 16 bits. -/
def publishPacket (topic data : List UInt8) (qos : UInt8) (id : UInt16) : List UInt8 :=
  let len := 2 + topic.length + (if 0 < qos then 2 else 0) + data.length
  ((0x30 : UInt8) ||| qos <<< 1) :: (encodeLength (len % 65536) ++ stringprint topic ++
    (if 0 < qos then idBytes id else []) ++ data)

/-- What the packets whose length is taken for one byte are in the buffer. -/
def writtenPacket (first : UInt8) (body : List UInt8) : List UInt8 :=
  first :: UInt8.ofNat body.length :: body

/-- What is sent of it: the length of the whole is taken for one byte, too. -/
def shortPacket (first : UInt8) (body : List UInt8) : List UInt8 :=
  (writtenPacket first body).take ((body.length + 2) % 256)

def subscribeBody (topic : List UInt8) (qos : UInt8) (id : UInt16) : List UInt8 :=
  idBytes id ++ stringprint topic ++ [qos]

def subscribePacket (topic : List UInt8) (qos : UInt8) (id : UInt16) : List UInt8 :=
  shortPacket 0x82 (subscribeBody topic qos id)

def unsubscribePacket (topic : List UInt8) (id : UInt16) : List UInt8 :=
  shortPacket 0xa1 (idBytes id ++ stringprint topic)

def pingPacket : List UInt8 := shortPacket 0xc0 []
def disconnectPacket : List UInt8 := shortPacket 0xe0 []
def pubackPacket (id : UInt16) : List UInt8 := shortPacket 0x40 (idBytes id)

end Sending

section Receiving

/-- `tolower` -/
def lower (c : UInt8) : UInt8 := if 0x41 ≤ c ∧ c ≤ 0x5a then c + 0x20 else c

/-- `strncasecmp` over two topics of one length. -/
def sameTopic (s t : List UInt8) : Prop := s.map lower = t.map lower

instance (s t : List UInt8) : Decidable (sameTopic s t) := inferInstanceAs (Decidable (_ = _))

def range (buffer : Memory) (start n : ℕ) : List UInt8 :=
  (List.range n).map fun i => buffer (start + i)

/-- The first subscription to a topic. -/
def Client.find (c : Client) (topic : List UInt8) : Option (Fin maxSubscriptions) :=
  (List.finRange maxSubscriptions).find? fun i =>
    (c.subscriptions i).any fun sub => sub.topic.length = topic.length ∧ sameTopic topic sub.topic

/-- `subscribe` of what is not subscribed yet: the first free place in the table. -/
def Client.subscribe (c : Client) (sub : Subscription) : Client × Bool :=
  match (List.finRange maxSubscriptions).find? fun i => (c.subscriptions i).isNone with
  | none => (c, false)
  | some i => ({ c with subscriptions := Function.update c.subscriptions i (some sub) }, true)

/-- The data of a packet as a subscription keeps it. -/
def Subscription.keep (sub : Subscription) (data : List UInt8) : Subscription :=
  { sub with
    lastread := data ++ List.replicate (subscriptionDataLen - data.length) 0
    datalen := data.length }

/-- `readSubscription`: the subscription that has new data, the packets that are sent for it, and
what has not been read. -/
def Client.readSubscription (c : Client) (input : Stream) :
    Client × Option (Fin maxSubscriptions) × List (List UInt8) × Stream :=
  let r := readFullPacket c.buffer input
  let c := { c with buffer := r.1 }
  let len := r.2.1
  if len = 0 then (c, none, [], r.2.2)
  else
    let topiclen := (c.buffer 3).toNat
    match c.find (range c.buffer 4 topiclen) with
    | none => (c, none, [], r.2.2)
    | some i =>
      let qos1 := c.buffer 0 &&& 0x6 = 0x2
      let packetIdLen := if qos1 then 2 else 0
      let datalen := (UInt16.ofNat len - UInt16.ofNat topiclen - UInt16.ofNat packetIdLen - 4).toNat
      let datalen := if subscriptionDataLen < datalen then subscriptionDataLen - 1 else datalen
      let data := range c.buffer (4 + topiclen + packetIdLen) datalen
      ({ c with subscriptions :=
          Function.update c.subscriptions i ((c.subscriptions i).map (·.keep data)) },
        some i,
        if qos1 then [pubackPacket
          (UInt16.ofNat (256 * (c.buffer (topiclen + 4)).toNat + (c.buffer (topiclen + 5)).toNat))]
        else [], r.2.2)

/-- `processPacketsUntil`: what does not have the type waited for is dropped. Each packet takes
something from the input, so `fuel` beyond its length is enough. -/
def processPacketsUntil (packetType : UInt8) : ℕ → Memory → Stream → Memory × ℕ × Stream
  | 0, buffer, input => (buffer, 0, input)
  | fuel + 1, buffer, input =>
    let r := readFullPacket buffer input
    if r.2.1 = 0 then r
    else if r.1 0 >>> 4 = packetType then r
    else processPacketsUntil packetType fuel r.1 r.2.2

/-- `ping(1)`: whether it was answered. -/
def Client.ping (c : Client) (sends : Bool) (input : Stream) : Client × Bool × Stream :=
  let c := { c with buffer := store c.buffer 0 pingPacket }
  if sends = false then (c, false, input)
  else
    let r := processPacketsUntil 0xd (input.length + 1) c.buffer input
    ({ c with buffer := r.1 }, r.1 0 = 0xd0, r.2.2)

end Receiving

end Wyostat.AdafruitMqtt
