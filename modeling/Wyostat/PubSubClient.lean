import Wyostat.Device

/-! The packet reader of the PubSubClient library and the dispatch of a PUBLISH packet to the
callback of a sketch. -/
namespace Wyostat.PubSubClient

def mqttMaxPacketSize : UInt16 := 128

/-- The buffer of the client and what lies behind it, by index. -/
abbrev Memory := ℕ → UInt8

/-- The state of `readPacket` between two bytes. -/
structure Reader where
  buffer : Memory
  len : UInt16
  input : List UInt8

/-- `readByte(buffer, &len)`; without a byte in time the packet is given up, and only the buffer is
left. -/
def Reader.readByte (r : Reader) : Except Memory Reader :=
  match r.input with
  | [] => .error r.buffer
  | b :: input => .ok ⟨Function.update r.buffer r.len.toNat b, r.len + 1, input⟩

/-- The length of a packet in digits of seven bits, lowest first; the high bit announces
another one. -/
def readLength (buffer : Memory) (len length : UInt16) (multiplier : UInt32) :
    List UInt8 → Except Memory (Reader × UInt16)
  | [] => .error buffer
  | digit :: input =>
    let buffer := Function.update buffer len.toNat digit
    let length := length + ((digit &&& 127).toUInt32 * multiplier).toUInt16
    if digit &&& 128 ≠ 0 then readLength buffer (len + 1) length (multiplier * 128) input
    else .ok (⟨buffer, len + 1, input⟩, length)

/-- The rest of a packet; what does not fit is counted, but not stored. -/
def readRest : ℕ → Reader → Except Memory Reader
  | 0, r => .ok r
  | n + 1, r =>
    match r.input with
    | [] => .error r.buffer
    | digit :: input =>
      readRest n ⟨if r.len < mqttMaxPacketSize then
          Function.update r.buffer r.len.toNat digit else r.buffer, r.len + 1, input⟩

def isPublish (first : UInt8) : Prop := first &&& 0xF0 = 0x30

instance (first : UInt8) : Decidable (isPublish first) := inferInstanceAs (Decidable (_ = _))

/-- The two bytes of the topic's length, which only a PUBLISH packet has read on their own. -/
def readTopicLength (first : UInt8) (r : Reader) : Except Memory Reader :=
  if isPublish first then do (← r.readByte).readByte else .ok r

/-- `readPacket`, for a client that streams to nowhere: the reader afterwards, whose `len` is 0 when
the packet is to be ignored, and the number of length digits; or the buffer that a packet leaves
when it breaks off. -/
def tryPacket (buffer : Memory) (input : List UInt8) : Except Memory (Reader × UInt8) := do
  let r ← Reader.readByte ⟨buffer, 0, input⟩
  let first := r.buffer 0
  let (r, length) ← readLength r.buffer r.len 0 1 r.input
  let lengthLength := (r.len - 1).toUInt8
  let r ← readTopicLength first r
  let r ← readRest (length.toNat - if isPublish first then 2 else 0) r
  return (if mqttMaxPacketSize < r.len then { r with len := 0 } else r, lengthLength)

/-- What it returns of a packet that does not break off. -/
def readPacket (buffer : Memory) (input : List UInt8) : Option (Reader × UInt8) :=
  (tryPacket buffer input).toOption

/-- What a callback gets: the topic, the place of the payload and its length. -/
structure Handed where
  topic : List UInt8
  payload : Memory
  length : UInt32

/-- The size of the message id, which only quality of service 1 has. -/
def msgIdSize (first : UInt8) : ℕ := if first &&& 0x06 = 0x02 then 2 else 0

/-- The call of the callback for a packet that has been read. -/
def dispatch (buffer : Memory) (len llen : ℕ) : Handed :=
  let tl := (buffer (llen + 1)).toNat * 256 + (buffer (llen + 2)).toNat
  { topic := (List.range tl).map fun i => buffer (llen + 3 + i)
    payload := fun i => buffer (llen + 3 + tl + msgIdSize (buffer 0) + i)
    length := UInt32.ofInt ((len : ℤ) - llen - 3 - tl - msgIdSize (buffer 0)) }

/-- `loop()` with a packet waiting: what the callback is called with, if it is called. -/
def loop (buffer : Memory) (input : List UInt8) : Option Handed := do
  let (r, llen) ← readPacket buffer input
  if 0 < r.len ∧ isPublish (r.buffer 0) then
    some (dispatch r.buffer r.len.toNat llen.toNat)
  else none

def Handed.bytes (h : Handed) : List UInt8 := (List.range h.length.toNat).map h.payload

def toChar (b : UInt8) : Char := Char.ofNat b.toNat

/-- The callback sees the topic as a C string. -/
def Handed.msg (h : Handed) : Msg :=
  ⟨String.ofList (cString (h.topic.map toChar)), h.bytes.map toChar⟩

/-- A PUBLISH packet that fits the buffer: its length takes one digit. -/
def publishPacket (first : UInt8) (topic rest : List UInt8) : List UInt8 :=
  first :: UInt8.ofNat (2 + (topic ++ rest).length) :: UInt8.ofNat (topic.length / 256) ::
    UInt8.ofNat topic.length :: (topic ++ rest)

section Storing
variable (buffer : Memory)

/-- The memory once bytes have been stored from an index on. -/
def store (start : ℕ) (bytes : List UInt8) : Memory := fun i =>
  if start ≤ i then bytes[i - start]?.getD (buffer i) else buffer i

@[simp] theorem store_nil (start : ℕ) : store buffer start [] = buffer := by
  funext i
  simp [store]

theorem store_update (start : ℕ) (b : UInt8) (bytes : List UInt8) :
    store (Function.update buffer start b) (start + 1) bytes = store buffer start (b :: bytes) := by
  funext i
  unfold store
  rcases Nat.lt_trichotomy i start with h | rfl | h
  · rw [if_neg (by omega), if_neg (by omega), Function.update_of_ne (by omega)]
  · rw [if_neg (by omega), if_pos le_rfl, Function.update_self, Nat.sub_self]
    rfl
  · obtain ⟨k, hk⟩ : ∃ k, i - start = k + 1 := ⟨i - start - 1, by omega⟩
    rw [if_pos (by omega), if_pos (by omega), Function.update_of_ne (by omega), hk,
      List.getElem?_cons_succ, show i - (start + 1) = k by omega]

/-- The rest of a packet: what fits the buffer is stored, everything is counted. -/
theorem readRest_store (bytes more : List UInt8) (buffer : Memory) (len : UInt16)
    (h : len.toNat + bytes.length < 65536) :
    readRest bytes.length ⟨buffer, len, bytes ++ more⟩ =
      .ok ⟨store buffer len.toNat (bytes.take (128 - len.toNat)),
        len + UInt16.ofNat bytes.length, more⟩ := by
  induction bytes generalizing buffer len with
  | nil => simp [readRest]
  | cons b bytes ih =>
    rw [List.length_cons] at h
    have hnext : (len + 1).toNat = len.toNat + 1 := by
      rw [UInt16.toNat_add]
      exact Nat.mod_eq_of_lt (by change len.toNat + 1 < 65536; omega)
    have hlen : len + 1 + UInt16.ofNat bytes.length = len + UInt16.ofNat (bytes.length + 1) := by
      rw [UInt16.ofNat_add, UInt16.add_comm (UInt16.ofNat bytes.length), ← UInt16.add_assoc]
      rfl
    have hroom : len < mqttMaxPacketSize ↔ len.toNat < 128 := UInt16.lt_iff_toNat_lt
    simp only [readRest, List.cons_append, List.length_cons]
    rw [ih _ _ (by omega), hnext, hlen]
    by_cases hlt : len.toNat < 128
    · rw [if_pos (hroom.mpr hlt), show 128 - len.toNat = 128 - (len.toNat + 1) + 1 by omega,
        List.take_succ_cons, store_update]
    · rw [if_neg (mt hroom.mp hlt), show 128 - (len.toNat + 1) = 0 by omega,
        show 128 - len.toNat = 0 by omega, List.take_zero, List.take_zero, store_nil, store_nil]

end Storing

section Publish

theorem length_publishPacket (first : UInt8) (topic rest : List UInt8) :
    (publishPacket first topic rest).length = 4 + (topic ++ rest).length := by
  simp only [publishPacket, List.length_cons]
  omega

theorem store_publishPacket (buffer : Memory) (first : UInt8) (topic rest : List UInt8) (i : ℕ)
    (h : i < (topic ++ rest).length) :
    store buffer 0 (publishPacket first topic rest) (4 + i) = (topic ++ rest)[i] := by
  rw [store, if_pos (Nat.zero_le _), Nat.sub_zero, publishPacket, Nat.add_comm 4 i,
    List.getElem?_cons_succ, List.getElem?_cons_succ, List.getElem?_cons_succ,
    List.getElem?_cons_succ, List.getElem?_eq_getElem h, Option.getD_some]

theorem map_range_eq {buffer : Memory} {start : ℕ} {text : List UInt8}
    (hmem : ∀ i (h : i < text.length), buffer (start + i) = text[i]) (skip n : ℕ)
    (h : skip + n ≤ text.length) :
    (List.range n).map (fun i => buffer (start + skip + i)) = (text.drop skip).take n := by
  apply List.ext_getElem
  · simp only [List.length_map, List.length_range, List.length_take, List.length_drop]
    omega
  · intro i hi _
    rw [List.length_map, List.length_range] at hi
    rw [List.getElem_map, List.getElem_range, List.getElem_take, List.getElem_drop,
      Nat.add_assoc, hmem _ (by omega)]

theorem topicLength_publishPacket (buffer : Memory) (first : UInt8) {topic : List UInt8}
    (rest : List UInt8) (h : topic.length < 65536) :
    (store buffer 0 (publishPacket first topic rest) (1 + 1)).toNat * 256 +
      (store buffer 0 (publishPacket first topic rest) (1 + 2)).toNat = topic.length := by
  change (UInt8.ofNat (topic.length / 256)).toNat * 256 + (UInt8.ofNat topic.length).toNat = _
  rw [UInt8.toNat_ofNat', UInt8.toNat_ofNat']
  omega

theorem dispatch_publishPacket {first : UInt8} {topic rest : List UInt8} (buffer : Memory)
    (hfits : 4 + (topic ++ rest).length ≤ 128) (hid : msgIdSize first ≤ rest.length) :
    let h := dispatch (store buffer 0 (publishPacket first topic rest))
      (4 + (topic ++ rest).length) 1
    h.topic = topic ∧ h.bytes = rest.drop (msgIdSize first) := by
  rw [List.length_append] at hfits
  have hmem := store_publishPacket buffer first topic rest
  have hzero : store buffer 0 (publishPacket first topic rest) 0 = first := rfl
  have hlong : topic.length < 65536 := by omega
  have htl := topicLength_publishPacket buffer first rest hlong
  generalize store buffer 0 (publishPacket first topic rest) = memory at *
  dsimp only
  constructor
  · simp only [dispatch, htl]
    have htext := map_range_eq hmem 0 topic.length (by simp)
    rwa [List.drop_zero, List.take_left] at htext
  · have hcount : (UInt32.ofInt (((4 + (topic ++ rest).length : ℕ) : ℤ) - (1 : ℕ) - 3 -
        topic.length - msgIdSize first)).toNat = rest.length - msgIdSize first := by
      rw [List.length_append]
      simp only [UInt32.ofInt, UInt32.toNat_ofNat']
      omega
    have hend : topic.length + msgIdSize first + (rest.length - msgIdSize first) ≤
        (topic ++ rest).length := by
      rw [List.length_append]
      omega
    have htext := map_range_eq hmem _ _ hend
    have hall : (rest.drop (msgIdSize first)).length ≤ rest.length - msgIdSize first := by simp
    rw [List.drop_length_add_append, List.take_of_length_le hall] at htext
    simp only [Handed.bytes, dispatch, htl, hzero, hcount]
    rwa [← Nat.add_assoc] at htext

end Publish

end Wyostat.PubSubClient
