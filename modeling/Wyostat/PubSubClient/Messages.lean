import Wyostat.PubSubClient.Client
import Wyostat.PubSubClient.Framing
import Wyostat.Lib.Run

/-! The packets that the client puts together, and messages on their way from one client to the
callback of another. -/
namespace Wyostat.PubSubClient

/-- A string behind its length. -/
def prefixed (string : List UInt8) : List UInt8 :=
  UInt8.ofNat (string.length / 256) :: UInt8.ofNat string.length :: string

@[simp] theorem length_prefixed (string : List UInt8) :
    (prefixed string).length = 2 + string.length := by
  simp only [prefixed, List.length_cons]
  omega

section Storing
variable (buffer : Memory)

theorem update_store {start i : ℕ} (h : i < start) (b : UInt8) (bytes : List UInt8) :
    Function.update (store buffer start bytes) i b =
      store (Function.update buffer i b) start bytes := by
  funext j
  by_cases hj : j = i
  · subst hj
    rw [Function.update_self, store_of_lt _ _ h, Function.update_self]
  · rw [Function.update_of_ne hj]
    unfold store
    rw [Function.update_of_ne hj]

theorem store_store (start : ℕ) (xs ys : List UInt8) :
    store (store buffer (start + xs.length) ys) start xs = store buffer start (xs ++ ys) := by
  induction xs generalizing buffer start with
  | nil => simp
  | cons b xs ih =>
    rw [← store_update, List.length_cons, update_store _ (by omega),
      show start + (xs.length + 1) = start + 1 + xs.length by omega, ih, store_update,
      List.cons_append]

/-- A text that stands in the buffer from index 5 on, and the index behind it. -/
def written (text : List UInt8) : Memory × UInt16 :=
  (store buffer 5 text, UInt16.ofNat (5 + text.length))

theorem copy_eq (bytes : List UInt8) (pos : UInt16) (h : pos.toNat + bytes.length < 65536) :
    copy bytes buffer pos = (store buffer pos.toNat bytes, pos + UInt16.ofNat bytes.length) := by
  induction bytes generalizing buffer pos with
  | nil => simp [copy]
  | cons b bytes ih =>
    rw [List.length_cons] at h
    have hnext : (pos + 1).toNat = pos.toNat + 1 := by
      rw [UInt16.toNat_add]
      exact Nat.mod_eq_of_lt (by change pos.toNat + 1 < 65536; omega)
    rw [copy, ih _ _ (by omega), hnext, store_update, List.length_cons, UInt16.ofNat_add,
      UInt16.add_comm (UInt16.ofNat bytes.length), ← UInt16.add_assoc]
    rfl

theorem copy_written (text bytes : List UInt8) (h : 5 + (text ++ bytes).length < 65536) :
    copy bytes (written buffer text).1 (written buffer text).2 =
      written buffer (text ++ bytes) := by
  rw [List.length_append] at h
  have hpos : (UInt16.ofNat (5 + text.length)).toNat = 5 + text.length :=
    UInt16.toNat_ofNat_of_lt' (by change 5 + text.length < 65536; omega)
  simp only [written]
  rw [copy_eq _ _ _ (by omega), hpos, store_append, List.length_append, ← Nat.add_assoc,
    UInt16.ofNat_add (5 + text.length)]

theorem high_low {n : ℕ} (h : n < 65536) :
    (UInt16.ofNat n >>> 8).toUInt8 = UInt8.ofNat (n / 256) ∧
      (UInt16.ofNat n &&& 0xFF).toUInt8 = UInt8.ofNat n := by
  have hn : (UInt16.ofNat n).toNat = n := UInt16.toNat_ofNat_of_lt' h
  constructor
  · rw [← UInt8.toNat_inj, UInt16.toNat_toUInt8, UInt16.toNat_shiftRight, hn, UInt8.toNat_ofNat']
    change n >>> 8 % 256 = n / 256 % 256
    rw [Nat.shiftRight_eq_div_pow]
  · rw [← UInt8.toNat_inj, UInt16.toNat_toUInt8, UInt16.toNat_and, hn, UInt8.toNat_ofNat']
    change (n &&& 2 ^ 8 - 1) % 256 = n % 256
    rw [Nat.and_two_pow_sub_one_eq_mod, Nat.mod_mod]

theorem writeString_written (text string : List UInt8)
    (h : 5 + (text ++ prefixed string).length < 65536) :
    writeString string (written buffer text).1 (written buffer text).2 =
      written buffer (text ++ prefixed string) := by
  have hlen := h
  rw [List.length_append, length_prefixed] at hlen
  have hpos : (UInt16.ofNat (5 + text.length)).toNat = 5 + text.length :=
    UInt16.toNat_ofNat_of_lt' (by change 5 + text.length < 65536; omega)
  have hbehind : UInt16.ofNat (5 + text.length) + 2 = UInt16.ofNat (5 + text.length + 2) := by
    rw [UInt16.ofNat_add _ 2]
    rfl
  have hbehind' : (UInt16.ofNat (5 + text.length + 2)).toNat = 5 + text.length + 2 :=
    UInt16.toNat_ofNat_of_lt' (by change 5 + text.length + 2 < 65536; omega)
  have hhigh : UInt16.ofNat (5 + text.length + 2) + UInt16.ofNat string.length -
      UInt16.ofNat string.length - 2 = UInt16.ofNat (5 + text.length) := by
    rw [UInt16.add_sub_cancel, ← hbehind, UInt16.add_sub_cancel]
  have hlow : UInt16.ofNat (5 + text.length + 2) + UInt16.ofNat string.length -
      UInt16.ofNat string.length - 1 = UInt16.ofNat (5 + text.length + 1) := by
    rw [UInt16.add_sub_cancel, UInt16.ofNat_add _ 1]
    exact UInt16.add_sub_cancel _ _
  obtain ⟨hi, lo⟩ := high_low (n := string.length) (by omega)
  have hlowPos : (UInt16.ofNat (5 + text.length + 1)).toNat = 5 + text.length + 1 :=
    UInt16.toNat_ofNat_of_lt' (by change 5 + text.length + 1 < 65536; omega)
  have hcount : UInt16.ofNat (5 + text.length + 2) + UInt16.ofNat string.length =
      UInt16.ofNat (5 + (text ++ prefixed string).length) := by
    rw [← UInt16.ofNat_add, List.length_append, length_prefixed]
    exact congrArg UInt16.ofNat (by omega)
  simp only [writeString, written]
  rw [hbehind, copy_eq _ _ _ (by rw [hbehind']; omega)]
  dsimp only
  rw [hhigh, hlow, hi, lo, hpos, hlowPos, hbehind', hcount, update_store _ (by omega),
    update_store _ (by omega), store_update, store_update, store_append]
  rfl

end Storing

section Writing

theorem toNat_div_128 (len : UInt16) : (len / 128).toNat = len.toNat / 128 := UInt16.toNat_div _ _

theorem toUInt8_mod_128 (len : UInt16) : (len % 128).toUInt8 = UInt8.ofNat (len.toNat % 128) := by
  rw [← UInt8.toNat_inj, UInt16.toNat_toUInt8, UInt16.toNat_mod, UInt8.toNat_ofNat']
  rfl

theorem or_128 {d : ℕ} (h : d < 128) : UInt8.ofNat d ||| 0x80 = UInt8.ofNat (d + 128) := by
  have hall : ∀ k : Fin 128, UInt8.ofNat k ||| 0x80 = UInt8.ofNat (k + 128) := by decide
  exact hall ⟨d, h⟩

theorem lenBuf_eq (len : UInt16) : lenBuf len = lengthBytes len.toNat := by
  induction len using lenBuf.induct with
  | case1 len h ih =>
    have hpos : 0 < len.toNat / 128 := by
      rw [← toNat_div_128]
      exact UInt16.lt_iff_toNat_lt.mp h
    rw [lenBuf, if_pos h, ih, toNat_div_128, toUInt8_mod_128,
      or_128 (Nat.mod_lt _ (by decide)), ← lengthBytes_of_le (show 128 ≤ len.toNat by omega)]
  | case2 len h =>
    have hzero : ¬ 0 < len.toNat / 128 := by
      rw [← toNat_div_128]
      exact fun hlt => h (UInt16.lt_iff_toNat_lt.mpr hlt)
    rw [lenBuf, if_neg h, toUInt8_mod_128, lengthBytes_of_lt (by omega),
      Nat.mod_eq_of_lt (by omega)]

/-- Where a packet with a body of this length starts in the buffer of the writer. -/
def packetStart (n : ℕ) : ℕ := 4 - (lengthBytes n).length

theorem write_store (buffer : Memory) (header : UInt8) (body : List UInt8)
    (h : body.length < 65536) :
    write header (store buffer 5 body) (UInt16.ofNat body.length) =
      (store buffer (packetStart body.length) (Packet.mk header body).bytes,
        (Packet.mk header body).bytes) := by
  have hlen : (UInt16.ofNat body.length).toNat = body.length := UInt16.toNat_ofNat_of_lt' h
  have hdigits := length_lengthBytes_le (n := body.length) (by omega)
  have hthree : (lengthBytes body.length).length ≤ 3 := by
    rw [length_lengthBytes]
    exact (Varint.length_encode_le_iff (by decide) _ 2).mpr (by omega)
  have hstart : 5 - (lengthBytes body.length).length = packetStart body.length + 1 := by
    unfold packetStart
    omega
  have hfive : packetStart body.length + (Packet.mk header body).header.length = 5 := by
    rw [Packet.header, List.length_cons, packetStart]
    dsimp only
    omega
  have hbuffer : store (Function.update (store buffer 5 body) (packetStart body.length) header)
      (packetStart body.length + 1) (lengthBytes body.length) =
      store buffer (packetStart body.length) (Packet.mk header body).bytes := by
    rw [store_update, ← hfive]
    exact store_store buffer _ (Packet.mk header body).header body
  have hcount : body.length + 1 + (lengthBytes body.length).length =
      (Packet.mk header body).bytes.length := by
    rw [Packet.length_bytes]
    dsimp only
    omega
  simp only [write, lenBuf_eq, hlen, hstart]
  rw [← packetStart, hbuffer, hcount, map_range_store]

/-- A client that has just written a packet. -/
def Client.wrote (c : Client) (time : UInt32) (p : Packet) : Client :=
  { c with
    buffer := store c.buffer (packetStart p.body.length) p.bytes
    lastOutActivity := time }

theorem write_written (c : Client) (time : UInt32) (header : UInt8) (body : List UInt8)
    (h : 5 + body.length < 65536) :
    c.write time header (written c.buffer body).1 ((written c.buffer body).2 - 5) =
      (c.wrote time ⟨header, body⟩, [.write (Packet.mk header body).bytes]) := by
  have hlen : UInt16.ofNat (5 + body.length) - 5 = UInt16.ofNat body.length := by
    rw [Nat.add_comm, UInt16.ofNat_add]
    exact UInt16.add_sub_cancel _ _
  simp only [Client.write, written, hlen]
  rw [write_store _ _ _ (by omega)]
  rfl

theorem written_nil (buffer : Memory) : written buffer [] = (buffer, 5) := by
  simp [written]

/-- The packet of a message. -/
def messagePacket (topic payload : List UInt8) (retained : Bool) : Packet :=
  ⟨if retained then 0x31 else 0x30, prefixed topic ++ payload⟩

theorem publish_eq (c : Client) (time : UInt32) (topic payload : List UInt8) (retained : Bool)
    (h : 7 + topic.length + payload.length ≤ 128) :
    c.publish time true topic payload retained =
      (c.wrote time (messagePacket topic payload retained),
        [.write (messagePacket topic payload retained).bytes]) := by
  have htopic := writeString_written c.buffer [] topic (by simp; omega)
  have hpayload := copy_written c.buffer (prefixed topic) payload (by simp; omega)
  rw [written_nil, List.nil_append] at htopic
  have hwrite := write_written c time (if retained then 0x30 ||| 1 else 0x30)
    (prefixed topic ++ payload) (by simp; omega)
  have hheader : (if retained then 0x30 ||| 1 else 0x30 : UInt8) =
      if retained then 0x31 else 0x30 := rfl
  simp only [Client.publish, Client.connected, Bool.true_eq_false, false_and, if_false, if_true]
  rw [if_neg (by omega), htopic, hpayload, hwrite, hheader]
  rfl

/-- The two bytes of a message id. -/
def idBytes (id : UInt16) : List UInt8 := [UInt8.ofNat (id.toNat / 256), UInt8.ofNat id.toNat]

def subscribePacket (id : UInt16) (topic : List UInt8) (qos : UInt8) : Packet :=
  ⟨0x82, idBytes id ++ prefixed topic ++ [qos]⟩

def unsubscribePacket (id : UInt16) (topic : List UInt8) : Packet :=
  ⟨0xA2, idBytes id ++ prefixed topic⟩

theorem writeTopic_eq (c : Client) (topic : List UInt8) (h : topic.length ≤ 119) :
    c.writeTopic topic =
      (c.drawId, written c.buffer (idBytes c.drawId.nextMsgId ++ prefixed topic)) := by
  have hid := high_low c.drawId.nextMsgId.toNat_lt
  rw [UInt16.ofNat_toNat] at hid
  have hcopy := copy_written c.buffer [] (idBytes c.drawId.nextMsgId) (by simp [idBytes])
  have htopic := writeString_written c.buffer (idBytes c.drawId.nextMsgId) topic
    (by simp [idBytes]; omega)
  rw [written_nil, List.nil_append] at hcopy
  simp only [Client.writeTopic, hid]
  rw [← idBytes]
  have hbuffer : c.drawId.buffer = c.buffer := rfl
  rw [hbuffer, hcopy, htopic]

/-- The members once the last byte of a subscription is stored. -/
def Client.spilled (c : Client) (topic : List UInt8) (qos : UInt8) : Client :=
  c.overlaid (store c.memory (9 + topic.length) [qos])

theorem subscribe_eq (c : Client) (time : UInt32) (topic : List UInt8) (qos : UInt8)
    (hqos : qos ≤ 1) (h : topic.length ≤ 119) :
    c.subscribe time true topic qos =
      ((c.drawId.spilled topic qos).wrote time (subscribePacket c.drawId.nextMsgId topic qos),
        [.write (subscribePacket c.drawId.nextMsgId topic qos).bytes]) := by
  have hqos' : ¬ (qos < 0 ∨ 1 < qos) := by
    rintro (hlt | hlt)
    · exact Nat.not_lt_zero _ (UInt8.lt_iff_toNat_lt.mp hlt)
    · exact UInt8.not_lt.mpr hqos hlt
  have hbyte := copy_written c.buffer (idBytes c.drawId.nextMsgId ++ prefixed topic) [qos]
    (by simp [idBytes]; omega)
  have hend : (UInt16.ofNat (5 + (idBytes c.drawId.nextMsgId ++ prefixed topic).length)).toNat =
      9 + topic.length := by
    rw [UInt16.toNat_ofNat', List.length_append, length_prefixed]
    simp only [idBytes, List.length_cons, List.length_nil]
    omega
  have hlast : (copy [qos] c.drawId.memory
      (written c.buffer (idBytes c.drawId.nextMsgId ++ prefixed topic)).2).1 =
      store c.drawId.memory (9 + topic.length) [qos] := by
    rw [written, copy_eq _ _ _ (by rw [hend, List.length_singleton]; omega), hend]
  have hwrite := write_written (c.drawId.spilled topic qos) time 0x82
    (idBytes c.drawId.nextMsgId ++ prefixed topic ++ [qos]) (by simp [idBytes]; omega)
  simp only [Client.subscribe, Client.connected, Bool.true_eq_false, false_and, if_false, if_true]
  rw [if_neg hqos', if_neg (by omega), writeTopic_eq c topic h]
  dsimp only
  rw [hbyte, hlast]
  exact hwrite

theorem unsubscribe_eq (c : Client) (time : UInt32) (topic : List UInt8)
    (h : topic.length ≤ 119) :
    c.unsubscribe time true topic =
      (c.drawId.wrote time (unsubscribePacket c.drawId.nextMsgId topic),
        [.write (unsubscribePacket c.drawId.nextMsgId topic).bytes]) := by
  have hwrite := write_written c.drawId time 0xA2 (idBytes c.drawId.nextMsgId ++ prefixed topic)
    (by simp [idBytes]; omega)
  simp only [Client.unsubscribe, Client.connected, Bool.true_eq_false, false_and, if_false, if_true]
  rw [if_neg (by omega), writeTopic_eq c topic h]
  exact hwrite

end Writing

section Reading

/-- The topic and the payload that a callback is called with. -/
def Handed.message (h : Handed) : List UInt8 × List UInt8 := (h.topic, h.bytes)

def callbacks (es : List Effect) : List (List UInt8 × List UInt8) :=
  es.filterMap fun e => match e with | .callback h => some h.message | _ => none

def sent (es : List Effect) : List UInt8 :=
  es.flatMap fun e => match e with | .write bytes => bytes | _ => []

/-- The message of a packet; only PUBLISH packets that fit the buffer have one. -/
def Packet.message (p : Packet) : Option (List UInt8 × List UInt8) :=
  if isPublish p.first ∧ p.bytes.length ≤ 128 then
    match p.body with
    | hi :: lo :: text =>
      let n := hi.toNat * 256 + lo.toNat
      some (text.take n, text.drop (n + msgIdSize p.first))
    | _ => none
  else none

/-- A packet in which there is room for what it announces. -/
structure Packet.Sound (p : Packet) : Prop extends p.Framed where
  text : ∀ hi lo text, isPublish p.first → p.body = hi :: lo :: text →
    hi.toNat * 256 + lo.toNat + msgIdSize p.first ≤ text.length

theorem bytes_eq_publishPacket {p : Packet} {hi lo : UInt8} {text : List UInt8}
    (hbody : p.body = hi :: lo :: text) (hfits : p.bytes.length ≤ 128)
    (htext : hi.toNat * 256 + lo.toNat ≤ text.length) :
    p.bytes = publishPacket p.first (text.take (hi.toNat * 256 + lo.toNat))
      (text.drop (hi.toNat * 256 + lo.toNat)) := by
  have htotal := p.length_bytes
  have hlen : p.body.length = 2 + text.length := by
    rw [hbody, List.length_cons, List.length_cons]
    omega
  have hlo := lo.toNat_lt
  have hhi : hi = UInt8.ofNat ((hi.toNat * 256 + lo.toNat) / 256) := by
    rw [show (hi.toNat * 256 + lo.toNat) / 256 = hi.toNat by omega, UInt8.ofNat_toNat]
  have hlo' : lo = UInt8.ofNat (hi.toNat * 256 + lo.toNat) := by
    rw [← UInt8.toNat_inj, UInt8.toNat_ofNat']
    omega
  rw [Packet.bytes, hlen, lengthBytes_of_lt (by omega), hbody, publishPacket, List.take_append_drop,
    List.length_take_of_le htext, ← hhi, ← hlo']
  rfl

theorem Packet.Framed.exists_body {p : Packet} (h : p.Framed) (hpublish : isPublish p.first) :
    ∃ hi lo text, p.body = hi :: lo :: text := by
  have htopic := h.topic hpublish
  rcases hp : p.body with _ | ⟨a, _ | ⟨b, text⟩⟩
  · simp [hp] at htopic
  · simp [hp] at htopic
  · exact ⟨a, b, text, rfl⟩

theorem message_dispatch {p : Packet} (h : p.Sound) (hpublish : isPublish p.first)
    (hfits : p.bytes.length ≤ 128) (buffer : Memory) :
    p.message = some (dispatch (store buffer 0 p.bytes) p.bytes.length 1).message := by
  obtain ⟨hi, lo, text, hbody⟩ := h.toFramed.exists_body hpublish
  have htext := h.text hi lo text hpublish hbody
  have hbytes := bytes_eq_publishPacket hbody hfits ((Nat.le_add_right _ _).trans htext)
  have hlen := length_publishPacket p.first (text.take (hi.toNat * 256 + lo.toNat))
    (text.drop (hi.toNat * 256 + lo.toNat))
  rw [hbytes, hlen] at hfits
  have hid : msgIdSize p.first ≤ (text.drop (hi.toNat * 256 + lo.toNat)).length := by
    rw [List.length_drop]
    omega
  obtain ⟨htopic, hrest⟩ := dispatch_publishPacket buffer hfits hid
  rw [List.drop_drop] at hrest
  have hif : isPublish p.first ∧ p.bytes.length ≤ 128 :=
    ⟨hpublish, by rw [hbytes, hlen]; exact hfits⟩
  rw [Packet.message, if_pos hif, hbody, hbytes, hlen, Handed.message, htopic, hrest]

theorem memory_of_lt (c : Client) {i : ℕ} (h : i < 128) : c.memory i = c.buffer i :=
  store_of_lt c.buffer _ h

/-- What stands in the buffer is read from the memory of the object. -/
theorem store_memory {c : Client} {bytes : List UInt8} (h : bytes.length ≤ 128)
    (hbytes : c.buffer = store buffer 0 bytes) : store c.memory 0 bytes = c.memory := by
  apply store_eq_self
  intro i hi
  rw [memory_of_lt c (by omega), hbytes, store_add buffer hi]

theorem callbacks_handle (c : Client) (t : UInt32) (len llen : ℕ) :
    callbacks (c.handle t len llen).2 =
      if isPublish (c.buffer 0) then
        [(dispatch ({ c with lastInActivity := t } : Client).memory len llen).message]
      else [] := by
  by_cases hpublish : isPublish (c.buffer 0)
  · have htype : c.buffer 0 &&& 0xF0 = 0x30 := hpublish
    rw [if_pos hpublish]
    by_cases hqos : c.buffer 0 &&& 0x06 = 0x02
    · simp only [Client.handle, if_pos htype, if_pos hqos]
      rfl
    · simp only [Client.handle, if_pos htype, if_neg hqos]
      rfl
  · have htype : ¬ c.buffer 0 &&& 0xF0 = 0x30 := hpublish
    rw [if_neg hpublish]
    simp only [Client.handle, if_neg htype]
    split_ifs <;> rfl

/-- A packet in front of others is taken on its own: its message is handed to the callback, and
what follows it is left. -/
theorem receive_bytes (c : Client) (t : UInt32) (p : Packet) (h : p.Sound) (more : List UInt8) :
    (c.receive t ⟨true, p.bytes ++ more⟩).2.2 = more ∧
      callbacks (c.receive t ⟨true, p.bytes ++ more⟩).2.1 = p.message.toList := by
  have hne : p.bytes ++ more ≠ [] := by simp [Packet.bytes]
  have htotal := p.length_bytes
  by_cases hfits : p.bytes.length ≤ 128
  · have hbody : p.body.length < 128 := by
      have hpos := Varint.length_encode_pos 128 p.body.length
      rw [← length_lengthBytes] at hpos
      omega
    have hlen : (UInt16.ofNat p.bytes.length).toNat = p.bytes.length :=
      UInt16.toNat_ofNat_of_lt' h.count
    have hpos : 0 < UInt16.ofNat p.bytes.length := by
      rw [UInt16.lt_iff_toNat_lt, hlen]
      exact Nat.lt_of_lt_of_le Nat.zero_lt_one (by omega)
    have hone : (UInt8.ofNat (lengthBytes p.body.length).length).toNat = 1 := by
      rw [lengthBytes_of_lt hbody]
      rfl
    have hcalls := callbacks_handle { c.reads (p.bytes ++ more) with
      buffer := store c.buffer 0 p.bytes } t p.bytes.length 1
    have hmessage (c' : Client) (hc' : c'.buffer = store c.buffer 0 p.bytes) :
        (if isPublish (store c.buffer 0 p.bytes 0) then
          [(dispatch c'.memory p.bytes.length 1).message] else []) = p.message.toList := by
      change (if isPublish p.first then _ else []) = _
      by_cases hpublish : isPublish p.first
      · rw [if_pos hpublish, message_dispatch h hpublish hfits c'.memory, store_memory hfits hc',
          Option.toList_some]
      · rw [if_neg hpublish, Packet.message, if_neg fun hp => hpublish hp.1, Option.toList_none]
    simp only [Client.receive, if_neg hne, tryPacket_bytes p h.toFramed, if_pos hfits, if_pos hpos,
      List.take_of_length_le hfits, hlen, hone]
    exact ⟨trivial, hcalls.trans (hmessage _ rfl)⟩
  · have hzero : ¬ (0 : UInt16) < 0 := by decide
    have hmessage : p.message = none := by rw [Packet.message, if_neg fun hp => hfits hp.2]
    simp only [Client.receive, if_neg hne, tryPacket_bytes p h.toFramed, if_neg hfits, if_neg hzero,
      hmessage]
    exact ⟨trivial, rfl⟩

end Reading

section Streams
open Machine

/-- The peer has not answered in time: `loop()` closes the connection. -/
def Client.closes (c : Client) (t : UInt32) : Prop := c.overdue t ∧ c.pingOutstanding = true

/-- A call of `loop()` on a connection with these bytes waiting. -/
def drain (s : Client × List UInt8) (t : UInt32) : Client × List UInt8 :=
  let r := s.1.loop t ⟨true, s.2⟩
  (r.1, r.2.2)

/-- What the callback hears of it. -/
def heard (s : Client × List UInt8) (t : UInt32) : List (List UInt8 × List UInt8) :=
  callbacks (s.1.loop t ⟨true, s.2⟩).2.1

/-- The ping that `loop()` may send before it reads. -/
def Client.pinged (c : Client) (t : UInt32) : Client × List Effect :=
  if c.overdue t then c.ping t else (c, [])

theorem loop_of_not_closes {c : Client} {t : UInt32} (h : ¬ c.closes t) (input : List UInt8) :
    let (c', es) := c.pinged t
    let (c'', es', rest) := c'.receive t ⟨true, input⟩
    c.loop t ⟨true, input⟩ = (c'', es ++ es', rest) := by
  unfold Client.pinged
  by_cases hdue : c.overdue t
  · have hping : ¬ c.pingOutstanding = true := fun hping => h ⟨hdue, hping⟩
    simp only [Client.loop, Client.connected, Bool.true_eq_false, false_and, if_false, if_true,
      if_pos hdue, if_neg hping, List.nil_append]
  · simp only [Client.loop, Client.connected, Bool.true_eq_false, false_and, if_false, if_true,
      if_neg hdue, List.nil_append]

theorem callbacks_pinged (c : Client) (t : UInt32) : callbacks (c.pinged t).2 = [] := by
  unfold Client.pinged
  split_ifs <;> rfl

theorem drain_bytes {c : Client} {t : UInt32} (h : ¬ c.closes t) (p : Packet) (hp : p.Sound)
    (more : List UInt8) :
    (drain (c, p.bytes ++ more) t).2 = more ∧ heard (c, p.bytes ++ more) t = p.message.toList := by
  have hloop := loop_of_not_closes h (p.bytes ++ more)
  obtain ⟨hrest, hcalls⟩ := receive_bytes (c.pinged t).1 t p hp more
  dsimp only at hloop
  simp only [drain, heard, hloop, hrest, true_and]
  rw [callbacks, List.filterMap_append, ← callbacks, ← callbacks, callbacks_pinged, hcalls]
  rfl

/-- Calls of `loop()` on a stream of packets: every message that fits the buffer is heard, in order
and once, whatever packets lie between. -/
theorem heard_packets (ps : List Packet) (hps : ∀ p ∈ ps, p.Sound) (c : Client) (ts : List UInt32)
    (hts : ts.length = ps.length) (more : List UInt8)
    (hopen : Along drain (fun s t => ¬ s.1.closes t) (c, ps.flatMap Packet.bytes ++ more) ts) :
    outputs drain heard (c, ps.flatMap Packet.bytes ++ more) ts = ps.filterMap Packet.message ∧
      (run drain (c, ps.flatMap Packet.bytes ++ more) ts).2 = more := by
  induction ps generalizing c ts with
  | nil =>
    obtain rfl := List.length_eq_zero_iff.mp hts
    exact ⟨rfl, rfl⟩
  | cons p ps ih =>
    obtain ⟨t, ts, rfl⟩ : ∃ t ts', ts = t :: ts' := by
      cases ts with
      | nil => cases hts
      | cons t ts => exact ⟨t, ts, rfl⟩
    rw [List.flatMap_cons, List.append_assoc] at hopen ⊢
    obtain ⟨hrest, hcalls⟩ := drain_bytes hopen.1 p (hps p List.mem_cons_self)
      (ps.flatMap Packet.bytes ++ more)
    have hnext : drain (c, p.bytes ++ (ps.flatMap Packet.bytes ++ more)) t =
        ((drain (c, p.bytes ++ (ps.flatMap Packet.bytes ++ more)) t).1,
          ps.flatMap Packet.bytes ++ more) := Prod.ext rfl hrest
    have hopen' := hopen.2
    rw [hnext] at hopen'
    obtain ⟨hheard, hleft⟩ := ih (fun q hq => hps q (List.mem_cons_of_mem p hq)) _ ts
      (Nat.succ.inj hts) hopen'
    rw [outputs, run_cons, hcalls, hnext]
    refine ⟨?_, hleft⟩
    rw [hheard]
    cases hm : p.message with
    | none => rw [List.filterMap_cons_none hm]; rfl
    | some m => rw [List.filterMap_cons_some hm]; rfl

/-- A call of `publish` on a connection that stands. -/
structure Publication where
  time : UInt32
  topic : List UInt8
  payload : List UInt8
  retained : Bool

def Publication.Fits (m : Publication) : Prop := 7 + m.topic.length + m.payload.length ≤ 128

instance (m : Publication) : Decidable m.Fits := inferInstanceAs (Decidable (_ ≤ _))

def Publication.packet (m : Publication) : Packet := messagePacket m.topic m.payload m.retained

def publishOne (c : Client) (m : Publication) : Client :=
  (c.publish m.time true m.topic m.payload m.retained).1

/-- The bytes that go out for it. -/
def sentOne (c : Client) (m : Publication) : List UInt8 :=
  sent (c.publish m.time true m.topic m.payload m.retained).2

theorem sentOne_eq (c : Client) (m : Publication) :
    sentOne c m = if m.Fits then m.packet.bytes else [] := by
  unfold sentOne
  by_cases hfits : m.Fits
  · rw [if_pos hfits, publish_eq c m.time m.topic m.payload m.retained hfits]
    exact List.append_nil _
  · have hlong : 128 < 5 + 2 + m.topic.length + m.payload.length := by
      unfold Publication.Fits at hfits
      omega
    rw [if_neg hfits]
    simp only [Client.publish, Client.connected, Bool.true_eq_false, false_and, if_false, if_true,
      if_pos hlong]
    rfl

theorem outputs_sentOne (c : Client) (ms : List Publication) :
    outputs publishOne sentOne c ms =
      ((ms.filter (·.Fits)).map Publication.packet).flatMap Packet.bytes := by
  induction ms generalizing c with
  | nil => rfl
  | cons m ms ih =>
    rw [outputs, sentOne_eq, ih]
    by_cases hfits : m.Fits
    · rw [if_pos hfits, List.filter_cons_of_pos (by simpa using hfits), List.map_cons,
        List.flatMap_cons]
    · rw [if_neg hfits, List.filter_cons_of_neg (by simpa using hfits), List.nil_append]

theorem Publication.isPublish_first (m : Publication) : isPublish m.packet.first := by
  unfold Publication.packet messagePacket
  cases m.retained
  · change isPublish 0x30
    decide
  · change isPublish 0x31
    decide

theorem Publication.msgIdSize_first (m : Publication) : msgIdSize m.packet.first = 0 := by
  unfold Publication.packet messagePacket
  cases m.retained
  · change msgIdSize 0x30 = 0
    decide
  · change msgIdSize 0x31 = 0
    decide

theorem Publication.Fits.sound {m : Publication} (h : m.Fits) :
    m.packet.Sound ∧ m.packet.message = some (m.topic, m.payload) := by
  have hbody : m.packet.body = UInt8.ofNat (m.topic.length / 256) ::
      UInt8.ofNat m.topic.length :: (m.topic ++ m.payload) := rfl
  have hlen : m.packet.body.length = 2 + m.topic.length + m.payload.length := by
    rw [hbody, List.length_cons, List.length_cons, List.length_append]
    omega
  have hbytes : m.packet.bytes.length ≤ 128 := by
    unfold Publication.Fits at h
    rw [Packet.length_bytes, hlen, lengthBytes_of_lt (by omega), List.length_singleton]
    omega
  have htopic : (UInt8.ofNat (m.topic.length / 256)).toNat * 256 +
      (UInt8.ofNat m.topic.length).toNat = m.topic.length := by
    unfold Publication.Fits at h
    rw [UInt8.toNat_ofNat', UInt8.toNat_ofNat']
    omega
  refine ⟨⟨⟨fun _ => by rw [hlen]; omega, hbytes.trans_lt (by decide)⟩, ?_⟩, ?_⟩
  · rintro hi lo text - htext
    rw [hbody] at htext
    cases htext
    rw [htopic, m.msgIdSize_first, List.length_append]
    omega
  · rw [Packet.message, if_pos ⟨m.isPublish_first, hbytes⟩, hbody]
    dsimp only
    rw [htopic, m.msgIdSize_first, Nat.add_zero, List.take_left, List.drop_left]

/-- Whatever one client publishes, the callback of another one hears it, in order and once, up to
what does not fit and is not sent at all. -/
theorem heard_publications (c c' : Client) (ms : List Publication) (ts : List UInt32)
    (hts : ts.length = (ms.filter (·.Fits)).length) (more : List UInt8)
    (hopen : Along drain (fun s t => ¬ s.1.closes t)
      (c', outputs publishOne sentOne c ms ++ more) ts) :
    outputs drain heard (c', outputs publishOne sentOne c ms ++ more) ts =
        (ms.filter (·.Fits)).map (fun m => (m.topic, m.payload)) ∧
      (run drain (c', outputs publishOne sentOne c ms ++ more) ts).2 = more := by
  have hfits (m : Publication) (hm : m ∈ ms.filter (·.Fits)) : m.Fits := by
    simpa using (List.mem_filter.mp hm).2
  have hsound (p : Packet) (hp : p ∈ (ms.filter (·.Fits)).map Publication.packet) : p.Sound := by
    obtain ⟨m, hm, rfl⟩ := List.mem_map.mp hp
    exact (hfits m hm).sound.1
  rw [outputs_sentOne] at hopen ⊢
  obtain ⟨hheard, hleft⟩ := heard_packets _ hsound c' ts (by rwa [List.length_map]) more hopen
  refine ⟨?_, hleft⟩
  rw [hheard, List.filterMap_map, ← List.filterMap_eq_map]
  apply List.filterMap_congr
  intro m hm
  exact (hfits m hm).sound.2

/-- A client as `connect` leaves it at a clock of 0. -/
def justConnected : Client := ⟨mqttConnected, 1, 0, 0, false, fun _ => 0⟩

theorem heard_publications_once :
    outputs drain heard (justConnected,
        outputs publishOne sentOne justConnected [⟨0, [0x61, 0x62], [0x31], false⟩] ++ [0xD0])
        [20000] = [([0x61, 0x62], [0x31])] ∧
      (run drain (justConnected,
        outputs publishOne sentOne justConnected [⟨0, [0x61, 0x62], [0x31], false⟩] ++ [0xD0])
        [20000]).2 = [0xD0] :=
  heard_publications justConnected justConnected [⟨0, [0x61, 0x62], [0x31], false⟩] [20000]
    (by decide) [0xD0] ⟨fun h => absurd h.2 (by decide), trivial⟩

end Streams

end Wyostat.PubSubClient
