import Wyostat.AdafruitMqtt.Client

/-! What the MQTT client of Adafruit publishes: the packets of its messages, and that they can be
told apart again. -/
namespace Wyostat.AdafruitMqtt
open PubSubClient (Packet lengthBytes)

/-- A message, with the identifier that one of quality of service 1 has. -/
structure Publication where
  topic : List UInt8
  payload : List UInt8
  id : Option UInt16
  deriving DecidableEq, Repr

def Publication.qos (m : Publication) : UInt8 := if m.id.isSome then 1 else 0

def Publication.ident (m : Publication) : List UInt8 := m.id.elim [] idBytes

/-- The length that its packet states. -/
def Publication.length (m : Publication) : ℕ :=
  2 + m.topic.length + m.ident.length + m.payload.length

def Publication.packet (m : Publication) : Packet :=
  ⟨(0x30 : UInt8) ||| m.qos <<< 1, stringprint m.topic ++ m.ident ++ m.payload⟩

/-- It fits the buffer of the library, with a byte to spare. -/
def Publication.Fits (m : Publication) : Prop := m.length ≤ 146

instance (m : Publication) : Decidable m.Fits := inferInstanceAs (Decidable (_ ≤ _))

section Sending

theorem or_high {d : ℕ} (h : d < 128) : UInt8.ofNat d ||| 0x80 = UInt8.ofNat (d + 128) := by
  have hall : ∀ k : Fin 128, UInt8.ofNat k ||| 0x80 = UInt8.ofNat (k + 128) := by decide
  exact hall ⟨d, h⟩

theorem encodeLength_eq (n : ℕ) : encodeLength n = lengthBytes n := by
  induction n using Varint.digitsInduction (b := 128) (by decide) with
  | last n h =>
    rw [encodeLength, if_neg (by omega), PubSubClient.lengthBytes_of_lt h, Nat.mod_eq_of_lt h]
  | more n h ih =>
    rw [encodeLength, if_pos (by omega), ih, PubSubClient.lengthBytes_of_le h,
      or_high (Nat.mod_lt n (by decide))]

theorem length_stringprint (s : List UInt8) : (stringprint s).length = 2 + s.length := by
  rw [stringprint, List.length_cons, List.length_cons]
  omega

theorem length_body (m : Publication) : m.packet.body.length = m.length := by
  rw [Publication.packet, List.length_append, List.length_append, length_stringprint,
    Publication.length]

theorem publishPacket_eq (m : Publication) (id : UInt16) (h : m.length < 65536) :
    publishPacket m.topic m.payload m.qos (m.id.getD id) = m.packet.bytes := by
  have hident : (if 0 < m.qos then idBytes (m.id.getD id) else []) = m.ident := by
    unfold Publication.qos Publication.ident
    cases m.id <;> rfl
  have hlength : 2 + m.topic.length + (if 0 < m.qos then 2 else 0) + m.payload.length =
      m.length := by
    unfold Publication.qos Publication.length Publication.ident
    cases m.id <;> rfl
  simp only [publishPacket, hident, hlength, Nat.mod_eq_of_lt h, encodeLength_eq]
  rw [Packet.bytes, length_body, List.append_assoc, List.append_assoc]
  simp only [Publication.packet, List.append_assoc]

/-- The packets whose length is taken for one byte are what they should be exactly when it is. -/
theorem shortPacket_eq_bytes_iff (first : UInt8) (body : List UInt8) :
    shortPacket first body = Packet.bytes ⟨first, body⟩ ↔ body.length < 128 := by
  constructor
  · intro h
    by_contra hlong
    have hcount := congrArg List.length h
    have htwo : 2 ≤ (lengthBytes body.length).length := by
      by_contra hone
      exact hlong ((length_lengthBytes_le_iff body.length 0).mp (by omega))
    rw [Packet.length_bytes, shortPacket, writtenPacket, List.length_take, List.length_cons,
      List.length_cons] at hcount
    simp only at hcount
    omega
  · intro h
    rw [shortPacket, writtenPacket, Packet.bytes, PubSubClient.lengthBytes_of_lt h,
      List.take_of_length_le]
    · rfl
    · simp only [List.length_cons]
      omega

end Sending

section Telling

theorem first_of_none {m : Publication} (h : m.id = none) : m.packet.first = 0x30 := by
  unfold Publication.packet Publication.qos
  rw [h]
  rfl

theorem first_of_some {m : Publication} {id : UInt16} (h : m.id = some id) :
    m.packet.first = 0x32 := by
  have hqos : m.qos = 1 := by
    unfold Publication.qos
    rw [h]
    rfl
  show (0x30 : UInt8) ||| m.qos <<< 1 = 0x32
  rw [hqos]
  rfl

theorem id_of_bytes (id : UInt16) :
    UInt16.ofNat (256 * (UInt8.ofNat (id.toNat / 256)).toNat + (UInt8.ofNat id.toNat).toNat) =
      id := by
  have hid := id.toNat_lt
  have hsum : 256 * (UInt8.ofNat (id.toNat / 256)).toNat + (UInt8.ofNat id.toNat).toNat =
      id.toNat := by
    rw [UInt8.toNat_ofNat', UInt8.toNat_ofNat']
    omega
  rw [hsum, UInt16.ofNat_toNat]

theorem lengthBytes_append_inj {m n : ℕ} {xs ys : List UInt8}
    (h : lengthBytes m ++ xs = lengthBytes n ++ ys) : m = n ∧ xs = ys := by
  have hdigits (k : ℕ) : (lengthBytes k).map UInt8.toNat = Varint.encode 128 k := by
    rw [lengthBytes, List.map_map]
    refine (List.map_congr_left fun d hd => ?_).trans (List.map_id _)
    exact UInt8.toNat_ofNat_of_lt' (Varint.lt_of_mem_encode (by decide) hd)
  have hnumbers := congrArg (List.map UInt8.toNat) h
  rw [List.map_append, List.map_append, hdigits, hdigits] at hnumbers
  obtain ⟨rfl, -⟩ := Varint.encode_append_inj (by decide) hnumbers
  exact ⟨rfl, List.append_cancel_left h⟩

theorem bytes_append_inj {p q : Packet} {xs ys : List UInt8} (h : p.bytes ++ xs = q.bytes ++ ys) :
    p = q ∧ xs = ys := by
  rw [Packet.bytes, Packet.bytes, List.cons_append, List.cons_append, List.append_assoc,
    List.append_assoc] at h
  obtain ⟨hfirst, hrest⟩ := List.cons_eq_cons.mp h
  obtain ⟨hlength, hbodies⟩ := lengthBytes_append_inj hrest
  obtain ⟨hbody, htail⟩ := List.append_inj hbodies hlength
  rcases p with ⟨first, body⟩
  rcases q with ⟨first', body'⟩
  cases hfirst
  cases hbody
  exact ⟨rfl, htail⟩

theorem flatMap_bytes_inj {ps qs : List Packet}
    (h : ps.flatMap Packet.bytes = qs.flatMap Packet.bytes) :
    ps = qs := by
  induction ps generalizing qs with
  | nil =>
    rcases qs with _ | ⟨q, qs⟩
    · rfl
    · rw [List.flatMap_nil, List.flatMap_cons, Packet.bytes] at h
      cases h
  | cons p ps ih =>
    rcases qs with _ | ⟨q, qs⟩
    · rw [List.flatMap_nil, List.flatMap_cons, Packet.bytes] at h
      cases h
    · rw [List.flatMap_cons, List.flatMap_cons] at h
      obtain ⟨rfl, hrest⟩ := bytes_append_inj h
      rw [ih hrest]

theorem stringprint_append_inj {s t xs ys : List UInt8} (hs : s.length < 65536)
    (ht : t.length < 65536)
    (h : stringprint s ++ xs = stringprint t ++ ys) : s = t ∧ xs = ys := by
  obtain ⟨hhigh, h⟩ := List.cons_eq_cons.mp h
  obtain ⟨hlow, h⟩ := List.cons_eq_cons.mp h
  have hhigh := congrArg UInt8.toNat hhigh
  have hlow := congrArg UInt8.toNat hlow
  rw [UInt8.toNat_ofNat', UInt8.toNat_ofNat'] at hhigh hlow
  exact List.append_inj h (by omega)

theorem idBytes_inj {id id' : UInt16} (h : idBytes id = idBytes id') : id = id' := by
  unfold idBytes at h
  obtain ⟨hhigh, h⟩ := List.cons_eq_cons.mp h
  obtain ⟨hlow, -⟩ := List.cons_eq_cons.mp h
  rw [← id_of_bytes id, hhigh, hlow, id_of_bytes]

theorem packet_inj {m m' : Publication} (hm : m.length < 65536) (hm' : m'.length < 65536)
    (h : m.packet = m'.packet) : m = m' := by
  have hfirst := congrArg Packet.first h
  have hbody : stringprint m.topic ++ (m.ident ++ m.payload) =
      stringprint m'.topic ++ (m'.ident ++ m'.payload) := by
    have hbodies := congrArg Packet.body h
    simpa only [Publication.packet, List.append_assoc] using hbodies
  unfold Publication.length at hm hm'
  obtain ⟨htopic, hrest⟩ := stringprint_append_inj (by omega) (by omega) hbody
  have hident : m.id = m'.id ∧ m.payload = m'.payload := by
    unfold Publication.ident at hrest
    rcases hid : m.id with _ | id <;> rcases hid' : m'.id with _ | id' <;> rw [hid, hid'] at hrest
    · exact ⟨rfl, hrest⟩
    · rw [first_of_none hid, first_of_some hid'] at hfirst
      exact absurd hfirst (by decide)
    · rw [first_of_some hid, first_of_none hid'] at hfirst
      exact absurd hfirst (by decide)
    · obtain ⟨hids, hpayload⟩ := List.append_inj hrest rfl
      exact ⟨congrArg some (idBytes_inj hids), hpayload⟩
  rcases m with ⟨topic, payload, id⟩
  rcases m' with ⟨topic', payload', id'⟩
  obtain ⟨hid, hpayload⟩ := hident
  cases htopic
  cases hid
  cases hpayload
  rfl

/-- As long as their lengths fit 16 bits, messages can be told from what `publishPacket` makes of
them, one after the other and without anything between them. What `publish` sends fits the 150 bytes
of the buffer besides. -/
theorem published_stream_inj (id : UInt16) {ms ms' : List Publication}
    (hms : ∀ m ∈ ms, m.length < 65536) (hms' : ∀ m ∈ ms', m.length < 65536) :
    (ms.flatMap fun m => publishPacket m.topic m.payload m.qos (m.id.getD id)) =
        (ms'.flatMap fun m => publishPacket m.topic m.payload m.qos (m.id.getD id)) ↔ ms = ms' := by
  have hpackets {ms : List Publication} (hms : ∀ m ∈ ms, m.length < 65536) :
      (ms.flatMap fun m => publishPacket m.topic m.payload m.qos (m.id.getD id)) =
        (ms.map Publication.packet).flatMap Packet.bytes := by
    rw [List.flatMap_map]
    exact List.flatMap_congr fun m hm => publishPacket_eq m id (hms m hm)
  constructor
  · intro h
    rw [hpackets hms, hpackets hms'] at h
    have hsame := flatMap_bytes_inj h
    clear h
    induction ms generalizing ms' with
    | nil =>
      rcases ms' with _ | ⟨m', ms'⟩
      · rfl
      · cases hsame
    | cons m ms ih =>
      rcases ms' with _ | ⟨m', ms'⟩
      · cases hsame
      · obtain ⟨hpacket, hrest⟩ := List.cons_eq_cons.mp hsame
        rw [packet_inj (hms m List.mem_cons_self) (hms' m' List.mem_cons_self) hpacket,
          ih (fun n hn => hms n (List.mem_cons_of_mem _ hn))
            (fun n hn => hms' n (List.mem_cons_of_mem _ hn)) hrest]
  · rintro rfl
    rfl

theorem published_stream_inj_once :
    ([⟨[0x61], [0x31], none⟩, ⟨[0x62], [], some 1⟩] : List Publication).flatMap
        (fun m => publishPacket m.topic m.payload m.qos (m.id.getD 0)) ≠
      ([⟨[0x61], [0x31], none⟩, ⟨[0x62], [], some 2⟩] : List Publication).flatMap
        (fun m => publishPacket m.topic m.payload m.qos (m.id.getD 0)) := fun h =>
  absurd ((published_stream_inj 0 (by simp [Publication.length, Publication.ident, idBytes])
    (by simp [Publication.length, Publication.ident, idBytes])).mp h) (by decide)

end Telling

end Wyostat.AdafruitMqtt
