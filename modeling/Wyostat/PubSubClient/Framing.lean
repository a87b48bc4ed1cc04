import Wyostat.PubSubClient
import Wyostat.Lib.Varint
import Mathlib.Tactic.IntervalCases

/-! What the packet reader makes of a stream of packets: how far it reads, what it keeps in the
buffer and what it says of the length. -/
namespace Wyostat.PubSubClient

/-- A control packet: its first byte and what follows the length. -/
structure Packet where
  first : UInt8
  body : List UInt8
  deriving DecidableEq

/-- The length of a packet on the wire, seven bits to a byte. -/
def lengthBytes (n : ℕ) : List UInt8 := (Varint.encode 128 n).map UInt8.ofNat

def Packet.bytes (p : Packet) : List UInt8 := p.first :: (lengthBytes p.body.length ++ p.body)

section Storing
variable (buffer : Memory)

theorem store_append (start : ℕ) (xs ys : List UInt8) :
    store (store buffer start xs) (start + xs.length) ys = store buffer start (xs ++ ys) := by
  induction xs generalizing buffer start with
  | nil => simp
  | cons b xs ih =>
    rw [← store_update, List.length_cons, show start + (xs.length + 1) = start + 1 + xs.length by
      omega, ih, store_update, List.cons_append]

theorem store_of_lt {start i : ℕ} (bytes : List UInt8) (h : i < start) :
    store buffer start bytes i = buffer i := by
  rw [store, if_neg (by omega)]

theorem store_of_le {start i : ℕ} {bytes : List UInt8} (h : start + bytes.length ≤ i) :
    store buffer start bytes i = buffer i := by
  rw [store, if_pos (by omega), List.getElem?_eq_none (by omega), Option.getD_none]

theorem store_add {start i : ℕ} {bytes : List UInt8} (h : i < bytes.length) :
    store buffer start bytes (start + i) = bytes[i] := by
  rw [store, if_pos (by omega), show start + i - start = i by omega, List.getElem?_eq_getElem h,
    Option.getD_some]

theorem store_eq_self {start : ℕ} {bytes : List UInt8}
    (h : ∀ i (hi : i < bytes.length), buffer (start + i) = bytes[i]) :
    store buffer start bytes = buffer := by
  funext j
  by_cases hj : start ≤ j ∧ j < start + bytes.length
  · obtain ⟨i, rfl⟩ := Nat.exists_eq_add_of_le hj.1
    have hi : i < bytes.length := by omega
    rw [store_add buffer hi, h i hi]
  · by_cases hlt : j < start
    · exact store_of_lt buffer bytes hlt
    · exact store_of_le buffer (by omega)

theorem map_range_store (start : ℕ) (bytes : List UInt8) :
    (List.range bytes.length).map (fun i => store buffer start bytes (start + i)) = bytes := by
  have hmem (i : ℕ) (h : i < bytes.length) : store buffer start bytes (start + i) = bytes[i] :=
    store_add buffer h
  have hall := map_range_eq hmem 0 bytes.length (by omega)
  rwa [List.drop_zero, List.take_length] at hall

end Storing

section Length

theorem length_lengthBytes (n : ℕ) : (lengthBytes n).length = (Varint.encode 128 n).length :=
  List.length_map _

theorem length_lengthBytes_le {n : ℕ} (h : n < 128 ^ 4) : (lengthBytes n).length ≤ 4 := by
  rw [length_lengthBytes]
  exact (Varint.length_encode_le_iff (by decide) n 3).mpr h

theorem lengthBytes_of_lt {n : ℕ} (h : n < 128) : lengthBytes n = [UInt8.ofNat n] := by
  rw [lengthBytes, Varint.encode_of_lt h]
  rfl

theorem lengthBytes_of_le {n : ℕ} (h : 128 ≤ n) :
    lengthBytes n = UInt8.ofNat (n % 128 + 128) :: lengthBytes (n / 128) := by
  rw [lengthBytes, Varint.encode_of_le (by decide) h]
  rfl

theorem and_of_lt {n : ℕ} (h : n < 128) :
    UInt8.ofNat n &&& 128 = 0 ∧ UInt8.ofNat n &&& 127 = UInt8.ofNat n := by
  have hall : ∀ k : Fin 128, UInt8.ofNat k &&& 128 = 0 ∧ UInt8.ofNat k &&& 127 = UInt8.ofNat k := by
    decide
  exact hall ⟨n, h⟩

theorem and_of_le {d : ℕ} (h : d < 128) :
    UInt8.ofNat (d + 128) &&& 128 ≠ 0 ∧ UInt8.ofNat (d + 128) &&& 127 = UInt8.ofNat d := by
  have hall : ∀ k : Fin 128, UInt8.ofNat (k + 128) &&& 128 ≠ 0 ∧
      UInt8.ofNat (k + 128) &&& 127 = UInt8.ofNat k := by
    decide
  exact hall ⟨d, h⟩

theorem toUInt16_digit (d : UInt8) (multiplier : UInt32) :
    (d.toUInt32 * multiplier).toUInt16 = UInt16.ofNat (d.toNat * multiplier.toNat) := by
  rw [← UInt16.toNat_inj, UInt32.toNat_toUInt16, UInt32.toNat_mul, UInt8.toNat_toUInt32,
    UInt16.toNat_ofNat']
  exact Nat.mod_mod_of_dvd _ (by decide)

theorem ofNat_mul_toNat (n : ℕ) (multiplier : UInt32) :
    UInt16.ofNat (n * (multiplier * 128).toNat) = UInt16.ofNat (n * (multiplier.toNat * 128)) := by
  rw [← UInt16.toNat_inj, UInt16.toNat_ofNat', UInt16.toNat_ofNat', UInt32.toNat_mul]
  change n * (multiplier.toNat * 128 % 4294967296) % 65536 = _
  rw [Nat.mul_mod, Nat.mod_mod_of_dvd _ (by decide), ← Nat.mul_mod]

/-- A length is read as what 16 bits keep of it. -/
theorem readLength_lengthBytes (n : ℕ) (buffer : Memory) (len length : UInt16)
    (multiplier : UInt32) (more : List UInt8)
    (hlen : len.toNat + (lengthBytes n).length < 65536) :
    readLength buffer len length multiplier (lengthBytes n ++ more) =
      .ok (⟨store buffer len.toNat (lengthBytes n),
        len + UInt16.ofNat (lengthBytes n).length, more⟩,
        length + UInt16.ofNat (n * multiplier.toNat)) := by
  induction n using Varint.digitsInduction (b := 128) (by decide) generalizing
    buffer len length multiplier with
  | last n h =>
    obtain ⟨hhigh, hlow⟩ := and_of_lt h
    have hvalue : (UInt8.ofNat n).toNat = n := UInt8.toNat_ofNat_of_lt' (h.trans (by decide))
    simp only [lengthBytes_of_lt h, List.singleton_append, readLength, hhigh, hlow, toUInt16_digit,
      hvalue, ne_eq, not_true_eq_false, if_false]
    rw [← store_update, store_nil]
    rfl
  | more n h ih =>
    obtain ⟨hhigh, hlow⟩ := and_of_le (Nat.mod_lt n (show 0 < 128 by decide))
    have hvalue : (UInt8.ofNat (n % 128)).toNat = n % 128 :=
      UInt8.toNat_ofNat_of_lt' ((Nat.mod_lt n (by decide)).trans (by decide))
    rw [lengthBytes_of_le h, List.length_cons] at hlen
    have hnext : (len + 1).toNat = len.toNat + 1 := by
      rw [UInt16.toNat_add]
      exact Nat.mod_eq_of_lt (by change len.toNat + 1 < 65536; omega)
    have hsum : n % 128 * multiplier.toNat + n / 128 * (multiplier.toNat * 128) =
        n * multiplier.toNat := by
      rw [← Nat.mul_assoc, Nat.mul_right_comm, ← Nat.add_mul, Nat.mul_comm (n / 128),
        Nat.mod_add_div]
    have hcount (k : ℕ) : len + 1 + UInt16.ofNat k = len + UInt16.ofNat (k + 1) := by
      rw [UInt16.ofNat_add, UInt16.add_comm (UInt16.ofNat k), ← UInt16.add_assoc]
      rfl
    simp only [lengthBytes_of_le h, List.cons_append, readLength, hhigh, hlow, toUInt16_digit,
      hvalue, ne_eq, not_false_eq_true, if_true, List.length_cons]
    rw [ih _ _ _ _ (by omega), hnext, store_update, hcount, ofNat_mul_toNat, UInt16.add_assoc,
      ← UInt16.ofNat_add, hsum]

end Length

section Reading

@[simp] theorem ok_bind {ε α β : Type} (a : α) (f : α → Except ε β) : (.ok a >>= f) = f a := rfl

@[simp] theorem toOption_ok {ε α : Type} (a : α) : (.ok a : Except ε α).toOption = some a := rfl

@[simp] theorem toOption_error {ε α : Type} (e : ε) : (.error e : Except ε α).toOption = none := rfl

theorem toOption_bind {ε α β : Type} (x : Except ε α) (f : α → Except ε β) :
    (x >>= f).toOption = x.toOption.bind fun a => (f a).toOption := by
  cases x <;> rfl

theorem readRest_input (n : ℕ) (r : Reader) :
    (readRest n r).toOption.map (·.input) =
      if n ≤ r.input.length then some (r.input.drop n) else none := by
  induction n generalizing r with
  | zero => simp [readRest]
  | succ n ih =>
    obtain ⟨buffer, len, input⟩ := r
    cases input with
    | nil => simp [readRest]
    | cons digit input => simp [readRest, ih]

/-- The reader once it has read some bytes of a packet. -/
def readerBehind (head : List UInt8) (buffer : Memory) (input : List UInt8) : Reader :=
  ⟨store buffer 0 head, UInt16.ofNat head.length, input⟩

def Packet.header (p : Packet) : List UInt8 := p.first :: lengthBytes p.body.length

theorem tryPacket_header (p : Packet) (hlen : p.body.length < 128 ^ 4) (buffer : Memory)
    (more : List UInt8) :
    tryPacket buffer (p.bytes ++ more) = do
      let r ← readTopicLength p.first (readerBehind p.header buffer (p.body ++ more))
      let r ← readRest (p.body.length % 65536 - if isPublish p.first then 2 else 0) r
      return (if mqttMaxPacketSize < r.len then { r with len := 0 } else r,
        UInt8.ofNat (lengthBytes p.body.length).length) := by
  have hdigits := length_lengthBytes_le hlen
  have hone : ((0 : UInt16) + 1).toNat = 1 := rfl
  have hread := readLength_lengthBytes p.body.length (Function.update buffer 0 p.first) (0 + 1) 0 1
    (p.body ++ more) (by rw [hone]; omega)
  have hlength : ((0 : UInt16) + UInt16.ofNat (p.body.length * (1 : UInt32).toNat)).toNat =
      p.body.length % 65536 := by
    rw [UInt16.zero_add, UInt16.toNat_ofNat']
    change p.body.length * 1 % 65536 = _
    rw [Nat.mul_one]
  have hcount : (0 : UInt16) + 1 + UInt16.ofNat (lengthBytes p.body.length).length =
      UInt16.ofNat p.header.length := by
    rw [Packet.header, List.length_cons, Nat.add_comm, UInt16.ofNat_add]
    rfl
  have hllen : (UInt16.ofNat p.header.length - 1).toUInt8 =
      UInt8.ofNat (lengthBytes p.body.length).length := by
    rw [Packet.header, List.length_cons]
    generalize (lengthBytes p.body.length).length = k at hdigits
    interval_cases k <;> rfl
  rw [hone, store_update, hcount] at hread
  have hfirst : (Function.update buffer (UInt16.toNat 0) p.first) 0 = p.first := by
    change Function.update buffer 0 p.first 0 = _
    rw [Function.update_self]
  simp only [tryPacket, Packet.bytes, List.cons_append, List.append_assoc, Reader.readByte, ok_bind,
    hfirst]
  change (readLength (Function.update buffer 0 p.first) (0 + 1) 0 1 _) >>= _ = _
  rw [hread, ok_bind, hlength, hllen]
  rfl

theorem bodyRead_input (first : UInt8) (n : ℕ) (r : Reader) :
    let m := max n (if isPublish first then 2 else 0)
    (readTopicLength first r >>= readRest (n - if isPublish first then 2 else 0)).toOption.map
        (·.input) =
      if m ≤ r.input.length then some (r.input.drop m) else none := by
  obtain ⟨buffer, len, input⟩ := r
  by_cases hpublish : isPublish first
  · simp only [readTopicLength, if_pos hpublish]
    rcases input with _ | ⟨a, _ | ⟨b, input⟩⟩
    · have hshort : ¬ max n 2 ≤ 0 := by omega
      simp [Reader.readByte, toOption_bind, hshort]
    · have hshort : ¬ max n 2 ≤ 1 := by omega
      simp [Reader.readByte, toOption_bind, hshort]
    · have hmax : max n 2 = n - 2 + 2 := by omega
      simp [Reader.readByte, readRest_input, hmax]
  · simp [readTopicLength, if_neg hpublish, readRest_input]

/-- How far a packet is read: a PUBLISH packet two bytes at least, and of a length no more than 16
bits keep. -/
theorem readPacket_input (p : Packet) (hlen : p.body.length < 128 ^ 4) (buffer : Memory)
    (more : List UInt8) :
    let m := max (p.body.length % 65536) (if isPublish p.first then 2 else 0)
    (readPacket buffer (p.bytes ++ more)).map (·.1.input) =
      if m ≤ (p.body ++ more).length then some ((p.body ++ more).drop m) else none := by
  have hinput (r : Reader) : (if mqttMaxPacketSize < r.len then { r with len := 0 } else r).input =
      r.input := by
    split_ifs <;> rfl
  refine Eq.trans ?_ (bodyRead_input p.first (p.body.length % 65536)
    (readerBehind p.header buffer (p.body ++ more)))
  rw [readPacket, tryPacket_header p hlen]
  simp only [toOption_bind, Option.map_eq_bind, Option.bind_assoc, Function.comp_def]
  simp only [pure, Except.pure, Except.toOption, Option.bind_some, hinput]

/-- The reader stops where the packet ends exactly when its length needs no more than 16 bits and,
for PUBLISH, leaves room for the length of a topic. -/
theorem readPacket_stops_iff (p : Packet) (hlen : p.body.length < 128 ^ 4) (buffer : Memory)
    (more : List UInt8) :
    (readPacket buffer (p.bytes ++ more)).map (·.1.input) = some more ↔
      p.body.length < 65536 ∧ (isPublish p.first → 2 ≤ p.body.length) := by
  have hstop (m : ℕ) : (if m ≤ (p.body ++ more).length then some ((p.body ++ more).drop m)
      else none) = some more ↔ m = p.body.length := by
    constructor
    · intro h
      split_ifs at h with hle
      have hlength := congrArg List.length (Option.some_inj.mp h)
      rw [List.length_drop] at hlength
      rw [List.length_append] at hle hlength
      omega
    · rintro rfl
      rw [if_pos (by simp), List.drop_left]
  rw [readPacket_input p hlen, hstop]
  by_cases hpublish : isPublish p.first
  · simp only [hpublish, if_true, true_implies]
    omega
  · simp only [hpublish, if_false, false_implies, and_true]
    omega

/-- A PUBLISH packet of one byte: the reader takes the next byte for a part of it. -/
theorem readPacket_stops_iff_short :
    (readPacket (fun _ => 0) ((⟨0x30, [0]⟩ : Packet).bytes ++ [0xD0, 0])).map (·.1.input) =
        some [0xD0, 0] ↔
      ([0] : List UInt8).length < 65536 ∧ (isPublish 0x30 → 2 ≤ ([0] : List UInt8).length) :=
  readPacket_stops_iff ⟨0x30, [0]⟩ (by decide) (fun _ => 0) [0xD0, 0]

/-- A packet that the reader stops behind, and whose bytes 16 bits count. -/
structure Packet.Framed (p : Packet) : Prop where
  topic : isPublish p.first → 2 ≤ p.body.length
  count : p.bytes.length < 65536

theorem Packet.length_bytes (p : Packet) :
    p.bytes.length = 1 + (lengthBytes p.body.length).length + p.body.length := by
  rw [Packet.bytes, List.length_cons, List.length_append]
  omega

theorem readByte_readerBehind (head : List UInt8) (b : UInt8) (buffer : Memory)
    (input : List UInt8) (h : head.length < 65536) :
    (readerBehind head buffer (b :: input)).readByte =
      .ok (readerBehind (head ++ [b]) buffer input) := by
  have hstore := store_append buffer 0 head [b]
  rw [← store_update, store_nil, Nat.zero_add] at hstore
  simp only [Reader.readByte, readerBehind, UInt16.toNat_ofNat_of_lt' h, hstore,
    List.length_append, UInt16.ofNat_add]
  rfl

theorem readRest_readerBehind (head body : List UInt8) (buffer : Memory) (more : List UInt8)
    (hhead : head.length ≤ 128) (h : (head ++ body).length < 65536) :
    readRest body.length (readerBehind head buffer (body ++ more)) =
      .ok ⟨store buffer 0 ((head ++ body).take 128), UInt16.ofNat (head ++ body).length,
        more⟩ := by
  rw [List.length_append] at h
  have hlt : (UInt16.ofNat head.length).toNat = head.length :=
    UInt16.toNat_ofNat_of_lt' (by change head.length < 65536; omega)
  have hstore := store_append buffer 0 head (body.take (128 - head.length))
  rw [Nat.zero_add] at hstore
  rw [readerBehind, readRest_store _ _ _ _ (by omega), hlt, hstore, List.take_append,
    List.take_of_length_le hhead, List.length_append, UInt16.ofNat_add]

/-- The two bytes that are read on their own are stored where they belong. -/
theorem bodyRead_store (p : Packet) (h : p.Framed) (buffer : Memory) (more : List UInt8) :
    (readTopicLength p.first (readerBehind p.header buffer (p.body ++ more)) >>=
        readRest (p.body.length - if isPublish p.first then 2 else 0)) =
      .ok ⟨store buffer 0 (p.bytes.take 128), UInt16.ofNat p.bytes.length, more⟩ := by
  have htotal := h.count
  have hdigits : (lengthBytes p.body.length).length ≤ 4 := by
    rw [p.length_bytes] at htotal
    exact length_lengthBytes_le (by omega)
  have hbytes : p.bytes = p.header ++ p.body := rfl
  have hheader : p.header.length ≤ 5 := by
    rw [Packet.header, List.length_cons]
    omega
  by_cases hpublish : isPublish p.first
  · obtain ⟨a, b, text, hbody⟩ : ∃ a b text, p.body = a :: b :: text := by
      rcases hp : p.body with _ | ⟨a, _ | ⟨b, text⟩⟩
      · exact absurd (h.topic hpublish) (by simp [hp])
      · exact absurd (h.topic hpublish) (by simp [hp])
      · exact ⟨a, b, text, rfl⟩
    have hsplit : p.bytes = p.header ++ [a] ++ [b] ++ text := by
      rw [hbytes, hbody]
      simp
    have hread := readRest_readerBehind (p.header ++ [a] ++ [b]) text buffer more
      (by simp only [List.length_append, List.length_singleton]; omega) (by rwa [← hsplit])
    rw [readTopicLength, if_pos hpublish, if_pos hpublish, hsplit, hbody, List.cons_append,
      List.cons_append, readByte_readerBehind _ _ _ _ (by omega), ok_bind,
      readByte_readerBehind _ _ _ _ (by simp; omega), ok_bind]
    exact hread
  · rw [readTopicLength, if_neg hpublish, if_neg hpublish, ok_bind, Nat.sub_zero]
    exact readRest_readerBehind p.header p.body buffer more (by omega) htotal

/-- A packet is read as a whole; one that does not fit the buffer is to be ignored. -/
theorem tryPacket_bytes (p : Packet) (h : p.Framed) (buffer : Memory) (more : List UInt8) :
    tryPacket buffer (p.bytes ++ more) = .ok (⟨store buffer 0 (p.bytes.take 128),
      if p.bytes.length ≤ 128 then UInt16.ofNat p.bytes.length else 0, more⟩,
      UInt8.ofNat (lengthBytes p.body.length).length) := by
  have htotal := h.count
  have hbody : p.body.length < 65536 := by
    rw [p.length_bytes] at htotal
    omega
  have hfits : mqttMaxPacketSize < UInt16.ofNat p.bytes.length ↔ ¬ p.bytes.length ≤ 128 := by
    rw [UInt16.lt_iff_toNat_lt, UInt16.toNat_ofNat_of_lt' htotal]
    exact Nat.not_le.symm
  rw [tryPacket_header p (hbody.trans (by decide)), Nat.mod_eq_of_lt hbody]
  have hread := bodyRead_store p h buffer more
  rw [← bind_assoc, hread, ok_bind]
  by_cases hle : p.bytes.length ≤ 128
  · rw [if_neg (mt hfits.mp (not_not.mpr hle)), if_pos hle]
    rfl
  · rw [if_pos (hfits.mpr hle), if_neg hle]
    rfl

end Reading

section Publish

theorem publishPacket_eq_bytes (first : UInt8) {topic rest : List UInt8}
    (h : 2 + (topic ++ rest).length < 128) :
    publishPacket first topic rest = (Packet.mk first (UInt8.ofNat (topic.length / 256) ::
      UInt8.ofNat topic.length :: (topic ++ rest))).bytes := by
  have hlength : (UInt8.ofNat (topic.length / 256) :: UInt8.ofNat topic.length ::
      (topic ++ rest)).length = 2 + (topic ++ rest).length := by
    rw [List.length_cons, List.length_cons]
    omega
  rw [Packet.bytes, hlength, lengthBytes_of_lt h]
  rfl

theorem readPacket_publishPacket {first : UInt8} {topic rest : List UInt8}
    (hfits : (publishPacket first topic rest).length ≤ 128) (buffer : Memory)
    (more : List UInt8) :
    readPacket buffer (publishPacket first topic rest ++ more) =
      some (⟨store buffer 0 (publishPacket first topic rest),
        UInt16.ofNat (publishPacket first topic rest).length, more⟩, 1) := by
  have hfour := length_publishPacket first topic rest
  have hshort : 2 + (topic ++ rest).length < 128 := by omega
  have hbytes := publishPacket_eq_bytes first hshort
  set p := Packet.mk first (UInt8.ofNat (topic.length / 256) :: UInt8.ofNat topic.length ::
    (topic ++ rest)) with hp
  have hbody : p.body.length = 2 + (topic ++ rest).length := by
    rw [hp, List.length_cons, List.length_cons]
    omega
  rw [hbytes] at hfits ⊢
  have hframed : p.Framed := ⟨fun _ => by omega, by omega⟩
  rw [readPacket, tryPacket_bytes p hframed, if_pos hfits, List.take_of_length_le hfits, hbody,
    lengthBytes_of_lt hshort]
  rfl

theorem loop_publishPacket {first : UInt8} {topic rest : List UInt8}
    (hfirst : isPublish first) (hfits : (publishPacket first topic rest).length ≤ 128)
    (hid : msgIdSize first ≤ rest.length) (buffer : Memory) (more : List UInt8) :
    ∃ h, loop buffer (publishPacket first topic rest ++ more) = some h ∧ h.topic = topic ∧
      h.bytes = rest.drop (msgIdSize first) := by
  have hfour : 4 + (topic ++ rest).length ≤ 128 := by rwa [← length_publishPacket first]
  have hlen : (UInt16.ofNat (publishPacket first topic rest).length).toNat =
      4 + (topic ++ rest).length := by
    rw [length_publishPacket, UInt16.toNat_ofNat']
    omega
  have hpos : 0 < UInt16.ofNat (publishPacket first topic rest).length := by
    rw [UInt16.lt_iff_toNat_lt, hlen]
    exact Nat.lt_of_lt_of_le (by decide) (Nat.le_add_right 4 _)
  refine ⟨_, ?_, dispatch_publishPacket buffer hfour hid⟩
  rw [loop, readPacket_publishPacket hfits buffer more, Option.bind_eq_bind,
    Option.bind_some]
  dsimp only
  rw [if_pos ⟨hpos, hfirst⟩, hlen]
  rfl

end Publish

end Wyostat.PubSubClient
