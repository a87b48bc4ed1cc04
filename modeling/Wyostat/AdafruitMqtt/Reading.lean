import Wyostat.PubSubClient.Framing
import Mathlib.Tactic.Ring
import Mathlib.Tactic.Linarith

/-! How the MQTT library of Adafruit reads packets: a length, then as many bytes as it says, which
for a length of 0 is every byte until there is a pause. -/
namespace Wyostat.AdafruitMqtt
open PubSubClient (Memory Packet store lengthBytes)

/-- `MAXBUFFERSIZE` -/
def maxBufferSize : ℕ := 150

/-- What arrives: bytes, and pauses at which whoever is waiting gives up. -/
abbrev Stream := List (Option UInt8)

/-- The loop of `readPacket`, once `len` bytes have been read. -/
def readLoop (start : ℕ) (maxlen : UInt16) : Memory → UInt16 → Stream → Memory × UInt16 × Stream
  | buffer, len, [] => (buffer, len, [])
  | buffer, len, none :: input => (buffer, len, input)
  | buffer, len, some c :: input =>
    let buffer := Function.update buffer (start + len.toNat) c
    let len := len + 1
    if len = maxlen then (buffer, len, input) else readLoop start maxlen buffer len input

/-- `readPacket` into the buffer from `start` on. -/
def readPacket (buffer : Memory) (start : ℕ) (maxlen : UInt16) (input : Stream) :
    Memory × UInt16 × Stream :=
  readLoop start maxlen buffer 0 input

/-- The loop of `readFullPacket` over the bytes of the length, each read by a `readPacket` of its
own: where the length ends and what it is, or `none` where it is given up. -/
def readLength : Memory → ℕ → ℕ → ℕ → Stream → Memory × Option (ℕ × ℕ) × Stream
  | buffer, _, _, _, [] => (buffer, none, [])
  | buffer, _, _, _, none :: input => (buffer, none, input)
  | buffer, pos, value, multiplier, some c :: input =>
    let buffer := Function.update buffer pos c
    let value := value + (c &&& 127).toNat * multiplier
    let multiplier := multiplier * 128
    if 128 * 128 * 128 < multiplier then (buffer, none, input)
    else if c &&& 128 ≠ 0 then readLength buffer (pos + 1) value multiplier input
    else (buffer, some (pos + 1, value), input)

/-- `readFullPacket`: the buffer, the length that it returns, and what has not been read. -/
def readFullPacket (buffer : Memory) : Stream → Memory × ℕ × Stream
  | [] => (buffer, 0, [])
  | none :: input => (buffer, 0, input)
  | some c :: input =>
    match readLength (Function.update buffer 0 c) 1 0 1 input with
    | (buffer, none, input) => (buffer, 0, input)
    | (buffer, some (pos, value), input) =>
      let r := readPacket buffer pos (UInt16.ofNat (min value (maxBufferSize - pos - 1))) input
      (r.1, pos + r.2.1.toNat % 256, r.2.2)

/-- Nothing arrives for a while. -/
def Stream.Quiet (input : Stream) : Prop := ∀ c, input.head? ≠ some (some c)

section Loop
variable (buffer : Memory) (start : ℕ)

theorem readLoop_bytes {maxlen : UInt16} (bytes : List UInt8) (len : UInt16) (more : Stream)
    (hfit : len.toNat + bytes.length < 65536)
    (hshort : ∀ k, 0 < k → k ≤ bytes.length → maxlen.toNat ≠ len.toNat + k) :
    readLoop start maxlen buffer len (bytes.map some ++ more) =
      readLoop start maxlen (store buffer (start + len.toNat) bytes)
        (len + UInt16.ofNat bytes.length) more := by
  induction bytes generalizing buffer len with
  | nil => simp
  | cons b bytes ih =>
    rw [List.length_cons] at hfit hshort
    have hnext : (len + 1).toNat = len.toNat + 1 := by
      rw [UInt16.toNat_add]
      exact Nat.mod_eq_of_lt (by change len.toNat + 1 < 65536; omega)
    have hcount : len + 1 + UInt16.ofNat bytes.length = len + UInt16.ofNat (bytes.length + 1) := by
      rw [UInt16.ofNat_add, UInt16.add_comm (UInt16.ofNat bytes.length), ← UInt16.add_assoc]
      rfl
    have hne : len + 1 ≠ maxlen := fun h => hshort 1 (by omega) (by omega) (by rw [← h, hnext])
    rw [List.map_cons, List.cons_append, readLoop]
    simp only [if_neg hne]
    rw [ih _ (len + 1) (by omega) fun k hk hle => by
        rw [hnext]
        have := hshort (k + 1) (by omega) (by omega)
        omega,
      hnext, hcount, ← Nat.add_assoc, PubSubClient.store_update, List.length_cons]

theorem readPacket_all {bytes : List UInt8} (hpos : bytes ≠ []) (hfit : bytes.length < 65536)
    (more : Stream) :
    readPacket buffer start (UInt16.ofNat bytes.length) (bytes.map some ++ more) =
      (store buffer start bytes, UInt16.ofNat bytes.length, more) := by
  obtain ⟨init, last, rfl⟩ : ∃ init last, bytes = init ++ [last] :=
    ⟨bytes.dropLast, bytes.getLast hpos, (List.dropLast_append_getLast hpos).symm⟩
  rw [List.length_append, List.length_singleton] at hfit ⊢
  have hinit : (UInt16.ofNat init.length).toNat = init.length := UInt16.toNat_ofNat_of_lt' (by
    change init.length < 65536
    omega)
  have hall : (UInt16.ofNat (init.length + 1)).toNat = init.length + 1 :=
    UInt16.toNat_ofNat_of_lt' hfit
  have hzero : (0 : UInt16).toNat = 0 := rfl
  have hnext : (0 : UInt16) + UInt16.ofNat init.length + 1 = UInt16.ofNat (init.length + 1) := by
    rw [UInt16.zero_add, UInt16.ofNat_add]
    rfl
  rw [readPacket, List.map_append, List.append_assoc, readLoop_bytes buffer start init 0 _
    (by rw [hzero]; omega) fun k hk hle => by rw [hall, hzero]; omega]
  rw [List.map_singleton, List.singleton_append, readLoop]
  simp only [if_pos hnext]
  rw [hnext, UInt16.zero_add, hinit, hzero, Nat.add_zero, ← PubSubClient.store_append,
    ← PubSubClient.store_update, PubSubClient.store_nil]

/-- With nothing asked for, everything up to the next pause is read. -/
theorem readPacket_zero {bytes : List UInt8} (hfit : bytes.length < 65536) {more : Stream}
    (hmore : more.Quiet) :
    readPacket buffer start 0 (bytes.map some ++ more) =
      (store buffer start bytes, UInt16.ofNat bytes.length, more.tail) := by
  have hzero : (0 : UInt16).toNat = 0 := rfl
  rw [readPacket, readLoop_bytes buffer start bytes 0 more (by rw [hzero]; omega)
    fun k hk hle => by rw [hzero]; omega, UInt16.zero_add, hzero, Nat.add_zero]
  rcases more with _ | ⟨_ | c, more⟩
  · rfl
  · rfl
  · exact absurd rfl (hmore c)

end Loop

section Length

theorem length_lengthBytes_pos (n : ℕ) : 0 < (lengthBytes n).length := by
  rw [PubSubClient.length_lengthBytes]
  exact Varint.length_encode_pos _ _

/-- A length of three bytes is read as it is, and one of four is given up. -/
theorem readLength_lengthBytes (n : ℕ) (buffer : Memory) (pos value multiplier : ℕ) (more : Stream)
    (hfit : multiplier * 128 ^ (lengthBytes n).length ≤ 128 ^ 4) :
    readLength buffer pos value multiplier ((lengthBytes n).map some ++ more) =
      (store buffer pos (lengthBytes n),
        if multiplier * 128 ^ (lengthBytes n).length ≤ 128 ^ 3 then
          some (pos + (lengthBytes n).length, value + n * multiplier) else none, more) := by
  induction n using Varint.digitsInduction (b := 128) (by decide) generalizing
    buffer pos value multiplier with
  | last n h =>
    obtain ⟨hhigh, hlow⟩ := PubSubClient.and_of_lt h
    have hvalue : (UInt8.ofNat n).toNat = n := UInt8.toNat_ofNat_of_lt' (h.trans (by decide))
    simp only [PubSubClient.lengthBytes_of_lt h, List.map_singleton, List.singleton_append,
      readLength, hhigh, hlow, hvalue, List.length_singleton, pow_one, ne_eq, not_true_eq_false,
      if_false]
    rw [← PubSubClient.store_update, PubSubClient.store_nil]
    split_ifs <;> first | rfl | omega
  | more n h ih =>
    obtain ⟨hhigh, hlow⟩ := PubSubClient.and_of_le (Nat.mod_lt n (show 0 < 128 by decide))
    have hvalue : (UInt8.ofNat (n % 128)).toNat = n % 128 :=
      UInt8.toNat_ofNat_of_lt' ((Nat.mod_lt n (by decide)).trans (by decide))
    have hpos := length_lengthBytes_pos (n / 128)
    rw [PubSubClient.lengthBytes_of_le h, List.length_cons, Nat.pow_succ] at hfit
    have hscale : multiplier * 128 * 128 ^ (lengthBytes (n / 128)).length =
        multiplier * (128 ^ (lengthBytes (n / 128)).length * 128) := by ring
    have hroom : multiplier * 128 ≤ 128 * 128 * 128 := by
      obtain ⟨k, hk⟩ := Nat.exists_eq_succ_of_ne_zero hpos.ne'
      have hone : 1 ≤ 128 ^ k := Nat.one_le_two_pow.trans (Nat.pow_le_pow_left (by decide) k)
      rw [hk, Nat.succ_eq_add_one, Nat.pow_succ] at hfit
      nlinarith
    have hsum : value + n % 128 * multiplier + n / 128 * (multiplier * 128) =
        value + n * multiplier := by
      have hn := Nat.mod_add_div n 128
      nlinarith
    simp only [PubSubClient.lengthBytes_of_le h, List.map_cons, List.cons_append, readLength, hhigh,
      hlow, hvalue, List.length_cons, ne_eq, not_false_eq_true, if_true, if_neg (not_lt.mpr hroom)]
    rw [ih _ _ _ _ (by rw [hscale]; exact hfit), PubSubClient.store_update, hsum, hscale,
      pow_succ 128 (lengthBytes (n / 128)).length, Nat.add_assoc, Nat.add_comm 1]

end Length

section Packets

theorem length_lengthBytes_le_iff (n k : ℕ) :
    (lengthBytes n).length ≤ k + 1 ↔ n < 128 ^ (k + 1) := by
  rw [PubSubClient.length_lengthBytes]
  exact Varint.length_encode_le_iff (by decide) n k

theorem readFullPacket_eq (p : Packet) (hlen : p.body.length < 128 ^ 4) (buffer : Memory)
    (more : Stream) :
    readFullPacket buffer (p.bytes.map some ++ more) =
      if p.body.length < 128 ^ 3 then
        let r := readPacket (store buffer 0 p.header) p.header.length
          (UInt16.ofNat (min p.body.length (149 - p.header.length))) (p.body.map some ++ more)
        (r.1, p.header.length + r.2.1.toNat % 256, r.2.2)
      else (store buffer 0 p.header, 0, p.body.map some ++ more) := by
  have hdigits := (length_lengthBytes_le_iff p.body.length 3).mpr hlen
  have hthree := length_lengthBytes_le_iff p.body.length 2
  have hscale : 1 * 128 ^ (lengthBytes p.body.length).length ≤ 128 ^ 3 ↔
      p.body.length < 128 ^ 3 := by
    rw [Nat.one_mul, Nat.pow_le_pow_iff_right (by decide), hthree]
  have hlength := readLength_lengthBytes p.body.length (Function.update buffer 0 p.first) 1 0 1
    (p.body.map some ++ more) (by
      rw [Nat.one_mul]
      exact Nat.pow_le_pow_right (by decide) hdigits)
  have hheader : p.header.length = 1 + (lengthBytes p.body.length).length := by
    rw [Packet.header, List.length_cons, Nat.add_comm]
  rw [PubSubClient.store_update buffer 0] at hlength
  rw [Packet.bytes, List.map_cons, List.cons_append, List.map_append, List.append_assoc,
    readFullPacket, hlength]
  simp only [hscale]
  by_cases hn : p.body.length < 128 ^ 3
  · have hroom : maxBufferSize - p.header.length - 1 = 149 - p.header.length := by
      unfold maxBufferSize
      omega
    simp only [if_pos hn, Nat.zero_add, Nat.mul_one, ← hheader, hroom]
    rfl
  · simp only [if_neg hn, Packet.header]

theorem length_readLoop_le (start : ℕ) (maxlen : UInt16) (buffer : Memory) (len : UInt16)
    (input : Stream) : (readLoop start maxlen buffer len input).2.2.length ≤ input.length - 1 := by
  induction input generalizing buffer len with
  | nil => simp [readLoop]
  | cons c input ih =>
    cases c with
    | none => simp [readLoop]
    | some c =>
      simp only [readLoop, List.length_cons, Nat.add_sub_cancel]
      split_ifs
      · exact le_rfl
      · have h := ih (Function.update buffer (start + len.toNat) c) (len + 1)
        omega

theorem header_add_body (p : Packet) : p.header ++ p.body = p.bytes := rfl

theorem length_header_le {p : Packet} {k : ℕ} (hlen : p.body.length < 128 ^ (k + 1)) :
    p.header.length ≤ k + 2 := by
  have hdigits := (length_lengthBytes_le_iff p.body.length k).mpr hlen
  rw [Packet.header, List.length_cons]
  omega

/-- Of a packet that is not empty as much is read as the buffer takes, less a byte. -/
theorem readFullPacket_cut {p : Packet} (hbody : p.body ≠ []) (hlen : p.body.length < 128 ^ 3)
    (buffer : Memory) (more : Stream) :
    readFullPacket buffer (p.bytes.map some ++ more) =
      (store buffer 0 (p.bytes.take 149), (p.bytes.take 149).length,
        (p.bytes.drop 149).map some ++ more) := by
  have hheader : p.header.length ≤ 4 := length_header_le hlen
  have hpos : 0 < p.body.length := List.length_pos_of_ne_nil hbody
  have htake : p.bytes.take 149 = p.header ++ p.body.take (149 - p.header.length) := by
    rw [← header_add_body, List.take_append, List.take_of_length_le (by omega)]
  have hdrop : p.bytes.drop 149 = p.body.drop (149 - p.header.length) := by
    rw [← header_add_body, List.drop_append, List.drop_of_length_le (by omega), List.nil_append]
  have hmin : min p.body.length (149 - p.header.length) =
      (p.body.take (149 - p.header.length)).length := by
    rw [List.length_take]
    omega
  have hsplit : p.body.map some ++ more = (p.body.take (149 - p.header.length)).map some ++
      ((p.body.drop (149 - p.header.length)).map some ++ more) := by
    rw [← List.append_assoc, ← List.map_append, List.take_append_drop]
  have hcount : (UInt16.ofNat (p.body.take (149 - p.header.length)).length).toNat % 256 =
      (p.body.take (149 - p.header.length)).length := by
    have hle := List.length_take_le (149 - p.header.length) p.body
    rw [UInt16.toNat_ofNat_of_lt'
      (show (p.body.take (149 - p.header.length)).length < 65536 by omega)]
    omega
  have hstore := PubSubClient.store_append buffer 0 p.header (p.body.take (149 - p.header.length))
  rw [Nat.zero_add] at hstore
  rw [readFullPacket_eq p (hlen.trans (by decide)), if_pos hlen, hmin, hsplit, readPacket_all _ _
    (List.ne_nil_of_length_pos (by rw [List.length_take]; omega)) (by rw [List.length_take]; omega)]
  simp only [hcount, hstore, htake, hdrop, List.length_append]

theorem readFullPacket_packet {p : Packet} (hbody : p.body ≠ []) (hfit : p.bytes.length ≤ 149)
    (buffer : Memory) (more : Stream) :
    readFullPacket buffer (p.bytes.map some ++ more) =
      (store buffer 0 p.bytes, p.bytes.length, more) := by
  have hlength := p.length_bytes
  rw [readFullPacket_cut hbody (by omega), List.take_of_length_le hfit, List.drop_of_length_le hfit]
  rfl

theorem readFullPacket_empty {p : Packet} (hbody : p.body = []) {bytes : List UInt8}
    (hbytes : bytes.length < 65536) {more : Stream} (hmore : more.Quiet) (buffer : Memory) :
    readFullPacket buffer (p.bytes.map some ++ (bytes.map some ++ more)) =
      (store buffer 0 (p.bytes ++ bytes), 2 + bytes.length % 256, more.tail) := by
  have hheader : p.header.length = 2 := by
    rw [Packet.header, hbody, List.length_nil, PubSubClient.lengthBytes_of_lt (by decide)]
    rfl
  have hpacket : p.bytes = p.header := by
    rw [← header_add_body, hbody, List.append_nil]
  have hstore := PubSubClient.store_append buffer 0 p.header bytes
  rw [Nat.zero_add, hheader] at hstore
  have hcount : (UInt16.ofNat bytes.length).toNat = bytes.length := UInt16.toNat_ofNat_of_lt' hbytes
  rw [readFullPacket_eq p (by rw [hbody]; decide), if_pos (by rw [hbody]; decide)]
  simp only [hbody, List.length_nil, Nat.zero_min, List.map_nil, List.nil_append, hheader]
  rw [show UInt16.ofNat 0 = 0 from rfl, readPacket_zero _ _ hbytes hmore]
  simp only [hstore, hcount, hpacket]

/-- The reader stops where the packet ends exactly when the packet fits the buffer, with a byte to
spare, and is not one of length 0 with something behind it, be it a pause. -/
theorem readFullPacket_stops_iff (p : Packet) (hlen : p.body.length < 128 ^ 4) (buffer : Memory)
    (more : Stream) :
    (readFullPacket buffer (p.bytes.map some ++ more)).2.2 = more ↔
      p.bytes.length ≤ 149 ∧ (p.body = [] → more = []) := by
  by_cases hbody : p.body = []
  · have hheader : p.header.length = 2 := by
      rw [Packet.header, hbody, List.length_nil, PubSubClient.lengthBytes_of_lt (by decide)]
      rfl
    rw [readFullPacket_eq p hlen, if_pos (by rw [hbody]; decide), ← header_add_body]
    simp only [hbody, List.length_nil, Nat.zero_min, List.map_nil, List.nil_append, List.append_nil,
      hheader, forall_const]
    constructor
    · intro h
      have hle := length_readLoop_le 2 0 (store buffer 0 p.header) 0 more
      refine ⟨by decide, List.eq_nil_of_length_eq_zero ?_⟩
      rw [readPacket] at h
      rw [show UInt16.ofNat 0 = 0 from rfl] at h
      rw [h] at hle
      omega
    · rintro ⟨-, rfl⟩
      rfl
  · have hlength := p.length_bytes
    -- what has not been read of a packet that is not empty is in the way
    have hcut {rest : List UInt8} : rest.map some ++ more = more ↔ rest = [] := by
      rw [List.append_left_eq_self, List.map_eq_nil_iff]
    by_cases hthree : p.body.length < 128 ^ 3
    · rw [readFullPacket_cut hbody hthree, hcut, List.drop_eq_nil_iff]
      simp [hbody]
    · rw [readFullPacket_eq p hlen, if_neg hthree, hcut]
      constructor
      · exact fun h => absurd h hbody
      · rintro ⟨hfit, -⟩
        omega

/-- A PINGRESP with something behind it is read with all of that. -/
theorem readFullPacket_stops_not_pingresp :
    ¬ (readFullPacket (fun _ => 0) ((Packet.bytes ⟨0xd0, []⟩).map some ++ [some 0x30])).2.2 =
      [some 0x30] := fun h =>
  absurd ((readFullPacket_stops_iff ⟨0xd0, []⟩ (by decide) (fun _ => 0) [some 0x30]).mp h).2
    (by simp)

end Packets

end Wyostat.AdafruitMqtt
