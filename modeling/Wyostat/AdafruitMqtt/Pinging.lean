import Wyostat.AdafruitMqtt.Client

/-! What a packet of length 0 does to the MQTT client of Adafruit: everything behind it up to the
next pause goes into the buffer, so that a ping costs what stands around its answer. -/
namespace Wyostat.AdafruitMqtt
open PubSubClient (Memory Packet store)

/-- A packet is read into the buffer and nowhere behind it exactly when it is not one of length 0
that more than 148 bytes follow without a pause. -/
theorem readFullPacket_contained_iff (p : Packet) (hlen : p.body.length < 128 ^ 4)
    {bytes : List UInt8}
    (hbytes : bytes.length < 65536) {more : Stream} (hmore : more.Quiet) :
    (∀ buffer i, maxBufferSize ≤ i →
        (readFullPacket buffer (p.bytes.map some ++ (bytes.map some ++ more))).1 i = buffer i) ↔
      (p.body = [] → bytes.length ≤ 148) := by
  unfold maxBufferSize
  by_cases hbody : p.body = []
  · have hlength : (p.bytes ++ bytes).length = 2 + bytes.length := by
      rw [List.length_append, p.length_bytes, hbody, List.length_nil,
        PubSubClient.lengthBytes_of_lt (by decide)]
      rfl
    simp only [readFullPacket_empty hbody hbytes hmore, hbody, forall_const]
    constructor
    · -- a buffer that does not hold the byte already shows that it is overwritten
      intro h
      by_contra hlong
      have hlt : 150 < (p.bytes ++ bytes).length := by omega
      have hat : store (fun _ => (p.bytes ++ bytes)[150] + 1) 0 (p.bytes ++ bytes) (0 + 150) =
          (p.bytes ++ bytes)[150] := PubSubClient.store_add _ hlt
      rw [Nat.zero_add, h _ 150 le_rfl] at hat
      have hcarry := congrArg UInt8.toNat hat
      rw [UInt8.toNat_add, UInt8.toNat_one] at hcarry
      omega
    · intro hshort buffer i hi
      exact PubSubClient.store_of_le buffer (by omega)
  · refine iff_of_true (fun buffer i hi => ?_) fun h => absurd h hbody
    by_cases hthree : p.body.length < 128 ^ 3
    · have htake := List.length_take_le 149 p.bytes
      rw [readFullPacket_cut hbody hthree]
      show store buffer 0 (p.bytes.take 149) i = buffer i
      exact PubSubClient.store_of_le buffer (by omega)
    · have hheader : p.header.length ≤ 5 := length_header_le hlen
      rw [readFullPacket_eq p hlen, if_neg hthree]
      show store buffer 0 p.header i = buffer i
      exact PubSubClient.store_of_le buffer (by omega)

/-- With 149 bytes behind it a PINGRESP is too much for the buffer. -/
theorem readFullPacket_not_contained :
    ¬ ∀ buffer i, maxBufferSize ≤ i →
      (readFullPacket buffer ((Packet.bytes ⟨0xd0, []⟩).map some ++
        ((List.replicate 149 0).map some ++ []))).1 i = buffer i := fun h =>
  absurd ((readFullPacket_contained_iff ⟨0xd0, []⟩ (by decide)
    (by rw [List.length_replicate]; decide) (fun c hc => by cases hc)).mp h rfl)
    (by rw [List.length_replicate]; decide)

/-- A packet that is read as it is and does not have the type waited for. -/
structure Dropped (packetType : UInt8) (p : Packet) : Prop where
  body : p.body ≠ []
  fits : p.bytes.length ≤ 149
  type : p.first >>> 4 ≠ packetType

theorem processPacketsUntil_dropped {packetType : UInt8} {ps : List Packet}
    (hps : ∀ p ∈ ps, Dropped packetType p) {fuel : ℕ} (hfuel : ps.length ≤ fuel) (buffer : Memory)
    (hbuffer : buffer 0 >>> 4 ≠ packetType) (more : Stream) :
    ∃ (buffer' : Memory) (fuel' : ℕ), fuel = ps.length + fuel' ∧ buffer' 0 >>> 4 ≠ packetType ∧
      processPacketsUntil packetType fuel buffer ((ps.flatMap Packet.bytes).map some ++ more) =
        processPacketsUntil packetType fuel' buffer' more := by
  induction ps generalizing fuel buffer with
  | nil => exact ⟨buffer, fuel, (Nat.zero_add fuel).symm, hbuffer, rfl⟩
  | cons p ps ih =>
    obtain ⟨hbody, hfits, htype⟩ := hps p List.mem_cons_self
    obtain ⟨n, rfl⟩ : ∃ n, fuel = n + 1 :=
      Nat.exists_eq_succ_of_ne_zero (by rw [List.length_cons] at hfuel; omega)
    have hfirst : store buffer 0 p.bytes 0 = p.first := rfl
    obtain ⟨buffer', fuel', hn, hbuffer', hrest⟩ := ih
      (fun q hq => hps q (List.mem_cons_of_mem p hq))
      (show ps.length ≤ n by rw [List.length_cons] at hfuel; omega) (store buffer 0 p.bytes)
      (hfirst ▸ htype)
    refine ⟨buffer', fuel', by rw [List.length_cons]; omega, hbuffer', ?_⟩
    have hpos : p.bytes.length ≠ 0 := by
      have hlength := p.length_bytes
      omega
    rw [List.flatMap_cons, List.map_append, List.append_assoc, processPacketsUntil,
      readFullPacket_packet hbody hfits]
    simp only [if_neg hpos, hfirst, if_neg htype]
    exact hrest

theorem length_le_flatMap_bytes (ps : List Packet) :
    ps.length ≤ (ps.flatMap Packet.bytes).length := by
  induction ps with
  | nil => exact le_rfl
  | cons p ps ih =>
    have hlength := p.length_bytes
    rw [List.flatMap_cons, List.length_append, List.length_cons]
    omega

end Wyostat.AdafruitMqtt
