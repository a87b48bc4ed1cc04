import Wyostat.AdafruitMqtt.Publishing
import Wyostat.Lib.Run
import Mathlib.Data.List.TakeWhile

/-! Which publications a client of the MQTT library of Adafruit hears: those that need no more than
one byte for their length. -/
namespace Wyostat.AdafruitMqtt
open Machine
open PubSubClient (Memory Packet store lengthBytes)

/-- What a subscription keeps of a payload. -/
def clip (payload : List UInt8) : List UInt8 :=
  if subscriptionDataLen < payload.length then payload.take (subscriptionDataLen - 1) else payload

/-- The text a callback is handed; what is kept of 100 bytes without a NUL has no end. -/
def textOf (payload : List UInt8) : Option (List UInt8) :=
  if 0 ∈ clip payload ∨ (clip payload).length < subscriptionDataLen then
    some ((clip payload).takeWhile (· ≠ 0))
  else none

/-- What is to be heard of a message, and by which subscription. -/
def Client.hears (c : Client) (m : Publication) :
    Option (Fin maxSubscriptions × Option (List UInt8)) :=
  if m.length ≤ 127 then (c.find m.topic).map fun i => (i, textOf m.payload) else none

/-- A message that is heard is acknowledged if it asks for it. -/
def Client.acknowledges (c : Client) (m : Publication) : List (List UInt8) :=
  if (c.hears m).isSome then m.id.toList.map pubackPacket else []

/-- A call of `readSubscription`. -/
def listen (s : Client × Stream) (_ : Unit) : Client × Stream :=
  let r := s.1.readSubscription s.2
  (r.1, r.2.2.2)

/-- What `processPackets` hands to the callback of the subscription behind it. -/
def heard (s : Client × Stream) (_ : Unit) : List (Fin maxSubscriptions × Option (List UInt8)) :=
  let r := s.1.readSubscription s.2
  r.2.1.toList.filterMap fun i => (r.1.subscriptions i).map fun sub => (i, sub.text)

/-- The packets that are sent for what is read. -/
def answered (s : Client × Stream) (_ : Unit) : List (List UInt8) :=
  (s.1.readSubscription s.2).2.2.1

section Receiving

theorem store_zero {i : ℕ} {bytes : List UInt8} (buffer : Memory) (h : i < bytes.length) :
    store buffer 0 bytes i = bytes[i] := by
  have hget : store buffer 0 bytes (0 + i) = bytes[i] := PubSubClient.store_add buffer h
  rwa [Nat.zero_add] at hget

theorem range_store {start n : ℕ} {bytes : List UInt8} (buffer : Memory)
    (h : start + n ≤ bytes.length) :
    range (store buffer 0 bytes) start n = (bytes.drop start).take n := by
  apply List.ext_getElem
  · rw [range, List.length_map, List.length_range, List.length_take, List.length_drop]
    omega
  · intro k hk hk'
    rw [range, List.length_map, List.length_range] at hk
    simp [range, store_zero buffer (show start + k < bytes.length by omega)]

theorem text_keep (sub : Subscription) (payload : List UInt8) :
    (sub.keep (clip payload)).text = textOf payload := by
  have hle : (clip payload).length ≤ subscriptionDataLen := by
    unfold clip
    split_ifs
    · rw [List.length_take]
      exact (min_le_left _ _).trans (by decide)
    · omega
  unfold Subscription.text Subscription.keep textOf
  generalize clip payload = data at *
  by_cases hdata : 0 ∈ data
  · rw [if_pos (List.mem_append_left _ hdata), if_pos (Or.inl hdata)]
    refine congrArg some ?_
    rw [List.takeWhile_append, if_neg]
    intro hall
    have heq : data.takeWhile (· ≠ 0) = data := List.takeWhile_prefix _ |>.eq_of_length hall
    rw [List.takeWhile_eq_self_iff] at heq
    simpa using heq 0 hdata
  · have hall : data.takeWhile (· ≠ 0) = data := by
      rw [List.takeWhile_eq_self_iff]
      intro c hc
      have hne : c ≠ 0 := fun h => hdata (h ▸ hc)
      simpa using hne
    by_cases hshort : data.length < subscriptionDataLen
    · obtain ⟨k, hk⟩ : ∃ k, subscriptionDataLen - data.length = k + 1 :=
        ⟨subscriptionDataLen - data.length - 1, by omega⟩
      rw [if_pos (by rw [hk]; simp), if_pos (Or.inr hshort), List.takeWhile_append, hall, hk]
      simp
    · rw [if_neg, if_neg (by simp [hdata, hshort])]
      rw [show subscriptionDataLen - data.length = 0 by omega]
      simpa using hdata

/-- Every subscription has a topic. -/
def Client.Named (c : Client) : Prop := ∀ i, ∀ sub ∈ c.subscriptions i, sub.topic ≠ []

theorem Client.Named.find_nil {c : Client} (h : c.Named) : c.find [] = none := by
  rw [Client.find, List.find?_eq_none]
  intro i _
  rcases hsub : c.subscriptions i with _ | sub
  · simp
  · have htopic := h i sub hsub
    simp [htopic]

/-- What the client holds once a subscription has kept the data. -/
def Client.kept (c : Client) (m : Publication) : Client :=
  { c with
    buffer := store c.buffer 0 m.packet.bytes
    subscriptions := match c.find m.topic with
      | none => c.subscriptions
      | some i => Function.update c.subscriptions i
          ((c.subscriptions i).map (·.keep (clip m.payload))) }

theorem store_of_getElem? {i : ℕ} {b : UInt8} {bytes : List UInt8} (buffer : Memory)
    (h : bytes[i]? = some b) : store buffer 0 bytes i = b := by
  obtain ⟨hlt, rfl⟩ := List.getElem?_eq_some_iff.mp h
  exact store_zero buffer hlt

section Short
variable {m : Publication} (h : m.length ≤ 127) (buffer : Memory)

include h

theorem bytes_short : m.packet.bytes = m.packet.first :: UInt8.ofNat m.length ::
    UInt8.ofNat (m.topic.length / 256) :: UInt8.ofNat m.topic.length ::
      (m.topic ++ (m.ident ++ m.payload)) := by
  rw [Packet.bytes, length_body, PubSubClient.lengthBytes_of_lt (by omega)]
  simp only [Publication.packet, stringprint, List.cons_append, List.append_assoc, List.nil_append]

theorem length_bytes_short :
    m.packet.bytes.length = 4 + m.topic.length + m.ident.length + m.payload.length := by
  simp only [bytes_short h, List.length_cons, List.length_append]
  omega

theorem topiclen_short : (store buffer 0 m.packet.bytes 3).toNat = m.topic.length := by
  unfold Publication.length at h
  rw [store_of_getElem? buffer (show m.packet.bytes[3]? = some (UInt8.ofNat m.topic.length) by
    rw [bytes_short h]
    rfl)]
  exact UInt8.toNat_ofNat_of_lt' (by change m.topic.length < 256; omega)

theorem topic_short : range (store buffer 0 m.packet.bytes) 4 m.topic.length = m.topic := by
  rw [range_store _ (by rw [length_bytes_short h]; omega), bytes_short h]
  simp

theorem ack_short : (if m.packet.first &&& 0x6 = 0x2 then [pubackPacket (UInt16.ofNat
      (256 * (store buffer 0 m.packet.bytes (m.topic.length + 4)).toNat +
        (store buffer 0 m.packet.bytes (m.topic.length + 5)).toNat))] else []) =
    m.id.toList.map pubackPacket := by
  rcases hid : m.id with _ | id
  · rw [first_of_none hid, if_neg (by decide)]
    rfl
  · have hident : m.ident = [UInt8.ofNat (id.toNat / 256), UInt8.ofNat id.toNat] := by
      unfold Publication.ident
      rw [hid]
      rfl
    have hhigh : m.packet.bytes[m.topic.length + 4]? = some (UInt8.ofNat (id.toNat / 256)) := by
      rw [bytes_short h, hident]
      simp
    have hlow : m.packet.bytes[m.topic.length + 5]? = some (UInt8.ofNat id.toNat) := by
      rw [bytes_short h, hident]
      simp
    rw [first_of_some hid, if_pos (by decide), store_of_getElem? buffer hhigh,
      store_of_getElem? buffer hlow, id_of_bytes]
    rfl

theorem datalen_short : (UInt16.ofNat m.packet.bytes.length - UInt16.ofNat m.topic.length -
    UInt16.ofNat m.ident.length - 4).toNat = m.payload.length := by
  have hsum : UInt16.ofNat m.packet.bytes.length =
      UInt16.ofNat m.payload.length + 4 + UInt16.ofNat m.ident.length +
        UInt16.ofNat m.topic.length := by
    rw [length_bytes_short h, show (4 : UInt16) = UInt16.ofNat 4 from rfl, ← UInt16.ofNat_add,
      ← UInt16.ofNat_add, ← UInt16.ofNat_add]
    exact congrArg UInt16.ofNat (by omega)
  unfold Publication.length at h
  rw [hsum, UInt16.add_sub_cancel, UInt16.add_sub_cancel, UInt16.add_sub_cancel]
  exact UInt16.toNat_ofNat_of_lt' (by change m.payload.length < 65536; omega)

theorem data_short : range (store buffer 0 m.packet.bytes) (4 + m.topic.length + m.ident.length)
    (if subscriptionDataLen < m.payload.length then subscriptionDataLen - 1
      else m.payload.length) = clip m.payload := by
  have hle : (if subscriptionDataLen < m.payload.length then subscriptionDataLen - 1
      else m.payload.length) ≤ m.payload.length := by
    split_ifs <;> omega
  have hdrop : m.packet.bytes.drop (4 + m.topic.length + m.ident.length) = m.payload := by
    rw [bytes_short h, show 4 + m.topic.length + m.ident.length =
      (m.topic ++ m.ident).length + 4 by rw [List.length_append]; omega, ← List.append_assoc]
    simp only [List.drop_succ_cons, List.drop_left]
  rw [range_store _ (by rw [length_bytes_short h]; omega), hdrop, clip]
  split_ifs
  · rfl
  · exact List.take_length

theorem readSubscription_short (c : Client) (more : Stream) :
    c.readSubscription (m.packet.bytes.map some ++ more) =
      (c.kept m, c.find m.topic,
        if (c.find m.topic).isSome then m.id.toList.map pubackPacket else [], more) := by
  have hlength := length_bytes_short h
  have hbody : m.packet.body ≠ [] :=
    List.ne_nil_of_length_pos (by rw [length_body, Publication.length]; omega)
  have hfits : m.packet.bytes.length ≤ 149 := by
    unfold Publication.length at h
    omega
  have hfirst : store c.buffer 0 m.packet.bytes 0 = m.packet.first := rfl
  have hidlen : (if m.packet.first &&& 0x6 = 0x2 then 2 else 0) = m.ident.length := by
    unfold Publication.ident
    rcases hid : m.id with _ | id
    · rw [first_of_none hid, if_neg (by decide)]
      rfl
    · rw [first_of_some hid, if_pos (by decide)]
      rfl
  unfold Client.readSubscription Client.kept
  rw [readFullPacket_packet hbody hfits c.buffer more]
  simp only [hfirst, topiclen_short h, topic_short h, hidlen, ack_short h, datalen_short h,
    data_short h, if_neg (show ¬ m.packet.bytes.length = 0 by omega)]
  rw [show Client.find { c with buffer := store c.buffer 0 m.packet.bytes } m.topic = c.find m.topic
    from rfl]
  cases c.find m.topic <;> rfl

end Short

/-- A length of two bytes puts the high byte of that of the topic, which is 0, where the reader
looks for it. -/
theorem readSubscription_long {m : Publication} (h : 127 < m.length) (hfit : m.Fits) {c : Client}
    (hnamed : c.Named) (more : Stream) :
    c.readSubscription (m.packet.bytes.map some ++ more) =
      ({ c with buffer := store c.buffer 0 m.packet.bytes }, none, [], more) := by
  have hsize := hfit
  unfold Publication.Fits Publication.length at hsize
  have hdigits : lengthBytes m.length =
      [UInt8.ofNat (m.length % 128 + 128), UInt8.ofNat (m.length / 128)] := by
    unfold Publication.Fits at hfit
    rw [PubSubClient.lengthBytes_of_le (by omega), PubSubClient.lengthBytes_of_lt (by omega)]
  have hbytes : m.packet.bytes = m.packet.first :: UInt8.ofNat (m.length % 128 + 128) ::
      UInt8.ofNat (m.length / 128) :: UInt8.ofNat (m.topic.length / 256) ::
        UInt8.ofNat m.topic.length :: (m.topic ++ (m.ident ++ m.payload)) := by
    rw [Packet.bytes, length_body, hdigits]
    simp only [Publication.packet, stringprint, List.cons_append, List.append_assoc,
      List.nil_append]
  have hlength : m.packet.bytes.length ≤ 149 := by
    simp only [hbytes, List.length_cons, List.length_append]
    omega
  have hread := readFullPacket_packet (p := m.packet)
    (List.ne_nil_of_length_pos (by rw [length_body]; omega)) hlength c.buffer more
  have htopiclen : (store c.buffer 0 m.packet.bytes 3).toNat = 0 := by
    have hat : m.packet.bytes[3]? = some (UInt8.ofNat (m.topic.length / 256)) := by
      rw [hbytes]
      rfl
    rw [store_of_getElem? c.buffer hat, show m.topic.length / 256 = 0 by omega]
    rfl
  have hpos : m.packet.bytes.length ≠ 0 := by
    rw [hbytes, List.length_cons]
    omega
  unfold Client.readSubscription
  rw [hread]
  simp only [htopiclen, if_neg hpos]
  rw [show Client.find { c with buffer := store c.buffer 0 m.packet.bytes }
    (range (store c.buffer 0 m.packet.bytes) 4 0) = c.find [] from rfl, hnamed.find_nil]

end Receiving

section Runs

/-- The topics stay the same. -/
def Client.SameTopics (c c' : Client) : Prop :=
  ∀ i, (c.subscriptions i).map (·.topic) = (c'.subscriptions i).map (·.topic)

variable {c c' : Client}

theorem Client.SameTopics.find_eq (h : c.SameTopics c') (topic : List UInt8) :
    c'.find topic = c.find topic := by
  unfold Client.find
  congr 1
  funext i
  have hi := h i
  rcases hsub : c.subscriptions i with _ | sub <;>
    rcases hsub' : c'.subscriptions i with _ | sub' <;>
    rw [hsub, hsub'] at hi
  · cases hi
  · cases hi
  · have htopic : sub.topic = sub'.topic := Option.some.inj hi
    simp [htopic]

theorem Client.SameTopics.named (h : c.SameTopics c') (hnamed : c.Named) : c'.Named := by
  intro i sub hsub
  have hi := h i
  rw [Option.mem_def] at hsub
  rw [hsub] at hi
  obtain ⟨sub', hsub', htopic⟩ := Option.map_eq_some_iff.mp hi
  have hne : sub'.topic ≠ [] := hnamed i sub' hsub'
  exact fun hnil => hne (htopic.trans hnil)

theorem sameTopics_kept (c : Client) (m : Publication) : c.SameTopics (c.kept m) := by
  intro i
  unfold Client.kept
  rcases c.find m.topic with _ | k
  · rfl
  · by_cases hik : i = k
    · subst hik
      simp only [Function.update_self, Option.map_map]
      rfl
    · simp only [Function.update_of_ne hik]

theorem hears_eq (h : c.SameTopics c') : c'.hears = c.hears := by
  funext m
  rw [Client.hears, Client.hears, h.find_eq]

theorem kept_of_find {m : Publication} {i : Fin maxSubscriptions} (h : c.find m.topic = some i) :
    ∃ sub : Subscription, (c.kept m).subscriptions i = some (sub.keep (clip m.payload)) := by
  have hi := List.find?_some h
  rcases hsub : c.subscriptions i with _ | sub
  · rw [hsub] at hi
    cases hi
  · refine ⟨sub, ?_⟩
    simp only [Client.kept, h, Function.update_self, hsub, Option.map_some]

/-- One message: whether it is heard and acknowledged, and that what is behind it is left. -/
theorem listen_message (hnamed : c.Named) {m : Publication} (hm : m.Fits) (more : Stream) :
    ∃ c', c.SameTopics c' ∧ listen (c, m.packet.bytes.map some ++ more) () = (c', more) ∧
      heard (c, m.packet.bytes.map some ++ more) () = (c.hears m).toList ∧
      answered (c, m.packet.bytes.map some ++ more) () = c.acknowledges m := by
  by_cases hshort : m.length ≤ 127
  · have hread := readSubscription_short hshort c more
    refine ⟨c.kept m, sameTopics_kept c m, by simp only [listen, hread], ?_, ?_⟩
    · simp only [heard, hread, Client.hears, if_pos hshort]
      rcases hfind : c.find m.topic with _ | i
      · rfl
      · obtain ⟨sub, hkept⟩ := kept_of_find hfind
        simp only [Option.toList_some, List.filterMap_cons, List.filterMap_nil, hkept,
          Option.map_some, text_keep]
    · simp only [answered, hread, Client.acknowledges, Client.hears, if_pos hshort,
        Option.isSome_map]
  · have hread := readSubscription_long (by omega) hm hnamed more
    refine ⟨{ c with buffer := store c.buffer 0 m.packet.bytes }, fun _ => rfl,
      by simp only [listen, hread], ?_, ?_⟩
    · simp only [heard, hread, Client.hears, if_neg hshort]
      rfl
    · simp only [answered, hread, Client.acknowledges, Client.hears, if_neg hshort]
      rfl

/-- Of messages that fit the buffer, those whose packet states a length of one byte are heard, each
by the first subscription to its topic, once and in order; and just these are acknowledged. -/
theorem published_messages_heard (c : Client) (hnamed : c.Named) (ms : List Publication)
    (hms : ∀ m ∈ ms, m.Fits) (more : Stream) :
    let s : Client × Stream := (c, (ms.flatMap fun m => m.packet.bytes).map some ++ more)
    let calls := ms.map fun _ => ()
    outputs listen heard s calls = ms.filterMap c.hears ∧
      outputs listen answered s calls = ms.flatMap c.acknowledges ∧
        (run listen s calls).2 = more := by
  induction ms generalizing c with
  | nil => exact ⟨rfl, rfl, rfl⟩
  | cons m ms ih =>
    obtain ⟨c', htopics, hlisten, hheard, hanswered⟩ := listen_message hnamed
      (hms m List.mem_cons_self) ((ms.flatMap fun m => m.packet.bytes).map some ++ more)
    obtain ⟨hheards, hanswereds, hrest⟩ := ih c' (htopics.named hnamed)
      fun m hm => hms m (List.mem_cons_of_mem _ hm)
    have hacks : c'.acknowledges = c.acknowledges := by
      funext m
      rw [Client.acknowledges, Client.acknowledges, hears_eq htopics]
    rw [hears_eq htopics] at hheards
    rw [hacks] at hanswereds
    simp only [List.flatMap_cons, List.map_append, List.append_assoc, List.map_cons, outputs,
      run_cons, hlisten, hheard, hanswered]
    refine ⟨?_, ?_, hrest⟩
    · rw [hheards, List.filterMap_cons]
      cases c.hears m <;> rfl
    · rw [hanswereds]

/-- A client with one subscription, of which the table has room for more. -/
def oneSubscription : Client :=
  ⟨fun _ => 0, 0, fun i =>
    if i = 1 then some ⟨[0x61], 1, List.replicate subscriptionDataLen 0, 0⟩ else none⟩

/-- A message to it that asks to be acknowledged. -/
def oneMessage : List Publication := [⟨[0x41], [0x36, 0x38], some 7⟩]

theorem published_messages_heard_once :
    outputs listen heard (oneSubscription,
        (oneMessage.flatMap fun m => m.packet.bytes).map some ++ [none]) [()] =
        [(1, some [0x36, 0x38])] ∧
      outputs listen answered (oneSubscription,
        (oneMessage.flatMap fun m => m.packet.bytes).map some ++ [none]) [()] = [[0x40, 2, 0, 7]] ∧
      (run listen (oneSubscription,
        (oneMessage.flatMap fun m => m.packet.bytes).map some ++ [none]) [()]).2 = [none] := by
  have hnamed : oneSubscription.Named := by
    intro i sub hsub
    unfold oneSubscription at hsub
    dsimp only at hsub
    split_ifs at hsub
    · cases hsub
      decide
    · cases hsub
  obtain ⟨hheard, hanswered, hrest⟩ := published_messages_heard oneSubscription hnamed
    oneMessage (by decide) [none]
  exact ⟨hheard.trans (by decide), hanswered.trans (by decide), hrest⟩

end Runs

end Wyostat.AdafruitMqtt
